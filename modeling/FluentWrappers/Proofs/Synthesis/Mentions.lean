import FluentWrappers.Lowering.Closure
import FluentWrappers.Proofs.Synthesis.Product

/-!
# What synthesized types mention

The members of a product mention only what stands for source types, and names of the base runtime. Its
own parts mention no more than these, the wrappers of the same source type, and the root object.
-/

namespace FluentWrappers

open Lowering (Mention RuntimeNames mentionsOf mentionsOfAll runtimeNames)

namespace Synthesis.Synthesizer

variable {s : Synthesizer} {u v : SourceType} {name other : TypeName} {kind : ProductKind}

/-! ### Mentions of images -/

/-- A reference to the source type by some name gives way to this synthesized type. -/
def StandsAs (s : Synthesizer) (u : SourceType) (name : TypeName) : Prop :=
  ∃ mention, s.sourceImage? mention u = some (.synthesized name)

/-- The name is that of what stands for a source type that one of the given names refers to. -/
def Aliased (s : Synthesizer) (names : List TypeName) (name : TypeName) : Prop :=
  ∃ mention ∈ names, ∃ u, s.catalog.get? mention = some u ∧ s.StandsAs u name

theorem Aliased.subset {names names' : List TypeName} (aliased : s.Aliased names name)
    (more : names ⊆ names') : s.Aliased names' name := by
  obtain ⟨mention, isIn, rest⟩ := aliased
  exact ⟨mention, more isIn, rest⟩

theorem exists_product_of_standsAs (stands : s.StandsAs u name) :
    ∃ kind t, s.keyOf kind u ∈ s.mentionKeys u ∧ s.product u kind = some t ∧ t.name = name := by
  obtain ⟨mention, image⟩ := stands
  rcases u.foreign_or with ⟨underlying, literals, isEnum⟩ | ⟨notEnum, runtime⟩ | foreign
  · rw [sourceImage?_enum isEnum] at image
    cases image
    refine ⟨.enumClone, _, ?_, product_enumClone isEnum, rfl⟩
    rw [mentionKeys_enum isEnum]
    exact List.mem_singleton_self _
  · rw [sourceImage?_runtime notEnum runtime] at image
    cases image
  · rw [sourceImage?_foreign foreign, Option.ite_none_right_eq_some] at image
    obtain ⟨some, image⟩ := image
    cases image
    unfold standIn
    rw [mentionKeys_foreign foreign]
    by_cases isStruct : u.kind = .struct
    · rw [if_pos isStruct, if_pos isStruct]
      refine ⟨.structClone, _, ?_, product_structClone some, rfl⟩
      exact mem_memberKeys.2 (Or.inr (Or.inr rfl))
    · rw [if_neg isStruct, if_neg isStruct]
      exact ⟨.interface, _, List.mem_cons_self, product_interface some, rfl⟩

theorem sourceImage?_cases {t : TypeRef} (image : s.sourceImage? name u = some t) :
    (∃ other, t = .synthesized other) ∨ t = .named name ∧ u.isRuntime = true := by
  rcases u.foreign_or with ⟨underlying, literals, isEnum⟩ | ⟨notEnum, runtime⟩ | foreign
  · rw [sourceImage?_enum isEnum] at image
    exact Or.inl ⟨u.name, (Option.some.inj image).symm⟩
  · rw [sourceImage?_runtime notEnum runtime] at image
    exact Or.inr ⟨(Option.some.inj image).symm, runtime⟩
  · rw [sourceImage?_foreign foreign, Option.ite_none_right_eq_some] at image
    exact Or.inl ⟨s.standIn u, (Option.some.inj image.2).symm⟩

theorem exists_of_namedImage? {t : TypeRef} (image : s.namedImage? name = some t) :
    ∃ u, s.catalog.get? name = some u ∧ s.sourceImage? name u = some t :=
  Option.bind_eq_some_iff.1 image

mutual

theorem mem_synthesizedNames_image? (type : TypeRef) {t : TypeRef} (image : s.image? type = some t)
    (isIn : name ∈ t.synthesizedNames) :
    name ∈ type.synthesizedNames ∨ s.Aliased (s.needs type) name := by
  cases type with
  | named mention =>
    unfold image? at image
    unfold needs
    obtain ⟨u, found, ofSource⟩ := exists_of_namedImage? image
    rw [image, Option.isSome_some, if_pos rfl]
    rcases sourceImage?_cases ofSource with ⟨other, rfl⟩ | ⟨rfl, -⟩
    · obtain rfl := List.mem_singleton.1 isIn
      exact Or.inr ⟨mention, List.mem_singleton_self _, u, found, mention, ofSource⟩
    · exact absurd isIn List.not_mem_nil
  | array element =>
    unfold image? at image
    obtain ⟨t, ofElement, rfl⟩ := Option.map_eq_some_iff.1 image
    exact mem_synthesizedNames_image? element ofElement isIn
  | generic definition args =>
    unfold image? at image
    unfold needs
    rw [Option.ite_none_right_eq_some] at image
    obtain ⟨registered, image⟩ := image
    obtain ⟨ts, ofArgs, rfl⟩ := Option.map_eq_some_iff.1 image
    rw [if_pos registered]
    exact mem_synthesizedNames_images? args ofArgs isIn
  | primitive | string | object | synthesized =>
    cases image
    exact Or.inl isIn

theorem mem_synthesizedNames_images? (types : List TypeRef) {ts : List TypeRef}
    (images : s.images? types = some ts) (isIn : name ∈ TypeRef.synthesizedNamesOfAll ts) :
    name ∈ TypeRef.synthesizedNamesOfAll types ∨ s.Aliased (s.needsOfAll types) name := by
  cases types with
  | nil =>
    cases images
    exact Or.inl isIn
  | cons type rest =>
    unfold images? at images
    obtain ⟨t, ofFirst, images⟩ := Option.bind_eq_some_iff.1 images
    obtain ⟨ts, ofRest, rfl⟩ := Option.map_eq_some_iff.1 images
    unfold needsOfAll
    rw [ofFirst, Option.isSome_some, if_pos rfl]
    rcases List.mem_append.1 isIn with isIn | isIn
    · exact (mem_synthesizedNames_image? type ofFirst isIn).imp (List.mem_append_left _)
        fun aliased => aliased.subset (List.subset_append_left _ _)
    · exact (mem_synthesizedNames_images? rest ofRest isIn).imp (List.mem_append_right _)
        fun aliased => aliased.subset (List.subset_append_right _ _)

end

/-! ### What the base runtime provides -/

/-- The base runtime of the catalog provides the mention, whatever else is defined. -/
def IsBase (s : Synthesizer) (mention : Mention) : Prop :=
  ∀ defined, mention.isProvided (runtimeNames s.catalog) defined = true

/-- The mention is of a synthesized type with one of the names, or of the base runtime. -/
def Provides (s : Synthesizer) (names : List TypeName) (mention : Mention) : Prop :=
  (∃ name ∈ names, mention = .made name.canonical) ∨ s.IsBase mention

theorem Provides.subset {names names' : List TypeName} {mention : Mention}
    (provides : s.Provides names mention) (more : names ⊆ names') : s.Provides names' mention := by
  rcases provides with ⟨name, isIn, same⟩ | isBase
  · exact Or.inl ⟨name, more isIn, same⟩
  · exact Or.inr isBase

theorem isBase_named (found : s.catalog.get? name = some u) (runtime : u.isRuntime = true) :
    s.IsBase (.named name.canonical) := by
  intro defined
  have isIn : name.canonical ∈ (runtimeNames s.catalog).types := by
    rw [← SourceCatalog.canonical_of_get? found]
    have isKnown := (SourceCatalog.known_of_get? found).mem
    exact List.mem_map_of_mem (List.mem_filter.2 ⟨isKnown, runtime⟩)
  show (defined.contains name.canonical || (runtimeNames s.catalog).types.contains name.canonical) =
    true
  rw [List.contains_iff_mem.2 isIn, Bool.or_true]

mutual

theorem provides_image? (type : TypeRef) {t : TypeRef} (image : s.image? type = some t) :
    ∀ mention ∈ mentionsOf t, s.Provides t.synthesizedNames mention := by
  intro mention isIn
  cases type with
  | named name =>
    unfold image? at image
    obtain ⟨u, found, ofSource⟩ := exists_of_namedImage? image
    rcases sourceImage?_cases ofSource with ⟨other, rfl⟩ | ⟨rfl, runtime⟩
    · exact Or.inl ⟨other, List.mem_singleton_self _, List.mem_singleton.1 isIn⟩
    · rw [List.mem_singleton.1 isIn]
      exact Or.inr (isBase_named found runtime)
  | array element =>
    unfold image? at image
    obtain ⟨t, ofElement, rfl⟩ := Option.map_eq_some_iff.1 image
    exact provides_image? element ofElement mention isIn
  | generic definition args =>
    unfold image? at image
    rw [Option.ite_none_right_eq_some] at image
    obtain ⟨registered, image⟩ := image
    obtain ⟨ts, ofArgs, rfl⟩ := Option.map_eq_some_iff.1 image
    rcases List.mem_cons.1 isIn with rfl | isIn
    · exact Or.inr fun _ => registered
    · exact provides_images? args ofArgs mention isIn
  | primitive | string | object =>
    cases image
    exact absurd isIn List.not_mem_nil
  | synthesized name =>
    cases image
    exact Or.inl ⟨name, List.mem_singleton_self _, List.mem_singleton.1 isIn⟩

theorem provides_images? (types : List TypeRef) {ts : List TypeRef}
    (images : s.images? types = some ts) :
    ∀ mention ∈ mentionsOfAll ts, s.Provides (TypeRef.synthesizedNamesOfAll ts) mention := by
  intro mention isIn
  cases types with
  | nil =>
    cases images
    exact absurd isIn List.not_mem_nil
  | cons type rest =>
    unfold images? at images
    obtain ⟨t, ofFirst, images⟩ := Option.bind_eq_some_iff.1 images
    obtain ⟨ts, ofRest, rfl⟩ := Option.map_eq_some_iff.1 images
    rcases List.mem_append.1 isIn with isIn | isIn
    · exact (provides_image? type ofFirst mention isIn).subset (List.subset_append_left _ _)
    · exact (provides_images? rest ofRest mention isIn).subset (List.subset_append_right _ _)

end

end Synthesis.Synthesizer

/-! ### Parts of types -/

namespace Synthesis

/-- The types that a method takes and gives. -/
def MethodSpec.types (m : MethodSpec) : List TypeRef := m.params.map (·.type) ++ m.returns.toList

/-- The names that a method mentions besides its types: its binding's and those in its body. -/
def MethodSpec.links (m : MethodSpec) : List TypeName :=
  (m.implements.map (·.interface)).toList ++
    (m.body.map fun b => b.instructions.filterMap Instruction.owner?).getD []

/-- The type is that of a member or a synthesized one of the names. -/
def IsPart (members : List Member) (names : List TypeName) (type : TypeRef) : Prop :=
  (∃ m ∈ members, type = m.type) ∨ ∃ name ∈ names, type = .synthesized name

structure MethodSpec.Keeps (m : MethodSpec) (members : List Member) (names : List TypeName) :
    Prop where
  types : ∀ type ∈ m.types, IsPart members names type
  links : m.links ⊆ MethodTarget.rootConstructor.owner :: names

/-- The type mentions its members' types, the given names and the root object, and nothing else. -/
structure SynthesizedType.Keeps (t : SynthesizedType) (names : List TypeName) : Prop where
  interfaces : ∀ name ∈ t.interfaces, name ∈ names
  fields : ∀ f ∈ t.fields, IsPart t.members names f.type
  properties : ∀ p ∈ t.properties, IsPart t.members names p.type
  methods : ∀ m ∈ t.methods, m.Keeps t.members names

variable {t : SynthesizedType} {names : List TypeName} {name : TypeName}

theorem SynthesizedType.Keeps.isPart (keeps : t.Keeps names) {type : TypeRef}
    (isIn : type ∈ t.memberTypes) : IsPart t.members names type := by
  simp only [memberTypes, List.mem_append, List.mem_map, List.mem_flatMap] at isIn
  rcases isIn with (⟨f, isField, rfl⟩ | ⟨p, isProperty, rfl⟩) | ⟨m, isMethod, isType⟩
  · exact keeps.fields f isField
  · exact keeps.properties p isProperty
  · exact (keeps.methods m isMethod).types type (List.mem_append.2 (by simpa using isType))

theorem mem_dependencies {t : SynthesizedType} {name : TypeName} : name ∈ t.dependencies ↔
    name ∈ t.mentionedNames ∧ name ≠ t.name ∧ name.canonical ≠ rootObject := by
  unfold SynthesizedType.dependencies
  simp

theorem mem_mentionedNames_of_memberTypes {type : TypeRef} (isType : type ∈ t.memberTypes)
    (isIn : name ∈ type.synthesizedNames) : name ∈ t.mentionedNames := by
  simp only [SynthesizedType.memberTypes, List.mem_append, List.mem_map, List.mem_flatMap] at isType
  simp only [SynthesizedType.mentionedNames, List.mem_append, List.mem_flatMap]
  rcases isType with (⟨f, isField, rfl⟩ | ⟨p, isProperty, rfl⟩) | ⟨m, isMethod, isType⟩
  · exact Or.inl (Or.inl (Or.inr ⟨f, isField, isIn⟩))
  · exact Or.inl (Or.inr ⟨p, isProperty, isIn⟩)
  · refine Or.inr ⟨m, isMethod, ?_⟩
    simp only [MethodSpec.mentionedNames, List.mem_append, List.mem_flatMap]
    rcases isType with ⟨p, isParam, rfl⟩ | isResult
    · exact Or.inl (Or.inl (Or.inl ⟨p, isParam, isIn⟩))
    · rw [Option.mem_toList] at isResult
      rw [isResult]
      exact Or.inl (Or.inl (Or.inr isIn))

theorem exists_of_isPart {members : List Member} {type : TypeRef}
    (isPart : IsPart members names type) (isIn : name ∈ type.synthesizedNames) :
    (∃ m ∈ members, name ∈ m.type.synthesizedNames) ∨ name ∈ names := by
  rcases isPart with ⟨m, isMember, rfl⟩ | ⟨other, isName, rfl⟩
  · exact Or.inl ⟨m, isMember, isIn⟩
  · obtain rfl := List.mem_singleton.1 isIn
    exact Or.inr isName

theorem MethodSpec.mem_mentionedNames {m : MethodSpec} (isIn : name ∈ m.mentionedNames) :
    (∃ type ∈ m.types, name ∈ type.synthesizedNames) ∨ name ∈ m.links := by
  simp only [mentionedNames, List.mem_append, List.mem_flatMap] at isIn
  rcases isIn with ((⟨p, isParam, isIn⟩ | isIn) | isIn) | isIn
  · exact Or.inl ⟨p.type, List.mem_append_left _ (List.mem_map_of_mem isParam), isIn⟩
  · cases result : m.returns with
    | none =>
      rw [result] at isIn
      exact absurd isIn List.not_mem_nil
    | some type =>
      rw [result] at isIn
      exact Or.inl ⟨type, List.mem_append_right _ (by simp [result]), isIn⟩
  · exact Or.inr (List.mem_append_left _ isIn)
  · exact Or.inr (List.mem_append_right _ isIn)

theorem SynthesizedType.Keeps.mentioned (keeps : t.Keeps names) (isIn : name ∈ t.mentionedNames) :
    (∃ m ∈ t.members, name ∈ m.type.synthesizedNames) ∨
      name ∈ MethodTarget.rootConstructor.owner :: names := by
  have ofPart {type : TypeRef} (isPart : IsPart t.members names type)
      (isIn : name ∈ type.synthesizedNames) :
      (∃ m ∈ t.members, name ∈ m.type.synthesizedNames) ∨
        name ∈ MethodTarget.rootConstructor.owner :: names :=
    (exists_of_isPart isPart isIn).imp_right (List.mem_cons_of_mem _)
  simp only [mentionedNames, List.mem_append, List.mem_flatMap] at isIn
  rcases isIn with ((isIn | ⟨f, isField, isIn⟩) | ⟨p, isProperty, isIn⟩) | ⟨m, isMethod, isIn⟩
  · exact Or.inr (List.mem_cons_of_mem _ (keeps.interfaces name isIn))
  · exact ofPart (keeps.fields f isField) isIn
  · exact ofPart (keeps.properties p isProperty) isIn
  · rcases MethodSpec.mem_mentionedNames isIn with ⟨type, isType, isIn⟩ | isIn
    · exact ofPart ((keeps.methods m isMethod).types type isType) isIn
    · exact Or.inr ((keeps.methods m isMethod).links isIn)

/-! ### Parts of products -/

section

variable {members : List Member} {m : Member}

theorem isPart_member (isIn : m ∈ members) : IsPart members names m.type := Or.inl ⟨m, isIn, rfl⟩

theorem isPart_name (isIn : name ∈ names) : IsPart members names (.synthesized name) :=
  Or.inr ⟨name, isIn, rfl⟩

theorem keeps_abstractAccessors (isIn : m ∈ members) {method : MethodSpec}
    (isMethod : method ∈ abstractAccessors m) : method.Keeps members names := by
  have isPart : IsPart members names m.type := isPart_member isIn
  rcases mem_abstractAccessors.1 isMethod with ⟨-, rfl⟩ | ⟨-, rfl⟩
  · exact ⟨List.forall_mem_singleton.2 isPart, List.nil_subset _⟩
  · exact ⟨List.forall_mem_singleton.2 isPart, List.nil_subset _⟩

theorem keeps_backedAccessors {owner : TypeName} {visibility : Visibility}
    {interface : Option TypeName} (isIn : m ∈ members) (isOwner : owner ∈ names)
    (isInterface : ∀ other ∈ interface, other ∈ names) :
    (backedGetter owner visibility interface m).Keeps members names ∧
      (backedSetter owner visibility interface m).Keeps members names := by
  have isPart : IsPart members names m.type := isPart_member isIn
  have links (method : String) : ((bindingTo interface method).map (·.interface)).toList ++ [owner] ⊆
      MethodTarget.rootConstructor.owner :: names := by
    apply List.subset_cons_of_subset
    cases interface with
    | none => exact List.cons_subset.2 ⟨isOwner, List.nil_subset _⟩
    | some other =>
      exact List.cons_subset.2 ⟨isInterface other rfl, List.cons_subset.2 ⟨isOwner, List.nil_subset _⟩⟩
  exact ⟨⟨List.forall_mem_singleton.2 isPart, links _⟩,
    ⟨List.forall_mem_singleton.2 isPart, links _⟩⟩

theorem keeps_backedOf {owner : TypeName} {kind : ProductKind} {visibility : Visibility}
    {source : SourceType} {interface : Option TypeName} (isOwner : owner ∈ names)
    (isInterface : ∀ other ∈ interface, other ∈ names) :
    (backedOf owner kind visibility source members interface).Keeps names := by
  constructor
  case interfaces => exact fun other isIn => isInterface other (by simpa [backedOf] using isIn)
  case fields =>
    intro f isField
    obtain ⟨m, isIn, rfl⟩ := List.mem_map.1 isField
    exact isPart_member isIn
  case properties =>
    intro p isProperty
    obtain ⟨m, isIn, rfl⟩ := List.mem_map.1 isProperty
    exact isPart_member isIn
  case methods =>
    intro method isMethod
    obtain ⟨m, isIn, isMethod⟩ := mem_methods_backedOf.1 isMethod
    obtain ⟨getter, setter⟩ := keeps_backedAccessors isIn isOwner isInterface
    rcases isMethod with rfl | rfl
    · exact getter
    · exact setter

theorem keeps_interfaceType {other : TypeName} {source : SourceType} :
    (interfaceType other source members).Keeps names := by
  constructor
  case interfaces | fields => exact fun _ isIn => absurd isIn List.not_mem_nil
  case properties =>
    intro p isProperty
    obtain ⟨m, isIn, rfl⟩ := List.mem_map.1 isProperty
    exact isPart_member isIn
  case methods =>
    intro method isMethod
    obtain ⟨m, isIn, isMethod⟩ := List.mem_flatMap.1 isMethod
    exact keeps_abstractAccessors isIn isMethod

theorem keeps_enumType {source : SourceType} {underlying : Primitive} {literals : List Literal} :
    (enumType source underlying literals).Keeps names := by
  constructor <;> exact fun _ isIn => absurd isIn List.not_mem_nil

theorem keeps_structOf {source : SourceType} (isSource : source.name ∈ names) :
    (structOf source members).Keeps names := by
  have keeps : (backedOf source.name .structClone (accessorVisibility source none) source members
      none).Keeps names := keeps_backedOf isSource nofun
  obtain ⟨interfaces, fields, properties, methods⟩ := keeps
  exact ⟨interfaces, fields, properties, methods⟩

/-- A constructor mentions the types of its parameters, and its body the names and the root object. -/
theorem keeps_constructorOf {params : List ParamSpec} {body : Body}
    (types : ∀ p ∈ params, IsPart members names p.type)
    (links : body.instructions.filterMap Instruction.owner? ⊆
      MethodTarget.rootConstructor.owner :: names) :
    (constructorOf params body).Keeps members names := by
  refine ⟨fun type isType => ?_, links⟩
  have isParam : type ∈ params.map (·.type) ++ [] := isType
  rw [List.append_nil] at isParam
  obtain ⟨p, isIn, rfl⟩ := List.mem_map.1 isParam
  exact types p isIn

theorem keeps_proxyOf {owner interface : TypeName} {source : SourceType} (isOwner : owner ∈ names)
    (isInterface : interface ∈ names) :
    (proxyOf owner source members (some interface)).Keeps names := by
  have isSome : ∀ other ∈ some interface, other ∈ names := by simpa using isInterface
  have keeps : (backedOf owner .proxy (accessorVisibility source (some interface)) source members
      (some interface)).Keeps names := keeps_backedOf isOwner isSome
  obtain ⟨interfaces, fields, properties, methods⟩ := keeps
  refine ⟨interfaces, fields, properties, fun method isMethod => ?_⟩
  rcases List.mem_cons.1 isMethod with rfl | isMethod
  · refine keeps_constructorOf (fun _ isIn => absurd isIn List.not_mem_nil) ?_
    exact List.cons_subset.2 ⟨List.mem_cons_self, List.nil_subset _⟩
  · exact methods method isMethod

end

section

variable {c : FluentContext} {options : TypeOptions} {members : List Member} {method : MethodSpec}

/-- A method of a fluent wrapper mentions the members' types and the three wrappers. -/
theorem keeps_wantedOf (isMethod : method ∈ c.wantedOf options members) :
    method.Keeps members [c.interface, c.proxy, c.name] := by
  have isInterface : c.interface ∈ [c.interface, c.proxy, c.name] := List.mem_cons_self
  have isProxy : c.proxy ∈ [c.interface, c.proxy, c.name] := by simp
  have isSelf : c.name ∈ [c.interface, c.proxy, c.name] := by simp
  have objectType : IsPart members [c.interface, c.proxy, c.name] c.objectType :=
    isPart_name isInterface
  have nothing : ∀ p ∈ ([] : List ParamSpec), IsPart members [c.interface, c.proxy, c.name] p.type :=
    nofun
  rcases FluentContext.of_mem_wantedOf isMethod with
    rfl | rfl | ⟨m, isIn, isMethod⟩ | rfl | isMethod
  · refine keeps_constructorOf nothing ?_
    show [MethodTarget.rootConstructor.owner, c.proxy, c.name] ⊆ _
    simp
  · refine keeps_constructorOf (List.forall_mem_singleton.2 objectType) ?_
    show [MethodTarget.rootConstructor.owner, c.name] ⊆ _
    simp
  · have ofMember : IsPart members [c.interface, c.proxy, c.name] m.type := isPart_member isIn
    rcases isMethod with rfl | rfl
    · refine ⟨List.forall_mem_cons.2 ⟨ofMember, List.forall_mem_singleton.2 (isPart_name isSelf)⟩, ?_⟩
      show [c.name, c.interface] ⊆ _
      simp
    · refine ⟨List.forall_mem_singleton.2 ofMember, ?_⟩
      show [c.name, c.interface] ⊆ _
      simp
  · refine ⟨List.forall_mem_singleton.2 objectType, ?_⟩
    show [c.name] ⊆ _
    simp
  · unfold FluentContext.factoryOf at isMethod
    split at isMethod
    · exact absurd isMethod List.not_mem_nil
    · obtain rfl := List.mem_singleton.1 isMethod
      refine ⟨List.forall_mem_singleton.2 (isPart_name isSelf), ?_⟩
      show [c.name] ⊆ _
      simp

theorem keeps_fluentOf {proxy : SynthesizedType} :
    (fluentOf c proxy options).Keeps [c.interface, c.proxy, c.name] := by
  have isInterface : IsPart (fluentOf c proxy options).members [c.interface, c.proxy, c.name]
      c.objectType := isPart_name List.mem_cons_self
  constructor
  case interfaces => exact fun _ isIn => absurd isIn List.not_mem_nil
  case fields => exact List.forall_mem_singleton.2 isInterface
  case properties => exact List.forall_mem_singleton.2 isInterface
  case methods => exact fun method isMethod => keeps_wantedOf isMethod

end

namespace Synthesizer

variable {s : Synthesizer} {u : SourceType} {kind : ProductKind}

/-- The wrappers and clones that the product of a kind mentions on its own account. -/
def companions (s : Synthesizer) (u : SourceType) : ProductKind → List TypeName
  | .interface | .enumClone => []
  | .proxy => [s.productName u .interface, s.productName u .proxy]
  | .structClone => [u.name]
  | .fluent => [s.productName u .interface, s.productName u .proxy, s.productName u .fluent]

theorem keeps_product (made : s.product u kind = some t) : t.Keeps (s.companions u kind) := by
  rcases of_product made with
    ⟨-, -, rfl, -, rfl⟩ | ⟨-, ⟨rfl, rfl⟩ | ⟨rfl, rfl⟩ | ⟨rfl, rfl⟩ | ⟨rfl, -, rfl⟩⟩
  · exact keeps_enumType
  · exact keeps_interfaceType
  · exact keeps_proxyOf (List.mem_cons_of_mem _ List.mem_cons_self) List.mem_cons_self
  · exact keeps_structOf List.mem_cons_self
  · exact keeps_fluentOf

end Synthesizer

end Synthesis

end FluentWrappers
