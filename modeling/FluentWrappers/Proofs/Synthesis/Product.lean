import FluentWrappers.Proofs.Synthesis.Shape
import FluentWrappers.Proofs.Synthesis.Table

/-!
# What is made of a source type

The catalog and the options say for each kind of type and each source type which type is made of it
and under which key. Keys of one kind tell source types apart if simple names hold no dot.
-/

namespace FluentWrappers.Synthesis

theorem stripEnd_append (text ending : String) : stripEnd (text ++ ending) ending = text := by
  unfold stripEnd
  have ends : ending.toList.isSuffixOf (text ++ ending).toList = true := by
    rw [String.toList_append]
    exact List.isSuffixOf_iff_suffix.2 (List.suffix_append _ _)
  simp only [ends, if_true]
  rw [String.toList_append, List.length_append, Nat.add_sub_cancel, List.take_left,
    String.ofList_toList]

theorem fluentName_proxyName (o : EngineOptions) (n : TypeName) : fluentName o (proxyName o n) =
    interfaceName { o with interfacePrefix := o.fluentPrefix } n := by
  show (⟨_, o.fluentPrefix ++ stripEnd (n.simple ++ o.proxySuffix) o.proxySuffix⟩ : TypeName) = _
  rw [stripEnd_append]
  rfl

/-- The key under which a type was made. -/
def SynthesizedType.key (t : SynthesizedType) : CacheKey := ⟨t.kind, t.canonical⟩

namespace Synthesizer

/-! ### Names and keys -/

def productName (s : Synthesizer) (u : SourceType) : ProductKind → TypeName
  | .interface => interfaceName s.options u.name
  | .proxy => proxyName s.options u.name
  | .fluent => fluentName s.options (proxyName s.options u.name)
  | .enumClone | .structClone => u.name

def keyOf (s : Synthesizer) (kind : ProductKind) (u : SourceType) : CacheKey :=
  ⟨kind, (s.productName u kind).canonical⟩

/-- Source types in the catalog have keys of their own. -/
def Apart (s : Synthesizer) : Prop :=
  ∀ kind t u, s.catalog.Known t → s.catalog.Known u → s.keyOf kind t = s.keyOf kind u → t = u

/-- The keys under which types are made for a mention of a source type. -/
def mentionKeys (s : Synthesizer) (u : SourceType) : List CacheKey :=
  match u.kind with
  | .enumeration _ _ => [s.keyOf .enumClone u]
  | _ =>
    if u.isRuntime then []
    else if u.kind = .struct then s.memberKeys u
    else [s.interfaceKey u, s.proxyKey u]

variable {s : Synthesizer} {u v : SourceType} {kind : ProductKind} {key : CacheKey}

/-- A product's name tells the name of the source that it is made of. -/
theorem canonical_eq_of_productName (dotless : u.name.Dotless) (dotless' : v.name.Dotless)
    (same : (s.productName u kind).canonical = (s.productName v kind).canonical) :
    u.name.canonical = v.name.canonical := by
  cases kind with
  | interface => exact canonical_eq_of_interfaceName dotless dotless' same
  | proxy => exact canonical_eq_of_proxyName same
  | fluent =>
    unfold productName at same
    rw [fluentName_proxyName, fluentName_proxyName] at same
    exact canonical_eq_of_interfaceName dotless dotless' same
  | enumClone | structClone => exact same

theorem apart_of_dotless (dotless : ∀ t ∈ s.catalog.types, t.name.Dotless) : s.Apart := by
  intro kind t u known known' same
  have names : (s.productName t kind).canonical = (s.productName u kind).canonical :=
    congrArg CacheKey.name same
  exact known.eq known'
    (canonical_eq_of_productName (dotless t known.mem) (dotless u known'.mem) names)

theorem mentionKeys_enum {underlying : Primitive} {literals : List Literal}
    (isEnum : u.kind = .enumeration underlying literals) :
    s.mentionKeys u = [s.keyOf .enumClone u] := by
  unfold mentionKeys
  rw [isEnum]

theorem mentionKeys_runtime
    (notEnum : ∀ underlying literals, u.kind ≠ .enumeration underlying literals)
    (runtime : u.isRuntime = true) : s.mentionKeys u = [] := by
  unfold mentionKeys
  split
  case h_1 underlying literals isEnum => exact absurd isEnum (notEnum underlying literals)
  case h_2 => rw [if_pos runtime]

theorem mentionKeys_foreign (foreign : u.Foreign) : s.mentionKeys u =
    if u.kind = .struct then s.memberKeys u else [s.interfaceKey u, s.proxyKey u] := by
  unfold mentionKeys
  split
  case h_1 underlying literals isEnum => exact absurd isEnum (foreign.2 underlying literals)
  case h_2 => rw [foreign.1, if_neg Bool.false_ne_true]

theorem of_mem_mentionKeys (isKey : key ∈ s.mentionKeys u) :
    key = s.keyOf .enumClone u ∧ (∃ underlying literals, u.kind = .enumeration underlying literals) ∨
      u.Foreign ∧ key ∈ s.memberKeys u := by
  rcases u.foreign_or with ⟨underlying, literals, isEnum⟩ | ⟨notEnum, runtime⟩ | foreign
  · rw [mentionKeys_enum isEnum, List.mem_singleton] at isKey
    exact Or.inl ⟨isKey, underlying, literals, isEnum⟩
  · rw [mentionKeys_runtime notEnum runtime] at isKey
    exact absurd isKey List.not_mem_nil
  · rw [mentionKeys_foreign foreign] at isKey
    refine Or.inr ⟨foreign, ?_⟩
    split at isKey
    · exact isKey
    · rw [mem_memberKeys]
      rcases List.mem_cons.1 isKey with rfl | isKey
      · exact Or.inl rfl
      · exact Or.inr (Or.inl (List.mem_singleton.1 isKey))

theorem interfaceKey_mem_mentionKeys (foreign : u.Foreign) :
    s.interfaceKey u ∈ s.mentionKeys u := by
  rw [mentionKeys_foreign foreign]
  split <;> exact List.mem_cons_self

theorem proxyKey_mem_mentionKeys (foreign : u.Foreign) : s.proxyKey u ∈ s.mentionKeys u := by
  rw [mentionKeys_foreign foreign]
  split <;> exact List.mem_cons_of_mem _ List.mem_cons_self

theorem Apart.of_memberKeys (apart : s.Apart) (known : s.catalog.Known u)
    (known' : s.catalog.Known v) (isKey : key ∈ s.memberKeys u) (isKey' : key ∈ s.memberKeys v) :
    u = v := by
  rcases mem_memberKeys.1 isKey with rfl | rfl | rfl <;>
    rcases mem_memberKeys.1 isKey' with same | same | same
  · exact apart .interface u v known known' same
  · cases congrArg CacheKey.kind same
  · cases congrArg CacheKey.kind same
  · cases congrArg CacheKey.kind same
  · exact apart .proxy u v known known' same
  · cases congrArg CacheKey.kind same
  · cases congrArg CacheKey.kind same
  · cases congrArg CacheKey.kind same
  · exact apart .structClone u v known known' same

/-! ### Products -/

def fluentContext (s : Synthesizer) (u : SourceType) : FluentContext :=
  ⟨s.productName u .fluent, s.productName u .interface, s.productName u .proxy,
    s.options.objectProperty⟩

def madeInterface (s : Synthesizer) (u : SourceType) : SynthesizedType :=
  interfaceType (s.productName u .interface) u (s.resolvedMembers u)

def madeProxy (s : Synthesizer) (u : SourceType) : SynthesizedType :=
  proxyOf (s.productName u .proxy) u (s.resolvedMembers u) (some (s.productName u .interface))

def madeStruct (s : Synthesizer) (u : SourceType) : SynthesizedType :=
  structOf u (s.resolvedMembers u)

def madeFluent (s : Synthesizer) (u : SourceType) : SynthesizedType :=
  fluentOf (s.fluentContext u) (s.madeProxy u) u.options

/-- The methods of the source type's fluent wrapper may not stand together. -/
def Clashes (s : Synthesizer) (u : SourceType) : Prop :=
  ¬ Unambiguous ((s.fluentContext u).wantedOf u.options (s.resolvedMembers u))

instance (s : Synthesizer) (u : SourceType) : Decidable (s.Clashes u) :=
  inferInstanceAs (Decidable (¬ _))

/-- The type of a kind that is made of a source type, if there is one. -/
def product (s : Synthesizer) (u : SourceType) : ProductKind → Option SynthesizedType
  | .interface => if s.hasMembers u then some (s.madeInterface u) else none
  | .proxy => if s.hasMembers u then some (s.madeProxy u) else none
  | .structClone => if s.hasMembers u then some (s.madeStruct u) else none
  | .fluent => if s.hasMembers u ∧ ¬ s.Clashes u then some (s.madeFluent u) else none
  | .enumClone =>
    match u.kind with
    | .enumeration underlying literals => some (enumType u underlying literals)
    | _ => none

theorem product_interface (some : s.hasMembers u = true) :
    s.product u .interface = .some (s.madeInterface u) := if_pos some

theorem product_proxy (some : s.hasMembers u = true) :
    s.product u .proxy = .some (s.madeProxy u) := if_pos some

theorem product_structClone (some : s.hasMembers u = true) :
    s.product u .structClone = .some (s.madeStruct u) := if_pos some

theorem product_fluent (some : s.hasMembers u = true) (apart : ¬ s.Clashes u) :
    s.product u .fluent = .some (s.madeFluent u) := if_pos ⟨some, apart⟩

theorem product_enumClone {underlying : Primitive} {literals : List Literal}
    (isEnum : u.kind = .enumeration underlying literals) :
    s.product u .enumClone = some (enumType u underlying literals) := by
  unfold product
  rw [isEnum]

theorem product_eq_none (none : s.hasMembers u = false) (other : kind ≠ .enumClone) :
    s.product u kind = .none := by
  cases kind with
  | enumClone => exact absurd rfl other
  | fluent => exact if_neg fun h => by simp [none] at h
  | interface | proxy | structClone => exact if_neg (by simp [none])

theorem product_eq_some (some : s.hasMembers u = true) (other : kind ≠ .enumClone)
    (apart : kind = .fluent → ¬ s.Clashes u) : ∃ t, s.product u kind = .some t := by
  cases kind with
  | enumClone => exact absurd rfl other
  | interface => exact ⟨_, product_interface some⟩
  | proxy => exact ⟨_, product_proxy some⟩
  | structClone => exact ⟨_, product_structClone some⟩
  | fluent => exact ⟨_, product_fluent some (apart rfl)⟩

/-- A product is an enumeration's clone, or is made of the members by its kind. -/
theorem of_product {t : SynthesizedType} (made : s.product u kind = some t) :
    (∃ underlying literals, kind = .enumClone ∧ u.kind = .enumeration underlying literals ∧
      t = enumType u underlying literals) ∨
    s.hasMembers u = true ∧ (kind = .interface ∧ t = s.madeInterface u ∨
      kind = .proxy ∧ t = s.madeProxy u ∨ kind = .structClone ∧ t = s.madeStruct u ∨
        kind = .fluent ∧ ¬ s.Clashes u ∧ t = s.madeFluent u) := by
  cases kind with
  | enumClone =>
    simp only [product] at made
    split at made
    case h_1 underlying literals isEnum =>
      exact Or.inl ⟨underlying, literals, rfl, isEnum, (Option.some.inj made).symm⟩
    case h_2 => cases made
  | interface | proxy | structClone | fluent =>
    simp only [product, Option.ite_none_right_eq_some, Option.some.injEq] at made
    simp [made]

theorem hasMembers_of_product {t : SynthesizedType} (made : s.product u kind = some t)
    (other : kind ≠ .enumClone) : s.hasMembers u = true := by
  rcases of_product made with ⟨-, -, isEnum, -⟩ | ⟨some, -⟩
  · exact absurd isEnum other
  · exact some

theorem product_facts {t : SynthesizedType} (made : s.product u kind = some t) :
    t.kind = kind ∧ t.name = s.productName u kind ∧ t.source = u.name := by
  rcases of_product made with
    ⟨-, -, rfl, -, rfl⟩ | ⟨-, ⟨rfl, rfl⟩ | ⟨rfl, rfl⟩ | ⟨rfl, rfl⟩ | ⟨rfl, -, rfl⟩⟩ <;>
    exact ⟨rfl, rfl, rfl⟩

theorem key_of_product {t : SynthesizedType} (made : s.product u kind = some t) :
    t.key = s.keyOf kind u := by
  obtain ⟨isKind, isNamed, -⟩ := product_facts made
  unfold SynthesizedType.key SynthesizedType.canonical keyOf
  rw [isKind, isNamed]

theorem members_of_product {t : SynthesizedType} (made : s.product u kind = some t)
    (other : kind ≠ .enumClone) : t.members = s.resolvedMembers u := by
  rcases of_product made with ⟨-, -, isEnum, -⟩ | ⟨-, ⟨-, rfl⟩ | ⟨-, rfl⟩ | ⟨-, rfl⟩ | ⟨-, -, rfl⟩⟩
  · exact absurd isEnum other
  all_goals rfl

/-! ### Bindings -/

theorem resolved_name (m : Member) : (s.resolved m).name = m.name := by
  unfold resolved
  split <;> rfl

theorem nodup_names_resolvedMembers (s : Synthesizer) (u : SourceType) :
    ((s.resolvedMembers u).map (·.name)).Nodup := by
  unfold resolvedMembers
  cases found : s.catalog.extract u with
  | error e => exact List.nodup_nil
  | ok members =>
    have sameNames : (members.map s.resolved).map (·.name) = members.map (·.name) := by
      rw [List.map_map]
      exact List.map_congr_left fun m _ => resolved_name m
    show ((members.map s.resolved).map (·.name)).Nodup
    rw [sameNames]
    exact SourceCatalog.nodup_names_extract found

end Synthesizer

/-- Of methods made member by member a test selects those of one member. -/
theorem filter_flatMap_of_member {members : List Member} {m : Member}
    {made : Member → List MethodSpec} {test : MethodSpec → Bool}
    (distinct : (members.map (·.name)).Nodup) (isIn : m ∈ members)
    (others : ∀ n ∈ members, n.name ≠ m.name → (made n).filter test = []) :
    (members.flatMap made).filter test = (made m).filter test := by
  rw [List.filter_flatMap]
  induction members with
  | nil => exact absurd isIn List.not_mem_nil
  | cons n members ih =>
    rw [List.map_cons, List.nodup_cons] at distinct
    rw [List.flatMap_cons]
    rcases List.mem_cons.1 isIn with rfl | isIn
    · have none : (members.flatMap fun n => (made n).filter test) = [] := by
        refine List.flatMap_eq_nil_iff.2 fun n isLater => ?_
        refine others n (List.mem_cons_of_mem m isLater) fun same => distinct.1 ?_
        exact same ▸ List.mem_map_of_mem isLater
      rw [none, List.append_nil]
    · have differs : n.name ≠ m.name := fun same => distinct.1 (same ▸ List.mem_map_of_mem isIn)
      rw [others n List.mem_cons_self differs, List.nil_append]
      exact ih distinct.2 isIn fun n isLater => others n (List.mem_cons_of_mem _ isLater)

section

variable {members : List Member} {m : Member} {getter setter : Member → MethodSpec}
  {test : MethodSpec → Bool} (distinct : (members.map (·.name)).Nodup) (isIn : m ∈ members)

include distinct isIn

/-- A test that passes only the getter of one member selects it. -/
theorem filter_getter (ofGetter : ∀ n, test (getter n) = true ↔ n.name = m.name)
    (ofSetter : ∀ n, test (setter n) = false) :
    (members.flatMap fun n => [getter n, setter n]).filter test = [getter m] := by
  rw [filter_flatMap_of_member distinct isIn]
  · simp [ofGetter, ofSetter]
  · intro n _ differs
    simp [ofGetter, ofSetter, differs]

theorem filter_setter (ofSetter : ∀ n, test (setter n) = true ↔ n.name = m.name)
    (ofGetter : ∀ n, test (getter n) = false) :
    (members.flatMap fun n => [getter n, setter n]).filter test = [setter m] := by
  rw [filter_flatMap_of_member distinct isIn]
  · simp [ofGetter, ofSetter]
  · intro n _ differs
    simp [ofGetter, ofSetter, differs]

end

/-- The method is bound to the one of the interface. -/
def MethodSpec.binds (m : MethodSpec) (interface : TypeName) (method : String) : Bool :=
  m.implements == some ⟨interface, method⟩

namespace Synthesizer

/-- Each accessor of the interface has exactly one method of the proxy bound to it, and this one is
declared alike. -/
theorem binds_once (s : Synthesizer) (u : SourceType) {method : MethodSpec}
    (isIn : method ∈ (s.madeInterface u).methods) : ∃ bound,
    (s.madeProxy u).methods.filter (·.binds (s.madeInterface u).name method.name) = [bound] ∧
      bound.name = method.name ∧ bound.params = method.params ∧ bound.returns = method.returns := by
  have distinct := s.nodup_names_resolvedMembers u
  obtain ⟨m, isMember, isIn⟩ := List.mem_flatMap.1 isIn
  let interface := s.productName u .interface
  let getter := backedGetter (s.productName u .proxy) (accessorVisibility u (some interface))
    (some interface)
  let setter := backedSetter (s.productName u .proxy) (accessorVisibility u (some interface))
    (some interface)
  have methods (name : String) :
      (s.madeProxy u).methods.filter (·.binds (s.madeInterface u).name name) =
        ((s.resolvedMembers u).flatMap fun m => [getter m, setter m]).filter
          (·.binds interface name) := rfl
  have ofGetter (n : Member) (name : String) : (getter n).binds interface name = true ↔
      getterName n.name = name := by
    simp [getter, MethodSpec.binds, backedGetter, bindingTo]
  have ofSetter (n : Member) (name : String) : (setter n).binds interface name = true ↔
      setterName n.name = name := by
    simp [setter, MethodSpec.binds, backedSetter, bindingTo]
  rcases mem_abstractAccessors.1 isIn with ⟨-, rfl⟩ | ⟨-, rfl⟩
  · refine ⟨getter m, ?_, rfl, rfl, rfl⟩
    rw [methods]
    refine filter_getter distinct isMember (fun n => ?_) fun n => ?_
    · exact (ofGetter n _).trans getterName_inj
    · exact Bool.eq_false_iff.2 (mt (ofSetter n _).1 (getterName_ne_setterName _ _).symm)
  · refine ⟨setter m, ?_, rfl, rfl, rfl⟩
    rw [methods]
    refine filter_setter distinct isMember (fun n => ?_) fun n => ?_
    · exact (ofSetter n _).trans setterName_inj
    · exact Bool.eq_false_iff.2 (mt (ofGetter n _).1 (getterName_ne_setterName _ _))

end Synthesizer

end FluentWrappers.Synthesis
