import FluentWrappers.Synthesis.Shape
import Mathlib.Data.List.Nodup

/-!
# Shapes that are always made

The bodies of accessors, constructors and factories are built whatever the names in them are. So
proxies and struct clones are always made, and a fluent wrapper fails only with two methods alike.
What each type consists of is said here once, without the possibility of failure.
-/

namespace FluentWrappers.Synthesis

theorem mem_abstractAccessors {m : Member} {method : MethodSpec} : method ∈ abstractAccessors m ↔
    m.readable = true ∧ method = abstractAccessor (getterName m.name) [] (some m.type) ∨
      m.writable = true ∧
        method = abstractAccessor (setterName m.name) [⟨"value", m.type⟩] none := by
  simp only [abstractAccessors, List.mem_append, List.mem_ite_nil_right, List.mem_singleton]

/-! ### Types with backing fields -/

/-- The method that reads the backing field of a member. -/
def backedGetter (owner : TypeName) (visibility : Visibility) (interface : Option TypeName)
    (m : Member) : MethodSpec :=
  { name := getterName m.name, visibility, kind := .instanceMethod, params := []
    returns := some m.type, implements := bindingTo interface (getterName m.name)
    specialName := true
    body := some ⟨[.loadThis, .loadField ⟨owner, backingField m.name⟩, .ret], 1⟩ }

/-- The method that writes the backing field of a member. -/
def backedSetter (owner : TypeName) (visibility : Visibility) (interface : Option TypeName)
    (m : Member) : MethodSpec :=
  { name := setterName m.name, visibility, kind := .instanceMethod, params := [⟨"value", m.type⟩]
    returns := none, implements := bindingTo interface (setterName m.name), specialName := true
    body := some ⟨[.loadThis, .loadArg 1, .storeField ⟨owner, backingField m.name⟩, .ret], 2⟩ }

theorem backedAccessors_eq (owner : TypeName) (visibility : Visibility)
    (interface : Option TypeName) (m : Member) :
    backedAccessors owner visibility interface m =
      .ok [backedGetter owner visibility interface m, backedSetter owner visibility interface m] :=
  rfl

/-- A type with backing fields and the given visibility of its accessors. -/
def backedOf (name : TypeName) (kind : ProductKind) (visibility : Visibility) (source : SourceType)
    (members : List Member) (interface : Option TypeName) : SynthesizedType :=
  { name, kind, source := source.name, interfaces := interface.toList, members
    fields := members.map fun m => ⟨backingField m.name, m.type, .privateAccess⟩
    methods := members.flatMap fun m =>
      [backedGetter name visibility interface m, backedSetter name visibility interface m]
    properties := members.map fun m =>
      ⟨m.name, m.type, some (getterName m.name), some (setterName m.name)⟩ }

theorem mem_methods_backedOf {name : TypeName} {kind : ProductKind} {visibility : Visibility}
    {source : SourceType} {members : List Member} {interface : Option TypeName}
    {method : MethodSpec} :
    method ∈ (backedOf name kind visibility source members interface).methods ↔
      ∃ m ∈ members, method = backedGetter name visibility interface m ∨
        method = backedSetter name visibility interface m := by
  simp [backedOf]

def accessorVisibility (source : SourceType) (interface : Option TypeName) : Visibility :=
  if interface.isNone && source.visibility != .publicAccess then .internalAccess
  else .publicAccess

theorem backedType_eq (name : TypeName) (kind : ProductKind) (source : SourceType)
    (members : List Member) (interface : Option TypeName) :
    backedType name kind source members interface =
      .ok (backedOf name kind (accessorVisibility source interface) source members interface) := by
  have accessors : members.mapM (backedAccessors name (accessorVisibility source interface) interface) =
      .ok (members.map fun m => [backedGetter name (accessorVisibility source interface) interface m,
        backedSetter name (accessorVisibility source interface) interface m]) := by
    rw [funext (backedAccessors_eq name (accessorVisibility source interface) interface)]
    exact List.mapM_pure (m := Except SynthesisError)
  show (members.mapM (backedAccessors name (accessorVisibility source interface) interface) >>=
    _) = _
  rw [accessors]
  rfl

def defaultConstructor : MethodSpec :=
  constructorOf [] ⟨[.loadThis, .call MethodTarget.rootConstructor, .ret], 1⟩

def proxyOf (name : TypeName) (source : SourceType) (members : List Member)
    (interface : Option TypeName) : SynthesizedType :=
  let backed := backedOf name .proxy (accessorVisibility source interface) source members interface
  { backed with
    visibility := .internalAccess
    isSealed := true
    methods := defaultConstructor :: backed.methods }

theorem proxyType_eq (name : TypeName) (source : SourceType) (members : List Member)
    (interface : Option TypeName) : proxyType name source members interface =
      .ok (proxyOf name source members interface) := by
  unfold proxyType
  rw [backedType_eq]
  rfl

def structOf (source : SourceType) (members : List Member) : SynthesizedType :=
  { backedOf source.name .structClone (accessorVisibility source none) source members none with
    visibility := source.visibility
    isSealed := true }

theorem structType_eq (source : SourceType) (members : List Member) :
    structType source members = .ok (structOf source members) := by
  unfold structType
  rw [backedType_eq]
  rfl

/-! ### Fluent wrappers -/

namespace FluentContext

def newConstructorOf (c : FluentContext) : MethodSpec :=
  constructorOf [] ⟨[.loadThis, .call MethodTarget.rootConstructor, .loadThis,
    .newObj (MethodTarget.constructor c.proxy 0), .storeField c.object, .ret], 2⟩

def wrapConstructorOf (c : FluentContext) : MethodSpec :=
  constructorOf [⟨"value", c.objectType⟩] ⟨[.loadThis, .call MethodTarget.rootConstructor, .loadThis,
    .loadArg 1, .storeField c.object, .ret], 2⟩

def setterOf (c : FluentContext) (m : Member) : MethodSpec :=
  { name := m.fluentSetter, visibility := .publicAccess, kind := .instanceMethod
    params := [⟨"value", m.type⟩], returns := some (.synthesized c.name), implements := none
    specialName := false
    body := some ⟨[.loadThis, .loadField c.object, .loadArg 1,
      .callVirt ⟨c.interface, setterName m.name, 1, false, false⟩, .loadThis, .ret], 2⟩ }

def getterOf (c : FluentContext) (m : Member) : MethodSpec :=
  { name := m.fluentGetter, visibility := .publicAccess, kind := .instanceMethod, params := []
    returns := some m.type, implements := none, specialName := false
    body := some ⟨[.loadThis, .loadField c.object,
      .callVirt ⟨c.interface, getterName m.name, 0, true, false⟩, .ret], 1⟩ }

def methodsOf (c : FluentContext) (options : TypeOptions) (m : Member) : List MethodSpec :=
  if m.hasFluentGetter options.settersOnly then [c.setterOf m, c.getterOf m] else [c.setterOf m]

def accessorOf (c : FluentContext) : MethodSpec :=
  { name := getterName c.objectProperty, visibility := .publicAccess, kind := .instanceMethod
    params := [], returns := some c.objectType, implements := none, specialName := true
    body := some ⟨[.loadThis, .loadField c.object, .ret], 1⟩ }

def factoryOf (c : FluentContext) (options : TypeOptions) : List MethodSpec :=
  match options.staticFactory.bind Text.notBlank? with
  | none => []
  | some name => [{
      name, visibility := .publicAccess, kind := .staticMethod, params := []
      returns := some (.synthesized c.name), implements := none, specialName := false
      body := some ⟨[.newObj (MethodTarget.constructor c.name 0), .ret], 1⟩ }]

/-- All methods of a fluent wrapper, in order. -/
def wantedOf (c : FluentContext) (options : TypeOptions) (members : List Member) :
    List MethodSpec :=
  [c.newConstructorOf, c.wrapConstructorOf] ++ members.flatMap (c.methodsOf options) ++
    [c.accessorOf] ++ c.factoryOf options

theorem of_mem_wantedOf {c : FluentContext} {options : TypeOptions} {members : List Member}
    {method : MethodSpec} (isMethod : method ∈ c.wantedOf options members) :
    method = c.newConstructorOf ∨ method = c.wrapConstructorOf ∨
      (∃ m ∈ members, method = c.setterOf m ∨ method = c.getterOf m) ∨ method = c.accessorOf ∨
        method ∈ c.factoryOf options := by
  have ofMember (m : Member) (isMethod : method ∈ c.methodsOf options m) :
      method = c.setterOf m ∨ method = c.getterOf m := by
    unfold methodsOf at isMethod
    split at isMethod
    · simpa using isMethod
    · exact Or.inl (List.mem_singleton.1 isMethod)
  simp only [wantedOf, List.mem_append, List.mem_cons, List.not_mem_nil, or_false,
    List.mem_flatMap] at isMethod
  rcases isMethod with (((isNew | isWrap) | ⟨m, isIn, isMethod⟩) | isAccessor) | isFactory
  · exact Or.inl isNew
  · exact Or.inr (Or.inl isWrap)
  · exact Or.inr (Or.inr (Or.inl ⟨m, isIn, ofMember m isMethod⟩))
  · exact Or.inr (Or.inr (Or.inr (Or.inl isAccessor)))
  · exact Or.inr (Or.inr (Or.inr (Or.inr isFactory)))

theorem of_mem_factoryOf {c : FluentContext} {options : TypeOptions} {method : MethodSpec}
    (isMethod : method ∈ c.factoryOf options) : method.kind = .staticMethod ∧
      method.implements = none ∧ method.returns = some (.synthesized c.name) ∧
        method.body = some ⟨[.newObj (MethodTarget.constructor c.name 0), .ret], 1⟩ := by
  unfold factoryOf at isMethod
  split at isMethod
  · exact absurd isMethod List.not_mem_nil
  · obtain rfl := List.mem_singleton.1 isMethod
    exact ⟨rfl, rfl, rfl, rfl⟩

theorem memberMethods_eq (c : FluentContext) (options : TypeOptions) (m : Member) :
    c.memberMethods options m = .ok (c.methodsOf options m) := by
  unfold memberMethods methodsOf
  cases m.hasFluentGetter options.settersOnly <;> rfl

theorem factory_eq (c : FluentContext) (options : TypeOptions) :
    c.factory options = .ok (c.factoryOf options) := by
  unfold factory factoryOf
  cases options.staticFactory.bind Text.notBlank? <;> rfl

theorem wantedMethods_eq (c : FluentContext) (options : TypeOptions) (members : List Member) :
    c.wantedMethods options members = .ok (c.wantedOf options members) := by
  have ofMembers : members.mapM (c.memberMethods options) =
      .ok (members.map (c.methodsOf options)) := by
    rw [funext (c.memberMethods_eq options)]
    exact List.mapM_pure (m := Except SynthesisError)
  unfold wantedMethods
  rw [ofMembers, factory_eq]
  rfl

end FluentContext

/-- A fluent wrapper as it would be if its methods may stand together. -/
def fluentOf (c : FluentContext) (proxy : SynthesizedType) (options : TypeOptions) :
    SynthesizedType :=
  { name := c.name, kind := .fluent, source := proxy.source, members := proxy.members
    fields := [⟨c.object.name, c.objectType, .privateAccess⟩]
    methods := c.wantedOf options proxy.members
    properties := [⟨c.objectProperty, c.objectType, some (getterName c.objectProperty), none⟩] }

/-- No two methods have the same name and number of parameters. -/
def Unambiguous (methods : List MethodSpec) : Prop :=
  (methods.map fun m => (m.name, m.arity)).Nodup

instance (methods : List MethodSpec) : Decidable (Unambiguous methods) :=
  inferInstanceAs (Decidable (List.Nodup _))

theorem Unambiguous.of_append {methods more : List MethodSpec} (h : Unambiguous (methods ++ more)) :
    Unambiguous methods := by
  unfold Unambiguous at h ⊢
  rw [List.map_append] at h
  exact (List.nodup_append.1 h).1

section

variable {owner : TypeName} {methods wanted all : List MethodSpec}

theorem addMethod_eq (distinct : Unambiguous methods) (m : MethodSpec) :
    addMethod owner methods m = if Unambiguous (methods ++ [m]) then .ok (methods ++ [m])
      else .error (.configuration (.methodDeclaredTwice owner.canonical m.name m.arity)) := by
  have one : Unambiguous (methods ++ [m]) ↔
      (m.name, m.arity) ∉ methods.map fun m => (m.name, m.arity) := by
    unfold Unambiguous
    rw [List.map_append, List.map_singleton, ← List.concat_eq_append, List.nodup_concat]
    exact and_iff_left distinct
  unfold addMethod
  by_cases fresh : Unambiguous (methods ++ [m])
  · have undeclared :
        ¬ (methods.any fun old => old.name == m.name && old.arity == m.arity) = true := by
      simpa using one.1 fresh
    rw [if_pos fresh, if_neg undeclared]
  · have declared :
        (methods.any fun old => old.name == m.name && old.arity == m.arity) = true := by
      simpa using mt one.2 fresh
    rw [if_neg fresh, if_pos declared]

theorem addMethods_eq_ok_iff (distinct : Unambiguous methods) :
    wanted.foldlM (addMethod owner) methods = .ok all ↔
      all = methods ++ wanted ∧ Unambiguous (methods ++ wanted) := by
  induction wanted generalizing methods with
  | nil =>
    rw [List.foldlM_nil, List.append_nil]
    show Except.ok methods = .ok all ↔ _
    rw [Except.ok.injEq]
    exact ⟨fun same => ⟨same.symm, distinct⟩, fun h => h.1.symm⟩
  | cons m wanted ih =>
    have split : methods ++ m :: wanted = (methods ++ [m]) ++ wanted := by simp
    rw [List.foldlM_cons, addMethod_eq distinct, split]
    by_cases fresh : Unambiguous (methods ++ [m])
    · rw [if_pos fresh]
      exact ih fresh
    · rw [if_neg fresh]
      exact iff_of_false nofun fun h => fresh h.2.of_append

/-- What is refused is the first method that may not stand with those before it. -/
theorem firstClash_of_addMethods (distinct : Unambiguous methods) {e : SynthesisError}
    (refused : wanted.foldlM (addMethod owner) methods = .error e) :
    ∃ before m after, wanted = before ++ m :: after ∧ Unambiguous (methods ++ before) ∧
      ¬ Unambiguous (methods ++ before ++ [m]) ∧
        e = .configuration (.methodDeclaredTwice owner.canonical m.name m.arity) := by
  induction wanted generalizing methods with
  | nil => cases refused
  | cons m wanted ih =>
    rw [List.foldlM_cons, addMethod_eq distinct] at refused
    by_cases fresh : Unambiguous (methods ++ [m])
    · rw [if_pos fresh] at refused
      obtain ⟨before, clashing, after, rfl, apart, clash, isError⟩ := ih fresh refused
      have split : methods ++ [m] ++ before = methods ++ m :: before := by simp
      rw [split] at apart clash
      exact ⟨m :: before, clashing, after, rfl, apart, clash, isError⟩
    · rw [if_neg fresh] at refused
      cases refused
      rw [← List.append_nil methods] at distinct fresh
      exact ⟨[], m, wanted, rfl, distinct, fresh, rfl⟩

end

/-- A fluent wrapper is made exactly if its methods may stand together. -/
theorem fluentType_eq_ok_iff {c : FluentContext} {proxy t : SynthesizedType}
    {options : TypeOptions} : fluentType c proxy options = .ok t ↔
      t = fluentOf c proxy options ∧ Unambiguous (c.wantedOf options proxy.members) := by
  have added := @addMethods_eq_ok_iff c.name [] (c.wantedOf options proxy.members)
  unfold fluentType
  rw [c.wantedMethods_eq]
  show ((c.wantedOf options proxy.members).foldlM (addMethod c.name) [] >>= _) = _ ↔ _
  cases all : (c.wantedOf options proxy.members).foldlM (addMethod c.name) [] with
  | error e =>
    have clash : ¬ Unambiguous (c.wantedOf options proxy.members) := fun distinct => by
      have made := (added List.nodup_nil).2 ⟨rfl, distinct⟩
      rw [all] at made
      cases made
    exact iff_of_false nofun fun h => clash h.2
  | ok methods =>
    obtain ⟨rfl, distinct⟩ := (added List.nodup_nil).1 all
    rw [List.nil_append] at distinct
    constructor
    · intro made
      cases made
      exact ⟨rfl, distinct⟩
    · rintro ⟨rfl, -⟩
      rfl

theorem firstClash_of_fluentType {c : FluentContext} {proxy : SynthesizedType}
    {options : TypeOptions} {e : SynthesisError} (refused : fluentType c proxy options = .error e) :
    ∃ before m after, c.wantedOf options proxy.members = before ++ m :: after ∧
      Unambiguous before ∧ ¬ Unambiguous (before ++ [m]) ∧
        e = .configuration (.methodDeclaredTwice c.name.canonical m.name m.arity) := by
  unfold fluentType at refused
  rw [c.wantedMethods_eq] at refused
  replace refused : ((c.wantedOf options proxy.members).foldlM (addMethod c.name) [] >>= _) =
    .error e := refused
  cases added : (c.wantedOf options proxy.members).foldlM (addMethod c.name) [] with
  | error e' =>
    rw [added] at refused
    cases refused
    exact firstClash_of_addMethods (show Unambiguous [] from List.nodup_nil) added
  | ok methods =>
    rw [added] at refused
    cases refused

theorem methodDeclaredTwice_of_fluentType {c : FluentContext} {proxy : SynthesizedType}
    {options : TypeOptions} {e : SynthesisError} (h : fluentType c proxy options = .error e) :
    ∃ method arity, e = .configuration (.methodDeclaredTwice c.name.canonical method arity) := by
  obtain ⟨-, m, -, -, -, -, isError⟩ := firstClash_of_fluentType h
  exact ⟨m.name, m.arity, isError⟩

end FluentWrappers.Synthesis
