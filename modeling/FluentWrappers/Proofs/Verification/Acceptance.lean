import FluentWrappers.Proofs.FirstOccurrence
import FluentWrappers.Verification.Types
import Mathlib.Data.List.Nodup

/-!
# Accepted artifacts

A check that succeeds has succeeded at each of its parts: at every reference, every listed
interface, every binding and every body of every type. Types and members that are looked up in an
artifact are among those that were checked.
-/

namespace FluentWrappers

/-! ### Success of checks -/

namespace Check

variable {ε α β : Type}

theorem bind_eq_ok_iff {x : Except ε α} {f : α → Except ε β} {b : β} :
    (x >>= f) = .ok b ↔ ∃ a, x = .ok a ∧ f a = .ok b := by
  cases x with
  | error e =>
    constructor
    · intro h
      cases h
    · rintro ⟨a, h, _⟩
      cases h
  | ok a =>
    constructor
    · intro h
      exact ⟨a, rfl, h⟩
    · rintro ⟨b, h, hb⟩
      cases h
      exact hb

@[simp] theorem throw_bind (e : ε) (f : α → Except ε β) :
    ((throw e : Except ε α) >>= f) = .error e := rfl

@[simp] theorem ok_bind (a : α) (f : α → Except ε β) : ((.ok a : Except ε α) >>= f) = f a := rfl

theorem forM_eq_ok_iff {check : α → Except ε Unit} {items : List α} :
    items.forM check = .ok () ↔ ∀ a ∈ items, check a = .ok () := by
  induction items with
  | nil =>
    constructor
    · intro _ a ha
      cases ha
    · intro _
      rfl
  | cons a rest ih =>
    rw [List.forall_mem_cons, ← ih]
    constructor
    · intro h
      obtain ⟨u, first, others⟩ := bind_eq_ok_iff.1 h
      exact ⟨first, others⟩
    · rintro ⟨first, others⟩
      exact bind_eq_ok_iff.2 ⟨(), first, others⟩

end Check

/-! ### Looking up -/

namespace TypeDefinition

theorem findMethod?_eq_some {t : TypeDefinition} {name : String} {arity : Nat} {m : Method}
    (h : t.findMethod? name arity = some m) : m ∈ t.methods ∧ m.name = name ∧ m.arity = arity := by
  have found := List.find?_some h
  rw [Bool.and_eq_true, beq_iff_eq, beq_iff_eq] at found
  exact ⟨List.mem_of_find?_eq_some h, found⟩

theorem findImplementation?_eq_some {t : TypeDefinition} {interface method : String} {m : Method}
    (h : t.findImplementation? interface method = some m) :
    m ∈ t.methods ∧ m.binding = some ⟨interface, method⟩ :=
  ⟨List.mem_of_find?_eq_some h, by simpa using List.find?_some h⟩

end TypeDefinition

theorem firstRepeated?_eq_none {seen names : List String} (h : firstRepeated? seen names = none) :
    names.Nodup ∧ ∀ name ∈ names, name ∉ seen := by
  induction names generalizing seen with
  | nil => simp
  | cons name rest ih =>
    unfold firstRepeated? at h
    split at h
    case isTrue => cases h
    case isFalse new =>
      obtain ⟨distinct, others⟩ := ih h
      have first : name ∉ rest := fun again => others name again List.mem_cons_self
      refine ⟨List.nodup_cons.2 ⟨first, distinct⟩, ?_⟩
      intro x hx
      rcases List.mem_cons.1 hx with rfl | later
      · exact fun old => new (List.contains_iff_mem.2 old)
      · exact fun old => others x later (List.mem_cons_of_mem _ old)

/-- The names before the first that comes again are distinct, and it is one of them or was seen before. -/
theorem exists_of_firstRepeated? {seen names : List String} {name : String}
    (h : firstRepeated? seen names = some name) : ∃ before after, names = before ++ name :: after ∧
      before.Nodup ∧ (∀ x ∈ before, x ∉ seen) ∧ (name ∈ seen ∨ name ∈ before) := by
  induction names generalizing seen with
  | nil => cases h
  | cons x rest ih =>
    unfold firstRepeated? at h
    split at h
    case isTrue old =>
      obtain rfl := Option.some.inj h
      exact ⟨[], rest, rfl, .nil, nofun, Or.inl (List.contains_iff_mem.1 old)⟩
    case isFalse new =>
      obtain ⟨before, after, rfl, distinct, others, again⟩ := ih h
      have fresh : x ∉ before := fun isIn => others x isIn List.mem_cons_self
      refine ⟨x :: before, after, rfl, List.nodup_cons.2 ⟨fresh, distinct⟩, fun y isIn => ?_, ?_⟩
      · rcases List.mem_cons.1 isIn with rfl | isIn
        · exact fun old => new (List.contains_iff_mem.2 old)
        · exact fun old => others y isIn (List.mem_cons_of_mem x old)
      · rcases again with old | isIn
        · rcases List.mem_cons.1 old with rfl | old
          · exact Or.inr List.mem_cons_self
          · exact Or.inl old
        · exact Or.inr (List.mem_cons_of_mem x isIn)

namespace Artifact

theorem findType?_eq_some {a : Artifact} {name : String} {t : TypeDefinition}
    (h : a.findType? name = some t) : t ∈ a.types ∧ t.name = name :=
  ⟨List.mem_of_find?_eq_some h, by simpa using List.find?_some h⟩

/-! ### What was checked -/

variable {a : Artifact} {t : TypeDefinition}

theorem verify_parts (h : a.verify = .ok ()) :
    (a.types.map (·.name)).Nodup ∧ (∀ r ∈ a.memberRefs, a.checkMemberRef r = .ok ()) ∧
      ∀ t ∈ a.types, a.checkType t = .ok () := by
  cases header : a.headerFault? with
  | some fault => simp [verify, header] at h
  | none =>
    cases repeated : firstRepeated? [] (a.types.map (·.name)) with
    | some name => simp [verify, header, repeated] at h
    | none =>
      simp only [verify, header, repeated] at h
      obtain ⟨_, refs, types⟩ := Check.bind_eq_ok_iff.1 h
      exact ⟨(firstRepeated?_eq_none repeated).1, Check.forM_eq_ok_iff.1 refs,
        Check.forM_eq_ok_iff.1 types⟩

theorem findType?_of_mem (h : a.verify = .ok ()) (ht : t ∈ a.types) : a.findType? t.name = some t :=
  FirstOccurrence.find?_key (verify_parts h).1 ht

theorem checkType_parts (h : a.checkType t = .ok ()) :
    a.checkInterfaces t = .ok () ∧ ∀ m ∈ t.methods, a.checkMethod t m = .ok () := by
  by_cases bare : t.kind = .enumeration ∧ t.hasIntegralUnderlying = false
  · simp [checkType, bare] at h
  · simp only [checkType, if_neg bare] at h
    obtain ⟨_, interfaces, h⟩ := Check.bind_eq_ok_iff.1 h
    refine ⟨interfaces, ?_⟩
    split at h
    · obtain ⟨_, _, methods⟩ := Check.bind_eq_ok_iff.1 h
      exact Check.forM_eq_ok_iff.1 methods
    · exact Check.forM_eq_ok_iff.1 h

theorem checkType_enum (h : a.checkType t = .ok ()) (isEnum : t.kind = .enumeration) :
    t.hasIntegralUnderlying = true := by
  cases bare : t.hasIntegralUnderlying with
  | false => simp [checkType, isEnum, bare] at h
  | true => rfl

theorem checkInterfaces_parts (h : a.checkInterfaces t = .ok ()) :
    (∀ name ∈ t.interfaces, a.checkInterface t name = .ok ()) ∧
      ∀ m ∈ t.methods, a.checkBinding t m = .ok () := by
  obtain ⟨_, interfaces, bindings⟩ := Check.bind_eq_ok_iff.1 h
  exact ⟨Check.forM_eq_ok_iff.1 interfaces, Check.forM_eq_ok_iff.1 bindings⟩

/-- A reference other than that of the root constructor points at a member of its kind, and one to a
method agrees with it. -/
theorem checkMemberRef_method {r : MemberReference} (h : a.checkMemberRef r = .ok ())
    (plain : r.isRootConstructor = false) (kind : r.kind = .method) :
    ∃ owner target, a.findType? r.owner = some owner ∧
      owner.findMethod? r.name r.paramCount.toNat = some target ∧
      target.isStatic = r.isStatic ∧ target.returnsValue = r.returnsValue := by
  simp only [checkMemberRef, plain, kind, Bool.false_eq_true, if_false] at h
  cases ho : a.findType? r.owner with
  | none => simp [ho] at h
  | some owner =>
    cases ht : owner.findMethod? r.name r.paramCount.toNat with
    | none => simp [ho, ht] at h
    | some target =>
      simp only [ho, ht] at h
      split at h
      case isTrue agree =>
        rw [Bool.and_eq_true, beq_iff_eq, beq_iff_eq] at agree
        exact ⟨owner, target, rfl, ht, agree⟩
      case isFalse => cases h

theorem checkInterface_kind {name : String} {i : TypeDefinition}
    (h : a.checkInterface t name = .ok ()) (hi : a.findType? name = some i) :
    i.kind = .interface := by
  simp only [checkInterface, hi] at h
  split at h
  · cases h
  · rename_i kind
    exact Decidable.not_not.1 kind

/-- A type that is no interface has a method bound to every abstract method of a listed one. -/
theorem checkInterface_implements {name : String} {i : TypeDefinition} {m : Method}
    (h : a.checkInterface t name = .ok ()) (hi : a.findType? name = some i)
    (concrete : t.kind ≠ .interface) (hm : m ∈ i.methods) (abstract : m.isAbstract = true) :
    ∃ found, t.findImplementation? name m.name = some found := by
  have kind := checkInterface_kind h hi
  simp only [checkInterface, hi, kind, ne_eq, not_true_eq_false, if_false, if_neg concrete] at h
  split at h
  case h_1 => cases h
  case h_2 none =>
    have implemented := List.find?_eq_none.1 none m hm
    rw [abstract, Bool.true_and, Option.isNone_iff_eq_none] at implemented
    exact Option.ne_none_iff_exists'.1 implemented

/-- A bound method has as many parameters as an abstract method of the interface it names. -/
theorem checkBinding_resolves {m : Method} {b : MethodBinding} (h : a.checkBinding t m = .ok ())
    (hb : m.binding = some b) :
    b.interface ∈ t.interfaces ∧ ∃ i target, a.findType? b.interface = some i ∧
      i.findMethod? b.method m.arity = some target ∧ target.isAbstract = true := by
  simp only [checkBinding, hb] at h
  split at h
  case isFalse => cases h
  case isTrue resolves =>
    simp only [bindingResolves, Bool.and_eq_true, List.contains_iff_mem] at resolves
    refine ⟨resolves.1, ?_⟩
    obtain ⟨_, found⟩ := resolves
    split at found
    case h_1 target located =>
      obtain ⟨i, hi, ht⟩ := Option.bind_eq_some_iff.1 located
      exact ⟨i, target, hi, ht, found⟩
    case h_2 => cases found

theorem checkMethod_body {m : Method} (h : a.checkMethod t m = .ok ()) :
    m.checkBody a.memberRefs = .ok () := by
  unfold checkMethod at h
  split at h
  case h_1 body => exact body
  case h_2 => cases h

theorem verify_body (h : a.verify = .ok ()) {m : Method} (ht : t ∈ a.types) (hm : m ∈ t.methods) :
    m.checkBody a.memberRefs = .ok () :=
  checkMethod_body ((checkType_parts ((verify_parts h).2.2 t ht)).2 m hm)

theorem verify_interfaces (h : a.verify = .ok ()) (ht : t ∈ a.types) :
    (∀ name ∈ t.interfaces, a.checkInterface t name = .ok ()) ∧
      ∀ m ∈ t.methods, a.checkBinding t m = .ok () :=
  checkInterfaces_parts (checkType_parts ((verify_parts h).2.2 t ht)).1

end Artifact

end FluentWrappers
