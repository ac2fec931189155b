import FluentWrappers.Source.Catalog
import Mathlib.Data.Finset.Card
import Mathlib.Data.List.Perm.Subperm

/-!
# Inheritance chains

The bases of a source type are followed until there are no more, unless one of them comes again. The
members of a type can be extracted exactly if none does: the number of types in the catalog bounds
every chain without repetition.
-/

namespace FluentWrappers.SourceCatalog

open Synthesis (SynthesisError)

variable {c : SourceCatalog} {t : SourceType}

/-- The type that comes so many steps after a type when its bases are followed in the catalog. -/
def ancestor? (c : SourceCatalog) : Nat → SourceType → Option SourceType
  | 0, t => some t
  | n + 1, t => (t.base.bind c.get?).bind (c.ancestor? n)

def InheritsCyclically (c : SourceCatalog) (t : SourceType) : Prop :=
  ∃ i j a b, i < j ∧ c.ancestor? i t = some a ∧ c.ancestor? j t = some b ∧
    a.canonical = b.canonical

/-! ### Ancestors -/

theorem ancestor?_of_base {base : SourceType} (h : t.base.bind c.get? = some base) (n : Nat) :
    c.ancestor? (n + 1) t = c.ancestor? n base := by
  rw [ancestor?, h]
  rfl

theorem ancestor?_of_no_base (h : t.base.bind c.get? = none) (n : Nat) :
    c.ancestor? (n + 1) t = none := by
  rw [ancestor?, h]
  rfl

theorem ancestor?_of_last (h : t.base.bind c.get? = none) (n : Nat) :
    c.ancestor? n t = [t][n]? := by
  cases n with
  | zero => rfl
  | succ n => exact ancestor?_of_no_base h n

theorem inheritsCyclically_of_base {base : SourceType} (h : t.base.bind c.get? = some base)
    (cyclic : c.InheritsCyclically base) : c.InheritsCyclically t := by
  obtain ⟨i, j, a, b, before, first, second, same⟩ := cyclic
  refine ⟨i + 1, j + 1, a, b, by omega, ?_, ?_, same⟩
  · rw [ancestor?_of_base h]
    exact first
  · rw [ancestor?_of_base h]
    exact second

theorem exists_ancestor_of_succ {n : Nat} {a : SourceType} (h : c.ancestor? (n + 1) t = some a) :
    ∃ b, c.ancestor? n t = some b := by
  induction n generalizing t with
  | zero => exact ⟨t, rfl⟩
  | succ n ih =>
    cases base : t.base.bind c.get? with
    | none =>
      rw [ancestor?_of_no_base base] at h
      cases h
    | some b =>
      rw [ancestor?_of_base base] at h ⊢
      exact ih h

theorem exists_ancestor_of_le {n k : Nat} {a : SourceType} (h : c.ancestor? n t = some a)
    (le : k ≤ n) : ∃ b, c.ancestor? k t = some b := by
  induction n generalizing a with
  | zero =>
    obtain rfl : k = 0 := by omega
    exact ⟨a, h⟩
  | succ n ih =>
    by_cases last : k = n + 1
    · exact ⟨a, last ▸ h⟩
    · obtain ⟨b, earlier⟩ := exists_ancestor_of_succ h
      exact ih earlier (by omega)

theorem mem_types_of_ancestor {n : Nat} {a : SourceType} (h : c.ancestor? (n + 1) t = some a) :
    a ∈ c.types := by
  induction n generalizing t with
  | zero =>
    have found : t.base.bind c.get? = some a := by
      rw [ancestor?] at h
      simpa [ancestor?] using h
    obtain ⟨name, -, found⟩ := Option.bind_eq_some_iff.1 found
    exact List.mem_of_find?_eq_some ((c.getByName?_eq_find? _).symm.trans found)
  | succ n ih =>
    cases base : t.base.bind c.get? with
    | none =>
      rw [ancestor?_of_no_base base] at h
      cases h
    | some b =>
      rw [ancestor?_of_base base] at h
      exact ih h

/-- A chain with more bases than the catalog has types repeats one of them. -/
theorem inheritsCyclically_of_ancestor {a : SourceType}
    (long : c.ancestor? (c.types.length + 1) t = some a) : c.InheritsCyclically t := by
  -- two of so many bases have one name, as each base is one of the catalog's types
  let nameOf (i : Nat) : Option String := (c.ancestor? (i + 1) t).map SourceType.canonical
  let names : Finset (Option String) := (c.types.map fun a => some a.canonical).toFinset
  have fewer : names.card < (Finset.range (c.types.length + 1)).card := by
    have atMost : names.card ≤ c.types.length :=
      (List.toFinset_card_le _).trans_eq (List.length_map _)
    rw [Finset.card_range]
    omega
  have known (i : Nat) (within : i ∈ Finset.range (c.types.length + 1)) : nameOf i ∈ names := by
    obtain ⟨b, isAncestor⟩ := exists_ancestor_of_le long (k := i + 1) (Finset.mem_range.1 within)
    rw [List.mem_toFinset, List.mem_map]
    refine ⟨b, mem_types_of_ancestor isAncestor, ?_⟩
    simp only [nameOf, isAncestor, Option.map_some]
  obtain ⟨i, iIn, j, jIn, different, same⟩ :=
    Finset.exists_ne_map_eq_of_card_lt_of_maps_to fewer known
  obtain ⟨a, atI⟩ := exists_ancestor_of_le long (k := i + 1) (Finset.mem_range.1 iIn)
  obtain ⟨b, atJ⟩ := exists_ancestor_of_le long (k := j + 1) (Finset.mem_range.1 jIn)
  have names : a.canonical = b.canonical := by
    simpa only [nameOf, atI, atJ, Option.map_some, Option.some.injEq] using same
  rcases Nat.lt_or_gt_of_ne different with before | after
  · exact ⟨i + 1, j + 1, a, b, by omega, atI, atJ, names⟩
  · exact ⟨j + 1, i + 1, b, a, by omega, atJ, atI, names.symm⟩

/-! ### Chains -/

section

variable {fuel : Nat} {seen : List String} {base : SourceType}

theorem chainWithin_of_mem (again : t.canonical ∈ seen) :
    c.chainWithin fuel seen t = .error (.configuration (.inheritanceCycle t.canonical)) := by
  unfold chainWithin
  rw [if_pos (List.contains_iff_mem.2 again)]

theorem chainWithin_of_no_base (fresh : t.canonical ∉ seen) (last : t.base.bind c.get? = none) :
    c.chainWithin fuel seen t = .ok [t] := by
  unfold chainWithin
  rw [if_neg (mt List.contains_iff_mem.1 fresh), last]

theorem chainWithin_zero (fresh : t.canonical ∉ seen) (next : t.base.bind c.get? = some base) :
    c.chainWithin 0 seen t = .error (.configuration (.inheritanceCycle base.canonical)) := by
  unfold chainWithin
  rw [if_neg (mt List.contains_iff_mem.1 fresh), next]

theorem chainWithin_succ (fresh : t.canonical ∉ seen) (next : t.base.bind c.get? = some base) :
    c.chainWithin (fuel + 1) seen t =
      (c.chainWithin fuel (t.canonical :: seen) base).map (t :: ·) := by
  rw [chainWithin, if_neg (mt List.contains_iff_mem.1 fresh), next]
  show (c.chainWithin fuel (t.canonical :: seen) base >>= fun chain => pure (t :: chain)) = _
  cases c.chainWithin fuel (t.canonical :: seen) base <;> rfl

end

theorem exists_chainWithin {fuel : Nat} {seen : List String}
    (ends : c.ancestor? (fuel + 1) t = none)
    (fresh : ∀ n a, c.ancestor? n t = some a → a.canonical ∉ seen)
    (acyclic : ¬ c.InheritsCyclically t) : ∃ chain, c.chainWithin fuel seen t = .ok chain := by
  induction fuel generalizing seen t with
  | zero =>
    cases next : t.base.bind c.get? with
    | none => exact ⟨[t], chainWithin_of_no_base (fresh 0 t rfl) next⟩
    | some base =>
      rw [ancestor?_of_base next] at ends
      cases ends
  | succ fuel ih =>
    cases next : t.base.bind c.get? with
    | none => exact ⟨[t], chainWithin_of_no_base (fresh 0 t rfl) next⟩
    | some base =>
      have freshBase (n : Nat) (a : SourceType) (isAncestor : c.ancestor? n base = some a) :
          a.canonical ∉ t.canonical :: seen := by
        rw [← ancestor?_of_base next] at isAncestor
        rw [List.mem_cons, not_or]
        constructor
        · intro same
          exact acyclic ⟨0, n + 1, t, a, by omega, rfl, isAncestor, same.symm⟩
        · exact fresh (n + 1) a isAncestor
      rw [ancestor?_of_base next] at ends
      obtain ⟨chain, rest⟩ :=
        ih ends freshBase fun cyclic => acyclic (inheritsCyclically_of_base next cyclic)
      exact ⟨t :: chain, by rw [chainWithin_succ (fresh 0 t rfl) next, rest]; rfl⟩

theorem of_chainWithin {fuel : Nat} {seen : List String} {chain : List SourceType}
    (h : c.chainWithin fuel seen t = .ok chain) :
    (∀ n, c.ancestor? n t = chain[n]?) ∧ (chain.map SourceType.canonical).Nodup ∧
      ∀ a ∈ chain, a.canonical ∉ seen := by
  induction fuel generalizing seen t chain with
  | zero =>
    by_cases again : t.canonical ∈ seen
    · rw [chainWithin_of_mem again] at h
      cases h
    · cases next : t.base.bind c.get? with
      | some base =>
        rw [chainWithin_zero again next] at h
        cases h
      | none =>
        rw [chainWithin_of_no_base again next] at h
        cases h
        exact ⟨ancestor?_of_last next, List.nodup_singleton _, by simpa using again⟩
  | succ fuel ih =>
    by_cases again : t.canonical ∈ seen
    · rw [chainWithin_of_mem again] at h
      cases h
    · cases next : t.base.bind c.get? with
      | none =>
        rw [chainWithin_of_no_base again next] at h
        cases h
        exact ⟨ancestor?_of_last next, List.nodup_singleton _, by simpa using again⟩
      | some base =>
        rw [chainWithin_succ again next] at h
        cases rest : c.chainWithin fuel (t.canonical :: seen) base with
        | error e =>
          rw [rest] at h
          cases h
        | ok bases =>
          rw [rest] at h
          cases h
          obtain ⟨ancestors, distinct, fresh⟩ := ih rest
          refine ⟨fun n => ?_, ?_, ?_⟩
          · cases n with
            | zero => rfl
            | succ n => rw [ancestor?_of_base next, ancestors n, List.getElem?_cons_succ]
          · rw [List.map_cons, List.nodup_cons]
            refine ⟨fun known => ?_, distinct⟩
            obtain ⟨a, isLater, same⟩ := List.mem_map.1 known
            exact fresh a isLater (same ▸ List.mem_cons_self)
          · intro a isIn
            rcases List.mem_cons.1 isIn with rfl | isLater
            · exact again
            · exact fun old => fresh a isLater (List.mem_cons_of_mem _ old)

theorem eq_inheritanceCycle_of_chainWithin {fuel : Nat} {seen : List String} {e : SynthesisError}
    (h : c.chainWithin fuel seen t = .error e) :
    ∃ name, e = .configuration (.inheritanceCycle name) := by
  induction fuel generalizing seen t with
  | zero =>
    by_cases again : t.canonical ∈ seen
    · exact ⟨_, (Except.error.inj ((chainWithin_of_mem again).symm.trans h)).symm⟩
    · cases next : t.base.bind c.get? with
      | none =>
        rw [chainWithin_of_no_base again next] at h
        cases h
      | some base => exact ⟨_, (Except.error.inj ((chainWithin_zero again next).symm.trans h)).symm⟩
  | succ fuel ih =>
    by_cases again : t.canonical ∈ seen
    · exact ⟨_, (Except.error.inj ((chainWithin_of_mem again).symm.trans h)).symm⟩
    · cases next : t.base.bind c.get? with
      | none =>
        rw [chainWithin_of_no_base again next] at h
        cases h
      | some base =>
        rw [chainWithin_succ again next] at h
        cases rest : c.chainWithin fuel (t.canonical :: seen) base with
        | ok bases =>
          rw [rest] at h
          cases h
        | error e' =>
          rw [rest] at h
          cases h
          exact ih rest

/-- No chain is cut short: the names that came are distinct, and those of the root and the catalog. -/
theorem chainWithin_add {root : SourceType} {fuel : Nat} {seen : List String} (more : Nat)
    (enough : c.types.length < fuel + seen.length) (distinct : seen.Nodup)
    (among : t.canonical :: seen ⊆ root.canonical :: c.types.map SourceType.canonical) :
    c.chainWithin (fuel + more) seen t = c.chainWithin fuel seen t := by
  induction fuel generalizing seen t with
  | zero =>
    by_cases again : t.canonical ∈ seen
    · rw [chainWithin_of_mem again, chainWithin_of_mem again]
    · have few := (List.subperm_of_subset (distinct.cons again) among).length_le
      rw [List.length_cons, List.length_cons, List.length_map] at few
      omega
  | succ fuel ih =>
    by_cases again : t.canonical ∈ seen
    · rw [chainWithin_of_mem again, chainWithin_of_mem again]
    · cases next : t.base.bind c.get? with
      | none => rw [chainWithin_of_no_base again next, chainWithin_of_no_base again next]
      | some base =>
        have known : base ∈ c.types :=
          mem_types_of_ancestor (n := 0) ((ancestor?_of_base next 0).trans rfl)
        have enough' : c.types.length < fuel + (t.canonical :: seen).length := by
          rw [List.length_cons]
          omega
        have among' : base.canonical :: t.canonical :: seen ⊆
            root.canonical :: c.types.map SourceType.canonical :=
          List.cons_subset.2 ⟨List.mem_cons_of_mem _ (List.mem_map_of_mem known), among⟩
        rw [Nat.add_right_comm, chainWithin_succ again next, chainWithin_succ again next,
          ih enough' (distinct.cons again) among']

theorem chainWithin_eq_chain {fuel : Nat} (enough : c.types.length < fuel) :
    c.chainWithin fuel [] t = c.chain t := by
  obtain ⟨more, rfl⟩ := Nat.exists_eq_add_of_le (Nat.succ_le_of_lt enough)
  exact chainWithin_add more (Nat.lt_succ_self _) List.nodup_nil (List.cons_subset_cons _ nofun)

/-! ### Extraction -/

theorem extract_eq (c : SourceCatalog) (t : SourceType) : c.extract t = (c.chain t).map fun chain =>
    (chain.reverse.foldl (fun members t => t.members.foldl addMember members) []).filter
      Member.isEligible := by
  unfold extract
  cases c.chain t <;> rfl

theorem isEligible_of_extract {members : List Member} (found : c.extract t = .ok members)
    {m : Member} (isIn : m ∈ members) : m.isEligible = true := by
  rw [extract_eq] at found
  cases whole : c.chain t with
  | error e =>
    rw [whole] at found
    cases found
  | ok chain =>
    rw [whole] at found
    cases found
    exact (List.mem_filter.1 isIn).2

/-- A type has its members extracted exactly if no type comes again among its bases. -/
theorem exists_extract_iff : (∃ members, c.extract t = .ok members) ↔ ¬ c.InheritsCyclically t := by
  constructor
  · rintro ⟨members, h⟩ ⟨i, j, a, b, before, first, second, same⟩
    rw [extract_eq] at h
    cases whole : c.chain t with
    | error e =>
      rw [whole] at h
      cases h
    | ok chain =>
      obtain ⟨ancestors, distinct, -⟩ := of_chainWithin whole
      rw [ancestors] at first second
      have names : (chain.map SourceType.canonical)[i]? = (chain.map SourceType.canonical)[j]? := by
        rw [List.getElem?_map, List.getElem?_map, first, second, Option.map_some, Option.map_some,
          same]
      have within : i < (chain.map SourceType.canonical).length := by
        rw [List.length_map]
        exact (List.getElem?_eq_some_iff.1 first).1
      have equal := (List.getElem?_inj within distinct).1 names
      omega
  · intro acyclic
    have ends : c.ancestor? (c.types.length + 1 + 1) t = none := by
      by_contra more
      obtain ⟨a, long⟩ := Option.ne_none_iff_exists'.1 more
      obtain ⟨b, long⟩ := exists_ancestor_of_succ long
      exact acyclic (inheritsCyclically_of_ancestor long)
    have fresh (n : Nat) (a : SourceType) (_ : c.ancestor? n t = some a) :
        a.canonical ∉ ([] : List String) := List.not_mem_nil
    obtain ⟨chain, whole⟩ := exists_chainWithin ends fresh acyclic
    exact ⟨_, by rw [extract_eq, SourceCatalog.chain, whole]; rfl⟩

theorem eq_inheritanceCycle_of_extract {e : SynthesisError} (h : c.extract t = .error e) :
    ∃ name, e = .configuration (.inheritanceCycle name) := by
  rw [extract_eq] at h
  cases whole : c.chain t with
  | ok chain =>
    rw [whole] at h
    cases h
  | error e' =>
    rw [whole] at h
    cases h
    exact eq_inheritanceCycle_of_chainWithin whole

end FluentWrappers.SourceCatalog
