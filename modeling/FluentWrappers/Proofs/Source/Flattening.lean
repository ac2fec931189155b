import FluentWrappers.Proofs.FirstOccurrence
import FluentWrappers.Proofs.Source.Inheritance

/-!
# Flattened members

The declarations of a type are those of its bases, root first, and then its own. Each name keeps the
place of its first declaration among them, and the member is the one declared last. A member whose
last declaration is not eligible is left out, whatever was declared before.
-/

namespace FluentWrappers

/-- The member that is declared last under the name. -/
def lastDeclared? (declared : List Member) (name : String) : Option Member :=
  declared.reverse.find? (·.name == name)

/-- The place of the name among the declarations, that of the first one. -/
def firstPlace (declared : List Member) (name : String) : Nat :=
  (declared.map (·.name)).idxOf name

/-- All that the types of a chain declare, most derived last. -/
def declarations (chain : List SourceType) : List Member :=
  chain.reverse.flatMap (·.members)

variable {members declared : List Member} {m n : Member} {name : String}

/-! ### One more member -/

theorem mem_of_lastDeclared? (found : lastDeclared? declared name = some m) : m ∈ declared :=
  List.mem_reverse.1 (List.mem_of_find?_eq_some found)

theorem lastDeclared?_concat : lastDeclared? (declared ++ [m]) name =
    if m.name = name then some m else lastDeclared? declared name := by
  unfold lastDeclared?
  rw [List.reverse_concat]
  by_cases same : m.name = name
  · rw [if_pos same]
    exact List.find?_cons_of_pos (beq_iff_eq.2 same)
  · rw [if_neg same]
    exact List.find?_cons_of_neg (mt beq_iff_eq.1 same)

theorem names_addMember : (addMember members m).map (·.name) =
    if m.name ∈ members.map (·.name) then members.map (·.name)
    else members.map (·.name) ++ [m.name] := by
  have isThere : members.any (·.name == m.name) = true ↔ m.name ∈ members.map (·.name) := by simp
  unfold addMember
  by_cases old : m.name ∈ members.map (·.name)
  · rw [if_pos (isThere.2 old), if_pos old, List.map_map]
    refine List.map_congr_left fun other _ => ?_
    by_cases same : other.name = m.name <;> simp [same]
  · rw [if_neg (mt isThere.1 old), if_neg old, List.map_append, List.map_singleton]

/-- One more member hides that of its name, and all others stay. -/
theorem mem_addMember_iff : n ∈ addMember members m ↔ n = m ∨ n ∈ members ∧ n.name ≠ m.name := by
  have isThere : members.any (·.name == m.name) = true ↔ ∃ old ∈ members, old.name = m.name := by
    simp
  unfold addMember
  by_cases old : ∃ old ∈ members, old.name = m.name
  · rw [if_pos (isThere.2 old), List.mem_map]
    constructor
    · rintro ⟨other, isIn, rfl⟩
      by_cases same : other.name = m.name
      · exact Or.inl (if_pos (beq_iff_eq.2 same))
      · rw [if_neg (mt beq_iff_eq.1 same)]
        exact Or.inr ⟨isIn, same⟩
    · rintro (rfl | ⟨isIn, other⟩)
      · obtain ⟨old, isIn, same⟩ := old
        exact ⟨old, isIn, if_pos (beq_iff_eq.2 same)⟩
      · exact ⟨n, isIn, if_neg (mt beq_iff_eq.1 other)⟩
  · rw [if_neg (mt isThere.1 old), List.mem_append, List.mem_singleton, or_comm]
    have other (isIn : n ∈ members) : n.name ≠ m.name := fun same => old ⟨n, isIn, same⟩
    exact or_congr_right ⟨fun isIn => ⟨isIn, other isIn⟩, And.left⟩

/-! ### All members -/

/-- Each name stands where it is declared first. -/
theorem names_foldl_addMember :
    (declared.foldl addMember []).map (·.name) = (declared.map (·.name)).eraseDups := by
  induction declared using List.reverseRecOn with
  | nil => rfl
  | append_singleton declared m ih =>
    rw [List.foldl_concat, names_addMember, ih, List.map_append, List.map_singleton,
      FirstOccurrence.eraseDups_concat]
    simp only [List.mem_eraseDups]

/-- The member of each name is the one declared last. -/
theorem mem_foldl_addMember :
    m ∈ declared.foldl addMember [] ↔ lastDeclared? declared m.name = some m := by
  induction declared using List.reverseRecOn with
  | nil => exact ⟨nofun, nofun⟩
  | append_singleton declared last ih =>
    rw [List.foldl_concat, mem_addMember_iff, ih, lastDeclared?_concat]
    by_cases same : last.name = m.name
    · rw [if_pos same, Option.some.injEq]
      constructor
      · rintro (rfl | ⟨-, other⟩)
        · rfl
        · exact absurd same.symm other
      · exact fun isLast => Or.inl isLast.symm
    · rw [if_neg same]
      constructor
      · rintro (rfl | ⟨isIn, -⟩)
        · exact absurd rfl same
        · exact isIn
      · exact fun isIn => Or.inr ⟨isIn, Ne.symm same⟩

theorem Member.isEligible_iff : m.isEligible = true ↔
    m.visibility = .publicAccess ∧ m.readable = true ∧ m.writable = true ∧ m.ignored = false := by
  unfold isEligible
  simp only [Bool.and_eq_true, beq_iff_eq, Bool.not_eq_true', and_assoc]

namespace SourceCatalog

open Synthesis (SynthesisError)

variable {c : SourceCatalog} {t : SourceType}

theorem extract_of_chain {chain : List SourceType} (h : c.chain t = .ok chain) :
    c.extract t = .ok (((declarations chain).foldl addMember []).filter Member.isEligible) := by
  rw [extract_eq, h, declarations, List.foldl_flatMap]
  rfl

theorem exists_chain_of_extract (found : c.extract t = .ok members) :
    ∃ chain, c.chain t = .ok chain ∧
      members = ((declarations chain).foldl addMember []).filter Member.isEligible := by
  cases whole : c.chain t with
  | error e =>
    rw [extract_eq, whole] at found
    cases found
  | ok chain => exact ⟨chain, rfl, Except.ok.inj (found.symm.trans (extract_of_chain whole))⟩

/-- Members declared again take the place of others, so no name comes twice. -/
theorem nodup_names_extract (found : c.extract t = .ok members) :
    (members.map (·.name)).Nodup := by
  obtain ⟨chain, -, rfl⟩ := exists_chain_of_extract found
  refine List.Nodup.sublist (List.filter_sublist.map _) ?_
  rw [names_foldl_addMember]
  exact FirstOccurrence.nodup_eraseDups _

/-- The members of a type cannot be extracted exactly if a name comes again among its bases. Else
they are those whose last declaration along the chain of bases is eligible, in the order of the first
declarations. -/
theorem extract_flattens (c : SourceCatalog) (t : SourceType) :
    ((∃ fault, c.extract t = .error (.configuration fault)) ↔ c.InheritsCyclically t) ∧
      (¬ c.InheritsCyclically t →
        ∃ chain, (∀ n, c.ancestor? n t = chain[n]?) ∧ ∃ members, c.extract t = .ok members ∧
          (members.map (·.name)).Nodup ∧
          (members.Pairwise fun m n => firstPlace (declarations chain) m.name <
            firstPlace (declarations chain) n.name) ∧
          ∀ m, m ∈ members ↔ lastDeclared? (declarations chain) m.name = some m ∧
            m.visibility = .publicAccess ∧ m.readable = true ∧ m.writable = true ∧
            m.ignored = false) := by
  refine ⟨⟨?_, fun cyclic => ?_⟩, fun acyclic => ?_⟩
  · rintro ⟨fault, failed⟩
    by_contra acyclic
    obtain ⟨members, found⟩ := exists_extract_iff.2 acyclic
    cases found.symm.trans failed
  · cases result : c.extract t with
    | error e =>
      obtain ⟨name, rfl⟩ := eq_inheritanceCycle_of_extract result
      exact ⟨_, rfl⟩
    | ok members => exact absurd cyclic (exists_extract_iff.1 ⟨members, result⟩)
  · obtain ⟨members, found⟩ := exists_extract_iff.2 acyclic
    obtain ⟨chain, whole, rfl⟩ := exists_chain_of_extract found
    have inOrder : ((declarations chain).foldl addMember []).Pairwise fun m n =>
        firstPlace (declarations chain) m.name < firstPlace (declarations chain) n.name := by
      rw [← List.pairwise_map (f := fun m : Member => m.name)
        (R := fun a b => firstPlace (declarations chain) a < firstPlace (declarations chain) b),
        names_foldl_addMember]
      exact FirstOccurrence.pairwise_eraseDups _
    refine ⟨chain, (of_chainWithin whole).1, _, found, nodup_names_extract found,
      inOrder.sublist List.filter_sublist, fun m => ?_⟩
    rw [List.mem_filter, mem_foldl_addMember, Member.isEligible_iff]

/-- An order has the number that it declares itself in the place of that of records, and no secret,
which documents hide. A type that is its own base has no members that could be extracted. -/
theorem extract_flattens_shop :
    let record : SourceType :=
      { name := ⟨"Shop", "Record"⟩, members := [{ name := "Number", type := .named ⟨"Shop", "Text"⟩ },
        { name := "Secret", type := .named ⟨"Shop", "Text"⟩ }] }
    let document : SourceType :=
      { name := ⟨"Shop", "Document"⟩, base := some record.name,
        members := [{ name := "Title", type := .named ⟨"Shop", "Text"⟩ },
          { name := "Secret", type := .named ⟨"Shop", "Text"⟩, ignored := true }] }
    let number : Member := { name := "Number", type := .array (.named ⟨"Shop", "Text"⟩) }
    let order : SourceType :=
      { name := ⟨"Shop", "Order"⟩, base := some document.name, members := [number] }
    let loop : SourceType := { name := ⟨"Shop", "Loop"⟩, base := some ⟨"Shop", "Loop"⟩ }
    let c : SourceCatalog := ⟨[record, document, order, loop], []⟩
    c.InheritsCyclically loop ∧ ¬ c.InheritsCyclically order ∧
      ∃ members, c.extract order = .ok members ∧ (members.map (·.name)).Nodup ∧
        number ∈ members ∧ (∀ m ∈ record.members, m ∉ members) ∧
        ∀ m ∈ members, m.name ≠ "Secret" := by
  intro record document number order loop c
  have cyclic : c.InheritsCyclically loop := by
    have failed : c.extract loop = .error (.configuration (.inheritanceCycle "Shop.Loop")) := by
      decide +kernel
    exact (extract_flattens c loop).1.1 ⟨_, failed⟩
  have whole : c.chain order = .ok [order, document, record] := by decide +kernel
  have acyclic : ¬ c.InheritsCyclically order :=
    exists_extract_iff.1 ⟨_, extract_of_chain whole⟩
  obtain ⟨chain, bases, members, found, distinct, -, isMember⟩ := (extract_flattens c order).2 acyclic
  obtain rfl : chain = [order, document, record] :=
    List.ext_getElem? fun n => (bases n).symm.trans ((of_chainWithin whole).1 n)
  have ofRecord : ∀ m ∈ record.members,
      lastDeclared? (declarations [order, document, record]) m.name ≠ some m := by decide +kernel
  have secret : lastDeclared? (declarations [order, document, record]) "Secret" =
      some document.members[1] := by decide +kernel
  refine ⟨cyclic, acyclic, members, found, distinct, (isMember number).2 (by decide +kernel),
    fun m isIn kept => ofRecord m isIn ((isMember m).1 kept).1, fun m kept named => ?_⟩
  obtain ⟨isLast, -, -, -, shown⟩ := (isMember m).1 kept
  rw [named, secret] at isLast
  cases isLast
  cases shown

end SourceCatalog

end FluentWrappers
