import FluentWrappers.Proofs.Lowering.ServedRequests
import FluentWrappers.Proofs.Lowering.Standalone

/-!
# The table of runtime names

Lowering follows mentions in order and stops at the first that nothing provides. So an artifact records
the registered names that are mentioned before, and no others. The table has all registered names in
use, in whatever order the types are lowered, exactly if every type with such a mention makes use of
them all before it.
-/

namespace FluentWrappers.Lowering

open Synthesis (SynthesizedType Synthesizer Session)

variable {runtime : RuntimeNames} {metadata : Metadata} {types reordered : List SynthesizedType}
  {artifact : Artifact} {defined : List String} {mentions first rest : List Mention} {name : String}

/-! ### Registered names in use -/

/-- A part of a member type is an instance of the registered generic definition, or a registered type of
the catalog that is not lowered with the types. -/
def UsesRegistered (runtime : RuntimeNames) (types : List SynthesizedType) (name : String) : Prop :=
  ∃ t ∈ types, ∃ type ∈ t.memberTypes, ∃ part, TypeRef.IsPartOf part type ∧
    ((∃ definition args, part = .generic definition args ∧ definition.canonical = name ∧
        name ∈ runtime.generics) ∨
      ∃ source, part = .named source ∧ source.canonical = name ∧ name ∈ runtime.types ∧
        name ∉ types.map (·.canonical))

/-- The mention relies on the registered name. -/
def Mention.Registers (runtime : RuntimeNames) (defined : List String) (name : String) (m : Mention) :
    Prop :=
  m.isProvided runtime defined = true ∧ m.runtimeName? defined = some name

/-- Among the mentions is one that nothing provides. -/
def HasForeign (runtime : RuntimeNames) (defined : List String) (mentions : List Mention) : Prop :=
  ∃ m ∈ mentions, m.isProvided runtime defined = false

/-- Among the mentions is one that relies on the registered name, and none before it that nothing
provides. -/
def MentionedInTime (runtime : RuntimeNames) (defined : List String) (mentions : List Mention)
    (name : String) : Prop :=
  ∃ before m after, mentions = before ++ m :: after ∧
    (∀ earlier ∈ before, earlier.isProvided runtime defined = true) ∧ m.Registers runtime defined name

theorem registers_iff {part : TypeRef} {m : Mention} (mentions : mention? part = some m) :
    m.Registers runtime (types.map (·.canonical)) name ↔
      (∃ definition args, part = .generic definition args ∧ definition.canonical = name ∧
        name ∈ runtime.generics) ∨
      ∃ source, part = .named source ∧ source.canonical = name ∧ name ∈ runtime.types ∧
        name ∉ types.map (·.canonical) := by
  unfold Mention.Registers
  rw [isProvided_iff mentions, runtimeName?_eq_some mentions]
  constructor
  · rintro ⟨known, ⟨definition, args, rfl, rfl⟩ | ⟨source, rfl, rfl, isForeign⟩⟩
    · exact .inl ⟨definition, args, rfl, rfl, known⟩
    · exact .inr ⟨source, rfl, rfl, known.resolve_left isForeign, isForeign⟩
  · rintro (⟨definition, args, rfl, rfl, isRegistered⟩ | ⟨source, rfl, rfl, isRegistered, isForeign⟩)
    · exact ⟨isRegistered, .inl ⟨definition, args, rfl, rfl⟩⟩
    · exact ⟨.inr isRegistered, .inr ⟨source, rfl, rfl, isForeign⟩⟩

/-- The registered names in use are those that some mention relies on. -/
theorem usesRegistered_iff : UsesRegistered runtime types name ↔
    ∃ m ∈ mentionsOfTypes types, m.Registers runtime (types.map (·.canonical)) name := by
  constructor
  · rintro ⟨t, isIn, type, isMember, part, isPart, uses⟩
    have mentions : ∃ m, mention? part = some m := by
      rcases uses with ⟨_, _, rfl, -⟩ | ⟨_, rfl, -⟩ <;> exact ⟨_, rfl⟩
    obtain ⟨m, mentions⟩ := mentions
    have isMention := (mem_mentionsOf type).2 ⟨part, isPart, mentions⟩
    refine ⟨m, List.mem_flatMap.2 ⟨t, isIn, ?_⟩, (registers_iff mentions).2 uses⟩
    exact List.mem_append_right _ (List.mem_flatMap.2 ⟨type, isMember, isMention⟩)
  · rintro ⟨m, isIn, registers⟩
    obtain ⟨t, isIn, isMention⟩ := List.mem_flatMap.1 isIn
    rcases List.mem_append.1 isMention with isInterface | isMember
    · obtain ⟨_, -, rfl⟩ := List.mem_map.1 isInterface
      cases registers.2
    · obtain ⟨type, isMember, isMention⟩ := List.mem_flatMap.1 isMember
      obtain ⟨part, isPart, mentions⟩ := (mem_mentionsOf type).1 isMention
      exact ⟨t, isIn, type, isMember, part, isPart, (registers_iff mentions).1 registers⟩

/-! ### Names mentioned in time -/

theorem MentionedInTime.registers (inTime : MentionedInTime runtime defined mentions name) :
    ∃ m ∈ mentions, m.Registers runtime defined name := by
  obtain ⟨before, m, after, rfl, -, registers⟩ := inTime
  exact ⟨m, List.mem_append_right _ List.mem_cons_self, registers⟩

theorem mentionedInTime_of_closed (closed : ¬ HasForeign runtime defined mentions) {m : Mention}
    (isIn : m ∈ mentions) (registers : m.Registers runtime defined name) :
    MentionedInTime runtime defined mentions name := by
  obtain ⟨before, after, rfl⟩ := List.append_of_mem isIn
  refine ⟨before, m, after, rfl, fun earlier isEarlier => ?_, registers⟩
  rw [← Bool.not_eq_false]
  exact fun isForeign => closed ⟨earlier, List.mem_append_left _ isEarlier, isForeign⟩

theorem MentionedInTime.append (inTime : MentionedInTime runtime defined first name) :
    MentionedInTime runtime defined (first ++ rest) name := by
  obtain ⟨before, m, after, rfl, provided, registers⟩ := inTime
  exact ⟨before, m, after ++ rest, by simp, provided, registers⟩

theorem MentionedInTime.prepend (inTime : MentionedInTime runtime defined rest name)
    (closed : ¬ HasForeign runtime defined first) :
    MentionedInTime runtime defined (first ++ rest) name := by
  obtain ⟨before, m, after, rfl, provided, registers⟩ := inTime
  refine ⟨first ++ before, m, after, by simp, fun earlier isEarlier => ?_, registers⟩
  rcases List.mem_append.1 isEarlier with isFirst | isBefore
  · rw [← Bool.not_eq_false]
    exact fun isForeign => closed ⟨earlier, isFirst, isForeign⟩
  · exact provided earlier isBefore

/-- What comes after a mention that nothing provides does not count. -/
theorem MentionedInTime.of_append (inTime : MentionedInTime runtime defined (first ++ rest) name)
    (foreign : HasForeign runtime defined first) : MentionedInTime runtime defined first name := by
  obtain ⟨before, m, after, same, provided, registers⟩ := inTime
  rcases List.append_eq_append_iff.1 same with ⟨more, rfl, -⟩ | ⟨more, rfl, tail⟩
  · obtain ⟨x, isIn, isForeign⟩ := foreign
    rw [provided x (List.mem_append_left _ isIn)] at isForeign
    cases isForeign
  · cases more with
    | nil =>
      rw [List.append_nil] at foreign
      obtain ⟨x, isIn, isForeign⟩ := foreign
      rw [provided x isIn] at isForeign
      cases isForeign
    | cons next more =>
      obtain ⟨rfl, -⟩ := List.cons.inj tail
      exact ⟨before, m, more, rfl, provided, registers⟩

/-- The table has the names that are mentioned in time. -/
theorem mem_runtimeRefs_iff : name ∈ runtimeRefs runtime types ↔
    MentionedInTime runtime (types.map (·.canonical)) (mentionsOfTypes types) name := by
  unfold runtimeRefs
  rw [mem_ascending, List.mem_filterMap]
  constructor
  · rintro ⟨m, isIn, isName⟩
    obtain ⟨before, after, split⟩ := List.append_of_mem isIn
    refine ⟨before, m, after ++ (mentionsOfTypes types).dropWhile
      (Mention.isProvided runtime (types.map (·.canonical))), ?_, fun earlier isEarlier => ?_,
      List.mem_takeWhile_imp isIn, isName⟩
    · rw [← List.cons_append, ← List.append_assoc, ← split, List.takeWhile_append_dropWhile]
    · exact List.mem_takeWhile_imp (split ▸ List.mem_append_left _ isEarlier)
  · rintro ⟨before, m, after, split, provided, isProvided, isName⟩
    refine ⟨m, ?_, isName⟩
    rw [split, List.takeWhile_append_of_pos provided, List.takeWhile_cons_of_pos isProvided]
    exact List.mem_append_right _ List.mem_cons_self

/-- If each type with a foreign mention has the name in time, so have all types together, provided that
some mention relies on it. -/
theorem mentionedInTime_mentionsOfTypes (uses : ∃ m ∈ mentionsOfTypes types,
      m.Registers runtime defined name)
    (each : ∀ t ∈ types, HasForeign runtime defined (mentionsOfType t) →
      MentionedInTime runtime defined (mentionsOfType t) name) :
    MentionedInTime runtime defined (mentionsOfTypes types) name := by
  -- the first type with a foreign mention ends the search, the types before it have none
  induction types with
  | nil =>
    obtain ⟨m, isIn, -⟩ := uses
    cases isIn
  | cons t types ih =>
    rw [mentionsOfTypes, List.flatMap_cons] at uses ⊢
    by_cases foreign : HasForeign runtime defined (mentionsOfType t)
    · exact (each t List.mem_cons_self foreign).append
    · obtain ⟨m, isIn, registers⟩ := uses
      rcases List.mem_append.1 isIn with isFirst | isLater
      · exact (mentionedInTime_of_closed foreign isFirst registers).append
      · exact (ih ⟨m, isLater, registers⟩ fun t isIn => each t (List.mem_cons_of_mem _ isIn)).prepend
          foreign

/-! ### The order of the types -/

section

variable (perm : reordered.Perm types)

include perm

theorem isProvided_of_perm : Mention.isProvided runtime (reordered.map (·.canonical)) =
    Mention.isProvided runtime (types.map (·.canonical)) := by
  funext m
  cases m <;> simp only [Mention.isProvided, (perm.map _).contains_eq]

theorem runtimeName?_of_perm : Mention.runtimeName? (reordered.map (·.canonical)) =
    Mention.runtimeName? (types.map (·.canonical)) := by
  funext m
  cases m <;> simp only [Mention.runtimeName?, (perm.map _).contains_eq]

theorem mem_runtimeRefs_of_perm : name ∈ runtimeRefs runtime reordered ↔
    MentionedInTime runtime (types.map (·.canonical)) (mentionsOfTypes reordered) name := by
  rw [mem_runtimeRefs_iff]
  unfold MentionedInTime Mention.Registers
  rw [isProvided_of_perm perm, runtimeName?_of_perm perm]

/-- A registered name in use is in the table of every order if each type with a foreign mention has it in
time. -/
theorem mem_runtimeRefs_of_uses (uses : UsesRegistered runtime types name)
    (each : ∀ t ∈ types, HasForeign runtime (types.map (·.canonical)) (mentionsOfType t) →
      MentionedInTime runtime (types.map (·.canonical)) (mentionsOfType t) name) :
    name ∈ runtimeRefs runtime reordered := by
  obtain ⟨m, isIn, registers⟩ := usesRegistered_iff.1 uses
  have isIn : m ∈ mentionsOfTypes reordered := (perm.flatMap_right mentionsOfType).mem_iff.2 isIn
  rw [mem_runtimeRefs_of_perm perm]
  exact mentionedInTime_mentionsOfTypes ⟨m, isIn, registers⟩ fun t isType =>
    each t (perm.mem_iff.1 isType)

theorem uses_of_mem_runtimeRefs (isIn : name ∈ runtimeRefs runtime reordered) :
    UsesRegistered runtime types name := by
  obtain ⟨m, isMention, registers⟩ := ((mem_runtimeRefs_of_perm perm).1 isIn).registers
  exact usesRegistered_iff.2 ⟨m, (perm.flatMap_right mentionsOfType).mem_iff.1 isMention, registers⟩

end

/-- With the type put first its names in time are those of all types, if it has a foreign mention. -/
theorem mentionedInTime_of_first {t : SynthesizedType} (isIn : t ∈ types)
    (foreign : HasForeign runtime (types.map (·.canonical)) (mentionsOfType t))
    (isListed : name ∈ runtimeRefs runtime (t :: types.erase t)) :
    MentionedInTime runtime (types.map (·.canonical)) (mentionsOfType t) name := by
  rw [mem_runtimeRefs_of_perm (List.perm_cons_erase isIn).symm, mentionsOfTypes,
    List.flatMap_cons] at isListed
  exact isListed.of_append foreign

/-- An artifact records, in ascending order, exactly the registered names that are mentioned before
anything that nothing provides; all of them are in use. Every order of the types gives the same table,
with all registered names in use, exactly if each type with a foreign mention mentions them all before
it. -/
theorem runtimeRefs_inTime (runtime : RuntimeNames) (metadata : Metadata)
    (types : List SynthesizedType) (artifact : Artifact)
    (lowered : lower runtime metadata types = .ok artifact) :
    artifact.runtimeRefs.Pairwise (· < ·) ∧
    (∀ name, name ∈ artifact.runtimeRefs ↔
      MentionedInTime runtime (types.map (·.canonical)) (mentionsOfTypes types) name) ∧
    (∀ name ∈ artifact.runtimeRefs, UsesRegistered runtime types name) ∧
    ((∀ reordered, reordered.Perm types → runtimeRefs runtime reordered = artifact.runtimeRefs ∧
        ∀ name, UsesRegistered runtime types name → name ∈ artifact.runtimeRefs) ↔
      ∀ t ∈ types, HasForeign runtime (types.map (·.canonical)) (mentionsOfType t) →
        ∀ name, UsesRegistered runtime types name →
          MentionedInTime runtime (types.map (·.canonical)) (mentionsOfType t) name) := by
  obtain ⟨definitions, -, rfl, -⟩ := of_lower lowered
  show (runtimeRefs runtime types).Pairwise (· < ·) ∧ (∀ name, name ∈ runtimeRefs runtime types ↔ _) ∧
    (∀ name ∈ runtimeRefs runtime types, _) ∧ ((∀ reordered, reordered.Perm types →
      runtimeRefs runtime reordered = runtimeRefs runtime types ∧
        ∀ name, _ → name ∈ runtimeRefs runtime types) ↔ _)
  refine ⟨pairwise_runtimeRefs runtime types, fun name => mem_runtimeRefs_iff,
    fun name => uses_of_mem_runtimeRefs (List.Perm.refl types), ?_⟩
  constructor
  · intro complete t isIn foreign name uses
    obtain ⟨same, recorded⟩ := complete _ (List.perm_cons_erase isIn).symm
    exact mentionedInTime_of_first isIn foreign (same ▸ recorded name uses)
  · intro each reordered perm
    have all {order : List SynthesizedType} (perm : order.Perm types) (name : String) :
        name ∈ runtimeRefs runtime order ↔ UsesRegistered runtime types name :=
      ⟨uses_of_mem_runtimeRefs perm, fun uses =>
        mem_runtimeRefs_of_uses perm uses fun t isIn foreign => each t isIn foreign name uses⟩
    have self := all (List.Perm.refl types)
    refine ⟨?_, fun name => (self name).2⟩
    exact (pairwise_runtimeRefs runtime reordered).eq_of_mem_iff (pairwise_runtimeRefs runtime types)
      fun name => (all perm name).trans (self name).symm

/-! ### Links and entries of a feed -/

def uri : SourceType where
  name := ⟨"Base", "Uri"⟩
  origin := .runtime

/-- An entry has an author, whose type nobody knows, and a page. -/
def feedEntry : SourceType where
  name := ⟨"Feed", "Entry"⟩
  members := [
    { name := "Author", type := .named ⟨"Feed", "Person"⟩ },
    { name := "Page", type := .named ⟨"Base", "Uri"⟩ }]

def feedLink : SourceType where
  name := ⟨"Feed", "Link"⟩
  members := [{ name := "Target", type := .named ⟨"Base", "Uri"⟩ }]

/-- Addresses belong to the base runtime. A member whose type is unknown keeps it. -/
def feed : Synthesizer where
  catalog := ⟨[uri, feedEntry, feedLink], []⟩
  options := { failFast := false }

/-- The types made for source types one after the other. -/
def feedTypes (sources : List SourceType) : List SynthesizedType :=
  (feed.serve (Session.start 1) (sources.map .synthesize)).2.types

theorem runtimeRefs_of_sorted (names : List String)
    (found : ((mentionsOfTypes types).takeWhile (Mention.isProvided runtime
      (types.map (·.canonical)))).filterMap (Mention.runtimeName? (types.map (·.canonical))) = names)
    (sorted : names.Pairwise fun a b => decide (a ≤ b) = true) :
    runtimeRefs runtime types = names.eraseDups := by
  have isAscending : runtimeRefs runtime types = ascending names := congrArg ascending found
  rw [isAscending, ascending, List.mergeSort_of_pairwise sorted]

/-- The types can be lowered in this order and give a lenient artifact. -/
theorem exists_lenient (sources : List SourceType)
    (lowers : (match lower (runtimeNames feed.catalog) {} (feedTypes sources) with
      | .error _ => false
      | .ok artifact => artifact.flags == ArtifactFlag.lenient) = true) :
    ∃ artifact, lower (runtimeNames feed.catalog) {} (feedTypes sources) = .ok artifact ∧
      artifact.flags = ArtifactFlag.lenient ∧
      artifact.runtimeRefs = runtimeRefs (runtimeNames feed.catalog) (feedTypes sources) := by
  cases lowered : lower (runtimeNames feed.catalog) {} (feedTypes sources) with
  | error e =>
    rw [lowered] at lowers
    cases lowers
  | ok artifact =>
    rw [lowered] at lowers
    obtain ⟨definitions, -, rfl, -⟩ := of_lower lowered
    exact ⟨_, rfl, eq_of_beq lowers, rfl⟩

/-- Links come before the author of an entry, so their addresses are recorded. -/
theorem runtimeRefs_inTime_feed :
    ∃ artifact, lower (runtimeNames feed.catalog) {} (feedTypes [feedLink, feedEntry]) =
        .ok artifact ∧ artifact.flags = ArtifactFlag.lenient ∧
      artifact.runtimeRefs.Pairwise (· < ·) ∧ "Base.Uri" ∈ artifact.runtimeRefs ∧
      UsesRegistered (runtimeNames feed.catalog) (feedTypes [feedLink, feedEntry]) "Base.Uri" := by
  obtain ⟨artifact, lowered, lenient, -⟩ := exists_lenient [feedLink, feedEntry]
    (by decide +kernel)
  obtain ⟨ascends, records, uses, -⟩ := runtimeRefs_inTime _ _ _ artifact lowered
  have isRecorded : "Base.Uri" ∈ artifact.runtimeRefs := by
    refine (records _).2 ⟨[], .named "Base.Uri", (mentionsOfTypes
      (feedTypes [feedLink, feedEntry])).tail, ?_, nofun, ?_, ?_⟩ <;> decide +kernel
  exact ⟨artifact, lowered, lenient, ascends, isRecorded, uses _ isRecorded⟩

/-- After the author of an entry the addresses of its page and of links are not recorded, though they are
in use and registered. In another order of the same types they are. -/
theorem lenient_table_lacks_registered_name :
    (∀ response ∈ (feed.serve (Session.start 1) ([feedEntry, feedLink].map .synthesize)).1,
      response.Succeeds) ∧
    UsesRegistered (runtimeNames feed.catalog) (feedTypes [feedEntry, feedLink]) "Base.Uri" ∧
    (∃ artifact, lower (runtimeNames feed.catalog) {} (feedTypes [feedEntry, feedLink]) =
        .ok artifact ∧ artifact.flags = ArtifactFlag.lenient ∧ artifact.runtimeRefs = []) ∧
    (feedTypes [feedLink, feedEntry]).Perm (feedTypes [feedEntry, feedLink]) ∧
    ∃ artifact, lower (runtimeNames feed.catalog) {} (feedTypes [feedLink, feedEntry]) =
      .ok artifact ∧ artifact.runtimeRefs = ["Base.Uri"] := by
  refine ⟨by decide +kernel, ?uses, ?lacks, by decide +kernel, ?has⟩
  case uses =>
    refine usesRegistered_iff.2 ⟨.named "Base.Uri", ?_, ?_, ?_⟩ <;> decide +kernel
  case lacks =>
    obtain ⟨artifact, lowered, lenient, refs⟩ := exists_lenient [feedEntry, feedLink]
      (by decide +kernel)
    refine ⟨artifact, lowered, lenient, refs.trans ?_⟩
    rw [runtimeRefs_of_sorted [] (by decide +kernel) .nil]
    rfl
  case has =>
    obtain ⟨artifact, lowered, -, refs⟩ := exists_lenient [feedLink, feedEntry]
      (by decide +kernel)
    refine ⟨artifact, lowered, refs.trans ?_⟩
    rw [runtimeRefs_of_sorted (List.replicate 9 "Base.Uri") (by decide +kernel)
      (by decide +kernel)]
    decide +kernel

end FluentWrappers.Lowering
