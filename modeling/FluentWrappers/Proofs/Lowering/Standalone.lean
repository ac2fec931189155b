import FluentWrappers.Proofs.FirstOccurrence
import FluentWrappers.Proofs.Lowering.Refusal
import Mathlib.Data.List.TakeWhile

/-!
# Standalone artifacts

Lowering finds what types mention in their type references, and verification finds it again in the
signatures of their definitions. Both find the same names in the same order, so an artifact that
lowering takes for standalone passes the verifier's check for foreign names.
-/

namespace FluentWrappers

/-- The one type is the other or stands in it, as the element of an array or as an argument. -/
inductive TypeRef.IsPartOf : TypeRef → TypeRef → Prop
  | self (type : TypeRef) : IsPartOf type type
  | element {part element : TypeRef} : IsPartOf part element → IsPartOf part (.array element)
  | argument {part argument : TypeRef} {definition : TypeName} {args : List TypeRef} :
    argument ∈ args → IsPartOf part argument → IsPartOf part (.generic definition args)

namespace Lowering

open Synthesis (SynthesizedType MethodSpec LoweringFault)

variable {runtime : RuntimeNames} {metadata : Metadata} {types : List SynthesizedType}
  {table : List MemberReference} {definitions : List TypeDefinition} {artifact : Artifact}

/-! ### Closed worlds -/

/-- What the type itself names is lowered with the types or registered; its parts are not looked at. -/
def IsKnown (runtime : RuntimeNames) (types : List SynthesizedType) : TypeRef → Prop
  | .synthesized name => name.canonical ∈ types.map (·.canonical)
  | .named name => name.canonical ∈ types.map (·.canonical) ∨ name.canonical ∈ runtime.types
  | .generic definition _ => definition.canonical ∈ runtime.generics
  | .primitive _ | .string | .object | .array _ => True

/-- The types make a closed world: their interfaces are among them, and whatever a member type names at
any depth is known. -/
structure ClosedWorld (runtime : RuntimeNames) (types : List SynthesizedType) : Prop where
  interfaces : ∀ t ∈ types, ∀ name ∈ t.interfaces, name.canonical ∈ types.map (·.canonical)
  members : ∀ t ∈ types, ∀ type ∈ t.memberTypes, ∀ part, TypeRef.IsPartOf part type →
    IsKnown runtime types part

/-- A part of a member type is an instance of the generic definition, or a type of the catalog that has
the name and is not lowered with the types. -/
def ReliesOn (types : List SynthesizedType) (name : String) : Prop :=
  ∃ t ∈ types, ∃ type ∈ t.memberTypes, ∃ part, TypeRef.IsPartOf part type ∧
    ((∃ definition args, part = .generic definition args ∧ definition.canonical = name) ∨
      ∃ source, part = .named source ∧ source.canonical = name ∧ name ∉ types.map (·.canonical))

/-! ### Mentions -/

/-- What a type mentions without its parts. -/
def mention? : TypeRef → Option Mention
  | .synthesized name => some (.made name.canonical)
  | .named name => some (.named name.canonical)
  | .generic definition _ => some (.definition definition.canonical)
  | .primitive _ | .string | .object | .array _ => none

def Mention.name : Mention → String
  | made name | named name | definition name => name

theorem isPartOf_array {part element : TypeRef} :
    part.IsPartOf (.array element) ↔ part = .array element ∨ part.IsPartOf element := by
  constructor
  · intro isPart
    cases isPart with
    | self => exact .inl rfl
    | element isPart => exact .inr isPart
  · rintro (rfl | isPart)
    · exact .self _
    · exact .element isPart

theorem isPartOf_generic {part : TypeRef} {definition : TypeName} {args : List TypeRef} :
    part.IsPartOf (.generic definition args) ↔
      part = .generic definition args ∨ ∃ argument ∈ args, part.IsPartOf argument := by
  constructor
  · intro isPart
    cases isPart with
    | self => exact .inl rfl
    | argument isIn isPart => exact .inr ⟨_, isIn, isPart⟩
  · rintro (rfl | ⟨argument, isIn, isPart⟩)
    · exact .self _
    · exact .argument isIn isPart

mutual
/-- The mentions of a type are those of its parts. -/
theorem mem_mentionsOf {m : Mention} : (type : TypeRef) →
    (m ∈ mentionsOf type ↔ ∃ part, TypeRef.IsPartOf part type ∧ mention? part = some m)
  | .primitive p => by
    refine iff_of_false List.not_mem_nil ?_
    rintro ⟨_, ⟨⟩, none⟩
    cases none
  | .string => by
    refine iff_of_false List.not_mem_nil ?_
    rintro ⟨_, ⟨⟩, none⟩
    cases none
  | .object => by
    refine iff_of_false List.not_mem_nil ?_
    rintro ⟨_, ⟨⟩, none⟩
    cases none
  | .named name => by
    refine List.mem_singleton.trans ⟨fun same => ⟨_, .self _, same ▸ rfl⟩, ?_⟩
    rintro ⟨_, ⟨⟩, same⟩
    exact (Option.some.inj same).symm
  | .synthesized name => by
    refine List.mem_singleton.trans ⟨fun same => ⟨_, .self _, same ▸ rfl⟩, ?_⟩
    rintro ⟨_, ⟨⟩, same⟩
    exact (Option.some.inj same).symm
  | .array element => by
    refine (mem_mentionsOf element).trans ⟨?_, ?_⟩
    · rintro ⟨part, isPart, mentions⟩
      exact ⟨part, .element isPart, mentions⟩
    · rintro ⟨part, isPart, mentions⟩
      rcases isPartOf_array.1 isPart with rfl | isPart
      · cases mentions
      · exact ⟨part, isPart, mentions⟩
  | .generic definition args => by
    refine List.mem_cons.trans ⟨?_, ?_⟩
    · rintro (rfl | isIn)
      · exact ⟨_, .self _, rfl⟩
      · obtain ⟨argument, isArgument, part, isPart, mentions⟩ := (mem_mentionsOfAll args).1 isIn
        exact ⟨part, .argument isArgument isPart, mentions⟩
    · rintro ⟨part, isPart, mentions⟩
      rcases isPartOf_generic.1 isPart with rfl | ⟨argument, isArgument, isPart⟩
      · exact .inl (Option.some.inj mentions).symm
      · exact .inr ((mem_mentionsOfAll args).2 ⟨argument, isArgument, part, isPart, mentions⟩)

theorem mem_mentionsOfAll {m : Mention} : (args : List TypeRef) → (m ∈ mentionsOfAll args ↔
    ∃ type ∈ args, ∃ part, TypeRef.IsPartOf part type ∧ mention? part = some m)
  | [] => by
    refine iff_of_false List.not_mem_nil ?_
    rintro ⟨_, isIn, -⟩
    cases isIn
  | type :: rest => by
    refine List.mem_append.trans ?_
    rw [mem_mentionsOf type, mem_mentionsOfAll rest, List.exists_mem_cons_iff]
end

mutual
/-- The names in a signature are those mentioned by the type, in order. -/
theorem names_signature : (type : TypeRef) →
    type.signature.names = (mentionsOf type).map Mention.name
  | .primitive _ | .string | .object | .named _ | .synthesized _ => rfl
  | .array element => names_signature element
  | .generic definition args => congrArg (definition.canonical :: ·) (names_signaturesOfAll args)

theorem names_signaturesOfAll : (args : List TypeRef) →
    Signature.namesOfAll (TypeRef.signaturesOfAll args) = (mentionsOfAll args).map Mention.name
  | [] => rfl
  | type :: rest => by
    show type.signature.names ++ Signature.namesOfAll (TypeRef.signaturesOfAll rest) =
      (mentionsOf type ++ mentionsOfAll rest).map Mention.name
    rw [names_signature type, names_signaturesOfAll rest, List.map_append]
end

theorem isProvided_iff {part : TypeRef} {m : Mention} (mentions : mention? part = some m) :
    m.isProvided runtime (types.map (·.canonical)) = true ↔ IsKnown runtime types part := by
  cases part <;> cases mentions <;> simp [Mention.isProvided, IsKnown]

theorem isKnown_of_silent {part : TypeRef} (silent : mention? part = none) :
    IsKnown runtime types part := by
  cases part with
  | primitive | string | object | array => exact trivial
  | named | synthesized | generic => cases silent

/-- The search for a mention that nothing provides ends without one exactly in a closed world. -/
theorem isClosed_iff : isClosed runtime types = true ↔ ClosedWorld runtime types := by
  unfold isClosed mentionsOfTypes
  rw [List.all_eq_true]
  constructor
  · intro provided
    refine ⟨fun t isIn name isListed => ?_, fun t isIn type isMember part isPart => ?_⟩
    · have isMention : Mention.made name.canonical ∈ mentionsOfType t :=
        List.mem_append_left _ (List.mem_map_of_mem isListed)
      have known := provided _ (List.mem_flatMap.2 ⟨t, isIn, isMention⟩)
      exact List.contains_iff_mem.1 known
    · cases mentions : mention? part with
      | none => exact isKnown_of_silent mentions
      | some m =>
        have isMention := (mem_mentionsOf type).2 ⟨part, isPart, mentions⟩
        refine (isProvided_iff mentions).1 (provided m (List.mem_flatMap.2 ⟨t, isIn, ?_⟩))
        exact List.mem_append_right _ (List.mem_flatMap.2 ⟨type, isMember, isMention⟩)
  · intro closed m mentioned
    obtain ⟨t, isIn, isMention⟩ := List.mem_flatMap.1 mentioned
    rcases List.mem_append.1 isMention with isInterface | isMember
    · obtain ⟨name, isListed, rfl⟩ := List.mem_map.1 isInterface
      exact List.contains_iff_mem.2 (closed.interfaces t isIn name isListed)
    · obtain ⟨type, isMember, isMention⟩ := List.mem_flatMap.1 isMember
      obtain ⟨part, isPart, mentions⟩ := (mem_mentionsOf type).1 isMention
      exact (isProvided_iff mentions).2 (closed.members t isIn type isMember part isPart)

/-! ### The names of the base runtime -/

theorem pairwise_runtimeRefs (runtime : RuntimeNames) (types : List SynthesizedType) :
    (runtimeRefs runtime types).Pairwise (· < ·) :=
  FirstOccurrence.pairwise_lt_of_sorted (List.pairwise_mergeSort' (· ≤ ·) _)

theorem mem_ascending {names : List String} {name : String} :
    name ∈ ascending names ↔ name ∈ names :=
  List.mem_eraseDups.trans (List.mergeSort_perm _ _).mem_iff

/-- In a closed world no mention ends the search, so all names of the base runtime are recorded. -/
theorem mem_runtimeRefs_of_mentions (closed : isClosed runtime types = true) {name : String} :
    name ∈ runtimeRefs runtime types ↔ ∃ m ∈ mentionsOfTypes types,
      m.runtimeName? (types.map (·.canonical)) = some name := by
  unfold runtimeRefs
  rw [mem_ascending, List.takeWhile_eq_self_iff.2 (List.all_eq_true.1 closed), List.mem_filterMap]

theorem runtimeName?_eq_some {part : TypeRef} {m : Mention} {name : String}
    (mentions : mention? part = some m) : m.runtimeName? (types.map (·.canonical)) = some name ↔
      (∃ definition args, part = .generic definition args ∧ definition.canonical = name) ∨
        ∃ source, part = .named source ∧ source.canonical = name ∧
          name ∉ types.map (·.canonical) := by
  cases part <;> cases mentions
  case named source =>
    simp only [Mention.runtimeName?, List.contains_iff_mem]
    by_cases isLowered : source.canonical ∈ types.map (·.canonical)
    · rw [if_pos isLowered]
      refine iff_of_false nofun ?_
      rintro (⟨_, _, same, -⟩ | ⟨_, same, rfl, isForeign⟩)
      · cases same
      · cases same
        exact isForeign isLowered
    · rw [if_neg isLowered, Option.some_inj]
      constructor
      · rintro rfl
        exact .inr ⟨source, rfl, rfl, isLowered⟩
      · rintro (⟨_, _, same, -⟩ | ⟨_, same, rfl, -⟩)
        · cases same
        · cases same
          rfl
  case generic definition args =>
    refine Option.some_inj.trans ⟨?_, ?_⟩
    · rintro rfl
      exact .inl ⟨definition, args, rfl, rfl⟩
    · rintro (⟨_, _, same, rfl⟩ | ⟨_, same, -⟩)
      · cases same
        rfl
      · cases same
  case synthesized name =>
    refine iff_of_false nofun ?_
    rintro (⟨_, _, same, -⟩ | ⟨_, same, -⟩) <;> cases same

theorem mem_runtimeRefs (closed : ClosedWorld runtime types) {name : String} :
    name ∈ runtimeRefs runtime types ↔ ReliesOn types name := by
  rw [mem_runtimeRefs_of_mentions (isClosed_iff.2 closed)]
  constructor
  · rintro ⟨m, isIn, isRuntime⟩
    obtain ⟨t, isIn, isMention⟩ := List.mem_flatMap.1 isIn
    rcases List.mem_append.1 isMention with isInterface | isMember
    · obtain ⟨_, -, rfl⟩ := List.mem_map.1 isInterface
      cases isRuntime
    · obtain ⟨type, isMember, isMention⟩ := List.mem_flatMap.1 isMember
      obtain ⟨part, isPart, mentions⟩ := (mem_mentionsOf type).1 isMention
      exact ⟨t, isIn, type, isMember, part, isPart, (runtimeName?_eq_some mentions).1 isRuntime⟩
  · rintro ⟨t, isIn, type, isMember, part, isPart, relies⟩
    have mentions : ∃ m, mention? part = some m := by
      rcases relies with ⟨_, _, rfl, -⟩ | ⟨_, rfl, -⟩ <;> exact ⟨_, rfl⟩
    obtain ⟨m, mentions⟩ := mentions
    have isMention := (mem_mentionsOf type).2 ⟨part, isPart, mentions⟩
    refine ⟨m, List.mem_flatMap.2 ⟨t, isIn, ?_⟩, (runtimeName?_eq_some mentions).2 relies⟩
    exact List.mem_append_right _ (List.mem_flatMap.2 ⟨type, isMember, isMention⟩)

/-! ### The check for foreign names -/

theorem names_of_lowerMethod {t : SynthesizedType} {spec : MethodSpec} {method : Method}
    (lowered : lowerMethod table t spec = .ok method) :
    (method.params.map (·.type) ++ [method.returns]).flatMap Signature.names =
      (spec.params.map (·.type) ++ spec.returns.toList).flatMap fun type =>
        (mentionsOf type).map Mention.name := by
  unfold lowerMethod at lowered
  cases kept : bodyOf? spec with
  | none =>
    rw [kept] at lowered
    cases lowered
  | some body =>
    rw [kept] at lowered
    cases lowered
    rw [List.flatMap_append, List.flatMap_append]
    refine congrArg₂ (· ++ ·) ?params ?returns
    case params => simp [List.flatMap_map, names_signature]
    case returns =>
      cases spec.returns with
      | none => rfl
      | some type => simp [names_signature]

theorem names_of_lowerMethods {t : SynthesizedType} {specs : List MethodSpec}
    {methods : List Method}
    (pairs : List.Forall₂ (fun spec method => lowerMethod table t spec = .ok method) specs methods) :
    (methods.flatMap fun m => m.params.map (·.type) ++ [m.returns]).flatMap Signature.names =
      (specs.flatMap fun m => m.params.map (·.type) ++ m.returns.toList).flatMap fun type =>
        (mentionsOf type).map Mention.name := by
  induction pairs with
  | nil => rfl
  | cons first _ others =>
    rw [List.flatMap_cons, List.flatMap_cons, List.flatMap_append, others,
      names_of_lowerMethod first, ← List.flatMap_append]

/-- A definition refers to what its type mentions in members; the base of a class is the root. -/
theorem referredNames_of_lowerType {t : SynthesizedType} {d : TypeDefinition}
    (lowered : lowerType table t = .ok d) :
    d.referredNames = (t.memberTypes.flatMap mentionsOf).map Mention.name := by
  obtain ⟨methods, pairs, rfl⟩ := of_lowerType lowered
  have ofMethods := names_of_lowerMethods pairs
  have base : (definitionOf t methods).base.toList.filter (· != rootObject) = [] := by
    unfold definitionOf
    split <;> rfl
  have members : (definitionOf t methods).signatures.flatMap Signature.names =
      t.memberTypes.flatMap fun type => (mentionsOf type).map Mention.name := by
    simp only [TypeDefinition.signatures, SynthesizedType.memberTypes, definitionOf,
      List.flatMap_append, ofMethods]
    simp [List.flatMap_map, lowerField, lowerProperty, names_signature]
  unfold TypeDefinition.referredNames
  rw [members, base, List.append_nil, List.map_flatMap]

theorem isSome_findType? {a : Artifact} {name : String} :
    (a.findType? name).isSome = true ↔ name ∈ a.types.map (·.name) := by
  unfold Artifact.findType?
  rw [List.find?_isSome, List.mem_map]
  simp only [beq_iff_eq]

/-- In a closed world every name that a definition refers to is resolved. -/
theorem checkStandalone_of_closed (closed : isClosed runtime types = true)
    (lowered : lowerTypes table [] types = .ok definitions) {d : TypeDefinition}
    (isIn : d ∈ definitions) :
    (assembled runtime metadata types definitions).checkStandalone d = .ok () := by
  rw [Artifact.checkStandalone_eq_ok_iff]
  intro name isReferred
  obtain ⟨t, isType, isLowered⟩ := exists_left_of_forall₂ (forall₂_of_lowerTypes lowered) isIn
  rw [referredNames_of_lowerType isLowered] at isReferred
  obtain ⟨m, isMember, rfl⟩ := List.mem_map.1 isReferred
  have isMention : m ∈ mentionsOfTypes types :=
    List.mem_flatMap.2 ⟨t, isType, List.mem_append_right _ isMember⟩
  have provided := List.all_eq_true.1 closed m isMention
  unfold Artifact.resolves
  rw [Bool.or_eq_true, isSome_findType?, List.contains_iff_mem]
  show m.name ∈ definitions.map (·.name) ∨ m.name ∈ runtimeRefs runtime types
  rw [names_of_lowerTypes lowered, mem_runtimeRefs_of_mentions closed]
  by_cases isDefined : m.name ∈ types.map (·.canonical)
  · exact .inl isDefined
  · refine .inr ⟨m, isMention, ?_⟩
    cases m with
    | made name => exact absurd (List.contains_iff_mem.1 provided) isDefined
    | named name => exact if_neg (mt List.contains_iff_mem.1 isDefined)
    | definition name => rfl

/-! ### Standalone and lenient artifacts -/

theorem flags_assembled (runtime : RuntimeNames) (metadata : Metadata) (types : List SynthesizedType)
    (definitions : List TypeDefinition) :
    (assembled runtime metadata types definitions).flags =
      if isClosed runtime types then ArtifactFlag.standalone else ArtifactFlag.lenient := rfl

theorem isClosed_of_flags (isStandalone : hasFlag (assembled runtime metadata types definitions).flags
    ArtifactFlag.standalone = true) : isClosed runtime types = true := by
  rw [flags_assembled] at isStandalone
  by_contra isOpen
  rw [if_neg isOpen] at isStandalone
  revert isStandalone
  decide

/-- Lowering is never refused for a foreign name. -/
theorem lower_ne_foreignReference (runtime : RuntimeNames) (metadata : Metadata)
    (types : List SynthesizedType) (owner name : String) :
    lower runtime metadata types ≠ .error (.lowering (.unsound (.foreignReference owner name))) := by
  intro failed
  rcases of_lower_error failed with ⟨fault, notLowered, same⟩ | ⟨definitions, cause, lowered, refused, same⟩
  · cases same
    rcases of_lowerTypes_error notLowered with ⟨t, -, same, -⟩ | ⟨t, -, spec, -, -, same⟩ <;>
      cases same
  · cases same
    have distinct : (definitions.map (·.name)).Nodup :=
      names_of_lowerTypes lowered ▸ (nodup_of_lowerTypes lowered).1
    obtain ⟨isStandalone, d, isIn, foreign⟩ :=
      Artifact.of_verify_foreignReference rfl distinct refused
    exact foreign (checkStandalone_of_closed (isClosed_of_flags isStandalone) lowered isIn)

/-- The artifact of types is standalone exactly if they make a closed world, and lenient otherwise. A
standalone artifact records, in ascending order, exactly the names of the base runtime that its types
rely on, and every definition passes the check for foreign names; types are never refused for one. -/
theorem standalone_closedWorld (runtime : RuntimeNames) (metadata : Metadata)
    (types : List SynthesizedType) :
    (∀ artifact, lower runtime metadata types = .ok artifact →
      (artifact.flags = ArtifactFlag.standalone ↔ ClosedWorld runtime types) ∧
      (artifact.flags = ArtifactFlag.lenient ↔ ¬ ClosedWorld runtime types) ∧
      (artifact.flags = ArtifactFlag.standalone →
        artifact.runtimeRefs.Pairwise (· < ·) ∧
        (∀ name, name ∈ artifact.runtimeRefs ↔ ReliesOn types name) ∧
        ∀ d ∈ artifact.types, artifact.checkStandalone d = .ok ())) ∧
    ∀ owner name, lower runtime metadata types ≠
      .error (.lowering (.unsound (.foreignReference owner name))) := by
  refine ⟨fun artifact lowered => ?_, lower_ne_foreignReference runtime metadata types⟩
  obtain ⟨definitions, defined, rfl, -⟩ := of_lower lowered
  rw [flags_assembled, ← isClosed_iff]
  by_cases closed : isClosed runtime types = true
  · rw [if_pos closed]
    refine ⟨iff_of_true rfl closed, iff_of_false (by decide) (not_not_intro closed), fun _ => ?_⟩
    exact ⟨pairwise_runtimeRefs runtime types,
      fun name => mem_runtimeRefs (isClosed_iff.1 closed),
      fun d isIn => checkStandalone_of_closed closed defined isIn⟩
  · rw [if_neg closed]
    exact ⟨iff_of_false (by decide) closed, iff_of_true rfl closed, fun same => absurd same (by decide)⟩

/-- An entry with links, which are a list of arrays of addresses. -/
def linkedEntry : SynthesizedType where
  name := ⟨"Feed", "IEntry"⟩
  kind := .interface
  source := ⟨"Feed", "Entry"⟩
  properties := [⟨"Links", .generic ⟨"Base", "List"⟩ [.array (.named ⟨"Base", "Uri"⟩)], none, none⟩]

/-- A base runtime with addresses and lists. -/
def linkingRuntime : RuntimeNames := ⟨["Base.Uri"], ["Base.List"]⟩

theorem standalone_closedWorld_linkedEntry :
    ∃ artifact, lower linkingRuntime {} [linkedEntry] = .ok artifact ∧
      artifact.flags = ArtifactFlag.standalone ∧ artifact.runtimeRefs.Pairwise (· < ·) ∧
      "Base.List" ∈ artifact.runtimeRefs ∧ "Base.Uri" ∈ artifact.runtimeRefs ∧
      ∀ d ∈ artifact.types, artifact.checkStandalone d = .ok () := by
  have refs : runtimeRefs linkingRuntime [linkedEntry] = ["Base.List", "Base.Uri"] := by
    have found : ((mentionsOfTypes [linkedEntry]).takeWhile (Mention.isProvided linkingRuntime
        ["Feed.IEntry"])).filterMap (Mention.runtimeName? ["Feed.IEntry"]) =
          ["Base.List", "Base.Uri"] := by
      decide +kernel
    show ascending (((mentionsOfTypes [linkedEntry]).takeWhile (Mention.isProvided linkingRuntime
      ["Feed.IEntry"])).filterMap (Mention.runtimeName? ["Feed.IEntry"])) = _
    rw [found]
    unfold ascending
    rw [List.mergeSort_of_pairwise (by decide +kernel)]
    decide +kernel
  have lowered : lower linkingRuntime {} [linkedEntry] =
      .ok (assembled linkingRuntime {} [linkedEntry] [definitionOf linkedEntry []]) := by
    refine lower_of_verify rfl ?_
    unfold assembled
    rw [refs]
    decide +kernel
  have closed : ClosedWorld linkingRuntime [linkedEntry] := isClosed_iff.1 (by decide +kernel)
  have links : TypeRef.generic ⟨"Base", "List"⟩ [.array (.named ⟨"Base", "Uri"⟩)] ∈
      linkedEntry.memberTypes := List.mem_cons_self
  obtain ⟨isStandalone, -, described⟩ :=
    (standalone_closedWorld linkingRuntime {} [linkedEntry]).1 _ lowered
  obtain ⟨ascends, records, checked⟩ := described (isStandalone.2 closed)
  refine ⟨_, lowered, isStandalone.2 closed, ascends, (records _).2 ?list, (records _).2 ?uri,
    checked⟩
  case list => exact ⟨_, List.mem_cons_self, _, links, _, .self _, .inl ⟨_, _, rfl, rfl⟩⟩
  case uri =>
    refine ⟨_, List.mem_cons_self, _, links, .named ⟨"Base", "Uri"⟩,
      .argument List.mem_cons_self (.element (.self _)), .inr ⟨_, rfl, ?_, ?_⟩⟩ <;> decide +kernel

end Lowering

end FluentWrappers
