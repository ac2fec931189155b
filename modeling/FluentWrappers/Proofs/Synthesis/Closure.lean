import FluentWrappers.Synthesis.Session
import Mathlib.Data.List.Nodup

/-!
# Closures of sessions

The names that are reached from roots are closed under the dependencies of the types that they name,
and whatever holds of the roots and passes on to dependencies holds of all of them.
-/

namespace FluentWrappers.Synthesis

/-- The type of the name that counts: of two the later. -/
def latest? (types : List SynthesizedType) (name : TypeName) : Option SynthesizedType :=
  types.reverse.find? (·.name == name)

variable {types : List SynthesizedType} {pending reached : List TypeName} {name : TypeName}
  {t : SynthesizedType}

theorem mem_of_latest? (found : latest? types name = some t) : t ∈ types ∧ t.name = name :=
  ⟨List.mem_reverse.1 (List.mem_of_find?_eq_some found), by simpa using List.find?_some found⟩

theorem exists_latest? (isIn : t ∈ types) : ∃ u, latest? types t.name = some u := by
  cases found : latest? types t.name with
  | none =>
    have missing := List.find?_eq_none.1 found t (List.mem_reverse.2 isIn)
    simp at missing
  | some u => exact ⟨u, rfl⟩

theorem reachFrom_cons (rest : List TypeName) : reachFrom types (name :: rest) reached =
    match latest? types name with
    | none => reachFrom types rest reached
    | some t =>
      if reached.contains name then reachFrom types rest reached
      else reachFrom types (t.dependencies ++ rest) (name :: reached) := by
  rw [reachFrom]
  unfold latest?
  split <;> rename_i found <;> rw [found]
  exact dite_eq_ite

/-- The names that are reached in at most so many steps, if no more are needed. -/
def reachWithin? (types : List SynthesizedType) :
    Nat → List TypeName → List TypeName → Option (List TypeName)
  | _, [], reached => some reached
  | 0, _ :: _, _ => none
  | fuel + 1, name :: rest, reached =>
    match latest? types name with
    | none => reachWithin? types fuel rest reached
    | some t =>
      if reached.contains name then reachWithin? types fuel rest reached
      else reachWithin? types fuel (t.dependencies ++ rest) (name :: reached)

theorem reachFrom_of_reachWithin? {fuel : Nat} {all : List TypeName}
    (within : reachWithin? types fuel pending reached = some all) :
    reachFrom types pending reached = all := by
  fun_induction reachWithin? types fuel pending reached with
  | case1 fuel reached =>
    rw [reachFrom]
    exact Option.some.inj within
  | case2 => cases within
  | case3 reached fuel name rest missing ih => rw [reachFrom_cons, missing, ih within]
  | case4 reached fuel name rest t found old ih =>
    rw [reachFrom_cons, found]
    exact (if_pos old).trans (ih within)
  | case5 reached fuel name rest t found fresh ih =>
    rw [reachFrom_cons, found]
    exact (if_neg fresh).trans (ih within)

/-- What holds of the roots and passes on to dependencies holds of every name that is reached. -/
theorem forall_mem_reachFrom {good : TypeName → Prop}
    (step : ∀ name t, good name → latest? types name = some t → ∀ other ∈ t.dependencies, good other)
    (roots : ∀ name ∈ pending, good name) (before : ∀ name ∈ reached, good name) :
    ∀ name ∈ reachFrom types pending reached, good name := by
  fun_induction reachFrom types pending reached with
  | case1 reached => exact before
  | case2 reached name rest missing ih => exact ih (List.forall_mem_cons.1 roots).2 before
  | case3 reached name rest t found old ih => exact ih (List.forall_mem_cons.1 roots).2 before
  | case4 reached name rest t found fresh ih =>
    obtain ⟨first, rest⟩ := List.forall_mem_cons.1 roots
    refine ih (fun other isIn => ?_) (List.forall_mem_cons.2 ⟨first, before⟩)
    exact (List.mem_append.1 isIn).elim (step name t first found other) (rest other)

/-- What is reached and pending is closed as far as what is reached already has been followed. -/
structure Follows (types : List SynthesizedType) (pending reached all : List TypeName) : Prop where
  reached : reached ⊆ all
  pending : ∀ name ∈ pending, ∀ t, latest? types name = some t → name ∈ all
  closed : ∀ name ∈ all, ∀ t, latest? types name = some t → ∀ other ∈ t.dependencies,
    ∀ u, latest? types other = some u → other ∈ all

/-- All dependencies of what is reached already have been reached or are pending. -/
theorem follows_reachFrom
    (followed : ∀ name ∈ reached, ∀ t, latest? types name = some t → ∀ other ∈ t.dependencies,
      ∀ u, latest? types other = some u → other ∈ reached ∨ other ∈ pending) :
    Follows types pending reached (reachFrom types pending reached) := by
  -- a name stops to be pending for one of three reasons: no type has it, it was reached before, or
  -- its dependencies are pending in its place
  fun_induction reachFrom types pending reached with
  | case1 reached =>
    refine ⟨List.Subset.refl _, nofun, fun name isIn t found other isDependency u isType => ?_⟩
    exact (followed name isIn t found other isDependency u isType).resolve_right List.not_mem_nil
  | case2 reached name rest missing ih =>
    have others : Follows types rest reached (reachFrom types rest reached) := by
      refine ih fun name' isIn t found other isDependency u isType => ?_
      refine (followed name' isIn t found other isDependency u isType).imp_right fun isPending => ?_
      refine (List.mem_cons.1 isPending).resolve_left ?_
      rintro rfl
      cases missing.symm.trans isType
    refine ⟨others.reached, List.forall_mem_cons.2 ⟨fun t found => ?_, others.pending⟩, others.closed⟩
    cases missing.symm.trans found
  | case3 reached name rest t found old ih =>
    have isReached : name ∈ reached := List.contains_iff_mem.1 old
    have others : Follows types rest reached (reachFrom types rest reached) := by
      refine ih fun name' isIn t found other isDependency u isType => ?_
      rcases followed name' isIn t found other isDependency u isType with isIn | isPending
      · exact Or.inl isIn
      · rcases List.mem_cons.1 isPending with rfl | isPending
        · exact Or.inl isReached
        · exact Or.inr isPending
    exact ⟨others.reached,
      List.forall_mem_cons.2 ⟨fun _ _ => others.reached isReached, others.pending⟩, others.closed⟩
  | case4 reached name rest t found fresh ih =>
    have whole : Follows types (t.dependencies ++ rest) (name :: reached)
        (reachFrom types (t.dependencies ++ rest) (name :: reached)) := by
      refine ih fun name' isIn t' found' other isDependency u isType => ?_
      rcases List.mem_cons.1 isIn with rfl | isIn
      · obtain rfl := Option.some.inj (found.symm.trans found')
        exact Or.inr (List.mem_append_left _ isDependency)
      · rcases followed name' isIn t' found' other isDependency u isType with isIn | isPending
        · exact Or.inl (List.mem_cons_of_mem _ isIn)
        · rcases List.mem_cons.1 isPending with rfl | isPending
          · exact Or.inl List.mem_cons_self
          · exact Or.inr (List.mem_append_right _ isPending)
    refine ⟨fun other isIn => whole.reached (List.mem_cons_of_mem _ isIn),
      List.forall_mem_cons.2 ⟨fun _ _ => whole.reached List.mem_cons_self, ?_⟩, whole.closed⟩
    exact fun other isIn => whole.pending other (List.mem_append_right _ isIn)

theorem nodup_names (distinct : (types.map (·.canonical)).Nodup) : (types.map (·.name)).Nodup := by
  refine List.Nodup.of_map TypeName.canonical ?_
  rw [List.map_map]
  exact distinct

/-! ### Closures -/

namespace Session

variable {s : Session} {roots : List TypeName}

theorem mem_closure : t ∈ s.closure roots ↔ t ∈ s.types ∧ t.name ∈ reachFrom s.types roots [] := by
  unfold closure
  rw [List.mem_filter, List.contains_iff_mem]

theorem closure_of_reachWithin? {fuel : Nat} {all : List TypeName}
    (within : reachWithin? s.types fuel roots [] = some all) :
    s.closure roots = s.types.filter fun t => all.contains t.name := by
  unfold closure
  rw [reachFrom_of_reachWithin? within]

/-- A closure whose types have names of their own holds all dependencies that the session has. -/
theorem mem_closure_of_dependency (distinct : ((s.closure roots).map (·.name)).Nodup)
    {u : SynthesizedType} (isIn : t ∈ s.closure roots) (isDependency : name ∈ t.dependencies)
    (isType : u ∈ s.types) (isNamed : u.name = name) : u ∈ s.closure roots := by
  have follows : Follows s.types roots [] (reachFrom s.types roots []) :=
    follows_reachFrom fun _ isIn => absurd isIn List.not_mem_nil
  obtain ⟨isListed, isReached⟩ := mem_closure.1 isIn
  obtain ⟨t', found⟩ := exists_latest? isListed
  obtain ⟨isListed', sameName⟩ := mem_of_latest? found
  -- the type that counts for the name is in the closure too, and so it is the same
  have isIn' : t' ∈ s.closure roots := mem_closure.2 ⟨isListed', sameName ▸ isReached⟩
  obtain rfl := List.inj_on_of_nodup_map distinct isIn' isIn sameName
  obtain ⟨u', found'⟩ := exists_latest? isType
  rw [isNamed] at found'
  have reached := follows.closed t'.name isReached t' found name isDependency u' found'
  exact mem_closure.2 ⟨isType, isNamed ▸ reached⟩

theorem mem_closure_of_root (isRoot : t.name ∈ roots) (isType : t ∈ s.types) :
    t ∈ s.closure roots := by
  have follows : Follows s.types roots [] (reachFrom s.types roots []) :=
    follows_reachFrom fun _ isIn => absurd isIn List.not_mem_nil
  obtain ⟨t', found⟩ := exists_latest? isType
  exact mem_closure.2 ⟨isType, follows.pending t.name isRoot t' found⟩

end Session

end FluentWrappers.Synthesis
