import FluentWrappers.Proofs.FirstOccurrence
import FluentWrappers.Proofs.Synthesis.Closure
import Mathlib.Data.List.Flatten
import Mathlib.Logic.Relation

/-!
# Reachability in sessions

The work list behind a closure has names that are pending and names that are reached. In one turn some
pending name is taken, whichever it is; the first time that a type is reached, all its dependencies
become pending. Every turn leaves less to do, and when nothing is pending the types that are reached
are those that a root depends on, however many steps away.
-/

namespace FluentWrappers.Synthesis

/-- The second of two types is completed and a dependency of the first. -/
def DependsOn (types : List SynthesizedType) (t u : SynthesizedType) : Prop :=
  u ∈ types ∧ u.name ∈ t.dependencies

/-- The type is a completed root or a root depends on it. -/
def ReachedFrom (types : List SynthesizedType) (roots : List TypeName) (t : SynthesizedType) : Prop :=
  ∃ r ∈ types, r.name ∈ roots ∧ Relation.ReflTransGen (DependsOn types) r t

structure WorkList where
  pending : List TypeName
  reached : List TypeName

/-- One turn of the work list: a pending name that no type has and one that was reached before are
dropped, and any other is reached and followed. -/
inductive WorkList.Turn (types : List SynthesizedType) : WorkList → WorkList → Prop
  | missing (before : List TypeName) {after reached : List TypeName} {name : TypeName}
      (missing : latest? types name = none) :
      Turn types ⟨before ++ name :: after, reached⟩ ⟨before ++ after, reached⟩
  | old (before : List TypeName) {after reached : List TypeName} {name : TypeName} {t : SynthesizedType}
      (found : latest? types name = some t) (old : name ∈ reached) :
      Turn types ⟨before ++ name :: after, reached⟩ ⟨before ++ after, reached⟩
  | fresh (before : List TypeName) {after reached more : List TypeName} {name : TypeName}
      {t : SynthesizedType}
      (found : latest? types name = some t) (fresh : name ∉ reached)
      (followed : more.Perm (t.dependencies ++ (before ++ after))) :
      Turn types ⟨before ++ name :: after, reached⟩ ⟨more, name :: reached⟩

/-- So many turns one after the other. -/
inductive WorkList.Turns (types : List SynthesizedType) : Nat → WorkList → WorkList → Prop
  | none {w : WorkList} : Turns types 0 w w
  | next {n : Nat} {w w' w'' : WorkList} (turn : Turn types w w') (rest : Turns types n w' w'') :
      Turns types (n + 1) w w''

variable {types : List SynthesizedType} {roots pending reached : List TypeName} {t u : SynthesizedType}
  {w w' : WorkList} {n : Nat}

/-! ### Every turn leaves less to do -/

/-- The number of dependencies of all types that are not yet reached. -/
def unfollowed (types : List SynthesizedType) (reached : List TypeName) : Nat :=
  ((types.filter fun t => !reached.contains t.name).flatMap (·.dependencies)).length

def WorkList.left (types : List SynthesizedType) (w : WorkList) : Nat :=
  w.pending.length + unfollowed types w.reached

theorem unfollowed_append (before after : List SynthesizedType) (reached : List TypeName) :
    unfollowed (before ++ after) reached = unfollowed before reached + unfollowed after reached := by
  simp only [unfollowed, List.filter_append, List.flatMap_append, List.length_append]

theorem unfollowed_cons_le (types : List SynthesizedType) (reached : List TypeName)
    (name : TypeName) : unfollowed types (name :: reached) ≤ unfollowed types reached := by
  have fewer : (types.filter fun t => !(name :: reached).contains t.name).Sublist
      (types.filter fun t => !reached.contains t.name) := by
    refine List.monotone_filter_right types fun t isNew => ?_
    rw [List.contains_cons, Bool.not_or, Bool.and_eq_true] at isNew
    exact isNew.2
  exact (fewer.flatMap _).length_le

/-- The dependencies of a type that is reached now are no longer to be followed. -/
theorem unfollowed_of_fresh (isIn : t ∈ types) (fresh : t.name ∉ reached) :
    unfollowed types (t.name :: reached) + t.dependencies.length ≤ unfollowed types reached := by
  obtain ⟨before, after, rfl⟩ := List.append_of_mem isIn
  have earlier := unfollowed_cons_le before reached t.name
  have later := unfollowed_cons_le after reached t.name
  have isNew : unfollowed (t :: after) reached = t.dependencies.length + unfollowed after reached := by
    simp [unfollowed, fresh]
  have followed : unfollowed (t :: after) (t.name :: reached) =
      unfollowed after (t.name :: reached) := by
    simp [unfollowed]
  rw [unfollowed_append, unfollowed_append, isNew, followed]
  omega

theorem left_of_turn (turn : WorkList.Turn types w w') : w'.left types < w.left types := by
  cases turn with
  | missing | old =>
    simp only [WorkList.left, List.length_append, List.length_cons]
    omega
  | @fresh before after reached more name t found fresh followed =>
    obtain ⟨isIn, rfl⟩ := mem_of_latest? found
    have fewer := unfollowed_of_fresh isIn fresh
    simp only [WorkList.left, followed.length_eq, List.length_append, List.length_cons]
    omega

theorem left_of_turns (run : WorkList.Turns types n w w') : n + w'.left types ≤ w.left types := by
  induction run with
  | none => exact (Nat.zero_add _).le
  | next turn rest ih =>
    have less := left_of_turn turn
    omega

theorem exists_turn (some : w.pending ≠ []) : ∃ w', WorkList.Turn types w w' := by
  obtain ⟨pending, reached⟩ := w
  obtain ⟨name, rest, rfl⟩ := List.exists_cons_of_ne_nil some
  cases found : latest? types name with
  | none => exact ⟨_, .missing [] found⟩
  | some t =>
    by_cases old : name ∈ reached
    · exact ⟨_, .old [] found old⟩
    · exact ⟨_, .fresh [] found old (List.Perm.refl _)⟩

/-- The names that a closure reaches are reached by taking the first pending name in every turn. -/
theorem exists_turns_reachFrom (types : List SynthesizedType) (pending reached : List TypeName) :
    ∃ n, WorkList.Turns types n ⟨pending, reached⟩ ⟨[], reachFrom types pending reached⟩ := by
  fun_induction reachFrom types pending reached with
  | case1 reached => exact ⟨0, .none⟩
  | case2 reached name rest missing ih =>
    obtain ⟨n, run⟩ := ih
    exact ⟨n + 1, .next (.missing [] missing) run⟩
  | case3 reached name rest t found old ih =>
    obtain ⟨n, run⟩ := ih
    exact ⟨n + 1, .next (.old [] found (List.contains_iff_mem.1 old)) run⟩
  | case4 reached name rest t found fresh ih =>
    obtain ⟨n, run⟩ := ih
    have isNew : name ∉ reached := mt List.contains_iff_mem.2 fresh
    exact ⟨n + 1, .next (.fresh [] found isNew (List.Perm.refl _)) run⟩

/-! ### What is reached -/

theorem ReachedFrom.mem (h : ReachedFrom types roots t) : t ∈ types := by
  obtain ⟨r, isRoot, -, path⟩ := h
  rcases Relation.ReflTransGen.cases_tail path with rfl | ⟨u, -, isIn, -⟩
  · exact isRoot
  · exact isIn

theorem ReachedFrom.step (h : ReachedFrom types roots t) (isIn : u ∈ types)
    (isDependency : u.name ∈ t.dependencies) : ReachedFrom types roots u := by
  obtain ⟨r, isRoot, named, path⟩ := h
  exact ⟨r, isRoot, named, path.tail ⟨isIn, isDependency⟩⟩

theorem latest?_of_mem (distinct : (types.map (·.name)).Nodup) (isIn : t ∈ types) :
    latest? types t.name = some t := by
  have reversed : (types.reverse.map (·.name)).Nodup := by
    rw [List.map_reverse]
    exact List.nodup_reverse.2 distinct
  exact FirstOccurrence.find?_key reversed (List.mem_reverse.2 isIn)

/-- What is reached and pending comes from the roots, and nothing that does is forgotten. -/
structure Explored (types : List SynthesizedType) (roots : List TypeName) (w : WorkList) : Prop where
  reached : ∀ name ∈ w.reached, ∃ t, ReachedFrom types roots t ∧ t.name = name
  pending : ∀ name ∈ w.pending, name ∈ roots ∨
    ∃ t, ReachedFrom types roots t ∧ name ∈ t.dependencies
  roots : ∀ t ∈ types, t.name ∈ roots → t.name ∈ w.reached ∨ t.name ∈ w.pending
  followed : ∀ t ∈ types, t.name ∈ w.reached → ∀ u ∈ types, u.name ∈ t.dependencies →
    u.name ∈ w.reached ∨ u.name ∈ w.pending

theorem explored_start (types : List SynthesizedType) (roots : List TypeName) :
    Explored types roots ⟨roots, []⟩ where
  reached _ isIn := absurd isIn List.not_mem_nil
  pending _ isIn := Or.inl isIn
  roots _ _ isRoot := Or.inr isRoot
  followed _ _ isIn := absurd isIn List.not_mem_nil

theorem reachedFrom_of_pending (explored : Explored types roots w) (isIn : t ∈ types)
    (isPending : t.name ∈ w.pending) : ReachedFrom types roots t := by
  rcases explored.pending t.name isPending with isRoot | ⟨u, fromRoot, isDependency⟩
  · exact ⟨t, isIn, isRoot, .refl⟩
  · exact fromRoot.step isIn isDependency

/-- A name that is dropped has no type or was reached before, so that nothing is forgotten. -/
theorem Explored.drop {before after : List TypeName} {name : TypeName}
    (explored : Explored types roots ⟨before ++ name :: after, reached⟩)
    (idle : ∀ t ∈ types, t.name = name → name ∈ reached) :
    Explored types roots ⟨before ++ after, reached⟩ := by
  have taken {other : TypeName} : other ∈ before ++ name :: after ↔
      other = name ∨ other ∈ before ++ after := List.perm_middle.mem_iff.trans List.mem_cons
  have kept (u : SynthesizedType) (isIn : u ∈ types)
      (known : u.name ∈ reached ∨ u.name ∈ before ++ name :: after) :
      u.name ∈ reached ∨ u.name ∈ before ++ after := by
    rcases known with isReached | isPending
    · exact Or.inl isReached
    · rcases taken.1 isPending with named | isPending
      · rw [named]
        exact Or.inl (idle u isIn named)
      · exact Or.inr isPending
  exact ⟨explored.reached, fun other isPending => explored.pending other (taken.2 (Or.inr isPending)),
    fun t isIn isRoot => kept t isIn (explored.roots t isIn isRoot),
    fun t isIn isReached u isIn' isDependency =>
      kept u isIn' (explored.followed t isIn isReached u isIn' isDependency)⟩

/-- A name that is followed is replaced by the dependencies of its type. -/
theorem Explored.follow {before after more : List TypeName}
    (explored : Explored types roots ⟨before ++ t.name :: after, reached⟩)
    (distinct : (types.map (·.name)).Nodup) (isIn : t ∈ types)
    (followed : more.Perm (t.dependencies ++ (before ++ after))) :
    Explored types roots ⟨more, t.name :: reached⟩ := by
  have taken {other : TypeName} : other ∈ before ++ t.name :: after ↔
      other = t.name ∨ other ∈ before ++ after := List.perm_middle.mem_iff.trans List.mem_cons
  have isMore {other : TypeName} : other ∈ more ↔ other ∈ t.dependencies ∨ other ∈ before ++ after :=
    followed.mem_iff.trans List.mem_append
  have fromRoot : ReachedFrom types roots t :=
    reachedFrom_of_pending explored isIn (taken.2 (Or.inl rfl))
  have kept (other : TypeName) (known : other ∈ reached ∨ other ∈ before ++ t.name :: after) :
      other ∈ t.name :: reached ∨ other ∈ more := by
    rcases known with isReached | isPending
    · exact Or.inl (List.mem_cons_of_mem _ isReached)
    · rcases taken.1 isPending with rfl | isPending
      · exact Or.inl List.mem_cons_self
      · exact Or.inr (isMore.2 (Or.inr isPending))
  refine ⟨?_, fun other isPending => ?_,
    fun r isIn' isRoot => kept r.name (explored.roots r isIn' isRoot),
    fun a isIn' isReached u isType isDependency => ?_⟩
  · exact List.forall_mem_cons.2 ⟨⟨t, fromRoot, rfl⟩, explored.reached⟩
  · rcases isMore.1 isPending with isDependency | isPending
    · exact Or.inr ⟨t, fromRoot, isDependency⟩
    · exact explored.pending other (taken.2 (Or.inr isPending))
  · rcases List.mem_cons.1 isReached with same | isReached
    · obtain rfl := List.inj_on_of_nodup_map distinct isIn' isIn same
      exact Or.inr (isMore.2 (Or.inl isDependency))
    · exact kept u.name (explored.followed a isIn' isReached u isType isDependency)

theorem explored_of_turn (distinct : (types.map (·.name)).Nodup) (explored : Explored types roots w)
    (turn : WorkList.Turn types w w') : Explored types roots w' := by
  cases turn with
  | @missing _ _ _ name missing =>
    refine explored.drop fun t isIn named => ?_
    have found := latest?_of_mem distinct isIn
    rw [named, missing] at found
    cases found
  | old _ _ old => exact explored.drop fun _ _ _ => old
  | fresh _ found fresh followed =>
    obtain ⟨isIn, rfl⟩ := mem_of_latest? found
    exact explored.follow distinct isIn followed

theorem explored_of_turns (distinct : (types.map (·.name)).Nodup) (explored : Explored types roots w)
    (run : WorkList.Turns types n w w') : Explored types roots w' := by
  induction run with
  | none => exact explored
  | next turn rest ih => exact ih (explored_of_turn distinct explored turn)

/-- When nothing is pending, exactly what comes from the roots has been reached. -/
theorem Explored.mem_reached_iff (explored : Explored types roots ⟨[], reached⟩)
    (distinct : (types.map (·.name)).Nodup) (isIn : t ∈ types) :
    t.name ∈ reached ↔ ReachedFrom types roots t := by
  constructor
  · intro isReached
    obtain ⟨u, fromRoot, same⟩ := explored.reached t.name isReached
    obtain rfl := List.inj_on_of_nodup_map distinct fromRoot.mem isIn same
    exact fromRoot
  · rintro ⟨r, isRoot, named, path⟩
    have first := (explored.roots r isRoot named).resolve_right List.not_mem_nil
    induction path with
    | refl => exact first
    | @tail a u path depends ih =>
      have fromRoot : ReachedFrom types roots a := ⟨r, isRoot, named, path⟩
      exact (explored.followed a fromRoot.mem (ih fromRoot.mem) u depends.1 depends.2).resolve_right
        List.not_mem_nil

/-! ### Closures -/

namespace Session

variable {s : Session}

theorem filter_of_turns (distinct : (s.types.map (·.name)).Nodup)
    (run : WorkList.Turns s.types n ⟨roots, []⟩ ⟨[], reached⟩) :
    (s.types.filter fun t => reached.contains t.name) = s.closure roots := by
  have start := explored_start s.types roots
  obtain ⟨m, run'⟩ := exists_turns_reachFrom s.types roots []
  unfold closure
  refine List.filter_congr fun t isIn => ?_
  rw [Bool.eq_iff_iff, List.contains_iff_mem, List.contains_iff_mem,
    (explored_of_turns distinct start run).mem_reached_iff distinct isIn,
    (explored_of_turns distinct start run').mem_reached_iff distinct isIn]

/-- Whichever pending name is taken in each turn, the work list of a closure comes to its end within
as many turns as there are roots and dependencies, and what it has reached then is the closure: the
completed types that come from a completed root through completed types, each once and in the order
of completion. -/
theorem closure_exact (s : Session) (roots : List TypeName)
    (distinct : (s.types.map (·.name)).Nodup) :
    (∀ n w, WorkList.Turns s.types n ⟨roots, []⟩ w →
        n ≤ roots.length + (s.types.flatMap (·.dependencies)).length ∧
        (w.pending ≠ [] → ∃ w', WorkList.Turn s.types w w') ∧
        (w.pending = [] → (s.types.filter fun t => w.reached.contains t.name) = s.closure roots)) ∧
      (s.closure roots).Sublist s.types ∧ (s.closure roots).Nodup ∧
      ∀ t, t ∈ s.closure roots ↔
        ∃ r ∈ s.types, r.name ∈ roots ∧ Relation.ReflTransGen (DependsOn s.types) r t := by
  have sublist : (s.closure roots).Sublist s.types := List.filter_sublist
  refine ⟨fun n w run => ⟨?_, exists_turn, fun done => ?_⟩, sublist, distinct.of_map.sublist sublist,
    fun t => ?_⟩
  · have bound := left_of_turns run
    have whole : unfollowed s.types [] = (s.types.flatMap (·.dependencies)).length := by
      simp [unfollowed]
    simp only [WorkList.left, whole] at bound
    omega
  · obtain ⟨pending, reached⟩ := w
    subst done
    exact filter_of_turns distinct run
  · obtain ⟨n, run⟩ := exists_turns_reachFrom s.types roots []
    have explored := explored_of_turns distinct (explored_start s.types roots) run
    rw [mem_closure]
    constructor
    · rintro ⟨isIn, isReached⟩
      exact (explored.mem_reached_iff distinct isIn).1 isReached
    · intro fromRoot
      have isIn : t ∈ s.types := ReachedFrom.mem fromRoot
      exact ⟨isIn, (explored.mem_reached_iff distinct isIn).2 fromRoot⟩

/-- Orders and items need each other, and orders need a type that is gone. The seller needs orders,
but no root needs the seller. -/
theorem closure_exact_shop :
    let wrapper (simple : String) (needs : List TypeName) : SynthesizedType :=
      { name := ⟨"Shop", simple⟩, kind := .interface, source := ⟨"", simple⟩, interfaces := needs }
    let order := wrapper "Order" [⟨"Shop", "Item"⟩, ⟨"Shop", "Gone"⟩]
    let item := wrapper "Item" [⟨"Shop", "Order"⟩]
    let seller := wrapper "Seller" [⟨"Shop", "Order"⟩]
    let s : Session := ⟨{ Cache.empty 1 with types := [seller, item, order] }⟩
    let roots : List TypeName := [order.name, ⟨"Shop", "Gone"⟩, order.name]
    (s.types.map (·.name)).Nodup ∧ order ∈ s.closure roots ∧ item ∈ s.closure roots ∧
      seller ∉ s.closure roots ∧ ∀ n w, WorkList.Turns s.types n ⟨roots, []⟩ w → n ≤ 7 := by
  intro wrapper order item seller s roots
  have distinct : (s.types.map (·.name)).Nodup := by decide +kernel
  obtain ⟨run, -, -, isReached⟩ := closure_exact s roots distinct
  have isOrder : order ∈ s.types := by decide +kernel
  have isItem : item ∈ s.types := by decide +kernel
  have needsItem : item.name ∈ order.dependencies := by decide +kernel
  have unneeded : ∀ t ∈ s.types, seller.name ∉ t.dependencies := by decide +kernel
  refine ⟨distinct, (isReached order).2 ⟨order, isOrder, List.mem_cons_self, .refl⟩,
    (isReached item).2 ⟨order, isOrder, List.mem_cons_self, .single ⟨isItem, needsItem⟩⟩,
    fun kept => ?_, fun n w turns => (run n w turns).1⟩
  obtain ⟨r, isIn, named, path⟩ := (isReached seller).1 kept
  rcases Relation.ReflTransGen.cases_tail path with rfl | ⟨t, before, -, needed⟩
  · exact absurd named (by decide +kernel)
  · exact unneeded t (ReachedFrom.mem ⟨r, isIn, named, before⟩) needed

end Session

end FluentWrappers.Synthesis
