import FluentWrappers.Synthesis.Synthesizer

/-!
# Judgements on calls

A judgement on steps of synthesis that carries over from the parts of a step to the whole, and from a
production to the having of its type, holds of every call.
-/

namespace FluentWrappers.Synthesis

/-- The judgement carries over from the parts of a step to the whole. -/
structure Compositional (J : ∀ {α : Type}, Synth α → Prop) : Prop where
  pure : ∀ {α : Type} (a : α), J (pure a : Synth α)
  throw : ∀ {α : Type} (e : SynthesisError), J (throw e : Synth α)
  bind : ∀ {α β : Type} {x : Synth α} {f : α → Synth β}, J x → (∀ a, J (f a)) → J (x >>= f)
  attempt : ∀ {α : Type} {x : Synth α}, J x → J (attempt x)
  inScope : ∀ key, J (inScope key)

/-- The judgement carries over from productions to the having of their types. -/
def Memo.Carries (memo : Memo) (J : ∀ {α : Type}, Synth α → Prop) : Prop :=
  ∀ key produce, J produce → J (memo key produce)

namespace Compositional

variable {J : ∀ {α : Type}, Synth α → Prop} (comp : Compositional J)

include comp

theorem lift {α : Type} (x : Except SynthesisError α) : J (liftM x : Synth α) := by
  cases x with
  | ok a => exact comp.pure a
  | error e => exact comp.throw e

theorem mapM {α β : Type} {f : α → Synth β} (each : ∀ a, J (f a)) (list : List α) :
    J (list.mapM f) := by
  induction list with
  | nil => exact comp.pure []
  | cons a list ih =>
    rw [List.mapM_cons]
    exact comp.bind (each a) fun _ => comp.bind ih fun _ => comp.pure _

/-! ### Members and their types -/

section

variable {s : Synthesizer} {dereference : TypeRef → Synth TypeRef} {named : TypeName → Synth TypeRef}

theorem resolveMember (replaces : ∀ type, J (dereference type)) (source : SourceType) (m : Member) :
    J (s.resolveMember dereference source m) := by
  unfold Synthesizer.resolveMember
  refine comp.bind (comp.attempt (replaces m.type)) ?_
  rintro (e | type)
  · dsimp only
    split
    · exact comp.throw _
    · exact comp.pure _
  · exact comp.pure _

theorem resolveMembers (replaces : ∀ type, J (dereference type)) (source : SourceType) :
    J (s.resolveMembers dereference source) := by
  unfold Synthesizer.resolveMembers
  refine comp.bind (comp.lift _) fun members => ?_
  split
  · exact comp.pure _
  · split
    · exact comp.pure _
    · exact comp.bind (comp.mapM (comp.resolveMember replaces source) members) fun _ => comp.pure _

mutual

theorem replaceType (replaces : ∀ name, J (named name)) (type : TypeRef) :
    J (s.replaceType named type) := by
  cases type with
  | named name =>
    unfold Synthesizer.replaceType
    exact replaces name
  | array element =>
    unfold Synthesizer.replaceType
    exact comp.bind (replaceType replaces element) fun _ => comp.pure _
  | generic definition args =>
    unfold Synthesizer.replaceType
    split
    · exact comp.bind (replaceTypes replaces args) fun _ => comp.pure _
    · exact comp.throw _
  | primitive | string | object | synthesized =>
    unfold Synthesizer.replaceType
    exact comp.pure _

theorem replaceTypes (replaces : ∀ name, J (named name)) (types : List TypeRef) :
    J (s.replaceTypes named types) := by
  cases types with
  | nil =>
    unfold Synthesizer.replaceTypes
    exact comp.pure _
  | cons type rest =>
    unfold Synthesizer.replaceTypes
    refine comp.bind (replaceType replaces type) fun _ => ?_
    exact comp.bind (replaceTypes replaces rest) fun _ => comp.pure _

end

end

/-! ### Types of keys -/

theorem cloneReference (source : SourceType) (clone : Option SynthesizedType) :
    J (Synthesizer.cloneReference source clone) := by
  cases clone with
  | none => exact comp.throw _
  | some clone => exact comp.pure _

section

variable {memo : Memo} (carries : memo.Carries J)

include carries

theorem fluentVia (s : Synthesizer) (proxy interface : SynthesizedType) (options : TypeOptions) :
    J (s.fluentVia memo proxy interface options) := by
  unfold Synthesizer.fluentVia
  refine carries _ _ ?_
  split
  · exact comp.pure _
  · exact comp.bind (comp.lift _) fun _ => comp.pure _

section

variable {s : Synthesizer} {members : MemberResolver} (resolves : ∀ source, J (members source))

include resolves

theorem interfaceVia (source : SourceType) : J (s.interfaceVia memo members source) := by
  unfold Synthesizer.interfaceVia
  refine carries _ _ (comp.bind (resolves source) ?_)
  rintro (_ | members)
  · exact comp.pure _
  · exact comp.pure _

theorem proxyVia (source : SourceType) (interface : Option TypeName) :
    J (s.proxyVia memo members source interface) := by
  unfold Synthesizer.proxyVia
  refine carries _ _ (comp.bind (resolves source) ?_)
  rintro (_ | members)
  · exact comp.pure _
  · exact comp.bind (comp.lift _) fun _ => comp.pure _

theorem ensureInterfaceVia (source : SourceType) :
    J (s.ensureInterfaceVia memo members source) := by
  unfold Synthesizer.ensureInterfaceVia
  refine comp.bind (comp.inScope _) fun isIn => ?_
  split
  · exact comp.pure _
  · refine comp.bind (comp.interfaceVia carries resolves source) ?_
    rintro (_ | interface)
    · exact comp.throw _
    · exact comp.pure _

theorem ensureProxyVia (source : SourceType) (interface : TypeName) :
    J (s.ensureProxyVia memo members source interface) := by
  unfold Synthesizer.ensureProxyVia
  refine comp.bind (comp.inScope _) fun isIn => ?_
  split
  · exact comp.pure _
  · exact comp.bind (comp.proxyVia carries resolves source _) fun _ => comp.pure _

theorem cloneStructVia (source : SourceType) : J (s.cloneStructVia memo members source) := by
  unfold Synthesizer.cloneStructVia
  refine comp.bind (comp.ensureInterfaceVia carries resolves source) fun interface => ?_
  refine comp.bind (comp.ensureProxyVia carries resolves source interface) fun _ => ?_
  refine comp.bind (comp.inScope _) fun isIn => ?_
  split
  · exact comp.pure _
  · refine comp.bind (carries _ _ (comp.bind (resolves source) ?_)) fun clone =>
      comp.cloneReference source clone
    rintro (_ | members)
    · exact comp.pure _
    · exact comp.bind (comp.lift _) fun _ => comp.pure _

theorem referenceInterfaceVia (source : SourceType) :
    J (s.referenceInterfaceVia memo members source) := by
  unfold Synthesizer.referenceInterfaceVia
  refine comp.bind (comp.ensureInterfaceVia carries resolves source) fun interface => ?_
  exact comp.bind (comp.ensureProxyVia carries resolves source interface) fun _ => comp.pure _

theorem replaceNamedVia (name : TypeName) : J (s.replaceNamedVia memo members name) := by
  unfold Synthesizer.replaceNamedVia
  refine comp.bind (comp.lift _) fun source => ?_
  split
  · unfold Synthesizer.cloneEnumVia
    exact comp.bind (carries _ _ (comp.pure _)) fun clone => comp.cloneReference source clone
  · split
    · exact comp.pure _
    · split
      · exact comp.cloneStructVia carries resolves source
      · exact comp.referenceInterfaceVia carries resolves source

end

section

variable (s : Synthesizer)

theorem dereferenceNamedVia (fuel : Nat) (name : TypeName) :
    J (s.dereferenceNamedVia memo fuel name) := by
  induction fuel generalizing name with
  | zero => exact comp.throw _
  | succ fuel ih =>
    exact comp.replaceNamedVia carries (comp.resolveMembers (comp.replaceType ih)) name

theorem dereferenceVia (type : TypeRef) : J (s.dereferenceVia memo type) :=
  comp.replaceType (comp.dereferenceNamedVia carries s s.nestingBound) type

theorem membersVia (source : SourceType) : J (s.membersVia memo source) :=
  comp.resolveMembers (comp.dereferenceVia carries s) source

theorem synthesizeVia (source : SourceType) : J (s.synthesizeVia memo source) := by
  have resolves := comp.membersVia carries s
  unfold Synthesizer.synthesizeVia
  refine comp.bind (comp.interfaceVia carries resolves source) ?_
  rintro (_ | interface)
  · exact comp.pure _
  · refine comp.bind (comp.proxyVia carries resolves source _) ?_
    rintro (_ | proxy)
    · exact comp.pure _
    · refine comp.bind (comp.fluentVia carries s proxy interface _) ?_
      rintro (_ | fluent)
      · exact comp.pure _
      · exact comp.pure _

end

end

end Compositional

/-- What holds between the progress before and after each step holds so for every call. -/
theorem Call.afterVia_of_compositional {J : Progress → Progress → Prop} {memo : Memo}
    (comp : Compositional fun x => ∀ p, J p (x p).2)
    (carries : memo.Carries fun x => ∀ p, J p (x p).2) (s : Synthesizer) (p : Progress)
    (call : Call) : J p (call.afterVia memo s p) := by
  have resolves := comp.membersVia carries s
  cases call with
  | synthesize source => exact comp.synthesizeVia carries s source p
  | interface source => exact comp.interfaceVia carries resolves source p
  | proxy source bound => exact comp.proxyVia carries resolves source bound p
  | fluent wrapped shown options => exact comp.fluentVia carries s wrapped shown options p
  | dereference type => exact comp.dereferenceVia carries s type p

end FluentWrappers.Synthesis
