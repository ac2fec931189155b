import FluentWrappers.Proofs.Source.Record
import FluentWrappers.Proofs.Synthesis.Cleanup

/-!
# Keys of differently named source types

A key of the cache holds what is made and the name that is made of the source's name by affixes. The
fluent wrapper is named after the proxy, whose suffix gives way to the fluent prefix. A key still tells
the name of the source, whatever the affixes are, so that differently named source types have no entry
of a cache in common.
-/

namespace FluentWrappers

namespace Synthesis

namespace Synthesizer

variable {s : Synthesizer} {t u : SourceType} {kind kind' : ProductKind}

theorem keyOf_eq_iff (dotless : t.name.Dotless) (dotless' : u.name.Dotless) :
    s.keyOf kind t = s.keyOf kind' u ↔ kind = kind' ∧ t.name = u.name := by
  constructor
  · intro same
    obtain rfl : kind = kind' := congrArg CacheKey.kind same
    have names := canonical_eq_of_productName dotless dotless' (congrArg CacheKey.name same)
    exact ⟨rfl, (TypeName.canonical_inj dotless dotless').1 names⟩
  · rintro ⟨rfl, same⟩
    unfold keyOf productName
    rw [same]

/-- Two differently named source types have no key in common, and in no session that calls lead to does
an entry of the cache belong to both. In particular a fluent wrapper, though it is named after a proxy,
has the simple name of its source behind the prefix. -/
theorem entries_apart (s : Synthesizer) {t u : SourceType} (dotless : t.name.Dotless)
    (dotless' : u.name.Dotless) (different : t.name ≠ u.name) :
    (∀ kind kind', s.keyOf kind t ≠ s.keyOf kind' u) ∧
    (∀ session : Session, session.Reached → ∀ kind kind' slot slot',
      session.cache.slotOf? (s.keyOf kind t) = some slot →
      session.cache.slotOf? (s.keyOf kind' u) = some slot' → slot ≠ slot') ∧
    ∀ n : TypeName, fluentName s.options (proxyName s.options n) =
      n.withSimple (s.options.fluentPrefix ++ n.simple) := by
  have keys : ∀ kind kind', s.keyOf kind t ≠ s.keyOf kind' u := fun kind kind' same =>
    different ((keyOf_eq_iff dotless dotless').1 same).2
  refine ⟨keys, ?_, fluentName_proxyName s.options⟩
  rintro session reached kind kind' slot _ bound bound' rfl
  exact keys kind kind' (reached.tidy.apart _ _ slot bound bound')

end Synthesizer

/-- A source type and one with the name of its proxy. -/
def mirror : Synthesizer where
  catalog := ⟨.ofTypes [{ name := ⟨"Acme", "Point"⟩ }, { name := ⟨"Acme", "PointProxy"⟩ }], []⟩
  options := {}

theorem entries_apart_mirror :
    TypeName.Dotless ⟨"Acme", "Point"⟩ ∧ TypeName.Dotless ⟨"Acme", "PointProxy"⟩ ∧
      (∀ kind kind', mirror.keyOf kind { name := ⟨"Acme", "Point"⟩ } ≠
        mirror.keyOf kind' { name := ⟨"Acme", "PointProxy"⟩ }) ∧
      fluentName {} (proxyName {} ⟨"Acme", "PointProxy"⟩) = ⟨"Acme", "FluentPointProxy"⟩ := by
  let point : SourceType := { name := ⟨"Acme", "Point"⟩ }
  let namesake : SourceType := { name := ⟨"Acme", "PointProxy"⟩ }
  have dotless : point.name.Dotless := by decide +kernel
  have dotless' : namesake.name.Dotless := by decide +kernel
  have different : point.name ≠ namesake.name := by decide +kernel
  obtain ⟨keys, -, fluent⟩ := Synthesizer.entries_apart mirror dotless dotless' different
  exact ⟨dotless, dotless', keys, fluent ⟨"Acme", "PointProxy"⟩⟩

end Synthesis

end FluentWrappers
