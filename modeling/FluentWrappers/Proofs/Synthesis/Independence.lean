import FluentWrappers.Proofs.Synthesis.FailFast
import FluentWrappers.Proofs.Synthesis.Requests

/-!
# Completed types do not depend on history

Whatever a session was asked for, in whatever order and with whatever success, what it has completed
for a kind and a source type is the product of the two. So all types of one source show the same
members, and the order of requests that all succeed is of no account.
-/

namespace FluentWrappers.Synthesis

namespace Synthesizer

variable {s : Synthesizer} {old : CacheKey → Prop} {session session' : Session}

theorem product_of_get? (lawful : Lawful s old ⟨session, []⟩) {key : CacheKey} {c : Completed}
    (found : session.cache.get? key = some c) : ∃ kind u, s.catalog.Known u ∧
      key = s.keyOf kind u ∧ s.product u kind = some c.type ∧
        (s.Strict → kind ≠ .enumClone → ∀ m, s.catalog.EligibleMember u m → s.image? m.type ≠ none) := by
  have state : session.cache.stateOf? key = some (.complete (some c)) := by
    unfold Cache.get? at found
    split at found
    case h_1 result state => rw [state, found]
    case h_2 => cases found
  obtain ⟨kind, u, result, known, isKey, complete, product⟩ :=
    lawful.settled key _ state List.not_mem_nil
  cases complete
  exact ⟨kind, u, known, isKey, product.eq_product.symm,
    fun strict other => product.images strict (Option.some_ne_none _) other⟩

theorem exists_product_of_mem (lawful : Lawful s old ⟨session, []⟩) {t : SynthesizedType}
    (isIn : t ∈ session.types) : ∃ u, s.catalog.Known u ∧ s.product u t.kind = some t := by
  obtain ⟨key, has⟩ := (lawful.listed t).1 isIn
  obtain ⟨kind, u, known, -, made, -⟩ := lawful.exists_product has
  rw [← (product_facts made).1] at made
  exact ⟨u, known, made⟩

theorem eq_source_of_product {a b : SynthesizedType} {u v : SourceType} (known : s.catalog.Known u)
    (known' : s.catalog.Known v) (made : s.product u a.kind = some a)
    (made' : s.product v b.kind = some b) (same : a.source = b.source) : u = v := by
  apply known.eq known'
  have ofFirst := (product_facts made).2.2
  have ofSecond := (product_facts made').2.2
  exact congrArg TypeName.canonical (ofFirst.symm.trans (same.trans ofSecond))

theorem mem_types_of_made (apart : s.Apart) (lawful : Lawful s old ⟨session, []⟩)
    (lawful' : Lawful s old ⟨session', []⟩)
    (made : ∀ key, Progress.Made ⟨session, []⟩ key → Progress.Made ⟨session', []⟩ key)
    {t : SynthesizedType} (isIn : t ∈ session.types) : t ∈ session'.types := by
  obtain ⟨key, has⟩ := (lawful.listed t).1 isIn
  obtain ⟨kind, u, known, rfl, ofFirst, -⟩ := lawful.exists_product has
  obtain ⟨t', has'⟩ := made _ ⟨t, has⟩
  have ofSecond := lawful'.has_product apart known has'
  obtain rfl := Option.some.inj (ofFirst.symm.trans ofSecond)
  exact (lawful'.listed t).2 ⟨_, has'⟩

/-- Requests that all succeed do so in every order and complete the same types. -/
theorem serve_perm (apart : s.Apart) {requests requests' : List Request}
    (admits : ∀ request ∈ requests, s.Admits request) (order : requests.Perm requests')
    (timeout : UInt64)
    (succeed : ∀ response ∈ (s.serve (Session.start timeout) requests).1, response.Succeeds) :
    (∀ response ∈ (s.serve (Session.start timeout) requests').1, response.Succeeds) ∧
      ∀ t, t ∈ (s.serve (Session.start timeout) requests').2.types ↔
        t ∈ (s.serve (Session.start timeout) requests).2.types := by
  have lawful := lawful_start s timeout
  have whole := whole_start s timeout
  have admits' : ∀ request ∈ requests', s.Admits request :=
    fun request isIn => admits request (order.mem_iff.2 isIn)
  obtain ⟨-, grants, made⟩ := serve_succeeds apart admits succeed lawful whole
  have grants' : ∀ request ∈ requests', s.Grants request :=
    fun request isIn => grants request (order.mem_iff.2 isIn)
  have succeed' := serve_of_grants apart admits' grants' lawful
  obtain ⟨-, -, made'⟩ := serve_succeeds apart admits' succeed' lawful whole
  have same (key : CacheKey) : Progress.Made ⟨(s.serve (Session.start timeout) requests').2, []⟩ key ↔
      Progress.Made ⟨(s.serve (Session.start timeout) requests).2, []⟩ key := by
    refine (made' key).trans (Iff.trans ?_ (made key).symm)
    simp only [order.mem_iff]
  have after := serve_lawful apart admits lawful
  have after' := serve_lawful apart admits' lawful
  exact ⟨succeed', fun t => ⟨mem_types_of_made apart after' after fun key => (same key).1,
    mem_types_of_made apart after after' fun key => (same key).2⟩⟩

/-- The completed entries of a session that has served any requests are products of their kinds and
source types alone. The table of images says what its searches find. Types of one source have the same
members, its proxy binds each accessor of its interface once, and requests that all succeed may come
in any order. -/
theorem completed_independent (s : Synthesizer) (timeout : UInt64) (requests : List Request)
    (dotless : ∀ t ∈ s.catalog.types, t.name.Dotless)
    (admits : ∀ request ∈ requests, s.Admits request) :
    let served := s.serve (Session.start timeout) requests
    (∀ key c, served.2.cache.get? key = some c → ∃ u, s.catalog.Known u ∧ c.type.source = u.name ∧
      c.type.kind = key.kind ∧ key = s.keyOf key.kind u ∧ s.product u key.kind = some c.type ∧
      (key.kind ≠ .enumClone → ∃ members, s.catalog.extract u = .ok members ∧
        c.type.members = members.map s.resolved ∧
        (s.Strict → ∀ m ∈ members, s.image? m.type ≠ none))) ∧
    (∀ type t, (run served.2 (s.dereference type)).1 = .ok t → s.image? type = some t) ∧
    (∀ type e, (run served.2 (s.dereference type)).1 = .error e → ¬ s.Strict →
      s.image? type = none) ∧
    (∀ a ∈ served.2.types, ∀ b ∈ served.2.types, a.source = b.source → a.kind ≠ .enumClone →
      b.kind ≠ .enumClone → a.members = b.members) ∧
    (∀ i ∈ served.2.types, ∀ p ∈ served.2.types, i.kind = .interface → p.kind = .proxy →
      i.source = p.source → ∀ method ∈ i.methods, ∃ bound,
        p.methods.filter (·.binds i.name method.name) = [bound] ∧ bound.name = method.name ∧
          bound.params = method.params ∧ bound.returns = method.returns) ∧
    ((∀ response ∈ served.1, response.Succeeds) → ∀ requests' : List Request,
      requests.Perm requests' →
        (∀ response ∈ (s.serve (Session.start timeout) requests').1, response.Succeeds) ∧
          ∀ t, t ∈ (s.serve (Session.start timeout) requests').2.types ↔ t ∈ served.2.types) := by
  intro served
  have apart := apart_of_dotless dotless
  have lawful : Lawful s noKey ⟨served.2, []⟩ := serve_lawful apart admits (lawful_start s timeout)
  refine ⟨?entries, ?found, ?missing, ?members, ?bindings, ?orders⟩
  case entries =>
    intro key c found
    obtain ⟨kind, u, known, rfl, made, images⟩ := product_of_get? lawful found
    obtain ⟨isKind, -, isSource⟩ := product_facts made
    refine ⟨u, known, isSource, isKind, rfl, made, fun other => ?_⟩
    obtain ⟨members, extracted, -⟩ :=
      SourceCatalog.exists_extract (hasMembers_iff.1 (hasMembers_of_product made other))
    refine ⟨members, extracted, ?_, fun strict m isIn => ?_⟩
    · rw [members_of_product made other, resolvedMembers_eq extracted]
    · exact images strict other m ⟨members, extracted, isIn⟩
  case found =>
    intro type t result
    exact ((run_dereference apart lawful rfl).2.1 t result).2.1
  case missing =>
    intro type e result lenient
    exact ((run_dereference apart lawful rfl).2.2 e result).resolve_right
      fun harmed => lenient harmed.strict
  case members =>
    intro a isIn b isIn' same notEnum notEnum'
    obtain ⟨u, known, made⟩ := exists_product_of_mem lawful isIn
    obtain ⟨v, known', made'⟩ := exists_product_of_mem lawful isIn'
    obtain rfl := eq_source_of_product known known' made made' same
    rw [members_of_product made notEnum, members_of_product made' notEnum']
  case bindings =>
    intro i isIn p isIn' isInterface isProxy same method isMethod
    obtain ⟨u, known, made⟩ := exists_product_of_mem lawful isIn
    obtain ⟨v, known', made'⟩ := exists_product_of_mem lawful isIn'
    obtain rfl := eq_source_of_product known known' made made' same
    rw [isInterface] at made
    rw [isProxy] at made'
    have some := hasMembers_of_product made nofun
    obtain rfl := Option.some.inj ((product_interface some).symm.trans made)
    obtain rfl := Option.some.inj ((product_proxy some).symm.trans made')
    exact s.binds_once u isMethod
  case orders =>
    intro succeed requests' order
    exact serve_perm apart admits order timeout succeed

end Synthesizer

/-- The shop with failures that do not end everything: the seller of an item is kept as declared. -/
def lenientShop : Synthesizer := { shop with options := { failFast := false } }

def shopRequests : List Request :=
  [.synthesize order, .dereference (.array (.named ⟨"Shop", "Item"⟩)), .synthesize item]

theorem completed_independent_lenientShop :
    (∀ t ∈ lenientShop.catalog.types, t.name.Dotless) ∧
      (∀ request ∈ shopRequests, lenientShop.Admits request) ∧
      (∀ response ∈ (lenientShop.serve (Session.start 1) shopRequests).1, response.Succeeds) ∧
      ∀ t, t ∈ (lenientShop.serve (Session.start 1) shopRequests.reverse).2.types ↔
        t ∈ (lenientShop.serve (Session.start 1) shopRequests).2.types := by
  have dotless : ∀ t ∈ lenientShop.catalog.types, t.name.Dotless := by decide +kernel
  have ofOrder : lenientShop.catalog.get? order.name = some order := by decide +kernel
  have ofItem : lenientShop.catalog.get? item.name = some item := by decide +kernel
  have admits : ∀ request ∈ shopRequests, lenientShop.Admits request := by
    intro request isIn
    simp only [shopRequests, List.mem_cons, List.not_mem_nil, or_false] at isIn
    rcases isIn with rfl | rfl | rfl
    · exact ofOrder
    · exact True.intro
    · exact ofItem
  have succeed : ∀ response ∈ (lenientShop.serve (Session.start 1) shopRequests).1,
      response.Succeeds := by decide +kernel
  obtain ⟨-, -, -, -, -, orders⟩ :=
    Synthesizer.completed_independent lenientShop 1 shopRequests dotless admits
  have swapped : shopRequests.Perm shopRequests.reverse := (List.reverse_perm _).symm
  obtain ⟨-, sameTypes⟩ := orders succeed shopRequests.reverse swapped
  exact ⟨dotless, admits, succeed, sameTypes⟩

end FluentWrappers.Synthesis
