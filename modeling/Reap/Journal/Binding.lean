import Reap.Journal.Replay

/-!
# Venue bindings

An order gets its venue order from an acknowledgement, or from the expected identity of an
authenticated placement whose outcome is unknown. The second leaves the order in the state in which
a late acknowledgement is still accepted, and nothing compares the two identities.

## What is proved

* `ordersStep_of_applyRecord` — what an accepted record can do to the retained orders.
* `bound_of_replayed` — no two retained orders share a venue order.
* `bindings_of_replayed` — an accepted record keeps all bindings exactly if it is no late
  acknowledgement with another venue order.
* `bound_of_run` — along every run without such a record, a retained order keeps its binding.
-/

namespace Reap.Journal

open Base Reap.Core Option PmJournalRecovery

namespace PmJournalRecovery

open RecoveredOwnedOrder OrderedMap

/-! ### What a record does to the retained orders -/

/-- The record is a late acknowledgement of the order. -/
def LateAcknowledges (record : PmJournalRecordV1) (client : PmClientOrderKey)
    (venue : PmVenueOrderKey) : Prop :=
  ∃ result : PmJournalPlaceResultV1, record = .placeResult result ∧
    result.outcome = .lateAcknowledgement ∧ result.clientOrder = client ∧
    result.venueOrder = some venue

/-- What an accepted record can do to the retained orders. -/
inductive OrdersStep (s t : PmJournalRecovery) (record : PmJournalRecordV1) : Prop where
  | kept (h : ∀ client order, t.Holds client order → s.Holds client order)
  | opened {intent : PmJournalQuoteIntentV1} {sequence : UInt64}
      (hnew : s.ownedOrders[intent.clientOrder]? = none)
      (hputs : s.Puts t intent.clientOrder (.ofIntent intent sequence))
  | marked {client : PmClientOrderKey} {order next : RecoveredOwnedOrder}
      (hget : s.Holds client order)
      (hputs : s.Puts t client next)
      (hvenue : next.venueOrder = order.venueOrder)
      (hplace : next.place = .intentOnly → order.place = .intentOnly)
  | bound {client : PmClientOrderKey} {order next : RecoveredOwnedOrder} {venue : PmVenueOrderKey}
      (hget : s.Holds client order)
      (hputs : s.Puts t client next)
      (hvenue : next.venueOrder = some venue) (hplace : next.place ≠ .intentOnly)
      (helse : s.boundElsewhere client venue = false)
      (hprior : order.place = .intentOnly ∨ LateAcknowledges record client venue)

variable {client : PmClientOrderKey}

theorem Puts.trans {s middle t : PmJournalRecovery}
    {first second : RecoveredOwnedOrder} (h : s.Puts middle client first)
    (h' : middle.Puts t client second) : s.Puts t client second := by
  intro other
  rw [h' other, h other]
  split_ifs <;> rfl

theorem kept_compactProvenTerminalOrders (s : PmJournalRecovery)
    (client : PmClientOrderKey) (order : RecoveredOwnedOrder)
    (h : s.compactProvenTerminalOrders.Holds client order) :
    s.Holds client order := by
  have hfold : ∀ (clients : List PmClientOrderKey) (s : PmJournalRecovery),
      (clients.foldl compactOrder s).ownedOrders[client]? = some order →
      s.Holds client order := by
    intro clients
    induction clients with
    | nil => exact fun _ h => h
    | cons _ _ ih =>
      intro s h
      have hnext := ih _ h
      rw [Holds, getElem?_compactOrder] at hnext
      split_ifs at hnext
      exact hnext
  exact hfold _ _ h

section

variable {s t : PmJournalRecovery} {record : PmJournalRecordV1}
  {scope : PmJournalScopeV1}

theorem ordersStep_of_applyPlaceResult {result : PmJournalPlaceResultV1}
    {provenance : ResultProvenance}
    (hlate : result.outcome = .lateAcknowledgement → record = .placeResult result)
    (h : s.applyPlaceResult result provenance = .ok t) :
    OrdersStep s t record := by
  obtain ⟨helse, -, -, order, placed, hget, hpl, rfl⟩ := applyPlaceResult_iff.mp h
  have hputs := puts_setOrder s result.clientOrder (placed.markPlaceResult provenance)
  rcases applyPlace_iff.mp hpl with ⟨-, hpr, rfl⟩ | ⟨-, hpr, rfl⟩ | ⟨hbin, hpr, venue, hven, rfl⟩
  · exact .marked hget hputs (by simp) fun _ => hpr
  · exact .marked hget hputs (by simp) fun _ => hpr
  · refine .bound hget hputs (by simp) (by simp) (helse venue hven) ?_
    split_ifs at hpr with hout
    · exact .inr ⟨result, hlate hout, hout, rfl, hven⟩
    · exact .inl hpr

/-- The place result of an authenticated placement is no late acknowledgement. -/
theorem outcome_ne_late {place : PmJournalAuthenticatedPlaceResultV1}
    (h : place.validate scope = .ok ()) : place.canonical.outcome ≠ .lateAcknowledgement := by
  obtain ⟨_, -, h⟩ := bind_eq_ok.mp h
  obtain ⟨_, -, h⟩ := bind_eq_ok.mp h
  obtain ⟨_, -, h⟩ := bind_eq_ok.mp h
  rw [refuse_eq_ok, not_or] at h
  intro hout
  refine h.1 ?_
  unfold PmJournalAuthenticatedPlaceResultV1.classified rejectedPlace
  cases place.classification <;> simp [hout]

theorem ordersStep_of_applyCanonical {result : PmJournalAuthenticatedResultV1}
    (hval : result.validate scope = .ok ()) (h : s.applyCanonical result = .ok t) :
    OrdersStep s t (.authenticatedResult result) := by
  cases result with
  | cancel =>
    obtain ⟨order, next, hget, hcan, rfl⟩ := applyCancelResult_iff.mp h
    have hbin := applyCancel_samePlacement hcan
    exact .marked hget (puts_setOrder _ _ _) hbin.venueOrder (hbin.place ▸ id)
  | place place =>
    obtain ⟨placed, hpla, hbind⟩ := Outcome.bind_eq_ok.mp h
    have hlate := outcome_ne_late hval
    split_ifs at hbind with hamb
    · obtain ⟨venue, order, -, helse, hget, hunk, hnone, rfl⟩ := bindAmbiguous_iff.mp hbind
      obtain ⟨-, -, -, prior, next, hpr, hpl, rfl⟩ := applyPlaceResult_iff.mp hpla
      have hputs := puts_setOrder s place.canonical.clientOrder
        (next.markPlaceResult .authenticated)
      -- only a placement whose outcome was open so far becomes unknown
      have hopen : prior.place = .intentOnly := by
        have hmid := (hputs place.canonical.clientOrder).trans (if_pos rfl)
        cases hget.symm.trans hmid
        rcases applyPlace_iff.mp hpl with ⟨-, hopen, -⟩ | ⟨-, hopen, -⟩ | ⟨-, -, _, -, rfl⟩
        · exact hopen
        · exact hopen
        · cases hunk
      refine .bound hpr (hputs.trans (puts_setOrder _ _ _)) rfl (fun h => ?_) ?_ (.inl hopen)
      · rw [hunk] at h
        cases h
      · rw [boundElsewhere_eq_false] at helse ⊢
        intro other held hheld hven
        by_contra hne
        exact hne (helse other held (((hputs other).trans (if_neg (Ne.symm hne))).trans hheld) hven)
    · cases hbind
      exact ordersStep_of_applyPlaceResult (fun hout => absurd hout hlate) hpla

/-- A fill changes the order that it names. -/
theorem puts_of_applyFill {applied : PmJournalFillAppliedV1}
    (h : s.applyFill applied = .ok t) : ∃ order filled, s.Holds applied.fill.clientOrder order ∧
      order.applyFill applied = .ok filled ∧
      s.Puts t applied.fill.clientOrder filled := by
  obtain ⟨-, -, order, filled, hget, hfill, hor⟩ := applyFill_iff.mp h
  refine ⟨order, filled, hget, hfill, ?_⟩
  rcases hor with ⟨-, -, -, rfl⟩ | ⟨-, -, rfl⟩
  · exact puts_setOrder s _ _
  · exact puts_setOrder s _ _

/-- **What an accepted record does to the retained orders.** -/
theorem ordersStep_of_applyRecord [JournalDigest] {sequence : UInt64}
    (h : s.applyRecord record sequence = .ok t) :
    OrdersStep s t record := by
  obtain ⟨_, hval, h⟩ := Outcome.bind_eq_ok.mp h
  rw [Outcome.wrapError_eq_ok] at hval
  split_ifs at h with hfst
  · cases record with
    | header =>
      obtain ⟨_, -, hcha⟩ := Outcome.bind_eq_ok.mp h
      cases hcha
      exact .kept fun _ _ => id
    | _ => cases h
  · cases record with
    | header => cases h
    | quoteIntent =>
      obtain ⟨-, hnew, -, -, rfl⟩ := applyQuoteIntent_iff.mp h
      exact .opened hnew (puts_setOrder s _ _)
    | placeResult => exact ordersStep_of_applyPlaceResult (fun _ => rfl) h
    | cancelIntent =>
      obtain ⟨order, next, hget, hcan, rfl⟩ := applyCancelIntent_iff.mp h
      obtain ⟨-, -, -, -, -, rfl⟩ := RecoveredOwnedOrder.applyCancelIntent_iff.mp hcan
      exact .marked hget (puts_setOrder _ _ _) rfl id
    | cancelResult =>
      obtain ⟨order, next, hget, hcan, rfl⟩ := applyCancelResult_iff.mp h
      have hbin := applyCancel_samePlacement hcan
      exact .marked hget (puts_setOrder _ _ _) hbin.venueOrder (hbin.place ▸ id)
    | fillApplied applied =>
      obtain ⟨order, filled, hget, hfill, hputs⟩ := puts_of_applyFill h
      obtain ⟨-, _, _, _, -, -, -, -, -, rfl⟩ := RecoveredOwnedOrder.applyFill_iff.mp hfill
      exact .marked hget hputs (by simp) (by simp)
    | orderTerminal =>
      obtain ⟨-, order, next, hget, hterm, rfl⟩ := applyTerminal_iff.mp h
      obtain ⟨-, -, -, -, -, -, rfl⟩ := RecoveredOwnedOrder.applyTerminal_iff.mp hterm
      exact .marked hget (puts_setOrder s _ _) rfl id
    | safetyHalt =>
      cases h
      exact .kept fun _ _ => id
    | fillWatermarkAdvanced watermark =>
      obtain ⟨-, rfl⟩ := applyFillWatermark_iff.mp h
      exact .kept (kept_compactProvenTerminalOrders
        { s with fillWatermark := some watermark.cursor })
    | authenticatedResult =>
      obtain ⟨-, -, applied, hcano, rfl⟩ := applyAuthenticatedResult_iff.mp h
      cases ordersStep_of_applyCanonical hval hcano with
      | kept h => exact .kept h
      | opened hnew hputs => exact .opened hnew hputs
      | marked hget hputs hven hpl => exact .marked hget hputs hven hpl
      | bound hget hputs hven hpl helse hpr =>
        exact .bound hget hputs hven hpl helse hpr

/-! ### Bindings -/

/-- No two retained orders share a venue order. -/
def BindingsInjective (s : PmJournalRecovery) : Prop :=
  ∀ (first second : PmClientOrderKey) (a b : RecoveredOwnedOrder) (venue : PmVenueOrderKey),
    s.Holds first a → s.Holds second b →
    a.venueOrder = some venue → b.venueOrder = some venue → first = second

/-- Bindings are injective, and an order without any result has none. -/
structure Bound (s : PmJournalRecovery) : Prop where
  injective : s.BindingsInjective
  unbound : ∀ client order, s.Holds client order → order.place = .intentOnly →
    order.venueOrder = none

/-- An order is put whose venue order no other order has. -/
theorem Bound.put (h : Bound s) {next : RecoveredOwnedOrder} (hputs : s.Puts t client next)
    (hfree : ∀ venue ∈ next.venueOrder, s.boundElsewhere client venue = false)
    (hopen : next.place = .intentOnly → next.venueOrder = none) : Bound t := by
  constructor
  · intro first second a b venue ha hb hva hvb
    refine eq_of_put (R := fun a b => a.venueOrder = some venue ∧ b.venueOrder = some venue)
      hputs ?_ ?_ ?_ ha hb ⟨hva, hvb⟩
    · rintro other order hget ⟨hmem, hven⟩
      exact boundElsewhere_eq_false.mp (hfree venue hmem) other order hget hven
    · rintro other order hget ⟨hven, hmem⟩
      exact boundElsewhere_eq_false.mp (hfree venue hmem) other order hget hven
    · exact fun i j a b ha hb hven => h.injective i j a b venue ha hb hven.1 hven.2
  · exact hputs.forall hopen h.unbound

theorem Bound.ordersStep (h : Bound s) (hstep : OrdersStep s t record) : Bound t := by
  cases hstep with
  | kept hkept =>
    refine ⟨fun first second a b venue ha hb => ?_, fun client order hget => ?_⟩
    · exact h.injective first second a b venue (hkept first a ha) (hkept second b hb)
    · exact h.unbound client order (hkept client order hget)
  | opened _ hputs => exact h.put hputs nofun fun _ => rfl
  | @marked client order next hget hputs hven hpl =>
    refine h.put hputs (fun venue hmem => ?_) fun hopen => ?_
    · rw [boundElsewhere_eq_false]
      intro other held hheld hsame
      exact h.injective other client held order venue hheld hget hsame (hven ▸ hmem)
    · rw [hven]
      exact h.unbound client order hget (hpl hopen)
  | bound _ hputs hven hpl helse =>
    refine h.put hputs (fun venue hmem => ?_) fun hopen => absurd hopen hpl
    cases hven.symm.trans hmem
    exact helse

/-- The bindings of every sequence of accepted records. -/
theorem bound_of_replayed [JournalDigest] {records : List PmJournalRecordV1}
    (h : Replayed scope records s) : Bound s := by
  refine h.invariant (P := fun _ s => Bound s) ?_
    fun records record s t hbd _ hnext => ?_
  · refine ⟨fun first second a b venue ha => ?_, fun client order hget => ?_⟩
    · cases ha
    · cases hget
  · obtain ⟨applied, happ, hcou⟩ := Outcome.bind_eq_ok.mp hnext
    cases hcou
    have haft := hbd.ordersStep (ordersStep_of_applyRecord happ)
    exact ⟨haft.injective, haft.unbound⟩

/-- Every order that is bound and stays retained stays bound to its venue order. -/
def BindingsKept (s t : PmJournalRecovery) : Prop :=
  ∀ (client : PmClientOrderKey) (order next : RecoveredOwnedOrder) (venue : PmVenueOrderKey),
    s.Holds client order → order.venueOrder = some venue →
    t.Holds client next → next.venueOrder = some venue

/-- The record does not acknowledge, too late, an order under another venue order than the one it
is already bound to. -/
def AcknowledgesBinding (s : PmJournalRecovery) : PmJournalRecordV1 → Prop
  | .placeResult result => result.outcome = .lateAcknowledgement →
      ∀ order : RecoveredOwnedOrder, s.Holds result.clientOrder order →
      ∀ venue ∈ order.venueOrder, result.venueOrder = some venue
  | _ => True

theorem bindingsKept_of_puts {order next : RecoveredOwnedOrder}
    (hget : s.Holds client order) (hputs : s.Puts t client next)
    (h : ∀ venue, order.venueOrder = some venue → next.venueOrder = some venue) :
    BindingsKept s t := by
  intro other held after venue hheld hven haft
  rw [Holds, hputs other] at haft
  split_ifs at haft with he
  · cases haft
    subst he
    cases hget.symm.trans hheld
    exact h venue hven
  · cases hheld.symm.trans haft
    exact hven

theorem bindingsKept_of_ordersStep (h : Bound s) (hstep : OrdersStep s t record)
    (hack : s.AcknowledgesBinding record) : BindingsKept s t := by
  cases hstep with
  | kept hkept =>
    intro client order next venue hget hven hnext
    cases hget.symm.trans (hkept client next hnext)
    exact hven
  | @opened intent sequence hnew hputs =>
    intro client order next venue hget hven hnext
    rw [Holds, hputs client] at hnext
    split_ifs at hnext with he
    · cases (he ▸ hnew).symm.trans hget
    · cases hget.symm.trans hnext
      exact hven
  | marked hget hputs hven =>
    refine bindingsKept_of_puts hget hputs fun venue hbd => ?_
    rw [hven, hbd]
  | bound hget hputs hven _ _ hpr =>
    refine bindingsKept_of_puts hget hputs fun venue hbd => ?_
    rcases hpr with hopen | ⟨result, rfl, hout, rfl, hres⟩
    · rw [h.unbound _ _ hget hopen] at hbd
      cases hbd
    · rw [hven, ← hres]
      exact hack hout _ hget venue hbd

/-- **Venue bindings**: no two retained orders share a venue order, and the next accepted record
keeps all bindings exactly if it does not acknowledge a bound order under another venue order. -/
theorem bindings_of_replayed [JournalDigest] {scope : PmJournalScopeV1}
    {records : List PmJournalRecordV1} (h : Replayed scope records s) :
    s.BindingsInjective ∧ ∀ (record : PmJournalRecordV1) (t : PmJournalRecovery),
        s.applyRecord record (sequenceAt records.length) = .ok t →
        (BindingsKept s t ↔ s.AcknowledgesBinding record) := by
  have hbd := bound_of_replayed h
  refine ⟨hbd.injective, fun record t hacc => ⟨fun hkept => ?_, fun hack =>
    bindingsKept_of_ordersStep hbd (ordersStep_of_applyRecord hacc) hack⟩⟩
  cases record with
  | placeResult result =>
    intro hlate order hget venue hven
    obtain ⟨_, -, hacc⟩ := Outcome.bind_eq_ok.mp hacc
    split_ifs at hacc
    obtain ⟨-, -, -, prior, placed, hpr, hpl, rfl⟩ := applyPlaceResult_iff.mp hacc
    have haft := hkept _ order _ venue hget hven
      ((puts_setOrder s result.clientOrder _ _).trans (if_pos rfl))
    rcases applyPlace_iff.mp hpl with ⟨hout, -⟩ | ⟨hout, -⟩ | ⟨-, -, bound, hres, rfl⟩
    · rw [hlate] at hout
      cases hout
    · rw [hlate] at hout
      cases hout
    · exact hres.trans haft
  | _ => trivial

/-- One more record is accepted: it is no late acknowledgement with another venue order, and the
order of the client is retained. -/
def Retains [JournalDigest] (client : PmClientOrderKey)
    (s t : List PmJournalRecordV1 × PmJournalRecovery) : Prop :=
  ∃ record, s.1.length < 2 ^ 64 ∧ t.1 = s.1 ++ [record] ∧
    applyCounted s.2 record (sequenceAt s.1.length) = .ok t.2 ∧
    s.2.AcknowledgesBinding record ∧ t.2.ownedOrders[client]?.isSome = true

/-- Along every run whose records acknowledge no order under another venue order, an order keeps
its binding for as long as it is retained. -/
theorem bound_of_run [JournalDigest] {scope : PmJournalScopeV1} {venue : PmVenueOrderKey}
    {s t : List PmJournalRecordV1 × PmJournalRecovery} (hs : Replayed scope s.1 s.2)
    (hrun : Relation.ReflTransGen (Retains client) s t)
    (hbd : s.2.ownedOrders[client]?.bind (·.venueOrder) = some venue) :
    t.2.ownedOrders[client]?.bind (·.venueOrder) = some venue := by
  -- each record extends the replay, so that its step can be taken from there
  have hkept : Replayed scope t.1 t.2 ∧
      t.2.ownedOrders[client]?.bind (·.venueOrder) = some venue := by
    induction hrun with
    | refl => exact ⟨hs, hbd⟩
    | @tail middle last _ hstep ih =>
      obtain ⟨hrep, hven⟩ := ih
      obtain ⟨records, changed⟩ := last
      obtain ⟨record, hlen, hrec, happ, hack, hret⟩ := hstep
      refine ⟨hrec ▸ hrep.next hlen happ, ?_⟩
      obtain ⟨applied, hacc, hcou⟩ := Outcome.bind_eq_ok.mp happ
      cases hcou
      obtain ⟨order, hget, hord⟩ := bind_eq_some_iff.mp hven
      obtain ⟨next, hnext⟩ := isSome_iff_exists.mp hret
      have hkeep := bindingsKept_of_ordersStep (bound_of_replayed hrep)
        (ordersStep_of_applyRecord hacc) hack
      exact bind_eq_some_iff.mpr ⟨next, hnext, hkeep client order next venue hget hord hnext⟩
  exact hkept.2

end

end PmJournalRecovery

namespace JournalSample

/-- The placement of the first intent has an unknown outcome, but an expected venue order. -/
def unknownPlace : PmJournalAuthenticatedPlaceResultV1 where
  authPreparedSequence := 1
  authGrantSequence := 2
  authResultSequence := 3
  priorGoalFSequence := 1
  instrument := scope.instrument
  requestCommitment := ⟨7⟩
  expectedOrderId := ⟨9⟩
  observedOrderId := none
  classification := .acknowledgementUnknown
  canonical := ⟨first, .ambiguousTimeout, none, none, ⟨[]⟩⟩

/-- A late acknowledgement of the first intent. -/
def late (venue : PmVenueOrderKey) : PmJournalRecordV1 :=
  .placeResult ⟨first, .lateAcknowledgement, none, some venue, ⟨[]⟩⟩

/-- An order is bound to the venue order that its placement expects. -/
def expectedLines : List PmJournalLineV1 :=
  [line 0 (.header scope), line 1 (.quoteIntent (intent 1 first)),
    line 2 (.authenticatedResult (.place unknownPlace))]

/-- The venue order that the first client order is bound to. -/
def boundTo (s : PmJournalRecovery) : Option PmVenueOrderKey :=
  s.ownedOrders[first]?.bind (·.venueOrder)

end JournalSample

open JournalSample

/-- A late acknowledgement with the venue order that is expected is accepted, and keeps it. -/
theorem bindings_of_sample : ∃ s t expected,
    Replayed scope (expectedLines.map (·.record)) s ∧ s.BindingsInjective ∧
    boundTo s = some expected ∧
    s.applyRecord (late expected) (sequenceAt expectedLines.length) = .ok t ∧
    PmJournalRecovery.BindingsKept s t := by
  have hrun : (recoverFrom (.empty scope) 0 expectedLines).okWith (fun s =>
      ∃ expected ∈ boundTo s,
        (s.applyRecord (late expected) 3).okWith (fun _ => true) = true) = true := by
    decide +kernel
  obtain ⟨s, hrec, hlate⟩ := Outcome.okWith_eq_true.mp hrun
  obtain ⟨expected, hexp, hlate⟩ := of_decide_eq_true hlate
  obtain ⟨t, hacc, -⟩ := Outcome.okWith_eq_true.mp hlate
  have hrep : Replayed scope (expectedLines.map (·.record)) s :=
    replayed_of_recoverFrom hrec
  obtain ⟨hinj, hiff⟩ := bindings_of_replayed hrep
  refine ⟨s, t, expected, hrep, hinj, hexp, hacc, (hiff _ _ hacc).mpr ?_⟩
  intro _ order hget venue hven
  cases hexp.symm.trans (bind_eq_some_iff.mpr ⟨order, hget, hven⟩)
  rfl

/-- A late acknowledgement binds an order that is already bound to another venue order. -/
theorem late_acknowledgement_rebinds : ∃ s t, Replayed scope (expectedLines.map (·.record)) s ∧
    s.applyRecord (late venue) (sequenceAt expectedLines.length) = .ok t ∧
    ¬ PmJournalRecovery.BindingsKept s t := by
  have hrun : (recoverFrom (.empty scope) 0 expectedLines).okWith (fun s =>
      (boundTo s).isSome && boundTo s != some venue &&
        (s.applyRecord (late venue) 3).okWith fun t =>
          boundTo t == some venue) = true := by
    decide +kernel
  obtain ⟨s, hrec, htest⟩ := Outcome.okWith_eq_true.mp hrun
  obtain ⟨⟨hbd, hne⟩, hlate⟩ : ((boundTo s).isSome = true ∧
      (boundTo s != some venue) = true) ∧ _ := by simpa using htest
  obtain ⟨t, hacc, hven⟩ := Outcome.okWith_eq_true.mp hlate
  refine ⟨s, t, replayed_of_recoverFrom hrec, hacc, ?_⟩
  intro hkept
  obtain ⟨expected, hexp⟩ := isSome_iff_exists.mp hbd
  obtain ⟨order, hget, hord⟩ := bind_eq_some_iff.mp hexp
  obtain ⟨next, hnext, haft⟩ := bind_eq_some_iff.mp (beq_iff_eq.mp hven)
  have hsame := hkept first order next expected hget hord hnext
  rw [bne_iff_ne, hexp, ← hsame] at hne
  exact hne haft

end Reap.Journal
