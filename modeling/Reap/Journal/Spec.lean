import Reap.Journal.Recovery

/-!
# What a record does

One statement for each kind of record: when recovery accepts it, and what it leaves. Everything
that is proved of recovery uses these and never looks at the functions again.

## What is proved

* `applyQuoteIntent_iff`, `applyPlaceResult_iff`, `applyCancelIntent_iff`, `applyCancelResult_iff`,
  `applyFill_iff`, `applyTerminal_iff`, `bindAmbiguous_iff` — acceptance and result, for each record.
* `SameQuote` — what no record but a fill changes in an order.
-/

namespace Reap.Journal

open Base Reap.Core Option U256 Except

namespace RecoveredOwnedOrder

/-! ### One order -/

/-- The quote of an order and its fills are the same. -/
structure SameQuote (order next : RecoveredOwnedOrder) : Prop where
  intent : next.intent = order.intent
  sequence : next.intentJournalSequence = order.intentJournalSequence
  known : next.knownFillTotal = order.knownFillTotal
  authoritative : next.authoritativeCumulative = order.authoritativeCumulative
  cumulative : next.cumulative = order.cumulative
  occurrence : next.lastAuthoritativeOccurrence = order.lastAuthoritativeOccurrence

variable {order next : RecoveredOwnedOrder} {result : PmJournalCancelResultV1}
  {provenance : ResultProvenance}

theorem SameQuote.original (h : order.SameQuote next) : next.original = order.original := by
  unfold RecoveredOwnedOrder.original
  rw [h.intent]

theorem SameQuote.trans {a b c : RecoveredOwnedOrder} (hab : a.SameQuote b) (hbc : b.SameQuote c) :
    a.SameQuote c where
  intent := hbc.intent.trans hab.intent
  sequence := hbc.sequence.trans hab.sequence
  known := hbc.known.trans hab.known
  authoritative := hbc.authoritative.trans hab.authoritative
  cumulative := hbc.cumulative.trans hab.cumulative
  occurrence := hbc.occurrence.trans hab.occurrence

/-- How a place result changes an order. -/
theorem applyPlace_iff {result : PmJournalPlaceResultV1} : order.applyPlace result = .ok next ↔
      (result.outcome = .ambiguousTimeout ∧ order.place = .intentOnly ∧
        next = { order with place := .unknown }) ∨
      (result.outcome = .rejected ∧ order.place = .intentOnly ∧
        next = { order with place := .rejected, terminal := some .rejected }) ∨
      (result.outcome.bindsVenue = true ∧
        order.place = (if result.outcome = .lateAcknowledgement then .unknown else .intentOnly) ∧
        ∃ venue, result.venueOrder = some venue ∧ next = { order with
          venueOrder := some venue
          place := .bound
          pendingAckFills := result.immediateFills.keys }) := by
  unfold applyPlace
  cases result.outcome <;> cases result.venueOrder <;>
    simp [-bind_pure_comp, bind_eq_ok, PmJournalPlaceOutcomeV1.bindsVenue, bindVenue, pure_eq_ok]
  all_goals exact fun _ => eq_comm

theorem applyPlace_sameQuote {result : PmJournalPlaceResultV1}
    (h : order.applyPlace result = .ok next) : order.SameQuote next := by
  rcases applyPlace_iff.mp h with ⟨-, -, rfl⟩ | ⟨-, -, rfl⟩ | ⟨-, -, -, -, rfl⟩ <;>
    exact ⟨rfl, rfl, rfl, rfl, rfl, rfl⟩

theorem markPlaceResult_sameQuote (order : RecoveredOwnedOrder) (provenance : ResultProvenance) :
    order.SameQuote (order.markPlaceResult provenance) := by
  unfold markPlaceResult
  split_ifs <;> exact ⟨rfl, rfl, rfl, rfl, rfl, rfl⟩

/-- The mark is read nowhere else. -/
@[simp] theorem markPlaceResult_frame (order : RecoveredOwnedOrder)
    (provenance : ResultProvenance) :
    let next := order.markPlaceResult provenance
    next.venueOrder = order.venueOrder ∧ next.pendingAckFills = order.pendingAckFills ∧
      next.terminal = order.terminal ∧ next.place = order.place ∧
      next.cancelIntentJournalSequence = order.cancelIntentJournalSequence := by
  unfold markPlaceResult
  split_ifs <;> simp

/-- How a cancel intent changes an order. -/
theorem applyCancelIntent_iff {intent : PmJournalCancelIntentV1} {sequence : UInt64} :
    order.applyCancelIntent intent sequence = .ok next ↔
      order.place = .bound ∧ order.venueOrder = some intent.venueOrder ∧ order.terminal = none ∧
      order.cancelPending = false ∧ order.cancelUnknown = false ∧
      next = { order with cancelPending := true, cancelIntentJournalSequence := some sequence } := by
  simp [-bind_pure_comp, applyCancelIntent, checkBound, bind_eq_ok, pure_eq_ok, and_assoc]

/-- How a cancel result changes an order. -/
theorem applyCancel_iff : order.applyCancel result provenance = .ok next ↔
      order.place = .bound ∧ order.venueOrder = some result.venueOrder ∧
      order.cancelPending = true ∧
      next = (order.concludeCancel result.outcome).markCancelResult provenance := by
  simp [-bind_pure_comp, applyCancel, checkBound, bind_eq_ok, pure_eq_ok, and_assoc]

/-- What a cancel result leaves as it was. -/
structure SamePlacement (order next : RecoveredOwnedOrder) : Prop extends SameQuote order next where
  venueOrder : next.venueOrder = order.venueOrder
  place : next.place = order.place
  pendingAckFills : next.pendingAckFills = order.pendingAckFills
  recorded : next.ordinaryPlaceResultRecorded = order.ordinaryPlaceResultRecorded
  cancelIntent : next.cancelIntentJournalSequence = order.cancelIntentJournalSequence
  /-- A terminal status is never taken back. -/
  terminal : next.terminal = none → order.terminal = none

theorem applyCancel_samePlacement (h : order.applyCancel result provenance = .ok next) :
    order.SamePlacement next := by
  obtain ⟨-, -, -, rfl⟩ := applyCancel_iff.mp h
  unfold markCancelResult concludeCancel
  cases result.outcome <;> split_ifs <;>
    exact ⟨⟨rfl, rfl, rfl, rfl, rfl, rfl⟩, rfl, rfl, rfl, rfl, rfl, by simp⟩

variable {applied : PmJournalFillAppliedV1}

/-- What is reported of a fill never exceeds the order. -/
theorem nextAuthoritative_le {authoritative : Option U256}
    {occurrence : Option RecoveredAuthoritativeOccurrence}
    (h : order.nextAuthoritative applied = .ok (authoritative, occurrence))
    (hle : ∀ cumulative ∈ order.authoritativeCumulative, cumulative ≤ order.original) :
    ∀ cumulative ∈ authoritative, cumulative ≤ order.original := by
  have hunc : (order.authoritativeCumulative, order.lastAuthoritativeOccurrence) =
      (authoritative, occurrence) → ∀ cumulative ∈ authoritative, cumulative ≤ order.original := by
    intro he
    cases he
    exact hle
  unfold nextAuthoritative at h
  cases hrep : applied.fill.authoritativeCumulative with
  | none =>
    rw [hrep] at h
    exact hunc (ok.inj h)
  | some reported =>
    simp only [hrep] at h
    split_ifs at h with hover
    have hrepl : (some reported,
          some (⟨applied.source, applied.occurrence⟩ : RecoveredAuthoritativeOccurrence)) =
        (authoritative, occurrence) → ∀ cumulative ∈ authoritative,
          cumulative ≤ order.original := by
      intro he cumulative hmem
      cases he
      cases hmem
      exact not_lt.mp hover
    repeat' split at h
    all_goals first
      | exact hunc (ok.inj h)
      | exact hrepl (ok.inj h)
      | cases h

/-- How a fill changes an order. -/
theorem applyFill_iff : order.applyFill applied = .ok next ↔ ¬ order.refusesFill applied ∧
      ∃ known authoritative occurrence,
        known.value = order.knownFillTotal.value + applied.fill.delta.protocolUnits.value ∧
        known ≤ order.original ∧ order.nextAuthoritative applied = .ok (authoritative, occurrence) ∧
        applied.fill.cumulative = maxUnits known (authoritative.getD zero) ∧
        order.original.value = applied.fill.cumulative.value + applied.fill.remaining.value ∧
        next = concludeFill { order with
          knownFillTotal := known
          authoritativeCumulative := authoritative
          lastAuthoritativeOccurrence := occurrence
          cumulative := maxUnits known (authoritative.getD zero)
          pendingAckFills := order.pendingAckFills.erase applied.fill.key } := by
  have hsum : ∀ a b c : U256, (a.checkedAdd b).toOption = some c ↔ c.value = a.value + b.value := by
    intro a b c
    rw [← checkedAdd_eq_ok_iff]
    cases a.checkedAdd b <;> simp [Except.toOption]
  unfold applyFill
  simp only [bind_eq_ok, refuse_eq_ok, wrapError_eq_ok, checkedAdd_eq_ok_iff, not_lt, not_or,
    not_not, hsum, pure_eq_ok, exists_const, Prod.exists]
  constructor
  · rintro ⟨href, known, hkn, hle, authoritative, occurrence, hnext, ⟨hcum, horig⟩, rfl⟩
    exact ⟨href, known, authoritative, occurrence, hkn, hle, hnext, hcum, horig, rfl⟩
  · rintro ⟨href, known, authoritative, occurrence, hkn, hle, hnext, hcum, horig, rfl⟩
    exact ⟨href, known, hkn, hle, authoritative, occurrence, hnext, ⟨hcum, horig⟩, rfl⟩

/-- The end of a fill changes at most the terminal status and the marks of a cancel. -/
@[simp] theorem concludeFill_frame (order : RecoveredOwnedOrder) : let next := order.concludeFill
    next.intent = order.intent ∧ next.intentJournalSequence = order.intentJournalSequence ∧
      next.knownFillTotal = order.knownFillTotal ∧
      next.authoritativeCumulative = order.authoritativeCumulative ∧
      next.cumulative = order.cumulative ∧ next.venueOrder = order.venueOrder ∧
      next.place = order.place ∧ next.pendingAckFills = order.pendingAckFills ∧
      next.ordinaryPlaceResultRecorded = order.ordinaryPlaceResultRecorded ∧
      next.cancelIntentJournalSequence = order.cancelIntentJournalSequence := by
  unfold concludeFill
  split_ifs <;> simp

/-- How a terminal observation changes an order. -/
theorem applyTerminal_iff {terminal : PmJournalOrderTerminalV1} :
    order.applyTerminal terminal = .ok next ↔
      order.terminalStatusMatches terminal = true ∧ order.place = .bound ∧
      order.venueOrder = some terminal.venueOrder ∧ terminal.cumulative = order.cumulative ∧
      order.original.value = terminal.cumulative.value + terminal.remaining.value ∧
      validTerminalTransition order.terminal terminal.status = true ∧ next = { order with
        terminal := some terminal.status
        cancelPending := false
        cancelUnknown := false } := by
  unfold applyTerminal
  simp only [bind_eq_ok, refuse_eq_ok, wrapError_eq_ok, checkedAdd_eq_ok_iff, not_or, not_not,
    pure_eq_ok, exists_const, Bool.not_eq_false]
  constructor
  · rintro ⟨⟨hst, hpl, hven, hcum⟩, total, htot, ⟨rfl, hval⟩, rfl⟩
    exact ⟨hst, hpl, hven.symm, hcum, htot, hval, rfl⟩
  · rintro ⟨hst, hpl, hven, hcum, htot, hval, rfl⟩
    exact ⟨⟨hst, hpl, hven.symm, hcum⟩, _, htot, ⟨rfl, hval⟩, rfl⟩

end RecoveredOwnedOrder

namespace PmJournalRecovery

open RecoveredOwnedOrder OrderedMap

/-! ### The projection -/

variable {s next : PmJournalRecovery} {client : PmClientOrderKey} {sequence : UInt64}
  {provenance : ResultProvenance}

theorem findOrder_eq_ok {order : RecoveredOwnedOrder} :
    s.findOrder client = .ok order ↔ s.Holds client order :=
  Outcome.okOr_eq_ok

/-- No other retained order is bound to the venue order. -/
theorem boundElsewhere_eq_false {venue : PmVenueOrderKey} :
    s.boundElsewhere client venue = false ↔ ∀ other order,
      s.Holds other order → order.venueOrder = some venue → other = client := by
  unfold boundElsewhere
  rw [List.any_eq_false]
  constructor
  · intro h other order hget hven
    have hnot := h (other, order) (mem_toList.mpr hget)
    by_contra hne
    exact hnot (by simp [hne, hven])
  · rintro h ⟨other, order⟩ hmem htrue
    obtain ⟨hne, hven⟩ : other ≠ client ∧ order.venueOrder = some venue := by simpa using htrue
    exact hne (h other order (mem_toList.mp hmem) hven)

theorem applyQuoteIntent_iff {intent : PmJournalQuoteIntentV1} :
    s.applyQuoteIntent intent sequence = .ok next ↔ s.lastIntentId < intent.intentId ∧
      s.ownedOrders[intent.clientOrder]? = none ∧
      (∀ other order, s.Holds other order → sameSlot order.intent intent = true →
          order.occupiesQuoteSlot = false) ∧
      s.ownedOrders.size ≠ maxPmJournalOwnedOrders ∧
      next = { s.setOrder intent.clientOrder (.ofIntent intent sequence) with
        orderOrder := s.orderOrder.insert intent.intentId intent.clientOrder
        lastIntentId := intent.intentId } := by
  have hslo : ¬ (s.ownedOrders.valueList.any fun order =>
        sameSlot order.intent intent && order.occupiesQuoteSlot) = true ↔
      ∀ other order, s.Holds other order →
        sameSlot order.intent intent = true → order.occupiesQuoteSlot = false := by
    rw [Bool.not_eq_true, List.any_eq_false]
    constructor
    · intro h other order hget hsame
      have hnot := h order (mem_valueList.mpr ⟨other, hget⟩)
      simpa [hsame] using hnot
    · intro h order hmem htrue
      obtain ⟨other, hget⟩ := mem_valueList.mp hmem
      obtain ⟨hsame, hocc⟩ := Bool.and_eq_true_iff.mp htrue
      rw [h other order hget hsame] at hocc
      cases hocc
  unfold applyQuoteIntent
  simp only [Outcome.bind_eq_ok, Outcome.refuse_eq_ok, exists_const, hslo, UInt64.not_le,
    Bool.not_eq_true, contains_eq_false_iff, Outcome.return_eq_ok, ne_eq]

theorem addPending_eq_ok {count : ℕ} :
    s.addPending count = .ok next ↔ s.pendingAckFillKeys + count < 2 ^ 64 ∧
      next = { s with pendingAckFillKeys := s.pendingAckFillKeys + count } := by
  unfold addPending
  rw [Outcome.expect_eq_ok]
  split_ifs with h
  · exact ⟨fun he => ⟨h, (some.inj he).symm⟩, fun he => he.2 ▸ rfl⟩
  · exact ⟨nofun, fun he => absurd he.1 h⟩

theorem resolvePending_true : s.resolvePending true = .ok next ↔ s.pendingAckFillKeys ≠ 0 ∧
      next = { s with pendingAckFillKeys := s.pendingAckFillKeys - 1 } := by
  unfold resolvePending
  rw [if_pos rfl, Outcome.expect_eq_ok]
  split_ifs with h
  · exact ⟨nofun, fun he => absurd h he.1⟩
  · exact ⟨fun he => ⟨h, (some.inj he).symm⟩, fun he => he.2 ▸ rfl⟩

theorem ensureFillKeyCapacity_eq_ok {additional : ℕ} {u : Unit} :
    s.ensureFillKeyCapacity additional = .ok u ↔
      s.fillKeys.size + s.pendingAckFillKeys + additional ≤ maxPmJournalFillKeys := by
  unfold ensureFillKeyCapacity
  rw [Outcome.refuse_eq_ok, not_lt]

/-- The number of missing fills that a place result adds. -/
def addedPending (result : PmJournalPlaceResultV1) : ℕ :=
  if result.outcome.bindsVenue then result.immediateFills.keys.length else 0

theorem applyPlaceResult_iff {result : PmJournalPlaceResultV1} :
    s.applyPlaceResult result provenance = .ok next ↔
      (∀ venue ∈ result.venueOrder, s.boundElsewhere result.clientOrder venue = false) ∧
      (result.outcome.bindsVenue = true → s.fillKeys.size + s.pendingAckFillKeys +
        result.immediateFills.keys.length ≤ maxPmJournalFillKeys) ∧
      (result.outcome.bindsVenue = true →
        s.pendingAckFillKeys + result.immediateFills.keys.length < 2 ^ 64) ∧
      ∃ order placed, s.Holds result.clientOrder order ∧ order.applyPlace result = .ok placed ∧
        next = { s.setOrder result.clientOrder (placed.markPlaceResult provenance) with
          pendingAckFillKeys := s.pendingAckFillKeys + addedPending result } := by
  unfold applyPlaceResult addedPending
  cases hbin : result.outcome.bindsVenue with
  | false =>
    simp only [Outcome.bind_eq_ok, Outcome.refuse_eq_ok, exists_const, findOrder_eq_ok,
      Outcome.ofExcept_eq_ok, Bool.false_eq_true, if_false, Outcome.return_eq_ok,
      false_implies, true_and, not_exists, not_and, Bool.not_eq_true, Nat.add_zero]
    simp only [eq_comm, exists_and_left]
    exact Iff.rfl
  | true =>
    simp only [Outcome.bind_eq_ok, Outcome.refuse_eq_ok, exists_const, findOrder_eq_ok,
      Outcome.ofExcept_eq_ok, if_true, ensureFillKeyCapacity_eq_ok, addPending_eq_ok,
      true_implies, not_exists, not_and, Bool.not_eq_true]
    constructor
    · rintro ⟨hven, hcap, order, hget, placed, hpl, hlt, rfl⟩
      exact ⟨hven, hcap, hlt, order, placed, hget, hpl, rfl⟩
    · rintro ⟨hven, hcap, hlt, order, placed, hget, hpl, rfl⟩
      exact ⟨hven, hcap, order, hget, placed, hpl, hlt, rfl⟩

theorem bindAmbiguous_iff {place : PmJournalAuthenticatedPlaceResultV1} :
    s.bindAuthenticatedAmbiguousVenue place = .ok next ↔ ∃ venue order,
        exactExpectedVenueOrder place.canonical.clientOrder place.expectedOrderId = some venue ∧
        s.boundElsewhere place.canonical.clientOrder venue = false ∧
        s.Holds place.canonical.clientOrder order ∧
        order.place = .unknown ∧ order.venueOrder = none ∧
        next = s.setOrder place.canonical.clientOrder
          { order with venueOrder := some venue } := by
  unfold bindAuthenticatedAmbiguousVenue
  simp only [Outcome.bind_eq_ok, Outcome.okOr_eq_ok, Outcome.refuse_eq_ok, exists_const,
    findOrder_eq_ok, Outcome.return_eq_ok, not_or, not_not, Bool.not_eq_true,
    isSome_eq_false_iff, isNone_iff_eq_none]
  constructor
  · rintro ⟨venue, hexa, helse, order, hget, ⟨hpl, hven⟩, rfl⟩
    exact ⟨venue, order, hexa, helse, hget, hpl, hven, rfl⟩
  · rintro ⟨venue, order, hexa, helse, hget, hpl, hven, rfl⟩
    exact ⟨venue, hexa, helse, order, hget, ⟨hpl, hven⟩, rfl⟩

theorem applyCancelIntent_iff {intent : PmJournalCancelIntentV1} :
    s.applyCancelIntent intent sequence = .ok next ↔ ∃ order changed,
      s.Holds intent.clientOrder order ∧
      order.applyCancelIntent intent sequence = .ok changed ∧
      next = s.setOrder intent.clientOrder changed := by
  unfold applyCancelIntent
  simp only [Outcome.bind_eq_ok, findOrder_eq_ok, Outcome.ofExcept_eq_ok, Outcome.return_eq_ok,
    exists_and_left]

theorem applyCancelResult_iff {result : PmJournalCancelResultV1} :
    s.applyCancelResult result provenance = .ok next ↔ ∃ order changed,
      s.Holds result.clientOrder order ∧
      order.applyCancel result provenance = .ok changed ∧
      next = s.setOrder result.clientOrder changed := by
  unfold applyCancelResult
  simp only [Outcome.bind_eq_ok, findOrder_eq_ok, Outcome.ofExcept_eq_ok, Outcome.return_eq_ok,
    exists_and_left]

/-- The projection after a fill that was accepted. -/
def withFill (s : PmJournalRecovery) (applied : PmJournalFillAppliedV1)
    (filled : RecoveredOwnedOrder) (pending : ℕ) : PmJournalRecovery :=
  { s.setOrder applied.fill.clientOrder filled with
    pendingAckFillKeys := pending
    fillKeys := s.fillKeys.insert applied.fill.key applied
    fillOrder := s.fillOrder.insert applied.occurrence.ownerSequence.value applied.fill.key
    observationOrder :=
      s.observationOrder.insert applied.occurrence.ownerSequence.value (.fillApplied applied)
    lastOwnedObservationSequence := applied.occurrence.ownerSequence.value }

theorem applyFill_iff {applied : PmJournalFillAppliedV1} : s.applyFill applied = .ok next ↔
      s.fillKeys[applied.fill.key]? = none ∧
      s.lastOwnedObservationSequence < applied.occurrence.ownerSequence.value ∧
      ∃ order filled, s.Holds applied.fill.clientOrder order ∧
        order.applyFill applied = .ok filled ∧ ((applied.fill.key ∈ order.pendingAckFills ∧
          s.fillKeys.size + s.pendingAckFillKeys ≤ maxPmJournalFillKeys ∧
          s.pendingAckFillKeys ≠ 0 ∧
          next = s.withFill applied filled (s.pendingAckFillKeys - 1)) ∨
        (applied.fill.key ∉ order.pendingAckFills ∧
          s.fillKeys.size + s.pendingAckFillKeys + 1 ≤ maxPmJournalFillKeys ∧
          next = s.withFill applied filled s.pendingAckFillKeys)) := by
  unfold applyFill checkOwnerSequence
  simp only [Outcome.bind_eq_ok, Outcome.refuse_eq_ok, exists_const, findOrder_eq_ok,
    Outcome.ofExcept_eq_ok, ensureFillKeyCapacity_eq_ok, UInt64.not_le, Bool.not_eq_true,
    contains_eq_false_iff, decide_eq_true_eq, Outcome.return_eq_ok]
  refine and_congr_right fun _ => and_congr_right fun _ => ?_
  constructor
  · rintro ⟨order, hget, hcap, filled, hfill, resolved, hres, rfl⟩
    refine ⟨order, filled, hget, hfill, ?_⟩
    by_cases hmem : applied.fill.key ∈ order.pendingAckFills
    · rw [decide_eq_true hmem, resolvePending_true] at hres
      obtain ⟨hne, rfl⟩ := hres
      rw [if_pos hmem] at hcap
      exact .inl ⟨hmem, hcap, hne, rfl⟩
    · rw [decide_eq_false hmem] at hres
      cases hres
      rw [if_neg hmem] at hcap
      exact .inr ⟨hmem, hcap, rfl⟩
  · rintro ⟨order, filled, hget, hfill, ⟨hmem, hcap, hne, rfl⟩ | ⟨hmem, hcap, rfl⟩⟩
    · refine ⟨order, hget, by rwa [if_pos hmem], filled, hfill,
        { s.setOrder applied.fill.clientOrder filled with
          pendingAckFillKeys := s.pendingAckFillKeys - 1 }, ?_, rfl⟩
      rw [decide_eq_true hmem, resolvePending_true]
      exact ⟨hne, rfl⟩
    · refine ⟨order, hget, by rwa [if_neg hmem], filled, hfill,
        s.setOrder applied.fill.clientOrder filled, ?_, rfl⟩
      rw [decide_eq_false hmem]
      rfl

theorem applyTerminal_iff {terminal : PmJournalOrderTerminalV1} :
    s.applyTerminal terminal = .ok next ↔
      s.lastOwnedObservationSequence < terminal.occurrence.ownerSequence.value ∧
      ∃ order changed, s.Holds terminal.clientOrder order ∧
        order.applyTerminal terminal = .ok changed ∧
        next = (s.setOrder terminal.clientOrder changed).observe (.orderTerminal terminal) := by
  unfold applyTerminal checkOwnerSequence
  simp only [Outcome.bind_eq_ok, Outcome.refuse_eq_ok, exists_const, findOrder_eq_ok,
    Outcome.ofExcept_eq_ok, UInt64.not_le, Outcome.return_eq_ok, exists_and_left]
  exact Iff.rfl

theorem applyFillWatermark_iff {watermark : PmJournalFillWatermarkV1} :
    s.applyFillWatermark watermark = .ok next ↔
      s.fillWatermark ≠ some watermark.cursor ∧ next = compactProvenTerminalOrders
        { s with fillWatermark := some watermark.cursor } := by
  unfold applyFillWatermark
  simp only [Outcome.bind_eq_ok, Outcome.refuse_eq_ok, exists_const, Outcome.return_eq_ok]

theorem applyAuthenticatedResult_iff {result : PmJournalAuthenticatedResultV1} :
    s.applyAuthenticatedResult result = .ok next ↔
      s.authenticatedResults[result.authResultSequence]? = none ∧
      s.expectedPrior result = .ok result.priorGoalFSequence ∧
      ∃ applied, s.applyCanonical result = .ok applied ∧
        next = { applied with authenticatedResults :=
          applied.authenticatedResults.insert result.authResultSequence result } := by
  unfold applyAuthenticatedResult
  simp only [Outcome.bind_eq_ok, Outcome.refuse_eq_ok, exists_const, Bool.not_eq_true,
    contains_eq_false_iff, not_not, Outcome.return_eq_ok]
  constructor
  · rintro ⟨hnew, prior, hpr, rfl, applied, happ, rfl⟩
    exact ⟨hnew, hpr, applied, happ, rfl⟩
  · rintro ⟨hnew, hpr, applied, happ, rfl⟩
    exact ⟨hnew, _, hpr, rfl, applied, happ, rfl⟩

end PmJournalRecovery

end Reap.Journal
