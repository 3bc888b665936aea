import Reap.Base.DenseIndex
import Reap.Owned.Lifecycle

/-!
# The owned-order lifecycle: its transitions

Every function here is one of the source's reducer, under the source's name. A function
that takes the record by mutable reference returns how it ended and the record it leaves,
also when it fails; `Outcome.panic` stands for an `expect`, an index out of bounds or a
failed conversion. Lookups that may abort return an `Option` whose `none` is the abort.

The assertions that only a debug build checks are left out.
-/

namespace Reap.Owned

open Base Reap.Core Reap.Order OwnedOrderEntry

/-- How a reducer call ends. -/
abbrev Reply := Outcome PmOwnedOrderLifecycleError

/-! ### Functions on one entry -/

/-- `slot_index`. -/
def slotIndex : PmOrderSide → Fin 2
  | .buy => 0
  | .sell => 1

/-- `same_quote`. -/
def sameQuote (left right : PmOwnedQuoteIntent) : Bool :=
  left.slot == right.slot && left.price == right.price && left.quantity == right.quantity &&
    left.reservation == right.reservation

/-- `remaining`, which aborts when more is filled than was ordered. -/
def remaining (entry : OwnedOrderEntry) : Option U256 :=
  (entry.original.checkedSub entry.cumulativeFilled).toOption

/-- `max_units`. -/
def maxUnits (left right : U256) : U256 :=
  match compare left right with
  | .lt => right
  | .eq | .gt => left

/-- A terminal order agrees. -/
def validateTerminalProgress (prior : OwnedOrderEntry) (incoming : PmOrderProgress) :
    Except PmOwnedOrderLifecycleError Unit :=
  match prior.status with
  | none => .ok ()
  | some status =>
    if status.isTerminal = false then
      if incoming.status = .pending ∨ incoming.status = .rejected then
        .error .terminalNonResurrection
      else .ok ()
    else
      match status, incoming.status with
      | .filled, .filled | .rejected, .rejected | .expired, .expired => .ok ()
      | .cancelled, .cancelled | .cancelled, .filled => .ok ()
      | _, _ => .error .terminalNonResurrection

/-- The order may be removed. -/
def entryCompactableThrough (entry : OwnedOrderEntry) (through : PmPrivateOccurrence) : Bool :=
  let observedAfterCut :=
    match entry.lastOccurrence.bind (·.privateOccurrence) with
    | some occurrence => decide (through < occurrence)
    | none => false
  entry.isTerminal && !entry.reconciliationRequired && !observedAfterCut &&
    !(entry.submit == .pending || entry.submit == .ambiguous) &&
    !(entry.cancel == .pending || entry.cancel == .ambiguous)

/-- The test of `compact_proven_terminal` and of its preflight. -/
def compactable (entry : OwnedOrderEntry) : Bool :=
  !(!entry.isTerminal || entry.reconciliationRequired ||
    (entry.submit == .pending || entry.submit == .ambiguous) ||
    (entry.cancel == .pending || entry.cancel == .ambiguous))

namespace OwnedOrderEntry

variable (generation : UInt64) (entry : OwnedOrderEntry) (cumulative : U256)

/-- An exact observation of a bound order proves that an ambiguous send became live. -/
def proveSubmitted : OwnedOrderEntry :=
  if entry.submit = .ambiguous ∧ entry.venueOrder.isSome = true then
    { entry with submit := .accepted }
  else entry

/-- A cancel that is under way, or accepted, has raced with the last fill. -/
def raceCancel : OwnedOrderEntry :=
  match entry.cancel with
  | .pending | .ambiguous | .accepted => { entry with cancel := .filledRace }
  | _ => entry

/-- The status of an order that is filled to the last unit: an expired order stays expired. -/
def markFilled : OwnedOrderEntry :=
  if entry.status ≠ some .expired then { entry with status := some .filled } else entry

variable (occurrence : PmOwnedObservationOccurrence)

/-- The filled quantity and the occurrence that a fill leaves. -/
def recordFill : OwnedOrderEntry :=
  { entry with
    cumulativeFilled := cumulative
    lastOccurrence := some (match entry.lastOccurrence with
      | none => occurrence
      | some prior => prior.causalMax occurrence) }

/-- Reconciliation is no longer required when `settled` holds. -/
def settleIf (settled : Bool) : OwnedOrderEntry :=
  if settled then { entry with reconciliationRequired := false } else entry

/-- The status, flag and cancel that the filled quantity implies. -/
def concludeFill : OwnedOrderEntry :=
  if cumulative = entry.original then
    (entry.markFilled.settleIf (entry.knownFillTotal == cumulative)).raceCancel
  else if cumulative.isZero = false ∧ entry.statusTerminal = false then
    { entry with status := some .partiallyFilled }
  else entry

/-- The entry that `advance_from_fill` leaves when the filled quantity is in bounds. -/
def advanceFromFill : OwnedOrderEntry :=
  ((entry.proveSubmitted.recordFill cumulative occurrence).concludeFill cumulative).settleIf
    (entry.knownFillTotal == cumulative &&
      (cumulative == entry.original || entry.lastProgress.isSome))

/-- The status ends the cancel. -/
def convergeCancelWithStatus : OwnedOrderEntry :=
  match entry.status with
  | some .filled => entry.raceCancel
  | some .cancelled =>
    match entry.cancel with
    | .pending | .ambiguous => { entry with cancel := .accepted }
    | _ => entry
  | _ => entry

/-- The entry that `observe_progress` leaves when it applies the observation. -/
def applyProgress (observation : PmOwnedOrderProgressObservation) : OwnedOrderEntry :=
  convergeCancelWithStatus { entry.proveSubmitted with
    cumulativeFilled := observation.progress.cumulativeFilled
    status := some observation.progress.status
    lastOccurrence := some observation.occurrence
    lastProgress := some (observation.occurrence, observation.progress)
    reconciliationRequired :=
      decide (observation.progress.cumulativeFilled ≠ entry.knownFillTotal) }

/-- What `begin_epoch` does to an entry. -/
def beginEpoch : OwnedOrderEntry :=
  if entry.isLive = false then entry
  else
    let entry := { entry with reconciliationRequired := true }
    if entry.submit = .pending then { entry with submit := .ambiguous } else entry

/-- What `mark_compactable_through` does to an entry. -/
def markCompactable (through : PmPrivateOccurrence) (entry : OwnedOrderEntry) : OwnedOrderEntry :=
  if entryCompactableThrough entry through then
    { entry with compactionGeneration := some generation }
  else entry

/-- What `clear_compaction_marks` does to an entry. -/
def clearMark : OwnedOrderEntry :=
  if entry.compactionGeneration = some generation then { entry with compactionGeneration := none }
  else entry

/-- What `clear_invalid_compaction_marks` does to an entry. -/
def clearInvalidMark (through : PmPrivateOccurrence) (entry : OwnedOrderEntry) : OwnedOrderEntry :=
  if entry.compactionGeneration = some generation ∧ entryCompactableThrough entry through = false then
    { entry with compactionGeneration := none }
  else entry

/-- The key of the client-order index. -/
def clientKey : Option PmClientOrderKey := some entry.clientOrder

/-- The key of the intent index. -/
def intentKey : Option PmOwnedIntentId := some entry.intent.intent

end OwnedOrderEntry

/-- The key of the fill ledger. -/
def OwnedFillEntry.fillKey (fill : OwnedFillEntry) : Option PmFillKey := some fill.key

namespace PmOwnedOrderLifecycle

/-! ### Lookups -/

variable (s : PmOwnedOrderLifecycle) (index : ℕ) (orderIndex : ℕ) (epoch : ConnectionEpoch)
  (intent : PmOwnedQuoteIntent) (client : PmClientOrderKey) (prior : OwnedOrderEntry)
  (venue : PmVenueOrderKey)

/-- `new`. -/
def new (accountScope : PmAccountScope) (instrument : PmInstrumentHandle) :
    PmOwnedOrderLifecycle where
  accountScope := accountScope
  instrument := instrument
  slots := fun _ => none
  entries := []
  clientOrderIndex := []
  intentIndex := []
  fills := []
  compactedIntentHighWatermark := none
  currentEpoch := none
  counters := {}

/-- The position in the index and the slot, or where to insert. -/
def searchClient : Option (Except ℕ (ℕ × ℕ)) :=
  searchSlot clientKey s.entries s.clientOrderIndex client

/-- `search_intent`. -/
def searchIntent (intent : PmOwnedIntentId) : Option (Except ℕ (ℕ × ℕ)) :=
  searchSlot intentKey s.entries s.intentIndex intent

/-- `find_client`, followed by the access to the entry it finds. -/
def findClient : Option (Option (ℕ × OwnedOrderEntry)) :=
  match s.searchClient client with
  | none => none
  | some (.error _) => some none
  | some (.ok (_, slot)) => s.entries[slot]?.map fun entry => some (slot, entry)

/-- `find_venue`, followed by the access to the entry it finds. -/
def findVenue : Option (Option (ℕ × OwnedOrderEntry)) :=
  match s.entries.findIdx? fun entry => entry.venueOrder == some venue with
  | none => some none
  | some slot => s.entries[slot]?.map fun entry => some (slot, entry)

/-- `search_fill`. -/
def searchFill (key : PmFillKey) : Option (Except ℕ ℕ) :=
  binarySearchByKey OwnedFillEntry.fillKey key s.fills

/-- The live order in the slot of a side, if there is one; it aborts when the slot points at
no retained order. -/
def liveQuote (side : PmOrderSide) : Option (Option (ℕ × OwnedOrderEntry)) :=
  match s.slots (slotIndex side) with
  | none => some none
  | some client =>
    match s.findClient client with
    | none | some none => none
    | some (some (index, current)) =>
      if current.isLive then some (some (index, current)) else some none

/-! ### Checks -/

/-- Count the contract violation and return the error. -/
def fail {α : Type} (s : PmOwnedOrderLifecycle) (error : PmOwnedOrderLifecycleError) :
    Reply α × PmOwnedOrderLifecycle :=
  (.err error, { s with counters :=
    { s.counters with contractViolations := bump s.counters.contractViolations } })

/-- `validate_epoch`, which is also the test of `restore_epoch_for_recovery`. -/
def validateEpoch : Except PmOwnedOrderLifecycleError Unit :=
  if epoch.value = 0 ∨ ∃ current ∈ s.currentEpoch, epoch ≤ current then
    .error .epochDidNotAdvance
  else .ok ()

/-- `validate_intent_scope`. -/
def validateIntentScope : Except PmOwnedOrderLifecycleError Unit :=
  if intent.slot.accountScope ≠ s.accountScope ∨ intent.slot.instrument ≠ s.instrument ∨
      intent.clientOrder.account ≠ s.accountScope.handle then
    .error .scopeMismatch
  else .ok ()

/-- `preflight_venue_binding`. -/
def preflightVenueBinding : Except PmOwnedOrderLifecycleError Unit :=
  if venue.account ≠ s.accountScope.handle ∨ (s.entries.any fun entry =>
        entry.venueOrder == some venue && entry.clientOrder != client) = true then
    .error .venueBindingConflict
  else .ok ()

variable (occurrence : PmOwnedObservationOccurrence)

/-- `validate_occurrence`. -/
def validateOccurrence : Except PmOwnedOrderLifecycleError Unit :=
  match occurrence.privateOccurrence with
  | none => .ok ()
  | some observed =>
    match s.currentEpoch with
    | none => .error .missingEpoch
    | some epoch =>
      if observed.epoch < epoch then .error .oldEpoch
      else if epoch < observed.epoch then .error .epochDidNotAdvance
      else .ok ()

/-! ### The dense history -/

/-- `insert_dense_order`. -/
def insertDenseOrder (clientPosition intentPosition : ℕ)
    (entry : OwnedOrderEntry) : Option PmOwnedOrderLifecycle :=
  match toU16 s.entries.length with
  | none => none
  | some denseIndex =>
  match insertAt s.clientOrderIndex clientPosition denseIndex,
    insertAt s.intentIndex intentPosition denseIndex with
  | some clientOrderIndex, some intentIndex =>
    some { s with
      entries := s.entries ++ [entry]
      clientOrderIndex := clientOrderIndex
      intentIndex := intentIndex }
  | _, _ => none

/-- The last takes its place. -/
def swapRemoveDenseOrder (clientPosition intentPosition denseIndex : ℕ) :
    Option PmOwnedOrderLifecycle :=
  if s.entries.length ≤ denseIndex then none
  else
  match unlist s.clientOrderIndex clientPosition denseIndex (s.entries.length - 1),
    unlist s.intentIndex intentPosition denseIndex (s.entries.length - 1) with
  | some clientOrderIndex, some intentIndex =>
    some { s with
      entries := swapRemove s.entries denseIndex
      clientOrderIndex := clientOrderIndex
      intentIndex := intentIndex }
  | _, _ => none

/-- The record with one entry replaced. -/
def setEntry (entry : OwnedOrderEntry) : PmOwnedOrderLifecycle :=
  { s with entries := s.entries.set index entry }

/-! ### Epochs -/

/-- `begin_epoch`. -/
def beginEpoch : Reply Unit × PmOwnedOrderLifecycle :=
  match s.validateEpoch epoch with
  | .error error => (.err error, s)
  | .ok () => (.ok (), { s with
      currentEpoch := some epoch
      entries := s.entries.map OwnedOrderEntry.beginEpoch
      counters := { s.counters with reconnects := bump s.counters.reconnects } })

/-- The epoch before a restart. -/
def restoreEpochForRecovery : Reply Unit × PmOwnedOrderLifecycle :=
  match s.validateEpoch epoch with
  | .error error => (.err error, s)
  | .ok () => (.ok (), { s with currentEpoch := some epoch })

/-! ### Admission -/

/-- `preflight_cancel_before_replace`, on the entry at the index. -/
def preflightCancelBeforeReplace (entry : OwnedOrderEntry) :
    Except PmOwnedOrderLifecycleError PmOwnedQuoteAdmission :=
  match entry.submit, entry.cancel, entry.venueOrder with
  | .pending, _, _ => .ok (.replacementBlocked entry.clientOrder .submitPending)
  | .ambiguous, _, _ => .ok (.replacementBlocked entry.clientOrder .submitAmbiguous)
  | .accepted, .ambiguous, _ => .ok (.replacementBlocked entry.clientOrder .cancelAmbiguous)
  | .accepted, .none, some venue | .accepted, .rejected, some venue
  | .accepted, .pending, some venue => .ok (.cancelBeforeReplace ⟨entry.clientOrder, venue⟩)
  | _, _, _ => .error .cancelUnavailable

/-- `cancel_before_replace`. -/
def cancelBeforeReplace (entry : OwnedOrderEntry) :
    Reply PmOwnedQuoteAdmission × PmOwnedOrderLifecycle :=
  match entry.submit, entry.cancel, entry.venueOrder with
  | .pending, _, _ => (.ok (.replacementBlocked entry.clientOrder .submitPending), s)
  | .ambiguous, _, _ => (.ok (.replacementBlocked entry.clientOrder .submitAmbiguous), s)
  | .accepted, .ambiguous, _ => (.ok (.replacementBlocked entry.clientOrder .cancelAmbiguous), s)
  | .accepted, .none, some venue | .accepted, .rejected, some venue
  | .accepted, .pending, some venue =>
    (.ok (.cancelBeforeReplace ⟨entry.clientOrder, venue⟩),
      { s.setEntry index { entry with cancel := .pending } with counters :=
        { s.counters with cancelBeforeReplace := bump s.counters.cancelBeforeReplace } })
  | _, _, _ => s.fail .cancelUnavailable

/-- The intent is at or below the high-watermark of the compacted intents. -/
def isCompacted (intent : PmOwnedIntentId) : Bool :=
  match s.compactedIntentHighWatermark with
  | none => false
  | some highWatermark => decide (intent ≤ highWatermark)

/-- Insert an admitted entry, point its slot at it and count it: the last step of
`admit_quote` and of `commit_preflighted_admit_quote`. -/
def insertAdmitted (clientPosition intentPosition : ℕ) (slot : Fin 2)
    (entry : OwnedOrderEntry) : Option PmOwnedOrderLifecycle :=
  (s.insertDenseOrder clientPosition intentPosition entry).map fun t =>
    { t with
      slots := Function.update t.slots slot (some entry.clientOrder)
      counters := { t.counters with admissions := bump t.counters.admissions } }

/-- What an admission does. -/
inductive PmOwnedQuoteAdmissionAction where
  | none
  | countDuplicateQuote
  | markCancelBeforeReplace (index : ℕ)
  | insert (clientPosition intentPosition : ℕ) (slot : Fin 2) (entry : OwnedOrderEntry)

/-- A planned admission. -/
structure PmOwnedQuoteAdmissionPlan where
  outcome : PmOwnedQuoteAdmission
  action : PmOwnedQuoteAdmissionAction

/-- `prepare_admit_quote`. -/
def prepareAdmitQuote : Reply PmOwnedQuoteAdmissionPlan :=
  match s.validateIntentScope intent with
  | .error error => .err error
  | .ok () =>
  match s.searchClient intent.clientOrder with
  | none => .panic
  | some (.ok (_, denseIndex)) =>
    match s.entries[denseIndex]? with
    | none => .panic
    | some entry =>
      if entry.intent = intent then .ok ⟨.duplicateIntent intent.clientOrder, .none⟩
      else .err .clientIdentityConflict
  | some (.error clientPosition) =>
  match s.searchIntent intent.intent with
  | none => .panic
  | some (.ok _) => .err .intentIdentityConflict
  | some (.error intentPosition) =>
  if s.isCompacted intent.intent then .err .compactedIntentIdentity
  else
  match s.liveQuote intent.slot.side with
  | none => .panic
  | some (some (index, current)) =>
    if sameQuote current.intent intent then
      .ok ⟨.duplicateQuote current.clientOrder, .countDuplicateQuote⟩
    else
      match preflightCancelBeforeReplace current with
      | .error error => .err error
      | .ok (.cancelBeforeReplace cancel) =>
        .ok ⟨.cancelBeforeReplace cancel, .markCancelBeforeReplace index⟩
      | .ok outcome => .ok ⟨outcome, .none⟩
  | some none =>
  if s.entries.length = maxPmOwnedOrderHistory then .err .orderCapacity
  else .ok ⟨.admitted intent.clientOrder,
    .insert clientPosition intentPosition (slotIndex intent.slot.side) (.admitted intent)⟩

/-- Carry out the plan. -/
def commitPreflightedAdmitQuote (plan : PmOwnedQuoteAdmissionPlan) :
    Reply PmOwnedQuoteAdmission × PmOwnedOrderLifecycle :=
  match plan.action with
  | .none => (.ok plan.outcome, s)
  | .countDuplicateQuote => (.ok plan.outcome, { s with counters :=
      { s.counters with duplicateQuotes := bump s.counters.duplicateQuotes } })
  | .markCancelBeforeReplace index =>
    match s.entries[index]? with
    | none => (.panic, s)
    | some entry => (.ok plan.outcome, { s.setEntry index { entry with cancel := .pending } with
        counters :=
          { s.counters with cancelBeforeReplace := bump s.counters.cancelBeforeReplace } })
  | .insert clientPosition intentPosition slot entry =>
    match s.insertAdmitted clientPosition intentPosition slot entry with
    | none => (.panic, s)
    | some t => (.ok plan.outcome, t)

/-- `admit_quote`. -/
def admitQuote : Reply PmOwnedQuoteAdmission × PmOwnedOrderLifecycle :=
  match s.validateIntentScope intent with
  | .error error => (.err error, s)
  | .ok () =>
  match s.searchClient intent.clientOrder with
  | none => (.panic, s)
  | some (.ok (_, denseIndex)) =>
    match s.entries[denseIndex]? with
    | none => (.panic, s)
    | some entry =>
      if entry.intent = intent then (.ok (.duplicateIntent intent.clientOrder), s)
      else s.fail .clientIdentityConflict
  | some (.error clientPosition) =>
  match s.searchIntent intent.intent with
  | none => (.panic, s)
  | some (.ok _) => s.fail .intentIdentityConflict
  | some (.error intentPosition) =>
  if s.isCompacted intent.intent then s.fail .compactedIntentIdentity
  else
  match s.liveQuote intent.slot.side with
  | none => (.panic, s)
  | some (some (index, current)) =>
    if sameQuote current.intent intent then
      (.ok (.duplicateQuote current.clientOrder), { s with counters :=
        { s.counters with duplicateQuotes := bump s.counters.duplicateQuotes } })
    else s.cancelBeforeReplace index current
  | some none =>
  if s.entries.length = maxPmOwnedOrderHistory then
    (.err .orderCapacity, { s with counters :=
      { s.counters with orderCapacityFailures := bump s.counters.orderCapacityFailures } })
  else
  match s.insertAdmitted clientPosition intentPosition (slotIndex intent.slot.side)
    (.admitted intent) with
  | none => (.panic, s)
  | some t => (.ok (.admitted intent.clientOrder), t)

/-! ### Submission -/

/-- `validate_venue_binding`, followed by what an accepted binding does. -/
def bindVenue (bound : Reply PmOwnedSubmitApply × PmOwnedOrderLifecycle) :
    Reply PmOwnedSubmitApply × PmOwnedOrderLifecycle :=
  match s.preflightVenueBinding client venue with
  | .error _ => s.fail .venueBindingConflict
  | .ok () => bound

/-- A repeated result for the venue order that is already bound. -/
def duplicateVenue : Reply PmOwnedSubmitApply × PmOwnedOrderLifecycle :=
  if prior.venueOrder = some venue then (.ok .duplicate, s) else s.fail .venueBindingConflict

/-- `apply_submit_result`. -/
def applySubmitResult
    (result : PmOwnedSubmitResult) : Reply PmOwnedSubmitApply × PmOwnedOrderLifecycle :=
  match s.findClient client with
  | none => (.panic, s)
  | some none => (.err .unknownClientOrder, s)
  | some (some (index, prior)) =>
  match prior.submit, result with
  | .pending, .accepted venue =>
    s.bindVenue client venue (.ok .accepted, { s.setEntry index { prior with
        venueOrder := some venue
        submit := .accepted
        status := some .open } with
      counters := { s.counters with submitAccepts := bump s.counters.submitAccepts } })
  | .ambiguous, .accepted venue =>
    s.bindVenue client venue (.ok .lateAccepted, { s.setEntry index { prior with
        venueOrder := some venue
        submit := .accepted
        status := some .open
        reconciliationRequired := false } with
      counters := { s.counters with submitAccepts := bump s.counters.submitAccepts } })
  | .pending, .rejected | .ambiguous, .rejected =>
    (.ok .rejected, { s.setEntry index { prior with
        submit := .rejected
        status := some .rejected
        reconciliationRequired := false } with
      counters := { s.counters with submitRejections := bump s.counters.submitRejections } })
  | .pending, .ambiguous =>
    (.ok .markedAmbiguous, { s.setEntry index { prior with
        submit := .ambiguous
        reconciliationRequired := true } with
      counters := { s.counters with submitAmbiguous := bump s.counters.submitAmbiguous } })
  | .pending, .ambiguousOwned venue =>
    s.bindVenue client venue (.ok .markedAmbiguous, { s.setEntry index { prior with
        venueOrder := some venue
        submit := .ambiguous
        reconciliationRequired := true } with
      counters := { s.counters with submitAmbiguous := bump s.counters.submitAmbiguous } })
  | .ambiguous, .ambiguous | .rejected, .rejected => (.ok .duplicate, s)
  | .ambiguous, .ambiguousOwned venue => s.duplicateVenue prior venue
  | .accepted, .accepted venue => s.duplicateVenue prior venue
  | .accepted, .ambiguousOwned venue => s.duplicateVenue prior venue
  | .accepted, _ => s.fail .invalidSubmitTransition
  | .rejected, _ => s.fail .terminalNonResurrection

/-! ### Fills -/

/-- `advance_from_fill`. -/
def advanceFromFill (cumulative : U256)
    (occurrence : PmOwnedObservationOccurrence) : Reply Unit × PmOwnedOrderLifecycle :=
  match s.entries[orderIndex]? with
  | none => (.panic, s)
  | some entry =>
  if entry.original < cumulative then s.fail .overfill
  else
    let counters := if entry.submit = .ambiguous ∧ entry.venueOrder.isSome = true then
      { s.counters with submitAccepts := bump s.counters.submitAccepts } else s.counters
    (.ok (), { s.setEntry orderIndex (entry.advanceFromFill cumulative occurrence) with
      counters := counters })

variable (observation : PmOwnedFillObservation)

/-- The reported cumulative quantity is below what is known, at an occurrence that is not
older than the last one. -/
def reportsBackwards : Bool :=
  match observation.reportedCumulative with
  | none => false
  | some cumulative => decide (cumulative < prior.cumulativeFilled) &&
      match prior.lastOccurrence with
      | none => true
      | some last => observation.occurrence.causalCmp last != .lt

/-- The reported cumulative quantity is above the original quantity. -/
def reportsOverfill : Bool :=
  match observation.reportedCumulative with
  | none => false
  | some cumulative => decide (prior.original < cumulative)

/-- An order and its remaining quantity, read back after a fill. -/
def readOrder : Option (OwnedOrderEntry × U256) :=
  match s.entries[index]? with
  | none => none
  | some order => (remaining order).map fun rest => (order, rest)

/-- `advance_from_fill`, then the counter and the reply read from the changed order: the end
of both branches of `observe_fill`. -/
def finishFill (cumulative : U256) (occurrence : PmOwnedObservationOccurrence)
    (count : PmOwnedLifecycleCounters → PmOwnedLifecycleCounters)
    (reply : OwnedOrderEntry → U256 → PmOwnedFillApply) :
    Reply PmOwnedFillApply × PmOwnedOrderLifecycle :=
  match s.advanceFromFill orderIndex cumulative occurrence with
  | (.panic, t) => (.panic, t)
  | (.err error, t) => (.err error, t)
  | (.ok (), t) =>
  match t.readOrder orderIndex with
  | none => (.panic, t)
  | some (order, rest) => (.ok (reply order rest), { t with counters := count t.counters })

/-- A fill leg that is already in the ledger. -/
def observeKnownFill (fillIndex : ℕ) (observation : PmOwnedFillObservation) :
    Reply PmOwnedFillApply × PmOwnedOrderLifecycle :=
  match s.fills[fillIndex]? with
  | none => (.panic, s)
  | some priorFill =>
  if priorFill.clientOrder ≠ prior.clientOrder ∨ priorFill.quantity ≠ observation.quantity then
    s.fail .fillConflict
  else
  let nextCumulative := maxUnits prior.cumulativeFilled
    (observation.reportedCumulative.getD prior.cumulativeFilled)
  let sourceAdded := priorFill.sources &&& observation.source.bit == 0
  let cumulativeAdvanced := decide (prior.cumulativeFilled < nextCumulative)
  let fill := { priorFill with
    sources := priorFill.sources ||| observation.source.bit
    lastOccurrence := priorFill.lastOccurrence.causalMax observation.occurrence }
  ({ s with fills := s.fills.set fillIndex fill }).finishFill orderIndex nextCumulative
    observation.occurrence (fun c => { c with fillDuplicates := bump c.fillDuplicates })
    fun order rest =>
      .duplicate order.clientOrder order.cumulativeFilled rest sourceAdded cumulativeAdvanced

/-- A fill leg that is new to the ledger. -/
def observeNewFill (fillIndex : ℕ) (observation : PmOwnedFillObservation) :
    Reply PmOwnedFillApply × PmOwnedOrderLifecycle :=
  if s.fills.length = maxPmOwnedFillKeys then
    (.err .fillCapacity, { s with counters :=
      { s.counters with fillCapacityFailures := bump s.counters.fillCapacityFailures } })
  else
  match prior.knownFillTotal.checkedAdd observation.quantity.protocolUnits with
  | .error _ => s.fail .arithmeticOverflow
  | .ok knownFillTotal =>
  if prior.original < knownFillTotal then s.fail .overfill
  else
  let nextCumulative := maxUnits (maxUnits prior.cumulativeFilled knownFillTotal)
    (observation.reportedCumulative.getD U256.zero)
  let fill : OwnedFillEntry := {
    key := observation.key
    clientOrder := prior.clientOrder
    quantity := observation.quantity
    sources := observation.source.bit
    firstOccurrence := observation.occurrence
    lastOccurrence := observation.occurrence }
  match insertAt s.fills fillIndex fill with
  | none => (.panic, s)
  | some fills =>
    ({ s.setEntry orderIndex { prior with knownFillTotal := knownFillTotal } with
        fills := fills }).finishFill orderIndex nextCumulative observation.occurrence
      (fun c => { c with fills := bump c.fills })
      fun order rest => .applied order.clientOrder order.cumulativeFilled rest

/-- `observe_fill`. -/
def observeFill : Reply PmOwnedFillApply × PmOwnedOrderLifecycle :=
  match s.validateOccurrence observation.occurrence with
  | .error .oldEpoch => (.ok .ignoredOldEpoch, s)
  | .error error => (.err error, s)
  | .ok () =>
  match s.findVenue observation.key.venueOrder with
  | none => (.panic, s)
  | some none => (.err .unboundVenueOrder, s)
  | some (some (orderIndex, prior)) =>
  if prior.submit = .rejected then s.fail .terminalNonResurrection
  else if reportsOverfill prior observation then s.fail .overfill
  else if reportsBackwards prior observation then s.fail .backwardsCumulative
  else
  match s.searchFill observation.key with
  | none => (.panic, s)
  | some (.ok fillIndex) => s.observeKnownFill orderIndex prior fillIndex observation
  | some (.error fillIndex) => s.observeNewFill orderIndex prior fillIndex observation

/-! ### Remote observations -/

/-- An observation is older than the last one of an entry. -/
def isOutOfOrder : Bool :=
  match prior.lastOccurrence with
  | none => false
  | some last => occurrence.causalCmp last == .lt

/-- `observe_progress`. -/
def observeProgress (observation : PmOwnedOrderProgressObservation) :
    Reply PmOwnedProgressApply × PmOwnedOrderLifecycle :=
  match s.validateOccurrence observation.occurrence with
  | .error .oldEpoch => (.ok .ignoredOutOfOrder, s)
  | .error error => (.err error, s)
  | .ok () =>
  match s.findClient observation.clientOrder with
  | none => (.panic, s)
  | some none => (.err .unknownClientOrder, s)
  | some (some (index, prior)) =>
  if prior.venueOrder ≠ some observation.venueOrder then s.fail .venueBindingConflict
  else if observation.progress.originalQuantity ≠ prior.intent.quantity then
    s.fail .progressOriginalMismatch
  else if isOutOfOrder prior observation.occurrence then (.ok .ignoredOutOfOrder, s)
  else
  let sameOccurrence := match prior.lastProgress with
    | some (occurrence, progress) =>
      if occurrence = observation.occurrence then some progress else none
    | none => none
  match sameOccurrence with
  | some progress =>
    if progress = observation.progress then (.ok .duplicate, s)
    else s.fail .sameOccurrenceConflict
  | none =>
  let cumulative := observation.progress.cumulativeFilled
  if cumulative < prior.cumulativeFilled ∨ cumulative < prior.knownFillTotal then
    s.fail .backwardsCumulative
  else
  match validateTerminalProgress prior observation.progress with
  | .error error => (.err error, s)
  | .ok () =>
  let counters := if prior.submit = .ambiguous ∧ prior.venueOrder.isSome = true then
    { s.counters with submitAccepts := bump s.counters.submitAccepts } else s.counters
  let entry := prior.applyProgress observation
  let t := { s.setEntry index entry with counters := counters }
  match remaining entry with
  | none => (.panic, t)
  | some rest => (.ok (.applied observation.progress.status cumulative rest), t)

/-- `match_remote_order`. -/
def matchRemoteOrder (identity : PmOrderIdentity) : Option PmOwnedRemoteOrderApply :=
  match identity.clientOrderKey, identity.venueOrderKey with
  | some client, some venue =>
    match s.findClient client with
    | none => none
    | some none => some .ambiguousRemote
    | some (some (_, entry)) =>
      if entry.venueOrder = some venue then some (.matched client) else some .ambiguousRemote
  | none, some venue =>
    match s.findVenue venue with
    | none => none
    | some none => some .ambiguousRemote
    | some (some (_, entry)) => some (.matched entry.clientOrder)
  | some client, none =>
    match s.findClient client with
    | none => none
    | some none => some .ambiguousRemote
    | some (some _) => some (.matched client)
  | none, none => none

/-- `observe_remote_order`. -/
def observeRemoteOrder (identity : PmOrderIdentity) :
    Reply PmOwnedRemoteOrderApply × PmOwnedOrderLifecycle :=
  match s.matchRemoteOrder identity with
  | none => (.panic, s)
  | some (.matched client) => (.ok (.matched client), s)
  | some .ambiguousRemote =>
    match identity.clientOrderKey with
    | none => (.ok .ambiguousRemote, s)
    | some client =>
      match s.findClient client with
      | none => (.panic, s)
      | some none => (.ok .ambiguousRemote, s)
      | some (some (index, entry)) =>
        (.ok .ambiguousRemote, s.setEntry index { entry with reconciliationRequired := true })

/-- `observe_detail_absence`. -/
def observeDetailAbsence : Reply PmOwnedDetailAbsenceApply × PmOwnedOrderLifecycle :=
  match s.validateOccurrence occurrence with
  | .error .oldEpoch => (.ok .ignoredOutOfOrder, s)
  | .error error => (.err error, s)
  | .ok () =>
  match s.findVenue venue with
  | none => (.panic, s)
  | some none => (.ok .unmatched, s)
  | some (some (index, prior)) =>
  if isOutOfOrder prior occurrence then (.ok .ignoredOutOfOrder, s)
  else if prior.submit ≠ .accepted ∨ prior.cancel ≠ .accepted ∨
      prior.status ≠ some .cancelled ∨ prior.cumulativeFilled.isZero = false ∨
      prior.knownFillTotal.isZero = false then
    (.ok .unsafeToSettle, s)
  else
    (.ok (.settledAcceptedCancel prior.clientOrder), s.setEntry index { prior with
      reconciliationRequired := false
      lastOccurrence := some occurrence })

/-! ### Cancellation -/

/-- `request_cancel`. -/
def requestCancel : Reply PmOwnedCancelRequestApply × PmOwnedOrderLifecycle :=
  match s.findClient client with
  | none => (.panic, s)
  | some none => (.err .unknownClientOrder, s)
  | some (some (index, entry)) =>
  if entry.isTerminal then (.ok .alreadyTerminal, s)
  else if entry.submit ≠ .accepted ∧
      ¬ (entry.submit = .ambiguous ∧ entry.venueOrder.isSome = true) then
    s.fail .cancelUnavailable
  else
  match entry.venueOrder with
  | none => (.err .cancelUnavailable, s)
  | some venue =>
  match entry.cancel with
  | .none | .rejected =>
    (.ok (.issued ⟨client, venue⟩), { s.setEntry index { entry with cancel := .pending } with
      counters := { s.counters with cancelRequests := bump s.counters.cancelRequests } })
  | .pending => (.ok (.duplicate ⟨client, venue⟩), s)
  | .ambiguous => s.fail .cancelUnavailable
  | .accepted | .filledRace => (.ok .alreadyTerminal, s)

/-- `preflight_cancel_result`. -/
def preflightCancelResult (intent : PmOwnedCancelIntent)
    (outcome : PmOwnedCancelOutcome) : Reply PmOwnedCancelApply :=
  match s.findClient intent.clientOrder with
  | none => .panic
  | some none => .err .unknownClientOrder
  | some (some (_, prior)) =>
  if prior.venueOrder ≠ some intent.venueOrder then .err .venueBindingConflict
  else if prior.status = some .filled ∧ prior.cancel = .filledRace then .ok .convergedFilled
  else if prior.cancel ≠ .pending ∧ prior.cancel ≠ .ambiguous then
    if prior.isTerminal then .ok .duplicate else .err .cancelResultWithoutIntent
  else
  match outcome with
  | .accepted => if prior.status = some .filled then .ok .convergedFilled else .ok .cancelled
  | .rejected => if prior.status = some .filled then .ok .convergedFilled else .ok .rejected
  | .alreadyFilled => .ok .filled
  | .ambiguous => if prior.status = some .filled then .ok .convergedFilled else .ok .markedAmbiguous

/-- The reply of a cancel result that meets a filled order, or else the given one. -/
def convergedOr (reply : PmOwnedCancelApply) : PmOwnedCancelApply :=
  if prior.status = some .filled then .convergedFilled else reply

end PmOwnedOrderLifecycle

/-- The entry that `apply_cancel_result` leaves for a pending or ambiguous cancel. -/
def OwnedOrderEntry.applyCancelOutcome (prior : OwnedOrderEntry) :
    PmOwnedCancelOutcome → OwnedOrderEntry
  | .accepted =>
    let entry := prior.proveSubmitted
    if prior.status = some .filled then { entry with cancel := .filledRace }
    else { entry with
      status := some .cancelled
      cancel := .accepted
      reconciliationRequired := true }
  | .rejected =>
    if prior.status = some .filled then { prior with cancel := .filledRace }
    else { prior with cancel := .rejected }
  | .alreadyFilled => { prior with
      cumulativeFilled := prior.original
      status := some .filled
      cancel := .filledRace
      reconciliationRequired := decide (prior.knownFillTotal ≠ prior.original) }
  | .ambiguous =>
    if prior.status = some .filled then { prior with cancel := .filledRace }
    else { prior with
      cancel := .ambiguous
      reconciliationRequired := true }

namespace PmOwnedOrderLifecycle

variable (s : PmOwnedOrderLifecycle) (generation : UInt64)

/-- The reply of `apply_cancel_result` for a pending or ambiguous cancel. -/
def cancelReply (prior : OwnedOrderEntry) : PmOwnedCancelOutcome → PmOwnedCancelApply
  | .accepted => convergedOr prior .cancelled
  | .rejected => convergedOr prior .rejected
  | .alreadyFilled => .filled
  | .ambiguous => convergedOr prior .markedAmbiguous

/-- `apply_cancel_result`. -/
def applyCancelResult (intent : PmOwnedCancelIntent)
    (outcome : PmOwnedCancelOutcome) : Reply PmOwnedCancelApply × PmOwnedOrderLifecycle :=
  match s.preflightCancelResult intent outcome with
  | .panic => (.panic, s)
  | .err error => (.err error, s)
  | .ok _ =>
  match s.findClient intent.clientOrder with
  | none => (.panic, s)
  | some none => (.err .unknownClientOrder, s)
  | some (some (index, prior)) =>
  let counted := { s.counters with cancelResults := bump s.counters.cancelResults }
  if prior.venueOrder ≠ some intent.venueOrder then s.fail .venueBindingConflict
  else if prior.status = some .filled ∧ prior.cancel = .filledRace then
    (.ok .convergedFilled, { s with counters := counted })
  else if prior.cancel ≠ .pending ∧ prior.cancel ≠ .ambiguous then
    if prior.isTerminal then (.ok .duplicate, s) else s.fail .cancelResultWithoutIntent
  else
    -- an accepted cancel of an ambiguous send also counts the submission
    let counters := if outcome = .accepted ∧ prior.submit = .ambiguous ∧
        prior.venueOrder.isSome = true then
      { counted with submitAccepts := bump counted.submitAccepts } else counted
    (.ok (cancelReply prior outcome), { s.setEntry index (prior.applyCancelOutcome outcome) with
      counters := counters })

/-! ### Compaction -/

/-- Forget a closed order. -/
def compactProvenTerminal (client : PmClientOrderKey) :
    Reply PmOwnedTerminalCompaction × PmOwnedOrderLifecycle :=
  match s.searchClient client with
  | none => (.panic, s)
  | some (.error _) => (.err .unknownClientOrder, s)
  | some (.ok (canonicalPosition, index)) =>
  match s.entries[index]? with
  | none => (.panic, s)
  | some entry =>
  match s.searchIntent entry.intent.intent with
  | none | some (.error _) => (.panic, s)
  | some (.ok (intentPosition, _)) =>
  if compactable entry = false then s.fail .terminalCompactionUnavailable
  else
  let slot := slotIndex entry.side
  let slots := if s.slots slot = some client then Function.update s.slots slot none else s.slots
  match ({ s with slots := slots }).swapRemoveDenseOrder canonicalPosition intentPosition index with
  | none => (.panic, s)
  | some t =>
    let fills := t.fills.filter fun fill => fill.clientOrder ≠ client
    (.ok ⟨client, entry.intent.intent, t.fills.length - fills.length⟩, { t with
      fills := fills
      compactedIntentHighWatermark := some (match t.compactedIntentHighWatermark with
        | none => entry.intent.intent
        | some prior => max prior entry.intent.intent)
      counters := { t.counters with terminalCompactions := bump t.counters.terminalCompactions } })

/-- How many entries it marks, and the record it leaves. -/
def markCompactableThrough (through : PmPrivateOccurrence) : ℕ × PmOwnedOrderLifecycle :=
  (s.entries.countP fun entry => entryCompactableThrough entry through,
    { s with entries := s.entries.map (markCompactable generation through) })

/-- No order is marked. -/
def clearCompactionMarks : PmOwnedOrderLifecycle :=
  { s with entries := s.entries.map (clearMark generation) }

/-- Remove marks that lapsed. -/
def clearInvalidCompactionMarks (through : PmPrivateOccurrence) : PmOwnedOrderLifecycle :=
  { s with entries := s.entries.map (clearInvalidMark generation through) }

end PmOwnedOrderLifecycle

end Reap.Owned
