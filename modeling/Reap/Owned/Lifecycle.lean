import Reap.Base.Run
import Reap.Order.Reservation

/-!
# The owned-order lifecycle: its data

An account that quotes an instrument keeps a record of every order it has sent: the quote
behind it, what is known of the submission, the venue's status, how much is filled, and how
far a cancellation has come. This module has the data types of that record and of the
observations that change it; `Reap.Owned.Reducer` has the transitions.
-/

namespace Reap.Owned

open Reap.Core Reap.Order

/-- At most this many orders. -/
def maxPmOwnedOrderHistory : ℕ := 1024

/-- At most this many. -/
def maxPmOwnedFillKeys : ℕ := 8192

/-! ### Errors -/

/-- Why a call is refused. -/
inductive PmOwnedOrderLifecycleError where
  | zeroIntentIdentity
  | zeroReductionSequence
  | snapshotWithoutPrivateOccurrence
  | scopeMismatch
  | invalidReservation
  | clientIdentityConflict
  | intentIdentityConflict
  | compactedIntentIdentity
  | venueBindingConflict
  | unknownClientOrder
  | unboundVenueOrder
  | invalidSubmitTransition
  | terminalNonResurrection
  | fillConflict
  | fillCumulativeBelowQuantity
  | overfill
  | backwardsCumulative
  | progressOriginalMismatch
  | sameOccurrenceConflict
  | cancelUnavailable
  | cancelResultWithoutIntent
  | terminalCompactionUnavailable
  | missingEpoch
  | epochDidNotAdvance
  | oldEpoch
  | orderCapacity
  | fillCapacity
  | arithmeticOverflow
  deriving DecidableEq, Repr

/-! ### Occurrences -/

/-- The nonzero position of a mutation in the owner's order. -/
structure PmOwnedReductionSequence where
  value : UInt64
  ne_zero : value ≠ 0

theorem PmOwnedReductionSequence.toNat_injective :
    Function.Injective fun sequence : PmOwnedReductionSequence => sequence.value.toNat := by
  rintro ⟨a, _⟩ ⟨b, _⟩ h
  cases UInt64.toNat_inj.mp h
  rfl

instance : DecidableEq PmOwnedReductionSequence := PmOwnedReductionSequence.toNat_injective.decidableEq

instance : LinearOrder PmOwnedReductionSequence :=
  LinearOrder.lift' (fun sequence => sequence.value.toNat) PmOwnedReductionSequence.toNat_injective

/-- When the owner reduced an observation, and the venue's
own evidence of it where there is one. -/
structure PmOwnedObservationOccurrence where
  reductionSequence : PmOwnedReductionSequence
  privateOccurrence : Option PmPrivateOccurrence
  snapshotRevision : Option SnapshotRevision
  snapshot_private : ¬ (snapshotRevision.isSome = true ∧ privateOccurrence.isNone = true)
  deriving DecidableEq

namespace PmOwnedObservationOccurrence

variable (a b : PmOwnedObservationOccurrence)

/-- Two private observations compare by the venue's order, anything else by
the owner's. This is no linear order. -/
def causalCmp : Ordering :=
  match a.privateOccurrence, b.privateOccurrence with
  | some left, some right => compare left right
  | _, _ => compare a.reductionSequence b.reductionSequence

/-- `causal_max`. -/
def causalMax : PmOwnedObservationOccurrence :=
  match a.causalCmp b with
  | .lt => b
  | .eq | .gt => a

/-- `with_private_context`. -/
def withPrivateContext (a : PmOwnedObservationOccurrence) (occurrence : PmPrivateOccurrence)
    (revision : Option SnapshotRevision) : PmOwnedObservationOccurrence :=
  ⟨a.reductionSequence, some occurrence, revision, nofun⟩

/-- `with_reduction_sequence`. -/
def withReductionSequence (a : PmOwnedObservationOccurrence) (sequence : PmOwnedReductionSequence) :
    PmOwnedObservationOccurrence :=
  { a with reductionSequence := sequence }

/-- From one occurrence. -/
def sameSourceOccurrence : Bool :=
  match a.privateOccurrence, b.privateOccurrence with
  | some left, some right => left == right && a.snapshotRevision == b.snapshotRevision
  | none, none => a.reductionSequence == b.reductionSequence
  | _, _ => false

end PmOwnedObservationOccurrence

/-! ### Quotes -/

/-- The nonzero identity of a local intent. -/
structure PmOwnedIntentId where
  value : UInt64
  ne_zero : value ≠ 0

theorem PmOwnedIntentId.toNat_injective :
    Function.Injective fun intent : PmOwnedIntentId => intent.value.toNat := by
  rintro ⟨a, _⟩ ⟨b, _⟩ h
  cases UInt64.toNat_inj.mp h
  rfl

instance : DecidableEq PmOwnedIntentId := PmOwnedIntentId.toNat_injective.decidableEq

instance : LinearOrder PmOwnedIntentId :=
  LinearOrder.lift' (fun intent => intent.value.toNat) PmOwnedIntentId.toNat_injective

/-- One side of one instrument of one account. -/
structure PmOwnedQuoteSlotKey where
  accountScope : PmAccountScope
  instrument : PmInstrumentHandle
  side : PmOrderSide
  deriving DecidableEq

/-- A quote to be placed, with a reservation that covers it. -/
@[ext] structure PmOwnedQuoteIntent where
  intent : PmOwnedIntentId
  slot : PmOwnedQuoteSlotKey
  clientOrder : PmClientOrderKey
  price : PmPrice
  quantity : PmQuantity
  reservation : PmExactReservation
  scope : clientOrder.account = slot.accountScope.handle
  policy : reservation.basis = .policyApprovedWorstCase
  covered : reservation.validateFor slot.side price quantity = .ok reservation

instance : DecidableEq PmOwnedQuoteIntent := fun _ _ =>
  decidable_of_iff' _ PmOwnedQuoteIntent.ext_iff

/-- `PmOwnedSubmitState`. -/
inductive PmOwnedSubmitState where
  | pending
  | accepted
  | rejected
  | ambiguous
  deriving DecidableEq, Repr

/-- `PmOwnedCancelState`. -/
inductive PmOwnedCancelState where
  | none
  | pending
  | rejected
  | accepted
  | ambiguous
  | filledRace
  deriving DecidableEq, Repr

/-- Where it was observed. -/
inductive PmOwnedObservationSource where
  | immediateAcknowledgement
  | privateWebSocket
  | restReconciliation
  deriving DecidableEq, Repr

/-- `bit`. -/
def PmOwnedObservationSource.bit : PmOwnedObservationSource → UInt8
  | .immediateAcknowledgement => 1
  | .privateWebSocket => 2
  | .restReconciliation => 4

/-- The exact order a cancel is meant for. -/
structure PmOwnedCancelIntent where
  clientOrder : PmClientOrderKey
  venueOrder : PmVenueOrderKey
  deriving DecidableEq

/-- Why it cannot be replaced. -/
inductive PmOwnedReplacementBlock where
  | submitPending
  | submitAmbiguous
  | cancelAmbiguous
  deriving DecidableEq, Repr

/-- How a quote is admitted. -/
inductive PmOwnedQuoteAdmission where
  | admitted (client : PmClientOrderKey)
  | duplicateIntent (client : PmClientOrderKey)
  | duplicateQuote (client : PmClientOrderKey)
  | cancelBeforeReplace (intent : PmOwnedCancelIntent)
  | replacementBlocked (current : PmClientOrderKey) (reason : PmOwnedReplacementBlock)
  deriving DecidableEq

/-- What came back from a submission. -/
inductive PmOwnedSubmitResult where
  | accepted (venue : PmVenueOrderKey)
  | rejected
  | ambiguous
  /-- The send proves the deterministic venue identity, while the acknowledgement is
  inconclusive. -/
  | ambiguousOwned (venue : PmVenueOrderKey)
  deriving DecidableEq

/-- `PmOwnedSubmitApply`. -/
inductive PmOwnedSubmitApply where
  | accepted
  | lateAccepted
  | rejected
  | markedAmbiguous
  | duplicate
  deriving DecidableEq, Repr

/-- A fill, as reported. -/
structure PmOwnedFillObservation where
  key : PmFillKey
  quantity : PmQuantity
  reportedCumulative : Option U256
  occurrence : PmOwnedObservationOccurrence
  source : PmOwnedObservationSource
  reported_ge : ∀ cumulative ∈ reportedCumulative, quantity.protocolUnits ≤ cumulative
  deriving DecidableEq

/-- `PmOwnedFillApply`. -/
inductive PmOwnedFillApply where
  | applied (client : PmClientOrderKey) (cumulativeFilled remaining : U256)
  | duplicate (client : PmClientOrderKey) (cumulativeFilled remaining : U256)
      (sourceAdded cumulativeAdvanced : Bool)
  | ignoredOldEpoch
  deriving DecidableEq

/-- Observed progress of an order. -/
structure PmOwnedOrderProgressObservation where
  clientOrder : PmClientOrderKey
  venueOrder : PmVenueOrderKey
  progress : PmOrderProgress
  occurrence : PmOwnedObservationOccurrence
  source : PmOwnedObservationSource
  deriving DecidableEq

/-- What progress did. -/
inductive PmOwnedProgressApply where
  | applied (status : PmOrderStatus) (cumulativeFilled remaining : U256)
  | duplicate
  | ignoredOutOfOrder
  deriving DecidableEq

/-- What a report did. -/
inductive PmOwnedRemoteOrderApply where
  | matched (client : PmClientOrderKey)
  | ambiguousRemote
  deriving DecidableEq

/-- What an absence did. -/
inductive PmOwnedDetailAbsenceApply where
  | settledAcceptedCancel (client : PmClientOrderKey)
  | unmatched
  | unsafeToSettle
  | ignoredOutOfOrder
  deriving DecidableEq

/-- What a request did. -/
inductive PmOwnedCancelRequestApply where
  | issued (intent : PmOwnedCancelIntent)
  | duplicate (intent : PmOwnedCancelIntent)
  | alreadyTerminal
  deriving DecidableEq

/-- What came back from a cancellation. -/
inductive PmOwnedCancelOutcome where
  | accepted
  | rejected
  | alreadyFilled
  | ambiguous
  deriving DecidableEq, Repr

/-- `PmOwnedCancelApply`. -/
inductive PmOwnedCancelApply where
  | cancelled
  | rejected
  | filled
  | markedAmbiguous
  | convergedFilled
  | duplicate
  deriving DecidableEq, Repr

/-- What was removed. -/
structure PmOwnedTerminalCompaction where
  clientOrder : PmClientOrderKey
  intent : PmOwnedIntentId
  fillKeysRemoved : ℕ
  deriving DecidableEq

/-! ### The retained records -/

/-- What is known of one owned order. -/
structure OwnedOrderEntry where
  intent : PmOwnedQuoteIntent
  venueOrder : Option PmVenueOrderKey
  submit : PmOwnedSubmitState
  status : Option PmOrderStatus
  cumulativeFilled : U256
  knownFillTotal : U256
  cancel : PmOwnedCancelState
  reconciliationRequired : Bool
  compactionGeneration : Option UInt64
  lastOccurrence : Option PmOwnedObservationOccurrence
  lastProgress : Option (PmOwnedObservationOccurrence × PmOrderProgress)

namespace OwnedOrderEntry

section

variable (entry : OwnedOrderEntry)

/-- The client order an entry is about. -/
def clientOrder : PmClientOrderKey := entry.intent.clientOrder

/-- The side an entry quotes. -/
def side : PmOrderSide := entry.intent.slot.side

/-- The original quantity of an entry. -/
def original : U256 := entry.intent.quantity.protocolUnits

/-- The status is there and terminal. -/
def statusTerminal : Bool :=
  match entry.status with
  | some status => status.isTerminal
  | none => false

/-- `is_terminal`. -/
def isTerminal : Bool :=
  entry.submit == .rejected || entry.statusTerminal

/-- `is_live`. -/
def isLive : Bool := !entry.isTerminal

/-- The entry of a quote that has just been admitted. -/
def admitted (intent : PmOwnedQuoteIntent) : OwnedOrderEntry where
  intent := intent
  venueOrder := none
  submit := .pending
  status := none
  cumulativeFilled := U256.zero
  knownFillTotal := U256.zero
  cancel := .none
  reconciliationRequired := false
  compactionGeneration := none
  lastOccurrence := none
  lastProgress := none

end

theorem isTerminal_iff {entry : OwnedOrderEntry} :
    entry.isTerminal = true ↔ entry.submit = .rejected ∨ entry.statusTerminal = true := by
  simp [isTerminal]

end OwnedOrderEntry

/-- One fill leg attributed to an owned order. -/
structure OwnedFillEntry where
  key : PmFillKey
  clientOrder : PmClientOrderKey
  quantity : PmQuantity
  sources : UInt8
  firstOccurrence : PmOwnedObservationOccurrence
  lastOccurrence : PmOwnedObservationOccurrence
  deriving DecidableEq

/-- What is counted. -/
structure PmOwnedLifecycleCounters where
  admissions : UInt64 := 0
  duplicateQuotes : UInt64 := 0
  cancelBeforeReplace : UInt64 := 0
  submitAccepts : UInt64 := 0
  submitRejections : UInt64 := 0
  submitAmbiguous : UInt64 := 0
  fills : UInt64 := 0
  fillDuplicates : UInt64 := 0
  cancelRequests : UInt64 := 0
  cancelResults : UInt64 := 0
  reconnects : UInt64 := 0
  terminalCompactions : UInt64 := 0
  contractViolations : UInt64 := 0
  orderCapacityFailures : UInt64 := 0
  fillCapacityFailures : UInt64 := 0
  deriving DecidableEq

/-- The owner's record. -/
structure PmOwnedOrderLifecycle where
  accountScope : PmAccountScope
  instrument : PmInstrumentHandle
  /-- The current order of each side. -/
  slots : Fin 2 → Option PmClientOrderKey
  /-- The retained orders, in the order of admission as far as compaction leaves it. -/
  entries : List OwnedOrderEntry
  /-- The slots of `entries`, sorted by client order. -/
  clientOrderIndex : List ℕ
  /-- The slots of `entries`, sorted by intent. -/
  intentIndex : List ℕ
  /-- The retained fill legs, sorted by key. -/
  fills : List OwnedFillEntry
  compactedIntentHighWatermark : Option PmOwnedIntentId
  currentEpoch : Option ConnectionEpoch
  counters : PmOwnedLifecycleCounters

end Reap.Owned
