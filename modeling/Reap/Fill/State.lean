import Reap.Base.CheckedSum
import Reap.Core.Reconciliation
import Reap.Owned.Lifecycle

/-!
# Canonical fills

The fills of a private account, each under its fill key. A fill is *uncovered* until a complete
fill query of the account has listed it: its principal, what was paid and what was received, is
then part of the account's own balances. Until then it is provisional, and so is whatever is
learned about its fee and its settlement after the query.

This module has the data and the pure functions on single fills: the checks of an observation,
how the knowledge of fee and settlement grows, and what a fill adds to the provisional deltas.
-/

namespace Reap.Fill

open Base Reap.Core
open Reap.Owned (PmOwnedObservationOccurrence PmOwnedReductionSequence)

/-- At most this many. -/
def maxPmPrivateFills : ℕ := maxPmReconciliationFills

/-! ### Data -/

/-- What is known of a fee, and whether its asset is one of the configured
two. -/
inductive PmFillFeeState where
  | unknown
  | incomplete
  | known (asset : PmAssetId) (delta : PmSignedUnits)
  | unmappedAsset (asset : PmAssetId) (delta : PmSignedUnits)
  deriving DecidableEq

/-- What the uncovered fills change. -/
structure PmProvisionalDeltas where
  collateral : PmSignedUnits
  outcome : PmSignedUnits
  uncoveredFills : UInt16
  unresolvedFees : UInt16
  unmappedFeeAssets : UInt16
  deriving DecidableEq

/-- `PmFillApply`. -/
inductive PmFillApply where
  | principalApplied (fee : PmFillFeeState) (settlement : PmFillSettlementStatus)
  | enriched (fee : PmFillFeeState) (settlement : PmFillSettlementStatus)
  | duplicate
  | ignoredStale
  deriving DecidableEq

/-- `PmFillCounters`. -/
structure PmFillCounters where
  principalApplications : UInt64 := 0
  feeEnrichments : UInt64 := 0
  settlementUpdates : UInt64 := 0
  retryingObservations : UInt64 := 0
  failedObservations : UInt64 := 0
  duplicates : UInt64 := 0
  stale : UInt64 := 0
  conflicts : UInt64 := 0
  capacityFailures : UInt64 := 0
  reconciliationQueries : UInt64 := 0
  deriving DecidableEq

/-- `PmFillStateError`. -/
inductive PmFillStateError where
  | scopeMismatch
  | marketContractMismatch
  | conflict
  | arithmeticOverflow
  | capacity
  | envelopeRevisionMismatch
  | occurrenceEvidenceMismatch
  | completionSequenceMismatch
  | cursorDiscontinuity
  | recoveryCursorScopeMismatch
  | recoveryCursorAlreadyInitialized
  | recoveryCursorStateNotFresh
  | cutDoesNotCoverObservedFill
  deriving DecidableEq, Repr

/-- One canonical fill. -/
structure FillEntry where
  event : PmFillEvent
  firstOccurrence : PmOwnedObservationOccurrence
  lastOccurrence : PmOwnedObservationOccurrence
  coveredByReconciliation : Option PmPrivateOccurrence
  fee : PmFillFeeState
  coveredFee : Option PmFillFeeState
  settlement : PmFillSettlementStatus
  coveredSettlement : Option PmFillSettlementStatus
  deriving DecidableEq

namespace FillEntry

variable (entry : FillEntry)

/-- The key of a fill. -/
def key : PmFillKey := entry.event.fillKey

/-- The key that the fills are sorted by. -/
def fillKey : Option PmFillKey := some entry.key

/-- Not yet covered. -/
def needsReconciliation : Bool :=
  match entry.coveredByReconciliation with
  | none => true
  | some covered =>
    match entry.lastOccurrence.privateOccurrence with
    | none => true
    | some occurrence => decide (covered < occurrence)

/-- No query has covered it. -/
def feeNeedsReconciliation : Bool :=
  match entry.coveredFee with
  | none => true
  | some covered => entry.fee != covered

/-- No query has covered it. -/
def settlementNeedsReconciliation : Bool :=
  match entry.coveredSettlement with
  | none => true
  | some covered => entry.settlement != covered

end FillEntry

/-- `PmFillState`. -/
structure PmFillState where
  entries : List FillEntry
  queryKeys : List PmFillKey
  provisional : PmProvisionalDeltas
  watermark : Option PmFillQueryCursor
  reconciliationCompletion : Option PmPrivateOccurrence
  observedMonotonicNs : Option UInt64
  counters : PmFillCounters
  deriving DecidableEq

/-! ### Checks -/

variable (config : PmPrivateStateConfig) (fee : PmFillFeeState)

/-- `validate_fill`. -/
def validateFill (fill : PmFillEvent) (source : PmProductSource) : Except PmFillStateError Unit :=
  if source ≠ config.source ∨ fill.source ≠ config.source ∨ fill.account ≠ config.account ∨
      fill.instrument ≠ config.instrument then .error .scopeMismatch
  else
  match fill.execution.price.validateTick config.tick,
    exactOrderAmounts fill.execution.side fill.execution.price fill.execution.quantity with
  | .ok _, .ok _ => .ok ()
  | _, _ => .error .marketContractMismatch

/-- It comes after the cut. -/
def occurrenceAfterPrivateCut (occurrence : PmOwnedObservationOccurrence)
    (cut : PmPrivateOccurrence) :
    Bool :=
  match occurrence.privateOccurrence with
  | none => false
  | some observed => decide (cut < observed)

/-- `validate_query_envelope`. -/
def validateQueryEnvelope
    (envelope : EventEnvelope PmCompleteFillQuery) : Except PmFillStateError Unit :=
  let query := envelope.payload
  if envelope.source ≠ config.source ∨ query.accountScope ≠ config.accountScope then
    .error .scopeMismatch
  else if envelope.ordering.snapshotRevision ≠ some query.snapshot.revision then
    .error .envelopeRevisionMismatch
  else if envelope.ordering.localIngressSequence ≠ query.boundary.completionSequence then
    .error .completionSequenceMismatch
  else .ok ()

/-- Nothing principal changes. -/
def validateSamePrincipal (prior incoming : PmFillEvent) : Except PmFillStateError Unit :=
  let left := prior.execution
  let right := incoming.execution
  if prior.source ≠ incoming.source ∨ prior.instrument ≠ incoming.instrument ∨
      prior.order ≠ incoming.order ∨ left.side ≠ right.side ∨ left.role ≠ right.role ∨
      left.price ≠ right.price ∨ left.quantity ≠ right.quantity then .error .conflict
  else .ok ()

/-! ### Fees -/

/-- `fee_state`. -/
def feeState (fee : PmFillFee) : PmFillFeeState :=
  match fee with
  | .unknown => .unknown
  | .incomplete => .incomplete
  | .known asset delta =>
    if asset = config.collateralAsset ∨ asset = config.outcomeAsset then .known asset delta
    else .unmappedAsset asset delta

/-- The fee once it is known never changes. -/
def feeTransition (current incoming : PmFillFeeState) :
    Except PmFillStateError (Option PmFillFeeState) :=
  match current, incoming with
  | .known _ _, .unknown | .known _ _, .incomplete => .ok none
  | .unmappedAsset _ _, .unknown | .unmappedAsset _ _, .incomplete => .ok none
  | .unknown, .known _ _ | .unknown, .unmappedAsset _ _ => .ok (some incoming)
  | .incomplete, .known _ _ | .incomplete, .unmappedAsset _ _ => .ok (some incoming)
  | .unknown, .incomplete | .incomplete, .unknown => .ok none
  | .unknown, .unknown | .incomplete, .incomplete => .ok none
  | .known _ _, .known _ _ | .unmappedAsset _ _, .unmappedAsset _ _ =>
    if current = incoming then .ok none else .error .conflict
  | .known _ _, .unmappedAsset _ _ | .unmappedAsset _ _, .known _ _ => .error .conflict

/-- The fee may change so. -/
def validateFeeProgression (current : PmFillFeeState)
    (incoming : PmFillFee) : Except PmFillStateError Unit :=
  match feeTransition current (feeState config incoming) with
  | .error error => .error error
  | .ok _ => .ok ()

/-- The fee, if known. -/
def resolvedCoveredFee : Option PmFillFeeState :=
  match fee with
  | .known _ _ => some fee
  | .unknown | .incomplete | .unmappedAsset _ _ => none

/-- The fee is one that has to be resolved. -/
def PmFillFeeState.isUnresolved : PmFillFeeState → Bool
  | .unknown | .incomplete => true
  | .known _ _ | .unmappedAsset _ _ => false

/-- The fee is paid in an asset that is not configured. -/
def PmFillFeeState.isUnmapped : PmFillFeeState → Bool
  | .unmappedAsset _ _ => true
  | .unknown | .incomplete | .known _ _ => false

/-! ### Settlement -/

/-- The one may become the other. -/
def settlementReachable (earlier later : PmFillSettlementStatus) : Bool :=
  match earlier, later with
  | .matchedNotBroadcasted, _ => true
  | .matched, .matched | .matched, .mined | .matched, .confirmed | .matched, .retrying
  | .matched, .failed => true
  | .mined, .mined | .mined, .confirmed | .mined, .retrying | .mined, .failed => true
  | .retrying, .retrying | .retrying, .mined | .retrying, .confirmed | .retrying, .failed => true
  | .confirmed, .confirmed => true
  | .failed, .failed => true
  | _, _ => false

/-- The settlement after it. -/
def settlementTransition (current incoming : PmFillSettlementStatus) :
    Except PmFillStateError (Option PmFillSettlementStatus) :=
  if current = incoming then .ok none
  else if settlementReachable current incoming then .ok (some incoming)
  else .error .conflict

/-- What the query settles. -/
def resolvedCoveredSettlement (settlement : PmFillSettlementStatus) :
    Option PmFillSettlementStatus :=
  match settlement with
  | .retrying | .failed => none
  | .matchedNotBroadcasted | .matched | .mined | .confirmed => some settlement

/-- The reports agree. -/
def validateHistoricalFillCompatibility
    (historical later : PmFillEvent) : Except PmFillStateError Unit :=
  let historicalFee := feeState config historical.execution.fee
  let laterFee := feeState config later.execution.fee
  match feeTransition historicalFee laterFee, feeTransition laterFee historicalFee with
  | .error _, .error _ => .error .conflict
  | _, _ =>
    if settlementReachable historical.execution.settlement later.execution.settlement then .ok ()
    else .error .conflict

/-- The principal stays, the fee and the settlement may advance. The checks of
`PmFillEvent::new` read only what stays, so it does not fail. -/
def mergeEvent (prior incoming : PmFillEvent) : Except PmFillStateError PmFillEvent :=
  match feeTransition (feeState config prior.execution.fee) (feeState config incoming.execution.fee) with
  | .error error => .error error
  | .ok fee =>
  match settlementTransition prior.execution.settlement incoming.execution.settlement with
  | .error error => .error error
  | .ok settlement =>
  .ok { prior with
    execution := { prior.execution with
      settlement := settlement.getD prior.execution.settlement
      fee := if fee.isSome then incoming.execution.fee else prior.execution.fee } }

/-! ### Signed sums -/

/-- `signed`. -/
def signed (sign : PmSign) (amount : U256) : Except PmFillStateError PmSignedUnits :=
  match PmSignedUnits.fromParts sign amount with
  | .error _ => .error .arithmeticOverflow
  | .ok units => .ok units

/-- `add_signed`. -/
def addSigned (left right : PmSignedUnits) : Except PmFillStateError PmSignedUnits :=
  if left.sign = right.sign then
    match left.magnitude.checkedAdd right.magnitude with
    | .error _ => .error .arithmeticOverflow
    | .ok magnitude => signed left.sign magnitude
  else
    match compare left.magnitude right.magnitude with
    | .gt =>
      match left.magnitude.checkedSub right.magnitude with
      | .error _ => .error .arithmeticOverflow
      | .ok magnitude => signed left.sign magnitude
    | .lt =>
      match right.magnitude.checkedSub left.magnitude with
      | .error _ => .error .arithmeticOverflow
      | .ok magnitude => signed right.sign magnitude
    | .eq => .ok .zero

/-- `u16::checked_add`. -/
def addCount (left right : UInt16) : Except PmFillStateError UInt16 :=
  if left.toNat + right.toNat < 2 ^ 16 then .ok (left + right) else .error .arithmeticOverflow

/-- `empty_deltas`. -/
def emptyDeltas : PmProvisionalDeltas := ⟨.zero, .zero, 0, 0, 0⟩

/-- `add_delta`. -/
def addDelta (left right : PmProvisionalDeltas) : Except PmFillStateError PmProvisionalDeltas := do
  let collateral ← addSigned left.collateral right.collateral
  let outcome ← addSigned left.outcome right.outcome
  let uncoveredFills ← addCount left.uncoveredFills right.uncoveredFills
  let unresolvedFees ← addCount left.unresolvedFees right.unresolvedFees
  let unmappedFeeAssets ← addCount left.unmappedFeeAssets right.unmappedFeeAssets
  return ⟨collateral, outcome, uncoveredFills, unresolvedFees, unmappedFeeAssets⟩

/-- `u16::from`. -/
def countIf (flag : Bool) : UInt16 := if flag then 1 else 0

/-- `fee_only_delta`. -/
def feeOnlyDelta : PmProvisionalDeltas :=
  match fee with
  | .known asset delta =>
    if asset = config.collateralAsset then { emptyDeltas with collateral := delta }
    else if asset = config.outcomeAsset then { emptyDeltas with outcome := delta }
    else emptyDeltas
  | .unknown | .incomplete | .unmappedAsset _ _ => emptyDeltas

/-- The collateral of a fill's principal. -/
def collateralPrincipal (side : PmOrderSide) (amounts : PmOrderAmounts) :
    Except PmFillStateError PmSignedUnits :=
  match side with
  | .buy => signed .negative amounts.maker
  | .sell => signed .positive amounts.taker

/-- The outcome tokens of a fill's principal. -/
def outcomePrincipal (side : PmOrderSide) (quantity : U256) :
    Except PmFillStateError PmSignedUnits :=
  match side with
  | .buy => signed .positive quantity
  | .sell => signed .negative quantity

/-- `event_delta`. -/
def eventDelta (event : PmFillEvent) (fee : PmFillFeeState) :
    Except PmFillStateError PmProvisionalDeltas :=
  let execution := event.execution
  match exactOrderAmounts execution.side execution.price execution.quantity with
  | .error _ => .error .arithmeticOverflow
  | .ok amounts => do
    let collateral ← collateralPrincipal execution.side amounts
    let outcome ← outcomePrincipal execution.side execution.quantity.protocolUnits
    addDelta ⟨collateral, outcome, 1, countIf fee.isUnresolved, countIf fee.isUnmapped⟩
      (feeOnlyDelta config fee)

/-- What a fill adds. -/
def entryProvisionalDelta (entry : FillEntry) : Except PmFillStateError PmProvisionalDeltas :=
  if entry.coveredByReconciliation = none then eventDelta config entry.event entry.fee
  else if entry.feeNeedsReconciliation then do
    let delta ← addDelta { emptyDeltas with uncoveredFills := 1 } (feeOnlyDelta config entry.fee)
    return { delta with
      unresolvedFees := countIf entry.fee.isUnresolved
      unmappedFeeAssets := countIf entry.fee.isUnmapped }
  else .ok { emptyDeltas with uncoveredFills := 1 }

/-- The sum, from scratch. -/
def recomputeProvisional (entries : List FillEntry) : Except PmFillStateError PmProvisionalDeltas :=
  checkedSum addDelta (entryProvisionalDelta config) emptyDeltas
    (entries.filter FillEntry.needsReconciliation)

end Reap.Fill
