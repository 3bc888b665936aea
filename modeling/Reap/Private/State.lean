import Reap.Private.Batch
import Reap.Private.Readiness
import Reap.Private.Refresh

/-!
# The private state

`PmPrivateState` owns everything that is known about one account: account facts, canonical orders,
the lifecycle of the owned orders, fills, unresolved fills, refresh obligations and risk halts. Its
methods call the methods of these parts; a call that fails may leave some parts changed.

This module has the record and what the public methods are made of: the private epoch, the owner's
order of observations, and what is recorded when a part reports an error.
-/

namespace Reap.Private

open Base Reap.Core Reap.Fill Reap.Order Reap.Owned Act

/-! ### Data -/

/-- Why a call fails. -/
inductive PmPrivateStateError where
  | refreshScopeMismatch
  | oldConnectionEpoch
  | missingPrivateEpochEvidence
  | privateEpochMismatch
  | invalidReconnectEvidence
  | reconciliationPairMismatch
  | canonicalExposureUnavailable
  | canonicalInventoryUnavailable
  | arithmeticOverflow
  | ownedImmediateAckPending
  | ownedImmediateAckTicketMismatch
  | ownedReductionSequenceExhausted
  | ownedRecoverySequenceDidNotAdvance
  | fillCompactionPending
  | missingFillCompactionCut
  | fillCompactionGenerationExhausted
  | fillCompactionTicketMismatch
  | refresh (error : PmRefreshError)
  | account (error : PmAccountStateError)
  | order (error : PmOrderStateError)
  | ownedLifecycle (error : PmOwnedOrderLifecycleError)
  | fill (error : PmFillStateError)
  | unresolvedFill (error : PmUnresolvedFillStateError)
  deriving DecidableEq

/-- `PmPrivateState`. -/
structure PmPrivateState where
  owner : PmRefreshOwnerId
  config : PmAccountConfig
  account : PmAccountState
  orders : PmOrderState
  ownedLifecycle : PmOwnedOrderLifecycle
  fills : PmFillState
  unresolvedFills : PmUnresolvedFillState
  refresh : PmRefreshState
  risk : PmRiskState
  riskLimits : PmRiskLimits
  currentEpoch : Option ConnectionEpoch
  privateAvailable : Bool
  privateObservedNs : Option UInt64
  convergence : PmPrivateConvergence
  halt : Option PmPrivateHaltReason
  externalIngressCounters : PmPrivateExternalIngressCounters
  ownedReductionHighWatermark : UInt64
  outstandingOwnedImmediate : Option PmOwnedReductionSequence
  nextFillCompactionGeneration : UInt64
  pendingFillCompactionGeneration : Option UInt64

/-- `new`, with the identity that is allocated for the owner. -/
def PmPrivateState.new (owner : PmRefreshOwnerId) (config : PmAccountConfig)
    (riskLimits : PmRiskLimits) : PmPrivateState where
  owner := owner
  config := config
  account := .new config
  orders := .new
  ownedLifecycle := .new config.accountScope config.instrument
  fills := .new
  unresolvedFills := .new
  refresh := .new owner
  risk := .new config.account config.instrument riskLimits
  riskLimits := riskLimits
  currentEpoch := none
  privateAvailable := false
  privateObservedNs := none
  convergence := .uninitialized
  halt := none
  externalIngressCounters := {}
  ownedReductionHighWatermark := 0
  outstandingOwnedImmediate := none
  nextFillCompactionGeneration := 1
  pendingFillCompactionGeneration := none

/-- `PmOwnedImmediateAckTicket`. Its occurrence is the immediate one of the sequence. -/
structure PmOwnedImmediateAckTicket where
  owner : PmRefreshOwnerId
  sequence : PmOwnedReductionSequence
  deriving DecidableEq

/-- `occurrence`. -/
def PmOwnedImmediateAckTicket.occurrence (ticket : PmOwnedImmediateAckTicket) :
    PmOwnedObservationOccurrence :=
  ⟨ticket.sequence, none, none, nofun⟩

/-- A planned compaction. -/
structure PmPreparedFillCompaction where
  owner : PmRefreshOwnerId
  generation : UInt64
  through : PmPrivateOccurrence
  deriving DecidableEq

/-- `PmFillCompaction`. -/
structure PmFillCompaction where
  ownedLifecycleRows : ℕ := 0
  canonicalOrderRows : ℕ := 0
  ownedFillKeys : ℕ := 0
  canonicalFillRows : ℕ := 0
  deriving DecidableEq

/-- `PmPrivateOrderReduction`. -/
structure PmPrivateOrderReduction where
  envelope : EventEnvelope PmOrderEvent
  knowledge : PmRemoteOrderKnowledge
  canonicalApply : PmOrderApply
  ownedRemoteApply : PmOwnedRemoteOrderApply
  owned : Option PmOwnedOrderReduction

/-- `PmPrivateFillReduction`. -/
structure PmPrivateFillReduction where
  envelope : EventEnvelope PmFillEvent
  canonicalApply : PmFillApply
  ownedRemoteApply : PmOwnedRemoteOrderApply
  owned : Option PmOwnedFillReduction

/-- `PmReconciliationApply`. -/
inductive PmReconciliationApply where
  | applied (boundary : PmReconciliationRequestBoundary) (account : PmAccountSnapshotApply)
      (uncoveredFills : UInt16)
  | notApplied (account : PmAccountSnapshotApply)

/-- `PmOwnedRecoveryFill`. -/
structure PmOwnedRecoveryFill where
  event : PmFillEvent
  reportedCumulative : Option U256
  occurrence : PmOwnedObservationOccurrence
  source : PmOwnedObservationSource
  deriving DecidableEq

/-- `PmOwnedObservationOccurrence::new`. -/
def newOccurrence (sequence : PmOwnedReductionSequence)
    (privateOccurrence : Option PmPrivateOccurrence) (snapshotRevision : Option SnapshotRevision) :
    Except PmOwnedOrderLifecycleError PmOwnedObservationOccurrence :=
  if h : ¬ (snapshotRevision.isSome = true ∧ privateOccurrence.isNone = true) then
    .ok ⟨sequence, privateOccurrence, snapshotRevision, h⟩
  else .error .snapshotWithoutPrivateOccurrence

/-- `PmOwnedReductionSequence::new`. -/
def newSequence (value : UInt64) : Except PmOwnedOrderLifecycleError PmOwnedReductionSequence :=
  if h : value ≠ 0 then .ok ⟨value, h⟩ else .error .zeroReductionSequence

/-- The registration of an owned quote. The intent has passed the checks that
`PmOwnedOrderRegistration::new` makes. -/
def registrationOf (intent : PmOwnedQuoteIntent) : PmOwnedOrderRegistration where
  clientOrder := intent.clientOrder
  instrument := intent.slot.instrument
  side := intent.slot.side
  price := intent.price
  quantity := intent.quantity
  reservation := intent.reservation
  policy := intent.policy
  covered := by
    have hcovered := intent.covered
    unfold PmExactReservation.validateFor at hcovered
    split at hcovered
    · cases hcovered
    · next h => exact h

/-- `u64::checked_add`. -/
def checkedAddU64 (value : UInt64) (amount : ℕ) : Option UInt64 :=
  if value.toNat + amount < 2 ^ 64 then some (value + UInt64.ofNat amount) else none

/-- A method of the private state. -/
abbrev Method := Act PmPrivateState PmPrivateStateError

/-- The value is there, or the method fails. -/
def orFail {α : Type} (value : Option α) (error : PmPrivateStateError) : Method α :=
  match value with
  | some value => return value
  | none => fail error

/-- The condition holds, or the method fails. -/
def failUnless (condition : Prop) [Decidable condition] (error : PmPrivateStateError) :
    Method Unit :=
  if condition then return () else fail error

variable {error : PmPrivateStateError} {s t : PmPrivateState}

theorem orFail_eq_ok {α : Type} {value : Option α} {a : α} :
    orFail value error s = (.ok a, t) ↔ value = some a ∧ t = s := by
  cases value <;> simp [orFail, eq_comm]

theorem failUnless_eq_ok {condition : Prop} [Decidable condition] {u : Unit}
    : failUnless condition error s = (.ok u, t) ↔ condition ∧ t = s := by
  unfold failUnless
  split_ifs with h <;> simp [h, eq_comm]

namespace PmPrivateState

variable {α : Type}

/-! ### Calls of the parts -/

/-- Call the account facts. -/
def onAccount (call : PmAccountConfig → PmAccountState → Outcome PmAccountStateError α × PmAccountState) :
    Method (Except PmAccountStateError α) := fun s =>
  attempt (·.account) (fun s t => { s with account := t }) (call s.config) s

variable (call : PmPrivateStateConfig → PmOrderState → Outcome PmOrderStateError α × PmOrderState)

/-- Call the canonical orders. -/
def onOrders : Method (Except PmOrderStateError α) := fun s =>
  attempt (·.orders) (fun s t => { s with orders := t }) (call s.config.toPmPrivateStateConfig) s

/-- Call the canonical orders, and fail if they do. -/
def tryOrders : Method α := do
  raise .order (← onOrders call)

/-- Ask the canonical orders, and fail if they do. -/
def askOrders (call : PmPrivateStateConfig → PmOrderState → Outcome PmOrderStateError α) :
    Method α :=
  tryOrders fun config orders => (call config orders, orders)

theorem tryOrders_apply (s : PmPrivateState) :
    tryOrders call s = match call s.config.toPmPrivateStateConfig s.orders with
      | (.ok value, t) => (.ok value, { s with orders := t })
      | (.err error, t) => (.err (.order error), { s with orders := t })
      | (.panic, t) => (.panic, { s with orders := t }) := by
  unfold tryOrders
  rw [bind_apply, onOrders, attempt_apply]
  obtain ⟨_ | _ | _, t⟩ := call s.config.toPmPrivateStateConfig s.orders <;> rfl

/-- Call the owned lifecycle, and fail if it does. -/
def tryLifecycle
    (call : PmOwnedOrderLifecycle → Outcome PmOwnedOrderLifecycleError α × PmOwnedOrderLifecycle) :
    Method α := do
  raise .ownedLifecycle
    (← attempt (·.ownedLifecycle) (fun s t => { s with ownedLifecycle := t }) call)

/-- Ask the owned lifecycle, and fail if it does. -/
def askLifecycle (call : PmOwnedOrderLifecycle → Outcome PmOwnedOrderLifecycleError α) : Method α :=
  tryLifecycle fun lifecycle => (call lifecycle, lifecycle)

theorem tryLifecycle_apply
    (call : PmOwnedOrderLifecycle → Outcome PmOwnedOrderLifecycleError α × PmOwnedOrderLifecycle)
    (s : PmPrivateState) : tryLifecycle call s = match call s.ownedLifecycle with
      | (.ok value, t) => (.ok value, { s with ownedLifecycle := t })
      | (.err error, t) => (.err (.ownedLifecycle error), { s with ownedLifecycle := t })
      | (.panic, t) => (.panic, { s with ownedLifecycle := t }) := by
  unfold tryLifecycle
  rw [attempt_raise_apply]
  obtain ⟨_ | _ | _, t⟩ := call s.ownedLifecycle <;> rfl

theorem askLifecycle_apply (call : PmOwnedOrderLifecycle → Outcome PmOwnedOrderLifecycleError α)
    (s : PmPrivateState) : askLifecycle call s = match call s.ownedLifecycle with
      | .ok value => (.ok value, s)
      | .err error => (.err (.ownedLifecycle error), s)
      | .panic => (.panic, s) := by
  unfold askLifecycle
  rw [tryLifecycle_apply]
  cases call s.ownedLifecycle <;> rfl

variable (epoch : ConnectionEpoch) (occurrence : PmOwnedObservationOccurrence) (s : PmPrivateState)
  (reason : PmRefreshReason)

/-- Call the fills. -/
def onFills (call : PmPrivateStateConfig → PmFillState → Outcome PmFillStateError α × PmFillState) :
    Method (Except PmFillStateError α) := fun s =>
  attempt (·.fills) (fun s t => { s with fills := t }) (call s.config.toPmPrivateStateConfig) s

/-- Call the fills, and fail if they do. -/
def tryFills (call : PmPrivateStateConfig → PmFillState → Outcome PmFillStateError α × PmFillState) :
    Method α := do
  raise .fill (← onFills call)

/-- Call the unresolved fills. -/
def onUnresolvedFills (call : PmPrivateStateConfig → PmUnresolvedFillState →
      Outcome PmUnresolvedFillStateError α × PmUnresolvedFillState) :
    Method (Except PmUnresolvedFillStateError α) := fun s =>
  attempt (·.unresolvedFills) (fun s t => { s with unresolvedFills := t })
    (call s.config.toPmPrivateStateConfig) s

/-- Call the refresh obligations, and fail if they do. -/
def tryRefresh (call : PmRefreshState → Outcome PmRefreshError α × PmRefreshState) : Method α := do
  raise .refresh (← attempt (·.refresh) (fun s t => { s with refresh := t }) call)

/-! ### Readings -/

/-- The key of an obligation of this owner. -/
def refreshKey : PmRefreshKey :=
  ⟨s.config.account, s.config.instrument, reason⟩

/-- `uncovered_fill_count`, which aborts if the number does not fit. -/
def uncoveredFillCount : Option UInt16 := do
  let active ← s.unresolvedFills.activeCount
  let uncovered := s.fills.provisional.uncoveredFills
  if uncovered.toNat + active.toNat < 2 ^ 16 then some (uncovered + active) else none

/-- `unresolved_risk_count`, which aborts if the number does not fit. -/
def unresolvedRiskCount : Option UInt16 := do
  let unresolved ← s.fills.unresolvedCount
  let active ← s.unresolvedFills.activeCount
  if unresolved.toNat + active.toNat < 2 ^ 16 then some (unresolved + active) else none

/-- `active_risk_halt`. -/
def activeRiskHalt : Option PmRiskReason :=
  (s.risk.globalHalt.or s.risk.accountHalt).or s.risk.marketHalt

/-- A published amount with a sign. -/
def signedPublished (published : U256) : Option PmSignedUnits :=
  if published.isZero then some .zero
  else (PmSignedUnits.fromParts .positive published).toOption

/-- `effective_position`. -/
def effectivePosition : Option PmSignedUnits := do
  let published ← s.account.position.tradableUnits
  if (← s.account.outcomeBalance.value) ≠ published then none
  else (Fill.addSigned (← signedPublished published) s.fills.provisional.outcome).toOption

/-! ### Recording -/

/-- `require_refresh`. -/
def requireRefresh : Method PmRefreshRequired := fun s =>
  tryRefresh (·.require (s.refreshKey reason)) s

/-- What the state says once it is known to have diverged. -/
def setDivergent : Method Unit := do
  let uncovered ← Act.check fun s => .expect s.uncoveredFillCount
  Act.modify fun s => { s with convergence := .divergent uncovered }

/-- `get_or_insert` of the halt. -/
def haltFor (reason : PmPrivateHaltReason) : Method Unit :=
  modify fun s => { s with halt := some (s.halt.getD reason) }

/-- `record_order_error`. -/
def recordOrderError (error : PmOrderStateError) : Method Unit := do
  haltFor (if error = .capacity then .orderCapacity else .contractViolation)
  let _ ← requireRefresh (if error = .capacity then .stateCapacity else .ambiguousOrder)

/-- `record_account_error`. -/
def recordAccountError : Method Unit := do
  haltFor .contractViolation
  let _ ← requireRefresh .accountSnapshotStale

/-- `record_fill_error`. -/
def recordFillError (error : PmFillStateError) : Method Unit := do
  haltFor (match error with
    | .capacity => .fillCapacity
    | .arithmeticOverflow => .arithmeticOverflow
    | _ => .contractViolation)
  let _ ← requireRefresh (if error = .capacity then .stateCapacity else .fillConflict)

/-- Halt and ask for a refresh. -/
def recordUnresolvedFillError (error : PmUnresolvedFillStateError) : Method Unit := do
  haltFor (if error = .capacity then .unresolvedFillCapacity else .contractViolation)
  let _ ← requireRefresh (if error = .capacity then .stateCapacity else .unresolvedFill)

/-- `require_for_fee`. -/
def requireForFee : PmFillFeeState → Method Unit
  | .unknown | .incomplete => do let _ ← requireRefresh .fillFeeUnknown
  | .unmappedAsset _ _ => do let _ ← requireRefresh .fillConflict
  | .known _ _ => return ()

/-- `require_for_settlement`. -/
def requireForSettlement : PmFillSettlementStatus → Method Unit
  | .retrying => do let _ ← requireRefresh .fillSettlementRetrying
  | .failed => do let _ ← requireRefresh .fillSettlementFailed
  | .matched | .matchedNotBroadcasted | .mined | .confirmed => return ()

/-- The position is not one that can be traded. -/
def positionUnavailable : Bool :=
  match s.account.position with
  | .unavailable | .resolvedUnredeemed _ | .venueUnavailable _ => true
  | .explicitAbsent | .tradable _ => false

/-- A required allowance is not there. -/
def allowanceUnavailable : Bool :=
  s.config.requiredSpenders.any fun spender =>
    match s.account.allowance spender with
    | .unconfigured | .unavailable | .explicitAbsent => true
    | .present _ => false

/-- The published balance and the published position differ. -/
def inventoryDiverges : Bool :=
  match s.account.outcomeBalance, s.account.position with
  | .explicitAbsent, .explicitAbsent | .explicitAbsent, .tradable _
  | .present _, .explicitAbsent | .present _, .tradable _ =>
    s.account.outcomeBalance.value != s.account.position.tradableUnits
  | _, _ => false

/-- A refresh is required if the state asks for it. -/
def requireWhen (condition : PmPrivateState → Bool) (reason : PmRefreshReason) : Method Unit := do
  if condition (← get) then
    let _ ← requireRefresh reason
  else return ()

/-- Ask for what is missing. -/
def requireForAccountState : Method Unit := do
  requireWhen positionUnavailable .positionUnavailable
  requireWhen allowanceUnavailable .allowanceUnavailable
  requireWhen inventoryDiverges .accountDivergence

/-! ### The private epoch -/

/-- `enter_epoch`. -/
def enterEpoch (monotonicNs : UInt64) : Method Unit := do
  askLifecycle fun lifecycle => .ofExcept (lifecycle.validateEpoch epoch)
  let _ ← requireRefresh .privateReconnect
  let _ ← requireRefresh .ambiguousOrder
  tryLifecycle (·.beginEpoch epoch)
  modify fun s => { s with
    currentEpoch := some epoch
    privateAvailable := false
    privateObservedNs := some monotonicNs }
  modify fun s => { s with orders := s.orders.invalidateFreshness }
  setDivergent

/-- Enter a newer epoch. -/
def preparePrivateEventEpoch (monotonicNs : UInt64) : Method Unit := do
  match (← get).currentEpoch with
  | none => enterEpoch epoch monotonicNs
  | some current =>
    if epoch < current then fail .oldConnectionEpoch
    else if epoch = current then return ()
    else enterEpoch epoch monotonicNs

/-- `require_private_epoch`. -/
def requirePrivateEpoch : Method Unit := do
  match (← get).currentEpoch with
  | none => fail .missingPrivateEpochEvidence
  | some current =>
    if epoch < current then fail .oldConnectionEpoch
    else if current < epoch then fail .privateEpochMismatch
    else return ()

/-- Restore the epoch. -/
def prepareOwnedRecoveryEpoch : Method Unit := do
  match occurrence.privateOccurrence with
  | none => return ()
  | some observed =>
    let restore : Method Unit := do
      tryLifecycle (·.restoreEpochForRecovery observed.epoch)
      modify fun s => { s with currentEpoch := some observed.epoch }
    match (← get).currentEpoch with
    | none => restore
    | some current =>
      if observed.epoch < current then fail .oldConnectionEpoch
      else if observed.epoch = current then return ()
      else restore

/-! ### The owner's order of observations -/

/-- `mint_owned_occurrence`. -/
def mintOwnedOccurrence (privateOccurrence : Option PmPrivateOccurrence)
    (snapshotRevision : Option SnapshotRevision) : Method PmOwnedObservationOccurrence := do
  let s ← get
  failUnless (s.outstandingOwnedImmediate = none) .ownedImmediateAckPending
  let next ← orFail (checkedAddU64 s.ownedReductionHighWatermark 1) .ownedReductionSequenceExhausted
  let sequence ← raise .ownedLifecycle (newSequence next)
  let occurrence ← raise .ownedLifecycle
    (newOccurrence sequence privateOccurrence snapshotRevision)
  modify fun s => { s with ownedReductionHighWatermark := next }
  return occurrence

/-- Reserve positions. -/
def preflightOwnedPrivateRange (count : ℕ)
    (privateOccurrence : PmPrivateOccurrence) (snapshotRevision : Option SnapshotRevision) :
    Outcome PmPrivateStateError PmOwnedObservationRange :=
  if s.outstandingOwnedImmediate.isSome = true then .err .ownedImmediateAckPending
  else
  let count := max count 1
  match checkedAddU64 s.ownedReductionHighWatermark 1,
    checkedAddU64 s.ownedReductionHighWatermark count with
  | some firstSequence, some _ => do
    let range : PmOwnedObservationRange := ⟨firstSequence, count, privateOccurrence,
      snapshotRevision⟩
    let _ ← .expect (range.occurrence 0)
    let _ ← .expect (range.occurrence (count - 1))
    return range
  | _, _ => .err .ownedReductionSequenceExhausted

/-- Use the positions. -/
def commitOwnedPrivateRange (range : PmOwnedObservationRange) : Method Unit := do
  let final ← Act.check fun _ => .expect range.finalSequence
  Act.modify fun s => { s with ownedReductionHighWatermark := final }

/-- The ticket is current. -/
def validateImmediateTicket (ticket : PmOwnedImmediateAckTicket) : Method Unit := do
  let s ← get
  failUnless (ticket.owner = s.owner ∧ s.outstandingOwnedImmediate = some ticket.sequence)
    .ownedImmediateAckTicketMismatch

/-- The ticket is used up. -/
def clearImmediateTicket : Method Unit :=
  modify fun s => { s with outstandingOwnedImmediate := none }

/-- Check a position. -/
def preflightRecoveryOccurrence : Method Unit := do
  let s ← get
  failUnless (s.outstandingOwnedImmediate = none) .ownedImmediateAckPending
  failUnless (s.ownedReductionHighWatermark < occurrence.reductionSequence.value)
    .ownedRecoverySequenceDidNotAdvance

/-- The owner's order reaches a recovered observation. -/
def advanceHighWatermark : Method Unit :=
  modify fun s => { s with ownedReductionHighWatermark := occurrence.reductionSequence.value }

/-- `validate_refresh_scope`. -/
def validateRefreshScope (ticket : PmRefreshTicket) : Method Unit := do
  let s ← get
  failUnless (ticket.owner = s.owner ∧ ticket.key.account = s.config.account ∧
    ticket.key.instrument = s.config.instrument) .refreshScopeMismatch

/-- The plan is current. -/
def validateFillCompactionTicket (ticket : PmPreparedFillCompaction) : Method Unit := do
  let s ← get
  failUnless (ticket.owner = s.owner ∧ s.pendingFillCompactionGeneration = some ticket.generation)
    .fillCompactionTicketMismatch

end PmPrivateState

end Reap.Private
