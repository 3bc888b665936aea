import Reap.Order.Decision
import Reap.Private.Account
import Reap.Private.Risk
import Reap.Private.Unresolved

/-!
# Readiness for a quote

A quote is only evaluated when the private state is ready for it: nothing is halted, every
private fact is fresh, the exposure of every live order is known, no fill is unresolved, the last
reconciliation has converged, and what is left of collateral and outcome tokens covers what the
live orders have reserved and what the quote would reserve.

The check stops at the first reason to block. It is written as the source has it, a sequence of
checks that each pass or block.

## What is proved

* `toInt_applySigned` — applying a signed delta is exact.
* `check_ready` — what a passed check says, condition by condition.
-/

namespace Reap.Private

open Base Reap.Core Reap.Fill Reap.Order

/-! ### Faults at the boundary -/

/-- A lane of events. -/
inductive PmPrivateExternalIngressLane where
  | reconnect
  | privateLifecycle
  | accountSnapshot
  | openOrders
  | orderDetail
  | reconciliation
  deriving DecidableEq, Repr

/-- `index`. -/
def PmPrivateExternalIngressLane.index : PmPrivateExternalIngressLane → Fin 6
  | .reconnect => 0
  | .privateLifecycle => 1
  | .accountSnapshot => 2
  | .openOrders => 3
  | .orderDetail => 4
  | .reconciliation => 5

/-- How a lane failed. -/
inductive PmPrivateExternalIngressFailure where
  | normalization
  | service
  | scope
  | contract
  deriving DecidableEq, Repr

/-- `index`. -/
def PmPrivateExternalIngressFailure.index : PmPrivateExternalIngressFailure → Fin 4
  | .normalization => 0
  | .service => 1
  | .scope => 2
  | .contract => 3

/-- A failure of a lane. -/
structure PmPrivateExternalIngressFault where
  lane : PmPrivateExternalIngressLane
  failure : PmPrivateExternalIngressFailure
  deriving DecidableEq, Repr

/-- The failures so far. -/
structure PmPrivateExternalIngressCounters where
  total : UInt64 := 0
  byLane : Fin 6 → UInt64 := fun _ => 0
  byFailure : Fin 4 → UInt64 := fun _ => 0
  deriving DecidableEq

/-- `record`. -/
def PmPrivateExternalIngressCounters.record (c : PmPrivateExternalIngressCounters)
    (fault : PmPrivateExternalIngressFault) : PmPrivateExternalIngressCounters where
  total := bump c.total
  byLane := Function.update c.byLane fault.lane.index (bump (c.byLane fault.lane.index))
  byFailure := Function.update c.byFailure fault.failure.index
    (bump (c.byFailure fault.failure.index))

/-! ### Data -/

/-- `PmPrivateDependency`. -/
inductive PmPrivateDependency where
  | privateLifecycle
  | accountSnapshot
  | orderLifecycle
  | reconciliation
  deriving DecidableEq, Repr

/-- Why it is halted. -/
inductive PmPrivateHaltReason where
  | orderCapacity
  | fillCapacity
  | unresolvedFillCapacity
  | arithmeticOverflow
  | contractViolation
  | externalIngressFault (fault : PmPrivateExternalIngressFault)
  deriving DecidableEq, Repr

/-- `PmPrivateConvergence`. -/
inductive PmPrivateConvergence where
  | uninitialized
  | divergent (uncoveredFills : UInt16)
  | converged (boundary : PmReconciliationRequestBoundary) (observedMonotonicNs : UInt64)

/-- Why no quote may go out. -/
inductive PmPrivateReadinessReason where
  | halted (reason : PmPrivateHaltReason)
  | riskHalted (reason : PmRiskReason)
  | fullReconciliationRequired
  | dependencyUnavailable (dependency : PmPrivateDependency)
  | dependencyStale (dependency : PmPrivateDependency) (ageNs limitNs : UInt64)
  | monotonicClockRegression (dependency : PmPrivateDependency)
  | divergent (uncoveredFills : UInt16)
  | unknownReservation (order : PmOrderIdentity)
  | unmanagedOwnershipAmbiguous
  | fillFeeUnknown (fill : PmFillKey)
  | fillFeeIncomplete (fill : PmFillKey)
  | fillFeeAssetUnmapped (fill : PmFillKey) (asset : PmAssetId)
  | fillSettlementRetrying (fill : PmFillKey)
  | fillSettlementFailed (fill : PmFillKey)
  | unresolvedFill (fill : PmUnresolvedFillKey) (reason : PmUnresolvedFillReason)
  | balanceUnavailable (asset : PmAssetId)
  | positionResolvedUnredeemed (quantity : U256)
  | positionUnavailable
  | publishedInventoryMismatch (balance position : U256)
  | exactAllowanceUnconfigured (spender : PmSpenderId)
  | exactAllowanceUnavailable (spender : PmSpenderId)
  | exactAllowanceAbsent (spender : PmSpenderId)
  | exactAllowanceInsufficient (spender : PmSpenderId) (required available : U256)
  | exactOperatorNotApproved (spender : PmSpenderId)
  | insufficientCollateral (available required : U256)
  | insufficientOutcomeInventory (available required : U256)
  | arithmeticInvalid
  deriving DecidableEq

/-- `PmPrivateQuoteRequest`. -/
structure PmPrivateQuoteRequest where
  monotonicNowNs : UInt64
  side : PmOrderSide
  price : PmPrice
  quantity : PmQuantity
  reservation : PmExactReservation
  deriving DecidableEq

/-- `PmPrivateReady`. -/
structure PmPrivateReady where
  effectiveCollateral : U256
  effectiveOutcome : U256
  reservedCollateral : U256
  reservedOutcome : U256
  candidateCollateral : U256
  candidateOutcome : U256
  deriving DecidableEq

/-- What is said to a quote. -/
inductive PmPrivateQuoteEvaluation where
  | blocked (reason : PmPrivateReadinessReason)
  | evaluated (ready : PmPrivateReady) (risk : PmRiskDecision)
  deriving DecidableEq

/-- `PmReadinessContext`. Of the orders the check reads when they were observed. -/
structure PmReadinessContext where
  config : PmAccountConfig
  account : PmAccountState
  ordersObservedNs : Option UInt64
  fills : PmFillState
  unresolvedFills : PmUnresolvedFillState
  convergence : PmPrivateConvergence
  privateObservedNs : Option UInt64
  privateAvailable : Bool
  halt : Option PmPrivateHaltReason
  riskHalt : Option PmRiskReason
  fullReconcileRequired : Bool
  freshness : PmFreshnessRiskLimits

/-! ### The checks -/

/-- `PmPrivateReadiness`: ready with a value, or blocked with a reason. -/
abbrev Readiness := Outcome PmPrivateReadinessReason

/-- There is no reason of this kind, or the quote is blocked. -/
def blockIf {α : Type} (found : Option α) (reason : α → PmPrivateReadinessReason) :
    Readiness Unit :=
  match found with
  | some value => .err (reason value)
  | none => .ok ()

/-- The condition holds, or the quote is blocked. -/
def require (condition : Prop) [Decidable condition] (reason : PmPrivateReadinessReason) :
    Readiness Unit :=
  if condition then .ok () else .err reason

/-- The value is there, or the quote is blocked. -/
def orBlock {α : Type} (value : Option α) (reason : PmPrivateReadinessReason) : Readiness α :=
  .okOr reason value

/-- The observation is not in the future and not too old. -/
def requireFresh (dependency : PmPrivateDependency) (nowNs observedNs limitNs : UInt64) :
    Readiness Unit := do
  let ageNs ← orBlock (checkedSubNs nowNs observedNs) (.monotonicClockRegression dependency)
  require (ageNs ≤ limitNs) (.dependencyStale dependency ageNs limitNs)

/-- One round of the loop of `precondition_reason`. -/
def requireObserved (dependency : PmPrivateDependency) (nowNs : UInt64) (observed : Option UInt64)
    (limitNs : UInt64) : Readiness Unit := do
  let observedNs ← orBlock observed (.dependencyUnavailable dependency)
  requireFresh dependency nowNs observedNs limitNs

/-- `precondition_reason`. -/
def precondition (context : PmReadinessContext) (nowNs : UInt64) : Readiness Unit := do
  blockIf context.halt .halted
  blockIf context.riskHalt .riskHalted
  require (context.fullReconcileRequired = false) .fullReconciliationRequired
  require (context.privateAvailable = true) (.dependencyUnavailable .privateLifecycle)
  requireObserved .privateLifecycle nowNs context.privateObservedNs context.freshness.privateNs
  requireObserved .accountSnapshot nowNs context.account.observedMonotonicNs
    context.freshness.accountNs
  requireObserved .orderLifecycle nowNs context.ordersObservedNs context.freshness.orderNs

/-- The reason to block for a fee that is not resolved; a known fee has been filtered out. -/
def feeReason (fill : PmFillKey) : PmFillFeeState → Readiness Unit
  | .unknown => .err (.fillFeeUnknown fill)
  | .incomplete => .err (.fillFeeIncomplete fill)
  | .unmappedAsset asset _ => .err (.fillFeeAssetUnmapped fill asset)
  | .known _ _ => .panic

/-- The reason to block for a settlement that is not resolved; others have been filtered out. -/
def settlementReason (fill : PmFillKey) : PmFillSettlementStatus → Readiness Unit
  | .retrying => .err (.fillSettlementRetrying fill)
  | .failed => .err (.fillSettlementFailed fill)
  | .matched | .matchedNotBroadcasted | .mined | .confirmed => .panic

/-- `reservation_or_fill_reason`. -/
def requireResolved (orders : PmOrderDecisionSummary) (fills : PmFillState)
    (unresolvedFills : PmUnresolvedFillState) : Readiness Unit := do
  require (orders.unmanagedAmbiguity = false) .unmanagedOwnershipAmbiguous
  blockIf orders.firstUnknownReservation .unknownReservation
  blockIf unresolvedFills.firstActive fun fill =>
    .unresolvedFill fill.observation.key fill.observation.reason
  match fills.firstUnresolvedFee with
  | some (fill, fee) => feeReason fill fee
  | none =>
  match fills.firstUnresolvedSettlement with
  | some (fill, settlement) => settlementReason fill settlement
  | none =>
  match orders.reservationTotals with
  | .error (.unknown identity) => .err (.unknownReservation identity)
  | .error .overflow => .err .arithmeticInvalid
  | .ok _ => .ok ()

/-- `convergence_reason`. -/
def requireConverged (convergence : PmPrivateConvergence) (nowNs limitNs : UInt64) :
    Readiness Unit :=
  match convergence with
  | .converged _ observedNs => requireFresh .reconciliation nowNs observedNs limitNs
  | .uninitialized => .err (.dependencyUnavailable .reconciliation)
  | .divergent uncoveredFills => .err (.divergent uncoveredFills)

variable (account : PmAccountState)

/-- What can be spent. -/
def effectiveResources (fills : PmFillState) : Option (U256 × U256) := do
  let collateral ← account.collateral.value
  let outcomeBalance ← account.outcomeBalance.value
  let position ← account.position.tradableUnits
  if outcomeBalance ≠ position then none
  else return (← applySigned collateral fills.provisional.collateral,
    ← applySigned position fills.provisional.outcome)

/-- `account_resource_reason`. -/
def accountResourceReason (config : PmAccountConfig) : PmPrivateReadinessReason :=
  if account.collateral = .unavailable then .balanceUnavailable config.collateralAsset
  else if account.outcomeBalance = .unavailable then .balanceUnavailable config.outcomeAsset
  else
  match account.position with
  | .resolvedUnredeemed quantity => .positionResolvedUnredeemed quantity
  | .unavailable | .venueUnavailable _ => .positionUnavailable
  | .explicitAbsent | .tradable _ =>
    let balance := account.outcomeBalance.value.getD .zero
    let position := account.position.tradableUnits.getD .zero
    if balance ≠ position then .publishedInventoryMismatch balance position else .arithmeticInvalid

/-- One round of the loop of `allowance_reason`. -/
def requireAllowance (spender : PmSpenderId) (required : Option U256) : Readiness Unit :=
  match account.allowance spender, required with
  | .unconfigured, _ => .err (.exactAllowanceUnconfigured spender)
  | .unavailable, _ => .err (.exactAllowanceUnavailable spender)
  | .explicitAbsent, _ => .err (.exactAllowanceAbsent spender)
  | .present (.erc20 available), some required =>
    require (required ≤ available) (.exactAllowanceInsufficient spender required available)
  | .present (.erc1155Operator isApproved), none =>
    require (isApproved = true) (.exactOperatorNotApproved spender)
  | .present _, _ => .err (.exactAllowanceUnavailable spender)

/-- `allowance_reason`. -/
def requireAllowances (context : PmReadinessContext) (requiredCollateral : U256) :
    List PmSpenderId → Readiness Unit
  | [] => .ok ()
  | spender :: rest => do
    requireAllowance context.account spender
      (if spender.requirement.asset = context.config.collateralAsset then some requiredCollateral
        else none)
    requireAllowances context requiredCollateral rest

/-- `check`. -/
def check (context : PmReadinessContext) (request : PmPrivateQuoteRequest)
    (orderSummary : PmOrderDecisionSummary) : Readiness PmPrivateReady := do
  precondition context request.monotonicNowNs
  requireResolved orderSummary context.fills context.unresolvedFills
  requireConverged context.convergence request.monotonicNowNs context.freshness.reconciliationNs
  let (collateral, outcome) ← orBlock (effectiveResources context.account context.fills)
    (accountResourceReason context.account context.config)
  let (reservedCollateral, reservedOutcome) ←
    orBlock orderSummary.reservationTotals.toOption .arithmeticInvalid
  let candidate := request.reservation
  let requiredCollateral ←
    orBlock (reservedCollateral.checkedAdd candidate.collateral).toOption .arithmeticInvalid
  let requiredOutcome ←
    orBlock (reservedOutcome.checkedAdd candidate.outcome).toOption .arithmeticInvalid
  requireAllowances context requiredCollateral context.config.requiredSpenders
  require (requiredCollateral ≤ collateral) (.insufficientCollateral collateral requiredCollateral)
  require (requiredOutcome ≤ outcome) (.insufficientOutcomeInventory outcome requiredOutcome)
  return ⟨collateral, outcome, reservedCollateral, reservedOutcome, candidate.collateral,
    candidate.outcome⟩

/-! ### What a passed check says -/

variable {reason : PmPrivateReadinessReason} {fills : PmFillState} {orders : PmOrderDecisionSummary}

theorem require_eq_ok {condition : Prop} [Decidable condition] {u : Unit} :
    require condition reason = .ok u ↔ condition := by
  unfold require
  split_ifs with h
  · exact ⟨fun _ => h, fun _ => rfl⟩
  · exact ⟨nofun, fun hc => absurd hc h⟩

theorem blockIf_eq_ok {α : Type} {found : Option α} {reason : α → PmPrivateReadinessReason}
    {u : Unit} : blockIf found reason = .ok u ↔ found = none := by
  cases found <;> simp [blockIf]

/-- An amount that can be corrected by a signed delta is their sum. -/
theorem toInt_applySigned {base result : U256} {delta : PmSignedUnits}
    (h : applySigned base delta = some result) : (result.value : ℤ) = base.value + delta.toInt := by
  unfold applySigned at h
  unfold PmSignedUnits.toInt
  cases hsign : delta.sign with
  | positive =>
    rw [hsign] at h
    rw [toOption_eq_some, U256.checkedAdd_eq_ok_iff] at h
    show (result.value : ℤ) = base.value + delta.magnitude.value
    omega
  | negative =>
    rw [hsign] at h
    rw [toOption_eq_some, U256.checkedSub_eq_ok_iff] at h
    show (result.value : ℤ) = base.value + -(delta.magnitude.value : ℤ)
    omega

/-- What is left of the two assets: what the account publishes, corrected by what the uncovered
fills change. -/
structure Effective (account : PmAccountState) (fills : PmFillState) (collateral outcome : ℤ) :
    Prop where
  collateral : ∃ published ∈ account.collateral.value,
    collateral = published.value + fills.provisional.collateral.toInt
  outcome : ∃ published ∈ account.outcomeBalance.value,
    account.position.tradableUnits = some published ∧
      outcome = published.value + fills.provisional.outcome.toInt

theorem effective_of_effectiveResources {account : PmAccountState} {collateral outcome : U256}
    (h : effectiveResources account fills = some (collateral, outcome)) :
    Effective account fills collateral.value outcome.value := by
  simp only [effectiveResources, Option.bind_eq_bind, Option.bind_eq_some_iff] at h
  obtain ⟨published, hpub, balance, hbal, position, hpos, h⟩ := h
  split_ifs at h with hsame
  obtain ⟨first, hfst, h⟩ := Option.bind_eq_some_iff.mp h
  obtain ⟨second, hsnd, h⟩ := Option.bind_eq_some_iff.mp h
  cases h
  rw [not_not] at hsame
  subst hsame
  exact ⟨⟨published, hpub, toInt_applySigned hfst⟩, ⟨balance, hbal, hpos, toInt_applySigned hsnd⟩⟩

/-- What a passed check says. -/
structure Readied (context : PmReadinessContext) (request : PmPrivateQuoteRequest)
    (orders : PmOrderDecisionSummary) (ready : PmPrivateReady) : Prop where
  halt : context.halt = none
  riskHalt : context.riskHalt = none
  reconciled : context.fullReconcileRequired = false
  privateAvailable : context.privateAvailable = true
  ambiguity : orders.unmanagedAmbiguity = false
  unknown : orders.firstUnknownReservation = none
  unresolvedFill : context.unresolvedFills.firstActive = none
  unresolvedFee : context.fills.firstUnresolvedFee = none
  unresolvedSettlement : context.fills.firstUnresolvedSettlement = none
  converged : ∃ boundary observedNs, context.convergence = .converged boundary observedNs
  totals : orders.reservationTotals = .ok (ready.reservedCollateral, ready.reservedOutcome)
  effective : Effective context.account context.fills ready.effectiveCollateral.value
    ready.effectiveOutcome.value
  collateral_le : ready.reservedCollateral.value + request.reservation.collateral.value ≤
    ready.effectiveCollateral.value
  outcome_le : ready.reservedOutcome.value + request.reservation.outcome.value ≤
    ready.effectiveOutcome.value

theorem requireResolved_eq_ok {unresolvedFills : PmUnresolvedFillState}
    (h : requireResolved orders fills unresolvedFills = .ok ()) :
    orders.unmanagedAmbiguity = false ∧ orders.firstUnknownReservation = none ∧
      unresolvedFills.firstActive = none ∧ fills.firstUnresolvedFee = none ∧
      fills.firstUnresolvedSettlement = none := by
  simp only [requireResolved, Outcome.bind_eq_ok, require_eq_ok, blockIf_eq_ok, exists_and_left,
    exists_const] at h
  obtain ⟨hamb, hunk, hact, h⟩ := h
  split at h
  · next fill fee _ => cases fee <;> cases h
  next hfee =>
  split at h
  · next fill settlement _ => cases settlement <;> cases h
  next hset =>
  exact ⟨hamb, hunk, hact, hfee, hset⟩

/-- **A passed check.** -/
theorem check_ready {context : PmReadinessContext} {request : PmPrivateQuoteRequest}
    {ready : PmPrivateReady} (h : check context request orders = .ok ready) :
    Readied context request orders ready := by
  simp only [check, Outcome.bind_eq_ok, orBlock, Outcome.okOr_eq_ok, require_eq_ok, exists_and_left,
    exists_const, toOption_eq_some, Prod.exists] at h
  obtain ⟨_, hpre, _, hres, _, hcon, collateral, outcome, heff, reservedCollateral,
    reservedOutcome, htot, requiredCollateral, hcol, requiredOutcome, hout, _, -,
    hcolLe, houtLe, h⟩ := h
  cases h
  simp only [precondition, Outcome.bind_eq_ok, require_eq_ok, blockIf_eq_ok, exists_and_left,
    exists_const] at hpre
  obtain ⟨hhalt, hrisk, hfull, hava, -⟩ := hpre
  obtain ⟨hamb, hunk, hact, hfee, hset⟩ := requireResolved_eq_ok hres
  rw [U256.checkedAdd_eq_ok_iff] at hcol hout
  refine ⟨hhalt, hrisk, hfull, hava, hamb, hunk, hact, hfee, hset, ?_,
    htot, effective_of_effectiveResources heff, hcol ▸ hcolLe,
    hout ▸ houtLe⟩
  unfold requireConverged at hcon
  split at hcon
  · next boundary observedNs heq => exact ⟨boundary, observedNs, heq⟩
  · cases hcon
  · cases hcon

end Reap.Private
