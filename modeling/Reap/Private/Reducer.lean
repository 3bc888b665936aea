import Reap.Private.State

/-!
# The methods of the private state

The public methods, in the order of the source: connection and faults, observations of the private
stream, complete answers of the venue, quotes, owned orders, recovery from a journal, and the
compaction of what a fill query has covered. A method calls its parts in the order in which the
source does, so that what a failed call has already changed is the same.
-/

namespace Reap.Private

open Base Reap.Core Reap.Fill Reap.Order Reap.Owned Act

namespace PmPrivateState

/-! ### Connection and faults -/

variable (fault : PmPrivateExternalIngressFault) (occurrence : PmOwnedObservationOccurrence)

/-- `validate_reconnect`. -/
def validateReconnect (s : PmPrivateState) (epoch : ConnectionEpoch)
    (monotonicObservedNs : UInt64) :
    Except PmPrivateStateError Unit :=
  if epoch.value = 0 ∨ monotonicObservedNs = 0 then .error .invalidReconnectEvidence
  else if ∃ current ∈ s.currentEpoch, epoch ≤ current then .error .oldConnectionEpoch
  else .ok ()

/-- `observe_reconnect`. -/
def observeReconnect (epoch : ConnectionEpoch) (monotonicObservedNs : UInt64) : Method Unit := do
  Act.check fun s => .ofExcept (s.validateReconnect epoch monotonicObservedNs)
  enterEpoch epoch monotonicObservedNs

/-- The fault is counted. -/
def countFault : Method Unit :=
  modify fun s => { s with externalIngressCounters := s.externalIngressCounters.record fault }

/-- `record_external_ingress_fault`. Whether a refresh could be required is not looked at. -/
def recordExternalIngressFault : Method Unit := do
  countFault fault
  modify fun s =>
    if s.halt = none ∨ s.halt = some .contractViolation then
      { s with halt := some (.externalIngressFault fault) }
    else s
  setDivergent
  let key := (← get).refreshKey .externalIngressFault
  let _ ← attempt (·.refresh) (fun s t => { s with refresh := t }) (·.require key)

/-- What is no longer known when a dependency fails. -/
def invalidate : PmPrivateDependency → Method Unit
  | .privateLifecycle => modify fun s => { s with privateAvailable := false }
  | .accountSnapshot => modify fun s => { s with account := s.account.invalidateFreshness }
  | .orderLifecycle => modify fun s => { s with orders := s.orders.invalidateFreshness }
  | .reconciliation => setDivergent

/-- A dependency is lost. -/
def invalidateExternalDependency (dependency : PmPrivateDependency)
    (fault : PmPrivateExternalIngressFault) : Method PmRefreshRequired := do
  countFault fault
  invalidate dependency
  requireRefresh .externalIngressFault

/-! ### Observations of the private stream -/

/-- `register_owned_order`. -/
def registerOwnedOrder (registration : PmOwnedOrderRegistration) : Method Unit :=
  tryOrders fun config orders => orders.registerOwned config registration

/-- What has to be refreshed after an order of the venue was observed. -/
def requireForOwnership : OwnershipState → Method Unit
  | .provenOwned => return ()
  | .unmanaged => do let _ ← requireRefresh .unmanagedOrder
  | .ambiguous => do let _ ← requireRefresh .ambiguousOrder

/-- The owned lifecycle has the order. -/
def isRetained (s : PmPrivateState) (client : Option PmClientOrderKey) : Option Bool :=
  match client with
  | none => some false
  | some client => (s.ownedLifecycle.order client).map Option.isSome

/-- What follows an order event that the canonical orders have taken. -/
def finishOrder (envelope : EventEnvelope PmOrderEvent) (knowledge : PmRemoteOrderKnowledge)
    (occurrence : PmOwnedObservationOccurrence) (outcome : PmOrderApply) :
    Method PmPrivateOrderReduction := do
  let event := envelope.payload
  let (ownedMatch, owned) ← tryLifecycle (reduceOwnedOrderEvent event occurrence .privateWebSocket)
  modify fun s => { s with privateObservedNs := s.orders.observedMonotonicNs }
  let found ← askOrders fun _ orders => orders.ownership event.order
  let ownership ← Act.check fun _ => .expect found
  requireForOwnership ownership
  if ownership = .provenOwned ∧ ownedMatch = .ambiguousRemote then
    let retained ← Act.check fun s => .expect (s.isRetained event.order.clientOrderKey)
    if retained then
      let _ ← requireRefresh .ambiguousOrder
      return ⟨envelope, knowledge, outcome, ownedMatch, owned⟩
    else return ⟨envelope, knowledge, outcome, ownedMatch, owned⟩
  else return ⟨envelope, knowledge, outcome, ownedMatch, owned⟩

/-- `observe_order_reduction`. -/
def observeOrderReduction (envelope : EventEnvelope PmOrderEvent)
    (knowledge : PmRemoteOrderKnowledge) : Method PmPrivateOrderReduction := do
  preparePrivateEventEpoch envelope.ordering.connectionEpoch envelope.monotonicServiceNs
  let occurrence ← mintOwnedOccurrence (some envelope.occurrence) envelope.ordering.snapshotRevision
  let _ ← askLifecycle fun lifecycle =>
    preflightOwnedOrderEvent lifecycle envelope.payload occurrence .privateWebSocket
  match ← onOrders fun config orders => orders.observe config envelope knowledge with
  | .ok outcome => finishOrder envelope knowledge occurrence outcome
  | .error error => do
    recordOrderError error
    fail (.order error)

/-- What has to be refreshed after a fill was applied. -/
def requireForFill (outcome : PmFillApply) : Method Unit :=
  match outcome with
  | .principalApplied fee settlement => do
    setDivergent
    let _ ← requireRefresh .fillObserved
    requireForFee fee
    requireForSettlement settlement
  | .enriched fee settlement => do
    requireForFee fee
    requireForSettlement settlement
  | .duplicate | .ignoredStale => return ()

/-- `observe_fill_reduction`. -/
def observeFillReduction (envelope : EventEnvelope PmFillEvent) :
    Method PmPrivateFillReduction := do
  let event := envelope.payload
  preparePrivateEventEpoch envelope.ordering.connectionEpoch envelope.monotonicServiceNs
  let occurrence ← mintOwnedOccurrence (some envelope.occurrence) envelope.ordering.snapshotRevision
  askLifecycle fun lifecycle =>
    preflightOwnedFillEvent lifecycle event occurrence .privateWebSocket none
  match ← onFills fun config fills => fills.observe config envelope occurrence with
  | .ok outcome => do
    let (ownedMatch, owned) ←
      tryLifecycle (reduceOwnedFillEvent event occurrence .privateWebSocket none)
    modify fun s => { s with privateObservedNs := s.fills.observedMonotonicNs }
    requireForFill outcome
    return ⟨envelope, outcome, ownedMatch, owned⟩
  | .error error => do
    recordFillError error
    fail (.fill error)

/-- What has to be refreshed after an unresolved fill was observed. -/
def requireForUnresolved : PmUnresolvedFillApply → Method Unit
  | .inserted _ => do
    setDivergent
    let _ ← requireRefresh .unresolvedFill
  | .settlementAdvanced _ settlement => do
    setDivergent
    let _ ← requireRefresh .unresolvedFill
    requireForSettlement settlement
  | .duplicate _ | .ignoredStale _ => return ()

/-- `observe_unresolved_fill`. -/
def observeUnresolvedFill (envelope : EventEnvelope PmUnresolvedFillObservation) :
    Method PmUnresolvedFillApply := do
  preparePrivateEventEpoch envelope.ordering.connectionEpoch envelope.monotonicServiceNs
  match ← onUnresolvedFills fun config fills => fills.observe config envelope with
  | .ok outcome => do
    modify fun s => { s with privateObservedNs := s.unresolvedFills.observedMonotonicNs }
    requireForUnresolved outcome
    return outcome
  | .error error => do
    recordUnresolvedFillError error
    fail (.unresolvedFill error)

/-! ### Complete answers of the venue -/

/-- `apply_account_snapshot`. -/
def applyAccountSnapshot (envelope : ServicedEnvelope PmCompleteAccountSnapshot) :
    Method PmAccountSnapshotApply := do
  requirePrivateEpoch envelope.ordering.connectionEpoch
  match ← onAccount fun config account => account.apply config envelope with
  | .error error => do
    recordAccountError
    fail (.account error)
  | .ok (.applied revision absences) => do
    setDivergent
    let _ ← requireRefresh .accountDivergence
    requireForAccountState
    return .applied revision absences
  | .ok outcome => return outcome

/-- The preflight loop of `apply_open_orders_snapshot`. -/
def preflightOrderEvents (occurrence : PmOwnedObservationOccurrence) :
    List PmOrderEvent → Method Unit
  | [] => return ()
  | event :: rest => do
    let _ ← askLifecycle fun lifecycle =>
      preflightOwnedOrderEvent lifecycle event occurrence .restReconciliation
    preflightOrderEvents occurrence rest

/-- An order event of an aggregate is passed on to the owned lifecycle; the answer is whether it
is ambiguous there and owned in the canonical orders. -/
def bridgeOrderEvent (event : PmOrderEvent) : Method Bool := do
  match ← tryLifecycle (bridgeOwnedOrderEvent event occurrence .restReconciliation) with
  | .matched _ => return false
  | .ambiguousRemote => do
    let ownership ← askOrders fun _ orders => orders.ownership event.order
    return ownership == some .provenOwned

/-- The commit loop of `apply_open_orders_snapshot`. -/
def bridgeOrderEvents (occurrence : PmOwnedObservationOccurrence) : List PmOrderEvent → Method Bool
  | [] => return false
  | event :: rest => do
    let ambiguous ← bridgeOrderEvent occurrence event
    let others ← bridgeOrderEvents occurrence rest
    return ambiguous || others

/-- A refresh is required if the flag is set. -/
def requireIf (flag : Bool) (reason : PmRefreshReason) : Method Unit := do
  if flag then
    let _ ← requireRefresh reason
  else return ()

/-- The snapshot has left some orders without an answer. -/
def retainsMissing : PmOpenOrdersApply → Bool
  | .applied _ _ retainedMissing => decide (1 ≤ retainedMissing)
  | .duplicate | .ignoredStale => false

/-- The open orders. -/
def applyOpenOrdersSnapshot (envelope : EventEnvelope PmCompleteOpenOrdersSnapshot)
    (reservations : List PmOpenOrderReservation) : Method PmOpenOrdersApply := do
  let snapshot := envelope.payload
  let epoch := envelope.ordering.connectionEpoch
  requirePrivateEpoch epoch
  let occurrence ← mintOwnedOccurrence (some ⟨epoch, snapshot.boundary.requestSequence⟩)
    (some snapshot.snapshot.revision)
  preflightOrderEvents occurrence snapshot.orders
  match ← onOrders fun config orders => orders.applyOpenSnapshot config envelope reservations with
  | .ok outcome => do
    let ownedAmbiguity ← bridgeOrderEvents occurrence snapshot.orders
    requireIf (retainsMissing outcome) .missingOrderDetail
    requireIf ownedAmbiguity .ambiguousOrder
    return outcome
  | .error error => do
    recordOrderError error
    fail (.order error)

variable (envelope : EventEnvelope PmExactOrderDetail)

/-- When the answer about one order is observed: an order as of the request, its absence as of
the completion. -/
def detailOccurrence : PmPrivateOccurrence :=
  let detail := envelope.payload
  ⟨envelope.ordering.connectionEpoch, match detail.order with
    | some _ => detail.boundary.requestSequence
    | none => detail.boundary.completionSequence⟩

/-- What the owned lifecycle learns from the answer about one order; the answer is whether the
order is ambiguous. -/
def bridgeDetail (detail : PmExactOrderDetail) (outcome : PmOrderApply) : Method Bool := do
  match detail.order with
  | some event => bridgeOrderEvent occurrence event
  | none =>
    if outcome = .detailAbsenceTerminalized then
      let _ ← tryLifecycle (·.observeDetailAbsence detail.requestedOrder occurrence)
      return false
    else return false

/-- `apply_order_detail`. -/
def applyOrderDetail (reservation : PmReservationKnowledge) : Method PmOrderApply := do
  let detail := envelope.payload
  requirePrivateEpoch envelope.ordering.connectionEpoch
  let occurrence ← mintOwnedOccurrence (some (detailOccurrence envelope))
    (some detail.snapshot.revision)
  askLifecycle fun lifecycle => match detail.order with
    | some event =>
      (preflightOwnedOrderEvent lifecycle event occurrence .restReconciliation).discard
    | none => lifecycle.preflightDetailAbsence detail.requestedOrder occurrence
  match ← onOrders fun config orders => orders.applyDetail config envelope reservation with
  | .ok outcome => do
    requireIf (← bridgeDetail occurrence detail outcome) .ambiguousOrder
    return outcome
  | .error error => do
    recordOrderError error
    fail (.order error)

/-! ### Reconciliation -/

/-- The answers belong together. -/
def validateReconciliationPair (account : ServicedEnvelope PmCompleteAccountSnapshot)
    (fills : ServicedEnvelope PmCompleteFillQuery) : Except PmPrivateStateError Unit :=
  if account.source ≠ fills.source ∨ account.connectionId ≠ fills.connectionId ∨
      account.ordering.connectionEpoch ≠ fills.ordering.connectionEpoch ∨
      account.payload.accountScope ≠ fills.payload.accountScope ∨
      account.payload.boundary ≠ fills.payload.boundary ∨
      account.payload.snapshot ≠ fills.payload.snapshot then
    .error .reconciliationPairMismatch
  else .ok ()

variable (s : PmPrivateState) (client : PmClientOrderKey) (result : PmOwnedSubmitResult)
  (request : PmPrivateQuoteRequest) (account : ServicedEnvelope PmCompleteAccountSnapshot)
  (fills : ServicedEnvelope PmCompleteFillQuery) (range : PmOwnedObservationRange)

/-- The checks of a fill query against the fills, the owner's order and the owned lifecycle. They
end with the positions that the rows will have in the owner's order. -/
def preflightParts (epoch : ConnectionEpoch) (fills : ServicedEnvelope PmCompleteFillQuery) :
    Method PmOwnedObservationRange := do
  match ← onFills fun config state => state.preflightQuery config fills.toEventEnvelope with
  | .error error => do
    recordFillError error
    fail (.fill error)
  | .ok () => do
    let range ← Act.check fun s => s.preflightOwnedPrivateRange fills.payload.fills.length
      ⟨epoch, fills.payload.boundary.completionSequence⟩ (some fills.payload.snapshot.revision)
    askLifecycle fun lifecycle =>
      preflightOwnedFillBatch lifecycle fills.payload.fills range .restReconciliation
    return range

/-- The part of `apply_reconciliation_inner` that checks the two answers against everything they
will change. It ends with a snapshot that is not to be applied, or with the positions of the
rows. -/
def preflightReconciliation : Method (PmAccountSnapshotApply ⊕ PmOwnedObservationRange) := do
  match validateReconciliationPair account fills with
  | .error error => do
    recordAccountError
    fail error
  | .ok () =>
  requirePrivateEpoch account.ordering.connectionEpoch
  let s ← get
  match s.account.preview s.config account with
  | .error error => do
    recordAccountError
    fail (.account error)
  | .ok (.applied _ _) => return .inr (← preflightParts account.ordering.connectionEpoch fills)
  | .ok preview => return .inl preview

/-- The commit of the fill query, which is expected to succeed. -/
def commitFills : Method Unit := do
  let occurrence ← Act.check fun _ => .expect (range.occurrence 0)
  Act.expectOk (← onFills fun config state =>
    state.applyPreflightedQuery config fills.toEventEnvelope occurrence)

/-- The commit of the account snapshot, which is expected to succeed. -/
def commitAccount : Method PmAccountSnapshotApply := do
  expectOk (← onAccount fun config state => state.apply config account)

/-- The commit of the rows of the query to the owned lifecycle, each of which is expected to
succeed. -/
def commitRows : Method (List PmReconciliationFillReduction) :=
  tryLifecycle (reduceRows fills.toEventEnvelope range
    ⟨fills.ordering.connectionEpoch, fills.payload.boundary.requestSequence⟩ 0 fills.payload.fills)

/-- The part of `apply_reconciliation_inner` after the three commits. -/
def finishReconciliation (outcome : PmAccountSnapshotApply) : Method PmReconciliationApply := do
  let epoch := account.ordering.connectionEpoch
  let boundary := account.payload.boundary
  let request : PmPrivateOccurrence := ⟨epoch, fills.payload.boundary.requestSequence⟩
  let completion : PmPrivateOccurrence := ⟨epoch, boundary.completionSequence⟩
  modify fun s => { s with
    unresolvedFills := s.unresolvedFills.coverThrough request completion }
  Act.modify fun s => { s with privateAvailable := true }
  let uncovered ← Act.check fun s => .expect s.uncoveredFillCount
  if uncovered = 0 then do
    modify fun s => { s with
      convergence := .converged boundary (max account.monotonicServiceNs fills.monotonicServiceNs)
      refresh := s.refresh.completeFullReconciliation }
  else do
    modify fun s => { s with convergence := .divergent uncovered }
    let _ ← requireRefresh .accountDivergence
  requireForAccountState
  modify fun s => { s with risk := s.risk.recoverAfterCompleteReconciliation }
  return .applied boundary outcome uncovered

/-- The commits of `apply_reconciliation_inner`. -/
def commitReconciliation : Method (PmReconciliationApply × List PmReconciliationFillReduction) := do
  commitFills fills range
  let outcome ← commitAccount account
  let reductions ← commitRows fills range
  commitOwnedPrivateRange range
  return (← finishReconciliation account fills outcome, reductions)

/-- `apply_reconciliation_inner`, with the reductions of the rows; `apply_reconciliation` does not
return them. -/
def applyReconciliation : Method (PmReconciliationApply × List PmReconciliationFillReduction) := do
  match ← preflightReconciliation account fills with
  | .inl preview => return (.notApplied preview, [])
  | .inr range => commitReconciliation account fills range

/-! ### Quotes -/

/-- What `quote_readiness` passes to the readiness check. -/
def readinessContext : PmReadinessContext where
  config := s.config
  account := s.account
  ordersObservedNs := s.orders.observedMonotonicNs
  fills := s.fills
  unresolvedFills := s.unresolvedFills
  convergence := s.convergence
  privateObservedNs := s.privateObservedNs
  privateAvailable := s.privateAvailable
  halt := s.halt
  riskHalt := s.activeRiskHalt
  fullReconcileRequired := s.refresh.fullReconcileRequired
  freshness := s.riskLimits.freshness

/-- `quote_readiness_with_order_summary`. -/
def quoteReadiness (orderSummary : PmOrderDecisionSummary) : Readiness PmPrivateReady :=
  match request.reservation.validateFor request.side request.price request.quantity with
  | .error _ => .err .arithmeticInvalid
  | .ok _ =>
    if request.reservation.basis ≠ .policyApprovedWorstCase then .err .arithmeticInvalid
    else check s.readinessContext request orderSummary

/-- `dependency`. -/
def dependency (available : Bool) (observedNs : Option UInt64) : PmRiskDependency :=
  match available, observedNs with
  | true, some observed => .available observed
  | false, _ | true, none => .unavailable

/-- `convergence_observed`. -/
def convergenceObserved : PmPrivateConvergence → Option UInt64
  | .converged _ observedMonotonicNs => some observedMonotonicNs
  | .uninitialized | .divergent _ => none

/-- The reconciliation has converged. -/
def isConverged : PmPrivateConvergence → Bool
  | .converged _ _ => true
  | .uninitialized | .divergent _ => false

variable (reference book : PmRiskDependency)

/-- The sources that a risk decision rests on. -/
def riskDependencies : PmRiskDependencies where
  reference := reference
  book := book
  «private» := dependency s.privateAvailable s.privateObservedNs
  account := dependency true s.account.observedMonotonicNs
  orders := dependency true s.orders.observedMonotonicNs
  reconciliation := dependency (isConverged s.convergence) (convergenceObserved s.convergence)

/-- The candidate of a risk decision. -/
def riskCandidate : PmRiskCandidate where
  account := s.config.account
  instrument := s.config.instrument
  side := request.side
  quantity := request.quantity
  collateralAtRisk := request.reservation.collateral
  tokenAtRisk := request.reservation.outcome

/-- `evaluate_risk_candidate_with_order_summary`. -/
def evaluateRiskCandidate (orderSummary : PmOrderDecisionSummary) : Method PmRiskDecision := do
  let _ ← raise .order
    (request.reservation.validateFor request.side request.price request.quantity)
  failUnless (request.reservation.basis = .policyApprovedWorstCase)
    (.order .ownedReservationRequiresPolicy)
  let (reservedCollateral, reservedOutcome) ← raise (fun error => match error with
    | .unknown _ => .canonicalExposureUnavailable
    | .overflow => .arithmeticOverflow) orderSummary.reservationTotals
  let s ← get
  let inventory ← orFail s.effectivePosition .canonicalInventoryUnavailable
  let unresolvedFills ← Act.check fun s => .expect s.unresolvedRiskCount
  let exposure : PmRiskExposure := ⟨inventory, reservedCollateral, reservedCollateral,
    reservedOutcome, orderSummary.liveCount, orderSummary.unresolvedCount, unresolvedFills.toNat⟩
  let (decision, risk) := s.risk.evaluate ⟨request.monotonicNowNs, s.riskCandidate request, exposure,
    s.riskDependencies reference book⟩
  modify fun s => { s with risk := risk }
  requireIf decision.haltScope.cancelOwnedRequired .riskBreach
  return decision

/-- Readiness, then risk. -/
def evaluateQuoteCandidate : Method PmPrivateQuoteEvaluation := do
  let s ← Act.get
  let orderSummary ← Act.check fun _ => .expect s.orders.decisionSummary
  match s.quoteReadiness request orderSummary with
  | .panic => Act.check fun _ => .panic
  | .err reason => return .blocked reason
  | .ok ready =>
    return .evaluated ready (← evaluateRiskCandidate request reference book orderSummary)

/-- `evaluate_risk_candidate`. -/
def evaluateRisk : Method PmRiskDecision := do
  let orderSummary ← Act.check fun s => .expect s.orders.decisionSummary
  evaluateRiskCandidate request reference book orderSummary

/-! ### Refresh obligations -/

/-- Start at a cursor. -/
def initializeRecoveredFillWatermark (cursor : PmFillQueryCursor) : Method Unit :=
  tryFills fun config fills => fills.initializeRecoveredWatermark config cursor

/-- `mark_refresh_admitted`. -/
def markRefreshAdmitted (ticket : PmRefreshTicket) : Method PmRefreshAdmission := do
  validateRefreshScope ticket
  tryRefresh (·.markAdmitted ticket)

/-- `complete_refresh`. -/
def completeRefresh (ticket : PmRefreshTicket) : Method PmRefreshCompletion := do
  validateRefreshScope ticket
  tryRefresh (·.complete ticket)

/-! ### Owned orders -/

/-- The registration that an admission needs is prepared. -/
def prepareRegistration (intent : PmOwnedQuoteIntent) (outcome : PmOwnedQuoteAdmission) :
    Outcome PmOrderStateError (Option PmOrderState.PmOwnedRegistrationPlan) :=
  match outcome with
  | .admitted _ => do
    return some (← s.orders.prepareOwnedRegistration s.config.toPmPrivateStateConfig
      (registrationOf intent))
  | _ => return none

/-- `PmPreparedOwnedQuoteAdmission::commit`. -/
def commitOwnedQuote (plan : PmOwnedOrderLifecycle.PmOwnedQuoteAdmissionPlan)
    (registrationPlan : Option PmOrderState.PmOwnedRegistrationPlan) : Method PmOwnedQuoteAdmission := do
  let outcome ← tryLifecycle (·.commitPreflightedAdmitQuote plan)
  match registrationPlan with
  | none => return outcome
  | some plan => do
    tryOrders fun _ orders => orders.commitPreflightedOwnedRegistration plan
    return outcome

/-- `prepare_owned_quote`, and the commit of what it has prepared. -/
def admitOwnedQuote (intent : PmOwnedQuoteIntent) : Method PmOwnedQuoteAdmission := do
  let plan ← askLifecycle (·.prepareAdmitQuote intent)
  let s ← get
  let registrationPlan ← askOrders fun _ _ => s.prepareRegistration intent plan.outcome
  commitOwnedQuote plan registrationPlan

/-- The venue order that a submit result binds. -/
def boundVenue : PmOwnedSubmitResult → Option PmVenueOrderKey
  | .accepted venue | .ambiguousOwned venue => some venue
  | .rejected | .ambiguous => none

/-- The canonical order gets the venue order that a submit result binds. -/
def bindOwnedVenue : Method Unit :=
  match boundVenue result with
  | none => return ()
  | some venue => tryOrders fun config orders => orders.bindOwnedVenue config client venue

/-- Check a submit result. -/
def preflightOwnedSubmitResult : Method PmOwnedSubmitApply := do
  let expected ← askLifecycle (·.preflightSubmitResult client result)
  match boundVenue result with
  | none => return expected
  | some venue => do
    askOrders fun config orders => orders.preflightBindOwnedVenue config client venue
    return expected

/-- A submit result. -/
def applyOwnedSubmitResult : Method PmOwnedSubmitApply := do
  let _ ← preflightOwnedSubmitResult client result
  let outcome ← tryLifecycle (·.applySubmitResult client result)
  bindOwnedVenue client result
  requireIf (outcome == .markedAmbiguous) .ambiguousOrder
  return outcome

/-- A ticket for the fills. -/
def issueOwnedImmediateAckTicket : Method PmOwnedImmediateAckTicket := do
  let s ← get
  failUnless (s.outstandingOwnedImmediate = none) .ownedImmediateAckPending
  let occurrence ← mintOwnedOccurrence none none
  let sequence := occurrence.reductionSequence
  modify fun s => { s with outstandingOwnedImmediate := some sequence }
  return ⟨s.owner, sequence⟩

/-- The owned lifecycle takes a fill; an order that it does not have is an error. -/
def bridgeFill (event : PmFillEvent) (occurrence : PmOwnedObservationOccurrence)
    (source : PmOwnedObservationSource) (reportedCumulative : Option U256) :
    Method PmOwnedFillApply := do
  let owned ← tryLifecycle (bridgeOwnedFillEvent event occurrence source reportedCumulative)
  orFail owned (.ownedLifecycle .unboundVenueOrder)

/-- A fill of the answer. -/
def observeOwnedImmediateFill (ticket : PmOwnedImmediateAckTicket) (event : PmFillEvent)
    (reportedCumulative : Option U256) : Method PmOwnedFillApply := do
  validateImmediateTicket ticket
  let matched ← askLifecycle fun lifecycle => .expect (lifecycle.matchRemoteOrder event.order)
  failUnless (matched ≠ .ambiguousRemote) (.ownedLifecycle .unboundVenueOrder)
  askLifecycle fun lifecycle => preflightOwnedFillEvent lifecycle event ticket.occurrence
    .immediateAcknowledgement reportedCumulative
  clearImmediateTicket
  let canonical ← tryFills fun config fills =>
    fills.observeOwnedImmediate config event ticket.occurrence
  let owned ← bridgeFill event ticket.occurrence .immediateAcknowledgement reportedCumulative
  requireForFill canonical
  return owned

/-- The progress of the answer. -/
def observeOwnedImmediateProgress (ticket : PmOwnedImmediateAckTicket) (client : PmClientOrderKey)
    (venue : PmVenueOrderKey) (progress : PmOrderProgress) : Method PmOwnedProgressApply := do
  validateImmediateTicket ticket
  clearImmediateTicket
  tryLifecycle (·.observeProgress
    ⟨client, venue, progress, ticket.occurrence, .immediateAcknowledgement⟩)

/-! ### Recovery -/

/-- `observe_owned_fill`. -/
def observeOwnedFill (observation : PmOwnedFillObservation) : Method PmOwnedFillApply := do
  preflightRecoveryOccurrence observation.occurrence
  askLifecycle (·.preflightFill observation)
  let outcome ← tryLifecycle (·.observeFill observation)
  advanceHighWatermark observation.occurrence
  return outcome

variable (observation : PmOwnedOrderProgressObservation)

/-- `observe_owned_progress`. -/
def observeOwnedProgress : Method PmOwnedProgressApply := do
  preflightRecoveryOccurrence observation.occurrence
  askLifecycle (·.preflightProgress observation)
  let outcome ← tryLifecycle (·.observeProgress observation)
  advanceHighWatermark observation.occurrence
  return outcome

/-- `recover_owned_fill`. -/
def recoverOwnedFill (recovery : PmOwnedRecoveryFill) : Method PmOwnedFillApply := do
  let { event, reportedCumulative, occurrence, source } := recovery
  prepareOwnedRecoveryEpoch occurrence
  preflightRecoveryOccurrence occurrence
  askLifecycle fun lifecycle =>
    preflightOwnedFillEvent lifecycle event occurrence source reportedCumulative
  let canonical ← tryFills fun config fills => fills.observeOwnedRecovery config event occurrence
  let owned ← bridgeFill event occurrence source reportedCumulative
  advanceHighWatermark occurrence
  requireForFill canonical
  return owned

/-- `recover_owned_progress`. -/
def recoverOwnedProgress : Method PmOwnedProgressApply := do
  prepareOwnedRecoveryEpoch observation.occurrence
  observeOwnedProgress observation

/-- `finish_owned_recovery`. -/
def finishOwnedRecovery (highWatermark : PmOwnedReductionSequence) : Method Unit := do
  let s ← get
  failUnless (s.outstandingOwnedImmediate = none) .ownedImmediateAckPending
  failUnless (s.ownedReductionHighWatermark ≤ highWatermark.value) .ownedRecoverySequenceDidNotAdvance
  modify fun s => { s with ownedReductionHighWatermark := highWatermark.value }

/-- Is the order owned? -/
def observeOwnedRemoteOrder (identity : PmOrderIdentity) : Method PmOwnedRemoteOrderApply :=
  tryLifecycle (·.observeRemoteOrder identity)

/-- `request_owned_cancel`. -/
def requestOwnedCancel : Method PmOwnedCancelRequestApply :=
  tryLifecycle (·.requestCancel client)

/-- A cancel result. -/
def applyOwnedCancelResult (intent : PmOwnedCancelIntent) (outcome : PmOwnedCancelOutcome) :
    Method PmOwnedCancelApply :=
  tryLifecycle (·.applyCancelResult intent outcome)

/-! ### Compaction -/

/-- Remove a finished order. -/
def compactProvenOwnedTerminal : Method PmOwnedTerminalCompaction := do
  askLifecycle (·.preflightCompactProvenTerminal client)
  askOrders fun _ orders => orders.preflightCompactProvenOwned client
  let compacted ← tryLifecycle (·.compactProvenTerminal client)
  tryOrders fun _ orders => orders.compactProvenOwned client
  return compacted

/-- Plan a compaction. -/
def prepareFillWatermarkCompaction : Method PmPreparedFillCompaction := do
  let s ← get
  failUnless (s.pendingFillCompactionGeneration = none) .fillCompactionPending
  let through ← orFail s.fills.reconciliationCompletion .missingFillCompactionCut
  let generation := s.nextFillCompactionGeneration
  let next ← orFail (checkedAddU64 generation 1) .fillCompactionGenerationExhausted
  modify fun s => { s with nextFillCompactionGeneration := next }
  modify fun s => { s with
    ownedLifecycle := (s.ownedLifecycle.markCompactableThrough generation through).2 }
  modify fun s => { s with pendingFillCompactionGeneration := some generation }
  return ⟨s.owner, generation, through⟩

/-- The preflight loop of `commit_fill_watermark_compaction`. -/
def preflightCompactions : List PmClientOrderKey → Method Unit
  | [] => return ()
  | client :: rest => do
    askLifecycle (·.preflightCompactProvenTerminal client)
    askOrders fun _ orders => orders.preflightCompactProvenOwned client
    preflightCompactions rest

/-- The loop of `commit_fill_watermark_compaction`, which compacts the first marked order until
there is none. Every round removes an order, so as many rounds as there are orders are enough. -/
def compactMarked (generation : UInt64) : ℕ → PmFillCompaction → Method PmFillCompaction
  | 0, result => return result
  | rounds + 1, result => do
    match ← askLifecycle fun lifecycle => .expect (lifecycle.markedCompactionClients generation) with
    | [] => return result
    | client :: _ => do
      let compacted ← tryLifecycle (·.compactProvenTerminal client)
      tryOrders fun _ orders => orders.compactProvenOwned client
      compactMarked generation rounds { result with
        ownedLifecycleRows := result.ownedLifecycleRows + 1
        canonicalOrderRows := result.canonicalOrderRows + 1
        ownedFillKeys := result.ownedFillKeys + compacted.fillKeysRemoved }

/-- Carry out the plan. -/
def commitFillWatermarkCompaction (ticket : PmPreparedFillCompaction) :
    Method PmFillCompaction := do
  validateFillCompactionTicket ticket
  modify fun s => { s with ownedLifecycle :=
    s.ownedLifecycle.clearInvalidCompactionMarks ticket.generation ticket.through }
  let marked ← askLifecycle fun lifecycle =>
    .expect (lifecycle.markedCompactionClients ticket.generation)
  preflightCompactions marked
  let s ← get
  let result ← compactMarked ticket.generation s.ownedLifecycle.entries.length {}
  let rows ← tryFills fun _ fills =>
    let (rows, fills) := fills.compactCoveredThrough ticket.through
    (.ok rows, fills)
  modify fun s => { s with pendingFillCompactionGeneration := none }
  return { result with canonicalFillRows := rows }

/-- Give up the plan. -/
def abortFillWatermarkCompaction (ticket : PmPreparedFillCompaction) : Method Unit := do
  validateFillCompactionTicket ticket
  modify fun s => { s with
    ownedLifecycle := s.ownedLifecycle.clearCompactionMarks ticket.generation }
  modify fun s => { s with pendingFillCompactionGeneration := none }

end PmPrivateState

end Reap.Private
