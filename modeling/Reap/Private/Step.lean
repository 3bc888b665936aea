import Reap.Private.Reconciliation

/-!
# Runs of the private state

The public methods as one type of calls, and the one function that runs a call. A run is any
sequence of calls none of which aborts the program, also of calls that fail.

## What is proved

* `keeps_call` — every public method keeps `PmPrivateState.Inv`, also when it fails.
* `inv_of_reach` — so it holds in every state reached from a new private state.
* `compactMarked_of_length_le` — the loop of the compaction ends: as many rounds as there are orders
  are enough.
-/

namespace Reap.Private

open Base Reap.Core Reap.Fill Reap.Order Reap.Owned Outcome Act PmOwnedOrderLifecycle Samples

namespace PmPrivateState

/-! ### Calls -/

/-- The public methods that change the state. A quote that is only prepared changes nothing until it
is committed, which is `admitOwnedQuote`; a method that another one wraps is that one. -/
inductive Op where
  | observeReconnect (epoch : ConnectionEpoch) (monotonicObservedNs : UInt64)
  | recordExternalIngressFault (fault : PmPrivateExternalIngressFault)
  | invalidateExternalDependency (dependency : PmPrivateDependency)
      (fault : PmPrivateExternalIngressFault)
  | registerOwnedOrder (registration : PmOwnedOrderRegistration)
  | observeOrderReduction (envelope : EventEnvelope PmOrderEvent) (knowledge : PmRemoteOrderKnowledge)
  | observeFillReduction (envelope : EventEnvelope PmFillEvent)
  | observeUnresolvedFill (envelope : EventEnvelope PmUnresolvedFillObservation)
  | applyAccountSnapshot (envelope : ServicedEnvelope PmCompleteAccountSnapshot)
  | applyOpenOrdersSnapshot (envelope : EventEnvelope PmCompleteOpenOrdersSnapshot)
      (reservations : List PmOpenOrderReservation)
  | applyOrderDetail (envelope : EventEnvelope PmExactOrderDetail)
      (reservation : PmReservationKnowledge)
  | applyReconciliation (account : ServicedEnvelope PmCompleteAccountSnapshot)
      (fills : ServicedEnvelope PmCompleteFillQuery)
  | evaluateQuoteCandidate (request : PmPrivateQuoteRequest) (reference book : PmRiskDependency)
  | evaluateRisk (request : PmPrivateQuoteRequest) (reference book : PmRiskDependency)
  | initializeRecoveredFillWatermark (cursor : PmFillQueryCursor)
  | requireRefresh (reason : PmRefreshReason)
  | markRefreshAdmitted (ticket : PmRefreshTicket)
  | completeRefresh (ticket : PmRefreshTicket)
  | admitOwnedQuote (intent : PmOwnedQuoteIntent)
  | applyOwnedSubmitResult (client : PmClientOrderKey) (result : PmOwnedSubmitResult)
  | issueOwnedImmediateAckTicket
  | observeOwnedImmediateFill (ticket : PmOwnedImmediateAckTicket) (event : PmFillEvent)
      (reportedCumulative : Option U256)
  | observeOwnedImmediateProgress (ticket : PmOwnedImmediateAckTicket) (client : PmClientOrderKey)
      (venue : PmVenueOrderKey) (progress : PmOrderProgress)
  | observeOwnedFill (observation : PmOwnedFillObservation)
  | observeOwnedProgress (observation : PmOwnedOrderProgressObservation)
  | recoverOwnedFill (recovery : PmOwnedRecoveryFill)
  | recoverOwnedProgress (observation : PmOwnedOrderProgressObservation)
  | finishOwnedRecovery (highWatermark : PmOwnedReductionSequence)
  | observeOwnedRemoteOrder (identity : PmOrderIdentity)
  | requestOwnedCancel (client : PmClientOrderKey)
  | applyOwnedCancelResult (intent : PmOwnedCancelIntent) (outcome : PmOwnedCancelOutcome)
  | compactProvenOwnedTerminal (client : PmClientOrderKey)
  | prepareFillWatermarkCompaction
  | commitFillWatermarkCompaction (ticket : PmPreparedFillCompaction)
  | abortFillWatermarkCompaction (ticket : PmPreparedFillCompaction)

/-- Run a method, and forget its value. -/
def ignore {α : Type} (m : Method α) : Method Unit := do
  let _ ← m

/-- Run a call. -/
def call : Op → Method Unit
  | .observeReconnect epoch ns => observeReconnect epoch ns
  | .recordExternalIngressFault fault => recordExternalIngressFault fault
  | .invalidateExternalDependency dependency fault =>
    ignore (invalidateExternalDependency dependency fault)
  | .registerOwnedOrder registration => registerOwnedOrder registration
  | .observeOrderReduction envelope knowledge => ignore (observeOrderReduction envelope knowledge)
  | .observeFillReduction envelope => ignore (observeFillReduction envelope)
  | .observeUnresolvedFill envelope => ignore (observeUnresolvedFill envelope)
  | .applyAccountSnapshot envelope => ignore (applyAccountSnapshot envelope)
  | .applyOpenOrdersSnapshot envelope reservations =>
    ignore (applyOpenOrdersSnapshot envelope reservations)
  | .applyOrderDetail envelope reservation => ignore (applyOrderDetail envelope reservation)
  | .applyReconciliation account fills => ignore (applyReconciliation account fills)
  | .evaluateQuoteCandidate request reference book =>
    ignore (evaluateQuoteCandidate request reference book)
  | .evaluateRisk request reference book => ignore (evaluateRisk request reference book)
  | .initializeRecoveredFillWatermark cursor => initializeRecoveredFillWatermark cursor
  | .requireRefresh reason => ignore (requireRefresh reason)
  | .markRefreshAdmitted ticket => ignore (markRefreshAdmitted ticket)
  | .completeRefresh ticket => ignore (completeRefresh ticket)
  | .admitOwnedQuote intent => ignore (admitOwnedQuote intent)
  | .applyOwnedSubmitResult client result => ignore (applyOwnedSubmitResult client result)
  | .issueOwnedImmediateAckTicket => ignore issueOwnedImmediateAckTicket
  | .observeOwnedImmediateFill ticket event reportedCumulative =>
    ignore (observeOwnedImmediateFill ticket event reportedCumulative)
  | .observeOwnedImmediateProgress ticket client venue progress =>
    ignore (observeOwnedImmediateProgress ticket client venue progress)
  | .observeOwnedFill observation => ignore (observeOwnedFill observation)
  | .observeOwnedProgress observation => ignore (observeOwnedProgress observation)
  | .recoverOwnedFill recovery => ignore (recoverOwnedFill recovery)
  | .recoverOwnedProgress observation => ignore (recoverOwnedProgress observation)
  | .finishOwnedRecovery highWatermark => finishOwnedRecovery highWatermark
  | .observeOwnedRemoteOrder identity => ignore (observeOwnedRemoteOrder identity)
  | .requestOwnedCancel client => ignore (requestOwnedCancel client)
  | .applyOwnedCancelResult intent outcome => ignore (applyOwnedCancelResult intent outcome)
  | .compactProvenOwnedTerminal client => ignore (compactProvenOwnedTerminal client)
  | .prepareFillWatermarkCompaction => ignore prepareFillWatermarkCompaction
  | .commitFillWatermarkCompaction ticket => ignore (commitFillWatermarkCompaction ticket)
  | .abortFillWatermarkCompaction ticket => abortFillWatermarkCompaction ticket

/-- The state that a call leaves, unless it aborted. -/
def step (op : Op) (s : PmPrivateState) : Option PmPrivateState := next (call op s)

section

variable {config : PmAccountConfig} {limits : PmRiskLimits}

/-! ### Connection, faults and observations -/

theorem keeps_ignore {α : Type} {m : Method α} (h : Keeps (Inv config limits) m) :
    Keeps (Inv config limits) (ignore m) := .bind h fun _ => .pure ()

theorem keeps_recordExternalIngressFault (fault : PmPrivateExternalIngressFault) :
    Keeps (Inv config limits) (recordExternalIngressFault fault) := by
  refine .bind (.modify fun _ hs => { hs with }) fun _ => .bind (.modify fun s hs => ?_) fun _ =>
    .bind keeps_setDivergent fun _ => .bind .get fun s => .bind (keeps_onRefresh ?_) fun _ => .pure ()
  · split_ifs
    · exact { hs with }
    · exact hs
  · exact fun _ ht => (PmRefreshState.require_spec ht _).2

theorem keeps_invalidate (dependency : PmPrivateDependency) :
    Keeps (Inv config limits) (invalidate dependency) := by
  cases dependency with
  | privateLifecycle => exact .modify fun _ hs => { hs with }
  | accountSnapshot => exact .modify fun _ hs => { hs with account := hs.account }
  | orderLifecycle =>
    exact .modify fun _ hs =>
      { hs with orders := hs.orders.tail ⟨.invalidateFreshness, trivial, rfl⟩ }
  | reconciliation => exact keeps_setDivergent

theorem keeps_requireForOwnership (ownership : OwnershipState) :
    Keeps (Inv config limits) (requireForOwnership ownership) := by
  cases ownership with
  | provenOwned => exact .pure ()
  | unmanaged | ambiguous => exact .bind (keeps_requireRefresh _) fun _ => .pure ()

variable (envelope : EventEnvelope PmOrderEvent) (knowledge : PmRemoteOrderKnowledge)

theorem keeps_finishOrder (occurrence : PmOwnedObservationOccurrence) (outcome : PmOrderApply) :
    Keeps (Inv config limits) (finishOrder envelope knowledge occurrence outcome) := by
  refine .bind (keeps_tryLifecycle (reduceOwnedOrderEvent_keeps (closed_lifecycleReached _) _ _ _))
    fun reduced => .bind (.modify fun _ hs => { hs with }) fun _ => .bind (keeps_askOrders _)
    fun found => .bind (.check _) fun ownership => .bind (keeps_requireForOwnership _) fun _ => ?_
  split_ifs
  · refine .bind (.check _) fun retained => ?_
    split
    · exact .bind (keeps_requireRefresh _) fun _ => .pure _
    · exact .pure _
  · exact .pure _

theorem keeps_observeOrderReduction :
    Keeps (Inv config limits) (observeOrderReduction envelope knowledge) := by
  refine .bind (keeps_preparePrivateEventEpoch _ _) fun _ => .bind (keeps_mintOwnedOccurrence _ _)
    fun occurrence => .bind (keeps_askLifecycle _) fun _ =>
    .bind (keeps_onOrders (.observe envelope knowledge) fun _ _ => next_ended _) fun result => ?_
  cases result with
  | ok outcome => exact keeps_finishOrder envelope knowledge occurrence outcome
  | error => exact .bind (keeps_recordError _ _) fun _ => .fail _

theorem keeps_requireForFill (outcome : PmFillApply) :
    Keeps (Inv config limits) (requireForFill outcome) := by
  cases outcome with
  | principalApplied fee settlement =>
    exact .bind keeps_setDivergent fun _ => .bind (keeps_requireRefresh _) fun _ =>
      .bind (keeps_requireForFee fee) fun _ => keeps_requireForSettlement settlement
  | enriched fee settlement =>
    exact .bind (keeps_requireForFee fee) fun _ => keeps_requireForSettlement settlement
  | duplicate | ignoredStale => exact .pure ()

theorem keeps_observeFillReduction (envelope : EventEnvelope PmFillEvent) :
    Keeps (Inv config limits) (observeFillReduction envelope) := by
  refine .bind (keeps_preparePrivateEventEpoch _ _) fun _ => .bind (keeps_mintOwnedOccurrence _ _)
    fun occurrence => .bind (keeps_askLifecycle _) fun _ =>
    .bind (keeps_onFills (.observe envelope occurrence) fun _ _ => rfl) fun result => ?_
  cases result with
  | ok outcome =>
    exact .bind (keeps_tryLifecycle (reduceOwnedFillEvent_keeps (closed_lifecycleReached _) _ _ _ _))
      fun _ => .bind (.modify fun _ hs => { hs with }) fun _ =>
      .bind (keeps_requireForFill outcome) fun _ => .pure _
  | error => exact .bind (keeps_recordError _ _) fun _ => .fail _

theorem keeps_requireForUnresolved (outcome : PmUnresolvedFillApply) :
    Keeps (Inv config limits) (requireForUnresolved outcome) := by
  cases outcome with
  | inserted =>
    exact .bind keeps_setDivergent fun _ => .bind (keeps_requireRefresh _) fun _ => .pure ()
  | settlementAdvanced _ settlement =>
    exact .bind keeps_setDivergent fun _ => .bind (keeps_requireRefresh _) fun _ =>
      keeps_requireForSettlement settlement
  | duplicate | ignoredStale => exact .pure ()

theorem keeps_observeUnresolvedFill (envelope : EventEnvelope PmUnresolvedFillObservation) :
    Keeps (Inv config limits) (observeUnresolvedFill envelope) := by
  have hobs : Keeps (Inv config limits)
      (onUnresolvedFills fun config fills => fills.observe config envelope) := fun s hs =>
    Keeps.attempt (fun t ht _ => { ht with
      unresolved := (PmUnresolvedFillState.observe_spec ht.unresolved _ envelope).2 }) s hs
  refine .bind (keeps_preparePrivateEventEpoch _ _) fun _ => .bind hobs fun result => ?_
  cases result with
  | ok outcome =>
    exact .bind (.modify fun _ hs => { hs with }) fun _ =>
      .bind (keeps_requireForUnresolved outcome) fun _ => .pure _
  | error => exact .bind (keeps_recordError _ _) fun _ => .fail _

/-! ### Complete answers of the venue -/

theorem keeps_applyAccountSnapshot (envelope : ServicedEnvelope PmCompleteAccountSnapshot) :
    Keeps (Inv config limits) (applyAccountSnapshot envelope) := by
  have happ : Keeps (Inv config limits)
      (onAccount fun config account => account.apply config envelope) := by
    intro s hs
    refine Keeps.attempt (fun t ht _ => ?_) s hs
    rw [hs.config_eq]
    exact { ht with account := (PmAccountState.apply_configured ht.account envelope).2 }
  refine .bind (keeps_requirePrivateEpoch _) fun _ => .bind happ fun result => ?_
  cases result with
  | error => exact .bind (keeps_recordError _ _) fun _ => .fail _
  | ok outcome =>
    cases outcome with
    | applied =>
      exact .bind keeps_setDivergent fun _ => .bind (keeps_requireRefresh _) fun _ =>
        .bind keeps_requireForAccountState fun _ => .pure _
    | duplicate | ignoredStale => exact .pure _

section

variable (occurrence : PmOwnedObservationOccurrence)

theorem keeps_preflightOrderEvents (events : List PmOrderEvent) :
    Keeps (Inv config limits) (preflightOrderEvents occurrence events) := by
  induction events with
  | nil => exact .pure ()
  | cons _ _ ih => exact .bind (keeps_askLifecycle _) fun _ => ih

theorem keeps_bridgeOrderEvent (event : PmOrderEvent) :
    Keeps (Inv config limits) (bridgeOrderEvent occurrence event) := by
  have hbri : Keeps (LifecycleReached config)
      (bridgeOwnedOrderEvent event occurrence .restReconciliation) :=
    .bind (reduceOwnedOrderEvent_keeps (closed_lifecycleReached _) _ _ _) fun _ => .pure _
  refine .bind (keeps_tryLifecycle hbri) fun result => ?_
  cases result with
  | matched => exact .pure _
  | ambiguousRemote => exact .bind (keeps_askOrders _) fun _ => .pure _

theorem keeps_bridgeOrderEvents (events : List PmOrderEvent) :
    Keeps (Inv config limits) (bridgeOrderEvents occurrence events) := by
  induction events with
  | nil => exact .pure _
  | cons event _ ih =>
    exact .bind (keeps_bridgeOrderEvent occurrence event) fun _ => .bind ih fun _ => .pure _

theorem keeps_applyOpenOrdersSnapshot (envelope : EventEnvelope PmCompleteOpenOrdersSnapshot)
    (reservations : List PmOpenOrderReservation) :
    Keeps (Inv config limits) (applyOpenOrdersSnapshot envelope reservations) := by
  refine .bind (keeps_requirePrivateEpoch _) fun _ => .bind (keeps_mintOwnedOccurrence _ _)
    fun occurrence => .bind (keeps_preflightOrderEvents _ _) fun _ =>
    .bind (keeps_onOrders (.applyOpenSnapshot envelope reservations) fun _ _ => next_ended _)
    fun result => ?_
  cases result with
  | ok =>
    exact .bind (keeps_bridgeOrderEvents _ _) fun _ => .bind (keeps_requireIf _ _) fun _ =>
      .bind (keeps_requireIf _ _) fun _ => .pure _
  | error => exact .bind (keeps_recordError _ _) fun _ => .fail _

theorem keeps_bridgeDetail (detail : PmExactOrderDetail)
    (outcome : PmOrderApply) : Keeps (Inv config limits)
    (bridgeDetail occurrence detail outcome) := by
  unfold bridgeDetail
  cases detail.order with
  | some event => exact keeps_bridgeOrderEvent occurrence event
  | none =>
    split_ifs
    · exact .bind (keeps_lifecycleOp (.observeDetailAbsence detail.requestedOrder occurrence)
        fun _ => rfl) fun _ => .pure _
    · exact .pure _

end

theorem keeps_applyOrderDetail (envelope : EventEnvelope PmExactOrderDetail)
    (reservation : PmReservationKnowledge) :
    Keeps (Inv config limits) (applyOrderDetail envelope reservation) := by
  refine .bind (keeps_requirePrivateEpoch _) fun _ => .bind (keeps_mintOwnedOccurrence _ _)
    fun occurrence => .bind (keeps_askLifecycle _) fun _ =>
    .bind (keeps_onOrders (.applyDetail envelope reservation) fun _ _ => next_ended _)
    fun result => ?_
  cases result with
  | ok outcome =>
    exact .bind (keeps_bridgeDetail occurrence envelope.payload outcome) fun _ =>
      .bind (keeps_requireIf _ _) fun _ => .pure _
  | error => exact .bind (keeps_recordError _ _) fun _ => .fail _

/-! ### Quotes -/

section

variable (request : PmPrivateQuoteRequest) (reference book : PmRiskDependency)

theorem keeps_evaluateRiskCandidate (orderSummary : PmOrderDecisionSummary) :
    Keeps (Inv config limits) (evaluateRiskCandidate request reference book orderSummary) := by
  refine .bind (.raise _ _) fun _ => .bind (keeps_failUnless _ _) fun _ => .bind (.raise _ _)
    fun _ => .get_bind fun s hs => .bind (keeps_orFail _ _) fun _ => .bind (.check _) fun _ => ?_
  refine .bind (.modify fun t ht => ?_) fun _ => .bind (keeps_requireIf _ _) fun _ => .pure _
  exact { ht with limits_eq := (PmRiskState.limits_evaluate _ _).trans hs.limits_eq }

theorem keeps_evaluateQuoteCandidate :
    Keeps (Inv config limits) (evaluateQuoteCandidate request reference book) := by
  refine .bind .get fun s => .bind (.check _) fun orderSummary => ?_
  cases s.quoteReadiness request orderSummary with
  | panic => exact .check _
  | err => exact .pure _
  | ok => exact .bind (keeps_evaluateRiskCandidate _ _ _ _) fun _ => .pure _

end

/-! ### Owned orders -/

variable {s : PmPrivateState}

theorem registration_of_prepare {intent : PmOwnedQuoteIntent}
    {outcome : PmOwnedQuoteAdmission} {plan : PmOrderState.PmOwnedRegistrationPlan}
    (h : s.prepareRegistration intent outcome = .ok (some plan)) :
    s.orders.prepareOwnedRegistration s.config.toPmPrivateStateConfig (registrationOf intent) =
      .ok plan := by
  unfold prepareRegistration at h
  split at h
  · obtain ⟨plan', hplan, heq⟩ := bind_eq_ok.mp h
    cases heq
    exact hplan
  · cases h

/-- An admission is a call of the owned lifecycle, and then one of the canonical orders. -/
theorem keeps_admitOwnedQuote (intent : PmOwnedQuoteIntent) :
    Keeps (Inv config limits) (admitOwnedQuote intent) := by
  intro s hs
  unfold admitOwnedQuote
  rw [bind_apply, askLifecycle_apply]
  cases hpre : s.ownedLifecycle.prepareAdmitQuote intent with
  | panic => trivial
  | err => exact hs
  | ok plan =>
  simp only
  rw [bind_apply_ok (get_apply s), bind_apply, askOrders, tryOrders_apply]
  cases hreg : s.prepareRegistration intent plan.outcome with
  | panic => trivial
  | err => exact hs
  | ok registrationPlan =>
  simp only
  unfold commitOwnedQuote
  rw [bind_apply, tryLifecycle_apply]
  have hlif : ∀ t, next (s.ownedLifecycle.commitPreflightedAdmitQuote plan) = some t →
      LifecycleReached config t := by
    intro t ht
    refine closed_lifecycleReached config (.prepareAndCommit intent) _ t hs.lifecycle ?_
    rw [← ht, PmOwnedOrderLifecycle.step, PmOwnedOrderLifecycle.call, next_ended,
      PmOwnedOrderLifecycle.prepareAndCommit, hpre]
  generalize s.ownedLifecycle.commitPreflightedAdmitQuote plan = result at hlif
  obtain ⟨outcome | error | _, t⟩ := result
  · have ht : Inv config limits { s with ownedLifecycle := t } :=
      { hs with lifecycle := hlif t rfl }
    cases registrationPlan with
    | none => exact ht
    | some registration =>
      have hord : ∀ o, next (s.orders.commitPreflightedOwnedRegistration registration) = some o →
          OrdersReached config o := by
        intro o ho
        refine hs.orders.tail ⟨.prepareAndCommit (registrationOf intent), trivial, ?_⟩
        rw [← ho, Order.step, Order.call, PmOrderState.prepareAndCommit, ← hs.config_eq,
          registration_of_prepare hreg]
      simp only [bind_apply, tryOrders_apply]
      generalize s.orders.commitPreflightedOwnedRegistration registration = result at hord
      obtain ⟨_ | _ | _, o⟩ := result
      · exact { ht with orders := hord o rfl }
      · exact { ht with orders := hord o rfl }
      · trivial
  · exact { hs with lifecycle := hlif t rfl }
  · trivial

variable (client : PmClientOrderKey) (result : PmOwnedSubmitResult)

theorem keeps_preflightOwnedSubmitResult :
    Keeps (Inv config limits) (preflightOwnedSubmitResult client result) := by
  refine .bind (keeps_askLifecycle _) fun _ => ?_
  cases boundVenue result with
  | none => exact .pure _
  | some => exact .bind (keeps_askOrders _) fun _ => .pure _

theorem keeps_bindOwnedVenue : Keeps (Inv config limits) (bindOwnedVenue client result) := by
  unfold bindOwnedVenue
  cases boundVenue result with
  | none => exact .pure _
  | some venue => exact keeps_tryOrders (.bindOwnedVenue client venue) fun _ _ => rfl

theorem keeps_applyOwnedSubmitResult :
    Keeps (Inv config limits) (applyOwnedSubmitResult client result) :=
  .bind (keeps_preflightOwnedSubmitResult client result) fun _ =>
    .bind (keeps_lifecycleOp (.applySubmitResult client result) fun _ => rfl) fun _ =>
    .bind (keeps_bindOwnedVenue client result) fun _ => .bind (keeps_requireIf _ _) fun _ => .pure _

theorem keeps_bridgeFill (event : PmFillEvent) (occurrence : PmOwnedObservationOccurrence)
    (source : PmOwnedObservationSource) (reportedCumulative : Option U256) :
    Keeps (Inv config limits) (bridgeFill event occurrence source reportedCumulative) := by
  have hbri : Keeps (LifecycleReached config)
      (bridgeOwnedFillEvent event occurrence source reportedCumulative) :=
    .bind (reduceOwnedFillEvent_keeps (closed_lifecycleReached _) _ _ _ _) fun _ => .pure _
  exact .bind (keeps_tryLifecycle hbri) fun _ => keeps_orFail _ _

theorem keeps_observeOwnedImmediateFill (ticket : PmOwnedImmediateAckTicket) (event : PmFillEvent)
    (reportedCumulative : Option U256) :
    Keeps (Inv config limits) (observeOwnedImmediateFill ticket event reportedCumulative) :=
  .bind (.bind .get fun _ => keeps_failUnless _ _) fun _ => .bind (keeps_askLifecycle _) fun _ =>
    .bind (keeps_failUnless _ _) fun _ => .bind (keeps_askLifecycle _) fun _ =>
    .bind (.modify fun _ hs => { hs with }) fun _ =>
    .bind (keeps_tryFills (.observeOwnedImmediate event ticket.occurrence) fun _ _ => rfl) fun _ =>
    .bind (keeps_bridgeFill _ _ _ _) fun _ => .bind (keeps_requireForFill _) fun _ => .pure _

/-! ### Recovery -/

theorem keeps_observeOwnedProgress (observation : PmOwnedOrderProgressObservation) :
    Keeps (Inv config limits) (observeOwnedProgress observation) :=
  .bind (keeps_preflightRecoveryOccurrence _) fun _ => .bind (keeps_askLifecycle _) fun _ =>
    .bind (keeps_lifecycleOp (.observeProgress observation) fun _ => rfl) fun _ =>
    .bind (.modify fun _ hs => { hs with }) fun _ => .pure _

theorem keeps_recoverOwnedFill (recovery : PmOwnedRecoveryFill) :
    Keeps (Inv config limits) (recoverOwnedFill recovery) :=
  .bind (keeps_prepareOwnedRecoveryEpoch _) fun _ =>
    .bind (keeps_preflightRecoveryOccurrence _) fun _ => .bind (keeps_askLifecycle _) fun _ =>
    .bind (keeps_tryFills (.observeOwnedRecovery recovery.event recovery.occurrence) fun _ _ => rfl)
    fun _ => .bind (keeps_bridgeFill _ _ _ _) fun _ => .bind (.modify fun _ hs => { hs with }) fun _ =>
    .bind (keeps_requireForFill _) fun _ => .pure _

/-! ### Compaction -/

theorem keeps_prepareFillWatermarkCompaction :
    Keeps (Inv config limits) prepareFillWatermarkCompaction := by
  refine .bind .get fun read => .bind (keeps_failUnless _ _) fun _ => .bind (keeps_orFail _ _)
    fun through => .bind (keeps_orFail _ _) fun _ => .bind (.modify fun _ hs => { hs with })
    fun _ => .bind (.modify fun s hs => ?_) fun _ => .bind (.modify fun _ hs => { hs with })
    fun _ => .pure _
  have hmark := hs.lifecycle.tail
    ⟨.markCompactableThrough read.nextFillCompactionGeneration through, trivial, rfl⟩
  exact { hs with lifecycle := hmark }

theorem keeps_preflightCompactions (clients : List PmClientOrderKey) :
    Keeps (Inv config limits) (preflightCompactions clients) := by
  induction clients with
  | nil => exact .pure ()
  | cons _ _ ih =>
    exact .bind (keeps_askLifecycle _) fun _ => .bind (keeps_askOrders _) fun _ => ih

theorem keeps_compactMarked (generation : UInt64) (rounds : ℕ) (result : PmFillCompaction) :
    Keeps (Inv config limits) (compactMarked generation rounds result) := by
  induction rounds generalizing result with
  | zero => exact .pure _
  | succ _ ih =>
    refine .bind (keeps_askLifecycle _) fun marked => ?_
    cases marked with
    | nil => exact .pure _
    | cons client =>
      exact .bind (keeps_lifecycleOp (.compactProvenTerminal client) fun _ => rfl) fun _ =>
        .bind (keeps_tryOrders (.compactProvenOwned client) fun _ _ => rfl) fun _ => ih _

/-- A round removes an order. -/
theorem length_of_compactProvenTerminal {s t : PmOwnedOrderLifecycle} (hs : s.Inv)
    {client : PmClientOrderKey} {compacted : PmOwnedTerminalCompaction}
    (h : s.compactProvenTerminal client = (.ok compacted, t)) :
    t.entries.length < s.entries.length := by
  rcases compactProvenTerminal_cases hs client with ⟨-, heq⟩ |
    ⟨i, e, -, hget, -, ⟨-, heq⟩ | ⟨-, _, _, heq, -, hents, -⟩⟩ <;> cases heq.symm.trans h
  have hpos := (List.getElem?_eq_some_iff.mp hget).1
  rw [hents, length_swapRemove]
  omega

/-- **The loop of the compaction ends**: as many rounds as there are orders are enough. -/
theorem compactMarked_of_length_le (generation : UInt64) {rounds : ℕ} (hs : s.ownedLifecycle.Inv)
    (hrou : s.ownedLifecycle.entries.length ≤ rounds) (result : PmFillCompaction) :
    compactMarked generation (rounds + 1) result s = compactMarked generation rounds result s := by
  induction rounds generalizing s result with
  | zero =>
    have hidx : s.ownedLifecycle.clientOrderIndex = [] :=
      List.eq_nil_iff_forall_not_mem.mpr fun i hi =>
        Nat.not_lt_zero i (lt_of_lt_of_le (hs.clients.lt_length hi) hrou)
    have hnone : s.ownedLifecycle.markedCompactionClients generation = some [] := by
      rw [markedCompactionClients, hidx]
      rfl
    simp [compactMarked, bind_apply, askLifecycle_apply, hnone]
  | succ rounds ih =>
    rw [compactMarked, compactMarked, bind_apply, bind_apply, askLifecycle_apply]
    cases s.ownedLifecycle.markedCompactionClients generation with
    | none => rfl
    | some marked =>
    cases marked with
    | nil => rfl
    | cons client =>
    simp only [expect_some, bind_apply, tryLifecycle_apply]
    have hstep : ∀ t, next (s.ownedLifecycle.compactProvenTerminal client) = some t →
        t.Inv := fun t ht => PmOwnedOrderLifecycle.inv_of_step hs
      (show PmOwnedOrderLifecycle.step (.compactProvenTerminal client) _ = some t from
        (next_ended _).trans ht)
    have hlen : ∀ compacted t, s.ownedLifecycle.compactProvenTerminal client = (.ok compacted, t) →
        t.entries.length < s.ownedLifecycle.entries.length := fun _ _ =>
      length_of_compactProvenTerminal hs
    generalize s.ownedLifecycle.compactProvenTerminal client = answer at hstep hlen
    obtain ⟨compacted | _ | _, t⟩ := answer
    · simp only [tryOrders_apply]
      obtain ⟨_ | _ | _, orders⟩ := s.orders.compactProvenOwned client
      · refine ih (s := { s with ownedLifecycle := t, orders := orders }) (hstep t rfl) ?_ _
        have := hlen compacted t rfl
        show t.entries.length ≤ rounds
        omega
      · rfl
      · rfl
    · rfl
    · rfl

theorem keeps_commitFillWatermarkCompaction (ticket : PmPreparedFillCompaction) :
    Keeps (Inv config limits) (commitFillWatermarkCompaction ticket) := by
  refine .bind (.bind .get fun _ => keeps_failUnless _ _) fun _ => .bind (.modify fun s hs => ?_)
    fun _ => .bind (keeps_askLifecycle _) fun _ => .bind (keeps_preflightCompactions _) fun _ =>
    .bind .get fun _ => .bind (keeps_compactMarked _ _ _) fun _ =>
    .bind (keeps_tryFills (.compactCoveredThrough ticket.through) fun _ _ => rfl) fun _ =>
    .bind (.modify fun _ hs => { hs with }) fun _ => .pure _
  have hcle := hs.lifecycle.tail
    ⟨.clearInvalidCompactionMarks ticket.generation ticket.through, trivial, rfl⟩
  exact { hs with lifecycle := hcle }

theorem keeps_abortFillWatermarkCompaction (ticket : PmPreparedFillCompaction) :
    Keeps (Inv config limits) (abortFillWatermarkCompaction ticket) := by
  refine .bind (.bind .get fun _ => keeps_failUnless _ _) fun _ => .bind (.modify fun s hs => ?_)
    fun _ => .modify fun _ hs => { hs with }
  have hcle := hs.lifecycle.tail ⟨.clearCompactionMarks ticket.generation, trivial, rfl⟩
  exact { hs with lifecycle := hcle }

/-! ### Every call -/

/-- **Every public method keeps the invariant**, also when it fails. -/
theorem keeps_call (op : Op) : Keeps (Inv config limits) (call op) := by
  cases op with
  | observeReconnect epoch ns => exact .bind (.check _) fun _ => keeps_enterEpoch epoch ns
  | recordExternalIngressFault fault => exact keeps_recordExternalIngressFault fault
  | invalidateExternalDependency dependency =>
    exact keeps_ignore (.bind (.modify fun _ hs => { hs with }) fun _ =>
      .bind (keeps_invalidate dependency) fun _ => keeps_requireRefresh _)
  | registerOwnedOrder registration =>
    exact keeps_tryOrders (.registerOwned registration) fun _ _ => rfl
  | observeOrderReduction envelope knowledge =>
    exact keeps_ignore (keeps_observeOrderReduction envelope knowledge)
  | observeFillReduction envelope => exact keeps_ignore (keeps_observeFillReduction envelope)
  | observeUnresolvedFill envelope => exact keeps_ignore (keeps_observeUnresolvedFill envelope)
  | applyAccountSnapshot envelope => exact keeps_ignore (keeps_applyAccountSnapshot envelope)
  | applyOpenOrdersSnapshot envelope reservations =>
    exact keeps_ignore (keeps_applyOpenOrdersSnapshot envelope reservations)
  | applyOrderDetail envelope reservation =>
    exact keeps_ignore (keeps_applyOrderDetail envelope reservation)
  | applyReconciliation account fills =>
    exact keeps_ignore fun _ hs => (applyReconciliation_returns account fills hs).ends
  | evaluateQuoteCandidate request reference book =>
    exact keeps_ignore (keeps_evaluateQuoteCandidate request reference book)
  | evaluateRisk =>
    exact keeps_ignore (.bind (.check _) fun _ => keeps_evaluateRiskCandidate _ _ _ _)
  | initializeRecoveredFillWatermark cursor =>
    exact keeps_tryFills (.initializeRecoveredWatermark cursor) fun _ _ =>
      (ended_unit _).symm
  | requireRefresh reason => exact keeps_ignore (keeps_requireRefresh reason)
  | markRefreshAdmitted ticket =>
    exact keeps_ignore (.bind (.bind .get fun _ => keeps_failUnless _ _) fun _ =>
      keeps_tryRefresh fun _ ht => (PmRefreshState.markAdmitted_spec ht ticket).2)
  | completeRefresh ticket =>
    exact keeps_ignore (.bind (.bind .get fun _ => keeps_failUnless _ _) fun _ =>
      keeps_tryRefresh fun _ ht => (PmRefreshState.complete_spec ht ticket).2)
  | admitOwnedQuote intent => exact keeps_ignore (keeps_admitOwnedQuote intent)
  | applyOwnedSubmitResult client result =>
    exact keeps_ignore (keeps_applyOwnedSubmitResult client result)
  | issueOwnedImmediateAckTicket =>
    exact keeps_ignore (.bind .get fun _ => .bind (keeps_failUnless _ _) fun _ =>
      .bind (keeps_mintOwnedOccurrence _ _) fun _ => .bind (.modify fun _ hs => { hs with }) fun _ =>
      .pure _)
  | observeOwnedImmediateFill ticket event reportedCumulative =>
    exact keeps_ignore (keeps_observeOwnedImmediateFill ticket event reportedCumulative)
  | observeOwnedImmediateProgress =>
    exact keeps_ignore (.bind (.bind .get fun _ => keeps_failUnless _ _) fun _ =>
      .bind (.modify fun _ hs => { hs with }) fun _ =>
      keeps_lifecycleOp (.observeProgress _) fun _ => rfl)
  | observeOwnedFill observation =>
    exact keeps_ignore (.bind (keeps_preflightRecoveryOccurrence _) fun _ =>
      .bind (keeps_askLifecycle _) fun _ =>
      .bind (keeps_lifecycleOp (.observeFill observation) fun _ => rfl) fun _ =>
      .bind (.modify fun _ hs => { hs with }) fun _ => .pure _)
  | observeOwnedProgress observation => exact keeps_ignore (keeps_observeOwnedProgress observation)
  | recoverOwnedFill recovery => exact keeps_ignore (keeps_recoverOwnedFill recovery)
  | recoverOwnedProgress observation =>
    exact keeps_ignore (.bind (keeps_prepareOwnedRecoveryEpoch _) fun _ =>
      keeps_observeOwnedProgress observation)
  | finishOwnedRecovery =>
    exact .bind .get fun _ => .bind (keeps_failUnless _ _) fun _ => .bind (keeps_failUnless _ _)
      fun _ => .modify fun _ hs => { hs with }
  | observeOwnedRemoteOrder identity =>
    exact keeps_ignore (keeps_lifecycleOp (.observeRemoteOrder identity) fun _ => rfl)
  | requestOwnedCancel client =>
    exact keeps_ignore (keeps_lifecycleOp (.requestCancel client) fun _ => rfl)
  | applyOwnedCancelResult intent outcome =>
    exact keeps_ignore (keeps_lifecycleOp (.applyCancelResult intent outcome) fun _ => rfl)
  | compactProvenOwnedTerminal client =>
    exact keeps_ignore (.bind (keeps_askLifecycle _) fun _ => .bind (keeps_askOrders _) fun _ =>
      .bind (keeps_lifecycleOp (.compactProvenTerminal client) fun _ => rfl) fun _ =>
      .bind (keeps_tryOrders (.compactProvenOwned client) fun _ _ => rfl) fun _ => .pure _)
  | prepareFillWatermarkCompaction => exact keeps_ignore keeps_prepareFillWatermarkCompaction
  | commitFillWatermarkCompaction ticket =>
    exact keeps_ignore (keeps_commitFillWatermarkCompaction ticket)
  | abortFillWatermarkCompaction ticket => exact keeps_abortFillWatermarkCompaction ticket

/-- **What holds in every state reached** from a new private state. -/
theorem inv_of_reach {ok : PmPrivateState → Op → Prop} {owner : PmRefreshOwnerId}
    (h : Reach step ok (.new owner config limits) s) : Inv config limits s :=
  h.invariant (inv_new owner config limits) fun _ op _ hs _ hstep => (keeps_call op).next hs hstep

end

end PmPrivateState

/-! ### Reconciliation -/

namespace PrivateSample

def config : PmAccountConfig :=
  { OrderSample.config with
    exchange := ⟨2, by decide⟩
    spenderDomain := .standard
    collateral_kind := ⟨_, rfl⟩
    outcome_kind := ⟨_, _, rfl⟩ }

/-- Ten units of collateral, and ten shares. -/
def plenty : U256 := .fromU64 10000000

/-- Limits that leave room for a few orders, and for a second of delay. -/
def limits : PmRiskLimits where
  order := ⟨⟨plenty, by decide⟩, plenty, by decide⟩
  exposure := ⟨plenty, plenty, plenty, plenty, by decide, by decide, by decide, by decide⟩
  cardinality := ⟨4, 4, 4, by decide, by decide, by decide⟩
  freshness := ⟨1000000000, 1000000000, 1000000000, 1000000000, 1000000000, 1000000000, by decide⟩

/-- A private state without any observation. -/
def fresh : PmPrivateState := .new ⟨1, by decide⟩ config limits

def evidence : PmSnapshotEvidence := Samples.evidence

def boundary : PmReconciliationRequestBoundary := Samples.boundary

def ordering : EventOrdering := Samples.answered 2 Samples.two_ne

/-- A complete answer about the account: one share, and collateral for twenty. -/
def accountSnapshot : PmCompleteAccountSnapshot where
  source := config.source
  accountScope := config.accountScope
  snapshot := evidence
  boundary := boundary
  expectedAssets := [config.collateralAsset, config.outcomeAsset]
  expectedSpenders := config.requiredSpenders
  expectedInstruments := [config.instrument]
  balances :=
    [⟨config.source, config.account, config.collateralAsset, plenty, evidence, rfl⟩,
      ⟨config.source, config.account, config.outcomeAsset, share.protocolUnits, evidence, rfl⟩]
  allowances :=
    [⟨config.source, config.requiredSpender config.collateralAsset, .erc20 plenty, evidence, rfl, rfl⟩,
      ⟨config.source, config.requiredSpender config.outcomeAsset, .erc1155Operator true, evidence, rfl,
        rfl⟩]
  positions :=
    [⟨config.source, config.account, config.instrument, share.protocolUnits, .tradable,
      evidence, rfl⟩]
  account_source := rfl
  assets_le := by decide
  spenders_le := by decide
  instruments_le := by decide
  assets_nodup := by decide +kernel
  spenders_nodup := by decide +kernel
  instruments_nodup := by decide +kernel
  spender_scope := by decide +kernel
  balances_le := by decide
  extra_balances_le := by decide +kernel
  balance_scope := by decide +kernel
  balances_nodup := by decide +kernel
  allowances_le := by decide
  extra_allowances_le := by decide +kernel
  allowance_scope := by decide +kernel
  allowances_nodup := by decide +kernel
  positions_le := by decide
  extra_positions_le := by decide +kernel
  position_scope := by decide +kernel
  positions_nodup := by decide +kernel

/-- The answer in its envelope. -/
def answer : ServicedEnvelope PmCompleteAccountSnapshot where
  source := config.source
  monotonicServiceNs := 2
  ordering := ordering
  payload := accountSnapshot
  service_ne_zero := two_ne
  source_eq := rfl
  connectionId := connection
  localWallReceiveNs := 1
  monotonicReceiveNs := 1
  wall_ne_zero := one_ne
  receive_ne_zero := one_ne
  receive_le := by decide

/-- A complete answer about fills, with at most one fill. -/
def query (rows : Option PmFillEvent)
    (h : ∀ fill ∈ rows, fill.account = config.account ∧ fill.source = config.source) :
    ServicedEnvelope PmCompleteFillQuery where
  source := config.source
  monotonicServiceNs := 2
  ordering := ordering
  payload :=
    { source := config.source
      accountScope := config.accountScope
      snapshot := evidence
      boundary := boundary
      requestedAfter := none
      resultingWatermark := ⟨config.accountScope, 0⟩
      fills := rows.toList
      account_source := rfl
      length_le := (le_trans (by cases rows <;> simp) (by decide : 1 ≤ maxPmReconciliationFills))
      cursor_scope := nofun
      watermark_scope := rfl
      row_scope := fun fill hfill => h fill (Option.mem_toList.mp hfill)
      keys_nodup := (by cases rows <;> simp) }
  service_ne_zero := two_ne
  source_eq := rfl
  connectionId := answer.connectionId
  localWallReceiveNs := 1
  monotonicReceiveNs := 1
  wall_ne_zero := one_ne
  receive_ne_zero := one_ne
  receive_le := by decide

/-- A quote is accepted by the venue. -/
def quoted : List PmPrivateState.Op :=
  [.observeReconnect ⟨1⟩ 1, .admitOwnedQuote Sample.firstQuote,
    .applyOwnedSubmitResult Sample.first (.accepted Sample.venue)]

/-- The query lists no fill. -/
def emptyQuery : ServicedEnvelope PmCompleteFillQuery :=
  query none fun _ h => absurd h (Option.not_mem_none _)

/-- The venue has rejected a quote, the account is reconciled, and the order is marked. -/
def marked : List PmPrivateState.Op :=
  [.observeReconnect ⟨1⟩ 1, .admitOwnedQuote Sample.firstQuote,
    .applyOwnedSubmitResult Sample.first .rejected, .applyReconciliation answer emptyQuery,
    .prepareFillWatermarkCompaction]

/-- The query lists a fill of the quote. -/
def filledQuery : ServicedEnvelope PmCompleteFillQuery :=
  query (some (FillSample.plain .mined)) fun _ h => by cases h; exact ⟨rfl, rfl⟩

end PrivateSample

namespace PmPrivateState

open PrivateSample

/-- One round compacts the order that is marked, and a second one finds none. -/
theorem compactMarked_of_marked :
    ∃ s, Reach step anyCall fresh s ∧ (s.ownedLifecycle.entries.length = 1 ∧
        s.ownedLifecycle.markedCompactionClients 1 = some [Sample.first] ∧
        (compactMarked 1 1 {} s).2.ownedLifecycle.entries.length = 0) ∧
      ∀ result, compactMarked 1 2 result s = compactMarked 1 1 result s :=
  exists_reach_and marked (by decide +kernel) fun _ hrch hlen => compactMarked_of_length_le 1
    (PmOwnedOrderLifecycle.inv_of_reach (inv_of_reach hrch).lifecycle) hlen.1.le

/-- **Reconciliation is atomic.** In every reachable state, the checks of a reconciliation do not
abort. If one of them fails, what the reconciliation would commit to is untouched; if they pass, the
three commits succeed, and the reconciliation ends with what they and the range committed. -/
theorem reconciliation_atomic {owner : PmRefreshOwnerId} {config : PmAccountConfig}
    {limits : PmRiskLimits} {s : PmPrivateState}
    (hreach : Reach step anyCall (.new owner config limits) s)
    (account : ServicedEnvelope PmCompleteAccountSnapshot)
    (fills : ServicedEnvelope PmCompleteFillQuery) :
    (applyReconciliation account fills s).1 ≠ .panic ∧
    ((∀ range t, preflightReconciliation account fills s ≠ (.ok (.inr range), t)) →
      Untouched s (applyReconciliation account fills s).2) ∧
    ∀ range t, preflightReconciliation account fills s = (.ok (.inr range), t) →
      ∃ t₁ outcome t₂ reductions t₃, commitFills fills range t = (.ok (), t₁) ∧
        commitAccount account t₁ = (.ok outcome, t₂) ∧
        commitRows fills range t₂ = (.ok reductions, t₃) ∧
        ∃ final, range.finalSequence = some final ∧
          Untouched { t₃ with ownedReductionHighWatermark := final }
            (applyReconciliation account fills s).2 := by
  have hs := inv_of_reach hreach
  have hchk := preflightReconciliation_returns account fills hs
  refine ⟨(applyReconciliation_returns account fills hs).ne_panic, fun hnot => ?_, ?_⟩
  · unfold applyReconciliation
    rw [bind_apply]
    generalize preflightReconciliation account fills s = result at hchk hnot
    obtain ⟨(_ | range) | _ | _, t⟩ := result
    · exact hchk.1.2
    · exact absurd rfl (hnot range t)
    · exact hchk.2
    · exact absurd hchk id
  · intro range t hpas
    rw [hpas] at hchk
    obtain ⟨t₁, outcome, t₂, reductions, t₃, final, hfil, hacc, hrows, hfin, hend⟩ :=
      commitReconciliation_returns hchk.1.1 (hchk.2 range rfl)
    refine ⟨t₁, outcome, t₂, reductions, t₃, hfil, hacc, hrows, final, hfin, ?_⟩
    have happ : applyReconciliation account fills s = commitReconciliation account fills range t :=
      bind_apply_ok hpas
    rw [happ]
    exact hend.state.2

/-- A fill of a quote is reconciled: the checks pass, every commit succeeds, and the fill is in the
state that the reconciliation ends in. -/
theorem reconciliation_commits : ∃ s range t, Reach step anyCall fresh s ∧
      preflightReconciliation answer filledQuery s = (.ok (.inr range), t) ∧
      (∃ t₁ outcome t₂ reductions t₃, commitFills filledQuery range t = (.ok (), t₁) ∧
        commitAccount answer t₁ = (.ok outcome, t₂) ∧
        commitRows filledQuery range t₂ = (.ok reductions, t₃) ∧
        ∃ final, range.finalSequence = some final ∧
          Untouched { t₃ with ownedReductionHighWatermark := final }
            (applyReconciliation answer filledQuery s).2) ∧
      (applyReconciliation answer filledQuery s).2.fills.entries.length = 1 := by
  have hrun : ∃ s, Reach step anyCall fresh s ∧ ((preflightReconciliation answer filledQuery s).1 =
        .ok (.inr ⟨1, 1, ⟨⟨1⟩, ⟨2⟩⟩, some ⟨1⟩⟩) ∧
        (applyReconciliation answer filledQuery s).2.fills.entries.length = 1) :=
    exists_reach_of_run quoted (by decide +kernel)
  obtain ⟨s, hrch, hpas, hlen⟩ := hrun
  have hcom := (reconciliation_atomic hrch answer filledQuery).2.2
  generalize hchk : preflightReconciliation answer filledQuery s = result at hpas hcom
  obtain ⟨_, t⟩ := result
  cases hpas
  exact ⟨s, _, t, hrch, hchk, hcom _ t rfl, hlen⟩

end PmPrivateState

end Reap.Private
