import Reap.Fill.Balance
import Reap.Private.Reducer

/-!
# What holds between the methods of the private state

The parts of the private state are changed by calls of their own methods only, so what every run of
a part's calls keeps also holds of the part here. `PmPrivateState.Inv` says so for every part. The
canonical orders and the owned lifecycle are reached by their own calls; the other parts satisfy the
invariants of their modules.

This module has the rules for calls of the parts, and with them that what the public methods are
made of keeps the invariant.
-/

namespace Reap.Private

open Base Reap.Core Reap.Fill Reap.Order Reap.Owned Outcome Act

/-- The canonical orders are reached by calls of their methods. -/
def OrdersReached (config : PmAccountConfig) (orders : PmOrderState) : Prop :=
  Reach (Order.step config.toPmPrivateStateConfig) anyCall .new orders

/-- The owned lifecycle is reached by calls of its methods. -/
def LifecycleReached (config : PmAccountConfig) (lifecycle : PmOwnedOrderLifecycle) : Prop :=
  Reach PmOwnedOrderLifecycle.step anyCall (.new config.accountScope config.instrument) lifecycle

theorem closed_lifecycleReached (config : PmAccountConfig) : Closed (LifecycleReached config) :=
  fun op _ _ hs hstep => hs.tail ⟨op, trivial, hstep⟩

namespace PmPrivateState

/-- What holds between the methods. -/
structure Inv (config : PmAccountConfig) (limits : PmRiskLimits) (s : PmPrivateState) : Prop where
  config_eq : s.config = config
  riskLimits_eq : s.riskLimits = limits
  limits_eq : s.risk.limits = limits
  orders : OrdersReached config s.orders
  lifecycle : LifecycleReached config s.ownedLifecycle
  fills : Stored config.toPmPrivateStateConfig s.fills.entries
  unresolved : s.unresolvedFills.Ordered
  refresh : s.refresh.Ordered
  account : PmAccountState.Configured config s.account

theorem inv_new (owner : PmRefreshOwnerId) (config : PmAccountConfig) (limits : PmRiskLimits) :
    Inv config limits (.new owner config limits) where
  config_eq := rfl
  riskLimits_eq := rfl
  limits_eq := rfl
  orders := .refl
  lifecycle := .refl
  fills := stored_nil _
  unresolved := PmUnresolvedFillState.ordered_new
  refresh := PmRefreshState.ordered_new owner
  account := rfl

section

variable {α : Type} {config : PmAccountConfig} {limits : PmRiskLimits}

/-! ### Calls of the parts -/

theorem keeps_orFail (value : Option α) (error : PmPrivateStateError) :
    Keeps (Inv config limits) (orFail value error) := by
  cases value with
  | none => exact .fail error
  | some value => exact .pure value

theorem keeps_failUnless (condition : Prop) [Decidable condition] (error : PmPrivateStateError) :
    Keeps (Inv config limits) (failUnless condition error) := by
  unfold failUnless
  split
  · exact .pure ()
  · exact .fail error

variable {call : PmPrivateStateConfig → PmOrderState → Outcome PmOrderStateError α × PmOrderState}

section

variable (op : Order.Op)
  (h : ∀ config orders, Order.step config op orders = next (call config orders))

include h

theorem keeps_onOrders : Keeps (Inv config limits) (onOrders call) := by
  intro s hs
  refine Keeps.attempt (fun t ht hrep => ?_) s hs
  rw [hs.config_eq] at hrep ⊢
  have hnext := (h _ _).trans (next_eq_some.mpr ⟨hrep, rfl⟩)
  exact { ht with orders := ht.orders.tail ⟨op, trivial, hnext⟩ }

theorem keeps_tryOrders : Keeps (Inv config limits) (tryOrders call) :=
  .bind (keeps_onOrders op h) fun _ => .raise _ _

end

theorem keeps_askOrders (call : PmPrivateStateConfig → PmOrderState → Outcome PmOrderStateError α) :
    Keeps (Inv config limits) (askOrders call) :=
  .bind (fun s hs => Keeps.attempt (fun _ ht _ => { ht with }) s hs) fun _ => .raise _ _

theorem keeps_tryLifecycle {call : LifecycleMethod α} (h : Keeps (LifecycleReached config) call) :
    Keeps (Inv config limits) (tryLifecycle call) := by
  refine .bind (.attempt fun s hs hrep => ?_) fun _ => .raise _ _
  exact { hs with lifecycle := h.next hs.lifecycle (next_eq_some.mpr ⟨hrep, rfl⟩) }

theorem keeps_lifecycleOp
    {call : PmOwnedOrderLifecycle → Outcome PmOwnedOrderLifecycleError α × PmOwnedOrderLifecycle}
    (op : Owned.Op) (h : ∀ s : PmOwnedOrderLifecycle, s.call op = ended (call s)) :
    Keeps (Inv config limits) (tryLifecycle call) :=
  keeps_tryLifecycle ((closed_lifecycleReached config).call op h)

theorem keeps_askLifecycle (call : PmOwnedOrderLifecycle → Outcome PmOwnedOrderLifecycleError α) :
    Keeps (Inv config limits) (askLifecycle call) :=
  .bind (.attempt fun _ hs _ => { hs with }) fun _ => .raise _ _

section

variable {call : PmPrivateStateConfig → PmFillState → Outcome PmFillStateError α × PmFillState}
  (op : Fill.Op)
  (h : ∀ config fills, Fill.call config op fills = ended (call config fills))

include h

theorem keeps_onFills : Keeps (Inv config limits) (onFills call) := by
  intro s hs
  refine Keeps.attempt (fun t ht hrep => ?_) s hs
  rw [hs.config_eq] at hrep ⊢
  have hsto := stored_of_call ht.fills op
  rw [h] at hsto
  exact { ht with fills := hsto (by simpa [ended] using hrep) }

theorem keeps_tryFills : Keeps (Inv config limits) (tryFills call) :=
  .bind (keeps_onFills op h) fun _ => .raise _ _

end

section

variable {call : PmRefreshState → Outcome PmRefreshError α × PmRefreshState}
  (h : ∀ s : PmRefreshState, s.Ordered → (call s).2.Ordered)

include h

theorem keeps_onRefresh : Keeps (Inv config limits)
    (attempt (·.refresh) (fun s t => { s with refresh := t }) call :
      Method (Except PmRefreshError α)) :=
  .attempt fun s hs _ => { hs with refresh := h s.refresh hs.refresh }

theorem keeps_tryRefresh : Keeps (Inv config limits) (tryRefresh call) :=
  .bind (keeps_onRefresh h) fun _ => .raise _ _

end

/-! ### Obligations and halts -/

theorem keeps_requireRefresh (reason : PmRefreshReason) :
    Keeps (Inv config limits) (requireRefresh reason) := fun s hs =>
  keeps_tryRefresh (fun _ ht => (PmRefreshState.require_spec ht _).2) s hs

theorem keeps_requireWhen (condition : PmPrivateState → Bool) (reason : PmRefreshReason) :
    Keeps (Inv config limits) (requireWhen condition reason) := by
  refine .bind .get fun s => ?_
  split
  · exact .bind (keeps_requireRefresh reason) fun _ => .pure ()
  · exact .pure ()

theorem keeps_requireIf (flag : Bool) (reason : PmRefreshReason) :
    Keeps (Inv config limits) (requireIf flag reason) := by
  unfold requireIf
  split
  · exact .bind (keeps_requireRefresh reason) fun _ => .pure ()
  · exact .pure ()

theorem keeps_setDivergent : Keeps (Inv config limits) setDivergent :=
  .bind (.check _) fun _ => .modify fun _ hs => { hs with }

/-- An error of a part halts, and requires a refresh. -/
theorem keeps_recordError (halt : PmPrivateHaltReason) (reason : PmRefreshReason) :
    Keeps (Inv config limits) (do haltFor halt; let _ ← requireRefresh reason) :=
  .bind (.modify fun _ hs => { hs with }) fun _ => .bind (keeps_requireRefresh _) fun _ => .pure ()

theorem keeps_requireForFee (fee : PmFillFeeState) :
    Keeps (Inv config limits) (requireForFee fee) := by
  cases fee with
  | unknown | incomplete | unmappedAsset =>
    exact .bind (keeps_requireRefresh _) fun _ => .pure ()
  | known => exact .pure ()

theorem keeps_requireForSettlement (settlement : PmFillSettlementStatus) :
    Keeps (Inv config limits) (requireForSettlement settlement) := by
  cases settlement with
  | retrying | failed => exact .bind (keeps_requireRefresh _) fun _ => .pure ()
  | matched | matchedNotBroadcasted | mined | confirmed => exact .pure ()

theorem keeps_requireForAccountState : Keeps (Inv config limits) requireForAccountState :=
  .bind (keeps_requireWhen _ _) fun _ => .bind (keeps_requireWhen _ _) fun _ =>
    keeps_requireWhen _ _

variable (epoch : ConnectionEpoch)

theorem keeps_enterEpoch (monotonicNs : UInt64) :
    Keeps (Inv config limits) (enterEpoch epoch monotonicNs) := by
  refine .bind (keeps_askLifecycle _) fun _ => .bind (keeps_requireRefresh _) fun _ =>
    .bind (keeps_requireRefresh _) fun _ => .bind ?_ fun _ =>
    .bind (.modify fun _ hs => { hs with }) fun _ => .bind (.modify fun s hs => ?_) fun _ =>
    keeps_setDivergent
  · exact keeps_lifecycleOp (.beginEpoch epoch) fun _ => rfl
  · exact { hs with orders := hs.orders.tail ⟨.invalidateFreshness, trivial, rfl⟩ }

theorem keeps_preparePrivateEventEpoch (monotonicNs : UInt64) :
    Keeps (Inv config limits) (preparePrivateEventEpoch epoch monotonicNs) := by
  refine .bind .get fun s => ?_
  cases s.currentEpoch with
  | none => exact keeps_enterEpoch epoch monotonicNs
  | some =>
    simp only
    split_ifs
    · exact .fail _
    · exact .pure ()
    · exact keeps_enterEpoch epoch monotonicNs

theorem keeps_requirePrivateEpoch : Keeps (Inv config limits) (requirePrivateEpoch epoch) := by
  refine .bind .get fun s => ?_
  cases s.currentEpoch with
  | none => exact .fail _
  | some =>
    simp only
    split_ifs
    · exact .fail _
    · exact .fail _
    · exact .pure ()

variable (occurrence : PmOwnedObservationOccurrence)

theorem keeps_prepareOwnedRecoveryEpoch :
    Keeps (Inv config limits) (prepareOwnedRecoveryEpoch occurrence) := by
  unfold prepareOwnedRecoveryEpoch
  cases occurrence.privateOccurrence with
  | none => exact .pure ()
  | some observed =>
    have hres : Keeps (Inv config limits) (do
        tryLifecycle (·.restoreEpochForRecovery observed.epoch)
        modify fun s => { s with currentEpoch := some observed.epoch }) :=
      .bind (keeps_lifecycleOp (.restoreEpochForRecovery observed.epoch) fun _ => rfl) fun _ =>
        .modify fun _ hs => { hs with }
    refine .bind .get fun s => ?_
    cases s.currentEpoch with
    | none => exact hres
    | some =>
      simp only
      split_ifs
      · exact .fail _
      · exact .pure ()
      · exact hres

theorem keeps_mintOwnedOccurrence (privateOccurrence : Option PmPrivateOccurrence)
    (snapshotRevision : Option SnapshotRevision) :
    Keeps (Inv config limits) (mintOwnedOccurrence privateOccurrence snapshotRevision) :=
  .bind .get fun _ => .bind (keeps_failUnless _ _) fun _ => .bind (keeps_orFail _ _) fun _ =>
    .bind (.raise _ _) fun _ => .bind (.raise _ _) fun _ =>
    .bind (.modify fun _ hs => { hs with }) fun _ => .pure _

theorem keeps_preflightRecoveryOccurrence :
    Keeps (Inv config limits) (preflightRecoveryOccurrence occurrence) :=
  .bind .get fun _ => .bind (keeps_failUnless _ _) fun _ => keeps_failUnless _ _

end

end PmPrivateState

end Reap.Private
