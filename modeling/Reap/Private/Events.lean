import Reap.Base.Act
import Reap.Core.Market
import Reap.Owned.Preflight

/-!
# Venue events of owned orders

An order or fill event of the venue becomes an observation of an owned order when the lifecycle
can match it. Each of these reductions is written twice in the source, once as a preflight that
only reads the lifecycle.

The fills of a complete query are preflighted as a batch. The lifecycle is not changed between
the rows, so the batch also sums what all its new rows of one venue order would add, and counts
how many new fill keys it needs.

## What is proved

* `reduceOwnedOrderEvent_keeps`, `reduceOwnedFillEvent_keeps` — a reduction is a sequence of
  lifecycle calls, so it keeps whatever every call keeps.
-/

namespace Reap.Private

open Base Reap.Core Reap.Owned Act

/-! ### Data -/

/-- `PmOwnedOrderReduction`. -/
structure PmOwnedOrderReduction where
  observation : PmOwnedOrderProgressObservation
  apply : PmOwnedProgressApply
  deriving DecidableEq

/-- `PmOwnedFillReduction`. -/
structure PmOwnedFillReduction where
  observation : PmOwnedFillObservation
  apply : PmOwnedFillApply
  deriving DecidableEq

/-- What became of a row. -/
inductive PmReconciliationFillDisposition where
  | ownedApplied (reduction : PmOwnedFillReduction)
  | ownedDuplicate (reduction : PmOwnedFillReduction)
  | ownedStale (reduction : PmOwnedFillReduction)
  | unowned (remote : PmOwnedRemoteOrderApply)
  deriving DecidableEq

/-- A row that was reduced. -/
structure PmReconciliationFillReduction where
  envelope : EventEnvelope PmFillEvent
  disposition : PmReconciliationFillDisposition

/-- Consecutive positions in the owner's order, for the rows of one
query. -/
structure PmOwnedObservationRange where
  firstSequence : UInt64
  count : ℕ
  privateOccurrence : PmPrivateOccurrence
  snapshotRevision : Option SnapshotRevision
  deriving DecidableEq

namespace PmOwnedObservationRange

/-- `occurrence`, which aborts outside of the range. -/
def occurrence (range : PmOwnedObservationRange) (index : ℕ) :
    Option PmOwnedObservationOccurrence :=
  if index < range.count ∧ range.firstSequence.toNat + index < 2 ^ 64 then
    if h : range.firstSequence + UInt64.ofNat index ≠ 0 then
      some ⟨⟨_, h⟩, some range.privateOccurrence, range.snapshotRevision, nofun⟩
    else none
  else none

/-- `final_sequence`. -/
def finalSequence (range : PmOwnedObservationRange) : Option UInt64 :=
  if range.firstSequence.toNat + (range.count - 1) < 2 ^ 64 then
    some (range.firstSequence + UInt64.ofNat (range.count - 1))
  else none

end PmOwnedObservationRange

section

variable (request : PmPrivateOccurrence) (fills : EventEnvelope PmCompleteFillQuery)
  (s : PmOwnedOrderLifecycle) (events : List PmFillEvent) (event : PmFillEvent)

/-- How a reduction of the lifecycle ends. -/
abbrev Reply := Outcome PmOwnedOrderLifecycleError

/-- A method of the lifecycle. -/
abbrev LifecycleMethod := Act PmOwnedOrderLifecycle PmOwnedOrderLifecycleError

/-- `PmOwnedFillObservation::new`. -/
def newFillObservation (key : PmFillKey) (quantity : PmQuantity) (reportedCumulative : Option U256)
    (occurrence : PmOwnedObservationOccurrence) (source : PmOwnedObservationSource) :
    Except PmOwnedOrderLifecycleError PmOwnedFillObservation :=
  if h : ∀ cumulative ∈ reportedCumulative, quantity.protocolUnits ≤ cumulative then
    .ok ⟨key, quantity, reportedCumulative, occurrence, source, h⟩
  else .error .fillCumulativeBelowQuantity

/-! ### Order events -/

/-- The order event does not describe the owned order. -/
def orderConflicts (owned : OwnedOrderEntry) (venue : PmVenueOrderKey)
    (event : PmOrderEvent) : Bool :=
  owned.venueOrder != some venue || owned.side != event.side ||
    owned.intent.price != event.price || owned.intent.quantity != event.progress.originalQuantity

/-- `reduce_owned_order_event`. -/
def reduceOwnedOrderEvent (event : PmOrderEvent) (occurrence : PmOwnedObservationOccurrence)
    (source : PmOwnedObservationSource) :
    LifecycleMethod (PmOwnedRemoteOrderApply × Option PmOwnedOrderReduction) := do
  match ← call (·.observeRemoteOrder event.order) with
  | .ambiguousRemote => return (.ambiguousRemote, none)
  | .matched client =>
  match ← check fun s => .expect (s.order client) with
  | none => return (.ambiguousRemote, none)
  | some owned =>
  match event.order.venueOrderKey.or owned.venueOrder with
  | none => return (.ambiguousRemote, none)
  | some venue =>
    if orderConflicts owned venue event then fail .venueBindingConflict
    else do
      let observation := ⟨client, venue, event.progress, occurrence, source⟩
      let apply ← call (·.observeProgress observation)
      return (.matched client, some ⟨observation, apply⟩)

/-- Whose order it is. -/
def bridgeOwnedOrderEvent (event : PmOrderEvent) (occurrence : PmOwnedObservationOccurrence)
    (source : PmOwnedObservationSource) : LifecycleMethod PmOwnedRemoteOrderApply := do
  return (← reduceOwnedOrderEvent event occurrence source).1

/-- Check an order event. -/
def preflightOwnedOrderEvent (event : PmOrderEvent)
    (occurrence : PmOwnedObservationOccurrence) (source : PmOwnedObservationSource) :
    Reply PmOwnedRemoteOrderApply := do
  match ← .expect (s.matchRemoteOrder event.order) with
  | .ambiguousRemote => return .ambiguousRemote
  | .matched client =>
  match ← .expect (s.order client) with
  | none => return .ambiguousRemote
  | some owned =>
  match event.order.venueOrderKey.or owned.venueOrder with
  | none => return .ambiguousRemote
  | some venue =>
    if orderConflicts owned venue event then .err .venueBindingConflict
    else do
      s.preflightProgress ⟨client, venue, event.progress, occurrence, source⟩
      return .matched client

/-! ### Fill events -/

/-- No worse than the limit. -/
def fillIsInsideLimit (side : PmOrderSide) (limit execution : PmPrice) : Bool :=
  match side with
  | .buy => decide (execution ≤ limit)
  | .sell => decide (limit ≤ execution)

/-- The fill event does not fit the owned order. -/
def fillConflicts (owned : OwnedOrderEntry) (event : PmFillEvent) : Bool :=
  owned.venueOrder != some event.fillKey.venueOrder || owned.side != event.execution.side ||
    !fillIsInsideLimit owned.side owned.intent.price event.execution.price

/-- `reduce_owned_fill_event`. -/
def reduceOwnedFillEvent (occurrence : PmOwnedObservationOccurrence)
    (source : PmOwnedObservationSource) (reportedCumulative : Option U256) :
    LifecycleMethod (PmOwnedRemoteOrderApply × Option PmOwnedFillReduction) := do
  match ← call (·.observeRemoteOrder event.order) with
  | .ambiguousRemote => return (.ambiguousRemote, none)
  | .matched client =>
  match ← check fun s => .expect (s.order client) with
  | none => return (.ambiguousRemote, none)
  | some owned =>
    if fillConflicts owned event then fail .fillConflict
    else do
      let observation ← check fun _ => .ofExcept
        (newFillObservation event.fillKey event.execution.quantity reportedCumulative occurrence source)
      let apply ← call (·.observeFill observation)
      return (.matched client, some ⟨observation, apply⟩)

/-- `bridge_owned_fill_event`. -/
def bridgeOwnedFillEvent (occurrence : PmOwnedObservationOccurrence)
    (source : PmOwnedObservationSource) (reportedCumulative : Option U256) :
    LifecycleMethod (Option PmOwnedFillApply) := do
  return (← reduceOwnedFillEvent event occurrence source reportedCumulative).2.map (·.apply)

/-- Check a fill event. -/
def preflightOwnedFillEvent
    (occurrence : PmOwnedObservationOccurrence) (source : PmOwnedObservationSource)
    (reportedCumulative : Option U256) : Reply Unit := do
  match ← .expect (s.matchRemoteOrder event.order) with
  | .ambiguousRemote => return ()
  | .matched client =>
  match ← .expect (s.order client) with
  | none => return ()
  | some owned =>
    if fillConflicts owned event then .err .fillConflict
    else do
      let observation ← .ofExcept
        (newFillObservation event.fillKey event.execution.quantity reportedCumulative occurrence source)
      s.preflightFill observation

/-! ### Batches of fills -/

/-- The inner loop of `preflight_owned_fill_batch`: what the rows of a venue order that are not in
the ledger add up to. -/
def batchTotal (s : PmOwnedOrderLifecycle) (venue : PmVenueOrderKey) :
    List PmFillEvent → U256 → Reply U256
  | [], total => .ok total
  | candidate :: rest, total =>
    if candidate.fillKey.venueOrder ≠ venue ∨ s.hasFill candidate.fillKey = true then
      batchTotal s venue rest total
    else
      match total.checkedAdd candidate.execution.quantity.protocolUnits with
      | .error _ => .err .arithmeticOverflow
      | .ok total => batchTotal s venue rest total

/-- One round of the loop of `preflight_owned_fill_batch`, which says whether the row is a new
fill of an owned order. -/
def preflightBatchRow
    (source : PmOwnedObservationSource) (occurrence : PmOwnedObservationOccurrence)
    (event : PmFillEvent) : Reply Bool := do
  preflightOwnedFillEvent s event occurrence source none
  match ← .expect (s.matchRemoteOrder event.order) with
  | .ambiguousRemote => return false
  | .matched client =>
  if s.hasFill event.fillKey then return false
  else do
    match ← .expect (s.order client) with
    | none => .err .unboundVenueOrder
    | some owned =>
      let batch ← batchTotal s event.fillKey.venueOrder events .zero
      match owned.knownFillTotal.checkedAdd batch with
      | .error _ => .err .arithmeticOverflow
      | .ok total => if owned.original < total then .err .overfill else return true

/-- The loop of `preflight_owned_fill_batch`, with how many new fills there are. -/
def preflightBatchRows (s : PmOwnedOrderLifecycle) (events : List PmFillEvent)
    (range : PmOwnedObservationRange) (source : PmOwnedObservationSource) :
    ℕ → List PmFillEvent → ℕ → Reply ℕ
  | _, [], newOwnedFills => .ok newOwnedFills
  | index, event :: rest, newOwnedFills => do
    let occurrence ← .expect (range.occurrence index)
    let isNew ← preflightBatchRow s events source occurrence event
    preflightBatchRows s events range source (index + 1) rest
      (if isNew then newOwnedFills + 1 else newOwnedFills)

/-- Check the fills of a query. -/
def preflightOwnedFillBatch
    (range : PmOwnedObservationRange) (source : PmOwnedObservationSource) : Reply Unit := do
  let newOwnedFills ← preflightBatchRows s events range source 0 events 0
  if maxPmOwnedFillKeys < s.fills.length + newOwnedFills then .err .fillCapacity else .ok ()

/-- A row of a query in an envelope of its own; the program aborts if its source is another. -/
def rowEnvelope (fill : PmFillEvent) : Option (EventEnvelope PmFillEvent) :=
  if h : fills.source = fill.source then
    some ⟨fills.source, fills.monotonicServiceNs, fills.ordering, fill, fills.service_ne_zero, h⟩
  else none

/-- What is reported of a row that has been reduced. -/
def disposition (staleBeforeCut : Bool) (remote : PmOwnedRemoteOrderApply) :
    Option PmOwnedFillReduction → PmReconciliationFillDisposition
  | none => .unowned remote
  | some reduction =>
    match reduction.apply with
    | .applied .. => .ownedApplied reduction
    | .duplicate .. => if staleBeforeCut then .ownedStale reduction else .ownedDuplicate reduction
    | .ignoredOldEpoch => .ownedStale reduction

/-- The leg of the row was observed after the query was requested. -/
def staleBefore (key : PmFillKey) : Bool :=
  match s.fills.find? (·.key = key) with
  | none => false
  | some prior => prior.lastOccurrence.privateOccurrence.any fun last => decide (request < last)

/-- One round of the loop of `apply_reconciliation_inner` over the rows of a query. The reduction
is expected to succeed. -/
def reduceRow (range : PmOwnedObservationRange)
    (request : PmPrivateOccurrence) (index : ℕ) (fill : PmFillEvent) :
    LifecycleMethod PmReconciliationFillReduction := do
  let occurrence ← check fun _ => .expect (range.occurrence index)
  let staleBeforeCut ← check fun s => .ok (staleBefore request s fill.fillKey)
  let (remote, owned) ← expect (reduceOwnedFillEvent fill occurrence .restReconciliation none)
  let envelope ← check fun _ => .expect (rowEnvelope fills fill)
  return ⟨envelope, disposition staleBeforeCut remote owned⟩

/-- The loop of `apply_reconciliation_inner` over the rows of a query. -/
def reduceRows (fills : EventEnvelope PmCompleteFillQuery) (range : PmOwnedObservationRange)
    (request : PmPrivateOccurrence) :
    ℕ → List PmFillEvent → LifecycleMethod (List PmReconciliationFillReduction)
  | _, [] => return []
  | index, fill :: rest => do
    let row ← reduceRow fills range request index fill
    let rows ← reduceRows fills range request (index + 1) rest
    return row :: rows

end

/-! ### Sequences of lifecycle calls -/

section

open PmOwnedOrderLifecycle

variable {I : PmOwnedOrderLifecycle → Prop}

/-- A property of the record that every call keeps. -/
def Closed (I : PmOwnedOrderLifecycle → Prop) : Prop :=
  ∀ op s t, I s → step op s = some t → I t

theorem Closed.call {α : Type} (hI : Closed I)
    {f : PmOwnedOrderLifecycle → Reply α × PmOwnedOrderLifecycle} (op : Op)
    (h : ∀ s, s.call op = Outcome.ended (f s)) : Act.Keeps I (call f) :=
  .call fun s t hs ht => hI op s t hs (by rw [step, h, Outcome.next_ended, ht])

theorem reduceOwnedOrderEvent_keeps (hI : Closed I) (event : PmOrderEvent)
    (occurrence : PmOwnedObservationOccurrence) (source : PmOwnedObservationSource) :
    Act.Keeps I (reduceOwnedOrderEvent event occurrence source) := by
  refine .bind (hI.call (.observeRemoteOrder event.order) fun _ => rfl) fun matched => ?_
  cases matched with
  | ambiguousRemote => exact .pure _
  | matched =>
  refine .bind (.check _) fun found => ?_
  cases found with
  | none => exact .pure _
  | some owned =>
  simp only
  cases event.order.venueOrderKey.or owned.venueOrder with
  | none => exact .pure _
  | some =>
  simp only
  split
  · exact .fail _
  · exact .bind (hI.call (.observeProgress _) fun _ => rfl) fun _ => .pure _

theorem reduceOwnedFillEvent_keeps (hI : Closed I) (event : PmFillEvent)
    (occurrence : PmOwnedObservationOccurrence) (source : PmOwnedObservationSource)
    (reportedCumulative : Option U256) :
    Act.Keeps I (reduceOwnedFillEvent event occurrence source reportedCumulative) := by
  refine .bind (hI.call (.observeRemoteOrder event.order) fun _ => rfl) fun matched => ?_
  cases matched with
  | ambiguousRemote => exact .pure _
  | matched =>
  refine .bind (.check _) fun found => ?_
  cases found with
  | none => exact .pure _
  | some =>
  simp only
  split
  · exact .fail _
  · refine .bind (.check _) fun observation => ?_
    exact .bind (hI.call (.observeFill observation) fun _ => rfl) fun _ => .pure _

theorem reduceRows_keeps (hI : Closed I) (fills : EventEnvelope PmCompleteFillQuery)
    (range : PmOwnedObservationRange) (request : PmPrivateOccurrence) (index : ℕ)
    (rows : List PmFillEvent) : Act.Keeps I (reduceRows fills range request index rows) := by
  induction rows generalizing index with
  | nil => exact .pure _
  | cons _ _ ih =>
    refine .bind (.bind (.check _) fun occurrence => .bind (.check _) fun stale => ?_) fun row =>
      .bind (ih _) fun rows => .pure _
    refine .bind (.expect (reduceOwnedFillEvent_keeps hI _ _ _ _)) fun reduced => ?_
    exact .bind (.check _) fun envelope => .pure _

end

end Reap.Private
