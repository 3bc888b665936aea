import Reap.Core.Event

/-!
# Envelopes and reconciliation aggregates

What reaches the private state of an account: single events in an envelope that carries
their ordering evidence, and the complete answers of the venue to a reconciliation request.
An aggregate is complete for its scope, so what it does not list is absent.

The proof fields are the checks of the source's constructors. The envelope keeps the fields
that the private state reads.
-/

namespace Reap.Core

universe u

/-- At most this many orders. -/
def maxPmReconciliationOrders : ℕ := 1024

/-- At most this many fills. -/
def maxPmReconciliationFills : ℕ := 8192

/-! ### Envelopes -/

/-- A payload that knows its source. -/
class PmSourceBound (π : Type u) where
  source : π → PmProductSource

/-- The ordering evidence of an event. -/
structure EventOrdering where
  connectionEpoch : ConnectionEpoch
  snapshotRevision : Option SnapshotRevision
  localIngressSequence : IngressSequence
  epoch_ne_zero : connectionEpoch.value ≠ 0
  revision_ne_zero : ∀ revision ∈ snapshotRevision, revision.value ≠ 0
  ingress_ne_zero : localIngressSequence.value ≠ 0

/-- A payload with its source, its ordering and the time it is served. -/
structure EventEnvelope (π : Type u) [PmSourceBound π] where
  source : PmProductSource
  monotonicServiceNs : UInt64
  ordering : EventOrdering
  payload : π
  service_ne_zero : monotonicServiceNs ≠ 0
  source_eq : source = PmSourceBound.source payload

instance : PmSourceBound PmOrderEvent := ⟨PmOrderEvent.source⟩

instance : PmSourceBound PmFillEvent := ⟨PmFillEvent.source⟩

/-- The occurrence of the event in an envelope. -/
def EventEnvelope.occurrence {π : Type u} [PmSourceBound π] (envelope : EventEnvelope π) :
    PmPrivateOccurrence :=
  ⟨envelope.ordering.connectionEpoch, envelope.ordering.localIngressSequence⟩

/-! ### Aggregates -/

/-- The sequence numbers of a request and of its answer. -/
@[ext] structure PmReconciliationRequestBoundary where
  requestSequence : IngressSequence
  completionSequence : IngressSequence
  request_ne_zero : requestSequence.value ≠ 0
  request_lt : requestSequence < completionSequence

instance : DecidableEq PmReconciliationRequestBoundary := fun _ _ =>
  decidable_of_iff' _ PmReconciliationRequestBoundary.ext_iff

/-- `PmSnapshotEvidence`. -/
structure PmSnapshotEvidence where
  revision : SnapshotRevision
  ne_zero : revision.value ≠ 0

instance : DecidableEq PmSnapshotEvidence := fun a b =>
  decidable_of_iff (a.revision = b.revision) (by cases a; cases b; simp)

/-- All open orders of an account. Every row has a venue key,
and no two rows share a key. -/
structure PmCompleteOpenOrdersSnapshot where
  source : PmProductSource
  accountScope : PmAccountScope
  snapshot : PmSnapshotEvidence
  boundary : PmReconciliationRequestBoundary
  orders : List PmOrderEvent
  account_source : validateAccountSource source accountScope.handle = .ok ()
  length_le : orders.length ≤ maxPmReconciliationOrders
  row_scope : ∀ order ∈ orders, order.account = accountScope.handle ∧ order.source = source
  row_venue : ∀ order ∈ orders, order.order.venueOrderKey ≠ none
  clients_nodup : (orders.filterMap (·.order.clientOrderKey)).Nodup
  venues_nodup : (orders.filterMap (·.order.venueOrderKey)).Nodup

instance : PmSourceBound PmCompleteOpenOrdersSnapshot := ⟨PmCompleteOpenOrdersSnapshot.source⟩

/-- The complete answer for one venue order, which may be that there is
no such order. -/
structure PmExactOrderDetail where
  source : PmProductSource
  accountScope : PmAccountScope
  snapshot : PmSnapshotEvidence
  boundary : PmReconciliationRequestBoundary
  requestedOrder : PmVenueOrderKey
  order : Option PmOrderEvent
  account_source : validateAccountSource source accountScope.handle = .ok ()
  requested_account : requestedOrder.account = accountScope.handle
  row_scope : ∀ event ∈ order, event.account = accountScope.handle ∧ event.source = source
  row_venue : ∀ event ∈ order, event.order.venueOrderKey = some requestedOrder

instance : PmSourceBound PmExactOrderDetail := ⟨PmExactOrderDetail.source⟩

/-- Where a fill query of an account left off. Its 32 bytes mean nothing
here. -/
structure PmFillQueryCursor where
  accountScope : PmAccountScope
  bytes : BitVec 256
  deriving DecidableEq

/-- All fills of an account since a cursor, each listed once. -/
structure PmCompleteFillQuery where
  source : PmProductSource
  accountScope : PmAccountScope
  snapshot : PmSnapshotEvidence
  boundary : PmReconciliationRequestBoundary
  requestedAfter : Option PmFillQueryCursor
  resultingWatermark : PmFillQueryCursor
  fills : List PmFillEvent
  account_source : validateAccountSource source accountScope.handle = .ok ()
  length_le : fills.length ≤ maxPmReconciliationFills
  cursor_scope : ∀ cursor ∈ requestedAfter, cursor.accountScope = accountScope
  watermark_scope : resultingWatermark.accountScope = accountScope
  row_scope : ∀ fill ∈ fills, fill.account = accountScope.handle ∧ fill.source = source
  keys_nodup : (fills.map (·.fillKey)).Nodup

instance : PmSourceBound PmCompleteFillQuery := ⟨PmCompleteFillQuery.source⟩

/-! ### The configured scope -/

/-- The scope of one private-state owner. It never changes. -/
structure PmPrivateStateConfig where
  source : PmProductSource
  accountScope : PmAccountScope
  instrument : PmInstrumentHandle
  tick : PmTick
  minimumOrderSize : PmQuantity
  collateralAsset : PmAssetId
  outcomeAsset : PmAssetId
  account_source : validateAccountSource source accountScope.handle = .ok ()
  deriving DecidableEq

/-- `account`. -/
def PmPrivateStateConfig.account (config : PmPrivateStateConfig) : PmAccountHandle :=
  config.accountScope.handle

end Reap.Core
