import Reap.Order.Table

/-!
# The order state: its transitions

Every function here is one of the source's order state, under the source's name. A function
that takes the state by mutable reference returns how it ended and the state it leaves, also
when it fails. The configuration is fixed for the life of a state.

The counters of one snapshot are bounded by the number of its rows, so the source's
saturating sixteen-bit additions never saturate; they are natural numbers here.
-/

namespace Reap.Order

open Base Reap.Core

/-! ### Checks of the reconciliation aggregates -/

/-- What is known of a row. -/
def companionKnowledge (event : PmOrderEvent) (reservations : List PmOpenOrderReservation) :
    PmReservationKnowledge :=
  match event.order.venueOrderKey.bind fun venue => reservations.find? (·.venueOrder == venue) with
  | none => .unknown
  | some companion => companion.reservation

/-- The loop of `validate_open_snapshot` over the rows. -/
def validateRows (config : PmPrivateStateConfig) (source : PmProductSource)
    (reservations : List PmOpenOrderReservation) : List PmOrderEvent → Except PmOrderStateError Unit
  | [] => .ok ()
  | event :: events =>
    if isTerminalEvent event then .error .terminalOrderInOpenSnapshot
    else
    match validateEvent event source config with
    | .error error => .error error
    | .ok () =>
    match validateReservation event (companionKnowledge event reservations) with
    | .error error => .error error
    | .ok () => validateRows config source reservations events

/-- `validate_open_snapshot`. -/
def validateOpenSnapshot (config : PmPrivateStateConfig)
    (envelope : EventEnvelope PmCompleteOpenOrdersSnapshot)
    (reservations : List PmOpenOrderReservation) : Except PmOrderStateError Unit :=
  let snapshot := envelope.payload
  if envelope.source ≠ config.source ∨ snapshot.accountScope ≠ config.accountScope then
    .error .scopeMismatch
  else if envelope.ordering.snapshotRevision ≠ some snapshot.snapshot.revision then
    .error .envelopeRevisionMismatch
  else if envelope.ordering.localIngressSequence ≠ snapshot.boundary.completionSequence then
    .error .completionSequenceMismatch
  else if ¬ (reservations.map (·.venueOrder)).Nodup ∨ ∃ companion ∈ reservations,
      ∀ event ∈ snapshot.orders, event.order.venueOrderKey ≠ some companion.venueOrder then
    .error .reservationCompanionMismatch
  else validateRows config envelope.source reservations snapshot.orders

/-- `validate_detail`. -/
def validateDetail (config : PmPrivateStateConfig) (envelope : EventEnvelope PmExactOrderDetail) :
    Except PmOrderStateError Unit :=
  let detail := envelope.payload
  if envelope.source ≠ config.source ∨ detail.accountScope ≠ config.accountScope then
    .error .scopeMismatch
  else if envelope.ordering.snapshotRevision ≠ some detail.snapshot.revision then
    .error .envelopeRevisionMismatch
  else if envelope.ordering.localIngressSequence ≠ detail.boundary.completionSequence then
    .error .completionSequenceMismatch
  else .ok ()

namespace PmOrderState

/-! ### Bookkeeping -/

variable (s : PmOrderState) (index : ℕ) (identity : PmOrderIdentity)
  (snapshot : PmCompleteOpenOrdersSnapshot) (epoch : ConnectionEpoch) (monotonicNs : UInt64)
  (orders : List PmOrderEvent) (config : PmPrivateStateConfig) (client : PmClientOrderKey)
  (venue : PmVenueOrderKey) (event : PmOrderEvent) (occurrence : PmPrivateOccurrence)
  (registration : PmOwnedOrderRegistration) (envelope : EventEnvelope PmCompleteOpenOrdersSnapshot)
  (request : PmPrivateOccurrence) (entry : OrderEntry) (reservations : List PmOpenOrderReservation)

/-- The state with another table. -/
def setTable (table : OrderTable) : PmOrderState :=
  { s with toOrderTable := table }

/-- The state with its counters changed. -/
def count (f : PmOrderCounters → PmOrderCounters) : PmOrderState :=
  { s with counters := f s.counters }

/-- The state with a new freshness stamp. -/
def stamp : PmOrderState :=
  { s with observedMonotonicNs := some monotonicNs }

/-- How a call ends that replaces the table, or fails and leaves it. -/
def store {α : Type} (s : PmOrderState) (table : Reply OrderTable)
    (done : PmOrderState → Reply α × PmOrderState) : Reply α × PmOrderState :=
  match table with
  | .panic => (.panic, s)
  | .err error => (.err error, s)
  | .ok t => done (s.setTable t)

/-- `count_remote`. -/
def countRemote (ownership : OwnershipState) : PmOrderState :=
  match ownership with
  | .provenOwned => s
  | .unmanaged => s.count fun c => { c with unmanaged := bump c.unmanaged }
  | .ambiguous => s.count fun c => { c with ambiguous := bump c.ambiguous }

/-- A capacity failure. -/
def failCapacity {α : Type} (s : PmOrderState) : Reply α × PmOrderState :=
  (.err .capacity, s.count fun c => { c with capacityFailures := bump c.capacityFailures })

/-- `insert`, and what follows when it succeeds. -/
def insert {α : Type} (s : PmOrderState) (entry : OrderEntry)
    (done : PmOrderState → Reply α × PmOrderState) : Reply α × PmOrderState :=
  if s.entries.length = maxPmPrivateOrders then s.failCapacity
  else s.store (s.toOrderTable.insertOrdered entry) done

/-! ### Registration -/

/-- `register_owned`. -/
def registerOwned : Reply Unit × PmOrderState :=
  match validateRegistration registration config with
  | .error error => (.err error, s)
  | .ok () =>
  match s.find (.ofClient registration.clientOrder) with
  | none => (.panic, s)
  | some none =>
    s.insert (.registered registration) fun t =>
      (.ok (), t.count fun c => { c with registrations := bump c.registrations })
  | some (some index) =>
  match s.entries[index]? with
  | none => (.panic, s)
  | some entry =>
    if entry.ownership ≠ .provenOwned ∨ entry.event.isSome = true then
      (.err .ownershipRegisteredTooLate, s)
    else if entry.reservation = some (.known registration.reservation) then (.ok (), s)
    else (.err .identityConflict, s)

/-- What a registration does. -/
inductive PmOwnedRegistrationAction where
  | existing
  | insert (canonicalPosition clientPosition : ℕ)

/-- A checked registration. -/
structure PmOwnedRegistrationPlan where
  entry : OrderEntry
  action : PmOwnedRegistrationAction

/-- Plan a registration. -/
def prepareOwnedRegistration : Reply PmOwnedRegistrationPlan :=
  let planned := OrderEntry.registered registration
  match validateRegistration registration config with
  | .error error => .err error
  | .ok () =>
  match s.find (.ofClient registration.clientOrder) with
  | none => .panic
  | some none =>
    if s.entries.length = maxPmPrivateOrders then .err .capacity
    else do
      let canonicalPosition ← s.canonicalInsertionPosition planned
      let clientPosition ← .expect (← s.clientInsertionPosition planned)
      return ⟨planned, .insert canonicalPosition clientPosition⟩
  | some (some index) =>
  match s.entries[index]? with
  | none => .panic
  | some entry =>
    if entry.ownership ≠ .provenOwned ∨ entry.event.isSome = true then
      .err .ownershipRegisteredTooLate
    else if entry.reservation ≠ planned.reservation ∨
        entry.registeredTerms ≠ planned.registeredTerms then .err .identityConflict
    else .ok ⟨planned, .existing⟩

/-- Carry out the plan. -/
def commitPreflightedOwnedRegistration (plan : PmOwnedRegistrationPlan) :
    Reply Unit × PmOrderState :=
  match plan.action with
  | .existing => (.ok (), s)
  | .insert canonicalPosition clientPosition =>
    s.store (s.insertAtIndexPositions canonicalPosition (some clientPosition) plan.entry) fun t =>
      (.ok (), t.count fun c => { c with registrations := bump c.registrations })

/-- A registration that is prepared, and committed at once. -/
def prepareAndCommit : Reply Unit × PmOrderState :=
  match s.prepareOwnedRegistration config registration with
  | .panic => (.panic, s)
  | .err error => (.err error, s)
  | .ok plan => s.commitPreflightedOwnedRegistration plan

/-! ### Binding and compaction -/

/-- The order is owned and has registered terms. -/
def isProvenOwned : Bool :=
  entry.ownership == .provenOwned && entry.registeredTerms.isSome

/-- The last part of `bind_owned_venue`: the order that has one of the keys gets both. -/
def bindFound : Reply Unit × PmOrderState :=
  match s.find identity with
  | none => (.panic, s)
  | some none => (.err .ownershipRegisteredTooLate, s)
  | some (some index) =>
  match s.entries[index]? with
  | none => (.panic, s)
  | some entry =>
    if isProvenOwned entry = false then (.err .ownershipRegisteredTooLate, s)
    else
    match ensureIdentityMerge entry.identity identity with
    | .error error => (.err error, s)
    | .ok () =>
    match mergeIdentity entry.identity identity with
    | none => (.panic, s)
    | some merged =>
      s.store (s.replaceOrdered index { entry with identity := merged }) fun t => (.ok (), t)

/-- `coalesce_entries`, and what follows when it succeeds. -/
def coalesce {α : Type} (s : PmOrderState) (first second : ℕ)
    (done : PmOrderState → Reply α × PmOrderState) : Reply α × PmOrderState :=
  match s.coalesceEntries first second with
  | (.panic, t) => (.panic, s.setTable t)
  | (.err error, t) => (.err error, s.setTable t)
  | (.ok (), t) => done (s.setTable t)

/-- `bind_owned_venue`. The two orders that a binding bridges are coalesced before the rest
is checked. -/
def bindOwnedVenue : Reply Unit × PmOrderState :=
  if client.account ≠ config.account ∨ venue.account ≠ config.account then (.err .scopeMismatch, s)
  else
  match PmOrderIdentity.new (some client) (some venue) with
  | .error _ => (.panic, s)
  | .ok identity =>
  match s.overlaps identity with
  | .panic => (.panic, s)
  | .err error => (.err error, s)
  | .ok .none => (.err .ownershipRegisteredTooLate, s)
  | .ok (.one _) => s.bindFound identity
  | .ok (.bridge first second) => s.coalesce first second fun t => t.bindFound identity

/-- Forget an owned order. -/
def compactProvenOwned : Reply Unit × PmOrderState :=
  match s.find (.ofClient client) with
  | none => (.panic, s)
  | some none => (.err .ownershipRegisteredTooLate, s)
  | some (some index) =>
  match s.entries[index]? with
  | none => (.panic, s)
  | some entry =>
    if isProvenOwned entry = false then (.err .ownershipRegisteredTooLate, s)
    else s.store (s.removeDense index) fun t => (.ok (), t)

/-! ### Observations -/

variable (knowledge : PmRemoteOrderKnowledge) (reservation : PmReservationKnowledge)

/-- `update_existing`. -/
def updateExisting : Reply PmOrderApply × PmOrderState :=
  match s.entries[index]? with
  | none => (.panic, s)
  | some prior =>
    if isBefore occurrence prior.lastOccurrence then
      (.ok .ignoredStale, s.count fun c => { c with stale := bump c.stale })
    else if prior.lastOccurrence = some occurrence ∧ prior.event = some event then
      (.ok .duplicate, s.count fun c => { c with duplicates := bump c.duplicates })
    else if prior.lastOccurrence = some occurrence then
      (.err .observationConflict,
        s.count fun c => { c with contractViolations := bump c.contractViolations })
    else
    match validateUpdate prior event with
    | .error error => (.err error, s)
    | .ok () =>
    match mergeIdentity prior.identity event.order with
    | none => (.panic, s)
    | some identity =>
      s.store (s.replaceOrdered index
          (prior.updated identity event occurrence knowledge reservation)) fun t =>
        if prior.isLive = true ∧ isTerminalEvent event = true then
          (.ok .terminalReservationReleased,
            t.count fun c => { c with terminalReleases := bump c.terminalReleases })
        else (.ok .updated, t)

/-- `update_existing` of the order that `find` finds. -/
def updateFound : Reply PmOrderApply × PmOrderState :=
  match s.find event.order with
  | some (some index) => s.updateExisting index event occurrence knowledge reservation
  | _ => (.panic, s)

/-- The two orders that an event bridges are coalesced, and the event is applied to the
result. -/
def coalesceAndUpdate (first second : ℕ) (event : PmOrderEvent)
    (occurrence : PmPrivateOccurrence) (knowledge : PmRemoteOrderKnowledge)
    (reservation : PmReservationKnowledge) : Reply PmOrderApply × PmOrderState :=
  s.coalesce first second fun t => t.updateFound event occurrence knowledge reservation

/-- The part of `observe` that follows the checks of the event alone. -/
def applyObservation : Reply PmOrderApply × PmOrderState :=
  match s.overlaps event.order with
  | .panic => (.panic, s)
  | .err error => (.err error, s)
  | .ok .none =>
    let ownership := ownershipFromRemote knowledge
    s.insert (.remote event ownership reservation occurrence) fun t =>
      (.ok (if isTerminalEvent event then .terminalReservationReleased else .inserted),
        t.countRemote ownership)
  | .ok (.one index) => s.updateExisting index event occurrence knowledge reservation
  | .ok (.bridge first second) =>
    match s.mergedAt first second with
    | .panic => (.panic, s)
    | .err error => (.err error, s)
    | .ok merged =>
    match preflightExistingUpdate merged event occurrence with
    | .error error => (.err error, s)
    | .ok () => s.coalesceAndUpdate first second event occurrence knowledge reservation

/-- `observe`. -/
def observe (envelope : EventEnvelope PmOrderEvent)
    (knowledge : PmRemoteOrderKnowledge) : Reply PmOrderApply × PmOrderState :=
  match validateEvent envelope.payload envelope.source config with
  | .error error => (.err error, s)
  | .ok () =>
  match validateRemoteKnowledge envelope.payload knowledge with
  | .error error => (.err error, s)
  | .ok reservation =>
    ((s.stamp envelope.monotonicServiceNs).count fun c =>
      { c with observations := bump c.observations }).applyObservation envelope.payload
        envelope.occurrence knowledge reservation

/-! ### Snapshots -/

/-- The snapshot is not new. -/
def snapshotStaleOrDuplicate : Option (PmOpenOrdersApply × PmOrderState) :=
  let revision := snapshot.snapshot.revision
  let completion : PmPrivateOccurrence := ⟨epoch, snapshot.boundary.completionSequence⟩
  if s.latestSnapshotRevision = some revision ∧ s.latestSnapshotCompletion = some completion then
    some (.duplicate, s.count fun c => { c with duplicates := bump c.duplicates })
  else if (∃ prior ∈ s.latestSnapshotCompletion, completion ≤ prior) ∨
      (∃ prior ∈ s.latestSnapshotCompletion, prior.epoch = epoch ∧
        ∃ priorRevision ∈ s.latestSnapshotRevision, revision ≤ priorRevision) then
    some (.ignoredStale, s.count fun c => { c with stale := bump c.stale })
  else none

/-- How many rows have no order yet. -/
def countNew (s : PmOrderState) : List PmOrderEvent → Option ℕ
  | [] => some 0
  | event :: events => do
    let found ← s.find event.order
    let rest ← s.countNew events
    return if found.isNone then rest + 1 else rest

/-- There is room for the rows. -/
def preflightSnapshotCapacity : Reply Unit × PmOrderState :=
  match s.countNew orders with
  | none => (.panic, s)
  | some new =>
    if maxPmPrivateOrders < s.entries.length + new then s.failCapacity else (.ok (), s)

/-- One round of the loop of `preflight_fresh_open_snapshot`. -/
def preflightRow (event : PmOrderEvent) : Reply Unit := do
  .ofExcept (validateEvent event config.source config)
  .ofExcept (validateReservation event (companionKnowledge event reservations))
  match ← s.overlaps event.order with
  | .none => .ok ()
  | .one index =>
    .ofExcept (preflightExistingUpdate (← .expect s.entries[index]?) event request)
  | .bridge first second =>
    .ofExcept (preflightExistingUpdate (← s.mergedAt first second) event request)

/-- The loop of `preflight_fresh_open_snapshot`. -/
def preflightRows (s : PmOrderState) (config : PmPrivateStateConfig) (request : PmPrivateOccurrence)
    (reservations : List PmOpenOrderReservation) : List PmOrderEvent → Reply Unit
  | [] => .ok ()
  | event :: events => do
    s.preflightRow config request reservations event
    s.preflightRows config request reservations events

/-- The order in the slot has been observed after the request. -/
def observedAfter : Reply Bool := do
  let entry ← .expect s.entries[index]?
  return isBefore request entry.lastOccurrence

/-- The part of `reduce_snapshot_row` that follows the checks of the row alone. -/
def reduceRow : Reply PmOrderApply × PmOrderState :=
  match s.overlaps event.order with
  | .panic => (.panic, s)
  | .err error => (.err error, s)
  | .ok (.one index) =>
    match s.observedAfter index request with
    | .panic => (.panic, s)
    | .err error => (.err error, s)
    | .ok true => (.ok .ignoredStale, s)
    | .ok false => s.updateExisting index event request (.unmanaged reservation) reservation
  | .ok (.bridge first second) =>
    match (do return (← s.observedAfter first request) || (← s.observedAfter second request)) with
    | .panic => (.panic, s)
    | .err error => (.err error, s)
    | .ok true => (.ok .ignoredStale, s)
    | .ok false =>
      s.coalesceAndUpdate first second event request (.unmanaged reservation) reservation
  | .ok .none =>
    s.insert (.remote event .unmanaged reservation request) fun t =>
      (.ok .inserted, t.countRemote .unmanaged)

/-- A row of a snapshot. -/
def reduceSnapshotRow : Reply PmOrderApply × PmOrderState :=
  match validateEvent event config.source config with
  | .error error => (.err error, s)
  | .ok () =>
  match validateReservation event reservation with
  | .error error => (.err error, s)
  | .ok () => s.reduceRow event request reservation

/-- The loop of `apply_fresh_open_snapshot`, with how many rows were inserted and updated. -/
def reduceRows (s : PmOrderState) (config : PmPrivateStateConfig) (request : PmPrivateOccurrence)
    (reservations : List PmOpenOrderReservation) :
    List PmOrderEvent → ℕ → ℕ → Reply (ℕ × ℕ) × PmOrderState
  | [], inserted, updated => (.ok (inserted, updated), s)
  | event :: events, inserted, updated =>
    match s.reduceSnapshotRow config event request (companionKnowledge event reservations) with
    | (.panic, t) => (.panic, t)
    | (.err error, t) => (.err error, t)
    | (.ok .inserted, t) => t.reduceRows config request reservations events (inserted + 1) updated
    | (.ok .updated, t) => t.reduceRows config request reservations events inserted (updated + 1)
    | (.ok _, t) => t.reduceRows config request reservations events inserted updated

/-- The order is missing from the complete snapshot: it is live, it was not observed after the
request, and no row has one of its keys. -/
def isMissing : Bool :=
  !(!entry.isLive || isBefore request entry.lastOccurrence ||
    orders.any fun event => identitiesOverlap entry.identity event.order)

/-- What `mark_missing` does to one order. -/
def markEntry : OrderEntry :=
  if isMissing orders request entry then { entry with missingFromCompleteOpenSnapshot := true }
  else entry

/-- `mark_missing`, which also counts what it marks. -/
def markMissing : ℕ × PmOrderState :=
  (s.entries.countP (isMissing orders request),
    s.setTable { s.toOrderTable with entries := s.entries.map (markEntry orders request) })

/-- The last part of `apply_fresh_open_snapshot`, after the rows. -/
def completeSnapshot (inserted updated : ℕ) : Reply PmOpenOrdersApply × PmOrderState :=
  let request : PmPrivateOccurrence := ⟨epoch, snapshot.boundary.requestSequence⟩
  let (retainedMissing, t) := s.markMissing snapshot.orders request
  (.ok (.applied inserted updated retainedMissing), { t with
    latestSnapshotRevision := some snapshot.snapshot.revision
    latestSnapshotCompletion := some ⟨epoch, snapshot.boundary.completionSequence⟩
    observedMonotonicNs := some monotonicNs
    counters := { t.counters with
      retainedMissing := saturatingAdd t.counters.retainedMissing retainedMissing } })

/-- A snapshot that is new. -/
def applyFreshOpenSnapshot : Reply PmOpenOrdersApply × PmOrderState :=
  let snapshot := envelope.payload
  let epoch := envelope.ordering.connectionEpoch
  match s.preflightSnapshotCapacity snapshot.orders with
  | (.panic, t) => (.panic, t)
  | (.err error, t) => (.err error, t)
  | (.ok (), t) =>
  match t.reduceRows config ⟨epoch, snapshot.boundary.requestSequence⟩ reservations snapshot.orders
      0 0 with
  | (.panic, u) => (.panic, u)
  | (.err error, u) => (.err error, u)
  | (.ok (inserted, updated), u) =>
    u.completeSnapshot snapshot epoch envelope.monotonicServiceNs inserted updated

/-- Check a new snapshot. -/
def preflightFreshOpenSnapshot : Reply Unit × PmOrderState :=
  let snapshot := envelope.payload
  match s.preflightSnapshotCapacity snapshot.orders with
  | (.panic, t) => (.panic, t)
  | (.err error, t) => (.err error, t)
  | (.ok (), t) =>
    (t.preflightRows config
      ⟨envelope.ordering.connectionEpoch, snapshot.boundary.requestSequence⟩ reservations
      snapshot.orders, t)

/-- All the open orders. -/
def applyOpenSnapshot : Reply PmOpenOrdersApply × PmOrderState :=
  match validateOpenSnapshot config envelope reservations with
  | .error error => (.err error, s)
  | .ok () =>
  match s.snapshotStaleOrDuplicate envelope.payload envelope.ordering.connectionEpoch with
  | some (outcome, t) => (.ok outcome, t)
  | none =>
  match s.preflightFreshOpenSnapshot config envelope reservations with
  | (.panic, t) => (.panic, t)
  | (.err error, t) => (.err error, t)
  | (.ok (), t) => t.applyFreshOpenSnapshot config envelope reservations

/-! ### Details -/

/-- The part of `apply_detail` for an order that the venue does not know. -/
def applyAbsence (detail : PmExactOrderDetail) (epoch : ConnectionEpoch) :
    Reply PmOrderApply × PmOrderState :=
  match s.find (.ofVenue detail.requestedOrder) with
  | none => (.panic, s)
  | some none => (.ok .duplicate, s)
  | some (some index) =>
  match s.entries[index]? with
  | none => (.panic, s)
  | some entry =>
    if isBefore ⟨epoch, detail.boundary.requestSequence⟩ entry.lastOccurrence then
      (.ok .detailAbsenceIgnoredAfterLaterEvent, s)
    else if entry.isLive = false then (.ok .duplicate, s)
    else if s.liveCount = 0 then (.panic, s)
    else
      (.ok .detailAbsenceTerminalized, (s.setTable { s.toOrderTable with
          entries := s.entries.set index (entry.absent ⟨epoch, detail.boundary.completionSequence⟩)
          liveCount := s.liveCount - 1 }).count fun c =>
            { c with terminalReleases := bump c.terminalReleases })

/-- `apply_detail`. -/
def applyDetail
    (envelope : EventEnvelope PmExactOrderDetail) (reservation : PmReservationKnowledge) :
    Reply PmOrderApply × PmOrderState :=
  match validateDetail config envelope with
  | .error error => (.err error, s)
  | .ok () =>
  let detail := envelope.payload
  let epoch := envelope.ordering.connectionEpoch
  let s := s.stamp envelope.monotonicServiceNs
  match detail.order with
  | none => s.applyAbsence detail epoch
  | some event =>
    match validateRemoteKnowledge event (.unmanaged reservation) with
    | .error error => (.err error, s)
    | .ok reservation =>
      s.reduceSnapshotRow config event ⟨epoch, detail.boundary.requestSequence⟩ reservation

/-- `invalidate_freshness`. -/
def invalidateFreshness : PmOrderState := { s with observedMonotonicNs := none }

/-! ### Questions about the orders -/

/-- `ownership`. -/
def ownership : Reply (Option OwnershipState) := do
  match ← .expect (s.find identity) with
  | none => return none
  | some index => return some (← .expect s.entries[index]?).ownership

/-- Check a binding. -/
def preflightBindOwnedVenue : Reply Unit := do
  if client.account ≠ config.account ∨ venue.account ≠ config.account then .err .scopeMismatch
  else
  let identity ← .expect (PmOrderIdentity.new (some client) (some venue)).toOption
  let entry ← match ← s.overlaps identity with
    | .none => .err .ownershipRegisteredTooLate
    | .one index => .expect s.entries[index]?
    | .bridge first second => s.mergedAt first second
  if isProvenOwned entry = false then .err .ownershipRegisteredTooLate
  else .ofExcept (ensureIdentityMerge entry.identity identity)

/-- Check a compaction. -/
def preflightCompactProvenOwned : Reply Unit := do
  match ← .expect (s.find (.ofClient client)) with
  | none => .err .ownershipRegisteredTooLate
  | some index =>
    if isProvenOwned (← .expect s.entries[index]?) = false then .err .ownershipRegisteredTooLate
    else .ok ()

end PmOrderState

end Reap.Order
