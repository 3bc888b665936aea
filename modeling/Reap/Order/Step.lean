import Reap.Order.Exact
import Reap.Order.Reducer

/-!
# What a call of the order state can do

The calls as one type, and the one function that runs a call. Every invariant of the order
state is about runs of such calls.

The reducer's branches are examined once, for `CallSpec`: how a call ends, that it keeps the
table exact, and which orders it can leave that were not there before. `Yields` lists those
orders, with the checks that have been made on them; it speaks about the orders that the
call's observations touch in the state before the call, also for a snapshot, whose rows are
applied one after the other.
-/

namespace Reap.Order

open Base Reap.Core

/-- The calls that change the state. -/
inductive Op where
  | registerOwned (registration : PmOwnedOrderRegistration)
  /-- `prepare_owned_registration`, and `commit_preflighted_owned_registration` of the plan it
  returns. -/
  | prepareAndCommit (registration : PmOwnedOrderRegistration)
  | bindOwnedVenue (client : PmClientOrderKey) (venue : PmVenueOrderKey)
  | observe (envelope : EventEnvelope PmOrderEvent) (knowledge : PmRemoteOrderKnowledge)
  | applyOpenSnapshot (envelope : EventEnvelope PmCompleteOpenOrdersSnapshot)
      (reservations : List PmOpenOrderReservation)
  | applyDetail (envelope : EventEnvelope PmExactOrderDetail) (reservation : PmReservationKnowledge)
  | compactProvenOwned (client : PmClientOrderKey)
  | invalidateFreshness

variable (config : PmPrivateStateConfig)

/-- Run a call. -/
def call (op : Op) (s : PmOrderState) : Reply Unit × PmOrderState :=
  match op with
  | .registerOwned registration => s.registerOwned config registration
  | .prepareAndCommit registration => s.prepareAndCommit config registration
  | .bindOwnedVenue client venue => s.bindOwnedVenue config client venue
  | .observe envelope knowledge => Outcome.ended (s.observe config envelope knowledge)
  | .applyOpenSnapshot envelope reservations =>
    Outcome.ended (s.applyOpenSnapshot config envelope reservations)
  | .applyDetail envelope reservation => Outcome.ended (s.applyDetail config envelope reservation)
  | .compactProvenOwned client => s.compactProvenOwned client
  | .invalidateFreshness => (.ok (), s.invalidateFreshness)

/-- The state that a call leaves, unless it aborted. -/
def step (op : Op) (s : PmOrderState) : Option PmOrderState :=
  Outcome.next (call config op s)

/-! ### Observations -/

/-- An event that the venue reports, when, and what is known of the order. -/
structure Observation where
  event : PmOrderEvent
  occurrence : PmPrivateOccurrence
  knowledge : PmRemoteOrderKnowledge
  reservation : PmReservationKnowledge

/-- The observation that a row of an aggregate makes. -/
def Observation.ofRow (request : PmPrivateOccurrence) (event : PmOrderEvent)
    (reservation : PmReservationKnowledge) : Observation :=
  ⟨event, request, .unmanaged reservation, reservation⟩

/-- The occurrence of the request that an aggregate answers. -/
def requestOccurrence (ordering : EventOrdering) (boundary : PmReconciliationRequestBoundary) :
    PmPrivateOccurrence :=
  ⟨ordering.connectionEpoch, boundary.requestSequence⟩

/-- The observations that a call makes, once their own checks have passed. A snapshot makes
none unless it is fresh and passes its preflight. -/
def Op.observations (s : PmOrderState) : Op → List Observation
  | .observe envelope knowledge =>
    match validateEvent envelope.payload envelope.source config,
      validateRemoteKnowledge envelope.payload knowledge with
    | .ok (), .ok reservation => [⟨envelope.payload, envelope.occurrence, knowledge, reservation⟩]
    | _, _ => []
  | .applyOpenSnapshot envelope reservations =>
    match validateOpenSnapshot config envelope reservations,
      s.snapshotStaleOrDuplicate envelope.payload envelope.ordering.connectionEpoch,
      s.preflightFreshOpenSnapshot config envelope reservations with
    | .ok (), none, (.ok (), _) => envelope.payload.orders.map fun event =>
      .ofRow (requestOccurrence envelope.ordering envelope.payload.boundary) event
        (companionKnowledge event reservations)
    | _, _, _ => []
  | .applyDetail envelope reservation =>
    match envelope.payload.order with
    | none => []
    | some event =>
      match validateDetail config envelope, validateRemoteKnowledge event (.unmanaged reservation),
        validateEvent event config.source config with
      | .ok (), .ok reservation, .ok () =>
        [.ofRow (requestOccurrence envelope.ordering envelope.payload.boundary) event reservation]
      | _, _, _ => []
  | _ => []

/-- What the checks establish about an observation. -/
structure Observation.Checked (config : PmPrivateStateConfig) (o : Observation) : Prop where
  account : o.event.account = config.account
  instrument : o.event.instrument = config.instrument
  covered : ∀ r, o.reservation = .known r → isTerminalEvent o.event = false →
    Covers r o.event.side o.event.price o.event.progress.remainingQuantityUnits

/-! ### Coalescing -/

/-- The two orders can be coalesced. -/
def mergeable (a b : OrderEntry) : Bool :=
  match mergeEntries a b with
  | .ok _ => true
  | _ => false

namespace OrderTable

/-- The two orders that an identity bridges, if they can be coalesced. -/
def bridged (s : OrderTable) (identity : PmOrderIdentity) : Option (OrderEntry × OrderEntry) :=
  match s.touched identity with
  | [a, b] => if mergeable a b then some (a, b) else none
  | _ => none

/-- The order that an event is applied to: the one that it touches, or the two, coalesced. -/
def prior (s : OrderTable) (identity : PmOrderIdentity) : Option OrderEntry :=
  match s.touched identity with
  | [e] => some e
  | [a, b] =>
    match mergeEntries a b with
    | .ok merged => some merged
    | _ => none
  | _ => none

end OrderTable

/-- One of the orders has been observed after the event. -/
def Observation.isStale (o : Observation) (a b : OrderEntry) : Bool :=
  isBefore o.occurrence a.lastOccurrence || isBefore o.occurrence b.lastOccurrence

/-- The order that the two would make refuses the event. -/
def Observation.isRefused (o : Observation) (a b : OrderEntry) : Bool :=
  match mergeEntries a b with
  | .ok merged =>
    match preflightExistingUpdate merged o.event o.occurrence with
    | .error _ => true
    | .ok () => false
  | _ => false

/-- The two orders that a call coalesces without applying an event to the result: every
binding that bridges two orders does so, an event that is stale, and a detail whose event the
coalesced order refuses. -/
def Op.leavesCoalesced (s : PmOrderState) (op : Op) : Option (OrderEntry × OrderEntry) :=
  match op with
  | .bindOwnedVenue client venue =>
    if client.account = config.account ∧ venue.account = config.account then
      match PmOrderIdentity.new (some client) (some venue) with
      | .ok identity => s.bridged identity
      | .error _ => none
    else none
  | .observe _ _ => do
    let o ← (op.observations config s).head?
    (s.bridged o.event.order).filter fun (a, b) => o.isStale a b
  | .applyDetail _ _ => do
    let o ← (op.observations config s).head?
    (s.bridged o.event.order).filter fun (a, b) => !o.isStale a b && o.isRefused a b
  | _ => none

/-- A call that coalesces two orders and then fails. -/
def Op.Botched (s : PmOrderState) (op : Op) : Prop :=
  match op with
  | .bindOwnedVenue _ _ => ∃ p ∈ op.leavesCoalesced config s,
    p.1.ownership ≠ .provenOwned ∧ p.2.ownership ≠ .provenOwned
  | .applyDetail _ _ => op.leavesCoalesced config s ≠ none
  | _ => False

/-! ### What a call leaves -/

/-- The orders that a call can leave that were not there before. -/
inductive Yields (config : PmPrivateStateConfig) (s : PmOrderState) (op : Op) : OrderEntry → Prop
  /-- A new owned order. -/
  | registered (registration : PmOwnedOrderRegistration)
      (hvalid : validateRegistration registration config = .ok ()) :
      Yields config s op (.registered registration)
  /-- An order that nothing was known of. -/
  | remote (o : Observation) (ho : o ∈ op.observations config s) : Yields config s op
        (.remote o.event (ownershipFromRemote o.knowledge) o.reservation o.occurrence)
  /-- An order to which an event is applied. -/
  | updated (o : Observation) (ho : o ∈ op.observations config s) (prior : OrderEntry)
      (hprior : s.prior o.event.order = some prior) (happlies : Applies prior o.event o.occurrence)
      (identity : PmOrderIdentity)
      (hid : mergeIdentity prior.identity o.event.order = some identity) :
      Yields config s op (prior.updated identity o.event o.occurrence o.knowledge o.reservation)
  /-- Two orders, coalesced. -/
  | coalesced (a b merged : OrderEntry) (hleaves : op.leavesCoalesced config s = some (a, b))
      (hmerged : mergeEntries a b = .ok merged) : Yields config s op merged
  /-- An owned order whose venue key becomes known. -/
  | bound (e : OrderEntry) (he : e ∈ s.entries) (identity : PmOrderIdentity)
      (hkeys : HasKeys identity e.identity) (haccount : identity.account = config.account) :
      Yields config s op { e with identity := identity }
  /-- An order that the venue does not know any more. -/
  | absent (e : OrderEntry) (he : e ∈ s.entries) (hvenue : e.identity.venueOrderKey ≠ none)
      (occurrence : PmPrivateOccurrence) : Yields config s op (e.absent occurrence)

/-- The order is `e`, or `e` with the mark of a missing order. -/
def Marks (e marked : OrderEntry) : Prop :=
  ∃ missing, marked = { e with missingFromCompleteOpenSnapshot := missing }

/-- Everything of a state but its counters and its freshness stamp is the same. -/
structure SameStore (s t : PmOrderState) : Prop where
  table : t.toOrderTable = s.toOrderTable
  revision : t.latestSnapshotRevision = s.latestSnapshotRevision
  completion : t.latestSnapshotCompletion = s.latestSnapshotCompletion

/-- What a call does. -/
structure CallSpec (config : PmPrivateStateConfig) (s : PmOrderState) (op : Op) (reply : Reply Unit)
    (t : PmOrderState) : Prop where
  no_panic : reply ≠ .panic
  exact : t.Exact
  yields : ∀ e ∈ t.entries, ∃ e₀, Marks e₀ e ∧ (e₀ ∈ s.entries ∨ Yields config s op e₀)
  atomic : ∀ error, reply = .err error → ¬ op.Botched config s → SameStore s t
  botched : op.Botched config s → (∃ error, reply = .err error) ∧
    t.entries.length < s.entries.length

/-- What holds of every reachable state: the table is exact and the orders are valid. -/
structure Sound (config : PmPrivateStateConfig) (s : PmOrderState) : Prop where
  exact : s.Exact
  valid : ∀ e ∈ s.entries, Valid config e

end Reap.Order
