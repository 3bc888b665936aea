import Reap.Base.Run
import Reap.Core.Reconciliation
import Reap.Order.Reservation

/-!
# Canonical orders

The canonical orders of a private account: what is registered locally before it is sent,
what the venue reports, and how the two are recognised as one order. An order has a client
key, a venue key, or both; an event that has both bridges two orders that were known by one
key each, and these are coalesced.

This module has the data and the pure functions on single orders. An order is *live* until
an event or an exact answer of the venue says that it is over, and a live order holds a
reservation.
-/

namespace Reap.Order

open Base Reap.Core

/-- At most this many. -/
def maxPmPrivateOrders : ℕ := maxPmReconciliationOrders

/-! ### Data -/

/-- What is known of an order that the venue reports. -/
inductive PmRemoteOrderKnowledge where
  | unmanaged (reservation : PmReservationKnowledge)
  | ambiguous
  deriving DecidableEq

/-- The terms an owned order is registered with. -/
structure RegisteredTerms where
  side : PmOrderSide
  price : PmPrice
  quantity : PmQuantity
  deriving DecidableEq

/-- An owned order before it is sent, with a reservation that an
upstream policy has approved and that covers it. -/
structure PmOwnedOrderRegistration where
  clientOrder : PmClientOrderKey
  instrument : PmInstrumentHandle
  side : PmOrderSide
  price : PmPrice
  quantity : PmQuantity
  reservation : PmExactReservation
  policy : reservation.basis = .policyApprovedWorstCase
  covered : validateRequirement side price quantity.protocolUnits reservation = .ok ()
  deriving DecidableEq

/-- The reservation that accompanies a row of a snapshot. -/
structure PmOpenOrderReservation where
  venueOrder : PmVenueOrderKey
  reservation : PmReservationKnowledge
  deriving DecidableEq

/-- `OwnershipState`. -/
inductive OwnershipState where
  | provenOwned
  | unmanaged
  | ambiguous
  deriving DecidableEq, Repr

/-- One canonical order. -/
structure OrderEntry where
  identity : PmOrderIdentity
  instrument : PmInstrumentHandle
  event : Option PmOrderEvent
  ownership : OwnershipState
  registeredTerms : Option RegisteredTerms
  reservation : Option PmReservationKnowledge
  missingFromCompleteOpenSnapshot : Bool
  terminalByDetailAbsence : Bool
  lastOccurrence : Option PmPrivateOccurrence
  deriving DecidableEq

/-- The status of an event is terminal. -/
def isTerminalEvent (event : PmOrderEvent) : Bool := event.progress.status.isTerminal

namespace OrderEntry

variable (entry : OrderEntry)

/-- `is_live`. -/
def isLive : Bool :=
  !entry.terminalByDetailAbsence &&
    match entry.event with
    | none => true
    | some event => !isTerminalEvent event

/-- When the order was observed last; an order that was never observed comes first. -/
def observedAt : WithBot PmPrivateOccurrence := entry.lastOccurrence

/-- What `compare_entries` compares: the venue key first, then the client key, where an absent
key comes before every other. -/
def canonicalRank : WithBot PmVenueOrderKey ×ₗ WithBot PmClientOrderKey :=
  toLex (entry.identity.venueOrderKey, entry.identity.clientOrderKey)

/-- The key of the canonical index. -/
def canonicalKey : Option (WithBot PmVenueOrderKey ×ₗ WithBot PmClientOrderKey) :=
  some entry.canonicalRank

/-- The key of the client index. -/
def clientKey : Option PmClientOrderKey := entry.identity.clientOrderKey

/-- The entry that a registration makes. -/
def registered (registration : PmOwnedOrderRegistration) : OrderEntry where
  identity := .ofClient registration.clientOrder
  instrument := registration.instrument
  event := none
  ownership := .provenOwned
  registeredTerms := some ⟨registration.side, registration.price, registration.quantity⟩
  reservation := some (.known registration.reservation)
  missingFromCompleteOpenSnapshot := false
  terminalByDetailAbsence := false
  lastOccurrence := none

end OrderEntry

/-- `PmOrderApply`. -/
inductive PmOrderApply where
  | inserted
  | updated
  | terminalReservationReleased
  | ignoredStale
  | duplicate
  | detailAbsenceTerminalized
  | detailAbsenceIgnoredAfterLaterEvent
  deriving DecidableEq, Repr

/-- `PmOpenOrdersApply`. -/
inductive PmOpenOrdersApply where
  | applied (inserted updated retainedMissing : ℕ)
  | duplicate
  | ignoredStale
  deriving DecidableEq, Repr

/-- `PmOrderCounters`. -/
structure PmOrderCounters where
  registrations : UInt64 := 0
  observations : UInt64 := 0
  duplicates : UInt64 := 0
  stale : UInt64 := 0
  terminalReleases : UInt64 := 0
  retainedMissing : UInt64 := 0
  unmanaged : UInt64 := 0
  ambiguous : UInt64 := 0
  capacityFailures : UInt64 := 0
  contractViolations : UInt64 := 0
  deriving DecidableEq

/-- The orders that share a key with an identity. -/
inductive OrderOverlap where
  | none
  | one (index : ℕ)
  | bridge (first second : ℕ)
  deriving DecidableEq, Repr

section

variable (event : PmOrderEvent)

/-- The slots of the orders. -/
def OrderOverlap.slots : OrderOverlap → List ℕ
  | .none => []
  | .one index => [index]
  | .bridge first second => [first, second]

/-- The part of `PmOrderState` that its dense index maintains. -/
structure OrderTable where
  entries : List OrderEntry
  canonicalIndex : List ℕ
  clientIndex : List ℕ
  liveCount : ℕ
  deriving DecidableEq

/-- `PmOrderState`. -/
structure PmOrderState extends OrderTable where
  latestSnapshotRevision : Option SnapshotRevision
  latestSnapshotCompletion : Option PmPrivateOccurrence
  observedMonotonicNs : Option UInt64
  counters : PmOrderCounters
  deriving DecidableEq

/-- `new`. -/
def PmOrderState.new : PmOrderState where
  entries := []
  canonicalIndex := []
  clientIndex := []
  liveCount := 0
  latestSnapshotRevision := none
  latestSnapshotCompletion := none
  observedMonotonicNs := none
  counters := {}

/-! ### Checks -/

/-- `validate_registration`. -/
def validateRegistration (registration : PmOwnedOrderRegistration) (config : PmPrivateStateConfig) :
    Except PmOrderStateError Unit :=
  if registration.clientOrder.account ≠ config.account ∨
      registration.instrument ≠ config.instrument then .error .scopeMismatch
  else .ok ()

/-- `validate_event`. -/
def validateEvent (source : PmProductSource) (config : PmPrivateStateConfig) :
    Except PmOrderStateError Unit :=
  if source ≠ config.source ∨ event.source ≠ config.source ∨ event.account ≠ config.account ∨
      event.instrument ≠ config.instrument then .error .scopeMismatch
  else
  match event.price.validateTick config.tick,
    event.progress.originalQuantity.validateOrder config.minimumOrderSize with
  | .ok _, .ok _ => .ok ()
  | _, _ => .error .marketContractMismatch

/-- `validate_reservation`. -/
def validateReservation (knowledge : PmReservationKnowledge) : Except PmOrderStateError Unit :=
  match knowledge with
  | .unknown => .ok ()
  | .known reservation =>
    if isTerminalEvent event then .ok ()
    else validateRequirement event.side event.price event.progress.remainingQuantityUnits reservation

/-- The reservation to keep. -/
def validateRemoteKnowledge (knowledge : PmRemoteOrderKnowledge) :
    Except PmOrderStateError PmReservationKnowledge :=
  match knowledge with
  | .ambiguous => .ok .unknown
  | .unmanaged reservation =>
    match validateReservation event reservation with
    | .error error => .error error
    | .ok () => .ok reservation

/-- It is not owned. -/
def ownershipFromRemote : PmRemoteOrderKnowledge → OwnershipState
  | .unmanaged _ => .unmanaged
  | .ambiguous => .ambiguous

/-- `merge_remote_ownership`. -/
def mergeRemoteOwnership (current : OwnershipState) (observed : PmRemoteOrderKnowledge) :
    OwnershipState :=
  match current, observed with
  | .provenOwned, _ => .provenOwned
  | .ambiguous, _ | _, .ambiguous => .ambiguous
  | .unmanaged, .unmanaged _ => .unmanaged

/-- `live_reservation`. -/
def liveReservation (reservation : PmReservationKnowledge) : Option PmReservationKnowledge :=
  if isTerminalEvent event then none else some reservation

/-- Both keys are there and equal. -/
def sameKey {κ : Type} [DecidableEq κ] (left right : Option κ) : Bool :=
  match left, right with
  | some left, some right => left == right
  | _, _ => false

/-- Both keys are there and differ. -/
def conflictingKey {κ : Type} [DecidableEq κ] (left right : Option κ) : Bool :=
  match left, right with
  | some left, some right => left != right
  | _, _ => false

/-- `identities_overlap`. -/
def identitiesOverlap (left right : PmOrderIdentity) : Bool :=
  sameKey left.clientOrderKey right.clientOrderKey || sameKey left.venueOrderKey right.venueOrderKey

end

theorem sameKey_iff {κ : Type} [DecidableEq κ] {left right : Option κ} :
    sameKey left right = true ↔ ∃ key, left = some key ∧ right = some key := by
  cases left with
  | none => simp [sameKey]
  | some l =>
    cases right with
    | none => simp [sameKey]
    | some =>
      simp only [sameKey, beq_iff_eq, Option.some.injEq]
      exact ⟨fun h => ⟨l, rfl, h.symm⟩, fun ⟨_, hl, hr⟩ => hl.trans hr.symm⟩

theorem conflictingKey_eq_false_iff {κ : Type} [DecidableEq κ] {left right : Option κ} :
    conflictingKey left right = false ↔ ∀ a b, left = some a → right = some b → a = b := by
  cases left with
  | none => simp [conflictingKey]
  | some =>
    cases right with
    | none => simp [conflictingKey]
    | some => simp [conflictingKey]

variable {left right : PmOrderIdentity}

/-- Two identities overlap when they share a client key or a venue key. -/
theorem identitiesOverlap_iff : identitiesOverlap left right = true ↔
      (∃ client, left.clientOrderKey = some client ∧ right.clientOrderKey = some client) ∨
      (∃ venue, left.venueOrderKey = some venue ∧ right.venueOrderKey = some venue) := by
  rw [identitiesOverlap, Bool.or_eq_true, sameKey_iff, sameKey_iff]

theorem identitiesOverlap_comm (left right : PmOrderIdentity) :
    identitiesOverlap left right = identitiesOverlap right left := by
  rw [Bool.eq_iff_iff, identitiesOverlap_iff, identitiesOverlap_iff]
  simp [and_comm]

/-- Identities with the same keys overlap, since an identity has a key. -/
theorem identitiesOverlap_of_keys_eq (hc : left.clientOrderKey = right.clientOrderKey)
    (hv : left.venueOrderKey = right.venueOrderKey) :
    identitiesOverlap left right = true := by
  rw [identitiesOverlap_iff]
  cases hcl : right.clientOrderKey with
  | some client => exact .inl ⟨client, by rw [hc, hcl], rfl⟩
  | none =>
    cases hven : right.venueOrderKey with
    | some venue => exact .inr ⟨venue, by rw [hv, hven], rfl⟩
    | none => exact absurd ⟨hcl, hven⟩ right.nonempty

theorem identitiesOverlap_self (identity : PmOrderIdentity) :
    identitiesOverlap identity identity = true :=
  identitiesOverlap_of_keys_eq rfl rfl

/-- No two keys disagree. -/
def ensureIdentityMerge (left right : PmOrderIdentity) : Except PmOrderStateError Unit :=
  if conflictingKey left.clientOrderKey right.clientOrderKey then .error .identityConflict
  else if conflictingKey left.venueOrderKey right.venueOrderKey then .error .identityConflict
  else .ok ()

/-- `merge_identity`, which aborts when the accounts differ. -/
def mergeIdentity (left right : PmOrderIdentity) : Option PmOrderIdentity :=
  (PmOrderIdentity.new (left.clientOrderKey.or right.clientOrderKey)
    (left.venueOrderKey.or right.venueOrderKey)).toOption

/-- `validate_lifecycle`. -/
def validateLifecycle (previous next : PmOrderEvent) : Except PmOrderStateError Unit :=
  if previous.source ≠ next.source ∨ previous.instrument ≠ next.instrument ∨
      previous.side ≠ next.side ∨ previous.price ≠ next.price ∨
      previous.progress.originalQuantity ≠ next.progress.originalQuantity ∨
      next.progress.cumulativeFilled < previous.progress.cumulativeFilled ∨
      (isTerminalEvent previous = true ∧ previous.progress ≠ next.progress) then
    .error .lifecycleRegression
  else .ok ()

/-- The event has the terms an order is registered with. -/
def RegisteredTerms.match (terms : RegisteredTerms) (event : PmOrderEvent) : Bool :=
  event.side == terms.side && event.price == terms.price &&
    event.progress.originalQuantity == terms.quantity

/-- An occurrence is before the last one of an entry. -/
def isBefore (occurrence : PmPrivateOccurrence) (last : Option PmPrivateOccurrence) : Bool :=
  match last with
  | none => false
  | some prior => decide (occurrence < prior)

/-- The checks that `update_existing` and `preflight_existing_update` share, once the
observation is neither stale nor a duplicate: the identity, the lifecycle and the registered
terms. -/
def validateUpdate (prior : OrderEntry) (event : PmOrderEvent) : Except PmOrderStateError Unit :=
  match ensureIdentityMerge prior.identity event.order with
  | .error error => .error error
  | .ok () =>
  match prior.event with
  | some previous =>
    match validateLifecycle previous event with
    | .error _ => .error .lifecycleRegression
    | .ok () => validateTerms prior event
  | none => validateTerms prior event
where
  /-- The event keeps the registered terms. -/
  validateTerms (prior : OrderEntry) (event : PmOrderEvent) : Except PmOrderStateError Unit :=
    match prior.registeredTerms with
    | some terms => if terms.match event then .ok () else .error .observationConflict
    | none => .ok ()

/-- The event is newer than what the order has seen, and passes the checks: it is applied. -/
def Applies (prior : OrderEntry) (event : PmOrderEvent) (occurrence : PmPrivateOccurrence) : Prop :=
  isBefore occurrence prior.lastOccurrence = false ∧ prior.lastOccurrence ≠ some occurrence ∧
    validateUpdate prior event = .ok ()

instance (prior : OrderEntry) (event : PmOrderEvent) (occurrence : PmPrivateOccurrence) :
    Decidable (Applies prior event occurrence) :=
  inferInstanceAs (Decidable (_ ∧ _ ∧ _))

/-- Check an update. -/
def preflightExistingUpdate (prior : OrderEntry) (event : PmOrderEvent)
    (occurrence : PmPrivateOccurrence) : Except PmOrderStateError Unit :=
  if isBefore occurrence prior.lastOccurrence = true ∨
      (prior.lastOccurrence = some occurrence ∧ prior.event = some event) then .ok ()
  else if prior.lastOccurrence = some occurrence then .error .observationConflict
  else validateUpdate prior event

/-! ### What a call makes of an order -/

namespace OrderEntry

variable (prior : OrderEntry)

/-- The entry of an order that is only known from the venue. -/
def remote (event : PmOrderEvent) (ownership : OwnershipState)
    (reservation : PmReservationKnowledge) (occurrence : PmPrivateOccurrence) : OrderEntry where
  identity := event.order
  instrument := event.instrument
  event := some event
  ownership := ownership
  registeredTerms := none
  reservation := liveReservation event reservation
  missingFromCompleteOpenSnapshot := false
  terminalByDetailAbsence := false
  lastOccurrence := some occurrence

/-- The reservation that an applied event leaves: that of an owned order stays until the order
is over, that of another follows the event. -/
def updatedReservation (event : PmOrderEvent)
    (reservation : PmReservationKnowledge) : Option PmReservationKnowledge :=
  if prior.ownership ≠ .provenOwned then liveReservation event reservation
  else if isTerminalEvent event then none
  else prior.reservation

/-- The entry that an applied event leaves. -/
def updated (identity : PmOrderIdentity) (event : PmOrderEvent)
    (occurrence : PmPrivateOccurrence) (knowledge : PmRemoteOrderKnowledge)
    (reservation : PmReservationKnowledge) : OrderEntry :=
  { prior with
    identity := identity
    event := some event
    lastOccurrence := some occurrence
    missingFromCompleteOpenSnapshot := false
    terminalByDetailAbsence := false
    ownership := mergeRemoteOwnership prior.ownership knowledge
    reservation := prior.updatedReservation event reservation }

/-- The entry of an order that the venue does not know any more. -/
def absent (occurrence : PmPrivateOccurrence) : OrderEntry :=
  { prior with
    reservation := none
    terminalByDetailAbsence := true
    lastOccurrence := some occurrence }

end OrderEntry

/-! ### Coalescing two orders -/

/-- How a call of the order state ends. -/
abbrev Reply := Outcome PmOrderStateError

/-- Owned, if one is. -/
def mergeEntryOwnership (left right : OwnershipState) : OwnershipState :=
  match left, right with
  | .provenOwned, _ | _, .provenOwned => .provenOwned
  | .ambiguous, _ | _, .ambiguous => .ambiguous
  | .unmanaged, .unmanaged => .unmanaged

/-- The registered terms of the coalesced order. -/
def mergeTerms (left right : Option RegisteredTerms) :
    Except PmOrderStateError (Option RegisteredTerms) :=
  match left, right with
  | some left, some right => if left ≠ right then .error .observationConflict else .ok (some left)
  | some terms, none | none, some terms => .ok (some terms)
  | none, none => .ok none

variable (left right : OrderEntry)

/-- Which of two orders has been observed last. -/
def compareOccurrences : Ordering :=
  compare left.observedAt right.observedAt

/-- The check of `merge_entries` that the later event continues the earlier one. -/
def mergeLifecycle : Except PmOrderStateError Unit :=
  match left.event, right.event with
  | some leftEvent, some rightEvent =>
    match compareOccurrences left right with
    | .lt => validateLifecycle leftEvent rightEvent
    | .gt => validateLifecycle rightEvent leftEvent
    | .eq => if leftEvent ≠ rightEvent then .error .observationConflict else .ok ()
  | _, _ => .ok ()

/-- The order whose event and flags the coalesced order takes. -/
def selectEntry : OrderEntry :=
  match compareOccurrences left right with
  | .lt => right
  | .gt => left
  | .eq => if right.event.isSome = true ∧ left.event.isNone = true then right else left

/-- `merge_owned_reservation`, which is only called when one of the two is owned. -/
def mergeOwnedReservation : Reply (Option PmReservationKnowledge) :=
  if left.ownership = .provenOwned then
    if right.ownership = .provenOwned ∧ left.reservation ≠ right.reservation then
      .err .identityConflict
    else .ok left.reservation
  else if right.ownership = .provenOwned then .ok right.reservation
  else .panic

/-- The reservation of the coalesced order. -/
def mergeReservation : Reply (Option PmReservationKnowledge) :=
  if mergeEntryOwnership left.ownership right.ownership = .provenOwned then
    mergeOwnedReservation left right
  else if compareOccurrences left right = .eq ∧ left.reservation ≠ right.reservation then
    .ok (some .unknown)
  else .ok (selectEntry left right).reservation

/-- The entry that `merge_entries` builds. -/
def mergedEntry (identity : PmOrderIdentity) (registeredTerms : Option RegisteredTerms)
    (reservation : Option PmReservationKnowledge) : OrderEntry where
  identity := identity
  instrument := left.instrument
  event := (selectEntry left right).event
  ownership := mergeEntryOwnership left.ownership right.ownership
  registeredTerms := registeredTerms
  reservation := reservation
  missingFromCompleteOpenSnapshot := (selectEntry left right).missingFromCompleteOpenSnapshot
  terminalByDetailAbsence := (selectEntry left right).terminalByDetailAbsence
  lastOccurrence := (selectEntry left right).lastOccurrence

/-- `merge_entries`. -/
def mergeEntries : Reply OrderEntry :=
  if left.instrument ≠ right.instrument then .err .identityConflict
  else do
    .ofExcept (ensureIdentityMerge left.identity right.identity)
    let registeredTerms ← .ofExcept (mergeTerms left.registeredTerms right.registeredTerms)
    .ofExcept (mergeLifecycle left right)
    let reservation ← mergeReservation left right
    let identity ← .expect (mergeIdentity left.identity right.identity)
    return mergedEntry left right identity registeredTerms reservation

end Reap.Order
