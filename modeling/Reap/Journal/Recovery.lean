import Reap.Base.Journal
import Reap.Base.OrderedMap
import Reap.Journal.Schema

/-!
# The mutation journal: recovery

A journal is read back line by line into a bounded projection: the orders that are still retained,
what is known of each, the fills and terminal observations behind it, and the indexes that list
them in order. The first record that does not fit what has been read so far ends recovery with an
error.

Every function here is one of the source, under the source's name; what it does to a single order
is a function on that order. A failed call has no state, since recovery stops there.
`Outcome.panic` stands for an `expect`.

The lines come decoded. What the source refuses of the bytes is left out: a line of more than 64 KiB,
a file of more than 512 MiB, an empty line, one without its end, and one that is not a record.
-/

namespace Reap.Journal

open Base Reap.Core

/-- `PmJournalRecoveryError`, without the errors of files and texts. -/
inductive PmJournalRecoveryError where
  | schema (error : PmJournalSchemaError)
  | tooManyRecords
  | missingHeader
  | duplicateHeader
  | scopeMismatch
  | scopeVersionMismatch
  | nonContiguousSequence (expected actual : UInt64)
  | nonMonotonicIntentId (prior actual : UInt64)
  | nonMonotonicOwnedObservationSequence (prior actual : UInt64)
  | tooManyOwnedOrders
  | tooManyFillKeys
  | duplicateQuoteIntent
  | quoteSlotOccupied
  | unknownOwnedOrder
  | invalidPlaceTransition
  | invalidCancelTransition
  | unprovenVenueOwnership
  | duplicateVenueBinding
  | invalidFillOwnership
  | duplicateFill
  | invalidProgress
  | backwardsAuthoritativeCumulative
  | contradictoryAuthoritativeCumulative
  | invalidTerminalTransition
  | duplicateWatermark
  | duplicateAuthenticatedResult
  | authenticatedPriorSequenceMismatch
  deriving DecidableEq, Repr

/-! ### One recovered order -/

/-- `RecoveredPlace`. -/
inductive RecoveredPlace where
  | intentOnly
  | unknown
  | bound
  | rejected
  deriving DecidableEq, Repr

/-- Where a total was reported. -/
structure RecoveredAuthoritativeOccurrence where
  source : PmJournalFillSourceV1
  occurrence : PmJournalFillOccurrenceV1
  deriving DecidableEq

/-- An order, as recovered. -/
structure RecoveredOwnedOrder where
  intent : PmJournalQuoteIntentV1
  intentJournalSequence : UInt64
  knownFillTotal : U256
  authoritativeCumulative : Option U256
  cumulative : U256
  lastAuthoritativeOccurrence : Option RecoveredAuthoritativeOccurrence
  venueOrder : Option PmVenueOrderKey
  place : RecoveredPlace
  ordinaryPlaceResultRecorded : Bool
  cancelPending : Bool
  cancelUnknown : Bool
  cancelIntentJournalSequence : Option UInt64
  ordinaryCancelResultRecorded : Bool
  /-- The announced fills to come. -/
  pendingAckFills : List PmFillKey
  terminal : Option PmJournalTerminalStatusV1
  deriving DecidableEq

/-- `ResultProvenance`. -/
inductive ResultProvenance where
  | ordinary
  | authenticated
  deriving DecidableEq, Repr

/-- `max_units`. -/
def maxUnits (first second : U256) : U256 := if second ≤ first then first else second

/-- Two occurrences compare only within one source and one connection. -/
def compareOccurrences (next prior : RecoveredAuthoritativeOccurrence) : Option Ordering :=
  if next.source = prior.source ∧ next.occurrence.connection = prior.occurrence.connection then
    let epoch := fun o : PmJournalFillOccurrenceV1 => (o.connectionEpoch.map (·.value)).getD 0
    let ingress := fun o : PmJournalFillOccurrenceV1 => (o.ingressSequence.map (·.value)).getD 0
    let revision := fun o : PmJournalFillOccurrenceV1 => (o.snapshotRevision.map (·.value)).getD 0
    let byOwner := (compare next.occurrence.ownerSequence.value
      prior.occurrence.ownerSequence.value).then
      (compare next.occurrence.monotonicServiceNs prior.occurrence.monotonicServiceNs)
    let byConnection := ((compare (epoch next.occurrence) (epoch prior.occurrence)).then
      (compare (ingress next.occurrence) (ingress prior.occurrence))).then byOwner
    match next.source with
    | .privateWebsocket => some byConnection
    | .restReconciliation =>
      some ((compare (revision next.occurrence) (revision prior.occurrence)).then byConnection)
    | .placeAcknowledgement => some byOwner
  else none

/-- The status may change so. -/
def validTerminalTransition (prior : Option PmJournalTerminalStatusV1)
    (incoming : PmJournalTerminalStatusV1) : Bool :=
  match prior, incoming with
  | none, _ => true
  | some .filled, .filled | some .rejected, .rejected | some .expired, .expired => true
  | some .cancelled, .cancelled | some .cancelled, .filled => true
  | _, _ => false

/-- `same_slot`. -/
def sameSlot (first second : PmJournalQuoteIntentV1) : Bool :=
  first.clientOrder.account == second.clientOrder.account &&
    first.instrument == second.instrument && first.side == second.side

/-- The outcome of a placement binds a venue order. -/
def PmJournalPlaceOutcomeV1.bindsVenue : PmJournalPlaceOutcomeV1 → Bool
  | .acceptedResting | .acceptedWithImmediateFill | .lateAcknowledgement => true
  | .rejected | .ambiguousTimeout => false

namespace RecoveredOwnedOrder

variable (order : RecoveredOwnedOrder) (provenance : ResultProvenance)
  (applied : PmJournalFillAppliedV1)

/-- The order of an intent that has just been read. -/
def ofIntent (intent : PmJournalQuoteIntentV1) (sequence : UInt64) : RecoveredOwnedOrder where
  intent := intent
  intentJournalSequence := sequence
  knownFillTotal := U256.zero
  authoritativeCumulative := none
  cumulative := U256.zero
  lastAuthoritativeOccurrence := none
  venueOrder := none
  place := .intentOnly
  ordinaryPlaceResultRecorded := false
  cancelPending := false
  cancelUnknown := false
  cancelIntentJournalSequence := none
  ordinaryCancelResultRecorded := false
  pendingAckFills := []
  terminal := none

/-- `original`. -/
def original : U256 := order.intent.quantity.protocolUnits

/-- `is_unresolved`. -/
def isUnresolved : Bool :=
  order.place == .unknown || order.cancelPending || order.cancelUnknown ||
    !order.pendingAckFills.isEmpty || order.knownFillTotal != order.cumulative

/-- `can_compact`, with the only proof there is. -/
def canCompact : Bool := !order.isUnresolved && order.terminal.isSome

/-- Its slot is not free. -/
def occupiesQuoteSlot : Bool :=
  order.terminal.isNone || order.isUnresolved

/-- `bind_venue`. -/
def bindVenue (venue : Option PmVenueOrderKey)
    (fills : PmJournalImmediateFillsV1) : Except PmJournalRecoveryError RecoveredOwnedOrder :=
  match venue with
  | none => .error .invalidPlaceTransition
  | some venue => .ok { order with
      venueOrder := some venue
      place := .bound
      pendingAckFills := fills.keys }

/-- The transition of an order in `apply_place_result`. -/
def applyPlace (result : PmJournalPlaceResultV1) :
    Except PmJournalRecoveryError RecoveredOwnedOrder :=
  match result.outcome with
  | .ambiguousTimeout => do
    refuse (order.place ≠ .intentOnly) .invalidPlaceTransition
    return { order with place := .unknown }
  | .rejected => do
    refuse (order.place ≠ .intentOnly) .invalidPlaceTransition
    return { order with place := .rejected, terminal := some .rejected }
  | .acceptedResting | .acceptedWithImmediateFill => do
    refuse (order.place ≠ .intentOnly) .invalidPlaceTransition
    order.bindVenue result.venueOrder result.immediateFills
  | .lateAcknowledgement => do
    refuse (order.place ≠ .unknown) .invalidPlaceTransition
    order.bindVenue result.venueOrder result.immediateFills

/-- The mark that an ordinary place result leaves. -/
def markPlaceResult : RecoveredOwnedOrder :=
  if provenance = .ordinary then { order with ordinaryPlaceResultRecorded := true } else order

/-- `checked_bound_order`, on the order it finds. -/
def checkBound (venue : PmVenueOrderKey) : Except PmJournalRecoveryError Unit :=
  refuse (order.place ≠ .bound ∨ order.venueOrder ≠ some venue) .unprovenVenueOwnership

/-- The transition of an order by a cancel intent. -/
def applyCancelIntent (intent : PmJournalCancelIntentV1)
    (sequence : UInt64) : Except PmJournalRecoveryError RecoveredOwnedOrder := do
  order.checkBound intent.venueOrder
  refuse (order.terminal.isSome = true ∨ order.cancelPending = true ∨ order.cancelUnknown = true)
    .invalidCancelTransition
  return { order with cancelPending := true, cancelIntentJournalSequence := some sequence }

/-- What the outcome of a cancel does to an order. -/
def concludeCancel : PmJournalCancelOutcomeV1 → RecoveredOwnedOrder
  | .accepted => { order with
      cancelPending := false
      cancelUnknown := false
      terminal := some (if order.cumulative = order.original then .filled else .cancelled) }
  | .rejected => { order with cancelPending := false, cancelUnknown := false }
  | .alreadyFilled =>
    if order.cumulative = order.original then
      { order with cancelPending := false, cancelUnknown := false, terminal := some .filled }
    else { order with cancelPending := false, cancelUnknown := true }
  | .ambiguousTimeout => { order with cancelUnknown := true }

/-- The mark that an ordinary cancel result leaves. -/
def markCancelResult : RecoveredOwnedOrder :=
  if provenance = .ordinary then { order with ordinaryCancelResultRecorded := true } else order

/-- The transition of an order in `apply_cancel_result`. -/
def applyCancel (result : PmJournalCancelResultV1)
    (provenance : ResultProvenance) : Except PmJournalRecoveryError RecoveredOwnedOrder := do
  order.checkBound result.venueOrder
  refuse (order.cancelPending = false) .invalidCancelTransition
  return (order.concludeCancel result.outcome).markCancelResult provenance

/-- The authoritative cumulative quantity after a fill, with the occurrence that it rests on. -/
def nextAuthoritative :
    Except PmJournalRecoveryError (Option U256 × Option RecoveredAuthoritativeOccurrence) :=
  let unchanged := (order.authoritativeCumulative, order.lastAuthoritativeOccurrence)
  match applied.fill.authoritativeCumulative with
  | none => .ok unchanged
  | some reported =>
    let occurrence : RecoveredAuthoritativeOccurrence := ⟨applied.source, applied.occurrence⟩
    let replaced := (some reported, some occurrence)
    if order.original < reported then .error .invalidProgress
    else
    match order.authoritativeCumulative, order.lastAuthoritativeOccurrence with
    | some prior, some priorOccurrence =>
      match compareOccurrences occurrence priorOccurrence with
      | some .lt =>
        if prior < reported then .error .contradictoryAuthoritativeCumulative else .ok unchanged
      | some .eq =>
        if reported ≠ prior then .error .contradictoryAuthoritativeCumulative else .ok unchanged
      | some .gt =>
        if reported < prior then .error .backwardsAuthoritativeCumulative else .ok replaced
      | none => if prior < reported then .ok replaced else .ok unchanged
    | some prior, none =>
      if reported < prior then .error .backwardsAuthoritativeCumulative else .ok replaced
    | none, _ => .ok replaced

/-- A fill record names an order that it cannot be a fill of. -/
def refusesFill : Prop :=
  order.place ≠ .bound ∨ order.venueOrder ≠ some applied.fill.key.venueOrder ∨
    order.intent.instrument ≠ applied.fill.instrument ∨ order.intent.side ≠ applied.fill.side ∨
    order.terminal = some .rejected ∨
    (applied.source = .placeAcknowledgement ∧ applied.fill.key ∉ order.pendingAckFills)

instance (order : RecoveredOwnedOrder) (applied : PmJournalFillAppliedV1) :
    Decidable (order.refusesFill applied) := by
  unfold refusesFill
  infer_instance

/-- The order is filled to the last unit. -/
def concludeFill : RecoveredOwnedOrder :=
  if order.cumulative = order.original then
    { order with terminal := some .filled, cancelPending := false, cancelUnknown := false }
  else order

/-- The transition of an order in `apply_fill`. -/
def applyFill : Except PmJournalRecoveryError RecoveredOwnedOrder := do
  let fill := applied.fill
  refuse (order.refusesFill applied) .invalidFillOwnership
  let known ← wrapError (fun _ => .invalidProgress)
    (order.knownFillTotal.checkedAdd fill.delta.protocolUnits)
  refuse (order.original < known) .invalidProgress
  let (authoritative, occurrence) ← order.nextAuthoritative applied
  let cumulative := maxUnits known (authoritative.getD U256.zero)
  refuse (fill.cumulative ≠ cumulative ∨
    (fill.cumulative.checkedAdd fill.remaining).toOption ≠ some order.original) .invalidProgress
  return concludeFill { order with
    knownFillTotal := known
    authoritativeCumulative := authoritative
    lastAuthoritativeOccurrence := occurrence
    cumulative := cumulative
    pendingAckFills := order.pendingAckFills.erase fill.key }

/-- The status of a terminal observation agrees with its quantity. -/
def terminalStatusMatches (terminal : PmJournalOrderTerminalV1) : Bool :=
  match terminal.status with
  | .filled => terminal.cumulative == order.original
  | .cancelled | .expired => true
  | .rejected => terminal.cumulative.isZero

/-- The transition of an order in `apply_terminal`. -/
def applyTerminal (terminal : PmJournalOrderTerminalV1) :
    Except PmJournalRecoveryError RecoveredOwnedOrder := do
  refuse (order.terminalStatusMatches terminal = false ∨ order.place ≠ .bound ∨
    some terminal.venueOrder ≠ order.venueOrder ∨ terminal.cumulative ≠ order.cumulative)
    .invalidTerminalTransition
  let total ← wrapError (fun _ => .invalidProgress)
    (terminal.cumulative.checkedAdd terminal.remaining)
  refuse (total ≠ order.original ∨
    validTerminalTransition order.terminal terminal.status = false) .invalidTerminalTransition
  return { order with
    terminal := some terminal.status
    cancelPending := false
    cancelUnknown := false }

/-- What `finalize_incomplete_effects` does to an order. -/
def finalizeEffects : RecoveredOwnedOrder :=
  let order := if order.place = .intentOnly then { order with place := .unknown } else order
  if order.cancelPending = true then { order with cancelUnknown := true } else order

end RecoveredOwnedOrder

/-! ### The projection -/

/-- An observation to replay. -/
inductive PmJournalRecoveredObservationV1 where
  | fillApplied (applied : PmJournalFillAppliedV1)
  | orderTerminal (terminal : PmJournalOrderTerminalV1)
  deriving DecidableEq

namespace PmJournalRecoveredObservationV1

/-- `client_order`. -/
def clientOrder : PmJournalRecoveredObservationV1 → PmClientOrderKey
  | fillApplied applied => applied.fill.clientOrder
  | orderTerminal terminal => terminal.clientOrder

/-- The position of an observation in the owner's order. -/
def ownerSequence : PmJournalRecoveredObservationV1 → UInt64
  | fillApplied applied => applied.occurrence.ownerSequence.value
  | orderTerminal terminal => terminal.occurrence.ownerSequence.value

/-- The record of an observation. -/
def record : PmJournalRecoveredObservationV1 → PmJournalRecordV1
  | fillApplied applied => .fillApplied applied
  | orderTerminal terminal => .orderTerminal terminal

end PmJournalRecoveredObservationV1

/-- `PmJournalRecovery`. -/
structure PmJournalRecovery where
  scope : PmJournalScopeV1
  recordCount : ℕ
  lastSequence : UInt64
  lastIntentId : UInt64
  lastOwnedObservationSequence : UInt64
  compactedIntentId : UInt64
  ownedOrders : OrderedMap PmClientOrderKey RecoveredOwnedOrder
  /-- The retained orders, by intent. -/
  orderOrder : OrderedMap UInt64 PmClientOrderKey
  fillKeys : OrderedMap PmFillKey PmJournalFillAppliedV1
  /-- How many acknowledged fills are still missing. -/
  pendingAckFillKeys : ℕ
  /-- The retained fills, by owner sequence. -/
  fillOrder : OrderedMap UInt64 PmFillKey
  /-- The retained observations, by owner sequence. -/
  observationOrder : OrderedMap UInt64 PmJournalRecoveredObservationV1
  safetyHalt : Option PmJournalSafetyReasonV1
  fillWatermark : Option PmJournalFillCursorV1
  authenticatedResults : OrderedMap UInt64 PmJournalAuthenticatedResultV1

/-- How a function of recovery ends. -/
abbrev Recovering (α : Type) := Outcome PmJournalRecoveryError α

namespace PmJournalRecovery

section

variable (s : PmJournalRecovery) (result : PmJournalAuthenticatedResultV1)
  (client : PmClientOrderKey)

/-- `empty`. -/
def empty (scope : PmJournalScopeV1) : PmJournalRecovery where
  scope := scope
  recordCount := 0
  lastSequence := 0
  lastIntentId := 0
  lastOwnedObservationSequence := 0
  compactedIntentId := 0
  ownedOrders := ∅
  orderOrder := ∅
  fillKeys := ∅
  pendingAckFillKeys := 0
  fillOrder := ∅
  observationOrder := ∅
  safetyHalt := none
  fillWatermark := none
  authenticatedResults := ∅

/-- The order of the client is retained. -/
abbrev Holds (order : RecoveredOwnedOrder) : Prop := s.ownedOrders[client]? = some order

/-- The order of a client, which must be retained. -/
def findOrder : Recovering RecoveredOwnedOrder :=
  .okOr .unknownOwnedOrder s.ownedOrders[client]?

/-- Write an order back. -/
def setOrder (order : RecoveredOwnedOrder) : PmJournalRecovery :=
  { s with ownedOrders := s.ownedOrders.insert client order }

/-- Another retained order is bound to the venue order. -/
def boundElsewhere (venue : PmVenueOrderKey) : Bool :=
  s.ownedOrders.toList.any fun entry =>
    entry.1 != client && entry.2.venueOrder == some venue

/-- `ensure_fill_key_capacity`. A sum that leaves the machine word is above the bound. -/
def ensureFillKeyCapacity (additional : ℕ) : Recovering Unit :=
  .refuse (maxPmJournalFillKeys < s.fillKeys.size + s.pendingAckFillKeys + additional)
    .tooManyFillKeys

/-- `apply_quote_intent`. -/
def applyQuoteIntent (intent : PmJournalQuoteIntentV1)
    (sequence : UInt64) : Recovering PmJournalRecovery := do
  .refuse (intent.intentId ≤ s.lastIntentId) (.nonMonotonicIntentId s.lastIntentId intent.intentId)
  .refuse (s.ownedOrders.contains intent.clientOrder = true) .duplicateQuoteIntent
  .refuse ((s.ownedOrders.valueList.any fun order =>
    sameSlot order.intent intent && order.occupiesQuoteSlot) = true) .quoteSlotOccupied
  .refuse (s.ownedOrders.size = maxPmJournalOwnedOrders) .tooManyOwnedOrders
  return { s.setOrder intent.clientOrder (.ofIntent intent sequence) with
    orderOrder := s.orderOrder.insert intent.intentId intent.clientOrder
    lastIntentId := intent.intentId }

/-- `checked_add` of machine words, which must not overflow. -/
def addPending (count : ℕ) : Recovering PmJournalRecovery :=
  .expect (if s.pendingAckFillKeys + count < 2 ^ 64 then
    some { s with pendingAckFillKeys := s.pendingAckFillKeys + count } else none)

/-- `apply_place_result`. -/
def applyPlaceResult (result : PmJournalPlaceResultV1)
    (provenance : ResultProvenance) : Recovering PmJournalRecovery := do
  .refuse (∃ venue ∈ result.venueOrder, s.boundElsewhere result.clientOrder venue = true)
    .duplicateVenueBinding
  let count := result.immediateFills.keys.length
  if result.outcome.bindsVenue then s.ensureFillKeyCapacity count else pure ()
  let order ← s.findOrder result.clientOrder
  let placed ← .ofExcept (order.applyPlace result)
  let s := s.setOrder result.clientOrder (placed.markPlaceResult provenance)
  if result.outcome.bindsVenue then s.addPending count else return s

/-- The venue order that 32 bytes write. -/
def exactExpectedVenueOrder (expected : PmJournalFingerprintV1) : Option PmVenueOrderKey :=
  let text := 48 :: 120 :: encodeDigits expected.bytes.toNat 64
  if h : text ≠ [] ∧ text.length ≤ 96 ∧ text.all fun byte => 33 ≤ byte ∧ byte ≤ 126 then
    some ⟨client.account, ⟨text, h.1, h.2.1, by simpa using h.2.2⟩⟩
  else none

/-- Bind the expected identity. -/
def bindAuthenticatedAmbiguousVenue
    (place : PmJournalAuthenticatedPlaceResultV1) : Recovering PmJournalRecovery := do
  let client := place.canonical.clientOrder
  let venue ← .okOr .invalidPlaceTransition (exactExpectedVenueOrder client place.expectedOrderId)
  .refuse (s.boundElsewhere client venue = true) .duplicateVenueBinding
  let order ← s.findOrder client
  .refuse (order.place ≠ .unknown ∨ order.venueOrder.isSome = true) .invalidPlaceTransition
  return s.setOrder client { order with venueOrder := some venue }

/-- The transition of a cancel intent. -/
def applyCancelIntent (intent : PmJournalCancelIntentV1)
    (sequence : UInt64) : Recovering PmJournalRecovery := do
  let order ← s.findOrder intent.clientOrder
  let order ← .ofExcept (order.applyCancelIntent intent sequence)
  return s.setOrder intent.clientOrder order

/-- `apply_cancel_result`. -/
def applyCancelResult (result : PmJournalCancelResultV1)
    (provenance : ResultProvenance) : Recovering PmJournalRecovery := do
  let order ← s.findOrder result.clientOrder
  let order ← .ofExcept (order.applyCancel result provenance)
  return s.setOrder result.clientOrder order

/-- One of the missing fills is there: `checked_sub(1)`, where there must be one. -/
def resolvePending (resolved : Bool) : Recovering PmJournalRecovery :=
  if resolved then
    .expect (if s.pendingAckFillKeys = 0 then none
      else some { s with pendingAckFillKeys := s.pendingAckFillKeys - 1 })
  else .ok s

variable (observation : PmJournalRecoveredObservationV1)

/-- An observation enters the owner's order. -/
def observe : PmJournalRecovery :=
  { s with
    observationOrder := s.observationOrder.insert observation.ownerSequence observation
    lastOwnedObservationSequence := observation.ownerSequence }

/-- The sequence number of an observation is above that of the last one. -/
def checkOwnerSequence : Recovering Unit :=
  .refuse (observation.ownerSequence ≤ s.lastOwnedObservationSequence)
    (.nonMonotonicOwnedObservationSequence s.lastOwnedObservationSequence
      observation.ownerSequence)

/-- `apply_fill`. -/
def applyFill (applied : PmJournalFillAppliedV1) : Recovering PmJournalRecovery := do
  let fill := applied.fill
  .refuse (s.fillKeys.contains fill.key = true) .duplicateFill
  s.checkOwnerSequence (.fillApplied applied)
  let order ← s.findOrder fill.clientOrder
  let resolvesPendingAck := decide (fill.key ∈ order.pendingAckFills)
  s.ensureFillKeyCapacity (if resolvesPendingAck then 0 else 1)
  let filled ← .ofExcept (order.applyFill applied)
  let s := s.setOrder fill.clientOrder filled
  let s ← s.resolvePending resolvesPendingAck
  return { s with
    fillKeys := s.fillKeys.insert fill.key applied
    fillOrder := s.fillOrder.insert applied.occurrence.ownerSequence.value fill.key
    }.observe (.fillApplied applied)

/-- `apply_terminal`. -/
def applyTerminal (terminal : PmJournalOrderTerminalV1) : Recovering PmJournalRecovery := do
  s.checkOwnerSequence (.orderTerminal terminal)
  let order ← s.findOrder terminal.clientOrder
  let order ← .ofExcept (order.applyTerminal terminal)
  return (s.setOrder terminal.clientOrder order).observe (.orderTerminal terminal)

/-- The contiguous cut of issued intents: below the oldest retained order. -/
def safeCut (orders : OrderedMap PmClientOrderKey RecoveredOwnedOrder) (lastIntentId : UInt64) :
    UInt64 :=
  match (orders.valueList.map (·.intent.intentId)).min? with
  | none => lastIntentId
  | some oldest => if oldest = 0 then 0 else oldest - 1

/-- The projection without a removed order and all that is listed for it. -/
def withoutOrder (removed : RecoveredOwnedOrder) : PmJournalRecovery :=
  let ownedOrders := s.ownedOrders.erase client
  let fillKeys := s.fillKeys.filter fun _ applied => applied.fill.clientOrder != client
  { s with
    ownedOrders := ownedOrders
    orderOrder := s.orderOrder.erase removed.intent.intentId
    fillKeys := fillKeys
    fillOrder := s.fillOrder.filter fun _ key => fillKeys.contains key
    observationOrder := s.observationOrder.filter fun _ observation =>
      observation.clientOrder != client
    compactedIntentId :=
      max s.compactedIntentId (safeCut ownedOrders s.lastIntentId) }

/-- `compact_order`. -/
def compactOrder : PmJournalRecovery :=
  match s.ownedOrders[client]? with
  | none => s
  | some removed => s.withoutOrder client removed

/-- Forget what is over. -/
def compactProvenTerminalOrders : PmJournalRecovery :=
  let clients := s.ownedOrders.toList.filterMap fun entry =>
    if entry.2.canCompact then some entry.1 else none
  clients.foldl compactOrder s

/-- `apply_fill_watermark`, the arm of `apply_record`. -/
def applyFillWatermark (watermark : PmJournalFillWatermarkV1) : Recovering PmJournalRecovery := do
  .refuse (s.fillWatermark = some watermark.cursor) .duplicateWatermark
  return { s with fillWatermark := some watermark.cursor }.compactProvenTerminalOrders

/-- The sequence number of the intent that an authenticated result must point at. -/
def expectedPrior : Recovering UInt64 :=
  match result with
  | .place place => do
    let order ← s.findOrder place.canonical.clientOrder
    return order.intentJournalSequence
  | .cancel cancel => do
    let order ← s.findOrder cancel.canonical.clientOrder
    .okOr .invalidCancelTransition order.cancelIntentJournalSequence

/-- The canonical result that an authenticated result carries. -/
def applyCanonical : Recovering PmJournalRecovery :=
  match result with
  | .place place => do
    let s ← s.applyPlaceResult place.canonical .authenticated
    if place.classification = .outOfProfile ∨ place.classification = .acknowledgementUnknown then
      s.bindAuthenticatedAmbiguousVenue place
    else return s
  | .cancel cancel => s.applyCancelResult cancel.canonical .authenticated

/-- A bridged result. -/
def applyAuthenticatedResult : Recovering PmJournalRecovery := do
  .refuse (s.authenticatedResults.contains result.authResultSequence = true)
    .duplicateAuthenticatedResult
  let prior ← s.expectedPrior result
  .refuse (prior ≠ result.priorGoalFSequence) .authenticatedPriorSequenceMismatch
  let s ← s.applyCanonical result
  return { s with
    authenticatedResults :=
      s.authenticatedResults.insert result.authResultSequence result }

end

variable [JournalDigest]

variable (s : PmJournalRecovery)

/-- `apply_record`. -/
def applyRecord (record : PmJournalRecordV1) (sequence : UInt64) :
    Recovering PmJournalRecovery := do
  .wrapError .schema (record.validate s.scope)
  if sequence = 0 then
    match record with
    | .header scope => do
      .refuse (scope ≠ s.scope) .scopeMismatch
      return s
    | _ => .err .missingHeader
  else
  match record with
  | .header _ => .err .duplicateHeader
  | .quoteIntent intent => s.applyQuoteIntent intent sequence
  | .placeResult result => s.applyPlaceResult result .ordinary
  | .cancelIntent intent => s.applyCancelIntent intent sequence
  | .cancelResult result => s.applyCancelResult result .ordinary
  | .fillApplied applied => s.applyFill applied
  | .orderTerminal terminal => s.applyTerminal terminal
  | .safetyHalt halt => return { s with safetyHalt := some halt.reason }
  | .fillWatermarkAdvanced watermark => s.applyFillWatermark watermark
  | .authenticatedResult result => s.applyAuthenticatedResult result

/-! ### A whole journal -/

/-- An open outcome is unknown. -/
def finalizeIncompleteEffects : PmJournalRecovery :=
  { s with ownedOrders := s.ownedOrders.map fun _ order => order.finalizeEffects }

/-- The projection after a line, with the line counted. -/
def counted (sequence : UInt64) : PmJournalRecovery :=
  { s with recordCount := s.recordCount + 1, lastSequence := sequence }

end PmJournalRecovery

/-- A line that has been decoded. -/
structure PmJournalLineV1 where
  schemaVersion : UInt16
  scope : PmJournalFingerprintV1
  sequence : UInt64
  record : PmJournalRecordV1
  deriving DecidableEq

section

variable [JournalDigest]

/-- What `recover_lines` checks of a line before its record. -/
def checkLine (s : PmJournalRecovery) (expected : UInt64) (line : PmJournalLineV1) :
    Recovering Unit := do
  .refuse (s.recordCount = maxPmJournalRecords) .tooManyRecords
  .refuse (line.schemaVersion ≠ s.scope.schemaVersion) .scopeVersionMismatch
  .refuse (line.scope ≠ s.scope.fingerprint) .scopeMismatch
  .refuse (line.sequence ≠ expected) (.nonContiguousSequence expected line.sequence)

/-- A record is applied, and its line counted. -/
def applyCounted (s : PmJournalRecovery) (record : PmJournalRecordV1) (sequence : UInt64) :
    Recovering PmJournalRecovery := do
  let applied ← s.applyRecord record sequence
  return applied.counted sequence

/-- The lines of a journal from a position on, as `recover_lines` reads them. -/
def recoverFrom : PmJournalRecovery → UInt64 → List PmJournalLineV1 → Recovering PmJournalRecovery :=
  readLines applyCounted (·.record) checkLine fun sequence =>
    .wrapError .schema (nextSequence .sequenceExhausted sequence)

/-- `recover_lines`, on the decoded lines. -/
def recoverLines (lines : List PmJournalLineV1) (scope : PmJournalScopeV1) :
    Recovering PmJournalRecovery := do
  let s ← recoverFrom (.empty scope) 0 lines
  .refuse (s.recordCount = 0) .missingHeader
  return s.finalizeIncompleteEffects

end

/-! ### What is read of a recovery -/

/-- One row for the state's owner. -/
structure PmJournalRecoveredOrderV1 where
  intent : PmJournalQuoteIntentV1
  intentJournalSequence : UInt64
  venueOrder : Option PmVenueOrderKey
  place : RecoveredPlace
  knownFillTotal : U256
  authoritativeCumulative : Option U256
  cumulative : U256
  cancelPending : Bool
  cancelUnknown : Bool
  cancelIntentJournalSequence : Option UInt64
  pendingAckFillCount : UInt8
  terminal : Option PmJournalTerminalStatusV1
  deriving DecidableEq

/-- `bootstrap_row`, which aborts if more fills are missing than a byte can
count. -/
def RecoveredOwnedOrder.bootstrapRow (order : RecoveredOwnedOrder) :
    Option PmJournalRecoveredOrderV1 :=
  if order.pendingAckFills.length < 256 then
    some {
      intent := order.intent
      intentJournalSequence := order.intentJournalSequence
      venueOrder := order.venueOrder
      place := order.place
      knownFillTotal := order.knownFillTotal
      authoritativeCumulative := order.authoritativeCumulative
      cumulative := order.cumulative
      cancelPending := order.cancelPending
      cancelUnknown := order.cancelUnknown
      cancelIntentJournalSequence := order.cancelIntentJournalSequence
      pendingAckFillCount := UInt8.ofNat order.pendingAckFills.length
      terminal := order.terminal }
  else none

namespace PmJournalRecovery

variable (s : PmJournalRecovery)

/-- The rows in the order of their intents. It aborts if the index lists an
order that is not retained. -/
def recoveredOrders : Option (List PmJournalRecoveredOrderV1) :=
  s.orderOrder.valueList.mapM fun client =>
    s.ownedOrders[client]?.bind RecoveredOwnedOrder.bootstrapRow

/-- `recovered_fills`, which aborts if the index lists a fill that is not retained. -/
def recoveredFills : Option (List PmJournalFillAppliedV1) :=
  s.fillOrder.valueList.mapM fun key => s.fillKeys[key]?

end PmJournalRecovery

end Reap.Journal
