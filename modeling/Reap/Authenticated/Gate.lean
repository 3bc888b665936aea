import Reap.Authenticated.Recovery
import Reap.Journal.Recovery

/-!
# The restart gate between the two journals

A result that reached the authenticated journal is bridged into the mutation journal. After a
restart the gate joins the two recoveries: every bridge must be a result, every attempt must point
at the intent that it was made for, and the results without a bridge are the ones to append.

The sets of the source are lists here.
-/

namespace Reap.Authenticated

open Base Reap.Core Reap.Journal

/-- Why the gate refuses. -/
inductive PmAuthenticatedRecoveryError where
  | scopeMismatch
  | missingGoalFIntent
  | attemptScopeMismatch
  | priorGoalFSequenceMismatch
  | priorAlreadyCompletedByOrdinaryResult
  | duplicateAuthenticatedAttempt
  | duplicateGoalFPriorAttempt
  | extraGoalFBridge
  | duplicateGoalFBridge
  | bridgeMismatch
  | invalidRecoveredResultShape
  deriving DecidableEq, Repr

/-- A check of the gate. -/
abbrev Gating := Outcome PmAuthenticatedRecoveryError

/-! ### Results -/

/-- A placement or a cancel. -/
inductive PmAuthenticatedUnresolvedOperationKindV1 where
  | place
  | cancel
  deriving DecidableEq, Repr

/-- The kind of an operation. -/
def PmAuthenticatedOperationKeyV1.kind :
    PmAuthenticatedOperationKeyV1 → PmAuthenticatedUnresolvedOperationKindV1
  | .place _ => .place
  | .cancel _ _ => .cancel

namespace PmAuthenticatedRecoveredResultV1

variable (result : PmAuthenticatedRecoveredResultV1)

/-- `client_order`. -/
def clientOrder : PmClientOrderKey :=
  result.operation.coordinator.clientOrder

/-- `instrument`. -/
def instrument : PmInstrumentId :=
  result.operation.coordinator.instrument

/-- The order to cancel. -/
def exactCancelVenueOrder : Option PmVenueOrderKey :=
  result.operation.venueOrder

/-- What a placement expects. -/
def expectedPlaceOrderId : Option PmAuthenticatedCommitmentV1 :=
  match result.operation with
  | .place _ => some result.expectedOrExactOrderId
  | .cancel _ _ => none

/-- What a cancel names. -/
def exactCancelOrderId : Option PmAuthenticatedCommitmentV1 :=
  match result.operation with
  | .place _ => none
  | .cancel _ _ => some result.expectedOrExactOrderId

/-- What a placement got. -/
def observedPlaceOrderId : Option PmAuthenticatedCommitmentV1 :=
  match result.operation with
  | .place _ => result.observedOrderId
  | .cancel _ _ => none

/-- The identity observed. -/
def observedCancelOrderId : Option PmAuthenticatedCommitmentV1 :=
  match result.operation with
  | .place _ => none
  | .cancel _ _ => result.observedOrderId

end PmAuthenticatedRecoveredResultV1

/-- The class of the bridge. -/
def recoveredClassification :
    PmAuthenticatedRecoveredResultClassificationV1 → PmJournalAuthenticatedClassificationV1
  | .place .accepted | .cancel .accepted => .accepted
  | .place .rejected | .cancel .rejected => .rejected
  | .place .definitelyNotDispatched | .cancel .definitelyNotDispatched => .definitelyNotDispatched
  | .place .outOfProfile | .cancel .outOfProfile => .outOfProfile
  | .place .acknowledgementUnknown | .cancel .acknowledgementUnknown => .acknowledgementUnknown

/-- The bytes of a commitment in the other journal. -/
def PmAuthenticatedCommitmentV1.fingerprint (commitment : PmAuthenticatedCommitmentV1) :
    PmJournalFingerprintV1 := ⟨commitment.bytes⟩

/-! ### Bridges -/

/-- The bridge is that of the result. -/
def bridgeMatchesRecovery (bridge : PmJournalAuthenticatedResultV1)
    (recovered : PmAuthenticatedRecoveredResultV1) : Bool :=
  match bridge with
  | .place bridge =>
    recovered.operation.kind == .place &&
    bridge.authPreparedSequence == recovered.preparedJournalSequence &&
    bridge.authGrantSequence == recovered.grantJournalSequence &&
    bridge.authResultSequence == recovered.resultJournalSequence &&
    bridge.priorGoalFSequence == recovered.priorGoalFSequence &&
    bridge.canonical.clientOrder == recovered.clientOrder &&
    bridge.instrument == recovered.instrument &&
    bridge.requestCommitment == recovered.requestCommitment.fingerprint &&
    some bridge.expectedOrderId == recovered.expectedPlaceOrderId.map (·.fingerprint) &&
    bridge.observedOrderId == recovered.observedPlaceOrderId.map (·.fingerprint) &&
    bridge.classification == recoveredClassification recovered.classification
  | .cancel bridge =>
    recovered.operation.kind == .cancel &&
    bridge.authPreparedSequence == recovered.preparedJournalSequence &&
    bridge.authGrantSequence == recovered.grantJournalSequence &&
    bridge.authResultSequence == recovered.resultJournalSequence &&
    bridge.priorGoalFSequence == recovered.priorGoalFSequence &&
    bridge.canonical.clientOrder == recovered.clientOrder &&
    some bridge.canonical.venueOrder == recovered.exactCancelVenueOrder &&
    bridge.instrument == recovered.instrument &&
    bridge.requestCommitment == recovered.requestCommitment.fingerprint &&
    some bridge.fixedOrderId == recovered.exactCancelOrderId.map (·.fingerprint) &&
    bridge.observedOrderId == recovered.observedCancelOrderId.map (·.fingerprint) &&
    bridge.classification == recoveredClassification recovered.classification

/-- `PmJournalAuthenticatedPlaceResultV1::new`, of the canonical result. -/
def canonicalPlace (client : PmClientOrderKey) (acceptedVenueOrder : Option PmVenueOrderKey) :
    PmJournalAuthenticatedClassificationV1 → PmJournalPlaceResultV1
  | .accepted => ⟨client, .acceptedResting, none, acceptedVenueOrder, ⟨[]⟩⟩
  | .rejected => ⟨client, .rejected, some .authenticatedVenueRejected, none, ⟨[]⟩⟩
  | .definitelyNotDispatched =>
    ⟨client, .rejected, some .authenticatedDefinitelyNotDispatched, none, ⟨[]⟩⟩
  | .outOfProfile | .acknowledgementUnknown => ⟨client, .ambiguousTimeout, none, none, ⟨[]⟩⟩

/-- `PmJournalAuthenticatedCancelResultV1::new`, of the canonical result. -/
def canonicalCancel (client : PmClientOrderKey) (venue : PmVenueOrderKey) :
    PmJournalAuthenticatedClassificationV1 → PmJournalCancelResultV1
  | .accepted => ⟨client, venue, .accepted, none⟩
  | .rejected => ⟨client, venue, .rejected, some .authenticatedVenueRejected⟩
  | .definitelyNotDispatched => ⟨client, venue, .rejected,
    some .authenticatedDefinitelyNotDispatched⟩
  | .outOfProfile | .acknowledgementUnknown => ⟨client, venue, .ambiguousTimeout, none⟩

variable (recovered : PmAuthenticatedRecoveredResultV1) (expected : PmAuthenticatedCommitmentV1)

/-- The bridge of a placement, before its shape is checked. -/
def placeBridge (acceptedVenueOrder : Option PmVenueOrderKey) :
    PmJournalAuthenticatedPlaceResultV1 where
  authPreparedSequence := recovered.preparedJournalSequence
  authGrantSequence := recovered.grantJournalSequence
  authResultSequence := recovered.resultJournalSequence
  priorGoalFSequence := recovered.priorGoalFSequence
  instrument := recovered.instrument
  requestCommitment := recovered.requestCommitment.fingerprint
  expectedOrderId := expected.fingerprint
  observedOrderId := recovered.observedPlaceOrderId.map (·.fingerprint)
  classification := recoveredClassification recovered.classification
  canonical := canonicalPlace recovered.clientOrder acceptedVenueOrder
    (recoveredClassification recovered.classification)

/-- The bridge of a cancel, before its shape is checked. -/
def cancelBridge (venue : PmVenueOrderKey) (fixed : PmAuthenticatedCommitmentV1) :
    PmJournalAuthenticatedCancelResultV1 where
  authPreparedSequence := recovered.preparedJournalSequence
  authGrantSequence := recovered.grantJournalSequence
  authResultSequence := recovered.resultJournalSequence
  priorGoalFSequence := recovered.priorGoalFSequence
  instrument := recovered.instrument
  requestCommitment := recovered.requestCommitment.fingerprint
  fixedOrderId := fixed.fingerprint
  observedOrderId := recovered.observedCancelOrderId.map (·.fingerprint)
  classification := recoveredClassification recovered.classification
  canonical := canonicalCancel recovered.clientOrder venue
    (recoveredClassification recovered.classification)

/-- The venue order of an accepted placement. -/
def acceptedVenueOrder : Gating (Option PmVenueOrderKey) :=
  if recoveredClassification recovered.classification = .accepted then do
    let venue ← .okOr .invalidRecoveredResultShape
      (PmJournalRecovery.exactExpectedVenueOrder recovered.clientOrder expected.fingerprint)
    return some venue
  else .ok none

/-- The bridge to append. -/
def bridgeFromRecovered : Gating PmJournalAuthenticatedResultV1 :=
  match recovered.operation.kind with
  | .place => do
    let expected ← .okOr .invalidRecoveredResultShape recovered.expectedPlaceOrderId
    let venue ← acceptedVenueOrder recovered expected
    let bridge := placeBridge recovered expected venue
    .wrapError (fun _ => .invalidRecoveredResultShape) bridge.validateShape
    return .place bridge
  | .cancel => do
    let venue ← .okOr .invalidRecoveredResultShape recovered.exactCancelVenueOrder
    let fixed ← .okOr .invalidRecoveredResultShape recovered.exactCancelOrderId
    let bridge := cancelBridge recovered venue fixed
    .wrapError (fun _ => .invalidRecoveredResultShape) bridge.validateShape
    return .cancel bridge

/-! ### Attempts -/

variable (goalF : PmJournalRecovery)

/-- `recovered_order`, with the abort of a row that cannot be built. -/
def recoveredOrder (client : PmClientOrderKey) : Gating PmJournalRecoveredOrderV1 := do
  let order ← .okOr .missingGoalFIntent goalF.ownedOrders[client]?
  .expect order.bootstrapRow

/-- `has_ordinary_place_result` and `has_ordinary_cancel_result`. -/
def hasOrdinaryResult (client : PmClientOrderKey) (kind : PmAuthenticatedUnresolvedOperationKindV1) :
    Bool :=
  match goalF.ownedOrders[client]? with
  | none => false
  | some order =>
    match kind with
    | .place => order.ordinaryPlaceResultRecorded
    | .cancel => order.ordinaryCancelResultRecorded

/-- What an attempt was made for. -/
structure AttemptPrior where
  kind : PmAuthenticatedUnresolvedOperationKindV1
  clientOrder : PmClientOrderKey
  instrument : PmInstrumentId
  venueOrder : Option PmVenueOrderKey
  priorSequence : UInt64
  deriving DecidableEq

/-- `validate_prior`. -/
def validatePrior (prior : AttemptPrior) : Gating Unit := do
  let order ← recoveredOrder goalF prior.clientOrder
  .refuse (order.intent.instrument ≠ prior.instrument) .attemptScopeMismatch
  .refuse (hasOrdinaryResult goalF prior.clientOrder prior.kind = true)
    .priorAlreadyCompletedByOrdinaryResult
  let valid := match prior.kind with
    | .place => prior.venueOrder.isNone && order.intentJournalSequence == prior.priorSequence
    | .cancel => prior.venueOrder.isSome && order.venueOrder == prior.venueOrder &&
        order.cancelIntentJournalSequence == some prior.priorSequence
  .refuse (valid = false) .priorGoalFSequenceMismatch

/-- The attempt of an operation. -/
def AttemptPrior.ofOperation (operation : PmAuthenticatedOperationKeyV1) (priorSequence : UInt64) :
    AttemptPrior :=
  ⟨operation.kind, operation.coordinator.clientOrder, operation.coordinator.instrument,
    operation.venueOrder, priorSequence⟩

/-- The attempt of an unresolved operation. -/
def PmAuthenticatedUnresolvedOperationV1.prior : PmAuthenticatedUnresolvedOperationV1 → AttemptPrior
  | .place common _ => ⟨.place, common.clientOrder, common.instrument, none, common.priorSequence⟩
  | .cancel common venueOrder _ =>
    ⟨.cancel, common.clientOrder, common.instrument, some venueOrder, common.priorSequence⟩

/-- `prior_operation_key`. -/
def AttemptPrior.key (prior : AttemptPrior) : PmAuthenticatedUnresolvedOperationKindV1 ×
    PmClientOrderKey × UInt64 × Option PmVenueOrderKey :=
  (prior.kind, prior.clientOrder, prior.priorSequence, prior.venueOrder)

/-- The attempts that have been seen, and what they were made for. -/
structure SeenAttempts where
  attempts : List UInt64
  priorOperations : List (PmAuthenticatedUnresolvedOperationKindV1 × PmClientOrderKey × UInt64 ×
    Option PmVenueOrderKey)

/-- An attempt is entered in both sets, where it must be new. -/
def SeenAttempts.register (seen : SeenAttempts) (preparedSequence : UInt64)
    (prior : AttemptPrior) : Gating SeenAttempts := do
  .refuse (preparedSequence ∈ seen.attempts) .duplicateAuthenticatedAttempt
  .refuse (prior.key ∈ seen.priorOperations) .duplicateGoalFPriorAttempt
  return ⟨preparedSequence :: seen.attempts, prior.key :: seen.priorOperations⟩

/-- The first loop of `validate_all_attempt_priors`. -/
def seePrepared (seen : SeenAttempts) (attempt : PmAuthenticatedPreparedWithoutGrantV1) :
    Gating SeenAttempts := do
  let prior := AttemptPrior.ofOperation attempt.operation attempt.priorGoalFSequence
  validatePrior goalF prior
  seen.register attempt.preparedJournalSequence prior

/-- A check that is made only where it applies. -/
def checkWhen (applies : Bool) (check : Gating Unit) : Gating Unit :=
  if applies then check else .ok ()

/-- The second loop of `validate_all_attempt_priors`. -/
def seeResult (bridged : List UInt64) (seen : SeenAttempts)
    (result : PmAuthenticatedRecoveredResultV1) : Gating SeenAttempts := do
  let prior := AttemptPrior.ofOperation result.operation result.priorGoalFSequence
  checkWhen (!decide (result.resultJournalSequence ∈ bridged)) (validatePrior goalF prior)
  seen.register result.preparedJournalSequence prior

/-- The third loop of `validate_all_attempt_priors`. -/
def seeUnresolved (bridged : List UInt64) (seen : SeenAttempts)
    (unresolved : PmAuthenticatedUnresolvedOperationV1) : Gating SeenAttempts := do
  let result := unresolved.common.resultJournalSequence
  checkWhen (!decide (∃ sequence ∈ result, sequence ∈ bridged))
    (validatePrior goalF unresolved.prior)
  if result.isNone then
    seen.register unresolved.common.preparedJournalSequence unresolved.prior
  else .ok seen

/-- Check every attempt. -/
def validateAllAttemptPriors (authenticated : PmAuthenticatedJournalRecovery)
    (bridged : List UInt64) : Gating Unit := do
  let seen ← authenticated.preparedWithoutGrant.foldlM (seePrepared goalF) ⟨[], []⟩
  let seen ← authenticated.classifiedResults.foldlM (seeResult goalF bridged) seen
  let seen ← authenticated.unresolvedOperations.foldlM (seeUnresolved goalF bridged) seen
  .refuse (seen.attempts.length ≠ authenticated.attempts.size) .duplicateAuthenticatedAttempt

/-! ### The gate -/

/-- What the gate reports. -/
structure PmAuthenticatedRecoveryGate where
  missingBridges : List PmAuthenticatedRecoveredResultV1
  requiresReconciliation : Bool

namespace PmAuthenticatedRecoveryGate

variable (authenticated : PmAuthenticatedJournalRecovery)

/-- The result of a sequence number. -/
def resultAt (sequence : UInt64) : Option PmAuthenticatedRecoveredResultV1 :=
  authenticated.classifiedResults.find? (·.resultJournalSequence == sequence)

/-- One round of the loop over the bridges. -/
def seeBridge (bridged : List UInt64)
    (bridge : PmJournalAuthenticatedResultV1) : Gating (List UInt64) := do
  let recovered ← .okOr .extraGoalFBridge (resultAt authenticated bridge.authResultSequence)
  .refuse (bridgeMatchesRecovery bridge recovered = false) .bridgeMismatch
  .refuse (bridge.authResultSequence ∈ bridged) .duplicateGoalFBridge
  return bridge.authResultSequence :: bridged

/-- `validate`. The classified results are in the order of their
sequence numbers already, which are distinct: the map of the source has the same entries in the same
order. -/
def validate (goalF : PmJournalRecovery) (authenticated : PmAuthenticatedJournalRecovery) :
    Gating PmAuthenticatedRecoveryGate := do
  .refuse (goalF.scope.accountScope ≠ authenticated.scope.accountScope ∨
    goalF.scope.instrument ≠ authenticated.scope.instrument ∨
    goalF.scope.configurationFingerprint.bytes ≠
      authenticated.scope.configurationFingerprint.bytes) .scopeMismatch
  let bridged ← goalF.authenticatedResults.valueList.foldlM (seeBridge authenticated) []
  validateAllAttemptPriors goalF authenticated bridged
  return {
    missingBridges := authenticated.classifiedResults.filter
      fun result => decide (result.resultJournalSequence ∉ bridged)
    requiresReconciliation := authenticated.requiresReconciliation ||
      !authenticated.preparedWithoutGrant.isEmpty }

/-- The bridges to append. -/
def missingBridgeRecords (gate : PmAuthenticatedRecoveryGate) :
    Gating (List PmJournalAuthenticatedResultV1) :=
  gate.missingBridges.mapM bridgeFromRecovered

end PmAuthenticatedRecoveryGate

end Reap.Authenticated
