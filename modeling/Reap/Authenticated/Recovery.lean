import Reap.Base.Journal
import Reap.Base.OrderedMap
import Reap.Authenticated.Schema

/-!
# Recovery of the authenticated journal

Every prepared request is an attempt, kept under the sequence number of its record; a second map
leads from a grant to its attempt. At the end three lists are read off the attempts: those without a
grant, those with a result, and those that may have been sent and are not concluded.

The `expect` and the `unreachable!` of the source abort here too (`Outcome.panic`). The lines come
decoded, without the caps of the source on the bytes of a line and of the file.
-/

namespace Reap.Authenticated

open Base Reap.Core

/-- `PmAuthenticatedJournalRecoveryError`, without the errors of the file and the text encoding. -/
inductive PmAuthenticatedJournalRecoveryError where
  | schema (error : PmAuthenticatedJournalSchemaError)
  | tooManyRecords
  | missingHeader
  | duplicateHeader
  | scopeMismatch
  | nonContiguousSequence (expected actual : UInt64)
  | duplicatePreparedRequest
  | unknownPreparedRequest
  | invalidAuthorizationTransition
  | unknownAuthorization
  | resultOperationMismatch
  | duplicateResult
  | acceptedOrderIdentityMismatch
  deriving DecidableEq, Repr

/-- A step of recovery. -/
abbrev Recovering := Outcome PmAuthenticatedJournalRecoveryError

/-! ### Attempts -/

/-- How a result is classified. -/
inductive PmAuthenticatedRecoveredResultClassificationV1 where
  | place (kind : PmAuthenticatedPlaceResultKindV1)
  | cancel (kind : PmAuthenticatedCancelResultKindV1)
  deriving DecidableEq, Repr

/-- `requires_reconciliation`, of a classification. -/
def PmAuthenticatedRecoveredResultClassificationV1.requiresReconciliation :
    PmAuthenticatedRecoveredResultClassificationV1 → Bool
  | .place .acknowledgementUnknown | .place .outOfProfile
  | .cancel .acknowledgementUnknown | .cancel .outOfProfile => true
  | _ => false

/-- `RecoveredResult`. -/
structure RecoveredResult where
  classification : PmAuthenticatedRecoveredResultClassificationV1
  journalSequence : UInt64
  observedOrderId : Option PmAuthenticatedCommitmentV1
  deriving DecidableEq

/-- Which order it is about. -/
inductive RecoveredOrderIdentity where
  | place (expectedOrderId : PmAuthenticatedCommitmentV1)
  | cancel (exactOrderId : PmAuthenticatedCommitmentV1)
  deriving DecidableEq

/-- The identity, whatever it is of. -/
def RecoveredOrderIdentity.orderId : RecoveredOrderIdentity → PmAuthenticatedCommitmentV1
  | place id | cancel id => id

/-- `RecoveredAttempt`. -/
structure RecoveredAttempt where
  operation : PmAuthenticatedOperationKeyV1
  priorSequence : UInt64
  requestCommitment : PmAuthenticatedCommitmentV1
  orderIdentity : RecoveredOrderIdentity
  preparedSequence : UInt64
  grantSequence : Option UInt64
  result : Option RecoveredResult
  deriving DecidableEq

section

variable (attempt : RecoveredAttempt)

/-- What a placement expects. -/
def RecoveredAttempt.expectedPlaceOrderId : Option PmAuthenticatedCommitmentV1 :=
  match attempt.orderIdentity with
  | .place expectedOrderId => some expectedOrderId
  | .cancel _ => none

/-! ### Projections -/

/-- A classified result. -/
structure PmAuthenticatedRecoveredResultV1 where
  operation : PmAuthenticatedOperationKeyV1
  priorGoalFSequence : UInt64
  preparedJournalSequence : UInt64
  grantJournalSequence : UInt64
  resultJournalSequence : UInt64
  requestCommitment : PmAuthenticatedCommitmentV1
  expectedOrExactOrderId : PmAuthenticatedCommitmentV1
  observedOrderId : Option PmAuthenticatedCommitmentV1
  classification : PmAuthenticatedRecoveredResultClassificationV1
  deriving DecidableEq

/-- A request that was never granted. -/
structure PmAuthenticatedPreparedWithoutGrantV1 where
  operation : PmAuthenticatedOperationKeyV1
  priorGoalFSequence : UInt64
  preparedJournalSequence : UInt64
  requestCommitment : PmAuthenticatedCommitmentV1
  expectedOrExactOrderId : PmAuthenticatedCommitmentV1
  deriving DecidableEq

/-- Why an attempt is open. -/
inductive PmAuthenticatedUnresolvedReasonV1 where
  | grantTail
  | acknowledgementUnknown
  | outOfProfile
  deriving DecidableEq, Repr

/-- What the two kinds of unresolved operations share. -/
structure UnresolvedCommon where
  clientOrder : PmClientOrderKey
  instrument : PmInstrumentId
  priorSequence : UInt64
  preparedJournalSequence : UInt64
  grantJournalSequence : UInt64
  resultJournalSequence : Option UInt64
  reason : PmAuthenticatedUnresolvedReasonV1
  requestCommitment : PmAuthenticatedCommitmentV1
  deriving DecidableEq

/-- An attempt that is open. -/
inductive PmAuthenticatedUnresolvedOperationV1 where
  | place (common : UnresolvedCommon) (expectedOrderId : PmAuthenticatedCommitmentV1)
  | cancel (common : UnresolvedCommon) (venueOrder : PmVenueOrderKey)
      (exactOrderId : PmAuthenticatedCommitmentV1)
  deriving DecidableEq

/-- The shared part of an unresolved operation. -/
def PmAuthenticatedUnresolvedOperationV1.common :
    PmAuthenticatedUnresolvedOperationV1 → UnresolvedCommon
  | place common _ | cancel common _ _ => common

/-- The request of an attempt. -/
def projectPreparedWithoutGrant : PmAuthenticatedPreparedWithoutGrantV1 :=
  ⟨attempt.operation, attempt.priorSequence, attempt.preparedSequence, attempt.requestCommitment,
    attempt.orderIdentity.orderId⟩

/-- The result of an attempt. -/
def projectClassifiedResult : Option PmAuthenticatedRecoveredResultV1 := do
  let grantJournalSequence ← attempt.grantSequence
  let result ← attempt.result
  return {
    operation := attempt.operation
    priorGoalFSequence := attempt.priorSequence
    preparedJournalSequence := attempt.preparedSequence
    grantJournalSequence := grantJournalSequence
    resultJournalSequence := result.journalSequence
    requestCommitment := attempt.requestCommitment
    expectedOrExactOrderId := attempt.orderIdentity.orderId
    observedOrderId := result.observedOrderId
    classification := result.classification }

/-- Why a granted attempt is unresolved, and the record of its result; nothing for a conclusive
result. -/
def unresolvedReason (result : Option RecoveredResult) :
    Option (Option UInt64 × PmAuthenticatedUnresolvedReasonV1) :=
  match result with
  | none => some (none, .grantTail)
  | some result =>
    match result.classification with
    | .place .acknowledgementUnknown | .cancel .acknowledgementUnknown =>
      some (some result.journalSequence, .acknowledgementUnknown)
    | .place .outOfProfile | .cancel .outOfProfile =>
      some (some result.journalSequence, .outOfProfile)
    | _ => none

/-- The attempt, if it is open. -/
def projectUnresolvedAttempt : Recovering (Option PmAuthenticatedUnresolvedOperationV1) :=
  match attempt.grantSequence with
  | none => .ok none
  | some grantJournalSequence =>
  match unresolvedReason attempt.result with
  | none => .ok none
  | some (resultJournalSequence, reason) =>
  let coordinator := attempt.operation.coordinator
  let common : UnresolvedCommon := {
    clientOrder := coordinator.clientOrder
    instrument := coordinator.instrument
    priorSequence := attempt.priorSequence
    preparedJournalSequence := attempt.preparedSequence
    grantJournalSequence := grantJournalSequence
    resultJournalSequence := resultJournalSequence
    reason := reason
    requestCommitment := attempt.requestCommitment }
  match attempt.operation, attempt.orderIdentity with
  | .place _, .place expectedOrderId => .ok (some (.place common expectedOrderId))
  | .cancel _ venueOrder, .cancel exactOrderId => .ok (some (.cancel common venueOrder exactOrderId))
  | _, _ => .panic

/-! ### Records -/

/-- The recovered attempts. -/
structure PmAuthenticatedJournalRecovery where
  scope : PmAuthenticatedJournalScopeV1
  recordCount : ℕ
  lastSequence : UInt64
  attempts : OrderedMap UInt64 RecoveredAttempt
  grants : OrderedMap UInt64 UInt64
  preparedWithoutGrant : List PmAuthenticatedPreparedWithoutGrantV1
  classifiedResults : List PmAuthenticatedRecoveredResultV1
  unresolvedOperations : List PmAuthenticatedUnresolvedOperationV1

end

namespace PmAuthenticatedJournalRecovery

variable (s : PmAuthenticatedJournalRecovery) (sequence : UInt64)

/-- `empty`. -/
def empty (scope : PmAuthenticatedJournalScopeV1) : PmAuthenticatedJournalRecovery where
  scope := scope
  recordCount := 0
  lastSequence := 0
  attempts := ∅
  grants := ∅
  preparedWithoutGrant := []
  classifiedResults := []
  unresolvedOperations := []

/-- `insert_prepared`. -/
def insertPrepared (attempt : RecoveredAttempt) : Recovering PmAuthenticatedJournalRecovery := do
  .refuse (s.attempts.valueList.any (fun prior => prior.operation = attempt.operation ∧
    prior.priorSequence = attempt.priorSequence) = true) .duplicatePreparedRequest
  return { s with attempts := s.attempts.insert attempt.preparedSequence attempt }

/-- A placement is prepared. -/
def applyPlacePrepared
    (prepared : PmAuthenticatedPlacePreparedV1) : Recovering PmAuthenticatedJournalRecovery :=
  s.insertPrepared {
    operation := prepared.operation
    priorSequence := prepared.priorIntentSequence
    requestCommitment := prepared.requestCommitment
    orderIdentity := .place prepared.expectedOrderId
    preparedSequence := sequence
    grantSequence := none
    result := none }

/-- A cancel is prepared. -/
def applyCancelPrepared
    (prepared : PmAuthenticatedCancelPreparedV1) : Recovering PmAuthenticatedJournalRecovery :=
  s.insertPrepared {
    operation := prepared.operation
    priorSequence := prepared.priorCancelSequence
    requestCommitment := prepared.requestCommitment
    orderIdentity := .cancel prepared.fixedOrderId
    preparedSequence := sequence
    grantSequence := none
    result := none }

/-- The arm of `apply_record` for a grant. -/
def applyGrant (grant : PmAuthenticatedDispatchAuthorizedV1) :
    Recovering PmAuthenticatedJournalRecovery := do
  let attempt ← .okOr .unknownPreparedRequest s.attempts[grant.preparedSequence]?
  .refuse (attempt.operation ≠ grant.operation ∨ attempt.grantSequence.isSome = true)
    .invalidAuthorizationTransition
  return { s with
    attempts := s.attempts.insert grant.preparedSequence
      { attempt with grantSequence := some sequence }
    grants := s.grants.insert sequence grant.preparedSequence }

/-- The attempt of a grant, with the key it is kept under. -/
def attemptForResult (grantSequence : UInt64)
    (operation : PmAuthenticatedOperationKeyV1) : Recovering (UInt64 × RecoveredAttempt) := do
  let preparedSequence ← .okOr .unknownAuthorization s.grants[grantSequence]?
  let attempt ← .expect s.attempts[preparedSequence]?
  .refuse (attempt.operation ≠ operation ∨ attempt.grantSequence ≠ some grantSequence)
    .resultOperationMismatch
  .refuse (attempt.result.isSome = true) .duplicateResult
  return (preparedSequence, attempt)

/-- The attempt has its result. -/
def setResult (key : UInt64)
    (attempt : RecoveredAttempt) (result : RecoveredResult) : PmAuthenticatedJournalRecovery :=
  { s with
    attempts := s.attempts.insert key { attempt with result := some result } }

/-- The arm of `apply_record` for the result of a placement. -/
def applyPlaceResult
    (result : PmAuthenticatedPlaceResultV1) : Recovering PmAuthenticatedJournalRecovery := do
  let (key, attempt) ← s.attemptForResult result.grantSequence result.operation
  .refuse (attempt.operation.venueOrder.isSome = true) .resultOperationMismatch
  .refuse (result.outcome = .accepted ∧ result.observedOrderId ≠ attempt.expectedPlaceOrderId)
    .acceptedOrderIdentityMismatch
  return s.setResult key attempt ⟨.place result.outcome, sequence, result.observedOrderId⟩

/-- The arm of `apply_record` for the result of a cancel. -/
def applyCancelResult
    (result : PmAuthenticatedCancelResultV1) : Recovering PmAuthenticatedJournalRecovery := do
  let (key, attempt) ← s.attemptForResult result.grantSequence result.operation
  .refuse (attempt.operation.venueOrder.isNone = true) .resultOperationMismatch
  return s.setResult key attempt ⟨.cancel result.outcome, sequence, result.observedOrderId⟩

/-- `apply_record`. -/
def applyRecord [AuthenticatedDigest] (s : PmAuthenticatedJournalRecovery)
    (record : PmAuthenticatedJournalRecordV1) (sequence : UInt64) :
    Recovering PmAuthenticatedJournalRecovery := do
  .wrapError .schema (record.validate s.scope sequence)
  if sequence = 0 then
    match record with
    | .header scope => do
      .refuse (scope ≠ s.scope) .scopeMismatch
      return s
    | _ => .err .missingHeader
  else
  match record with
  | .header _ => .err .duplicateHeader
  | .placePrepared prepared => s.applyPlacePrepared sequence prepared
  | .cancelPrepared prepared => s.applyCancelPrepared sequence prepared
  | .dispatchAuthorized grant => s.applyGrant sequence grant
  | .placeResult result => s.applyPlaceResult sequence result
  | .cancelResult result => s.applyCancelResult sequence result

/-- `rebuild_projections`. The keys of each list are distinct, so that the order of the unstable
sort is the order of the keys. -/
def rebuildProjections : Recovering PmAuthenticatedJournalRecovery := do
  let attempts := s.attempts.valueList
  let preparedWithoutGrant :=
    (attempts.filter (·.grantSequence.isNone)).map projectPreparedWithoutGrant
  let classifiedResults := attempts.filterMap projectClassifiedResult
  let unresolved ← attempts.mapM projectUnresolvedAttempt
  return { s with
    preparedWithoutGrant := preparedWithoutGrant.mergeSort
      (·.preparedJournalSequence ≤ ·.preparedJournalSequence)
    classifiedResults := classifiedResults.mergeSort
      (·.resultJournalSequence ≤ ·.resultJournalSequence)
    unresolvedOperations := (unresolved.filterMap id).mergeSort
      (·.common.grantJournalSequence ≤ ·.common.grantJournalSequence) }

/-- The recovery after a line, with the line counted. -/
def counted : PmAuthenticatedJournalRecovery :=
  { s with recordCount := s.recordCount + 1, lastSequence := sequence }

/-- An attempt is open. -/
def requiresReconciliation : Bool :=
  !s.unresolvedOperations.isEmpty

end PmAuthenticatedJournalRecovery

/-! ### A whole journal -/

variable [AuthenticatedDigest] (s : PmAuthenticatedJournalRecovery)

/-- What `recover_lines` checks of a line before its record. -/
def checkLine (expected : UInt64) (line : PmAuthenticatedJournalLineV1) : Recovering Unit := do
  .refuse (s.recordCount = maxPmAuthenticatedJournalRecords) .tooManyRecords
  .refuse (line.schemaVersion ≠ s.scope.schemaVersion) .scopeMismatch
  .refuse (line.scope ≠ s.scope.fingerprint) .scopeMismatch
  .refuse (line.sequence ≠ expected) (.nonContiguousSequence expected line.sequence)

/-- A record is applied, and its line counted. -/
def applyCounted (record : PmAuthenticatedJournalRecordV1) (sequence : UInt64) :
    Recovering PmAuthenticatedJournalRecovery := do
  let applied ← s.applyRecord record sequence
  return applied.counted sequence

/-- The lines of a journal from a position on, as `recover_lines` reads them. -/
def recoverFrom : PmAuthenticatedJournalRecovery → UInt64 → List PmAuthenticatedJournalLineV1 →
    Recovering PmAuthenticatedJournalRecovery :=
  readLines applyCounted (·.record) checkLine fun sequence =>
    .wrapError .schema (nextSequence .sequenceExhausted sequence)

/-- `recover_lines`, on the decoded lines. -/
def recoverLines (lines : List PmAuthenticatedJournalLineV1)
    (scope : PmAuthenticatedJournalScopeV1) : Recovering PmAuthenticatedJournalRecovery := do
  let s ← recoverFrom (.empty scope) 0 lines
  .refuse (s.recordCount = 0) .missingHeader
  s.rebuildProjections

end Reap.Authenticated
