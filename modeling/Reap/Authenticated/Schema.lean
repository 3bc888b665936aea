import Reap.Journal.Schema

/-!
# The records of the authenticated journal

Before a signed request is sent, it is prepared and granted in a journal of its own; after it, the
venue's answer is recorded. A grant names the prepared record by its sequence number, and a result
names the grant. This module has the records and what is checked of one record alone.

The hashes of the scope and of the requests stay abstract (`AuthenticatedDigest`).
-/

namespace Reap.Authenticated

open Base Reap.Core Reap.Journal

/-- At most this many records. -/
def maxPmAuthenticatedJournalRecords : ℕ := 65536

/-- The name of the schema. -/
def pmAuthenticatedJournalFamily : String := "reap-pm-authenticated-mutation-journal"

/-- The version of the schema. -/
def pmAuthenticatedJournalVersion : UInt16 := 1

/-- The version for proxy accounts. -/
def pmT2ProxyAuthenticatedJournalVersion : UInt16 := 2

/-- `MIN_L2_TIMESTAMP`. -/
def minL2Timestamp : UInt64 := 1000000000

/-- `MAX_L2_TIMESTAMP`. -/
def maxL2Timestamp : UInt64 := 9999999999

/-- `PmAuthenticatedJournalSchemaError`, without the errors of the text encoding. -/
inductive PmAuthenticatedJournalSchemaError where
  | wrongScopeDomain
  | productionAuthorityForbidden
  | missingCredentialSlotFingerprint
  | accountIdentityMismatch
  | scopeFingerprintMismatch
  | scopeMismatch
  | recordOutsideScope
  | operationMismatch
  | zeroPriorSequence
  | invalidL2Timestamp
  | fixedOrderIdentityMismatch
  | requestCommitmentMismatch
  | invalidSequenceLink
  | invalidResultShape
  | missingHeader
  | headerAfterStart
  | sequenceExhausted
  deriving DecidableEq, Repr

/-! ### Scope -/

/-- A digest of 32 bytes. -/
structure PmAuthenticatedJournalFingerprintV1 where
  bytes : BitVec 256
  deriving DecidableEq

/-- A digest of a credential. -/
structure PmAuthenticatedCredentialSlotFingerprintV1 where
  bytes : BitVec 256
  deriving DecidableEq

/-- A commitment to bytes. -/
structure PmAuthenticatedCommitmentV1 where
  bytes : BitVec 256
  deriving DecidableEq

/-- `ScopeFingerprintBasisV1` and `ScopeFingerprintBasisV2`: what the fingerprint of a scope is
calculated from. -/
structure AuthenticatedScopeBasis where
  product : String
  schemaFamily : String
  schemaVersion : UInt16
  accountScope : PmAccountScope
  configuredInstrument : PmInstrumentId
  configurationFingerprint : PmAuthenticatedJournalFingerprintV1
  credentialSlotFingerprint : PmAuthenticatedCredentialSlotFingerprintV1
  productionOrderEntryAuthorized : Bool
  accountSignatureProfile : PmAccountSignatureProfile
  deriving DecidableEq

/-- What a journal is for. -/
structure PmAuthenticatedJournalScopeV1 extends AuthenticatedScopeBasis where
  scopeFingerprint : PmAuthenticatedJournalFingerprintV1
  deriving DecidableEq

/-! ### Operations -/

/-- The order of a request. -/
structure PmAuthenticatedCoordinatorIdentityV1 where
  clientOrder : PmClientOrderKey
  instrument : PmInstrumentId
  deriving DecidableEq

/-- What a request is for. -/
inductive PmAuthenticatedOperationKeyV1 where
  | place (coordinator : PmAuthenticatedCoordinatorIdentityV1)
  | cancel (coordinator : PmAuthenticatedCoordinatorIdentityV1) (venueOrder : PmVenueOrderKey)
  deriving DecidableEq

/-- What the request commitment of a placement is calculated from, besides the scope. -/
structure PlaceRequestBasis where
  operation : PmAuthenticatedOperationKeyV1
  priorIntentSequence : UInt64
  semanticRequestCommitment : PmAuthenticatedCommitmentV1
  expectedOrderId : PmAuthenticatedCommitmentV1
  l2TimestampSeconds : UInt64
  deriving DecidableEq

/-- What the request commitment of a cancel is calculated from, besides the scope. -/
structure CancelRequestBasis where
  operation : PmAuthenticatedOperationKeyV1
  priorCancelSequence : UInt64
  semanticRequestCommitment : PmAuthenticatedCommitmentV1
  fixedOrderId : PmAuthenticatedCommitmentV1
  l2TimestampSeconds : UInt64
  deriving DecidableEq

/-- The digests of the authenticated journal. -/
class AuthenticatedDigest where
  /-- The digest of a scope, behind the prefix of its signature profile. -/
  scope : AuthenticatedScopeBasis → PmAuthenticatedJournalFingerprintV1
  /-- The digest of a placement, behind the prefix of the signature profile. -/
  placeRequest : PmAccountSignatureProfile → PmAuthenticatedJournalFingerprintV1 →
    PlaceRequestBasis → PmAuthenticatedCommitmentV1
  /-- The digest of a cancel, behind the prefix of the signature profile. -/
  cancelRequest : PmAccountSignatureProfile → PmAuthenticatedJournalFingerprintV1 →
    CancelRequestBasis → PmAuthenticatedCommitmentV1

namespace PmAuthenticatedJournalScopeV1

variable (scope : PmAuthenticatedJournalScopeV1)

/-- `account`. -/
def account : PmAccountHandle := scope.accountScope.handle

/-- `instrument`. -/
def instrument : PmInstrumentId :=
  scope.configuredInstrument

/-- `fingerprint`. -/
def fingerprint : PmAuthenticatedJournalFingerprintV1 :=
  scope.scopeFingerprint

/-- `validate`. -/
def validate [AuthenticatedDigest] (scope : PmAuthenticatedJournalScopeV1) :
    Except PmAuthenticatedJournalSchemaError Unit := do
  let expectedVersion := match scope.accountSignatureProfile with
    | .eoaType0 => pmAuthenticatedJournalVersion
    | .proxyType1 => pmT2ProxyAuthenticatedJournalVersion
  refuse (scope.product ≠ "reap-pm" ∨ scope.schemaFamily ≠ pmAuthenticatedJournalFamily ∨
    scope.schemaVersion ≠ expectedVersion) .wrongScopeDomain
  refuse (scope.productionOrderEntryAuthorized = true) .productionAuthorityForbidden
  refuse (scope.credentialSlotFingerprint.bytes = 0) .missingCredentialSlotFingerprint
  refuse (scope.accountSignatureProfile.matchesAccountScope scope.accountScope = false)
    .accountIdentityMismatch
  refuse (scope.accountSignatureProfile = .proxyType1 ∧ scope.accountScope.chain.value ≠ 137)
    .accountIdentityMismatch
  refuse (AuthenticatedDigest.scope scope.toAuthenticatedScopeBasis ≠ scope.scopeFingerprint)
    .scopeFingerprintMismatch

end PmAuthenticatedJournalScopeV1

/-- `validate`. -/
def PmAuthenticatedCoordinatorIdentityV1.validate (identity : PmAuthenticatedCoordinatorIdentityV1)
    (scope : PmAuthenticatedJournalScopeV1) : Except PmAuthenticatedJournalSchemaError Unit :=
  refuse (identity.clientOrder.account ≠ scope.account ∨ identity.instrument ≠ scope.instrument)
    .recordOutsideScope

namespace PmAuthenticatedOperationKeyV1

/-- `coordinator`. -/
def coordinator : PmAuthenticatedOperationKeyV1 → PmAuthenticatedCoordinatorIdentityV1
  | place coordinator | cancel coordinator _ => coordinator

/-- The venue order that a cancel names. -/
def venueOrder : PmAuthenticatedOperationKeyV1 → Option PmVenueOrderKey
  | place _ => none
  | cancel _ venueOrder => some venueOrder

/-- `validate`. -/
def validate (operation : PmAuthenticatedOperationKeyV1) (scope : PmAuthenticatedJournalScopeV1) :
    Except PmAuthenticatedJournalSchemaError Unit := do
  operation.coordinator.validate scope
  refuse (∃ order ∈ operation.venueOrder, order.account ≠ scope.account) .recordOutsideScope

end PmAuthenticatedOperationKeyV1

/-! ### Prepared requests -/

/-- A prepared placement. -/
structure PmAuthenticatedPlacePreparedV1 extends PlaceRequestBasis where
  requestCommitment : PmAuthenticatedCommitmentV1
  deriving DecidableEq

/-- A prepared cancel. -/
structure PmAuthenticatedCancelPreparedV1 extends CancelRequestBasis where
  requestCommitment : PmAuthenticatedCommitmentV1
  deriving DecidableEq

/-- Both are in range. -/
def validatePriorAndTimestamp (priorSequence timestampSeconds : UInt64) :
    Except PmAuthenticatedJournalSchemaError Unit := do
  refuse (priorSequence = 0) .zeroPriorSequence
  refuse (¬ (minL2Timestamp ≤ timestampSeconds ∧ timestampSeconds ≤ maxL2Timestamp))
    .invalidL2Timestamp

/-- `decode_prefixed_hex32`, of the text of a venue order. -/
def decodePrefixedHex32 (order : PmVenueOrderKey) : Option PmAuthenticatedCommitmentV1 :=
  (exactOrderBytes order).map .mk

/-- `validate`. -/
def PmAuthenticatedPlacePreparedV1.validate [AuthenticatedDigest]
    (prepared : PmAuthenticatedPlacePreparedV1) (scope : PmAuthenticatedJournalScopeV1) :
    Except PmAuthenticatedJournalSchemaError Unit := do
  prepared.operation.validate scope
  refuse (prepared.operation.venueOrder.isSome = true) .operationMismatch
  validatePriorAndTimestamp prepared.priorIntentSequence prepared.l2TimestampSeconds
  refuse (AuthenticatedDigest.placeRequest scope.accountSignatureProfile scope.fingerprint
    prepared.toPlaceRequestBasis ≠ prepared.requestCommitment) .requestCommitmentMismatch

/-- `validate`. -/
def PmAuthenticatedCancelPreparedV1.validate [AuthenticatedDigest]
    (prepared : PmAuthenticatedCancelPreparedV1) (scope : PmAuthenticatedJournalScopeV1) :
    Except PmAuthenticatedJournalSchemaError Unit := do
  prepared.operation.validate scope
  match prepared.operation with
  | .place _ => .error .operationMismatch
  | .cancel _ venueOrder => do
    validatePriorAndTimestamp prepared.priorCancelSequence prepared.l2TimestampSeconds
    refuse (decodePrefixedHex32 venueOrder ≠ some prepared.fixedOrderId) .fixedOrderIdentityMismatch
    refuse (AuthenticatedDigest.cancelRequest scope.accountSignatureProfile scope.fingerprint
      prepared.toCancelRequestBasis ≠ prepared.requestCommitment) .requestCommitmentMismatch

/-! ### Grants and results -/

/-- The link points back. -/
def validateBackwardLink (prior sequence : UInt64) :
    Except PmAuthenticatedJournalSchemaError Unit :=
  refuse (prior = 0 ∨ sequence ≤ prior) .invalidSequenceLink

/-- The grant to send a prepared request. -/
structure PmAuthenticatedDispatchAuthorizedV1 where
  operation : PmAuthenticatedOperationKeyV1
  preparedSequence : UInt64
  deriving DecidableEq

/-- `validate`. -/
def PmAuthenticatedDispatchAuthorizedV1.validate (grant : PmAuthenticatedDispatchAuthorizedV1)
    (scope : PmAuthenticatedJournalScopeV1) (sequence : UInt64) :
    Except PmAuthenticatedJournalSchemaError Unit := do
  grant.operation.validate scope
  validateBackwardLink grant.preparedSequence sequence

/-- The answer to a placement. -/
inductive PmAuthenticatedPlaceResultKindV1 where
  | accepted
  | rejected
  | definitelyNotDispatched
  | outOfProfile
  | acknowledgementUnknown
  deriving DecidableEq, Repr

/-- The answer to a cancel. -/
inductive PmAuthenticatedCancelResultKindV1 where
  | accepted
  | rejected
  | definitelyNotDispatched
  | outOfProfile
  | acknowledgementUnknown
  deriving DecidableEq, Repr

/-- The result of a placement. -/
structure PmAuthenticatedPlaceResultV1 where
  operation : PmAuthenticatedOperationKeyV1
  grantSequence : UInt64
  outcome : PmAuthenticatedPlaceResultKindV1
  observedOrderId : Option PmAuthenticatedCommitmentV1
  deriving DecidableEq

/-- The observed identity of a placement is there exactly if its outcome says so. -/
def PmAuthenticatedPlaceResultV1.shapeValid (result : PmAuthenticatedPlaceResultV1) : Bool :=
  match result.outcome with
  | .accepted => result.observedOrderId.isSome
  | .rejected | .definitelyNotDispatched => result.observedOrderId.isNone
  | .outOfProfile | .acknowledgementUnknown => true

/-- `validate`. -/
def PmAuthenticatedPlaceResultV1.validate (result : PmAuthenticatedPlaceResultV1)
    (scope : PmAuthenticatedJournalScopeV1) (sequence : UInt64) :
    Except PmAuthenticatedJournalSchemaError Unit := do
  result.operation.validate scope
  refuse (result.operation.venueOrder.isSome = true) .operationMismatch
  validateBackwardLink result.grantSequence sequence
  refuse (result.shapeValid = false) .invalidResultShape

/-- The result of a cancel. -/
structure PmAuthenticatedCancelResultV1 where
  operation : PmAuthenticatedOperationKeyV1
  grantSequence : UInt64
  outcome : PmAuthenticatedCancelResultKindV1
  observedOrderId : Option PmAuthenticatedCommitmentV1
  deriving DecidableEq

/-- The observed identity of a cancel is the one its outcome asks for. -/
def PmAuthenticatedCancelResultV1.shapeValid (result : PmAuthenticatedCancelResultV1)
    (venueOrder : PmVenueOrderKey) : Bool :=
  match result.outcome with
  | .accepted | .rejected => (decodePrefixedHex32 venueOrder).isSome &&
      result.observedOrderId == decodePrefixedHex32 venueOrder
  | .definitelyNotDispatched => result.observedOrderId.isNone
  | .outOfProfile | .acknowledgementUnknown => true

/-- `validate`. -/
def PmAuthenticatedCancelResultV1.validate (result : PmAuthenticatedCancelResultV1)
    (scope : PmAuthenticatedJournalScopeV1) (sequence : UInt64) :
    Except PmAuthenticatedJournalSchemaError Unit := do
  result.operation.validate scope
  match result.operation with
  | .place _ => .error .operationMismatch
  | .cancel _ venueOrder => do
    validateBackwardLink result.grantSequence sequence
    refuse (result.shapeValid venueOrder = false) .invalidResultShape

/-! ### Records -/

/-- A record of the journal. -/
inductive PmAuthenticatedJournalRecordV1 where
  | header (scope : PmAuthenticatedJournalScopeV1)
  | placePrepared (prepared : PmAuthenticatedPlacePreparedV1)
  | cancelPrepared (prepared : PmAuthenticatedCancelPreparedV1)
  | dispatchAuthorized (grant : PmAuthenticatedDispatchAuthorizedV1)
  | placeResult (result : PmAuthenticatedPlaceResultV1)
  | cancelResult (result : PmAuthenticatedCancelResultV1)
  deriving DecidableEq

/-- `validate`. -/
def PmAuthenticatedJournalRecordV1.validate [AuthenticatedDigest]
    (record : PmAuthenticatedJournalRecordV1) (scope : PmAuthenticatedJournalScopeV1)
    (sequence : UInt64) : Except PmAuthenticatedJournalSchemaError Unit :=
  match record with
  | header headerScope => do
    refuse (sequence ≠ 0) .headerAfterStart
    headerScope.validate
    refuse (headerScope ≠ scope) .scopeMismatch
  | placePrepared prepared => do
    refuse (sequence = 0) .missingHeader
    prepared.validate scope
  | cancelPrepared prepared => do
    refuse (sequence = 0) .missingHeader
    prepared.validate scope
  | dispatchAuthorized grant => grant.validate scope sequence
  | placeResult result => result.validate scope sequence
  | cancelResult result => result.validate scope sequence

/-- A line that has been decoded. -/
structure PmAuthenticatedJournalLineV1 where
  schemaVersion : UInt16
  scope : PmAuthenticatedJournalFingerprintV1
  sequence : UInt64
  record : PmAuthenticatedJournalRecordV1
  deriving DecidableEq

end Reap.Authenticated
