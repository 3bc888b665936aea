import Reap.Base.Check
import Reap.Core.Account

/-!
# The mutation journal: its records

Everything that a restart must know about the orders of an account is written to a journal before
it has an effect, one record a line: the intent to quote, what came back of it, cancels, fills and
terminal observations, and how far the fills of the account have been read. This module has the
records and the checks of a single record against the scope that the journal is leased to; what a
sequence of records means is in `Reap.Journal.Recovery`.

A journal is bound to its scope by digests. They are a parameter here, `JournalDigest`: no function
depends on more than that they are functions. The enumerations that mirror one of the core (sides,
roles, signs, settlements, fill keys) are the core's own. The salt of an order, which no function
of recovery reads, is left out, and so are the texts of the lines.
-/

namespace Reap.Journal

open Base Reap.Core

/-! ### Bounds -/

/-- At most this many. -/
def maxPmJournalRecords : ℕ := 262144

/-- At most this many orders. -/
def maxPmJournalOwnedOrders : ℕ := 1024

/-- At most this many fills. -/
def maxPmJournalFillKeys : ℕ := 8192

/-- At most this many legs. -/
def maxPmAcknowledgementFillLegs : ℕ := 64

/-- The name of the schema. -/
def pmMutationJournalFamily : String := "reap-pm-mutation-journal"

/-- The version of the schema. -/
def pmMutationJournalVersion : UInt16 := 1

/-- The version for proxy accounts. -/
def pmT2ProxyMutationJournalVersion : UInt16 := 2

/-! ### Errors -/

/-- `PmJournalSchemaError`, without the errors of the text encoding and of the writer. -/
inductive PmJournalSchemaError where
  | wrongScopeDomain
  | forbiddenLiveAuthority
  | accountIdentityMismatch
  | scopeFingerprintMismatch
  | scopeMismatch
  | recordOutsideScope
  | zeroReservation
  | wrongReservationKind
  | zeroIntentId
  | clientOrderDerivationMismatch
  | unsignedIdentityMismatch
  | unsignedAmountMismatch
  | invalidRevisionOrExpiry
  | tooManyAcknowledgementFills
  | invalidAcknowledgementFills
  | duplicateAcknowledgementFill
  | invalidAcknowledgementFillOwnership
  | invalidPlaceResult
  | invalidCancelResult
  | invalidAuthenticatedSequence
  | invalidAuthenticatedResult
  | invalidAuthenticatedOrderIdentity
  | invalidFillOccurrence
  | invalidFillProgress
  | invalidTerminalProgress
  | headerAfterStart
  | wrongRecordPath
  | sequenceExhausted
  | numeric (error : PmNumericError)
  deriving DecidableEq, Repr

/-! ### The scope -/

/-- 32 bytes. -/
structure PmJournalFingerprintV1 where
  bytes : BitVec 256
  deriving DecidableEq

/-- Who signs for the account. -/
inductive PmAccountSignatureProfile where
  | eoaType0
  | proxyType1
  deriving DecidableEq, Repr

/-- `matches_account_scope`. -/
def PmAccountSignatureProfile.matchesAccountScope (profile : PmAccountSignatureProfile)
    (accountScope : PmAccountScope) : Bool :=
  match profile with
  | .eoaType0 => accountScope.signer == accountScope.funder
  | .proxyType1 => accountScope.signer != accountScope.funder

/-- `ScopeFingerprintBasisV1` and `ScopeFingerprintBasisV2`: what the fingerprint of a scope
covers. The first version leaves the signature profile to the prefix of the digest. -/
structure ScopeFingerprintBasis where
  product : String
  schemaFamily : String
  schemaVersion : UInt16
  accountScope : PmAccountScope
  configuredInstrument : PmInstrumentId
  configurationFingerprint : PmJournalFingerprintV1
  authenticationEnabled : Bool
  productionAuthorized : Bool
  accountSignatureProfile : PmAccountSignatureProfile
  deriving DecidableEq

/-- The exact scope that one journal is leased to. -/
structure PmJournalScopeV1 extends ScopeFingerprintBasis where
  scopeFingerprint : PmJournalFingerprintV1
  deriving DecidableEq

/-- The digests that bind a journal to its scope. -/
class JournalDigest where
  /-- The digest of a scope, behind the prefix of its signature profile. -/
  scope : ScopeFingerprintBasis → PmJournalFingerprintV1
  /-- The first 16 bytes of the digest of a scope's fingerprint and an intent number, behind the
  prefix of the signature profile. -/
  clientOrder : PmAccountSignatureProfile → PmJournalFingerprintV1 → UInt64 → BitVec 128

namespace PmJournalScopeV1

variable (scope : PmJournalScopeV1)

/-- `account`. -/
def account : PmAccountHandle := scope.accountScope.handle

/-- `instrument`. -/
def instrument : PmInstrumentId := scope.configuredInstrument

/-- `fingerprint`. -/
def fingerprint : PmJournalFingerprintV1 := scope.scopeFingerprint

variable [JournalDigest]

/-- `validate`. -/
def validate : Except PmJournalSchemaError Unit := do
  let expectedVersion := match scope.accountSignatureProfile with
    | .eoaType0 => pmMutationJournalVersion
    | .proxyType1 => pmT2ProxyMutationJournalVersion
  refuse (scope.product ≠ "reap-pm" ∨ scope.schemaFamily ≠ pmMutationJournalFamily ∨
    scope.schemaVersion ≠ expectedVersion) .wrongScopeDomain
  refuse (scope.authenticationEnabled = true ∨ scope.productionAuthorized = true)
    .forbiddenLiveAuthority
  refuse (scope.accountSignatureProfile.matchesAccountScope scope.accountScope = false ∨
    (scope.accountSignatureProfile = .proxyType1 ∧ scope.accountScope.chain.value ≠ 137))
    .accountIdentityMismatch
  refuse (JournalDigest.scope scope.toScopeFingerprintBasis ≠ scope.scopeFingerprint)
    .scopeFingerprintMismatch

/-- The client order of a digest: the one digest that is no identity is replaced. -/
def clientOrderOf (digest : BitVec 128) : PmClientOrderId :=
  if h : digest = 0 then PmClientOrderId.one else ⟨digest, h⟩

/-- `derive_pm_journal_client_order`: the one client order of an intent. -/
def clientOrderForIntent (intentId : UInt64) : Except PmJournalSchemaError PmClientOrderKey := do
  refuse (intentId = 0) .zeroIntentId
  return ⟨scope.account, clientOrderOf
    (JournalDigest.clientOrder scope.accountSignatureProfile scope.fingerprint intentId)⟩

end PmJournalScopeV1

/-! ### Quotes -/

/-- How an order is quoted. -/
inductive PmJournalQuoteProfileV1 where
  | passiveGtcPostOnlyEoa
  | passiveGtcPostOnlyProxyType1
  deriving DecidableEq, Repr

/-- An order to be sent. -/
structure PmJournalQuoteIntentV1 where
  intentId : UInt64
  clientOrder : PmClientOrderKey
  instrument : PmInstrumentId
  side : PmOrderSide
  priceUnits : UInt32
  quantity : PmQuantity
  reservedCollateral : U256
  reservedOutcome : U256
  profile : PmJournalQuoteProfileV1
  metadataRevision : UInt64
  bookRevision : UInt64
  modelRevision : UInt64
  bookReadinessRevision : UInt64
  privateReadinessRevision : UInt64
  expiresAtMonotonicNs : UInt64
  timestampMs : UInt64
  maker : EvmAddress
  signer : EvmAddress
  makerAmount : U256
  takerAmount : U256
  deriving DecidableEq

/-- The quote profile that goes with a signature profile. -/
def PmAccountSignatureProfile.quoteProfile : PmAccountSignatureProfile → PmJournalQuoteProfileV1
  | .eoaType0 => .passiveGtcPostOnlyEoa
  | .proxyType1 => .passiveGtcPostOnlyProxyType1

/-- `validate`. -/
def PmJournalQuoteIntentV1.validate [JournalDigest] (intent : PmJournalQuoteIntentV1)
    (scope : PmJournalScopeV1) : Except PmJournalSchemaError Unit := do
  refuse (intent.clientOrder.account ≠ scope.account ∨ intent.instrument ≠ scope.instrument)
    .recordOutsideScope
  refuse (intent.intentId = 0) .zeroIntentId
  let derived ← scope.clientOrderForIntent intent.intentId
  refuse (derived ≠ intent.clientOrder) .clientOrderDerivationMismatch
  let price ← wrapError .numeric (PmPrice.fromUnits intent.priceUnits)
  refuse (intent.reservedCollateral.isZero = true ∧ intent.reservedOutcome.isZero = true)
    .zeroReservation
  let amounts ← wrapError .numeric (exactOrderAmounts intent.side price intent.quantity)
  refuse (intent.makerAmount ≠ amounts.maker ∨ intent.takerAmount ≠ amounts.taker)
    .unsignedAmountMismatch
  let reservationCoversBase := match intent.side with
    | .buy => decide (amounts.maker ≤ intent.reservedCollateral)
    | .sell => decide (intent.quantity.protocolUnits ≤ intent.reservedOutcome)
  refuse (reservationCoversBase = false) .wrongReservationKind
  refuse (intent.maker ≠ scope.accountScope.funder ∨ intent.signer ≠ scope.accountScope.signer ∨
    intent.profile ≠ scope.accountSignatureProfile.quoteProfile) .unsignedIdentityMismatch
  refuse (intent.timestampMs = 0 ∨ intent.metadataRevision = 0 ∨ intent.bookRevision = 0 ∨
    intent.modelRevision = 0 ∨ intent.bookReadinessRevision = 0 ∨
    intent.privateReadinessRevision = 0 ∨ intent.expiresAtMonotonicNs = 0) .invalidRevisionOrExpiry

/-! ### Results of a placement -/

/-- The fills of an acknowledgement. The fixed buffer of 64 optional
keys is the list of its occupied places; a buffer whose count is not the number of these is refused
when it is read, and has no counterpart. -/
structure PmJournalImmediateFillsV1 where
  keys : List PmFillKey
  deriving DecidableEq

/-- `validate`. -/
def PmJournalImmediateFillsV1.validate (fills : PmJournalImmediateFillsV1) :
    Except PmJournalSchemaError Unit := do
  refuse (maxPmAcknowledgementFillLegs < fills.keys.length) .invalidAcknowledgementFills
  refuse (¬ fills.keys.Nodup) .duplicateAcknowledgementFill

/-- How a placement ended. -/
inductive PmJournalPlaceOutcomeV1 where
  | acceptedResting
  | acceptedWithImmediateFill
  | rejected
  | ambiguousTimeout
  | lateAcknowledgement
  deriving DecidableEq, Repr

/-- Why a placement failed. -/
inductive PmJournalPlaceRejectReasonV1 where
  | fixtureRejected
  | postOnlyWouldTake
  | authorityInvalidatedBeforeDispatch
  | authenticatedVenueRejected
  | authenticatedDefinitelyNotDispatched
  deriving DecidableEq, Repr

/-- The answer to a placement. -/
structure PmJournalPlaceResultV1 where
  clientOrder : PmClientOrderKey
  outcome : PmJournalPlaceOutcomeV1
  rejectReason : Option PmJournalPlaceRejectReasonV1
  venueOrder : Option PmVenueOrderKey
  immediateFills : PmJournalImmediateFillsV1
  deriving DecidableEq

/-- The fields of a place result agree with its outcome. -/
def PmJournalPlaceResultV1.fieldsMatch (result : PmJournalPlaceResultV1) : Bool :=
  match result.outcome with
  | .acceptedResting =>
    result.rejectReason.isNone && result.venueOrder.isSome && result.immediateFills.keys.isEmpty
  | .acceptedWithImmediateFill =>
    result.rejectReason.isNone && result.venueOrder.isSome && !result.immediateFills.keys.isEmpty
  | .lateAcknowledgement => result.rejectReason.isNone && result.venueOrder.isSome
  | .rejected =>
    result.rejectReason.isSome && result.venueOrder.isNone && result.immediateFills.keys.isEmpty
  | .ambiguousTimeout =>
    result.rejectReason.isNone && result.venueOrder.isNone && result.immediateFills.keys.isEmpty

/-- `validate`. -/
def PmJournalPlaceResultV1.validate (result : PmJournalPlaceResultV1) (scope : PmJournalScopeV1) :
    Except PmJournalSchemaError Unit := do
  result.immediateFills.validate
  refuse (result.clientOrder.account ≠ scope.account ∨
    ∃ order ∈ result.venueOrder, order.account ≠ scope.account) .recordOutsideScope
  refuse (∃ key ∈ result.immediateFills.keys, key.venueOrder.account ≠ scope.account ∨
    result.venueOrder ≠ some key.venueOrder) .invalidAcknowledgementFillOwnership
  refuse (result.fieldsMatch = false) .invalidPlaceResult

/-! ### Cancels -/

/-- How a cancel ended. -/
inductive PmJournalCancelOutcomeV1 where
  | accepted
  | rejected
  | alreadyFilled
  | ambiguousTimeout
  deriving DecidableEq, Repr

/-- Why a cancel failed. -/
inductive PmJournalCancelRejectReasonV1 where
  | fixtureRejected
  | authenticatedVenueRejected
  | authenticatedDefinitelyNotDispatched
  deriving DecidableEq, Repr

/-- Why it is cancelled. -/
inductive PmJournalCancelReasonV1 where
  | replacement
  | staleReference
  | staleBook
  | safetyHalt
  deriving DecidableEq, Repr

/-- A cancel to be sent. -/
structure PmJournalCancelIntentV1 where
  clientOrder : PmClientOrderKey
  venueOrder : PmVenueOrderKey
  reason : PmJournalCancelReasonV1
  deriving DecidableEq

/-- The answer to a cancel. -/
structure PmJournalCancelResultV1 where
  clientOrder : PmClientOrderKey
  venueOrder : PmVenueOrderKey
  outcome : PmJournalCancelOutcomeV1
  rejectReason : Option PmJournalCancelRejectReasonV1
  deriving DecidableEq

/-- Both of the account. -/
def validateOrderKeys (scope : PmJournalScopeV1) (client : PmClientOrderKey)
    (venue : PmVenueOrderKey) : Except PmJournalSchemaError Unit :=
  refuse (client.account ≠ scope.account ∨ venue.account ≠ scope.account) .recordOutsideScope

/-- `validate`. -/
def PmJournalCancelResultV1.validate (result : PmJournalCancelResultV1)
    (scope : PmJournalScopeV1) : Except PmJournalSchemaError Unit := do
  validateOrderKeys scope result.clientOrder result.venueOrder
  refuse (result.rejectReason.isSome ≠ decide (result.outcome = .rejected)) .invalidCancelResult

/-! ### Fills -/

/-- `PmJournalFillFeeV1`. -/
inductive PmJournalFillFeeV1 where
  | known (asset : PmAssetId) (sign : PmSign) (magnitude : U256)
  | unknown
  | incomplete
  deriving DecidableEq

/-- `validate`. -/
def PmJournalFillFeeV1.validate : PmJournalFillFeeV1 → Except PmJournalSchemaError Unit
  | .known _ sign magnitude => do
    let _ ← wrapError .numeric (PmSignedUnits.fromParts sign magnitude)
  | .unknown | .incomplete => .ok ()

/-- `PmJournalFillV1`. -/
structure PmJournalFillV1 where
  key : PmFillKey
  clientOrder : PmClientOrderKey
  instrument : PmInstrumentId
  side : PmOrderSide
  priceUnits : UInt32
  role : PmFillRole
  settlement : PmFillSettlementStatus
  fee : PmJournalFillFeeV1
  delta : PmQuantity
  authoritativeCumulative : Option U256
  cumulative : U256
  remaining : U256
  deriving DecidableEq

/-- Who reported a fill. -/
inductive PmJournalFillSourceV1 where
  | placeAcknowledgement
  | privateWebsocket
  | restReconciliation
  deriving DecidableEq, Repr

/-- How a fill came. -/
inductive PmJournalFillDeliveryV1 where
  | live
  | replay
  deriving DecidableEq, Repr

/-- Where and when an observation was made. -/
structure PmJournalFillOccurrenceV1 where
  ownerSequence : IngressSequence
  connection : Option PmConnectionId
  connectionEpoch : Option ConnectionEpoch
  ingressSequence : Option IngressSequence
  snapshotRevision : Option SnapshotRevision
  monotonicServiceNs : UInt64
  deriving DecidableEq

variable (occurrence : PmJournalFillOccurrenceV1)

/-- The evidence of an occurrence is what its source has. -/
def PmJournalFillOccurrenceV1.evidenceMatches (source : PmJournalFillSourceV1) : Bool :=
  let connected := occurrence.connection.isSome && occurrence.connectionEpoch.isSome &&
    occurrence.ingressSequence.isSome
  match source with
  | .placeAcknowledgement => occurrence.connection.isNone && occurrence.connectionEpoch.isNone &&
      occurrence.ingressSequence.isNone && occurrence.snapshotRevision.isNone
  | .privateWebsocket => connected
  | .restReconciliation => connected && occurrence.snapshotRevision.isSome

/-- `validate`. -/
def PmJournalFillOccurrenceV1.validate (source : PmJournalFillSourceV1) :
    Except PmJournalSchemaError Unit := do
  refuse (occurrence.ownerSequence.value = 0 ∨ occurrence.monotonicServiceNs = 0 ∨
    (∃ epoch ∈ occurrence.connectionEpoch, epoch.value = 0) ∨
    (∃ sequence ∈ occurrence.ingressSequence, sequence.value = 0) ∨
    ∃ revision ∈ occurrence.snapshotRevision, revision.value = 0) .invalidFillOccurrence
  refuse (occurrence.evidenceMatches source = false) .invalidFillOccurrence

/-- A fill of an order. -/
structure PmJournalFillAppliedV1 where
  fill : PmJournalFillV1
  source : PmJournalFillSourceV1
  occurrence : PmJournalFillOccurrenceV1
  delivery : PmJournalFillDeliveryV1
  deriving DecidableEq

/-- `validate_fill`. -/
def validateFill (scope : PmJournalScopeV1) (fill : PmJournalFillV1) :
    Except PmJournalSchemaError Unit := do
  refuse (fill.clientOrder.account ≠ scope.account ∨ fill.key.venueOrder.account ≠ scope.account ∨
    fill.instrument ≠ scope.instrument) .recordOutsideScope
  let _ ← wrapError .numeric (PmPrice.fromUnits fill.priceUnits)
  fill.fee.validate
  refuse (fill.cumulative < fill.delta.protocolUnits ∨ (∃ reported ∈ fill.authoritativeCumulative,
      reported < fill.delta.protocolUnits ∨ fill.cumulative < reported) ∨
    (fill.cumulative.checkedAdd fill.remaining).toOption = none) .invalidFillProgress

/-! ### Terminal observations -/

/-- How an order ended. -/
inductive PmJournalTerminalStatusV1 where
  | filled
  | cancelled
  | rejected
  | expired
  deriving DecidableEq, Repr

/-- Where progress is seen. -/
inductive PmJournalOrderProgressSourceV1 where
  | privateWebsocket
  | restReconciliation
  deriving DecidableEq, Repr

/-- The source of an order row, as that of a fill. -/
def PmJournalOrderProgressSourceV1.fillSource :
    PmJournalOrderProgressSourceV1 → PmJournalFillSourceV1
  | .privateWebsocket => .privateWebsocket
  | .restReconciliation => .restReconciliation

/-- The end of an order. -/
structure PmJournalOrderTerminalV1 where
  clientOrder : PmClientOrderKey
  venueOrder : PmVenueOrderKey
  status : PmJournalTerminalStatusV1
  cumulative : U256
  remaining : U256
  source : PmJournalOrderProgressSourceV1
  occurrence : PmJournalFillOccurrenceV1
  deriving DecidableEq

/-- The check of a terminal observation. -/
def PmJournalOrderTerminalV1.validate (terminal : PmJournalOrderTerminalV1)
    (scope : PmJournalScopeV1) : Except PmJournalSchemaError Unit := do
  validateOrderKeys scope terminal.clientOrder terminal.venueOrder
  terminal.occurrence.validate terminal.source.fillSource
  let statusMatches := match terminal.status with
    | .filled => terminal.remaining.isZero
    | .rejected => terminal.cumulative.isZero
    | .cancelled | .expired => true
  refuse (statusMatches = false ∨
    (terminal.cumulative.checkedAdd terminal.remaining).toOption = none) .invalidTerminalProgress

/-! ### Safety halts and watermarks -/

/-- Why it was halted. -/
inductive PmJournalSafetyReasonV1 where
  | contractViolation
  | unresolvedOwnership
  | durableWriteFailure
  | queueSaturation
  | staleDependency
  deriving DecidableEq, Repr

/-- Trading was halted. -/
structure PmJournalSafetyHaltV1 where
  account : PmAccountHandle
  reason : PmJournalSafetyReasonV1
  deriving DecidableEq

/-- A place in the fills. -/
structure PmJournalFillCursorV1 where
  accountScope : PmAccountScope
  bytes : PmJournalFingerprintV1
  deriving DecidableEq

/-- Fills up to a cursor. -/
structure PmJournalFillWatermarkV1 where
  cursor : PmJournalFillCursorV1
  deriving DecidableEq

/-! ### Authenticated results -/

/-- How a result is classified. -/
inductive PmJournalAuthenticatedClassificationV1 where
  | accepted
  | rejected
  | definitelyNotDispatched
  | outOfProfile
  | acknowledgementUnknown
  deriving DecidableEq, Repr

/-- The bridge of a placement. -/
structure PmJournalAuthenticatedPlaceResultV1 where
  authPreparedSequence : UInt64
  authGrantSequence : UInt64
  authResultSequence : UInt64
  priorGoalFSequence : UInt64
  instrument : PmInstrumentId
  requestCommitment : PmJournalFingerprintV1
  expectedOrderId : PmJournalFingerprintV1
  observedOrderId : Option PmJournalFingerprintV1
  classification : PmJournalAuthenticatedClassificationV1
  canonical : PmJournalPlaceResultV1
  deriving DecidableEq

/-- The bridge of a cancel. -/
structure PmJournalAuthenticatedCancelResultV1 where
  authPreparedSequence : UInt64
  authGrantSequence : UInt64
  authResultSequence : UInt64
  priorGoalFSequence : UInt64
  instrument : PmInstrumentId
  requestCommitment : PmJournalFingerprintV1
  fixedOrderId : PmJournalFingerprintV1
  observedOrderId : Option PmJournalFingerprintV1
  classification : PmJournalAuthenticatedClassificationV1
  canonical : PmJournalCancelResultV1
  deriving DecidableEq

/-- The bridge of a result. -/
inductive PmJournalAuthenticatedResultV1 where
  | place (result : PmJournalAuthenticatedPlaceResultV1)
  | cancel (result : PmJournalAuthenticatedCancelResultV1)
  deriving DecidableEq

/-- Each after the last. -/
def validateSequenceChain (prepared grant result priorGoalF : UInt64) :
    Except PmJournalSchemaError Unit :=
  refuse (priorGoalF = 0 ∨ prepared = 0 ∨ grant ≤ prepared ∨ result ≤ grant)
    .invalidAuthenticatedSequence

/-- `decode_lower_hex`. -/
def decodeLowerHex (byte : UInt8) : Option ℕ :=
  if 48 ≤ byte ∧ byte ≤ 57 then some (byte.toNat - 48)
  else if 97 ≤ byte ∧ byte ≤ 102 then some (byte.toNat - 97 + 10)
  else none

/-- The number that lowercase hexadecimal digits write, after the digits of `value`. -/
def decodeDigits (value : ℕ) : List UInt8 → Option ℕ
  | [] => some value
  | byte :: rest =>
    match decodeLowerHex byte with
    | none => none
    | some digit => decodeDigits (16 * value + digit) rest

/-- The 32 bytes that an exact venue order identity writes. -/
def exactOrderBytes (order : PmVenueOrderKey) : Option (BitVec 256) :=
  match order.id.text with
  | 48 :: 120 :: digits =>
    if digits.length = 64 then (decodeDigits 0 digits).map (BitVec.ofNat 256) else none
  | _ => none

/-- The digit of a number below 16. -/
def hexDigit (digit : ℕ) : UInt8 :=
  if digit % 16 < 10 then UInt8.ofNat (48 + digit % 16) else UInt8.ofNat (87 + digit % 16)

/-- The last `count` lowercase hexadecimal digits of a number. -/
def encodeDigits (value : ℕ) : ℕ → List UInt8
  | 0 => []
  | count + 1 => hexDigit (value / 16 ^ count) :: encodeDigits value count

/-- `rejected_place`. -/
def rejectedPlace (canonical : PmJournalPlaceResultV1) (expected : PmJournalPlaceRejectReasonV1) :
    Bool :=
  canonical.outcome == .rejected && canonical.rejectReason == some expected &&
    canonical.venueOrder.isNone

/-- `rejected_cancel`. -/
def rejectedCancel (canonical : PmJournalCancelResultV1)
    (expected : PmJournalCancelRejectReasonV1) : Bool :=
  canonical.outcome == .rejected && canonical.rejectReason == some expected

/-- The canonical result of a placement is the one that its classification stands for. -/
def PmJournalAuthenticatedPlaceResultV1.classified (result : PmJournalAuthenticatedPlaceResultV1) :
    Bool :=
  match result.classification with
  | .accepted => result.canonical.outcome == .acceptedResting &&
      result.canonical.rejectReason.isNone &&
      result.observedOrderId == some result.expectedOrderId &&
      result.canonical.venueOrder.bind exactOrderBytes == some result.expectedOrderId.bytes
  | .rejected => rejectedPlace result.canonical .authenticatedVenueRejected &&
      result.observedOrderId.isNone
  | .definitelyNotDispatched =>
      rejectedPlace result.canonical .authenticatedDefinitelyNotDispatched &&
      result.observedOrderId.isNone
  | .outOfProfile | .acknowledgementUnknown => result.canonical.outcome == .ambiguousTimeout &&
      result.canonical.rejectReason.isNone && result.canonical.venueOrder.isNone

/-- `validate_shape`. -/
def PmJournalAuthenticatedPlaceResultV1.validateShape
    (result : PmJournalAuthenticatedPlaceResultV1) : Except PmJournalSchemaError Unit := do
  validateSequenceChain result.authPreparedSequence result.authGrantSequence
    result.authResultSequence result.priorGoalFSequence
  refuse (result.classified = false ∨ result.canonical.immediateFills.keys ≠ [])
    .invalidAuthenticatedResult

/-- `validate`. -/
def PmJournalAuthenticatedPlaceResultV1.validate (result : PmJournalAuthenticatedPlaceResultV1)
    (scope : PmJournalScopeV1) : Except PmJournalSchemaError Unit := do
  result.canonical.validate scope
  refuse (result.instrument ≠ scope.instrument) .recordOutsideScope
  result.validateShape

section

variable (result : PmJournalAuthenticatedCancelResultV1) (scope : PmJournalScopeV1)

/-- The canonical result of a cancel is the one that its classification stands for. -/
def PmJournalAuthenticatedCancelResultV1.classified : Bool :=
  match result.classification with
  | .accepted => result.canonical.outcome == .accepted && result.canonical.rejectReason.isNone &&
      result.observedOrderId == some result.fixedOrderId
  | .rejected => rejectedCancel result.canonical .authenticatedVenueRejected &&
      result.observedOrderId == some result.fixedOrderId
  | .definitelyNotDispatched =>
      rejectedCancel result.canonical .authenticatedDefinitelyNotDispatched &&
      result.observedOrderId.isNone
  | .outOfProfile | .acknowledgementUnknown => result.canonical.outcome == .ambiguousTimeout &&
      result.canonical.rejectReason.isNone

/-- `validate_shape`. -/
def PmJournalAuthenticatedCancelResultV1.validateShape : Except PmJournalSchemaError Unit := do
  validateSequenceChain result.authPreparedSequence result.authGrantSequence
    result.authResultSequence result.priorGoalFSequence
  refuse (exactOrderBytes result.canonical.venueOrder ≠ some result.fixedOrderId.bytes)
    .invalidAuthenticatedOrderIdentity
  refuse (result.classified = false) .invalidAuthenticatedResult

/-- `validate`. -/
def PmJournalAuthenticatedCancelResultV1.validate : Except PmJournalSchemaError Unit := do
  result.canonical.validate scope
  refuse (result.instrument ≠ scope.instrument) .recordOutsideScope
  result.validateShape

end

namespace PmJournalAuthenticatedResultV1

/-- `auth_result_sequence`. -/
def authResultSequence : PmJournalAuthenticatedResultV1 → UInt64
  | place result => result.authResultSequence
  | cancel result => result.authResultSequence

/-- `prior_goal_f_sequence`. -/
def priorGoalFSequence : PmJournalAuthenticatedResultV1 → UInt64
  | place result => result.priorGoalFSequence
  | cancel result => result.priorGoalFSequence

/-- `validate`. -/
def validate (result : PmJournalAuthenticatedResultV1) (scope : PmJournalScopeV1) :
    Except PmJournalSchemaError Unit :=
  match result with
  | place result => result.validate scope
  | cancel result => result.validate scope

end PmJournalAuthenticatedResultV1

/-! ### Records -/

/-- `PmJournalRecordV1`. -/
inductive PmJournalRecordV1 where
  | header (scope : PmJournalScopeV1)
  | quoteIntent (intent : PmJournalQuoteIntentV1)
  | placeResult (result : PmJournalPlaceResultV1)
  | cancelIntent (intent : PmJournalCancelIntentV1)
  | cancelResult (result : PmJournalCancelResultV1)
  | fillApplied (applied : PmJournalFillAppliedV1)
  | orderTerminal (terminal : PmJournalOrderTerminalV1)
  | safetyHalt (halt : PmJournalSafetyHaltV1)
  | fillWatermarkAdvanced (watermark : PmJournalFillWatermarkV1)
  | authenticatedResult (result : PmJournalAuthenticatedResultV1)
  deriving DecidableEq

/-- `validate`. -/
def PmJournalRecordV1.validate [JournalDigest] (record : PmJournalRecordV1)
    (scope : PmJournalScopeV1) : Except PmJournalSchemaError Unit :=
  match record with
  | header headerScope => do
    headerScope.validate
    refuse (headerScope ≠ scope) .scopeMismatch
  | quoteIntent intent => intent.validate scope
  | placeResult result => result.validate scope
  | cancelIntent intent => validateOrderKeys scope intent.clientOrder intent.venueOrder
  | cancelResult result => result.validate scope
  | fillApplied applied => do
    validateFill scope applied.fill
    applied.occurrence.validate applied.source
  | orderTerminal terminal => terminal.validate scope
  | safetyHalt halt => refuse (halt.account ≠ scope.account) .recordOutsideScope
  | fillWatermarkAdvanced watermark =>
    refuse (watermark.cursor.accountScope ≠ scope.accountScope) .recordOutsideScope
  | authenticatedResult result => result.validate scope

end Reap.Journal
