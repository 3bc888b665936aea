import Reap.Core.Market

/-!
# The metadata contract of a book

A book is built for one market under a fixed contract: its protocol, its units, its domain and
the market's metadata. Metadata that arrive later are compared with the contract, field by
field, and the first field that differs is the reason why the book is not available.
-/

namespace Reap.Book

open Reap.Core

/-- A nonzero digest. -/
structure PmMetadataFingerprint where
  bytes : BitVec 256
  ne_zero : bytes ≠ 0
  deriving DecidableEq

/-- A nonzero digest. -/
structure PmDomainFingerprint where
  bytes : BitVec 256
  ne_zero : bytes ≠ 0
  deriving DecidableEq

/-- `PmProtocolProfile`. -/
inductive PmProtocolProfile where
  | clobV2
  | unsupported (code : UInt16)
  deriving DecidableEq

/-- `PmUnitContract`. -/
structure PmUnitContract where
  priceUnitsPerOne : UInt32
  quantityUnitsPerOne : UInt32
  collateralUnitsPerOne : UInt32
  lotUnits : UInt32
  positive : priceUnitsPerOne ≠ 0 ∧ quantityUnitsPerOne ≠ 0 ∧ collateralUnitsPerOne ≠ 0 ∧
    lotUnits ≠ 0
  deriving DecidableEq

/-- `goal_f_clob_v2`. -/
def PmUnitContract.goalFClobV2 : PmUnitContract where
  priceUnitsPerOne := pmProtocolScale
  quantityUnitsPerOne := pmProtocolScale
  collateralUnitsPerOne := pmProtocolScale
  lotUnits := clobV2LotUnits
  positive := by decide

/-- `PmMetadataContract`. -/
structure PmMetadataContract where
  market : PmMarketMetadata
  protocol : PmProtocolProfile
  units : PmUnitContract
  domain : PmDomainFingerprint
  deriving DecidableEq

/-- Metadata as they arrive. -/
structure PmMetadataObservation where
  instrument : PmInstrumentHandle
  revision : SnapshotRevision
  fingerprint : PmMetadataFingerprint
  contract : PmMetadataContract
  monotonicReceiveNs : UInt64
  revision_ne_zero : revision.value ≠ 0
  receive_ne_zero : monotonicReceiveNs ≠ 0

/-- `PmBookFreshness`. -/
structure PmBookFreshness where
  metadataMaxAgeNs : UInt64
  bookMaxAgeNs : UInt64
  positive : metadataMaxAgeNs ≠ 0 ∧ bookMaxAgeNs ≠ 0
  deriving DecidableEq

/-! ### Why a book is not available -/

/-- `PmMetadataDrift`. -/
inductive PmMetadataDrift where
  | instrument
  | identity
  | outcomeLabel
  | protocol
  | units
  | lot
  | grid
  | minimum
  | negativeRisk
  | domain
  | requiredSpenders
  deriving DecidableEq, Repr

/-- Why a book is not ready. -/
inductive PmPublicReadinessReason where
  | metadataMissing
  | metadataFingerprintMismatch
  | metadataRevisionNotIncreasing
  | metadataDrift (drift : PmMetadataDrift)
  | marketInactive
  | marketClosed
  | marketArchived
  | ordersNotAccepted
  | orderBookDisabled
  | connectionUnavailable
  | snapshotMissing
  | connectionEpochInvalid
  | connectionEpochMismatch
  | metadataRevisionMismatch
  | snapshotRevisionMismatch
  | duplicateIngress
  | reorderedIngress
  | tooManyLevels
  | deleteInSnapshot
  | duplicateLevel
  | priceOffTick
  | emptyBook
  | crossedBook
  | missingDeleteLevel
  | bboMismatch
  | hashMismatch
  | disconnected
  | heartbeatTimeout
  | gap
  | overflow
  | pendingOverflow
  | pendingBookStale
  | invalidTransition
  | metadataStale
  | bookStale
  | clockRegression
  deriving DecidableEq, Repr

/-- `PmBookReadiness`. -/
structure PmBookReadiness where
  reason : Option PmPublicReadinessReason
  metadataRevision : Option SnapshotRevision
  snapshotRevision : Option SnapshotRevision
  deriving DecidableEq

namespace PmBookReadiness

/-- `unavailable`. -/
def unavailable (reason : PmPublicReadinessReason)
    (metadataRevision snapshotRevision : Option SnapshotRevision) : PmBookReadiness :=
  ⟨some reason, metadataRevision, snapshotRevision⟩

/-- `ready`. -/
def ready (metadataRevision snapshotRevision : SnapshotRevision) : PmBookReadiness :=
  ⟨none, some metadataRevision, some snapshotRevision⟩

/-- `is_ready`. -/
def isReady (readiness : PmBookReadiness) : Bool := readiness.reason.isNone

end PmBookReadiness

/-! ### The checks of the contract -/

/-- `validate_lifecycle`. -/
def validateLifecycle (metadata : PmMarketMetadata) : Except PmPublicReadinessReason Unit :=
  if metadata.lifecycle.active = false then .error .marketInactive
  else if metadata.lifecycle.closed = true then .error .marketClosed
  else if metadata.lifecycle.archived = true then .error .marketArchived
  else if metadata.lifecycle.acceptingOrders = false then .error .ordersNotAccepted
  else if metadata.lifecycle.orderBookEnabled = false then .error .orderBookDisabled
  else .ok ()

/-- A contract to expect. -/
def validateExpectedContract (contract : PmMetadataContract) :
    Except PmPublicReadinessReason Unit :=
  let expected := PmUnitContract.goalFClobV2
  if contract.protocol ≠ .clobV2 then .error (.metadataDrift .protocol)
  else if contract.units.lotUnits ≠ expected.lotUnits then .error (.metadataDrift .lot)
  else if contract.units.priceUnitsPerOne ≠ pmProtocolScale ∨
      contract.units.quantityUnitsPerOne ≠ expected.quantityUnitsPerOne ∨
      contract.units.collateralUnitsPerOne ≠ expected.collateralUnitsPerOne then
    .error (.metadataDrift .units)
  else validateLifecycle contract.market

/-- The contract is as expected. -/
def validateObservedContract (expected actual : PmMetadataContract) :
    Except PmPublicReadinessReason Unit :=
  if actual.protocol ≠ expected.protocol then .error (.metadataDrift .protocol)
  else if actual.units.lotUnits ≠ expected.units.lotUnits then .error (.metadataDrift .lot)
  else if actual.units.priceUnitsPerOne ≠ expected.units.priceUnitsPerOne ∨
      actual.units.quantityUnitsPerOne ≠ expected.units.quantityUnitsPerOne ∨
      actual.units.collateralUnitsPerOne ≠ expected.units.collateralUnitsPerOne then
    .error (.metadataDrift .units)
  else if actual.market.condition ≠ expected.market.condition ∨
      actual.market.market ≠ expected.market.market ∨
      actual.market.outcome.token ≠ expected.market.outcome.token then
    .error (.metadataDrift .identity)
  else if actual.market.outcome.label ≠ expected.market.outcome.label then
    .error (.metadataDrift .outcomeLabel)
  else
  match validateLifecycle actual.market with
  | .error reason => .error reason
  | .ok () =>
  if actual.market.tick ≠ expected.market.tick then .error (.metadataDrift .grid)
  else if actual.market.minimumOrderSize ≠ expected.market.minimumOrderSize then
    .error (.metadataDrift .minimum)
  else if actual.market.negativeRisk ≠ expected.market.negativeRisk then
    .error (.metadataDrift .negativeRisk)
  else if actual.domain ≠ expected.domain ∨ actual.market.chain ≠ expected.market.chain ∨
      actual.market.exchange ≠ expected.market.exchange then
    .error (.metadataDrift .domain)
  else if actual.market.requiredSpenders ≠ expected.market.requiredSpenders then
    .error (.metadataDrift .requiredSpenders)
  else .ok ()

end Reap.Book
