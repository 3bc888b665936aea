import Reap.Book.Levels

/-!
# The reducer of a public book

The reducer keeps the levels of one instrument's book and decides whether they may be used. A
snapshot replaces the levels, a batch of price changes edits them; both are prepared in a
second buffer and take effect only when everything about them has been checked. Whatever is
wrong makes the book unavailable, with the reason, and the levels stay as they were. Only a
new snapshot makes the book available again.

Every function of the reducer returns its reply and the state it leaves. The process-wide
allocation of authority identities is left out: the identity is an argument of `new`.
-/

namespace Reap.Book

open Base Reap.Core Outcome

/-! ### Messages -/

/-- `PmBookBatchEvidence`. -/
structure PmBookBatchEvidence where
  instrument : PmInstrumentHandle
  connectionEpoch : ConnectionEpoch
  metadataRevision : SnapshotRevision
  snapshotRevision : SnapshotRevision
  localIngressSequence : IngressSequence
  monotonicReceiveNs : UInt64
  venueHash : Option VenueEventHash
  epoch_ne_zero : connectionEpoch.value ≠ 0
  metadata_ne_zero : metadataRevision.value ≠ 0
  snapshot_ne_zero : snapshotRevision.value ≠ 0
  ingress_ne_zero : localIngressSequence.value ≠ 0
  receive_ne_zero : monotonicReceiveNs ≠ 0

/-- A fault seen outside. -/
inductive PmExternalBookFault where
  | disconnect
  | heartbeatTimeout
  | gap
  | overflow
  | backlogAged
  | invalidTransition
  | hashMismatch
  deriving DecidableEq, Repr

/-- A fault not yet final. -/
structure PendingExternalBookFault where
  generation : UInt64
  epoch : ConnectionEpoch
  fault : PmExternalBookFault
  deriving DecidableEq

/-- The right to finalize a pending fault of one
reducer. -/
structure PmPendingExternalBookFaultAuthority where
  reducerAuthority : UInt64
  generation : UInt64
  epoch : ConnectionEpoch
  fault : PmExternalBookFault
  deriving DecidableEq

/-- A committed snapshot. -/
structure PmSnapshotCommitProof where
  instrument : PmInstrumentHandle
  metadataFingerprint : PmMetadataFingerprint
  connectionEpoch : ConnectionEpoch
  metadataRevision : SnapshotRevision
  snapshotRevision : SnapshotRevision
  localIngressSequence : IngressSequence
  venueHash : VenueEventHash
  deriving DecidableEq

/-- `PmBookTransition`. -/
inductive PmBookTransition where
  | metadataAccepted (revision : SnapshotRevision)
  | epochStarted (epoch : ConnectionEpoch)
  | snapshotCommitted (revision : SnapshotRevision) (levels : ℕ) (proof : PmSnapshotCommitProof)
  | deltaBatchCommitted (revision : SnapshotRevision) (changes : ℕ)
  | topConfirmed
  | freshnessConfirmed
  deriving DecidableEq

/-- `PmBookCounters`. -/
structure PmBookCounters where
  metadataInputs : UInt64 := 0
  metadataAccepted : UInt64 := 0
  metadataRejected : UInt64 := 0
  epochAttempts : UInt64 := 0
  epochsStarted : UInt64 := 0
  reconnects : UInt64 := 0
  snapshotAttempts : UInt64 := 0
  snapshotsCommitted : UInt64 := 0
  snapshotLevelsCommitted : UInt64 := 0
  resyncSnapshots : UInt64 := 0
  deltaBatchAttempts : UInt64 := 0
  deltaBatchesCommitted : UInt64 := 0
  deltaChangesCommitted : UInt64 := 0
  deltaTopChecks : UInt64 := 0
  deltaTopChecksConfirmed : UInt64 := 0
  topChecks : UInt64 := 0
  topChecksConfirmed : UInt64 := 0
  freshnessChecks : UInt64 := 0
  freshnessConfirmed : UInt64 := 0
  tickSizeChanges : UInt64 := 0
  externalFaults : UInt64 := 0
  duplicateIngress : UInt64 := 0
  reorderedIngress : UInt64 := 0
  disconnects : UInt64 := 0
  heartbeatTimeouts : UInt64 := 0
  backlogAgedFaults : UInt64 := 0
  gaps : UInt64 := 0
  overflows : UInt64 := 0
  hashMismatches : UInt64 := 0
  bboMismatches : UInt64 := 0
  invalidTransitions : UInt64 := 0
  clockRegressions : UInt64 := 0
  invalidations : UInt64 := 0
  unavailableTransitions : UInt64 := 0
  staleInvalidations : UInt64 := 0
  deriving DecidableEq

/-- `PmBookReducer`. -/
structure PmBookReducer where
  authorityId : UInt64
  instrument : PmInstrumentHandle
  expectedFingerprint : PmMetadataFingerprint
  expectedContract : PmMetadataContract
  freshness : PmBookFreshness
  metadataRevision : Option SnapshotRevision
  metadataReceiveNs : Option UInt64
  metadataValid : Bool
  connectionEpoch : Option ConnectionEpoch
  requiresReconnect : Bool
  lastIngressSequence : Option IngressSequence
  lastIngressReceiveNs : Option UInt64
  snapshotRevision : Option SnapshotRevision
  lastCommittedSnapshotRevision : Option SnapshotRevision
  bookReceiveNs : Option UInt64
  lastVerifiedSnapshotHash : Option VenueEventHash
  levels : List PmBookLevel
  staging : List PmBookLevel
  changeKeys : List BookKey
  bookReady : Bool
  reason : PmPublicReadinessReason
  pendingExternalFault : Option PendingExternalBookFault
  pendingExternalFaultGeneration : UInt64
  counters : PmBookCounters
  everCommittedSnapshot : Bool
  deriving DecidableEq

namespace PmBookReducer

variable (s : PmBookReducer) (epoch : ConnectionEpoch) (fault : PmExternalBookFault)
  (evidence : PmBookBatchEvidence) (snapshot : PmBookSnapshot) (batch : PmBookDeltaBatch)

/-- `new`. -/
def new (authorityId : UInt64) (instrument : PmInstrumentHandle)
    (expectedFingerprint : PmMetadataFingerprint) (expectedContract : PmMetadataContract)
    (freshness : PmBookFreshness) : Except PmPublicReadinessReason PmBookReducer :=
  match validateExpectedContract expectedContract with
  | .error reason => .error reason
  | .ok () => .ok {
      authorityId := authorityId
      instrument := instrument
      expectedFingerprint := expectedFingerprint
      expectedContract := expectedContract
      freshness := freshness
      metadataRevision := none
      metadataReceiveNs := none
      metadataValid := false
      connectionEpoch := none
      requiresReconnect := false
      lastIngressSequence := none
      lastIngressReceiveNs := none
      snapshotRevision := none
      lastCommittedSnapshotRevision := none
      bookReceiveNs := none
      lastVerifiedSnapshotHash := none
      levels := []
      staging := []
      changeKeys := []
      bookReady := false
      reason := .metadataMissing
      pendingExternalFault := none
      pendingExternalFaultGeneration := 0
      counters := {}
      everCommittedSnapshot := false }

/-- The tick of the contract. -/
def tick : PmTick := s.expectedContract.market.tick

/-! ### Readiness -/

/-- `readiness`. -/
def readiness : PmBookReadiness :=
  if s.metadataValid && s.connectionEpoch.isSome && !s.requiresReconnect && s.bookReady then
    match s.metadataRevision, s.snapshotRevision with
    | some metadata, some snapshot => .ready metadata snapshot
    | _, _ => .unavailable .snapshotMissing s.metadataRevision s.snapshotRevision
  else .unavailable s.reason s.metadataRevision s.snapshotRevision

/-- The book is available. -/
def isReady : Bool := s.readiness.isReady

/-- The quantity of the first level with the side and the price. -/
def quantityAt (levels : List PmBookLevel) (side : PmBookSide) (price : PmPrice) :
    Option PmQuantity :=
  match levels.find? fun level => level.side == side && level.price == price with
  | some ⟨_, _, .quantity quantity⟩ => some quantity
  | _ => none

/-- `ready_top`. -/
def readyTop : Option PmBookTop :=
  if s.isReady = false then none
  else
  match canonicalTop s.levels with
  | .error _ => none
  | .ok (bid, ask) =>
  match quantityAt s.levels .bid bid, quantityAt s.levels .ask ask with
  | some bidQuantity, some askQuantity =>
    PmBookTop.new (some ⟨bid, bidQuantity⟩) (some ⟨ask, askQuantity⟩)
  | _, _ => none

/-! ### Invalidation -/

/-- The counters change. -/
def count (f : PmBookCounters → PmBookCounters) : PmBookReducer :=
  { s with counters := f s.counters }

/-- Count a book that is lost. -/
def noteUnavailableTransition : PmBookReducer :=
  if s.isReady then
    s.count fun c => { c with unavailableTransitions := bump c.unavailableTransitions }
  else s

/-- The counter of a reason. -/
def countReason (reason : PmPublicReadinessReason) (c : PmBookCounters) : PmBookCounters :=
  match reason with
  | .bboMismatch => { c with bboMismatches := bump c.bboMismatches }
  | .clockRegression => { c with clockRegressions := bump c.clockRegressions }
  | .hashMismatch => { c with hashMismatches := bump c.hashMismatches }
  | .invalidTransition => { c with invalidTransitions := bump c.invalidTransitions }
  | _ => c

/-- Count an invalidation. -/
def recordInvalidation {α : Type} (s : PmBookReducer) (reason : PmPublicReadinessReason) :
    Reply α × PmBookReducer :=
  (.err reason, ({ s.count (countReason reason) with reason := reason }).count fun c =>
    { c with invalidations := bump c.invalidations })

/-- `invalidate`. -/
def invalidate {α : Type} (s : PmBookReducer) (reason : PmPublicReadinessReason) :
    Reply α × PmBookReducer :=
  ({ s.noteUnavailableTransition with bookReady := false }).recordInvalidation reason

/-- `reject_metadata`. -/
def rejectMetadata {α : Type} (s : PmBookReducer) (reason : PmPublicReadinessReason) :
    Reply α × PmBookReducer :=
  (({ s.noteUnavailableTransition with metadataValid := false, bookReady := false }).count fun c =>
    { c with metadataRejected := bump c.metadataRejected }).recordInvalidation reason

/-! ### Evidence -/

/-- `validate_ingress`. -/
def validateIngress (sequence : IngressSequence) : Reply Unit × PmBookReducer :=
  match s.lastIngressSequence with
  | none => (.ok (), { s with lastIngressSequence := some sequence })
  | some last =>
    if sequence = last then
      (s.count fun c => { c with duplicateIngress := bump c.duplicateIngress }).invalidate
        .duplicateIngress
    else if sequence < last then
      (s.count fun c => { c with reorderedIngress := bump c.reorderedIngress }).invalidate
        .reorderedIngress
    else (.ok (), { s with lastIngressSequence := some sequence })

/-- The clock of the evidence is before the last one, or before the metadata's. -/
def clockRegresses : Prop :=
  (∃ current ∈ s.lastIngressReceiveNs, evidence.monotonicReceiveNs < current) ∨
    ∃ metadata ∈ s.metadataReceiveNs, evidence.monotonicReceiveNs < metadata

instance (s : PmBookReducer) (evidence : PmBookBatchEvidence) :
    Decidable (s.clockRegresses evidence) :=
  inferInstanceAs (Decidable (_ ∨ _))

/-- What every event needs. -/
def validateCommonEvidence : Reply Unit × PmBookReducer :=
  if s.metadataValid = false then (.err s.reason, s)
  else if evidence.instrument ≠ s.instrument then s.invalidate (.metadataDrift .instrument)
  else if s.connectionEpoch ≠ some evidence.connectionEpoch ∨ s.requiresReconnect = true then
    s.invalidate .connectionEpochMismatch
  else
  andThen (s.validateIngress evidence.localIngressSequence) fun _ s =>
  if s.clockRegresses evidence then s.invalidate .clockRegression
  else
  let s := { s with lastIngressReceiveNs := some evidence.monotonicReceiveNs }
  if s.metadataRevision ≠ some evidence.metadataRevision then s.invalidate .metadataRevisionMismatch
  else (.ok (), s)

/-- The hash is a whole SHA-1. -/
def isExactSha1 : Option VenueEventHash → Bool
  | some hash => hash.algorithm == .sha1 && hash.bytes.length == 20
  | none => false

/-- The hash is a SHA-1. -/
def validateSnapshotHash : Reply Unit × PmBookReducer :=
  if isExactSha1 evidence.venueHash = false then s.invalidate .hashMismatch else (.ok (), s)

/-- No hash is given. -/
def validateAbsentSingularHash : Reply Unit × PmBookReducer :=
  if evidence.venueHash.isSome then s.invalidate .hashMismatch else (.ok (), s)

/-! ### Metadata and epochs -/

/-- `apply_metadata`. -/
def applyMetadata (observation : PmMetadataObservation) : Reply PmBookTransition × PmBookReducer :=
  if s.pendingExternalFault.isSome then (.err s.reason, s)
  else
  let s := s.count fun c => { c with metadataInputs := bump c.metadataInputs }
  if observation.instrument ≠ s.instrument then s.rejectMetadata (.metadataDrift .instrument)
  else if ∃ current ∈ s.metadataRevision, observation.revision ≤ current then
    s.rejectMetadata .metadataRevisionNotIncreasing
  else if ∃ current ∈ s.metadataReceiveNs, observation.monotonicReceiveNs < current then
    s.rejectMetadata .clockRegression
  else
  match validateObservedContract s.expectedContract observation.contract with
  | .error reason => s.rejectMetadata reason
  | .ok () =>
  if observation.fingerprint ≠ s.expectedFingerprint then
    s.rejectMetadata .metadataFingerprintMismatch
  else
  (.ok (.metadataAccepted observation.revision), { s.noteUnavailableTransition.count fun c =>
      { c with metadataAccepted := bump c.metadataAccepted } with
    metadataRevision := some observation.revision
    metadataReceiveNs := some observation.monotonicReceiveNs
    metadataValid := true
    bookReady := false
    snapshotRevision := none
    bookReceiveNs := none
    lastVerifiedSnapshotHash := none
    reason := if s.connectionEpoch.isSome && !s.requiresReconnect then .snapshotMissing
      else .connectionUnavailable })

/-- The epoch may follow the current one: it is the first, or the next. -/
def epochFollows : Bool :=
  match s.connectionEpoch with
  | none => true
  | some current => current.value != 0xFFFFFFFFFFFFFFFF && epoch.value == current.value + 1

/-- The counters of an epoch that starts. -/
def countEpoch (reconnect : Bool) (c : PmBookCounters) : PmBookCounters :=
  let c := { c with epochsStarted := bump c.epochsStarted }
  if reconnect then { c with reconnects := bump c.reconnects } else c

/-- `begin_epoch`. -/
def beginEpoch : Reply PmBookTransition × PmBookReducer :=
  if s.pendingExternalFault.isSome then (.err s.reason, s)
  else
  let s := s.count fun c => { c with epochAttempts := bump c.epochAttempts }
  if epoch.value = 0 then s.invalidate .connectionEpochInvalid
  else if s.epochFollows epoch = false then s.invalidate .connectionEpochInvalid
  else
  (.ok (.epochStarted epoch), { s.noteUnavailableTransition.count
      (countEpoch s.connectionEpoch.isSome) with
    connectionEpoch := some epoch
    requiresReconnect := false
    lastIngressSequence := none
    lastIngressReceiveNs := none
    bookReady := false
    snapshotRevision := none
    bookReceiveNs := none
    lastVerifiedSnapshotHash := none
    reason := if s.metadataValid then .snapshotMissing else s.reason })

/-! ### Snapshots -/

/-- The counters of a committed snapshot. -/
def countSnapshot (wasResync : Bool) (levels : ℕ) (c : PmBookCounters) : PmBookCounters :=
  let c := { c with
    snapshotsCommitted := bump c.snapshotsCommitted
    snapshotLevelsCommitted := saturatingAdd c.snapshotLevelsCommitted levels }
  if wasResync then { c with resyncSnapshots := bump c.resyncSnapshots } else c

/-- What a snapshot that has passed every check does: the buffers are swapped, and the book is
ready. -/
def commitSnapshot : Reply PmBookTransition × PmBookReducer :=
  let wasResync := s.everCommittedSnapshot && !s.isReady
  let t := { s.count (countSnapshot wasResync snapshot.levels.length) with
    levels := s.staging
    staging := s.levels
    snapshotRevision := some evidence.snapshotRevision
    lastCommittedSnapshotRevision := some evidence.snapshotRevision
    bookReceiveNs := some evidence.monotonicReceiveNs
    lastVerifiedSnapshotHash := evidence.venueHash
    bookReady := true
    reason := .snapshotMissing
    everCommittedSnapshot := true }
  match evidence.venueHash, toU16 snapshot.levels.length with
  | some hash, some levels =>
    (.ok (.snapshotCommitted evidence.snapshotRevision levels {
      instrument := s.instrument
      metadataFingerprint := s.expectedFingerprint
      connectionEpoch := evidence.connectionEpoch
      metadataRevision := evidence.metadataRevision
      snapshotRevision := evidence.snapshotRevision
      localIngressSequence := evidence.localIngressSequence
      venueHash := hash }), t)
  | _, _ => (.panic, t)

/-- A snapshot whose evidence is valid. -/
def reduceSnapshot : Reply PmBookTransition × PmBookReducer :=
  if ∃ current ∈ s.lastCommittedSnapshotRevision, evidence.snapshotRevision ≤ current then
    s.invalidate .snapshotRevisionMismatch
  else if maxPmBookLevels < snapshot.levels.length then s.invalidate .tooManyLevels
  else
  match validateAndSortLevels snapshot.levels s.tick true with
  | (.error reason, staging) => ({ s with staging := staging }).invalidate reason
  | (.ok (), staging) => ({ s with staging := staging }).commitSnapshot evidence snapshot

/-- `apply_snapshot`. -/
def applySnapshot : Reply PmBookTransition × PmBookReducer :=
  if s.pendingExternalFault.isSome then (.err s.reason, s)
  else
  andThen ((s.count fun c => { c with
    snapshotAttempts := bump c.snapshotAttempts }).validateCommonEvidence evidence) fun _ s =>
  andThen (s.validateSnapshotHash evidence) fun _ s => s.reduceSnapshot evidence snapshot

/-! ### Price changes -/

/-- The loop that checks the tick of every change and that no two have the same key. -/
def collectKeys (tick : PmTick) : List PmBookLevel → List BookKey → Reply Unit × List BookKey
  | [], keys => (.ok (), keys)
  | change :: changes, keys =>
    match change.price.validateTick tick with
    | .error _ => (.err .priceOffTick, keys)
    | .ok _ =>
    match binarySearchBy (fun candidate => some (compareKeys candidate (levelKey change))) keys with
    | none => (.panic, keys)
    | some (.ok _) => (.err .duplicateLevel, keys)
    | some (.error index) =>
      match insertAt keys index (levelKey change) with
      | none => (.panic, keys)
      | some keys => collectKeys tick changes keys

/-- The loop that applies changes one after another. -/
def applyChanges : List PmBookLevel → List PmBookLevel → Reply Unit × List PmBookLevel
  | [], levels => (.ok (), levels)
  | change :: changes, levels =>
    match applyChange levels change with
    | .panic => (.panic, levels)
    | .err reason => (.err reason, levels)
    | .ok levels => applyChanges changes levels

/-- The counters of a committed batch. -/
def countDelta (changes : ℕ) (c : PmBookCounters) : PmBookCounters :=
  { c with
    deltaBatchesCommitted := bump c.deltaBatchesCommitted
    deltaChangesCommitted := saturatingAdd c.deltaChangesCommitted changes
    deltaTopChecksConfirmed := bump c.deltaTopChecksConfirmed }

/-- What a batch whose changes have been applied to the second buffer does, if its top is the
expected one. -/
def commitDelta : Reply PmBookTransition × PmBookReducer :=
  let s := s.count fun c => { c with deltaTopChecks := bump c.deltaTopChecks }
  match canonicalTop s.staging with
  | .error reason => (.err reason, s)
  | .ok (bid, ask) =>
  if batch.expectedTop.bid ≠ some bid ∨ batch.expectedTop.ask ≠ some ask then
    s.invalidate .bboMismatch
  else
  let t := { s.count (countDelta batch.changes.length) with
    levels := s.staging
    staging := s.levels
    bookReceiveNs := some evidence.monotonicReceiveNs
    bookReady := true
    reason := .snapshotMissing }
  match toU16 batch.changes.length with
  | some changes => (.ok (.deltaBatchCommitted evidence.snapshotRevision changes), t)
  | none => (.panic, t)

/-- The changes of a batch, applied to a copy of the levels: deletions first. -/
def stageDelta : Reply Unit × PmBookReducer :=
  match collectKeys s.tick batch.changes [] with
  | (.panic, keys) => (.panic, { s with staging := s.levels, changeKeys := keys })
  | (.err reason, keys) => ({ s with staging := s.levels, changeKeys := keys }).invalidate reason
  | (.ok (), keys) =>
  let s := { s with staging := s.levels, changeKeys := keys }
  match applyChanges (batch.changes.filter (·.quantity = .delete)) s.staging with
  | (.panic, staging) => (.panic, { s with staging := staging })
  | (.err reason, staging) => ({ s with staging := staging }).invalidate reason
  | (.ok (), staging) =>
  match applyChanges (batch.changes.filter (·.quantity ≠ .delete)) staging with
  | (.panic, staging) => (.panic, { s with staging := staging })
  | (.err reason, staging) => ({ s with staging := staging }).invalidate reason
  | (.ok (), staging) =>
  match validateAndSortLevels staging s.tick false with
  | (.error reason, staging) => ({ s with staging := staging }).invalidate reason
  | (.ok (), staging) => (.ok (), { s with staging := staging })

/-- A batch whose evidence is valid. -/
def reduceDelta : Reply PmBookTransition × PmBookReducer :=
  if s.isReady = false then s.invalidate s.reason
  else if s.snapshotRevision ≠ some evidence.snapshotRevision then
    s.invalidate .snapshotRevisionMismatch
  else if batch.changes = [] then s.invalidate .invalidTransition
  else if maxPmBookLevels < batch.changes.length then s.invalidate .tooManyLevels
  else andThen (s.stageDelta batch) fun _ s => s.commitDelta evidence batch

/-- `apply_delta_batch`. -/
def applyDeltaBatch : Reply PmBookTransition × PmBookReducer :=
  if s.pendingExternalFault.isSome then (.err s.reason, s)
  else
  andThen ((s.count fun c => { c with
    deltaBatchAttempts := bump c.deltaBatchAttempts }).validateCommonEvidence evidence) fun _ s =>
  andThen (s.validateAbsentSingularHash evidence) fun _ s => s.reduceDelta evidence batch

/-! ### Checks of the top and of the tick -/

/-- A check of the top whose evidence is valid. -/
def reduceTop (top : PmBookTopCheck) : Reply PmBookTransition × PmBookReducer :=
  if s.isReady = false then s.invalidate s.reason
  else if s.snapshotRevision ≠ some evidence.snapshotRevision then
    s.invalidate .snapshotRevisionMismatch
  else
  match canonicalTop s.levels with
  | .error reason => (.err reason, s)
  | .ok (bid, ask) =>
  if top.bid ≠ some bid ∨ top.ask ≠ some ask then s.invalidate .bboMismatch
  else (.ok .topConfirmed, s.count fun c => { c with topChecksConfirmed := bump c.topChecksConfirmed })

/-- `check_top`. -/
def checkTop (top : PmBookTopCheck) : Reply PmBookTransition × PmBookReducer :=
  if s.pendingExternalFault.isSome then (.err s.reason, s)
  else
  andThen ((s.count fun c => { c with
    topChecks := bump c.topChecks }).validateCommonEvidence evidence) fun _ s =>
  andThen (s.validateAbsentSingularHash evidence) fun _ s => s.reduceTop evidence top

/-- A change of the tick whose evidence is valid: the metadata are out of date. -/
def reduceTick (old new : PmTick) : Reply PmBookTransition × PmBookReducer :=
  let reason : PmPublicReadinessReason :=
    if old ≠ s.tick ∨ new = s.tick then .invalidTransition else .metadataDrift .grid
  (s.count fun c => { c with tickSizeChanges := bump c.tickSizeChanges }).rejectMetadata reason

/-- `tick_size_changed`. -/
def tickSizeChanged (old new : PmTick) : Reply PmBookTransition × PmBookReducer :=
  if s.pendingExternalFault.isSome then (.err s.reason, s)
  else
  andThen (s.validateCommonEvidence evidence) fun _ s =>
  andThen (s.validateAbsentSingularHash evidence) fun _ s => s.reduceTick old new

/-- `apply_update`. -/
def applyUpdate (update : PmBookUpdate) : Reply PmBookTransition × PmBookReducer :=
  if s.pendingExternalFault.isSome then (.err s.reason, s)
  else
  match update with
  | .snapshot snapshot => s.applySnapshot evidence snapshot
  | .deltaBatch batch => s.applyDeltaBatch evidence batch
  | .topCheck top => s.checkTop evidence top
  | .tickSizeChanged old new => s.tickSizeChanged evidence old new

/-! ### External faults -/

/-- What a fault counts. -/
def countFault (c : PmBookCounters) : PmBookCounters :=
  let c := { c with externalFaults := bump c.externalFaults }
  match fault with
  | .disconnect => { c with disconnects := bump c.disconnects }
  | .heartbeatTimeout => { c with heartbeatTimeouts := bump c.heartbeatTimeouts }
  | .gap => { c with gaps := bump c.gaps }
  | .overflow => { c with overflows := bump c.overflows }
  | .backlogAged => { c with
      backlogAgedFaults := bump c.backlogAgedFaults
      staleInvalidations := bump c.staleInvalidations }
  | .invalidTransition | .hashMismatch => c

/-- After these faults the connection must be opened again. -/
def needsReconnect : PmExternalBookFault → Bool
  | .disconnect | .heartbeatTimeout => true
  | _ => false

/-- The reason of a fault. -/
def faultReason : PmExternalBookFault → PmPublicReadinessReason
  | .disconnect => .disconnected
  | .heartbeatTimeout => .heartbeatTimeout
  | .gap => .gap
  | .overflow => .overflow
  | .backlogAged => .bookStale
  | .invalidTransition => .invalidTransition
  | .hashMismatch => .hashMismatch

/-- A fault from outside. -/
def applyExternalFaultFinal : Reply PmBookTransition × PmBookReducer :=
  if s.connectionEpoch ≠ some epoch then s.invalidate .connectionEpochMismatch
  else
    ({ s.count (countFault fault) with
      requiresReconnect := s.requiresReconnect || needsReconnect fault }).invalidate (faultReason fault)

/-- A fault seen outside. -/
def applyExternalFault : Reply PmBookTransition × PmBookReducer :=
  if s.pendingExternalFault.isSome then (.err s.reason, s) else s.applyExternalFaultFinal epoch fault

/-- The reason while a fault is pending. -/
def pendingReason : PmExternalBookFault → Option PmPublicReadinessReason
  | .overflow => some .pendingOverflow
  | .backlogAged => some .pendingBookStale
  | _ => none

/-- A fault to be finalized. -/
def beginPendingExternalFault : Reply PmPendingExternalBookFaultAuthority × PmBookReducer :=
  if s.pendingExternalFault.isSome then (.err s.reason, s)
  else
  match pendingReason fault with
  | none => s.invalidate .invalidTransition
  | some reason =>
  if s.connectionEpoch ≠ some epoch ∨ s.requiresReconnect = true then
    s.invalidate .connectionEpochMismatch
  else if s.pendingExternalFaultGeneration = 0xFFFFFFFFFFFFFFFF then s.invalidate .invalidTransition
  else
  let generation := s.pendingExternalFaultGeneration + 1
  (.ok ⟨s.authorityId, generation, epoch, fault⟩, { s.noteUnavailableTransition with
    bookReady := false
    reason := reason
    pendingExternalFaultGeneration := generation
    pendingExternalFault := some ⟨generation, epoch, fault⟩ })

variable (authority : PmPendingExternalBookFaultAuthority)

/-- The authority is for the pending fault of this reducer. -/
def authorizes : Bool :=
  authority.reducerAuthority == s.authorityId &&
    s.pendingExternalFault == some ⟨authority.generation, authority.epoch, authority.fault⟩

/-- The fault becomes final. -/
def finalizePendingExternalFault (finalFault : PmExternalBookFault) :
    Reply PmBookTransition × PmBookReducer :=
  if s.authorizes authority = false ∨
      (finalFault ≠ authority.fault ∧ finalFault ≠ .invalidTransition) then (.err s.reason, s)
  else ({ s with pendingExternalFault := none }).applyExternalFaultFinal authority.epoch finalFault

/-! ### Freshness -/

/-- `check_freshness`. -/
def checkFreshness (nowNs : UInt64) : Reply PmBookTransition × PmBookReducer :=
  if s.pendingExternalFault.isSome then (.err s.reason, s)
  else
  let s := s.count fun c => { c with freshnessChecks := bump c.freshnessChecks }
  match s.metadataReceiveNs, s.bookReceiveNs with
  | some metadataNs, some bookNs =>
    if nowNs < metadataNs then s.invalidate .clockRegression
    else if nowNs < bookNs then s.invalidate .clockRegression
    else if s.freshness.metadataMaxAgeNs < nowNs - metadataNs then
      (({ s.noteUnavailableTransition with metadataValid := false, bookReady := false }).count fun c =>
        { c with staleInvalidations := bump c.staleInvalidations }).recordInvalidation .metadataStale
    else if s.freshness.bookMaxAgeNs < nowNs - bookNs then
      (s.count fun c => { c with staleInvalidations := bump c.staleInvalidations }).invalidate
        .bookStale
    else if s.isReady = false then (.err s.reason, s)
    else (.ok .freshnessConfirmed,
      s.count fun c => { c with freshnessConfirmed := bump c.freshnessConfirmed })
  | _, _ => (.err s.reason, s)

end PmBookReducer

end Reap.Book
