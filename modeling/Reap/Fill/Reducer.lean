import Reap.Base.DenseIndex
import Reap.Fill.State
import Mathlib.Data.List.Sort

/-!
# The fill reducer

The calls of `PmFillState`. A fill may be observed on the private stream, in the acknowledgement
of an owned order, or when the owner recovers; the first observation applies its principal, and
later ones can only add to what is known of its fee and its settlement. A complete fill query is
preflighted as a whole and then covers every fill it lists. Compaction drops the fills that are
covered and settled.

The provisional deltas are kept in three ways: an insertion adds to them, an enrichment and a
query recompute them, and a compaction leaves them alone.
-/

namespace Reap.Fill

open Base Reap.Core FillEntry
open Reap.Owned (PmOwnedObservationOccurrence PmOwnedReductionSequence)

/-- How a call of the fill state ends. -/
abbrev Reply := Outcome PmFillStateError

/-- The sequence number of a row of a query, which aborts when there is none. -/
def rowSequence (sequence : PmOwnedReductionSequence) (offset : ℕ) :
    Option PmOwnedReductionSequence :=
  if sequence.value.toNat + offset < 2 ^ 64 then
    if h : sequence.value + UInt64.ofNat offset ≠ 0 then some ⟨_, h⟩ else none
  else none

/-- The key is one of the sorted keys. -/
def isListed (keys : List PmFillKey) (key : PmFillKey) : Bool :=
  match binarySearchByKey some key keys with
  | some (.ok _) => true
  | _ => false

/-- Search the sorted fills. -/
def searchEntries (entries : List FillEntry) (key : PmFillKey) : Option (Except ℕ ℕ) :=
  binarySearchByKey fillKey key entries

namespace FillEntry

variable (config : PmPrivateStateConfig) (event : PmFillEvent)

/-- The entry of a fill that is observed first. -/
def observed (occurrence : PmOwnedObservationOccurrence) : FillEntry where
  event := event
  firstOccurrence := occurrence
  lastOccurrence := occurrence
  coveredByReconciliation := none
  fee := feeState config event.execution.fee
  coveredFee := none
  settlement := event.execution.settlement
  coveredSettlement := none

/-- The entry of a fill that a query lists first. -/
def queried
    (first last : PmOwnedObservationOccurrence) (completion : PmPrivateOccurrence) : FillEntry where
  event := event
  firstOccurrence := first
  lastOccurrence := last
  coveredByReconciliation := some completion
  fee := feeState config event.execution.fee
  coveredFee := resolvedCoveredFee (feeState config event.execution.fee)
  settlement := event.execution.settlement
  coveredSettlement := resolvedCoveredSettlement event.execution.settlement

/-- The entry of a fill that a query covers. -/
def covered (prior : FillEntry) (config : PmPrivateStateConfig) (event : PmFillEvent)
    (last : PmOwnedObservationOccurrence) (completion : PmPrivateOccurrence) : FillEntry :=
  { queried config event prior.firstOccurrence last completion with }

/-- The entry of a fill of which more is known. -/
def enriched (prior : FillEntry) (event : PmFillEvent) (occurrence : PmOwnedObservationOccurrence)
    (fee : Option PmFillFeeState) (settlement : Option PmFillSettlementStatus) : FillEntry :=
  { prior with
    event := event
    lastOccurrence := prior.lastOccurrence.causalMax occurrence
    fee := fee.getD prior.fee
    settlement := settlement.getD prior.settlement }

/-- A compaction drops the fill: it is covered, nothing private was observed later, and the
query knew its fee and its settlement. -/
def isDropped (entry : FillEntry) (through : PmPrivateOccurrence) : Bool :=
  let covered := match entry.coveredByReconciliation with
    | none => false
    | some covered => decide (covered ≤ through)
  let noLaterPrivateFact := match entry.lastOccurrence.privateOccurrence with
    | none => true
    | some occurrence => decide (occurrence ≤ through)
  covered && noLaterPrivateFact &&
    (!entry.feeNeedsReconciliation && !entry.settlementNeedsReconciliation)

end FillEntry

namespace PmFillState

variable (s : PmFillState) (config : PmPrivateStateConfig) (event : PmFillEvent)
  (envelope : EventEnvelope PmCompleteFillQuery) (occurrence : PmOwnedObservationOccurrence)

/-- `new`. -/
def new : PmFillState where
  entries := []
  queryKeys := []
  provisional := emptyDeltas
  watermark := none
  reconciliationCompletion := none
  observedMonotonicNs := none
  counters := {}

/-- The state with its counters changed. -/
def count (f : PmFillCounters → PmFillCounters) : PmFillState :=
  { s with counters := f s.counters }

/-- Start at a cursor. -/
def initializeRecoveredWatermark (cursor : PmFillQueryCursor) : Reply Unit × PmFillState :=
  if cursor.accountScope ≠ config.accountScope then (.err .recoveryCursorScopeMismatch, s)
  else if s.watermark.isSome then (.err .recoveryCursorAlreadyInitialized, s)
  else if s.entries ≠ [] ∨ s.queryKeys ≠ [] ∨ s.reconciliationCompletion.isSome = true ∨
      s.observedMonotonicNs.isSome = true ∨ s.provisional ≠ emptyDeltas ∨ s.counters ≠ {} then
    (.err .recoveryCursorStateNotFresh, s)
  else (.ok (), { s with watermark := some cursor })

/-! ### Observations -/

/-- `search`. -/
def search (key : PmFillKey) : Option (Except ℕ ℕ) := searchEntries s.entries key

/-- Count a settlement. -/
def countSettlementObservation (settlement : PmFillSettlementStatus) : PmFillState :=
  match settlement with
  | .retrying => s.count fun c => { c with retryingObservations := bump c.retryingObservations }
  | .failed => s.count fun c => { c with failedObservations := bump c.failedObservations }
  | .matched | .matchedNotBroadcasted | .mined | .confirmed => s

/-- `insert_observed`. -/
def insertObserved (index : ℕ) (event : PmFillEvent) (occurrence : PmOwnedObservationOccurrence) :
    Reply PmFillApply × PmFillState :=
  if s.entries.length = maxPmPrivateFills then
    (.err .capacity, s.count fun c => { c with capacityFailures := bump c.capacityFailures })
  else
  let entry := observed config event occurrence
  match eventDelta config event entry.fee with
  | .error error => (.err error, s)
  | .ok delta =>
  match addDelta s.provisional delta with
  | .error error => (.err error, s)
  | .ok next =>
  match insertAt s.entries index entry with
  | none => (.panic, s)
  | some entries =>
    (.ok (.principalApplied entry.fee entry.settlement),
      ({ s with entries := entries, provisional := next }.count fun c =>
        { c with principalApplications := bump c.principalApplications }).countSettlementObservation
          entry.settlement)

/-- A conflict. -/
def refuse {α : Type} (s : PmFillState) (error : PmFillStateError) : Reply α × PmFillState :=
  (.err error, s.count fun c => { c with conflicts := bump c.conflicts })

/-- The counters of an enrichment. -/
def countEnrichment (fee : Option PmFillFeeState)
    (settlement : Option PmFillSettlementStatus) : PmFillState :=
  let s := if fee.isSome then
      s.count fun c => { c with feeEnrichments := bump c.feeEnrichments }
    else s
  match settlement with
  | none => s
  | some next =>
    (s.count fun c =>
      { c with settlementUpdates := bump c.settlementUpdates }).countSettlementObservation next

/-- `enrich`. -/
def enrich (index : ℕ) (event : PmFillEvent)
    (occurrence : PmOwnedObservationOccurrence) : Reply PmFillApply × PmFillState :=
  match s.entries[index]? with
  | none => (.panic, s)
  | some prior =>
  if occurrence.causalCmp prior.lastOccurrence = .lt then
    (.ok .ignoredStale, s.count fun c => { c with stale := bump c.stale })
  else if occurrence.sameSourceOccurrence prior.lastOccurrence then
    if event = prior.event then
      (.ok .duplicate, s.count fun c => { c with duplicates := bump c.duplicates })
    else s.refuse .conflict
  else
  match validateSamePrincipal prior.event event with
  | .error error => s.refuse error
  | .ok () =>
  match feeTransition prior.fee (feeState config event.execution.fee) with
  | .error error => s.refuse error
  | .ok fee =>
  match settlementTransition prior.settlement event.execution.settlement with
  | .error error => s.refuse error
  | .ok settlement =>
  if fee = none ∧ settlement = none then
    (.ok .duplicate, s.count fun c => { c with duplicates := bump c.duplicates })
  else
  match mergeEvent config prior.event event with
  | .error error => (.err error, s)
  | .ok merged =>
  let entry := prior.enriched merged occurrence fee settlement
  -- the entry is replaced before the deltas are recomputed
  let entries := s.entries.set index entry
  match recomputeProvisional config entries with
  | .error error => (.err error, { s with entries := entries })
  | .ok provisional =>
    (.ok (.enriched entry.fee entry.settlement),
      { s with entries := entries, provisional := provisional }.countEnrichment fee settlement)

/-- What every observation does once it has been checked. -/
def applyFill : Reply PmFillApply × PmFillState :=
  match s.search event.fillKey with
  | none => (.panic, s)
  | some (.ok index) => s.enrich config index event occurrence
  | some (.error index) => s.insertObserved config index event occurrence

/-- `observe`. -/
def observe (envelope : EventEnvelope PmFillEvent)
    (occurrence : PmOwnedObservationOccurrence) : Reply PmFillApply × PmFillState :=
  match validateFill config envelope.payload envelope.source with
  | .error error => (.err error, s)
  | .ok () =>
  if occurrence.privateOccurrence ≠ some envelope.occurrence ∨
      occurrence.snapshotRevision ≠ envelope.ordering.snapshotRevision then
    (.err .occurrenceEvidenceMismatch, s)
  else
    { s with observedMonotonicNs := some envelope.monotonicServiceNs }.applyFill config
      envelope.payload occurrence

/-- A fill in an answer. -/
def observeOwnedImmediate : Reply PmFillApply × PmFillState :=
  if occurrence.privateOccurrence.isSome = true ∨ occurrence.snapshotRevision.isSome = true then
    (.err .occurrenceEvidenceMismatch, s)
  else
  match validateFill config event event.source with
  | .error error => (.err error, s)
  | .ok () => s.applyFill config event occurrence

/-- A fill of the journal. -/
def observeOwnedRecovery : Reply PmFillApply × PmFillState :=
  match validateFill config event event.source with
  | .error error => (.err error, s)
  | .ok () => s.applyFill config event occurrence

/-! ### Queries -/

/-- How many of the fills are not stored. -/
def countNew (s : PmFillState) : List PmFillEvent → Reply ℕ
  | [] => .ok 0
  | fill :: rest =>
    match s.search fill.fillKey with
    | none => .panic
    | some (.ok _) => s.countNew rest
    | some (.error _) => do
      let new ← s.countNew rest
      return new + 1

/-- The checks of one row of a query. -/
def preflightRow (source : PmProductSource)
    (request : PmPrivateOccurrence) (fill : PmFillEvent) : Reply Unit := do
  .ofExcept (validateFill config fill source)
  match s.search fill.fillKey with
  | none => .panic
  | some (.error _) => return ()
  | some (.ok index) =>
  match s.entries[index]? with
  | none => .panic
  | some entry =>
    .ofExcept (validateSamePrincipal entry.event fill)
    if occurrenceAfterPrivateCut entry.lastOccurrence request then
      .ofExcept (validateHistoricalFillCompatibility config fill entry.event)
    else
      .ofExcept (validateFeeProgression config entry.fee fill.execution.fee)
      match settlementTransition entry.settlement fill.execution.settlement with
      | .error error => .err error
      | .ok _ => return ()

/-- The checks of the rows of a query. -/
def preflightRows (s : PmFillState) (config : PmPrivateStateConfig) (source : PmProductSource)
    (request : PmPrivateOccurrence) : List PmFillEvent → Reply Unit
  | [] => .ok ()
  | fill :: rest => do
    s.preflightRow config source request fill
    s.preflightRows config source request rest

/-- A fill that a query should have listed: it was observed before the request and has not been
covered. -/
def isMissed (keys : List PmFillKey) (request : PmPrivateOccurrence) (entry : FillEntry) : Bool :=
  entry.needsReconciliation && !occurrenceAfterPrivateCut entry.lastOccurrence request &&
    !isListed keys entry.key

/-- A fill that the query will leave uncovered. -/
def staysUncovered (keys : List PmFillKey) (request : PmPrivateOccurrence)
    (entry : FillEntry) : Bool :=
  entry.needsReconciliation &&
    (occurrenceAfterPrivateCut entry.lastOccurrence request || !isListed keys entry.key)

/-- `preflight_query`. -/
def preflightQuery : Reply Unit × PmFillState :=
  match validateQueryEnvelope config envelope with
  | .error error => (.err error, s)
  | .ok () =>
  let query := envelope.payload
  let keys := (query.fills.map (·.fillKey)).insertionSort (· ≤ ·)
  let s := { s with queryKeys := keys }
  if query.requestedAfter ≠ s.watermark then (.err .cursorDiscontinuity, s)
  else
  let request : PmPrivateOccurrence :=
    ⟨envelope.ordering.connectionEpoch, query.boundary.requestSequence⟩
  match s.countNew query.fills with
  | .panic => (.panic, s)
  | .err error => (.err error, s)
  | .ok new =>
  if maxPmPrivateFills < s.entries.length + new then
    (.err .capacity, s.count fun c => { c with capacityFailures := bump c.capacityFailures })
  else
  match s.preflightRows config envelope.source request query.fills with
  | .panic => (.panic, s)
  | .err error => (.err error, s)
  | .ok () =>
  if s.entries.any (isMissed keys request) then (.err .cutDoesNotCoverObservedFill, s)
  else
  match checkedSum addDelta (entryProvisionalDelta config) emptyDeltas
    (s.entries.filter (staysUncovered keys request)) with
  | .error error => (.err error, s)
  | .ok _ => (.ok (), s)

/-- One row of a query is applied. -/
def applyRow (request completion : PmPrivateOccurrence) (revision : SnapshotRevision) (offset : ℕ)
    (fill : PmFillEvent) (entries : List FillEntry) : Reply (List FillEntry) :=
  match rowSequence occurrence.reductionSequence offset with
  | none => .panic
  | some sequence =>
  let row := occurrence.withReductionSequence sequence
  let requestOccurrence := row.withPrivateContext request (some revision)
  let completionOccurrence := row.withPrivateContext completion (some revision)
  match searchEntries entries fill.fillKey with
  | none => .panic
  | some (.ok index) =>
    match entries[index]? with
    | none => .panic
    | some entry =>
      if occurrenceAfterPrivateCut entry.lastOccurrence request then .ok entries
      else
      match mergeEvent config entry.event fill with
      | .error error => .err error
      | .ok merged =>
        .ok (entries.set index (entry.covered config merged completionOccurrence completion))
  | some (.error index) =>
    .expect (insertAt entries index
      (.queried config fill requestOccurrence completionOccurrence completion))

/-- The rows of a query are applied one after the other; the rows before a failing one stay
applied. -/
def applyRows (config : PmPrivateStateConfig) (occurrence : PmOwnedObservationOccurrence)
    (request completion : PmPrivateOccurrence) (revision : SnapshotRevision) :
    ℕ → List PmFillEvent → List FillEntry → Reply Unit × List FillEntry
  | _, [], entries => (.ok (), entries)
  | offset, fill :: rest, entries =>
    match applyRow config occurrence request completion revision offset fill entries with
    | .panic => (.panic, entries)
    | .err error => (.err error, entries)
    | .ok next => applyRows config occurrence request completion revision (offset + 1) rest next

/-- A query that was checked. -/
def applyPreflightedQuery : Reply Unit × PmFillState :=
  let query := envelope.payload
  let epoch := envelope.ordering.connectionEpoch
  let request : PmPrivateOccurrence := ⟨epoch, query.boundary.requestSequence⟩
  let completion : PmPrivateOccurrence := ⟨epoch, query.boundary.completionSequence⟩
  if occurrence.privateOccurrence ≠ some completion ∨
      occurrence.snapshotRevision ≠ some query.snapshot.revision then
    (.err .occurrenceEvidenceMismatch, s)
  else
  match applyRows config occurrence request completion query.snapshot.revision 0 query.fills
    s.entries with
  | (.panic, entries) => (.panic, { s with entries := entries })
  | (.err error, entries) => (.err error, { s with entries := entries })
  | (.ok (), entries) =>
  let s := { s with
    entries := entries
    watermark := some query.resultingWatermark
    reconciliationCompletion := some completion
    observedMonotonicNs := some envelope.monotonicServiceNs }
  match recomputeProvisional config entries with
  | .error error => (.err error, s)
  | .ok provisional =>
    (.ok (), { s with provisional := provisional }.count fun c =>
      { c with reconciliationQueries := bump c.reconciliationQueries })

/-- `preflight_query`, followed by `apply_preflighted_query` if it succeeds. -/
def reconcile : Reply Unit × PmFillState :=
  match s.preflightQuery config envelope with
  | (.ok (), s) => s.applyPreflightedQuery config envelope occurrence
  | failed => failed

/-! ### Compaction -/

/-- The number of fills it drops, and the state. -/
def compactCoveredThrough (through : PmPrivateOccurrence) : ℕ × PmFillState :=
  let entries := s.entries.filter fun entry => !entry.isDropped through
  (s.entries.length - entries.length, { s with entries := entries })

/-! ### What is unresolved -/

end PmFillState

/-- The fee of the fill is still to be resolved: it is not known in a configured asset, and no
query has settled it. -/
def FillEntry.hasUnresolvedFee (entry : FillEntry) : Bool :=
  entry.feeNeedsReconciliation && (entry.fee.isUnresolved || entry.fee.isUnmapped)

/-- The settlement of the fill is retrying or has failed, and no query has settled it. -/
def FillEntry.hasUnresolvedSettlement (entry : FillEntry) : Bool :=
  entry.settlementNeedsReconciliation &&
    (entry.settlement == .retrying || entry.settlement == .failed)

namespace PmFillState

/-- The first unknown fee. -/
def firstUnresolvedFee (s : PmFillState) : Option (PmFillKey × PmFillFeeState) :=
  (s.entries.find? hasUnresolvedFee).map fun entry => (entry.key, entry.fee)

/-- The first open settlement. -/
def firstUnresolvedSettlement (s : PmFillState) : Option (PmFillKey × PmFillSettlementStatus) :=
  (s.entries.find? hasUnresolvedSettlement).map fun entry => (entry.key, entry.settlement)

/-- `unresolved_count`, which aborts if the number does not fit. -/
def unresolvedCount (s : PmFillState) : Option UInt16 :=
  let n := (s.entries.filter fun entry =>
    entry.hasUnresolvedFee || entry.hasUnresolvedSettlement).length
  if n < 2 ^ 16 then some (UInt16.ofNat n) else none

end PmFillState

end Reap.Fill
