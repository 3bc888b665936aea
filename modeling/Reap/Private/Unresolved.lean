import Reap.Fill.Step
import Mathlib.Order.WithBot

/-!
# Unresolved fills

A trade on the private stream that cannot be attributed to an order is not a fill: nothing is
known of its side, price or quantity. It is kept under its identity, blocks quoting while it is
active, and is covered by the next reconciliation whose request came after it.

## What is proved

* `observe_spec` — an observation does not abort, and the unresolved fills stay sorted and
  bounded.
* `exists_activeCount` — the active ones can be counted.
-/

namespace Reap.Private

open Base Reap.Core Reap.Fill

/-- At most this many. -/
def maxPmUnresolvedFills : ℕ := maxPmReconciliationFills

/-! ### Data -/

/-- `PmUnresolvedFillKey`. -/
structure PmUnresolvedFillKey where
  fillId : PmFillId
  exactOrder : Option PmVenueOrderKey
  candidateOrder : Option PmVenueOrderId
  deriving DecidableEq

/-- The fields in their order; an order that is missing sorts first. -/
def PmUnresolvedFillKey.rank (key : PmUnresolvedFillKey) :
    PmFillId ×ₗ WithBot PmVenueOrderKey ×ₗ WithBot PmVenueOrderId :=
  toLex (key.fillId, toLex (key.exactOrder, key.candidateOrder))

theorem PmUnresolvedFillKey.rank_injective : Function.Injective PmUnresolvedFillKey.rank := by
  rintro ⟨a, e, c⟩ ⟨b, e', c'⟩ h
  cases congrArg (fun x => (ofLex x).1) h
  cases congrArg (fun x => (ofLex (ofLex x).2).1) h
  cases congrArg (fun x => (ofLex (ofLex x).2).2) h
  rfl

instance : LinearOrder PmUnresolvedFillKey :=
  LinearOrder.lift' PmUnresolvedFillKey.rank PmUnresolvedFillKey.rank_injective

/-- Why it is unresolved. -/
inductive PmUnresolvedFillReason where
  | missingExactOrderLinkage
  | multipleOrderReferenceKinds
  | missingDirectOrderRole
  | missingLocalMakerOrderProof
  | externalMakerOrder
  deriving DecidableEq, Repr

/-- A fill to be resolved. -/
structure PmUnresolvedFillObservation where
  source : PmProductSource
  account : PmAccountHandle
  instrument : PmInstrumentHandle
  key : PmUnresolvedFillKey
  reason : PmUnresolvedFillReason
  settlement : PmFillSettlementStatus
  account_source : validateAccountSource source account = .ok ()
  exact_account : ∀ order ∈ key.exactOrder, order.account = account

instance : PmSourceBound PmUnresolvedFillObservation := ⟨PmUnresolvedFillObservation.source⟩

/-- What a report did. -/
inductive PmUnresolvedFillApply where
  | inserted (key : PmUnresolvedFillKey)
  | settlementAdvanced (key : PmUnresolvedFillKey) (settlement : PmFillSettlementStatus)
  | duplicate (key : PmUnresolvedFillKey)
  | ignoredStale (key : PmUnresolvedFillKey)
  deriving DecidableEq

/-- What is counted. -/
structure PmUnresolvedFillCounters where
  insertions : UInt64 := 0
  settlementUpdates : UInt64 := 0
  duplicates : UInt64 := 0
  stale : UInt64 := 0
  conflicts : UInt64 := 0
  capacityFailures : UInt64 := 0
  reconciled : UInt64 := 0
  deriving DecidableEq

/-- Why a fill is refused. -/
inductive PmUnresolvedFillStateError where
  | accountSourceMismatch
  | exactOrderAccountMismatch
  | scopeMismatch
  | conflict
  | capacity
  deriving DecidableEq, Repr

/-- `Entry`: one unresolved fill. -/
structure UnresolvedEntry where
  observation : PmUnresolvedFillObservation
  firstOccurrence : PmPrivateOccurrence
  lastOccurrence : PmPrivateOccurrence
  coveredByReconciliation : Option PmPrivateOccurrence

namespace UnresolvedEntry

variable (entry : UnresolvedEntry)

/-- The key that the entries are sorted by. -/
def unresolvedKey : Option PmUnresolvedFillKey := some entry.observation.key

/-- `PmUnresolvedFillProjection::is_active`. -/
def isActive : Bool :=
  match entry.coveredByReconciliation with
  | some covered => decide (covered < entry.lastOccurrence)
  | none => true

/-- The entry is covered by a reconciliation that was requested after it. -/
def coveredThrough (request completion : PmPrivateOccurrence) : UnresolvedEntry :=
  if entry.isActive = true ∧ entry.lastOccurrence ≤ request then
    { entry with coveredByReconciliation := some completion }
  else entry

end UnresolvedEntry

/-- `PmUnresolvedFillState`. -/
structure PmUnresolvedFillState where
  entries : List UnresolvedEntry
  observedMonotonicNs : Option UInt64
  counters : PmUnresolvedFillCounters

namespace PmUnresolvedFillState

/-! ### Calls -/

section

variable (s : PmUnresolvedFillState)

/-- How a call ends. -/
abbrev Reply := Outcome PmUnresolvedFillStateError

/-- `new`. -/
def new : PmUnresolvedFillState := ⟨[], none, {}⟩

/-- The state with its counters changed. -/
def count (f : PmUnresolvedFillCounters → PmUnresolvedFillCounters) : PmUnresolvedFillState :=
  { s with counters := f s.counters }

/-- `search`. -/
def search (key : PmUnresolvedFillKey) : Option (Except ℕ ℕ) :=
  binarySearchByKey UnresolvedEntry.unresolvedKey key s.entries

/-- `insert`. -/
def insert (index : ℕ) (observation : PmUnresolvedFillObservation)
    (occurrence : PmPrivateOccurrence) : Reply PmUnresolvedFillApply × PmUnresolvedFillState :=
  if s.entries.length = maxPmUnresolvedFills then
    (.err .capacity, s.count fun c => { c with capacityFailures := bump c.capacityFailures })
  else
  match insertAt s.entries index ⟨observation, occurrence, occurrence, none⟩ with
  | none => (.panic, s)
  | some entries =>
    (.ok (.inserted observation.key), { s with entries := entries }.count fun c =>
      { c with insertions := bump c.insertions })

/-- `enrich`. -/
def enrich (index : ℕ) (observation : PmUnresolvedFillObservation)
    (occurrence : PmPrivateOccurrence) : Reply PmUnresolvedFillApply × PmUnresolvedFillState :=
  match s.entries[index]? with
  | none => (.panic, s)
  | some prior =>
  let key := prior.observation.key
  if occurrence < prior.lastOccurrence then
    (.ok (.ignoredStale key), s.count fun c => { c with stale := bump c.stale })
  else if prior.observation.source ≠ observation.source ∨
      prior.observation.account ≠ observation.account ∨
      prior.observation.instrument ≠ observation.instrument ∨
      prior.observation.reason ≠ observation.reason then
    (.err .conflict, s.count fun c => { c with conflicts := bump c.conflicts })
  else
  match settlementTransition prior.observation.settlement observation.settlement with
  | .error _ => (.err .conflict, s.count fun c => { c with conflicts := bump c.conflicts })
  | .ok none => (.ok (.duplicate key), s.count fun c => { c with duplicates := bump c.duplicates })
  | .ok (some settlement) =>
    let entry := { prior with
      observation := { prior.observation with settlement := settlement }
      lastOccurrence := occurrence }
    (.ok (.settlementAdvanced key settlement),
      { s with entries := s.entries.set index entry }.count fun c =>
        { c with settlementUpdates := bump c.settlementUpdates })

/-- `observe`. -/
def observe (config : PmPrivateStateConfig) (envelope : EventEnvelope PmUnresolvedFillObservation) :
    Reply PmUnresolvedFillApply × PmUnresolvedFillState :=
  let observation := envelope.payload
  if envelope.source ≠ config.source ∨ observation.source ≠ config.source ∨
      observation.account ≠ config.account ∨ observation.instrument ≠ config.instrument then
    (.err .scopeMismatch, s)
  else
  let s := { s with observedMonotonicNs := some envelope.monotonicServiceNs }
  match s.search observation.key with
  | none => (.panic, s)
  | some (.ok index) => s.enrich index observation envelope.occurrence
  | some (.error index) => s.insert index observation envelope.occurrence

/-- `cover_through`. -/
def coverThrough (request completion : PmPrivateOccurrence) : PmUnresolvedFillState :=
  let covered := s.entries.countP fun entry =>
    entry.isActive && decide (entry.lastOccurrence ≤ request)
  let entries := s.entries.map fun entry => entry.coveredThrough request completion
  { s with entries := entries }.count fun c =>
    { c with reconciled := saturatingAdd c.reconciled covered }

/-- `first_active`. -/
def firstActive : Option UnresolvedEntry :=
  s.entries.find? (·.isActive)

/-- `active_count`, which aborts if the number does not fit. -/
def activeCount : Option UInt16 :=
  let n := (s.entries.filter (·.isActive)).length
  if n < 2 ^ 16 then some (UInt16.ofNat n) else none

/-! ### The unresolved fills stay in order -/

/-- The unresolved fills are sorted by key, and there are not too many. -/
structure Ordered (s : PmUnresolvedFillState) : Prop where
  sorted : s.entries.Pairwise (KeyLt UnresolvedEntry.unresolvedKey)
  length_le : s.entries.length ≤ maxPmUnresolvedFills

end

theorem ordered_new : new.Ordered := ⟨.nil, Nat.zero_le _⟩

variable {s : PmUnresolvedFillState}

section

variable (h : s.Ordered)

include h

theorem Ordered.of_entries {t : PmUnresolvedFillState} (ht : t.entries = s.entries) :
    t.Ordered := ⟨ht ▸ h.sorted, ht ▸ h.length_le⟩

theorem insert_spec {p : ℕ} {observation : PmUnresolvedFillObservation}
    (occurrence : PmPrivateOccurrence)
    (hspl : Splits UnresolvedEntry.unresolvedKey observation.key s.entries p) :
    (s.insert p observation occurrence).1 ≠ .panic ∧
      (s.insert p observation occurrence).2.Ordered := by
  unfold insert
  by_cases hfull : s.entries.length = maxPmUnresolvedFills
  · rw [if_pos hfull]
    exact ⟨by rintro ⟨⟩, h.of_entries rfl⟩
  · rw [if_neg hfull]
    simp only [insertAt, if_pos hspl.le_length]
    refine ⟨by rintro ⟨⟩, hspl.pairwise_insertIdx h.sorted rfl, ?_⟩
    show (s.entries.insertIdx p _).length ≤ _
    rw [List.length_insertIdx_of_le_length hspl.le_length]
    exact lt_of_le_of_ne h.length_le hfull

theorem enrich_spec {i : ℕ} {prior : UnresolvedEntry}
    (observation : PmUnresolvedFillObservation) (occurrence : PmPrivateOccurrence)
    (hpr : s.entries[i]? = some prior) : (s.enrich i observation occurrence).1 ≠ .panic ∧
      (s.enrich i observation occurrence).2.Ordered := by
  unfold enrich
  simp only [hpr]
  split_ifs
  · exact ⟨nofun, h.of_entries rfl⟩
  · exact ⟨nofun, h.of_entries rfl⟩
  split
  · exact ⟨nofun, h.of_entries rfl⟩
  · exact ⟨nofun, h.of_entries rfl⟩
  · refine ⟨nofun, pairwise_keyLt_set h.sorted hpr rfl, ?_⟩
    show (s.entries.set i _).length ≤ _
    rw [List.length_set]
    exact h.length_le

/-- **An observation** does not abort. -/
theorem observe_spec (config : PmPrivateStateConfig)
    (envelope : EventEnvelope PmUnresolvedFillObservation) :
    (s.observe config envelope).1 ≠ .panic ∧ (s.observe config envelope).2.Ordered := by
  unfold observe
  simp only
  split_ifs
  · exact ⟨nofun, h⟩
  have hs : { s with observedMonotonicNs := some envelope.monotonicServiceNs }.Ordered :=
    h.of_entries rfl
  rcases binarySearchByKey_cases hs.sorted (fun entry _ => ⟨entry.observation.key, rfl⟩)
    envelope.payload.key with ⟨i, entry, hfou, hent, -⟩ | ⟨p, hmis, hspl⟩
  · simp only [search, hfou]
    exact enrich_spec hs envelope.payload envelope.occurrence hent
  · simp only [search, hmis]
    exact insert_spec hs envelope.occurrence hspl

theorem coverThrough_ordered (request completion : PmPrivateOccurrence) :
    (s.coverThrough request completion).Ordered := by
  have hkey : ∀ entry : UnresolvedEntry,
      (entry.coveredThrough request completion).unresolvedKey = entry.unresolvedKey := by
    intro entry
    unfold UnresolvedEntry.coveredThrough
    split_ifs <;> rfl
  refine ⟨List.pairwise_map.mpr (h.sorted.imp ?_), ?_⟩
  · rintro a b ⟨x, y, hx, hy, hlt⟩
    exact ⟨x, y, (hkey a).trans hx, (hkey b).trans hy, hlt⟩
  · show (s.entries.map _).length ≤ _
    rw [List.length_map]
    exact h.length_le

/-- The active unresolved fills can be counted. -/
theorem exists_activeCount :
    ∃ n, s.activeCount = some n ∧ n.toNat = (s.entries.filter (·.isActive)).length ∧
      n.toNat ≤ maxPmUnresolvedFills := by
  have hle : (s.entries.filter (·.isActive)).length ≤ maxPmUnresolvedFills :=
    (List.length_filter_le _ _).trans h.length_le
  have hlt : (s.entries.filter (·.isActive)).length < 2 ^ 16 := lt_of_le_of_lt hle (by decide)
  refine ⟨_, if_pos hlt, ?_, ?_⟩ <;>
    rw [UInt16.toNat_ofNat_of_lt' hlt]
  exact hle

end

end PmUnresolvedFillState

end Reap.Private
