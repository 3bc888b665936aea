import Reap.Base.DenseIndex
import Reap.Base.Run
import Reap.Core.Reconciliation

/-!
# Refresh obligations

What has to be read again before the private state can be trusted, and why. A requirement is kept
under its key until a read that was admitted for it completes; a requirement that arrives while
such a read is in flight gets a new generation and survives it. When there is no room for a key,
everything has to be reconciled.

## What is proved

* `require_spec`, `markAdmitted_spec`, `complete_spec` — no call aborts, and the obligations stay
  sorted and bounded.
-/

namespace Reap.Private

open Base Reap.Core

/-- At most this many. -/
def maxPmRefreshObligations : ℕ := 128

/-! ### Data -/

/-- The owner that issued a ticket. -/
structure PmRefreshOwnerId where
  value : UInt64
  deriving DecidableEq

/-- `PmRefreshReason`. -/
inductive PmRefreshReason where
  | privateReconnect
  | fillObserved
  | fillFeeUnknown
  | fillConflict
  | fillSettlementRetrying
  | fillSettlementFailed
  | unresolvedFill
  | unmanagedOrder
  | ambiguousOrder
  | missingOrderDetail
  | accountSnapshotStale
  | accountDivergence
  | positionUnavailable
  | allowanceUnavailable
  | externalIngressFault
  | stateCapacity
  | riskBreach
  deriving DecidableEq, Repr

/-- The place of a reason in the derived order. -/
def PmRefreshReason.index : PmRefreshReason → ℕ
  | .privateReconnect => 0
  | .fillObserved => 1
  | .fillFeeUnknown => 2
  | .fillConflict => 3
  | .fillSettlementRetrying => 4
  | .fillSettlementFailed => 5
  | .unresolvedFill => 6
  | .unmanagedOrder => 7
  | .ambiguousOrder => 8
  | .missingOrderDetail => 9
  | .accountSnapshotStale => 10
  | .accountDivergence => 11
  | .positionUnavailable => 12
  | .allowanceUnavailable => 13
  | .externalIngressFault => 14
  | .stateCapacity => 15
  | .riskBreach => 16

theorem PmRefreshReason.index_injective : Function.Injective PmRefreshReason.index := by
  intro a b h
  cases a <;> cases b <;> first | rfl | cases h

/-- `PmRefreshKey`. -/
structure PmRefreshKey where
  account : PmAccountHandle
  instrument : PmInstrumentHandle
  reason : PmRefreshReason
  deriving DecidableEq

/-- Account, market, token and reason, in this order. -/
def PmRefreshKey.rank (key : PmRefreshKey) :
    PmAccountHandle ×ₗ PmMarketHandle ×ₗ PmTokenHandle ×ₗ ℕ :=
  toLex (key.account, toLex (key.instrument.market, toLex (key.instrument.token, key.reason.index)))

theorem PmRefreshKey.rank_injective : Function.Injective PmRefreshKey.rank := by
  rintro ⟨a, ⟨m, t⟩, r⟩ ⟨b, ⟨n, u⟩, q⟩ h
  cases congrArg (fun x => (ofLex x).1) h
  cases congrArg (fun x => (ofLex (ofLex x).2).1) h
  cases congrArg (fun x => (ofLex (ofLex (ofLex x).2).2).1) h
  cases PmRefreshReason.index_injective (congrArg (fun x => (ofLex (ofLex (ofLex x).2).2).2) h)
  rfl

instance : LinearOrder PmRefreshKey := LinearOrder.lift' PmRefreshKey.rank PmRefreshKey.rank_injective

/-- `PmRefreshGeneration`. -/
structure PmRefreshGeneration where
  value : UInt64
  deriving DecidableEq

/-- `PmRefreshTicket`. -/
structure PmRefreshTicket where
  owner : PmRefreshOwnerId
  key : PmRefreshKey
  generation : PmRefreshGeneration
  deriving DecidableEq

/-- `PmRefreshRequired`. -/
inductive PmRefreshRequired where
  | inserted (ticket : PmRefreshTicket)
  | alreadyRequired (ticket : PmRefreshTicket)
  | supersededInFlight (required inFlight : PmRefreshTicket)
  | saturated (key : PmRefreshKey)
  deriving DecidableEq

/-- `PmRefreshAdmission`. -/
inductive PmRefreshAdmission where
  | admitted (ticket : PmRefreshTicket)
  | alreadyInFlight (ticket : PmRefreshTicket)
  | notRequired (key : PmRefreshKey)
  | stale (ticket : PmRefreshTicket)
  deriving DecidableEq

/-- `PmRefreshCompletion`. -/
inductive PmRefreshCompletion where
  | cleared (ticket : PmRefreshTicket)
  | newerRequirementRetained (completed required : PmRefreshTicket)
  | stale (ticket : PmRefreshTicket)
  deriving DecidableEq

/-- `PmRefreshCounters`. -/
structure PmRefreshCounters where
  requirements : UInt64 := 0
  deduplicated : UInt64 := 0
  supersededInFlight : UInt64 := 0
  admissions : UInt64 := 0
  completions : UInt64 := 0
  staleCompletions : UInt64 := 0
  saturations : UInt64 := 0
  highWater : ℕ := 0
  deriving DecidableEq

/-- `PmRefreshError`. -/
inductive PmRefreshError where
  | ownerIdentityExhausted
  | generationExhausted
  deriving DecidableEq, Repr

/-- `PmRefreshEntry`. -/
structure PmRefreshEntry where
  key : PmRefreshKey
  requiredGeneration : PmRefreshGeneration
  inFlightGeneration : Option PmRefreshGeneration
  deriving DecidableEq

namespace PmRefreshEntry

variable (entry : PmRefreshEntry)

/-- The key that the entries are sorted by. -/
def refreshKey : Option PmRefreshKey := some entry.key

/-- `required_ticket`. -/
def requiredTicket (owner : PmRefreshOwnerId) : PmRefreshTicket :=
  ⟨owner, entry.key, entry.requiredGeneration⟩

/-- `in_flight_ticket`. -/
def inFlightTicket (owner : PmRefreshOwnerId) : Option PmRefreshTicket :=
  entry.inFlightGeneration.map fun generation => ⟨owner, entry.key, generation⟩

end PmRefreshEntry

/-- `PmRefreshState`. The source keeps the entries in the first places of a fixed array; the list
is that prefix. -/
structure PmRefreshState where
  owner : PmRefreshOwnerId
  entries : List PmRefreshEntry
  nextGeneration : UInt64
  fullReconcileRequired : Bool
  counters : PmRefreshCounters
  deriving DecidableEq

namespace PmRefreshState

/-! ### Calls -/

section

variable (s : PmRefreshState) (key : PmRefreshKey) (ticket : PmRefreshTicket)

/-- How a call of the refresh state ends. -/
abbrev Reply := Outcome PmRefreshError

/-- `new`. -/
def new (owner : PmRefreshOwnerId) : PmRefreshState := ⟨owner, [], 1, false, {}⟩

/-- The state with its counters changed. -/
def count (f : PmRefreshCounters → PmRefreshCounters) : PmRefreshState :=
  { s with counters := f s.counters }

/-- `search`. -/
def search : Option (Except ℕ ℕ) :=
  binarySearchByKey PmRefreshEntry.refreshKey key s.entries

/-- `issue_generation`. -/
def issueGeneration : Reply PmRefreshGeneration × PmRefreshState :=
  if s.nextGeneration = 0xFFFFFFFFFFFFFFFF then
    (.err .generationExhausted, { s with fullReconcileRequired := true })
  else (.ok ⟨s.nextGeneration⟩, { s with nextGeneration := s.nextGeneration + 1 })

/-- A requirement for a key that is already there. -/
def requireAgain (index : ℕ) : Reply PmRefreshRequired × PmRefreshState :=
  match s.entries[index]? with
  | none => (.panic, s)
  | some entry =>
    match entry.inFlightTicket s.owner with
    | some inFlight => Outcome.andThen s.issueGeneration fun generation s =>
      let updated := { entry with requiredGeneration := generation }
      (.ok (.supersededInFlight (updated.requiredTicket s.owner) inFlight),
        { s with entries := s.entries.set index updated }.count fun c =>
          { c with supersededInFlight := bump c.supersededInFlight })
    | none =>
      (.ok (.alreadyRequired (entry.requiredTicket s.owner)),
        s.count fun c => { c with deduplicated := bump c.deduplicated })

/-- A requirement for a key that is not there. -/
def requireNew (index : ℕ) : Reply PmRefreshRequired × PmRefreshState :=
  if s.entries.length < maxPmRefreshObligations then
    Outcome.andThen s.issueGeneration fun generation s =>
      let entry : PmRefreshEntry := ⟨key, generation, none⟩
      match insertAt s.entries index entry with
      | none => (.panic, s)
      | some entries =>
        (.ok (.inserted (entry.requiredTicket s.owner)),
          { s with entries := entries }.count fun c =>
            { c with highWater := max c.highWater entries.length })
  else
    (.ok (.saturated key), { s with fullReconcileRequired := true }.count fun c =>
      { c with saturations := bump c.saturations })

/-- `require`. -/
def require : Reply PmRefreshRequired × PmRefreshState :=
  let s := s.count fun c => { c with requirements := bump c.requirements }
  match s.search key with
  | none => (.panic, s)
  | some (.ok index) => s.requireAgain index
  | some (.error index) => s.requireNew key index

/-- `mark_admitted`. -/
def markAdmitted : Reply PmRefreshAdmission × PmRefreshState :=
  if ticket.owner ≠ s.owner then (.ok (.stale ticket), s)
  else
  match s.search ticket.key with
  | none => (.panic, s)
  | some (.error _) => (.ok (.notRequired ticket.key), s)
  | some (.ok index) =>
  match s.entries[index]? with
  | none => (.panic, s)
  | some entry =>
    if entry.requiredGeneration ≠ ticket.generation then (.ok (.stale ticket), s)
    else
    match entry.inFlightTicket s.owner with
    | some inFlight => (.ok (.alreadyInFlight inFlight), s)
    | none =>
      let entry := { entry with inFlightGeneration := some entry.requiredGeneration }
      (.ok (.admitted (entry.requiredTicket s.owner)),
        { s with entries := s.entries.set index entry }.count fun c =>
          { c with admissions := bump c.admissions })

/-- A completion that is not for the read in flight. -/
def completeStale : Reply PmRefreshCompletion × PmRefreshState :=
  (.ok (.stale ticket), s.count fun c => { c with staleCompletions := bump c.staleCompletions })

/-- `complete`. -/
def complete : Reply PmRefreshCompletion × PmRefreshState :=
  if ticket.owner ≠ s.owner then s.completeStale ticket
  else
  match s.search ticket.key with
  | none => (.panic, s)
  | some (.error _) => s.completeStale ticket
  | some (.ok index) =>
  match s.entries[index]? with
  | none => (.panic, s)
  | some entry =>
    if entry.inFlightGeneration ≠ some ticket.generation then s.completeStale ticket
    else
    let s := s.count fun c => { c with completions := bump c.completions }
    if entry.requiredGeneration = ticket.generation then
      (.ok (.cleared ticket), { s with entries := s.entries.eraseIdx index })
    else
      let entry := { entry with inFlightGeneration := none }
      (.ok (.newerRequirementRetained ticket (entry.requiredTicket s.owner)),
        { s with entries := s.entries.set index entry })

/-- All is reconciled. -/
def completeFullReconciliation : PmRefreshState :=
  { s with fullReconcileRequired := false }

/-! ### The obligations stay in order -/

/-- The obligations are sorted by key, and there are not too many. -/
structure Ordered (s : PmRefreshState) : Prop where
  sorted : s.entries.Pairwise (KeyLt PmRefreshEntry.refreshKey)
  length_le : s.entries.length ≤ maxPmRefreshObligations

end

theorem ordered_new (owner : PmRefreshOwnerId) : (new owner).Ordered := ⟨.nil, Nat.zero_le _⟩

/-- How a call ends: it does not abort, and keeps the obligations in order. -/
def Orderly {α : Type} (result : Reply α × PmRefreshState) : Prop :=
  result.1 ≠ .panic ∧ result.2.Ordered

variable {s : PmRefreshState}

section

variable (h : s.Ordered)

include h

variable {t : PmRefreshState}

theorem Ordered.of_entries (ht : t.entries = s.entries) :
    t.Ordered := ⟨ht ▸ h.sorted, ht ▸ h.length_le⟩

theorem Ordered.search_cases (key : PmRefreshKey) :
    (∃ i entry, s.search key = some (.ok i) ∧ s.entries[i]? = some entry ∧ entry.key = key) ∨
    (∃ p, s.search key = some (.error p) ∧ Splits PmRefreshEntry.refreshKey key s.entries p) :=
  binarySearchByKey_total h.sorted key

theorem Ordered.set {i : ℕ} {prior entry : PmRefreshEntry} (hpr : s.entries[i]? = some prior)
    (ht : t.entries = s.entries.set i entry) (hkey : entry.key = prior.key) : t.Ordered := by
  refine ⟨?_, ?_⟩
  · rw [ht]
    exact pairwise_keyLt_set h.sorted hpr (congrArg some hkey)
  · rw [ht, List.length_set]
    exact h.length_le

omit h in
theorem issueGeneration_entries (s : PmRefreshState) :
    s.issueGeneration.1 ≠ .panic ∧ s.issueGeneration.2.entries = s.entries := by
  unfold issueGeneration
  split_ifs <;> exact ⟨nofun, rfl⟩

/-- What follows a new generation keeps the obligations in order, if it does so from every state
with these obligations. -/
theorem orderly_issueGeneration {α : Type}
    {rest : PmRefreshGeneration → PmRefreshState → Reply α × PmRefreshState}
    (hrest : ∀ generation t, t.entries = s.entries → Orderly (rest generation t)) :
    Orderly (Outcome.andThen s.issueGeneration rest) := by
  obtain ⟨hpan, hents⟩ := issueGeneration_entries s
  generalize s.issueGeneration = result at hpan hents
  obtain ⟨generation | error | _, t⟩ := result
  · exact hrest generation t hents
  · exact ⟨nofun, h.of_entries hents⟩
  · exact absurd rfl hpan

theorem requireAgain_spec {i : ℕ} {entry : PmRefreshEntry}
    (hent : s.entries[i]? = some entry) : Orderly (s.requireAgain i) := by
  unfold requireAgain
  simp only [hent]
  split
  · refine orderly_issueGeneration h fun generation t ht => ⟨nofun, ?_⟩
    have hord : t.Ordered := h.of_entries ht
    have ht' : t.entries[i]? = some entry := ht ▸ hent
    exact hord.set ht' rfl rfl
  · exact ⟨nofun, h.of_entries rfl⟩

theorem requireNew_spec {key : PmRefreshKey} {p : ℕ}
    (hspl : Splits PmRefreshEntry.refreshKey key s.entries p) : Orderly (s.requireNew key p) := by
  unfold requireNew
  by_cases hroom : s.entries.length < maxPmRefreshObligations
  · rw [if_pos hroom]
    refine orderly_issueGeneration h fun generation t ht => ?_
    simp only [ht, insertAt, if_pos hspl.le_length]
    refine ⟨nofun, hspl.pairwise_insertIdx h.sorted rfl, ?_⟩
    show (s.entries.insertIdx p _).length ≤ _
    rw [List.length_insertIdx_of_le_length hspl.le_length]
    exact hroom
  · rw [if_neg hroom]
    exact ⟨nofun, h.of_entries rfl⟩

/-- **A requirement** does not abort. -/
theorem require_spec (key : PmRefreshKey) : Orderly (s.require key) := by
  have hcnt : (s.count fun c => { c with requirements := bump c.requirements }).Ordered :=
    h.of_entries rfl
  unfold require
  rcases hcnt.search_cases key with ⟨i, entry, hfou, hent, -⟩ | ⟨p, hmis, hspl⟩
  · simp only [hfou]
    exact requireAgain_spec hcnt hent
  · simp only [hmis]
    exact requireNew_spec hcnt hspl

/-- **An admission** does not abort. -/
theorem markAdmitted_spec (ticket : PmRefreshTicket) : Orderly (s.markAdmitted ticket) := by
  unfold markAdmitted
  split_ifs with hown
  · exact ⟨nofun, h⟩
  rcases h.search_cases ticket.key with ⟨i, entry, hfou, hent, -⟩ | ⟨p, hmis, -⟩
  · simp only [hfou, hent]
    split_ifs
    · exact ⟨nofun, h⟩
    split
    · exact ⟨nofun, h⟩
    · exact ⟨nofun, h.set hent rfl rfl⟩
  · simp only [hmis]
    exact ⟨nofun, h⟩

/-- **A completion** does not abort. -/
theorem complete_spec (ticket : PmRefreshTicket) : Orderly (s.complete ticket) := by
  have hsta : Orderly (s.completeStale ticket) := ⟨nofun, h.of_entries rfl⟩
  unfold complete
  split_ifs with hown
  · exact hsta
  rcases h.search_cases ticket.key with ⟨i, entry, hfou, hent, -⟩ | ⟨p, hmis, -⟩
  · simp only [hfou, hent]
    split_ifs
    · exact hsta
    · refine ⟨nofun, h.sorted.sublist (List.eraseIdx_sublist ..), ?_⟩
      exact ((List.eraseIdx_sublist ..).length_le).trans h.length_le
    · exact ⟨nofun, h.set hent rfl rfl⟩
  · simp only [hmis]
    exact hsta

end

end PmRefreshState

end Reap.Private
