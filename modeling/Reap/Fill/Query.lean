import Reap.Fill.Step

/-!
# Reconciliation with a complete fill query

`preflight_query` looks at every row of a query before any is applied, and at the fills as they
were before the first; `apply_preflighted_query` applies the rows one after the other. That the
first is enough for the second rests on the rows having different keys: applying one leaves the
fills under the other keys as they were.

## What is proved

* `applyRows_spec` — the rows of a preflighted query are all applied, and what needs
  reconciliation afterwards is what the query leaves uncovered.
* `preflightQuery_spec` — a preflight does not abort and changes neither fills nor deltas.
* `applyPreflightedQuery_spec` — after it, the deltas are those of the remaining fills: the sum
  was already computed by the preflight.
-/

namespace Reap.Fill

open Base Reap.Core Outcome FillEntry List Nat
open Reap.Owned (PmOwnedObservationOccurrence PmOwnedReductionSequence)
open PmFillState

variable {config : PmPrivateStateConfig}

/-! ### The listed keys -/

variable {keys : List PmFillKey} {entries : List FillEntry} {i : ℕ} {key : PmFillKey}
  {request : PmPrivateOccurrence} {s : PmFillState}

theorem pairwise_keyLt_sorted_keys (h : keys.Nodup) :
    (keys.insertionSort (· ≤ ·)).Pairwise (KeyLt some) := by
  have hsort := pairwise_insertionSort (· ≤ ·) keys
  have hdis : (keys.insertionSort (· ≤ ·)).Nodup :=
    (perm_insertionSort (· ≤ ·) keys).nodup_iff.mpr h
  refine (hsort.and hdis).imp ?_
  rintro a b ⟨hle, hne⟩
  exact ⟨a, b, rfl, rfl, lt_of_le_of_ne hle hne⟩

/-- The search in the sorted keys decides whether the query lists a key. -/
theorem isListed_insertionSort (h : keys.Nodup) (key : PmFillKey) :
    isListed (keys.insertionSort (· ≤ ·)) key = decide (key ∈ keys) := by
  unfold isListed
  rcases binarySearchByKey_cases (pairwise_keyLt_sorted_keys h) (fun k _ => ⟨k, rfl⟩) key with
    ⟨i, k, hfou, hk, hkey⟩ | ⟨p, hmis, hspl⟩
  · cases hkey
    have hmem : key ∈ keys := (mem_insertionSort _).mp (mem_of_getElem? hk)
    simp [hfou, hmem]
  · have hmem : key ∉ keys := fun hin =>
      hspl.key_ne ((mem_insertionSort (· ≤ ·)).mpr hin) rfl
    simp [hmis, hmem]

/-! ### Rows -/

/-- The fill under the row's key, unless it was observed after the request, may still advance to
what the row says. -/
def RowFits (config : PmPrivateStateConfig) (request : PmPrivateOccurrence)
    (entries : List FillEntry) (fill : PmFillEvent) : Prop :=
  ∀ entry ∈ entries, entry.key = fill.fillKey →
    occurrenceAfterPrivateCut entry.lastOccurrence request = false →
      (∃ fee, feeTransition entry.fee (feeState config fill.execution.fee) = .ok fee) ∧
        ∃ settlement,
          settlementTransition entry.settlement fill.execution.settlement = .ok settlement

/-- The fill needs reconciliation and none of the rows with these keys covers it. -/
def leftUncovered (request : PmPrivateOccurrence) (keys : List PmFillKey) (entry : FillEntry) :
    Bool :=
  entry.needsReconciliation &&
    (occurrenceAfterPrivateCut entry.lastOccurrence request || decide (entry.key ∉ keys))

/-- What the rows with these keys have done to the fills. -/
structure RowsApplied (config : PmPrivateStateConfig) (request : PmPrivateOccurrence)
    (keys : List PmFillKey) (entries next : List FillEntry) : Prop where
  stored : Stored config next
  /-- The fills under other keys are the same. -/
  others : ∀ entry : FillEntry, entry.key ∉ keys → (entry ∈ next ↔ entry ∈ entries)
  /-- What needs reconciliation is what was left uncovered. -/
  remaining : next.filter needsReconciliation = entries.filter (leftUncovered request keys)
  length : next.length = entries.length + keys.countP fun key => decide (key ∉ entries.map FillEntry.key)

variable {completion : PmPrivateOccurrence} {fill : PmFillEvent}

theorem needsReconciliation_queried (event : PmFillEvent)
    (first last : PmOwnedObservationOccurrence) (h : last.privateOccurrence = some completion) :
    (queried config event first last completion).needsReconciliation = false := by
  simp [needsReconciliation, queried, h]

theorem mem_keys_of_getElem? {entry : FillEntry} (h : entries[i]? = some entry) :
    entry.key ∈ entries.map FillEntry.key :=
  mem_map_of_mem (mem_of_getElem? h)

theorem not_mem_keys_of_splits {p : ℕ} (h : Splits fillKey key entries p) :
    key ∉ entries.map FillEntry.key := by
  intro hmem
  obtain ⟨entry, hent, rfl⟩ := mem_map.mp hmem
  exact h.key_ne hent rfl

/-- A row whose key is new is inserted. -/
theorem rowsApplied_insert (h : Stored config entries) (entry : FillEntry) {p : ℕ}
    (hspl : Splits fillKey entry.key entries p)
    (hroom : entries.length < maxPmPrivateFills) (hent : entry.Consistent config)
    (hcov : entry.needsReconciliation = false) :
    RowsApplied config request [entry.key] entries (entries.insertIdx p entry) where
  stored := h.insert hspl hroom hent
  others := by
    intro other hoth
    rw [mem_insertIdx hspl.le_length]
    refine ⟨fun hmem => hmem.resolve_left ?_, .inr⟩
    rintro rfl
    exact hoth (.head _)
  remaining := by
    rw [filter_insertIdx_of_neg hcov]
    refine filter_congr fun other hoth => ?_
    have hne : other.key ≠ entry.key := fun he => hspl.key_ne hoth (congrArg some he)
    simp [leftUncovered, hne]
  length := by
    rw [length_insertIdx_of_le_length hspl.le_length,
      countP_cons_of_pos (by simpa using not_mem_keys_of_splits hspl), countP_nil]

section

variable {prior : FillEntry} (h : Stored config entries) (hpr : entries[i]? = some prior)

include h hpr

/-- A row whose key is known replaces the fill, unless it was observed after the request. -/
theorem rowsApplied_set {entry : FillEntry}
    (hbef : occurrenceAfterPrivateCut prior.lastOccurrence request = false)
    (hkey : entry.key = prior.key) (hent : entry.Consistent config)
    (hcov : entry.needsReconciliation = false) :
    RowsApplied config request [prior.key] entries (entries.set i entry) where
  stored := h.set entry hpr hkey hent
  others := by
    intro other hoth
    have hne : other.key ≠ prior.key := fun he => hoth (he ▸ (.head _))
    constructor
    · intro hmem
      rcases mem_or_eq_of_mem_set hmem with hmem | rfl
      · exact hmem
      · exact absurd hkey hne
    · intro hmem
      obtain ⟨j, hj⟩ := mem_iff_getElem?.mp hmem
      have hij : i ≠ j := by
        rintro rfl
        rw [hpr] at hj
        exact hne (congrArg key (Option.some.inj hj).symm)
      refine mem_of_getElem? (i := j) ?_
      rw [getElem?_set_ne hij]
      exact hj
  remaining := by
    refine filter_set_of_neg hpr hcov (by simp [leftUncovered, hbef]) ?_
    intro j other hj hoth
    have hne : other.key ≠ prior.key := fun he => hj (h.key_inj hoth hpr he)
    simp [leftUncovered, hne]
  length := by
    rw [length_set, countP_cons_of_neg (by simpa using mem_keys_of_getElem? hpr), countP_nil,
      add_zero]

/-- A row whose fill was observed after the request changes nothing. -/
theorem rowsApplied_skip (haft : occurrenceAfterPrivateCut prior.lastOccurrence request = true) :
    RowsApplied config request [prior.key] entries entries where
  stored := h
  others := fun _ _ => Iff.rfl
  remaining := by
    refine filter_congr fun other hoth => ?_
    by_cases hkey : other.key = prior.key
    · obtain ⟨j, hj⟩ := mem_iff_getElem?.mp hoth
      have hij := h.key_inj hj hpr hkey
      rw [hij, hpr] at hj
      cases hj
      simp [leftUncovered, haft]
    · simp [leftUncovered, hkey]
  length := by
    rw [countP_cons_of_neg (by simpa using mem_keys_of_getElem? hpr), countP_nil, add_zero]

end

/-- A row does not change which of the other keys are new. -/
theorem RowsApplied.countP_new {next : List FillEntry}
    (h : RowsApplied config request [key] entries next) (hkey : key ∉ keys) :
    (keys.countP fun k => decide (k ∉ next.map FillEntry.key)) =
      keys.countP fun k => decide (k ∉ entries.map FillEntry.key) := by
  have hsame : ∀ k ∈ keys, k ∈ next.map FillEntry.key ↔ k ∈ entries.map FillEntry.key := by
    intro k hk
    have hne : k ∉ [key] := fun hin => hkey (mem_singleton.mp hin ▸ hk)
    simp only [mem_map]
    refine exists_congr fun entry => and_congr_left ?_
    rintro rfl
    exact h.others entry hne
  exact countP_congr fun k hk => by simp [hsame k hk]

/-- One more row. -/
theorem RowsApplied.cons {next last : List FillEntry}
    (hrow : RowsApplied config request [key] entries next)
    (hrest : RowsApplied config request keys next last) (hkey : key ∉ keys) :
    RowsApplied config request (key :: keys) entries last where
  stored := hrest.stored
  others := by
    intro entry hent
    rw [hrest.others entry (fun hin => hent (.tail _ hin)),
      hrow.others entry (fun hin => hent (mem_singleton.mp hin ▸ (.head _)))]
  remaining := by
    have hnee : ∀ entry, (leftUncovered request keys entry && entry.needsReconciliation) =
        leftUncovered request keys entry := by
      intro entry
      cases hent : entry.needsReconciliation <;> simp [leftUncovered, hent]
    have hboth : ∀ entry, (leftUncovered request keys entry && leftUncovered request [key] entry) =
          leftUncovered request (key :: keys) entry := by
      intro entry
      cases haft : occurrenceAfterPrivateCut entry.lastOccurrence request
      · simp only [leftUncovered, haft, Bool.false_or, mem_cons, not_or,
          Bool.decide_and, not_mem_nil, not_false_eq_true, decide_true, Bool.and_true]
        rw [Bool.and_comm (decide (¬entry.key = key)), ← Bool.and_assoc]
        cases entry.needsReconciliation <;> simp
      · simp [leftUncovered, haft]
    calc last.filter needsReconciliation
      _ = next.filter (leftUncovered request keys) := hrest.remaining
      _ = (next.filter needsReconciliation).filter (leftUncovered request keys) := by
        simp [hnee]
      _ = (entries.filter (leftUncovered request [key])).filter (leftUncovered request keys) := by
        rw [hrow.remaining]
      _ = entries.filter (leftUncovered request (key :: keys)) := by
        simp [hboth]
  length := by
    rw [hrest.length, hrow.length, hrow.countP_new hkey, countP_cons, countP_cons, countP_nil]
    omega

section

variable (h : Stored config entries) (occurrence : PmOwnedObservationOccurrence)
  (completion : PmPrivateOccurrence) (revision : SnapshotRevision)

include h

/-- The rows of a query, once a sequence number has been taken for each. -/
theorem applyRow_spec {offset : ℕ} {sequence : PmOwnedReductionSequence}
    (hseq : rowSequence occurrence.reductionSequence offset = some sequence)
    (hroom : fill.fillKey ∉ entries.map FillEntry.key → entries.length < maxPmPrivateFills)
    (hfits : RowFits config request entries fill) :
    ∃ next, applyRow config occurrence request completion revision offset fill entries = .ok next ∧
      RowsApplied config request [fill.fillKey] entries next := by
  simp only [applyRow, hseq]
  rcases h.search_cases fill.fillKey with ⟨i, prior, hfou, hpr, hkey⟩ | ⟨p, hmis, hspl⟩
  · simp only [hfou, hpr]
    rw [← hkey]
    by_cases haft : occurrenceAfterPrivateCut prior.lastOccurrence request = true
    · rw [if_pos haft]
      exact ⟨entries, rfl, rowsApplied_skip h hpr haft⟩
    rw [if_neg haft]
    have hmem := mem_of_getElem? hpr
    obtain ⟨⟨fee, hfee⟩, settlement, hset⟩ := hfits prior hmem hkey (Bool.not_eq_true _ ▸ haft)
    obtain ⟨merged, hmer, hmerKey, -, -⟩ := (h.consistent prior hmem).exists_mergeEvent hfee hset
    simp only [hmer]
    exact ⟨_, rfl, rowsApplied_set h hpr (Bool.not_eq_true _ ▸ haft) hmerKey ⟨rfl, rfl⟩
      (needsReconciliation_queried _ _ _ rfl)⟩
  · simp only [hmis, insertAt, if_pos hspl.le_length, expect_some]
    have hspace := hroom (not_mem_keys_of_splits hspl)
    refine ⟨_, rfl, rowsApplied_insert h (.queried config fill _ _ completion) hspl
      hspace ⟨rfl, rfl⟩ (needsReconciliation_queried _ _ _ rfl)⟩

/-- **The rows of a query** that fit the fills are all applied, unless the sequence numbers run
out. -/
theorem applyRows_spec (offset : ℕ) {rows : List PmFillEvent} (hnd : (rows.map (·.fillKey)).Nodup)
    (hroom : entries.length + ((rows.map (·.fillKey)).countP fun key => decide (key ∉ entries.map FillEntry.key)) ≤ maxPmPrivateFills)
    (hfits : ∀ fill ∈ rows, RowFits config request entries fill) :
    ((∃ k < rows.length, rowSequence occurrence.reductionSequence (offset + k) = none) ∧
      (applyRows config occurrence request completion revision offset rows entries).1 = .panic) ∨
    ∃ next,
      applyRows config occurrence request completion revision offset rows entries = (.ok (), next) ∧
        RowsApplied config request (rows.map (·.fillKey)) entries next := by
  -- the rows still to come look at the fills under their own keys, which no earlier row touches
  induction rows generalizing entries offset with
  | nil =>
    refine .inr ⟨entries, rfl, h, fun _ _ => Iff.rfl, ?_, rfl⟩
    exact filter_congr fun entry _ => by simp [leftUncovered]
  | cons fill rest ih =>
    cases hseq : rowSequence occurrence.reductionSequence offset with
    | none =>
      refine .inl ⟨⟨0, succ_pos _, hseq⟩, ?_⟩
      simp [applyRows, applyRow, hseq]
    | some =>
    rw [map_cons, nodup_cons] at hnd
    rw [map_cons, countP_cons] at hroom
    have hspace : fill.fillKey ∉ entries.map key → entries.length < maxPmPrivateFills := by
      intro hnew
      rw [if_pos (by simpa using hnew)] at hroom
      omega
    obtain ⟨next, hrow, happ⟩ := applyRow_spec h occurrence completion revision hseq
      hspace (hfits fill (.head _))
    have hothKey : ∀ row ∈ rest, row.fillKey ∉ [fill.fillKey] := fun row hin hmem =>
      hnd.1 (mem_singleton.mp hmem ▸ mem_map_of_mem hin)
    have hresFit : ∀ row ∈ rest, RowFits config request next row := by
      intro row hin entry hent hkey
      have hent' := (happ.others entry (hkey ▸ hothKey row hin)).mp hent
      exact hfits row (.tail _ hin) entry hent' hkey
    have hresRoo : next.length + ((rest.map (·.fillKey)).countP fun key =>
        decide (key ∉ next.map FillEntry.key)) ≤ maxPmPrivateFills := by
      rw [happ.countP_new hnd.1, happ.length, countP_cons, countP_nil]
      omega
    rcases ih happ.stored (offset + 1) hnd.2 hresRoo hresFit with
      ⟨⟨k, hk, hnone⟩, hpan⟩ | ⟨last, hlast, hdone⟩
    · refine .inl ⟨⟨k + 1, succ_lt_succ hk, ?_⟩, ?_⟩
      · rw [← hnone, add_right_comm, add_assoc]
      · simp only [applyRows, hrow]
        exact hpan
    · refine .inr ⟨last, ?_, happ.cons hdone hnd.1⟩
      simp only [applyRows, hrow]
      exact hlast

end

/-! ### The preflight -/

section

variable (h : Stored config s.entries)

include h

/-- The preflight counts the new keys. -/
theorem countNew_eq (rows : List PmFillEvent) :
    s.countNew rows = .ok ((rows.map (·.fillKey)).countP fun key =>
      decide (key ∉ s.entries.map FillEntry.key)) := by
  induction rows with
  | nil => rfl
  | cons fill _ ih =>
    unfold countNew PmFillState.search
    rcases h.search_cases fill.fillKey with ⟨i, prior, hfou, hpr, hkey⟩ | ⟨p, hmis, hspl⟩
    · have hmem : fill.fillKey ∈ s.entries.map key := hkey ▸ mem_keys_of_getElem? hpr
      simp only [hfou, ih]
      rw [map_cons, countP_cons_of_neg (by simpa using hmem)]
    · simp only [hmis, ih]
      rw [map_cons, countP_cons_of_pos (by simpa using not_mem_keys_of_splits hspl)]
      rfl

section

variable (source : PmProductSource) (request : PmPrivateOccurrence)

theorem preflightRow_spec (fill : PmFillEvent) :
    s.preflightRow config source request fill ≠ .panic ∧
      (s.preflightRow config source request fill = .ok () →
        validateFill config fill source = .ok () ∧ RowFits config request s.entries fill) := by
  unfold preflightRow PmFillState.search
  cases hval : validateFill config fill source with
  | error => exact ⟨nofun, nofun⟩
  | ok =>
  rcases h.search_cases fill.fillKey with ⟨i, prior, hfou, hpr, hkey⟩ | ⟨p, hmis, hspl⟩
  · -- the fill under the row's key is the one that was found
    have honly : ∀ entry ∈ s.entries, entry.key = fill.fillKey → entry = prior := by
      intro entry hent hentKey
      obtain ⟨j, hj⟩ := mem_iff_getElem?.mp hent
      have hij := h.key_inj hj hpr (hentKey.trans hkey.symm)
      rw [hij, hpr] at hj
      exact (Option.some.inj hj).symm
    simp only [hfou, hpr, ofExcept_ok, ok_bind, Outcome.pure_eq_ok]
    cases validateSamePrincipal prior.event fill with
    | error => exact ⟨nofun, nofun⟩
    | ok =>
    by_cases haft : occurrenceAfterPrivateCut prior.lastOccurrence request = true
    · rw [if_pos haft]
      refine ⟨?_, fun _ => ⟨trivial, fun entry hent hentKey hbef => ?_⟩⟩
      · cases validateHistoricalFillCompatibility config fill prior.event <;> exact nofun
      · rw [honly entry hent hentKey, haft] at hbef
        cases hbef
    rw [if_neg haft]
    unfold validateFeeProgression
    cases hfee : feeTransition prior.fee (feeState config fill.execution.fee) with
    | error => exact ⟨nofun, nofun⟩
    | ok fee =>
    cases hset : settlementTransition prior.settlement fill.execution.settlement with
    | error => exact ⟨nofun, nofun⟩
    | ok settlement =>
      refine ⟨nofun, fun _ => ⟨trivial, fun entry hent hentKey _ => ?_⟩⟩
      rw [honly entry hent hentKey]
      exact ⟨⟨fee, hfee⟩, settlement, hset⟩
  · simp only [hmis, ofExcept_ok, ok_bind, Outcome.pure_eq_ok]
    refine ⟨nofun, fun _ => ⟨trivial, fun entry hent hkey => ?_⟩⟩
    exact absurd (congrArg some hkey) (hspl.key_ne hent)

theorem preflightRows_spec (rows : List PmFillEvent) :
    s.preflightRows config source request rows ≠ .panic ∧
      (s.preflightRows config source request rows = .ok () → ∀ fill ∈ rows,
        validateFill config fill source = .ok () ∧ RowFits config request s.entries fill) := by
  induction rows with
  | nil => exact ⟨nofun, fun _ _ hin => absurd hin not_mem_nil⟩
  | cons fill _ ih =>
    obtain ⟨hnop, hok⟩ := preflightRow_spec h source request fill
    unfold preflightRows
    cases hrow : s.preflightRow config source request fill with
    | panic => exact absurd hrow hnop
    | err => exact ⟨nofun, nofun⟩
    | ok =>
      refine ⟨ih.1, fun hrest row hin => ?_⟩
      rcases mem_cons.mp hin with rfl | hin
      · exact hok hrow
      · exact ih.2 hrest row hin

end

section

variable (envelope : EventEnvelope PmCompleteFillQuery)

/-- The request of a query, as a place in the private stream. -/
def requestOf : PmPrivateOccurrence :=
  ⟨envelope.ordering.connectionEpoch, envelope.payload.boundary.requestSequence⟩

/-- The completion of a query. -/
def completionOf : PmPrivateOccurrence :=
  ⟨envelope.ordering.connectionEpoch, envelope.payload.boundary.completionSequence⟩

/-- The keys of a query. -/
def keysOf : List PmFillKey :=
  envelope.payload.fills.map (·.fillKey)

/-- The fills that a query leaves uncovered. -/
def uncoveredBy (entries : List FillEntry) : List FillEntry :=
  entries.filter (leftUncovered (requestOf envelope) (keysOf envelope))

/-- What `preflight_query` has checked. -/
structure Preflighted (config : PmPrivateStateConfig) (envelope : EventEnvelope PmCompleteFillQuery)
    (entries : List FillEntry) : Prop where
  checked : validateQueryEnvelope config envelope = .ok ()
  room : entries.length + ((keysOf envelope).countP fun key =>
    decide (key ∉ entries.map FillEntry.key)) ≤ maxPmPrivateFills
  valid : ∀ fill ∈ envelope.payload.fills, validateFill config fill envelope.source = .ok ()
  fits : ∀ fill ∈ envelope.payload.fills, RowFits config (requestOf envelope) entries fill
  /-- The deltas of the fills that the query leaves uncovered can be summed. -/
  prospective : ∃ deltas, checkedSum addDelta (entryProvisionalDelta config) emptyDeltas
    (uncoveredBy envelope entries) = .ok deltas

end

/-- How a preflight ends: it does not abort, and changes only the scratch keys and the
counters. -/
inductive PreflightResult (config : PmPrivateStateConfig)
    (envelope : EventEnvelope PmCompleteFillQuery) (s : PmFillState) :
    Reply Unit × PmFillState → Prop
  | refused {error t} : Kept s t → PreflightResult config envelope s (.err error, t)
  | passed {t} : Kept s t → Preflighted config envelope s.entries →
      PreflightResult config envelope s (.ok (), t)

/-- **The preflight of a query.** -/
theorem preflightQuery_spec (envelope : EventEnvelope PmCompleteFillQuery) :
    PreflightResult config envelope s (s.preflightQuery config envelope) := by
  unfold preflightQuery
  cases henv : validateQueryEnvelope config envelope with
  | error => exact .refused (.refl s)
  | ok =>
  have hsto : ∀ keys, Stored config { s with queryKeys := keys }.entries := fun _ => h
  simp only [countNew_eq (hsto _)]
  split
  · exact .refused ⟨rfl, rfl⟩
  split
  · exact .refused ⟨rfl, rfl⟩
  next hfull =>
  have hrows := preflightRows_spec (hsto ((keysOf envelope).insertionSort (· ≤ ·)))
    envelope.source (requestOf envelope) envelope.payload.fills
  split
  next hpan => exact absurd hpan hrows.1
  next => exact .refused ⟨rfl, rfl⟩
  next hok =>
  split
  · exact .refused ⟨rfl, rfl⟩
  split
  next => exact .refused ⟨rfl, rfl⟩
  next deltas hdel =>
  refine .passed ⟨rfl, rfl⟩ ⟨henv, Nat.le_of_not_lt hfull,
    fun fill hin => (hrows.2 hok fill hin).1, fun fill hin => (hrows.2 hok fill hin).2, deltas, ?_⟩
  rw [← hdel, uncoveredBy]
  congr 1
  refine filter_congr fun entry _ => ?_
  rw [leftUncovered, decide_not, staysUncovered, isListed_insertionSort envelope.payload.keys_nodup]
  rfl

/-! ### The application -/

/-- How the application of a preflighted query ends. -/
inductive ApplyResult (config : PmPrivateStateConfig)
    (envelope : EventEnvelope PmCompleteFillQuery) (occurrence : PmOwnedObservationOccurrence)
    (s : PmFillState) : Reply Unit × PmFillState → Prop
  /-- The occurrence does not fit the query. -/
  | refused : occurrence.privateOccurrence ≠ some (completionOf envelope) ∨
        occurrence.snapshotRevision ≠ some envelope.payload.snapshot.revision →
      ApplyResult config envelope occurrence s (.err .occurrenceEvidenceMismatch, s)
  /-- The sequence numbers run out. -/
  | aborted {t} : (∃ k < envelope.payload.fills.length,
        rowSequence occurrence.reductionSequence k = none) →
      ApplyResult config envelope occurrence s (.panic, t)
  /-- The query is applied. -/
  | applied {t} : RowsApplied config (requestOf envelope) (keysOf envelope) s.entries t.entries →
      recomputeProvisional config t.entries = .ok t.provisional →
      t.watermark = some envelope.payload.resultingWatermark →
      ApplyResult config envelope occurrence s (.ok (), t)

/-- **A preflighted query** can be applied: the deltas that it recomputes are those that the
preflight has summed. -/
theorem applyPreflightedQuery_spec
    {envelope : EventEnvelope PmCompleteFillQuery} (occurrence : PmOwnedObservationOccurrence)
    (hpre : Preflighted config envelope s.entries) : ApplyResult config envelope occurrence s
      (s.applyPreflightedQuery config envelope occurrence) := by
  unfold applyPreflightedQuery
  simp only
  split_ifs with hevi
  · exact .refused hevi
  have hrows := applyRows_spec h occurrence (completionOf envelope)
    envelope.payload.snapshot.revision 0 envelope.payload.keys_nodup hpre.room
    hpre.fits
  rcases hrows with ⟨⟨k, hk, hnone⟩, hpan⟩ | ⟨next, hnext, happ⟩
  · split
    next => exact .aborted ⟨k, hk, zero_add k ▸ hnone⟩
    next herr => exact absurd ((congrArg Prod.fst herr).symm.trans hpan) nofun
    next hok => exact absurd ((congrArg Prod.fst hok).symm.trans hpan) nofun
  obtain ⟨deltas, hdel⟩ := hpre.prospective
  have hrec : recomputeProvisional config next = .ok deltas := by
    rw [recomputeProvisional, happ.remaining]
    exact hdel
  unfold completionOf at hnext
  unfold requestOf at hnext
  simp only [hnext, hrec]
  exact .applied happ hrec rfl

end

end Reap.Fill
