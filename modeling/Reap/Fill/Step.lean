import Reap.Fill.Reducer
import Mathlib.Data.List.InsertIdx

/-!
# What an observation of a fill can do

What the reducer relies on is `Stored`: the fills are sorted by key, there are not too many, and
the fee and the settlement kept beside an event are those of the event, so that merging a later
observation into the event cannot fail after the same transitions have been checked.

## What is proved

* `applyFill_spec` — an observation does not abort, and it inserts the fill, recomputes the
  provisional deltas, fails with an overflow, or changes neither fills nor deltas.
-/

namespace Reap.Fill

open Base Reap.Core FillEntry PmFillState List
open Reap.Owned (PmOwnedObservationOccurrence PmOwnedReductionSequence)

/-! ### Fees and settlements -/

theorem eq_of_feeTransition {current incoming next : PmFillFeeState}
    (h : feeTransition current incoming = .ok (some next)) : next = incoming ∧ next ≠ current := by
  unfold feeTransition at h
  split at h
  all_goals first | (cases h; exact ⟨rfl, nofun⟩) | (split_ifs at h; cases h) | cases h

theorem ne_of_settlementTransition {current incoming next : PmFillSettlementStatus}
    (h : settlementTransition current incoming = .ok (some next)) : next ≠ current := by
  unfold settlementTransition at h
  split_ifs at h with hne <;> cases h
  exact Ne.symm hne

/-- The fee and the settlement of a fill are those of its event. -/
structure FillEntry.Consistent (config : PmPrivateStateConfig) (entry : FillEntry) : Prop where
  fee : entry.fee = feeState config entry.event.execution.fee
  settlement : entry.settlement = entry.event.execution.settlement

variable {entry : FillEntry}

/-- A fill that is consistent with its event can be merged with every event whose fee and
settlement may follow. -/
theorem FillEntry.Consistent.exists_mergeEvent {config : PmPrivateStateConfig}
    (h : entry.Consistent config) {incoming : PmFillEvent} {fee : Option PmFillFeeState}
    {settlement : Option PmFillSettlementStatus}
    (hfee : feeTransition entry.fee (feeState config incoming.execution.fee) = .ok fee)
    (hset : settlementTransition entry.settlement incoming.execution.settlement = .ok settlement) :
    ∃ merged, mergeEvent config entry.event incoming = .ok merged ∧ merged.fillKey = entry.key ∧
      feeState config merged.execution.fee = fee.getD entry.fee ∧
      merged.execution.settlement = settlement.getD entry.settlement := by
  rw [h.fee] at hfee ⊢
  rw [h.settlement] at hset ⊢
  simp only [mergeEvent, hfee, hset]
  refine ⟨_, rfl, rfl, ?_, rfl⟩
  cases fee with
  | none => rfl
  | some => exact (eq_of_feeTransition hfee).1.symm

/-- What an observation makes of a stored fill, if there is more to know of it. -/
def FillEntry.enrichment (prior : FillEntry) (config : PmPrivateStateConfig) (event : PmFillEvent)
    (occurrence : PmOwnedObservationOccurrence) : Option FillEntry :=
  if occurrence.causalCmp prior.lastOccurrence = .lt ∨
      occurrence.sameSourceOccurrence prior.lastOccurrence = true then none
  else do
    (validateSamePrincipal prior.event event).toOption
    let fee ← (feeTransition prior.fee (feeState config event.execution.fee)).toOption
    let settlement ←
      (settlementTransition prior.settlement event.execution.settlement).toOption
    if fee = none ∧ settlement = none then none
    else
      let merged ← (mergeEvent config prior.event event).toOption
      return prior.enriched merged occurrence fee settlement

/-! ### The stored fills -/

/-- What the reducer relies on. -/
structure Stored (config : PmPrivateStateConfig) (entries : List FillEntry) : Prop where
  /-- The keys strictly increase. -/
  sorted : entries.Pairwise (KeyLt fillKey)
  length_le : entries.length ≤ maxPmPrivateFills
  consistent : ∀ entry ∈ entries, entry.Consistent config

theorem stored_nil (config : PmPrivateStateConfig) : Stored config [] where
  sorted := .nil
  length_le := Nat.zero_le _
  consistent := fun _ h => absurd h not_mem_nil

namespace Stored

variable {config : PmPrivateStateConfig} {entries : List FillEntry}

section

variable (h : Stored config entries)

include h

theorem search_cases (key : PmFillKey) :
    (∃ i entry, searchEntries entries key = some (.ok i) ∧ entries[i]? = some entry ∧
      entry.key = key) ∨ (∃ p, searchEntries entries key = some (.error p) ∧
      Splits fillKey key entries p) :=
  binarySearchByKey_total h.sorted key

theorem insert {p : ℕ} (hspl : Splits fillKey entry.key entries p)
    (hroom : entries.length < maxPmPrivateFills) (hent : entry.Consistent config) :
    Stored config (entries.insertIdx p entry) where
  sorted := hspl.pairwise_insertIdx h.sorted rfl
  length_le := by
    rw [length_insertIdx_of_le_length hspl.le_length]
    exact hroom
  consistent := by
    intro x hx
    rcases eq_or_mem_of_mem_insertIdx hx with rfl | hx
    · exact hent
    · exact h.consistent x hx

theorem set {i : ℕ} {prior : FillEntry} (entry : FillEntry)
    (hpr : entries[i]? = some prior) (hkey : entry.key = prior.key)
    (hent : entry.Consistent config) : Stored config (entries.set i entry) where
  sorted := pairwise_keyLt_set h.sorted hpr (congrArg some hkey)
  length_le := by
    rw [length_set]
    exact h.length_le
  consistent := by
    intro x hx
    rcases mem_or_eq_of_mem_set hx with hx | rfl
    · exact h.consistent x hx
    · exact hent

theorem filter (p : FillEntry → Bool) : Stored config (entries.filter p) where
  sorted := h.sorted.filter p
  length_le := (length_filter_le p entries).trans h.length_le
  consistent := fun x hx => h.consistent x (mem_of_mem_filter hx)

/-- A fill stands in one place. -/
theorem key_inj {i j : ℕ} {a b : FillEntry}
    (ha : entries[i]? = some a) (hb : entries[j]? = some b) (hkey : a.key = b.key) : i = j :=
  eq_of_key_eq h.sorted ha hb (congrArg some hkey)

end

end Stored

/-! ### Observations -/

/-- The fills and the deltas are the same. -/
structure Kept (s t : PmFillState) : Prop where
  entries : t.entries = s.entries
  provisional : t.provisional = s.provisional

theorem Kept.refl (s : PmFillState) : Kept s s := ⟨rfl, rfl⟩

/-- The fill was inserted at `p` and its delta added. -/
structure Inserted (config : PmPrivateStateConfig) (p : ℕ) (entry : FillEntry)
    (s t : PmFillState) : Prop where
  splits : Splits fillKey entry.key s.entries p
  room : s.entries.length < maxPmPrivateFills
  entries : t.entries = s.entries.insertIdx p entry
  provisional : ∃ delta, eventDelta config entry.event entry.fee = .ok delta ∧
    addDelta s.provisional delta = .ok t.provisional

namespace PmFillState

theorem countSettlementObservation_kept (s : PmFillState) (settlement : PmFillSettlementStatus) :
    Kept s (s.countSettlementObservation settlement) := by
  cases settlement <;> exact ⟨rfl, rfl⟩

theorem countEnrichment_kept (s : PmFillState) (fee : Option PmFillFeeState)
    (settlement : Option PmFillSettlementStatus) : Kept s (s.countEnrichment fee settlement) := by
  cases fee <;> cases settlement <;> first | exact ⟨rfl, rfl⟩ | skip
  all_goals
    rename_i settlement
    exact ⟨(countSettlementObservation_kept _ settlement).entries,
      (countSettlementObservation_kept _ settlement).provisional⟩

end PmFillState

/-- What an observation can do. -/
inductive Observed (config : PmPrivateStateConfig) (event : PmFillEvent)
    (occurrence : PmOwnedObservationOccurrence) (s : PmFillState) :
    Reply PmFillApply × PmFillState → Prop
  /-- It is a duplicate, it is stale, or it is refused. -/
  | kept {reply t} : reply ≠ .panic → Kept s t → Observed config event occurrence s (reply, t)
  /-- The fill is new. -/
  | inserted {p apply t} : s.search event.fillKey = some (.error p) →
      Inserted config p (.observed config event occurrence) s t →
      Observed config event occurrence s (.ok apply, t)
  /-- More is known of the fill. -/
  | enriched {apply t} : recomputeProvisional config t.entries = .ok t.provisional →
      Observed config event occurrence s (.ok apply, t)
  /-- More is known of the fill, and the deltas cannot be recomputed. -/
  | overflowed {error t} : recomputeProvisional config t.entries = .error error →
      Observed config event occurrence s (.err error, t)

section

variable {config : PmPrivateStateConfig} {s : PmFillState} {event : PmFillEvent} {prior : FillEntry}

theorem insertObserved_spec (h : Stored config s.entries) {p : ℕ}
    (occurrence : PmOwnedObservationOccurrence) (hsea : s.search event.fillKey = some (.error p))
    (hspl : Splits fillKey event.fillKey s.entries p) :
    (Observed config event occurrence s (s.insertObserved config p event occurrence) ∧
      Stored config (s.insertObserved config p event occurrence).2.entries) ∧
      ∀ error, (s.insertObserved config p event occurrence).1 = .err error →
        Kept s (s.insertObserved config p event occurrence).2 := by
  unfold insertObserved
  by_cases hfull : s.entries.length = maxPmPrivateFills
  · rw [if_pos hfull]
    exact ⟨⟨.kept nofun ⟨rfl, rfl⟩, h⟩, fun _ _ => ⟨rfl, rfl⟩⟩
  have hroom : s.entries.length < maxPmPrivateFills := lt_of_le_of_ne h.length_le hfull
  simp only [if_neg hfull]
  cases hdel : eventDelta config event (observed config event occurrence).fee with
  | error => exact ⟨⟨.kept nofun (.refl s), h⟩, fun _ _ => .refl s⟩
  | ok delta =>
  simp only
  cases hnext : addDelta s.provisional delta with
  | error => exact ⟨⟨.kept nofun (.refl s), h⟩, fun _ _ => .refl s⟩
  | ok next =>
  simp only [insertAt, if_pos hspl.le_length]
  have hcnt := countSettlementObservation_kept (count { s with
        entries := s.entries.insertIdx p (.observed config event occurrence)
        provisional := next } fun c =>
      { c with principalApplications := bump c.principalApplications })
    (observed config event occurrence).settlement
  refine ⟨⟨.inserted hsea ⟨hspl, hroom, hcnt.entries, delta, hdel, ?_⟩, ?_⟩, nofun⟩
  · rw [hcnt.provisional]
    exact hnext
  · rw [hcnt.entries]
    exact h.insert hspl hroom ⟨rfl, rfl⟩

/-- A stored fill is observed again: it is kept, or more is known of it. -/
theorem enrich_cases (config : PmPrivateStateConfig) (event : PmFillEvent) {i : ℕ}
    (occurrence : PmOwnedObservationOccurrence) (hpr : s.entries[i]? = some prior) :
    (prior.enrichment config event occurrence = none ∧
      (s.enrich config i event occurrence).1 ≠ .panic ∧
      Kept s (s.enrich config i event occurrence).2) ∨ ∃ fee settlement merged entry,
      feeTransition prior.fee (feeState config event.execution.fee) = .ok fee ∧
      settlementTransition prior.settlement event.execution.settlement = .ok settlement ∧
      mergeEvent config prior.event event = .ok merged ∧
      entry = prior.enriched merged occurrence fee settlement ∧ entry ≠ prior ∧
      prior.enrichment config event occurrence = some entry ∧ s.enrich config i event occurrence =
        match recomputeProvisional config (s.entries.set i entry) with
        | .error error => (.err error, { s with entries := s.entries.set i entry })
        | .ok provisional => (.ok (.enriched entry.fee entry.settlement), { s with
            entries := s.entries.set i entry
            provisional := provisional }.countEnrichment fee settlement) := by
  simp only [enrich, enrichment, hpr]
  by_cases hsta : occurrence.causalCmp prior.lastOccurrence = .lt
  · rw [if_pos hsta, if_pos (.inl hsta)]
    exact .inl ⟨rfl, by rintro ⟨⟩, rfl, rfl⟩
  rw [if_neg hsta]
  by_cases hsame : occurrence.sameSourceOccurrence prior.lastOccurrence = true
  · rw [if_pos hsame, if_pos (.inr hsame)]
    split_ifs <;> exact .inl ⟨rfl, by rintro ⟨⟩, rfl, rfl⟩
  rw [if_neg hsame, if_neg (not_or.mpr ⟨hsta, hsame⟩)]
  cases validateSamePrincipal prior.event event with
  | error => exact .inl ⟨rfl, by rintro ⟨⟩, rfl, rfl⟩
  | ok =>
  cases hfee : feeTransition prior.fee (feeState config event.execution.fee) with
  | error => exact .inl ⟨rfl, by rintro ⟨⟩, rfl, rfl⟩
  | ok fee =>
  cases hset : settlementTransition prior.settlement event.execution.settlement with
  | error => exact .inl ⟨rfl, by rintro ⟨⟩, rfl, rfl⟩
  | ok settlement =>
  simp only [Except.toOption, Option.bind_eq_bind, Option.bind_some]
  by_cases hnot : fee = none ∧ settlement = none
  · rw [if_pos hnot, if_pos hnot]
    exact .inl ⟨rfl, by rintro ⟨⟩, rfl, rfl⟩
  rw [if_neg hnot, if_neg hnot]
  cases hmer : mergeEvent config prior.event event with
  | error => exact .inl ⟨rfl, by rintro ⟨⟩, rfl, rfl⟩
  | ok merged =>
  refine .inr ⟨fee, settlement, merged, _, rfl, rfl, rfl, rfl, fun heq => hnot ⟨?_, ?_⟩, rfl, rfl⟩
  · cases fee with
    | none => rfl
    | some => exact absurd (congrArg FillEntry.fee heq) (eq_of_feeTransition hfee).2
  · cases settlement with
    | none => rfl
    | some =>
      exact absurd (congrArg FillEntry.settlement heq) (ne_of_settlementTransition hset)

theorem enrich_spec (h : Stored config s.entries) {i : ℕ}
    (occurrence : PmOwnedObservationOccurrence) (hpr : s.entries[i]? = some prior) :
    Observed config event occurrence s (s.enrich config i event occurrence) ∧
      Stored config (s.enrich config i event occurrence).2.entries := by
  rcases enrich_cases config event occurrence hpr with ⟨-, hrep, hkept⟩ |
    ⟨fee, settlement, merged, entry, hfee, hset, hmer, rfl, -, -, heq⟩
  · exact ⟨.kept hrep hkept, hkept.entries.symm ▸ h⟩
  obtain ⟨_, hmer', hkey, hmerFee, hmerSet⟩ :=
    (h.consistent prior (mem_of_getElem? hpr)).exists_mergeEvent hfee hset
  cases hmer.symm.trans hmer'
  have hsto := h.set (prior.enriched merged occurrence fee settlement) hpr hkey
    ⟨hmerFee.symm, hmerSet.symm⟩
  rw [heq]
  cases hrec : recomputeProvisional config
      (s.entries.set i (prior.enriched merged occurrence fee settlement)) with
  | error => exact ⟨.overflowed hrec, hsto⟩
  | ok provisional =>
    have hcnt := countEnrichment_kept { s with
        entries := s.entries.set i (prior.enriched merged occurrence fee settlement)
        provisional := provisional } fee settlement
    refine ⟨.enriched ?_, ?_⟩
    · rw [hcnt.entries, hcnt.provisional]
      exact hrec
    · rw [hcnt.entries]
      exact hsto

/-- **An observation** does not abort, and keeps the fills in order. -/
theorem applyFill_spec (h : Stored config s.entries) (event : PmFillEvent)
    (occurrence : PmOwnedObservationOccurrence) :
    Observed config event occurrence s (s.applyFill config event occurrence) ∧
      Stored config (s.applyFill config event occurrence).2.entries := by
  unfold applyFill
  rcases h.search_cases event.fillKey with ⟨i, prior, hfou, hpr, -⟩ | ⟨p, hmis, hspl⟩
  · rw [show s.search event.fillKey = some (.ok i) from hfou]
    exact enrich_spec h occurrence hpr
  · rw [show s.search event.fillKey = some (.error p) from hmis]
    exact (insertObserved_spec h occurrence hmis hspl).1

end

end Reap.Fill
