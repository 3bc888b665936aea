import Reap.Fill.Balance

/-!
# A failing observation

An observation that fails should leave the fills and the deltas as they were. The reducer checks
what it can before it stores what more is known of a fill, but the deltas are summed up again after
that: if a sum overflows, the call fails and the fill keeps its new fee and settlement.

## What is proved

* `summable_of_recompute`, `exists_recompute` — the deltas can be recomputed exactly if every fill
  has a delta and the sums in the order of the keys are representable.
* `keepsAccounting_iff` — **an observation of a reachable state changes no accounting when it fails
  exactly if the fills, with what it knows of a stored one, can be summed up**.
-/

namespace Reap.Fill

open Base Reap.Core FillEntry PmFillState Samples Option
open Reap.Owned (PmOwnedObservationOccurrence)

section

variable (config : PmPrivateStateConfig)

/-- A call of a run that may go on after an overflow. -/
def proceed (op : Op) (s : PmFillState) : Option PmFillState := Outcome.next (call config op s)

/-- The stored fill that is observed again: its place, and what is then known of it. -/
def enrichmentIn (entries : List FillEntry) (event : PmFillEvent)
    (occurrence : PmOwnedObservationOccurrence) : Option (ℕ × FillEntry) :=
  match searchEntries entries event.fillKey with
  | some (.ok i) => do
    let prior ← entries[i]?
    let entry ← prior.enrichment config event occurrence
    return (i, entry)
  | _ => none

/-- The stored fill that a call knows more of. -/
def Op.enrichment (s : PmFillState) (op : Op) : Option (ℕ × FillEntry) := do
  let (event, occurrence) ← op.observation config
  enrichmentIn config s.entries event occurrence

/-- Each fill that needs reconciliation has a delta, and the sums in the order of the keys are
representable. -/
def Summable (entries : List FillEntry) : Prop :=
  (∀ entry ∈ entries, entry.needsReconciliation = true →
    ∃ delta, entryProvisionalDelta config entry = .ok delta) ∧ SumsFit config entries

/-- A call that fails changes neither the fills nor the deltas. -/
def KeepsAccounting (s : PmFillState) (op : Op) : Prop :=
  ∀ error, (call config op s).1 = .err error → Kept s (call config op s).2

end

variable {config : PmPrivateStateConfig} {op : Op} {s : PmFillState} {entries : List FillEntry}

theorem summable_of_recompute {deltas : PmProvisionalDeltas}
    (h : recomputeProvisional config entries = .ok deltas) : Summable config entries := by
  refine ⟨fun entry hent hnee =>
    term_of_checkedSum h entry (List.mem_filter.mpr ⟨hent, hnee⟩), fun n _ => ?_⟩
  have hfits := fits_of_checkedSum addDelta_checked value_of_entryProvisionalDelta h n
  rw [value_emptyDeltas, zero_add, fits_value_iff] at hfits
  exact ⟨hfits.1, hfits.2.1⟩

theorem exists_recompute (hsto : Stored config entries) (h : Summable config entries) :
    ∃ deltas, recomputeProvisional config entries = .ok deltas := by
  refine exists_checkedSum addDelta_checked value_of_entryProvisionalDelta (fun entry hent => ?_)
    fun n => ?_
  · obtain ⟨hmem, hnee⟩ := List.mem_filter.mp hent
    exact h.1 entry hmem hnee
  · rw [value_emptyDeltas, zero_add]
    exact fits_partialSum hsto h.2 n

theorem stored_of_proceed (h : Reach (proceed config) anyCall .new s) :
    Stored config s.entries := by
  refine h.invariant (P := fun s => Stored config s.entries) (stored_nil config) ?_
  intro s op t hs _ hstep
  obtain ⟨hpan, rfl⟩ := Outcome.next_eq_some.mp hstep
  exact stored_of_call hs op hpan

/-- What is applied of an observation once it has been checked. -/
theorem applyFill_keeps_iff (hs : Stored config s.entries) (event : PmFillEvent)
    (occurrence : PmOwnedObservationOccurrence) :
    (∀ error, (s.applyFill config event occurrence).1 = .err error →
      Kept s (s.applyFill config event occurrence).2) ↔
    ∀ enriched ∈ enrichmentIn config s.entries event occurrence,
      Summable config (s.entries.set enriched.1 enriched.2) := by
  unfold applyFill search enrichmentIn
  rcases hs.search_cases event.fillKey with ⟨i, prior, hfou, hpr, -⟩ | ⟨p, hmis, hspl⟩
  swap
  · rw [hmis]
    refine ⟨fun _ enriched henr => ?_, fun _ =>
      (insertObserved_spec hs occurrence hmis hspl).2⟩
    cases henr
  rw [hfou]
  have hsto : Stored config (s.enrich config i event occurrence).2.entries :=
    (enrich_spec hs occurrence hpr).2
  simp only [hpr, bind_eq_bind, bind_some]
  rcases enrich_cases config event occurrence hpr with ⟨hnone, -, hkept⟩ |
    ⟨fee, settlement, _, entry, -, -, -, -, hne, hsome, heq⟩
  · simp [hnone, hkept]
  rw [heq] at hsto ⊢
  simp only [hsome, bind_some, pure_def, mem_some_iff, forall_eq']
  cases hrec : recomputeProvisional config (s.entries.set i entry) with
  | ok => exact ⟨fun _ => summable_of_recompute hrec, fun _ _ herr => nomatch herr⟩
  | error error =>
    rw [hrec] at hsto
    constructor
    · intro hkp
      have hset := congrArg (·[i]?) (hkp error rfl).entries
      simp only [List.getElem?_set_self (List.getElem?_eq_some_iff.mp hpr).1, hpr] at hset
      exact absurd (some.inj hset) hne
    · intro hsum
      obtain ⟨deltas, hdel⟩ := exists_recompute hsto hsum
      cases hdel.symm.trans hrec

open FillSample

/-- **An observation of a reachable state changes no accounting when it fails exactly if the fills,
with what it knows of a stored one, can be summed up.** -/
theorem keepsAccounting_iff (h : Reach (proceed config) anyCall .new s)
    (hop : op.isObservation = true) :
    KeepsAccounting config s op ↔
      ∀ enriched ∈ op.enrichment config s, Summable config (s.entries.set enriched.1 enriched.2) := by
  have hs := stored_of_proceed h
  unfold KeepsAccounting Op.enrichment
  rcases observation_cases config s hop with ⟨hnone, error, hcall⟩ |
    ⟨event, occurrence, s', hsome, ⟨hents, hpro⟩, hcall⟩
  · simp [hnone, hcall, Kept.refl]
  have hiff := applyFill_keeps_iff (hents.symm ▸ hs) event occurrence
  rw [hents] at hiff
  simp only [hsome, hcall, bind_eq_bind, bind_some, ← hiff, Outcome.ended, Outcome.discard_eq_err]
  exact forall₂_congr fun _ _ =>
    ⟨fun h => ⟨h.entries.trans hents.symm, h.provisional.trans hpro.symm⟩,
      fun h => ⟨h.entries.trans hents, h.provisional.trans hpro⟩⟩

/-- An observation that contradicts the last one is refused, and changes nothing; a later one that
confirms the fill is stored, as the fill can be summed up. -/
theorem keepsAccounting_of_mined :
    ∃ s, Reach (proceed Order.OrderSample.config) anyCall .new s ∧ s.entries.length = 1 ∧
      (call Order.OrderSample.config (observe 1 one_ne (plain .confirmed)) s).1 =
        .err .conflict ∧
      KeepsAccounting Order.OrderSample.config s (observe 1 one_ne (plain .confirmed)) ∧
      ((observe 2 two_ne (plain .confirmed)).enrichment Order.OrderSample.config s).isSome ∧
      KeepsAccounting Order.OrderSample.config s (observe 2 two_ne (plain .confirmed)) :=
  exists_reach_imp (P := fun s => s.entries.length = 1 ∧
      (call Order.OrderSample.config (observe 1 one_ne (plain .confirmed)) s).1 =
        .err .conflict ∧
      (observe 1 one_ne (plain .confirmed)).enrichment Order.OrderSample.config s = none ∧
      ∃ enriched ∈ (observe 2 two_ne (plain .confirmed)).enrichment Order.OrderSample.config s,
        (recomputeProvisional Order.OrderSample.config
          (s.entries.set enriched.1 enriched.2)).isOk)
    [observe 1 one_ne (plain .mined)] (by decide +kernel)
    fun s hrch ⟨hlen, hcon, hnone, enriched, hmem, hok⟩ =>
    ⟨hlen, hcon, (keepsAccounting_iff hrch rfl).mpr fun _ h => (nomatch hnone ▸ h),
      isSome_of_mem hmem, (keepsAccounting_iff hrch rfl).mpr fun other h => by
        obtain rfl := mem_unique hmem h
        cases hrec : recomputeProvisional Order.OrderSample.config
          (s.entries.set enriched.1 enriched.2) with
        | ok deltas => exact summable_of_recompute hrec
        | error => simp [hrec, Except.isOk, Except.toBool] at hok⟩

/-- The confirmation of a fill overflows the deltas, and is stored all the same. -/
theorem confirmed_fill_overflows : ∃ s, Reach (proceed Order.OrderSample.config) anyCall .new s ∧
      ¬ KeepsAccounting Order.OrderSample.config s
        (observe 4 four_ne (fill legOne .confirmed (large .positive))) := by
  have hrun : ∃ s, Reach (proceed Order.OrderSample.config) anyCall .new s ∧
      (call Order.OrderSample.config
        (observe 4 four_ne (fill legOne .confirmed (large .positive))) s).1 =
          .err .arithmeticOverflow ∧
      (call Order.OrderSample.config
        (observe 4 four_ne (fill legOne .confirmed (large .positive))) s).2.entries ≠ s.entries :=
    exists_reach_of_run crossed (by decide +kernel)
  obtain ⟨s, hrch, herr, hne⟩ := hrun
  exact ⟨s, hrch, fun hkp => hne (hkp _ herr).entries⟩

end Reap.Fill
