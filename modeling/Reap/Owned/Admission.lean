import Reap.Owned.Accounting

/-!
# Admitted intents

An intent is admitted at most once. While its order is retained, the intent index finds it; once
the order is compacted, only the watermark is left of it, which refuses every intent up to the
compacted one. Orders may be compacted in any order, and intents may be admitted in any order: an
intent below the watermark that was never admitted is refused with the others.

## What is proved

* `spent_of_step` — an intent that is retained or compacted stays so.
* `admitted_once` — in every run no intent is admitted twice, and the two indexes list every
  retained order once, in the order of the keys.
-/

namespace Reap.Owned

open Base Reap.Core Reap.Order OwnedOrderEntry Option

/-- The quote was admitted. -/
def isAdmitted : Reply PmOwnedQuoteAdmission → Bool
  | .ok (.admitted _) => true
  | _ => false

/-- The first quote is admitted, filled and compacted, and then comes again before the second. -/
def Sample.readmitted : List Op :=
  filledAtOnce ++ [.compactProvenTerminal first, .admitQuote firstQuote, .admitQuote secondQuote]

namespace PmOwnedOrderLifecycle

variable {s t : PmOwnedOrderLifecycle} {op : Op} {id : PmOwnedIntentId}

/-- The intent that a call admits. -/
def admittedIntent (s : PmOwnedOrderLifecycle) : Op → Option PmOwnedIntentId
  | .admitQuote intent => if isAdmitted (s.admitQuote intent).1 then some intent.intent else none
  | .prepareAndCommit intent =>
    if isAdmitted (s.prepareAndCommit intent).1 then some intent.intent else none
  | _ => none

/-- The intents that a run admits, in their order. -/
def admittedIntents : List Op → PmOwnedOrderLifecycle → List PmOwnedIntentId
  | [], _ => []
  | op :: ops, s => (s.admittedIntent op).toList ++ ((step op s).map (admittedIntents ops)).getD []

/-- The index lists every retained order once, in strictly increasing order of the keys. -/
def ListsOnce {κ : Type} [LinearOrder κ] (key : OwnedOrderEntry → Option κ)
    (entries : List OwnedOrderEntry) (index : List ℕ) : Prop :=
  index.Perm (List.range entries.length) ∧ index.Pairwise (KeyLt (keyAt key entries))

/-- The intent is that of a retained order, or is compacted. -/
def Spent (s : PmOwnedOrderLifecycle) (id : PmOwnedIntentId) : Prop :=
  s.isCompacted id = true ∨ ∃ e ∈ s.entries, e.intent.intent = id

section

variable (hs : s.Inv) (hstep : step op s = some t)

include hs hstep

theorem spent_of_step (h : s.Spent id) : t.Spent id := by
  have hcha := change_of_step hs hstep
  by_cases hcom : ∃ client, op = .compactProvenTerminal client
  · obtain ⟨client, rfl⟩ := hcom
    rcases compactProvenTerminal_cases hs client with ⟨-, heq⟩ |
      ⟨i, e, -, hget, hcl, ⟨-, heq⟩ | ⟨-, _, _, heq, -, hents, hcomp⟩⟩ <;>
      simp only [step, call, heq] at hstep <;> cases hstep
    · exact h
    · exact h
    · rcases h with h | ⟨o, ho, rfl⟩
      · exact .inl (by rw [hcomp, h, Bool.true_or])
      by_cases hc : o.clientOrder = client
      · cases eq_of_clientOrder hs.clients (List.mem_of_getElem? hget) ho (hcl.trans hc.symm)
        exact .inl (by simp [hcomp])
      · refine .inr ⟨o, ?_, rfl⟩
        rw [hents]
        exact (mem_compacted hs.toTables hget).mpr ⟨ho, hcl ▸ hc⟩
  · rcases h with h | ⟨e, he, rfl⟩
    · refine .inl ?_
      cases hcha with
      | compact => exact absurd ⟨_, rfl⟩ hcom
      | _ => exact h
    · rcases fate_of_change hs hcha he with ⟨e', he', hor⟩ | ⟨hop, -⟩
      · exact .inr ⟨e', he', by rw [Stepped.intent_eq hor]⟩
      · exact absurd ⟨_, hop⟩ hcom

/-- An intent that is admitted was neither retained nor compacted, and its order is retained. -/
theorem fresh_of_admitted (h : s.admittedIntent op = some id) : ¬ s.Spent id ∧ t.Spent id := by
  obtain ⟨intent, hop, rfl, hnext, hadm⟩ : ∃ intent, op.admission = some intent ∧
      intent.intent = id ∧ Outcome.next (s.admitQuote intent) = some t ∧
      isAdmitted (s.admitQuote intent).1 = true := by
    cases op with
    | admitQuote intent =>
      obtain ⟨hadm, hid⟩ := ite_none_right_eq_some.mp h
      simp only [step, call, Outcome.next_ended] at hstep
      exact ⟨intent, rfl, some.inj hid, hstep, hadm⟩
    | prepareAndCommit intent =>
      obtain ⟨hadm, hid⟩ := ite_none_right_eq_some.mp h
      have hspec : s.Admits intent (.prepareAndCommit intent) := admitQuote_spec hs rfl
      rcases hspec.prepare with ⟨plan, hplan, -, hcomm⟩ | ⟨error, herr, -⟩
      · simp only [step, call, Outcome.next_ended, prepareAndCommit, hplan, hcomm] at hstep hadm
        exact ⟨intent, rfl, some.inj hid, hstep, hadm⟩
      · simp only [prepareAndCommit, herr] at hadm
        cases hadm
    | _ => cases h
  have hspec := admitQuote_spec hs hop
  obtain ⟨client, hrep⟩ : ∃ client, (s.admitQuote intent).1 = .ok (.admitted client) := by
    unfold isAdmitted at hadm
    split at hadm
    · exact ⟨_, ‹_›⟩
    · cases hadm
  obtain ⟨hcom, hret, hmem⟩ := hspec.admitted client hrep
  obtain ⟨-, rfl⟩ := Outcome.next_eq_some.mp hnext
  refine ⟨?_, .inr ⟨_, hmem, rfl⟩⟩
  rintro (h | ⟨e, he, hid⟩)
  · cases hcom.symm.trans h
  · exact hret e he hid

end

/-- A run admits no intent twice, and none that is spent. -/
theorem admittedIntents_nodup (ops : List Op) (hs : s.Inv) :
    (admittedIntents ops s).Nodup ∧ ∀ id ∈ admittedIntents ops s, ¬ s.Spent id := by
  induction ops generalizing s with
  | nil => exact ⟨.nil, nofun⟩
  | cons op ops ih =>
    obtain ⟨t, hstep, -⟩ := step_spec hs op
    obtain ⟨hnd, huns⟩ := ih (inv_of_step hs hstep)
    have hrest : ∀ id ∈ admittedIntents ops t, ¬ s.Spent id := fun id hmem hspe =>
      huns id hmem (spent_of_step hs hstep hspe)
    rw [admittedIntents, hstep]
    cases hid : s.admittedIntent op with
    | none => exact ⟨hnd, hrest⟩
    | some id =>
      obtain ⟨hfr, hspe⟩ := fresh_of_admitted hs hstep hid
      have hnew : id ∉ admittedIntents ops t := fun hmem => huns id hmem hspe
      refine ⟨List.nodup_cons.mpr ⟨hnew, hnd⟩, fun other hmem => ?_⟩
      rcases List.mem_cons.mp hmem with rfl | hmem
      · exact hfr
      · exact hrest other hmem

open Sample

/-- **In every run no intent is admitted twice, and the two indexes list every retained order
once, in the order of the keys.** -/
theorem admitted_once {accountScope : PmAccountScope} {instrument : PmInstrumentHandle}
    {ops : List Op} (h : run step anyCall ops (new accountScope instrument) = some s) :
    (admittedIntents ops (new accountScope instrument)).Nodup ∧
      ListsOnce clientKey s.entries s.clientOrderIndex ∧
      ListsOnce intentKey s.entries s.intentIndex := by
  have hs := inv_of_reach (reach_of_run h)
  exact ⟨(admittedIntents_nodup ops (inv_of_reach .refl)).1,
    ⟨hs.clients.perm_range fun _ => ⟨_, rfl⟩, hs.clients.sorted⟩,
    ⟨hs.intents.perm_range fun _ => ⟨_, rfl⟩, hs.intents.sorted⟩⟩

theorem admitted_once_readmitted : ∃ s, run step anyCall readmitted fresh = some s ∧
      admittedIntents readmitted fresh = [firstQuote.intent, secondQuote.intent] ∧
      ListsOnce clientKey s.entries s.clientOrderIndex := by
  obtain ⟨s, hrun⟩ := isSome_iff_exists.mp
    (by decide +kernel : (run step anyCall readmitted fresh).isSome = true)
  exact ⟨s, hrun, by decide +kernel, (admitted_once hrun).2.1⟩

end PmOwnedOrderLifecycle

end Reap.Owned
