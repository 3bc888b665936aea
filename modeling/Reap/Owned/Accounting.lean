import Reap.Owned.Terminal

/-!
# Fill accounting

An order carries two quantities: what its fill legs add up to, and what the venue says is
filled. The first is the sum of the retained legs, and it never exceeds the second. The
difference is filled quantity whose legs have not arrived, and an order that has such a
difference must not be compacted: compaction deletes its legs and forgets it.

What should prevent it is the flag `reconciliationRequired`. Two calls leave it down: a fill
leg that reports a larger cumulative quantity than it accounts for, on an order whose flag
is down, and a late `Rejected` for an order that a cancel reply has declared filled.

## What is proved

* `accounted_of_reach` — **in every reachable record the ledger adds up**.
* `attributedOnly_of_reach` — **in every run without those two calls, only orders without a
  difference are compacted or marked**.
-/

namespace Reap.Owned

open Base Reap.Core Reap.Order OwnedOrderEntry Bool Samples

namespace PmOwnedOrderLifecycle

/-! ### The ledger -/

/-- The fill ledger adds up. -/
structure Accounted (s : PmOwnedOrderLifecycle) : Prop where
  /-- No fill leg is retained twice. -/
  distinct : (s.fills.map (·.key)).Nodup
  known : ∀ e ∈ s.entries, e.knownFillTotal.value = attributed s.fills e.clientOrder
  known_le : ∀ e ∈ s.entries, e.knownFillTotal ≤ e.cumulativeFilled
  cumulative_le : ∀ e ∈ s.entries, e.cumulativeFilled ≤ e.original
  /-- A fill leg belongs to one order, which is bound to the venue order of the leg. -/
  owner : ∀ f ∈ s.fills, ∃ e ∈ s.entries,
    (e.clientOrder = f.clientOrder ∧ e.venueOrder = some f.key.venueOrder) ∧
      ∀ o ∈ s.entries, o.clientOrder = f.clientOrder ∨ o.venueOrder = some f.key.venueOrder → o = e
  /-- The remaining quantity can be computed. -/
  remaining : ∀ e ∈ s.entries, (remaining e).isSome = true

variable {s : PmOwnedOrderLifecycle}

/-- **In every reachable record the ledger adds up**: the attributed quantity of an order is
the sum of its legs, it is at most what is filled, no more is filled than was ordered, and
every leg has one owner. -/
theorem accounted_of_reach {accountScope : PmAccountScope} {instrument : PmInstrumentHandle}
    (hreach : Reach step anyCall (new accountScope instrument) s) : s.Accounted := by
  have hs := inv_of_reach hreach
  refine ⟨keys_nodup hs.ledger, hs.known, fun e he => (hs.entry e he).known_le,
    fun e he => (hs.entry e he).cumulative_le, fun f hf => ?_, fun e he => ?_⟩
  · obtain ⟨e, he, hcl, hven⟩ := hs.owner f hf
    refine ⟨e, he, ⟨hcl, hven⟩, ?_⟩
    rintro o ho (hoc | hov)
    · exact eq_of_clientOrder hs.clients ho he (hoc.trans hcl.symm)
    · exact hs.venues o ho e he _ hov hven
  · obtain ⟨rest, hrest⟩ := exists_remaining (hs.entry e he).cumulative_le
    rw [hrest]
    rfl

end PmOwnedOrderLifecycle

namespace Sample

/-- A leg of a quarter of the quote, seen in the acknowledgement, that reports the cumulative
quantity `reported`. -/
def quarterFill (reported : U256) (h : 250000 ≤ reported.value) : PmOwnedFillObservation where
  key := ⟨venue, legOne⟩
  quantity := quarter
  reportedCumulative := some reported
  occurrence := ⟨⟨1, one_ne⟩, none, none, unobserved⟩
  source := .immediateAcknowledgement
  reported_ge := fun _ hc => Option.some.inj hc ▸ h

/-- The first quote is accepted, and a quarter of it is filled. -/
def partlyFilled : List Op :=
  [.admitQuote firstQuote, .applySubmitResult first (.accepted venue),
    .observeFill (quarterFill quarter.protocolUnits (by decide))]

/-- The first quote is accepted, and its first leg reports that all of it is filled. -/
def filledAtOnce : List Op :=
  [.admitQuote firstQuote, .applySubmitResult first (.accepted venue),
    .observeFill (quarterFill share.protocolUnits (by decide))]

end Sample

namespace PmOwnedOrderLifecycle

open Sample

variable {s t : PmOwnedOrderLifecycle} {op : Op}

theorem accounted_of_partlyFilled :
    ∃ s, Reach step anyCall fresh s ∧ s.fills.length = 1 ∧ s.Accounted :=
  exists_reach_and partlyFilled (by decide +kernel) fun _ hrch _ => accounted_of_reach hrch

/-! ### Filled quantities never shrink -/

/-- What an order keeps while it is retained. -/
def Grown (e e' : OwnedOrderEntry) : Prop :=
  e'.intent = e.intent ∧ e.knownFillTotal.value ≤ e'.knownFillTotal.value ∧
    e.cumulativeFilled.value ≤ e'.cumulativeFilled.value

theorem grown_of_step {e e' : OwnedOrderEntry} (hinv : e.Inv) (h : EntryStep s op e e') :
    Grown e e' := by
  refine ⟨h.intent_eq, ?_⟩
  cases h with
  | fill _ _ hkn hcum =>
    rw [advanceFromFill_eq, hkn, hcum, cumulativeAfter, knownAfter]
    split_ifs <;> omega
  | progress happ =>
    rw [applyProgress_eq]
    exact ⟨le_refl _, happ.cumulative⟩
  | cancelResult =>
    rw [applyCancelOutcome_eq]
    refine ⟨le_refl _, ?_⟩
    unfold cumulativeAfterCancel
    split_ifs
    · exact hinv.cumulative_le
    · exact le_refl _
  | beginEpoch =>
    rw [beginEpoch_eq]
    exact ⟨le_refl _, le_refl _⟩
  | _ => exact ⟨le_refl _, le_refl _⟩

/-- **Until it is compacted, an order keeps its quote and its filled quantities never shrink**,
whatever is called. -/
theorem grown_of_reach {e : OwnedOrderEntry} (hs : s.Inv) (he : e ∈ s.entries)
    (hrch : Reach step (fun _ op => op ≠ .compactProvenTerminal e.clientOrder) s t) :
    ∃ e' ∈ t.entries, Grown e e' := by
  refine (hrch.invariant (P := fun t => t.Inv ∧ ∃ e' ∈ t.entries, Grown e e')
    ⟨hs, e, he, rfl, le_refl _, le_refl _⟩ ?_).2
  rintro a op b ⟨ha, o, ho, hint, hkn, hcum⟩ hop hstep
  refine ⟨inv_of_step ha hstep, ?_⟩
  rcases fate_of_change ha (change_of_step ha hstep) ho with ⟨o', ho', rfl | hent⟩ | ⟨hcom, -⟩
  · exact ⟨o', ho', hint, hkn, hcum⟩
  · obtain ⟨hint', hkn', hcum'⟩ := grown_of_step (ha.entry o ho) hent
    exact ⟨o', ho', hint'.trans hint, hkn.trans hkn', hcum.trans hcum'⟩
  · rw [clientOrder, hint] at hcom
    exact absurd hcom hop

theorem grown_of_partlyFilled : ∃ s, Reach step anyCall fresh s ∧ ∃ e ∈ s.entries, ∃ t,
    Reach step anyCall s t ∧ t.fills.length = 1 ∧ ∃ e' ∈ t.entries, Grown e e' := by
  refine exists_reach_imp (partlyFilled.take 1) (P := fun s => ∃ e ∈ s.entries, ∃ t ∈ run step
    (fun _ op => op ≠ .compactProvenTerminal e.clientOrder) (partlyFilled.drop 1) s,
      t.fills.length = 1) (by decide +kernel) ?_
  rintro s hrch ⟨e, he, t, hrun, hlen⟩
  have hgro := reach_of_run hrun
  exact ⟨e, he, t, hgro.mono fun _ _ _ => trivial, hlen, grown_of_reach (inv_of_reach hrch) he hgro⟩

/-! ### Compaction -/

/-- Only orders whose filled quantity is fully attributed are compacted or marked for
compaction; the others that are terminal are flagged. -/
structure AttributedOnly (s : PmOwnedOrderLifecycle) : Prop where
  compact : ∀ client result, (s.compactProvenTerminal client).1 = .ok result →
    ∀ e ∈ s.entries, e.clientOrder = client → e.knownFillTotal = e.cumulativeFilled
  mark : ∀ through, ∀ e ∈ s.entries, entryCompactableThrough e through = true →
    e.knownFillTotal = e.cumulativeFilled
  flagged : ∀ e ∈ s.entries, e.isTerminal = true → e.knownFillTotal < e.cumulativeFilled →
    e.reconciliationRequired = true

end PmOwnedOrderLifecycle

/-- The fill that a call observes. -/
def Op.fill : Op → Option PmOwnedFillObservation
  | .observeFill observation => some observation
  | _ => none

/-- The client whose submission a call says is rejected. -/
def Op.rejects : Op → Option PmClientOrderKey
  | .applySubmitResult client .rejected => some client
  | _ => none

namespace PmOwnedOrderLifecycle

/-- The fill leaves its order terminal, with filled quantity that no leg accounts for, while
the flag is down. -/
def LeavesGap (s : PmOwnedOrderLifecycle) (e : OwnedOrderEntry)
    (observation : PmOwnedFillObservation) : Prop :=
  e.venueOrder = some observation.key.venueOrder ∧ s.FillApplies e observation ∧
    e.reconciliationRequired = false ∧ s.knownAfter e observation < s.cumulativeAfter e observation ∧
    (e.isTerminal = true ∨ s.cumulativeAfter e observation = e.original.value)

/-- The call hides filled quantity from compaction: a fill that leaves a gap, or a late
`Rejected` for an order that is already terminal. -/
def HidesFills (s : PmOwnedOrderLifecycle) (op : Op) : Prop :=
  ∃ e ∈ s.entries, (∃ observation ∈ op.fill, s.LeavesGap e observation) ∨
    op.rejects = some e.clientOrder ∧ e.submit = .ambiguous ∧ e.isTerminal = true

instance (s : PmOwnedOrderLifecycle) (e : OwnedOrderEntry) (observation : PmOwnedFillObservation) :
    Decidable (s.LeavesGap e observation) :=
  inferInstanceAs (Decidable (_ ∧ _ ∧ _ ∧ _ ∧ (_ ∨ _)))

instance (s : PmOwnedOrderLifecycle) (op : Op) : Decidable (s.HidesFills op) :=
  inferInstanceAs (Decidable (∃ e ∈ s.entries, (∃ observation ∈ op.fill, _) ∨ _))

end PmOwnedOrderLifecycle

/-- A terminal order with filled quantity that no leg accounts for is flagged. -/
def OwnedOrderEntry.Flagged (e : OwnedOrderEntry) : Prop :=
  e.isTerminal = true → e.knownFillTotal < e.cumulativeFilled → e.reconciliationRequired = true

namespace EntryStep

variable {s : PmOwnedOrderLifecycle} {op : Op} {e e' : OwnedOrderEntry} {known cumulative : U256}

/-- A fill leaves its order terminal only if the order was, or if nothing remains. -/
theorem terminal_of_fill {occurrence : PmOwnedObservationOccurrence}
    (h : (({ e with knownFillTotal := known }).advanceFromFill cumulative occurrence).isTerminal
      = true) : e.isTerminal = true ∨ cumulative = e.original := by
  rw [advanceFromFill_eq] at h
  by_cases hfull : cumulative = e.original
  · exact .inr hfull
  refine .inl (isTerminal_iff.mpr ?_)
  rcases isTerminal_iff.mp h with hsub | hst
  · left
    have hpro : e.provenSubmit = .rejected := hsub
    unfold provenSubmit at hpro
    split_ifs at hpro
    exact hpro
  · right
    by_cases hpar : cumulative.isZero = false ∧ e.statusTerminal = false
    · have haft : ({ e with knownFillTotal := known }).statusAfterFill cumulative =
          some .partiallyFilled := (if_neg hfull).trans (if_pos hpar)
      cases hst.symm.trans (statusTerminal_of_status haft)
    · have haft : ({ e with knownFillTotal := known }).statusAfterFill cumulative =
          e.status := (if_neg hfull).trans (if_neg hpar)
      rwa [haft] at hst

theorem fill_flagged {observation : PmOwnedFillObservation}
    (hven : e.venueOrder = some observation.key.venueOrder) (happ : s.FillApplies e observation)
    (hkn : known.value = s.knownAfter e observation)
    (hcum : cumulative.value = s.cumulativeAfter e observation)
    (hok : ¬ s.LeavesGap e observation) :
    (({ e with knownFillTotal := known }).advanceFromFill cumulative
      observation.occurrence).Flagged := by
  intro hterm hlt
  have hcau := terminal_of_fill hterm
  rw [advanceFromFill_eq] at hlt ⊢
  have hgap : known < cumulative := hlt
  -- a gap is not settled, so the flag is as it was
  have hset : ({ e with knownFillTotal := known }).settledByFill cumulative = false := by
    simp [settledByFill, hgap.ne]
  have hsame : (e.reconciliationRequired &&
      !({ e with knownFillTotal := known }).settledByFill cumulative) =
        e.reconciliationRequired := by
    rw [hset, Bool.not_false, Bool.and_true]
  refine hsame.trans (Bool.eq_true_of_not_eq_false fun hflag => hok ?_)
  refine ⟨hven, happ, hflag, ?_, hcau.imp_right fun hfull => ?_⟩
  · rw [← hkn, ← hcum]
    exact hgap
  · rw [← hcum, hfull]

theorem cancelResult_flagged (hflag : e.Flagged) (outcome : PmOwnedCancelOutcome) :
    (e.applyCancelOutcome outcome).Flagged := by
  rw [applyCancelOutcome_eq]
  intro hterm hlt
  cases outcome with
  | alreadyFilled => exact decide_eq_true hlt.ne
  | rejected => exact hflag hterm hlt
  | accepted | ambiguous =>
    show (if e.status = some .filled then e.reconciliationRequired else true) = true
    split_ifs with hfil
    · exact hflag (isTerminal_of_status hfil rfl) hlt
    · rfl

theorem beginEpoch_flagged (hflag : e.Flagged) : e.beginEpoch.Flagged := by
  rw [beginEpoch_eq]
  intro _ hlt
  cases hterm : e.isTerminal with
  | false => simp [isLive, hterm]
  | true => simp [hflag hterm hlt]

/-- A call that hides no fills leaves flagged what was. -/
theorem flagged (he : e ∈ s.entries) (hinv : e.Inv) (hflag : e.Flagged)
    (hok : ¬ s.HidesFills op) (h : EntryStep s op e e') : e'.Flagged := by
  have hzero : e.cumulativeFilled.value = 0 → ¬ e.knownFillTotal < e.cumulativeFilled := by
    intro hc hlt
    have hlt' := U256.lt_iff.mp hlt
    omega
  cases h with
  | cancelBeforeReplace | requestCancel | mark => exact hflag
  | submitAccepted | submitLateAccepted => exact nofun
  | submitRejected hsub =>
    intro _ hlt
    rcases hsub with hsub | hsub
    · exact absurd hlt (hzero (hinv.pending hsub).2.2.2.1)
    · rcases (hinv.ambiguous hsub).2 with ⟨-, hc⟩ | hfil
      · exact absurd hlt (hzero hc)
      · exact absurd ⟨e, he, .inr ⟨rfl, hsub, isTerminal_of_status hfil rfl⟩⟩ hok
  | submitAmbiguous | submitAmbiguousOwned | remote => exact fun _ _ => rfl
  | fill hven happ hkn hcum =>
    exact fill_flagged hven happ hkn hcum fun hgap =>
      hok ⟨e, he, .inl ⟨_, rfl, hgap⟩⟩
  | progress =>
    rw [applyProgress_eq]
    exact fun _ hlt => decide_eq_true (ne_of_gt hlt)
  | detailAbsence hset => exact fun _ hlt => absurd hlt (hzero hset.cumulative)
  | cancelResult => exact cancelResult_flagged hflag _
  | beginEpoch => exact beginEpoch_flagged hflag

end EntryStep

namespace PmOwnedOrderLifecycle

variable {s t : PmOwnedOrderLifecycle} {op : Op}

/-- Every retained order is flagged where it must be. -/
def AllFlagged (s : PmOwnedOrderLifecycle) : Prop := ∀ e ∈ s.entries, e.Flagged

/-- **One call.** A call that hides no fills keeps the flags. -/
theorem allFlagged_of_change (hs : s.Inv) (h : s.AllFlagged) (hok : ¬ s.HidesFills op)
    (hcha : Change s op t) : t.AllFlagged := by
  intro e' he'
  rcases origin_of_change hs hcha he' with ⟨e, he, rfl | hstep⟩ | ⟨intent, -, rfl, -⟩
  · exact h e' he
  · exact hstep.flagged he (hs.entry e he) (h e he) hok
  · exact nofun

variable {e : OwnedOrderEntry}

/-- Compaction is granted to a compactable order only. -/
theorem compactable_of_ok (hs : s.Inv) {client : PmClientOrderKey}
    {result : PmOwnedTerminalCompaction} (h : (s.compactProvenTerminal client).1 = .ok result)
    (he : e ∈ s.entries) (hcl : e.clientOrder = client) : compactable e = true := by
  rcases compactProvenTerminal_cases hs client with ⟨-, heq⟩ |
    ⟨i, o, -, hget, hc, ⟨-, heq⟩ | ⟨hcom, -⟩⟩
  · rw [heq] at h
    cases h
  · rw [heq] at h
    cases h
  · cases eq_of_clientOrder hs.clients (List.mem_of_getElem? hget) he (hc.trans hcl.symm)
    exact hcom

/-- A terminal order that is not flagged has nothing left to attribute. -/
theorem known_eq_cumulative (hs : s.Inv) (h : s.AllFlagged) (he : e ∈ s.entries)
    (hterm : e.isTerminal = true) (hflag : e.reconciliationRequired = false) :
    e.knownFillTotal = e.cumulativeFilled := by
  refine le_antisymm (hs.entry e he).known_le (not_lt.mp fun hlt => ?_)
  cases hflag.symm.trans (h e he hterm hlt)

/-- **In every run without a call that hides fills, only orders whose filled quantity is fully
attributed are compacted or marked.** -/
theorem attributedOnly_of_reach {accountScope : PmAccountScope} {instrument : PmInstrumentHandle}
    (hreach : Reach step (fun s op => ¬ s.HidesFills op) (new accountScope instrument) s) :
    s.AttributedOnly := by
  have hs := inv_of_reach hreach.any
  have hall : s.AllFlagged :=
    hreach.invariant_of (fun _ h => inv_of_reach h.any) (fun _ h => by cases h)
      fun _ _ _ hs h hok hstep => allFlagged_of_change hs h hok (change_of_step hs hstep)
  refine ⟨fun client result hok e he hcl => ?_, fun through e he hmark => ?_, hall⟩
  · have hcom := compactable_of_ok hs hok he hcl
    simp only [compactable, not_eq_true', or_eq_false_iff] at hcom
    exact known_eq_cumulative hs hall he (by simpa using hcom.1.1.1) hcom.1.1.2
  · simp only [entryCompactableThrough, and_eq_true, not_eq_true'] at hmark
    exact known_eq_cumulative hs hall he hmark.1.1.1.1 hmark.1.1.1.2

open Sample

theorem attributedOnly_of_partlyFilled :
    ∃ s, Reach step (fun s op => ¬ s.HidesFills op) fresh s ∧ s.fills.length = 1 ∧
      s.AttributedOnly :=
  exists_reach_and partlyFilled (by decide +kernel) fun _ hrch _ => attributedOnly_of_reach hrch

/-- A leg of a quarter that reports the whole quote as filled: the order can be compacted, and
three quarters are attributed to no leg. -/
theorem compacts_unattributed_fill : ∃ s, Reach step anyCall fresh s ∧ ¬ s.AttributedOnly :=
  exists_reach_imp (P := fun s =>
      (s.compactProvenTerminal first).1 = .ok ⟨first, firstQuote.intent, 1⟩ ∧
      ∃ e ∈ s.entries, e.clientOrder = first ∧ e.knownFillTotal ≠ e.cumulativeFilled)
    filledAtOnce (by decide +kernel) fun _ _ ⟨hok, e, he, hcl, hne⟩ h =>
      hne (h.compact first _ hok e he hcl)

end PmOwnedOrderLifecycle

end Reap.Owned
