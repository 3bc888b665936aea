import Reap.Core.Samples
import Reap.Owned.Invariant

/-!
# Terminal orders

A terminal order should be final: no call makes it live again, only a cancelled order may
turn out to be filled, and its filled quantity does not shrink. Terminality is the
disjunction of two fields, the submit state and the status, and the reducer guards them
separately in its submit, fill, progress and cancel paths.

Three of these guards have gaps. A late submit result is applied to an order that a cancel
reply has already declared filled; a cancel result overwrites a rejected or an expired
status; and a last fill overwrites a rejected status. `Resurrects` names the three.

## What is proved

* `EntryStep.settles` — every other change of a terminal order is one that `Settles` allows.
* `keepsTerminal_iff` — **a call keeps the terminal orders of a reachable record exactly when
  it is none of the three**.
-/

namespace Reap.Owned

open Base Reap.Core Reap.Order OwnedOrderEntry

/-- What a terminal order may become. -/
@[mk_iff]
structure Settles (e e' : OwnedOrderEntry) : Prop where
  terminal : e'.isTerminal = true
  /-- Only a cancelled order may turn out to be filled. -/
  status : e'.status = e.status ∨ e.status = some .cancelled ∧ e'.status = some .filled
  cumulative : e.cumulativeFilled.value ≤ e'.cumulativeFilled.value

instance (e e' : OwnedOrderEntry) : Decidable (Settles e e') :=
  decidable_of_iff' _ (settles_iff ..)

namespace PmOwnedOrderLifecycle

variable (s : PmOwnedOrderLifecycle)

/-- No terminal order is resurrected: it is still terminal, or compaction has removed it. -/
def KeepsTerminal (op : Op) (t : PmOwnedOrderLifecycle) : Prop :=
  ∀ e ∈ s.entries, e.isTerminal = true →
    (∃ e' ∈ t.entries, e'.clientOrder = e.clientOrder ∧ Settles e e') ∨
      op = .compactProvenTerminal e.clientOrder ∧ ∀ o ∈ t.entries, o.clientOrder ≠ e.clientOrder

instance (s : PmOwnedOrderLifecycle) (op : Op) (t : PmOwnedOrderLifecycle) :
    Decidable (KeepsTerminal s op t) :=
  inferInstanceAs (Decidable (∀ e ∈ s.entries, _ → (∃ e' ∈ t.entries, _) ∨ _ ∧ ∀ o ∈ t.entries, _))

/-- The changes that the guards of the reducer miss. -/
def Overwrites (e : OwnedOrderEntry) : Op → Prop
  -- a late result for an order that a cancel reply has declared filled
  | .applySubmitResult client (.accepted venue) =>
    e.clientOrder = client ∧ e.submit = .ambiguous ∧ s.preflightVenueBinding client venue = .ok ()
  | .applySubmitResult client .rejected => e.clientOrder = client ∧ e.submit = .ambiguous
  -- a cancel result for an order that the venue has rejected or let expire
  | .applyCancelResult intent outcome =>
    e.clientOrder = intent.clientOrder ∧ e.venueOrder = some intent.venueOrder ∧
      (e.cancel = .pending ∨ e.cancel = .ambiguous) ∧
      (e.status = some .rejected ∨ e.status = some .expired) ∧
      (outcome = .accepted ∨ outcome = .alreadyFilled)
  -- the last fill of an order that the venue has rejected
  | .observeFill observation =>
    e.venueOrder = some observation.key.venueOrder ∧ s.FillApplies e observation ∧
      e.status = some .rejected ∧ s.cumulativeAfter e observation = e.original.value
  | _ => False

/-- The call rewrites a terminal order. -/
def Resurrects (op : Op) : Prop :=
  ∃ e ∈ s.entries, e.isTerminal = true ∧ s.Overwrites e op

end PmOwnedOrderLifecycle

namespace OwnedOrderEntry

variable {e : OwnedOrderEntry} {status : PmOrderStatus}

theorem statusTerminal_of_status (h : e.status = some status) :
    e.statusTerminal = status.isTerminal := by
  rw [statusTerminal, h]

theorem isTerminal_of_status (h : e.status = some status) (hterm : status.isTerminal = true) :
    e.isTerminal = true :=
  isTerminal_iff.mpr (.inr ((statusTerminal_of_status h).trans hterm))

/-- A terminal order whose submission is ambiguous has been declared filled. -/
theorem Inv.filled_of_ambiguous (h : e.Inv) (hsub : e.submit = .ambiguous)
    (hterm : e.isTerminal = true) : e.status = some .filled := by
  rcases (h.ambiguous hsub).2 with ⟨hnone, -⟩ | hfil
  · simp [isTerminal, statusTerminal, hsub, hnone] at hterm
  · exact hfil

/-- An order whose submission is not answered is live. -/
theorem Inv.submit_ne_pending (h : e.Inv) (hterm : e.isTerminal = true) : e.submit ≠ .pending := by
  intro hsub
  simp [isTerminal, statusTerminal, hsub, (h.pending hsub).2.1] at hterm

/-- A terminal order has a terminal status. -/
theorem Inv.status_of_terminal (h : e.Inv) (hterm : e.isTerminal = true) :
    ∃ status, e.status = some status ∧ status.isTerminal = true := by
  have hst : e.statusTerminal = true := by
    rcases isTerminal_iff.mp hterm with hsub | hst
    · exact h.rejected hsub
    · exact hst
  unfold statusTerminal at hst
  split at hst
  · next status heq => exact ⟨status, heq, hst⟩
  · cases hst

end OwnedOrderEntry

namespace Settles

variable {e e' : OwnedOrderEntry}

/-- A terminal order that keeps its status and its filled quantity. -/
theorem of_same (hinv : e.Inv) (hterm : e.isTerminal = true) (hsta : e'.status = e.status)
    (hcum : e.cumulativeFilled.value ≤ e'.cumulativeFilled.value) : Settles e e' := by
  obtain ⟨status, heq, hst⟩ := hinv.status_of_terminal hterm
  exact ⟨isTerminal_of_status (hsta.trans heq) hst, .inl hsta, hcum⟩

/-- A cancelled order that turns out to be filled. -/
theorem of_filled (hst : e.status = some .cancelled) (hst' : e'.status = some .filled)
    (hcum : e.cumulativeFilled.value ≤ e'.cumulativeFilled.value) : Settles e e' :=
  ⟨isTerminal_of_status hst' rfl, .inr ⟨hst, hst'⟩, hcum⟩

theorem not_of_status (hcan : e.status ≠ some .cancelled) (hne : e'.status ≠ e.status) :
    ¬ Settles e e' := by
  rintro ⟨-, hsame | ⟨hold, -⟩, -⟩
  · exact hne hsame
  · exact hcan hold

end Settles

namespace EntryStep

variable {s : PmOwnedOrderLifecycle} {op : Op} {e e' : OwnedOrderEntry}

section

variable (hinv : e.Inv) (hterm : e.isTerminal = true)

include hinv hterm

/-- A fill of a terminal order. -/
theorem fill_settles {observation : PmOwnedFillObservation} {known cumulative : U256}
    (hven : e.venueOrder = some observation.key.venueOrder) (happ : s.FillApplies e observation)
    (hcum : cumulative.value = s.cumulativeAfter e observation)
    (hnot : ¬ s.Overwrites e (.observeFill observation)) :
    Settles e (({ e with knownFillTotal := known }).advanceFromFill cumulative
      observation.occurrence) := by
  have hle : e.cumulativeFilled.value ≤ cumulative.value := by
    rw [hcum]
    exact le_max_of_le_left (le_max_left _ _)
  obtain ⟨status, hsta, hst⟩ := hinv.status_of_terminal hterm
  rw [advanceFromFill_eq]
  by_cases hfull : cumulative = e.original
  · have haft : ({ e with knownFillTotal := known }).statusAfterFill cumulative =
        some e.filledStatus := if_pos hfull
    cases status with
    | pending | «open» | partiallyFilled => cases hst
    | filled | expired =>
      refine .of_same hinv hterm (haft.trans ?_) hle
      simp [filledStatus, hsta]
    | cancelled =>
      refine .of_filled hsta (haft.trans ?_) hle
      simp [filledStatus, hsta]
    | rejected =>
      exact absurd ⟨hven, happ, hsta, hcum.symm.trans (congrArg U256.value hfull)⟩ hnot
  · refine .of_same hinv hterm ?_ hle
    -- a terminal status is not replaced by a partial fill
    have hkeep : ¬ (cumulative.isZero = false ∧ e.statusTerminal = false) := by
      simp [statusTerminal_of_status hsta, hst]
    exact (if_neg hfull).trans (if_neg hkeep)

/-- A cancel result for a terminal order. -/
theorem cancelResult_settles {outcome : PmOwnedCancelOutcome}
    (hnot : ¬ ((e.status = some .rejected ∨ e.status = some .expired) ∧ (outcome = .accepted ∨ outcome = .alreadyFilled)))
    : Settles e (e.applyCancelOutcome outcome) := by
  obtain ⟨status, hsta, hst⟩ := hinv.status_of_terminal hterm
  have hle : e.cumulativeFilled.value ≤ (e.cumulativeAfterCancel outcome).value := by
    unfold cumulativeAfterCancel
    split_ifs
    · exact hinv.cumulative_le
    · exact le_refl _
  rw [applyCancelOutcome_eq]
  cases status with
  | pending | «open» | partiallyFilled => cases hst
  | filled =>
    refine .of_same hinv hterm ?_ hle
    cases outcome <;> simp [statusAfterCancel, hsta]
  | cancelled =>
    cases outcome with
    | alreadyFilled => exact .of_filled hsta rfl hle
    | accepted | rejected | ambiguous =>
      exact .of_same hinv hterm (by simp [statusAfterCancel, hsta]) hle
  | rejected | expired =>
    cases outcome with
    | accepted | alreadyFilled => exact absurd ⟨by simp [hsta], by simp⟩ hnot
    | rejected | ambiguous => exact .of_same hinv hterm rfl hle

/-- **Every change of a terminal order that is not one of the three settles it.** -/
theorem settles (h : EntryStep s op e e') (hnot : ¬ s.Overwrites e op) : Settles e e' := by
  cases h with
  | submitAccepted hsub => exact absurd hsub (hinv.submit_ne_pending hterm)
  | submitLateAccepted hsub hbind => exact absurd ⟨rfl, hsub, hbind⟩ hnot
  | submitRejected hsub =>
    rcases hsub with hsub | hsub
    · exact absurd hsub (hinv.submit_ne_pending hterm)
    · exact absurd ⟨rfl, hsub⟩ hnot
  | fill hven happ _ hcum =>
    exact fill_settles hinv hterm hven happ hcum hnot
  | progress happ =>
    obtain ⟨status, hsta, hst⟩ := hinv.status_of_terminal hterm
    rw [applyProgress_eq]
    rcases status_of_validateTerminalProgress happ.terminal hsta hst with
      hsame | ⟨hcan, hfil⟩
    · exact .of_same hinv hterm ((congrArg some hsame).trans hsta.symm) happ.cumulative
    · exact .of_filled (hcan ▸ hsta) (congrArg some hfil) happ.cumulative
  | cancelResult hcl hven hcanc =>
    exact cancelResult_settles hinv hterm fun ⟨hsta, hout⟩ =>
      hnot ⟨hcl.symm, hven, hcanc, hsta, hout⟩
  | beginEpoch =>
    rw [beginEpoch_eq]
    exact .of_same hinv hterm rfl (le_refl _)
  | cancelBeforeReplace | submitAmbiguous | submitAmbiguousOwned | remote | detailAbsence
  | requestCancel | mark => exact .of_same hinv hterm rfl (le_refl _)

end

end EntryStep

namespace PmOwnedOrderLifecycle

variable {s t : PmOwnedOrderLifecycle} {op : Op} {e : OwnedOrderEntry}

theorem findClient_of_mem (hs : s.Inv) (he : e ∈ s.entries) :
    ∃ i, s.findClient e.clientOrder = some (some (i, e)) ∧ s.entries[i]? = some e := by
  rcases findClient_cases hs e.clientOrder with ⟨i, o, hfind, hget, hc⟩ | ⟨-, hnone⟩
  · cases eq_of_clientOrder hs.clients (List.mem_of_getElem? hget) he hc
    exact ⟨i, hfind, hget⟩
  · exact absurd rfl (hnone e he)

/-- The order of a client after a call that replaces it. -/
theorem mem_setEntry {i : ℕ} {e' : OwnedOrderEntry} (hget : s.entries[i]? = some e) :
    e' ∈ s.entries.set i e' :=
  List.mem_of_getElem? (List.getElem?_set_self (List.getElem?_eq_some_iff.mp hget).1)

/-- A cancel result for the bound venue order of a cancel under way is applied. -/
theorem entries_of_applyCancelResult {intent : PmOwnedCancelIntent} {outcome : PmOwnedCancelOutcome}
    {i : ℕ} (hfind : s.findClient intent.clientOrder = some (some (i, e)))
    (hven : e.venueOrder = some intent.venueOrder)
    (hcan : e.cancel = .pending ∨ e.cancel = .ambiguous)
    (hstep : step (.applyCancelResult intent outcome) s = some t) :
    t.entries = s.entries.set i (e.applyCancelOutcome outcome) := by
  have hrace : ¬ (e.status = some .filled ∧ e.cancel = .filledRace) := by
    rintro ⟨-, h⟩
    rcases hcan with hc | hc <;> cases hc.symm.trans h
  have hopen : ¬ (e.cancel ≠ .pending ∧ e.cancel ≠ .ambiguous) := by
    rintro ⟨hp, ha⟩
    exact hcan.elim hp ha
  obtain ⟨reply, hpre⟩ : ∃ reply, s.preflightCancelResult intent outcome = .ok reply := by
    simp only [preflightCancelResult, hfind, hven, ne_eq, not_true_eq_false, if_false]
    rw [if_neg hrace, if_neg hopen]
    cases outcome with
    | alreadyFilled => exact ⟨_, rfl⟩
    | accepted | rejected | ambiguous =>
      split_ifs <;> exact ⟨_, rfl⟩
  simp only [step, call, Outcome.next_ended, applyCancelResult, hpre, hfind, hven, ne_eq,
    not_true_eq_false, if_false] at hstep
  rw [if_neg hrace, if_neg hopen] at hstep
  cases hstep
  rfl

theorem fill_overwritten (hs : s.Inv) (he : e ∈ s.entries) {observation : PmOwnedFillObservation}
    (h : s.Overwrites e (.observeFill observation))
    (hstep : step (.observeFill observation) s = some t) :
    ∃ e' ∈ t.entries, e'.clientOrder = e.clientOrder ∧ ¬ Settles e e' := by
  obtain ⟨hven, happ, hst, hfull⟩ := h
  have hrep := observeFill_reply hs observation
  simp only [step, call, Outcome.next_ended] at hstep
  generalize s.observeFill observation = result at hstep hrep
  cases hrep with
  | refused _ _ _ _ hnot => exact absurd happ (hnot e he hven)
  | @applied _ i o o' _ _ _ hget hent =>
    cases hstep
    have hcl := hent.clientOrder_eq
    obtain ⟨known, cumulative, hven', -, -, hcum, rfl⟩ := hent.fill_cases
    cases hs.venues o (List.mem_of_getElem? hget) e he _ hven' hven
    refine ⟨_, mem_setEntry hget, hcl, ?_⟩
    rw [advanceFromFill_eq]
    refine Settles.not_of_status (by simp [hst]) ?_
    have haft : ({ e with knownFillTotal := known }).statusAfterFill cumulative =
        some e.filledStatus := if_pos (U256.ext (hcum.trans hfull))
    rw [haft]
    simp [filledStatus, hst]

/-- One of the three calls leaves a status that its terminal order may not have. -/
theorem exists_overwritten (hs : s.Inv) (hstep : step op s = some t) (he : e ∈ s.entries)
    (hterm : e.isTerminal = true) (h : s.Overwrites e op) :
    ∃ e' ∈ t.entries, e'.clientOrder = e.clientOrder ∧ ¬ Settles e e' := by
  obtain ⟨i, hfind, hget⟩ := findClient_of_mem hs he
  cases op with
  | applySubmitResult _ result =>
    cases result with
    | accepted =>
      obtain ⟨rfl, hsub, hbind⟩ := h
      have hst := (hs.entry e he).filled_of_ambiguous hsub hterm
      simp only [step, call, applySubmitResult, hfind, hsub, bindVenue, hbind] at hstep
      cases hstep
      exact ⟨_, mem_setEntry hget, rfl, Settles.not_of_status (by simp [hst]) (by simp [hst])⟩
    | rejected =>
      obtain ⟨rfl, hsub⟩ := h
      have hst := (hs.entry e he).filled_of_ambiguous hsub hterm
      simp only [step, call, applySubmitResult, hfind, hsub] at hstep
      cases hstep
      exact ⟨_, mem_setEntry hget, rfl, Settles.not_of_status (by simp [hst]) (by simp [hst])⟩
    | ambiguous | ambiguousOwned => exact h.elim
  | applyCancelResult _ outcome =>
    obtain ⟨hcl, hven, hcan, hst, hout⟩ := h
    have hset := entries_of_applyCancelResult (hcl ▸ hfind) hven hcan hstep
    have hcl' : (e.applyCancelOutcome outcome).clientOrder = e.clientOrder :=
      (EntryStep.cancelResult (s := s) hcl.symm hven hcan).clientOrder_eq
    refine ⟨_, hset ▸ mem_setEntry hget, hcl', ?_⟩
    rw [applyCancelOutcome_eq]
    rcases hst with hst | hst <;> rcases hout with rfl | rfl <;>
      exact Settles.not_of_status (by simp [hst]) (by simp [statusAfterCancel, hst])
  | observeFill => exact fill_overwritten hs he h hstep
  | _ => exact h.elim

/-- A call that overwrites no terminal order keeps them. -/
theorem keepsTerminal_of_change (hs : s.Inv) (hcha : Change s op t)
    (hnot : ∀ e ∈ s.entries, e.isTerminal = true → ¬ s.Overwrites e op) : KeepsTerminal s op t := by
  intro e he hterm
  have hinv := hs.entry e he
  rcases fate_of_change hs hcha he with ⟨e', he', rfl | hstep⟩ | hcom
  · exact .inl ⟨e', he', rfl, .of_same hinv hterm rfl (le_refl _)⟩
  · exact .inl ⟨e', he', hstep.clientOrder_eq, hstep.settles hinv hterm (hnot e he hterm)⟩
  · exact .inr hcom

end PmOwnedOrderLifecycle

/-! ### A sample account

Two buy quotes of one account, and the one venue order that the first of them becomes. -/

namespace Sample

def accountScope : PmAccountScope := Samples.accountScope

def instrument : PmInstrumentHandle := ⟨⟨0⟩, ⟨0⟩⟩

/-- A record without orders. -/
def fresh : PmOwnedOrderLifecycle := .new accountScope instrument

def first : PmClientOrderKey := ⟨⟨0⟩, .one⟩

def second : PmClientOrderKey := Samples.otherClient

def venue : PmVenueOrderKey := Samples.venue

def quantity : PmQuantity := Samples.share

/-- A buy of one share at half the collateral unit. -/
def quote (intent : PmOwnedIntentId) (client : PmClientOrderKey) (h : client.account = ⟨0⟩) :
    PmOwnedQuoteIntent where
  intent := intent
  slot := ⟨accountScope, instrument, .buy⟩
  clientOrder := client
  price := Samples.half
  quantity := quantity
  reservation :=
    ⟨Samples.halfUnits, U256.zero, .policyApprovedWorstCase, Samples.halfUnits_pos⟩
  scope := h
  policy := rfl
  covered := by decide +kernel

def firstQuote : PmOwnedQuoteIntent := quote ⟨1, Samples.one_ne⟩ first rfl

def secondQuote : PmOwnedQuoteIntent := quote ⟨2, Samples.two_ne⟩ second rfl

/-- The first quote is sent, its acknowledgement is inconclusive, and the reply to its cancel
says that it is filled. -/
def filledWhileAmbiguous : List Op :=
  [.admitQuote firstQuote, .applySubmitResult first (.ambiguousOwned venue), .requestCancel first,
    .applyCancelResult ⟨first, venue⟩ .alreadyFilled]

end Sample

namespace PmOwnedOrderLifecycle

open Sample

variable {s t : PmOwnedOrderLifecycle} {op : Op}

/-- **A call keeps the terminal orders of a reachable record exactly when it is none of the
three that the reducer's guards miss.** -/
theorem keepsTerminal_iff {accountScope : PmAccountScope} {instrument : PmInstrumentHandle}
    (hreach : Reach step anyCall (new accountScope instrument) s) (hstep : step op s = some t) :
    KeepsTerminal s op t ↔ ¬ s.Resurrects op := by
  have hs := inv_of_reach hreach
  have ht := inv_of_step hs hstep
  constructor
  · rintro hkp ⟨e, he, hterm, hover⟩
    obtain ⟨e', he', hcl, hwro⟩ := exists_overwritten hs hstep he hterm hover
    rcases hkp e he hterm with ⟨o, ho, hoc, hset⟩ | ⟨-, hgone⟩
    · cases eq_of_clientOrder ht.clients ho he' (hoc.trans hcl.symm)
      exact hwro hset
    · exact hgone e' he' hcl
  · intro hnot
    exact keepsTerminal_of_change hs (change_of_step hs hstep) fun e he hterm hover =>
      hnot ⟨e, he, hterm, hover⟩

/-- After a cancel reply has declared the first quote filled, admitting the second one keeps
the first as it is. -/
theorem keepsTerminal_admitQuote :
    ∃ s t, Reach step anyCall fresh s ∧ step (.admitQuote secondQuote) s = some t ∧
      KeepsTerminal s (.admitQuote secondQuote) t := by
  have hrun : ∃ s, Reach step anyCall fresh s ∧ (step (.admitQuote secondQuote) s).isSome = true :=
    exists_reach_of_run filledWhileAmbiguous (by decide +kernel)
  obtain ⟨s, hrch, hsome⟩ := hrun
  obtain ⟨t, hstep⟩ := Option.isSome_iff_exists.mp hsome
  exact ⟨s, t, hrch, hstep, (keepsTerminal_iff hrch hstep).mpr fun ⟨_, _, _, h⟩ => h⟩

/-- A late acknowledgement reopens an order that is filled. -/
theorem acknowledgement_reopens_filled : ∃ s, Reach step anyCall fresh s ∧
      ∃ t ∈ step (.applySubmitResult first (.accepted venue)) s,
        ¬ KeepsTerminal s (.applySubmitResult first (.accepted venue)) t :=
  exists_reach_of_run filledWhileAmbiguous (by decide +kernel)

end PmOwnedOrderLifecycle

end Reap.Owned
