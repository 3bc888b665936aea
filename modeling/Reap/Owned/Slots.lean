import Reap.Owned.Terminal

/-!
# One live order on a side

A quote is admitted only when the order in its side's slot is terminal, and the slot then
points at the new order. Nothing else gives an order a slot, so a live order should always
be the one in the slot of its side.

This holds as long as no terminal order becomes live again outside of its slot. There is one
call that can do this: a late `Accepted` for an order whose submission is ambiguous, which
the reducer applies even when a cancel reply has already declared the order filled and
another order has taken its slot.

## What is proved

* `EntryStep.live_of_live` — a call makes no terminal order live, a late `Accepted` apart.
* `oneLivePerSide_of_reach` — **in every run without a late `Accepted` for a replaced order, a
  side has at most one live order, and its slot points at it**.
-/

namespace Reap.Owned

open Base Reap.Core Reap.Order OwnedOrderEntry

/-- The venue order under which a call says that the submission of `client` is accepted. -/
def Op.accepts (client : PmClientOrderKey) : Op → Option PmVenueOrderKey
  | .applySubmitResult answered (.accepted venue) => if answered = client then some venue else none
  | _ => none

namespace PmOwnedOrderLifecycle

/-- Each side has at most one live order, and the slot of the side points at it. -/
structure OneLivePerSide (s : PmOwnedOrderLifecycle) : Prop where
  count_le : ∀ side, s.entries.countP (fun e => e.isLive && e.side == side) ≤ 1
  slot : ∀ e ∈ s.entries, e.isLive = true → s.slots (slotIndex e.side) = some e.clientOrder

/-- A late `Accepted` for a terminal order that is no longer the one in its side's slot. -/
def ReopensReplaced (s : PmOwnedOrderLifecycle) (op : Op) : Prop :=
  ∃ e ∈ s.entries, e.submit = .ambiguous ∧ e.isTerminal = true ∧
    s.slots (slotIndex e.side) ≠ some e.clientOrder ∧
    ∃ venue ∈ op.accepts e.clientOrder, s.preflightVenueBinding e.clientOrder venue = .ok ()

instance (s : PmOwnedOrderLifecycle) (op : Op) : Decidable (s.ReopensReplaced op) :=
  inferInstanceAs (Decidable (∃ e ∈ s.entries, _ ∧ _ ∧ _ ∧ ∃ venue ∈ op.accepts e.clientOrder, _))

end PmOwnedOrderLifecycle

/-- A call makes no terminal order live, a late `Accepted` apart. -/
theorem EntryStep.live_of_live {s : PmOwnedOrderLifecycle} {op : Op} {e e' : OwnedOrderEntry}
    (hinv : e.Inv) (h : EntryStep s op e e') (hlive : e'.isLive = true) :
    e.isLive = true ∨ e.submit = .ambiguous ∧ e.isTerminal = true ∧
      ∃ venue ∈ op.accepts e.clientOrder, s.preflightVenueBinding e.clientOrder venue = .ok () := by
  cases hterm : e.isTerminal with
  | false => exact .inl (by rw [isLive, hterm, Bool.not_false])
  | true =>
  have hsta : e'.isTerminal = false := by simpa [isLive] using hlive
  by_cases hover : s.Overwrites e op
  swap
  · cases (h.settles hinv hterm hover).terminal.symm.trans hsta
  -- what overwrites a terminal order leaves another terminal status, with one exception
  cases h with
  | submitAccepted hsub => exact absurd hsub (hinv.submit_ne_pending hterm)
  | submitLateAccepted hsub hbind => exact .inr ⟨hsub, rfl, _, if_pos rfl, hbind⟩
  | submitRejected => cases hlive
  | fill _ _ _ hcum =>
    rw [advanceFromFill_eq] at hsta
    have hfull : _ = e.original := U256.ext (hcum.trans hover.2.2.2)
    have hfil : e.filledStatus.isTerminal = true := by
      unfold filledStatus
      split_ifs <;> rfl
    cases hsta.symm.trans (isTerminal_of_status (if_pos hfull) hfil)
  | cancelResult =>
    rw [applyCancelOutcome_eq] at hsta
    obtain ⟨-, -, -, hst, rfl | rfl⟩ := hover
    · have hcan : e.statusAfterCancel .accepted = some .cancelled :=
        if_neg (by rcases hst with h | h <;> simp [h])
      cases hsta.symm.trans (isTerminal_of_status hcan rfl)
    · cases hsta.symm.trans (isTerminal_of_status rfl rfl)
  | cancelBeforeReplace | mark => exact .inl hlive
  | _ => exact hover.elim

namespace PmOwnedOrderLifecycle

variable {s t : PmOwnedOrderLifecycle} {op : Op}

/-- Every live order is the one in the slot of its side. -/
def LiveInSlot (s : PmOwnedOrderLifecycle) : Prop :=
  ∀ e ∈ s.entries, e.isLive = true → s.slots (slotIndex e.side) = some e.clientOrder

theorem entries_nodup (hs : s.Tables) : s.entries.Nodup := by
  refine List.nodup_iff_getElem?_ne_getElem?.mpr fun i j hij hj heq => ?_
  have hget := List.getElem?_eq_getElem hj
  exact hij.ne (hs.clients.entry_unique (heq.trans hget) hget rfl rfl)

/-- Two live orders of a side are one, as both are in its slot. -/
theorem oneLivePerSide_of_liveInSlot (hs : s.Tables) (h : s.LiveInSlot) : s.OneLivePerSide := by
  refine ⟨fun side => ?_, h⟩
  rw [List.countP_eq_length_filter]
  set live := s.entries.filter fun e => e.isLive && e.side == side with hlive
  have hnd : live.Nodup := (entries_nodup hs).filter _
  have heq : ∀ a ∈ live, ∀ b ∈ live, a = b := by
    intro a ha b hb
    simp only [hlive, List.mem_filter, Bool.and_eq_true, beq_iff_eq] at ha hb
    have hslo := h a ha.1 ha.2.1
    have hslot := h b hb.1 hb.2.1
    rw [ha.2.2] at hslo
    rw [hb.2.2] at hslot
    exact eq_of_clientOrder hs.clients ha.1 hb.1 (Option.some.inj (hslo.symm.trans hslot))
  match live, hnd, heq with
  | [], _, _ => exact Nat.zero_le 1
  | [_], _, _ => exact le_refl 1
  | a :: b :: _, hnd, heq =>
    have hab := heq a (by simp) b (by simp)
    simp [hab] at hnd

section

variable (hs : s.Inv) (h : s.LiveInSlot) (hok : ¬ s.ReopensReplaced op)

include hs h hok

/-- A change of single orders leaves the live ones in their slots. -/
theorem liveInSlot_of_stepped {entries : List OwnedOrderEntry} (hste : Stepped s op entries) :
    ∀ e ∈ entries, e.isLive = true → s.slots (slotIndex e.side) = some e.clientOrder := by
  intro e' he' hlive
  obtain ⟨e, he, rfl | hstep⟩ := hste.mem he'
  · exact h e' he hlive
  rw [hstep.side_eq, hstep.clientOrder_eq]
  rcases hstep.live_of_live (hs.entry e he) hlive with hlive | ⟨hsub, hterm, hacc⟩
  · exact h e he hlive
  · by_contra hslot
    exact hok ⟨e, he, hsub, hterm, hslot, hacc⟩

/-- **One call.** Unless it reopens a replaced order, a call leaves the live orders in their
slots. -/
theorem liveInSlot_of_change (hcha : Change s op t) : t.LiveInSlot := by
  cases hcha with
  | same => exact h
  | stepped _ _ hstep => exact liveInSlot_of_stepped hs h hok hstep
  | knownFill _ hget hstep => exact liveInSlot_of_stepped hs h hok (.set hget hstep)
  | newFill _ hget hstep => exact liveInSlot_of_stepped hs h hok (.set hget hstep)
  | @admission _ intent _ _ _ _ _ _ hdead _ =>
    refine forall_mem_concat.mpr ⟨fun e he hlive => ?_, fun _ => Function.update_self _ _ _⟩
    have hslot := h e he hlive
    have hside : slotIndex e.side ≠ slotIndex intent.slot.side := by
      intro hside
      -- the order that is replaced is terminal
      rw [hside] at hslot
      rw [isLive, hdead e he hslot] at hlive
      cases hlive
    exact (Function.update_of_ne hside _ _).trans hslot
  | @compact _ _ _ o _ _ hget =>
    intro e he hlive
    obtain ⟨he, hne⟩ := (mem_compacted hs.toTables hget).mp he
    have hslot := h e he hlive
    show (if _ then _ else _ : Fin 2 → Option PmClientOrderKey) (slotIndex e.side) = _
    split_ifs with hcur
    · refine (Function.update_of_ne (fun hside => ?_) _ _).trans hslot
      rw [hside, hcur] at hslot
      exact hne (Option.some.inj hslot).symm
    · exact hslot

end

/-- **In every run without a late `Accepted` for a replaced order, a side has at most one live
order, and its slot points at it.** -/
theorem oneLivePerSide_of_reach {accountScope : PmAccountScope} {instrument : PmInstrumentHandle}
    (hreach : Reach step (fun s op => ¬ s.ReopensReplaced op) (new accountScope instrument) s) :
    s.OneLivePerSide := by
  have hlive : s.LiveInSlot :=
    hreach.invariant_of (fun _ h => inv_of_reach h.any) (fun _ h => by cases h)
      fun _ _ _ hs h hok hstep => liveInSlot_of_change hs h hok (change_of_step hs hstep)
  exact oneLivePerSide_of_liveInSlot (inv_of_reach hreach.any).toTables hlive

open Sample

/-- The second quote is admitted after a cancel reply has declared the first one filled. -/
theorem oneLivePerSide_of_replacement :
    ∃ s, Reach step (fun s op => ¬ s.ReopensReplaced op) fresh s ∧ s.entries.length = 2 ∧
      s.OneLivePerSide :=
  exists_reach_and (filledWhileAmbiguous ++ [.admitQuote secondQuote]) (by decide +kernel)
    fun _ hrch _ => oneLivePerSide_of_reach hrch

/-- The late acknowledgement of the first quote then makes two live buy orders. -/
theorem two_live_buys : ∃ s, Reach step anyCall fresh s ∧ ¬ s.OneLivePerSide := by
  refine exists_reach_imp (P := fun s =>
      s.entries.countP (fun e => e.isLive && e.side == .buy) = 2) (filledWhileAmbiguous ++
    [.admitQuote secondQuote, .applySubmitResult first (.accepted venue)]) (by decide +kernel) ?_
  intro s _ htwo h
  have hle := h.count_le .buy
  omega

end PmOwnedOrderLifecycle

end Reap.Owned
