import Reap.Owned.Terminal

/-!
# Venue bindings

An order that the venue has acknowledged is bound to its venue order: cancels go to it, and
fills are attributed by it. No two retained orders are ever bound to the same venue order. A
binding should also never change, but there is one way in which it does: a send whose
acknowledgement is inconclusive is bound to the identity that the send proves, and a later
acceptance of the same send binds it again, without comparing the two.

## What is proved

* `EntryStep.venue_kept` — what a call does to a bound order keeps the binding, unless it is
  such a late acceptance.
* `bindings_of_reach` — in every reachable record the bindings are injective, and a call keeps
  them exactly when it is not an acceptance that rebinds.
* `bound_of_reach` — along every run without such an acceptance an order keeps its binding until
  it is compacted.
-/

namespace Reap.Owned

open Base Reap.Core Reap.Order OwnedOrderEntry

namespace PmOwnedOrderLifecycle

variable (s : PmOwnedOrderLifecycle)

/-- No two retained orders are bound to the same venue order. -/
def InjectiveBindings : Prop :=
  ∀ a ∈ s.entries, ∀ b ∈ s.entries, ∀ venue, a.venueOrder = some venue →
    b.venueOrder = some venue → a = b

/-- Every bound order keeps its binding, unless the call compacts it. -/
def KeepsBindings (op : Op) (t : PmOwnedOrderLifecycle) : Prop :=
  ∀ e ∈ s.entries, ∀ venue ∈ e.venueOrder,
    (∃ e' ∈ t.entries, e'.clientOrder = e.clientOrder ∧ e'.venueOrder = some venue) ∨
      op = .compactProvenTerminal e.clientOrder ∧ ∀ o ∈ t.entries, o.clientOrder ≠ e.clientOrder

instance (s : PmOwnedOrderLifecycle) (op : Op) (t : PmOwnedOrderLifecycle) :
    Decidable (KeepsBindings s op t) :=
  inferInstanceAs (Decidable (∀ e ∈ s.entries, ∀ venue ∈ e.venueOrder, _ ∨ _ ∧ _))

/-- The call accepts the order, whose send is ambiguous and bound, under another venue order
that is free. -/
def RebindsOrder (e : OwnedOrderEntry) : Op → Prop
  | .applySubmitResult client (.accepted venue) =>
    e.clientOrder = client ∧ e.submit = .ambiguous ∧ e.venueOrder.isSome = true ∧
      e.venueOrder ≠ some venue ∧ s.preflightVenueBinding client venue = .ok ()
  | _ => False

/-- The call rebinds a retained order. -/
def Rebinds (op : Op) : Prop := ∃ e ∈ s.entries, s.RebindsOrder e op

end PmOwnedOrderLifecycle

/-- What a call does to a bound order keeps the binding, unless it rebinds the order. -/
theorem EntryStep.venue_kept {s : PmOwnedOrderLifecycle} {op : Op} {e e' : OwnedOrderEntry}
    (hinv : e.Inv) (h : EntryStep s op e e') {venue : PmVenueOrderKey}
    (hven : e.venueOrder = some venue) (hnot : ¬ s.RebindsOrder e op) :
    e'.venueOrder = some venue := by
  have hbd : e.venueOrder.isSome = true := by rw [hven]; rfl
  cases h with
  | submitAccepted hsub => exact absurd hsub (submit_ne_pending hinv hbd)
  | submitAmbiguousOwned hsub => exact absurd hsub (submit_ne_pending hinv hbd)
  | @submitLateAccepted _ accepted hsub hbind =>
    by_contra hne
    refine hnot ⟨rfl, hsub, hbd, fun he => hne ?_, hbind⟩
    exact he.symm.trans hven
  | fill =>
    rw [advanceFromFill_eq]
    exact hven
  | progress =>
    rw [applyProgress_eq]
    exact hven
  | cancelResult =>
    rw [applyCancelOutcome_eq]
    exact hven
  | beginEpoch =>
    rw [beginEpoch_eq]
    exact hven
  | _ => exact hven

namespace PmOwnedOrderLifecycle

variable {s t : PmOwnedOrderLifecycle} {op : Op}

theorem keepsBindings_of_change (hs : s.Inv) (hcha : Change s op t) (hnot : ¬ s.Rebinds op) :
    KeepsBindings s op t := by
  intro e he venue hven
  rcases fate_of_change hs hcha he with ⟨e', he', rfl | hstep⟩ | hcom
  · exact .inl ⟨e', he', rfl, hven⟩
  · exact .inl ⟨e', he', hstep.clientOrder_eq,
      hstep.venue_kept (hs.entry e he) hven fun hreb => hnot ⟨e, he, hreb⟩⟩
  · exact .inr hcom

/-- An acceptance that rebinds an order leaves it bound to the other venue order. -/
theorem exists_rebound (hs : s.Inv) (hstep : step op s = some t) {e : OwnedOrderEntry}
    (he : e ∈ s.entries) (h : s.RebindsOrder e op) :
    ∃ e' ∈ t.entries, e'.clientOrder = e.clientOrder ∧ e'.venueOrder.isSome = true ∧
      e'.venueOrder ≠ e.venueOrder := by
  obtain ⟨i, hfind, hget⟩ := findClient_of_mem hs he
  cases op with
  | applySubmitResult _ result =>
    cases result with
    | accepted =>
      obtain ⟨rfl, hsub, -, hne, hbind⟩ := h
      simp only [step, call, applySubmitResult, hfind, hsub, bindVenue, hbind] at hstep
      cases hstep
      exact ⟨_, mem_setEntry hget, rfl, rfl, hne.symm⟩
    | rejected | ambiguous | ambiguousOwned => exact h.elim
  | _ => exact h.elim

/-- Along every run that rebinds no order, an order keeps its binding until it is compacted. -/
theorem bound_of_reach {client : PmClientOrderKey} {venue : PmVenueOrderKey} (hs : s.Inv)
    (hrch : Reach step (fun s op => ¬ s.Rebinds op ∧ op ≠ .compactProvenTerminal client) s t)
    (hbd : ∃ e ∈ s.entries, e.clientOrder = client ∧ e.venueOrder = some venue) :
    ∃ e ∈ t.entries, e.clientOrder = client ∧ e.venueOrder = some venue := by
  have hinv : t.Inv ∧ ∃ e ∈ t.entries, e.clientOrder = client ∧ e.venueOrder = some venue := by
    refine hrch.invariant (P := fun t => t.Inv ∧ ∃ e ∈ t.entries, e.clientOrder = client ∧
      e.venueOrder = some venue) ⟨hs, hbd⟩ ?_
    rintro a op b ⟨ha, e, he, rfl, hven⟩ ⟨hnot, hkept⟩ hstep
    refine ⟨inv_of_step ha hstep, ?_⟩
    rcases keepsBindings_of_change ha (change_of_step ha hstep) hnot e he venue hven with
      hsta | ⟨hop, -⟩
    · exact hsta
    · exact absurd hop hkept
  exact hinv.2

end PmOwnedOrderLifecycle

namespace Sample

def otherVenue : PmVenueOrderKey := ⟨⟨0⟩, ⟨[118, 50], by decide, by decide, by decide +kernel⟩⟩

/-- The first quote is sent, and its acknowledgement is inconclusive. -/
def ambiguouslySent : List Op :=
  [.admitQuote firstQuote, .applySubmitResult first (.ambiguousOwned venue)]

end Sample

namespace PmOwnedOrderLifecycle

open Sample

/-- **Bindings.** In every reachable record the bindings are injective, and a call keeps them
exactly when it is not an acceptance that rebinds an order. -/
theorem bindings_of_reach {s : PmOwnedOrderLifecycle} {accountScope : PmAccountScope}
    {instrument : PmInstrumentHandle} (hreach : Reach step anyCall (new accountScope instrument) s) :
    s.InjectiveBindings ∧ ∀ op t, step op s = some t → (KeepsBindings s op t ↔ ¬ s.Rebinds op) := by
  have hs := inv_of_reach hreach
  refine ⟨hs.venues, fun op t hstep => ⟨?_, keepsBindings_of_change hs (change_of_step hs hstep)⟩⟩
  rintro hkp ⟨e, he, hreb⟩
  have ht := inv_of_step hs hstep
  obtain ⟨e', he', hcl, hbd, hne⟩ := exists_rebound hs hstep he hreb
  have hbef : e.venueOrder.isSome = true := by
    cases op with
    | applySubmitResult _ result =>
      cases result with
      | accepted => exact hreb.2.2.1
      | _ => exact hreb.elim
    | _ => exact hreb.elim
  obtain ⟨venue, hven⟩ := Option.isSome_iff_exists.mp hbef
  rcases hkp e he venue hven with ⟨o, ho, hoc, hov⟩ | ⟨-, hgone⟩
  · cases eq_of_clientOrder ht.clients ho he' (hoc.trans hcl.symm)
    exact hne (hov.trans hven.symm)
  · exact hgone e' he' hcl

theorem bindings_of_ambiguouslySent :
    ∃ s, Reach step anyCall fresh s ∧ s.entries.length = 1 ∧ s.InjectiveBindings ∧
      ∀ op t, step op s = some t → (KeepsBindings s op t ↔ ¬ s.Rebinds op) :=
  exists_reach_and ambiguouslySent (by decide +kernel) fun _ hrch _ => bindings_of_reach hrch

/-- A late acceptance binds the order to another venue order. -/
theorem acceptance_rebinds_order : ∃ s, Reach step anyCall fresh s ∧
      ∃ t ∈ step (.applySubmitResult first (.accepted otherVenue)) s,
        ¬ KeepsBindings s (.applySubmitResult first (.accepted otherVenue)) t :=
  exists_reach_of_run ambiguouslySent (by decide +kernel)

end PmOwnedOrderLifecycle

end Reap.Owned
