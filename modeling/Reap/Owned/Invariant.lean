import Reap.Owned.Spec

/-!
# The invariant of the owned-order lifecycle

Every call keeps `Inv`, so every reachable record satisfies it: the indexes are exact, the
slots point at retained orders, a venue order has one owner, and the fill ledger adds up to
what the orders say is attributed. By `step_spec` no call made on a reachable record aborts.

The proof is by the two relations of `Reap.Owned.Step`. An `EntryStep` keeps what holds of
one order; a `Change` keeps what holds between the tables.

## What is proved

* `EntryStep.inv` — what a call does to an order keeps the order's invariant.
* `inv_of_change` — what a call does to the record keeps the record's invariant.
* `inv_of_reach` — every reachable record satisfies the invariant.
-/

namespace Reap.Owned

open Base Reap.Core Reap.Order OwnedOrderEntry PmOwnedOrderLifecycle Function List

namespace EntryStep

variable {s : PmOwnedOrderLifecycle} {op : Op} {e e' : OwnedOrderEntry}

/-! ### What an order keeps -/

section

variable (h : EntryStep s op e e')

include h

/-- No call changes the quote behind an order. -/
theorem intent_eq : e'.intent = e.intent := by
  cases h with
  | fill => rw [advanceFromFill_eq]
  | progress => rw [applyProgress_eq]
  | cancelResult => rw [applyCancelOutcome_eq]
  | beginEpoch => rw [beginEpoch_eq]
  | _ => rfl

theorem clientOrder_eq : e'.clientOrder = e.clientOrder :=
  congrArg PmOwnedQuoteIntent.clientOrder h.intent_eq

theorem side_eq : e'.side = e.side :=
  congrArg (fun intent : PmOwnedQuoteIntent => intent.slot.side) h.intent_eq

/-- Only a fill changes what is attributed. -/
theorem known_eq (hop : ∀ o, op ≠ .observeFill o) : e'.knownFillTotal = e.knownFillTotal := by
  cases h with
  | fill => exact absurd rfl (hop _)
  | progress => rw [applyProgress_eq]
  | cancelResult => rw [applyCancelOutcome_eq]
  | beginEpoch => rw [beginEpoch_eq]
  | _ => rfl

end

/-- The venue order of an order stays, or a submit result binds it to one that no other order
has while nothing is attributed yet. -/
theorem venue_cases (hinv : e.Inv) (h : EntryStep s op e e') : e'.venueOrder = e.venueOrder ∨
      ∃ venue result, e'.venueOrder = some venue ∧ op = .applySubmitResult e.clientOrder result ∧
        s.VenueFree e.clientOrder venue ∧ e.knownFillTotal.value = 0 := by
  cases h with
  | submitAccepted hsub hbind =>
    exact .inr ⟨_, _, rfl, rfl, venueFree_of_preflight hbind, (hinv.pending hsub).2.2.1⟩
  | submitLateAccepted hsub hbind =>
    exact .inr ⟨_, _, rfl, rfl, venueFree_of_preflight hbind, (hinv.ambiguous hsub).1⟩
  | submitAmbiguousOwned hsub hbind =>
    exact .inr ⟨_, _, rfl, rfl, venueFree_of_preflight hbind, (hinv.pending hsub).2.2.1⟩
  | fill => exact .inl (by rw [advanceFromFill_eq])
  | progress => exact .inl (by rw [applyProgress_eq])
  | cancelResult => exact .inl (by rw [applyCancelOutcome_eq])
  | beginEpoch => exact .inl (by rw [beginEpoch_eq])
  | _ => exact .inl rfl

variable {observation : PmOwnedFillObservation}

/-- A fill observation changes an order only by a fill. -/
theorem fill_cases (h : EntryStep s (.observeFill observation) e e') :
    ∃ known cumulative : U256, e.venueOrder = some observation.key.venueOrder ∧
      s.FillApplies e observation ∧ known.value = s.knownAfter e observation ∧
      cumulative.value = s.cumulativeAfter e observation ∧
      e' = ({ e with knownFillTotal := known }).advanceFromFill cumulative
        observation.occurrence := by
  generalize hop : Op.observeFill observation = op at h
  cases h with
  | fill hven happ hkn hcum =>
    cases hop
    exact ⟨_, _, hven, happ, hkn, hcum, rfl⟩
  | cancelBeforeReplace hadm => subst hop; cases hadm
  | mark _ hmar => subst hop; cases hmar
  | _ => cases hop

/-- What a fill does to the order it belongs to. -/
theorem fill_facts (h : EntryStep s (.observeFill observation) e e') :
    e'.venueOrder = some observation.key.venueOrder ∧ e.venueOrder = e'.venueOrder ∧
      e'.knownFillTotal.value = s.knownAfter e observation := by
  obtain ⟨known, cumulative, hven, -, hkn, -, rfl⟩ := h.fill_cases
  rw [advanceFromFill_eq]
  exact ⟨hven, rfl, hkn⟩

/-! ### The invariant of one order -/

section

variable (hinv : e.Inv)

include hinv

section

variable (hbd : e.venueOrder.isSome = true)

include hbd

/-- A bound order's submission has been answered. -/
theorem submit_ne_pending : e.submit ≠ .pending := by
  intro hpend
  rw [(hinv.pending hpend).1] at hbd
  cases hbd

/-- Exact remote evidence leaves a submission accepted or rejected. -/
theorem provenSubmit_cases :
    e.provenSubmit = .accepted ∨ e.provenSubmit = .rejected ∧ e.submit = .rejected := by
  have hpend := submit_ne_pending hinv hbd
  simp only [provenSubmit, hbd, and_true]
  cases hsub : e.submit with
  | pending => exact absurd hsub hpend
  | accepted => exact .inl rfl
  | rejected => exact .inr ⟨rfl, rfl⟩
  | ambiguous => exact .inl rfl

/-- The invariant of an order that has just been proven to be at the venue. -/
theorem inv_of_proven (hsub : e'.submit = e.provenSubmit) (hven : e'.venueOrder = e.venueOrder)
    (hkn : e'.knownFillTotal.value ≤ e'.cumulativeFilled.value)
    (hcum : e'.cumulativeFilled.value ≤ e'.original.value)
    (hrej : e.submit = .rejected → e'.statusTerminal = true)
    (hfil : e'.status = some .filled → e'.cumulativeFilled.value = e'.original.value) : e'.Inv := by
  rcases provenSubmit_cases hinv hbd with hp | ⟨hp, hr⟩ <;> rw [hp] at hsub <;>
    refine ⟨hkn, hcum, ?_, ?_, fun _ => hven ▸ hbd, ?_, hfil⟩ <;> rw [hsub]
  all_goals first | exact fun _ => hrej hr | (intro h; cases h)

end

theorem fill_inv {known cumulative : U256}
    (hven : e.venueOrder = some observation.key.venueOrder) (hsub : e.submit ≠ .rejected)
    (hkn : known.value = s.knownAfter e observation)
    (hcum : cumulative.value = s.cumulativeAfter e observation)
    (hle : cumulative.value ≤ e.original.value) :
    (({ e with knownFillTotal := known }).advanceFromFill cumulative observation.occurrence).Inv := by
  have hbd : e.venueOrder.isSome = true := by rw [hven]; rfl
  have hle' : e.cumulativeFilled.value ≤ cumulative.value := by
    rw [hcum, cumulativeAfter]
    exact le_max_of_le_left (le_max_left _ _)
  rw [advanceFromFill_eq]
  refine inv_of_proven hinv hbd rfl rfl ?_ hle (fun h => absurd h hsub) fun hst => ?_
  · rw [hkn, hcum, cumulativeAfter]
    exact le_max_of_le_left (le_max_right _ _)
  · show cumulative.value = e.original.value
    dsimp only [statusAfterFill] at hst
    split_ifs at hst with hfull hpar
    · exact congrArg U256.value hfull
    · cases hst
    · exact le_antisymm hle (hinv.filled hst ▸ hle')

theorem progress_inv {observation : PmOwnedOrderProgressObservation}
    (happ : s.ProgressApplies e observation) : (e.applyProgress observation).Inv := by
  have hbd : e.venueOrder.isSome = true := by rw [happ.venue]; rfl
  have hle := observation.progress.le_original
  rw [happ.quantity] at hle
  rw [applyProgress_eq]
  refine inv_of_proven hinv hbd rfl rfl happ.known hle (fun hrej => ?_) fun hfil => ?_
  · exact statusTerminal_of_validateTerminalProgress happ.terminal (hinv.rejected hrej)
  · have hmat := observation.progress.status_matches
    rw [Option.some.inj hfil, happ.quantity] at hmat
    exact congrArg U256.value (eq_of_beq hmat)

theorem cancelResult_inv (hbd : e.venueOrder.isSome = true)
    (outcome : PmOwnedCancelOutcome) : (e.applyCancelOutcome outcome).Inv := by
  have hpend := submit_ne_pending hinv hbd
  rw [applyCancelOutcome_eq]
  cases outcome with
  | accepted =>
    have hst : e.statusAfterCancel .accepted = some .filled ∧ e.status = some .filled ∨
        e.statusAfterCancel .accepted = some .cancelled := by
      by_cases h : e.status = some .filled
      · exact .inl ⟨if_pos h, h⟩
      · exact .inr (if_neg h)
    refine inv_of_proven hinv hbd rfl rfl hinv.known_le hinv.cumulative_le (fun _ => ?_)
      fun hfil => ?_
    · show statusTerminal { e with status := e.statusAfterCancel .accepted } = true
      rcases hst with ⟨h, -⟩ | h <;> rw [h] <;> rfl
    · rcases hst with ⟨-, h⟩ | h
      · exact hinv.filled h
      · exact absurd (hfil.symm.trans h) nofun
  | alreadyFilled =>
    refine ⟨le_trans hinv.known_le hinv.cumulative_le, le_refl _, fun h => absurd h hpend,
      fun h => ⟨(hinv.ambiguous h).1, .inr rfl⟩, hinv.accepted, fun _ => rfl, fun _ => rfl⟩
  | rejected | ambiguous => exact { hinv with pending := fun h => absurd h hpend }

theorem beginEpoch_inv : e.beginEpoch.Inv := by
  rw [beginEpoch_eq]
  by_cases hpend : e.isLive = true ∧ e.submit = .pending
  · obtain ⟨hv, hs, hk, hc, hn⟩ := hinv.pending hpend.2
    rw [if_pos hpend]
    refine ⟨hinv.known_le, hinv.cumulative_le, nofun, fun _ => ⟨hk, .inl ⟨hs, hc⟩⟩, nofun, nofun,
      hinv.filled⟩
  · rw [if_neg hpend]
    exact { hinv with }

/-- **What a call does to an order keeps the order's invariant.** -/
theorem inv (h : EntryStep s op e e') : e'.Inv := by
  cases h with
  | cancelBeforeReplace _ _ hsub =>
    exact { hinv with pending := fun h => absurd (hsub.symm.trans h) nofun }
  | submitAccepted | submitLateAccepted =>
    exact ⟨hinv.known_le, hinv.cumulative_le, nofun, nofun, fun _ => rfl, nofun, nofun⟩
  | submitRejected =>
    exact ⟨hinv.known_le, hinv.cumulative_le, nofun, nofun, nofun, fun _ => rfl, nofun⟩
  | submitAmbiguous hsub | submitAmbiguousOwned hsub =>
    obtain ⟨hv, hs, hk, hc, hn⟩ := hinv.pending hsub
    exact ⟨hinv.known_le, hinv.cumulative_le, nofun, fun _ => ⟨hk, .inl ⟨hs, hc⟩⟩, nofun, nofun,
      hinv.filled⟩
  | fill hven happ hkn hcum hle =>
    exact fill_inv hinv hven happ.submit hkn hcum hle
  | progress happ => exact progress_inv hinv happ
  | requestCancel _ hven =>
    have hpend := submit_ne_pending hinv hven
    exact { hinv with pending := fun h => absurd h hpend }
  | cancelResult _ hven => exact cancelResult_inv hinv (by rw [hven]; rfl) _
  | beginEpoch => exact beginEpoch_inv hinv
  | remote | detailAbsence | mark => exact { hinv with }

end

end EntryStep

/-! ### The tables -/

namespace Stepped

variable {s : PmOwnedOrderLifecycle} {op : Op} {entries : List OwnedOrderEntry}
  {e e' : OwnedOrderEntry}

theorem intent_eq (h : e' = e ∨ EntryStep s op e e') : e'.intent = e.intent := by
  rcases h with rfl | h
  · rfl
  · exact h.intent_eq

theorem clientOrder_eq (h : e' = e ∨ EntryStep s op e e') :
    e'.clientOrder = e.clientOrder := congrArg (·.clientOrder) (intent_eq h)

/-- Indexes by a key of the quote stay exact. -/
theorem indexed {κ : Type} [LinearOrder κ] (key : PmOwnedQuoteIntent → κ) {index : List ℕ}
    (h : Stepped s op entries) (hidx : Indexed (fun e => some (key e.intent)) s.entries index) :
    Indexed (fun e => some (key e.intent)) entries index := by
  refine hidx.congr fun i => ?_
  unfold keyAt
  cases hget : entries[i]? with
  | none =>
    have hlen := getElem?_eq_none_iff.mp hget
    rw [getElem?_eq_none (by rw [← h.length_eq]; exact hlen)]
  | some =>
    obtain ⟨e, hget', hor⟩ := h.get hget
    rw [hget', Option.bind_some, Option.bind_some, intent_eq hor]

end Stepped

namespace PmOwnedOrderLifecycle

variable {s : PmOwnedOrderLifecycle} {op : Op} {entries : List OwnedOrderEntry}
  {e e' : OwnedOrderEntry} {fills : List OwnedFillEntry} {f f' : OwnedFillEntry}
  {client : PmClientOrderKey} {j i : ℕ} {observation : PmOwnedFillObservation}
  {t : PmOwnedOrderLifecycle}

/-- The orders of a client are one order. -/
theorem eq_of_clientOrder {index : List ℕ} (h : Indexed clientKey entries index)
    {a b : OwnedOrderEntry} (ha : a ∈ entries) (hb : b ∈ entries)
    (hc : a.clientOrder = b.clientOrder) : a = b := by
  obtain ⟨i, hi⟩ := mem_iff_getElem?.mp ha
  obtain ⟨j, hj⟩ := mem_iff_getElem?.mp hb
  cases h.entry_unique hi hj rfl (congrArg some hc.symm)
  exact Option.some.inj (hi.symm.trans hj)

variable {venue : PmVenueOrderKey}

/-- Where the venue order of a changed order comes from. -/
theorem venue_source (hs : s.Tables) (he : e ∈ s.entries) (hor : e' = e ∨ EntryStep s op e e')
    (hv : e'.venueOrder = some venue) : e.venueOrder = some venue ∨
      (∃ result, op = .applySubmitResult e.clientOrder result) ∧
        s.VenueFree e.clientOrder venue := by
  rcases hor with rfl | hstep
  · exact .inl hv
  · rcases hstep.venue_cases (hs.entry e he) with hsame | ⟨v, result, hv', hop, hfree, -⟩
    · exact .inl (hsame ▸ hv)
    · cases hv'.symm.trans hv
      exact .inr ⟨⟨result, hop⟩, hfree⟩

theorem tables_of_stepped (hs : s.Tables) (h : Stepped s op entries) :
    Tables { s with entries := entries } := by
  have hcli : Indexed clientKey entries s.clientOrderIndex :=
    h.indexed PmOwnedQuoteIntent.clientOrder hs.clients
  refine ⟨hcli, h.indexed PmOwnedQuoteIntent.intent hs.intents, ?_, ?_, ?_, ?_⟩
  · exact le_of_eq_of_le h.length_eq hs.length_le
  · intro side client hslot
    obtain ⟨e, he, hc, hside⟩ := hs.slot side client hslot
    obtain ⟨e', he', hor⟩ := h.mem' he
    refine ⟨e', he', (Stepped.clientOrder_eq hor).trans hc, ?_⟩
    rw [← hside, OwnedOrderEntry.side, Stepped.intent_eq hor, OwnedOrderEntry.side]
  · intro a' ha' b' hb' venue hva hvb
    obtain ⟨a, ha, hora⟩ := h.mem ha'
    obtain ⟨b, hb, horb⟩ := h.mem hb'
    have hcl : a.clientOrder = b.clientOrder := by
      rcases venue_source hs ha hora hva with hoa | ⟨⟨ra, hopa⟩, hfa⟩ <;>
        rcases venue_source hs hb horb hvb with hob | ⟨⟨rb, hopb⟩, hfb⟩
      · rw [hs.venues a ha b hb venue hoa hob]
      · exact hfb a ha hoa
      · exact (hfa b hb hob).symm
      · exact (Op.applySubmitResult.inj (hopa.symm.trans hopb)).1
    refine eq_of_clientOrder hcli ha' hb' ?_
    rw [Stepped.clientOrder_eq hora, Stepped.clientOrder_eq horb, hcl]
  · intro e' he'
    obtain ⟨e, he, rfl | hstep⟩ := h.mem he'
    · exact hs.entry e' he
    · exact hstep.inv (hs.entry e he)

/-! ### The fill ledger -/

theorem attributed_perm {fills' : List OwnedFillEntry} (h : fills.Perm fills')
    (client : PmClientOrderKey) : attributed fills client = attributed fills' client :=
  ((h.filter _).map _).sum_eq

theorem attributed_cons (f : OwnedFillEntry) (fills : List OwnedFillEntry)
    (client : PmClientOrderKey) : attributed (f :: fills) client =
      (if f.clientOrder = client then f.quantity.protocolUnits.value else 0) +
        attributed fills client := by
  unfold attributed
  by_cases h : f.clientOrder = client <;> simp [h]

/-- A leg in the ledger makes its order's attributed quantity positive. -/
theorem attributed_ne_zero (hf : f ∈ fills) : attributed fills f.clientOrder ≠ 0 := by
  have hmem : f ∈ fills.filter (·.clientOrder = f.clientOrder) :=
    mem_filter.mpr ⟨hf, decide_eq_true rfl⟩
  exact fun hzero =>
    f.quantity.ne_zero (sum_eq_zero_iff.mp hzero _ (mem_map_of_mem hmem))

theorem attributed_eq_zero (h : ∀ f ∈ fills, f.clientOrder ≠ client) :
    attributed fills client = 0 := by
  unfold attributed
  rw [filter_eq_nil_iff.mpr fun f hf => by simpa using h f hf]
  rfl

theorem attributed_filter_ne {other : PmClientOrderKey} (h : client ≠ other) :
    attributed (fills.filter (·.clientOrder ≠ other)) client = attributed fills client := by
  unfold attributed
  rw [filter_filter]
  congr 2
  refine filter_congr fun f _ => ?_
  by_cases hf : f.clientOrder = client
  · simp [hf, h]
  · simp [hf]

theorem attributed_set_same (hget : fills[j]? = some f) (hcl : f'.clientOrder = f.clientOrder)
    (hqua : f'.quantity = f.quantity) (client : PmClientOrderKey) :
    attributed (fills.set j f') client = attributed fills client := by
  induction fills generalizing j with
  | nil => rfl
  | cons _ _ ih =>
    cases j with
    | zero =>
      cases hget
      rw [set_cons_zero, attributed_cons, attributed_cons, hcl, hqua]
    | succ => rw [set_cons_succ, attributed_cons, attributed_cons, ih hget]

/-! ### Every change keeps the invariant -/

theorem inv_of_stepped (hs : s.Inv) (h : Stepped s op entries) (hop : ∀ o, op ≠ .observeFill o) :
    Inv { s with entries := entries } where
  toTables := tables_of_stepped hs.toTables h
  ledger := hs.ledger
  owner := by
    intro f hf
    obtain ⟨e, he, hc, hv⟩ := hs.owner f hf
    obtain ⟨e', he', hor⟩ := h.mem' he
    refine ⟨e', he', (Stepped.clientOrder_eq hor).trans hc, ?_⟩
    rcases hor with rfl | hstep
    · exact hv
    · rcases hstep.venue_cases (hs.entry e he) with hsame | ⟨_, _, -, -, -, hzero⟩
      · rw [hsame, hv]
      · -- an order with an attributed leg is not bound again
        rw [hs.known e he, hc] at hzero
        exact absurd hzero (attributed_ne_zero hf)
  known := by
    intro e' he'
    obtain ⟨e, he, rfl | hstep⟩ := h.mem he'
    · exact hs.known e' he
    · rw [hstep.known_eq hop, hstep.clientOrder_eq, hs.known e he]

/-- A fill leaves every order with the client and the venue order it had. -/
theorem owner_of_fill (h : Stepped s (.observeFill observation) entries)
    (hown : ∃ e ∈ s.entries, e.clientOrder = client ∧ e.venueOrder = some venue) :
    ∃ e ∈ entries, e.clientOrder = client ∧ e.venueOrder = some venue := by
  obtain ⟨e, he, hc, hv⟩ := hown
  obtain ⟨e', he', hor⟩ := h.mem' he
  refine ⟨e', he', (Stepped.clientOrder_eq hor).trans hc, ?_⟩
  rcases hor with rfl | hstep
  · exact hv
  · rw [← hstep.fill_facts.2.1, hv]

section

variable (hs : s.Inv) (hget : s.entries[i]? = some e)
  (hstep : EntryStep s (.observeFill observation) e e')

include hs hget hstep

theorem inv_of_knownFill (hfill : s.fills[j]? = some f) (hkey : f.key = observation.key)
    (hsame : f'.key = f.key ∧ f'.clientOrder = f.clientOrder ∧ f'.quantity = f.quantity) :
    Inv { s with entries := s.entries.set i e', fills := s.fills.set j f' } := by
  have hste := Stepped.set hget hstep
  have htab := tables_of_stepped hs.toTables hste
  refine ⟨{ htab with }, pairwise_keyLt_set hs.ledger hfill (congrArg some hsame.1), ?_, ?_⟩
  · intro g hg
    rcases mem_or_eq_of_mem_set hg with hmem | rfl
    · exact owner_of_fill hste (hs.owner g hmem)
    · rw [hsame.1, hsame.2.1]
      exact owner_of_fill hste (hs.owner f (mem_of_getElem? hfill))
  · intro o' ho'
    show o'.knownFillTotal.value = attributed (s.fills.set j f') o'.clientOrder
    rw [attributed_set_same hfill hsame.2.1 hsame.2.2]
    obtain ⟨o, ho, rfl | host⟩ := hste.mem ho'
    · exact hs.known o' ho
    · rw [host.fill_facts.2.2, knownAfter, if_pos (hasFill_of_getElem? hfill hkey),
        host.clientOrder_eq, hs.known o ho]

theorem inv_of_newFill {p : ℕ} (hnew : Splits OwnedFillEntry.fillKey observation.key s.fills p) :
    Inv { s with
      entries := s.entries.set i e'
      fills := s.fills.insertIdx p (observation.leg e.clientOrder) } := by
  have hste := Stepped.set hget hstep
  have htab := tables_of_stepped hs.toTables hste
  obtain ⟨hven', hven, hkn⟩ := hstep.fill_facts
  refine ⟨{ htab with }, hnew.pairwise_insertIdx hs.ledger rfl, ?_, ?_⟩
  · intro g hg
    rcases (mem_insertIdx hnew.le_length).mp hg with rfl | hmem
    · exact owner_of_fill hste ⟨e, mem_of_getElem? hget, rfl, hven.trans hven'⟩
    · exact owner_of_fill hste (hs.owner g hmem)
  · intro o' ho'
    show o'.knownFillTotal.value =
      attributed (s.fills.insertIdx p (observation.leg e.clientOrder)) o'.clientOrder
    rw [attributed_perm (perm_insertIdx _ _ hnew.le_length), attributed_cons]
    obtain ⟨k, hk⟩ := mem_iff_getElem?.mp ho'
    by_cases hki : k = i
    · -- the order the leg belongs to
      subst hki
      cases (List.getElem?_set_self (List.getElem?_eq_some_iff.mp hget).1).symm.trans hk
      rw [hkn, knownAfter, hasFill_of_splits hnew, hstep.clientOrder_eq,
        hs.known e (mem_of_getElem? hget), if_neg Bool.false_ne_true, Nat.add_comm]
      exact congrArg (· + _) (if_pos rfl).symm
    · rw [getElem?_set_ne (Ne.symm hki)] at hk
      have hcl : (observation.leg e.clientOrder).clientOrder ≠ o'.clientOrder := fun hc =>
        hki (hs.clients.entry_unique hk hget rfl (congrArg some hc))
      rw [if_neg hcl, Nat.zero_add]
      exact hs.known o' (mem_of_getElem? hk)

end

theorem slotIndex_injective : Function.Injective slotIndex := by
  intro a b h
  cases a <;> cases b <;> first | rfl | cases h

theorem admitted_inv (intent : PmOwnedQuoteIntent) : (admitted intent).Inv where
  known_le := le_refl _
  cumulative_le := Nat.zero_le _
  pending := fun _ => ⟨rfl, rfl, rfl, rfl, rfl⟩
  ambiguous := nofun
  accepted := nofun
  rejected := nofun
  filled := nofun

theorem inv_of_admission (hs : s.Inv) {intent : PmOwnedQuoteIntent} {cp ip : ℕ}
    (hcl : Splits (keyAt clientKey s.entries) intent.clientOrder s.clientOrderIndex cp)
    (hint : Splits (keyAt intentKey s.entries) intent.intent s.intentIndex ip)
    (hlen : s.entries.length < maxPmOwnedOrderHistory) : Inv { s with
      slots := update s.slots (slotIndex intent.slot.side) (some intent.clientOrder)
      entries := s.entries ++ [.admitted intent]
      clientOrderIndex := s.clientOrderIndex.insertIdx cp s.entries.length
      intentIndex := s.intentIndex.insertIdx ip s.entries.length } := by
  refine ⟨⟨hs.clients.push rfl hcl, hs.intents.push rfl hint, ?_, ?_, ?_, ?_⟩, hs.ledger, ?_, ?_⟩
  · rw [length_append]
    exact hlen
  · intro side client hslot
    dsimp only at hslot ⊢
    rw [update_apply] at hslot
    split_ifs at hslot with hside
    · exact ⟨.admitted intent, by simp, Option.some.inj hslot, (slotIndex_injective hside).symm⟩
    · obtain ⟨e, he, hc⟩ := hs.slot side client hslot
      exact ⟨e, mem_append_left _ he, hc⟩
  · refine forall_mem_concat.mpr ⟨fun a ha => forall_mem_concat.mpr ⟨hs.venues a ha, ?_⟩, ?_⟩
    · rintro _ _ ⟨⟩
    · rintro _ _ _ ⟨⟩
  · exact forall_mem_concat.mpr ⟨hs.entry, admitted_inv intent⟩
  · intro f hf
    obtain ⟨e, he, hown⟩ := hs.owner f hf
    exact ⟨e, mem_append_left _ he, hown⟩
  · refine forall_mem_concat.mpr ⟨hs.known, (attributed_eq_zero fun f hf hc => ?_).symm⟩
    obtain ⟨o, ho, hoc, -⟩ := hs.owner f hf
    exact hs.clients.ne_of_splits hcl ho (congrArg some (hoc.trans hc))

/-- What is left after a compaction are the orders of the other clients. -/
theorem mem_compacted (hs : s.Tables) {o : OwnedOrderEntry} (hget : s.entries[i]? = some e) :
    o ∈ swapRemove s.entries i ↔ o ∈ s.entries ∧ o.clientOrder ≠ e.clientOrder := by
  rw [mem_swapRemove (List.getElem?_eq_some_iff.mp hget).1]
  constructor
  · rintro ⟨j, hji, hj⟩
    exact ⟨mem_of_getElem? hj, fun hc =>
      hji (hs.clients.entry_unique hj hget rfl (congrArg some hc.symm))⟩
  · rintro ⟨ho, hc⟩
    obtain ⟨j, hj⟩ := mem_iff_getElem?.mp ho
    refine ⟨j, ?_, hj⟩
    rintro rfl
    cases hj.symm.trans hget
    exact hc rfl

theorem inv_of_compact (hs : s.Inv) {cp ip : ℕ} (hget : s.entries[i]? = some e)
    (hcp : s.clientOrderIndex[cp]? = some i) (hip : s.intentIndex[ip]? = some i) : Inv { s with
      slots := if s.slots (slotIndex e.side) = some e.clientOrder then
        update s.slots (slotIndex e.side) none else s.slots
      entries := swapRemove s.entries i
      clientOrderIndex := (s.clientOrderIndex.eraseIdx cp).map (rename (s.entries.length - 1) i)
      intentIndex := (s.intentIndex.eraseIdx ip).map (rename (s.entries.length - 1) i)
      fills := s.fills.filter (·.clientOrder ≠ e.clientOrder) } := by
  have hi := (List.getElem?_eq_some_iff.mp hget).1
  have hmem {o : OwnedOrderEntry} := mem_compacted (o := o) hs.toTables hget
  refine ⟨⟨hs.clients.swapRemove hi (eraseIdx_sublist _ _) (hs.clients.mem_eraseIdx hcp),
    hs.intents.swapRemove hi (eraseIdx_sublist _ _) (hs.intents.mem_eraseIdx hip),
    ?_, ?_, ?_, ?_⟩, hs.ledger.filter _, ?_, ?_⟩
  · have hlen := hs.length_le
    have hcom := length_swapRemove s.entries i
    show (swapRemove s.entries i).length ≤ _
    omega
  · intro side client hslot
    have hold : s.slots (slotIndex side) = some client := by
      dsimp only at hslot
      split_ifs at hslot with hcur
      · rw [update_apply] at hslot
        split_ifs at hslot
        exact hslot
      · exact hslot
    obtain ⟨o, ho, hoc, hos⟩ := hs.slot side client hold
    refine ⟨o, hmem.mpr ⟨ho, fun hc => ?_⟩, hoc, hos⟩
    -- the slot of the compacted order has been emptied
    cases eq_of_clientOrder hs.clients ho (mem_of_getElem? hget) hc
    subst hoc hos
    dsimp only at hslot
    rw [if_pos hold, update_self] at hslot
    cases hslot
  · intro a ha b hb
    exact hs.venues a (hmem.mp ha).1 b (hmem.mp hb).1
  · intro o ho
    exact hs.entry o (hmem.mp ho).1
  · intro f hf
    obtain ⟨hf, hne⟩ := mem_filter.mp hf
    obtain ⟨o, ho, hoc, hov⟩ := hs.owner f hf
    exact ⟨o, hmem.mpr ⟨ho, by simpa [hoc] using hne⟩, hoc, hov⟩
  · intro o ho
    obtain ⟨ho, hne⟩ := hmem.mp ho
    exact (hs.known o ho).trans (attributed_filter_ne hne).symm

/-- The epoch, the watermark and the counters take no part in the invariant. -/
theorem Inv.withRest (hs : s.Inv) (watermark : Option PmOwnedIntentId)
    (epoch : Option ConnectionEpoch) (counters : PmOwnedLifecycleCounters) : Inv { s with
      compactedIntentHighWatermark := watermark
      currentEpoch := epoch
      counters := counters } :=
  { hs with }

section

variable (hs : s.Inv) (h : Change s op t)

include hs h

theorem inv_of_change : t.Inv := by
  cases h with
  | same epoch counters => exact hs.withRest _ epoch counters
  | stepped epoch counters hstep hop =>
    exact (inv_of_stepped hs hstep hop).withRest _ epoch counters
  | knownFill counters hget hstep hfill hkey _ hsame =>
    exact (inv_of_knownFill hs hget hstep hfill hkey hsame).withRest _ _ counters
  | newFill counters hget hstep hnew =>
    exact (inv_of_newFill hs hget hstep hnew).withRest _ _ counters
  | admission counters _ hcl hint _ hlen =>
    exact (inv_of_admission hs hcl hint hlen).withRest _ _ counters
  | compact watermark counters hget _ hcp hip =>
    exact (inv_of_compact hs hget hcp hip).withRest watermark _ counters

/-- What becomes of an order: it stays as it is, it is changed by an `EntryStep`, or it is
compacted. -/
theorem fate_of_change (he : e ∈ s.entries) : (∃ e' ∈ t.entries, e' = e ∨ EntryStep s op e e') ∨
      op = .compactProvenTerminal e.clientOrder ∧ ∀ o ∈ t.entries,
        o.clientOrder ≠ e.clientOrder := by
  cases h with
  | same => exact .inl ⟨e, he, .inl rfl⟩
  | stepped _ _ hstep => exact .inl (hstep.mem' he)
  | knownFill _ hget hstep => exact .inl ((Stepped.set hget hstep).mem' he)
  | newFill _ hget hstep => exact .inl ((Stepped.set hget hstep).mem' he)
  | admission => exact .inl ⟨e, mem_append_left _ he, .inl rfl⟩
  | @compact _ _ _ o _ _ hget =>
    by_cases hc : e.clientOrder = o.clientOrder
    · refine .inr ⟨by rw [hc], fun a ha => ?_⟩
      rw [hc]
      exact ((mem_compacted hs.toTables hget).mp ha).2
    · exact .inl ⟨e, (mem_compacted hs.toTables hget).mpr ⟨he, hc⟩, .inl rfl⟩

/-- Where an order comes from: it was there, perhaps as an `EntryStep` has changed it, or it is
the order of a quote that is admitted. -/
theorem origin_of_change (he' : e' ∈ t.entries) : (∃ e ∈ s.entries, e' = e ∨ EntryStep s op e e') ∨
      ∃ intent, op.admission = some intent ∧ e' = .admitted intent ∧
        ∀ e ∈ s.entries, e.clientOrder ≠ intent.clientOrder := by
  cases h with
  | same => exact .inl ⟨e', he', .inl rfl⟩
  | stepped _ _ hstep => exact .inl (hstep.mem he')
  | knownFill _ hget hstep => exact .inl ((Stepped.set hget hstep).mem he')
  | newFill _ hget hstep => exact .inl ((Stepped.set hget hstep).mem he')
  | admission _ hop hcl =>
    rcases mem_append.mp he' with hold | hnew
    · exact .inl ⟨e', hold, .inl rfl⟩
    · exact .inr ⟨_, hop, mem_singleton.mp hnew, fun e he hc =>
        hs.clients.ne_of_splits hcl he (congrArg some hc)⟩
  | compact _ _ hget =>
    exact .inl ⟨e', ((mem_compacted hs.toTables hget).mp he').1, .inl rfl⟩

end

/-- The epoch of the record never goes back. -/
theorem epochAdvances_of_change (h : Change s op t) :
    EpochAdvances s.currentEpoch t.currentEpoch := by
  cases h with
  | same _ _ hep => exact hep
  | stepped _ _ _ _ hep => exact hep
  | knownFill | newFill | admission | compact => exact .refl _

theorem inv_of_step (hs : s.Inv) (h : step op s = some t) : t.Inv :=
  inv_of_change hs (change_of_step hs h)

theorem inv_new (accountScope : PmAccountScope) (instrument : PmInstrumentHandle) :
    (new accountScope instrument).Inv where
  clients := .empty _
  intents := .empty _
  length_le := Nat.zero_le _
  slot := fun _ _ h => by cases h
  venues := fun _ h => by cases h
  entry := fun _ h => by cases h
  ledger := .nil
  owner := fun _ h => by cases h
  known := fun _ h => by cases h

/-- **Every record reached from a new one satisfies the invariant.** -/
theorem inv_of_reach {accountScope : PmAccountScope} {instrument : PmInstrumentHandle}
    (h : Reach step anyCall (new accountScope instrument) s) : s.Inv :=
  h.invariant (inv_new accountScope instrument) fun _ _ _ hs _ hstep => inv_of_step hs hstep

end PmOwnedOrderLifecycle

end Reap.Owned
