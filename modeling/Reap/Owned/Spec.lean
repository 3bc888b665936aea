import Reap.Owned.Step
import Reap.Owned.Entry

/-!
# One specification for every call

Each function of the reducer is examined once: from a record that satisfies `Inv` it does
not abort, and what it does is a `Change`. The lookups come first; each of them either
finds a retained order or shows that there is none.

## What is proved

* `call_clean` — a call that fails changes nothing but the counters.
* `step_spec` — from a record that satisfies `Inv`, every call succeeds or fails without
  aborting, and leaves a record that is a `Change` of the one before.
-/

namespace Reap.Owned

open Base Reap.Core Reap.Order OwnedOrderEntry U256 OwnedFillEntry List Option

namespace PmOwnedOrderLifecycle

variable {s : PmOwnedOrderLifecycle}

/-! ### Lookups -/

theorem findClient_cases (hs : s.Inv) (client : PmClientOrderKey) :
    (∃ i e, s.findClient client = some (some (i, e)) ∧ s.entries[i]? = some e ∧
      e.clientOrder = client) ∨
    (s.findClient client = some none ∧ ∀ e ∈ s.entries, e.clientOrder ≠ client) := by
  unfold findClient searchClient
  rcases hs.clients.searchSlot_cases client with ⟨p, i, e, hp, -, he, hk⟩ | ⟨p, hp, hspl⟩
  · refine .inl ⟨i, e, ?_, he, some.inj hk⟩
    rw [hp]
    simp [he]
  · exact .inr ⟨by rw [hp], fun e he hc => hs.clients.ne_of_splits hspl he (congrArg some hc)⟩

theorem findVenue_cases (venue : PmVenueOrderKey) :
    (∃ i e, s.findVenue venue = some (some (i, e)) ∧ s.entries[i]? = some e ∧
      e.venueOrder = some venue) ∨
    (s.findVenue venue = some none ∧ ∀ e ∈ s.entries, e.venueOrder ≠ some venue) := by
  unfold findVenue
  cases hfind : s.entries.findIdx? fun entry => entry.venueOrder == some venue with
  | none =>
    refine .inr ⟨rfl, fun e he hv => ?_⟩
    have hne := findIdx?_eq_none_iff.mp hfind e he
    rw [hv, beq_self_eq_true] at hne
    cases hne
  | some i =>
    obtain ⟨hi, heq, -⟩ := findIdx?_eq_some_iff_getElem.mp hfind
    have hget : s.entries[i]? = some s.entries[i] := getElem?_eq_getElem hi
    refine .inl ⟨i, s.entries[i], ?_, hget, eq_of_beq heq⟩
    simp

theorem liveQuote_cases (hs : s.Inv) (side : PmOrderSide) :
    (∃ i e, s.liveQuote side = some (some (i, e)) ∧ s.entries[i]? = some e ∧ e.isLive = true) ∨
    (s.liveQuote side = some none ∧
      ∀ e ∈ s.entries, s.slots (slotIndex side) = some e.clientOrder → e.isTerminal = true) := by
  unfold liveQuote
  cases hslot : s.slots (slotIndex side) with
  | none => exact .inr ⟨rfl, fun _ _ h => by cases h⟩
  | some client =>
    obtain ⟨o, ho, hoc, -⟩ := hs.slot side client hslot
    rcases findClient_cases hs client with ⟨i, e, hfind, he, hc⟩ | ⟨-, hnone⟩
    · simp only [hfind]
      by_cases hlive : e.isLive = true
      · exact .inl ⟨i, e, by rw [if_pos hlive], he, hlive⟩
      · refine .inr ⟨by rw [if_neg hlive], fun a ha hac => ?_⟩
        -- the slot's order is the one that was found, and it is not live
        obtain ⟨j, hj⟩ := mem_iff_getElem?.mp ha
        have hkey : a.clientKey = some client := congrArg some (some.inj hac).symm
        cases hs.clients.entry_unique hj he hkey (congrArg some hc)
        cases hj.symm.trans he
        simpa [isLive] using hlive
    · exact absurd hoc (hnone o ho)

theorem searchFill_cases (hs : s.Inv) (key : PmFillKey) :
    (∃ j f, s.searchFill key = some (.ok j) ∧ s.fills[j]? = some f ∧ f.key = key) ∨
    (∃ p, s.searchFill key = some (.error p) ∧ Splits fillKey key s.fills p) :=
  binarySearchByKey_total hs.ledger key

variable {α : Type} {client : PmClientOrderKey} {venue : PmVenueOrderKey}
  {result : Reply α × PmOwnedOrderLifecycle} {key : PmFillKey} {cumulative : U256}

theorem venueFree_of_preflight (h : s.preflightVenueBinding client venue = .ok ()) :
    s.VenueFree client venue := by
  unfold preflightVenueBinding at h
  split_ifs at h with hcond
  rw [not_or] at hcond
  intro e he hv
  by_contra hne
  refine hcond.2 (any_eq_true.mpr ⟨e, he, ?_⟩)
  simp [hv, hne]

/-! ### The calls -/

/-- The call does not abort, and what it does is a `Change`. -/
def Does {α : Type} (s : PmOwnedOrderLifecycle) (op : Op)
    (result : Reply α × PmOwnedOrderLifecycle) : Prop :=
  result.1 ≠ .panic ∧ Change s op result.2

variable {α : Type} {op : Op} {i : ℕ} {e : OwnedOrderEntry} {f : OwnedFillEntry}
  {observation : PmOwnedFillObservation}

/-- A failed call has changed at most the counters. -/
def OnlyCounts {α : Type} (s : PmOwnedOrderLifecycle) (result : Reply α × PmOwnedOrderLifecycle) :
    Prop :=
  ∀ error, result.1 = .err error → ∃ counters, result.2 = { s with counters := counters }

/-- What every call keeps to: what it does is a `Change`, and if it fails it has changed at most
the counters. -/
structure Clean {α : Type} (s : PmOwnedOrderLifecycle) (op : Op)
    (result : Reply α × PmOwnedOrderLifecycle) : Prop where
  does : Does s op result
  failed : OnlyCounts s result

variable {t : PmOwnedOrderLifecycle} {error : PmOwnedOrderLifecycleError}
  {counters : PmOwnedLifecycleCounters}

theorem Clean.ended (h : Clean s op result) : Clean s op (Outcome.ended result) := by
  obtain ⟨outcome, t⟩ := result
  cases outcome with
  | ok => exact ⟨⟨nofun, h.does.2⟩, nofun⟩
  | err error => exact ⟨⟨nofun, h.does.2⟩, fun _ _ => h.failed error rfl⟩
  | panic => exact absurd rfl h.does.1

theorem Clean.change {value : α} (h : Change s op t) : Clean s op (.ok value, t) :=
  ⟨⟨nofun, h⟩, nofun⟩

theorem Clean.ok {value : α} : Clean s op (.ok value, s) :=
  .change (.counted s.counters)

/-- A call that changes at most the counters is clean, however it ends. -/
theorem Clean.idle {outcome : Reply α} (h : outcome ≠ .panic) :
    Clean s op (outcome, { s with counters := counters }) :=
  ⟨⟨h, .counted counters⟩, fun _ _ => ⟨counters, rfl⟩⟩

theorem Clean.err : Clean (α := α) s op (.err error, s) :=
  .idle nofun

theorem Clean.fail : Clean (α := α) s op (s.fail error) :=
  .idle nofun

theorem epochAdvances_of_validateEpoch {epoch : ConnectionEpoch}
    (h : s.validateEpoch epoch = .ok ()) : EpochAdvances s.currentEpoch (some epoch) := by
  unfold validateEpoch at h
  split_ifs at h with hcond
  rw [not_or] at hcond
  intro current hcur
  exact ⟨epoch, rfl, le_of_lt (not_le.mp fun hle => hcond.2 ⟨current, hcur, hle⟩)⟩

theorem beginEpoch_clean (epoch : ConnectionEpoch) :
    Clean s (.beginEpoch epoch) (s.beginEpoch epoch) := by
  unfold beginEpoch
  split
  · exact .err
  · next hval =>
    exact .change (.sweep _ _ _ (fun _ _ => .beginEpoch) nofun
      (epochAdvances_of_validateEpoch hval))

theorem restoreEpochForRecovery_clean (epoch : ConnectionEpoch) :
    Clean s (.restoreEpochForRecovery epoch) (s.restoreEpochForRecovery epoch) := by
  unfold restoreEpochForRecovery
  split
  · exact .err
  · next hval =>
    exact .change (.same _ s.counters (epochAdvances_of_validateEpoch hval))

/-- The admission of a quote: it is clean by whichever call it is made; a quote can be prepared when
it can be admitted, and the commit then admits it; and the intent of an admitted quote was not
compacted. -/
structure Admits (s : PmOwnedOrderLifecycle) (intent : PmOwnedQuoteIntent) (op : Op) : Prop where
  clean : Clean s op (s.admitQuote intent)
  prepare : (∃ plan, s.prepareAdmitQuote intent = .ok plan ∧
      (s.admitQuote intent).1 = .ok plan.outcome ∧
      s.commitPreflightedAdmitQuote plan = s.admitQuote intent) ∨
    ∃ error, s.prepareAdmitQuote intent = .err error ∧ (s.admitQuote intent).1 = .err error
  admitted : ∀ client, (s.admitQuote intent).1 = .ok (.admitted client) →
    s.isCompacted intent.intent = false ∧ (∀ e ∈ s.entries, e.intent.intent ≠ intent.intent) ∧
      .admitted intent ∈ (s.admitQuote intent).2.entries

theorem admitQuote_spec (hs : s.Inv) {intent : PmOwnedQuoteIntent}
    (hop : op.admission = some intent) : s.Admits intent op := by
  suffices h : Clean s op (s.admitQuote intent) ∧ _ ∧ _ from ⟨h.1, h.2.1, h.2.2⟩
  unfold prepareAdmitQuote admitQuote searchClient searchIntent
  cases s.validateIntentScope intent with
  | error => exact ⟨.err, .inr ⟨_, rfl, rfl⟩, by simp⟩
  | ok =>
  rcases hs.clients.searchSlot_cases intent.clientOrder with
    ⟨p, i, e, hp, -, he, -⟩ | ⟨cp, hcp, hcl⟩
  · simp only [hp, he]
    split_ifs
    · exact ⟨.ok, .inl ⟨_, rfl, rfl, rfl⟩, by simp⟩
    · exact ⟨.fail, .inr ⟨_, rfl, rfl⟩, by simp [fail]⟩
  simp only [hcp]
  rcases hs.intents.searchSlot_cases intent.intent with ⟨p, i, e, hp, -⟩ | ⟨ip, hip, hint⟩
  · simp only [hp]
    exact ⟨.fail, .inr ⟨_, rfl, rfl⟩, by simp [fail]⟩
  simp only [hip]
  by_cases hcom : s.isCompacted intent.intent = true
  · simp only [if_pos hcom]
    exact ⟨.fail, .inr ⟨_, rfl, rfl⟩, by simp [fail]⟩
  simp only [if_neg hcom]
  rcases liveQuote_cases hs intent.slot.side with ⟨i, e, hquo, he, hlive⟩ | ⟨hquo, hdead⟩
  · simp only [hquo]
    by_cases hsame : sameQuote e.intent intent = true
    · simp only [if_pos hsame]
      exact ⟨.idle (by simp), .inl ⟨_, rfl, rfl, rfl⟩, by simp⟩
    simp only [if_neg hsame]
    -- the replacement of a live quote does what its preflight says
    unfold cancelBeforeReplace preflightCancelBeforeReplace
    split
    iterate 3 exact ⟨.ok, .inl ⟨_, rfl, rfl, rfl⟩, by simp⟩
    iterate 3
      next hsub _ _ =>
      refine ⟨.change (.update _ he (.cancelBeforeReplace (by rw [hop]; rfl) hlive hsub) ?_),
        .inl ⟨_, rfl, rfl, ?_⟩, by simp⟩
      · rintro o rfl
        cases hop
      · simp [commitPreflightedAdmitQuote, he]
    exact ⟨.fail, .inr ⟨_, rfl, rfl⟩, by simp [fail]⟩
  simp only [hquo]
  by_cases hfull : s.entries.length = maxPmOwnedOrderHistory
  · simp only [if_pos hfull]
    exact ⟨.idle (by simp), .inr ⟨_, rfl, rfl⟩, by simp⟩
  have hlen : s.entries.length < maxPmOwnedOrderHistory := lt_of_le_of_ne hs.length_le hfull
  have hu16 : toU16 s.entries.length = some s.entries.length := if_pos (lt_trans hlen (by decide))
  simp only [if_neg hfull, insertAdmitted, insertDenseOrder, hu16, insertAt, if_pos hcl.le_length,
    if_pos hint.le_length, map_some]
  refine ⟨.change (.admission _ hop hcl hint hdead hlen), .inl ⟨_, rfl, rfl, ?_⟩,
    fun _ _ => ⟨Bool.eq_false_of_not_eq_true hcom,
      fun e he hid => hs.intents.ne_of_splits hint he (congrArg some hid),
      mem_append_right _ (.head _)⟩⟩
  simp only [commitPreflightedAdmitQuote, insertAdmitted, insertDenseOrder, hu16, insertAt,
    if_pos hcl.le_length, if_pos hint.le_length, map_some]

theorem prepareAndCommit_clean (hs : s.Inv) (intent : PmOwnedQuoteIntent) :
    Clean s (.prepareAndCommit intent) (s.prepareAndCommit intent) := by
  unfold prepareAndCommit
  have hspec : s.Admits intent (.prepareAndCommit intent) := admitQuote_spec hs rfl
  rcases hspec.prepare with ⟨plan, hplan, -, hcom⟩ | ⟨error, herr, -⟩
  · simp only [hplan, hcom]
    exact hspec.clean
  · simp only [herr]
    exact .err

theorem bindVenue_clean {bound : Reply PmOwnedSubmitApply × PmOwnedOrderLifecycle}
    (h : s.preflightVenueBinding client venue = .ok () → Clean s op bound) :
    Clean s op (s.bindVenue client venue bound) := by
  unfold bindVenue
  split
  · exact .fail
  · next hok => exact h hok

theorem duplicateVenue_clean (op : Op) (e : OwnedOrderEntry) (venue : PmVenueOrderKey) :
    Clean s op (s.duplicateVenue e venue) := by
  unfold duplicateVenue
  split_ifs
  · exact .ok
  · exact .fail

theorem applySubmitResult_clean (hs : s.Inv) (client : PmClientOrderKey)
    (result : PmOwnedSubmitResult) :
    Clean s (.applySubmitResult client result) (s.applySubmitResult client result) := by
  unfold applySubmitResult
  rcases findClient_cases hs client with ⟨i, e, hfind, he, rfl⟩ | ⟨hfind, -⟩
  swap
  · simp only [hfind]
    exact .err
  simp only [hfind]
  split
  · next hsub =>
    exact bindVenue_clean fun hbind => .change (.update _ he (.submitAccepted hsub hbind) nofun)
  · next hsub =>
    exact bindVenue_clean fun hbind =>
      .change (.update _ he (.submitLateAccepted hsub hbind) nofun)
  · next hsub => exact .change (.update _ he (.submitRejected (.inl hsub)) nofun)
  · next hsub => exact .change (.update _ he (.submitRejected (.inr hsub)) nofun)
  · next hsub => exact .change (.update _ he (.submitAmbiguous hsub) nofun)
  · next hsub =>
    exact bindVenue_clean fun hbind =>
      .change (.update _ he (.submitAmbiguousOwned hsub hbind) nofun)
  · exact .ok
  · exact .ok
  · exact duplicateVenue_clean _ _ _
  · exact duplicateVenue_clean _ _ _
  · exact duplicateVenue_clean _ _ _
  · exact .fail
  · exact .fail

/-! ### Fills -/

theorem hasFill_of_getElem? {j : ℕ} (hf : s.fills[j]? = some f) (hkey : f.key = key) :
    s.hasFill key = true :=
  any_eq_true.mpr ⟨f, mem_of_getElem? hf, by simp [hkey]⟩

theorem hasFill_of_splits {p : ℕ} (h : Splits fillKey key s.fills p) : s.hasFill key = false := by
  refine any_eq_false.mpr fun f hf heq => ?_
  exact h.key_ne hf (congrArg some (eq_of_beq heq))

theorem keys_nodup (h : s.fills.Pairwise (KeyLt fillKey)) : (s.fills.map (·.key)).Nodup :=
  pairwise_map.mpr (h.imp fun hlt heq => hlt.key_ne (congrArg some heq))

/-- The remaining quantity exists as long as no more is filled than was ordered. -/
theorem exists_remaining (hle : e.cumulativeFilled.value ≤ e.original.value) :
    ∃ rest, remaining e = some rest :=
  ⟨_, congrArg Except.toOption (checkedSub_ok hle)⟩

theorem setEntry_getElem? (e' : OwnedOrderEntry) (hget : s.entries[i]? = some e) :
    (s.setEntry i e').entries[i]? = some e' :=
  List.getElem?_set_self (List.getElem?_eq_some_iff.mp hget).1

/-- The end of a fill succeeds when the filled quantity is in bounds. -/
theorem finishFill_ok (hget : s.entries[i]? = some e) (hle : cumulative.value ≤ e.original.value)
    (occurrence : PmOwnedObservationOccurrence)
    (count : PmOwnedLifecycleCounters → PmOwnedLifecycleCounters)
    (reply : OwnedOrderEntry → U256 → PmOwnedFillApply) :
    ∃ rest counters, s.finishFill i cumulative occurrence count reply =
      (.ok (reply (e.advanceFromFill cumulative occurrence) rest),
        { s.setEntry i (e.advanceFromFill cumulative occurrence) with counters := counters }) := by
  obtain ⟨rest, hrest⟩ : ∃ rest, remaining (e.advanceFromFill cumulative occurrence) = some rest :=
    exists_remaining (by rw [advanceFromFill_eq]; exact hle)
  simp only [finishFill, advanceFromFill, hget, if_neg (not_lt.mpr (le_iff.mpr hle)), readOrder,
    setEntry_getElem? _ hget, hrest, map_some]
  exact ⟨_, _, rfl⟩

/-- The order that a fill observation was applied to, to a new leg or to a known one. -/
def fillOwner : Reply PmOwnedFillApply → Option PmClientOrderKey
  | .ok (.applied client _ _) | .ok (.duplicate client _ _ _ _) => some client
  | _ => none

/-- The observation was applied. -/
def fillApplied (reply : Reply PmOwnedFillApply) : Bool := (fillOwner reply).isSome

/-- The ledger once a fill of the order `e` is applied: a known leg is there already, with the
same owner and quantity, and a new one is inserted in its place. -/
inductive Recorded (s : PmOwnedOrderLifecycle) (observation : PmOwnedFillObservation)
    (e : OwnedOrderEntry) : List OwnedFillEntry → Prop
  | known {j : ℕ} {f f' : OwnedFillEntry} (hfill : s.fills[j]? = some f)
      (hkey : f.key = observation.key) (hclient : f.clientOrder = e.clientOrder)
      (hquantity : f.quantity = observation.quantity)
      (hsame : f'.key = f.key ∧ f'.clientOrder = f.clientOrder ∧ f'.quantity = f.quantity) :
      Recorded s observation e (s.fills.set j f')
  | new {p : ℕ} (hnew : Splits fillKey observation.key s.fills p) :
      Recorded s observation e (s.fills.insertIdx p (observation.leg e.clientOrder))

/-- How `observe_fill` ends: refused, or ignored as an old observation, with at most the
counters changed; or applied to the order that the venue order belongs to. -/
inductive FillReply (s : PmOwnedOrderLifecycle) (observation : PmOwnedFillObservation) :
    Reply PmOwnedFillApply × PmOwnedOrderLifecycle → Prop
  | refused (outcome : Reply PmOwnedFillApply) (counters : PmOwnedLifecycleCounters)
      (hpanic : outcome ≠ .panic) (hidle : fillApplied outcome = false)
      (hnot : ∀ e ∈ s.entries, e.venueOrder = some observation.key.venueOrder →
        ¬ s.FillApplies e observation)
      (hold : ∀ answer, outcome = .ok answer →
        s.validateOccurrence observation.occurrence = .error .oldEpoch) :
      FillReply s observation (outcome, { s with counters := counters })
  | applied {answer : PmOwnedFillApply} {i : ℕ} {e e' : OwnedOrderEntry}
      {fills : List OwnedFillEntry} (counters : PmOwnedLifecycleCounters)
      (howner : fillOwner (.ok answer) = some e.clientOrder) (hget : s.entries[i]? = some e)
      (hstep : EntryStep s (.observeFill observation) e e')
      (hrecorded : Recorded s observation e fills) :
      FillReply s observation
        (.ok answer, { s.setEntry i e' with fills := fills, counters := counters })

theorem FillReply.clean {result : Reply PmOwnedFillApply × PmOwnedOrderLifecycle}
    (h : FillReply s observation result) : Clean s (.observeFill observation) result := by
  cases h with
  | refused _ _ hpan => exact .idle hpan
  | applied counters _ hget hstep hrec =>
    refine .change ?_
    cases hrec with
    | known hfill hkey hcl _ hsame =>
      exact .knownFill counters hget hstep hfill hkey hcl hsame
    | new hnew => exact .newFill counters hget hstep hnew

section

variable (hs : s.Inv)

include hs

/-- A fill is refused when the one order of its venue order does not pass the checks. -/
theorem FillReply.refuse (hget : s.entries[i]? = some e)
    (hvenue : e.venueOrder = some observation.key.venueOrder) (hnot : ¬ s.FillApplies e observation)
    (error : PmOwnedOrderLifecycleError) (counters : PmOwnedLifecycleCounters) :
    FillReply s observation (.err error, { s with counters := counters }) := by
  refine .refused _ counters nofun rfl (fun o ho hv => ?_) nofun
  cases hs.venues o ho e (mem_of_getElem? hget) _ hv hvenue
  exact hnot

omit hs in
theorem reported_le (h : reportsOverfill e observation = false) :
    ∀ cumulative ∈ observation.reportedCumulative, cumulative.value ≤ e.original.value := by
  intro cumulative hmem
  unfold reportsOverfill at h
  rw [mem_def.mp hmem] at h
  simpa [le_iff] using h

section

variable (hget : s.entries[i]? = some e) (hvenue : e.venueOrder = some observation.key.venueOrder)
  (hocc : s.validateOccurrence observation.occurrence = .ok ())
  (hsub : e.submit ≠ .rejected)
  (hover : reportsOverfill e observation = false) (hback : reportsBackwards e observation = false)

include hget hvenue hocc hsub hover hback

theorem observeKnownFill_reply {j : ℕ} (hfill : s.fills[j]? = some f)
    (hkey : f.key = observation.key) :
    FillReply s observation (s.observeKnownFill i e j observation) := by
  have hinv := hs.entry e (mem_of_getElem? hget)
  have hkn : e.knownFillTotal.value = s.knownAfter e observation :=
    (if_pos (hasFill_of_getElem? hfill hkey)).symm
  have hrep := reported_le hover
  set cumulative := maxUnits e.cumulativeFilled
    (observation.reportedCumulative.getD e.cumulativeFilled) with hdef
  have hcum : cumulative.value = s.cumulativeAfter e observation := by
    have hle := hinv.known_le
    rw [hdef, value_maxUnits, cumulativeAfter, ← hkn]
    cases observation.reportedCumulative with
    | none => simp [hle]
    | some => simp [hle]
  have hle : cumulative.value ≤ e.original.value := by
    rw [hdef, value_maxUnits]
    refine max_le hinv.cumulative_le ?_
    cases hr : observation.reportedCumulative with
    | none => exact hinv.cumulative_le
    | some c => exact hrep c hr
  unfold observeKnownFill
  rw [hfill]
  dsimp only
  split_ifs with hcon
  · refine .refuse hs hget hvenue (fun happ => ?_) _ _
    rcases happ.leg with ⟨g, hg, hgkey, hcl, hqua⟩ | ⟨hnew, -⟩
    · -- a fill leg is in the ledger once
      cases inj_on_of_nodup_map (keys_nodup hs.ledger) hg (mem_of_getElem? hfill)
        (hgkey.trans hkey.symm)
      exact hcon.elim (absurd hcl) (absurd hqua)
    · cases hnew.symm.trans (hasFill_of_getElem? hfill hkey)
  rw [not_or, not_not, not_not] at hcon
  obtain ⟨rest, counters, hfin⟩ := finishFill_ok
    (s := { s with fills := s.fills.set j _ }) hget hle observation.occurrence _ _
  rw [hfin]
  have happ : s.FillApplies e observation := ⟨hocc, hsub, hover, hback,
    .inl ⟨f, mem_of_getElem? hfill, hkey, hcon⟩⟩
  have hstep : EntryStep s (.observeFill observation) e _ := .fill hvenue happ hkn hcum hle
  exact .applied counters (by rw [advanceFromFill_eq]; rfl) hget hstep
    (.known hfill hkey hcon.1 hcon.2 ⟨rfl, rfl, rfl⟩)

theorem observeNewFill_reply {p : ℕ} (hnew : Splits fillKey observation.key s.fills p) :
    FillReply s observation (s.observeNewFill i e p observation) := by
  have hinv := hs.entry e (mem_of_getElem? hget)
  have hrep := reported_le hover
  have hfr := hasFill_of_splits hnew
  have hfits (happ : s.FillApplies e observation) : s.fills.length ≠ maxPmOwnedFillKeys ∧
      e.knownFillTotal.value + observation.quantity.protocolUnits.value ≤ e.original.value := by
    rcases happ.leg with ⟨g, hg, hgkey, -⟩ | ⟨-, hfits⟩
    · exact absurd (congrArg some hgkey) (hnew.key_ne hg)
    · exact hfits
  unfold observeNewFill
  split
  · next hfull => exact .refuse hs hget hvenue (fun happ => (hfits happ).1 hfull) _ _
  next hroom =>
  split
  · next herr =>
    refine .refuse hs hget hvenue (fun happ => ?_) _ _
    rw [checkedAdd_ok (lt_of_le_of_lt (hfits happ).2 e.original.lt)] at herr
    cases herr
  next known hadd =>
  have hsum := checkedAdd_eq_ok_iff.mp hadd
  split
  · next hover' =>
    refine .refuse hs hget hvenue (fun happ => ?_) _ _
    have hle := (hfits happ).2
    have hlt := lt_iff.mp hover'
    omega
  next hbd =>
  have hkn : known.value = s.knownAfter e observation := by
    rw [hsum, knownAfter, hasFill_of_splits hnew]
    rfl
  set cumulative := maxUnits (maxUnits e.cumulativeFilled known)
    (observation.reportedCumulative.getD zero) with hdef
  have hcum : cumulative.value = s.cumulativeAfter e observation := by
    rw [hdef, value_maxUnits, value_maxUnits, cumulativeAfter, hkn]
  have hle : cumulative.value ≤ e.original.value := by
    rw [hdef, value_maxUnits, value_maxUnits]
    refine max_le (max_le hinv.cumulative_le (not_lt.mp hbd)) ?_
    cases hr : observation.reportedCumulative with
    | none => exact Nat.zero_le _
    | some c => exact hrep c hr
  simp only [insertAt, if_pos hnew.le_length]
  obtain ⟨rest, counters, hfin⟩ := finishFill_ok
    (s := { s.setEntry i { e with knownFillTotal := known } with fills := s.fills.insertIdx p _ })
    (setEntry_getElem? _ hget) hle observation.occurrence _ _
  rw [hfin]
  have happ : s.FillApplies e observation := ⟨hocc, hsub, hover, hback,
    .inr ⟨hfr, hroom, hsum ▸ not_lt.mp hbd⟩⟩
  have hstep : EntryStep s (.observeFill observation) e _ := .fill hvenue happ hkn hcum hle
  simp only [setEntry, set_set]
  exact .applied counters (by rw [advanceFromFill_eq]; rfl) hget hstep (.new hnew)

end

theorem observeFill_reply (observation : PmOwnedFillObservation) :
    FillReply s observation (s.observeFill observation) := by
  unfold observeFill
  split
  · next hold =>
    refine .refused _ s.counters nofun rfl (fun _ _ _ happ => ?_) fun _ _ => hold
    cases hold.symm.trans happ.occurrence
  · next herr =>
    refine .refused _ s.counters nofun rfl (fun _ _ _ happ => ?_) nofun
    cases herr.symm.trans happ.occurrence
  next hocc =>
  rcases findVenue_cases (s := s) observation.key.venueOrder with
    ⟨i, e, hfind, hget, hvenue⟩ | ⟨hfind, hnone⟩
  swap
  · simp only [hfind]
    exact .refused _ s.counters nofun rfl (fun e he hv => absurd hv (hnone e he)) nofun
  simp only [hfind]
  split_ifs with hsub hover hback
  · exact .refuse hs hget hvenue (fun happ => happ.submit hsub) _ _
  · refine .refuse hs hget hvenue (fun happ => ?_) _ _
    cases hover.symm.trans happ.overfill
  · refine .refuse hs hget hvenue (fun happ => ?_) _ _
    cases hback.symm.trans happ.backwards
  rw [Bool.not_eq_true] at hover hback
  rcases searchFill_cases hs observation.key with ⟨j, f, hsea, hfill, hkey⟩ | ⟨p, hsea, hnew⟩
  · simp only [hsea]
    exact observeKnownFill_reply hs hget hvenue hocc hsub hover hback hfill hkey
  · simp only [hsea]
    exact observeNewFill_reply hs hget hvenue hocc hsub hover hback hnew

/-! ### Remote observations, cancellation and compaction -/

/-- The progress was applied. -/
def progressApplied : Reply PmOwnedProgressApply → Bool
  | .ok (.applied _ _ _) => true
  | _ => false

/-- How `observe_progress` ends: refused, or ignored, with at most the counters changed; or
applied to the order. -/
inductive ProgressReply (s : PmOwnedOrderLifecycle)
    (observation : PmOwnedOrderProgressObservation) :
    Reply PmOwnedProgressApply × PmOwnedOrderLifecycle → Prop
  | refused (outcome : Reply PmOwnedProgressApply) (counters : PmOwnedLifecycleCounters)
      (hpanic : outcome ≠ .panic) (hidle : progressApplied outcome = false) :
      ProgressReply s observation (outcome, { s with counters := counters })
  | applied {answer : PmOwnedProgressApply} {i : ℕ} {e : OwnedOrderEntry}
      (counters : PmOwnedLifecycleCounters) (happlied : progressApplied (.ok answer) = true)
      (hget : s.entries[i]? = some e) (happlies : s.ProgressApplies e observation) :
      ProgressReply s observation
        (.ok answer, { s.setEntry i (e.applyProgress observation) with counters := counters })

variable {observation : PmOwnedOrderProgressObservation}

omit hs in
theorem ProgressReply.clean {result : Reply PmOwnedProgressApply × PmOwnedOrderLifecycle}
    (h : ProgressReply s observation result) : Clean s (.observeProgress observation) result := by
  cases h with
  | refused _ _ hpan => exact .idle hpan
  | applied counters _ hget happ => exact .change (.update counters hget (.progress happ) nofun)

omit hs in
theorem exists_remaining_applyProgress
    (hqua : observation.progress.originalQuantity = e.intent.quantity) :
    ∃ rest, remaining (e.applyProgress observation) = some rest := by
  have hbd := observation.progress.le_original
  rw [hqua] at hbd
  exact exists_remaining (by rw [applyProgress_eq]; exact hbd)

variable (observation : PmOwnedOrderProgressObservation)

theorem observeProgress_reply : ProgressReply s observation (s.observeProgress observation) := by
  unfold observeProgress
  split
  · exact .refused _ s.counters nofun rfl
  · exact .refused _ s.counters nofun rfl
  next hocc =>
  rcases findClient_cases hs observation.clientOrder with ⟨i, e, hfind, hget, hcl⟩ | ⟨hfind, -⟩
  swap
  · simp only [hfind]
    exact .refused _ s.counters nofun rfl
  simp only [hfind]
  split
  · exact .refused _ _ nofun rfl
  next hvenue =>
  split
  · exact .refused _ _ nofun rfl
  next hqua =>
  split
  · exact .refused _ s.counters nofun rfl
  next hord =>
  split
  · split
    · exact .refused _ s.counters nofun rfl
    · exact .refused _ _ nofun rfl
  split
  · exact .refused _ _ nofun rfl
  next hback =>
  split
  · exact .refused _ s.counters nofun rfl
  next hterm =>
  rw [not_or, not_lt, not_lt] at hback
  have happ : s.ProgressApplies e observation :=
    ⟨hocc, hcl.symm, not_not.mp hvenue, not_not.mp hqua,
      Bool.not_eq_true _ ▸ hord, hback.1, hback.2, hterm⟩
  obtain ⟨rest, hrest⟩ := exists_remaining_applyProgress happ.quantity
  rw [hrest]
  exact .applied _ rfl hget happ

theorem matchRemoteOrder_ne_none (identity : PmOrderIdentity) :
    ∃ matched, s.matchRemoteOrder identity = some matched := by
  unfold matchRemoteOrder
  cases hc : identity.clientOrderKey with
  | some client =>
    rcases findClient_cases hs client with ⟨i, e, hfind, -, -⟩ | ⟨hfind, -⟩
    · cases identity.venueOrderKey <;> simp only [hfind]
      · exact ⟨_, rfl⟩
      · split_ifs <;> exact ⟨_, rfl⟩
    · cases identity.venueOrderKey <;> simp only [hfind] <;> exact ⟨_, rfl⟩
  | none =>
    cases hv : identity.venueOrderKey with
    | none => exact absurd ⟨hc, hv⟩ identity.nonempty
    | some venue =>
      rcases findVenue_cases (s := s) venue with ⟨i, e, hfind, -, -⟩ | ⟨hfind, -⟩ <;>
        simp only [hfind] <;> exact ⟨_, rfl⟩

theorem observeRemoteOrder_clean (identity : PmOrderIdentity) :
    Clean s (.observeRemoteOrder identity) (s.observeRemoteOrder identity) := by
  obtain ⟨matched, hmat⟩ := matchRemoteOrder_ne_none hs identity
  unfold observeRemoteOrder
  rw [hmat]
  cases matched with
  | matched => exact .ok
  | ambiguousRemote =>
    cases identity.clientOrderKey with
    | none => exact .ok
    | some client =>
      rcases findClient_cases hs client with ⟨i, e, hfind, hget, -⟩ | ⟨hfind, -⟩
      · simp only [hfind]
        exact .change (.update s.counters hget .remote nofun)
      · simp only [hfind]
        exact .ok

end

/-- The order whose accepted cancel an absence has settled. -/
def settledOrder : Reply PmOwnedDetailAbsenceApply → Option PmClientOrderKey
  | .ok (.settledAcceptedCancel client) => some client
  | _ => none

/-- How `observe_detail_absence` ends: with nothing changed, or with the cancel of the order
settled. -/
inductive AbsenceReply (s : PmOwnedOrderLifecycle) (venue : PmVenueOrderKey)
    (occurrence : PmOwnedObservationOccurrence) :
    Reply PmOwnedDetailAbsenceApply × PmOwnedOrderLifecycle → Prop
  | refused (outcome : Reply PmOwnedDetailAbsenceApply) (hpanic : outcome ≠ .panic)
      (hidle : settledOrder outcome = none) : AbsenceReply s venue occurrence (outcome, s)
  | settled {i : ℕ} {e : OwnedOrderEntry} (hget : s.entries[i]? = some e)
      (hsettles : s.AbsenceSettles e venue occurrence) :
      AbsenceReply s venue occurrence
        (.ok (.settledAcceptedCancel e.clientOrder), s.setEntry i { e with
          reconciliationRequired := false
          lastOccurrence := some occurrence })

section

variable (venue : PmVenueOrderKey) (occurrence : PmOwnedObservationOccurrence)

theorem observeDetailAbsence_reply :
    AbsenceReply s venue occurrence (s.observeDetailAbsence venue occurrence) := by
  unfold observeDetailAbsence
  split
  · exact .refused _ nofun rfl
  · exact .refused _ nofun rfl
  next hocc =>
  rcases findVenue_cases (s := s) venue with ⟨i, e, hfind, hget, hvenue⟩ | ⟨hfind, -⟩
  swap
  · simp only [hfind]
    exact .refused _ nofun rfl
  simp only [hfind]
  split_ifs with hord huns
  · exact .refused _ nofun rfl
  · exact .refused _ nofun rfl
  simp only [not_or, not_not, Bool.not_eq_false, isZero_iff] at huns
  obtain ⟨hsub, hcan, hst, hcum, hkn⟩ := huns
  exact .settled hget ⟨hocc, hvenue, Bool.not_eq_true _ ▸ hord, hsub, hcan, hst,
    hcum, hkn⟩

variable {venue occurrence}

theorem AbsenceReply.clean {result : Reply PmOwnedDetailAbsenceApply × PmOwnedOrderLifecycle}
    (h : AbsenceReply s venue occurrence result) :
    Clean s (.observeDetailAbsence venue occurrence) result := by
  cases h with
  | refused _ hpan => exact .idle hpan
  | settled hget hset => exact .change (.update s.counters hget (.detailAbsence hset) nofun)

end

theorem requestCancel_clean (hs : s.Inv) (client : PmClientOrderKey) :
    Clean s (.requestCancel client) (s.requestCancel client) := by
  unfold requestCancel
  rcases findClient_cases hs client with ⟨i, e, hfind, hget, rfl⟩ | ⟨hfind, -⟩
  swap
  · simp only [hfind]
    exact .err
  simp only [hfind]
  split_ifs with hterm hsub
  · exact .ok
  · exact .fail
  have hlive : e.isLive = true := by simpa [isLive] using hterm
  split
  · exact .err
  next venue hvenue =>
  have hupd (counters : PmOwnedLifecycleCounters) : Change s (.requestCancel e.clientOrder)
        { s.setEntry i { e with cancel := .pending } with counters := counters } :=
    .update counters hget (.requestCancel hlive (by rw [hvenue]; rfl)) nofun
  split
  · exact .change (hupd _)
  · exact .change (hupd _)
  · exact .ok
  · exact .fail
  · exact .ok
  · exact .ok

section

variable (hs : s.Inv) (intent : PmOwnedCancelIntent) (outcome : PmOwnedCancelOutcome)

include hs

theorem preflightCancelResult_ne_panic : s.preflightCancelResult intent outcome ≠ .panic := by
  unfold preflightCancelResult
  rcases findClient_cases hs intent.clientOrder with ⟨i, e, hfind, -, -⟩ | ⟨hfind, -⟩
  · simp only [hfind]
    cases outcome <;> dsimp only <;> split_ifs <;> exact nofun
  · simp only [hfind]
    exact nofun

theorem applyCancelResult_clean :
    Clean s (.applyCancelResult intent outcome) (s.applyCancelResult intent outcome) := by
  unfold applyCancelResult
  split
  · next hpan => exact absurd hpan (preflightCancelResult_ne_panic hs intent outcome)
  · exact .err
  rcases findClient_cases hs intent.clientOrder with ⟨i, e, hfind, hget, hcl⟩ | ⟨hfind, -⟩
  swap
  · simp only [hfind]
    exact .err
  simp only [hfind]
  split
  · exact .fail
  next hvenue =>
  split
  · exact .idle nofun
  split
  · split
    · exact .ok
    · exact .fail
  next hcan =>
  rw [not_and_or, not_not, not_not] at hcan
  exact .change (.update _ hget (.cancelResult hcl.symm (not_not.mp hvenue) hcan) nofun)

end

theorem swapRemoveDenseOrder_eq {cp ip : ℕ} (hcli : Indexed clientKey s.entries s.clientOrderIndex)
    (hint : Indexed intentKey s.entries s.intentIndex)
    (hcp : s.clientOrderIndex[cp]? = some i) (hip : s.intentIndex[ip]? = some i) :
    s.swapRemoveDenseOrder cp ip i = some { s with
      entries := swapRemove s.entries i
      clientOrderIndex := (s.clientOrderIndex.eraseIdx cp).map (rename (s.entries.length - 1) i)
      intentIndex := (s.intentIndex.eraseIdx ip).map (rename (s.entries.length - 1) i) } := by
  have hi := hcli.lt_length (mem_of_getElem? hcp)
  have hlast : s.entries.length - 1 < s.entries.length := by omega
  have hget : s.entries[s.entries.length - 1]? = some s.entries[s.entries.length - 1] :=
    getElem?_eq_getElem hlast
  have hcl := (hcli.mem_iff _).mpr ⟨_, keyAt_of_getElem? hget⟩
  have hinte := (hint.mem_iff _).mpr ⟨_, keyAt_of_getElem? hget⟩
  unfold swapRemoveDenseOrder
  rw [if_neg (not_le.mpr hi), unlist_eq_map hcli.nodup hcp hcl, unlist_eq_map hint.nodup hip hinte]

/-- How a compaction ends: without the order, refused, or with the order gone and the watermark
raised to its intent. -/
theorem compactProvenTerminal_cases (hs : s.Inv) (client : PmClientOrderKey) :
    (s.findClient client = some none ∧
      s.compactProvenTerminal client = (.err .unknownClientOrder, s)) ∨
    ∃ i e, s.findClient client = some (some (i, e)) ∧ s.entries[i]? = some e ∧
      e.clientOrder = client ∧ ((compactable e = false ∧
        s.compactProvenTerminal client = s.fail .terminalCompactionUnavailable) ∨
      (compactable e = true ∧ ∃ result t, s.compactProvenTerminal client = (.ok result, t) ∧
        Change s (.compactProvenTerminal client) t ∧ t.entries = swapRemove s.entries i ∧
        ∀ intent, t.isCompacted intent = (s.isCompacted intent || decide (intent ≤ e.intent.intent)))) := by
  unfold compactProvenTerminal findClient searchClient searchIntent
  rcases hs.clients.searchSlot_cases client with ⟨cp, i, e, hsea, hcp, hget, hkey⟩ | ⟨p, hsea, -⟩
  swap
  · simp only [hsea]
    exact .inl ⟨trivial, trivial⟩
  cases hkey
  simp only [hsea, hget]
  refine .inr ⟨i, e, rfl, hget, rfl, ?_⟩
  rcases hs.intents.searchSlot_cases e.intent.intent with
    ⟨ip, j, o, hsea', hip, ho, hkey⟩ | ⟨p, -, hspl⟩
  swap
  · exact absurd rfl (hs.intents.ne_of_splits hspl (mem_of_getElem? hget))
  cases hs.intents.entry_unique ho hget hkey rfl
  simp only [hsea']
  by_cases hcom : compactable e = false
  · exact .inl ⟨hcom, if_pos hcom⟩
  have hrem (slots : Fin 2 → Option PmClientOrderKey) :=
    swapRemoveDenseOrder_eq (s := { s with slots := slots }) hs.clients hs.intents hcp hip
  rw [if_neg hcom, hrem]
  rw [Bool.not_eq_false] at hcom
  refine .inr ⟨hcom, _, _, rfl, .compact _ _ hget hcom hcp hip, rfl, fun intent => ?_⟩
  unfold isCompacted
  cases s.compactedIntentHighWatermark with
  | none => simp
  | some => simp

theorem compactProvenTerminal_clean (hs : s.Inv) (client : PmClientOrderKey) :
    Clean s (.compactProvenTerminal client) (s.compactProvenTerminal client) := by
  rcases compactProvenTerminal_cases hs client with ⟨-, heq⟩ |
    ⟨i, e, -, -, -, ⟨-, heq⟩ | ⟨-, result, t, heq, hcha, -⟩⟩ <;> rw [heq]
  · exact .err
  · exact .fail
  · exact .change hcha

/-- A sweep that only touches the compaction marks. -/
theorem sweepMarks_change (hop : op.isMarking = true) {f : OwnedOrderEntry → OwnedOrderEntry}
    (hf : ∀ e, OwnedOrderEntry.SameButMark e (f e)) :
    Change s op { s with entries := s.entries.map f } := by
  refine .sweep f s.currentEpoch s.counters (fun e _ => ?_) ?_ (.refl _)
  · obtain ⟨generation, hg⟩ := hf e
    rw [hg]
    exact .mark generation hop
  · rintro o rfl
    cases hop

/-! ### The step -/

/-- **Every call is clean**: from a record that satisfies the invariant it does not abort, what it
does is a `Change`, and one that fails changes nothing but the counters. -/
theorem call_clean (hs : s.Inv) (op : Op) : Clean s op (call op s) := by
  cases op with
  | admitQuote => exact (admitQuote_spec hs rfl).clean.ended
  | prepareAndCommit intent => exact (prepareAndCommit_clean hs intent).ended
  | applySubmitResult client result => exact (applySubmitResult_clean hs client result).ended
  | observeFill observation => exact (observeFill_reply hs observation).clean.ended
  | observeProgress observation => exact (observeProgress_reply hs observation).clean.ended
  | observeRemoteOrder identity => exact (observeRemoteOrder_clean hs identity).ended
  | observeDetailAbsence => exact (observeDetailAbsence_reply _ _).clean.ended
  | requestCancel client => exact (requestCancel_clean hs client).ended
  | applyCancelResult intent outcome => exact (applyCancelResult_clean hs intent outcome).ended
  | beginEpoch epoch => exact (beginEpoch_clean epoch).ended
  | restoreEpochForRecovery epoch => exact (restoreEpochForRecovery_clean epoch).ended
  | compactProvenTerminal client => exact (compactProvenTerminal_clean hs client).ended
  | markCompactableThrough generation through =>
    exact .change (sweepMarks_change rfl fun e => e.sameButMark_ite)
  | clearCompactionMarks generation =>
    exact .change (sweepMarks_change rfl fun e => e.sameButMark_ite)
  | clearInvalidCompactionMarks generation through =>
    exact .change (sweepMarks_change rfl fun e => e.sameButMark_ite)

/-- **One call.** From a record that satisfies the invariant no call aborts, and what it does
is a `Change`. -/
theorem step_spec (hs : s.Inv) (op : Op) : ∃ t, step op s = some t ∧ Change s op t :=
  have h := (call_clean hs op).does
  ⟨_, Outcome.next_eq_some.mpr ⟨h.1, rfl⟩, h.2⟩

/-- What a call that has a next record did. -/
theorem change_of_step (hs : s.Inv) (h : step op s = some t) : Change s op t := by
  obtain ⟨u, hu, hcha⟩ := step_spec hs op
  cases hu.symm.trans h
  exact hcha

end PmOwnedOrderLifecycle

end Reap.Owned
