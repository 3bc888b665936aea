import Reap.Owned.Preflight

/-!
# Stale private evidence

Observations reach the owner late and out of order. Of what an order has absorbed it remembers
one occurrence, and progress that is older than that occurrence is ignored. Two private
occurrences are compared by the venue's order, but an occurrence without private evidence (the
acknowledgement of a send) is compared by the owner's own sequence, in which whatever comes
later is newer. So an acknowledgement displaces the private occurrence that the order
remembered, and private progress that is older than the displaced occurrence is no longer
recognised as stale.

A run is recorded with the occurrences that each order has absorbed, as the answers of the
calls say. The sequence numbers of its observations increase strictly: this is how the owner
mints them.

## What is proved

* `Remembers.absorb` — what an order remembers is the newest private occurrence that it has
  absorbed since the last occurrence without private evidence.
* `stale_progress_ignored_iff` — in every run, private progress that is older than something
  the order has absorbed is ignored exactly when it belongs to an earlier epoch or is older
  than something absorbed since the last occurrence without private evidence.
-/

namespace Reap.Owned

open Base Reap.Core Reap.Order OwnedOrderEntry List

/-! ### Which of two occurrences is remembered -/

namespace PmOwnedObservationOccurrence

variable {a b : PmOwnedObservationOccurrence} {p q : PmPrivateOccurrence}

theorem causalCmp_lt_iff_private (ha : a.privateOccurrence = some p)
    (hb : b.privateOccurrence = some q) : a.causalCmp b = .lt ↔ p < q := by
  rw [causalCmp, ha, hb]
  exact compare_lt_iff_lt

theorem causalCmp_lt_iff_sequence (h : a.privateOccurrence = none ∨ b.privateOccurrence = none) :
    a.causalCmp b = .lt ↔ a.reductionSequence < b.reductionSequence := by
  have heq : a.causalCmp b = compare a.reductionSequence b.reductionSequence := by
    unfold causalCmp
    rcases h with h | h
    · rw [h]
    · rw [h]
      cases a.privateOccurrence <;> rfl
  rw [heq]
  exact compare_lt_iff_lt

theorem causalCmp_asymm (h : a.causalCmp b = .lt) : b.causalCmp a ≠ .lt := by
  cases ha : a.privateOccurrence with
  | none =>
    rw [causalCmp_lt_iff_sequence (.inl ha)] at h
    rw [ne_eq, causalCmp_lt_iff_sequence (.inr ha)]
    exact h.asymm
  | some =>
    cases hb : b.privateOccurrence with
    | none =>
      rw [causalCmp_lt_iff_sequence (.inr hb)] at h
      rw [ne_eq, causalCmp_lt_iff_sequence (.inl hb)]
      exact h.asymm
    | some =>
      rw [causalCmp_lt_iff_private ha hb] at h
      rw [ne_eq, causalCmp_lt_iff_private hb ha]
      exact h.asymm

end PmOwnedObservationOccurrence

open PmOwnedObservationOccurrence (causalCmp_lt_iff_private causalCmp_lt_iff_sequence causalCmp_asymm)

/-- What is remembered once `observed` is absorbed: the observed occurrence, unless the one
remembered before is newer. -/
inductive Newest (last : Option PmOwnedObservationOccurrence)
    (observed : PmOwnedObservationOccurrence) : PmOwnedObservationOccurrence → Prop
  | advance (h : ∀ prior ∈ last, observed.causalCmp prior ≠ .lt) : Newest last observed observed
  | keep {prior : PmOwnedObservationOccurrence} (hlast : last = some prior)
      (h : prior.causalCmp observed ≠ .lt) : Newest last observed prior

/-- The private occurrences of a history, newest first, since the last occurrence without
private evidence. -/
def recentPrivate : List PmOwnedObservationOccurrence → List PmPrivateOccurrence
  | [] => []
  | observed :: history =>
    match observed.privateOccurrence with
    | none => []
    | some p => p :: recentPrivate history

/-- The private occurrence is before the remembered one. -/
def IsBefore (q : PmPrivateOccurrence) (last : Option PmOwnedObservationOccurrence) : Prop :=
  ∃ x ∈ last, ∃ r ∈ x.privateOccurrence, q < r

/-- The remembered occurrence stands for the recent private occurrences of the history. -/
def Remembers (history : List PmOwnedObservationOccurrence)
    (last : Option PmOwnedObservationOccurrence) : Prop :=
  ∀ q, (∃ r ∈ recentPrivate history, q < r) ↔ IsBefore q last

variable {history : List PmOwnedObservationOccurrence} {last : Option PmOwnedObservationOccurrence}
  {observed : PmOwnedObservationOccurrence} {x : PmOwnedObservationOccurrence}

/-- An occurrence without private evidence hides everything private. -/
theorem Remembers.absorb_plain (hpla : observed.privateOccurrence = none)
    (hseq : ∀ prior ∈ last, prior.reductionSequence < observed.reductionSequence)
    (hnew : Newest last observed x) : Remembers (observed :: history) (some x) := by
  intro q
  have hx : x = observed := by
    cases hnew with
    | advance => rfl
    | keep hlast h =>
      rw [ne_eq, causalCmp_lt_iff_sequence (.inr hpla)] at h
      exact absurd (hseq _ hlast) h
  subst hx
  simp [recentPrivate, IsBefore, hpla]

theorem Remembers.absorb (h : Remembers history last)
    (hseq : ∀ prior ∈ last, prior.reductionSequence < observed.reductionSequence)
    (hnew : Newest last observed x) : Remembers (observed :: history) (some x) := by
  cases hp : observed.privateOccurrence with
  | none => exact absorb_plain hp hseq hnew
  | some p =>
  intro q
  have hrec : (∃ r ∈ recentPrivate (observed :: history), q < r) ↔ q < p ∨ IsBefore q last := by
    rw [← h q]
    simp [recentPrivate, hp]
  rw [hrec]
  cases hnew with
  | advance hnot =>
    constructor
    · rintro (hlt | ⟨prior, hpr, r, hr, hlt⟩)
      · exact ⟨observed, rfl, p, hp, hlt⟩
      · have hle := hnot prior hpr
        rw [ne_eq, causalCmp_lt_iff_private hp hr, not_lt] at hle
        exact ⟨observed, rfl, p, hp, lt_of_lt_of_le hlt hle⟩
    · rintro ⟨_, ⟨⟩, r, hr, hlt⟩
      cases hp.symm.trans hr
      exact .inl hlt
  | keep hlast hnot =>
    subst hlast
    refine ⟨?_, .inr⟩
    rintro (hlt | hbef)
    · -- what is kept before a newer private occurrence is private itself
      cases hr : x.privateOccurrence with
      | none =>
        rw [ne_eq, causalCmp_lt_iff_sequence (.inl hr)] at hnot
        exact absurd (hseq x rfl) hnot
      | some r =>
        rw [ne_eq, causalCmp_lt_iff_private hr hp, not_lt] at hnot
        exact ⟨x, rfl, r, hr, lt_of_lt_of_le hlt hnot⟩
    · exact hbef

/-! ### What an order absorbs -/

/-- The occurrence of an observation. -/
def Op.occurrence : Op → Option PmOwnedObservationOccurrence
  | .observeFill observation => some observation.occurrence
  | .observeProgress observation => some observation.occurrence
  | .observeDetailAbsence _ occurrence => some occurrence
  | _ => none

namespace PmOwnedOrderLifecycle

/-- The order that absorbs the observation of a call, as the answer says. -/
def absorber (s : PmOwnedOrderLifecycle) : Op → Option PmClientOrderKey
  | .observeFill observation => fillOwner (s.observeFill observation).1
  | .observeProgress observation =>
    if progressApplied (s.observeProgress observation).1 then some observation.clientOrder else none
  | .observeDetailAbsence venue occurrence =>
    settledOrder (s.observeDetailAbsence venue occurrence).1
  | _ => none

/-- The order `e` absorbs the observation of the call, which leaves `e'`. -/
structure Absorbs (s : PmOwnedOrderLifecycle) (op : Op) (e e' : OwnedOrderEntry) : Prop where
  absorber : s.absorber op = some e.clientOrder
  newest : ∃ observed x, op.occurrence = some observed ∧
    s.validateOccurrence observed = .ok () ∧ Newest e.lastOccurrence observed x ∧
    e'.lastOccurrence = some x

theorem epoch_le_of_valid {s : PmOwnedOrderLifecycle} (h : s.validateOccurrence observed = .ok ())
    {p : PmPrivateOccurrence} (hp : p ∈ observed.privateOccurrence) :
    ∃ current ∈ s.currentEpoch, p.epoch ≤ current := by
  rw [validateOccurrence, Option.mem_def.mp hp] at h
  cases hep : s.currentEpoch with
  | none => rw [hep] at h; cases h
  | some current =>
    rw [hep] at h
    dsimp only at h
    split_ifs at h with hold hnew
    exact ⟨current, rfl, not_lt.mp hnew⟩

/-- What an order remembers changes with what it absorbs, and with nothing else. -/
def Tracks (s : PmOwnedOrderLifecycle) (op : Op) (e' : OwnedOrderEntry) : Prop :=
  (∃ e ∈ s.entries, e'.clientOrder = e.clientOrder ∧ (s.Absorbs op e e' ∨
      s.absorber op ≠ some e.clientOrder ∧ e'.lastOccurrence = e.lastOccurrence)) ∨
    e'.lastOccurrence = none ∧ s.absorber op = none ∧
      ∀ e ∈ s.entries, e.clientOrder ≠ e'.clientOrder

variable {s t : PmOwnedOrderLifecycle} {op : Op} {e e' : OwnedOrderEntry}
  {occurrence : PmOwnedObservationOccurrence}

theorem newest_of_inOrder (h : isOutOfOrder e occurrence = false) :
    Newest e.lastOccurrence occurrence occurrence := by
  refine .advance fun prior hpr hlt => ?_
  rw [isOutOfOrder, Option.mem_def.mp hpr] at h
  simp [hlt] at h

theorem newest_of_fill (e : OwnedOrderEntry) (cumulative : U256)
    (occurrence : PmOwnedObservationOccurrence) : ∃ x, Newest e.lastOccurrence occurrence x ∧
      (e.advanceFromFill cumulative occurrence).lastOccurrence = some x := by
  rw [advanceFromFill_eq]
  refine ⟨_, ?_, rfl⟩
  cases e.lastOccurrence with
  | none => exact .advance nofun
  | some prior =>
    dsimp [PmOwnedObservationOccurrence.causalMax]
    cases hcmp : prior.causalCmp occurrence with
    | lt =>
      refine .advance fun y hy => ?_
      cases hy
      exact causalCmp_asymm hcmp
    | eq | gt => exact .keep rfl (by rw [hcmp]; nofun)

/-- An order that a call leaves alone. -/
theorem tracks_of_mem (he' : e' ∈ s.entries) (hnot : s.absorber op ≠ some e'.clientOrder) :
    s.Tracks op e' :=
  .inl ⟨e', he', rfl, .inr ⟨hnot, rfl⟩⟩

/-- A call that replaces the order that absorbs its observation. -/
theorem tracks_of_set (hs : s.Inv) {i : ℕ} {x : OwnedOrderEntry} (hget : s.entries[i]? = some e)
    (habs : s.Absorbs op e x) (hcl : x.clientOrder = e.clientOrder)
    (he' : e' ∈ s.entries.set i x) : s.Tracks op e' := by
  obtain ⟨j, hj⟩ := mem_iff_getElem?.mp he'
  rw [getElem?_set] at hj
  split_ifs at hj with hij
  · cases hj
    exact .inl ⟨e, mem_of_getElem? hget, hcl, .inl habs⟩
  · refine tracks_of_mem (mem_of_getElem? hj) fun habso => hij ?_
    have hsame := Option.some.inj (habs.absorber.symm.trans habso)
    exact hs.clients.entry_unique hget hj rfl (congrArg some hsame.symm)

theorem EntryStep.last_eq (h : EntryStep s op e e') (hop : op.occurrence = none) :
    e'.lastOccurrence = e.lastOccurrence := by
  cases h with
  | fill | progress | detailAbsence => cases hop
  | cancelResult => rw [applyCancelOutcome_eq]
  | beginEpoch => rw [beginEpoch_eq]
  | _ => rfl

theorem tracks_of_plain (hs : s.Inv) (hcha : Change s op t) (hop : op.occurrence = none)
    (he' : e' ∈ t.entries) : s.Tracks op e' := by
  have hnone : s.absorber op = none := by
    cases op <;> first | rfl | cases hop
  rcases origin_of_change hs hcha he' with ⟨e, he, rfl | hstep⟩ | ⟨intent, -, rfl, hfr⟩
  · exact tracks_of_mem he (by rw [hnone]; nofun)
  · exact .inl ⟨e, he, hstep.clientOrder_eq, .inr ⟨by rw [hnone]; nofun, EntryStep.last_eq hstep hop⟩⟩
  · exact .inr ⟨rfl, hnone, hfr⟩

theorem tracks_of_fill (hs : s.Inv) {observation : PmOwnedFillObservation}
    (hstep : step (.observeFill observation) s = some t) (he' : e' ∈ t.entries) :
    s.Tracks (.observeFill observation) e' := by
  have hrep := observeFill_reply hs observation
  have habs : s.absorber (.observeFill observation) = fillOwner (s.observeFill observation).1 := rfl
  simp only [step, call, Outcome.next_ended] at hstep
  generalize s.observeFill observation = result at hstep hrep habs
  cases hrep with
  | refused outcome _ _ hidle =>
    cases (Outcome.next_eq_some.mp hstep).2
    have hnone : fillOwner outcome = none := by simpa [fillApplied] using hidle
    exact tracks_of_mem he' (by rw [habs, hnone]; rintro ⟨⟩)
  | @applied _ _ e _ _ _ hown hget hent =>
    cases hstep
    refine tracks_of_set hs hget ⟨habs.trans hown, ?_⟩ hent.clientOrder_eq he'
    obtain ⟨known, cumulative, -, happ, -, -, rfl⟩ := hent.fill_cases
    obtain ⟨x, hnew, hx⟩ :=
      newest_of_fill { e with knownFillTotal := known } cumulative observation.occurrence
    exact ⟨_, x, rfl, happ.occurrence, hnew, hx⟩

theorem tracks_of_progress (hs : s.Inv) {observation : PmOwnedOrderProgressObservation}
    (hstep : step (.observeProgress observation) s = some t) (he' : e' ∈ t.entries) :
    s.Tracks (.observeProgress observation) e' := by
  have hrep := observeProgress_reply hs observation
  have habs : s.absorber (.observeProgress observation) =
      if progressApplied (s.observeProgress observation).1 then some observation.clientOrder
      else none := rfl
  simp only [step, call, Outcome.next_ended] at hstep
  generalize s.observeProgress observation = result at hstep hrep habs
  cases hrep with
  | refused _ _ _ hidle =>
    cases (Outcome.next_eq_some.mp hstep).2
    exact tracks_of_mem he' (by rw [habs, hidle]; rintro ⟨⟩)
  | applied _ happl hget happ =>
    cases hstep
    refine tracks_of_set hs hget ⟨?_, _, _, rfl, happ.occurrence,
      newest_of_inOrder happ.order, by rw [applyProgress_eq]⟩
      (by rw [applyProgress_eq]; rfl) he'
    rw [habs, happl, if_pos rfl, happ.client]

theorem tracks_of_absence (hs : s.Inv) {venue : PmVenueOrderKey}
    (hstep : step (.observeDetailAbsence venue occurrence) s = some t) (he' : e' ∈ t.entries) :
    s.Tracks (.observeDetailAbsence venue occurrence) e' := by
  have hrep := observeDetailAbsence_reply (s := s) venue occurrence
  have habs : s.absorber (.observeDetailAbsence venue occurrence) =
      settledOrder (s.observeDetailAbsence venue occurrence).1 := rfl
  simp only [step, call, Outcome.next_ended] at hstep
  generalize s.observeDetailAbsence venue occurrence = result at hstep hrep habs
  cases hrep with
  | refused _ _ hidle =>
    cases (Outcome.next_eq_some.mp hstep).2
    exact tracks_of_mem he' (by rw [habs, hidle]; rintro ⟨⟩)
  | settled hget hset =>
    cases hstep
    refine tracks_of_set hs hget ⟨habs, _, occurrence, rfl, hset.occurrence,
      newest_of_inOrder hset.order, ?_⟩ ?_ he' <;> rfl

theorem tracks_of_step (hs : s.Inv) (hstep : step op s = some t) (he' : e' ∈ t.entries) :
    s.Tracks op e' := by
  cases op with
  | observeFill => exact tracks_of_fill hs hstep he'
  | observeProgress => exact tracks_of_progress hs hstep he'
  | observeDetailAbsence => exact tracks_of_absence hs hstep he'
  | _ => exact tracks_of_plain hs (change_of_step hs hstep) rfl he'

end PmOwnedOrderLifecycle

/-! ### Runs with a history -/

/-- A record, the last sequence number that was minted for it, and what each retained order has
absorbed, newest first. -/
structure Observed where
  lifecycle : PmOwnedOrderLifecycle
  sequence : ℕ
  absorbed : PmClientOrderKey → List PmOwnedObservationOccurrence

namespace Observed

open PmOwnedOrderLifecycle (tracks_of_step epoch_le_of_valid)

/-- A new record. -/
def new (accountScope : PmAccountScope) (instrument : PmInstrumentHandle) : Observed :=
  ⟨.new accountScope instrument, 0, fun _ => []⟩

/-- What an order has absorbed after a call. -/
def record (m : Observed) (op : Op) (client : PmClientOrderKey) :
    List PmOwnedObservationOccurrence :=
  if m.lifecycle.absorber op = some client then op.occurrence.toList ++ m.absorbed client
  else m.absorbed client

/-- Run one call. The sequence number of an observation is greater than all before it. -/
def step (op : Op) (m : Observed) : Option Observed :=
  if ∀ occurrence ∈ op.occurrence, m.sequence < occurrence.reductionSequence.value.toNat then
    (PmOwnedOrderLifecycle.step op m.lifecycle).map fun t =>
      { lifecycle := t
        sequence := (op.occurrence.map (·.reductionSequence.value.toNat)).getD m.sequence
        absorbed := fun client =>
          if t.entries.any (·.clientOrder = client) then m.record op client else [] }
  else none

/-- What a run keeps: the record is sound, and what an order remembers stands for what it has
absorbed. -/
structure Inv (m : Observed) : Prop where
  lifecycle : m.lifecycle.Inv
  /-- Nothing that is remembered was minted later than the last sequence number. -/
  sequence : ∀ e ∈ m.lifecycle.entries, ∀ last ∈ e.lastOccurrence,
    last.reductionSequence.value.toNat ≤ m.sequence
  remembers : ∀ e ∈ m.lifecycle.entries, Remembers (m.absorbed e.clientOrder) e.lastOccurrence
  /-- What is absorbed belongs to no later epoch. -/
  epoch : ∀ client, ∀ o ∈ m.absorbed client, ∀ p ∈ o.privateOccurrence,
    ∃ current ∈ m.lifecycle.currentEpoch, p.epoch ≤ current
  /-- There is no history without an order. -/
  retained : ∀ client, (∀ e ∈ m.lifecycle.entries, e.clientOrder ≠ client) → m.absorbed client = []

theorem inv_new (accountScope : PmAccountScope) (instrument : PmInstrumentHandle) :
    (new accountScope instrument).Inv where
  lifecycle := PmOwnedOrderLifecycle.inv_new accountScope instrument
  sequence := fun _ he => absurd he not_mem_nil
  remembers := fun _ he => absurd he not_mem_nil
  epoch := fun _ _ ho => absurd ho not_mem_nil
  retained := fun _ _ => rfl

variable {m m' : Observed} {op : Op}

/-- What a call does to the record and to the histories. -/
theorem step_cases (h : step op m = some m') :
    (∀ observed ∈ op.occurrence, m.sequence < observed.reductionSequence.value.toNat ∧
      m'.sequence = observed.reductionSequence.value.toNat) ∧ m.sequence ≤ m'.sequence ∧
    PmOwnedOrderLifecycle.step op m.lifecycle = some m'.lifecycle ∧ ∀ client, m'.absorbed client =
      if m'.lifecycle.entries.any (·.clientOrder = client) then m.record op client else [] := by
  unfold step at h
  split_ifs at h with hseq
  obtain ⟨t, ht, rfl⟩ := Option.map_eq_some_iff.mp h
  refine ⟨fun observed hobs => ⟨hseq observed hobs, ?_⟩, ?_, ht, fun _ => rfl⟩
  · rw [Option.mem_def.mp hobs]
    rfl
  · cases hobs : op.occurrence with
    | none => exact le_refl _
    | some observed => exact (hseq observed hobs).le

variable {client : PmClientOrderKey}

theorem record_of_absorbs (hop : op.occurrence = some observed)
    (h : m.lifecycle.absorber op = some client) :
    m.record op client = observed :: m.absorbed client := by
  rw [record, if_pos h, hop]
  rfl

theorem record_of_ne (h : m.lifecycle.absorber op ≠ some client) :
    m.record op client = m.absorbed client :=
  if_neg h

theorem inv_of_step (hm : m.Inv) (h : step op m = some m') : m'.Inv := by
  obtain ⟨hseq, hle, hstep, habso⟩ := step_cases h
  have hcha := PmOwnedOrderLifecycle.change_of_step hm.lifecycle hstep
  refine ⟨PmOwnedOrderLifecycle.inv_of_step hm.lifecycle hstep, ?_, ?_, ?_, ?_⟩
  · intro e' he' last hlast
    rcases tracks_of_step hm.lifecycle hstep he' with
      ⟨e, he, -, habs | ⟨-, hkept⟩⟩ | ⟨hnone, -⟩
    · obtain ⟨observed, x, hop, -, hnew, hx⟩ := habs.newest
      cases hx.symm.trans hlast
      cases hnew with
      | advance => exact (hseq _ hop).2.ge
      | keep hpr => exact (hm.sequence e he _ hpr).trans hle
    · exact (hm.sequence e he last (hkept ▸ hlast)).trans hle
    · cases hnone.symm.trans hlast
  · intro e' he'
    rw [habso, if_pos (any_eq_true.mpr ⟨e', he', decide_eq_true rfl⟩)]
    rcases tracks_of_step hm.lifecycle hstep he' with
      ⟨e, he, hcl, habs | ⟨hnot, hkept⟩⟩ | ⟨hnone, hidle, hfr⟩
    · obtain ⟨observed, x, hop, -, hnew, hx⟩ := habs.newest
      rw [hcl, record_of_absorbs hop habs.absorber, hx]
      refine (hm.remembers e he).absorb (fun prior hpr => ?_) hnew
      have hlt := lt_of_le_of_lt (hm.sequence e he prior hpr) (hseq observed hop).1
      exact hlt
    · rw [hcl, record_of_ne hnot, hkept]
      exact hm.remembers e he
    · rw [record_of_ne (by rw [hidle]; nofun), hm.retained _ hfr, hnone]
      simp [Remembers, recentPrivate, IsBefore]
  · intro client o ho p hp
    rw [habso] at ho
    split_ifs at ho with hany
    swap
    · cases ho
    have hadv := PmOwnedOrderLifecycle.epochAdvances_of_change hcha
    have hlat : (∃ current ∈ m.lifecycle.currentEpoch, p.epoch ≤ current) →
        ∃ current ∈ m'.lifecycle.currentEpoch, p.epoch ≤ current := by
      rintro ⟨current, hcur, hle⟩
      obtain ⟨next, hnext, hle'⟩ := hadv current hcur
      exact ⟨next, hnext, hle.trans hle'⟩
    by_cases hcl : m.lifecycle.absorber op = some client
    swap
    · exact hlat (hm.epoch client o (record_of_ne hcl ▸ ho) p hp)
    -- the order that absorbs the observation is retained, and its occurrence was valid
    obtain ⟨e', he', hc⟩ := any_eq_true.mp hany
    have hc := of_decide_eq_true hc
    rcases tracks_of_step hm.lifecycle hstep he' with
      ⟨e, he, hsame, habs | ⟨hnot, -⟩⟩ | ⟨-, hidle, -⟩
    · obtain ⟨observed, x, hop, hval, -⟩ := habs.newest
      rw [record_of_absorbs hop hcl] at ho
      rcases mem_cons.mp ho with rfl | ho
      · exact hlat (epoch_le_of_valid hval hp)
      · exact hlat (hm.epoch client o ho p hp)
    · exact absurd (hcl.trans (congrArg some (hc.symm.trans hsame))) hnot
    · cases hidle.symm.trans hcl
  · intro client hnone
    rw [habso, if_neg]
    rw [any_eq_true]
    rintro ⟨e, he, hc⟩
    exact hnone e he (of_decide_eq_true hc)

theorem inv_of_reach {accountScope : PmAccountScope} {instrument : PmInstrumentHandle}
    (h : Reach step anyCall (new accountScope instrument) m) : m.Inv :=
  h.invariant (inv_new accountScope instrument) fun _ _ _ hm _ hstep => inv_of_step hm hstep

end Observed

/-! ### Stale progress -/

namespace PmOwnedOrderLifecycle

variable {s : PmOwnedOrderLifecycle} {e : OwnedOrderEntry}
  {observation : PmOwnedOrderProgressObservation} {q : PmPrivateOccurrence}

/-- The observation is of the order: it names its client order, its venue order and its
quantity. -/
@[mk_iff]
structure Describes (observation : PmOwnedOrderProgressObservation) (e : OwnedOrderEntry) :
    Prop where
  client : observation.clientOrder = e.clientOrder
  venue : e.venueOrder = some observation.venueOrder
  quantity : observation.progress.originalQuantity = e.intent.quantity

instance (observation : PmOwnedOrderProgressObservation) (e : OwnedOrderEntry) :
    Decidable (Describes observation e) :=
  decidable_of_iff' _ (describes_iff ..)

/-- Progress of an order in the current epoch is ignored when it is out of order, and only
then. -/
theorem observeProgress_ignored_iff (hs : s.Inv) (he : e ∈ s.entries)
    (hdes : Describes observation e) (hval : s.validateOccurrence observation.occurrence = .ok ()) :
    s.observeProgress observation = (.ok .ignoredOutOfOrder, s) ↔
      isOutOfOrder e observation.occurrence = true := by
  obtain ⟨i, hfind, hget⟩ := findClient_of_mem hs he
  rw [← hdes.client] at hfind
  simp only [observeProgress, hval, hfind, hdes.venue, hdes.quantity, ne_eq,
    not_true_eq_false, if_false]
  by_cases hord : isOutOfOrder e observation.occurrence = true
  · exact iff_of_true (if_pos hord) hord
  refine iff_of_false ?_ hord
  rw [if_neg hord]
  intro h
  have hans := congrArg Prod.fst h
  revert hans
  repeat' first | split | rintro ⟨⟩

theorem isOutOfOrder_iff (hpri : observation.occurrence.privateOccurrence = some q)
    (hseq : ∀ last ∈ e.lastOccurrence,
      last.reductionSequence < observation.occurrence.reductionSequence) :
    isOutOfOrder e observation.occurrence = true ↔ IsBefore q e.lastOccurrence := by
  unfold isOutOfOrder IsBefore
  cases hlast : e.lastOccurrence with
  | none => simp
  | some last =>
    simp only [beq_iff_eq, Option.mem_def, Option.some.injEq, exists_eq_left']
    cases hr : last.privateOccurrence with
    | none =>
      rw [causalCmp_lt_iff_sequence (.inr hr)]
      simpa using (hseq last hlast).le
    | some =>
      rw [causalCmp_lt_iff_private hpri hr]
      simp

theorem epoch_le_of_lt {p : PmPrivateOccurrence} (h : q < p) : q.epoch ≤ p.epoch := by
  have hlt : q.rank < p.rank := h
  rcases Prod.Lex.lt_iff.mp hlt with hep | ⟨hep, -⟩
  · exact hep.le
  · exact hep.le

/-- A private occurrence that is not after the current epoch is of an old epoch, or valid. -/
theorem old_or_valid (hpri : observed.privateOccurrence = some q)
    (hep : ∃ current ∈ s.currentEpoch, q.epoch ≤ current) : s.isOldEpoch observed = true ∨
      s.isOldEpoch observed = false ∧ s.validateOccurrence observed = .ok () := by
  obtain ⟨current, hcur, hle⟩ := hep
  rw [isOldEpoch, validateOccurrence, hpri, Option.mem_def.mp hcur]
  dsimp only
  by_cases hold : q.epoch < current
  · exact .inl (decide_eq_true hold)
  · refine .inr ⟨decide_eq_false hold, ?_⟩
    rw [if_neg hold, if_neg (not_lt.mpr hle)]

end PmOwnedOrderLifecycle

namespace Sample

def occurrenceAt (ingress : IngressSequence) : PmPrivateOccurrence := ⟨⟨1⟩, ingress⟩

/-- A fill of a quarter of the quote, at the sequence number and the private occurrence. -/
def quarterAt (fill : PmFillId) (sequence : PmOwnedReductionSequence)
    (observed : Option PmPrivateOccurrence) : PmOwnedFillObservation where
  key := ⟨venue, fill⟩
  quantity := Samples.quarter
  reportedCumulative := none
  occurrence := ⟨sequence, observed, none, by simp⟩
  source := if observed.isSome then .privateWebSocket else .immediateAcknowledgement
  reported_ge := nofun

/-- Progress of the quote to one half, at the sequence number and the private occurrence. -/
def halfAt (sequence : PmOwnedReductionSequence) (observed : PmPrivateOccurrence) :
    PmOwnedOrderProgressObservation where
  clientOrder := first
  venueOrder := venue
  progress := ⟨quantity, Samples.halfUnits, .partiallyFilled, by decide, by decide⟩
  occurrence := ⟨sequence, some observed, none, by simp⟩
  source := .privateWebSocket

def legOne : PmFillId := Samples.legOne

def legTwo : PmFillId := Samples.legTwo

/-- The first quote is accepted, and a private fill is absorbed at the ingress number 10. -/
def privatelyFilled : List Op :=
  [.beginEpoch ⟨1⟩, .admitQuote firstQuote, .applySubmitResult first (.accepted venue),
    .observeFill (quarterAt legOne ⟨1, Samples.one_ne⟩ (some (occurrenceAt ⟨10⟩)))]

/-- A second fill is then absorbed from an acknowledgement. -/
def thenAcknowledged : List Op :=
  privatelyFilled ++ [.observeFill (quarterAt legTwo ⟨2, Samples.two_ne⟩ none)]

/-- Progress at the ingress number 5, which is before the private fill. -/
def staleProgress : PmOwnedOrderProgressObservation :=
  halfAt ⟨3, Samples.three_ne⟩ (occurrenceAt ⟨5⟩)

end Sample

namespace Observed

open PmOwnedOrderLifecycle Sample

/-- **Stale progress.** In every run, private progress of an order that is older than something
private that the order has absorbed is ignored and changes nothing exactly when it belongs to
an old epoch, or is older than something private that the order has absorbed since the last
observation without private evidence. -/
theorem stale_progress_ignored_iff {m : Observed} {accountScope : PmAccountScope}
    {instrument : PmInstrumentHandle} (hreach : Reach step anyCall (new accountScope instrument) m)
    {e : OwnedOrderEntry} (he : e ∈ m.lifecycle.entries)
    {observation : PmOwnedOrderProgressObservation} (hdescribes : Describes observation e)
    (hsequence : m.sequence < observation.occurrence.reductionSequence.value.toNat)
    {p q : PmPrivateOccurrence}
    (habsorbed : ∃ o ∈ m.absorbed e.clientOrder, o.privateOccurrence = some p)
    (hprivate : observation.occurrence.privateOccurrence = some q) (hstale : q < p) :
    m.lifecycle.observeProgress observation = (.ok .ignoredOutOfOrder, m.lifecycle) ↔
      m.lifecycle.isOldEpoch observation.occurrence = true ∨
        ∃ r ∈ recentPrivate (m.absorbed e.clientOrder), q < r := by
  have hm := inv_of_reach hreach
  have hlast : ∀ last ∈ e.lastOccurrence,
      last.reductionSequence < observation.occurrence.reductionSequence := by
    intro last hmem
    have hlt := lt_of_le_of_lt (hm.sequence e he last hmem) hsequence
    exact hlt
  have hep : ∃ current ∈ m.lifecycle.currentEpoch, q.epoch ≤ current := by
    obtain ⟨o, ho, hp⟩ := habsorbed
    obtain ⟨current, hcur, hle⟩ := hm.epoch _ o ho p hp
    exact ⟨current, hcur, (epoch_le_of_lt hstale).trans hle⟩
  rcases old_or_valid hprivate hep with hold | ⟨hnew, hval⟩
  · have hign : m.lifecycle.observeProgress observation =
        (.ok .ignoredOutOfOrder, m.lifecycle) := by
      simp [observeProgress, (validateOccurrence_oldEpoch_iff _ _).mpr hold]
    exact iff_of_true hign (.inl hold)
  · rw [observeProgress_ignored_iff hm.lifecycle he hdescribes hval, isOutOfOrder_iff hprivate hlast,
      hm.remembers e he q, hnew]
    simp

theorem stale_progress_ignored_of_privatelyFilled :
    ∃ m, Reach step anyCall (new Sample.accountScope Sample.instrument) m ∧
      m.lifecycle.observeProgress staleProgress = (.ok .ignoredOutOfOrder, m.lifecycle) := by
  have hlt : occurrenceAt ⟨5⟩ < occurrenceAt ⟨10⟩ := by decide +kernel
  refine exists_reach_imp (P := fun m => (∃ e ∈ m.lifecycle.entries, Describes staleProgress e ∧
      m.absorbed e.clientOrder = [(quarterAt legOne ⟨1, by decide⟩
        (some (occurrenceAt ⟨10⟩))).occurrence]) ∧ m.sequence = 1) privatelyFilled
    (by decide +kernel) fun m hrch ⟨⟨e, he, hdes, habs⟩, hseq⟩ => ?_
  refine (stale_progress_ignored_iff hrch he hdes
    (by rw [hseq]; decide) (p := occurrenceAt ⟨10⟩) ?_ rfl hlt).mpr (.inr ?_)
  · exact ⟨_, by rw [habs]; exact (.head _), rfl⟩
  · rw [habs]
    exact ⟨occurrenceAt ⟨10⟩, (.head _), hlt⟩

/-- After the acknowledgement, progress that is older than the private fill is applied. -/
theorem stale_progress_applied :
    ∃ m, Reach step anyCall (new Sample.accountScope Sample.instrument) m ∧
      (∃ e ∈ m.lifecycle.entries, Describes staleProgress e ∧
        ∃ o ∈ m.absorbed e.clientOrder, ∃ p ∈ o.privateOccurrence, occurrenceAt ⟨5⟩ < p) ∧
      m.sequence < staleProgress.occurrence.reductionSequence.value.toNat ∧
      progressApplied (m.lifecycle.observeProgress staleProgress).1 = true :=
  exists_reach_of_run thenAcknowledged (by decide +kernel)

end Observed

end Reap.Owned
