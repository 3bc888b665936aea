import Reap.Owned.Staleness
import Mathlib.Algebra.BigOperators.Group.Finset.Basic
import Mathlib.Algebra.Order.BigOperators.Group.Finset

/-!
# The order in which fills are delivered

The fills of an order arrive from several sources, in any order, some of them more than once.
What they leave does not depend on that: after a list of fill observations the ledger has the
legs that are in the list, what is attributed to the order is the sum over these legs, and the
filled quantity and the status follow from the sum.

A list of observations is delivered when every one of them is applied, as a new leg or as a
known one. The ledger holds a bounded number of legs, and a new leg is refused when it is full.

## What is proved

* `OwnedOrderEntry.statusAfterFill_trans` — the status after two fills is the status after one
  that leaves what the second leaves.
* `delivered_of_deliverable` — what a list of observations leaves, as a function of the set of
  its legs.
* `deliveries_agree` — two deliveries of the same observations succeed and leave the same.
* `full_ledger_refuses` — without room in the ledger a delivery fails.
-/

namespace Reap.Owned

open Base Reap.Core Reap.Order OwnedOrderEntry List

/-! ### The status after several fills -/

namespace OwnedOrderEntry

variable {e e' : OwnedOrderEntry} {c c' : U256}

theorem statusAfterFill_congr (hst : e'.status = e.status) (hori : e'.original = e.original)
    (c : U256) : e'.statusAfterFill c = e.statusAfterFill c := by
  have hterm : e'.statusTerminal = e.statusTerminal := by
    unfold statusTerminal
    rw [hst]
  simp [statusAfterFill, filledStatus, hterm, hst, hori]

theorem statusAfterFill_trans (hst : e'.status = e.statusAfterFill c)
    (hori : e'.original = e.original) (hle : c.value ≤ c'.value)
    (hbd : c'.value ≤ e.original.value) : e'.statusAfterFill c' = e.statusAfterFill c' := by
  by_cases hfull : c' = e.original
  · -- nothing but an expiry changes what a complete fill makes of the order
    have hexp : e'.status = some .expired ↔ e.status = some .expired := by
      rw [hst, statusAfterFill]
      by_cases hc : c = e.original
      · rw [if_pos hc, filledStatus]
        split_ifs with h <;> simp [h]
      · split_ifs with h
        · refine iff_of_false (by rintro ⟨⟩) fun hs => ?_
          rw [statusTerminal, hs] at h
          exact absurd h.2 (by rintro ⟨⟩)
        · rfl
    simp [statusAfterFill, hori, if_pos hfull, filledStatus, hexp]
  · have hc : c ≠ e.original := by
      rintro rfl
      exact hfull (U256.ext (le_antisymm hbd hle))
    rw [statusAfterFill, statusAfterFill, hori, if_neg hfull, if_neg hfull]
    rw [statusAfterFill, if_neg hc] at hst
    by_cases hterm : e.statusTerminal = true
    · have hkept : e'.status = e.status := by simpa [hterm] using hst
      have hterm' : e'.statusTerminal = true := by rwa [statusTerminal, hkept]
      simp [hterm, hterm', hkept]
    · have hopen : e'.statusTerminal = false := by
        rw [Bool.not_eq_true] at hterm
        rw [statusTerminal, hst]
        split_ifs
        · rfl
        · exact hterm
      by_cases hzero : c'.isZero = true
      · have hc0 : c.isZero = true := by
          rw [U256.isZero_iff] at hzero ⊢
          omega
        simpa [hzero, hc0] using hst
      · simp [hzero, hopen, hterm]

end OwnedOrderEntry

/-! ### Legs -/

/-- A leg: its key and its quantity. -/
abbrev FillLeg := PmFillKey × PmQuantity

/-- The leg that an observation is of. -/
def PmOwnedFillObservation.keyed (o : PmOwnedFillObservation) : FillLeg := (o.key, o.quantity)

/-- The legs of a set of observations. -/
def legsOf (observations : Finset PmOwnedFillObservation) : Finset FillLeg :=
  observations.image (·.keyed)

/-- The quantity of a set of legs. -/
def totalOf (legs : Finset FillLeg) : ℕ := ∑ leg ∈ legs, leg.2.protocolUnits.value

/-- The legs of a ledger. -/
def ledgerLegs (fills : List OwnedFillEntry) : Finset FillLeg :=
  (fills.map fun f => (f.key, f.quantity)).toFinset

variable {fills : List OwnedFillEntry}

theorem mem_ledgerLegs {leg : FillLeg} :
    leg ∈ ledgerLegs fills ↔ ∃ f ∈ fills, f.key = leg.1 ∧ f.quantity = leg.2 := by
  simp [ledgerLegs, Prod.ext_iff]

theorem totalOf_mono {a b : Finset FillLeg} (h : a ⊆ b) : totalOf a ≤ totalOf b :=
  Finset.sum_le_sum_of_subset h

namespace PmOwnedOrderLifecycle

variable {s t : PmOwnedOrderLifecycle} {e : OwnedOrderEntry}

/-- A ledger has as many entries as legs. -/
theorem card_ledgerLegs (hs : s.Inv) : (ledgerLegs s.fills).card = s.fills.length := by
  have hnd : (s.fills.map fun f => (f.key, f.quantity)).Nodup :=
    .of_map Prod.fst (by simpa [Function.comp_def] using keys_nodup hs.ledger)
  rw [ledgerLegs, toFinset_card_of_nodup hnd, length_map]

/-- An applied fill adds its leg to the ledger. -/
theorem Recorded.legs {observation : PmOwnedFillObservation} (h : Recorded s observation e fills) :
    ledgerLegs fills = insert observation.keyed (ledgerLegs s.fills) := by
  cases h with
  | @known j f f' hfill hkey _ hqua hsame =>
    have hmem : observation.keyed ∈ ledgerLegs s.fills :=
      mem_ledgerLegs.mpr ⟨f, mem_of_getElem? hfill, hkey, hqua⟩
    rw [Finset.insert_eq_of_mem hmem]
    have hleg : (f'.key, f'.quantity) = (f.key, f.quantity) := by rw [hsame.1, hsame.2.2]
    rw [ledgerLegs, map_set_of_eq hfill hleg, ledgerLegs]
  | @new p hnew =>
    have hperm := (perm_insertIdx (observation.leg e.clientOrder) s.fills
      hnew.le_length).map fun f : OwnedFillEntry => (f.key, f.quantity)
    rw [ledgerLegs, toFinset_eq_of_perm _ _ hperm, map_cons, toFinset_cons]
    rfl

/-! ### Deliveries -/

section

variable (s : PmOwnedOrderLifecycle)

/-- One observation is delivered when it is applied. -/
def deliverOne (o : PmOwnedFillObservation) : Option PmOwnedOrderLifecycle :=
  if fillApplied (s.observeFill o).1 then some (s.observeFill o).2 else none

/-- The observations are delivered one after another, each of them with success. -/
def deliver (observations : List PmOwnedFillObservation) : Option PmOwnedOrderLifecycle :=
  observations.foldlM deliverOne s

/-- The observations are fills of the order: they name its venue order, report no cumulative
quantity and belong to the current epoch, agree on the quantity of each leg, also with the
ledger, and their legs that are not in the ledger do not exceed what is left of the order. -/
structure Deliverable (s : PmOwnedOrderLifecycle) (e : OwnedOrderEntry)
    (observations : Finset PmOwnedFillObservation) : Prop where
  venue : ∀ o ∈ observations, e.venueOrder = some o.key.venueOrder
  unreported : ∀ o ∈ observations, o.reportedCumulative = none
  current : ∀ o ∈ observations, s.validateOccurrence o.occurrence = .ok ()
  consistent : ∀ o ∈ observations, ∀ o' ∈ observations, o.key = o'.key → o.quantity = o'.quantity
  ledger : ∀ o ∈ observations, ∀ f ∈ s.fills, f.key = o.key → f.quantity = o.quantity
  total : e.knownFillTotal.value + totalOf (legsOf observations \ ledgerLegs s.fills) ≤
    e.original.value

/-- The ledger has room for the legs. -/
def HasRoom (observations : Finset PmOwnedFillObservation) : Prop :=
  (ledgerLegs s.fills ∪ legsOf observations).card ≤ maxPmOwnedFillKeys

/-- What the delivery of a set of observations has made of the record `s` and its order `e`. -/
structure Delivered (s : PmOwnedOrderLifecycle) (e : OwnedOrderEntry)
    (observations : Finset PmOwnedFillObservation) (t : PmOwnedOrderLifecycle)
    (e' : OwnedOrderEntry) : Prop where
  inv : t.Inv
  mem : e' ∈ t.entries
  intent : e'.intent = e.intent
  venue : e'.venueOrder = e.venueOrder
  submit : e'.submit = .accepted
  epoch : t.currentEpoch = s.currentEpoch
  known : e'.knownFillTotal.value =
    e.knownFillTotal.value + totalOf (legsOf observations \ ledgerLegs s.fills)
  cumulative : e'.cumulativeFilled.value = max e.cumulativeFilled.value e'.knownFillTotal.value
  status : e'.status =
    if observations = ∅ then e.status else e.statusAfterFill e'.cumulativeFilled
  legs : ledgerLegs t.fills = ledgerLegs s.fills ∪ legsOf observations

end

theorem delivered_empty (hs : s.Inv) (he : e ∈ s.entries) (hsub : e.submit = .accepted) :
    Delivered s e ∅ s e where
  inv := hs
  mem := he
  intent := rfl
  venue := rfl
  submit := hsub
  epoch := rfl
  known := by simp [legsOf, totalOf]
  cumulative := (max_eq_left (hs.entry e he).known_le).symm
  status := (if_pos rfl).symm
  legs := by simp [legsOf]

section Step

variable {all before : Finset PmOwnedFillObservation} {e' : OwnedOrderEntry}
  {o : PmOwnedFillObservation}

theorem legsOf_insert : legsOf (insert o before) = insert o.keyed (legsOf before) :=
  Finset.image_insert _ _ _

theorem legsOf_mono (h : before ⊆ all) : legsOf before ⊆ legsOf all := Finset.image_subset_image h

section

variable (h : Delivered s e before t e')

include h

/-- What is new with one more observation. -/
theorem newLegs_insert : legsOf (insert o before) \ ledgerLegs s.fills =
      if o.keyed ∈ ledgerLegs t.fills then legsOf before \ ledgerLegs s.fills
      else insert o.keyed (legsOf before \ ledgerLegs s.fills) := by
  have hmem : o.keyed ∈ ledgerLegs t.fills ↔ o.keyed ∈ ledgerLegs s.fills ∨
    o.keyed ∈ legsOf before := by
    rw [h.legs, Finset.mem_union]
  rw [legsOf_insert]
  by_cases hold : o.keyed ∈ ledgerLegs s.fills
  · rw [if_pos (hmem.mpr (.inl hold)), Finset.insert_sdiff_of_mem _ hold]
  rw [Finset.insert_sdiff_of_notMem _ hold]
  by_cases hnew : o.keyed ∈ legsOf before
  · rw [if_pos (hmem.mpr (.inr hnew)), Finset.insert_eq_of_mem (Finset.mem_sdiff.mpr ⟨hnew, hold⟩)]
  · rw [if_neg fun hin => (hmem.mp hin).elim hold hnew]

theorem total_insert : totalOf (legsOf (insert o before) \ ledgerLegs s.fills) =
      totalOf (legsOf before \ ledgerLegs s.fills) +
        if o.keyed ∈ ledgerLegs t.fills then 0 else o.quantity.protocolUnits.value := by
  rw [newLegs_insert h]
  split_ifs with hmem
  · rfl
  · have hnot : o.keyed ∉ legsOf before \ ledgerLegs s.fills := by
      intro hin
      exact hmem (h.legs ▸ Finset.mem_union_right _ (Finset.mem_sdiff.mp hin).1)
    rw [totalOf, Finset.sum_insert hnot, add_comm]
    rfl

theorem Delivered.original : e'.original = e.original := by
  rw [OwnedOrderEntry.original, h.intent]
  rfl

end

section

variable (hall : Deliverable s e all) (hbefore : before ⊆ all) (ho : o ∈ all)
  (h : Delivered s e before t e')

include hall hbefore ho h

/-- A leg of the ledger with the key of the observation is the leg of the observation. -/
theorem keyed_mem_of_key {f : OwnedFillEntry} (hf : f ∈ t.fills) (hkey : f.key = o.key) :
    f.quantity = o.quantity := by
  have hmem : (f.key, f.quantity) ∈ ledgerLegs t.fills := mem_ledgerLegs.mpr ⟨f, hf, rfl, rfl⟩
  rw [h.legs] at hmem
  rcases Finset.mem_union.mp hmem with hold | hnew
  · obtain ⟨g, hg, hgkey, hgqu⟩ := mem_ledgerLegs.mp hold
    exact hgqu.symm.trans (hall.ledger o ho g hg (hgkey.trans hkey))
  · obtain ⟨o', ho', hleg⟩ := Finset.mem_image.mp hnew
    obtain ⟨hkey', hqua'⟩ := Prod.ext_iff.mp hleg
    exact hqua'.symm.trans (hall.consistent o' (hbefore ho') o ho (hkey'.trans hkey))

theorem hasFill_iff : t.hasFill o.key = true ↔ o.keyed ∈ ledgerLegs t.fills := by
  rw [hasFill, any_eq_true, mem_ledgerLegs]
  constructor
  · rintro ⟨f, hf, hkey⟩
    have hkey := beq_iff_eq.mp hkey
    exact ⟨f, hf, hkey, keyed_mem_of_key hall hbefore ho h hf hkey⟩
  · rintro ⟨f, hf, hkey, -⟩
    exact ⟨f, hf, beq_iff_eq.mpr hkey⟩

/-- What is attributed after one more observation. -/
theorem knownAfter_eq : t.knownAfter e' o =
      e.knownFillTotal.value + totalOf (legsOf (insert o before) \ ledgerLegs s.fills) := by
  rw [total_insert h, knownAfter, h.known]
  simp only [hasFill_iff hall hbefore ho h]
  split_ifs <;> omega

theorem knownAfter_le : t.knownAfter e' o ≤ e.original.value := by
  rw [knownAfter_eq hall hbefore ho h]
  refine le_trans (Nat.add_le_add_left (totalOf_mono ?_) _) hall.total
  exact Finset.sdiff_subset_sdiff (legsOf_mono (Finset.insert_subset ho hbefore)) (le_refl _)

/-- The next observation passes the checks. -/
theorem fillApplies_of_delivered (hroom : s.HasRoom all) : t.FillApplies e' o := by
  have hunr := hall.unreported o ho
  refine ⟨?_, by rw [h.submit]; nofun, by rw [reportsOverfill, hunr],
    by rw [reportsBackwards, hunr], ?_⟩
  · have hcur := hall.current o ho
    rwa [validateOccurrence, ← h.epoch] at hcur
  by_cases hmem : o.keyed ∈ ledgerLegs t.fills
  · obtain ⟨f, hf, hkey, hqua⟩ := mem_ledgerLegs.mp hmem
    obtain ⟨owner, hown, hcl, hven⟩ := h.inv.owner f hf
    have hbd : e'.venueOrder = some f.key.venueOrder := by
      rw [h.venue, hall.venue o ho]
      exact congrArg (fun key : PmFillKey => some key.venueOrder) hkey.symm
    have hsame : owner = e' := h.inv.venues owner hown e' h.mem _ hven hbd
    exact .inl ⟨f, hf, hkey, by rw [← hcl, hsame], hqua⟩
  · have hfr : t.hasFill o.key = false := by
      rw [← Bool.not_eq_true, hasFill_iff hall hbefore ho h]
      exact hmem
    refine .inr ⟨hfr, fun hfull => ?_, ?_⟩
    · have hsub : insert o.keyed (ledgerLegs t.fills) ⊆ ledgerLegs s.fills ∪ legsOf all := by
        refine Finset.insert_subset (Finset.mem_union_right _ (Finset.mem_image_of_mem _ ho)) ?_
        rw [h.legs]
        exact Finset.union_subset_union (le_refl _) (legsOf_mono hbefore)
      have hcard := (Finset.card_le_card hsub).trans hroom
      rw [Finset.card_insert_of_notMem hmem, card_ledgerLegs h.inv] at hcard
      omega
    · have hle := knownAfter_le hall hbefore ho h
      rw [knownAfter, hfr] at hle
      rw [h.original]
      exact hle

/-- **One delivery.** -/
theorem deliverOne_of_delivered (hroom : s.HasRoom all) :
    ∃ t' e'', t.deliverOne o = some t' ∧ Delivered s e (insert o before) t' e'' := by
  have happ := fillApplies_of_delivered hall hbefore ho h hroom
  have hven : e'.venueOrder = some o.key.venueOrder := h.venue.trans (hall.venue o ho)
  have hknoAft := knownAfter_eq hall hbefore ho h
  have hrep := observeFill_reply h.inv o
  have hdoes := hrep.clean.does.2
  unfold deliverOne
  generalize t.observeFill o = result at hrep hdoes
  cases hrep with
  | refused _ _ _ _ hnot => exact absurd happ (hnot e' h.mem hven)
  | @applied answer i x x' fills counters hown hget hstep hrec =>
  obtain ⟨known, cumulative, hxve, -, hkn, hcum, rfl⟩ := hstep.fill_cases
  cases h.inv.venues x (mem_of_getElem? hget) e' h.mem _ hxve hven
  have hans : fillApplied (.ok answer) = true := by rw [fillApplied, hown]; rfl
  have hfie := advanceFromFill_eq { e' with knownFillTotal := known } cumulative o.occurrence
  set next := ({ e' with knownFillTotal := known }).advanceFromFill cumulative o.occurrence
  have hmem : next ∈ t.entries.set i next := mem_setEntry hget
  have hinv := inv_of_change h.inv hdoes
  have hmax : cumulative.value = max e.cumulativeFilled.value known.value := by
    have hmono : e'.knownFillTotal.value ≤ known.value := by
      rw [hkn, knownAfter]
      split_ifs <;> omega
    rw [hcum, cumulativeAfter, hall.unreported o ho, ← hkn, h.cumulative]
    simp only [Option.getD_none, U256.value_zero]
    omega
  have hle : cumulative.value ≤ e.original.value := by
    have hbd := (hinv.entry _ hmem).cumulative_le
    rw [hfie, original] at hbd
    rwa [original, ← h.intent]
  have hmono : e'.cumulativeFilled.value ≤ cumulative.value := by
    rw [hcum]
    exact le_max_of_le_left (le_max_left _ _)
  have hst : ({ e' with knownFillTotal := known }).statusAfterFill cumulative =
      e.statusAfterFill cumulative := by
    have hst := h.status
    split_ifs at hst
    · exact statusAfterFill_congr hst h.original cumulative
    · exact statusAfterFill_trans hst h.original hmono hle
  refine ⟨_, _, if_pos hans, ⟨hinv, hmem, ?_, ?_, ?_, h.epoch, ?_, ?_, ?_, ?_⟩⟩
  · rw [hfie, ← h.intent]
  · rw [hfie, ← h.venue]
  · rw [hfie]
    refine (if_neg ?_).trans h.submit
    rintro ⟨hamb, -⟩
    cases h.submit.symm.trans hamb
  · rw [hfie]
    exact hkn.trans hknoAft
  · rw [hfie]
    exact hmax
  · rw [hfie, if_neg (Finset.insert_ne_empty _ _)]
    exact hst
  · rw [legsOf_insert, Finset.union_insert, ← h.legs]
    exact hrec.legs

end

end Step

/-- **What a delivery leaves**, as a function of the set of observations. -/
theorem delivered_of_deliverable (hs : s.Inv) (he : e ∈ s.entries) (hsubm : e.submit = .accepted)
    {all : Finset PmOwnedFillObservation} (hall : Deliverable s e all) (hroom : s.HasRoom all)
    {observations : List PmOwnedFillObservation} (hsub : observations.toFinset ⊆ all) :
    ∃ t e', s.deliver observations = some t ∧ Delivered s e observations.toFinset t e' := by
  induction observations using reverseRecOn with
  | nil => exact ⟨s, e, rfl, delivered_empty hs he hsubm⟩
  | append_singleton observations o ih =>
    have hins : (observations ++ [o]).toFinset = insert o observations.toFinset := by
      simp
    rw [hins] at hsub ⊢
    obtain ⟨ho, hbefore⟩ := Finset.insert_subset_iff.mp hsub
    obtain ⟨t, e', hdel, h⟩ := ih hbefore
    obtain ⟨t', e'', hone, h'⟩ := deliverOne_of_delivered hall hbefore ho h hroom
    refine ⟨t', e'', ?_, h'⟩
    rw [deliver, foldlM_append]
    rw [deliver] at hdel
    simp [hdel, hone]

/-- What two deliveries leave, where they leave the same. -/
structure Agree (client : PmClientOrderKey) (s t : PmOwnedOrderLifecycle) : Prop where
  order : ∃ e ∈ s.entries, ∃ e' ∈ t.entries, e.clientOrder = client ∧ e'.clientOrder = client ∧
    e.cumulativeFilled = e'.cumulativeFilled ∧ e.knownFillTotal = e'.knownFillTotal ∧
    e.status = e'.status
  legs : ledgerLegs s.fills = ledgerLegs t.fills

variable {o : PmOwnedFillObservation}

/-- An observation is applied only if it passes the checks. -/
theorem fillApplies_of_applied (hs : s.Inv) (h : fillApplied (s.observeFill o).1 = true) :
    ∃ e ∈ s.entries, e.venueOrder = some o.key.venueOrder ∧ s.FillApplies e o := by
  have hrep := observeFill_reply hs o
  generalize s.observeFill o = result at h hrep
  cases hrep with
  | refused _ _ _ hidle => cases hidle.symm.trans h
  | applied _ _ hget hstep =>
    obtain ⟨-, -, hven, happ, -⟩ := hstep.fill_cases
    exact ⟨_, mem_of_getElem? hget, hven, happ⟩

/-- A full ledger takes no new leg. -/
theorem deliverOne_eq_none (hs : s.Inv) (hfull : s.fills.length = maxPmOwnedFillKeys)
    (hnew : o.keyed ∉ ledgerLegs s.fills) : s.deliverOne o = none := by
  refine if_neg fun happ => ?_
  obtain ⟨e, -, -, happl⟩ := fillApplies_of_applied hs happ
  rcases happl.leg with ⟨f, hf, hkey, -, hqua⟩ | ⟨-, hroom, -⟩
  · exact hnew (mem_ledgerLegs.mpr ⟨f, hf, hkey, hqua⟩)
  · exact hroom hfull

end PmOwnedOrderLifecycle

namespace Sample

theorem visible_of_lt : ∀ k < 91, 33 ≤ UInt8.ofNat (33 + k) ∧ UInt8.ofNat (33 + k) ≤ 126 := by
  decide +kernel

/-- A fill identity with two visible characters for a number below `91 * 91`. -/
def legId (n : ℕ) : PmFillId where
  text := [UInt8.ofNat (33 + n / 91 % 91), UInt8.ofNat (33 + n % 91)]
  ne_nil := nofun
  length_le := by simp
  visible := by
    intro byte hbyte
    rcases List.mem_pair.mp hbyte with rfl | rfl
    · exact visible_of_lt _ (Nat.mod_lt _ (by decide))
    · exact visible_of_lt _ (Nat.mod_lt _ (by decide))

/-- A leg of one unit. -/
def unitFill (n : ℕ) : PmOwnedFillObservation where
  key := ⟨venue, legId n⟩
  quantity := ⟨Samples.token.units, Samples.token.ne_zero⟩
  reportedCumulative := none
  occurrence := ⟨⟨1, Samples.one_ne⟩, none, none, Samples.unobserved⟩
  source := .immediateAcknowledgement
  reported_ge := nofun

theorem unitFill_keyed_injOn : Set.InjOn (fun n => (unitFill n).keyed) {n | n < 8281} := by
  intro a ha b hb h
  have htext : (legId a).text = (legId b).text := congrArg (fun leg : FillLeg => leg.1.id.text) h
  simp only [legId, cons.injEq, and_true] at htext
  have hhigh := congrArg UInt8.toNat htext.1
  have hlow := congrArg UInt8.toNat htext.2
  simp only [UInt8.toNat_ofNat'] at hhigh hlow
  simp only [Set.mem_ofPred_eq] at ha hb
  omega

/-- The first `n` legs. -/
def unitFills (n : ℕ) : List PmOwnedFillObservation := (List.range n).map unitFill

theorem legsOf_unitFills (n : ℕ) :
    legsOf (unitFills n).toFinset = (Finset.range n).image fun k => (unitFill k).keyed := by
  ext leg
  simp [legsOf, unitFills]

/-- The first quote is accepted. -/
def accepted : List Op := [.admitQuote firstQuote, .applySubmitResult first (.accepted venue)]

/-- An accepted quote of which nothing is filled. -/
structure Unfilled (s : PmOwnedOrderLifecycle) (e : OwnedOrderEntry) : Prop where
  mem : e ∈ s.entries
  client : e.clientOrder = first
  submit : e.submit = .accepted
  venue : e.venueOrder = some Sample.venue
  original : e.original.value = 1000000
  known : e.knownFillTotal.value = 0
  fills : s.fills = []

open PmOwnedOrderLifecycle

theorem exists_unfilled : ∃ s, Reach step anyCall fresh s ∧ ∃ e, Unfilled s e :=
  exists_reach_imp (P := fun s => (∃ e ∈ s.entries, e.clientOrder = first ∧ e.submit = .accepted ∧
      e.venueOrder = some Sample.venue ∧ e.original.value = 1000000 ∧
      e.knownFillTotal.value = 0) ∧ s.fills = []) accepted (by decide +kernel)
    fun _ _ ⟨⟨e, he, hcl, hsub, hven, hori, hkn⟩, hfil⟩ =>
      ⟨e, he, hcl, hsub, hven, hori, hkn, hfil⟩

variable {s : PmOwnedOrderLifecycle} {e : OwnedOrderEntry}

theorem deliverable_unitFills (h : Unfilled s e) {n : ℕ} (hn : n ≤ 1000000) :
    Deliverable s e (unitFills n).toFinset := by
  have hunit : ∀ {P : PmOwnedFillObservation → Prop}, (∀ k, P (unitFill k)) →
      ∀ o ∈ (unitFills n).toFinset, P o := by
    intro P hP o ho
    obtain ⟨k, -, rfl⟩ := mem_map.mp (mem_toFinset.mp ho)
    exact hP k
  refine ⟨hunit fun _ => h.venue, hunit fun _ => rfl, hunit fun _ => rfl,
    hunit fun _ => hunit fun _ _ => rfl, ?_, ?_⟩
  · intro o _ f hf
    rw [h.fills] at hf
    cases hf
  · rw [h.known, h.original, h.fills, legsOf_unitFills]
    have hsum : totalOf (((Finset.range n).image fun k => (unitFill k).keyed) \ ledgerLegs []) ≤ n := by
      refine (totalOf_mono Finset.sdiff_subset).trans ?_
      refine (Finset.sum_le_card_nsmul _ _ 1 fun leg hleg => ?_).trans ?_
      · obtain ⟨k, -, rfl⟩ := Finset.mem_image.mp hleg
        exact le_refl 1
      · simpa using Finset.card_image_le (s := Finset.range n) (f := fun k => (unitFill k).keyed)
    omega

theorem hasRoom_unitFills (h : Unfilled s e) {n : ℕ} (hn : n ≤ maxPmOwnedFillKeys) :
    s.HasRoom (unitFills n).toFinset := by
  rw [HasRoom, h.fills, legsOf_unitFills]
  refine le_trans ?_ hn
  simpa [ledgerLegs] using Finset.card_image_le (s := Finset.range n) (f := fun k => (unitFill k).keyed)

end Sample

namespace PmOwnedOrderLifecycle

open Sample

variable {s : PmOwnedOrderLifecycle} {e : OwnedOrderEntry}

/-- **Two deliveries of the same fill observations**, in any order and with any repetitions,
succeed and leave the same, as long as the ledger has room for the legs. -/
theorem deliveries_agree {accountScope : PmAccountScope} {instrument : PmInstrumentHandle}
    (hreach : Reach step anyCall (new accountScope instrument) s) (he : e ∈ s.entries)
    (hsub : e.submit = .accepted) {observations : Finset PmOwnedFillObservation}
    (hdeliverable : Deliverable s e observations) (hroom : s.HasRoom observations)
    {first second : List PmOwnedFillObservation} (hfirst : first.toFinset = observations)
    (hsecond : second.toFinset = observations) :
    ∃ t ∈ s.deliver first, ∃ u ∈ s.deliver second, Agree e.clientOrder t u := by
  have hs := inv_of_reach hreach
  obtain ⟨t, a, ht, hta⟩ := delivered_of_deliverable hs he hsub hdeliverable hroom hfirst.subset
  obtain ⟨u, b, hu, hub⟩ := delivered_of_deliverable hs he hsub hdeliverable hroom hsecond.subset
  rw [hfirst] at hta
  rw [hsecond] at hub
  have hkn : a.knownFillTotal = b.knownFillTotal := U256.ext (hta.known.trans hub.known.symm)
  have hcum : a.cumulativeFilled = b.cumulativeFilled := by
    refine U256.ext ?_
    rw [hta.cumulative, hub.cumulative, hkn]
  have hst : a.status = b.status := by rw [hta.status, hub.status, hcum]
  have hcl : ∀ {x : OwnedOrderEntry}, x.intent = e.intent → x.clientOrder = e.clientOrder :=
    fun h => congrArg PmOwnedQuoteIntent.clientOrder h
  exact ⟨t, ht, u, hu, ⟨a, hta.mem, b, hub.mem, hcl hta.intent, hcl hub.intent, hcum,
    hkn, hst⟩, hta.legs.trans hub.legs.symm⟩

theorem deliveries_agree_of_unfilled : ∃ s, Reach step anyCall fresh s ∧
      ∃ t ∈ s.deliver [unitFill 0, unitFill 1], ∃ u ∈ s.deliver [unitFill 1, unitFill 0, unitFill 1],
        Agree Sample.first t u := by
  obtain ⟨s, hrch, e, h⟩ := exists_unfilled
  refine ⟨s, hrch, ?_⟩
  rw [← h.client]
  exact deliveries_agree hrch h.mem h.submit (deliverable_unitFills h (n := 2) (by decide))
    (hasRoom_unitFills h (by decide)) (by decide +kernel) (by decide +kernel)

/-- **A ledger without room.** More legs of an accepted order than the ledger holds are not all
applied, although they do not exceed the order. -/
theorem full_ledger_refuses :
    ∃ s, Reach step anyCall fresh s ∧ ∃ e ∈ s.entries, e.submit = .accepted ∧
      ∃ observations : List PmOwnedFillObservation,
        Deliverable s e observations.toFinset ∧ s.deliver observations = none := by
  obtain ⟨s, hrch, e, h⟩ := exists_unfilled
  refine ⟨s, hrch, e, h.mem, h.submit, unitFills (maxPmOwnedFillKeys + 1),
    deliverable_unitFills h (by decide), ?_⟩
  obtain ⟨t, e', hdel, ht⟩ := delivered_of_deliverable (inv_of_reach hrch) h.mem h.submit
    (deliverable_unitFills h (n := maxPmOwnedFillKeys) (by decide)) (hasRoom_unitFills h le_rfl)
    (Finset.Subset.refl _)
  have hlegs : ledgerLegs t.fills =
      (Finset.range maxPmOwnedFillKeys).image fun k => (unitFill k).keyed := by
    rw [ht.legs, h.fills, legsOf_unitFills]
    exact Finset.empty_union _
  have hinj : Set.InjOn (fun k => (unitFill k).keyed) {k | k < maxPmOwnedFillKeys + 1} :=
    unitFill_keyed_injOn.mono fun k (hk : k < 8193) => by
      simp only [Set.mem_ofPred_eq]
      omega
  have hfull : t.fills.length = maxPmOwnedFillKeys := by
    rw [← card_ledgerLegs ht.inv, hlegs, Finset.card_image_of_injOn, Finset.card_range]
    refine hinj.mono fun k hk => ?_
    exact Nat.lt_succ_of_lt (Finset.mem_range.mp hk)
  have hnew : (unitFill maxPmOwnedFillKeys).keyed ∉ ledgerLegs t.fills := by
    rw [hlegs]
    rintro hmem
    obtain ⟨k, hk, heq⟩ := Finset.mem_image.mp hmem
    have hlt := Finset.mem_range.mp hk
    have hsame := hinj (Nat.lt_succ_of_lt hlt) (Nat.lt_succ_self _) heq
    exact absurd hsame hlt.ne
  have hone := deliverOne_eq_none ht.inv hfull hnew
  rw [deliver] at hdel
  rw [deliver, unitFills, range_succ, map_append, foldlM_append]
  rw [unitFills] at hdel
  simp [hdel, hone]

end PmOwnedOrderLifecycle

end Reap.Owned
