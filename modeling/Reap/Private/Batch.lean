import Reap.Private.Events

/-!
# A preflighted batch can be reduced

The rows of a complete fill query are preflighted against one state of the lifecycle and then
reduced one after the other. A row that is reduced changes what the next ones meet: the ledger
gets longer, and an order has less left to fill. `Fits` says what the preflight has established in
terms that survive: it speaks about the rows that are still to come, and `Fits.next` shows that a
reduced row leaves it true of the rest.

Rows have different keys, so a row finds its own leg as the preflight found it. Bindings do not
change, so it finds the same owner. What the rows of an order still have to add, and the number of
keys they still need, only get smaller.

## What is proved

* `fits_of_preflight` — a passed preflight establishes `Fits`.
* `reduceOwnedFillEvent_ok` — a row that fits is reduced.
* `reduceRows_ok` — every row of a preflighted query is reduced.
-/

namespace Reap.Private

open Base Reap.Core Reap.Owned Reap.Owned.PmOwnedOrderLifecycle OwnedOrderEntry Outcome List Bool
open Nat

/-! ### The owner of a row -/

/-- The row is a fill of the order: it names its venue order, and its client order if it names
one. -/
def owns (e : OwnedOrderEntry) (row : PmFillEvent) : Bool :=
  e.venueOrder == some row.fillKey.venueOrder && row.order.clientOrderKey.all (· == e.clientOrder)

variable {e : OwnedOrderEntry} {row : PmFillEvent} {rows events rest : List PmFillEvent}
  {observation : PmOwnedFillObservation} {source : PmOwnedObservationSource}
  {occurrence first : PmOwnedObservationOccurrence} {range : PmOwnedObservationRange}

theorem owns_iff : owns e row = true ↔ e.venueOrder = some row.fillKey.venueOrder ∧
      ∀ client ∈ row.order.clientOrderKey, client = e.clientOrder := by
  unfold owns
  cases row.order.clientOrderKey <;> simp

variable {s t : PmOwnedOrderLifecycle}

theorem order_of_mem (hs : s.Inv) (he : e ∈ s.entries) : s.order e.clientOrder = some (some e) := by
  unfold PmOwnedOrderLifecycle.order
  rcases findClient_cases hs e.clientOrder with ⟨i, o, hfind, hget, hcl⟩ | ⟨-, hnone⟩
  · cases eq_of_clientOrder hs.clients (mem_of_getElem? hget) he hcl
    rw [hfind]
    rfl
  · exact absurd rfl (hnone e he)

/-- How a fill is matched: to the order that owns it, if there is one. -/
theorem matchRemoteOrder_cases (hs : s.Inv) (row : PmFillEvent) :
    (∃ e ∈ s.entries, owns e row = true ∧
      s.matchRemoteOrder row.order = some (.matched e.clientOrder)) ∨
    (s.matchRemoteOrder row.order = some .ambiguousRemote ∧
      ∀ e ∈ s.entries, owns e row = false) := by
  unfold matchRemoteOrder
  rw [row.venue_matches]
  cases hcl : row.order.clientOrderKey with
  | none =>
    rcases findVenue_cases (s := s) row.fillKey.venueOrder with
      ⟨i, e, hfind, hget, hven⟩ | ⟨hfind, hnone⟩
    · refine .inl ⟨e, mem_of_getElem? hget, owns_iff.mpr ⟨hven, ?_⟩, by simp [hfind]⟩
      rw [hcl]
      nofun
    · refine .inr ⟨by simp [hfind], fun e he => ?_⟩
      rw [← not_eq_true, owns_iff]
      exact fun h => hnone e he h.1
  | some client =>
    rcases findClient_cases hs client with ⟨i, e, hfind, hget, hkey⟩ | ⟨hfind, hnone⟩
    · have he := mem_of_getElem? hget
      simp only [hfind]
      by_cases hven : e.venueOrder = some row.fillKey.venueOrder
      · rw [if_pos hven]
        refine .inl ⟨e, he, owns_iff.mpr ⟨hven, ?_⟩, by rw [hkey]⟩
        rw [hcl]
        rintro _ ⟨⟩
        exact hkey.symm
      · rw [if_neg hven]
        refine .inr ⟨rfl, fun o ho => ?_⟩
        rw [← not_eq_true, owns_iff]
        rintro ⟨hoth, hsame⟩
        cases eq_of_clientOrder hs.clients ho he ((hsame client hcl).symm.trans hkey.symm)
        exact hven hoth
    · refine .inr ⟨by simp [hfind], fun e he => ?_⟩
      rw [← not_eq_true, owns_iff]
      exact fun h => hnone e he (h.2 client hcl).symm

/-- A row has one owner. -/
theorem owner_unique (hs : s.Inv) {a b : OwnedOrderEntry} (ha : a ∈ s.entries) (hb : b ∈ s.entries)
    (hrow : owns a row = true) (hrow' : owns b row = true) : a = b :=
  hs.venues a ha b hb _ (owns_iff.mp hrow).1 (owns_iff.mp hrow').1

/-! ### What a batch needs -/

section

variable (s : PmOwnedOrderLifecycle) (row : PmFillEvent)

/-- The row is a fill of an owned order that the ledger does not have. -/
def isNewOwned : Bool :=
  s.entries.any (owns · row) && !s.hasFill row.fillKey

/-- The quantity of a row. -/
def rowUnits : ℕ := row.execution.quantity.protocolUnits.value

/-- The row is of the venue order and not in the ledger. -/
def isPendingOf (venue : PmVenueOrderKey) (row : PmFillEvent) : Bool :=
  row.fillKey.venueOrder == venue && !s.hasFill row.fillKey

/-- What the rows add to what is filled of a venue order. -/
def pendingUnits (venue : PmVenueOrderKey) (rows : List PmFillEvent) : ℕ :=
  ((rows.filter (isPendingOf s venue)).map rowUnits).sum

end

theorem pendingUnits_cons (venue : PmVenueOrderKey) (row : PmFillEvent) (rest : List PmFillEvent) :
    pendingUnits s venue (row :: rest) =
      (if isPendingOf s venue row then rowUnits row else 0) + pendingUnits s venue rest := by
  unfold pendingUnits
  rw [filter_cons]
  split_ifs
  · rw [map_cons, sum_cons]
  · exact (zero_add _).symm

variable {venue : PmVenueOrderKey} {e' : OwnedOrderEntry}

/-- The leg of the row is in the ledger, as a fill of the order, or the order has room for what
the rows of its venue order add. -/
def LegFits (s : PmOwnedOrderLifecycle) (rows : List PmFillEvent) (e : OwnedOrderEntry)
    (row : PmFillEvent) : Prop :=
  (∃ f ∈ s.fills, f.key = row.fillKey ∧ f.clientOrder = e.clientOrder ∧
    f.quantity = row.execution.quantity) ∨
  s.hasFill row.fillKey = false ∧
    e.knownFillTotal.value + pendingUnits s row.fillKey.venueOrder rows ≤ e.original.value

/-- A row that can be reduced: it fits its owner, and unless it belongs to an old epoch, in which
case it is ignored, its leg fits. -/
def RowFits (s : PmOwnedOrderLifecycle) (rows : List PmFillEvent)
    (occurrence : PmOwnedObservationOccurrence) (row : PmFillEvent) : Prop :=
  ∀ e ∈ s.entries, owns e row = true → fillConflicts e row = false ∧
    (s.validateOccurrence occurrence = .error .oldEpoch ∨
      s.validateOccurrence occurrence = .ok () ∧ e.submit ≠ .rejected ∧ LegFits s rows e row)

/-- The rows can be reduced one after the other. -/
structure Fits (s : PmOwnedOrderLifecycle) (occurrence : PmOwnedObservationOccurrence)
    (rows : List PmFillEvent) : Prop where
  row : ∀ row ∈ rows, RowFits s rows occurrence row
  room : s.fills.length + rows.countP (isNewOwned s) ≤ maxPmOwnedFillKeys

/-! ### What the preflight establishes -/

/-- Only the private occurrence decides whether an occurrence is of the current epoch. -/
theorem validateOccurrence_congr {a b : PmOwnedObservationOccurrence}
    (h : a.privateOccurrence = b.privateOccurrence) (hep : t.currentEpoch = s.currentEpoch) :
    t.validateOccurrence a = s.validateOccurrence b := by
  unfold validateOccurrence
  rw [h, hep]

/-- The inner loop of the preflight adds up the rows of a venue order. -/
theorem batchTotal_eq {total result : U256} (h : batchTotal s venue rows total = .ok result) :
    result.value = total.value + pendingUnits s venue rows := by
  induction rows generalizing total with
  | nil =>
    cases h
    rfl
  | cons row _ ih =>
    rw [pendingUnits_cons]
    unfold batchTotal at h
    split_ifs at h with hskip
    · have hnot : isPendingOf s venue row = false := by
        unfold isPendingOf
        rcases hskip with hven | hfill
        · simp [hven]
        · simp [hfill]
      rw [ih h, if_neg (by rw [hnot]; nofun), zero_add]
    · have hpend : isPendingOf s venue row = true := by
        simpa [isPendingOf] using hskip
      split at h
      · cases h
      · next sum hsum =>
        rw [ih h, U256.checkedAdd_eq_ok_iff.mp hsum, if_pos hpend, add_assoc]
        rfl

section

variable (hs : s.Inv)

include hs

/-- What a passed fill preflight says of the order that the venue order belongs to. -/
theorem legChecks_of_preflightFill (he : e ∈ s.entries)
    (hven : e.venueOrder = some observation.key.venueOrder)
    (h : s.preflightFill observation = .ok ()) :
    s.validateOccurrence observation.occurrence = .error .oldEpoch ∨
      s.validateOccurrence observation.occurrence = .ok () ∧ e.submit ≠ .rejected ∧
        ((∃ f ∈ s.fills, f.key = observation.key ∧ f.clientOrder = e.clientOrder ∧
          f.quantity = observation.quantity) ∨ s.hasFill observation.key = false) := by
  rw [← observeFill_preflight hs] at h
  have hrep := observeFill_reply hs observation
  generalize s.observeFill observation = result at h hrep
  cases hrep with
  | refused outcome _ _ _ _ hold =>
    cases outcome with
    | ok answer => exact .inl (hold answer rfl)
    | err | panic => cases h
  | applied _ _ hget hstep =>
    obtain ⟨-, -, hown, happ, -⟩ := hstep.fill_cases
    cases hs.venues _ (mem_of_getElem? hget) e he _ hown hven
    exact .inr ⟨happ.occurrence, happ.submit, happ.leg.imp_right And.left⟩

/-- One round of the preflight. -/
theorem rowFits_of_preflight {isNew : Bool}
    (h : preflightBatchRow s events source occurrence row = .ok isNew) :
    isNew = isNewOwned s row ∧ RowFits s events occurrence row := by
  obtain ⟨⟨⟩, hev, hrest⟩ := bind_eq_ok.mp h
  unfold preflightOwnedFillEvent at hev
  rcases matchRemoteOrder_cases hs row with ⟨e, he, howns, hmat⟩ | ⟨hmat, hnone⟩
  swap
  · rw [hmat] at hrest
    cases hrest
    refine ⟨?_, fun e he howns => absurd ((hnone e he).symm.trans howns) nofun⟩
    unfold isNewOwned
    rw [any_eq_false.mpr fun e he => by rw [hnone e he]; nofun, Bool.false_and]
  have hany : s.entries.any (owns · row) = true := any_eq_true.mpr ⟨e, he, howns⟩
  rw [hmat] at hev hrest
  simp only [expect_some, ok_bind, order_of_mem hs he] at hev hrest
  split_ifs at hev with hcon
  have hcon' : fillConflicts e row = false := by simpa using hcon
  obtain ⟨observation, hobs, hfill⟩ := bind_eq_ok.mp hev
  cases hobs
  have hche := legChecks_of_preflightFill hs he (owns_iff.mp howns).1 hfill
  split_ifs at hrest with hkn
  · cases hrest
    refine ⟨by rw [isNewOwned, hany, hkn]; rfl, fun o ho hrow => ?_⟩
    cases owner_unique hs ho he hrow howns
    refine ⟨hcon', hche.imp_right fun ⟨hok, hsub, hleg⟩ => ⟨hok, hsub, .inl ?_⟩⟩
    exact hleg.resolve_right (by simp [hkn])
  · have hnew : s.hasFill row.fillKey = false := by simpa using hkn
    obtain ⟨batch, hbat, htot⟩ := bind_eq_ok.mp hrest
    split at htot
    · cases htot
    next total hsum =>
    split_ifs at htot with hover
    cases htot
    refine ⟨by rw [isNewOwned, hany, hnew]; rfl, fun o ho hrow => ?_⟩
    cases owner_unique hs ho he hrow howns
    refine ⟨hcon', hche.imp_right fun ⟨hok, hsub, _⟩ => ⟨hok, hsub, .inr ⟨hnew, ?_⟩⟩⟩
    have hbat' := batchTotal_eq hbat
    rw [U256.checkedAdd_eq_ok_iff, hbat'] at hsum
    have hle : total.value ≤ e.original.value := not_lt.mp hover
    simpa [hsum, U256.value_zero] using hle

omit hs in
theorem batchTotal_ne_panic (s : PmOwnedOrderLifecycle) (venue : PmVenueOrderKey)
    (rows : List PmFillEvent) (total : U256) : batchTotal s venue rows total ≠ .panic := by
  induction rows generalizing total with
  | nil => nofun
  | cons _ _ ih =>
    unfold batchTotal
    split_ifs
    · exact ih total
    · split
      · nofun
      · exact ih _

/-- One round of the preflight does not abort. -/
theorem preflightBatchRow_ne_panic (events : List PmFillEvent)
    (source : PmOwnedObservationSource) (occurrence : PmOwnedObservationOccurrence)
    (row : PmFillEvent) : preflightBatchRow s events source occurrence row ≠ .panic := by
  unfold preflightBatchRow preflightOwnedFillEvent
  rcases matchRemoteOrder_cases hs row with ⟨e, he, -, hmat⟩ | ⟨hmat, -⟩
  · simp only [hmat, expect_some, ok_bind, order_of_mem hs he]
    refine bind_ne_panic ?_ fun _ _ => ?_
    · split_ifs
      · nofun
      · exact (observeFill_preflight hs _).symm.trans_ne (call_clean hs (.observeFill _)).does.1
    · split_ifs
      · nofun
      refine bind_ne_panic (batchTotal_ne_panic s _ _ _) fun batch _ => ?_
      split
      · nofun
      · split_ifs <;> nofun
  · simp only [hmat, expect_some, ok_bind]
    nofun

section

variable (hfst : first.privateOccurrence = some range.privateOccurrence)

include hfst

/-- The loop of the preflight. -/
theorem rowsFit_of_preflight {index n total : ℕ}
    (h : preflightBatchRows s events range source index rows n = .ok total) :
    total = n + rows.countP (isNewOwned s) ∧ ∀ row ∈ rows, RowFits s events first row := by
  induction rows generalizing index n with
  | nil =>
    cases h
    exact ⟨rfl, fun _ hin => absurd hin not_mem_nil⟩
  | cons _ _ ih =>
    obtain ⟨occurrence, hocc, h⟩ := bind_eq_ok.mp h
    obtain ⟨isNew, hrow, hrest⟩ := bind_eq_ok.mp h
    obtain ⟨rfl, hfits⟩ := rowFits_of_preflight hs hrow
    obtain ⟨rfl, hresFit⟩ := ih hrest
    refine ⟨?_, fun other hin => ?_⟩
    · rw [countP_cons]
      split_ifs <;> omega
    · rcases mem_cons.mp hin with rfl | hin
      · intro e he howns
        have hsame : occurrence.privateOccurrence = first.privateOccurrence := by
          rw [hfst]
          rw [expect_eq_ok, PmOwnedObservationRange.occurrence] at hocc
          split_ifs at hocc
          cases hocc
          rfl
        rw [← validateOccurrence_congr hsame rfl]
        exact hfits e he howns
      · exact hresFit other hin

/-- **A passed preflight** says that the rows can be reduced one after the other. -/
theorem fits_of_preflight (h : preflightOwnedFillBatch s events range source = .ok ()) :
    Fits s first events := by
  obtain ⟨total, hrows, hroom⟩ := bind_eq_ok.mp h
  obtain ⟨rfl, hfits⟩ := rowsFit_of_preflight hs hfst hrows
  split_ifs at hroom with hover
  refine ⟨hfits, ?_⟩
  rw [zero_add] at hover
  exact not_lt.mp hover

end

/-- **The preflight of a batch** does not abort. -/
theorem preflightOwnedFillBatch_ne_panic (source : PmOwnedObservationSource)
    (hrng : ∀ k < events.length, ∃ o, range.occurrence k = some o) :
    preflightOwnedFillBatch s events range source ≠ .panic := by
  have hrows : ∀ (rows : List PmFillEvent) (index n : ℕ),
      (∀ k < rows.length, ∃ o, range.occurrence (index + k) = some o) →
      preflightBatchRows s events range source index rows n ≠ .panic := by
    intro rows
    induction rows with
    | nil => exact fun _ _ _ => nofun
    | cons _ _ ih =>
      intro index n hrng
      obtain ⟨occurrence, hocc⟩ := hrng 0 (succ_pos _)
      rw [add_zero] at hocc
      simp only [preflightBatchRows, hocc, expect_some, ok_bind]
      refine bind_ne_panic (preflightBatchRow_ne_panic hs _ _ _ _) fun isNew _ => ?_
      refine ih _ _ fun k hk => ?_
      obtain ⟨o, ho⟩ := hrng (k + 1) (succ_lt_succ hk)
      exact ⟨o, by rw [← ho, add_assoc, add_comm 1 k]⟩
  refine bind_ne_panic (hrows events 0 0 fun k hk => ?_) fun total _ => ?_
  · rw [zero_add]
    exact hrng k hk
  · split_ifs <;> nofun

/-! ### What a reduced row changes -/

/-- What the record is after a row has been reduced: bindings are as they were, the row has added
at most its quantity to its owner and at most its key to the ledger. -/
structure Reduced (s : PmOwnedOrderLifecycle) (row : PmFillEvent) (t : PmOwnedOrderLifecycle) :
    Prop where
  inv : t.Inv
  epoch : t.currentEpoch = s.currentEpoch
  entries : ∀ e' ∈ t.entries, ∃ e ∈ s.entries, e'.intent = e.intent ∧
    e'.venueOrder = e.venueOrder ∧ (e'.submit = .rejected → e.submit = .rejected) ∧
    e'.knownFillTotal.value ≤ e.knownFillTotal.value +
      if e.venueOrder = some row.fillKey.venueOrder ∧ s.hasFill row.fillKey = false then
        rowUnits row else 0
  legs : ∀ f ∈ s.fills, ∃ f' ∈ t.fills, f'.key = f.key ∧ f'.clientOrder = f.clientOrder ∧
    f'.quantity = f.quantity
  keys : ∀ key, key ≠ row.fillKey → t.hasFill key = s.hasFill key
  length : t.fills.length ≤ s.fills.length + if isNewOwned s row then 1 else 0

theorem Reduced.refl (row : PmFillEvent) : Reduced s row s where
  inv := hs
  epoch := rfl
  entries := fun e he => ⟨e, he, rfl, rfl, id, le_add_right _ _⟩
  legs := fun f hf => ⟨f, hf, rfl, rfl, rfl⟩
  keys := fun _ _ => rfl
  length := le_add_right _ _

/-- The flag that an order has to be reconciled does not matter to the rows. -/
theorem reduced_of_remote {result : PmOwnedRemoteOrderApply}
    (h : s.observeRemoteOrder row.order = (.ok result, t)) : Reduced s row t := by
  have hstep : step (.observeRemoteOrder row.order) s = some t :=
    (next_ended _).trans (congrArg next h)
  have ht : t.Inv := inv_of_step hs hstep
  unfold observeRemoteOrder at h
  split at h
  · cases h
  · cases h
    exact .refl hs row
  split at h
  · cases h
    exact .refl hs row
  split at h
  · cases h
  · cases h
    exact .refl hs row
  · next index entry hfind =>
    cases h
    refine { Reduced.refl hs row with inv := ht, entries := fun e' he' => ?_ }
    rcases mem_or_eq_of_mem_set he' with hin | rfl
    · exact ⟨e', hin, rfl, rfl, id, le_add_right _ _⟩
    · rcases findClient_cases hs ‹PmClientOrderKey› with ⟨i, e, hfou, hget, -⟩ | ⟨hfou, -⟩
      · cases hfind.symm.trans hfou
        exact ⟨_, mem_of_getElem? hget, rfl, rfl, id, le_add_right _ _⟩
      · cases hfind.symm.trans hfou

end

/-- A leg without its occurrences. -/
def legKey (f : OwnedFillEntry) : PmFillKey × PmClientOrderKey × PmQuantity :=
  (f.key, f.clientOrder, f.quantity)

theorem hasFill_iff_legKey {key : PmFillKey} :
    s.hasFill key = true ↔ ∃ leg ∈ s.fills.map legKey, leg.1 = key := by
  simp [hasFill, legKey]

/-- The legs after a fill has been recorded. -/
theorem legKeys_of_recorded {fills : List OwnedFillEntry} (h : Recorded s observation e fills) :
    s.hasFill observation.key = true ∧ fills.map legKey = s.fills.map legKey ∨
    s.hasFill observation.key = false ∧ (fills.map legKey).Perm
      ((observation.key, e.clientOrder, observation.quantity) :: s.fills.map legKey) := by
  cases h with
  | known hfill hkey _ _ hsame =>
    refine .inl ⟨hasFill_of_getElem? hfill hkey, map_set_of_eq hfill ?_⟩
    rw [legKey, hsame.1, hsame.2.1, hsame.2.2, legKey]
  | new hnew =>
    exact .inr ⟨hasFill_of_splits hnew, (perm_insertIdx _ _ hnew.le_length).map legKey⟩

/-- A fill that is applied to its owner. -/
theorem reduced_of_fill (hs : s.Inv) (hkey : observation.key = row.fillKey)
    (hqua : observation.quantity = row.execution.quantity) (he : e ∈ s.entries)
    (howns : owns e row = true) (happ : s.FillApplies e observation) :
    ∃ answer t, s.observeFill observation = (.ok answer, t) ∧ Reduced s row t := by
  have hven : e.venueOrder = some observation.key.venueOrder := by
    rw [hkey]
    exact (owns_iff.mp howns).1
  have hrep := observeFill_reply hs observation
  have hinv : ∀ t, next (s.observeFill observation) = some t → t.Inv := fun t ht =>
    have hstep : step (.observeFill observation) s = some t := (next_ended _).trans ht
    inv_of_step hs hstep
  generalize s.observeFill observation = result at hrep hinv ⊢
  cases hrep with
  | refused _ _ _ _ hnot => exact absurd happ (hnot e he hven)
  | @applied answer i o o' fills counters _ hget hstep hrec =>
    obtain ⟨known, cumulative, hove, -, hkn, -, rfl⟩ := hstep.fill_cases
    have ho := mem_of_getElem? hget
    cases hs.venues o ho e he _ hove hven
    refine ⟨answer, _, rfl, hinv _ rfl, rfl, fun e' he' => ?_, fun f hf => ?_,
      fun key hne => ?_, ?_⟩
    · rcases mem_or_eq_of_mem_set he' with hin | rfl
      · exact ⟨e', hin, rfl, rfl, id, le_add_right _ _⟩
      refine ⟨e, ho, ?_⟩
      rw [advanceFromFill_eq]
      refine ⟨rfl, rfl, fun hrej => absurd hrej ?_, ?_⟩
      · -- an order with a venue order that is filled has not been rejected
        unfold provenSubmit
        split_ifs
        · nofun
        · exact happ.submit
      · show known.value ≤ _
        rw [hkn, knownAfter, hkey, hqua]
        cases hfill : s.hasFill row.fillKey with
        | true => exact le_add_right _ _
        | false => simp [(owns_iff.mp howns).1, rowUnits]
    · have hleg : legKey f ∈ fills.map legKey := by
        rcases legKeys_of_recorded hrec with ⟨-, hsame⟩ | ⟨-, hperm⟩
        · rw [hsame]
          exact mem_map_of_mem hf
        · exact hperm.mem_iff.mpr (.tail _ (mem_map_of_mem hf))
      obtain ⟨f', hf', hsame⟩ := mem_map.mp hleg
      simp only [legKey, Prod.mk.injEq] at hsame
      exact ⟨f', hf', hsame⟩
    · rw [Bool.eq_iff_iff, hasFill_iff_legKey, hasFill_iff_legKey]
      show (∃ leg ∈ fills.map legKey, leg.1 = key) ↔ _
      rcases legKeys_of_recorded hrec with ⟨-, hsame⟩ | ⟨-, hperm⟩
      · rw [hsame]
      · simp only [hperm.mem_iff, mem_cons, or_and_right, exists_or, exists_eq_left]
        exact or_iff_right fun h => hne (h.symm.trans hkey)
    · show fills.length ≤ _
      have hlen : (s.fills.map legKey).length = s.fills.length := length_map _
      rw [← length_map legKey, ← hlen]
      rcases legKeys_of_recorded hrec with ⟨-, hsame⟩ | ⟨hfr, hperm⟩
      · rw [hsame]
        exact le_add_right _ _
      · have hnew : isNewOwned s row = true := by
          rw [isNewOwned, any_eq_true.mpr ⟨e, ho, howns⟩, ← hkey, hfr]
          rfl
        rw [hperm.length_eq, if_pos hnew, length_cons]

/-! ### The rows, one after the other -/

section

variable (hint : e'.intent = e.intent) (hven : e'.venueOrder = e.venueOrder) (row : PmFillEvent)

include hint hven

/-- Looking only at what a batch does not change. -/
theorem owns_congr : owns e' row = owns e row := by
  unfold owns clientOrder
  rw [hint, hven]

theorem fillConflicts_congr : fillConflicts e' row = fillConflicts e row := by
  unfold fillConflicts side
  rw [hint, hven]

end

/-- A later row that is new in the record after a row was new before it. -/
theorem Reduced.isNewOwned {other : PmFillEvent} (h : Reduced s row t)
    (hne : other.fillKey ≠ row.fillKey) (hnew : isNewOwned t other = true) :
    isNewOwned s other = true := by
  unfold Private.isNewOwned at hnew ⊢
  rw [h.keys _ hne] at hnew
  obtain ⟨hany, hfr⟩ := and_eq_true_iff.mp hnew
  obtain ⟨e', he', howns⟩ := any_eq_true.mp hany
  obtain ⟨e, he, hint, hven, -⟩ := h.entries e' he'
  rw [and_eq_true_iff]
  exact ⟨any_eq_true.mpr ⟨e, he, (owns_congr hint hven other).symm.trans howns⟩, hfr⟩

/-- The later rows add the same as before. -/
theorem Reduced.pendingUnits (h : Reduced s row t)
    (hne : ∀ other ∈ rest, other.fillKey ≠ row.fillKey) (venue : PmVenueOrderKey) :
    pendingUnits t venue rest = pendingUnits s venue rest := by
  unfold Private.pendingUnits
  congr 2
  refine filter_congr fun other hin => ?_
  rw [isPendingOf, h.keys _ (hne other hin), isPendingOf]

/-- **A reduced row leaves the others reducible.** -/
theorem Fits.next (hfits : Fits s occurrence (row :: rest)) (h : Reduced s row t)
    (hne : ∀ other ∈ rest, other.fillKey ≠ row.fillKey) : Fits t occurrence rest where
  row := by
    intro other hin e' he' howns
    obtain ⟨e, he, hint, hven, hsub, hkn⟩ := h.entries e' he'
    rw [owns_congr hint hven] at howns
    rw [fillConflicts_congr hint hven, validateOccurrence_congr rfl h.epoch]
    obtain ⟨hcon, hleg⟩ := hfits.row other (.tail _ hin) e he howns
    refine ⟨hcon, hleg.imp_right fun ⟨hok, hacc, hleg⟩ =>
      ⟨hok, fun hrej => hacc (hsub hrej), ?_⟩⟩
    rcases hleg with ⟨f, hf, hkey, hcl, hqua⟩ | ⟨hfr, hroom⟩
    · obtain ⟨f', hf', hkey', hcl', hqua'⟩ := h.legs f hf
      refine .inl ⟨f', hf', hkey'.trans hkey, ?_, hqua'.trans hqua⟩
      rw [hcl', hcl, clientOrder, ← hint, clientOrder]
    · refine .inr ⟨(h.keys _ (hne other hin)).trans hfr, ?_⟩
      have hsame : (e.venueOrder = some row.fillKey.venueOrder ∧ s.hasFill row.fillKey = false) ↔
          isPendingOf s other.fillKey.venueOrder row = true := by
        rw [(owns_iff.mp howns).1]
        simp [isPendingOf, @eq_comm _ row.fillKey.venueOrder]
      rw [if_congr hsame rfl rfl] at hkn
      rw [pendingUnits_cons] at hroom
      rw [h.pendingUnits hne, original, hint]
      unfold original at hroom
      omega
  room := by
    have hlen := h.length
    have hroom := hfits.room
    have hmono : rest.countP (isNewOwned t) ≤ rest.countP (isNewOwned s) :=
      countP_mono_left fun other hin hnew => h.isNewOwned (hne other hin) hnew
    rw [countP_cons] at hroom
    omega

/-- A row that fits is reduced. -/
theorem reduceOwnedFillEvent_ok (hs : s.Inv)
    (hsame : occurrence.privateOccurrence = first.privateOccurrence)
    (source : PmOwnedObservationSource) (hfits : Fits s first (row :: rest)) :
    ∃ result t, reduceOwnedFillEvent row occurrence source none s = (.ok result, t) ∧
      Reduced s row t := by
  rcases matchRemoteOrder_cases hs row with ⟨e, he, howns, hmat⟩ | ⟨hmat, -⟩
  · have hrem : s.observeRemoteOrder row.order = (.ok (.matched e.clientOrder), s) := by
      unfold observeRemoteOrder
      rw [hmat]
    obtain ⟨hcon, hleg⟩ := hfits.row row (.head _) e he howns
    let observation : PmOwnedFillObservation :=
      ⟨row.fillKey, row.execution.quantity, none, occurrence, source, by simp⟩
    have hobs : newFillObservation row.fillKey row.execution.quantity none occurrence source =
        .ok observation := dif_pos (by simp)
    have hfill : ∃ answer t, s.observeFill observation = (.ok answer, t) ∧ Reduced s row t := by
      rw [← validateOccurrence_congr hsame rfl] at hleg
      rcases hleg with hold | ⟨hok, hsub, hleg⟩
      · refine ⟨.ignoredOldEpoch, s, ?_, .refl hs row⟩
        unfold observeFill
        rw [show s.validateOccurrence observation.occurrence = _ from hold]
      refine reduced_of_fill hs rfl rfl he howns ⟨hok, hsub, rfl, rfl, ?_⟩
      rcases hleg with hkn | ⟨hfr, hroom⟩
      · exact .inl hkn
      refine .inr ⟨hfr, ?_, ?_⟩
      · have hnew : isNewOwned s row = true := by
          rw [isNewOwned, any_eq_true.mpr ⟨e, he, howns⟩, hfr]
          rfl
        have := hfits.room
        rw [countP_cons, if_pos hnew] at this
        omega
      · have hpend : isPendingOf s row.fillKey.venueOrder row = true := by
          simp [isPendingOf, hfr]
        exact (Nat.add_le_add_left (single_le_sum (fun _ _ => zero_le _) _
          (mem_map_of_mem (mem_filter.mpr ⟨.head _, hpend⟩))) _).trans hroom
    obtain ⟨answer, t, hobse, hred⟩ := hfill
    refine ⟨(.matched e.clientOrder, some ⟨observation, answer⟩), t, ?_, hred⟩
    simp [reduceOwnedFillEvent, Act.bind_apply, hrem, order_of_mem hs he, hcon, hobs, hobse]
  · obtain ⟨t, hrem⟩ : ∃ t, s.observeRemoteOrder row.order = (.ok .ambiguousRemote, t) := by
      have hdoes := (observeRemoteOrder_clean hs row.order).does.1
      unfold observeRemoteOrder at hdoes ⊢
      rw [hmat] at hdoes ⊢
      simp only at hdoes ⊢
      split
      · exact ⟨_, rfl⟩
      split
      · simp [*] at hdoes
      · exact ⟨_, rfl⟩
      · exact ⟨_, rfl⟩
    refine ⟨(.ambiguousRemote, none), t, ?_, reduced_of_remote hs hrem⟩
    simp [reduceOwnedFillEvent, Act.bind_apply, hrem]

/-- **Every row of a preflighted query is reduced.** -/
theorem reduceRows_ok {fills : EventEnvelope PmCompleteFillQuery} (request : PmPrivateOccurrence)
    (hfst : first.privateOccurrence = some range.privateOccurrence)
    (hsou : ∀ row ∈ rows, fills.source = row.source) (hnd : (rows.map (·.fillKey)).Nodup)
    {index : ℕ} (hrng : ∀ k < rows.length, ∃ o, range.occurrence (index + k) = some o)
    (hs : s.Inv) (hfits : Fits s first rows) :
    ∃ reductions t, reduceRows fills range request index rows s = (.ok reductions, t) ∧ t.Inv := by
  induction rows generalizing s index with
  | nil => exact ⟨[], s, rfl, hs⟩
  | cons row rest ih =>
    obtain ⟨occurrence, hocc⟩ := hrng 0 (succ_pos _)
    have hpri : occurrence.privateOccurrence = first.privateOccurrence := by
      rw [hfst]
      rw [PmOwnedObservationRange.occurrence] at hocc
      split_ifs at hocc
      cases hocc
      rfl
    obtain ⟨result, t, hredu, hred⟩ := reduceOwnedFillEvent_ok hs hpri .restReconciliation hfits
    obtain ⟨envelope, henv⟩ : ∃ envelope, rowEnvelope fills row = some envelope :=
      ⟨_, dif_pos (hsou row (.head _))⟩
    rw [map_cons, nodup_cons] at hnd
    have hne : ∀ other ∈ rest, other.fillKey ≠ row.fillKey := fun other hin heq =>
      hnd.1 (heq ▸ mem_map_of_mem hin)
    have hrng' : ∀ k < rest.length, ∃ o, range.occurrence (index + 1 + k) = some o := by
      intro k hk
      obtain ⟨o, ho⟩ := hrng (k + 1) (succ_lt_succ hk)
      exact ⟨o, by rw [← ho, add_assoc, add_comm 1 k]⟩
    obtain ⟨reductions, u, hrest, hu⟩ := ih (fun other hin => hsou other (.tail _ hin))
      hnd.2 hrng' hred.inv (hfits.next hred hne)
    have hrow : reduceRow fills range request index row s =
        (.ok ⟨envelope, disposition (staleBefore request s row.fillKey) result.1 result.2⟩, t) := by
      rw [add_zero] at hocc
      simp [reduceRow, Act.bind_apply, hocc, Act.expect, hredu, henv]
    refine ⟨⟨envelope, disposition (staleBefore request s row.fillKey) result.1 result.2⟩ :: reductions,
      u, ?_, hu⟩
    simp [reduceRows, Act.bind_apply, hrow, hrest]

end Reap.Private
