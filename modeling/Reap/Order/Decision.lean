import Reap.Order.Invariant
import Mathlib.Algebra.BigOperators.Group.List.Basic

/-!
# The summary of a quote decision

Before a quote is decided, one pass over the live orders adds up what they have reserved. The
pass runs over the dense entries, and again in canonical order if it meets an order whose
exposure is not known, so that the order it names does not depend on the history.

An order without a reservation is passed over. That is right only if no live order is
without one, which is the subject of `Reap.Order.Exposure`.

## What is proved

* `decisionSummary_spec` — in every exact state the summary is there, it counts the live
  orders, it says whether one of them is ambiguous, and its totals are the sums of what they have
  reserved.
* `decisionSummary_canonical` — it is the summary of the orders in canonical order: a pass that
  meets no order whose exposure is not known gives the same in every order, also if a sum is not
  representable.
-/

namespace Reap.Order

open Base Reap.Core OrderEntry List U256

/-- Why there is no total. -/
inductive PmReservationTotalsError where
  | unknown (order : PmOrderIdentity)
  | overflow
  deriving DecidableEq

/-- What a decision reads. -/
structure PmOrderDecisionSummary where
  unmanagedAmbiguity : Bool
  firstUnknownReservation : Option PmOrderIdentity
  reservationTotals : Except PmReservationTotalsError (U256 × U256)
  liveCount : ℕ
  unresolvedCount : ℕ

attribute [ext] PmOrderDecisionSummary

namespace PmOrderDecisionSummary

/-- The summary of no orders. -/
def empty : PmOrderDecisionSummary := ⟨false, none, .ok (zero, zero), 0, 0⟩

/-- The totals, with one more order. -/
def addReservation (totals : Except PmReservationTotalsError (U256 × U256)) (entry : OrderEntry) :
    Except PmReservationTotalsError (U256 × U256) :=
  match totals with
  | .error error => .error error
  | .ok (collateral, outcome) =>
  match entry.reservation with
  | none => .ok (collateral, outcome)
  | some .unknown => .error (.unknown entry.identity)
  | some (.known reservation) =>
  match collateral.checkedAdd reservation.collateral with
  | .error _ => .error .overflow
  | .ok collateral =>
  match outcome.checkedAdd reservation.outcome with
  | .error _ => .error .overflow
  | .ok outcome => .ok (collateral, outcome)

/-- A counter with one more, which aborts when the counter is full. -/
def checkedCount (count : ℕ) : Option ℕ := if count + 1 < 2 ^ 16 then some (count + 1) else none

/-- An order whose exposure is not known. -/
def isUnknown (entry : OrderEntry) : Bool :=
  entry.ownership == .ambiguous || entry.reservation == some .unknown

/-- An order that has to be resolved. -/
def isUnresolved (entry : OrderEntry) : Bool :=
  entry.ownership == .ambiguous || entry.event.isNone || entry.missingFromCompleteOpenSnapshot

/-- The unresolved orders, with one more order. -/
def countUnresolved (count : ℕ) (entry : OrderEntry) : Option ℕ :=
  if isUnresolved entry then checkedCount count else some count

/-- One round of the loop of `summarize`, for a live order. -/
def add (summary : PmOrderDecisionSummary) (entry : OrderEntry) :
    Option PmOrderDecisionSummary := do
  let liveCount ← checkedCount summary.liveCount
  let unresolvedCount ← countUnresolved summary.unresolvedCount entry
  return {
    unmanagedAmbiguity := summary.unmanagedAmbiguity || entry.ownership == .ambiguous
    firstUnknownReservation :=
      if isUnknown entry then summary.firstUnknownReservation.or (some entry.identity)
      else summary.firstUnknownReservation
    reservationTotals := addReservation summary.reservationTotals entry
    liveCount := liveCount
    unresolvedCount := unresolvedCount }

end PmOrderDecisionSummary

/-- The summary, and whether it has to be made in canonical order. -/
def summarize (entries : List OrderEntry) : Option (PmOrderDecisionSummary × Bool) := do
  let live := entries.filter isLive
  let summary ← live.foldlM PmOrderDecisionSummary.add .empty
  return (summary, live.any PmOrderDecisionSummary.isUnknown)

/-- `canonical_entries`. -/
def OrderTable.canonicalEntries (s : OrderTable) : Option (List OrderEntry) :=
  s.canonicalIndex.mapM (s.entries[·]?)

/-- `decision_summary`. -/
def PmOrderState.decisionSummary (s : PmOrderState) : Option PmOrderDecisionSummary :=
  if s.liveCount = 0 then some .empty
  else do
    let (dense, canonicalRequired) ← summarize s.entries
    if canonicalRequired then
      let canonical ← s.canonicalEntries
      let (summary, _) ← summarize canonical
      return summary
    else return dense

/-! ### What the orders have reserved -/

namespace OrderEntry

/-- The reservation of the order, if it is known. -/
def knownReservation (e : OrderEntry) : Option PmExactReservation :=
  match e.reservation with
  | some (.known reservation) => some reservation
  | _ => none

/-- The collateral that the order has set aside. -/
def heldCollateral (e : OrderEntry) : ℕ :=
  match e.knownReservation with
  | some reservation => reservation.collateral.value
  | none => 0

/-- The outcome tokens that the order has set aside. -/
def heldOutcome (e : OrderEntry) : ℕ :=
  match e.knownReservation with
  | some reservation => reservation.outcome.value
  | none => 0

end OrderEntry

/-- The totals are the sums of what the orders have reserved, none of which is unknown. -/
structure AddsUp (orders : List OrderEntry) (collateral outcome : U256) : Prop where
  not_unknown : ∀ e ∈ orders, e.reservation ≠ some .unknown
  collateral : collateral.value = (orders.map heldCollateral).sum
  outcome : outcome.value = (orders.map heldOutcome).sum

variable {orders others : List OrderEntry} {collateral outcome : U256}

theorem AddsUp.perm (h : AddsUp orders collateral outcome) (hperm : orders.Perm others) :
    AddsUp others collateral outcome where
  not_unknown := fun e he => h.not_unknown e (hperm.mem_iff.mpr he)
  collateral := h.collateral.trans (hperm.map _).sum_eq
  outcome := h.outcome.trans (hperm.map _).sum_eq

namespace PmOrderDecisionSummary

/-- What the summary says of the orders it has seen. -/
structure Describes (orders : List OrderEntry) (summary : PmOrderDecisionSummary) : Prop where
  liveCount : summary.liveCount = orders.length
  unresolvedCount : summary.unresolvedCount = orders.countP isUnresolved
  ambiguity : summary.unmanagedAmbiguity = orders.any (·.ownership == .ambiguous)
  totals : ∀ collateral outcome, summary.reservationTotals = .ok (collateral, outcome) →
    AddsUp orders collateral outcome

theorem describes_nil : Describes [] .empty where
  liveCount := rfl
  unresolvedCount := rfl
  ambiguity := rfl
  totals := by
    intro collateral outcome htot
    obtain ⟨rfl, rfl⟩ := Prod.mk.inj (Except.ok.inj htot)
    exact ⟨fun _ he => absurd he not_mem_nil, rfl, rfl⟩

variable {orders : List OrderEntry} {summary : PmOrderDecisionSummary}

theorem Describes.perm {others : List OrderEntry} (h : Describes orders summary)
    (hperm : orders.Perm others) : Describes others summary where
  liveCount := h.liveCount.trans hperm.length_eq
  unresolvedCount := h.unresolvedCount.trans (hperm.countP_eq _)
  ambiguity := h.ambiguity.trans hperm.any_eq
  totals := fun _ _ htot => (h.totals _ _ htot).perm hperm

variable {e : OrderEntry}

/-- One more order, whose reservation is not unknown: both sums are representable, or one is not. -/
theorem addReservation_cases (h : e.reservation ≠ some .unknown) (c o : U256) :
    (∃ c' o', addReservation (.ok (c, o)) e = .ok (c', o') ∧
      c'.value = c.value + e.heldCollateral ∧ o'.value = o.value + e.heldOutcome) ∨
    (addReservation (.ok (c, o)) e = .error .overflow ∧
      (2 ^ 256 ≤ c.value + e.heldCollateral ∨ 2 ^ 256 ≤ o.value + e.heldOutcome)) := by
  unfold heldCollateral heldOutcome knownReservation addReservation
  cases hres : e.reservation with
  | none => exact .inl ⟨c, o, rfl, rfl, rfl⟩
  | some knowledge =>
  cases knowledge with
  | unknown => exact absurd hres h
  | known reservation =>
  by_cases hc : c.value + reservation.collateral.value < 2 ^ 256
  swap
  · simp only [checkedAdd_eq, dif_neg hc]
    exact .inr ⟨trivial, .inl (not_lt.mp hc)⟩
  by_cases ho : o.value + reservation.outcome.value < 2 ^ 256
  · simp only [checkedAdd_eq, dif_pos hc, dif_pos ho]
    exact .inl ⟨_, _, rfl, value_ofValue hc, value_ofValue ho⟩
  · simp only [checkedAdd_eq, dif_pos hc, dif_neg ho]
    exact .inr ⟨trivial, .inr (not_lt.mp ho)⟩

/-- One more order in the totals. -/
theorem addsUp_addReservation {totals : Except PmReservationTotalsError (U256 × U256)}
    (h : ∀ collateral outcome, totals = .ok (collateral, outcome) →
      AddsUp orders collateral outcome)
    (hadd : addReservation totals e = .ok (collateral, outcome)) :
    AddsUp (orders ++ [e]) collateral outcome := by
  cases totals with
  | error => cases hadd
  | ok before =>
    obtain ⟨c, o⟩ := before
    obtain ⟨hkn, hc, ho⟩ := h c o rfl
    have he : e.reservation ≠ some .unknown := by
      intro hunk
      simp [addReservation, hunk] at hadd
    rcases addReservation_cases he c o with ⟨c', o', heq, hc', ho'⟩ | ⟨heq, -⟩ <;>
      cases heq.symm.trans hadd
    exact ⟨forall_mem_concat.mpr ⟨hkn, he⟩, by simp [hc', hc], by simp [ho', ho]⟩

/-- One round of the loop. -/
theorem Describes.add (h : Describes orders summary) (e : OrderEntry)
    (hlen : orders.length + 1 < 2 ^ 16) :
    ∃ next, summary.add e = some next ∧ Describes (orders ++ [e]) next := by
  have hlive : checkedCount summary.liveCount = some (summary.liveCount + 1) := by
    rw [checkedCount, if_pos (h.liveCount ▸ hlen)]
  have hunr : countUnresolved summary.unresolvedCount e =
      some ((orders ++ [e]).countP isUnresolved) := by
    have hle : orders.countP isUnresolved ≤ orders.length := countP_le_length
    rw [countP_append, countP_singleton, h.unresolvedCount, countUnresolved, checkedCount]
    by_cases hu : isUnresolved e = true
    · rw [if_pos hu, if_pos hu, if_pos (by omega)]
    · rw [if_neg hu, if_neg hu, Nat.add_zero]
  refine ⟨_, by rw [PmOrderDecisionSummary.add, hlive, hunr]; rfl, ?_, rfl, ?_, ?_⟩
  · rw [length_append, length_singleton, ← h.liveCount]
  · simp [h.ambiguity]
  · exact fun _ _ hadd => addsUp_addReservation h.totals hadd

/-- The loop. -/
theorem describes_foldlM (orders : List OrderEntry) {seen : List OrderEntry}
    (h : Describes seen summary) (hlen : seen.length + orders.length < 2 ^ 16) :
    ∃ last, orders.foldlM PmOrderDecisionSummary.add summary = some last ∧
      Describes (seen ++ orders) last := by
  induction orders generalizing seen summary with
  | nil => exact ⟨summary, rfl, by rwa [append_nil]⟩
  | cons e rest ih =>
    rw [length_cons] at hlen
    obtain ⟨next, hnext, hdes⟩ := h.add e (by omega)
    have hsho : (seen ++ [e]).length + rest.length < 2 ^ 16 := by
      rw [length_append, length_singleton]
      omega
    obtain ⟨last, hlast, hall⟩ := ih hdes hsho
    refine ⟨last, ?_, by rwa [append_assoc, singleton_append] at hall⟩
    rw [foldlM_cons, hnext]
    exact hlast

/-! ### The order of the pass -/

variable {a b e : OrderEntry}

theorem reservation_ne_unknown (h : isUnknown e = false) : e.reservation ≠ some .unknown := by
  intro hunk
  simp [isUnknown, hunk] at h

theorem addReservation_comm (ha : a.reservation ≠ some .unknown)
    (hb : b.reservation ≠ some .unknown) (totals : Except PmReservationTotalsError (U256 × U256)) :
    addReservation (addReservation totals a) b = addReservation (addReservation totals b) a := by
  obtain error | ⟨c, o⟩ := totals
  · rfl
  rcases addReservation_cases ha c o with ⟨c₁, o₁, h₁, hc₁, ho₁⟩ | ⟨h₁, hover₁⟩ <;>
    rcases addReservation_cases hb c o with ⟨c₂, o₂, h₂, hc₂, ho₂⟩ | ⟨h₂, hover₂⟩ <;>
    rw [h₁, h₂]
  · rcases addReservation_cases hb c₁ o₁ with ⟨c₃, o₃, h₃, hc₃, ho₃⟩ | ⟨h₃, hover₃⟩ <;>
      rcases addReservation_cases ha c₂ o₂ with ⟨c₄, o₄, h₄, hc₄, ho₄⟩ | ⟨h₄, hover₄⟩ <;>
      rw [h₃, h₄]
    · rw [ext (a := c₃) (b := c₄) (by omega), ext (a := o₃) (b := o₄) (by omega)]
    · have := c₃.lt; have := o₃.lt; omega
    · have := c₄.lt; have := o₄.lt; omega
  · rcases addReservation_cases hb c₁ o₁ with ⟨c₃, o₃, h₃, hc₃, ho₃⟩ | ⟨h₃, hover₃⟩
    · have := c₃.lt; have := o₃.lt; omega
    · exact h₃
  · rcases addReservation_cases ha c₂ o₂ with ⟨c₃, o₃, h₃, hc₃, ho₃⟩ | ⟨h₃, hover₃⟩
    · have := c₃.lt; have := o₃.lt; omega
    · exact h₃.symm
  · rfl

theorem foldlM_add {last : PmOrderDecisionSummary} (hkn : ∀ e ∈ orders, isUnknown e = false)
    (h : orders.foldlM add summary = some last) :
    last.firstUnknownReservation = summary.firstUnknownReservation ∧
      last.reservationTotals = orders.foldl addReservation summary.reservationTotals := by
  induction orders generalizing summary with
  | nil =>
    cases h
    exact ⟨rfl, rfl⟩
  | cons e _ ih =>
    obtain ⟨next, hnext, hrest⟩ := Option.bind_eq_some_iff.mp h
    obtain ⟨hfst, htot⟩ := ih (fun x hx => hkn x (.tail _ hx)) hrest
    obtain ⟨live, -, hnext⟩ := Option.bind_eq_some_iff.mp hnext
    obtain ⟨unresolved, -, hnext⟩ := Option.bind_eq_some_iff.mp hnext
    cases hnext
    simp only [hkn e (.head _)] at hfst
    exact ⟨hfst, htot⟩

end PmOrderDecisionSummary

open PmOrderDecisionSummary

/-- What `summarize` gives. -/
theorem summarize_spec {entries : List OrderEntry} (hlen : entries.length < 2 ^ 16) :
    ∃ summary, summarize entries =
        some (summary, (entries.filter isLive).any PmOrderDecisionSummary.isUnknown) ∧
      Describes (entries.filter isLive) summary := by
  have hle := length_filter_le isLive entries
  obtain ⟨summary, hfold, hdes⟩ := describes_foldlM (entries.filter isLive)
    describes_nil (by rw [length_nil]; omega)
  refine ⟨summary, ?_, hdes⟩
  rw [summarize, hfold]
  rfl

/-- Orders whose exposure is known are summarized alike in any order. -/
theorem summarize_perm (hlen : orders.length < 2 ^ 16)
    (hperm : orders.Perm others) (hkn : (orders.filter isLive).any isUnknown = false) :
    summarize orders = summarize others := by
  have hlive := hperm.filter isLive
  rw [any_eq_false] at hkn
  have hkn' : ∀ e ∈ orders.filter isLive, isUnknown e = false :=
    fun e he => Bool.eq_false_of_not_eq_true (hkn e he)
  obtain ⟨dense, hden, hd⟩ := summarize_spec hlen
  obtain ⟨ordered, hord, ho⟩ := summarize_spec (hperm.length_eq ▸ hlen)
  obtain ⟨_, hfold, heq⟩ := Option.bind_eq_some_iff.mp hden
  cases heq
  obtain ⟨_, hfold', heq⟩ := Option.bind_eq_some_iff.mp hord
  cases heq
  obtain ⟨hfst, htot⟩ := foldlM_add hkn' hfold
  obtain ⟨hfst', htot'⟩ := foldlM_add (fun e he => hkn' e (hlive.mem_iff.mpr he)) hfold'
  have htota : dense.reservationTotals = ordered.reservationTotals := by
    rw [htot, htot']
    exact hlive.foldl_eq' (fun a ha b hb => addReservation_comm
      (reservation_ne_unknown (hkn' a ha)) (reservation_ne_unknown (hkn' b hb))) _
  have hsame : dense = ordered :=
    PmOrderDecisionSummary.ext ((hd.perm hlive).ambiguity.trans ho.ambiguity.symm)
      (hfst.trans hfst'.symm) htota ((hd.perm hlive).liveCount.trans ho.liveCount.symm)
      ((hd.perm hlive).unresolvedCount.trans ho.unresolvedCount.symm)
  rw [hden, hord, hlive.any_eq, hsame]

variable {s : PmOrderState}

/-- The summary is that of the orders in canonical order. -/
theorem decisionSummary_eq (h : s.Exact) :
    ∃ entries summary required, s.canonicalEntries = some entries ∧ entries.Perm s.entries ∧
      summarize entries = some (summary, required) ∧ s.decisionSummary = some summary ∧
      Describes (entries.filter isLive) summary := by
  have hlen : s.entries.length < 2 ^ 16 := lt_of_le_of_lt h.length_le (by decide)
  obtain ⟨entries, (hcan : s.canonicalEntries = some entries), hperm⟩ :=
    exists_mapM_of_perm (h.canonical.perm_range fun e => ⟨_, rfl⟩)
  obtain ⟨summary, hsum, hdes⟩ := summarize_spec (hperm.length_eq ▸ hlen)
  refine ⟨entries, summary, _, hcan, hperm, hsum, ?_, hdes⟩
  unfold PmOrderState.decisionSummary
  by_cases hzero : s.liveCount = 0
  · have hnil : entries.filter isLive = [] := by
      rw [← length_eq_zero_iff, ← countP_eq_length_filter, hperm.countP_eq, ← h.live, hzero]
    rw [summarize, hnil] at hsum
    cases hsum
    exact if_pos hzero
  obtain ⟨dense, hden, -⟩ := summarize_spec hlen
  simp only [if_neg hzero, hden, hcan, hsum, Option.bind_eq_bind, Option.bind_some]
  cases hkn : (s.entries.filter isLive).any PmOrderDecisionSummary.isUnknown with
  | true => rfl
  | false =>
    rw [summarize_perm hlen hperm.symm hkn, hsum] at hden
    exact congrArg (some ·.1) (Option.some.inj hden).symm

/-- **The summary is there, and it describes the live orders.** -/
theorem decisionSummary_spec (h : s.Exact) : ∃ summary, s.decisionSummary = some summary ∧
      Describes (s.entries.filter isLive) summary := by
  obtain ⟨entries, summary, -, -, hperm, -, hsum, hdes⟩ := decisionSummary_eq h
  exact ⟨summary, hsum, hdes.perm (hperm.filter _)⟩

namespace OrderSample

/-- The registration of another order, whose key comes later in the canonical order. -/
def laterRegistration : PmOwnedOrderRegistration :=
  { registration with clientOrder := Samples.otherClient }

end OrderSample

open OrderSample

/-- **In every reachable state the summary is that of the orders in canonical order.** -/
theorem decisionSummary_canonical {config : PmPrivateStateConfig} {s : PmOrderState}
    (h : Reach (step config) anyCall .new s) :
    ∃ entries summary required, s.canonicalEntries = some entries ∧
      summarize entries = some (summary, required) ∧ s.decisionSummary = some summary := by
  obtain ⟨entries, summary, required, hcan, -, hsum, hdec, -⟩ :=
    decisionSummary_eq (sound_of_reach h).exact
  exact ⟨entries, summary, required, hcan, hsum, hdec⟩

/-- Two live orders are registered, the later key first. -/
theorem decisionSummary_registered : ∃ s, Reach (step config) anyCall .new s ∧
      (s.liveCount = 2 ∧ s.canonicalEntries = some s.entries.reverse ∧
        s.entries.reverse ≠ s.entries) ∧
      ∃ entries summary required, s.canonicalEntries = some entries ∧
        summarize entries = some (summary, required) ∧ s.decisionSummary = some summary :=
  exists_reach_and [.registerOwned laterRegistration, .registerOwned registration]
    (by decide +kernel) fun _ hrch _ => decisionSummary_canonical hrch

end Reap.Order
