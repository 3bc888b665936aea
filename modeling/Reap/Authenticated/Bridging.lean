import Reap.Authenticated.Results

/-!
# Appending bridges

What the mutation journal does with the bridges that are appended to it, one after the other. A
placement is absorbed if the venue order that it binds is free; a cancel is absorbed if the journal
still waits for the outcome of that cancel. Everything else that recovery checks holds already.

## What is proved

* `applyCounted_bridge` — when one bridge is accepted, and what it changes.
* `recoverFrom_bridges` — the same of a list of them.
-/

namespace Reap.Authenticated

open Base Reap.Core Reap.Journal Outcome List Option

open PmJournalRecovery RecoveredOwnedOrder OrderedMap

/-! ### What the gate reads of an order -/

/-- What the gate reads of an order is the same; its venue order may be new. -/
structure SamePrior (order next : RecoveredOwnedOrder) : Prop where
  intent : next.intent = order.intent
  sequence : next.intentJournalSequence = order.intentJournalSequence
  cancel : next.cancelIntentJournalSequence = order.cancelIntentJournalSequence
  ordinaryPlace : next.ordinaryPlaceResultRecorded = order.ordinaryPlaceResultRecorded
  ordinaryCancel : next.ordinaryCancelResultRecorded = order.ordinaryCancelResultRecorded
  venue : ∀ venue ∈ order.venueOrder, next.venueOrder = some venue
  missing : next.pendingAckFills.length ≤ order.pendingAckFills.length

theorem SamePrior.refl (order : RecoveredOwnedOrder) : SamePrior order order :=
  ⟨rfl, rfl, rfl, rfl, rfl, fun _ h => h, le_rfl⟩

theorem SamePrior.trans {a b c : RecoveredOwnedOrder} (hab : SamePrior a b) (hbc : SamePrior b c) :
    SamePrior a c where
  intent := hbc.intent.trans hab.intent
  sequence := hbc.sequence.trans hab.sequence
  cancel := hbc.cancel.trans hab.cancel
  ordinaryPlace := hbc.ordinaryPlace.trans hab.ordinaryPlace
  ordinaryCancel := hbc.ordinaryCancel.trans hab.ordinaryCancel
  venue := fun venue hmem => hbc.venue venue (hab.venue venue hmem)
  missing := hbc.missing.trans hab.missing

/-- Every order is still there, with what the gate reads of it. -/
def Extends (s t : PmJournalRecovery) : Prop :=
  ∀ client order, s.Holds client order →
    ∃ next : RecoveredOwnedOrder, t.Holds client next ∧ SamePrior order next

theorem Extends.trans {a b c : PmJournalRecovery} (hab : Extends a b) (hbc : Extends b c) :
    Extends a c := by
  intro client order hget
  obtain ⟨middle, hmid, hsame⟩ := hab client order hget
  obtain ⟨next, hnext, hsame'⟩ := hbc client middle hmid
  exact ⟨next, hnext, hsame.trans hsame'⟩

/-! ### One bridge -/

/-- The venue order that the bridge of a result binds. -/
def newVenue (result : PmAuthenticatedRecoveredResultV1) : Option PmVenueOrderKey :=
  match result.operation, recoveredClassification result.classification with
  | .cancel _ _, _ => none
  | .place _, .rejected | .place _, .definitelyNotDispatched => none
  | .place _, .accepted | .place _, .outOfProfile | .place _, .acknowledgementUnknown =>
    exactExpectedVenueOrder result.clientOrder result.expectedOrExactOrderId.fingerprint

/-- No retained order is bound to the venue order. -/
def Free (s : PmJournalRecovery) (venue : PmVenueOrderKey) : Prop :=
  ∀ client order, s.Holds client order → order.venueOrder ≠ some venue

/-- The journal can take the result: the venue order that it binds is free, and the cancel that it
concludes is still waited for. -/
structure Absorbs (s : PmJournalRecovery) (result : PmAuthenticatedRecoveredResultV1) :
    Prop where
  free : ∀ venue ∈ newVenue result, Free s venue
  waits : result.operation.kind = .cancel →
    ∃ order, s.Holds result.clientOrder order ∧ order.cancelPending = true

/-- The order of a result is the one it was made for: a placement without any outcome, or a bound
order whose cancel has that intent. -/
def Awaits (order : RecoveredOwnedOrder) (result : PmAuthenticatedRecoveredResultV1) : Prop :=
  match result.operation with
  | .place _ => order.place = .intentOnly ∧ order.venueOrder = none ∧
      order.intentJournalSequence = result.priorGoalFSequence
  | .cancel _ venue => order.place = .bound ∧ order.venueOrder = some venue ∧
      order.cancelIntentJournalSequence = some result.priorGoalFSequence

/-- What a bridge does: the order of its client changes, but not in what the gate reads. -/
structure Bridged (s t : PmJournalRecovery)
    (result : PmAuthenticatedRecoveredResultV1) (order next : RecoveredOwnedOrder) : Prop where
  puts : s.Puts t result.clientOrder next
  same : SamePrior order next
  venue : ∀ venue, next.venueOrder = some venue ↔
    order.venueOrder = some venue ∨ newVenue result = some venue
  fillKeys : t.fillKeys = s.fillKeys
  pending : t.pendingAckFillKeys = s.pendingAckFillKeys

section

variable {s t : PmJournalRecovery} {result : PmAuthenticatedRecoveredResultV1}
  {order : RecoveredOwnedOrder} {client : PmClientOrderKey} {venue : PmVenueOrderKey}
  {results : List PmAuthenticatedRecoveredResultV1} {position : ℕ}

/-- A venue order is free if the order that is to be bound has none and no other order has it. -/
theorem free_iff_boundElsewhere (venue : PmVenueOrderKey)
    (hget : s.Holds client order) (hnone : order.venueOrder = none) :
    Free s venue ↔ s.boundElsewhere client venue = false := by
  rw [boundElsewhere_eq_false]
  constructor
  · intro h other held hheld hven
    exact absurd hven (h other held hheld)
  · intro h other held hheld hven
    cases h other held hheld hven
    cases hget.symm.trans hheld
    rw [hnone] at hven
    cases hven

section

variable (order : RecoveredOwnedOrder) (outcome : PmJournalCancelOutcomeV1)

theorem samePrior_concludeCancel : SamePrior order (order.concludeCancel outcome) ∧
    (order.concludeCancel outcome).venueOrder = order.venueOrder := by
  unfold concludeCancel
  cases outcome <;> split_ifs <;> exact ⟨⟨rfl, rfl, rfl, rfl, rfl, fun _ h => h, le_rfl⟩, rfl⟩

end

variable {coordinator : PmAuthenticatedCoordinatorIdentityV1} {final : PmJournalRecovery}

/-- The bridge of a cancel. -/
theorem applyCanonical_cancel (hop : result.operation = .cancel coordinator venue)
    (hget : s.Holds result.clientOrder order) (hawa : Awaits order result) :
    SucceedsIff (s.applyCanonical (bridgeOf result)) (Absorbs s result)
      fun t => ∃ next, Bridged s t result order next := by
  unfold Awaits at hawa
  rw [hop] at hawa
  obtain ⟨hbd, hven, -⟩ := hawa
  have hnew : newVenue result = none := by
    unfold newVenue
    rw [hop]
  have hbri : bridgeOf result =
      .cancel (cancelBridge result venue result.expectedOrExactOrderId) := by
    unfold bridgeOf
    rw [hop]
  have hkeys : (cancelBridge result venue result.expectedOrExactOrderId).canonical.clientOrder =
        result.clientOrder ∧
      (cancelBridge result venue result.expectedOrExactOrderId).canonical.venueOrder = venue := by
    simp [cancelBridge]
  rw [hbri]
  refine ⟨⟨?_, fun habs => ?_⟩, fun t h => ?_⟩
  · rintro ⟨t, h⟩
    obtain ⟨found, next, hfou, hcan, -⟩ := applyCancelResult_iff.mp h
    rw [hkeys.1] at hfou
    refine ⟨fun other hmem => ?_, fun _ => ⟨found, hfou, (applyCancel_iff.mp hcan).2.2.1⟩⟩
    rw [hnew] at hmem
    cases hmem
  · obtain ⟨found, hfou, hpend⟩ := habs.waits (congrArg PmAuthenticatedOperationKeyV1.kind hop)
    cases hget.symm.trans hfou
    exact ⟨_, applyCancelResult_iff.mpr ⟨order, _, hkeys.1 ▸ hget,
      applyCancel_iff.mpr ⟨hbd, hkeys.2.symm ▸ hven, hpend, rfl⟩, rfl⟩⟩
  · obtain ⟨found, next, hfou, hcan, rfl⟩ := applyCancelResult_iff.mp h
    rw [hkeys.1] at hfou ⊢
    cases hget.symm.trans hfou
    obtain ⟨-, -, -, rfl⟩ := applyCancel_iff.mp hcan
    refine ⟨_, puts_setOrder _ _ _, (samePrior_concludeCancel order _).1, fun other => ?_, rfl, rfl⟩
    rw [hnew]
    refine Iff.trans ?_ (or_iff_left (by rintro ⟨⟩)).symm
    rw [← (samePrior_concludeCancel order _).2]
    rfl

/-- What a placement makes of its order, before the venue order of an unknown outcome. -/
def placedBy (order : RecoveredOwnedOrder) (venue : PmVenueOrderKey) :
    PmJournalAuthenticatedClassificationV1 → RecoveredOwnedOrder
  | .accepted => { order with venueOrder := some venue, place := .bound, pendingAckFills := [] }
  | .rejected | .definitelyNotDispatched =>
    { order with place := .rejected, terminal := some .rejected }
  | .outOfProfile | .acknowledgementUnknown => { order with place := .unknown }

theorem samePrior_placedBy (hnone : order.venueOrder = none) (venue : PmVenueOrderKey)
    (classification : PmJournalAuthenticatedClassificationV1) :
    SamePrior order (placedBy order venue classification) := by
  have hven : ∀ new : Option PmVenueOrderKey, ∀ other ∈ order.venueOrder, new = some other := by
    rw [hnone]
    nofun
  cases classification with
  | accepted => exact ⟨rfl, rfl, rfl, rfl, rfl, hven _, Nat.zero_le _⟩
  | _ => exact ⟨rfl, rfl, rfl, rfl, rfl, hven _, le_rfl⟩

/-- The place result of a bridge, on an order without any outcome. -/
theorem applyPlaceResult_bridge {canonical : PmJournalPlaceResultV1}
    {classification : PmJournalAuthenticatedClassificationV1} (hcan : canonical = canonicalPlace
      client (if classification = .accepted then some venue else none) classification)
    (hget : s.Holds client order) (hopen : order.place = .intentOnly)
    (hroom : s.fillKeys.size + s.pendingAckFillKeys ≤ maxPmJournalFillKeys) :
    s.applyPlaceResult canonical .authenticated = .ok t ↔
      (classification = .accepted → s.boundElsewhere client venue = false) ∧
      t = s.setOrder client (placedBy order venue classification) := by
  have hsma : s.pendingAckFillKeys < 2 ^ 64 :=
    lt_of_le_of_lt (le_trans (Nat.le_add_left _ _) hroom) (by decide)
  have hpla : ∀ placed, order.applyPlace canonical = .ok placed ↔
      placed = placedBy order venue classification := by
    intro placed
    rw [applyPlace_iff, hcan]
    cases classification <;>
      simp [canonicalPlace, placedBy, hopen, PmJournalPlaceOutcomeV1.bindsVenue]
  obtain ⟨hcl, hkeys, hven⟩ : canonical.clientOrder = client ∧ canonical.immediateFills.keys = [] ∧
      canonical.venueOrder = if classification = .accepted then some venue else none := by
    rw [hcan]
    cases classification <;> exact ⟨rfl, rfl, rfl⟩
  have hadd : addedPending canonical = 0 := by
    unfold addedPending
    rw [hkeys]
    split_ifs <;> rfl
  subst hcl
  rw [applyPlaceResult_iff, hadd, hkeys, hven]
  constructor
  · rintro ⟨hfree, -, -, found, placed, hfou, hpl, rfl⟩
    cases hget.symm.trans hfou
    cases (hpla placed).mp hpl
    exact ⟨fun he => hfree venue (if_pos he), rfl⟩
  · rintro ⟨hfree, rfl⟩
    refine ⟨fun other hmem => ?_, fun _ => hroom, fun _ => hsma, order, _, hget,
      (hpla _).mpr rfl, rfl⟩
    split_ifs at hmem with hacc
    · cases hmem
      exact hfree hacc
    · cases hmem

theorem boundElsewhere_setOrder {next : RecoveredOwnedOrder} :
    (s.setOrder client next).boundElsewhere client venue = false ↔
      s.boundElsewhere client venue = false := by
  have hputs := puts_setOrder s client next
  simp only [boundElsewhere_eq_false]
  constructor <;> intro h other held hheld hven
  · by_contra hne
    exact hne (h other held (((hputs other).trans (if_neg (Ne.symm hne))).trans hheld) hven)
  · rw [Holds, hputs other] at hheld
    split_ifs at hheld with he
    · exact he.symm
    · exact h other held hheld hven

/-- The classification leaves the outcome open, but the identity of the order is known. -/
abbrev isAmbiguous (classification : PmJournalAuthenticatedClassificationV1) : Prop :=
  classification = .outOfProfile ∨ classification = .acknowledgementUnknown

/-- When the bridge of a placement is accepted. -/
theorem applyCanonical_place_iff {place : PmJournalAuthenticatedPlaceResultV1}
    (hcan : place.canonical = canonicalPlace client
      (if place.classification = .accepted then some venue else none) place.classification)
    (hven : exactExpectedVenueOrder client place.expectedOrderId = some venue)
    (hget : s.Holds client order) (hopen : order.place = .intentOnly)
    (hnone : order.venueOrder = none)
    (hroom : s.fillKeys.size + s.pendingAckFillKeys ≤ maxPmJournalFillKeys) :
    s.applyCanonical (.place place) = .ok t ↔
      (place.classification = .accepted ∨ isAmbiguous place.classification →
        s.boundElsewhere client venue = false) ∧ ((¬ isAmbiguous place.classification ∧
        t = s.setOrder client (placedBy order venue place.classification)) ∨
      (isAmbiguous place.classification ∧
        t = (s.setOrder client { order with place := .unknown }).setOrder client
          { order with place := .unknown, venueOrder := some venue })) := by
  have hcl : place.canonical.clientOrder = client := by simp [hcan]
  unfold applyCanonical
  rw [Outcome.bind_eq_ok]
  simp only [applyPlaceResult_bridge hcan hget hopen hroom]
  by_cases hamb : isAmbiguous place.classification
  · have hacc : place.classification ≠ .accepted := by
      rcases hamb with h | h <;> rw [h] <;> nofun
    have hpla : placedBy order venue place.classification = { order with place := .unknown } := by
      rcases hamb with h | h <;> rw [h] <;> rfl
    have hputs := (puts_setOrder s client { order with place := .unknown } client).trans
      (if_pos rfl)
    constructor
    · rintro ⟨middle, ⟨-, rfl⟩, hbind⟩
      rw [if_pos hamb, hpla, bindAmbiguous_iff] at hbind
      obtain ⟨bound, found, hbd, helse, hfou, -, -, rfl⟩ := hbind
      rw [hcl] at hbd helse hfou ⊢
      cases hven.symm.trans hbd
      cases hputs.symm.trans hfou
      exact ⟨fun _ => boundElsewhere_setOrder.mp helse, .inr ⟨hamb, rfl⟩⟩
    · rintro ⟨hfree, ⟨hnot, -⟩ | ⟨-, rfl⟩⟩
      · exact absurd hamb hnot
      refine ⟨_, ⟨fun h => absurd h hacc, rfl⟩, ?_⟩
      rw [if_pos hamb, hpla, bindAmbiguous_iff, hcl]
      exact ⟨venue, _, hven, boundElsewhere_setOrder.mpr (hfree (.inr hamb)), hputs, rfl,
        hnone, rfl⟩
  · constructor
    · rintro ⟨middle, ⟨hfree, rfl⟩, hret⟩
      rw [if_neg hamb] at hret
      cases hret
      exact ⟨fun h => hfree (h.resolve_right hamb), .inl ⟨hamb, rfl⟩⟩
    · rintro ⟨hfree, ⟨-, rfl⟩ | ⟨hnot, -⟩⟩
      · exact ⟨_, ⟨fun h => hfree (.inl h), rfl⟩, if_neg hamb⟩
      · exact absurd hnot hamb

/-- The bridge of a placement. -/
theorem applyCanonical_place (hop : result.operation = .place coordinator)
    (hget : s.Holds result.clientOrder order) (hawa : Awaits order result)
    (hroom : s.fillKeys.size + s.pendingAckFillKeys ≤ maxPmJournalFillKeys) :
    SucceedsIff (s.applyCanonical (bridgeOf result)) (Absorbs s result)
      fun t => ∃ next, Bridged s t result order next := by
  unfold Awaits at hawa
  rw [hop] at hawa
  obtain ⟨hopen, hnone, -⟩ := hawa
  obtain ⟨venue, hven, -⟩ := exists_exactExpectedVenueOrder result.clientOrder
    result.expectedOrExactOrderId.fingerprint
  have hwai : result.operation.kind ≠ .cancel := by
    rw [hop]
    nofun
  set classification := recoveredClassification result.classification with hrec
  have hnew : newVenue result =
      if classification = .accepted ∨ isAmbiguous classification then some venue else none := by
    unfold newVenue isAmbiguous
    rw [hop, hven, ← hrec]
    cases classification <;> simp
  set place := placeBridge result result.expectedOrExactOrderId
    (if classification = .accepted then some venue else none)
  have hbri : bridgeOf result = .place place := by
    unfold bridgeOf
    rw [hop, hven]
  have hiff : ∀ t, s.applyCanonical (.place place) = .ok t ↔ _ :=
    fun t => applyCanonical_place_iff rfl hven hget hopen hnone hroom
  rw [hbri]
  have habs : Absorbs s result ↔ (classification = .accepted ∨ isAmbiguous classification →
        s.boundElsewhere result.clientOrder venue = false) := by
    rw [← free_iff_boundElsewhere venue hget hnone]
    constructor
    · intro h hbin
      exact h.free venue (hnew.trans (if_pos hbin))
    · refine fun h => ⟨fun other hmem => ?_, fun hkind => absurd hkind hwai⟩
      rw [hnew] at hmem
      split_ifs at hmem with hbin
      · cases hmem
        exact h hbin
      · cases hmem
  rw [habs]
  refine ⟨⟨?_, fun hfree => ?_⟩, fun t h => ?_⟩
  · rintro ⟨t, h⟩
    exact ((hiff t).mp h).1
  · by_cases hamb : isAmbiguous classification
    · exact ⟨_, (hiff _).mpr ⟨hfree, .inr ⟨hamb, rfl⟩⟩⟩
    · exact ⟨_, (hiff _).mpr ⟨hfree, .inl ⟨hamb, rfl⟩⟩⟩
  · obtain ⟨-, ⟨hnot, rfl⟩ | ⟨hamb, rfl⟩⟩ := (hiff t).mp h
    · refine ⟨_, puts_setOrder _ _ _, samePrior_placedBy hnone venue _, fun other => ?_, rfl, rfl⟩
      rw [hnew, hnone]
      show (placedBy order venue classification).venueOrder = some other ↔ _
      cases hcla : classification <;> simp [placedBy, hnone, isAmbiguous]
      · exact (hnot (.inl hcla)).elim
      · exact (hnot (.inr hcla)).elim
    · refine ⟨_, (puts_setOrder _ _ _).trans (puts_setOrder _ _ _),
        ⟨rfl, rfl, rfl, rfl, rfl, ?_, le_rfl⟩, fun other => ?_, rfl, rfl⟩
      · rw [hnone]
        nofun
      · rw [hnew, if_pos (.inr hamb), hnone]
        simp

/-- What holds of a result whose bridge is to be appended. -/
structure Waiting (scope : PmAuthenticatedJournalScopeV1) (s : PmJournalRecovery)
    (result : PmAuthenticatedRecoveredResultV1) : Prop where
  wellFormed : WellFormed scope result
  fresh : s.authenticatedResults[result.resultJournalSequence]? = none
  order : ∃ order, s.Holds result.clientOrder order ∧ Awaits order result

/-- The journal that bridges are appended to: it is for the same account and instrument, and has
room for the fills that it knows of. -/
structure Joins (scope : PmAuthenticatedJournalScopeV1) (s : PmJournalRecovery) : Prop where
  account : s.scope.account = scope.account
  instrument : s.scope.instrument = scope.instrument
  room : s.fillKeys.size + s.pendingAckFillKeys ≤ maxPmJournalFillKeys

theorem expectedPrior_bridgeOf (hget : s.Holds result.clientOrder order)
    (hawa : Awaits order result) :
    s.expectedPrior (bridgeOf result) = .ok (bridgeOf result).priorGoalFSequence := by
  unfold Awaits at hawa
  unfold bridgeOf
  cases hop : result.operation with
  | place =>
    rw [hop] at hawa
    refine bind_eq_ok.mpr ⟨order, findOrder_eq_ok.mpr ?_, congrArg _ hawa.2.2⟩
    rw [placeBridge, clientOrder_canonicalPlace]
    exact hget
  | cancel =>
    rw [hop] at hawa
    refine bind_eq_ok.mpr ⟨order, findOrder_eq_ok.mpr ?_, ?_⟩
    · rw [cancelBridge, clientOrder_canonicalCancel]
      exact hget
    · rw [hawa.2.2]
      rfl

/-- What an appended bridge does to the projection. -/
structure Appended (s t : PmJournalRecovery)
    (result : PmAuthenticatedRecoveredResultV1) (order next : RecoveredOwnedOrder) : Prop
    extends Bridged s t result order next where
  held : s.Holds result.clientOrder order
  scope : t.scope = s.scope
  recordCount : t.recordCount = s.recordCount + 1
  results : t.authenticatedResults =
    s.authenticatedResults.insert result.resultJournalSequence (bridgeOf result)

variable {scope : PmAuthenticatedJournalScopeV1} {next : RecoveredOwnedOrder}
  {other : PmAuthenticatedRecoveredResultV1}

section

variable (h : Appended s t result order next)

include h

theorem Appended.extends : Extends s t := by
  intro client held hheld
  simp only [Holds, h.puts client]
  split_ifs with he
  · subst he
    cases h.held.symm.trans hheld
    exact ⟨next, rfl, h.same⟩
  · exact ⟨held, hheld, .refl held⟩

theorem Appended.joins (hjoi : Joins scope s) : Joins scope t where
  account := h.scope ▸ hjoi.account
  instrument := h.scope ▸ hjoi.instrument
  room := by rw [h.fillKeys, h.pending]; exact hjoi.room

/-- The results of other orders still wait. -/
theorem Appended.waiting (hcl : result.clientOrder ≠ other.clientOrder)
    (hseq : result.resultJournalSequence ≠ other.resultJournalSequence)
    (hwai : Waiting scope s other) : Waiting scope t other where
  wellFormed := hwai.wellFormed
  fresh := by rw [h.results, getElem?_insert_eq, if_neg hseq, hwai.fresh]
  order := by
    obtain ⟨held, hheld, hawa⟩ := hwai.order
    exact ⟨held, ((h.puts _).trans (if_neg hcl)).trans hheld, hawa⟩

theorem Appended.free_iff : Free t venue ↔ Free s venue ∧ newVenue result ≠ some venue := by
  constructor
  · intro hfree
    have hnext := mt (h.venue venue).mpr
      (hfree result.clientOrder next ((h.puts _).trans (if_pos rfl)))
    rw [not_or] at hnext
    refine ⟨fun client held hheld => ?_, hnext.2⟩
    by_cases he : result.clientOrder = client
    · subst he
      cases h.held.symm.trans hheld
      exact hnext.1
    · exact hfree client held (((h.puts client).trans (if_neg he)).trans hheld)
  · rintro ⟨hfree, hnew⟩ client held hheld hven
    rw [Holds, h.puts client] at hheld
    split_ifs at hheld with he
    · cases hheld
      rcases (h.venue venue).mp hven with hold | hbd
      · exact hfree result.clientOrder order h.held hold
      · exact hnew hbd
    · exact hfree client held hheld hven

/-- Another result is absorbed after a bridge if it was before, and does not bind the same venue
order. -/
theorem Appended.absorbs_iff (hcl : result.clientOrder ≠ other.clientOrder) : Absorbs t other ↔
      Absorbs s other ∧ ∀ venue ∈ newVenue result, venue ∉ newVenue other := by
  have hloo : t.ownedOrders[other.clientOrder]? =
      s.ownedOrders[other.clientOrder]? := (h.puts _).trans (if_neg hcl)
  constructor
  · intro habs
    refine ⟨⟨fun venue hmem => (h.free_iff.mp (habs.free venue hmem)).1, ?_⟩,
      fun venue hnew hmem => (h.free_iff.mp (habs.free venue hmem)).2 hnew⟩
    simpa only [Holds, hloo] using habs.waits
  · rintro ⟨habs, hdis⟩
    refine ⟨fun venue hmem => h.free_iff.mpr ⟨habs.free venue hmem, fun hnew => ?_⟩, ?_⟩
    · exact hdis venue hnew hmem
    · simpa only [Holds, hloo] using habs.waits

end

/-! ### Lists of bridges -/

/-- The lines of bridges that follow others. -/
def bridgeLines (scope : PmJournalScopeV1) :
    ℕ → List PmJournalAuthenticatedResultV1 → List PmJournalLineV1
  | _, [] => []
  | position, result :: results =>
    ⟨scope.schemaVersion, scope.fingerprint, sequenceAt position, .authenticatedResult result⟩ ::
      bridgeLines scope (position + 1) results

/-- What holds of a list of results whose bridges are to be appended. -/
structure AllWaiting (scope : PmAuthenticatedJournalScopeV1) (s : PmJournalRecovery)
    (results : List PmAuthenticatedRecoveredResultV1) : Prop where
  waiting : ∀ result ∈ results, Waiting scope s result
  apart : results.Pairwise fun a b =>
    a.clientOrder ≠ b.clientOrder ∧ a.resultJournalSequence ≠ b.resultJournalSequence

/-- The journal can take all results: each one, and no two bind one venue order. -/
structure AbsorbsAll (s : PmJournalRecovery)
    (results : List PmAuthenticatedRecoveredResultV1) : Prop where
  each : ∀ result ∈ results, Absorbs s result
  venues : results.Pairwise fun a b => ∀ venue ∈ newVenue a, venue ∉ newVenue b

section

variable (h : AllWaiting scope s (result :: results)) (happ : Appended s t result order next)

include h happ

theorem AllWaiting.tail : AllWaiting scope t results := by
  obtain ⟨hfst, hrest⟩ := pairwise_cons.mp h.apart
  refine ⟨fun other hmem => ?_, hrest⟩
  exact happ.waiting (hfst other hmem).1 (hfst other hmem).2 (h.waiting other (.tail _ hmem))

theorem absorbsAll_cons (hfst : Absorbs s result) :
    AbsorbsAll s (result :: results) ↔ AbsorbsAll t results := by
  have hcl := (pairwise_cons.mp h.apart).1
  constructor
  · rintro ⟨heach, hven⟩
    obtain ⟨hdis, hrest⟩ := pairwise_cons.mp hven
    exact ⟨fun other hmem => (happ.absorbs_iff (hcl other hmem).1).mpr
      ⟨heach other (.tail _ hmem), hdis other hmem⟩, hrest⟩
  · rintro ⟨heach, hven⟩
    have hboth := fun other hmem =>
      (happ.absorbs_iff (hcl other hmem).1).mp (heach other hmem)
    refine ⟨fun other hmem => ?_, pairwise_cons.mpr ⟨fun other hmem => (hboth other hmem).2, hven⟩⟩
    rcases mem_cons.mp hmem with rfl | hmem
    · exact hfst
    · exact (hboth other hmem).1

end

/-! ### Recovery -/

theorem sequenceAt_ne_zero (hpos : position ≠ 0) (hle : position ≤ maxPmJournalRecords) :
    sequenceAt position ≠ 0 := by
  intro he
  have hnat := congrArg UInt64.toNat he
  rw [toNat_sequenceAt (lt_of_le_of_lt hle (by decide))] at hnat
  exact hpos hnat

variable [JournalDigest] {sequence : UInt64}

/-- **One bridge**: when its line is accepted, and what it changes. -/
theorem applyCounted_bridge (h : Waiting scope s result) (hjoi : Joins scope s)
    (hseq : sequence ≠ 0) :
    SucceedsIff (Journal.applyCounted s (.authenticatedResult (bridgeOf result)) sequence)
      (Absorbs s result) fun t =>
        ∃ order next, Appended s t result order next := by
  obtain ⟨order, hget, hawa⟩ := h.order
  have hcan : SucceedsIff (s.applyCanonical (bridgeOf result))
      (Absorbs s result) fun t => ∃ next, Bridged s t result order next := by
    cases hop : result.operation with
    | place => exact applyCanonical_place hop hget hawa hjoi.room
    | cancel => exact applyCanonical_cancel hop hget hawa
  have hval : (PmJournalRecordV1.authenticatedResult (bridgeOf result)).validate s.scope =
      .ok () := validate_bridgeOf h.wellFormed hjoi.account hjoi.instrument
  have happl : ∀ applied, s.applyRecord (.authenticatedResult (bridgeOf result)) sequence =
      .ok applied ↔ _ := fun applied => by
    rw [applyRecord, Outcome.wrapError_eq_ok.mpr hval, ok_bind, if_neg hseq,
      applyAuthenticatedResult_iff, and_iff_right, and_iff_right]
    · exact expectedPrior_bridgeOf hget hawa
    · rw [authResultSequence_bridgeOf]
      exact h.fresh
  have hrec := hcan.map (R := fun applied => ∃ order next,
    Appended s (applied.counted sequence) result order next) happl
    fun _ happ hnext => by
      obtain ⟨next, hbri⟩ := hnext
      obtain ⟨hsc, hcnt, hres⟩ := applyRecord_frame happ
      refine ⟨order, next, { hbri with }, hget, hsc, congrArg (· + 1) hcnt, hres.trans ?_⟩
      rw [resultsAfter, authResultSequence_bridgeOf]
  refine hrec.map (g := (·.counted sequence)) (fun _ => ?_) fun _ _ h => h
  simp only [Journal.applyCounted, Outcome.bind_eq_ok, Outcome.return_eq_ok]

/-- One line is read, and then the others. -/
theorem recoverFrom_cons {record : PmJournalRecordV1} {lines : List PmJournalLineV1}
    (hle : position ≤ maxPmJournalRecords) :
    Journal.recoverFrom s (sequenceAt position) (⟨s.scope.schemaVersion,
      s.scope.fingerprint, sequenceAt position, record⟩ :: lines) = .ok final ↔
    s.recordCount ≠ maxPmJournalRecords ∧ ∃ t,
      Journal.applyCounted s record (sequenceAt position) = .ok t ∧
      Journal.recoverFrom t (sequenceAt (position + 1)) lines = .ok final := by
  have hnext : (Outcome.wrapError .schema (nextSequence .sequenceExhausted (sequenceAt position)) :
      Journal.Recovering UInt64) = .ok (sequenceAt (position + 1)) := by
    rw [Outcome.wrapError_eq_ok]
    refine bind_eq_ok.mpr ⟨(), refuse_eq_ok.mpr fun hlast => ?_, ?_⟩
    · have hlt : position < 2 ^ 64 := lt_of_le_of_lt hle (by decide)
      have hnat := congrArg UInt64.toNat hlast
      rw [toNat_sequenceAt hlt] at hnat
      rw [hnat] at hle
      exact absurd hle (by decide)
    · exact congrArg _ (UInt64.ofNat_add position 1).symm
  have hchk : Journal.checkLine s (sequenceAt position) ⟨s.scope.schemaVersion,
      s.scope.fingerprint, sequenceAt position, record⟩ = .ok () ↔
      s.recordCount ≠ maxPmJournalRecords := by
    unfold Journal.checkLine
    simp [Outcome.bind_eq_ok, Outcome.refuse_eq_ok]
  unfold Journal.recoverFrom
  rw [readLines, Outcome.bind_eq_ok]
  constructor
  · rintro ⟨_, hchkd, hread⟩
    obtain ⟨t, hcha, hread⟩ := bind_eq_ok.mp hread
    rw [hnext, ok_bind] at hread
    exact ⟨hchk.mp hchkd, t, hcha, hread⟩
  · rintro ⟨hcnt, t, hcha, hread⟩
    refine ⟨(), hchk.mpr hcnt, bind_eq_ok.mpr ⟨t, hcha, ?_⟩⟩
    rw [hnext]
    exact hread

/-- What appended bridges leave. -/
structure AllAppended (s final : PmJournalRecovery)
    (results : List PmAuthenticatedRecoveredResultV1) : Prop where
  keeps : Extends s final
  scope : final.scope = s.scope
  recordCount : final.recordCount = s.recordCount + results.length
  results : ∀ (sequence : UInt64) (bridge : PmJournalAuthenticatedResultV1),
    final.authenticatedResults[sequence]? = some bridge ↔
      s.authenticatedResults[sequence]? = some bridge ∨
      ∃ result ∈ results, result.resultJournalSequence = sequence ∧ bridgeOf result = bridge

omit [JournalDigest] in
theorem AllAppended.cons (hfr : s.authenticatedResults[result.resultJournalSequence]? = none)
    (happ : Appended s t result order next) (hrest : AllAppended t final results)
    : AllAppended s final (result :: results) := by
  refine ⟨happ.extends.trans hrest.keeps, hrest.scope.trans happ.scope, ?_,
    fun sequence bridge => ?_⟩
  · rw [hrest.recordCount, happ.recordCount, length_cons]
    omega
  · rw [hrest.results, happ.results, getElem?_insert_eq]
    split_ifs with he
    · subst he
      simp [hfr]
    · simp [he]

/-- **All bridges**: they are accepted exactly if there is room for them and the journal can take
the results. -/
theorem recoverFrom_bridges (h : AllWaiting scope s results)
    (hjoi : Joins scope s) (hcnt : s.recordCount = position) (hpos : position ≠ 0)
    (hle : position ≤ maxPmJournalRecords) :
    SucceedsIff (Journal.recoverFrom s (sequenceAt position)
      (bridgeLines s.scope position (results.map bridgeOf)))
      (position + results.length ≤ maxPmJournalRecords ∧ AbsorbsAll s results)
      (AllAppended s · results) := by
  induction results generalizing s position with
  | nil =>
    refine ⟨iff_of_true ⟨s, rfl⟩ ⟨hle, nofun, .nil⟩, ?_⟩
    rintro _ ⟨⟩
    exact ⟨fun client order hget => ⟨order, hget, .refl order⟩, rfl, rfl, by simp⟩
  | cons result results ih =>
    have hone := applyCounted_bridge (h.waiting result (.head _)) hjoi (sequenceAt_ne_zero hpos hle)
    have hrest : ∀ {t order next}, Appended s t result order next →
        position ≠ maxPmJournalRecords → SucceedsIff (Journal.recoverFrom t
          (sequenceAt (position + 1)) (bridgeLines s.scope (position + 1)
          (results.map bridgeOf))) _ _ := fun happ hroom =>
      happ.scope ▸ ih (h.tail happ) (happ.joins hjoi)
        (happ.recordCount.trans (congrArg (· + 1) hcnt)) (Nat.succ_ne_zero _)
        (lt_of_le_of_ne hle hroom)
    rw [map_cons, bridgeLines, length_cons]
    refine ⟨?_, fun final hread => ?_⟩
    · simp only [recoverFrom_cons hle, hcnt]
      constructor
      · rintro ⟨final, hroom, t, hcha, hread⟩
        obtain ⟨order, next, happ⟩ := hone.value t hcha
        obtain ⟨hlen, habs⟩ := (hrest happ hroom).iff.mp ⟨final, hread⟩
        exact ⟨by omega, (absorbsAll_cons h happ (hone.iff.mp ⟨t, hcha⟩)).mpr habs⟩
      · rintro ⟨hlen, habs⟩
        have hfst := habs.each result (.head _)
        obtain ⟨t, hcha⟩ := hone.iff.mpr hfst
        obtain ⟨order, next, happ⟩ := hone.value t hcha
        have hroom : position ≠ maxPmJournalRecords := by omega
        obtain ⟨final, hread⟩ := (hrest happ hroom).iff.mpr
          ⟨by omega, (absorbsAll_cons h happ hfst).mp habs⟩
        exact ⟨final, hroom, t, hcha, hread⟩
    · rw [recoverFrom_cons hle, hcnt] at hread
      obtain ⟨hroom, t, hcha, hread⟩ := hread
      obtain ⟨order, next, happ⟩ := hone.value t hcha
      exact .cons (h.waiting result (.head _)).fresh happ ((hrest happ hroom).value final hread)

end

end Reap.Authenticated
