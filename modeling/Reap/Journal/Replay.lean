import Reap.Core.Samples
import Reap.Journal.Invariant

/-!
# Every sequence of accepted records

Compaction keeps the invariant of `Reap.Journal.Invariant`, and so does every record: with the
lemmas for the kinds of changes, this is one case per kind of record.

## What is proved

* `inv_applyRecord` — an accepted record keeps the invariant.
* `inv_of_replayed` — so it holds after every sequence of accepted records.
* `applyRecord_ne_panic` — and no `expect` aborts.
* `projection_of_replayed` — what the projection promises, put together.
-/

namespace Reap.Journal

open Base Reap.Core Outcome UInt64

/-- `Replayed scope records s`: recovery accepts the records one after the other, and ends in `s`. -/
abbrev Replayed [JournalDigest] (scope : PmJournalScopeV1) :
    List PmJournalRecordV1 → PmJournalRecovery → Prop :=
  Accepted applyCounted (.empty scope)

namespace PmJournalRecovery

open RecoveredOwnedOrder OrderedMap

/-! ### Compaction -/

variable {records : List PmJournalRecordV1} {s : PmJournalRecovery}
  {client : PmClientOrderKey}

/-- The safe cut lies below every retained intent and does not pass the last one. -/
theorem safeCut_spec (orders : OrderedMap PmClientOrderKey RecoveredOwnedOrder) (last : UInt64)
    (hpos : ∀ (client : PmClientOrderKey) (order : RecoveredOwnedOrder),
      orders[client]? = some order → 0 < order.intent.intentId ∧ order.intent.intentId ≤ last) :
    safeCut orders last ≤ last ∧ ∀ (client : PmClientOrderKey) (order : RecoveredOwnedOrder),
      orders[client]? = some order → safeCut orders last < order.intent.intentId := by
  unfold safeCut
  split
  · next hnone =>
    refine ⟨UInt64.le_refl _, fun client order hget => ?_⟩
    rw [List.min?_eq_none_iff, List.map_eq_nil_iff] at hnone
    have hmem := mem_valueList.mpr ⟨client, hget⟩
    rw [hnone] at hmem
    cases hmem
  · next oldest hsome =>
    obtain ⟨hmem, hmin⟩ := List.min?_eq_some_iff.mp hsome
    obtain ⟨order, hval, rfl⟩ := List.mem_map.mp hmem
    obtain ⟨client, hget⟩ := mem_valueList.mp hval
    obtain ⟨hzero, hle⟩ := hpos client order hget
    have hne : order.intent.intentId ≠ 0 := by
      intro he
      rw [he] at hzero
      exact absurd hzero (by decide)
    rw [if_neg hne]
    have hsub : (order.intent.intentId - 1).toNat = order.intent.intentId.toNat - 1 := by
      rw [UInt64.toNat_sub_of_le]
      · rfl
      · exact hzero
    have hzero' : 0 < order.intent.intentId.toNat := lt_iff_toNat_lt.mp hzero
    have hle' : order.intent.intentId.toNat ≤ last.toNat := le_iff_toNat_le.mp hle
    refine ⟨le_iff_toNat_le.mpr (by omega), fun other next hnext => ?_⟩
    have hfst := hmin next.intent.intentId (List.mem_map_of_mem (mem_valueList.mpr ⟨other, hnext⟩))
    have hfst' := le_iff_toNat_le.mp hfst
    exact lt_iff_toNat_lt.mpr (by omega)

variable {order : RecoveredOwnedOrder}

theorem Inv.intent_pos (h : Inv records s)
    (hget : s.Holds client order) : 0 < order.intent.intentId := by
  have hlt := lt_iff_toNat_lt.mp (h.cut.2 client order hget)
  exact lt_iff_toNat_lt.mpr (Nat.lt_of_le_of_lt (Nat.zero_le _) hlt)

/-- **Compaction of an order** that misses no fill. -/
theorem Inv.withoutOrder (h : Inv records s) {removed : RecoveredOwnedOrder}
    (hrem : s.Holds client removed) (hmis : removed.pendingAckFills = []) :
    Inv records (s.withoutOrder client removed) := by
  set t := s.withoutOrder client removed
  have hloo : ∀ other order, t.Holds other order ↔ other ≠ client ∧ s.Holds other order := by
    intro other order
    rw [Holds, show t.ownedOrders = s.ownedOrders.erase client from rfl, getElem?_erase_eq]
    by_cases he : client = other
    · simp [he]
    · simp [he, Ne.symm he]
  have hret : ∀ o, t.Retained records o ↔
      o.clientOrder ≠ client ∧ s.Retained records o := by
    intro o
    simp [Retained, hloo, and_assoc, and_left_comm]
  have hfill : ∀ (key : PmFillKey) (applied : PmJournalFillAppliedV1),
      t.fillKeys[key]? = some applied ↔
        s.fillKeys[key]? = some applied ∧ applied.fill.clientOrder ≠ client := by
    intro key applied
    rw [show t.fillKeys = s.fillKeys.filter
      fun _ applied => applied.fill.clientOrder != client from rfl, getElem?_filter_eq,
      Option.filter_eq_some_iff, bne_iff_ne]
  have hcut := safeCut_spec t.ownedOrders s.lastIntentId fun other order hget =>
      have hpr := ((hloo other order).mp hget).2
      ⟨h.intent_pos hpr, (h.order other order hpr).intent_le⟩
  have hcom : t.compactedIntentId =
      max s.compactedIntentId (safeCut t.ownedOrders s.lastIntentId) := rfl
  refine ⟨fun first second a b ha hb hslot hna hnb => ?_, fun other order hoth => ?_,
    ⟨fun intentId other => ?_, fun key applied => ?_, fun sequence key => ?_,
      fun sequence o => ?_, ?_, ?_⟩,
    ⟨?_, fun other order hoth => ?_⟩, fun other order hoth => ?_,
    fun sequence o hobs => ?_⟩
  · exact h.oneOpen first second a b ((hloo first a).mp ha).2 ((hloo second b).mp hb).2
      hslot hna hnb
  · obtain ⟨hne, hpr⟩ := (hloo other order).mp hoth
    have hsame : t.filledOf other = s.filledOf other := by
      unfold filledOf
      rw [show t.fillKeys = s.fillKeys.filter
        fun _ applied => applied.fill.clientOrder != client from rfl, weigh_filter]
      refine weigh_congr fun key applied _ => ?_
      by_cases he : applied.fill.clientOrder = other
      · rw [if_pos (bne_iff_ne.mpr (he ▸ hne))]
      · rw [if_neg he, ite_self]
    rw [hsame]
    exact h.fillsAddUp other order hpr
  · show (s.orderOrder.erase removed.intent.intentId)[intentId]? = some other ↔ _
    simp only [hloo, getElem?_erase_eq]
    split_ifs with he
    · -- the intent of the removed order is the intent of no other order
      refine iff_of_false not_false ?_
      rintro ⟨order, ⟨hne, hpr⟩, hid⟩
      refine hne ?_
      have hoth := (h.indexed.orders intentId other).mpr ⟨order, hpr, hid⟩
      have hcl := (h.indexed.orders intentId client).mpr ⟨removed, hrem, he⟩
      exact Option.some.inj (hoth.symm.trans hcl)
    · rw [h.indexed.orders]
      refine exists_congr fun order => ⟨?_, And.imp_left And.right⟩
      rintro ⟨hpr, hid⟩
      refine ⟨⟨?_, hpr⟩, hid⟩
      rintro rfl
      cases hrem.symm.trans hpr
      exact he hid
  · rw [hfill, hret, h.indexed.fillKeys]
    exact and_assoc.trans (and_congr_right' and_comm)
  · show (s.fillOrder.filter fun _ key => t.fillKeys.contains key)[sequence]? =
      some key ↔ _
    rw [getElem?_filter_eq, Option.filter_eq_some_iff, Std.TreeMap.contains_eq_isSome_getElem?,
      Option.isSome_iff_exists, h.indexed.fills]
    constructor
    · rintro ⟨⟨applied, hget, hown⟩, kept, hkept⟩
      have hpr := ((hfill key kept).mp hkept).1
      rw [hget] at hpr
      cases hpr
      exact ⟨applied, hkept, hown⟩
    · rintro ⟨applied, hkept, hown⟩
      exact ⟨⟨applied, ((hfill key applied).mp hkept).1, hown⟩, applied, hkept⟩
  · show (s.observationOrder.filter
      fun _ o => o.clientOrder != client)[sequence]? = some o ↔ _
    rw [getElem?_filter_eq, Option.filter_eq_some_iff, bne_iff_ne, hret, h.indexed.observations]
    exact and_assoc.trans (and_congr_right' and_comm)
  · show s.pendingAckFillKeys = weigh _ (s.ownedOrders.erase client)
    rw [h.indexed.pending, weigh_erase_of_some hrem, hmis]
    exact Nat.zero_add _
  · exact (Nat.add_le_add_right Std.TreeMap.size_filter_le_size _).trans h.indexed.room
  · rw [hcom, le_iff_toNat_le, toNat_max]
    exact max_le (le_iff_toNat_le.mp h.cut.1) (le_iff_toNat_le.mp hcut.1)
  · rw [hcom, lt_iff_toNat_lt, toNat_max]
    exact max_lt (lt_iff_toNat_lt.mp (h.cut.2 other order ((hloo other order).mp hoth).2))
      (lt_iff_toNat_lt.mp (hcut.2 other order hoth))
  · have hpr := h.order other order ((hloo other order).mp hoth).2
    exact { hpr with }
  · have hobs : (s.observationOrder.filter
      fun _ o => o.clientOrder != client)[sequence]? = some o :=
      hobs
    rw [getElem?_filter_eq, Option.filter_eq_some_iff] at hobs
    exact h.observed_le sequence o hobs.1

theorem getElem?_compactOrder (s : PmJournalRecovery) (client other : PmClientOrderKey) :
    (s.compactOrder client).ownedOrders[other]? =
      if client = other then none else s.ownedOrders[other]? := by
  unfold compactOrder
  split
  · next hnone =>
    split_ifs with he
    · rw [← he, hnone]
    · rfl
  · exact getElem?_erase_eq s.ownedOrders client other

/-- Compaction of a list of orders keeps the invariant and does not lower the cut. -/
theorem Inv.compactOrders (clients : List PmClientOrderKey) (h : Inv records s)
    (hmis : ∀ client ∈ clients, ∀ order : RecoveredOwnedOrder,
      s.Holds client order → order.pendingAckFills = []) :
    Inv records (clients.foldl compactOrder s) ∧
      s.compactedIntentId ≤ (clients.foldl compactOrder s).compactedIntentId := by
  induction clients generalizing s with
  | nil => exact ⟨h, UInt64.le_refl _⟩
  | cons client _ ih =>
    have hkept : Inv records (s.compactOrder client) ∧
        s.compactedIntentId ≤ (s.compactOrder client).compactedIntentId := by
      unfold compactOrder
      split
      · exact ⟨h, UInt64.le_refl _⟩
      · next removed hrem =>
        refine ⟨h.withoutOrder hrem (hmis client (.head _) removed hrem), ?_⟩
        exact (le_max_left _ _).trans_eq (toNat_max _ _).symm
    obtain ⟨hrest, hle⟩ := ih hkept.1 fun other hmem order hget => by
      rw [Holds, getElem?_compactOrder] at hget
      split_ifs at hget
      exact hmis other (.tail _ hmem) order hget
    exact ⟨hrest, UInt64.le_trans hkept.2 hle⟩

theorem pending_of_canCompact (h : order.canCompact = true) : order.pendingAckFills = [] := by
  unfold canCompact isUnresolved at h
  simp only [Bool.and_eq_true, Bool.not_eq_true', Bool.or_eq_false_iff, Bool.not_eq_false'] at h
  exact List.isEmpty_iff.mp h.1.1.2

theorem Inv.compactProvenTerminalOrders (h : Inv records s) :
    Inv records s.compactProvenTerminalOrders ∧
      s.compactedIntentId ≤ s.compactProvenTerminalOrders.compactedIntentId := by
  refine h.compactOrders _ fun client hmem order hget => ?_
  obtain ⟨⟨key, prior⟩, hent, hsome⟩ := List.mem_filterMap.mp hmem
  split_ifs at hsome with hcan
  cases hsome
  rw [mem_toList, hget] at hent
  cases hent
  exact pending_of_canCompact hcan

/-! ### One record -/

/-- The invariant holds after a change that leaves the cut where it was. -/
structure KeepsCut (records : List PmJournalRecordV1) (s t : PmJournalRecovery) :
    Prop where
  inv : Inv records t
  cut : t.compactedIntentId = s.compactedIntentId

section

variable {records : List PmJournalRecordV1} {s t : PmJournalRecovery}
  {result : PmJournalPlaceResultV1} {scope : PmJournalScopeV1}

theorem legs_le_of_validate (h : result.validate scope = .ok ()) :
    result.immediateFills.keys.length ≤ maxPmAcknowledgementFillLegs := by
  obtain ⟨_, hfil, -⟩ := bind_eq_ok.mp h
  obtain ⟨_, hlegs, -⟩ := bind_eq_ok.mp hfil
  exact not_lt.mp (refuse_eq_ok.mp hlegs)

section

variable (h : Inv records s)

include h

variable {provenance : ResultProvenance}

theorem inv_applyPlaceResult
    (hlegs : result.immediateFills.keys.length ≤ maxPmAcknowledgementFillLegs)
    (happ : s.applyPlaceResult result provenance = .ok t) :
    KeepsCut records s t := by
  obtain ⟨-, hcap, -, order, placed, hget, hpl, rfl⟩ := applyPlaceResult_iff.mp happ
  refine ⟨?_, rfl⟩
  have hsame := (applyPlace_sameQuote hpl).trans (markPlaceResult_sameQuote placed provenance)
  have hord := h.order _ order hget
  unfold addedPending
  rcases applyPlace_iff.mp hpl with ⟨hout, hpr, rfl⟩ | ⟨hout, hpr, rfl⟩ | ⟨hbin, hpr, venue, -, rfl⟩
  rotate_right
  · have hnone := hord.missing_bound (by rw [hpr]; split_ifs <;> nofun)
    refine h.setOrder _ hget hsame (by simp) (by simp) (by simpa using hlegs) ?_ ?_
    · simp [hbin, hnone]
    · simpa [hbin, Nat.add_assoc] using hcap hbin
  -- an unknown outcome and a rejection announce no fills
  all_goals
    have hnone := hord.missing_bound (by rw [hpr]; nofun)
    refine h.setOrder _ hget hsame (by simp) (by simp [hnone]) (by simp [hnone]) ?_ ?_
    · simp [hout, hnone, PmJournalPlaceOutcomeV1.bindsVenue]
    · simpa [hout, PmJournalPlaceOutcomeV1.bindsVenue] using h.indexed.room

/-- An order changes, but not its missing fills. -/
theorem Inv.setSame {next : RecoveredOwnedOrder} (hget : s.Holds client order)
    (hsame : order.SameQuote next) (hterm : next.terminal = none → order.terminal = none)
    (hpl : next.place = order.place) (hpend : next.pendingAckFills = order.pendingAckFills) :
    Inv records (s.setOrder client next) := by
  refine h.setOrder s.pendingAckFillKeys hget hsame hterm ?_ ?_ ?_ h.indexed.room
  · rw [hpl, hpend]
    exact (h.order client order hget).missing_bound
  · rw [hpend]
    exact (h.order client order hget).missing_le
  · rw [hpend]

theorem inv_bindAmbiguous {place : PmJournalAuthenticatedPlaceResultV1}
    (happ : s.bindAuthenticatedAmbiguousVenue place = .ok t) :
    KeepsCut records s t := by
  obtain ⟨venue, order, -, -, hget, -, -, rfl⟩ := bindAmbiguous_iff.mp happ
  refine ⟨h.setSame hget ⟨rfl, rfl, rfl, rfl, rfl, rfl⟩ ?_ rfl rfl, rfl⟩
  exact id

theorem inv_applyCancelIntent {intent : PmJournalCancelIntentV1}
    {sequence : UInt64} (happ : s.applyCancelIntent intent sequence = .ok t) :
    KeepsCut records s t := by
  obtain ⟨order, next, hget, hcan, rfl⟩ := applyCancelIntent_iff.mp happ
  obtain ⟨-, -, -, -, -, rfl⟩ := RecoveredOwnedOrder.applyCancelIntent_iff.mp hcan
  refine ⟨h.setSame hget ⟨rfl, rfl, rfl, rfl, rfl, rfl⟩ ?_ rfl rfl, rfl⟩
  exact id

theorem inv_applyCancelResult {result : PmJournalCancelResultV1}
    (happ : s.applyCancelResult result provenance = .ok t) :
    KeepsCut records s t := by
  obtain ⟨order, next, hget, hcan, rfl⟩ := applyCancelResult_iff.mp happ
  have hkp := applyCancel_samePlacement hcan
  exact ⟨h.setSame hget hkp.toSameQuote hkp.terminal hkp.place hkp.pendingAckFills, rfl⟩

theorem inv_applyAuthenticatedResult {result : PmJournalAuthenticatedResultV1}
    (hval : result.validate scope = .ok ()) (happ : s.applyAuthenticatedResult result = .ok t) :
    KeepsCut records s t := by
  obtain ⟨-, -, applied, hcan, rfl⟩ := applyAuthenticatedResult_iff.mp happ
  suffices hkept : KeepsCut records s applied from
    ⟨hkept.inv.frame applied.recordCount applied.lastSequence applied.safetyHalt
      applied.fillWatermark _, hkept.cut⟩
  cases result with
  | cancel => exact inv_applyCancelResult h hcan
  | place =>
    obtain ⟨placed, hpla, hbd⟩ := bind_eq_ok.mp hcan
    obtain ⟨_, hlegs, -⟩ := bind_eq_ok.mp hval
    obtain ⟨hinv, hcut⟩ := inv_applyPlaceResult h (legs_le_of_validate hlegs) hpla
    split_ifs at hbd
    · obtain ⟨hinv', hcut'⟩ := inv_bindAmbiguous hinv hbd
      exact ⟨hinv', hcut'.trans hcut⟩
    · cases hbd
      exact ⟨hinv, hcut⟩

theorem inv_applyFill {applied : PmJournalFillAppliedV1} (happ : s.applyFill applied = .ok t) :
    KeepsCut (records ++ [.fillApplied applied]) s t := by
  obtain ⟨hnew, hlast, order, filled, hget, hfill, hor⟩ := applyFill_iff.mp happ
  have hfil := filledBy_of_applyFill hfill (h.order _ order hget).reported_le
  rcases hor with ⟨hmem, hcap, hne, rfl⟩ | ⟨hmem, hcap, rfl⟩
  · refine ⟨h.withFill hnew hlast hget hfil ?_ ?_, rfl⟩
    · have hlen := List.length_erase_of_mem hmem
      have hpos := List.length_pos_of_mem hmem
      rw [hfil.missing, hlen]
      omega
    · omega
  · refine ⟨h.withFill hnew hlast hget hfil ?_ ?_, rfl⟩
    · rw [hfil.missing, List.erase_of_not_mem hmem]
    · omega

theorem inv_applyTerminal {terminal : PmJournalOrderTerminalV1}
    (happ : s.applyTerminal terminal = .ok t) :
    KeepsCut (records ++ [.orderTerminal terminal]) s t := by
  obtain ⟨hlast, order, next, hget, hterm, rfl⟩ := applyTerminal_iff.mp happ
  obtain ⟨-, -, -, -, -, -, rfl⟩ := RecoveredOwnedOrder.applyTerminal_iff.mp hterm
  refine ⟨?_, rfl⟩
  have hset : Inv records (s.setOrder terminal.clientOrder { order with
      terminal := some terminal.status
      cancelPending := false
      cancelUnknown := false }) := by
    refine h.setSame hget ⟨rfl, rfl, rfl, rfl, rfl, rfl⟩ ?_ rfl rfl
    exact nofun
  exact hset.observeTerminal (by rw [Holds, getElem?_setOrder, if_pos rfl]) hlast

end

variable [JournalDigest]

/-- **An accepted record** keeps the invariant and does not lower the cut. -/
theorem inv_applyRecord (h : Inv records s) (hlen : records.length < 2 ^ 64)
    {record : PmJournalRecordV1} (happ : s.applyRecord record (sequenceAt records.length) = .ok t) :
    Inv (records ++ [record]) t ∧ s.compactedIntentId ≤ t.compactedIntentId := by
  obtain ⟨_, hval, happ⟩ := bind_eq_ok.mp happ
  rw [Outcome.wrapError_eq_ok] at hval
  have hle (h : t.compactedIntentId = s.compactedIntentId) :
      s.compactedIntentId ≤ t.compactedIntentId := h ▸ UInt64.le_refl _
  split_ifs at happ with hfst
  · cases record with
    | header =>
      obtain ⟨-, -, hcha⟩ := bind_eq_ok.mp happ
      cases hcha
      exact ⟨h.append, hle rfl⟩
    | _ => cases happ
  · cases record with
    | header => cases happ
    | quoteIntent =>
      refine ⟨h.intent hlen happ, hle ?_⟩
      obtain ⟨-, -, -, -, rfl⟩ := applyQuoteIntent_iff.mp happ
      rfl
    | placeResult =>
      have hkept := inv_applyPlaceResult h (legs_le_of_validate hval) happ
      exact ⟨hkept.inv.append, hle hkept.cut⟩
    | cancelIntent =>
      have hkept := inv_applyCancelIntent h happ
      exact ⟨hkept.inv.append, hle hkept.cut⟩
    | cancelResult =>
      have hkept := inv_applyCancelResult h happ
      exact ⟨hkept.inv.append, hle hkept.cut⟩
    | fillApplied =>
      obtain ⟨hinv, hcut⟩ := inv_applyFill h happ
      exact ⟨hinv, hle hcut⟩
    | orderTerminal =>
      obtain ⟨hinv, hcut⟩ := inv_applyTerminal h happ
      exact ⟨hinv, hle hcut⟩
    | safetyHalt halt =>
      cases happ
      exact ⟨(h.frame _ _ (some halt.reason) _ _).append, hle rfl⟩
    | fillWatermarkAdvanced watermark =>
      obtain ⟨-, rfl⟩ := applyFillWatermark_iff.mp happ
      obtain ⟨hinv, hcut⟩ := (h.frame s.recordCount s.lastSequence
        s.safetyHalt (some watermark.cursor)
        s.authenticatedResults).compactProvenTerminalOrders
      exact ⟨hinv.append, hcut⟩
    | authenticatedResult =>
      have hkept := inv_applyAuthenticatedResult h hval happ
      exact ⟨hkept.inv.append, hle hkept.cut⟩

/-- The invariant holds after every sequence of accepted records. -/
theorem inv_of_replayed (h : Replayed scope records s) : Inv records s := by
  refine h.invariant (inv_empty scope) fun records record s t hinv hlen hnext => ?_
  obtain ⟨applied, happ, hcou⟩ := bind_eq_ok.mp hnext
  cases hcou
  exact (inv_applyRecord hinv hlen happ).1.frame ..

end

/-! ### No abort -/

section

open Outcome

variable {records : List PmJournalRecordV1} {s : PmJournalRecovery}

@[simp] theorem findOrder_ne_panic : s.findOrder client ≠ .panic :=
  okOr_ne_panic

theorem applyPlaceResult_ne_panic (result : PmJournalPlaceResultV1)
    (provenance : ResultProvenance) : s.applyPlaceResult result provenance ≠ .panic := by
  unfold applyPlaceResult
  cases result.outcome.bindsVenue with
  | true =>
    refine bind_ne_panic refuse_ne_panic fun _ _ => bind_ne_panic refuse_ne_panic fun _ hcap => ?_
    -- the missing fills fit under the cap of the fill keys
    have hlt : s.pendingAckFillKeys + result.immediateFills.keys.length < 2 ^ 64 := by
      have hle := ensureFillKeyCapacity_eq_ok.mp hcap
      unfold maxPmJournalFillKeys at hle
      omega
    refine bind_ne_panic findOrder_ne_panic fun order _ => ?_
    exact bind_ne_panic ofExcept_ne_panic fun placed _ =>
      ne_panic_of_ok (addPending_eq_ok.mpr ⟨hlt, rfl⟩)
  | false => simp [bind_eq_panic]

theorem applyFill_ne_panic (h : Inv records s) (applied : PmJournalFillAppliedV1) :
    s.applyFill applied ≠ .panic := by
  refine bind_ne_panic refuse_ne_panic fun _ _ => bind_ne_panic refuse_ne_panic fun _ _ => ?_
  refine bind_ne_panic findOrder_ne_panic fun order hget => ?_
  refine bind_ne_panic refuse_ne_panic fun _ _ => bind_ne_panic ofExcept_ne_panic fun filled _ => ?_
  refine bind_ne_panic ?_ fun _ _ => nofun
  by_cases hres : applied.fill.key ∈ order.pendingAckFills
  · rw [decide_eq_true hres]
    -- a fill that an acknowledgement announced is counted among the missing ones
    have hsum := weigh_erase_of_some (findOrder_eq_ok.mp hget)
      fun _ order => order.pendingAckFills.length
    have hpos := List.length_pos_of_mem hres
    have hne : s.pendingAckFillKeys ≠ 0 := by
      rw [h.indexed.pending]
      omega
    exact ne_panic_of_ok (resolvePending_true.mpr ⟨hne, rfl⟩)
  · rw [decide_eq_false hres]
    nofun

variable (result : PmJournalAuthenticatedResultV1)

theorem applyCanonical_ne_panic : s.applyCanonical result ≠ .panic := by
  cases result with
  | place =>
    refine bind_ne_panic (applyPlaceResult_ne_panic _ _) fun placed _ => ?_
    split_ifs <;> simp [bindAuthenticatedAmbiguousVenue, bind_eq_panic]
  | cancel => simp [applyCanonical, applyCancelResult, bind_eq_panic]

/-- Where the invariant holds, no record makes `apply_record` abort. -/
theorem applyRecord_ne_panic [JournalDigest] (h : Inv records s)
    (record : PmJournalRecordV1) (sequence : UInt64) :
    s.applyRecord record sequence ≠ .panic := by
  refine bind_ne_panic wrapError_ne_panic fun _ _ => ?_
  split_ifs
  · cases record <;> simp [bind_eq_panic]
  cases record with
  | placeResult result => exact applyPlaceResult_ne_panic result .ordinary
  | fillApplied applied => exact applyFill_ne_panic h applied
  | authenticatedResult result =>
    cases result <;>
      simp [applyAuthenticatedResult, expectedPrior, bind_eq_panic, applyCanonical_ne_panic]
  | _ =>
    simp [applyQuoteIntent, applyCancelIntent, applyCancelResult, applyTerminal, checkOwnerSequence,
      applyFillWatermark, bind_eq_panic]

end

/-! ### What is read of a projection -/

section

variable {records : List PmJournalRecordV1} {s : PmJournalRecovery}

theorem mapM_isSome {α β : Type} {f : α → Option β} {xs : List α}
    (h : ∀ x ∈ xs, (f x).isSome = true) : (xs.mapM f).isSome = true := by
  induction xs with
  | nil => rfl
  | cons x _ ih =>
    obtain ⟨y, hy⟩ := Option.isSome_iff_exists.mp (h x (.head _))
    obtain ⟨ys, hys⟩ := Option.isSome_iff_exists.mp (ih fun x hx => h x (.tail _ hx))
    rw [List.mapM_cons, hy, hys]
    rfl

/-- The rows for the state's owner are there. -/
theorem Inv.recoveredOrders_isSome (h : Inv records s) : s.recoveredOrders.isSome = true := by
  refine mapM_isSome fun client hmem => ?_
  obtain ⟨intentId, hget⟩ := mem_valueList.mp hmem
  obtain ⟨order, hord, -⟩ := (h.indexed.orders intentId client).mp hget
  have hle := (h.order client order hord).missing_le
  unfold maxPmAcknowledgementFillLegs at hle
  rw [hord, Option.bind_some, bootstrapRow, if_pos (by omega)]
  rfl

theorem Inv.recoveredFills_isSome (h : Inv records s) : s.recoveredFills.isSome = true := by
  refine mapM_isSome fun key hmem => ?_
  obtain ⟨sequence, hget⟩ := mem_valueList.mp hmem
  obtain ⟨applied, hfill, -⟩ := (h.indexed.fills sequence key).mp hget
  rw [hfill]
  rfl

variable [JournalDigest]

/-- The lines that recovery reads are a sequence of accepted records. -/
theorem replayed_of_recoverFrom {scope : PmJournalScopeV1} {lines : List PmJournalLineV1}
    {final : PmJournalRecovery} (h : recoverFrom (.empty scope) 0 lines = .ok final) :
    Replayed scope (lines.map (·.record)) final :=
  accepted_of_readLines nextSequence_eq_ok .start (Nat.two_pow_pos 64) h

end

/-! ### The projection -/

/-- **What the projection promises** after every sequence of accepted records. Of one account,
instrument and side at most one order has no terminal status; the known fills of an order add up,
and are at most its cumulative fill, which is at most its quantity; the indexes and counters list
what is retained, under the cap, so that nothing aborts; and the cut of compacted intents grows, and
stays below every retained intent. -/
theorem projection_of_replayed [JournalDigest] {scope : PmJournalScopeV1}
    {records : List PmJournalRecordV1} {s : PmJournalRecovery} (h : Replayed scope records s) :
    s.OneOpenPerSlot ∧ s.FillsAddUp ∧ s.Indexed records ∧
      (∀ (record : PmJournalRecordV1) (sequence : UInt64), s.applyRecord record sequence ≠ .panic) ∧
      s.recoveredOrders.isSome = true ∧ s.recoveredFills.isSome = true ∧
      s.CutBelow ∧
      ∀ (record : PmJournalRecordV1) (t : PmJournalRecovery), records.length < 2 ^ 64 →
        s.applyRecord record (sequenceAt records.length) = .ok t →
        s.compactedIntentId ≤ t.compactedIntentId := by
  have hinv := inv_of_replayed h
  exact ⟨hinv.oneOpen, hinv.fillsAddUp, hinv.indexed, applyRecord_ne_panic hinv,
    hinv.recoveredOrders_isSome, hinv.recoveredFills_isSome, hinv.cut,
    fun _ _ hlen happ => (inv_applyRecord hinv hlen happ).2⟩

end PmJournalRecovery

/-! ### A sample journal -/

namespace JournalSample

/-- Digests that tell the sample's intents apart. -/
instance digest : JournalDigest where
  scope _ := ⟨7⟩
  clientOrder _ _ intentId := BitVec.ofNat 128 intentId.toNat

def accountScope : PmAccountScope := Samples.accountScope

def scope : PmJournalScopeV1 where
  product := "reap-pm"
  schemaFamily := pmMutationJournalFamily
  schemaVersion := pmMutationJournalVersion
  accountScope := accountScope
  configuredInstrument := ⟨Samples.condition, Samples.token⟩
  configurationFingerprint := ⟨7⟩
  authenticationEnabled := false
  productionAuthorized := false
  accountSignatureProfile := .eoaType0
  scopeFingerprint := ⟨7⟩

def first : PmClientOrderKey := ⟨⟨0⟩, .one⟩

def venue : PmVenueOrderKey := Samples.venue

def share : PmQuantity := Samples.share

/-- A buy of one share at half the collateral unit. -/
def intent (intentId : UInt64) (client : PmClientOrderKey) : PmJournalQuoteIntentV1 where
  intentId := intentId
  clientOrder := client
  instrument := scope.instrument
  side := .buy
  priceUnits := 500000
  quantity := share
  reservedCollateral := Samples.halfUnits
  reservedOutcome := U256.zero
  profile := scope.accountSignatureProfile.quoteProfile
  metadataRevision := 1
  bookRevision := 1
  modelRevision := 1
  bookReadinessRevision := 1
  privateReadinessRevision := 1
  expiresAtMonotonicNs := 1
  timestampMs := 1
  maker := accountScope.funder
  signer := accountScope.signer
  makerAmount := Samples.halfUnits
  takerAmount := share.protocolUnits

def accepted (client : PmClientOrderKey) (venue : PmVenueOrderKey) : PmJournalPlaceResultV1 :=
  ⟨client, .acceptedResting, none, some venue, ⟨[]⟩⟩

/-- The whole order is filled. -/
def filled : PmJournalFillAppliedV1 where
  fill := {
    key := ⟨venue, Samples.legOne⟩
    clientOrder := first
    instrument := scope.instrument
    side := .buy
    priceUnits := 500000
    role := .maker
    settlement := .confirmed
    fee := .unknown
    delta := share
    authoritativeCumulative := none
    cumulative := share.protocolUnits
    remaining := U256.zero }
  source := .privateWebsocket
  occurrence := ⟨⟨3⟩, some Samples.connection, some ⟨1⟩, some ⟨3⟩, none, 3⟩
  delivery := .live

def line (sequence : UInt64) (record : PmJournalRecordV1) : PmJournalLineV1 :=
  ⟨scope.schemaVersion, scope.fingerprint, sequence, record⟩

/-- An order is placed and filled. -/
def lines : List PmJournalLineV1 :=
  [line 0 (.header scope), line 1 (.quoteIntent (intent 1 first)),
    line 2 (.placeResult (accepted first venue)), line 3 (.fillApplied filled)]

end JournalSample

open JournalSample

/-- The order is recovered as filled, with its fill. -/
theorem projection_of_sample : ∃ s, Replayed scope (lines.map (·.record)) s ∧
    (s.ownedOrders[first]?.map (·.cumulative) = some share.protocolUnits ∧
      s.fillKeys[filled.fill.key]? = some filled) ∧
    s.OneOpenPerSlot ∧ s.FillsAddUp ∧
    s.Indexed (lines.map (·.record)) ∧ s.CutBelow := by
  have hrun : (recoverFrom (.empty scope) 0 lines).okWith (fun s =>
      s.ownedOrders[first]?.map (·.cumulative) = some share.protocolUnits ∧
        s.fillKeys[filled.fill.key]? = some filled) = true := by
    decide +kernel
  obtain ⟨s, hrec, hret⟩ := okWith_eq_true.mp hrun
  have hrep : Replayed scope (lines.map (·.record)) s :=
    PmJournalRecovery.replayed_of_recoverFrom hrec
  obtain ⟨hopen, hfil, hind, -, -, -, hcut, -⟩ := PmJournalRecovery.projection_of_replayed hrep
  exact ⟨s, hrep, of_decide_eq_true hret, hopen, hfil, hind, hcut⟩

end Reap.Journal
