import Reap.Journal.Spec

/-!
# What holds of every recovered projection

A journal is a sequence of records that recovery accepted one after the other. The orders, fills and
observations of the projection are spread over six maps and two counters that are kept consistent
by hand; this module shows that they are, after every record.

Compaction forgets an order, and a later intent may have the same client order again. So what is
retained is said with the positions of the records: an observation is retained if its order is, and
if its record comes after the intent of that order.

## What is proved

One lemma for each way a record changes the projection:

* `Inv.intent` — an order is added.
* `Inv.setOrder` — an order changes, but not its quote and fills.
* `Inv.observeTerminal` — a terminal status is observed.
* `Inv.withFill` — an order is filled.

The removal of orders and the runs are in `Reap.Journal.Replay`.
-/

namespace Reap.Journal

open Base Reap.Core PmJournalRecoveredObservationV1

theorem toNat_max (a b : UInt64) : (max a b).toNat = max a.toNat b.toNat := by
  show (if a ≤ b then b else a).toNat = _
  split_ifs with h
  · exact (max_eq_right (UInt64.le_iff_toNat_le.mp h)).symm
  · exact (max_eq_left (UInt64.lt_iff_toNat_lt.mp (UInt64.not_le.mp h)).le).symm

namespace PmJournalRecovery

open RecoveredOwnedOrder OrderedMap

/-! ### The parts of the invariant -/

section

variable (s : PmJournalRecovery)

/-- Every account, instrument and side has at most one order without a terminal status. -/
def OneOpenPerSlot : Prop :=
  ∀ (first second : PmClientOrderKey) (a b : RecoveredOwnedOrder),
    s.Holds first a → s.Holds second b →
    sameSlot a.intent b.intent = true → a.terminal = none → b.terminal = none → first = second

/-- The sum of the retained fills of a client order. -/
def filledOf (client : PmClientOrderKey) : ℕ :=
  weigh (fun _ applied => if applied.fill.clientOrder = client
    then applied.fill.delta.protocolUnits.value else 0) s.fillKeys

/-- What is known to be filled of an order is the sum of its retained fills, and in bounds. -/
def FillsAddUp : Prop :=
  ∀ client order, s.Holds client order → order.knownFillTotal.value = s.filledOf client ∧
      order.knownFillTotal ≤ order.cumulative ∧ order.cumulative ≤ order.original

/-- The observation was accepted after the intent of an order that is retained. -/
def Retained (records : List PmJournalRecordV1) (s : PmJournalRecovery)
    (o : PmJournalRecoveredObservationV1) : Prop :=
  ∃ (position : ℕ) (order : RecoveredOwnedOrder), records[position]? = some o.record ∧
    s.Holds o.clientOrder order ∧
    order.intentJournalSequence.toNat < position

/-- The indexes list exactly what is retained, the counter of missing fills is their number, and
there is room for them. -/
structure Indexed (records : List PmJournalRecordV1) (s : PmJournalRecovery) : Prop where
  orders : ∀ (intentId : UInt64) (client : PmClientOrderKey),
    s.orderOrder[intentId]? = some client ↔ ∃ order : RecoveredOwnedOrder,
      s.Holds client order ∧ order.intent.intentId = intentId
  fillKeys : ∀ (key : PmFillKey) (applied : PmJournalFillAppliedV1),
    s.fillKeys[key]? = some applied ↔
      applied.fill.key = key ∧ s.Retained records (.fillApplied applied)
  fills : ∀ (sequence : UInt64) (key : PmFillKey),
    s.fillOrder[sequence]? = some key ↔ ∃ applied : PmJournalFillAppliedV1,
      s.fillKeys[key]? = some applied ∧ applied.occurrence.ownerSequence.value = sequence
  observations : ∀ (sequence : UInt64) (o : PmJournalRecoveredObservationV1),
    s.observationOrder[sequence]? = some o ↔
      o.ownerSequence = sequence ∧ s.Retained records o
  pending : s.pendingAckFillKeys =
    weigh (fun _ order => order.pendingAckFills.length) s.ownedOrders
  room : s.fillKeys.size + s.pendingAckFillKeys ≤ maxPmJournalFillKeys

/-- The cut of compacted intents is below every retained intent. -/
def CutBelow : Prop :=
  s.compactedIntentId ≤ s.lastIntentId ∧ ∀ client order, s.Holds client order →
      s.compactedIntentId < order.intent.intentId

/-- What holds of one retained order. -/
structure OrderInv (records : List PmJournalRecordV1) (s : PmJournalRecovery)
    (client : PmClientOrderKey) (order : RecoveredOwnedOrder) : Prop where
  client : order.intent.clientOrder = client
  intent_le : order.intent.intentId ≤ s.lastIntentId
  recorded : records[order.intentJournalSequence.toNat]? = some (.quoteIntent order.intent)
  reported_le : ∀ cumulative ∈ order.authoritativeCumulative, cumulative ≤ order.original
  cumulative_eq : order.cumulative =
    maxUnits order.knownFillTotal (order.authoritativeCumulative.getD U256.zero)
  missing_bound : order.place ≠ .bound → order.pendingAckFills = []
  missing_le : order.pendingAckFills.length ≤ maxPmAcknowledgementFillLegs

/-- What holds after every sequence of accepted records. -/
structure Inv (records : List PmJournalRecordV1) (s : PmJournalRecovery) : Prop where
  oneOpen : s.OneOpenPerSlot
  fillsAddUp : s.FillsAddUp
  indexed : s.Indexed records
  cut : s.CutBelow
  order : ∀ client order, s.Holds client order → s.OrderInv records client order
  observed_le : ∀ (sequence : UInt64) (o : PmJournalRecoveredObservationV1),
    s.observationOrder[sequence]? = some o →
    sequence ≤ s.lastOwnedObservationSequence

end

/-! ### The start, and what is left alone -/

theorem inv_empty (scope : PmJournalScopeV1) : Inv [] (.empty scope) := by
  have hnone : ∀ o, ¬ (empty scope).Retained [] o := by
    rintro o ⟨position, -, h, -⟩
    cases h
  refine ⟨fun _ _ _ _ h => ?_, fun _ _ h => ?_, ⟨?_, ?_, ?_, ?_, rfl, Nat.zero_le _⟩,
    ⟨UInt64.le_refl _, fun _ _ h => ?_⟩, fun _ _ h => ?_, fun sequence _ h => ?_⟩
  · cases h
  · cases h
  · intro intentId client
    simp [empty]
  · intro key applied
    exact ⟨fun h => (by simp [empty] at h), fun h => absurd h.2 (hnone _)⟩
  · intro sequence key
    simp [empty]
  · intro sequence o
    exact ⟨fun h => (by simp [empty] at h), fun h => absurd h.2 (hnone _)⟩
  · cases h
  · cases h
  · simp [empty] at h

variable {records : List PmJournalRecordV1} {s : PmJournalRecovery}
  {client : PmClientOrderKey} {order : RecoveredOwnedOrder}

/-- The counters of the lines, halts, cursors and authenticated results do not matter. -/
theorem Inv.frame (h : Inv records s) (count : ℕ) (sequence : UInt64)
    (halt : Option PmJournalSafetyReasonV1) (watermark : Option PmJournalFillCursorV1)
    (results : OrderedMap UInt64 PmJournalAuthenticatedResultV1) : Inv records { s with
      recordCount := count
      lastSequence := sequence
      safetyHalt := halt
      fillWatermark := watermark
      authenticatedResults := results } where
  __ := h
  indexed := { h.indexed with }
  order := fun client order hget =>
    have hord := h.order client order hget
    { hord with }

variable {record : PmJournalRecordV1} {applied : PmJournalFillAppliedV1}
  {filled : RecoveredOwnedOrder}

/-- A record that is no observation retains no observation. -/
theorem retained_append
    (hrec : ∀ o : PmJournalRecoveredObservationV1, o.record ≠ record)
    {o : PmJournalRecoveredObservationV1} :
    s.Retained (records ++ [record]) o ↔ s.Retained records o := by
  constructor
  · rintro ⟨position, order, hat, hget, hlt⟩
    rcases getElem?_append_single.mp hat with hat | ⟨-, he⟩
    · exact ⟨position, order, hat, hget, hlt⟩
    · exact absurd he (hrec o)
  · rintro ⟨position, order, hat, hget, hlt⟩
    exact ⟨position, order, getElem?_append_single.mpr (.inl hat), hget, hlt⟩

/-- A record that is no observation and changes nothing. -/
theorem Inv.append (h : Inv records s)
    (hrec : ∀ o : PmJournalRecoveredObservationV1, o.record ≠ record := by
      rintro (_ | _) <;> rintro ⟨⟩) : Inv (records ++ [record]) s where
  __ := h
  indexed := { h.indexed with
    fillKeys := fun key applied => by rw [h.indexed.fillKeys, retained_append hrec]
    observations := fun sequence o => by
      rw [h.indexed.observations, retained_append hrec] }
  order := fun client order hget =>
    have hord := h.order client order hget
    { hord with recorded := getElem?_append_single.mpr (.inl hord.recorded) }

/-! ### A change of one order -/

theorem getElem?_setOrder (s : PmJournalRecovery) (client other : PmClientOrderKey)
    (order : RecoveredOwnedOrder) : (s.setOrder client order).ownedOrders[other]? =
      if client = other then some order else s.ownedOrders[other]? :=
  getElem?_insert_eq s.ownedOrders client other order

/-- One order is replaced, or inserted. -/
def Puts (s t : PmJournalRecovery) (client : PmClientOrderKey)
    (next : RecoveredOwnedOrder) : Prop :=
  ∀ other : PmClientOrderKey,
    t.ownedOrders[other]? = if client = other then some next else s.ownedOrders[other]?

theorem puts_setOrder (s : PmJournalRecovery) (client : PmClientOrderKey)
    (next : RecoveredOwnedOrder) : s.Puts (s.setOrder client next) client next :=
  fun other => getElem?_setOrder s client other next

section Puts

variable {t : PmJournalRecovery} {next : RecoveredOwnedOrder} (hputs : s.Puts t client next)

include hputs

/-- What holds of the order that is put and of all orders before holds of all orders after. -/
theorem Puts.forall {P : PmClientOrderKey → RecoveredOwnedOrder → Prop} (hnext : P client next)
    (h : ∀ other order, s.Holds other order → P other order)
    (other : PmClientOrderKey) (order : RecoveredOwnedOrder)
    (hget : t.Holds other order) : P other order := by
  rw [Holds, hputs other] at hget
  split_ifs at hget with he
  · cases hget
    exact he ▸ hnext
  · exact h other order hget

section

variable (hget : s.Holds client order)

include hget

/-- A retained order that keeps its intent keeps its observations. -/
theorem Puts.retained_iff (hseq : next.intentJournalSequence = order.intentJournalSequence)
    (o : PmJournalRecoveredObservationV1) :
    t.Retained records o ↔ s.Retained records o := by
  simp only [Retained, Holds, hputs o.clientOrder]
  by_cases hcl : client = o.clientOrder
  · subst hcl
    simp [hget, hseq]
  · simp [hcl]

theorem Puts.intent_iff (hint : next.intent = order.intent) (other : PmClientOrderKey)
    (intentId : UInt64) : (∃ order, s.Holds other order ∧ order.intent.intentId = intentId) ↔
      ∃ order, t.Holds other order ∧ order.intent.intentId = intentId := by
  simp only [Holds, hputs other]
  by_cases he : client = other
  · subst he
    simp [hget, hint]
  · simp [he]

/-- An order changes, but not its intent, and its terminal status is not taken back. -/
theorem Puts.oneOpenPerSlot (hint : next.intent = order.intent)
    (hterm : next.terminal = none → order.terminal = none) (h : s.OneOpenPerSlot) :
    t.OneOpenPerSlot := by
  -- an order that is open now was open before
  have hpr := hputs.forall (P := fun other a => ∃ a', s.Holds other a' ∧
      a.intent = a'.intent ∧ (a.terminal = none → a'.terminal = none))
    ⟨order, hget, hint, hterm⟩ fun _ a ha => ⟨a, ha, rfl, id⟩
  intro first second a b ha hb hslot hna hnb
  obtain ⟨a', ha', hia, hta⟩ := hpr first a ha
  obtain ⟨b', hb', hib, htb⟩ := hpr second b hb
  rw [hia, hib] at hslot
  exact h first second a' b' ha' hb' hslot (hta hna) (htb hnb)

end

end Puts

/-- **One order changes**, but not its quote and fills, and no terminal status is taken back. -/
theorem Inv.setOrder (h : Inv records s) {next : RecoveredOwnedOrder} (pending : ℕ)
    (hget : s.Holds client order) (hsame : order.SameQuote next)
    (hterm : next.terminal = none → order.terminal = none)
    (hbd : next.place ≠ .bound → next.pendingAckFills = [])
    (hle : next.pendingAckFills.length ≤ maxPmAcknowledgementFillLegs)
    (hpend : pending + order.pendingAckFills.length =
      s.pendingAckFillKeys + next.pendingAckFills.length)
    (hroom : s.fillKeys.size + pending ≤ maxPmJournalFillKeys) :
    Inv records { s.setOrder client next with pendingAckFillKeys := pending } := by
  have hputs : s.Puts { s.setOrder client next with
    pendingAckFillKeys := pending } client next := puts_setOrder s client next
  have hret : ∀ o, _ ↔ s.Retained records o :=
    hputs.retained_iff hget hsame.sequence
  have hord := h.order client order hget
  refine ⟨hputs.oneOpenPerSlot hget hsame.intent hterm h.oneOpen, hputs.forall ?_ h.fillsAddUp,
    ⟨fun intentId other => (h.indexed.orders intentId other).trans
      (hputs.intent_iff hget hsame.intent other intentId), fun key applied => ?_, h.indexed.fills,
      fun sequence o => ?_, ?_, hroom⟩,
    ⟨h.cut.1, hputs.forall ?_ h.cut.2⟩,
    hputs.forall ?_ fun other found hoth => { h.order other found hoth with },
    h.observed_le⟩
  · rw [hsame.known, hsame.cumulative, hsame.original]
    exact h.fillsAddUp client order hget
  · rw [hret]
    exact h.indexed.fillKeys key applied
  · rw [hret]
    exact h.indexed.observations sequence o
  · have hwei := weigh_insert_of_some hget (fun _ order => order.pendingAckFills.length) next
    have hsum := h.indexed.pending
    show pending = weigh _ (s.ownedOrders.insert client next)
    omega
  · rw [hsame.intent]
    exact h.cut.2 client order hget
  · refine ⟨?_, ?_, ?_, ?_, ?_, hbd, hle⟩
    · rw [hsame.intent]
      exact hord.client
    · rw [hsame.intent]
      exact hord.intent_le
    · rw [hsame.sequence, hsame.intent]
      exact hord.recorded
    · rw [hsame.authoritative, hsame.original]
      exact hord.reported_le
    · rw [hsame.cumulative, hsame.known, hsame.authoritative]
      exact hord.cumulative_eq

/-! ### A new order -/

theorem sameSlot_comm (a b : PmJournalQuoteIntentV1) : sameSlot a b = sameSlot b a := by
  unfold sameSlot
  rw [BEq.comm (a := a.clientOrder.account), BEq.comm (a := a.instrument), BEq.comm (a := a.side)]

/-- **An intent** inserts an order without observations. -/
theorem Inv.intent {next : PmJournalRecovery} (h : Inv records s)
    (hlen : records.length < 2 ^ 64) {intent : PmJournalQuoteIntentV1}
    (hacc : s.applyQuoteIntent intent (sequenceAt records.length) = .ok next) :
    Inv (records ++ [.quoteIntent intent]) next := by
  obtain ⟨hlast, hnew, hfree, -, rfl⟩ := applyQuoteIntent_iff.mp hacc
  set sequence := sequenceAt records.length with hseq
  have hat : sequence.toNat = records.length := toNat_sequenceAt hlen
  have hreco : ∀ o : PmJournalRecoveredObservationV1,
      o.record ≠ .quoteIntent intent := by
    rintro (_ | _) <;> nofun
  have hloo := fun other =>
    getElem?_setOrder s intent.clientOrder other (.ofIntent intent sequence)
  -- the new order has no observations: its intent is the last record
  have hret : ∀ o, Retained (records ++ [.quoteIntent intent])
      { s.setOrder intent.clientOrder (.ofIntent intent sequence) with
        orderOrder := s.orderOrder.insert intent.intentId intent.clientOrder
        lastIntentId := intent.intentId } o ↔
      s.Retained records o := by
    intro o
    rw [retained_append hreco]
    unfold Retained Holds
    by_cases hcl : intent.clientOrder = o.clientOrder
    · constructor
      · rintro ⟨position, order, hrec, hget, hlt⟩
        rw [hloo, if_pos hcl] at hget
        cases hget
        have hbd := (List.getElem?_eq_some_iff.mp hrec).1
        simp only [ofIntent, hat] at hlt
        omega
      · rintro ⟨position, order, -, hget, -⟩
        rw [← hcl, hnew] at hget
        cases hget
    · simp [hloo, if_neg hcl]
  refine ⟨fun first second a b ha hb hslot hna hnb => ?_, Puts.forall hloo ?_ h.fillsAddUp,
    ⟨fun intentId other => ?_, fun key applied => ?_, h.indexed.fills, fun sequence o => ?_,
      ?_, h.indexed.room⟩,
    ⟨?_, Puts.forall hloo (UInt64.lt_of_le_of_lt h.cut.1 hlast) h.cut.2⟩,
    Puts.forall hloo ?_ fun other found hoth => ?_, h.observed_le⟩
  · refine eq_of_put (R := fun a b => sameSlot a.intent b.intent = true ∧ a.terminal = none ∧
      b.terminal = none) hloo ?_ ?_ ?_ ha hb ⟨hslot, hna, hnb⟩
    · rintro other b hb ⟨hslot, -, hnb⟩
      have hocc := hfree other b hb ((sameSlot_comm _ _).trans hslot)
      simp [occupiesQuoteSlot, hnb] at hocc
    · rintro other a ha ⟨hslot, hna, -⟩
      have hocc := hfree other a ha hslot
      simp [occupiesQuoteSlot, hna] at hocc
    · exact fun i j a b ha hb hopen => h.oneOpen i j a b ha hb hopen.1 hopen.2.1 hopen.2.2
  · refine ⟨?_, le_refl _, Nat.zero_le _⟩
    -- no retained fill names a client that is not retained
    refine (Eq.trans (weigh_congr (g := fun _ _ => 0) fun key applied hget => ?_) ?_).symm
    · obtain ⟨-, -, order, -, hord, -⟩ := (h.indexed.fillKeys key applied).mp hget
      refine if_neg fun hcl => ?_
      rw [show clientOrder (.fillApplied applied) =
        applied.fill.clientOrder from rfl, hcl, Holds, hnew] at hord
      cases hord
    · simp [weigh, ofIntent]
  · show (s.orderOrder.insert intent.intentId intent.clientOrder)[intentId]? = some other ↔ _
    rw [getElem?_insert_eq]
    simp only [Holds, hloo]
    by_cases he : intent.clientOrder = other
    · subst he
      by_cases hid : intent.intentId = intentId
      · simp [hid, ofIntent]
      · have hnot : ¬ s.orderOrder[intentId]? = some intent.clientOrder := by
          rw [h.indexed.orders]
          rintro ⟨order, hget, -⟩
          rw [Holds, hnew] at hget
          cases hget
        simp [hid, hnot, ofIntent]
    · simp only [if_neg he]
      by_cases hid : intent.intentId = intentId
      · -- every retained intent is at most the last one
        simp only [if_pos hid, Option.some.injEq, he, false_iff]
        rintro ⟨order, hget, hint⟩
        have hle := (h.order other order hget).intent_le
        rw [hint, ← hid] at hle
        exact absurd hle (UInt64.not_le.mpr hlast)
      · rw [if_neg hid]
        exact h.indexed.orders intentId other
  · rw [hret]
    exact h.indexed.fillKeys key applied
  · rw [hret]
    exact h.indexed.observations sequence o
  · have hwei : weigh (fun _ order => order.pendingAckFills.length)
          (s.ownedOrders.insert intent.clientOrder (.ofIntent intent sequence)) =
        0 + weigh (fun _ order => order.pendingAckFills.length) s.ownedOrders :=
      weigh_insert_of_none hnew _ _
    exact h.indexed.pending.trans (hwei.trans (Nat.zero_add _)).symm
  · exact UInt64.le_of_lt (UInt64.lt_of_le_of_lt h.cut.1 hlast)
  · refine ⟨rfl, UInt64.le_refl _, ?_, nofun, rfl, fun _ => rfl, Nat.zero_le _⟩
    exact getElem?_append_single.mpr (.inr ⟨hat, rfl⟩)
  · have hpr := h.order other found hoth
    exact { hpr with
      intent_le := UInt64.le_of_lt (UInt64.lt_of_le_of_lt hpr.intent_le hlast)
      recorded := getElem?_append_single.mpr (.inl hpr.recorded) }

/-! ### Observations -/

theorem record_inj {a b : PmJournalRecoveredObservationV1} (h : a.record = b.record) : a = b := by
  cases a <;> cases b <;> cases h <;> rfl

/-- What is retained after the record of an observation of a retained order. -/
theorem retained_observe (s t : PmJournalRecovery) (o : PmJournalRecoveredObservationV1)
    (hget : t.Holds o.clientOrder order)
    (hlt : order.intentJournalSequence.toNat < records.length)
    (hsame : ∀ other, t.Retained records other ↔ s.Retained records other)
    (other : PmJournalRecoveredObservationV1) :
    t.Retained (records ++ [o.record]) other ↔
      s.Retained records other ∨ other = o := by
  rw [← hsame]
  constructor
  · rintro ⟨position, prior, hat, hpr, hpos⟩
    rcases getElem?_append_single.mp hat with hat | ⟨-, he⟩
    · exact .inl ⟨position, prior, hat, hpr, hpos⟩
    · exact .inr (record_inj he)
  · rintro (⟨position, prior, hat, hpr, hpos⟩ | rfl)
    · exact ⟨position, prior, getElem?_append_single.mpr (.inl hat), hpr, hpos⟩
    · exact ⟨records.length, order, getElem?_append_single.mpr (.inr ⟨rfl, rfl⟩), hget, hlt⟩

section

variable (h : Inv records s)

include h

variable (o : PmJournalRecoveredObservationV1)

section

variable (hlast : s.lastOwnedObservationSequence < o.ownerSequence)
  (sequence : UInt64) (other : PmJournalRecoveredObservationV1)

include hlast

/-- The observation enters the order of the owner after all others. -/
theorem Inv.observations_insert :
    (s.observationOrder.insert o.ownerSequence o)[sequence]? =
        some other ↔
      other.ownerSequence = sequence ∧ (s.Retained records other ∨ other = o) := by
  rw [getElem?_insert_eq]
  split_ifs with he
  · subst he
    constructor
    · rintro hsome
      cases hsome
      exact ⟨rfl, .inr rfl⟩
    · rintro ⟨hseq, hret | rfl⟩
      · have hle := h.observed_le _ other
          ((h.indexed.observations other.ownerSequence other).mpr ⟨rfl, hret⟩)
        rw [hseq] at hle
        exact absurd hle (UInt64.not_le.mpr hlast)
      · rfl
  · rw [h.indexed.observations]
    refine and_congr_right fun hseq => ⟨.inl, fun hor => hor.resolve_right ?_⟩
    rintro rfl
    exact he hseq

theorem Inv.observed_le_insert
    (hget : (s.observationOrder.insert o.ownerSequence o)[sequence]? =
      some other)
    : sequence ≤ o.ownerSequence := by
  rw [getElem?_insert_eq] at hget
  split_ifs at hget with he
  · exact he ▸ UInt64.le_refl _
  · exact UInt64.le_of_lt (UInt64.lt_of_le_of_lt (h.observed_le sequence other hget) hlast)

end

theorem Inv.recorded_lt (hget : s.Holds client order) :
    order.intentJournalSequence.toNat < records.length :=
  (List.getElem?_eq_some_iff.mp (h.order client order hget).recorded).1

/-- **A terminal observation** of a retained order is listed. -/
theorem Inv.observeTerminal {terminal : PmJournalOrderTerminalV1}
    (hget : s.Holds terminal.clientOrder order)
    (hlast : s.lastOwnedObservationSequence < terminal.occurrence.ownerSequence.value) :
    Inv (records ++ [.orderTerminal terminal]) (s.observe (.orderTerminal terminal)) := by
  have hret := retained_observe s (s.observe (.orderTerminal terminal))
    (.orderTerminal terminal) hget (h.recorded_lt hget) fun _ => Iff.rfl
  refine ⟨h.oneOpen, h.fillsAddUp, ⟨h.indexed.orders, fun key applied => ?_, h.indexed.fills,
    fun sequence o => ?_, h.indexed.pending, h.indexed.room⟩, h.cut,
    fun client order hget => ?_,
    h.observed_le_insert (.orderTerminal terminal) hlast⟩
  · rw [show PmJournalRecordV1.orderTerminal terminal =
      record (.orderTerminal terminal) from rfl, hret]
    refine (h.indexed.fillKeys key applied).trans (and_congr_right fun _ => ⟨.inl, fun hor => ?_⟩)
    exact hor.resolve_right nofun
  · rw [show PmJournalRecordV1.orderTerminal terminal =
      record (.orderTerminal terminal) from rfl, hret]
    exact h.observations_insert (.orderTerminal terminal) hlast sequence o
  · have hord := h.order client order hget
    exact { hord with recorded := getElem?_append_single.mpr (.inl hord.recorded) }

end

/-! ### Fills -/

/-- What a fill leaves of its order. -/
structure FilledBy (order filled : RecoveredOwnedOrder) (applied : PmJournalFillAppliedV1) :
    Prop where
  intent : filled.intent = order.intent
  sequence : filled.intentJournalSequence = order.intentJournalSequence
  known : filled.knownFillTotal.value =
    order.knownFillTotal.value + applied.fill.delta.protocolUnits.value
  known_le : filled.knownFillTotal ≤ order.original
  reported_le : ∀ cumulative ∈ filled.authoritativeCumulative, cumulative ≤ order.original
  cumulative_eq : filled.cumulative =
    maxUnits filled.knownFillTotal (filled.authoritativeCumulative.getD U256.zero)
  place : filled.place = .bound
  terminal : filled.terminal = none → order.terminal = none
  missing : filled.pendingAckFills = order.pendingAckFills.erase applied.fill.key

theorem filledBy_of_applyFill (h : order.applyFill applied = .ok filled)
    (hle : ∀ cumulative ∈ order.authoritativeCumulative, cumulative ≤ order.original) :
    FilledBy order filled applied := by
  obtain ⟨href, known, authoritative, occurrence, hkn, hkno, hnext, -, -, rfl⟩ :=
    RecoveredOwnedOrder.applyFill_iff.mp h
  have hbd : order.place = .bound := by
    by_contra hne
    exact href (.inl hne)
  constructor
  · simp
  · simp
  · simpa using hkn
  · simpa using hkno
  · simpa using nextAuthoritative_le hnext hle
  · simp
  · simpa using hbd
  · unfold concludeFill
    split_ifs <;> simp
  · simp

theorem maxUnits_eq_max (a b : U256) : maxUnits a b = max a b := (max_def' a b).symm

/-- **A fill** of a retained order. -/
theorem Inv.withFill (h : Inv records s) (hnew : s.fillKeys[applied.fill.key]? = none)
    (hlast : s.lastOwnedObservationSequence < applied.occurrence.ownerSequence.value)
    (hget : s.Holds applied.fill.clientOrder order)
    (hfil : FilledBy order filled applied) {pending : ℕ}
    (hpend : pending + order.pendingAckFills.length =
      s.pendingAckFillKeys + filled.pendingAckFills.length)
    (hroom : s.fillKeys.size + 1 + pending ≤ maxPmJournalFillKeys) :
    Inv (records ++ [.fillApplied applied]) (s.withFill applied filled pending) := by
  set client := applied.fill.clientOrder with hcl
  have hputs : s.Puts (s.withFill applied filled pending) client filled :=
    puts_setOrder s client filled
  have hret := retained_observe s (s.withFill applied filled pending)
    (.fillApplied applied) ((hputs client).trans (if_pos rfl)) (hfil.sequence ▸ h.recorded_lt hget)
    (hputs.retained_iff hget hfil.sequence)
  change ∀ other, (s.withFill applied filled pending).Retained
    (records ++ [.fillApplied applied]) other ↔ _ at hret
  have hori : filled.original = order.original := by
    unfold RecoveredOwnedOrder.original
    rw [hfil.intent]
  have hord := h.order client order hget
  have hfilLoo : ∀ key : PmFillKey, (s.withFill applied filled pending).fillKeys[key]? =
        if applied.fill.key = key then some applied else s.fillKeys[key]? :=
    fun key => getElem?_insert_eq s.fillKeys applied.fill.key key applied
  have hfilOf : ∀ other, (s.withFill applied filled pending).filledOf other =
      (if client = other then applied.fill.delta.protocolUnits.value else 0) +
        s.filledOf other :=
    fun other => weigh_insert_of_none hnew _ _
  refine ⟨hputs.oneOpenPerSlot hget hfil.intent hfil.terminal h.oneOpen, fun other found hoth => ?_,
    ⟨fun intentId other => (h.indexed.orders intentId other).trans
      (hputs.intent_iff hget hfil.intent other intentId), fun key fill => ?_,
      fun sequence key => ?_, fun sequence o => ?_, ?_, ?_⟩,
    ⟨h.cut.1, hputs.forall ?_ h.cut.2⟩, hputs.forall ?_ fun other found hoth => ?_,
    h.observed_le_insert (.fillApplied applied) hlast⟩
  · rw [hfilOf]
    rw [Holds, hputs other] at hoth
    split_ifs at hoth with he
    · cases hoth
      rw [if_pos he, ← he, hfil.known, (h.fillsAddUp client order hget).1, Nat.add_comm]
      refine ⟨rfl, ?_, ?_⟩
      · rw [hfil.cumulative_eq, maxUnits_eq_max]
        exact le_max_left _ _
      · rw [hfil.cumulative_eq, maxUnits_eq_max, hori]
        refine max_le hfil.known_le ?_
        cases hauth : filled.authoritativeCumulative with
        | none => exact Nat.zero_le _
        | some cumulative => exact hfil.reported_le cumulative hauth
    · rw [if_neg he, Nat.zero_add]
      exact h.fillsAddUp other found hoth
  · rw [hret, hfilLoo]
    split_ifs with he
    · constructor
      · rintro hsome
        cases hsome
        exact ⟨he, .inr rfl⟩
      · rintro ⟨hkey, hor | hor⟩
        · have hsome := (h.indexed.fillKeys key fill).mpr ⟨hkey, hor⟩
          rw [← he, hnew] at hsome
          cases hsome
        · cases hor
          rfl
    · rw [h.indexed.fillKeys]
      refine and_congr_right fun hkey => ⟨.inl, fun hor => hor.resolve_right fun hfill => ?_⟩
      cases hfill
      exact he hkey
  · show (s.fillOrder.insert applied.occurrence.ownerSequence.value
      applied.fill.key)[sequence]? = some key ↔ _
    rw [getElem?_insert_eq]
    simp only [hfilLoo]
    split_ifs with hseq hkey hkey
    · simp [hkey, hseq]
    · -- every retained fill is older
      simp only [Option.some.injEq, hkey, false_iff]
      rintro ⟨fill, hfill, hown⟩
      have hle := h.observed_le _ (.fillApplied fill) ((h.indexed.observations _ _).mpr
        ⟨rfl, ((h.indexed.fillKeys key fill).mp hfill).2⟩)
      rw [show ownerSequence (.fillApplied fill) =
        fill.occurrence.ownerSequence.value from rfl, hown, ← hseq] at hle
      exact absurd hle (UInt64.not_le.mpr hlast)
    · simp only [Option.some.injEq, exists_eq_left', hseq, iff_false]
      rw [h.indexed.fills]
      rintro ⟨fill, hfill, -⟩
      rw [← hkey, hnew] at hfill
      cases hfill
    · exact h.indexed.fills sequence key
  · rw [hret]
    exact h.observations_insert (.fillApplied applied) hlast sequence o
  · have hwei := weigh_insert_of_some hget (fun _ order => order.pendingAckFills.length) filled
    have hsum := h.indexed.pending
    show pending = weigh _ (s.ownedOrders.insert client filled)
    omega
  · show (s.fillKeys.insert applied.fill.key applied).size + pending ≤ _
    rw [size_insert_of_none hnew]
    exact hroom
  · rw [hfil.intent]
    exact h.cut.2 client order hget
  · refine ⟨?_, ?_, ?_, ?_, hfil.cumulative_eq, fun hne => absurd hfil.place hne, ?_⟩
    · rw [hfil.intent, hord.client]
    · rw [hfil.intent]
      exact hord.intent_le
    · rw [hfil.sequence, hfil.intent]
      exact getElem?_append_single.mpr (.inl hord.recorded)
    · rw [hori]
      exact hfil.reported_le
    · rw [hfil.missing]
      exact (List.length_erase_le).trans hord.missing_le
  · have hpr := h.order other found hoth
    exact { hpr with recorded := getElem?_append_single.mpr (.inl hpr.recorded) }

end PmJournalRecovery

end Reap.Journal
