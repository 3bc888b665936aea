import Reap.Journal.Binding

/-!
# Where the results of an order come from

The restart gate asks whether an order has had an ordinary result, and which sequence numbers its
intents have. This module says what the projection keeps for it: an order with a result has had an
ordinary one, or an authenticated one that is recorded with the sequence number of its intent.

## What is proved

* `exists_exactExpectedVenueOrder` — the venue order of an expected identity reads back as that identity.
* `applyRecord_frame` — the scope and the number of records.
* `provenance_of_replayed` — where the results of an order come from.
-/

namespace Reap.Journal

open Base Reap.Core Outcome List

/-! ### Expected identities -/

/-- A digit reads back as the number that it writes, and is printable. -/
theorem hexDigit_spec (digit : ℕ) : decodeLowerHex (hexDigit digit) = some (digit % 16) ∧
    33 ≤ hexDigit digit ∧ hexDigit digit ≤ 126 := by
  have hlt : digit % 16 < 16 := Nat.mod_lt _ (by decide)
  unfold hexDigit
  generalize digit % 16 = n at hlt ⊢
  revert n
  decide

theorem length_encodeDigits (value count : ℕ) : (encodeDigits value count).length = count := by
  induction count with
  | zero => rfl
  | succ _ ih => rw [encodeDigits, length_cons, ih]

theorem encodeDigits_printable (value count : ℕ) (byte : UInt8)
    (h : byte ∈ encodeDigits value count) : 33 ≤ byte ∧ byte ≤ 126 := by
  induction count with
  | zero => cases h
  | succ _ ih =>
    rcases mem_cons.mp h with rfl | h
    · exact (hexDigit_spec _).2
    · exact ih h

/-- The digits read back as the number that they write. -/
theorem decodeDigits_encodeDigits (value count before : ℕ) :
    decodeDigits before (encodeDigits value count) =
      some (before * 16 ^ count + value % 16 ^ count) := by
  induction count generalizing before with
  | zero => simp [encodeDigits, decodeDigits, Nat.mod_one]
  | succ _ ih =>
    rw [encodeDigits, decodeDigits, (hexDigit_spec _).1]
    simp only
    rw [ih, Nat.mod_pow_succ, pow_succ]
    ring_nf

/-- The venue order of an expected identity. -/
theorem exists_exactExpectedVenueOrder (client : PmClientOrderKey)
    (expected : PmJournalFingerprintV1) :
    ∃ venue, PmJournalRecovery.exactExpectedVenueOrder client expected = some venue ∧
      venue.account = client.account ∧ exactOrderBytes venue = some expected.bytes := by
  have hlen := length_encodeDigits expected.bytes.toNat 64
  unfold PmJournalRecovery.exactExpectedVenueOrder
  have htext : 48 :: 120 :: encodeDigits expected.bytes.toNat 64 ≠ [] ∧
      (48 :: 120 :: encodeDigits expected.bytes.toNat 64).length ≤ 96 ∧
      (48 :: 120 :: encodeDigits expected.bytes.toNat 64).all fun byte =>
        33 ≤ byte ∧ byte ≤ 126 := by
    refine ⟨nofun, by rw [length_cons, length_cons, hlen]; decide,
      all_eq_true.mpr fun byte hmem => decide_eq_true ?_⟩
    rcases mem_cons.mp hmem with rfl | hmem
    · decide
    rcases mem_cons.mp hmem with rfl | hmem
    · decide
    · exact encodeDigits_printable _ _ byte hmem
  rw [dif_pos htext]
  refine ⟨_, rfl, rfl, ?_⟩
  unfold exactOrderBytes
  simp only [hlen, if_true, decodeDigits_encodeDigits, Option.map_some]
  rw [Nat.zero_mul, Nat.zero_add, Nat.mod_eq_of_lt (lt_of_lt_of_le expected.bytes.isLt (by norm_num)),
    BitVec.ofNat_toNat, BitVec.setWidth_eq]

namespace PmJournalRecovery

open RecoveredOwnedOrder OrderedMap

/-! ### What a record leaves alone -/

/-- The scope, the number of records and the results are the same. -/
structure SameHeader (s t : PmJournalRecovery) : Prop where
  scope : t.scope = s.scope
  recordCount : t.recordCount = s.recordCount
  authenticatedResults : t.authenticatedResults = s.authenticatedResults

theorem sameHeader_compactOrders (clients : List PmClientOrderKey) (s : PmJournalRecovery) :
    SameHeader s (clients.foldl compactOrder s) := by
  induction clients generalizing s with
  | nil => exact ⟨rfl, rfl, rfl⟩
  | cons client _ ih =>
    have hone : SameHeader s (s.compactOrder client) := by
      unfold compactOrder
      split <;> exact ⟨rfl, rfl, rfl⟩
    have hrest := ih (s.compactOrder client)
    exact ⟨hrest.scope.trans hone.scope, hrest.recordCount.trans hone.recordCount,
      hrest.authenticatedResults.trans hone.authenticatedResults⟩

section

variable {s t : PmJournalRecovery} {provenance : ResultProvenance}
  {result : PmJournalPlaceResultV1} {client : PmClientOrderKey}

theorem sameHeader_applyPlaceResult (h : s.applyPlaceResult result provenance = .ok t)
    : SameHeader s t := by
  obtain ⟨-, -, -, order, placed, -, -, rfl⟩ := applyPlaceResult_iff.mp h
  exact ⟨rfl, rfl, rfl⟩

theorem sameHeader_applyCanonical {result : PmJournalAuthenticatedResultV1}
    (h : s.applyCanonical result = .ok t) : SameHeader s t := by
  cases result with
  | cancel =>
    obtain ⟨order, next, -, -, rfl⟩ := applyCancelResult_iff.mp h
    exact ⟨rfl, rfl, rfl⟩
  | place =>
    obtain ⟨placed, hpla, hbind⟩ := bind_eq_ok.mp h
    have hsame := sameHeader_applyPlaceResult hpla
    split_ifs at hbind
    · obtain ⟨venue, order, -, -, -, -, -, rfl⟩ := bindAmbiguous_iff.mp hbind
      exact { hsame with }
    · cases hbind
      exact hsame

/-- The results after a record: an authenticated result is entered under its sequence number. -/
def resultsAfter (s : PmJournalRecovery) :
    PmJournalRecordV1 → OrderedMap UInt64 PmJournalAuthenticatedResultV1
  | .authenticatedResult result =>
    s.authenticatedResults.insert result.authResultSequence result
  | _ => s.authenticatedResults

variable {record : PmJournalRecordV1} {sequence : UInt64} {order next : RecoveredOwnedOrder}

/-- What an accepted record does to the scope, the number of records and the results. -/
theorem applyRecord_frame [JournalDigest] (h : s.applyRecord record sequence = .ok t) :
    t.scope = s.scope ∧ t.recordCount = s.recordCount ∧
      t.authenticatedResults = s.resultsAfter record := by
  obtain ⟨_, -, h⟩ := bind_eq_ok.mp h
  split_ifs at h
  · cases record with
    | header =>
      obtain ⟨_, -, hcha⟩ := bind_eq_ok.mp h
      cases hcha
      exact ⟨rfl, rfl, rfl⟩
    | _ => cases h
  cases record with
  | header => cases h
  | quoteIntent =>
    obtain ⟨-, -, -, -, rfl⟩ := applyQuoteIntent_iff.mp h
    exact ⟨rfl, rfl, rfl⟩
  | placeResult =>
    have hsame := sameHeader_applyPlaceResult h
    exact ⟨hsame.scope, hsame.recordCount, hsame.authenticatedResults⟩
  | cancelIntent =>
    obtain ⟨order, next, -, -, rfl⟩ := applyCancelIntent_iff.mp h
    exact ⟨rfl, rfl, rfl⟩
  | cancelResult =>
    obtain ⟨order, next, -, -, rfl⟩ := applyCancelResult_iff.mp h
    exact ⟨rfl, rfl, rfl⟩
  | fillApplied =>
    obtain ⟨-, -, order, filled, -, -, ⟨-, -, -, rfl⟩ | ⟨-, -, rfl⟩⟩ := applyFill_iff.mp h <;>
      exact ⟨rfl, rfl, rfl⟩
  | orderTerminal =>
    obtain ⟨-, order, next, -, -, rfl⟩ := applyTerminal_iff.mp h
    exact ⟨rfl, rfl, rfl⟩
  | safetyHalt =>
    cases h
    exact ⟨rfl, rfl, rfl⟩
  | fillWatermarkAdvanced watermark =>
    obtain ⟨-, rfl⟩ := applyFillWatermark_iff.mp h
    have hsame : SameHeader { s with fillWatermark := some watermark.cursor }
        (compactProvenTerminalOrders _) := sameHeader_compactOrders _ _
    exact ⟨hsame.scope, hsame.recordCount, hsame.authenticatedResults⟩
  | authenticatedResult result =>
    obtain ⟨-, -, applied, hcan, rfl⟩ := applyAuthenticatedResult_iff.mp h
    have hsame := sameHeader_applyCanonical hcan
    exact ⟨hsame.scope, hsame.recordCount,
      congrArg (·.insert result.authResultSequence result) hsame.authenticatedResults⟩

/-! ### Where the results come from -/

/-- An authenticated placement of the order's intent is recorded. -/
def PlaceRecorded (s : PmJournalRecovery) (client : PmClientOrderKey)
    (order : RecoveredOwnedOrder) : Prop :=
  ∃ (sequence : UInt64) (place : PmJournalAuthenticatedPlaceResultV1),
    s.authenticatedResults[sequence]? = some (.place place) ∧
    place.canonical.clientOrder = client ∧
    place.priorGoalFSequence = order.intentJournalSequence

/-- Where the results of an order come from. -/
structure OrderProvenance (s : PmJournalRecovery) (client : PmClientOrderKey)
    (order : RecoveredOwnedOrder) : Prop where
  placed : order.place = .intentOnly ∨ order.ordinaryPlaceResultRecorded = true ∨
    s.PlaceRecorded client order
  cancelled : order.cancelIntentJournalSequence.isSome = true → order.place = .bound

/-- Where the results of all orders come from. -/
structure Provenance (s : PmJournalRecovery) : Prop where
  order : ∀ client order, s.Holds client order → s.OrderProvenance client order
  keyed : ∀ (sequence : UInt64) (result : PmJournalAuthenticatedResultV1),
    s.authenticatedResults[sequence]? = some result → result.authResultSequence = sequence

/-- The recorded results stay recorded. -/
def KeepsResults (s t : PmJournalRecovery) : Prop :=
  ∀ (sequence : UInt64) (result : PmJournalAuthenticatedResultV1),
    s.authenticatedResults[sequence]? = some result →
    t.authenticatedResults[sequence]? = some result

theorem OrderProvenance.keep (h : s.OrderProvenance client order)
    (hkp : KeepsResults s t) (hpl : next.place = order.place)
    (hord : order.ordinaryPlaceResultRecorded = true → next.ordinaryPlaceResultRecorded = true)
    (hint : next.intentJournalSequence = order.intentJournalSequence)
    (hcan : next.cancelIntentJournalSequence.isSome = true →
      order.cancelIntentJournalSequence.isSome = true ∨ order.place = .bound)
    : t.OrderProvenance client next := by
  refine ⟨?_, fun hsome => ?_⟩
  · rcases h.placed with hopen | hflag | ⟨sequence, place, hget, hcl, hpr⟩
    · exact .inl (hpl.trans hopen)
    · exact .inr (.inl (hord hflag))
    · exact .inr (.inr ⟨sequence, place, hkp _ _ hget, hcl, hpr.trans hint.symm⟩)
  · rw [hpl]
    exact (hcan hsome).elim h.cancelled id

/-- An order is put whose provenance is known. -/
theorem Provenance.put (h : Provenance s) (hkp : KeepsResults s t)
    (hputs : s.Puts t client next) (hnext : t.OrderProvenance client next)
    (other : PmClientOrderKey) (order : RecoveredOwnedOrder)
    (hget : t.Holds other order) : t.OrderProvenance other order :=
  hputs.forall hnext (fun other order hget =>
    (h.order other order hget).keep hkp rfl id rfl .inl) other order hget

/-- A place result is not about an order with a cancel. -/
theorem Provenance.no_cancel_of_applyPlace (h : Provenance s) {placed : RecoveredOwnedOrder}
    (hget : s.Holds result.clientOrder order)
    (hpl : order.applyPlace result = .ok placed) : placed.cancelIntentJournalSequence = none := by
  have hunb : order.place ≠ .bound := by
    rcases applyPlace_iff.mp hpl with ⟨-, hpr, -⟩ | ⟨-, hpr, -⟩ | ⟨-, hpr, -⟩ <;>
      rw [hpr]
    · nofun
    · nofun
    · split_ifs <;> nofun
  have hnone : order.cancelIntentJournalSequence = none := by
    cases hcan : order.cancelIntentJournalSequence with
    | none => rfl
    | some =>
      exact absurd ((h.order _ order hget).cancelled (by rw [hcan]; rfl)) hunb
  rcases applyPlace_iff.mp hpl with ⟨-, -, rfl⟩ | ⟨-, -, rfl⟩ | ⟨-, -, _, -, rfl⟩ <;>
    exact hnone

/-- What an authenticated placement does to its order. -/
theorem puts_applyCanonical_place {place : PmJournalAuthenticatedPlaceResultV1}
    (h : s.applyCanonical (.place place) = .ok t) :
    ∃ order placed venue, s.Holds place.canonical.clientOrder order ∧
      order.applyPlace place.canonical = .ok placed ∧
      s.Puts t place.canonical.clientOrder { placed with venueOrder := venue } := by
  obtain ⟨middle, hmid, hbind⟩ := bind_eq_ok.mp h
  obtain ⟨-, -, -, order, placed, hget, hpl, rfl⟩ := applyPlaceResult_iff.mp hmid
  have hputs := puts_setOrder s place.canonical.clientOrder placed
  split_ifs at hbind
  · obtain ⟨venue, found, -, -, hfou, -, -, rfl⟩ := bindAmbiguous_iff.mp hbind
    cases hfou.symm.trans ((hputs place.canonical.clientOrder).trans (if_pos rfl))
    exact ⟨order, placed, some venue, hget, hpl, hputs.trans (puts_setOrder _ _ _)⟩
  · cases hbind
    exact ⟨order, placed, placed.venueOrder, hget, hpl, hputs⟩

section

variable (h : Provenance s) (hkp : KeepsResults s t)

include h hkp

theorem Provenance.kept (hkept : ∀ client order, t.Holds client order → s.Holds client order)
    (client : PmClientOrderKey) (order : RecoveredOwnedOrder)
    (hget : t.Holds client order) : t.OrderProvenance client order :=
  (h.order client order (hkept client order hget)).keep hkp rfl id rfl .inl

/-- The orders after an authenticated result, which is recorded with it. -/
theorem orders_applyAuthenticatedResult {result : PmJournalAuthenticatedResultV1}
    (hacc : s.applyAuthenticatedResult result = .ok t) (client : PmClientOrderKey)
    (order : RecoveredOwnedOrder) (hget : t.Holds client order) :
    t.OrderProvenance client order := by
  obtain ⟨-, hpr, applied, hcan, rfl⟩ := applyAuthenticatedResult_iff.mp hacc
  cases result with
  | place place =>
    obtain ⟨prior, placed, venue, hfou, hpl, hputs⟩ := puts_applyCanonical_place hcan
    obtain ⟨found, hfou', hseq⟩ := bind_eq_ok.mp hpr
    rw [findOrder_eq_ok] at hfou'
    cases hfou.symm.trans hfou'
    have hnone := h.no_cancel_of_applyPlace hfou hpl
    refine h.put hkp hputs ⟨.inr (.inr ⟨place.authResultSequence, place, ?_, rfl, ?_⟩), ?_⟩
      client order hget
    · exact (getElem?_insert_eq _ _ _ _).trans (if_pos rfl)
    · exact ((applyPlace_sameQuote hpl).sequence.trans (ok.inj hseq)).symm
    · intro hsome
      rw [show ({ placed with venueOrder := venue } :
        RecoveredOwnedOrder).cancelIntentJournalSequence = none from hnone] at hsome
      cases hsome
  | cancel =>
    obtain ⟨prior, next, hfou, hcanc, rfl⟩ := applyCancelResult_iff.mp hcan
    have hsame := applyCancel_samePlacement hcanc
    refine h.put hkp (puts_setOrder s _ next) ?_ client order hget
    exact (h.order _ prior hfou).keep hkp hsame.place (hsame.recorded.trans ·) hsame.sequence
      fun hsome => .inl (hsame.cancelIntent ▸ hsome)

end

variable [JournalDigest]

/-- The results that were recorded stay, since no sequence number is used twice. -/
theorem keepsResults_of_applyRecord (h : s.applyRecord record sequence = .ok t) :
    KeepsResults s t := by
  intro recorded result hget
  obtain ⟨-, -, hres⟩ := applyRecord_frame h
  rw [hres]
  cases record with
  | authenticatedResult added =>
    have hnew : s.authenticatedResults[added.authResultSequence]? = none := by
      obtain ⟨_, -, h⟩ := bind_eq_ok.mp h
      split_ifs at h
      exact (applyAuthenticatedResult_iff.mp h).1
    refine (getElem?_insert_eq _ _ _ _).trans ?_
    rw [if_neg, hget]
    rintro rfl
    rw [hnew] at hget
    cases hget
  | _ => exact hget

/-- **What an accepted record keeps.** -/
theorem provenance_applyRecord (h : Provenance s)
    (hacc : s.applyRecord record sequence = .ok t) : Provenance t := by
  have hkp := keepsResults_of_applyRecord hacc
  constructor
  · obtain ⟨_, -, hacc⟩ := bind_eq_ok.mp hacc
    split_ifs at hacc with hfst
    · cases record with
      | header =>
        obtain ⟨_, -, hcha⟩ := bind_eq_ok.mp hacc
        cases hcha
        exact h.order
      | _ => cases hacc
    cases record with
    | header => cases hacc
    | quoteIntent =>
      obtain ⟨-, -, -, -, rfl⟩ := applyQuoteIntent_iff.mp hacc
      exact h.put hkp (puts_setOrder s _ _) ⟨.inl rfl, by rintro ⟨⟩⟩
    | placeResult =>
      obtain ⟨-, -, -, order, placed, hget, hpl, rfl⟩ := applyPlaceResult_iff.mp hacc
      refine h.put hkp (puts_setOrder s _ _) ⟨.inr (.inl rfl), fun hsome => ?_⟩
      simp only [markPlaceResult_frame, h.no_cancel_of_applyPlace hget hpl] at hsome
      cases hsome
    | cancelIntent =>
      obtain ⟨order, next, hget, hcan, rfl⟩ := applyCancelIntent_iff.mp hacc
      obtain ⟨hbd, -, -, -, -, rfl⟩ := RecoveredOwnedOrder.applyCancelIntent_iff.mp hcan
      exact h.put hkp (puts_setOrder s _ _)
        ((h.order _ order hget).keep hkp rfl id rfl fun _ => .inr hbd)
    | cancelResult =>
      obtain ⟨order, next, hget, hcan, rfl⟩ := applyCancelResult_iff.mp hacc
      have hsame := applyCancel_samePlacement hcan
      exact h.put hkp (puts_setOrder s _ _) ((h.order _ order hget).keep hkp hsame.place
        (hsame.recorded.trans ·) hsame.sequence fun hsome => .inl (hsame.cancelIntent ▸ hsome))
    | fillApplied applied =>
      obtain ⟨order, filled, hget, hfill, hputs⟩ := puts_of_applyFill hacc
      obtain ⟨-, _, _, _, -, -, -, -, -, rfl⟩ := RecoveredOwnedOrder.applyFill_iff.mp hfill
      exact h.put hkp hputs ((h.order _ order hget).keep hkp (by simp) (by simp) (by simp)
        fun hsome => .inl (by simpa using hsome))
    | orderTerminal =>
      obtain ⟨-, order, next, hget, hterm, rfl⟩ := applyTerminal_iff.mp hacc
      obtain ⟨-, -, -, -, -, -, rfl⟩ := RecoveredOwnedOrder.applyTerminal_iff.mp hterm
      exact h.put hkp (puts_setOrder s _ _) ((h.order _ order hget).keep hkp rfl id rfl .inl)
    | safetyHalt =>
      cases hacc
      exact h.kept hkp fun _ _ => id
    | fillWatermarkAdvanced watermark =>
      obtain ⟨-, rfl⟩ := applyFillWatermark_iff.mp hacc
      exact h.kept hkp (kept_compactProvenTerminalOrders
        { s with fillWatermark := some watermark.cursor })
    | authenticatedResult => exact orders_applyAuthenticatedResult h hkp hacc
  · intro recorded result hget
    rw [(applyRecord_frame hacc).2.2] at hget
    cases record with
    | authenticatedResult =>
      rw [resultsAfter, getElem?_insert_eq] at hget
      split_ifs at hget with he
      · cases hget
        exact he
      · exact h.keyed recorded result hget
    | _ => exact h.keyed recorded result hget

/-- The provenance of results after every sequence of accepted records. -/
theorem provenance_of_replayed {scope : PmJournalScopeV1} {records : List PmJournalRecordV1}
    (h : Replayed scope records s) :
    Provenance s ∧ s.scope = scope ∧ s.recordCount = records.length := by
  refine h.invariant (P := fun records s => Provenance s ∧ s.scope = scope ∧
    s.recordCount = records.length) ?_ fun records record s t hold _ hnext => ?_
  · refine ⟨⟨fun client order hget => ?_, fun sequence result hget => ?_⟩, rfl, rfl⟩
    · cases (Std.TreeMap.getElem?_emptyc).symm.trans hget
    · cases (Std.TreeMap.getElem?_emptyc).symm.trans hget
  · obtain ⟨applied, happ, hcou⟩ := bind_eq_ok.mp hnext
    cases hcou
    obtain ⟨hpro, hsc, hcnt⟩ := hold
    obtain ⟨hsc', hcnt', -⟩ := applyRecord_frame happ
    have haft := provenance_applyRecord hpro happ
    refine ⟨⟨fun client order hget => ?_, haft.keyed⟩, hsc'.trans hsc, ?_⟩
    · exact ⟨(haft.order client order hget).placed, (haft.order client order hget).cancelled⟩
    · rw [length_append, length_singleton, ← hcnt, ← hcnt']
      rfl

end

end PmJournalRecovery

end Reap.Journal
