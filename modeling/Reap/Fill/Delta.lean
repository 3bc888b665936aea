import Reap.Fill.State
import Mathlib.Algebra.Group.Prod
import Mathlib.Tactic.Ring

/-!
# What the provisional deltas stand for

The deltas are machine numbers: sign and magnitude of 256 bits, and counters of 16. Here they
get their meaning, a tuple of integers and numbers, in which adding deltas is adding; and a fill
gets the exposure that it contributes, so that the deltas of a whole state can be compared with
a sum over its fills.

## What is proved

* `addSigned_checked`, `addDelta_checked` — the two additions are checked additions: they give
  the sum whenever it can be represented.
* `recomputeProvisional_value` — what is recomputed is the sum of the contributions.
-/

namespace Reap.Fill

open Base Reap.Core U256 PmSignedUnits PmSign

/-! ### Signed units -/

variable {sign : PmSign} {left right : PmSignedUnits} {config : PmPrivateStateConfig}
  {amount : U256}

theorem toInt_of_signed {units : PmSignedUnits} (h : signed sign amount = .ok units) :
    units.toInt = sign.apply amount.value := by
  unfold signed fromParts at h
  by_cases hzero : amount.isZero = true
  · rw [dif_pos hzero] at h
    cases sign with
    | negative => cases h
    | positive =>
      cases h
      rw [isZero_iff.mp hzero]
      rfl
  · rw [dif_neg hzero] at h
    cases h
    rfl

/-- Every amount can be signed, but zero only positively. -/
theorem exists_signed (h : amount.value = 0 → sign = .positive) :
    ∃ units, signed sign amount = .ok units := by
  unfold signed fromParts
  by_cases hzero : amount.isZero = true
  · rw [dif_pos hzero, h (isZero_iff.mp hzero)]
    exact ⟨.zero, rfl⟩
  · rw [dif_neg hzero]
    exact ⟨_, rfl⟩

/-- Signed units of one sign. -/
theorem addSigned_of_sign_eq (h : left.sign = right.sign) : addSigned left right =
      match left.magnitude.checkedAdd right.magnitude with
      | .error _ => .error .arithmeticOverflow
      | .ok magnitude => signed left.sign magnitude := if_pos h

section

variable (h : left.sign ≠ right.sign)

include h

/-- Signed units of different signs: the larger one decides. -/
theorem addSigned_of_lt (hlt : left.magnitude < right.magnitude) :
    addSigned left right = signed right.sign (ofValue (right.magnitude.value - left.magnitude.value)
        (lt_of_le_of_lt (Nat.sub_le _ _) right.magnitude.lt)) := by
  rw [addSigned, if_neg h, compare_lt_iff_lt.mpr hlt, checkedSub_ok (le_of_lt hlt)]

theorem addSigned_of_gt (hlt : right.magnitude < left.magnitude) :
    addSigned left right = signed left.sign (ofValue (left.magnitude.value - right.magnitude.value)
        (lt_of_le_of_lt (Nat.sub_le _ _) left.magnitude.lt)) := by
  rw [addSigned, if_neg h, compare_gt_iff_gt.mpr hlt, checkedSub_ok (le_of_lt hlt)]

theorem addSigned_of_eq (heq : left.magnitude = right.magnitude) :
    addSigned left right = .ok .zero := by
  rw [addSigned, if_neg h, compare_eq_iff_eq.mpr heq]

end

theorem PmSign.apply_add (sign : PmSign) (m n : ℕ) :
    sign.apply (m + n) = sign.apply m + sign.apply n := by
  cases sign with
  | positive => exact Int.natCast_add m n
  | negative =>
    show -((m + n : ℕ) : ℤ) = -(m : ℤ) + -(n : ℤ)
    omega

theorem PmSign.apply_of_ne {other : PmSign} (h : sign ≠ other) (n : ℕ) :
    other.apply n = -sign.apply n := by
  cases sign <;> cases other
  · exact absurd rfl h
  · rfl
  · exact (neg_neg _).symm
  · exact absurd rfl h

/-- What is left of a number when a smaller one of the other sign is added. -/
theorem PmSign.apply_sub {m n : ℕ} (h : n ≤ m) :
    sign.apply (m - n) = sign.apply m + -sign.apply n := by
  have hadd := apply_add sign (m - n) n
  rw [Nat.sub_add_cancel h] at hadd
  rw [hadd, add_neg_cancel_right]

/-- **Adding signed units is adding integers**, and it fails only when the sum does not fit. -/
theorem addSigned_checked : CheckedAdd addSigned toInt where
  injective := toInt_injective
  sound := by
    intro left right sum h
    unfold toInt
    by_cases hsign : left.sign = right.sign
    · rw [addSigned_of_sign_eq hsign] at h
      split at h
      · cases h
      next magnitude hmag =>
      rw [checkedAdd_eq_ok_iff] at hmag
      have hint := toInt_of_signed h
      rw [hmag, PmSign.apply_add] at hint
      rw [← hsign]
      exact hint
    · rcases lt_trichotomy left.magnitude right.magnitude with hlt | heq | hgt
      · rw [addSigned_of_lt hsign hlt] at h
        have hint := toInt_of_signed h
        rw [value_ofValue, PmSign.apply_sub (le_of_lt hlt)] at hint
        rw [PmSign.apply_of_ne (Ne.symm hsign), add_comm]
        exact hint
      · rw [addSigned_of_eq hsign heq] at h
        cases h
        rw [heq, PmSign.apply_of_ne (Ne.symm hsign), neg_add_cancel]
        rfl
      · rw [addSigned_of_gt hsign hgt] at h
        have hint := toInt_of_signed h
        rw [value_ofValue, PmSign.apply_sub (le_of_lt hgt)] at hint
        rw [PmSign.apply_of_ne hsign]
        exact hint
  complete := by
    intro left right hfits
    by_cases hsign : left.sign = right.sign
    · have hlt := exists_toInt_eq_iff.mp hfits
      have hsum : left.toInt + right.toInt =
          left.sign.apply (left.magnitude.value + right.magnitude.value) := by
        rw [PmSign.apply_add, toInt, toInt, hsign]
      have habs : ∀ (sign : PmSign) (n : ℕ), (sign.apply n).natAbs = n := by
        intro sign n
        cases sign with
        | positive => rfl
        | negative => exact (Int.natAbs_neg _).trans rfl
      rw [hsum, habs] at hlt
      rw [addSigned_of_sign_eq hsign, checkedAdd_ok hlt]
      refine exists_signed fun hzero => left.canonical ?_
      exact Nat.eq_zero_of_add_eq_zero_right ((value_ofValue hlt).symm.trans hzero)
    · rcases lt_trichotomy left.magnitude right.magnitude with hlt | heq | hgt
      · rw [addSigned_of_lt hsign hlt]
        refine exists_signed fun hzero => absurd ?_ (Nat.sub_ne_zero_of_lt hlt)
        rwa [value_ofValue] at hzero
      · exact ⟨.zero, addSigned_of_eq hsign heq⟩
      · rw [addSigned_of_gt hsign hgt]
        refine exists_signed fun hzero => absurd ?_ (Nat.sub_ne_zero_of_lt hgt)
        rwa [value_ofValue] at hzero

/-! ### Deltas -/

theorem addCount_checked : CheckedAdd addCount UInt16.toNat where
  injective := fun _ _ h => UInt16.toNat_inj.mp h
  sound := by
    intro left right sum h
    unfold addCount at h
    split_ifs at h with hlt
    cases h
    rw [UInt16.toNat_add, Nat.mod_eq_of_lt hlt]
  complete := by
    rintro left right ⟨sum, hsum⟩
    exact ⟨left + right, if_pos (hsum ▸ sum.toNat_lt)⟩

/-- What deltas stand for: collateral, outcome tokens, and the three counts. -/
abbrev Exposure := ℤ × ℤ × ℕ × ℕ × ℕ

/-- The exposure that deltas stand for. -/
def PmProvisionalDeltas.value (deltas : PmProvisionalDeltas) : Exposure :=
  (deltas.collateral.toInt, deltas.outcome.toInt, deltas.uncoveredFills.toNat,
    deltas.unresolvedFees.toNat, deltas.unmappedFeeAssets.toNat)

/-- An exposure is representable when each of its parts is. -/
theorem fits_value_iff {m : Exposure} : Fits PmProvisionalDeltas.value m ↔
      m.1.natAbs < 2 ^ 256 ∧ m.2.1.natAbs < 2 ^ 256 ∧ m.2.2.1 < 2 ^ 16 ∧ m.2.2.2.1 < 2 ^ 16 ∧
        m.2.2.2.2 < 2 ^ 16 := by
  constructor
  · rintro ⟨deltas, rfl⟩
    exact ⟨exists_toInt_eq_iff.mp ⟨_, rfl⟩, exists_toInt_eq_iff.mp ⟨_, rfl⟩,
      deltas.uncoveredFills.toNat_lt, deltas.unresolvedFees.toNat_lt,
      deltas.unmappedFeeAssets.toNat_lt⟩
  · rintro ⟨hcol, hout, hunc, hunr, hunm⟩
    obtain ⟨collateral, hc⟩ := exists_toInt_eq_iff.mpr hcol
    obtain ⟨outcome, ho⟩ := exists_toInt_eq_iff.mpr hout
    refine ⟨⟨collateral, outcome, .ofNat m.2.2.1, .ofNat m.2.2.2.1, .ofNat m.2.2.2.2⟩, ?_⟩
    simp only [PmProvisionalDeltas.value, hc, ho, UInt16.toNat_ofNat_of_lt' hunc,
      UInt16.toNat_ofNat_of_lt' hunr, UInt16.toNat_ofNat_of_lt' hunm]

/-- **Adding deltas is adding exposures**, and it fails only when the sum does not fit. -/
theorem addDelta_checked : CheckedAdd addDelta PmProvisionalDeltas.value where
  injective := by
    rintro ⟨c, o, u, r, m⟩ ⟨c', o', u', r', m'⟩ h
    simp only [PmProvisionalDeltas.value, Prod.mk.injEq] at h
    obtain ⟨hc, ho, hu, hr, hm⟩ := h
    cases toInt_injective hc
    cases toInt_injective ho
    cases UInt16.toNat_inj.mp hu
    cases UInt16.toNat_inj.mp hr
    cases UInt16.toNat_inj.mp hm
    rfl
  sound := by
    intro left right sum h
    simp only [addDelta, bind_eq_ok] at h
    obtain ⟨collateral, hc, outcome, ho, uncovered, hu, unresolved, hr, unmapped, hm, hsum⟩ := h
    cases hsum
    simp only [PmProvisionalDeltas.value, addSigned_checked.sound hc, addSigned_checked.sound ho,
      addCount_checked.sound hu, addCount_checked.sound hr, addCount_checked.sound hm,
        Prod.mk_add_mk]
  complete := by
    rintro left right ⟨sum, hsum⟩
    simp only [PmProvisionalDeltas.value, Prod.mk_add_mk, Prod.mk.injEq] at hsum
    obtain ⟨hc, ho, hu, hr, hm⟩ := hsum
    refine ⟨sum, ?_⟩
    simp only [addDelta, bind_eq_ok]
    exact ⟨_, addSigned_checked.add_eq_ok.mpr hc, _, addSigned_checked.add_eq_ok.mpr ho, _,
      addCount_checked.add_eq_ok.mpr hu, _, addCount_checked.add_eq_ok.mpr hr, _,
      addCount_checked.add_eq_ok.mpr hm, rfl⟩

/-! ### What a fill contributes -/

/-- What was paid and what was received for a fill. -/
def principal (event : PmFillEvent) : Exposure :=
  let units := event.execution.quantity.protocolUnits
  let collateral := baseProduct event.execution.price units / 1000000
  match event.execution.side with
  | .buy => (negative.apply collateral, positive.apply units.value, 0, 0, 0)
  | .sell => (positive.apply collateral, negative.apply units.value, 0, 0, 0)

/-- What is known of a fee: the amount if its asset is configured, a count if it is not. -/
def feeShare (config : PmPrivateStateConfig) (fee : PmFillFeeState) : Exposure :=
  (feeOnlyDelta config fee).value + (0, 0, 0, fee.isUnresolved.toNat, fee.isUnmapped.toNat)

/-- One uncovered fill. -/
def oneFill : Exposure := (0, 0, 1, 0, 0)

/-- What a fill that needs reconciliation contributes: its principal if no query has covered it,
its fee if no query has known it. -/
def contribution (config : PmPrivateStateConfig) (entry : FillEntry) : Exposure :=
  oneFill + (if entry.coveredByReconciliation = none then principal entry.event else 0) +
    (if entry.coveredByReconciliation = none ∨ entry.feeNeedsReconciliation = true then
      feeShare config entry.fee else 0)

theorem toNat_countIf (flag : Bool) : (countIf flag).toNat = flag.toNat := by
  cases flag <;> rfl

theorem value_emptyDeltas : emptyDeltas.value = 0 := rfl

/-- What `event_delta` stands for. -/
theorem value_of_eventDelta {event : PmFillEvent} {fee : PmFillFeeState}
    {delta : PmProvisionalDeltas} (h : eventDelta config event fee = .ok delta) :
    delta.value = oneFill + principal event + feeShare config fee := by
  simp only [eventDelta, exactOrderAmounts_eq] at h
  split_ifs at h with hwh
  simp only [bind_eq_ok] at h
  obtain ⟨collateral, hcol, outcome, hout, hdel⟩ := h
  have hpri : (collateral.toInt, outcome.toInt, 0, 0, 0) = principal event := by
    unfold principal
    cases hside : event.execution.side with
    | buy =>
      simp only [hside, orderAmounts] at hcol hout ⊢
      rw [toInt_of_signed hcol, toInt_of_signed hout, value_ofValue]
    | sell =>
      simp only [hside, orderAmounts] at hcol hout ⊢
      rw [toInt_of_signed hcol, toInt_of_signed hout, value_ofValue]
  rw [addDelta_checked.sound hdel, ← hpri, feeShare]
  simp only [PmProvisionalDeltas.value, oneFill, toNat_countIf, Prod.mk_add_mk]
  refine Prod.ext ?_ (Prod.ext ?_ (Prod.ext ?_ (Prod.ext ?_ ?_)))
  · ring
  · ring
  · rfl
  · show fee.isUnresolved.toNat + _ = 0 + 0 + (_ + fee.isUnresolved.toNat)
    ring
  · show fee.isUnmapped.toNat + _ = 0 + 0 + (_ + fee.isUnmapped.toNat)
    ring

/-- What a fee adds does not count. -/
theorem value_feeOnlyDelta (config : PmPrivateStateConfig) (fee : PmFillFeeState) :
    (feeOnlyDelta config fee).value.2.2 = 0 := by
  unfold feeOnlyDelta
  split
  · split_ifs <;> rfl
  · rfl
  · rfl
  · rfl

/-- **What a fill adds to the deltas is its contribution.** -/
theorem value_of_entryProvisionalDelta (entry : FillEntry) (delta : PmProvisionalDeltas)
    (h : entryProvisionalDelta config entry = .ok delta) :
    delta.value = contribution config entry := by
  unfold entryProvisionalDelta at h
  unfold contribution
  by_cases hunc : entry.coveredByReconciliation = none
  · rw [if_pos hunc] at h
    rw [if_pos hunc, if_pos (.inl hunc)]
    exact value_of_eventDelta h
  rw [if_neg hunc] at h
  rw [if_neg hunc, add_zero]
  by_cases hfee : entry.feeNeedsReconciliation = true
  · rw [if_pos hfee] at h
    rw [if_pos (.inr hfee)]
    obtain ⟨sum, hsum, hdel⟩ := bind_eq_ok.mp h
    cases hdel
    have hval := addDelta_checked.sound hsum
    have hcou := value_feeOnlyDelta config entry.fee
    simp only [PmProvisionalDeltas.value, Prod.mk_add_mk, Prod.mk.injEq,
      Prod.mk_eq_zero] at hval hcou
    obtain ⟨hc, ho, hu, -, -⟩ := hval
    obtain ⟨hzero, hzero', hzero''⟩ := hcou
    have hnot : zero.toInt = 0 := rfl
    simp only [PmProvisionalDeltas.value, feeShare, oneFill, emptyDeltas, toNat_countIf, hc, ho, hu,
      hzero, hzero', hzero'', hnot, Prod.mk_add_mk, zero_add, add_zero]
    rfl
  · rw [if_neg hfee] at h
    cases h
    rw [if_neg (not_or.mpr ⟨hunc, hfee⟩), add_zero]
    rfl

/-- **What is recomputed is the sum of the contributions.** -/
theorem recomputeProvisional_value {entries : List FillEntry} {deltas : PmProvisionalDeltas}
    (h : recomputeProvisional config entries = .ok deltas) : deltas.value =
      ((entries.filter FillEntry.needsReconciliation).map (contribution config)).sum := by
  have hval := checkedSum_value addDelta_checked value_of_entryProvisionalDelta h
  rwa [value_emptyDeltas, zero_add] at hval

/-! ### Overflow -/

theorem failsOnly_signed (sign : PmSign) (amount : U256) :
    FailsOnly .arithmeticOverflow (signed sign amount) := by
  unfold signed
  split
  · exact failsOnly_error _
  · exact failsOnly_ok _ _

theorem failsOnly_addSigned (left right : PmSignedUnits) :
    FailsOnly .arithmeticOverflow (addSigned left right) := by
  unfold addSigned
  split
  · split
    · exact failsOnly_error _
    · exact failsOnly_signed _ _
  · split
    · split
      · exact failsOnly_error _
      · exact failsOnly_signed _ _
    · split
      · exact failsOnly_error _
      · exact failsOnly_signed _ _
    · exact failsOnly_ok _ _

theorem failsOnly_addCount (left right : UInt16) :
    FailsOnly .arithmeticOverflow (addCount left right) := by
  unfold addCount
  split
  · exact failsOnly_ok _ _
  · exact failsOnly_error _

theorem failsOnly_addDelta (left right : PmProvisionalDeltas) :
    FailsOnly .arithmeticOverflow (addDelta left right) :=
  (failsOnly_addSigned _ _).bind fun _ => (failsOnly_addSigned _ _).bind fun _ =>
    (failsOnly_addCount _ _).bind fun _ => (failsOnly_addCount _ _).bind fun _ =>
      (failsOnly_addCount _ _).bind fun _ => failsOnly_ok _ _

variable (config)

theorem failsOnly_eventDelta (event : PmFillEvent) (fee : PmFillFeeState) :
    FailsOnly .arithmeticOverflow (eventDelta config event fee) := by
  have hcol : ∀ side amounts, FailsOnly .arithmeticOverflow (collateralPrincipal side amounts) := by
    intro side amounts
    cases side <;> exact failsOnly_signed _ _
  have hout : ∀ side quantity, FailsOnly .arithmeticOverflow (outcomePrincipal side quantity) := by
    intro side quantity
    cases side <;> exact failsOnly_signed _ _
  unfold eventDelta
  simp only
  split
  · exact failsOnly_error _
  · exact (hcol _ _).bind fun _ => (hout _ _).bind fun _ => failsOnly_addDelta _ _

theorem failsOnly_entryProvisionalDelta (entry : FillEntry) :
    FailsOnly .arithmeticOverflow (entryProvisionalDelta config entry) := by
  unfold entryProvisionalDelta
  split
  · exact failsOnly_eventDelta _ _ _
  split
  · exact (failsOnly_addDelta _ _).bind fun _ => failsOnly_ok _ _
  · exact failsOnly_ok _ _

end Reap.Fill
