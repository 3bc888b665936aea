import Reap.Base.Limbs
import Mathlib.Order.Basic
import Mathlib.Order.Lattice
import Mathlib.Data.Nat.Basic
import Mathlib.Tactic.Linarith
import Mathlib.Tactic.Ring

/-!
# Exact numbers of the Polymarket core

Protocol amounts are unsigned 256-bit integers of four limbs, with checked arithmetic that
loops over the limbs; a price is a number of millionths strictly between zero and one; a
quantity is a positive amount. No order or fill state looks at the limbs: the others use the
`value` of an amount and what the loops do to it.

`exactOrderAmounts` turns a price and a quantity into the exact collateral and share
amounts of an order. It divides first and multiplies afterwards, so that no intermediate
product leaves the 256 bits.

## What is proved

* `U256.checkedAdd_eq_ok_iff`, `U256.checkedSub_eq_ok_iff`, `U256.checkedMulU32_eq`,
  `U256.checkedDivRemU32_eq` — the loops over the limbs compute on the numbers.
* `exactOrderAmounts_eq` — the amounts exist exactly when `price * quantity` is a
  positive multiple of the protocol scale, and then they are the exact quotient and the
  quantity; in particular the division-first computation never overflows.
-/

namespace Reap.Core

open Reap.Base Nat Limbs

/-- The number of protocol units in one unit of collateral or one share. -/
def pmProtocolScale : UInt32 := 1000000

/-- The lot of the second CLOB version, in protocol units. -/
def clobV2LotUnits : UInt32 := 10000

/-- The errors of the exact number types that the modelled functions return. -/
inductive PmNumericError where
  | zero
  | underflow
  | overflow
  | priceAtOrAboveOne
  | unsupportedTick
  | priceOffTick
  | quantityOffLot
  | quantityBelowMinimum
  | nonIntegralOrderAmount
  | divisionByZero
  | nonCanonicalSignedZero
  deriving DecidableEq, Repr

/-! ### Unsigned 256-bit integers -/

/-- `u64::saturating_add(1)`. -/
def bump (counter : UInt64) : UInt64 := if counter = 0xFFFFFFFFFFFFFFFF then counter else counter + 1

/-- `u64::saturating_add`. -/
def saturatingAdd (counter : UInt64) (n : ℕ) : UInt64 :=
  UInt64.ofNat (min (counter.toNat + n) (2 ^ 64 - 1))

/-- An unsigned 256-bit integer: four limbs, the least one first. -/
structure U256 where
  /-- The limbs. -/
  limbs : List UInt64
  /-- There are four of them. -/
  length_eq : limbs.length = 4
  deriving DecidableEq

namespace U256

/-- The number that the limbs stand for. -/
def value (a : U256) : ℕ := Limbs.value a.limbs

variable {a b : U256} {limbs : List UInt64}

theorem value_lt (hlen : limbs.length = 4) : Limbs.value limbs < 2 ^ 256 := by
  have hlt := Limbs.value_lt limbs
  rwa [hlen, ← pow_mul] at hlt

theorem lt (a : U256) : a.value < 2 ^ 256 := value_lt a.length_eq

theorem ext (h : a.value = b.value) : a = b := by
  cases a with | mk as ha => cases b with | mk bs hb =>
    cases Limbs.value_injective (ha.trans hb.symm) h
    rfl

/-- `cmp`, which compares the limbs from the top. -/
instance : Ord U256 := ⟨fun a b => Limbs.cmp a.limbs b.limbs⟩

/-- `U256` is ordered as the numbers are. -/
instance : LinearOrder U256 := LinearOrder.liftWithOrd' U256.value (fun _ _ => ext) fun a b =>
  Limbs.cmp_eq (a.length_eq.trans b.length_eq.symm)

theorem lt_iff : a < b ↔ a.value < b.value := Iff.rfl

theorem le_iff : a ≤ b ↔ a.value ≤ b.value := Iff.rfl

/-- The integer with this value. -/
def ofValue (n : ℕ) (_ : n < 2 ^ 256) : U256 := ⟨ofNat 4 n, length_ofNat 4 n⟩

/-- `U256::ZERO`. -/
def zero : U256 := ⟨[0, 0, 0, 0], rfl⟩

/-- `from_u64`. -/
def fromU64 (value : UInt64) : U256 := ⟨[value, 0, 0, 0], rfl⟩

/-- `is_zero`. -/
def isZero (a : U256) : Bool := a.limbs.all (· == 0)

/-- The loop of a sum or a difference; the carry or borrow that is left over is the error. -/
def checkedLoop (op : UInt64 → UInt64 → UInt64 × Bool) (error : PmNumericError) (a b : U256) :
    Except PmNumericError U256 :=
  let result := loop op false a.limbs b.limbs
  if result.2 then .error error
  else .ok ⟨result.1, length_loop _ _ (a.length_eq.trans b.length_eq.symm) ▸ a.length_eq⟩

/-- `checked_add`. -/
def checkedAdd : U256 → U256 → Except PmNumericError U256 := checkedLoop overflowingAdd .overflow

/-- `checked_sub`. -/
def checkedSub : U256 → U256 → Except PmNumericError U256 := checkedLoop overflowingSub .underflow

/-- `checked_mul_u32`. -/
def checkedMulU32 (a : U256) (multiplier : UInt32) : Except PmNumericError U256 :=
  let result := mul multiplier 0 a.limbs
  if result.2 = 0 then .ok ⟨result.1, (length_mul _ _ _).trans a.length_eq⟩
  else .error .overflow

/-- Quotient and rest. -/
def checkedDivRemU32 (a : U256) (divisor : UInt32) : Except PmNumericError (U256 × UInt32) :=
  if divisor = 0 then .error .divisionByZero
  else
    let result := div divisor.toNat a.limbs
    .ok (⟨result.1, (length_div _ _).trans a.length_eq⟩, .ofNat result.2)

@[simp] theorem value_ofValue {n : ℕ} (h : n < 2 ^ 256) : (ofValue n h).value = n :=
  Limbs.value_ofNat (by rwa [← pow_mul])

theorem mk_eq_ofValue (hlen : limbs.length = 4) {n : ℕ}
    (hval : Limbs.value limbs = n) (h : n < 2 ^ 256) : ⟨limbs, hlen⟩ = ofValue n h :=
  ext (hval.trans (value_ofValue h).symm)

@[simp] theorem value_zero : zero.value = 0 := rfl

@[simp] theorem value_fromU64 (v : UInt64) : (fromU64 v).value = v.toNat := rfl

@[simp] theorem isZero_iff : a.isZero = true ↔ a.value = 0 := by
  rw [value, Limbs.value_eq_zero_iff, isZero, List.all_eq_true]
  simp

/-! The loops over the limbs compute on the numbers. -/

section

variable {op : UInt64 → UInt64 → UInt64 × Bool} {error : PmNumericError} {c : U256}

theorem checkedLoop_eq_ok_iff {sign : ℤ} (hop : Rounds op sign) (hsign : sign = 1 ∨ sign = -1) :
    checkedLoop op error a b = .ok c ↔ (c.value : ℤ) = a.value + sign * b.value := by
  have hlen := a.length_eq.trans b.length_eq.symm
  have hlt := value_lt ((length_loop op false hlen).trans a.length_eq)
  have hval := value_loop hop false hlen
  rw [a.length_eq] at hval
  unfold checkedLoop
  cases hout : (loop op false a.limbs b.limbs).2 with
  | false =>
    simp only [hout, Bool.toNat_false, Nat.cast_zero, mul_zero, add_zero, sub_zero] at hval
    simp only [hout, Bool.false_eq_true, if_false, Except.ok.injEq]
    refine ⟨fun h => h ▸ hval, fun h => ext ?_⟩
    exact Nat.cast_injective (hval.trans h.symm)
  | true =>
    -- one more or one less than the limbs can hold is no number of four limbs
    have hc := c.lt
    simp only [hout, Bool.toNat_true, Bool.toNat_false] at hval
    simp only [hout, if_true, reduceCtorEq, false_iff]
    intro h
    change _ = (a.value : ℤ) + sign * (b.value + _ - _) at hval
    rcases hsign with rfl | rfl <;> omega

theorem checkedAdd_eq_ok_iff : a.checkedAdd b = .ok c ↔ c.value = a.value + b.value :=
  (checkedLoop_eq_ok_iff rounds_add (.inl rfl)).trans (by omega)

theorem checkedSub_eq_ok_iff :
    a.checkedSub b = .ok c ↔ b.value ≤ a.value ∧ c.value = a.value - b.value :=
  (checkedLoop_eq_ok_iff rounds_sub (.inr rfl)).trans (by omega)

end

theorem checkedAdd_ok (h : a.value + b.value < 2 ^ 256) :
    a.checkedAdd b = .ok (ofValue (a.value + b.value) h) :=
  checkedAdd_eq_ok_iff.mpr (value_ofValue h)

theorem checkedSub_ok (h : b.value ≤ a.value) :
    a.checkedSub b = .ok (ofValue (a.value - b.value) (lt_of_le_of_lt (sub_le _ _) a.lt)) :=
  checkedSub_eq_ok_iff.mpr ⟨h, value_ofValue _⟩

theorem checkedAdd_eq (a b : U256) : a.checkedAdd b =
    if h : a.value + b.value < 2 ^ 256 then .ok (ofValue (a.value + b.value) h)
    else .error .overflow := by
  split_ifs with h
  · exact checkedAdd_ok h
  · exact if_pos (by_contra fun hout => h (checkedAdd_eq_ok_iff.mp (if_neg hout) ▸ U256.lt _))

theorem checkedMulU32_eq (a : U256) (multiplier : UInt32) : a.checkedMulU32 multiplier =
    if h : a.value * multiplier.toNat < 2 ^ 256 then .ok (ofValue (a.value * multiplier.toNat) h)
    else .error .overflow := by
  have hlt := value_lt ((length_mul multiplier 0 a.limbs).trans a.length_eq)
  have hval := Limbs.value_mul multiplier a.limbs (Nat.two_pow_pos 32)
  rw [a.length_eq, ← pow_mul] at hval
  change _ = a.value * multiplier.toNat at hval
  unfold checkedMulU32
  by_cases hout : (Limbs.mul multiplier 0 a.limbs).2 = 0
  · rw [hout, mul_zero, add_zero] at hval
    rw [dif_pos (hval ▸ hlt)]
    exact (if_pos hout).trans (congrArg Except.ok (mk_eq_ofValue _ hval _))
  · have hpos := pos_of_ne_zero hout
    rw [dif_neg (by omega)]
    exact if_neg hout

theorem checkedDivRemU32_eq (a : U256) {divisor : UInt32} (h : divisor ≠ 0) :
    a.checkedDivRemU32 divisor = .ok (ofValue (a.value / divisor.toNat)
      (lt_of_le_of_lt (div_le_self _ _) a.lt), UInt32.ofNat (a.value % divisor.toNat)) := by
  have hpos : 0 < divisor.toNat := Nat.pos_of_ne_zero fun he => h (UInt32.toNat_inj.mp he)
  obtain ⟨hval, hlt⟩ := Limbs.value_div hpos divisor.toNat_lt.le a.limbs
  obtain ⟨hquo, hrem⟩ := (Nat.div_mod_unique hpos).mpr ⟨(Nat.add_comm _ _).trans hval, hlt⟩
  change a.value % _ = _ at hrem
  change a.value / _ = _ at hquo
  rw [hrem, ← mk_eq_ofValue ((Limbs.length_div _ _).trans a.length_eq) hquo.symm]
  exact if_neg h

end U256

/-! ### Prices, ticks and quantities -/

/-- An executable price in millionths, strictly between zero and one. -/
structure PmPrice where
  units : UInt32
  pos : 0 < units.toNat
  lt_scale : units.toNat < pmProtocolScale.toNat
  deriving DecidableEq

/-- `from_units`. -/
def PmPrice.fromUnits (units : UInt32) : Except PmNumericError PmPrice :=
  if hpos : 0 < units.toNat then
    if hlt : units.toNat < pmProtocolScale.toNat then .ok ⟨units, hpos, hlt⟩
    else .error .priceAtOrAboveOne
  else .error .zero

/-- One of the six supported ticks. -/
structure PmTick where
  units : UInt32
  supported : units ∈ [100000, 10000, 5000, 2500, 1000, (100 : UInt32)]
  deriving DecidableEq

/-- `validate_tick`. -/
def PmPrice.validateTick (price : PmPrice) (tick : PmTick) : Except PmNumericError PmPrice :=
  if price.units % tick.units ≠ 0 then .error .priceOffTick else .ok price

/-- A positive number of protocol units. -/
structure PmQuantity where
  protocolUnits : U256
  ne_zero : protocolUnits.value ≠ 0
  deriving DecidableEq

/-- `from_protocol_units`. -/
def PmQuantity.fromProtocolUnits (protocolUnits : U256) : Except PmNumericError PmQuantity :=
  if h : protocolUnits.isZero then .error .zero
  else .ok ⟨protocolUnits, fun he => h (U256.isZero_iff.mpr he)⟩

/-- `validate_order`. -/
def PmQuantity.validateOrder (quantity minimum : PmQuantity) : Except PmNumericError PmQuantity :=
  match quantity.protocolUnits.checkedDivRemU32 clobV2LotUnits with
  | .error error => .error error
  | .ok (_, lotRemainder) =>
    if lotRemainder ≠ 0 then .error .quantityOffLot
    else if quantity.protocolUnits < minimum.protocolUnits then .error .quantityBelowMinimum
    else .ok quantity

/-- The side of an order. -/
inductive PmOrderSide where
  | buy
  | sell
  deriving DecidableEq, Repr

/-! ### Signed amounts -/

/-- The sign of a signed amount. -/
inductive PmSign where
  | positive
  | negative
  deriving DecidableEq, Repr

/-- Sign and magnitude, where zero is positive. -/
structure PmSignedUnits where
  sign : PmSign
  magnitude : U256
  canonical : magnitude.value = 0 → sign = .positive
  deriving DecidableEq

/-- `PmSignedUnits::ZERO`. -/
def PmSignedUnits.zero : PmSignedUnits := ⟨.positive, U256.zero, fun _ => rfl⟩

/-- `from_parts`. -/
def PmSignedUnits.fromParts (sign : PmSign) (magnitude : U256) :
    Except PmNumericError PmSignedUnits :=
  if h : magnitude.isZero then
    if sign = .negative then .error .nonCanonicalSignedZero else .ok .zero
  else .ok ⟨sign, magnitude, fun he => absurd (U256.isZero_iff.mpr he) h⟩

/-- A number with a sign. -/
def PmSign.apply (sign : PmSign) (n : ℕ) : ℤ :=
  match sign with
  | .positive => n
  | .negative => -n

/-- The integer that signed units stand for. -/
def PmSignedUnits.toInt (units : PmSignedUnits) : ℤ := units.sign.apply units.magnitude.value

/-- Signed units are the integers of at most 256 bits. -/
theorem PmSignedUnits.exists_toInt_eq_iff {m : ℤ} :
    (∃ units : PmSignedUnits, units.toInt = m) ↔ m.natAbs < 2 ^ 256 := by
  constructor
  · rintro ⟨⟨sign, magnitude, -⟩, rfl⟩
    have hlt := magnitude.lt
    cases sign with
    | positive => exact hlt
    | negative =>
      show (-(magnitude.value : ℤ)).natAbs < 2 ^ 256
      rwa [Int.natAbs_neg]
  · intro hm
    have hval := U256.value_ofValue hm
    rcases Int.natAbs_eq m with hpos | hneg
    · refine ⟨⟨.positive, .ofValue m.natAbs hm, fun _ => rfl⟩, ?_⟩
      exact (congrArg PmSign.positive.apply hval).trans hpos.symm
    · by_cases hzero : m.natAbs = 0
      · exact ⟨.zero, (Int.natAbs_eq_zero.mp hzero).symm⟩
      · refine ⟨⟨.negative, .ofValue m.natAbs hm, fun h => absurd (hval.symm.trans h) hzero⟩, ?_⟩
        exact (congrArg PmSign.negative.apply hval).trans hneg.symm

/-- Zero has one sign only, so no two signed units stand for one integer. -/
theorem PmSignedUnits.toInt_injective : Function.Injective PmSignedUnits.toInt := by
  rintro ⟨sa, a, ha⟩ ⟨sb, b, hb⟩ h
  cases sa <;> cases sb <;> simp only [toInt, PmSign.apply] at h
  · cases U256.ext (Int.ofNat_inj.mp h)
    rfl
  · cases hb (by omega)
  · cases ha (by omega)
  · cases U256.ext (Int.ofNat_inj.mp (neg_injective h))
    rfl

/-! ### Exact order amounts -/

/-- What the maker gives and what the taker gives. -/
structure PmOrderAmounts where
  maker : U256
  taker : U256
  deriving DecidableEq

variable (side : PmOrderSide)

/-- What an order costs. -/
def exactOrderAmounts (price : PmPrice) (quantity : PmQuantity) :
    Except PmNumericError PmOrderAmounts :=
  match quantity.protocolUnits.checkedDivRemU32 pmProtocolScale with
  | .error error => .error error
  | .ok (wholeShares, remainingShareUnits) =>
  match wholeShares.checkedMulU32 price.units with
  | .error error => .error error
  | .ok wholeCollateral =>
  let fractionalProduct := remainingShareUnits.toUInt64 * price.units.toUInt64
  let fractionalCollateral := fractionalProduct / pmProtocolScale.toUInt64
  let fractionalRemainder := fractionalProduct % pmProtocolScale.toUInt64
  if fractionalRemainder ≠ 0 then .error .nonIntegralOrderAmount
  else
  match wholeCollateral.checkedAdd (U256.fromU64 fractionalCollateral) with
  | .error error => .error error
  | .ok collateral =>
  if collateral.isZero then .error .nonIntegralOrderAmount
  else
  let shares := quantity.protocolUnits
  match side with
  | .buy => .ok ⟨collateral, shares⟩
  | .sell => .ok ⟨shares, collateral⟩

/-- The exact collateral of an order in millionths of a protocol unit. -/
def baseProduct (price : PmPrice) (units : U256) : ℕ := price.units.toNat * units.value

section

variable (price : PmPrice) (units : U256)

/-- The exact collateral is at most the number of shares. -/
theorem baseProduct_div_le : baseProduct price units / 1000000 ≤ units.value := by
  have hlt : price.units.toNat < 1000000 := price.lt_scale
  refine Nat.div_le_of_le_mul ?_
  exact Nat.mul_le_mul_right _ hlt.le

/-- Dividing the quantity first loses nothing: whole shares and the rest add up. -/
theorem baseProduct_split : baseProduct price units =
      1000000 * (units.value / 1000000 * price.units.toNat) +
        units.value % 1000000 * price.units.toNat := by
  unfold baseProduct
  conv_lhs => rw [← div_add_mod units.value 1000000]
  ring

/-- The product of the fractional part fits its 64 bits. -/
theorem toNat_fractionalProduct :
    ((UInt32.ofNat (units.value % 1000000)).toUInt64 * price.units.toUInt64).toNat =
      units.value % 1000000 * price.units.toNat := by
  have hmod : units.value % 1000000 < 1000000 := mod_lt _ (by decide)
  have hlt : price.units.toNat < 1000000 := price.lt_scale
  have hprod : units.value % 1000000 * price.units.toNat < 2 ^ 64 := by nlinarith
  rw [UInt64.toNat_mul, UInt32.toNat_toUInt64, UInt32.toNat_toUInt64,
    UInt32.toNat_ofNat_of_lt' (lt_trans hmod (by decide)), mod_eq_of_lt hprod]

end

/-- The amounts of an order whose collateral is `collateral`. -/
def orderAmounts (collateral shares : U256) : PmOrderAmounts :=
  match side with
  | .buy => ⟨collateral, shares⟩
  | .sell => ⟨shares, collateral⟩

/-- **Exact order amounts.** The amounts exist exactly when `price * quantity` is a positive
multiple of the protocol scale, and are then the exact quotient and the quantity. The only
error is the one for a product that is no whole amount. -/
theorem exactOrderAmounts_eq (price : PmPrice) (quantity : PmQuantity) :
    exactOrderAmounts side price quantity =
      if baseProduct price quantity.protocolUnits % 1000000 = 0 ∧
          baseProduct price quantity.protocolUnits ≠ 0 then
        .ok (orderAmounts side (.ofValue (baseProduct price quantity.protocolUnits / 1000000)
            (lt_of_le_of_lt (baseProduct_div_le _ _) quantity.protocolUnits.lt))
          quantity.protocolUnits) else .error .nonIntegralOrderAmount := by
  generalize huni : quantity.protocolUnits = units
  have hbd := units.lt
  have hspl := baseProduct_split price units
  have hle := baseProduct_div_le price units
  have hfrac := toNat_fractionalProduct price units
  have hdiv : units.checkedDivRemU32 pmProtocolScale =
      .ok (.ofValue (units.value / 1000000) (lt_of_le_of_lt (div_le_self _ _) units.lt),
        UInt32.ofNat (units.value % 1000000)) := U256.checkedDivRemU32_eq units (by decide)
  have hmul : units.value / 1000000 * price.units.toNat < 2 ^ 256 := by omega
  unfold exactOrderAmounts
  rw [huni, hdiv]
  simp only [U256.checkedMulU32_eq, U256.value_ofValue, dif_pos hmul]
  generalize (UInt32.ofNat (units.value % 1000000)).toUInt64 * price.units.toUInt64 = product at *
  have hquot : (product / pmProtocolScale.toUInt64).toNat = product.toNat / 1000000 :=
    UInt64.toNat_div _ _
  have hrem : (product % pmProtocolScale.toUInt64).toNat = product.toNat % 1000000 :=
    UInt64.toNat_mod _ _
  by_cases hmod : baseProduct price units % 1000000 = 0
  · have hzero : product % pmProtocolScale.toUInt64 = 0 := by
      rw [← UInt64.toNat_inj, hrem]
      exact (by omega : product.toNat % 1000000 = 0)
    have hadd : (U256.ofValue (units.value / 1000000 * price.units.toNat) hmul).checkedAdd
        (.fromU64 (product / pmProtocolScale.toUInt64)) =
          .ok (.ofValue (baseProduct price units / 1000000) (lt_of_le_of_lt hle hbd)) := by
      simp only [U256.checkedAdd_eq_ok_iff, U256.value_fromU64, U256.value_ofValue, hquot]
      omega
    rw [if_neg (not_not.mpr hzero), hadd]
    simp only [U256.isZero_iff, U256.value_ofValue]
    by_cases hprod : baseProduct price units = 0
    · rw [if_pos (by rw [hprod]), if_neg fun h => h.2 hprod]
    · rw [if_neg (by omega), if_pos ⟨hmod, hprod⟩]
      cases side <;> rfl
  · have hne : product % pmProtocolScale.toUInt64 ≠ 0 := by
      rw [ne_eq, ← UInt64.toNat_inj, hrem]
      exact (by omega : product.toNat % 1000000 ≠ 0)
    rw [if_pos hne, if_neg fun h => hmod h.1]

/-- **The amounts exist exactly if the scale divides `price * quantity`**, they are then exact, and
no other error is possible. -/
theorem exactOrderAmounts_exact (price : PmPrice) (quantity : PmQuantity) : (∃ collateral : U256,
      collateral.value * 1000000 = price.units.toNat * quantity.protocolUnits.value ∧
      0 < collateral.value ∧ exactOrderAmounts side price quantity =
        .ok (orderAmounts side collateral quantity.protocolUnits)) ∨
    (¬ 1000000 ∣ price.units.toNat * quantity.protocolUnits.value ∧
      exactOrderAmounts side price quantity = .error .nonIntegralOrderAmount) := by
  have hpos : 0 < baseProduct price quantity.protocolUnits :=
    mul_pos price.pos (pos_of_ne_zero quantity.ne_zero)
  rw [exactOrderAmounts_eq]
  by_cases hmod : baseProduct price quantity.protocolUnits % 1000000 = 0
  · have hexa : baseProduct price quantity.protocolUnits / 1000000 * 1000000 =
        baseProduct price quantity.protocolUnits := by omega
    rw [if_pos ⟨hmod, hpos.ne'⟩]
    refine .inl ⟨_, ?_, ?_, rfl⟩
    · rw [U256.value_ofValue]
      exact hexa
    · rw [U256.value_ofValue]
      omega
  · rw [if_neg fun h => hmod h.1]
    exact .inr ⟨fun hdvd => hmod (mod_eq_zero_of_dvd hdvd), rfl⟩

end Reap.Core
