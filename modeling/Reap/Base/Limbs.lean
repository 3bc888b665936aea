import Mathlib.Data.Nat.Basic
import Mathlib.Order.Compare
import Mathlib.Tactic.Linarith
import Mathlib.Tactic.LinearCombination
import Mathlib.Tactic.Ring

/-!
# Numbers as lists of 64-bit limbs

A long number is a list of limbs, the least one first. A loop over the limbs goes up with a carry
(sums, and products with a small factor) or a borrow (differences), or comes down with a remainder
(quotients by a small divisor). Double words have 128 bits, and are numbers here.

## What is proved

* `value_loop`, `value_mul`, `value_div` — what a loop computes: the limbs of the result and what is
  left over, against the numbers that went in.
* `cmp_eq` — the comparison from the top limb is the comparison of the numbers.
-/

namespace Reap.Base.Limbs

/-- The number that the limbs stand for. -/
def value : List UInt64 → ℕ
  | [] => 0
  | limb :: higher => limb.toNat + 2 ^ 64 * value higher

/-- The lowest limbs of a number. -/
def ofNat : ℕ → ℕ → List UInt64
  | 0, _ => []
  | count + 1, n => .ofNat n :: ofNat count (n / 2 ^ 64)

/-- `u64::overflowing_add`. -/
def overflowingAdd (a b : UInt64) : UInt64 × Bool := (a + b, 2 ^ 64 ≤ a.toNat + b.toNat)

/-- `u64::overflowing_sub`. -/
def overflowingSub (a b : UInt64) : UInt64 × Bool := (a - b, a.toNat < b.toNat)

/-- A loop up the limbs, with the carry or borrow that goes in and the one that comes out. -/
def loop (op : UInt64 → UInt64 → UInt64 × Bool) :
    Bool → List UInt64 → List UInt64 → List UInt64 × Bool
  | bit, a :: as, b :: bs =>
    let (part, first) := op a b
    let (limb, second) := op part bit.toUInt64
    let (result, out) := loop op (first || second) as bs
    (limb :: result, out)
  | bit, _, _ => ([], bit)

/-- The product with a small factor, with the carry that goes in and the one that comes out. -/
def mul (factor : UInt32) : ℕ → List UInt64 → List UInt64 × ℕ
  | carry, [] => ([], carry)
  | carry, a :: as =>
    let product := (a.toNat * factor.toNat + carry) % 2 ^ 128
    let (result, out) := mul factor (product >>> 64) as
    (.ofNat product :: result, out)

/-- The quotient by a small divisor and the remainder. The higher limbs come first. -/
def div (divisor : ℕ) : List UInt64 → List UInt64 × ℕ
  | [] => ([], 0)
  | a :: higher =>
    let (quotient, remainder) := div divisor higher
    let dividend := remainder <<< 64 % 2 ^ 128 ||| a.toNat
    (.ofNat (dividend / divisor) :: quotient, dividend % divisor)

/-- The comparison: the highest limbs that differ decide. -/
def cmp : List UInt64 → List UInt64 → Ordering
  | a :: as, b :: bs => (cmp as bs).then (compare a b)
  | _, _ => .eq

/-! ### Limbs and numbers -/

variable {as bs : List UInt64}

theorem value_lt (as : List UInt64) : value as < (2 ^ 64) ^ as.length := by
  induction as with
  | nil => exact Nat.one_pos
  | cons a as ih =>
    have hlimb := a.toNat_lt
    rw [value, List.length_cons, pow_succ' (2 ^ 64) as.length]
    omega

theorem value_injective (hlen : as.length = bs.length) (h : value as = value bs) : as = bs := by
  induction as generalizing bs with
  | nil => exact (List.eq_nil_of_length_eq_zero hlen.symm).symm
  | cons a as ih =>
    obtain ⟨b, bs, rfl⟩ := List.exists_cons_of_length_eq_add_one hlen.symm
    have ha := a.toNat_lt
    have hb := b.toNat_lt
    rw [value, value] at h
    rw [UInt64.toNat_inj.mp (by omega : a.toNat = b.toNat),
      ih (Nat.succ.inj hlen) (by omega : value as = value bs)]

theorem value_eq_zero_iff (as : List UInt64) : value as = 0 ↔ ∀ limb ∈ as, limb = 0 := by
  induction as with
  | nil => simp [value]
  | cons a as ih =>
    have hlimb : a.toNat = 0 ↔ a = 0 := UInt64.toNat_inj (b := 0)
    simp [value, ih, hlimb]

theorem length_ofNat (count n : ℕ) : (ofNat count n).length = count := by
  induction count generalizing n with
  | zero => rfl
  | succ _ ih => rw [ofNat, List.length_cons, ih]

theorem value_ofNat {count n : ℕ} (h : n < (2 ^ 64) ^ count) : value (ofNat count n) = n := by
  induction count generalizing n with
  | zero => exact (Nat.lt_one_iff.mp h).symm
  | succ count ih =>
    rw [pow_succ'] at h
    rw [ofNat, value, ih (Nat.div_lt_of_lt_mul h), UInt64.toNat_ofNat']
    exact Nat.mod_add_div n _

/-! ### The loops -/

/-- One round of a loop that adds or subtracts: the limb is the first limb with the other one and the
bit that goes in, up to the bit that comes out. -/
def Rounds (op : UInt64 → UInt64 → UInt64 × Bool) (sign : ℤ) : Prop :=
  ∀ (a b : UInt64) (bit : Bool), ((op (op a b).1 bit.toUInt64).1.toNat : ℤ) =
    a.toNat + sign * (b.toNat + bit.toNat -
      2 ^ 64 * ((op a b).2 || (op (op a b).1 bit.toUInt64).2).toNat)

theorem toNat_bit (bit : Bool) : bit.toNat = if bit = true then 1 else 0 := by cases bit <;> rfl

theorem rounds_add : Rounds overflowingAdd 1 := by
  intro a b bit
  have ha := a.toNat_lt
  have hb := b.toNat_lt
  cases bit <;> simp [overflowingAdd, Bool.toUInt64, toNat_bit] <;> split_ifs <;> omega

theorem rounds_sub : Rounds overflowingSub (-1) := by
  intro a b bit
  have ha := a.toNat_lt
  have hb := b.toNat_lt
  cases bit <;> simp [overflowingSub, UInt64.toNat_sub, Bool.toUInt64, toNat_bit] <;> split_ifs <;>
    omega

theorem length_loop (op : UInt64 → UInt64 → UInt64 × Bool) (bit : Bool)
    (hlen : as.length = bs.length) : (loop op bit as bs).1.length = as.length := by
  induction as generalizing bs bit with
  | nil => rfl
  | cons a as ih =>
    obtain ⟨b, bs, rfl⟩ := List.exists_cons_of_length_eq_add_one hlen.symm
    exact congrArg Nat.succ (ih _ (Nat.succ.inj hlen))

/-- **The sum or the difference**: the bit that comes out is what the limbs cannot hold, or lack. -/
theorem value_loop {op : UInt64 → UInt64 → UInt64 × Bool} {sign : ℤ} (hop : Rounds op sign)
    (bit : Bool) (hlen : as.length = bs.length) : (value (loop op bit as bs).1 : ℤ) = value as +
      sign * (value bs + bit.toNat - (2 ^ 64) ^ as.length * (loop op bit as bs).2.toNat) := by
  induction as generalizing bs bit with
  | nil =>
    cases List.eq_nil_of_length_eq_zero hlen.symm
    simp [loop, value]
  | cons a as ih =>
    obtain ⟨b, bs, rfl⟩ := List.exists_cons_of_length_eq_add_one hlen.symm
    have hround := hop a b bit
    have hrest := ih ((op a b).2 || (op (op a b).1 bit.toUInt64).2) (Nat.succ.inj hlen)
    simp only [loop, value, List.length_cons, pow_succ' (2 ^ 64 : ℤ) as.length]
    push_cast
    linear_combination hround + 2 ^ 64 * hrest

theorem length_mul (factor : UInt32) (carry : ℕ) (as : List UInt64) :
    (mul factor carry as).1.length = as.length := by
  induction as generalizing carry with
  | nil => rfl
  | cons _ _ ih => exact congrArg Nat.succ (ih _)

/-- **The product**: the double words are wide enough, since the carry stays below `2 ^ 32`. -/
theorem value_mul (factor : UInt32) (as : List UInt64) {carry : ℕ} (hcarry : carry < 2 ^ 32) :
    value (mul factor carry as).1 + (2 ^ 64) ^ as.length * (mul factor carry as).2 =
      value as * factor.toNat + carry := by
  induction as generalizing carry with
  | nil => simp [mul, value]
  | cons a as ih =>
    have hlimb := Nat.le_sub_one_of_lt a.toNat_lt
    have hfactor := Nat.le_sub_one_of_lt factor.toNat_lt
    have hle := Nat.mul_le_mul hlimb hfactor
    have hfits : a.toNat * factor.toNat + carry < 2 ^ 96 := by omega
    have hcarry' : (a.toNat * factor.toNat + carry) / 2 ^ 64 < 2 ^ 32 := by omega
    have hrest := ih hcarry'
    have hsplit := Nat.mod_add_div (a.toNat * factor.toNat + carry) (2 ^ 64)
    simp only [mul, value, List.length_cons, pow_succ' (2 ^ 64) as.length,
      Nat.shiftRight_eq_div_pow,
      Nat.mod_eq_of_lt (hfits.trans (by decide : 2 ^ 96 < 2 ^ 128)), UInt64.toNat_ofNat']
    linarith

theorem length_div (divisor : ℕ) (as : List UInt64) : (div divisor as).1.length = as.length := by
  induction as with
  | nil => rfl
  | cons _ _ ih => exact congrArg Nat.succ ih

/-- **The quotient and the remainder**: no limb of the quotient is cut off, since the remainder of
the higher limbs is below the divisor. -/
theorem value_div {divisor : ℕ} (hpos : 0 < divisor) (hle : divisor ≤ 2 ^ 32) (as : List UInt64) :
    divisor * value (div divisor as).1 + (div divisor as).2 = value as ∧
      (div divisor as).2 < divisor := by
  induction as with
  | nil => exact ⟨rfl, hpos⟩
  | cons a higher ih =>
    obtain ⟨hvalue, hlt⟩ := ih
    have hlimb := a.toNat_lt
    have hdividend : (div divisor higher).2 <<< 64 % 2 ^ 128 ||| a.toNat =
        2 ^ 64 * (div divisor higher).2 + a.toNat := by
      rw [Nat.mod_eq_of_lt, ← Nat.shiftLeft_add_eq_or_of_lt hlimb, Nat.shiftLeft_eq, mul_comm]
      rw [Nat.shiftLeft_eq]
      omega
    have hquotient : (2 ^ 64 * (div divisor higher).2 + a.toNat) / divisor < 2 ^ 64 := by
      refine Nat.div_lt_of_lt_mul ?_
      nlinarith
    have hsplit := Nat.div_add_mod (2 ^ 64 * (div divisor higher).2 + a.toNat) divisor
    simp only [div, hdividend, value, UInt64.toNat_ofNat', Nat.mod_eq_of_lt hquotient]
    exact ⟨by linarith, Nat.mod_lt _ hpos⟩

/-- **The comparison** from the top limb is that of the numbers. -/
theorem cmp_eq (hlen : as.length = bs.length) : cmp as bs = compare (value as) (value bs) := by
  induction as generalizing bs with
  | nil =>
    cases List.eq_nil_of_length_eq_zero hlen.symm
    rfl
  | cons a as ih =>
    obtain ⟨b, bs, rfl⟩ := List.exists_cons_of_length_eq_add_one hlen.symm
    have ha := a.toNat_lt
    have hb := b.toNat_lt
    rw [cmp, ih (Nat.succ.inj hlen), value, value]
    rcases lt_trichotomy (value as) (value bs) with hlt | heq | hgt
    · rw [compare_lt_iff_lt.mpr hlt, compare_lt_iff_lt.mpr (by omega)]
      rfl
    · rw [heq, compare_eq_iff_eq.mpr rfl]
      show compareOfLessAndEq a b = compareOfLessAndEq _ _
      simp [compareOfLessAndEq, UInt64.lt_iff_toNat_lt, ← UInt64.toNat_inj]
    · rw [compare_gt_iff_gt.mpr hgt, compare_gt_iff_gt.mpr (by omega)]
      rfl

end Reap.Base.Limbs
