import Mathlib.Order.Compare
import Mathlib.Order.Lattice
import Mathlib.Data.List.Basic

/-!
# Binary search

The stores of the repository keep sorted vectors and look them up with the standard
library's `slice::binary_search_by` and `binary_search_by_key`. This module gives that
algorithm, as the library runs it, and says what it returns on a vector whose keys
strictly increase.

## The model

A vector is a list. The comparator may panic (it indexes another vector, or it unwraps
an optional key), so it is partial, and so is the search: `none` is a panic. What the
search returns is `Except ℕ ℕ`, the library's `Result<usize, usize>`: `.ok i` when an
element that compares equal stands at `i`, `.error i` when there is none and `i` is where
it would be inserted.

## What is proved

* `binarySearchByKey_cases` — on a vector whose elements all have a key, strictly
  increasing, the search does not panic; it finds the key, or gives the position that
  separates the smaller keys from the larger.
-/

namespace Reap.Base

universe u v

open List Option Nat

variable {α : Type u} {κ : Type v} [LinearOrder κ]

/-! ### The algorithm -/

section

variable (key : α → Option κ) (k : κ)

/-- The loop of `binary_search_by`: halve `[base, base + size)` until one element is left.
The loop has no early exit on equality. -/
def searchLoop (probe : ℕ → Option Ordering) : ℕ → ℕ → ℕ → Option ℕ
  | 0, base, _ => some base
  | fuel + 1, base, size =>
    if size ≤ 1 then some base
    else
      match probe (base + size / 2) with
      | none => none
      | some .gt => searchLoop probe fuel base (size - size / 2)
      | some _ => searchLoop probe fuel (base + size / 2) (size - size / 2)

/-- `slice::binary_search_by`. -/
def binarySearchBy (cmp : α → Option Ordering) (xs : List α) : Option (Except ℕ ℕ) :=
  if xs.length = 0 then some (.error 0)
  else
    match searchLoop (fun i => xs[i]?.bind cmp) xs.length 0 xs.length with
    | none => none
    | some base =>
      match xs[base]?.bind cmp with
      | none => none
      | some .eq => some (.ok base)
      | some .lt => some (.error (base + 1))
      | some .gt => some (.error base)

/-- `slice::binary_search_by_key`, with a key function that may panic. -/
def binarySearchByKey (xs : List α) : Option (Except ℕ ℕ) :=
  binarySearchBy (fun x => (key x).map fun a => compare a k) xs

/-! ### Sorted vectors -/

/-- Both elements have a key, and the first's is smaller. -/
def KeyLt (x y : α) : Prop := ∃ a b, key x = some a ∧ key y = some b ∧ a < b

/-- The element has a key below `k`. -/
def Below (x : α) : Prop := ∃ a, key x = some a ∧ a < k

/-- The element has a key above `k`. -/
def Above (x : α) : Prop := ∃ a, key x = some a ∧ k < a

end

variable {key : α → Option κ} {k a : κ} {x y : α} {xs : List α} {p i : ℕ}

theorem KeyLt.key_ne (h : KeyLt key x y) : key x ≠ key y := by
  obtain ⟨a, b, ha, hb, hlt⟩ := h
  rw [ha, hb]
  exact fun he => absurd (some.inj he) hlt.ne

theorem Below.not_eq (h : Below key k x) : key x ≠ some k := by
  obtain ⟨a, ha, hlt⟩ := h
  rw [ha]
  exact fun he => absurd (some.inj he) hlt.ne

theorem Above.not_eq (h : Above key k x) : key x ≠ some k := by
  obtain ⟨a, ha, hlt⟩ := h
  rw [ha]
  exact fun he => absurd (some.inj he) hlt.ne'

/-- What stands before an element whose key is at most `k` is below `k`. -/
theorem below_of_keyLt (h : KeyLt key x y) (hy : key y = some a) (ha : a ≤ k) : Below key k x := by
  obtain ⟨b, c, hb, hc, hlt⟩ := h
  rw [hy, some.injEq] at hc
  exact ⟨b, hb, lt_of_lt_of_le (hc ▸ hlt) ha⟩

/-- What stands after an element whose key is at least `k` is above `k`. -/
theorem above_of_keyLt (h : KeyLt key x y) (hx : key x = some a) (ha : k ≤ a) : Above key k y := by
  obtain ⟨b, c, hb, hc, hlt⟩ := h
  rw [hx, some.injEq] at hb
  exact ⟨c, hc, lt_of_le_of_lt ha (hb ▸ hlt)⟩

/-- A vector is sorted when its positions are. -/
theorem pairwise_iff_getElem? {R : α → α → Prop} : xs.Pairwise R ↔
      ∀ (i j : ℕ) x y, i < j → xs[i]? = some x → xs[j]? = some y → R x y := by
  rw [List.pairwise_iff_getElem]
  constructor
  · intro h i j x y hij hx hy
    obtain ⟨hi, rfl⟩ := List.getElem?_eq_some_iff.mp hx
    obtain ⟨hj, rfl⟩ := List.getElem?_eq_some_iff.mp hy
    exact h i j hi hj hij
  · intro h i j hi hj hij
    exact h i j _ _ hij (List.getElem?_eq_getElem hi) (List.getElem?_eq_getElem hj)

/-- Position `p` separates the keys below `k` from the keys above it. -/
structure Splits (key : α → Option κ) (k : κ) (xs : List α) (p : ℕ) : Prop where
  le_length : p ≤ xs.length
  below : ∀ i x, i < p → xs[i]? = some x → Below key k x
  above : ∀ i x, p ≤ i → xs[i]? = some x → Above key k x

/-- A key that splits the vector is not in it. -/
theorem Splits.key_ne (h : Splits key k xs p) (hx : x ∈ xs) : key x ≠ some k := by
  obtain ⟨i, hi⟩ := mem_iff_getElem?.mp hx
  rcases lt_or_ge i p with hlt | hge
  · exact (h.below i x hlt hi).not_eq
  · exact (h.above i x hge hi).not_eq

/-- Insertion where the key splits the vector keeps it sorted. -/
theorem Splits.pairwise_insertIdx (h : Splits key k xs p) (hs : xs.Pairwise (KeyLt key))
    (hy : key y = some k) : (xs.insertIdx p y).Pairwise (KeyLt key) := by
  rw [pairwise_iff_getElem?] at hs ⊢
  intro i j x z hij hx hz
  rw [getElem?_insertIdx] at hx hz
  split_ifs at hx hz <;> try omega
  · exact hs i j x z hij hx hz
  · obtain ⟨a, ha, hlt⟩ := h.below i x (by omega) hx
    exact ⟨a, k, ha, by rw [← some.inj hz]; exact hy, hlt⟩
  · exact hs i (j - 1) x z (by omega) hx hz
  · obtain ⟨a, ha, hlt⟩ := h.above (j - 1) z (by omega) hz
    exact ⟨k, a, by rw [← some.inj hx]; exact hy, ha, hlt⟩
  · exact hs (i - 1) (j - 1) x z (by omega) hx hz

/-- Removing an element moves the split by one if the element stood before it. -/
theorem Splits.eraseIdx {q : ℕ} (h : Splits key k xs q) (hp : p < xs.length) :
    Splits key k (xs.eraseIdx p) (if p < q then q - 1 else q) where
  le_length := by
    have hle := h.le_length
    rw [length_eraseIdx_of_lt hp]
    split_ifs <;> omega
  below := by
    intro i x hi hx
    rw [getElem?_eraseIdx] at hx
    split_ifs at hi hx
    · exact h.below i x (by omega) hx
    · exact h.below (i + 1) x (by omega) hx
    · exact h.below i x hi hx
    · omega
  above := by
    intro i x hi hx
    rw [getElem?_eraseIdx] at hx
    split_ifs at hi hx
    · omega
    · exact h.above (i + 1) x (by omega) hx
    · exact h.above i x hi hx
    · exact h.above (i + 1) x (by omega) hx

/-- An element may be replaced by one with the same image. -/
theorem map_set_of_eq {β : Type*} {f : α → β} (hx : xs[i]? = some x) (h : f y = f x) :
    (xs.set i y).map f = xs.map f := by
  rw [map_set, h]
  refine ext_getElem? fun j => ?_
  rw [getElem?_set]
  split_ifs with hij hlt
  · rw [← hij, getElem?_map, hx, map_some]
  · rw [← hij, getElem?_eq_none (Nat.le_of_not_lt hlt)]
  · rfl

/-- An element may be replaced by one with the same key. -/
theorem pairwise_keyLt_set (hs : xs.Pairwise (KeyLt key)) (hx : xs[i]? = some x)
    (hkey : key y = key x) : (xs.set i y).Pairwise (KeyLt key) := by
  have hmap : ((xs.set i y).map key).Pairwise (KeyLt id) := by
    rw [map_set_of_eq hx hkey]
    exact pairwise_map.mpr hs
  exact (pairwise_map (R := KeyLt id)).mp hmap

/-- A sorted vector has one element for each key. -/
theorem eq_of_key_eq (hs : xs.Pairwise (KeyLt key)) {j : ℕ} (hx : xs[i]? = some x)
    (hy : xs[j]? = some y) (hkey : key x = key y) : i = j := by
  rcases lt_trichotomy i j with hlt | heq | hlt
  · exact absurd hkey (pairwise_iff_getElem?.mp hs i j x y hlt hx hy).key_ne
  · exact heq
  · exact absurd hkey.symm (pairwise_iff_getElem?.mp hs j i y x hlt hy hx).key_ne

/-- An inserted element that a filter leaves out does not change what the filter keeps. -/
theorem filter_insertIdx_of_neg {p : α → Bool} (hy : p y = false) :
    (xs.insertIdx i y).filter p = xs.filter p := by
  induction xs generalizing i with
  | nil => cases i <;> simp [hy]
  | cons _ _ ih =>
    cases i with
    | zero => rw [insertIdx_zero, filter_cons_of_neg (by simp [hy])]
    | succ => rw [insertIdx_succ_cons, filter_cons, filter_cons, ih]

/-- To replace an element by one that a filter leaves out is to leave it out. -/
theorem filter_set_of_neg {p q : α → Bool} (hx : xs[i]? = some x) (hy : p y = false)
    (hqx : q x = false) (hrest : ∀ j z, j ≠ i → xs[j]? = some z → p z = q z) :
    (xs.set i y).filter p = xs.filter q := by
  induction xs generalizing i with
  | nil => rfl
  | cons z _ ih =>
    cases i with
    | zero =>
      cases hx
      rw [set_cons_zero, filter_cons_of_neg (by simp [hy]), filter_cons_of_neg (by simp [hqx])]
      refine filter_congr fun z hz => ?_
      obtain ⟨j, hj⟩ := mem_iff_getElem?.mp hz
      exact hrest (j + 1) z (succ_ne_zero j) hj
    | succ i =>
      have htail := ih hx fun j z hj hz => hrest (j + 1) z (fun h => hj (succ.inj h)) hz
      rw [set_cons_succ, filter_cons, filter_cons, htail, hrest 0 z (succ_ne_zero i).symm rfl]

/-! ### What the search returns -/

/-- What the loop keeps: what stands before `base` is below `k`, and what stands from
`base + size` on is above it. -/
structure Bounds (key : α → Option κ) (k : κ) (xs : List α) (base size : ℕ) : Prop where
  size_pos : 1 ≤ size
  le_length : base + size ≤ xs.length
  below : ∀ i x, i < base → xs[i]? = some x → Below key k x
  above : ∀ i x, base + size ≤ i → xs[i]? = some x → Above key k x

theorem Bounds.start (key : α → Option κ) (k : κ) (h : xs ≠ []) : Bounds key k xs 0 xs.length where
  size_pos := length_pos_iff.mpr h
  le_length := by omega
  below := by intro i x hi; omega
  above := by
    intro i x hi hx
    rw [getElem?_eq_none (by omega)] at hx
    cases hx

section

variable {base size : ℕ} (h : Bounds key k xs base size) (hs : xs.Pairwise (KeyLt key))
  (hsize : 1 < size) (hx : xs[base + size / 2]? = some x) (ha : key x = some a)

include h hs hsize hx ha

/-- The probe was above `k`: the upper half goes. -/
theorem Bounds.lower (hk : k < a) : Bounds key k xs base (size - size / 2) where
  size_pos := by omega
  le_length := by have := h.le_length; omega
  below := h.below
  above := by
    intro i y hi hy
    rcases lt_or_ge (base + size / 2) i with hlt | hge
    · exact above_of_keyLt (pairwise_iff_getElem?.mp hs _ _ _ _ hlt hx hy) ha hk.le
    · -- `size - size / 2` is at least `size / 2`, so only the probe itself is left
      have hi' : i = base + size / 2 := by omega
      rw [hi', hx, some.injEq] at hy
      exact ⟨a, hy ▸ ha, hk⟩

/-- The probe was at most `k`: the lower half goes. -/
theorem Bounds.upper (hk : a ≤ k) : Bounds key k xs (base + size / 2) (size - size / 2) where
  size_pos := by omega
  le_length := by have := h.le_length; omega
  below := fun _ _ hi hy => below_of_keyLt (pairwise_iff_getElem?.mp hs _ _ _ _ hi hy hx) ha hk
  above := by
    intro i y hi hy
    exact h.above i y (by omega) hy

end

section

variable (hs : xs.Pairwise (KeyLt key)) (hdef : ∀ x ∈ xs, ∃ a, key x = some a)

include hs hdef

/-- The loop ends on one element that has everything smaller before it and everything
larger after it. -/
theorem searchLoop_bounds : ∀ (fuel base size : ℕ), size ≤ fuel → Bounds key k xs base size →
      ∃ b, searchLoop (fun i => xs[i]?.bind fun x => (key x).map fun a => compare a k)
          fuel base size = some b ∧ Bounds key k xs b 1 := by
  intro fuel
  induction fuel with
  | zero => intro base size hf h; have := h.size_pos; omega
  | succ _ ih =>
    intro base size hf h
    rw [searchLoop]
    split_ifs with hsize
    · have hone : size = 1 := by have := h.size_pos; omega
      exact ⟨base, rfl, hone ▸ h⟩
    · have hlt : base + size / 2 < xs.length := by have := h.le_length; omega
      have hx : xs[base + size / 2]? = some xs[base + size / 2] := getElem?_eq_getElem hlt
      obtain ⟨a, ha⟩ := hdef _ (getElem_mem hlt)
      simp only [hx, bind_some, ha, map_some]
      rcases hc : compare a k with _ | _ | _
      · exact ih _ _ (by omega) (h.upper hs (by omega) hx ha (compare_lt_iff_lt.mp hc).le)
      · exact ih _ _ (by omega) (h.upper hs (by omega) hx ha (compare_eq_iff_eq.mp hc).le)
      · exact ih _ _ (by omega) (h.lower hs (by omega) hx ha (compare_gt_iff_gt.mp hc))

/-- **The search on a sorted vector**: it does not panic, it finds the key where there is
one, and where there is none it gives the position that separates the smaller keys from
the larger. -/
theorem binarySearchByKey_cases (k : κ) :
    (∃ i x, binarySearchByKey key k xs = some (.ok i) ∧ xs[i]? = some x ∧ key x = some k) ∨
    (∃ i, binarySearchByKey key k xs = some (.error i) ∧ Splits key k xs i) := by
  by_cases hnil : xs.length = 0
  · rw [length_eq_zero_iff] at hnil
    subst hnil
    exact .inr ⟨0, rfl, by simp, by simp, by simp⟩
  obtain ⟨b, hb, hbou⟩ := searchLoop_bounds hs hdef xs.length 0 xs.length (le_refl _)
    (Bounds.start key k (mt length_eq_zero_iff.mpr hnil))
  have hlt : b < xs.length := by have := hbou.le_length; omega
  have hx : xs[b]? = some xs[b] := getElem?_eq_getElem hlt
  obtain ⟨a, ha⟩ := hdef _ (getElem_mem hlt)
  have hat : ∀ x, xs[b]? = some x → key x = some a := by
    intro x hx'
    rw [hx, some.injEq] at hx'
    rw [← hx', ha]
  rcases hc : compare a k with _ | _ | _
  · -- the last element standing is below `k`: insert after it
    refine .inr ⟨b + 1, ?_, by omega, fun i x hi hx' => ?_, hbou.above⟩
    · simp [binarySearchByKey, binarySearchBy, hnil, hb, hx, ha, hc]
    · rcases Nat.lt_succ_iff_lt_or_eq.mp hi with hi | rfl
      · exact hbou.below i x hi hx'
      · exact ⟨a, hat x hx', compare_lt_iff_lt.mp hc⟩
  · refine .inl ⟨b, xs[b], ?_, hx, by rw [ha, compare_eq_iff_eq.mp hc]⟩
    simp [binarySearchByKey, binarySearchBy, hnil, hb, hx, ha, hc]
  · refine .inr ⟨b, ?_, by omega, hbou.below, fun i x hi hx' => ?_⟩
    · simp [binarySearchByKey, binarySearchBy, hnil, hb, hx, ha, hc]
    · rcases eq_or_lt_of_le hi with rfl | hi
      · exact ⟨a, hat x hx', compare_gt_iff_gt.mp hc⟩
      · exact hbou.above i x (by omega) hx'

end

/-- The search by a key that every element has. -/
theorem binarySearchByKey_total {key : α → κ} (hs : xs.Pairwise (KeyLt fun x => some (key x)))
    (k : κ) :
    (∃ i x, binarySearchByKey (fun x => some (key x)) k xs = some (.ok i) ∧ xs[i]? = some x ∧
      key x = k) ∨ (∃ i, binarySearchByKey (fun x => some (key x)) k xs = some (.error i) ∧
      Splits (fun x => some (key x)) k xs i) := by
  simpa only [some.injEq] using binarySearchByKey_cases hs (fun x _ => ⟨key x, rfl⟩) k

end Reap.Base
