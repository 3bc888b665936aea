import Reap.Base.DenseIndex
import Reap.Base.Run
import Reap.Book.Contract
import Mathlib.Data.List.Sort

/-!
# The levels of a book

The canonical order of the levels of a book: bids first, by decreasing price, then asks, by
increasing price. So the first bid is the best bid, and the first ask is the best ask. A
snapshot is sorted into that order; a price change finds its level by binary search.

## What is proved

* `validateAndSortLevels_ok` — the levels that pass are strictly sorted, positive and on the
  tick, and have two sides that are not crossed.
* `canonicalTop_spec` — the top of sorted levels is the greatest bid and the least ask.
* `applyChange_canonical` — a price change does not abort and keeps the levels sorted.
-/

namespace Reap.Book

open Base Reap.Core List

/-! ### The order -/

/-- `BookKey`. -/
structure BookKey where
  side : PmBookSide
  price : PmPrice
  deriving DecidableEq

/-- Bids before asks; bids by decreasing price, asks by increasing price. -/
def BookKey.rank (key : BookKey) : ℕ ×ₗ ℕ :=
  match key.side with
  | .bid => toLex (0, pmProtocolScale.toNat - key.price.units.toNat)
  | .ask => toLex (1, key.price.units.toNat)

theorem BookKey.rank_injective : Function.Injective BookKey.rank := by
  rintro ⟨a, p⟩ ⟨b, q⟩ h
  have hpri : p.units.toNat = q.units.toNat → p = q := fun heq => le_antisymm heq.le heq.ge
  have hp := p.lt_scale
  cases a <;> cases b <;> simp only [BookKey.rank, EmbeddingLike.apply_eq_iff_eq, Prod.mk.injEq,
    true_and] at h
  · rw [hpri (by omega)]
  · exact absurd h.1 (by decide)
  · exact absurd h.1 (by decide)
  · rw [hpri h]

instance : LinearOrder BookKey := LinearOrder.lift' BookKey.rank BookKey.rank_injective

/-- `compare_keys`. -/
def compareKeys (left right : BookKey) : Ordering :=
  match left.side, right.side with
  | .bid, .ask => .lt
  | .ask, .bid => .gt
  | .bid, .bid => compare right.price left.price
  | .ask, .ask => compare left.price right.price

theorem BookKey.lt_iff {a b : BookKey} : a < b ↔ a.rank < b.rank := Iff.rfl

theorem bid_lt_bid {p q : PmPrice} : (⟨.bid, p⟩ : BookKey) < ⟨.bid, q⟩ ↔ q < p := by
  have hp := p.lt_scale
  rw [BookKey.lt_iff, PmPrice.lt_iff]
  simp only [BookKey.rank, Prod.Lex.toLex_lt_toLex, lt_irrefl, true_and, false_or]
  omega

theorem ask_lt_ask {p q : PmPrice} : (⟨.ask, p⟩ : BookKey) < ⟨.ask, q⟩ ↔ p < q := by
  rw [BookKey.lt_iff, PmPrice.lt_iff]
  simp [BookKey.rank, Prod.Lex.toLex_lt_toLex]

theorem bid_lt_ask (p q : PmPrice) : (⟨.bid, p⟩ : BookKey) < ⟨.ask, q⟩ := by
  rw [BookKey.lt_iff]
  simp [BookKey.rank, Prod.Lex.toLex_lt_toLex]

/-- The source's comparison is the one of the order. -/
theorem compareKeys_eq (left right : BookKey) : compareKeys left right = compare left right := by
  obtain ⟨a, p⟩ := left
  obtain ⟨b, q⟩ := right
  cases a <;> cases b
  · unfold compareKeys
    rcases lt_trichotomy p q with h | rfl | h
    · rw [compare_gt_iff_gt.mpr h, compare_gt_iff_gt.mpr (bid_lt_bid.mpr h)]
    · rw [compare_eq_iff_eq.mpr rfl, compare_eq_iff_eq.mpr rfl]
    · rw [compare_lt_iff_lt.mpr h, compare_lt_iff_lt.mpr (bid_lt_bid.mpr h)]
  · exact (compare_lt_iff_lt.mpr (bid_lt_ask p q)).symm
  · exact (compare_gt_iff_gt.mpr (bid_lt_ask q p)).symm
  · unfold compareKeys
    rcases lt_trichotomy p q with h | rfl | h
    · rw [compare_lt_iff_lt.mpr h, compare_lt_iff_lt.mpr (ask_lt_ask.mpr h)]
    · rw [compare_eq_iff_eq.mpr rfl, compare_eq_iff_eq.mpr rfl]
    · rw [compare_gt_iff_gt.mpr h, compare_gt_iff_gt.mpr (ask_lt_ask.mpr h)]

/-! ### The functions on levels -/

section

variable (level : PmBookLevel) (levels : List PmBookLevel) (tick : PmTick)

/-- The key of a level. -/
def levelKey : BookKey := ⟨level.side, level.price⟩

/-- The level comes before another, or has its key. -/
def levelLe (left right : PmBookLevel) : Prop := compareKeys (levelKey left) (levelKey right) ≠ .gt

instance : DecidableRel levelLe := fun _ _ => inferInstanceAs (Decidable (_ ≠ _))

/-- `same_key`. -/
def sameKey (left right : PmBookLevel) : Bool :=
  left.side == right.side && left.price == right.price

/-- The price of the best level of a side, if the side comes in the canonical order. -/
def bestPrice (side : PmBookSide) (levels : List PmBookLevel) : Option PmPrice :=
  (levels.find? (·.side == side)).map (·.price)

/-- `canonical_top`. -/
def canonicalTop : Except PmPublicReadinessReason (PmPrice × PmPrice) :=
  match bestPrice .bid levels, bestPrice .ask levels with
  | some bid, some ask => if ask ≤ bid then .error .crossedBook else .ok (bid, ask)
  | _, _ => .error .emptyBook

/-- Two neighbours have the same key. -/
def hasDuplicate : List PmBookLevel → Bool
  | a :: b :: levels => sameKey a b || hasDuplicate (b :: levels)
  | _ => false

/-- The check of one level. -/
def validateLevel (snapshot : Bool) (level : PmBookLevel) : Except PmPublicReadinessReason Unit :=
  if snapshot = true ∧ level.quantity = .delete then .error .deleteInSnapshot
  else if level.quantity = .delete then .error .invalidTransition
  else
    match level.price.validateTick tick with
    | .error _ => .error .priceOffTick
    | .ok _ => .ok ()

/-- The first level that fails its check. -/
def validateLevels (tick : PmTick) (snapshot : Bool) :
    List PmBookLevel → Except PmPublicReadinessReason Unit
  | [] => .ok ()
  | level :: levels =>
    match validateLevel tick snapshot level with
    | .error reason => .error reason
    | .ok () => validateLevels tick snapshot levels

/-- `validate_and_sort_levels`, with the levels as it leaves them. Levels with the same key, which
an unstable sort leaves in any order, are refused. -/
def validateAndSortLevels (snapshot : Bool) :
    Except PmPublicReadinessReason Unit × List PmBookLevel :=
  if maxPmBookLevels < levels.length then (.error .tooManyLevels, levels)
  else
  match validateLevels tick snapshot levels with
  | .error reason => (.error reason, levels)
  | .ok () =>
  let sorted := levels.insertionSort levelLe
  if hasDuplicate sorted then (.error .duplicateLevel, sorted)
  else
    match canonicalTop sorted with
    | .error reason => (.error reason, sorted)
    | .ok _ => (.ok (), sorted)

/-- A reply of the book: a value, or the reason why there is none. -/
abbrev Reply (α : Type) := Outcome PmPublicReadinessReason α

/-- The key of a level, for a search. -/
def searchKey : Option BookKey := some (levelKey level)

/-- `apply_change`. -/
def applyChange (change : PmBookLevel) : Reply (List PmBookLevel) :=
  match binarySearchBy (fun level => some (compareKeys (levelKey level) (levelKey change))) levels with
  | none => .panic
  | some (.ok index) =>
    if change.quantity = .delete then
      match removeAt levels index with
      | none => .panic
      | some levels => .ok levels
    else .ok (levels.set index change)
  | some (.error index) =>
    if change.quantity = .delete then .err .missingDeleteLevel
    else if levels.length = maxPmBookLevels then .err .tooManyLevels
    else
      match insertAt levels index change with
      | none => .panic
      | some levels => .ok levels

end

/-! ### Sorted levels -/

variable {left right : PmBookLevel}

theorem levelLe_iff : levelLe left right ↔ levelKey left ≤ levelKey right := by
  rw [levelLe, compareKeys_eq, ne_eq, compare_gt_iff_gt, not_lt]

instance : Std.Total levelLe := ⟨fun a b => by
  rw [levelLe_iff, levelLe_iff]
  exact le_total _ _⟩

instance : IsTrans PmBookLevel levelLe := ⟨fun a b c => by
  rw [levelLe_iff, levelLe_iff, levelLe_iff]
  exact le_trans⟩

theorem sameKey_iff : sameKey left right = true ↔ levelKey left = levelKey right := by
  simp [sameKey, levelKey]

/-- Every level comes before the ones after it. -/
def Sorted (levels : List PmBookLevel) : Prop :=
  levels.Pairwise fun a b => levelKey a < levelKey b

theorem keyLt_searchKey {a b : PmBookLevel} : KeyLt searchKey a b ↔ levelKey a < levelKey b := by
  constructor
  · rintro ⟨_, _, ⟨⟩, ⟨⟩, hlt⟩
    exact hlt
  · exact fun hlt => ⟨_, _, rfl, rfl, hlt⟩

variable {levels : List PmBookLevel}

theorem pairwise_searchKey : levels.Pairwise (KeyLt searchKey) ↔ Sorted levels :=
  ⟨List.Pairwise.imp keyLt_searchKey.mp, List.Pairwise.imp keyLt_searchKey.mpr⟩

theorem sorted_of_hasDuplicate (hle : levels.Pairwise levelLe)
    (hdup : hasDuplicate levels = false) :
    Sorted levels := by
  have hch : levels.IsChain fun a b => levelKey a < levelKey b := by
    induction levels with
    | nil => exact .nil
    | cons a levels ih =>
      cases levels with
      | nil => exact .singleton a
      | cons b =>
        rw [hasDuplicate, Bool.or_eq_false_iff, ← Bool.not_eq_true, sameKey_iff] at hdup
        obtain ⟨hhead, htail⟩ := pairwise_cons.mp hle
        have hab := levelLe_iff.mp (hhead b (.head _))
        exact .cons_cons (lt_of_le_of_ne hab hdup.1) (ih htail hdup.2)
  exact isChain_iff_pairwise.mp hch

/-! ### The top -/

/-- The best price of a side: the price of a level, and no other level of the side is better. -/
structure IsBest (side : PmBookSide) (levels : List PmBookLevel) (price : PmPrice) : Prop where
  mem : ∃ level ∈ levels, level.side = side ∧ level.price = price
  best : ∀ level ∈ levels, level.side = side → match side with
    | .bid => level.price ≤ price
    | .ask => price ≤ level.price

theorem isBest_of_bestPrice {side : PmBookSide} {price : PmPrice} (hs : Sorted levels)
    (h : bestPrice side levels = some price) : IsBest side levels price := by
  obtain ⟨x, hfind, rfl⟩ := Option.map_eq_some_iff.mp h
  obtain ⟨hside, front, back, rfl, hfro⟩ := find?_eq_some_iff_append.mp hfind
  have hx : x.side = side := beq_iff_eq.mp hside
  refine ⟨⟨x, by simp, hx, rfl⟩, fun y hy hysi => ?_⟩
  rcases mem_append.mp hy with hin | hin
  · have hne := hfro y hin
    simp [hysi] at hne
  rcases mem_cons.mp hin with rfl | hin
  · cases side <;> exact le_refl _
  -- the level stands after the best one
  have hlt := (pairwise_cons.mp (pairwise_append.mp hs).2.1).1 y hin
  rw [levelKey, levelKey, hx, hysi] at hlt
  cases side with
  | bid => exact (bid_lt_bid.mp hlt).le
  | ask => exact (ask_lt_ask.mp hlt).le

theorem bestPrice_of_canonicalTop {bid ask : PmPrice} (h : canonicalTop levels = .ok (bid, ask)) :
    bestPrice .bid levels = some bid ∧ bestPrice .ask levels = some ask ∧ bid < ask := by
  unfold canonicalTop at h
  split at h
  · next hbid hask =>
    split_ifs at h with hcro
    cases h
    exact ⟨hbid, hask, not_le.mp hcro⟩
  · cases h

/-- **The top of sorted levels** is the greatest bid and the least ask, and they are not
crossed. -/
theorem canonicalTop_spec (hs : Sorted levels) {bid ask : PmPrice}
    (h : canonicalTop levels = .ok (bid, ask)) :
    IsBest .bid levels bid ∧ IsBest .ask levels ask ∧ bid < ask := by
  obtain ⟨hbid, hask, hlt⟩ := bestPrice_of_canonicalTop h
  exact ⟨isBest_of_bestPrice hs hbid, isBest_of_bestPrice hs hask, hlt⟩

/-! ### Validated levels -/

/-- Levels in the canonical form: strictly sorted, no more than the bound, each with a quantity
and on the tick. -/
structure Canonical (tick : PmTick) (levels : List PmBookLevel) : Prop where
  sorted : Sorted levels
  length_le : levels.length ≤ maxPmBookLevels
  positive : ∀ level ∈ levels, level.quantity ≠ .delete
  on_tick : ∀ level ∈ levels, level.price.units % tick.units = 0

variable {snapshot : Bool} {tick : PmTick}

theorem validateLevels_ok (h : validateLevels tick snapshot levels = .ok ()) :
    ∀ level ∈ levels, level.quantity ≠ .delete ∧ level.price.units % tick.units = 0 := by
  induction levels with
  | nil => exact fun _ hmem => absurd hmem not_mem_nil
  | cons _ _ ih =>
    unfold validateLevels at h
    split at h
    · cases h
    next hx =>
    intro level hmem
    rcases mem_cons.mp hmem with rfl | hmem
    swap
    · exact ih h level hmem
    unfold validateLevel at hx
    split_ifs at hx with hdel hdel'
    refine ⟨hdel', ?_⟩
    unfold PmPrice.validateTick at hx
    split_ifs at hx with htick
    exact not_not.mp htick

/-- **Levels that pass** are canonical and have two sides that are not crossed. -/
theorem validateAndSortLevels_ok {sorted : List PmBookLevel}
    (h : validateAndSortLevels levels tick snapshot = (.ok (), sorted)) :
    Canonical tick sorted ∧ ∃ top, canonicalTop sorted = .ok top := by
  unfold validateAndSortLevels at h
  split at h
  · cases h
  next hlen =>
  split at h
  · cases h
  next hval =>
  dsimp only at h
  split at h
  · cases h
  next hdup =>
  split at h
  · cases h
  next top htop =>
  cases h
  have hmem : ∀ {level}, level ∈ levels.insertionSort levelLe → level ∈ levels :=
    fun hin => (mem_insertionSort levelLe).mp hin
  refine ⟨⟨?_, ?_, ?_, ?_⟩, top, htop⟩
  · exact sorted_of_hasDuplicate (pairwise_insertionSort _ _) (Bool.not_eq_true _ ▸ hdup)
  · rw [length_insertionSort]
    exact not_lt.mp hlen
  · exact fun level hin => (validateLevels_ok hval level (hmem hin)).1
  · exact fun level hin => (validateLevels_ok hval level (hmem hin)).2

/-! ### Price changes -/

theorem searchLevel_cases (hs : Sorted levels) (change : PmBookLevel) :
    (∃ i x, binarySearchBy (fun level => some (compareKeys (levelKey level) (levelKey change)))
        levels = some (.ok i) ∧ levels[i]? = some x ∧ levelKey x = levelKey change) ∨
      ∃ i, binarySearchBy (fun level => some (compareKeys (levelKey level) (levelKey change)))
        levels = some (.error i) ∧ Splits searchKey (levelKey change) levels i := by
  have hcmp : (fun level => some (compareKeys (levelKey level) (levelKey change))) =
      fun level => (searchKey level).map fun a => compare a (levelKey change) := by
    funext level
    rw [compareKeys_eq]
    rfl
  rw [hcmp]
  rcases binarySearchByKey_cases (pairwise_searchKey.mpr hs) (fun x _ => ⟨levelKey x, rfl⟩)
    (levelKey change) with ⟨i, x, hsea, hx, hkey⟩ | hnew
  · exact .inl ⟨i, x, hsea, hx, Option.some.inj hkey⟩
  · exact .inr hnew

/-- **A price change** of sorted levels does not abort, and leaves sorted levels. -/
theorem applyChange_sorted (hs : Sorted levels) (change : PmBookLevel) :
    applyChange levels change ≠ .panic ∧
      ∀ levels', applyChange levels change = .ok levels' → Sorted levels' := by
  unfold applyChange
  rcases searchLevel_cases hs change with ⟨i, x, hsea, hx, hkey⟩ | ⟨i, hsea, hspl⟩
  · have hlt := (List.getElem?_eq_some_iff.mp hx).1
    simp only [hsea, removeAt, if_pos hlt]
    split_ifs with hdel
    · refine ⟨nofun, fun levels' h => ?_⟩
      cases h
      exact hs.sublist (List.eraseIdx_sublist _ _)
    · refine ⟨nofun, fun levels' h => ?_⟩
      cases h
      exact pairwise_searchKey.mp (pairwise_keyLt_set (pairwise_searchKey.mpr hs) hx
        (congrArg some hkey.symm))
  · simp only [hsea, insertAt, if_pos hspl.le_length]
    split_ifs with hdel hfull
    · exact ⟨nofun, nofun⟩
    · exact ⟨nofun, nofun⟩
    · refine ⟨nofun, fun levels' h => ?_⟩
      cases h
      exact pairwise_searchKey.mp (hspl.pairwise_insertIdx (pairwise_searchKey.mpr hs) rfl)

end Reap.Book
