import Reap.Base.Search
import Mathlib.Data.List.Nodup
import Mathlib.Data.List.InsertIdx
import Mathlib.Data.List.Perm.Basic

/-!
# Dense storage with sorted indexes

A store keeps its entries densely, in the order of their arrival, and beside them one or
more indexes: vectors of slots, sorted by a key of the entry in the slot. An index may
leave out the entries that have no such key. Insertion appends the entry and inserts its
slot; removal swaps the last entry into the freed slot, so the last slot has to be
renamed in every index; replacement may change the key and so the slot's place.

## What is proved

* `Indexed.search_cases` — a lookup finds the entry that has the key, or the position at
  which the key would be listed.
* `Indexed.push`, `Indexed.set_same`, `Indexed.set_insert`, `Indexed.set_move`,
  `Indexed.swapRemove` — every operation keeps the index exact.
* `unlist_eq_map`, `redirect_eq_map` — the two ways in which the source renames the last
  slot do so, whichever way the removal has shifted its place.
* `Indexed.perm_range` — an index of a key that every entry has is a permutation of the
  slots.
-/

namespace Reap.Base

universe u v

open List

variable {α : Type u} {κ : Type v}

/-- The key of the entry in slot `i`. -/
def keyAt (sel : α → Option κ) (entries : List α) (i : ℕ) : Option κ := entries[i]?.bind sel

/-- `index` lists exactly the slots whose entry has a key, keys strictly increasing. -/
structure Indexed [LinearOrder κ] (sel : α → Option κ) (entries : List α) (index : List ℕ) :
    Prop where
  sorted : index.Pairwise (KeyLt (keyAt sel entries))
  mem_iff : ∀ i, i ∈ index ↔ ∃ k, keyAt sel entries i = some k

/-- Look up a key: the position of its slot, or where its slot would be inserted. -/
def searchIndex [LinearOrder κ] (sel : α → Option κ) (entries : List α) (index : List ℕ) (k : κ) :
    Option (Except ℕ ℕ) :=
  binarySearchByKey (keyAt sel entries) k index

/-- The position of a key and the slot listed there, or where its slot would be inserted. -/
def searchSlot [LinearOrder κ] (sel : α → Option κ) (entries : List α) (index : List ℕ) (k : κ) :
    Option (Except ℕ (ℕ × ℕ)) :=
  match searchIndex sel entries index k with
  | none => none
  | some (.error position) => some (.error position)
  | some (.ok position) => index[position]?.map fun slot => .ok (position, slot)

/-- `Vec::swap_remove`: the last entry takes the freed slot. -/
def swapRemove (entries : List α) (i : ℕ) : List α :=
  match entries.getLast? with
  | none => []
  | some last => (entries.set i last).dropLast

/-- `Vec::insert`, which aborts past the end. -/
def insertAt (xs : List α) (i : ℕ) (x : α) : Option (List α) :=
  if i ≤ xs.length then some (xs.insertIdx i x) else none

/-- `Vec::remove`, which aborts past the end. -/
def removeAt (xs : List α) (i : ℕ) : Option (List α) :=
  if i < xs.length then some (xs.eraseIdx i) else none

/-- `u16::try_from(n).expect(..)`. -/
def toU16 (n : ℕ) : Option ℕ := if n < 65536 then some n else none

/-- The first place that holds `slot` is made to hold `i`. -/
def redirect (index : List ℕ) (slot i : ℕ) : Option (List ℕ) :=
  (index.findIdx? (· == slot)).map fun q => index.set q i

/-- Take slot `i`, listed at `position`, out of an index whose entries lose slot `i` to slot
`last`. The place of `last` is looked up before the removal shifts it. -/
def unlist (index : List ℕ) (position i last : ℕ) : Option (List ℕ) :=
  if i = last then removeAt index position
  else
    match index.findIdx? (· == last), removeAt index position with
    | some q, some rest => some (rest.set (if position < q then q - 1 else q) i)
    | _, _ => none

/-- Slot `last` is now called `i`. -/
def rename (last i : ℕ) (j : ℕ) : ℕ := if j = last then i else j

/-! ### Keys of slots -/

variable {sel : α → Option κ} {entries : List α} {i j a : ℕ} {e : α} {l : List ℕ}

theorem keyAt_eq_some {k : κ} :
    keyAt sel entries i = some k ↔ ∃ e, entries[i]? = some e ∧ sel e = some k :=
  Option.bind_eq_some_iff

theorem keyAt_of_getElem? (h : entries[i]? = some e) : keyAt sel entries i = sel e := by
  rw [keyAt, h, Option.bind_some]

theorem lt_length_of_keyAt {k : κ} (h : keyAt sel entries i = some k) : i < entries.length := by
  by_contra hlt
  rw [keyAt, getElem?_eq_none (Nat.le_of_not_lt hlt)] at h
  cases h

theorem keyAt_append_ne (h : i ≠ entries.length) :
    keyAt sel (entries ++ [e]) i = keyAt sel entries i := by
  unfold keyAt
  rcases lt_or_gt_of_ne h with hlt | hgt
  · rw [getElem?_append_left hlt]
  · rw [getElem?_eq_none (by simp; omega), getElem?_eq_none hgt.le]

theorem keyAt_append_length : keyAt sel (entries ++ [e]) entries.length = sel e := by
  rw [keyAt, getElem?_append_right (Nat.le_refl _), Nat.sub_self]
  rfl

theorem keyAt_set_self (h : i < entries.length) : keyAt sel (entries.set i e) i = sel e := by
  rw [keyAt, getElem?_set_self h, Option.bind_some]

theorem keyAt_set_ne (h : j ≠ i) : keyAt sel (entries.set i e) j = keyAt sel entries j := by
  rw [keyAt, keyAt, getElem?_set_ne (Ne.symm h)]

variable {old : α}

/-- An update that leaves the key leaves every key. -/
theorem keyAt_set_same (hi : entries[i]? = some old) (he : sel e = sel old) (j : ℕ) :
    keyAt sel (entries.set i e) j = keyAt sel entries j := by
  by_cases hj : j = i
  · subst hj
    rw [keyAt_set_self (List.getElem?_eq_some_iff.mp hi).1, he, keyAt_of_getElem? hi]
  · exact keyAt_set_ne hj

/-! ### Removal by swapping -/

theorem length_swapRemove (entries : List α) (i : ℕ) :
    (swapRemove entries i).length = entries.length - 1 := by
  unfold swapRemove
  cases h : entries.getLast? with
  | none => rw [getLast?_eq_none_iff.mp h]; rfl
  | some => rw [length_dropLast, length_set]

theorem getElem?_swapRemove (hi : i < entries.length) : (swapRemove entries i)[j]? =
      if j < entries.length - 1 then
        if j = i then entries[entries.length - 1]? else entries[j]? else none := by
  have hne : entries ≠ [] := by rintro rfl; simp at hi
  unfold swapRemove
  rw [getLast?_eq_some_getLast hne]
  simp only [getElem?_dropLast, length_set]
  split_ifs with hj hji
  · subst hji
    rw [getElem?_set_self hi, ← getLast?_eq_some_getLast hne, getLast?_eq_getElem?]
  · rw [getElem?_set_ne (Ne.symm hji)]
  · rfl

/-- What is stored after a removal is what was stored, less the removed slot. -/
theorem mem_swapRemove (hi : i < entries.length) :
    e ∈ swapRemove entries i ↔ ∃ j, j ≠ i ∧ entries[j]? = some e := by
  rw [mem_iff_getElem?]
  constructor
  · rintro ⟨j, hj⟩
    rw [getElem?_swapRemove hi] at hj
    split_ifs at hj with h1 h2
    · exact ⟨entries.length - 1, by omega, hj⟩
    · exact ⟨j, h2, hj⟩
  · rintro ⟨j, hji, hj⟩
    have hlt : j < entries.length := (List.getElem?_eq_some_iff.mp hj).1
    by_cases hlast : j = entries.length - 1
    · refine ⟨i, ?_⟩
      rw [getElem?_swapRemove hi, if_pos (by omega), if_pos rfl, ← hlast, hj]
    · refine ⟨j, ?_⟩
      rw [getElem?_swapRemove hi, if_pos (by omega), if_neg hji, hj]

/-- A removal by swapping removes one entry. -/
theorem perm_swapRemove (hi : entries[i]? = some e) : (e :: swapRemove entries i).Perm entries := by
  obtain ⟨hlt, rfl⟩ := List.getElem?_eq_some_iff.mp hi
  have hne : entries ≠ [] := by rintro rfl; simp at hlt
  obtain ⟨front, last, rfl⟩ : ∃ front last, entries = front ++ [last] :=
    ⟨_, _, (dropLast_append_getLast hne).symm⟩
  have hswap : swapRemove (front ++ [last]) i = ((front ++ [last]).set i last).dropLast := by
    rw [swapRemove, getLast?_concat]
  rw [hswap]
  by_cases hlast : i = front.length
  · subst hlast
    simpa using (perm_append_singleton last front).symm
  · have hi' : i < front.length := by simp at hlt; omega
    have hfro : front.take i ++ front[i] :: front.drop (i + 1) = front := by
      rw [← drop_eq_getElem_cons hi', take_append_drop]
    rw [set_append_left _ _ hi', dropLast_concat, getElem_append_left hi',
      set_eq_take_append_cons_drop, if_pos hi']
    refine List.Perm.trans ?_ (perm_append_singleton last front).symm
    refine (List.Perm.cons _ perm_middle).trans ((List.Perm.swap _ _ _).trans ?_)
    exact List.Perm.cons _ (perm_middle.symm.trans (List.Perm.of_eq hfro))

theorem keyAt_swapRemove_rename (hi : i < entries.length) (hji : j ≠ i) :
    keyAt sel (swapRemove entries i) (rename (entries.length - 1) i j) = keyAt sel entries j := by
  unfold keyAt rename
  rw [getElem?_swapRemove hi]
  by_cases hlast : j = entries.length - 1
  · rw [if_pos hlast, if_pos (by omega), if_pos rfl, hlast]
  · split_ifs with h
    · rfl
    · rw [getElem?_eq_none (by omega)]

/-! ### Exact indexes -/

namespace Indexed

variable [LinearOrder κ] {sel : α → Option κ} {entries : List α} {index : List ℕ}

theorem empty (sel : α → Option κ) : Indexed sel [] [] :=
  ⟨List.Pairwise.nil, fun i => by simp [keyAt]⟩

theorem defined (h : Indexed sel entries index) : ∀ i ∈ index, ∃ k, keyAt sel entries i = some k :=
  fun i hi => (h.mem_iff i).mp hi

theorem nodup (h : Indexed sel entries index) : index.Nodup :=
  h.sorted.imp fun hlt heq => hlt.key_ne (congrArg _ heq)

variable {i p : ℕ} {k : κ} {entries' : List α} {e : α}

section

variable (h : Indexed sel entries index)

include h

theorem lt_length (hi : i ∈ index) : i < entries.length :=
  lt_length_of_keyAt (h.defined i hi).choose_spec

/-- No two slots have the same key. -/
theorem slot_unique (hi : keyAt sel entries i = some k) (hj : keyAt sel entries j = some k) :
    i = j := by
  obtain ⟨p, hp⟩ := mem_iff_getElem?.mp ((h.mem_iff i).mpr ⟨k, hi⟩)
  obtain ⟨q, hq⟩ := mem_iff_getElem?.mp ((h.mem_iff j).mpr ⟨k, hj⟩)
  cases eq_of_key_eq h.sorted hp hq (hi.trans hj.symm)
  exact Option.some.inj (hp.symm.trans hq)

/-- No entry has a key that the index could list. -/
theorem ne_of_splits (hspl : Splits (keyAt sel entries) k index p) (he : e ∈ entries) :
    sel e ≠ some k := by
  intro hsel
  obtain ⟨i, hi⟩ := mem_iff_getElem?.mp he
  have hk : keyAt sel entries i = some k := by rw [keyAt_of_getElem? hi, hsel]
  exact hspl.key_ne ((h.mem_iff i).mpr ⟨k, hk⟩) hk

/-- **Lookup.** A lookup finds the entry that has the key, or the position at which the key
would be listed. It never aborts. -/
theorem search_cases (k : κ) :
    (∃ p i e, searchIndex sel entries index k = some (.ok p) ∧ index[p]? = some i ∧
      entries[i]? = some e ∧ sel e = some k) ∨
    (∃ p, searchIndex sel entries index k = some (.error p) ∧
      Splits (keyAt sel entries) k index p) := by
  rcases binarySearchByKey_cases h.sorted h.defined k with ⟨p, i, hp, hi, hk⟩ | hmis
  · obtain ⟨e, he, hsel⟩ := keyAt_eq_some.mp hk
    exact .inl ⟨p, i, e, hp, hi, he, hsel⟩
  · exact .inr hmis

theorem searchSlot_cases (k : κ) :
    (∃ p i e, searchSlot sel entries index k = some (.ok (p, i)) ∧ index[p]? = some i ∧
      entries[i]? = some e ∧ sel e = some k) ∨
    (∃ p, searchSlot sel entries index k = some (.error p) ∧
      Splits (keyAt sel entries) k index p) := by
  unfold searchSlot
  rcases h.search_cases k with ⟨p, i, e, hs, hp, he, hk⟩ | ⟨p, hs, hspl⟩
  · exact .inl ⟨p, i, e, by simp [hs, hp], hp, he, hk⟩
  · exact .inr ⟨p, by simp [hs], hspl⟩

/-- Entries with the same key are the same. -/
theorem entry_unique {a b : α} (ha : entries[i]? = some a) (hb : entries[j]? = some b)
    (hka : sel a = some k) (hkb : sel b = some k) : i = j :=
  h.slot_unique (by rw [keyAt_of_getElem? ha, hka]) (by rw [keyAt_of_getElem? hb, hkb])

end

/-- Sortedness only looks at the keys of the listed slots. -/
theorem pairwise_congr (hs : index.Pairwise (KeyLt (keyAt sel entries)))
    (heq : ∀ i ∈ index, keyAt sel entries' i = keyAt sel entries i) :
    index.Pairwise (KeyLt (keyAt sel entries')) := by
  refine hs.imp_of_mem fun {i j} hi hj hlt => ?_
  obtain ⟨a, b, ha, hb, hab⟩ := hlt
  exact ⟨a, b, by rw [heq i hi, ha], by rw [heq j hj, hb], hab⟩

theorem splits_congr (hs : Splits (keyAt sel entries) k index p)
    (heq : ∀ i ∈ index, keyAt sel entries' i = keyAt sel entries i) :
    Splits (keyAt sel entries') k index p where
  le_length := hs.le_length
  below := by
    intro i x hi hx
    obtain ⟨a, ha, hlt⟩ := hs.below i x hi hx
    exact ⟨a, by rw [heq x (mem_of_getElem? hx), ha], hlt⟩
  above := by
    intro i x hi hx
    obtain ⟨a, ha, hlt⟩ := hs.above i x hi hx
    exact ⟨a, by rw [heq x (mem_of_getElem? hx), ha], hlt⟩

section

variable (h : Indexed sel entries index)

include h

variable {rest : List ℕ}

section

variable (hrest : rest.Sublist index) (hmem : ∀ j, j ∈ rest ↔ j ∈ index ∧ j ≠ i)
  (heq : ∀ j ≠ i, keyAt sel entries' j = keyAt sel entries j)

include hrest hmem heq

/-- The entry of slot `i` gets the key `k`: the other slots stay listed, and `i` is inserted. -/
theorem relist (hp : Splits (keyAt sel entries) k rest p) (hi : keyAt sel entries' i = some k) :
    Indexed sel entries' (rest.insertIdx p i) := by
  have hkeys : ∀ j ∈ rest, keyAt sel entries' j = keyAt sel entries j :=
    fun j hj => heq j ((hmem j).mp hj).2
  refine ⟨(splits_congr hp hkeys).pairwise_insertIdx (pairwise_congr (h.sorted.sublist hrest) hkeys)
    hi, fun j => ?_⟩
  rw [mem_insertIdx hp.le_length, hmem j]
  by_cases hj : j = i
  · subst hj
    exact ⟨fun _ => ⟨k, hi⟩, fun _ => .inl rfl⟩
  · rw [heq j hj, h.mem_iff j]
    exact ⟨fun hor => (hor.resolve_left hj).1, fun hk => .inr ⟨hk, hj⟩⟩

/-- The entry of slot `i` is left without a key. -/
theorem delist (hi : keyAt sel entries' i = none) : Indexed sel entries' rest := by
  refine ⟨pairwise_congr (h.sorted.sublist hrest) fun j hj => heq j ((hmem j).mp hj).2, fun j => ?_⟩
  rw [hmem j]
  by_cases hj : j = i
  · subst hj
    simp [hi]
  · rw [heq j hj, h.mem_iff j]
    exact ⟨And.left, fun hk => ⟨hk, hj⟩⟩

end

theorem mem_iff_ne_length (j : ℕ) : j ∈ index ↔ j ∈ index ∧ j ≠ entries.length :=
  ⟨fun hj => ⟨hj, (h.lt_length hj).ne⟩, And.left⟩

/-- Appending an entry that has a key, and inserting its slot. -/
theorem push (he : sel e = some k) (hp : Splits (keyAt sel entries) k index p) :
    Indexed sel (entries ++ [e]) (index.insertIdx p entries.length) :=
  h.relist (.refl _) h.mem_iff_ne_length (fun _ => keyAt_append_ne) hp (keyAt_append_length.trans he)

/-- Appending an entry that has no key. -/
theorem push_none (he : sel e = none) : Indexed sel (entries ++ [e]) index :=
  h.delist (.refl _) h.mem_iff_ne_length (fun _ => keyAt_append_ne) (keyAt_append_length.trans he)

/-- An update that leaves every key. -/
theorem congr
    (heq : ∀ i, keyAt sel entries' i = keyAt sel entries i) : Indexed sel entries' index :=
  ⟨pairwise_congr h.sorted fun i _ => heq i, fun i => by rw [heq i]; exact h.mem_iff i⟩

/-- Replacing an entry by one with the same key. -/
theorem set_same (hi : entries[i]? = some old) (he : sel e = sel old) :
    Indexed sel (entries.set i e) index :=
  h.congr (keyAt_set_same hi he)

/-- Replacing an entry that had no key by one that has. -/
theorem set_insert (hi : entries[i]? = some old) (hold : sel old = none) (he : sel e = some k)
    (hp : Splits (keyAt sel entries) k index p) :
    Indexed sel (entries.set i e) (index.insertIdx p i) := by
  refine h.relist (.refl _) (fun j => ⟨fun hj => ⟨hj, ?_⟩, And.left⟩) (fun _ => keyAt_set_ne) hp
    ((keyAt_set_self (List.getElem?_eq_some_iff.mp hi).1).trans he)
  rintro rfl
  obtain ⟨a, ha⟩ := h.defined j hj
  rw [keyAt_of_getElem? hi, hold] at ha
  cases ha

theorem mem_eraseIdx (hp : index[p]? = some i) (j : ℕ) :
    j ∈ index.eraseIdx p ↔ j ∈ index ∧ j ≠ i := by
  obtain ⟨hlt, rfl⟩ := List.getElem?_eq_some_iff.mp hp
  rw [← h.nodup.erase_getElem p hlt, h.nodup.mem_erase_iff]
  exact and_comm

/-- Replacing an entry by one with another key: its slot moves in the index. The new place
is looked up while the old key is still listed, hence the correction by one. -/
theorem set_move {q : ℕ} (hp : index[p]? = some i)
    (he : sel e = some k) (hq : Splits (keyAt sel entries) k index q) :
    Indexed sel (entries.set i e) ((index.eraseIdx p).insertIdx (if p < q then q - 1 else q) i) :=
  h.relist (eraseIdx_sublist _ _) (h.mem_eraseIdx hp) (fun _ => keyAt_set_ne)
    (hq.eraseIdx (List.getElem?_eq_some_iff.mp hp).1)
    ((keyAt_set_self (h.lt_length (mem_of_getElem? hp))).trans he)

/-- Replacing an entry that had a key by one that has none. -/
theorem set_erase (hp : index[p]? = some i) (he : sel e = none) :
    Indexed sel (entries.set i e) (index.eraseIdx p) :=
  h.delist (eraseIdx_sublist _ _) (h.mem_eraseIdx hp) (fun _ => keyAt_set_ne)
    ((keyAt_set_self (h.lt_length (mem_of_getElem? hp))).trans he)

/-- Removing the entry of slot `i`: its slot leaves the index, if it was listed, and the
last slot takes its name. -/
theorem swapRemove (hi : i < entries.length) (hrest : rest.Sublist index)
    (hmem : ∀ j, j ∈ rest ↔ j ∈ index ∧ j ≠ i) :
    Indexed sel (Base.swapRemove entries i) (rest.map (rename (entries.length - 1) i)) where
  sorted := by
    rw [pairwise_map]
    refine (h.sorted.sublist hrest).imp_of_mem fun {a b} ha hb hlt => ?_
    obtain ⟨k, l, hk, hl, hkl⟩ := hlt
    refine ⟨k, l, ?_, ?_, hkl⟩
    · rw [keyAt_swapRemove_rename hi ((hmem a).mp ha).2, hk]
    · rw [keyAt_swapRemove_rename hi ((hmem b).mp hb).2, hl]
  mem_iff := by
    intro m
    rw [mem_map]
    constructor
    · rintro ⟨j, hj, rfl⟩
      obtain ⟨hj, hji⟩ := (hmem j).mp hj
      rw [keyAt_swapRemove_rename hi hji]
      exact h.defined j hj
    · rintro ⟨k, hk⟩
      have hlt := lt_length_of_keyAt hk
      rw [length_swapRemove] at hlt
      by_cases hm : m = i
      · -- the freed slot now holds what the last slot held
        have hlast : rename (entries.length - 1) i (entries.length - 1) = m := by
          rw [rename, if_pos rfl, hm]
        have hne : entries.length - 1 ≠ i := by omega
        rw [← hlast, keyAt_swapRemove_rename hi hne] at hk
        exact ⟨entries.length - 1, (hmem _).mpr ⟨(h.mem_iff _).mpr ⟨k, hk⟩, hne⟩, hlast⟩
      · have hself : rename (entries.length - 1) i m = m := by rw [rename, if_neg (by omega)]
        rw [← hself, keyAt_swapRemove_rename hi hm] at hk
        exact ⟨m, (hmem _).mpr ⟨(h.mem_iff _).mpr ⟨k, hk⟩, hm⟩, hself⟩

/-- An index of a key that every entry has is a permutation of the slots. -/
theorem perm_range (htot : ∀ e, ∃ k, sel e = some k) : index.Perm (range entries.length) := by
  rw [perm_ext_iff_of_nodup h.nodup nodup_range]
  intro i
  rw [mem_range]
  refine ⟨h.lt_length, fun hi => (h.mem_iff i).mpr ?_⟩
  obtain ⟨k, hk⟩ := htot entries[i]
  exact ⟨k, by rw [keyAt_of_getElem? (getElem?_eq_getElem hi), hk]⟩

end

end Indexed

/-- In a list without duplicates, overwriting the place of `a` renames `a`. -/
theorem set_eq_map_of_nodup (hl : l.Nodup) {q b : ℕ} (hq : l[q]? = some a) :
    l.set q b = l.map (rename a b) := by
  obtain ⟨hlt, rfl⟩ := List.getElem?_eq_some_iff.mp hq
  refine ext_getElem (by simp) fun n h₁ h₂ => ?_
  rw [getElem_map, getElem_set, rename]
  by_cases hn : q = n
  · subst hn
    simp
  · rw [if_neg hn, if_neg fun he => hn ((hl.getElem_inj_iff).mp he).symm]

theorem rename_self (i : ℕ) : rename i i = id := by
  funext j
  unfold rename
  split_ifs with h
  · exact h.symm
  · rfl

theorem findIdx?_of_mem (ha : a ∈ l) : ∃ q, l.findIdx? (· == a) = some q ∧ l[q]? = some a := by
  cases h : l.findIdx? (· == a) with
  | none => simpa using findIdx?_eq_none_iff.mp h a ha
  | some q =>
    obtain ⟨hq, heq, -⟩ := findIdx?_eq_some_iff_getElem.mp h
    exact ⟨q, rfl, List.getElem?_eq_some_iff.mpr ⟨hq, by simpa using heq⟩⟩

/-- Redirecting a listed slot renames it. -/
theorem redirect_eq_map (hl : l.Nodup) {slot : ℕ} (hslot : slot ∈ l) :
    redirect l slot i = some (l.map (rename slot i)) := by
  obtain ⟨q, hq, hget⟩ := findIdx?_of_mem hslot
  rw [redirect, hq, Option.map_some, set_eq_map_of_nodup hl hget]

theorem getElem?_eraseIdx_shift {p q : ℕ} (hne : p ≠ q) (hq : l[q]? = some a) :
    (l.eraseIdx p)[if p < q then q - 1 else q]? = some a := by
  rw [getElem?_eraseIdx]
  split_ifs with h₁ h₂ h₂
  · omega
  · rw [Nat.sub_add_cancel (by omega), hq]
  · exact hq
  · omega

/-- Unlisting a slot drops it and renames the last one. -/
theorem unlist_eq_map (hl : l.Nodup) {p last : ℕ} (hp : l[p]? = some i) (hlast : last ∈ l) :
    unlist l p i last = some ((l.eraseIdx p).map (rename last i)) := by
  have hplt := (List.getElem?_eq_some_iff.mp hp).1
  have hrem : removeAt l p = some (l.eraseIdx p) := if_pos hplt
  unfold unlist
  by_cases hi : i = last
  · rw [if_pos hi, hrem, hi, rename_self, map_id]
  · obtain ⟨q, hq, hget⟩ := findIdx?_of_mem hlast
    have hne : p ≠ q := by
      rintro rfl
      exact hi (Option.some.inj (hp.symm.trans hget))
    rw [if_neg hi, hq, hrem]
    exact congrArg some (set_eq_map_of_nodup (hl.eraseIdx p) (getElem?_eraseIdx_shift hne hget))

/-! ### Reading the entries in the order of an index -/

theorem mapM_eq_some {β : Type v} {f : β → Option α} {l : List β}
    (h : ∀ a ∈ l, ∃ b, f a = some b) : l.mapM f = some (l.filterMap f) := by
  induction l with
  | nil => rfl
  | cons a _ ih =>
    obtain ⟨b, hb⟩ := h a (.head _)
    rw [mapM_cons, hb, ih fun x hx => h x (.tail _ hx), filterMap_cons, hb]
    rfl

theorem filterMap_range (entries : List α) :
    (range entries.length).filterMap (entries[·]?) = entries := by
  have hmap : (range entries.length).map (entries[·]?) = entries.map some := by
    refine ext_getElem (by simp) fun i hi hi' => ?_
    simp
  calc (range entries.length).filterMap (entries[·]?)
    _ = ((range entries.length).map (entries[·]?)).filterMap id := by
        rw [filterMap_map, Function.id_comp]
    _ = entries := by rw [hmap, filterMap_map, Function.id_comp, filterMap_some]

/-- The entries in the order of an index that lists every slot. -/
theorem exists_mapM_of_perm {index : List ℕ} (h : index.Perm (range entries.length)) :
    ∃ listed, index.mapM (entries[·]?) = some listed ∧ listed.Perm entries := by
  refine ⟨_, mapM_eq_some fun i hi => ?_, ?_⟩
  · exact ⟨_, getElem?_eq_getElem (mem_range.mp (h.mem_iff.mp hi))⟩
  · have hlis := h.filterMap (entries[·]?)
    rwa [filterMap_range] at hlis

end Reap.Base
