import Mathlib.Order.Basic
import Mathlib.Order.Lattice
import Mathlib.Data.Nat.Notation
import Mathlib.Data.List.Perm.Basic
import Mathlib.Algebra.BigOperators.Group.List.Basic
import Mathlib.Tactic.Linarith

/-!
# Ordered maps

A map that is iterated in the order of its keys. `weigh` adds up a number for every entry: how
many things the entries hold together.

## What is proved

* `getElem?_insert_eq`, `getElem?_erase_eq`, `getElem?_filter_eq` — what an operation leaves at a key.
* `eq_of_put` — a new entry that is related to no other one keeps related entries under one key.
* `weigh_insert_of_none`, `weigh_insert_of_some`, `weigh_erase_of_some` — how an operation changes
  the sum.
-/

namespace Reap.Base

universe u v

open List Std.TreeMap

/-- The comparison of a linear order tells equal keys apart from all others. -/
instance lawfulEqCmp {κ : Type u} [LinearOrder κ] :
    Std.LawfulEqCmp (compare : κ → κ → Ordering) where
  eq_of_compare h := compare_eq_iff_eq.mp h

/-- `BTreeMap`. -/
abbrev OrderedMap (κ : Type u) (ν : Type v) [Ord κ] := Std.TreeMap κ ν compare

namespace OrderedMap

variable {κ : Type u} {ν : Type v} [Ord κ]

/-- `BTreeMap::values`: the values, in the order of their keys. -/
def valueList (m : OrderedMap κ ν) : List ν := m.toList.map Prod.snd

/-- The sum of a number over all entries. -/
def weigh (f : κ → ν → ℕ) (m : OrderedMap κ ν) : ℕ :=
  (m.toList.map fun entry => f entry.1 entry.2).sum

theorem weigh_filter (f : κ → ν → ℕ) (p : κ → ν → Bool) (m : OrderedMap κ ν) :
    weigh f (m.filter p) = weigh (fun key value => if p key value then f key value else 0) m := by
  unfold weigh
  rw [toList_filter]
  induction m.toList with
  | nil => rfl
  | cons entry _ ih =>
    by_cases h : p entry.1 entry.2
    · simp [h, ih]
    · simp [h, ih]

variable [Std.TransCmp (compare : κ → κ → Ordering)] {m : OrderedMap κ ν} {key : κ} {value : ν}

theorem contains_eq_false_iff : m.contains key = false ↔ m[key]? = none := by
  rw [contains_eq_isSome_getElem?, Option.isSome_eq_false_iff, Option.isNone_iff_eq_none]

theorem size_insert_of_none (h : m[key]? = none) (value : ν) :
    (m.insert key value).size = m.size + 1 := by
  rw [size_insert, if_neg]
  rw [contains_eq_false_iff.mpr h]
  exact Bool.false_ne_true

variable [Std.LawfulEqCmp (compare : κ → κ → Ordering)]

theorem getElem?_insert_eq [DecidableEq κ] (m : OrderedMap κ ν) (key a : κ) (value : ν) :
    (m.insert key value)[a]? = if key = a then some value else m[a]? := by
  rw [Std.TreeMap.getElem?_insert]
  simp

theorem getElem?_erase_eq [DecidableEq κ] (m : OrderedMap κ ν) (key a : κ) :
    (m.erase key)[a]? = if key = a then none else m[a]? := by
  rw [getElem?_erase]
  simp

theorem mem_toList : (key, value) ∈ m.toList ↔ m[key]? = some value :=
  mem_toList_iff_getElem?_eq_some

theorem getElem?_filter_eq (m : OrderedMap κ ν) (f : κ → ν → Bool) (key : κ) :
    (m.filter f)[key]? = m[key]?.filter (f key) := by
  ext value
  rw [← mem_toList, toList_filter, mem_filter, mem_toList, Option.filter_eq_some_iff]

theorem mem_valueList : value ∈ m.valueList ↔ ∃ key : κ, m[key]? = some value := by
  rw [valueList, mem_map]
  constructor
  · rintro ⟨⟨key, _⟩, hmem, rfl⟩
    exact ⟨key, mem_toList.mp hmem⟩
  · rintro ⟨key, hget⟩
    exact ⟨(key, value), mem_toList.mpr hget, rfl⟩

/-! ### Sums over the entries -/

theorem nodup_toList (m : OrderedMap κ ν) : m.toList.Nodup := by
  refine (distinct_keys_toList (t := m)).imp fun h he => h ?_
  rw [he]
  exact Std.ReflCmp.compare_self

theorem getElem?_map_eq {μ : Type} (m : OrderedMap κ ν) (f : κ → ν → μ) (key : κ) :
    (m.map f)[key]? = m[key]?.map (f key) := by
  ext value
  rw [← mem_toList, toList_map, mem_map, Option.map_eq_some_iff]
  constructor
  · rintro ⟨⟨found, prior⟩, hmem, he⟩
    cases he
    exact ⟨prior, mem_toList.mp hmem, rfl⟩
  · rintro ⟨prior, hget, rfl⟩
    exact ⟨(key, prior), mem_toList.mpr hget, rfl⟩

/-- Values that say their key are listed under distinct keys. -/
theorem pairwise_valueList {keyOf : ν → κ}
    (h : ∀ key value, m[key]? = some value → keyOf value = key) :
    m.valueList.Pairwise fun a b => keyOf a ≠ keyOf b := by
  rw [valueList, pairwise_map]
  refine List.Pairwise.imp_of_mem ?_ (distinct_keys_toList (t := m))
  rintro ⟨first, a⟩ ⟨second, b⟩ ha hb hne he
  rw [h first a (mem_toList.mp ha), h second b (mem_toList.mp hb)] at he
  exact hne (he ▸ Std.ReflCmp.compare_self)

theorem weigh_congr {f g : κ → ν → ℕ}
    (h : ∀ key value, m[key]? = some value → f key value = g key value) : weigh f m = weigh g m :=
  congrArg sum (map_congr_left fun entry hmem => h entry.1 entry.2 (mem_toList.mp hmem))

/-- The entries of two maps are the same when their lookups are, but for the order. -/
theorem toList_perm_of_forall {l : List (κ × ν)} (hl : l.Nodup)
    (h : ∀ key value, (key, value) ∈ l ↔ m[key]? = some value) : m.toList.Perm l := by
  refine (perm_ext_iff_of_nodup (nodup_toList m) hl).mpr ?_
  rintro ⟨key, value⟩
  rw [mem_toList, h]

variable [DecidableEq κ]

theorem toList_insert_of_none (h : m[key]? = none) (value : ν) :
    (m.insert key value).toList.Perm ((key, value) :: m.toList) := by
  refine toList_perm_of_forall ?_ fun a b => ?_
  · refine nodup_cons.mpr ⟨fun hmem => ?_, nodup_toList m⟩
    rw [mem_toList, h] at hmem
    cases hmem
  · rw [mem_cons, Prod.mk.injEq, mem_toList, getElem?_insert_eq]
    by_cases ha : key = a
    · subst ha
      simp [h, eq_comm]
    · simp [ha, Ne.symm ha]

theorem weigh_insert_of_none (h : m[key]? = none) (f : κ → ν → ℕ) (value : ν) :
    weigh f (m.insert key value) = f key value + weigh f m :=
  ((toList_insert_of_none h value).map _).sum_eq

theorem insert_erase_toList (m : OrderedMap κ ν) (key : κ) (value : ν) :
    (m.insert key value).toList.Perm ((m.erase key).insert key value).toList := by
  refine toList_perm_of_forall (nodup_toList _) fun a b => ?_
  rw [mem_toList, getElem?_insert_eq, getElem?_insert_eq, getElem?_erase_eq]
  by_cases ha : key = a
  · simp [ha]
  · simp [ha]

theorem weigh_erase_of_some (h : m[key]? = some value) (f : κ → ν → ℕ) :
    weigh f m = f key value + weigh f (m.erase key) := by
  have hnone : (m.erase key)[key]? = none := by rw [getElem?_erase_eq, if_pos rfl]
  rw [← weigh_insert_of_none hnone f value]
  refine (List.Perm.map _ (toList_perm_of_forall (nodup_toList _) fun a b => ?_)).sum_eq
  rw [mem_toList, getElem?_insert_eq, getElem?_erase_eq]
  by_cases ha : key = a
  · subst ha
    simp [h]
  · simp [ha]

theorem weigh_insert_of_some {prior : ν} (h : m[key]? = some prior) (f : κ → ν → ℕ) (value : ν) :
    weigh f (m.insert key value) + f key prior = f key value + weigh f m := by
  have hnone : (m.erase key)[key]? = none := by rw [getElem?_erase_eq, if_pos rfl]
  have hins : weigh f (m.insert key value) = weigh f ((m.erase key).insert key value) :=
    ((insert_erase_toList m key value).map _).sum_eq
  rw [hins, weigh_insert_of_none hnone, weigh_erase_of_some h]
  omega

end OrderedMap

/-- An entry is put that is related to entries under its own key only. Then related entries are
under one key, if they were before. -/
theorem eq_of_put {κ : Type u} {ν : Type v} [DecidableEq κ] {get put : κ → Option ν} {key i j : κ}
    {next a b : ν} {R : ν → ν → Prop}
    (hput : ∀ other, put other = if key = other then some next else get other)
    (hleft : ∀ other b, get other = some b → R next b → other = key)
    (hright : ∀ other a, get other = some a → R a next → other = key)
    (hold : ∀ i j a b, get i = some a → get j = some b → R a b → i = j) (ha : put i = some a)
    (hb : put j = some b) (hab : R a b) : i = j := by
  rw [hput] at ha hb
  split_ifs at ha hb with hfst hsnd hsnd
  · exact hfst.symm.trans hsnd
  · cases ha
    exact hfst.symm.trans (hleft j b hb hab).symm
  · cases hb
    exact (hright i a ha hab).trans hsnd
  · exact hold i j a b ha hb hab

end Reap.Base
