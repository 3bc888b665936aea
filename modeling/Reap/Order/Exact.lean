import Reap.Order.Entry
import Reap.Order.Table
import Mathlib.Data.Fintype.Card

/-!
# Operations on the order table keep it exact

On an exact table no operation aborts, and none of the conflicts that the source checks for
while it changes the table can arise, provided the order that is stored shares no key with an
order that stays. What each operation does to the stored orders is a `Swaps`: some orders are
gone and some have come.

## What is proved

* `Exact.insertOrdered`, `Exact.replaceOrdered`, `Exact.removeDense`,
  `Exact.coalesceEntries` — the operations succeed, and leave an exact table.
* `Exact.find_cases`, `Exact.overlaps_cases` — the lookups are exact.
-/

namespace Reap.Order.OrderTable

open Base Reap.Core Outcome OrderEntry OrderTable List

/-- The orders of `t` are those of `s`, less `gone`, and `come`. -/
def Swaps (s t : OrderTable) (gone come : List OrderEntry) : Prop :=
  ∀ e, e ∈ t.entries ↔ (e ∈ s.entries ∧ e ∉ gone) ∨ e ∈ come

/-- No two orders share a venue key if the venue keys have no duplicates. -/
theorem venues_iff {l : List OrderEntry} :
    (∀ {i j : ℕ} {a b : OrderEntry} {v : PmVenueOrderKey}, l[i]? = some a → l[j]? = some b →
      a.identity.venueOrderKey = some v → b.identity.venueOrderKey = some v → i = j) ↔
    (l.filterMap fun e => e.identity.venueOrderKey).Nodup := by
  rw [List.Nodup, pairwise_filterMap, pairwise_iff_getElem]
  constructor
  · intro h i j hi hj hlt v hv w hw hvw
    exact hlt.ne (h (getElem?_eq_getElem hi) (getElem?_eq_getElem hj) hv (hvw ▸ hw))
  · intro h i j a b v ha hb hva hvb
    obtain ⟨hi, rfl⟩ := List.getElem?_eq_some_iff.mp ha
    obtain ⟨hj, rfl⟩ := List.getElem?_eq_some_iff.mp hb
    rcases Nat.lt_trichotomy i j with hlt | heq | hlt
    · exact absurd rfl (h i j hi hj hlt v hva v hvb)
    · exact heq
    · exact absurd rfl (h j i hj hi hlt v hvb v hva)

namespace Exact

variable {s : OrderTable} (h : Exact s)

include h

theorem live_lt : s.liveCount < 65535 := by
  have hle := countP_le_length (p := isLive) (l := s.entries)
  have hmax : maxPmPrivateOrders = 1024 := rfl
  have hlen := h.length_le
  rw [h.live]
  omega

variable {e current removed entry a b replacement : OrderEntry} {i j : ℕ}
  {identity : PmOrderIdentity} {t : OrderTable}

theorem live_pos (he : e ∈ s.entries) (hlive : e.isLive = true) : 0 < s.liveCount := by
  rw [h.live]
  exact countP_pos_iff.mpr ⟨e, he, hlive⟩

/-- The live count of an exact table can follow every change of one order. -/
theorem adjustLive_eq {was : Bool} (hwas : was = true → 0 < s.liveCount) (is : Bool) :
    adjustLive s.liveCount was is =
      some (s.liveCount - (if was then 1 else 0) + if is then 1 else 0) := by
  have hlt := h.live_lt
  cases was <;> cases is <;> simp [adjustLive, toU16] at hwas ⊢ <;> omega

theorem adjustLive_push (entry : OrderEntry) : adjustLive s.liveCount false entry.isLive =
      some ((s.entries ++ [entry]).countP isLive) := by
  rw [h.adjustLive_eq Bool.noConfusion, countP_append, countP_singleton, h.live]
  simp

theorem adjustLive_set (hi : s.entries[i]? = some current) (replacement : OrderEntry) :
    adjustLive s.liveCount current.isLive replacement.isLive =
      some ((s.entries.set i replacement).countP isLive) := by
  obtain ⟨hlt, rfl⟩ := List.getElem?_eq_some_iff.mp hi
  rw [h.adjustLive_eq (h.live_pos (getElem_mem hlt)), countP_set hlt, h.live]

theorem adjustLive_remove (hi : s.entries[i]? = some removed) :
    adjustLive s.liveCount removed.isLive false =
      some ((swapRemove s.entries i).countP isLive) := by
  have hperm := (perm_swapRemove hi).countP_eq isLive
  rw [countP_cons] at hperm
  rw [h.adjustLive_eq (h.live_pos (mem_of_getElem? hi)), h.live, ← hperm]
  simp

theorem toU16_of_lt (hi : i ≤ s.entries.length) : toU16 i = some i := by
  have hmax : maxPmPrivateOrders = 1024 := rfl
  have hlen := h.length_le
  exact if_pos (by omega)

/-- The venue keys of some of the orders. -/
theorem venues_rest (gone : List OrderEntry) {rest : List OrderEntry}
    (hperm : (gone ++ rest).Perm s.entries) :
    (rest.filterMap fun e => e.identity.venueOrderKey).Nodup := by
  have hall := (hperm.filterMap _).nodup_iff.mpr (venues_iff.mp h.venues)
  rw [filterMap_append] at hall
  exact hall.of_append_right

/-! ### Insertion -/

/-- A place for an order whose key no order has. -/
theorem canonicalInsertionPosition (entry : OrderEntry)
    (hfree : ∀ e ∈ s.entries, e.canonicalRank ≠ entry.canonicalRank) :
    ∃ p, s.canonicalInsertionPosition entry = .ok p ∧
      Splits (keyAt canonicalKey s.entries) entry.canonicalRank s.canonicalIndex p := by
  unfold OrderTable.canonicalInsertionPosition
  rcases h.canonical.search_cases entry.canonicalRank with ⟨p, i, e, -, -, he, hk⟩ | ⟨p, hs, hp⟩
  · exact absurd (Option.some.inj hk) (hfree e (mem_of_getElem? he))
  · exact ⟨p, by simp [hs], hp⟩

theorem newClientPosition (client : PmClientOrderKey)
    (hfree : ∀ e ∈ s.entries, e.identity.clientOrderKey ≠ some client) :
    ∃ p, s.newClientPosition client = .ok p ∧
      Splits (keyAt clientKey s.entries) client s.clientIndex p := by
  unfold OrderTable.newClientPosition clientSearch
  rcases h.clients.searchSlot_cases client with ⟨p, i, e, -, -, he, hk⟩ | ⟨p, hs, hp⟩
  · exact absurd hk (hfree e (mem_of_getElem? he))
  · exact ⟨p, by simp [hs], hp⟩

/-- One order is added to some of the orders, with which it shares no key. -/
theorem venues_cons (gone : List OrderEntry) {rest entries : List OrderEntry}
    (hold : (gone ++ rest).Perm s.entries) (hnew : entries.Perm (entry :: rest))
    (hfree : ∀ e ∈ rest, ¬ identitiesOverlap e.identity entry.identity = true) :
    (entries.filterMap fun e => e.identity.venueOrderKey).Nodup := by
  have hrest := h.venues_rest gone hold
  rw [(hnew.filterMap _).nodup_iff, filterMap_cons]
  cases hv : entry.identity.venueOrderKey with
  | none => exact hrest
  | some v =>
    refine nodup_cons.mpr ⟨fun hmem => ?_, hrest⟩
    obtain ⟨e, he, hev⟩ := mem_filterMap.mp hmem
    exact hfree e he (identitiesOverlap_iff.mpr (.inr ⟨v, hev, hv⟩))

/-- The place that `client_insertion_position` gives. -/
def ClientPlace (s : OrderTable) (entry : OrderEntry) (position : Option ℕ) : Prop :=
  match entry.identity.clientOrderKey, position with
  | none, none => True
  | some client, some p => Splits (keyAt clientKey s.entries) client s.clientIndex p
  | _, _ => False

theorem clientInsertionPosition (hfree : s.Unshared entry.identity []) :
    ∃ p, s.clientInsertionPosition entry = .ok p ∧ ClientPlace s entry p := by
  unfold OrderTable.clientInsertionPosition ClientPlace
  cases hc : entry.identity.clientOrderKey with
  | none => exact ⟨none, rfl, trivial⟩
  | some client =>
    obtain ⟨p, hp, hspl⟩ := h.newClientPosition client fun e he hec =>
      hfree.not_mem he (identitiesOverlap_iff.mpr (.inl ⟨client, hec, hc⟩))
    exact ⟨some p, by simp [hp, Outcome.pure_eq_ok], hspl⟩

section

variable (hlen : s.entries.length < maxPmPrivateOrders) (hfree : s.Unshared entry.identity [])

include hlen hfree

/-- The places that are looked up for a new order, and the table with the order there. -/
theorem insertAtIndexPositions :
    ∃ p q t, s.canonicalInsertionPosition entry = .ok p ∧ s.clientInsertionPosition entry = .ok q ∧
      ClientPlace s entry q ∧ s.insertAtIndexPositions p q entry = .ok t ∧ Exact t ∧
      t.entries = s.entries ++ [entry] := by
  obtain ⟨p, hp, hspl⟩ := h.canonicalInsertionPosition entry fun e he hrank =>
    hfree.not_mem he (overlap_of_rank_eq hrank)
  obtain ⟨q, hq, hpl⟩ := h.clientInsertionPosition hfree
  have hcan : insertAt s.canonicalIndex p s.entries.length = some _ := if_pos hspl.le_length
  obtain ⟨clientIndex, hidx, hcli⟩ : ∃ index,
      listSlot s.clientIndex q s.entries.length = some index ∧
      Indexed clientKey (s.entries ++ [entry]) index := by
    have hpl' := hpl
    unfold ClientPlace at hpl'
    split at hpl'
    · next hc => exact ⟨_, rfl, h.clients.push_none hc⟩
    · next hc => exact ⟨_, if_pos hpl'.le_length, h.clients.push hc hpl'⟩
    · exact hpl'.elim
  refine ⟨p, q, ⟨s.entries ++ [entry], s.canonicalIndex.insertIdx p s.entries.length, clientIndex,
    (s.entries ++ [entry]).countP isLive⟩, hp, hq, hpl,
    ?_, ⟨h.canonical.push rfl hspl, hcli, venues_iff.mpr
      (h.venues_cons [] .rfl perm_append_comm fun _ => hfree.not_mem), rfl, ?_⟩, rfl⟩
  · unfold OrderTable.insertAtIndexPositions
    simp [h.toU16_of_lt le_rfl, h.adjustLive_push, hcan, hidx, Outcome.pure_eq_ok]
  · rw [length_append, length_singleton]
    exact hlen

/-- **Insertion.** An order that shares no key with another is appended. -/
theorem insertOrdered :
    ∃ t, s.insertOrdered entry = .ok t ∧ Exact t ∧ t.entries = s.entries ++ [entry] := by
  obtain ⟨p, q, t, hp, hq, -, ht, hexa⟩ := h.insertAtIndexPositions hlen hfree
  refine ⟨t, ?_, hexa⟩
  simp [OrderTable.insertOrdered, hp, hq, ht]

end

/-! ### Replacement -/

omit h in
theorem moveSlot_eq {index : List ℕ} {p q : ℕ} (hp : index[p]? = some i)
    (hq : q ≤ (index.eraseIdx p).length) :
    moveSlot index p q = some ((index.eraseIdx p).insertIdx q i) := by
  have hrem : removeAt index p = some (index.eraseIdx p) :=
    if_pos (List.getElem?_eq_some_iff.mp hp).1
  simp only [moveSlot, hp, hrem, Option.bind_eq_bind, Option.bind_some]
  exact if_pos hq

section

variable (hi : s.entries[i]? = some current) (hfree : s.Unshared replacement.identity [i])

include hi hfree

/-- Replacing an order at its place in the canonical index. -/
theorem canonical_replace : ∃ p q index, s.canonicalIndex.findIdx? (· == i) = some p ∧
      s.movedCanonicalPosition current replacement p = .ok q ∧
      (if current.canonicalRank ≠ replacement.canonicalRank ∧ q ≠ p then
        moveSlot s.canonicalIndex p q else some s.canonicalIndex) = some index ∧
      Indexed canonicalKey (s.entries.set i replacement) index := by
  obtain ⟨p, hp, hget⟩ := h.canonicalPosition hi
  by_cases hrank : current.canonicalRank = replacement.canonicalRank
  · refine ⟨p, p, s.canonicalIndex, hp, if_pos hrank, if_neg fun hne => hne.1 hrank, ?_⟩
    exact h.canonical.set_same hi (congrArg some hrank.symm)
  · obtain ⟨q, hq, hspl⟩ := h.canonicalInsertionPosition replacement fun e he heq => by
      cases hfree.eq_of_overlap hi he (overlap_of_rank_eq heq)
      exact hrank heq
    have hbd := (hspl.eraseIdx (List.getElem?_eq_some_iff.mp hget).1).le_length
    have hmov : s.movedCanonicalPosition current replacement p = .ok (withoutOld p q) := by
      rw [movedCanonicalPosition, if_neg hrank, hq]
      rfl
    have hind := h.canonical.set_move hget (rfl : replacement.canonicalKey = _) hspl
    refine ⟨p, withoutOld p q, _, hp, hmov, ?_, hind⟩
    by_cases hsame : withoutOld p q = p
    · -- the slot stays where it is, and the source leaves the index alone
      obtain ⟨hlt, rfl⟩ := List.getElem?_eq_some_iff.mp hget
      rw [if_neg fun hne => hne.2 hsame]
      have hpos : (if p < q then q - 1 else q) = p := hsame
      rw [hpos, insertIdx_eraseIdx_getElem hlt]
    · rw [if_pos ⟨hrank, hsame⟩]
      exact moveSlot_eq hget hbd

/-- Replacing an order at its place in the client index. -/
theorem clients_replace : ∃ old new index, s.listedClientPosition current = .ok old ∧
      s.movedClientPosition current replacement old = .ok new ∧
      (if current.identity.clientOrderKey ≠ replacement.identity.clientOrderKey then
        moveClient s.clientIndex i old new else some s.clientIndex) = some index ∧
      Indexed clientKey (s.entries.set i replacement) index := by
  by_cases hsame : current.identity.clientOrderKey = replacement.identity.clientOrderKey
  · obtain ⟨old, hold⟩ : ∃ old, s.listedClientPosition current = .ok old := by
      cases hc : current.identity.clientOrderKey with
      | none => exact ⟨none, listedClientPosition_none hc⟩
      | some =>
        obtain ⟨p, hp, -⟩ := h.listedClientPosition hi hc
        exact ⟨some p, hp⟩
    refine ⟨old, old, s.clientIndex, hold, if_pos hsame, if_neg fun hne => hne hsame, ?_⟩
    exact h.clients.set_same hi hsame.symm
  simp only [ne_eq, hsame, not_false_eq_true, if_true]
  have hnew : ∀ client, replacement.identity.clientOrderKey = some client →
      ∃ q, s.newClientPosition client = .ok q ∧
        Splits (keyAt clientKey s.entries) client s.clientIndex q := by
    intro client hc
    refine h.newClientPosition client fun e he hec => ?_
    cases hfree.eq_of_overlap hi he (identitiesOverlap_iff.mpr (.inl ⟨client, hec, hc⟩))
    exact hsame (hec.trans hc.symm)
  cases hold : current.identity.clientOrderKey with
  | none =>
    cases hc : replacement.identity.clientOrderKey with
    | none => exact absurd (hold.trans hc.symm) hsame
    | some client =>
      obtain ⟨q, hq, hspl⟩ := hnew client hc
      refine ⟨none, some q, _, listedClientPosition_none hold, ?_, ?_,
        h.clients.set_insert hi hold hc hspl⟩
      · rw [movedClientPosition, if_neg hsame]
        simp [hc, hq, Outcome.pure_eq_ok]
      · simp only [moveClient, h.toU16_of_lt (lt_of_getElem? hi).le, Option.bind_eq_bind,
          Option.bind_some]
        exact if_pos hspl.le_length
  | some =>
    obtain ⟨p, hp, hget⟩ := h.listedClientPosition hi hold
    cases hc : replacement.identity.clientOrderKey with
    | none =>
      refine ⟨some p, none, _, hp, ?_, ?_, h.clients.set_erase hget hc⟩
      · rw [movedClientPosition, if_neg hsame]
        simp [hc]
      · exact if_pos (List.getElem?_eq_some_iff.mp hget).1
    | some client =>
      obtain ⟨q, hq, hspl⟩ := hnew client hc
      have hbd := (hspl.eraseIdx (List.getElem?_eq_some_iff.mp hget).1).le_length
      refine ⟨some p, some (withoutOld p q), _, hp, ?_, moveSlot_eq hget hbd,
        h.clients.set_move hget hc hspl⟩
      rw [movedClientPosition, if_neg hsame]
      simp [hc, hq, Outcome.pure_eq_ok]

theorem venues_set :
    ((s.entries.set i replacement).filterMap fun e => e.identity.venueOrderKey).Nodup := by
  obtain ⟨hlt, rfl⟩ := List.getElem?_eq_some_iff.mp hi
  refine h.venues_cons [s.entries[i]] (getElem_cons_eraseIdx_perm hlt)
    (set_perm_cons_eraseIdx hlt _) fun e he => ?_
  obtain ⟨j, hj, hget⟩ := mem_eraseIdx_iff_getElem?.mp he
  exact hfree.not_overlap (by simpa using hj) hget

end

/-- **Replacement.** An order is replaced by one that shares no key with another. -/
theorem replaceOrdered (replacement : OrderEntry) (hi : s.entries[i]? = some current)
    (hfree : s.Unshared replacement.identity [i]) :
    ∃ t, s.replaceOrdered i replacement = .ok t ∧ Exact t ∧
      t.entries = s.entries.set i replacement := by
  obtain ⟨p, q, canonicalIndex, hp, hq, hcan, hci⟩ := h.canonical_replace hi hfree
  obtain ⟨old, new, clientIndex, hold, hnew, hcli, hcl⟩ := h.clients_replace hi hfree
  refine ⟨⟨s.entries.set i replacement, canonicalIndex, clientIndex,
    (s.entries.set i replacement).countP isLive⟩, ?_,
    ⟨hci, hcl, venues_iff.mpr (h.venues_set hi hfree), rfl, ?_⟩, rfl⟩
  · simp only [OrderTable.replaceOrdered, hi, hp, hq, hold, hnew, hcan, hcli,
      h.adjustLive_set hi, expect_some, ok_bind, Outcome.pure_eq_ok]
  · rw [length_set]
    exact h.length_le

/-! ### Removal -/

theorem canonical_remove (hi : s.entries[i]? = some removed) :
    ∃ p, s.canonicalIndex.findIdx? (· == i) = some p ∧
      removeAt s.canonicalIndex p = some (s.canonicalIndex.eraseIdx p) ∧
      (i ≠ s.entries.length - 1 → redirectLast (s.canonicalIndex.eraseIdx p) (s.entries.length - 1) i =
        some ((s.canonicalIndex.eraseIdx p).map (rename (s.entries.length - 1) i))) ∧
      Indexed canonicalKey (swapRemove s.entries i)
        ((s.canonicalIndex.eraseIdx p).map (rename (s.entries.length - 1) i)) := by
  obtain ⟨p, hp, hget⟩ := h.canonicalPosition hi
  have hlt := lt_of_getElem? hi
  have hmem := h.canonical.mem_eraseIdx hget
  refine ⟨p, hp, if_pos (List.getElem?_eq_some_iff.mp hget).1, fun hne => ?_,
    h.canonical.swapRemove hlt (eraseIdx_sublist _ _) hmem⟩
  simp only [redirectLast, h.toU16_of_lt hlt.le, Option.bind_eq_bind, Option.bind_some]
  refine redirect_eq_map (h.canonical.nodup.eraseIdx p) ((hmem _).mpr ⟨?_, Ne.symm hne⟩)
  exact h.mem_canonicalIndex.mpr (by omega)

/-- What is left of the client index when slot `i` is taken out of it. -/
theorem clients_unlist (hi : s.entries[i]? = some removed) :
    ∃ p rest, s.listedClientPosition removed = .ok p ∧ unlistSlot s.clientIndex p = some rest ∧
      rest.Sublist s.clientIndex ∧ ∀ j, j ∈ rest ↔ j ∈ s.clientIndex ∧ j ≠ i := by
  cases hc : removed.identity.clientOrderKey with
  | none =>
    refine ⟨none, s.clientIndex, listedClientPosition_none hc, rfl, List.Sublist.refl _,
      fun j => ?_⟩
    refine ⟨fun hj => ⟨hj, ?_⟩, And.left⟩
    rintro rfl
    obtain ⟨k, hk⟩ := h.clients.defined j hj
    rw [keyAt_of_getElem? hi, clientKey, hc] at hk
    cases hk
  | some =>
    obtain ⟨p, hp, hget⟩ := h.listedClientPosition hi hc
    exact ⟨some p, s.clientIndex.eraseIdx p, hp, if_pos (List.getElem?_eq_some_iff.mp hget).1,
      eraseIdx_sublist _ _, h.clients.mem_eraseIdx hget⟩

omit h in
theorem map_rename_of_not_mem {l : List ℕ} {a b : ℕ} (h : a ∉ l) : l.map (rename a b) = l := by
  refine (map_congr_left fun x hx => ?_).trans (map_id l)
  have hne : x ≠ a := by
    rintro rfl
    exact h hx
  rw [rename, if_neg hne, id]

/-- The reference to the moved order is redirected, if it has a client key. -/
theorem clients_redirect {moved : OrderEntry} {rest : List ℕ}
    (hi : i < s.entries.length) (hne : i ≠ s.entries.length - 1)
    (hmov : s.entries[s.entries.length - 1]? = some moved) (hsub : rest.Sublist s.clientIndex)
    (hmem : ∀ j, j ∈ rest ↔ j ∈ s.clientIndex ∧ j ≠ i) :
    (if moved.identity.clientOrderKey.isSome then redirectLast rest (s.entries.length - 1) i
      else some rest) = some (rest.map (rename (s.entries.length - 1) i)) := by
  cases hc : moved.identity.clientOrderKey with
  | none =>
    have hnot : s.entries.length - 1 ∉ rest := by
      intro hlast
      obtain ⟨k, hk⟩ := h.clients.defined _ ((hmem _).mp hlast).1
      rw [keyAt_of_getElem? hmov, clientKey, hc] at hk
      cases hk
    rw [map_rename_of_not_mem hnot]
    rfl
  | some client =>
    simp only [Option.isSome_some, if_true, redirectLast, h.toU16_of_lt hi.le, Option.bind_eq_bind,
      Option.bind_some]
    refine redirect_eq_map (h.clients.nodup.sublist hsub) ((hmem _).mpr ⟨?_, Ne.symm hne⟩)
    exact (h.clients.mem_iff _).mpr ⟨client, by rw [keyAt_of_getElem? hmov]; exact hc⟩

/-- **Removal.** The last order takes the freed slot. -/
theorem removeDense (hi : s.entries[i]? = some removed) :
    ∃ t, s.removeDense i = .ok t ∧ Exact t ∧ t.entries = swapRemove s.entries i := by
  have hlt := lt_of_getElem? hi
  obtain ⟨p, hp, hrem, hred, hcan⟩ := h.canonical_remove hi
  obtain ⟨q, rest, hq, hunl, hsub, hmem⟩ := h.clients_unlist hi
  have hcli := h.clients.swapRemove hlt hsub hmem
  refine ⟨⟨swapRemove s.entries i, _, _, (swapRemove s.entries i).countP isLive⟩, ?_,
    ⟨hcan, hcli, venues_iff.mpr (h.venues_rest [removed] (perm_swapRemove hi)), rfl, ?_⟩,
    rfl⟩
  · simp only [OrderTable.removeDense, hi, hp, hq, hrem, hunl, h.adjustLive_remove hi,
      expect_some, ok_bind]
    split_ifs with hlast
    · subst hlast
      rw [rename_self, map_id, map_id]
      rfl
    · have hmov : (swapRemove s.entries i)[i]? = s.entries[s.entries.length - 1]? := by
        rw [getElem?_swapRemove hlt, if_pos (by omega), if_pos rfl]
      obtain ⟨moved, hget⟩ : ∃ moved, s.entries[s.entries.length - 1]? = some moved :=
        ⟨_, getElem?_eq_getElem (by omega)⟩
      simp [hred hlast, hmov, hget, h.clients_redirect hlt hlast hget hsub hmem, Outcome.pure_eq_ok]
  · rw [length_swapRemove]
    exact le_trans (Nat.sub_le _ _) h.length_le

/-- A change of one order that keeps its keys. -/
theorem set_keys (e' : OrderEntry) (hi : s.entries[i]? = some e) (hid : e'.identity = e.identity) :
    Exact ⟨s.entries.set i e', s.canonicalIndex, s.clientIndex,
      (s.entries.set i e').countP isLive⟩ where
  canonical := h.canonical.set_same hi (by
    rw [canonicalKey, canonicalKey, canonicalRank, hid]
    rfl)
  clients := h.clients.set_same hi (by rw [clientKey, clientKey, hid])
  venues := venues_iff.mpr (h.venues_set hi fun j f hj hf => by
    rw [hid]
    refine Bool.eq_false_iff.mpr fun hover => hj (mem_singleton.mpr ?_)
    exact h.slot_unique hf hi hover)
  live := rfl
  length_le := by
    rw [length_set]
    exact h.length_le

/-- A change of every order that keeps its keys and whether it is live. -/
theorem map {f : OrderEntry → OrderEntry} (hid : ∀ e, (f e).identity = e.identity)
    (hlive : ∀ e, (f e).isLive = e.isLive) : Exact { s with entries := s.entries.map f } where
  canonical := h.canonical.congr fun i => by
    unfold keyAt
    rw [getElem?_map]
    cases s.entries[i]? with
    | none => rfl
    | some => simp [canonicalKey, canonicalRank, hid]
  clients := h.clients.congr fun i => by
    unfold keyAt
    rw [getElem?_map]
    cases s.entries[i]? with
    | none => rfl
    | some => simp [clientKey, hid]
  venues := by
    rw [venues_iff, filterMap_map]
    simp only [Function.comp_def, hid]
    exact venues_iff.mp h.venues
  live := by
    rw [countP_map, h.live]
    exact countP_congr fun e _ => by rw [Function.comp_apply, hlive]
  length_le := by
    rw [length_map]
    exact h.length_le

/-! ### Lookups -/

omit h in
theorem findVenue_cases {venue : PmVenueOrderKey} (slots : List ℕ)
    (hslo : ∀ i ∈ slots, i < s.entries.length) :
    (∃ i e, s.findVenue venue slots = some (some i) ∧ s.entries[i]? = some e ∧
      e.identity.venueOrderKey = some venue) ∨ (s.findVenue venue slots = some none ∧
      ∀ i ∈ slots, ∀ e, s.entries[i]? = some e → e.identity.venueOrderKey ≠ some venue) := by
  induction slots with
  | nil => exact .inr ⟨rfl, fun i hi => absurd hi not_mem_nil⟩
  | cons slot _ ih =>
    have hslot := getElem?_eq_getElem (hslo slot (.head _))
    simp only [findVenue, hslot]
    split_ifs with hv
    · exact .inl ⟨slot, _, rfl, hslot, hv⟩
    · rcases ih fun i hi => hslo i (.tail _ hi) with hfou | ⟨hnone, hall⟩
      · exact .inl hfou
      · refine .inr ⟨hnone, fun i hi e he => ?_⟩
        rcases mem_cons.mp hi with rfl | hi
        · cases hslot.symm.trans he
          exact hv
        · exact hall i hi e he

theorem byVenue_cases (identity : PmOrderIdentity) :
    (∃ i e, find.byVenue s identity = some (some i) ∧ s.entries[i]? = some e ∧
      identitiesOverlap e.identity identity = true) ∨ (find.byVenue s identity = some none ∧
      ∀ e ∈ s.entries, sameKey e.identity.venueOrderKey identity.venueOrderKey = false) := by
  unfold find.byVenue
  cases hv : identity.venueOrderKey with
  | none =>
    refine .inr ⟨rfl, fun e _ => Bool.eq_false_iff.mpr fun hsame => ?_⟩
    obtain ⟨_, -, hnone⟩ := sameKey_iff.mp hsame
    cases hnone
  | some venue =>
    have hbd : ∀ i ∈ s.canonicalIndex, i < s.entries.length := fun i => h.mem_canonicalIndex.mp
    rcases findVenue_cases s.canonicalIndex hbd with ⟨i, e, hs, he, hev⟩ | ⟨hs, hall⟩
    · exact .inl ⟨i, e, hs, he, identitiesOverlap_iff.mpr (.inr ⟨venue, hev, hv⟩)⟩
    · refine .inr ⟨hs, fun e he => Bool.eq_false_iff.mpr fun hsame => ?_⟩
      obtain ⟨_, hev, heq⟩ := sameKey_iff.mp hsame
      cases heq
      obtain ⟨i, hi⟩ := mem_iff_getElem?.mp he
      exact hall i (h.mem_canonicalIndex.mpr (lt_of_getElem? hi)) e hi hev

/-- **Lookup.** `find` finds an order that shares a key with the identity, unless there is
none. -/
theorem find_cases (identity : PmOrderIdentity) :
    (∃ i e, s.find identity = some (some i) ∧ s.entries[i]? = some e ∧
      identitiesOverlap e.identity identity = true) ∨ (s.find identity = some none ∧
      ∀ e ∈ s.entries, identitiesOverlap e.identity identity = false) := by
  unfold find clientSearch
  cases hc : identity.clientOrderKey with
  | none =>
    refine (h.byVenue_cases identity).imp id fun ⟨hs, hall⟩ => ⟨hs, fun e he => ?_⟩
    rw [identitiesOverlap, hall e he, hc, Bool.or_false]
    cases e.identity.clientOrderKey <;> rfl
  | some client =>
    rcases h.clients.searchSlot_cases client with ⟨p, i, e, hs, -, he, hec⟩ | ⟨p, hs, hspl⟩
    · exact .inl ⟨i, e, by simp [hs], he, identitiesOverlap_iff.mpr (.inl ⟨client, hec, hc⟩)⟩
    · simp only [hs]
      refine (h.byVenue_cases identity).imp id fun ⟨hs, hall⟩ => ⟨hs, fun e he => ?_⟩
      rw [identitiesOverlap, hall e he, Bool.or_false, Bool.eq_false_iff]
      intro hsame
      obtain ⟨_, hec, heq⟩ := sameKey_iff.mp hsame
      cases hc.symm.trans heq
      exact h.clients.ne_of_splits hspl he hec

/-- The order in the slot shares a key with the identity. -/
def sharesAt (s : OrderTable) (identity : PmOrderIdentity) (i : ℕ) : Bool :=
  s.entries[i]?.any fun e => identitiesOverlap e.identity identity

/-- What the loop of `overlaps` returns when these are the slots that it meets. -/
def gather : List ℕ → Reply (Option ℕ × Option ℕ)
  | [] => .ok (none, none)
  | [i] => .ok (some i, none)
  | [i, j] => .ok (some i, some j)
  | _ => .err .identityConflict

omit h in
theorem sharesAt_iff : sharesAt s identity i = true ↔
      ∃ e, s.entries[i]? = some e ∧ identitiesOverlap e.identity identity = true := by
  unfold sharesAt
  cases s.entries[i]? <;> simp

omit h in
theorem overlapsLoop_eq (identity : PmOrderIdentity) (slots : List ℕ)
    (hslo : ∀ i ∈ slots, i < s.entries.length) (first second : Option ℕ)
    (hfst : first = none → second = none) : s.overlapsLoop identity slots first second =
      gather (first.toList ++ second.toList ++ slots.filter (sharesAt s identity)) := by
  induction slots generalizing first second with
  | nil =>
    cases first with
    | none => rw [hfst rfl]; rfl
    | some => cases second <;> rfl
  | cons slot slots ih =>
    have hslot := getElem?_eq_getElem (hslo slot (.head _))
    have hrest : ∀ i ∈ slots, i < s.entries.length := fun i hi => hslo i (.tail _ hi)
    simp only [overlapsLoop, hslot]
    split_ifs with hover
    · have hskip : sharesAt s identity slot = false := by
        rw [sharesAt, hslot]
        exact hover
      rw [ih hrest first second hfst, filter_cons_of_neg (by rw [hskip]; exact Bool.noConfusion)]
    · have hhit : sharesAt s identity slot = true := by
        rw [sharesAt, hslot]
        exact Bool.eq_true_of_not_eq_false hover
      rw [filter_cons_of_pos hhit]
      cases first with
      | none =>
        cases hfst rfl
        exact ih hrest (some slot) none nofun
      | some i =>
        cases second with
        | none => exact ih hrest (some i) (some slot) nofun
        | some => rfl

/-- At most two orders share a key with an identity: one its client key, one its venue key. -/
theorem length_shares_le (identity : PmOrderIdentity) :
    (s.canonicalIndex.filter (sharesAt s identity)).length ≤ 2 := by
  let byClient (i : ℕ) : Bool :=
    s.entries[i]?.any fun e => sameKey e.identity.clientOrderKey identity.clientOrderKey
  have hinj : ((s.canonicalIndex.filter (sharesAt s identity)).map byClient).Nodup := by
    refine (h.canonical.nodup.filter _).map_on fun i hi j hj heq => ?_
    obtain ⟨a, ha, hova⟩ := sharesAt_iff.mp (mem_filter.mp hi).2
    obtain ⟨b, hb, hovb⟩ := sharesAt_iff.mp (mem_filter.mp hj).2
    simp only [byClient, ha, hb, Option.any_some] at heq
    simp only [identitiesOverlap, Bool.or_eq_true, ← heq] at hova hovb
    cases hside : sameKey a.identity.clientOrderKey identity.clientOrderKey with
    | true =>
      obtain ⟨client, hca, hc⟩ := sameKey_iff.mp hside
      obtain ⟨_, hcb, hc'⟩ := sameKey_iff.mp (heq ▸ hside)
      cases hc.symm.trans hc'
      exact h.clients.entry_unique ha hb hca hcb
    | false =>
      obtain ⟨venue, hva, hv⟩ := sameKey_iff.mp (hova.resolve_left (by simp [hside]))
      obtain ⟨_, hvb, hv'⟩ := sameKey_iff.mp (hovb.resolve_left (by simp [hside]))
      cases hv.symm.trans hv'
      exact h.venues ha hb hva hvb
  have hcard := hinj.length_le_card
  rwa [length_map, Fintype.card_bool] at hcard

/-- **Overlaps.** `overlaps` gives the slots of the orders that the identity touches: none, one
or two. -/
theorem overlaps_cases (identity : PmOrderIdentity) :
    (s.overlaps identity = .ok .none ∧ s.touched identity = []) ∨
    (∃ i e, s.overlaps identity = .ok (.one i) ∧ s.entries[i]? = some e ∧
      s.touched identity = [e]) ∨
    (∃ i j a b, s.overlaps identity = .ok (.bridge i j) ∧ i ≠ j ∧ s.entries[i]? = some a ∧
      s.entries[j]? = some b ∧ s.touched identity = [a, b]) := by
  have hbd : ∀ i ∈ s.canonicalIndex, i < s.entries.length := fun i => h.mem_canonicalIndex.mp
  have hloop := overlapsLoop_eq identity s.canonicalIndex hbd none none fun _ => rfl
  have htch : s.touched identity =
      (s.canonicalIndex.filter (sharesAt s identity)).filterMap (s.entries[·]?) := by
    rw [filterMap_filter, touched]
    refine filterMap_congr fun i _ => ?_
    unfold sharesAt
    cases s.entries[i]? with
    | none => rfl
    | some => simp [Option.filter]
  have hsha : ∀ i ∈ s.canonicalIndex.filter (sharesAt s identity), ∃ e, s.entries[i]? = some e :=
    fun i hi => ⟨_, (sharesAt_iff.mp (mem_filter.mp hi).2).choose_spec.1⟩
  have hlen := h.length_shares_le identity
  have hnd : (s.canonicalIndex.filter (sharesAt s identity)).Nodup := h.canonical.nodup.filter _
  unfold overlaps
  rw [hloop, htch]
  generalize s.canonicalIndex.filter (sharesAt s identity) = hits at hlen hnd hsha
  match hits with
  | [] => exact .inl ⟨rfl, rfl⟩
  | [i] =>
    obtain ⟨e, he⟩ := hsha i (.head _)
    exact .inr (.inl ⟨i, e, rfl, he, by simp [he]⟩)
  | [i, j] =>
    obtain ⟨a, ha⟩ := hsha i (.head _)
    obtain ⟨b, hb⟩ := hsha j (.tail _ (.head _))
    have hij : i ≠ j := by
      rintro rfl
      exact (nodup_cons.mp hnd).1 (.head _)
    exact .inr (.inr ⟨i, j, a, b, rfl, hij, ha, hb, by simp [ha, hb]⟩)
  | _ :: _ :: _ :: _ =>
    simp only [length_cons] at hlen
    omega

theorem mem_touched :
    e ∈ s.touched identity ↔ e ∈ s.entries ∧ identitiesOverlap e.identity identity = true := by
  simp only [touched, mem_filterMap, Option.filter_eq_some_iff]
  constructor
  · rintro ⟨i, -, hi, hover⟩
    exact ⟨mem_of_getElem? hi, hover⟩
  · rintro ⟨he, hover⟩
    obtain ⟨i, hi⟩ := mem_iff_getElem?.mp he
    exact ⟨i, h.mem_canonicalIndex.mpr (lt_of_getElem? hi), hi, hover⟩

theorem sorted_touched (identity : PmOrderIdentity) :
    (s.touched identity).Pairwise fun a b => a.canonicalRank < b.canonicalRank := by
  rw [touched, pairwise_filterMap]
  refine h.canonical.sorted.imp fun {i j} hlt a ha b hb => ?_
  rw [Option.filter_eq_some_iff] at ha hb
  obtain ⟨k, l, hk, hl, hkl⟩ := hlt
  rw [keyAt_of_getElem? ha.1] at hk
  rw [keyAt_of_getElem? hb.1] at hl
  cases hk
  cases hl
  exact hkl

theorem nodup_touched (identity : PmOrderIdentity) : (s.touched identity).Nodup := by
  refine (h.sorted_touched identity).imp fun {a b} hlt => ?_
  rintro rfl
  exact lt_irrefl _ hlt

omit h in
/-- What an identity touches only depends on the orders that share a key with it. -/
theorem touched_congr (hs : Exact s) (ht : Exact t)
    (hmem : ∀ e, identitiesOverlap e.identity identity = true → (e ∈ s.entries ↔ e ∈ t.entries)) :
    s.touched identity = t.touched identity := by
  have hperm : (s.touched identity).Perm (t.touched identity) := by
    rw [perm_ext_iff_of_nodup (hs.nodup_touched identity) (ht.nodup_touched identity)]
    intro e
    rw [hs.mem_touched, ht.mem_touched]
    exact and_congr_left fun hover => hmem e hover
  exact hperm.eq_of_pairwise (fun _ _ _ _ hab hba => absurd (lt_trans hab hba) (lt_irrefl _))
    (hs.sorted_touched identity) (ht.sorted_touched identity)

/-! ### Stored orders -/

/-- Orders that share a key are the same order. -/
theorem eq_of_overlap (ha : a ∈ s.entries) (hb : b ∈ s.entries)
    (hover : identitiesOverlap a.identity b.identity = true) : a = b := by
  obtain ⟨i, hi⟩ := mem_iff_getElem?.mp ha
  obtain ⟨j, hj⟩ := mem_iff_getElem?.mp hb
  cases h.slot_unique hi hj hover
  exact Option.some.inj (hi.symm.trans hj)

omit h in
theorem swaps_push (ht : t.entries = s.entries ++ [entry]) : Swaps s t [] [entry] := by
  intro e
  rw [ht, mem_append]
  simp

omit h in
/-- What is left of a list without duplicates when some of it is gone. -/
theorem mem_of_perm_append {gone rest l : List OrderEntry} (hperm : (gone ++ rest).Perm l)
    (hnd : l.Nodup) : e ∈ rest ↔ e ∈ l ∧ e ∉ gone := by
  obtain ⟨-, -, hdis⟩ := nodup_append.mp (hperm.nodup_iff.mpr hnd)
  rw [← hperm.mem_iff, mem_append]
  constructor
  · exact fun he => ⟨.inr he, fun hgone => hdis e hgone e he rfl⟩
  · rintro ⟨hgone | he, hnot⟩
    · exact absurd hgone hnot
    · exact he

theorem swaps_set (hi : s.entries[i]? = some current)
    (ht : t.entries = s.entries.set i replacement) : Swaps s t [current] [replacement] := by
  obtain ⟨hlt, rfl⟩ := List.getElem?_eq_some_iff.mp hi
  have hperm : ([s.entries[i]] ++ s.entries.eraseIdx i).Perm s.entries :=
    getElem_cons_eraseIdx_perm hlt
  intro e
  rw [ht, (set_perm_cons_eraseIdx hlt _).mem_iff, mem_cons,
    mem_of_perm_append hperm h.nodup, mem_singleton, mem_singleton, or_comm]

theorem swaps_remove (hi : s.entries[i]? = some removed)
    (ht : t.entries = swapRemove s.entries i) : Swaps s t [removed] [] := by
  have hperm : ([removed] ++ swapRemove s.entries i).Perm s.entries := perm_swapRemove hi
  intro e
  rw [ht, mem_of_perm_append hperm h.nodup]
  simp

/-! ### Coalescing -/

variable {merged : OrderEntry}

theorem conflictsElsewhere_eq_false (hi : s.entries[i]? = some a) (hj : s.entries[j]? = some b)
    (hid : mergeIdentity a.identity b.identity = some merged.identity) :
    s.conflictsElsewhere (min i j) (max i j) merged = false := by
  rw [conflictsElsewhere, any_eq_false]
  rintro ⟨e, k⟩ hmem
  have hk : s.entries[k]? = some e := mk_mem_zipIdx_iff_getElem?.mp hmem
  have hnone : k ≠ i → k ≠ j → identitiesOverlap e.identity merged.identity = false := by
    intro hki hkj
    refine Bool.eq_false_iff.mpr fun hover => ?_
    rcases overlap_of_merged hid hover with hover | hover
    · exact hki (h.slot_unique hk hi hover)
    · exact hkj (h.slot_unique hk hj hover)
  simp only [Bool.and_eq_true, bne_iff_ne, ne_eq, Bool.or_eq_true, beq_iff_eq, not_and]
  rintro ⟨hmin, hmax⟩ hsame
  have hfree := hnone (by omega) (by omega)
  rcases hsame with hrank | hcl
  · rw [overlap_of_rank_eq hrank] at hfree
    cases hfree
  · rw [identitiesOverlap, hcl, Bool.true_or] at hfree
    cases hfree

/-- Removing two orders, the one in the upper slot first. -/
theorem removeDense_two {lower upper : ℕ} (hlt : lower < upper)
    (hl : s.entries[lower]? = some a) (hu : s.entries[upper]? = some b) :
    ∃ t, s.removeDense upper >>= (·.removeDense lower) = .ok t ∧ Exact t ∧
      (b :: a :: t.entries).Perm s.entries := by
  obtain ⟨t, ht, hexa, hents⟩ := h.removeDense hu
  have hupp := lt_of_getElem? hu
  have hsta : t.entries[lower]? = some a := by
    rw [hents, getElem?_swapRemove hupp, if_pos (by omega), if_neg (by omega), hl]
  obtain ⟨u, hu', hexa', hents'⟩ := hexa.removeDense hsta
  refine ⟨u, by rw [ht, ok_bind, hu'], hexa', ?_⟩
  have hfst := perm_swapRemove hu
  have hsnd := perm_swapRemove hsta
  rw [← hents] at hfst
  rw [← hents'] at hsnd
  exact (hsnd.cons b).trans hfst

/-- **Coalescing.** Two orders that can be merged are replaced by the merged one. -/
theorem coalesceEntries (hi : s.entries[i]? = some a) (hj : s.entries[j]? = some b) (hij : i ≠ j)
    (hm : mergeEntries a b = .ok merged) :
    ∃ t, s.coalesceEntries i j = (.ok (), t) ∧ Exact t ∧ Swaps s t [a, b] [merged] ∧
      t.entries.length + 1 = s.entries.length := by
  have hid := mergeIdentity_of_merged hm
  have hmer : s.mergedAt i j = .ok merged := by
    simp [mergedAt, hi, hj, expect_some, ok_bind, hm]
  obtain ⟨t, ht, hexa, hperm⟩ : ∃ t, s.removeDense (max i j) >>= (·.removeDense (min i j)) = .ok t ∧
      Exact t ∧ ([a, b] ++ t.entries).Perm s.entries := by
    rcases Nat.lt_or_gt_of_ne hij with hlt | hlt
    · rw [max_eq_right hlt.le, min_eq_left hlt.le]
      obtain ⟨t, ht, hexa, hperm⟩ := h.removeDense_two hlt hi hj
      exact ⟨t, ht, hexa, (List.Perm.swap _ _ _).trans hperm⟩
    · rw [max_eq_left hlt.le, min_eq_right hlt.le]
      exact h.removeDense_two hlt hj hi
  have hrest : ∀ e, e ∈ t.entries ↔ e ∈ s.entries ∧ e ∉ [a, b] :=
    fun _ => mem_of_perm_append hperm h.nodup
  have hlen := hperm.length_eq
  simp only [length_append, length_cons, length_nil] at hlen
  have hfree : t.Unshared merged.identity [] := by
    intro k e _ hk
    obtain ⟨hmem, hnot⟩ := (hrest e).mp (mem_of_getElem? hk)
    refine Bool.eq_false_iff.mpr fun hover => hnot ?_
    rcases overlap_of_merged hid hover with hover | hover
    · rw [h.eq_of_overlap hmem (mem_of_getElem? hi) hover]
      exact (.head _)
    · rw [h.eq_of_overlap hmem (mem_of_getElem? hj) hover]
      exact .tail _ (.head _)
  have hroom : t.entries.length < maxPmPrivateOrders := by
    have := h.length_le
    omega
  obtain ⟨u, hu, hexa', hents⟩ := hexa.insertOrdered hroom hfree
  refine ⟨u, ?_, hexa', fun e => ?_, ?_⟩
  · simp only [OrderTable.coalesceEntries, hmer, h.conflictsElsewhere_eq_false hi hj hid, ht, hu]
    rfl
  · rw [hents, mem_append, hrest e]
  · rw [hents, length_append, length_singleton]
    omega

end Exact

end Reap.Order.OrderTable
