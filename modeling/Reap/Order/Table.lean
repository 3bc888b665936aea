import Reap.Base.DenseIndex
import Reap.Order.State

/-!
# The dense order table

The orders are stored densely and listed in two indexes, one by venue and client key and one
by client key alone. Every function here is one of the source's dense index, under the
source's name. A function returns `Outcome.panic`, or `none`, where the source would abort:
at an index out of bounds, a conversion that does not fit, or an `expect`.

The table is *exact* when both indexes list what they should, no two orders share a key, and
the live count is right.

## What is proved

* `Exact.find_cases`, `Exact.overlaps_cases` — in an exact table the lookups find exactly the
  orders that share a key with the identity in question.
* `Exact.insertOrdered`, `Exact.replaceOrdered`, `Exact.removeDense`,
  `Exact.coalesceEntries` — on an exact table none of the operations aborts, each does to
  the stored orders what its name says, and it leaves an exact table.
-/

namespace Reap.Order

open Base Reap.Core OrderEntry List

namespace OrderTable

/-! ### Lookups -/

section

variable (index : List ℕ) (s : OrderTable) (denseSlot : ℕ) (entry : OrderEntry)
  (identity : PmOrderIdentity)

/-- The place of a new order. -/
def canonicalInsertionPosition : Reply ℕ :=
  match searchIndex canonicalKey s.entries s.canonicalIndex entry.canonicalRank with
  | none => .panic
  | some (.ok _) => .err .identityConflict
  | some (.error position) => .ok position

/-- The position in the index and the slot, or where to insert. -/
def clientSearch (client : PmClientOrderKey) : Option (Except ℕ (ℕ × ℕ)) :=
  searchSlot clientKey s.entries s.clientIndex client

/-- The place at which a new client key is to be listed. -/
def newClientPosition (client : PmClientOrderKey) : Reply ℕ :=
  match s.clientSearch client with
  | none => .panic
  | some (.ok _) => .err .identityConflict
  | some (.error position) => .ok position

/-- The place of its client. -/
def clientInsertionPosition : Reply (Option ℕ) :=
  match entry.identity.clientOrderKey with
  | none => .ok none
  | some client => do return some (← s.newClientPosition client)

/-- The place at which the client key of a stored order is listed. -/
def listedClientPosition : Reply (Option ℕ) :=
  match entry.identity.clientOrderKey with
  | none => .ok none
  | some client =>
    match s.clientSearch client with
    | some (.ok (position, _)) => .ok (some position)
    | _ => .panic

/-- The first slot of the canonical index whose order has the venue key. -/
def findVenue (s : OrderTable) (venue : PmVenueOrderKey) : List ℕ → Option (Option ℕ)
  | [] => some none
  | slot :: slots =>
    match s.entries[slot]? with
    | none => none
    | some entry =>
      if entry.identity.venueOrderKey = some venue then some (some slot)
      else s.findVenue venue slots

/-- `find`. -/
def find : Option (Option ℕ) :=
  match identity.clientOrderKey with
  | none => byVenue
  | some client =>
    match s.clientSearch client with
    | none => none
    | some (.ok (_, slot)) => some (some slot)
    | some (.error _) => byVenue
where
  /-- The search by venue key. -/
  byVenue : Option (Option ℕ) :=
    match identity.venueOrderKey with
    | none => some none
    | some venue => s.findVenue venue s.canonicalIndex

/-- The loop of `overlaps` over the canonical index, with the slots found so far. -/
def overlapsLoop (s : OrderTable) (identity : PmOrderIdentity) :
    List ℕ → Option ℕ → Option ℕ → Reply (Option ℕ × Option ℕ)
  | [], first, second => .ok (first, second)
  | slot :: slots, first, second =>
    match s.entries[slot]? with
    | none => .panic
    | some entry =>
      if identitiesOverlap entry.identity identity = false then
        s.overlapsLoop identity slots first second
      else
        match first, second with
        | none, _ => s.overlapsLoop identity slots (some slot) second
        | some _, none => s.overlapsLoop identity slots first (some slot)
        | some _, some _ => .err .identityConflict

/-- `overlaps`. -/
def overlaps : Reply OrderOverlap := do
  match ← s.overlapsLoop identity s.canonicalIndex none none with
  | (none, none) => .ok .none
  | (some index, none) => .ok (.one index)
  | (some first, some second) => .ok (.bridge first second)
  | (none, some _) => .panic

/-! ### Operations -/

/-- The live count after an order's liveness has gone from `was` to `is`. -/
def adjustLive (count : ℕ) (was is : Bool) : Option ℕ :=
  match was, is with
  | false, true => toU16 (count + 1)
  | true, false => if count = 0 then none else some (count - 1)
  | false, false | true, true => some count

/-- List a slot at a place, if there is one. -/
def listSlot (position : Option ℕ) (slot : ℕ) : Option (List ℕ) :=
  match position with
  | some position => insertAt index position slot
  | none => some index

/-- Take the slot at a place out of an index, if there is a place. -/
def unlistSlot (position : Option ℕ) : Option (List ℕ) :=
  match position with
  | some position => removeAt index position
  | none => some index

/-- Insert at the places. -/
def insertAtIndexPositions (canonicalPosition : ℕ) (clientPosition : Option ℕ)
    (entry : OrderEntry) : Reply OrderTable := do
  let denseSlot ← .expect (toU16 s.entries.length)
  let liveCount ← .expect (adjustLive s.liveCount false entry.isLive)
  let canonicalIndex ← .expect (insertAt s.canonicalIndex canonicalPosition denseSlot)
  let clientIndex ← .expect (listSlot s.clientIndex clientPosition denseSlot)
  return ⟨s.entries ++ [entry], canonicalIndex, clientIndex, liveCount⟩

/-- `insert_ordered`. -/
def insertOrdered : Reply OrderTable := do
  let canonicalPosition ← s.canonicalInsertionPosition entry
  let clientPosition ← s.clientInsertionPosition entry
  s.insertAtIndexPositions canonicalPosition clientPosition entry

/-- A place that was looked up while the slot at `old` was still listed, without that slot. -/
def withoutOld (old position : ℕ) : ℕ := if old < position then position - 1 else position

/-- The place of the replacement in the canonical index. -/
def movedCanonicalPosition (current replacement : OrderEntry) (old : ℕ) : Reply ℕ :=
  if current.canonicalRank = replacement.canonicalRank then .ok old
  else do return withoutOld old (← s.canonicalInsertionPosition replacement)

/-- The place of the replacement in the client index. -/
def movedClientPosition (current replacement : OrderEntry) (old : Option ℕ) : Reply (Option ℕ) :=
  if current.identity.clientOrderKey = replacement.identity.clientOrderKey then .ok old
  else
    match replacement.identity.clientOrderKey with
    | none => .ok none
    | some client => do
      let position ← s.newClientPosition client
      return some (match old with
        | some old => withoutOld old position
        | none => position)

/-- Take a slot out of an index and list it at another place. -/
def moveSlot (old new : ℕ) : Option (List ℕ) := do
  let slot ← index[old]?
  insertAt (← removeAt index old) new slot

/-- The client index after the replacement of an order whose client key changes. -/
def moveClient (old new : Option ℕ) : Option (List ℕ) :=
  match old, new with
  | some old, some new => moveSlot index old new
  | none, some new => do insertAt index new (← toU16 denseSlot)
  | some old, none => removeAt index old
  | none, none => some index

/-- `replace_ordered`. -/
def replaceOrdered (replacement : OrderEntry) : Reply OrderTable := do
  let current ← .expect s.entries[denseSlot]?
  let oldCanonical ← .expect (s.canonicalIndex.findIdx? (· == denseSlot))
  let newCanonical ← s.movedCanonicalPosition current replacement oldCanonical
  let oldClient ← s.listedClientPosition current
  let newClient ← s.movedClientPosition current replacement oldClient
  let liveCount ← .expect (adjustLive s.liveCount current.isLive replacement.isLive)
  let canonicalIndex ← .expect <|
    if current.canonicalRank ≠ replacement.canonicalRank ∧ newCanonical ≠ oldCanonical then
      moveSlot s.canonicalIndex oldCanonical newCanonical
    else some s.canonicalIndex
  let clientIndex ← .expect <|
    if current.identity.clientOrderKey ≠ replacement.identity.clientOrderKey then
      moveClient s.clientIndex denseSlot oldClient newClient
    else some s.clientIndex
  return ⟨s.entries.set denseSlot replacement, canonicalIndex, clientIndex, liveCount⟩

/-- Redirect the reference to the last slot, which a removal has moved to `denseSlot`. -/
def redirectLast (last denseSlot : ℕ) : Option (List ℕ) := do
  redirect index last (← toU16 denseSlot)

/-- `remove_dense`. -/
def removeDense : Reply OrderTable := do
  let removed ← .expect s.entries[denseSlot]?
  let canonicalPosition ← .expect (s.canonicalIndex.findIdx? (· == denseSlot))
  let clientPosition ← s.listedClientPosition removed
  let canonicalIndex ← .expect (removeAt s.canonicalIndex canonicalPosition)
  let clientIndex ← .expect (unlistSlot s.clientIndex clientPosition)
  let liveCount ← .expect (adjustLive s.liveCount removed.isLive false)
  let last := s.entries.length - 1
  let entries := swapRemove s.entries denseSlot
  if denseSlot = last then return ⟨entries, canonicalIndex, clientIndex, liveCount⟩
  else
    let canonicalIndex ← .expect (redirectLast canonicalIndex last denseSlot)
    let moved ← .expect entries[denseSlot]?
    let clientIndex ← .expect <|
      if moved.identity.clientOrderKey.isSome then redirectLast clientIndex last denseSlot
      else some clientIndex
    return ⟨entries, canonicalIndex, clientIndex, liveCount⟩

/-- The orders that are stored in two slots, merged. -/
def mergedAt (first second : ℕ) : Reply OrderEntry := do
  mergeEntries (← .expect s.entries[first]?) (← .expect s.entries[second]?)

/-- A further order has the keys of the merged one. -/
def conflictsElsewhere (lower upper : ℕ) (merged : OrderEntry) : Bool :=
  s.entries.zipIdx.any fun (entry, index) =>
    index != lower && index != upper &&
      (entry.canonicalRank == merged.canonicalRank ||
        sameKey entry.identity.clientOrderKey merged.identity.clientOrderKey)

/-- `coalesce_entries`. When the last insertion fails, the two orders are already removed. -/
def coalesceEntries (first second : ℕ) : Reply Unit × OrderTable :=
  match s.mergedAt first second with
  | .panic => (.panic, s)
  | .err error => (.err error, s)
  | .ok merged =>
    let lower := min first second
    let upper := max first second
    if s.conflictsElsewhere lower upper merged then (.err .identityConflict, s)
    else
      match s.removeDense upper >>= (·.removeDense lower) with
      | .panic => (.panic, s)
      | .err error => (.err error, s)
      | .ok t =>
        match t.insertOrdered merged with
        | .panic => (.panic, t)
        | .err error => (.err error, t)
        | .ok u => (.ok (), u)

/-! ### Exact tables -/

/-- Both indexes are exact, no two orders share a key, the live count is right, and the orders
fit. -/
structure Exact (s : OrderTable) : Prop where
  canonical : Indexed canonicalKey s.entries s.canonicalIndex
  clients : Indexed clientKey s.entries s.clientIndex
  venues : ∀ {i j : ℕ} {a b : OrderEntry} {v : PmVenueOrderKey},
    s.entries[i]? = some a → s.entries[j]? = some b →
    a.identity.venueOrderKey = some v → b.identity.venueOrderKey = some v → i = j
  live : s.liveCount = s.entries.countP isLive
  length_le : s.entries.length ≤ maxPmPrivateOrders

/-- The orders that share a key with the identity, in canonical order. -/
def touched : List OrderEntry :=
  s.canonicalIndex.filterMap fun i =>
    s.entries[i]?.filter fun e => identitiesOverlap e.identity identity

/-- No order outside the slots in `except` shares a key with the identity. -/
def Unshared (except : List ℕ) : Prop :=
  ∀ i e, i ∉ except → s.entries[i]? = some e → identitiesOverlap e.identity identity = false

end

variable {e : OrderEntry} {i : ℕ} {identity : PmOrderIdentity} {s : OrderTable}

theorem Unshared.not_overlap {except : List ℕ} (h : s.Unshared identity except) (hi : i ∉ except)
    (he : s.entries[i]? = some e) : ¬ identitiesOverlap e.identity identity = true :=
  Bool.eq_false_iff.mp (h i e hi he)

theorem Unshared.not_mem (h : s.Unshared identity []) (he : e ∈ s.entries) :
    ¬ identitiesOverlap e.identity identity = true := by
  obtain ⟨i, hi⟩ := mem_iff_getElem?.mp he
  exact h.not_overlap not_mem_nil hi

/-- Only the order that may share a key does. -/
theorem Unshared.eq_of_overlap {current : OrderEntry} (h : s.Unshared identity [i])
    (hi : s.entries[i]? = some current) (he : e ∈ s.entries)
    (hover : identitiesOverlap e.identity identity = true) : e = current := by
  obtain ⟨j, hj⟩ := mem_iff_getElem?.mp he
  by_cases hji : j ∈ [i]
  · cases mem_singleton.mp hji
    exact Option.some.inj (hj.symm.trans hi)
  · exact absurd hover (h.not_overlap hji hj)

variable {a b : OrderEntry}

theorem rank_eq_iff : a.canonicalRank = b.canonicalRank ↔
      a.identity.venueOrderKey = b.identity.venueOrderKey ∧
        a.identity.clientOrderKey = b.identity.clientOrderKey :=
  (toLex_inj (α := WithBot PmVenueOrderKey × WithBot PmClientOrderKey)).trans Prod.mk_inj

theorem overlap_of_rank_eq (h : a.canonicalRank = b.canonicalRank) :
    identitiesOverlap a.identity b.identity = true :=
  identitiesOverlap_of_keys_eq (rank_eq_iff.mp h).2 (rank_eq_iff.mp h).1

theorem lt_of_getElem? (hi : s.entries[i]? = some e) : i < s.entries.length :=
  (List.getElem?_eq_some_iff.mp hi).1

namespace Exact

variable {s : OrderTable}

theorem nil : Exact ⟨[], [], [], 0⟩ where
  canonical := .empty _
  clients := .empty _
  venues := by
    intro i j a b v ha
    simp at ha
  live := rfl
  length_le := Nat.zero_le _

section

variable (h : Exact s)

include h

/-- Orders that share a key are the same. -/
theorem slot_unique {j : ℕ} (ha : s.entries[i]? = some a)
    (hb : s.entries[j]? = some b) (hover : identitiesOverlap a.identity b.identity = true) :
    i = j := by
  rcases identitiesOverlap_iff.mp hover with ⟨client, hca, hcb⟩ | ⟨venue, hva, hvb⟩
  · exact h.clients.entry_unique ha hb hca hcb
  · exact h.venues ha hb hva hvb

theorem nodup : s.entries.Nodup := by
  rw [nodup_iff_getElem?_ne_getElem?]
  intro i j hij hj heq
  obtain ⟨e, he⟩ : ∃ e, s.entries[j]? = some e := ⟨_, getElem?_eq_getElem hj⟩
  have := h.slot_unique (heq.trans he) he (identitiesOverlap_self _)
  omega

theorem mem_canonicalIndex : i ∈ s.canonicalIndex ↔ i < s.entries.length := by
  rw [(h.canonical.perm_range fun e => ⟨_, rfl⟩).mem_iff, mem_range]

/-- The slot of an order is in the canonical index once. -/
theorem canonicalPosition (hi : s.entries[i]? = some e) :
    ∃ p, s.canonicalIndex.findIdx? (· == i) = some p ∧ s.canonicalIndex[p]? = some i :=
  findIdx?_of_mem (h.mem_canonicalIndex.mpr (lt_of_getElem? hi))

/-- The client key of a stored order is listed. -/
theorem listedClientPosition {client : PmClientOrderKey} (hi : s.entries[i]? = some e)
    (hc : e.identity.clientOrderKey = some client) :
    ∃ p, s.listedClientPosition e = .ok (some p) ∧ s.clientIndex[p]? = some i := by
  rcases h.clients.searchSlot_cases client with ⟨p, j, e', hs, hp, he', hc'⟩ | ⟨p, -, hspl⟩
  · cases h.clients.entry_unique hi he' hc hc'
    exact ⟨p, by simp [OrderTable.listedClientPosition, hc, clientSearch, hs], hp⟩
  · exact absurd hc (h.clients.ne_of_splits hspl (mem_of_getElem? hi))

end

theorem listedClientPosition_none (hc : e.identity.clientOrderKey = none) :
    s.listedClientPosition e = .ok none := by
  simp [OrderTable.listedClientPosition, hc]

end Exact

end OrderTable

end Reap.Order
