import Reap.Order.Step

/-!
# What the order state's calls do

The one examination of the reducer. It goes from the inside out: what `updateExisting` does,
what it does to two orders that are coalesced first, what one observation does, what the rows
of a snapshot do one after the other, and at last what a call does.

## What is proved

* `Effect` of `applyObservation` and `reduceRow` — what one observation does.
* `reduceRows_spec` — no two rows of a snapshot that pass the preflight interfere, so each
  does what it would do alone.
* `call_spec` — every call meets its `CallSpec`.
-/

namespace Reap.Order

open Base Reap.Core Outcome PmOrderState OrderTable List

/-! ### Refusals -/

/-- An event is applied, ignored or refused, and the preflight tells which. -/
theorem preflight_cases (prior : OrderEntry) (event : PmOrderEvent)
    (occurrence : PmPrivateOccurrence) :
    (Applies prior event occurrence ∧ preflightExistingUpdate prior event occurrence = .ok ()) ∨
    (¬ Applies prior event occurrence ∧ preflightExistingUpdate prior event occurrence = .ok () ∧
      (isBefore occurrence prior.lastOccurrence = true ∨
        (prior.lastOccurrence = some occurrence ∧ prior.event = some event))) ∨
    (¬ Applies prior event occurrence ∧
      ∃ error, preflightExistingUpdate prior event occurrence = .error error) := by
  unfold preflightExistingUpdate
  by_cases hskip : isBefore occurrence prior.lastOccurrence = true ∨
      (prior.lastOccurrence = some occurrence ∧ prior.event = some event)
  · rw [if_pos hskip]
    refine .inr (.inl ⟨?_, rfl, hskip⟩)
    rintro ⟨hbef, hlast, -⟩
    rcases hskip with h | ⟨h, -⟩
    · rw [hbef] at h
      cases h
    · exact hlast h
  rw [if_neg hskip]
  by_cases hsame : prior.lastOccurrence = some occurrence
  · rw [if_pos hsame]
    exact .inr (.inr ⟨fun happ => happ.2.1 hsame, _, rfl⟩)
  rw [if_neg hsame]
  cases hchk : validateUpdate prior event with
  | error e =>
    refine .inr (.inr ⟨fun happ => ?_, e, rfl⟩)
    cases hchk.symm.trans happ.2.2
  | ok =>
    have hbef := Bool.eq_false_iff.mpr fun hbef => hskip (.inl hbef)
    exact .inl ⟨⟨hbef, hsame, hchk⟩, rfl⟩

variable {event : PmOrderEvent} {prior : OrderEntry}

theorem ensureIdentityMerge_of_validateUpdate (h : validateUpdate prior event = .ok ()) :
    ensureIdentityMerge prior.identity event.order = .ok () := by
  unfold validateUpdate at h
  split at h
  · cases h
  · assumption

/-! ### Changes of the stored orders -/

/-- Some orders have given way to one. -/
structure Changes (s t : PmOrderState) (gone : List OrderEntry) (come : OrderEntry) : Prop where
  exact : t.Exact
  swaps : OrderTable.Swaps s.toOrderTable t.toOrderTable gone [come]
  length : t.entries.length + gone.length = s.entries.length + 1
  revision : t.latestSnapshotRevision = s.latestSnapshotRevision
  completion : t.latestSnapshotCompletion = s.latestSnapshotCompletion

theorem SameStore.refl (s : PmOrderState) : SameStore s s := ⟨rfl, rfl, rfl⟩

variable {s : PmOrderState} {a b merged : OrderEntry} {identity : PmOrderIdentity}
  {t : PmOrderState} {e : OrderEntry}

theorem SameStore.trans {u : PmOrderState} (h : SameStore s t) (h' : SameStore t u) :
    SameStore s u :=
  ⟨h'.table.trans h.table, h'.revision.trans h.revision, h'.completion.trans h.completion⟩

namespace Changes

variable {s t u : PmOrderState} {gone : List OrderEntry} {come : OrderEntry}

/-- Counters do not matter. -/
theorem then_same (h : Changes s t gone come) (hu : SameStore t u) : Changes s u gone come where
  exact := hu.table ▸ h.exact
  swaps := by
    rw [OrderTable.Swaps, hu.table]
    exact h.swaps
  length := by
    rw [hu.table]
    exact h.length
  revision := hu.revision.trans h.revision
  completion := hu.completion.trans h.completion

/-- What has come is replaced at once. -/
theorem replace {last : OrderEntry} (h : Changes s t gone come)
    (hnew : ∀ e ∈ s.entries, e ∉ gone → e ≠ come) (h' : Changes t u [come] last) :
    Changes s u gone last where
  exact := h'.exact
  swaps := by
    intro e
    rw [h'.swaps e, h.swaps e]
    simp only [mem_singleton]
    constructor
    · rintro (⟨⟨hs, hgone⟩ | rfl, hne⟩ | rfl)
      · exact .inl ⟨hs, hgone⟩
      · exact absurd rfl hne
      · exact .inr rfl
    · rintro (⟨hs, hgone⟩ | rfl)
      · exact .inl ⟨.inl ⟨hs, hgone⟩, hnew e hs hgone⟩
      · exact .inr rfl
  length := by
    have h₁ := h.length
    have h₂ := h'.length
    rw [length_singleton] at h₂
    omega
  revision := h'.revision.trans h.revision
  completion := h'.completion.trans h.completion

end Changes

/-- What an update of the order `prior` does: it is applied, or it leaves a state of which `kept`
holds and answers as the preflight does. -/
def Updates (s : PmOrderState) (gone : List OrderEntry) (prior : OrderEntry) (o : Observation)
    (kept : PmOrderState → Prop) (result : Reply PmOrderApply × PmOrderState) : Prop :=
  (Applies prior o.event o.occurrence ∧ ∃ answer t identity, result = (.ok answer, t) ∧
    mergeIdentity prior.identity o.event.order = some identity ∧
    Changes s t gone (prior.updated identity o.event o.occurrence o.knowledge o.reservation)) ∨
  (¬ Applies prior o.event o.occurrence ∧ ∃ reply t, result = (reply, t) ∧ kept t ∧
    ((∃ answer, reply = .ok answer ∧ preflightExistingUpdate prior o.event o.occurrence = .ok ()) ∨
      ∃ error, reply = .err error ∧
        preflightExistingUpdate prior o.event o.occurrence = .error error))

theorem sameStore_countRemote (s : PmOrderState) (ownership : OwnershipState) :
    SameStore s (s.countRemote ownership) := by
  cases ownership <;> exact ⟨rfl, rfl, rfl⟩

/-! ### One order -/

section

variable {s : PmOrderState} (h : s.Exact)

include h

theorem unshared_nil (htch : s.touched identity = []) : s.Unshared identity [] := by
  intro i e _ he
  refine Bool.eq_false_iff.mpr fun hover => ?_
  have := h.mem_touched.mpr ⟨mem_of_getElem? he, hover⟩
  rw [htch] at this
  exact not_mem_nil this

variable {prior : OrderEntry} {i : ℕ}

/-- What an order becomes by taking the keys of an event shares no key with another order, if
the event touches no other. -/
theorem unshared_merged {order : PmOrderIdentity} (hi : s.entries[i]? = some prior)
    (htch : ∀ e ∈ s.touched order, e = prior)
    (hid : mergeIdentity prior.identity order = some identity) : s.Unshared identity [i] := by
  intro j e hj he
  refine Bool.eq_false_iff.mpr fun hover => hj (mem_singleton.mpr ?_)
  rcases overlap_of_merged hid hover with hover | hover
  · exact h.slot_unique he hi hover
  · cases htch e (h.mem_touched.mpr ⟨mem_of_getElem? he, hover⟩)
    exact h.slot_unique he hi (identitiesOverlap_self _)

/-- A new order is stored. -/
theorem insert_spec {α : Type} (entry : OrderEntry) {done : PmOrderState → Reply α × PmOrderState}
    (htch : s.touched entry.identity = []) :
    (∃ t, s.insert entry done = (.err .capacity, t) ∧ SameStore s t ∧
      s.entries.length = maxPmPrivateOrders) ∨
    (∃ t, s.insert entry done = done t ∧ Changes s t [] entry) := by
  unfold PmOrderState.insert
  split_ifs with hfull
  · exact .inl ⟨_, rfl, ⟨rfl, rfl, rfl⟩, hfull⟩
  · obtain ⟨t, ht, hexa, hents⟩ :=
      h.insertOrdered (lt_of_le_of_ne h.length_le hfull) (unshared_nil h htch)
    refine .inr ⟨s.setTable t, by rw [ht]; rfl, hexa, OrderTable.Exact.swaps_push hents, ?_,
      rfl, rfl⟩
    simp [setTable, hents]

/-- An order is replaced by one that shares no key with another. -/
theorem replace_spec (next : OrderEntry) (hi : s.entries[i]? = some prior)
    (hfree : s.Unshared next.identity [i]) :
    ∃ t, s.replaceOrdered i next = .ok t ∧ Changes s (s.setTable t) [prior] next := by
  obtain ⟨t, ht, hexa, hents⟩ := h.replaceOrdered next hi hfree
  exact ⟨t, ht, hexa, h.swaps_set hi hents, by simp [setTable, hents], rfl, rfl⟩

/-- `updateExisting` does what the preflight says. -/
theorem updateExisting_spec (o : Observation) (hi : s.entries[i]? = some prior)
    (htch : ∀ e ∈ s.touched o.event.order, e = prior)
    (hacc : prior.identity.account = o.event.order.account) :
    Updates s [prior] prior o (SameStore s)
      (s.updateExisting i o.event o.occurrence o.knowledge o.reservation) := by
  unfold Updates updateExisting preflightExistingUpdate Applies
  simp only [hi]
  cases hbef : isBefore o.occurrence prior.lastOccurrence with
  | true => exact .inr ⟨nofun, _, _, rfl, ⟨rfl, rfl, rfl⟩, .inl ⟨_, rfl, by simp⟩⟩
  | false =>
  simp only [Bool.false_eq_true, if_false, false_or, true_and]
  by_cases hlast : prior.lastOccurrence = some o.occurrence
  · refine .inr ⟨fun happ => happ.1 hlast, ?_⟩
    by_cases hsame : prior.event = some o.event
    · simp only [hlast, hsame, and_self, if_true]
      exact ⟨_, _, rfl, ⟨rfl, rfl, rfl⟩, .inl ⟨_, rfl, trivial⟩⟩
    · simp only [hlast, hsame, and_false, if_false, if_true]
      exact ⟨_, _, rfl, ⟨rfl, rfl, rfl⟩, .inr ⟨_, rfl, rfl⟩⟩
  simp only [hlast, false_and, if_false, ne_eq, not_false_eq_true, true_and]
  cases hchk : validateUpdate prior o.event with
  | error =>
    exact .inr ⟨nofun, _, _, rfl, .refl s, .inr ⟨_, rfl, rfl⟩⟩
  | ok =>
    obtain ⟨identity, hid, -⟩ := mergeIdentity_of_account hacc
    obtain ⟨t, ht, hchg⟩ := replace_spec h
      (prior.updated identity o.event o.occurrence o.knowledge o.reservation) hi
      (unshared_merged h hi htch hid)
    refine .inl ⟨rfl, ?_⟩
    simp only [hid, ht, store]
    split_ifs
    · exact ⟨_, _, identity, rfl, rfl, hchg.then_same ⟨rfl, rfl, rfl⟩⟩
    · exact ⟨_, _, identity, rfl, rfl, hchg⟩

end

/-! ### Two orders -/

theorem isBefore_iff {occurrence : PmPrivateOccurrence} :
    isBefore occurrence e.lastOccurrence = true ↔ ↑occurrence < e.observedAt := by
  unfold OrderEntry.observedAt
  cases e.lastOccurrence with
  | none => exact ⟨nofun, fun hlt => absurd hlt not_lt_bot⟩
  | some => exact decide_eq_true_iff.trans WithBot.coe_lt_coe.symm

/-- The coalesced order was last observed when the later of the two was. -/
theorem isBefore_selectEntry (occurrence : PmPrivateOccurrence) (a b : OrderEntry) :
    isBefore occurrence (selectEntry a b).lastOccurrence =
      (isBefore occurrence a.lastOccurrence || isBefore occurrence b.lastOccurrence) := by
  rw [Bool.eq_iff_iff, Bool.or_eq_true, isBefore_iff, isBefore_iff, isBefore_iff]
  unfold selectEntry compareOccurrences
  split
  · next hlt =>
    rw [compare_lt_iff_lt] at hlt
    exact ⟨.inr, fun hor => hor.elim (lt_trans · hlt) id⟩
  · next hgt =>
    rw [compare_gt_iff_gt] at hgt
    exact ⟨.inl, fun hor => hor.elim id (lt_trans · hgt)⟩
  · next heq =>
    rw [compare_eq_iff_eq] at heq
    split_ifs
    · exact ⟨.inr, fun hor => hor.elim (fun hlt => heq ▸ hlt) id⟩
    · exact ⟨.inl, fun hor => hor.elim id (fun hlt => heq ▸ hlt)⟩

section

variable (hm : mergeEntries a b = .ok merged)

include hm

theorem event_merged : merged.event = (selectEntry a b).event := by
  obtain ⟨_, _, _, -, -, -, -, -, -, rfl⟩ := mergeEntries_eq_ok.mp hm
  rfl

variable {o : Observation}

theorem isStale_eq : o.isStale a b = isBefore o.occurrence merged.lastOccurrence := by
  obtain ⟨_, _, _, -, -, -, -, -, -, rfl⟩ := mergeEntries_eq_ok.mp hm
  exact (isBefore_selectEntry ..).symm

theorem isRefused_iff : o.isRefused a b = true ↔
      ∃ error, preflightExistingUpdate merged o.event o.occurrence = .error error := by
  simp only [Observation.isRefused, hm]
  cases preflightExistingUpdate merged o.event o.occurrence <;> simp

end

section

variable {config : PmPrivateStateConfig} {s : PmOrderState} (h : Sound config s)

include h

variable {identity : PmOrderIdentity} {a b merged : OrderEntry}

theorem mem_of_touched {l : List OrderEntry} (htch : s.touched identity = l) (he : e ∈ l) :
    e ∈ s.entries ∧ identitiesOverlap e.identity identity = true :=
  h.exact.mem_touched.mp (htch ▸ he)

section

variable (htch : s.touched identity = [a, b])

include htch

/-- The two orders that an identity touches. -/
theorem pair_of_touched : (a ∈ s.entries ∧ identitiesOverlap a.identity identity = true) ∧
      b ∈ s.entries ∧ identitiesOverlap b.identity identity = true :=
  ⟨mem_of_touched h htch (.head _), mem_of_touched h htch (.tail _ (.head _))⟩

theorem merge_ne_panic : mergeEntries a b ≠ .panic := by
  obtain ⟨ha, hb⟩ := pair_of_touched h htch
  exact mergeEntries_ne_panic ((h.valid a ha.1).account.trans (h.valid b hb.1).account.symm)

theorem valid_merged (hm : mergeEntries a b = .ok merged) : Valid config merged := by
  obtain ⟨ha, hb⟩ := pair_of_touched h htch
  exact (h.valid a ha.1).merge (h.valid b hb.1) hm

/-- Two orders that one identity touches are different, and share no key. -/
theorem not_overlap_of_touched : identitiesOverlap a.identity b.identity = false := by
  obtain ⟨ha, hb⟩ := pair_of_touched h htch
  refine Bool.eq_false_iff.mpr fun hover => ?_
  have hnd := h.exact.nodup_touched identity
  rw [htch, h.exact.eq_of_overlap ha.1 hb.1 hover] at hnd
  exact (nodup_cons.mp hnd).1 (.head _)

end

/-- An event that bridges two orders is new to both. -/
theorem event_ne_of_touched (htch : s.touched event.order = [a, b])
    (hm : mergeEntries a b = .ok merged) : merged.event ≠ some event := by
  obtain ⟨ha, hb⟩ := pair_of_touched h htch
  have hdis := not_overlap_of_touched h htch
  rw [event_merged hm]
  intro hev
  -- the order that has the event has both of its keys, and so the key of the other order
  rcases selectEntry_cases a b with hs | hs
  · have hkeys := (h.valid a ha.1).event_keys event (hs ▸ hev)
    rw [hkeys.overlap ((identitiesOverlap_comm _ _).trans hb.2)] at hdis
    cases hdis
  · have hkeys := (h.valid b hb.1).event_keys event (hs ▸ hev)
    rw [identitiesOverlap_comm, hkeys.overlap ((identitiesOverlap_comm _ _).trans ha.2)] at hdis
    cases hdis

/-- Two orders are coalesced. -/
theorem coalesce_spec {α : Type} {i j : ℕ} (hi : s.entries[i]? = some a)
    (hj : s.entries[j]? = some b) (hij : i ≠ j) (hm : mergeEntries a b = .ok merged)
    (done : PmOrderState → Reply α × PmOrderState) :
    ∃ t, s.coalesce i j done = done t ∧ Changes s t [a, b] merged := by
  obtain ⟨t, ht, hexa, hswa, hlen⟩ := h.exact.coalesceEntries hi hj hij hm
  refine ⟨s.setTable t, by simp [coalesce, ht], hexa, hswa, ?_, rfl, rfl⟩
  have : (s.setTable t).entries.length = t.entries.length := rfl
  simp only [length_cons, length_nil]
  omega

/-- After coalescing, the identity that bridged the two orders touches the result alone, which is
new. -/
theorem find_coalesced (htch : s.touched identity = [a, b]) (hm : mergeEntries a b = .ok merged)
    (hchg : Changes s t [a, b] merged) :
    (∃ i, t.find identity = some (some i) ∧ t.entries[i]? = some merged) ∧
      (∀ e ∈ t.touched identity, e = merged) ∧ ∀ e ∈ s.entries, e ∉ [a, b] → e ≠ merged := by
  have ha := mem_of_touched h htch (.head _)
  have hmer : identitiesOverlap merged.identity identity = true :=
    (hasKeys_left (mergeIdentity_of_merged hm)).overlap ha.2
  have honly : ∀ e ∈ t.entries, identitiesOverlap e.identity identity = true → e = merged := by
    intro e he hover
    rcases (hchg.swaps e).mp he with ⟨hs, hnot⟩ | hcome
    · exact absurd (htch ▸ h.exact.mem_touched.mpr ⟨hs, hover⟩) hnot
    · exact mem_singleton.mp hcome
  refine ⟨?_, fun e he => ?_, ?_⟩
  · rcases hchg.exact.find_cases identity with ⟨i, e, hfind, he, hover⟩ | ⟨-, hnone⟩
    · cases honly e (mem_of_getElem? he) hover
      exact ⟨i, hfind, he⟩
    · have hmem : merged ∈ t.entries := (hchg.swaps merged).mpr (.inr (.head _))
      cases hmer.symm.trans (hnone merged hmem)
  · obtain ⟨he, hover⟩ := hchg.exact.mem_touched.mp he
    exact honly e he hover
  · rintro e he hnot rfl
    exact hnot (htch ▸ h.exact.mem_touched.mpr ⟨he, hmer⟩)

/-- An event that bridges two orders is applied to the order they make, or leaves it. -/
theorem coalesceAndUpdate_spec {o : Observation} {i j : ℕ}
    (hacc : o.event.account = config.account) (hi : s.entries[i]? = some a)
    (hj : s.entries[j]? = some b) (hij : i ≠ j) (htch : s.touched o.event.order = [a, b])
    (hm : mergeEntries a b = .ok merged) : Updates s [a, b] merged o (Changes s · [a, b] merged)
      (s.coalesceAndUpdate i j o.event o.occurrence o.knowledge o.reservation) := by
  have hval := valid_merged h htch hm
  obtain ⟨t, ht, hchg⟩ := coalesce_spec h hi hj hij hm fun t =>
    t.updateFound o.event o.occurrence o.knowledge o.reservation
  obtain ⟨⟨k, hfind, hk⟩, honly, hnew⟩ := find_coalesced h htch hm hchg
  have heq : s.coalesceAndUpdate i j o.event o.occurrence o.knowledge o.reservation =
      t.updateExisting k o.event o.occurrence o.knowledge o.reservation := by
    rw [coalesceAndUpdate, ht]
    simp [updateFound, hfind]
  rw [heq]
  rcases updateExisting_spec hchg.exact o hk honly (hval.account.trans hacc.symm) with
    ⟨happ, answer, u, identity, hu, hid, hu'⟩ | ⟨hnot, reply, u, hu, hsame, hrep⟩
  · exact .inl ⟨happ, answer, u, identity, hu, hid, hchg.replace hnew hu'⟩
  · exact .inr ⟨hnot, reply, u, hu, hchg.then_same hsame, hrep⟩

end

/-! ### One observation -/

/-- The order that an observation leaves when it is applied. -/
inductive Lands (s : PmOrderState) (o : Observation) : OrderEntry → Prop
  | fresh (htch : s.touched o.event.order = []) :
      Lands s o (.remote o.event (ownershipFromRemote o.knowledge) o.reservation o.occurrence)
  | update (prior : OrderEntry) (hprior : s.prior o.event.order = some prior)
      (happlies : Applies prior o.event o.occurrence) (identity : PmOrderIdentity)
      (hid : mergeIdentity prior.identity o.event.order = some identity) :
      Lands s o (prior.updated identity o.event o.occurrence o.knowledge o.reservation)

/-- What an observation does. The orders that it touches give way to one, or all stays as it
is; `left` says when two orders are coalesced and the event is not applied. -/
inductive Effect (s : PmOrderState) (o : Observation)
    (left : OrderEntry → OrderEntry → Reply PmOrderApply → Prop) :
    Reply PmOrderApply → PmOrderState → Prop
  | same {reply : Reply PmOrderApply} {t : PmOrderState} (hreply : reply ≠ .panic)
      (hsame : SameStore s t) : Effect s o left reply t
  | lands {answer : PmOrderApply} {t : PmOrderState} (come : OrderEntry) (hlands : Lands s o come)
      (hchanges : Changes s t (s.touched o.event.order) come) : Effect s o left (.ok answer) t
  | coalesced {reply : Reply PmOrderApply} {t : PmOrderState} (a b merged : OrderEntry)
      (htch : s.touched o.event.order = [a, b]) (hm : mergeEntries a b = .ok merged)
      (hleft : left a b reply) (hchanges : Changes s t [a, b] merged) : Effect s o left reply t

/-- What the preflight of a row establishes about the orders that the row touches. -/
structure Passes (s : PmOrderState) (o : Observation) : Prop where
  one : ∀ e, s.touched o.event.order = [e] → preflightExistingUpdate e o.event o.occurrence = .ok ()
  two : ∀ a b, s.touched o.event.order = [a, b] → ∃ merged, mergeEntries a b = .ok merged ∧
    preflightExistingUpdate merged o.event o.occurrence = .ok ()

theorem prior_of_two (h : s.touched identity = [a, b]) (hm : mergeEntries a b = .ok merged) :
    s.prior identity = some merged := by
  simp [prior, h, hm]

/-- The order that an event is applied to is the one that it touches, or two are merged. -/
theorem prior_cases (hpr : s.prior identity = some prior) : s.touched identity = [prior] ∨
      ∃ a b, s.touched identity = [a, b] ∧ mergeEntries a b = .ok prior := by
  unfold OrderTable.prior at hpr
  split at hpr
  · next e he =>
    cases hpr
    exact .inl he
  · next a b hab =>
    split at hpr
    · next merged hm =>
      cases hpr
      exact .inr ⟨a, b, hab, hm⟩
    · cases hpr
  · cases hpr

section

variable {config : PmPrivateStateConfig} {s : PmOrderState} (h : Sound config s)

include h

/-- The order that an event is applied to is valid. -/
theorem valid_prior (hpr : s.prior identity = some prior) : Valid config prior := by
  rcases prior_cases hpr with htch | ⟨a, b, htch, hm⟩
  · exact h.valid prior (mem_of_touched h htch (.head _)).1
  · exact valid_merged h htch hm

variable {o : Observation} {i : ℕ} {a b : OrderEntry}

/-- What an observation leaves is valid. -/
theorem Lands.valid {come : OrderEntry} (hchkd : o.Checked config) (hlan : Lands s o come) :
    Valid config come := by
  cases hlan with
  | fresh =>
    refine Valid.remote hchkd.account hchkd.instrument ?_
    cases o.knowledge <;> exact nofun
  | update _ hpr happ _ hid =>
    have hval := valid_prior h hpr
    obtain ⟨joint, hjoi, hacc⟩ := mergeIdentity_of_account (hval.account.trans hchkd.account.symm)
    cases hid.symm.trans hjoi
    exact hval.update (hasKeys_left hid)
      (hasKeys_right hid (ensureIdentityMerge_of_validateUpdate happ.2.2))
      (hacc.trans hval.account)

variable (left : OrderEntry → OrderEntry → Reply PmOrderApply → Prop)

/-- An event that touches no order. -/
theorem effect_insert (htch : s.touched o.event.order = []) (answer : PmOrderApply) :
    ∃ reply t, s.insert (.remote o.event (ownershipFromRemote o.knowledge) o.reservation o.occurrence)
        (fun t => (.ok answer, t.countRemote (ownershipFromRemote o.knowledge))) = (reply, t) ∧
      Effect s o left reply t ∧
      (s.entries.length < maxPmPrivateOrders → ∃ answer, reply = .ok answer) := by
  rcases insert_spec h.exact (.remote o.event (ownershipFromRemote o.knowledge)
    o.reservation o.occurrence) htch with ⟨t, ht, hsame, hfull⟩ | ⟨t, ht, hchg⟩
  · exact ⟨_, t, ht, .same nofun hsame, fun hroom => absurd hfull hroom.ne⟩
  · refine ⟨_, _, ht, .lands _ (.fresh htch) ?_, fun _ => ⟨_, rfl⟩⟩
    rw [htch]
    exact hchg.then_same (sameStore_countRemote t _)

/-- An event that touches one order. -/
theorem effect_updateExisting (hchkd : o.Checked config) (hi : s.entries[i]? = some e)
    (htch : s.touched o.event.order = [e]) :
    ∃ reply t, s.updateExisting i o.event o.occurrence o.knowledge o.reservation = (reply, t) ∧
      Effect s o left reply t ∧
      (preflightExistingUpdate e o.event o.occurrence = .ok () → ∃ answer, reply = .ok answer) := by
  have hacc := (h.valid e (mem_of_getElem? hi)).account.trans hchkd.account.symm
  rcases updateExisting_spec h.exact o hi (by simp [htch]) hacc with
    ⟨happ, answer, t, identity, ht, hid, hchg⟩ |
    ⟨-, reply, t, ht, hsame, ⟨answer, rfl, -⟩ | ⟨error, rfl, herr⟩⟩
  · refine ⟨_, t, ht, .lands _ (.update e (by simp [prior, htch]) happ identity hid) ?_,
      fun _ => ⟨_, rfl⟩⟩
    rw [htch]
    exact hchg
  · exact ⟨_, t, ht, .same nofun hsame, fun _ => ⟨answer, rfl⟩⟩
  · exact ⟨_, t, ht, .same nofun hsame, fun hok => by cases hok.symm.trans herr⟩

omit left in
/-- An event that passes the preflight of the order that two orders make, and is not applied to
it, is stale. -/
theorem isStale_of_not_applies (htch : s.touched o.event.order = [a, b])
    (hm : mergeEntries a b = .ok merged) (hnot : ¬ Applies merged o.event o.occurrence)
    (hok : preflightExistingUpdate merged o.event o.occurrence = .ok ()) :
    o.isStale a b = true := by
  rcases preflight_cases merged o.event o.occurrence with
    ⟨happ, -⟩ | ⟨-, -, hbef | ⟨-, hev⟩⟩ | ⟨-, error, herr⟩
  · exact absurd happ hnot
  · rw [isStale_eq hm, hbef]
  · exact absurd hev (event_ne_of_touched h htch hm)
  · cases hok.symm.trans herr

omit left in
/-- What `observe` does once the event has passed its own checks. It coalesces two orders and
leaves it at that only when the event is stale. -/
theorem applyObservation_spec (hchkd : o.Checked config) :
    ∃ reply t, s.applyObservation o.event o.occurrence o.knowledge o.reservation = (reply, t) ∧
      Effect s o (fun a b reply => o.isStale a b = true ∧
        ∃ answer, reply = .ok answer) reply t := by
  unfold applyObservation
  rcases h.exact.overlaps_cases o.event.order with
    ⟨hover, htch⟩ | ⟨i, e, hover, hi, htch⟩ | ⟨i, j, a, b, hover, hij, hi, hj, htch⟩
  · simp only [hover]
    obtain ⟨reply, t, ht, heff, -⟩ := effect_insert h _ htch _
    exact ⟨reply, t, ht, heff⟩
  · simp only [hover]
    obtain ⟨reply, t, ht, heff, -⟩ := effect_updateExisting h _ hchkd hi htch
    exact ⟨reply, t, ht, heff⟩
  · have hmer : s.mergedAt i j = mergeEntries a b := by
      simp [mergedAt, hi, hj]
    simp only [hover, hmer]
    cases hm : mergeEntries a b with
    | panic => exact absurd hm (merge_ne_panic h htch)
    | err => exact ⟨_, _, rfl, .same (by rintro ⟨⟩) (.refl s)⟩
    | ok merged =>
      dsimp only
      cases hpre : preflightExistingUpdate merged o.event o.occurrence with
      | error => exact ⟨_, _, rfl, .same (by rintro ⟨⟩) (.refl s)⟩
      | ok =>
        rcases coalesceAndUpdate_spec h hchkd.account hi hj hij htch hm with
          ⟨happ, answer, t, identity, ht, hid, hchg⟩ | ⟨hnot, reply, t, ht, hchg, hrep⟩
        · refine ⟨_, t, ht, .lands _ (.update merged (prior_of_two htch hm) happ identity hid) ?_⟩
          rw [htch]
          exact hchg
        · refine ⟨reply, t, ht, .coalesced a b merged htch hm
            ⟨isStale_of_not_applies h htch hm hnot hpre, ?_⟩ hchg⟩
          rcases hrep with ⟨answer, rfl, -⟩ | ⟨_, -, herr⟩
          · exact ⟨answer, rfl⟩
          · cases hpre.symm.trans herr

omit left

omit h in
/-- A row that bridges two orders, neither of which was observed after the request. -/
theorem reduceRow_bridge (hkno : o.knowledge = .unmanaged o.reservation) {j : ℕ}
    (hover : s.overlaps o.event.order = .ok (.bridge i j)) (hi : s.entries[i]? = some a)
    (hj : s.entries[j]? = some b) (hfr : o.isStale a b = false) :
    s.reduceRow o.event o.occurrence o.reservation =
      s.coalesceAndUpdate i j o.event o.occurrence o.knowledge o.reservation := by
  obtain ⟨haft, haft'⟩ := Bool.or_eq_false_iff.mp hfr
  simp [reduceRow, hover, observedAfter, hi, hj, haft, haft', Outcome.pure_eq_ok, hkno]

section

variable (hchkd : o.Checked config) (hkno : o.knowledge = .unmanaged o.reservation)

include hchkd hkno

/-- A row that is not stale and bridges two orders is applied to the order they make, or that
order refuses it. -/
theorem reduceRow_two (htch : s.touched o.event.order = [a, b])
    (hm : mergeEntries a b = .ok merged) (hfr : o.isStale a b = false) :
    (o.isRefused a b = false ∧ ∃ answer t come,
      s.reduceRow o.event o.occurrence o.reservation = (.ok answer, t) ∧ Lands s o come ∧
      Changes s t [a, b] come) ∨ (o.isRefused a b = true ∧ ∃ error t,
      s.reduceRow o.event o.occurrence o.reservation = (.err error, t) ∧
      Changes s t [a, b] merged) := by
  obtain ⟨i, j, a', b', hover, hij, hi, hj, htouched'⟩ : ∃ i j a' b',
      s.overlaps o.event.order = .ok (.bridge i j) ∧ i ≠ j ∧ s.entries[i]? = some a' ∧
      s.entries[j]? = some b' ∧ s.touched o.event.order = [a', b'] := by
    rcases h.exact.overlaps_cases o.event.order with ⟨-, hnil⟩ | ⟨_, _, -, -, hone⟩ | htwo
    · cases htch.symm.trans hnil
    · cases htch.symm.trans hone
    · exact htwo
  cases htch.symm.trans htouched'
  rw [reduceRow_bridge hkno hover hi hj hfr]
  rcases coalesceAndUpdate_spec h hchkd.account hi hj hij htch hm with
    ⟨happ, answer, t, identity, ht, hid, hchg⟩ | ⟨hnot, reply, t, ht, hchg, hrep⟩
  · refine .inl ⟨?_, answer, t, _, ht,
      .update merged (prior_of_two htch hm) happ identity hid, hchg⟩
    refine Bool.eq_false_iff.mpr fun href => ?_
    obtain ⟨error, herr⟩ := (isRefused_iff hm).mp href
    rcases preflight_cases merged o.event o.occurrence with ⟨-, hok⟩ | ⟨hnot, -⟩ | ⟨hnot, -⟩
    · cases hok.symm.trans herr
    · exact hnot happ
    · exact hnot happ
  · rcases hrep with ⟨answer, rfl, hok⟩ | ⟨error, rfl, herr⟩
    · cases hfr.symm.trans (isStale_of_not_applies h htch hm hnot hok)
    · exact .inr ⟨(isRefused_iff hm).mpr ⟨error, herr⟩, error, t, ht, hchg⟩

/-- What a row of an aggregate does. It coalesces two orders and leaves it at that only when
it is refused. A row that passes the preflight, and has room, does not fail. -/
theorem reduceRow_spec : ∃ reply t, s.reduceRow o.event o.occurrence o.reservation = (reply, t) ∧
      Effect s o (fun a b reply => o.isStale a b = false ∧ o.isRefused a b = true ∧
        ∃ error, reply = .err error) reply t ∧
      (Passes s o → (s.touched o.event.order = [] → s.entries.length < maxPmPrivateOrders) →
        ∃ answer, reply = .ok answer) := by
  rcases h.exact.overlaps_cases o.event.order with
    ⟨hover, htch⟩ | ⟨i, e, hover, hi, htch⟩ | ⟨i, j, a, b, hover, hij, hi, hj, htch⟩
  · simp only [reduceRow, hover]
    obtain ⟨reply, t, ht, heff, hok⟩ := effect_insert h _ htch .inserted
    rw [hkno] at ht
    exact ⟨reply, t, ht, heff, fun _ hroom => hok (hroom htch)⟩
  · simp only [reduceRow, hover, observedAfter, hi, expect_some, ok_bind, Outcome.pure_eq_ok]
    cases isBefore o.occurrence e.lastOccurrence with
    | true => exact ⟨_, _, rfl, .same (by rintro ⟨⟩) (.refl s), fun _ _ => ⟨_, rfl⟩⟩
    | false =>
      rw [← hkno]
      obtain ⟨reply, t, ht, heff, hok⟩ := effect_updateExisting h _ hchkd hi htch
      exact ⟨reply, t, ht, heff, fun hpas _ => hok (hpas.one e htch)⟩
  · cases hsta : o.isStale a b with
    | true =>
      refine ⟨.ok .ignoredStale, s, ?_, .same (by rintro ⟨⟩) (.refl s), fun _ _ => ⟨_, rfl⟩⟩
      unfold Observation.isStale at hsta
      simp [reduceRow, hover, observedAfter, hi, hj, Outcome.pure_eq_ok, hsta]
    | false =>
    cases hm : mergeEntries a b with
    | panic => exact absurd hm (merge_ne_panic h htch)
    | err error =>
      rw [reduceRow_bridge hkno hover hi hj hsta]
      have hmer : s.mergedAt i j = .err error := by
        simp [mergedAt, hi, hj, expect_some, ok_bind, hm]
      simp only [coalesceAndUpdate, coalesce, coalesceEntries, hmer]
      refine ⟨_, _, rfl, .same (by rintro ⟨⟩) ⟨rfl, rfl, rfl⟩, fun hpas _ => ?_⟩
      obtain ⟨_, hok, -⟩ := hpas.two a b htch
      cases hm.symm.trans hok
    | ok merged =>
      rcases reduceRow_two h hchkd hkno htch hm hsta with
        ⟨-, answer, t, come, ht, hlan, hchg⟩ | ⟨href, error, t, ht, hchg⟩
      · refine ⟨_, t, ht, .lands come hlan ?_, fun _ _ => ⟨_, rfl⟩⟩
        rw [htch]
        exact hchg
      · refine ⟨_, t, ht, .coalesced a b merged htch hm ⟨hsta, href, error, rfl⟩ hchg,
          fun hpas _ => ?_⟩
        obtain ⟨_, hok, hpre⟩ := hpas.two a b htch
        cases hm.symm.trans hok
        obtain ⟨error, herr⟩ := (isRefused_iff hm).mp href
        cases hpre.symm.trans herr

end

end

end Reap.Order
