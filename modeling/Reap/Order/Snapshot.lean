import Mathlib.Data.List.Pairwise
import Reap.Order.Spec

/-!
# Complete snapshots of open orders

A snapshot is applied row by row. Its preflight looks at all rows in the state before the
first one is applied, so it has to be shown that a row does not change what a later row will
find. An order that two rows touch has a key of each; the rows have different venue keys, so
the order contradicts one of them, and the preflight fails unless the order was observed
after the request, in which case both rows ignore it.

## What is proved

* `observedAfter_of_crossing` — an order that two rows touch was observed after the request.
* `reduceRows_spec` — a snapshot that passes the preflight is applied to the end, and every
  row does what it would do alone.
-/

namespace Reap.Order

open Base Reap.Core Outcome PmOrderState List

section

variable {α κ : Type} {f : α → Option κ} {l : List α}

/-- Elements of a list with the same key, where no key occurs twice. -/
theorem eq_of_nodup_filterMap {a b : α} {k : κ} (h : (l.filterMap f).Nodup) (ha : a ∈ l)
    (hb : b ∈ l) (hka : f a = some k) (hkb : f b = some k) : a = b := by
  by_contra hne
  have : Std.Symm fun a b => ∀ k, f a = some k → ∀ k', f b = some k' → k ≠ k' :=
    ⟨fun _ _ hab k hk k' hk' => (hab k' hk' k hk).symm⟩
  exact (pairwise_filterMap.mp h).forall ha hb hne k hka k hkb rfl

theorem nodup_of_nodup_filterMap (h : (l.filterMap f).Nodup) (hkey : ∀ a ∈ l, f a ≠ none) :
    l.Nodup := by
  refine (pairwise_filterMap.mp h).imp_of_mem fun {a b} ha _ hab heq => ?_
  obtain ⟨k, hk⟩ := Option.ne_none_iff_exists'.mp (hkey a ha)
  exact hab k hk k (heq ▸ hk) rfl

end

variable {row event : PmOrderEvent} {snapshot : PmCompleteOpenOrdersSnapshot} {e come : OrderEntry}
  {reservation : PmReservationKnowledge} {row' : PmOrderEvent}

/-- No two rows of a snapshot share a key. -/
theorem row_eq_of_overlap (hrow : row ∈ snapshot.orders)
    (hrow' : row' ∈ snapshot.orders) (hover : identitiesOverlap row.order row'.order = true) :
    row = row' := by
  rcases identitiesOverlap_iff.mp hover with ⟨client, hc, hc'⟩ | ⟨venue, hv, hv'⟩
  · exact eq_of_nodup_filterMap snapshot.clients_nodup hrow hrow' hc hc'
  · exact eq_of_nodup_filterMap snapshot.venues_nodup hrow hrow' hv hv'

/-! ### The preflight of one row -/

/-- Every row passes the preflight, with its companion reservation. -/
abbrev RowsPass (s : PmOrderState) (request : PmPrivateOccurrence)
    (reservations : List PmOpenOrderReservation) (rows : List PmOrderEvent) : Prop :=
  ∀ row ∈ rows, Passes s (.ofRow request row (companionKnowledge row reservations))

section

variable {config : PmPrivateStateConfig} {s : PmOrderState} (h : Sound config s)

include h

section

variable (request : PmPrivateOccurrence) (reservations : List PmOpenOrderReservation)

theorem preflightRow_cases (row : PmOrderEvent) :
    (s.preflightRow config request reservations row = .ok () ∧
      Passes s (.ofRow request row (companionKnowledge row reservations))) ∨
    ∃ error, s.preflightRow config request reservations row = .err error := by
  unfold preflightRow
  cases validateEvent row config.source config with
  | error error => exact .inr ⟨error, rfl⟩
  | ok u =>
  cases validateReservation row (companionKnowledge row reservations) with
  | error error => exact .inr ⟨error, rfl⟩
  | ok u =>
  rcases h.exact.overlaps_cases row.order with
    ⟨hover, htch⟩ | ⟨i, e, hover, hi, htch⟩ | ⟨i, j, a, b, hover, -, hi, hj, htch⟩
  · refine .inl ⟨by rw [hover]; rfl, fun e he => ?_, fun a b hab => ?_⟩
    · cases htch.symm.trans he
    · cases htch.symm.trans hab
  · simp only [hover, ok_bind, hi, expect_some]
    cases hpre : preflightExistingUpdate e row request with
    | error error => exact .inr ⟨error, rfl⟩
    | ok =>
      refine .inl ⟨rfl, fun e' he => ?_, fun a b hab => ?_⟩
      · cases htch.symm.trans he
        exact hpre
      · cases htch.symm.trans hab
  · simp only [hover, ok_bind, OrderTable.mergedAt, hi, hj, expect_some]
    cases hm : mergeEntries a b with
    | panic => exact absurd hm (merge_ne_panic h htch)
    | err error => exact .inr ⟨error, rfl⟩
    | ok merged =>
      rw [ok_bind]
      cases hpre : preflightExistingUpdate merged row request with
      | error error => exact .inr ⟨error, rfl⟩
      | ok =>
        refine .inl ⟨rfl, fun e' he => ?_, fun a' b' hab => ?_⟩
        · cases htch.symm.trans he
        · cases htch.symm.trans hab
          exact ⟨merged, hm, hpre⟩

theorem preflightRows_cases (rows : List PmOrderEvent) :
    (s.preflightRows config request reservations rows = .ok () ∧
      RowsPass s request reservations rows) ∨
    ∃ error, s.preflightRows config request reservations rows = .err error := by
  induction rows with
  | nil => exact .inl ⟨rfl, fun row hrow => absurd hrow not_mem_nil⟩
  | cons row _ ih =>
    unfold preflightRows
    rcases preflightRow_cases h request reservations row with ⟨hok, hpas⟩ | ⟨error, herr⟩
    · rw [hok, ok_bind]
      refine ih.imp (fun ⟨hrest, hall⟩ => ⟨hrest, fun r hr => ?_⟩) id
      rcases mem_cons.mp hr with rfl | hr
      · exact hpas
      · exact hall r hr
    · exact .inr ⟨error, by rw [herr, err_bind]⟩

end

/-! ### Rows that touch the same order -/

/-- An order that two rows touch, one by its client key and one by its venue key, was observed
after the request, or the first row would not have passed. -/
theorem observedAfter_of_client_venue {request : PmPrivateOccurrence}
    {client : PmClientOrderKey} {venue : PmVenueOrderKey} (hrow : row ∈ snapshot.orders)
    (hrow' : row' ∈ snapshot.orders) (hne : row ≠ row')
    (hpas : Passes s (.ofRow request row reservation)) (he : e ∈ s.entries)
    (hec : e.identity.clientOrderKey = some client) (hc : row.order.clientOrderKey = some client)
    (hev : e.identity.venueOrderKey = some venue) (hv : row'.order.venueOrderKey = some venue) :
    isBefore request e.lastOccurrence = true := by
  obtain ⟨venue', hv'⟩ := Option.ne_none_iff_exists'.mp (snapshot.row_venue row hrow)
  have hvenu : venue' ≠ venue := by
    rintro rfl
    exact hne (row_eq_of_overlap hrow hrow' (identitiesOverlap_iff.mpr (.inr ⟨venue', hv', hv⟩)))
  have hover : identitiesOverlap e.identity row.order = true :=
    identitiesOverlap_iff.mpr (.inl ⟨client, hec, hc⟩)
  have hmem : e ∈ s.touched row.order := h.exact.mem_touched.mpr ⟨he, hover⟩
  rcases h.exact.overlaps_cases row.order with
    ⟨-, htch⟩ | ⟨-, e', -, -, htch⟩ | ⟨-, -, a, b, -, -, -, -, htch⟩
  · rw [htch] at hmem
    exact absurd hmem not_mem_nil
  · rw [htch] at hmem
    cases mem_singleton.mp hmem
    rcases preflight_cases e row request with
      ⟨happ, -⟩ | ⟨-, -, hbef | ⟨-, heve⟩⟩ | ⟨-, error, herr⟩
    · have hmer := ensureIdentityMerge_of_validateUpdate happ.2.2
      exact absurd ((ensureIdentityMerge_eq_ok.mp hmer).2 venue venue' hev hv').symm hvenu
    · exact hbef
    · cases hev.symm.trans (((h.valid e he).event_keys row heve).venue venue' hv')
      exact absurd rfl hvenu
    · cases (hpas.one e htch).symm.trans herr
  · -- the other order has the row's venue key, so the two cannot be coalesced
    obtain ⟨merged, hm, -⟩ := hpas.two a b htch
    obtain ⟨-, -, -, -, hkeys, -⟩ := mergeEntries_eq_ok.mp hm
    have hven := (ensureIdentityMerge_eq_ok.mp hkeys).2
    have hdis := not_overlap_of_touched h htch
    have hoth : ∀ f : OrderEntry, identitiesOverlap f.identity row.order = true →
        identitiesOverlap e.identity f.identity = false →
          f.identity.venueOrderKey = some venue' := by
      intro f hf hdis
      rcases identitiesOverlap_iff.mp hf with ⟨c, hfc, hrc⟩ | ⟨v, hfv, hrv⟩
      · cases hc.symm.trans hrc
        rw [identitiesOverlap_iff.mpr (.inl ⟨client, hec, hfc⟩)] at hdis
        cases hdis
      · cases hv'.symm.trans hrv
        exact hfv
    obtain ⟨ha, hb⟩ := pair_of_touched h htch
    rw [htch] at hmem
    rcases mem_cons.mp hmem with rfl | hmem
    · exact absurd (hven venue venue' hev (hoth b hb.2 hdis)).symm hvenu
    · cases mem_singleton.mp hmem
      rw [identitiesOverlap_comm] at hdis
      exact absurd (hven venue' venue (hoth a ha.2 hdis) hev) hvenu

section

variable {snapshot : PmCompleteOpenOrdersSnapshot} {request : PmPrivateOccurrence}
  {reservations : List PmOpenOrderReservation} (hall : RowsPass s request reservations snapshot.orders)

include hall

variable {row row' : PmOrderEvent}

section

variable (hrow : row ∈ snapshot.orders) (hrow' : row' ∈ snapshot.orders) (hne : row ≠ row')

include hrow hrow' hne

/-- **Crossing rows.** An order that two rows touch was observed after the request. -/
theorem observedAfter_of_crossing (he : e ∈ s.entries)
    (hover : identitiesOverlap e.identity row.order = true)
    (hover' : identitiesOverlap e.identity row'.order = true) :
    isBefore request e.lastOccurrence = true := by
  have hcla : identitiesOverlap row.order row'.order = false :=
    Bool.eq_false_iff.mpr fun hcla => hne (row_eq_of_overlap hrow hrow' hcla)
  rcases identitiesOverlap_iff.mp hover with ⟨c, hec, hrc⟩ | ⟨v, hev, hrv⟩ <;>
    rcases identitiesOverlap_iff.mp hover' with ⟨c', hec', hrc'⟩ | ⟨v', hev', hrv'⟩
  · cases hec.symm.trans hec'
    rw [identitiesOverlap_iff.mpr (.inl ⟨c, hrc, hrc'⟩)] at hcla
    cases hcla
  · exact observedAfter_of_client_venue h hrow hrow' hne (hall row hrow) he hec hrc hev' hrv'
  · exact observedAfter_of_client_venue h hrow' hrow (Ne.symm hne) (hall row' hrow') he hec' hrc' hev hrv
  · cases hev.symm.trans hev'
    rw [identitiesOverlap_iff.mpr (.inr ⟨v, hrv, hrv'⟩)] at hcla
    cases hcla

/-- The orders that an applied row touches are touched by no other row. -/
theorem Lands.touched_apart (hlan : Lands s (.ofRow request row reservation) come) :
    ∀ e ∈ s.touched row.order, identitiesOverlap e.identity row'.order = false := by
  intro e he
  refine Bool.eq_false_iff.mpr fun hover' => ?_
  obtain ⟨hmem, hover⟩ := h.exact.mem_touched.mp he
  have haft := observedAfter_of_crossing h hall hrow hrow' hne hmem hover hover'
  cases hlan with
  | fresh htch =>
    have hnil : s.touched row.order = [] := htch
    rw [hnil] at he
    exact not_mem_nil he
  | update prior hpr happ =>
    have hfr : isBefore request prior.lastOccurrence = false := happ.1
    rcases prior_cases hpr with htch | ⟨a, b, htch, hm⟩
    · have hone : s.touched row.order = [prior] := htch
      rw [hone] at he
      cases mem_singleton.mp he
      cases haft.symm.trans hfr
    · have htwo : s.touched row.order = [a, b] := htch
      rw [htwo] at he
      obtain ⟨hfst, hsnd⟩ := Bool.or_eq_false_iff.mp ((isStale_eq hm).trans happ.1)
      rcases mem_cons.mp he with rfl | he
      · cases haft.symm.trans hfst
      · cases mem_singleton.mp he
        cases haft.symm.trans hsnd

/-- The order that an applied row leaves is touched by no other row. -/
theorem Lands.come_apart (hlan : Lands s (.ofRow request row reservation) come) :
    identitiesOverlap come.identity row'.order = false := by
  have hcla : identitiesOverlap row'.order row.order = false :=
    Bool.eq_false_iff.mpr fun hcla => hne (row_eq_of_overlap hrow' hrow hcla).symm
  have hapa : ∀ e ∈ s.touched row.order, identitiesOverlap row'.order e.identity = false :=
    fun e he => (identitiesOverlap_comm _ _).trans (hlan.touched_apart h hall hrow hrow' hne e he)
  rw [identitiesOverlap_comm]
  refine Bool.eq_false_iff.mpr fun hover => ?_
  cases hlan with
  | fresh => cases hcla.symm.trans hover
  | update prior hpr _ _ hid =>
    rcases overlap_of_merged hid hover with hover | hover
    · rcases prior_cases hpr with htch | ⟨a, b, htch, hm⟩
      · have hmem : prior ∈ s.touched row.order := htch ▸ (.head _)
        cases (hapa prior hmem).symm.trans hover
      · have ha : a ∈ s.touched row.order := htch ▸ (.head _)
        have hb : b ∈ s.touched row.order := htch ▸ .tail _ (.head _)
        rcases overlap_of_merged (mergeIdentity_of_merged hm) hover with hover | hover
        · cases (hapa a ha).symm.trans hover
        · cases (hapa b hb).symm.trans hover
    · cases hcla.symm.trans hover

end

end

end

/-! ### Checks -/

variable {config : PmPrivateStateConfig} {source : PmProductSource}

theorem scope_of_validateEvent (h : validateEvent event source config = .ok ()) :
    event.account = config.account ∧ event.instrument = config.instrument := by
  unfold validateEvent at h
  split_ifs at h with hsc
  simp only [not_or, not_not] at hsc
  exact hsc.2.2

theorem covers_of_validateReservation {r : PmExactReservation}
    (h : validateReservation event (.known r) = .ok ()) (hlive : isTerminalEvent event = false) :
    Covers r event.side event.price event.progress.remainingQuantityUnits := by
  rw [validateReservation, if_neg (by rw [hlive]; exact Bool.noConfusion)] at h
  exact validateRequirement_covers h

theorem checked_ofRow (request : PmPrivateOccurrence)
    (hev : validateEvent row source config = .ok ())
    (hres : validateReservation row reservation = .ok ()) :
    (Observation.ofRow request row reservation).Checked config where
  account := (scope_of_validateEvent hev).1
  instrument := (scope_of_validateEvent hev).2
  covered := by
    rintro r rfl hlive
    exact covers_of_validateReservation hres hlive

/-- Every row passes the checks of its fields and of its companion reservation. -/
abbrev RowsValid (config : PmPrivateStateConfig) (source : PmProductSource)
    (reservations : List PmOpenOrderReservation) (rows : List PmOrderEvent) : Prop :=
  ∀ row ∈ rows, validateEvent row source config = .ok () ∧
    validateReservation row (companionKnowledge row reservations) = .ok ()

variable {reservations : List PmOpenOrderReservation} {o : Observation} {t : PmOrderState}

theorem validateRows_ok {rows : List PmOrderEvent}
    (h : validateRows config source reservations rows = .ok ()) :
    RowsValid config source reservations rows := by
  induction rows with
  | nil => exact fun row hrow => absurd hrow not_mem_nil
  | cons _ _ ih =>
    unfold validateRows at h
    split_ifs at h
    split at h
    · cases h
    next hev =>
    split at h
    · cases h
    next hres =>
    intro row hrow
    rcases mem_cons.mp hrow with rfl | hrow
    · exact ⟨hev, hres⟩
    · exact ih h row hrow

/-! ### All rows -/

/-- What holds between two rows: the rows that are left find the orders that they would have
found at the start, and every new order was left by a row as if it had been alone. -/
structure BetweenRows (config : PmPrivateStateConfig) (snapshot : PmCompleteOpenOrdersSnapshot)
    (request : PmPrivateOccurrence) (reservations : List PmOpenOrderReservation)
    (s t : PmOrderState) (rest : List PmOrderEvent) : Prop where
  sound : Sound config t
  frame : ∀ row ∈ rest, ∀ e, identitiesOverlap e.identity row.order = true →
    (e ∈ t.entries ↔ e ∈ s.entries)
  come : ∀ e ∈ t.entries, e ∈ s.entries ∨ ∃ row ∈ snapshot.orders,
    Lands s (.ofRow request row (companionKnowledge row reservations)) e
  room : t.entries.length + rest.countP (fun row => (s.touched row.order).isEmpty) ≤
    maxPmPrivateOrders
  revision : t.latestSnapshotRevision = s.latestSnapshotRevision
  completion : t.latestSnapshotCompletion = s.latestSnapshotCompletion

section

variable {s : PmOrderState} (htch : s.touched o.event.order = t.touched o.event.order)

include htch

theorem Lands.congr (h : Lands s o come) : Lands t o come := by
  cases h with
  | fresh hnil => exact .fresh (htch ▸ hnil)
  | update prior hpr happ identity hid =>
    refine .update prior ?_ happ identity hid
    rw [← hpr, OrderTable.prior, OrderTable.prior, htch]

theorem Passes.congr (h : Passes s o) : Passes t o where
  one := fun e he => h.one e (htch.trans he)
  two := fun a b hab => h.two a b (htch.trans hab)

end

section

variable {config : PmPrivateStateConfig} {snapshot : PmCompleteOpenOrdersSnapshot}
  {request : PmPrivateOccurrence} {reservations : List PmOpenOrderReservation} {s : PmOrderState}
  (h : Sound config s) (hall : RowsPass s request reservations snapshot.orders)
  (hvalid : RowsValid config config.source reservations snapshot.orders)

include h hall hvalid

/-- One row. -/
theorem reduceRow_between {rest : List PmOrderEvent}
    (ht : BetweenRows config snapshot request reservations s t (row :: rest))
    (hrow : row ∈ snapshot.orders) (hrest : ∀ row' ∈ rest, row' ∈ snapshot.orders ∧ row ≠ row') :
    ∃ answer u, t.reduceSnapshotRow config row request (companionKnowledge row reservations) =
        (.ok answer, u) ∧ BetweenRows config snapshot request reservations s u rest := by
  obtain ⟨hev, hres⟩ := hvalid row hrow
  have hchkd := checked_ofRow request hev hres
  have htch : s.touched row.order = t.touched row.order :=
    (ht.sound.exact.touched_congr h.exact (ht.frame row (.head _))).symm
  have hroom := ht.room
  rw [countP_cons] at hroom
  obtain ⟨reply, u, hu, heff, hok⟩ := reduceRow_spec ht.sound hchkd rfl
  obtain ⟨answer, rfl⟩ := hok ((hall row hrow).congr htch) fun hnil => by
    have hemp : s.touched row.order = [] := htch.trans hnil
    rw [hemp] at hroom
    simp only [isEmpty_nil, if_true] at hroom
    omega
  refine ⟨answer, u, by simp only [reduceSnapshotRow, hev, hres]; exact hu, ?_⟩
  rcases heff with ⟨-, hsame⟩ | ⟨come, hlan, hchg⟩ | ⟨-, -, -, -, -, ⟨-, -, -, ⟨⟩⟩, -⟩
  · have hents : u.entries = t.entries := by rw [hsame.table]
    exact {
      sound := ⟨hsame.table ▸ ht.sound.exact, hents ▸ ht.sound.valid⟩
      frame := fun row' hrow' => hents ▸ ht.frame row' (.tail _ hrow')
      come := hents ▸ ht.come
      room := by rw [hents]; omega
      revision := hsame.revision.trans ht.revision
      completion := hsame.completion.trans ht.completion }
  · have hlan' : Lands s (.ofRow request row (companionKnowledge row reservations)) come :=
      hlan.congr htch.symm
    have hswa : ∀ e, e ∈ u.entries ↔ (e ∈ t.entries ∧ e ∉ t.touched row.order) ∨ e ∈ [come] :=
      hchg.swaps
    have hlen : u.entries.length + (t.touched row.order).length = t.entries.length + 1 :=
      hchg.length
    exact {
      sound := by
        refine ⟨hchg.exact, fun e he => ?_⟩
        rcases (hswa e).mp he with ⟨he, -⟩ | he
        · exact ht.sound.valid e he
        · rw [mem_singleton.mp he]
          exact hlan.valid ht.sound hchkd
      frame := by
        intro row' hrow' e hover
        obtain ⟨hmem', hne⟩ := hrest row' hrow'
        rw [hswa e, ← ht.frame row' (.tail _ hrow') e hover]
        constructor
        · rintro (⟨he, -⟩ | he)
          · exact he
          · rw [mem_singleton.mp he, hlan'.come_apart h hall hrow hmem' hne] at hover
            cases hover
        · refine fun he => .inl ⟨he, fun hin => ?_⟩
          rw [← htch] at hin
          cases hover.symm.trans (hlan'.touched_apart h hall hrow hmem' hne e hin)
      come := by
        intro e he
        rcases (hswa e).mp he with ⟨he, -⟩ | he
        · exact ht.come e he
        · rw [mem_singleton.mp he]
          exact .inr ⟨row, hrow, hlan'⟩
      room := by
        rw [htch] at hroom
        cases hlist : t.touched row.order with
        | nil =>
          simp only [hlist, isEmpty_nil, if_true, length_nil] at hroom hlen
          omega
        | cons =>
          simp only [hlist, isEmpty_cons, length_cons] at hroom hlen
          omega
      revision := hchg.revision.trans ht.revision
      completion := hchg.completion.trans ht.completion }

/-- **The rows of a snapshot** that passes the preflight are all applied or ignored. -/
theorem reduceRows_spec (rest : List PmOrderEvent) (hsub : ∀ row ∈ rest, row ∈ snapshot.orders)
    (hnd : rest.Nodup) (inserted updated : ℕ)
    (ht : BetweenRows config snapshot request reservations s t rest) :
    ∃ counts u, t.reduceRows config request reservations rest inserted updated = (.ok counts, u) ∧
      BetweenRows config snapshot request reservations s u [] := by
  induction rest generalizing t inserted updated with
  | nil => exact ⟨_, t, rfl, ht⟩
  | cons row rest ih =>
    obtain ⟨hnot, hnd⟩ := nodup_cons.mp hnd
    have hrest : ∀ row' ∈ rest, row' ∈ snapshot.orders ∧ row ≠ row' := by
      refine fun row' hrow' => ⟨hsub row' (.tail _ hrow'), ?_⟩
      rintro rfl
      exact hnot hrow'
    obtain ⟨answer, u, hu, hbet⟩ := reduceRow_between h hall hvalid ht (hsub row (.head _)) hrest
    have hnext := fun n m => ih (fun r hr => (hrest r hr).1) hnd (t := u) n m hbet
    unfold reduceRows
    rw [hu]
    cases answer <;> exact hnext _ _

end

/-! ### The whole snapshot -/

theorem Marks.keys {marked : OrderEntry} (h : Marks e marked) :
    marked.identity = e.identity ∧ marked.isLive = e.isLive := by
  obtain ⟨missing, rfl⟩ := h
  exact ⟨rfl, rfl⟩

theorem marks_markEntry (orders : List PmOrderEvent) (request : PmPrivateOccurrence)
    (e : OrderEntry) : Marks e (markEntry orders request e) := by
  unfold markEntry
  split_ifs
  · exact ⟨true, rfl⟩
  · exact ⟨e.missingFromCompleteOpenSnapshot, rfl⟩

section

variable {config : PmPrivateStateConfig} {s : PmOrderState} (h : Sound config s)

include h

theorem countNew_eq (rows : List PmOrderEvent) :
    s.countNew rows = some (rows.countP fun row => (s.touched row.order).isEmpty) := by
  induction rows with
  | nil => rfl
  | cons row _ ih =>
    simp only [countNew, ih, Option.bind_eq_bind, Option.bind_some, countP_cons]
    rcases h.exact.find_cases row.order with ⟨i, e, hfind, he, hover⟩ | ⟨hfind, hnone⟩
    · have hmem := h.exact.mem_touched.mpr ⟨mem_of_getElem? he, hover⟩
      rw [hfind, isEmpty_eq_false_iff.mpr (ne_nil_of_mem hmem)]
      rfl
    · have hnil : s.touched row.order = [] := by
        refine eq_nil_iff_forall_not_mem.mpr fun e he => ?_
        obtain ⟨he, hover⟩ := h.exact.mem_touched.mp he
        cases hover.symm.trans (hnone e he)
      rw [hfind, hnil]
      rfl

theorem preflightSnapshotCapacity_cases (rows : List PmOrderEvent) :
    (s.preflightSnapshotCapacity rows = (.ok (), s) ∧
      s.entries.length + rows.countP (fun row => (s.touched row.order).isEmpty) ≤
        maxPmPrivateOrders) ∨
    ∃ t, s.preflightSnapshotCapacity rows = (.err .capacity, t) ∧ SameStore s t := by
  unfold preflightSnapshotCapacity
  rw [countNew_eq h]
  dsimp only
  split_ifs with hfull
  · exact .inr ⟨_, rfl, ⟨rfl, rfl, rfl⟩⟩
  · exact .inl ⟨rfl, Nat.le_of_not_lt hfull⟩

variable (envelope : EventEnvelope PmCompleteOpenOrdersSnapshot)

theorem preflightFreshOpenSnapshot_cases (reservations : List PmOpenOrderReservation) :
    (s.preflightFreshOpenSnapshot config envelope reservations = (.ok (), s) ∧
      s.preflightSnapshotCapacity envelope.payload.orders = (.ok (), s) ∧ s.entries.length +
          envelope.payload.orders.countP (fun row => (s.touched row.order).isEmpty) ≤
        maxPmPrivateOrders ∧
      RowsPass s (requestOccurrence envelope.ordering envelope.payload.boundary) reservations
        envelope.payload.orders) ∨
    ∃ error t, s.preflightFreshOpenSnapshot config envelope reservations = (.err error, t) ∧
      SameStore s t := by
  unfold preflightFreshOpenSnapshot
  rcases preflightSnapshotCapacity_cases h envelope.payload.orders with ⟨hcap, hroom⟩ | ⟨t, hcap, hsame⟩
  · simp only [hcap]
    rcases preflightRows_cases h (requestOccurrence envelope.ordering envelope.payload.boundary)
      reservations envelope.payload.orders with ⟨hok, hall⟩ | ⟨error, herr⟩
    · unfold requestOccurrence at hok
      exact .inl ⟨by rw [hok], trivial, hroom, hall⟩
    · unfold requestOccurrence at herr
      exact .inr ⟨error, s, by rw [herr], .refl s⟩
  · simp only [hcap]
    exact .inr ⟨_, t, rfl, hsame⟩

/-- A snapshot that passes the preflight is applied to the end. -/
theorem applyFreshOpenSnapshot_spec {envelope : EventEnvelope PmCompleteOpenOrdersSnapshot}
    (hcap : s.preflightSnapshotCapacity envelope.payload.orders = (.ok (), s))
    (hroom : s.entries.length + envelope.payload.orders.countP (fun row => (s.touched row.order).isEmpty) ≤ maxPmPrivateOrders)
    (hall : RowsPass s (requestOccurrence envelope.ordering envelope.payload.boundary) reservations envelope.payload.orders)
    (hvalid : RowsValid config config.source reservations envelope.payload.orders) :
    ∃ answer t, s.applyFreshOpenSnapshot config envelope reservations = (.ok answer, t) ∧ t.Exact ∧
      ∀ e ∈ t.entries, ∃ e₀, Marks e₀ e ∧ (e₀ ∈ s.entries ∨ ∃ row ∈ envelope.payload.orders,
        Lands s (.ofRow (requestOccurrence envelope.ordering envelope.payload.boundary) row
          (companionKnowledge row reservations)) e₀) := by
  have hstart : BetweenRows config envelope.payload
      (requestOccurrence envelope.ordering envelope.payload.boundary) reservations s s
      envelope.payload.orders :=
    ⟨h, fun _ _ _ _ => Iff.rfl, fun _ he => .inl he, hroom, rfl, rfl⟩
  obtain ⟨counts, u, hu, hend⟩ := reduceRows_spec h hall hvalid envelope.payload.orders
    (fun _ hrow => hrow)
    (nodup_of_nodup_filterMap envelope.payload.venues_nodup envelope.payload.row_venue) 0 0 hstart
  unfold requestOccurrence at hu
  refine ⟨_, _, by simp only [applyFreshOpenSnapshot, hcap, hu]; rfl, ?_, ?_⟩
  · exact hend.sound.exact.map (fun e => (marks_markEntry _ _ e).keys.1)
      fun e => (marks_markEntry _ _ e).keys.2
  · intro e he
    obtain ⟨e₀, he₀, rfl⟩ := mem_map.mp (show e ∈ u.entries.map _ from he)
    exact ⟨e₀, marks_markEntry _ _ e₀, hend.come e₀ he₀⟩

/-- **Snapshots.** A snapshot that fails leaves the state as it was; one that is applied
leaves only orders that were there and orders that its rows leave. -/
theorem applyOpenSnapshot_spec (reservations : List PmOpenOrderReservation) :
    ∃ reply t, s.applyOpenSnapshot config envelope reservations = (reply, t) ∧
      ((reply ≠ .panic ∧ SameStore s t) ∨ (∃ answer, reply = .ok answer) ∧ t.Exact ∧
        ∀ e ∈ t.entries, ∃ e₀, Marks e₀ e ∧ (e₀ ∈ s.entries ∨
          ∃ o ∈ (Op.applyOpenSnapshot envelope reservations).observations config s,
            Lands s o e₀)) := by
  unfold applyOpenSnapshot
  cases hchk : validateOpenSnapshot config envelope reservations with
  | error => exact ⟨_, _, rfl, .inl ⟨nofun, .refl s⟩⟩
  | ok =>
  cases hsta : s.snapshotStaleOrDuplicate envelope.payload envelope.ordering.connectionEpoch with
  | some =>
    refine ⟨_, _, rfl, .inl ⟨nofun, ?_⟩⟩
    unfold snapshotStaleOrDuplicate at hsta
    dsimp only at hsta
    split_ifs at hsta <;> cases hsta <;> exact ⟨rfl, rfl, rfl⟩
  | none =>
  rcases preflightFreshOpenSnapshot_cases h envelope reservations with
    ⟨hpre, hcap, hroom, hall⟩ | ⟨error, t, hpre, hsame⟩
  · have hvalid : RowsValid config config.source reservations envelope.payload.orders := by
      unfold validateOpenSnapshot at hchk
      dsimp only at hchk
      split_ifs at hchk with hsc
      rw [not_or, not_not] at hsc
      rw [← hsc.1]
      exact validateRows_ok hchk
    obtain ⟨answer, t, ht, hexa, hcome⟩ := applyFreshOpenSnapshot_spec h hcap hroom hall hvalid
    refine ⟨_, t, by simp [hpre, ht], .inr ⟨⟨answer, rfl⟩, hexa, fun e he => ?_⟩⟩
    obtain ⟨e₀, hmar, hs | ⟨row, hrow, hlan⟩⟩ := hcome e he
    · exact ⟨e₀, hmar, .inl hs⟩
    · refine ⟨e₀, hmar, .inr ⟨_, ?_, hlan⟩⟩
      simp only [Op.observations, hchk, hsta, hpre]
      exact mem_map.mpr ⟨row, hrow, rfl⟩
  · simp only [hpre]
    exact ⟨_, t, rfl, .inl ⟨nofun, hsame⟩⟩

end

end Reap.Order
