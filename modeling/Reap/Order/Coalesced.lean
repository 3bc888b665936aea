import Reap.Order.Invariant

/-!
# What coalescing does not check

When an event is applied to an order, it is compared with the terms the order is registered
with, and an order that is over gives its reservation back. Neither happens when two orders
are coalesced: the result takes the event of the one that was observed last, the registered
terms of the other, and the reservation of the one that is owned. If an event is applied to
the result at once, that puts both right. A binding, a stale event and a detail that is
refused leave the result as it is.

## What is proved

* `keepsTerms_of_reach` — **the registered terms bind the observed order, as long as no call
  leaves two orders coalesced whose terms and event contradict each other**.
* `released_of_reach` — **an order that is over holds no reservation, as long as no call leaves
  two orders coalesced of which the later is over and the owned one holds a reservation**.
-/

namespace Reap.Order

open Base Reap.Core
open OrderSample (bridgedRun venueReport observe registration client half cheaper unfilled filled
  share)

/-! ### Coalesced orders -/

variable {a b merged : OrderEntry} {terms : RegisteredTerms} {config : PmPrivateStateConfig}
  {s : PmOrderState} {identity : PmOrderIdentity}

section

variable (hm : mergeEntries a b = .ok merged)

include hm

/-- The registered terms of a coalesced order are those of a part. -/
theorem registeredTerms_merged (hter : merged.registeredTerms = some terms) :
    ∃ e ∈ [a, b], e.registeredTerms = some terms := by
  obtain ⟨_, both, _, -, -, hboth, -, -, -, rfl⟩ := mergeEntries_eq_ok.mp hm
  rcases mergeTerms_cases hboth with ⟨rfl, -⟩ | ⟨-, rfl⟩
  · exact ⟨a, .head _, hter⟩
  · exact ⟨b, .tail _ (.head _), hter⟩

/-- A coalesced order is live when the later of the two is. -/
theorem isLive_merged : merged.isLive = (selectEntry a b).isLive := by
  obtain ⟨_, _, _, -, -, -, -, -, -, rfl⟩ := mergeEntries_eq_ok.mp hm
  rfl

theorem reservation_merged : mergeReservation a b = .ok merged.reservation := by
  obtain ⟨_, _, _, -, -, -, -, hres, -, rfl⟩ := mergeEntries_eq_ok.mp hm
  exact hres

end

section

variable (h : Sound config s) (htch : s.touched identity = [a, b])
  (hm : mergeEntries a b = .ok merged) (ha : a.ownership ≠ .provenOwned)
  (hb : b.ownership ≠ .provenOwned)

include h htch hm ha hb

/-- Two orders that are not owned were observed at different occurrences: the same event
would have made them share a key. -/
theorem compareOccurrences_ne_eq : compareOccurrences a b ≠ .eq := by
  intro heq
  obtain ⟨⟨hma, -⟩, hmb, -⟩ := pair_of_touched h htch
  obtain ⟨event, hev⟩ := Option.ne_none_iff_exists'.mp ((h.valid a hma).reported ha)
  obtain ⟨event', hev'⟩ := Option.ne_none_iff_exists'.mp ((h.valid b hmb).reported hb)
  obtain ⟨_, _, _, -, -, -, hlife, -, -, -⟩ := mergeEntries_eq_ok.mp hm
  simp only [mergeLifecycle, hev, hev', heq] at hlife
  split_ifs at hlife with hne
  cases not_not.mp hne
  have hkeys := (h.valid b hmb).event_keys event hev'
  have hover := hkeys.overlap (identitiesOverlap_self event.order)
  rw [identitiesOverlap_comm] at hover
  have hboth := ((h.valid a hma).event_keys event hev).overlap hover
  rw [not_overlap_of_touched h htch] at hboth
  cases hboth

/-- An order that is not owned keeps the reservation of the later of its parts. -/
theorem mergeReservation_unowned : merged.reservation = (selectEntry a b).reservation := by
  have hres := reservation_merged hm
  have hne := compareOccurrences_ne_eq h htch hm ha hb
  rw [mergeReservation, if_neg fun hown =>
    (mergeEntryOwnership_eq_owned.mp hown).elim ha hb, if_neg fun heq => hne heq.1] at hres
  exact (Outcome.ok.inj hres).symm

end

variable {event : PmOrderEvent} {e : OrderEntry}

/-- What `validate_update` has checked. -/
theorem checks_of_validateUpdate {prior : OrderEntry} (h : validateUpdate prior event = .ok ()) :
    (∀ previous ∈ prior.event, validateLifecycle previous event = .ok ()) ∧
      ∀ terms ∈ prior.registeredTerms, terms.match event = true := by
  have hter : validateUpdate.validateTerms prior event = .ok () →
      ∀ terms ∈ prior.registeredTerms, terms.match event = true := by
    intro hchk terms hter
    simp only [validateUpdate.validateTerms, Option.mem_def.mp hter] at hchk
    split_ifs at hchk with hmat
    exact hmat
  unfold validateUpdate at h
  split at h
  · cases h
  cases hev : prior.event with
  | none =>
    rw [hev] at h
    exact ⟨by rintro _ ⟨⟩, hter h⟩
  | some =>
    rw [hev] at h
    dsimp only at h
    split at h
    · cases h
    · next hlife => exact ⟨by simpa using hlife, hter h⟩

/-! ### Registered terms -/

/-- The event of a registered order has its terms. -/
def OrderEntry.KeepsTerms (e : OrderEntry) : Prop :=
  ∀ terms ∈ e.registeredTerms, ∀ event ∈ e.event,
    event.side = terms.side ∧ event.price = terms.price ∧
      event.progress.originalQuantity = terms.quantity

instance (e : OrderEntry) : Decidable e.KeepsTerms :=
  inferInstanceAs (Decidable (∀ terms ∈ e.registeredTerms, ∀ event ∈ e.event, _))

theorem RegisteredTerms.match_iff :
    terms.match event = true ↔ event.side = terms.side ∧ event.price = terms.price ∧
      event.progress.originalQuantity = terms.quantity := by
  simp [RegisteredTerms.match, and_assoc]

/-- One of the two orders is registered, and the event of the later one has other terms. -/
def Contradicts (a b : OrderEntry) : Prop :=
  ∃ e ∈ [a, b], ∃ terms ∈ e.registeredTerms, ∃ event ∈ (selectEntry a b).event,
    terms.match event = false

instance (a b : OrderEntry) : Decidable (Contradicts a b) :=
  inferInstanceAs (Decidable (∃ e ∈ [a, b], ∃ terms ∈ e.registeredTerms, ∃ event ∈ _, _))

/-- The call leaves no two orders coalesced that contradict each other. -/
def AgreesOnTerms (config : PmPrivateStateConfig) (s : PmOrderState) (op : Op) : Prop :=
  ∀ p ∈ op.leavesCoalesced config s, ¬ Contradicts p.1 p.2

instance (config : PmPrivateStateConfig) (s : PmOrderState) (op : Op) :
    Decidable (AgreesOnTerms config s op) :=
  inferInstanceAs (Decidable (∀ p ∈ op.leavesCoalesced config s, ¬ Contradicts p.1 p.2))

/-- What a call leaves keeps its terms. -/
theorem Yields.keepsTerms {op : Op} (hkp : ∀ x ∈ s.entries, x.KeepsTerms)
    (hok : AgreesOnTerms config s op) (hyie : Yields config s op e) : e.KeepsTerms := by
  cases hyie with
  | registered => exact fun _ _ _ hev => nomatch hev
  | remote => exact fun _ hter => nomatch hter
  | updated _ _ _ _ happ =>
    rintro terms hter _ ⟨⟩
    exact RegisteredTerms.match_iff.mp ((checks_of_validateUpdate happ.2.2).2 terms hter)
  | coalesced a b _ hlea hmer =>
    intro terms hter event hev
    rw [event_merged hmer] at hev
    obtain ⟨part, hpart, hter⟩ := registeredTerms_merged hmer hter
    refine RegisteredTerms.match_iff.mp (Bool.eq_true_of_not_eq_false fun hfalse => ?_)
    exact hok (a, b) hlea ⟨part, hpart, terms, hter, event, hev, hfalse⟩
  | bound e he => exact hkp e he
  | absent e he => exact hkp e he

/-- **The registered terms bind the observed order** in every run in which no call leaves two
orders coalesced whose terms and event contradict each other. -/
theorem keepsTerms_of_reach {config : PmPrivateStateConfig} {s : PmOrderState}
    (h : Reach (step config) (AgreesOnTerms config) .new s) : ∀ e ∈ s.entries, e.KeepsTerms := by
  refine entries_of_reach h ?_ fun _ _ _ _ hkp hok hyie => hyie.keepsTerms hkp hok
  rintro e _ ⟨missing, rfl⟩ hkp
  exact hkp

/-- A registered order that turns out to be an order the venue has reported with its terms. -/
theorem keepsTerms_bridged :
    ∃ s, Reach (step OrderSample.config) (AgreesOnTerms OrderSample.config) .new s ∧
      (∃ e ∈ s.entries, e.registeredTerms ≠ none ∧ e.event ≠ none) ∧
      ∀ e ∈ s.entries, e.KeepsTerms :=
  exists_reach_and (bridgedRun (venueReport half (unfilled share))) (by decide +kernel)
    fun _ hrch _ => keepsTerms_of_reach hrch

/-- A registered order is bound to an order that the venue has reported at another price. -/
theorem binding_contradicts_terms :
    ∃ s, Reach (step OrderSample.config) anyCall .new s ∧ ∃ e ∈ s.entries, ¬ e.KeepsTerms :=
  exists_reach_of_run (bridgedRun (venueReport cheaper (unfilled share))) (by decide +kernel)

/-! ### Released reservations -/

/-- An order that is over holds no reservation. -/
def OrderEntry.Released (e : OrderEntry) : Prop := e.isLive = false → e.reservation = none

instance (e : OrderEntry) : Decidable e.Released :=
  inferInstanceAs (Decidable (e.isLive = false → e.reservation = none))

/-- The later of the two orders is over, and an owned one holds a reservation. -/
def HoldsBack (a b : OrderEntry) : Prop :=
  (selectEntry a b).isLive = false ∧ ∃ e ∈ [a, b], e.ownership = .provenOwned ∧ e.reservation ≠ none

instance (a b : OrderEntry) : Decidable (HoldsBack a b) :=
  inferInstanceAs (Decidable (_ ∧ ∃ e ∈ [a, b], _))

/-- The call leaves no two orders coalesced that hold a reservation back. -/
def ReleasesCoalesced (config : PmPrivateStateConfig) (s : PmOrderState) (op : Op) : Prop :=
  ∀ p ∈ op.leavesCoalesced config s, ¬ HoldsBack p.1 p.2

instance (config : PmPrivateStateConfig) (s : PmOrderState) (op : Op) :
    Decidable (ReleasesCoalesced config s op) :=
  inferInstanceAs (Decidable (∀ p ∈ op.leavesCoalesced config s, ¬ HoldsBack p.1 p.2))

/-- A coalesced order that is over holds no reservation. -/
theorem released_merged (h : Sound config s) (hrel : ∀ x ∈ s.entries, x.Released)
    (htch : s.touched identity = [a, b]) (hm : mergeEntries a b = .ok merged)
    (hnot : ¬ HoldsBack a b) : merged.Released := by
  intro hdead
  rw [isLive_merged hm] at hdead
  by_cases hown : a.ownership = .provenOwned ∨ b.ownership = .provenOwned
  · obtain ⟨hleft, hright⟩ := mergeReservation_owned (reservation_merged hm) hown
    have hnone : ∀ e ∈ [a, b], e.ownership = .provenOwned → e.reservation = none := by
      intro e he hown
      by_contra hsome
      exact hnot ⟨hdead, e, he, hown, hsome⟩
    rcases hown with ha | hb
    · exact (hleft ha).trans (hnone a (.head _) ha)
    · exact (hright hb).trans (hnone b (.tail _ (.head _)) hb)
  · obtain ⟨ha, hb⟩ := not_or.mp hown
    rw [mergeReservation_unowned h htch hm ha hb]
    obtain ⟨⟨hma, -⟩, hmb, -⟩ := pair_of_touched h htch
    rcases selectEntry_cases a b with hs | hs
    · rw [hs] at hdead ⊢
      exact hrel a hma hdead
    · rw [hs] at hdead ⊢
      exact hrel b hmb hdead

theorem isLive_remote (event : PmOrderEvent) (ownership : OwnershipState)
    (reservation : PmReservationKnowledge) (occurrence : PmPrivateOccurrence) :
    (OrderEntry.remote event ownership reservation occurrence).isLive =
      !isTerminalEvent event := rfl

theorem isLive_updated (prior : OrderEntry) (identity : PmOrderIdentity) (event : PmOrderEvent)
    (occurrence : PmPrivateOccurrence) (knowledge : PmRemoteOrderKnowledge)
    (reservation : PmReservationKnowledge) :
    (prior.updated identity event occurrence knowledge reservation).isLive =
      !isTerminalEvent event := rfl

/-- What a call leaves has given its reservation back when it is over. -/
theorem Yields.released {op : Op} (h : Sound config s) (hrel : ∀ x ∈ s.entries, x.Released)
    (hok : ReleasesCoalesced config s op) (hyie : Yields config s op e) : e.Released := by
  cases hyie with
  | registered => exact nofun
  | remote =>
    intro hdead
    rw [isLive_remote, Bool.not_eq_false'] at hdead
    exact if_pos hdead
  | updated o _ prior =>
    intro hdead
    rw [isLive_updated, Bool.not_eq_false'] at hdead
    show prior.updatedReservation o.event o.reservation = none
    unfold OrderEntry.updatedReservation liveReservation
    rw [if_pos hdead, if_pos hdead, ite_self]
  | coalesced a b _ hlea hmer =>
    obtain ⟨identity, htch⟩ := touched_of_leavesCoalesced hlea
    exact released_merged h hrel htch hmer (hok (a, b) hlea)
  | bound e he => exact hrel e he
  | absent => exact fun _ => rfl

/-- **An order that is over holds no reservation** in every run in which no call leaves two
orders coalesced of which the later is over and an owned one holds a reservation. -/
theorem released_of_reach {config : PmPrivateStateConfig} {s : PmOrderState}
    (h : Reach (step config) (ReleasesCoalesced config) .new s) :
    ∀ e ∈ s.entries, e.Released := by
  refine entries_of_reach h ?_ fun _ _ _ hsou hrel hok hyie =>
    hyie.released hsou hrel hok
  rintro e _ ⟨missing, rfl⟩ hrel
  exact hrel

/-- An owned order that is filled after its venue key became known. -/
theorem released_filled :
    ∃ s, Reach (step OrderSample.config) (ReleasesCoalesced OrderSample.config) .new s ∧
      (∃ e ∈ s.entries, e.ownership = .provenOwned ∧ e.isLive = false) ∧
      ∀ e ∈ s.entries, e.Released :=
  exists_reach_and [.registerOwned registration, .bindOwnedVenue client OrderSample.venue,
    observe 1 (by decide) (venueReport half filled)] (by decide +kernel) fun _ hrch _ => released_of_reach hrch

/-- A registered order is bound to an order that the venue has reported filled, and keeps its
reservation. -/
theorem binding_keeps_reservation :
    ∃ s, Reach (step OrderSample.config) anyCall .new s ∧ ∃ e ∈ s.entries, ¬ e.Released :=
  exists_reach_of_run (bridgedRun (venueReport half filled)) (by decide +kernel)

end Reap.Order
