import Reap.Order.Coalesced
import Reap.Order.Decision

/-!
# Every live order is in the exposure

A live order should hold a reservation, one that is enough for what is left of the order if it
is known at all; then the totals of a quote decision leave no live order out.

Two paths break this. When the venue says that it does not know an owned order any more, the
order gives its reservation back; a later event makes the order live again, but only orders
that are not owned get their reservation from an event. And when an owned order is coalesced
with a later one, it keeps its own reservation, which was never compared with the later event.

## What is proved

* `counted_of_reach` — **every live order is in the exposure, as long as no event revives an
  owned order that the venue had declared absent, and no call leaves two orders coalesced whose
  reservation understates the later event**.
-/

namespace Reap.Order

open Base Reap.Core OrderSample OrderEntry Option

/-! ### Exposure -/

namespace OrderEntry

/-- The reservation is enough for what is left of the order: of the last event, or of the
registered quantity if there was none. -/
def CoveredBy (e : OrderEntry) (r : PmExactReservation) : Prop :=
  (∀ event ∈ e.event, Covers r event.side event.price event.progress.remainingQuantityUnits) ∧
    (e.event = none → ∀ terms ∈ e.registeredTerms,
      Covers r terms.side terms.price terms.quantity.protocolUnits)

instance (e : OrderEntry) (r : PmExactReservation) : Decidable (e.CoveredBy r) :=
  inferInstanceAs (Decidable (_ ∧ _))

/-- A live order has a reservation, and enough of it if it is known. -/
def Exposed (e : OrderEntry) : Prop :=
  e.isLive = true → e.reservation ≠ none ∧ ∀ r ∈ e.knownReservation, e.CoveredBy r

instance (e : OrderEntry) : Decidable e.Exposed :=
  inferInstanceAs (Decidable (_ → _ ∧ ∀ r ∈ e.knownReservation, _))

theorem knownReservation_eq_some {e : OrderEntry} {r : PmExactReservation} :
    e.knownReservation = some r ↔ e.reservation = some (.known r) := by
  unfold knownReservation
  split
  · next reservation heq => rw [heq]; simp
  · next hnot => exact ⟨nofun, fun heq => absurd heq (hnot r)⟩

end OrderEntry

/-- Every live order of the state is in the exposure. -/
structure Counted (s : PmOrderState) : Prop where
  exposed : ∀ e ∈ s.entries, e.Exposed
  /-- The totals of a decision, if there are any, are the sums over all live orders, each of
  which has a known reservation. -/
  totals : ∃ summary, s.decisionSummary = some summary ∧
    ∀ collateral outcome, summary.reservationTotals = .ok (collateral, outcome) →
      (∀ e ∈ s.entries, e.isLive = true → ∃ r, e.reservation = some (.known r)) ∧
      collateral.value =
        ((s.entries.filter isLive).map heldCollateral).sum ∧
      outcome.value = ((s.entries.filter isLive).map heldOutcome).sum

/-- The summary leaves no order out if all live orders have a reservation. -/
theorem counted_of_exposed {s : PmOrderState} (h : s.Exact)
    (hexposed : ∀ e ∈ s.entries, e.Exposed) : Counted s := by
  refine ⟨hexposed, ?_⟩
  obtain ⟨summary, hsum, hdes⟩ := decisionSummary_spec h
  refine ⟨summary, hsum, fun collateral outcome htot => ?_⟩
  obtain ⟨hkn, hcol, hout⟩ := hdes.totals collateral outcome htot
  refine ⟨fun e he hlive => ?_, hcol, hout⟩
  have hnot := hkn e (List.mem_filter.mpr ⟨he, hlive⟩)
  have hsome := (hexposed e he hlive).1
  match hres : e.reservation with
  | none => exact absurd hres hsome
  | some .unknown => exact absurd hres hnot
  | some (.known r) => exact ⟨r, rfl⟩

/-! ### The two gaps -/

/-- An event makes an owned order live again that the venue had declared absent. -/
def Revives (config : PmPrivateStateConfig) (s : PmOrderState) (op : Op) : Prop :=
  ∃ o ∈ op.observations config s, isTerminalEvent o.event = false ∧
    ∃ e ∈ s.touched o.event.order, e.ownership = .provenOwned ∧
      e.terminalByDetailAbsence = true ∧ e.reservation = none ∧ Applies e o.event o.occurrence

instance (config : PmPrivateStateConfig) (s : PmOrderState) (op : Op) :
    Decidable (Revives config s op) :=
  inferInstanceAs (Decidable (∃ o ∈ op.observations config s, _ ∧ ∃ e ∈ _, _))

/-- The later of the two orders is live, and the reservation of an owned one is not enough for
what is left of it. -/
def Understates (a b : OrderEntry) : Prop :=
  (selectEntry a b).isLive = true ∧
    ∃ e ∈ [a, b], e.ownership = .provenOwned ∧ ∃ r ∈ e.knownReservation,
      ∃ event ∈ (selectEntry a b).event,
        ¬ Covers r event.side event.price event.progress.remainingQuantityUnits

instance (a b : OrderEntry) : Decidable (Understates a b) :=
  inferInstanceAs (Decidable (_ ∧ ∃ e ∈ [a, b], _ ∧ ∃ r ∈ e.knownReservation, ∃ event ∈ _, _))

/-- The call does neither. -/
def KeepsExposure (config : PmPrivateStateConfig) (s : PmOrderState) (op : Op) : Prop :=
  ¬ Revives config s op ∧ ∀ p ∈ op.leavesCoalesced config s, ¬ Understates p.1 p.2

instance (config : PmPrivateStateConfig) (s : PmOrderState) (op : Op) :
    Decidable (KeepsExposure config s op) :=
  inferInstanceAs (Decidable (_ ∧ ∀ p ∈ op.leavesCoalesced config s, _))

/-! ### Orders without a reservation -/

/-- Nothing follows a terminal event but the same progress. -/
theorem isTerminalEvent_of_lifecycle {previous next : PmOrderEvent}
    (h : validateLifecycle previous next = .ok ()) (hterm : isTerminalEvent previous = true) :
    isTerminalEvent next = true := by
  unfold validateLifecycle at h
  split_ifs at h with hreg
  simp only [not_or] at hreg
  obtain ⟨-, -, -, -, -, -, hpro⟩ := hreg
  have hsame : previous.progress = next.progress := by
    by_contra hne
    exact hpro ⟨hterm, hne⟩
  rw [isTerminalEvent, ← hsame]
  exact hterm

/-- An order that is over has a terminal event, unless the venue has declared it absent. -/
theorem terminal_of_dead {e : OrderEntry} (hdead : e.isLive = false)
    (hpre : e.terminalByDetailAbsence = false) :
    ∃ event, e.event = some event ∧ isTerminalEvent event = true := by
  cases hev : e.event with
  | none => simp [isLive, hpre, hev] at hdead
  | some event =>
    simp only [isLive, hpre, hev, Bool.not_false, Bool.true_and, Bool.not_eq_false'] at hdead
    exact ⟨event, rfl, hdead⟩

/-- The later of two events is terminal if one of them is. -/
theorem terminal_selectEntry {a b : OrderEntry} {eventA eventB : PmOrderEvent}
    (h : mergeLifecycle a b = .ok ()) (ha : a.event = some eventA) (hb : b.event = some eventB)
    (hterm : isTerminalEvent eventA = true ∨ isTerminalEvent eventB = true) :
    ∃ event, (selectEntry a b).event = some event ∧ isTerminalEvent event = true := by
  simp only [mergeLifecycle, ha, hb] at h
  unfold selectEntry
  cases hcom : compareOccurrences a b with
  | lt =>
    rw [hcom] at h
    exact ⟨eventB, hb, hterm.elim (isTerminalEvent_of_lifecycle h) id⟩
  | gt =>
    rw [hcom] at h
    exact ⟨eventA, ha, hterm.elim id (isTerminalEvent_of_lifecycle h)⟩
  | eq =>
    rw [hcom] at h
    split_ifs at h with hne
    cases not_not.mp hne
    rw [ha, hb]
    exact ⟨eventA, ha, hterm.elim id id⟩

section

/-- Two keys that cannot differ and are not shared: one of them is missing. -/
theorem eq_none_or_of_unshared {κ : Type} {x y : Option κ}
    (heq : ∀ k k', x = some k → y = some k' → k = k') (hne : ∀ k, x = some k → y ≠ some k) :
    x = none ∨ y = none := by
  by_contra hboth
  obtain ⟨hx, hy⟩ := not_or.mp hboth
  obtain ⟨k, hk⟩ := ne_none_iff_exists'.mp hx
  obtain ⟨k', hk'⟩ := ne_none_iff_exists'.mp hy
  cases heq k k' hk hk'
  exact hne k hk hk'

variable {config : PmPrivateStateConfig} {s : PmOrderState} (h : Sound config s)

include h

variable {identity : PmOrderIdentity} {a b : OrderEntry} {op : Op}

/-- Of two orders that one identity touches and that can be coalesced, an owned one has not
been declared absent, and the other one is not owned: an order has one kind of key each. -/
theorem owned_part (htch : s.touched identity = [a, b])
    (hkeys : ensureIdentityMerge a.identity b.identity = .ok ()) :
    (a.ownership = .provenOwned → a.terminalByDetailAbsence = false ∧ b.ownership ≠ .provenOwned) ∧
      (b.ownership = .provenOwned →
        b.terminalByDetailAbsence = false ∧ a.ownership ≠ .provenOwned) := by
  obtain ⟨⟨hma, -⟩, hmb, -⟩ := pair_of_touched h htch
  have hva := h.valid a hma
  have hvb := h.valid b hmb
  have hdis := Bool.eq_false_iff.mp (not_overlap_of_touched h htch)
  obtain ⟨hcl, hvenu⟩ := ensureIdentityMerge_eq_ok.mp hkeys
  -- keys of one kind would be equal, and the two orders do not share a key
  have hcli : a.identity.clientOrderKey = none ∨ b.identity.clientOrderKey = none :=
    eq_none_or_of_unshared hcl fun c hc hc' =>
      hdis (identitiesOverlap_iff.mpr (.inl ⟨c, hc, hc'⟩))
  have hven : a.identity.venueOrderKey = none ∨ b.identity.venueOrderKey = none :=
    eq_none_or_of_unshared hvenu fun v hv hv' =>
      hdis (identitiesOverlap_iff.mpr (.inr ⟨v, hv, hv'⟩))
  constructor
  · intro hown
    have hb := hcli.resolve_left (hva.owned_client hown)
    refine ⟨Bool.eq_false_iff.mpr fun habs => ?_, fun hown' => hvb.owned_client hown' hb⟩
    exact b.identity.nonempty ⟨hb, hven.resolve_left (hva.absent_venue habs)⟩
  · intro hown
    have ha := hcli.resolve_right (hvb.owned_client hown)
    refine ⟨Bool.eq_false_iff.mpr fun habs => ?_, fun hown' => hva.owned_client hown' ha⟩
    exact a.identity.nonempty ⟨ha, hven.resolve_right (hvb.absent_venue habs)⟩

section

variable (hexposed : ∀ x ∈ s.entries, x.Exposed)

include hexposed

variable {merged prior : OrderEntry} {o : Observation}

/-- A coalesced order that is owned and has no reservation has a terminal event. -/
theorem terminal_of_unreserved (htch : s.touched identity = [a, b])
    (hm : mergeEntries a b = .ok merged) (howne : merged.ownership = .provenOwned)
    (hnone : merged.reservation = none) :
    ∃ event, merged.event = some event ∧ isTerminalEvent event = true := by
  obtain ⟨⟨ha, -⟩, hb, -⟩ := pair_of_touched h htch
  have hres := reservation_merged hm
  obtain ⟨_, _, _, -, hkeys, -, hlife, -, -, rfl⟩ := mergeEntries_eq_ok.mp hm
  have hpar := mergeEntryOwnership_eq_owned.mp howne
  obtain ⟨hleft, hright⟩ := mergeReservation_owned hres hpar
  obtain ⟨hparA, hparB⟩ := owned_part h htch hkeys
  -- an order without a reservation is over
  have hdead : ∀ e ∈ s.entries, e.reservation = none → e.terminalByDetailAbsence = false →
      ∃ event, e.event = some event ∧ isTerminalEvent event = true := by
    intro e he hnone hpre
    refine terminal_of_dead (Bool.eq_false_iff.mpr fun hlive => ?_) hpre
    exact (hexposed e he hlive).1 hnone
  rcases hpar with hown | hown
  · obtain ⟨hpre, hoth⟩ := hparA hown
    obtain ⟨eventA, heveA, hterm⟩ := hdead a ha ((hleft hown).symm.trans hnone) hpre
    obtain ⟨eventB, heveB⟩ := ne_none_iff_exists'.mp ((h.valid b hb).reported hoth)
    exact terminal_selectEntry hlife heveA heveB (.inl hterm)
  · obtain ⟨hpre, hoth⟩ := hparB hown
    obtain ⟨eventB, heveB, hterm⟩ := hdead b hb ((hright hown).symm.trans hnone) hpre
    obtain ⟨eventA, heveA⟩ := ne_none_iff_exists'.mp ((h.valid a ha).reported hoth)
    exact terminal_selectEntry hlife heveA heveB (.inr hterm)

section

variable (hnot : ¬ Revives config s op) (ho : o ∈ op.observations config s)
  (hpr : s.prior o.event.order = some prior) (happ : Applies prior o.event o.occurrence)

include hnot ho hpr happ

/-- An event that is applied to an owned order and leaves it live finds its reservation there. -/
theorem reservation_of_applies (hopen : isTerminalEvent o.event = false)
    (hown : prior.ownership = .provenOwned) : prior.reservation ≠ none := by
  intro hnone
  -- a terminal event would have made the new one terminal
  have hlive : ∀ event, prior.event = some event → isTerminalEvent event = true → False := by
    intro event hev hterm
    have hlife := (checks_of_validateUpdate happ.2.2).1 event hev
    rw [isTerminalEvent_of_lifecycle hlife hterm] at hopen
    cases hopen
  rcases prior_cases hpr with htch | ⟨a, b, htch, hm⟩
  · have he := (mem_of_touched h htch (.head _)).1
    have hdead : prior.isLive = false :=
      Bool.eq_false_iff.mpr fun hlive => (hexposed prior he hlive).1 hnone
    cases habs : prior.terminalByDetailAbsence with
    | true =>
      exact hnot ⟨o, ho, hopen, prior, htch ▸ (.head _), hown, habs, hnone, happ⟩
    | false =>
      obtain ⟨event, hev, hterm⟩ := terminal_of_dead hdead habs
      exact hlive event hev hterm
  · obtain ⟨event, hev, hterm⟩ := terminal_of_unreserved h hexposed htch hm hown hnone
    exact hlive event hev hterm

/-! ### What a call leaves -/

/-- An order to which an event is applied. -/
theorem exposed_updated (identity : PmOrderIdentity) :
    (prior.updated identity o.event o.occurrence o.knowledge o.reservation).Exposed := by
  set next := prior.updated identity o.event o.occurrence o.knowledge o.reservation
  intro hlive
  rw [isLive_updated, Bool.not_eq_true'] at hlive
  have hval := valid_prior h hpr
  -- the last event is the new one, so only that has to be covered
  have hcove : ∀ {r}, Covers r o.event.side o.event.price
      o.event.progress.remainingQuantityUnits → next.CoveredBy r := by
    intro r hcov
    refine ⟨?_, by rintro ⟨⟩⟩
    rintro _ ⟨⟩
    exact hcov
  by_cases hown : prior.ownership = .provenOwned
  · have hkept : next.reservation = prior.reservation := by
      show prior.updatedReservation o.event o.reservation = _
      rw [updatedReservation, if_neg (not_not.mpr hown), hlive]
      rfl
    have hsome := reservation_of_applies h hexposed hnot ho hpr happ hlive hown
    refine ⟨hkept ▸ hsome, fun r hr => hcove ?_⟩
    rw [mem_def, knownReservation_eq_some, hkept] at hr
    obtain ⟨terms, hter⟩ := isSome_iff_exists.mp (hval.terms.mp hown)
    obtain ⟨_, hkn, hcov⟩ := hval.reservation terms hter (.known r) hr
    cases hkn
    obtain ⟨hside, hpri, hqua⟩ :=
      RegisteredTerms.match_iff.mp ((checks_of_validateUpdate happ.2.2).2 terms hter)
    rw [hside, hpri]
    refine hcov.mono ?_
    rw [← hqua]
    simp [PmOrderProgress.remainingQuantityUnits, U256.checkedSub_ok o.event.progress.le_original,
      Except.toOption]
  · have hnew : next.reservation = some o.reservation := by
      show prior.updatedReservation o.event o.reservation = _
      rw [updatedReservation, if_pos hown, liveReservation, hlive]
      rfl
    refine ⟨hnew ▸ (by rintro ⟨⟩), fun r hr => hcove ?_⟩
    rw [mem_def, knownReservation_eq_some, hnew] at hr
    exact (checked_of_mem ho).covered r (some.inj hr) hlive

end

/-- Two orders that are left coalesced. -/
theorem exposed_merged (htch : s.touched identity = [a, b]) (hm : mergeEntries a b = .ok merged)
    (hnot : ¬ Understates a b) : merged.Exposed := by
  intro hlive
  obtain ⟨⟨ha, -⟩, hb, -⟩ := pair_of_touched h htch
  have hval := (h.valid a ha).merge (h.valid b hb) hm
  have hsel := isLive_merged hm ▸ hlive
  by_cases howne : a.ownership = .provenOwned ∨ b.ownership = .provenOwned
  · have howne' : merged.ownership = .provenOwned := by
      obtain ⟨_, _, _, -, -, -, -, -, -, rfl⟩ := mergeEntries_eq_ok.mp hm
      exact mergeEntryOwnership_eq_owned.mpr howne
    refine ⟨fun hnone => ?_, fun r hr => ⟨fun event hev => ?_, fun _ terms hter => ?_⟩⟩
    · obtain ⟨event, hev, hterm⟩ := terminal_of_unreserved h hexposed htch hm howne' hnone
      simp [isLive, hev, hterm] at hlive
    · obtain ⟨hleft, hright⟩ := mergeReservation_owned (reservation_merged hm) howne
      rw [mem_def, knownReservation_eq_some] at hr
      by_contra hnotCov
      refine hnot ⟨hsel, ?_⟩
      rw [event_merged hm] at hev
      rcases howne with hown | hown
      · exact ⟨a, (.head _), hown, r,
          knownReservation_eq_some.mpr ((hleft hown).symm.trans hr), event, hev,
          hnotCov⟩
      · exact ⟨b, .tail _ (.head _), hown, r,
          knownReservation_eq_some.mpr ((hright hown).symm.trans hr), event, hev,
          hnotCov⟩
    · rw [mem_def, knownReservation_eq_some] at hr
      obtain ⟨_, hkn, hcove⟩ := hval.reservation terms hter (.known r) hr
      cases hkn
      exact hcove
  · obtain ⟨hna, hnb⟩ := not_or.mp howne
    have hres := mergeReservation_unowned h htch hm hna hnb
    have huno : merged.ownership ≠ .provenOwned := by
      obtain ⟨_, _, _, -, -, -, -, -, -, rfl⟩ := mergeEntries_eq_ok.mp hm
      exact fun hown => howne (mergeEntryOwnership_eq_owned.mp hown)
    -- the order takes event and reservation from the later of the two
    have hpart : (selectEntry a b).Exposed := by
      rcases selectEntry_cases a b with hs | hs
      · rw [hs]
        exact hexposed a ha
      · rw [hs]
        exact hexposed b hb
    obtain ⟨hsome, hcov⟩ := hpart hsel
    refine ⟨hres ▸ hsome, fun r hr => ⟨fun event hev => ?_, fun hev => ?_⟩⟩
    · rw [mem_def, knownReservation_eq_some, hres] at hr
      exact (hcov r (knownReservation_eq_some.mpr hr)).1 event (event_merged hm ▸ hev)
    · exact absurd hev (hval.reported huno)

/-- What a call leaves is in the exposure. -/
theorem Yields.exposed {e : OrderEntry}
    (hok : KeepsExposure config s op) (hyie : Yields config s op e) : e.Exposed := by
  cases hyie with
  | registered registration =>
    refine fun _ => ⟨nofun, ?_⟩
    rintro _ ⟨⟩
    refine ⟨by rintro _ ⟨⟩, fun _ => ?_⟩
    rintro _ ⟨⟩
    exact validateRequirement_covers registration.covered
  | remote o ho =>
    intro hlive
    rw [isLive_remote, Bool.not_eq_true'] at hlive
    have hnew : liveReservation o.event o.reservation = some o.reservation := by
      rw [liveReservation, hlive]
      rfl
    refine ⟨fun hnone => absurd (hnew.symm.trans hnone) nofun, fun r hr => ⟨?_, nofun⟩⟩
    rintro _ ⟨⟩
    have hkn := hnew.symm.trans (knownReservation_eq_some.mp hr)
    exact (checked_of_mem ho).covered r (some.inj hkn) hlive
  | updated _ ho _ hpr happ identity =>
    exact exposed_updated h hexposed hok.1 ho hpr happ identity
  | coalesced a b _ hlea hmer =>
    obtain ⟨identity, htch⟩ := touched_of_leavesCoalesced hlea
    exact exposed_merged h hexposed htch hmer (hok.2 (a, b) hlea)
  | bound e he => exact hexposed e he
  | absent => exact nofun

end

end

/-- **Every live order is in the exposure** in every run in which no event revives an owned
order that the venue had declared absent, and no call leaves two orders coalesced whose
reservation understates the later event. -/
theorem counted_of_reach {config : PmPrivateStateConfig} {s : PmOrderState}
    (h : Reach (step config) (KeepsExposure config) .new s) : Counted s := by
  refine counted_of_exposed (sound_of_reach h).exact (entries_of_reach h ?_ ?_)
  · rintro e _ ⟨missing, rfl⟩ hexposed
    exact hexposed
  · exact fun _ _ _ hsou hexposed hok hyie => hyie.exposed hsou hexposed hok

/-- An owned order that the venue reports open. -/
theorem counted_open : ∃ s, Reach (step config) (KeepsExposure config) .new s ∧
      (∃ e ∈ s.entries, e.isLive = true ∧ e.event ≠ none) ∧ Counted s :=
  exists_reach_and (bridgedRun (venueReport half (unfilled share))) (by decide +kernel)
    fun _ hrch _ => counted_of_reach hrch

/-- The venue does not know an owned order, and reports it open after all: the order is live,
but it has no reservation, and the totals leave it out. -/
theorem revived_order_left_out : ∃ s, Reach (step config) anyCall .new s ∧
      (∃ e ∈ s.entries, e.isLive = true ∧ e.reservation = none) ∧
      ∃ summary ∈ s.decisionSummary, summary.reservationTotals = .ok (U256.zero, U256.zero) :=
  exists_reach_of_run [.registerOwned registration,
    .bindOwnedVenue client venue, answer none (by simp) (by simp),
    observe 5 (by decide) (venueReport half (unfilled share))]
    (by decide +kernel)

/-- An order that is reserved for one share is bound to a live order of ten. -/
example : ∃ s, Reach (step config) anyCall .new s ∧ ∃ e ∈ s.entries, ¬ e.Exposed :=
  exists_reach_of_run (bridgedRun (venueReport half
    (unfilled ⟨.fromU64 10000000, by decide⟩))) (by decide +kernel)

end Reap.Order
