import Reap.Base.Check
import Reap.Order.State

/-!
# What holds of every stored order

`Valid` is what the source relies on about a single order and never checks: its keys belong
to the configured account, an owned order has a client key and registered terms, an order
that is not owned was reported by the venue, and so on. Everything that a call can make of
an order is valid, if the order was.

## What is proved

* `mergeEntries_eq_ok` — when two orders can be coalesced, and into what.
* `Valid.registered`, `Valid.remote`, `Valid.merge`, `Valid.update`, `Valid.absent`,
  `Valid.bind` — everything that a call makes of valid orders is valid.
* `mergeEntries_ne_panic` — coalescing valid orders never aborts.
-/

namespace Reap.Order

open Base Reap.Core Outcome PmOrderIdentity Option

/-! ### Identities -/

variable {left right : PmOrderIdentity}

theorem ensureIdentityMerge_eq_ok : ensureIdentityMerge left right = .ok () ↔
      (∀ a b, left.clientOrderKey = some a → right.clientOrderKey = some b → a = b) ∧
      (∀ a b, left.venueOrderKey = some a → right.venueOrderKey = some b → a = b) := by
  rw [← conflictingKey_eq_false_iff, ← conflictingKey_eq_false_iff, ensureIdentityMerge]
  split_ifs with hc hv
  · simp [hc]
  · simp [hv]
  · simp [hc, hv]

variable {identity : PmOrderIdentity}

theorem mergeIdentity_eq_some : mergeIdentity left right = some identity ↔
      identity.clientOrderKey = left.clientOrderKey.or right.clientOrderKey ∧
      identity.venueOrderKey = left.venueOrderKey.or right.venueOrderKey := by
  rw [← new_eq_ok_iff, mergeIdentity]
  cases new _ _ <;> simp [Except.toOption]

/-- The keys of an identity belong to its account. -/
theorem account_eq_iff {account : PmAccountHandle} : identity.account = account ↔
      (∀ c, identity.clientOrderKey = some c → c.account = account) ∧
      (∀ v, identity.venueOrderKey = some v → v.account = account) := by
  constructor
  · rintro rfl
    exact ⟨fun c hc => (account_of_client hc).symm, fun v hv => (account_of_venue hv).symm⟩
  · rintro ⟨hc, hv⟩
    cases hcl : identity.clientOrderKey with
    | some c => rw [account_of_client hcl, hc c hcl]
    | none =>
      cases hven : identity.venueOrderKey with
      | some v => rw [account_of_venue hven, hv v hven]
      | none => exact absurd ⟨hcl, hven⟩ identity.nonempty

/-- Identities of one account can be merged. -/
theorem mergeIdentity_of_account (h : left.account = right.account) :
    ∃ identity, mergeIdentity left right = some identity ∧ identity.account = left.account := by
  obtain ⟨hlc, hlv⟩ := account_eq_iff.mp (rfl : left.account = left.account)
  obtain ⟨hrc, hrv⟩ := account_eq_iff.mp h.symm
  have hcl : ∀ c, left.clientOrderKey.or right.clientOrderKey = some c → c.account = left.account :=
    fun c hc => (or_eq_some_iff.mp hc).elim (hlc c) fun h => hrc c h.2
  have hven : ∀ v, left.venueOrderKey.or right.venueOrderKey = some v → v.account = left.account :=
    fun v hv => (or_eq_some_iff.mp hv).elim (hlv v) fun h => hrv v h.2
  have hnon : ¬ (left.clientOrderKey.or right.clientOrderKey = none ∧
      left.venueOrderKey.or right.venueOrderKey = none) := by
    rintro ⟨hc, hv⟩
    exact left.nonempty ⟨(or_eq_none_iff.mp hc).1, (or_eq_none_iff.mp hv).1⟩
  refine ⟨⟨_, _, hnon, fun c hc v hv => (hcl c hc).trans (hven v hv).symm⟩,
    mergeIdentity_eq_some.mpr ⟨rfl, rfl⟩, account_eq_iff.mpr ⟨hcl, hven⟩⟩

/-- A merged identity has the keys of both. -/
structure HasKeys (identity part : PmOrderIdentity) : Prop where
  client : ∀ c, part.clientOrderKey = some c → identity.clientOrderKey = some c
  venue : ∀ v, part.venueOrderKey = some v → identity.venueOrderKey = some v

theorem HasKeys.trans {a b c : PmOrderIdentity} (hab : HasKeys a b) (hbc : HasKeys b c) :
    HasKeys a c :=
  ⟨fun k hk => hab.client k (hbc.client k hk), fun k hk => hab.venue k (hbc.venue k hk)⟩

/-- What shares a key with a part shares it with the whole. -/
theorem HasKeys.overlap {part other : PmOrderIdentity} (h : HasKeys identity part)
    (hover : identitiesOverlap part other = true) : identitiesOverlap identity other = true := by
  rw [identitiesOverlap_iff] at hover ⊢
  rcases hover with ⟨c, hc, ho⟩ | ⟨v, hv, ho⟩
  · exact .inl ⟨c, h.client c hc, ho⟩
  · exact .inr ⟨v, h.venue v hv, ho⟩

section

variable {left right identity : PmOrderIdentity} (h : mergeIdentity left right = some identity)

include h

theorem hasKeys_left : HasKeys identity left := by
  obtain ⟨hc, hv⟩ := mergeIdentity_eq_some.mp h
  refine ⟨fun c hl => ?_, fun v hl => ?_⟩
  · rw [hc, hl, some_or]
  · rw [hv, hl, some_or]

theorem hasKeys_right (hmer : ensureIdentityMerge left right = .ok ()) :
    HasKeys identity right := by
  obtain ⟨hc, hv⟩ := mergeIdentity_eq_some.mp h
  obtain ⟨hcl, hven⟩ := ensureIdentityMerge_eq_ok.mp hmer
  refine ⟨fun c hr => ?_, fun v hr => ?_⟩
  · cases hl : left.clientOrderKey with
    | none => rw [hc, hl, hr, none_or]
    | some a => rw [hc, hl, some_or, hcl a c hl hr]
  · cases hl : left.venueOrderKey with
    | none => rw [hv, hl, hr, none_or]
    | some a => rw [hv, hl, some_or, hven a v hl hr]

/-- What shares a key with a merged identity shares it with one of its parts. -/
theorem overlap_of_merged {other : PmOrderIdentity}
    (hover : identitiesOverlap other identity = true) :
    identitiesOverlap other left = true ∨ identitiesOverlap other right = true := by
  obtain ⟨hc, hv⟩ := mergeIdentity_eq_some.mp h
  rcases identitiesOverlap_iff.mp hover with ⟨c, ho, hi⟩ | ⟨v, ho, hi⟩
  · rcases or_eq_some_iff.mp (hc.symm.trans hi) with hl | ⟨-, hr⟩
    · exact .inl (identitiesOverlap_iff.mpr (.inl ⟨c, ho, hl⟩))
    · exact .inr (identitiesOverlap_iff.mpr (.inl ⟨c, ho, hr⟩))
  · rcases or_eq_some_iff.mp (hv.symm.trans hi) with hl | ⟨-, hr⟩
    · exact .inl (identitiesOverlap_iff.mpr (.inr ⟨v, ho, hl⟩))
    · exact .inr (identitiesOverlap_iff.mpr (.inr ⟨v, ho, hr⟩))

end

/-! ### Merging -/

variable {left right merged : OrderEntry}

/-- When two orders can be coalesced, and into what. -/
theorem mergeEntries_eq_ok : mergeEntries left right = .ok merged ↔
      ∃ identity terms reservation, left.instrument = right.instrument ∧
        ensureIdentityMerge left.identity right.identity = .ok () ∧
        mergeTerms left.registeredTerms right.registeredTerms = .ok terms ∧
        mergeLifecycle left right = .ok () ∧ mergeReservation left right = .ok reservation ∧
        mergeIdentity left.identity right.identity = some identity ∧
        mergedEntry left right identity terms reservation = merged := by
  unfold mergeEntries
  split_ifs with hins
  · refine ⟨nofun, ?_⟩
    rintro ⟨_, _, _, heq, -⟩
    exact absurd heq hins
  · simp only [Outcome.bind_eq_ok, ofExcept_eq_ok, expect_eq_ok, Outcome.pure_eq_ok, ok.injEq]
    constructor
    · rintro ⟨⟨⟩, hkeys, terms, hter, ⟨⟩, hlife, reservation, hres, identity, hid, rfl⟩
      exact ⟨identity, terms, reservation, not_not.mp hins, hkeys, hter, hlife, hres, hid, rfl⟩
    · rintro ⟨identity, terms, reservation, -, hkeys, hter, hlife, hres, hid, rfl⟩
      exact ⟨(), hkeys, terms, hter, (), hlife, reservation, hres, identity, hid, rfl⟩

/-- The coalesced order has the merged identity. -/
theorem mergeIdentity_of_merged (h : mergeEntries left right = .ok merged) :
    mergeIdentity left.identity right.identity = some merged.identity := by
  obtain ⟨identity, _, _, -, -, -, -, -, hid, rfl⟩ := mergeEntries_eq_ok.mp h
  exact hid

theorem selectEntry_cases (left right : OrderEntry) :
    selectEntry left right = left ∨ selectEntry left right = right := by
  unfold selectEntry
  split
  · exact .inr rfl
  · exact .inl rfl
  · split_ifs
    · exact .inr rfl
    · exact .inl rfl

theorem mergeEntryOwnership_eq_owned {left right : OwnershipState} :
    mergeEntryOwnership left right = .provenOwned ↔ left = .provenOwned ∨ right = .provenOwned := by
  cases left <;> cases right <;> simp [mergeEntryOwnership]

/-- The coalesced order has the terms of whichever was registered. -/
theorem mergeTerms_cases {left right terms : Option RegisteredTerms}
    (h : mergeTerms left right = .ok terms) :
    (terms = left ∧ (right = none ∨ right = left)) ∨ (left = none ∧ terms = right) := by
  unfold mergeTerms at h
  split at h
  · split_ifs at h with hne
    cases h
    exact .inl ⟨rfl, .inr (congrArg some (not_not.mp hne).symm)⟩
  · cases h
    exact .inl ⟨rfl, .inl rfl⟩
  · cases h
    exact .inr ⟨rfl, rfl⟩
  · cases h
    exact .inl ⟨rfl, .inl rfl⟩

variable {left right : OrderEntry}

/-- The reservation of an owned order survives coalescing. -/
theorem mergeReservation_owned {reservation : Option PmReservationKnowledge}
    (h : mergeReservation left right = .ok reservation)
    (hown : left.ownership = .provenOwned ∨ right.ownership = .provenOwned) :
    (left.ownership = .provenOwned → reservation = left.reservation) ∧
      (right.ownership = .provenOwned → reservation = right.reservation) := by
  rw [mergeReservation, if_pos (mergeEntryOwnership_eq_owned.mpr hown), mergeOwnedReservation] at h
  split_ifs at h with hl hboth hr
  · cases h
    refine ⟨fun _ => rfl, fun hr => ?_⟩
    exact not_not.mp fun hne => hboth ⟨hr, hne⟩
  · cases h
    exact ⟨fun hl' => absurd hl' hl, fun _ => rfl⟩

theorem mergeReservation_ne_panic (left right : OrderEntry) :
    mergeReservation left right ≠ .panic := by
  unfold mergeReservation mergeOwnedReservation
  split_ifs with hown hl hboth hr heq
  · exact nofun
  · exact nofun
  · exact nofun
  · exact absurd (mergeEntryOwnership_eq_owned.mp hown) (not_or.mpr ⟨hl, hr⟩)
  · exact nofun
  · exact nofun

/-- Coalescing orders of one account never aborts. -/
theorem mergeEntries_ne_panic
    (hacc : left.identity.account = right.identity.account) : mergeEntries left right ≠ .panic := by
  obtain ⟨identity, hide, -⟩ := mergeIdentity_of_account hacc
  unfold mergeEntries
  split_ifs
  · exact nofun
  · rw [hide]
    simp [bind_eq_panic, mergeReservation_ne_panic]

/-! ### Valid orders -/

/-- What holds of every stored order. -/
structure Valid (config : PmPrivateStateConfig) (e : OrderEntry) : Prop where
  account : e.identity.account = config.account
  instrument : e.instrument = config.instrument
  /-- The keys of the last event are keys of the order. -/
  event_keys : ∀ event ∈ e.event, HasKeys e.identity event.order
  /-- Exactly the owned orders have registered terms. -/
  terms : e.ownership = .provenOwned ↔ e.registeredTerms.isSome = true
  owned_client : e.ownership = .provenOwned → e.identity.clientOrderKey ≠ none
  /-- What is not owned was reported by the venue. -/
  reported : e.ownership ≠ .provenOwned → e.event ≠ none
  /-- An owned order's reservation is known, and enough for all of it. -/
  reservation : ∀ terms ∈ e.registeredTerms, ∀ knowledge ∈ e.reservation,
    ∃ r, knowledge = .known r ∧ Covers r terms.side terms.price terms.quantity.protocolUnits
  /-- The venue is only asked about orders whose venue key is known. -/
  absent_venue : e.terminalByDetailAbsence = true → e.identity.venueOrderKey ≠ none

namespace Valid

variable {config : PmPrivateStateConfig}

theorem registered {registration : PmOwnedOrderRegistration}
    (h : validateRegistration registration config = .ok ()) :
    Valid config (.registered registration) := by
  unfold validateRegistration at h
  split_ifs at h with hsc
  rw [not_or, not_not, not_not] at hsc
  exact {
    account := hsc.1
    instrument := hsc.2
    event_keys := by rintro _ ⟨⟩
    terms := ⟨fun _ => rfl, fun _ => rfl⟩
    owned_client := nofun
    reported := fun hne => absurd rfl hne
    reservation := by
      rintro _ ⟨⟩ _ ⟨⟩
      exact ⟨registration.reservation, rfl, validateRequirement_covers registration.covered⟩
    absent_venue := nofun }

variable {occurrence : PmPrivateOccurrence} {e : OrderEntry} {event : PmOrderEvent}
  {reservation : PmReservationKnowledge} {knowledge : PmRemoteOrderKnowledge}

theorem remote {ownership : OwnershipState} (hacc : event.account = config.account)
    (hins : event.instrument = config.instrument) (hnot : ownership ≠ .provenOwned) :
    Valid config (.remote event ownership reservation occurrence) where
  account := hacc
  instrument := hins
  event_keys := by
    rintro _ ⟨⟩
    exact ⟨fun _ h => h, fun _ h => h⟩
  terms := ⟨fun h => absurd h hnot, nofun⟩
  owned_client := fun h => absurd h hnot
  reported := fun _ => nofun
  reservation := nofun
  absent_venue := nofun

/-- An order that the venue says it does not know stays valid. -/
theorem absent (h : Valid config e) (hven : e.identity.venueOrderKey ≠ none) :
    Valid config (e.absent occurrence) :=
  { h with
    reservation := nofun
    absent_venue := fun _ => hven }

/-- Only the missing mark changes. -/
theorem mark (h : Valid config e) (missing : Bool) :
    Valid config { e with missingFromCompleteOpenSnapshot := missing } :=
  { h with }

/-- An order whose keys grow stays valid. -/
theorem bind (h : Valid config e) (hkeys : HasKeys identity e.identity)
    (hacc : identity.account = config.account) : Valid config { e with identity := identity } where
  account := hacc
  instrument := h.instrument
  event_keys := fun event he => hkeys.trans (h.event_keys event he)
  terms := h.terms
  owned_client := by
    intro hown hnone
    cases hc : e.identity.clientOrderKey with
    | none => exact h.owned_client hown hc
    | some c =>
      cases hnone.symm.trans (hkeys.client c hc)
  reported := h.reported
  reservation := h.reservation
  absent_venue := by
    intro htba hnone
    cases hv : e.identity.venueOrderKey with
    | none => exact h.absent_venue htba hv
    | some v =>
      cases hnone.symm.trans (hkeys.venue v hv)

theorem mergeRemoteOwnership_eq_owned {current : OwnershipState} :
    mergeRemoteOwnership current knowledge = .provenOwned ↔ current = .provenOwned := by
  cases current <;> cases knowledge <;> simp [mergeRemoteOwnership]

/-- An order to which an event is applied stays valid. -/
theorem update {prior : OrderEntry} (h : Valid config prior)
    (hpr : HasKeys identity prior.identity) (hev : HasKeys identity event.order)
    (hacc : identity.account = config.account) :
    Valid config (prior.updated identity event occurrence knowledge reservation) where
  account := hacc
  instrument := h.instrument
  event_keys := by
    rintro _ ⟨⟩
    exact hev
  terms := mergeRemoteOwnership_eq_owned.trans h.terms
  owned_client := fun hown =>
    (h.bind hpr hacc).owned_client (mergeRemoteOwnership_eq_owned.mp hown)
  reported := fun _ => nofun
  reservation := by
    intro terms hter known hkn
    have hown : prior.ownership = .provenOwned := h.terms.mpr (isSome_iff_exists.mpr ⟨terms, hter⟩)
    have hkept : known ∈ prior.reservation := by
      have hres : prior.updatedReservation event reservation = some known := hkn
      rw [OrderEntry.updatedReservation, if_neg (not_not.mpr hown)] at hres
      split_ifs at hres
      exact hres
    exact h.reservation terms hter known hkept
  absent_venue := nofun

/-- A coalesced order is valid. -/
theorem merge (hl : Valid config left) (hr : Valid config right)
    (hm : mergeEntries left right = .ok merged) : Valid config merged := by
  obtain ⟨identity, terms, reservation, -, hkeys, hter, -, hres, hid, rfl⟩ :=
    mergeEntries_eq_ok.mp hm
  have hleft := hasKeys_left hid
  have hright := hasKeys_right hid hkeys
  obtain ⟨joint, hjoi, hacc⟩ := mergeIdentity_of_account (hl.account.trans hr.account.symm)
  cases hid.symm.trans hjoi
  have hsel : Valid config { selectEntry left right with identity := identity } := by
    rcases selectEntry_cases left right with h | h
    · rw [h]
      exact hl.bind hleft (hacc.trans hl.account)
    · rw [h]
      exact hr.bind hright (hacc.trans hl.account)
  have hown : mergeEntryOwnership left.ownership right.ownership = .provenOwned ↔
      terms.isSome = true := by
    rw [mergeEntryOwnership_eq_owned, hl.terms, hr.terms]
    rcases mergeTerms_cases hter with ⟨rfl, hnone | heq⟩ | ⟨hnone, rfl⟩
    · rw [hnone]; simp
    · rw [heq]; simp
    · rw [hnone]; simp
  exact {
    account := hacc.trans hl.account
    instrument := hl.instrument
    event_keys := hsel.event_keys
    terms := hown
    owned_client := by
      intro h
      rcases mergeEntryOwnership_eq_owned.mp h with h | h
      · exact (hl.bind hleft (hacc.trans hl.account)).owned_client h
      · exact (hr.bind hright (hacc.trans hl.account)).owned_client h
    reported := by
      intro h
      rw [Ne, mergedEntry, mergeEntryOwnership_eq_owned, not_or] at h
      rcases selectEntry_cases left right with hs | hs
      · exact hsel.reported (by rw [hs]; exact h.1)
      · exact hsel.reported (by rw [hs]; exact h.2)
    reservation := by
      intro t ht known hkn
      have hsome : terms.isSome = true := isSome_iff_exists.mpr ⟨t, ht⟩
      have hpar := mergeReservation_owned hres (mergeEntryOwnership_eq_owned.mp (hown.mpr hsome))
      -- the terms come from an owned part, and so does the reservation
      rcases mergeTerms_cases hter with ⟨rfl, -⟩ | ⟨-, rfl⟩
      · exact hl.reservation t ht known (hpar.1 (hl.terms.mpr hsome) ▸ hkn)
      · exact hr.reservation t ht known (hpar.2 (hr.terms.mpr hsome) ▸ hkn)
    absent_venue := hsel.absent_venue }

end Valid

end Reap.Order
