import Reap.Order.Snapshot

/-!
# The calls of the order state

The remaining calls are examined, and with them every call meets its `CallSpec`.

## What is proved

* `call_spec` — what a call does, from any sound state.
-/

namespace Reap.Order

open Base Reap.Core Outcome PmOrderState OrderTable PmOrderIdentity List Option

/-! ### Three ways for a call to end -/

theorem Marks.refl (e : OrderEntry) : Marks e e := ⟨e.missingFromCompleteOpenSnapshot, rfl⟩

namespace CallSpec

variable {config : PmPrivateStateConfig} {s t : PmOrderState} {op : Op} {reply : Reply Unit}

/-- Nothing has changed. -/
theorem of_same (h : Sound config s) (hsame : SameStore s t) (hrep : reply ≠ .panic)
    (hnot : ¬ op.Botched config s) : CallSpec config s op reply t where
  no_panic := hrep
  exact := hsame.table ▸ h.exact
  yields := by
    intro e he
    rw [hsame.table] at he
    exact ⟨e, .refl e, .inl he⟩
  atomic := fun _ _ _ => hsame
  botched := fun hbot => absurd hbot hnot

variable {come : OrderEntry} {gone : List OrderEntry}

section

variable (hchg : Changes s t gone come) (hyie : Yields config s op come)

include hchg hyie

theorem yields_of_changes :
    ∀ e ∈ t.entries, ∃ e₀, Marks e₀ e ∧ (e₀ ∈ s.entries ∨ Yields config s op e₀) := by
  intro e he
  rcases (hchg.swaps e).mp he with ⟨hs, -⟩ | hcome
  · exact ⟨e, .refl e, .inl hs⟩
  · rw [mem_singleton.mp hcome]
    exact ⟨come, .refl come, .inr hyie⟩

/-- The call has succeeded, and an order has come. -/
theorem of_changes (hnot : ¬ op.Botched config s) : CallSpec config s op (.ok ()) t where
  no_panic := nofun
  exact := hchg.exact
  yields := yields_of_changes hchg hyie
  atomic := nofun
  botched := fun hbot => absurd hbot hnot

end

/-- The call has coalesced two orders and failed. -/
theorem of_botched {a b merged : OrderEntry} {error : PmOrderStateError}
    (hchg : Changes s t [a, b] merged) (hyie : Yields config s op merged)
    (hbot : op.Botched config s) : CallSpec config s op (.err error) t where
  no_panic := nofun
  exact := hchg.exact
  yields := yields_of_changes hchg hyie
  atomic := fun _ _ hnot => absurd hbot hnot
  botched := by
    refine fun _ => ⟨⟨error, rfl⟩, ?_⟩
    have hlen := hchg.length
    simp only [length_cons, length_nil] at hlen
    omega

end CallSpec

/-! ### States with the same store -/

section

variable {config : PmPrivateStateConfig} {s s' : PmOrderState} {op : Op}
  (htable : s'.toOrderTable = s.toOrderTable)
  (hobs : op.observations config s' = op.observations config s)

include htable hobs

theorem leavesCoalesced_congr : op.leavesCoalesced config s' = op.leavesCoalesced config s := by
  simp [Op.leavesCoalesced, htable, hobs]

theorem botched_congr : op.Botched config s' = op.Botched config s := by
  simp [Op.Botched, leavesCoalesced_congr htable hobs]

theorem Yields.congr {e : OrderEntry} (h : Yields config s' op e) : Yields config s op e := by
  cases h with
  | registered registration hval => exact .registered registration hval
  | remote o ho => exact .remote o (hobs ▸ ho)
  | updated o ho prior hpr happ identity hid =>
    exact .updated o (hobs ▸ ho) prior (htable ▸ hpr) happ identity hid
  | coalesced a b _ hlea hmer =>
    exact .coalesced a b e (leavesCoalesced_congr htable hobs ▸ hlea) hmer
  | bound e he identity hkeys hacc => exact .bound e (htable ▸ he) identity hkeys hacc
  | absent e he hven occurrence => exact .absent e (htable ▸ he) hven occurrence

end

variable {config : PmPrivateStateConfig} {t : PmOrderState} {s s' : PmOrderState}

/-- A call may first change what does not matter. -/
theorem CallSpec.start {op : Op} {reply : Reply Unit} (hsame : SameStore s s')
    (hobs : op.observations config s' = op.observations config s)
    (h : CallSpec config s' op reply t) : CallSpec config s op reply t where
  no_panic := h.no_panic
  exact := h.exact
  yields := by
    intro e he
    obtain ⟨e₀, hmar, hs | hyie⟩ := h.yields e he
    · exact ⟨e₀, hmar, .inl (hsame.table ▸ hs)⟩
    · exact ⟨e₀, hmar, .inr (hyie.congr hsame.table hobs)⟩
  atomic := by
    intro error herr hnot
    rw [← botched_congr hsame.table hobs] at hnot
    exact hsame.trans (h.atomic error herr hnot)
  botched := by
    intro hbot
    rw [← botched_congr hsame.table hobs] at hbot
    rw [← hsame.table]
    exact h.botched hbot

theorem Sound.same (h : Sound config s) (hsame : SameStore s s') : Sound config s' :=
  ⟨hsame.table ▸ h.exact, hsame.table ▸ h.valid⟩

/-! ### Registration -/

/-- The registration passes its check, and the order under its client key is owned, has not been
observed and has its reservation, but other terms. -/
def PmOrderState.AltersTerms (s : PmOrderState) (config : PmPrivateStateConfig)
    (registration : PmOwnedOrderRegistration) : Prop :=
  validateRegistration registration config = .ok () ∧
    ∃ i e, s.find (.ofClient registration.clientOrder) = some (some i) ∧ s.entries[i]? = some e ∧
      e.ownership = .provenOwned ∧ e.event = none ∧
      e.reservation = some (.known registration.reservation) ∧
      e.registeredTerms ≠ (OrderEntry.registered registration).registeredTerms

/-- The two ways to register an order take the same course, unless the registration alters the
terms of an order. -/
theorem registration_cases {s : PmOrderState} (h : s.Exact) (config : PmPrivateStateConfig)
    (registration : PmOwnedOrderRegistration) :
    (s.AltersTerms config registration ∧ s.registerOwned config registration = (.ok (), s) ∧
      s.prepareOwnedRegistration config registration = .err .identityConflict) ∨
    (¬ s.AltersTerms config registration ∧
      ((∃ error t, s.registerOwned config registration = (.err error, t) ∧
        s.prepareOwnedRegistration config registration = .err error ∧ SameStore s t) ∨
      ∃ plan t, s.registerOwned config registration = (.ok (), t) ∧
        s.prepareOwnedRegistration config registration = .ok plan ∧
        s.commitPreflightedOwnedRegistration plan = (.ok (), t) ∧
        (t = s ∨ validateRegistration registration config = .ok () ∧
          Changes s t [] (.registered registration)))) := by
  by_cases halt : s.AltersTerms config registration
  · refine .inl ⟨halt, ?_⟩
    obtain ⟨hval, i, e, hfind, hi, hown, hev, hres, hter⟩ := halt
    simp [registerOwned, prepareOwnedRegistration, hval, hfind, hi, hown, hev, hres, hter]
  refine .inr ⟨halt, ?_⟩
  unfold registerOwned prepareOwnedRegistration
  cases hval : validateRegistration registration config with
  | error error => exact .inl ⟨error, s, rfl, rfl, .refl s⟩
  | ok =>
  rcases h.find_cases (.ofClient registration.clientOrder) with
    ⟨i, e, hfind, hi, -⟩ | ⟨hfind, hnone⟩
  · simp only [hfind, hi]
    by_cases hlate : e.ownership ≠ .provenOwned ∨ e.event.isSome = true
    · exact .inl ⟨_, s, if_pos hlate, if_pos hlate, .refl s⟩
    rw [if_neg hlate, if_neg hlate]
    by_cases hres : e.reservation = some (.known registration.reservation)
    · have hter : e.registeredTerms = (OrderEntry.registered registration).registeredTerms := by
        by_contra hter
        simp only [not_or, not_not, Bool.not_eq_true, isSome_eq_false_iff,
          isNone_iff_eq_none] at hlate
        exact halt ⟨hval, i, e, hfind, hi, hlate.1, hlate.2, hres, hter⟩
      exact .inr ⟨_, s, if_pos hres,
        if_neg (not_or.mpr ⟨not_not.mpr hres, not_not.mpr hter⟩), rfl, .inl rfl⟩
    · exact .inl ⟨_, s, if_neg hres, if_pos (.inl hres), .refl s⟩
  simp only [hfind, PmOrderState.insert]
  by_cases hfull : s.entries.length = maxPmPrivateOrders
  · exact .inl ⟨_, _, if_pos hfull, if_pos hfull, ⟨rfl, rfl, rfl⟩⟩
  have hfree : s.Unshared (OrderEntry.registered registration).identity [] :=
    fun i e _ he => hnone e (mem_of_getElem? he)
  obtain ⟨p, q, t, hp, hq, hpl, ht, hexa, hents⟩ :=
    h.insertAtIndexPositions (lt_of_le_of_ne h.length_le hfull) hfree
  cases q with
  | none => exact hpl.elim
  | some q =>
    have hchg : Changes s (s.setTable t) [] (.registered registration) :=
      ⟨hexa, OrderTable.Exact.swaps_push hents, by simp [setTable, hents], rfl, rfl⟩
    have hcom : s.commitPreflightedOwnedRegistration ⟨.registered registration, .insert p q⟩ =
        (.ok (), (s.setTable t).count fun c => { c with registrations := bump c.registrations }) := by
      simp [commitPreflightedOwnedRegistration, ht, store]
    refine .inr ⟨_, _, ?_, ?_, hcom, .inr ⟨trivial, hchg.then_same ⟨rfl, rfl, rfl⟩⟩⟩
    · simp [if_neg hfull, insertOrdered, hp, hq, ht, store]
    · simp [if_neg hfull, hp, hq, Outcome.pure_eq_ok]

section

variable {config : PmPrivateStateConfig} {s : PmOrderState} (h : Sound config s)

include h

variable {identity : PmOrderIdentity} {a b merged : OrderEntry} {op : Op} {o : Observation}
  {reservation : PmReservationKnowledge}

variable (registration : PmOwnedOrderRegistration)

theorem registerOwned_spec :
    CallSpec config s (.registerOwned registration) (s.registerOwned config registration).1
      (s.registerOwned config registration).2 := by
  rcases registration_cases h.exact config registration with ⟨-, hreg, -⟩ |
    ⟨-, ⟨_, _, hreg, -, hsame⟩ | ⟨_, _, hreg, -, -, rfl | ⟨hval, hchg⟩⟩⟩ <;> rw [hreg]
  · exact .of_same h (.refl s) nofun id
  · exact .of_same h hsame nofun id
  · exact .of_same h (.refl _) nofun id
  · exact .of_changes hchg (.registered registration hval) id

theorem prepareAndCommit_spec :
    CallSpec config s (.prepareAndCommit registration) (s.prepareAndCommit config registration).1
      (s.prepareAndCommit config registration).2 := by
  unfold prepareAndCommit
  rcases registration_cases h.exact config registration with ⟨-, -, hpre⟩ |
    ⟨-, ⟨_, _, -, hpre, -⟩ | ⟨_, _, -, hpre, hcom, rfl | ⟨hval, hchg⟩⟩⟩
  · rw [hpre]
    exact .of_same h (.refl s) nofun id
  · rw [hpre]
    exact .of_same h (.refl s) nofun id
  · simp only [hpre, hcom]
    exact .of_same h (.refl _) nofun id
  · simp only [hpre, hcom]
    exact .of_changes hchg (.registered registration hval) id

/-! ### Compaction -/

theorem compactProvenOwned_spec (client : PmClientOrderKey) :
    CallSpec config s (.compactProvenOwned client) (s.compactProvenOwned client).1
      (s.compactProvenOwned client).2 := by
  have hnot : ¬ (Op.compactProvenOwned client).Botched config s := fun hbot => hbot
  unfold compactProvenOwned
  rcases h.exact.find_cases (.ofClient client) with ⟨i, e, hfind, hi, -⟩ | ⟨hfind, -⟩
  · simp only [hfind, hi]
    split_ifs
    · exact .of_same h (.refl s) nofun hnot
    · obtain ⟨t, ht, hexa, hents⟩ := h.exact.removeDense hi
      rw [ht]
      exact {
        no_panic := nofun
        exact := hexa
        yields := fun e he =>
          ⟨e, .refl e, .inl (((h.exact.swaps_remove hi hents e).mp he).resolve_right not_mem_nil).1⟩
        atomic := nofun
        botched := fun hbot => absurd hbot hnot }
  · simp only [hfind]
    exact .of_same h (.refl s) nofun hnot

/-! ### Binding -/

/-- An identity that bridges two orders has its keys in the order that they make. -/
theorem hasKeys_merged (htch : s.touched identity = [a, b]) (hm : mergeEntries a b = .ok merged) :
    HasKeys merged.identity identity := by
  obtain ⟨⟨-, ha⟩, -, hb⟩ := pair_of_touched h htch
  have hdis := not_overlap_of_touched h htch
  have hid := mergeIdentity_of_merged hm
  obtain ⟨-, -, -, -, hkeys, -⟩ := mergeEntries_eq_ok.mp hm
  have hleft := hasKeys_left hid
  have hright := hasKeys_right hid hkeys
  -- one of the two has the client key and the other the venue key
  have hapa : ∀ {e f : OrderEntry} {c v}, identity.clientOrderKey = some c →
      identity.venueOrderKey = some v → e.identity.clientOrderKey = some c →
      f.identity.venueOrderKey = some v → HasKeys merged.identity e.identity →
      HasKeys merged.identity f.identity → HasKeys merged.identity identity := by
    intro e f c v hc hv hec hfv he hf
    refine ⟨fun k hk => ?_, fun k hk => ?_⟩
    · cases hc.symm.trans hk
      exact he.client c hec
    · cases hv.symm.trans hk
      exact hf.venue v hfv
  rcases identitiesOverlap_iff.mp ha with ⟨c, hac, hc⟩ | ⟨v, hav, hv⟩ <;>
    rcases identitiesOverlap_iff.mp hb with ⟨c', hbc, hc'⟩ | ⟨v', hbv, hv'⟩
  · cases hc.symm.trans hc'
    cases hdis.symm.trans (identitiesOverlap_iff.mpr (.inl ⟨c, hac, hbc⟩))
  · exact hapa hc hv' hac hbv hleft hright
  · exact hapa hc' hv hbc hav hright hleft
  · cases hv.symm.trans hv'
    cases hdis.symm.trans (identitiesOverlap_iff.mpr (.inr ⟨v, hav, hbv⟩))

omit h in
/-- What has the keys already is not changed by a binding. -/
theorem bind_of_hasKeys {whole part : PmOrderIdentity} (hkeys : HasKeys whole part) :
    ensureIdentityMerge whole part = .ok () ∧ mergeIdentity whole part = some whole := by
  refine ⟨ensureIdentityMerge_eq_ok.mpr ⟨fun a b ha hb => ?_, fun a b ha hb => ?_⟩,
    mergeIdentity_eq_some.mpr ⟨?_, ?_⟩⟩
  · exact some.inj (ha.symm.trans (hkeys.client b hb))
  · exact some.inj (ha.symm.trans (hkeys.venue b hb))
  · cases hp : part.clientOrderKey with
    | none => rw [or_none]
    | some c => rw [hkeys.client c hp, some_or]
  · cases hp : part.venueOrderKey with
    | none => rw [or_none]
    | some v => rw [hkeys.venue v hp, some_or]

omit h in
theorem isProvenOwned_iff {e : OrderEntry} (hval : Valid config e) :
    isProvenOwned e = true ↔ e.ownership = .provenOwned := by
  rw [isProvenOwned, Bool.and_eq_true, beq_iff_eq]
  exact ⟨And.left, fun hown => ⟨hown, hval.terms.mp hown⟩⟩

omit h in
theorem mergeable_iff : mergeable a b = true ↔ ∃ merged, mergeEntries a b = .ok merged := by
  unfold mergeable
  cases mergeEntries a b <;> simp

omit h in
theorem bridged_of_two (htch : s.touched identity = [a, b]) (hm : mergeEntries a b = .ok merged) :
    s.bridged identity = some (a, b) := by
  simp [bridged, htch, if_pos (mergeable_iff.mpr ⟨merged, hm⟩)]

omit h in
theorem bridged_eq_some {p : OrderEntry × OrderEntry} (hp : s.bridged identity = some p) :
    s.touched identity = [p.1, p.2] ∧ ∃ merged, mergeEntries p.1 p.2 = .ok merged := by
  unfold bridged at hp
  split at hp
  · next a b htch =>
    split_ifs at hp with hm
    cases hp
    exact ⟨htch, mergeable_iff.mp hm⟩
  · cases hp

/-- A binding of the one order that has one of the keys. -/
theorem bindFound_one {client : PmClientOrderKey} {venue : PmVenueOrderKey} {e : OrderEntry}
    (hacc : identity.account = config.account) (htch : s.touched identity = [e])
    (hnot : ¬ (Op.bindOwnedVenue client venue).Botched config s) :
    CallSpec config s (.bindOwnedVenue client venue) (s.bindFound identity).1
      (s.bindFound identity).2 := by
  have he := mem_of_touched h htch (.head _)
  have hval := h.valid e he.1
  unfold bindFound
  rcases h.exact.find_cases identity with ⟨i, e', hfind, hi, hover⟩ | ⟨hfind, -⟩
  · have hmem := h.exact.mem_touched.mpr ⟨mem_of_getElem? hi, hover⟩
    rw [htch] at hmem
    cases mem_singleton.mp hmem
    simp only [hfind, hi]
    split_ifs
    · exact .of_same h (.refl s) (by rintro ⟨⟩) hnot
    cases hchk : ensureIdentityMerge e.identity identity with
    | error => exact .of_same h (.refl s) (by rintro ⟨⟩) hnot
    | ok =>
      obtain ⟨joint, hjoi, hjac⟩ := mergeIdentity_of_account (hval.account.trans hacc.symm)
      obtain ⟨t, ht, hchg⟩ := replace_spec h.exact { e with identity := joint } hi
        (unshared_merged h.exact hi (by simp [htch]) hjoi)
      simp only [hjoi, ht, store]
      exact .of_changes hchg (.bound e he.1 joint (hasKeys_left hjoi)
        (hjac.trans hval.account)) hnot
  · simp only [hfind]
    exact .of_same h (.refl s) (by rintro ⟨⟩) hnot

/-- A binding that bridges two orders coalesces them, and then fails if neither is owned. -/
theorem bindFound_two (htch : s.touched identity = [a, b]) (hm : mergeEntries a b = .ok merged)
    (hchg : Changes s t [a, b] merged) : ∃ u, Changes s u [a, b] merged ∧
      ((merged.ownership = .provenOwned ∧ t.bindFound identity = (.ok (), u)) ∨
        (merged.ownership ≠ .provenOwned ∧
          t.bindFound identity = (.err .ownershipRegisteredTooLate, u))) := by
  obtain ⟨⟨k, hfind, hk⟩, honly, hnew⟩ := find_coalesced h htch hm hchg
  have hval := valid_merged h htch hm
  obtain ⟨hchk, hjoi⟩ := bind_of_hasKeys (hasKeys_merged h htch hm)
  unfold bindFound
  simp only [hfind, hk]
  by_cases hown : merged.ownership = .provenOwned
  · rw [if_neg (by rw [(isProvenOwned_iff hval).mpr hown]; exact Bool.noConfusion)]
    obtain ⟨u, hu, hstep⟩ := replace_spec hchg.exact { merged with identity := merged.identity }
      hk (unshared_merged hchg.exact hk honly hjoi)
    refine ⟨t.setTable u, hchg.replace hnew hstep, .inl ⟨hown, ?_⟩⟩
    simp [hchk, hjoi, hu, store]
  · have hfalse : isProvenOwned merged = false :=
      Bool.eq_false_iff.mpr fun hpro => hown ((isProvenOwned_iff hval).mp hpro)
    rw [if_pos hfalse]
    exact ⟨t, hchg, .inr ⟨hown, rfl⟩⟩

theorem bindOwnedVenue_spec (client : PmClientOrderKey) (venue : PmVenueOrderKey) :
    CallSpec config s (.bindOwnedVenue client venue) (s.bindOwnedVenue config client venue).1
      (s.bindOwnedVenue config client venue).2 := by
  unfold bindOwnedVenue
  by_cases hsc : client.account = config.account ∧ venue.account = config.account
  · have hsame : SameAccount (some client) (some venue) := by
      rintro _ ⟨⟩ _ ⟨⟩
      exact hsc.1.trans hsc.2.symm
    obtain ⟨identity, hid⟩ : ∃ identity, new (some client) (some venue) = .ok identity :=
      ⟨⟨some client, some venue, by simp, hsame⟩, new_eq_ok_iff.mpr ⟨rfl, rfl⟩⟩
    have hacc : identity.account = config.account :=
      (account_of_client (new_eq_ok_iff.mp hid).1).trans hsc.1
    have hlea : (Op.bindOwnedVenue client venue).leavesCoalesced config s = s.bridged identity := by
      simp [Op.leavesCoalesced, if_pos hsc, hid]
    have hnot : s.bridged identity = none → ¬ (Op.bindOwnedVenue client venue).Botched config s := by
      rintro hnone ⟨p, hp, -⟩
      rw [hlea, hnone] at hp
      cases hp
    rw [if_neg (by rw [not_or, not_not, not_not]; exact hsc)]
    simp only [hid]
    rcases h.exact.overlaps_cases identity with
      ⟨hover, htch⟩ | ⟨i, e, hover, hi, htch⟩ | ⟨i, j, a, b, hover, hij, hi, hj, htch⟩
    · simp only [hover]
      exact .of_same h (.refl s) (by rintro ⟨⟩) (hnot (by simp [bridged, htch]))
    · simp only [hover]
      exact bindFound_one h hacc htch (hnot (by simp [bridged, htch]))
    · simp only [hover]
      cases hm : mergeEntries a b with
      | panic => exact absurd hm (merge_ne_panic h htch)
      | err error =>
        have hmer : s.mergedAt i j = .err error := by
          simp [mergedAt, hi, hj, expect_some, ok_bind, hm]
        have hunm : mergeable a b = false := by simp [mergeable, hm]
        simp only [coalesce, coalesceEntries, hmer]
        refine .of_same h ⟨rfl, rfl, rfl⟩ (by rintro ⟨⟩) (hnot ?_)
        simp [bridged, htch, hunm]
      | ok merged =>
        have hleft := hlea.trans (bridged_of_two htch hm)
        have hown : merged.ownership = .provenOwned ↔
            a.ownership = .provenOwned ∨ b.ownership = .provenOwned := by
          obtain ⟨_, _, _, -, -, -, -, -, -, rfl⟩ := mergeEntries_eq_ok.mp hm
          exact mergeEntryOwnership_eq_owned
        obtain ⟨t, ht, hchg⟩ := coalesce_spec h hi hj hij hm fun t => t.bindFound identity
        obtain ⟨u, hu, ⟨hpro, hrep⟩ | ⟨hpro, hrep⟩⟩ := bindFound_two h htch hm hchg
        · rw [ht, hrep]
          refine .of_changes hu (.coalesced a b merged hleft hm) ?_
          rintro ⟨p, hp, hna, hnb⟩
          cases hleft.symm.trans hp
          exact (hown.mp hpro).elim hna hnb
        · rw [ht, hrep]
          rw [Ne, hown, not_or] at hpro
          exact .of_botched hu (.coalesced a b merged hleft hm) ⟨(a, b), hleft, hpro⟩
  · rw [if_pos (by rw [← not_and_or]; exact hsc)]
    refine .of_same h (.refl s) (by rintro ⟨⟩) ?_
    rintro ⟨p, hp, -⟩
    simp only [Op.leavesCoalesced, if_neg hsc] at hp
    cases hp

/-! ### Observations -/

omit h in
/-- What an observation leaves is what its call leaves. -/
theorem Lands.yields {come : OrderEntry} (ho : o ∈ op.observations config s)
    (hlan : Lands s o come) : Yields config s op come := by
  cases hlan with
  | fresh => exact .remote o ho
  | update prior hpr happ identity hid => exact .updated o ho prior hpr happ identity hid

variable {event : PmOrderEvent}

omit h in
theorem validateRemoteKnowledge_unmanaged {known : PmReservationKnowledge}
    (hkno : validateRemoteKnowledge event (.unmanaged reservation) = .ok known) :
    reservation = known ∧ validateReservation event reservation = .ok () := by
  simp only [validateRemoteKnowledge] at hkno
  split at hkno
  · cases hkno
  next hres =>
  cases hkno
  exact ⟨rfl, hres⟩

omit h in
theorem checked_observe {source : PmProductSource}
    (occurrence : PmPrivateOccurrence) {knowledge : PmRemoteOrderKnowledge}
    (hev : validateEvent event source config = .ok ())
    (hkno : validateRemoteKnowledge event knowledge = .ok reservation) :
    (Observation.mk event occurrence knowledge reservation).Checked config where
  account := (scope_of_validateEvent hev).1
  instrument := (scope_of_validateEvent hev).2
  covered := by
    rintro r rfl hlive
    cases knowledge with
    | ambiguous => cases hkno
    | unmanaged =>
      obtain ⟨rfl, hres⟩ := validateRemoteKnowledge_unmanaged hkno
      exact covers_of_validateReservation hres hlive

/-- A call that makes one observation. What it does when it leaves two orders coalesced is
said separately. -/
theorem CallSpec.of_effect (ho : o ∈ op.observations config s)
    {left : OrderEntry → OrderEntry → Reply PmOrderApply → Prop} {reply : Reply PmOrderApply}
    (heff : Effect s o left reply t) (hnot : ¬ op.Botched config s)
    (hleft : ∀ a b merged, s.touched o.event.order = [a, b] → mergeEntries a b = .ok merged →
      left a b reply → Changes s t [a, b] merged →
      CallSpec config s op (Outcome.ended (reply, t)).1 (Outcome.ended (reply, t)).2)
    : CallSpec config s op (Outcome.ended (reply, t)).1 (Outcome.ended (reply, t)).2 := by
  cases heff with
  | same hrep hsame =>
    cases reply with
    | panic => exact absurd rfl hrep
    | ok => exact .of_same h hsame nofun hnot
    | err => exact .of_same h hsame nofun hnot
  | lands _ hlan hchg => exact .of_changes hchg (hlan.yields ho) hnot
  | coalesced a b merged htch hm hcond hchg => exact hleft a b merged htch hm hcond hchg

theorem observe_spec (envelope : EventEnvelope PmOrderEvent) (knowledge : PmRemoteOrderKnowledge) :
    CallSpec config s (.observe envelope knowledge)
      (Outcome.ended (s.observe config envelope knowledge)).1
      (Outcome.ended (s.observe config envelope knowledge)).2 := by
  unfold observe
  cases hev : validateEvent envelope.payload envelope.source config with
  | error => exact .of_same h (.refl s) nofun id
  | ok =>
  cases hkno : validateRemoteKnowledge envelope.payload knowledge with
  | error => exact .of_same h (.refl s) nofun id
  | ok reservation =>
  dsimp only
  generalize hs' : ((s.stamp envelope.monotonicServiceNs).count fun c =>
    { c with observations := bump c.observations }) = s'
  have hsame : SameStore s s' := hs' ▸ ⟨rfl, rfl, rfl⟩
  have hobs : (Op.observe envelope knowledge).observations config s' =
      [⟨envelope.payload, envelope.occurrence, knowledge, reservation⟩] := by
    simp [Op.observations, hev, hkno]
  obtain ⟨reply, t, ht, heff⟩ := applyObservation_spec (h.same hsame)
    (checked_observe envelope.occurrence hev hkno)
  rw [ht]
  refine .start hsame rfl (.of_effect (h.same hsame) (hobs ▸ (.head _)) heff id ?_)
  rintro a b merged htch hm ⟨hsta, answer, rfl⟩ hchg
  refine .of_changes hchg (.coalesced a b merged ?_ hm) id
  simp only [Op.leavesCoalesced, hobs, head?_cons, bind_eq_bind, bind_some, bridged_of_two htch hm]
  exact filter_eq_some_iff.mpr ⟨rfl, hsta⟩

/-! ### Details -/

/-- The order that the venue does not know any more. -/
theorem applyAbsence_spec (detail : PmExactOrderDetail) (epoch : ConnectionEpoch)
    (hnot : ¬ op.Botched config s) : CallSpec config s op (Outcome.ended (s.applyAbsence detail epoch)).1
      (Outcome.ended (s.applyAbsence detail epoch)).2 := by
  unfold applyAbsence
  rcases h.exact.find_cases (.ofVenue detail.requestedOrder) with ⟨i, e, hfind, hi, hover⟩ | ⟨hfind, -⟩
  · have hven : e.identity.venueOrderKey ≠ none := by
      rcases identitiesOverlap_iff.mp hover with ⟨c, -, hc⟩ | ⟨v, hv, -⟩
      · cases hc
      · rw [hv]
        exact nofun
    have he := mem_of_getElem? hi
    simp only [hfind, hi]
    by_cases haft : isBefore ⟨epoch, detail.boundary.requestSequence⟩ e.lastOccurrence = true
    · rw [if_pos haft]
      exact .of_same h (.refl s) nofun hnot
    rw [if_neg haft]
    by_cases hlive : e.isLive = false
    · rw [if_pos hlive]
      exact .of_same h (.refl s) nofun hnot
    have hpos := h.exact.live_pos he (Bool.eq_true_of_not_eq_false hlive)
    rw [if_neg hlive, if_neg (Nat.pos_iff_ne_zero.mp hpos)]
    set absent := e.absent ⟨epoch, detail.boundary.completionSequence⟩
    have hcnt := h.exact.adjustLive_set hi absent
    have hdead : absent.isLive = false := rfl
    rw [Bool.eq_true_of_not_eq_false hlive, hdead, adjustLive,
      if_neg (Nat.pos_iff_ne_zero.mp hpos), some.injEq] at hcnt
    rw [hcnt]
    have hchg : Changes s ((s.setTable ⟨s.entries.set i absent, s.canonicalIndex,
        s.clientIndex, _⟩).count
        fun c => { c with terminalReleases := bump c.terminalReleases }) [e] _ :=
      ⟨h.exact.set_keys absent hi rfl, h.exact.swaps_set hi rfl, congrArg (· + 1) length_set,
        rfl, rfl⟩
    exact .of_changes hchg (.absent e he hven _) hnot
  · simp only [hfind]
    exact .of_same h (.refl s) nofun hnot

/-- A detail that reports an event. It fails after it has coalesced two orders exactly when the
order that they make refuses the event. -/
theorem detailRow_spec {envelope : EventEnvelope PmExactOrderDetail}
    (hobs : (Op.applyDetail envelope reservation).observations config s = [o])
    (hchkd : o.Checked config) (hkno : o.knowledge = .unmanaged o.reservation) :
    CallSpec config s (.applyDetail envelope reservation)
      (Outcome.ended (s.reduceRow o.event o.occurrence o.reservation)).1
      (Outcome.ended (s.reduceRow o.event o.occurrence o.reservation)).2 := by
  have hlea : (Op.applyDetail envelope reservation).leavesCoalesced config s =
      (s.bridged o.event.order).filter fun p => !o.isStale p.1 p.2 && o.isRefused p.1 p.2 := by
    simp [Op.leavesCoalesced, hobs]
  by_cases hbot : (Op.applyDetail envelope reservation).Botched config s
  · obtain ⟨⟨a, b⟩, hab⟩ := ne_none_iff_exists'.mp hbot
    have hfil := filter_eq_some_iff.mp (hlea.symm.trans hab)
    obtain ⟨hfr, href⟩ := Bool.and_eq_true_iff.mp hfil.2
    obtain ⟨htch, merged, hm⟩ := bridged_eq_some hfil.1
    rcases reduceRow_two h hchkd hkno htch hm (by simpa using hfr) with
      ⟨hnot, -⟩ | ⟨-, error, t, ht, hchg⟩
    · cases hnot.symm.trans href
    · rw [ht]
      exact .of_botched hchg (.coalesced a b merged hab hm) hbot
  · obtain ⟨reply, t, ht, heff, -⟩ := reduceRow_spec h hchkd hkno
    rw [ht]
    refine .of_effect h (hobs ▸ (.head _)) heff hbot ?_
    rintro a b merged htch hm ⟨hfr, href, -⟩ -
    refine absurd ?_ hbot
    rw [Op.Botched, hlea, bridged_of_two htch hm]
    simp [hfr, href]

theorem applyDetail_spec (envelope : EventEnvelope PmExactOrderDetail)
    (reservation : PmReservationKnowledge) : CallSpec config s (.applyDetail envelope reservation)
      (Outcome.ended (s.applyDetail config envelope reservation)).1
      (Outcome.ended (s.applyDetail config envelope reservation)).2 := by
  -- without a checked observation there is nothing that the call could leave coalesced
  have hnot : ∀ s', (Op.applyDetail envelope reservation).observations config s' = [] →
      ¬ (Op.applyDetail envelope reservation).Botched config s' := by
    intro s' hnil hbot
    refine hbot ?_
    simp [Op.leavesCoalesced, hnil]
  unfold applyDetail
  cases hdet : validateDetail config envelope with
  | error =>
    refine .of_same h (.refl s) (by rintro ⟨⟩) (hnot s ?_)
    simp only [Op.observations, hdet]
    cases envelope.payload.order <;> rfl
  | ok u =>
  dsimp only
  generalize hs' : s.stamp envelope.monotonicServiceNs = s'
  have hsame : SameStore s s' := hs' ▸ ⟨rfl, rfl, rfl⟩
  have hsou := h.same hsame
  refine .start hsame rfl ?_
  cases hord : envelope.payload.order with
  | none =>
    refine applyAbsence_spec hsou _ _ (hnot s' ?_)
    simp [Op.observations, hord]
  | some event =>
  dsimp only
  cases hkno : validateRemoteKnowledge event (.unmanaged reservation) with
  | error =>
    refine .of_same hsou (.refl s') (by rintro ⟨⟩) (hnot s' ?_)
    simp [Op.observations, hord, hdet, hkno]
  | ok =>
  unfold reduceSnapshotRow
  cases hev : validateEvent event config.source config with
  | error =>
    refine .of_same hsou (.refl s') (by rintro ⟨⟩) (hnot s' ?_)
    simp [Op.observations, hord, hdet, hkno, hev]
  | ok =>
  obtain ⟨rfl, hres⟩ := validateRemoteKnowledge_unmanaged hkno
  simp only [hres]
  have hobs : (Op.applyDetail envelope reservation).observations config s' =
      [.ofRow (requestOccurrence envelope.ordering envelope.payload.boundary) event reservation] := by
    simp [Op.observations, hord, hdet, hkno, hev]
  exact detailRow_spec hsou hobs (checked_ofRow _ hev hres) rfl

/-! ### Every call -/

/-- **The examination of the reducer.** From a sound state, every call meets its
specification. -/
theorem call_spec (op : Op) : CallSpec config s op (call config op s).1 (call config op s).2 := by
  cases op with
  | registerOwned registration => exact registerOwned_spec h registration
  | prepareAndCommit registration => exact prepareAndCommit_spec h registration
  | bindOwnedVenue client venue => exact bindOwnedVenue_spec h client venue
  | observe envelope knowledge => exact observe_spec h envelope knowledge
  | applyOpenSnapshot envelope reservations =>
    obtain ⟨reply, t, ht, hsna⟩ := applyOpenSnapshot_spec h envelope reservations
    simp only [call, ht]
    rcases hsna with ⟨hrep, hsame⟩ | ⟨⟨answer, rfl⟩, hexa, hcome⟩
    · cases reply with
      | panic => exact absurd rfl hrep
      | ok => exact .of_same h hsame nofun id
      | err => exact .of_same h hsame nofun id
    · refine ⟨nofun, hexa, fun e he => ?_, nofun, False.elim⟩
      obtain ⟨e₀, hmar, hs | ⟨o, ho, hlan⟩⟩ := hcome e he
      · exact ⟨e₀, hmar, .inl hs⟩
      · exact ⟨e₀, hmar, .inr (hlan.yields ho)⟩
  | applyDetail envelope reservation => exact applyDetail_spec h envelope reservation
  | compactProvenOwned client => exact compactProvenOwned_spec h client
  | invalidateFreshness => exact .of_same h ⟨rfl, rfl, rfl⟩ nofun id

end

end Reap.Order
