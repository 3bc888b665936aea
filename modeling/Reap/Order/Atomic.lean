import Reap.Order.Invariant

/-!
# Rejected calls

A call that is rejected should leave the orders, the indexes, the live count and the latest
snapshot as they were; only the counters and the freshness stamp may differ. A snapshot keeps
to that because all its rows are examined before the first of them is applied.

Two other calls do not: they coalesce the two orders that an identity bridges before they know
that they will succeed. A binding of two orders neither of which is owned coalesces them and
then finds nothing to bind, and an exact detail coalesces them and then finds that the
coalesced order refuses its event. `Op.Botched` names the two.

## What is proved

* `atomic_iff_not_botched` — **a call of a reachable state is atomic exactly when it is none
  of the two**.
* `registrations_agree_iff` — **the two ways to register an order agree exactly when the
  registration does not alter the terms of an order**. The one does not look at the terms of
  an order that is registered again, the other does.
-/

namespace Reap.Order

open Base Reap.Core OrderSample

/-- If the call is rejected, it leaves the store as it was. -/
def Atomic (config : PmPrivateStateConfig) (s : PmOrderState) (op : Op) : Prop :=
  ∀ error, (call config op s).1 = .err error → SameStore s (call config op s).2

/-- A call that botches removes an order and is rejected. -/
theorem not_atomic_of_botched {config : PmPrivateStateConfig} {s : PmOrderState} {op : Op}
    (h : Sound config s) (hbot : op.Botched config s) : ¬ Atomic config s op := by
  intro hato
  obtain ⟨⟨error, herr⟩, hlen⟩ := (call_spec h op).botched hbot
  have htab := (hato error herr).table
  rw [htab] at hlen
  exact absurd hlen (lt_irrefl _)

namespace OrderSample

/-- The order is registered, and the venue reports an order under its venue key. -/
def apartRun (event : PmOrderEvent) : List Op :=
  [.registerOwned registration, observe 1 Samples.one_ne event]

/-- A report of an order at the other price. -/
def conflictingReport : Op := observe 1 Samples.one_ne (venueReport cheaper (unfilled share))

/-- The venue's answer says that the two are one. -/
def bridgingAnswer (price : PmPrice) : Op :=
  answer (some (report both both_source price (unfilled share)))
    (fun _ h => by cases h; exact ⟨rfl, rfl⟩) (fun _ h => by cases h; rfl)

/-- The registration, at the other price but with the same reservation. -/
def repriced : PmOwnedOrderRegistration :=
  { registration with price := cheaper, covered := by decide +kernel }

end OrderSample

/-- **A call of a reachable state is atomic exactly when it does not coalesce two orders and
then fail.** -/
theorem atomic_iff_not_botched {config : PmPrivateStateConfig} {s : PmOrderState} {op : Op}
    (h : Reach (step config) anyCall .new s) : Atomic config s op ↔ ¬ op.Botched config s := by
  have hsou := sound_of_reach h
  constructor
  · exact fun hato hbot => not_atomic_of_botched hsou hbot hato
  · exact fun hnot error herr => (call_spec hsou op).atomic error herr hnot

/-- A report at another price than the registered one is rejected, and changes nothing. -/
theorem atomic_conflicting_report : ∃ s, Reach (step config) anyCall .new s ∧
      (call config conflictingReport s).1 = .err .observationConflict ∧
      SameStore s (call config conflictingReport s).2 :=
  exists_reach_and [.registerOwned registration, .bindOwnedVenue client venue] (by decide +kernel)
    fun _ hrch hrep => (atomic_iff_not_botched hrch).mpr id _ hrep

/-- An exact detail is rejected because its price is not the registered one, but the two
orders that it bridges have become one. -/
theorem detail_coalesces_and_fails : ∃ s, Reach (step config) anyCall .new s ∧
      ¬ Atomic config s (bridgingAnswer cheaper) := by
  refine exists_reach_imp (P := fun s =>
      (call config (bridgingAnswer cheaper) s).1 = .err .observationConflict ∧
      (call config (bridgingAnswer cheaper) s).2.entries.length < s.entries.length)
    (apartRun (venueReport cheaper (unfilled share))) (by decide +kernel) ?_
  rintro s - ⟨hrep, hlen⟩ hato
  rw [(hato _ hrep).table] at hlen
  exact absurd hlen (lt_irrefl _)

/-! ### Two ways to register an order -/

/-- What the preparation refuses, the registration refuses for the same reason, and a plan that
the preparation returns is committed with the outcome of the registration. -/
def RegistrationsAgree (config : PmPrivateStateConfig) (s : PmOrderState)
    (registration : PmOwnedOrderRegistration) : Prop :=
  match s.prepareOwnedRegistration config registration with
  | .panic => False
  | .err error => (s.registerOwned config registration).1 = .err error
  | .ok plan => (s.registerOwned config registration).1 = .ok () ∧
    s.commitPreflightedOwnedRegistration plan = s.registerOwned config registration

/-- **The two ways to register an order agree exactly when the registration does not alter the
terms of an order.** -/
theorem registrations_agree_iff {config config' : PmPrivateStateConfig} {s : PmOrderState}
    {registration : PmOwnedOrderRegistration} (h : Reach (step config') anyCall .new s) :
    RegistrationsAgree config s registration ↔ ¬ s.AltersTerms config registration := by
  unfold RegistrationsAgree
  rcases registration_cases (sound_of_reach h).exact config registration with
    ⟨halt, hreg, hpre⟩ | ⟨hnot, ⟨error, t, hreg, hpre, -⟩ | ⟨plan, t, hreg, hpre, hcom, -⟩⟩
  · simp [hpre, hreg, halt]
  · simp [hpre, hreg, hnot]
  · simp [hpre, hreg, hcom, hnot]

/-- The two agree when an order is registered again with the same terms. -/
theorem registrations_agree_again : ∃ s, Reach (step config) anyCall .new s ∧
      ((s.registerOwned config registration).1 = .ok () ∧ s.entries.map (·.registeredTerms) =
        [(OrderEntry.registered registration).registeredTerms]) ∧
      RegistrationsAgree config s registration := by
  refine exists_reach_and [.registerOwned registration] (by decide +kernel) fun s hrch hreg => ?_
  refine (registrations_agree_iff hrch).mpr fun ⟨_, _, e, _, he, _, _, _, hter⟩ => hter ?_
  have hmem := List.mem_map_of_mem (f := (·.registeredTerms)) (List.mem_of_getElem? he)
  rw [hreg.2] at hmem
  exact List.mem_singleton.mp hmem

/-- A second registration of an order at another price is accepted, but not prepared. -/
theorem repriced_accepted_unprepared :
    ∃ s, Reach (step config) anyCall .new s ∧ ¬ RegistrationsAgree config s repriced := by
  refine exists_reach_imp (P := fun s => (s.registerOwned config repriced).1 = .ok () ∧
      (s.prepareAndCommit config repriced).1 = .err .identityConflict)
    [.registerOwned registration] (by decide +kernel) ?_
  rintro s - ⟨hreg, hpre⟩ hagr
  unfold RegistrationsAgree at hagr
  unfold PmOrderState.prepareAndCommit at hpre
  split at hagr
  · exact hagr
  · cases hreg.symm.trans hagr
  · next hplan =>
    rw [hplan] at hpre
    cases hpre.symm.trans ((congrArg Prod.fst hagr.2).trans hreg)

end Reap.Order
