import Reap.Core.Samples
import Reap.Order.Calls

/-!
# The order table is exact in every reachable state

Every call keeps the table exact and the orders valid, so both hold in every reachable state.
What a caller can see of that is `Represented`: the two indexes, the uniqueness of the keys,
the live count, the lookups, and that no call aborts.

## What is proved

* `sound_of_reach` — every reachable state is sound.
* `represented_of_reach` — the representation is right in every reachable state.
-/

namespace Reap.Order

open Base Reap.Core List Samples

/-! ### Every reachable state -/

section

variable {config : PmPrivateStateConfig} {s t : PmOrderState} {op : Op}

/-- The observations of a call have been checked. -/
theorem checked_of_mem {o : Observation} (ho : o ∈ op.observations config s) :
    o.Checked config := by
  cases op with
  | observe =>
    simp only [Op.observations] at ho
    split at ho
    · next hev hkno =>
      cases mem_singleton.mp ho
      exact checked_observe _ hev hkno
    · exact absurd ho not_mem_nil
  | applyOpenSnapshot =>
    simp only [Op.observations] at ho
    split at ho
    · next hchk _ _ =>
      obtain ⟨row, hrow, rfl⟩ := mem_map.mp ho
      unfold validateOpenSnapshot at hchk
      dsimp only at hchk
      split_ifs at hchk
      obtain ⟨hev, hres⟩ := validateRows_ok hchk row hrow
      exact checked_ofRow _ hev hres
    · exact absurd ho not_mem_nil
  | applyDetail =>
    simp only [Op.observations] at ho
    split at ho
    · exact absurd ho not_mem_nil
    · split at ho
      · next hkno hev =>
        cases mem_singleton.mp ho
        obtain ⟨rfl, hres⟩ := validateRemoteKnowledge_unmanaged hkno
        exact checked_ofRow _ hev hres
      · exact absurd ho not_mem_nil
  | registerOwned | prepareAndCommit | bindOwnedVenue | compactProvenOwned | invalidateFreshness =>
    exact absurd ho not_mem_nil

/-- The two orders that a call leaves coalesced are stored. -/
theorem touched_of_leavesCoalesced {p : OrderEntry × OrderEntry}
    (hlea : op.leavesCoalesced config s = some p) :
    ∃ identity, s.touched identity = [p.1, p.2] := by
  have hbri : ∃ identity, s.bridged identity = some p := by
    unfold Op.leavesCoalesced at hlea
    split at hlea
    · split_ifs at hlea
      split at hlea
      · exact ⟨_, hlea⟩
      · cases hlea
    · obtain ⟨o, -, hfil⟩ := Option.bind_eq_some_iff.mp hlea
      exact ⟨_, (Option.filter_eq_some_iff.mp hfil).1⟩
    · obtain ⟨o, -, hfil⟩ := Option.bind_eq_some_iff.mp hlea
      exact ⟨_, (Option.filter_eq_some_iff.mp hfil).1⟩
    · cases hlea
  obtain ⟨identity, hide⟩ := hbri
  exact ⟨identity, (bridged_eq_some hide).1⟩

/-- What a call leaves is valid. -/
theorem Yields.valid {e : OrderEntry} (h : Sound config s) (hyie : Yields config s op e) :
    Valid config e := by
  cases hyie with
  | registered _ hval => exact .registered hval
  | remote o ho =>
    have hchkd := checked_of_mem ho
    refine .remote hchkd.account hchkd.instrument ?_
    cases o.knowledge <;> exact nofun
  | updated _ ho prior hpr happ identity hid =>
    exact (Lands.update prior hpr happ identity hid).valid h (checked_of_mem ho)
  | coalesced _ _ _ hlea hmer =>
    obtain ⟨identity, htch⟩ := touched_of_leavesCoalesced hlea
    exact valid_merged h htch hmer
  | bound e he _ hkeys hacc => exact (h.valid e he).bind hkeys hacc
  | absent e he hven => exact (h.valid e he).absent hven

/-- What a step does. -/
theorem step_spec (h : Sound config s) (hstep : step config op s = some t) :
    CallSpec config s op (call config op s).1 t := by
  rw [← (Outcome.next_eq_some.mp hstep).2]
  exact call_spec h op

/-- A call keeps the state sound. -/
theorem sound_of_step (h : Sound config s) (hstep : step config op s = some t) :
    Sound config t := by
  have hspec := step_spec h hstep
  refine ⟨hspec.exact, fun e he => ?_⟩
  obtain ⟨e₀, ⟨missing, rfl⟩, hs | hyie⟩ := hspec.yields e he
  · exact (h.valid e₀ hs).mark missing
  · exact (hyie.valid h).mark missing

variable {ok : PmOrderState → Op → Prop}

/-- **Every reachable state is sound.** -/
theorem sound_of_reach (h : Reach (step config) ok .new s) : Sound config s :=
  h.invariant ⟨.nil, fun _ he => absurd he not_mem_nil⟩ fun _ _ _ hs _ hstep =>
    sound_of_step hs hstep

/-- **The invariant rule for single orders.** A property of orders that does not read the
missing mark holds of every order in every state reached, if it holds of everything that a
guarded call can leave. -/
theorem entries_of_reach {P : OrderEntry → Prop} (h : Reach (step config) ok .new s)
    (hmark : ∀ e e', Marks e e' → P e → P e')
    (hyie : ∀ s op e, Sound config s → (∀ x ∈ s.entries, P x) → ok s op →
      Yields config s op e → P e)
    : ∀ e ∈ s.entries, P e := by
  refine h.invariant_of (P := fun s => ∀ e ∈ s.entries, P e) (fun _ => sound_of_reach)
    (fun _ he => absurd he not_mem_nil) ?_
  intro s op t hsou hP hok hstep e he
  obtain ⟨e₀, hmar, hs | hleft⟩ := (step_spec hsou hstep).yields e he
  · exact hmark e₀ e hmar (hP e₀ hs)
  · exact hmark e₀ e hmar (hyie s op e₀ hsou hP hok hleft)

/-! ### The representation -/

/-- The representation of the order store is right. -/
structure Represented (config : PmPrivateStateConfig) (s : PmOrderState) : Prop where
  /-- The canonical index is a permutation of the slots, in strictly increasing order of the
  keys. -/
  canonical_perm : s.canonicalIndex.Perm (List.range s.entries.length)
  canonical_sorted : s.canonicalIndex.Pairwise
    (KeyLt (keyAt OrderEntry.canonicalKey s.entries))
  /-- The client index lists exactly the slots whose order has a client key, in strictly
  increasing order of the client keys. -/
  client_mem : ∀ i, i ∈ s.clientIndex ↔
    ∃ e client, s.entries[i]? = some e ∧ e.identity.clientOrderKey = some client
  client_sorted : s.clientIndex.Pairwise (KeyLt (keyAt OrderEntry.clientKey s.entries))
  /-- No two orders share a client key or a venue key. -/
  unshared : ∀ (i j : ℕ) (a b : OrderEntry), s.entries[i]? = some a → s.entries[j]? = some b →
    identitiesOverlap a.identity b.identity = true → i = j
  live : s.liveCount = s.entries.countP OrderEntry.isLive
  /-- No call aborts. -/
  runs : ∀ op, ∃ t, step config op s = some t
  /-- The lookups do not abort, and find an order that shares a key, unless there is none. -/
  find : ∀ identity, ∃ found, s.find identity = some found ∧
    (∀ i, found = some i → ∃ e, s.entries[i]? = some e ∧
      identitiesOverlap e.identity identity = true) ∧
    (found = none → ∀ e ∈ s.entries, identitiesOverlap e.identity identity = false)
  /-- The slots that `overlaps` gives are those whose order shares a key. -/
  overlaps : ∀ identity, ∃ overlap, s.overlaps identity = .ok overlap ∧
    ∀ i, i ∈ overlap.slots ↔ ∃ e, s.entries[i]? = some e ∧
      identitiesOverlap e.identity identity = true

/-- `overlaps` gives the slots of the orders that share a key. -/
theorem mem_slots_iff (h : s.Exact) (identity : PmOrderIdentity) :
    ∃ overlap, s.overlaps identity = .ok overlap ∧ ∀ i, i ∈ overlap.slots ↔
      ∃ e, s.entries[i]? = some e ∧ identitiesOverlap e.identity identity = true := by
  -- a slot is listed when its order is touched
  have hslo : ∀ {slots : List ℕ}, (slots.map (s.entries[·]?) = (s.touched identity).map some) →
      ∀ i, i ∈ slots ↔ ∃ e, s.entries[i]? = some e ∧
        identitiesOverlap e.identity identity = true := by
    intro slots heq i
    constructor
    · intro hi
      have hmem : s.entries[i]? ∈ (s.touched identity).map some :=
        heq ▸ mem_map_of_mem (f := (s.entries[·]?)) hi
      obtain ⟨e, he, heq⟩ := mem_map.mp hmem
      exact ⟨e, heq.symm, (h.mem_touched.mp he).2⟩
    · rintro ⟨e, he, hover⟩
      have hmem : some e ∈ slots.map (s.entries[·]?) :=
        heq ▸ mem_map_of_mem (h.mem_touched.mpr ⟨mem_of_getElem? he, hover⟩)
      obtain ⟨j, hj, hje⟩ := mem_map.mp hmem
      rwa [h.slot_unique he hje (identitiesOverlap_self _)]
  rcases h.overlaps_cases identity with
    ⟨hover, htch⟩ | ⟨i, e, hover, hi, htch⟩ | ⟨i, j, a, b, hover, -, hi, hj, htch⟩
  · exact ⟨_, hover, hslo (by rw [htch]; rfl)⟩
  · exact ⟨_, hover, hslo (by rw [htch]; simp [OrderOverlap.slots, hi])⟩
  · exact ⟨_, hover, hslo (by rw [htch]; simp [OrderOverlap.slots, hi, hj])⟩

end

/-! ### A sample account

An order of one account: how it is registered, what the venue reports of it, and the run in
which its client key and its venue key turn out to be those of one order. -/

namespace OrderSample

def accountScope : PmAccountScope := Samples.accountScope

def share : PmQuantity := Samples.share

def source : PmProductSource := .polymarketAccount ⟨0⟩ ⟨0⟩

theorem account_source : validateAccountSource source accountScope.handle = .ok () := rfl

def config : PmPrivateStateConfig where
  source := source
  accountScope := accountScope
  instrument := ⟨⟨0⟩, ⟨0⟩⟩
  tick := tick
  minimumOrderSize := share
  collateralAsset := .collateral Samples.address
  outcomeAsset := .outcome Samples.address Samples.token
  account_source := rfl

def client : PmClientOrderKey := ⟨⟨0⟩, .one⟩

def venue : PmVenueOrderKey := Samples.venue

/-- The identity with both keys. -/
def both : PmOrderIdentity := ⟨some client, some venue, by decide, by decide +kernel⟩

theorem both_source : validateAccountSource source both.account = .ok () := by decide +kernel

def half : PmPrice := Samples.half

/-- Another price than the order is registered with. -/
def cheaper : PmPrice := ⟨400000, by decide, by decide⟩

def reservation : PmExactReservation :=
  ⟨halfUnits, U256.zero, .policyApprovedWorstCase, halfUnits_pos⟩

/-- A buy of one share at half the collateral unit. -/
def registration : PmOwnedOrderRegistration where
  clientOrder := client
  instrument := config.instrument
  side := .buy
  price := half
  quantity := share
  reservation := reservation
  policy := rfl
  covered := by decide +kernel

/-- An order that has no fills yet. -/
def unfilled (quantity : PmQuantity) : PmOrderProgress :=
  ⟨quantity, U256.zero, .open, Nat.zero_le _, rfl⟩

/-- An order for one share that is filled. -/
def filled : PmOrderProgress := ⟨share, share.protocolUnits, .filled, le_refl _, by decide +kernel⟩

/-- What the venue reports of a buy. -/
def report (order : PmOrderIdentity) (h : validateAccountSource config.source order.account = .ok ())
    (price : PmPrice) (progress : PmOrderProgress) : PmOrderEvent :=
  ⟨config.source, config.instrument, order, .buy, price, progress, h⟩

/-- A report of the order under its venue key. -/
def venueReport (price : PmPrice) (progress : PmOrderProgress) : PmOrderEvent :=
  report (.ofVenue venue) (by decide +kernel) price progress

/-- A report that is ingested with a sequence number. -/
def observe (sequence : UInt64) (h : sequence ≠ 0) (event : PmOrderEvent) : Op :=
  .observe ⟨event.source, 1, streamed sequence h, event, one_ne, rfl⟩
    (.unmanaged .unknown)

/-- The venue's answer to a request for the order, of which it may not know any more. -/
def answer (order : Option PmOrderEvent)
    (hscope : ∀ event ∈ order, event.account = ⟨0⟩ ∧ event.source = config.source)
    (hvenue : ∀ event ∈ order, event.order.venueOrderKey = some venue) : Op :=
  .applyDetail ⟨source, 1, Samples.answered 4 Samples.four_ne,
    ⟨source, accountScope, Samples.evidence, ⟨⟨3⟩, ⟨4⟩, Samples.three_ne, by decide +kernel⟩,
      venue, order, account_source, rfl, hscope, hvenue⟩, Samples.one_ne, rfl⟩ .unknown

/-- The order is registered, the venue reports an order under its venue key, and the two turn
out to be one. -/
def bridgedRun (event : PmOrderEvent) : List Op :=
  [.registerOwned registration, observe 1 one_ne event, .bindOwnedVenue client venue]

end OrderSample

/-- In every reachable state the representation is right. -/
theorem represented_of_reach {config : PmPrivateStateConfig} {s : PmOrderState}
    (h : Reach (step config) anyCall .new s) : Represented config s := by
  have hsou := sound_of_reach h
  have hexa := hsou.exact
  exact {
    canonical_perm := hexa.canonical.perm_range fun e => ⟨_, rfl⟩
    canonical_sorted := hexa.canonical.sorted
    client_mem := by
      intro i
      rw [hexa.clients.mem_iff]
      constructor
      · rintro ⟨client, hcl⟩
        obtain ⟨e, he, hc⟩ := keyAt_eq_some.mp hcl
        exact ⟨e, client, he, hc⟩
      · rintro ⟨e, client, he, hc⟩
        exact ⟨client, keyAt_eq_some.mpr ⟨e, he, hc⟩⟩
    client_sorted := hexa.clients.sorted
    unshared := fun _ _ _ _ ha hb hover => hexa.slot_unique ha hb hover
    live := hexa.live
    runs := fun op => ⟨_, Outcome.next_eq_some.mpr ⟨(call_spec hsou op).no_panic, rfl⟩⟩
    find := by
      intro identity
      rcases hexa.find_cases identity with ⟨i, e, hfind, he, hover⟩ | ⟨hfind, hnone⟩
      · refine ⟨some i, hfind, fun j hj => ?_, nofun⟩
        cases hj
        exact ⟨e, he, hover⟩
      · exact ⟨none, hfind, nofun, fun _ => hnone⟩
    overlaps := mem_slots_iff hexa }

/-- The one order that is left of the two. -/
theorem represented_bridged :
    ∃ s, Reach (step OrderSample.config) anyCall .new s ∧ s.entries.length = 1 ∧
      Represented OrderSample.config s :=
  exists_reach_and (OrderSample.bridgedRun (OrderSample.venueReport OrderSample.half
    (OrderSample.unfilled OrderSample.share))) (by decide +kernel)
    fun _ hrch _ => represented_of_reach hrch

end Reap.Order
