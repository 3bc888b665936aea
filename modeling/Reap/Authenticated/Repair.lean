import Reap.Authenticated.Bridging

/-!
# Repair across the journals

After a restart the gate joins the mutation journal with the authenticated one, and the results
without a bridge are appended to the mutation journal. This module says when that repair converges.

The gate compares a result with the venue order and the sequence number of the cancel intent, and
those outlive the cancel: a fill that completes the order takes the cancel back, and the result is
then appended to a journal that refuses it for good. Room for the bridges is room for their
records: the caps on the bytes of a line and of a file are not part of the model.

## What is proved

* `validatePrior_iff`, `seeBridges_iff` — what the gate checks.
* `waiting_of_validate` — the order of every result without a bridge is as the result needs it.
* `repair_converges_iff` — when the repaired journal is accepted, and passes the gate with nothing
  missing.
-/

namespace Reap.Authenticated

open Base Reap.Core Reap.Journal Outcome AuthenticatedSample List

open PmJournalRecovery RecoveredOwnedOrder OrderedMap

/-! ### What the gate checks of an attempt -/

/-- The order has an ordinary result of the kind. -/
def ordinaryRecorded (order : RecoveredOwnedOrder) : PmAuthenticatedUnresolvedOperationKindV1 → Bool
  | .place => order.ordinaryPlaceResultRecorded
  | .cancel => order.ordinaryCancelResultRecorded

/-- The order is the one that the attempt was made for. -/
def PriorMatches (order : RecoveredOwnedOrder) (prior : AttemptPrior) : Prop :=
  match prior.kind with
  | .place => prior.venueOrder = none ∧ order.intentJournalSequence = prior.priorSequence
  | .cancel => ∃ venue, prior.venueOrder = some venue ∧ order.venueOrder = some venue ∧
      order.cancelIntentJournalSequence = some prior.priorSequence

variable {goalF : PmJournalRecovery} {prior : AttemptPrior}

theorem validatePrior_iff : validatePrior goalF prior = .ok () ↔ ∃ order,
      goalF.Holds prior.clientOrder order ∧ order.pendingAckFills.length < 256 ∧
      order.intent.instrument = prior.instrument ∧ ordinaryRecorded order prior.kind = false ∧
      PriorMatches order prior := by
  unfold validatePrior recoveredOrder hasOrdinaryResult Holds
  cases hget : goalF.ownedOrders[prior.clientOrder]? with
  | none => simp [okOr]
  | some order =>
    unfold bootstrapRow PriorMatches
    by_cases hmis : order.pendingAckFills.length < 256
    · cases hkind : prior.kind <;> cases hven : prior.venueOrder <;>
        simp [Outcome.okOr, Outcome.expect, Outcome.bind_eq_ok, ordinaryRecorded, hmis]
    · simp [Outcome.okOr, Outcome.expect, hmis]

variable {order next : RecoveredOwnedOrder}

theorem PriorMatches.keep (h : PriorMatches order prior)
    (hsame : SamePrior order next) : PriorMatches next prior := by
  unfold PriorMatches at h ⊢
  cases hkind : prior.kind <;> rw [hkind] at h
  · exact ⟨h.1, hsame.sequence.trans h.2⟩
  · obtain ⟨venue, hven, hbd, hcan⟩ := h
    exact ⟨venue, hven, hsame.venue venue hbd, hsame.cancel.trans hcan⟩

variable {t : PmJournalRecovery}

/-- What the gate has checked of an attempt still holds after bridges were appended. -/
theorem validatePrior_mono (h : Extends goalF t) (hval : validatePrior goalF prior = .ok ())
    : validatePrior t prior = .ok () := by
  obtain ⟨order, hget, hmis, hins, hord, hmat⟩ := validatePrior_iff.mp hval
  obtain ⟨next, hnext, hsame⟩ := h prior.clientOrder order hget
  refine validatePrior_iff.mpr ⟨next, hnext, lt_of_le_of_lt hsame.missing hmis, ?_, ?_,
    hmat.keep hsame⟩
  · rw [hsame.intent, hins]
  · cases hkind : prior.kind <;> rw [hkind] at hord
    · exact hsame.ordinaryPlace.trans hord
    · exact hsame.ordinaryCancel.trans hord

theorem checkWhen_mono {applies applies' : Bool} {check check' : Gating Unit}
    (happ : applies' = true → applies = true) (hchk : check = .ok () → check' = .ok ())
    (h : checkWhen applies check = .ok ()) : checkWhen applies' check' = .ok () := by
  cases applies' with
  | false => rfl
  | true =>
    rw [happ rfl] at h
    exact hchk h

variable {authenticated : PmAuthenticatedJournalRecovery} {bridged : List UInt64}

/-- The loops over the attempts pass again after bridges were appended. -/
theorem validateAllAttemptPriors_mono {bridged' : List UInt64} (h : Extends goalF t)
    (hbri : bridged ⊆ bridged')
    (hval : validateAllAttemptPriors goalF authenticated bridged = .ok ()) :
    validateAllAttemptPriors t authenticated bridged' = .ok () := by
  obtain ⟨prepared, hpre, hval⟩ := bind_eq_ok.mp hval
  obtain ⟨results, hres, hval⟩ := bind_eq_ok.mp hval
  obtain ⟨unresolved, hunr, hval⟩ := bind_eq_ok.mp hval
  refine bind_eq_ok.mpr ⟨prepared, foldlM_mono ?_ hpre,
    bind_eq_ok.mpr ⟨results, foldlM_mono ?_ hres,
      bind_eq_ok.mpr ⟨unresolved, foldlM_mono ?_ hunr, hval⟩⟩⟩
  · intro attempt _ seen after hstep
    obtain ⟨_, hchkd, hreg⟩ := bind_eq_ok.mp hstep
    exact bind_eq_ok.mpr ⟨(), validatePrior_mono h hchkd, hreg⟩
  · intro result _ seen after hstep
    obtain ⟨_, hchkd, hreg⟩ := bind_eq_ok.mp hstep
    refine bind_eq_ok.mpr ⟨(), checkWhen_mono ?_ (validatePrior_mono h) hchkd, hreg⟩
    simp only [Bool.not_eq_true', decide_eq_false_iff_not]
    exact fun hnot hmem => hnot (hbri hmem)
  · intro operation _ seen after hstep
    obtain ⟨_, hchkd, hreg⟩ := bind_eq_ok.mp hstep
    refine bind_eq_ok.mpr ⟨(), checkWhen_mono ?_ (validatePrior_mono h) hchkd, hreg⟩
    simp only [Bool.not_eq_true', decide_eq_false_iff_not]
    rintro hnot ⟨sequence, hseq, hmem⟩
    exact hnot ⟨sequence, hseq, hbri hmem⟩

variable {result : PmAuthenticatedRecoveredResultV1}

/-- Every result without a bridge was made for the order that the gate has found. -/
theorem validatePrior_of_validateAll
    (h : validateAllAttemptPriors goalF authenticated bridged = .ok ())
    (hmem : result ∈ authenticated.classifiedResults)
    (hmis : result.resultJournalSequence ∉ bridged) :
    validatePrior goalF (.ofOperation result.operation result.priorGoalFSequence) = .ok () := by
  obtain ⟨prepared, -, h⟩ := bind_eq_ok.mp h
  obtain ⟨results, hres, -⟩ := bind_eq_ok.mp h
  obtain ⟨seen, after, hstep⟩ := exists_of_foldlM hres result hmem
  obtain ⟨_, hchkd, -⟩ := bind_eq_ok.mp hstep
  unfold checkWhen at hchkd
  rwa [if_pos (by simpa using hmis)] at hchkd

/-! ### What the gate checks of the bridges -/

namespace PmAuthenticatedRecoveryGate

open PmAuthenticatedJournalRecovery (Classified)

variable {authenticated : PmAuthenticatedJournalRecovery}

theorem resultAt_iff (h : Classified authenticated) {sequence : UInt64} :
    resultAt authenticated sequence = some result ↔
      result ∈ authenticated.classifiedResults ∧ result.resultJournalSequence = sequence := by
  unfold resultAt
  constructor
  · intro hfind
    have hsame := find?_some hfind
    exact ⟨mem_of_find?_eq_some hfind, by simpa using hsame⟩
  · rintro ⟨hmem, rfl⟩
    cases hfind : authenticated.classifiedResults.find?
        (·.resultJournalSequence == result.resultJournalSequence) with
    | none => simpa using find?_eq_none.mp hfind result hmem
    | some found =>
      have hsame := find?_some hfind
      rw [h.unique found (mem_of_find?_eq_some hfind) result hmem (by simpa using hsame)]

/-- The bridge is that of a result. -/
def Matched (authenticated : PmAuthenticatedJournalRecovery)
    (bridge : PmJournalAuthenticatedResultV1) : Prop :=
  ∃ result, resultAt authenticated bridge.authResultSequence = some result ∧
    bridgeMatchesRecovery bridge result = true

/-- **The loop over the bridges** passes exactly if each is that of a result and no sequence number
occurs twice. -/
theorem seeBridges_iff {bridges : List PmJournalAuthenticatedResultV1} {seen : List UInt64} :
    bridges.foldlM (seeBridge authenticated) seen = .ok bridged ↔
      (∀ bridge ∈ bridges, Matched authenticated bridge ∧ bridge.authResultSequence ∉ seen) ∧
      bridges.Pairwise (fun a b => a.authResultSequence ≠ b.authResultSequence) ∧
      bridged = (bridges.map (·.authResultSequence)).reverse ++ seen := by
  induction bridges generalizing seen with
  | nil => simp [foldlM, eq_comm]
  | cons bridge _ ih =>
    have hstep : ∀ next, seeBridge authenticated seen bridge = .ok next ↔
        (Matched authenticated bridge ∧ bridge.authResultSequence ∉ seen) ∧
        next = bridge.authResultSequence :: seen := by
      intro next
      unfold seeBridge Matched
      simp only [Outcome.bind_eq_ok, Outcome.okOr_eq_ok, Outcome.refuse_eq_ok, exists_const,
        Outcome.return_eq_ok, Bool.not_eq_false]
      constructor
      · rintro ⟨result, hres, hmat, hnew, rfl⟩
        exact ⟨⟨⟨result, hres, hmat⟩, hnew⟩, rfl⟩
      · rintro ⟨⟨⟨result, hres, hmat⟩, hnew⟩, rfl⟩
        exact ⟨result, hres, hmat, hnew, rfl⟩
    rw [foldlM_cons, Outcome.bind_eq_ok]
    simp only [hstep, ih, mem_cons, forall_eq_or_imp, pairwise_cons, map_cons,
      reverse_cons, append_assoc, singleton_append]
    constructor
    · rintro ⟨_, ⟨hfst, rfl⟩, hrest, hpair, rfl⟩
      refine ⟨⟨hfst, fun other hmem => ?_⟩, ⟨fun other hmem he => ?_, hpair⟩, rfl⟩
      · exact ⟨(hrest other hmem).1, fun hin => (hrest other hmem).2 (.tail _ hin)⟩
      · exact (hrest other hmem).2 (he ▸ .head _)
    · rintro ⟨⟨hfst, hrest⟩, ⟨hdis, hpair⟩, rfl⟩
      refine ⟨_, ⟨hfst, rfl⟩, fun other hmem => ⟨(hrest other hmem).1, fun hin => ?_⟩, hpair, rfl⟩
      rcases mem_cons.mp hin with he | hin
      · exact hdis other hmem he.symm
      · exact (hrest other hmem).2 hin

/-- **What the gate checks.** -/
theorem validate_iff {gate : PmAuthenticatedRecoveryGate} :
    validate goalF authenticated = .ok gate ↔
      (goalF.scope.accountScope = authenticated.scope.accountScope ∧
        goalF.scope.instrument = authenticated.scope.instrument ∧
        goalF.scope.configurationFingerprint.bytes =
          authenticated.scope.configurationFingerprint.bytes) ∧
      ∃ bridged, goalF.authenticatedResults.valueList.foldlM (seeBridge authenticated) [] =
          .ok bridged ∧ validateAllAttemptPriors goalF authenticated bridged = .ok () ∧
        gate = ⟨authenticated.classifiedResults.filter fun result =>
            decide (result.resultJournalSequence ∉ bridged),
          authenticated.requiresReconciliation || !authenticated.preparedWithoutGrant.isEmpty⟩ := by
  unfold validate
  simp only [Outcome.bind_eq_ok, Outcome.refuse_eq_ok, not_or, not_not, Outcome.return_eq_ok,
    Unique.exists_iff, PUnit.default_eq_unit]

end PmAuthenticatedRecoveryGate

/-! ### Recovery finished -/

section

variable {s t : PmJournalRecovery}

theorem holds_finalize {client : PmClientOrderKey} {order : RecoveredOwnedOrder} :
    s.finalizeIncompleteEffects.Holds client order ↔
      ∃ raw, s.Holds client raw ∧ raw.finalizeEffects = order := by
  rw [← Option.map_eq_some_iff]
  exact Eq.congr_left (getElem?_map_eq s.ownedOrders (fun _ raw => raw.finalizeEffects) client)

/-- What neither the gate nor a bridge tells apart. -/
structure SameMarks (order next : RecoveredOwnedOrder) : Prop extends SamePrior order next where
  venueOrder : next.venueOrder = order.venueOrder
  cancelPending : next.cancelPending = order.cancelPending
  pendingAckFills : next.pendingAckFills = order.pendingAckFills

theorem sameMarks_finalizeEffects (order : RecoveredOwnedOrder) :
    SameMarks order order.finalizeEffects := by
  unfold finalizeEffects
  dsimp only
  split_ifs <;> exact ⟨⟨rfl, rfl, rfl, rfl, rfl, fun _ h => h, le_rfl⟩, rfl, rfl, rfl⟩

theorem SameMarks.symm (h : SameMarks order next) : SamePrior next order where
  intent := h.intent.symm
  sequence := h.sequence.symm
  cancel := h.cancel.symm
  ordinaryPlace := h.ordinaryPlace.symm
  ordinaryCancel := h.ordinaryCancel.symm
  venue := fun _ hmem => h.venueOrder ▸ hmem
  missing := le_of_eq (congrArg length h.pendingAckFills.symm)

theorem Extends.finalize (h : Extends s t) :
    Extends s.finalizeIncompleteEffects t.finalizeIncompleteEffects := by
  intro client order hget
  obtain ⟨raw, hraw, rfl⟩ := holds_finalize.mp hget
  obtain ⟨next, hnext, hsame⟩ := h client raw hraw
  refine ⟨next.finalizeEffects, holds_finalize.mpr ⟨next, hnext, rfl⟩, ?_⟩
  exact ((sameMarks_finalizeEffects raw).symm.trans hsame).trans
    (sameMarks_finalizeEffects next).toSamePrior

theorem absorbs_finalize_iff : Absorbs s.finalizeIncompleteEffects result ↔ Absorbs s result := by
  have hfree : ∀ venue, Free s.finalizeIncompleteEffects venue ↔ Free s venue := by
    intro venue
    unfold Free
    simp only [holds_finalize, forall_exists_index, and_imp]
    constructor
    · intro h client order hget
      rw [← (sameMarks_finalizeEffects order).venueOrder]
      exact h client _ order hget rfl
    · rintro h client _ order hget rfl
      rw [(sameMarks_finalizeEffects order).venueOrder]
      exact h client order hget
  constructor
  · intro h
    refine ⟨fun venue hmem => (hfree venue).mp (h.free venue hmem), fun hkind => ?_⟩
    obtain ⟨order, hget, hpend⟩ := h.waits hkind
    obtain ⟨raw, hraw, rfl⟩ := holds_finalize.mp hget
    exact ⟨raw, hraw, (sameMarks_finalizeEffects raw).cancelPending ▸ hpend⟩
  · intro h
    refine ⟨fun venue hmem => (hfree venue).mpr (h.free venue hmem), fun hkind => ?_⟩
    obtain ⟨raw, hraw, hpend⟩ := h.waits hkind
    exact ⟨raw.finalizeEffects, holds_finalize.mpr ⟨raw, hraw, rfl⟩,
      (sameMarks_finalizeEffects raw).cancelPending.trans hpend⟩

end

/-! ### The results without a bridge -/

/-- The results that the mutation journal has no bridge of. -/
def unbridged (goalF : PmJournalRecovery) (authenticated : PmAuthenticatedJournalRecovery) :
    List PmAuthenticatedRecoveredResultV1 :=
  authenticated.classifiedResults.filter fun result =>
    goalF.authenticatedResults[result.resultJournalSequence]?.isNone

namespace PmAuthenticatedRecoveryGate

open PmAuthenticatedJournalRecovery (Classified)

section

variable {s : PmJournalRecovery} {authenticated : PmAuthenticatedJournalRecovery}
  {gate : PmAuthenticatedRecoveryGate}

theorem mem_bridged (hkey : ∀ (sequence : UInt64) (result : PmJournalAuthenticatedResultV1),
      s.authenticatedResults[sequence]? = some result → result.authResultSequence = sequence)
    (h : s.authenticatedResults.valueList.foldlM (seeBridge authenticated) [] = .ok bridged)
    (sequence : UInt64) :
    sequence ∈ bridged ↔ s.authenticatedResults[sequence]?.isSome = true := by
  obtain ⟨-, -, rfl⟩ := seeBridges_iff.mp h
  rw [append_nil, mem_reverse, mem_map, Option.isSome_iff_exists]
  constructor
  · rintro ⟨bridge, hmem, rfl⟩
    obtain ⟨key, hget⟩ := mem_valueList.mp hmem
    exact ⟨bridge, hkey key bridge hget ▸ hget⟩
  · rintro ⟨bridge, hget⟩
    exact ⟨bridge, mem_valueList.mpr ⟨sequence, hget⟩, hkey sequence bridge hget⟩

variable {result : PmAuthenticatedRecoveredResultV1} {scope : PmJournalScopeV1}
  {records : List PmJournalRecordV1}

/-- The kind, the order and the intent of a bridge are those of its result. -/
theorem place_of_matches {place : PmJournalAuthenticatedPlaceResultV1}
    (h : bridgeMatchesRecovery (.place place) result = true) :
    (∃ coordinator, result.operation = .place coordinator) ∧
      place.priorGoalFSequence = result.priorGoalFSequence ∧
      place.canonical.clientOrder = result.clientOrder := by
  simp only [bridgeMatchesRecovery, Bool.and_eq_true, beq_iff_eq] at h
  obtain ⟨⟨⟨⟨⟨⟨⟨⟨⟨⟨hkind, -⟩, -⟩, -⟩, hpr⟩, hcl⟩, -⟩, -⟩, -⟩, -⟩, -⟩ := h
  refine ⟨?_, hpr, hcl⟩
  cases hop : result.operation with
  | place coordinator => exact ⟨coordinator, rfl⟩
  | cancel =>
    rw [hop] at hkind
    cases hkind

variable {first second : PmAuthenticatedRecoveredResultV1}

theorem coordinator_eq
    (hcl : first.clientOrder = second.clientOrder) (hins : first.instrument = second.instrument) :
    first.operation.coordinator = second.operation.coordinator :=
  congrArg₂ PmAuthenticatedCoordinatorIdentityV1.mk hcl hins

/-- The sequence number of a bridge is that of its result. -/
theorem sequence_of_matches {bridge : PmJournalAuthenticatedResultV1}
    (h : bridgeMatchesRecovery bridge result = true) :
    bridge.authResultSequence = result.resultJournalSequence := by
  cases bridge <;> simp only [bridgeMatchesRecovery, Bool.and_eq_true, beq_iff_eq] at h
  · exact h.1.1.1.1.1.1.1.2
  · exact h.1.1.1.1.1.1.1.1.2

/-- **The order of a result without a bridge** is as the result needs it. -/
theorem waiting_of_validate [JournalDigest] (hrep : Replayed scope records s)
    (hcla : Classified authenticated)
    (hgate : validate s.finalizeIncompleteEffects authenticated = .ok gate)
    (hmem : result ∈ authenticated.classifiedResults)
    (hfr : s.authenticatedResults[result.resultJournalSequence]? = none) :
    Waiting authenticated.scope s result := by
  obtain ⟨hpro, -⟩ := provenance_of_replayed hrep
  have hbd := bound_of_replayed hrep
  obtain ⟨-, bridged, hbri, hval, -⟩ := validate_iff.mp hgate
  have hwell := hcla.wellFormed result hmem
  have hmis : result.resultJournalSequence ∉ bridged := by
    rw [mem_bridged hpro.keyed hbri, hfr]
    nofun
  obtain ⟨order, hget, -, -, hord, hmat⟩ :=
    validatePrior_iff.mp (validatePrior_of_validateAll hval hmem hmis)
  obtain ⟨raw, hraw, rfl⟩ := holds_finalize.mp hget
  have hmar := sameMarks_finalizeEffects raw
  have hmat := hmat.keep hmar.symm
  refine ⟨hwell, hfr, raw, hraw, ?_⟩
  unfold Awaits
  cases hop : result.operation with
  | cancel =>
    rw [hop] at hmat
    obtain ⟨other, hoth, hven, hcan⟩ := hmat
    cases hoth
    exact ⟨(hpro.order _ raw hraw).cancelled (by rw [hcan]; rfl), hven, hcan⟩
  | place =>
    rw [hop] at hmat hord
    rcases (hpro.order _ raw hraw).placed with hopen | hrec | ⟨sequence, place, hrec, hcl, hpr⟩
    · exact ⟨hopen, hbd.unbound _ raw hraw hopen, hmat.2⟩
    · cases hrec.symm.trans (hmar.ordinaryPlace.symm.trans hord)
    · -- a recorded placement is that of this result
      obtain ⟨found, hfou, hmatc⟩ :=
        ((seeBridges_iff.mp hbri).1 _ (mem_valueList.mpr ⟨sequence, hrec⟩)).1
      obtain ⟨hfou, -⟩ := (resultAt_iff hcla).mp hfou
      obtain ⟨⟨other, hoth⟩, hpri, hcli⟩ := place_of_matches hmatc
      have hsame : found.operation = result.operation := by
        have hcoo := coordinator_eq (hcli.symm.trans hcl)
          ((hcla.wellFormed found hfou).instrument.trans hwell.instrument.symm)
        rw [hoth, hop] at hcoo ⊢
        exact congrArg _ hcoo
      have hpri : found.priorGoalFSequence = result.priorGoalFSequence :=
        hpri.symm.trans (hpr.trans hmat.2)
      cases hcla.unique_prior found hfou result hmem hsame hpri
      rw [← sequence_of_matches hmatc, hpro.keyed sequence _ hrec, hrec] at hfr
      cases hfr

theorem operation_eq_of_awaits {order : RecoveredOwnedOrder}
    (hcoo : first.operation.coordinator = second.operation.coordinator)
    (ha : Awaits order first) (hb : Awaits order second) :
    first.operation = second.operation ∧ first.priorGoalFSequence = second.priorGoalFSequence := by
  unfold Awaits at ha hb
  cases hop : first.operation <;> cases hop' : second.operation <;>
    rw [hop] at ha hcoo <;> rw [hop'] at hb hcoo
  · exact ⟨congrArg _ hcoo, ha.2.2.symm.trans hb.2.2⟩
  · cases ha.1.symm.trans hb.1
  · cases ha.1.symm.trans hb.1
  · cases ha.2.1.symm.trans hb.2.1
    exact ⟨congrArg (PmAuthenticatedOperationKeyV1.cancel · _) hcoo,
      Option.some.inj (ha.2.2.symm.trans hb.2.2)⟩

/-- The results without a bridge wait for different orders. -/
theorem allWaiting_of_validate [JournalDigest] (hrep : Replayed scope records s)
    (hcla : Classified authenticated)
    (hgate : validate s.finalizeIncompleteEffects authenticated = .ok gate) :
    AllWaiting authenticated.scope s (unbridged s authenticated) := by
  have hwai : ∀ result ∈ unbridged s authenticated,
      result ∈ authenticated.classifiedResults ∧ Waiting authenticated.scope s result := by
    intro result hmem
    obtain ⟨hmem, hfr⟩ := mem_filter.mp hmem
    exact ⟨hmem, waiting_of_validate hrep hcla hgate hmem (Option.isNone_iff_eq_none.mp hfr)⟩
  refine ⟨fun result hmem => (hwai result hmem).2,
    (hcla.nodup.filter _).imp_of_mem fun {first second} hfst hsnd hne => ⟨?_, ?_⟩⟩
  · intro hcl
    obtain ⟨hfst, hwait⟩ := hwai first hfst
    obtain ⟨hsnd, hwait'⟩ := hwai second hsnd
    obtain ⟨order, hget, ha⟩ := hwait.order
    obtain ⟨order', hget', hb⟩ := hwait'.order
    rw [hcl] at hget
    cases hget.symm.trans hget'
    obtain ⟨hope, hpr⟩ := operation_eq_of_awaits (coordinator_eq hcl
      (hwait.wellFormed.instrument.trans hwait'.wellFormed.instrument.symm)) ha hb
    exact hne (hcla.unique_prior first hfst second hsnd hope hpr)
  · intro hseq
    exact hne (hcla.unique first (hwai first hfst).1 second (hwai second hsnd).1 hseq)

/-- The missing bridges of the gate are those of the results without one. -/
theorem missingBridges_eq [JournalDigest] (hrep : Replayed scope records s)
    (hgate : validate s.finalizeIncompleteEffects authenticated = .ok gate) :
    gate.missingBridges = unbridged s authenticated := by
  obtain ⟨hpro, -⟩ := provenance_of_replayed hrep
  obtain ⟨-, bridged, hbri, -, rfl⟩ := validate_iff.mp hgate
  refine filter_congr fun result _ => ?_
  rw [Bool.eq_iff_iff, decide_eq_true_iff, mem_bridged hpro.keyed hbri]
  simp

/-- **The gate passes again**, with nothing missing, once the bridges are appended. -/
theorem validate_of_allAppended [JournalDigest] {appended : List PmJournalRecordV1}
    {final : PmJournalRecovery} (hrep : Replayed scope records s)
    (hfin : Replayed scope appended final) (hcla : Classified authenticated)
    (hgate : validate s.finalizeIncompleteEffects authenticated = .ok gate)
    (happ : AllAppended s final (unbridged s authenticated)) :
    ∃ after, validate final.finalizeIncompleteEffects authenticated = .ok after ∧
      after.missingBridges = [] := by
  obtain ⟨hpro, -⟩ := provenance_of_replayed hrep
  obtain ⟨hpro', -⟩ := provenance_of_replayed hfin
  obtain ⟨⟨hacc, hins, hcon⟩, bridged, hbri, hval, -⟩ := validate_iff.mp hgate
  have hmat : ∀ bridge ∈ final.authenticatedResults.valueList,
      Matched authenticated bridge ∧ bridge.authResultSequence ∉ ([] : List UInt64) := by
    intro bridge hmem
    obtain ⟨sequence, hget⟩ := mem_valueList.mp hmem
    refine ⟨?_, nofun⟩
    rcases (happ.results sequence bridge).mp hget with hold | ⟨result, hres, rfl, rfl⟩
    · exact ((seeBridges_iff.mp hbri).1 bridge (mem_valueList.mpr ⟨sequence, hold⟩)).1
    · refine ⟨result, (resultAt_iff hcla).mpr ⟨(mem_filter.mp hres).1, ?_⟩,
        bridgeMatchesRecovery_bridgeOf result⟩
      rw [authResultSequence_bridgeOf]
  have hseen := seeBridges_iff.mpr ⟨hmat, pairwise_valueList hpro'.keyed, rfl⟩
  have hiff := mem_bridged hpro'.keyed hseen
  refine ⟨_, validate_iff.mpr ⟨⟨?_, ?_, ?_⟩, _, hseen,
    validateAllAttemptPriors_mono happ.keeps.finalize ?_ hval, rfl⟩, ?_⟩
  · exact (congrArg (·.accountScope) happ.scope).trans hacc
  · exact (congrArg PmJournalScopeV1.instrument happ.scope).trans hins
  · exact (congrArg (·.configurationFingerprint.bytes) happ.scope).trans hcon
  · intro sequence hmem
    obtain ⟨bridge, hget⟩ :=
      Option.isSome_iff_exists.mp ((mem_bridged hpro.keyed hbri sequence).mp hmem)
    rw [hiff, (happ.results sequence bridge).mpr (.inl hget)]
    rfl
  · refine filter_eq_nil_iff.mpr fun result hmem => ?_
    rw [decide_eq_true_iff, not_not, hiff]
    cases hget : s.authenticatedResults[result.resultJournalSequence]? with
    | some bridge =>
      rw [(happ.results _ bridge).mpr (.inl hget)]
      rfl
    | none =>
      rw [(happ.results _ (bridgeOf result)).mpr (.inr ⟨result, ?_, rfl, rfl⟩)]
      · rfl
      · exact mem_filter.mpr ⟨hmem, by rw [hget]; rfl⟩

end

/-! ### Repair -/

/-- Repair converges: the bridges that the gate asks for are made, the journal with them is accepted
by recovery, and passes the gate with nothing missing. -/
def Converges [JournalDigest] (scope : PmJournalScopeV1) (lines : List PmJournalLineV1)
    (authenticated : PmAuthenticatedJournalRecovery) (gate : PmAuthenticatedRecoveryGate) : Prop :=
  ∃ bridges repaired after, gate.missingBridgeRecords = .ok bridges ∧
    Journal.recoverLines (lines ++ bridgeLines scope lines.length bridges) scope = .ok repaired ∧
    validate repaired authenticated = .ok after ∧ after.missingBridges = []

/-- The mutation journal has room for the bridges and can take the results. -/
structure Repairable (goalF : PmJournalRecovery) (authenticated : PmAuthenticatedJournalRecovery) :
    Prop where
  room : goalF.recordCount + (unbridged goalF authenticated).length ≤ maxPmJournalRecords
  absorbs : AbsorbsAll goalF (unbridged goalF authenticated)

section

variable [JournalDigest] {scope : PmJournalScopeV1} {lines : List PmJournalLineV1}
  {s : PmJournalRecovery}

section

variable (h : Journal.recoverFrom (.empty scope) 0 lines = .ok s)

include h

theorem recordCount_le : s.recordCount ≤ maxPmJournalRecords := by
  refine readLines_invariant (P := fun s => s.recordCount ≤ maxPmJournalRecords)
    (fun {s t expected line} hle hchk happl => ?_) (Nat.zero_le _) h
  obtain ⟨_, hcnt, -⟩ := bind_eq_ok.mp hchk
  obtain ⟨applied, happ, hcou⟩ := bind_eq_ok.mp happl
  cases hcou
  obtain ⟨-, hsame, -⟩ := applyRecord_frame happ
  have hne := refuse_eq_ok.mp hcnt
  show applied.recordCount + 1 ≤ maxPmJournalRecords
  omega

/-- A journal that is read to the end is read on from there. -/
theorem recoverFrom_append (more : List PmJournalLineV1) :
    Journal.recoverFrom (.empty scope) 0 (lines ++ more) =
      Journal.recoverFrom s (sequenceAt lines.length) more :=
  (readLines_append nextSequence_eq_ok h more).trans
    (congrArg (Journal.recoverFrom s · more) (UInt64.zero_add _))

theorem recoverLines_append {more : List PmJournalLineV1} {repaired : PmJournalRecovery} :
    Journal.recoverLines (lines ++ more) scope = .ok repaired ↔ ∃ final,
      Journal.recoverFrom s (sequenceAt lines.length) more = .ok final ∧
      final.recordCount ≠ 0 ∧ repaired = final.finalizeIncompleteEffects := by
  unfold Journal.recoverLines
  simp only [recoverFrom_append h, Outcome.bind_eq_ok, Outcome.refuse_eq_ok, exists_const,
    Outcome.return_eq_ok]

end

/-- **Repair across the journals.** Whenever the gate passes, every bridge in the mutation journal
is that of exactly one result; and repair converges exactly if the journal can take the results. -/
theorem repair_converges_iff [AuthenticatedDigest] {lines : List PmJournalLineV1}
    {scope : PmJournalScopeV1} {goalF : PmJournalRecovery}
    {authLines : List PmAuthenticatedJournalLineV1} {authScope : PmAuthenticatedJournalScopeV1}
    {authenticated : PmAuthenticatedJournalRecovery} {gate : PmAuthenticatedRecoveryGate}
    (hgoalF : Journal.recoverLines lines scope = .ok goalF)
    (hauthenticated : recoverLines authLines authScope = .ok authenticated)
    (hgate : validate goalF authenticated = .ok gate) :
    (∀ bridge ∈ goalF.authenticatedResults.valueList,
      ∃! result, result ∈ authenticated.classifiedResults ∧
        bridgeMatchesRecovery bridge result = true) ∧
    (Converges scope lines authenticated gate ↔ Repairable goalF authenticated) := by
  obtain ⟨raw, hraw, hgoalF⟩ := bind_eq_ok.mp hgoalF
  obtain ⟨_, hzero, hgoalF⟩ := bind_eq_ok.mp hgoalF
  cases hgoalF
  have hzero := refuse_eq_ok.mp hzero
  have hrep := Journal.PmJournalRecovery.replayed_of_recoverFrom hraw
  have hcla := PmAuthenticatedJournalRecovery.classified_of_recoverLines hauthenticated
  obtain ⟨-, hsc, hcnt⟩ := provenance_of_replayed hrep
  rw [length_map] at hcnt
  obtain ⟨⟨hacc, hins, -⟩, bridged, hbri, -, -⟩ := validate_iff.mp hgate
  have hall := allWaiting_of_validate hrep hcla hgate
  have hjoi : Joins authenticated.scope raw :=
    ⟨congrArg PmAccountScope.handle hacc, hins, (inv_of_replayed hrep).indexed.room⟩
  refine ⟨fun bridge hmem => ?_, ?_⟩
  · obtain ⟨result, hres, hmat⟩ := ((seeBridges_iff.mp hbri).1 bridge hmem).1
    obtain ⟨hres, hseq⟩ := (resultAt_iff hcla).mp hres
    refine ⟨result, ⟨hres, hmat⟩, fun other ⟨hoth, hmat'⟩ => ?_⟩
    exact hcla.unique other hoth result hres ((sequence_of_matches hmat').symm.trans hseq.symm)
  have hrec : gate.missingBridgeRecords = .ok ((unbridged raw authenticated).map bridgeOf) := by
    unfold missingBridgeRecords
    rw [missingBridges_eq hrep hgate]
    exact mapM_eq_ok_map fun result hmem =>
      bridgeFromRecovered_eq (hall.waiting result hmem).wellFormed
  have hpos : lines.length ≠ 0 := hcnt ▸ hzero
  have hle : lines.length ≤ maxPmJournalRecords := hcnt ▸ recordCount_le hraw
  have hall := recoverFrom_bridges hall hjoi hcnt hpos hle
  rw [hsc] at hall
  have hrepa : Repairable raw.finalizeIncompleteEffects authenticated ↔
      lines.length + (unbridged raw authenticated).length ≤ maxPmJournalRecords ∧
        AbsorbsAll raw (unbridged raw authenticated) := by
    rw [← hcnt]
    constructor
    · rintro ⟨hroom, heach, hven⟩
      exact ⟨hroom, fun result hmem => absorbs_finalize_iff.mp (heach result hmem), hven⟩
    · rintro ⟨hroom, heach, hven⟩
      exact ⟨hroom, fun result hmem => absorbs_finalize_iff.mpr (heach result hmem), hven⟩
  rw [hrepa, ← hall.iff]
  constructor
  · rintro ⟨bridges, repaired, after, hbrid, hrepai, -⟩
    cases hrec.symm.trans hbrid
    obtain ⟨final, hfin, -⟩ := (recoverLines_append hraw).mp hrepai
    exact ⟨final, hfin⟩
  · rintro ⟨final, hfin⟩
    have happ := hall.value final hfin
    have hnon : final.recordCount ≠ 0 := by
      rw [happ.recordCount]
      omega
    have hread := (recoverFrom_append hraw _).trans hfin
    obtain ⟨after, haft, hnone⟩ := validate_of_allAppended hrep
      (Journal.PmJournalRecovery.replayed_of_recoverFrom hread) hcla hgate happ
    exact ⟨_, _, after, hrec, (recoverLines_append hraw).mpr ⟨final, hfin, hnon, rfl⟩, haft, hnone⟩

end

end PmAuthenticatedRecoveryGate

/-! ### Samples -/

namespace RepairSample

/-- The venue order that the placement of the sample expects. -/
def exactVenue : PmVenueOrderKey :=
  ⟨⟨0⟩, ⟨48 :: 120 :: encodeDigits 9 64, by decide, by decide +kernel, by decide +kernel⟩⟩

/-- The bridge of the accepted placement. -/
def placed : PmJournalAuthenticatedPlaceResultV1 where
  authPreparedSequence := 1
  authGrantSequence := 2
  authResultSequence := 3
  priorGoalFSequence := 1
  instrument := JournalSample.scope.instrument
  requestCommitment := ⟨8⟩
  expectedOrderId := ⟨9⟩
  observedOrderId := some ⟨9⟩
  classification := .accepted
  canonical := JournalSample.accepted JournalSample.first exactVenue

/-- The fill that completes the order. -/
def filled : PmJournalFillAppliedV1 :=
  { JournalSample.filled with
    fill := { JournalSample.filled.fill with
      key := ⟨exactVenue, JournalSample.filled.fill.key.id⟩ } }

open JournalSample (line first intent)

/-- The intent of an order, without its result. -/
def intentLines : List PmJournalLineV1 :=
  [line 0 (.header JournalSample.scope), line 1 (.quoteIntent (intent 1 first))]

/-- The order is placed, its cancel is under way, and it is filled. -/
def filledLines : List PmJournalLineV1 :=
  intentLines ++ [line 2 (.authenticatedResult (.place placed)),
    line 3 (.cancelIntent ⟨first, exactVenue, .replacement⟩), line 4 (.fillApplied filled)]

def cancel : PmAuthenticatedOperationKeyV1 :=
  .cancel operation.coordinator exactVenue

/-- The order is placed, and its cancel comes too late. -/
def cancelRecords : List PmAuthenticatedJournalRecordV1 :=
  records ++ [
    .cancelPrepared {
      operation := cancel
      priorCancelSequence := 3
      semanticRequestCommitment := ⟨7⟩
      fixedOrderId := ⟨9⟩
      l2TimestampSeconds := minL2Timestamp
      requestCommitment := ⟨8⟩ },
    .dispatchAuthorized ⟨cancel, 4⟩,
    .cancelResult ⟨cancel, 5, .rejected, some ⟨9⟩⟩]

def cancelLines : List PmAuthenticatedJournalLineV1 :=
  cancelRecords.mapIdx fun position record =>
    ⟨scope.schemaVersion, scope.fingerprint, sequenceAt position, record⟩

variable (s : PmAuthenticatedJournalRecovery)

/-- `rebuild_projections` where the attempts are in the order of all three lists already: the sorts
are not evaluated. -/
def rebuildListed : Recovering PmAuthenticatedJournalRecovery := do
  let attempts := s.attempts.valueList
  let unresolved ← attempts.mapM projectUnresolvedAttempt
  return { s with
    preparedWithoutGrant :=
      (attempts.filter (·.grantSequence.isNone)).map projectPreparedWithoutGrant
    classifiedResults := attempts.filterMap projectClassifiedResult
    unresolvedOperations := unresolved.filterMap id }

/-- The three lists are sorted. -/
def isListed : Bool :=
  decide (s.preparedWithoutGrant.Pairwise fun a b =>
    decide (a.preparedJournalSequence ≤ b.preparedJournalSequence) = true) &&
  decide (s.classifiedResults.Pairwise fun a b =>
    decide (a.resultJournalSequence ≤ b.resultJournalSequence) = true) &&
  decide (s.unresolvedOperations.Pairwise fun a b =>
    decide (a.common.grantJournalSequence ≤ b.common.grantJournalSequence) = true)

theorem rebuildProjections_eq {s final : PmAuthenticatedJournalRecovery}
    (h : rebuildListed s = .ok final) (hlis : isListed final = true) :
    s.rebuildProjections = .ok final := by
  obtain ⟨unresolved, hunr, hfin⟩ := bind_eq_ok.mp h
  cases hfin
  simp only [isListed, Bool.and_eq_true, decide_eq_true_eq] at hlis
  obtain ⟨⟨hpre, hcla⟩, hope⟩ := hlis
  refine bind_eq_ok.mpr ⟨unresolved, hunr, ?_⟩
  rw [mergeSort_of_pairwise (by simpa using hpre), mergeSort_of_pairwise (by simpa using hcla),
    mergeSort_of_pairwise (by simpa using hope)]
  rfl

end RepairSample

open RepairSample PmAuthenticatedRecoveryGate

/-- A placement was not bridged before the restart: one bridge is missing, and repair converges. -/
theorem repair_converges_of_intent : ∃ goalF authenticated gate,
    Journal.recoverLines intentLines JournalSample.scope = .ok goalF ∧
    recoverLines lines scope = .ok authenticated ∧
    validate goalF authenticated = .ok gate ∧ gate.missingBridges.length = 1 ∧
    Converges JournalSample.scope intentLines authenticated gate ∧
    Repairable goalF authenticated := by
  have hrun : (Journal.recoverLines intentLines JournalSample.scope).okWith (fun goalF =>
      (recoverLines lines scope).okWith fun authenticated =>
        (validate goalF authenticated).okWith fun gate =>
          gate.missingBridges.length == 1 && gate.missingBridgeRecords.okWith fun bridges =>
            (Journal.recoverLines (intentLines ++ bridgeLines JournalSample.scope
              intentLines.length bridges) JournalSample.scope).okWith fun repaired =>
              (validate repaired authenticated).okWith (·.missingBridges.isEmpty)) = true := by
    decide +kernel
  simp only [okWith_eq_true, Bool.and_eq_true, beq_iff_eq] at hrun
  obtain ⟨goalF, hgoaF, authenticated, haut, gate, hgate, hlen, bridges, hbri, repaired, hrep,
    after, haft, hnone⟩ := hrun
  have hcon : Converges JournalSample.scope intentLines authenticated gate :=
    ⟨bridges, repaired, after, hbri, hrep, haft, isEmpty_iff.mp hnone⟩
  exact ⟨goalF, authenticated, gate, hgoaF, haut, hgate, hlen, hcon,
    (repair_converges_iff hgoaF haut hgate).2.mp hcon⟩

/-- A cancel result is left without a bridge while a fill completes its order: the gate passes, and
the journal with the missing bridge is refused. -/
theorem cancel_after_fill_diverges : ∃ goalF authenticated gate,
    Journal.recoverLines filledLines JournalSample.scope = .ok goalF ∧
    recoverLines cancelLines scope = .ok authenticated ∧
    validate goalF authenticated = .ok gate ∧
    ¬ Converges JournalSample.scope filledLines authenticated gate := by
  have hrun : (Journal.recoverLines filledLines JournalSample.scope).okWith (fun goalF =>
      (recoverFrom (.empty scope) 0 cancelLines).okWith fun s =>
        s.recordCount != 0 && (rebuildListed s).okWith fun authenticated =>
          isListed authenticated && (validate goalF authenticated).okWith fun gate =>
            gate.missingBridgeRecords.okWith fun bridges =>
              (Journal.recoverLines (filledLines ++ bridgeLines JournalSample.scope
                filledLines.length bridges) JournalSample.scope).isErr) = true := by
    decide +kernel
  simp only [okWith_eq_true, Bool.and_eq_true, bne_iff_ne] at hrun
  obtain ⟨goalF, hgoaF, s, hrec, hcnt, authenticated, hreb, hlis, gate, hgate, bridges, hbri,
    href⟩ := hrun
  have haut : recoverLines cancelLines scope = .ok authenticated :=
    bind_eq_ok.mpr ⟨s, hrec, bind_eq_ok.mpr ⟨(),
      refuse_eq_ok.mpr hcnt, rebuildProjections_eq hreb hlis⟩⟩
  refine ⟨goalF, authenticated, gate, hgoaF, haut, hgate, ?_⟩
  rintro ⟨bridges', repaired, after, hbri', hrep, -⟩
  cases hbri.symm.trans hbri'
  exact ne_ok_of_isErr href repaired hrep

end Reap.Authenticated
