import Reap.Private.Invariant

/-!
# Reconciliation is atomic

`apply_reconciliation` checks a complete account snapshot and a complete fill query against
everything that they will change, and then commits them to the fills, the account facts and the
owned lifecycle. The commits are expected to succeed: were one of them to fail, the program would
abort in the middle of them.

`Ready` is what the checks establish. The commits change the parts one after the other, so each
commit has to find what was checked before the earlier ones; they do because no part is changed by
two of them.

## What is proved

* `preflightReconciliation_returns` — the checks do not abort, and do not touch what is committed.
* `commitFills_ok`, `commitAccount_ok`, `commitRows_ok` — every commit succeeds.
* `applyReconciliation_returns` — a reconciliation does not abort and keeps the invariant.
-/

namespace Reap.Private

open Base Reap.Core Reap.Fill Reap.Order Reap.Owned Outcome Act

/-! ### Ranges of the owner's order -/

/-- What is known of a range that has been preflighted. -/
structure PmOwnedObservationRange.Fits (range : PmOwnedObservationRange) (count : ℕ)
    (privateOccurrence : PmPrivateOccurrence)
    (snapshotRevision : Option SnapshotRevision) : Prop where
  count_eq : range.count = max count 1
  private_eq : range.privateOccurrence = privateOccurrence
  revision_eq : range.snapshotRevision = snapshotRevision
  positive : 0 < range.firstSequence.toNat
  bounded : range.firstSequence.toNat + (max count 1 - 1) < 2 ^ 64

variable {value : UInt64}

theorem toNat_add_ofNat {amount : ℕ} (h : value.toNat + amount < 2 ^ 64) :
    (value + UInt64.ofNat amount).toNat = value.toNat + amount := by
  rw [UInt64.toNat_add, UInt64.toNat_ofNat', Nat.mod_eq_of_lt (a := amount) (by omega),
    Nat.mod_eq_of_lt h]

/-- A number that is not zero does not become zero, if nothing overflows. -/
theorem add_ofNat_ne_zero {amount : ℕ} (hpos : 0 < value.toNat) (h : value.toNat + amount < 2 ^ 64)
    : value + UInt64.ofNat amount ≠ 0 := by
  intro hzero
  have hadd := toNat_add_ofNat h
  rw [hzero] at hadd
  have : (0 : UInt64).toNat = 0 := rfl
  omega

namespace PmOwnedObservationRange.Fits

variable {range : PmOwnedObservationRange} {count : ℕ} {privateOccurrence : PmPrivateOccurrence}
  {snapshotRevision : Option SnapshotRevision}

section

variable (h : range.Fits count privateOccurrence snapshotRevision)

include h

variable {k : ℕ}

theorem occurrence (hk : k < max count 1) :
    ∃ o, range.occurrence k = some o ∧ o.privateOccurrence = some privateOccurrence ∧
      o.snapshotRevision = snapshotRevision ∧
      o.reductionSequence.value = range.firstSequence + UInt64.ofNat k := by
  have hbou := h.bounded
  have hle : range.firstSequence.toNat + k < 2 ^ 64 := by omega
  have hne := add_ofNat_ne_zero h.positive hle
  refine ⟨⟨⟨_, hne⟩, some range.privateOccurrence, range.snapshotRevision, by simp⟩, ?_,
    congrArg some h.private_eq, h.revision_eq, rfl⟩
  rw [PmOwnedObservationRange.occurrence, if_pos ⟨h.count_eq ▸ hk, hle⟩, dif_pos hne]

theorem first : ∃ o, range.occurrence 0 = some o ∧ o.privateOccurrence = some privateOccurrence ∧
      o.snapshotRevision = snapshotRevision ∧ o.reductionSequence.value = range.firstSequence := by
  obtain ⟨o, ho, hpri, hrev, hseq⟩ := h.occurrence (k := 0) (by omega)
  exact ⟨o, ho, hpri, hrev, hseq.trans (UInt64.add_zero _)⟩

theorem exists_occurrence (hk : k < count) : ∃ o, range.occurrence k = some o := by
  obtain ⟨o, ho, -⟩ := h.occurrence (lt_of_lt_of_le hk (le_max_left _ 1))
  exact ⟨o, ho⟩

theorem finalSequence :
    range.finalSequence = some (range.firstSequence + UInt64.ofNat (max count 1 - 1)) := by
  unfold PmOwnedObservationRange.finalSequence
  rw [h.count_eq, if_pos h.bounded]

/-- The sequence numbers of the rows, counted from the first occurrence. -/
theorem rowSequence (hk : k < count) {sequence : PmOwnedReductionSequence}
    (hseq : sequence.value = range.firstSequence) : Fill.rowSequence sequence k ≠ none := by
  have hbou := h.bounded
  have hle : range.firstSequence.toNat + k < 2 ^ 64 := by omega
  rw [Fill.rowSequence, hseq, if_pos hle, dif_pos (add_ofNat_ne_zero h.positive hle)]
  nofun

end

end PmOwnedObservationRange.Fits

namespace PmPrivateState

/-- **The preflight of a range** does not abort. -/
theorem preflightOwnedPrivateRange_cases (s : PmPrivateState) (count : ℕ)
    (privateOccurrence : PmPrivateOccurrence) (snapshotRevision : Option SnapshotRevision) :
    (∃ error, s.preflightOwnedPrivateRange count privateOccurrence snapshotRevision = .err error) ∨
    ∃ range, s.preflightOwnedPrivateRange count privateOccurrence snapshotRevision = .ok range ∧
      range.Fits count privateOccurrence snapshotRevision := by
  unfold preflightOwnedPrivateRange
  split_ifs
  · exact .inl ⟨_, rfl⟩
  simp only
  split
  · next firstSequence final hfst hfin =>
    unfold checkedAddU64 at hfst hfin
    split_ifs at hfst with hone
    split_ifs at hfin with hall
    cases hfst
    have hnat := toNat_add_ofNat hone
    have hfits : PmOwnedObservationRange.Fits
        ⟨s.ownedReductionHighWatermark + UInt64.ofNat 1, max count 1, privateOccurrence,
          snapshotRevision⟩ count privateOccurrence snapshotRevision :=
      ⟨rfl, rfl, rfl, by rw [hnat]; exact Nat.succ_pos _, by rw [hnat]; omega⟩
    obtain ⟨o, ho, -⟩ := hfits.occurrence (k := 0) (by omega)
    obtain ⟨o', ho', -⟩ := hfits.occurrence (k := max count 1 - 1) (by omega)
    refine .inr ⟨_, ?_, hfits⟩
    simp only [ho, ho', expect_some, ok_bind, Outcome.pure_eq_ok]
  · exact .inl ⟨_, rfl⟩

/-! ### What the checks leave alone -/

/-- What a reconciliation commits to is as it was. -/
structure Untouched (s t : PmPrivateState) : Prop where
  entries : t.fills.entries = s.fills.entries
  provisional : t.fills.provisional = s.fills.provisional
  account : t.account = s.account
  lifecycle : t.ownedLifecycle = s.ownedLifecycle
  highWatermark : t.ownedReductionHighWatermark = s.ownedReductionHighWatermark

/-- A property that is kept when a halt or an obligation is recorded. -/
structure Recordable (I : PmPrivateState → Prop) : Prop where
  ordered : ∀ t, I t → t.refresh.Ordered
  refresh : ∀ t refresh, I t → refresh.Ordered → I { t with refresh := refresh }
  halt : ∀ t halt, I t → I { t with halt := halt }

section

variable (config : PmAccountConfig) (limits : PmRiskLimits)

theorem recordable_untouched (s : PmPrivateState) :
    Recordable fun t => Inv config limits t ∧ Untouched s t where
  ordered _ ht := ht.1.refresh
  refresh _ _ ht hord := ⟨{ ht.1 with refresh := hord }, { ht.2 with }⟩
  halt _ _ ht := ⟨{ ht.1 with }, { ht.2 with }⟩

end

namespace Recordable

variable {I : PmPrivateState → Prop}

section

variable (h : Recordable I)

include h

theorem requireRefresh (reason : PmRefreshReason) :
    Total I (requireRefresh reason) (fun _ => I) I := by
  intro t ht
  obtain ⟨hrep, hord⟩ := PmRefreshState.require_spec (h.ordered t ht) (t.refreshKey reason)
  unfold PmPrivateState.requireRefresh tryRefresh
  rw [attempt_raise_apply]
  generalize t.refresh.require (t.refreshKey reason) = result at hrep hord ⊢
  obtain ⟨_ | _ | _, refresh⟩ := result
  · exact h.refresh t refresh ht hord
  · exact h.refresh t refresh ht hord
  · exact absurd rfl hrep

theorem haltFor (reason : PmPrivateHaltReason) :
    Total I (haltFor reason) (fun _ => I) I := .modify fun t ht => h.halt t _ ht

theorem recordAccountError : Total I recordAccountError (fun _ => I) I :=
  .bind (h.haltFor _) fun _ => .bind (h.requireRefresh _) fun _ _ ht => ht

theorem recordFillError (error : PmFillStateError) :
    Total I (recordFillError error) (fun _ => I) I :=
  .bind (h.haltFor _) fun _ => .bind (h.requireRefresh _) fun _ _ ht => ht

theorem requireWhen (condition : PmPrivateState → Bool) (reason : PmRefreshReason) :
    Total I (requireWhen condition reason) (fun _ => I) I := by
  refine .bind .get fun s => ?_
  rintro t ⟨rfl, ht⟩
  split
  · have hthen : Total I (do let _ ← PmPrivateState.requireRefresh reason) (fun _ => I) I :=
      .bind (h.requireRefresh reason) fun _ _ ht => ht
    exact hthen t ht
  · exact ht

theorem requireForAccountState : Total I requireForAccountState (fun _ => I) I :=
  .bind (h.requireWhen _ _) fun _ => .bind (h.requireWhen _ _) fun _ => h.requireWhen _ _

end

end Recordable

/-! ### The checks -/

section

variable {config : PmAccountConfig} {limits : PmRiskLimits} {s t : PmPrivateState}
  {account : ServicedEnvelope PmCompleteAccountSnapshot} {fills : ServicedEnvelope PmCompleteFillQuery}
  {range : PmOwnedObservationRange}

/-- What the checks of a reconciliation establish. -/
structure Ready (account : ServicedEnvelope PmCompleteAccountSnapshot)
    (fills : ServicedEnvelope PmCompleteFillQuery) (range : PmOwnedObservationRange)
    (t : PmPrivateState) : Prop where
  preview : ∃ revision absences, t.account.preview t.config account =
    .ok (.applied revision absences)
  query : Preflighted t.config.toPmPrivateStateConfig fills.toEventEnvelope t.fills.entries
  fits : range.Fits fills.payload.fills.length (Fill.completionOf fills.toEventEnvelope)
    (some fills.payload.snapshot.revision)
  batch : preflightOwnedFillBatch t.ownedLifecycle fills.payload.fills range .restReconciliation =
    .ok ()

theorem requirePrivateEpoch_cases (epoch : ConnectionEpoch) (s : PmPrivateState) :
    (∃ error, requirePrivateEpoch epoch s = (.err error, s)) ∨
      requirePrivateEpoch epoch s = (.ok (), s) := by
  unfold requirePrivateEpoch
  rw [bind_apply_ok (get_apply s)]
  cases s.currentEpoch with
  | none => exact .inl ⟨_, rfl⟩
  | some =>
    simp only
    split_ifs
    · exact .inl ⟨_, rfl⟩
    · exact .inl ⟨_, rfl⟩
    · exact .inr rfl

/-- The checks of the parts. -/
theorem preflightParts_returns (hs : Inv config limits s) {epoch : ConnectionEpoch}
    (hep : epoch = fills.ordering.connectionEpoch) :
    Returns (fun range t => (Inv config limits t ∧ Untouched s t) ∧
        Preflighted t.config.toPmPrivateStateConfig fills.toEventEnvelope t.fills.entries ∧
        range.Fits fills.payload.fills.length (Fill.completionOf fills.toEventEnvelope)
          (some fills.payload.snapshot.revision) ∧
        preflightOwnedFillBatch t.ownedLifecycle fills.payload.fills range .restReconciliation =
          .ok ())
      (fun t => Inv config limits t ∧ Untouched s t) (preflightParts epoch fills s) := by
  subst hep
  have hsto := hs.fills
  rw [← hs.config_eq] at hsto
  have hque := preflightQuery_spec hsto fills.toEventEnvelope
  unfold preflightParts
  rw [bind_apply]
  unfold onFills attempt
  simp only
  generalize s.fills.preflightQuery _ _ = result at hque ⊢
  have hkp : ∀ {f : PmFillState}, Kept s.fills f →
      Inv config limits { s with fills := f } ∧ Untouched s { s with fills := f } := fun hkept =>
    ⟨{ hs with fills := hkept.entries.symm ▸ hs.fills }, hkept.entries, hkept.provisional, rfl, rfl,
      rfl⟩
  cases hque with
  | @refused error f hkept =>
    refine Total.bind ((recordable_untouched config limits s).recordFillError error)
      (fun _ => ?_) _ (hkp hkept)
    exact Total.fail _
  | @passed f hkept hpas =>
    have ht := hkp hkept
    simp only
    rcases preflightOwnedPrivateRange_cases { s with fills := f } fills.payload.fills.length
      (Fill.completionOf fills.toEventEnvelope) (some fills.payload.snapshot.revision) with
      ⟨error, herr⟩ | ⟨range, hrng, hfits⟩
    · unfold Fill.completionOf at herr
      rw [bind_apply, check_apply, herr]
      exact ht
    have hlif : s.ownedLifecycle.Inv := PmOwnedOrderLifecycle.inv_of_reach hs.lifecycle
    have hbat := preflightOwnedFillBatch_ne_panic hlif .restReconciliation
      (fun k hk => hfits.exists_occurrence hk)
    unfold Fill.completionOf at hrng
    rw [bind_apply, check_apply, hrng]
    simp only
    rw [bind_apply, askLifecycle_apply]
    cases hchk : preflightOwnedFillBatch s.ownedLifecycle fills.payload.fills range
      .restReconciliation with
    | panic => exact absurd hchk hbat
    | err => exact ht
    | ok => exact ⟨ht, hkept.entries.symm ▸ hpas, hfits, hchk⟩

/-- **The checks of a reconciliation** do not abort, and touch nothing that is committed to. -/
theorem preflightReconciliation_returns (account : ServicedEnvelope PmCompleteAccountSnapshot)
    (fills : ServicedEnvelope PmCompleteFillQuery) (hs : Inv config limits s) :
    Returns (fun result t => (Inv config limits t ∧ Untouched s t) ∧
        ∀ range, result = .inr range → Ready account fills range t)
      (fun t => Inv config limits t ∧ Untouched s t) (preflightReconciliation account fills s) := by
  have hstart : Inv config limits s ∧ Untouched s s := ⟨hs, rfl, rfl, rfl, rfl, rfl⟩
  have hrec := (recordable_untouched config limits s).recordAccountError
  unfold preflightReconciliation
  cases hpair : validateReconciliationPair account fills with
  | error => exact Total.bind hrec (fun _ => Total.fail _) s hstart
  | ok =>
  have hep : account.ordering.connectionEpoch = fills.ordering.connectionEpoch := by
    unfold validateReconciliationPair at hpair
    split_ifs at hpair with hmis
    simp only [not_or, not_not] at hmis
    exact hmis.2.2.1
  rcases requirePrivateEpoch_cases account.ordering.connectionEpoch s with ⟨error, herr⟩ | hok
  · simp only [bind_apply, herr]
    exact hstart
  simp only [bind_apply_ok hok, bind_apply_ok (get_apply s)]
  cases hpre : s.account.preview s.config account with
  | error => exact Total.bind hrec (fun _ => Total.fail _) s hstart
  | ok outcome =>
  cases outcome with
  | duplicate | ignoredStale => exact ⟨hstart, nofun⟩
  | applied revision absences =>
    have hpar := preflightParts_returns hs hep
    simp only [bind_apply]
    generalize preflightParts account.ordering.connectionEpoch fills s = result at hpar ⊢
    obtain ⟨range | _ | _, t⟩ := result
    · obtain ⟨ht, hque, hfits, hbat⟩ := hpar
      refine ⟨ht, ?_⟩
      rintro _ ⟨⟩
      refine ⟨⟨revision, absences, ?_⟩, hque, hfits, hbat⟩
      rw [ht.2.account, ht.1.config_eq, ← hs.config_eq]
      exact hpre
    · exact hpar
    · exact hpar

/-! ### The commits -/

section

variable (ht : Inv config limits t)

include ht

/-- **The commit of the fill query** succeeds. -/
theorem commitFills_ok (h : Ready account fills range t) :
    ∃ f, commitFills fills range t = (.ok (), { t with fills := f }) ∧
      Stored config.toPmPrivateStateConfig f.entries ∧
      recomputeProvisional config.toPmPrivateStateConfig f.entries = .ok f.provisional := by
  obtain ⟨o, ho, hpri, hrev, hseq⟩ := h.fits.first
  have hsto := ht.fills
  rw [← ht.config_eq] at hsto ⊢
  obtain ⟨f, happ, hf⟩ : ∃ f,
      t.fills.applyPreflightedQuery t.config.toPmPrivateStateConfig fills.toEventEnvelope o =
        (.ok (), f) ∧ Stored t.config.toPmPrivateStateConfig f.entries ∧
        recomputeProvisional t.config.toPmPrivateStateConfig f.entries = .ok f.provisional := by
    have hspec := applyPreflightedQuery_spec hsto o h.query
    generalize t.fills.applyPreflightedQuery _ _ _ = result at hspec ⊢
    cases hspec with
    | refused hevi => exact absurd hevi (by simp [hpri, hrev])
    | aborted hnone =>
      obtain ⟨k, hk, hnone⟩ := hnone
      exact absurd hnone (h.fits.rowSequence hk hseq)
    | @applied f hrows hrec _ => exact ⟨f, rfl, hrows.stored, hrec⟩
  refine ⟨f, ?_, hf⟩
  simp [commitFills, onFills, attempt, bind_apply, expectOk, ho, happ]

/-- **The commit of the account snapshot** succeeds. -/
theorem commitAccount_ok (h : ∃ revision absences, t.account.preview t.config account =
      .ok (.applied revision absences)) :
    ∃ outcome a, commitAccount account t = (.ok outcome, { t with account := a }) ∧
      PmAccountState.Configured config a := by
  obtain ⟨revision, absences, hpre⟩ := h
  obtain ⟨explicitAbsences, a, happ, ha⟩ :=
    PmAccountState.apply_of_preview (ht.config_eq.symm ▸ ht.account) hpre
  refine ⟨.applied account.payload.snapshot.revision explicitAbsences, a, ?_, ht.config_eq ▸ ha⟩
  simp [commitAccount, onAccount, attempt, bind_apply, expectOk, happ]

/-- **The commit of the rows** succeeds. -/
theorem commitRows_ok (hsou : ∀ fill ∈ fills.payload.fills, fills.source = fill.source)
    (hfits : range.Fits fills.payload.fills.length (Fill.completionOf fills.toEventEnvelope)
      (some fills.payload.snapshot.revision))
    (hbat : preflightOwnedFillBatch t.ownedLifecycle fills.payload.fills range
      .restReconciliation = .ok ()) :
    ∃ reductions l, commitRows fills range t = (.ok reductions, { t with ownedLifecycle := l }) ∧
      LifecycleReached config l := by
  have hinv : t.ownedLifecycle.Inv := PmOwnedOrderLifecycle.inv_of_reach ht.lifecycle
  obtain ⟨o, -, hpri, -⟩ := hfits.first
  have hfst : o.privateOccurrence = some range.privateOccurrence := by
    rw [hpri, hfits.private_eq]
  let request : PmPrivateOccurrence :=
    ⟨fills.ordering.connectionEpoch, fills.payload.boundary.requestSequence⟩
  have hrng : ∀ k < fills.payload.fills.length, ∃ o, range.occurrence (0 + k) = some o := by
    intro k hk
    rw [Nat.zero_add]
    exact hfits.exists_occurrence hk
  obtain ⟨reductions, l, hrows, -⟩ := reduceRows_ok request hfst hsou fills.payload.keys_nodup
    hrng hinv (fits_of_preflight hinv hfst hbat)
  refine ⟨reductions, l, ?_, ?_⟩
  · exact (tryLifecycle_apply _ t).trans (by rw [hrows])
  · have hkp := reduceRows_keeps (closed_lifecycleReached config) fills.toEventEnvelope range request 0
      fills.payload.fills
    exact hkp.next ht.lifecycle (congrArg next hrows)

/-- The uncovered fills can be counted, if the deltas have been recomputed. -/
theorem exists_uncoveredFillCount
    (hrec : recomputeProvisional config.toPmPrivateStateConfig t.fills.entries =
      .ok t.fills.provisional) : ∃ n, t.uncoveredFillCount = some n := by
  obtain ⟨active, hact, -, hle⟩ := PmUnresolvedFillState.exists_activeCount ht.unresolved
  have hunc : t.fills.provisional.uncoveredFills.toNat ≤ maxPmPrivateFills := by
    have hval := congrArg (·.2.2.1) (recomputeProvisional_value hrec)
    have hcnt := (counts_le config.toPmPrivateStateConfig
      (t.fills.entries.filter FillEntry.needsReconciliation)).1
    exact hval.trans_le (hcnt.trans ((List.length_filter_le _ _).trans ht.fills.length_le))
  have hfits : t.fills.provisional.uncoveredFills.toNat + active.toNat < 2 ^ 16 :=
    lt_of_le_of_lt (Nat.add_le_add hunc hle) (by decide)
  refine ⟨t.fills.provisional.uncoveredFills + active, ?_⟩
  simp only [uncoveredFillCount, hact, Option.bind_eq_bind, Option.bind_some, if_pos hfits]

omit ht in
/-- What follows the commits does not abort, and leaves what was committed. -/
theorem finishReconciliation_returns (account : ServicedEnvelope PmCompleteAccountSnapshot)
    (fills : ServicedEnvelope PmCompleteFillQuery) (ht : Inv config limits t)
    (hreco : recomputeProvisional config.toPmPrivateStateConfig t.fills.entries =
      .ok t.fills.provisional) (outcome : PmAccountSnapshotApply) :
    Returns (fun _ v => Inv config limits v ∧ Untouched t v)
      (fun v => Inv config limits v ∧ Untouched t v)
      (finishReconciliation account fills outcome t) := by
  have hrec := recordable_untouched config limits t
  unfold finishReconciliation
  rw [bind_apply_ok (modify_apply _ t), bind_apply_ok (modify_apply _ _)]
  set u : PmPrivateState := { t with
    unresolvedFills := t.unresolvedFills.coverThrough
      ⟨account.ordering.connectionEpoch, fills.payload.boundary.requestSequence⟩
      ⟨account.ordering.connectionEpoch, account.payload.boundary.completionSequence⟩
    privateAvailable := true }
  have hu : Inv config limits u := { ht with
    unresolved := PmUnresolvedFillState.coverThrough_ordered ht.unresolved _ _ }
  obtain ⟨uncovered, hunc⟩ := exists_uncoveredFillCount hu hreco
  have hrest : Total (fun v => Inv config limits v ∧ Untouched t v) (do
      requireForAccountState
      modify fun s => { s with risk := s.risk.recoverAfterCompleteReconciliation }
      return PmReconciliationApply.applied account.payload.boundary outcome uncovered)
      (fun _ v => Inv config limits v ∧ Untouched t v)
      (fun v => Inv config limits v ∧ Untouched t v) :=
    .bind hrec.requireForAccountState fun _ =>
      .bind (.modify fun _ hs => ⟨{ hs.1 with }, { hs.2 with }⟩) fun _ => .pure _
  rw [bind_apply, check_apply, hunc]
  simp only [expect_some]
  split_ifs
  · exact hrest _ ⟨{ hu with refresh := hu.refresh.of_entries rfl }, rfl, rfl, rfl, rfl, rfl⟩
  · exact Total.bind (hrec.requireRefresh _) (fun _ => hrest) _ ⟨{ hu with }, rfl, rfl, rfl, rfl, rfl⟩

/-- **The commits of a reconciliation** succeed, one after the other, and the reconciliation ends
with what they and the range have committed. -/
theorem commitReconciliation_returns (h : Ready account fills range t) :
    ∃ t₁ outcome t₂ reductions t₃ final, commitFills fills range t = (.ok (), t₁) ∧
      commitAccount account t₁ = (.ok outcome, t₂) ∧
      commitRows fills range t₂ = (.ok reductions, t₃) ∧ range.finalSequence = some final ∧
      Returns (fun _ v => Inv config limits v ∧
          Untouched { t₃ with ownedReductionHighWatermark := final } v)
        (fun v => Inv config limits v ∧
          Untouched { t₃ with ownedReductionHighWatermark := final } v)
        (commitReconciliation account fills range t) := by
  have hsou : ∀ fill ∈ fills.payload.fills, fills.source = fill.source := by
    intro fill hin
    have hval := h.query.valid fill hin
    unfold validateFill at hval
    split_ifs at hval with hsc
    simp only [not_or, not_not] at hsc
    exact hsc.1.trans hsc.2.1.symm
  obtain ⟨f, hfil, hsto, hrec⟩ := commitFills_ok ht h
  have ht₁ : Inv config limits { t with fills := f } := { ht with fills := hsto }
  obtain ⟨outcome, a, hacc, hcon⟩ := commitAccount_ok ht₁ h.preview
  have ht₂ : Inv config limits { t with fills := f, account := a } := { ht₁ with account := hcon }
  obtain ⟨reductions, l, hrows, hlif⟩ := commitRows_ok ht₂ hsou h.fits h.batch
  have hfin := h.fits.finalSequence
  refine ⟨_, outcome, _, reductions, _, _, hfil, hacc, hrows, hfin, ?_⟩
  set final := range.firstSequence + UInt64.ofNat (max fills.payload.fills.length 1 - 1)
  set u : PmPrivateState :=
    { t with fills := f, account := a, ownedLifecycle := l, ownedReductionHighWatermark := final }
  have hcom : commitOwnedPrivateRange range
      { t with fills := f, account := a, ownedLifecycle := l } = (.ok (), u) := by
    simp [commitOwnedPrivateRange, bind_apply, hfin, u]
  have hu : Inv config limits u := { ht₂ with lifecycle := hlif }
  have hend := finishReconciliation_returns account fills hu hrec outcome
  unfold commitReconciliation
  rw [bind_apply_ok hfil, bind_apply_ok hacc, bind_apply_ok hrows, bind_apply_ok hcom, bind_apply]
  generalize finishReconciliation account fills outcome u = result at hend ⊢
  obtain ⟨_ | _ | _, v⟩ := result <;> exact hend

end

/-- **A reconciliation** does not abort, and keeps the invariant. -/
theorem applyReconciliation_returns (account : ServicedEnvelope PmCompleteAccountSnapshot)
    (fills : ServicedEnvelope PmCompleteFillQuery) (hs : Inv config limits s) :
    Returns (fun _ => Inv config limits) (Inv config limits)
      (applyReconciliation account fills s) := by
  have hchk := preflightReconciliation_returns account fills hs
  unfold applyReconciliation
  rw [bind_apply]
  generalize preflightReconciliation account fills s = result at hchk ⊢
  obtain ⟨(_ | range) | _ | _, t⟩ := result
  · exact hchk.1.1
  · obtain ⟨_, _, _, _, _, _, -, -, -, -, hcom⟩ :=
      commitReconciliation_returns hchk.1.1 (hchk.2 range rfl)
    exact hcom.mono (fun _ _ hv => hv.1) fun _ hv => hv.1
  · exact hchk.1
  · exact hchk

end

end PmPrivateState

end Reap.Private
