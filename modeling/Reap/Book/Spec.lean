import Reap.Book.Step

/-!
# Every call to the book reducer has one of the listed effects

Each function of the reducer is examined once, and `Effect` is shown to list what it can do.
From the effects follows the invariant of the reducer.

## What is proved

* `call_effect` — a call from a state that satisfies `Inv` has an `Effect`.
* `exists_step` — in particular it does not abort.
* `inv_new`, `inv_of_effect` — the invariant holds at the start and after every effect.
-/

namespace Reap.Book

open Base Reap.Core Outcome

namespace PmBookReducer

variable {s t : PmBookReducer} {op : Op}

/-! ### Replies -/

/-- The reply of a call, as an answer. -/
def answered (result : Reply PmBookTransition × PmBookReducer) : Reply Answer × PmBookReducer :=
  result.map (map .transition) id

variable {result : Reply PmBookTransition × PmBookReducer}

theorem Closed.answered (h : Closed s result) : Closed s (answered result) := by
  obtain ⟨⟨reason, hrea⟩, hkept, hclo⟩ := h
  refine ⟨⟨reason, ?_⟩, hkept, hclo⟩
  exact congrArg (map Answer.transition) hrea

theorem Effect.of_closed (h : Closed s result) : Effect s op (answered result) :=
  .failed h.answered

/-- An unavailable book stays unavailable through the note of it. -/
theorem exists_noteUnavailableTransition (s : PmBookReducer) :
    ∃ f, s.noteUnavailableTransition = s.count f := by
  unfold noteUnavailableTransition
  split_ifs
  · exact ⟨_, rfl⟩
  · exact ⟨id, rfl⟩

/-! ### Metadata and epochs -/

theorem applyMetadata_effect (hs : s.Inv) (observation : PmMetadataObservation) :
    Effect s (.applyMetadata observation) (answered (s.applyMetadata observation)) := by
  unfold applyMetadata
  split
  · next hpend => exact .of_closed (closed_of_pending hs hpend _)
  next hpend =>
  have hrej (reason : PmPublicReadinessReason) (f : PmBookCounters → PmBookCounters) :
      Effect s (.applyMetadata observation) (answered ((s.count f).rejectMetadata reason)) :=
    .of_closed (closed_of_kept (.count s f) (rejectMetadata_closed _ _))
  dsimp only
  split
  · exact hrej _ _
  split
  · exact hrej _ _
  split
  · exact hrej _ _
  split
  · exact hrej _ _
  split
  · exact hrej _ _
  obtain ⟨f, hf⟩ := exists_noteUnavailableTransition
    (s.count fun c => { c with metadataInputs := bump c.metadataInputs })
  rw [hf]
  exact .metadata (by simpa using hpend) (.labels (s.withMetadata observation) _ _ _ _ _)

theorem beginEpoch_effect (hs : s.Inv) (epoch : ConnectionEpoch) :
    Effect s (.beginEpoch epoch) (answered (s.beginEpoch epoch)) := by
  unfold beginEpoch
  split
  · next hpend => exact .of_closed (closed_of_pending hs hpend _)
  next hpend =>
  dsimp only
  split
  · exact .of_closed (closed_of_kept (.count s _) (invalidate_closed _ _))
  split
  · exact .of_closed (closed_of_kept (.count s _) (invalidate_closed _ _))
  next hfol =>
  obtain ⟨f, hf⟩ := exists_noteUnavailableTransition
    (s.count fun c => { c with epochAttempts := bump c.epochAttempts })
  rw [hf]
  exact .epoch (by simpa using hpend) (Bool.not_eq_false _ ▸ hfol)
    (.labels (s.withEpoch epoch) _ _ _ _ _)

/-! ### Updates -/

theorem toU16_of_le {n : ℕ} (h : n ≤ maxPmBookLevels) : toU16 n = some n := by
  refine if_pos (lt_of_le_of_lt h ?_)
  decide

variable {evidence : PmBookBatchEvidence}

theorem reduceSnapshot_effect (snapshot : PmBookSnapshot) (hpend : s.pendingExternalFault = none)
    (hval : s.EvidenceValid evidence) (hhash : evidence.venueHash.isSome = true)
    (hkept : Kept s t) (hfla : SameFlags s t)
    (hlast : t.lastIngressSequence = some evidence.localIngressSequence) :
    Effect s (.applyUpdate evidence (.snapshot snapshot))
      (answered (t.reduceSnapshot evidence snapshot)) := by
  have hsta : ∀ staging, Kept t { t with staging := staging } := fun staging =>
    .bookkeeping t t.counters t.reason staging t.changeKeys t.lastIngressReceiveNs
  unfold reduceSnapshot
  split
  · exact .of_closed (closed_of_kept hkept (invalidate_closed _ _))
  next hrev =>
  split
  · exact .of_closed (closed_of_kept hkept (invalidate_closed _ _))
  split
  · exact .of_closed (closed_of_kept (hkept.trans (hsta _)) (invalidate_closed _ _))
  next staging hsort =>
  obtain ⟨hcan, htop⟩ := validateAndSortLevels_ok hsort
  obtain ⟨hash, hhash⟩ := Option.isSome_iff_exists.mp hhash
  unfold commitSnapshot
  simp only [hhash, toU16_of_le snapshot.length_le]
  have hlvl : Committable s.tick staging := by
    refine ⟨?_, htop⟩
    rw [tick, ← hkept.expectedContract]
    exact hcan
  refine .snapshot hpend hval ?_ hlvl
    ⟨hkept.instrument, hkept.expectedFingerprint, rfl, rfl, rfl, rfl, hhash⟩ ?_ ?_
  · intro current hcur
    by_contra hle
    exact hrev ⟨current, hkept.committed ▸ hcur, not_lt.mp hle⟩
  · exact { hkept with
      snapshotRevision := rfl
      committed := rfl
      bookReceiveNs := rfl
      levels := rfl
      bookReady := id
      ingress := fun last hl => ⟨last, hlast.trans hl, le_refl _⟩ }
  · exact ⟨rfl, hfla.metadataValid, hfla.reconnect⟩

/-- What an update does, after its evidence and its hash are found valid. -/
theorem update_effect {update : PmBookUpdate} {f : PmBookCounters → PmBookCounters} {P : Prop}
    {check : PmBookReducer → Reply Unit × PmBookReducer}
    {rest : PmBookReducer → Reply PmBookTransition × PmBookReducer}
    (hchk : ∀ t, Checked t (fun u => u = t ∧ P) (check t))
    (hrest : ∀ t, Kept s t → SameFlags s t → s.EvidenceValid evidence →
      t.lastIngressSequence = some evidence.localIngressSequence → P →
      Effect s (.applyUpdate evidence update) (answered (rest t))) :
    Effect s (.applyUpdate evidence update)
      (answered (andThen ((s.count f).validateCommonEvidence evidence) fun _ s =>
        andThen (check s) fun _ s => rest s)) := by
  refine (validateCommonEvidence_checked _ evidence).andThen
    (Q := fun result => Effect s _ (answered result))
    (fun h => .of_closed (closed_of_kept (.count s _) h)) ?_
  rintro - t hkept hfla ⟨hval, hlast⟩
  refine (hchk t).andThen (Q := fun result => Effect s _ (answered result))
    (fun h => .of_closed (closed_of_kept ((Kept.count s _).trans hkept) h)) ?_
  rintro - u - - ⟨rfl, hP⟩
  exact hrest u ((Kept.count s _).trans hkept) { hfla with } { hval with } hlast hP

theorem commitDelta_effect (batch : PmBookDeltaBatch) (hrdy : s.isReady = true) (hkept : Kept s t)
    (hfla : SameFlags s t) (hlvl : Committable s.tick t.staging) :
    Effect s (.applyUpdate evidence (.deltaBatch batch)) (answered (t.commitDelta evidence batch)) := by
  obtain ⟨⟨bid, ask⟩, htop⟩ := hlvl.top
  have htop' : canonicalTop (t.count fun c => { c with
      deltaTopChecks := bump c.deltaTopChecks }).staging = .ok (bid, ask) := htop
  unfold commitDelta
  simp only [htop', toU16_of_le batch.length_le]
  split
  · exact .of_closed (closed_of_kept (hkept.trans (.count t _)) (invalidate_closed _ _))
  · refine .delta hrdy hlvl ((hkept.withDelta evidence t.staging).trans ?_)
      ⟨rfl, hfla.metadataValid, hfla.reconnect⟩
    exact .bookkeeping (t.withDelta evidence t.staging) _ _ _ _ _

section

variable (hs : s.Inv)

include hs

theorem reduceDelta_effect (batch : PmBookDeltaBatch) (hkept : Kept s t) (hfla : SameFlags s t) :
    Effect s (.applyUpdate evidence (.deltaBatch batch)) (answered (t.reduceDelta evidence batch)) := by
  have hinv (reason : PmPublicReadinessReason) :
      Effect s (.applyUpdate evidence (.deltaBatch batch)) (answered (t.invalidate reason)) :=
    .of_closed (closed_of_kept hkept (invalidate_closed _ _))
  unfold reduceDelta
  split
  · exact hinv _
  next hrdy =>
  rw [Bool.not_eq_false, hkept.isReady_eq hfla] at hrdy
  split
  · exact hinv _
  split
  · exact hinv _
  split
  · exact hinv _
  have hsort : Sorted t.levels := hkept.levels ▸ hs.canonical.sorted
  refine (stageDelta_checked batch hsort).andThen (Q := fun result => Effect s _ (answered result))
    (fun h => .of_closed (closed_of_kept hkept h)) ?_
  rintro - u hkept' hfla' ⟨hlvl, -⟩
  refine commitDelta_effect batch hrdy (hkept.trans hkept') (hfla.trans hfla') ?_
  have htick : t.tick = s.tick := by rw [tick, tick, hkept.expectedContract]
  exact htick ▸ hlvl

theorem reduceTop_effect (top : PmBookTopCheck) (hkept : Kept s t) (hfla : SameFlags s t) :
    Effect s (.applyUpdate evidence (.topCheck top)) (answered (t.reduceTop evidence top)) := by
  have hinv (reason : PmPublicReadinessReason) :
      Effect s (.applyUpdate evidence (.topCheck top)) (answered (t.invalidate reason)) :=
    .of_closed (closed_of_kept hkept (invalidate_closed _ _))
  unfold reduceTop
  split
  · exact hinv _
  next hrdy =>
  rw [Bool.not_eq_false, hkept.isReady_eq hfla] at hrdy
  split
  · exact hinv _
  obtain ⟨⟨bid, ask⟩, htop⟩ := hs.top (isReady_iff.mp hrdy).2.2.2.1
  rw [hkept.levels, htop]
  dsimp only
  split
  · exact hinv _
  · exact .confirmed hrdy (.inl rfl) (hkept.trans (.count t _)) { hfla with }

theorem applyUpdate_effect (evidence : PmBookBatchEvidence) (update : PmBookUpdate) :
    Effect s (.applyUpdate evidence update) (answered (s.applyUpdate evidence update)) := by
  unfold applyUpdate
  split
  · next hpend => exact .of_closed (closed_of_pending hs hpend _)
  next hpend =>
  have hnone : s.pendingExternalFault = none := by simpa using hpend
  cases update with
  | snapshot snapshot =>
    simp only [applySnapshot, if_neg hpend]
    exact update_effect (validateSnapshotHash_checked · evidence)
      fun t hkept hfla hval hlast hhash =>
        reduceSnapshot_effect snapshot hnone hval hhash hkept hfla hlast
  | deltaBatch batch =>
    simp only [applyDeltaBatch, if_neg hpend]
    exact update_effect (validateAbsentSingularHash_checked · evidence)
      fun t hkept hfla _ _ _ => reduceDelta_effect hs batch hkept hfla
  | topCheck top =>
    simp only [checkTop, if_neg hpend]
    exact update_effect (validateAbsentSingularHash_checked · evidence)
      fun t hkept hfla _ _ _ => reduceTop_effect hs top hkept hfla
  | tickSizeChanged =>
    simp only [tickSizeChanged, if_neg hpend]
    refine update_effect (f := id) (validateAbsentSingularHash_checked · evidence)
      fun t hkept _ _ _ _ => .of_closed (closed_of_kept hkept ?_)
    exact closed_of_kept (.count t _) (rejectMetadata_closed _ _)

/-! ### Faults and freshness -/

variable (epoch : ConnectionEpoch) (fault : PmExternalBookFault)

omit hs in
theorem applyExternalFaultFinal_closed : Closed s (s.applyExternalFaultFinal epoch fault) := by
  unfold applyExternalFaultFinal
  split
  · exact invalidate_closed _ _
  · refine closed_of_kept ?_ (invalidate_closed _ _)
    exact ⟨rfl, rfl, rfl, rfl, rfl, rfl, rfl, rfl, rfl, rfl, rfl, rfl, id, id,
      fun hrec => by simp [hrec], .refl _⟩

theorem applyExternalFault_effect :
    Effect s (.applyExternalFault epoch fault) (answered (s.applyExternalFault epoch fault)) := by
  unfold applyExternalFault
  split
  · next hpend => exact .of_closed (closed_of_pending hs hpend _)
  · exact .of_closed (applyExternalFaultFinal_closed epoch fault)

theorem beginPendingExternalFault_effect : Effect s (.beginPendingExternalFault epoch fault)
      ((s.beginPendingExternalFault epoch fault).map (map .authority) id) := by
  have hclo {result : Reply PmPendingExternalBookFaultAuthority × PmBookReducer}
      (h : Closed s result) : Effect s (.beginPendingExternalFault epoch fault)
        (result.map (map .authority) id) := by
    obtain ⟨⟨reason, hrea⟩, hkept, hnot⟩ := h
    exact .failed ⟨⟨reason, congrArg (map Answer.authority) hrea⟩, hkept, hnot⟩
  unfold beginPendingExternalFault
  split
  · next hpend => exact hclo (closed_of_pending hs hpend _)
  split
  · exact hclo (invalidate_closed _ _)
  split
  · exact hclo (invalidate_closed _ _)
  split
  · exact hclo (invalidate_closed _ _)
  obtain ⟨f, hf⟩ := exists_noteUnavailableTransition s
  rw [hf]
  exact .pending (.labels (s.withPending _) _ _ _ _ _)

theorem finalizePendingExternalFault_effect
    (authority : PmPendingExternalBookFaultAuthority) (fault : PmExternalBookFault) :
    Effect s (.finalizePendingExternalFault authority fault)
      (answered (s.finalizePendingExternalFault authority fault)) := by
  unfold finalizePendingExternalFault
  split
  · next href =>
    by_cases haut : s.authorizes authority = true
    · -- the fault stays pending, so the book stays unavailable
      refine .of_closed (closed_of_pending hs ?_ _)
      rw [authorizes, Bool.and_eq_true, beq_iff_eq, beq_iff_eq] at haut
      rw [haut.2]
      rfl
    · exact .unauthorized (Bool.not_eq_true _ ▸ haut)
  · next hauth =>
    rw [not_or, Bool.not_eq_false] at hauth
    have hpend : s.pendingExternalFault.isSome = true := by
      have haut := hauth.1
      rw [authorizes, Bool.and_eq_true, beq_iff_eq, beq_iff_eq] at haut
      rw [haut.2]
      rfl
    have hsame : { s with pendingExternalFault := none } = s.withPending none := by
      rw [withPending, ← bookReady_of_pending hs hpend]
    rw [hsame]
    exact .finalized (applyExternalFaultFinal_closed authority.epoch fault).answered

theorem checkFreshness_effect (nowNs : UInt64) :
    Effect s (.checkFreshness nowNs) (answered (s.checkFreshness nowNs)) := by
  unfold checkFreshness
  split
  · next hpend => exact .of_closed (closed_of_pending hs hpend _)
  have hclo (f : PmBookCounters → PmBookCounters)
      {result : Reply PmBookTransition × PmBookReducer} (h : Closed (s.count f) result) :
      Effect s (.checkFreshness nowNs) (answered result) :=
    .of_closed (closed_of_kept (.count s f) h)
  dsimp only
  split
  · split
    · exact hclo _ (invalidate_closed _ _)
    split
    · exact hclo _ (invalidate_closed _ _)
    split
    · refine hclo (fun c => { c with freshnessChecks := bump c.freshnessChecks }) ?_
      exact closed_of_kept (((Kept.noteUnavailableTransition _).trans (.withdraw _ false nofun)).trans
        (.count _ _)) (recordInvalidation_closed _ (isReady_of_bookReady rfl))
    split
    · exact hclo _ (closed_of_kept (.count _ _) (invalidate_closed _ _))
    split
    · next hrdy => exact hclo _ (closed_here _ hrdy)
    · next hrdy =>
      rw [Bool.not_eq_false] at hrdy
      exact .confirmed ((Kept.count s _).isReady_eq ⟨rfl, rfl, rfl⟩ ▸ hrdy) (.inr rfl)
        ((Kept.count s _).trans (.count _ _)) ⟨rfl, rfl, rfl⟩
  · next hnone =>
    refine hclo (fun c => { c with freshnessChecks := bump c.freshnessChecks }) (closed_here _ ?_)
    by_contra hrdy
    rw [Bool.not_eq_false, isReady_iff] at hrdy
    obtain ⟨metadataNs, hmet⟩ := Option.isSome_iff_exists.mp (hs.metadata hrdy.1)
    obtain ⟨bookNs, hbook⟩ := Option.isSome_iff_exists.mp (hs.received hrdy.2.2.2.1)
    exact hnone metadataNs bookNs hmet hbook

/-- **What a call does.** -/
theorem call_effect (op : Op) : Effect s op (call op s) := by
  cases op with
  | applyMetadata observation => exact applyMetadata_effect hs observation
  | beginEpoch epoch => exact beginEpoch_effect hs epoch
  | applyUpdate evidence update => exact applyUpdate_effect hs evidence update
  | applyExternalFault epoch fault => exact applyExternalFault_effect hs epoch fault
  | beginPendingExternalFault epoch fault => exact beginPendingExternalFault_effect hs epoch fault
  | finalizePendingExternalFault authority fault =>
    exact finalizePendingExternalFault_effect hs authority fault
  | checkFreshness nowNs => exact checkFreshness_effect hs nowNs

/-! ### The invariant -/

theorem Inv.unready (hrdy : t.bookReady = false) (hlvl : t.levels = s.levels)
    (hcon : t.expectedContract = s.expectedContract)
    (hmet : t.metadataValid = true → t.metadataReceiveNs.isSome = true) : t.Inv where
  canonical := by
    rw [tick, hcon, hlvl]
    exact hs.canonical
  top := fun h => by cases hrdy.symm.trans h
  settled := fun h => by cases hrdy.symm.trans h
  received := fun h => by cases hrdy.symm.trans h
  committed := fun h => by cases hrdy.symm.trans h
  metadata := hmet

variable {levels : List PmBookLevel}

theorem Inv.withSnapshot (hpend : s.pendingExternalFault = none) (evidence : PmBookBatchEvidence)
    (hlvl : Committable s.tick levels) : (s.withSnapshot evidence levels).Inv where
  canonical := hlvl.canonical
  top := fun _ => hlvl.top
  settled := fun _ => hpend
  received := fun _ => rfl
  committed := fun _ => ⟨rfl, rfl⟩
  metadata := hs.metadata

theorem Inv.withDelta (hrdy : s.bookReady = true) (evidence : PmBookBatchEvidence)
    (hlvl : Committable s.tick levels) : (s.withDelta evidence levels).Inv where
  canonical := hlvl.canonical
  top := fun _ => hlvl.top
  settled := fun _ => hs.settled hrdy
  received := fun _ => rfl
  committed := fun _ => hs.committed hrdy
  metadata := hs.metadata

theorem inv_of_effect {result : Reply Answer × PmBookReducer}
    (h : Effect s op result) : result.2.Inv := by
  cases h with
  | failed h => exact hs.of_kept h.kept
  | unauthorized => exact hs
  | finalized h =>
    have hpend : (s.withPending none).Inv := hs.unready rfl rfl rfl hs.metadata
    exact hpend.of_kept h.kept
  | confirmed _ _ hkept => exact hs.of_kept hkept
  | @metadata observation _ _ hkept =>
    have hmet : (s.withMetadata observation).Inv := hs.unready rfl rfl rfl fun _ => rfl
    exact hmet.of_kept hkept
  | @epoch epoch _ _ _ hkept =>
    have hep : (s.withEpoch epoch).Inv := hs.unready rfl rfl rfl hs.metadata
    exact hep.of_kept hkept
  | @pending _ _ _ pending _ hkept =>
    have hpend : (s.withPending (some pending)).Inv := hs.unready rfl rfl rfl hs.metadata
    exact hpend.of_kept hkept
  | snapshot hpend _ _ hlvl _ hkept =>
    exact (hs.withSnapshot hpend _ hlvl).of_kept hkept
  | delta hrdy hlvl hkept =>
    exact (hs.withDelta (isReady_iff.mp hrdy).2.2.2.1 _ hlvl).of_kept hkept

omit hs in
theorem inv_new {authorityId : UInt64} {instrument : PmInstrumentHandle}
    {fingerprint : PmMetadataFingerprint} {contract : PmMetadataContract}
    {freshness : PmBookFreshness}
    (h : new authorityId instrument fingerprint contract freshness = .ok s) : s.Inv := by
  unfold new at h
  split at h
  · cases h
  · cases h
    exact ⟨⟨.nil, Nat.zero_le _, nofun, nofun⟩, nofun, nofun, nofun, nofun, nofun⟩

/-- A call from a state that satisfies the invariant does not abort. -/
theorem exists_step (op : Op) : ∃ t, step op s = some t := by
  have heff := call_effect hs op
  unfold step
  revert heff
  generalize call op s = result
  intro heff
  cases heff with
  | failed h =>
    obtain ⟨reply, t⟩ := result
    obtain ⟨⟨reason, rfl⟩, -⟩ := h
    exact ⟨t, rfl⟩
  | finalized h =>
    obtain ⟨reply, t⟩ := result
    obtain ⟨⟨reason, rfl⟩, -⟩ := h
    exact ⟨t, rfl⟩
  | _ => exact ⟨_, rfl⟩

end

end PmBookReducer

end Reap.Book
