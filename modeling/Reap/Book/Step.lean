import Reap.Book.Reducer

/-!
# What a call to the book reducer can do

The calls of the reducer as one type, and the function that runs a call. The reducer's branches
are examined once, here: `Effect` lists what a call can do, and what it has checked before.

Most of the state is bookkeeping: counters, reasons, clocks, buffers. `Kept` says that a state
differs from another only there, and that the book of the second is available only if the book
of the first is. Every effect is an update of the rest of the state, up to `Kept`.

## What is proved

* `Checked.andThen` — the rest of a call runs only if a check has passed, on the same book.
* `stageDelta_checked` — price changes are staged beside the levels, and leave them sorted.
* `Inv.of_kept` — bookkeeping keeps the invariant of the reducer.
-/

namespace Reap.Book

open Base Reap.Core Outcome

/-- The calls that change the reducer. -/
inductive Op where
  | applyMetadata (observation : PmMetadataObservation)
  | beginEpoch (epoch : ConnectionEpoch)
  | applyUpdate (evidence : PmBookBatchEvidence) (update : PmBookUpdate)
  | applyExternalFault (epoch : ConnectionEpoch) (fault : PmExternalBookFault)
  | beginPendingExternalFault (epoch : ConnectionEpoch) (fault : PmExternalBookFault)
  | finalizePendingExternalFault (authority : PmPendingExternalBookFaultAuthority)
      (finalFault : PmExternalBookFault)
  | checkFreshness (nowNs : UInt64)

/-- What a call returns when it succeeds. -/
inductive Answer where
  | transition (transition : PmBookTransition)
  | authority (authority : PmPendingExternalBookFaultAuthority)
  deriving DecidableEq

namespace PmBookReducer

/-- Run one call. -/
def call : Op → PmBookReducer → Reply Answer × PmBookReducer
  | .applyMetadata observation, s => (s.applyMetadata observation).map (map .transition) id
  | .beginEpoch epoch, s => (s.beginEpoch epoch).map (map .transition) id
  | .applyUpdate evidence update, s => (s.applyUpdate evidence update).map (map .transition) id
  | .applyExternalFault epoch fault, s =>
    (s.applyExternalFault epoch fault).map (map .transition) id
  | .beginPendingExternalFault epoch fault, s =>
    (s.beginPendingExternalFault epoch fault).map (map .authority) id
  | .finalizePendingExternalFault authority finalFault, s =>
    (s.finalizePendingExternalFault authority finalFault).map (map .transition) id
  | .checkFreshness nowNs, s => (s.checkFreshness nowNs).map (map .transition) id

/-- The state that a call leaves. -/
def step (op : Op) (s : PmBookReducer) : Option PmBookReducer := next (call op s)

/-! ### When the book is available -/

variable {s t u : PmBookReducer}

theorem isReady_iff : s.isReady = true ↔
    s.metadataValid = true ∧ s.connectionEpoch.isSome = true ∧ s.requiresReconnect = false ∧
      s.bookReady = true ∧ s.metadataRevision.isSome = true ∧ s.snapshotRevision.isSome = true := by
  unfold isReady readiness
  split_ifs with h
  · simp only [Bool.and_eq_true, Bool.not_eq_eq_eq_not, Bool.not_true] at h
    obtain ⟨⟨⟨hmet, hep⟩, hrec⟩, hrdy⟩ := h
    cases hm : s.metadataRevision <;> cases hs : s.snapshotRevision <;>
      simp [PmBookReadiness.isReady, PmBookReadiness.ready, PmBookReadiness.unavailable, hmet,
        hep, hrec, hrdy]
  · refine iff_of_false (by simp [PmBookReadiness.isReady, PmBookReadiness.unavailable]) ?_
    rintro ⟨hmet, hep, hrec, hrdy, -, -⟩
    simp [hmet, hep, hrec, hrdy] at h

theorem isReady_of_bookReady (h : s.bookReady = false) : s.isReady = false := by
  rw [← Bool.not_eq_true, isReady_iff, h]
  rintro ⟨-, -, -, hrdy, -, -⟩
  cases hrdy

theorem isReady_of_metadataValid (h : s.metadataValid = false) : s.isReady = false := by
  rw [← Bool.not_eq_true, isReady_iff, h]
  rintro ⟨hval, -⟩
  cases hval

/-! ### What bookkeeping leaves alone -/

/-- A sequence number is not followed by a smaller one. -/
def Advances (before after : Option IngressSequence) : Prop :=
  ∀ last ∈ before, ∃ next ∈ after, last ≤ next

theorem Advances.refl (sequence : Option IngressSequence) : Advances sequence sequence :=
  fun last hlast => ⟨last, hlast, le_refl _⟩

/-- The state differs only in its bookkeeping, and its book is not more available. -/
structure Kept (s t : PmBookReducer) : Prop where
  authorityId : t.authorityId = s.authorityId
  instrument : t.instrument = s.instrument
  expectedFingerprint : t.expectedFingerprint = s.expectedFingerprint
  expectedContract : t.expectedContract = s.expectedContract
  metadataRevision : t.metadataRevision = s.metadataRevision
  metadataReceiveNs : t.metadataReceiveNs = s.metadataReceiveNs
  connectionEpoch : t.connectionEpoch = s.connectionEpoch
  snapshotRevision : t.snapshotRevision = s.snapshotRevision
  committed : t.lastCommittedSnapshotRevision = s.lastCommittedSnapshotRevision
  bookReceiveNs : t.bookReceiveNs = s.bookReceiveNs
  levels : t.levels = s.levels
  pending : t.pendingExternalFault = s.pendingExternalFault
  metadataValid : t.metadataValid = true → s.metadataValid = true
  bookReady : t.bookReady = true → s.bookReady = true
  reconnect : s.requiresReconnect = true → t.requiresReconnect = true
  ingress : Advances s.lastIngressSequence t.lastIngressSequence

namespace Kept

theorem refl (s : PmBookReducer) : Kept s s := by
  constructor <;> first | rfl | exact id | exact Advances.refl _

theorem trans (h : Kept s t) (h' : Kept t u) : Kept s u where
  authorityId := h'.authorityId.trans h.authorityId
  instrument := h'.instrument.trans h.instrument
  expectedFingerprint := h'.expectedFingerprint.trans h.expectedFingerprint
  expectedContract := h'.expectedContract.trans h.expectedContract
  metadataRevision := h'.metadataRevision.trans h.metadataRevision
  metadataReceiveNs := h'.metadataReceiveNs.trans h.metadataReceiveNs
  connectionEpoch := h'.connectionEpoch.trans h.connectionEpoch
  snapshotRevision := h'.snapshotRevision.trans h.snapshotRevision
  committed := h'.committed.trans h.committed
  bookReceiveNs := h'.bookReceiveNs.trans h.bookReceiveNs
  levels := h'.levels.trans h.levels
  pending := h'.pending.trans h.pending
  metadataValid := h.metadataValid ∘ h'.metadataValid
  bookReady := h.bookReady ∘ h'.bookReady
  reconnect := h'.reconnect ∘ h.reconnect
  ingress := fun last hlast => by
    obtain ⟨mid, hmid, hle⟩ := h.ingress last hlast
    obtain ⟨next, hnext, hle'⟩ := h'.ingress mid hmid
    exact ⟨next, hnext, hle.trans hle'⟩

variable (s)

section

variable (counters : PmBookCounters) (reason : PmPublicReadinessReason)

/-- Counters, the reason, the buffers and the clock are bookkeeping. -/
theorem bookkeeping (staging : List PmBookLevel) (keys : List BookKey) (receiveNs : Option UInt64) :
    Kept s { s with
      counters := counters
      reason := reason
      staging := staging
      changeKeys := keys
      lastIngressReceiveNs := receiveNs } := by
  constructor <;> first | rfl | exact id | exact Advances.refl _

/-- So are the verified hash and the generation of the last fault. -/
theorem labels (receiveNs : Option UInt64) (hash : Option VenueEventHash) (generation : UInt64) :
    Kept s { s with
      counters := counters
      reason := reason
      lastIngressReceiveNs := receiveNs
      lastVerifiedSnapshotHash := hash
      pendingExternalFaultGeneration := generation } := by
  constructor <;> first | rfl | exact id | exact Advances.refl _

end

theorem count (f : PmBookCounters → PmBookCounters) : Kept s (s.count f) :=
  bookkeeping s _ s.reason s.staging s.changeKeys s.lastIngressReceiveNs

theorem noteUnavailableTransition : Kept s s.noteUnavailableTransition := by
  unfold PmBookReducer.noteUnavailableTransition
  split_ifs
  · exact count s _
  · exact refl s

/-- The book, or the metadata as well, become unavailable. -/
theorem withdraw (valid : Bool) (hval : valid = true → s.metadataValid = true) :
    Kept s { s with metadataValid := valid, bookReady := false } := by
  refine ⟨rfl, rfl, rfl, rfl, rfl, rfl, rfl, rfl, rfl, rfl, rfl, rfl, hval, nofun, id, .refl _⟩

variable {s}

end Kept

/-- The book is as available as it was. -/
structure SameFlags (s t : PmBookReducer) : Prop where
  bookReady : t.bookReady = s.bookReady
  metadataValid : t.metadataValid = s.metadataValid
  reconnect : t.requiresReconnect = s.requiresReconnect

theorem Kept.isReady_eq (h : Kept s t) (hfla : SameFlags s t) : t.isReady = s.isReady := by
  rw [Bool.eq_iff_iff, isReady_iff, isReady_iff, h.connectionEpoch, h.metadataRevision,
    h.snapshotRevision, hfla.bookReady, hfla.metadataValid, hfla.reconnect]

/-! ### What the parts of a call do -/

/-- A call, or a part of it, has failed: only bookkeeping has changed, and the book is not
available. -/
structure Closed {α : Type} (s : PmBookReducer) (result : Reply α × PmBookReducer) : Prop where
  err : ∃ reason, result.1 = .err reason
  kept : Kept s result.2
  closed : result.2.isReady = false

variable {α : Type} {result : Reply α × PmBookReducer}

theorem closed_of_kept (hkept : Kept s t) (h : Closed t result) : Closed s result :=
  ⟨h.err, hkept.trans h.kept, h.closed⟩

theorem closed_here (reason : PmPublicReadinessReason) (h : s.isReady = false) :
    Closed (α := α) s (.err reason, s) :=
  ⟨⟨reason, rfl⟩, .refl s, h⟩

theorem recordInvalidation_closed (reason : PmPublicReadinessReason) (h : s.isReady = false) :
    Closed (α := α) s (s.recordInvalidation reason) := by
  have hkept : Kept s (s.recordInvalidation (α := α) reason).2 :=
    .bookkeeping s _ reason s.staging s.changeKeys s.lastIngressReceiveNs
  refine ⟨⟨reason, rfl⟩, hkept, ?_⟩
  exact (hkept.isReady_eq ⟨rfl, rfl, rfl⟩).trans h

section

variable (s : PmBookReducer) (reason : PmPublicReadinessReason)

theorem invalidate_closed : Closed (α := α) s (s.invalidate reason) :=
  closed_of_kept ((Kept.noteUnavailableTransition s).trans (.withdraw _ _ id))
    (recordInvalidation_closed reason (isReady_of_bookReady rfl))

theorem rejectMetadata_closed : Closed (α := α) s (s.rejectMetadata reason) :=
  closed_of_kept (((Kept.noteUnavailableTransition s).trans (.withdraw _ false nofun)).trans
    (.count _ _)) (recordInvalidation_closed reason (isReady_of_bookReady rfl))

end

/-- What the evidence of an update has to be. -/
structure EvidenceValid (s : PmBookReducer) (evidence : PmBookBatchEvidence) : Prop where
  metadataValid : s.metadataValid = true
  instrument : evidence.instrument = s.instrument
  epoch : s.connectionEpoch = some evidence.connectionEpoch
  connected : s.requiresReconnect = false
  ingress : ∀ last ∈ s.lastIngressSequence, last < evidence.localIngressSequence
  revision : s.metadataRevision = some evidence.metadataRevision

/-- How a check ends: the call has failed, or it goes on with the same book. -/
inductive Checked {α : Type} (s : PmBookReducer) (P : PmBookReducer → Prop) :
    Reply α × PmBookReducer → Prop
  | failed {result : Reply α × PmBookReducer} (h : Closed s result) : Checked s P result
  | passed {value : α} {t : PmBookReducer} (hkept : Kept s t) (hflags : SameFlags s t) (h : P t) :
      Checked s P (.ok value, t)

/-- The rest of a call after a check. -/
theorem Checked.andThen {β : Type} {P : PmBookReducer → Prop}
    (h : Checked s P result) {rest : α → PmBookReducer → Reply β × PmBookReducer}
    {Q : Reply β × PmBookReducer → Prop}
    (hclo : ∀ {result : Reply β × PmBookReducer}, Closed s result → Q result)
    (hrest : ∀ value t, Kept s t → SameFlags s t → P t → Q (rest value t)) :
    Q (andThen result rest) := by
  cases h with
  | failed h =>
    obtain ⟨reply, t⟩ := result
    obtain ⟨⟨reason, rfl⟩, hkept, hnot⟩ := h
    exact hclo ⟨⟨reason, rfl⟩, hkept, hnot⟩
  | passed hkept hfla h => exact hrest _ _ hkept hfla h

theorem validateIngress_checked (s : PmBookReducer) (sequence : IngressSequence) :
    Checked s (fun t => (∀ last ∈ s.lastIngressSequence, last < sequence) ∧
      t.lastIngressSequence = some sequence ∧ t.metadataReceiveNs = s.metadataReceiveNs)
      (s.validateIngress sequence) := by
  have hset : (∀ last ∈ s.lastIngressSequence, last < sequence) →
      Kept s { s with lastIngressSequence := some sequence } := by
    intro hlt
    constructor <;> first | rfl | exact id | exact fun last hlast => ⟨sequence, rfl, (hlt last hlast).le⟩
  unfold validateIngress
  split
  · next hnone =>
    have hlt : ∀ last ∈ s.lastIngressSequence, last < sequence := by
      rw [hnone]
      nofun
    exact .passed (hset hlt) ⟨rfl, rfl, rfl⟩ ⟨hlt, rfl, rfl⟩
  · next last hlast =>
    split_ifs with hsame hback
    · exact .failed (closed_of_kept (.count s _) (invalidate_closed _ _))
    · exact .failed (closed_of_kept (.count s _) (invalidate_closed _ _))
    · have hlt : ∀ last ∈ s.lastIngressSequence, last < sequence := by
        intro x hx
        cases hlast.symm.trans hx
        exact lt_of_le_of_ne (not_lt.mp hback) (Ne.symm hsame)
      exact .passed (hset hlt) ⟨rfl, rfl, rfl⟩ ⟨hlt, rfl, rfl⟩

theorem SameFlags.trans (h : SameFlags s t) (h' : SameFlags t u) : SameFlags s u :=
  ⟨h'.bookReady.trans h.bookReady, h'.metadataValid.trans h.metadataValid,
    h'.reconnect.trans h.reconnect⟩

variable (s) (evidence : PmBookBatchEvidence)

theorem validateCommonEvidence_checked : Checked s (fun t => s.EvidenceValid evidence ∧
      t.lastIngressSequence = some evidence.localIngressSequence)
      (s.validateCommonEvidence evidence) := by
  unfold validateCommonEvidence
  split_ifs with hmet hins hep
  · exact .failed (closed_here _ (isReady_of_metadataValid hmet))
  · exact .failed (invalidate_closed _ _)
  · exact .failed (invalidate_closed _ _)
  rw [Bool.not_eq_false] at hmet
  rw [not_or, not_not, Bool.not_eq_true] at hep
  refine (validateIngress_checked s _).andThen .failed ?_
  rintro - t hkept hfla ⟨hlt, hlast, -⟩
  have hclo : Kept t { t with lastIngressReceiveNs := some evidence.monotonicReceiveNs } :=
    .bookkeeping t t.counters t.reason t.staging t.changeKeys _
  dsimp only
  split_ifs with hreg hrev
  · exact .failed (closed_of_kept hkept (invalidate_closed _ _))
  · exact .failed (closed_of_kept (hkept.trans hclo) (invalidate_closed _ _))
  · refine .passed (hkept.trans hclo) (hfla.trans ⟨rfl, rfl, rfl⟩) ⟨⟨hmet,
      not_not.mp hins, hep.1, hep.2, hlt, ?_⟩, hlast⟩
    exact hkept.metadataRevision.symm.trans (not_not.mp hrev)

theorem validateSnapshotHash_checked : Checked s (fun t => t = s ∧ evidence.venueHash.isSome = true)
      (s.validateSnapshotHash evidence) := by
  unfold validateSnapshotHash
  split_ifs with hhash
  · exact .failed (invalidate_closed _ _)
  · refine .passed (.refl s) ⟨rfl, rfl, rfl⟩ ⟨rfl, ?_⟩
    cases hven : evidence.venueHash with
    | none => simp [isExactSha1, hven] at hhash
    | some => rfl

theorem validateAbsentSingularHash_checked :
    Checked s (fun t => t = s ∧ ¬ evidence.venueHash.isSome = true)
      (s.validateAbsentSingularHash evidence) := by
  unfold validateAbsentSingularHash
  split_ifs with hhash
  · exact .failed (invalidate_closed _ _)
  · exact .passed (.refl s) ⟨rfl, rfl, rfl⟩ ⟨rfl, hhash⟩

variable {s}

/-! ### Price changes in the second buffer -/

theorem applyChanges_sorted (changes : List PmBookLevel) {levels : List PmBookLevel}
    (hs : Sorted levels) : (applyChanges changes levels).1 ≠ .panic ∧
      ∀ levels', applyChanges changes levels = (.ok (), levels') → Sorted levels' := by
  induction changes generalizing levels with
  | nil =>
    refine ⟨nofun, fun levels' h => ?_⟩
    cases h
    exact hs
  | cons change _ ih =>
    obtain ⟨hpan, hsort⟩ := applyChange_sorted hs change
    unfold applyChanges
    split
    · next h => exact absurd h hpan
    · exact ⟨nofun, nofun⟩
    · next h => exact ih (hsort _ h)

theorem collectKeys_ne_panic (tick : PmTick) (changes : List PmBookLevel) {keys : List BookKey}
    (hs : keys.Pairwise (KeyLt some)) : (collectKeys tick changes keys).1 ≠ .panic := by
  induction changes generalizing keys with
  | nil => rintro ⟨⟩
  | cons change _ ih =>
    have hcmp : (fun candidate => some (compareKeys candidate (levelKey change))) =
        fun candidate => (some candidate).map fun a => compare a (levelKey change) := by
      funext candidate
      rw [compareKeys_eq]
      rfl
    have hsea := binarySearchByKey_cases hs (fun x _ => ⟨x, rfl⟩) (levelKey change)
    unfold collectKeys
    split
    · rintro ⟨⟩
    rw [hcmp]
    rcases hsea with ⟨i, x, hfou, -⟩ | ⟨i, hfou, hspl⟩
    · rw [binarySearchByKey] at hfou
      simp only [hfou]
      rintro ⟨⟩
    · rw [binarySearchByKey] at hfou
      simp only [hfou, insertAt, if_pos hspl.le_length]
      exact ih (hspl.pairwise_insertIdx hs rfl)

/-- The levels may be committed. -/
structure Committable (tick : PmTick) (levels : List PmBookLevel) : Prop where
  canonical : Canonical tick levels
  top : ∃ top, canonicalTop levels = .ok top

theorem stageDelta_checked (batch : PmBookDeltaBatch) (hs : Sorted s.levels) :
    Checked s (fun t => Committable s.tick t.staging ∧
      t.lastIngressSequence = s.lastIngressSequence)
      (s.stageDelta batch) := by
  have hsta : ∀ keys staging, Kept s { s with staging := staging, changeKeys := keys } :=
    fun keys staging => .bookkeeping s s.counters s.reason staging keys s.lastIngressReceiveNs
  unfold stageDelta
  split
  · next h =>
    have hpan : (collectKeys s.tick batch.changes []).1 ≠ .panic :=
      collectKeys_ne_panic s.tick batch.changes .nil
    rw [h] at hpan
    exact absurd rfl hpan
  · exact .failed (closed_of_kept (hsta _ _) (invalidate_closed _ _))
  next keys _ =>
  dsimp only
  obtain ⟨hdel, hsort⟩ := applyChanges_sorted (batch.changes.filter (·.quantity = .delete)) hs
  split
  · next h =>
    rw [h] at hdel
    exact absurd rfl hdel
  · exact .failed (closed_of_kept (hsta _ _) (invalidate_closed _ _))
  next deleted hdele =>
  obtain ⟨hedi, -⟩ := applyChanges_sorted (batch.changes.filter (·.quantity ≠ .delete))
    (hsort deleted hdele)
  split
  · next h =>
    rw [h] at hedi
    exact absurd rfl hedi
  · exact .failed (closed_of_kept (hsta _ _) (invalidate_closed _ _))
  split
  · exact .failed (closed_of_kept (hsta _ _) (invalidate_closed _ _))
  · next h =>
    obtain ⟨hcan, htop⟩ := validateAndSortLevels_ok h
    exact .passed (hsta keys _) ⟨rfl, rfl, rfl⟩ ⟨⟨hcan, htop⟩, rfl⟩

/-! ### Effects -/

section

variable (s : PmBookReducer)

/-- Metadata are accepted: the book waits for a snapshot. -/
def withMetadata (observation : PmMetadataObservation) : PmBookReducer :=
  { s with
    metadataRevision := some observation.revision
    metadataReceiveNs := some observation.monotonicReceiveNs
    metadataValid := true
    bookReady := false
    snapshotRevision := none
    bookReceiveNs := none }

/-- An epoch starts: the book waits for a snapshot. -/
def withEpoch (epoch : ConnectionEpoch) : PmBookReducer :=
  { s with
    connectionEpoch := some epoch
    requiresReconnect := false
    lastIngressSequence := none
    bookReady := false
    snapshotRevision := none
    bookReceiveNs := none }

/-- A fault becomes pending, or is no longer. -/
def withPending (pending : Option PendingExternalBookFault) : PmBookReducer :=
  { s with
    bookReady := false
    pendingExternalFault := pending }

/-- A snapshot is committed. -/
def withSnapshot (evidence : PmBookBatchEvidence) (levels : List PmBookLevel) : PmBookReducer :=
  { s with
    levels := levels
    lastIngressSequence := some evidence.localIngressSequence
    snapshotRevision := some evidence.snapshotRevision
    lastCommittedSnapshotRevision := some evidence.snapshotRevision
    bookReceiveNs := some evidence.monotonicReceiveNs
    bookReady := true }

/-- A batch of price changes is committed. -/
def withDelta (evidence : PmBookBatchEvidence) (levels : List PmBookLevel) : PmBookReducer :=
  { s with
    levels := levels
    bookReceiveNs := some evidence.monotonicReceiveNs
    bookReady := true }

end

theorem Kept.withDelta (h : Kept s t) (evidence : PmBookBatchEvidence)
    (levels : List PmBookLevel) : Kept (s.withDelta evidence levels)
    (t.withDelta evidence levels) :=
  { h with bookReceiveNs := rfl, levels := rfl, bookReady := id }

/-- The proof of a commit repeats the evidence of the snapshot. -/
structure ProofOf (s : PmBookReducer) (evidence : PmBookBatchEvidence)
    (proof : PmSnapshotCommitProof) : Prop where
  instrument : proof.instrument = s.instrument
  fingerprint : proof.metadataFingerprint = s.expectedFingerprint
  epoch : proof.connectionEpoch = evidence.connectionEpoch
  metadata : proof.metadataRevision = evidence.metadataRevision
  revision : proof.snapshotRevision = evidence.snapshotRevision
  ingress : proof.localIngressSequence = evidence.localIngressSequence
  hash : evidence.venueHash = some proof.venueHash

/-- What a call can do. -/
inductive Effect (s : PmBookReducer) : Op → Reply Answer × PmBookReducer → Prop
  | failed {op : Op} {result : Reply Answer × PmBookReducer} (h : Closed s result) :
      Effect s op result
  | unauthorized {authority : PmPendingExternalBookFaultAuthority} {fault : PmExternalBookFault}
      (h : s.authorizes authority = false) :
      Effect s (.finalizePendingExternalFault authority fault) (.err s.reason, s)
  | finalized {authority : PmPendingExternalBookFaultAuthority} {fault : PmExternalBookFault}
      {result : Reply Answer × PmBookReducer} (h : Closed (s.withPending none) result) :
      Effect s (.finalizePendingExternalFault authority fault) result
  | confirmed {op : Op} {transition : PmBookTransition} {t : PmBookReducer}
      (hready : s.isReady = true)
      (htransition : transition = .topConfirmed ∨ transition = .freshnessConfirmed)
      (hkept : Kept s t) (hflags : SameFlags s t) :
      Effect s op (.ok (.transition transition), t)
  | metadata {observation : PmMetadataObservation} {t : PmBookReducer}
      (hpending : s.pendingExternalFault = none) (hkept : Kept (s.withMetadata observation) t) :
      Effect s (.applyMetadata observation)
        (.ok (.transition (.metadataAccepted observation.revision)), t)
  | epoch {epoch : ConnectionEpoch} {t : PmBookReducer} (hpending : s.pendingExternalFault = none)
      (hfollows : s.epochFollows epoch = true) (hkept : Kept (s.withEpoch epoch) t) :
      Effect s (.beginEpoch epoch) (.ok (.transition (.epochStarted epoch)), t)
  | pending {epoch : ConnectionEpoch} {fault : PmExternalBookFault}
      {authority : PmPendingExternalBookFaultAuthority} {pending : PendingExternalBookFault}
      {t : PmBookReducer} (hkept : Kept (s.withPending (some pending)) t) :
      Effect s (.beginPendingExternalFault epoch fault) (.ok (.authority authority), t)
  | snapshot {evidence : PmBookBatchEvidence} {snapshot : PmBookSnapshot}
      {levels : List PmBookLevel} {count : ℕ} {proof : PmSnapshotCommitProof} {t : PmBookReducer}
      (hpending : s.pendingExternalFault = none) (hvalid : s.EvidenceValid evidence)
      (hrevision : ∀ current ∈ s.lastCommittedSnapshotRevision, current < evidence.snapshotRevision)
      (hlevels : Committable s.tick levels) (hproof : s.ProofOf evidence proof)
      (hkept : Kept (s.withSnapshot evidence levels) t)
      (hflags : SameFlags (s.withSnapshot evidence levels) t) :
      Effect s (.applyUpdate evidence (.snapshot snapshot))
        (.ok (.transition (.snapshotCommitted evidence.snapshotRevision count proof)), t)
  | delta {evidence : PmBookBatchEvidence} {batch : PmBookDeltaBatch} {levels : List PmBookLevel}
      {count : ℕ} {t : PmBookReducer} (hready : s.isReady = true)
      (hlevels : Committable s.tick levels) (hkept : Kept (s.withDelta evidence levels) t)
      (hflags : SameFlags (s.withDelta evidence levels) t) :
      Effect s (.applyUpdate evidence (.deltaBatch batch))
        (.ok (.transition (.deltaBatchCommitted evidence.snapshotRevision count)), t)

/-- What the reducer relies on. -/
structure Inv (s : PmBookReducer) : Prop where
  canonical : Canonical s.tick s.levels
  /-- A book that is ready has a top, no pending fault, and the last committed snapshot. -/
  top : s.bookReady = true → ∃ top, canonicalTop s.levels = .ok top
  settled : s.bookReady = true → s.pendingExternalFault = none
  received : s.bookReady = true → s.bookReceiveNs.isSome = true
  committed : s.bookReady = true →
    s.snapshotRevision.isSome = true ∧ s.snapshotRevision = s.lastCommittedSnapshotRevision
  metadata : s.metadataValid = true → s.metadataReceiveNs.isSome = true

theorem Inv.of_kept (hs : s.Inv) (h : Kept s t) : t.Inv where
  canonical := by
    rw [tick, h.expectedContract, h.levels]
    exact hs.canonical
  top := fun hrdy => by
    rw [h.levels]
    exact hs.top (h.bookReady hrdy)
  settled := fun hrdy => h.pending.trans (hs.settled (h.bookReady hrdy))
  received := fun hrdy => by
    rw [h.bookReceiveNs]
    exact hs.received (h.bookReady hrdy)
  committed := fun hrdy => by
    rw [h.snapshotRevision, h.committed]
    exact hs.committed (h.bookReady hrdy)
  metadata := fun hval => by
    rw [h.metadataReceiveNs]
    exact hs.metadata (h.metadataValid hval)

theorem bookReady_of_pending (hs : s.Inv) (h : s.pendingExternalFault.isSome = true) :
    s.bookReady = false := by
  by_contra hrdy
  rw [Bool.not_eq_false] at hrdy
  rw [hs.settled hrdy] at h
  cases h

theorem closed_of_pending (hs : s.Inv) (h : s.pendingExternalFault.isSome = true)
    (reason : PmPublicReadinessReason) : Closed (α := α) s (.err reason, s) :=
  closed_here _ (isReady_of_bookReady (bookReady_of_pending hs h))

end PmBookReducer

end Reap.Book
