import Reap.Book.Spec
import Mathlib.Data.List.Chain

/-!
# The history of a book reducer

The reducer keeps the last committed snapshot, the current epoch and the last admitted ingress
sequence. What it guarantees is about all of them: the snapshots ever committed, the epochs ever
started, the sequences admitted in an epoch. A history records these beside the reducer, from the
answers of the calls.

## What is proved

* `exists_history_of_reach` — every run of the reducer has a history.
* `historyInv_of_reach` — the reducer and its history agree in every run.
-/

namespace Reap.Book

open Base Reap.Core PmBookReducer List

/-- A reducer with its past. -/
structure History where
  reducer : PmBookReducer
  /-- The proofs of the committed snapshots, newest first. -/
  commits : List PmSnapshotCommitProof
  /-- The epochs that were started, newest first. -/
  epochs : List ConnectionEpoch
  /-- The ingress sequences that were admitted in the current epoch. -/
  admitted : List IngressSequence
  /-- The epochs that a disconnect or a missed heartbeat has ended. -/
  severed : List ConnectionEpoch
  deriving DecidableEq

/-- The epoch that a call ends: the current one, by a fault that asks for a new connection. While
another fault is pending, no fault is taken. -/
def PmBookReducer.severedBy (s : PmBookReducer) : Op → Option ConnectionEpoch
  | .applyExternalFault epoch fault =>
    if s.pendingExternalFault = none ∧ s.connectionEpoch = some epoch ∧ needsReconnect fault = true then
      some epoch
    else none
  | _ => none

namespace History

/-- A reducer without a past. -/
def start (s : PmBookReducer) : History := ⟨s, [], [], [], []⟩

/-- The commits after a reply. -/
def commitsAfter (commits : List PmSnapshotCommitProof) : Reply Answer → List PmSnapshotCommitProof
  | .ok (.transition (.snapshotCommitted _ _ proof)) => proof :: commits
  | _ => commits

/-- The epochs after a reply. -/
def epochsAfter (epochs : List ConnectionEpoch) : Reply Answer → List ConnectionEpoch
  | .ok (.transition (.epochStarted epoch)) => epoch :: epochs
  | _ => epochs

/-- The admitted sequences after a call that left `last` as the last one. -/
def admittedAfter (admitted : List IngressSequence) (last : Option IngressSequence) :
    Op → Reply Answer → List IngressSequence
  | .beginEpoch _, .ok _ => []
  | .applyUpdate evidence _, _ =>
    if last = some evidence.localIngressSequence then evidence.localIngressSequence :: admitted
    else admitted
  | _, _ => admitted

/-- The history after a call. -/
def after (h : History) (op : Op) (result : Reply Answer × PmBookReducer) : History where
  reducer := result.2
  commits := commitsAfter h.commits result.1
  epochs := epochsAfter h.epochs result.1
  admitted := admittedAfter h.admitted result.2.lastIngressSequence op result.1
  severed := (h.reducer.severedBy op).toList ++ h.severed

/-- Run one call and record it. -/
def step (op : Op) (h : History) : Option History :=
  (PmBookReducer.step op h.reducer).map fun _ => h.after op (PmBookReducer.call op h.reducer)

variable {h h' : History} {op : Op} {s s₀ : PmBookReducer}

theorem step_eq (hstep : step op h = some h') :
    h' = h.after op (PmBookReducer.call op h.reducer) := by
  obtain ⟨_, -, rfl⟩ := Option.map_eq_some_iff.mp hstep
  rfl

/-- **Every run has a history.** -/
theorem exists_history_of_reach (hrch : Reach PmBookReducer.step anyCall s₀ s) :
    ∃ h, Reach step anyCall (start s₀) h ∧ h.reducer = s := by
  induction hrch with
  | refl => exact ⟨start s₀, .refl, rfl⟩
  | @tail s t _ hlast ih =>
    obtain ⟨h, hrch, rfl⟩ := ih
    obtain ⟨op, -, hstep⟩ := hlast
    refine ⟨h.after op (call op h.reducer), hrch.tail ⟨op, trivial, ?_⟩, ?_⟩
    · rw [step, hstep]
      rfl
    · exact (Outcome.next_eq_some.mp hstep).2

/-! ### Consecutive epochs -/

/-- The epoch follows the other without a gap. -/
def Follows (later earlier : ConnectionEpoch) : Prop :=
  later.value.toNat = earlier.value.toNat + 1

variable {epoch : ConnectionEpoch} {t : PmBookReducer}

theorem follows_of_epochFollows {current : ConnectionEpoch}
    (hcur : s.connectionEpoch = some current) (h : s.epochFollows epoch = true) :
    Follows epoch current := by
  simp only [epochFollows, hcur, Bool.and_eq_true, bne_iff_ne, ne_eq, beq_iff_eq] at h
  obtain ⟨hmax, hval⟩ := h
  have hne : current.value.toNat ≠ 0xFFFFFFFFFFFFFFFF := by
    intro heq
    exact hmax (UInt64.toNat_inj.mp heq)
  have hlt := current.value.toNat_lt
  rw [Follows, hval, UInt64.toNat_add]
  simp only [UInt64.toNat_one]
  omega

variable {epochs : List ConnectionEpoch}

/-- Epochs that follow each other decrease along the list. -/
theorem pairwise_of_isChain (h : epochs.IsChain Follows) : epochs.Pairwise (· > ·) :=
  isChain_iff_pairwise.mp (h.imp fun _ _ hfol => (Nat.lt_succ_self _).trans_eq hfol.symm)

/-! ### The invariant -/

/-- The reducer agrees with its history. -/
structure Inv (h : History) : Prop where
  reducer : h.reducer.Inv
  /-- The last committed revision bounds every committed one. -/
  committed : ∀ proof ∈ h.commits,
    ∃ last ∈ h.reducer.lastCommittedSnapshotRevision, proof.snapshotRevision ≤ last
  /-- The book is the newest committed snapshot, with the changes since. -/
  current : h.reducer.bookReady = true → ∃ proof ∈ h.commits.head?,
    h.reducer.connectionEpoch = some proof.connectionEpoch ∧
      h.reducer.metadataRevision = some proof.metadataRevision ∧
      h.reducer.snapshotRevision = some proof.snapshotRevision
  epoch : h.epochs.head? = h.reducer.connectionEpoch
  chain : h.epochs.IsChain Follows
  admitted : ∀ sequence ∈ h.admitted, ∃ last ∈ h.reducer.lastIngressSequence, sequence ≤ last
  severed : ∀ epoch ∈ h.severed, epoch ∈ h.epochs ∧
    (h.reducer.connectionEpoch = some epoch → h.reducer.requiresReconnect = true)

theorem inv_start (hs : s.Inv) (hrdy : s.bookReady = false) (hep : s.connectionEpoch = none) :
    (start s).Inv where
  reducer := hs
  committed := fun _ hmem => absurd hmem not_mem_nil
  current := fun h => by cases hrdy.symm.trans h
  epoch := hep.symm
  chain := .nil
  admitted := fun _ hmem => absurd hmem not_mem_nil
  severed := fun _ hmem => absurd hmem not_mem_nil

/-- A fault that ends the epoch asks for a new connection. -/
theorem requiresReconnect_of_severedBy (h : s.severedBy op = some epoch) :
    s.connectionEpoch = some epoch ∧ (call op s).2.requiresReconnect = true := by
  cases op with
  | applyExternalFault _ fault =>
    simp only [severedBy] at h
    split_ifs at h with hsev
    obtain ⟨hpend, hep, hrec⟩ := hsev
    cases h
    refine ⟨hep, ?_⟩
    have hkept : PmBookReducer.Kept _ (invalidate (α := PmBookTransition)
          { s.count (countFault fault) with
            requiresReconnect := s.requiresReconnect || needsReconnect fault }
          (faultReason fault)).2 :=
      (invalidate_closed _ _).kept
    simp only [call, applyExternalFault, hpend, Option.isSome_none,
      Bool.false_eq_true, if_false, applyExternalFaultFinal, hep, ne_eq,
      not_true_eq_false]
    refine hkept.reconnect ?_
    simp [hrec]
  | _ => cases h

/-! ### One call -/

/-- No epoch starts. -/
structure Continues (s t : PmBookReducer) : Prop where
  epoch : t.connectionEpoch = s.connectionEpoch
  reconnect : s.requiresReconnect = true → t.requiresReconnect = true
  ingress : PmBookReducer.Advances s.lastIngressSequence t.lastIngressSequence

/-- No snapshot is committed, and a book that is available is the same one. -/
structure SameSnapshot (s t : PmBookReducer) : Prop where
  committed : t.lastCommittedSnapshotRevision = s.lastCommittedSnapshotRevision
  current : t.bookReady = true → s.bookReady = true ∧ t.connectionEpoch = s.connectionEpoch ∧
    t.metadataRevision = s.metadataRevision ∧ t.snapshotRevision = s.snapshotRevision

theorem Continues.of_kept (h : PmBookReducer.Kept s t) : Continues s t :=
  { h with epoch := h.connectionEpoch }

theorem SameSnapshot.of_kept (h : PmBookReducer.Kept s t) : SameSnapshot s t :=
  ⟨h.committed, fun hrdy =>
    ⟨h.bookReady hrdy, h.connectionEpoch, h.metadataRevision, h.snapshotRevision⟩⟩

/-- A book that is not available is no other one. -/
theorem SameSnapshot.of_unready {u : PmBookReducer} (h : PmBookReducer.Kept t u)
    (hcom : t.lastCommittedSnapshotRevision = s.lastCommittedSnapshotRevision)
    (hrdy : t.bookReady = false) : SameSnapshot s u :=
  ⟨h.committed.trans hcom, fun hu => by cases hrdy.symm.trans (h.bookReady hu)⟩

section

variable (hh : h.Inv)

include hh

theorem admitted_after {last : Option IngressSequence} (reply : Reply Answer)
    (hlast : PmBookReducer.Advances h.reducer.lastIngressSequence last) :
    ∀ sequence ∈ admittedAfter h.admitted last op reply, ∃ l ∈ last, sequence ≤ l := by
  have hold : ∀ sequence ∈ h.admitted, ∃ l ∈ last, sequence ≤ l := by
    intro sequence hmem
    obtain ⟨l, hl, hle⟩ := hh.admitted sequence hmem
    obtain ⟨l', hl', hle'⟩ := hlast l hl
    exact ⟨l', hl', hle.trans hle'⟩
  unfold admittedAfter
  split
  · exact fun _ hmem => absurd hmem not_mem_nil
  · split_ifs with htak
    · intro sequence hmem
      rcases mem_cons.mp hmem with rfl | hmem
      · exact ⟨_, htak, le_refl _⟩
      · exact hold sequence hmem
    · exact hold
  · exact hold

omit hh in
theorem mem_epochsAfter (reply : Reply Answer) (h : epoch ∈ epochs) :
    epoch ∈ epochsAfter epochs reply := by
  unfold epochsAfter
  split
  · exact .tail _ h
  · exact h

variable {reply : Reply Answer} (hcall : call op h.reducer = (reply, t))

include hcall

/-- What a call keeps that starts no epoch. -/
theorem Inv.after_of_continues (hcon : Continues h.reducer t)
    (hepo : epochsAfter h.epochs reply = h.epochs) (hcom : ∀ proof ∈ commitsAfter h.commits reply,
      ∃ last ∈ t.lastCommittedSnapshotRevision, proof.snapshotRevision ≤ last)
    (hcur : t.bookReady = true → ∃ proof ∈ (commitsAfter h.commits reply).head?,
      t.connectionEpoch = some proof.connectionEpoch ∧
        t.metadataRevision = some proof.metadataRevision ∧
        t.snapshotRevision = some proof.snapshotRevision) : (h.after op (reply, t)).Inv where
  reducer := inv_of_effect hh.reducer (hcall ▸ call_effect hh.reducer op)
  committed := hcom
  current := hcur
  epoch := by
    simp [after, hepo, hh.epoch, hcon.epoch]
  chain := by
    simp only [after, hepo]
    exact hh.chain
  admitted := admitted_after hh _ hcon.ingress
  severed := by
    intro epoch hmem
    rcases mem_append.mp hmem with hmem | hmem
    · have hsev := Option.mem_toList.mp hmem
      obtain ⟨hcur, hrec⟩ := requiresReconnect_of_severedBy hsev
      rw [hcall] at hrec
      exact ⟨mem_epochsAfter _ (mem_of_head? (hh.epoch.trans hcur)), fun _ => hrec⟩
    · obtain ⟨hep, hrec⟩ := hh.severed epoch hmem
      exact ⟨mem_epochsAfter _ hep, fun hcur =>
        hcon.reconnect (hrec (hcon.epoch.symm.trans hcur))⟩

/-- What a call keeps that starts no epoch and commits no snapshot. -/
theorem Inv.after_of_sameSnapshot (hcon : Continues h.reducer t)
    (hsna : SameSnapshot h.reducer t) (hepo : epochsAfter h.epochs reply = h.epochs)
    (hcom : commitsAfter h.commits reply = h.commits) : (h.after op (reply, t)).Inv := by
  refine hh.after_of_continues hcall hcon hepo ?_ ?_
  · rw [hcom, hsna.committed]
    exact hh.committed
  · intro hrdy
    obtain ⟨hbef, hep, hmet, hrev⟩ := hsna.current hrdy
    rw [hcom, hep, hmet, hrev]
    exact hh.current hbef

omit hcall

/-- An epoch starts. -/
theorem Inv.after_epoch (hcall : call (.beginEpoch epoch) h.reducer =
      (.ok (.transition (.epochStarted epoch)), t)) (hfol : h.reducer.epochFollows epoch = true)
    (hkept : PmBookReducer.Kept (h.reducer.withEpoch epoch) t) :
    (h.after (.beginEpoch epoch) (.ok (.transition (.epochStarted epoch)), t)).Inv := by
  have hrdy : t.bookReady = true → False := fun h => nomatch hkept.bookReady h
  have hlat : ∀ earlier ∈ h.epochs.head?, Follows epoch earlier := by
    intro earlier hear
    exact follows_of_epochFollows (hh.epoch.symm.trans hear) hfol
  have hch : (epoch :: h.epochs).IsChain Follows := hh.chain.cons hlat
  refine ⟨inv_of_effect hh.reducer (hcall ▸ call_effect hh.reducer (.beginEpoch epoch)), ?_,
    fun h => (hrdy h).elim, hkept.connectionEpoch.symm, hch, ?_, ?_⟩
  · intro proof hmem
    obtain ⟨last, hlast, hle⟩ := hh.committed proof hmem
    exact ⟨last, hkept.committed.trans hlast, hle⟩
  · exact fun _ hmem => absurd hmem not_mem_nil
  · intro earlier hmem
    obtain ⟨hear, -⟩ := hh.severed earlier hmem
    refine ⟨.tail _ hear, fun hcur => ?_⟩
    -- the new epoch is after every earlier one
    have hgt := (pairwise_cons.mp (pairwise_of_isChain hch)).1 earlier hear
    cases hkept.connectionEpoch.symm.trans hcur
    exact absurd hgt (lt_irrefl _)

/-- A snapshot is committed. -/
theorem Inv.after_snapshot {evidence : PmBookBatchEvidence} {levels : List PmBookLevel} {count : ℕ}
    {proof : PmSnapshotCommitProof} (hcall : call op h.reducer =
      (.ok (.transition (.snapshotCommitted evidence.snapshotRevision count proof)), t))
    (hval : h.reducer.EvidenceValid evidence)
    (hrev : ∀ current ∈ h.reducer.lastCommittedSnapshotRevision,
      current < evidence.snapshotRevision) (hpro : h.reducer.ProofOf evidence proof)
    (hkept : PmBookReducer.Kept (h.reducer.withSnapshot evidence levels) t) : (h.after op
      (.ok (.transition (.snapshotCommitted evidence.snapshotRevision count proof)), t)).Inv := by
  refine hh.after_of_continues hcall ?_ rfl ?_ ?_
  · refine ⟨hkept.connectionEpoch, hkept.reconnect, fun last hlast => ?_⟩
    obtain ⟨next, hnext, hle⟩ := hkept.ingress _ rfl
    exact ⟨next, hnext, (hval.ingress last hlast).le.trans hle⟩
  · intro committed hmem
    refine ⟨evidence.snapshotRevision, hkept.committed, ?_⟩
    rcases mem_cons.mp hmem with rfl | hmem
    · exact hpro.revision.le
    · obtain ⟨last, hlast, hle⟩ := hh.committed committed hmem
      exact hle.trans (hrev last hlast).le
  · intro _
    refine ⟨proof, rfl, hkept.connectionEpoch.trans (hval.epoch.trans ?_),
      hkept.metadataRevision.trans (hval.revision.trans ?_), hkept.snapshotRevision.trans ?_⟩
    · rw [hpro.epoch]
    · rw [hpro.metadata]
    · rw [hpro.revision]
      rfl

/-- **The step.** Every call keeps the history's invariant. -/
theorem Inv.after (op : Op) : (h.after op (call op h.reducer)).Inv := by
  have heff := call_effect hh.reducer op
  have herr {reply : Reply Answer} (h' : ∃ reason, reply = .err reason) :
      epochsAfter h.epochs reply = h.epochs ∧ commitsAfter h.commits reply = h.commits := by
    obtain ⟨_, rfl⟩ := h'
    exact ⟨rfl, rfl⟩
  generalize hcall : call op h.reducer = result at heff
  cases heff with
  | failed hclo =>
    exact hh.after_of_sameSnapshot hcall (.of_kept hclo.kept) (.of_kept hclo.kept)
      (herr hclo.err).1 (herr hclo.err).2
  | unauthorized =>
    exact hh.after_of_sameSnapshot hcall (.of_kept (.refl _)) (.of_kept (.refl _)) rfl rfl
  | finalized hclo =>
    have hkept := hclo.kept
    exact hh.after_of_sameSnapshot hcall { hkept with epoch := hkept.connectionEpoch }
      (.of_unready hkept rfl rfl) (herr hclo.err).1 (herr hclo.err).2
  | confirmed _ htra hkept =>
    refine hh.after_of_sameSnapshot hcall (.of_kept hkept) (.of_kept hkept) ?_ ?_
    · rcases htra with rfl | rfl <;> rfl
    · rcases htra with rfl | rfl <;> rfl
  | metadata _ hkept =>
    exact hh.after_of_sameSnapshot hcall { hkept with epoch := hkept.connectionEpoch }
      (.of_unready hkept rfl rfl) rfl rfl
  | epoch _ hfol hkept => exact hh.after_epoch hcall hfol hkept
  | pending hkept =>
    exact hh.after_of_sameSnapshot hcall { hkept with epoch := hkept.connectionEpoch }
      (.of_unready hkept rfl rfl) rfl rfl
  | snapshot _ hval hrev _ hpro hkept =>
    exact hh.after_snapshot hcall hval hrev hpro hkept
  | delta hrdy _ hkept =>
    refine hh.after_of_sameSnapshot hcall { hkept with epoch := hkept.connectionEpoch } ?_ rfl rfl
    exact ⟨hkept.committed, fun _ => ⟨(isReady_iff.mp hrdy).2.2.2.1,
      hkept.connectionEpoch, hkept.metadataRevision, hkept.snapshotRevision⟩⟩

end

section

variable {authorityId : UInt64} {instrument : PmInstrumentHandle}
  {fingerprint : PmMetadataFingerprint} {contract : PmMetadataContract} {freshness : PmBookFreshness}

section

variable (hnew : new authorityId instrument fingerprint contract freshness = .ok s₀)

include hnew

theorem new_fields :
    s₀.bookReady = false ∧ s₀.connectionEpoch = none ∧ s₀.expectedContract = contract := by
  unfold new at hnew
  split at hnew
  · cases hnew
  · cases hnew
    exact ⟨rfl, rfl, rfl⟩

/-- **The run.** The reducer agrees with its history in every run. -/
theorem historyInv_of_reach (hrch : Reach step anyCall (start s₀) h) : h.Inv := by
  obtain ⟨hrdy, hep, -⟩ := new_fields hnew
  refine hrch.invariant (P := Inv) (inv_start (inv_new hnew) hrdy hep) ?_
  intro h op h' hh _ hstep
  rw [step_eq hstep]
  exact hh.after op

end

/-- The contract is fixed. -/
theorem contract_of_effect {result : Reply Answer × PmBookReducer}
    (heff : PmBookReducer.Effect s op result) : result.2.expectedContract = s.expectedContract := by
  cases heff with
  | failed hclo => exact hclo.kept.expectedContract
  | unauthorized => rfl
  | finalized hclo => exact hclo.kept.expectedContract
  | confirmed _ _ hkept => exact hkept.expectedContract
  | metadata _ hkept => exact hkept.expectedContract
  | epoch _ _ hkept => exact hkept.expectedContract
  | pending hkept => exact hkept.expectedContract
  | snapshot _ _ _ _ _ hkept => exact hkept.expectedContract
  | delta _ _ hkept => exact hkept.expectedContract

theorem contract_of_reach
    (hnew : new authorityId instrument fingerprint contract freshness = .ok s₀)
    (hrch : Reach step anyCall (start s₀) h) : h.reducer.expectedContract = contract := by
  refine hrch.invariant_of (P := fun h => h.reducer.expectedContract = contract)
    (fun _ => historyInv_of_reach hnew) (new_fields hnew).2.2 ?_
  intro h op h' hh hcon _ hstep
  rw [step_eq hstep]
  exact (contract_of_effect (call_effect hh.reducer op)).trans hcon

end

end History

end Reap.Book
