import Reap.Core.Numeric
import Mathlib.Data.List.MinMax
import Mathlib.Data.List.Chain
import Mathlib.Data.List.Perm.Basic
import Mathlib.Data.Prod.Lex

/-!
# The sequence tracker of an order book feed

An exchange numbers the updates of a book: each update names the number of the update before it.
Numbers may repeat and may go backwards. `SequenceTracker` decides which updates may be applied. It
starts from a snapshot, lets every update through that continues the last one, and buffers the
others until a new snapshot arrives. The buffered updates are then linked up greedily; what cannot
be linked asks for another snapshot.

    Ready ──gap──▶ Recovering ──snapshot, all buffered updates link up──▶ Ready

Identifiers and times are compared and never computed with, so they are plain numbers here. `none`
is a panic: an `expect` that fails.

## What is proved

* `onUpdate_answers` — what a call returns and leaves, by the kind of its answer.
* `onUpdate_subset` — a tracker applies nothing but what it was given.
* `calls_unbroken` — over every sequence of calls, the applied updates form an unbroken chain.
* `snapshot_recovers_iff` — which snapshots of a buffered chain end the recovery.
-/

namespace Reap.Feed

open Reap.Core List Option

/-- Whether an update replaces the book or changes it. -/
inductive BookAction where
  | snapshot
  | update
  deriving DecidableEq, Repr

/-- `SequencedBookUpdate`, with price levels of any kind. -/
structure SequencedBookUpdate (Level : Type) where
  action : BookAction
  symbol : String
  tsMs : ℕ
  prevSeqId : ℤ
  seqId : ℤ
  bids : List Level
  asks : List Level
  deriving DecidableEq

/-- Whether a tracker has a book to continue. -/
inductive SequenceStatus where
  /-- No snapshot has arrived. -/
  | empty
  | ready
  /-- Updates wait for a snapshot. -/
  | recovering
  deriving DecidableEq, Repr

/-- The answer to an update. -/
inductive SequenceOutcome (Level : Type) where
  /-- Apply these updates, in this order. -/
  | apply (updates : List (SequencedBookUpdate Level))
  /-- A snapshot older than the book. -/
  | duplicate
  /-- A snapshot is needed, because of this update. -/
  | recoveryRequired (expectedPrev : Option ℤ) (receivedPrev receivedSeq : ℤ)
  /-- The update waits for a snapshot. -/
  | buffered
  /-- Too many updates wait; they are all dropped. -/
  | recoveryFailed (reason : String)
  deriving DecidableEq

/-- `SequenceTracker`. -/
structure SequenceTracker (Level : Type) where
  status : SequenceStatus := .empty
  /-- The number of the last applied update. -/
  lastSeqId : Option ℤ := none
  lastTsMs : Option ℕ := none
  /-- The updates that wait, in the order of arrival. -/
  buffered : List (SequencedBookUpdate Level) := []
  maxBuffered : ℕ
  /-- How often the numbers went backwards. -/
  resetCount : UInt64 := 0
  /-- How often a number was repeated. -/
  sameSequenceCount : UInt64 := 0
  deriving DecidableEq

variable {Level : Type}

namespace SequenceTracker

/-- A buffer holds at least one update. -/
def new (maxBuffered : ℕ) : SequenceTracker Level := { maxBuffered := max maxBuffered 1 }

variable (t : SequenceTracker Level) (update : SequencedBookUpdate Level)

/-- `require_recovery`. -/
def requireRecovery : SequenceTracker Level := { t with status := .recovering, buffered := [] }

/-- Go on to the next number. -/
def recordContiguousTransition (previous next : ℤ) (tsMs : ℕ) : SequenceTracker Level :=
  { t with
    lastSeqId := some next
    lastTsMs := some tsMs
    resetCount := if next < previous then bump t.resetCount else t.resetCount
    sameSequenceCount :=
      if next = previous then bump t.sameSequenceCount else t.sameSequenceCount }

/-- Add an update to the buffer, or drop a full buffer. -/
def buffer : Except String Unit × SequenceTracker Level :=
  if t.maxBuffered ≤ t.buffered.length then
    (.error s!"sequence recovery buffer exceeded {t.maxBuffered} updates",
      { t with buffered := [], status := .recovering })
  else
    (.ok (), { t with buffered := t.buffered ++ [update] })

/-- The update that continues number `last`, with its position: the earliest one, and among equally
early ones the first that repeats the number, or else the first. -/
def nextLink (last : ℤ) (pending : List (SequencedBookUpdate Level)) :
    Option (SequencedBookUpdate Level × ℕ) :=
  (pending.zipIdx.filter fun entry => entry.1.prevSeqId = last).argmin
    fun entry => toLex (entry.1.tsMs, decide (entry.1.seqId ≠ last))

/-- The loop of `on_snapshot`. Every round takes one update out of `pending`, so `pending.length`
rounds are enough. -/
def relink : ℕ → List (SequencedBookUpdate Level) → List (SequencedBookUpdate Level) →
    SequenceTracker Level →
    Option (List (SequencedBookUpdate Level) × List (SequencedBookUpdate Level) ×
      SequenceTracker Level)
  | 0, pending, applied, t => some (pending, applied, t)
  | rounds + 1, pending, applied, t => do
    let last ← t.lastSeqId
    match nextLink last pending with
    | none => some (pending, applied, t)
    | some (update, index) =>
      relink rounds (pending.eraseIdx index) (applied ++ [update])
        (t.recordContiguousTransition last update.seqId update.tsMs)

/-- The first update that repeats the numbers and the time of an earlier one. -/
def conflictingTransition : List (ℤ × ℤ × ℕ) → List (SequencedBookUpdate Level) → Option (ℤ × ℤ)
  | _, [] => none
  | seen, u :: rest =>
    if (u.prevSeqId, u.seqId, u.tsMs) ∈ seen then some (u.prevSeqId, u.seqId)
    else conflictingTransition ((u.prevSeqId, u.seqId, u.tsMs) :: seen) rest

variable (snapshot : SequencedBookUpdate Level)

/-- The tracker with a snapshot as its new start, and nothing buffered. -/
def started : SequenceTracker Level :=
  { t with
    lastSeqId := some snapshot.seqId
    lastTsMs := some snapshot.tsMs
    buffered := []
    resetCount := if t.lastSeqId.any fun last => snapshot.seqId < last then bump t.resetCount
      else t.resetCount }

/-- The buffered updates that are not older than a snapshot. -/
def retained : List (SequencedBookUpdate Level) :=
  t.buffered.filter fun u => snapshot.tsMs ≤ u.tsMs

/-- `on_snapshot`, from the point where the snapshot is taken as the new start. -/
def restart : Option (SequenceOutcome Level × SequenceTracker Level) :=
  match conflictingTransition [] (t.retained snapshot) with
  | some (receivedPrev, receivedSeq) =>
    some (.recoveryRequired (some snapshot.seqId) receivedPrev receivedSeq,
      { t.started snapshot with buffered := t.retained snapshot, status := .recovering })
  | none => do
    let (pending, applied, linked) ←
      relink (t.retained snapshot).length (t.retained snapshot) [snapshot] (t.started snapshot)
    let last ← linked.lastSeqId
    match pending with
    | first :: _ =>
      some (.recoveryRequired (some last) first.prevSeqId first.seqId,
        { linked with buffered := pending, status := .recovering })
    | [] => some (.apply applied, { linked with status := .ready })

/-- A tracker that is ready ignores a snapshot older than its book. -/
def onSnapshot : Option (SequenceOutcome Level × SequenceTracker Level) :=
  if t.status = .ready ∧ (t.lastTsMs.any fun last => snapshot.tsMs < last) then
    some (.duplicate, t)
  else
    t.restart snapshot

/-- An update that does not continue the last one: it is buffered, and a snapshot is asked for. -/
def interrupt (expectedPrev : Option ℤ) : SequenceOutcome Level × SequenceTracker Level :=
  match t.buffer update with
  | (.error reason, t) => (.recoveryFailed reason, t)
  | (.ok (), t) =>
    (.recoveryRequired expectedPrev update.prevSeqId update.seqId, { t with status := .recovering })

/-- `on_update`. -/
def onUpdate : Option (SequenceOutcome Level × SequenceTracker Level) :=
  if update.action = .snapshot then t.onSnapshot update
  else
    match t.status with
    | .empty => some (t.interrupt update none)
    | .ready => do
      let last ← t.lastSeqId
      if update.prevSeqId = last then
        some (.apply [update], t.recordContiguousTransition last update.seqId update.tsMs)
      else
        some (t.interrupt update (some last))
    | .recovering =>
      match t.buffer update with
      | (.ok (), t) => some (.buffered, t)
      | (.error reason, t) => some (.recoveryFailed reason, t)

end SequenceTracker

open SequenceTracker

/-! ### What a call answers -/

/-- An update that may be applied after another: a snapshot, or its continuation. -/
def Continues (before after : SequencedBookUpdate Level) : Prop :=
  after.action = .snapshot ∨ after.prevSeqId = before.seqId

/-- A tracker with an applied history: the buffer fits, and a tracker that is ready waits for
nothing and knows the number of the last applied update. -/
structure Tracks (t : SequenceTracker Level) (last : Option (SequencedBookUpdate Level)) :
    Prop where
  fits : t.buffered.length ≤ t.maxBuffered
  drained : t.status = .ready → t.buffered = []
  current : t.status = .ready → ∃ u, last = some u ∧ t.lastSeqId = some u.seqId

/-- What a call leaves, by its answer. -/
def Answers (t : SequenceTracker Level) (update : SequencedBookUpdate Level)
    (t' : SequenceTracker Level) : SequenceOutcome Level → Prop
  | .apply updates =>
    t'.status = .ready ∧ updates.IsChain Continues ∧ Tracks t' updates.getLast? ∧
      ((update.action = .snapshot ∧ updates.head? = some update) ∨
        (t.status = .ready ∧ updates = [update] ∧ t.lastSeqId = some update.prevSeqId))
  | .duplicate => t' = t
  | .buffered =>
    t.status = .recovering ∧ t'.status = .recovering ∧ t'.buffered.length ≤ t'.maxBuffered
  | .recoveryRequired .. | .recoveryFailed _ =>
    t'.status = .recovering ∧ t'.buffered.length ≤ t'.maxBuffered

section

variable {t : SequenceTracker Level} {update : SequencedBookUpdate Level}
  {last : Option (SequencedBookUpdate Level)}

theorem nextLink_mem {number : ℤ} {pending : List (SequencedBookUpdate Level)} {index : ℕ}
    (h : nextLink number pending = some (update, index)) :
    update.prevSeqId = number ∧ pending[index]? = some update := by
  have hmem := mem_filter.mp (argmin_mem h)
  exact ⟨of_decide_eq_true hmem.2, mem_zipIdx_iff_getElem?.mp hmem.1⟩

/-- The loop appends to a chain and keeps the number of its last update. -/
theorem relink_chain (rounds : ℕ) (pending : List (SequencedBookUpdate Level))
    {applied : List (SequencedBookUpdate Level)} (hch : applied.IsChain Continues)
    (hlast : ∃ u, applied.getLast? = some u ∧ t.lastSeqId = some u.seqId) :
    ∃ rest linked t', relink rounds pending applied t = some (rest, linked, t') ∧
      linked.IsChain Continues ∧ linked.head? = applied.head? ∧
      (∃ u, linked.getLast? = some u ∧ t'.lastSeqId = some u.seqId) ∧
      rest.length ≤ pending.length ∧ t'.buffered = t.buffered ∧ t'.maxBuffered = t.maxBuffered := by
  induction rounds generalizing pending applied t with
  | zero => exact ⟨pending, applied, t, rfl, hch, rfl, hlast, le_rfl, rfl, rfl⟩
  | succ _ ih =>
    obtain ⟨u, hu, hnum⟩ := hlast
    cases hnext : nextLink u.seqId pending with
    | none =>
      exact ⟨pending, applied, t, by simp [relink, hnum, hnext], hch, rfl, ⟨u, hu, hnum⟩,
        le_rfl, rfl, rfl⟩
    | some entry =>
      obtain ⟨next, index⟩ := entry
      have hprev := (nextLink_mem hnext).1
      have happ : (applied ++ [next]).IsChain Continues := by
        refine isChain_append.mpr ⟨hch, .singleton _, ?_⟩
        intro a ha b hb
        obtain rfl : u = a := some.inj (hu.symm.trans ha)
        obtain rfl : next = b := by simpa using hb
        exact .inr hprev
      obtain ⟨rest, linked, t', hrun, hlin, hhead, hcur, hlen, hbuf, hmax⟩ :=
        ih (t := t.recordContiguousTransition u.seqId next.seqId next.tsMs) (pending.eraseIdx index)
          happ ⟨next, by simp, rfl⟩
      have hne : applied ≠ [] := by
        rintro rfl
        cases hu
      refine ⟨rest, linked, t', by simpa [relink, hnum, hnext] using hrun, hlin,
        hhead.trans (head?_append_of_ne_nil _ hne), hcur, ?_, hbuf, hmax⟩
      exact hlen.trans (length_eraseIdx_le ..)

/-- A snapshot that is taken as the new start. -/
theorem restart_answers (hfits : t.buffered.length ≤ t.maxBuffered)
    (hsna : update.action = .snapshot) :
    ∃ outcome t', t.restart update = some (outcome, t') ∧ Answers t update t' outcome ∧
      t'.maxBuffered = t.maxBuffered := by
  have hret : (t.retained update).length ≤ t.maxBuffered := (length_filter_le ..).trans hfits
  unfold restart
  cases hcon : conflictingTransition [] (t.retained update) with
  | some =>
    refine ⟨_, _, rfl, ?_, rfl⟩
    exact ⟨rfl, hret⟩
  | none =>
    obtain ⟨rest, linked, t', hrun, hlin, hhead, ⟨u, hu, hnum⟩, hlen, hbuf, hmax⟩ :=
      relink_chain (t := t.started update) (t.retained update).length (t.retained update)
        (.singleton update) ⟨update, rfl, rfl⟩
    simp only [hrun, bind_eq_bind, bind_some, hnum]
    cases rest with
    | nil =>
      refine ⟨_, _, rfl, ?_, hmax⟩
      refine ⟨rfl, hlin, ⟨?_, fun _ => hbuf, fun _ => ⟨u, hu, rfl⟩⟩, .inl ⟨hsna, hhead⟩⟩
      simp [hbuf, started]
    | cons =>
      refine ⟨_, _, rfl, ?_, hmax⟩
      exact ⟨rfl, (hlen.trans hret).trans_eq hmax.symm⟩

/-- A buffer never holds more than it may. -/
theorem buffer_fits (t : SequenceTracker Level) (update : SequencedBookUpdate Level) :
    (t.buffer update).2.buffered.length ≤ (t.buffer update).2.maxBuffered := by
  unfold buffer
  split_ifs with hfull
  · exact Nat.zero_le _
  · simp only [length_append, length_singleton]
    omega

theorem interrupt_answers (expectedPrev : Option ℤ) :
    Answers t update (t.interrupt update expectedPrev).2 (t.interrupt update expectedPrev).1 ∧
      (t.interrupt update expectedPrev).2.maxBuffered = t.maxBuffered := by
  have hbuf := buffer_fits t update
  unfold interrupt
  unfold buffer at hbuf ⊢
  split_ifs at hbuf ⊢ with hfull
  · exact ⟨⟨rfl, hbuf⟩, rfl⟩
  · exact ⟨⟨rfl, hbuf⟩, rfl⟩

/-- **What a call answers.** No call panics, and none changes the bound of the buffer. -/
theorem onUpdate_answers (h : Tracks t last) (update : SequencedBookUpdate Level) :
    ∃ outcome t', t.onUpdate update = some (outcome, t') ∧ Answers t update t' outcome ∧
      t'.maxBuffered = t.maxBuffered := by
  unfold onUpdate
  split_ifs with hsna
  · unfold onSnapshot
    split_ifs with hold
    · exact ⟨.duplicate, t, rfl, rfl, rfl⟩
    · exact restart_answers h.fits hsna
  · cases hst : t.status with
    | empty => exact ⟨_, _, rfl, interrupt_answers none⟩
    | ready =>
      obtain ⟨u, hu, hnum⟩ := h.current hst
      simp only [hnum, bind_eq_bind, bind_some]
      split_ifs with hprev
      · refine ⟨.apply [update], _, rfl, ⟨hst, .singleton _,
          ⟨h.fits, h.drained, fun _ => ⟨update, rfl, rfl⟩⟩, .inr ⟨hst, rfl, hprev ▸ hnum⟩⟩, rfl⟩
      · exact ⟨_, _, rfl, interrupt_answers (some u.seqId)⟩
    | recovering =>
      have hbuf := buffer_fits t update
      unfold buffer at hbuf ⊢
      split_ifs at hbuf ⊢ with hfull
      · exact ⟨.recoveryFailed _, _, rfl, ⟨rfl, hbuf⟩, rfl⟩
      · exact ⟨.buffered, _, rfl, ⟨hst, hst, hbuf⟩, rfl⟩

end

/-! ### Where the updates come from -/

section

variable {t t' : SequenceTracker Level} {update : SequencedBookUpdate Level}

/-- The loop moves updates from those that wait to those that are applied. -/
theorem relink_perm (rounds : ℕ) {pending applied rest linked : List (SequencedBookUpdate Level)}
    (h : relink rounds pending applied t = some (rest, linked, t')) :
    (linked ++ rest).Perm (applied ++ pending) ∧ t'.buffered = t.buffered := by
  induction rounds generalizing pending applied t with
  | zero =>
    cases h
    exact ⟨.rfl, rfl⟩
  | succ _ ih =>
    cases hnum : t.lastSeqId with
    | none => simp [relink, hnum] at h
    | some number =>
      cases hnext : nextLink number pending with
      | none =>
        simp only [relink, hnum, hnext, bind_eq_bind, bind_some] at h
        cases h
        exact ⟨.rfl, rfl⟩
      | some entry =>
        obtain ⟨hidx, hget⟩ := List.getElem?_eq_some_iff.mp (nextLink_mem hnext).2
        simp only [relink, hnum, hnext, bind_eq_bind, bind_some] at h
        obtain ⟨hperm, hbuf⟩ := ih h
        refine ⟨hperm.trans ?_, hbuf⟩
        rw [List.append_assoc, List.singleton_append, ← hget]
        exact (List.getElem_cons_eraseIdx_perm hidx).append_left _

variable {outcome : SequenceOutcome Level}

/-- What a snapshot as the new start applies, or keeps waiting. -/
theorem restart_perm (h : t.restart update = some (outcome, t')) :
    t'.buffered ⊆ update :: t.retained update ∧ ∀ updates, outcome = .apply updates →
      t'.status = .ready ∧ updates.Perm (update :: t.retained update) := by
  unfold restart at h
  split at h
  · cases h
    exact ⟨subset_cons_self .., by rintro _ ⟨⟩⟩
  · cases hrun : relink (t.retained update).length (t.retained update) [update]
        (t.started update) with
    | none => simp [hrun] at h
    | some result =>
      obtain ⟨rest, linked, t₁⟩ := result
      obtain ⟨hperm, hbuf⟩ := relink_perm _ hrun
      simp only [hrun, bind_eq_bind, bind_some] at h
      cases hlast : t₁.lastSeqId with
      | none => simp [hlast] at h
      | some =>
        simp only [hlast, bind_some] at h
        cases rest with
        | cons =>
          cases h
          exact ⟨List.Subset.trans (subset_append_right ..) hperm.subset, by rintro _ ⟨⟩⟩
        | nil =>
          cases h
          refine ⟨by simp [hbuf, started], ?_⟩
          rintro _ ⟨⟩
          exact ⟨rfl, by simpa using hperm⟩

theorem buffer_subset (t : SequenceTracker Level) (update : SequencedBookUpdate Level) :
    (t.buffer update).2.buffered ⊆ update :: t.buffered := by
  unfold buffer
  split_ifs
  · exact nil_subset _
  · simp

theorem interrupt_subset {expectedPrev : Option ℤ}
    (h : t.interrupt update expectedPrev = (outcome, t')) : t'.buffered ⊆ update :: t.buffered ∧
      ∀ updates, outcome = .apply updates → updates ⊆ update :: t.buffered := by
  have hbuf := buffer_subset t update
  unfold interrupt at h
  split at h
  all_goals
    rename_i heq
    cases h
    rw [heq] at hbuf
    exact ⟨hbuf, by rintro _ ⟨⟩⟩

/-- A tracker waits with, and applies, nothing but what it was given. -/
theorem onUpdate_subset (h : t.onUpdate update = some (outcome, t')) :
    t'.buffered ⊆ update :: t.buffered ∧
      ∀ updates, outcome = .apply updates → updates ⊆ update :: t.buffered := by
  have hkept : t.buffered ⊆ update :: t.buffered := subset_cons_self ..
  have hbuf := buffer_subset t update
  unfold onUpdate at h
  split_ifs at h with hsna
  · unfold onSnapshot at h
    split_ifs at h
    · cases h
      exact ⟨hkept, by rintro _ ⟨⟩⟩
    · have hret : update :: t.retained update ⊆ update :: t.buffered :=
        cons_subset_cons _ (filter_sublist ..).subset
      obtain ⟨hbuff, happ⟩ := restart_perm h
      exact ⟨List.Subset.trans hbuff hret, fun updates hupd =>
        List.Subset.trans (happ updates hupd).2.subset hret⟩
  · split at h
    · exact interrupt_subset (some.inj h)
    · cases hlast : t.lastSeqId with
      | none => simp [hlast] at h
      | some =>
        simp only [hlast, bind_eq_bind, bind_some] at h
        split_ifs at h
        · cases h
          refine ⟨hkept, ?_⟩
          rintro _ ⟨⟩
          simp
        · exact interrupt_subset (some.inj h)
    · split at h
      all_goals
        rename_i heq
        cases h
        rw [heq] at hbuf
        exact ⟨hbuf, by rintro _ ⟨⟩⟩

end

/-! ### A snapshot of a buffered chain -/

/-- The updates of a book, in order and with none missing. -/
structure TrueChain (updates : List (SequencedBookUpdate Level)) : Prop where
  links : updates.IsChain fun before after => after.prevSeqId = before.seqId
  distinct : (updates.map SequencedBookUpdate.seqId).Nodup
  ordered : updates.Pairwise fun before after => before.tsMs ≤ after.tsMs
  action : ∀ u ∈ updates, u.action = .update

/-- The tracker after updates were handed to it. -/
def SequenceTracker.given (t : SequenceTracker Level) (updates : List (SequencedBookUpdate Level)) :
    Option (SequenceTracker Level) :=
  updates.foldlM (fun t u => (t.onUpdate u).map Prod.snd) t

section

variable {t : SequenceTracker Level} {snapshot : SequencedBookUpdate Level}
  {updates : List (SequencedBookUpdate Level)}

theorem given_spec (hst : t.status = .recovering) (hact : ∀ u ∈ updates, u.action = .update)
    (hfits : t.buffered.length + updates.length ≤ t.maxBuffered) :
    ∃ t', t.given updates = some t' ∧ t'.status = .recovering ∧
      t'.buffered = t.buffered ++ updates := by
  unfold given
  induction updates generalizing t with
  | nil => exact ⟨t, rfl, hst, by simp⟩
  | cons u _ ih =>
    obtain ⟨hu, hrest⟩ := forall_mem_cons.mp hact
    rw [length_cons] at hfits
    have hroom : ¬ t.maxBuffered ≤ t.buffered.length := by omega
    have hbuf : t.onUpdate u = some (.buffered, { t with buffered := t.buffered ++ [u] }) := by
      simp [onUpdate, buffer, hu, hst, hroom]
    rw [foldlM_cons, hbuf]
    have h := ih (t := { t with buffered := t.buffered ++ [u] }) hst hrest
      (by simp only [length_append, length_singleton]; omega)
    simpa using h

theorem conflictingTransition_of_nodup {seen : List (ℤ × ℤ × ℕ)}
    (hdis : (updates.map SequencedBookUpdate.seqId).Nodup)
    (hseen : ∀ e ∈ seen, ∀ u ∈ updates, e.2.1 ≠ u.seqId) :
    conflictingTransition seen updates = none := by
  induction updates generalizing seen with
  | nil => rfl
  | cons u _ ih =>
    obtain ⟨hu, hrest⟩ := nodup_cons.mp hdis
    rw [conflictingTransition, if_neg fun hmem => hseen _ hmem u (by simp) rfl]
    refine ih hrest (forall_mem_cons.mpr ⟨fun v hv heq => hu ?_, fun e he v hv => ?_⟩)
    · exact mem_map.mpr ⟨v, hv, heq.symm⟩
    · exact hseen e he v (mem_cons_of_mem _ hv)

theorem prevSeqIds_eq {u : SequencedBookUpdate Level}
    (h : (u :: updates).IsChain fun before after => after.prevSeqId = before.seqId) :
    updates.map SequencedBookUpdate.prevSeqId =
      ((u :: updates).map SequencedBookUpdate.seqId).dropLast := by
  induction updates generalizing u with
  | nil => rfl
  | cons _ _ ih =>
    obtain ⟨hv, hrest⟩ := isChain_cons_cons.mp h
    simpa [hv] using ih hrest

/-- A chain is linked up as it is: in each round only its head continues the last number. -/
theorem relink_of_chain {last : SequencedBookUpdate Level}
    (applied : List (SequencedBookUpdate Level))
    (hlin : (last :: updates).IsChain fun before after => after.prevSeqId = before.seqId)
    (hdis : (updates.map SequencedBookUpdate.prevSeqId).Nodup)
    (hnum : t.lastSeqId = some last.seqId) :
    ∃ t' number, relink updates.length updates applied t = some ([], applied ++ updates, t') ∧
      t'.lastSeqId = some number := by
  induction updates generalizing last applied t with
  | nil => exact ⟨t, _, by simp [relink], hnum⟩
  | cons u rest ih =>
    obtain ⟨hu, hlin⟩ := isChain_cons_cons.mp hlin
    obtain ⟨hfst, hrest⟩ := nodup_cons.mp hdis
    have hoth : ((rest.zipIdx 1).filter fun e => e.1.prevSeqId = last.seqId) = [] := by
      refine filter_eq_nil_iff.mpr fun e he heq => hfst ?_
      rw [hu, ← of_decide_eq_true heq]
      exact mem_map_of_mem (fst_mem_of_mem_zipIdx he)
    have hnext : nextLink last.seqId (u :: rest) = some (u, 0) := by
      simp [nextLink, hu, hoth]
    obtain ⟨t', number, hrun, ht'⟩ := ih (t := t.recordContiguousTransition _ u.seqId u.tsMs)
      (applied ++ [u]) hlin hrest rfl
    exact ⟨t', number, by simpa [relink, hnum, hnext] using hrun, ht'⟩

/-- **When a snapshot of a link recovers the source.** -/
theorem snapshot_recovers_iff {u : SequencedBookUpdate Level}
    {before after : List (SequencedBookUpdate Level)} (hchain : TrueChain (before ++ u :: after))
    (hstatus : t.status = .recovering) (hempty : t.buffered = [])
    (hfits : (before ++ u :: after).length ≤ t.maxBuffered)
    (hsnapshot : snapshot.action = .snapshot) (hnumber : snapshot.seqId = u.seqId) :
    (∃ t₁ t₂, t.given (before ++ u :: after) = some t₁ ∧
        t₁.onUpdate snapshot = some (.apply (snapshot :: after), t₂) ∧ t₂.status = .ready) ↔
      u.tsMs < snapshot.tsMs ∧ ∀ v ∈ after, snapshot.tsMs ≤ v.tsMs := by
  obtain ⟨t₁, hgiv, ht₁, hbuf⟩ := given_spec hstatus hchain.action (by simpa [hempty] using hfits)
  rw [hempty, nil_append] at hbuf
  have hres : t₁.onUpdate snapshot = t₁.restart snapshot := by
    simp [onUpdate, onSnapshot, hsnapshot, ht₁]
  simp only [hgiv, some.injEq, exists_and_left, exists_eq_left', hres]
  obtain ⟨hlin, hdis, hord, -⟩ := hchain
  rw [map_append, map_cons, nodup_append, nodup_cons] at hdis
  constructor
  · rintro ⟨t₂, hrun, -⟩
    have hperm := ((restart_perm hrun).2 _ rfl).2.cons_inv
    rw [retained, hbuf] at hperm
    refine ⟨not_le.mp fun hle => hdis.2.1.1 ?_, fun v hv => ?_⟩
    · exact mem_map_of_mem (hperm.mem_iff.mpr (mem_filter.mpr
        ⟨mem_append_right _ (.head _), decide_eq_true hle⟩))
    · simpa using (mem_filter.mp (hperm.mem_iff.mp hv)).2
  · rintro ⟨hlate, haft⟩
    have hbef : ∀ v ∈ before, v.tsMs < snapshot.tsMs := fun v hv =>
      ((pairwise_append.mp hord).2.2 v hv u (by simp)).trans_lt hlate
    have hret : t₁.retained snapshot = after := by
      rw [retained, hbuf, filter_append, filter_cons_of_neg (by simpa using hlate),
        filter_eq_nil_iff.mpr (by simpa using hbef),
        filter_eq_self.mpr (by simpa using haft), nil_append]
    have hlin := (isChain_append.mp hlin).2.1
    have hnd : (after.map SequencedBookUpdate.prevSeqId).Nodup := by
      rw [prevSeqIds_eq hlin]
      exact (nodup_cons.mpr hdis.2.1).sublist (dropLast_sublist _)
    have hcon : conflictingTransition [] after = none :=
      conflictingTransition_of_nodup hdis.2.1.2 nofun
    obtain ⟨t₂, number, hrun, ht₂⟩ := relink_of_chain (t := t₁.started snapshot) [snapshot] hlin
      hnd (congrArg some hnumber)
    simp [restart, hret, hcon, hrun, ht₂]

end

namespace Sample

/-- An update from one number to the next, at a time. -/
def link (prev seq : ℤ) (time : ℕ) : SequencedBookUpdate Unit :=
  ⟨.update, "BTC-USDT", time, prev, seq, [], []⟩

/-- A snapshot with a number, at a time. -/
def snapshotAt (seq : ℤ) (time : ℕ) : SequencedBookUpdate Unit :=
  { link 0 seq time with action := .snapshot }

/-- A tracker that waits, with an empty buffer. -/
def recovering : SequenceTracker Unit := { status := .recovering, maxBuffered := 8 }

theorem trueChain_links : TrueChain [link 9 10 5, link 10 11 7] := by
  constructor <;> simp [link]

end Sample

open Sample

theorem snapshot_recovers_later : ∃ t₁ t₂, recovering.given [link 9 10 5, link 10 11 7] = some t₁ ∧
    t₁.onUpdate (snapshotAt 10 6) = some (.apply [snapshotAt 10 6, link 10 11 7], t₂) ∧
      t₂.status = .ready := by
  have h : TrueChain ([] ++ link 9 10 5 :: [link 10 11 7]) := trueChain_links
  refine (snapshot_recovers_iff h ?_ ?_ ?_ ?_ ?_).mpr ?_ <;> decide

/-- A snapshot with the time of its link: the link itself stays behind. -/
theorem snapshot_of_link_refused : TrueChain [link 9 10 5, link 10 11 7] ∧
    ∃ t₁ t₂, recovering.given [link 9 10 5, link 10 11 7] = some t₁ ∧
      t₁.onUpdate (snapshotAt 10 5) = some (.recoveryRequired (some 11) 9 10, t₂) :=
  ⟨trueChain_links, _, _, rfl, rfl⟩

/-! ### Runs -/

/-- A call of the tracker. -/
inductive Call (Level : Type) where
  | onUpdate (update : SequencedBookUpdate Level)
  | requireRecovery

/-- One call: the answer to an update, and the tracker it leaves. -/
def call : Call Level → SequenceTracker Level →
    Option (Option (SequenceOutcome Level) × SequenceTracker Level)
  | .onUpdate update, t => (t.onUpdate update).map fun answer => (some answer.1, answer.2)
  | .requireRecovery, t => some (none, t.requireRecovery)

/-- A sequence of calls, with the answer to each. -/
def calls : List (Call Level) → SequenceTracker Level →
    Option (List (Option (SequenceOutcome Level)) × SequenceTracker Level)
  | [], t => some ([], t)
  | c :: rest, t => do
    let (answer, t) ← call c t
    let (answers, t) ← calls rest t
    some (answer :: answers, t)

/-- The updates that an answer lets through. -/
def batch : Option (SequenceOutcome Level) → Option (List (SequencedBookUpdate Level))
  | some (.apply updates) => some updates
  | _ => none

/-- All applied updates, in the order of application. -/
def applied (answers : List (Option (SequenceOutcome Level))) : List (SequencedBookUpdate Level) :=
  (answers.filterMap batch).flatten

/-- A request for a snapshot: `require_recovery`, or an answer that asks for one. -/
def Interrupts : Option (SequenceOutcome Level) → Prop
  | none | some (.recoveryRequired ..) | some (.recoveryFailed _) => True
  | _ => False

/-- The first of the updates is a snapshot. -/
def StartsWithSnapshot (updates : List (SequencedBookUpdate Level)) : Prop :=
  ∃ first, updates.head? = some first ∧ first.action = .snapshot

/-- After a request for a snapshot, the next batch starts with one; until then the tracker is not
ready. -/
def Resumes (answers : List (Option (SequenceOutcome Level))) (t : SequenceTracker Level) : Prop :=
  ∀ before answer after, answers = before ++ answer :: after → Interrupts answer →
    (∀ updates, after.findSome? batch = some updates → StartsWithSnapshot updates) ∧
      (after.findSome? batch = none → t.status ≠ .ready)

/-- The answers of a run, against the tracker at its end. -/
structure Unbroken (answers : List (Option (SequenceOutcome Level))) (t : SequenceTracker Level) :
    Prop where
  /-- The first applied update is a snapshot. -/
  starts : applied answers = [] ∨ StartsWithSnapshot (applied answers)
  /-- Every applied update is a snapshot or continues the one applied before it. -/
  chain : (applied answers).IsChain Continues
  resumes : Resumes answers t
  /-- The buffer is bounded; a tracker that is ready has an empty one and the number of the last
  applied update. -/
  tracks : Tracks t (applied answers).getLast?

section

variable {answers : List (Option (SequenceOutcome Level))}
  {answer : Option (SequenceOutcome Level)} {t t' : SequenceTracker Level}

/-- One more answer. -/
theorem Resumes.append (h : Resumes answers t) (hself : Interrupts answer → t'.status ≠ .ready)
    (hbat : ∀ updates, batch answer = some updates → StartsWithSnapshot updates ∨ t.status = .ready)
    (hqui : batch answer = none → t'.status = .ready → t.status = .ready) :
    Resumes (answers ++ [answer]) t' := by
  intro before request after hspl hreq
  rcases eq_nil_or_concat after with rfl | ⟨init, final, rfl⟩
  · obtain ⟨-, hlast⟩ := append_inj' hspl rfl
    cases hlast
    exact ⟨nofun, fun _ => hself hreq⟩
  · have hspl' : answers ++ [answer] = (before ++ request :: init) ++ [final] := by
      simpa using hspl
    obtain ⟨hinit, hlast⟩ := append_inj' hspl' rfl
    cases hlast
    obtain ⟨hnext, hwai⟩ := h before request init hinit hreq
    rw [concat_eq_append, findSome?_append, findSome?_singleton]
    -- the first batch after the request is an earlier one, or that of the new answer
    cases hfou : init.findSome? batch with
    | some => exact ⟨fun _ heq => hnext _ (hfou.trans heq), nofun⟩
    | none =>
      refine ⟨fun updates heq => ?_, fun heq hrdy => hwai hfou (hqui heq hrdy)⟩
      exact (hbat updates heq).resolve_right (hwai hfou)

/-- An answer that applies nothing. -/
theorem Unbroken.quiet (h : Unbroken answers t) (hbat : batch answer = none)
    (hself : Interrupts answer → t'.status ≠ .ready) (hrdy : t'.status = .ready → t.status = .ready)
    (htra : Tracks t' (applied answers).getLast?) : Unbroken (answers ++ [answer]) t' := by
  have happ : applied (answers ++ [answer]) = applied answers := by simp [applied, hbat]
  refine ⟨happ ▸ h.starts, happ ▸ h.chain, ?_, happ ▸ htra⟩
  exact h.resumes.append hself (by simp [hbat]) fun _ => hrdy

/-- An answer that applies a batch. -/
theorem Unbroken.applies {updates : List (SequencedBookUpdate Level)} (h : Unbroken answers t)
    (hbat : answer = some (.apply updates)) (hch : updates.IsChain Continues)
    (hstart : StartsWithSnapshot updates ∨ (t.status = .ready ∧
      ∃ update, updates = [update] ∧ t.lastSeqId = some update.prevSeqId))
    (htra : Tracks t' updates.getLast?) (hne : updates ≠ []) :
    Unbroken (answers ++ [answer]) t' := by
  subst hbat
  have happ : applied (answers ++ [some (.apply updates)]) = applied answers ++ updates := by
    simp [applied, batch]
  refine ⟨.inr ?_, ?_, ?_, ?_⟩
  · rw [happ]
    rcases h.starts with hemp | ⟨first, hfst, hact⟩
    · rcases hstart with hstart | ⟨hrdy, -⟩
      · rwa [hemp, nil_append]
      · obtain ⟨u, hu, -⟩ := h.tracks.current hrdy
        simp [hemp] at hu
    · exact ⟨first, by simp [hfst], hact⟩
  · rw [happ]
    refine isChain_append.mpr ⟨h.chain, hch, ?_⟩
    intro a ha b hb
    rcases hstart with ⟨first, hfst, hact⟩ | ⟨hrdy, update, rfl, hnum⟩
    · obtain rfl : first = b := some.inj (hfst.symm.trans hb)
      exact .inl hact
    · obtain ⟨u, hu, hlast⟩ := h.tracks.current hrdy
      obtain rfl : u = a := some.inj (hu.symm.trans ha)
      obtain rfl : update = b := by simpa using hb
      exact .inr (some.inj (hnum.symm.trans hlast))
  · refine h.resumes.append nofun (fun found heq => ?_) nofun
    cases heq
    exact hstart.imp_right And.left
  · rwa [happ, getLast?_append_of_ne_nil _ hne]

/-- One call keeps the chain unbroken, and the bound of the buffer. -/
theorem Unbroken.call (h : Unbroken answers t) (c : Call Level) :
    ∃ answer t', call c t = some (answer, t') ∧ Unbroken (answers ++ [answer]) t' ∧
      t'.maxBuffered = t.maxBuffered := by
  cases c with
  | requireRecovery =>
    exact ⟨none, _, rfl, h.quiet rfl (fun _ => nofun) nofun ⟨Nat.zero_le _, nofun, nofun⟩, rfl⟩
  | onUpdate update =>
    obtain ⟨outcome, t', hrun, hans, hmax⟩ := onUpdate_answers h.tracks update
    refine ⟨some outcome, t', by simp [Feed.call, hrun], ?_, hmax⟩
    have hrec (hst : t'.status = .recovering)
        (hfits : t'.buffered.length ≤ t'.maxBuffered) (hbat : batch (some outcome) = none) :
        Unbroken (answers ++ [some outcome]) t' := by
      have hnot : t'.status ≠ .ready := by simp [hst]
      exact h.quiet hbat (fun _ => hnot) (absurd · hnot) ⟨hfits, (absurd · hnot), (absurd · hnot)⟩
    cases outcome with
    | duplicate =>
      cases hans
      exact h.quiet rfl nofun id h.tracks
    | buffered => exact hrec hans.2.1 hans.2.2 rfl
    | recoveryRequired => exact hrec hans.1 hans.2 rfl
    | recoveryFailed => exact hrec hans.1 hans.2 rfl
    | apply =>
      obtain ⟨hrdy, hch, htra, hstart⟩ := hans
      refine h.applies rfl hch ?_ htra ?_
      · rcases hstart with ⟨hsna, hhead⟩ | ⟨hold, heq, hnum⟩
        · exact .inl ⟨update, hhead, hsna⟩
        · exact .inr ⟨hold, update, heq, hnum⟩
      · rintro rfl
        obtain ⟨u, hu, -⟩ := htra.current hrdy
        cases hu

end

/-- Every sequence of calls keeps the chain unbroken, and the bound of the buffer. -/
theorem Unbroken.calls {answers : List (Option (SequenceOutcome Level))}
    {t : SequenceTracker Level} (h : Unbroken answers t) (cs : List (Call Level)) :
    ∃ later t', calls cs t = some (later, t') ∧ Unbroken (answers ++ later) t' ∧
      t'.maxBuffered = t.maxBuffered := by
  induction cs generalizing answers t with
  | nil => exact ⟨[], t, rfl, by rwa [append_nil], rfl⟩
  | cons c _ ih =>
    obtain ⟨answer, t', hcall, hstep, hmax⟩ := h.call c
    obtain ⟨later, t'', hrun, hrest, hmax'⟩ := ih hstep
    refine ⟨answer :: later, t'', by simp [Feed.calls, hcall, hrun], ?_, hmax'.trans hmax⟩
    rwa [append_assoc, singleton_append] at hrest

/-- **Applied book updates form an unbroken chain.** No sequence of calls panics, the answers of
each are unbroken, and the bound of the buffer is that of the new tracker. -/
theorem calls_unbroken (maxBuffered : ℕ) (cs : List (Call Level)) :
    ∃ answers t, calls cs (SequenceTracker.new maxBuffered) = some (answers, t) ∧
      Unbroken answers t ∧ t.maxBuffered = max maxBuffered 1 := by
  have hstart : Unbroken [] (SequenceTracker.new maxBuffered : SequenceTracker Level) := by
    refine ⟨.inl rfl, .nil, ?_, ⟨Nat.zero_le _, nofun, nofun⟩⟩
    intro before answer after hspl
    simp at hspl
  exact hstart.calls cs

end Reap.Feed
