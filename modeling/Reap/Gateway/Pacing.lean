import Reap.Base.Run
import Mathlib.Data.List.TakeWhile
import Mathlib.Data.Nat.Basic
import Mathlib.Logic.Function.Basic

/-!
# Pacing of requests

For each kind of request and each scope the pacer has a queue of the instants it reserved. A caller
reads the clock, takes the lock and reserves an instant, which it then waits for. Instants that are
a window old are forgotten; a full queue forgets its head, and the new instant is a window later
than that.

The clock is read before the lock is taken, so that readings may reach the pacer out of order. A
later reading that comes first forgets instants that are not yet old for an earlier one.

Instants and durations are numbers of nanoseconds. The clones of a pacer share its queues, and
calls are listed in the order in which they took the lock.

## What is proved

* `Paced.expire`, `Paced.push` — what forgetting and reserving keep.
* `paced_of_sorted` — the window is respected wherever the readings arrive in order.
* `late_reading_exceeds_window` — it is not if a reading is overtaken.
-/

namespace Reap.Gateway

open Base List

/-- The kinds of requests, each of which has a limit of its own. -/
inductive RequestKind where
  | submit
  | cancel
  | reconcile
  deriving DecidableEq, Repr

/-- How many requests of each kind a window holds; a limit of zero counts as one. -/
structure PacingPolicy where
  submitRequests : ℕ
  cancelRequests : ℕ
  reconcileRequests : ℕ
  /-- The length of the window. -/
  window : ℕ

/-- A call of `reserve_at`. -/
structure PacingCall where
  kind : RequestKind
  scope : String
  /-- The reading of the clock. -/
  now : ℕ

/-- The queue that a call concerns. -/
def PacingCall.key (c : PacingCall) : RequestKind × String := (c.kind, c.scope)

/-- `RequestPacer`, behind its lock. -/
structure RequestPacer where
  policy : PacingPolicy
  /-- The reserved instants that are not forgotten, in the order of reservation. -/
  reservations : RequestKind × String → List ℕ

/-- The instant to reserve, once the old ones are forgotten. -/
def due (limit window now : ℕ) (queue : List ℕ) : ℕ :=
  -- the limit is positive, so that a full queue has a head
  if queue.length < limit then now else max (queue.headD 0 + window) now

/-- `reserve_at` on one queue: the reserved instant, and the queue after it. -/
def reserve (limit window now : ℕ) (queue : List ℕ) : ℕ × List ℕ :=
  let queue := queue.dropWhile (· + window ≤ now)
  let reserved := due limit window now queue
  (reserved, (if queue.length < limit then queue else queue.tail) ++ [reserved])

namespace RequestPacer

/-- Nothing is reserved. -/
def new (policy : PacingPolicy) : RequestPacer := ⟨policy, fun _ => []⟩

variable (p : RequestPacer)

/-- `limit`, as the policy has it. -/
def limit : RequestKind → ℕ
  | .submit => p.policy.submitRequests
  | .cancel => p.policy.cancelRequests
  | .reconcile => p.policy.reconcileRequests

/-- The instant reserved for a call, and its queue after it. -/
def reserved (c : PacingCall) : ℕ × List ℕ :=
  reserve (max (p.limit c.kind) 1) p.policy.window c.now (p.reservations c.key)

/-- The delay for the caller, and the pacer after the call. -/
def reserveAt (c : PacingCall) : ℕ × RequestPacer :=
  ((p.reserved c).1 - c.now,
    { p with reservations := Function.update p.reservations c.key (p.reserved c).2 })

/-- The readings of the calls for one kind and scope, each with the instant reserved for it. -/
def instants (key : RequestKind × String) (p : RequestPacer) : List PacingCall → List (ℕ × ℕ)
  | [] => []
  | c :: cs =>
    let rest := instants key (p.reserveAt c).2 cs
    if c.key = key then (c.now, (p.reserved c).1) :: rest else rest

end RequestPacer

/-! ### One queue -/

/-- The readings of the clock, each with the instant reserved for it. -/
def reserveAll (limit window : ℕ) : List ℕ → List ℕ → List (ℕ × ℕ)
  | [], _ => []
  | now :: later, queue =>
    let reserved := reserve limit window now queue
    (now, reserved.1) :: reserveAll limit window later reserved.2

/-- How many instants lie in the window that starts at `start`. -/
def inWindow (window start : ℕ) (instants : List ℕ) : ℕ :=
  instants.countP fun t => start ≤ t ∧ t < start + window

/-- The instants reserved so far, of which the first are forgotten. -/
structure Paced (limit window now : ℕ) (forgotten queue : List ℕ) : Prop where
  sorted : queue.Pairwise (· ≤ ·)
  fits : queue.length ≤ limit
  /-- No instant of the queue is later than the next one. -/
  past : ∀ t ∈ queue, t ≤ due limit window now queue
  /-- What is forgotten is a window older than the next one. -/
  old : ∀ t ∈ forgotten, t + window ≤ due limit window now queue
  spaced : ∀ start, inWindow window start (forgotten ++ queue) ≤ limit

section

variable {limit window now later : ℕ} {forgotten queue : List ℕ}

theorem le_due : now ≤ due limit window now queue := by
  unfold due
  split_ifs <;> omega

theorem due_le_expire (limit window : ℕ) (queue : List ℕ) (hnow : now ≤ later) :
    due limit window now queue ≤ due limit window later (queue.dropWhile (· + window ≤ later)) := by
  have hmono : due limit window now queue ≤ due limit window later queue := by
    unfold due
    split_ifs <;> omega
  rcases queue with _ | ⟨t, rest⟩
  · exact hmono
  · by_cases ht : t + window ≤ later
    · -- what the head made place for is not after the reading at which it is old
      refine le_trans ?_ le_due
      unfold due
      split_ifs
      · exact hnow
      · exact max_le ht hnow
    · rwa [dropWhile_cons_of_neg (by simpa using ht)]

theorem Paced.expire (h : Paced limit window now forgotten queue) (hnow : now ≤ later) :
    Paced limit window later (forgotten ++ queue.takeWhile (· + window ≤ later))
      (queue.dropWhile (· + window ≤ later)) := by
  have hsub := dropWhile_sublist (p := (· + window ≤ later)) (l := queue)
  have hdue := due_le_expire limit window queue hnow
  refine ⟨h.sorted.sublist hsub, hsub.length_le.trans h.fits,
    fun t ht => (h.past t (hsub.subset ht)).trans hdue, fun t ht => ?_, ?_⟩
  · rcases mem_append.mp ht with hmem | hmem
    · exact (h.old t hmem).trans hdue
    · have hold : t + window ≤ later := by simpa using mem_takeWhile_imp hmem
      exact hold.trans le_due
  · rw [append_assoc, takeWhile_append_dropWhile]
    exact h.spaced

/-- The instant that is due is reserved, and instants a window older made place for it. -/
theorem Paced.push (made : List ℕ) {t : ℕ} (h : Paced limit window now forgotten (made ++ queue))
    (ht : due limit window now (made ++ queue) = t) (hmade : ∀ u ∈ made, u + window ≤ t)
    (hfits : queue.length + 1 ≤ limit) (hdue : t ≤ due limit window now (queue ++ [t])) :
    Paced limit window now (forgotten ++ made) (queue ++ [t]) := by
  obtain ⟨hsort, -, hpast, hold, hspa⟩ := h
  rw [ht] at hpast hold
  have hpast : ∀ u ∈ queue, u ≤ t := fun u hu => hpast u (mem_append_right _ hu)
  have hold : ∀ u ∈ forgotten ++ made, u + window ≤ t := fun u hu =>
    (mem_append.mp hu).elim (hold u) (hmade u)
  refine ⟨pairwise_append.mpr ⟨hsort.sublist (sublist_append_right _ _),
    pairwise_singleton _ _, by simpa using hpast⟩, by simpa using hfits,
    forall_mem_concat.mpr ⟨fun u hu => (hpast u hu).trans hdue, hdue⟩,
    fun u hu => (hold u hu).trans hdue, fun start => ?_⟩
  have hcnt := hspa start
  unfold inWindow at hcnt ⊢
  by_cases hin : start ≤ t ∧ t < start + window
  · -- what is forgotten is too early for a window that the new instant is in
    have hnone : (forgotten ++ made).countP (fun u => start ≤ u ∧ u < start + window) = 0 := by
      refine countP_eq_zero.mpr fun u hu => ?_
      have := hold u hu
      simp only [decide_eq_true_eq]
      omega
    rw [countP_append, hnone, Nat.zero_add]
    exact countP_le_length.trans (by simpa using hfits)
  · simpa [hin, countP_append, Nat.add_assoc] using hcnt

/-- What a call keeps, and what it adds. -/
theorem Paced.reserve (h : Paced limit window now forgotten queue) (hnow : now ≤ later)
    (hlim : 0 < limit) : ∃ forgotten', Paced limit window later forgotten'
        (Gateway.reserve limit window later queue).2 ∧
      forgotten' ++ (Gateway.reserve limit window later queue).2 =
        forgotten ++ queue ++ [(Gateway.reserve limit window later queue).1] := by
  have hall := takeWhile_append_dropWhile (p := (· + window ≤ later)) (l := queue)
  replace h := h.expire hnow
  simp only [Gateway.reserve]
  generalize queue.takeWhile (· + window ≤ later) = expired at h hall
  generalize queue.dropWhile (· + window ≤ later) = kept at h hall
  subst hall
  split_ifs with hroom
  · exact ⟨_, h.push [] rfl (by simp) hroom ((if_pos hroom).trans_le le_due), by simp⟩
  · obtain _ | ⟨earliest, rest⟩ := kept
    · exact absurd hlim hroom
    have hdue : due limit window later (earliest :: rest) = _ := if_neg hroom
    refine ⟨_, h.push [earliest] rfl ?_ h.fits ?_, by simp⟩
    · rw [hdue]
      exact forall_mem_singleton.mpr (le_max_left _ _)
    · -- the queue stays full, and its next head is not earlier
      rw [hdue, due, if_neg (by simpa using hroom)]
      rcases rest with _ | ⟨next, rest⟩
      · exact (Nat.le_add_right _ _).trans (le_max_left _ _)
      · have := (pairwise_cons.mp h.sorted).1 next (.head _)
        show max (earliest + window) later ≤ max (next + window) later
        omega

theorem Paced.reserveAll (hlim : 0 < limit) (readings : List ℕ)
    (h : Paced limit window now forgotten queue) (hsort : (now :: readings).Pairwise (· ≤ ·))
    (start : ℕ) : inWindow window start
      (forgotten ++ queue ++ (Gateway.reserveAll limit window readings queue).map Prod.snd) ≤
        limit := by
  induction readings generalizing now forgotten queue with
  | nil => simpa [Gateway.reserveAll] using h.spaced start
  | cons reading _ ih =>
    obtain ⟨hnow, hsort⟩ := pairwise_cons.mp hsort
    obtain ⟨forgotten', h', hadd⟩ := h.reserve (hnow reading (by simp)) hlim
    have hrest := ih h' hsort
    rw [hadd] at hrest
    simpa [Gateway.reserveAll] using hrest

end

/-- Each kind and scope has a queue of its own. -/
theorem instants_eq (key : RequestKind × String) (cs : List PacingCall) (p : RequestPacer) :
    p.instants key cs = reserveAll (max (p.limit key.1) 1) p.policy.window
      ((cs.filter (·.key = key)).map PacingCall.now) (p.reservations key) := by
  induction cs generalizing p with
  | nil => rfl
  | cons c _ ih =>
    have hrest : _ = reserveAll (max (p.limit key.1) 1) p.policy.window _
      (Function.update p.reservations c.key (p.reserved c).2 key) := ih (p.reserveAt c).2
    by_cases hkey : c.key = key
    · subst hkey
      rw [Function.update_self] at hrest
      simp only [RequestPacer.instants, if_true, hrest, decide_true, filter_cons_of_pos]
      rfl
    · rw [Function.update_of_ne (Ne.symm hkey)] at hrest
      simp [RequestPacer.instants, hkey, hrest]

theorem reserveAll_not_before (limit window : ℕ) (readings queue : List ℕ) :
    ∀ r ∈ reserveAll limit window readings queue, r.1 ≤ r.2 := by
  induction readings generalizing queue with
  | nil => simp [reserveAll]
  | cons _ _ ih =>
    exact forall_mem_cons.mpr ⟨le_due, ih _⟩

/-- **Where readings arrive in order, every window holds as many instants as the policy allows.** In
whatever order they arrive, no instant is before its reading, and the calls for other kinds and
scopes change nothing. -/
theorem paced_of_sorted (policy : PacingPolicy) (cs : List PacingCall)
    (key : RequestKind × String) :
    (((cs.filter (·.key = key)).map PacingCall.now).Pairwise (· ≤ ·) →
      ∀ start, inWindow policy.window start
        (((RequestPacer.new policy).instants key cs).map Prod.snd) ≤
          max ((RequestPacer.new policy).limit key.1) 1) ∧
      (∀ r ∈ (RequestPacer.new policy).instants key cs, r.1 ≤ r.2) ∧
      (RequestPacer.new policy).instants key cs =
        (RequestPacer.new policy).instants key (cs.filter (·.key = key)) := by
  simp only [instants_eq, filter_filter, Bool.and_self, and_true]
  refine ⟨fun hsort => ?_, reserveAll_not_before _ _ _ _⟩
  have hstart : Paced (max ((RequestPacer.new policy).limit key.1) 1) policy.window 0 [] [] := by
    constructor <;> simp [inWindow]
  exact hstart.reserveAll (by omega) _ (pairwise_cons.mpr ⟨by simp, hsort⟩)

namespace Sample

/-- Two submissions in ten. -/
def twice : PacingPolicy := ⟨2, 1, 1, 10⟩

def submitAt (now : ℕ) : PacingCall := ⟨.submit, "BTC-USDT", now⟩

end Sample

open Sample

theorem paced_in_order : [100, 100, 105, 110].Pairwise (· ≤ ·) ∧ ∀ start, inWindow 10 start
      (((RequestPacer.new twice).instants (.submit, "BTC-USDT")
        ([100, 100, 105, 110].map submitAt)).map Prod.snd) ≤ 2 :=
  ⟨by decide, (paced_of_sorted twice _ _).1 (by decide)⟩

/-- The caller that read 105 takes the lock after the one that read 110. -/
theorem late_reading_exceeds_window : ((RequestPacer.new twice).instants (.submit, "BTC-USDT")
        ([100, 100, 110, 105].map submitAt)).map Prod.snd = [100, 100, 110, 105] ∧
      inWindow 10 100 [100, 100, 110, 105] = 3 := by
  decide

end Reap.Gateway
