import Reap.Base.Check
import Mathlib.Tactic.Linarith

/-!
# Journals

A journal is a sequence of records that a reader accepted one after the other, each under its
position as a sequence number. The reader refuses a line, or the record on it.

## What is proved

* `Accepted.invariant` — what every accepted record keeps holds after every sequence of them.
* `accepted_of_readLines` — what is read from lines was accepted record by record.
* `readLines_ne_panic` — reading aborts only where a record aborts.
* `readLines_append` — lines that follow others are read from where those end.
-/

namespace Reap.Base

universe u v

open List Outcome

/-- The position of a record as a sequence number. -/
def sequenceAt (position : ℕ) : UInt64 := UInt64.ofNat position

variable {position : ℕ}

theorem toNat_sequenceAt (h : position < 2 ^ 64) :
    (sequenceAt position).toNat = position := UInt64.toNat_ofNat_of_lt' h

theorem sequenceAt_inj {first second : ℕ} (hfst : first < 2 ^ 64) (hsnd : second < 2 ^ 64)
    (h : sequenceAt first = sequenceAt second) : first = second := by
  rw [← toNat_sequenceAt hfst, h, toNat_sequenceAt hsnd]

/-- The sequence number after one, while there is one. -/
def nextSequence {ε : Type} (exhausted : ε) (sequence : UInt64) : Except ε UInt64 := do
  refuse (sequence = 0xFFFFFFFFFFFFFFFF) exhausted
  return sequence + 1

theorem nextSequence_eq_ok {ε δ : Type} {exhausted : δ} {wrap : δ → ε} {sequence next : UInt64}
    (h : Outcome.wrapError wrap (nextSequence exhausted sequence) = .ok next) :
    sequence ≠ 0xFFFFFFFFFFFFFFFF ∧ next = sequence + 1 := by
  rw [Outcome.wrapError_eq_ok] at h
  obtain ⟨_, hlast, hval⟩ := bind_eq_ok.mp h
  cases hval
  exact ⟨refuse_eq_ok.mp hlast, rfl⟩

theorem getElem?_append_single {α : Type} {xs : List α} {x y : α} :
    (xs ++ [x])[position]? = some y ↔ xs[position]? = some y ∨ (position = xs.length ∧ y = x) := by
  rcases lt_trichotomy position xs.length with h | rfl | h
  · rw [getElem?_append_left h]
    simp [h.ne]
  · simp [eq_comm]
  · rw [getElem?_eq_none (by simp; omega), getElem?_eq_none h.le]
    simp [h.ne']

/-- The next position has a sequence number too, unless the last one was used. -/
theorem next_position {ρ : Type} {records : List ρ} (record : ρ) (hlen : records.length < 2 ^ 64)
    (hlast : sequenceAt records.length ≠ 0xFFFFFFFFFFFFFFFF) :
    (records ++ [record]).length < 2 ^ 64 ∧
      sequenceAt records.length + 1 = sequenceAt (records ++ [record]).length := by
  rw [length_append, length_singleton]
  refine ⟨lt_of_le_of_ne hlen fun he => hlast ?_, (UInt64.ofNat_add records.length 1).symm⟩
  rw [← UInt64.toNat_inj, toNat_sequenceAt hlen]
  exact Nat.succ.inj he

section

variable {σ ρ ε : Type} (apply : σ → ρ → UInt64 → Outcome ε σ)

/-- `Accepted apply start records s`: from `start`, the records are accepted one after the other
and lead to `s`. -/
inductive Accepted (start : σ) : List ρ → σ → Prop where
  | start : Accepted start [] start
  | next {records : List ρ} {record : ρ} {s t : σ} (h : Accepted start records s)
      (hlength : records.length < 2 ^ 64)
      (haccepted : apply s record (sequenceAt records.length) = .ok t) :
      Accepted start (records ++ [record]) t

variable {apply} {start s : σ} {records : List ρ}

/-- What holds at the start and is kept by every accepted record holds after every sequence. -/
theorem Accepted.invariant {P : List ρ → σ → Prop} (h : Accepted apply start records s)
    (hstart : P [] start) (hnext : ∀ (records : List ρ) (record : ρ) (s t : σ), P records s →
      records.length < 2 ^ 64 → apply s record (sequenceAt records.length) = .ok t →
      P (records ++ [record]) t) : P records s := by
  induction h with
  | start => exact hstart
  | next _ hlen hacc ih => exact hnext _ _ _ _ ih hlen hacc

theorem Accepted.length_le (h : Accepted apply start records s) : records.length ≤ 2 ^ 64 := by
  cases h with
  | start => exact Nat.zero_le _
  | next _ hlen =>
    rw [length_append, length_singleton]
    exact hlen

variable (apply) {l : Type} (record : l → ρ) (check : σ → UInt64 → l → Outcome ε Unit)
  (nextSequence : UInt64 → Outcome ε UInt64)

/-- The lines of a journal from a position on: each is checked, its record is applied, and the
sequence number of the next line is one more. -/
def readLines : σ → UInt64 → List l → Outcome ε σ
  | s, _, [] => .ok s
  | s, expected, line :: lines => do
    check s expected line
    let t ← apply s (record line) expected
    let next ← nextSequence expected
    readLines t next lines

variable {apply record check nextSequence} {lines : List l}

section

variable
  (hseq : ∀ {sequence next : UInt64}, nextSequence sequence = .ok next →
    sequence ≠ 0xFFFFFFFFFFFFFFFF ∧ next = sequence + 1)

include hseq

/-- What is read from lines was accepted record by record. -/
theorem accepted_of_readLines {final : σ} (h : Accepted apply start records s)
    (hlen : records.length < 2 ^ 64)
    (hread : readLines apply record check nextSequence s (sequenceAt records.length) lines =
      .ok final)
    : Accepted apply start (records ++ lines.map record) final := by
  induction lines generalizing records s with
  | nil =>
    cases hread
    rwa [map_nil, append_nil]
  | cons line _ ih =>
    obtain ⟨_, -, hread⟩ := Outcome.bind_eq_ok.mp hread
    obtain ⟨t, happ, hread⟩ := Outcome.bind_eq_ok.mp hread
    obtain ⟨next, hnext, hread⟩ := Outcome.bind_eq_ok.mp hread
    obtain ⟨hlast, rfl⟩ := hseq hnext
    obtain ⟨hroom, hshi⟩ := next_position (record line) hlen hlast
    rw [hshi] at hread
    have hall := ih (h.next hlen happ) hroom hread
    rwa [append_assoc] at hall

/-- Reading aborts nowhere if no accepted sequence leads to a state in which a record aborts. -/
theorem readLines_ne_panic (hchk : ∀ s expected line, check s expected line ≠ .panic)
    (hnext : ∀ sequence, nextSequence sequence ≠ .panic)
    (happl : ∀ records s, Accepted apply start records s →
      ∀ record sequence, apply s record sequence ≠ .panic)
    (h : Accepted apply start records s) (hlen : records.length < 2 ^ 64) :
    readLines apply record check nextSequence s (sequenceAt records.length) lines ≠ .panic := by
  induction lines generalizing records s with
  | nil => nofun
  | cons line _ ih =>
    refine bind_ne_panic (hchk _ _ _) fun _ _ => ?_
    refine bind_ne_panic (happl records s h _ _) fun t happ => ?_
    refine bind_ne_panic (hnext _) fun next hsome => ?_
    obtain ⟨hlast, rfl⟩ := hseq hsome
    obtain ⟨hroom, hshi⟩ := next_position (record line) hlen hlast
    rw [hshi]
    exact ih (h.next hlen happ) hroom

end

variable {expected : UInt64}

/-- What every line keeps holds of what is read. -/
theorem readLines_invariant {P : σ → Prop}
    (hline : ∀ {s t : σ} {expected : UInt64} {line : l}, P s → check s expected line = .ok () →
      apply s (record line) expected = .ok t → P t)
    {final : σ} (h : P s)
    (hread : readLines apply record check nextSequence s expected lines = .ok final) : P final := by
  induction lines generalizing s expected with
  | nil =>
    cases hread
    exact h
  | cons _ _ ih =>
    obtain ⟨_, hchk, hread⟩ := Outcome.bind_eq_ok.mp hread
    obtain ⟨t, happ, hread⟩ := Outcome.bind_eq_ok.mp hread
    obtain ⟨next, -, hread⟩ := Outcome.bind_eq_ok.mp hread
    exact ih (hline h hchk happ) hread

/-- Lines that follow others are read from where those end. -/
theorem readLines_append (hseq : ∀ {sequence next : UInt64}, nextSequence sequence = .ok next →
      sequence ≠ 0xFFFFFFFFFFFFFFFF ∧ next = sequence + 1)
    {t : σ} (h : readLines apply record check nextSequence s expected lines = .ok t) (more : List l)
    : readLines apply record check nextSequence s expected (lines ++ more) =
      readLines apply record check nextSequence t (expected + sequenceAt lines.length) more := by
  induction lines generalizing s expected with
  | nil =>
    cases h
    exact congrArg (readLines apply record check nextSequence t · more) (UInt64.add_zero _).symm
  | cons _ lines ih =>
    obtain ⟨_, hchk, h⟩ := Outcome.bind_eq_ok.mp h
    obtain ⟨next, happ, h⟩ := Outcome.bind_eq_ok.mp h
    obtain ⟨following, hfol, h⟩ := Outcome.bind_eq_ok.mp h
    rw [cons_append, readLines, hchk, ok_bind, happ, ok_bind, hfol,
      ok_bind, ih h, (hseq hfol).2, length_cons]
    have hshi : expected + 1 + sequenceAt lines.length =
      expected + sequenceAt (lines.length + 1) := by
      rw [UInt64.add_assoc, UInt64.add_comm 1]
      exact congrArg (expected + ·) (UInt64.ofNat_add lines.length 1).symm
    rw [hshi]

end

end Reap.Base
