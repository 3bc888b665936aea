import Mathlib.Logic.Relation
import Mathlib.Data.Nat.Notation
import Mathlib.Tactic.SplitIfs

/-!
# Runs of a mutable component

A component is a state type, a type of calls, and a function that says what a call does to
the state. A call may fail and still have changed the state, or it may abort the program;
an aborted program has no next state. A run is a sequence of calls none of which aborts.

A *guard* restricts which calls a run may make in which state. A property that fails in
general may still hold in every run whose calls all meet a guard: `Reach step ok` is the
reachability along such runs, and `Reach.invariant` the rule that carries a property along
them.

## What is proved

* `Reach.invariant`, `Reach.invariant_of` — what holds at the start and is kept by every
  guarded call holds in every state reached.
* `reach_of_run`, `exists_reach_of_run` — a concrete sequence of calls is a run.
-/

namespace Reap.Base

open Relation

universe u v

/-- How a call ends: with a value, with an error, or by aborting the program. -/
inductive Outcome (ε : Type u) (α : Type v) where
  | ok (value : α)
  | err (error : ε)
  | panic
  deriving DecidableEq

namespace Outcome

variable {ε : Type u} {α β : Type v}

instance : Monad (Outcome ε) where
  pure := .ok
  bind
    | .ok value, f => f value
    | .err error, _ => .err error
    | .panic, _ => .panic

/-- `Option::expect`: there is a value, or the program aborts. -/
def expect : Option α → Outcome ε α
  | some value => .ok value
  | none => .panic

/-- The `?` operator on a check that cannot abort. -/
def ofExcept : Except ε α → Outcome ε α
  | .ok value => .ok value
  | .error error => .err error

@[simp] theorem ok_bind (value : α) (f : α → Outcome ε β) : (ok value >>= f) = f value := rfl

@[simp] theorem err_bind (error : ε) (f : α → Outcome ε β) : (err error >>= f) = err error := rfl

@[simp] theorem panic_bind (f : α → Outcome ε β) : (panic >>= f) = panic := rfl

@[simp] theorem pure_eq_ok (value : α) : (pure value : Outcome ε α) = ok value := rfl

@[simp] theorem expect_some (value : α) : (expect (some value) : Outcome ε α) = ok value := rfl

@[simp] theorem ofExcept_ok (value : α) : (ofExcept (.ok value) : Outcome ε α) = ok value := rfl

@[simp] theorem ofExcept_error (error : ε) : (ofExcept (.error error) : Outcome ε α) = err error :=
  rfl

variable {f : α → Outcome ε β} {x : Outcome ε α}

theorem bind_eq_ok {b : β} : (x >>= f) = ok b ↔ ∃ a, x = ok a ∧ f a = ok b := by
  cases x with
  | ok => simp
  | err => simp
  | panic => simp

theorem bind_eq_panic : (x >>= f) = panic ↔ x = panic ∨ ∃ a, x = ok a ∧ f a = panic := by
  cases x with
  | ok => simp
  | err => simp
  | panic => simp

theorem bind_ne_panic (hx : x ≠ panic) (hf : ∀ a, x = ok a → f a ≠ panic) : (x >>= f) ≠ panic := by
  rw [Ne, bind_eq_panic, not_or, not_exists]
  exact ⟨hx, fun a h => hf a h.1 h.2⟩

theorem ofExcept_eq_ok {x : Except ε α} {a : α} : ofExcept x = ok a ↔ x = .ok a := by
  cases x <;> simp [ofExcept]

theorem expect_eq_ok {x : Option α} {a : α} : (expect x : Outcome ε α) = ok a ↔ x = some a := by
  cases x <;> simp [expect]

end Outcome

/-- How a call ended, without the value. -/
def Outcome.discard {ε : Type u} {α : Type v} : Outcome ε α → Outcome ε Unit
  | .ok _ => .ok ()
  | .err error => .err error
  | .panic => .panic

/-- How a call ended, without the value, and the state it leaves. -/
def Outcome.ended {ε : Type u} {α : Type v} {σ : Type*} (result : Outcome ε α × σ) :
    Outcome ε Unit × σ :=
  (result.1.discard, result.2)

/-- How a call ended, with another value. -/
def Outcome.map {ε : Type u} {α β : Type v} (f : α → β) : Outcome ε α → Outcome ε β
  | .ok value => .ok (f value)
  | .err error => .err error
  | .panic => .panic

/-- The rest of a call, after a part of it: the `?` operator, where the part has changed the
state. -/
def Outcome.andThen {ε : Type u} {α β : Type v} {σ : Type*} (result : Outcome ε α × σ)
    (rest : α → σ → Outcome ε β × σ) : Outcome ε β × σ :=
  match result with
  | (.ok value, s) => rest value s
  | (.err error, s) => (.err error, s)
  | (.panic, s) => (.panic, s)

/-- The state a call leaves, unless it aborted. -/
def Outcome.next {ε : Type u} {α : Type v} {σ : Type*} : Outcome ε α × σ → Option σ
  | (.panic, _) => none
  | (.ok _, s) => some s
  | (.err _, s) => some s

variable {ε : Type u} {α : Type v} {σ : Type*}

theorem Outcome.next_eq_some {result : Outcome ε α × σ} {t : σ} :
    Outcome.next result = some t ↔ result.1 ≠ .panic ∧ result.2 = t := by
  obtain ⟨_ | _ | _, s⟩ := result <;> simp [next]

variable {outcome : Outcome ε α}

@[simp] theorem Outcome.discard_eq_panic : outcome.discard = .panic ↔ outcome = .panic := by
  cases outcome <;> simp [discard]

@[simp] theorem Outcome.discard_eq_err {error : ε} :
    outcome.discard = .err error ↔ outcome = .err error := by
  cases outcome <;> simp [discard]

@[simp] theorem Outcome.ended_unit (result : Outcome ε Unit × σ) : ended result = result := by
  obtain ⟨_ | _ | _, s⟩ := result <;> rfl

@[simp] theorem Outcome.next_ended (result : Outcome ε α × σ) :
    next (ended result) = next result := by
  obtain ⟨_ | _ | _, s⟩ := result <;> rfl

section

variable {σ : Type u} {ω : Type v} (step : ω → σ → Option σ)

/-- One call that meets the guard. -/
def GuardedStep (ok : σ → ω → Prop) (s t : σ) : Prop := ∃ op, ok s op ∧ step op s = some t

/-- `t` is reached from `s` by calls that meet the guard. -/
def Reach (ok : σ → ω → Prop) : σ → σ → Prop := ReflTransGen (GuardedStep step ok)

/-- The guard that every call meets. -/
def anyCall : σ → ω → Prop := fun _ _ => True

instance (s : σ) (op : ω) : Decidable (anyCall s op) := .isTrue trivial

/-- Run a sequence of calls that all meet the guard. -/
def run (ok : σ → ω → Prop) [∀ s op, Decidable (ok s op)] : List ω → σ → Option σ
  | [], s => some s
  | op :: ops, s => if ok s op then (step op s).bind (run ok ops) else none

variable {step} {ok : σ → ω → Prop} {P : σ → Prop} {s t : σ}

section

variable (h : Reach step ok s t)

include h

/-- The invariant rule, where a property that every reachable state has is already known. -/
theorem Reach.invariant_of {Q : σ → Prop} (hQ : ∀ a, Reach step ok s a → Q a) (hs : P s)
    (hstep : ∀ a op b, Q a → P a → ok a op → step op a = some b → P b) : P t := by
  induction h with
  | refl => exact hs
  | tail hrch hlast ih =>
    obtain ⟨op, hok, heq⟩ := hlast
    exact hstep _ op _ (hQ _ hrch) ih hok heq

/-- **The invariant rule.** What holds at the start and is kept by every guarded call holds
in every state reached. -/
theorem Reach.invariant (hs : P s)
    (hstep : ∀ a op b, P a → ok a op → step op a = some b → P b) : P t :=
  h.invariant_of (fun _ _ => trivial) hs fun a op b _ => hstep a op b

/-- A weaker guard reaches more. -/
theorem Reach.mono {ok' : σ → ω → Prop} (himp : ∀ a op, ok a op → ok' a op) :
    Reach step ok' s t := by
  induction h with
  | refl => exact .refl
  | tail _ hlast ih =>
    obtain ⟨op, hok, heq⟩ := hlast
    exact .tail ih ⟨op, himp _ op hok, heq⟩

/-- Every guarded run is a run. -/
theorem Reach.any : Reach step anyCall s t :=
  h.mono fun _ _ _ => trivial

end

/-- A concrete sequence of calls is a run. -/
theorem reach_of_run [∀ s op, Decidable (ok s op)] {ops : List ω} (h : run step ok ops s = some t) :
    Reach step ok s t := by
  induction ops generalizing s with
  | nil =>
    cases h
    exact .refl
  | cons op _ ih =>
    unfold run at h
    split_ifs at h with hok
    obtain ⟨u, hu, hrest⟩ := Option.bind_eq_some_iff.mp h
    exact .head ⟨op, hok, hu⟩ (ih hrest)

/-- What a concrete sequence of calls ends in is reachable. -/
theorem exists_reach_of_run [∀ s op, Decidable (ok s op)] (ops : List ω)
    (h : ∃ t ∈ run step ok ops s, P t) : ∃ t, Reach step ok s t ∧ P t := by
  obtain ⟨t, hrun, ht⟩ := h
  exact ⟨t, reach_of_run hrun, ht⟩

/-- What is proved of reachable states holds at the end of a concrete sequence of calls. -/
theorem exists_reach_imp [∀ s op, Decidable (ok s op)] {Q : σ → Prop} (ops : List ω)
    (h : ∃ t ∈ run step ok ops s, P t) (himp : ∀ t, Reach step ok s t → P t → Q t) :
    ∃ t, Reach step ok s t ∧ Q t := by
  obtain ⟨t, hrch, ht⟩ := exists_reach_of_run ops h
  exact ⟨t, hrch, himp t hrch ht⟩

theorem exists_reach_and [∀ s op, Decidable (ok s op)] {Q : σ → Prop} (ops : List ω)
    (h : ∃ t ∈ run step ok ops s, P t) (hQ : ∀ t, Reach step ok s t → P t → Q t) :
    ∃ t, Reach step ok s t ∧ P t ∧ Q t :=
  exists_reach_imp ops h fun t hrch ht => ⟨ht, hQ t hrch ht⟩

end

/-- What holds of every element of a list that is extended by one. -/
theorem forall_mem_concat {α : Type u} {P : α → Prop} {l : List α} {a : α} :
    (∀ x ∈ l ++ [a], P x) ↔ (∀ x ∈ l, P x) ∧ P a := by
  simp [or_imp, forall_and]

end Reap.Base
