import Reap.Base.Run

/-!
# Methods of a component

A method of a component reads and changes the component's state, calls methods of its parts,
and may stop early with an error or abort the program. What it has changed before it stops stays
changed. `Act σ ε α` is the type of such methods, with sequencing that stops at the first error.

The rules are those of pre- and postconditions. `Triple P m Q E` says that a method started where
`P` holds ends where `Q` holds of its value and the state, or, if it fails, where `E` holds; of a
method that aborts it says nothing. `Keeps I m` is the triple of an invariant, and `Total P m Q E`
is the triple of a method that does not abort.

## What is proved

* `Triple.bind`, `Triple.get`, `Keeps.check`, … — one rule for each way to build a method.
* `Keeps.next` — the state that a method leaves satisfies the invariant.
-/

namespace Reap.Base

/-- A method of a component with state `σ`. -/
def Act (σ ε α : Type) : Type := σ → Outcome ε α × σ

namespace Act

variable {σ τ ε δ α β : Type}

instance : Monad (Act σ ε) where
  pure value := fun s => (.ok value, s)
  bind m f := fun s => Outcome.andThen (m s) f

/-! ### Methods -/

/-- Read the state. -/
def get : Act σ ε σ := fun s => (.ok s, s)

/-- Change the state. -/
def modify (f : σ → σ) : Act σ ε Unit := fun s => (.ok (), f s)

/-- Stop with an error. -/
def fail (error : ε) : Act σ ε α := fun s => (.err error, s)

/-- Call a method. -/
def call (f : σ → Outcome ε α × σ) : Act σ ε α := f

/-- Ask something about the state. -/
def check (f : σ → Outcome ε α) : Act σ ε α := fun s => (f s, s)

/-- Call a method of a part, and see how it ended. -/
def attempt (part : σ → τ) (put : σ → τ → σ) (call : τ → Outcome δ α × τ) :
    Act σ ε (Except δ α) := fun s =>
  match call (part s) with
  | (.ok value, t) => (.ok (.ok value), put s t)
  | (.err error, t) => (.ok (.error error), put s t)
  | (.panic, t) => (.panic, put s t)

/-- The `?` operator, which turns the error of a part into one of the whole. -/
def raise (wrap : δ → ε) : Except δ α → Act σ ε α
  | .ok value => pure value
  | .error error => fail (wrap error)

/-- `Result::expect`: the call has succeeded, or the program aborts. -/
def expectOk : Except δ α → Act σ ε α
  | .ok value => pure value
  | .error _ => fun s => (.panic, s)

/-- `Result::expect` of a method. -/
def expect (m : Act σ δ α) : Act σ ε α := fun s =>
  match m s with
  | (.ok value, t) => (.ok value, t)
  | (.err _, t) => (.panic, t)
  | (.panic, t) => (.panic, t)

theorem bind_apply (m : Act σ ε α) (f : α → Act σ ε β) (s : σ) : (m >>= f) s = match m s with
      | (.ok value, t) => f value t
      | (.err error, t) => (.err error, t)
      | (.panic, t) => (.panic, t) := by
  show Outcome.andThen (m s) f = _
  obtain ⟨_ | _ | _, t⟩ := m s <;> rfl

@[simp] theorem pure_apply (value : α) (s : σ) : (pure value : Act σ ε α) s = (.ok value, s) := rfl

@[simp] theorem get_apply (s : σ) : (get : Act σ ε σ) s = (.ok s, s) := rfl

@[simp] theorem modify_apply (f : σ → σ) (s : σ) :
    (modify f : Act σ ε Unit) s = (.ok (), f s) := rfl

@[simp] theorem fail_apply (error : ε) (s : σ) : (fail error : Act σ ε α) s = (.err error, s) := rfl

@[simp] theorem check_apply (f : σ → Outcome ε α) (s : σ) : check f s = (f s, s) := rfl

@[simp] theorem call_apply (f : σ → Outcome ε α × σ) (s : σ) : call f s = f s := rfl

variable {m : Act σ ε α} {s t : σ} {f : α → Act σ ε β} {result : Outcome ε α × σ} {R : β → σ → Prop}

theorem bind_apply_ok {value : α} (h : m s = (.ok value, t)) : (m >>= f) s = f value t := by
  rw [bind_apply, h]

theorem bind_eq_ok {u : σ} {b : β} :
    (m >>= f) s = (.ok b, u) ↔ ∃ a t, m s = (.ok a, t) ∧ f a t = (.ok b, u) := by
  rw [bind_apply]
  obtain ⟨_ | _ | _, t⟩ := m s <;> simp [and_assoc]

theorem raise_eq_ok {wrap : δ → ε} {result : Except δ α} {a : α} :
    raise wrap result s = (.ok a, t) ↔ result = .ok a ∧ t = s := by
  cases result <;> simp [raise, eq_comm]

section

variable (part : σ → τ) (put : σ → τ → σ) (call : τ → Outcome δ α × τ)

theorem attempt_apply (s : σ) :
    (attempt part put call : Act σ ε (Except δ α)) s = match call (part s) with
      | (.ok value, t) => (.ok (.ok value), put s t)
      | (.err error, t) => (.ok (.error error), put s t)
      | (.panic, t) => (.panic, put s t) := rfl

/-- A call of a part whose error is passed on. -/
theorem attempt_raise_apply (wrap : δ → ε) (s : σ) :
    (attempt part put call >>= fun result => raise wrap result) s = match call (part s) with
      | (.ok value, t) => (.ok value, put s t)
      | (.err error, t) => (.err (wrap error), put s t)
      | (.panic, t) => (.panic, put s t) := by
  rw [bind_apply, attempt_apply]
  obtain ⟨_ | _ | _, t⟩ := call (part s) <;> rfl

end

/-! ### Pre- and postconditions -/

/-- How a method may end: with a value and a state of `Q`, or with an error and a state of
`E`. Whether it may abort is `A`. -/
def Ends (Q : α → σ → Prop) (E : σ → Prop) (A : Prop) : Outcome ε α × σ → Prop
  | (.ok value, t) => Q value t
  | (.err _, t) => E t
  | (.panic, _) => A

/-- Started where `P` holds, the method ends as `Q`, `E` and `A` say. -/
def Triple (P : σ → Prop) (m : Act σ ε α) (Q : α → σ → Prop) (E : σ → Prop) (A : Prop) : Prop :=
  ∀ s, P s → Ends Q E A (m s)

/-- The method keeps the invariant, also when it fails. -/
abbrev Keeps (I : σ → Prop) (m : Act σ ε α) : Prop := Triple I m (fun _ => I) I True

variable {P I : σ → Prop} {Q Q' : α → σ → Prop} {E E' : σ → Prop} {A : Prop}

theorem Triple.bind (hm : Triple P m Q E A) (hf : ∀ value, Triple (Q value) (f value) R E A) :
    Triple P (m >>= f) R E A := by
  intro s hs
  have hend := hm s hs
  rw [bind_apply]
  generalize m s = result at hend ⊢
  obtain ⟨_ | _ | _, t⟩ := result
  · exact hf _ t hend
  · exact hend
  · exact hend

theorem Keeps.pure (value : α) : Keeps I (Pure.pure value : Act σ ε α) := fun _ hs => hs

theorem Keeps.fail (error : ε) : Keeps I (Act.fail error : Act σ ε α) := fun _ hs => hs

theorem Keeps.bind (hm : Keeps I m) (hf : ∀ value, Keeps I (f value)) :
    Keeps I (m >>= f) := Triple.bind hm hf

theorem Keeps.modify {f : σ → σ} (hf : ∀ s, I s → I (f s)) :
    Keeps I (Act.modify f : Act σ ε Unit) :=
  hf

theorem Keeps.check (f : σ → Outcome ε α) : Keeps I (Act.check f) := by
  intro s hs
  rw [check_apply]
  cases f s with
  | ok | err => exact hs
  | panic => trivial

theorem Keeps.get : Keeps I (Act.get : Act σ ε σ) := fun _ hs => hs

/-- What is read satisfies the invariant. -/
theorem Keeps.get_bind {f : σ → Act σ ε β} (hf : ∀ s, I s → Keeps I (f s)) :
    Keeps I (Act.get >>= f) := fun s hs => hf s hs s hs

theorem Keeps.raise (wrap : δ → ε) (result : Except δ α) :
    Keeps I (Act.raise wrap result : Act σ ε α) := by
  cases result with
  | ok value => exact Keeps.pure value
  | error => exact Keeps.fail _

theorem Keeps.expect {m : Act σ δ α} (h : Keeps I m) : Keeps I (Act.expect m : Act σ ε α) := by
  intro s hs
  have hend := h s hs
  unfold Act.expect
  generalize m s = result at hend ⊢
  obtain ⟨_ | _ | _, t⟩ := result
  · exact hend
  · trivial
  · trivial

theorem Keeps.call {f : σ → Outcome ε α × σ}
    (h : ∀ s t, I s → Outcome.next (f s) = some t → I t) : Keeps I (Act.call f) := by
  intro s hs
  have hnext := fun t => h s t hs
  rw [call_apply]
  generalize f s = result at hnext ⊢
  obtain ⟨_ | _ | _, t⟩ := result
  · exact hnext t rfl
  · exact hnext t rfl
  · trivial

theorem Keeps.attempt {part : σ → τ} {put : σ → τ → σ} {call : τ → Outcome δ α × τ}
    (h : ∀ s, I s → (call (part s)).1 ≠ .panic → I (put s (call (part s)).2)) :
    Keeps I (Act.attempt part put call : Act σ ε (Except δ α)) := by
  intro s hs
  have hput := h s hs
  unfold Act.attempt
  generalize call (part s) = result at hput ⊢
  obtain ⟨_ | _ | _, t⟩ := result
  · exact hput nofun
  · exact hput nofun
  · trivial

/-! ### Methods that do not abort -/

/-- How a method that does not abort may end. -/
abbrev Returns (Q : α → σ → Prop) (E : σ → Prop) : Outcome ε α × σ → Prop := Ends Q E False

/-- Started where `P` holds, the method does not abort, and ends as `Q` and `E` say. -/
abbrev Total (P : σ → Prop) (m : Act σ ε α) (Q : α → σ → Prop) (E : σ → Prop) : Prop :=
  Triple P m Q E False

theorem Returns.ends (h : Returns Q E result) : Ends Q E True result := by
  obtain ⟨_ | _ | _, t⟩ := result
  · exact h
  · exact h
  · trivial

theorem Returns.ne_panic (h : Returns Q E result) : result.1 ≠ .panic := by
  obtain ⟨_ | _ | _, t⟩ := result
  · nofun
  · nofun
  · exact absurd h id

theorem Returns.mono {Q' : α → σ → Prop} {E' : σ → Prop} (h : Returns Q E result)
    (hQ : ∀ value t, Q value t → Q' value t) (hE : ∀ t, E t → E' t) : Returns Q' E' result := by
  obtain ⟨_ | _ | _, t⟩ := result
  · exact hQ _ t h
  · exact hE t h
  · exact h

/-- What holds however the method ends. -/
theorem Returns.state (h : Returns (fun _ => E) E result) : E result.2 := by
  obtain ⟨_ | _ | _, t⟩ := result
  · exact h
  · exact h
  · exact absurd h id

theorem Total.bind (hm : Total P m Q E) (hf : ∀ value, Total (Q value) (f value) R E) :
    Total P (m >>= f) R E := Triple.bind hm hf

theorem Total.pure (value : α) : Total (Q value) (Pure.pure value : Act σ ε α) Q E :=
  fun _ hs => hs

theorem Total.fail (error : ε) : Total E (Act.fail error : Act σ ε α) Q E := fun _ hs => hs

theorem Total.get : Total P (Act.get : Act σ ε σ) (fun s t => t = s ∧ P s) E :=
  fun _ hs => ⟨rfl, hs⟩

theorem Total.modify {f : σ → σ} {R : σ → Prop} (hf : ∀ s, P s → R (f s)) :
    Total P (Act.modify f : Act σ ε Unit) (fun _ => R) E := hf

/-- **The state that a method leaves** satisfies the invariant. -/
theorem Keeps.next (h : Keeps I m) (hs : I s) (hnext : Outcome.next (m s) = some t) : I t := by
  have hend := h s hs
  generalize m s = result at hend hnext
  obtain ⟨outcome, u⟩ := result
  cases (Outcome.next_eq_some.mp hnext).2
  cases outcome with
  | ok | err => exact hend
  | panic => cases hnext

end Act

end Reap.Base
