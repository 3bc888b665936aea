import Reap.Base.Run

/-!
# Chains of checks

A function that returns at the first check that fails. `Except` is the type of a function that
cannot abort, `Outcome` of one that can; both read the same way.

## What is proved

* `refuse_eq_ok`, `bind_eq_ok`, `Outcome.refuse_eq_ok`, `Outcome.okOr_eq_ok` — what it means
  that a chain of checks has passed.
-/

namespace Reap.Base

universe u v

variable {ε δ : Type u} {α β : Type v}

/-- `if p { return Err(error) }`. -/
def refuse (p : Prop) [Decidable p] (error : ε) : Except ε Unit :=
  if p then .error error else .ok ()

/-- `result.map_err(wrap)?`. -/
def wrapError (wrap : δ → ε) : Except δ α → Except ε α
  | .ok value => .ok value
  | .error error => .error (wrap error)

variable {p : Prop} {result : Except δ α} {value : α} {wrap : δ → ε}

@[simp] theorem refuse_eq_ok [Decidable p] {error : ε} {u : Unit} :
    refuse p error = .ok u ↔ ¬ p := by
  unfold refuse
  split_ifs with h <;> simp [h]

@[simp] theorem wrapError_eq_ok : wrapError wrap result = .ok value ↔ result = .ok value := by
  cases result <;> simp [wrapError]

theorem pure_eq_ok {a b : α} : (pure a : Except ε α) = .ok b ↔ b = a :=
  ⟨fun h => (Except.ok.inj h).symm, fun h => h ▸ rfl⟩

theorem bind_eq_ok {x : Except ε α} {f : α → Except ε β} {b : β} :
    (x >>= f) = .ok b ↔ ∃ a, x = .ok a ∧ f a = .ok b := by
  cases x with
  | ok a => exact ⟨fun h => ⟨a, rfl, h⟩, fun ⟨_, ha, h⟩ => by cases ha; exact h⟩
  | error => exact ⟨nofun, nofun⟩

namespace Outcome

/-- `if p { return Err(error) }`. -/
def refuse (p : Prop) [Decidable p] (error : ε) : Outcome ε Unit :=
  if p then .err error else .ok ()

/-- `option.ok_or(error)?`. -/
def okOr (error : ε) : Option α → Outcome ε α
  | some value => .ok value
  | none => .err error

/-- `result.map_err(wrap)?`, of a result that cannot abort. -/
def wrapError (wrap : δ → ε) (result : Except δ α) : Outcome ε α :=
  ofExcept (Base.wrapError wrap result)

variable {error : ε} {x : Outcome ε α} {f : α → Outcome ε β} {xs : List α}

@[simp] theorem refuse_eq_ok [Decidable p] {u : Unit} : refuse p error = .ok u ↔ ¬ p := by
  unfold refuse
  split_ifs with h <;> simp [h]

@[simp] theorem okOr_eq_ok {x : Option α} : okOr error x = .ok value ↔ x = some value := by
  cases x <;> simp [okOr]

@[simp] theorem wrapError_eq_ok : wrapError wrap result = .ok value ↔ result = .ok value := by
  rw [wrapError, ofExcept_eq_ok, Base.wrapError_eq_ok]

theorem return_eq_ok {a b : α} : (pure a : Outcome ε α) = .ok b ↔ b = a :=
  ⟨fun h => (ok.inj h).symm, fun h => h ▸ rfl⟩

/-- The outcome has a value that passes a test. -/
def okWith (test : α → Bool) : Outcome ε α → Bool
  | .ok value => test value
  | .err _ | .panic => false

theorem okWith_eq_true {test : α → Bool} :
    x.okWith test = true ↔ ∃ value, x = .ok value ∧ test value = true := by
  cases x <;> simp [okWith]

/-- The outcome is an error. -/
def isErr : Outcome ε α → Bool
  | .err _ => true
  | .ok _ | .panic => false

theorem ne_ok_of_isErr (h : x.isErr = true) (value : α) : x ≠ .ok value := by
  cases x with
  | err => nofun
  | ok | panic => cases h

theorem ne_panic_of_ok {a : α} (h : x = .ok a) : x ≠ .panic := by
  rw [h]
  nofun

@[simp] theorem ofExcept_ne_panic {result : Except ε α} : ofExcept result ≠ .panic := by
  cases result <;> nofun

@[simp] theorem refuse_ne_panic [Decidable p] : refuse p error ≠ .panic := by
  unfold refuse
  split_ifs <;> nofun

@[simp] theorem okOr_ne_panic {x : Option α} : okOr error x ≠ .panic := by
  cases x <;> nofun

@[simp] theorem wrapError_ne_panic : wrapError wrap result ≠ .panic := by
  cases result <;> nofun

/-- The call succeeds exactly if `P` holds, and then with a value of `Q`. -/
structure SucceedsIff (x : Outcome ε α) (P : Prop) (Q : α → Prop) : Prop where
  iff : (∃ value, x = .ok value) ↔ P
  value : ∀ value, x = .ok value → Q value

variable {g : α → β}

/-- A call that only changes the value of another succeeds when that does. -/
theorem SucceedsIff.map {y : Outcome ε β} {P : Prop} {Q : α → Prop} {R : β → Prop}
    (h : SucceedsIff x P Q) (hy : ∀ value, y = .ok value ↔ ∃ a, x = .ok a ∧ value = g a)
    (hR : ∀ a, y = .ok (g a) → Q a → R (g a)) : SucceedsIff y P R := by
  refine ⟨Iff.trans ⟨?_, ?_⟩ h.iff, fun value hval => ?_⟩
  · rintro ⟨_, hval⟩
    obtain ⟨a, ha, -⟩ := (hy _).mp hval
    exact ⟨a, ha⟩
  · rintro ⟨a, ha⟩
    exact ⟨g a, (hy _).mpr ⟨a, ha, rfl⟩⟩
  · obtain ⟨a, ha, rfl⟩ := (hy _).mp hval
    exact hR a hval (h.value a ha)

/-! ### Lists -/

instance : LawfulMonad (Outcome ε) :=
  LawfulMonad.mk' _ (fun x => by cases x <;> rfl) (fun _ _ => rfl) fun x _ _ => by cases x <;> rfl

theorem mem_of_mapM_eq_ok {ys : List β} (h : xs.mapM f = .ok ys) (y : β) :
    y ∈ ys ↔ ∃ x ∈ xs, f x = .ok y := by
  induction xs generalizing ys with
  | nil =>
    cases h
    simp
  | cons _ _ ih =>
    rw [List.mapM_cons] at h
    obtain ⟨first, hfst, h⟩ := bind_eq_ok.mp h
    obtain ⟨rest, hrest, h⟩ := bind_eq_ok.mp h
    cases h
    simp [ih hrest, hfst, eq_comm]

theorem mapM_eq_ok_map (h : ∀ x ∈ xs, f x = .ok (g x)) : xs.mapM f = .ok (xs.map g) := by
  induction xs with
  | nil => rfl
  | cons x _ ih =>
    rw [List.mapM_cons, h x (.head _), ok_bind, ih fun x hx => h x (.tail _ hx), ok_bind]
    rfl

/-- A loop that passes still passes where each of its rounds does. -/
theorem foldlM_mono {step step' : β → α → Outcome ε β}
    (h : ∀ x ∈ xs, ∀ s t, step s x = .ok t → step' s x = .ok t) {s t : β}
    (hfold : xs.foldlM step s = .ok t) : xs.foldlM step' s = .ok t := by
  induction xs generalizing s with
  | nil => exact hfold
  | cons x _ ih =>
    rw [List.foldlM_cons] at hfold ⊢
    obtain ⟨next, hnext, hfold⟩ := bind_eq_ok.mp hfold
    rw [h x (.head _) s next hnext]
    exact ih (fun x hx => h x (.tail _ hx)) hfold

/-- Every round of a loop that passes has passed. -/
theorem exists_of_foldlM {step : β → α → Outcome ε β} {s t : β} (hfold : xs.foldlM step s = .ok t) :
    ∀ x ∈ xs, ∃ s t, step s x = .ok t := by
  induction xs generalizing s with
  | nil => nofun
  | cons _ _ ih =>
    obtain ⟨next, hnext, hfold⟩ := bind_eq_ok.mp hfold
    intro y hy
    rcases List.mem_cons.mp hy with rfl | hy
    · exact ⟨s, next, hnext⟩
    · exact ih hfold y hy

theorem mapM_ne_panic (h : ∀ x ∈ xs, f x ≠ .panic) : xs.mapM f ≠ .panic := by
  induction xs with
  | nil => nofun
  | cons x _ ih =>
    rw [List.mapM_cons]
    refine bind_ne_panic (h x (.head _)) fun _ _ => ?_
    exact bind_ne_panic (ih fun x hx => h x (.tail _ hx)) fun _ _ => nofun

end Outcome

end Reap.Base
