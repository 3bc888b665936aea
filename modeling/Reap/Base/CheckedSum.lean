import Mathlib.Algebra.BigOperators.Group.List.Basic
import Reap.Base.Check

/-!
# Checked sums

A machine number stands for a mathematical one, and adding two of them fails when the sum
stands for nothing. Such additions are neither total nor, once errors are counted, associative
or commutative: whether a sum over a vector succeeds depends on the order of the terms, and
only the value it gives does not.

`CheckedAdd` says what a checked addition is; `checkedSum` is the loop that adds up terms, each
of which may fail to be computed.

## What is proved

* `checkedSum_value` — a checked sum that succeeds stands for the sum of the terms.
* `exists_checkedSum` — it succeeds when every term can be computed and every partial sum is
  representable.
* `checkedSum_of_perm_cons` — a total that is kept by adding each new term to the last total
  is the checked sum of the terms in any order whose partial sums are representable.
-/

namespace Reap.Base

universe u v w x

open List

variable {α : Type u} {β : Type u} {M : Type w} {ε : Type x}

/-- The computation can only fail with this error. -/
def FailsOnly (e : ε) (x : Except ε α) : Prop := ∀ error, x = .error error → error = e

theorem failsOnly_ok (e : ε) (a : α) : FailsOnly e (.ok a : Except ε α) := nofun

theorem failsOnly_error (e : ε) : FailsOnly e (.error e : Except ε α) := by
  rintro error ⟨⟩
  rfl

theorem FailsOnly.bind {e : ε} {x : Except ε α} {f : α → Except ε β} (hx : FailsOnly e x)
    (hf : ∀ a, FailsOnly e (f a)) : FailsOnly e (x >>= f) := by
  cases x with
  | error error =>
    rintro _ ⟨⟩
    exact hx error rfl
  | ok a => exact hf a

/-- The number is represented. -/
def Fits (value : α → M) (m : M) : Prop := ∃ a, value a = m

/-- An addition that gives the representation of the sum, if there is one. -/
structure CheckedAdd [Add M] (add : α → α → Except ε α) (value : α → M) : Prop where
  injective : Function.Injective value
  sound : ∀ {a b c}, add a b = .ok c → value c = value a + value b
  complete : ∀ {a b}, Fits value (value a + value b) → ∃ c, add a b = .ok c

theorem CheckedAdd.add_eq_ok [Add M] {add : α → α → Except ε α} {value : α → M}
    (h : CheckedAdd add value) {a b c : α} : add a b = .ok c ↔ value c = value a + value b := by
  refine ⟨h.sound, fun hval => ?_⟩
  obtain ⟨d, hd⟩ := h.complete ⟨c, hval⟩
  rw [hd, h.injective ((h.sound hd).trans hval.symm)]

/-- Add up terms, starting with `start`. -/
def checkedSum (add : α → α → Except ε α) (term : β → Except ε α) (start : α) : List β → Except ε α
  | [] => .ok start
  | b :: rest =>
    match term b with
    | .error error => .error error
    | .ok t =>
    match add start t with
    | .error error => .error error
    | .ok next => checkedSum add term next rest

section

variable {add : α → α → Except ε α} {term : β → Except ε α} {start total : α} {l : List β}

theorem checkedSum_cons_eq_ok {b : β} {rest : List β} :
    checkedSum add term start (b :: rest) = .ok total ↔
      ∃ t next, term b = .ok t ∧ add start t = .ok next ∧
        checkedSum add term next rest = .ok total := by
  rw [checkedSum]
  cases hterm : term b with
  | error => simp
  | ok t =>
    cases hadd : add start t with
    | error => simp [hadd]
    | ok => simp [hadd]

/-- Every term of a sum that succeeds can be computed. -/
theorem term_of_checkedSum (h : checkedSum add term start l = .ok total) :
    ∀ b ∈ l, ∃ t, term b = .ok t := by
  induction l generalizing start with
  | nil => exact fun b hb => absurd hb not_mem_nil
  | cons _ _ ih =>
    obtain ⟨t, next, hterm, -, hrest⟩ := checkedSum_cons_eq_ok.mp h
    intro x hx
    rcases mem_cons.mp hx with rfl | hx
    · exact ⟨t, hterm⟩
    · exact ih hrest x hx

/-- A sum fails as its terms and its additions do. -/
theorem failsOnly_checkedSum {e : ε} (hadd : ∀ a b, FailsOnly e (add a b))
    (hterm : ∀ b, FailsOnly e (term b)) (start : α) (l : List β) :
    FailsOnly e (checkedSum add term start l) := by
  induction l generalizing start with
  | nil => exact failsOnly_ok e start
  | cons b _ ih =>
    have hb := hterm b
    unfold checkedSum
    cases hterm : term b with
    | error error =>
      rintro _ ⟨⟩
      exact hb error hterm
    | ok t =>
      have ht := hadd start t
      simp only
      cases hnext : add start t with
      | error error =>
        rintro _ ⟨⟩
        exact ht error hnext
      | ok next => exact ih next

variable [AddCommMonoid M] {value : α → M} (hadd : CheckedAdd add value) {exact : β → M}
  (hterm : ∀ b t, term b = .ok t → value t = exact b)

include hadd hterm

/-- A sum that succeeds stands for the sum of the terms. -/
theorem checkedSum_value (h : checkedSum add term start l = .ok total) :
    value total = value start + (l.map exact).sum := by
  induction l generalizing start with
  | nil =>
    cases h
    rw [map_nil, sum_nil, add_zero]
  | cons b _ ih =>
    obtain ⟨t, next, ht, hnext, hrest⟩ := checkedSum_cons_eq_ok.mp h
    rw [ih hrest, hadd.sound hnext, hterm b t ht, map_cons, sum_cons, add_assoc]

/-- A sum succeeds when its terms can be computed and its partial sums are representable. -/
theorem exists_checkedSum (hter : ∀ b ∈ l, ∃ t, term b = .ok t)
    (hfits : ∀ n, Fits value (value start + ((l.take n).map exact).sum)) :
    ∃ total, checkedSum add term start l = .ok total := by
  induction l generalizing start with
  | nil => exact ⟨start, rfl⟩
  | cons b rest ih =>
    obtain ⟨t, ht⟩ := hter b (.head _)
    have hfst : Fits value (value start + value t) := by
      have hone := hfits 1
      rwa [take_succ_cons, take_zero, map_singleton, sum_singleton, ← hterm b t ht] at hone
    obtain ⟨next, hnext⟩ := hadd.complete hfst
    have hrest : ∀ n, Fits value (value next + ((rest.take n).map exact).sum) := by
      intro n
      have hn := hfits (n + 1)
      rwa [take_succ_cons, map_cons, sum_cons, ← add_assoc, ← hterm b t ht,
        ← hadd.sound hnext] at hn
    obtain ⟨total, htot⟩ := ih (fun x hx => hter x (.tail _ hx)) hrest
    exact ⟨total, checkedSum_cons_eq_ok.mpr ⟨t, next, ht, hnext, htot⟩⟩

/-- The partial sums of a sum that succeeds are representable. -/
theorem fits_of_checkedSum (h : checkedSum add term start l = .ok total) (n : ℕ) :
    Fits value (value start + ((l.take n).map exact).sum) := by
  induction l generalizing start n with
  | nil => exact ⟨start, by simp⟩
  | cons b _ ih =>
    obtain ⟨t, next, ht, hnext, hrest⟩ := checkedSum_cons_eq_ok.mp h
    cases n with
    | zero => exact ⟨start, by simp⟩
    | succ n =>
      have hfits := ih hrest n
      rwa [hadd.sound hnext, hterm b t ht, add_assoc] at hfits

/-- **A total that is kept up to date is the checked sum.** One more term is added to the
total of the others; in whatever order the terms are then summed, the sum is the new total, if
its partial sums are representable. -/
theorem checkedSum_of_perm_cons {next t : α} {b : β} {l' : List β} (hperm : l'.Perm (b :: l))
    (htot : checkedSum add term start l = .ok total) (ht : term b = .ok t)
    (hnext : add total t = .ok next)
    (hfits : ∀ n, Fits value (value start + ((l'.take n).map exact).sum)) :
    checkedSum add term start l' = .ok next := by
  have hter : ∀ x ∈ l', ∃ t, term x = .ok t := by
    intro x hx
    rcases mem_cons.mp (hperm.mem_iff.mp hx) with rfl | hx
    · exact ⟨t, ht⟩
    · exact term_of_checkedSum htot x hx
  obtain ⟨sum, hsum⟩ := exists_checkedSum hadd hterm hter hfits
  have hval : value sum = value next := by
    calc value sum
      _ = value start + (l'.map exact).sum := checkedSum_value hadd hterm hsum
      _ = value start + ((b :: l).map exact).sum := by rw [(hperm.map exact).sum_eq]
      _ = value total + value t := by
        rw [checkedSum_value hadd hterm htot, hterm b t ht, map_cons, sum_cons,
          add_comm (exact b), add_assoc]
      _ = value next := (hadd.sound hnext).symm
  rw [hsum, hadd.injective hval]

end

end Reap.Base
