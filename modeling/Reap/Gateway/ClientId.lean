import Mathlib.Algebra.Ring.Nat
import Mathlib.Data.Nat.Basic

/-!
# Client order ids

A generator gives each order an id of its own: a prefix of one to eight characters, then the node,
the process session, the time and a counter, each in base 36 and padded to a fixed width. Nothing
separates the fields; the widths do, because each number fits its width.

The counter is a 64-bit atomic that wraps. The id has its value modulo `36 ^ 6`, which does not
divide `2 ^ 64`, so that a value can come back early once the counter has wrapped. Calls are
numbered in the order in which they increment it. Ids are lists of characters, and the approval
binding that an id carries is left out.

## What is proved

* `value36_paddedBase36`, `length_paddedBase36` — a padded number can be read back.
* `next_eq_next_iff` — equal ids have equal fields.
* `ids_distinct_iff` — when two calls of a generator have different ids, whatever their times.
-/

namespace Reap.Gateway

/-- `COUNTER_MODULUS`: six digits. -/
def counterModulus : ℕ := 2_176_782_336

/-- `SESSION_MODULUS`: four digits. -/
def sessionModulus : ℕ := 1_679_616

/-- `TIMESTAMP_MODULUS`: nine digits. -/
def timestampModulus : ℕ := 101_559_956_668_416

/-- Why a generator is refused. -/
inductive ClientIdError where
  | invalidPrefix
  deriving DecidableEq, Repr

/-- What `new` checks of a prefix. -/
def ValidPrefix (text : List Char) : Prop :=
  0 < text.length ∧ text.length ≤ 8 ∧ text.all Char.isAlphanum

instance (text : List Char) : Decidable (ValidPrefix text) := inferInstanceAs (Decidable (_ ∧ _))

/-- It numbers orders. -/
structure ClientOrderIdGenerator where
  idPrefix : List Char
  valid : ValidPrefix idPrefix
  nodeId : UInt16
  /-- Tells the processes of a node apart. -/
  sessionId : Fin sessionModulus
  /-- The number of calls so far, modulo `2 ^ 64`. -/
  counter : UInt64

/-! ### Numbers in base 36 -/

/-- The digit of a value below 36. -/
def base36Digit (digit : ℕ) : Char :=
  if digit < 10 then Char.ofNat ('0'.toNat + digit) else Char.ofNat ('a'.toNat + digit - 10)

/-- The loop of `base36`: the digits, last first. -/
def base36Reversed (value : ℕ) : List Char :=
  if value = 0 then [] else base36Digit (value % 36) :: base36Reversed (value / 36)

/-- `base36`. -/
def base36 (value : ℕ) : List Char :=
  if value = 0 then ['0'] else (base36Reversed value).reverse

variable (value width : ℕ)

/-- `padded_base36`. -/
def paddedBase36 : List Char := (base36 value).leftpad width '0'

/-- The number that digits stand for. -/
def value36 (digits : List Char) : ℕ :=
  digits.foldl (fun n c => 36 * n + (c.toNat - if c.isDigit then 48 else 87)) 0

theorem base36Digit_spec : ∀ digit < 36, (base36Digit digit).isAlphanum ∧
    (base36Digit digit).toNat - (if (base36Digit digit).isDigit then 48 else 87) = digit := by
  decide

theorem value36_reverse (value : ℕ) : value36 (base36Reversed value).reverse = value := by
  unfold value36
  rw [List.foldl_reverse]
  induction value using base36Reversed.induct with
  | case1 => simp [base36Reversed]
  | case2 _ hne ih =>
    rw [base36Reversed, if_neg hne, List.foldr_cons, ih,
      (base36Digit_spec _ (Nat.mod_lt _ (by decide))).2]
    omega

theorem value36_paddedBase36 : value36 (paddedBase36 value width) = value := by
  have hbase : value36 (base36 value) = value := by
    unfold base36
    split_ifs with hzero
    · rw [hzero]; rfl
    · exact value36_reverse value
  unfold paddedBase36 List.leftpad
  induction width - (base36 value).length with
  | zero => exact hbase
  | succ _ ih => exact ih

theorem length_base36Reversed {width value : ℕ} (h : value < 36 ^ width) :
    (base36Reversed value).length ≤ width := by
  induction width generalizing value with
  | zero =>
    obtain rfl : value = 0 := by simpa using h
    simp [base36Reversed]
  | succ _ ih =>
    rw [base36Reversed]
    split_ifs
    · simp
    · exact Nat.succ_le_succ (ih (by rw [Nat.pow_succ] at h; omega))

theorem length_paddedBase36 {width value : ℕ} (hwid : 0 < width) (h : value < 36 ^ width) :
    (paddedBase36 value width).length = width := by
  unfold paddedBase36 base36
  rw [List.length_leftpad]
  split_ifs
  · exact max_eq_left hwid
  · exact max_eq_left (by simpa using length_base36Reversed h)

theorem alphanum_paddedBase36 : (paddedBase36 value width).all Char.isAlphanum := by
  have hloop : (base36Reversed value).all Char.isAlphanum := by
    induction value using base36Reversed.induct with
    | case1 => simp [base36Reversed]
    | case2 _ hne ih =>
      rw [base36Reversed, if_neg hne, List.all_cons, ih,
        (base36Digit_spec _ (Nat.mod_lt _ (by decide))).1]
      rfl
  unfold paddedBase36 base36 List.leftpad
  split_ifs <;> simp [hloop]

theorem paddedBase36_inj {value value' width : ℕ} :
    paddedBase36 value width = paddedBase36 value' width ↔ value = value' := by
  refine ⟨fun h => ?_, fun h => h ▸ rfl⟩
  simpa only [value36_paddedBase36] using congrArg value36 h

/-! ### The generator -/

/-- `process_session_id`. -/
def processSessionId (nanos : UInt64) (processId : UInt32) : Fin sessionModulus :=
  ⟨(nanos ^^^ processId.toUInt64).toNat % sessionModulus, Nat.mod_lt _ (by decide)⟩

namespace ClientOrderIdGenerator

/-- The clock and the process id are those that `process_session_id` reads. -/
def new (idPrefix : List Char) (nodeId : UInt16) (nanos : UInt64) (processId : UInt32) :
    Except ClientIdError ClientOrderIdGenerator :=
  if h : ValidPrefix idPrefix then .ok ⟨idPrefix, h, nodeId, processSessionId nanos processId, 0⟩
  else .error .invalidPrefix

variable (g h : ClientOrderIdGenerator) (tsMs tsMs' : UInt64)

/-- What follows the prefix. -/
def fields : List Char :=
  paddedBase36 g.nodeId.toNat 4 ++ (paddedBase36 g.sessionId 4 ++
    (paddedBase36 (tsMs.toNat % timestampModulus) 9 ++
      paddedBase36 (g.counter.toNat % counterModulus) 6))

/-- The id, and the generator with the incremented counter. -/
def next : List Char × ClientOrderIdGenerator :=
  (g.idPrefix ++ g.fields tsMs, { g with counter := g.counter + 1 })

/-- The generator after as many calls, each at a time of its own. -/
def after (times : ℕ → UInt64) : ℕ → ClientOrderIdGenerator
  | 0 => g
  | n + 1 => ((after times n).next (times n)).2

variable (times : ℕ → UInt64)

/-- The id that a call gets. -/
def idOf (n : ℕ) : List Char := ((g.after times n).next (times n)).1

theorem length_field : (paddedBase36 g.nodeId.toNat 4).length = 4 ∧
    (paddedBase36 g.sessionId 4).length = 4 ∧
    (paddedBase36 (tsMs.toNat % timestampModulus) 9).length = 9 ∧
    (paddedBase36 (g.counter.toNat % counterModulus) 6).length = 6 := by
  refine ⟨length_paddedBase36 (by decide) (lt_trans g.nodeId.toNat_lt (by decide)),
    length_paddedBase36 (by decide) g.sessionId.isLt,
    length_paddedBase36 (by decide) (Nat.mod_lt _ (by decide)),
    length_paddedBase36 (by decide) (Nat.mod_lt _ (by decide))⟩

theorem length_fields : (g.fields tsMs).length = 23 := by
  simp [fields, g.length_field tsMs]

theorem next_eq_next_iff : (g.next tsMs).1 = (h.next tsMs').1 ↔
    g.idPrefix = h.idPrefix ∧ g.nodeId = h.nodeId ∧ g.sessionId = h.sessionId ∧
      tsMs.toNat % timestampModulus = tsMs'.toNat % timestampModulus ∧
      g.counter.toNat % counterModulus = h.counter.toNat % counterModulus := by
  obtain ⟨hnode, hses, htime, -⟩ := g.length_field tsMs
  obtain ⟨hnode', hses', htime', -⟩ := h.length_field tsMs'
  refine ⟨fun heq => ?_, fun ⟨hpre, hnode, hses, htime, hcou⟩ => ?_⟩
  · obtain ⟨hpre, heq⟩ := List.append_inj' heq (by simp [length_fields])
    obtain ⟨hnode, heq⟩ := List.append_inj heq (by rw [hnode, hnode'])
    obtain ⟨hses, heq⟩ := List.append_inj heq (by rw [hses, hses'])
    obtain ⟨htime, heq⟩ := List.append_inj heq (by rw [htime, htime'])
    exact ⟨hpre, UInt16.toNat_inj.mp (paddedBase36_inj.mp hnode),
      Fin.ext (paddedBase36_inj.mp hses), paddedBase36_inj.mp htime, paddedBase36_inj.mp heq⟩
  · simp [next, fields, hpre, hnode, hses, htime, hcou]

theorem after_eq (n : ℕ) : g.after times n = { g with counter := g.counter + UInt64.ofNat n } := by
  induction n with
  | zero => simp [after]
  | succ _ ih => simp [after, ih, next, UInt64.add_assoc]

theorem idOf_eq_idOf_iff (i j : ℕ) : g.idOf times i = g.idOf times j ↔
    (times i).toNat % timestampModulus = (times j).toNat % timestampModulus ∧
      (g.counter.toNat + i) % 2 ^ 64 % counterModulus =
        (g.counter.toNat + j) % 2 ^ 64 % counterModulus := by
  simp [idOf, next_eq_next_iff, after_eq]

/-- **When two calls of a generator have different ids.** -/
theorem ids_distinct_iff (i j : ℕ) (hij : i < j) (hwithin : j < i + counterModulus) :
    (24 ≤ (g.next tsMs).1.length ∧ (g.next tsMs).1.length ≤ 31 ∧
        (g.next tsMs).1.all Char.isAlphanum) ∧
      ((g.next tsMs).1 = (h.next tsMs').1 ↔
        g.idPrefix = h.idPrefix ∧ g.nodeId = h.nodeId ∧ g.sessionId = h.sessionId ∧
          tsMs.toNat % timestampModulus = tsMs'.toNat % timestampModulus ∧
          g.counter.toNat % counterModulus = h.counter.toNat % counterModulus) ∧
      ((∀ times, g.idOf times i ≠ g.idOf times j) ↔
        ¬ ((g.counter.toNat + j) % 2 ^ 64 < (g.counter.toNat + i) % 2 ^ 64 ∧
          j - i = 2 ^ 64 % counterModulus)) := by
  obtain ⟨hpos, hsho, halp⟩ := g.valid
  have hlen : (g.next tsMs).1.length = g.idPrefix.length + 23 := by
    rw [next, List.length_append, length_fields]
  refine ⟨⟨by omega, by omega, ?_⟩, next_eq_next_iff _ _ _ _, ?_⟩
  · simp [next, fields, halp, alphanum_paddedBase36]
  · simp only [ne_eq, idOf_eq_idOf_iff]
    have hcou : (g.counter.toNat + i) % 2 ^ 64 % counterModulus =
          (g.counter.toNat + j) % 2 ^ 64 % counterModulus ↔
        (g.counter.toNat + j) % 2 ^ 64 < (g.counter.toNat + i) % 2 ^ 64 ∧
          j - i = 2 ^ 64 % counterModulus := by
      -- the counter went on, or it wrapped
      obtain hj | hj : (g.counter.toNat + j) % 2 ^ 64 = (g.counter.toNat + i) % 2 ^ 64 + (j - i) ∨
          (g.counter.toNat + j) % 2 ^ 64 + 2 ^ 64 = (g.counter.toNat + i) % 2 ^ 64 + (j - i) := by
        unfold counterModulus at hwithin
        omega
      all_goals
        unfold counterModulus at *
        omega
    rw [hcou]
    exact ⟨fun hall hwrap => hall (fun _ => 0) ⟨rfl, hwrap⟩, fun hnot _ heq => hnot heq.2⟩

end ClientOrderIdGenerator

namespace Sample

/-- A new generator of node 7. -/
def generator : ClientOrderIdGenerator := ⟨['r'], by decide, 7, processSessionId 0 0, 0⟩

end Sample

open Sample ClientOrderIdGenerator

theorem ids_distinct_first :
    1 < counterModulus ∧ ∀ times, generator.idOf times 0 ≠ generator.idOf times 1 :=
  ⟨by decide, (ids_distinct_iff generator generator 0 0 0 1 (by decide) (by decide)).2.2.mpr
    (by decide)⟩

/-- The last value of the counter comes back after it has wrapped. -/
theorem id_repeats_after_wrap : 2 ^ 64 % counterModulus < counterModulus ∧
    generator.idOf (fun _ => 0) (2 ^ 64 - 1) =
      generator.idOf (fun _ => 0) (2 ^ 64 - 1 + 2 ^ 64 % counterModulus) := by
  refine ⟨by decide, (idOf_eq_idOf_iff _ _ _ _).mpr ⟨rfl, by decide⟩⟩

end Reap.Gateway
