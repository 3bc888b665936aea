import Reap.Owned.Reducer

/-!
# How the reducer changes one order

The field-by-field meaning of the functions that change a retained order: the fill and
progress updates, the cancel outcomes, the reconnect, and the compaction marks. All of
them leave the quote alone.
-/

namespace Reap.Owned

open Reap.Core Reap.Order

@[simp] theorem value_maxUnits (a b : U256) : (maxUnits a b).value = max a.value b.value := by
  unfold maxUnits
  split
  · next h =>
    have hlt : a < b := compare_lt_iff_lt.mp h
    exact (max_eq_right (U256.lt_iff.mp hlt).le).symm
  · next h => rw [compare_eq_iff_eq.mp h, max_self]
  · next h =>
    have hlt : b < a := compare_gt_iff_gt.mp h
    exact (max_eq_left (U256.lt_iff.mp hlt).le).symm

namespace OwnedOrderEntry

variable (e : OwnedOrderEntry)

/-! ### A proven submission -/

/-- The submit state of an order of which there is exact remote evidence. -/
def provenSubmit : PmOwnedSubmitState :=
  if e.submit = .ambiguous ∧ e.venueOrder.isSome = true then .accepted else e.submit

theorem proveSubmitted_eq : e.proveSubmitted = { e with submit := e.provenSubmit } := by
  unfold proveSubmitted provenSubmit
  split_ifs <;> rfl

/-! ### Fills -/

/-- The cancel state once a filled order has overtaken it. -/
def racedCancel : PmOwnedCancelState :=
  match e.cancel with
  | .pending | .ambiguous | .accepted => .filledRace
  | .none => .none
  | .rejected => .rejected
  | .filledRace => .filledRace

theorem raceCancel_eq : e.raceCancel = { e with cancel := e.racedCancel } := by
  unfold raceCancel racedCancel
  cases h : e.cancel <;> simp only [← h]

/-- The status of an order that is filled to the last unit. -/
def filledStatus : PmOrderStatus := if e.status = some .expired then .expired else .filled

theorem markFilled_eq : e.markFilled = { e with status := some e.filledStatus } := by
  unfold markFilled filledStatus
  by_cases h : e.status = some .expired
  · rw [if_neg (not_not.mpr h), if_pos h, ← h]
  · rw [if_pos h, if_neg h]

theorem settleIf_eq (settled : Bool) : e.settleIf settled =
      { e with reconciliationRequired := e.reconciliationRequired && !settled } := by
  unfold settleIf
  cases settled <;> simp

variable (cumulative : U256)

/-- The status after a fill that leaves `cumulative`. -/
def statusAfterFill : Option PmOrderStatus :=
  if cumulative = e.original then some e.filledStatus
  else if cumulative.isZero = false ∧ e.statusTerminal = false then some .partiallyFilled
  else e.status

/-- The cancel state after a fill that leaves `cumulative`. -/
def cancelAfterFill : PmOwnedCancelState :=
  if cumulative = e.original then e.racedCancel else e.cancel

/-- A fill settles an order when all of `cumulative` is attributed and no more is to come, or
the venue has reported progress. -/
def settledByFill : Bool :=
  e.knownFillTotal == cumulative && (cumulative == e.original || e.lastProgress.isSome)

theorem concludeFill_eq : e.concludeFill cumulative = { e with
      status := e.statusAfterFill cumulative
      cancel := e.cancelAfterFill cumulative
      reconciliationRequired := e.reconciliationRequired &&
        !(cumulative == e.original && e.knownFillTotal == cumulative) } := by
  unfold concludeFill statusAfterFill cancelAfterFill
  by_cases hfull : cumulative = e.original
  · simp only [if_pos hfull, markFilled_eq, settleIf_eq, raceCancel_eq, beq_iff_eq.mpr hfull,
      Bool.true_and]
    rfl
  · simp only [if_neg hfull, beq_eq_false_iff_ne.mpr hfull, Bool.false_and, Bool.not_false,
      Bool.and_true]
    split_ifs <;> rfl

/-- Every field of an order after a fill. -/
theorem advanceFromFill_eq (occurrence : PmOwnedObservationOccurrence) :
    e.advanceFromFill cumulative occurrence = { e with
      submit := e.provenSubmit
      cumulativeFilled := cumulative
      status := e.statusAfterFill cumulative
      cancel := e.cancelAfterFill cumulative
      reconciliationRequired := e.reconciliationRequired && !e.settledByFill cumulative
      lastOccurrence := some (match e.lastOccurrence with
        | none => occurrence
        | some prior => prior.causalMax occurrence) } := by
  -- the first clearing of the flag is implied by the second
  have hflag : (e.reconciliationRequired &&
      !(cumulative == e.original && e.knownFillTotal == cumulative) &&
        !e.settledByFill cumulative) = (e.reconciliationRequired && !e.settledByFill cumulative) := by
    unfold settledByFill
    cases e.reconciliationRequired <;> cases e.knownFillTotal == cumulative <;>
      cases cumulative == e.original <;> simp
  unfold advanceFromFill recordFill
  rw [proveSubmitted_eq, concludeFill_eq, settleIf_eq, ← hflag]
  rfl

/-! ### Progress -/

/-- The cancel state after progress to `status`. -/
def cancelAfterProgress (status : PmOrderStatus) : PmOwnedCancelState :=
  match status, e.cancel with
  | .filled, _ => e.racedCancel
  | .cancelled, .pending | .cancelled, .ambiguous => .accepted
  | _, cancel => cancel

variable {status : PmOrderStatus} {progress : PmOrderProgress}

theorem convergeCancelWithStatus_eq (h : e.status = some status) :
    e.convergeCancelWithStatus = { e with cancel := e.cancelAfterProgress status } := by
  unfold convergeCancelWithStatus cancelAfterProgress
  rw [h]
  cases status <;> cases hc : e.cancel <;> simp only [raceCancel_eq, ← hc, ← h]

/-- Every field of an order after progress. -/
theorem applyProgress_eq (observation : PmOwnedOrderProgressObservation) :
    e.applyProgress observation = { e with
      submit := e.provenSubmit
      cumulativeFilled := observation.progress.cumulativeFilled
      status := some observation.progress.status
      cancel := e.cancelAfterProgress observation.progress.status
      lastOccurrence := some observation.occurrence
      lastProgress := some (observation.occurrence, observation.progress)
      reconciliationRequired :=
        decide (observation.progress.cumulativeFilled ≠ e.knownFillTotal) } := by
  unfold applyProgress
  rw [proveSubmitted_eq, convergeCancelWithStatus_eq _ rfl]
  rfl

section

variable {e : OwnedOrderEntry} (h : validateTerminalProgress e progress = .ok ())

include h

/-- Progress keeps a terminal status, except that a cancelled order may turn out filled. -/
theorem status_of_validateTerminalProgress (hst : e.status = some status)
    (hterm : status.isTerminal = true) :
    progress.status = status ∨ status = .cancelled ∧ progress.status = .filled := by
  unfold validateTerminalProgress at h
  simp only [hst, hterm, Bool.true_eq_false, if_false] at h
  split at h
  · next hp => exact .inl hp
  · next hp => exact .inl hp
  · next hp => exact .inl hp
  · next hp => exact .inl hp
  · next hp => exact .inr ⟨rfl, hp⟩
  · cases h

/-- Progress to a terminal order keeps it terminal. -/
theorem statusTerminal_of_validateTerminalProgress (hterm : e.statusTerminal = true) :
    progress.status.isTerminal = true := by
  unfold statusTerminal at hterm
  split at hterm
  · next status hst =>
    rcases status_of_validateTerminalProgress h hst hterm with hp | ⟨-, hp⟩
    · rw [hp, hterm]
    · rw [hp]
      rfl
  · cases hterm

end

/-! ### Cancel outcomes -/

section

variable (outcome : PmOwnedCancelOutcome)

/-- The submit state after a cancel outcome. -/
def submitAfterCancel : PmOwnedSubmitState :=
  if outcome = .accepted then e.provenSubmit else e.submit

/-- The status after a cancel outcome. -/
def statusAfterCancel : Option PmOrderStatus :=
  match outcome with
  | .alreadyFilled => some .filled
  | .accepted => if e.status = some .filled then some .filled else some .cancelled
  | .rejected | .ambiguous => e.status

/-- The filled quantity after a cancel outcome. -/
def cumulativeAfterCancel : U256 :=
  if outcome = .alreadyFilled then e.original else e.cumulativeFilled

/-- The cancel state after a cancel outcome. -/
def cancelAfterCancel : PmOwnedCancelState :=
  if e.status = some .filled then .filledRace
  else
    match outcome with
    | .accepted => .accepted
    | .rejected => .rejected
    | .alreadyFilled => .filledRace
    | .ambiguous => .ambiguous

/-- The reconciliation flag after a cancel outcome. -/
def reconciliationAfterCancel : Bool :=
  match outcome with
  | .alreadyFilled => decide (e.knownFillTotal ≠ e.original)
  | .rejected => e.reconciliationRequired
  | .accepted | .ambiguous =>
    if e.status = some .filled then e.reconciliationRequired else true

end

/-- Every field of an order after a cancel outcome. -/
theorem applyCancelOutcome_eq (outcome : PmOwnedCancelOutcome) :
    e.applyCancelOutcome outcome = { e with
      submit := e.submitAfterCancel outcome
      status := e.statusAfterCancel outcome
      cumulativeFilled := e.cumulativeAfterCancel outcome
      cancel := e.cancelAfterCancel outcome
      reconciliationRequired := e.reconciliationAfterCancel outcome } := by
  unfold submitAfterCancel statusAfterCancel cumulativeAfterCancel cancelAfterCancel
    reconciliationAfterCancel applyCancelOutcome
  by_cases hfil : e.status = some .filled
  · cases outcome <;> simp [hfil, proveSubmitted_eq]
  · cases outcome <;> simp [hfil, proveSubmitted_eq]

/-! ### Reconnects and marks -/

theorem beginEpoch_eq : e.beginEpoch = { e with
      submit := if e.isLive = true ∧ e.submit = .pending then .ambiguous else e.submit
      reconciliationRequired := e.reconciliationRequired || e.isLive } := by
  unfold beginEpoch
  cases hlive : e.isLive with
  | false => simp
  | true =>
    by_cases hsub : e.submit = .pending
    · simp [hsub]
    · simp [hsub]

/-- A change of the compaction mark. -/
def SameButMark (e e' : OwnedOrderEntry) : Prop :=
  ∃ generation, e' = { e with compactionGeneration := generation }

theorem sameButMark_ite {p : Prop} [Decidable p] {generation : Option UInt64} :
    SameButMark e (if p then { e with compactionGeneration := generation } else e) := by
  split_ifs
  · exact ⟨_, rfl⟩
  · exact ⟨e.compactionGeneration, rfl⟩

end OwnedOrderEntry

end Reap.Owned
