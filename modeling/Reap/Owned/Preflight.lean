import Reap.Owned.Terminal

/-!
# Preflights

Most transitions of the lifecycle are written twice: as a preflight that only reads the record,
and as the transition that changes it. A caller preflights, writes its journal, and then expects
the transition to succeed. This module has the preflights, as the source writes them, and
compares them with the transitions.

## What is proved

* `applySubmitResult_preflight`, `observeFill_preflight`, `observeProgress_preflight`,
  `applyCancelResult_preflight`, `compactProvenTerminal_preflight`, `admitQuote_preflight` — the
  reply of each transition is the one of its preflight.
* `commit_eq_admitQuote` — committing a prepared admission is admitting the quote.
* `refined_of_reach` — all of it, of every reachable record.
-/

namespace Reap.Owned

open Base Reap.Core Reap.Order

namespace PmOwnedOrderLifecycle

/-! ### The preflights -/

section

variable (s : PmOwnedOrderLifecycle) (client : PmClientOrderKey)
  (occurrence : PmOwnedObservationOccurrence)

/-- `preflight_submit_result`. -/
def preflightSubmitResult (result : PmOwnedSubmitResult) : Reply PmOwnedSubmitApply :=
  match s.findClient client with
  | none => .panic
  | some none => .err .unknownClientOrder
  | some (some (_, prior)) =>
  match prior.submit, result with
  | .pending, .accepted venue =>
    .ofExcept (s.preflightVenueBinding client venue) >>= fun _ => .ok .accepted
  | .ambiguous, .accepted venue =>
    .ofExcept (s.preflightVenueBinding client venue) >>= fun _ => .ok .lateAccepted
  | .pending, .rejected | .ambiguous, .rejected => .ok .rejected
  | .pending, .ambiguous => .ok .markedAmbiguous
  | .pending, .ambiguousOwned venue =>
    .ofExcept (s.preflightVenueBinding client venue) >>= fun _ => .ok .markedAmbiguous
  | .ambiguous, .ambiguous | .rejected, .rejected => .ok .duplicate
  | .ambiguous, .ambiguousOwned venue =>
    if prior.venueOrder = some venue then .ok .duplicate else .err .venueBindingConflict
  | .accepted, .accepted venue =>
    if prior.venueOrder = some venue then .ok .duplicate else .err .venueBindingConflict
  | .accepted, .ambiguousOwned venue =>
    if prior.venueOrder = some venue then .ok .duplicate else .err .venueBindingConflict
  | .accepted, _ => .err .invalidSubmitTransition
  | .rejected, _ => .err .terminalNonResurrection

/-- The occurrence belongs to an epoch before the current one. -/
def isOldEpoch : Bool :=
  match occurrence.privateOccurrence, s.currentEpoch with
  | some observed, some epoch => decide (observed.epoch < epoch)
  | _, _ => false

/-- How the preflight of an observation starts: an occurrence of an old epoch passes, whatever
else the preflight would check. -/
def preflightOccurrence (rest : Reply Unit) : Reply Unit :=
  match s.validateOccurrence occurrence with
  | .ok () | .error .oldEpoch => if s.isOldEpoch occurrence then .ok () else rest
  | .error error => .err error

/-- `preflight_fill`. -/
def preflightFill (observation : PmOwnedFillObservation) : Reply Unit :=
  s.preflightOccurrence observation.occurrence <|
  match s.findVenue observation.key.venueOrder with
  | none => .panic
  | some none => .err .unboundVenueOrder
  | some (some (_, prior)) =>
  if prior.submit = .rejected then .err .terminalNonResurrection
  else if reportsOverfill prior observation then .err .overfill
  else if reportsBackwards prior observation then .err .backwardsCumulative
  else
  match s.searchFill observation.key with
  | none => .panic
  | some (.ok fillIndex) =>
    match s.fills[fillIndex]? with
    | none => .panic
    | some priorFill =>
      if priorFill.clientOrder ≠ prior.clientOrder ∨ priorFill.quantity ≠ observation.quantity then
        .err .fillConflict
      else .ok ()
  | some (.error _) =>
    if s.fills.length = maxPmOwnedFillKeys then .err .fillCapacity
    else
    match prior.knownFillTotal.checkedAdd observation.quantity.protocolUnits with
    | .error _ => .err .arithmeticOverflow
    | .ok knownFillTotal =>
      if prior.original < knownFillTotal then .err .overfill else .ok ()

/-- `preflight_progress`. -/
def preflightProgress (observation : PmOwnedOrderProgressObservation) : Reply Unit :=
  s.preflightOccurrence observation.occurrence <|
  match s.findClient observation.clientOrder with
  | none => .panic
  | some none => .err .unknownClientOrder
  | some (some (_, prior)) =>
  if prior.venueOrder ≠ some observation.venueOrder then .err .venueBindingConflict
  else if observation.progress.originalQuantity ≠ prior.intent.quantity then
    .err .progressOriginalMismatch
  else if isOutOfOrder prior observation.occurrence then .ok ()
  else
  let sameOccurrence := match prior.lastProgress with
    | some (occurrence, progress) =>
      if occurrence = observation.occurrence then some progress else none
    | none => none
  match sameOccurrence with
  | some progress =>
    if progress = observation.progress then .ok () else .err .sameOccurrenceConflict
  | none =>
  let cumulative := observation.progress.cumulativeFilled
  if cumulative < prior.cumulativeFilled ∨ cumulative < prior.knownFillTotal then
    .err .backwardsCumulative
  else .ofExcept (validateTerminalProgress prior observation.progress)

/-- Check a compaction. -/
def preflightCompactProvenTerminal : Reply Unit :=
  match s.findClient client with
  | none => .panic
  | some none => .err .unknownClientOrder
  | some (some (_, entry)) =>
    if compactable entry = false then .err .terminalCompactionUnavailable else .ok ()

/-- `preflight_detail_absence`, which looks for the order and then passes in any case. -/
def preflightDetailAbsence (venue : PmVenueOrderKey)
    (occurrence : PmOwnedObservationOccurrence) : Reply Unit :=
  match s.validateOccurrence occurrence with
  | .ok () | .error .oldEpoch =>
    match s.findVenue venue with
    | none => .panic
    | some _ => .ok ()
  | .error error => .err error

/-- `order`. -/
def order : Option (Option OwnedOrderEntry) :=
  (s.findClient client).map (Option.map Prod.snd)

/-- The clients marked. -/
def markedCompactionClients (generation : UInt64) : Option (List PmClientOrderKey) := do
  let entries ← s.clientOrderIndex.mapM (s.entries[·]?)
  return (entries.filter fun entry => entry.compactionGeneration == some generation).map
    OwnedOrderEntry.clientOrder

/-- `preflight_admit_quote`. -/
def preflightAdmitQuote (intent : PmOwnedQuoteIntent) : Reply PmOwnedQuoteAdmission :=
  s.prepareAdmitQuote intent >>= fun plan => .ok plan.outcome

end

variable {s : PmOwnedOrderLifecycle}

/-! ### Submission -/

theorem applySubmitResult_preflight (s : PmOwnedOrderLifecycle) (client : PmClientOrderKey)
    (result : PmOwnedSubmitResult) :
    (s.applySubmitResult client result).1 = s.preflightSubmitResult client result := by
  have hbind : ∀ venue value t, (s.bindVenue client venue (.ok value, t)).1 =
      (.ofExcept (s.preflightVenueBinding client venue) >>= fun _ => .ok value) := by
    intro venue value t
    unfold bindVenue
    cases hpre : s.preflightVenueBinding client venue with
    | ok => rfl
    | error =>
      unfold preflightVenueBinding at hpre
      split_ifs at hpre
      cases hpre
      rfl
  have hdup : ∀ prior venue, (s.duplicateVenue prior venue).1 =
      if prior.venueOrder = some venue then .ok .duplicate else .err .venueBindingConflict := by
    intro prior venue
    unfold duplicateVenue
    split_ifs <;> rfl
  unfold applySubmitResult preflightSubmitResult
  cases s.findClient client with
  | none => rfl
  | some found =>
  cases found with
  | none => rfl
  | some found =>
  obtain ⟨index, prior⟩ := found
  cases hsub : prior.submit <;> cases result <;> simp only [hsub] <;>
    first | rfl | exact hbind _ _ _ | exact hdup _ _

/-! ### Fills -/

theorem validateOccurrence_oldEpoch_iff (s : PmOwnedOrderLifecycle)
    (occurrence : PmOwnedObservationOccurrence) :
    s.validateOccurrence occurrence = .error .oldEpoch ↔ s.isOldEpoch occurrence = true := by
  unfold validateOccurrence isOldEpoch
  cases occurrence.privateOccurrence with
  | none => simp
  | some =>
    cases s.currentEpoch with
    | none => simp
    | some =>
      simp only
      split_ifs with hold hnew <;> simp [hold]

/-- An observation of an old epoch is ignored, one with a wrong epoch is refused; only what is
done with the others is left to compare. -/
theorem eq_preflightOccurrence {occurrence : PmOwnedObservationOccurrence}
    {result rest : Reply Unit}
    (hold : s.validateOccurrence occurrence = .error .oldEpoch → result = .ok ())
    (herr : ∀ error, error ≠ .oldEpoch → s.validateOccurrence occurrence = .error error →
      result = .err error) (hok : s.validateOccurrence occurrence = .ok () → result = rest) :
    result = s.preflightOccurrence occurrence rest := by
  have holdEpo := validateOccurrence_oldEpoch_iff s occurrence
  unfold preflightOccurrence
  split
  · next h =>
    have hcur : s.isOldEpoch occurrence ≠ true := fun hs => by
      rw [holdEpo.mpr hs] at h
      cases h
    rw [if_neg hcur, hok h]
  · next h => rw [if_pos (holdEpo.mp h), hold h]
  · next error hne h => exact herr error (fun he => hne he) h

/-- A fill observation that passes the checks succeeds. -/
theorem FillReply.discard_eq_ok {observation : PmOwnedFillObservation}
    {result : Reply PmOwnedFillApply × PmOwnedOrderLifecycle} (h : FillReply s observation result)
    {e : OwnedOrderEntry} (he : e ∈ s.entries)
    (hven : e.venueOrder = some observation.key.venueOrder) (happ : s.FillApplies e observation) :
    result.1.discard = .ok () := by
  cases h with
  | refused _ _ _ _ hnot => exact absurd happ (hnot e he hven)
  | applied => rfl

section

variable (hs : s.Inv)

include hs

theorem observeFill_preflight (observation : PmOwnedFillObservation) :
    (s.observeFill observation).1.discard = s.preflightFill observation := by
  refine eq_preflightOccurrence (fun h => ?_) (fun error hne h => ?_) fun hocc => ?_
  · simp only [observeFill, h]
    rfl
  · unfold observeFill
    rw [h]
    split
    · next heq => exact absurd (Except.error.inj heq) hne
    · next heq => cases heq; rfl
    · next heq => cases heq
  unfold observeFill
  rw [hocc]
  rcases findVenue_cases (s := s) observation.key.venueOrder with
    ⟨i, e, hfind, hget, hven⟩ | ⟨hfind, -⟩
  swap
  · simp only [hfind]
    rfl
  simp only [hfind]
  have he := List.mem_of_getElem? hget
  split
  · rfl
  next hsub =>
  split
  · rfl
  next hover =>
  split
  · rfl
  next hback =>
  rw [Bool.not_eq_true] at hover hback
  rcases searchFill_cases hs observation.key with ⟨j, f, hsea, hfill, hkey⟩ | ⟨p, hsea, hnew⟩
  · simp only [hsea, hfill]
    have hrep := observeKnownFill_reply hs hget hven hocc hsub hover hback hfill hkey
    split
    · next hcon =>
      simp only [observeKnownFill, hfill, if_pos hcon]
      rfl
    · next hcon =>
      rw [not_or, not_not, not_not] at hcon
      exact hrep.discard_eq_ok he hven ⟨hocc, hsub, hover, hback,
        .inl ⟨f, List.mem_of_getElem? hfill, hkey, hcon⟩⟩
  · simp only [hsea]
    have hrep := observeNewFill_reply hs hget hven hocc hsub hover hback hnew
    unfold observeNewFill at hrep ⊢
    split
    · rfl
    next hfull =>
    cases hadd : e.knownFillTotal.checkedAdd observation.quantity.protocolUnits with
    | error => rfl
    | ok =>
    simp only [if_neg hfull, hadd] at hrep ⊢
    split
    · rfl
    · next hbd =>
      rw [if_neg hbd] at hrep
      have hsum := U256.checkedAdd_eq_ok_iff.mp hadd
      exact hrep.discard_eq_ok he hven ⟨hocc, hsub, hover, hback,
        .inr ⟨hasFill_of_splits hnew, hfull, hsum ▸ not_lt.mp hbd⟩⟩

/-! ### Progress -/

theorem observeProgress_preflight (observation : PmOwnedOrderProgressObservation) :
    (s.observeProgress observation).1.discard = s.preflightProgress observation := by
  refine eq_preflightOccurrence (fun h => ?_) (fun error hne h => ?_) fun hocc => ?_
  · simp only [observeProgress, h]
    rfl
  · unfold observeProgress
    rw [h]
    split
    · next heq => exact absurd (Except.error.inj heq) hne
    · next heq => cases heq; rfl
    · next heq => cases heq
  unfold observeProgress
  rw [hocc]
  rcases findClient_cases hs observation.clientOrder with ⟨i, e, hfind, hget, -⟩ | ⟨hfind, -⟩
  swap
  · simp only [hfind]
    rfl
  simp only [hfind]
  split
  · rfl
  split
  · rfl
  next hqua =>
  split
  · rfl
  obtain ⟨rest, hrest⟩ := exists_remaining_applyProgress (not_not.mp hqua)
  rcases e.lastProgress with _ | ⟨occurrence, progress⟩ <;> dsimp only
  on_goal 2 =>
    by_cases hsame : occurrence = observation.occurrence
    · simp only [if_pos hsame]
      split_ifs <;> rfl
    simp [if_neg hsame]
  -- whether there was no progress before or one at another occurrence, the checks go on
  all_goals
    split
    · rfl
    rw [hrest]
    cases validateTerminalProgress e observation.progress <;> rfl

/-! ### Cancellation and compaction -/

theorem applyCancelResult_preflight (intent : PmOwnedCancelIntent) (outcome : PmOwnedCancelOutcome)
    : (s.applyCancelResult intent outcome).1 = s.preflightCancelResult intent outcome := by
  unfold applyCancelResult preflightCancelResult
  rcases findClient_cases hs intent.clientOrder with ⟨i, e, hfind, -, -⟩ | ⟨hfind, -⟩
  -- the transition checks once more what the preflight has checked
  · cases outcome <;> simp only [hfind, cancelReply, convergedOr] <;> split_ifs <;> rfl
  · simp [hfind]

theorem compactProvenTerminal_preflight (client : PmClientOrderKey) :
    (s.compactProvenTerminal client).1.discard = s.preflightCompactProvenTerminal client := by
  unfold preflightCompactProvenTerminal
  rcases compactProvenTerminal_cases hs client with ⟨hfind, heq⟩ |
    ⟨i, e, hfind, -, -, ⟨hcom, heq⟩ | ⟨hcom, result, t, heq, -⟩⟩
  · simp only [heq, hfind]
    rfl
  · simp only [heq, hfind, hcom]
    rfl
  · simp only [heq, hfind, hcom]
    rfl

/-! ### Admission -/

theorem admitQuote_preflight (intent : PmOwnedQuoteIntent) :
    (s.admitQuote intent).1 = s.preflightAdmitQuote intent := by
  unfold preflightAdmitQuote
  rcases (admitQuote_spec hs rfl : s.Admits intent (.admitQuote intent)).prepare with
    ⟨plan, hplan, hrep, -⟩ | ⟨error, herr, hrep⟩
  · rw [hplan, hrep]
    rfl
  · rw [herr, hrep]
    rfl

/-- Committing a prepared admission is admitting the quote. -/
theorem commit_eq_admitQuote {intent : PmOwnedQuoteIntent} {plan : PmOwnedQuoteAdmissionPlan}
    (h : s.prepareAdmitQuote intent = .ok plan) :
    s.commitPreflightedAdmitQuote plan = s.admitQuote intent := by
  rcases (admitQuote_spec hs rfl : s.Admits intent (.admitQuote intent)).prepare with
    ⟨plan', hplan, -, hcom⟩ | ⟨error, herr, -⟩
  · cases h.symm.trans hplan
    exact hcom
  · cases h.symm.trans herr

end

/-! ### Refinement -/

/-- The preflights decide how the transitions end. None of them aborts. -/
structure Refined (s : PmOwnedOrderLifecycle) : Prop where
  submit : ∀ client result,
    (s.applySubmitResult client result).1 = s.preflightSubmitResult client result
  fill : ∀ observation, (s.observeFill observation).1.discard = s.preflightFill observation
  progress : ∀ observation,
    (s.observeProgress observation).1.discard = s.preflightProgress observation
  cancel : ∀ intent outcome,
    (s.applyCancelResult intent outcome).1 = s.preflightCancelResult intent outcome
  compact : ∀ client,
    (s.compactProvenTerminal client).1.discard = s.preflightCompactProvenTerminal client
  admission : ∀ intent, (s.admitQuote intent).1 = s.preflightAdmitQuote intent
  /-- The commit of a prepared admission leaves the record that `admit_quote` leaves. -/
  commit : ∀ intent plan, s.prepareAdmitQuote intent = .ok plan →
    s.commitPreflightedAdmitQuote plan = s.admitQuote intent
  /-- A call does not abort, and one that fails changes nothing but the counters. -/
  failed : ∀ op, (call op s).1 ≠ .panic ∧ ∀ error, (call op s).1 = .err error → ∃ counters,
      (call op s).2 = { s with counters := counters }

open Sample

/-- **The preflights are right.** -/
theorem refined_of_reach {accountScope : PmAccountScope} {instrument : PmInstrumentHandle}
    (h : Reach step anyCall (new accountScope instrument) s) : s.Refined where
  submit := applySubmitResult_preflight s
  fill := observeFill_preflight (inv_of_reach h)
  progress := observeProgress_preflight (inv_of_reach h)
  cancel := applyCancelResult_preflight (inv_of_reach h)
  compact := compactProvenTerminal_preflight (inv_of_reach h)
  admission := admitQuote_preflight (inv_of_reach h)
  commit := fun _ _ hplan => commit_eq_admitQuote (inv_of_reach h) hplan
  failed := fun op => ⟨(call_clean (inv_of_reach h) op).does.1,
    (call_clean (inv_of_reach h) op).failed⟩

theorem refined_of_filledWhileAmbiguous :
    ∃ s, Reach step anyCall fresh s ∧ s.entries.length = 1 ∧ s.Refined :=
  exists_reach_and filledWhileAmbiguous (by decide +kernel) fun _ hrch _ => refined_of_reach hrch

end PmOwnedOrderLifecycle

end Reap.Owned
