import Reap.Owned.Reducer
import Mathlib.Algebra.Order.BigOperators.Group.List
import Mathlib.Data.List.Basic

/-!
# What a call to the owned-order lifecycle can do

The calls of the lifecycle as one type, and the one function that runs a call. Every
invariant of the lifecycle is about runs of such calls.

The reducer's branches are examined once, here. `EntryStep` lists what a call can do to a
retained order, with the guards it has checked; `Change` lists what it can do to the whole
record. Later modules reason about these two relations and never look into the reducer.

`Inv` is what the reducer relies on: exact indexes, slots that point at retained orders,
one owner for each venue order, and a fill ledger that adds up.

## What is proved

* `step_spec` — from a record that satisfies `Inv`, no call aborts, and what it does is a
  `Change`.
-/

namespace Reap.Owned

open Base Reap.Core Reap.Order OwnedOrderEntry Outcome List

/-- The calls that change the record. -/
inductive Op where
  | admitQuote (intent : PmOwnedQuoteIntent)
  /-- `prepare_admit_quote`, and `commit_preflighted_admit_quote` of the plan it returns. -/
  | prepareAndCommit (intent : PmOwnedQuoteIntent)
  | applySubmitResult (client : PmClientOrderKey) (result : PmOwnedSubmitResult)
  | observeFill (observation : PmOwnedFillObservation)
  | observeProgress (observation : PmOwnedOrderProgressObservation)
  | observeRemoteOrder (identity : PmOrderIdentity)
  | observeDetailAbsence (venue : PmVenueOrderKey) (occurrence : PmOwnedObservationOccurrence)
  | requestCancel (client : PmClientOrderKey)
  | applyCancelResult (intent : PmOwnedCancelIntent) (outcome : PmOwnedCancelOutcome)
  | beginEpoch (epoch : ConnectionEpoch)
  | restoreEpochForRecovery (epoch : ConnectionEpoch)
  | compactProvenTerminal (client : PmClientOrderKey)
  | markCompactableThrough (generation : UInt64) (through : PmPrivateOccurrence)
  | clearCompactionMarks (generation : UInt64)
  | clearInvalidCompactionMarks (generation : UInt64) (through : PmPrivateOccurrence)
  deriving DecidableEq

/-- The quote that a call asks to admit. -/
def Op.admission : Op → Option PmOwnedQuoteIntent
  | .admitQuote intent | .prepareAndCommit intent => some intent
  | _ => none

/-- The call only sets or clears compaction marks. -/
def Op.isMarking : Op → Bool
  | .markCompactableThrough _ _ | .clearCompactionMarks _ | .clearInvalidCompactionMarks _ _ => true
  | _ => false

namespace PmOwnedOrderLifecycle

/-- `prepare_admit_quote` and the commit of its plan. -/
def prepareAndCommit (s : PmOwnedOrderLifecycle) (intent : PmOwnedQuoteIntent) :
    Reply PmOwnedQuoteAdmission × PmOwnedOrderLifecycle :=
  match s.prepareAdmitQuote intent with
  | .panic => (.panic, s)
  | .err error => (.err error, s)
  | .ok plan => s.commitPreflightedAdmitQuote plan

/-- Make a call: how it ends, and the record it leaves. -/
def call (op : Op) (s : PmOwnedOrderLifecycle) : Reply Unit × PmOwnedOrderLifecycle :=
  match op with
  | .admitQuote intent => ended (s.admitQuote intent)
  | .prepareAndCommit intent => ended (s.prepareAndCommit intent)
  | .applySubmitResult client result => ended (s.applySubmitResult client result)
  | .observeFill observation => ended (s.observeFill observation)
  | .observeProgress observation => ended (s.observeProgress observation)
  | .observeRemoteOrder identity => ended (s.observeRemoteOrder identity)
  | .observeDetailAbsence venue occurrence => ended (s.observeDetailAbsence venue occurrence)
  | .requestCancel client => ended (s.requestCancel client)
  | .applyCancelResult intent outcome => ended (s.applyCancelResult intent outcome)
  | .beginEpoch epoch => ended (s.beginEpoch epoch)
  | .restoreEpochForRecovery epoch => ended (s.restoreEpochForRecovery epoch)
  | .compactProvenTerminal client => ended (s.compactProvenTerminal client)
  | .markCompactableThrough generation through =>
    (.ok (), (s.markCompactableThrough generation through).2)
  | .clearCompactionMarks generation => (.ok (), s.clearCompactionMarks generation)
  | .clearInvalidCompactionMarks generation through =>
    (.ok (), s.clearInvalidCompactionMarks generation through)

/-- Run one call. The record that a failed call leaves is the next record. -/
def step (op : Op) (s : PmOwnedOrderLifecycle) : Option PmOwnedOrderLifecycle := next (call op s)

/-! ### The invariant the reducer relies on -/

/-- No other order is bound to the venue order. -/
def VenueFree (s : PmOwnedOrderLifecycle) (client : PmClientOrderKey) (venue : PmVenueOrderKey) :
    Prop :=
  ∀ e ∈ s.entries, e.venueOrder = some venue → e.clientOrder = client

/-- The quantity of the ledger that is attributed to a client order. -/
def attributed (fills : List OwnedFillEntry) (client : PmClientOrderKey) : ℕ :=
  ((fills.filter (·.clientOrder = client)).map (·.quantity.protocolUnits.value)).sum

end PmOwnedOrderLifecycle

/-- What holds of every retained order. -/
structure OwnedOrderEntry.Inv (e : OwnedOrderEntry) : Prop where
  /-- What is attributed is filled. -/
  known_le : e.knownFillTotal.value ≤ e.cumulativeFilled.value
  /-- No more is filled than was ordered. -/
  cumulative_le : e.cumulativeFilled.value ≤ e.original.value
  /-- Nothing is known of an order before its submission is answered. -/
  pending : e.submit = .pending →
    e.venueOrder = none ∧ e.status = none ∧ e.knownFillTotal.value = 0 ∧
      e.cumulativeFilled.value = 0 ∧ e.cancel = .none
  /-- An ambiguous submission has no attributed fill, and no status unless a cancel reply said
  that the order is filled. -/
  ambiguous : e.submit = .ambiguous → e.knownFillTotal.value = 0 ∧
      (e.status = none ∧ e.cumulativeFilled.value = 0 ∨ e.status = some .filled)
  /-- An accepted submission has a venue order. -/
  accepted : e.submit = .accepted → e.venueOrder.isSome = true
  /-- A rejected submission has the status of a rejected order, or what a cancel made of it. -/
  rejected : e.submit = .rejected → e.statusTerminal = true
  /-- A filled order is filled. -/
  filled : e.status = some .filled → e.cumulativeFilled.value = e.original.value

/-- What holds of the retained orders, their indexes and the slots. -/
structure PmOwnedOrderLifecycle.Tables (s : PmOwnedOrderLifecycle) : Prop where
  clients : Indexed clientKey s.entries s.clientOrderIndex
  intents : Indexed intentKey s.entries s.intentIndex
  length_le : s.entries.length ≤ maxPmOwnedOrderHistory
  slot : ∀ side client, s.slots (slotIndex side) = some client →
    ∃ e ∈ s.entries, e.clientOrder = client ∧ e.side = side
  venues : ∀ a ∈ s.entries, ∀ b ∈ s.entries, ∀ venue, a.venueOrder = some venue →
    b.venueOrder = some venue → a = b
  entry : ∀ e ∈ s.entries, e.Inv

/-- **The invariant of the record**: the tables are sound, and the fill ledger is sorted,
belongs to retained orders and adds up to what they say is attributed. -/
structure PmOwnedOrderLifecycle.Inv (s : PmOwnedOrderLifecycle) : Prop extends s.Tables where
  ledger : s.fills.Pairwise (KeyLt OwnedFillEntry.fillKey)
  owner : ∀ f ∈ s.fills, ∃ e ∈ s.entries,
    e.clientOrder = f.clientOrder ∧ e.venueOrder = some f.key.venueOrder
  known : ∀ e ∈ s.entries,
    e.knownFillTotal.value = PmOwnedOrderLifecycle.attributed s.fills e.clientOrder

/-! ### What a call can do to a retained order -/

namespace PmOwnedOrderLifecycle

variable (s : PmOwnedOrderLifecycle)

/-- The ledger has the fill leg. -/
def hasFill (key : PmFillKey) : Bool := s.fills.any (·.key == key)

/-- The attributed quantity after a fill observation. -/
def knownAfter (e : OwnedOrderEntry) (observation : PmOwnedFillObservation) : ℕ :=
  if s.hasFill observation.key then e.knownFillTotal.value
  else e.knownFillTotal.value + observation.quantity.protocolUnits.value

/-- The filled quantity after a fill observation: the largest of what was filled, what is
attributed, and what the venue reports. -/
def cumulativeAfter (e : OwnedOrderEntry) (observation : PmOwnedFillObservation) : ℕ :=
  max (max e.cumulativeFilled.value (s.knownAfter e observation))
    (observation.reportedCumulative.getD U256.zero).value

/-- The checks that a fill observation of the venue order of `e` passes before it is applied: a
known leg agrees with the one in the ledger, a new one fits. -/
@[mk_iff]
structure FillApplies (s : PmOwnedOrderLifecycle) (e : OwnedOrderEntry)
    (observation : PmOwnedFillObservation) : Prop where
  occurrence : s.validateOccurrence observation.occurrence = .ok ()
  submit : e.submit ≠ .rejected
  overfill : reportsOverfill e observation = false
  backwards : reportsBackwards e observation = false
  leg : (∃ f ∈ s.fills, f.key = observation.key ∧ f.clientOrder = e.clientOrder ∧
      f.quantity = observation.quantity) ∨
    s.hasFill observation.key = false ∧ s.fills.length ≠ maxPmOwnedFillKeys ∧
      e.knownFillTotal.value + observation.quantity.protocolUnits.value ≤ e.original.value

instance (s : PmOwnedOrderLifecycle) (e : OwnedOrderEntry) (observation : PmOwnedFillObservation) :
    Decidable (s.FillApplies e observation) :=
  decidable_of_iff' _ (fillApplies_iff ..)

/-- The checks that progress of `e` passes before it is applied. -/
@[mk_iff]
structure ProgressApplies (s : PmOwnedOrderLifecycle) (e : OwnedOrderEntry)
    (observation : PmOwnedOrderProgressObservation) : Prop where
  occurrence : s.validateOccurrence observation.occurrence = .ok ()
  client : observation.clientOrder = e.clientOrder
  venue : e.venueOrder = some observation.venueOrder
  quantity : observation.progress.originalQuantity = e.intent.quantity
  order : isOutOfOrder e observation.occurrence = false
  cumulative : e.cumulativeFilled.value ≤ observation.progress.cumulativeFilled.value
  known : e.knownFillTotal.value ≤ observation.progress.cumulativeFilled.value
  terminal : validateTerminalProgress e observation.progress = .ok ()

instance (s : PmOwnedOrderLifecycle) (e : OwnedOrderEntry)
    (observation : PmOwnedOrderProgressObservation) : Decidable (s.ProgressApplies e observation) :=
  decidable_of_iff' _ (progressApplies_iff ..)

/-- The checks that the absence of the venue order of `e` passes before its accepted cancel is
settled. -/
@[mk_iff]
structure AbsenceSettles (s : PmOwnedOrderLifecycle) (e : OwnedOrderEntry)
    (venueOrder : PmVenueOrderKey) (observed : PmOwnedObservationOccurrence) : Prop where
  occurrence : s.validateOccurrence observed = .ok ()
  venue : e.venueOrder = some venueOrder
  order : isOutOfOrder e observed = false
  submit : e.submit = .accepted
  cancel : e.cancel = .accepted
  status : e.status = some .cancelled
  cumulative : e.cumulativeFilled.value = 0
  known : e.knownFillTotal.value = 0

instance (s : PmOwnedOrderLifecycle) (e : OwnedOrderEntry) (venueOrder : PmVenueOrderKey)
    (observed : PmOwnedObservationOccurrence) : Decidable
    (s.AbsenceSettles e venueOrder observed) :=
  decidable_of_iff' _ (absenceSettles_iff ..)

end PmOwnedOrderLifecycle

/-- What a call can do to a retained order, with the guards it has checked. -/
inductive EntryStep (s : PmOwnedOrderLifecycle) : Op → OwnedOrderEntry → OwnedOrderEntry → Prop
  | cancelBeforeReplace {op : Op} {e : OwnedOrderEntry} (hop : op.admission.isSome = true)
      (hlive : e.isLive = true) (hsub : e.submit = .accepted) :
      EntryStep s op e { e with cancel := .pending }
  | submitAccepted {e : OwnedOrderEntry} {venue : PmVenueOrderKey} (hsub : e.submit = .pending)
      (hbind : s.preflightVenueBinding e.clientOrder venue = .ok ()) :
      EntryStep s (.applySubmitResult e.clientOrder (.accepted venue)) e { e with
        venueOrder := some venue
        submit := .accepted
        status := some .open }
  | submitLateAccepted {e : OwnedOrderEntry} {venue : PmVenueOrderKey}
      (hsub : e.submit = .ambiguous)
      (hbind : s.preflightVenueBinding e.clientOrder venue = .ok ()) :
      EntryStep s (.applySubmitResult e.clientOrder (.accepted venue)) e { e with
        venueOrder := some venue
        submit := .accepted
        status := some .open
        reconciliationRequired := false }
  | submitRejected {e : OwnedOrderEntry} (hsub : e.submit = .pending ∨ e.submit = .ambiguous) :
      EntryStep s (.applySubmitResult e.clientOrder .rejected) e { e with
        submit := .rejected
        status := some .rejected
        reconciliationRequired := false }
  | submitAmbiguous {e : OwnedOrderEntry} (hsub : e.submit = .pending) :
      EntryStep s (.applySubmitResult e.clientOrder .ambiguous) e { e with
        submit := .ambiguous
        reconciliationRequired := true }
  | submitAmbiguousOwned {e : OwnedOrderEntry} {venue : PmVenueOrderKey}
      (hsub : e.submit = .pending)
      (hbind : s.preflightVenueBinding e.clientOrder venue = .ok ()) :
      EntryStep s (.applySubmitResult e.clientOrder (.ambiguousOwned venue)) e { e with
        venueOrder := some venue
        submit := .ambiguous
        reconciliationRequired := true }
  | fill {e : OwnedOrderEntry} {observation : PmOwnedFillObservation} {known cumulative : U256}
      (hvenue : e.venueOrder = some observation.key.venueOrder)
      (happlies : s.FillApplies e observation) (hknown : known.value = s.knownAfter e observation)
      (hcumulative : cumulative.value = s.cumulativeAfter e observation)
      (hle : cumulative.value ≤ e.original.value) :
      EntryStep s (.observeFill observation) e
        (({ e with knownFillTotal := known }).advanceFromFill cumulative observation.occurrence)
  | progress {e : OwnedOrderEntry} {observation : PmOwnedOrderProgressObservation}
      (happlies : s.ProgressApplies e observation) :
      EntryStep s (.observeProgress observation) e (e.applyProgress observation)
  | remote {e : OwnedOrderEntry} {identity : PmOrderIdentity} :
      EntryStep s (.observeRemoteOrder identity) e { e with reconciliationRequired := true }
  | detailAbsence {e : OwnedOrderEntry} {venue : PmVenueOrderKey}
      {occurrence : PmOwnedObservationOccurrence}
      (hsettles : s.AbsenceSettles e venue occurrence) :
      EntryStep s (.observeDetailAbsence venue occurrence) e { e with
        reconciliationRequired := false
        lastOccurrence := some occurrence }
  | requestCancel {e : OwnedOrderEntry} (hlive : e.isLive = true)
      (hvenue : e.venueOrder.isSome = true) :
      EntryStep s (.requestCancel e.clientOrder) e { e with cancel := .pending }
  | cancelResult {e : OwnedOrderEntry} {intent : PmOwnedCancelIntent}
      {outcome : PmOwnedCancelOutcome} (hclient : intent.clientOrder = e.clientOrder)
      (hvenue : e.venueOrder = some intent.venueOrder)
      (hcancel : e.cancel = .pending ∨ e.cancel = .ambiguous) :
      EntryStep s (.applyCancelResult intent outcome) e (e.applyCancelOutcome outcome)
  | beginEpoch {e : OwnedOrderEntry} {epoch : ConnectionEpoch} :
      EntryStep s (.beginEpoch epoch) e e.beginEpoch
  | mark {op : Op} {e : OwnedOrderEntry} (generation : Option UInt64) (hop : op.isMarking = true) :
      EntryStep s op e { e with compactionGeneration := generation }

/-! ### What a call can do to the record -/

/-- Two versions of the retained orders, order by order: each is as it was, or changed by an
`EntryStep`. -/
def Stepped (s : PmOwnedOrderLifecycle) (op : Op) (entries : List OwnedOrderEntry) : Prop :=
  List.Forall₂ (fun e e' => e' = e ∨ EntryStep s op e e') s.entries entries

namespace Stepped

variable {s : PmOwnedOrderLifecycle} {op : Op} {entries : List OwnedOrderEntry}

theorem length_eq (h : Stepped s op entries) : entries.length = s.entries.length :=
  (List.Forall₂.length_eq h).symm

variable {i : ℕ} {e e' : OwnedOrderEntry}

theorem set (hget : s.entries[i]? = some e) (hstep : EntryStep s op e e') :
    Stepped s op (s.entries.set i e') := by
  refine forall₂_iff_get.mpr ⟨by simp, fun j h₁ h₂ => ?_⟩
  simp only [get_eq_getElem, getElem_set]
  split_ifs with hij
  · subst hij
    rw [(List.getElem?_eq_some_iff.mp hget).2]
    exact .inr hstep
  · exact .inl rfl

theorem map {f : OwnedOrderEntry → OwnedOrderEntry}
    (hstep : ∀ e ∈ s.entries, EntryStep s op e (f e)) : Stepped s op (s.entries.map f) := by
  refine forall₂_iff_get.mpr ⟨by simp, fun j h₁ h₂ => ?_⟩
  simp only [get_eq_getElem, getElem_map]
  exact .inr (hstep _ (getElem_mem _))

section

variable (h : Stepped s op entries)

include h

/-- The order that a slot held before. -/
theorem get (hget : entries[i]? = some e') :
    ∃ e, s.entries[i]? = some e ∧ (e' = e ∨ EntryStep s op e e') := by
  obtain ⟨hi, rfl⟩ := List.getElem?_eq_some_iff.mp hget
  obtain ⟨hlen, hall⟩ := List.forall₂_iff_get.mp h
  have hi' : i < s.entries.length := by omega
  exact ⟨s.entries[i], getElem?_eq_getElem hi', hall i hi' hi⟩

theorem mem (he : e' ∈ entries) : ∃ e ∈ s.entries, e' = e ∨ EntryStep s op e e' := by
  obtain ⟨i, hi⟩ := mem_iff_getElem?.mp he
  obtain ⟨e, hget, hor⟩ := h.get hi
  exact ⟨e, mem_of_getElem? hget, hor⟩

theorem mem' (he : e ∈ s.entries) : ∃ e' ∈ entries, e' = e ∨ EntryStep s op e e' := by
  obtain ⟨i, hi, rfl⟩ := getElem_of_mem he
  obtain ⟨hlen, hall⟩ := forall₂_iff_get.mp h
  exact ⟨_, getElem_mem (by omega), hall i hi (by omega)⟩

end

end Stepped

/-- The fill leg that an observation adds to the ledger. -/
def PmOwnedFillObservation.leg (observation : PmOwnedFillObservation) (client : PmClientOrderKey) :
    OwnedFillEntry where
  key := observation.key
  clientOrder := client
  quantity := observation.quantity
  sources := observation.source.bit
  firstOccurrence := observation.occurrence
  lastOccurrence := observation.occurrence

/-- The current epoch never goes back. -/
def EpochAdvances (before after : Option ConnectionEpoch) : Prop :=
  ∀ current ∈ before, ∃ next ∈ after, current ≤ next

theorem EpochAdvances.refl (epoch : Option ConnectionEpoch) : EpochAdvances epoch epoch :=
  fun current hcur => ⟨current, hcur, le_refl _⟩

/-- What a call can do to the record. Counters may change with every call. -/
inductive Change (s : PmOwnedOrderLifecycle) : Op → PmOwnedOrderLifecycle → Prop
  | same {op : Op} (epoch : Option ConnectionEpoch) (counters : PmOwnedLifecycleCounters)
      (hepoch : EpochAdvances s.currentEpoch epoch) :
      Change s op { s with currentEpoch := epoch, counters := counters }
  | stepped {op : Op} {entries : List OwnedOrderEntry} (epoch : Option ConnectionEpoch)
      (counters : PmOwnedLifecycleCounters) (hstep : Stepped s op entries)
      (hop : ∀ o, op ≠ .observeFill o) (hepoch : EpochAdvances s.currentEpoch epoch) :
      Change s op { s with
        entries := entries
        currentEpoch := epoch
        counters := counters }
  | knownFill {observation : PmOwnedFillObservation} {i j : ℕ} {e e' : OwnedOrderEntry}
      {f f' : OwnedFillEntry} (counters : PmOwnedLifecycleCounters)
      (hget : s.entries[i]? = some e) (hstep : EntryStep s (.observeFill observation) e e')
      (hfill : s.fills[j]? = some f) (hkey : f.key = observation.key)
      (hclient : f.clientOrder = e.clientOrder)
      (hsame : f'.key = f.key ∧ f'.clientOrder = f.clientOrder ∧ f'.quantity = f.quantity) :
      Change s (.observeFill observation)
        { s.setEntry i e' with fills := s.fills.set j f', counters := counters }
  | newFill {observation : PmOwnedFillObservation} {i p : ℕ} {e e' : OwnedOrderEntry}
      (counters : PmOwnedLifecycleCounters)
      (hget : s.entries[i]? = some e) (hstep : EntryStep s (.observeFill observation) e e')
      (hnew : Splits OwnedFillEntry.fillKey observation.key s.fills p) :
      Change s (.observeFill observation)
        { s.setEntry i e' with
          fills := s.fills.insertIdx p (observation.leg e.clientOrder)
          counters := counters }
  | admission {op : Op} {intent : PmOwnedQuoteIntent} {cp ip : ℕ} (counters : PmOwnedLifecycleCounters)
      (hop : op.admission = some intent)
      (hclient : Splits (keyAt clientKey s.entries) intent.clientOrder
        s.clientOrderIndex cp)
      (hintent : Splits (keyAt intentKey s.entries) intent.intent s.intentIndex ip)
      (hdead : ∀ e ∈ s.entries, s.slots (slotIndex intent.slot.side) = some e.clientOrder →
        e.isTerminal = true)
      (hlength : s.entries.length < maxPmOwnedOrderHistory) :
      Change s op { s with
        slots := Function.update s.slots (slotIndex intent.slot.side) (some intent.clientOrder)
        entries := s.entries ++ [.admitted intent]
        clientOrderIndex := s.clientOrderIndex.insertIdx cp s.entries.length
        intentIndex := s.intentIndex.insertIdx ip s.entries.length
        counters := counters }
  | compact {cp ip i : ℕ} {e : OwnedOrderEntry} (watermark : Option PmOwnedIntentId)
      (counters : PmOwnedLifecycleCounters) (hget : s.entries[i]? = some e)
      (hcompactable : compactable e = true) (hcp : s.clientOrderIndex[cp]? = some i)
      (hip : s.intentIndex[ip]? = some i) :
      Change s (.compactProvenTerminal e.clientOrder) { s with
        slots := if s.slots (slotIndex e.side) = some e.clientOrder then
          Function.update s.slots (slotIndex e.side) none else s.slots
        entries := swapRemove s.entries i
        clientOrderIndex := (s.clientOrderIndex.eraseIdx cp).map (rename (s.entries.length - 1) i)
        intentIndex := (s.intentIndex.eraseIdx ip).map (rename (s.entries.length - 1) i)
        fills := s.fills.filter (·.clientOrder ≠ e.clientOrder)
        compactedIntentHighWatermark := watermark
        counters := counters }

variable {s : PmOwnedOrderLifecycle} {op : Op} (counters : PmOwnedLifecycleCounters)

/-- Nothing changes but the counters. -/
theorem Change.counted : Change s op { s with counters := counters } :=
  .same s.currentEpoch counters (.refl _)

/-- One order changes. -/
theorem Change.update {i : ℕ} {e e' : OwnedOrderEntry} (hget : s.entries[i]? = some e)
    (hstep : EntryStep s op e e') (hop : ∀ o, op ≠ .observeFill o) :
    Change s op { s.setEntry i e' with counters := counters } :=
  .stepped s.currentEpoch counters (Stepped.set hget hstep) hop (.refl _)

/-- Every order changes. -/
theorem Change.sweep (f : OwnedOrderEntry → OwnedOrderEntry) (epoch : Option ConnectionEpoch)
    (counters : PmOwnedLifecycleCounters) (hstep : ∀ e ∈ s.entries, EntryStep s op e (f e))
    (hop : ∀ o, op ≠ .observeFill o) (hep : EpochAdvances s.currentEpoch epoch) :
    Change s op { s with
      entries := s.entries.map f
      currentEpoch := epoch
      counters := counters } :=
  .stepped epoch counters (Stepped.map hstep) hop hep

end Reap.Owned
