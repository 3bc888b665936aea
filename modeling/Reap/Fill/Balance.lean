import Reap.Fill.Query
import Reap.Fill.Delta
import Reap.Order.Invariant
import Mathlib.Algebra.Order.BigOperators.Group.List

/-!
# The provisional deltas balance

The provisional deltas are a running total over the fills that need reconciliation. A run keeps
it equal to what `recompute_provisional` would give, with two exceptions.

* A compaction may drop a fill that still needs reconciliation. A fill that was covered can be
  observed again, with a settlement that first leaves and then returns to the one the query knew;
  nothing is then left to reconcile by the fee and the settlement, but the last observation is
  later than the query, so the fill is still counted. The compaction drops the fill and leaves
  the total alone.
* The running total adds the fills in the order of their arrival, the recomputation in the order
  of their keys. Partial sums of the second order may overflow where those of the first do not.

## What is proved

* `call_spec` — what a call does to the fills and the deltas.
* `balanced_of_reach` — in every run whose calls avoid the two exceptions, the deltas are the
  recomputed ones, and they stand for the sum of what the uncovered fills contribute.
-/

namespace Reap.Fill

open Base Reap.Core FillEntry PmFillState List
open Reap.Owned (PmOwnedObservationOccurrence PmOwnedReductionSequence)

/-! ### Calls -/

/-- The calls that change the fill state. -/
inductive Op where
  | initializeRecoveredWatermark (cursor : PmFillQueryCursor)
  | observe (envelope : EventEnvelope PmFillEvent) (occurrence : PmOwnedObservationOccurrence)
  | observeOwnedImmediate (event : PmFillEvent) (occurrence : PmOwnedObservationOccurrence)
  | observeOwnedRecovery (event : PmFillEvent) (occurrence : PmOwnedObservationOccurrence)
  | preflightQuery (envelope : EventEnvelope PmCompleteFillQuery)
  /-- `preflight_query`, and `apply_preflighted_query` if it succeeds. -/
  | reconcile (envelope : EventEnvelope PmCompleteFillQuery)
      (occurrence : PmOwnedObservationOccurrence)
  | compactCoveredThrough (through : PmPrivateOccurrence)

section

variable (config : PmPrivateStateConfig)

/-- Make a call. -/
def call (op : Op) (s : PmFillState) : Reply Unit × PmFillState :=
  match op with
  | .initializeRecoveredWatermark cursor => s.initializeRecoveredWatermark config cursor
  | .observe envelope occurrence => Outcome.ended (s.observe config envelope occurrence)
  | .observeOwnedImmediate event occurrence =>
    Outcome.ended (s.observeOwnedImmediate config event occurrence)
  | .observeOwnedRecovery event occurrence =>
    Outcome.ended (s.observeOwnedRecovery config event occurrence)
  | .preflightQuery envelope => s.preflightQuery config envelope
  | .reconcile envelope occurrence => s.reconcile config envelope occurrence
  | .compactCoveredThrough through => (.ok (), (s.compactCoveredThrough through).2)

/-- A call of a run in which no call returns `ArithmeticOverflow`. -/
def step (op : Op) (s : PmFillState) : Option PmFillState :=
  match call config op s with
  | (.panic, _) => none
  | (.err .arithmeticOverflow, _) => none
  | (_, t) => some t

/-- The observation of a call, once it has been checked. -/
def Op.observation : Op → Option (PmFillEvent × PmOwnedObservationOccurrence)
  | .observe envelope occurrence =>
    if validateFill config envelope.payload envelope.source = .ok () ∧
        occurrence.privateOccurrence = some envelope.occurrence ∧
        occurrence.snapshotRevision = envelope.ordering.snapshotRevision then
      some (envelope.payload, occurrence)
    else none
  | .observeOwnedImmediate event occurrence =>
    if occurrence.privateOccurrence = none ∧ occurrence.snapshotRevision = none ∧
        validateFill config event event.source = .ok () then
      some (event, occurrence)
    else none
  | .observeOwnedRecovery event occurrence =>
    if validateFill config event event.source = .ok () then some (event, occurrence) else none
  | _ => none

/-- The call is one of the three observations. -/
def Op.isObservation : Op → Bool
  | .observe .. | .observeOwnedImmediate .. | .observeOwnedRecovery .. => true
  | _ => false

/-- What a call that does not overflow does to the fills and the deltas. -/
inductive Effect (config : PmPrivateStateConfig) (s t : PmFillState) : Op → Prop
  | kept {op} : Kept s t → Effect config s t op
  | inserted {op event occurrence p} : op.observation config = some (event, occurrence) →
      s.search event.fillKey = some (.error p) →
      Inserted config p (.observed config event occurrence) s t → Effect config s t op
  | recomputed {op} : recomputeProvisional config t.entries = .ok t.provisional →
      Effect config s t op
  | compacted {through} : t.entries = s.entries.filter (fun entry => !entry.isDropped through) →
      t.provisional = s.provisional → Effect config s t (.compactCoveredThrough through)

/-- How a call ends. -/
inductive CallSpec (config : PmPrivateStateConfig) (op : Op) (s : PmFillState) :
    Reply Unit × PmFillState → Prop
  | aborted {t} : CallSpec config op s (.panic, t)
  | overflowed {t} : Stored config t.entries → CallSpec config op s (.err .arithmeticOverflow, t)
  | done {reply t} : Stored config t.entries → Effect config s t op →
      CallSpec config op s (reply, t)

end

section

variable {config : PmPrivateStateConfig} {op : Op} {s : PmFillState} {entries : List FillEntry}
  {event : PmFillEvent} {occurrence : PmOwnedObservationOccurrence} {t : PmFillState}

theorem Observed.callSpec {s' : PmFillState} {result : Reply PmFillApply × PmFillState}
    (h : Observed config event occurrence s' result) (hsto : Stored config result.2.entries)
    (hop : op.observation config = some (event, occurrence)) (hs : Kept s s') :
    CallSpec config op s (Outcome.ended result) := by
  obtain ⟨hents, hpro⟩ := hs
  cases h with
  | kept _ ht =>
    exact .done hsto (.kept ⟨ht.entries.trans hents, ht.provisional.trans hpro⟩)
  | inserted hsea ht =>
    obtain ⟨hspl, hroom, hins, hdel⟩ := ht
    unfold search at hsea
    rw [hents] at hsea hspl hroom hins
    rw [hpro] at hdel
    exact .done hsto (.inserted hop hsea ⟨hspl, hroom, hins, hdel⟩)
  | enriched hrec => exact .done hsto (.recomputed hrec)
  | overflowed herr =>
    -- the deltas can only fail to be recomputed by an overflow
    rw [failsOnly_checkedSum failsOnly_addDelta (failsOnly_entryProvisionalDelta config) _ _ _ herr]
    exact .overflowed hsto

/-- An observation is refused, or it is applied once it has been checked. -/
theorem observation_cases (config : PmPrivateStateConfig) (s : PmFillState)
    (hop : op.isObservation = true) :
    (op.observation config = none ∧ ∃ error, call config op s = (.err error, s)) ∨
    ∃ event occurrence s', op.observation config = some (event, occurrence) ∧ Kept s s' ∧
      call config op s = Outcome.ended (s'.applyFill config event occurrence) := by
  cases op with
  | observe envelope occurrence =>
    simp only [Op.observation, call, observe]
    cases validateFill config envelope.payload envelope.source with
    | error error => exact .inl ⟨if_neg (fun h => nomatch h.1), error, rfl⟩
    | ok =>
    by_cases hevi : occurrence.privateOccurrence = some envelope.occurrence ∧
        occurrence.snapshotRevision = envelope.ordering.snapshotRevision
    · refine .inr ⟨_, _, { s with observedMonotonicNs := some envelope.monotonicServiceNs },
        if_pos ⟨rfl, hevi⟩, ⟨rfl, rfl⟩, ?_⟩
      simp [hevi.1, hevi.2]
    · refine .inl ⟨if_neg fun h => hevi h.2, .occurrenceEvidenceMismatch, ?_⟩
      simp only [if_pos (not_and_or.mp hevi)]
      rfl
  | observeOwnedImmediate event occurrence =>
    simp only [Op.observation, call, observeOwnedImmediate]
    by_cases hevi : occurrence.privateOccurrence = none ∧ occurrence.snapshotRevision = none
    · simp only [hevi.1, hevi.2, Option.isSome_none, Bool.false_eq_true, or_self, if_false,
        true_and]
      cases validateFill config event event.source with
      | error error => exact .inl ⟨if_neg nofun, error, rfl⟩
      | ok => exact .inr ⟨event, occurrence, s, if_pos rfl, .refl s, rfl⟩
    · refine .inl ⟨if_neg fun h => hevi ⟨h.1, h.2.1⟩, .occurrenceEvidenceMismatch, ?_⟩
      simp only [Option.isSome_iff_ne_none, if_pos (not_and_or.mp hevi)]
      rfl
  | observeOwnedRecovery event occurrence =>
    simp only [Op.observation, call, observeOwnedRecovery]
    cases validateFill config event event.source with
    | error error => exact .inl ⟨if_neg nofun, error, rfl⟩
    | ok => exact .inr ⟨event, occurrence, s, if_pos rfl, .refl s, rfl⟩
  | _ => cases hop

section

variable (h : Stored config s.entries)

include h

theorem callSpec_of_observation (hop : op.isObservation = true) :
    CallSpec config op s (call config op s) := by
  rcases observation_cases config s hop with ⟨-, error, hcall⟩ | ⟨event, occurrence, s', hop, hs, hcall⟩
  · rw [hcall]
    exact .done h (.kept (.refl s))
  · obtain ⟨hobs, hsto⟩ := applyFill_spec (hs.entries.symm ▸ h) event occurrence
    rw [hcall]
    exact hobs.callSpec hsto hop hs

/-- **What a call does.** -/
theorem call_spec (op : Op) : CallSpec config op s (call config op s) := by
  have hkept : ∀ {op : Op} {reply : Reply Unit} {t : PmFillState}, Kept s t →
      CallSpec config op s (reply, t) := fun ht => .done (ht.entries.symm ▸ h) (.kept ht)
  cases op with
  | initializeRecoveredWatermark cursor =>
    show CallSpec config _ s (s.initializeRecoveredWatermark config cursor)
    unfold initializeRecoveredWatermark
    split
    · exact hkept (.refl s)
    split
    · exact hkept (.refl s)
    split
    · exact hkept (.refl s)
    · exact hkept ⟨rfl, rfl⟩
  | observe | observeOwnedImmediate | observeOwnedRecovery => exact callSpec_of_observation h rfl
  | preflightQuery envelope =>
    have hspec := preflightQuery_spec h envelope
    show CallSpec config _ s (s.preflightQuery config envelope)
    revert hspec
    generalize s.preflightQuery config envelope = result
    rintro (ht | ⟨ht, -⟩) <;> exact hkept ht
  | reconcile envelope occurrence =>
    have hspec := preflightQuery_spec h envelope
    show CallSpec config _ s (s.reconcile config envelope occurrence)
    unfold reconcile
    revert hspec
    generalize s.preflightQuery config envelope = result
    rintro (ht | ⟨ht, hchkd⟩)
    · exact hkept ht
    next t =>
    rw [← ht.entries] at hchkd
    have hres := applyPreflightedQuery_spec (ht.entries.symm ▸ h) occurrence hchkd
    show CallSpec config _ s (t.applyPreflightedQuery config envelope occurrence)
    revert hres
    generalize t.applyPreflightedQuery config envelope occurrence = result
    rintro (- | - | ⟨hrows, hrec, -⟩)
    · exact hkept ht
    · exact .aborted
    · exact .done hrows.stored (.recomputed hrec)
  | compactCoveredThrough => exact .done (h.filter _) (.compacted rfl rfl)

/-- A call keeps the fills in order, also when their deltas overflow. -/
theorem stored_of_call (op : Op) (hcall : (call config op s).1 ≠ .panic) :
    Stored config (call config op s).2.entries := by
  have hspec := call_spec h op
  generalize call config op s = result at hspec hcall
  cases hspec with
  | aborted => exact absurd rfl hcall
  | overflowed hsto => exact hsto
  | done hsto => exact hsto

/-- A call in a run. -/
theorem step_spec (hstep : step config op s = some t) :
    Stored config t.entries ∧ Effect config s t op := by
  have hspec := call_spec h op
  unfold step at hstep
  cases hcall : call config op s with
  | mk =>
  rw [hcall] at hspec hstep
  cases hspec with
  | aborted => cases hstep
  | overflowed => cases hstep
  | done hsto heff =>
    split at hstep
    · cases hstep
    · cases hstep
    · next heq =>
      obtain ⟨-, rfl⟩ := Prod.mk.inj heq
      cases hstep
      exact ⟨hsto, heff⟩

end

/-! ### The two exceptions -/

section

variable (config : PmPrivateStateConfig)

/-- The fill that a call inserts, and its place. -/
def Op.insertion (s : PmFillState) (op : Op) : Option (ℕ × FillEntry) :=
  match op.observation config with
  | none => none
  | some (event, occurrence) =>
  match s.search event.fillKey with
  | some (.error p) => if s.entries.length < maxPmPrivateFills then
      some (p, .observed config event occurrence)
    else none
  | _ => none

/-- How far a call compacts. -/
def Op.compaction : Op → Option PmPrivateOccurrence
  | .compactCoveredThrough through => some through
  | _ => none

/-- What the first `n` fills that need reconciliation contribute, in the order of their keys. -/
def partialSum (entries : List FillEntry) (n : ℕ) : Exposure :=
  (((entries.filter needsReconciliation).take n).map (contribution config)).sum

/-- The sums in the order of the keys are representable. -/
def SumsFit (entries : List FillEntry) : Prop :=
  ∀ n ≤ entries.length, (partialSum config entries n).1.natAbs < 2 ^ 256 ∧
    (partialSum config entries n).2.1.natAbs < 2 ^ 256

instance (config : PmPrivateStateConfig) (entries : List FillEntry) :
    Decidable (SumsFit config entries) :=
  inferInstanceAs (Decidable (∀ n ≤ entries.length, _ ∧ _))

/-- A compaction drops no fill that needs reconciliation, and an insertion leaves fills whose
contributions can be summed in the order of their keys. -/
def KeepsBalance (s : PmFillState) (op : Op) : Prop :=
  (∀ through ∈ op.compaction, ∀ entry ∈ s.entries, entry.needsReconciliation = true →
    entry.isDropped through = false) ∧
  ∀ insertion ∈ op.insertion config s, SumsFit config (s.entries.insertIdx insertion.1 insertion.2)

instance (config : PmPrivateStateConfig) (s : PmFillState) (op : Op) :
    Decidable (KeepsBalance config s op) :=
  inferInstanceAs (Decidable (_ ∧ _))

/-- The deltas are those of the fills that need reconciliation, of which there is one for each
key. -/
structure Balanced (config : PmPrivateStateConfig) (s : PmFillState) : Prop where
  one_per_key : (s.entries.map key).Nodup
  recomputed : recomputeProvisional config s.entries = .ok s.provisional
  /-- A fill contributes its principal unless a query covers it. -/
  value_eq : s.provisional.value =
    ((s.entries.filter needsReconciliation).map (contribution config)).sum

end

/-- A fill counts at most once as uncovered, as unresolved and as unmapped. -/
theorem counts_le (config : PmPrivateStateConfig) (entries : List FillEntry) :
    (entries.map (contribution config)).sum.2.2.1 ≤ entries.length ∧
    (entries.map (contribution config)).sum.2.2.2.1 ≤ entries.length ∧
    (entries.map (contribution config)).sum.2.2.2.2 ≤ entries.length := by
  induction entries with
  | nil => exact ⟨le_refl _, le_refl _, le_refl _⟩
  | cons entry _ ih =>
    have hone : (contribution config entry).2.2.1 ≤ 1 ∧ (contribution config entry).2.2.2.1 ≤ 1 ∧
        (contribution config entry).2.2.2.2 ≤ 1 := by
      have hpri : (principal entry.event).2.2 = 0 := by
        unfold principal
        cases entry.event.execution.side <;> rfl
      have hunr := Bool.toNat_le entry.fee.isUnresolved
      have hunm := Bool.toNat_le entry.fee.isUnmapped
      unfold contribution feeShare oneFill
      split_ifs <;> simp [hpri, value_feeOnlyDelta, hunr, hunm]
    simp only [map_cons, sum_cons, Prod.snd_add, Prod.fst_add, length_cons]
    omega

theorem fits_partialSum (hsto : Stored config entries) (hfit : SumsFit config entries) (n : ℕ) :
    Fits PmProvisionalDeltas.value (partialSum config entries n) := by
  have hfil := length_filter_le needsReconciliation entries
  -- past the last fill the sums no longer change
  have hsums : (partialSum config entries n).1.natAbs < 2 ^ 256 ∧
      (partialSum config entries n).2.1.natAbs < 2 ^ 256 := by
    rcases Nat.le_total n entries.length with hle | hle
    · exact hfit n hle
    · have hall := hfit entries.length (le_refl _)
      unfold partialSum at hall ⊢
      rwa [take_of_length_le hfil, ← take_of_length_le (hfil.trans hle)] at hall
  have hcou := counts_le config ((entries.filter needsReconciliation).take n)
  have hlen := length_take_le' n (entries.filter needsReconciliation)
  have hcap : maxPmPrivateFills < 2 ^ 16 := by decide
  have hbd := hsto.length_le
  rw [fits_value_iff]
  refine ⟨hsums.1, hsums.2, ?_⟩
  unfold partialSum
  omega

theorem recompute_of_inserted {p : ℕ}
    (hrec : recomputeProvisional config s.entries = .ok s.provisional)
    (h : Inserted config p (.observed config event occurrence) s t) (hsto : Stored config t.entries)
    (hfit : SumsFit config t.entries) :
    recomputeProvisional config t.entries = .ok t.provisional := by
  obtain ⟨delta, hdel, hnext⟩ := h.provisional
  have hperm : (t.entries.filter needsReconciliation).Perm
      (.observed config event occurrence :: s.entries.filter needsReconciliation) := by
    rw [h.entries]
    exact (perm_insertIdx _ _ h.splits.le_length).filter _
  refine checkedSum_of_perm_cons addDelta_checked value_of_entryProvisionalDelta hperm hrec
    hdel hnext fun n => ?_
  rw [value_emptyDeltas, zero_add]
  exact fits_partialSum hsto hfit n

/-- To drop fills that need no reconciliation does not change the deltas. -/
theorem recompute_of_compacted {through : PmPrivateOccurrence}
    (h : ∀ entry ∈ entries, entry.needsReconciliation = true → entry.isDropped through = false) :
    recomputeProvisional config (entries.filter fun entry => !entry.isDropped through) =
      recomputeProvisional config entries := by
  unfold recomputeProvisional
  rw [filter_filter]
  congr 1
  refine filter_congr fun entry hent => ?_
  cases hnee : entry.needsReconciliation with
  | false => rfl
  | true => rw [h entry hent hnee]; rfl

end

/-! ### Runs -/

namespace FillSample

open Reap.Order.OrderSample (source account_source config accountScope venue both half share)

/-- A fill of one share of the sample order. -/
def fill (id : PmFillId) (settlement : PmFillSettlementStatus) (fee : PmSignedUnits) :
    PmFillEvent where
  source := config.source
  instrument := config.instrument
  fillKey := ⟨venue, id⟩
  order := both
  execution := ⟨.buy, .maker, settlement, half, share, .known config.outcomeAsset fee⟩
  venue_matches := rfl
  account_source := rfl

/-- A fill without a fee. -/
def plain (settlement : PmFillSettlementStatus) : PmFillEvent :=
  fill Samples.legOne settlement .zero

/-- An observation on the private stream. -/
def observe (sequence : UInt64) (h : sequence ≠ 0) (event : PmFillEvent) : Op :=
  .observe ⟨event.source, 1, Samples.streamed sequence h, event, Samples.one_ne, rfl⟩
    ⟨⟨sequence, h⟩, some ⟨⟨1⟩, ⟨sequence⟩⟩, none, nofun⟩

/-- A query, requested at sequence number 1 and completed at 2, that lists the fill. -/
def query (settlement : PmFillSettlementStatus) : Op :=
  .reconcile ⟨source, 1, Samples.answered 2 Samples.two_ne,
      ⟨source, accountScope, Samples.evidence, Samples.boundary, none,
        ⟨accountScope, 0⟩, [plain settlement], account_source, Nat.one_le_iff_ne_zero.mpr (by decide), nofun, rfl,
        by intro _ h; rcases List.mem_singleton.mp h; exact ⟨rfl, rfl⟩, List.nodup_singleton _⟩,
      Samples.one_ne, rfl⟩
    ⟨⟨2, Samples.two_ne⟩, some ⟨⟨1⟩, ⟨2⟩⟩, some ⟨1⟩, nofun⟩

/-- The fill is covered, and its settlement is then retried. -/
def covered : List Op :=
  [query .mined, observe 3 Samples.three_ne (plain .retrying)]

/-- The retry succeeds, and the fill is as the query knew it, but it was observed later. -/
def lost : List Op :=
  covered ++ [observe 4 Samples.four_ne (plain .mined), .compactCoveredThrough ⟨⟨1⟩, ⟨4⟩⟩]

/-- More than half of the largest amount. -/
def large (sign : PmSign) : PmSignedUnits :=
  ⟨sign, .ofValue (2 ^ 255) (by decide), fun h => absurd h (by decide)⟩

def legThree : PmFillId := ⟨[102, 51], by decide, by decide, by decide +kernel⟩

/-- Three fills whose fees can be added in the order of their arrival, but not in the order of
their keys. -/
def crossed : List Op :=
  [observe 1 Samples.one_ne (fill Samples.legOne .mined (large .positive)),
    observe 2 Samples.two_ne (fill legThree .mined (large .negative)),
    observe 3 Samples.three_ne (fill Samples.legTwo .mined (large .positive))]

end FillSample

open FillSample

/-- **The deltas balance.** In every run, without an overflow, whose compactions drop no fill
that needs reconciliation and whose insertions leave fills that can be summed in the order of
their keys, the deltas are those of the fills that need reconciliation. -/
theorem balanced_of_reach (config : PmPrivateStateConfig) {s : PmFillState}
    (h : Reach (step config) (KeepsBalance config) .new s) : Balanced config s := by
  have hinv : Stored config s.entries ∧ recomputeProvisional config s.entries =
    .ok s.provisional := by
    refine h.invariant (P := fun s => Stored config s.entries ∧
      recomputeProvisional config s.entries = .ok s.provisional) ⟨stored_nil config, rfl⟩ ?_
    rintro s op t ⟨hsto, hrec⟩ ⟨hcom, hins⟩ hstep
    obtain ⟨hnext, heff⟩ := step_spec hsto hstep
    refine ⟨hnext, ?_⟩
    cases heff with
    | kept ht => rw [ht.entries, ht.provisional, hrec]
    | recomputed ht => exact ht
    | @inserted _ event occurrence p hop hsea ht =>
      refine recompute_of_inserted hrec ht hnext ?_
      rw [ht.entries]
      refine hins (p, .observed config event occurrence) ?_
      simp [Op.insertion, hop, hsea, if_pos ht.room]
    | compacted hents hpro =>
      rw [hents, hpro, recompute_of_compacted fun entry hent hnee => hcom _ rfl entry hent hnee]
      exact hrec
  exact ⟨pairwise_map.mpr (hinv.1.sorted.imp fun hlt heq => hlt.key_ne (congrArg some heq)), hinv.2,
    recomputeProvisional_value hinv.2⟩

theorem balanced_of_covered :
    ∃ s, Reach (step Order.OrderSample.config) (KeepsBalance Order.OrderSample.config) .new s ∧
      s.entries.length = 1 ∧ Balanced Order.OrderSample.config s :=
  exists_reach_and covered (by decide +kernel) fun _ hrch _ => balanced_of_reach _ hrch

/-- A compaction drops a fill that is still counted. -/
theorem compacted_fill_still_counted :
    ∃ s, Reach (step Order.OrderSample.config) anyCall .new s ∧ s.entries = [] ∧
      s.provisional.uncoveredFills = 1 ∧
      recomputeProvisional Order.OrderSample.config s.entries ≠ .ok s.provisional :=
  exists_reach_of_run lost (by decide +kernel)

/-- The fills cannot be summed again in the order of their keys. -/
theorem crossed_fills_overflow : ∃ s, Reach (step Order.OrderSample.config) anyCall .new s ∧
      recomputeProvisional Order.OrderSample.config s.entries = .error .arithmeticOverflow :=
  exists_reach_of_run crossed (by decide +kernel)

end Reap.Fill
