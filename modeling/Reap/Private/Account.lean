import Reap.Base.Run
import Reap.Core.Account
import Mathlib.Data.List.Nodup
import Mathlib.Data.List.Perm.Subperm

/-!
# Account facts of the private state

The last complete account snapshot: collateral, outcome tokens, position and allowances. A
snapshot is previewed against the one that is kept; `apply` previews again and, if the snapshot is
newer, replaces every fact at once.

## What is proved

* `apply_of_preview` — a snapshot whose preview is to apply it can be applied. The lookups that
  `apply` expects to succeed do, because the preview has compared what the snapshot expects with
  the configuration.
-/

namespace Reap.Private

open Base Reap.Core

/-! ### Data -/

/-- `PmObservedAmount`. -/
inductive PmObservedAmount where
  | unavailable
  | explicitAbsent
  | present (value : U256)
  deriving DecidableEq

section

variable (snapshot : PmCompleteAccountSnapshot)

/-- `value`. -/
def PmObservedAmount.value : PmObservedAmount → Option U256
  | .unavailable => none
  | .explicitAbsent => some .zero
  | .present value => some value

/-- What may be spent. -/
inductive PmAllowanceKnowledge where
  | unconfigured
  | unavailable
  | explicitAbsent
  | present (value : PmAllowanceValue)
  deriving DecidableEq

/-- What is held. -/
inductive PmPositionKnowledge where
  | unavailable
  | explicitAbsent
  | tradable (quantity : U256)
  | resolvedUnredeemed (quantity : U256)
  | venueUnavailable (quantity : U256)
  deriving DecidableEq

/-- `tradable_units`. -/
def PmPositionKnowledge.tradableUnits : PmPositionKnowledge → Option U256
  | .explicitAbsent => some .zero
  | .tradable quantity => some quantity
  | .unavailable | .resolvedUnredeemed _ | .venueUnavailable _ => none

/-- What a snapshot did. -/
inductive PmAccountSnapshotApply where
  | applied (revision : SnapshotRevision) (explicitAbsences : UInt8)
  | duplicate (revision : SnapshotRevision)
  | ignoredStale (received current : SnapshotRevision)
  deriving DecidableEq

/-- `PmAccountCounters`. -/
structure PmAccountCounters where
  applied : UInt64 := 0
  duplicates : UInt64 := 0
  stale : UInt64 := 0
  contractViolations : UInt64 := 0
  unknownRows : UInt64 := 0
  deriving DecidableEq

/-- Why it is refused. -/
inductive PmAccountStateError where
  | scopeMismatch
  | expectedScopeMismatch
  | envelopeRevisionMismatch
  | completionSequenceMismatch
  deriving DecidableEq, Repr

/-- `AllowanceEntry`. -/
structure AllowanceEntry where
  spender : PmSpenderId
  knowledge : PmAllowanceKnowledge
  deriving DecidableEq

/-- `PmAccountState`. -/
structure PmAccountState where
  source : Option PmProductSource
  snapshot : Option PmSnapshotEvidence
  completion : Option PmPrivateOccurrence
  localWallReceiveNs : Option UInt64
  monotonicReceiveNs : Option UInt64
  monotonicServiceNs : Option UInt64
  collateral : PmObservedAmount
  outcomeBalance : PmObservedAmount
  position : PmPositionKnowledge
  allowances : List AllowanceEntry
  diagnosticBalances : List PmBalanceEvent
  diagnosticAllowances : List PmAllowanceEvent
  diagnosticPositions : List PmPositionEvent
  unknownBalanceRows : UInt8
  unknownAllowanceRows : UInt8
  unknownPositionRows : UInt8
  counters : PmAccountCounters
  deriving DecidableEq

/-! ### Reading a snapshot -/

/-- `validate_envelope`. -/
def validateEnvelope (config : PmAccountConfig)
    (envelope : ServicedEnvelope PmCompleteAccountSnapshot) : Except PmAccountStateError Unit :=
  let snapshot := envelope.payload
  if envelope.source ≠ config.source ∨ snapshot.accountScope ≠ config.accountScope then
    .error .scopeMismatch
  else if ¬ (config.expectedAssetsMatch snapshot.expectedAssets = true ∧
      config.expectedSpendersMatch snapshot.expectedSpenders = true ∧
      config.expectedInstrumentsMatch snapshot.expectedInstruments = true) then
    .error .expectedScopeMismatch
  else if envelope.ordering.snapshotRevision ≠ some snapshot.snapshot.revision then
    .error .envelopeRevisionMismatch
  else if envelope.ordering.localIngressSequence ≠ snapshot.boundary.completionSequence then
    .error .completionSequenceMismatch
  else .ok ()

/-- When a snapshot was complete. -/
def completionOf (envelope : ServicedEnvelope PmCompleteAccountSnapshot) : PmPrivateOccurrence :=
  ⟨envelope.ordering.connectionEpoch, envelope.payload.boundary.completionSequence⟩

/-- `observed_balance`, which aborts if the asset is not expected. -/
def observedBalance (asset : PmAssetId) : Option PmObservedAmount :=
  match snapshot.expectedBalance asset with
  | none => none
  | some none => some .explicitAbsent
  | some (some row) => some (.present row.balance)

/-- `observed_position`, which aborts if the instrument is not expected. -/
def observedPosition (instrument : PmInstrumentHandle) : Option PmPositionKnowledge :=
  match snapshot.expectedPosition instrument with
  | none => none
  | some none => some .explicitAbsent
  | some (some row) =>
    match row.availability with
    | .tradable => some (.tradable row.quantity)
    | .resolvedUnredeemed => some (.resolvedUnredeemed row.quantity)
    | .unavailable => some (.venueUnavailable row.quantity)

/-- What a snapshot says of an allowance; the program aborts if the spender is not expected. -/
def observedAllowance (entry : AllowanceEntry) : Option AllowanceEntry :=
  match snapshot.expectedAllowance entry.spender with
  | none => none
  | some none => some { entry with knowledge := .explicitAbsent }
  | some (some row) => some { entry with knowledge := .present row.value }

/-- `u8::try_from`. -/
def toU8 (n : ℕ) : Option UInt8 := if n < 2 ^ 8 then some (UInt8.ofNat n) else none

/-- `u8::from`. -/
def absent (flag : Bool) : UInt8 := if flag then 1 else 0

/-- `count_absences`. -/
def countAbsences (config : PmAccountConfig) (collateral outcome : PmObservedAmount)
    (position : PmPositionKnowledge) (snapshot : PmCompleteAccountSnapshot) : Option UInt8 :=
  let missing := config.requiredSpenders.filter fun spender =>
    snapshot.expectedAllowance spender == some none
  match toU8 missing.length with
  | none => none
  | some missing =>
    some (absent (collateral == .explicitAbsent) + absent (outcome == .explicitAbsent) +
      absent (position == .explicitAbsent) + missing)

/-- `apply_signed`. -/
def applySigned (base : U256) (delta : PmSignedUnits) : Option U256 :=
  match delta.sign with
  | .positive => (base.checkedAdd delta.magnitude).toOption
  | .negative => (base.checkedSub delta.magnitude).toOption

end

namespace PmAccountState

section

variable (s : PmAccountState) (config : PmAccountConfig)

variable (envelope : ServicedEnvelope PmCompleteAccountSnapshot)

/-- How a call of the account state ends. -/
abbrev Reply := Outcome PmAccountStateError

/-- `new`. -/
def new : PmAccountState where
  source := none
  snapshot := none
  completion := none
  localWallReceiveNs := none
  monotonicReceiveNs := none
  monotonicServiceNs := none
  collateral := .unavailable
  outcomeBalance := .unavailable
  position := .unavailable
  allowances := config.requiredSpenders.map fun spender => ⟨spender, .unavailable⟩
  diagnosticBalances := []
  diagnosticAllowances := []
  diagnosticPositions := []
  unknownBalanceRows := 0
  unknownAllowanceRows := 0
  unknownPositionRows := 0
  counters := {}

/-- The state with its counters changed. -/
def count (f : PmAccountCounters → PmAccountCounters) : PmAccountState :=
  { s with counters := f s.counters }

/-- `preview`. -/
def preview : Except PmAccountStateError PmAccountSnapshotApply :=
  match validateEnvelope config envelope with
  | .error error => .error error
  | .ok () =>
  let received := envelope.payload.snapshot.revision
  let completion := completionOf envelope
  match s.snapshot with
  | none => .ok (.applied received 0)
  | some evidence =>
    let current := evidence.revision
    if received = current ∧ s.completion = some completion then .ok (.duplicate received)
    else
      let staleOccurrence := s.completion.any fun prior => decide (completion ≤ prior)
      let staleRevisionSameEpoch := s.completion.any fun prior =>
        prior.epoch == completion.epoch && decide (received ≤ current)
      if staleOccurrence || staleRevisionSameEpoch then .ok (.ignoredStale received current)
      else .ok (.applied received 0)

/-- `count_non_applied`. -/
def countNonApplied (outcome : PmAccountSnapshotApply) : PmAccountState :=
  match outcome with
  | .duplicate _ => s.count fun c => { c with duplicates := bump c.duplicates }
  | .ignoredStale _ _ => s.count fun c => { c with stale := bump c.stale }
  | .applied _ _ => s

/-- `replace_diagnostics`. -/
def replaceDiagnostics (snapshot : PmCompleteAccountSnapshot) : PmAccountState :=
  { s with
    diagnosticBalances := snapshot.balances.filter fun row =>
      row.asset != config.collateralAsset && row.asset != config.outcomeAsset
    diagnosticAllowances := snapshot.allowances.filter fun row =>
      decide (row.spender ∉ config.requiredSpenders)
    diagnosticPositions := snapshot.positions.filter fun row =>
      row.instrument != config.instrument }

/-- The facts of a snapshot. The program aborts if there are more diagnostic rows than a byte can
count. -/
def replace (collateral outcome : PmObservedAmount)
    (position : PmPositionKnowledge) (allowances : List AllowanceEntry) : Option PmAccountState :=
  let s := { s with allowances := allowances }.replaceDiagnostics config envelope.payload
  match toU8 s.diagnosticBalances.length, toU8 s.diagnosticAllowances.length,
    toU8 s.diagnosticPositions.length with
  | some balances, some allowances, some positions =>
    let unknown := balances.toNat + allowances.toNat + positions.toNat
    some <| { s with
      source := some envelope.source
      snapshot := some envelope.payload.snapshot
      completion := some (completionOf envelope)
      localWallReceiveNs := some envelope.localWallReceiveNs
      monotonicReceiveNs := some envelope.monotonicReceiveNs
      monotonicServiceNs := some envelope.monotonicServiceNs
      collateral := collateral
      outcomeBalance := outcome
      position := position
      unknownBalanceRows := balances
      unknownAllowanceRows := allowances
      unknownPositionRows := positions }.count fun c =>
        { c with applied := bump c.applied, unknownRows := saturatingAdd c.unknownRows unknown }
  | _, _, _ => none

/-- `apply`. -/
def apply : Reply PmAccountSnapshotApply × PmAccountState :=
  match s.preview config envelope with
  | .error error =>
    (.err error, s.count fun c => { c with contractViolations := bump c.contractViolations })
  | .ok (.applied _ _) =>
    let snapshot := envelope.payload
    match observedBalance snapshot config.collateralAsset,
      observedBalance snapshot config.outcomeAsset, observedPosition snapshot config.instrument with
    | some collateral, some outcome, some position =>
      match countAbsences config collateral outcome position snapshot,
        s.allowances.mapM (observedAllowance snapshot) with
      | some explicitAbsences, some allowances =>
        match s.replace config envelope collateral outcome position allowances with
        | some next => (.ok (.applied snapshot.snapshot.revision explicitAbsences), next)
        | none => (.panic, s)
      | _, _ => (.panic, s)
    | _, _, _ => (.panic, s)
  | .ok preview => (.ok preview, s.countNonApplied preview)

/-- `allowance`. -/
def allowance (spender : PmSpenderId) : PmAllowanceKnowledge :=
  match s.allowances.find? (·.spender = spender) with
  | none => .unconfigured
  | some entry => entry.knowledge

/-- `invalidate_freshness`. -/
def invalidateFreshness : PmAccountState := { s with monotonicServiceNs := none }

/-- `observed_monotonic_ns`. -/
def observedMonotonicNs : Option UInt64 := s.monotonicServiceNs

/-! ### A previewed snapshot can be applied -/

/-- The allowances that are kept are those of the configured spenders. -/
def Configured (s : PmAccountState) : Prop :=
  s.allowances.map (·.spender) = config.requiredSpenders

end

end PmAccountState

/-- What a snapshot covers is what the configuration asks for. -/
structure InScope (config : PmAccountConfig) (snapshot : PmCompleteAccountSnapshot) : Prop where
  assets : ∀ asset, asset ∈ snapshot.expectedAssets ↔
    asset = config.collateralAsset ∨ asset = config.outcomeAsset
  spenders : ∀ spender, spender ∈ snapshot.expectedSpenders ↔ spender ∈ config.requiredSpenders
  instruments : snapshot.expectedInstruments = [config.instrument]

/-- A list without repetitions that has the elements of another and is not longer has no
others. -/
theorem mem_iff_of_length_le {α : Type} [DecidableEq α] {xs ys : List α} (hys : ys.Nodup)
    (hsub : ∀ y ∈ ys, y ∈ xs) (hlen : xs.length ≤ ys.length) (x : α) : x ∈ xs ↔ x ∈ ys :=
  ((hys.subperm hsub).perm_of_length_le hlen).mem_iff.symm

variable {config : PmAccountConfig} {envelope : ServicedEnvelope PmCompleteAccountSnapshot}

theorem inScope_of_validateEnvelope (h : validateEnvelope config envelope = .ok ()) :
    InScope config envelope.payload := by
  unfold validateEnvelope at h
  simp only at h
  split_ifs at h with _ hmat
  obtain ⟨hassets, hspe, hins⟩ := hmat
  simp only [PmAccountConfig.expectedAssetsMatch, Bool.and_eq_true, beq_iff_eq,
    decide_eq_true_iff] at hassets
  simp only [PmAccountConfig.expectedSpendersMatch, Bool.and_eq_true, beq_iff_eq, List.all_eq_true,
    decide_eq_true_iff] at hspe
  refine ⟨fun asset => ?_, ?_, by simpa [PmAccountConfig.expectedInstrumentsMatch] using hins⟩
  · have hpair : [config.collateralAsset, config.outcomeAsset].Nodup := by
      simpa using config.collateralAsset_ne_outcomeAsset
    rw [mem_iff_of_length_le hpair (by simpa using ⟨hassets.1.2, hassets.2⟩) hassets.1.1.le]
    simp
  · exact mem_iff_of_length_le config.nodup_requiredSpenders hspe.2 hspe.1.le

theorem exists_toU8 {n : ℕ} (h : n ≤ maxPmAccountDiagnosticExtraRows) :
    ∃ byte, toU8 n = some byte :=
  ⟨_, if_pos (lt_of_le_of_lt h (by decide))⟩

namespace InScope

variable {config : PmAccountConfig} {snapshot : PmCompleteAccountSnapshot}

section

variable (h : InScope config snapshot)

include h

theorem exists_observedBalance {asset : PmAssetId}
    (hasset : asset = config.collateralAsset ∨ asset = config.outcomeAsset) :
    ∃ amount, observedBalance snapshot asset = some amount := by
  unfold observedBalance PmCompleteAccountSnapshot.expectedBalance
  rw [if_pos ((h.assets asset).mpr hasset)]
  cases snapshot.balances.find? (·.asset = asset) with
  | none => exact ⟨_, rfl⟩
  | some => exact ⟨_, rfl⟩

theorem exists_observedPosition :
    ∃ position, observedPosition snapshot config.instrument = some position := by
  unfold observedPosition PmCompleteAccountSnapshot.expectedPosition
  rw [if_pos (h.instruments ▸ (.head _))]
  cases snapshot.positions.find? (·.instrument = config.instrument) with
  | none => exact ⟨_, rfl⟩
  | some row =>
    simp only
    cases row.availability <;> exact ⟨_, rfl⟩

/-- Every kept allowance is covered by the snapshot. -/
theorem exists_observedAllowances (entries : List AllowanceEntry)
    (hents : ∀ entry ∈ entries, entry.spender ∈ config.requiredSpenders) :
    ∃ observed, entries.mapM (observedAllowance snapshot) = some observed ∧
      observed.map (·.spender) = entries.map (·.spender) := by
  induction entries with
  | nil => exact ⟨[], rfl, rfl⟩
  | cons entry _ ih =>
    obtain ⟨observed, hobs, hspe⟩ := ih fun x hx => hents x (.tail _ hx)
    have hmem := (h.spenders _).mpr (hents entry ((.head _) ..))
    rw [List.mapM_cons]
    unfold observedAllowance PmCompleteAccountSnapshot.expectedAllowance
    rw [if_pos hmem]
    unfold observedAllowance PmCompleteAccountSnapshot.expectedAllowance at hobs
    cases snapshot.allowances.find? (·.spender = entry.spender) with
    | none =>
      refine ⟨{ entry with knowledge := .explicitAbsent } :: observed, ?_, ?_⟩
      · simp only [hobs]
        rfl
      · simp [hspe]
    | some row =>
      refine ⟨{ entry with knowledge := .present row.value } :: observed, ?_, ?_⟩
      · simp only [hobs]
        rfl
      · simp [hspe]

end

end InScope

theorem exists_countAbsences (config : PmAccountConfig) (collateral outcome : PmObservedAmount)
    (position : PmPositionKnowledge) (snapshot : PmCompleteAccountSnapshot) :
    ∃ n, countAbsences config collateral outcome position snapshot = some n := by
  have hle : (config.requiredSpenders.filter fun spender =>
      snapshot.expectedAllowance spender == some none).length ≤ maxPmAccountDiagnosticExtraRows :=
    (List.length_filter_le _ _).trans (by decide : 2 ≤ maxPmAccountDiagnosticExtraRows)
  obtain ⟨byte, hbyte⟩ := exists_toU8 hle
  unfold countAbsences
  simp only [hbyte]
  exact ⟨_, rfl⟩

/-- The diagnostic rows of a snapshot that covers the configuration can be counted. -/
theorem PmAccountState.exists_replace (h : InScope config envelope.payload) (s : PmAccountState)
    (collateral outcome : PmObservedAmount) (position : PmPositionKnowledge)
    (allowances : List AllowanceEntry) :
    ∃ t, s.replace config envelope collateral outcome position allowances = some t ∧
      t.allowances = allowances ∧ t.collateral = collateral ∧ t.outcomeBalance = outcome ∧
      t.position = position := by
  obtain ⟨b, hb⟩ : ∃ b, toU8 (envelope.payload.balances.filter fun row =>
      row.asset != config.collateralAsset && row.asset != config.outcomeAsset).length = some b := by
    refine exists_toU8 (le_trans (le_of_eq ?_) envelope.payload.extra_balances_le)
    simp [h.assets, bne, beq_eq_decide]
  obtain ⟨a, ha⟩ : ∃ a, toU8 (envelope.payload.allowances.filter fun row =>
      decide (row.spender ∉ config.requiredSpenders)).length = some a := by
    refine exists_toU8 (le_trans (le_of_eq ?_) envelope.payload.extra_allowances_le)
    simp [h.spenders]
  obtain ⟨p, hp⟩ : ∃ p, toU8 (envelope.payload.positions.filter fun row =>
      row.instrument != config.instrument).length = some p := by
    refine exists_toU8 (le_trans (le_of_eq ?_) envelope.payload.extra_positions_le)
    simp [h.instruments, bne, beq_eq_decide]
  unfold replace
  simp only [replaceDiagnostics, hb, ha, hp]
  exact ⟨_, rfl, rfl, rfl, rfl, rfl⟩

namespace PmAccountState

variable {config : PmAccountConfig} {s : PmAccountState}

theorem inScope_of_preview {outcome : PmAccountSnapshotApply}
    (h : s.preview config envelope = .ok outcome) : InScope config envelope.payload := by
  unfold preview at h
  cases hval : validateEnvelope config envelope with
  | error =>
    rw [hval] at h
    cases h
  | ok => exact inScope_of_validateEnvelope hval

/-- **A previewed snapshot** can be applied. -/
theorem apply_of_preview (hs : Configured config s) {revision : SnapshotRevision} {absences : UInt8}
    (h : s.preview config envelope = .ok (.applied revision absences)) : ∃ explicitAbsences t,
      s.apply config envelope =
        (.ok (.applied envelope.payload.snapshot.revision explicitAbsences), t) ∧
      Configured config t := by
  have hsc := inScope_of_preview h
  obtain ⟨collateral, hcol⟩ := hsc.exists_observedBalance (.inl rfl)
  obtain ⟨outcome, hout⟩ := hsc.exists_observedBalance (.inr rfl)
  obtain ⟨position, hpos⟩ := hsc.exists_observedPosition
  obtain ⟨absent, habs⟩ := exists_countAbsences config collateral outcome position envelope.payload
  have hspe : ∀ entry ∈ s.allowances, entry.spender ∈ config.requiredSpenders := by
    intro entry hent
    rw [← hs]
    exact List.mem_map_of_mem hent
  obtain ⟨allowances, hall, hkept⟩ := hsc.exists_observedAllowances s.allowances hspe
  obtain ⟨t, ht, htal, -⟩ := exists_replace hsc s collateral outcome position allowances
  refine ⟨absent, t, ?_, ?_⟩
  · unfold apply
    simp [h, hcol, hout, hpos, habs, hall, ht]
  · rw [Configured, htal, hkept]
    exact hs

/-- **A snapshot is applied, ignored or refused**; the allowances stay those of the configured
spenders. -/
theorem apply_configured (hs : Configured config s)
    (envelope : ServicedEnvelope PmCompleteAccountSnapshot) :
    (s.apply config envelope).1 ≠ .panic ∧ Configured config (s.apply config envelope).2 := by
  cases hpre : s.preview config envelope with
  | error =>
    unfold apply
    rw [hpre]
    exact ⟨nofun, hs⟩
  | ok outcome =>
    cases outcome with
    | applied =>
      obtain ⟨explicitAbsences, t, happ, ht⟩ := apply_of_preview hs hpre
      rw [happ]
      exact ⟨nofun, ht⟩
    | duplicate | ignoredStale =>
      unfold apply
      rw [hpre]
      exact ⟨nofun, hs⟩

end PmAccountState

end Reap.Private
