import Reap.Core.Samples
import Reap.Authenticated.Attempts

/-!
# Where an attempt is listed

Recovery reads three lists off the attempts. With the invariant of `Reap.Authenticated.Attempts`
they are told by the records alone, and every attempt is in exactly one of them.

## What is proved

* `Inv.listed` — what the three lists say of an attempt.
* `recoverLines_ne_panic` — neither the `expect` nor the `unreachable!` is reached.
* `attempts_linear` — an attempt is prepared once, granted at most once and concluded at most once,
  in this order, and is in exactly one of the three lists.
-/

namespace Reap.Authenticated

open Base Reap.Core Outcome List
open PmAuthenticatedJournalRecordV1 (preparation grant conclusion)

namespace PmAuthenticatedJournalRecovery

open OrderedMap

/-! ### The three lists -/

section

variable {records : List PmAuthenticatedJournalRecordV1}
  {s final : PmAuthenticatedJournalRecovery}

section

variable (s : PmAuthenticatedJournalRecovery) (position : ℕ)

/-- The attempt prepared at a position is listed without a grant. -/
def ListedUngranted : Prop :=
  ∃ entry ∈ s.preparedWithoutGrant, entry.preparedJournalSequence = sequenceAt position

/-- The attempt prepared at a position is listed as unresolved. -/
def ListedUnresolved : Prop :=
  ∃ entry ∈ s.unresolvedOperations, entry.common.preparedJournalSequence = sequenceAt position

/-- The attempt prepared at a position is listed with a result. -/
def ListedClassified : Prop :=
  ∃ entry ∈ s.classifiedResults, entry.preparedJournalSequence = sequenceAt position

end

/-- There is a reason exactly if there is no conclusive result. -/
theorem unresolvedReason_isSome (result : Option RecoveredResult) :
    (unresolvedReason result).isSome = true ↔
      ∀ found ∈ result, found.classification.requiresReconciliation = true := by
  cases result with
  | none => simp [unresolvedReason]
  | some result =>
    obtain ⟨classification, sequence, observed⟩ := result
    rcases classification with (_ | _ | _ | _ | _) | (_ | _ | _ | _ | _) <;>
      simp [unresolvedReason, PmAuthenticatedRecoveredResultClassificationV1.requiresReconciliation]

variable {attempt : RecoveredAttempt} {position : ℕ}

theorem projectUnresolvedAttempt_cases (hkind : SameKind attempt.operation attempt.orderIdentity) :
    (projectUnresolvedAttempt attempt = .ok none ∧ ¬ (attempt.grantSequence.isSome = true ∧
      (unresolvedReason attempt.result).isSome = true)) ∨
    ∃ entry, projectUnresolvedAttempt attempt = .ok (some entry) ∧
      entry.common.preparedJournalSequence = attempt.preparedSequence ∧
      attempt.grantSequence.isSome = true ∧ (unresolvedReason attempt.result).isSome = true := by
  unfold projectUnresolvedAttempt
  cases attempt.grantSequence with
  | none => exact .inl ⟨rfl, fun hsome => Bool.noConfusion hsome.1⟩
  | some =>
  cases unresolvedReason attempt.result with
  | none => exact .inl ⟨rfl, fun hsome => Bool.noConfusion hsome.2⟩
  | some =>
  revert hkind
  cases attempt.operation <;> cases attempt.orderIdentity
  · exact fun _ => .inr ⟨_, rfl, rfl, rfl, rfl⟩
  · exact False.elim
  · exact False.elim
  · exact fun _ => .inr ⟨_, rfl, rfl, rfl, rfl⟩

section

variable (h : Inv records s)

include h

/-- What the three lists say of an attempt. -/
theorem Inv.listed (hreb : s.rebuildProjections = .ok final)
    (hget : s.attempts[sequenceAt position]? = some attempt) :
    (final.ListedUngranted position ↔ attempt.grantSequence = none) ∧
      (final.ListedUnresolved position ↔ attempt.grantSequence.isSome = true ∧
        ∀ result ∈ attempt.result, result.classification.requiresReconciliation = true) ∧
      (final.ListedClassified position ↔ attempt.result.isSome = true) := by
  obtain ⟨unresolved, hunr, hfin⟩ := bind_eq_ok.mp hreb
  cases hfin
  have hatt := h.attempt _ attempt hget
  have hmem : attempt ∈ s.attempts.valueList := mem_valueList.mpr ⟨_, hget⟩
  -- an attempt with this sequence number is this attempt
  have huni : ∀ found ∈ s.attempts.valueList,
      found.preparedSequence = sequenceAt position → found = attempt := by
    intro found hfou hseq
    obtain ⟨key, hkey⟩ := mem_valueList.mp hfou
    rw [← (h.attempt key found hkey).kept, hseq, hget] at hkey
    exact (Option.some.inj hkey).symm
  refine ⟨⟨?_, ?_⟩, ⟨?_, ?_⟩, ⟨?_, ?_⟩⟩
  · rintro ⟨entry, hent, hseq⟩
    rw [mem_mergeSort, mem_map] at hent
    obtain ⟨found, hfou, rfl⟩ := hent
    obtain ⟨hfou, hnone⟩ := mem_filter.mp hfou
    rw [← huni found hfou hseq]
    exact Option.isNone_iff_eq_none.mp hnone
  · intro hnone
    refine ⟨projectPreparedWithoutGrant attempt, ?_, hatt.kept⟩
    rw [mem_mergeSort, mem_map]
    exact ⟨attempt, mem_filter.mpr ⟨hmem, Option.isNone_iff_eq_none.mpr hnone⟩, rfl⟩
  · rintro ⟨entry, hent, hseq⟩
    rw [mem_mergeSort, mem_filterMap] at hent
    obtain ⟨found, hfou, rfl⟩ := hent
    obtain ⟨source, hsou, hpro⟩ := (mem_of_mapM_eq_ok hunr _).mp hfou
    obtain ⟨key, hkey⟩ := mem_valueList.mp hsou
    rcases projectUnresolvedAttempt_cases (h.attempt key source hkey).kind with
      ⟨hnone, -⟩ | ⟨_, hsome, hkept, hgran, hrea⟩
    · cases hnone.symm.trans hpro
    · cases hsome.symm.trans hpro
      cases huni source hsou (hkept.symm.trans hseq)
      exact ⟨hgran, (unresolvedReason_isSome _).mp hrea⟩
  · rintro ⟨hgran, hrea⟩
    rcases projectUnresolvedAttempt_cases hatt.kind with ⟨-, hnot⟩ | ⟨entry, hent, hkept, -⟩
    · exact absurd ⟨hgran, (unresolvedReason_isSome _).mpr hrea⟩ hnot
    · refine ⟨entry, ?_, hkept.trans hatt.kept⟩
      rw [mem_mergeSort, mem_filterMap]
      exact ⟨some entry, (mem_of_mapM_eq_ok hunr _).mpr ⟨attempt, hmem, hent⟩, rfl⟩
  · rintro ⟨entry, hent, hseq⟩
    rw [mem_mergeSort, mem_filterMap] at hent
    obtain ⟨source, hsou, hpro⟩ := hent
    obtain ⟨granted, -, hpro⟩ := Option.bind_eq_some_iff.mp hpro
    obtain ⟨result, hres, hent⟩ := Option.bind_eq_some_iff.mp hpro
    cases hent
    rw [← huni source hsou hseq, hres]
    rfl
  · intro hsome
    obtain ⟨result, hres⟩ := Option.isSome_iff_exists.mp hsome
    obtain ⟨granted, hgra, -⟩ := hatt.concluded result hres
    obtain ⟨entry, hent, hkept⟩ : ∃ entry, projectClassifiedResult attempt = some entry ∧
        entry.preparedJournalSequence = attempt.preparedSequence := by
      rw [projectClassifiedResult, hgra, hres]
      exact ⟨_, rfl, rfl⟩
    refine ⟨entry, ?_, hkept.trans hatt.kept⟩
    rw [mem_mergeSort, mem_filterMap]
    exact ⟨attempt, hmem, hent⟩

/-! ### The life of an attempt -/

/-- A record grants the request that is prepared at a position. -/
def GrantedAt (records : List PmAuthenticatedJournalRecordV1) (position granted : ℕ) : Prop :=
  ∃ record, ReadsAt grant records granted record ∧ record.preparedSequence = sequenceAt position

/-- The request that is prepared at a position has a conclusive result. -/
def Concluded (records : List PmAuthenticatedJournalRecordV1) (position : ℕ) : Prop :=
  ∃ granted concluded record, GrantedAt records position granted ∧
    ReadsAt conclusion records concluded record ∧ record.grantSequence = sequenceAt granted ∧
    record.classification.requiresReconciliation = false

/-- The life of the attempts of a journal, and where recovery lists them. -/
structure Linear (records : List PmAuthenticatedJournalRecordV1)
    (s : PmAuthenticatedJournalRecovery) : Prop where
  prepared_once : ∀ (first second : ℕ) (a b : Preparation), ReadsAt preparation records first a →
    ReadsAt preparation records second b → a.operation = b.operation →
    a.priorSequence = b.priorSequence → first = second
  grant_of_prepared : ∀ position granted, ReadsAt grant records position granted →
    granted.preparedSequence.toNat < position ∧ ∃ prepared,
      ReadsAt preparation records granted.preparedSequence.toNat prepared ∧
      prepared.operation = granted.operation
  granted_once : ∀ first second a b, ReadsAt grant records first a →
    ReadsAt grant records second b → a.preparedSequence = b.preparedSequence → first = second
  result_of_grant : ∀ position concluded, ReadsAt conclusion records position concluded →
    concluded.grantSequence.toNat < position ∧
    ClassifiesKind concluded.operation concluded.classification ∧ ∃ granted,
      ReadsAt grant records concluded.grantSequence.toNat granted ∧
      granted.operation = concluded.operation
  concluded_once : ∀ first second a b, ReadsAt conclusion records first a →
    ReadsAt conclusion records second b → a.grantSequence = b.grantSequence → first = second
  accepted_identity : ∀ position concluded granted prepared,
    ReadsAt conclusion records position concluded →
    concluded.classification = .place .accepted →
    ReadsAt grant records concluded.grantSequence.toNat granted →
    ReadsAt preparation records granted.preparedSequence.toNat prepared →
    ∃ expected, prepared.orderIdentity = .place expected ∧ concluded.observedOrderId = some expected
  listed : ∀ position prepared, ReadsAt preparation records position prepared →
    (s.ListedUngranted position ↔ ¬ ∃ granted, GrantedAt records position granted) ∧
    (s.ListedUnresolved position ↔
      (∃ granted, GrantedAt records position granted) ∧ ¬ Concluded records position) ∧
    (s.ListedClassified position ∧ ¬ s.ListedUnresolved position ↔ Concluded records position)
  listed_once : ∀ position prepared, ReadsAt preparation records position prepared →
    (s.ListedUngranted position ∧ ¬ s.ListedUnresolved position ∧ ¬ s.ListedClassified position) ∨
    (¬ s.ListedUngranted position ∧ s.ListedUnresolved position) ∨
    (¬ s.ListedUngranted position ∧ ¬ s.ListedUnresolved position ∧ s.ListedClassified position)

omit h in
theorem sequenceAt_toNat (sequence : UInt64) : sequenceAt sequence.toNat = sequence :=
  UInt64.ofNat_toNat

/-- A result record is the result of the attempt of its grant. -/
theorem Inv.conclusion (hlen : records.length ≤ 2 ^ 64)
    {concluded : Conclusion} (hread : ReadsAt conclusion records position concluded) :
    ∃ (key : UInt64) (attempt : RecoveredAttempt) (result : RecoveredResult),
      s.attempts[key]? = some attempt ∧ attempt.result = some result ∧
      attempt.grantSequence = some concluded.grantSequence ∧
      concluded.operation = attempt.operation ∧ concluded.classification = result.classification ∧
      concluded.observedOrderId = result.observedOrderId ∧
      result.journalSequence = sequenceAt position ∧ concluded.grantSequence.toNat < position := by
  obtain ⟨key, attempt, result, hget, hgra, hres, hseq⟩ := h.concluded position concluded hread
  obtain ⟨sequence, hsome, hlt, hsays, -⟩ := (h.attempt key attempt hget).concluded result hres
  have hat := toNat_sequenceAt (hread.lt.trans_le hlen)
  rw [hseq, hat] at hsays
  cases hread.unique hsays
  refine ⟨key, attempt, result, hget, hres, hgra, rfl, rfl, rfl, hseq, ?_⟩
  have hlt := UInt64.lt_iff_toNat_lt.mp hlt
  rwa [hseq, hat] at hlt

/-- Two attempts with one grant are one. -/
theorem Inv.same_grant {first second sequence : UInt64}
    {a b : RecoveredAttempt} (ha : s.attempts[first]? = some a)
    (hb : s.attempts[second]? = some b) (hga : a.grantSequence = some sequence)
    (hgb : b.grantSequence = some sequence) : first = second := by
  have hfst := (h.grants sequence first).mpr ⟨a, ha, hga⟩
  have hsnd := (h.grants sequence second).mpr ⟨b, hb, hgb⟩
  exact Option.some.inj (hfst.symm.trans hsnd)

theorem Inv.exists_grantedAt_iff (hget : s.attempts[sequenceAt position]? = some attempt) :
    (∃ granted, GrantedAt records position granted) ↔ attempt.grantSequence.isSome = true := by
  constructor
  · rintro ⟨granted, record, hread, hpre⟩
    obtain ⟨found, hfou, hsome⟩ := h.granted granted record hread
    rw [hpre, hget] at hfou
    cases hfou
    rw [hsome]
    rfl
  · intro hsome
    obtain ⟨sequence, hseq⟩ := Option.isSome_iff_exists.mp hsome
    exact ⟨sequence.toNat, _, ((h.attempt _ attempt hget).granted sequence hseq).2, rfl⟩

theorem Inv.concluded_iff (hlen : records.length ≤ 2 ^ 64)
    (hget : s.attempts[sequenceAt position]? = some attempt) :
    Concluded records position ↔ ∃ result, attempt.result = some result ∧
      result.classification.requiresReconciliation = false := by
  constructor
  · rintro ⟨granted, concluded, record, ⟨grantRecord, hgran, hpre⟩, hread, hseq, hfin⟩
    obtain ⟨found, hfou, hsome⟩ := h.granted granted grantRecord hgran
    rw [hpre, hget] at hfou
    cases hfou
    obtain ⟨key, other, result, hoth, hres, hgra, -, hcla, -⟩ := h.conclusion hlen hread
    rw [hseq] at hgra
    cases h.same_grant hget hoth hsome hgra
    cases hget.symm.trans hoth
    exact ⟨result, hres, hcla ▸ hfin⟩
  · rintro ⟨result, hres, hfin⟩
    have hatt := h.attempt _ attempt hget
    obtain ⟨sequence, hsome, -, hread, -⟩ := hatt.concluded result hres
    exact ⟨sequence.toNat, result.journalSequence.toNat, _,
      ⟨_, (hatt.granted sequence hsome).2, rfl⟩, hread, (sequenceAt_toNat sequence).symm, hfin⟩

/-- **The life of the attempts**, from the invariant. -/
theorem Inv.linear (hlen : records.length ≤ 2 ^ 64)
    (hreb : s.rebuildProjections = .ok final) : Linear records final := by
  have hlis : ∀ position prepared, ReadsAt preparation records position prepared →
      (final.ListedUngranted position ↔ ¬ ∃ granted, GrantedAt records position granted) ∧
      (final.ListedUnresolved position ↔
        (∃ granted, GrantedAt records position granted) ∧ ¬ Concluded records position) ∧
      (final.ListedClassified position ∧ ¬ final.ListedUnresolved position ↔
        Concluded records position) := by
    intro position prepared hread
    obtain ⟨attempt, hget⟩ := h.prepared position prepared hread
    obtain ⟨hung, hunr, hcla⟩ := h.listed hreb hget
    rw [hung, hunr, hcla, h.exists_grantedAt_iff hget, h.concluded_iff hlen hget]
    have hgraOf : attempt.result.isSome = true → attempt.grantSequence.isSome = true := by
      intro hsome
      obtain ⟨result, hres⟩ := Option.isSome_iff_exists.mp hsome
      obtain ⟨sequence, hseq, -⟩ := (h.attempt _ attempt hget).concluded result hres
      rw [hseq]
      rfl
    revert hgraOf
    cases attempt.grantSequence <;> cases attempt.result <;> simp
  refine ⟨fun first second a b ha hb hop hpr => ?_, fun position granted hread => ?_,
    fun first second a b ha hb hsame => ?_, fun position concluded hread => ?_,
    fun first second a b ha hb hsame => ?_,
    fun position concluded granted prepared hread hacc hgran hpre => ?_, hlis,
    fun position prepared hread => ?_⟩
  · obtain ⟨attempt, hget⟩ := h.prepared first a ha
    obtain ⟨other, hoth⟩ := h.prepared second b hb
    have hfst := (ha.sequenceAt hlen).unique (h.attempt _ attempt hget).prepared
    have hsnd := (hb.sequenceAt hlen).unique (h.attempt _ other hoth).prepared
    subst hfst hsnd
    exact sequenceAt_inj (ha.lt.trans_le hlen) (hb.lt.trans_le hlen)
      (h.distinct _ _ attempt other hget hoth hop hpr)
  · obtain ⟨attempt, hget, hsome⟩ := h.granted position granted hread
    have hatt := h.attempt _ attempt hget
    obtain ⟨hlt, hsays⟩ := hatt.granted _ hsome
    have hat := toNat_sequenceAt (hread.lt.trans_le hlen)
    rw [hat] at hsays
    rw [UInt64.lt_iff_toNat_lt, hat] at hlt
    exact ⟨hlt, _, hatt.prepared, congrArg (·.operation) (hread.unique hsays).symm⟩
  · obtain ⟨attempt, hget, hsome⟩ := h.granted first a ha
    obtain ⟨other, hoth, hsome'⟩ := h.granted second b hb
    rw [hsame, hoth] at hget
    cases hget
    exact sequenceAt_inj (ha.lt.trans_le hlen) (hb.lt.trans_le hlen)
      (Option.some.inj (hsome.symm.trans hsome'))
  · obtain ⟨key, attempt, result, hget, hres, hgra, hop, hclas, -, -, hlt⟩ :=
      h.conclusion hlen hread
    have hatt := h.attempt key attempt hget
    obtain ⟨_, -, -, -, hkind, -⟩ := hatt.concluded result hres
    refine ⟨hlt, ?_, _, (hatt.granted _ hgra).2, hop.symm⟩
    rw [hop, hclas]
    exact hkind
  · obtain ⟨key, attempt, result, hget, hres, hgra, -, -, -, hseq, -⟩ := h.conclusion hlen ha
    obtain ⟨other, found, result', hoth, hres', hgra', -, -, -, hseq', -⟩ := h.conclusion hlen hb
    rw [hsame] at hgra
    cases h.same_grant hget hoth hgra hgra'
    cases hget.symm.trans hoth
    cases hres.symm.trans hres'
    exact sequenceAt_inj (ha.lt.trans_le hlen) (hb.lt.trans_le hlen) (hseq.symm.trans hseq')
  · obtain ⟨key, attempt, result, hget, hres, hgra, hop, hclas, hobs, -, -⟩ :=
      h.conclusion hlen hread
    have hatt := h.attempt key attempt hget
    cases hgran.unique (hatt.granted _ hgra).2
    cases hpre.unique hatt.prepared
    obtain ⟨_, -, -, -, hkind, hexp⟩ := hatt.concluded result hres
    rw [hclas] at hacc
    have hsame := hatt.kind
    rw [hacc] at hkind
    replace hobs := hobs.trans (hexp hacc)
    unfold RecoveredAttempt.expectedPlaceOrderId at hobs
    show ∃ expected, attempt.orderIdentity = .place expected ∧ _
    revert hkind hsame hobs
    cases attempt.operation <;> cases attempt.orderIdentity
    · exact fun _ _ hobs => ⟨_, rfl, hobs⟩
    · exact fun _ hsame => hsame.elim
    · exact False.elim
    · exact False.elim
  · obtain ⟨hung, hunr, hcla⟩ := hlis position prepared hread
    have hgraOf : Concluded records position → ∃ granted, GrantedAt records position granted :=
      fun ⟨granted, _, _, hgra, _⟩ => ⟨granted, hgra⟩
    tauto

end

end

/-! ### A whole journal -/

section

variable [AuthenticatedDigest]

theorem replayed_of_recoverFrom {scope : PmAuthenticatedJournalScopeV1}
    {lines : List PmAuthenticatedJournalLineV1} {s : PmAuthenticatedJournalRecovery}
    (h : recoverFrom (.empty scope) 0 lines = .ok s) :
    Replayed scope (lines.map (·.record)) s :=
  accepted_of_readLines nextSequence_eq_ok .start (Nat.two_pow_pos 64) h

variable (lines : List PmAuthenticatedJournalLineV1) (scope : PmAuthenticatedJournalScopeV1)

/-- Recovery aborts on no journal. -/
theorem recoverLines_ne_panic : recoverLines lines scope ≠ .panic := by
  refine bind_ne_panic ?_ fun s hrec => ?_
  · refine readLines_ne_panic nextSequence_eq_ok
      (fun _ _ _ => by simp [checkLine, bind_eq_panic])
      (fun _ => wrapError_ne_panic) (fun records s h record sequence => ?_) .start
      (Nat.two_pow_pos 64)
    exact bind_ne_panic (applyRecord_ne_panic (inv_of_replayed h) record sequence)
      fun _ _ => ne_panic_of_ok rfl
  · have hinv := inv_of_replayed (replayed_of_recoverFrom hrec)
    refine bind_ne_panic refuse_ne_panic fun _ _ => ?_
    refine bind_ne_panic (mapM_ne_panic fun attempt hmem => ?_) fun _ _ => ne_panic_of_ok rfl
    obtain ⟨key, hget⟩ := mem_valueList.mp hmem
    rcases projectUnresolvedAttempt_cases (hinv.attempt key attempt hget).kind with
      ⟨hpro, -⟩ | ⟨_, hpro, -⟩ <;> exact ne_panic_of_ok hpro

/-- **The life of an authenticated attempt**: recovery aborts on no journal, and in every journal
that it accepts an attempt is prepared once, granted at most once and concluded at most once, in
this order, and is in exactly one of the three lists. -/
theorem attempts_linear :
    recoverLines lines scope ≠ .panic ∧ ∀ s, recoverLines lines scope = .ok s →
      Linear (lines.map (·.record)) s := by
  refine ⟨recoverLines_ne_panic lines scope, fun final hfin => ?_⟩
  obtain ⟨s, hrec, hfin⟩ := bind_eq_ok.mp hfin
  obtain ⟨_, -, hreb⟩ := bind_eq_ok.mp hfin
  have hrep := replayed_of_recoverFrom hrec
  exact (inv_of_replayed hrep).linear hrep.length_le hreb

end

end PmAuthenticatedJournalRecovery

/-! ### A sample journal -/

namespace AuthenticatedSample

/-- Digests that are never compared with anything else. -/
instance digest : AuthenticatedDigest where
  scope _ := ⟨7⟩
  placeRequest _ _ _ := ⟨8⟩
  cancelRequest _ _ _ := ⟨8⟩

def scope : PmAuthenticatedJournalScopeV1 where
  product := "reap-pm"
  schemaFamily := pmAuthenticatedJournalFamily
  schemaVersion := pmAuthenticatedJournalVersion
  accountScope := Samples.accountScope
  configuredInstrument := ⟨Samples.condition, Samples.token⟩
  configurationFingerprint := ⟨7⟩
  credentialSlotFingerprint := ⟨7⟩
  productionOrderEntryAuthorized := false
  accountSignatureProfile := .eoaType0
  scopeFingerprint := ⟨7⟩

def operation : PmAuthenticatedOperationKeyV1 := .place ⟨⟨⟨0⟩, .one⟩, scope.instrument⟩

/-- A placement is prepared, granted and accepted. -/
def records : List PmAuthenticatedJournalRecordV1 :=
  [.header scope,
    .placePrepared {
      operation := operation
      priorIntentSequence := 1
      semanticRequestCommitment := ⟨7⟩
      expectedOrderId := ⟨9⟩
      l2TimestampSeconds := minL2Timestamp
      requestCommitment := ⟨8⟩ },
    .dispatchAuthorized ⟨operation, 1⟩,
    .placeResult ⟨operation, 2, .accepted, some ⟨9⟩⟩]

def lines : List PmAuthenticatedJournalLineV1 :=
  records.mapIdx fun position record =>
    ⟨scope.schemaVersion, scope.fingerprint, sequenceAt position, record⟩

end AuthenticatedSample

open AuthenticatedSample

theorem attempts_linear_of_accepted : ∃ s, recoverLines lines scope = .ok s ∧
    PmAuthenticatedJournalRecovery.Linear (lines.map (·.record)) s := by
  have hrun : (recoverLines lines scope).okWith (fun _ => true) = true := by decide +kernel
  obtain ⟨s, hrec, -⟩ := okWith_eq_true.mp hrun
  exact ⟨s, hrec, (PmAuthenticatedJournalRecovery.attempts_linear lines scope).2 s hrec⟩

end Reap.Authenticated
