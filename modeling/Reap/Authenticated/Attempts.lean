import Reap.Authenticated.Recovery

/-!
# The life of an authenticated attempt

The records of the journal name each other by sequence number, and recovery joins them in two maps.
This module says what an accepted journal looks like without the maps: which record prepares, which
one grants, which one concludes, and that each follows the one it names.

## What is proved

* `inv_of_replayed` — after every sequence of accepted records the maps hold exactly what the
  records say (`Inv`).
* `applyRecord_ne_panic` — so the `expect` is not reached.
-/

namespace Reap.Authenticated

open Base Reap.Core Outcome Option

/-! ### What a record says -/

/-- What a prepared record asks for. -/
structure Preparation where
  operation : PmAuthenticatedOperationKeyV1
  priorSequence : UInt64
  requestCommitment : PmAuthenticatedCommitmentV1
  orderIdentity : RecoveredOrderIdentity
  deriving DecidableEq

/-- What a result record says. -/
structure Conclusion where
  operation : PmAuthenticatedOperationKeyV1
  grantSequence : UInt64
  classification : PmAuthenticatedRecoveredResultClassificationV1
  observedOrderId : Option PmAuthenticatedCommitmentV1
  deriving DecidableEq

namespace PmAuthenticatedJournalRecordV1

/-- The preparation of a prepared record. -/
def preparation : PmAuthenticatedJournalRecordV1 → Option Preparation
  | placePrepared prepared => some ⟨prepared.operation, prepared.priorIntentSequence,
      prepared.requestCommitment, .place prepared.expectedOrderId⟩
  | cancelPrepared prepared => some ⟨prepared.operation, prepared.priorCancelSequence,
      prepared.requestCommitment, .cancel prepared.fixedOrderId⟩
  | _ => none

/-- The grant of a grant record. -/
def grant : PmAuthenticatedJournalRecordV1 → Option PmAuthenticatedDispatchAuthorizedV1
  | dispatchAuthorized grant => some grant
  | _ => none

/-- The conclusion of a result record. -/
def conclusion : PmAuthenticatedJournalRecordV1 → Option Conclusion
  | placeResult result => some ⟨result.operation, result.grantSequence, .place result.outcome,
      result.observedOrderId⟩
  | cancelResult result => some ⟨result.operation, result.grantSequence, .cancel result.outcome,
      result.observedOrderId⟩
  | _ => none

end PmAuthenticatedJournalRecordV1

open PmAuthenticatedJournalRecordV1 (preparation grant conclusion)

/-- What is read from the record at a position. -/
def ReadsAt {α : Type} (view : PmAuthenticatedJournalRecordV1 → Option α)
    (records : List PmAuthenticatedJournalRecordV1) (position : ℕ) (what : α) : Prop :=
  ∃ record, records[position]? = some record ∧ view record = some what

section

variable {α : Type} {view : PmAuthenticatedJournalRecordV1 → Option α}
  {records : List PmAuthenticatedJournalRecordV1} {record : PmAuthenticatedJournalRecordV1}
  {position : ℕ} {what other : α}

section

variable (h : ReadsAt view records position what)

include h

theorem ReadsAt.lt : position < records.length := by
  obtain ⟨_, hget, -⟩ := h
  exact (List.getElem?_eq_some_iff.mp hget).1

theorem ReadsAt.unique (h' : ReadsAt view records position other) : what = other := by
  obtain ⟨record, hget, hread⟩ := h
  obtain ⟨_, hget', hread'⟩ := h'
  cases hget.symm.trans hget'
  exact some.inj (hread.symm.trans hread')

omit h in
theorem readsAt_append : ReadsAt view (records ++ [record]) position what ↔
    ReadsAt view records position what ∨ (position = records.length ∧ view record = some what) := by
  simp only [ReadsAt, getElem?_append_single]
  constructor
  · rintro ⟨found, hget | ⟨hpos, rfl⟩, hread⟩
    · exact .inl ⟨found, hget, hread⟩
    · exact .inr ⟨hpos, hread⟩
  · rintro (⟨found, hget, hread⟩ | ⟨hpos, hread⟩)
    · exact ⟨found, .inl hget, hread⟩
    · exact ⟨record, .inr ⟨hpos, rfl⟩, hread⟩

theorem ReadsAt.append :
    ReadsAt view (records ++ [record]) position what := readsAt_append.mpr (.inl h)

omit h in
/-- A record from which nothing of a kind is read adds nothing of it. -/
theorem readsAt_append_of_none (h : view record = none) :
    ReadsAt view (records ++ [record]) position what ↔ ReadsAt view records position what := by
  rw [readsAt_append, h]
  simp

theorem ReadsAt.sequenceAt (hlen : records.length ≤ 2 ^ 64) :
    ReadsAt view records (Base.sequenceAt position).toNat what := by
  rwa [toNat_sequenceAt (h.lt.trans_le hlen)]

end

end

/-! ### The invariant -/

/-- The operation and the identity of an attempt are of one kind. -/
def SameKind : PmAuthenticatedOperationKeyV1 → RecoveredOrderIdentity → Prop
  | .place _, .place _ | .cancel _ _, .cancel _ => True
  | _, _ => False

/-- The classification is one of the operation's kind. -/
def ClassifiesKind :
    PmAuthenticatedOperationKeyV1 → PmAuthenticatedRecoveredResultClassificationV1 → Prop
  | .place _, .place _ | .cancel _ _, .cancel _ => True
  | _, _ => False

/-- The preparation that an attempt is made of. -/
def RecoveredAttempt.preparation (attempt : RecoveredAttempt) : Preparation :=
  ⟨attempt.operation, attempt.priorSequence, attempt.requestCommitment, attempt.orderIdentity⟩

/-- An attempt holds what the records say of it. -/
structure AttemptInv (records : List PmAuthenticatedJournalRecordV1) (key : UInt64)
    (attempt : RecoveredAttempt) : Prop where
  kept : attempt.preparedSequence = key
  prepared : ReadsAt preparation records key.toNat attempt.preparation
  kind : SameKind attempt.operation attempt.orderIdentity
  granted : ∀ sequence ∈ attempt.grantSequence, key < sequence ∧
    ReadsAt grant records sequence.toNat ⟨attempt.operation, key⟩
  concluded : ∀ result ∈ attempt.result, ∃ sequence, attempt.grantSequence = some sequence ∧
    sequence < result.journalSequence ∧
    ReadsAt conclusion records result.journalSequence.toNat
      ⟨attempt.operation, sequence, result.classification, result.observedOrderId⟩ ∧
    ClassifiesKind attempt.operation result.classification ∧
    (result.classification = .place .accepted →
      result.observedOrderId = attempt.expectedPlaceOrderId)

theorem AttemptInv.append {records : List PmAuthenticatedJournalRecordV1} {key : UInt64}
    {attempt : RecoveredAttempt}
    (h : AttemptInv records key attempt) (record : PmAuthenticatedJournalRecordV1) :
    AttemptInv (records ++ [record]) key attempt where
  kept := h.kept
  prepared := h.prepared.append
  kind := h.kind
  granted := fun sequence hmem => ⟨(h.granted sequence hmem).1, (h.granted sequence hmem).2.append⟩
  concluded := fun result hmem =>
    have ⟨grant, hgra, hlt, hread, hrest⟩ := h.concluded result hmem
    ⟨grant, hgra, hlt, hread.append, hrest⟩

namespace PmAuthenticatedJournalRecovery

open OrderedMap

/-- The maps hold exactly what the records say. -/
structure Inv (records : List PmAuthenticatedJournalRecordV1)
    (s : PmAuthenticatedJournalRecovery) : Prop where
  attempt : ∀ (key : UInt64) (attempt : RecoveredAttempt),
    s.attempts[key]? = some attempt → AttemptInv records key attempt
  grants : ∀ sequence key : UInt64, s.grants[sequence]? = some key ↔ ∃ attempt : RecoveredAttempt,
      s.attempts[key]? = some attempt ∧ attempt.grantSequence = some sequence
  distinct : ∀ (first second : UInt64) (a b : RecoveredAttempt),
    s.attempts[first]? = some a → s.attempts[second]? = some b →
    a.operation = b.operation → a.priorSequence = b.priorSequence → first = second
  prepared : ∀ (position : ℕ) (prepared : Preparation),
    ReadsAt preparation records position prepared →
    ∃ attempt : RecoveredAttempt, s.attempts[sequenceAt position]? = some attempt
  granted : ∀ (position : ℕ) (granted : PmAuthenticatedDispatchAuthorizedV1),
    ReadsAt grant records position granted →
    ∃ attempt : RecoveredAttempt, s.attempts[granted.preparedSequence]? = some attempt ∧
      attempt.grantSequence = some (sequenceAt position)
  concluded : ∀ (position : ℕ) (concluded : Conclusion),
    ReadsAt conclusion records position concluded →
    ∃ (key : UInt64) (attempt : RecoveredAttempt) (result : RecoveredResult),
      s.attempts[key]? = some attempt ∧
      attempt.grantSequence = some concluded.grantSequence ∧ attempt.result = some result ∧
      result.journalSequence = sequenceAt position

section

variable {records : List PmAuthenticatedJournalRecordV1}
  {s t : PmAuthenticatedJournalRecovery}

theorem inv_empty (scope : PmAuthenticatedJournalScopeV1) : Inv [] (.empty scope) := by
  have hread : ∀ {α : Type} {view : PmAuthenticatedJournalRecordV1 → Option α} {position what},
      ¬ ReadsAt view [] position what := by
    rintro α view position what ⟨_, h, -⟩
    cases h
  refine ⟨fun key attempt h => ?_, fun sequence key => ?_, fun first second a b h => ?_,
    fun _ _ h => absurd h hread, fun _ _ h => absurd h hread, fun _ _ h => absurd h hread⟩
  · cases h
  · simp [empty]
  · cases h

variable {key : UInt64} {attempt : RecoveredAttempt}

section

variable (h : Inv records s)

include h

/-- A header changes nothing. -/
theorem Inv.header (scope : PmAuthenticatedJournalScopeV1) :
    Inv (records ++ [.header scope]) s where
  attempt := fun key attempt hget => (h.attempt key attempt hget).append _
  grants := h.grants
  distinct := h.distinct
  prepared := fun position prepared hread =>
    h.prepared position prepared ((readsAt_append_of_none rfl).mp hread)
  granted := fun position granted hread =>
    h.granted position granted ((readsAt_append_of_none rfl).mp hread)
  concluded := fun position concluded hread =>
    h.concluded position concluded ((readsAt_append_of_none rfl).mp hread)

variable {record : PmAuthenticatedJournalRecordV1}

/-- **An attempt is put**: a new one, or one that has what the attempt under its key had. -/
theorem Inv.put {next : RecoveredAttempt} (hnext : AttemptInv (records ++ [record]) key next)
    (hloo : ∀ other : UInt64, t.attempts[other]? = if key = other then some next else s.attempts[other]?)
    (hgra : ∀ sequence other : UInt64, t.grants[sequence]? = some other ↔
      s.grants[sequence]? = some other ∨ other = key ∧ next.grantSequence = some sequence)
    (hold : ∀ prior : RecoveredAttempt, s.attempts[key]? = some prior →
      (∀ sequence ∈ prior.grantSequence, next.grantSequence = some sequence) ∧
      ∀ result ∈ prior.result, next.result = some result)
    (hdis : ∀ (other : UInt64) (prior : RecoveredAttempt), s.attempts[other]? = some prior →
      prior.operation = next.operation → prior.priorSequence = next.priorSequence → other = key)
    (hpre : preparation record ≠ none → key = sequenceAt records.length)
    (hgran : ∀ granted, grant record = some granted → key = granted.preparedSequence ∧
      next.grantSequence = some (sequenceAt records.length))
    (hcon : ∀ concluded, conclusion record = some concluded →
      next.grantSequence = some concluded.grantSequence ∧ ∃ result, next.result = some result ∧
      result.journalSequence = sequenceAt records.length)
    : Inv (records ++ [record]) t := by
  have hself : t.attempts[key]? = some next := (hloo key).trans (if_pos rfl)
  -- what was there is still there, with what it had
  have hkept : ∀ (other : UInt64) (prior : RecoveredAttempt), s.attempts[other]? = some prior →
      ∃ found : RecoveredAttempt, t.attempts[other]? = some found ∧
        (∀ sequence ∈ prior.grantSequence, found.grantSequence = some sequence) ∧
        ∀ result ∈ prior.result, found.result = some result := by
    intro other prior hget
    rw [hloo]
    split_ifs with he
    · exact ⟨next, rfl, hold prior (he ▸ hget)⟩
    · exact ⟨prior, hget, fun _ => id, fun _ => id⟩
  refine ⟨fun other found hget => ?_, fun sequence other => ?_,
    fun first second a b ha hb hop hpr => ?_, fun position prepared hread => ?_,
    fun position granted hread => ?_, fun position concluded hread => ?_⟩
  · rw [hloo] at hget
    split_ifs at hget with he
    · cases hget
      exact he ▸ hnext
    · exact (h.attempt other found hget).append record
  · rw [hgra, h.grants]
    constructor
    · rintro (⟨prior, hget, hsome⟩ | ⟨rfl, hsome⟩)
      · obtain ⟨found, hfou, hgrant, -⟩ := hkept other prior hget
        exact ⟨found, hfou, hgrant sequence hsome⟩
      · exact ⟨next, hself, hsome⟩
    · rintro ⟨found, hget, hsome⟩
      rw [hloo] at hget
      split_ifs at hget with he
      · cases hget
        exact .inr ⟨he.symm, hsome⟩
      · exact .inl ⟨found, hget, hsome⟩
  · refine eq_of_put (R := fun a b => a.operation = b.operation ∧ a.priorSequence = b.priorSequence)
      hloo ?_ ?_ ?_ ha hb ⟨hop, hpr⟩
    · exact fun other b hb hsame => hdis other b hb hsame.1.symm hsame.2.symm
    · exact fun other a ha hsame => hdis other a ha hsame.1 hsame.2
    · exact fun i j a b ha hb hsame => h.distinct i j a b ha hb hsame.1 hsame.2
  · rcases readsAt_append.mp hread with hread | ⟨rfl, hsome⟩
    · obtain ⟨prior, hget⟩ := h.prepared position prepared hread
      exact (hkept _ prior hget).imp fun _ hfou => hfou.1
    · exact ⟨next, hpre (hsome ▸ nofun) ▸ hself⟩
  · rcases readsAt_append.mp hread with hread | ⟨rfl, hsome⟩
    · obtain ⟨prior, hget, hgrant⟩ := h.granted position granted hread
      exact (hkept _ prior hget).imp fun _ hfou => ⟨hfou.1, hfou.2.1 _ hgrant⟩
    · obtain ⟨he, hgrant⟩ := hgran granted hsome
      exact ⟨next, he ▸ hself, hgrant⟩
  · rcases readsAt_append.mp hread with hread | ⟨rfl, hsome⟩
    · obtain ⟨other, prior, result, hget, hgrant, hres, hseq⟩ :=
        h.concluded position concluded hread
      obtain ⟨found, hfou, hgra, hresu⟩ := hkept other prior hget
      exact ⟨other, found, result, hfou, hgra _ hgrant, hresu _ hres, hseq⟩
    · obtain ⟨hgrant, result, hres, hseq⟩ := hcon concluded hsome
      exact ⟨key, next, result, hself, hgrant, hres, hseq⟩

/-- **A prepared record** adds an attempt. -/
theorem Inv.insertPrepared (hlen : records.length < 2 ^ 64)
    (hrec : preparation record = some attempt.preparation) (hgra : grant record = none)
    (hcon : conclusion record = none) (hkey : attempt.preparedSequence = sequenceAt records.length)
    (hkind : SameKind attempt.operation attempt.orderIdentity)
    (hopen : attempt.grantSequence = none ∧ attempt.result = none)
    (hacc : s.insertPrepared attempt = .ok t) : Inv (records ++ [record]) t := by
  obtain ⟨_, hnew, hcha⟩ := Outcome.bind_eq_ok.mp hacc
  cases hcha
  rw [Outcome.refuse_eq_ok] at hnew
  have hat : attempt.preparedSequence.toNat = records.length := by
    rw [hkey, toNat_sequenceAt hlen]
  have hnext : AttemptInv (records ++ [record]) attempt.preparedSequence attempt := by
    refine ⟨rfl, readsAt_append.mpr (.inr ⟨hat, hrec⟩), hkind, ?_, ?_⟩
    · rw [hopen.1]
      nofun
    · rw [hopen.2]
      nofun
  refine h.put hnext (getElem?_insert_eq s.attempts _ · attempt) (by simp [hopen.1])
    (fun prior hget => ?_) (fun other prior hget hop hpr => ?_) (fun _ => hkey)
    (by simp [hgra]) (by simp [hcon])
  · -- an attempt is kept under the sequence number of a record that is already there
    exact absurd (h.attempt _ prior hget).prepared.lt (by rw [hat]; exact lt_irrefl _)
  · refine absurd (List.any_eq_true.mpr ⟨prior, mem_valueList.mpr ⟨other, hget⟩, ?_⟩) hnew
    simp [hop, hpr]

/-- **A grant** is entered in its attempt and in the index. -/
theorem Inv.applyGrant (hlen : records.length < 2 ^ 64)
    {granted : PmAuthenticatedDispatchAuthorizedV1}
    (hlt : granted.preparedSequence < sequenceAt records.length)
    (hacc : s.applyGrant (sequenceAt records.length) granted = .ok t) :
    Inv (records ++ [.dispatchAuthorized granted]) t := by
  obtain ⟨attempt, hget, hacc⟩ := Outcome.bind_eq_ok.mp hacc
  obtain ⟨_, hchk, hcha⟩ := bind_eq_ok.mp hacc
  cases hcha
  rw [okOr_eq_ok] at hget
  rw [Outcome.refuse_eq_ok, not_or, not_not, Bool.not_eq_true, isSome_eq_false_iff,
    isNone_iff_eq_none] at hchk
  obtain ⟨hop, hopen⟩ := hchk
  have hat : (sequenceAt records.length).toNat = records.length := toNat_sequenceAt hlen
  have hatt := h.attempt _ attempt hget
  have hres : attempt.result = none := by
    refine eq_none_iff_forall_ne_some.mpr fun result hres => ?_
    obtain ⟨sequence, hgra, -⟩ := hatt.concluded result hres
    rw [hopen] at hgra
    cases hgra
  have hnone : ∀ key, s.grants[sequenceAt records.length]? ≠ some key := by
    intro key hfou
    obtain ⟨found, hfou, hsome⟩ := (h.grants _ key).mp hfou
    have hread := ((h.attempt key found hfou).granted _ hsome).2
    exact absurd hread.lt (by rw [hat]; exact lt_irrefl _)
  have hnext : AttemptInv (records ++ [.dispatchAuthorized granted]) granted.preparedSequence
      { attempt with grantSequence := some (sequenceAt records.length) } := by
    have happ := hatt.append (.dispatchAuthorized granted)
    refine ⟨happ.kept, happ.prepared, happ.kind, ?_, ?_⟩
    · rintro _ ⟨⟩
      refine ⟨hlt, readsAt_append.mpr (.inr ⟨hat, congrArg some ?_⟩)⟩
      show granted = ⟨attempt.operation, granted.preparedSequence⟩
      rw [hop]
    · rw [hres]
      nofun
  refine h.put hnext (getElem?_insert_eq s.attempts _ · _) (fun sequence other => ?_)
    (fun prior hpr => ?_) (fun other prior hoth => h.distinct other _ prior attempt hoth hget)
    (absurd rfl) ?_ nofun
  · show (s.grants.insert (sequenceAt records.length) granted.preparedSequence)[sequence]? =
      some other ↔ _
    rw [getElem?_insert_eq]
    split_ifs with he
    · subst he
      simp [hnone, eq_comm]
    · simp [he]
  · cases hget.symm.trans hpr
    rw [hopen, hres]
    exact ⟨nofun, nofun⟩
  · rintro _ ⟨⟩
    exact ⟨rfl, rfl⟩

omit h in
/-- The attempt that a result is for. -/
theorem attemptForResult_iff {sequence : UInt64} {operation : PmAuthenticatedOperationKeyV1} :
    s.attemptForResult sequence operation = .ok (key, attempt) ↔
      s.grants[sequence]? = some key ∧ s.attempts[key]? = some attempt ∧
      attempt.operation = operation ∧ attempt.grantSequence = some sequence ∧
      attempt.result = none := by
  unfold attemptForResult
  simp only [Outcome.bind_eq_ok, Outcome.okOr_eq_ok, Outcome.expect_eq_ok, Outcome.refuse_eq_ok,
    exists_const, not_or, not_not, Bool.not_eq_true, isSome_eq_false_iff,
    isNone_iff_eq_none, return_eq_ok]
  constructor
  · rintro ⟨_, hgra, _, hget, ⟨hop, hsome⟩, hnone, he⟩
    cases he
    exact ⟨hgra, hget, hop, hsome, hnone⟩
  · rintro ⟨hgra, hget, hop, hsome, hnone⟩
    exact ⟨key, hgra, attempt, hget, ⟨hop, hsome⟩, hnone, rfl⟩

/-- **A result** is entered in the attempt of its grant. -/
theorem Inv.setResult (hlen : records.length < 2 ^ 64) {sequence : UInt64}
    {classification : PmAuthenticatedRecoveredResultClassificationV1}
    {observed : Option PmAuthenticatedCommitmentV1}
    (hfou : s.attemptForResult sequence attempt.operation = .ok (key, attempt))
    (hrec : conclusion record = some ⟨attempt.operation, sequence, classification, observed⟩)
    (hpre : preparation record = none) (hgrant : grant record = none)
    (hlt : sequence < sequenceAt records.length)
    (hkind : ClassifiesKind attempt.operation classification)
    (hacc : classification = .place .accepted → observed = attempt.expectedPlaceOrderId) :
    Inv (records ++ [record]) (s.setResult key attempt
      ⟨classification, sequenceAt records.length, observed⟩) := by
  obtain ⟨hgran, hget, -, hsome, hnone⟩ := attemptForResult_iff.mp hfou
  have hnext : AttemptInv (records ++ [record]) key { attempt with
      result := some ⟨classification, sequenceAt records.length, observed⟩ } := by
    have happ := (h.attempt key attempt hget).append record
    refine ⟨happ.kept, happ.prepared, happ.kind, happ.granted, ?_⟩
    rintro _ ⟨⟩
    have hread := readsAt_append.mpr (.inr ⟨toNat_sequenceAt hlen, hrec⟩)
    exact ⟨sequence, hsome, hlt, hread, hkind, hacc⟩
  refine h.put hnext (getElem?_insert_eq s.attempts key · _) (fun granted other => ?_)
    (fun prior hpr => ?_) (fun other prior hoth => h.distinct other _ prior attempt hoth hget)
    (absurd hpre) (by simp [hgrant]) ?_
  · refine ⟨.inl, Or.rec id ?_⟩
    rintro ⟨rfl, hgra⟩
    cases hsome.symm.trans hgra
    exact hgran
  · cases hget.symm.trans hpr
    rw [hnone]
    exact ⟨fun _ => id, nofun⟩
  · rintro concluded hsays
    cases hrec.symm.trans hsays
    exact ⟨hsome, _, rfl, rfl⟩

end

end

/-! ### Runs -/

theorem place_of_venueOrder {operation : PmAuthenticatedOperationKeyV1}
    (h : ¬ operation.venueOrder.isSome = true) : ∃ coordinator, operation = .place coordinator := by
  cases operation with
  | place coordinator => exact ⟨coordinator, rfl⟩
  | cancel => exact absurd rfl h

theorem cancel_of_venueOrder {operation : PmAuthenticatedOperationKeyV1}
    (h : ¬ operation.venueOrder.isNone = true) :
    ∃ coordinator venueOrder, operation = .cancel coordinator venueOrder := by
  cases operation with
  | place => exact absurd rfl h
  | cancel coordinator venueOrder => exact ⟨coordinator, venueOrder, rfl⟩

theorem lt_of_validateBackwardLink {prior sequence : UInt64}
    (h : validateBackwardLink prior sequence = .ok ()) : prior < sequence :=
  UInt64.not_le.mp (not_or.mp (refuse_eq_ok.mp h)).2

section

variable [AuthenticatedDigest] {records : List PmAuthenticatedJournalRecordV1}
  {s t : PmAuthenticatedJournalRecovery}

/-- **An accepted record** keeps the invariant. -/
theorem inv_applyRecord (h : Inv records s) (hlen : records.length < 2 ^ 64)
    {record : PmAuthenticatedJournalRecordV1}
    (happ : s.applyRecord record (sequenceAt records.length) = .ok t) :
    Inv (records ++ [record]) t := by
  obtain ⟨_, hval, happ⟩ := bind_eq_ok.mp happ
  rw [Outcome.wrapError_eq_ok] at hval
  split_ifs at happ
  · cases record with
    | header scope =>
      obtain ⟨_, -, hcha⟩ := bind_eq_ok.mp happ
      cases hcha
      exact h.header scope
    | _ => cases happ
  cases record with
  | header => cases happ
  | placePrepared =>
    obtain ⟨_, -, hval⟩ := bind_eq_ok.mp hval
    obtain ⟨_, -, hval⟩ := bind_eq_ok.mp hval
    obtain ⟨_, hpl, -⟩ := bind_eq_ok.mp hval
    obtain ⟨coordinator, hop⟩ := place_of_venueOrder (refuse_eq_ok.mp hpl)
    refine h.insertPrepared hlen rfl rfl rfl rfl ?_ ⟨rfl, rfl⟩ happ
    rw [hop]
    trivial
  | cancelPrepared prepared =>
    obtain ⟨_, -, hval⟩ := bind_eq_ok.mp hval
    obtain ⟨_, -, hval⟩ := bind_eq_ok.mp hval
    refine h.insertPrepared hlen rfl rfl rfl rfl ?_ ⟨rfl, rfl⟩ happ
    cases hop : prepared.operation with
    | place =>
      rw [hop] at hval
      cases hval
    | cancel => trivial
  | dispatchAuthorized =>
    obtain ⟨_, -, hlink⟩ := bind_eq_ok.mp hval
    exact h.applyGrant hlen (lt_of_validateBackwardLink hlink) happ
  | placeResult result =>
    obtain ⟨_, -, hval⟩ := bind_eq_ok.mp hval
    obtain ⟨_, -, hval⟩ := bind_eq_ok.mp hval
    obtain ⟨_, hlink, -⟩ := bind_eq_ok.mp hval
    obtain ⟨⟨key, attempt⟩, hfou, happ⟩ := bind_eq_ok.mp happ
    obtain ⟨_, hkind, happ⟩ := bind_eq_ok.mp happ
    obtain ⟨_, hacc, hcha⟩ := bind_eq_ok.mp happ
    cases hcha
    have hop := (attemptForResult_iff.mp hfou).2.2.1
    obtain ⟨coordinator, hpl⟩ := place_of_venueOrder (refuse_eq_ok.mp hkind)
    rw [Outcome.refuse_eq_ok, not_and, not_not] at hacc
    refine h.setResult hlen (hop ▸ hfou) ?_ rfl rfl (lt_of_validateBackwardLink hlink) ?_ ?_
    · rw [hop]
      rfl
    · rw [hpl]
      trivial
    · intro hcla
      cases hout : result.outcome <;> rw [hout] at hcla <;> cases hcla
      exact hacc hout
  | cancelResult =>
    obtain ⟨_, -, hval⟩ := bind_eq_ok.mp hval
    obtain ⟨⟨key, attempt⟩, hfou, happ⟩ := bind_eq_ok.mp happ
    obtain ⟨_, hkind, hcha⟩ := bind_eq_ok.mp happ
    cases hcha
    have hop := (attemptForResult_iff.mp hfou).2.2.1
    obtain ⟨coordinator, venueOrder, hcan⟩ := cancel_of_venueOrder (refuse_eq_ok.mp hkind)
    rw [← hop, hcan] at hval
    obtain ⟨_, hlink, -⟩ := bind_eq_ok.mp hval
    refine h.setResult hlen (hop ▸ hfou) ?_ rfl rfl (lt_of_validateBackwardLink hlink) ?_ nofun
    · rw [hop]
      rfl
    · rw [hcan]
      trivial

/-- Recovery has accepted the records one after the other. -/
abbrev Replayed (scope : PmAuthenticatedJournalScopeV1) :
    List PmAuthenticatedJournalRecordV1 → PmAuthenticatedJournalRecovery → Prop :=
  Accepted applyCounted (.empty scope)

theorem inv_of_replayed {scope : PmAuthenticatedJournalScopeV1}
    (h : Replayed scope records s) : Inv records s := by
  refine h.invariant (inv_empty scope) fun records record s t hinv hlen hnext => ?_
  obtain ⟨applied, happ, hcou⟩ := bind_eq_ok.mp hnext
  cases hcou
  have hkept := inv_applyRecord hinv hlen happ
  exact { hkept with }

theorem applyRecord_ne_panic (h : Inv records s) (record : PmAuthenticatedJournalRecordV1)
    (sequence : UInt64) : s.applyRecord record sequence ≠ .panic := by
  have hatt : ∀ granted operation, s.attemptForResult granted operation ≠ .panic := by
    intro granted operation
    refine bind_ne_panic okOr_ne_panic fun key hkey => ?_
    obtain ⟨attempt, hget, -⟩ := (h.grants granted key).mp (okOr_eq_ok.mp hkey)
    simp [hget, bind_eq_panic]
  refine bind_ne_panic wrapError_ne_panic fun _ _ => ?_
  split_ifs
  · cases record <;> simp [bind_eq_panic]
  cases record with
  | placeResult | cancelResult => simp [applyPlaceResult, applyCancelResult, bind_eq_panic, hatt]
  | _ =>
    simp [applyPlacePrepared, applyCancelPrepared, insertPrepared, applyGrant, bind_eq_panic]

end

end PmAuthenticatedJournalRecovery

end Reap.Authenticated
