import Reap.Authenticated.Gate
import Reap.Authenticated.Linear
import Reap.Journal.Provenance

/-!
# The results of an accepted authenticated journal

Every result that recovery lists comes from three records that were validated where they stand. So
its identities and sequence numbers fit together, and the bridge that the restart gate makes of it
is one that the mutation journal accepts by its shape.

## What is proved

* `wellFormed_of_recoverLines` — the results of every accepted journal are well formed.
* `classified_unique`, `classified_unique_prior` — a result is found by its sequence number, and by
  its operation and the intent that it was made for.
* `bridgeFromRecovered_eq`, `validate_bridgeOf` — the bridge of a well-formed result.
-/

namespace Reap.Authenticated

open Base Reap.Core Reap.Journal PmAuthenticatedRecoveredResultV1 Option
open PmAuthenticatedOperationKeyV1

/-! ### Well-formed results -/

/-- The identity that was observed is the one that the classification asks for. -/
def ShapeValid (scope : PmAuthenticatedJournalScopeV1)
    (orderId : PmAuthenticatedCommitmentV1) (observed : Option PmAuthenticatedCommitmentV1) :
    PmAuthenticatedOperationKeyV1 → PmAuthenticatedRecoveredResultClassificationV1 → Prop
  | .place _, .place kind =>
    (kind = .accepted → observed = some orderId) ∧
    (kind = .rejected ∨ kind = .definitelyNotDispatched → observed = none)
  | .cancel _ venue, .cancel kind =>
    venue.account = scope.account ∧ exactOrderBytes venue = some orderId.bytes ∧
    (kind = .accepted ∨ kind = .rejected → observed = some orderId) ∧
    (kind = .definitelyNotDispatched → observed = none)
  | _, _ => False

/-- What holds of a result by the checks of its three records. -/
structure WellFormed (scope : PmAuthenticatedJournalScopeV1)
    (result : PmAuthenticatedRecoveredResultV1) : Prop where
  account : result.clientOrder.account = scope.account
  instrument : result.instrument = scope.instrument
  prior : result.priorGoalFSequence ≠ 0
  prepared : result.preparedJournalSequence ≠ 0
  granted : result.preparedJournalSequence < result.grantJournalSequence
  concluded : result.grantJournalSequence < result.resultJournalSequence
  shape : ShapeValid scope result.expectedOrExactOrderId result.observedOrderId result.operation
    result.classification

variable {scope : PmAuthenticatedJournalScopeV1} {result : PmAuthenticatedRecoveredResultV1}

theorem prior_ne_zero {prior timestamp : UInt64}
    (h : validatePriorAndTimestamp prior timestamp = .ok ()) : prior ≠ 0 := by
  obtain ⟨_, hpr, -⟩ := bind_eq_ok.mp h
  exact refuse_eq_ok.mp hpr

namespace PmAuthenticatedJournalRecovery

open OrderedMap PmAuthenticatedJournalRecordV1

/-! ### The list of results -/

section

variable {records : List PmAuthenticatedJournalRecordV1}
  {s final : PmAuthenticatedJournalRecovery}

theorem projectClassifiedResult_iff {attempt : RecoveredAttempt} :
    projectClassifiedResult attempt = some result ↔
      ∃ granted, attempt.grantSequence = some granted ∧ ∃ concluded, attempt.result = some concluded ∧
        result = ⟨attempt.operation, attempt.priorSequence, attempt.preparedSequence, granted,
          concluded.journalSequence, attempt.requestCommitment, attempt.orderIdentity.orderId,
          concluded.observedOrderId, concluded.classification⟩ := by
  simp [projectClassifiedResult, bind_eq_some_iff, @eq_comm _ result]

/-- The results that are listed at the end. -/
theorem mem_classifiedResults (hrebuilt : s.rebuildProjections = .ok final) :
    result ∈ final.classifiedResults ↔ ∃ (key : UInt64) (attempt : RecoveredAttempt),
      s.attempts[key]? = some attempt ∧ projectClassifiedResult attempt = some result := by
  obtain ⟨unresolved, -, hfin⟩ := Outcome.bind_eq_ok.mp hrebuilt
  cases hfin
  rw [List.mem_mergeSort, List.mem_filterMap]
  constructor
  · rintro ⟨attempt, hmem, hres⟩
    obtain ⟨key, hget⟩ := mem_valueList.mp hmem
    exact ⟨key, attempt, hget, hres⟩
  · rintro ⟨key, attempt, hget, hres⟩
    exact ⟨attempt, mem_valueList.mpr ⟨key, hget⟩, hres⟩

/-- No result is listed twice. -/
theorem Inv.classified_nodup (h : Inv records s)
    (hrebuilt : s.rebuildProjections = .ok final) : final.classifiedResults.Nodup := by
  obtain ⟨unresolved, -, hfin⟩ := Outcome.bind_eq_ok.mp hrebuilt
  cases hfin
  have hkeys : s.attempts.valueList.Pairwise fun a b =>
      a.preparedSequence ≠ b.preparedSequence :=
    pairwise_valueList fun key attempt hget => (h.attempt key attempt hget).kept
  refine (List.mergeSort_perm _ _).nodup_iff.mpr (List.pairwise_filterMap.mpr (hkeys.imp ?_))
  rintro a b hne first hfirst second hsecond rfl
  obtain ⟨_, -, _, -, hfirst⟩ := projectClassifiedResult_iff.mp hfirst
  obtain ⟨_, -, _, -, hsecond⟩ := projectClassifiedResult_iff.mp hsecond
  exact hne (congrArg preparedJournalSequence (hfirst.symm.trans hsecond))

variable (h : Inv records s) (hrebuilt : s.rebuildProjections = .ok final)
  {first second : PmAuthenticatedRecoveredResultV1} (hfirst : first ∈ final.classifiedResults)
  (hsecond : second ∈ final.classifiedResults)

include hrebuilt hfirst hsecond

/-- Two results that are listed for one attempt are one. -/
theorem classified_eq
    (hkey : ∀ (key other : UInt64) (a b : RecoveredAttempt), s.attempts[key]? = some a →
      s.attempts[other]? = some b → projectClassifiedResult a = some first →
      projectClassifiedResult b = some second → key = other) : first = second := by
  obtain ⟨key, a, ha, hra⟩ := (mem_classifiedResults hrebuilt).mp hfirst
  obtain ⟨other, b, hb, hrb⟩ := (mem_classifiedResults hrebuilt).mp hsecond
  cases hkey key other a b ha hb hra hrb
  cases ha.symm.trans hb
  exact some.inj (hra.symm.trans hrb)

include h

/-- Two results with one sequence number are one. -/
theorem Inv.classified_unique
    (hsame : first.resultJournalSequence = second.resultJournalSequence) : first = second := by
  refine classified_eq hrebuilt hfirst hsecond fun key other a b ha hb hra hrb => ?_
  obtain ⟨granted, -, concluded, hca, rfl⟩ := projectClassifiedResult_iff.mp hra
  obtain ⟨granted', -, concluded', hcb, rfl⟩ := projectClassifiedResult_iff.mp hrb
  obtain ⟨sequence, hsa, -, hrea, -⟩ := (h.attempt key a ha).concluded concluded hca
  obtain ⟨sequence', hsb, -, hread, -⟩ := (h.attempt other b hb).concluded concluded' hcb
  have hsame : concluded.journalSequence = concluded'.journalSequence := hsame
  rw [hsame] at hrea
  have hgra : sequence = sequence' := congrArg Conclusion.grantSequence (hrea.unique hread)
  exact h.same_grant ha hb hsa (hgra ▸ hsb)

/-- Two results of one operation for one intent are one. -/
theorem Inv.classified_unique_prior (hope : first.operation = second.operation)
    (hpr : first.priorGoalFSequence = second.priorGoalFSequence) : first = second := by
  refine classified_eq hrebuilt hfirst hsecond fun key other a b ha hb hra hrb => ?_
  obtain ⟨_, -, _, -, rfl⟩ := projectClassifiedResult_iff.mp hra
  obtain ⟨_, -, _, -, rfl⟩ := projectClassifiedResult_iff.mp hrb
  exact h.distinct key other a b ha hb hope hpr

end

/-! ### Checked records -/

section

variable [AuthenticatedDigest] {records : List PmAuthenticatedJournalRecordV1}
  {s t : PmAuthenticatedJournalRecovery} {scope : PmAuthenticatedJournalScopeV1}
  {record : PmAuthenticatedJournalRecordV1} {sequence : UInt64}

/-- An accepted record is valid, and leaves the scope. -/
theorem applyRecord_valid (h : s.applyRecord record sequence = .ok t) :
    record.validate s.scope sequence = .ok () ∧ t.scope = s.scope := by
  obtain ⟨_, hval, h⟩ := Outcome.bind_eq_ok.mp h
  refine ⟨Outcome.wrapError_eq_ok.mp hval, ?_⟩
  split_ifs at h <;> cases record <;>
    simp only [applyPlacePrepared, applyCancelPrepared, insertPrepared, applyGrant,
      applyPlaceResult, applyCancelResult, setResult, Outcome.bind_eq_ok, Outcome.return_eq_ok,
      reduceCtorEq] at h <;> grind

/-- Every record of an accepted journal is valid where it stands. -/
def ValidRecords (scope : PmAuthenticatedJournalScopeV1)
    (records : List PmAuthenticatedJournalRecordV1) : Prop :=
  ∀ (position : ℕ) (record : PmAuthenticatedJournalRecordV1), records[position]? = some record →
    record.validate scope (sequenceAt position) = .ok ()

theorem valid_of_replayed (h : Replayed scope records s) :
    s.scope = scope ∧ ValidRecords scope records := by
  refine h.invariant (P := fun records s => s.scope = scope ∧
    ValidRecords scope records) ⟨rfl, nofun⟩ fun records record s t hold _ hnext => ?_
  obtain ⟨applied, happ, hcou⟩ := Outcome.bind_eq_ok.mp hnext
  cases hcou
  obtain ⟨hsc, hval⟩ := hold
  obtain ⟨hrec, hsame⟩ := applyRecord_valid happ
  refine ⟨hsame.trans hsc, fun position found hget => ?_⟩
  rcases getElem?_append_single.mp hget with hget | ⟨rfl, rfl⟩
  · exact hval position found hget
  · rwa [hsc] at hrec

/-- What is read at a sequence number was validated under it. -/
theorem ValidRecords.under {α : Type} {view : PmAuthenticatedJournalRecordV1 → Option α} {what : α}
    (h : ValidRecords scope records) (hread : ReadsAt view records sequence.toNat what) :
    ∃ record, view record = some what ∧ record.validate scope sequence = .ok () := by
  obtain ⟨record, hget, hview⟩ := hread
  exact ⟨record, hview, sequenceAt_toNat sequence ▸ h _ record hget⟩

/-- What is checked of a preparation. -/
theorem valid_preparation {prepared : Preparation} (hread : preparation record = some prepared)
    (hval : record.validate scope sequence = .ok ()) :
    sequence ≠ 0 ∧ prepared.priorSequence ≠ 0 ∧ prepared.operation.validate scope = .ok () ∧
      ∀ coordinator venue, prepared.operation = .cancel coordinator venue →
        exactOrderBytes venue = some prepared.orderIdentity.orderId.bytes := by
  cases record with
  | placePrepared =>
    cases hread
    obtain ⟨_, hzero, hval⟩ := bind_eq_ok.mp hval
    obtain ⟨_, hope, hval⟩ := bind_eq_ok.mp hval
    obtain ⟨_, hpl, hval⟩ := bind_eq_ok.mp hval
    obtain ⟨_, hpr, -⟩ := bind_eq_ok.mp hval
    obtain ⟨coordinator, hop⟩ := place_of_venueOrder (refuse_eq_ok.mp hpl)
    refine ⟨refuse_eq_ok.mp hzero, prior_ne_zero hpr, hope, fun other venue he => ?_⟩
    cases hop.symm.trans he
  | cancelPrepared cancel =>
    cases hread
    obtain ⟨_, hzero, hval⟩ := bind_eq_ok.mp hval
    obtain ⟨_, hope, hval⟩ := bind_eq_ok.mp hval
    cases hop : cancel.operation with
    | place =>
      rw [hop] at hval
      cases hval
    | cancel =>
      simp only [hop, bind_eq_ok, refuse_eq_ok, exists_const, ne_eq, not_not] at hval
      obtain ⟨_, hpr, hfix, -⟩ := hval
      refine ⟨refuse_eq_ok.mp hzero, prior_ne_zero hpr, hop ▸ hope, ?_⟩
      rintro _ _ ⟨⟩
      obtain ⟨bytes, hbyt, he⟩ := map_eq_some_iff.mp hfix
      rw [hbyt]
      exact congrArg (fun id : PmAuthenticatedCommitmentV1 => some id.bytes) he
  | _ => cases hread

/-- What is checked of a conclusion. -/
theorem valid_conclusion {concluded : Conclusion} {orderId : PmAuthenticatedCommitmentV1}
    (hread : conclusion record = some concluded) (hval : record.validate scope sequence = .ok ())
    (hkind : ClassifiesKind concluded.operation concluded.classification)
    (hexa : ∀ coordinator venue, concluded.operation = .cancel coordinator venue →
      venue.account = scope.account ∧ exactOrderBytes venue = some orderId.bytes)
    (hacc : concluded.classification = .place .accepted →
      concluded.observedOrderId = some orderId) :
    ShapeValid scope orderId concluded.observedOrderId concluded.operation
      concluded.classification := by
  cases record with
  | placeResult =>
    cases hread
    obtain ⟨_, -, hval⟩ := bind_eq_ok.mp hval
    obtain ⟨_, hpl, hval⟩ := bind_eq_ok.mp hval
    obtain ⟨_, -, hsha⟩ := bind_eq_ok.mp hval
    obtain ⟨coordinator, hop⟩ := place_of_venueOrder (refuse_eq_ok.mp hpl)
    simp only [hop]
    refine ⟨fun he => hacc (congrArg _ he), fun hnot => ?_⟩
    rcases hnot with he | he <;> simpa [PmAuthenticatedPlaceResultV1.shapeValid, he] using hsha
  | cancelResult result =>
    cases hread
    obtain ⟨_, -, hval⟩ := bind_eq_ok.mp hval
    cases hop : result.operation with
    | place =>
      rw [hop] at hval
      cases hval
    | cancel coordinator venue =>
      simp only [hop] at hval
      obtain ⟨_, -, hsha⟩ := bind_eq_ok.mp hval
      obtain ⟨hacco, hbyt⟩ := hexa coordinator venue hop
      have hdec : decodePrefixedHex32 venue = some orderId := by
        rw [decodePrefixedHex32, hbyt]
        rfl
      refine ⟨hacco, hbyt, fun hor => ?_, fun hnot => ?_⟩
      · rcases hor with he | he <;>
          simpa [PmAuthenticatedCancelResultV1.shapeValid, he, hdec] using hsha
      · simpa [PmAuthenticatedCancelResultV1.shapeValid, hnot] using hsha
  | _ => cases hread

/-- **The result of an attempt** is well formed. -/
theorem Inv.wellFormed (h : Inv records s) (hval : ValidRecords scope records)
    {key : UInt64} {attempt : RecoveredAttempt} (hget : s.attempts[key]? = some attempt)
    (hres : projectClassifiedResult attempt = some result) : WellFormed scope result := by
  obtain ⟨granted, hgra, concluded, hcon, rfl⟩ := projectClassifiedResult_iff.mp hres
  have hatt := h.attempt key attempt hget
  obtain ⟨prepared, hpre, hvalPre⟩ := hval.under hatt.prepared
  obtain ⟨hzero, hpr, hope, hexa⟩ := valid_preparation hpre hvalPre
  obtain ⟨_, hcoo, hven⟩ := bind_eq_ok.mp hope
  have hcoo := refuse_eq_ok.mp hcoo
  have hven := refuse_eq_ok.mp hven
  push Not at hcoo hven
  obtain ⟨sequence, hseq, hlt, hread, hkind, hacc⟩ := hatt.concluded concluded hcon
  cases hgra.symm.trans hseq
  obtain ⟨record, hrec, hvalRec⟩ := hval.under hread
  refine ⟨hcoo.1, hcoo.2, hpr, hatt.kept ▸ hzero, hatt.kept ▸ (hatt.granted granted hgra).1,
    hlt, ?_⟩
  refine valid_conclusion hrec hvalRec hkind (fun coordinator venue hop => ?_) fun hcla => ?_
  · exact ⟨hven venue (congrArg venueOrder hop),
      hexa coordinator venue hop⟩
  · have hcla : concluded.classification = .place .accepted := hcla
    refine (hacc hcla).trans ?_
    have hpl := hatt.kind
    unfold RecoveredAttempt.expectedPlaceOrderId
    cases hid : attempt.orderIdentity with
    | place => rfl
    | cancel =>
      rw [hcla] at hkind
      rw [hid] at hpl
      cases hop : attempt.operation <;> rw [hop] at hkind hpl
      · exact hpl.elim
      · exact hkind.elim

/-- What the results of an accepted journal are. -/
structure Classified (s : PmAuthenticatedJournalRecovery) : Prop where
  nodup : s.classifiedResults.Nodup
  wellFormed : ∀ result ∈ s.classifiedResults, WellFormed s.scope result
  unique : ∀ first ∈ s.classifiedResults, ∀ second ∈ s.classifiedResults,
    first.resultJournalSequence = second.resultJournalSequence → first = second
  unique_prior : ∀ first ∈ s.classifiedResults, ∀ second ∈ s.classifiedResults,
    first.operation = second.operation → first.priorGoalFSequence = second.priorGoalFSequence →
    first = second

/-- **The results of every accepted journal.** -/
theorem classified_of_recoverLines {lines : List PmAuthenticatedJournalLineV1}
    (h : recoverLines lines scope = .ok s) : Classified s := by
  obtain ⟨raw, hraw, h⟩ := Outcome.bind_eq_ok.mp h
  obtain ⟨_, -, hrebuilt⟩ := Outcome.bind_eq_ok.mp h
  have hrep := replayed_of_recoverFrom hraw
  have hinv := inv_of_replayed hrep
  obtain ⟨hsc, hval⟩ := valid_of_replayed hrep
  have hsame : s.scope = scope := by
    obtain ⟨unresolved, -, hfin⟩ := Outcome.bind_eq_ok.mp hrebuilt
    cases hfin
    exact hsc
  refine ⟨hinv.classified_nodup hrebuilt, fun result hmem => ?_,
    fun first hfirst second hsecond => ?_, fun first hfirst second hsecond => ?_⟩
  · obtain ⟨key, attempt, hget, hres⟩ := (mem_classifiedResults hrebuilt).mp hmem
    exact hsame ▸ hinv.wellFormed hval hget hres
  · exact hinv.classified_unique hrebuilt hfirst hsecond
  · exact hinv.classified_unique_prior hrebuilt hfirst hsecond

end

end PmAuthenticatedJournalRecovery

/-! ### The bridge of a result -/

/-- The bridge of a result. -/
def bridgeOf (result : PmAuthenticatedRecoveredResultV1) : PmJournalAuthenticatedResultV1 :=
  match result.operation with
  | .place _ => .place (placeBridge result result.expectedOrExactOrderId
      (if recoveredClassification result.classification = .accepted then
        PmJournalRecovery.exactExpectedVenueOrder result.clientOrder
          result.expectedOrExactOrderId.fingerprint
      else none))
  | .cancel _ venue => .cancel (cancelBridge result venue result.expectedOrExactOrderId)

section

variable (client : PmClientOrderKey) (classification : PmJournalAuthenticatedClassificationV1)

@[simp] theorem clientOrder_canonicalPlace (venue : Option PmVenueOrderKey) :
    (canonicalPlace client venue classification).clientOrder = client := by
  cases classification <;> rfl

variable (venue : PmVenueOrderKey)

@[simp] theorem clientOrder_canonicalCancel :
    (canonicalCancel client venue classification).clientOrder = client := by
  cases classification <;> rfl

@[simp] theorem venueOrder_canonicalCancel :
    (canonicalCancel client venue classification).venueOrder = venue := by
  cases classification <;> rfl

end

@[simp] theorem authResultSequence_bridgeOf (result : PmAuthenticatedRecoveredResultV1) :
    (bridgeOf result).authResultSequence = result.resultJournalSequence := by
  unfold bridgeOf
  split <;> rfl

/-- A bridge matches the result it is made of. -/
theorem bridgeMatchesRecovery_bridgeOf (result : PmAuthenticatedRecoveredResultV1) :
    bridgeMatchesRecovery (bridgeOf result) result = true := by
  unfold bridgeOf
  split <;> rename_i hop
  · simp [bridgeMatchesRecovery, placeBridge, hop, kind,
      expectedPlaceOrderId]
  · simp [bridgeMatchesRecovery, cancelBridge, hop, kind,
      exactCancelOrderId, exactCancelVenueOrder, venueOrder]

section

variable (h : WellFormed scope result)

include h

theorem validateSequenceChain_of_wellFormed :
    validateSequenceChain result.preparedJournalSequence result.grantJournalSequence
      result.resultJournalSequence result.priorGoalFSequence = .ok () := by
  refine refuse_eq_ok.mpr (not_or.mpr ⟨h.prior, not_or.mpr ⟨h.prepared, not_or.mpr ⟨?_, ?_⟩⟩⟩)
  · exact UInt64.not_le.mpr h.granted
  · exact UInt64.not_le.mpr h.concluded

variable {coordinator : PmAuthenticatedCoordinatorIdentityV1}

/-- The bridge of a placement has the shape that its classification asks for. -/
theorem validateShape_placeBridge (hop : result.operation = .place coordinator)
    {venue : Option PmVenueOrderKey}
    (hven : recoveredClassification result.classification = .accepted →
      venue.bind exactOrderBytes = some result.expectedOrExactOrderId.bytes)
    : (placeBridge result result.expectedOrExactOrderId venue).validateShape = .ok () := by
  refine bind_eq_ok.mpr ⟨(), validateSequenceChain_of_wellFormed h, refuse_eq_ok.mpr ?_⟩
  have hsha := h.shape
  rw [hop] at hsha
  have hobs : result.observedPlaceOrderId = result.observedOrderId := by
    unfold observedPlaceOrderId
    rw [hop]
  cases hcla : result.classification with
  | cancel =>
    rw [hcla] at hsha
    exact hsha.elim
  | place kind =>
    rw [hcla] at hsha hven
    obtain ⟨hacc, hrej⟩ := hsha
    cases kind <;> simp_all [placeBridge, recoveredClassification, canonicalPlace, rejectedPlace,
      PmJournalAuthenticatedPlaceResultV1.classified, PmAuthenticatedCommitmentV1.fingerprint]

/-- The bridge of a cancel has the shape that its classification asks for. -/
theorem validateShape_cancelBridge {venue : PmVenueOrderKey}
    (hop : result.operation = .cancel coordinator venue) :
    (cancelBridge result venue result.expectedOrExactOrderId).validateShape = .ok () := by
  have hsha := h.shape
  rw [hop] at hsha
  have hobs : result.observedCancelOrderId = result.observedOrderId := by
    unfold observedCancelOrderId
    rw [hop]
  cases hcla : result.classification with
  | place =>
    rw [hcla] at hsha
    exact hsha.elim
  | cancel kind =>
    rw [hcla] at hsha
    obtain ⟨-, hbyt, hsent, huns⟩ := hsha
    refine bind_eq_ok.mpr ⟨(), validateSequenceChain_of_wellFormed h,
      bind_eq_ok.mpr ⟨(), refuse_eq_ok.mpr (not_not.mpr ?_), refuse_eq_ok.mpr ?_⟩⟩
    · rw [cancelBridge, venueOrder_canonicalCancel]
      exact hbyt
    · cases kind <;> simp_all [cancelBridge, recoveredClassification, canonicalCancel,
        rejectedCancel, PmJournalAuthenticatedCancelResultV1.classified]

omit h in
/-- The venue order that a placement is bridged with, where it was accepted. -/
theorem exactOrderBytes_accepted (result : PmAuthenticatedRecoveredResultV1)
    (h : recoveredClassification result.classification = .accepted) :
    (if recoveredClassification result.classification = .accepted then
      PmJournalRecovery.exactExpectedVenueOrder result.clientOrder
        result.expectedOrExactOrderId.fingerprint else none).bind exactOrderBytes =
      some result.expectedOrExactOrderId.bytes := by
  obtain ⟨venue, hven, -, hbyt⟩ := exists_exactExpectedVenueOrder result.clientOrder
    result.expectedOrExactOrderId.fingerprint
  rw [if_pos h, hven]
  exact hbyt

/-- **The bridge of a well-formed result** is made. -/
theorem bridgeFromRecovered_eq : bridgeFromRecovered result = .ok (bridgeOf result) := by
  unfold bridgeFromRecovered bridgeOf
  cases hop : result.operation with
  | place =>
    refine Outcome.bind_eq_ok.mpr ⟨result.expectedOrExactOrderId, ?_, ?_⟩
    · unfold expectedPlaceOrderId
      rw [hop]
      rfl
    refine Outcome.bind_eq_ok.mpr ⟨_, ?_, Outcome.bind_eq_ok.mpr ⟨(), Outcome.wrapError_eq_ok.mpr
      (validateShape_placeBridge h hop (exactOrderBytes_accepted result)), rfl⟩⟩
    unfold acceptedVenueOrder
    split_ifs with hacc
    · obtain ⟨venue, hven, -⟩ := exists_exactExpectedVenueOrder result.clientOrder
        result.expectedOrExactOrderId.fingerprint
      rw [hven]
      rfl
    · rfl
  | cancel _ venue =>
    refine Outcome.bind_eq_ok.mpr ⟨venue, ?_, Outcome.bind_eq_ok.mpr
      ⟨result.expectedOrExactOrderId, ?_, Outcome.bind_eq_ok.mpr ⟨(), Outcome.wrapError_eq_ok.mpr
        (validateShape_cancelBridge h hop), rfl⟩⟩⟩
    · unfold exactCancelVenueOrder
      rw [hop]
      rfl
    · unfold exactCancelOrderId
      rw [hop]
      rfl

/-- **The bridge of a well-formed result** is valid in the mutation journal of the same account and
instrument. -/
theorem validate_bridgeOf {journal : PmJournalScopeV1} (hacc : journal.account = scope.account)
    (hins : journal.instrument = scope.instrument) :
    (bridgeOf result).validate journal = .ok () := by
  have hcl : result.clientOrder.account = journal.account := h.account.trans hacc.symm
  have hsame : result.instrument = journal.instrument := h.instrument.trans hins.symm
  unfold bridgeOf
  cases hop : result.operation with
  | place =>
    refine bind_eq_ok.mpr ⟨(), ?_, bind_eq_ok.mpr ⟨(), refuse_eq_ok.mpr (not_not.mpr hsame),
      validateShape_placeBridge h hop (exactOrderBytes_accepted result)⟩⟩
    obtain ⟨venue, hven, hkept, -⟩ := exists_exactExpectedVenueOrder result.clientOrder
      result.expectedOrExactOrderId.fingerprint
    unfold placeBridge
    rw [hven]
    cases recoveredClassification result.classification <;>
      simp [canonicalPlace, PmJournalPlaceResultV1.validate, PmJournalImmediateFillsV1.validate,
        PmJournalPlaceResultV1.fieldsMatch, hcl, hkept, refuse, bind_eq_ok]
  | cancel _ venue =>
    refine bind_eq_ok.mpr ⟨(), ?_, bind_eq_ok.mpr ⟨(), refuse_eq_ok.mpr (not_not.mpr hsame),
      validateShape_cancelBridge h hop⟩⟩
    have hven : venue.account = journal.account := by
      have hsha := h.shape
      rw [hop] at hsha
      cases hcla : result.classification <;> rw [hcla] at hsha
      · exact hsha.elim
      · exact hsha.1.trans hacc.symm
    unfold cancelBridge
    cases recoveredClassification result.classification <;>
      simp [canonicalCancel, PmJournalCancelResultV1.validate, validateOrderKeys, hcl, hven,
        refuse, bind_eq_ok]

end

end Reap.Authenticated
