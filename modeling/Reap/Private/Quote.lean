import Reap.Private.Step

/-!
# Approved quotes

`evaluate_quote_candidate` makes two decisions: whether the account is ready, which compares what
the live orders have reserved with what the account has, and whether the quote is within the risk
limits. Both read machine numbers. `Backed` says in exact arithmetic what a quote that passes both
can rely on.

A live order that has no reservation at all is counted as reserving nothing; `Reap.Order.Exposure`
is about when there is such an order.

## What is proved

* `approved_quote_backed` — in every reachable state, an approved quote is backed, and the
  evaluation has changed nothing but counters.
-/

namespace Reap.Private

open Base Reap.Core Reap.Fill Reap.Order Reap.Owned OrderSample Act

namespace PmPrivateState

/-! ### What an approval is about -/

section

variable (s : PmPrivateState)

/-- The live canonical orders. -/
def liveOrders : List OrderEntry := s.orders.entries.filter OrderEntry.isLive

/-- The collateral that the live orders have reserved. -/
def heldCollateral : ℕ := (s.liveOrders.map OrderEntry.heldCollateral).sum

/-- The outcome tokens that the live orders have reserved. -/
def heldOutcome : ℕ := (s.liveOrders.map OrderEntry.heldOutcome).sum

/-- The fills whose fee or settlement is not resolved, and those that are not known exactly. -/
def unresolvedFillCount : ℕ :=
  (s.fills.entries.filter fun entry =>
    entry.hasUnresolvedFee || entry.hasUnresolvedSettlement).length +
    (s.unresolvedFills.entries.filter (·.isActive)).length

/-- The exposure of the account, with this inventory. -/
def exposure (inventory : ℤ) : Figures where
  inventory := inventory
  collateralAtRisk := s.heldCollateral
  reservedCollateral := s.heldCollateral
  reservedToken := s.heldOutcome
  liveOrders := s.liveOrders.length
  unresolvedOrders := s.liveOrders.countP PmOrderDecisionSummary.isUnresolved
  unresolvedFills := s.unresolvedFillCount

/-- No halt is latched. -/
structure NotHalted (s : PmPrivateState) : Prop where
  «private» : s.halt = none
  market : s.risk.marketHalt = none
  account : s.risk.accountHalt = none
  global : s.risk.globalHalt = none

/-- Nothing that the account would have to pay for is open. -/
structure Resolved (s : PmPrivateState) : Prop where
  reservations : ∀ e ∈ s.liveOrders, e.reservation ≠ some .unknown
  ownership : ∀ e ∈ s.liveOrders, e.ownership ≠ .ambiguous
  fills : ∀ entry ∈ s.unresolvedFills.entries, entry.isActive = false
  fees : ∀ entry ∈ s.fills.entries, entry.hasUnresolvedFee = false
  settlements : ∀ entry ∈ s.fills.entries, entry.hasUnresolvedSettlement = false

/-- What an approved quote can rely on, where `collateral` and `outcome` are what the account has
of the two assets. -/
structure Backed (limits : PmRiskLimits) (s : PmPrivateState) (request : PmPrivateQuoteRequest)
    (reference book : PmRiskDependency) (collateral outcome : ℤ) : Prop where
  effective : Effective s.account s.fills collateral outcome
  collateral_le : s.heldCollateral + request.reservation.collateral.value ≤ collateral
  outcome_le : s.heldOutcome + request.reservation.outcome.value ≤ outcome
  notHalted : s.NotHalted
  resolved : s.Resolved
  quantity_le : request.quantity.protocolUnits.value ≤ limits.order.maxQuantity.protocolUnits.value
  order_le : request.reservation.collateral.value ≤ limits.order.maxCollateral.value
  current : Within limits (s.exposure outcome)
  prospective : Within limits ((s.exposure outcome).with request.side request.quantity
    request.reservation.collateral.value request.reservation.outcome.value)
  fresh : ∀ row ∈ dependencyRows (s.riskDependencies reference book) limits.freshness,
    FreshWithin request.monotonicNowNs row.limitNs row.dependency

end

/-! ### The two decisions -/

section

variable {config : PmAccountConfig} {limits : PmRiskLimits} {s t : PmPrivateState}
  {request : PmPrivateQuoteRequest} {reference book : PmRiskDependency}

theorem toInt_signedPublished {published : U256} {signed : PmSignedUnits}
    (h : signedPublished published = some signed) : signed.toInt = published.value := by
  unfold signedPublished at h
  split_ifs at h with hzero
  · cases h
    rw [U256.isZero_iff.mp hzero]
    rfl
  · rw [toOption_eq_some, PmSignedUnits.fromParts, dif_neg hzero] at h
    cases h
    rfl

/-- The effective position in exact arithmetic. -/
theorem toInt_effectivePosition {inventory : PmSignedUnits} {collateral outcome : ℤ}
    (h : s.effectivePosition = some inventory)
    (heff : Effective s.account s.fills collateral outcome) : inventory.toInt = outcome := by
  obtain ⟨published, hbal, hpos, rfl⟩ := heff.outcome
  simp only [effectivePosition, hpos, Option.mem_def.mp hbal, Option.bind_eq_bind,
    Option.bind_some, ne_eq, not_true_eq_false, if_false, Option.bind_eq_some_iff,
    toOption_eq_some] at h
  obtain ⟨signed, hsig, hsum⟩ := h
  rw [← toInt_signedPublished hsig]
  exact Fill.addSigned_checked.sound hsum

theorem eq_unresolvedRiskCount (hs : Inv config limits s) {n : UInt16}
    (h : s.unresolvedRiskCount = some n) : n.toNat = s.unresolvedFillCount := by
  obtain ⟨active, hact, hcnt, -⟩ := PmUnresolvedFillState.exists_activeCount hs.unresolved
  simp only [unresolvedRiskCount, hact, Option.bind_eq_bind, Option.bind_some,
    Option.bind_eq_some_iff] at h
  obtain ⟨unresolved, hunr, h⟩ := h
  split_ifs at h with hfits
  cases h
  unfold PmFillState.unresolvedCount at hunr
  simp only at hunr
  split_ifs at hunr with hlen
  cases hunr
  rw [UInt16.toNat_add, Nat.mod_eq_of_lt hfits, hcnt, UInt16.toNat_ofNat_of_lt' hlen]
  rfl

variable {decision : PmRiskDecision}

/-- An approval of the risk limits. -/
theorem approvable_of_evaluateRiskCandidate {summary : PmOrderDecisionSummary}
    (h : evaluateRiskCandidate request reference book summary s = (.ok decision, t))
    (happ : decision.isApproved = true) : ∃ collateral outcome inventory unresolved,
      summary.reservationTotals = .ok (collateral, outcome) ∧
      s.effectivePosition = some inventory ∧ s.unresolvedRiskCount = some unresolved ∧
      Approvable s.risk ⟨request.monotonicNowNs, s.riskCandidate request,
        ⟨inventory, collateral, collateral, outcome, summary.liveCount, summary.unresolvedCount,
          unresolved.toNat⟩, s.riskDependencies reference book⟩ ∧
      ∃ counters, t = { s with risk := { s.risk with counters := counters } } := by
  simp only [evaluateRiskCandidate, Act.bind_eq_ok, raise_eq_ok, get_apply, check_apply,
    modify_apply, Prod.mk.injEq, Outcome.ok.injEq, Outcome.expect_eq_ok, orFail_eq_ok,
    failUnless_eq_ok] at h
  obtain ⟨_, _, ⟨-, rfl⟩, _, _, ⟨-, rfl⟩, ⟨collateral, outcome⟩, _, ⟨htot, rfl⟩, _, s, ⟨rfl, rfl⟩,
    inventory, _, ⟨hinv, rfl⟩, unresolved, _, ⟨hunr, rfl⟩, _, _, ⟨-, rfl⟩, _, _, hreq, h⟩ := h
  cases h
  obtain ⟨hnone, counters, hrisk⟩ := PmRiskState.evaluate_eq_of_approved happ
  rw [hnone, hrisk] at hreq
  cases hreq
  exact ⟨collateral, outcome, inventory, unresolved, htot, hinv, hunr,
    PmRiskState.evaluate_approved happ, counters, rfl⟩

theorem eq_false_of_find?_eq_none {α : Type} {xs : List α} {p : α → Bool} (h : xs.find? p = none) :
    ∀ x ∈ xs, p x = false := fun x hx => by
  simpa using List.find?_eq_none.mp h x hx

/-- An approved quote is backed, and its evaluation changes nothing but counters. -/
theorem backed_of_evaluated (hs : Inv config limits s) {ready : PmPrivateReady}
    (h : evaluateQuoteCandidate request reference book s = (.ok (.evaluated ready decision), t))
    (happr : decision.isApproved = true) :
    (∃ collateral outcome, Backed limits s request reference book collateral outcome) ∧
      ∃ counters, t = { s with risk := { s.risk with counters := counters } } := by
  have hexa := (sound_of_reach hs.orders).exact
  obtain ⟨summary, hsum, hdes⟩ := decisionSummary_spec hexa
  unfold evaluateQuoteCandidate at h
  rw [bind_apply_ok (get_apply s), bind_apply, check_apply, hsum] at h
  simp only [Outcome.expect_some] at h
  cases hrdy : s.quoteReadiness request summary with
  | panic =>
    rw [hrdy] at h
    cases h
  | err =>
    rw [hrdy] at h
    cases h
  | ok =>
  rw [hrdy] at h
  obtain ⟨_, _, hrisk, h⟩ := bind_eq_ok.mp h
  cases h
  obtain ⟨collateral, outcome, inventory, unresolved, htot, hinv, hunr, happ,
    hsame⟩ := approvable_of_evaluateRiskCandidate hrisk happr
  have hchkd : check s.readinessContext request summary = .ok ready := by
    unfold quoteReadiness at hrdy
    split at hrdy
    · cases hrdy
    · split_ifs at hrdy
      exact hrdy
  have hrdy := check_ready hchkd
  rw [hrdy.totals] at htot
  cases htot
  obtain ⟨hunk, hcol, hout⟩ := hdes.totals _ _ hrdy.totals
  refine ⟨⟨ready.effectiveCollateral.value, ready.effectiveOutcome.value, ?_⟩, hsame⟩
  have hexp : (⟨inventory, ready.reservedCollateral, ready.reservedCollateral,
      ready.reservedOutcome, summary.liveCount, summary.unresolvedCount, unresolved.toNat⟩ :
        PmRiskExposure).figures = s.exposure ready.effectiveOutcome.value := by
    simp only [PmRiskExposure.figures, exposure, toInt_effectivePosition hinv hrdy.effective,
      eq_unresolvedRiskCount hs hunr, hcol, hout, hdes.liveCount,
      hdes.unresolvedCount, heldCollateral, heldOutcome, liveOrders]
  have hcur := happ.current
  have hpro := happ.prospective
  rw [hexp, hs.limits_eq] at hcur hpro
  exact {
    effective := hrdy.effective
    collateral_le := by
      have hle := hrdy.collateral_le
      rw [hcol] at hle
      exact_mod_cast hle
    outcome_le := by
      have hle := hrdy.outcome_le
      rw [hout] at hle
      exact_mod_cast hle
    notHalted := ⟨hrdy.halt, happ.market, happ.account, happ.global⟩
    resolved := {
      reservations := hunk
      ownership := by
        have hnone := hdes.ambiguity.symm.trans hrdy.ambiguity
        intro e he
        simpa using List.any_eq_false.mp hnone e he
      fills := eq_false_of_find?_eq_none hrdy.unresolvedFill
      fees := eq_false_of_find?_eq_none (Option.map_eq_none_iff.mp hrdy.unresolvedFee)
      settlements := eq_false_of_find?_eq_none (Option.map_eq_none_iff.mp hrdy.unresolvedSettlement) }
    quantity_le := hs.limits_eq ▸ happ.quantity
    order_le := hs.limits_eq ▸ happ.collateral
    current := hcur
    prospective := hpro
    fresh := by
      intro row hrow
      rw [← hs.limits_eq] at hrow
      exact freshWithin_of_checkDependency (happ.fresh row hrow) }

end

end PmPrivateState

namespace PrivateSample

/-- The venue reports that the quote is open. -/
def openReport : EventEnvelope PmOrderEvent :=
  ⟨source, 1, Samples.streamed 1 Samples.one_ne, report both both_source half (unfilled share),
    Samples.one_ne, rfl⟩

/-- The quote is open, and the account is reconciled. -/
def reconciled : List PmPrivateState.Op :=
  quoted ++ [.observeOrderReduction openReport (.unmanaged .unknown),
    .applyReconciliation answer emptyQuery]

/-- A second buy of one share at half the collateral unit. -/
def request : PmPrivateQuoteRequest where
  monotonicNowNs := 3
  side := .buy
  price := half
  quantity := share
  reservation := registration.reservation

/-- The evaluation has approved the quote. -/
def isApproved : Outcome PmPrivateStateError PmPrivateQuoteEvaluation → Bool
  | .ok (.evaluated _ decision) => decision.isApproved
  | _ => false

end PrivateSample

namespace PmPrivateState

open PrivateSample

/-- **Approved quotes do not over-commit.** In every reachable state an approved quote is backed:
what the live orders have reserved and what the quote reserves is there, nothing is halted or open,
and every limit holds with and without the quote. The evaluation changes nothing but counters. -/
theorem approved_quote_backed {owner : PmRefreshOwnerId} {config : PmAccountConfig}
    {limits : PmRiskLimits} {s t : PmPrivateState} {request : PmPrivateQuoteRequest}
    {reference book : PmRiskDependency} {ready : PmPrivateReady} {decision : PmRiskDecision}
    (hreach : Reach step anyCall (.new owner config limits) s)
    (h : evaluateQuoteCandidate request reference book s = (.ok (.evaluated ready decision), t))
    (happroved : decision.isApproved = true) :
    (∃ collateral outcome, Backed limits s request reference book collateral outcome) ∧
      ∃ counters, t = { s with risk := { s.risk with counters := counters } } :=
  backed_of_evaluated (inv_of_reach hreach) h happroved

/-- With one quote open, a second one is approved. -/
theorem second_quote_backed : ∃ s, Reach step anyCall fresh s ∧ s.liveOrders.length = 1 ∧
      ∃ collateral outcome,
        Backed limits s request (.available 2) (.available 2) collateral outcome := by
  have hrun : ∃ s, Reach step anyCall fresh s ∧ s.liveOrders.length = 1 ∧
      isApproved (evaluateQuoteCandidate request (.available 2) (.available 2) s).1 = true :=
    exists_reach_of_run reconciled (by decide +kernel)
  obtain ⟨s, hrch, hlive, happ⟩ := hrun
  generalize heval : evaluateQuoteCandidate request (.available 2) (.available 2) s = result at happ
  obtain ⟨(_ | _) | _ | _, t⟩ := result
  · cases happ
  · exact ⟨s, hrch, hlive, (approved_quote_backed hrch heval happ).1⟩
  · cases happ
  · cases happ

end PmPrivateState

end Reap.Private
