import Reap.Core.Event

/-!
# Exact reservations

An order that may still execute ties up collateral (a buy) or outcome tokens (a sell). A
reservation states both amounts and on what authority. `validateRequirement` is the check
that a reservation is enough for what remains of an order; it accepts only remainders whose
collateral is a whole number of protocol units.

## What is proved

* `validateRequirement_covers` — an accepted reservation covers the remainder.
* `Covers.mono` — it goes on covering as the remainder shrinks.
-/

namespace Reap.Order

open Reap.Core

/-- `PmOrderStateError`. -/
inductive PmOrderStateError where
  | zeroReservation
  | ownedReservationRequiresPolicy
  | scopeMismatch
  | marketContractMismatch
  | reservationScopeMismatch
  | reservationUnderstatesBase
  | invalidAuthoritativeReservation
  | ownershipRegisteredTooLate
  | identityConflict
  | observationConflict
  | lifecycleRegression
  | terminalOrderInOpenSnapshot
  | capacity
  | envelopeRevisionMismatch
  | completionSequenceMismatch
  | reservationCompanionMismatch
  deriving DecidableEq, Repr

/-- The authority behind a reservation. -/
inductive PmReservationBasis where
  /-- An exact policy that includes the worst-case fee. -/
  | policyApprovedWorstCase
  /-- A complete read that proves the remaining sell-token requirement. -/
  | authoritativeSellRemaining
  deriving DecidableEq, Repr

/-- The collateral and the outcome tokens that are set aside. -/
structure PmExactReservation where
  collateral : U256
  outcome : U256
  basis : PmReservationBasis
  positive : ¬ (collateral.isZero = true ∧ outcome.isZero = true)
  deriving DecidableEq

/-- What is known of it. -/
inductive PmReservationKnowledge where
  | known (reservation : PmExactReservation)
  | unknown
  deriving DecidableEq

/-- `validate_requirement`. -/
def validateRequirement (side : PmOrderSide) (price : PmPrice) (remaining : U256)
    (reservation : PmExactReservation) : Except PmOrderStateError Unit :=
  match PmQuantity.fromProtocolUnits remaining with
  | .error _ => .error .zeroReservation
  | .ok quantity =>
  match exactOrderAmounts side price quantity with
  | .error _ => .error .reservationUnderstatesBase
  | .ok amounts =>
  let baseCollateral := match side with
    | .buy => amounts.maker
    | .sell => U256.zero
  let baseOutcome := match side with
    | .buy => U256.zero
    | .sell => remaining
  if reservation.collateral < baseCollateral ∨ reservation.outcome < baseOutcome then
    .error .reservationUnderstatesBase
  else if reservation.basis = .authoritativeSellRemaining ∧
      (side ≠ .sell ∨ reservation.collateral.isZero = false ∨ reservation.outcome ≠ remaining) then
    .error .invalidAuthoritativeReservation
  else .ok ()

/-- `validate_for`. -/
def PmExactReservation.validateFor (reservation : PmExactReservation) (side : PmOrderSide)
    (price : PmPrice) (quantity : PmQuantity) : Except PmOrderStateError PmExactReservation :=
  match validateRequirement side price quantity.protocolUnits reservation with
  | .error error => .error error
  | .ok () => .ok reservation

/-- The reservation is enough for `remaining`: a buy has set aside at least
`⌈price * remaining / 10 ^ 6⌉` of collateral, a sell at least `remaining` outcome tokens. -/
def Covers (reservation : PmExactReservation) (side : PmOrderSide) (price : PmPrice)
    (remaining : U256) : Prop :=
  match side with
  | .buy => (baseProduct price remaining + 999999) / 1000000 ≤ reservation.collateral.value
  | .sell => remaining.value ≤ reservation.outcome.value

instance (reservation : PmExactReservation) (side : PmOrderSide) (price : PmPrice)
    (remaining : U256) : Decidable (Covers reservation side price remaining) :=
  match side with
  | .buy => Nat.decLe _ _
  | .sell => Nat.decLe _ _

variable {price : PmPrice} {reservation : PmExactReservation} {side : PmOrderSide}

/-- What covers an order covers every smaller remainder of it. -/
theorem Covers.mono {remaining rest : U256} (h : Covers reservation side price remaining)
    (hle : rest.value ≤ remaining.value) : Covers reservation side price rest := by
  cases side with
  | buy =>
    have hprod : baseProduct price rest ≤ baseProduct price remaining := Nat.mul_le_mul_left _ hle
    exact le_trans (Nat.div_le_div_right (Nat.add_le_add_right hprod _)) h
  | sell => exact le_trans hle h

/-- A reservation that passes the check covers the remainder. -/
theorem validateRequirement_covers {remaining : U256}
    (h : validateRequirement side price remaining reservation = .ok ()) :
    Covers reservation side price remaining := by
  unfold validateRequirement at h
  split at h
  · cases h
  next quantity hqua =>
  have huni : quantity.protocolUnits = remaining := by
    unfold PmQuantity.fromProtocolUnits at hqua
    split_ifs at hqua
    cases hqua
    rfl
  rw [exactOrderAmounts_eq] at h
  split at h
  · cases h
  next amounts hamo =>
  rw [huni] at hamo
  split_ifs at hamo with hwh
  cases hamo
  dsimp only at h
  split_ifs at h with hbase
  rw [not_or, not_lt, not_lt] at hbase
  cases side with
  | buy =>
    have hle := U256.le_iff.mp hbase.1
    simp only [orderAmounts, U256.value_ofValue] at hle
    show (baseProduct price remaining + 999999) / 1000000 ≤ _
    omega
  | sell => exact hbase.2

end Reap.Order
