import Reap.Fill.Delta

/-!
# Risk limits

Before a quote is placed, the exposure that the account has and the one that it would have are
compared with configured limits, and every source the decision rests on has to be fresh. A breach
rejects the quote and may latch a halt: for the market, for the account, or for everything.

The figures of a decision are machine numbers. `Figures` is the same exposure in exact arithmetic,
and `Within` what the limits say of it.

## What is proved

* `addSigned_eq` — the signed addition of this module is the one of the fill state.
* `evaluate_approved` — an approved candidate: no halt is latched, every source is fresh, and the
  limits hold for the figures as they are and with the candidate added.
-/

namespace Reap.Private

open Base Reap.Core PmSignedUnits

/-! ### Limits -/

/-- `PmOrderRiskLimits`. -/
structure PmOrderRiskLimits where
  maxQuantity : PmQuantity
  maxCollateral : U256
  collateral_pos : maxCollateral.isZero = false
  deriving DecidableEq

/-- `PmExposureRiskLimits`. -/
structure PmExposureRiskLimits where
  maxMarketInventory : U256
  maxAccountCollateralAtRisk : U256
  maxReservedCollateral : U256
  maxReservedToken : U256
  inventory_pos : maxMarketInventory.isZero = false
  risk_pos : maxAccountCollateralAtRisk.isZero = false
  collateral_pos : maxReservedCollateral.isZero = false
  token_pos : maxReservedToken.isZero = false
  deriving DecidableEq

/-- `PmCardinalityRiskLimits`. -/
structure PmCardinalityRiskLimits where
  maxLiveOrders : UInt16
  maxUnresolvedOrders : UInt16
  maxUnresolvedFills : UInt16
  live_pos : maxLiveOrders ≠ 0
  orders_pos : maxUnresolvedOrders ≠ 0
  fills_pos : maxUnresolvedFills ≠ 0
  deriving DecidableEq

/-- `PmFreshnessRiskLimits`. -/
structure PmFreshnessRiskLimits where
  referenceNs : UInt64
  bookNs : UInt64
  privateNs : UInt64
  accountNs : UInt64
  orderNs : UInt64
  reconciliationNs : UInt64
  positive : 0 ∉ [referenceNs, bookNs, privateNs, accountNs, orderNs, reconciliationNs]
  deriving DecidableEq

/-- `PmRiskLimits`. -/
structure PmRiskLimits where
  order : PmOrderRiskLimits
  exposure : PmExposureRiskLimits
  cardinality : PmCardinalityRiskLimits
  freshness : PmFreshnessRiskLimits
  deriving DecidableEq

/-! ### Inputs -/

/-- `PmRiskDependency`. -/
structure PmRiskDependency where
  isAvailable : Bool
  observedMonotonicNs : Option UInt64
  deriving DecidableEq

/-- `available`. -/
def PmRiskDependency.available (observedMonotonicNs : UInt64) : PmRiskDependency :=
  ⟨true, some observedMonotonicNs⟩

/-- `unavailable`. -/
def PmRiskDependency.unavailable : PmRiskDependency := ⟨false, none⟩

/-- `PmRiskDependencies`. -/
structure PmRiskDependencies where
  reference : PmRiskDependency
  book : PmRiskDependency
  «private» : PmRiskDependency
  account : PmRiskDependency
  orders : PmRiskDependency
  reconciliation : PmRiskDependency
  deriving DecidableEq

/-- `PmRiskCandidate`. -/
structure PmRiskCandidate where
  account : PmAccountHandle
  instrument : PmInstrumentHandle
  side : PmOrderSide
  quantity : PmQuantity
  collateralAtRisk : U256
  tokenAtRisk : U256
  deriving DecidableEq

/-- `PmRiskExposure`. -/
structure PmRiskExposure where
  marketInventory : PmSignedUnits
  accountCollateralAtRisk : U256
  reservedCollateral : U256
  reservedToken : U256
  liveOrders : ℕ
  unresolvedOrders : ℕ
  unresolvedFills : ℕ
  deriving DecidableEq

/-- `PmRiskInput`. -/
structure PmRiskInput where
  monotonicNowNs : UInt64
  candidate : PmRiskCandidate
  exposure : PmRiskExposure
  dependencies : PmRiskDependencies
  deriving DecidableEq

/-! ### Decisions -/

/-- `PmRiskHaltScope`. -/
inductive PmRiskHaltScope where
  | none
  | market
  | account
  | global
  deriving DecidableEq, Repr

/-- `cancel_owned_required`. -/
def PmRiskHaltScope.cancelOwnedRequired : PmRiskHaltScope → Bool
  | .none => false
  | .market | .account | .global => true

/-- What must be fresh. -/
inductive PmRiskDependencyKind where
  | reference
  | book
  | privateLifecycle
  | accountSnapshot
  | orderLifecycle
  | reconciliation
  deriving DecidableEq, Repr

/-- `PmRiskReason`. -/
inductive PmRiskReason where
  | globalHalt
  | accountHalt
  | marketHalt
  | dependencyUnavailable (dependency : PmRiskDependencyKind)
  | dependencyStale (dependency : PmRiskDependencyKind) (ageNs limitNs : UInt64)
  | monotonicClockRegression (dependency : PmRiskDependencyKind)
  | orderQuantity (observed limit : U256)
  | orderCollateral (observed limit : U256)
  | marketInventory (observed limit : U256)
  | accountCollateralAtRisk (observed limit : U256)
  | reservedCollateral (observed limit : U256)
  | reservedToken (observed limit : U256)
  | liveOrderCount (observed : ℕ) (limit : UInt16)
  | unresolvedOrderCount (observed : ℕ) (limit : UInt16)
  | unresolvedFillCount (observed : ℕ) (limit : UInt16)
  | arithmeticOverflow
  | scopeMismatch
  deriving DecidableEq

/-- `PmRiskDecision`. -/
inductive PmRiskDecision where
  | approved (prospectiveMarketInventory prospectiveAccountCollateralAtRisk
      prospectiveReservedCollateral prospectiveReservedToken : U256) (prospectiveLiveOrders : ℕ)
  | rejected (reason : PmRiskReason) (halt : PmRiskHaltScope)
  deriving DecidableEq

/-- `halt_scope`. -/
def PmRiskDecision.haltScope : PmRiskDecision → PmRiskHaltScope
  | .approved .. => .none
  | .rejected _ halt => halt

/-- The candidate is approved. -/
def PmRiskDecision.isApproved : PmRiskDecision → Bool
  | .approved .. => true
  | .rejected .. => false

variable {decision : PmRiskDecision} {nowNs : UInt64} {limits : PmRiskLimits}

/-- `PmRiskCounters`. -/
structure PmRiskCounters where
  evaluations : UInt64 := 0
  approvals : UInt64 := 0
  rejections : UInt64 := 0
  marketHalts : UInt64 := 0
  accountHalts : UInt64 := 0
  globalHalts : UInt64 := 0
  deriving DecidableEq

/-- `PmRiskState`. -/
structure PmRiskState where
  account : PmAccountHandle
  instrument : PmInstrumentHandle
  limits : PmRiskLimits
  marketHalt : Option PmRiskReason
  accountHalt : Option PmRiskReason
  globalHalt : Option PmRiskReason
  counters : PmRiskCounters
  deriving DecidableEq

/-! ### Checks -/

/-- A check of a decision: it ends with the reason and the scope of a rejection when it fails. -/
abbrev Screen := Except (PmRiskReason × PmRiskHaltScope)

/-- The condition holds, or the quote is rejected. -/
def ensure (condition : Prop) [Decidable condition] (reason : PmRiskReason)
    (halt : PmRiskHaltScope) : Screen Unit :=
  if condition then .ok () else .error (reason, halt)

/-- The number is there, or the arithmetic has overflowed. -/
def computed {α : Type} (value : Option α) : Screen α :=
  match value with
  | some value => .ok value
  | none => .error (.arithmeticOverflow, .global)

/-- `u64::checked_sub`. -/
def checkedSubNs (now observed : UInt64) : Option UInt64 :=
  if observed ≤ now then some (now - observed) else none

variable (left right : PmSignedUnits)

/-- `add_signed` of the risk state. -/
def addSigned : Option PmSignedUnits :=
  if left.sign = right.sign then
    match left.magnitude.checkedAdd right.magnitude with
    | .error _ => none
    | .ok magnitude => (fromParts left.sign magnitude).toOption
  else
    match compare left.magnitude right.magnitude with
    | .gt =>
      match left.magnitude.checkedSub right.magnitude with
      | .error _ => none
      | .ok magnitude => (fromParts left.sign magnitude).toOption
    | .lt =>
      match right.magnitude.checkedSub left.magnitude with
      | .error _ => none
      | .ok magnitude => (fromParts right.sign magnitude).toOption
    | .eq => some .zero

/-- One row of the loop of `check_dependencies`. -/
structure DependencyRow where
  kind : PmRiskDependencyKind
  dependency : PmRiskDependency
  limitNs : UInt64
  halt : PmRiskHaltScope

/-- The rows of `check_dependencies`. -/
def dependencyRows (dependencies : PmRiskDependencies) (limits : PmFreshnessRiskLimits) :
    List DependencyRow :=
  [⟨.reference, dependencies.reference, limits.referenceNs, .market⟩,
    ⟨.book, dependencies.book, limits.bookNs, .market⟩,
    ⟨.privateLifecycle, dependencies.private, limits.privateNs, .account⟩,
    ⟨.accountSnapshot, dependencies.account, limits.accountNs, .account⟩,
    ⟨.orderLifecycle, dependencies.orders, limits.orderNs, .account⟩,
    ⟨.reconciliation, dependencies.reconciliation, limits.reconciliationNs, .account⟩]

/-- One round of the loop of `check_dependencies`. -/
def checkDependency (nowNs : UInt64) (row : DependencyRow) : Screen Unit :=
  if row.dependency.isAvailable = false then
    .error (.dependencyUnavailable row.kind, row.halt)
  else
  match row.dependency.observedMonotonicNs with
  | none => .error (.dependencyUnavailable row.kind, row.halt)
  | some observedNs =>
  match checkedSubNs nowNs observedNs with
  | none => .error (.monotonicClockRegression row.kind, .global)
  | some ageNs => ensure (ageNs ≤ row.limitNs) (.dependencyStale row.kind ageNs row.limitNs) row.halt

/-- `check_dependencies`. -/
def checkDependencies (nowNs : UInt64) : List DependencyRow → Screen Unit
  | [] => .ok ()
  | row :: rest => do
    checkDependency nowNs row
    checkDependencies nowNs rest

/-- `check_current_exposure`. -/
def checkCurrentExposure (exposure : PmRiskExposure) (limits : PmRiskLimits) : Screen Unit := do
  let { exposure := bound, cardinality, .. } := limits
  ensure (exposure.marketInventory.magnitude ≤ bound.maxMarketInventory)
    (.marketInventory exposure.marketInventory.magnitude bound.maxMarketInventory) .market
  ensure (exposure.accountCollateralAtRisk ≤ bound.maxAccountCollateralAtRisk)
    (.accountCollateralAtRisk exposure.accountCollateralAtRisk bound.maxAccountCollateralAtRisk)
    .account
  ensure (exposure.reservedCollateral ≤ bound.maxReservedCollateral)
    (.reservedCollateral exposure.reservedCollateral bound.maxReservedCollateral) .account
  ensure (exposure.reservedToken ≤ bound.maxReservedToken)
    (.reservedToken exposure.reservedToken bound.maxReservedToken) .market
  ensure (exposure.liveOrders ≤ cardinality.maxLiveOrders.toNat)
    (.liveOrderCount exposure.liveOrders cardinality.maxLiveOrders) .account
  ensure (exposure.unresolvedOrders ≤ cardinality.maxUnresolvedOrders.toNat)
    (.unresolvedOrderCount exposure.unresolvedOrders cardinality.maxUnresolvedOrders) .account
  ensure (exposure.unresolvedFills ≤ cardinality.maxUnresolvedFills.toNat)
    (.unresolvedFillCount exposure.unresolvedFills cardinality.maxUnresolvedFills) .account

/-- What a candidate adds to the inventory. Its quantity is not zero, so the source's `expect`
does not fail. -/
def candidateDelta (candidate : PmRiskCandidate) : PmSignedUnits :=
  let units := candidate.quantity.protocolUnits
  ⟨match candidate.side with
    | .buy => .positive
    | .sell => .negative,
    units, fun h => absurd h candidate.quantity.ne_zero⟩

/-- The checks of the exposure with the candidate added, and the approval. -/
def checkProspectiveExposure (input : PmRiskInput) (limits : PmRiskLimits) :
    Screen PmRiskDecision := do
  let { exposure := bound, cardinality, .. } := limits
  let { candidate, exposure, .. } := input
  let marketInventory ← computed (addSigned exposure.marketInventory (candidateDelta candidate))
  let accountCollateral ← computed
    (exposure.accountCollateralAtRisk.checkedAdd candidate.collateralAtRisk).toOption
  let reservedCollateral ← computed
    (exposure.reservedCollateral.checkedAdd candidate.collateralAtRisk).toOption
  let reservedToken ← computed (exposure.reservedToken.checkedAdd candidate.tokenAtRisk).toOption
  let liveOrders ← computed (if exposure.liveOrders + 1 < 2 ^ 16 then some (exposure.liveOrders + 1)
    else none)
  ensure (marketInventory.magnitude ≤ bound.maxMarketInventory)
    (.marketInventory marketInventory.magnitude bound.maxMarketInventory) .market
  ensure (accountCollateral ≤ bound.maxAccountCollateralAtRisk)
    (.accountCollateralAtRisk accountCollateral bound.maxAccountCollateralAtRisk) .account
  ensure (reservedCollateral ≤ bound.maxReservedCollateral)
    (.reservedCollateral reservedCollateral bound.maxReservedCollateral) .account
  ensure (reservedToken ≤ bound.maxReservedToken)
    (.reservedToken reservedToken bound.maxReservedToken) .market
  ensure (liveOrders ≤ cardinality.maxLiveOrders.toNat)
    (.liveOrderCount liveOrders cardinality.maxLiveOrders) .account
  ensure (exposure.unresolvedOrders ≤ cardinality.maxUnresolvedOrders.toNat)
    (.unresolvedOrderCount exposure.unresolvedOrders cardinality.maxUnresolvedOrders) .account
  ensure (exposure.unresolvedFills ≤ cardinality.maxUnresolvedFills.toNat)
    (.unresolvedFillCount exposure.unresolvedFills cardinality.maxUnresolvedFills) .account
  return .approved marketInventory.magnitude accountCollateral reservedCollateral reservedToken
    liveOrders

namespace PmRiskState

variable (s : PmRiskState) (input : PmRiskInput)

/-- `new`. -/
def new (account : PmAccountHandle) (instrument : PmInstrumentHandle) (limits : PmRiskLimits) :
    PmRiskState :=
  ⟨account, instrument, limits, none, none, none, {}⟩

/-- The checks of `PmRiskState::check`. -/
def screen : Screen PmRiskDecision := do
  let { candidate, exposure, .. } := input
  ensure (candidate.account = s.account ∧ candidate.instrument = s.instrument) .scopeMismatch .global
  checkDependencies input.monotonicNowNs (dependencyRows input.dependencies s.limits.freshness)
  ensure (s.globalHalt = none) .globalHalt .global
  ensure (s.accountHalt = none) .accountHalt .account
  ensure (s.marketHalt = none) .marketHalt .market
  checkCurrentExposure exposure s.limits
  ensure (candidate.quantity.protocolUnits ≤ s.limits.order.maxQuantity.protocolUnits)
    (.orderQuantity candidate.quantity.protocolUnits s.limits.order.maxQuantity.protocolUnits) .none
  ensure (candidate.collateralAtRisk ≤ s.limits.order.maxCollateral)
    (.orderCollateral candidate.collateralAtRisk s.limits.order.maxCollateral) .none
  checkProspectiveExposure input s.limits

/-- `check`. -/
def check : PmRiskDecision :=
  match s.screen input with
  | .ok decision => decision
  | .error (reason, halt) => .rejected reason halt

/-- The state with its counters changed. -/
def count (f : PmRiskCounters → PmRiskCounters) : PmRiskState :=
  { s with counters := f s.counters }

/-- `latch`. -/
def latch (halt : PmRiskHaltScope) (reason : PmRiskReason) : PmRiskState :=
  match halt with
  | .none => s
  | .market =>
    if s.marketHalt.isNone then
      { s with marketHalt := some reason }.count fun c =>
        { c with marketHalts := bump c.marketHalts }
    else s
  | .account =>
    if s.accountHalt.isNone then
      { s with accountHalt := some reason }.count fun c =>
        { c with accountHalts := bump c.accountHalts }
    else s
  | .global =>
    if s.globalHalt.isNone then
      { s with globalHalt := some reason }.count fun c =>
        { c with globalHalts := bump c.globalHalts }
    else s

/-- `evaluate`. -/
def evaluate : PmRiskDecision × PmRiskState :=
  let s := s.count fun c => { c with evaluations := bump c.evaluations }
  let decision := s.check input
  match decision with
  | .approved .. => (decision, s.count fun c => { c with approvals := bump c.approvals })
  | .rejected reason halt =>
    (decision, (s.count fun c => { c with rejections := bump c.rejections }).latch halt reason)

/-- Market and account resume. -/
def recoverAfterCompleteReconciliation : PmRiskState :=
  { s with marketHalt := none, accountHalt := none }

end PmRiskState

theorem PmRiskState.limits_evaluate (s : PmRiskState) (input : PmRiskInput) :
    (s.evaluate input).2.limits = s.limits := by
  have hlat : ∀ (s : PmRiskState) (halt : PmRiskHaltScope) (reason : PmRiskReason),
      (s.latch halt reason).limits = s.limits := by
    intro s halt reason
    unfold latch
    cases halt <;> simp only <;> split_ifs <;> rfl
  unfold evaluate
  simp only
  split
  · rfl
  · exact hlat _ _ _

/-! ### Exact arithmetic -/

theorem signed_toOption (sign : PmSign) (amount : U256) :
    (Fill.signed sign amount).toOption = (fromParts sign amount).toOption := by
  unfold Fill.signed
  cases fromParts sign amount <;> rfl

/-- The two signed additions of the source agree. -/
theorem addSigned_eq : addSigned left right = (Fill.addSigned left right).toOption := by
  unfold addSigned Fill.addSigned
  split_ifs
  · cases left.magnitude.checkedAdd right.magnitude with
    | error => rfl
    | ok => exact (signed_toOption _ _).symm
  · cases compare left.magnitude right.magnitude with
    | gt =>
      cases left.magnitude.checkedSub right.magnitude with
      | error => rfl
      | ok => exact (signed_toOption _ _).symm
    | lt =>
      cases right.magnitude.checkedSub left.magnitude with
      | error => rfl
      | ok => exact (signed_toOption _ _).symm
    | eq => rfl

theorem toOption_eq_some {ε α : Type} {x : Except ε α} {a : α} :
    x.toOption = some a ↔ x = .ok a := by
  cases x <;> simp [Except.toOption]

theorem natAbs_toInt (units : PmSignedUnits) : units.toInt.natAbs = units.magnitude.value := by
  unfold toInt
  cases units.sign with
  | positive => rfl
  | negative => exact (Int.natAbs_neg _).trans rfl

/-- **The sum of signed units is the integer sum**, in its one representation and with no negative
zero. It fails only for units of one sign whose sum does not fit, and the two additions agree. -/
theorem addSigned_exact :
    (∀ sum, Fill.addSigned left right = .ok sum ↔ sum.toInt = left.toInt + right.toInt) ∧
    ((∃ sum, Fill.addSigned left right = .ok sum) ↔
      (left.sign = right.sign → (left.toInt + right.toInt).natAbs < 2 ^ 256)) ∧
    (∀ sum, Fill.addSigned left right = .ok sum → sum.magnitude.value = 0 → sum.sign = .positive) ∧
    addSigned left right = (Fill.addSigned left right).toOption := by
  refine ⟨fun _ => Fill.addSigned_checked.add_eq_ok, ?_, fun sum _ => sum.canonical,
    addSigned_eq left right⟩
  simp only [Fill.addSigned_checked.add_eq_ok, exists_toInt_eq_iff]
  refine ⟨fun hlt _ => hlt, fun hlt => ?_⟩
  by_cases hsign : left.sign = right.sign
  · exact hlt hsign
  · -- The magnitudes are subtracted, so the sum is not above the larger one.
    have hleft := left.magnitude.lt
    have hright := right.magnitude.lt
    rw [toInt, toInt, Fill.PmSign.apply_of_ne hsign]
    cases left.sign <;> simp only [PmSign.apply] <;> omega

/-- An exposure in exact arithmetic. -/
structure Figures where
  inventory : ℤ
  collateralAtRisk : ℕ
  reservedCollateral : ℕ
  reservedToken : ℕ
  liveOrders : ℕ
  unresolvedOrders : ℕ
  unresolvedFills : ℕ

/-- What the limits say of an exposure. -/
structure Within (limits : PmRiskLimits) (figures : Figures) : Prop where
  inventory : figures.inventory.natAbs ≤ limits.exposure.maxMarketInventory.value
  collateralAtRisk : figures.collateralAtRisk ≤ limits.exposure.maxAccountCollateralAtRisk.value
  reservedCollateral : figures.reservedCollateral ≤ limits.exposure.maxReservedCollateral.value
  reservedToken : figures.reservedToken ≤ limits.exposure.maxReservedToken.value
  liveOrders : figures.liveOrders ≤ limits.cardinality.maxLiveOrders.toNat
  unresolvedOrders : figures.unresolvedOrders ≤ limits.cardinality.maxUnresolvedOrders.toNat
  unresolvedFills : figures.unresolvedFills ≤ limits.cardinality.maxUnresolvedFills.toNat

/-- The figures of an exposure. -/
def PmRiskExposure.figures (exposure : PmRiskExposure) : Figures where
  inventory := exposure.marketInventory.toInt
  collateralAtRisk := exposure.accountCollateralAtRisk.value
  reservedCollateral := exposure.reservedCollateral.value
  reservedToken := exposure.reservedToken.value
  liveOrders := exposure.liveOrders
  unresolvedOrders := exposure.unresolvedOrders
  unresolvedFills := exposure.unresolvedFills

/-- What a quote of this side and quantity does to the inventory when it is filled. -/
def inventoryChange (side : PmOrderSide) (quantity : PmQuantity) : ℤ :=
  match side with
  | .buy => quantity.protocolUnits.value
  | .sell => -quantity.protocolUnits.value

/-- The figures with one more order. -/
def Figures.with (figures : Figures) (side : PmOrderSide) (quantity : PmQuantity)
    (collateral token : ℕ) : Figures :=
  { figures with
    inventory := figures.inventory + inventoryChange side quantity
    collateralAtRisk := figures.collateralAtRisk + collateral
    reservedCollateral := figures.reservedCollateral + collateral
    reservedToken := figures.reservedToken + token
    liveOrders := figures.liveOrders + 1 }

/-- The source is there, its observation is not in the future, and it is recent enough. -/
def FreshWithin (nowNs limitNs : UInt64) (dependency : PmRiskDependency) : Prop :=
  ∃ observedNs, dependency = .available observedNs ∧ observedNs.toNat ≤ nowNs.toNat ∧
    nowNs.toNat - observedNs.toNat ≤ limitNs.toNat

/-! ### An approval -/

theorem ensure_eq_ok {condition : Prop} [Decidable condition] {reason : PmRiskReason}
    {halt : PmRiskHaltScope} {u : Unit} : ensure condition reason halt = .ok u ↔ condition := by
  unfold ensure
  split_ifs with h
  · exact ⟨fun _ => h, fun _ => rfl⟩
  · exact ⟨nofun, fun hc => absurd hc h⟩

theorem computed_eq_ok {α : Type} {value : Option α} {a : α} :
    computed value = .ok a ↔ value = some a := by
  cases value <;> simp [computed]

theorem toNat_checkedSubNs {now observed age : UInt64} (h : checkedSubNs now observed = some age) :
    observed.toNat ≤ now.toNat ∧ age.toNat = now.toNat - observed.toNat := by
  unfold checkedSubNs at h
  split_ifs at h with hle
  cases h
  have hle' : observed.toNat ≤ now.toNat := UInt64.le_iff_toNat_le.mp hle
  exact ⟨hle', UInt64.toNat_sub_of_le _ _ hle⟩

theorem freshWithin_of_checkDependency {row : DependencyRow}
    (h : checkDependency nowNs row = .ok ()) : FreshWithin nowNs row.limitNs row.dependency := by
  obtain ⟨kind, ⟨isAvailable, observed⟩, limitNs, halt⟩ := row
  unfold checkDependency at h
  split_ifs at h with huna
  simp only [Bool.not_eq_false] at huna h
  subst huna
  cases observed with
  | none => cases h
  | some observedNs =>
  simp only at h
  split at h
  · cases h
  next age hage =>
  obtain ⟨hle, heq⟩ := toNat_checkedSubNs hage
  refine ⟨observedNs, rfl, hle, ?_⟩
  rw [← heq]
  exact UInt64.le_iff_toNat_le.mp (ensure_eq_ok.mp h)

theorem forall_of_checkDependencies {rows : List DependencyRow}
    (h : checkDependencies nowNs rows = .ok ()) :
    ∀ row ∈ rows, checkDependency nowNs row = .ok () := by
  induction rows with
  | nil => exact fun _ hin => absurd hin List.not_mem_nil
  | cons _ _ ih =>
    obtain ⟨⟨⟩, hrow, hrest⟩ := bind_eq_ok.mp h
    intro other hin
    rcases List.mem_cons.mp hin with rfl | hin
    · exact hrow
    · exact ih hrest other hin

theorem within_of_checkCurrentExposure {exposure : PmRiskExposure}
    (h : checkCurrentExposure exposure limits = .ok ()) : Within limits exposure.figures := by
  simp only [checkCurrentExposure, bind_eq_ok, ensure_eq_ok, exists_and_left, exists_const] at h
  obtain ⟨hinv, hrisk, hcol, htok, hlive, hord, hfil⟩ := h
  refine ⟨?_, hrisk, hcol, htok, hlive, hord, hfil⟩
  exact (natAbs_toInt _).trans_le hinv

theorem toInt_candidateDelta (candidate : PmRiskCandidate) :
    (candidateDelta candidate).toInt = inventoryChange candidate.side candidate.quantity := by
  obtain ⟨account, instrument, side, quantity, collateral, token⟩ := candidate
  cases side <;> rfl

theorem within_of_checkProspectiveExposure {input : PmRiskInput}
    (h : checkProspectiveExposure input limits = .ok decision) :
    Within limits (input.exposure.figures.with input.candidate.side input.candidate.quantity
      input.candidate.collateralAtRisk.value input.candidate.tokenAtRisk.value) := by
  simp only [checkProspectiveExposure, bind_eq_ok, ensure_eq_ok, computed_eq_ok,
    toOption_eq_some, exists_and_left, exists_const] at h
  obtain ⟨inventory, hinv, risk, hrisk, collateral, hcol, token, htok, live, hlive,
    hinvLe, hrisLe, hcolLe, htokLe, hlivLe, hord, hfil, -⟩ := h
  rw [U256.checkedAdd_eq_ok_iff] at hrisk hcol htok
  split_ifs at hlive
  cases hlive
  refine ⟨?_, hrisk.symm.trans_le hrisLe, hcol.symm.trans_le hcolLe,
    htok.symm.trans_le htokLe, hlivLe, hord, hfil⟩
  rw [addSigned_eq, toOption_eq_some] at hinv
  have hsum := Fill.addSigned_checked.sound hinv
  rw [toInt_candidateDelta] at hsum
  show (input.exposure.marketInventory.toInt + _).natAbs ≤ _
  rw [← hsum, natAbs_toInt]
  exact hinvLe

/-- What an approval means. -/
structure Approvable (s : PmRiskState) (input : PmRiskInput) : Prop where
  global : s.globalHalt = none
  account : s.accountHalt = none
  market : s.marketHalt = none
  fresh : ∀ row ∈ dependencyRows input.dependencies s.limits.freshness,
    checkDependency input.monotonicNowNs row = .ok ()
  quantity : input.candidate.quantity.protocolUnits.value ≤
    s.limits.order.maxQuantity.protocolUnits.value
  collateral : input.candidate.collateralAtRisk.value ≤ s.limits.order.maxCollateral.value
  current : Within s.limits input.exposure.figures
  prospective : Within s.limits (input.exposure.figures.with input.candidate.side
    input.candidate.quantity input.candidate.collateralAtRisk.value
    input.candidate.tokenAtRisk.value)

namespace PmRiskState

variable {s : PmRiskState} {input : PmRiskInput}

theorem approvable_of_screen (h : s.screen input = .ok decision) : Approvable s input := by
  simp only [screen, bind_eq_ok, ensure_eq_ok, exists_and_left, exists_const] at h
  obtain ⟨-, _, hfr, hglo, hacc, hmar, _, hcur, hqua, hcol, hpro⟩ := h
  exact ⟨hglo, hacc, hmar, forall_of_checkDependencies hfr, hqua, hcol,
    within_of_checkCurrentExposure hcur, within_of_checkProspectiveExposure hpro⟩

/-- **An approved candidate.** -/
theorem evaluate_approved (h : (s.evaluate input).1.isApproved = true) : Approvable s input := by
  have hchk : (s.count fun c => { c with evaluations := bump c.evaluations }).check input =
      (s.evaluate input).1 := by
    unfold evaluate
    simp only
    split <;> rfl
  rw [← hchk] at h
  unfold check at h
  split at h
  · next decision hscr =>
    obtain ⟨hglo, hacc, hmar, hfr, hqua, hcol, hcur, hpro⟩ := approvable_of_screen hscr
    exact ⟨hglo, hacc, hmar, hfr, hqua, hcol, hcur, hpro⟩
  · cases h

/-- An approval halts nothing, and changes only the counters. -/
theorem evaluate_eq_of_approved (h : (s.evaluate input).1.isApproved = true) :
    (s.evaluate input).1.haltScope = .none ∧
      ∃ counters, (s.evaluate input).2 = { s with counters := counters } := by
  unfold evaluate at h ⊢
  simp only at h ⊢
  split
  · next hdec => exact ⟨by rw [hdec]; rfl, _, rfl⟩
  · next reason halt hdec =>
    rw [hdec] at h
    cases h

end PmRiskState

end Reap.Private
