import Reap.Core.Market
import Reap.Core.Reconciliation

/-!
# Account facts

What an account holds and what it has allowed others to spend, as the venue reports it: balances,
allowances and positions, each row with the snapshot it belongs to, and the complete answer that
lists them. A complete answer says which assets, spenders and instruments it covers, so an
expected row that is not there is known to be absent; rows outside of what is expected are kept
for diagnosis, up to a bound.

The proof fields are the checks of the source's constructors.
-/

namespace Reap.Core

universe u

/-- At most this many assets. -/
def maxPmAccountExpectedAssets : ℕ := maxRequiredSpenders

/-- At most this many spenders. -/
def maxPmAccountExpectedSpenders : ℕ := maxRequiredSpenders

/-- At most this many instruments. -/
def maxPmAccountExpectedInstruments : ℕ := maxRequiredSpenders

/-- At most this many other rows. -/
def maxPmAccountDiagnosticExtraRows : ℕ := maxRequiredSpenders

/-! ### Spenders -/

/-- `PmSpenderId`. -/
structure PmSpenderId where
  account : PmAccountHandle
  requirement : PmSpenderRequirement
  deriving DecidableEq

/-! ### Rows -/

/-- An amount, or for outcome tokens whether the operator is approved. -/
inductive PmAllowanceValue where
  | erc20 (amount : U256)
  | erc1155Operator (isApproved : Bool)
  deriving DecidableEq

/-- The check of `PmAllowanceEvent::new` that the value is of the asset's kind. -/
def PmAssetId.matchesAllowance (asset : PmAssetId) (value : PmAllowanceValue) : Bool :=
  match asset, value with
  | .collateral _, .erc20 _ | .outcome _ _, .erc1155Operator _ => true
  | .collateral _, .erc1155Operator _ | .outcome _ _, .erc20 _ => false

/-- Whether it can be sold. -/
inductive PmPositionAvailability where
  | tradable
  | resolvedUnredeemed
  | unavailable
  deriving DecidableEq, Repr

/-- `PmBalanceEvent`. -/
structure PmBalanceEvent where
  source : PmProductSource
  account : PmAccountHandle
  asset : PmAssetId
  balance : U256
  snapshot : PmSnapshotEvidence
  account_source : validateAccountSource source account = .ok ()
  deriving DecidableEq

/-- `PmAllowanceEvent`. -/
structure PmAllowanceEvent where
  source : PmProductSource
  spender : PmSpenderId
  value : PmAllowanceValue
  snapshot : PmSnapshotEvidence
  account_source : validateAccountSource source spender.account = .ok ()
  matching_kind : spender.requirement.asset.matchesAllowance value = true
  deriving DecidableEq

/-- `PmPositionEvent`. -/
structure PmPositionEvent where
  source : PmProductSource
  account : PmAccountHandle
  instrument : PmInstrumentHandle
  quantity : U256
  availability : PmPositionAvailability
  snapshot : PmSnapshotEvidence
  account_source : validateAccountSource source account = .ok ()
  deriving DecidableEq

/-! ### The complete account snapshot -/

/-- One complete answer about balances, allowances and positions. -/
structure PmCompleteAccountSnapshot where
  source : PmProductSource
  accountScope : PmAccountScope
  snapshot : PmSnapshotEvidence
  boundary : PmReconciliationRequestBoundary
  expectedAssets : List PmAssetId
  expectedSpenders : List PmSpenderId
  expectedInstruments : List PmInstrumentHandle
  balances : List PmBalanceEvent
  allowances : List PmAllowanceEvent
  positions : List PmPositionEvent
  account_source : validateAccountSource source accountScope.handle = .ok ()
  assets_le : expectedAssets.length ≤ maxPmAccountExpectedAssets
  spenders_le : expectedSpenders.length ≤ maxPmAccountExpectedSpenders
  instruments_le : expectedInstruments.length ≤ maxPmAccountExpectedInstruments
  assets_nodup : expectedAssets.Nodup
  spenders_nodup : expectedSpenders.Nodup
  instruments_nodup : expectedInstruments.Nodup
  spender_scope : ∀ spender ∈ expectedSpenders, spender.account = accountScope.handle ∧
    spender.requirement.chain = accountScope.chain ∧ spender.requirement.asset ∈ expectedAssets
  balances_le : balances.length ≤ expectedAssets.length + maxPmAccountDiagnosticExtraRows
  extra_balances_le : (balances.filter (·.asset ∉ expectedAssets)).length ≤
    maxPmAccountDiagnosticExtraRows
  balance_scope : ∀ row ∈ balances, row.account = accountScope.handle ∧ row.source = source ∧
    row.snapshot = snapshot
  balances_nodup : (balances.map (·.asset)).Nodup
  allowances_le : allowances.length ≤ expectedSpenders.length + maxPmAccountDiagnosticExtraRows
  extra_allowances_le : (allowances.filter (·.spender ∉ expectedSpenders)).length ≤
    maxPmAccountDiagnosticExtraRows
  allowance_scope : ∀ row ∈ allowances, row.spender.account = accountScope.handle ∧
    row.source = source ∧ row.snapshot = snapshot ∧
    row.spender.requirement.chain = accountScope.chain
  allowances_nodup : (allowances.map (·.spender)).Nodup
  positions_le : positions.length ≤ expectedInstruments.length + maxPmAccountDiagnosticExtraRows
  extra_positions_le : (positions.filter (·.instrument ∉ expectedInstruments)).length ≤
    maxPmAccountDiagnosticExtraRows
  position_scope : ∀ row ∈ positions, row.account = accountScope.handle ∧ row.source = source ∧
    row.snapshot = snapshot
  positions_nodup : (positions.map (·.instrument)).Nodup

instance : PmSourceBound PmCompleteAccountSnapshot := ⟨PmCompleteAccountSnapshot.source⟩

namespace PmCompleteAccountSnapshot

variable (s : PmCompleteAccountSnapshot)

/-- `none` if the asset is not expected, and
`some none` if the complete answer does not list it. -/
def expectedBalance (asset : PmAssetId) : Option (Option PmBalanceEvent) :=
  if asset ∈ s.expectedAssets then some (s.balances.find? (·.asset = asset)) else none

/-- `expected_allowance`. -/
def expectedAllowance (spender : PmSpenderId) : Option (Option PmAllowanceEvent) :=
  if spender ∈ s.expectedSpenders then some (s.allowances.find? (·.spender = spender)) else none

/-- `expected_position`. -/
def expectedPosition (instrument : PmInstrumentHandle) : Option (Option PmPositionEvent) :=
  if instrument ∈ s.expectedInstruments then
    some (s.positions.find? (·.instrument = instrument))
  else none

end PmCompleteAccountSnapshot

/-! ### Envelopes and the configured spenders -/

/-- `PmConnectionId`. -/
abbrev PmConnectionId := BoundedAscii 96

/-- An `EventEnvelope` with the connection and the receive clocks, which only a reconciliation
reads. -/
structure ServicedEnvelope (π : Type u) [PmSourceBound π] extends EventEnvelope π where
  connectionId : PmConnectionId
  localWallReceiveNs : UInt64
  monotonicReceiveNs : UInt64
  wall_ne_zero : localWallReceiveNs ≠ 0
  receive_ne_zero : monotonicReceiveNs ≠ 0
  receive_le : monotonicReceiveNs ≤ monotonicServiceNs

/-- `PmPrivateStateConfig` with what the account facts read of it: the exchange that has to be
able to spend the two assets. The other owners of private facts do not look at it. -/
structure PmAccountConfig extends PmPrivateStateConfig where
  exchange : EvmAddress
  spenderDomain : PmSpenderDomain
  collateral_kind : ∃ contract, collateralAsset = .collateral contract
  outcome_kind : ∃ contract token, outcomeAsset = .outcome contract token

namespace PmAccountConfig

variable (config : PmAccountConfig)

/-- A spender that the configuration requires. -/
def requiredSpender (asset : PmAssetId) : PmSpenderId :=
  ⟨config.account, config.accountScope.chain, config.exchange, config.spenderDomain, asset⟩

/-- `PmPrivateStateConfig::required_spenders`. The two differ in the asset only, and collateral
sorts before outcome tokens. -/
def requiredSpenders : List PmSpenderId :=
  [config.requiredSpender config.collateralAsset, config.requiredSpender config.outcomeAsset]

/-- The assets are those expected. -/
def expectedAssetsMatch (actual : List PmAssetId) : Bool :=
  actual.length == 2 && decide (config.collateralAsset ∈ actual) &&
    decide (config.outcomeAsset ∈ actual)

/-- The spenders are those expected. -/
def expectedSpendersMatch (actual : List PmSpenderId) : Bool :=
  actual.length == config.requiredSpenders.length &&
    config.requiredSpenders.all fun spender => decide (spender ∈ actual)

/-- The instruments are those expected. -/
def expectedInstrumentsMatch (actual : List PmInstrumentHandle) : Bool :=
  actual == [config.instrument]

theorem collateralAsset_ne_outcomeAsset : config.collateralAsset ≠ config.outcomeAsset := by
  obtain ⟨contract, hcol⟩ := config.collateral_kind
  obtain ⟨contract', token, hout⟩ := config.outcome_kind
  rw [hcol, hout]
  nofun

theorem nodup_requiredSpenders : config.requiredSpenders.Nodup := by
  have hne : config.requiredSpender config.collateralAsset ≠
      config.requiredSpender config.outcomeAsset := fun h =>
    config.collateralAsset_ne_outcomeAsset (congrArg (·.requirement.asset) h)
  simpa [requiredSpenders] using hne

end PmAccountConfig

end Reap.Core
