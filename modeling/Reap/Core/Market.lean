import Reap.Core.Identity

/-!
# Markets and books

The public side of the core: the metadata of a market, and the book messages of its
instruments. A book message keeps the venue's frame whole: one snapshot, one batch of price
changes with the best prices that the venue expects after it, one check of the best prices, or
one change of the tick.

The proof fields are the checks of the source's constructors. The hashes of the single price
changes, which no reducer reads, are left out.
-/

namespace Reap.Core

/-! ### Metadata -/

/-- `PmConditionId`. -/
abbrev PmConditionId := HexBytes 32

/-- `PmMarketId`. -/
abbrev PmMarketId := HexBytes 32

/-- `PmInstrumentId`. -/
structure PmInstrumentId where
  market : PmMarketId
  token : PmTokenId
  deriving DecidableEq

/-- `PmSpenderDomain`. -/
inductive PmSpenderDomain where
  | standard
  | negativeRisk
  deriving DecidableEq, Repr

/-- An exchange that must be allowed to spend an asset. -/
structure PmSpenderRequirement where
  chain : PmChainId
  spender : EvmAddress
  domain : PmSpenderDomain
  asset : PmAssetId
  deriving DecidableEq

/-- The order of the required assets: collateral first. -/
def PmAssetId.rank : PmAssetId → ℕ ×ₗ ℕ ×ₗ ℕ
  | .collateral contract => toLex (0, toLex (contract.value.toNat, 0))
  | .outcome contract token => toLex (1, toLex (contract.value.toNat, token.units.value))

/-- The order of the requirements: fields in the order of their declaration. -/
def PmSpenderRequirement.rank (requirement : PmSpenderRequirement) : ℕ ×ₗ ℕ ×ₗ ℕ ×ₗ ℕ ×ₗ ℕ ×ₗ ℕ :=
  toLex (requirement.chain.value.toNat, toLex (requirement.spender.value.toNat,
    toLex (match requirement.domain with | .standard => 0 | .negativeRisk => 1,
      requirement.asset.rank)))

/-- 1 to 96 printable ASCII bytes, without blanks at the ends. -/
structure PmOutcomeLabel where
  text : List UInt8
  ne_nil : text ≠ []
  length_le : text.length ≤ 96
  printable : ∀ byte ∈ text, 32 ≤ byte ∧ byte ≤ 126
  trimmed : text.head? ≠ some 32 ∧ text.getLast? ≠ some 32

instance : DecidableEq PmOutcomeLabel := fun a b =>
  decidable_of_iff (a.text = b.text) (by cases a; cases b; simp)

/-- `PmOutcomeMetadata`. -/
structure PmOutcomeMetadata where
  token : PmTokenId
  label : PmOutcomeLabel
  deriving DecidableEq

/-- `PmMarketLifecycle`. -/
structure PmMarketLifecycle where
  active : Bool
  closed : Bool
  archived : Bool
  acceptingOrders : Bool
  orderBookEnabled : Bool
  deriving DecidableEq

/-- At most this many. -/
def maxRequiredSpenders : ℕ := 8

/-- The spender domain of a market. -/
def spenderDomain (negativeRisk : Bool) : PmSpenderDomain :=
  if negativeRisk then .negativeRisk else .standard

/-- The requirement asks for another outcome token. -/
def PmSpenderRequirement.OtherOutcome (requirement : PmSpenderRequirement) (token : PmTokenId) :
    Prop :=
  ∃ contract other, requirement.asset = .outcome contract other ∧ other ≠ token

/-- `PmMarketMetadata`. The fixed array of required spenders is the list of those it holds,
which the constructor sorts. -/
structure PmMarketMetadata where
  condition : PmConditionId
  market : PmMarketId
  outcome : PmOutcomeMetadata
  lifecycle : PmMarketLifecycle
  tick : PmTick
  minimumOrderSize : PmQuantity
  negativeRisk : Bool
  chain : PmChainId
  exchange : EvmAddress
  requiredSpenders : List PmSpenderRequirement
  on_lot : minimumOrderSize.protocolUnits.value % clobV2LotUnits.toNat = 0
  spenders_ne_nil : requiredSpenders ≠ []
  spenders_length_le : requiredSpenders.length ≤ maxRequiredSpenders
  spenders_sorted : requiredSpenders.Pairwise fun a b => a.rank < b.rank
  spenders_match : ∀ requirement ∈ requiredSpenders,
    requirement.domain = spenderDomain negativeRisk ∧ requirement.chain = chain ∧
      requirement.spender = exchange ∧ ¬ requirement.OtherOutcome outcome.token
  deriving DecidableEq

/-! ### Integrity hashes -/

/-- How it was hashed. -/
inductive VenueEventHashAlgorithm where
  | sha1
  | sha256
  | opaqueBytes
  deriving DecidableEq, Repr

/-- A hash of at most 64 bytes that are not all zero. -/
structure VenueEventHash where
  algorithm : VenueEventHashAlgorithm
  bytes : List UInt8
  length_le : bytes.length ≤ 64
  ne_zero : ∃ byte ∈ bytes, byte ≠ 0
  deriving DecidableEq

/-! ### Book messages -/

/-- `MAX_PM_BOOK_LEVELS`. -/
def maxPmBookLevels : ℕ := 2048

/-- `PmBookSide`. -/
inductive PmBookSide where
  | bid
  | ask
  deriving DecidableEq, Repr

/-- Zero stands for the deletion of a level. -/
inductive PmBookQuantity where
  | delete
  | quantity (quantity : PmQuantity)
  deriving DecidableEq

/-- `PmBookLevel`. -/
structure PmBookLevel where
  side : PmBookSide
  price : PmPrice
  quantity : PmBookQuantity
  deriving DecidableEq

/-- A level with a positive quantity. -/
structure PmBookPoint where
  price : PmPrice
  quantity : PmQuantity
  deriving DecidableEq

instance : LinearOrder PmPrice :=
  LinearOrder.lift' (fun price => price.units.toNat) fun a b h => by
    obtain ⟨units, _, _⟩ := a
    cases UInt32.toNat_inj.mp h
    rfl

theorem PmPrice.lt_iff {a b : PmPrice} : a < b ↔ a.units.toNat < b.units.toNat := Iff.rfl

/-- Best prices that are not crossed. -/
structure PmBookTop where
  bid : Option PmBookPoint
  ask : Option PmBookPoint
  uncrossed : ∀ b ∈ bid, ∀ a ∈ ask, b.price < a.price
  deriving DecidableEq

/-- `new`. -/
def PmBookTop.new (bid ask : Option PmBookPoint) : Option PmBookTop :=
  if h : ∀ b ∈ bid, ∀ a ∈ ask, b.price < a.price then some ⟨bid, ask, h⟩ else none

/-- `PmBookSnapshot`. -/
structure PmBookSnapshot where
  levels : List PmBookLevel
  length_le : levels.length ≤ maxPmBookLevels
  no_delete : ∀ level ∈ levels, level.quantity ≠ .delete
  deriving DecidableEq

/-- Best prices as the venue gives them. -/
structure PmBookTopCheck where
  bid : Option PmPrice
  ask : Option PmPrice
  deriving DecidableEq

/-- `PmBookDeltaBatch`. -/
structure PmBookDeltaBatch where
  changes : List PmBookLevel
  expectedTop : PmBookTopCheck
  length_le : changes.length ≤ maxPmBookLevels
  deriving DecidableEq

/-- `PmBookUpdate`. -/
inductive PmBookUpdate where
  | snapshot (snapshot : PmBookSnapshot)
  | deltaBatch (batch : PmBookDeltaBatch)
  | topCheck (top : PmBookTopCheck)
  | tickSizeChanged (old new : PmTick)
  deriving DecidableEq

end Reap.Core
