import Reap.Core.Reconciliation

/-!
# Sample values

Values of the shared types, for the runs on concrete inputs in the other modules.
-/

namespace Reap.Core.Samples

theorem one_ne : (1 : UInt64) ≠ 0 := by decide

theorem two_ne : (2 : UInt64) ≠ 0 := by decide

theorem three_ne : (3 : UInt64) ≠ 0 := by decide

theorem four_ne : (4 : UInt64) ≠ 0 := by decide

theorem unobserved : ¬ ((none : Option SnapshotRevision).isSome = true ∧
    (none : Option PmPrivateOccurrence).isNone = true) := by decide

def address : EvmAddress := ⟨1, by decide⟩

def condition : HexBytes 32 := ⟨1, by decide⟩

def chain : PmChainId := ⟨137, by decide⟩

def token : PmTokenId := ⟨.fromU64 1, by decide⟩

def tick : PmTick := ⟨10000, by decide⟩

def venue : PmVenueOrderKey := ⟨⟨0⟩, ⟨[118, 49], by decide, by decide, by decide +kernel⟩⟩

def otherClient : PmClientOrderKey := ⟨⟨0⟩, ⟨2, by decide⟩⟩

def legOne : PmFillId := ⟨[102, 49], by decide, by decide, by decide +kernel⟩

def legTwo : PmFillId := ⟨[102, 50], by decide, by decide, by decide +kernel⟩

def connection : BoundedAscii 96 := ⟨[99, 49], by decide, by decide, by decide +kernel⟩

/-- One share. -/
def share : PmQuantity := ⟨.fromU64 1000000, by decide⟩

/-- A quarter of a share. -/
def quarter : PmQuantity := ⟨.fromU64 250000, by decide⟩

/-- Half the collateral unit, as a price and as an amount. -/
def half : PmPrice := ⟨500000, by decide, by decide⟩

def halfUnits : U256 := .fromU64 500000

theorem halfUnits_pos : ¬ (halfUnits.isZero = true ∧ U256.zero.isZero = true) := by decide

def accountScope : PmAccountScope where
  environment := ⟨[112, 109], by decide, by decide, by decide +kernel⟩
  chain := chain
  signer := address
  funder := address
  handle := ⟨0⟩

/-- The evidence of the first snapshot. -/
def evidence : PmSnapshotEvidence := ⟨⟨1⟩, one_ne⟩

/-- The position of an event on the private stream. -/
def streamed (sequence : UInt64) (h : sequence ≠ 0) : EventOrdering :=
  ⟨⟨1⟩, none, ⟨sequence⟩, one_ne, nofun, h⟩

/-- The position of an answer of the first snapshot. -/
def answered (sequence : UInt64) (h : sequence ≠ 0) : EventOrdering :=
  ⟨⟨1⟩, some ⟨1⟩, ⟨sequence⟩, one_ne, fun _ h => by cases h; exact one_ne, h⟩

/-- The request with sequence number 1 is answered with sequence number 2. -/
def boundary : PmReconciliationRequestBoundary := ⟨⟨1⟩, ⟨2⟩, one_ne, by decide +kernel⟩

end Reap.Core.Samples
