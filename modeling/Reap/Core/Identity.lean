import Reap.Core.Numeric
import Mathlib.Data.Prod.Lex
import Mathlib.Data.List.Lex
import Mathlib.Order.Lattice

/-!
# Identities

The identities of the Polymarket core: fixed-width hexadecimal identities, bounded ASCII
identities, compact handles, revision numbers, and the account-scoped keys built from them.
Every identity that keys a table is linearly ordered, by the order that the source derives:
fields are compared in the order of their declaration, and fixed-width byte arrays are
compared byte by byte, which is the order of the big-endian numbers they hold.

A structure's proof fields are the checks of the source's constructor, so only identities
that the source can build exist here.
-/

namespace Reap.Core

universe u

/-! ### Identity components -/

/-- `HexBytes<N>`: a nonzero array of `n` bytes, held as its big-endian number. -/
structure HexBytes (n : ℕ) where
  value : BitVec (8 * n)
  ne_zero : value ≠ 0
  deriving DecidableEq

/-- An EVM address. -/
abbrev EvmAddress := HexBytes 20

/-- The client-order identity returned on the wire. -/
abbrev PmClientOrderId := HexBytes 16

/-- The first client order. -/
def PmClientOrderId.one : PmClientOrderId := ⟨1, by decide⟩

/-- `BoundedAscii<N>`: one to `n` visible ASCII bytes. -/
structure BoundedAscii (n : ℕ) where
  text : List UInt8
  ne_nil : text ≠ []
  length_le : text.length ≤ n
  visible : ∀ byte ∈ text, 33 ≤ byte ∧ byte ≤ 126
  deriving DecidableEq

/-- `PmVenueOrderId`. -/
abbrev PmVenueOrderId := BoundedAscii 96

/-- `PmFillId`. -/
abbrev PmFillId := BoundedAscii 96

/-- `PmEnvironmentId`. -/
abbrev PmEnvironmentId := BoundedAscii 32

/-- A nonzero token number. -/
structure PmTokenId where
  units : U256
  ne_zero : units.value ≠ 0

instance : DecidableEq PmTokenId := fun a b =>
  decidable_of_iff (a.units = b.units) (by cases a; cases b; simp)

/-- A nonzero chain number. -/
structure PmChainId where
  value : UInt64
  ne_zero : value ≠ 0
  deriving DecidableEq

/-- The kinds of compact handles. -/
inductive HandleKind where
  | okxReference
  | market
  | token
  | account
  | source
  deriving DecidableEq, Repr

/-- `compact_handle!`: the ordinal of a configured thing. -/
structure CompactHandle (kind : HandleKind) where
  ordinal : UInt16
  deriving DecidableEq

/-- `OkxReferenceHandle`. -/
abbrev OkxReferenceHandle := CompactHandle .okxReference

/-- `PmMarketHandle`. -/
abbrev PmMarketHandle := CompactHandle .market

/-- `PmTokenHandle`. -/
abbrev PmTokenHandle := CompactHandle .token

/-- `PmAccountHandle`. -/
abbrev PmAccountHandle := CompactHandle .account

/-- `PmSourceHandle`. -/
abbrev PmSourceHandle := CompactHandle .source

/-- The kinds of revision identities. -/
inductive RevisionKind where
  | connectionEpoch
  | snapshot
  | ingress
  deriving DecidableEq, Repr

/-- `revision_identity!`: a number that orders the things of its kind. -/
structure RevisionIdentity (kind : RevisionKind) where
  value : UInt64
  deriving DecidableEq

/-- `ConnectionEpoch`. -/
abbrev ConnectionEpoch := RevisionIdentity .connectionEpoch

/-- `SnapshotRevision`. -/
abbrev SnapshotRevision := RevisionIdentity .snapshot

/-- `IngressSequence`. -/
abbrev IngressSequence := RevisionIdentity .ingress

/-! ### The derived orders -/

instance (n : ℕ) : LinearOrder (HexBytes n) :=
  LinearOrder.lift' (fun bytes => bytes.value.toNat) <| by
    rintro ⟨a, ha⟩ ⟨b, hb⟩ h
    cases BitVec.eq_of_toNat_eq h
    rfl

/-- The length first, then the bytes: the padding that follows them never decides. -/
def BoundedAscii.rank {n : ℕ} (ascii : BoundedAscii n) : ℕ ×ₗ List ℕ :=
  toLex (ascii.text.length, ascii.text.map UInt8.toNat)

theorem BoundedAscii.rank_injective (n : ℕ) :
    Function.Injective (BoundedAscii.rank : BoundedAscii n → ℕ ×ₗ List ℕ) := by
  rintro ⟨a, _, _, _⟩ ⟨b, _, _, _⟩ h
  have hbyt : a.map UInt8.toNat = b.map UInt8.toNat := congrArg (fun r => (ofLex r).2) h
  cases List.map_injective_iff.mpr (fun _ _ => UInt8.toNat_inj.mp) hbyt
  rfl

instance (n : ℕ) : LinearOrder (BoundedAscii n) :=
  LinearOrder.lift' BoundedAscii.rank (BoundedAscii.rank_injective n)

instance (kind : HandleKind) : LinearOrder (CompactHandle kind) :=
  LinearOrder.lift' (fun handle => handle.ordinal.toNat) <| by
    rintro ⟨a⟩ ⟨b⟩ h
    cases UInt16.toNat_inj.mp h
    rfl

instance (kind : RevisionKind) : LinearOrder (RevisionIdentity kind) :=
  LinearOrder.lift' (fun revision => revision.value.toNat) <| by
    rintro ⟨a⟩ ⟨b⟩ h
    cases UInt64.toNat_inj.mp h
    rfl

/-! ### Keys -/

/-- A value is ranked by two of its parts, which determine it. -/
theorem injective_toLex {α β γ : Type*} {first : α → β} {second : α → γ}
    (h : ∀ x y, first x = first y → second x = second y → x = y) :
    Function.Injective fun x => (toLex (first x, second x) : β ×ₗ γ) := by
  intro x y hxy
  obtain ⟨hfst, hsnd⟩ := Prod.mk.inj (toLex.injective hxy)
  exact h x y hfst hsnd

/-- `account_scoped_key!`: an identity together with the account it belongs to. -/
structure AccountScopedKey (ι : Type u) where
  account : PmAccountHandle
  id : ι
  deriving DecidableEq

/-- `PmClientOrderKey`. -/
abbrev PmClientOrderKey := AccountScopedKey PmClientOrderId

/-- `PmVenueOrderKey`. -/
abbrev PmVenueOrderKey := AccountScopedKey PmVenueOrderId

/-- Account first, then identity. -/
def AccountScopedKey.rank {ι : Type u} (key : AccountScopedKey ι) : PmAccountHandle ×ₗ ι :=
  toLex (key.account, key.id)

instance {ι : Type u} [LinearOrder ι] : LinearOrder (AccountScopedKey ι) :=
  LinearOrder.lift' AccountScopedKey.rank <| injective_toLex <| by
    rintro ⟨⟩ ⟨⟩ rfl rfl
    rfl

/-- One exact fill leg. A venue trade can have several maker legs, so the venue
order is part of the identity. -/
structure PmFillKey where
  venueOrder : PmVenueOrderKey
  id : PmFillId
  deriving DecidableEq

/-- `account`. -/
def PmFillKey.account (key : PmFillKey) : PmAccountHandle := key.venueOrder.account

/-- Venue order first, then the fill's own identity. -/
def PmFillKey.rank (key : PmFillKey) : PmVenueOrderKey ×ₗ PmFillId :=
  toLex (key.venueOrder, key.id)

instance : LinearOrder PmFillKey := LinearOrder.lift' PmFillKey.rank <| injective_toLex <| by
  rintro ⟨⟩ ⟨⟩ rfl rfl
  rfl

/-- `PmInstrumentHandle`. -/
structure PmInstrumentHandle where
  market : PmMarketHandle
  token : PmTokenHandle
  deriving DecidableEq

/-- The exact account an owner acts for. -/
structure PmAccountScope where
  environment : PmEnvironmentId
  chain : PmChainId
  signer : EvmAddress
  funder : EvmAddress
  handle : PmAccountHandle
  deriving DecidableEq

/-- `PmAssetId`. -/
inductive PmAssetId where
  | collateral (contract : EvmAddress)
  | outcome (contract : EvmAddress) (token : PmTokenId)
  deriving DecidableEq

/-- Where an event comes from. -/
inductive PmProductSource where
  | okxReference (source : PmSourceHandle) (reference : OkxReferenceHandle)
  | polymarketMarket (source : PmSourceHandle) (token : PmTokenHandle)
  | polymarketAccount (source : PmSourceHandle) (account : PmAccountHandle)
  deriving DecidableEq

/-- An ingress sequence number within one reconnect epoch. Sequence
numbers may restart after a reconnect, so the epoch is compared first. -/
structure PmPrivateOccurrence where
  epoch : ConnectionEpoch
  ingress : IngressSequence
  deriving DecidableEq

/-- Epoch first, then the ingress sequence. -/
def PmPrivateOccurrence.rank (occurrence : PmPrivateOccurrence) :
    ConnectionEpoch ×ₗ IngressSequence :=
  toLex (occurrence.epoch, occurrence.ingress)

instance : LinearOrder PmPrivateOccurrence :=
  LinearOrder.lift' PmPrivateOccurrence.rank <| injective_toLex <| by
    rintro ⟨⟩ ⟨⟩ rfl rfl
    rfl

end Reap.Core
