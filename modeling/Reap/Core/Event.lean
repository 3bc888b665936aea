import Reap.Core.Identity

/-!
# Order and fill events

The private events of the Polymarket core: an order's identity, its checked progress, and
the order and fill events that carry them. As with identities, the proof fields of a
structure are the checks of the source's constructor.
-/

namespace Reap.Core

/-- The errors of the event constructors that the modelled functions return. -/
inductive PmEventError where
  | missingOrderIdentity
  | orderIdentityAccountMismatch
  | cumulativeFillExceedsOriginal
  | orderStatusFillMismatch
  | missingFillVenueOrderIdentity
  | fillVenueOrderMismatch
  | accountSourceMismatch
  | wrongAccountSource
  deriving DecidableEq, Repr

/-! ### Order identities -/

/-- The accounts of a client key and a venue key agree, if both are there. -/
def SameAccount (client : Option PmClientOrderKey) (venue : Option PmVenueOrderKey) : Prop :=
  ∀ c ∈ client, ∀ v ∈ venue, c.account = v.account

instance (client : Option PmClientOrderKey) (venue : Option PmVenueOrderKey) :
    Decidable (SameAccount client venue) :=
  inferInstanceAs (Decidable (∀ c ∈ client, ∀ v ∈ venue, c.account = v.account))

/-- A client key, a venue key, or both, of one account. -/
structure PmOrderIdentity where
  clientOrderKey : Option PmClientOrderKey
  venueOrderKey : Option PmVenueOrderKey
  nonempty : ¬ (clientOrderKey = none ∧ venueOrderKey = none)
  sameAccount : SameAccount clientOrderKey venueOrderKey
  deriving DecidableEq

namespace PmOrderIdentity

/-- `new`. -/
def new (client : Option PmClientOrderKey) (venue : Option PmVenueOrderKey) :
    Except PmEventError PmOrderIdentity :=
  if hempty : client = none ∧ venue = none then .error .missingOrderIdentity
  else if hsame : SameAccount client venue then .ok ⟨client, venue, hempty, hsame⟩
  else .error .orderIdentityAccountMismatch

/-- The identity that has the client key only. -/
def ofClient (client : PmClientOrderKey) : PmOrderIdentity :=
  ⟨some client, none, nofun, fun _ _ _ hv => nomatch hv⟩

/-- The identity that has the venue key only. -/
def ofVenue (venue : PmVenueOrderKey) : PmOrderIdentity :=
  ⟨none, some venue, nofun, fun _ hc => nomatch hc⟩

/-- `account`. -/
def account (order : PmOrderIdentity) : PmAccountHandle :=
  match hc : order.clientOrderKey with
  | some client => client.account
  | none =>
    match hv : order.venueOrderKey with
    | some venue => venue.account
    | none => absurd ⟨hc, hv⟩ order.nonempty

variable {order : PmOrderIdentity}

theorem new_eq_ok_iff {client : Option PmClientOrderKey} {venue : Option PmVenueOrderKey} :
    new client venue = .ok order ↔ order.clientOrderKey = client ∧ order.venueOrderKey = venue := by
  constructor
  · intro h
    unfold new at h
    split_ifs at h
    cases h
    exact ⟨rfl, rfl⟩
  · rintro ⟨rfl, rfl⟩
    unfold new
    rw [dif_neg order.nonempty, dif_pos order.sameAccount]

theorem account_of_client {client : PmClientOrderKey} (h : order.clientOrderKey = some client) :
    order.account = client.account := by
  unfold account
  split
  · next c hc => cases hc.symm.trans h; rfl
  · next hc => cases hc.symm.trans h

theorem account_of_venue {venue : PmVenueOrderKey} (h : order.venueOrderKey = some venue) :
    order.account = venue.account := by
  unfold account
  split
  · next c hc => exact order.sameAccount c hc venue h
  · split
    · next v hv => cases hv.symm.trans h; rfl
    · next hv => cases hv.symm.trans h

end PmOrderIdentity

/-! ### Order progress -/

/-- `PmOrderStatus`. -/
inductive PmOrderStatus where
  | pending
  | «open»
  | partiallyFilled
  | filled
  | cancelled
  | rejected
  | expired
  deriving DecidableEq, Repr

/-- `is_terminal`. -/
def PmOrderStatus.isTerminal : PmOrderStatus → Bool
  | .filled | .cancelled | .rejected | .expired => true
  | .pending | .open | .partiallyFilled => false

/-- The check of `PmOrderProgress::new` that the status fits the filled quantity. -/
def PmOrderStatus.matchesFill (status : PmOrderStatus) (original cumulative : U256) : Bool :=
  match status with
  | .pending | .open => cumulative.isZero
  | .partiallyFilled => !cumulative.isZero && decide (cumulative < original)
  | .filled => cumulative == original
  | .rejected => cumulative.isZero
  | .cancelled | .expired => true

/-- How much of an order is filled, and what became of it. -/
structure PmOrderProgress where
  originalQuantity : PmQuantity
  cumulativeFilled : U256
  status : PmOrderStatus
  le_original : cumulativeFilled.value ≤ originalQuantity.protocolUnits.value
  status_matches : status.matchesFill originalQuantity.protocolUnits cumulativeFilled = true
  deriving DecidableEq

/-- `remaining_quantity_units`; the difference exists by `le_original`. -/
def PmOrderProgress.remainingQuantityUnits (progress : PmOrderProgress) : U256 :=
  (progress.originalQuantity.protocolUnits.checkedSub progress.cumulativeFilled).toOption.get
    (congrArg (·.toOption.isSome) (U256.checkedSub_ok progress.le_original))

/-- `validate_account_source`. -/
def validateAccountSource (source : PmProductSource) (account : PmAccountHandle) :
    Except PmEventError Unit :=
  match source with
  | .polymarketAccount _ sourceAccount =>
    if sourceAccount = account then .ok () else .error .accountSourceMismatch
  | .okxReference _ _ | .polymarketMarket _ _ => .error .wrongAccountSource

/-- `PmOrderEvent`. -/
structure PmOrderEvent where
  source : PmProductSource
  instrument : PmInstrumentHandle
  order : PmOrderIdentity
  side : PmOrderSide
  price : PmPrice
  progress : PmOrderProgress
  account_source : validateAccountSource source order.account = .ok ()
  deriving DecidableEq

/-- `account`. -/
def PmOrderEvent.account (event : PmOrderEvent) : PmAccountHandle := event.order.account

/-! ### Fills -/

/-- `PmFillRole`. -/
inductive PmFillRole where
  | maker
  | taker
  deriving DecidableEq, Repr

/-- How far the settlement of a trade has come. -/
inductive PmFillSettlementStatus where
  | matched
  | mined
  | confirmed
  | retrying
  | failed
  | matchedNotBroadcasted
  deriving DecidableEq, Repr

/-- A fee that is not known is never taken to be zero. -/
inductive PmFillFee where
  | known (asset : PmAssetId) (delta : PmSignedUnits)
  | unknown
  | incomplete
  deriving DecidableEq

/-- `PmFillExecution`. -/
structure PmFillExecution where
  side : PmOrderSide
  role : PmFillRole
  settlement : PmFillSettlementStatus
  price : PmPrice
  quantity : PmQuantity
  fee : PmFillFee
  deriving DecidableEq

/-- `PmFillEvent`. -/
structure PmFillEvent where
  source : PmProductSource
  instrument : PmInstrumentHandle
  fillKey : PmFillKey
  order : PmOrderIdentity
  execution : PmFillExecution
  venue_matches : order.venueOrderKey = some fillKey.venueOrder
  account_source : validateAccountSource source fillKey.account = .ok ()
  deriving DecidableEq

/-- `account`. -/
def PmFillEvent.account (event : PmFillEvent) : PmAccountHandle := event.fillKey.account

end Reap.Core
