import Reap.Base.Check
import Reap.Gateway.Idempotency
import Mathlib.Algebra.Order.Field.Rat
import Mathlib.Algebra.Order.Ring.NNRat
import Mathlib.Data.List.Induction

/-!
# Private orders of the gateway

`PrivateStateReducer` joins two streams of an exchange account: order rows, which carry a status and
a cumulative filled quantity, and fill rows. An order is known by the client order id or, where a
row has none, by the exchange order id; two maps bind the ids to each other.

Quantities are exact and non-negative, prices are exact. The key of an update has every field but
the symbol, each as a code that tells its values apart, so it is the update without its symbol here.

## What is proved

* `identities_kept` — the ids stay one-to-one, a binding lasts as long as its order, and a refused
  row changes nothing.
* `keepsTerminalOrders_iff` — a row reopens a terminal order exactly if it is a late fill that
  leaves a part of the order open; `keepsTerminal_run` carries it along runs.
-/

namespace Reap.Gateway

open Base Function Option List

/-- The status of an order; the last three are terminal. -/
inductive OrderStatus where
  | pendingNew
  | live
  | partiallyFilled
  | filled
  | cancelled
  | rejected
  deriving DecidableEq, Repr

/-- What an update reports of an order. -/
inductive OrderEvent where
  | pendingNew
  | new
  | partialFill
  | fullyFilled
  | cancelled
  | rejected
  deriving DecidableEq, Repr

/-- The side of a fill that was in the book. -/
inductive FillLiquidity where
  | maker
  | taker
  deriving DecidableEq, Repr

/-- A fee; a rebate is negative. -/
structure FillFee where
  amount : ℚ
  currency : String
  deriving DecidableEq

/-- What is known of an order. A quantity not yet filled is open. -/
structure OrderSnapshot where
  orderId : String
  symbol : String
  side : Side
  qty : ℚ≥0
  price : ℚ
  /-- Known of orders that were registered here only. -/
  timeInForce : Option TimeInForce
  status : OrderStatus
  openQty : ℚ≥0
  /-- The cumulative filled quantity. -/
  filledQty : ℚ≥0 := 0
  avgFillPrice : ℚ := 0
  lastFillQty : ℚ≥0 := 0
  lastFillPrice : ℚ := 0
  lastFillLiquidity : Option FillLiquidity := none
  lastFillFee : Option FillFee := none
  reason : String
  deriving DecidableEq

/-- An update has the fields of the snapshot it leads to, a time and an event. -/
structure OrderUpdate extends OrderSnapshot where
  tsMs : ℕ
  event : OrderEvent
  deriving DecidableEq

/-- `is_terminal`. -/
def OrderStatus.isTerminal : OrderStatus → Bool
  | .filled | .cancelled | .rejected => true
  | _ => false

/-- The state of an order row; it has the same values as the status it stands for. -/
abbrev PrivateOrderState := OrderStatus

/-- `canonical_event`. -/
def canonicalEvent : PrivateOrderState → OrderEvent
  | .pendingNew => .pendingNew
  | .live => .new
  | .partiallyFilled => .partialFill
  | .filled => .fullyFilled
  | .cancelled => .cancelled
  | .rejected => .rejected

/-- An order row of the exchange. An id that is missing is empty, or `0` for the client. -/
structure PrivateOrderUpdate where
  tsMs : ℕ
  exchangeOrderId : String
  clientOrderId : String
  symbol : String
  side : Side
  state : PrivateOrderState
  price : ℚ
  qty : ℚ≥0
  cumulativeFilledQty : ℚ≥0
  averageFillPrice : ℚ
  lastFillQty : ℚ≥0
  lastFillPrice : ℚ
  liquidity : Option FillLiquidity
  lastFillFee : Option FillFee
  fillId : Option String
  rejectReason : String

/-- A fill row of the exchange. -/
structure RemoteFill where
  fillId : String
  exchangeOrderId : String
  clientOrderId : String
  symbol : String
  side : Side
  price : ℚ
  qty : ℚ≥0
  liquidity : FillLiquidity
  fee : Option FillFee
  tsMs : ℕ

/-- Why a row or a binding is refused. -/
inductive PrivateOrderIdentityError where
  | missingOrderId
  | missingExchangeOrderId (clientOrderId : String)
  | unknownClientOrderId (clientOrderId : String)
  | exchangeOrderBindingConflict (exchangeOrderId existingClientOrderId clientOrderId : String)
  | clientOrderBindingConflict (clientOrderId existingExchangeOrderId exchangeOrderId : String)
  | symbolMismatch (orderId expected actual : String)
  | sideMismatch (orderId : String) (expected actual : Side)
  deriving DecidableEq

/-- What tells two order rows of an order apart. -/
structure PrivateVersion where
  orderId : String
  tsMs : ℕ
  state : PrivateOrderState
  cumulativeFilledQty : ℚ≥0
  lastFillQty : ℚ≥0
  fillId : Option String
  deriving DecidableEq

/-- `PrivateStateReducer`, without the balances and positions. -/
structure PrivateStateReducer where
  /-- The orders, by the id they are known by. -/
  orders : String → Option OrderSnapshot := fun _ => none
  /-- The keys of the updates that were applied to the orders. -/
  seenUpdates : List OrderUpdate := []
  exchangeToClient : String → Option String := fun _ => none
  clientToExchange : String → Option String := fun _ => none
  /-- The order rows that were accepted. -/
  seenVersions : List PrivateVersion := []
  /-- The fill ids that were seen, by symbol. -/
  seenFillIds : String → String → Bool := fun _ _ => false
  /-- Fill ids of an older journal, which has no symbols. -/
  legacySeenFillIds : String → Bool := fun _ => false
  /-- The filled quantity recorded of an order. -/
  cumulativeFills : String → Option ℚ≥0 := fun _ => none
  /-- The latest time of an order's rows. -/
  lastOrderUpdateMs : String → Option ℕ := fun _ => none

namespace PrivateStateReducer

variable (s : PrivateStateReducer) (orderId clientOrderId exchangeOrderId : String)

/-- `has_seen_fill`. -/
def hasSeenFill (symbol fillId : String) : Bool :=
  s.legacySeenFillIds fillId || s.seenFillIds symbol fillId

/-- The client order id, or else the one bound to the exchange order id. -/
def resolveOrderId : String :=
  if clientOrderId = "" ∨ clientOrderId = "0" then
    (s.exchangeToClient exchangeOrderId).getD exchangeOrderId
  else clientOrderId

/-- Neither id is bound to another one. -/
def validateExchangeBinding : Except PrivateOrderIdentityError Unit :=
  if exchangeOrderId = "" then .ok ()
  else
    match (s.exchangeToClient exchangeOrderId).filter (· ≠ orderId) with
    | some existing => .error (.exchangeOrderBindingConflict exchangeOrderId existing orderId)
    | none =>
      match (s.clientToExchange orderId).filter (· ≠ exchangeOrderId) with
      | some existing => .error (.clientOrderBindingConflict orderId existing exchangeOrderId)
      | none => .ok ()

/-- Symbol and side do not change. -/
def validateExistingOrderIdentity (existing : Option OrderSnapshot) (symbol : String)
    (side : Side) : Except PrivateOrderIdentityError Unit :=
  match existing with
  | none => .ok ()
  | some existing =>
    if existing.symbol ≠ symbol then .error (.symbolMismatch orderId existing.symbol symbol)
    else if existing.side ≠ side then .error (.sideMismatch orderId existing.side side)
    else .ok ()

/-- The checks that both kinds of rows begin with; they give the id of the order. A fill whose order
is not known passes the last check, and is ignored after it. -/
def identify (symbol : String) (side : Side) : Except PrivateOrderIdentityError String :=
  let orderId := s.resolveOrderId clientOrderId exchangeOrderId
  if orderId = "" then .error .missingOrderId
  else do
    s.validateExchangeBinding orderId exchangeOrderId
    validateExistingOrderIdentity orderId (s.orders orderId) symbol side
    .ok orderId

/-- Both maps, with an order and its exchange order id. -/
def withBinding : PrivateStateReducer :=
  if exchangeOrderId = "" then s
  else { s with
    exchangeToClient := update s.exchangeToClient exchangeOrderId (some orderId)
    clientToExchange := update s.clientToExchange orderId (some exchangeOrderId) }

/-- `seen_fill_ids_by_symbol`, with a fill id. -/
def withFillId (symbol fillId : String) : PrivateStateReducer :=
  { s with seenFillIds := fun sym id => (sym == symbol && id == fillId) || s.seenFillIds sym id }

/-- `UpdateKey::from`. -/
def updateKey (update : OrderUpdate) : OrderUpdate := { update with symbol := "" }

/-- `OrderReducer::apply_update`. -/
def applyUpdate (update : OrderUpdate) : Option OrderUpdate × PrivateStateReducer :=
  if updateKey update ∈ s.seenUpdates then (none, s)
  else
    let snapshot := match s.orders update.orderId with
      | none => update.toOrderSnapshot
      | some existing => { update.toOrderSnapshot with
        timeInForce := update.timeInForce <|> existing.timeInForce }
    (some update, { s with
      seenUpdates := updateKey update :: s.seenUpdates
      orders := Function.update s.orders update.orderId (some snapshot) })

/-- `bind_exchange_order_id`, after an acknowledgement. -/
def bindExchangeOrderId : Except PrivateOrderIdentityError Unit × PrivateStateReducer :=
  if exchangeOrderId = "" then (.error (.missingExchangeOrderId clientOrderId), s)
  else if (s.orders clientOrderId).isNone then (.error (.unknownClientOrderId clientOrderId), s)
  else
    match s.validateExchangeBinding clientOrderId exchangeOrderId with
    | .error error => (.error error, s)
    | .ok () => (.ok (), s.withBinding clientOrderId exchangeOrderId)

/-- `OrderSnapshot::from_new`. -/
def fromNew (order : NewOrder) : OrderSnapshot :=
  { orderId := clientOrderId, symbol := order.symbol, side := order.side, qty := order.qty
    price := order.price, timeInForce := some order.timeInForce, status := .pendingNew
    openQty := order.qty, reason := order.reason }

/-- `register_local_order`, and `register_local_order_at` where a time is given. -/
def registerLocalOrder (order : NewOrder) (tsMs : Option ℕ) : PrivateStateReducer :=
  if (s.orders clientOrderId).isSome then s
  else
    let snapshot := fromNew clientOrderId order
    let reason := if order.reason = "" then "pending_new" else s!"{order.reason}:pending_new"
    { s with
      orders := update s.orders clientOrderId (some snapshot)
      seenUpdates := match tsMs with
        | none => s.seenUpdates
        | some tsMs => updateKey ⟨{ snapshot with reason := reason }, tsMs, .pendingNew⟩ ::
          s.seenUpdates
      lastOrderUpdateMs := match tsMs with
        | none => s.lastOrderUpdateMs
        | some tsMs => update s.lastOrderUpdateMs clientOrderId (some tsMs) }

/-- `remove_local_order`. -/
def removeLocalOrder : PrivateStateReducer :=
  { s with
    exchangeToClient := match s.clientToExchange clientOrderId with
      | none => s.exchangeToClient
      | some exchangeOrderId => update s.exchangeToClient exchangeOrderId none
    clientToExchange := update s.clientToExchange clientOrderId none
    orders := update s.orders clientOrderId none }

/-! ### Order rows -/

/-- The filled quantity known before a row. -/
def prior : ℚ≥0 := (s.cumulativeFills orderId).getD 0

/-- A row that says nothing new. -/
def Ignored (update : PrivateOrderUpdate) : Prop :=
  update.cumulativeFilledQty ≤ s.prior orderId ∧
    ((∃ order ∈ s.orders orderId, order.status = update.state ∧ (order.status.isTerminal = true ∨
        ∃ fillId ∈ update.fillId, s.hasSeenFill update.symbol fillId = true)) ∨
      update.tsMs < (s.lastOrderUpdateMs orderId).getD 0 ∨
      ((∃ order ∈ s.orders orderId, order.status.isTerminal = true) ∧
        update.state.isTerminal = false))

instance (update : PrivateOrderUpdate) : Decidable (s.Ignored orderId update) :=
  inferInstanceAs (Decidable (_ ∧ _))

/-- The update that an order row leads to. -/
def canonicalOrder (update : PrivateOrderUpdate) : OrderUpdate :=
  let existing := s.orders orderId
  let prior := s.prior orderId
  let cumulative := max update.cumulativeFilledQty prior
  let fillIdIsNew := update.fillId.any fun fillId => !s.hasSeenFill update.symbol fillId
  let inferredFill := cumulative - prior
  let lastFillQty :=
    if fillIdIsNew || inferredFill > 0 then max update.lastFillQty inferredFill else 0
  let qty := if update.qty > 0 then update.qty else (existing.map (·.qty)).getD cumulative
  let status := match existing with
    | some order =>
      if order.status.isTerminal && !update.state.isTerminal then order.status else update.state
    | none => update.state
  { tsMs := update.tsMs
    orderId := orderId
    symbol := update.symbol
    side := update.side
    event := if lastFillQty > 0 then (if status = .filled then .fullyFilled else .partialFill)
      else canonicalEvent update.state
    status := status
    price := if update.price > 0 then update.price else (existing.map (·.price)).getD 0
    timeInForce := existing.bind (·.timeInForce)
    qty := qty
    openQty := qty - cumulative
    filledQty := cumulative
    avgFillPrice :=
      if update.averageFillPrice > 0 then update.averageFillPrice
      else if inferredFill > 0 ∧ update.lastFillPrice > 0 ∧ cumulative > 0 then
        ((existing.map fun order => order.avgFillPrice * (prior : ℚ)).getD 0 +
          update.lastFillPrice * (inferredFill : ℚ)) / (cumulative : ℚ)
      else (existing.map (·.avgFillPrice)).getD 0
    lastFillQty := lastFillQty
    lastFillPrice := if lastFillQty > 0 then update.lastFillPrice else 0
    lastFillLiquidity := if lastFillQty > 0 then update.liquidity else none
    lastFillFee := if lastFillQty > 0 then update.lastFillFee else none
    reason :=
      let reason := ((existing.map (·.reason)).filter (· ≠ "")).getD "okx_private"
      if update.rejectReason = "" then reason else s!"{reason}:{update.rejectReason}" }

/-- `apply_order`. -/
def applyOrder (update : PrivateOrderUpdate) :
    Except PrivateOrderIdentityError (Option OrderUpdate) × PrivateStateReducer :=
  match s.identify update.clientOrderId update.exchangeOrderId update.symbol update.side with
  | .error error => (.error error, s)
  | .ok orderId =>
    let version : PrivateVersion := ⟨orderId, update.tsMs, update.state, update.cumulativeFilledQty,
      update.lastFillQty, update.fillId⟩
    if s.Ignored orderId update ∨ version ∈ s.seenVersions then (.ok none, s)
    else
      let canonical := s.canonicalOrder orderId update
      let bound := { s with seenVersions := version :: s.seenVersions }.withBinding orderId
        update.exchangeOrderId
      let filled := match update.fillId with
        | some fillId =>
          if s.hasSeenFill update.symbol fillId then bound
          else bound.withFillId update.symbol fillId
        | none => bound
      let (answer, s') := { filled with
        lastOrderUpdateMs := Function.update s.lastOrderUpdateMs orderId
          (some (max update.tsMs ((s.lastOrderUpdateMs orderId).getD 0)))
        cumulativeFills := Function.update s.cumulativeFills orderId
          (some canonical.filledQty) }.applyUpdate canonical
      (.ok answer, s')

/-! ### Fill rows -/

/-- The update that a fill of `appliedQty` leads to. -/
def canonicalFill (existing : OrderSnapshot) (fill : RemoteFill) (appliedQty : ℚ≥0) : OrderUpdate :=
  let cumulative := existing.filledQty + appliedQty
  let openQty := existing.qty - cumulative
  { existing with
    tsMs := fill.tsMs
    orderId := orderId
    symbol := fill.symbol
    side := fill.side
    event := if openQty = 0 then .fullyFilled else .partialFill
    status := if openQty = 0 then .filled else .partiallyFilled
    openQty := openQty
    filledQty := cumulative
    avgFillPrice :=
      (existing.avgFillPrice * existing.filledQty + fill.price * appliedQty) / cumulative
    lastFillQty := appliedQty
    lastFillPrice := fill.price
    lastFillLiquidity := some fill.liquidity
    lastFillFee := fill.fee }

/-- `apply_fill`, which has no check for a terminal order. -/
def applyFill (fill : RemoteFill) :
    Except PrivateOrderIdentityError (Option OrderUpdate) × PrivateStateReducer :=
  match s.identify fill.clientOrderId fill.exchangeOrderId fill.symbol fill.side with
  | .error error => (.error error, s)
  | .ok orderId =>
    match s.orders orderId with
    | none => (.ok none, s)
    | some existing =>
      if s.hasSeenFill fill.symbol fill.fillId then (.ok none, s)
      else
        let bound := (s.withFillId fill.symbol fill.fillId).withBinding orderId fill.exchangeOrderId
        let appliedQty := min fill.qty existing.openQty
        if appliedQty = 0 then (.ok none, bound)
        else
          let canonical := canonicalFill orderId existing fill appliedQty
          let (answer, s') := { bound with
            cumulativeFills := update s.cumulativeFills orderId
              (some canonical.filledQty) }.applyUpdate canonical
          (.ok answer, s')

/-! ### Runs -/

/-- A call that keeps every order. -/
inductive Call where
  | register (clientOrderId : String) (order : NewOrder) (tsMs : Option ℕ)
  | bind (clientOrderId exchangeOrderId : String)
  | order (update : PrivateOrderUpdate)
  | fill (fill : RemoteFill)

/-- A call; a removal forgets an order and its binding. -/
inductive Op where
  | call (call : Call)
  | remove (clientOrderId : String)

/-- What a call answers, without the value, and what it leaves. -/
def call : Call → Except PrivateOrderIdentityError Unit × PrivateStateReducer
  | .register clientOrderId order tsMs => (.ok (), s.registerLocalOrder clientOrderId order tsMs)
  | .bind clientOrderId exchangeOrderId => s.bindExchangeOrderId clientOrderId exchangeOrderId
  | .order update => ((s.applyOrder update).1.map fun _ => (), (s.applyOrder update).2)
  | .fill fill => ((s.applyFill fill).1.map fun _ => (), (s.applyFill fill).2)

/-- `call`, or a removal. -/
def perform : Op → Except PrivateOrderIdentityError Unit × PrivateStateReducer
  | .call c => s.call c
  | .remove clientOrderId => (.ok (), s.removeLocalOrder clientOrderId)

/-! ### What a row does -/

section

variable {s} {s' : PrivateStateReducer} {orderId exchangeOrderId : String}

theorem validateExchangeBinding_ok (h : s.validateExchangeBinding orderId exchangeOrderId = .ok ())
    (hne : exchangeOrderId ≠ "") :
    (∀ c, s.exchangeToClient exchangeOrderId = some c → c = orderId) ∧
      ∀ e, s.clientToExchange orderId = some e → e = exchangeOrderId := by
  unfold validateExchangeBinding at h
  rw [if_neg hne] at h
  split at h
  · cases h
  · rename_i hexc
    split at h
    · cases h
    · rename_i hcl
      simp only [filter_eq_none_iff, decide_eq_true_eq, not_not] at hexc hcl
      exact ⟨hexc, hcl⟩

theorem identify_ok {clientOrderId symbol : String} {side : Side}
    (h : s.identify clientOrderId exchangeOrderId symbol side = .ok orderId) :
    s.validateExchangeBinding orderId exchangeOrderId = .ok () := by
  simp only [identify] at h
  split_ifs at h
  obtain ⟨_, hval, h⟩ := bind_eq_ok.mp h
  obtain ⟨_, _, h⟩ := bind_eq_ok.mp h
  cases h
  exact hval

/-- An update that was seen before changes nothing; any other sets the order. -/
theorem applyUpdate_cases (s : PrivateStateReducer) (u : OrderUpdate) :
    (updateKey u ∈ s.seenUpdates ∧ (s.applyUpdate u).2 = s) ∨
      ∃ snapshot : OrderSnapshot, snapshot.status = u.status ∧ snapshot.filledQty = u.filledQty ∧
        (s.applyUpdate u).2 = { s with
          seenUpdates := updateKey u :: s.seenUpdates
          orders := update s.orders u.orderId (some snapshot) } := by
  by_cases hseen : updateKey u ∈ s.seenUpdates
  · exact .inl ⟨hseen, by simp [applyUpdate, hseen]⟩
  · right
    cases hord : s.orders u.orderId with
    | none => exact ⟨u.toOrderSnapshot, rfl, rfl, by simp [applyUpdate, hseen, hord]⟩
    | some existing =>
      exact ⟨{ u.toOrderSnapshot with timeInForce := u.timeInForce <|> existing.timeInForce }, rfl,
        rfl, by simp [applyUpdate, hseen, hord]⟩

/-- What an accepted row leaves: the ids are bound, and the order is set by an update, or it is not
changed. -/
structure Accepts (s : PrivateStateReducer) (orderId exchangeOrderId : String)
    (update : Option OrderUpdate) (s' : PrivateStateReducer) : Prop where
  valid : s.validateExchangeBinding orderId exchangeOrderId = .ok ()
  exchangeToClient : s'.exchangeToClient = (s.withBinding orderId exchangeOrderId).exchangeToClient
  clientToExchange : s'.clientToExchange = (s.withBinding orderId exchangeOrderId).clientToExchange
  orders : s'.orders = (update.elim s fun u => (s.applyUpdate u).2).orders
  seenUpdates : s'.seenUpdates = (update.elim s fun u => (s.applyUpdate u).2).seenUpdates
  cumulativeFills : s'.cumulativeFills = update.elim s.cumulativeFills fun u =>
    Function.update s.cumulativeFills orderId (some u.filledQty)

/-- A row that is accepted, from the state `t` in which its ids are bound. -/
theorem Accepts.of_applyUpdate {t : PrivateStateReducer} {u : OrderUpdate}
    (hval : s.validateExchangeBinding orderId exchangeOrderId = .ok ())
    (hexc : t.exchangeToClient = (s.withBinding orderId exchangeOrderId).exchangeToClient)
    (hcl : t.clientToExchange = (s.withBinding orderId exchangeOrderId).clientToExchange)
    (hord : t.orders = s.orders) (hseen : t.seenUpdates = s.seenUpdates)
    (hfil : t.cumulativeFills = update s.cumulativeFills orderId (some u.filledQty)) :
    Accepts s orderId exchangeOrderId (some u) (t.applyUpdate u).2 := by
  simp only [applyUpdate, hord, hseen]
  split_ifs with hmem
  · exact ⟨hval, hexc, hcl, by simp [applyUpdate, hmem, hord],
      by simp [applyUpdate, hmem, hseen], hfil⟩
  · exact ⟨hval, hexc, hcl, by simp [applyUpdate, hmem], by simp [applyUpdate, hmem], hfil⟩

@[simp] theorem withBinding_frame (s : PrivateStateReducer) :
    (s.withBinding orderId exchangeOrderId).orders = s.orders ∧
      (s.withBinding orderId exchangeOrderId).seenUpdates = s.seenUpdates ∧
      (s.withBinding orderId exchangeOrderId).cumulativeFills = s.cumulativeFills := by
  unfold withBinding
  split_ifs <;> exact ⟨rfl, rfl, rfl⟩

/-- A new fill of a known order is accepted. -/
theorem applyFill_accepts {row : RemoteFill} {existing : OrderSnapshot}
    (hide : s.identify row.clientOrderId row.exchangeOrderId row.symbol row.side = .ok orderId)
    (hord : s.orders orderId = some existing)
    (hseen : s.hasSeenFill row.symbol row.fillId = false) :
    ∃ answer s', s.applyFill row = (.ok answer, s') ∧
      Accepts s orderId row.exchangeOrderId (if min row.qty existing.openQty = 0 then none else
        some (canonicalFill orderId existing row (min row.qty existing.openQty))) s' := by
  have hval := identify_ok hide
  simp only [applyFill, hide, hord, hseen, Bool.false_eq_true, if_false]
  split_ifs with happ
  · refine ⟨_, _, rfl, ?_⟩
    constructor <;> simp [hval, withFillId, withBinding] <;> split_ifs <;> rfl
  · refine ⟨_, _, rfl, .of_applyUpdate hval ?_ ?_ ?_ ?_ rfl⟩
    all_goals
      unfold withFillId withBinding
      split_ifs <;> rfl

/-- The update that an accepted call records, if any. -/
inductive Records (s : PrivateStateReducer) (orderId : String) : Call → Option OrderUpdate → Prop
  | none (c : Call) : Records s orderId c none
  | order (row : PrivateOrderUpdate) :
    Records s orderId (.order row) (some (s.canonicalOrder orderId row))
  | fill (row : RemoteFill) (existing : OrderSnapshot) (hidentify :
        s.identify row.clientOrderId row.exchangeOrderId row.symbol row.side = .ok orderId)
      (horder : s.orders orderId = some existing)
      (hseen : s.hasSeenFill row.symbol row.fillId = false)
      (happlied : min row.qty existing.openQty ≠ 0) :
    Records s orderId (.fill row)
      (some (canonicalFill orderId existing row (min row.qty existing.openQty)))

/-- How a call ends: it is refused or changes nothing, it registers an order, or it is accepted. -/
theorem call_cases (s : PrivateStateReducer) (c : Call) :
    (s.call c).2 = s ∨ (∃ clientOrderId order tsMs, c = .register clientOrderId order tsMs) ∨
      ∃ orderId exchangeOrderId update, (s.call c).1 = .ok () ∧ Records s orderId c update ∧
        Accepts s orderId exchangeOrderId update (s.call c).2 := by
  cases c with
  | register => exact .inr (.inl ⟨_, _, _, rfl⟩)
  | bind clientOrderId exchangeOrderId =>
    simp only [call, bindExchangeOrderId]
    split_ifs
    · exact .inl rfl
    · exact .inl rfl
    · cases hval : s.validateExchangeBinding clientOrderId exchangeOrderId with
      | error => exact .inl rfl
      | ok =>
        refine .inr (.inr ⟨clientOrderId, exchangeOrderId, none, rfl, .none _, ?_⟩)
        constructor <;> simp [hval]
  | order row =>
    simp only [call, applyOrder]
    cases hide : s.identify row.clientOrderId row.exchangeOrderId row.symbol row.side with
    | error => exact .inl rfl
    | ok orderId =>
      dsimp only
      split_ifs with hign
      · exact .inl rfl
      · refine .inr (.inr ⟨orderId, row.exchangeOrderId, _, rfl, .order row,
          .of_applyUpdate (identify_ok hide) ?_ ?_ ?_ ?_ rfl⟩)
        all_goals
          unfold withFillId withBinding
          split <;> split_ifs <;> rfl
  | fill row =>
    cases hide : s.identify row.clientOrderId row.exchangeOrderId row.symbol row.side with
    | error => exact .inl (by simp [call, applyFill, hide])
    | ok orderId =>
      cases hord : s.orders orderId with
      | none => exact .inl (by simp [call, applyFill, hide, hord])
      | some existing =>
        cases hseen : s.hasSeenFill row.symbol row.fillId with
        | true => exact .inl (by simp [call, applyFill, hide, hord, hseen])
        | false =>
          obtain ⟨answer, s', h, hacc⟩ := applyFill_accepts hide hord hseen
          simp only [call, h]
          refine .inr (.inr ⟨orderId, row.exchangeOrderId, _, rfl, ?_, hacc⟩)
          split_ifs with happ
          · exact .none _
          · exact .fill row existing hide hord hseen happ

end

/-! ### Identities -/

/-- The two maps are inverse to each other. -/
def Inverse (s : PrivateStateReducer) : Prop :=
  ∀ c e, s.exchangeToClient e = some c ↔ s.clientToExchange c = some e

section

variable {s} {s' : PrivateStateReducer} {orderId exchangeOrderId : String}

/-- A valid binding keeps the maps inverse, and every binding there is. -/
theorem Accepts.bindings {update : Option OrderUpdate} (hinv : s.Inverse)
    (h : Accepts s orderId exchangeOrderId update s') :
    s'.Inverse ∧ ∀ c e, s.clientToExchange c = some e → s'.clientToExchange c = some e := by
  by_cases hne : exchangeOrderId = ""
  · have hsame : s.withBinding orderId exchangeOrderId = s := if_pos hne
    unfold Inverse
    rw [h.exchangeToClient, h.clientToExchange, hsame]
    exact ⟨hinv, fun _ _ => id⟩
  obtain ⟨hexc, hcl⟩ := validateExchangeBinding_ok h.valid hne
  have hmaps : s.withBinding orderId exchangeOrderId = { s with
      exchangeToClient := Function.update s.exchangeToClient exchangeOrderId (some orderId)
      clientToExchange := Function.update s.clientToExchange orderId (some exchangeOrderId) } :=
    if_neg hne
  unfold Inverse
  rw [h.exchangeToClient, h.clientToExchange, hmaps]
  refine ⟨fun c e => ?_, fun c e hc => ?_⟩
  · simp only [update_apply]
    split_ifs with he hc hc
    · simp [he, hc]
    · simp only [some.injEq, he]
      exact ⟨fun h => absurd h.symm hc, fun h => absurd (hexc c ((hinv c _).mpr h)) hc⟩
    · simp only [some.injEq, hc]
      exact ⟨fun h => absurd (hcl e ((hinv _ e).mp h)) he, fun h => absurd h.symm he⟩
    · exact hinv c e
  · simp only [update_apply]
    split_ifs with heq
    · rw [hcl e (heq ▸ hc)]
    · exact hc

/-- A removal takes the order out of both maps. -/
theorem Inverse.remove (hinv : s.Inverse) (clientOrderId : String) :
    (s.removeLocalOrder clientOrderId).Inverse := by
  intro c e
  have hiff := hinv c e
  cases hbd : s.clientToExchange clientOrderId with
  | none =>
    by_cases hc : c = clientOrderId
    · subst hc
      simpa [removeLocalOrder, hbd] using hiff
    · simpa [removeLocalOrder, hbd, update_of_ne hc] using hiff
  | some =>
    simp only [removeLocalOrder, hbd, update_apply]
    split_ifs with he hc hc
    · simp
    · subst he
      have hoth := (hinv clientOrderId e).mpr hbd
      simp only [false_iff, ← hinv c e, hoth, some.injEq]
      exact Ne.symm hc
    · subst hc
      simp only [iff_false, hiff, hbd, some.injEq]
      exact Ne.symm he
    · exact hiff

/-- A call keeps the maps inverse and every binding, and changes nothing if it is refused. -/
theorem call_bindings (hinv : s.Inverse) (c : Call) : (s.call c).2.Inverse ∧
      (∀ id e, s.clientToExchange id = some e → (s.call c).2.clientToExchange id = some e) ∧
      ∀ error, (s.call c).1 = .error error → (s.call c).2 = s := by
  rcases call_cases s c with hsame | ⟨clientOrderId, order, tsMs, rfl⟩ |
    ⟨orderId, exchangeOrderId, update, hok, -, hacc⟩
  · rw [hsame]
    exact ⟨hinv, fun _ _ => id, fun _ _ => rfl⟩
  · simp only [call, registerLocalOrder]
    by_cases hkn : (s.orders clientOrderId).isSome
    · simp only [if_pos hkn]
      exact ⟨hinv, fun _ _ => id, nofun⟩
    · simp only [if_neg hkn]
      exact ⟨hinv, fun _ _ => id, nofun⟩
  · obtain ⟨hinve, hkept⟩ := hacc.bindings hinv
    exact ⟨hinve, hkept, by simp [hok]⟩

end

/-- The state after a sequence of calls. -/
def run (ops : List Op) : PrivateStateReducer := ops.foldl (fun s op => (s.perform op).2) {}

theorem inverse_run (ops : List Op) : (run ops).Inverse := by
  refine foldlRecOn ops _ (fun c e => ⟨nofun, nofun⟩) fun s hinv op _ => ?_
  cases op with
  | call c => exact (call_bindings hinv c).1
  | remove clientOrderId => exact hinv.remove clientOrderId

/-- **Private order identities stay one-to-one and refusals change nothing.** In every state
reached, the two maps are inverse to each other; and a further call keeps the binding of every order
that it retains, and changes nothing if it is refused. -/
theorem identities_kept (ops : List Op) :
    (∀ c e, (run ops).exchangeToClient e = some c ↔ (run ops).clientToExchange c = some e) ∧
      ∀ op, (∀ c e, (run ops).clientToExchange c = some e →
          (((run ops).perform op).2.orders c).isSome = true →
          ((run ops).perform op).2.clientToExchange c = some e) ∧
        ∀ error, ((run ops).perform op).1 = .error error → ((run ops).perform op).2 = run ops := by
  have hinv := inverse_run ops
  refine ⟨hinv, fun op => ?_⟩
  cases op with
  | call c =>
    obtain ⟨-, hkept, href⟩ := call_bindings hinv c
    exact ⟨fun c e hc _ => hkept c e hc, href⟩
  | remove clientOrderId =>
    refine ⟨fun c e hc hret => ?_, nofun⟩
    by_cases hne : c = clientOrderId
    · simp [perform, removeLocalOrder, hne] at hret
    · simpa [perform, removeLocalOrder, update_of_ne hne] using hc

/-! ### Terminal orders -/

/-- No terminal order is reopened, and its filled quantity does not decrease. -/
def KeepsTerminal (s s' : PrivateStateReducer) : Prop :=
  ∀ id order, s.orders id = some order → order.status.isTerminal = true →
    ∃ order', s'.orders id = some order' ∧ order'.status.isTerminal = true ∧
      order.filledQty ≤ order'.filledQty

/-- A new fill of a terminal order that leaves a part of it open. -/
def Reopens (s : PrivateStateReducer) : Call → Prop
  | .fill row => ∃ orderId existing,
    s.identify row.clientOrderId row.exchangeOrderId row.symbol row.side = .ok orderId ∧
    s.orders orderId = some existing ∧ existing.status.isTerminal = true ∧
    s.hasSeenFill row.symbol row.fillId = false ∧ 0 < min row.qty existing.openQty ∧
    existing.filledQty + min row.qty existing.openQty < existing.qty
  | _ => False

/-- The filled quantities of the orders, against what is recorded beside them. -/
structure Ledger (s : PrivateStateReducer) : Prop where
  recorded : ∀ id order, s.orders id = some order → order.filledQty ≤ s.prior id
  seen : ∀ u ∈ s.seenUpdates, ∃ order, s.orders u.orderId = some order ∧
    u.filledQty ≤ order.filledQty

section

variable {s} {s' : PrivateStateReducer} {orderId exchangeOrderId : String} {u : OrderUpdate}

section

variable (hled : s.Ledger)

include hled

/-- An accepted update of an order that was filled no further. -/
theorem Accepts.ledger (h : Accepts s orderId exchangeOrderId (some u) s')
    (hid : u.orderId = orderId)
    (hgro : ∀ order, s.orders orderId = some order → order.filledQty ≤ u.filledQty) :
    s'.Ledger ∧ ∀ id order, s.orders id = some order →
      ∃ order', s'.orders id = some order' ∧ order.filledQty ≤ order'.filledQty ∧
        (order'.status = order.status ∨ (id = orderId ∧ order'.status = u.status)) := by
  subst hid
  have hpr : ∀ id, s'.prior id = if id = u.orderId then u.filledQty else s.prior id := by
    intro id
    simp only [prior, h.cumulativeFills, elim_some, update_apply]
    split_ifs <;> rfl
  rcases applyUpdate_cases s u with ⟨-, hsame⟩ | ⟨snapshot, hst, hfil, hset⟩
  · have hord : s'.orders = s.orders := by rw [h.orders, elim_some, hsame]
    have hseen : s'.seenUpdates = s.seenUpdates := by rw [h.seenUpdates, elim_some, hsame]
    refine ⟨⟨fun id order horde => ?_, ?_⟩, fun id order horde => ?_⟩
    · rw [hord] at horde
      rw [hpr]
      split_ifs with hid
      · exact hgro order (hid ▸ horde)
      · exact hled.recorded id order horde
    · rw [hord, hseen]
      exact hled.seen
    · exact ⟨order, hord ▸ horde, le_rfl, .inl rfl⟩
  · have hord : s'.orders = update s.orders u.orderId (some snapshot) := by
      rw [h.orders, elim_some, hset]
    have hseen : s'.seenUpdates = updateKey u :: s.seenUpdates := by
      rw [h.seenUpdates, elim_some, hset]
    have hkept : ∀ id order, s.orders id = some order →
        ∃ order', s'.orders id = some order' ∧ order.filledQty ≤ order'.filledQty ∧
          (order'.status = order.status ∨ (id = u.orderId ∧ order'.status = u.status)) := by
      intro id order horde
      rw [hord]
      by_cases hid : id = u.orderId
      · subst hid
        exact ⟨snapshot, update_self .., hfil ▸ hgro order horde, .inr ⟨rfl, hst⟩⟩
      · exact ⟨order, by rwa [update_of_ne hid], le_rfl, .inl rfl⟩
    refine ⟨⟨fun id order horde => ?_, fun v hv => ?_⟩, hkept⟩
    · rw [hord, update_apply] at horde
      rw [hpr]
      split_ifs at horde ⊢
      · cases horde
        exact hfil.le
      · exact hled.recorded id order horde
    · rw [hseen] at hv
      rcases mem_cons.mp hv with rfl | hv
      · exact ⟨snapshot, by rw [hord]; exact update_self .., hfil.ge⟩
      · obtain ⟨order, horde, hle⟩ := hled.seen v hv
        obtain ⟨order', horde', hle', -⟩ := hkept _ order horde
        exact ⟨order', horde', hle.trans hle'⟩

/-- A row that leaves the orders as they are. -/
theorem Ledger.of_eq (hord : s'.orders = s.orders) (hseen : s'.seenUpdates = s.seenUpdates)
    (hfil : s'.cumulativeFills = s.cumulativeFills) : s'.Ledger ∧ KeepsTerminal s s' := by
  refine ⟨⟨?_, ?_⟩, fun id order horde hterm => ⟨order, hord ▸ horde, hterm, le_rfl⟩⟩
  · unfold prior
    rw [hord, hfil]
    exact hled.recorded
  · rw [hord, hseen]
    exact hled.seen

theorem Ledger.register (clientOrderId : String) (order : NewOrder) (tsMs : Option ℕ) :
    (s.registerLocalOrder clientOrderId order tsMs).Ledger ∧
      KeepsTerminal s (s.registerLocalOrder clientOrderId order tsMs) := by
  by_cases hnew : (s.orders clientOrderId).isSome
  · simp only [registerLocalOrder, if_pos hnew]
    exact hled.of_eq rfl rfl rfl
  have hne : ∀ id found, s.orders id = some found → id ≠ clientOrderId := by
    rintro id found hfou rfl
    simp [hfou] at hnew
  simp only [registerLocalOrder, if_neg hnew]
  refine ⟨⟨fun id found hfou => ?_, fun u hu => ?_⟩, fun id found hfou hterm => ?_⟩
  · simp only [update_apply] at hfou
    split_ifs at hfou
    · cases hfou
      exact zero_le
    · exact hled.recorded id found hfou
  · have hold : u ∈ s.seenUpdates → ∃ found, update s.orders clientOrderId
        (some (fromNew clientOrderId order)) u.orderId = some found ∧
          u.filledQty ≤ found.filledQty := by
      intro hu
      obtain ⟨found, hfou, hle⟩ := hled.seen u hu
      exact ⟨found, by rwa [update_of_ne (hne _ _ hfou)], hle⟩
    cases tsMs with
    | none => exact hold hu
    | some =>
      rcases mem_cons.mp hu with rfl | hu
      · exact ⟨_, update_self .., le_rfl⟩
      · exact hold hu
  · exact ⟨found, (update_of_ne (hne _ _ hfou) ..).trans hfou, hterm, le_rfl⟩

/-- Every call keeps the ledger, and the terminal orders unless it reopens one. -/
theorem Ledger.call (c : Call) :
    (s.call c).2.Ledger ∧ (¬ Reopens s c → KeepsTerminal s (s.call c).2) := by
  rcases call_cases s c with hsame | ⟨clientOrderId, order, tsMs, rfl⟩ |
    ⟨orderId, exchangeOrderId, update, -, hrec, hacc⟩
  · rw [hsame]
    exact (hled.of_eq rfl rfl rfl).imp_right fun h _ => h
  · exact (hled.register clientOrderId order tsMs).imp_right fun h _ => h
  cases hrec with
  | none =>
    exact (hled.of_eq hacc.orders hacc.seenUpdates hacc.cumulativeFills).imp_right fun h _ => h
  | order row =>
    obtain ⟨hnext, hkept⟩ := hacc.ledger hled rfl fun order hord =>
      (hled.recorded _ order hord).trans (le_max_right ..)
    refine ⟨hnext, fun _ id order hord hterm => ?_⟩
    obtain ⟨order', hord', hle, hst | ⟨rfl, hst⟩⟩ := hkept id order hord
    · exact ⟨order', hord', hst ▸ hterm, hle⟩
    · refine ⟨order', hord', ?_, hle⟩
      -- a terminal order takes over a terminal state only
      rw [hst]
      cases hstate : row.state.isTerminal <;> simp [canonicalOrder, hord, hterm, hstate]
  | fill row existing hide hexi hseen happ =>
    obtain ⟨hnext, hkept⟩ := hacc.ledger hled rfl fun order hord => by
      cases hexi.symm.trans hord
      exact le_self_add
    refine ⟨hnext, fun hopen id order hord hterm => ?_⟩
    obtain ⟨order', hord', hle, hst | ⟨rfl, hst⟩⟩ := hkept id order hord
    · exact ⟨order', hord', hst ▸ hterm, hle⟩
    · cases hexi.symm.trans hord
      refine ⟨order', hord', ?_, hle⟩
      have hfull : existing.qty - (existing.filledQty + min row.qty existing.openQty) = 0 := by
        by_contra hpart
        exact hopen ⟨id, existing, hide, hexi, hterm, hseen,
          pos_iff_ne_zero.mpr happ, tsub_pos_iff_lt.mp (pos_iff_ne_zero.mpr hpart)⟩
      simp [hst, canonicalFill, hfull, OrderStatus.isTerminal]

/-- A call that reopens an order does not keep it. -/
theorem Ledger.reopens {c : Call} (h : Reopens s c) : ¬ KeepsTerminal s (s.call c).2 := by
  cases c with
  | fill row =>
    obtain ⟨orderId, existing, hide, hord, hterm, hseen, happ, hpart⟩ := h
    obtain ⟨answer, s', hfill, hacc⟩ := applyFill_accepts hide hord hseen
    rw [if_neg happ.ne'] at hacc
    intro hkp
    obtain ⟨order', hord', hterm', -⟩ := hkp orderId existing hord hterm
    simp only [PrivateStateReducer.call, hfill, hacc.orders, elim_some] at hord'
    rcases applyUpdate_cases s
      (canonicalFill orderId existing row (min row.qty existing.openQty)) with
      ⟨hold, -⟩ | ⟨snapshot, hst, -, hset⟩
    · -- an update that was seen before has filled the order no further than it is
      obtain ⟨order, hord'', hle⟩ := hled.seen _ hold
      cases hord.symm.trans hord''
      exact absurd hle (not_le.mpr (lt_add_of_pos_right _ happ))
    · rw [hset] at hord'
      have hsame : snapshot = order' := by simpa [canonicalFill] using hord'
      subst hsame
      have hne := (tsub_pos_iff_lt.mpr hpart).ne'
      simp [hst, canonicalFill, hne, OrderStatus.isTerminal] at hterm'
  | register | bind | order => exact h.elim

end

end

theorem ledger_run (calls : List Call) : (run (calls.map .call)).Ledger := by
  have hstart : Ledger {} := ⟨by simp, by simp⟩
  unfold run
  rw [foldl_map]
  exact foldlRecOn calls _ hstart fun s hled c _ => (hled.call c).1

/-- **When terminal private orders stay terminal.** In every state reached by calls that keep the
orders, a call keeps the terminal orders terminal, with no less filled, exactly if it is not a new
fill of one of them that leaves a part of it open. -/
theorem keepsTerminalOrders_iff (calls : List Call) (c : Call) :
    KeepsTerminal (run (calls.map .call)) ((run (calls.map .call)).call c).2 ↔
      ¬ Reopens (run (calls.map .call)) c :=
  ⟨fun hkp hreo => (ledger_run calls).reopens hreo hkp, ((ledger_run calls).call c).2⟩

/-- Along every run in which no call reopens an order, terminal orders stay terminal. -/
theorem keepsTerminal_run (calls more : List Call)
    (h : ∀ before c after, more = before ++ c :: after →
      ¬ Reopens (run ((calls ++ before).map .call)) c) :
    KeepsTerminal (run (calls.map .call)) (run ((calls ++ more).map .call)) := by
  induction more using reverseRecOn with
  | nil =>
    rw [append_nil]
    exact fun _ order hord hterm => ⟨order, hord, hterm, le_rfl⟩
  | append_singleton more c ih =>
    have hbef := ih fun before d after heq => h before d (after ++ [c]) (by simp [heq])
    have hlast := ((ledger_run (calls ++ more)).call c).2 (h more c [] rfl)
    have hrun : run ((calls ++ (more ++ [c])).map .call) =
        ((run ((calls ++ more).map .call)).call c).2 := by
      simp [run, foldl_append, perform]
    intro id order hord hterm
    obtain ⟨mid, hmid, hterm', hle⟩ := hbef id order hord hterm
    obtain ⟨last, hget, hterm'', hle'⟩ := hlast id mid hmid hterm'
    exact ⟨last, hrun ▸ hget, hterm'', hle.trans hle'⟩

namespace RowSample

/-- An order is registered, and a row says that it was cancelled. -/
def calls : List Call :=
  [.register "c" ⟨"BTC", .buy, 2, 100, .gtc, "quote"⟩ none,
    .order ⟨1, "e", "c", "BTC", .buy, .cancelled, 100, 2, 0, 0, 0, 0, none, none, none, ""⟩]

/-- A fill of half of it. -/
def lateFill : RemoteFill := ⟨"f", "e", "c", "BTC", .buy, 100, 1, .maker, none, 2⟩

end RowSample

open RowSample

theorem late_fill_reopens : ((run (calls.map .call)).orders "c").map (·.status) = some .cancelled ∧
      ((((run (calls.map .call)).call (.fill lateFill)).2).orders "c").map (·.status) =
        some .partiallyFilled := by
  decide +kernel

end PrivateStateReducer

end Reap.Gateway
