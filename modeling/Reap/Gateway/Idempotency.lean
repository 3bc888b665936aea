import Mathlib.Data.Rat.Defs
import Mathlib.Data.NNRat.Defs
import Mathlib.Data.List.Nodup

/-!
# Idempotency keys of the order gateway

A caller submits an order under an idempotency key. `prepare_submit` reserves the key and returns a
prepared submission, which a dispatcher sends to the exchange; the completion comes back to
`finish_submit`. An accepted order keeps its key for good, a definite rejection releases it, and
after an ambiguous failure the key stays reserved until `resolve_pending_submit` settles it.

    prepare_submit ──▶ prepared ──dispatcher──▶ completion ──▶ finish_submit

A prepared submission is a value that can be neither copied nor made by a caller, and dispatching
consumes it. `Submissions` therefore keeps the prepared submissions that are still outstanding
beside the gateway, and a log of what happened. Maps that are only looked up are functions here.
Amounts are exact; the number in a binding stands for the identity of its shared pointer.

## What is proved

* `prepareSubmit_of_free`, `prepareSubmit_of_entry` — what a key that is free or reserved answers.
* `Submissions.Inv.step` — what every call keeps of every key.
* `submissions_settled` — at most one live submission per key, over every run.
-/

namespace Reap.Gateway

/-! ### Orders and errors -/

/-- The side of an order. -/
inductive Side where
  | buy
  | sell
  deriving DecidableEq, Repr

/-- How long an order stays in the book. -/
inductive TimeInForce where
  | gtc
  | ioc
  | postOnly
  deriving DecidableEq, Repr

/-- `NewOrder`, without the fields that no modelled function reads. -/
structure NewOrder where
  symbol : String
  side : Side
  qty : ℚ≥0
  price : ℚ
  timeInForce : TimeInForce
  reason : String
  deriving DecidableEq

/-- The margin mode that an instrument is traded in. -/
inductive OkxTradeMode where
  | cash
  | cross
  | isolated
  deriving DecidableEq, Repr

/-- A decimal number, as a coefficient and a power of ten. -/
structure OkxExactDecimal where
  coefficient : ℕ
  baseTenExponent : ℤ
  deriving DecidableEq

/-- The numbers of an order as they are sent. -/
structure CanonicalRegularOrderNumbers where
  qty : OkxExactDecimal
  price : OkxExactDecimal
  deriving DecidableEq

/-- How the REST client fails. Only an `ambiguous` order may have reached the exchange. -/
inductive OrderTransportError where
  | unavailable (message : String)
  | ambiguous (message : String)
  | rejected (code message : String)
  | invalidRequest (message : String)
  deriving DecidableEq

/-- Why the registry refuses a call. -/
inductive IdempotencyError where
  /-- The key is reserved for another order. -/
  | conflict (key : String)
  /-- The key is not reserved. -/
  | unknownKey (key : String)
  deriving DecidableEq

/-- The errors of the modelled functions; those of the REST client are transport failures or not. -/
inductive GatewayError where
  | restTransport (message : String)
  | restOther (message : String)
  | orderTransport (error : OrderTransportError)
  | idempotency (error : IdempotencyError)
  | missingTradeMode (symbol : String)
  | approvalAccountMismatch (expected actual : String)
  | approvalScopeMismatch (accountId : String)
  | acknowledgementClientIdMismatch (expected actual : String)
  deriving DecidableEq

/-- The order may have reached the exchange. -/
def GatewayError.isAmbiguous : GatewayError → Bool
  | .restTransport _ | .orderTransport (.ambiguous _) | .acknowledgementClientIdMismatch .. => true
  | _ => false

/-! ### The registry -/

/-- What two submissions under one key must agree on. -/
structure OrderFingerprint where
  symbol : String
  side : UInt8
  qty : OkxExactDecimal
  price : OkxExactDecimal
  timeInForce : UInt8
  deriving DecidableEq

/-- `OrderFingerprint::new`. -/
def fingerprint (order : NewOrder) (numbers : CanonicalRegularOrderNumbers) : OrderFingerprint where
  symbol := order.symbol
  side := match order.side with
    | .buy => 1
    | .sell => 2
  qty := numbers.qty
  price := numbers.price
  timeInForce := match order.timeInForce with
    | .gtc => 1
    | .ioc => 2
    | .postOnly => 3

/-- What a key is reserved for. -/
structure IdempotencyEntry where
  fingerprint : OrderFingerprint
  clientOrderId : String
  /-- The exchange's id, once the order is accepted. -/
  exchangeOrderId : Option String
  deriving DecidableEq

/-- The answer of the registry to a reservation. -/
inductive Reservation where
  /-- The key was free, and is reserved now. -/
  | new (clientOrderId : String)
  /-- The order is reserved and not settled. -/
  | pending (clientOrderId : String)
  /-- The order was accepted. -/
  | accepted (clientOrderId exchangeOrderId : String)

/-- The entries of the keys that are reserved. -/
abbrev IdempotencyRegistry := String → Option IdempotencyEntry

namespace IdempotencyRegistry

variable (entries : IdempotencyRegistry) (key : String)

/-- `reserve`. -/
def reserve (order : NewOrder) (numbers : CanonicalRegularOrderNumbers)
    (newClientOrderId : String) : Except IdempotencyError (Reservation × IdempotencyRegistry) :=
  match entries key with
  | some existing =>
    if existing.fingerprint ≠ fingerprint order numbers then .error (.conflict key)
    else
      match existing.exchangeOrderId with
      | some exchangeOrderId => .ok (.accepted existing.clientOrderId exchangeOrderId, entries)
      | none => .ok (.pending existing.clientOrderId, entries)
  | none =>
    .ok (.new newClientOrderId, Function.update entries key
      (some ⟨fingerprint order numbers, newClientOrderId, none⟩))

/-- `mark_accepted`. -/
def markAccepted (exchangeOrderId : String) : Except IdempotencyError IdempotencyRegistry :=
  match entries key with
  | some entry =>
    .ok (Function.update entries key (some { entry with exchangeOrderId := some exchangeOrderId }))
  | none => .error (.unknownKey key)

/-- An accepted order keeps its key. -/
def releasePending : Except IdempotencyError IdempotencyRegistry :=
  match entries key with
  | some entry =>
    .ok (if entry.exchangeOrderId.isNone then Function.update entries key none else entries)
  | none => .error (.unknownKey key)

end IdempotencyRegistry

/-! ### The gateway -/

/-- An order that risk has approved, with the client order id generated for it. -/
structure ReservedRegularSubmit where
  accountId : String
  clientOrderId : String
  order : NewOrder
  canonicalNumbers : CanonicalRegularOrderNumbers
  binding : ℕ

/-- A dispatchable submission. -/
structure PreparedRegularSubmit where
  accountId : String
  binding : ℕ
  idempotencyKey : String
  clientOrderId : String
  order : NewOrder
  canonicalNumbers : CanonicalRegularOrderNumbers
  tradeMode : OkxTradeMode
  deriving DecidableEq

/-- The exchange's answer to a placed order; its client order id may be missing. -/
structure OkxOrderAck where
  exchangeOrderId : String
  clientOrderId : String
  deriving DecidableEq

/-- What a dispatcher gives back to the gateway. -/
structure RegularSubmitCompletion where
  accountId : String
  binding : ℕ
  idempotencyKey : String
  clientOrderId : String
  result : Except GatewayError OkxOrderAck

/-- The answer to a caller. -/
inductive SubmitOutcome where
  /-- The order was accepted now. -/
  | submitted (clientOrderId exchangeOrderId : String)
  /-- It had been accepted before. -/
  | duplicate (clientOrderId exchangeOrderId : String)
  /-- It was sent before, and is not settled. -/
  | pendingReconciliation (clientOrderId : String)

/-- The client order id an outcome names. -/
def SubmitOutcome.clientOrderId : SubmitOutcome → String
  | .submitted id _ | .duplicate id _ | .pendingReconciliation id => id

/-- The answer of `prepare_submit`. -/
inductive SubmitPreparation where
  /-- The submission is to be dispatched. -/
  | ready (prepared : PreparedRegularSubmit)
  /-- Nothing is to be dispatched. -/
  | complete (outcome : SubmitOutcome)

/-- `validate_authority` of a gateway and `validate_prepared` of its dispatcher. -/
def validateAuthority (ownAccount : String) (ownBinding : ℕ) (accountId : String) (binding : ℕ) :
    Except GatewayError Unit :=
  if accountId ≠ ownAccount then .error (.approvalAccountMismatch ownAccount accountId)
  else if binding ≠ ownBinding then .error (.approvalScopeMismatch ownAccount)
  else .ok ()

/-- `RegularCommandDispatcher::place_prepared`, where the exchange answers `answer`. -/
def placePrepared (ownAccount : String) (ownBinding : ℕ) (prepared : PreparedRegularSubmit)
    (answer : Except OrderTransportError OkxOrderAck) : RegularSubmitCompletion where
  accountId := prepared.accountId
  binding := prepared.binding
  idempotencyKey := prepared.idempotencyKey
  clientOrderId := prepared.clientOrderId
  result := do
    validateAuthority ownAccount ownBinding prepared.accountId prepared.binding
    match answer with
    | .error error => .error (.orderTransport error)
    | .ok ack =>
      if ack.clientOrderId = "" ∨ ack.clientOrderId = "0" ∨
          ack.clientOrderId = prepared.clientOrderId then
        .ok { ack with clientOrderId := prepared.clientOrderId }
      else
        .error (.orderTransport (.ambiguous ("acknowledgement client id " ++
          ack.clientOrderId.quote ++ " does not match expected " ++ prepared.clientOrderId.quote)))

/-- `OkxOrderGateway`, without its dispatcher and its reconciliation client. -/
structure OkxOrderGateway where
  accountId : String
  binding : ℕ
  idempotency : IdempotencyRegistry
  /-- The trade modes of the configured symbols. -/
  tradeModes : String → Option OkxTradeMode
  /-- The orders by client order id. -/
  localOrders : String → Option NewOrder

namespace OkxOrderGateway

/-- No key is reserved. -/
def new (accountId : String) (binding : ℕ) (tradeModes : String → Option OkxTradeMode) :
    OkxOrderGateway :=
  ⟨accountId, binding, fun _ => none, tradeModes, fun _ => none⟩

variable (g : OkxOrderGateway) (key : String)

/-- `prepare_submit_with_id`. -/
def prepareSubmitWithId (approved : ReservedRegularSubmit) (tradeMode : OkxTradeMode) :
    Except GatewayError (SubmitPreparation × OkxOrderGateway) :=
  match g.idempotency.reserve key approved.order approved.canonicalNumbers
      approved.clientOrderId with
  | .error error => .error (.idempotency error)
  | .ok (.accepted clientOrderId exchangeOrderId, _) =>
    .ok (.complete (.duplicate clientOrderId exchangeOrderId), g)
  | .ok (.pending clientOrderId, _) => .ok (.complete (.pendingReconciliation clientOrderId), g)
  | .ok (.new clientOrderId, idempotency) =>
    .ok (.ready ⟨approved.accountId, approved.binding, key, clientOrderId, approved.order,
        approved.canonicalNumbers, tradeMode⟩,
      { g with
        idempotency := idempotency
        localOrders := Function.update g.localOrders clientOrderId (some approved.order) })

/-- `prepare_submit`. -/
def prepareSubmit (approved : ReservedRegularSubmit) :
    Except GatewayError (SubmitPreparation × OkxOrderGateway) :=
  match validateAuthority g.accountId g.binding approved.accountId approved.binding with
  | .error error => .error error
  | .ok () =>
    match g.tradeModes approved.order.symbol with
    | none => .error (.missingTradeMode approved.order.symbol)
    | some tradeMode => g.prepareSubmitWithId key approved tradeMode

/-- `finish_submit`. It may fail and have released the key. -/
def finishSubmit (completion : RegularSubmitCompletion) :
    Except GatewayError SubmitOutcome × OkxOrderGateway :=
  match validateAuthority g.accountId g.binding completion.accountId completion.binding with
  | .error error => (.error error, g)
  | .ok () =>
    match completion.result with
    | .error error =>
      if error.isAmbiguous then (.error error, g)
      else
        match g.idempotency.releasePending completion.idempotencyKey with
        | .error e => (.error (.idempotency e), g)
        | .ok idempotency =>
          (.error error, { g with
            idempotency := idempotency
            localOrders := Function.update g.localOrders completion.clientOrderId none })
    | .ok ack =>
      match g.idempotency.markAccepted completion.idempotencyKey ack.exchangeOrderId with
      | .error e => (.error (.idempotency e), g)
      | .ok idempotency =>
        (.ok (.submitted completion.clientOrderId ack.exchangeOrderId),
          { g with idempotency := idempotency })

/-- The answer of the venue. -/
def resolvePendingSubmit (exchangeOrderId : String) : Except GatewayError OkxOrderGateway :=
  match g.idempotency.markAccepted key exchangeOrderId with
  | .error e => .error (.idempotency e)
  | .ok idempotency => .ok { g with idempotency := idempotency }

end OkxOrderGateway

/-! ### What a call does to the entries -/

theorem validateAuthority_eq_ok {account account' : String} {binding binding' : ℕ} :
    validateAuthority account binding account' binding' = .ok () ↔
      account' = account ∧ binding' = binding := by
  unfold validateAuthority
  split_ifs <;> simp_all

/-- What a completion makes of the entry of its key. -/
def settle (entry : IdempotencyEntry) : Except GatewayError OkxOrderAck → Option IdempotencyEntry
  | .ok ack => some { entry with exchangeOrderId := some ack.exchangeOrderId }
  | .error error =>
    if error.isAmbiguous ∨ entry.exchangeOrderId ≠ none then some entry else none

/-- The entry of a submission that was just prepared. -/
def PreparedRegularSubmit.entry (p : PreparedRegularSubmit) : IdempotencyEntry :=
  ⟨fingerprint p.order p.canonicalNumbers, p.clientOrderId, none⟩

/-- The submission that an approval becomes under a free key. -/
def ReservedRegularSubmit.prepared (approved : ReservedRegularSubmit) (key : String)
    (tradeMode : OkxTradeMode) : PreparedRegularSubmit :=
  ⟨approved.accountId, approved.binding, key, approved.clientOrderId, approved.order,
    approved.canonicalNumbers, tradeMode⟩

/-- What a duplicate of the order of an entry is answered. -/
def IdempotencyEntry.outcome (entry : IdempotencyEntry) : SubmitOutcome :=
  match entry.exchangeOrderId with
  | some exchangeOrderId => .duplicate entry.clientOrderId exchangeOrderId
  | none => .pendingReconciliation entry.clientOrderId

theorem IdempotencyEntry.clientOrderId_outcome (entry : IdempotencyEntry) :
    entry.outcome.clientOrderId = entry.clientOrderId := by
  unfold IdempotencyEntry.outcome
  split <;> rfl

/-- The approval is one of this gateway, which knows the trade mode of its symbol. -/
def OkxOrderGateway.Admits (g : OkxOrderGateway) (approved : ReservedRegularSubmit)
    (tradeMode : OkxTradeMode) : Prop :=
  approved.accountId = g.accountId ∧ approved.binding = g.binding ∧
    g.tradeModes approved.order.symbol = some tradeMode

/-- A call that has changed the entry of one key. -/
structure Alters (key : String) (entry : Option IdempotencyEntry) (g g' : OkxOrderGateway) :
    Prop where
  accountId : g'.accountId = g.accountId
  binding : g'.binding = g.binding
  tradeModes : g'.tradeModes = g.tradeModes
  idempotency : g'.idempotency = Function.update g.idempotency key entry

section

variable {g g' : OkxOrderGateway} {key : String} {approved : ReservedRegularSubmit}
  {entry : IdempotencyEntry} {tradeMode : OkxTradeMode}

theorem finishSubmit_alters (completion : RegularSubmitCompletion)
    (hacc : completion.accountId = g.accountId) (hbin : completion.binding = g.binding)
    (hent : g.idempotency completion.idempotencyKey = some entry) :
    Alters completion.idempotencyKey (settle entry completion.result) g
      (g.finishSubmit completion).2 := by
  have hsame : Function.update g.idempotency completion.idempotencyKey (some entry) =
      g.idempotency := by
    rw [← hent, Function.update_eq_self]
  unfold OkxOrderGateway.finishSubmit
  rw [validateAuthority_eq_ok.mpr ⟨hacc, hbin⟩]
  cases hres : completion.result with
  | ok =>
    simp only [IdempotencyRegistry.markAccepted, hent, settle]
    exact ⟨rfl, rfl, rfl, rfl⟩
  | error error =>
    by_cases hamb : error.isAmbiguous
    · simp only [hamb, settle, true_or, if_true]
      exact ⟨rfl, rfl, rfl, hsame.symm⟩
    · cases hexc : entry.exchangeOrderId <;>
        simp only [hamb, settle, hent, IdempotencyRegistry.releasePending, hexc] <;>
        exact ⟨rfl, rfl, rfl, by simp [hsame]⟩

/-- An approval that is answered is one of the gateway. -/
theorem exists_admits {result : SubmitPreparation × OkxOrderGateway}
    (h : g.prepareSubmit key approved = .ok result) : ∃ tradeMode, g.Admits approved tradeMode := by
  unfold OkxOrderGateway.prepareSubmit at h
  cases haut : validateAuthority g.accountId g.binding approved.accountId approved.binding with
  | error => simp [haut] at h
  | ok =>
    cases hmode : g.tradeModes approved.order.symbol with
    | none => simp [haut, hmode] at h
    | some tradeMode =>
      obtain ⟨hacc, hbin⟩ := validateAuthority_eq_ok.mp haut
      exact ⟨tradeMode, hacc, hbin, hmode⟩

theorem prepareSubmit_of_admits (h : g.Admits approved tradeMode) :
    g.prepareSubmit key approved = g.prepareSubmitWithId key approved tradeMode := by
  unfold OkxOrderGateway.prepareSubmit
  simp [validateAuthority_eq_ok.mpr ⟨h.1, h.2.1⟩, h.2.2]

/-- **A free key** is reserved for the order, which becomes dispatchable. -/
theorem prepareSubmit_of_free (h : g.Admits approved tradeMode) (hfree : g.idempotency key = none) :
    ∃ g', g.prepareSubmit key approved = .ok (.ready (approved.prepared key tradeMode), g') ∧
      Alters key (some (approved.prepared key tradeMode).entry) g g' := by
  rw [prepareSubmit_of_admits h]
  simp only [OkxOrderGateway.prepareSubmitWithId, IdempotencyRegistry.reserve, hfree]
  exact ⟨_, rfl, rfl, rfl, rfl, rfl⟩

/-- **A reserved key** answers the order it is reserved for from its entry, and conflicts with every
other order. -/
theorem prepareSubmit_of_entry (h : g.Admits approved tradeMode)
    (hent : g.idempotency key = some entry) : g.prepareSubmit key approved =
      if entry.fingerprint = fingerprint approved.order approved.canonicalNumbers then
        .ok (.complete entry.outcome, g)
      else .error (.idempotency (.conflict key)) := by
  rw [prepareSubmit_of_admits h]
  simp only [OkxOrderGateway.prepareSubmitWithId, IdempotencyRegistry.reserve, hent, ne_eq]
  by_cases hsame : entry.fingerprint = fingerprint approved.order approved.canonicalNumbers
  · cases hexc : entry.exchangeOrderId <;> simp [hsame, hexc, IdempotencyEntry.outcome]
  · simp [hsame]

end

/-! ### Runs -/

/-- What happened to a key. -/
inductive Event where
  /-- A dispatchable submission was produced. -/
  | dispatchable (prepared : PreparedRegularSubmit)
  /-- A completion arrived, and released the key or not. -/
  | completed (result : Except GatewayError OkxOrderAck) (released : Bool)
  /-- The key was resolved as accepted. -/
  | resolved

/-- A dispatchable submission. -/
def Event.Dispatches : Event → Prop
  | .dispatchable _ => True
  | _ => False

/-- An accepted or ambiguous completion, or a resolution. -/
def Event.Closes : Event → Prop
  | .completed result _ => ∀ error, result = .error error → error.isAmbiguous = true
  | .resolved => True
  | .dispatchable _ => False

/-- The submission that holds a key: the last dispatchable one, unless it was released. -/
def holder : List Event → Option PreparedRegularSubmit
  | [] => none
  | .dispatchable prepared :: _ => some prepared
  | .completed _ released :: earlier => if released then none else holder earlier
  | .resolved :: earlier => holder earlier

/-- The gateway; and for each key the outstanding submissions, and what happened, latest first. -/
structure Submissions where
  gateway : OkxOrderGateway
  outstanding : String → List PreparedRegularSubmit := fun _ => []
  log : String → List Event := fun _ => []

/-- A call: `prepare_submit`, the completion of an outstanding submission by some dispatcher with
some answer, or `resolve_pending_submit`. -/
inductive Op where
  | prepare (key : String) (approved : ReservedRegularSubmit)
  | complete (prepared : PreparedRegularSubmit) (accountId : String) (binding : ℕ)
      (answer : Except OrderTransportError OkxOrderAck)
  | resolve (key exchangeOrderId : String)

namespace Submissions

/-- The submissions after something happened to a key. -/
def record (s : Submissions) (key : String) (gateway : OkxOrderGateway)
    (outstanding : List PreparedRegularSubmit) (event : Event) : Submissions :=
  ⟨gateway, Function.update s.outstanding key outstanding,
    Function.update s.log key (event :: s.log key)⟩

/-- One call; a completion of what is not outstanding cannot happen. -/
def step (s : Submissions) : Op → Submissions
  | .prepare key approved =>
    match s.gateway.prepareSubmit key approved with
    | .ok (.ready prepared, gateway) =>
      s.record key gateway (prepared :: s.outstanding key) (.dispatchable prepared)
    | _ => s
  | .complete prepared accountId binding answer =>
    let key := prepared.idempotencyKey
    if prepared ∈ s.outstanding key then
      let completion := placePrepared accountId binding prepared answer
      let gateway := (s.gateway.finishSubmit completion).2
      s.record key gateway ((s.outstanding key).erase prepared)
        (.completed completion.result (gateway.idempotency key).isNone)
    else s
  | .resolve key exchangeOrderId =>
    match s.gateway.resolvePendingSubmit key exchangeOrderId with
    | .error _ => s
    | .ok gateway => s.record key gateway (s.outstanding key) .resolved

/-- What an entry keeps of the order that made it. -/
def identity (entry : IdempotencyEntry) : OrderFingerprint × String :=
  (entry.fingerprint, entry.clientOrderId)

/-- The invariant of a key: its entry against its outstanding submissions and its past. -/
structure Settled (accountId : String) (binding : ℕ) (entry : Option IdempotencyEntry)
    (live : List PreparedRegularSubmit) (log : List Event) : Prop where
  /-- At most one submission is outstanding, and the key is reserved for it. -/
  single : live = [] ∨
    ∃ p, live = [p] ∧ entry ≠ none ∧ p.accountId = accountId ∧ p.binding = binding
  /-- An entry is that of the submission that holds the key. -/
  held : entry.map identity = (holder log).map fun p => identity p.entry
  /-- A closed key has an entry that no completion can release. -/
  closed : ∀ event ∈ log, event.Closes →
    ∃ e, entry = some e ∧ (e.exchangeOrderId = none → live = [])
  /-- A closed key is never dispatched again. -/
  final : log.Pairwise fun later earlier => earlier.Closes → ¬ later.Dispatches
  /-- What released the key was a definite rejection. -/
  released : ∀ result, .completed result true ∈ log →
    ∃ error, result = .error error ∧ error.isAmbiguous = false

/-- The invariant of the runs from the gateway `g`: what an approval is checked against stays as it
is, and every key is settled. -/
structure Inv (g : OkxOrderGateway) (s : Submissions) : Prop where
  accountId : s.gateway.accountId = g.accountId
  binding : s.gateway.binding = g.binding
  tradeModes : s.gateway.tradeModes = g.tradeModes
  keys : ∀ key, Settled g.accountId g.binding (s.gateway.idempotency key) (s.outstanding key)
    (s.log key)

section

variable {s : Submissions} {g g' : OkxOrderGateway} {key accountId : String} {binding : ℕ}
  {live : List PreparedRegularSubmit} {log : List Event} {entry : IdempotencyEntry}
  {p : PreparedRegularSubmit}

theorem Settled.dispatchable (h : Settled accountId binding none live log)
    (hacc : p.accountId = accountId) (hbin : p.binding = binding) :
    Settled accountId binding (some p.entry) (p :: live) (.dispatchable p :: log) := by
  have hopen : ∀ event ∈ log, ¬ event.Closes := by
    intro event hmem hclo
    obtain ⟨entry, hent, -⟩ := h.closed event hmem hclo
    cases hent
  obtain rfl : live = [] := by
    rcases h.single with hnone | ⟨-, -, hent, -⟩
    · exact hnone
    · exact absurd rfl hent
  refine ⟨.inr ⟨p, rfl, nofun, hacc, hbin⟩, rfl, ?_,
    List.pairwise_cons.mpr ⟨fun event hmem hclo => absurd hclo (hopen event hmem), h.final⟩, ?_⟩
  · intro event hmem hclo
    rcases List.mem_cons.mp hmem with rfl | hmem
    · exact hclo.elim
    · exact absurd hclo (hopen event hmem)
  · intro result hmem
    exact h.released result (by simpa using hmem)

/-- A completion keeps the order and the client of an entry, or it is a definite rejection and
removes an entry that is not accepted. -/
theorem settle_cases (entry : IdempotencyEntry) (result : Except GatewayError OkxOrderAck) :
    (settle entry result = none ∧ entry.exchangeOrderId = none ∧
      ∃ error, result = .error error ∧ error.isAmbiguous = false) ∨
    ∃ entry', settle entry result = some entry' ∧ identity entry' = identity entry := by
  cases result with
  | ok => exact .inr ⟨_, rfl, rfl⟩
  | error error =>
    by_cases hkept : error.isAmbiguous ∨ entry.exchangeOrderId ≠ none
    · exact .inr ⟨entry, if_pos hkept, rfl⟩
    · refine .inl ⟨if_neg hkept, not_not.mp fun hne => hkept (.inr hne), error, rfl, ?_⟩
      exact Bool.eq_false_iff.mpr fun hamb => hkept (.inl hamb)

theorem Settled.completed (h : Settled accountId binding (some entry) [p] log)
    (result : Except GatewayError OkxOrderAck) : Settled accountId binding (settle entry result) []
      (.completed result (settle entry result).isNone :: log) := by
  rcases settle_cases entry result with ⟨hnone, hpend, error, rfl, hdef⟩ | ⟨entry', hsome, hsame⟩
  · -- the completion has released the key
    simp only [hnone, Option.isNone_none]
    refine ⟨.inl rfl, rfl, ?_, List.pairwise_cons.mpr ⟨fun _ _ _ => id, h.final⟩, ?_⟩
    · intro event hmem hclo
      rcases List.mem_cons.mp hmem with rfl | hmem
      · cases hdef.symm.trans (hclo error rfl)
      · obtain ⟨found, hfou, hdone⟩ := h.closed event hmem hclo
        cases hfou
        cases hdone hpend
    · intro result hmem
      rcases List.mem_cons.mp hmem with heq | hmem
      · cases heq
        exact ⟨error, rfl, hdef⟩
      · exact h.released result hmem
  · simp only [hsome, Option.isNone_some]
    refine ⟨.inl rfl, ?_, fun _ _ _ => ⟨entry', rfl, fun _ => rfl⟩,
      List.pairwise_cons.mpr ⟨fun _ _ _ => id, h.final⟩, fun result hmem => ?_⟩
    · simpa [holder, hsame] using h.held
    · exact h.released result (by simpa using hmem)

theorem Settled.resolved (h : Settled accountId binding (some entry) live log)
    (exchangeOrderId : String) :
    Settled accountId binding (some { entry with exchangeOrderId := some exchangeOrderId }) live
      (.resolved :: log) := by
  refine ⟨h.single.imp_right ?_, h.held, fun _ _ _ => ⟨_, rfl, nofun⟩,
    List.pairwise_cons.mpr ⟨fun _ _ _ => id, h.final⟩, fun result hmem => ?_⟩
  · rintro ⟨p, hlive, -, hown⟩
    exact ⟨p, hlive, nofun, hown⟩
  · exact h.released result (by simpa using hmem)

variable {entry : Option IdempotencyEntry}

/-- The entry of a key that a submission holds. -/
theorem Settled.exists_entry
    (h : Settled accountId binding entry live log) (hhol : holder log = some p) :
    ∃ e, entry = some e ∧ e.fingerprint = p.entry.fingerprint ∧
      e.clientOrderId = p.clientOrderId := by
  have hheld := h.held
  rw [hhol] at hheld
  obtain ⟨e, hent, hide⟩ := Option.map_eq_some_iff.mp hheld
  exact ⟨e, hent, congrArg Prod.fst hide, congrArg Prod.snd hide⟩

/-- What happens to one key leaves the others as they were. -/
theorem Inv.record {event : Event} (h : s.Inv g) (halt : Alters key entry s.gateway g')
    (hkey : Settled g.accountId g.binding entry live (event :: s.log key)) :
    (s.record key g' live event).Inv g := by
  refine ⟨halt.accountId.trans h.accountId, halt.binding.trans h.binding,
    halt.tradeModes.trans h.tradeModes, fun k => ?_⟩
  simp only [Submissions.record, halt.idempotency]
  by_cases hk : k = key
  · subst hk
    simpa using hkey
  · simpa [Function.update_of_ne hk] using h.keys k

/-- Every call keeps the invariant of every key. -/
theorem Inv.step (h : s.Inv g) (op : Op) : (s.step op).Inv g := by
  cases op with
  | prepare key approved =>
    simp only [Submissions.step]
    cases hpre : s.gateway.prepareSubmit key approved with
    | error => exact h
    | ok result =>
      obtain ⟨tradeMode, hadm⟩ := exists_admits hpre
      cases hent : s.gateway.idempotency key with
      | none =>
        obtain ⟨g', hok, halt⟩ := prepareSubmit_of_free hadm hent
        cases hpre.symm.trans hok
        exact h.record halt ((hent ▸ h.keys key).dispatchable (hadm.1.trans h.accountId)
          (hadm.2.1.trans h.binding))
      | some =>
        rw [prepareSubmit_of_entry hadm hent] at hpre
        split_ifs at hpre
        cases hpre
        exact h
  | complete p accountId binding answer =>
    simp only [Submissions.step]
    split_ifs with hmem
    swap
    · exact h
    have hkey := h.keys p.idempotencyKey
    rcases hkey.single with hnone | ⟨q, hlive, hent, hacc, hbin⟩
    · simp [hnone] at hmem
    · obtain rfl : p = q := by simpa [hlive] using hmem
      obtain ⟨entry, hent⟩ := Option.ne_none_iff_exists'.mp hent
      rw [hlive, hent] at hkey
      have hfin : Alters p.idempotencyKey
          (settle entry (placePrepared accountId binding p answer).result) s.gateway
          (s.gateway.finishSubmit (placePrepared accountId binding p answer)).2 :=
        finishSubmit_alters (placePrepared accountId binding p answer)
          (hacc.trans h.accountId.symm) (hbin.trans h.binding.symm) hent
      have hset := h.record hfin (hkey.completed _)
      simpa [hlive, hfin.idempotency] using hset
  | resolve key exchangeOrderId =>
    simp only [Submissions.step, OkxOrderGateway.resolvePendingSubmit,
      IdempotencyRegistry.markAccepted]
    cases hent : s.gateway.idempotency key with
    | none => exact h
    | some =>
      exact h.record ⟨rfl, rfl, rfl, rfl⟩ ((hent ▸ h.keys key).resolved exchangeOrderId)

end

/-- A run of a new gateway. -/
def run (accountId : String) (binding : ℕ) (tradeModes : String → Option OkxTradeMode)
    (ops : List Op) : Submissions :=
  ops.foldl step { gateway := .new accountId binding tradeModes }

end Submissions

open Submissions

/-- Every run keeps the invariant. -/
theorem inv_run (accountId : String) (binding : ℕ) (tradeModes : String → Option OkxTradeMode)
    (ops : List Op) : (run accountId binding tradeModes ops).Inv (.new accountId binding tradeModes) := by
  have hnew : Settled accountId binding none [] [] := by
    constructor <;> simp [holder]
  exact List.foldlRecOn ops step ⟨rfl, rfl, rfl, fun _ => hnew⟩ fun _ h op _ => h.step op

/-- **At most one live submission per idempotency key.** In every run of a new gateway, each key has
at most one outstanding submission; once a key is closed it is not dispatched again; only a definite
rejection releases a key; and while a submission holds a key, the key is refused to any other order,
and the gateway answers with the client order id of that submission. An approval of the gateway, for
a symbol with a trade mode, is always answered: under a key that is held, the same order is a
duplicate of the holder and another one conflicts; under a key that is free, the order becomes the
holder. -/
theorem submissions_settled (accountId : String) (binding : ℕ)
    (tradeModes : String → Option OkxTradeMode) (ops : List Op) (key : String) :
    let s := run accountId binding tradeModes ops
    (s.outstanding key).length ≤ 1 ∧
      ((s.log key).Pairwise fun later earlier => earlier.Closes → ¬ later.Dispatches) ∧
      (∀ result, .completed result true ∈ s.log key →
        ∃ error, result = .error error ∧ error.isAmbiguous = false) ∧
      (∀ p approved, holder (s.log key) = some p →
        (fingerprint approved.order approved.canonicalNumbers ≠ p.entry.fingerprint →
          ∃ error, s.gateway.prepareSubmit key approved = .error error) ∧
        ∀ answer g', s.gateway.prepareSubmit key approved = .ok (answer, g') →
          ∃ outcome, answer = .complete outcome ∧ outcome.clientOrderId = p.clientOrderId) ∧
      ∀ approved tradeMode,
        (OkxOrderGateway.new accountId binding tradeModes).Admits approved tradeMode →
        (∀ p, holder (s.log key) = some p →
          (fingerprint approved.order approved.canonicalNumbers = p.entry.fingerprint →
            ∃ outcome, s.gateway.prepareSubmit key approved = .ok (.complete outcome, s.gateway) ∧
              outcome.clientOrderId = p.clientOrderId) ∧
          (fingerprint approved.order approved.canonicalNumbers ≠ p.entry.fingerprint →
            s.gateway.prepareSubmit key approved = .error (.idempotency (.conflict key)))) ∧
        (holder (s.log key) = none → ∃ g', s.gateway.prepareSubmit key approved =
              .ok (.ready (approved.prepared key tradeMode), g') ∧
            g'.idempotency key = some (approved.prepared key tradeMode).entry ∧
            holder ((s.step (.prepare key approved)).log key) =
              some (approved.prepared key tradeMode)) := by
  intro s
  have hinv := inv_run accountId binding tradeModes ops
  have hkey : Settled accountId binding (s.gateway.idempotency key) (s.outstanding key)
      (s.log key) := hinv.keys key
  refine ⟨?_, hkey.final, hkey.released, fun p approved hhol => ?_, fun approved tradeMode hadm => ?_⟩
  · rcases hkey.single with hnone | ⟨p, hlive, -⟩
    · simp [hnone]
    · simp [hlive]
  · obtain ⟨entry, hent, hfin, hcl⟩ := hkey.exists_entry hhol
    cases hpre : s.gateway.prepareSubmit key approved with
    | error error =>
      refine ⟨fun _ => ⟨error, rfl⟩, fun _ _ hok => ?_⟩
      cases hok
    | ok result =>
      obtain ⟨tradeMode, hadm⟩ := exists_admits hpre
      rw [prepareSubmit_of_entry hadm hent] at hpre
      split_ifs at hpre with hsame
      cases hpre
      refine ⟨fun hoth => absurd (hsame.symm.trans hfin) hoth, ?_⟩
      rintro _ _ ⟨⟩
      exact ⟨_, rfl, entry.clientOrderId_outcome.trans hcl⟩
  · have hadm' : s.gateway.Admits approved tradeMode :=
      ⟨hadm.1.trans hinv.accountId.symm, hadm.2.1.trans hinv.binding.symm,
        hinv.tradeModes ▸ hadm.2.2⟩
    refine ⟨fun p hhol => ?_, fun hfree => ?_⟩
    · obtain ⟨entry, hent, hfin, hcl⟩ := hkey.exists_entry hhol
      rw [prepareSubmit_of_entry hadm' hent, hfin]
      refine ⟨fun hsame => ⟨_, if_pos hsame.symm, entry.clientOrderId_outcome.trans hcl⟩, ?_⟩
      exact fun hoth => if_neg (Ne.symm hoth)
    · have hnone : s.gateway.idempotency key = none := by
        have hheld := hkey.held
        rw [hfree] at hheld
        exact Option.map_eq_none_iff.mp hheld
      obtain ⟨g', hok, halt⟩ := prepareSubmit_of_free hadm' hnone
      refine ⟨g', hok, ?_, ?_⟩
      · simp [halt.idempotency]
      · simp [Submissions.step, hok, Submissions.record, holder]

end Reap.Gateway
