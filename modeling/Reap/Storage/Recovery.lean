import Reap.Base.Check
import Mathlib.Data.List.Basic
import Mathlib.Data.Nat.Notation
import Mathlib.Tactic.SplitIfs

/-!
# Recovery of the storage journal

The storage journal has one record a line. Recovery reads the lines in order and rebuilds, among
other things, which orders the program owns: a regular submit request *proves* its client order id,
and an acknowledgement of it binds an exchange order id to it. Live recovery holds the journal's
lease and keeps these proofs; every other recovery drops them.

`Schema` stands for the records and their text: what a record says about an order, how the writer
encodes it and what the reader makes of a line. Records of the other kinds change no proof and are
all alike here. The maps are lists of their entries, of which no two have the same key.

## What is proved

* `Ownership.Inv.apply` — what a record keeps of the proofs.
* `readLines_spec` — the records that are read are those that the lines decode to.
* `ownership_proven` — recovered ownership is proven and one-to-one.
-/

namespace Reap.Storage

open Base List Except

/-- What was requested. -/
inductive OrderOperation where
  | submit
  | cancel
  deriving DecidableEq, Repr

/-- What was answered. -/
inductive OrderAckStatus where
  | accepted
  | duplicate
  | pendingReconciliation
  | rejected
  | ambiguous
  deriving DecidableEq, Repr

/-- The record of a request to the venue. -/
structure OrderRequestRecord where
  accountId : String
  operation : OrderOperation
  idempotencyKey : Option String
  clientOrderId : Option String
  exchangeOrderId : Option String
  symbol : String
  deriving DecidableEq

/-- The answer to a request. -/
structure OrderAckRecord where
  accountId : String
  operation : OrderOperation
  clientOrderId : String
  exchangeOrderId : Option String
  status : OrderAckStatus
  deriving DecidableEq

/-- What a record says about the ownership of an order. -/
inductive RecordKind where
  | orderRequest (request : OrderRequestRecord)
  | orderAck (ack : OrderAckRecord)
  | other
  deriving DecidableEq

/-- `char::is_whitespace`. -/
def isWhitespace (c : Char) : Bool :=
  let n := c.toNat
  (9 ≤ n && n ≤ 13) || n == 32 || n == 0x85 || n == 0xA0 || n == 0x1680 ||
    (0x2000 ≤ n && n ≤ 0x200A) || n == 0x2028 || n == 0x2029 || n == 0x202F || n == 0x205F ||
    n == 0x3000

/-- `text.trim().is_empty()`. -/
def blank (text : List Char) : Bool := text.all isWhitespace

/-- The records and their text form. An encoded record is one line that is not blank and does not
end in a carriage return, and it reads back with the current schema version. (Numbers that are not
finite would be written as `null`; the records hold none.) -/
class Schema (ρ : Type) where
  kind : ρ → RecordKind
  encode : ρ → List Char
  decode : List Char → Except String (ℕ × ρ)
  decode_encode : ∀ record, decode (encode record) = .ok (7, record)
  no_newline : ∀ record, '\n' ∉ encode record
  no_return : ∀ record, (encode record).getLast? ≠ some '\r'
  not_blank : ∀ record, blank (encode record) = false

/-! ### Ownership -/

/-- A request that proves a client order. -/
structure ProvenRegularSubmitRequest where
  accountId : String
  symbol : String
  clientOrderId : String
  idempotencyKey : String
  deriving DecidableEq

/-- Its exchange order. -/
structure ProvenRegularOrderBinding where
  request : ProvenRegularSubmitRequest
  exchangeOrderId : String
  deriving DecidableEq

/-- A binding taken from an acknowledgement alone. -/
structure LegacyBinding where
  accountId : String
  exchangeOrderId : String
  clientOrderId : String
  deriving DecidableEq

/-- The part of `RecoveredStorage` that says which orders are owned. -/
structure Ownership where
  orderBindings : List LegacyBinding := []
  provenRegularSubmitRequests : List ProvenRegularSubmitRequest := []
  provenRegularOrderBindings : List ProvenRegularOrderBinding := []
  deriving DecidableEq

def nonemptyRecoveredField (value : String) : Bool := !blank value.toList

def validRecoveredOrderId (value : String) : Bool := nonemptyRecoveredField value && value != "0"

namespace Ownership

variable (o : Ownership)

/-- The proven request of a client order. -/
def requestOf (accountId clientOrderId : String) : Option ProvenRegularSubmitRequest :=
  o.provenRegularSubmitRequests.find? fun r =>
    r.accountId = accountId && r.clientOrderId = clientOrderId

/-- The proof that a well-formed submit request gives. -/
def proof (request : OrderRequestRecord) : Option ProvenRegularSubmitRequest :=
  match request.idempotencyKey, request.clientOrderId with
  | some idempotencyKey, some clientOrderId =>
    if request.operation = .submit ∧ nonemptyRecoveredField request.accountId ∧
        nonemptyRecoveredField request.symbol ∧ validRecoveredOrderId clientOrderId ∧
        nonemptyRecoveredField idempotencyKey ∧ request.exchangeOrderId = none then
      some ⟨request.accountId, request.symbol, clientOrderId, idempotencyKey⟩
    else none
  | _, _ => none

/-- A submit request. -/
def applyProvenRegularSubmitRequest (request : OrderRequestRecord) : Except String Ownership :=
  match proof request with
  | none => .ok o
  | some proof =>
    match o.requestOf proof.accountId proof.clientOrderId with
    | some existing =>
      if existing ≠ proof then
        .error (s!"account {proof.accountId} client order {proof.clientOrderId} has conflicting " ++
          "proven regular submit requests")
      else .ok o
    | none => .ok { o with
        provenRegularSubmitRequests := o.provenRegularSubmitRequests ++ [proof] }

/-- A binding without proof. -/
def applyLegacyOrderBinding (ack : OrderAckRecord) : Except String Ownership :=
  match ack.exchangeOrderId with
  | none => .ok o
  | some exchangeOrderId =>
    if ack.clientOrderId = "" ∨ ack.clientOrderId = "0" ∨ exchangeOrderId = "" ∨
        exchangeOrderId = "0" then .ok o
    else
      let bindings := o.orderBindings.filter fun b => b.accountId = ack.accountId
      let known := bindings.find? fun b => b.exchangeOrderId = exchangeOrderId
      match known.filter fun b => b.clientOrderId ≠ ack.clientOrderId with
      | some existing =>
        .error (s!"account {ack.accountId} exchange order {exchangeOrderId} is bound to both " ++
          s!"client orders {existing.clientOrderId} and {ack.clientOrderId}")
      | none =>
        match bindings.find? fun b =>
            b.clientOrderId = ack.clientOrderId && b.exchangeOrderId ≠ exchangeOrderId with
        | some existing =>
          .error (s!"account {ack.accountId} client order {ack.clientOrderId} is bound to both " ++
            s!"exchange orders {existing.exchangeOrderId} and {exchangeOrderId}")
        | none =>
          .ok (if known.isSome then o else { o with orderBindings :=
            o.orderBindings ++ [⟨ack.accountId, exchangeOrderId, ack.clientOrderId⟩] })

/-- The proofs of a client order are dropped. -/
def retract (accountId clientOrderId : String) : Ownership :=
  { o with
    provenRegularSubmitRequests := o.provenRegularSubmitRequests.filter fun r =>
      !(r.accountId = accountId && r.clientOrderId = clientOrderId)
    provenRegularOrderBindings := o.provenRegularOrderBindings.filter fun b =>
      !(b.request.accountId = accountId && b.request.clientOrderId = clientOrderId) }

/-- The end of `apply_proven_regular_submit_ack`: an exchange order id for a proven request. -/
def bind (request : ProvenRegularSubmitRequest) (exchangeOrderId : String) :
    Except String Ownership :=
  let bindings := o.provenRegularOrderBindings.filter fun b =>
    b.request.accountId = request.accountId
  match bindings.find? fun b => b.exchangeOrderId = exchangeOrderId with
  | some existing =>
    if existing ≠ ⟨request, exchangeOrderId⟩ then
      .error (s!"account {request.accountId} exchange order {exchangeOrderId} has conflicting " ++
        "proven regular bindings")
    else .ok o
  | none =>
    match bindings.find? fun b => b.request.clientOrderId = request.clientOrderId with
    | some existing =>
      .error (s!"account {request.accountId} proven client order {request.clientOrderId} is " ++
        s!"bound to both exchange orders {existing.exchangeOrderId} and {exchangeOrderId}")
    | none => .ok { o with provenRegularOrderBindings :=
        o.provenRegularOrderBindings ++ [⟨request, exchangeOrderId⟩] }

/-- A submit answer. -/
def applyProvenRegularSubmitAck (ack : OrderAckRecord) : Except String Ownership :=
  if ack.operation ≠ .submit ∨ !nonemptyRecoveredField ack.accountId ∨
      !validRecoveredOrderId ack.clientOrderId then .ok o
  else if ack.status = .rejected then .ok (o.retract ack.accountId ack.clientOrderId)
  else if ack.status ≠ .accepted ∧ ack.status ≠ .duplicate then .ok o
  else
    match ack.exchangeOrderId with
    | none => .ok o
    | some exchangeOrderId =>
      if !validRecoveredOrderId exchangeOrderId then .ok o
      else
        match o.requestOf ack.accountId ack.clientOrderId with
        | none => .ok o
        | some request => o.bind request exchangeOrderId

/-- What a record does. -/
def apply : RecordKind → Except String Ownership
  | .orderRequest request => o.applyProvenRegularSubmitRequest request
  | .orderAck ack => do
    let o ← o.applyLegacyOrderBinding ack
    o.applyProvenRegularSubmitAck ack
  | .other => .ok o

end Ownership

/-! ### Reading -/

/-- The modelled part of `RecoveredStorage`, with the records that were read. -/
structure RecoveredStorage (ρ : Type) where
  visited : List ρ := []
  ownership : Ownership := {}
  ignoredTruncatedTail : Bool := false

/-- Why recovery fails. -/
inductive StorageError where
  | io
  | corrupt (line : ℕ) (message : String)
  deriving DecidableEq

/-- A carriage return before the newline belongs to the line end. -/
def stripReturn (line : List Char) : List Char :=
  if line.getLast? = some '\r' then line.dropLast else line

/-- `str::lines`, with the characters of the current line so far. -/
def linesFrom : List Char → List Char → List (List Char)
  | current, [] => if current = [] then [] else [current]
  | current, c :: rest =>
    if c = '\n' then stripReturn current :: linesFrom [] rest else linesFrom (current ++ [c]) rest

variable {ρ : Type} [Schema ρ]

/-- One line. Only a last line without a newline may fail to decode. -/
def readLine (torn : Bool) (line : ℕ) (text : List Char) (s : RecoveredStorage ρ) :
    Except StorageError (RecoveredStorage ρ) :=
  if blank text then .ok s
  else
    match (Schema.decode text : Except String (ℕ × ρ)) with
    | .error message =>
      if torn then .ok { s with ignoredTruncatedTail := true } else .error (.corrupt line message)
    | .ok (version, record) =>
      if version < 2 ∨ 7 < version then
        .error (.corrupt line s!"unsupported schema version {version}")
      else
        match s.ownership.apply (Schema.kind record) with
        | .error message => .error (.corrupt line message)
        | .ok ownership =>
          .ok { s with visited := s.visited ++ [record], ownership := ownership }

/-- The loop over the lines. -/
def readLines (trailingNewline : Bool) : ℕ → List (List Char) → RecoveredStorage ρ →
    Except StorageError (RecoveredStorage ρ)
  | _, [], s => .ok s
  | line, text :: rest, s => do
    let s ← readLine (rest.isEmpty && !trailingNewline) line text s
    readLines trailingNewline (line + 1) rest s

/-- `recover_jsonl_bytes_with_visitor_inner`; the lease decides whether the proofs are retained. -/
def recover (bytes : ByteArray) (retainRegularAuthority : Bool) :
    Except StorageError (RecoveredStorage ρ) :=
  match String.fromUTF8? bytes with
  | none => .error .io
  | some text => do
    let s ← readLines (text.toList.getLast? = some '\n') 1 (linesFrom [] text.toList) {}
    if retainRegularAuthority then .ok s
    else
      .ok { s with ownership := { s.ownership with
        provenRegularSubmitRequests := [], provenRegularOrderBindings := [] } }

/-- The record of a line that is not blank. -/
def recordOf (text : List Char) : Option ρ :=
  if blank text then none else (Schema.decode text).toOption.map Prod.snd

/-- The records of a journal: what its lines decode to, in order. -/
def recordsOf (bytes : ByteArray) : List ρ :=
  match String.fromUTF8? bytes with
  | none => []
  | some text => (linesFrom [] text.toList).filterMap recordOf

/-! ### Provenance -/

/-- A rejected submit acknowledgement of a client order. -/
def Rejects (accountId clientOrderId : String) : RecordKind → Prop
  | .orderAck ack => ack.operation = .submit ∧ ack.status = .rejected ∧
    ack.accountId = accountId ∧ ack.clientOrderId = clientOrderId
  | _ => False

/-- A submit acknowledgement that accepts a client order under an exchange order id. -/
def Accepts (accountId clientOrderId exchangeOrderId : String) : RecordKind → Prop
  | .orderAck ack => ack.operation = .submit ∧ (ack.status = .accepted ∨ ack.status = .duplicate) ∧
    ack.accountId = accountId ∧ ack.clientOrderId = clientOrderId ∧
    ack.exchangeOrderId = some exchangeOrderId
  | _ => False

/-- The records contain a well-formed submit request that gives this proof, and no later rejection
of its client order. -/
def Requested (records : List RecordKind) (r : ProvenRegularSubmitRequest) : Prop :=
  ∃ before request after, records = before ++ .orderRequest request :: after ∧
    Ownership.proof request = some r ∧ ∀ k ∈ after, ¬ Rejects r.accountId r.clientOrderId k

/-- As `Requested`, and an acknowledgement that accepts the order follows the request. -/
def Acknowledged (records : List RecordKind) (b : ProvenRegularOrderBinding) : Prop :=
  ∃ before request middle ack after,
    records = before ++ .orderRequest request :: middle ++ ack :: after ∧
    Ownership.proof request = some b.request ∧
    Accepts b.request.accountId b.request.clientOrderId b.exchangeOrderId ack ∧
    ∀ k ∈ middle ++ ack :: after, ¬ Rejects b.request.accountId b.request.clientOrderId k

section

variable {records : List RecordKind} {k : RecordKind} {r : ProvenRegularSubmitRequest}
  {b : ProvenRegularOrderBinding}

theorem Requested.append (h : Requested records r)
    (hk : ¬ Rejects r.accountId r.clientOrderId k) : Requested (records ++ [k]) r := by
  obtain ⟨before, request, after, rfl, hpro, hcle⟩ := h
  exact ⟨before, request, after ++ [k], by simp, hpro, forall_mem_concat.mpr ⟨hcle, hk⟩⟩

theorem Acknowledged.append (h : Acknowledged records b)
    (hk : ¬ Rejects b.request.accountId b.request.clientOrderId k) :
    Acknowledged (records ++ [k]) b := by
  obtain ⟨before, request, middle, a, after, rfl, hpro, hacc, hcle⟩ := h
  refine ⟨before, request, middle, a, after ++ [k], by simp, hpro, hacc, ?_⟩
  rw [← cons_append, ← append_assoc]
  exact forall_mem_concat.mpr ⟨hcle, hk⟩

end

namespace Ownership

/-- The proofs, against the records that were read. -/
structure Inv (records : List RecordKind) (o : Ownership) : Prop where
  requested : ∀ r ∈ o.provenRegularSubmitRequests, Requested records r
  acknowledged : ∀ b ∈ o.provenRegularOrderBindings, Acknowledged records b
  /-- A binding is that of the request retained for its client. -/
  retained : ∀ b ∈ o.provenRegularOrderBindings,
    o.requestOf b.request.accountId b.request.clientOrderId = some b.request
  /-- In an account, neither an exchange order nor a client order has two bindings. -/
  injective : ∀ b ∈ o.provenRegularOrderBindings, ∀ c ∈ o.provenRegularOrderBindings,
    b.request.accountId = c.request.accountId →
    b.exchangeOrderId = c.exchangeOrderId ∨ b.request.clientOrderId = c.request.clientOrderId →
    b = c

section

variable {records : List RecordKind} {k : RecordKind} {o o' : Ownership} {ack : OrderAckRecord}
  {r : ProvenRegularSubmitRequest} {b : ProvenRegularOrderBinding}
  {accountId clientOrderId : String}

theorem requestOf_eq_some (h : o.requestOf accountId clientOrderId = some r) :
    r ∈ o.provenRegularSubmitRequests ∧ r.accountId = accountId ∧
      r.clientOrderId = clientOrderId := by
  have hkey := find?_some h
  simp only [Bool.and_eq_true, decide_eq_true_eq] at hkey
  exact ⟨mem_of_find?_eq_some h, hkey⟩

theorem proof_valid {request : OrderRequestRecord} (h : proof request = some r) :
    nonemptyRecoveredField r.accountId ∧ validRecoveredOrderId r.clientOrderId := by
  unfold proof at h
  split at h
  · split_ifs at h with hval
    cases h
    exact ⟨hval.2.1, hval.2.2.2.1⟩
  · cases h

section

variable (h : Inv records o)

include h

/-- A record that rejects no proven request and changes no proof. -/
theorem Inv.append
    (hk : ∀ r ∈ o.provenRegularSubmitRequests, ¬ Rejects r.accountId r.clientOrderId k) :
    Inv (records ++ [k]) o := by
  refine ⟨fun r hr => (h.requested r hr).append (hk r hr), fun b hb => ?_, h.retained, h.injective⟩
  exact (h.acknowledged b hb).append (hk _ (requestOf_eq_some (h.retained b hb)).1)

theorem Inv.request {request : OrderRequestRecord}
    (happ : o.applyProvenRegularSubmitRequest request = .ok o') :
    Inv (records ++ [.orderRequest request]) o' := by
  have hkept : Inv (records ++ [.orderRequest request]) o := h.append fun _ _ => id
  unfold applyProvenRegularSubmitRequest at happ
  cases hpro : proof request with
  | none =>
    simp only [hpro, ok.injEq] at happ
    exact happ ▸ hkept
  | some r =>
    cases hexi : o.requestOf r.accountId r.clientOrderId with
    | some =>
      simp only [hpro, hexi] at happ
      split_ifs at happ
      cases happ
      exact hkept
    | none =>
      simp only [hpro, hexi, ok.injEq] at happ
      subst happ
      refine ⟨forall_mem_concat.mpr ⟨hkept.requested, records, request, [], rfl, hpro, nofun⟩,
        hkept.acknowledged, fun b hb => ?_, hkept.injective⟩
      have hret := hkept.retained b hb
      unfold requestOf at hret ⊢
      rw [find?_append, hret]
      rfl

theorem Inv.retract
    (hrej : ∀ r : ProvenRegularSubmitRequest, Rejects r.accountId r.clientOrderId k →
      r.accountId = accountId ∧ r.clientOrderId = clientOrderId)
    : Inv (records ++ [k]) (o.retract accountId clientOrderId) := by
  refine ⟨fun r hr => ?_, fun b hb => ?_, fun b hb => ?_, fun b hb c hc => ?_⟩
  · obtain ⟨hr, hne⟩ := mem_filter.mp hr
    exact (h.requested r hr).append fun hk => by simp [hrej r hk] at hne
  · obtain ⟨hb, hne⟩ := mem_filter.mp hb
    exact (h.acknowledged b hb).append fun hk => by simp [hrej b.request hk] at hne
  · obtain ⟨hb, hne⟩ := mem_filter.mp hb
    have hret := h.retained b hb
    unfold requestOf Ownership.retract at *
    rw [find?_filter, ← hret]
    -- the client order of `b` is not the rejected one, so no request of it is dropped
    congr 1
    funext q
    by_cases hq : q.accountId = b.request.accountId ∧ q.clientOrderId = b.request.clientOrderId
    · simp only [hq.1, hq.2, hne]
      simp
    · have hkey : (decide (q.accountId = b.request.accountId) &&
          decide (q.clientOrderId = b.request.clientOrderId)) = false := by
        simpa using hq
      simp [hkey]
  · exact h.injective b (mem_filter.mp hb).1 c (mem_filter.mp hc).1

theorem Inv.bind {exchangeOrderId : String}
    (hreq : o.requestOf r.accountId r.clientOrderId = some r)
    (hk : ∀ q ∈ o.provenRegularSubmitRequests, ¬ Rejects q.accountId q.clientOrderId k)
    (hacce : Accepts r.accountId r.clientOrderId exchangeOrderId k)
    (hbind : o.bind r exchangeOrderId = .ok o') : Inv (records ++ [k]) o' := by
  have hkept := h.append hk
  have hmem := (requestOf_eq_some hreq).1
  simp only [Ownership.bind] at hbind
  split at hbind
  · split_ifs at hbind
    cases hbind
    exact hkept
  · rename_i hexc
    split at hbind
    · cases hbind
    · rename_i hcl
      cases hbind
      rw [find?_filter, find?_eq_none] at hexc hcl
      have hfr : ∀ b ∈ o.provenRegularOrderBindings, b.request.accountId = r.accountId →
          ¬ (b.exchangeOrderId = exchangeOrderId ∨ b.request.clientOrderId = r.clientOrderId) := by
        rintro b hb hacc (hsame | hsame)
        · exact hexc b hb (by simp [hacc, hsame])
        · exact hcl b hb (by simp [hacc, hsame])
      refine ⟨hkept.requested, forall_mem_concat.mpr ⟨hkept.acknowledged, ?_⟩,
        forall_mem_concat.mpr ⟨hkept.retained, hreq⟩, forall_mem_concat.mpr
          ⟨fun b hb => forall_mem_concat.mpr ⟨h.injective b hb, fun hacc hsame => ?_⟩,
            forall_mem_concat.mpr ⟨fun c hc hacc hsame => ?_, fun _ _ => rfl⟩⟩⟩
      · obtain ⟨before, request, after, rfl, hpro, hcle⟩ := h.requested r hmem
        exact ⟨before, request, after, k, [], by simp, hpro, hacce,
          forall_mem_concat.mpr ⟨hcle, hk r hmem⟩⟩
      · exact absurd hsame (hfr b hb hacc)
      · exact absurd (hsame.imp Eq.symm Eq.symm) (hfr c hc hacc.symm)

theorem Inv.acknowledge (happ : o.applyProvenRegularSubmitAck ack = .ok o') :
    Inv (records ++ [.orderAck ack]) o' := by
  unfold applyProvenRegularSubmitAck at happ
  split_ifs at happ with hskip hrej hst
  · -- a rejection of a proven request would have passed the checks
    cases happ
    refine h.append fun r hr ⟨hope, _, hacc, hcl⟩ => ?_
    obtain ⟨-, request, -, -, hpro, -⟩ := h.requested r hr
    have hval := proof_valid hpro
    simp [hope, hacc, hcl, hval] at hskip
  · cases happ
    exact h.retract fun r ⟨_, _, hacc, hcl⟩ => ⟨hacc.symm, hcl.symm⟩
  · cases happ
    exact h.append fun r _ ⟨_, hst', _⟩ => hrej hst'
  · have hkeep : ∀ r ∈ o.provenRegularSubmitRequests,
        ¬ Rejects r.accountId r.clientOrderId (.orderAck ack) :=
      fun r _ ⟨_, hst', _⟩ => hrej hst'
    cases hexc : ack.exchangeOrderId with
    | none =>
      simp only [hexc, ok.injEq] at happ
      exact happ ▸ h.append hkeep
    | some =>
      simp only [hexc] at happ
      split_ifs at happ
      · cases happ
        exact h.append hkeep
      · cases hreq : o.requestOf ack.accountId ack.clientOrderId with
        | none =>
          simp only [hreq, ok.injEq] at happ
          exact happ ▸ h.append hkeep
        | some =>
          simp only [hreq] at happ
          obtain ⟨-, hacc, hcl⟩ := requestOf_eq_some hreq
          rw [← hacc, ← hcl] at hreq
          refine h.bind hreq hkeep ⟨?_, ?_, hacc.symm, hcl.symm, hexc⟩ happ
          · exact not_not.mp fun hne => hskip (.inl hne)
          · tauto

end

theorem applyLegacyOrderBinding_proofs (happ : o.applyLegacyOrderBinding ack = .ok o') :
    o'.provenRegularSubmitRequests = o.provenRegularSubmitRequests ∧
      o'.provenRegularOrderBindings = o.provenRegularOrderBindings := by
  simp only [applyLegacyOrderBinding] at happ
  repeat' split at happ
  all_goals cases happ
  all_goals exact ⟨rfl, rfl⟩

/-- What a record keeps of the proofs. -/
theorem Inv.apply (h : Inv records o) (happ : o.apply k = .ok o') : Inv (records ++ [k]) o' := by
  cases k with
  | orderRequest => exact h.request happ
  | orderAck =>
    obtain ⟨legacy, hleg, happ⟩ := bind_eq_ok.mp happ
    obtain ⟨hreq, hbin⟩ := applyLegacyOrderBinding_proofs hleg
    refine Inv.acknowledge ⟨?_, ?_, ?_, ?_⟩ happ
    · exact hreq ▸ h.requested
    · exact hbin ▸ h.acknowledged
    · unfold requestOf
      rw [hreq, hbin]
      exact h.retained
    · exact hbin ▸ h.injective
  | other =>
    cases happ
    exact h.append fun _ _ => id

end

end Ownership

section

variable {s t : RecoveredStorage ρ} {line : ℕ}

/-- A line that gives no record: it is blank, or it is not the text of a record. -/
def Silent (ρ : Type) [Schema ρ] (text : List Char) : Prop :=
  blank text = true ∨ ∃ message, (Schema.decode text : Except String (ℕ × ρ)) = .error message

variable {text : List Char}

/-- How a line is read: as nothing, or as one record. -/
theorem readLine_cases {torn : Bool} (h : readLine torn line text s = .ok t) :
    (Silent ρ text ∧ t.visited = s.visited ∧ t.ownership = s.ownership) ∨
      ∃ version record, ¬ Silent ρ text ∧ Schema.decode text = .ok (version, record) ∧
        2 ≤ version ∧ version ≤ 7 ∧ t.visited = s.visited ++ [record] ∧
        s.ownership.apply (Schema.kind record) = .ok t.ownership := by
  unfold readLine at h
  by_cases hbla : blank text
  · rw [if_pos hbla] at h
    cases h
    exact .inl ⟨.inl hbla, rfl, rfl⟩
  · cases hdec : (Schema.decode text : Except String (ℕ × ρ)) with
    | error message =>
      simp only [hdec] at h
      split_ifs at h
      cases h
      exact .inl ⟨.inr ⟨message, hdec⟩, rfl, rfl⟩
    | ok entry =>
      simp only [hdec] at h
      split_ifs at h with hver
      cases happ : s.ownership.apply (Schema.kind entry.2) with
      | error => simp [happ] at h
      | ok =>
        simp only [happ, ok.injEq] at h
        subst h
        refine .inr ⟨entry.1, entry.2, ?_, rfl, by omega, by omega, rfl, happ⟩
        simp [Silent, hbla, hdec]

theorem recordOf_of_silent (h : Silent ρ text) : (recordOf text : Option ρ) = none := by
  unfold recordOf
  rcases h with hbla | ⟨message, hdec⟩
  · exact if_pos hbla
  · simp [hdec, Except.toOption]

/-- What is read of the lines are their records, and the proofs rest on them. -/
theorem readLines_spec {trailingNewline : Bool} {lines : List (List Char)}
    (h : s.ownership.Inv (s.visited.map Schema.kind))
    (hread : readLines trailingNewline line lines s = .ok t) :
    t.visited = s.visited ++ lines.filterMap recordOf ∧
      t.ownership.Inv (t.visited.map Schema.kind) := by
  induction lines generalizing s line with
  | nil =>
    cases hread
    exact ⟨(append_nil _).symm, h⟩
  | cons _ _ ih =>
    obtain ⟨next, hline, hread⟩ := bind_eq_ok.mp hread
    rcases readLine_cases hline with
      ⟨hsil, hvis, hown⟩ | ⟨version, record, hloud, hdec, -, -, hvis, happ⟩
    · rw [filterMap_cons, recordOf_of_silent hsil, ← hvis]
      exact ih (by rwa [hvis, hown]) hread
    · have hinv : next.ownership.Inv (next.visited.map Schema.kind) := by
        rw [hvis, map_append]
        exact h.apply happ
      obtain ⟨hrest, hproofs⟩ := ih hinv hread
      rw [filterMap_cons, recordOf, if_neg fun hbla => hloud (.inl hbla), hdec]
      refine ⟨?_, hproofs⟩
      rw [hrest, hvis, append_assoc, singleton_append]
      rfl

end

/-- **Recovered order ownership is proven and one-to-one.** The proofs of a leased recovery rest on
the records that the lines of the journal decode to; a recovery without a lease has none. -/
theorem ownership_proven (bytes : ByteArray) (s : RecoveredStorage ρ) :
    (recover bytes true = .ok s → s.visited = recordsOf bytes ∧
      s.ownership.Inv ((recordsOf bytes : List ρ).map Schema.kind)) ∧
    (recover bytes false = .ok s → s.ownership.provenRegularSubmitRequests = [] ∧
      s.ownership.provenRegularOrderBindings = []) := by
  unfold recover recordsOf
  cases htext : String.fromUTF8? bytes with
  | none => exact ⟨nofun, nofun⟩
  | some =>
    refine ⟨fun h => ?_, fun h => ?_⟩
    · obtain ⟨t, hread, ht⟩ := bind_eq_ok.mp h
      cases ht
      obtain ⟨hvis, hinv⟩ := readLines_spec (by constructor <;> simp) hread
      rw [nil_append] at hvis
      rw [hvis] at hinv
      exact ⟨hvis, hinv⟩
    · obtain ⟨t, -, ht⟩ := bind_eq_ok.mp h
      cases ht
      exact ⟨rfl, rfl⟩

/-! ### A journal of four records -/

namespace Sample

/-- A request, its acknowledgement, a rejection of it, and a record of another kind. -/
inductive Entry where
  | request
  | ack
  | reject
  | note
  deriving DecidableEq, Repr

def kind : Entry → RecordKind
  | .request => .orderRequest ⟨"main", .submit, some "key", some "client", none, "BTC"⟩
  | .ack => .orderAck ⟨"main", .submit, "client", some "exchange", .accepted⟩
  | .reject => .orderAck ⟨"main", .submit, "client", none, .rejected⟩
  | .note => .other

def letter : Entry → Char
  | .request => 'q'
  | .ack => 'a'
  | .reject => 'r'
  | .note => 'n'

instance : Schema Entry where
  kind := kind
  encode entry := [letter entry, ';']
  decode
    | ['q', ';'] => .ok (7, .request)
    | ['a', ';'] => .ok (7, .ack)
    | ['r', ';'] => .ok (7, .reject)
    | ['n', ';'] => .ok (7, .note)
    | _ => .error "not a record"
  decode_encode entry := by cases entry <;> rfl
  no_newline entry := by cases entry <;> decide
  no_return entry := by cases entry <;> decide
  not_blank entry := by cases entry <;> decide

def binding : ProvenRegularOrderBinding := ⟨⟨"main", "BTC", "client", "key"⟩, "exchange"⟩

end Sample

open Sample

theorem ownership_proven_bound :
    ∃ s : RecoveredStorage Entry, recover "n;\nq;\na;\n".toUTF8 true = .ok s ∧
      s.ownership.provenRegularOrderBindings = [binding] ∧
      s.ownership.Inv ([.note, .request, .ack].map kind) := by
  have h : ∃ s : RecoveredStorage Entry, recover "n;\nq;\na;\n".toUTF8 true = .ok s ∧
      s.ownership.provenRegularOrderBindings = [binding] := ⟨_, rfl, rfl⟩
  obtain ⟨s, hs, hbin⟩ := h
  exact ⟨s, hs, hbin, ((ownership_proven _ s).1 hs).2⟩

end Reap.Storage
