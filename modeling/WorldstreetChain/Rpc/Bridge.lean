import WorldstreetChain.Node.Execution
import WorldstreetChain.Rpc.Reserve

/-!
# Bridge operations over RPC (`bridge_mint`, `bridge_burn` and the queries about them)

A bridge operation comes with an id its caller has chosen; the node queues it unless an operation
with that id waits or is processed. The list of recent operations is read off the records of the
state, which are kept in the order of their ids.

* `Rpc.bridgeAssetOperation`, `Rpc.bridgeOperationStatus`, `Rpc.bridgeOperationsRecent` -- the
  handlers.
* `Rpc.Recorded` -- records stand under their ids, and what is on record is processed.
* `Rpc.recent_iff` -- **when an operation on record is listed**: exactly if fewer than 1000
  operations on record have a greater id.
-/

namespace WorldstreetChain

open Std

namespace Rpc

/-! ## 1. The handlers -/

structure BridgeOperationParams where
  operatorToken : String
  operationId : String
  assetId : String
  address : String
  destination : String
  amount : String
  externalTransaction : String
  memo : String
  deriving DecidableEq

/-- The value of a hexadecimal digit. -/
def hexValue (c : Char) : Option Nat :=
  if '0' ≤ c ∧ c ≤ '9' then some (c.toNat - 48)
  else if 'a' ≤ c ∧ c ≤ 'f' then some (c.toNat - 87)
  else if 'A' ≤ c ∧ c ≤ 'F' then some (c.toNat - 55)
  else none

/-- `hex::decode`: two digits a byte, in either case. -/
def hexDecode : List Char → Option (List UInt8)
  | [] => some []
  | [_] => none
  | c :: d :: rest => do
    let high ← hexValue c
    let low ← hexValue d
    let bytes ← hexDecode rest
    some (UInt8.ofNat (16 * high + low) :: bytes)

theorem hexValue_digitChar : ∀ n < 16, hexValue (Nat.digitChar n) = some n := by
  decide

/-- Bytes are read back from their digits. -/
theorem hexDecode_hexByte (bytes : List UInt8) : hexDecode (bytes.flatMap hexByte) = some bytes := by
  induction bytes with
  | nil => rfl
  | cons b bytes ih =>
    have hlt := b.toNat_lt
    have hhigh := hexValue_digitChar (b.toNat / 16) (by omega)
    have hlow := hexValue_digitChar (b.toNat % 16) (by omega)
    have hbyte : UInt8.ofNat (16 * (b.toNat / 16) + b.toNat % 16) = b := by
      rw [Nat.div_add_mod]
      exact UInt8.ofNat_toNat
    show hexDecode (Nat.digitChar (b.toNat / 16) :: Nat.digitChar (b.toNat % 16) ::
      bytes.flatMap hexByte) = _
    rw [hexDecode, hhigh, hlow, ih]
    show some (UInt8.ofNat (16 * (b.toNat / 16) + b.toNat % 16) :: bytes) = _
    rw [hbyte]

def parseHash (value : String) : Outcome RpcError Hash := do
  let bytes ← orFail (hexDecode value.toList) (.reply (-32602) "hash must be 32-byte hex")
  if h : bytes.length = 32 then .ok ⟨⟨bytes.toArray, h⟩⟩
  else .error (.err (.reply (-32602) "hash must be 32-byte hex"))

/-- The operation the parameters describe. -/
def bridgeOperation (ctx : Context) (kind : AssetOperationKind) (p : BridgeOperationParams) :
    Outcome RpcError AssetOperation := do
  rejectIf (ctx.operatorToken = "" ∨ p.operatorToken ≠ ctx.operatorToken)
    (.reply (-32001) "bridge operator authorization failed")
  let operationId ← parseHash p.operationId
  let assetId ← parseAssetId p.assetId
  let address ← parseAddress ctx p.address
  let amount ← orFail (parseU128 p.amount)
    (.reply (-32602) "amount must be an unsigned integer string")
  rejectIf (amount = 0) (.reply (-32602) "amount must be greater than zero")
  .ok
    { version := 1
      operationId := operationId
      kind := kind
      assetId := assetId
      address := address
      destination := p.destination
      amount := amount
      externalTransaction := p.externalTransaction
      memo := p.memo }

def bridgeAssetOperation (ctx : Context) (n : Node) (kind : AssetOperationKind)
    (p : BridgeOperationParams) : Applied RpcError Node Queued :=
  .attempt n (bridgeOperation ctx kind p) fun o =>
  let submitted := n.submitAssetOperation o
  .attempt submitted.state (submitted.result.mapErr .node) fun id =>
  ⟨.ok { operationId := id.toHex, status := "queued" }, submitted.state⟩

/-- What a query says of an operation's whereabouts. -/
inductive OperationStatus where
  | confirmed
  | pending
  | notFound
  deriving DecidableEq

/-- The whereabouts of an id. -/
def statusOf (n : Node) (id : Hash) : OperationStatus :=
  if id ∈ n.state.processedAssetOperations then .confirmed
  else if id ∈ n.pendingAssetOperations.map AssetOperation.operationId then .pending
  else .notFound

def bridgeOperationStatus (n : Node) (operationId : String) : Outcome RpcError OperationStatus := do
  let id ← parseHash operationId
  .ok (statusOf n id)

/-- An operation as the answers show it. -/
structure AssetOperationView where
  operationId : String
  kind : String
  assetId : String
  address : String
  destination : String
  amount : String
  externalTransaction : String
  memo : String
  deriving DecidableEq

/-- `addressText` is the Bech32m encoder. -/
def assetOperationView (addressText : Address → String) (o : AssetOperation) :
    AssetOperationView where
  operationId := o.operationId.toHex
  kind := match o.kind with
    | .mint => "mint"
    | .burn => "burn"
  assetId := o.assetId.canonicalKey
  address := addressText o.address
  destination := o.destination
  amount := toString o.amount.toNat
  externalTransaction := o.externalTransaction
  memo := o.memo

def recentLimit : Nat := 1000

/-- The operations listed: `asset_operation_records().values().rev().take(1000)`. -/
def recentOperations (s : State) : List AssetOperation :=
  ((s.assetOperationRecords.toList.map Prod.snd).reverse).take recentLimit

def bridgeOperationsRecent (addressText : Address → String) (n : Node) : List AssetOperationView :=
  (recentOperations n.state).map (assetOperationView addressText)

/-! ## 2. What is on record -/

/-- Records stand under their ids, and what is on record is processed. -/
structure Recorded (s : State) : Prop where
  named : ∀ (id : Hash) (o : AssetOperation),
    s.assetOperationRecords[id]? = some o → o.operationId = id
  processed : ∀ id : Hash, id ∈ s.assetOperationRecords → id ∈ s.processedAssetOperations

/-- What was on record before still is. -/
def Keeps (s s' : State) : Prop :=
  ∀ (id : Hash) (o : AssetOperation),
    s.assetOperationRecords[id]? = some o → s'.assetOperationRecords[id]? = some o

variable {E : Env} {n : Node} {c : Node.Call} {s s' : State} {o : AssetOperation}

theorem Keeps.refl (s : State) : Keeps s s := fun _ _ h => h

theorem Keeps.trans {s'' : State} (h : Keeps s s') (h' : Keeps s' s'') : Keeps s s'' :=
  fun id o hid => h' id o (h id o hid)

theorem Recorded.empty (h : s.assetOperationRecords = ∅) : Recorded s where
  named id o hid := by
    rw [h] at hid
    simp at hid
  processed id hid := by
    rw [h] at hid
    simp at hid

/-- **What an operation does to the records**: nothing, or it is an asset operation with a new id
    and is now on record. -/
theorem next_records (s : State) (op : Operation) :
    ((s.next E op).assetOperationRecords = s.assetOperationRecords ∧
      (s.next E op).processedAssetOperations = s.processedAssetOperations) ∨
    ∃ o, op = .asset o ∧ o.operationId ∉ s.processedAssetOperations ∧
      (s.next E op).assetOperationRecords = s.assetOperationRecords.insert o.operationId o ∧
      (s.next E op).processedAssetOperations =
        s.processedAssetOperations.insert o.operationId := by
  cases op with
  | asset o =>
    refine State.next_cases (R := fun t =>
      (t.assetOperationRecords = s.assetOperationRecords ∧
        t.processedAssetOperations = s.processedAssetOperations) ∨
      ∃ o', Operation.asset o = .asset o' ∧ o'.operationId ∉ s.processedAssetOperations ∧
        t.assetOperationRecords = s.assetOperationRecords.insert o'.operationId o' ∧
        t.processedAssetOperations = s.processedAssetOperations.insert o'.operationId)
      (Or.inl ⟨rfl, rfl⟩) (fun t ht => ?_) fun t ht => ?_
    · obtain ⟨-, hnew, _, _, -, -, rfl⟩ := State.applyAssetOperation_true ht
      exact Or.inr ⟨o, rfl, hnew, rfl, rfl⟩
    · cases ht with
      | assetRecorded _ _ hnew => exact Or.inr ⟨o, rfl, hnew, rfl, rfl⟩
      | assetMoved _ _ _ hnew => exact Or.inr ⟨o, rfl, hnew, rfl, rfl⟩
  | _ => exact Or.inl (State.next_writes.bridge nofun)

/-- The records of a state that has one more. -/
theorem Recorded.insert (h : Recorded s) (hnew : o.operationId ∉ s.processedAssetOperations)
    (hrec : s'.assetOperationRecords = s.assetOperationRecords.insert o.operationId o)
    (hproc : s'.processedAssetOperations = s.processedAssetOperations.insert o.operationId) :
    Recorded s' ∧ Keeps s s' := by
  refine ⟨⟨fun id o' hid => ?_, fun id hid => ?_⟩, fun id o' hid => ?_⟩
  · rw [hrec, ExtTreeMap.getElem?_insert] at hid
    split at hid
    · rename_i hc
      cases hid
      exact LawfulEqOrd.eq_of_compare hc
    · exact h.named id o' hid
  · rw [hrec, ExtTreeMap.mem_insert] at hid
    rw [hproc, ExtTreeSet.mem_insert]
    exact hid.imp_right (h.processed id)
  · have hne : ¬ compare o.operationId id = .eq := by
      intro hc
      rw [LawfulEqOrd.eq_of_compare hc] at hnew
      exact hnew (h.processed id (ExtTreeMap.mem_iff_isSome_getElem?.mpr (by rw [hid]; rfl)))
    rw [hrec, ExtTreeMap.getElem?_insert, if_neg hne]
    exact hid

/-- An operation keeps what is on record. -/
theorem Recorded.next (h : Recorded s) (op : Operation) :
    Recorded (s.next E op) ∧ Keeps s (s.next E op) := by
  rcases next_records (E := E) s op with ⟨hrec, hproc⟩ | ⟨o, -, hnew, hrec, hproc⟩
  · refine ⟨⟨fun id o hid => h.named id o (hrec ▸ hid), fun id hid => ?_⟩, fun id o hid => ?_⟩
    · rw [hproc]
      exact h.processed id (hrec ▸ hid)
    · rw [hrec]
      exact hid
  · exact h.insert hnew hrec hproc

/-- The faucet's credit leaves the records alone. -/
theorem creditDevnet_records (s : State) (address : Address) (amount : Amount) :
    (s.creditDevnet address amount).state.assetOperationRecords = s.assetOperationRecords ∧
      (s.creditDevnet address amount).state.processedAssetOperations =
        s.processedAssetOperations := by
  obtain ⟨accounts, hs⟩ := s.creditDevnet_writes address amount
  rw [hs]
  exact ⟨rfl, rfl⟩

/-- **Calls keep what is on record.** -/
theorem Recorded.call (h : Recorded n.state) (c : Node.Call) :
    Recorded (n.next E c).state ∧ Keeps n.state (n.next E c).state := by
  refine Node.next_state_rule (P := fun t => Recorded t ∧ Keeps n.state t)
    (fun t op ht => ?_) (fun t address amount ht => ?_) n c ⟨h, .refl n.state⟩
  · have hnext := ht.1.next (E := E) op
    exact ⟨hnext.1, ht.2.trans hnext.2⟩
  · obtain ⟨hrec, hproc⟩ := creditDevnet_records t address amount
    refine ⟨⟨fun id o hid => ht.1.named id o (hrec ▸ hid), fun id hid => ?_⟩, fun id o hid => ?_⟩
    · rw [hproc]
      exact ht.1.processed id (hrec ▸ hid)
    · rw [hrec]
      exact ht.2 id o hid

theorem Recorded.run (h : Recorded n.state) (calls : List Node.Call) :
    Recorded (runs (Node.next E) n calls).state ∧
      Keeps n.state (runs (Node.next E) n calls).state := by
  induction calls generalizing n with
  | nil => exact ⟨h, .refl n.state⟩
  | cons c calls ih =>
    have h1 := h.call (E := E) c
    have h2 := ih h1.1
    exact ⟨h2.1, h1.2.trans h2.2⟩

/-! ## 3. What is listed -/

/-- How many operations on record have a greater id. -/
def greaterIds (s : State) (id : Hash) : Nat := BTreeMap.greaterKeys s.assetOperationRecords id

/-- **When an operation on record is listed**: exactly if fewer than 1000 operations on record have
    a greater id. -/
theorem recent_iff (h : Recorded s)
    (hrec : s.assetOperationRecords[o.operationId]? = some o) :
    o ∈ recentOperations s ↔ greaterIds s o.operationId < recentLimit := by
  rw [greaterIds, ← BTreeMap.mem_lastEntries_iff hrec recentLimit, recentOperations,
    ← List.map_reverse, ← List.map_take]
  constructor
  · intro ho
    obtain ⟨⟨id, o'⟩, he, heq⟩ := List.mem_map.mp ho
    have hlist : (id, o') ∈ s.assetOperationRecords.toList :=
      List.mem_reverse.mp (List.mem_of_mem_take he)
    have hid := h.named id o' (ExtTreeMap.mem_toList_iff_getElem?_eq_some.mp hlist)
    cases heq
    rw [hid]
    exact he
  · exact fun he => List.mem_map.mpr ⟨_, he, rfl⟩

/-- What is listed is on record. -/
theorem recent_recorded (h : Recorded s) (ho : o ∈ recentOperations s) :
    s.assetOperationRecords[o.operationId]? = some o := by
  obtain ⟨⟨id, o'⟩, he, heq⟩ := List.mem_map.mp (List.mem_reverse.mp (List.mem_of_mem_take ho))
  have hget := ExtTreeMap.mem_toList_iff_getElem?_eq_some.mp he
  cases heq
  rw [h.named id o' hget]
  exact hget

end Rpc

end WorldstreetChain
