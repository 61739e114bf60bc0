import WorldstreetChain.Node.Basic

/-!
# Reserve operations over RPC (`mna_reserve_mint`, `mna_reserve_release`)

The handler builds the operation from its parameters with a blank id, hashes it, fills the id in
and submits it. The validation hashes the operation again, with the id in it: the two agree only
on a fixed point of the hash.

* `State.validateMnaReserveOperation_eq` -- the validation is its other checks and the id check.
* `Rpc.reserve_admissible_iff` -- **when the node queues what its own RPC has built**: only if the
  operation with the blank id has that blank id as its digest.
-/

namespace WorldstreetChain

open Std

/-- Two reserve operations with one id are one operation, unless SHA-256 collides on them. -/
def Crypto.SeparatesReserve (C : Crypto) (ops : List MnaReserveOperation) : Prop :=
  ∀ o ∈ ops, ∀ o' ∈ ops, C.mnaReserveOperationId o = C.mnaReserveOperationId o' → o = o'

namespace State

variable (E : Env) (s : State)

/-- The checks in front of the id check: version, pause, collateral, conversion and reference. -/
def checkMnaReserve (o : MnaReserveOperation) : Outcome StateError Unit := do
  rejectIf (o.version ≠ 1) .invalidMnaReserveVersion
  rejectIf (s.mnaReserveLedger.paused = true) .mnaReservePaused
  rejectIf (isSupportedSol o.collateralAsset = false ∧ isSupportedUsdc o.collateralAsset = false)
    .invalidMnaCollateral
  rejectIf (o.amountUsdc = 0 ∨ o.amountUsdc % mnaUsdcDenominator ≠ 0 ∨ o.amountMna = 0
    ∨ o.amountUsdc / mnaUsdcDenominator < o.feeMna) .invalidMnaConversion
  let sum ← Unsigned.add E.overflowChecks o.amountMna o.feeMna
  rejectIf (sum ≠ o.amountUsdc / mnaUsdcDenominator) .invalidMnaConversion
  checkCollateral o
  rejectIf (isBlank o.externalTransaction = true) .invalidMnaReserveVersion

/-- **The validation is those checks and the id check.** -/
theorem validateMnaReserveOperation_eq (o : MnaReserveOperation) :
    s.validateMnaReserveOperation E o = (do
      s.checkMnaReserve E o
      rejectIf (E.crypto.mnaReserveOperationId o ≠ o.operationId) .invalidMnaReserveVersion
      .ok (E.crypto.mnaReserveOperationId o)) := by
  unfold validateMnaReserveOperation checkMnaReserve
  simp only [bind_assoc]

end State

namespace Rpc

inductive RpcError where
  | reply (code : Int) (message : String)
  | node (e : NodeError)
  deriving DecidableEq

/-- What the handler runs in: the operator token of the environment, empty if it is not set, and
    the Bech32m decoder of addresses with the text of its error. -/
structure Context where
  operatorToken : String
  parseAddress : String → Except String Address

structure MnaReserveOperationParams where
  operatorToken : String
  collateralAsset : String
  address : String
  amountUsdc : String
  amountMna : String
  collateralAmount : String
  oraclePriceUsdMicroPerSol : String
  oracleTimestamp : U64
  feeMna : String
  externalTransaction : String
  destination : String
  memo : String

/-! ## 1. Parsing -/

/-- `str::parse::<u128>`: decimal digits after an optional plus sign. -/
def parseU128 (text : String) : Option Amount :=
  let digits := match text.toList with
    | '+' :: rest => rest
    | chars => chars
  if digits.isEmpty || !digits.all Char.isDigit then none
  else
    let n := digits.foldl (fun n c => 10 * n + (c.toNat - '0'.toNat)) 0
    if n < 2 ^ 128 then some (BitVec.ofNat 128 n) else none

/-- The text up to the first colon and what follows it. -/
def splitColon (chars : List Char) : List Char × List Char :=
  let (part, rest) := chars.span (· ≠ ':')
  (part, rest.drop 1)

def parseAssetId (value : String) : Outcome RpcError AssetId := do
  let (nameSpace, rest) := splitColon value.toList
  let (symbol, reference) := splitColon rest
  rejectIf (nameSpace = [] ∨ symbol = [] ∨ reference = []
      ∨ String.ofList nameSpace = "worldstreet")
    (.reply (-32602) "asset_id must be namespace:symbol:reference for a wrapped asset")
  let upper := String.ofList (symbol.map Char.toUpper)
  let decimals ← orFail
    (if upper = "WETH" then some 18
      else if upper = "WSOL" ∨ upper = "SOL" then some 9
      else if upper = "USDC" then some 6
      else none)
    (.reply (-32602) "unsupported external asset symbol")
  .ok (.wrapped (String.ofList nameSpace) (String.ofList symbol) (String.ofList reference)
    decimals)

/-- A text with something behind its first colon. -/
theorem splitColon_append {chars : List Char} (h : (splitColon chars).2 ≠ []) :
    (splitColon chars).1 ++ ':' :: (splitColon chars).2 = chars := by
  unfold splitColon at h ⊢
  rw [List.span_eq_takeWhile_dropWhile] at h ⊢
  dsimp only at h ⊢
  have hsplit := List.takeWhile_append_dropWhile (p := fun c => decide (c ≠ ':')) (l := chars)
  cases hrest : chars.dropWhile (fun c => decide (c ≠ ':')) with
  | nil =>
    rw [hrest] at h
    exact absurd rfl h
  | cons c rest =>
    have hc : c = ':' := by
      have hne : chars.dropWhile (fun c => decide (c ≠ ':')) ≠ [] := by
        rw [hrest]
        exact List.cons_ne_nil c rest
      have hhead := List.head_dropWhile_not _ hne
      simp only [hrest, List.head_cons] at hhead
      simpa using hhead
    rw [hrest, hc] at hsplit
    exact hsplit

/-- **The key of an asset** is the text it was read from. -/
theorem parseAssetId_canonicalKey {value : String} {a : AssetId} (h : parseAssetId value = .ok a) :
    a.canonicalKey = value := by
  unfold parseAssetId at h
  dsimp only at h
  obtain ⟨hparts, h⟩ := rejectIf_bind_eq_ok.mp h
  obtain ⟨decimals, -, h⟩ := Outcome.bind_eq_ok.mp h
  cases h
  simp only [not_or] at hparts
  obtain ⟨-, hsymbol, hreference, -⟩ := hparts
  have hsecond := splitColon_append hreference
  have hfirst : (splitColon value.toList).2 ≠ [] := fun hnil => by
    rw [hnil] at hreference
    exact hreference rfl
  have hwhole := splitColon_append hfirst
  have hkey : (AssetId.wrapped (String.ofList (splitColon value.toList).1)
      (String.ofList (splitColon (splitColon value.toList).2).1)
      (String.ofList (splitColon (splitColon value.toList).2).2) decimals).canonicalKey =
      String.ofList ((splitColon value.toList).1 ++ ':' ::
        ((splitColon (splitColon value.toList).2).1 ++ ':' ::
          (splitColon (splitColon value.toList).2).2)) := by
    apply String.toList_inj.mp
    simp [AssetId.canonicalKey, AssetId.wrapped]
  rw [hkey, hsecond, hwhole, String.ofList_toList]

def parseAddress (ctx : Context) (value : String) : Outcome RpcError Address :=
  match ctx.parseAddress value with
  | .ok address => .ok address
  | .error text => .error (.err (.reply (-32602) ("invalid address: " ++ text)))

/-- An amount of the parameters; the field is named in the error. -/
def parseAmount (field text : String) : Outcome RpcError Amount :=
  orFail (parseU128 text) (.reply (-32602) (field ++ " must be unsigned"))

/-! ## 2. The handler -/

/-- `op0`: the operation with a blank id. -/
def blankReserveOperation (ctx : Context) (method : String) (p : MnaReserveOperationParams) :
    Outcome RpcError MnaReserveOperation := do
  rejectIf (ctx.operatorToken = "" ∨ p.operatorToken ≠ ctx.operatorToken)
    (.reply (-32001) "bridge operator authorization failed")
  let kind : MnaReserveOperationKind :=
    if "mint".toList <:+ method.toList then .verifyDeposit else .release
  let collateralAsset ← parseAssetId p.collateralAsset
  let address ← parseAddress ctx p.address
  let amountUsdc ← parseAmount "amount_usdc" p.amountUsdc
  let amountMna ← parseAmount "amount_mna" p.amountMna
  let collateralAmount ← parseAmount "collateral_amount" p.collateralAmount
  let oraclePriceUsdMicroPerSol ←
    parseAmount "oracle_price_usd_micro_per_sol" p.oraclePriceUsdMicroPerSol
  let feeMna ← parseAmount "fee_mna" p.feeMna
  .ok
    { version := 1
      operationId := .zero
      kind := kind
      collateralAsset := collateralAsset
      address := address
      amountUsdc := amountUsdc
      amountMna := amountMna
      collateralAmount := collateralAmount
      oraclePriceUsdMicroPerSol := oraclePriceUsdMicroPerSol
      oracleTimestamp := p.oracleTimestamp
      feeMna := feeMna
      destination := p.destination
      externalTransaction := p.externalTransaction
      memo := p.memo }

/-- The operation with its id filled in. -/
def fillId (C : Crypto) (o : MnaReserveOperation) : MnaReserveOperation :=
  { o with operationId := C.mnaReserveOperationId o }

/-- The reply to a submission. -/
structure Queued where
  operationId : String
  status : String
  deriving DecidableEq

def mnaReserve (E : Env) (ctx : Context) (n : Node) (method : String)
    (p : MnaReserveOperationParams) : Applied RpcError Node Queued :=
  .attempt n (blankReserveOperation ctx method p) fun o =>
  let submitted := n.submitMnaReserveOperation E (fillId E.crypto o)
  .attempt submitted.state (submitted.result.mapErr .node) fun id =>
  ⟨.ok { operationId := id.toHex, status := "queued" }, submitted.state⟩

/-! ## 3. The id as a fixed point -/

variable {E : Env} {ctx : Context} {n : Node} {method : String} {p : MnaReserveOperationParams}
  {o : MnaReserveOperation}

theorem blankReserveOperation_id (h : blankReserveOperation ctx method p = .ok o) :
    o.operationId = .zero := by
  unfold blankReserveOperation at h
  simp only [Outcome.bind_eq_ok] at h
  obtain ⟨_, -, _, -, _, -, _, -, _, -, _, -, _, -, _, -, h⟩ := h
  cases h
  rfl

/-- **The id filled in is the id of the whole** exactly if the blank operation hashes to its own
    blank id. -/
theorem fillId_fixed_iff (h0 : o.operationId = .zero)
    (hsep : E.crypto.SeparatesReserve [o, fillId E.crypto o]) :
    E.crypto.mnaReserveOperationId (fillId E.crypto o) = (fillId E.crypto o).operationId ↔
      E.crypto.mnaReserveOperationId o = .zero := by
  constructor
  · intro h
    have heq : fillId E.crypto o = o := hsep _ (by simp) _ (by simp) h
    have hid : E.crypto.mnaReserveOperationId o = o.operationId :=
      congrArg MnaReserveOperation.operationId heq
    rw [hid, h0]
  · intro h
    have heq : fillId E.crypto o = o := by
      unfold fillId
      rw [h, ← h0]
    rw [heq, h, h0]

/-- Past the other checks the validation is the id check. -/
theorem validate_eq_ok_iff {s : State} (hc : s.checkMnaReserve E o = .ok ()) :
    (∃ id, s.validateMnaReserveOperation E o = .ok id) ↔
      E.crypto.mnaReserveOperationId o = o.operationId := by
  rw [State.validateMnaReserveOperation_eq, hc]
  constructor
  · rintro ⟨id, h⟩
    obtain ⟨_, hid⟩ := Outcome.bind_eq_ok.mp h
    exact not_not.mp (rejectIf_bind_eq_ok.mp hid.2).1
  · intro h
    exact ⟨_, Outcome.bind_eq_ok.mpr ⟨(), rfl, rejectIf_bind_eq_ok.mpr ⟨not_not.mpr h, rfl⟩⟩⟩

/-- The operation is neither recorded nor queued. -/
def Fresh (E : Env) (n : Node) (o : MnaReserveOperation) : Prop :=
  E.crypto.mnaReserveOperationId o ∉ n.state.mnaReserveOperationRecords ∧
    E.crypto.mnaReserveOperationId o ∉
      n.pendingMnaReserveOperations.map E.crypto.mnaReserveOperationId

/-- A submission that is not a duplicate is the validation. -/
theorem submit_eq_ok_iff (hnew : Fresh E n o) {id : Hash} {n' : Node} :
    n.submitMnaReserveOperation E o = ⟨.ok id, n'⟩ ↔
      (∃ x, n.state.validateMnaReserveOperation E o = .ok x) ∧
        id = E.crypto.mnaReserveOperationId o ∧
        n' = { n with pendingMnaReserveOperations := n.pendingMnaReserveOperations ++ [o] } := by
  unfold Node.submitMnaReserveOperation
  rw [Applied.ofClone_eq_ok]
  simp only [Outcome.bind_eq_ok, rejectIf_eq_ok, Outcome.mapErr_eq_ok]
  constructor
  · rintro ⟨-, -, x, hx, h⟩
    cases h
    exact ⟨⟨x, hx⟩, rfl, rfl⟩
  · rintro ⟨⟨x, hx⟩, rfl, rfl⟩
    exact ⟨⟨⟩, fun h => h.elim hnew.1 hnew.2, x, hx, rfl⟩

/-- **When the node queues what its own RPC has built.** Of an operation the handler builds, the id
    passes the id check exactly if the operation with the blank id hashes to the blank id; and
    where it passes the other checks and is no duplicate, the handler queues it under the id it
    reports exactly then. -/
theorem reserve_admissible_iff (hbuild : blankReserveOperation ctx method p = .ok o)
    (hsep : E.crypto.SeparatesReserve [o, fillId E.crypto o]) :
    (E.crypto.mnaReserveOperationId (fillId E.crypto o) = (fillId E.crypto o).operationId ↔
        E.crypto.mnaReserveOperationId o = .zero) ∧
      (n.state.checkMnaReserve E (fillId E.crypto o) = .ok () →
        Fresh E n (fillId E.crypto o) →
        (mnaReserve E ctx n method p =
            ⟨.ok { operationId := (fillId E.crypto o).operationId.toHex, status := "queued" },
              { n with pendingMnaReserveOperations :=
                n.pendingMnaReserveOperations ++ [fillId E.crypto o] }⟩ ↔
          E.crypto.mnaReserveOperationId o = .zero)) := by
  have hfixed := fillId_fixed_iff (blankReserveOperation_id hbuild) hsep
  refine ⟨hfixed, fun hc hnew => ?_⟩
  have hvalid := (validate_eq_ok_iff hc).trans hfixed
  rw [mnaReserve, hbuild, Applied.attempt_ok]
  show Applied.attempt _ _ _ = _ ↔ _
  rw [Applied.attempt_eq_ok]
  constructor
  · rintro ⟨id, hid, -⟩
    have hs := Applied.eq_of_result (Outcome.mapErr_eq_ok.mp hid)
    exact hvalid.mp ((submit_eq_ok_iff hnew).mp hs).1
  · intro hz
    rw [(submit_eq_ok_iff hnew).mpr ⟨hvalid.mpr hz, rfl, rfl⟩]
    refine ⟨E.crypto.mnaReserveOperationId (fillId E.crypto o), rfl, ?_⟩
    rw [hfixed.mpr hz]

end Rpc

namespace Sample

/-- A node on the genesis of the small chain. -/
def genesisNode : Node :=
  .idle (genesis 1) .empty (genesisState 1)
    (Node.makeGenesisBlock .standIn (genesis 1) (genesisState 1))

/-- The account's address in Bech32m. -/
def accountText : String := "mna1q8tvxhwxluy7ad7fcrl43udr93uw9n5p3qsr6p60"

/-- A decoder that knows it. -/
def rpcContext : Rpc.Context where
  operatorToken := "token"
  parseAddress text :=
    if text = accountText then .ok address else .error "invalid Bech32m address"

/-- A verified deposit of 200 USDC. -/
def depositParams : Rpc.MnaReserveOperationParams where
  operatorToken := "token"
  collateralAsset := usdc.canonicalKey
  address := accountText
  amountUsdc := "200"
  amountMna := "100"
  collateralAmount := "0"
  oraclePriceUsdMicroPerSol := "0"
  oracleTimestamp := 0
  feeMna := "0"
  externalTransaction := "deposit"
  destination := ""
  memo := ""

/-- What the handler builds of it, before the id. -/
def deposit : MnaReserveOperation where
  version := 1
  operationId := .zero
  kind := .verifyDeposit
  collateralAsset := usdc
  address := address
  amountUsdc := 200
  amountMna := 100
  collateralAmount := 0
  oraclePriceUsdMicroPerSol := 0
  oracleTimestamp := 0
  feeMna := 0
  destination := ""
  externalTransaction := "deposit"
  memo := ""

/-- The handler builds the deposit, nothing stands against it but its id, and it is refused. -/
theorem evaluated_deposit :
    Rpc.blankReserveOperation rpcContext "mna_reserve_mint" depositParams = .ok deposit ∧
      Crypto.standIn.SeparatesReserve [deposit, Rpc.fillId .standIn deposit] ∧
      Rpc.Fresh .standIn genesisNode (Rpc.fillId .standIn deposit) ∧
      genesisNode.state.checkMnaReserve .standIn (Rpc.fillId .standIn deposit) = .ok () ∧
      Crypto.standIn.mnaReserveOperationId deposit ≠ .zero ∧
      (Rpc.mnaReserve .standIn rpcContext genesisNode "mna_reserve_mint" depositParams).result =
        .error (.err (.node (.state .invalidMnaReserveVersion))) := by
  unfold Crypto.SeparatesReserve Rpc.Fresh
  decide +kernel

end Sample

namespace Rpc

/-- The deposit: its id fails the check, and the handler does not queue it. -/
theorem reserve_admissible_deposit :
    Crypto.standIn.mnaReserveOperationId (fillId .standIn Sample.deposit) ≠
        (fillId .standIn Sample.deposit).operationId ∧
      mnaReserve .standIn Sample.rpcContext Sample.genesisNode "mna_reserve_mint"
          Sample.depositParams ≠
        ⟨.ok { operationId := (fillId .standIn Sample.deposit).operationId.toHex,
               status := "queued" },
          { Sample.genesisNode with pendingMnaReserveOperations :=
            Sample.genesisNode.pendingMnaReserveOperations ++ [fillId .standIn Sample.deposit] }⟩ := by
  obtain ⟨hbuilt, hseparates, hfresh, hchecked, hne, -⟩ := Sample.evaluated_deposit
  have h := reserve_admissible_iff (E := .standIn) (n := Sample.genesisNode) hbuilt hseparates
  exact ⟨fun hid => hne (h.1.mp hid), fun hq => hne ((h.2 hchecked hfresh).mp hq)⟩

/-- A deposit whose amounts pass every other check is refused for the id the handler gave it. -/
theorem own_deposit_refused :
    Crypto.standIn.SeparatesReserve [Sample.deposit, fillId .standIn Sample.deposit] ∧
      blankReserveOperation Sample.rpcContext "mna_reserve_mint" Sample.depositParams =
        .ok Sample.deposit ∧
      Sample.genesisNode.state.checkMnaReserve .standIn (fillId .standIn Sample.deposit) =
        .ok () ∧
      Fresh .standIn Sample.genesisNode (fillId .standIn Sample.deposit) ∧
      (mnaReserve .standIn Sample.rpcContext Sample.genesisNode "mna_reserve_mint"
        Sample.depositParams).result =
          .error (.err (.node (.state .invalidMnaReserveVersion))) := by
  obtain ⟨hbuilt, hseparates, hfresh, hchecked, -, hrefused⟩ := Sample.evaluated_deposit
  exact ⟨hseparates, hbuilt, hchecked, hfresh, hrefused⟩

end Rpc

end WorldstreetChain
