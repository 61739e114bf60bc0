import WorldstreetChain.Rpc.Status
import WorldstreetChain.Rpc.Transaction

/-!
# Swaps as they are handed in (`mna_swap_prepare`, `mna_swap_broadcast`)

A wallet that cannot encode a swap has the node do it: `mna_swap_prepare` answers with the bytes to
sign, `mna_swap_broadcast` takes the same fields with the signature and queues the operation.

* `Rpc.RpcUnsignedMnaSwapInput.intoCore` -- the swap the fields stand for.
* `Rpc.mnaSwapPrepare`, `Rpc.mnaSwapBroadcast`, `Rpc.accountNonce` -- the handlers.
* `Rpc.Takes` -- what a node asks of a swap that is signed by its sender and converts exactly.
* `Rpc.mnaSwapBroadcast_queued` -- **such a swap is queued exactly if the node takes it**.
-/

namespace WorldstreetChain

open Std

namespace Rpc

/-! ## 1. JSON -/

def swapKindText : MnaSwapKind → String
  | .mintMna => "MintMna"
  | .redeemMna => "RedeemMna"

/-- A unit variant by its name. -/
def Json.toSwapKind (json : Json) : Option MnaSwapKind := do
  let text ← json.toText
  if text = swapKindText .mintMna then some .mintMna
  else if text = swapKindText .redeemMna then some .redeemMna
  else none

/-- `#[serde(default)]`: a missing text is empty. -/
def Json.textOrEmpty (json : Json) (name : String) : Option String :=
  match json.field name with
  | some value => value.toText
  | none => some ""

structure RpcUnsignedMnaSwapInput where
  version : UInt8
  chainId : String
  nonce : U64
  fromAddress : String
  kind : MnaSwapKind
  collateralAsset : String
  amountUsdc : String
  amountMna : String
  fee : String
  publicKey : String
  memo : String

structure RpcMnaSwapOperationInput where
  unsigned : RpcUnsignedMnaSwapInput
  signature : String

structure MnaSwapPrepareParams where
  unsigned : RpcUnsignedMnaSwapInput

structure MnaSwapOperationParams where
  operation : RpcMnaSwapOperationInput

def RpcUnsignedMnaSwapInput.fromJson (json : Json) : Option RpcUnsignedMnaSwapInput := do
  let version ← (← json.field "version").toU8
  let chainId ← (← json.field "chain_id").toText
  let nonce ← (← json.field "nonce").toU64
  let fromAddress ← (← json.field "from").toText
  let kind ← (← json.field "kind").toSwapKind
  let collateralAsset ← (← json.field "collateral_asset").toText
  let amountUsdc ← (← json.field "amount_usdc").toText
  let amountMna ← (← json.field "amount_mna").toText
  let fee ← (← json.field "fee").toText
  let publicKey ← (← json.field "public_key").toText
  let memo ← json.textOrEmpty "memo"
  some
    { version, chainId, nonce, fromAddress, kind, collateralAsset, amountUsdc, amountMna, fee
      publicKey, memo }

def RpcMnaSwapOperationInput.fromJson (json : Json) : Option RpcMnaSwapOperationInput := do
  let unsigned ← RpcUnsignedMnaSwapInput.fromJson (← json.field "unsigned")
  let signature ← (← json.field "signature").toText
  some { unsigned, signature }

def MnaSwapPrepareParams.fromJson (json : Json) : Option MnaSwapPrepareParams := do
  let unsigned ← RpcUnsignedMnaSwapInput.fromJson (← json.field "unsigned")
  some { unsigned }

def MnaSwapOperationParams.fromJson (json : Json) : Option MnaSwapOperationParams := do
  let operation ← RpcMnaSwapOperationInput.fromJson (← json.field "operation")
  some { operation }

theorem Json.toSwapKind_text (kind : MnaSwapKind) :
    Json.toSwapKind (.string (Utf16.encode (swapKindText kind).toList)) = some kind := by
  unfold toSwapKind
  rw [toText_encode]
  cases kind <;> rfl

/-! ## 2. The operation -/

section Core

variable (checked : String → Option (String × List UInt8))

/-- An error of `into_core`, with the code both handlers give it. -/
def invalidParams {α : Type} : Except String α → Outcome RpcError α
  | .ok a => .ok a
  | .error text => .error (.err (.reply (-32602) text))

def RpcUnsignedMnaSwapInput.intoCore (u : RpcUnsignedMnaSwapInput) :
    Outcome RpcError UnsignedMnaSwapOperation := do
  let fromAddress ← invalidParams ((fromBech32m checked u.fromAddress).mapError
    fun error => "invalid from address: " ++ error.text)
  let collateralAsset ← parseAssetId u.collateralAsset
  let amountUsdc ← invalidParams (parseField "amount_usdc" u.amountUsdc)
  let amountMna ← invalidParams (parseField "amount_mna" u.amountMna)
  let fee ← invalidParams (parseField "fee" u.fee)
  let publicKey ← invalidParams (decodeFixed 32 u.publicKey "public_key")
  .ok
    { version := u.version
      chainId := u.chainId
      nonce := u.nonce
      fromAddress := fromAddress
      kind := u.kind
      collateralAsset := collateralAsset
      amountUsdc := amountUsdc
      amountMna := amountMna
      fee := fee
      publicKey := ⟨publicKey⟩
      memo := u.memo }

def RpcMnaSwapOperationInput.intoCore (o : RpcMnaSwapOperationInput) :
    Outcome RpcError MnaSwapOperation := do
  let unsigned ← o.unsigned.intoCore checked
  let signature ← invalidParams (decodeFixed 64 o.signature "signature")
  .ok { unsigned := unsigned, signature := ⟨signature⟩ }

end Core

variable {checked : String → Option (String × List UInt8)}

theorem RpcUnsignedMnaSwapInput.intoCore_eq_ok {u : RpcUnsignedMnaSwapInput}
    {fromAddress : Address} {collateralAsset : AssetId} {amountUsdc amountMna fee : Amount}
    {publicKey : Vector UInt8 32} (hfrom : fromBech32m checked u.fromAddress = .ok fromAddress)
    (hasset : parseAssetId u.collateralAsset = .ok collateralAsset)
    (husdc : parseU128 u.amountUsdc = some amountUsdc)
    (hmna : parseU128 u.amountMna = some amountMna) (hfee : parseU128 u.fee = some fee)
    (hpublicKey : decodeFixed 32 u.publicKey "public_key" = .ok publicKey) :
    u.intoCore checked = .ok
      { version := u.version, chainId := u.chainId, nonce := u.nonce, fromAddress, kind := u.kind,
        collateralAsset, amountUsdc, amountMna, fee, publicKey := ⟨publicKey⟩, memo := u.memo } := by
  unfold intoCore parseField
  rw [hfrom, hasset, husdc, hmna, hfee, hpublicKey]
  rfl

theorem RpcMnaSwapOperationInput.intoCore_eq_ok {o : RpcMnaSwapOperationInput}
    {unsigned : UnsignedMnaSwapOperation} {signature : Vector UInt8 64}
    (hunsigned : o.unsigned.intoCore checked = .ok unsigned)
    (hsignature : decodeFixed 64 o.signature "signature" = .ok signature) :
    o.intoCore checked = .ok ⟨unsigned, ⟨signature⟩⟩ := by
  unfold intoCore
  rw [hunsigned, hsignature]
  rfl

/-! ## 3. The handlers -/

/-- The reply of `mna_swap_prepare`. -/
structure Prepared where
  operationId : String
  signingBytes : String
  deriving DecidableEq

section Handlers

variable (E : Env) (checked : String → Option (String × List UInt8))

def mnaSwapPrepare (p : MnaSwapPrepareParams) : Outcome RpcError Prepared := do
  let unsigned ← p.unsigned.intoCore checked
  let o : MnaSwapOperation := { unsigned := unsigned, signature := ⟨Vector.replicate 64 0⟩ }
  let id := E.crypto.mnaSwapOperationId o
  .ok { operationId := id.toHex, signingBytes := hexString unsigned.signingBytes }

def mnaSwapBroadcast (n : Node) (p : MnaSwapOperationParams) : Applied RpcError Node Queued :=
  .attempt n (p.operation.intoCore checked) fun o =>
  let submitted := n.submitMnaSwap E o
  .attempt submitted.state (submitted.result.mapErr .node) fun id =>
  ⟨.ok { operationId := id.toHex, status := "queued" }, submitted.state⟩

/-- The nonce of the answer of `account_get`. -/
def accountNonce (n : Node) (address : Address) : Nonce := n.state.nonceOf address

end Handlers

/-! ## 4. What a node asks of a swap -/

variable {E : Env} {s : State} {n : Node} {o : MnaSwapOperation}

/-- A swap that is what its sender signed, and converts exactly. -/
structure Meant (E : Env) (o : MnaSwapOperation) : Prop where
  version : o.unsigned.version = 1
  derives : E.crypto.addressFromPublicKey o.unsigned.publicKey = o.unsigned.fromAddress
  signed : E.crypto.verify o.unsigned.publicKey o.signingBytes o.signature = true
  usdc : o.unsigned.amountUsdc.toNat = 2 * o.unsigned.amountMna.toNat
  positive : 0 < o.unsigned.amountMna.toNat

/-- What it depends on at the node whether such a swap is taken. -/
structure Takes (E : Env) (n : Node) (o : MnaSwapOperation) : Prop where
  chainId : o.unsigned.chainId = n.state.chainId
  fee : n.state.feeMinimum ≤ o.unsigned.fee
  account : ∃ a, n.state.accounts[o.unsigned.fromAddress]? = some a ∧
    a.nonce = o.unsigned.nonce ∧ o.unsigned.fee ≤ a.balance
  supported : State.isSupportedUsdc o.unsigned.collateralAsset = true
  fresh : E.crypto.mnaSwapOperationId o ∉ n.state.mnaSwapOperationRecords ∧
    E.crypto.mnaSwapOperationId o ∉ n.pendingMnaSwapOperations.map E.crypto.mnaSwapOperationId

/-- Half an amount that is not zero and even. -/
theorem Meant.conversion (h : Meant E o) :
    ¬ (o.unsigned.amountUsdc = 0 ∨ o.unsigned.amountUsdc % mnaUsdcDenominator ≠ 0 ∨
      o.unsigned.amountMna ≠ o.unsigned.amountUsdc / mnaUsdcDenominator) := by
  have husdc := h.usdc
  have hpositive := h.positive
  have hmod : (o.unsigned.amountUsdc % mnaUsdcDenominator).toNat = 0 := by
    rw [BitVec.toNat_umod, State.toNat_mnaUsdcDenominator]
    omega
  have hdiv : (o.unsigned.amountUsdc / mnaUsdcDenominator).toNat = o.unsigned.amountMna.toNat := by
    rw [BitVec.toNat_udiv, State.toNat_mnaUsdcDenominator]
    omega
  rintro (hzero | hodd | hother)
  · rw [hzero] at husdc
    have h0 : (0 : Amount).toNat = 0 := rfl
    omega
  · exact hodd (BitVec.eq_of_toNat_eq hmod)
  · exact hother (BitVec.eq_of_toNat_eq hdiv.symm)

theorem validateMnaSwap_meant (h : Meant E o) {id : Hash} :
    s.validateMnaSwap E o = .ok id ↔ (o.unsigned.chainId = s.chainId ∧
      s.feeMinimum ≤ o.unsigned.fee ∧ (∃ a, s.accounts[o.unsigned.fromAddress]? = some a ∧
        a.nonce = o.unsigned.nonce ∧ o.unsigned.fee ≤ a.balance) ∧
      State.isSupportedUsdc o.unsigned.collateralAsset = true) ∧
      E.crypto.mnaSwapOperationId o = id := by
  have hsigned : ¬ E.crypto.verify o.unsigned.publicKey o.signingBytes o.signature = false := by
    rw [h.signed]
    exact Bool.noConfusion
  unfold State.validateMnaSwap
  simp only [rejectIf_bind_eq_ok, orFail_bind_eq_ok, not_not, BitVec.not_lt, Except.ok.injEq,
    Bool.not_eq_false, eq_true h.version, eq_true h.derives, eq_true h.signed,
    eq_true h.conversion, true_and]
  constructor
  · rintro ⟨hchain, hfee, a, ha, hnonce, hbalance, hsupported, hid⟩
    exact ⟨⟨hchain, hfee, ⟨a, ha, hnonce, hbalance⟩, hsupported⟩, hid⟩
  · rintro ⟨⟨hchain, hfee, ⟨a, ha, hnonce, hbalance⟩, hsupported⟩, hid⟩
    exact ⟨hchain, hfee, a, ha, hnonce, hbalance, hsupported, hid⟩

/-- **A swap is taken** exactly if the node takes it; it is then the last of those that wait. -/
theorem submitMnaSwap_meant (h : Meant E o) {id : Hash} {n' : Node} :
    n.submitMnaSwap E o = ⟨.ok id, n'⟩ ↔ Takes E n o ∧ E.crypto.mnaSwapOperationId o = id ∧
      n' = { n with pendingMnaSwapOperations := n.pendingMnaSwapOperations ++ [o] } := by
  unfold Node.submitMnaSwap
  simp only [Applied.ofClone_eq_ok, rejectIf_bind_eq_ok, not_or]
  simp only [Outcome.bind_eq_ok, Outcome.mapErr_eq_ok, validateMnaSwap_meant h, Except.ok.injEq,
    Prod.mk.injEq]
  constructor
  · rintro ⟨hfresh, _, ⟨⟨hchain, hfee, haccount, hsupported⟩, -⟩, hid, hn⟩
    exact ⟨⟨hchain, hfee, haccount, hsupported, hfresh⟩, hid, hn.symm⟩
  · rintro ⟨ht, hid, hn⟩
    exact ⟨ht.fresh, _, ⟨⟨ht.chainId, ht.fee, ht.account, ht.supported⟩, rfl⟩, hid, hn.symm⟩

theorem submitMnaSwap_refused (h : Meant E o) (hnot : ¬ Takes E n o) :
    ∃ e, n.submitMnaSwap E o = ⟨.error e, n⟩ := by
  cases hresult : (n.submitMnaSwap E o).result with
  | ok id => exact absurd ((submitMnaSwap_meant h).mp (Applied.eq_of_result hresult)).1 hnot
  | error e =>
    refine ⟨e, ?_⟩
    unfold Node.submitMnaSwap at hresult ⊢
    exact Applied.ofClone_eq_error.mpr ⟨Applied.ofClone_result_eq_error.mp hresult, rfl⟩

/-- **A swap that is what its sender signed is queued** exactly if the node takes it, and waits
    then; otherwise the node stays as it is. -/
theorem mnaSwapBroadcast_queued {p : MnaSwapOperationParams} {queued : Queued}
    (hcore : p.operation.intoCore checked = .ok o) (h : Meant E o) :
    ((mnaSwapBroadcast E checked n p).result = .ok queued ↔
      Takes E n o ∧ queued = ⟨(E.crypto.mnaSwapOperationId o).toHex, "queued"⟩) ∧
    (Takes E n o →
      mnaSwapStatus E (mnaSwapBroadcast E checked n p).state (E.crypto.mnaSwapOperationId o) =
        .pending o) ∧
    (¬ Takes E n o → (mnaSwapBroadcast E checked n p).state = n) := by
  unfold mnaSwapBroadcast
  rw [hcore, Applied.attempt_ok]
  by_cases ht : Takes E n o
  · have hsubmit := (submitMnaSwap_meant h).mpr ⟨ht, rfl, rfl⟩
    rw [hsubmit]
    refine ⟨⟨fun hq => ⟨ht, (Except.ok.inj hq).symm⟩, fun ⟨_, hq⟩ => hq ▸ rfl⟩, fun _ => ?_,
      fun hnot => absurd ht hnot⟩
    have hothers : n.pendingMnaSwapOperations.find?
        (fun x => E.crypto.mnaSwapOperationId x = E.crypto.mnaSwapOperationId o) = none :=
      List.find?_eq_none.mpr fun x hx hsame =>
        ht.fresh.2 (List.mem_map.mpr ⟨x, hx, of_decide_eq_true hsame⟩)
    have hwaits : (n.pendingMnaSwapOperations ++ [o]).find?
        (fun x => E.crypto.mnaSwapOperationId x = E.crypto.mnaSwapOperationId o) = some o := by
      rw [List.find?_append, hothers, Option.none_or]
      exact List.find?_cons_of_pos (decide_eq_true rfl)
    have hnew : n.state.mnaSwapOperationRecords[E.crypto.mnaSwapOperationId o]? = none :=
      ExtTreeMap.getElem?_eq_none ht.fresh.1
    exact Answer.of_eq_pending.mpr ⟨hnew, hwaits⟩
  · obtain ⟨e, hsubmit⟩ := submitMnaSwap_refused h ht
    rw [hsubmit]
    refine ⟨⟨fun hq => ?_, fun hq => absurd hq.1 ht⟩, fun hyes => absurd hyes ht, fun _ => ?_⟩
    · cases e <;> cases hq
    · cases e <;> rfl

end Rpc

end WorldstreetChain
