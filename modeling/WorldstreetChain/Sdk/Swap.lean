import WorldstreetChain.Rpc.Swap
import WorldstreetChain.Sdk.Bytes

/-!
# Swaps of the SDK (`intertrain-wallet-sdk`)

The wallet does not encode a swap itself: it asks the node for the bytes to sign, signs what it is
given, and sends the fields once more with the signature.

* `Sdk.unsignedSwap`, `Sdk.prepareRequest`, `Sdk.broadcastRequest` -- the steps of `swapMna`.
* `Sdk.hexToBytes_bytesToHex` -- the wallet reads hexadecimal digits back.
* `Sdk.swap_reaches_queue` -- **what is queued is what the wallet meant**, under the id it was told
  when it asked for the bytes.
-/

namespace WorldstreetChain

open Rpc

namespace Sdk

/-! ## 1. Hexadecimal digits -/

/-- What `.` does not match. -/
def isLineEnd (u : UInt16) : Bool := u = 0x0a || u = 0x0d || u = 0x2028 || u = 0x2029

/-- `match(/../g)`. -/
def pairs : JsString → List (UInt16 × UInt16)
  | u :: v :: rest => if isLineEnd u || isLineEnd v then pairs (v :: rest) else (u, v) :: pairs rest
  | _ => []

/-- The white space `parseInt` skips, but for the ends of lines. -/
def isSpace (u : UInt16) : Bool :=
  u = 0x09 || u = 0x0b || u = 0x0c || u = 0x20 || u = 0xa0 || u = 0x1680 ||
    (0x2000 ≤ u && u ≤ 0x200a) || u = 0x202f || u = 0x205f || u = 0x3000 || u = 0xfeff

def hexUnit (u : UInt16) : Option Nat := hexValue (Char.ofNat u.toNat)

/-- `Number.parseInt(pair, 16)` as a byte: a sign or a space in front of one digit, one digit in
    front of anything else, and zero for what is no number. -/
def parsePair (u v : UInt16) : UInt8 :=
  match hexUnit u, hexUnit v with
  | some high, some low => UInt8.ofNat (16 * high + low)
  | some digit, none => UInt8.ofNat digit
  | none, some digit =>
    if u = 0x2d then UInt8.ofNat (256 - digit)
    else if u = 0x2b || isSpace u then UInt8.ofNat digit
    else 0
  | none, none => 0

def hexToBytes (value : JsString) : Except String (List UInt8) :=
  let clean := if ofText "0x" <+: value then value.drop 2 else value
  if clean.length % 2 ≠ 0 then .error "hex string has odd length"
  else .ok ((pairs clean).map fun pair => parsePair pair.1 pair.2)

/-- The unit of a digit. -/
def digitUnit (n : Nat) : UInt16 := UInt16.ofNat (Nat.digitChar n).toNat

theorem digitUnit_facts : ∀ n < 16, Utf16.units (Nat.digitChar n) = [digitUnit n] ∧
    isLineEnd (digitUnit n) = false ∧ hexUnit (digitUnit n) = some n ∧ digitUnit n ≠ 0x78 := by
  decide

theorem bytesToHex_cons (b : UInt8) (bytes : List UInt8) :
    bytesToHex (b :: bytes) =
      digitUnit (b.toNat / 16) :: digitUnit (b.toNat % 16) :: bytesToHex bytes := by
  have hlt := b.toNat_lt
  obtain ⟨hhigh, -⟩ := digitUnit_facts (b.toNat / 16) (by omega)
  obtain ⟨hlow, -⟩ := digitUnit_facts (b.toNat % 16) (by omega)
  rw [bytesToHex_eq, bytesToHex_eq]
  show Utf16.units (Nat.digitChar (b.toNat / 16)) ++ (Utf16.units (Nat.digitChar (b.toNat % 16)) ++
    Utf16.encode (bytes.flatMap hexByte)) = _
  rw [hhigh, hlow]
  rfl

theorem pairs_bytesToHex (bytes : List UInt8) :
    (pairs (bytesToHex bytes)).map (fun pair => parsePair pair.1 pair.2) = bytes := by
  induction bytes with
  | nil => rfl
  | cons b bytes ih =>
    have hlt := b.toNat_lt
    obtain ⟨-, hhighEnd, hhigh, -⟩ := digitUnit_facts (b.toNat / 16) (by omega)
    obtain ⟨-, hlowEnd, hlow, -⟩ := digitUnit_facts (b.toNat % 16) (by omega)
    have hbyte : parsePair (digitUnit (b.toNat / 16)) (digitUnit (b.toNat % 16)) = b := by
      unfold parsePair
      rw [hhigh, hlow]
      show UInt8.ofNat (16 * (b.toNat / 16) + b.toNat % 16) = b
      rw [Nat.div_add_mod]
      exact UInt8.ofNat_toNat
    rw [bytesToHex_cons, pairs, hhighEnd, hlowEnd, Bool.or_self, if_neg Bool.false_ne_true,
      List.map_cons, hbyte, ih]

theorem length_bytesToHex (bytes : List UInt8) : (bytesToHex bytes).length = 2 * bytes.length := by
  induction bytes with
  | nil => rfl
  | cons b bytes ih =>
    rw [bytesToHex_cons, List.length_cons, List.length_cons, ih, List.length_cons]
    omega

/-- **Bytes are read back** from their digits: a second digit is no `x`. -/
theorem hexToBytes_bytesToHex (bytes : List UInt8) : hexToBytes (bytesToHex bytes) = .ok bytes := by
  have hprefix : ¬ ofText "0x" <+: bytesToHex bytes := by
    cases bytes with
    | nil => decide
    | cons b bytes =>
      rw [bytesToHex_cons]
      intro h
      have hsecond := (List.cons_prefix_cons.mp (List.cons_prefix_cons.mp h).2).1
      obtain ⟨-, -, -, hne⟩ := digitUnit_facts (b.toNat % 16) (Nat.mod_lt _ (by decide))
      exact hne hsecond.symm
  have heven : ¬ (bytesToHex bytes).length % 2 ≠ 0 := by
    rw [length_bytesToHex]
    omega
  unfold hexToBytes
  rw [if_neg hprefix]
  dsimp only
  rw [if_neg heven, pairs_bytesToHex]

/-! ## 2. The wallet -/

/-- A key, and the address of it, as the node reads it. -/
structure Wallet (C : Crypto) (checked : String → Option (String × List UInt8)) where
  keyPair : KeyPair
  address : String
  derived : fromBech32m checked address = .ok (C.addressFromPublicKey (C.publicKey keyPair))

/-- The amounts as `BigInt` reads them. -/
structure SwapInput where
  kind : MnaSwapKind
  collateralAsset : JsString
  amountUsdc : Int
  feeMna : Option Int
  memo : Option JsString

structure UnsignedSwap where
  version : Nat
  chainId : JsString
  nonce : Nat
  fromAddress : JsString
  kind : MnaSwapKind
  collateralAsset : JsString
  amountUsdc : Int
  amountMna : Int
  fee : Int
  publicKey : List UInt8
  memo : JsString

/-- `unsigned`, with the amounts in digits and the key in hexadecimal. -/
def swapJson (v : UnsignedSwap) : Json :=
  .object [("version", .number v.version), ("chain_id", .string v.chainId),
    ("nonce", .number v.nonce), ("from", .string v.fromAddress),
    ("kind", .string (ofText (swapKindText v.kind))),
    ("collateral_asset", .string v.collateralAsset),
    ("amount_usdc", .string (ofText (toString v.amountUsdc))),
    ("amount_mna", .string (ofText (toString v.amountMna))),
    ("fee", .string (ofText (toString v.fee))),
    ("public_key", .string (bytesToHex v.publicKey)), ("memo", .string v.memo)]

section Wallet

variable {C : Crypto} {checked : String → Option (String × List UInt8)} (w : Wallet C checked)

/-- `nonce` is the one `account_get` has answered. -/
def unsignedSwap (chainId : JsString) (nonce : Nat) (input : SwapInput) :
    Except String UnsignedSwap :=
  let amountUsdc := input.amountUsdc
  let amountMna := amountUsdc.tdiv 2
  if amountUsdc ≤ 0 ∨ amountUsdc.tmod 2 ≠ 0 then .error "USDC amount must convert exactly at 2:1"
  else
    .ok
      { version := 1
        chainId := chainId
        nonce := nonce
        fromAddress := ofText w.address
        kind := input.kind
        collateralAsset := input.collateralAsset
        amountUsdc := amountUsdc
        amountMna := amountMna
        fee := input.feeMna.getD 1
        publicKey := (C.publicKey w.keyPair).bytes.toList
        memo := input.memo.getD [] }

/-- The parameters of the first request. -/
def prepareRequest (v : UnsignedSwap) : Json := .object [("unsigned", swapJson v)]

/-- The parameters of the second request: what is signed is what the first one was answered
    with. -/
def broadcastRequest (v : UnsignedSwap) (prepared : Prepared) : Except String Json := do
  let message ← hexToBytes (ofText prepared.signingBytes)
  .ok (.object [("operation", .object [("unsigned", swapJson v),
    ("signature", .string (bytesToHex (C.sign w.keyPair message).bytes.toList))])])

end Wallet

/-! ## 3. What is asked and what is queued -/

variable {E : Env} {checked : String → Option (String × List UInt8)}
  {w : Wallet E.crypto checked} {input : SwapInput} {v : UnsignedSwap} {chainId : String}
  {nonce : Nonce} {assetText memo : String} {asset : AssetId}

/-- What the node has to be able to read: texts, an asset it knows, amounts in their range, and a
    nonce that is a number of JavaScript. -/
structure SwapInput.Readable (input : SwapInput) (nonce : Nonce) (assetText memo : String)
    (asset : AssetId) : Prop where
  collateralAsset : input.collateralAsset = ofText assetText
  asset : parseAssetId assetText = .ok asset
  amountUsdc : input.amountUsdc < 2 ^ 128
  fee : 0 ≤ input.feeMna.getD 1 ∧ input.feeMna.getD 1 < 2 ^ 128
  memo : input.memo.getD [] = ofText memo
  nonce : nonce.toNat < 2 ^ 53

/-- The swap the wallet means. -/
def meantSwap (w : Wallet E.crypto checked) (input : SwapInput) (chainId : String) (nonce : Nonce)
    (asset : AssetId) (memo : String) : UnsignedMnaSwapOperation where
  version := 1
  chainId := chainId
  nonce := nonce
  fromAddress := E.crypto.addressFromPublicKey (E.crypto.publicKey w.keyPair)
  kind := input.kind
  collateralAsset := asset
  amountUsdc := BitVec.ofInt 128 input.amountUsdc
  amountMna := BitVec.ofInt 128 (input.amountUsdc / 2)
  fee := BitVec.ofInt 128 (input.feeMna.getD 1)
  publicKey := E.crypto.publicKey w.keyPair
  memo := memo

/-- An amount that is not negative is read back from its digits. -/
theorem parseU128_int {i : Int} (h0 : 0 ≤ i) (h : i < 2 ^ 128) :
    parseU128 (toString i) = some (BitVec.ofInt 128 i) := by
  obtain ⟨n, rfl⟩ := Int.eq_ofNat_of_zero_le h0
  have hn : n < 2 ^ 128 := by omega
  exact parseU128_decimal hn

theorem unsignedSwap_eq_ok
    (hv : unsignedSwap w (ofText chainId) nonce.toNat input = .ok v) :
    0 < input.amountUsdc ∧ input.amountUsdc % 2 = 0 ∧
      v = ⟨1, ofText chainId, nonce.toNat, ofText w.address, input.kind, input.collateralAsset,
        input.amountUsdc, input.amountUsdc / 2, input.feeMna.getD 1,
        (E.crypto.publicKey w.keyPair).bytes.toList, input.memo.getD []⟩ := by
  unfold unsignedSwap at hv
  dsimp only at hv
  split at hv
  · cases hv
  · rename_i hconverts
    rw [not_or, not_not] at hconverts
    obtain ⟨hpos, hmod⟩ := hconverts
    have h0 : 0 ≤ input.amountUsdc := by omega
    rw [Int.tmod_eq_emod_of_nonneg h0] at hmod
    cases hv
    refine ⟨by omega, hmod, ?_⟩
    rw [Int.tdiv_eq_ediv_of_nonneg h0]

theorem fromJson_swapJson {version : Nat} {fromAddress amountUsdc amountMna fee publicKey : String}
    {kind : MnaSwapKind} (hversion : version < 2 ^ 8) :
    RpcUnsignedMnaSwapInput.fromJson
      (.object [("version", .number version), ("chain_id", .string (ofText chainId)),
        ("nonce", .number nonce.toNat), ("from", .string (ofText fromAddress)),
        ("kind", .string (ofText (swapKindText kind))),
        ("collateral_asset", .string (ofText assetText)),
        ("amount_usdc", .string (ofText amountUsdc)), ("amount_mna", .string (ofText amountMna)),
        ("fee", .string (ofText fee)), ("public_key", .string (ofText publicKey)),
        ("memo", .string (ofText memo))]) =
      some ⟨UInt8.ofNat version, chainId, nonce, fromAddress, kind, assetText, amountUsdc,
        amountMna, fee, publicKey, memo⟩ := by
  have hu8 : Json.toU8 (.number version) = some (UInt8.ofNat version) := if_pos hversion
  have hu64 : Json.toU64 (.number nonce.toNat) = some nonce := by
    show (if nonce.toNat < 2 ^ 64 then some (BitVec.ofNat 64 nonce.toNat) else none) = _
    rw [if_pos nonce.isLt, BitVec.ofNat_toNat, BitVec.setWidth_eq]
  have htext : ∀ text, Json.toText (.string (ofText text)) = some text := Json.toText_encode
  have hkind : Json.toSwapKind (.string (ofText (swapKindText kind))) = some kind :=
    Json.toSwapKind_text kind
  unfold RpcUnsignedMnaSwapInput.fromJson Json.textOrEmpty
  simp [Json.field, List.lookup_cons, hu8, hu64, htext, hkind]

/-- The fields of the wallet's JSON, as the node reads them. -/
def readSwap (w : Wallet E.crypto checked) (input : SwapInput) (chainId : String) (nonce : Nonce)
    (assetText memo : String) : RpcUnsignedMnaSwapInput where
  version := 1
  chainId := chainId
  nonce := nonce
  fromAddress := w.address
  kind := input.kind
  collateralAsset := assetText
  amountUsdc := toString input.amountUsdc
  amountMna := toString (input.amountUsdc / 2)
  fee := toString (input.feeMna.getD 1)
  publicKey := hexString (E.crypto.publicKey w.keyPair).bytes.toList
  memo := memo

/-- **The fields stand for the swap that is meant.** -/
theorem readSwap_intoCore (hr : input.Readable nonce assetText memo asset)
    (hpos : 0 < input.amountUsdc) :
    (readSwap w input chainId nonce assetText memo).intoCore checked =
      .ok (meantSwap w input chainId nonce asset memo) := by
  have husdc := hr.amountUsdc
  exact RpcUnsignedMnaSwapInput.intoCore_eq_ok w.derived hr.asset (parseU128_int hpos.le husdc)
    (parseU128_int (by omega) (by omega)) (parseU128_int hr.fee.1 hr.fee.2)
    (decodeFixed_hex _ Vector.length_toList _)

/-- **The swap the wallet signs** is its own, and converts exactly. -/
theorem meant_meantSwap (hC : E.crypto.SignVerifies) (hpos : 0 < input.amountUsdc)
    (heven : input.amountUsdc % 2 = 0) (husdc : input.amountUsdc < 2 ^ 128) :
    Meant E ⟨meantSwap w input chainId nonce asset memo, E.crypto.sign w.keyPair
      (meantSwap w input chainId nonce asset memo).signingBytes⟩ := by
  have hword : ∀ i : Int, 0 ≤ i → i < 2 ^ 128 → ((BitVec.ofInt 128 i).toNat : Int) = i :=
    fun i h0 h => by
      rw [BitVec.toNat_ofInt]
      omega
  have hamount := hword input.amountUsdc hpos.le husdc
  have hhalf := hword (input.amountUsdc / 2) (by omega) (by omega)
  refine ⟨rfl, rfl, E.crypto.verify_sign hC w.keyPair _, ?_, ?_⟩
  · show (BitVec.ofInt 128 input.amountUsdc).toNat =
      2 * (BitVec.ofInt 128 (input.amountUsdc / 2)).toNat
    omega
  · show 0 < (BitVec.ofInt 128 (input.amountUsdc / 2)).toNat
    omega

/-- **What is queued is what the wallet meant.** The node's answer to the first request has the id
    of the swap the wallet means; the operation of the second request is that swap, with a
    signature that verifies. Any node queues it, under the id that was told, exactly if it takes
    it, and shows it as pending then; otherwise it stays as it is. -/
theorem swap_reaches_queue (hC : E.crypto.SignVerifies)
    (hv : unsignedSwap w (ofText chainId) nonce.toNat input = .ok v)
    (hr : input.Readable nonce assetText memo asset) :
    ∃ params prepared json broadcast o,
      MnaSwapPrepareParams.fromJson (prepareRequest v) = some params ∧
      mnaSwapPrepare E checked params = .ok prepared ∧
      broadcastRequest w v prepared = .ok json ∧
      MnaSwapOperationParams.fromJson json = some broadcast ∧
      o.unsigned = meantSwap w input chainId nonce asset memo ∧ Meant E o ∧
      ∀ n queued,
        ((mnaSwapBroadcast E checked n broadcast).result = .ok queued ↔
          Takes E n o ∧ queued = ⟨prepared.operationId, "queued"⟩) ∧
        (Takes E n o →
          mnaSwapStatus E (mnaSwapBroadcast E checked n broadcast).state
            (E.crypto.mnaSwapOperationId o) = .pending o) ∧
        (¬ Takes E n o → (mnaSwapBroadcast E checked n broadcast).state = n) := by
  obtain ⟨hpos, heven, hfields⟩ := unsignedSwap_eq_ok hv
  have hread : RpcUnsignedMnaSwapInput.fromJson (swapJson v) =
      some (readSwap w input chainId nonce assetText memo) := by
    rw [hfields, swapJson]
    dsimp only
    rw [hr.collateralAsset, hr.memo]
    exact fromJson_swapJson (Nat.lt_of_sub_eq_succ rfl)
  have hcore : (readSwap w input chainId nonce assetText memo).intoCore checked = _ :=
    readSwap_intoCore hr hpos
  have hmeant : Meant E ⟨meantSwap w input chainId nonce asset memo, _⟩ :=
    meant_meantSwap hC hpos heven hr.amountUsdc
  generalize readSwap w input chainId nonce assetText memo = parsed at hread hcore
  generalize meantSwap w input chainId nonce asset memo = unsigned at hcore hmeant ⊢
  have hmessage : hexToBytes (ofText (hexString unsigned.signingBytes)) =
      .ok unsigned.signingBytes := hexToBytes_bytesToHex _
  generalize hsignature : E.crypto.sign w.keyPair unsigned.signingBytes = signature at hmeant
  refine ⟨⟨parsed⟩, ⟨(E.crypto.mnaSwapOperationId ⟨unsigned, signature⟩).toHex,
    hexString unsigned.signingBytes⟩, .object [("operation", .object [("unsigned", swapJson v),
      ("signature", .string (bytesToHex signature.bytes.toList))])],
    ⟨⟨parsed, hexString signature.bytes.toList⟩⟩, ⟨unsigned, signature⟩, ?_, ?_, ?_, ?_, rfl, hmeant,
    fun n queued => ?_⟩
  · unfold MnaSwapPrepareParams.fromJson prepareRequest
    simp [Json.field, hread]
  · unfold mnaSwapPrepare
    rw [hcore]
    rfl
  · unfold broadcastRequest
    rw [hmessage, ← hsignature]
    rfl
  · have htext : Json.toText (.string (bytesToHex signature.bytes.toList)) =
        some (hexString signature.bytes.toList) := Json.toText_encode _
    unfold MnaSwapOperationParams.fromJson RpcMnaSwapOperationInput.fromJson
    simp [Json.field, List.lookup_cons, hread, htext]
  · exact mnaSwapBroadcast_queued (RpcMnaSwapOperationInput.intoCore_eq_ok hcore
      (decodeFixed_hex _ Vector.length_toList _)) hmeant

end Sdk

namespace Sample

open Sdk

/-- The decoder, on one address. -/
def swapAddress (text : String) : Option (String × List UInt8) :=
  if text = accountText then some ("mna", address.bytes.toList) else none

def wallet : Wallet Env.standIn.crypto swapAddress where
  keyPair := keyPair
  address := accountText
  derived := by decide +kernel

/-- Two hundred micro USDC for a hundred of MNA, with the fee and the memo left out. -/
def swapInput : SwapInput where
  kind := .mintMna
  collateralAsset := ofText "solana:USDC:devnet:4zMMC9srt5Ri5X14GAgXhaHii3GnPAEERYPJgZJDncDU"
  amountUsdc := 200
  feeMna := none
  memo := none

theorem readable_swapInput : swapInput.Readable 0
    "solana:USDC:devnet:4zMMC9srt5Ri5X14GAgXhaHii3GnPAEERYPJgZJDncDU" "" usdc where
  collateralAsset := rfl
  asset := by decide +kernel
  amountUsdc := by decide
  fee := by decide
  memo := rfl
  nonce := by decide

def walletSwap : UnsignedMnaSwapOperation :=
  meantSwap (E := .standIn) wallet swapInput chainId 0 usdc ""

theorem takes_walletSwap {signature : Signature} :
    Takes .standIn genesisNode ⟨walletSwap, signature⟩ where
  chainId := rfl
  fee := (by decide +kernel : genesisNode.state.feeMinimum ≤ walletSwap.fee)
  account :=
    have haccount : genesisNode.state.accounts[walletSwap.fromAddress]? = some ⟨1000, 0⟩ ∧
        (0 : Nonce) = walletSwap.nonce ∧ walletSwap.fee ≤ 1000 := by decide +kernel
    ⟨⟨1000, 0⟩, haccount⟩
  supported := (by decide +kernel : State.isSupportedUsdc walletSwap.collateralAsset = true)
  fresh := ⟨Std.ExtTreeMap.not_mem_empty, List.not_mem_nil⟩

end Sample

namespace Sdk

/-- A node that has nothing but the account queues the swap. -/
theorem swap_reaches_queue_genesis : ∃ prepared broadcast o,
    (mnaSwapBroadcast .standIn Sample.swapAddress Sample.genesisNode broadcast).result =
        .ok ⟨prepared, "queued"⟩ ∧
      mnaSwapStatus .standIn
        (mnaSwapBroadcast .standIn Sample.swapAddress Sample.genesisNode broadcast).state
        (Crypto.standIn.mnaSwapOperationId o) = .pending o := by
  obtain ⟨v, hv⟩ : ∃ v, unsignedSwap Sample.wallet (ofText Sample.chainId) (0 : Nonce).toNat
      Sample.swapInput = .ok v := ⟨_, rfl⟩
  obtain ⟨-, prepared, -, broadcast, ⟨unsigned, signature⟩, -, -, -, -, hmeant, -, h⟩ :=
    swap_reaches_queue (E := .standIn) Crypto.standIn_signVerifies hv Sample.readable_swapInput
  cases hmeant
  obtain ⟨hqueued, hpending, -⟩ := h Sample.genesisNode ⟨prepared.operationId, "queued"⟩
  exact ⟨prepared.operationId, broadcast, _, hqueued.mpr ⟨Sample.takes_walletSwap, rfl⟩,
    hpending Sample.takes_walletSwap⟩

end Sdk

end WorldstreetChain
