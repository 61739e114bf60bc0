import WorldstreetChain.Rpc.Transaction
import WorldstreetChain.Sdk.Bytes

/-!
# Transfers of the SDK (`intertrain-wallet-sdk`)

The wallet encodes a transfer itself, signs the bytes and sends the fields as JSON; the node builds
a transaction from the fields and encodes that for the signature's check.

* `Sdk.encodeTransfer` -- the bytes the wallet signs.
* `Sdk.transferRequest` -- the JSON it sends.
* `Sdk.wallet_signs_what_is_verified` -- **the two encodings are one**, for every transfer whose
  addresses both sides take.
-/

namespace WorldstreetChain

open Rpc

namespace Sdk

/-! ## 1. The wallet -/

/-- The parts of `@scure/base` the wallet calls: `bech32m.decode`, with its limit, and
    `bech32m.fromWords`. Both throw. -/
structure Bech32m where
  decode : JsString → Nat → Except String (JsString × List UInt8)
  fromWords : List UInt8 → Except String (List UInt8)

/-- The fields of `encodeTransfer`. -/
structure UnsignedTransfer where
  version : Nat
  chainId : JsString
  nonce : Nat
  fromAddress : JsString
  toAddress : JsString
  amount : Nat
  fee : Nat
  publicKey : List UInt8
  memo : JsString

section Wallet

variable (B : Bech32m)

def decodeIntertrainAddress (address : JsString) : Except String (List UInt8) := do
  let (hrp, words) ← B.decode address 90
  if hrp ≠ ofText "mna" then .error "Invalid Intertrain address prefix" else
  let data ← B.fromWords words
  if data.length ≠ 21 ∨ data.head? ≠ some 1 then .error "Invalid Intertrain address payload" else
  .ok data

def encodeTransfer (v : UnsignedTransfer) : Except String (List UInt8) := do
  let fromBytes ← decodeIntertrainAddress B v.fromAddress
  let toBytes ← decodeIntertrainAddress B v.toAddress
  .ok ([UInt8.ofNat v.version] ++ (postcardString v.chainId ++ (varint v.nonce ++ (fromBytes ++
    (toBytes ++ (varint v.amount ++ (varint v.fee ++ (v.publicKey ++ postcardString v.memo))))))))

/-- `unsigned`, with the amounts in digits and the key in hexadecimal. -/
def unsignedJson (v : UnsignedTransfer) : Json :=
  .object [("version", .number v.version), ("chain_id", .string v.chainId),
    ("nonce", .number v.nonce), ("from", .string v.fromAddress), ("to", .string v.toAddress),
    ("amount", .string (ofText (toString v.amount))), ("fee", .string (ofText (toString v.fee))),
    ("public_key", .string (bytesToHex v.publicKey)), ("memo", .string v.memo)]

/-- What `transfer` sends for a transfer; `sign` is its secret key's signature. -/
def transferRequest (sign : List UInt8 → Vector UInt8 64) (v : UnsignedTransfer) :
    Except String Json := do
  let message ← encodeTransfer B v
  .ok (.object [("transaction", .object [("unsigned", unsignedJson v),
    ("signature", .string (bytesToHex (sign message).toList))])])

end Wallet

/-! ## 2. What both sides make of an address -/

variable {checked : String → Option (String × List UInt8)} {B : Bech32m}

/-- Both decoders follow one standard: the bytes they read off a text are the same. -/
def ReadAlike (checked : String → Option (String × List UInt8)) (B : Bech32m) : Prop :=
  ∀ text hrp data hrp' words bytes, checked text = some (hrp, data) →
    B.decode (ofText text) 90 = .ok (hrp', words) → B.fromWords words = .ok bytes → bytes = data

/-- A text that both the node and the wallet take for an address. -/
structure ValidAddress (checked : String → Option (String × List UInt8)) (B : Bech32m)
    (address : JsString) : Prop where
  node : ∃ text, address = ofText text ∧ ∃ a, fromBech32m checked text = .ok a
  wallet : ∃ bytes, decodeIntertrainAddress B address = .ok bytes

theorem decodeIntertrainAddress_eq_ok {address : JsString} {bytes : List UInt8}
    (h : decodeIntertrainAddress B address = .ok bytes) :
    ∃ hrp words, B.decode address 90 = .ok (hrp, words) ∧ B.fromWords words = .ok bytes := by
  unfold decodeIntertrainAddress at h
  cases hdecode : B.decode address 90 with
  | error e =>
    rw [hdecode] at h
    cases h
  | ok r =>
    obtain ⟨hrp, words⟩ := r
    rw [hdecode] at h
    refine ⟨hrp, words, rfl, ?_⟩
    change (if hrp ≠ ofText "mna" then _ else _) = _ at h
    split at h
    · cases h
    · cases hwords : B.fromWords words with
      | error e =>
        rw [hwords] at h
        cases h
      | ok data =>
        rw [hwords] at h
        change (if data.length ≠ 21 ∨ data.head? ≠ some 1 then _ else _) = _ at h
        split at h
        · cases h
        · exact h

theorem fromBech32m_eq_ok {text : String} {a : Address}
    (h : fromBech32m checked text = .ok a) :
    ∃ hrp, checked text = some (hrp, a.bytes.toList) := by
  unfold fromBech32m at h
  split at h
  · cases h
  · rename_i hrp data hchecked
    split at h
    · cases h
    · split at h
      · split at h
        · cases h
          exact ⟨hrp, hchecked⟩
        · cases h
      · cases h

/-- **A valid address** is the same bytes on both sides. -/
theorem ValidAddress.bytes_eq {address : JsString} (h : ValidAddress checked B address)
    (hB : ReadAlike checked B) :
    ∃ text a, address = ofText text ∧ fromBech32m checked text = .ok a ∧
      decodeIntertrainAddress B address = .ok a.bytes.toList := by
  obtain ⟨text, rfl, a, ha⟩ := h.node
  obtain ⟨bytes, hbytes⟩ := h.wallet
  obtain ⟨hrp, hchecked⟩ := fromBech32m_eq_ok ha
  obtain ⟨hrp', words, hdecode, hwords⟩ := decodeIntertrainAddress_eq_ok hbytes
  have heq := hB text hrp _ hrp' words bytes hchecked hdecode hwords
  exact ⟨text, a, rfl, ha, heq ▸ hbytes⟩

/-! ## 3. What is signed and what is verified -/

/-- A transfer whose fields are in the range of their types, with strings that are texts. -/
structure UnsignedTransfer.Valid (checked : String → Option (String × List UInt8)) (B : Bech32m)
    (v : UnsignedTransfer) : Prop where
  version : v.version < 2 ^ 8
  chainId : WellFormed v.chainId
  nonce : v.nonce < 2 ^ 53
  fromAddress : ValidAddress checked B v.fromAddress
  toAddress : ValidAddress checked B v.toAddress
  amount : v.amount < 2 ^ 128
  fee : v.fee < 2 ^ 128
  publicKey : v.publicKey.length = 32
  memo : WellFormed v.memo

theorem fromJson_unsignedJson {v : UnsignedTransfer}
    {chainId fromAddress toAddress memo : String}
    (hversion : v.version < 2 ^ 8) (hnonce : v.nonce < 2 ^ 64) (hchainId : v.chainId = ofText chainId)
    (hfrom : v.fromAddress = ofText fromAddress) (hto : v.toAddress = ofText toAddress)
    (hmemo : v.memo = ofText memo) :
    RpcUnsignedTransactionInput.fromJson (unsignedJson v) = some
      { version := UInt8.ofNat v.version
        chainId := chainId
        nonce := BitVec.ofNat 64 v.nonce
        fromAddress := fromAddress
        toAddress := toAddress
        amount := toString v.amount
        fee := toString v.fee
        publicKey := hexString v.publicKey
        memo := memo } := by
  have hu8 : Json.toU8 (.number v.version) = some (UInt8.ofNat v.version) := if_pos hversion
  have hu64 : Json.toU64 (.number v.nonce) = some (BitVec.ofNat 64 v.nonce) := if_pos hnonce
  have htext : ∀ text, Json.toText (.string (ofText text)) = some text := Json.toText_encode
  unfold RpcUnsignedTransactionInput.fromJson unsignedJson
  rw [hchainId, hfrom, hto, hmemo]
  simp [Json.field, List.lookup_cons, hu8, hu64, htext, bytesToHex]

theorem fromJson_transferRequest {unsigned : UnsignedTransfer} (signature : String)
    {input : RpcUnsignedTransactionInput}
    (h : RpcUnsignedTransactionInput.fromJson (unsignedJson unsigned) = some input) :
    BroadcastParams.fromJson (.object [("transaction", .object [("unsigned", unsignedJson unsigned),
      ("signature", .string (ofText signature))])]) = some ⟨⟨input, signature⟩⟩ := by
  have htext : Json.toText (.string (ofText signature)) = some signature := Json.toText_encode _
  unfold BroadcastParams.fromJson RpcTransactionInput.fromJson
  simp [Json.field, List.lookup_cons, h, htext]

/-- What the wallet encodes is what the node encodes of the same fields. -/
theorem encodeTransfer_eq {v : UnsignedTransfer} {u : UnsignedTransaction}
    (hversion : UInt8.ofNat v.version = u.version) (hchainId : v.chainId = ofText u.chainId)
    (hnonce : v.nonce = u.nonce.toNat)
    (hfrom : decodeIntertrainAddress B v.fromAddress = .ok u.fromAddress.bytes.toList)
    (hto : decodeIntertrainAddress B v.toAddress = .ok u.toAddress.bytes.toList)
    (hamount : v.amount = u.amount.toNat) (hfee : v.fee = u.fee.toNat)
    (hpublicKey : v.publicKey = u.publicKey.bytes.toList) (hmemo : v.memo = ofText u.memo) :
    encodeTransfer B v = .ok u.signingBytes := by
  have hu64 : varint v.nonce = Postcard.encode u.nonce := by
    have hlt := u.nonce.isLt
    rw [hnonce]
    exact varint_eq (show _ < 128 ^ 10 by omega)
  have hu128 : ∀ n : Amount, varint n.toNat = Postcard.encode n := fun n => by
    have hlt := n.isLt
    exact varint_eq (show _ < 128 ^ 19 by omega)
  unfold encodeTransfer
  rw [hfrom, hto]
  show Except.ok _ = _
  rw [hversion, hchainId, hu64, hamount, hfee, hpublicKey, hmemo, hu128, hu128, postcardString_eq,
    postcardString_eq, UnsignedTransaction.signingBytes_eq]
  simp only [UnsignedTransaction.leading, UnsignedTransaction.tail, Postcard.encode_pair,
    List.append_assoc]
  rfl

/-- **The wallet signs what is verified**: the bytes it encodes are the signing bytes of the
    transaction that the node builds from its JSON. -/
theorem wallet_signs_what_is_verified (hB : ReadAlike checked B)
    (sign : List UInt8 → Vector UInt8 64) (v : UnsignedTransfer) (hv : v.Valid checked B) :
    ∃ bytes json params transaction, encodeTransfer B v = .ok bytes ∧
      transferRequest B sign v = .ok json ∧ BroadcastParams.fromJson json = some params ∧
      params.transaction.intoCore checked = .ok transaction ∧
      transaction.unsigned.signingBytes = bytes ∧ transaction.signature = ⟨sign bytes⟩ := by
  obtain ⟨chainId, hchainId⟩ := exists_text hv.chainId
  obtain ⟨memo, hmemo⟩ := exists_text hv.memo
  obtain ⟨fromText, fromAddress, hfrom, hfromNode, hfromWallet⟩ := hv.fromAddress.bytes_eq hB
  obtain ⟨toText, toAddress, hto, htoNode, htoWallet⟩ := hv.toAddress.bytes_eq hB
  have hnonce : v.nonce < 2 ^ 64 := Nat.lt_trans hv.nonce (by decide)
  have hamount := hv.amount
  have hfee := hv.fee
  let u : UnsignedTransaction :=
    { version := UInt8.ofNat v.version
      chainId := chainId
      nonce := BitVec.ofNat 64 v.nonce
      fromAddress := fromAddress
      toAddress := toAddress
      amount := BitVec.ofNat 128 v.amount
      fee := BitVec.ofNat 128 v.fee
      publicKey := ⟨⟨v.publicKey.toArray, hv.publicKey⟩⟩
      memo := memo }
  have hbytes : encodeTransfer B v = .ok u.signingBytes :=
    encodeTransfer_eq rfl hchainId (Nat.mod_eq_of_lt hnonce).symm hfromWallet htoWallet
      (Nat.mod_eq_of_lt hamount).symm (Nat.mod_eq_of_lt hfee).symm rfl hmemo
  have hjson := fromJson_transferRequest (hexString (sign u.signingBytes).toList)
    (fromJson_unsignedJson hv.version hnonce hchainId hfrom hto hmemo)
  refine ⟨u.signingBytes, _, _, ⟨u, ⟨sign u.signingBytes⟩⟩, hbytes, ?_, hjson, ?_, rfl, rfl⟩
  · unfold transferRequest
    rw [hbytes]
    rfl
  · exact RpcTransactionInput.intoCore_eq_ok hfromNode htoNode (decodeFixed_hex _ hv.publicKey _)
      (decodeFixed_hex _ Vector.length_toList _) (parseU128_decimal hamount)
      (parseU128_decimal hfee)

namespace Sample

def aliceText : String := "mna1qyrswpc8qurswpc8qurswpc8qurswpc8qufjtdhx"

def aliceWords : List UInt8 :=
  [0, 4, 3, 16, 14, 1, 24, 7, 0, 28, 3, 16, 14, 1, 24, 7, 0, 28, 3, 16, 14, 1, 24, 7, 0, 28, 3, 16,
    14, 1, 24, 7, 0, 28]

def aliceBytes : List UInt8 := 1 :: List.replicate 20 7

def bobText : String := "mna1qyysjzgfpyysjzgfpyysjzgfpyysjzgfpycralhz"

def bobWords : List UInt8 :=
  [0, 4, 4, 16, 18, 2, 8, 9, 1, 4, 4, 16, 18, 2, 8, 9, 1, 4, 4, 16, 18, 2, 8, 9, 1, 4, 4, 16, 18, 2,
    8, 9, 1, 4]

def bobBytes : List UInt8 := 1 :: List.replicate 20 9

/-- The two decoders, on two addresses. -/
def checkedHrp (text : String) : Option (String × List UInt8) :=
  if text = aliceText then some ("mna", aliceBytes)
  else if text = bobText then some ("mna", bobBytes)
  else none

def wordsOf (s : JsString) : Except String (JsString × List UInt8) :=
  if s = ofText aliceText then .ok (ofText "mna", aliceWords)
  else if s = ofText bobText then .ok (ofText "mna", bobWords)
  else .error "Invalid checksum"

def bytesOf (words : List UInt8) : Except String (List UInt8) :=
  if words = aliceWords then .ok aliceBytes
  else if words = bobWords then .ok bobBytes
  else .error "Non-zero padding"

def bech32m : Bech32m where
  decode s _ := wordsOf s
  fromWords := bytesOf

theorem wordsOf_alice : wordsOf (ofText aliceText) = .ok (ofText "mna", aliceWords) := by
  unfold wordsOf
  rw [if_pos rfl]

theorem bytesOf_alice : bytesOf aliceWords = .ok aliceBytes := by
  unfold bytesOf
  rw [if_pos rfl]

theorem wordsOf_bob : wordsOf (ofText bobText) = .ok (ofText "mna", bobWords) := by
  have hne : ofText bobText ≠ ofText aliceText := by decide +kernel
  unfold wordsOf
  rw [if_neg hne, if_pos rfl]

theorem bytesOf_bob : bytesOf bobWords = .ok bobBytes := by
  have hne : bobWords ≠ aliceWords := by decide
  unfold bytesOf
  rw [if_neg hne, if_pos rfl]

theorem readAlike : ReadAlike checkedHrp bech32m := by
  intro text hrp data hrp' words bytes hchecked hdecode hwords
  change wordsOf (ofText text) = _ at hdecode
  change bytesOf words = _ at hwords
  unfold checkedHrp at hchecked
  split at hchecked
  · rename_i htext
    rw [htext, wordsOf_alice] at hdecode
    cases hdecode
    rw [bytesOf_alice] at hwords
    cases hwords
    cases hchecked
    rfl
  · split at hchecked
    · rename_i htext
      rw [htext, wordsOf_bob] at hdecode
      cases hdecode
      rw [bytesOf_bob] at hwords
      cases hwords
      cases hchecked
      rfl
    · cases hchecked

theorem validAddress_alice : ValidAddress checkedHrp bech32m (ofText aliceText) where
  node := ⟨aliceText, rfl, ⟨⟨aliceBytes.toArray, rfl⟩⟩, by decide +kernel⟩
  wallet := ⟨aliceBytes, by decide +kernel⟩

theorem validAddress_bob : ValidAddress checkedHrp bech32m (ofText bobText) where
  node := ⟨bobText, rfl, ⟨⟨bobBytes.toArray, rfl⟩⟩, by decide +kernel⟩
  wallet := ⟨bobBytes, by decide +kernel⟩

def transfer : UnsignedTransfer where
  version := 1
  chainId := ofText "worldstreet-devnet-1"
  nonce := 2 ^ 53 - 1
  fromAddress := ofText aliceText
  toAddress := ofText bobText
  amount := 2 ^ 128 - 1
  fee := 1
  publicKey := List.replicate 32 9
  memo := ofText "für 𝄞"

theorem valid_transfer : transfer.Valid checkedHrp bech32m where
  version := by decide
  chainId := wellFormed_ofText _
  nonce := by decide
  fromAddress := validAddress_alice
  toAddress := validAddress_bob
  amount := by decide
  fee := by decide
  publicKey := rfl
  memo := wellFormed_ofText _

end Sample

/-- A transfer of the largest amount, with a memo beyond the first plane. -/
theorem wallet_signs_what_is_verified_transfer :
    ∃ bytes json params transaction, encodeTransfer Sample.bech32m Sample.transfer = .ok bytes ∧
      transferRequest Sample.bech32m (fun _ => Vector.replicate 64 3) Sample.transfer = .ok json ∧
      BroadcastParams.fromJson json = some params ∧
      params.transaction.intoCore Sample.checkedHrp = .ok transaction ∧
      transaction.unsigned.signingBytes = bytes ∧
      transaction.signature = ⟨Vector.replicate 64 3⟩ :=
  wallet_signs_what_is_verified Sample.readAlike _ Sample.transfer Sample.valid_transfer

end Sdk

end WorldstreetChain
