import WorldstreetChain.Core.SigningBytes
import WorldstreetChain.Library.Utf16
import WorldstreetChain.Rpc.Bridge

/-!
# Transactions as they are handed in (`transaction_broadcast`)

A transaction comes as JSON: amounts in decimal digits, key and signature in hexadecimal ones,
addresses as Bech32m texts.

* `Rpc.BroadcastParams.fromJson` -- what `serde` makes of the parameters.
* `Rpc.RpcTransactionInput.intoCore` -- the transaction they stand for.
* `Rpc.parseU128_decimal`, `Rpc.decodeFixed_hex` -- **numbers and bytes are read back**.
-/

namespace WorldstreetChain

namespace Rpc

/-! ## 1. JSON -/

/-- The JSON values a wallet sends: whole numbers, strings, of which a string may hold any units,
    and objects. -/
inductive Json where
  | number (n : Nat)
  | string (units : List UInt16)
  | object (fields : List (String × Json))

namespace Json

def field (name : String) : Json → Option Json
  | .object fields => fields.lookup name
  | _ => none

/-- A string with a surrogate that has no partner is refused. -/
def toText : Json → Option String
  | .string units =>
    if Utf16.encode (Utf16.decode units) = units then some (String.ofList (Utf16.decode units))
    else none
  | _ => none

def toU8 : Json → Option UInt8
  | .number n => if n < 2 ^ 8 then some (UInt8.ofNat n) else none
  | _ => none

def toU64 : Json → Option U64
  | .number n => if n < 2 ^ 64 then some (BitVec.ofNat 64 n) else none
  | _ => none

theorem toText_encode (text : String) :
    toText (.string (Utf16.encode text.toList)) = some text := by
  rw [toText, Utf16.decode_encode, if_pos rfl, String.ofList_toList]

end Json

structure RpcUnsignedTransactionInput where
  version : UInt8
  chainId : String
  nonce : U64
  fromAddress : String
  toAddress : String
  amount : String
  fee : String
  publicKey : String
  memo : String

structure RpcTransactionInput where
  unsigned : RpcUnsignedTransactionInput
  signature : String

structure BroadcastParams where
  transaction : RpcTransactionInput

def RpcUnsignedTransactionInput.fromJson (json : Json) : Option RpcUnsignedTransactionInput := do
  let version ← (← json.field "version").toU8
  let chainId ← (← json.field "chain_id").toText
  let nonce ← (← json.field "nonce").toU64
  let fromAddress ← (← json.field "from").toText
  let toAddress ← (← json.field "to").toText
  let amount ← (← json.field "amount").toText
  let fee ← (← json.field "fee").toText
  let publicKey ← (← json.field "public_key").toText
  let memo ← (← json.field "memo").toText
  some { version, chainId, nonce, fromAddress, toAddress, amount, fee, publicKey, memo }

def RpcTransactionInput.fromJson (json : Json) : Option RpcTransactionInput := do
  let unsigned ← RpcUnsignedTransactionInput.fromJson (← json.field "unsigned")
  let signature ← (← json.field "signature").toText
  some { unsigned, signature }

def BroadcastParams.fromJson (json : Json) : Option BroadcastParams := do
  let transaction ← RpcTransactionInput.fromJson (← json.field "transaction")
  some { transaction }

/-! ## 2. Addresses, keys and amounts -/

inductive AddressError where
  | invalidEncoding
  | wrongPrefix
  | wrongLength
  | unsupportedVersion
  deriving DecidableEq

/-- `Display`. -/
def AddressError.text : AddressError → String
  | .invalidEncoding => "invalid Bech32m address"
  | .wrongPrefix => "address has the wrong human-readable prefix"
  | .wrongLength => "address payload must be 21 bytes"
  | .unsupportedVersion => "unsupported address version"

def addressHrp : String := "mna"

def addressVersion : UInt8 := 1

/-- `checked` is `CheckedHrpstring::new::<Bech32m>`: the prefix as it is spelled, and the bytes. -/
def fromBech32m (checked : String → Option (String × List UInt8)) (value : String) :
    Except AddressError Address :=
  match checked value with
  | none => .error .invalidEncoding
  | some (hrp, data) =>
    if hrp ≠ addressHrp then .error .wrongPrefix
    else if h : data.length = 21 then
      if data.head? = some addressVersion then .ok ⟨⟨data.toArray, h⟩⟩
      else .error .unsupportedVersion
    else .error .wrongLength

def decodeFixed (n : Nat) (value field : String) : Except String (Vector UInt8 n) :=
  match hexDecode value.toList with
  | none => .error (field ++ " must be hex")
  | some bytes =>
    if h : bytes.length = n then .ok ⟨bytes.toArray, h⟩
    else .error (field ++ " must be " ++ toString n ++ "-byte hex")

def parseField (field value : String) : Except String Amount :=
  match parseU128 value with
  | some amount => .ok amount
  | none => .error (field ++ " must be an unsigned integer string")

/-! ## 3. The transaction -/

def RpcTransactionInput.intoCore (checked : String → Option (String × List UInt8))
    (t : RpcTransactionInput) : Except String Transaction := do
  let fromAddress ← (fromBech32m checked t.unsigned.fromAddress).mapError
    fun error => "invalid from address: " ++ error.text
  let toAddress ← (fromBech32m checked t.unsigned.toAddress).mapError
    fun error => "invalid to address: " ++ error.text
  let publicKey ← decodeFixed 32 t.unsigned.publicKey "public_key"
  let signature ← decodeFixed 64 t.signature "signature"
  let amount ← parseField "amount" t.unsigned.amount
  let fee ← parseField "fee" t.unsigned.fee
  .ok
    { unsigned :=
        { version := t.unsigned.version
          chainId := t.unsigned.chainId
          nonce := t.unsigned.nonce
          fromAddress := fromAddress
          toAddress := toAddress
          amount := amount
          fee := fee
          publicKey := ⟨publicKey⟩
          memo := t.unsigned.memo }
      signature := ⟨signature⟩ }

theorem RpcTransactionInput.intoCore_eq_ok {checked : String → Option (String × List UInt8)}
    {t : RpcTransactionInput} {fromAddress toAddress : Address} {publicKey : Vector UInt8 32}
    {signature : Vector UInt8 64} {amount fee : Amount}
    (hfrom : fromBech32m checked t.unsigned.fromAddress = .ok fromAddress)
    (hto : fromBech32m checked t.unsigned.toAddress = .ok toAddress)
    (hpublicKey : decodeFixed 32 t.unsigned.publicKey "public_key" = .ok publicKey)
    (hsignature : decodeFixed 64 t.signature "signature" = .ok signature)
    (hamount : parseU128 t.unsigned.amount = some amount)
    (hfee : parseU128 t.unsigned.fee = some fee) :
    t.intoCore checked = .ok
      ⟨⟨t.unsigned.version, t.unsigned.chainId, t.unsigned.nonce, fromAddress, toAddress, amount,
        fee, ⟨publicKey⟩, t.unsigned.memo⟩, ⟨signature⟩⟩ := by
  unfold intoCore parseField
  rw [hfrom, hto, hpublicKey, hsignature, hamount, hfee]
  rfl

/-! ## 4. Reading back -/

theorem decodeFixed_hex {n : Nat} (bytes : List UInt8) (h : bytes.length = n) (field : String) :
    decodeFixed n (hexString bytes) field = .ok ⟨bytes.toArray, h⟩ := by
  unfold decodeFixed hexString
  rw [String.toList_ofList, hexDecode_hexByte]
  exact dif_pos h

/-- What is read off the decimal digits of a number: the number, where it fits. -/
theorem parseU128_toString (n : Nat) :
    parseU128 (toString n) = if n < 2 ^ 128 then some (BitVec.ofNat 128 n) else none := by
  have hdigits : (toString n).toList = Nat.toDigits 10 n := by
    rw [Nat.toString_eq_repr, Nat.toList_repr]
  have hall : ∀ c ∈ Nat.toDigits 10 n, c.isDigit = true := fun c hc =>
    Nat.isDigit_of_mem_toDigits (by decide) (by decide) hc
  have hne : (Nat.toDigits 10 n).isEmpty = false := by
    rw [List.isEmpty_eq_false_iff, ← List.length_pos_iff]
    exact Nat.length_toDigits_pos
  have hvalue : (Nat.toDigits 10 n).foldl (fun n c => 10 * n + (c.toNat - '0'.toNat)) 0 = n := by
    rw [← Nat.ofDigitChars_eq_foldl, Nat.ofDigitChars_ten_toDigits]
  unfold parseU128
  rw [hdigits]
  split
  · rename_i rest heq
    have hc := hall '+' (by rw [heq]; exact List.mem_cons_self)
    exact absurd hc (by decide)
  · dsimp only
    rw [hne, List.all_eq_true.mpr hall, hvalue]
    rfl

/-- **A number is read back** from its decimal digits. -/
theorem parseU128_decimal {n : Nat} (h : n < 2 ^ 128) :
    parseU128 (toString n) = some (BitVec.ofNat 128 n) := by
  rw [parseU128_toString, if_pos h]

/-- What is read off decimal digits is the number they were written from. -/
theorem parseU128_eq_some {n : Nat} {a : Amount} (h : parseU128 (toString n) = some a) :
    a.toNat = n := by
  rw [parseU128_toString] at h
  split at h
  · rename_i hn
    cases h
    exact Nat.mod_eq_of_lt hn
  · cases h

end Rpc

end WorldstreetChain
