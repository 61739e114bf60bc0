import WorldstreetChain.Ethereum.Abi
import WorldstreetChain.Relayer.Contracts
import WorldstreetChain.Sdk.Bytes

/-!
# Deposits on Ethereum (`EthereumSepoliaUsdc`)

The SDK writes the call data of `deposit` digit by digit, the wallet sends its bytes, the contract
reads its arguments and emits them, and the relayer reads the log.

* `Sdk.encodeDeposit` -- the call data.
* `Sdk.encodeDeposit_eq` -- it is the selector and the arguments, word by word.
* `Sdk.deposit_reaches_row` -- **what is deposited is what is credited**.
-/

namespace WorldstreetChain

open Ethereum Relayer

namespace Sdk

/-! ## 1. What the SDK writes -/

/-- `BigInt(value).toString(16)`. -/
def toString16 : Int → List Char
  | .ofNat n => Nat.toDigits 16 n
  | .negSucc n => '-' :: Nat.toDigits 16 (n + 1)

/-- `digits.padStart(length, "0")`. -/
def padStart (length : Nat) (digits : List Char) : List Char :=
  List.replicate (length - digits.length) '0' ++ digits

def word (value : Int) : JsString := Utf16.encode (padStart 64 (toString16 value))

/-- The destination, filled up with zeros to `Math.ceil(body.length / 32) * 32` bytes. -/
def encodeDeposit (depositId : List UInt8) (amount : Int) (destination : JsString) :
    Except String JsString := do
  let body := utf8 destination
  let length := (body.length + 31) / 32 * 32
  let id ← bytes32 depositId
  .ok (ofText "0xf3cc5389" ++ bytesToHex id ++ word amount ++ word 96 ++ word body.length ++
    bytesToHex (body ++ List.replicate (length - body.length) 0))

/-! ## 2. What is sent -/

/-- The bytes of a `DATA` string of the wallet's provider. -/
def calldata (text : JsString) : Option (List UInt8) :=
  match Utf16.decode text with
  | '0' :: 'x' :: digits => Rpc.hexDecode digits
  | _ => none

theorem hexValues_zero (k : Nat) : (hexValues k 0).map Nat.digitChar = List.replicate k '0' := by
  induction k with
  | zero => rfl
  | succ k ih =>
    rw [hexValues, List.map_append, ih, List.replicate_succ']
    rfl

/-- Digits in front of which zeros are written are the last digits of the number. -/
theorem padStart_toDigits {k n : Nat} (h : n < 16 ^ (k + 1)) :
    padStart (k + 1) (Nat.toDigits 16 n) = (hexValues (k + 1) n).map Nat.digitChar := by
  induction k generalizing n with
  | zero =>
    have hn : n < 16 := by simpa using h
    rw [Nat.toDigits_of_lt_base hn, hexValues, hexValues, Nat.mod_eq_of_lt hn]
    rfl
  | succ k ih =>
    rw [hexValues, List.map_append]
    by_cases hn : n < 16
    · rw [Nat.toDigits_of_lt_base hn, Nat.div_eq_of_lt hn, hexValues_zero, Nat.mod_eq_of_lt hn]
      rfl
    · have hlt : n / 16 < 16 ^ (k + 1) := by
        rw [Nat.div_lt_iff_lt_mul (by decide), ← Nat.pow_succ]
        exact h
      rw [Nat.toDigits_of_base_le (by decide) (by omega), ← ih hlt]
      unfold padStart
      rw [List.length_append, List.length_singleton, ← List.append_assoc]
      congr 3
      omega

/-- A word of the SDK is the word of the contract. -/
theorem flatMap_beBytes (k n : Nat) : (beBytes k n).flatMap hexByte =
    (hexValues (2 * k) n).map Nat.digitChar := by
  induction k generalizing n with
  | zero => rfl
  | succ k ih =>
    have hbyte : (UInt8.ofNat (n % 256)).toNat = n % 256 :=
      UInt8.toNat_ofNat_of_lt' (Nat.mod_lt n (by decide))
    have hdouble : 2 * (k + 1) = 2 * k + 1 + 1 := by omega
    rw [beBytes, List.flatMap_append, ih, hdouble, hexValues, hexValues, List.map_append,
      List.map_append, Nat.div_div_eq_div_mul, List.append_assoc]
    congr 1
    show hexByte _ ++ [] = _
    rw [hexByte, hbyte, List.append_nil]
    have hhigh : n % 256 / 16 = n / 16 % 16 := by omega
    have hlow : n % 256 % 16 = n % 16 := by omega
    rw [hhigh, hlow]
    rfl

theorem word_eq {amount : Int} (h0 : 0 ≤ amount) (h256 : amount < 2 ^ 256) :
    word amount = Utf16.encode ((abiWord amount.toNat).flatMap hexByte) := by
  obtain ⟨n, rfl⟩ := Int.eq_ofNat_of_zero_le h0
  have hlt : n < 16 ^ (63 + 1) := by
    have hnat : n < 2 ^ 256 := by exact_mod_cast h256
    exact Nat.lt_of_lt_of_le hnat (by decide)
  rw [abiWord, flatMap_beBytes]
  exact congrArg Utf16.encode (padStart_toDigits hlt)

theorem encode_append (a b : List Char) :
    Utf16.encode (a ++ b) = Utf16.encode a ++ Utf16.encode b :=
  List.flatMap_append

/-- **The call data** is the selector and the arguments. -/
theorem encodeDeposit_eq (id : Bytes32) {amount : Int} {destination : JsString}
    (h0 : 0 ≤ amount) (h256 : amount < 2 ^ 256) (hlength : (utf8 destination).length < 2 ^ 64) :
    encodeDeposit id.toList amount destination =
      .ok (Utf16.encode ('0' :: 'x' :: (depositSelector ++ depositArguments id amount.toNat
        (utf8 destination)).flatMap hexByte)) := by
  have hid : bytes32 id.toList = .ok id.toList := by
    rw [bytes32, if_neg (not_not.mpr Vector.length_toList)]
  have hselector : ofText "0xf3cc5389" =
      Utf16.encode ('0' :: 'x' :: depositSelector.flatMap hexByte) := by
    decide
  have hlong : word (utf8 destination).length =
      Utf16.encode ((abiWord (utf8 destination).length).flatMap hexByte) :=
    word_eq (Int.natCast_nonneg _) (by omega)
  have hoffset : word 96 = Utf16.encode ((abiWord 96).flatMap hexByte) :=
    word_eq (by decide) (by decide)
  have hfill : ((utf8 destination).length + 31) / 32 * 32 - (utf8 destination).length =
      (32 - (utf8 destination).length % 32) % 32 := by
    omega
  unfold encodeDeposit
  rw [hid]
  show Except.ok _ = _
  rw [hselector, bytesToHex_eq, bytesToHex_eq, word_eq h0 h256, hlong, hfill,
    hoffset]
  refine congrArg Except.ok ?_
  rw [← encode_append, ← encode_append, ← encode_append, ← encode_append, ← encode_append]
  refine congrArg Utf16.encode ?_
  simp only [depositArguments, padded, List.flatMap_append, List.cons_append, List.append_assoc]

theorem calldata_encode (bytes : List UInt8) :
    calldata (Utf16.encode ('0' :: 'x' :: bytes.flatMap hexByte)) = some bytes := by
  rw [calldata, Utf16.decode_encode]
  exact Rpc.hexDecode_hexByte bytes

/-! ## 3. What is credited -/

/-- The text the bytes of a string stand for. -/
def text (value : JsString) : String := String.ofList (Utf16.decode value)

theorem fromUTF8?_utf8 (value : JsString) :
    String.fromUTF8? ⟨(utf8 value).toArray⟩ = some (text value) := by
  have hbytes : utf8 value = Postcard.utf8 (text value) := (Postcard.utf8_ofList _).symm
  rw [hbytes]
  exact Postcard.fromUtf8_utf8 _

/-- The row of a deposit, in the transaction and the block its event is emitted in. -/
def creditRow (assetId : String) (depositId : Bytes32) (amount : Nat) (destination : JsString)
    (transactionHash : String) (blockNumber : Nat) : Row where
  operationId := Hash.toHex ⟨depositId⟩
  direction := "inbound"
  status := "detected"
  assetId := assetId
  address := text destination
  destination := text destination
  amount := toString amount
  externalTransaction := transactionHash
  sourceBlock := blockNumber

theorem depositRow_eventLog {e : DepositEvent} {destination : JsString}
    (hdestination : e.destination = utf8 destination) (hamount : e.amount < 2 ^ 256)
    (hlength : (utf8 destination).length < 2 ^ 64) (assetId topic transactionHash : String)
    (blockNumber : Nat) :
    depositRow assetId (eventLog topic e transactionHash blockNumber) =
      .ok (some (creditRow assetId e.depositId e.amount destination transactionHash
        blockNumber)) := by
  have hread := decodeDeposit_eventLog (e := e) hamount
    (by rw [hdestination]; exact Nat.lt_trans hlength (by decide)) topic transactionHash blockNumber
  rw [hdestination, fromUTF8?_utf8, orFail_some, Outcome.ok_bind] at hread
  have hid : lower (removePrefix "0x".toList ("0x" ++ Hash.toHex ⟨e.depositId⟩).toList) =
      Hash.toHex ⟨e.depositId⟩ := by
    rw [String.toList_append, removePrefix_append, lower_hex]
  have htransaction : String.ofList (removePrefix "0x".toList ("0x" ++ transactionHash).toList) =
      transactionHash := by
    rw [String.toList_append, removePrefix_append, String.ofList_toList]
  show (decodeDeposit (eventLog topic e transactionHash blockNumber).data >>= _) = _
  rw [hread]
  show Except.ok (some _) = _
  rw [hid]
  exact congrArg (fun external => Except.ok (some { creditRow assetId e.depositId e.amount
    destination transactionHash blockNumber with externalTransaction := external })) htransaction

/-- **What is deposited is what is credited.** The wallet sends the call data the SDK writes for a
    deposit id, an amount and a destination. The contract takes them as they are, and what the
    relayer notes of the event it emits is a row with this id, this amount and the text of this
    destination. -/
theorem deposit_reaches_row {depositId : List UInt8} {amount : Int} {destination data : JsString}
    (hencode : encodeDeposit depositId amount destination = .ok data) (h0 : 0 ≤ amount)
    (h256 : amount < 2 ^ 256) (hlength : (utf8 destination).length < 2 ^ 64) :
    ∃ id : Bytes32, id.toList = depositId ∧ ∃ sent, calldata data = some sent ∧
      ∀ (b : UsdcReserve) sender moved,
        b.callDeposit sender sent moved =
          b.deposit sender id amount.toNat (utf8 destination) moved ∧
        ∀ b' e, b.callDeposit sender sent moved = .ok (b', e) →
          ∀ assetId topic transactionHash blockNumber,
            depositRow assetId (eventLog topic e transactionHash blockNumber) =
              .ok (some (creditRow assetId id amount.toNat destination transactionHash
                blockNumber)) := by
  have hid : depositId.length = 32 := by
    by_contra hne
    unfold encodeDeposit bytes32 at hencode
    rw [if_pos hne] at hencode
    cases hencode
  have hnat : amount.toNat < 2 ^ 256 := by omega
  obtain ⟨id, rfl⟩ : ∃ id : Bytes32, id.toList = depositId :=
    ⟨⟨depositId.toArray, by simpa using hid⟩, by simp⟩
  rw [encodeDeposit_eq id h0 h256 hlength] at hencode
  cases hencode
  refine ⟨id, rfl, _, calldata_encode _, fun b sender moved => ?_⟩
  have hcall := b.callDeposit_arguments sender id hnat hlength moved
  refine ⟨hcall, fun b' e hdeposit assetId topic transactionHash blockNumber => ?_⟩
  rw [hcall] at hdeposit
  obtain ⟨-, rfl, -⟩ := UsdcReserve.deposit_marks hdeposit
  exact depositRow_eventLog rfl hnat hlength assetId topic transactionHash blockNumber

end Sdk

namespace Sample

/-- A reserve that has not taken a deposit yet. -/
def usdcReserve : UsdcReserve where
  relayer := Vector.replicate 20 1
  deposits _ := false
  releases _ := false
  owner := Vector.replicate 20 2
  paused := false

def depositor : Ethereum.Address := Vector.replicate 20 3

def creditedText : Sdk.JsString := Sdk.ofText accountText

end Sample

namespace Sdk

/-- A thousand for a text. -/
theorem deposit_reaches_row_thousand : ∃ (id : Bytes32) (e : DepositEvent),
    (Sample.usdcReserve.deposit Sample.depositor id 1000 (utf8 Sample.creditedText) true).map
        Prod.snd = .ok e ∧
      depositRow "ethereum:USDC" (eventLog "0x01" e "ab" 7) =
        .ok (some (creditRow "ethereum:USDC" id 1000 Sample.creditedText "ab" 7)) := by
  obtain ⟨data, hencode⟩ : ∃ data,
      encodeDeposit (List.replicate 32 9) 1000 Sample.creditedText = .ok data := ⟨_, rfl⟩
  have hshort : (utf8 Sample.creditedText).length < 2 ^ 64 := by decide
  obtain ⟨id, -, sent, -, h⟩ := deposit_reaches_row hencode (by decide) (by decide) hshort
  obtain ⟨hcall, hrow⟩ := h Sample.usdcReserve Sample.depositor true
  have hdeposit : Sample.usdcReserve.deposit Sample.depositor id 1000 (utf8 Sample.creditedText)
      true = .ok ({ Sample.usdcReserve with toBridge := Sample.usdcReserve.markDeposit id },
        ⟨id, Sample.depositor, 1000, utf8 Sample.creditedText⟩) := rfl
  refine ⟨id, _, congrArg (Except.map Prod.snd) hdeposit, ?_⟩
  exact hrow _ _ (hcall.trans hdeposit) "ethereum:USDC" "0x01" "ab" 7

end Sdk

end WorldstreetChain
