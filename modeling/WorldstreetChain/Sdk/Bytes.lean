import WorldstreetChain.Core.Types
import WorldstreetChain.Library.Utf16

/-!
# Bytes of the SDK (`intertrain-wallet-sdk`)

The wallet's own encoder of `postcard`: varints and strings in front of their length.

* `Sdk.varint_eq` -- **the loop of the wallet** writes the format's varint.
* `Sdk.postcardString_eq` -- a string is written as the node writes the text it stands for.
-/

namespace WorldstreetChain

namespace Sdk

/-- A string of JavaScript. -/
abbrev JsString := List UInt16

/-- `isWellFormed`: no surrogate is without its partner. -/
def WellFormed (value : JsString) : Prop := Utf16.encode (Utf16.decode value) = value

instance (value : JsString) : Decidable (WellFormed value) :=
  inferInstanceAs (Decidable (Utf16.encode (Utf16.decode value) = value))

/-- The string of a text. -/
def ofText (text : String) : JsString := Utf16.encode text.toList

/-- `new TextEncoder().encode(value)`. -/
def utf8 (value : JsString) : List UInt8 := (Utf16.decode value).flatMap String.utf8EncodeChar

def bytesToHex (bytes : List UInt8) : JsString := ofText (hexString bytes)

def bytes32 (value : List UInt8) : Except String (List UInt8) :=
  if value.length ≠ 32 then .error "expected 32 bytes" else .ok value

/-- The loop of `varint`; on a negative number it would not end. -/
def varint (n : Nat) : List UInt8 :=
  if n >>> 7 = 0 then [UInt8.ofNat (n &&& 0x7f)]
  else UInt8.ofNat (n &&& 0x7f ||| 0x80) :: varint (n >>> 7)
termination_by n
decreasing_by
  rename_i h
  rw [Nat.shiftRight_eq_div_pow] at h ⊢
  omega

def postcardString (value : JsString) : List UInt8 := varint (utf8 value).length ++ utf8 value

/-- **The wallet's varint** is the format's. -/
theorem varint_eq {fuel n : Nat} (h : n < 128 ^ (fuel + 1)) :
    varint n = Postcard.varint (fuel + 1) n := by
  have hlow : n &&& 0x7f = n % 128 := Nat.and_two_pow_sub_one_eq_mod n 7
  have hrest : n >>> 7 = n / 128 := Nat.shiftRight_eq_div_pow n 7
  induction fuel generalizing n with
  | zero =>
    have hn : n < 128 := by simpa using h
    have hzero : n >>> 7 = 0 := by omega
    rw [varint, if_pos hzero, hlow, Nat.mod_eq_of_lt hn, Postcard.varint, if_pos hn]
  | succ fuel ih =>
    by_cases hn : n < 128
    · have hzero : n >>> 7 = 0 := by omega
      rw [varint, if_pos hzero, hlow, Nat.mod_eq_of_lt hn, Postcard.varint, if_pos hn]
    · have hpos : ¬ n >>> 7 = 0 := by omega
      have hor : n % 128 ||| 0x80 = n % 128 + 128 := by
        have hsum := Nat.two_pow_add_eq_or_of_lt (i := 7) (b := n % 128) (by omega) 1
        rw [Nat.mul_one] at hsum
        rw [Nat.or_comm]
        exact hsum.symm.trans (Nat.add_comm _ _)
      have hlt : n / 128 < 128 ^ (fuel + 1) := by
        rw [Nat.div_lt_iff_lt_mul (by decide), ← Nat.pow_succ]
        exact h
      rw [varint, if_neg hpos, hlow, hor, hrest, Postcard.varint, if_neg hn,
        ih hlt (Nat.and_two_pow_sub_one_eq_mod _ 7) (Nat.shiftRight_eq_div_pow _ 7)]

theorem varint_length (n : Nat) : varint n = Postcard.encodeLength n :=
  varint_eq (Postcard.lt_pow_varint n)

theorem wellFormed_ofText (text : String) : WellFormed (ofText text) := by
  rw [WellFormed, ofText, Utf16.decode_encode]

theorem exists_text {value : JsString} (h : WellFormed value) : ∃ text, value = ofText text :=
  ⟨String.ofList (Utf16.decode value), by rw [ofText, String.toList_ofList, h]⟩

theorem utf8_ofText (text : String) : utf8 (ofText text) = Postcard.utf8 text := by
  have h := Postcard.utf8_ofList text.toList
  rw [String.ofList_toList] at h
  rw [utf8, ofText, Utf16.decode_encode, h]

theorem bytesToHex_eq (bytes : List UInt8) :
    bytesToHex bytes = Utf16.encode (bytes.flatMap hexByte) := by
  rw [bytesToHex, ofText, hexString, String.toList_ofList]

/-- **A text is written** as the node writes it. -/
theorem postcardString_eq (text : String) :
    postcardString (ofText text) = Postcard.encode text := by
  rw [postcardString, utf8_ofText, varint_length]
  rfl

end Sdk

end WorldstreetChain
