import WorldstreetChain.Library.BTree
import Mathlib.Data.List.Basic

/-!
# Postcard, a compact binary format

`Postcard α` is the format's view of a type: `encode` writes a value, `decode` reads one from the
front of a byte string and hands back the bytes behind it. The one law, `decode_encode`, reads a
written value back whatever follows; injectivity and prefix freedom of the encoding are its
consequences (`encode_append_inj`), so no instance proves them again.

The wire format: a `u8` is its byte; wider integers and lengths are LEB128 varints; a `bool` and
the tag of an option are one byte; strings and sequences are a length and their content; fixed
arrays, tuples and structures are their fields in order; an enumeration is the varint of its
variant; maps and sets are the length and the entries in key order.

A length of `2 ^ 64` or more is no length of a Rust collection. The encoder gives it the varint
that goes on past ten bytes, so that the law needs no side condition on lengths; the decoder
reads such a varint only where the ten-byte one is refused.
-/

namespace WorldstreetChain

open Std

class Postcard (α : Type) where
  encode : α → List UInt8
  decode : List UInt8 → Option (α × List UInt8)
  decode_encode : ∀ (a : α) (rest : List UInt8), decode (encode a ++ rest) = some (a, rest)

namespace Postcard

attribute [simp] decode_encode

section Laws

variable {α : Type} [Postcard α]

/-- `postcard::from_bytes`: a value at the front, whatever is left behind it ignored. -/
def fromBytes (bytes : List UInt8) : Option α :=
  (decode bytes).map (·.1)

@[simp] theorem fromBytes_encode (a : α) : fromBytes (encode a) = some a := by
  have h := decode_encode a []
  rw [List.append_nil] at h
  rw [fromBytes, h]
  rfl

/-- **The encoding is injective and prefix-free.** -/
theorem encode_append_inj {a b : α} {r s : List UInt8} (h : encode a ++ r = encode b ++ s) :
    a = b ∧ r = s := by
  have ha := decode_encode a r
  rw [h, decode_encode] at ha
  cases ha
  exact ⟨rfl, rfl⟩

theorem encode_inj {a b : α} (h : encode a = encode b) : a = b :=
  (encode_append_inj (r := []) (s := []) (by rw [h])).1

theorem encode_inj_iff {a b : α} : encode a = encode b ↔ a = b :=
  ⟨encode_inj, fun h => h ▸ rfl⟩

/-- A type read through an injection into one the format knows. -/
abbrev through {β : Type} (fields : β → α) (build : α → β) (h : ∀ b, build (fields b) = b) :
    Postcard β where
  encode b := encode (fields b)
  decode bytes := (decode bytes).map fun r => (build r.1, r.2)
  decode_encode b rest := by simp [h]

/-- A block that is there, with more behind it, or that is left out with everything behind it. -/
def encodeIf (present : Bool) (a : α) (rest : List UInt8) : List UInt8 :=
  if present then encode a ++ rest else []

/-- Whether the block is there can be read off the bytes, if it is never empty. -/
theorem encodeIf_inj {p q : Bool} {a b : α} {r s : List UInt8} (hne : ∀ a : α, encode a ≠ [])
    (h : encodeIf p a r = encodeIf q b s) :
    (p = false ∧ q = false) ∨ (p = true ∧ q = true ∧ a = b ∧ r = s) := by
  unfold encodeIf at h
  cases p with
  | false =>
    cases q with
    | false => exact Or.inl ⟨rfl, rfl⟩
    | true => exact absurd (List.append_eq_nil_iff.mp h.symm).1 (hne b)
  | true =>
    cases q with
    | false => exact absurd (List.append_eq_nil_iff.mp h).1 (hne a)
    | true =>
      obtain ⟨hab, hrs⟩ := encode_append_inj h
      exact Or.inr ⟨rfl, rfl, hab, hrs⟩

end Laws

/-! ## 1. Varints -/

/-- The varint of `n` in at most `fuel` bytes. -/
def varint : Nat → Nat → List UInt8
  | 0, _ => []
  | fuel + 1, n =>
    if n < 128 then [n.toUInt8] else (n % 128 + 128).toUInt8 :: varint fuel (n / 128)

/-- Reads a varint of at most `fuel` bytes, the last of which holds at most `lastMax`. -/
def readVarint : Nat → Nat → List UInt8 → Option (Nat × List UInt8)
  | 0, _, _ => none
  | _ + 1, _, [] => none
  | fuel + 1, lastMax, b :: rest =>
    if b.toNat < 128 then
      if fuel = 0 ∧ lastMax < b.toNat then none else some (b.toNat, rest)
    else
      (readVarint fuel lastMax rest).map fun r => (b.toNat - 128 + 128 * r.1, r.2)

theorem toNat_toUInt8 {n : Nat} (h : n < 256) : n.toUInt8.toNat = n := by
  simp [Nat.mod_eq_of_lt h]

/-- A number within the range of `fuel` bytes is read back. -/
theorem readVarint_varint (fuel lastMax : Nat) (hl : lastMax < 128) (n : Nat)
    (hn : n < 128 ^ fuel * (lastMax + 1)) (rest : List UInt8) :
    readVarint (fuel + 1) lastMax (varint (fuel + 1) n ++ rest) = some (n, rest) := by
  induction fuel generalizing n with
  | zero =>
    have h : n < 128 := by omega
    simp only [varint, if_pos h, List.cons_append, List.nil_append, readVarint,
      toNat_toUInt8 (by omega : n < 256)]
    rw [if_neg (by omega)]
  | succ fuel ih =>
    by_cases h : n < 128
    · simp only [varint, if_pos h, List.cons_append, List.nil_append, readVarint,
        toNat_toUInt8 (by omega : n < 256)]
      rw [if_neg (by omega)]
    · have hb := toNat_toUInt8 (by omega : n % 128 + 128 < 256)
      have hd : n / 128 < 128 ^ fuel * (lastMax + 1) := by
        rw [Nat.div_lt_iff_lt_mul (by decide)]
        calc n < 128 ^ (fuel + 1) * (lastMax + 1) := hn
          _ = 128 ^ fuel * (lastMax + 1) * 128 := by rw [Nat.pow_succ]; ac_rfl
      have hv : varint (fuel + 1 + 1) n
          = (n % 128 + 128).toUInt8 :: varint (fuel + 1) (n / 128) := by
        rw [varint, if_neg h]
      rw [hv, List.cons_append, readVarint, hb, if_neg (by omega), ih (n / 128) hd]
      simp only [Option.map_some, Option.some.injEq, Prod.mk.injEq, and_true]
      omega

/-- What is read is within the range of `fuel` bytes. -/
theorem readVarint_lt {fuel lastMax : Nat} (hl : lastMax < 128) {bytes : List UInt8} {n : Nat}
    {rest : List UInt8} (h : readVarint (fuel + 1) lastMax bytes = some (n, rest)) :
    n < 128 ^ fuel * (lastMax + 1) := by
  induction fuel generalizing bytes n with
  | zero =>
    cases bytes with
    | nil => cases h
    | cons b bs =>
      rw [readVarint] at h
      split at h
      · split at h
        · cases h
        · cases h
          omega
      · simp [readVarint] at h
  | succ fuel ih =>
    cases bytes with
    | nil => cases h
    | cons b bs =>
      rw [readVarint] at h
      have hp : 0 < 128 ^ fuel * (lastMax + 1) := Nat.mul_pos (Nat.pow_pos (by decide)) (by omega)
      have hs : 128 ^ (fuel + 1) * (lastMax + 1) = 128 * (128 ^ fuel * (lastMax + 1)) := by
        rw [Nat.pow_succ]; ac_rfl
      split at h
      · split at h
        · cases h
        · cases h
          omega
      · obtain ⟨⟨m, r⟩, hm, he⟩ := Option.map_eq_some_iff.mp h
        cases he
        have hlt := ih hm
        have hb := b.toNat_lt
        show b.toNat - 128 + 128 * m < _
        omega

/-- Fuel a number does not need changes nothing. -/
theorem varint_fuel {fuel fuel' n : Nat} (h : n < 128 ^ (fuel + 1)) (hf : fuel ≤ fuel') :
    varint (fuel' + 1) n = varint (fuel + 1) n := by
  induction fuel generalizing fuel' n with
  | zero =>
    have hn : n < 128 := by simpa using h
    simp [varint, hn]
  | succ fuel ih =>
    obtain ⟨fuel', rfl⟩ : ∃ k, fuel' = k + 1 := ⟨fuel' - 1, by omega⟩
    by_cases hn : n < 128
    · simp [varint, hn]
    · have hd : n / 128 < 128 ^ (fuel + 1) := by
        rw [Nat.div_lt_iff_lt_mul (by decide), ← Nat.pow_succ]
        exact h
      have hstep : ∀ j, varint (j + 1) n = (n % 128 + 128).toUInt8 :: varint j (n / 128) :=
        fun j => by rw [varint, if_neg hn]
      rw [hstep, hstep, ih hd (by omega)]

/-! ## 2. Integers -/

instance : Postcard UInt8 where
  encode b := [b]
  decode
    | b :: rest => some (b, rest)
    | [] => none
  decode_encode _ _ := rfl

/-- A `u64`: ten bytes at most, the last one holding the top bit. -/
instance : Postcard (BitVec 64) where
  encode n := varint 10 n.toNat
  decode bytes := (readVarint 10 1 bytes).map fun r => (BitVec.ofNat 64 r.1, r.2)
  decode_encode n rest := by
    rw [readVarint_varint 9 1 (by decide) n.toNat (by have := n.isLt; omega)]
    simp

/-- A `u128`: nineteen bytes at most, the last one holding the top two bits. -/
instance : Postcard (BitVec 128) where
  encode n := varint 19 n.toNat
  decode bytes := (readVarint 19 3 bytes).map fun r => (BitVec.ofNat 128 r.1, r.2)
  decode_encode n rest := by
    rw [readVarint_varint 18 3 (by decide) n.toNat (by have := n.isLt; omega)]
    simp

/-- The number of a variant. -/
def encodeVariant (n : Nat) : List UInt8 := varint 5 n

def decodeVariant (bytes : List UInt8) : Option (Nat × List UInt8) := readVarint 5 15 bytes

/-- An enumeration without payloads, through the numbers of its variants. -/
abbrev ofVariants {α : Type} (index : α → Nat) (variant : Nat → Option α)
    (hlt : ∀ a, index a < 128) (h : ∀ a, variant (index a) = some a) : Postcard α where
  encode a := encodeVariant (index a)
  decode bytes := (decodeVariant bytes).bind fun r => (variant r.1).map fun a => (a, r.2)
  decode_encode a rest := by
    have hr := readVarint_varint 4 15 (by decide) (index a)
      (Nat.lt_of_lt_of_le (hlt a) (by decide)) rest
    simp [encodeVariant, decodeVariant, hr, h]

/-- A length (`usize`). -/
def encodeLength (n : Nat) : List UInt8 := varint (n + 10) n

def decodeLength (bytes : List UInt8) : Option (Nat × List UInt8) :=
  match readVarint 10 1 bytes with
  | some r => some r
  | none =>
    (readVarint (bytes.length + 1) 127 bytes).bind fun r => if 2 ^ 64 ≤ r.1 then some r else none

theorem encodeLength_ne_nil (n : Nat) : encodeLength n ≠ [] := by
  unfold encodeLength varint
  split <;> simp

theorem lt_pow_varint (n : Nat) : n < 128 ^ (n + 10) :=
  calc n < 2 ^ n := Nat.lt_two_pow_self
    _ ≤ 128 ^ n := Nat.pow_le_pow_left (by decide) n
    _ ≤ 128 ^ (n + 10) := Nat.pow_le_pow_right (by decide) (by omega)

/-- The length of a varint: a number that needs `k + 1` bytes has them. -/
theorem le_length_varint {k fuel n : Nat} (hk : k ≤ fuel) (h : 128 ^ k ≤ n) :
    k + 1 ≤ (varint (fuel + 1) n).length := by
  induction k generalizing fuel n with
  | zero =>
    rw [varint]
    split <;> simp
  | succ k ih =>
    obtain ⟨fuel, rfl⟩ : ∃ j, fuel = j + 1 := ⟨fuel - 1, by omega⟩
    have hp : 0 < 128 ^ k := Nat.pow_pos (by decide)
    have hn : ¬ n < 128 := by rw [Nat.pow_succ] at h; omega
    have hd : 128 ^ k ≤ n / 128 :=
      (Nat.le_div_iff_mul_le (by decide)).mpr (by rw [← Nat.pow_succ]; exact h)
    rw [varint, if_neg hn, List.length_cons]
    exact Nat.succ_le_succ (ih (by omega) hd)

theorem readVarint_fuel {fuel n : Nat} (h : n < 128 ^ (fuel + 1)) {m : Nat}
    (hf : (varint (fuel + 1) n).length ≤ m) (rest : List UInt8) :
    readVarint (m + 1) 127 (varint (fuel + 1) n ++ rest) = some (n, rest) := by
  have hn : n < 128 ^ (m + 1) := by
    refine Nat.lt_of_not_le fun hge => ?_
    by_cases hff : m + 1 ≤ fuel
    · have := le_length_varint hff hge
      omega
    · exact absurd (Nat.lt_of_lt_of_le h (Nat.pow_le_pow_right (by decide) (by omega)))
        (Nat.not_lt.mpr hge)
  have hv : varint (fuel + 1) n = varint (m + 1) n := by
    rcases Nat.le_total fuel m with hle | hle
    · exact (varint_fuel h hle).symm
    · exact varint_fuel hn hle
  rw [hv]
  exact readVarint_varint m 127 (by decide) n (by rw [← Nat.pow_succ]; exact hn) rest

/-- More fuel and a wider last byte read what less of them read. -/
theorem readVarint_mono {fuel m lastMax : Nat} (hf : fuel ≤ m) {bytes : List UInt8}
    {r : Nat × List UInt8} (h : readVarint fuel lastMax bytes = some r) :
    readVarint m 127 bytes = some r := by
  induction fuel generalizing m bytes r with
  | zero => cases h
  | succ fuel ih =>
    obtain ⟨m, rfl⟩ : ∃ j, m = j + 1 := ⟨m - 1, by omega⟩
    cases bytes with
    | nil => cases h
    | cons b bs =>
      rw [readVarint] at h ⊢
      split at h
      · rename_i hb
        split at h
        · cases h
        · rw [if_pos hb, if_neg (by omega)]
          exact h
      · rename_i hb
        obtain ⟨r', hr', he⟩ := Option.map_eq_some_iff.mp h
        rw [if_neg hb, ih (by omega) hr']
        exact congrArg some he

@[simp] theorem decodeLength_encodeLength (n : Nat) (rest : List UInt8) :
    decodeLength (encodeLength n ++ rest) = some (n, rest) := by
  unfold decodeLength encodeLength
  by_cases h : n < 2 ^ 64
  · have hv : varint (n + 9 + 1) n = varint (9 + 1) n :=
      varint_fuel (Nat.lt_of_lt_of_le h (by decide)) (by omega)
    rw [show n + 10 = n + 9 + 1 from rfl, hv, readVarint_varint 9 1 (by decide) n (by omega)]
  · have hwide := readVarint_fuel (lt_pow_varint n)
      (m := (varint (n + 10) n ++ rest).length) (by simp) rest
    split
    · -- ten bytes would have read a number below `2 ^ 64`
      rename_i r hr
      have hlt := readVarint_lt (by decide) hr
      have hmono := readVarint_mono
        (m := 10 + ((varint (n + 10) n ++ rest).length + 1)) (by omega) hr
      have hmono' := readVarint_mono
        (m := 10 + ((varint (n + 10) n ++ rest).length + 1)) (by omega) hwide
      rw [hmono] at hmono'
      cases hmono'
      omega
    · rw [hwide]
      simp
      omega

/-! ## 3. Composite types -/

instance : Postcard Bool where
  encode b := [if b then 1 else 0]
  decode
    | 0 :: rest => some (false, rest)
    | 1 :: rest => some (true, rest)
    | _ => none
  decode_encode b _ := by cases b <;> rfl

section Composite

variable {α β : Type} [Postcard α] [Postcard β]

instance : Postcard (α × β) where
  encode p := encode p.1 ++ encode p.2
  decode bytes :=
    (decode bytes).bind fun a => (decode a.2).map fun b => ((a.1, b.1), b.2)
  decode_encode p rest := by simp [List.append_assoc]

instance : Postcard (Option α) where
  encode
    | none => [0]
    | some a => 1 :: encode a
  decode
    | 0 :: rest => some (none, rest)
    | 1 :: rest => (decode rest).map fun r => (some r.1, r.2)
    | _ => none
  decode_encode o rest := by
    cases o with
    | none => rfl
    | some a => simp

theorem encode_pair (a : α) (b : β) : encode (a, b) = encode a ++ encode b := rfl

theorem encode_pair_ne_nil (hne : ∀ a : α, encode a ≠ []) (p : α × β) : encode p ≠ [] :=
  fun h => hne p.1 (List.append_eq_nil_iff.mp h).1

/-- Nothing of the longer type is read off the bytes of a value of the shorter one: they run out. -/
def RunsOut (α β : Type) [Postcard α] [Postcard β] : Prop :=
  ∀ a : α, decode (α := β) (encode a) = none

/-- A field more than the shorter type has, which takes at least a byte. -/
theorem runsOut_end (h : decode (α := β) [] = none) : RunsOut α (α × β) := by
  intro a
  have ha := decode_encode a []
  rw [List.append_nil] at ha
  show (decode (encode a)).bind _ = none
  rw [ha, Option.bind_some]
  show (decode (α := β) []).map _ = none
  rw [h]
  rfl

/-- A field both types have. -/
theorem RunsOut.field {γ : Type} [Postcard γ] (h : RunsOut α β) : RunsOut (γ × α) (γ × β) := by
  rintro ⟨c, a⟩
  show (decode (encode c ++ encode a)).bind _ = none
  rw [decode_encode, Option.bind_some, h a]
  rfl

/-- Types that are read through lists of fields. -/
theorem RunsOut.through {γ δ : Type} (h : RunsOut α β) {fields : γ → α} {build : α → γ}
    {fields' : δ → β} {build' : β → δ} (hγ : ∀ c, build (fields c) = c)
    (hδ : ∀ d, build' (fields' d) = d) :
    @RunsOut γ δ (.through fields build hγ) (.through fields' build' hδ) := by
  intro c
  show (decode (encode (fields c))).map _ = none
  rw [h (fields c)]
  rfl

theorem RunsOut.fromBytes (h : RunsOut α β) (a : α) :
    Postcard.fromBytes (α := β) (encode a) = none := by
  rw [Postcard.fromBytes, h a]
  rfl

/-- The items of a sequence, one after the other. -/
def encodeItems (l : List α) : List UInt8 := l.flatMap encode

def decodeItems : Nat → List UInt8 → Option (List α × List UInt8)
  | 0, bytes => some ([], bytes)
  | n + 1, bytes =>
    (decode bytes).bind fun a => (decodeItems n a.2).map fun r => (a.1 :: r.1, r.2)

theorem decodeItems_encodeItems (l : List α) (rest : List UInt8) :
    decodeItems l.length (encodeItems l ++ rest) = some (l, rest) := by
  induction l with
  | nil => rfl
  | cons a l ih =>
    simp only [encodeItems, List.flatMap_cons, List.append_assoc, List.length_cons, decodeItems,
      decode_encode, Option.bind_some]
    rw [show List.flatMap encode l = encodeItems l from rfl, ih]
    rfl

instance : Postcard (List α) where
  encode l := encodeLength l.length ++ encodeItems l
  decode bytes := (decodeLength bytes).bind fun r => decodeItems r.1 r.2
  decode_encode l rest := by
    rw [List.append_assoc, decodeLength_encodeLength]
    exact decodeItems_encodeItems l rest

theorem encode_list_ne_nil (l : List α) : encode l ≠ [] :=
  fun h => encodeLength_ne_nil l.length (List.append_eq_nil_iff.mp h).1

end Composite

/-- A fixed array of bytes, raw. -/
instance {n : Nat} : Postcard (Vector UInt8 n) where
  encode v := v.toList
  decode bytes :=
    if h : (bytes.take n).length = n then
      some (⟨(bytes.take n).toArray, by simpa using h⟩, bytes.drop n)
    else none
  decode_encode v rest := by
    have hl : v.toList.length = n := v.length_toList
    have ht : (v.toList ++ rest).take n = v.toList := by
      rw [List.take_append_of_le_length (by omega), List.take_of_length_le (by omega)]
    have hd : (v.toList ++ rest).drop n = rest := by
      rw [List.drop_append_of_le_length (by omega), List.drop_of_length_le (by omega)]
      rfl
    rw [dif_pos (by rw [ht, hl]), hd]
    congr 2
    apply Vector.toList_inj.mp
    simp [ht]

/-- The bytes of a string. -/
def utf8 (s : String) : List UInt8 := s.toByteArray.data.toList

/-- `String::from_utf8`. -/
def fromUtf8 (bytes : List UInt8) : Option String := String.fromUTF8? ⟨bytes.toArray⟩

@[simp] theorem fromUtf8_utf8 (s : String) : fromUtf8 (utf8 s) = some s := by
  have hb : (⟨(utf8 s).toArray⟩ : ByteArray) = s.toByteArray := ByteArray.ext (by simp [utf8])
  rw [fromUtf8, hb, String.fromUTF8?, dif_pos s.isValidUTF8]
  rfl

theorem utf8_inj {s t : String} (h : utf8 s = utf8 t) : s = t := by
  apply String.toByteArray_inj.mp
  exact ByteArray.ext (Array.toList_inj.mp h)

theorem utf8_ofList (l : List Char) : utf8 (String.ofList l) = l.flatMap String.utf8EncodeChar := by
  unfold utf8
  rw [String.toByteArray_ofList, List.utf8Encode, List.toList_data_toByteArray]

/-- Characters of one byte each. -/
theorem length_utf8_ofList {l : List Char} (h : ∀ c ∈ l, c.utf8Size = 1) :
    (utf8 (String.ofList l)).length = l.length := by
  rw [utf8_ofList, List.length_flatMap]
  induction l with
  | nil => rfl
  | cons c l ih =>
    rw [List.map_cons, List.sum_cons, ih fun d hd => h d (List.mem_cons_of_mem c hd),
      String.length_utf8EncodeChar, h c List.mem_cons_self, List.length_cons, Nat.add_comm]

instance : Postcard String where
  encode s := encodeLength (utf8 s).length ++ utf8 s
  decode bytes :=
    (decodeLength bytes).bind fun r =>
      if (r.2.take r.1).length = r.1 then
        (fromUtf8 (r.2.take r.1)).map fun s => (s, r.2.drop r.1)
      else none
  decode_encode s rest := by
    rw [List.append_assoc, decodeLength_encodeLength, Option.bind_some]
    have ht : (utf8 s ++ rest).take (utf8 s).length = utf8 s := by simp
    have hd : (utf8 s ++ rest).drop (utf8 s).length = rest := by simp
    simp only [ht, hd, if_true, fromUtf8_utf8]
    rfl

section Ordered

variable {κ ν : Type} [Ord κ] [TransOrd κ] [LawfulEqOrd κ] [DecidableEq κ]
  [Postcard κ] [Postcard ν]

instance : Postcard (BTreeMap κ ν) :=
  through (α := List (κ × ν)) (fun m => m.toList) (fun l => ExtTreeMap.ofList l compare)
    BTreeMap.ofList_toList

instance : Postcard (BTreeSet κ) :=
  through (α := List κ) (fun s => s.toList) (fun l => ExtTreeSet.ofList l compare) fun s => by
    refine ExtTreeSet.ext_mem fun k => ?_
    rw [ExtTreeSet.mem_ofList, List.contains_iff_mem, ExtTreeSet.mem_toList]

theorem encode_map_ne_nil (m : BTreeMap κ ν) : encode m ≠ [] :=
  encode_list_ne_nil m.toList

end Ordered

end Postcard

end WorldstreetChain
