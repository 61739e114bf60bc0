import WorldstreetChain.Library.Postcard

/-!
# Strings of UTF-16 code units

A string that is a row of 16-bit units, any of them. A character beyond the first plane is two
units, a high and a low surrogate; a reader takes a surrogate that has no partner for `U+FFFD`.

* `Utf16.encode`, `Utf16.decode` -- the units of a text, and the text that is read from units.
* `Utf16.decode_encode` -- **a text is read back** from its units.
* `Utf16.encode_decode` -- units that are read without a replacement are those of the text.
* `Utf16.ascii_text` -- a text whose UTF-8 is below 128 is its UTF-8.
-/

namespace WorldstreetChain

namespace Utf16

/-! ## 1. Units -/

def units (c : Char) : List UInt16 :=
  if c.toNat < 0x10000 then [UInt16.ofNat c.toNat]
  else [UInt16.ofNat (0xD800 + (c.toNat - 0x10000) / 0x400),
    UInt16.ofNat (0xDC00 + (c.toNat - 0x10000) % 0x400)]

def encode (l : List Char) : List UInt16 := l.flatMap units

def isHigh (u : UInt16) : Bool := 0xD800 ≤ u.toNat && u.toNat < 0xDC00

def isLow (u : UInt16) : Bool := 0xDC00 ≤ u.toNat && u.toNat < 0xE000

/-- What is read in place of a surrogate without a partner. -/
def replacement : Char := Char.ofNat 0xFFFD

/-- A unit on its own. -/
def single (u : UInt16) : Char :=
  if isHigh u || isLow u then replacement else Char.ofNat u.toNat

/-- A high and a low surrogate. -/
def pair (u v : UInt16) : Char :=
  Char.ofNat (0x10000 + (u.toNat - 0xD800) * 0x400 + (v.toNat - 0xDC00))

def decode : List UInt16 → List Char
  | [] => []
  | [u] => [single u]
  | u :: v :: rest =>
    if isHigh u && isLow v then pair u v :: decode rest else single u :: decode (v :: rest)

/-! ## 2. Reading back -/

theorem toNat_ofNat {n : Nat} (h : n.isValidChar) : (Char.ofNat n).toNat = n := by
  rw [Char.ofNat, dif_pos h]
  rfl

/-- A character is no surrogate. -/
theorem isValidChar_toNat (c : Char) :
    c.toNat < 0xD800 ∨ 0xE000 ≤ c.toNat ∧ c.toNat < 0x110000 := by
  rcases c.valid with h | h
  · exact Or.inl h
  · exact Or.inr ⟨h.1, h.2⟩

/-- A unit that is no high surrogate is read on its own. -/
theorem decode_single {u : UInt16} (h : isHigh u = false) (rest : List UInt16) :
    decode (u :: rest) = single u :: decode rest := by
  cases rest with
  | nil => rfl
  | cons v rest =>
    rw [decode, h, Bool.false_and, if_neg Bool.false_ne_true]

theorem decode_units (c : Char) (rest : List UInt16) :
    decode (units c ++ rest) = c :: decode rest := by
  have hvalid := isValidChar_toNat c
  unfold units
  by_cases h : c.toNat < 0x10000
  · have hu : (UInt16.ofNat c.toNat).toNat = c.toNat := UInt16.toNat_ofNat_of_lt' h
    have hhigh : isHigh (UInt16.ofNat c.toNat) = false := by
      simp only [isHigh, hu, Bool.and_eq_false_iff, decide_eq_false_iff_not]
      omega
    have hlow : isLow (UInt16.ofNat c.toNat) = false := by
      simp only [isLow, hu, Bool.and_eq_false_iff, decide_eq_false_iff_not]
      omega
    rw [if_pos h, List.singleton_append, decode_single hhigh, single, hhigh, hlow, Bool.or_false,
      if_neg Bool.false_ne_true, hu, Char.ofNat_toNat]
  · have hu : (UInt16.ofNat (0xD800 + (c.toNat - 0x10000) / 0x400)).toNat =
        0xD800 + (c.toNat - 0x10000) / 0x400 := UInt16.toNat_ofNat_of_lt' (show _ < 65536 by omega)
    have hv : (UInt16.ofNat (0xDC00 + (c.toNat - 0x10000) % 0x400)).toNat =
        0xDC00 + (c.toNat - 0x10000) % 0x400 := UInt16.toNat_ofNat_of_lt' (show _ < 65536 by omega)
    have hhigh : isHigh (UInt16.ofNat (0xD800 + (c.toNat - 0x10000) / 0x400)) = true := by
      simp only [isHigh, hu, Bool.and_eq_true, decide_eq_true_eq]
      omega
    have hlow : isLow (UInt16.ofNat (0xDC00 + (c.toNat - 0x10000) % 0x400)) = true := by
      simp only [isLow, hv, Bool.and_eq_true, decide_eq_true_eq]
      omega
    have hpair : pair (UInt16.ofNat (0xD800 + (c.toNat - 0x10000) / 0x400))
        (UInt16.ofNat (0xDC00 + (c.toNat - 0x10000) % 0x400)) = c := by
      have hc : 0x10000 + (0xD800 + (c.toNat - 0x10000) / 0x400 - 0xD800) * 0x400 +
          (0xDC00 + (c.toNat - 0x10000) % 0x400 - 0xDC00) = c.toNat := by omega
      rw [pair, hu, hv, hc, Char.ofNat_toNat]
    rw [if_neg h]
    show decode (_ :: _ :: rest) = _
    rw [decode, hhigh, hlow, Bool.and_self, if_pos rfl, hpair]

/-- **A text is read back.** -/
theorem decode_encode (l : List Char) : decode (encode l) = l := by
  induction l with
  | nil => rfl
  | cons c l ih =>
    show decode (units c ++ encode l) = _
    rw [decode_units, ih]

theorem units_single {u : UInt16} (h : single u ≠ replacement) : units (single u) = [u] := by
  have hu := u.toNat_lt
  unfold single at h ⊢
  by_cases hs : (isHigh u || isLow u) = true
  · rw [if_pos hs] at h
    exact absurd rfl h
  · have hsep : ¬ (0xD800 ≤ u.toNat ∧ u.toNat < 0xE000) := by
      simp only [isHigh, isLow, Bool.or_eq_true, Bool.and_eq_true, decide_eq_true_eq] at hs
      omega
    have hn : (Char.ofNat u.toNat).toNat = u.toNat := by
      refine toNat_ofNat ?_
      unfold Nat.isValidChar
      omega
    rw [if_neg hs, units, hn, if_pos hu, UInt16.ofNat_toNat]

theorem units_pair {u v : UInt16} (hu : isHigh u = true) (hv : isLow v = true) :
    units (pair u v) = [u, v] := by
  simp only [isHigh, isLow, Bool.and_eq_true, decide_eq_true_eq] at hu hv
  have hn : (pair u v).toNat =
      0x10000 + (u.toNat - 0xD800) * 0x400 + (v.toNat - 0xDC00) := by
    refine toNat_ofNat ?_
    unfold Nat.isValidChar
    omega
  have hhigh : 0xD800 + ((pair u v).toNat - 0x10000) / 0x400 = u.toNat := by omega
  have hlow : 0xDC00 + ((pair u v).toNat - 0x10000) % 0x400 = v.toNat := by omega
  rw [units, if_neg (by omega), hhigh, hlow, UInt16.ofNat_toNat, UInt16.ofNat_toNat]

/-- **Units read without a replacement** are those of the text. -/
theorem encode_decode {s : List UInt16} (h : replacement ∉ decode s) : encode (decode s) = s := by
  induction s using decode.induct with
  | case1 => rfl
  | case2 u =>
    rw [decode, List.mem_singleton] at h
    show units (single u) ++ [] = _
    rw [units_single (Ne.symm h), List.append_nil]
  | case3 u v rest hs ih =>
    rw [decode, if_pos hs] at h ⊢
    obtain ⟨hu, hv⟩ := Bool.and_eq_true_iff.mp hs
    show units (pair u v) ++ encode (decode rest) = _
    rw [units_pair hu hv, ih fun hmem => h (List.mem_cons_of_mem _ hmem)]
    rfl
  | case4 u v rest hs ih =>
    rw [decode, if_neg hs] at h ⊢
    show units (single u) ++ encode (decode (v :: rest)) = _
    rw [units_single fun heq => h (heq ▸ List.mem_cons_self),
      ih fun hmem => h (List.mem_cons_of_mem _ hmem)]
    rfl

/-! ## 3. Texts below 128 -/

/-- A character whose UTF-8 is below 128 is its one byte. -/
theorem ascii_char {c : Char} (h : ∀ b ∈ String.utf8EncodeChar c, b < 128) :
    c.toNat < 128 ∧ (String.utf8EncodeChar c).map (fun b => Char.ofNat b.toNat) = [c] := by
  have hhead : ∀ n, UInt8.ofNat n ∈ String.utf8EncodeChar c → 128 ≤ n → n < 256 → False := by
    intro n hmem hn hlt
    have hb := h _ hmem
    rw [UInt8.lt_iff_toNat_lt, UInt8.toNat_ofNat_of_lt' (show _ < 256 from hlt)] at hb
    exact absurd hb (Nat.not_lt.mpr hn)
  have hmax : c.toNat < 0x110000 := by
    rcases isValidChar_toNat c with hv | hv
    · omega
    · exact hv.2
  by_cases h1 : c.val.toNat ≤ 0x7f
  · have hone : String.utf8EncodeChar c = [UInt8.ofNat c.toNat] := by
      unfold String.utf8EncodeChar
      rw [if_pos h1]
      rfl
    have hc : c.toNat < 128 := Nat.lt_succ_of_le h1
    refine ⟨hc, ?_⟩
    rw [hone, List.map_singleton, UInt8.toNat_ofNat_of_lt' (show _ < 256 by omega),
      Char.ofNat_toNat]
  · exfalso
    by_cases h2 : c.val.toNat ≤ 0x7ff
    · refine hhead (c.val.toNat / 64 % 0x20 + 0xc0) ?_ (by omega) (by omega)
      unfold String.utf8EncodeChar
      rw [if_neg h1, if_pos h2]
      exact List.mem_cons_self
    · by_cases h3 : c.val.toNat ≤ 0xffff
      · refine hhead (c.val.toNat / 4096 % 0x10 + 0xe0) ?_ (by omega) (by omega)
        unfold String.utf8EncodeChar
        rw [if_neg h1, if_neg h2, if_pos h3]
        exact List.mem_cons_self
      · refine hhead (c.val.toNat / 262144 % 0x08 + 0xf0) ?_ (by omega) (by omega)
        unfold String.utf8EncodeChar
        rw [if_neg h1, if_neg h2, if_neg h3]
        exact List.mem_cons_self

/-- **A text whose UTF-8 is below 128** is its UTF-8. -/
theorem ascii_text {l : List Char} (h : ∀ b ∈ l.flatMap String.utf8EncodeChar, b < 128) :
    (∀ c ∈ l, c.toNat < 128) ∧
      (l.flatMap String.utf8EncodeChar).map (fun b => Char.ofNat b.toNat) = l := by
  induction l with
  | nil => exact ⟨fun c hc => (by cases hc), rfl⟩
  | cons c l ih =>
    rw [List.flatMap_cons] at h ⊢
    obtain ⟨hc, hchar⟩ := ascii_char fun b hb => h b (List.mem_append_left _ hb)
    obtain ⟨hl, htext⟩ := ih fun b hb => h b (List.mem_append_right _ hb)
    refine ⟨fun d hd => ?_, ?_⟩
    · rcases List.mem_cons.mp hd with rfl | hd
      · exact hc
      · exact hl d hd
    · rw [List.map_append, hchar, htext]
      rfl

end Utf16

end WorldstreetChain
