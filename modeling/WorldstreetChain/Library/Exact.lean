import WorldstreetChain.Library.Postcard

/-!
# What a reader of postcard accepts

A reader takes more than the writer writes. It leaves what stands behind the value, and it takes a
number with zero groups at its end. Both are the only slack of the format: `Exact α` has the shape
of the bytes from which a value is read.

* `shortest` -- no number of the value at the front has a group it does not need.
* `decode_exact` -- **what is read is what is written** exactly where `shortest` holds.
* `decode_append` -- what stands behind a value has no part in reading it.
* `decode_of_part` -- **no value is read off a part of itself**.
-/

namespace WorldstreetChain

open Std

namespace Postcard

class Exact (α : Type) [Postcard α] where
  shortest : List UInt8 → Bool
  decode_exact : ∀ {bytes : List UInt8} {a : α} {rest : List UInt8},
    decode bytes = some (a, rest) → (shortest bytes = true ↔ bytes = encode a ++ rest)
  decode_append : ∀ {bytes : List UInt8} {a : α} {rest : List UInt8} (more : List UInt8),
    decode bytes = some (a, rest) → decode (bytes ++ more) = some (a, rest ++ more)

namespace Exact

section Laws

variable {α β : Type} [Postcard α] [Exact α] [Postcard β] [Exact β]

/-- **On a part of a value's bytes the value is read if all of it is there**, and nothing else. -/
theorem decode_of_part {a : α} {part rest : List UInt8} (h : part <+: encode a ++ rest)
    {r : α × List UInt8} : decode part = some r ↔ r.1 = a ∧ part = encode a ++ r.2 := by
  obtain ⟨b, left⟩ := r
  constructor
  · intro hread
    obtain ⟨more, hmore⟩ := h
    have hall := decode_append more hread
    rw [hmore, decode_encode] at hall
    cases hall
    rw [← List.append_assoc] at hmore
    exact ⟨rfl, List.append_cancel_right hmore⟩
  · intro ⟨hb, hpart⟩
    rw [hpart, decode_encode]
    exact congrArg some (Prod.ext hb.symm rfl)

theorem decode_eq_none_of_part {a : α} {part rest : List UInt8} (h : part <+: encode a ++ rest)
    (hshort : ¬ encode a <+: part) : decode (α := α) part = none := by
  refine Option.eq_none_iff_forall_ne_some.mpr fun r hr => hshort ?_
  exact ⟨r.2, ((decode_of_part h).mp hr).2.symm⟩

/-- A type read through a bijection onto one the format knows. -/
abbrev through {fields : β → α} {build : α → β} {h : ∀ b, build (fields b) = b}
    (hfields : ∀ a, fields (build a) = a) : @Exact β (.through fields build h) :=
  letI := Postcard.through fields build h
  { shortest := shortest α
    decode_exact := fun {bytes b rest} hread => by
      obtain ⟨⟨a, r⟩, hr, he⟩ := Option.map_eq_some_iff.mp hread
      cases he
      show shortest α bytes = true ↔ bytes = encode (fields (build a)) ++ r
      rw [hfields]
      exact decode_exact hr
    decode_append := fun {bytes b rest} more hread => by
      obtain ⟨⟨a, r⟩, hr, he⟩ := Option.map_eq_some_iff.mp hread
      cases he
      show (decode (α := α) (bytes ++ more)).map _ = _
      rw [decode_append more hr]
      rfl }

end Laws

/-! ## 1. Numbers -/

/-- The number at the front does not end in a zero group, but for the number zero. -/
def shortestVarint : List UInt8 → Bool
  | [] => true
  | b :: rest => b.toNat < 128 || (rest.head? != some 0 && shortestVarint rest)

/-- Fuel two numbers do not need changes nothing. -/
theorem varint_eq {fuel m n : Nat} (h : n < 128 ^ (fuel + 1)) (h' : n < 128 ^ (m + 1)) :
    varint (fuel + 1) n = varint (m + 1) n := by
  rcases Nat.le_total fuel m with hle | hle
  · exact (varint_fuel h hle).symm
  · exact varint_fuel h' hle

theorem varint_of_lt (fuel : Nat) {n : Nat} (h : n < 128) : varint (fuel + 1) n = [n.toUInt8] := by
  rw [varint, if_pos h]

theorem varint_of_not_lt (fuel : Nat) {n : Nat} (h : ¬ n < 128) :
    varint (fuel + 1) n = (n % 128 + 128).toUInt8 :: varint fuel (n / 128) := by
  rw [varint, if_neg h]

/-- **A number is written as it was read** if it has no group it does not need. -/
theorem readVarint_exact {fuel lastMax : Nat} {bytes : List UInt8} {n : Nat} {rest : List UInt8}
    (h : readVarint fuel lastMax bytes = some (n, rest)) :
    shortestVarint bytes = true ↔ bytes = varint fuel n ++ rest := by
  induction fuel generalizing bytes n with
  | zero => cases h
  | succ fuel ih =>
    cases bytes with
    | nil => cases h
    | cons b bs =>
      rw [readVarint] at h
      by_cases hb : b.toNat < 128
      · rw [if_pos hb] at h
        split at h
        · cases h
        · cases h
          simp [shortestVarint, varint, hb]
      · rw [if_neg hb] at h
        obtain ⟨⟨m, r⟩, hm, he⟩ := Option.map_eq_some_iff.mp h
        cases he
        have hlt := b.toNat_lt
        have hrec := ih hm
        obtain ⟨fuel, rfl⟩ : ∃ j, fuel = j + 1 := by
          cases fuel with
          | zero => cases hm
          | succ j => exact ⟨j, rfl⟩
        rw [shortestVarint, decide_eq_false hb, Bool.false_or, Bool.and_eq_true, hrec, bne_iff_ne]
        by_cases hz : m = 0
        · -- the groups behind `b` are all zero: the number is `b`'s own group
          subst hz
          have hn : b.toNat - 128 + 128 * 0 < 128 := by omega
          show bs.head? ≠ some 0 ∧ bs = varint (fuel + 1) 0 ++ r ↔
            b :: bs = varint (fuel + 1 + 1) (b.toNat - 128 + 128 * 0) ++ r
          rw [varint_of_lt fuel (by decide), varint_of_lt (fuel + 1) hn]
          constructor
          · rintro ⟨hhead, hbs⟩
            exact absurd (by rw [hbs]; rfl) hhead
          · intro hbs
            have hfirst := congrArg UInt8.toNat (List.cons.inj hbs).1
            rw [toNat_toUInt8 (by omega)] at hfirst
            omega
        · have hn : ¬ b.toNat - 128 + 128 * m < 128 := by omega
          have hfirst : (((b.toNat - 128 + 128 * m) % 128) + 128).toUInt8 = b := by
            apply UInt8.toNat_inj.mp
            rw [toNat_toUInt8 (by omega)]
            omega
          have hdiv : (b.toNat - 128 + 128 * m) / 128 = m := by omega
          show bs.head? ≠ some 0 ∧ bs = varint (fuel + 1) m ++ r ↔
            b :: bs = varint (fuel + 1 + 1) (b.toNat - 128 + 128 * m) ++ r
          rw [varint_of_not_lt (fuel + 1) hn, hfirst, hdiv, List.cons_append, List.cons.injEq]
          constructor
          · rintro ⟨_, hbs⟩
            exact ⟨rfl, hbs⟩
          · rintro ⟨_, hbs⟩
            refine ⟨fun hhead => hz ?_, hbs⟩
            cases bs with
            | nil => cases hm
            | cons c cs =>
              cases hhead
              rw [readVarint, if_pos (by decide)] at hm
              split at hm
              · cases hm
              · cases hm
                rfl

theorem readVarint_append {fuel lastMax : Nat} {bytes : List UInt8} {n : Nat}
    {rest : List UInt8} (more : List UInt8)
    (h : readVarint fuel lastMax bytes = some (n, rest)) :
    readVarint fuel lastMax (bytes ++ more) = some (n, rest ++ more) := by
  induction fuel generalizing bytes n with
  | zero => cases h
  | succ fuel ih =>
    cases bytes with
    | nil => cases h
    | cons b bs =>
      rw [readVarint] at h
      rw [List.cons_append, readVarint]
      split at h
      · rename_i hb
        rw [if_pos hb]
        split at h
        · cases h
        · rename_i hlast
          cases h
          rw [if_neg hlast]
      · rename_i hb
        obtain ⟨⟨m, r⟩, hm, he⟩ := Option.map_eq_some_iff.mp h
        cases he
        rw [if_neg hb, ih hm]
        rfl

instance : Exact UInt8 where
  shortest _ := true
  decode_exact {bytes _ _} h := by
    cases bytes with
    | nil => cases h
    | cons b bs =>
      cases h
      exact ⟨fun _ => rfl, fun _ => rfl⟩
  decode_append {bytes _ _} more h := by
    cases bytes with
    | nil => cases h
    | cons b bs =>
      cases h
      rfl

instance : Exact (BitVec 64) where
  shortest := shortestVarint
  decode_exact {bytes _ _} h := by
    obtain ⟨⟨n, r⟩, hn, he⟩ := Option.map_eq_some_iff.mp h
    cases he
    have hlt := readVarint_lt (by decide) hn
    show _ ↔ bytes = varint 10 (BitVec.ofNat 64 n).toNat ++ r
    rw [BitVec.toNat_ofNat, Nat.mod_eq_of_lt (by omega)]
    exact readVarint_exact hn
  decode_append {bytes _ _} more h := by
    obtain ⟨⟨n, r⟩, hn, he⟩ := Option.map_eq_some_iff.mp h
    cases he
    show (readVarint 10 1 (bytes ++ more)).map _ = _
    rw [readVarint_append more hn]
    rfl

instance : Exact (BitVec 128) where
  shortest := shortestVarint
  decode_exact {bytes _ _} h := by
    obtain ⟨⟨n, r⟩, hn, he⟩ := Option.map_eq_some_iff.mp h
    cases he
    have hlt := readVarint_lt (by decide) hn
    show _ ↔ bytes = varint 19 (BitVec.ofNat 128 n).toNat ++ r
    rw [BitVec.toNat_ofNat, Nat.mod_eq_of_lt (by omega)]
    exact readVarint_exact hn
  decode_append {bytes _ _} more h := by
    obtain ⟨⟨n, r⟩, hn, he⟩ := Option.map_eq_some_iff.mp h
    cases he
    show (readVarint 19 3 (bytes ++ more)).map _ = _
    rw [readVarint_append more hn]
    rfl

/-- An enumeration whose variants have one number each. -/
abbrev ofVariants {α : Type} {index : α → Nat} {variant : Nat → Option α}
    {hlt : ∀ a, index a < 128} {h : ∀ a, variant (index a) = some a}
    (hindex : ∀ {n a}, variant n = some a → index a = n) :
    @Exact α (.ofVariants index variant hlt h) :=
  letI := Postcard.ofVariants index variant hlt h
  { shortest := shortestVarint
    decode_exact := fun {bytes a rest} hread => by
      obtain ⟨⟨n, r⟩, hn, hv⟩ := Option.bind_eq_some_iff.mp hread
      obtain ⟨b, hb, he⟩ := Option.map_eq_some_iff.mp hv
      cases he
      show _ ↔ bytes = varint 5 (index a) ++ r
      rw [hindex hb]
      exact readVarint_exact hn
    decode_append := fun {bytes a rest} more hread => by
      obtain ⟨⟨n, r⟩, hn, hv⟩ := Option.bind_eq_some_iff.mp hread
      obtain ⟨b, hb, he⟩ := Option.map_eq_some_iff.mp hv
      cases he
      show (readVarint 5 15 (bytes ++ more)).bind _ = _
      rw [readVarint_append more hn, Option.bind_some]
      show (variant n).map _ = _
      rw [hb]
      rfl }

/-- A length is read in ten bytes or beyond them. -/
theorem decodeLength_eq_some {bytes : List UInt8} {n : Nat} {rest : List UInt8}
    (h : decodeLength bytes = some (n, rest)) :
    readVarint 10 1 bytes = some (n, rest) ∨
      2 ^ 64 ≤ n ∧ readVarint (bytes.length + 1) 127 bytes = some (n, rest) := by
  unfold decodeLength at h
  split at h
  · rename_i r hr
    cases h
    exact Or.inl hr
  · obtain ⟨r, hr, he⟩ := Option.bind_eq_some_iff.mp h
    split at he
    · rename_i hge
      cases he
      exact Or.inr ⟨hge, hr⟩
    · cases he

theorem decodeLength_exact {bytes : List UInt8} {n : Nat} {rest : List UInt8}
    (h : decodeLength bytes = some (n, rest)) :
    shortestVarint bytes = true ↔ bytes = encodeLength n ++ rest := by
  have hwide : n < 128 ^ (n + 9 + 1) := lt_pow_varint n
  unfold encodeLength
  rcases decodeLength_eq_some h with hr | ⟨_, hr⟩
  · have hlt := readVarint_lt (by decide) hr
    rw [readVarint_exact hr, varint_eq (m := n + 9) (by omega) hwide]
  · have hlt := readVarint_lt (by decide) hr
    rw [readVarint_exact hr, varint_eq (m := n + 9) (by rw [Nat.pow_succ]; exact hlt) hwide]

theorem decodeLength_append {bytes : List UInt8} {n : Nat} {rest : List UInt8}
    (more : List UInt8) (h : decodeLength bytes = some (n, rest)) :
    decodeLength (bytes ++ more) = some (n, rest ++ more) := by
  unfold decodeLength
  rcases decodeLength_eq_some h with hr | ⟨hge, hr⟩
  · rw [readVarint_append more hr]
  · have hlong := readVarint_mono (m := (bytes ++ more).length + 1)
      (by rw [List.length_append]; omega) (readVarint_append more hr)
    split
    · -- ten bytes would have read a number below `2 ^ 64`
      rename_i r hten
      have hlt := readVarint_lt (by decide) hten
      have hten' := readVarint_mono (m := 10 + ((bytes ++ more).length + 1)) (by omega) hten
      have hlong' := readVarint_mono (m := 10 + ((bytes ++ more).length + 1)) (by omega) hlong
      rw [hten'] at hlong'
      cases hlong'
      omega
    · rw [hlong, Option.bind_some, if_pos hge]

/-! ## 2. Composite types -/

instance : Exact Bool where
  shortest _ := true
  decode_exact {bytes b rest} h := by
    refine ⟨fun _ => ?_, fun _ => rfl⟩
    simp only [decode] at h
    split at h
    · cases h
      rfl
    · cases h
      rfl
    · cases h
  decode_append {bytes b rest} more h := by
    simp only [decode] at h
    split at h
    · cases h
      rfl
    · cases h
      rfl
    · cases h

/-- What follows a value is in its shortest form. -/
def shortestBehind (α : Type) [Postcard α] (shortestRest : List UInt8 → Bool)
    (bytes : List UInt8) : Bool :=
  (decode (α := α) bytes).all fun r => shortestRest r.2

theorem shortestBehind_eq {α : Type} [Postcard α] {bytes rest : List UInt8} {a : α}
    (h : decode bytes = some (a, rest)) (shortestRest : List UInt8 → Bool) :
    shortestBehind α shortestRest bytes = shortestRest rest := by
  rw [shortestBehind, h]
  rfl

section Composite

variable {α β : Type} [Postcard α] [Exact α] [Postcard β] [Exact β]

/-- **Values one after the other**: the bytes are exact if those of each are. -/
theorem exact_append {bytes mid rest : List UInt8} {a : α} {shortestRest : List UInt8 → Bool}
    {written : List UInt8} (ha : decode bytes = some (a, mid))
    (hb : shortestRest mid = true ↔ mid = written ++ rest) :
    (shortest α bytes && shortestBehind α shortestRest bytes) = true ↔
      bytes = encode a ++ written ++ rest := by
  rw [Bool.and_eq_true, shortestBehind_eq ha, hb, decode_exact ha, List.append_assoc]
  constructor
  · intro ⟨hbytes, hmid⟩
    rw [hbytes, hmid]
  · intro hbytes
    have hread := decode_encode a (written ++ rest)
    rw [← hbytes, ha] at hread
    cases hread
    exact ⟨hbytes, rfl⟩

instance : Exact (α × β) where
  shortest bytes := shortest α bytes && shortestBehind α (shortest β) bytes
  decode_exact {bytes p rest} h := by
    obtain ⟨⟨a, mid⟩, ha, h⟩ := Option.bind_eq_some_iff.mp h
    obtain ⟨⟨b, r⟩, hb, he⟩ := Option.map_eq_some_iff.mp h
    cases he
    exact exact_append ha (decode_exact hb)
  decode_append {bytes p rest} more h := by
    obtain ⟨⟨a, mid⟩, ha, h⟩ := Option.bind_eq_some_iff.mp h
    obtain ⟨⟨b, r⟩, hb, he⟩ := Option.map_eq_some_iff.mp h
    cases he
    show (decode (α := α) (bytes ++ more)).bind _ = _
    rw [decode_append more ha, Option.bind_some]
    show (decode (α := β) (mid ++ more)).map _ = _
    rw [decode_append more hb]
    rfl

instance : Exact (Option α) where
  shortest
    | 1 :: rest => shortest α rest
    | _ => true
  decode_exact {bytes o rest} h := by
    simp only [decode] at h
    split at h
    · cases h
      exact ⟨fun _ => rfl, fun _ => rfl⟩
    · rename_i bs
      obtain ⟨⟨a, r⟩, ha, he⟩ := Option.map_eq_some_iff.mp h
      cases he
      show shortest α bs = true ↔ 1 :: bs = 1 :: (encode a ++ r)
      rw [decode_exact ha, List.cons.injEq, and_iff_right rfl]
    · cases h
  decode_append {bytes o rest} more h := by
    simp only [decode] at h
    split at h
    · cases h
      rfl
    · rename_i bs
      obtain ⟨⟨a, r⟩, ha, he⟩ := Option.map_eq_some_iff.mp h
      cases he
      show (decode (α := α) (bs ++ more)).map _ = _
      rw [decode_append more ha]
      rfl
    · cases h

/-- The items of a sequence are in their shortest form. -/
def shortestItems (α : Type) [Postcard α] [Exact α] : Nat → List UInt8 → Bool
  | 0, _ => true
  | n + 1, bytes => shortest α bytes && shortestBehind α (shortestItems α n) bytes

theorem decodeItems_exact {n : Nat} {bytes : List UInt8} {l : List α} {rest : List UInt8}
    (h : decodeItems n bytes = some (l, rest)) :
    l.length = n ∧ (shortestItems α n bytes = true ↔ bytes = encodeItems l ++ rest) := by
  induction n generalizing bytes l with
  | zero =>
    cases h
    exact ⟨rfl, fun _ => rfl, fun _ => rfl⟩
  | succ n ih =>
    obtain ⟨⟨a, mid⟩, ha, h⟩ := Option.bind_eq_some_iff.mp h
    obtain ⟨⟨l, r⟩, hl, he⟩ := Option.map_eq_some_iff.mp h
    cases he
    obtain ⟨hlength, hitems⟩ := ih hl
    exact ⟨congrArg (· + 1) hlength, exact_append ha hitems⟩

theorem decodeItems_append {n : Nat} {bytes : List UInt8} {l : List α} {rest : List UInt8}
    (more : List UInt8) (h : decodeItems n bytes = some (l, rest)) :
    decodeItems n (bytes ++ more) = some (l, rest ++ more) := by
  induction n generalizing bytes l with
  | zero =>
    cases h
    rfl
  | succ n ih =>
    obtain ⟨⟨a, mid⟩, ha, h⟩ := Option.bind_eq_some_iff.mp h
    obtain ⟨⟨l, r⟩, hl, he⟩ := Option.map_eq_some_iff.mp h
    cases he
    rw [decodeItems, decode_append more ha, Option.bind_some]
    show (decodeItems n (mid ++ more)).map _ = _
    rw [ih hl]
    rfl

end Composite

/-- The bytes behind a length are exact, given that the length's are. -/
theorem exact_length {bytes mid written rest : List UInt8} {n : Nat} {shortestRest : Bool}
    (hn : decodeLength bytes = some (n, mid)) (hb : shortestRest = true ↔ mid = written ++ rest) :
    (shortestVarint bytes && shortestRest) = true ↔ bytes = encodeLength n ++ written ++ rest := by
  rw [Bool.and_eq_true, hb, decodeLength_exact hn, List.append_assoc]
  constructor
  · intro ⟨hbytes, hmid⟩
    rw [hbytes, hmid]
  · intro hbytes
    have hread := decodeLength_encodeLength n (written ++ rest)
    rw [← hbytes, hn] at hread
    cases hread
    exact ⟨hbytes, rfl⟩

instance {α : Type} [Postcard α] [Exact α] : Exact (List α) where
  shortest bytes :=
    shortestVarint bytes && (decodeLength bytes).all fun r => shortestItems α r.1 r.2
  decode_exact {bytes l rest} h := by
    obtain ⟨⟨n, mid⟩, hn, hl⟩ := Option.bind_eq_some_iff.mp h
    obtain ⟨hlength, hitems⟩ := decodeItems_exact hl
    rw [hn]
    show (shortestVarint bytes && shortestItems α n mid) = true ↔
      bytes = encodeLength l.length ++ encodeItems l ++ rest
    rw [hlength]
    exact exact_length hn hitems
  decode_append {bytes l rest} more h := by
    obtain ⟨⟨n, mid⟩, hn, hl⟩ := Option.bind_eq_some_iff.mp h
    show (decodeLength (bytes ++ more)).bind _ = _
    rw [decodeLength_append more hn, Option.bind_some]
    exact decodeItems_append more hl

instance {n : Nat} : Exact (Vector UInt8 n) where
  shortest _ := true
  decode_exact {bytes v rest} h := by
    refine ⟨fun _ => ?_, fun _ => rfl⟩
    simp only [decode] at h
    split at h
    · cases h
      show bytes = bytes.take n ++ bytes.drop n
      rw [List.take_append_drop]
    · cases h
  decode_append {bytes v rest} more h := by
    simp only [decode] at h ⊢
    split at h
    · rename_i hlength
      cases h
      have hle : n ≤ bytes.length := by
        rw [List.length_take] at hlength
        omega
      have htake : (bytes ++ more).take n = bytes.take n := List.take_append_of_le_length hle
      rw [dif_pos (by rw [htake]; exact hlength), List.drop_append_of_le_length hle]
      congr 3
      rw [htake]
    · cases h

/-- Bytes that are read as a string are its bytes. -/
theorem fromUtf8_exact {bytes : List UInt8} {s : String} (h : fromUtf8 bytes = some s) :
    bytes = utf8 s := by
  unfold fromUtf8 String.fromUTF8? at h
  split at h
  · cases h
    rfl
  · cases h

instance : Exact String where
  shortest := shortestVarint
  decode_exact {bytes s rest} h := by
    obtain ⟨⟨n, mid⟩, hn, h⟩ := Option.bind_eq_some_iff.mp h
    split at h
    · rename_i hlength
      obtain ⟨t, ht, he⟩ := Option.map_eq_some_iff.mp h
      cases he
      have hutf8 : mid.take n = utf8 s := fromUtf8_exact ht
      show _ ↔ bytes = encodeLength (utf8 s).length ++ utf8 s ++ mid.drop n
      have hmid : true = true ↔ mid = utf8 s ++ mid.drop n :=
        ⟨fun _ => by rw [← hutf8, List.take_append_drop], fun _ => rfl⟩
      rw [← exact_length (n := (utf8 s).length) (by rw [← hutf8, hlength]; exact hn) hmid,
        Bool.and_true]
    · cases h
  decode_append {bytes s rest} more h := by
    obtain ⟨⟨n, mid⟩, hn, h⟩ := Option.bind_eq_some_iff.mp h
    split at h
    · rename_i hlength
      obtain ⟨t, ht, he⟩ := Option.map_eq_some_iff.mp h
      cases he
      have hle : n ≤ mid.length := by
        have hlength : (mid.take n).length = n := hlength
        rw [List.length_take] at hlength
        omega
      show (decodeLength (bytes ++ more)).bind _ = _
      rw [decodeLength_append more hn, Option.bind_some]
      show (if ((mid ++ more).take n).length = n then
        (fromUtf8 ((mid ++ more).take n)).map fun s => (s, (mid ++ more).drop n) else none) = _
      have ht : fromUtf8 (mid.take n) = some s := ht
      rw [List.take_append_of_le_length hle, if_pos hlength, ht,
        List.drop_append_of_le_length hle]
      rfl
    · cases h

end Exact

end Postcard

end WorldstreetChain
