import WorldstreetChain.Library.Unsigned
import WorldstreetChain.Program.Package

/-!
# The package format (`ProgramPackage::from_wasm`, `encode`, `decode`)

A package is an envelope: a header of sixteen bytes with two lengths, and three sections behind it.
The reader is given any bytes, so it is written here once more with every slice, conversion and sum
that could panic.

* `ProgramPackage.encode` -- the writer; `toVec` is `serde_json::to_vec`.
* `ProgramPackage.decodeChecked` -- the reader with its panics; `decodeChecked_eq`: it has none.
* `decode_eq_ok_iff` -- **what is read is an envelope**.
-/

namespace WorldstreetChain

open Postcard (utf8 utf8_ofList length_utf8_ofList)

/-! ## 1. Little-endian lengths and slices -/

namespace ProgramPackage

theorem fromLeBytes_lt (bytes : List UInt8) : fromLeBytes bytes < 256 ^ bytes.length := by
  induction bytes with
  | nil => exact Nat.one_pos
  | cons b bytes ih =>
    have hb := b.toNat_lt
    have hcons : fromLeBytes (b :: bytes) = b.toNat + 256 * fromLeBytes bytes := rfl
    rw [hcons, List.length_cons, Nat.pow_succ]
    omega

theorem fromLeBytes_inj {bytes bytes' : List UInt8} (hlength : bytes.length = bytes'.length)
    (h : fromLeBytes bytes = fromLeBytes bytes') : bytes = bytes' := by
  induction bytes generalizing bytes' with
  | nil => exact (List.length_eq_zero_iff.mp hlength.symm).symm
  | cons b bytes ih =>
    cases bytes' with
    | nil => cases hlength
    | cons b' bytes' =>
      have hb := b.toNat_lt
      have hb' := b'.toNat_lt
      have hvalue : b.toNat + 256 * fromLeBytes bytes = b'.toNat + 256 * fromLeBytes bytes' := h
      have hhead : b = b' := UInt8.toNat_inj.mp (by omega)
      rw [hhead, ih (Nat.succ.inj hlength) (by omega)]

theorem fromLeBytes_toLeBytes (v : BitVec 32) : fromLeBytes (toLeBytes v) = v.toNat := by
  have hv := v.isLt
  have hbyte : ∀ n : Nat, n.toUInt8.toNat = n % 256 := fun n => rfl
  have hvalue : fromLeBytes (toLeBytes v) = v.toNat.toUInt8.toNat +
      256 * ((v.toNat / 256).toUInt8.toNat + 256 * ((v.toNat / 65536).toUInt8.toNat +
        256 * ((v.toNat / 16777216).toUInt8.toNat + 256 * 0))) := rfl
  rw [hvalue]
  simp only [hbyte]
  omega

theorem slice_append_drop (bytes : List UInt8) {i j : Nat} (h : i ≤ j) :
    slice bytes i j ++ bytes.drop j = bytes.drop i := by
  unfold slice
  rw [← List.take_append_drop (j - i) (bytes.drop i), List.drop_drop, List.drop_take,
    Nat.add_sub_cancel' h]

theorem length_slice {bytes : List UInt8} {i j : Nat} (h : j ≤ bytes.length) :
    (slice bytes i j).length = j - i := by
  unfold slice
  rw [List.length_drop, List.length_take, Nat.min_eq_left h]

/-- What stands in the middle. -/
theorem slice_middle (before middle after : List UInt8) {i j : Nat} (hi : before.length = i)
    (hj : i + middle.length = j) : slice (before ++ (middle ++ after)) i j = middle := by
  unfold slice
  rw [← List.append_assoc, List.take_left' (by rw [List.length_append, hi, hj]),
    List.drop_left' hi]

end ProgramPackage

/-! ## 2. The writer -/

/-- The bytes of a package: the header with the lengths of two sections and two bytes that are
    reserved, then the manifest, the module and the code hash. -/
def envelope (reserved manifest wasm hash : List UInt8) : List UInt8 :=
  itMagic ++ ([1, 0] ++ (toLeBytes (BitVec.ofNat 32 manifest.length) ++
    (toLeBytes (BitVec.ofNat 32 wasm.length) ++ (reserved ++ (manifest ++ (wasm ++ hash))))))

namespace ProgramPackage

def fromWasm (C : Crypto) (R : WasmRuntime) (manifest : ProgramManifest) (wasm : List UInt8) :
    Except ProgramError ProgramPackage :=
  if maxWasmBytes < wasm.length then .error .packageTooLarge
  else
    match validateWasm R wasm manifest.entrypoint with
    | .error e => .error e
    | .ok () => .ok { manifest, wasm, codeHash := hashWasm C wasm }

/-- `toVec` is `serde_json::to_vec`. -/
def encode (toVec : ProgramManifest → Except String (List UInt8)) (p : ProgramPackage) :
    Except ProgramError (List UInt8) :=
  match toVec p.manifest with
  | .error e => .error (.encoding e)
  | .ok manifest =>
    if 2 ^ 32 - 1 < manifest.length ∨ 2 ^ 32 - 1 < p.wasm.length then .error .packageTooLarge
    else
      let out := envelope [0, 0] manifest p.wasm (utf8 p.codeHash)
      if maxPackageBytes < out.length then .error .packageTooLarge else .ok out

variable {toVec : ProgramManifest → Except String (List UInt8)} {p : ProgramPackage}
  {bytes manifest wasm hash reserved : List UInt8}

theorem length_envelope (reserved manifest wasm hash : List UInt8) :
    (envelope reserved manifest wasm hash).length =
      14 + reserved.length + manifest.length + wasm.length + hash.length := by
  unfold envelope
  simp only [List.length_append]
  have hmagic : itMagic.length = 4 := by decide
  have hlength : ∀ v : BitVec 32, (toLeBytes v).length = 4 := fun v => rfl
  rw [hmagic, hlength, hlength]
  simp only [List.length_cons, List.length_nil]
  omega

/-- **What the writer returns.** -/
theorem encode_eq_ok : encode toVec p = .ok bytes ↔
    ∃ manifest, toVec p.manifest = .ok manifest ∧ manifest.length < 2 ^ 32 ∧
      p.wasm.length < 2 ^ 32 ∧ bytes = envelope [0, 0] manifest p.wasm (utf8 p.codeHash) ∧
      bytes.length ≤ maxPackageBytes := by
  unfold encode
  cases hvec : toVec p.manifest with
  | error e =>
    constructor
    · intro h
      cases h
    · intro ⟨_, h, _⟩
      cases h
  | ok manifest =>
    dsimp only
    constructor
    · intro h
      split at h
      · cases h
      · rename_i hlengths
        split at h
        · cases h
        · rename_i hsize
          cases h
          exact ⟨manifest, rfl, by omega, by omega, rfl, by omega⟩
    · intro ⟨manifest', hmanifest, hml, hwl, hbytes, hsize⟩
      cases hmanifest
      rw [if_neg (by omega), ← hbytes, if_neg (by omega)]

/-! ## 3. The reader -/

section Reader

variable {ε : Type}

/-- `bytes[i..j]`. -/
def sliceChecked (bytes : List UInt8) (i j : Nat) : Outcome ε (List UInt8) :=
  if i ≤ j ∧ j ≤ bytes.length then .ok (slice bytes i j) else .error .panic

/-- `u32::from_le_bytes(bytes.try_into().unwrap()) as usize`. -/
def u32FromLeBytes (bytes : List UInt8) : Outcome ε U64 :=
  if bytes.length = 4 then .ok (BitVec.ofNat 64 (fromLeBytes bytes)) else .error .panic

theorem sliceChecked_ok {i j : Nat} (hi : i ≤ j) (hj : j ≤ bytes.length) :
    sliceChecked (ε := ε) bytes i j = .ok (slice bytes i j) :=
  if_pos ⟨hi, hj⟩

theorem u32FromLeBytes_ok (h : bytes.length = 4) :
    u32FromLeBytes (ε := ε) bytes = .ok (BitVec.ofNat 64 (fromLeBytes bytes)) :=
  if_pos h

end Reader

variable (C : Crypto) (R : WasmRuntime)

/-- `decode` on a target of 64 bits, with the slices, conversions and sums that could panic. -/
def decodeChecked (bytes : List UInt8) : Outcome ProgramError ProgramPackage := do
  rejectIf (maxPackageBytes < bytes.length ∨ bytes.length < 16 + 64) .invalidHeader
  let magic ← sliceChecked bytes 0 4
  rejectIf (magic ≠ itMagic) .invalidHeader
  let low ← orPanic bytes[4]?
  let high ← orPanic bytes[5]?
  rejectIf (fromLeBytes [low, high] ≠ 1) .invalidHeader
  let manifestField ← sliceChecked bytes 6 10
  let manifestLength ← u32FromLeBytes manifestField
  let wasmField ← sliceChecked bytes 10 14
  let wasmLength ← u32FromLeBytes wasmField
  let wasmStart ← orFail (Unsigned.checkedAdd 16#64 manifestLength) (.encoding "manifest overflow")
  let hashStart ← orFail (Unsigned.checkedAdd wasmStart wasmLength) (.encoding "wasm overflow")
  let ending ← Unsigned.add true hashStart 64#64
  rejectIf (ending.toNat ≠ bytes.length) (.encoding "length mismatch")
  let section1 ← sliceChecked bytes 16 wasmStart.toNat
  let manifest ← ((R.manifestFromSlice section1).mapError fun e => .err (.encoding e))
  let wasm ← sliceChecked bytes wasmStart.toNat hashStart.toNat
  let hash ← sliceChecked bytes hashStart.toNat bytes.length
  let codeHash ← orFail (String.fromUTF8? ⟨hash.toArray⟩) (.encoding (R.utf8ErrorText hash))
  let package : ProgramPackage := { manifest, wasm, codeHash }
  (package.verify C R).mapError .err
  .ok package

/-- `program_id`, with its slice, which must end between two characters. -/
def programIdChecked (p : ProgramPackage) : Outcome ProgramError String := do
  let bytes ← sliceChecked (utf8 p.codeHash) 0 40
  let text ← orPanic (String.fromUTF8? ⟨bytes.toArray⟩)
  .ok ("it1" ++ text)

variable {C R}

theorem utf8Size_digitChar : ∀ n < 16, (Nat.digitChar n).utf8Size = 1 := by
  decide

/-- The characters of a code hash. -/
def hashDigits (C : Crypto) (wasm : List UInt8) : List Char :=
  (C.sha256 wasm).toList.flatMap hexByte

theorem utf8Size_hashDigits {c : Char} (h : c ∈ hashDigits C wasm) : c.utf8Size = 1 := by
  obtain ⟨b, -, hc⟩ := List.mem_flatMap.mp h
  have hb := b.toNat_lt
  simp only [hexByte, List.mem_cons, List.not_mem_nil, or_false] at hc
  obtain rfl | rfl := hc
  · exact utf8Size_digitChar _ (by omega)
  · exact utf8Size_digitChar _ (by omega)

theorem length_hashDigits : (hashDigits C wasm).length = 64 := by
  unfold hashDigits
  rw [length_flatMap_hexByte, Vector.length_toList]

theorem length_hashWasm : (utf8 (hashWasm C wasm)).length = 64 :=
  (length_utf8_ofList fun _ => utf8Size_hashDigits).trans length_hashDigits

/-- **The id of a package with the hash of its module** is cut from the hash without a panic. -/
theorem programIdChecked_eq (h : p.codeHash = hashWasm C p.wasm) :
    p.programIdChecked = .ok p.programId := by
  have hdigits : p.codeHash = String.ofList (hashDigits C p.wasm) := h
  have hlength : (utf8 p.codeHash).length = 64 := by rw [h, length_hashWasm]
  have htake : (utf8 p.codeHash).take 40 = utf8 (String.ofList (p.codeHash.toList.take 40)) := by
    have hsplit : utf8 p.codeHash = utf8 (String.ofList ((hashDigits C p.wasm).take 40)) ++
        utf8 (String.ofList ((hashDigits C p.wasm).drop 40)) := by
      rw [hdigits, utf8_ofList, utf8_ofList, utf8_ofList, ← List.flatMap_append,
        List.take_append_drop]
    have hlead : (utf8 (String.ofList ((hashDigits C p.wasm).take 40))).length = 40 := by
      rw [length_utf8_ofList fun c hc => utf8Size_hashDigits (List.mem_of_mem_take hc),
        List.length_take, length_hashDigits]
      rfl
    rw [hsplit, List.take_left' hlead, hdigits, String.toList_ofList]
  unfold programIdChecked
  rw [sliceChecked_ok (Nat.zero_le 40) (by omega), Outcome.ok_bind]
  have hslice : slice (utf8 p.codeHash) 0 40 = (utf8 p.codeHash).take 40 := rfl
  have htext : String.fromUTF8? ⟨((utf8 p.codeHash).take 40).toArray⟩ =
      some (String.ofList (p.codeHash.toList.take 40)) := by
    rw [htake]
    exact Postcard.fromUtf8_utf8 _
  rw [hslice, htext]
  rfl

/-! ## 4. What is read -/

theorem fromUTF8_eq_some {l : List UInt8} {text : String} :
    String.fromUTF8? ⟨l.toArray⟩ = some text ↔ l = utf8 text := by
  constructor
  · intro h
    unfold String.fromUTF8? at h
    split at h
    · cases h
      rfl
    · cases h
  · intro h
    rw [h]
    exact Postcard.fromUtf8_utf8 text

section Sections

variable (hreserved : reserved.length = 2)

include hreserved

theorem slice_manifest : slice (envelope reserved manifest wasm hash) 16 (16 + manifest.length) =
    manifest := by
  have hsplit : envelope reserved manifest wasm hash =
      (itMagic ++ ([1, 0] ++ (toLeBytes (BitVec.ofNat 32 manifest.length) ++
        (toLeBytes (BitVec.ofNat 32 wasm.length) ++ reserved)))) ++ (manifest ++ (wasm ++ hash)) := by
    simp only [envelope, List.append_assoc]
  rw [hsplit]
  refine slice_middle _ manifest _ ?_ rfl
  simp only [List.length_append, hreserved]
  rfl

theorem slice_wasm : slice (envelope reserved manifest wasm hash) (16 + manifest.length)
    (16 + manifest.length + wasm.length) = wasm := by
  have hsplit : envelope reserved manifest wasm hash =
      (itMagic ++ ([1, 0] ++ (toLeBytes (BitVec.ofNat 32 manifest.length) ++
        (toLeBytes (BitVec.ofNat 32 wasm.length) ++ (reserved ++ manifest))))) ++
        (wasm ++ hash) := by
    simp only [envelope, List.append_assoc]
  rw [hsplit]
  refine slice_middle _ wasm _ ?_ rfl
  simp only [List.length_append, hreserved]
  have hmagic : itMagic.length = 4 := by decide
  have hlength : ∀ v : BitVec 32, (toLeBytes v).length = 4 := fun v => rfl
  rw [hmagic, hlength, hlength]
  simp only [List.length_cons, List.length_nil]
  omega

theorem drop_hash : (envelope reserved manifest wasm hash).drop
    (16 + manifest.length + wasm.length) = hash := by
  have hsplit : envelope reserved manifest wasm hash =
      (itMagic ++ ([1, 0] ++ (toLeBytes (BitVec.ofNat 32 manifest.length) ++
        (toLeBytes (BitVec.ofNat 32 wasm.length) ++ (reserved ++ (manifest ++ wasm)))))) ++
        hash := by
    simp only [envelope, List.append_assoc]
  rw [hsplit]
  refine List.drop_left' ?_
  have hlength := length_envelope reserved manifest wasm []
  unfold envelope at hlength
  rw [List.append_nil, hreserved] at hlength
  rw [hlength, List.length_nil]
  omega

end Sections

theorem slice_manifestLength : slice (envelope reserved manifest wasm hash) 6 10 =
    toLeBytes (BitVec.ofNat 32 manifest.length) :=
  slice_middle (itMagic ++ [1, 0]) (toLeBytes (BitVec.ofNat 32 manifest.length)) _ rfl rfl

theorem slice_wasmLength : slice (envelope reserved manifest wasm hash) 10 14 =
    toLeBytes (BitVec.ofNat 32 wasm.length) :=
  slice_middle (itMagic ++ ([1, 0] ++ toLeBytes (BitVec.ofNat 32 manifest.length)))
    (toLeBytes (BitVec.ofNat 32 wasm.length)) _ rfl rfl

/-- A length that fits is read back from its field. -/
theorem fromLeBytes_length {n : Nat} (h : n < 2 ^ 32) :
    fromLeBytes (toLeBytes (BitVec.ofNat 32 n)) = n := by
  rw [fromLeBytes_toLeBytes, BitVec.toNat_ofNat, Nat.mod_eq_of_lt h]

/-- A field is the one of the length it is read as. -/
theorem toLeBytes_fromLeBytes (h : bytes.length = 4) :
    toLeBytes (BitVec.ofNat 32 (fromLeBytes bytes)) = bytes := by
  have hlt := fromLeBytes_lt bytes
  rw [h] at hlt
  exact fromLeBytes_inj h.symm (fromLeBytes_length hlt)

/-- **The bytes that the lengths cut up** are an envelope. -/
theorem eq_envelope (hlength : 16 + 64 ≤ bytes.length) (hmagic : slice bytes 0 4 = itMagic)
    (hversion : fromLeBytes (slice bytes 4 6) = 1)
    (htotal : 16 + fromLeBytes (slice bytes 6 10) + fromLeBytes (slice bytes 10 14) + 64 =
      bytes.length) :
    bytes = envelope (slice bytes 14 16)
      (slice bytes 16 (16 + fromLeBytes (slice bytes 6 10)))
      (slice bytes (16 + fromLeBytes (slice bytes 6 10))
        (16 + fromLeBytes (slice bytes 6 10) + fromLeBytes (slice bytes 10 14)))
      (bytes.drop (16 + fromLeBytes (slice bytes 6 10) + fromLeBytes (slice bytes 10 14))) := by
  have hversionBytes : slice bytes 4 6 = [1, 0] :=
    fromLeBytes_inj (length_slice (by omega)) hversion
  have hml : (slice bytes 6 10).length = 4 := length_slice (by omega)
  have hwl : (slice bytes 10 14).length = 4 := length_slice (by omega)
  generalize hm : fromLeBytes (slice bytes 6 10) = ml at htotal ⊢
  generalize hw : fromLeBytes (slice bytes 10 14) = wl at htotal ⊢
  have hmanifest : (slice bytes 16 (16 + ml)).length = ml :=
    (length_slice (by omega)).trans (Nat.add_sub_cancel_left 16 ml)
  have hwasm : (slice bytes (16 + ml) (16 + ml + wl)).length = wl :=
    (length_slice (by omega)).trans (Nat.add_sub_cancel_left (16 + ml) wl)
  unfold envelope
  rw [hmanifest, hwasm, ← hm, ← hw, toLeBytes_fromLeBytes hml, toLeBytes_fromLeBytes hwl,
    ← hmagic, ← hversionBytes, slice_append_drop bytes (Nat.le_add_right _ _),
    slice_append_drop bytes (Nat.le_add_right _ _), slice_append_drop bytes (by decide),
    slice_append_drop bytes (by decide), slice_append_drop bytes (by decide),
    slice_append_drop bytes (by decide), slice_append_drop bytes (by decide), List.drop_zero]

/-- **What is read is an envelope** with a manifest and the hash of its module; the two reserved
    bytes are whatever they are. -/
theorem decode_eq_ok_iff : decode C R bytes = .ok p ↔
    ∃ reserved manifest, reserved.length = 2 ∧ manifest.length < 2 ^ 32 ∧
      p.wasm.length < 2 ^ 32 ∧ (utf8 p.codeHash).length = 64 ∧
      bytes = envelope reserved manifest p.wasm (utf8 p.codeHash) ∧
      bytes.length ≤ maxPackageBytes ∧ R.manifestFromSlice manifest = .ok p.manifest ∧
      p.verify C R = .ok () := by
  constructor
  · intro h
    unfold decode at h
    split at h
    · cases h
    rename_i hsize
    split at h
    · cases h
    rename_i hheader
    dsimp only at h
    split at h
    · cases h
    rename_i htotal
    split at h
    · cases h
    rename_i manifest hmanifest
    split at h
    · cases h
    rename_i codeHash hhash
    split at h
    · cases h
    rename_i hverify
    cases h
    have hmagic : slice bytes 0 4 = itMagic :=
      Decidable.byContradiction fun hne => hheader (Or.inl hne)
    have hversion : fromLeBytes (slice bytes 4 6) = 1 :=
      Decidable.byContradiction fun hne => hheader (Or.inr hne)
    have htotal := Decidable.byContradiction htotal
    have henvelope := eq_envelope (by omega) hmagic hversion htotal
    have hbytes := fromUTF8_eq_some.mp hhash
    have hml := fromLeBytes_lt (slice bytes 6 10)
    have hwl := fromLeBytes_lt (slice bytes 10 14)
    rw [length_slice (by omega)] at hml hwl
    refine ⟨slice bytes 14 16, slice bytes 16 (16 + fromLeBytes (slice bytes 6 10)),
      length_slice (by omega), ?_, ?_, ?_, ?_, by omega, hmanifest, hverify⟩
    · rw [length_slice (by omega), Nat.add_sub_cancel_left]
      exact hml
    · rw [length_slice (by omega), Nat.add_sub_cancel_left]
      exact hwl
    · rw [← hbytes, List.length_drop]
      omega
    · rw [← hbytes]
      exact henvelope
  · intro ⟨reserved, manifest, hreserved, hml, hwl, hhash, hbytes, hsize, hmanifest, hverify⟩
    have hlength := length_envelope reserved manifest p.wasm (utf8 p.codeHash)
    rw [← hbytes] at hlength
    have hmanifestLength : fromLeBytes (slice bytes 6 10) = manifest.length := by
      rw [hbytes, slice_manifestLength, fromLeBytes_length hml]
    have hwasmLength : fromLeBytes (slice bytes 10 14) = p.wasm.length := by
      rw [hbytes, slice_wasmLength, fromLeBytes_length hwl]
    have hheader : ¬ (slice bytes 0 4 ≠ itMagic ∨ fromLeBytes (slice bytes 4 6) ≠ 1) := by
      rw [hbytes]
      intro h
      obtain h | h := h
      · exact h (slice_middle [] itMagic _ rfl rfl)
      · exact h (congrArg fromLeBytes (slice_middle itMagic [1, 0] _ rfl rfl))
    unfold decode
    rw [if_neg (by omega), if_neg hheader]
    dsimp only
    rw [hmanifestLength, hwasmLength, if_neg (by omega), hbytes, slice_manifest hreserved,
      hmanifest, drop_hash hreserved, slice_wasm hreserved]
    dsimp only
    rw [fromUTF8_eq_some.mpr rfl]
    dsimp only
    rw [hverify]

/-! ## 5. No panics -/

/-- The version is read from two bytes that are there. -/
theorem version_bytes (h : 16 + 64 ≤ bytes.length) : ∃ low high,
    bytes[4]? = some low ∧ bytes[5]? = some high ∧ slice bytes 4 6 = [low, high] := by
  have hlow : 4 < bytes.length := by omega
  have hhigh : 5 < bytes.length := by omega
  refine ⟨bytes[4], bytes[5], List.getElem?_eq_getElem hlow, List.getElem?_eq_getElem hhigh, ?_⟩
  unfold slice
  rw [List.drop_take, List.drop_eq_getElem_cons hlow, List.drop_eq_getElem_cons hhigh]
  rfl

/-- **The reader never panics**: every slice it takes is there, and no sum overflows. -/
theorem decodeChecked_eq (bytes : List UInt8) :
    decodeChecked C R bytes = (decode C R bytes).mapError .err := by
  unfold decodeChecked decode
  by_cases hsize : maxPackageBytes < bytes.length ∨ bytes.length < 16 + 64
  · rw [rejectIf_pos hsize, if_pos hsize]
    rfl
  have hlow : 16 + 64 ≤ bytes.length := by omega
  rw [rejectIf_neg hsize, if_neg hsize, Outcome.ok_bind, sliceChecked_ok (by decide) (by omega),
    Outcome.ok_bind]
  by_cases hmagic : slice bytes 0 4 ≠ itMagic
  · rw [rejectIf_pos hmagic, if_pos (Or.inl hmagic)]
    rfl
  obtain ⟨low, high, hlowByte, hhighByte, hversion⟩ := version_bytes hlow
  rw [rejectIf_neg hmagic, Outcome.ok_bind, hlowByte, hhighByte, orPanic_some, orPanic_some,
    Outcome.ok_bind, Outcome.ok_bind, hversion]
  by_cases hone : fromLeBytes [low, high] ≠ 1
  · rw [rejectIf_pos hone, if_pos (Or.inr hone)]
    rfl
  have hml : (slice bytes 6 10).length = 4 := length_slice (by omega)
  have hwl : (slice bytes 10 14).length = 4 := length_slice (by omega)
  have hmlLt := fromLeBytes_lt (slice bytes 6 10)
  have hwlLt := fromLeBytes_lt (slice bytes 10 14)
  rw [hml] at hmlLt
  rw [hwl] at hwlLt
  rw [rejectIf_neg hone, if_neg (not_or.mpr ⟨hmagic, hone⟩), Outcome.ok_bind,
    sliceChecked_ok (by decide) (by omega), Outcome.ok_bind, u32FromLeBytes_ok hml, Outcome.ok_bind,
    sliceChecked_ok (by decide) (by omega), Outcome.ok_bind, u32FromLeBytes_ok hwl, Outcome.ok_bind]
  dsimp only
  generalize fromLeBytes (slice bytes 6 10) = ml at hmlLt ⊢
  generalize fromLeBytes (slice bytes 10 14) = wl at hwlLt ⊢
  have hwasmStart : Unsigned.checkedAdd 16#64 (BitVec.ofNat 64 ml) =
      some (BitVec.ofNat 64 (16 + ml)) := by
    rw [Unsigned.checkedAdd_eq_some]
    simp only [BitVec.toNat_ofNat]
    omega
  have hhashStart : Unsigned.checkedAdd (BitVec.ofNat 64 (16 + ml)) (BitVec.ofNat 64 wl) =
      some (BitVec.ofNat 64 (16 + ml + wl)) := by
    rw [Unsigned.checkedAdd_eq_some]
    simp only [BitVec.toNat_ofNat]
    omega
  have hending : Unsigned.add (ε := ProgramError) true (BitVec.ofNat 64 (16 + ml + wl)) 64#64 =
      .ok (BitVec.ofNat 64 (16 + ml + wl + 64)) := by
    unfold Unsigned.add
    rw [if_pos (by simp only [BitVec.toNat_ofNat]; omega), ← BitVec.ofNat_add]
  have hstart : (BitVec.ofNat 64 (16 + ml)).toNat = 16 + ml := by
    rw [BitVec.toNat_ofNat]
    omega
  have hhash : (BitVec.ofNat 64 (16 + ml + wl)).toNat = 16 + ml + wl := by
    rw [BitVec.toNat_ofNat]
    omega
  have hend : (BitVec.ofNat 64 (16 + ml + wl + 64)).toNat = 16 + ml + wl + 64 := by
    rw [BitVec.toNat_ofNat]
    omega
  rw [hwasmStart, orFail_some, Outcome.ok_bind, hhashStart, orFail_some, Outcome.ok_bind, hending,
    Outcome.ok_bind, hstart, hhash, hend]
  by_cases htotal : 16 + ml + wl + 64 ≠ bytes.length
  · rw [rejectIf_pos htotal, if_pos htotal]
    rfl
  have htotalEq := Decidable.byContradiction htotal
  rw [rejectIf_neg htotal, if_neg htotal, Outcome.ok_bind, sliceChecked_ok (by omega) (by omega),
    Outcome.ok_bind]
  cases hmanifest : R.manifestFromSlice (slice bytes 16 (16 + ml)) with
  | error e => rfl
  | ok manifest =>
    have hrest : slice bytes (16 + ml + wl) bytes.length = bytes.drop (16 + ml + wl) := by
      unfold slice
      rw [List.take_length]
    simp only [Except.mapError, Outcome.ok_bind]
    rw [sliceChecked_ok (by omega) (by omega), Outcome.ok_bind,
      sliceChecked_ok (by omega) (Nat.le_refl _), Outcome.ok_bind, hrest]
    cases String.fromUTF8? ⟨(bytes.drop (16 + ml + wl)).toArray⟩ with
    | none => rfl
    | some codeHash =>
      rw [orFail_some, Outcome.ok_bind]
      dsimp only
      split
      · rename_i e hverify
        rw [hverify]
        rfl
      · rename_i hverify
        rw [hverify]
        rfl

/-! ## 6. Round trips -/

theorem fromWasm_eq_ok {m : ProgramManifest} : fromWasm C R m wasm = .ok p ↔
    p = { manifest := m, wasm := wasm, codeHash := hashWasm C wasm } ∧ p.verify C R = .ok () := by
  unfold fromWasm
  constructor
  · intro h
    split at h
    · cases h
    split at h
    · cases h
    rename_i hvalid
    cases h
    refine ⟨rfl, ?_⟩
    unfold verify
    rw [if_neg (by simp only [ne_eq, not_true_eq_false, not_false_eq_true])]
    exact hvalid
  · intro ⟨hp, hverify⟩
    have hvalid : validateWasm R wasm m.entrypoint = .ok () := by
      unfold verify at hverify
      rw [hp, if_neg (by simp only [ne_eq, not_true_eq_false, not_false_eq_true])] at hverify
      exact hverify
    have hsize : ¬ maxWasmBytes < wasm.length := by
      intro hsize
      unfold validateWasm at hvalid
      rw [if_pos hsize] at hvalid
      cases hvalid
    rw [if_neg hsize, hvalid, hp]

theorem verify_codeHash (h : p.verify C R = .ok ()) : p.codeHash = hashWasm C p.wasm := by
  unfold verify at h
  split at h
  · cases h
  · rename_i hhash
    exact Decidable.byContradiction hhash

/-- What is written of a verified package is read as it. -/
theorem decode_encode
    (hjson : ∀ m bytes, toVec m = .ok bytes → R.manifestFromSlice bytes = .ok m)
    (hverify : p.verify C R = .ok ()) (h : p.encode toVec = .ok bytes) :
    decode C R bytes = .ok p := by
  obtain ⟨manifest, hmanifest, hml, hwl, hbytes, hsize⟩ := encode_eq_ok.mp h
  have hhash : (utf8 p.codeHash).length = 64 := by rw [verify_codeHash hverify, length_hashWasm]
  exact decode_eq_ok_iff.mpr ⟨[0, 0], manifest, rfl, hml, hwl, hhash, hbytes, hsize,
    hjson _ _ hmanifest, hverify⟩

/-- **Packages round-trip, and no bytes make the reader panic.** -/
theorem package_round_trip (C : Crypto) (R : WasmRuntime)
    (toVec : ProgramManifest → Except String (List UInt8))
    (hjson : ∀ m bytes, toVec m = .ok bytes → R.manifestFromSlice bytes = .ok m) :
    (∀ m wasm p bytes, fromWasm C R m wasm = .ok p → p.encode toVec = .ok bytes →
      decodeChecked C R bytes = .ok p ∧ p.programIdChecked = .ok p.programId) ∧
    ∀ bytes, decodeChecked C R bytes ≠ .error .panic := by
  constructor
  · intro m wasm p bytes hp hbytes
    have hverify := (fromWasm_eq_ok.mp hp).2
    rw [decodeChecked_eq, decode_encode hjson hverify hbytes]
    exact ⟨rfl, programIdChecked_eq (verify_codeHash hverify)⟩
  · intro bytes hpanic
    rw [decodeChecked_eq] at hpanic
    cases hdecode : decode C R bytes with
    | error e =>
      rw [hdecode] at hpanic
      cases hpanic
    | ok p =>
      rw [hdecode] at hpanic
      cases hpanic

/-! ## 7. What is written back -/

/-- The manifest's bytes, where the header says they are. -/
def manifestSection (bytes : List UInt8) : List UInt8 :=
  slice bytes 16 (16 + fromLeBytes (slice bytes 6 10))

/-- The reserved bytes are zero, and the manifest is spelled as the writer does. -/
def Canonical (toVec : ProgramManifest → Except String (List UInt8)) (p : ProgramPackage)
    (bytes : List UInt8) : Prop :=
  slice bytes 14 16 = [0, 0] ∧ toVec p.manifest = .ok (manifestSection bytes)

theorem slice_reserved (h : reserved.length = 2) :
    slice (envelope reserved manifest wasm hash) 14 16 = reserved := by
  have hsplit : envelope reserved manifest wasm hash =
      (itMagic ++ ([1, 0] ++ (toLeBytes (BitVec.ofNat 32 manifest.length) ++
        toLeBytes (BitVec.ofNat 32 wasm.length)))) ++ (reserved ++ (manifest ++ (wasm ++ hash))) := by
    simp only [envelope, List.append_assoc]
  rw [hsplit]
  exact slice_middle _ reserved _ rfl (by rw [h])

theorem manifestSection_envelope (h : reserved.length = 2) (hml : manifest.length < 2 ^ 32) :
    manifestSection (envelope reserved manifest wasm hash) = manifest := by
  unfold manifestSection
  rw [slice_manifestLength, fromLeBytes_length hml, slice_manifest h]

/-- **Bytes that were read are written back as they were** where they are spelled as the writer
    does, and only there; so two such spellings of one package are one. -/
theorem encode_decode_iff (C : Crypto) (R : WasmRuntime)
    (toVec : ProgramManifest → Except String (List UInt8)) (bytes : List UInt8)
    (p : ProgramPackage) (h : decode C R bytes = .ok p) :
    (p.encode toVec = .ok bytes ↔ Canonical toVec p bytes) ∧
    ∀ bytes', decode C R bytes' = .ok p → Canonical toVec p bytes → Canonical toVec p bytes' →
      bytes' = bytes := by
  have hback : ∀ b, decode C R b = .ok p → (p.encode toVec = .ok b ↔ Canonical toVec p b) := by
    intro b hb
    obtain ⟨reserved, manifest, hreserved, hml, hwl, -, hbytes, hsize, -, -⟩ :=
      decode_eq_ok_iff.mp hb
    have hcanonical : Canonical toVec p b ↔ reserved = [0, 0] ∧ toVec p.manifest = .ok manifest := by
      unfold Canonical
      rw [hbytes, slice_reserved hreserved, manifestSection_envelope hreserved hml]
    rw [hcanonical]
    constructor
    · intro hencode
      obtain ⟨manifest', hmanifest, hml', -, hbytes', -⟩ := encode_eq_ok.mp hencode
      have hsame := hbytes.symm.trans hbytes'
      have hreserved' := congrArg (slice · 14 16) hsame
      have hmanifest' := congrArg manifestSection hsame
      rw [manifestSection_envelope hreserved hml, manifestSection_envelope rfl hml'] at hmanifest'
      rw [slice_reserved hreserved, slice_reserved rfl] at hreserved'
      exact ⟨hreserved', hmanifest' ▸ hmanifest⟩
    · intro ⟨hzero, hmanifest⟩
      exact encode_eq_ok.mpr ⟨manifest, hmanifest, hml, hwl, hzero ▸ hbytes, hsize⟩
  refine ⟨hback bytes h, fun bytes' h' hc hc' => ?_⟩
  have hone := (hback bytes h).mpr hc
  have hother := (hback bytes' h').mpr hc'
  rw [hone] at hother
  cases hother
  rfl

end ProgramPackage

/-! ## 8. One package in three spellings -/

namespace Sample

/-- What `serde_json` writes of the manifest: the two fields with a default are there. -/
def manifestVec : List UInt8 :=
  utf8 ("\x7b\"name\":\"m\",\"language\":\"rust\",\"compiler_version\":\"1\","
    ++ "\"vm_version\":\"1\",\"entrypoint\":\"run\",\"capabilities\":[],\"abi\":\x7b\x7d\x7d")

def toVec (m : ProgramManifest) : Except String (List UInt8) :=
  if m = manifest then .ok manifestVec else .error "unknown manifest"

/-- Both spellings of the manifest are read. -/
def readManifest (bytes : List UInt8) : Except String ProgramManifest :=
  if bytes = manifestJson ∨ bytes = manifestVec then .ok manifest else .error "expected value"

theorem readManifest_ok {bytes : List UInt8} (h : bytes = manifestJson ∨ bytes = manifestVec) :
    readManifest bytes = .ok manifest :=
  if_pos h

def reader : WasmRuntime := { WasmRuntime.standIn with manifestFromSlice := readManifest }

theorem reader_toVec (m : ProgramManifest) (bytes : List UInt8) (h : toVec m = .ok bytes) :
    reader.manifestFromSlice bytes = .ok m := by
  unfold toVec at h
  split at h
  · rename_i hm
    cases h
    rw [hm]
    exact readManifest_ok (Or.inr rfl)
  · cases h

/-- The package with the given manifest and the given reserved byte. -/
def spelled (reserved : UInt8) (manifest : List UInt8) : List UInt8 :=
  envelope [reserved, reserved] manifest wasm (utf8 package.codeHash)

/-- The package is as `build` makes it, and the spelling with the defaults is the writer's. -/
theorem evaluated_spellings :
    manifestJson.length ≤ 200 ∧ manifestVec.length ≤ 200 ∧
      package.verify .standIn reader = .ok () ∧
      ProgramPackage.fromWasm .standIn reader manifest wasm = .ok package ∧
      package.encode toVec = .ok (spelled 0 manifestVec) ∧
      ProgramPackage.Canonical toVec package (spelled 0 manifestVec) ∧
      package.encode toVec ≠ .ok (spelled 1 manifestVec) := by
  unfold ProgramPackage.Canonical
  decide +kernel

theorem decode_spelled {reserved : UInt8} {spelling : List UInt8}
    (h : spelling = manifestJson ∨ spelling = manifestVec) :
    ProgramPackage.decode .standIn reader (spelled reserved spelling) = .ok package := by
  have hlength : spelling.length ≤ 200 := by
    obtain rfl | rfl := h
    · exact evaluated_spellings.1
    · exact evaluated_spellings.2.1
  have hhash : (utf8 package.codeHash).length = 64 := ProgramPackage.length_hashWasm
  have htotal : (spelled reserved spelling).length ≤ maxPackageBytes := by
    have hwasm : wasm.length = 8 := rfl
    unfold spelled
    rw [ProgramPackage.length_envelope, hhash]
    have hwasm' : package.wasm.length = 8 := rfl
    unfold maxPackageBytes
    simp only [List.length_cons, List.length_nil, hwasm]
    omega
  exact ProgramPackage.decode_eq_ok_iff.mpr ⟨[reserved, reserved], spelling, rfl, by omega,
    by decide, hhash, rfl, htotal, readManifest_ok h, evaluated_spellings.2.2.1⟩

end Sample

namespace ProgramPackage

theorem package_round_trip_sample :
    decodeChecked .standIn Sample.reader (Sample.spelled 0 Sample.manifestVec) =
      .ok Sample.package := by
  obtain ⟨-, -, -, hbuild, hencode, -⟩ := Sample.evaluated_spellings
  exact ((package_round_trip .standIn Sample.reader Sample.toVec Sample.reader_toVec).1
    Sample.manifest Sample.wasm Sample.package _ hbuild hencode).1

theorem encode_decode_sample :
    Sample.package.encode Sample.toVec = .ok (Sample.spelled 0 Sample.manifestVec) :=
  (encode_decode_iff .standIn Sample.reader Sample.toVec _ Sample.package
    (Sample.decode_spelled (Or.inr rfl))).1.mpr Sample.evaluated_spellings.2.2.2.2.2.1

/-- **A byte that no check reads, and a manifest without its defaults**, are not written back. -/
theorem spellings_not_written_back :
    ¬ ∀ bytes p, decode .standIn Sample.reader bytes = .ok p →
      p.encode Sample.toVec = .ok bytes := by
  intro h
  obtain ⟨-, -, -, -, -, -, hne⟩ := Sample.evaluated_spellings
  exact hne (h _ _ (@Sample.decode_spelled 1 Sample.manifestVec (Or.inr rfl)))

end ProgramPackage

end WorldstreetChain
