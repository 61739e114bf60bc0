import WorldstreetChain.Sdk.Bytes
import WorldstreetChain.Solana.Reading

/-!
# Deposit instructions of the SDK (`intertrain-wallet-sdk`)

The SDK writes the instruction data of a deposit: a tag, the amount in eight bytes, the deposit id,
the length of the destination in two bytes and the destination. Amounts and lengths are unbounded
where it starts from; what goes beyond the bytes for them is dropped without a word.

* `Sdk.depositData` -- the bytes, written by the three functions.
* `Sdk.readLock_depositData` -- what the bridge program reads of them.
* `Sdk.deposit_data_exact_iff` -- **the bytes say what is read**, or are refused, exactly where
  nothing was dropped or the program refuses what is left.
-/

namespace WorldstreetChain

open Solana

namespace Sdk

/-! ## 1. What the SDK writes -/

/-- The loop of `le64`: `Number(n & 255n)`, `n >>= 8n`. -/
def leBytes : Nat → Int → List UInt8
  | 0, _ => []
  | k + 1, n => UInt8.ofNat (n % 256).toNat :: leBytes k (n >>> (8 : Nat))

def le64 (value : Int) : List UInt8 := leBytes 8 value

/-- `new Uint8Array([length & 255, length >>> 8])`; the shift is one of 32 bits. -/
def lengthBytes (length : Nat) : List UInt8 :=
  [UInt8.ofNat (length &&& 255), UInt8.ofNat ((length % 2 ^ 32) >>> 8)]

/-- The three functions' one body. -/
def depositData (tag : UInt8) (amount : Int) (depositId : List UInt8) (destination : JsString) :
    Except String (List UInt8) := do
  let body := utf8 destination
  let id ← bytes32 depositId
  .ok (tag :: (le64 amount ++ (id ++ (lengthBytes body.length ++ body))))

def nativeSolDepositData (amountLamports : Int) (depositId : List UInt8)
    (destination : JsString) : Except String (List UInt8) :=
  depositData 1 amountLamports depositId destination

def nativeSolMnaDepositData (amountLamports : Int) (depositId : List UInt8)
    (destination : JsString) : Except String (List UInt8) :=
  depositData 5 amountLamports depositId destination

def splUsdcDepositData (amountMicroUsdc : Int) (depositId : List UInt8)
    (destination : JsString) : Except String (List UInt8) :=
  depositData 3 amountMicroUsdc depositId destination

/-! ## 2. What the program reads of it -/

/-- What the two bytes for the length leave of the destination. -/
def kept (destination : JsString) : List UInt8 :=
  (utf8 destination).take ((utf8 destination).length % 2 ^ 16)

/-- The program reads what is left: an amount, and a destination that is not empty, not too long and
    ASCII. -/
structure Readable (amount : Int) (destination : JsString) : Prop where
  amount : amount % 2 ^ 64 ≠ 0
  nonempty : (utf8 destination).length % 2 ^ 16 ≠ 0
  short : (utf8 destination).length % 2 ^ 16 ≤ 128
  ascii : ∀ b ∈ kept destination, b < 128

theorem leNat_leBytes (k : Nat) (n : Int) : (leNat (leBytes k n) : Int) = n % 256 ^ k := by
  induction k generalizing n with
  | zero => exact (Int.emod_one n).symm
  | succ k ih =>
    have hbyte : ((UInt8.ofNat (n % 256).toNat).toNat : Int) = n % 256 := by
      rw [UInt8.toNat_ofNat_of_lt' (show _ < 256 by omega)]
      omega
    have hstep : (leNat (leBytes (k + 1) n) : Int) = n % 256 + 256 * (n / 256 % 256 ^ k) := by
      show ((_ + 256 * leNat (leBytes k (n >>> (8 : Nat))) : Nat) : Int) = _
      rw [Nat.cast_add, Nat.cast_mul, hbyte, ih, Int.shiftRight_eq_div_pow]
      rfl
    have hpos : (0 : Int) < 256 ^ k := Int.pow_pos (by decide)
    have hlt := Int.emod_lt_of_pos (n / 256) hpos
    have hge := Int.emod_nonneg (n / 256) hpos.ne'
    have hdiv := Int.emod_add_mul_ediv (n / 256) (256 ^ k)
    rw [hstep, Int.pow_succ, Int.mul_comm (256 ^ k) 256]
    refine ((Int.ediv_emod_unique (a := n) (q := n / 256 / 256 ^ k) (by omega)).mpr
      ⟨?_, by omega, by omega⟩).2.symm
    rw [Int.mul_assoc]
    omega

theorem length_leBytes (k : Nat) (n : Int) : (leBytes k n).length = k := by
  induction k generalizing n with
  | zero => rfl
  | succ k ih => exact congrArg (· + 1) (ih _)

theorem leNat_lengthBytes (n : Nat) : leNat (lengthBytes n) = n % 2 ^ 16 := by
  have hlow : (UInt8.ofNat (n &&& 255)).toNat = n % 256 := by
    rw [UInt8.toNat_ofNat', Nat.and_two_pow_sub_one_eq_mod n 8]
    omega
  have hhigh : (UInt8.ofNat ((n % 2 ^ 32) >>> 8)).toNat = n / 256 % 256 := by
    rw [UInt8.toNat_ofNat', Nat.shiftRight_eq_div_pow]
    omega
  show (UInt8.ofNat (n &&& 255)).toNat + 256 * ((UInt8.ofNat ((n % 2 ^ 32) >>> 8)).toNat +
    256 * 0) = _
  omega

theorem readU64_le64 (amount : Int) (rest : List UInt8) :
    readU64 (le64 amount ++ rest) = .ok (BitVec.ofInt 64 amount) := by
  have hlength : (le64 amount).length = 8 := length_leBytes 8 amount
  have htake : (le64 amount ++ rest).take 8 = le64 amount := by
    rw [← hlength, List.take_left]
  have hle : 8 ≤ (le64 amount ++ rest).length := by
    rw [List.length_append, hlength]
    omega
  unfold readU64
  rw [if_pos hle, htake]
  refine congrArg Except.ok (BitVec.eq_of_toNat_eq ?_)
  have hnat := leNat_leBytes 8 amount
  rw [BitVec.toNat_ofNat, BitVec.toNat_ofInt]
  show leNat (leBytes 8 amount) % _ = _
  omega

theorem slice_append (a b c : List UInt8) :
    slice (a ++ (b ++ c)) a.length (a.length + b.length) = some b := by
  have hle : a.length + b.length ≤ (a ++ (b ++ c)).length := by
    rw [List.length_append, List.length_append]
    omega
  unfold slice
  rw [if_pos hle, List.take_length_add_append, List.take_left, List.drop_left]

theorem length_kept (destination : JsString) :
    (kept destination).length = (utf8 destination).length % 2 ^ 16 := by
  rw [kept, List.length_take]
  exact min_eq_left (Nat.mod_le _ _)

theorem toNat_ofInt (amount : Int) :
    ((BitVec.ofInt 64 amount).toNat : Int) = amount % 2 ^ 64 := by
  rw [BitVec.toNat_ofInt]
  omega

theorem ofInt_ne_zero {amount : Int} :
    BitVec.ofInt 64 amount ≠ 0 ↔ amount % 2 ^ 64 ≠ 0 := by
  rw [← toNat_ofInt, ne_eq, ← BitVec.toNat_inj]
  show ¬ _ = 0 ↔ _
  omega

theorem kept_ne_nil {destination : JsString} :
    kept destination ≠ [] ↔ (utf8 destination).length % 2 ^ 16 ≠ 0 := by
  rw [← length_kept, ne_eq, ne_eq, List.length_eq_zero_iff]

theorem kept_ascii {destination : JsString} :
    (kept destination).all (· < 128) = true ↔ ∀ b ∈ kept destination, b < 128 := by
  simp

theorem size_id {depositId : List UInt8} (hid : depositId.length = 32) :
    depositId.toArray.size = 32 := hid

/-- The lock that is read. -/
def Readable.input {amount : Int} {depositId : List UInt8} {destination : JsString}
    (h : Readable amount destination) (hid : depositId.length = 32) : LockInput where
  amount := BitVec.ofInt 64 amount
  depositId := ⟨depositId.toArray, size_id hid⟩
  destination := kept destination
  amount_ne_zero := ofInt_ne_zero.mpr h.amount
  destination_ne_nil := kept_ne_nil.mpr h.nonempty
  ascii := kept_ascii.mpr h.ascii

/-- **What the program reads** of an instruction the SDK has written. -/
theorem readLock_depositData {amount : Int} {depositId : List UInt8} {destination : JsString}
    (hid : depositId.length = 32) {input : LockInput} :
    readLock (le64 amount ++ (depositId ++ (lengthBytes (utf8 destination).length ++
        utf8 destination))) = .ok input ↔
      ∃ h : Readable amount destination, input = h.input hid := by
  have hlength : (le64 amount).length = 8 := length_leBytes 8 amount
  have hdrop : (le64 amount ++ (depositId ++ (lengthBytes (utf8 destination).length ++
      utf8 destination))).drop 8 = depositId ++ (lengthBytes (utf8 destination).length ++
        utf8 destination) := by
    rw [← hlength, List.drop_left]
  have hreadId : readId (depositId ++ (lengthBytes (utf8 destination).length ++
      utf8 destination)) = .ok ⟨depositId.toArray, size_id hid⟩ := by
    have htake : (depositId ++ (lengthBytes (utf8 destination).length ++
        utf8 destination)).take 32 = depositId := by
      rw [← hid, List.take_left]
    unfold readId
    rw [dif_pos (by rw [List.length_append]; omega)]
    simp only [htake]
  have hlen : slice (le64 amount ++ (depositId ++ (lengthBytes (utf8 destination).length ++
      utf8 destination))) 40 42 = some (lengthBytes (utf8 destination).length) := by
    have h := slice_append (le64 amount ++ depositId) (lengthBytes (utf8 destination).length)
      (utf8 destination)
    rwa [List.append_assoc, List.length_append, hlength, hid] at h
  have hbody : slice (le64 amount ++ (depositId ++ (lengthBytes (utf8 destination).length ++
      utf8 destination))) 42 (42 + (utf8 destination).length % 2 ^ 16) =
        some (kept destination) := by
    have h := slice_append (le64 amount ++ (depositId ++ lengthBytes (utf8 destination).length))
      (kept destination) ((utf8 destination).drop ((utf8 destination).length % 2 ^ 16))
    rw [length_kept] at h
    rwa [kept, List.take_append_drop, List.append_assoc, List.append_assoc, List.length_append,
      List.length_append, hlength, hid] at h
  unfold readLock
  rw [readU64_le64, hdrop, hreadId, hlen]
  show (orFail (slice _ 42 (42 + leNat (lengthBytes _))) _ >>= _) = _ ↔ _
  rw [leNat_lengthBytes, hbody]
  show (rejectIf _ _ >>= _) = _ ↔ _
  rw [rejectIf_bind_eq_ok, length_kept]
  constructor
  · rintro ⟨hshort, h⟩
    split at h
    · rename_i hread
      cases h
      exact ⟨⟨ofInt_ne_zero.mp hread.1, kept_ne_nil.mp hread.2.1, not_lt.mp hshort,
        kept_ascii.mp hread.2.2⟩, rfl⟩
    · cases h
  · rintro ⟨hread, rfl⟩
    refine ⟨not_lt.mpr hread.short, ?_⟩
    rw [dif_pos ⟨ofInt_ne_zero.mpr hread.amount, kept_ne_nil.mpr hread.nonempty,
      kept_ascii.mpr hread.ascii⟩]
    rfl

/-! ## 3. What is said and what is read -/

/-- The function throws, or the program refuses its bytes for any accounts on any ledger, or it
    reads the tag, the amount, the id and the whole destination. -/
def SaysWhatIsRead (tag : UInt8) (amount : Int) (depositId : List UInt8) (destination : JsString)
    (data : Except String (List UInt8)) : Prop :=
  ∀ bytes, data = .ok bytes → ∀ (C : Cluster) (l : Ledger) (accounts : List AccountMeta)
    (l' : Ledger), processInstruction C l ⟨accounts, bytes⟩ = .ok l' →
      ∃ rest input, bytes = tag :: rest ∧ readLock rest = .ok input ∧
        (input.amount.toNat : Int) = amount ∧ input.depositId.toList = depositId ∧
          Utf16.encode input.text = destination

/-- Nothing of the amount and of the destination is dropped. -/
def Fits (amount : Int) (destination : JsString) : Prop :=
  0 ≤ amount ∧ amount < 2 ^ 64 ∧ (utf8 destination).length < 2 ^ 16

/-- A destination that is read whole is ASCII text. -/
theorem text_of_whole {amount : Int} {depositId : List UInt8} {destination : JsString}
    (hfits : (utf8 destination).length < 2 ^ 16) (h : Readable amount destination)
    (hid : depositId.length = 32) : Utf16.encode (h.input hid).text = destination := by
  have hkept : kept destination = utf8 destination := by
    rw [kept, Nat.mod_eq_of_lt hfits, List.take_length]
  have hascii := h.ascii
  rw [hkept] at hascii
  obtain ⟨hchars, htext⟩ := Utf16.ascii_text hascii
  have hinput : (h.input hid).text = Utf16.decode destination := by
    rw [← htext]
    show (kept destination).map _ = _
    rw [hkept]
    rfl
  rw [hinput]
  refine Utf16.encode_decode fun hmem => ?_
  exact absurd (hchars _ hmem) (by decide)

/-- A destination that the program has read whole has one byte for each of its own. -/
theorem length_of_whole {destination : JsString} {input : LockInput}
    (h : Utf16.encode input.text = destination) :
    (utf8 destination).length = input.destination.length := by
  have hsize : ∀ c ∈ input.text, c.utf8Size = 1 := by
    intro c hc
    obtain ⟨b, hb, rfl⟩ := List.mem_map.mp hc
    have hlt : b.toNat < 128 := of_decide_eq_true (List.all_eq_true.mp input.ascii b hb)
    rw [Char.utf8Size_eq_one_iff, UInt32.le_iff_toNat_le]
    show (Char.ofNat b.toNat).toNat ≤ 127
    rw [Utf16.toNat_ofNat (Or.inl (by omega))]
    omega
  have hlength := Postcard.length_utf8_ofList hsize
  rw [Postcard.utf8_ofList] at hlength
  rw [utf8, ← h, Utf16.decode_encode, hlength]
  exact List.length_map ..

theorem depositData_exact_iff {tag : UInt8} (htag : IsLock tag) (amount : Int)
    (depositId : List UInt8) (destination : JsString) :
    SaysWhatIsRead tag amount depositId destination
        (depositData tag amount depositId destination) ↔
      depositId.length ≠ 32 ∨ ¬ Readable amount destination ∨ Fits amount destination := by
  by_cases hid : depositId.length = 32
  · have hdata : depositData tag amount depositId destination =
        .ok (tag :: (le64 amount ++ (depositId ++ (lengthBytes (utf8 destination).length ++
          utf8 destination)))) := by
      unfold depositData bytes32
      rw [if_neg (not_not.mpr hid)]
      rfl
    constructor
    · intro h
      by_cases hread : Readable amount destination
      · have hlock := (readLock_depositData hid).mpr ⟨hread, rfl⟩
        obtain ⟨l, accounts, l', haccepted⟩ := exists_accepted htag hlock
        obtain ⟨rest, input, hbytes, hlock', hamount, -, hdest⟩ :=
          h _ hdata _ l accounts l' haccepted
        obtain ⟨-, rfl⟩ := List.cons.inj hbytes
        rw [hlock] at hlock'
        cases hlock'
        have hlength := length_of_whole hdest
        have hshort : (kept destination).length ≤ 128 := by
          rw [length_kept]
          exact hread.short
        have hlt := (hread.input hid).amount.isLt
        refine Or.inr (Or.inr ⟨by omega, by omega, ?_⟩)
        rw [hlength]
        exact Nat.lt_of_le_of_lt hshort (by decide)
      · exact Or.inr (Or.inl hread)
    · intro h bytes hbytes C l accounts l' haccepted
      rw [hdata] at hbytes
      cases hbytes
      obtain ⟨input, hlock⟩ := readLock_of_process htag haccepted
      obtain ⟨hread, rfl⟩ := (readLock_depositData hid).mp hlock
      obtain ⟨hge, hlt, hlength⟩ := (h.resolve_left (not_not.mpr hid)).resolve_left
        (not_not.mpr hread)
      refine ⟨_, _, rfl, hlock, ?_, rfl, text_of_whole hlength hread hid⟩
      show ((BitVec.ofInt 64 amount).toNat : Int) = _
      rw [toNat_ofInt, Int.emod_eq_of_lt hge hlt]
  · refine iff_of_true (fun bytes hbytes => ?_) (Or.inl hid)
    unfold depositData bytes32 at hbytes
    rw [if_pos hid] at hbytes
    cases hbytes

/-- **The bytes say what is read**, or are refused, exactly where nothing is dropped, or what is
    left is refused. -/
theorem deposit_data_exact_iff (amount : Int) (depositId : List UInt8) (destination : JsString) :
    (SaysWhatIsRead tagLockNativeSol amount depositId destination
        (nativeSolDepositData amount depositId destination) ↔
      depositId.length ≠ 32 ∨ ¬ Readable amount destination ∨ Fits amount destination) ∧
    (SaysWhatIsRead tagLockNativeSolMna amount depositId destination
        (nativeSolMnaDepositData amount depositId destination) ↔
      depositId.length ≠ 32 ∨ ¬ Readable amount destination ∨ Fits amount destination) ∧
    (SaysWhatIsRead tagLockSpl amount depositId destination
        (splUsdcDepositData amount depositId destination) ↔
      depositId.length ≠ 32 ∨ ¬ Readable amount destination ∨ Fits amount destination) :=
  ⟨depositData_exact_iff (Or.inl rfl) amount depositId destination,
    depositData_exact_iff (Or.inr (Or.inl rfl)) amount depositId destination,
    depositData_exact_iff (Or.inr (Or.inr rfl)) amount depositId destination⟩

/-! ## 4. An amount and a destination that are cut off -/

namespace Sample

def depositId : List UInt8 := List.replicate 32 5

def alice : JsString := [97, 108, 105, 99, 101]

/-- A destination of 65541 characters. -/
def longDestination : JsString := List.replicate 65541 97

theorem decode_replicate (n : Nat) :
    Utf16.decode (List.replicate n 97) = List.replicate n 'a' := by
  induction n with
  | zero => rfl
  | succ n ih =>
    rw [List.replicate_succ, Utf16.decode_single (by decide), ih]
    rfl

theorem utf8_replicate (n : Nat) : utf8 (List.replicate n 97) = List.replicate n 97 := by
  rw [utf8, decode_replicate]
  induction n with
  | zero => rfl
  | succ n ih =>
    rw [List.replicate_succ, List.flatMap_cons, ih]
    rfl

theorem length_longDestination : (utf8 longDestination).length = 65541 := by
  rw [longDestination, utf8_replicate, List.length_replicate]

theorem kept_longDestination : kept longDestination = List.replicate 5 97 := by
  have hmin : min (65541 % 2 ^ 16) 65541 = 5 := by decide
  rw [kept, length_longDestination, longDestination, utf8_replicate, List.take_replicate, hmin]

theorem readable_alice {amount : Int} (h : amount % 2 ^ 64 ≠ 0) : Readable amount alice :=
  ⟨h, by decide, by decide, kept_ascii.mp rfl⟩

theorem readable_longDestination : Readable 5 longDestination where
  amount := by decide
  nonempty := by rw [length_longDestination]; decide
  short := by rw [length_longDestination]; decide
  ascii := by rw [kept_longDestination, List.forall_mem_replicate]; decide

end Sample

/-- An amount of 2^64 + 7 is deposited as 7, a destination of 65541 characters as its first five,
    and an amount of -1 as 2^64 - 1. -/
theorem deposits_cut_off :
    ¬ SaysWhatIsRead tagLockNativeSol (2 ^ 64 + 7) Sample.depositId Sample.alice
        (nativeSolDepositData (2 ^ 64 + 7) Sample.depositId Sample.alice) ∧
      ¬ SaysWhatIsRead tagLockNativeSolMna 5 Sample.depositId Sample.longDestination
        (nativeSolMnaDepositData 5 Sample.depositId Sample.longDestination) ∧
      ¬ SaysWhatIsRead tagLockSpl (-1) Sample.depositId Sample.alice
        (splUsdcDepositData (-1) Sample.depositId Sample.alice) := by
  refine ⟨fun h => ?_, fun h => ?_, fun h => ?_⟩
  · rcases (depositData_exact_iff (Or.inl rfl) _ _ _).mp h with h | h | h
    · exact h rfl
    · exact h (Sample.readable_alice (by decide))
    · exact absurd h.2.1 (by decide)
  · rcases (depositData_exact_iff (Or.inr (Or.inl rfl)) _ _ _).mp h with h | h | h
    · exact h rfl
    · exact h Sample.readable_longDestination
    · exact absurd h.2.2 (by rw [Sample.length_longDestination]; decide)
  · rcases (depositData_exact_iff (Or.inr (Or.inr rfl)) _ _ _).mp h with h | h | h
    · exact h rfl
    · exact h (Sample.readable_alice (by decide))
    · exact absurd h.1 (by decide)

end Sdk

end WorldstreetChain
