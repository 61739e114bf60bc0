import WorldstreetChain.Core.Types
import WorldstreetChain.Ethereum.Bridge

/-!
# Call data of the contracts

The arguments of a call are words of 32 bytes, big-endian, behind the four bytes that select the
function. Text is behind the words: its word is the offset of its length, the length is the word in
front of its bytes. Code of the compiler reads them before the function runs, and reverts where the
data is too short.

* `Ethereum.abiWord`, `Ethereum.readWord` -- words written and read.
* `Ethereum.readDeposit` -- the arguments of `deposit(bytes32,uint256,string)`.
* `Ethereum.UsdcReserve.callDeposit` -- the call.
* `Ethereum.readDeposit_depositArguments` -- **the arguments are read back**.
-/

namespace WorldstreetChain

namespace Ethereum

/-! ## 1. Words -/

/-- The number of bytes in big-endian order. -/
def beNat (bytes : List UInt8) : Nat := bytes.foldl (fun n b => 256 * n + b.toNat) 0

/-- The last `k` bytes of a number. -/
def beBytes : Nat → Nat → List UInt8
  | 0, _ => []
  | k + 1, n => beBytes k (n / 256) ++ [UInt8.ofNat (n % 256)]

def abiWord (n : Nat) : List UInt8 := beBytes 32 n

theorem length_beBytes (k n : Nat) : (beBytes k n).length = k := by
  induction k generalizing n with
  | zero => rfl
  | succ k ih => rw [beBytes, List.length_append, ih, List.length_singleton]

theorem length_abiWord (n : Nat) : (abiWord n).length = 32 := length_beBytes 32 n

theorem beNat_beBytes (k n : Nat) : beNat (beBytes k n) = n % 256 ^ k := by
  unfold beNat
  induction k generalizing n with
  | zero => rw [beBytes, List.foldl_nil, Nat.pow_zero, Nat.mod_one]
  | succ k ih =>
    have hbyte : (UInt8.ofNat (n % 256)).toNat = n % 256 :=
      UInt8.toNat_ofNat_of_lt' (Nat.mod_lt n (by decide))
    rw [beBytes, List.foldl_append, ih, List.foldl_cons, List.foldl_nil, hbyte, Nat.pow_succ',
      Nat.mod_mul, Nat.add_comm]

theorem beNat_abiWord {n : Nat} (h : n < 2 ^ 256) : beNat (abiWord n) = n := by
  rw [abiWord, beNat_beBytes]
  exact Nat.mod_eq_of_lt (Nat.lt_of_lt_of_le h (by decide))

/-- The word at an offset, if there are 32 bytes. -/
def readWord (data : List UInt8) (offset : Nat) : Option (List UInt8) :=
  if offset + 32 ≤ data.length then some ((data.drop offset).take 32) else none

theorem readWord_append {a word rest : List UInt8} {offset : Nat} (ha : a.length = offset)
    (hword : word.length = 32) : readWord (a ++ (word ++ rest)) offset = some word := by
  have hle : offset + 32 ≤ (a ++ (word ++ rest)).length := by
    rw [List.length_append, List.length_append]
    omega
  rw [readWord, if_pos hle, ← ha, List.drop_left, ← hword, List.take_left]

/-! ## 2. The arguments of `deposit` -/

def toBytes32 (bytes : List UInt8) : Option Bytes32 :=
  if h : bytes.toArray.size = 32 then some ⟨bytes.toArray, h⟩ else none

/-- A text at an offset: its length, in 64 bits, and then its bytes. -/
def readBytes (data : List UInt8) (offset : Nat) : Option (List UInt8) := do
  let length := beNat (← readWord data offset)
  if 2 ^ 64 ≤ length ∨ data.length < offset + 32 + length then none
  else some ((data.drop (offset + 32)).take length)

/-- The arguments of `deposit(bytes32,uint256,string)`; `none` is a revert. -/
def readDeposit (data : List UInt8) : Option (Bytes32 × Nat × List UInt8) := do
  let depositId ← toBytes32 (← readWord data 0)
  let amount := beNat (← readWord data 32)
  let offset := beNat (← readWord data 64)
  if 2 ^ 64 ≤ offset then none
  else some (depositId, amount, ← readBytes data offset)

/-- The bytes that select `deposit(bytes32,uint256,string)`. -/
def depositSelector : List UInt8 := [0xf3, 0xcc, 0x53, 0x89]

/-- A transaction with the selector of `deposit`; data that is too short reverts without a text. -/
def UsdcReserve.callDeposit (b : UsdcReserve) (sender : Address) (data : List UInt8)
    (moved : Bool) : Outcome String (UsdcReserve × DepositEvent) := do
  rejectIf (data.take 4 ≠ depositSelector) ""
  let (depositId, amount, destination) ← orFail (readDeposit (data.drop 4)) ""
  b.deposit sender depositId amount destination moved

/-- Bytes, filled up to whole words. -/
def padded (bytes : List UInt8) : List UInt8 :=
  bytes ++ List.replicate ((32 - bytes.length % 32) % 32) 0

def depositArguments (depositId : Bytes32) (amount : Nat) (destination : List UInt8) :
    List UInt8 :=
  depositId.toList ++ (abiWord amount ++ (abiWord 96 ++ (abiWord destination.length ++
    padded destination)))

theorem toBytes32_toList (id : Bytes32) : toBytes32 id.toList = some id := by
  have hsize : id.toList.toArray.size = 32 := by simp
  rw [toBytes32, dif_pos hsize]
  congr 1

/-- **The arguments are read back.** -/
theorem readDeposit_depositArguments (depositId : Bytes32) {amount : Nat}
    {destination : List UInt8} (hamount : amount < 2 ^ 256)
    (hlength : destination.length < 2 ^ 64) :
    readDeposit (depositArguments depositId amount destination) =
      some (depositId, amount, destination) := by
  have hid : depositId.toList.length = 32 := Vector.length_toList
  have h1 := length_abiWord amount
  have h2 := length_abiWord 96
  have h3 := length_abiWord destination.length
  have hword0 : readWord (depositArguments depositId amount destination) 0 =
      some depositId.toList :=
    readWord_append (a := []) rfl hid
  have hword1 : readWord (depositArguments depositId amount destination) 32 =
      some (abiWord amount) :=
    readWord_append hid h1
  have hsplit : depositArguments depositId amount destination =
      (depositId.toList ++ abiWord amount) ++ (abiWord 96 ++ (abiWord destination.length ++
        padded destination)) := by
    rw [depositArguments, List.append_assoc]
  have hword2 : readWord (depositArguments depositId amount destination) 64 =
      some (abiWord 96) := by
    rw [hsplit]
    exact readWord_append (by rw [List.length_append, hid, h1]) h2
  have hsplit' : depositArguments depositId amount destination =
      (depositId.toList ++ abiWord amount ++ abiWord 96) ++ (abiWord destination.length ++
        padded destination) := by
    rw [hsplit, List.append_assoc (depositId.toList ++ abiWord amount)]
  have hhead : (depositId.toList ++ abiWord amount ++ abiWord 96).length = 96 := by
    rw [List.length_append, List.length_append, hid, h1, h2]
  have hword3 : readWord (depositArguments depositId amount destination) 96 =
      some (abiWord destination.length) := by
    rw [hsplit']
    exact readWord_append hhead h3
  have htail : (depositArguments depositId amount destination).drop 128 = padded destination := by
    rw [hsplit', show 128 = 96 + 32 from rfl, ← List.drop_drop, List.drop_left' hhead,
      List.drop_left' h3]
  have htotal : 128 + destination.length ≤ (depositArguments depositId amount destination).length := by
    rw [hsplit', List.length_append, hhead, List.length_append, h3, padded, List.length_append]
    omega
  have hlong : beNat (abiWord destination.length) = destination.length :=
    beNat_abiWord (by omega)
  have hbytes : readBytes (depositArguments depositId amount destination) 96 =
      some destination := by
    simp only [readBytes, hword3, hlong, Option.bind_eq_bind, Option.bind_some]
    rw [if_neg (by omega), htail, padded, List.take_left]
  have hoffset : beNat (abiWord 96) = 96 := beNat_abiWord (by decide)
  simp only [readDeposit, hword0, hword1, hword2, toBytes32_toList, hoffset, hbytes,
    beNat_abiWord hamount, Option.bind_eq_bind, Option.bind_some]
  rw [if_neg (by decide)]

theorem UsdcReserve.callDeposit_arguments (b : UsdcReserve) (sender : Address)
    (depositId : Bytes32) {amount : Nat} {destination : List UInt8} (hamount : amount < 2 ^ 256)
    (hlength : destination.length < 2 ^ 64) (moved : Bool) :
    b.callDeposit sender (depositSelector ++ depositArguments depositId amount destination) moved =
      b.deposit sender depositId amount destination moved := by
  have htake : (depositSelector ++ depositArguments depositId amount destination).take 4 =
      depositSelector := rfl
  have hdrop : (depositSelector ++ depositArguments depositId amount destination).drop 4 =
      depositArguments depositId amount destination := rfl
  unfold UsdcReserve.callDeposit
  rw [htake, rejectIf_neg (not_not.mpr rfl), Outcome.ok_bind, hdrop,
    readDeposit_depositArguments depositId hamount hlength, orFail_some, Outcome.ok_bind]

end Ethereum

end WorldstreetChain
