import WorldstreetChain.Ethereum.Bridge
import WorldstreetChain.Relayer.Deposits

/-!
# Logs of the contracts

The data of a `Deposit` event is the amount, the offset of the destination, its length and its
bytes, filled up to whole words. The relayer reads the amount and the destination off it, unless
the destination is no text.

* `Relayer.eventLog` -- the log of an event.
* `Relayer.decodeDeposit_eventLog` -- **what is read off an event's data**: its amount and its
  destination, if that is text.
-/

namespace WorldstreetChain

namespace Relayer

open Ethereum

/-! ## 1. Words -/

/-- The last hexadecimal digits of a number. -/
def hexValues : Nat → Nat → List Nat
  | 0, _ => []
  | k + 1, n => hexValues k (n / 16) ++ [n % 16]

/-- A word of 32 bytes. -/
def wordDigits (n : Nat) : List Char := (hexValues 64 n).map Nat.digitChar

theorem hexValues_lt (k n : Nat) : ∀ v ∈ hexValues k n, v < 16 := by
  induction k generalizing n with
  | zero =>
    intro v hv
    cases hv
  | succ k ih =>
    intro v hv
    rcases List.mem_append.mp hv with hv | hv
    · exact ih _ v hv
    · rw [List.mem_singleton.mp hv]
      exact Nat.mod_lt n (by decide)

theorem length_hexValues (k n : Nat) : (hexValues k n).length = k := by
  induction k generalizing n with
  | zero => rfl
  | succ k ih => rw [hexValues, List.length_append, ih, List.length_singleton]

theorem length_wordDigits (n : Nat) : (wordDigits n).length = 64 := by
  rw [wordDigits, List.length_map, length_hexValues]

theorem foldl_hexValues (k n : Nat) :
    (hexValues k n).foldl (fun m v => 16 * m + v) 0 = n % 16 ^ k := by
  induction k generalizing n with
  | zero => rw [hexValues, List.foldl_nil, Nat.pow_zero, Nat.mod_one]
  | succ k ih =>
    rw [hexValues, List.foldl_append, ih, List.foldl_cons, List.foldl_nil, Nat.pow_succ',
      Nat.mod_mul, Nat.add_comm]

theorem mapM_hexValue {values : List Nat} (h : ∀ v ∈ values, v < 16) :
    (values.map Nat.digitChar).mapM Rpc.hexValue = some values := by
  induction values with
  | nil => rfl
  | cons v values ih =>
    rw [List.map_cons, List.mapM_cons, Rpc.hexValue_digitChar v (h v List.mem_cons_self),
      ih fun w hw => h w (List.mem_cons_of_mem v hw)]
    rfl

/-- A word is read as the number it was written from. -/
theorem int16_wordDigits {n : Nat} (h : n < 2 ^ 256) : int16 (wordDigits n) = .ok n := by
  have hne : ¬ wordDigits n = [] := by
    intro hnil
    have hlength := length_wordDigits n
    rw [hnil] at hlength
    cases hlength
  have hvalues : (wordDigits n).mapM Rpc.hexValue = some (hexValues 64 n) :=
    mapM_hexValue (hexValues_lt 64 n)
  have hvalue := foldl_hexValues 64 n
  rw [Nat.mod_eq_of_lt (Nat.lt_of_lt_of_le h (by decide))] at hvalue
  unfold int16
  rw [rejectIf_bind_eq_ok]
  refine ⟨hne, Outcome.bind_eq_ok.mpr ⟨hexValues 64 n, ?_, ?_⟩⟩
  · rw [hvalues, orFail_some]
  · rw [hvalue]

/-- An id is read as the one it was written from. -/
theorem parseHash_toHex (h : Hash) : Rpc.parseHash h.toHex = .ok h := by
  have hlength : h.bytes.toList.length = 32 := Vector.length_toList
  unfold Rpc.parseHash
  rw [Hash.toList_toHex, Rpc.hexDecode_hexByte]
  show (if h' : h.bytes.toList.length = 32 then _ else _) = _
  rw [dif_pos hlength]
  congr 1

/-! ## 2. Events -/

/-- Bytes, filled up to whole words. -/
def paddedDigits (bytes : List UInt8) : List Char :=
  bytes.flatMap hexByte ++ List.replicate (2 * ((32 - bytes.length % 32) % 32)) '0'

/-- The data of an event: the amount, and the destination behind its offset and its length. -/
def eventDigits (e : DepositEvent) : List Char :=
  wordDigits e.amount ++ (wordDigits 64 ++ (wordDigits e.destination.length ++
    paddedDigits e.destination))

theorem hexDigit_digitChars : ∀ n < 16, hexDigit (Nat.digitChar n) = true := by
  decide

theorem wordDigits_hex (n : Nat) : (wordDigits n).all hexDigit = true := by
  refine List.all_eq_true.mpr fun c hc => ?_
  obtain ⟨v, hv, rfl⟩ := List.mem_map.mp hc
  exact hexDigit_digitChars v (hexValues_lt 64 n v hv)

theorem paddedDigits_hex (bytes : List UInt8) : (paddedDigits bytes).all hexDigit = true := by
  refine List.all_eq_true.mpr fun c hc => ?_
  rcases List.mem_append.mp hc with hc | hc
  · obtain ⟨b, -, hb⟩ := List.mem_flatMap.mp hc
    have hlt := b.toNat_lt
    simp only [hexByte, List.mem_cons, List.not_mem_nil, or_false] at hb
    rcases hb with rfl | rfl
    · exact hexDigit_digitChars _ (by omega)
    · exact hexDigit_digitChars _ (by omega)
  · rw [List.eq_of_mem_replicate hc]
    decide

theorem eventDigits_hex (e : DepositEvent) : (eventDigits e).all hexDigit = true := by
  unfold eventDigits
  rw [List.all_append, List.all_append, List.all_append, wordDigits_hex, wordDigits_hex,
    wordDigits_hex, paddedDigits_hex]
  rfl

/-- The log of an event, in the transaction and the block it is emitted in. -/
def eventLog (topic : String) (e : DepositEvent) (transactionHash : String) (blockNumber : Nat) :
    DepositLog where
  topics := [topic, "0x" ++ Hash.toHex ⟨e.depositId⟩,
    "0x" ++ String.ofList (List.replicate 24 '0') ++ hexString e.sender.toList]
  digits := eventDigits e
  transactionHash := "0x" ++ transactionHash
  blockNumber := blockNumber
  hex := eventDigits_hex e

theorem removePrefix_append (lead text : List Char) : removePrefix lead (lead ++ text) = text := by
  have hlead : lead.isPrefixOf (lead ++ text) = true :=
    List.isPrefixOf_iff_prefix.mpr (List.prefix_append lead text)
  rw [removePrefix, if_pos hlead, List.drop_left]

/-- **What is read off an event's data** is its amount and its destination, if that is text. -/
theorem decodeDeposit_eventLog {e : DepositEvent} (hamount : e.amount < 2 ^ 256)
    (hlength : e.destination.length < 2 ^ 256) (topic transactionHash : String)
    (blockNumber : Nat) :
    decodeDeposit (eventLog topic e transactionHash blockNumber).data = (do
      let destination ← orFail (String.fromUTF8? ⟨e.destination.toArray⟩) .value
      .ok (e.amount, destination)) := by
  have h1 := length_wordDigits e.amount
  have h2 := length_wordDigits 64
  have h3 := length_wordDigits e.destination.length
  have hraw : removePrefix "0x".toList (eventLog topic e transactionHash blockNumber).data =
      eventDigits e := removePrefix_append _ _
  have htake : (eventDigits e).take 64 = wordDigits e.amount := List.take_left' h1
  have hdrop : (eventDigits e).drop 64 = wordDigits 64 ++ (wordDigits e.destination.length ++
      paddedDigits e.destination) := List.drop_left' h1
  have hoffset : ((eventDigits e).drop 64).take 64 = wordDigits 64 := by
    rw [hdrop]
    exact List.take_left' h2
  have hdrop2 : (eventDigits e).drop 128 = wordDigits e.destination.length ++
      paddedDigits e.destination := by
    rw [show 128 = 64 + 64 from rfl, ← List.drop_drop, hdrop]
    exact List.drop_left' h2
  have hcount : ((eventDigits e).drop 128).take 64 = wordDigits e.destination.length := by
    rw [hdrop2]
    exact List.take_left' h3
  have hbytes : ((eventDigits e).drop 192).take (e.destination.length * 2) =
      e.destination.flatMap hexByte := by
    have hdouble : (e.destination.flatMap hexByte).length = e.destination.length * 2 := by
      rw [length_flatMap_hexByte, Nat.mul_comm]
    rw [show 192 = 128 + 64 from rfl, ← List.drop_drop, hdrop2, List.drop_left' h3, paddedDigits]
    exact List.take_left' hdouble
  have htotal : 192 ≤ (eventDigits e).length := by
    unfold eventDigits
    rw [List.length_append, List.length_append, List.length_append, h1, h2, h3]
    omega
  unfold decodeDeposit
  rw [hraw]
  dsimp only
  rw [rejectIf_neg (by omega), Outcome.ok_bind, htake, int16_wordDigits hamount, Outcome.ok_bind,
    hoffset, int16_wordDigits (by decide), Outcome.ok_bind, rejectIf_neg (by omega),
    Outcome.ok_bind, hcount, int16_wordDigits hlength, Outcome.ok_bind, hbytes, Rpc.hexDecode_hexByte,
    orFail_some, Outcome.ok_bind]

end Relayer

end WorldstreetChain
