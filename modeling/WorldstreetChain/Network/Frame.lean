import WorldstreetChain.Network.Basic

/-!
# Messages and frames (`NetworkMessage`, `write_message`, `read_message`)

A message goes over a connection as its length in four bytes and its postcard bytes. Both ends
refuse a frame of more than 8 MiB: the writer writes nothing, and the connection ends.

* `NetworkMessage` -- the seven messages.
* `readMessage_writeMessage` -- **what is written is read**.
* `writeMessage_eq_ok` -- a message is written if it fits a frame.
-/

namespace WorldstreetChain

open Std Postcard

inductive NetworkMessage where
  | hello (chainId : String) (genesisHash : Hash) (height : U64) (nodeId : String)
  | getBlocks (first last : U64)
  | blocks (blocks : List Block)
  | getMempool
  | transactions (transactions : List Transaction)
  | transaction (transaction : Transaction)
  | vote (vote : Vote)
  deriving DecidableEq

/-! ## 1. The wire form -/

namespace NetworkMessage

def encodeMessage : NetworkMessage → List UInt8
  | .hello chainId genesisHash height nodeId =>
    encodeVariant 0 ++ encode (chainId, genesisHash, height, nodeId)
  | .getBlocks first last => encodeVariant 1 ++ encode (first, last)
  | .blocks bs => encodeVariant 2 ++ encode bs
  | .getMempool => encodeVariant 3
  | .transactions ts => encodeVariant 4 ++ encode ts
  | .transaction t => encodeVariant 5 ++ encode t
  | .vote v => encodeVariant 6 ++ encode v

/-- The payload of a variant. -/
def decodePayload (variant : Nat) (bytes : List UInt8) : Option (NetworkMessage × List UInt8) :=
  match variant with
  | 0 =>
    (decode (α := String × Hash × U64 × String) bytes).map fun r =>
      (.hello r.1.1 r.1.2.1 r.1.2.2.1 r.1.2.2.2, r.2)
  | 1 => (decode (α := U64 × U64) bytes).map fun r => (.getBlocks r.1.1 r.1.2, r.2)
  | 2 => (decode (α := List Block) bytes).map fun r => (.blocks r.1, r.2)
  | 3 => some (.getMempool, bytes)
  | 4 => (decode (α := List Transaction) bytes).map fun r => (.transactions r.1, r.2)
  | 5 => (decode (α := Transaction) bytes).map fun r => (.transaction r.1, r.2)
  | 6 => (decode (α := Vote) bytes).map fun r => (.vote r.1, r.2)
  | _ => none

theorem decodeVariant_encodeVariant {n : Nat} (h : n < 128) (rest : List UInt8) :
    decodeVariant (encodeVariant n ++ rest) = some (n, rest) :=
  readVarint_varint 4 15 (by decide) n (by omega) rest

instance : Postcard NetworkMessage where
  encode := encodeMessage
  decode bytes := (decodeVariant bytes).bind fun r => decodePayload r.1 r.2
  decode_encode m rest := by
    cases m <;>
      simp (disch := decide) only [encodeMessage, List.append_assoc, decodeVariant_encodeVariant,
        Option.bind_some, decodePayload, decode_encode, Option.map_some]

end NetworkMessage

/-! ## 2. Frames -/

def maxFrameBytes : Nat := 8 * 1024 * 1024

def writeMessage (message : NetworkMessage) : Outcome NetworkError (List UInt8) := do
  let payload := canonicalEncode message
  rejectIf (maxFrameBytes < payload.length) .invalidFrameLength
  let length ← orFail (if payload.length < 2 ^ 32 then some payload.length else none)
    .invalidFrameLength
  .ok (Unsigned.beBytes 4 length ++ payload)

/-- The next frame of a connection. A frame that does not arrive whole runs into the timeout. -/
def readMessage (bytes : List UInt8) : Outcome NetworkError (NetworkMessage × List UInt8) := do
  rejectIf (bytes.length < 4) .timeout
  let length := Unsigned.ofBeBytes (bytes.take 4)
  rejectIf (length = 0 ∨ maxFrameBytes < length) .invalidFrameLength
  rejectIf ((bytes.drop 4).length < length) .timeout
  let message ← orFail (canonicalDecode ((bytes.drop 4).take length)) .encoding
  .ok (message, (bytes.drop 4).drop length)

/-- **A message is written if it fits a frame**: its length and its bytes. -/
theorem writeMessage_eq_ok {message : NetworkMessage} {frame : List UInt8} :
    writeMessage message = .ok frame ↔ (canonicalEncode message).length ≤ maxFrameBytes ∧
      frame = Unsigned.beBytes 4 (canonicalEncode message).length ++ canonicalEncode message := by
  have hmax : maxFrameBytes < 2 ^ 32 := by decide
  unfold writeMessage
  rw [rejectIf_bind_eq_ok, Nat.not_lt]
  refine and_congr_right fun hle => ?_
  rw [if_pos (by omega), orFail_some]
  show Except.ok _ = Except.ok frame ↔ _
  rw [Except.ok.injEq, eq_comm]

/-- A message that fits no frame is not written. -/
theorem writeMessage_eq_error {message : NetworkMessage}
    (h : maxFrameBytes < (canonicalEncode message).length) :
    writeMessage message = .error (.err .invalidFrameLength) := by
  unfold writeMessage
  show (rejectIf (maxFrameBytes < (canonicalEncode message).length) _ >>= _) = _
  rw [rejectIf_pos h]
  rfl

/-- No message is written as nothing. -/
theorem canonicalEncode_message_ne_nil (message : NetworkMessage) :
    canonicalEncode message ≠ [] := by
  have hvariant : ∀ n, encodeVariant n ≠ [] := fun n => by
    unfold encodeVariant varint
    split
    · exact List.cons_ne_nil _ _
    · exact List.cons_ne_nil _ _
  cases message with
  | getMempool => exact hvariant 3
  | _ => exact List.append_ne_nil_of_left_ne_nil (hvariant _) _

/-- **What is written is read**, and the bytes behind it are left. -/
theorem readMessage_writeMessage {message : NetworkMessage} {frame : List UInt8}
    (h : writeMessage message = .ok frame) (rest : List UInt8) :
    readMessage (frame ++ rest) = .ok (message, rest) := by
  obtain ⟨hle, rfl⟩ := writeMessage_eq_ok.mp h
  generalize hpayload : canonicalEncode message = payload at hle
  have hmax : maxFrameBytes < 256 ^ 4 := by decide
  have hpos : payload.length ≠ 0 := fun hzero =>
    canonicalEncode_message_ne_nil message (hpayload.trans (List.length_eq_zero_iff.mp hzero))
  have htake : (Unsigned.beBytes 4 payload.length ++ payload ++ rest).take 4 =
      Unsigned.beBytes 4 payload.length := by
    rw [List.append_assoc, List.take_left' (Unsigned.length_beBytes 4 _)]
  have hdrop : (Unsigned.beBytes 4 payload.length ++ payload ++ rest).drop 4 = payload ++ rest := by
    rw [List.append_assoc, List.drop_left' (Unsigned.length_beBytes 4 _)]
  have hread : (canonicalDecode payload : Option NetworkMessage) = some message := by
    rw [← hpayload, canonicalDecode_canonicalEncode]
  unfold readMessage
  rw [htake, hdrop, Unsigned.ofBeBytes_beBytes (by omega)]
  refine rejectIf_bind_eq_ok.mpr ⟨?_, rejectIf_bind_eq_ok.mpr ⟨?_, rejectIf_bind_eq_ok.mpr ⟨?_,
    orFail_bind_eq_ok.mpr ⟨message, ?_, ?_⟩⟩⟩⟩
  · simp only [List.length_append, Unsigned.length_beBytes]
    omega
  · omega
  · rw [List.length_append]
    omega
  · rw [List.take_left]
    exact hread
  · rw [List.drop_left]

end WorldstreetChain
