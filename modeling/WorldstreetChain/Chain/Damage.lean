import WorldstreetChain.Chain.Formats
import WorldstreetChain.Library.Exact

/-!
# Damaged blocks (`decode_block`)

The reader tries three formats, and each attempt looks at the front of the bytes only. So bytes
behind a block are overlooked; and a block that is cut off in its later lists is no block any more,
but it begins with a block of an older format and is read as that one, without those lists.

* `decodeBlock_append` -- what stands behind a block is overlooked.
* `decodeBlock_cut` -- **what every beginning of a block is read as**.
* `decodeBlock_exact_iff` -- **when bytes that are read are the bytes of a block**: the first format
  that fits leaves nothing behind and has no number longer than it needs to be.
* `decodeBlock_emptied` -- a block cut off in its program operations is read without them.
-/

namespace WorldstreetChain

open Std Postcard

/-! ## 1. The shape of the records -/

instance : Exact Hash := by
  delta instPostcardHash
  exact .through fun _ => rfl

instance : Exact PublicKey := by
  delta instPostcardPublicKey
  exact .through fun _ => rfl

instance : Exact Signature := by
  delta instPostcardSignature
  exact .through fun _ => rfl

instance : Exact Address := by
  delta instPostcardAddress
  exact .through fun _ => rfl


instance : Exact AssetOperationKind := by
  delta instPostcardAssetOperationKind
  exact .ofVariants fun {n a} h => by
    split at h <;> cases h <;> rfl

instance : Exact MnaSwapKind := by
  delta instPostcardMnaSwapKind
  exact .ofVariants fun {n a} h => by
    split at h <;> cases h <;> rfl

instance : Exact MnaReserveOperationKind := by
  delta instPostcardMnaReserveOperationKind
  exact .ofVariants fun {n a} h => by
    split at h <;> cases h <;> rfl

instance : Exact TokenOperationKind := by
  delta instPostcardTokenOperationKind
  exact .ofVariants fun {n a} h => by
    split at h <;> cases h <;> rfl

instance : Exact ProgramOperationKind := by
  delta instPostcardProgramOperationKind
  exact .ofVariants fun {n a} h => by
    split at h <;> cases h <;> rfl

instance : Exact AssetId := by
  delta instPostcardAssetId
  exact .through fun _ => rfl

instance : Exact UnsignedTransaction := by
  delta instPostcardUnsignedTransaction
  exact .through fun _ => rfl

instance : Exact Transaction := by
  delta instPostcardTransaction
  exact .through fun _ => rfl

instance : Exact AssetOperation := by
  delta instPostcardAssetOperation
  exact .through fun _ => rfl

instance : Exact UnsignedMnaSwapOperation := by
  delta instPostcardUnsignedMnaSwapOperation
  exact .through fun _ => rfl

instance : Exact MnaSwapOperation := by
  delta instPostcardMnaSwapOperation
  exact .through fun _ => rfl

instance : Exact MnaReserveOperation := by
  delta instPostcardMnaReserveOperation
  exact .through fun _ => rfl

instance : Exact UnsignedTokenOperation := by
  delta instPostcardUnsignedTokenOperation
  exact .through fun _ => rfl

instance : Exact TokenOperation := by
  delta instPostcardTokenOperation
  exact .through fun _ => rfl

instance : Exact ProgramOperation := by
  delta instPostcardProgramOperation
  exact .through fun _ => rfl

instance : Exact BlockHeader := by
  delta instPostcardBlockHeader
  exact .through fun _ => rfl

instance : Exact Block := by
  delta instPostcardBlock
  exact .through fun _ => rfl

instance : Exact PreProgramBlock := by
  delta instPostcardPreProgramBlock
  exact .through fun _ => rfl

instance : Exact LegacyBlock := by
  delta instPostcardLegacyBlock
  exact .through fun _ => rfl


/-! ## 2. Beginnings of a block -/

def Block.preProgram (b : Block) : PreProgramBlock where
  header := b.header
  transactions := b.transactions
  assetOperations := b.assetOperations
  tokenOperations := b.tokenOperations
  mnaSwapOperations := b.mnaSwapOperations
  mnaReserveOperations := b.mnaReserveOperations

def Block.legacy (b : Block) : LegacyBlock where
  header := b.header
  transactions := b.transactions

theorem canonicalEncode_preProgram (b : Block) :
    canonicalEncode b = canonicalEncode b.preProgram ++ encode b.programOperations := by
  show encode _ ++ (encode _ ++ (encode _ ++ (encode _ ++ (encode _ ++ (encode _ ++ encode _))))) =
    encode _ ++ (encode _ ++ (encode _ ++ (encode _ ++ (encode _ ++ encode _)))) ++ encode _
  simp only [List.append_assoc]
  rfl

theorem canonicalEncode_legacy (b : Block) :
    ∃ later, canonicalEncode b = canonicalEncode b.legacy ++ later := by
  refine ⟨encode (b.assetOperations, b.tokenOperations, b.mnaSwapOperations,
    b.mnaReserveOperations, b.programOperations), ?_⟩
  show encode _ ++ (encode _ ++ _) = encode _ ++ encode _ ++ _
  simp only [List.append_assoc]
  rfl

/-- A format whose bytes begin a block's, on a part of the block's bytes. -/
theorem canonicalDecode_of_part {α : Type} [Postcard α] [Exact α] {a : α}
    {part bytes : List UInt8} (h : part <+: bytes)
    (hbytes : ∃ later, bytes = canonicalEncode a ++ later) :
    (canonicalDecode part : Option α) =
      if canonicalEncode a <+: part then some a else none := by
  obtain ⟨later, rfl⟩ := hbytes
  unfold canonicalDecode fromBytes
  split
  · rename_i hwhole
    obtain ⟨rest, hrest⟩ := hwhole
    have hread : decode part = some (a, rest) :=
      (Exact.decode_of_part h).mpr ⟨rfl, hrest.symm⟩
    rw [hread]
    rfl
  · rename_i hshort
    rw [Exact.decode_eq_none_of_part h hshort]
    rfl

/-- **What every beginning of a block is read as**: the newest format that is there whole. -/
theorem decodeBlock_cut {b : Block} {part : List UInt8} (h : part <+: canonicalEncode b) :
    decodeBlock part =
      if canonicalEncode b <+: part then .ok b
      else if canonicalEncode b.preProgram <+: part then .ok b.preProgram.upgrade
      else if canonicalEncode b.legacy <+: part then .ok b.legacy.upgrade
      else .error (.err .corrupt) := by
  unfold decodeBlock
  rw [canonicalDecode_of_part (a := b) h ⟨[], (List.append_nil _).symm⟩,
    canonicalDecode_of_part (a := b.preProgram) h ⟨_, canonicalEncode_preProgram b⟩,
    canonicalDecode_of_part (a := b.legacy) h (canonicalEncode_legacy b)]
  split
  · rfl
  · split
    · rfl
    · split
      · rfl
      · rfl

/-- What stands behind a block is overlooked. -/
theorem decodeBlock_append (b : Block) (more : List UInt8) :
    decodeBlock (canonicalEncode b ++ more) = .ok b := by
  unfold decodeBlock canonicalDecode fromBytes canonicalEncode
  rw [decode_encode]
  rfl

/-! ## 3. The bytes of a block -/

/-- The bytes are those of a block of some format. -/
def WrittenBlock (value : List UInt8) : Prop :=
  (∃ b : Block, value = canonicalEncode b) ∨
    (∃ b : PreProgramBlock, value = canonicalEncode b) ∨
    ∃ b : LegacyBlock, value = canonicalEncode b

/-- A format that fits the front of the bytes, if it does: whether it leaves nothing behind and has
    each number in its shortest form. -/
def fits (α : Type) [Postcard α] [Exact α] (value : List UInt8) : Option Bool :=
  (decode (α := α) value).map fun r => r.2.isEmpty && Exact.shortest α value

/-- The same of the first format that fits. -/
def firstFit (value : List UInt8) : Option Bool :=
  fits Block value <|> fits PreProgramBlock value <|> fits LegacyBlock value

section Fits

variable {α : Type} [Postcard α] [Exact α] {value : List UInt8}

theorem fits_eq_none_iff : fits α value = none ↔ (canonicalDecode value : Option α) = none := by
  unfold fits canonicalDecode fromBytes
  rw [Option.map_eq_none_iff, Option.map_eq_none_iff]

/-- **A format fits exactly if the bytes are those of one of its values.** -/
theorem fits_eq_true_iff : fits α value = some true ↔ ∃ a : α, value = canonicalEncode a := by
  unfold fits
  rw [Option.map_eq_some_iff]
  constructor
  · intro ⟨⟨a, rest⟩, hread, hexact⟩
    obtain ⟨hrest, hshortest⟩ := Bool.and_eq_true_iff.mp hexact
    refine ⟨a, ?_⟩
    have hnone : rest = [] := List.isEmpty_iff.mp hrest
    rw [(Exact.decode_exact hread).mp hshortest, hnone, List.append_nil]
    rfl
  · intro ⟨a, ha⟩
    have hread : decode value = some (a, []) := by
      rw [ha, ← List.append_nil (canonicalEncode a)]
      exact decode_encode a []
    refine ⟨(a, []), hread, Bool.and_eq_true_iff.mpr ⟨rfl, (Exact.decode_exact hread).mpr ?_⟩⟩
    rw [ha, List.append_nil]
    rfl

/-- No newer format fits the bytes of an older one. -/
theorem fits_of_runsOut {β : Type} [Postcard β] [Exact β] (h : RunsOut α β)
    (hfits : fits α value = some true) : fits β value = none := by
  obtain ⟨a, rfl⟩ := fits_eq_true_iff.mp hfits
  exact fits_eq_none_iff.mpr (canonicalDecode_runsOut h a)

end Fits

/-- The bytes of a block of some format are what the first format that fits takes whole. -/
theorem firstFit_eq_true_iff {value : List UInt8} :
    firstFit value = some true ↔ WrittenBlock value := by
  unfold firstFit WrittenBlock
  rw [← fits_eq_true_iff, ← fits_eq_true_iff, ← fits_eq_true_iff]
  constructor
  · intro h
    rcases hblock : fits Block value with _ | whole
    · rw [hblock] at h
      rcases hpre : fits PreProgramBlock value with _ | whole
      · rw [hpre] at h
        exact Or.inr (Or.inr h)
      · rw [hpre] at h
        exact Or.inr (Or.inl h)
    · rw [hblock] at h
      exact Or.inl h
  · intro h
    rcases h with h | h | h
    · rw [h]
      rfl
    · rw [fits_of_runsOut runsOut_preProgramBlock h, h]
      rfl
    · rw [fits_of_runsOut runsOut_legacyBlock_block h, fits_of_runsOut runsOut_legacyBlock h, h]
      rfl

/-- What some format fits is read, and nothing else. -/
theorem decodeBlock_isOk_iff {value : List UInt8} :
    (decodeBlock value).isOk = true ↔ firstFit value ≠ none := by
  unfold decodeBlock firstFit fits canonicalDecode fromBytes
  rcases decode (α := Block) value with _ | r
  · rcases decode (α := PreProgramBlock) value with _ | r
    · rcases decode (α := LegacyBlock) value with _ | r
      · exact ⟨fun h => (by cases h), fun h => absurd rfl h⟩
      · exact ⟨fun _ h => (by cases h), fun _ => rfl⟩
    · exact ⟨fun _ h => (by cases h), fun _ => rfl⟩
  · exact ⟨fun _ h => (by cases h), fun _ => rfl⟩

/-- **Bytes that are read are the bytes of a block** exactly where the first format that fits them
    leaves nothing behind and has no number longer than it needs to be, or where none fits. -/
theorem decodeBlock_exact_iff (value : List UInt8) :
    ((decodeBlock value).isOk = true → WrittenBlock value) ↔ firstFit value ≠ some false := by
  rw [decodeBlock_isOk_iff, ← firstFit_eq_true_iff]
  rcases firstFit value with _ | whole
  · exact ⟨fun _ h => (by cases h), fun _ h => absurd rfl h⟩
  · cases whole with
    | false =>
      constructor
      · intro h _
        have hwritten := h fun hnone => by cases hnone
        cases hwritten
      · intro h
        exact absurd rfl h
    | true => exact ⟨fun _ h => (by cases h), fun _ _ => rfl⟩

/-- **A block cut off in its program operations** is read without them, and what is read is not what
    a block is written as. -/
theorem decodeBlock_emptied {b : Block} {part : List UInt8} (h : part <+: encode b.programOperations)
    (hshort : part ≠ encode b.programOperations) (hpart : part ≠ []) :
    decodeBlock (canonicalEncode b.preProgram ++ part) = .ok { b with programOperations := [] } ∧
      ¬ WrittenBlock (canonicalEncode b.preProgram ++ part) := by
  have hread : decode (canonicalEncode b.preProgram ++ part) = some (b.preProgram, part) :=
    decode_encode b.preProgram part
  have hprefix : canonicalEncode b.preProgram ++ part <+: canonicalEncode b := by
    rw [canonicalEncode_preProgram]
    exact (List.prefix_append_right_inj _).mpr h
  have hnot : ¬ canonicalEncode b <+: canonicalEncode b.preProgram ++ part := by
    intro hle
    rw [canonicalEncode_preProgram] at hle
    have hle' := (List.prefix_append_right_inj _).mp hle
    exact hshort (h.eq_of_length (Nat.le_antisymm h.length_le hle'.length_le))
  have hblock : (canonicalDecode (canonicalEncode b.preProgram ++ part) : Option Block) = none := by
    rw [canonicalDecode_of_part (a := b) hprefix ⟨[], (List.append_nil _).symm⟩, if_neg hnot]
  constructor
  · rw [decodeBlock_cut hprefix, if_neg hnot, if_pos (List.prefix_append _ _)]
    rfl
  · rw [← firstFit_eq_true_iff]
    unfold firstFit
    rw [fits_eq_none_iff.mpr hblock]
    have hfit : fits PreProgramBlock (canonicalEncode b.preProgram ++ part) = some false := by
      unfold fits
      rw [hread]
      show some (part.isEmpty && _) = some false
      rw [List.isEmpty_eq_false_iff.mpr hpart, Bool.false_and]
    rw [hfit]
    exact fun h => by cases h

/-- A block with one program operation. -/
def deployBlock : Block where
  header :=
    { version := 1
      chainId := "worldstreet-devnet"
      height := 7
      parentHash := Hash.zero
      timestamp := 1700000000
      transactionRoot := Hash.zero
      stateRoot := Hash.zero
      proposer := none
      proposerSignature := none }
  transactions := []
  assetOperations := []
  tokenOperations := []
  mnaSwapOperations := []
  mnaReserveOperations := []
  programOperations :=
    [{ version := 1
       chainId := "worldstreet-devnet"
       kind := .call
       nonce := 1
       fee := 20
       programId := "prog"
       package := []
       gasLimit := 10
       key := "key"
       value := "value"
       publicKey := ⟨Vector.replicate 32 1⟩
       signature := ⟨Vector.replicate 64 2⟩ }]

/-- The block's bytes up to the number of its program operations, and the block's bytes with one
    more behind them: both are read, the first as a block without the operation. -/
theorem damaged_blocks_read :
    ¬ (∀ value : List UInt8, (decodeBlock value).isOk = true → WrittenBlock value) ∧
    (canonicalEncode deployBlock.preProgram ++ [1] <+: canonicalEncode deployBlock ∧
      decodeBlock (canonicalEncode deployBlock.preProgram ++ [1]) =
        .ok { deployBlock with programOperations := [] }) ∧
    decodeBlock (canonicalEncode deployBlock ++ [0]) = .ok deployBlock := by
  have hpart : [1] <+: encode deployBlock.programOperations := ⟨_, rfl⟩
  have hshort : [1] ≠ encode deployBlock.programOperations := fun h => by
    have hlength := (List.cons.inj h).2
    cases hlength
  obtain ⟨hread, hnot⟩ := decodeBlock_emptied hpart hshort (by decide)
  refine ⟨fun h => hnot (h _ ?_), ⟨?_, hread⟩, decodeBlock_append deployBlock [0]⟩
  · rw [hread]
    rfl
  · rw [canonicalEncode_preProgram]
    exact (List.prefix_append_right_inj _).mpr hpart

end WorldstreetChain
