import WorldstreetChain.State.Root

/-!
# The store (`wsc-storage`)

Blocks, state and heights live in five trees of byte strings. A call that writes makes a list of
insertions in program order and ends with a flush. An insertion can fail: then the call returns
the error and the insertions before it stay.

* `Store.get_insertAll` -- **what a list of insertions leaves** under a key.
* `Store.getBlock_commit`, `Store.getTransaction_commit` -- a commit stores its block and its
  transactions.
* `Store.getTransaction_mono` -- no call loses a stored transaction, failing or not.
* `Store.ensureGenesis_empty` -- the store of a fresh directory.
-/

namespace WorldstreetChain

open Std Postcard

inductive StorageError where
  | database
  | missing
  | corrupt
  | chainIdMismatch
  | genesisMismatch
  deriving DecidableEq

/-! ## 1. Stored records and their older formats -/

structure LegacyBlock where
  header : BlockHeader
  transactions : List Transaction

structure PreProgramBlock where
  header : BlockHeader
  transactions : List Transaction
  assetOperations : List AssetOperation
  tokenOperations : List TokenOperation
  mnaSwapOperations : List MnaSwapOperation
  mnaReserveOperations : List MnaReserveOperation

instance : Postcard LegacyBlock :=
  through (fun b => (b.header, b.transactions)) (fun (h, t) => ⟨h, t⟩) fun _ => rfl

instance : Postcard PreProgramBlock :=
  through
    (fun b => (b.header, b.transactions, b.assetOperations, b.tokenOperations,
      b.mnaSwapOperations, b.mnaReserveOperations))
    (fun (h, t, a, k, s, r) => ⟨h, t, a, k, s, r⟩) fun _ => rfl

def LegacyBlock.upgrade (b : LegacyBlock) : Block where
  header := b.header
  transactions := b.transactions
  assetOperations := []
  tokenOperations := []
  mnaSwapOperations := []
  mnaReserveOperations := []
  programOperations := []

def PreProgramBlock.upgrade (b : PreProgramBlock) : Block where
  header := b.header
  transactions := b.transactions
  assetOperations := b.assetOperations
  tokenOperations := b.tokenOperations
  mnaSwapOperations := b.mnaSwapOperations
  mnaReserveOperations := b.mnaReserveOperations
  programOperations := []

def decodeBlock (value : List UInt8) : Outcome StorageError Block :=
  orFail
    ((canonicalDecode value : Option Block)
      <|> (canonicalDecode value).map PreProgramBlock.upgrade
      <|> (canonicalDecode value).map LegacyBlock.upgrade)
    .corrupt

def LegacyStateSnapshot.upgrade (p : LegacyStateSnapshot) : StateSnapshot where
  chainId := p.chainId
  feeMinimum := p.feeMinimum
  feePool := p.feePool
  accounts := p.accounts
  assetBalances := ∅
  processedAssetOperations := ∅
  assetOperationRecords := ∅
  tokenDefinitions := ∅
  processedTokenOperations := ∅
  tokenOperationRecords := ∅
  frozenTokenAccounts := ∅
  mnaReserveLedger := {}
  processedMnaSwapOperations := ∅
  mnaSwapOperationRecords := ∅
  processedMnaReserveOperations := ∅
  mnaReserveOperationRecords := ∅
  programs := ∅
  programReceipts := ∅
  closedPrograms := ∅

def LegacyAssetStateSnapshot.upgrade (p : LegacyAssetStateSnapshot) : StateSnapshot where
  chainId := p.chainId
  feeMinimum := p.feeMinimum
  feePool := p.feePool
  accounts := p.accounts
  assetBalances := p.assetBalances
  processedAssetOperations := p.processedAssetOperations
  assetOperationRecords := p.assetOperationRecords
  tokenDefinitions := ∅
  processedTokenOperations := ∅
  tokenOperationRecords := ∅
  frozenTokenAccounts := ∅
  mnaReserveLedger := {}
  processedMnaSwapOperations := ∅
  mnaSwapOperationRecords := ∅
  processedMnaReserveOperations := ∅
  mnaReserveOperationRecords := ∅
  programs := ∅
  programReceipts := ∅
  closedPrograms := ∅

def PreProgramStateSnapshot.upgrade (p : PreProgramStateSnapshot) : StateSnapshot where
  chainId := p.chainId
  feeMinimum := p.feeMinimum
  feePool := p.feePool
  accounts := p.accounts
  assetBalances := p.assetBalances
  processedAssetOperations := p.processedAssetOperations
  assetOperationRecords := p.assetOperationRecords
  tokenDefinitions := p.tokenDefinitions
  processedTokenOperations := p.processedTokenOperations
  tokenOperationRecords := p.tokenOperationRecords
  frozenTokenAccounts := p.frozenTokenAccounts
  mnaReserveLedger := p.mnaReserveLedger
  processedMnaSwapOperations := p.processedMnaSwapOperations
  mnaSwapOperationRecords := p.mnaSwapOperationRecords
  processedMnaReserveOperations := p.processedMnaReserveOperations
  mnaReserveOperationRecords := p.mnaReserveOperationRecords
  programs := ∅
  programReceipts := ∅
  closedPrograms := ∅

def decodeState (value : List UInt8) : Outcome StorageError StateSnapshot :=
  orFail
    ((canonicalDecode value : Option StateSnapshot)
      <|> (canonicalDecode value).map PreProgramStateSnapshot.upgrade
      <|> (canonicalDecode value).map LegacyAssetStateSnapshot.upgrade
      <|> (canonicalDecode value).map LegacyStateSnapshot.upgrade)
    .corrupt

def decodeHash (value : List UInt8) : Outcome StorageError Hash :=
  if h : value.length = 32 then .ok ⟨⟨value.toArray, h⟩⟩ else .error (.err .corrupt)

/-- `height.to_be_bytes()`. -/
def heightKey (height : U64) : List UInt8 := Unsigned.beBytes 8 height.toNat

/-- `u64::from_be_bytes` of a stored height. -/
def decodeHeight (value : List UInt8) : Outcome StorageError U64 :=
  if value.length = 8 then .ok (BitVec.ofNat 64 (Unsigned.ofBeBytes value))
  else .error (.err .corrupt)

@[simp] theorem decodeBlock_canonicalEncode (b : Block) :
    decodeBlock (canonicalEncode b) = .ok b := by
  rw [decodeBlock, canonicalDecode_canonicalEncode]
  rfl

@[simp] theorem decodeState_canonicalEncode (p : StateSnapshot) :
    decodeState (canonicalEncode p) = .ok p := by
  rw [decodeState, canonicalDecode_canonicalEncode]
  rfl

@[simp] theorem decodeHash_toList (h : Hash) : decodeHash h.bytes.toList = .ok h := by
  unfold decodeHash
  rw [dif_pos h.bytes.length_toList]
  rfl

@[simp] theorem decodeHeight_heightKey (height : U64) :
    decodeHeight (heightKey height) = .ok height := by
  have h : height.toNat < 256 ^ 8 := height.isLt
  rw [decodeHeight, heightKey, if_pos (Unsigned.length_beBytes _ _),
    Unsigned.ofBeBytes_beBytes h, BitVec.ofNat_toNat, BitVec.setWidth_eq]

/-! ## 2. Trees and insertions -/

inductive TreeName where
  | blocks
  | heights
  | transactions
  | state
  | metadata
  deriving DecidableEq

abbrev Tree := BTreeMap (List UInt8) (List UInt8)

/-- The trees of the database; `metadata` is the source's `meta`. -/
structure Store where
  blocks : Tree
  heights : Tree
  transactions : Tree
  state : Tree
  metadata : Tree

/-- One insertion into a tree. -/
structure Write where
  tree : TreeName
  key : List UInt8
  value : List UInt8

namespace Store

/-- The store of a fresh directory. -/
def empty : Store := ⟨∅, ∅, ∅, ∅, ∅⟩

def tree (s : Store) : TreeName → Tree
  | .blocks => s.blocks
  | .heights => s.heights
  | .transactions => s.transactions
  | .state => s.state
  | .metadata => s.metadata

def get (s : Store) (t : TreeName) (key : List UInt8) : Option (List UInt8) := (s.tree t)[key]?

def insert (s : Store) (w : Write) : Store :=
  match w.tree with
  | .blocks => { s with blocks := s.blocks.insert w.key w.value }
  | .heights => { s with heights := s.heights.insert w.key w.value }
  | .transactions => { s with transactions := s.transactions.insert w.key w.value }
  | .state => { s with state := s.state.insert w.key w.value }
  | .metadata => { s with metadata := s.metadata.insert w.key w.value }

def insertAll (s : Store) (ws : List Write) : Store := ws.foldl insert s

/-- The insertions of a call in their order, and the flush after them. `fault` is the position of
    the one that fails; those before it have been made. -/
def perform (s : Store) (ws : List Write) (fault : Option Nat) :
    Applied StorageError Store Unit :=
  match fault with
  | none => ⟨.ok (), s.insertAll ws⟩
  | some k =>
    if k ≤ ws.length then ⟨.error (.err .database), s.insertAll (ws.take k)⟩
    else ⟨.ok (), s.insertAll ws⟩

/-! ## 3. The calls -/

section Calls

variable (E : Env) (s : Store)

def metaChainId : List UInt8 := utf8 "chain_id"
def metaGenesisHash : List UInt8 := utf8 "genesis_hash"
def metaLatestHeight : List UInt8 := utf8 "latest_height"
def metaLatestHash : List UInt8 := utf8 "latest_hash"
def metaFinalizedHeight : List UInt8 := utf8 "finalized_height"
def metaFinalizedHash : List UInt8 := utf8 "finalized_hash"
def stateLatest : List UInt8 := utf8 "latest"

def getBlock (hash : Hash) : Outcome StorageError Block := do
  let value ← orFail (s.get .blocks hash.bytes.toList) .missing
  decodeBlock value

def getBlockByHeight (height : U64) : Outcome StorageError Block := do
  let value ← orFail (s.get .heights (heightKey height)) .missing
  let hash ← decodeHash value
  s.getBlock hash

def getTransaction (hash : Hash) : Outcome StorageError Transaction := do
  let value ← orFail (s.get .transactions hash.bytes.toList) .missing
  orFail (canonicalDecode value) .corrupt

/-- A hash of the `meta` tree: `genesis_hash`, `latest_hash`, `finalized_hash`. -/
def metaHash (key : List UInt8) : Outcome StorageError Hash := do
  let value ← orFail (s.get .metadata key) .missing
  decodeHash value

/-- A height of the `meta` tree: `latest_height`, `finalized_height`. -/
def metaHeight (key : List UInt8) : Outcome StorageError U64 := do
  let value ← orFail (s.get .metadata key) .missing
  decodeHeight value

def genesisHash : Outcome StorageError Hash := s.metaHash metaGenesisHash
def latestHash : Outcome StorageError Hash := s.metaHash metaLatestHash
def latestHeight : Outcome StorageError U64 := s.metaHeight metaLatestHeight
def finalizedHash : Outcome StorageError Hash := s.metaHash metaFinalizedHash
def finalizedHeight : Outcome StorageError U64 := s.metaHeight metaFinalizedHeight

def latestBlock : Outcome StorageError Block := do
  let hash ← s.latestHash
  s.getBlock hash

def latestState : Outcome StorageError StateSnapshot := do
  let value ← orFail (s.get .state stateLatest) .missing
  decodeState value

/-- The insertions of a commit. -/
def commitWrites (blockHash : Hash) (block : Block) (state : StateSnapshot) : List Write :=
  [⟨.blocks, blockHash.bytes.toList, canonicalEncode block⟩,
    ⟨.heights, heightKey block.header.height, blockHash.bytes.toList⟩,
    ⟨.state, stateLatest, canonicalEncode state⟩]
  ++ block.transactions.map (fun t =>
    ⟨.transactions, (E.crypto.transactionId t).bytes.toList, canonicalEncode t⟩)
  ++ [⟨.metadata, metaLatestHeight, heightKey block.header.height⟩,
    ⟨.metadata, metaLatestHash, blockHash.bytes.toList⟩]

def commit (blockHash : Hash) (block : Block) (state : StateSnapshot) (fault : Option Nat) :
    Applied StorageError Store Unit :=
  s.perform (commitWrites E blockHash block state) fault

def finalizedWrites (height : U64) (hash : Hash) : List Write :=
  [⟨.metadata, metaFinalizedHeight, heightKey height⟩,
    ⟨.metadata, metaFinalizedHash, hash.bytes.toList⟩]

def markFinalized (height : U64) (hash : Hash) (fault : Option Nat) :
    Applied StorageError Store Unit :=
  .attempt s (do
    let block ← s.getBlock hash
    rejectIf (block.header.height ≠ height) .corrupt
    s.finalizedHeight) fun current =>
  if height < current then ⟨.ok (), s⟩ else s.perform (finalizedWrites height hash) fault

/-- The insertions that initialize a store. -/
def genesisWrites (genesis : GenesisConfig) (blockHash : Hash) (genesisBlock : Block)
    (genesisState : StateSnapshot) : List Write :=
  [⟨.metadata, metaChainId, utf8 genesis.chainId⟩,
    ⟨.metadata, metaGenesisHash, blockHash.bytes.toList⟩]
  ++ finalizedWrites 0 blockHash ++ commitWrites E blockHash genesisBlock genesisState

/-- On an initialized store the chain id and the genesis hash are compared, and the finality
    entries are written where they are missing; on an empty one everything is written. -/
def ensureGenesis (genesis : GenesisConfig) (genesisBlock : Block) (genesisState : StateSnapshot)
    (fault : Option Nat) : Applied StorageError Store Hash :=
  let blockHash := E.crypto.blockHeaderId genesisBlock.header
  match s.get .metadata metaChainId with
  | some chainId =>
    .attempt s (do
      let stored ← orFail (fromUtf8 chainId) .corrupt
      rejectIf (stored ≠ genesis.chainId) .chainIdMismatch
      let storedHash ← orFail (s.get .metadata metaGenesisHash) .corrupt
      rejectIf (storedHash ≠ blockHash.bytes.toList) .genesisMismatch) fun _ =>
    if (s.get .metadata metaFinalizedHeight).isNone then
      (s.perform (finalizedWrites 0 blockHash) fault).map fun _ => blockHash
    else ⟨.ok blockHash, s⟩
  | none =>
    (s.perform (genesisWrites E genesis blockHash genesisBlock genesisState) fault).map
      fun _ => blockHash

end Calls

/-! ## 4. What insertions leave -/

variable {E : Env} {s s' : Store}

theorem get_insert (s : Store) (w : Write) (t : TreeName) (key : List UInt8) :
    (s.insert w).get t key = if w.tree = t ∧ w.key = key then some w.value else s.get t key := by
  obtain ⟨tree, k, value⟩ := w
  have hget : ∀ m : Tree, (m.insert k value)[key]? = if k = key then some value else m[key]? := by
    intro m
    rw [ExtTreeMap.getElem?_insert]
    by_cases hk : k = key
    · rw [if_pos hk, if_pos (by rw [hk]; exact compare_self)]
    · rw [if_neg hk, if_neg fun hc => hk (LawfulEqOrd.eq_of_compare hc)]
  cases tree <;> cases t <;> simp [insert, get, Store.tree, hget]

/-- **What a list of insertions leaves under a key**: the value of one of them, or what was there
    if none of them is for the key. -/
theorem get_insertAll (s : Store) (ws : List Write) (t : TreeName) (key : List UInt8) :
    (∃ w ∈ ws, w.tree = t ∧ w.key = key ∧ (s.insertAll ws).get t key = some w.value) ∨
      ((∀ w ∈ ws, ¬ (w.tree = t ∧ w.key = key)) ∧ (s.insertAll ws).get t key = s.get t key) := by
  induction ws generalizing s with
  | nil =>
    refine Or.inr ⟨fun w hw => ?_, rfl⟩
    cases hw
  | cons w ws ih =>
    have hcons : s.insertAll (w :: ws) = (s.insert w).insertAll ws := rfl
    rw [hcons]
    rcases ih (s.insert w) with ⟨x, hx, ht, hk, hv⟩ | ⟨hnone, hv⟩
    · exact Or.inl ⟨x, List.mem_cons_of_mem w hx, ht, hk, hv⟩
    · rw [get_insert] at hv
      by_cases hw : w.tree = t ∧ w.key = key
      · rw [if_pos hw] at hv
        exact Or.inl ⟨w, List.mem_cons_self, hw.1, hw.2, hv⟩
      · rw [if_neg hw] at hv
        refine Or.inr ⟨fun x hx => ?_, hv⟩
        rcases List.mem_cons.mp hx with rfl | hx
        · exact hw
        · exact hnone x hx

theorem get_insertAll_of_none {ws : List Write} {t : TreeName} {key : List UInt8}
    (h : ∀ w ∈ ws, ¬ (w.tree = t ∧ w.key = key)) : (s.insertAll ws).get t key = s.get t key := by
  rcases get_insertAll s ws t key with ⟨w, hw, ht, hk, -⟩ | ⟨-, hv⟩
  · exact absurd ⟨ht, hk⟩ (h w hw)
  · exact hv

/-- The only insertion for a key decides what is under it. -/
theorem get_insertAll_of_unique {ws : List Write} {w : Write} (hw : w ∈ ws)
    (h : ∀ x ∈ ws, x.tree = w.tree → x.key = w.key → x.value = w.value) :
    (s.insertAll ws).get w.tree w.key = some w.value := by
  rcases get_insertAll s ws w.tree w.key with ⟨x, hx, ht, hk, hv⟩ | ⟨hnone, -⟩
  · rw [hv, h x hx ht hk]
  · exact absurd ⟨rfl, rfl⟩ (hnone w hw)

/-- **A call writes a part of its insertions**, and all of them if it succeeds. -/
theorem perform_cases (s : Store) (ws : List Write) (fault : Option Nat) :
    s.perform ws fault = ⟨.ok (), s.insertAll ws⟩ ∨
      ∃ k, s.perform ws fault = ⟨.error (.err .database), s.insertAll (ws.take k)⟩ := by
  unfold perform
  cases fault with
  | none => exact Or.inl rfl
  | some k =>
    by_cases hk : k ≤ ws.length
    · exact Or.inr ⟨k, if_pos hk⟩
    · exact Or.inl (if_neg hk)

/-- A failing call leaves the first of its insertions, a successful one all of them. -/
theorem perform_state (s : Store) (ws : List Write) (fault : Option Nat) :
    ∃ k, (s.perform ws fault).state = s.insertAll (ws.take k) := by
  rcases perform_cases s ws fault with hp | ⟨k, hp⟩
  · exact ⟨ws.length, by rw [hp, List.take_length]⟩
  · exact ⟨k, by rw [hp]⟩

/-- Marking a stored block of the height final, not below the height marked before. -/
theorem markFinalized_eq {height current : U64} {hash : Hash} {block : Block}
    (hget : s.getBlock hash = .ok block) (hheight : block.header.height = height)
    (hcurrent : s.finalizedHeight = .ok current) (fault : Option Nat) :
    s.markFinalized height hash fault =
      if height < current then ⟨.ok (), s⟩ else s.perform (finalizedWrites height hash) fault := by
  unfold markFinalized
  refine Applied.attempt_of_ok (Outcome.bind_eq_ok.mpr ⟨block, hget, ?_⟩)
  exact rejectIf_bind_eq_ok.mpr ⟨not_not.mpr hheight, hcurrent⟩

/-- What marking has read before it writes. -/
theorem markFinalized_error {height : U64} {hash : Hash} (fault : Option Nat)
    (h : ∀ block current, s.getBlock hash = .ok block → block.header.height = height →
      s.finalizedHeight ≠ .ok current) : (s.markFinalized height hash fault).state = s := by
  unfold markFinalized
  cases hread : (do
      let block ← s.getBlock hash
      rejectIf (block.header.height ≠ height) StorageError.corrupt
      s.finalizedHeight : Outcome StorageError U64) with
  | error e => rfl
  | ok current =>
    obtain ⟨block, hget, hread⟩ := Outcome.bind_eq_ok.mp hread
    obtain ⟨hheight, hcurrent⟩ := rejectIf_bind_eq_ok.mp hread
    exact absurd hcurrent (h block current hget (not_not.mp hheight))

/-- **Marking a block final** changes nothing, or the block is stored at that height, not below the
    height marked before, and the two entries are written. -/
theorem markFinalized_cases (s : Store) (height : U64) (hash : Hash) (fault : Option Nat) :
    (s.markFinalized height hash fault).state = s ∨
      ∃ block current, s.getBlock hash = .ok block ∧ block.header.height = height ∧
        s.finalizedHeight = .ok current ∧ current ≤ height ∧
        s.markFinalized height hash fault = s.perform (finalizedWrites height hash) fault := by
  by_cases h : ∃ block current, s.getBlock hash = .ok block ∧ block.header.height = height ∧
      s.finalizedHeight = .ok current
  · obtain ⟨block, current, hget, hheight, hcurrent⟩ := h
    have hmark := markFinalized_eq hget hheight hcurrent fault
    by_cases hlt : height < current
    · refine Or.inl ?_
      rw [hmark, if_pos hlt]
    · rw [if_neg hlt] at hmark
      exact Or.inr ⟨block, current, hget, hheight, hcurrent, BitVec.not_lt.mp hlt, hmark⟩
  · refine Or.inl (markFinalized_error fault fun block current hget hheight hcurrent => ?_)
    exact h ⟨block, current, hget, hheight, hcurrent⟩

/-! ## 5. Commits -/

variable {hash : Hash} {block : Block} {state : StateSnapshot}

theorem Hash.toList_inj {a b : Hash} (h : a.bytes.toList = b.bytes.toList) : a = b :=
  Hash.toList_injective h

/-- Every insertion of a commit, tree by tree. -/
theorem mem_commitWrites {w : Write} (h : w ∈ commitWrites E hash block state) :
    w = ⟨.blocks, hash.bytes.toList, canonicalEncode block⟩ ∨
      w = ⟨.heights, heightKey block.header.height, hash.bytes.toList⟩ ∨
      w = ⟨.state, stateLatest, canonicalEncode state⟩ ∨
      (∃ t ∈ block.transactions,
        w = ⟨.transactions, (E.crypto.transactionId t).bytes.toList, canonicalEncode t⟩) ∨
      w = ⟨.metadata, metaLatestHeight, heightKey block.header.height⟩ ∨
      w = ⟨.metadata, metaLatestHash, hash.bytes.toList⟩ := by
  simp only [commitWrites, List.mem_append, List.mem_cons, List.mem_map, List.not_mem_nil,
    or_false] at h
  rcases h with (h | ⟨t, ht, rfl⟩) | h
  · rcases h with rfl | rfl | rfl <;> simp
  · exact Or.inr (Or.inr (Or.inr (Or.inl ⟨t, ht, rfl⟩)))
  · rcases h with rfl | rfl <;> simp

theorem getBlock_of_get {value : List UInt8} (h : s.get .blocks hash.bytes.toList = some value) :
    s.getBlock hash = decodeBlock value := by
  rw [getBlock, h]
  rfl

/-- **A commit stores its block.** -/
theorem getBlock_commit (s : Store) (hash : Hash) (block : Block) (state : StateSnapshot) :
    (s.insertAll (commitWrites E hash block state)).getBlock hash = .ok block := by
  have hmem : (⟨.blocks, hash.bytes.toList, canonicalEncode block⟩ : Write) ∈
      commitWrites E hash block state := by simp [commitWrites]
  have hget := get_insertAll_of_unique (s := s) hmem fun x hx ht _ => by
    rcases mem_commitWrites hx with rfl | rfl | rfl | ⟨t, -, rfl⟩ | rfl | rfl
    · rfl
    all_goals cases ht
  rw [getBlock_of_get hget, decodeBlock_canonicalEncode]

/-- A commit leaves the other blocks alone, as far as it gets. -/
theorem getBlock_commit_of_ne {other : Hash} (hne : other ≠ hash) (k : Nat) :
    (s.insertAll ((commitWrites E hash block state).take k)).getBlock other =
      s.getBlock other := by
  have hget : (s.insertAll ((commitWrites E hash block state).take k)).get .blocks
      other.bytes.toList = s.get .blocks other.bytes.toList := by
    refine get_insertAll_of_none fun w hw => ?_
    rintro ⟨ht, hk⟩
    rcases mem_commitWrites (List.mem_of_mem_take hw) with rfl | rfl | rfl | ⟨t, -, rfl⟩ | rfl | rfl
    · exact hne (Hash.toList_inj hk).symm
    all_goals cases ht
  rw [getBlock, hget, getBlock]

/-- The block a commit is for is stored under its hash, or it is as it was before. -/
theorem getBlock_commit_cases (s : Store) (hash : Hash) (block : Block) (state : StateSnapshot)
    (k : Nat) (other : Hash) :
    (other = hash ∧
      (s.insertAll ((commitWrites E hash block state).take k)).getBlock other = .ok block) ∨
      (s.insertAll ((commitWrites E hash block state).take k)).getBlock other =
        s.getBlock other := by
  by_cases hne : other = hash
  · rcases get_insertAll s ((commitWrites E hash block state).take k) .blocks
      other.bytes.toList with ⟨w, hw, ht, -, hv⟩ | ⟨-, hv⟩
    · refine Or.inl ⟨hne, ?_⟩
      rcases mem_commitWrites (List.mem_of_mem_take hw) with
        rfl | rfl | rfl | ⟨t, -, rfl⟩ | rfl | rfl
      · rw [getBlock_of_get hv, decodeBlock_canonicalEncode]
      all_goals cases ht
    · refine Or.inr ?_
      rw [getBlock, hv, getBlock]
  · exact Or.inr (getBlock_commit_of_ne hne k)

theorem getTransaction_of_get {value : List UInt8}
    (h : s.get .transactions hash.bytes.toList = some value) :
    s.getTransaction hash = orFail (canonicalDecode value) .corrupt := by
  rw [getTransaction, h]
  rfl

/-- Under a transaction id there is a transaction of the block with that id, or what was there. -/
theorem getTransaction_commit_cases (s : Store) (hash : Hash) (block : Block)
    (state : StateSnapshot) (k : Nat) (id : Hash) :
    (∃ t ∈ block.transactions, E.crypto.transactionId t = id ∧
      (s.insertAll ((commitWrites E hash block state).take k)).getTransaction id = .ok t) ∨
      (s.insertAll ((commitWrites E hash block state).take k)).getTransaction id =
        s.getTransaction id := by
  rcases get_insertAll s ((commitWrites E hash block state).take k) .transactions id.bytes.toList
    with ⟨w, hw, ht, hk, hv⟩ | ⟨-, hv⟩
  · refine Or.inl ?_
    rcases mem_commitWrites (List.mem_of_mem_take hw) with
      rfl | rfl | rfl | ⟨t, hmem, rfl⟩ | rfl | rfl
    case inl.inr.inr.inr.inl =>
      refine ⟨t, hmem, Hash.toList_inj hk, ?_⟩
      rw [getTransaction_of_get hv, canonicalDecode_canonicalEncode]
      rfl
    all_goals cases ht
  · refine Or.inr ?_
    rw [getTransaction, hv, getTransaction]

/-- **No call loses a stored transaction**, whether its commit fails or not. -/
theorem getTransaction_mono {k : Nat} {id : Hash} (h : (s.getTransaction id).isOk = true) :
    ((s.insertAll ((commitWrites E hash block state).take k)).getTransaction id).isOk = true := by
  rcases getTransaction_commit_cases (E := E) s hash block state k id with ⟨t, -, -, hv⟩ | hv
  · rw [hv]
    rfl
  · rw [hv]
    exact h

/-- **A commit stores its transactions.** -/
theorem getTransaction_commit {t : Transaction} (h : t ∈ block.transactions) :
    ((s.insertAll (commitWrites E hash block state)).getTransaction
      (E.crypto.transactionId t)).isOk = true := by
  rcases get_insertAll s (commitWrites E hash block state) .transactions
    (E.crypto.transactionId t).bytes.toList with ⟨w, hw, ht, -, hv⟩ | ⟨hnone, -⟩
  · rcases mem_commitWrites hw with rfl | rfl | rfl | ⟨x, -, rfl⟩ | rfl | rfl
    case inl.inr.inr.inr.inl =>
      rw [getTransaction_of_get hv, canonicalDecode_canonicalEncode]
      rfl
    all_goals cases ht
  · have hmem : (⟨.transactions, (E.crypto.transactionId t).bytes.toList, canonicalEncode t⟩ :
        Write) ∈ commitWrites E hash block state := by
      simp only [commitWrites, List.mem_append, List.mem_map]
      exact Or.inl (Or.inr ⟨t, h, rfl⟩)
    exact absurd ⟨rfl, rfl⟩ (hnone _ hmem)

/-! ## 6. The index, the latest entries and the finality entries -/

theorem heightKey_inj {height height' : U64} (h : heightKey height = heightKey height') :
    height = height' := by
  have hd := congrArg decodeHeight h
  rw [decodeHeight_heightKey, decodeHeight_heightKey] at hd
  exact Except.ok.inj hd

theorem insertAll_append (s : Store) (ws ws' : List Write) :
    s.insertAll (ws ++ ws') = (s.insertAll ws).insertAll ws' :=
  List.foldl_append ..

theorem metaHash_of_get {key : List UInt8} (h : s.get .metadata key = some hash.bytes.toList) :
    s.metaHash key = .ok hash := by
  rw [metaHash, h]
  exact decodeHash_toList hash

theorem metaHeight_of_get {key : List UInt8} {height : U64}
    (h : s.get .metadata key = some (heightKey height)) : s.metaHeight key = .ok height := by
  rw [metaHeight, h]
  exact decodeHeight_heightKey height

theorem latestState_of_get (h : s.get .state stateLatest = some (canonicalEncode state)) :
    s.latestState = .ok state := by
  rw [latestState, h]
  exact decodeState_canonicalEncode state

theorem getBlockByHeight_of_get {height : U64}
    (h : s.get .heights (heightKey height) = some hash.bytes.toList) :
    s.getBlockByHeight height = s.getBlock hash := by
  rw [getBlockByHeight, h]
  show (decodeHash hash.bytes.toList >>= _) = _
  rw [decodeHash_toList]
  rfl

/-- **A commit enters its block under its height**, and no other height. -/
theorem get_heights_commit (s : Store) (hash : Hash) (block : Block) (state : StateSnapshot)
    (key : List UInt8) :
    (s.insertAll (commitWrites E hash block state)).get .heights key =
      if key = heightKey block.header.height then some hash.bytes.toList
      else s.get .heights key := by
  by_cases hk : key = heightKey block.header.height
  · rw [if_pos hk, hk]
    have hmem : (⟨.heights, heightKey block.header.height, hash.bytes.toList⟩ : Write) ∈
        commitWrites E hash block state := by simp [commitWrites]
    refine get_insertAll_of_unique hmem fun x hx ht _ => ?_
    rcases mem_commitWrites hx with rfl | rfl | rfl | ⟨t, -, rfl⟩ | rfl | rfl
    · cases ht
    · rfl
    all_goals cases ht
  · rw [if_neg hk]
    refine get_insertAll_of_none fun w hw => ?_
    rintro ⟨ht, hkey⟩
    rcases mem_commitWrites hw with rfl | rfl | rfl | ⟨t, -, rfl⟩ | rfl | rfl
    · cases ht
    · exact hk hkey.symm
    all_goals cases ht

theorem latestState_commit (s : Store) (hash : Hash) (block : Block) (state : StateSnapshot) :
    (s.insertAll (commitWrites E hash block state)).latestState = .ok state := by
  have hmem : (⟨.state, stateLatest, canonicalEncode state⟩ : Write) ∈
      commitWrites E hash block state := by simp [commitWrites]
  refine latestState_of_get (get_insertAll_of_unique hmem fun x hx ht _ => ?_)
  rcases mem_commitWrites hx with rfl | rfl | rfl | ⟨t, -, rfl⟩ | rfl | rfl
  · cases ht
  · cases ht
  · rfl
  all_goals cases ht

theorem metaLatest_ne : metaLatestHeight ≠ metaLatestHash := by decide

theorem latestHash_commit (s : Store) (hash : Hash) (block : Block) (state : StateSnapshot) :
    (s.insertAll (commitWrites E hash block state)).latestHash = .ok hash := by
  have hmem : (⟨.metadata, metaLatestHash, hash.bytes.toList⟩ : Write) ∈
      commitWrites E hash block state := by simp [commitWrites]
  refine metaHash_of_get (get_insertAll_of_unique hmem fun x hx ht hk => ?_)
  rcases mem_commitWrites hx with rfl | rfl | rfl | ⟨t, -, rfl⟩ | rfl | rfl
  · cases ht
  · cases ht
  · cases ht
  · cases ht
  · exact absurd hk metaLatest_ne
  · rfl

/-- A commit, as far as it gets, leaves the other entries of `meta` alone. -/
theorem get_metadata_commit {key : List UInt8} (hheight : key ≠ metaLatestHeight)
    (hhash : key ≠ metaLatestHash) (k : Nat) :
    (s.insertAll ((commitWrites E hash block state).take k)).get .metadata key =
      s.get .metadata key := by
  refine get_insertAll_of_none fun w hw => ?_
  rintro ⟨ht, hk⟩
  rcases mem_commitWrites (List.mem_of_mem_take hw) with
    rfl | rfl | rfl | ⟨t, -, rfl⟩ | rfl | rfl
  · cases ht
  · cases ht
  · cases ht
  · cases ht
  · exact hheight hk.symm
  · exact hhash hk.symm

/-- A commit, as far as it gets, leaves finality alone. -/
theorem finality_commit (k : Nat) :
    (s.insertAll ((commitWrites E hash block state).take k)).finalizedHeight =
        s.finalizedHeight ∧
      (s.insertAll ((commitWrites E hash block state).take k)).finalizedHash =
        s.finalizedHash := by
  unfold finalizedHeight finalizedHash metaHeight metaHash
  rw [get_metadata_commit (by decide) (by decide), get_metadata_commit (by decide) (by decide)]
  exact ⟨rfl, rfl⟩

theorem metaFinalized_ne : metaFinalizedHeight ≠ metaFinalizedHash := by decide

/-- The finality entries, as far as they get, are written into `meta` only. -/
theorem get_finalized_take {height : U64} {t : TreeName} {key : List UInt8} (k : Nat)
    (h : t = .metadata → key ≠ metaFinalizedHeight ∧ key ≠ metaFinalizedHash) :
    (s.insertAll ((finalizedWrites height hash).take k)).get t key = s.get t key := by
  refine get_insertAll_of_none fun w hw => ?_
  rintro ⟨ht, hk⟩
  have hmem := List.mem_of_mem_take hw
  simp only [finalizedWrites, List.mem_cons, List.not_mem_nil, or_false] at hmem
  rcases hmem with rfl | rfl
  · exact (h ht.symm).1 hk.symm
  · exact (h ht.symm).2 hk.symm

theorem get_finalized_of_ne {height : U64} {t : TreeName} {key : List UInt8}
    (h : t = .metadata → key ≠ metaFinalizedHeight ∧ key ≠ metaFinalizedHash) :
    (s.insertAll (finalizedWrites height hash)).get t key = s.get t key := by
  have hall : (s.insertAll ((finalizedWrites height hash).take
      (finalizedWrites height hash).length)).get t key = s.get t key := get_finalized_take _ h
  rwa [List.take_length] at hall

theorem finalizedHeight_finalized (s : Store) (height : U64) (hash : Hash) :
    (s.insertAll (finalizedWrites height hash)).finalizedHeight = .ok height := by
  have hmem : (⟨.metadata, metaFinalizedHeight, heightKey height⟩ : Write) ∈
      finalizedWrites height hash := by simp [finalizedWrites]
  refine metaHeight_of_get (get_insertAll_of_unique hmem fun x hx _ hk => ?_)
  simp only [finalizedWrites, List.mem_cons, List.not_mem_nil, or_false] at hx
  rcases hx with rfl | rfl
  · rfl
  · exact absurd hk.symm metaFinalized_ne

theorem finalizedHash_finalized (s : Store) (height : U64) (hash : Hash) :
    (s.insertAll (finalizedWrites height hash)).finalizedHash = .ok hash := by
  have hmem : (⟨.metadata, metaFinalizedHash, hash.bytes.toList⟩ : Write) ∈
      finalizedWrites height hash := by simp [finalizedWrites]
  refine metaHash_of_get (get_insertAll_of_unique hmem fun x hx _ hk => ?_)
  simp only [finalizedWrites, List.mem_cons, List.not_mem_nil, or_false] at hx
  rcases hx with rfl | rfl
  · exact absurd hk metaFinalized_ne
  · rfl

/-- **The store of a fresh directory**: everything is written. -/
theorem ensureGenesis_empty (E : Env) (genesis : GenesisConfig) (block : Block)
    (state : StateSnapshot) (fault : Option Nat) :
    empty.ensureGenesis E genesis block state fault =
      (empty.perform (genesisWrites E genesis (E.crypto.blockHeaderId block.header) block state)
        fault).map fun _ => E.crypto.blockHeaderId block.header := by
  have hget : empty.get .metadata metaChainId = none := rfl
  unfold ensureGenesis
  rw [hget]

/-! ## 7. Stores cut off in a call -/

/-- The hash of the tip is the last insertion of a commit, and it is there once. -/
theorem commitWrites_last (E : Env) (hash : Hash) (block : Block) (state : StateSnapshot) :
    ∃ ws, commitWrites E hash block state =
        ws ++ [⟨.metadata, metaLatestHash, hash.bytes.toList⟩] ∧
      ∀ w ∈ ws, ¬ (w.tree = .metadata ∧ w.key = metaLatestHash) := by
  refine ⟨[⟨.blocks, hash.bytes.toList, canonicalEncode block⟩,
      ⟨.heights, heightKey block.header.height, hash.bytes.toList⟩,
      ⟨.state, stateLatest, canonicalEncode state⟩]
    ++ block.transactions.map (fun t =>
      ⟨.transactions, (E.crypto.transactionId t).bytes.toList, canonicalEncode t⟩)
    ++ [⟨.metadata, metaLatestHeight, heightKey block.header.height⟩], ?_, ?_⟩
  · simp [commitWrites]
  · rintro w hw ⟨ht, hkey⟩
    simp only [List.mem_append, List.mem_cons, List.mem_map, List.not_mem_nil, or_false] at hw
    rcases hw with ((rfl | rfl | rfl) | ⟨t, -, rfl⟩) | rfl
    · cases ht
    · cases ht
    · cases ht
    · cases ht
    · exact metaLatest_ne hkey

/-- Insertions of which only the last is for a key, cut off before it. -/
theorem get_insertAll_take_of_lt {ws : List Write} {w : Write} {t : TreeName}
    {key : List UInt8} (h : ∀ x ∈ ws, ¬ (x.tree = t ∧ x.key = key)) {k : Nat}
    (hk : k < (ws ++ [w]).length) :
    (s.insertAll ((ws ++ [w]).take k)).get t key = s.get t key := by
  rw [List.length_append, List.length_singleton] at hk
  rw [List.take_append_of_le_length (by omega)]
  exact get_insertAll_of_none fun x hx => h x (List.mem_of_mem_take hx)

/-- Cut off before its last insertion, a commit leaves the tip where it was. -/
theorem latestHash_commit_of_lt {k : Nat} (hk : k < (commitWrites E hash block state).length) :
    (s.insertAll ((commitWrites E hash block state).take k)).latestHash = s.latestHash := by
  obtain ⟨ws, hws, hnone⟩ := commitWrites_last E hash block state
  unfold latestHash metaHash
  rw [hws] at hk ⊢
  rw [get_insertAll_take_of_lt hnone hk]

/-- Cut off before its last insertion, the initialization of a store enters no tip. -/
theorem latestHash_genesis_of_lt {genesis : GenesisConfig} {k : Nat}
    (hk : k < (genesisWrites E genesis hash block state).length) :
    (s.insertAll ((genesisWrites E genesis hash block state).take k)).get .metadata
      metaLatestHash = s.get .metadata metaLatestHash := by
  obtain ⟨ws, hws, hnone⟩ := commitWrites_last E hash block state
  unfold genesisWrites at hk ⊢
  rw [hws, ← List.append_assoc] at hk ⊢
  refine get_insertAll_take_of_lt (fun w hw => ?_) hk
  rcases List.mem_append.mp hw with hw | hw
  · rintro ⟨-, hkey⟩
    have hchain : metaChainId ≠ metaLatestHash := by decide
    have hgenesis : metaGenesisHash ≠ metaLatestHash := by decide
    have hheight : metaFinalizedHeight ≠ metaLatestHash := by decide
    have hhash : metaFinalizedHash ≠ metaLatestHash := by decide
    simp only [finalizedWrites, List.mem_append, List.mem_cons, List.not_mem_nil, or_false] at hw
    rcases hw with (rfl | rfl) | rfl | rfl
    · exact hchain hkey
    · exact hgenesis hkey
    · exact hheight hkey
    · exact hhash hkey
  · exact hnone w hw

/-- The chain id is the first insertion of an initialization. -/
theorem chainId_genesis_of_pos {genesis : GenesisConfig} {k : Nat} (hk : 0 < k) :
    ((s.insertAll ((genesisWrites E genesis hash block state).take k)).get .metadata
      metaChainId).isSome = true := by
  obtain ⟨k, rfl⟩ := Nat.exists_eq_succ_of_ne_zero (Nat.ne_of_gt hk)
  rcases get_insertAll s ((genesisWrites E genesis hash block state).take (k + 1)) .metadata
    metaChainId with ⟨w, -, -, -, hv⟩ | ⟨hnone, -⟩
  · rw [hv]
    rfl
  · exact absurd ⟨rfl, rfl⟩
      (hnone ⟨.metadata, metaChainId, utf8 genesis.chainId⟩ List.mem_cons_self)

/-- The block is the first insertion of a commit. -/
theorem getBlock_commit_of_pos {k : Nat} (hk : 0 < k) :
    (s.insertAll ((commitWrites E hash block state).take k)).getBlock hash = .ok block := by
  obtain ⟨k, rfl⟩ := Nat.exists_eq_succ_of_ne_zero (Nat.ne_of_gt hk)
  have hmem : (⟨.blocks, hash.bytes.toList, canonicalEncode block⟩ : Write) ∈
      (commitWrites E hash block state).take (k + 1) := List.mem_cons_self
  have hget := get_insertAll_of_unique (s := s) hmem fun x hx ht _ => by
    rcases mem_commitWrites (List.mem_of_mem_take hx) with
      rfl | rfl | rfl | ⟨t, -, rfl⟩ | rfl | rfl
    · rfl
    all_goals cases ht
  rw [getBlock_of_get hget, decodeBlock_canonicalEncode]

/-- A store that has its genesis entries is left as it is. -/
theorem ensureGenesis_initialized {genesis : GenesisConfig} {fault : Option Nat}
    (hchain : s.get .metadata metaChainId = some (utf8 genesis.chainId))
    (hgenesis : s.get .metadata metaGenesisHash =
      some (E.crypto.blockHeaderId block.header).bytes.toList)
    (hfinal : (s.get .metadata metaFinalizedHeight).isSome = true) :
    s.ensureGenesis E genesis block state fault =
      ⟨.ok (E.crypto.blockHeaderId block.header), s⟩ := by
  have hnone : ¬ (s.get .metadata metaFinalizedHeight).isNone = true := by
    rw [Option.isNone_iff_eq_none]
    intro h
    rw [h] at hfinal
    cases hfinal
  unfold ensureGenesis
  rw [hchain]
  refine Applied.attempt_eq_ok.mpr ⟨⟨⟩, ?_, if_neg hnone⟩
  rw [hgenesis, fromUtf8_utf8]
  refine Outcome.bind_eq_ok.mpr ⟨_, rfl, rejectIf_bind_eq_ok.mpr ⟨not_not.mpr rfl, ?_⟩⟩
  exact Outcome.bind_eq_ok.mpr ⟨_, rfl, rejectIf_neg (not_not.mpr rfl)⟩

/-- Once the chain id is there, initializing enters no tip. -/
theorem ensureGenesis_latestHash {genesis : GenesisConfig} {fault : Option Nat}
    (hchain : (s.get .metadata metaChainId).isSome = true) :
    (s.ensureGenesis E genesis block state fault).state.get .metadata metaLatestHash =
      s.get .metadata metaLatestHash := by
  obtain ⟨chainId, hchain⟩ := Option.isSome_iff_exists.mp hchain
  unfold ensureGenesis
  rw [hchain]
  have hattempt : ∀ {β : Type} (r : Outcome StorageError β) (x : Applied StorageError Store Hash),
      x.state.get .metadata metaLatestHash = s.get .metadata metaLatestHash →
        (Applied.attempt s r fun _ => x).state.get .metadata metaLatestHash =
          s.get .metadata metaLatestHash := fun r x hx => by
    cases r with
    | error e => rfl
    | ok b => exact hx
  refine hattempt _ _ ?_
  split
  · obtain ⟨k, hk⟩ := perform_state s
      (finalizedWrites 0 (E.crypto.blockHeaderId block.header)) fault
    show (s.perform _ fault).state.get .metadata metaLatestHash = _
    rw [hk]
    refine get_insertAll_of_none fun w hw => ?_
    rintro ⟨-, hkey⟩
    have hmem := List.mem_of_mem_take hw
    simp only [finalizedWrites, List.mem_cons, List.not_mem_nil, or_false] at hmem
    have hheight : metaFinalizedHeight ≠ metaLatestHash := by decide
    have hhash : metaFinalizedHash ≠ metaLatestHash := by decide
    rcases hmem with rfl | rfl
    · exact hheight hkey
    · exact hhash hkey
  · rfl

end Store

end WorldstreetChain
