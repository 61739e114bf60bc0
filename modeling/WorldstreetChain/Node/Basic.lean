import WorldstreetChain.Chain.Store
import WorldstreetChain.Chain.Consensus

/-!
# The node (`wsc-node`)

A node holds a store, the state and block at the tip, and what waits to be put into a block: a
mempool of transactions and five queues. Blocks come from four calls: the node produces one, its
faucet makes one, it imports one, or it starts from the genesis block.

* `Node.openDir`, `Node.submitTransaction` and its siblings, `Node.produceBlockWithProposer`,
  `Node.faucet`, `Node.importBlock`, `Node.finalizeVotes` -- the calls.
* `Node.Call`, `Node.next` -- the node as a machine: a call and the node it leaves behind.
-/

namespace WorldstreetChain

open Std Postcard

/-- What a call meets around it: the clock, and the insertion into the store that fails. -/
structure Io where
  now : U64
  fault : Option Nat

inductive NodeError where
  | state (e : StateError)
  | storage (e : StorageError)
  | configChainIdMismatch
  | duplicateTransaction
  | mempoolFull
  | duplicateAssetOperation
  | invalidAssetOperation (text : String)
  | duplicateTokenOperation
  | duplicateMnaSwapOperation
  | duplicateMnaReserveOperation
  | duplicateProgramOperation
  | notProposer
  | corruptChain (text : String)
  | faucetDisabled
  | invalidBlock (text : String)
  | consensus (text : String)
  deriving DecidableEq

/-! ## 1. Lists of operations -/

/-- The six lists a block carries; the queues of a node have the same shape. -/
structure Batch where
  transactions : List Transaction
  assetOperations : List AssetOperation
  tokenOperations : List TokenOperation
  mnaSwapOperations : List MnaSwapOperation
  mnaReserveOperations : List MnaReserveOperation
  programOperations : List ProgramOperation
  deriving DecidableEq

namespace Batch

def empty : Batch := ⟨[], [], [], [], [], []⟩

/-- The calls the lists stand for, in the order in which a block is executed. -/
def calls (C : Crypto) (height : U64) (b : Batch) : List Operation :=
  b.transactions.map .transaction
    ++ b.assetOperations.map .asset
    ++ b.tokenOperations.map (fun o => .token o (C.tokenOperationId o))
    ++ b.mnaSwapOperations.map .mnaSwap
    ++ b.mnaReserveOperations.map .mnaReserve
    ++ b.programOperations.map (.program · height)

/-- The leaves under a block's transaction root. -/
def ids (C : Crypto) (b : Batch) : List Hash :=
  b.transactions.map C.transactionId
    ++ b.assetOperations.map AssetOperation.operationId
    ++ b.tokenOperations.map C.tokenOperationId
    ++ b.mnaSwapOperations.map C.mnaSwapOperationId
    ++ b.mnaReserveOperations.map C.mnaReserveOperationId
    ++ b.programOperations.map C.programOperationId

end Batch

def Block.batch (b : Block) : Batch where
  transactions := b.transactions
  assetOperations := b.assetOperations
  tokenOperations := b.tokenOperations
  mnaSwapOperations := b.mnaSwapOperations
  mnaReserveOperations := b.mnaReserveOperations
  programOperations := b.programOperations

def Batch.toBlock (header : BlockHeader) (b : Batch) : Block where
  header := header
  transactions := b.transactions
  assetOperations := b.assetOperations
  tokenOperations := b.tokenOperations
  mnaSwapOperations := b.mnaSwapOperations
  mnaReserveOperations := b.mnaReserveOperations
  programOperations := b.programOperations

@[simp] theorem Batch.batch_toBlock (header : BlockHeader) (b : Batch) :
    (b.toBlock header).batch = b := rfl

@[simp] theorem Batch.header_toBlock (header : BlockHeader) (b : Batch) :
    (b.toBlock header).header = header := rfl

@[simp] theorem Batch.transactions_toBlock (header : BlockHeader) (b : Batch) :
    (b.toBlock header).transactions = b.transactions := rfl

/-! ## 2. The mempool -/

structure Mempool where
  transactions : List Transaction
  ids : BTreeSet Hash

def maxMempoolTransactions : Nat := 10000

namespace Mempool

def empty : Mempool := ⟨[], ∅⟩

def admitTransaction (E : Env) (m : Mempool) (s : State) (t : Transaction) :
    Applied NodeError Mempool Hash :=
  .ofClone m do
    rejectIf (maxMempoolTransactions ≤ m.transactions.length) .mempoolFull
    let id ← (State.validateTransaction E s t).mapErr .state
    rejectIf (id ∈ m.ids) .duplicateTransaction
    .ok (id, { transactions := m.transactions ++ [t], ids := m.ids.insert id })

def removeIds (C : Crypto) (m : Mempool) (ids : List Hash) : Mempool where
  transactions := m.transactions.filter fun t => C.transactionId t ∉ ids
  ids := ids.foldl (fun set id => set.erase id) m.ids

end Mempool

/-! ## 3. The node and its queues -/

structure Node where
  genesis : GenesisConfig
  store : Store
  state : State
  latestBlock : Block
  mempool : Mempool
  pendingAssetOperations : List AssetOperation
  pendingTokenOperations : List TokenOperation
  pendingMnaSwapOperations : List MnaSwapOperation
  pendingMnaReserveOperations : List MnaReserveOperation
  pendingProgramOperations : List ProgramOperation

namespace Node

section Calls

variable (E : Env) (n : Node)

def latestHash : Hash := E.crypto.blockHeaderId n.latestBlock.header

def isExpectedProposer (publicKey : PublicKey) : Bool :=
  if n.genesis.validators.isEmpty then true
  else (proposerForHeight n.genesis.validators
    (Unsigned.saturatingAdd n.latestBlock.header.height 1) 0).any (·.publicKey == publicKey)

def submitTransaction (t : Transaction) : Applied NodeError Node Hash :=
  .attempt n (rejectIf ((n.store.getTransaction (E.crypto.transactionId t)).isOk = true)
    .duplicateTransaction) fun _ =>
  let admitted := n.mempool.admitTransaction E n.state t
  ⟨admitted.result, { n with mempool := admitted.state }⟩

def submitAssetOperation (o : AssetOperation) : Applied NodeError Node Hash :=
  .ofClone n do
    rejectIf (o.version ≠ 1) (.invalidAssetOperation "unsupported version")
    rejectIf (o.operationId ∈ n.state.processedAssetOperations
      ∨ o.operationId ∈ n.pendingAssetOperations.map AssetOperation.operationId)
      .duplicateAssetOperation
    .ok (o.operationId, { n with pendingAssetOperations := n.pendingAssetOperations ++ [o] })

def submitTokenOperation (o : TokenOperation) : Applied NodeError Node Hash :=
  .ofClone n do
    let operationId := E.crypto.tokenOperationId o
    rejectIf (operationId ∈ n.state.processedTokenOperations
      ∨ operationId ∈ n.pendingTokenOperations.map E.crypto.tokenOperationId)
      .duplicateTokenOperation
    let _ ← (n.state.validateTokenOperation E o).mapErr .state
    .ok (operationId, { n with pendingTokenOperations := n.pendingTokenOperations ++ [o] })

def submitMnaSwap (o : MnaSwapOperation) : Applied NodeError Node Hash :=
  .ofClone n do
    let id := E.crypto.mnaSwapOperationId o
    rejectIf (id ∈ n.state.mnaSwapOperationRecords
      ∨ id ∈ n.pendingMnaSwapOperations.map E.crypto.mnaSwapOperationId)
      .duplicateMnaSwapOperation
    let _ ← (n.state.validateMnaSwap E o).mapErr .state
    .ok (id, { n with pendingMnaSwapOperations := n.pendingMnaSwapOperations ++ [o] })

def submitMnaReserveOperation (o : MnaReserveOperation) : Applied NodeError Node Hash :=
  .ofClone n do
    let id := E.crypto.mnaReserveOperationId o
    rejectIf (id ∈ n.state.mnaReserveOperationRecords
      ∨ id ∈ n.pendingMnaReserveOperations.map E.crypto.mnaReserveOperationId)
      .duplicateMnaReserveOperation
    let _ ← (n.state.validateMnaReserveOperation E o).mapErr .state
    .ok (id, { n with pendingMnaReserveOperations := n.pendingMnaReserveOperations ++ [o] })

def submitProgramOperation (o : ProgramOperation) : Applied NodeError Node Hash :=
  .ofClone n do
    let id := E.crypto.programOperationId o
    rejectIf (id ∈ n.state.programReceipts
      ∨ id ∈ n.pendingProgramOperations.map E.crypto.programOperationId)
      .duplicateProgramOperation
    (n.state.validateProgramOperation E o).mapErr .state
    .ok (id, { n with pendingProgramOperations := n.pendingProgramOperations ++ [o] })

/-! ## 4. Making a block -/

/-- A producer's loop over a queue: `if next_state.apply(..).is_ok() { accepted.push(..) }`. An
    operation that fails leaves behind whatever it has written. -/
def acceptLoop {α : Type} (call : α → Operation) : State → List α →
    Outcome NodeError (State × List α)
  | s, [] => .ok (s, [])
  | s, a :: rest =>
    match s.apply E (call a) with
    | ⟨.ok _, s'⟩ => do
      let (last, accepted) ← acceptLoop call s' rest
      .ok (last, a :: accepted)
    | ⟨.error (.err _), s'⟩ => acceptLoop call s' rest
    | ⟨.error .panic, _⟩ => .error .panic

/-- What is taken from the queues. A transaction the store has is skipped; the store does not
    change on the way, so they are sorted out first. -/
def queue : Batch where
  transactions := n.mempool.transactions.filter fun t =>
    !(n.store.getTransaction (E.crypto.transactionId t)).isOk
  assetOperations := n.pendingAssetOperations
  tokenOperations := n.pendingTokenOperations
  mnaSwapOperations := n.pendingMnaSwapOperations
  mnaReserveOperations := n.pendingMnaReserveOperations
  programOperations := n.pendingProgramOperations

def clearQueues : Node :=
  { n with
    mempool := .empty
    pendingAssetOperations := []
    pendingTokenOperations := []
    pendingMnaSwapOperations := []
    pendingMnaReserveOperations := []
    pendingProgramOperations := [] }

/-- The height the producer passes to its program operations. -/
def nextHeight : U64 := Unsigned.saturatingAdd n.latestBlock.header.height 1

/-- The six loops of a producer. -/
def accept (s : State) (height : U64) (queue : Batch) : Outcome NodeError (State × Batch) := do
  let (s, transactions) ← acceptLoop E .transaction s queue.transactions
  let (s, assetOperations) ← acceptLoop E .asset s queue.assetOperations
  let (s, tokenOperations) ←
    acceptLoop E (fun o => .token o (E.crypto.tokenOperationId o)) s queue.tokenOperations
  let (s, mnaSwapOperations) ← acceptLoop E .mnaSwap s queue.mnaSwapOperations
  let (s, mnaReserveOperations) ← acceptLoop E .mnaReserve s queue.mnaReserveOperations
  let (s, programOperations) ← acceptLoop E (.program · height) s queue.programOperations
  .ok (s,
    { transactions, assetOperations, tokenOperations, mnaSwapOperations, mnaReserveOperations
      programOperations })

/-- The header of a new block. -/
def makeHeader (io : Io) (height : U64) (next : State) (batch : Batch)
    (proposer : Option KeyPair) : BlockHeader :=
  let header : BlockHeader :=
    { version := 1
      chainId := n.genesis.chainId
      height := height
      parentHash := n.latestHash E
      timestamp := io.now
      transactionRoot := E.crypto.merkleRoot (batch.ids E.crypto)
      stateRoot := next.stateRoot E
      proposer := proposer.map E.crypto.publicKey
      proposerSignature := none }
  match proposer with
  | some key => { header with proposerSignature := some (E.crypto.sign key header.signingBytes) }
  | none => header

/-- `self.store.commit(..)?` and the new tip. -/
def adopt (io : Io) (next : State) (block : Block) : Applied NodeError Node Unit :=
  let committed := n.store.commit E (E.crypto.blockHeaderId block.header) block next.snapshot
    io.fault
  let n := { n with store := committed.state }
  .attempt n (committed.result.mapErr .storage) fun _ =>
  ⟨.ok (), { n with state := next, latestBlock := block }⟩

def commitBlock (io : Io) (next : State) (batch : Batch) (proposer : Option KeyPair) :
    Applied NodeError Node Block :=
  .attempt n (Unsigned.add E.overflowChecks n.latestBlock.header.height 1) fun height =>
  let block := batch.toBlock (n.makeHeader E io height next batch proposer)
  (n.adopt E io next block).map fun _ => block

def produceBlockWithProposer (io : Io) (proposer : Option KeyPair) :
    Applied NodeError Node Block :=
  .attempt n (rejectIf
    (proposer.any (fun key => !n.isExpectedProposer (E.crypto.publicKey key)) = true)
    .notProposer) fun _ =>
  let cleared := n.clearQueues
  .attempt cleared (accept E n.state n.nextHeight (n.queue E)) fun (next, accepted) =>
  cleared.commitBlock E io next accepted proposer

def faucet (io : Io) (address : Address) (amount : Amount) : Applied NodeError Node Block :=
  .attempt n (rejectIf (State.containsStr n.genesis.chainId "devnet" = false) .faucetDisabled)
    fun _ =>
  let credited := n.state.creditDevnet address amount
  .attempt n (credited.result.mapErr .state) fun _ =>
  n.commitBlock E io credited.state .empty none

/-! ## 5. Taking a block over -/

/-- An importer's loop over a list of a block: any failure, and a duplicate, refuses the block. -/
def importLoop {α : Type} (call : α → Operation) (duplicate : String) : State → List α →
    Outcome NodeError State
  | s, [] => .ok s
  | s, a :: rest => do
    let applied ← (s.apply E (call a)).result.mapErr .state
    rejectIf (applied = false) (.invalidBlock duplicate)
    importLoop call duplicate (s.next E (call a)) rest

/-- The six loops of an importer. A transaction never answers `false`. -/
def execute (s : State) (height : U64) (batch : Batch) : Outcome NodeError State := do
  let s ← importLoop E .transaction "" s batch.transactions
  let s ← importLoop E .asset "duplicate asset operation" s batch.assetOperations
  let s ← importLoop E (fun o => .token o (E.crypto.tokenOperationId o))
    "duplicate token operation" s batch.tokenOperations
  let s ← importLoop E .mnaSwap "duplicate MNA swap operation" s batch.mnaSwapOperations
  let s ← importLoop E .mnaReserve "duplicate MNA reserve operation" s batch.mnaReserveOperations
  importLoop E (.program · height) "duplicate program operation" s batch.programOperations

/-- The proposer of a block and its signature. -/
def checkProposer (header : BlockHeader) : Outcome NodeError Unit :=
  match header.proposer, header.proposerSignature with
  | some proposer, some signature => do
    rejectIf (n.genesis.validators.all (·.publicKey ≠ proposer) = true)
      (.invalidBlock "unknown block proposer")
    rejectIf ((proposerForHeight n.genesis.validators header.height 0).any
        (·.publicKey == proposer) = false)
      (.invalidBlock "block proposer is not scheduled for this height")
    rejectIf (E.crypto.verify proposer header.signingBytes signature = false)
      (.invalidBlock "invalid proposer signature")
    .ok ()
  | none, none => do
    rejectIf (n.genesis.validators.isEmpty = false
        ∧ State.containsStr n.genesis.chainId "devnet" = false)
      (.invalidBlock "validator block requires proposer signature")
    .ok ()
  | _, _ => .error (.err (.invalidBlock "proposer and signature must be paired"))

/-- Where the block stands: on this chain, on top of the latest block, by the right proposer. -/
def checkPosition (header : BlockHeader) : Outcome NodeError Unit := do
  rejectIf (header.chainId ≠ n.genesis.chainId) (.invalidBlock "wrong chain ID")
  let expected ← Unsigned.add E.overflowChecks n.latestBlock.header.height 1
  rejectIf (header.height ≠ expected)
    (.invalidBlock ("expected height " ++ toString expected.toNat ++ ", got "
      ++ toString header.height.toNat))
  rejectIf (header.parentHash ≠ n.latestHash E) (.invalidBlock "wrong parent hash")
  n.checkProposer E header

/-- The state a block leads to, if its roots are right. -/
def replay (block : Block) : Outcome NodeError State := do
  n.checkPosition E block.header
  let next ← execute E n.state block.header.height block.batch
  rejectIf (E.crypto.merkleRoot (block.batch.ids E.crypto) ≠ block.header.transactionRoot)
    (.invalidBlock "transaction root mismatch")
  rejectIf (next.stateRoot E ≠ block.header.stateRoot) (.invalidBlock "state root mismatch")
  .ok next

def importBlock (io : Io) (block : Block) : Applied NodeError Node Hash :=
  .attempt n (rejectIf (block.header.version ≠ 1) (.invalidBlock "unsupported block version"))
    fun _ =>
  let blockHash := E.crypto.blockHeaderId block.header
  if (n.store.getBlock blockHash).isOk then ⟨.ok blockHash, n⟩
  else
    .attempt n (n.replay E block) fun next =>
    let adopted := n.adopt E io next block
    .attempt adopted.state adopted.result fun _ =>
    ⟨.ok blockHash, { adopted.state with
      mempool := n.mempool.removeIds E.crypto (block.batch.ids E.crypto) }⟩

/-! ## 6. Finality -/

def validatorSet : ValidatorSet := .new n.genesis.validators

/-- Every vote is checked against the tip. -/
def validateVotes (S : VoteSet) (hash : Hash) : List Vote → Outcome NodeError Unit
  | [] => .ok ()
  | v :: rest => do
    (n.validatorSet.validateVote E.crypto v n.genesis.chainId S.height S.round hash).mapErr
      (.consensus ·.toText)
    validateVotes S hash rest

def checkVotes (S : VoteSet) : Outcome NodeError Unit := do
  rejectIf (S.height ≠ n.latestBlock.header.height)
    (.invalidBlock "finality vote height is not latest")
  rejectIf (S.blockHash ≠ n.latestHash E) (.invalidBlock "finality votes target another block")
  rejectIf (S.isQuorum n.validatorSet = false) (.consensus ConsensusError.noQuorum.toText)
  n.validateVotes E S (n.latestHash E) (S.votes.toList.map Prod.snd)

def finalizeVotes (io : Io) (S : VoteSet) : Applied NodeError Node U64 :=
  .attempt n (n.checkVotes E S) fun _ =>
  let marked := n.store.markFinalized S.height (n.latestHash E) io.fault
  let n := { n with store := marked.state }
  .attempt n (marked.result.mapErr .storage) fun _ => ⟨.ok S.height, n⟩

end Calls

/-! ## 7. Opening -/

def makeGenesisBlock (E : Env) (genesis : GenesisConfig) (s : State) : Block :=
  Batch.empty.toBlock
    { version := 1
      chainId := genesis.chainId
      height := 0
      parentHash := .zero
      timestamp := genesis.genesisTime
      transactionRoot := E.crypto.merkleRoot []
      stateRoot := s.stateRoot E
      proposer := none
      proposerSignature := none }

/-- A node at the tip with nothing queued. -/
def idle (genesis : GenesisConfig) (store : Store) (s : State) (latestBlock : Block) : Node where
  genesis := genesis
  store := store
  state := s
  latestBlock := latestBlock
  mempool := .empty
  pendingAssetOperations := []
  pendingTokenOperations := []
  pendingMnaSwapOperations := []
  pendingMnaReserveOperations := []
  pendingProgramOperations := []

/-- The tip as the store has it. -/
def restore (E : Env) (genesis : GenesisConfig) (store : Store) : Outcome NodeError Node := do
  let latestBlock ← store.latestBlock.mapErr .storage
  let latestState ← store.latestState.mapErr .storage
  rejectIf (latestBlock.header.chainId ≠ genesis.chainId)
    (.corruptChain "latest block has the wrong chain ID")
  let restored := State.fromSnapshot latestState
  rejectIf (restored.stateRoot E ≠ latestBlock.header.stateRoot)
    (.corruptChain "latest state root does not match latest block")
  .ok (idle genesis store restored latestBlock)

/-- `Node::open` on a directory whose database is `store`. -/
def openDir (E : Env) (configChainId : String) (genesis : GenesisConfig) (store : Store)
    (io : Io) : Applied NodeError Store Node :=
  .attempt store (rejectIf (genesis.chainId ≠ configChainId) .configChainIdMismatch) fun _ =>
  .attempt store ((State.fromGenesis genesis).mapErr .state) fun s =>
  let ensured := store.ensureGenesis E genesis (makeGenesisBlock E genesis s) s.snapshot io.fault
  .attempt ensured.state (ensured.result.mapErr .storage) fun _ =>
  .attempt ensured.state (restore E genesis ensured.state) fun n => ⟨.ok n, ensured.state⟩

/-! ## 8. The node as a machine -/

/-- A call of the node. -/
inductive Call where
  | submitTransaction (t : Transaction)
  | submitAssetOperation (o : AssetOperation)
  | submitTokenOperation (o : TokenOperation)
  | submitMnaSwap (o : MnaSwapOperation)
  | submitMnaReserveOperation (o : MnaReserveOperation)
  | submitProgramOperation (o : ProgramOperation)
  | produceBlock (io : Io) (proposer : Option KeyPair)
  | faucet (io : Io) (address : Address) (amount : Amount)
  | importBlock (io : Io) (block : Block)
  | finalizeVotes (io : Io) (S : VoteSet)

/-- The node a call leaves behind, successful or not. -/
def next (E : Env) (n : Node) : Call → Node
  | .submitTransaction t => (n.submitTransaction E t).state
  | .submitAssetOperation o => (n.submitAssetOperation o).state
  | .submitTokenOperation o => (n.submitTokenOperation E o).state
  | .submitMnaSwap o => (n.submitMnaSwap E o).state
  | .submitMnaReserveOperation o => (n.submitMnaReserveOperation E o).state
  | .submitProgramOperation o => (n.submitProgramOperation E o).state
  | .produceBlock io proposer => (n.produceBlockWithProposer E io proposer).state
  | .faucet io address amount => (n.faucet E io address amount).state
  | .importBlock io block => (n.importBlock E io block).state
  | .finalizeVotes io S => (n.finalizeVotes E io S).state

/-- The insertion that fails during the call, if one does. -/
def Call.fault : Call → Option Nat
  | .produceBlock io _ | .faucet io _ _ | .importBlock io _ | .finalizeVotes io _ => io.fault
  | _ => none

end Node

end WorldstreetChain
