import WorldstreetChain.Library.Runs
import WorldstreetChain.State.Transaction
import WorldstreetChain.State.Asset
import WorldstreetChain.State.Token
import WorldstreetChain.State.Reserve
import WorldstreetChain.State.Program

/-!
# The state machine

The six appliers as one machine: an operation with the arguments its applier takes, and the state
it leaves behind, whether it succeeds or not. Runs of this machine are what the invariants of the
ledger are about.

* `State.apply`, `State.next`, `State.Succeeds`.
* `State.apply_false` -- an operation that answers `Ok(false)` changes nothing.
* `State.next_writes` -- **an operation writes the fields of its kind only**, even when it fails.
-/

namespace WorldstreetChain

open Std

/-- A call of one of the six appliers. -/
inductive Operation where
  | transaction (t : Transaction)
  | asset (o : AssetOperation)
  | token (o : TokenOperation) (expectedOperationId : Hash)
  | mnaSwap (o : MnaSwapOperation)
  | mnaReserve (o : MnaReserveOperation)
  | program (o : ProgramOperation) (blockHeight : U64)
  deriving DecidableEq

namespace State

variable (E : Env) (s : State)

/-- The call; the transaction id a transfer returns is dropped. -/
def apply : Operation → Applied StateError State Bool
  | .transaction t => (applyTransaction E s t).map fun _ => true
  | .asset o => s.applyAssetOperation o
  | .token o expectedOperationId => s.applyTokenOperation E o expectedOperationId
  | .mnaSwap o => s.applyMnaSwap E o
  | .mnaReserve o => s.applyMnaReserveOperation E o
  | .program o blockHeight => s.applyProgramOperation E o blockHeight

/-- The state an operation leaves behind. -/
def next (op : Operation) : State := (s.apply E op).state

def Succeeds (op : Operation) : Prop := ∃ b, (s.apply E op).result = .ok b

instance (op : Operation) : Decidable (Succeeds E s op) :=
  decidable_of_iff ((s.apply E op).result.isOk = true) Outcome.isOk_iff

variable {E s} {s' : State} {op : Operation}

theorem apply_eq {x : Outcome StateError Bool} (h : (s.apply E op).result = x) :
    s.apply E op = ⟨x, s.next E op⟩ := by
  rw [← h]
  rfl

/-- **An operation that answers `Ok(false)` changes nothing.** -/
theorem apply_false (h : s.apply E op = ⟨.ok false, s'⟩) : s' = s := by
  cases op with
  | transaction t =>
    obtain ⟨_, -, h⟩ := Applied.map_eq_ok.mp h
    cases h
  | asset o => exact (applyAssetOperation_false h).1
  | token o id => exact (applyTokenOperation_false h).1
  | mnaSwap o => exact (applyMnaSwap_false h).1
  | mnaReserve o => exact (applyMnaReserveOperation_false h).1
  | program o height => exact (applyProgramOperation_false h).1

/-! ## 1. What a failed operation leaves behind -/

/-- The traces of a failed operation: a faucet transfer has credited its receiver; an asset
    operation is recorded, with the ledger moved or not; a swap or reserve operation has its id
    processed. -/
inductive Residue (E : Env) (s : State) : Operation → State → Prop where
  | faucet (t : Transaction) (balance : Amount)
      (hf : isFaucet E s t.unsigned = true) (hv : ∃ id, validateTransaction E s t = .ok id)
      (hp : 2 ^ 128 ≤ s.feePool.toNat + t.unsigned.fee.toNat)
      (hb : balance.toNat =
        (s.balanceOf t.unsigned.toAddress).toNat + t.unsigned.amount.toNat) :
      Residue E s (.transaction t)
        (s.insertAccount t.unsigned.toAddress ⟨balance, s.nonceOf t.unsigned.toAddress⟩)
  | assetRecorded (o : AssetOperation) (hc : checkAssetOperation o = .ok ())
      (hn : o.operationId ∉ s.processedAssetOperations) :
      Residue E s (.asset o) (s.recordAssetOperation o)
  | assetMoved (o : AssetOperation) (ledger : MnaReserveLedger)
      (hc : checkAssetOperation o = .ok ()) (hn : o.operationId ∉ s.processedAssetOperations) :
      Residue E s (.asset o) (((s.recordAssetOperation o).setLedger ledger).insertAssets o.address
        (s.assetsOf o.address))
  | mnaSwap (o : MnaSwapOperation) (hv : ValidMnaSwap E s o)
      (hn : E.crypto.mnaSwapOperationId o ∉ s.processedMnaSwapOperations) :
      Residue E s (.mnaSwap o) (s.markMnaSwap (E.crypto.mnaSwapOperationId o))
  | mnaReserve (o : MnaReserveOperation) (hv : ValidMnaReserve E s o)
      (hn : o.operationId ∉ s.processedMnaReserveOperations) :
      Residue E s (.mnaReserve o) (s.markMnaReserve o.operationId)

/-- **A failed operation changes nothing or leaves a residue.** -/
theorem apply_error {e : Fault StateError} (h : s.apply E op = ⟨.error e, s'⟩) :
    s' = s ∨ Residue E s op s' := by
  cases op with
  | transaction t =>
    rcases applyTransaction_eq_error (Applied.map_eq_error.mp h) with
      rfl | ⟨hf, hv, hp, balance, hb, rfl⟩
    · exact Or.inl rfl
    · exact Or.inr (.faucet t balance hf hv hp hb)
  | asset o =>
    rcases applyAssetOperation_error h with rfl | ⟨hc, hn, rfl | ⟨ledger, rfl⟩⟩
    · exact Or.inl rfl
    · exact Or.inr (.assetRecorded o hc hn)
    · exact Or.inr (.assetMoved o ledger hc hn)
  | token o id => exact Or.inl (applyTokenOperation_error h)
  | mnaSwap o =>
    rcases applyMnaSwap_error h with rfl | ⟨hv, hn, rfl⟩
    · exact Or.inl rfl
    · exact Or.inr (.mnaSwap o hv hn)
  | mnaReserve o =>
    rcases applyMnaReserveOperation_error h with rfl | ⟨hv, hn, rfl⟩
    · exact Or.inl rfl
    · exact Or.inr (.mnaReserve o hv hn)
  | program o height => exact Or.inl (applyProgramOperation_error h)

/-- **The step rule**: a step is an applied operation, or leaves everything alone, or leaves a
    residue. A relation between states that holds in the three cases holds along every step. -/
theorem next_cases {R : State → Prop} (h0 : R s)
    (happlied : ∀ s', s.apply E op = ⟨.ok true, s'⟩ → R s')
    (hresidue : ∀ s', Residue E s op s' → R s') : R (s.next E op) := by
  rcases hx : (s.apply E op).result with e | b
  · rcases apply_error (apply_eq hx) with h | h
    · rw [h]
      exact h0
    · exact hresidue _ h
  · cases b with
    | true => exact happlied _ (apply_eq hx)
    | false =>
      rw [apply_false (apply_eq hx)]
      exact h0

/-! ## 2. What each kind writes -/

/-- The fields an operation may write, whether it succeeds or not. -/
inductive Writes (s : State) : Operation → State → Prop where
  | transaction (t) (accounts feePool) :
      Writes s (.transaction t) { s with accounts, feePool }
  | asset (o) (assetBalances processedAssetOperations assetOperationRecords mnaReserveLedger) :
      Writes s (.asset o)
        { s with
          assetBalances, processedAssetOperations, assetOperationRecords, mnaReserveLedger }
  | token (o id) (accounts feePool assetBalances tokenDefinitions processedTokenOperations
      tokenOperationRecords frozenTokenAccounts) :
      Writes s (.token o id)
        { s with
          accounts, feePool, assetBalances, tokenDefinitions, processedTokenOperations
          tokenOperationRecords, frozenTokenAccounts }
  | mnaSwap (o) (accounts assetBalances mnaReserveLedger processedMnaSwapOperations
      mnaSwapOperationRecords) :
      Writes s (.mnaSwap o)
        { s with
          accounts, assetBalances, mnaReserveLedger, processedMnaSwapOperations
          mnaSwapOperationRecords }
  | mnaReserve (o) (accounts mnaReserveLedger processedMnaReserveOperations
      mnaReserveOperationRecords) :
      Writes s (.mnaReserve o)
        { s with
          accounts, mnaReserveLedger, processedMnaReserveOperations, mnaReserveOperationRecords }
  | program (o height) (accounts feePool programs programReceipts closedPrograms) :
      Writes s (.program o height)
        { s with accounts, feePool, programs, programReceipts, closedPrograms }

theorem Writes.self (s : State) (op : Operation) : Writes s op s := by
  cases op with
  | transaction t => exact .transaction t s.accounts s.feePool
  | asset o => exact .asset o _ _ _ s.mnaReserveLedger
  | token o id => exact .token o id _ _ _ _ _ _ s.frozenTokenAccounts
  | mnaSwap o => exact .mnaSwap o _ _ _ _ s.mnaSwapOperationRecords
  | mnaReserve o => exact .mnaReserve o _ _ _ s.mnaReserveOperationRecords
  | program o height => exact .program o height _ _ _ _ s.closedPrograms

theorem TokenEffect.writes {t : State} {u : UnsignedTokenOperation} {id : Hash}
    (h : TokenEffect E s u id t) :
    ∃ assetBalances tokenDefinitions frozenTokenAccounts,
      t = { s with assetBalances, tokenDefinitions, frozenTokenAccounts } := by
  cases h <;> exact ⟨_, _, _, rfl⟩

theorem Writes.of_apply (h : s.apply E op = ⟨.ok true, s'⟩) : Writes s op s' := by
  cases op with
  | transaction t =>
    obtain ⟨id, h, -⟩ := Applied.map_eq_ok.mp h
    obtain ⟨-, -, ⟨-, h⟩ | ⟨-, total, -, h⟩⟩ := applyTransaction_eq_ok h
    · obtain ⟨-, _, _, -, -, rfl⟩ := faucetTransfer_eq_ok h
      exact .transaction t _ _
    · obtain ⟨_, _, _, -, -, -, ⟨-, _, -, rfl⟩ | ⟨-, _, -, rfl⟩⟩ := transfer_eq_ok h
      · exact .transaction t _ _
      · exact .transaction t _ _
  | asset o =>
    obtain ⟨-, -, _, _, -, -, rfl⟩ := applyAssetOperation_true h
    exact .asset o _ _ _ _
  | token o id =>
    obtain ⟨-, -, -, charged, next, hc, ht, rfl⟩ := applyTokenOperation_true h
    obtain ⟨_, _, _, -, -, -, rfl⟩ := chargeTokenFee_eq_ok hc
    obtain ⟨_, _, _, rfl⟩ := (tokenEffect_eq_ok ht).writes
    exact .token o id _ _ _ _ _ _ _
  | mnaSwap o =>
    obtain ⟨-, -, next, he, rfl⟩ := applyMnaSwap_true h
    obtain ⟨_, _, _, _, _, -, -, rfl, -⟩ := swapEffect_eq_ok he
    exact .mnaSwap o _ _ _ _ _
  | mnaReserve o =>
    obtain ⟨-, -, next, he, -, rfl⟩ := applyMnaReserveOperation_true h
    rcases reserveEffect_eq_ok he with
      ⟨-, -, _, _, _, _, -, -, -, rfl⟩ | ⟨-, -, _, -, rfl⟩ | ⟨-, -, _, _, -, -, rfl⟩ |
        ⟨-, -, _, -, -, rfl⟩
    all_goals exact .mnaReserve o _ _ _ _
  | program o height =>
    obtain ⟨-, hm⟩ := applyProgramOperation_true h
    obtain ⟨-, -, _, _, _, _, _, _, _, -, -, -, -, rfl⟩ := applyProgramOperationMut_eq_ok hm
    exact .program o height _ _ _ _ _

/-- **An operation writes the fields of its kind only.** -/
theorem next_writes : Writes s op (s.next E op) := by
  refine next_cases (.self s op) (fun _ h => .of_apply h) fun t h => ?_
  cases h with
  | faucet t => exact .transaction t _ _
  | assetRecorded o => exact .asset o _ _ _ _
  | assetMoved o => exact .asset o _ _ _ _
  | mnaSwap o => exact .mnaSwap o _ _ _ _ _
  | mnaReserve o => exact .mnaReserve o _ _ _ _

/-- The chain a state belongs to never changes. -/
theorem Writes.chainId (h : Writes s op s') : s'.chainId = s.chainId := by
  cases h <;> rfl

/-- Only token operations write definitions and frozen accounts. -/
theorem Writes.tokens (h : Writes s op s') (hop : ∀ o id, op ≠ .token o id) :
    s'.tokenDefinitions = s.tokenDefinitions ∧ s'.frozenTokenAccounts = s.frozenTokenAccounts := by
  cases h with
  | token o id => exact absurd rfl (hop o id)
  | _ => exact ⟨rfl, rfl⟩

/-- Only bridge operations write the bridge's records. -/
theorem Writes.bridge (h : Writes s op s') (hop : ∀ o, op ≠ .asset o) :
    s'.assetOperationRecords = s.assetOperationRecords ∧
      s'.processedAssetOperations = s.processedAssetOperations := by
  cases h with
  | asset o => exact absurd rfl (hop o)
  | _ => exact ⟨rfl, rfl⟩

/-- Only program operations write programs. -/
theorem Writes.programs (h : Writes s op s') (hop : ∀ o height, op ≠ .program o height) :
    s'.programs = s.programs ∧ s'.closedPrograms = s.closedPrograms := by
  cases h with
  | program o height => exact absurd rfl (hop o height)
  | _ => exact ⟨rfl, rfl⟩

theorem next_chainId : (s.next E op).chainId = s.chainId := next_writes.chainId

end State

/-! ## 3. A small chain

One account and the operations that concrete runs use. -/

namespace Sample

def keyPair : KeyPair := ⟨Vector.replicate 32 7⟩

def publicKey : PublicKey := Crypto.standIn.publicKey keyPair

def address : Address := Crypto.standIn.addressFromPublicKey publicKey

/-- Somebody else, without an account in the genesis. -/
def otherKeyPair : KeyPair := ⟨Vector.replicate 32 9⟩

def otherAddress : Address :=
  Crypto.standIn.addressFromPublicKey (Crypto.standIn.publicKey otherKeyPair)

def chainId : String := "worldstreet-devnet-1"

def genesis (feeMinimum : Amount) : GenesisConfig where
  chainId := chainId
  genesisTime := 1
  initialSupply := 1000
  feeMinimum := feeMinimum
  validators := []
  allocations := [⟨address, 1000⟩]

/-- The state of `genesis`. -/
def genesisState (feeMinimum : Amount) : State :=
  .ofAccounts chainId feeMinimum ((∅ : BTreeMap Address Account).insert address ⟨1000, 0⟩)

theorem fromGenesis_genesis (feeMinimum : Amount) :
    State.fromGenesis (genesis feeMinimum) = .ok (genesisState feeMinimum) := by
  have h : State.allocate [⟨address, 1000⟩] ∅ 0 =
      .ok ((∅ : BTreeMap Address Account).insert address ⟨1000, 0⟩, 1000) := by decide +kernel
  exact Outcome.bind_eq_ok.mpr ⟨_, h, rfl⟩

def usdc : AssetId :=
  .wrapped "solana" "USDC" "devnet:4zMMC9srt5Ri5X14GAgXhaHii3GnPAEERYPJgZJDncDU" 6

def usdcEthereum : AssetId :=
  .wrapped "ethereum" "USDC" "sepolia:0x1c7D4B196Cb0C7B01d743Fbc6116a902379C7238" 6

/-- A bridge operation for the account; its id is the given byte over and over. -/
def bridge (kind : AssetOperationKind) (id : UInt8) (assetId : AssetId) (amount : Amount) :
    AssetOperation where
  version := 1
  operationId := ⟨Vector.replicate 32 id⟩
  kind := kind
  assetId := assetId
  address := address
  destination := ""
  amount := amount
  externalTransaction := ""
  memo := ""

/-- A swap for one kind of USDC, signed by the holder of a key. -/
def swapBy (k : KeyPair) (collateralAsset : AssetId) (kind : MnaSwapKind) (nonce : Nonce)
    (amountMna fee : Amount) : MnaSwapOperation :=
  let unsigned : UnsignedMnaSwapOperation :=
    { version := 1
      chainId := chainId
      nonce := nonce
      fromAddress := Crypto.standIn.addressFromPublicKey (Crypto.standIn.publicKey k)
      kind := kind
      collateralAsset := collateralAsset
      amountUsdc := 2 * amountMna
      amountMna := amountMna
      fee := fee
      publicKey := Crypto.standIn.publicKey k
      memo := "" }
  { unsigned, signature := Crypto.standIn.sign k unsigned.signingBytes }

/-- A signed swap of the account. -/
def swap (kind : MnaSwapKind) (nonce : Nonce) (amountMna fee : Amount) : MnaSwapOperation :=
  swapBy keyPair usdc kind nonce amountMna fee

/-- A transfer signed by the holder of a key. -/
def transferBy (k : KeyPair) (nonce : Nonce) (toAddress : Address) (amount fee : Amount) :
    Transaction :=
  let unsigned : UnsignedTransaction :=
    { version := 1
      chainId := chainId
      nonce := nonce
      fromAddress := Crypto.standIn.addressFromPublicKey (Crypto.standIn.publicKey k)
      toAddress := toAddress
      amount := amount
      fee := fee
      publicKey := Crypto.standIn.publicKey k
      memo := "" }
  { unsigned, signature := Crypto.standIn.sign k unsigned.signingBytes }

/-- A signed transfer of the account. -/
def transfer (nonce : Nonce) (toAddress : Address) (amount fee : Amount) : Transaction :=
  transferBy keyPair nonce toAddress amount fee

/-- A signed token operation of the account. -/
def tokenOperation (kind : TokenOperationKind) (nonce : Nonce) (tokenId : Hash)
    (amount cap : Amount) : TokenOperation :=
  let unsigned : UnsignedTokenOperation :=
    { version := 1
      chainId := chainId
      nonce := nonce
      fromAddress := address
      kind := kind
      tokenId := tokenId
      toAddress := none
      amount := amount
      fee := 1
      publicKey := publicKey
      name := "Sample"
      symbol := "SMP"
      decimals := 2
      maxSupply := some cap
      mintAuthority := some address
      burnAuthority := none
      freezeAuthority := none
      metadataUri := ""
      metadataHash := .zero
      memo := "" }
  { unsigned, signature := Crypto.standIn.sign keyPair unsigned.signingBytes }

/-- A call with the id the operation has. -/
def tokenCall (o : TokenOperation) : Operation := .token o (Crypto.standIn.tokenOperationId o)

/-- An operation that creates a token. -/
def createToken (amount cap : Amount) : Operation :=
  tokenCall (tokenOperation .create 0 .zero amount cap)

/-- The token `createToken` creates. -/
def createdToken (amount cap : Amount) : Hash :=
  Crypto.standIn.tokenIdFromOperation
    (Crypto.standIn.tokenOperationId (tokenOperation .create 0 .zero amount cap))

/-- A signed program operation of the account on the sample package. -/
def programOperation (kind : ProgramOperationKind) (nonce : U64) (fee : Amount)
    (package : List UInt8) (key value : String) : ProgramOperation :=
  let o : ProgramOperation :=
    { version := 1
      chainId := chainId
      kind := kind
      nonce := nonce
      fee := fee
      programId := Sample.package.programId
      package := package
      gasLimit := 0
      key := key
      value := value
      publicKey := publicKey
      signature := ⟨Vector.replicate 64 0⟩ }
  { o with
    signature := Crypto.standIn.sign keyPair (Postcard.utf8 (State.programMessage .standIn o)) }

end Sample

end WorldstreetChain
