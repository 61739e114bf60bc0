import WorldstreetChain.Program.Package
import Mathlib.Data.List.Infix
import Mathlib.Tactic.Simps.Basic

/-!
# The ledger state (`wsc-state`)

The record every node keeps: native accounts and the fee pool, the balances of wrapped and
custom assets, the definitions and records of tokens, the reserve ledger, the programs and their
receipts. This module has the data, the state of a genesis and the queries; the appliers, one per
kind of operation, are the modules after it.

* `Env` -- what the code runs on: the primitives it calls, and whether the build checks plain
  arithmetic for overflow (debug) or wraps (release).
* `State.fromGenesis` -- the state of a genesis file.
* `State.currentReserveUsd` -- the collateral the ledger reports.
-/

namespace WorldstreetChain

open Std

/-- What the code runs on. `overflowChecks` is the build profile: with it a plain `+` or `-`
    that overflows panics, without it the value wraps. -/
structure Env where
  crypto : Crypto
  runtime : WasmRuntime
  overflowChecks : Bool

/-- The stand-ins, in a release build. -/
def Env.standIn : Env where
  crypto := .standIn
  runtime := .standIn
  overflowChecks := false

/-! ## 1. The record -/

structure Account where
  balance : Amount := 0
  nonce : Nonce := 0
  deriving DecidableEq

instance : Ord (Hash × Address) := lexOrd
instance : TransOrd (Hash × Address) := inferInstanceAs (TransCmp (compareLex _ _))
instance : LawfulEqOrd (Hash × Address) where
  eq_of_compare {a b} h := by
    have hl : (compareOn Prod.fst a b).then (compareOn Prod.snd a b) = .eq := h
    obtain ⟨h1, h2⟩ := Ordering.then_eq_eq.mp hl
    exact Prod.ext (LawfulEqOrd.eq_of_compare h1) (LawfulEqOrd.eq_of_compare h2)

structure State where
  chainId : String
  feeMinimum : Amount
  feePool : Amount
  accounts : BTreeMap Address Account
  assetBalances : BTreeMap Address (BTreeMap String Amount)
  processedAssetOperations : BTreeSet Hash
  assetOperationRecords : BTreeMap Hash AssetOperation
  tokenDefinitions : BTreeMap Hash TokenDefinition
  processedTokenOperations : BTreeSet Hash
  tokenOperationRecords : BTreeMap Hash TokenOperation
  frozenTokenAccounts : BTreeSet (Hash × Address)
  mnaReserveLedger : MnaReserveLedger
  processedMnaSwapOperations : BTreeSet Hash
  mnaSwapOperationRecords : BTreeMap Hash MnaSwapOperation
  processedMnaReserveOperations : BTreeSet Hash
  mnaReserveOperationRecords : BTreeMap Hash MnaReserveOperation
  programs : BTreeMap String ProgramRecord
  programReceipts : BTreeMap Hash ProgramReceiptRecord
  closedPrograms : BTreeMap String U64
  deriving DecidableEq

inductive StateError where
  | genesisSupplyMismatch
  | duplicateGenesisAllocation
  | unsupportedTransactionVersion
  | wrongChainId
  | addressMismatch
  | invalidSignature
  | zeroAmount
  | memoTooLong
  | feeTooLow
  | nonceMismatch (expected actual : U64)
  | insufficientBalance
  | balanceOverflow
  | nonceOverflow
  | feePoolOverflow
  | unsupportedAssetOperationVersion
  | zeroAssetOperationAmount
  | invalidAssetOperationAsset
  | insufficientAssetBalance
  | assetBalanceOverflow
  | unsupportedTokenOperationVersion
  | tokenWrongChainId
  | tokenAddressMismatch
  | invalidTokenSignature
  | tokenMemoTooLong
  | tokenFeeTooLow
  | tokenNonceMismatch (expected actual : U64)
  | tokenInsufficientFeeBalance
  | invalidTokenMetadata
  | tokenAlreadyExists
  | tokenNotFound
  | tokenUnauthorized
  | tokenSupplyCapExceeded
  | tokenInsufficientBalance
  | tokenBalanceOverflow
  | tokenAccountFrozen
  | tokenPaused
  | mnaReservePaused
  | invalidMnaReserveVersion
  | invalidMnaSwapVersion
  | mnaSwapWrongChainId
  | mnaSwapAddressMismatch
  | invalidMnaSwapSignature
  | mnaSwapFeeTooLow
  | mnaSwapNonceMismatch (expected actual : U64)
  | mnaSwapInsufficientFeeBalance
  | invalidMnaCollateral
  | invalidMnaConversion
  | mnaSwapInsufficientBalance
  | mnaReserveInsufficient
  | tokenRecipientRequired
  | tokenRecipientForbidden
  | invalidTokenId
  | unsupportedProgramOperationVersion
  | programWrongChainId
  | invalidProgramOperation (text : String)
  | invalidProgramSignature
  | programNotFound
  | programUnauthorized
  | programAlreadyExists
  deriving DecidableEq

def maxMemoBytes : Nat := 256

namespace State

/-! ## 2. The state of a genesis -/

/-- The allocations one by one: an address twice, or a total beyond `u128`, is refused. -/
def allocate : List GenesisAllocation → BTreeMap Address Account → Amount →
    Outcome StateError (BTreeMap Address Account × Amount)
  | [], accounts, total => .ok (accounts, total)
  | a :: rest, accounts, total => do
    rejectIf (a.address ∈ accounts) .duplicateGenesisAllocation
    let total ← orFail (Unsigned.checkedAdd total a.balance) .genesisSupplyMismatch
    allocate rest (accounts.insert a.address { balance := a.balance, nonce := 0 }) total

/-- The state around a table of accounts in which nothing has happened yet. -/
def ofAccounts (chainId : String) (feeMinimum : Amount) (accounts : BTreeMap Address Account) :
    State where
  chainId := chainId
  feeMinimum := feeMinimum
  feePool := 0
  accounts := accounts
  assetBalances := ∅
  processedAssetOperations := ∅
  assetOperationRecords := ∅
  tokenDefinitions := ∅
  processedTokenOperations := ∅
  tokenOperationRecords := ∅
  frozenTokenAccounts := ∅
  mnaReserveLedger := {}
  processedMnaSwapOperations := ∅
  mnaSwapOperationRecords := ∅
  processedMnaReserveOperations := ∅
  mnaReserveOperationRecords := ∅
  programs := ∅
  programReceipts := ∅
  closedPrograms := ∅

def fromGenesis (genesis : GenesisConfig) : Outcome StateError State := do
  let (accounts, total) ← allocate genesis.allocations ∅ 0
  rejectIf (total ≠ genesis.initialSupply) .genesisSupplyMismatch
  .ok (ofAccounts genesis.chainId genesis.feeMinimum accounts)

theorem fromGenesis_eq_ok {genesis : GenesisConfig} {s : State} (h : fromGenesis genesis = .ok s) :
    ∃ accounts, s = ofAccounts genesis.chainId genesis.feeMinimum accounts := by
  obtain ⟨⟨accounts, total⟩, -, h⟩ := Outcome.bind_eq_ok.mp h
  obtain ⟨-, h⟩ := rejectIf_bind_eq_ok.mp h
  cases h
  exact ⟨accounts, rfl⟩

/-! ## 3. Queries -/

section Queries

variable (s : State)

def balanceOf (address : Address) : Amount := (s.accounts[address]?.map Account.balance).getD 0

def nonceOf (address : Address) : Nonce := (s.accounts[address]?.map Account.nonce).getD 0

def assetBalanceOf (address : Address) (assetId : String) : Amount :=
  (s.assetBalances[address]?.bind fun assets => assets[assetId]?).getD 0

def isTokenAccountFrozen (tokenId : Hash) (address : Address) : Bool :=
  s.frozenTokenAccounts.contains (tokenId, address)

/-- The entry of an address, the default account if it has none. -/
def accountOf (address : Address) : Account := s.accounts[address]?.getD {}

theorem accountOf_balance (a : Address) : (s.accountOf a).balance = s.balanceOf a := by
  unfold accountOf balanceOf
  cases s.accounts[a]? <;> rfl

theorem accountOf_nonce (a : Address) : (s.accountOf a).nonce = s.nonceOf a := by
  unfold accountOf nonceOf
  cases s.accounts[a]? <;> rfl

/-- Balances and nonces are read off the accounts. -/
theorem balanceOf_of_accounts {s t : State} (h : s.accounts = t.accounts) (a : Address) :
    s.balanceOf a = t.balanceOf a := by
  rw [balanceOf, h, balanceOf]

theorem nonceOf_of_accounts {s t : State} (h : s.accounts = t.accounts) (a : Address) :
    s.nonceOf a = t.nonceOf a := by
  rw [nonceOf, h, nonceOf]

/-- The balances of an address, the empty map if it has none. -/
def assetsOf (address : Address) : BTreeMap String Amount := s.assetBalances[address]?.getD ∅

theorem assetsOf_getD (a : Address) (key : String) :
    ((s.assetsOf a)[key]?).getD 0 = s.assetBalanceOf a key := by
  unfold assetsOf assetBalanceOf
  cases s.assetBalances[a]? <;> simp

end Queries

/-! ## 4. Writes

The appliers write through these, so that a state stays a short term in proofs; `simps` states
what each of them leaves alone. -/

section Writes

variable (s : State)

/-- `self.accounts.insert(address, account)`. -/
@[simps] def insertAccount (address : Address) (account : Account) : State :=
  { s with accounts := s.accounts.insert address account }

@[simps] def setFeePool (feePool : Amount) : State := { s with feePool }

@[simps] def setLedger (mnaReserveLedger : MnaReserveLedger) : State := { s with mnaReserveLedger }

/-- `self.asset_balances.insert(address, balances)`. -/
@[simps] def insertAssets (address : Address) (balances : BTreeMap String Amount) : State :=
  { s with assetBalances := s.assetBalances.insert address balances }

/-- The balance of one asset of an address is written; the address gets a map if it had none. -/
def setAssetBalance (address : Address) (key : String) (amount : Amount) : State :=
  s.insertAssets address ((s.assetsOf address).insert key amount)

/-- `self.token_definitions.insert(id, definition)`. -/
@[simps] def insertTokenDefinition (id : Hash) (definition : TokenDefinition) : State :=
  { s with tokenDefinitions := s.tokenDefinitions.insert id definition }

@[simp] theorem balanceOf_insertAccount (a b : Address) (x : Account) :
    (s.insertAccount a x).balanceOf b = if a = b then x.balance else s.balanceOf b := by
  unfold balanceOf
  rw [insertAccount_accounts, ExtTreeMap.getElem?_insert]
  by_cases h : a = b
  · simp [h]
  · rw [if_neg (fun hc => h (LawfulEqOrd.eq_of_compare hc)), if_neg h]

@[simp] theorem nonceOf_insertAccount (a b : Address) (x : Account) :
    (s.insertAccount a x).nonceOf b = if a = b then x.nonce else s.nonceOf b := by
  unfold nonceOf
  rw [insertAccount_accounts, ExtTreeMap.getElem?_insert]
  by_cases h : a = b
  · simp [h]
  · rw [if_neg (fun hc => h (LawfulEqOrd.eq_of_compare hc)), if_neg h]

theorem assetBalanceOf_setAssetBalance (a b : Address) (key key' : String) (v : Amount) :
    (s.setAssetBalance a key v).assetBalanceOf b key' =
      if a = b ∧ key = key' then v else s.assetBalanceOf b key' := by
  unfold setAssetBalance assetBalanceOf
  rw [insertAssets_assetBalances, ExtTreeMap.getElem?_insert]
  by_cases hab : a = b
  · subst hab
    rw [if_pos (compare_self), Option.bind_some, ExtTreeMap.getElem?_insert]
    by_cases hk : key = key'
    · simp [hk]
    · rw [if_neg (fun hc => hk (LawfulEqOrd.eq_of_compare hc)), if_neg (by simp [hk]),
        assetsOf_getD]
      rfl
  · rw [if_neg (fun hc => hab (LawfulEqOrd.eq_of_compare hc)), if_neg (by simp [hab])]

end Writes

/-! ## 5. Supported collateral and the reserve -/

/-- `str::eq_ignore_ascii_case`. -/
def eqIgnoreAsciiCase (a b : String) : Bool :=
  a.toList.map Char.toLower == b.toList.map Char.toLower

def isSupportedUsdc (asset : AssetId) : Bool :=
  (asset.nameSpace == "ethereum"
    && asset.symbol == "USDC"
    && asset.decimals == 6
    && asset.contract.any
      (eqIgnoreAsciiCase · "sepolia:0x1c7D4B196Cb0C7B01d743Fbc6116a902379C7238"))
  || (asset.nameSpace == "solana"
    && asset.symbol == "USDC"
    && asset.decimals == 6
    && asset.contract == some "devnet:4zMMC9srt5Ri5X14GAgXhaHii3GnPAEERYPJgZJDncDU")

/-- Native SOL as a wrapped asset; its amounts are lamports. -/
def isSupportedSol (asset : AssetId) : Bool :=
  asset.nameSpace == "solana"
    && asset.symbol == "SOL"
    && asset.decimals == 9
    && asset.contract == some "devnet:native"

/-- The collateral the ledger reports: verified less released, for USDC and for SOL. -/
def currentReserveUsd (s : State) : Amount :=
  Unsigned.saturatingAdd
    (Unsigned.saturatingSub s.mnaReserveLedger.totalVerifiedDepositsUsdc
      s.mnaReserveLedger.totalReleasedUsdc)
    (Unsigned.saturatingSub s.mnaReserveLedger.totalVerifiedSolUsd
      s.mnaReserveLedger.totalReleasedSolUsd)

/-- `str::contains` with a string pattern. -/
def containsStr (s pattern : String) : Bool := decide (pattern.toList <:+: s.toList)

/-- The characters with Unicode's `White_Space` property, which `str::trim` removes. -/
def isWhiteSpace (c : Char) : Bool :=
  let n := c.toNat
  (0x9 ≤ n && n ≤ 0xd) || n == 0x20 || n == 0x85 || n == 0xa0 || n == 0x1680
    || (0x2000 ≤ n && n ≤ 0x200a) || n == 0x2028 || n == 0x2029 || n == 0x202f || n == 0x205f
    || n == 0x3000

/-- `s.trim().is_empty()`. -/
def isBlank (s : String) : Bool := s.toList.all isWhiteSpace

end State

end WorldstreetChain
