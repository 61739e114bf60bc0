import WorldstreetChain.Library.BTree
import WorldstreetChain.Library.Unsigned

/-!
# The chain's data (`wsc-core`)

The records that blocks carry and the state is made of, field by field in the order of the
source (the order is the wire order, `Core/Encoding.lean`). Amounts are `u128`, nonces and
heights `u64`; hashes, keys, signatures and addresses are fixed arrays of bytes, ordered
lexicographically as the source's derived `Ord` orders them. The reserved words `from`, `to` and
`namespace` are spelled `fromAddress`, `toAddress` and `nameSpace`.
-/

namespace WorldstreetChain

open Std

/-! ## 1. Scalars, hashes, keys and addresses -/

abbrev Amount := BitVec 128
abbrev Nonce := BitVec 64
abbrev U64 := BitVec 64

structure Hash where
  bytes : Vector UInt8 32

structure PublicKey where
  bytes : Vector UInt8 32

structure Signature where
  bytes : Vector UInt8 64

structure Address where
  bytes : Vector UInt8 21

theorem Hash.toList_injective : Function.Injective fun h : Hash => h.bytes.toList := by
  rintro ⟨a⟩ ⟨b⟩ h
  exact congrArg Hash.mk (Vector.toList_inj.mp h)

theorem PublicKey.toList_injective : Function.Injective fun k : PublicKey => k.bytes.toList := by
  rintro ⟨a⟩ ⟨b⟩ h
  exact congrArg PublicKey.mk (Vector.toList_inj.mp h)

theorem Signature.toList_injective : Function.Injective fun s : Signature => s.bytes.toList := by
  rintro ⟨a⟩ ⟨b⟩ h
  exact congrArg Signature.mk (Vector.toList_inj.mp h)

theorem Address.toList_injective : Function.Injective fun a : Address => a.bytes.toList := by
  rintro ⟨a⟩ ⟨b⟩ h
  exact congrArg Address.mk (Vector.toList_inj.mp h)

instance : DecidableEq Hash := Hash.toList_injective.decidableEq
instance : DecidableEq PublicKey := PublicKey.toList_injective.decidableEq
instance : DecidableEq Signature := Signature.toList_injective.decidableEq
instance : DecidableEq Address := Address.toList_injective.decidableEq

instance : Ord Hash := ⟨compareOn fun h => h.bytes.toList⟩
instance : TransOrd Hash := inferInstanceAs (TransCmp (compareOn fun h : Hash => h.bytes.toList))
instance : LawfulEqOrd Hash := lawfulEqCmp_compareOn Hash.toList_injective

instance : Ord PublicKey := ⟨compareOn fun k => k.bytes.toList⟩
instance : TransOrd PublicKey :=
  inferInstanceAs (TransCmp (compareOn fun k : PublicKey => k.bytes.toList))
instance : LawfulEqOrd PublicKey := lawfulEqCmp_compareOn PublicKey.toList_injective

instance : Ord Address := ⟨compareOn fun a => a.bytes.toList⟩
instance : TransOrd Address :=
  inferInstanceAs (TransCmp (compareOn fun a : Address => a.bytes.toList))
instance : LawfulEqOrd Address := lawfulEqCmp_compareOn Address.toList_injective

def Hash.zero : Hash := ⟨Vector.replicate 32 0⟩

/-- One byte as two lowercase hexadecimal digits (`{byte:02x}`). -/
def hexByte (b : UInt8) : List Char :=
  [Nat.digitChar (b.toNat / 16), Nat.digitChar (b.toNat % 16)]

def hexString (bytes : List UInt8) : String := String.ofList (bytes.flatMap hexByte)

/-- `Display` of a hash. -/
def Hash.toHex (h : Hash) : String := hexString h.bytes.toList

theorem digitChar_inj : ∀ m < 16, ∀ n < 16, Nat.digitChar m = Nat.digitChar n → m = n := by
  decide

theorem hexByte_injective : Function.Injective hexByte := by
  intro a b h
  simp only [hexByte, List.cons.injEq, and_true] at h
  have ha := a.toNat_lt
  have hb := b.toNat_lt
  have h1 := digitChar_inj _ (by omega) _ (by omega) h.1
  have h2 := digitChar_inj _ (by omega) _ (by omega) h.2
  exact UInt8.toNat_inj.mp (by omega)

theorem flatMap_hexByte_injective :
    Function.Injective fun l : List UInt8 => l.flatMap hexByte := by
  intro l
  induction l with
  | nil =>
    intro l' h
    cases l' with
    | nil => rfl
    | cons b l' => simp [hexByte] at h
  | cons a l ih =>
    intro l' h
    cases l' with
    | nil => simp [hexByte] at h
    | cons b l' =>
      simp only [List.flatMap_cons] at h
      obtain ⟨h1, h2⟩ := List.append_inj h rfl
      rw [hexByte_injective h1, ih h2]

theorem length_flatMap_hexByte (l : List UInt8) : (l.flatMap hexByte).length = 2 * l.length := by
  induction l with
  | nil => rfl
  | cons a l ih =>
    have h2 : (hexByte a).length = 2 := rfl
    rw [List.flatMap_cons, List.length_append, ih, h2, List.length_cons]
    omega

theorem Hash.toList_toHex (h : Hash) : h.toHex.toList = h.bytes.toList.flatMap hexByte := by
  simp [Hash.toHex, hexString]

/-! ## 2. Assets -/

structure AssetId where
  nameSpace : String
  symbol : String
  contract : Option String
  decimals : UInt8
  deriving DecidableEq

namespace AssetId

def canonicalKey (a : AssetId) : String :=
  a.nameSpace ++ ":" ++ a.symbol ++ ":" ++ a.contract.getD "native"

def wrapped (nameSpace symbol contract : String) (decimals : UInt8) : AssetId :=
  { nameSpace, symbol, contract := some contract, decimals }

def custom (tokenId : Hash) (symbol : String) (decimals : UInt8) : AssetId :=
  { nameSpace := "intertrain", symbol, contract := some ("token:" ++ tokenId.toHex), decimals }

/-- **Keys of different tokens differ**, whatever their symbols: they end in the token id. -/
theorem canonicalKey_custom_inj {id id' : Hash} {symbol symbol' : String} {dec dec' : UInt8}
    (h : (custom id symbol dec).canonicalKey = (custom id' symbol' dec').canonicalKey) :
    id = id' := by
  have hl := congrArg String.toList h
  simp only [canonicalKey, custom, Option.getD_some, String.toList_append, Hash.toList_toHex,
    ← List.append_assoc] at hl
  obtain ⟨-, hr⟩ := List.append_inj' hl
    (by simp only [length_flatMap_hexByte, Vector.length_toList])
  exact Hash.toList_injective (flatMap_hexByte_injective hr)

end AssetId

/-! ## 3. Genesis -/

structure GenesisAllocation where
  address : Address
  balance : Amount
  deriving DecidableEq

structure Validator where
  name : String
  publicKey : PublicKey
  deriving DecidableEq

/-- The genesis parameters the state, the node and consensus read. A `Vec` of validators holds
    at most `isize::MAX` bytes at 56 bytes an entry, which is what `validators_fit` records. -/
structure GenesisConfig where
  chainId : String
  genesisTime : U64
  initialSupply : Amount
  feeMinimum : Amount
  validators : List Validator
  allocations : List GenesisAllocation
  validators_fit : validators.length * 56 < 2 ^ 63 := by decide
  deriving DecidableEq

/-! ## 4. Transactions and operations -/

structure UnsignedTransaction where
  version : UInt8
  chainId : String
  nonce : Nonce
  fromAddress : Address
  toAddress : Address
  amount : Amount
  fee : Amount
  publicKey : PublicKey
  memo : String
  deriving DecidableEq

structure Transaction where
  unsigned : UnsignedTransaction
  signature : Signature
  deriving DecidableEq

inductive AssetOperationKind where
  | mint
  | burn
  deriving DecidableEq

structure AssetOperation where
  version : UInt8
  operationId : Hash
  kind : AssetOperationKind
  assetId : AssetId
  address : Address
  destination : String
  amount : Amount
  externalTransaction : String
  memo : String
  deriving DecidableEq

/-- Two USDC base units represent one MNA base unit. -/
def mnaUsdcDenominator : Amount := 2

inductive MnaSwapKind where
  | mintMna
  | redeemMna
  deriving DecidableEq

structure UnsignedMnaSwapOperation where
  version : UInt8
  chainId : String
  nonce : Nonce
  fromAddress : Address
  kind : MnaSwapKind
  collateralAsset : AssetId
  amountUsdc : Amount
  amountMna : Amount
  fee : Amount
  publicKey : PublicKey
  memo : String
  deriving DecidableEq

structure MnaSwapOperation where
  unsigned : UnsignedMnaSwapOperation
  signature : Signature
  deriving DecidableEq

inductive MnaReserveOperationKind where
  | verifyDeposit
  | release
  deriving DecidableEq

structure MnaReserveOperation where
  version : UInt8
  operationId : Hash
  kind : MnaReserveOperationKind
  collateralAsset : AssetId
  address : Address
  amountUsdc : Amount
  amountMna : Amount
  collateralAmount : Amount
  oraclePriceUsdMicroPerSol : Amount
  oracleTimestamp : U64
  feeMna : Amount
  destination : String
  externalTransaction : String
  memo : String
  deriving DecidableEq

structure MnaReserveLedger where
  totalVerifiedDepositsUsdc : Amount := 0
  totalReleasedUsdc : Amount := 0
  reserveBackedMnaMinted : Amount := 0
  totalRedeemedMna : Amount := 0
  totalVerifiedSolLamports : Amount := 0
  totalReleasedSolLamports : Amount := 0
  totalVerifiedSolUsd : Amount := 0
  totalReleasedSolUsd : Amount := 0
  paused : Bool := false
  deriving DecidableEq

inductive TokenOperationKind where
  | create
  | transfer
  | mint
  | burn
  | setAuthorities
  | freeze
  | unfreeze
  | pause
  | unpause
  | updateMetadata
  deriving DecidableEq

structure UnsignedTokenOperation where
  version : UInt8
  chainId : String
  nonce : Nonce
  fromAddress : Address
  kind : TokenOperationKind
  tokenId : Hash
  toAddress : Option Address
  amount : Amount
  fee : Amount
  publicKey : PublicKey
  name : String
  symbol : String
  decimals : UInt8
  maxSupply : Option Amount
  mintAuthority : Option Address
  burnAuthority : Option Address
  freezeAuthority : Option Address
  metadataUri : String
  metadataHash : Hash
  memo : String
  deriving DecidableEq

structure TokenOperation where
  unsigned : UnsignedTokenOperation
  signature : Signature
  deriving DecidableEq

structure TokenDefinition where
  tokenId : Hash
  creator : Address
  name : String
  symbol : String
  decimals : UInt8
  totalSupply : Amount
  maxSupply : Option Amount
  mintAuthority : Option Address
  burnAuthority : Option Address
  freezeAuthority : Option Address
  metadataUri : String
  metadataHash : Hash
  paused : Bool
  deriving DecidableEq

inductive ProgramOperationKind where
  | deploy
  | call
  | storageSet
  | close
  deriving DecidableEq

structure ProgramOperation where
  version : UInt8
  chainId : String
  kind : ProgramOperationKind
  nonce : U64
  fee : Amount
  programId : String
  package : List UInt8
  gasLimit : U64
  key : String
  value : String
  publicKey : PublicKey
  signature : Signature
  deriving DecidableEq

structure ProgramRecord where
  package : List UInt8
  creator : Address
  deployedAtHeight : U64
  storage : BTreeMap String String
  deriving DecidableEq

structure ProgramReceiptRecord where
  operationId : Hash
  programId : String
  kind : ProgramOperationKind
  status : String
  returnData : List UInt8
  gasUsed : U64
  gasLimit : U64
  feePaid : Amount
  error : Option String
  deriving DecidableEq

/-! ## 5. Blocks -/

structure BlockHeader where
  version : UInt8
  chainId : String
  height : U64
  parentHash : Hash
  timestamp : U64
  transactionRoot : Hash
  stateRoot : Hash
  proposer : Option PublicKey
  proposerSignature : Option Signature
  deriving DecidableEq

structure Block where
  header : BlockHeader
  transactions : List Transaction
  assetOperations : List AssetOperation
  tokenOperations : List TokenOperation
  mnaSwapOperations : List MnaSwapOperation
  mnaReserveOperations : List MnaReserveOperation
  programOperations : List ProgramOperation
  deriving DecidableEq

end WorldstreetChain
