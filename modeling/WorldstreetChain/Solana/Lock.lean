import WorldstreetChain.Core.Types
import WorldstreetChain.Library.Unsigned

/-!
# Locking (`wsol-bridge-program`)

The arms of the bridge program that take a deposit: native SOL for wrapped SOL, native SOL for
MNA, and one SPL mint. An arm reads the instruction data, checks the accounts it is handed, marks
the deposit id as used, has the amount transferred into the vault and writes one line to the log.

* `Solana.lockOf` -- the lock an instruction of the program makes, if it makes one.
* `Solana.Lock.message` -- the line it writes.
* `Solana.lockOf_moved` -- **what a lock moves into the vault** is the amount it names.
-/

namespace WorldstreetChain

namespace Solana

abbrev Pubkey := Vector UInt8 32

inductive ProgramError where
  | invalidInstructionData
  | invalidArgument
  | invalidAccountData
  | notEnoughAccountKeys
  | missingRequiredSignature
  | illegalOwner
  | accountAlreadyInitialized
  | incorrectProgramId
  | insufficientFunds
  | arithmeticOverflow
  | invocation (text : String)
  deriving DecidableEq

/-- An account as the program is handed it. -/
structure AccountInfo where
  key : Pubkey
  owner : Pubkey
  isSigner : Bool
  isWritable : Bool
  data : List UInt8

/-- What the program asks another program for. -/
inductive Cpi where
  | createAccount (payer account : Pubkey) (lamports space : Nat) (owner : Pubkey)
  | transfer (source destination : Pubkey) (amount : U64)
  | transferChecked (source mint destination authority : Pubkey) (amount : U64) (decimals : UInt8)

/-- A character of a key in base 58. -/
def base58 (c : Char) : Bool :=
  ('1' ≤ c && c ≤ '9') || ('A' ≤ c && c ≤ 'H') || ('J' ≤ c && c ≤ 'N') || ('P' ≤ c && c ≤ 'Z')
    || ('a' ≤ c && c ≤ 'k') || ('m' ≤ c && c ≤ 'z')

/-- The runtime the program is executed in. `invoke` is how it answers the program's calls. -/
structure Runtime where
  findProgramAddress : List (List UInt8) → Pubkey → Pubkey
  minimumBalance : Nat → Nat
  invoke : Cpi → Outcome ProgramError Unit
  /-- `Display` of a key. -/
  text : Pubkey → List Char
  text_base58 : ∀ k, ∀ c ∈ text k, base58 c = true
  text_length : ∀ k, 32 ≤ (text k).length ∧ (text k).length ≤ 44

/-- The shortest text a key can have. -/
theorem ones_base58 : ∀ c ∈ List.replicate 32 '1', base58 c = true := by
  intro c hc
  rw [List.eq_of_mem_replicate hc]
  decide

theorem ones_length : 32 ≤ (List.replicate 32 '1').length ∧ (List.replicate 32 '1').length ≤ 44 :=
  by decide

def systemProgram : Pubkey := Vector.replicate 32 0

def splTokenProgramId : Pubkey :=
  #v[6, 221, 246, 225, 215, 101, 161, 147, 217, 203, 225, 70, 206, 235, 121, 172, 28, 180, 133, 237,
    95, 91, 55, 145, 58, 140, 245, 133, 126, 255, 0, 169]

def tagLockNativeSol : UInt8 := 1
def tagLockSpl : UInt8 := 3
def tagLockNativeSolMna : UInt8 := 5

def stateLen : Nat := 96
def replayLen : Nat := 1

/-! ## 1. Instruction data and accounts -/

/-- `from_le_bytes`. -/
def leNat (bytes : List UInt8) : Nat := bytes.foldr (fun b n => b.toNat + 256 * n) 0

/-- `input.get(start..stop)`. -/
def slice (input : List UInt8) (start stop : Nat) : Option (List UInt8) :=
  if stop ≤ input.length then some ((input.take stop).drop start) else none

def readU64 (input : List UInt8) : Outcome ProgramError U64 :=
  if 8 ≤ input.length then .ok (BitVec.ofNat 64 (leNat (input.take 8)))
  else .error (.err .invalidInstructionData)

def readId (input : List UInt8) : Outcome ProgramError (Vector UInt8 32) :=
  if h : 32 ≤ input.length then .ok ⟨(input.take 32).toArray, by simp [h]⟩
  else .error (.err .invalidInstructionData)

/-- The key in 32 bytes of an account's data. -/
def keyAt (data : List UInt8) (start : Nat) : Pubkey :=
  Vector.ofFn fun i => (data.drop start).getD i.val 0

/-- The authority, the vault and the mint of the program's state account. -/
def readState (state : AccountInfo) (programId : Pubkey) :
    Outcome ProgramError (Pubkey × Pubkey × Pubkey) := do
  rejectIf (state.owner ≠ programId ∨ state.data.length ≠ stateLen) .invalidAccountData
  .ok (keyAt state.data 0, keyAt state.data 32, keyAt state.data 64)

def validateReplay (replay : AccountInfo) (programId : Pubkey) : Outcome ProgramError Unit := do
  rejectIf (replay.owner = programId) .accountAlreadyInitialized
  rejectIf (replay.owner ≠ systemProgram) .illegalOwner

def readTokenAccount (account : AccountInfo) (mint owner : Pubkey) :
    Outcome ProgramError U64 := do
  rejectIf (account.owner ≠ splTokenProgramId ∨ account.data.length < 72) .invalidAccountData
  rejectIf (keyAt account.data 0 ≠ mint ∨ keyAt account.data 32 ≠ owner) .invalidAccountData
  .ok (BitVec.ofNat 64 (leNat ((account.data.take 72).drop 64)))

def readMintDecimals (mint : AccountInfo) : Outcome ProgramError UInt8 := do
  rejectIf (mint.owner ≠ splTokenProgramId ∨ mint.data.length < 45) .invalidAccountData
  .ok (mint.data.getD 44 0)

/-- The data of a lock, checked. -/
structure LockInput where
  amount : U64
  depositId : Vector UInt8 32
  destination : List UInt8
  amount_ne_zero : amount ≠ 0
  destination_ne_nil : destination ≠ []
  ascii : destination.all (· < 128) = true

/-- The arms read their data in one way. -/
def readLock (rest : List UInt8) : Outcome ProgramError LockInput := do
  let amount ← readU64 rest
  let depositId ← readId (rest.drop 8)
  let destLen ← orFail (slice rest 40 42) .invalidInstructionData
  let destination ← orFail (slice rest 42 (42 + leNat destLen)) .invalidInstructionData
  rejectIf (128 < destination.length) .invalidArgument
  if h : amount ≠ 0 ∧ destination ≠ [] ∧ destination.all (· < 128) = true then
    .ok ⟨amount, depositId, destination, h.1, h.2.1, h.2.2⟩
  else .error (.err .invalidArgument)

section Arms

variable (R : Runtime) (programId : Pubkey)

def createPda (payer account : AccountInfo) (seeds : List (List UInt8)) (space : Nat) :
    Outcome ProgramError (List Cpi) :=
  if account.key ≠ R.findProgramAddress seeds programId ∨ account.owner = programId then .ok []
  else do
    rejectIf (account.owner ≠ systemProgram) .illegalOwner
    let create := .createAccount payer.key account.key (R.minimumBalance space) space programId
    R.invoke create
    .ok [create]

def transferChecked (tokenProgram source mint destination authority : AccountInfo) (amount : U64)
    (decimals : UInt8) : Outcome ProgramError Cpi := do
  rejectIf (tokenProgram.key ≠ splTokenProgramId) .incorrectProgramId
  let cpi := .transferChecked source.key mint.key destination.key authority.key amount decimals
  R.invoke cpi
  .ok cpi

/-! ## 2. The locks -/

/-- What is locked, and what for. -/
inductive Lane where
  | wsol
  | mna
  | spl (mint : Pubkey) (decimals : UInt8)

/-- A lock that went through: what it was told, the account it locked into, and what it asked the
    runtime for. -/
structure Lock where
  lane : Lane
  input : LockInput
  vault : Pubkey
  cpis : List Cpi

/-- `TAG_LOCK_NATIVE_SOL | TAG_LOCK_NATIVE_SOL_MNA`. -/
def lockNative (lane : Lane) (accounts : List AccountInfo) (rest : List UInt8) :
    Outcome ProgramError Lock := do
  let input ← readLock rest
  match accounts with
  | depositor :: vault :: state :: replay :: system :: _ =>
    rejectIf (depositor.isSigner = false ∨ vault.isWritable = false ∨ replay.isWritable = false
      ∨ system.key ≠ systemProgram) .missingRequiredSignature
    let (_, expectedVault, _) ← readState state programId
    rejectIf (expectedVault ≠ vault.key ∨ vault.owner ≠ programId) .invalidAccountData
    let seeds := ["deposit".toUTF8.toList, input.depositId.toList]
    rejectIf (replay.key ≠ R.findProgramAddress seeds programId) .invalidArgument
    validateReplay replay programId
    let created ← createPda R programId depositor replay seeds replayLen
    let cpi := .transfer depositor.key vault.key input.amount
    R.invoke cpi
    .ok ⟨lane, input, vault.key, created ++ [cpi]⟩
  | _ => .error (.err .notEnoughAccountKeys)

/-- `TAG_LOCK_SPL`. -/
def lockSpl (accounts : List AccountInfo) (rest : List UInt8) : Outcome ProgramError Lock := do
  let input ← readLock rest
  match accounts with
  | depositor :: source :: mint :: vaultToken :: vault :: state :: replay :: tokenProgram
      :: system :: _ =>
    rejectIf (depositor.isSigner = false ∨ source.isWritable = false
      ∨ vaultToken.isWritable = false ∨ replay.isWritable = false ∨ system.key ≠ systemProgram)
      .missingRequiredSignature
    let (_, expectedVault, expectedMint) ← readState state programId
    rejectIf (expectedMint = Vector.replicate 32 0 ∨ expectedVault ≠ vault.key
      ∨ expectedMint ≠ mint.key) .invalidArgument
    let decimals ← readMintDecimals mint
    let _ ← readTokenAccount source mint.key depositor.key
    let _ ← readTokenAccount vaultToken mint.key vault.key
    let seeds := ["spl-deposit".toUTF8.toList, input.depositId.toList]
    rejectIf (replay.key ≠ R.findProgramAddress seeds programId) .invalidArgument
    validateReplay replay programId
    let created ← createPda R programId depositor replay seeds replayLen
    let cpi ← transferChecked R tokenProgram source mint vaultToken depositor input.amount decimals
    .ok ⟨.spl mint.key decimals, input, vaultToken.key, created ++ [cpi]⟩
  | _ => .error (.err .notEnoughAccountKeys)

/-- The lock an instruction of the program makes; the other tags lock nothing. -/
def lockOf (accounts : List AccountInfo) : List UInt8 → Option Lock
  | [] => none
  | tag :: rest =>
    if tag = tagLockNativeSol then (lockNative R programId .wsol accounts rest).toOption
    else if tag = tagLockNativeSolMna then (lockNative R programId .mna accounts rest).toOption
    else if tag = tagLockSpl then (lockSpl R programId accounts rest).toOption
    else none

end Arms

/-! ## 3. The line of a lock -/

/-- The destination is ASCII text. -/
def LockInput.text (i : LockInput) : List Char := i.destination.map fun b => Char.ofNat b.toNat

/-- The deposit id in hexadecimal digits. -/
def LockInput.id (i : LockInput) : List Char := i.depositId.toList.flatMap hexByte

/-- A number as `msg!` prints it. -/
def decimal (n : Nat) : List Char := (toString n).toList

def depositLine (label : String) (i : LockInput) : List Char :=
  (label ++ " id=").toList ++ (i.id ++ (" amount=".toList ++ (decimal i.amount.toNat
    ++ (" destination=".toList ++ i.text))))

def splLine (mint : List Char) (decimals : UInt8) (i : LockInput) : List Char :=
  "INTERTRAIN_SPL_DEPOSIT id=".toList ++ (i.id ++ (" mint=".toList ++ (mint ++ (" amount=".toList
    ++ (decimal i.amount.toNat ++ (" decimals=".toList ++ (decimal decimals.toNat
    ++ (" destination=".toList ++ i.text))))))))

/-- The line a lock writes with `msg!`. -/
def Lock.message (R : Runtime) (l : Lock) : List Char :=
  match l.lane with
  | .wsol => depositLine "INTERTRAIN_WSOL_DEPOSIT" l.input
  | .mna => depositLine "INTERTRAIN_SOL_MNA_DEPOSIT" l.input
  | .spl mint decimals => splLine (R.text mint) decimals l.input

/-! ## 4. What a lock moves -/

/-- What a call moves into an account by a transfer. -/
def Cpi.into (account : Pubkey) : Cpi → Nat
  | .createAccount _ _ _ _ _ => 0
  | .transfer _ destination amount => if destination = account then amount.toNat else 0
  | .transferChecked _ _ destination _ amount _ =>
    if destination = account then amount.toNat else 0

/-- What a lock moves into the vault. -/
def Lock.moved (l : Lock) : Nat := (l.cpis.map (Cpi.into l.vault)).sum

variable {R : Runtime} {programId : Pubkey} {accounts : List AccountInfo} {l : Lock}

/-- Marking a deposit id as used moves nothing. -/
theorem createPda_into {payer account : AccountInfo} {seeds : List (List UInt8)} {space : Nat}
    {cpis : List Cpi} (h : createPda R programId payer account seeds space = .ok cpis)
    (vault : Pubkey) : (cpis.map (Cpi.into vault)).sum = 0 := by
  unfold createPda at h
  split at h
  · cases h
    rfl
  · obtain ⟨-, h⟩ := rejectIf_bind_eq_ok.mp h
    obtain ⟨_, -, h⟩ := Outcome.bind_eq_ok.mp h
    cases h
    rfl

theorem lockNative_moved {lane : Lane} {rest : List UInt8}
    (h : lockNative R programId lane accounts rest = .ok l) :
    l.moved = l.input.amount.toNat := by
  unfold lockNative at h
  obtain ⟨input, -, h⟩ := Outcome.bind_eq_ok.mp h
  split at h
  · obtain ⟨-, h⟩ := rejectIf_bind_eq_ok.mp h
    obtain ⟨_, -, h⟩ := Outcome.bind_eq_ok.mp h
    obtain ⟨-, h⟩ := rejectIf_bind_eq_ok.mp h
    obtain ⟨-, h⟩ := rejectIf_bind_eq_ok.mp h
    obtain ⟨_, -, h⟩ := Outcome.bind_eq_ok.mp h
    obtain ⟨created, hcreated, h⟩ := Outcome.bind_eq_ok.mp h
    obtain ⟨_, -, h⟩ := Outcome.bind_eq_ok.mp h
    cases h
    rw [Lock.moved, List.map_append, List.sum_append, createPda_into hcreated]
    simp [Cpi.into]
  · cases h

theorem lockSpl_moved {rest : List UInt8} (h : lockSpl R programId accounts rest = .ok l) :
    l.moved = l.input.amount.toNat := by
  unfold lockSpl at h
  obtain ⟨input, -, h⟩ := Outcome.bind_eq_ok.mp h
  split at h
  · obtain ⟨-, h⟩ := rejectIf_bind_eq_ok.mp h
    obtain ⟨_, -, h⟩ := Outcome.bind_eq_ok.mp h
    obtain ⟨-, h⟩ := rejectIf_bind_eq_ok.mp h
    obtain ⟨decimals, -, h⟩ := Outcome.bind_eq_ok.mp h
    obtain ⟨_, -, h⟩ := Outcome.bind_eq_ok.mp h
    obtain ⟨_, -, h⟩ := Outcome.bind_eq_ok.mp h
    obtain ⟨-, h⟩ := rejectIf_bind_eq_ok.mp h
    obtain ⟨_, -, h⟩ := Outcome.bind_eq_ok.mp h
    obtain ⟨created, hcreated, h⟩ := Outcome.bind_eq_ok.mp h
    obtain ⟨cpi, hcpi, h⟩ := Outcome.bind_eq_ok.mp h
    cases h
    unfold transferChecked at hcpi
    obtain ⟨-, hcpi⟩ := rejectIf_bind_eq_ok.mp hcpi
    obtain ⟨_, -, hcpi⟩ := Outcome.bind_eq_ok.mp hcpi
    cases hcpi
    rw [Lock.moved, List.map_append, List.sum_append, createPda_into hcreated]
    simp [Cpi.into]
  · cases h

theorem toOption_eq_some {ε α : Type} {x : Outcome ε α} {a : α} :
    Except.toOption x = some a ↔ x = .ok a := by
  cases x with
  | error e =>
    constructor
    · intro h
      cases h
    · intro h
      cases h
  | ok b =>
    constructor
    · intro h
      cases h
      rfl
    · intro h
      cases h
      rfl

/-- **What a lock moves into the vault** is the amount it was told. -/
theorem lockOf_moved {input : List UInt8} (h : lockOf R programId accounts input = some l) :
    l.moved = l.input.amount.toNat := by
  unfold lockOf at h
  split at h
  · cases h
  · split at h
    · exact lockNative_moved (toOption_eq_some.mp h)
    · split at h
      · exact lockNative_moved (toOption_eq_some.mp h)
      · split at h
        · exact lockSpl_moved (toOption_eq_some.mp h)
        · cases h

end Solana

end WorldstreetChain
