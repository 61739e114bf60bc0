import Mathlib.Logic.Function.Basic
import WorldstreetChain.Core.Crypto
import WorldstreetChain.Solana.Lock
import WorldstreetChain.Library.Runs

/-!
# The bridge program on the ledger (`wsol-bridge-program`)

The program's instructions as steps of the ledger of accounts. What an instruction asks other
programs for is carried out by the cluster; an instruction that fails changes nothing.

* `Solana.processInstruction` -- the six instructions.
* `Solana.Cluster.Lawful` -- what the program relies on: the system program, the token program and
  the rule for signers of a call.
* `Solana.Effect`, `Solana.process_effect` -- **what an instruction that succeeds has done**.
-/

namespace WorldstreetChain

namespace Solana

/-! ## 1. The ledger and the cluster -/

structure Account where
  lamports : Nat
  owner : Pubkey
  data : List UInt8
  deriving DecidableEq

/-- Every address has an account; an unused one is empty and the system program's. -/
abbrev Ledger := Pubkey → Account

/-- An account of an instruction, as the transaction lists it. -/
structure AccountMeta where
  key : Pubkey
  isSigner : Bool
  isWritable : Bool
  deriving DecidableEq

/-- The accounts for which a call carries a signature and which it may change. -/
structure Privileges where
  signer : Pubkey → Bool
  writable : Pubkey → Bool

/-- The cluster the program is deployed on. `call` carries out what a program asks another for. -/
structure Cluster where
  runtime : Runtime
  programId : Pubkey
  call : Privileges → Cpi → Ledger → Outcome ProgramError Ledger

/-- What an address is derived from. -/
abbrev Seeds := List (List UInt8)

def stateSeeds : Seeds := ["intertrain-wsol-state".toUTF8.toList]
def vaultSeeds : Seeds := ["intertrain-wsol-vault".toUTF8.toList]
def depositSeeds (id : Vector UInt8 32) : Seeds := ["deposit".toUTF8.toList, id.toList]
def releaseSeeds (id : Vector UInt8 32) : Seeds := ["release".toUTF8.toList, id.toList]
def splDepositSeeds (id : Vector UInt8 32) : Seeds := ["spl-deposit".toUTF8.toList, id.toList]
def splReleaseSeeds (id : Vector UInt8 32) : Seeds := ["spl-release".toUTF8.toList, id.toList]

/-- `Pubkey::default()`. -/
def defaultKey : Pubkey := Vector.replicate 32 0

def tagInitialize : UInt8 := 0
def tagReleaseNativeSol : UInt8 := 2
def tagReleaseSpl : UInt8 := 4

namespace Privileges

def ofAccounts (accounts : List AccountMeta) : Privileges where
  signer k := accounts.any fun a => a.key == k && a.isSigner
  writable k := accounts.any fun a => a.key == k && a.isWritable

/-- `invoke_signed`: the program signs for an address of its own. -/
def withSigner (P : Privileges) (k : Pubkey) : Privileges :=
  { P with signer := fun k' => P.signer k' || k' == k }

/-- An account the program creates is at an address of its own, and it signs for it. -/
def forCall (P : Privileges) : Cpi → Privileges
  | .createAccount _ account _ _ _ => P.withSigner account
  | _ => P

end Privileges

namespace Ledger

def setLamports (l : Ledger) (k : Pubkey) (lamports : Nat) : Ledger :=
  Function.update l k { l k with lamports }

def setData (l : Ledger) (k : Pubkey) (data : List UInt8) : Ledger :=
  Function.update l k { l k with data }

/-- The account as the program is handed it. -/
def info (l : Ledger) (a : AccountMeta) : AccountInfo where
  key := a.key
  owner := (l a.key).owner
  isSigner := a.isSigner
  isWritable := a.isWritable
  data := (l a.key).data

end Ledger

namespace Cluster

variable (C : Cluster)

/-- `Pubkey::find_program_address` for the program. -/
def address (seeds : Seeds) : Pubkey := C.runtime.findProgramAddress seeds C.programId

/-- The runtime a list of calls is collected in, to be carried out in order. -/
def collecting : Runtime := { C.runtime with invoke := fun _ => .ok () }

def perform (P : Privileges) : List Cpi → Ledger → Outcome ProgramError Ledger
  | [], l => .ok l
  | c :: rest, l => do
    let l ← C.call (P.forCall c) c l
    perform P rest l

end Cluster

/-! ## 2. The instructions -/

section Instructions

variable (C : Cluster) (l : Ledger) (accounts : List AccountMeta) (rest : List UInt8)

/-- `create_pda`, carried out. -/
def create (P : Privileges) (payer account : AccountMeta) (seeds : Seeds) (space : Nat)
    (l : Ledger) : Outcome ProgramError Ledger := do
  let cpis ← createPda C.collecting C.programId (l.info payer) (l.info account) seeds space
  C.perform P cpis l

/-- `TAG_INITIALIZE`. -/
def initializeBridge : Outcome ProgramError Ledger :=
  match accounts with
  | authority :: state :: vault :: system :: _ => do
    rejectIf (authority.isSigner = false ∨ state.isWritable = false ∨ vault.isWritable = false
      ∨ system.key ≠ systemProgram) .missingRequiredSignature
    rejectIf (rest.length ≠ 0 ∧ rest.length ≠ 32) .invalidInstructionData
    let configuredMint := if rest.isEmpty then defaultKey else keyAt rest 0
    rejectIf (state.key ≠ C.address stateSeeds ∨ vault.key ≠ C.address vaultSeeds)
      .invalidArgument
    let P := Privileges.ofAccounts accounts
    let l ← create C P authority state stateSeeds stateLen l
    let l ← create C P authority vault vaultSeeds 0 l
    let data := (l state.key).data
    rejectIf (data.length ≠ stateLen) .invalidAccountData
    rejectIf (keyAt data 0 ≠ defaultKey ∧ (keyAt data 0 ≠ authority.key
      ∨ keyAt data 32 ≠ vault.key ∨ keyAt data 64 ≠ configuredMint)) .illegalOwner
    .ok (l.setData state.key (authority.key.toList ++ vault.key.toList ++ configuredMint.toList))
  | _ => .error (.err .notEnoughAccountKeys)

/-- The arms that lock: what the lock asks for is carried out. -/
def lock (arm : Runtime → Pubkey → List AccountInfo → List UInt8 → Outcome ProgramError Lock) :
    Outcome ProgramError Ledger := do
  let made ← arm C.collecting C.programId (accounts.map l.info) rest
  C.perform (.ofAccounts accounts) made.cpis l

/-- `TAG_RELEASE_NATIVE_SOL`. -/
def releaseNativeSol : Outcome ProgramError Ledger := do
  let amount ← readU64 rest
  let burnId ← readId (rest.drop 8)
  match accounts with
  | authority :: state :: vault :: recipient :: replay :: system :: _ =>
    rejectIf (authority.isSigner = false ∨ vault.isWritable = false
      ∨ recipient.isWritable = false ∨ replay.isWritable = false ∨ system.key ≠ systemProgram)
      .missingRequiredSignature
    let (expectedAuthority, expectedVault, _) ← readState (l.info state) C.programId
    rejectIf (expectedAuthority ≠ authority.key ∨ expectedVault ≠ vault.key
      ∨ (l vault.key).owner ≠ C.programId ∨ amount = 0) .invalidArgument
    rejectIf (replay.key ≠ C.address (releaseSeeds burnId)) .invalidArgument
    validateReplay (l.info replay) C.programId
    let P := Privileges.ofAccounts accounts
    let l ← create C P authority replay (releaseSeeds burnId) replayLen l
    rejectIf ((l vault.key).lamports < amount.toNat) .insufficientFunds
    let l := l.setLamports vault.key ((l vault.key).lamports - amount.toNat)
    rejectIf (2 ^ 64 ≤ (l recipient.key).lamports + amount.toNat) .arithmeticOverflow
    .ok (l.setLamports recipient.key ((l recipient.key).lamports + amount.toNat))
  | _ => .error (.err .notEnoughAccountKeys)

/-- `read_recipient_token_account`. -/
def readRecipientTokenAccount (account : AccountInfo) (mint : Pubkey) :
    Outcome ProgramError Unit := do
  rejectIf (account.owner ≠ splTokenProgramId ∨ account.data.length < 72) .invalidAccountData
  rejectIf (keyAt account.data 0 ≠ mint) .invalidAccountData

/-- `TAG_RELEASE_SPL`: the vault signs, the state account is named as the authority. -/
def releaseSpl : Outcome ProgramError Ledger := do
  let amount ← readU64 rest
  let burnId ← readId (rest.drop 8)
  match accounts with
  | authority :: state :: vaultToken :: recipientToken :: mint :: replay :: tokenProgram
      :: system :: _ =>
    rejectIf (authority.isSigner = false ∨ vaultToken.isWritable = false
      ∨ recipientToken.isWritable = false ∨ replay.isWritable = false
      ∨ system.key ≠ systemProgram) .missingRequiredSignature
    let (expectedAuthority, expectedVault, expectedMint) ← readState (l.info state) C.programId
    rejectIf (expectedAuthority ≠ authority.key ∨ expectedMint = defaultKey
      ∨ expectedMint ≠ mint.key ∨ amount = 0) .invalidArgument
    let held ← readTokenAccount (l.info vaultToken) mint.key expectedVault
    let _ ← readMintDecimals (l.info mint)
    rejectIf (held < amount) .insufficientFunds
    readRecipientTokenAccount (l.info recipientToken) mint.key
    rejectIf (replay.key ≠ C.address (splReleaseSeeds burnId)) .invalidArgument
    validateReplay (l.info replay) C.programId
    let P := Privileges.ofAccounts accounts
    let l ← create C P authority replay (splReleaseSeeds burnId) replayLen l
    let decimals ← readMintDecimals (l.info mint)
    let cpi ← transferChecked C.collecting (l.info tokenProgram) (l.info vaultToken) (l.info mint)
      (l.info recipientToken) (l.info state) amount decimals
    C.call (P.withSigner (C.address vaultSeeds)) cpi l
  | _ => .error (.err .notEnoughAccountKeys)

end Instructions

/-- An instruction of the program. -/
structure Invocation where
  accounts : List AccountMeta
  input : List UInt8
  deriving DecidableEq

def processInstruction (C : Cluster) (l : Ledger) (i : Invocation) :
    Outcome ProgramError Ledger :=
  match i.input with
  | [] => .error (.err .invalidInstructionData)
  | tag :: rest =>
    if tag = tagInitialize then initializeBridge C l i.accounts rest
    else if tag = tagLockNativeSol then
      lock C l i.accounts rest fun R programId => lockNative R programId .wsol
    else if tag = tagLockNativeSolMna then
      lock C l i.accounts rest fun R programId => lockNative R programId .mna
    else if tag = tagReleaseNativeSol then releaseNativeSol C l i.accounts rest
    else if tag = tagLockSpl then lock C l i.accounts rest lockSpl
    else if tag = tagReleaseSpl then releaseSpl C l i.accounts rest
    else .error (.err .invalidInstructionData)

/-! ## 3. What the program relies on -/

namespace Ledger

/-- The ledger with lamports moved from one account to another. -/
def move (l : Ledger) (source destination : Pubkey) (amount : Nat) : Ledger :=
  let debited := l.setLamports source ((l source).lamports - amount)
  debited.setLamports destination ((debited destination).lamports + amount)

/-- The ledger with a new account paid for. -/
def created (l : Ledger) (payer account : Pubkey) (lamports space : Nat) (owner : Pubkey) :
    Ledger :=
  Function.update (l.setLamports payer ((l payer).lamports - lamports)) account
    ⟨lamports, owner, List.replicate space 0⟩

/-- What `create_account` asks of the two accounts. -/
@[mk_iff]
structure CanCreate (l : Ledger) (P : Privileges) (payer account : Pubkey) (lamports : Nat) :
    Prop where
  payerSigns : P.signer payer = true
  accountSigns : P.signer account = true
  payerWritable : P.writable payer = true
  accountWritable : P.writable account = true
  payerOwner : (l payer).owner = systemProgram
  payerData : (l payer).data = []
  enough : lamports ≤ (l payer).lamports
  unused : (l account).lamports = 0
  accountOwner : (l account).owner = systemProgram
  accountData : (l account).data = []

instance (l : Ledger) (P : Privileges) (payer account : Pubkey) (lamports : Nat) :
    Decidable (l.CanCreate P payer account lamports) :=
  decidable_of_iff' _ (canCreate_iff ..)

end Ledger

/-- The longest data an account can get from within a program. -/
def maxPermittedDataIncrease : Nat := 10240

/-- The rules of the cluster: the bridge is a program of its own, an account costs something, the
    system program creates unused accounts for payers who sign and moves lamports for those who
    sign, and the token program moves tokens for an authority that signs and changes accounts of its
    own only. -/
structure Cluster.Lawful (C : Cluster) : Prop where
  ne_system : C.programId ≠ systemProgram
  ne_token : C.programId ≠ splTokenProgramId
  rent_pos : ∀ space, 0 < C.runtime.minimumBalance space
  create_iff : ∀ (P : Privileges) (payer account : Pubkey) (lamports space : Nat) (owner : Pubkey)
    (l l' : Ledger), space ≤ maxPermittedDataIncrease →
    (C.call P (.createAccount payer account lamports space owner) l = .ok l' ↔
      l.CanCreate P payer account lamports ∧ l' = l.created payer account lamports space owner)
  transfer_ok : ∀ (P : Privileges) (source destination : Pubkey) (amount : U64) (l l' : Ledger),
    C.call P (.transfer source destination amount) l = .ok l' →
    P.signer source = true ∧ (l source).owner = systemProgram ∧
      amount.toNat ≤ (l source).lamports ∧ l' = l.move source destination amount.toNat
  token_ok : ∀ (P : Privileges) (source mint destination authority : Pubkey) (amount : U64)
    (decimals : UInt8) (l l' : Ledger),
    C.call P (.transferChecked source mint destination authority amount decimals) l = .ok l' →
    P.signer authority = true ∧
      (∀ k, (l k).owner ≠ splTokenProgramId → l' k = l k) ∧
      ∀ k, (l k).owner = splTokenProgramId → (l' k).owner = splTokenProgramId

/-! ## 4. What an instruction does -/

variable {C : Cluster} {l l' : Ledger} {P : Privileges} {i : Invocation}

/-- A marker of the program is paid for and created at an address that was unused. -/
structure Created (C : Cluster) (l : Ledger) (payer : Pubkey) (seeds : Seeds) (space : Nat)
    (l' : Ledger) : Prop where
  payerOwner : (l payer).owner = systemProgram
  enough : C.runtime.minimumBalance space ≤ (l payer).lamports
  unused : (l (C.address seeds)).lamports = 0
  owner : (l (C.address seeds)).owner = systemProgram
  eq : l' = l.created payer (C.address seeds) (C.runtime.minimumBalance space) space C.programId

theorem collecting_address (seeds : Seeds) :
    C.collecting.findProgramAddress seeds C.programId = C.address seeds := rfl

/-- What `create_pda` asks for at an address of the system program. -/
theorem createPda_eq (hne : C.programId ≠ systemProgram) {payer account : AccountMeta}
    {seeds : Seeds} {space : Nat} (hkey : account.key = C.address seeds)
    (howner : (l (C.address seeds)).owner = systemProgram) :
    createPda C.collecting C.programId (l.info payer) (l.info account) seeds space =
      .ok [.createAccount payer.key (C.address seeds) (C.runtime.minimumBalance space) space
        C.programId] := by
  have hinfo : (l.info account).owner = systemProgram := by rw [← howner, ← hkey]; rfl
  have hk : (l.info account).key = C.address seeds := hkey
  unfold createPda
  rw [collecting_address, if_neg (not_or.mpr ⟨not_not.mpr hk, hinfo ▸ Ne.symm hne⟩),
    rejectIf_neg (not_not.mpr hinfo), hk]
  rfl

/-- **What `create_pda` does** at the address of its seeds: nothing where the account is the
    program's already; elsewhere the account is created. -/
theorem create_cases (hC : C.Lawful) {payer account : AccountMeta} {seeds : Seeds} {space : Nat}
    (hspace : space ≤ maxPermittedDataIncrease) (hkey : account.key = C.address seeds)
    (h : create C P payer account seeds space l = .ok l') :
    ((l (C.address seeds)).owner = C.programId ∧ l' = l) ∨
      Created C l payer.key seeds space l' := by
  unfold create createPda at h
  rw [collecting_address] at h
  by_cases howner : (l account.key).owner = C.programId
  · have hinfo : (l.info account).owner = C.programId := howner
    rw [if_pos (Or.inr hinfo)] at h
    cases h
    exact Or.inl ⟨hkey ▸ howner, rfl⟩
  · have hinfo : ¬ ((l.info account).key ≠ C.address seeds ∨
        (l.info account).owner = C.programId) := by
      intro hor
      exact hor.elim (fun hne => hne hkey) howner
    rw [if_neg hinfo] at h
    obtain ⟨cpis, hcpis, h⟩ := Outcome.bind_eq_ok.mp h
    obtain ⟨-, hcpis⟩ := rejectIf_bind_eq_ok.mp hcpis
    cases hcpis
    obtain ⟨l1, hcall, h⟩ := Outcome.bind_eq_ok.mp h
    cases h
    have hcall' := (hC.create_iff _ _ _ _ _ _ _ _ hspace).mp hcall
    have hk : (l.info account).key = C.address seeds := hkey
    rw [hk] at hcall'
    obtain ⟨hcan, heq⟩ := hcall'
    exact Or.inr ⟨hcan.payerOwner, hcan.enough, hcan.unused, hcan.accountOwner, heq⟩

/-- An address signs an instruction. -/
def Invocation.Signs (i : Invocation) (k : Pubkey) : Prop :=
  ∃ a ∈ i.accounts, a.key = k ∧ a.isSigner = true

/-- The marker an instruction is to leave: what its address is derived from. -/
def Invocation.marker (i : Invocation) : Option Seeds :=
  match i.input with
  | [] => none
  | tag :: rest =>
    match readId (rest.drop 8) with
    | .error _ => none
    | .ok id =>
      if tag = tagLockNativeSol ∨ tag = tagLockNativeSolMna then some (depositSeeds id)
      else if tag = tagReleaseNativeSol then some (releaseSeeds id)
      else if tag = tagLockSpl then some (splDepositSeeds id)
      else if tag = tagReleaseSpl then some (splReleaseSeeds id)
      else none

/-- The amount an instruction names. -/
def Invocation.amount (i : Invocation) : Nat :=
  match readU64 (i.input.drop 1) with
  | .ok amount => amount.toNat
  | .error _ => 0

/-- The bridge's settings as its state account holds them. -/
def bridgeData (authority vault mint : Pubkey) : List UInt8 :=
  authority.toList ++ vault.toList ++ mint.toList

/-- An account of the program that has the length of its state. -/
structure StateLike (C : Cluster) (l : Ledger) (k : Pubkey) : Prop where
  owner : (l k).owner = C.programId
  length : (l k).data.length = stateLen

/-- A marker is left that was not there. -/
structure Marks (C : Cluster) (l : Ledger) (i : Invocation) (payer : Pubkey) (seeds : Seeds)
    (l' : Ledger) : Prop where
  marker : i.marker = some seeds
  signs : i.Signs payer
  new : (l (C.address seeds)).owner ≠ C.programId
  created : Created C l payer seeds replayLen l'

/-- **What an instruction that succeeds has done.** -/
inductive Effect (C : Cluster) (l : Ledger) (i : Invocation) : Ledger → Prop where
  | initialized (rest : List UInt8) (htag : i.input = tagInitialize :: rest)
      (authority mint : Pubkey) (l1 l2 : Ledger) (hmarker : i.marker = none)
      (hsigns : i.Signs authority)
      (hstate : ((l (C.address stateSeeds)).owner = C.programId ∧ l1 = l) ∨
        Created C l authority stateSeeds stateLen l1)
      (hvault : ((l1 (C.address vaultSeeds)).owner = C.programId ∧ l2 = l1) ∨
        Created C l1 authority vaultSeeds 0 l2)
      (hlength : (l2 (C.address stateSeeds)).data.length = stateLen)
      (hsame : keyAt (l2 (C.address stateSeeds)).data 0 = defaultKey ∨
        (keyAt (l2 (C.address stateSeeds)).data 0 = authority ∧
          keyAt (l2 (C.address stateSeeds)).data 32 = C.address vaultSeeds ∧
          keyAt (l2 (C.address stateSeeds)).data 64 = mint)) :
      Effect C l i (l2.setData (C.address stateSeeds)
        (bridgeData authority (C.address vaultSeeds) mint))
  | locked (tag : UInt8) (rest : List UInt8) (htag : i.input = tag :: rest)
      (hnative : tag = tagLockNativeSol ∨ tag = tagLockNativeSolMna) (depositor state : Pubkey)
      (id : Vector UInt8 32) (l1 : Ledger) (hmarks : Marks C l i depositor (depositSeeds id) l1)
      (hstate : StateLike C l state) (hvault : (l (keyAt (l state).data 32)).owner = C.programId)
      (henough : i.amount ≤ (l1 depositor).lamports) :
      Effect C l i (l1.move depositor (keyAt (l state).data 32) i.amount)
  | released (rest : List UInt8) (htag : i.input = tagReleaseNativeSol :: rest)
      (recipient state : Pubkey) (id : Vector UInt8 32) (l1 : Ledger)
      (hmarks : Marks C l i (keyAt (l state).data 0) (releaseSeeds id) l1)
      (hstate : StateLike C l state) (hvault : (l (keyAt (l state).data 32)).owner = C.programId)
      (henough : i.amount ≤ (l1 (keyAt (l state).data 32)).lamports) :
      Effect C l i (l1.move (keyAt (l state).data 32) recipient i.amount)
  | lockedSpl (depositor : Pubkey) (id : Vector UInt8 32) (rest : List UInt8)
      (htag : i.input = tagLockSpl :: rest) (l1 l' : Ledger)
      (hmarks : Marks C l i depositor (splDepositSeeds id) l1) (P : Privileges)
      (source mint destination authority : Pubkey) (amount : U64) (decimals : UInt8)
      (htransfer : C.call P (.transferChecked source mint destination authority amount decimals)
        l1 = .ok l') : Effect C l i l'
  | releasedSpl (state : Pubkey) (id : Vector UInt8 32) (rest : List UInt8)
      (htag : i.input = tagReleaseSpl :: rest) (l1 l' : Ledger)
      (hmarks : Marks C l i (keyAt (l state).data 0) (splReleaseSeeds id) l1)
      (hstate : StateLike C l state) (hmint : keyAt (l state).data 64 ≠ defaultKey)
      (source mint destination : Pubkey) (amount : U64) (decimals : UInt8)
      (htransfer : C.call ((Privileges.ofAccounts i.accounts).withSigner (C.address vaultSeeds))
        (.transferChecked source mint destination state amount decimals) l1 = .ok l') :
      Effect C l i l'

theorem readState_eq_ok {state : AccountInfo} {r : Pubkey × Pubkey × Pubkey}
    (h : readState state C.programId = .ok r) :
    state.owner = C.programId ∧ state.data.length = stateLen ∧
      r = (keyAt state.data 0, keyAt state.data 32, keyAt state.data 64) := by
  obtain ⟨hc, h⟩ := rejectIf_bind_eq_ok.mp h
  rw [not_or, not_not, not_not] at hc
  exact ⟨hc.1, hc.2, (Except.ok.inj h).symm⟩

theorem validateReplay_eq_ok {replay : AccountInfo} {u : Unit}
    (h : validateReplay replay C.programId = .ok u) :
    replay.owner ≠ C.programId ∧ replay.owner = systemProgram := by
  obtain ⟨hne, h⟩ := rejectIf_bind_eq_ok.mp h
  exact ⟨hne, not_not.mp (rejectIf_eq_ok.mp h)⟩

/-- A marker that is created where it was checked not to be. -/
theorem marks_of_create (hC : C.Lawful) {payer replay : AccountMeta} {seeds : Seeds}
    (hmarker : i.marker = some seeds) (hsigns : i.Signs payer.key)
    (hkey : replay.key = C.address seeds) (hnew : (l replay.key).owner ≠ C.programId)
    (h : create C P payer replay seeds replayLen l = .ok l') :
    Marks C l i payer.key seeds l' := by
  rw [hkey] at hnew
  refine ⟨hmarker, hsigns, hnew, ?_⟩
  exact (create_cases hC (by decide) hkey h).resolve_left fun hold => hnew hold.1

theorem perform_append (cs ds : List Cpi) (l : Ledger) :
    C.perform P (cs ++ ds) l = C.perform P cs l >>= C.perform P ds := by
  induction cs generalizing l with
  | nil => rfl
  | cons c cs ih =>
    show (C.call (P.forCall c) c l >>= fun l => C.perform P (cs ++ ds) l) =
      ((C.call (P.forCall c) c l >>= fun l => C.perform P cs l) >>= C.perform P ds)
    rw [bind_assoc]
    refine bind_congr fun l => ?_
    exact ih l

theorem perform_single {c : Cpi} (h : C.perform P [c] l = .ok l') :
    C.call (P.forCall c) c l = .ok l' := by
  obtain ⟨l1, hcall, h⟩ := Outcome.bind_eq_ok.mp h
  cases h
  exact hcall

theorem signs_ofAccounts {k : Pubkey} :
    (Privileges.ofAccounts i.accounts).signer k = true ↔ i.Signs k := by
  simp [Privileges.ofAccounts, Invocation.Signs, List.any_eq_true]

theorem readLock_eq_ok {rest : List UInt8} {input : LockInput} (h : readLock rest = .ok input) :
    readU64 rest = .ok input.amount ∧ readId (rest.drop 8) = .ok input.depositId := by
  unfold readLock at h
  obtain ⟨amount, hamount, h⟩ := Outcome.bind_eq_ok.mp h
  obtain ⟨depositId, hid, h⟩ := Outcome.bind_eq_ok.mp h
  obtain ⟨_, -, h⟩ := Outcome.bind_eq_ok.mp h
  obtain ⟨_, -, h⟩ := Outcome.bind_eq_ok.mp h
  obtain ⟨-, h⟩ := rejectIf_bind_eq_ok.mp h
  split at h
  · have heq := Except.ok.inj h
    rw [← heq]
    exact ⟨hamount, hid⟩
  · cases h

theorem marker_eq {tag : UInt8} {rest : List UInt8} {id : Vector UInt8 32}
    (htag : i.input = tag :: rest) (hid : readId (rest.drop 8) = .ok id) :
    i.marker =
      if tag = tagLockNativeSol ∨ tag = tagLockNativeSolMna then some (depositSeeds id)
      else if tag = tagReleaseNativeSol then some (releaseSeeds id)
      else if tag = tagLockSpl then some (splDepositSeeds id)
      else if tag = tagReleaseSpl then some (splReleaseSeeds id)
      else none := by
  unfold Invocation.marker
  rw [htag]
  simp only [hid]

/-- The setting-up leaves no marker. -/
theorem marker_settingUp {rest : List UInt8} (htag : i.input = tagInitialize :: rest) :
    i.marker = none := by
  cases hread : readId (rest.drop 8) with
  | error e =>
    unfold Invocation.marker
    rw [htag]
    simp only [hread]
  | ok id =>
    rw [marker_eq htag hread, if_neg (by decide), if_neg (by decide), if_neg (by decide),
      if_neg (by decide)]

theorem amount_eq {tag : UInt8} {rest : List UInt8} {amount : U64} (htag : i.input = tag :: rest)
    (h : readU64 rest = .ok amount) : i.amount = amount.toNat := by
  have hdrop : i.input.drop 1 = rest := by rw [htag]; rfl
  unfold Invocation.amount
  rw [hdrop, h]

/-- A lock of native SOL. -/
theorem lockNative_effect (hC : C.Lawful) {tag : UInt8} {rest : List UInt8} {lane : Lane}
    (htag : i.input = tag :: rest) (hnative : tag = tagLockNativeSol ∨ tag = tagLockNativeSolMna)
    (h : lock C l i.accounts rest (fun R programId => lockNative R programId lane) = .ok l') :
    Effect C l i l' := by
  obtain ⟨made, hmade, hperform⟩ := Outcome.bind_eq_ok.mp h
  unfold lockNative at hmade
  obtain ⟨input, hinput, hmade⟩ := Outcome.bind_eq_ok.mp hmade
  obtain ⟨hamount, hid⟩ := readLock_eq_ok hinput
  have hmarker : i.marker = some (depositSeeds input.depositId) :=
    (marker_eq htag hid).trans (if_pos hnative)
  have hvalue := amount_eq htag hamount
  rcases haccounts : i.accounts with _ | ⟨depositor, _ | ⟨vault, _ | ⟨state, _ | ⟨replay, _ |
    ⟨system, more⟩⟩⟩⟩⟩
  iterate 5
    rw [haccounts] at hmade
    cases hmade
  rw [haccounts] at hmade
  obtain ⟨hflags, hmade⟩ := rejectIf_bind_eq_ok.mp hmade
  obtain ⟨r, hstate, hmade⟩ := Outcome.bind_eq_ok.mp hmade
  obtain ⟨howner, hlength, rfl⟩ := readState_eq_ok hstate
  obtain ⟨hvault, hmade⟩ := rejectIf_bind_eq_ok.mp hmade
  obtain ⟨hreplay, hmade⟩ := rejectIf_bind_eq_ok.mp hmade
  obtain ⟨_, hvalid, hmade⟩ := Outcome.bind_eq_ok.mp hmade
  obtain ⟨cpis, hcreate, hmade⟩ := Outcome.bind_eq_ok.mp hmade
  obtain ⟨_, -, hmade⟩ := Outcome.bind_eq_ok.mp hmade
  have hcpis := congrArg Lock.cpis (Except.ok.inj hmade)
  rw [← hcpis, perform_append] at hperform
  obtain ⟨l1, hcreated, htransfer⟩ := Outcome.bind_eq_ok.mp hperform
  rw [not_or, not_not, not_not] at hvault
  have hsigns : i.Signs depositor.key :=
    ⟨depositor, by rw [haccounts]; exact List.mem_cons_self, rfl,
      Bool.eq_true_of_not_eq_false (not_or.mp hflags).1⟩
  have hmarks : Marks C l i depositor.key (depositSeeds input.depositId) l1 :=
    marks_of_create hC hmarker hsigns (not_not.mp hreplay) (validateReplay_eq_ok hvalid).1
      (Outcome.bind_eq_ok.mpr ⟨cpis, hcreate, hcreated⟩)
  obtain ⟨-, -, henough, rfl⟩ := hC.transfer_ok _ _ _ _ _ _ (perform_single htransfer)
  have hkey : vault.key = keyAt (l state.key).data 32 := hvault.1.symm
  have heffect := Effect.locked tag rest htag hnative depositor.key state.key input.depositId l1
    hmarks ⟨howner, hlength⟩ (by rw [← hkey]; exact hvault.2) (by rw [hvalue]; exact henough)
  rw [← hkey, hvalue] at heffect
  exact heffect

/-- A lock of the SPL mint. -/
theorem lockSpl_effect (hC : C.Lawful) {rest : List UInt8} (htag : i.input = tagLockSpl :: rest)
    (h : lock C l i.accounts rest lockSpl = .ok l') : Effect C l i l' := by
  obtain ⟨made, hmade, hperform⟩ := Outcome.bind_eq_ok.mp h
  unfold lockSpl at hmade
  obtain ⟨input, hinput, hmade⟩ := Outcome.bind_eq_ok.mp hmade
  obtain ⟨-, hid⟩ := readLock_eq_ok hinput
  have hmarker : i.marker = some (splDepositSeeds input.depositId) :=
    (marker_eq htag hid).trans (by rw [if_neg (by decide), if_neg (by decide), if_pos rfl])
  rcases haccounts : i.accounts with _ | ⟨depositor, _ | ⟨source, _ | ⟨mint, _ | ⟨vaultToken, _ |
    ⟨vault, _ | ⟨state, _ | ⟨replay, _ | ⟨tokenProgram, _ | ⟨system, more⟩⟩⟩⟩⟩⟩⟩⟩⟩
  iterate 9
    rw [haccounts] at hmade
    cases hmade
  rw [haccounts] at hmade
  obtain ⟨hflags, hmade⟩ := rejectIf_bind_eq_ok.mp hmade
  obtain ⟨r, -, hmade⟩ := Outcome.bind_eq_ok.mp hmade
  obtain ⟨-, hmade⟩ := rejectIf_bind_eq_ok.mp hmade
  obtain ⟨decimals, -, hmade⟩ := Outcome.bind_eq_ok.mp hmade
  obtain ⟨_, -, hmade⟩ := Outcome.bind_eq_ok.mp hmade
  obtain ⟨_, -, hmade⟩ := Outcome.bind_eq_ok.mp hmade
  obtain ⟨hreplay, hmade⟩ := rejectIf_bind_eq_ok.mp hmade
  obtain ⟨_, hvalid, hmade⟩ := Outcome.bind_eq_ok.mp hmade
  obtain ⟨cpis, hcreate, hmade⟩ := Outcome.bind_eq_ok.mp hmade
  obtain ⟨cpi, hcpi, hmade⟩ := Outcome.bind_eq_ok.mp hmade
  have hcpis := congrArg Lock.cpis (Except.ok.inj hmade)
  rw [← hcpis, perform_append] at hperform
  obtain ⟨l1, hcreated, htransfer⟩ := Outcome.bind_eq_ok.mp hperform
  have hsigns : i.Signs depositor.key :=
    ⟨depositor, by rw [haccounts]; exact List.mem_cons_self, rfl,
      Bool.eq_true_of_not_eq_false (not_or.mp hflags).1⟩
  have hmarks : Marks C l i depositor.key (splDepositSeeds input.depositId) l1 :=
    marks_of_create hC hmarker hsigns (not_not.mp hreplay) (validateReplay_eq_ok hvalid).1
      (Outcome.bind_eq_ok.mpr ⟨cpis, hcreate, hcreated⟩)
  obtain ⟨-, hcpi⟩ := rejectIf_bind_eq_ok.mp hcpi
  have heq := Except.ok.inj hcpi
  rw [← heq] at htransfer
  exact .lockedSpl depositor.key input.depositId rest htag l1 l' hmarks _ _ _ _ _ _ _
    (perform_single htransfer)

/-- A release of native SOL. -/
theorem releaseNativeSol_effect (hC : C.Lawful) {rest : List UInt8}
    (htag : i.input = tagReleaseNativeSol :: rest)
    (h : releaseNativeSol C l i.accounts rest = .ok l') : Effect C l i l' := by
  unfold releaseNativeSol at h
  obtain ⟨amount, hamount, h⟩ := Outcome.bind_eq_ok.mp h
  obtain ⟨burnId, hid, h⟩ := Outcome.bind_eq_ok.mp h
  have hmarker : i.marker = some (releaseSeeds burnId) :=
    (marker_eq htag hid).trans (by rw [if_neg (by decide), if_pos rfl])
  have hvalue := amount_eq htag hamount
  rcases haccounts : i.accounts with _ | ⟨authority, _ | ⟨state, _ | ⟨vault, _ | ⟨recipient, _ |
    ⟨replay, _ | ⟨system, more⟩⟩⟩⟩⟩⟩
  iterate 6
    rw [haccounts] at h
    cases h
  rw [haccounts] at h
  obtain ⟨hflags, h⟩ := rejectIf_bind_eq_ok.mp h
  obtain ⟨r, hstate, h⟩ := Outcome.bind_eq_ok.mp h
  obtain ⟨howner, hlength, rfl⟩ := readState_eq_ok hstate
  obtain ⟨hvault, h⟩ := rejectIf_bind_eq_ok.mp h
  obtain ⟨hreplay, h⟩ := rejectIf_bind_eq_ok.mp h
  obtain ⟨_, hvalid, h⟩ := Outcome.bind_eq_ok.mp h
  obtain ⟨l1, hcreate, h⟩ := Outcome.bind_eq_ok.mp h
  obtain ⟨henough, h⟩ := rejectIf_bind_eq_ok.mp h
  obtain ⟨-, h⟩ := rejectIf_bind_eq_ok.mp h
  have heq := Except.ok.inj h
  rw [← haccounts] at hcreate
  rw [not_or, not_or, not_or, not_not, not_not, not_not] at hvault
  obtain ⟨hauthority, hkey, hprogram, -⟩ := hvault
  have hsigns : i.Signs authority.key :=
    ⟨authority, by rw [haccounts]; exact List.mem_cons_self, rfl,
      Bool.eq_true_of_not_eq_false (not_or.mp hflags).1⟩
  have hmarks : Marks C l i authority.key (releaseSeeds burnId) l1 :=
    marks_of_create hC hmarker hsigns (not_not.mp hreplay) (validateReplay_eq_ok hvalid).1 hcreate
  have hk1 : keyAt (l state.key).data 0 = authority.key := hauthority
  have hk2 : keyAt (l state.key).data 32 = vault.key := hkey
  have heffect := Effect.released rest htag recipient.key state.key burnId l1
    (by rw [hk1]; exact hmarks) ⟨howner, hlength⟩ (by rw [hk2]; exact hprogram)
    (by rw [hk2, hvalue]; exact Nat.not_lt.mp henough)
  rw [hk2, hvalue] at heffect
  rw [← heq]
  exact heffect

/-- A release of the SPL mint. -/
theorem releaseSpl_effect (hC : C.Lawful) {rest : List UInt8}
    (htag : i.input = tagReleaseSpl :: rest)
    (h : releaseSpl C l i.accounts rest = .ok l') : Effect C l i l' := by
  unfold releaseSpl at h
  obtain ⟨amount, -, h⟩ := Outcome.bind_eq_ok.mp h
  obtain ⟨burnId, hid, h⟩ := Outcome.bind_eq_ok.mp h
  have hmarker : i.marker = some (splReleaseSeeds burnId) :=
    (marker_eq htag hid).trans (by
      rw [if_neg (by decide), if_neg (by decide), if_neg (by decide), if_pos rfl])
  rcases haccounts : i.accounts with _ | ⟨authority, _ | ⟨state, _ | ⟨vaultToken, _ |
    ⟨recipientToken, _ | ⟨mint, _ | ⟨replay, _ | ⟨tokenProgram, _ | ⟨system, more⟩⟩⟩⟩⟩⟩⟩⟩
  iterate 8
    rw [haccounts] at h
    cases h
  rw [haccounts] at h
  obtain ⟨hflags, h⟩ := rejectIf_bind_eq_ok.mp h
  obtain ⟨r, hstate, h⟩ := Outcome.bind_eq_ok.mp h
  obtain ⟨howner, hlength, rfl⟩ := readState_eq_ok hstate
  obtain ⟨hconfig, h⟩ := rejectIf_bind_eq_ok.mp h
  obtain ⟨_, -, h⟩ := Outcome.bind_eq_ok.mp h
  obtain ⟨_, -, h⟩ := Outcome.bind_eq_ok.mp h
  obtain ⟨-, h⟩ := rejectIf_bind_eq_ok.mp h
  obtain ⟨_, -, h⟩ := Outcome.bind_eq_ok.mp h
  obtain ⟨hreplay, h⟩ := rejectIf_bind_eq_ok.mp h
  obtain ⟨_, hvalid, h⟩ := Outcome.bind_eq_ok.mp h
  obtain ⟨l1, hcreate, h⟩ := Outcome.bind_eq_ok.mp h
  obtain ⟨decimals, -, h⟩ := Outcome.bind_eq_ok.mp h
  obtain ⟨cpi, hcpi, hcall⟩ := Outcome.bind_eq_ok.mp h
  obtain ⟨-, hcpi⟩ := rejectIf_bind_eq_ok.mp hcpi
  have heq := Except.ok.inj hcpi
  rw [← haccounts] at hcreate hcall
  rw [not_or, not_or, not_not] at hconfig
  obtain ⟨hauthority, hmint, -⟩ := hconfig
  have hsigns : i.Signs authority.key :=
    ⟨authority, by rw [haccounts]; exact List.mem_cons_self, rfl,
      Bool.eq_true_of_not_eq_false (not_or.mp hflags).1⟩
  have hmarks : Marks C l i authority.key (splReleaseSeeds burnId) l1 :=
    marks_of_create hC hmarker hsigns (not_not.mp hreplay) (validateReplay_eq_ok hvalid).1 hcreate
  have hk1 : keyAt (l state.key).data 0 = authority.key := hauthority
  rw [← heq] at hcall
  exact .releasedSpl state.key burnId rest htag l1 l' (by rw [hk1]; exact hmarks)
    ⟨howner, hlength⟩ hmint _ _ _ _ _ hcall

/-- The first setting-up of the bridge, or a repetition. -/
theorem initialize_effect (hC : C.Lawful) {rest : List UInt8}
    (htag : i.input = tagInitialize :: rest)
    (h : initializeBridge C l i.accounts rest = .ok l') : Effect C l i l' := by
  unfold initializeBridge at h
  have hmarker := marker_settingUp htag
  rcases haccounts : i.accounts with _ | ⟨authority, _ | ⟨state, _ | ⟨vault, _ |
    ⟨system, more⟩⟩⟩⟩
  iterate 4
    rw [haccounts] at h
    cases h
  rw [haccounts] at h
  obtain ⟨hflags, h⟩ := rejectIf_bind_eq_ok.mp h
  obtain ⟨-, h⟩ := rejectIf_bind_eq_ok.mp h
  obtain ⟨hkeys, h⟩ := rejectIf_bind_eq_ok.mp h
  obtain ⟨l1, hstate, h⟩ := Outcome.bind_eq_ok.mp h
  obtain ⟨l2, hvault, h⟩ := Outcome.bind_eq_ok.mp h
  obtain ⟨hlength, h⟩ := rejectIf_bind_eq_ok.mp h
  obtain ⟨hsame, h⟩ := rejectIf_bind_eq_ok.mp h
  have heq := Except.ok.inj h
  rw [not_or, not_not, not_not] at hkeys
  obtain ⟨hstateKey, hvaultKey⟩ := hkeys
  have hsigns : i.Signs authority.key :=
    ⟨authority, by rw [haccounts]; exact List.mem_cons_self, rfl,
      Bool.eq_true_of_not_eq_false (not_or.mp hflags).1⟩
  rw [hstateKey] at hlength hsame heq
  rw [hvaultKey] at hsame heq
  rw [← heq]
  refine .initialized rest htag authority.key _ l1 l2 hmarker hsigns
    (create_cases hC (by decide) hstateKey hstate) (create_cases hC (by decide) hvaultKey hvault)
    (not_not.mp hlength) ?_
  by_cases h0 : keyAt (l2 (C.address stateSeeds)).data 0 = defaultKey
  · exact Or.inl h0
  · right
    have h3 := not_and.mp hsame h0
    rw [not_or, not_or, not_not, not_not, not_not] at h3
    exact h3

/-- **What an instruction that succeeds has done.** -/
theorem process_effect (hC : C.Lawful) (h : processInstruction C l i = .ok l') :
    Effect C l i l' := by
  unfold processInstruction at h
  split at h
  · cases h
  · rename_i tag rest htag
    split at h
    · rename_i heq
      exact initialize_effect hC (heq ▸ htag) h
    split at h
    · rename_i heq
      exact lockNative_effect hC htag (Or.inl heq) h
    split at h
    · rename_i heq
      exact lockNative_effect hC htag (Or.inr heq) h
    split at h
    · rename_i heq
      exact releaseNativeSol_effect hC (heq ▸ htag) h
    split at h
    · rename_i heq
      exact lockSpl_effect hC (heq ▸ htag) h
    split at h
    · rename_i heq
      exact releaseSpl_effect hC (heq ▸ htag) h
    · cases h

/-! ## 5. A cluster -/

namespace Sample

def programId : Pubkey := Vector.replicate 32 1

def runtime : Runtime where
  findProgramAddress := fun seeds _ =>
    Vector.replicate 32 (UInt8.ofNat (Crypto.checksum 1 251 seeds.flatten))
  minimumBalance := fun space => 100 + space
  invoke := fun _ => .ok ()
  text := fun _ => List.replicate 32 '1'
  text_base58 := fun _ => ones_base58
  text_length := fun _ => ones_length

/-- The tokens a token account holds. -/
def tokens (l : Ledger) (k : Pubkey) : Nat := leNat (((l k).data.take 72).drop 64)

def setTokens (l : Ledger) (k : Pubkey) (n : Nat) : Ledger :=
  l.setData k ((l k).data.take 64 ++ (Crypto.leBytes n 8).toList ++ (l k).data.drop 72)

/-- The system program and the token program. -/
def call (P : Privileges) (c : Cpi) (l : Ledger) : Outcome ProgramError Ledger :=
  match c with
  | .createAccount payer account lamports space owner => do
    rejectIf (¬ l.CanCreate P payer account lamports) (.invocation "already in use")
    .ok (l.created payer account lamports space owner)
  | .transfer source destination amount => do
    rejectIf (P.signer source = false ∨ (l source).owner ≠ systemProgram
      ∨ (l source).lamports < amount.toNat) (.invocation "insufficient lamports")
    .ok (l.move source destination amount.toNat)
  | .transferChecked source mint destination authority amount decimals => do
    rejectIf (P.signer authority = false) (.invocation "missing required signature")
    rejectIf ((l source).owner ≠ splTokenProgramId ∨ (l destination).owner ≠ splTokenProgramId
      ∨ keyAt (l source).data 0 ≠ mint ∨ keyAt (l destination).data 0 ≠ mint
      ∨ (l mint).data.getD 44 0 ≠ decimals) (.invocation "account does not fit")
    rejectIf (keyAt (l source).data 32 ≠ authority) (.invocation "owner does not match")
    rejectIf (tokens l source < amount.toNat) (.invocation "insufficient funds")
    let l := setTokens l source (tokens l source - amount.toNat)
    .ok (setTokens l destination (tokens l destination + amount.toNat))

def cluster : Cluster where
  runtime := runtime
  programId := programId
  call := call

theorem setTokens_of_ne {l : Ledger} {k k' : Pubkey} {n : Nat} (h : k' ≠ k) :
    setTokens l k n k' = l k' :=
  Function.update_of_ne h ..

theorem setTokens_owner (l : Ledger) (k k' : Pubkey) (n : Nat) :
    (setTokens l k n k').owner = (l k').owner := by
  by_cases h : k' = k
  · rw [h]
    unfold setTokens Ledger.setData
    rw [Function.update_self]
  · rw [setTokens_of_ne h]

theorem cluster_lawful : cluster.Lawful where
  ne_system := by decide
  ne_token := by decide
  rent_pos := fun space => Nat.lt_of_lt_of_le (by decide) (Nat.le_add_right 100 space)
  create_iff := fun P payer account lamports space owner l l' _ => by
    constructor
    · intro h
      obtain ⟨hcan, h⟩ := rejectIf_bind_eq_ok.mp h
      exact ⟨not_not.mp hcan, (Except.ok.inj h).symm⟩
    · intro h
      exact rejectIf_bind_eq_ok.mpr ⟨not_not.mpr h.1, congrArg Except.ok h.2.symm⟩
  transfer_ok := fun P source destination amount l l' h => by
    obtain ⟨hcan, h⟩ := rejectIf_bind_eq_ok.mp h
    rw [not_or, not_or, not_not, Nat.not_lt, Bool.not_eq_false] at hcan
    exact ⟨hcan.1, hcan.2.1, hcan.2.2, (Except.ok.inj h).symm⟩
  token_ok := fun P source mint destination authority amount decimals l l' h => by
    obtain ⟨hsigner, h⟩ := rejectIf_bind_eq_ok.mp h
    obtain ⟨haccounts, h⟩ := rejectIf_bind_eq_ok.mp h
    obtain ⟨-, h⟩ := rejectIf_bind_eq_ok.mp h
    obtain ⟨-, h⟩ := rejectIf_bind_eq_ok.mp h
    rw [not_or, not_or, not_not, not_not] at haccounts
    obtain ⟨hsource, hdestination, -⟩ := haccounts
    rw [Bool.not_eq_false] at hsigner
    have heq := Except.ok.inj h
    refine ⟨hsigner, fun k hk => ?_, fun k hk => ?_⟩
    · have h1 : k ≠ destination := fun heq => hk (heq ▸ hdestination)
      have h2 : k ≠ source := fun heq => hk (heq ▸ hsource)
      rw [← heq, setTokens_of_ne h1, setTokens_of_ne h2]
    · rw [← heq, setTokens_owner, setTokens_owner]
      exact hk

end Sample

end Solana

end WorldstreetChain
