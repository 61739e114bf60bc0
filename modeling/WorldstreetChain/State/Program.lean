import WorldstreetChain.State.Basic

/-!
# Program operations (`State::apply_program_operation`)

Deploying, calling, configuring and closing a program. The signer pays: at least `fee_minimum`,
plus the package's bytes for a deployment or the gas used for a call. The call works on a clone,
and its id covers the signature, so what stops a replay is the nonce.

* `State.applyProgramOperation_true` -- **what an applied operation did**: it was signed for the
  owner's nonce, which moves by one, and its fee went from the owner to the fee pool.
* `State.applyProgramOperation_false`, `..._error` -- otherwise nothing changes.
-/

namespace WorldstreetChain

open Std
open Postcard (utf8)

namespace State

/-! ## 1. Definitions -/

def programAction : ProgramOperationKind → String
  | .deploy => "deploy"
  | .call => "call"
  | .storageSet => "storage_set"
  | .close => "close"

/-- What a program operation leaves in its receipt. -/
structure ProgramOutcome where
  status : String
  returnData : List UInt8
  gasUsed : U64
  error : Option String

section Definitions

variable (E : Env) (s : State)

/-- The text a program's signer has signed. -/
def programMessage (o : ProgramOperation) : String :=
  "Intertrain Program Authorization\nAction: " ++ programAction o.kind
    ++ "\nChain ID: " ++ o.chainId ++ "\nProgram ID: " ++ o.programId
    ++ "\nOwner: " ++ E.crypto.displayAddress (E.crypto.addressFromPublicKey o.publicKey)
    ++ "\nNonce: " ++ toString o.nonce.toNat ++ "\nFee: " ++ toString o.fee.toNat
    ++ (if o.kind = .call then "\nGas Limit: " ++ toString o.gasLimit.toNat else "")
    ++ (if o.kind = .storageSet then "\nKey: " ++ o.key ++ "\nValue: " ++ o.value else "")

/-- The most the operation can cost; a package's length is far below `2 ^ 128`. -/
def requiredMaxFee (o : ProgramOperation) : Option Amount :=
  match o.kind with
  | .deploy => Unsigned.checkedAdd s.feeMinimum (BitVec.ofNat 128 o.package.length)
  | .call => Unsigned.checkedAdd s.feeMinimum (o.gasLimit.setWidth 128)
  | .storageSet | .close => some s.feeMinimum

@[simps] def setPrograms (programs : BTreeMap String ProgramRecord)
    (closedPrograms : BTreeMap String U64) : State :=
  { s with programs, closedPrograms }

def programDeploy (o : ProgramOperation) (owner : Address) (blockHeight : U64) :
    Outcome StateError (State × ProgramOutcome) := do
  rejectIf (o.programId ∈ s.programs ∨ o.programId ∈ s.closedPrograms) .programAlreadyExists
  match ProgramPackage.decode E.crypto E.runtime o.package with
  | .error e => .error (.err (.invalidProgramOperation e.toText))
  | .ok package =>
    rejectIf (package.programId ≠ o.programId)
      (.invalidProgramOperation "program ID does not match package")
    let record : ProgramRecord :=
      { package := o.package, creator := owner, deployedAtHeight := blockHeight, storage := ∅ }
    .ok (s.setPrograms (s.programs.insert o.programId record) s.closedPrograms,
      { status := "confirmed", returnData := [], gasUsed := 0, error := none })

def programCall (o : ProgramOperation) : Outcome StateError (State × ProgramOutcome) := do
  rejectIf (o.gasLimit = 0) (.invalidProgramOperation "gas limit must be positive")
  let record ← orFail s.programs[o.programId]? .programNotFound
  match ProgramPackage.decode E.crypto E.runtime record.package with
  | .error e => .error (.err (.invalidProgramOperation e.toText))
  | .ok package =>
    match execute E.crypto E.runtime package o.gasLimit with
    | .ok (data, used) =>
      .ok (s, { status := "success", returnData := data, gasUsed := used, error := none })
    | .error e =>
      .ok (s, { status := "failed", returnData := [], gasUsed := o.gasLimit,
                error := some e.toText })

def programStorageSet (o : ProgramOperation) (owner : Address) :
    Outcome StateError (State × ProgramOutcome) := do
  rejectIf (128 < o.key.utf8ByteSize ∨ 4096 < o.value.utf8ByteSize)
    (.invalidProgramOperation "storage key/value exceeds limits")
  let record ← orFail s.programs[o.programId]? .programNotFound
  rejectIf (record.creator ≠ owner) .programUnauthorized
  let record := { record with storage := record.storage.insert o.key o.value }
  .ok (s.setPrograms (s.programs.insert o.programId record) s.closedPrograms,
    { status := "confirmed", returnData := [], gasUsed := 0, error := none })

def programClose (o : ProgramOperation) (owner : Address) (blockHeight : U64) :
    Outcome StateError (State × ProgramOutcome) := do
  let record ← orFail s.programs[o.programId]? .programNotFound
  rejectIf (record.creator ≠ owner) .programUnauthorized
  .ok (s.setPrograms (s.programs.erase o.programId)
      (s.closedPrograms.insert o.programId blockHeight),
    { status := "closed", returnData := [], gasUsed := 0, error := none })

/-- The `match` of `apply_program_operation_mut`. -/
def programEffect (o : ProgramOperation) (owner : Address) (blockHeight : U64) :
    Outcome StateError (State × ProgramOutcome) :=
  match o.kind with
  | .deploy => s.programDeploy E o owner blockHeight
  | .call => s.programCall E o
  | .storageSet => s.programStorageSet o owner
  | .close => s.programClose o owner blockHeight

/-- The fee of an operation that had its effect; only a call's depends on the gas used. -/
def programFeePaid (o : ProgramOperation) (required : Amount) (gasUsed : U64) :
    Outcome StateError Amount :=
  match o.kind with
  | .deploy => .ok required
  | .call => orFail (Unsigned.checkedAdd s.feeMinimum (gasUsed.setWidth 128)) .feePoolOverflow
  | .storageSet | .close => .ok s.feeMinimum

@[simps] def insertProgramReceipt (id : Hash) (receipt : ProgramReceiptRecord) : State :=
  { s with programReceipts := s.programReceipts.insert id receipt }

def programReceipt (o : ProgramOperation) (operationId : Hash) (outcome : ProgramOutcome)
    (feePaid : Amount) : ProgramReceiptRecord where
  operationId := operationId
  programId := o.programId
  kind := o.kind
  status := outcome.status
  returnData := outcome.returnData
  gasUsed := outcome.gasUsed
  gasLimit := o.gasLimit
  feePaid := feePaid
  error := outcome.error

/-- `account.balance -= fee_paid`, the nonce, the fee pool. -/
def chargeProgramFee (owner : Address) (feePaid : Amount) : Outcome StateError State := do
  let account ← orPanic s.accounts[owner]?
  let balance ← Unsigned.sub E.overflowChecks account.balance feePaid
  let nonce ← orFail (Unsigned.checkedAdd account.nonce 1) .nonceOverflow
  let feePool ← orFail (Unsigned.checkedAdd s.feePool feePaid) .feePoolOverflow
  .ok ((s.insertAccount owner { balance, nonce }).setFeePool feePool)

def applyProgramOperationMut (o : ProgramOperation) (blockHeight : U64) :
    Outcome StateError (Hash × State) := do
  rejectIf (o.version ≠ 1) .unsupportedProgramOperationVersion
  rejectIf (o.chainId ≠ s.chainId) .programWrongChainId
  let operationId := E.crypto.programOperationId o
  let owner := E.crypto.addressFromPublicKey o.publicKey
  rejectIf (E.crypto.verify o.publicKey (utf8 (programMessage E o)) o.signature = false)
    .invalidProgramSignature
  let account := s.accountOf owner
  -- `entry(owner).or_default()`
  let s := s.insertAccount owner account
  rejectIf (o.nonce ≠ account.nonce) (.nonceMismatch account.nonce o.nonce)
  let required ← orFail (s.requiredMaxFee o) .feePoolOverflow
  rejectIf (o.fee < required) .feeTooLow
  rejectIf (account.balance < required) .insufficientBalance
  let (s, outcome) ← s.programEffect E o owner blockHeight
  let feePaid ← s.programFeePaid o required outcome.gasUsed
  let s ← s.chargeProgramFee E owner feePaid
  .ok (operationId, s.insertProgramReceipt operationId
    (programReceipt o operationId outcome feePaid))

/-- A dry run on a clone, at height zero. -/
def validateProgramOperation (o : ProgramOperation) : Outcome StateError Unit := do
  let _ ← s.applyProgramOperationMut E o 0
  .ok ()

def applyProgramOperation (o : ProgramOperation) (blockHeight : U64) :
    Applied StateError State Bool :=
  if E.crypto.programOperationId o ∈ s.programReceipts then ⟨.ok false, s⟩
  else .ofClone s do
    let (_, next) ← s.applyProgramOperationMut E o blockHeight
    .ok (true, next)

end Definitions

/-! ## 2. Effect and fee -/

variable {E : Env} {s s' : State} {o : ProgramOperation}

/-- What an operation does to the open and the closed programs. -/
inductive RegistryEffect (E : Env) (programs : BTreeMap String ProgramRecord)
    (closed : BTreeMap String U64) (o : ProgramOperation) (owner : Address) (height : U64) :
    BTreeMap String ProgramRecord → BTreeMap String U64 → Prop where
  | deploy (package : ProgramPackage) (hk : o.kind = .deploy)
      (hnew : o.programId ∉ programs ∧ o.programId ∉ closed)
      (hd : ProgramPackage.decode E.crypto E.runtime o.package = .ok package)
      (hid : package.programId = o.programId) :
      RegistryEffect E programs closed o owner height
        (programs.insert o.programId
          { package := o.package, creator := owner, deployedAtHeight := height, storage := ∅ })
        closed
  | call (hk : o.kind = .call) : RegistryEffect E programs closed o owner height programs closed
  | storageSet (record : ProgramRecord) (hk : o.kind = .storageSet)
      (hr : programs[o.programId]? = some record) (hc : record.creator = owner) :
      RegistryEffect E programs closed o owner height
        (programs.insert o.programId
          { record with storage := record.storage.insert o.key o.value })
        closed
  | close (record : ProgramRecord) (hk : o.kind = .close)
      (hr : programs[o.programId]? = some record) (hc : record.creator = owner) :
      RegistryEffect E programs closed o owner height (programs.erase o.programId)
        (closed.insert o.programId height)

/-- What an operation does to programs happens to programs only. -/
theorem programEffect_eq_ok {owner : Address} {height : U64} {outcome : ProgramOutcome}
    (h : s.programEffect E o owner height = .ok (s', outcome)) :
    ∃ programs closed,
      RegistryEffect E s.programs s.closedPrograms o owner height programs closed ∧
      s' = s.setPrograms programs closed := by
  unfold programEffect at h
  split at h
  case h_1 hk =>
    unfold programDeploy at h
    obtain ⟨hnew, h⟩ := rejectIf_bind_eq_ok.mp h
    split at h
    · cases h
    · rename_i package hd
      obtain ⟨hid, h⟩ := rejectIf_bind_eq_ok.mp h
      cases h
      exact ⟨_, _, .deploy package hk (not_or.mp hnew) hd (not_not.mp hid), rfl⟩
  case h_2 hk =>
    unfold programCall at h
    obtain ⟨-, h⟩ := rejectIf_bind_eq_ok.mp h
    obtain ⟨record, -, h⟩ := orFail_bind_eq_ok.mp h
    split at h
    · cases h
    · split at h
      all_goals
        cases h
        exact ⟨s.programs, s.closedPrograms, .call hk, rfl⟩
  case h_3 hk =>
    unfold programStorageSet at h
    simp only [rejectIf_bind_eq_ok, orFail_bind_eq_ok, not_not] at h
    obtain ⟨-, record, hr, hc, h⟩ := h
    cases h
    exact ⟨_, _, .storageSet record hk hr hc, rfl⟩
  case h_4 hk =>
    unfold programClose at h
    simp only [rejectIf_bind_eq_ok, orFail_bind_eq_ok, not_not] at h
    obtain ⟨record, hr, hc, h⟩ := h
    cases h
    exact ⟨_, _, .close record hk hr hc, rfl⟩

/-- A call uses no more gas than its limit, if the interpreter keeps to its fuel. -/
theorem programCall_gas (hR : E.runtime.FuelBounded) {outcome : ProgramOutcome}
    (h : s.programCall E o = .ok (s', outcome)) :
    outcome.gasUsed.toNat ≤ o.gasLimit.toNat := by
  unfold programCall at h
  obtain ⟨-, h⟩ := rejectIf_bind_eq_ok.mp h
  obtain ⟨record, -, h⟩ := orFail_bind_eq_ok.mp h
  split at h
  · cases h
  · split at h
    · rename_i hx
      cases h
      exact execute_gas_le E.crypto hR hx
    · cases h
      exact Nat.le_refl _

/-- **The fee paid is within the fee required**, if the interpreter keeps to its fuel. -/
theorem programFeePaid_le (hR : E.runtime.FuelBounded) {owner : Address} {height : U64}
    {outcome : ProgramOutcome} {required paid : Amount} (hreq : s.requiredMaxFee o = some required)
    (he : s.programEffect E o owner height = .ok (s', outcome))
    (hp : s'.programFeePaid o required outcome.gasUsed = .ok paid) :
    paid.toNat ≤ required.toNat := by
  obtain ⟨programs, closed, -, hs⟩ := programEffect_eq_ok he
  have hmin : s'.feeMinimum = s.feeMinimum := by rw [hs]; rfl
  unfold requiredMaxFee at hreq
  unfold programFeePaid at hp
  unfold programEffect at he
  cases hk : o.kind with
  | deploy =>
    simp only [hk] at hp
    cases hp
    exact Nat.le_refl _
  | call =>
    simp only [hk] at hp hreq he
    have hgas := programCall_gas hR he
    rw [Unsigned.checkedAdd_eq_some] at hreq
    rw [orFail_eq_ok, Unsigned.checkedAdd_eq_some, hmin] at hp
    rw [BitVec.toNat_setWidth_of_le (by omega)] at hp hreq
    omega
  | storageSet =>
    simp only [hk] at hp hreq
    cases hp
    cases hreq
    rw [hmin]
  | close =>
    simp only [hk] at hp hreq
    cases hp
    cases hreq
    rw [hmin]

/-! ## 3. The call -/

/-- What a program operation that went through has been checked for. -/
structure ValidProgramOperation (E : Env) (s : State) (o : ProgramOperation) : Prop where
  chainId : o.chainId = s.chainId
  signed : E.crypto.verify o.publicKey (utf8 (programMessage E o)) o.signature = true
  nonce : s.nonceOf (E.crypto.addressFromPublicKey o.publicKey) = o.nonce

/-- The steps of an operation that goes through, past its checks: the effect on a state in which
    the owner has an entry, the fee, and the receipt. -/
theorem applyProgramOperationMut_steps {height : U64} {id : Hash}
    (h : s.applyProgramOperationMut E o height = .ok (id, s')) :
    ValidProgramOperation E s o ∧ id = E.crypto.programOperationId o ∧
      ∃ required s1 outcome paid s2,
        s.requiredMaxFee o = some required ∧ required.toNat ≤ o.fee.toNat ∧
        required.toNat ≤ (s.balanceOf (E.crypto.addressFromPublicKey o.publicKey)).toNat ∧
        (s.insertAccount (E.crypto.addressFromPublicKey o.publicKey) (s.accountOf
          (E.crypto.addressFromPublicKey o.publicKey))).programEffect E o
            (E.crypto.addressFromPublicKey o.publicKey) height = .ok (s1, outcome) ∧
        s1.programFeePaid o required outcome.gasUsed = .ok paid ∧
        s1.chargeProgramFee E (E.crypto.addressFromPublicKey o.publicKey) paid = .ok s2 ∧
        s' = s2.insertProgramReceipt id (programReceipt o id outcome paid) := by
  unfold applyProgramOperationMut at h
  simp only [rejectIf_bind_eq_ok, orFail_bind_eq_ok, not_not] at h
  obtain ⟨-, hc, hs, hn, required, hreq, hfee, hbal, h⟩ := h
  obtain ⟨⟨s1, outcome⟩, he, h⟩ := Outcome.bind_eq_ok.mp h
  obtain ⟨paid, hp, h⟩ := Outcome.bind_eq_ok.mp h
  obtain ⟨s2, hch, h⟩ := Outcome.bind_eq_ok.mp h
  cases h
  rw [accountOf_nonce] at hn
  rw [accountOf_balance, BitVec.lt_def] at hbal
  rw [BitVec.lt_def] at hfee
  exact ⟨⟨hc, by simpa using hs, hn.symm⟩, rfl, required, s1, outcome, paid, s2, hreq,
    Nat.le_of_not_lt hfee, Nat.le_of_not_lt hbal, he, hp, hch, rfl⟩

/-- **What a program operation does**: the fee goes from the owner to the fee pool, the owner's
    nonce moves by one, the programs may change and the receipt is kept. -/
theorem applyProgramOperationMut_eq_ok {height : U64} {id : Hash}
    (h : s.applyProgramOperationMut E o height = .ok (id, s')) :
    ValidProgramOperation E s o ∧ id = E.crypto.programOperationId o ∧
      ∃ (programs : BTreeMap String ProgramRecord) (closed : BTreeMap String U64)
        (fee balance feePool : Amount) (nonce : Nonce) (receipt : ProgramReceiptRecord),
        (E.runtime.FuelBounded →
          fee.toNat ≤ (s.balanceOf (E.crypto.addressFromPublicKey o.publicKey)).toNat) ∧
        Unsigned.sub (ε := StateError) E.overflowChecks
          (s.balanceOf (E.crypto.addressFromPublicKey o.publicKey)) fee = .ok balance ∧
        nonce.toNat = (s.nonceOf (E.crypto.addressFromPublicKey o.publicKey)).toNat + 1 ∧
        feePool.toNat = s.feePool.toNat + fee.toNat ∧
        s' = (((s.setPrograms programs closed).insertAccount
          (E.crypto.addressFromPublicKey o.publicKey) ⟨balance, nonce⟩).setFeePool
            feePool).insertProgramReceipt (E.crypto.programOperationId o) receipt := by
  obtain ⟨hv, rfl, required, s1, outcome, paid, s2, hreq, -, hbal, he, hp, hch, rfl⟩ :=
    applyProgramOperationMut_steps h
  have hle : E.runtime.FuelBounded → paid.toNat ≤ required.toNat :=
    fun hR => programFeePaid_le (s := s.insertAccount _ _) hR hreq he hp
  obtain ⟨programs, closed, -, rfl⟩ := programEffect_eq_ok he
  unfold chargeProgramFee at hch
  obtain ⟨account, ha, hch⟩ := Outcome.bind_eq_ok.mp hch
  rw [orPanic_eq_ok, setPrograms_accounts, insertAccount_accounts,
    ExtTreeMap.getElem?_insert_self] at ha
  cases ha
  simp only [Outcome.bind_eq_ok, orFail_eq_ok, Unsigned.checkedAdd_eq_some] at hch
  obtain ⟨balance, hb, nonce, hnn, feePool, hf, hch⟩ := hch
  cases hch
  rw [accountOf_nonce] at hnn
  rw [accountOf_balance] at hb
  refine ⟨hv, rfl, programs, closed, paid, balance, feePool, nonce,
    programReceipt o (E.crypto.programOperationId o) outcome paid, fun hR => ?_, hb, hnn, hf, ?_⟩
  · have := hle hR
    omega
  · -- the default entry and the final one are written under the same key
    simp only [insertAccount, setPrograms, setFeePool, insertProgramReceipt]
    congr 1
    refine ExtTreeMap.ext_getElem? fun k => ?_
    simp only [ExtTreeMap.getElem?_insert]
    split <;> rfl

/-- What a program operation does to the registry, signed by the owner. -/
theorem applyProgramOperationMut_registry {height : U64} {id : Hash}
    (h : s.applyProgramOperationMut E o height = .ok (id, s')) :
    RegistryEffect E s.programs s.closedPrograms o
      (E.crypto.addressFromPublicKey o.publicKey) height s'.programs s'.closedPrograms := by
  obtain ⟨-, -, required, s1, outcome, paid, s2, -, -, -, he, -, hch, rfl⟩ :=
    applyProgramOperationMut_steps h
  obtain ⟨programs, closed, hr, rfl⟩ := programEffect_eq_ok he
  unfold chargeProgramFee at hch
  simp only [Outcome.bind_eq_ok] at hch
  obtain ⟨_, -, _, -, _, -, _, -, hch⟩ := hch
  cases hch
  exact hr

/-- **An applied program operation** was new to the receipts. -/
theorem applyProgramOperation_true {height : U64}
    (h : s.applyProgramOperation E o height = ⟨.ok true, s'⟩) :
    E.crypto.programOperationId o ∉ s.programReceipts ∧
      s.applyProgramOperationMut E o height = .ok (E.crypto.programOperationId o, s') := by
  unfold applyProgramOperation at h
  split at h
  · simp at h
  · rename_i hn
    obtain ⟨⟨id, next⟩, hm, h⟩ := Outcome.bind_eq_ok.mp (Applied.ofClone_eq_ok.mp h)
    cases h
    obtain ⟨-, rfl, -⟩ := applyProgramOperationMut_eq_ok hm
    exact ⟨hn, hm⟩

/-- A program operation with a receipt changes nothing. -/
theorem applyProgramOperation_false {height : U64}
    (h : s.applyProgramOperation E o height = ⟨.ok false, s'⟩) :
    s' = s ∧ E.crypto.programOperationId o ∈ s.programReceipts := by
  unfold applyProgramOperation at h
  split at h
  · rename_i hp
    exact ⟨(Applied.mk_eq_ok.mp h).2.symm, hp⟩
  · obtain ⟨_, -, h⟩ := Outcome.bind_eq_ok.mp (Applied.ofClone_eq_ok.mp h)
    cases h

/-- A failed program operation changes nothing. -/
theorem applyProgramOperation_error {height : U64} {e : Fault StateError}
    (h : s.applyProgramOperation E o height = ⟨.error e, s'⟩) : s' = s := by
  unfold applyProgramOperation at h
  split at h
  · simp at h
  · exact (Applied.ofClone_eq_error.mp h).2.symm

end State

end WorldstreetChain
