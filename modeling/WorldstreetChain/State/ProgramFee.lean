import WorldstreetChain.State.Operation

/-!
# What a program operation costs

An operation is admitted for the most it can cost and charged for what it did. The charge is a
plain subtraction from an entry that is expected to be there; that neither fails rests on the
interpreter keeping to its fuel.

* `State.programSurcharge` -- what is due beyond the minimum.
* `State.applyProgramOperation_ne_panic` -- **nothing panics**.
* `State.program_fees_exact` -- **what is paid**, from whom and to whom.
-/

namespace WorldstreetChain

open Std

namespace State

variable {E : Env} {s s' : State} {o : ProgramOperation}

/-! ## 1. No panics -/

theorem programEffect_ne_panic {owner : Address} {height : U64} :
    s.programEffect E o owner height ≠ .error .panic := by
  intro h
  unfold programEffect at h
  split at h
  · unfold programDeploy at h
    obtain ⟨-, h⟩ := rejectIf_bind_eq_panic.mp h
    split at h
    · cases h
    · obtain ⟨-, h⟩ := rejectIf_bind_eq_panic.mp h
      cases h
  · unfold programCall at h
    obtain ⟨-, h⟩ := rejectIf_bind_eq_panic.mp h
    obtain ⟨record, -, h⟩ := orFail_bind_eq_panic.mp h
    split at h
    · cases h
    · split at h
      · cases h
      · cases h
  · unfold programStorageSet at h
    obtain ⟨-, h⟩ := rejectIf_bind_eq_panic.mp h
    obtain ⟨record, -, h⟩ := orFail_bind_eq_panic.mp h
    obtain ⟨-, h⟩ := rejectIf_bind_eq_panic.mp h
    cases h
  · unfold programClose at h
    obtain ⟨record, -, h⟩ := orFail_bind_eq_panic.mp h
    obtain ⟨-, h⟩ := rejectIf_bind_eq_panic.mp h
    cases h

theorem programFeePaid_ne_panic {required : Amount} {gasUsed : U64} :
    s.programFeePaid o required gasUsed ≠ .error .panic := by
  intro h
  unfold programFeePaid at h
  split at h
  · cases h
  · unfold orFail at h
    split at h
    · cases h
    · cases h
  · cases h
  · cases h

/-- An entry that covers the fee is charged without a panic. -/
theorem chargeProgramFee_ne_panic {owner : Address} {account : Account} {paid : Amount}
    (haccount : s.accounts[owner]? = some account) (hpaid : paid.toNat ≤ account.balance.toNat) :
    s.chargeProgramFee E owner paid ≠ .error .panic := by
  intro h
  unfold chargeProgramFee at h
  rw [haccount, orPanic_some, Outcome.ok_bind, Unsigned.sub_of_le hpaid, Outcome.ok_bind] at h
  obtain ⟨nonce, -, h⟩ := orFail_bind_eq_panic.mp h
  obtain ⟨feePool, -, h⟩ := orFail_bind_eq_panic.mp h
  cases h

/-- **Nothing panics**: the owner has an entry when it is charged, and the charge is within what
    its balance was checked for. -/
theorem applyProgramOperationMut_ne_panic (hR : E.runtime.FuelBounded) {height : U64} :
    s.applyProgramOperationMut E o height ≠ .error .panic := by
  intro h
  unfold applyProgramOperationMut at h
  obtain ⟨-, h⟩ := rejectIf_bind_eq_panic.mp h
  obtain ⟨-, h⟩ := rejectIf_bind_eq_panic.mp h
  obtain ⟨-, h⟩ := rejectIf_bind_eq_panic.mp h
  obtain ⟨-, h⟩ := rejectIf_bind_eq_panic.mp h
  obtain ⟨required, hrequired, h⟩ := orFail_bind_eq_panic.mp h
  obtain ⟨-, h⟩ := rejectIf_bind_eq_panic.mp h
  obtain ⟨hbalance, h⟩ := rejectIf_bind_eq_panic.mp h
  obtain heffect | ⟨⟨s₁, outcome⟩, heffect, h⟩ := bind_eq_panic.mp h
  · exact programEffect_ne_panic heffect
  obtain hfee | ⟨paid, hpaid, h⟩ := bind_eq_panic.mp h
  · exact programFeePaid_ne_panic hfee
  obtain hcharge | ⟨s₂, -, h⟩ := bind_eq_panic.mp h
  · have hle := programFeePaid_le hR hrequired heffect hpaid
    obtain ⟨programs, closed, -, rfl⟩ := programEffect_eq_ok heffect
    rw [BitVec.lt_def] at hbalance
    refine chargeProgramFee_ne_panic ?_ (Nat.le_trans hle (Nat.le_of_not_lt hbalance)) hcharge
    rw [setPrograms_accounts, insertAccount_accounts, ExtTreeMap.getElem?_insert_self]
  · cases h

theorem applyProgramOperation_ne_panic (hR : E.runtime.FuelBounded) {height : U64} :
    (s.applyProgramOperation E o height).result ≠ .error .panic := by
  intro h
  unfold applyProgramOperation at h
  split at h
  · cases h
  · obtain hmut | ⟨_, -, h⟩ := bind_eq_panic.mp (Applied.ofClone_result_eq_error.mp h)
    · exact applyProgramOperationMut_ne_panic hR hmut
    · cases h

/-! ## 2. The amount -/

/-- What an operation pays beyond the minimum. -/
def programSurcharge (o : ProgramOperation) (gasUsed : U64) : Nat :=
  match o.kind with
  | .deploy => o.package.length
  | .call => gasUsed.toNat
  | .storageSet | .close => 0

/-- A package that was deployed is not too long for its length to be counted. -/
theorem deploy_length {owner : Address} {height : U64} {outcome : ProgramOutcome}
    (hk : o.kind = .deploy) (h : s.programEffect E o owner height = .ok (s', outcome)) :
    o.package.length < 2 ^ 128 := by
  obtain ⟨_, _, heffect, -⟩ := programEffect_eq_ok h
  cases heffect with
  | deploy package _ _ hd _ =>
    unfold ProgramPackage.decode at hd
    split at hd
    · cases hd
    · rename_i hsize
      have hmax : maxPackageBytes < 2 ^ 128 := by decide
      omega
  | call hcall =>
    rw [hk] at hcall
    cases hcall
  | storageSet _ hstorage =>
    rw [hk] at hstorage
    cases hstorage
  | close _ hclose =>
    rw [hk] at hclose
    cases hclose

/-- **The fee paid** is the minimum and the surcharge. -/
theorem programFeePaid_exact {owner : Address} {height : U64} {outcome : ProgramOutcome}
    {required paid : Amount} (hrequired : s.requiredMaxFee o = some required)
    (heffect : s.programEffect E o owner height = .ok (s', outcome))
    (hpaid : s'.programFeePaid o required outcome.gasUsed = .ok paid) :
    paid.toNat = s.feeMinimum.toNat + programSurcharge o outcome.gasUsed := by
  obtain ⟨programs, closed, -, hs⟩ := programEffect_eq_ok heffect
  have hmin : s'.feeMinimum = s.feeMinimum := by rw [hs]; rfl
  unfold requiredMaxFee at hrequired
  unfold programFeePaid at hpaid
  unfold programSurcharge
  cases hk : o.kind with
  | deploy =>
    simp only [hk] at hpaid hrequired
    cases hpaid
    rw [Unsigned.checkedAdd_eq_some, BitVec.toNat_ofNat,
      Nat.mod_eq_of_lt (deploy_length hk heffect)] at hrequired
    exact hrequired
  | call =>
    simp only [hk] at hpaid
    rw [orFail_eq_ok, Unsigned.checkedAdd_eq_some, hmin,
      BitVec.toNat_setWidth_of_le (by decide)] at hpaid
    exact hpaid
  | storageSet =>
    simp only [hk] at hpaid
    cases hpaid
    rw [hmin]
    rfl
  | close =>
    simp only [hk] at hpaid
    cases hpaid
    rw [hmin]
    rfl

/-! ## 3. The charge -/

/-- **A charge** takes the fee from the owner's entry to the fee pool and touches no other. -/
theorem chargeProgramFee_eq_ok {owner : Address} {account : Account} {paid : Amount}
    (haccount : s.accounts[owner]? = some account) (hpaid : paid.toNat ≤ account.balance.toNat)
    (h : s.chargeProgramFee E owner paid = .ok s') :
    (s'.balanceOf owner).toNat + paid.toNat = account.balance.toNat ∧
      s'.feePool.toNat = s.feePool.toNat + paid.toNat ∧
      (∀ a, a ≠ owner → s'.balanceOf a = s.balanceOf a) ∧ s'.assetBalances = s.assetBalances := by
  unfold chargeProgramFee at h
  rw [haccount, orPanic_some, Outcome.ok_bind, Unsigned.sub_of_le hpaid, Outcome.ok_bind] at h
  obtain ⟨nonce, -, h⟩ := orFail_bind_eq_ok.mp h
  obtain ⟨feePool, hpool, h⟩ := orFail_bind_eq_ok.mp h
  cases h
  have hbalances : ∀ a, ((s.insertAccount owner ⟨account.balance - paid, nonce⟩).setFeePool
      feePool).balanceOf a = if owner = a then account.balance - paid else s.balanceOf a := by
    intro a
    have hsame : ((s.insertAccount owner ⟨account.balance - paid, nonce⟩).setFeePool
        feePool).balanceOf a = (s.insertAccount owner ⟨account.balance - paid, nonce⟩).balanceOf a :=
      balanceOf_of_accounts rfl a
    rw [hsame, balanceOf_insertAccount]
  refine ⟨?_, Unsigned.checkedAdd_eq_some.mp hpool, fun a ha => ?_, rfl⟩
  · rw [hbalances, if_pos rfl, Unsigned.toNat_sub_of_le hpaid]
    omega
  · rw [hbalances, if_neg fun h => ha h.symm]

/-- The entry the owner is given leaves every balance as it was. -/
theorem balanceOf_insertAccount_self (owner a : Address) :
    (s.insertAccount owner (s.accountOf owner)).balanceOf a = s.balanceOf a := by
  rw [balanceOf_insertAccount]
  split
  · rename_i h
    rw [accountOf_balance, h]
  · rfl

/-- What an applied operation paid, as its receipt has it. -/
structure FeeCharged (s : State) (o : ProgramOperation) (owner : Address)
    (receipt : ProgramReceiptRecord) (s' : State) : Prop where
  balance : (s'.balanceOf owner).toNat + receipt.feePaid.toNat = (s.balanceOf owner).toNat
  feePool : s'.feePool.toNat = s.feePool.toNat + receipt.feePaid.toNat
  within : receipt.feePaid.toNat ≤ o.fee.toNat
  exact : receipt.feePaid.toNat = s.feeMinimum.toNat + programSurcharge o receipt.gasUsed
  others : ∀ a, a ≠ owner → s'.balanceOf a = s.balanceOf a
  assets : s'.assetBalances = s.assetBalances

theorem feeCharged_of_applied (hR : E.runtime.FuelBounded) {height : U64} {id : Hash}
    (h : s.applyProgramOperationMut E o height = .ok (id, s')) :
    ∃ receipt, s'.programReceipts[id]? = some receipt ∧
      FeeCharged s o (E.crypto.addressFromPublicKey o.publicKey) receipt s' := by
  obtain ⟨-, rfl, required, s₁, outcome, paid, s₂, hrequired, hfee, hbalance, heffect, hpaid,
    hcharge, rfl⟩ := applyProgramOperationMut_steps h
  generalize E.crypto.addressFromPublicKey o.publicKey = owner at *
  have hle : paid.toNat ≤ required.toNat :=
    programFeePaid_le (s := s.insertAccount _ _) hR hrequired heffect hpaid
  have hexact := programFeePaid_exact (s := s.insertAccount _ _) hrequired heffect hpaid
  obtain ⟨programs, closed, -, rfl⟩ := programEffect_eq_ok heffect
  have haccount : ((s.insertAccount owner (s.accountOf owner)).setPrograms programs
      closed).accounts[owner]? = some (s.accountOf owner) := by
    rw [setPrograms_accounts, insertAccount_accounts, ExtTreeMap.getElem?_insert_self]
  have hcovered : paid.toNat ≤ (s.accountOf owner).balance.toNat := by
    rw [accountOf_balance]
    omega
  obtain ⟨hpayer, hpool, hothers, hassets⟩ := chargeProgramFee_eq_ok haccount hcovered hcharge
  rw [accountOf_balance] at hpayer
  refine ⟨programReceipt o (E.crypto.programOperationId o) outcome paid, ?_,
    hpayer, hpool, Nat.le_trans hle hfee, hexact, fun a ha => ?_, hassets⟩
  · rw [insertProgramReceipt_programReceipts, ExtTreeMap.getElem?_insert_self]
  · exact (hothers a ha).trans (balanceOf_insertAccount_self owner a)

/-- **Program fees are exact, and nothing panics**, if the interpreter keeps to its fuel. -/
theorem program_fees_exact (E : Env) (hR : E.runtime.FuelBounded) (s : State)
    (o : ProgramOperation) (height : U64) :
    (s.applyProgramOperation E o height).result ≠ .error .panic ∧
    ((s.applyProgramOperation E o height).result = .ok true →
      ∃ receipt, (s.applyProgramOperation E o height).state.programReceipts[
          E.crypto.programOperationId o]? = some receipt ∧
        FeeCharged s o (E.crypto.addressFromPublicKey o.publicKey) receipt
          (s.applyProgramOperation E o height).state) ∧
    ((s.applyProgramOperation E o height).result ≠ .ok true →
      (s.applyProgramOperation E o height).state = s) := by
  refine ⟨applyProgramOperation_ne_panic hR, fun h => ?_, fun h => ?_⟩
  · exact feeCharged_of_applied hR (applyProgramOperation_true (Applied.eq_of_result h)).2
  · cases hresult : (s.applyProgramOperation E o height).result with
    | error e => exact applyProgramOperation_error (Applied.eq_of_result hresult)
    | ok applied =>
      cases applied with
      | false => exact (applyProgramOperation_false (Applied.eq_of_result hresult)).1
      | true => exact absurd hresult h

/-- A deployment pays the minimum and a unit for each of its bytes. -/
theorem program_fees_exact_deploy :
    ∃ receipt, FeeCharged (Sample.genesisState 1)
      (Sample.programOperation .deploy 0 500 (Sample.packageBytes 0) "" "") Sample.address receipt
      ((Sample.genesisState 1).applyProgramOperation .standIn
        (Sample.programOperation .deploy 0 500 (Sample.packageBytes 0) "" "") 1).state := by
  obtain ⟨-, happlied, -⟩ := program_fees_exact .standIn WasmRuntime.standIn_fuelBounded
    (Sample.genesisState 1) (Sample.programOperation .deploy 0 500 (Sample.packageBytes 0) "" "") 1
  obtain ⟨receipt, -, hcharged⟩ := happlied (by decide +kernel)
  exact ⟨receipt, hcharged⟩

end State

end WorldstreetChain
