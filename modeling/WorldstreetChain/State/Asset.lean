import WorldstreetChain.State.Basic

/-!
# Bridge operations on wrapped assets (`State::apply_asset_operation`)

A mint credits an address with a wrapped asset, a burn debits it; supported USDC also moves the
reserve ledger. The call writes in place: its id is processed and its record kept before the
ledger and the balance are checked, so an operation that fails there leaves traces.

* `State.applyAssetOperation_true` -- **what an applied operation did**.
* `State.applyAssetOperation_false`, `State.applyAssetOperation_error` -- a duplicate changes
  nothing; a failed operation changes nothing, or is processed all the same.
-/

namespace WorldstreetChain

open Std

namespace State

section Definitions

variable (s : State)

/-- The id is processed and the record kept. -/
@[simps] def recordAssetOperation (o : AssetOperation) : State :=
  { s with
    processedAssetOperations := s.processedAssetOperations.insert o.operationId
    assetOperationRecords := s.assetOperationRecords.insert o.operationId o }

def checkAssetOperation (o : AssetOperation) : Outcome StateError Unit := do
  rejectIf (o.version ≠ 1) .unsupportedAssetOperationVersion
  rejectIf (o.amount = 0) .zeroAssetOperationAmount
  rejectIf (o.assetId.nameSpace = "worldstreet" ∨ o.assetId.contract.isNone)
    .invalidAssetOperationAsset
  .ok ()

/-- Supported USDC raises the verified deposits on a mint and the releases on a burn. -/
def assetLedger (l : MnaReserveLedger) (o : AssetOperation) :
    Outcome StateError MnaReserveLedger :=
  if isSupportedUsdc o.assetId then
    match o.kind with
    | .mint => do
      let deposits ← orFail (Unsigned.checkedAdd l.totalVerifiedDepositsUsdc o.amount)
        .balanceOverflow
      .ok { l with totalVerifiedDepositsUsdc := deposits }
    | .burn => do
      let released ← orFail (Unsigned.checkedAdd l.totalReleasedUsdc o.amount) .balanceOverflow
      .ok { l with totalReleasedUsdc := released }
  else .ok l

def assetBalance (current : Amount) (o : AssetOperation) : Outcome StateError Amount :=
  match o.kind with
  | .mint => orFail (Unsigned.checkedAdd current o.amount) .assetBalanceOverflow
  | .burn => orFail (Unsigned.checkedSub current o.amount) .insufficientAssetBalance

def applyAssetOperation (o : AssetOperation) : Applied StateError State Bool :=
  .attempt s (checkAssetOperation o) fun _ =>
  if o.operationId ∈ s.processedAssetOperations then ⟨.ok false, s⟩
  else
    let s := s.recordAssetOperation o
    let key := o.assetId.canonicalKey
    .attempt s (assetLedger s.mnaReserveLedger o) fun ledger =>
    let s := s.setLedger ledger
    -- `entry(address).or_default()`: the address has a map from here on
    let s := s.insertAssets o.address (s.assetsOf o.address)
    .attempt s (assetBalance (s.assetBalanceOf o.address key) o) fun balance =>
    ⟨.ok true, s.setAssetBalance o.address key balance⟩

end Definitions

variable {s s' : State} {o : AssetOperation}

/-! ## 1. The parts -/

theorem setAssetBalance_insertAssets (s : State) (a : Address) (key : String) (v : Amount) :
    (s.insertAssets a (s.assetsOf a)).setAssetBalance a key v = s.setAssetBalance a key v := by
  have hget : (s.insertAssets a (s.assetsOf a)).assetsOf a = s.assetsOf a := by
    simp [assetsOf]
  unfold setAssetBalance
  rw [hget]
  unfold insertAssets
  congr 1
  refine ExtTreeMap.ext_getElem? fun k => ?_
  simp only [ExtTreeMap.getElem?_insert]
  split <;> rfl

theorem assetBalanceOf_insertAssets_self (s : State) (a b : Address) (key : String) :
    (s.insertAssets a (s.assetsOf a)).assetBalanceOf b key = s.assetBalanceOf b key := by
  rw [← assetsOf_getD, ← assetsOf_getD]
  unfold assetsOf
  rw [insertAssets_assetBalances, ExtTreeMap.getElem?_insert]
  split
  · rename_i h
    rw [LawfulEqOrd.eq_of_compare h]
    rfl
  · rfl

/-- How an asset operation moves the reserve ledger: the deposits or the releases of supported
    USDC, and nothing else. -/
theorem assetLedger_eq_ok {l l' : MnaReserveLedger} (h : assetLedger l o = .ok l') :
    (isSupportedUsdc o.assetId = false ∧ l' = l) ∨
      (isSupportedUsdc o.assetId = true ∧ o.kind = .mint ∧ ∃ d : Amount,
        d.toNat = l.totalVerifiedDepositsUsdc.toNat + o.amount.toNat ∧
        l' = { l with totalVerifiedDepositsUsdc := d }) ∨
      (isSupportedUsdc o.assetId = true ∧ o.kind = .burn ∧ ∃ r : Amount,
        r.toNat = l.totalReleasedUsdc.toNat + o.amount.toNat ∧
        l' = { l with totalReleasedUsdc := r }) := by
  unfold assetLedger at h
  split at h
  · rename_i hu
    split at h
    · rename_i hk
      obtain ⟨d, hd, h⟩ := orFail_bind_eq_ok.mp h
      cases h
      exact Or.inr (Or.inl ⟨hu, hk, d, Unsigned.checkedAdd_eq_some.mp hd, rfl⟩)
    · rename_i hk
      obtain ⟨r, hr, h⟩ := orFail_bind_eq_ok.mp h
      cases h
      exact Or.inr (Or.inr ⟨hu, hk, r, Unsigned.checkedAdd_eq_some.mp hr, rfl⟩)
  · rename_i hu
    cases h
    exact Or.inl ⟨by simpa using hu, rfl⟩

theorem assetBalance_eq_ok {current balance : Amount} (h : assetBalance current o = .ok balance) :
    (o.kind = .mint ∧ balance.toNat = current.toNat + o.amount.toNat) ∨
      (o.kind = .burn ∧ current.toNat = o.amount.toNat + balance.toNat) := by
  unfold assetBalance at h
  split at h
  · rename_i hk
    exact Or.inl ⟨hk, Unsigned.checkedAdd_eq_some.mp (orFail_eq_ok.mp h)⟩
  · rename_i hk
    exact Or.inr ⟨hk, Unsigned.checkedSub_eq_some.mp (orFail_eq_ok.mp h)⟩

theorem checkAssetOperation_eq_ok {x : Unit} (h : checkAssetOperation o = .ok x) :
    o.version = 1 ∧ o.amount ≠ 0 ∧ o.assetId.nameSpace ≠ "worldstreet" := by
  unfold checkAssetOperation at h
  simp only [rejectIf_bind_eq_ok, not_or] at h
  exact ⟨not_not.mp h.1, h.2.1, h.2.2.1.1⟩

/-! ## 2. The call -/

/-- **An applied operation** was new; it is recorded, the ledger moves and the balance of its
    address under its asset's key is the new one. -/
theorem applyAssetOperation_true (h : s.applyAssetOperation o = ⟨.ok true, s'⟩) :
    checkAssetOperation o = .ok () ∧ o.operationId ∉ s.processedAssetOperations ∧
      ∃ ledger balance, assetLedger s.mnaReserveLedger o = .ok ledger ∧
        assetBalance (s.assetBalanceOf o.address o.assetId.canonicalKey) o = .ok balance ∧
        s' = ((s.recordAssetOperation o).setLedger ledger).setAssetBalance o.address
          o.assetId.canonicalKey balance := by
  unfold applyAssetOperation at h
  obtain ⟨⟨⟩, hc, h⟩ := Applied.attempt_eq_ok.mp h
  refine ⟨hc, ?_⟩
  split at h
  · simp at h
  · rename_i hn
    simp only [Applied.attempt_eq_ok, assetBalanceOf_insertAssets_self,
      setAssetBalance_insertAssets] at h
    obtain ⟨ledger, hl, balance, hb, h⟩ := h
    exact ⟨hn, ledger, balance, hl, hb, (Applied.mk_eq_ok.mp h).2.symm⟩

/-- **When a new operation is applied**: the ledger and the balance take it. -/
theorem applyAssetOperation_new (hc : checkAssetOperation o = .ok ())
    (hn : o.operationId ∉ s.processedAssetOperations) {ledger : MnaReserveLedger}
    {balance : Amount} (hl : assetLedger s.mnaReserveLedger o = .ok ledger)
    (hb : assetBalance (s.assetBalanceOf o.address o.assetId.canonicalKey) o = .ok balance) :
    s.applyAssetOperation o = ⟨.ok true, ((s.recordAssetOperation o).setLedger
      ledger).setAssetBalance o.address o.assetId.canonicalKey balance⟩ := by
  have hl' : assetLedger (s.recordAssetOperation o).mnaReserveLedger o = .ok ledger := hl
  unfold applyAssetOperation
  rw [hc, Applied.attempt_ok, if_neg hn]
  simp only [hl', Applied.attempt_ok, assetBalanceOf_insertAssets_self,
    setAssetBalance_insertAssets]
  exact Applied.attempt_of_ok hb

/-- A duplicate changes nothing. -/
theorem applyAssetOperation_false (h : s.applyAssetOperation o = ⟨.ok false, s'⟩) :
    s' = s ∧ o.operationId ∈ s.processedAssetOperations := by
  unfold applyAssetOperation at h
  obtain ⟨-, -, h⟩ := Applied.attempt_eq_ok.mp h
  split at h
  · rename_i hp
    exact ⟨(Applied.mk_eq_ok.mp h).2.symm, hp⟩
  · simp only [Applied.attempt_eq_ok] at h
    obtain ⟨_, -, _, -, h⟩ := h
    simp at h

/-- **A failed operation** changes nothing, or was new and is processed all the same; it has then
    failed at the ledger, or at the balance with the ledger already moved. -/
theorem applyAssetOperation_error {e : Fault StateError}
    (h : s.applyAssetOperation o = ⟨.error e, s'⟩) :
    s' = s ∨
      (checkAssetOperation o = .ok () ∧ o.operationId ∉ s.processedAssetOperations ∧
        (s' = s.recordAssetOperation o ∨
          ∃ ledger, s' = ((s.recordAssetOperation o).setLedger ledger).insertAssets o.address
            (s.assetsOf o.address))) := by
  unfold applyAssetOperation at h
  rcases Applied.attempt_eq_error.mp h with ⟨-, h⟩ | ⟨⟨⟩, hc, h⟩
  · exact Or.inl h.symm
  split at h
  · simp at h
  · rename_i hn
    refine Or.inr ⟨hc, hn, ?_⟩
    simp only [Applied.attempt_eq_error] at h
    rcases h with ⟨-, rfl⟩ | ⟨ledger, -, ⟨-, rfl⟩ | ⟨_, -, h⟩⟩
    · exact Or.inl rfl
    · exact Or.inr ⟨ledger, rfl⟩
    · simp at h

end State

end WorldstreetChain
