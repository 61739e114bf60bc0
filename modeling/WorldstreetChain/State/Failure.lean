import WorldstreetChain.State.TestSupply

/-!
# Failed operations

The appliers write in place, and their callers keep the state of a failed one. A transfer writes
behind its checks, except the faucet's, which credits its receiver before the fee pool is checked. A
swap or a reserve operation marks its id as processed before what it asks of the state is checked,
so one that fails there is taken for a duplicate from then on.

* `State.applyTransaction_allOrNothing_iff` -- **a failed transfer leaves the state as it was**
  exactly if it is not a faucet transfer whose fee overflows the pool.
* `State.SwapCovered`, `State.ReserveCovered` -- what a swap and a reserve operation ask of the
  state past their validation.
* `State.mnaOperations_retried` -- **a failed swap or reserve operation leaves the state as it was
  exactly if it is not one that is valid, new and not covered**; along runs, what is processed is
  what is on record, exactly if no call is such an operation, and what is not on record can be
  retried.
-/

namespace WorldstreetChain

open Std

namespace State

variable {E : Env} {s t : State}

/-! ## 1. Transfers -/

/-- A valid transfer of the faucet whose receiver can take the amount, and whose fee the fee pool
    cannot take. -/
structure FeePoolOverflows (E : Env) (s : State) (t : Transaction) : Prop where
  faucet : isFaucet E s t.unsigned = true
  valid : ∃ id, validateTransaction E s t = .ok id
  credit : (s.balanceOf t.unsigned.toAddress).toNat + t.unsigned.amount.toNat < 2 ^ 128
  feePool : 2 ^ 128 ≤ s.feePool.toNat + t.unsigned.fee.toNat

theorem validateTransaction_amount {t : Transaction} {id : Hash}
    (h : validateTransaction E s t = .ok id) : t.unsigned.amount.toNat ≠ 0 := by
  unfold validateTransaction at h
  simp only [rejectIf_bind_eq_ok, orFail_bind_eq_ok] at h
  obtain ⟨-, -, -, -, h0, -⟩ := h
  exact fun h => h0 (BitVec.eq_of_toNat_eq h)

/-- What such a transfer does: the receiver is credited, and then it fails. -/
theorem FeePoolOverflows.credited {t : Transaction} (h : FeePoolOverflows E s t) :
    ∃ balance : Amount,
      balance.toNat =
        (s.balanceOf t.unsigned.toAddress).toNat + t.unsigned.amount.toNat ∧
      applyTransaction E s t = ⟨.error (.err .feePoolOverflow),
        s.insertAccount t.unsigned.toAddress ⟨balance, s.nonceOf t.unsigned.toAddress⟩⟩ := by
  obtain ⟨hf, ⟨id, hv⟩, hcredit, hpool⟩ := h
  obtain ⟨total, htotal⟩ := (validateTransaction_eq_ok hv).1.total
  obtain ⟨balance, hb⟩ := Unsigned.exists_checkedAdd.mpr hcredit
  have hnone : Unsigned.checkedAdd s.feePool t.unsigned.fee = none :=
    Unsigned.checkedAdd_eq_none.mpr hpool
  refine ⟨balance, Unsigned.checkedAdd_eq_some.mp hb, ?_⟩
  unfold applyTransaction faucetTransfer
  simp only [hv, Applied.attempt_ok, Unsigned.checkedAdd_eq_some.mpr htotal, orFail_some, hf,
    if_true, accountOf_balance, accountOf_nonce, hb, insertAccount_feePool, hnone, orFail_none]
  rfl

/-- **A failed transfer leaves the state as it was**, exactly if it is not the faucet's with a fee
    that overflows the fee pool. -/
theorem applyTransaction_allOrNothing_iff (E : Env) (s : State) (t : Transaction) :
    (applyTransaction E s t).AllOrNothing s ↔ ¬ FeePoolOverflows E s t := by
  constructor
  · rintro h hover
    obtain ⟨balance, hb, happly⟩ := hover.credited
    obtain ⟨id, hv⟩ := hover.valid
    have hsame := congrArg (fun s => (s.balanceOf t.unsigned.toAddress).toNat) (h _ _ happly)
    simp only [balanceOf_insertAccount, if_true] at hsame
    have hamount := validateTransaction_amount hv
    omega
  · rintro hno e s' h
    rcases applyTransaction_eq_error h with h | ⟨hf, hv, hpool, balance, hb, -⟩
    · exact h
    · exact absurd ⟨hf, hv, hb ▸ balance.isLt, hpool⟩ hno

end State

namespace Sample

/-- A faucet transfer that all but fills the fee pool. -/
def fullFeePool : State :=
  State.next .standIn (genesisState 1)
    (.transaction (transferBy Crypto.devnetFaucet 0 otherAddress 1 (BitVec.ofNat 128 (2 ^ 128 - 2))))

end Sample

namespace State

/-- The next faucet transfer fails and has credited its receiver. -/
theorem failed_faucet_transfer_credits :
    fromGenesis (Sample.genesis 1) = .ok (Sample.genesisState 1) ∧
      ¬ (applyTransaction .standIn Sample.fullFeePool
        (Sample.transferBy Crypto.devnetFaucet 0 Sample.otherAddress 1 2)).AllOrNothing
          Sample.fullFeePool := by
  refine ⟨Sample.fromGenesis_genesis 1, fun h => ?_⟩
  have hrun : (Sample.fullFeePool.balanceOf Sample.otherAddress).toNat = 1 ∧
      (applyTransaction .standIn Sample.fullFeePool
        (Sample.transferBy Crypto.devnetFaucet 0 Sample.otherAddress 1 2)).result =
          .error (.err .feePoolOverflow) ∧
      ((applyTransaction .standIn Sample.fullFeePool
        (Sample.transferBy Crypto.devnetFaucet 0 Sample.otherAddress 1 2)).state.balanceOf
          Sample.otherAddress).toNat = 2 := by decide +kernel
  obtain ⟨hbefore, hfails, hafter⟩ := hrun
  rw [h _ _ (Applied.eq_of_result hfails), hbefore] at hafter
  cases hafter

/-! ## 2. What swaps and reserve operations ask of the state -/

/-- What `apply_mna_swap` asks of a mint past its validation: fee and USDC are there, nothing
    overflows, and the reserve covers the MNA that is backed afterwards. -/
structure MintCovered (s : State) (u : UnsignedMnaSwapOperation) : Prop where
  fee : u.fee.toNat ≤ (s.balanceOf u.fromAddress).toNat
  nonce : (s.nonceOf u.fromAddress).toNat + 1 < 2 ^ 64
  usdc : u.amountUsdc.toNat ≤
    (s.assetBalanceOf u.fromAddress u.collateralAsset.canonicalKey).toNat
  balance : (s.balanceOf u.fromAddress).toNat - u.fee.toNat + u.amountMna.toNat < 2 ^ 128
  backed : s.mnaReserveLedger.reserveBackedMnaMinted.toNat + u.amountMna.toNat < 2 ^ 128
  reserve : min (2 * (s.mnaReserveLedger.reserveBackedMnaMinted.toNat + u.amountMna.toNat))
    (2 ^ 128 - 1) ≤ s.currentReserveUsd.toNat

def SwapCovered (E : Env) (s : State) (u : UnsignedMnaSwapOperation) : Prop :=
  match u.kind with
  | .mintMna => MintCovered s u
  | .redeemMna => RedemptionCovered E s u ∧
      (s.assetBalanceOf u.fromAddress u.collateralAsset.canonicalKey).toNat +
        u.amountUsdc.toNat < 2 ^ 128

/-- The collateral left of both kinds, in USD, is twice the backed MNA, as far as `u128` tells. -/
def Backs (usdcIn usdcOut solIn solOut backed : Nat) : Prop :=
  min (2 * backed) (2 ^ 128 - 1) ≤ (usdcIn - usdcOut) + (solIn - solOut)

/-- What `apply_mna_reserve_operation` asks of an operation past its validation: what a release
    takes is there, no total overflows, and the reserve covers the backed MNA afterwards. -/
def ReserveCovered (s : State) (o : MnaReserveOperation) : Prop :=
  let l := s.mnaReserveLedger
  let usdcIn := l.totalVerifiedDepositsUsdc.toNat
  let usdcOut := l.totalReleasedUsdc.toNat
  let solIn := l.totalVerifiedSolUsd.toNat
  let solOut := l.totalReleasedSolUsd.toNat
  let backed := l.reserveBackedMnaMinted.toNat
  let usd := o.amountUsdc.toNat
  match o.kind, isSupportedSol o.collateralAsset with
  | .verifyDeposit, true =>
    l.totalVerifiedSolLamports.toNat + o.collateralAmount.toNat < 2 ^ 128 ∧
      solIn + usd < 2 ^ 128 ∧
      (s.balanceOf o.address).toNat + o.amountMna.toNat < 2 ^ 128 ∧
      backed + o.amountMna.toNat < 2 ^ 128 ∧
      Backs usdcIn usdcOut (solIn + usd) solOut (backed + o.amountMna.toNat)
  | .verifyDeposit, false =>
    usdcIn + usd < 2 ^ 128 ∧ Backs (usdcIn + usd) usdcOut solIn solOut backed
  | .release, true =>
    usd ≤ solIn - solOut ∧ solOut + usd < 2 ^ 128 ∧
      l.totalReleasedSolLamports.toNat + o.collateralAmount.toNat < 2 ^ 128 ∧
      Backs usdcIn usdcOut solIn (solOut + usd) backed
  | .release, false =>
    usd ≤ usdcIn - usdcOut ∧ usdcOut + usd < 2 ^ 128 ∧
      Backs usdcIn (usdcOut + usd) solIn solOut backed

theorem swapEffect_mint_covered {u : UnsignedMnaSwapOperation} (hk : u.kind = .mintMna) :
    (∃ t, s.swapEffect E u = .ok t) ↔ MintCovered s u := by
  unfold swapEffect mintMna
  simp only [hk, Outcome.bind_eq_ok, orFail_eq_ok, rejectIf_eq_ok, accountOf_balance,
    accountOf_nonce]
  constructor
  · rintro ⟨t, newBalance, hfee, newNonce, hnonce, ⟨⟩, husdc, balance, hb, backed, hback, ⟨⟩, hres,
      -⟩
    rw [Unsigned.checkedSub_eq_some] at hfee
    rw [Unsigned.checkedAdd_eq_some] at hb hback
    rw [BitVec.lt_def] at husdc hres
    rw [Unsigned.toNat_saturatingMul, toNat_mnaUsdcDenominator] at hres
    have hnonce' : (s.nonceOf u.fromAddress).toNat + (1 : Nonce).toNat < 2 ^ 64 :=
      Unsigned.exists_checkedAdd.mp ⟨_, hnonce⟩
    have hbalance := balance.isLt
    have hbacked := backed.isLt
    exact ⟨by omega, hnonce', by omega, by omega, by omega, by omega⟩
  · rintro ⟨hfee, hnonce, husdc, hbalance, hback, hres⟩
    obtain ⟨newBalance, hfee⟩ := Unsigned.exists_checkedSub.mpr hfee
    have hone : (s.nonceOf u.fromAddress).toNat + (1 : Nonce).toNat < 2 ^ 64 := hnonce
    obtain ⟨newNonce, hnonce⟩ := Unsigned.exists_checkedAdd.mpr hone
    have hnew := Unsigned.checkedSub_eq_some.mp hfee
    have hroom : newBalance.toNat + u.amountMna.toNat < 2 ^ 128 := by omega
    obtain ⟨balance, hb⟩ := Unsigned.exists_checkedAdd.mpr hroom
    obtain ⟨backed, hback⟩ := Unsigned.exists_checkedAdd.mpr hback
    have hbacked := Unsigned.checkedAdd_eq_some.mp hback
    have hheld : ¬ s.assetBalanceOf u.fromAddress u.collateralAsset.canonicalKey <
        u.amountUsdc := by
      rw [BitVec.lt_def]
      omega
    have hcovers : ¬ s.currentReserveUsd < Unsigned.saturatingMul backed mnaUsdcDenominator := by
      rw [BitVec.lt_def, Unsigned.toNat_saturatingMul, toNat_mnaUsdcDenominator]
      omega
    exact ⟨_, newBalance, hfee, newNonce, hnonce, ⟨⟩, hheld, balance, hb, backed, hback, ⟨⟩,
      hcovers, rfl⟩

/-- **A swap's effect goes through exactly if it is covered.** -/
theorem swapEffect_covered {u : UnsignedMnaSwapOperation} :
    (∃ t, s.swapEffect E u = .ok t) ↔ SwapCovered E s u := by
  unfold SwapCovered
  cases hk : u.kind with
  | mintMna => exact swapEffect_mint_covered hk
  | redeemMna => exact swapEffect_redeem_covered hk

theorem backs_iff {t : State} :
    ¬ t.currentReserveUsd <
        Unsigned.saturatingMul t.mnaReserveLedger.reserveBackedMnaMinted mnaUsdcDenominator ↔
      Backs t.mnaReserveLedger.totalVerifiedDepositsUsdc.toNat
        t.mnaReserveLedger.totalReleasedUsdc.toNat t.mnaReserveLedger.totalVerifiedSolUsd.toNat
        t.mnaReserveLedger.totalReleasedSolUsd.toNat
        t.mnaReserveLedger.reserveBackedMnaMinted.toNat := by
  unfold currentReserveUsd Backs
  rw [BitVec.lt_def, Unsigned.toNat_saturatingMul, toNat_mnaUsdcDenominator,
    Unsigned.toNat_saturatingAdd, Unsigned.toNat_saturatingSub, Unsigned.toNat_saturatingSub]
  omega

/-- **A reserve operation's effect goes through and leaves a reserve that covers the backed MNA,
    exactly if it is covered.** -/
theorem reserveEffect_covered {o : MnaReserveOperation} :
    (∃ t, s.reserveEffect o = .ok t ∧ ¬ t.currentReserveUsd <
      Unsigned.saturatingMul t.mnaReserveLedger.reserveBackedMnaMinted mnaUsdcDenominator) ↔
        ReserveCovered s o := by
  simp only [backs_iff]
  unfold reserveEffect ReserveCovered
  cases hk : o.kind with
  | verifyDeposit =>
    unfold verifyDeposit
    cases hsol : isSupportedSol o.collateralAsset with
    | true =>
      simp only [if_true, orFail_bind_eq_ok, accountOf_balance, Except.ok.injEq]
      constructor
      · rintro ⟨t, ⟨lamports, hl, usd, hu, balance, hb, backed, hback, rfl⟩, hbacks⟩
        rw [Unsigned.checkedAdd_eq_some] at hl hu hb hback
        simp only [setLedger_mnaReserveLedger, hu, hback] at hbacks
        exact ⟨hl ▸ lamports.isLt, hu ▸ usd.isLt, hb ▸ balance.isLt, hback ▸ backed.isLt, hbacks⟩
      · rintro ⟨hl, hu, hb, hback, hbacks⟩
        obtain ⟨lamports, hl⟩ := Unsigned.exists_checkedAdd.mpr hl
        obtain ⟨usd, hu⟩ := Unsigned.exists_checkedAdd.mpr hu
        obtain ⟨balance, hb⟩ := Unsigned.exists_checkedAdd.mpr hb
        obtain ⟨backed, hback⟩ := Unsigned.exists_checkedAdd.mpr hback
        refine ⟨_, ⟨lamports, hl, usd, hu, balance, hb, backed, hback, rfl⟩, ?_⟩
        rw [Unsigned.checkedAdd_eq_some] at hu hback
        simpa only [setLedger_mnaReserveLedger, hu, hback] using hbacks
    | false =>
      simp only [Bool.false_eq_true, if_false, orFail_bind_eq_ok, Except.ok.injEq]
      constructor
      · rintro ⟨t, ⟨deposits, hd, rfl⟩, hbacks⟩
        rw [Unsigned.checkedAdd_eq_some] at hd
        simp only [setLedger_mnaReserveLedger, hd] at hbacks
        exact ⟨hd ▸ deposits.isLt, hbacks⟩
      · rintro ⟨hd, hbacks⟩
        obtain ⟨deposits, hd⟩ := Unsigned.exists_checkedAdd.mpr hd
        refine ⟨_, ⟨deposits, hd, rfl⟩, ?_⟩
        rw [Unsigned.checkedAdd_eq_some] at hd
        simpa only [setLedger_mnaReserveLedger, hd] using hbacks
  | release =>
    unfold releaseReserve
    cases hsol : isSupportedSol o.collateralAsset with
    | true =>
      simp only [if_true, rejectIf_bind_eq_ok, orFail_bind_eq_ok, BitVec.lt_def,
        Unsigned.toNat_saturatingSub, Nat.not_lt, Except.ok.injEq]
      constructor
      · rintro ⟨t, ⟨ha, usd, hu, lamports, hl, rfl⟩, hbacks⟩
        rw [Unsigned.checkedAdd_eq_some] at hu hl
        simp only [setLedger_mnaReserveLedger, hu] at hbacks
        exact ⟨ha, hu ▸ usd.isLt, hl ▸ lamports.isLt, hbacks⟩
      · rintro ⟨ha, hu, hl, hbacks⟩
        obtain ⟨usd, hu⟩ := Unsigned.exists_checkedAdd.mpr hu
        obtain ⟨lamports, hl⟩ := Unsigned.exists_checkedAdd.mpr hl
        refine ⟨_, ⟨ha, usd, hu, lamports, hl, rfl⟩, ?_⟩
        rw [Unsigned.checkedAdd_eq_some] at hu
        simpa only [setLedger_mnaReserveLedger, hu] using hbacks
    | false =>
      simp only [Bool.false_eq_true, if_false, rejectIf_bind_eq_ok, orFail_bind_eq_ok,
        BitVec.lt_def, Unsigned.toNat_saturatingSub, Nat.not_lt, Except.ok.injEq]
      constructor
      · rintro ⟨t, ⟨ha, released, hr, rfl⟩, hbacks⟩
        rw [Unsigned.checkedAdd_eq_some] at hr
        simp only [setLedger_mnaReserveLedger, hr] at hbacks
        exact ⟨ha, hr ▸ released.isLt, hbacks⟩
      · rintro ⟨ha, hr, hbacks⟩
        obtain ⟨released, hr⟩ := Unsigned.exists_checkedAdd.mpr hr
        refine ⟨_, ⟨ha, released, hr, rfl⟩, ?_⟩
        rw [Unsigned.checkedAdd_eq_some] at hr
        simpa only [setLedger_mnaReserveLedger, hr] using hbacks

/-! ## 3. A swap or reserve operation that fails -/

/-- A swap that is valid and new is covered. -/
def SwapSettles (E : Env) (s : State) (o : MnaSwapOperation) : Prop :=
  ∀ id, validateMnaSwap E s o = .ok id → id ∉ s.processedMnaSwapOperations →
    SwapCovered E s o.unsigned

/-- A reserve operation that is valid and new is covered. -/
def ReserveSettles (E : Env) (s : State) (o : MnaReserveOperation) : Prop :=
  ∀ id, validateMnaReserveOperation E s o = .ok id → id ∉ s.processedMnaReserveOperations →
    ReserveCovered s o

section Calls

variable {so : MnaSwapOperation} {ro : MnaReserveOperation} {id : Hash}

/-- The mark changes nothing a swap is covered by. -/
theorem swapCovered_markMnaSwap (id : Hash) {u : UnsignedMnaSwapOperation} :
    SwapCovered E (s.markMnaSwap id) u ↔ SwapCovered E s u := by
  unfold SwapCovered
  cases u.kind with
  | mintMna =>
    exact ⟨fun h => ⟨h.fee, h.nonce, h.usdc, h.balance, h.backed, h.reserve⟩,
      fun h => ⟨h.fee, h.nonce, h.usdc, h.balance, h.backed, h.reserve⟩⟩
  | redeemMna => exact and_congr_left fun _ => redemptionCovered_markMnaSwap id

/-- A valid, new and covered swap is applied and on record. -/
theorem applyMnaSwap_covered (hv : validateMnaSwap E s so = .ok id)
    (hn : id ∉ s.processedMnaSwapOperations) (hc : SwapCovered E s so.unsigned) :
    ∃ next, s.applyMnaSwap E so = ⟨.ok true, next⟩ ∧
      next.mnaSwapOperationRecords[id]? = some so := by
  obtain ⟨next, he⟩ := swapEffect_covered.mpr ((swapCovered_markMnaSwap id).mpr hc)
  refine ⟨_, applyMnaSwap_of hv hn he, ?_⟩
  rw [recordMnaSwap_mnaSwapOperationRecords, ExtTreeMap.getElem?_insert_self]

/-- A valid and new swap that is not covered fails, and its id is processed. -/
theorem applyMnaSwap_uncovered (hv : validateMnaSwap E s so = .ok id)
    (hn : id ∉ s.processedMnaSwapOperations) (hc : ¬ SwapCovered E s so.unsigned) :
    ∃ e, s.applyMnaSwap E so = ⟨.error e, s.markMnaSwap id⟩ := by
  cases he : (s.markMnaSwap id).swapEffect E so.unsigned with
  | ok next => exact absurd ((swapCovered_markMnaSwap id).mp (swapEffect_covered.mp ⟨next, he⟩)) hc
  | error e =>
    refine ⟨e, ?_⟩
    unfold applyMnaSwap
    rw [hv, Applied.attempt_ok, if_neg hn]
    simp only [he]
    rfl

/-- **A failed swap leaves the state as it was**, exactly if it is not valid and new and yet not
    covered. -/
theorem applyMnaSwap_allOrNothing_iff :
    (s.applyMnaSwap E so).AllOrNothing s ↔ SwapSettles E s so := by
  constructor
  · intro h id hv hn
    by_contra hc
    obtain ⟨e, he⟩ := applyMnaSwap_uncovered hv hn hc
    have hsame := congrArg processedMnaSwapOperations (h _ _ he)
    rw [markMnaSwap_processedMnaSwapOperations] at hsame
    exact hn (hsame ▸ ExtTreeSet.mem_insert_self)
  · intro h e s' he
    have hsplit := he
    unfold applyMnaSwap at hsplit
    rcases Applied.attempt_eq_error.mp hsplit with ⟨-, hs⟩ | ⟨id, hv, hsplit⟩
    · exact hs.symm
    by_cases hn : id ∈ s.processedMnaSwapOperations
    · rw [if_pos hn] at hsplit
      cases hsplit
    · obtain ⟨next, happly, -⟩ := applyMnaSwap_covered hv hn (h id hv hn)
      rw [happly] at he
      cases he

/-- The mark changes nothing a reserve operation is covered by. -/
theorem reserveCovered_markMnaReserve (id : Hash) :
    ReserveCovered (s.markMnaReserve id) ro ↔ ReserveCovered s ro := Iff.rfl

/-- A valid, new and covered reserve operation is applied and on record. -/
theorem applyMnaReserveOperation_covered (hv : validateMnaReserveOperation E s ro = .ok id)
    (hn : id ∉ s.processedMnaReserveOperations) (hc : ReserveCovered s ro) :
    ∃ next, s.applyMnaReserveOperation E ro = ⟨.ok true, next⟩ ∧
      next.mnaReserveOperationRecords[id]? = some ro := by
  obtain ⟨next, he, hres⟩ :=
    reserveEffect_covered.mpr ((reserveCovered_markMnaReserve id).mpr hc)
  refine ⟨next.recordMnaReserve id ro, ?_, ?_⟩
  · unfold applyMnaReserveOperation
    rw [hv, Applied.attempt_ok, if_neg hn]
    exact Applied.ofClone_eq_ok.mpr (Outcome.bind_eq_ok.mpr ⟨next, he,
      rejectIf_bind_eq_ok.mpr ⟨hres, rfl⟩⟩)
  · rw [recordMnaReserve_mnaReserveOperationRecords, ExtTreeMap.getElem?_insert_self]

/-- A valid and new reserve operation that is not covered fails, and its id is processed. -/
theorem applyMnaReserveOperation_uncovered (hv : validateMnaReserveOperation E s ro = .ok id)
    (hn : id ∉ s.processedMnaReserveOperations) (hc : ¬ ReserveCovered s ro) :
    ∃ e, s.applyMnaReserveOperation E ro = ⟨.error e, s.markMnaReserve id⟩ := by
  unfold applyMnaReserveOperation
  rw [hv, Applied.attempt_ok, if_neg hn]
  cases he : (s.markMnaReserve id).reserveEffect ro with
  | error e =>
    refine ⟨e, ?_⟩
    simp only [he]
    rfl
  | ok next =>
    have hres := fun h => hc ((reserveCovered_markMnaReserve id).mp
      (reserveEffect_covered.mp ⟨next, he, h⟩))
    refine ⟨.err .mnaReserveInsufficient, Applied.ofClone_eq_error.mpr ⟨?_, rfl⟩⟩
    simp only [he]
    change (rejectIf _ StateError.mnaReserveInsufficient >>= _) = _
    rw [rejectIf_pos (not_not.mp hres)]
    rfl

/-- **A failed reserve operation leaves the state as it was**, exactly if it is not valid and new
    and yet not covered. -/
theorem applyMnaReserveOperation_allOrNothing_iff :
    (s.applyMnaReserveOperation E ro).AllOrNothing s ↔ ReserveSettles E s ro := by
  constructor
  · intro h id hv hn
    by_contra hc
    obtain ⟨e, he⟩ := applyMnaReserveOperation_uncovered hv hn hc
    have hsame := congrArg processedMnaReserveOperations (h _ _ he)
    rw [markMnaReserve_processedMnaReserveOperations] at hsame
    exact hn (hsame ▸ ExtTreeSet.mem_insert_self)
  · intro h e s' he
    have hsplit := he
    unfold applyMnaReserveOperation at hsplit
    rcases Applied.attempt_eq_error.mp hsplit with ⟨-, hs⟩ | ⟨id, hv, hsplit⟩
    · exact hs.symm
    by_cases hn : id ∈ s.processedMnaReserveOperations
    · rw [if_pos hn] at hsplit
      cases hsplit
    · obtain ⟨next, happly, -⟩ := applyMnaReserveOperation_covered hv hn (h id hv hn)
      rw [happly] at he
      cases he

end Calls

/-! ## 4. Runs -/

/-- What is processed is what is on record, under its own id. -/
structure Recorded (E : Env) (s : State) : Prop where
  swaps : ∀ id, id ∈ s.processedMnaSwapOperations ↔
    ∃ o, s.mnaSwapOperationRecords[id]? = some o ∧ E.crypto.mnaSwapOperationId o = id
  reserve : ∀ id, id ∈ s.processedMnaReserveOperations ↔
    ∃ o, s.mnaReserveOperationRecords[id]? = some o ∧ E.crypto.mnaReserveOperationId o = id

/-- A swap or reserve operation that is valid and new is covered. -/
def Settles (E : Env) (s : State) : LedgerCall → Prop
  | .operation (.mnaSwap o) => SwapSettles E s o
  | .operation (.mnaReserve o) => ReserveSettles E s o
  | _ => True

theorem Recorded.of_fields (h : Recorded E s)
    (hps : t.processedMnaSwapOperations = s.processedMnaSwapOperations)
    (hrs : t.mnaSwapOperationRecords = s.mnaSwapOperationRecords)
    (hpr : t.processedMnaReserveOperations = s.processedMnaReserveOperations)
    (hrr : t.mnaReserveOperationRecords = s.mnaReserveOperationRecords) : Recorded E t :=
  ⟨by rw [hps, hrs]; exact h.swaps, by rw [hpr, hrr]; exact h.reserve⟩

theorem recorded_fromGenesis {genesis : GenesisConfig} (h : fromGenesis genesis = .ok s) :
    Recorded E s := by
  obtain ⟨accounts, rfl⟩ := fromGenesis_eq_ok h
  constructor
  · intro id
    simp [State.ofAccounts]
  · intro id
    simp [State.ofAccounts]

/-- A set with a new mark and a map with a new entry under the same key still agree. -/
theorem recorded_insert {α : Type} {ids : BTreeSet Hash} {records : BTreeMap Hash α}
    {idOf : α → Hash} {o : α} {k : Hash} (hk : idOf o = k)
    (h : ∀ id, id ∈ ids ↔ ∃ o, records[id]? = some o ∧ idOf o = id) (id : Hash) :
    id ∈ ids.insert k ↔ ∃ o', (records.insert k o)[id]? = some o' ∧ idOf o' = id := by
  rw [ExtTreeSet.mem_insert, ExtTreeMap.getElem?_insert, h id]
  by_cases hid : k = id
  · subst hid
    simp [hk]
  · rw [if_neg fun hc => hid (LawfulEqOrd.eq_of_compare hc)]
    exact or_iff_right fun hc => hid (LawfulEqOrd.eq_of_compare hc)

/-- **The step rule of calls that fail without a trace**: they are applied, or leave everything
    alone. -/
theorem next_of_allOrNothing {op : Operation} {R : State → Prop}
    (ha : (s.apply E op).AllOrNothing s) (h0 : R s)
    (happlied : ∀ s', s.apply E op = ⟨.ok true, s'⟩ → R s') : R (s.next E op) := by
  rcases hx : (s.apply E op).result with e | b
  · rw [ha e _ (apply_eq hx)]
    exact h0
  · cases b with
    | true => exact happlied _ (apply_eq hx)
    | false =>
      rw [apply_false (apply_eq hx)]
      exact h0

/-- Only swaps and reserve operations write the marks and records of either. -/
theorem Recorded.of_writes {op : Operation} (h : Recorded E s) (hw : Writes s op t)
    (hswap : ∀ o, op ≠ .mnaSwap o) (hreserve : ∀ o, op ≠ .mnaReserve o) : Recorded E t := by
  cases hw with
  | mnaSwap o => exact absurd rfl (hswap o)
  | mnaReserve o => exact absurd rfl (hreserve o)
  | _ => exact h.of_fields rfl rfl rfl rfl

theorem recorded_mnaSwap_iff {o : MnaSwapOperation} (h : Recorded E s) :
    Recorded E (s.next E (.mnaSwap o)) ↔ SwapSettles E s o := by
  constructor
  · intro hnext id hv hn
    by_contra hc
    obtain ⟨e, he⟩ := applyMnaSwap_uncovered hv hn hc
    have hafter : s.next E (.mnaSwap o) = s.markMnaSwap id := congrArg Applied.state he
    rw [hafter] at hnext
    exact hn ((h.swaps id).mpr ((hnext.swaps id).mp ExtTreeSet.mem_insert_self))
  · intro hsettles
    refine next_of_allOrNothing (applyMnaSwap_allOrNothing_iff.mpr hsettles) h fun t ht => ?_
    obtain ⟨-, -, next, he, rfl⟩ := applyMnaSwap_true ht
    obtain ⟨_, _, _, _, _, -, -, rfl, -⟩ := swapEffect_eq_ok he
    exact ⟨recorded_insert rfl h.swaps, h.reserve⟩

theorem recorded_mnaReserve_iff {o : MnaReserveOperation} (h : Recorded E s) :
    Recorded E (s.next E (.mnaReserve o)) ↔ ReserveSettles E s o := by
  constructor
  · intro hnext id hv hn
    by_contra hc
    obtain ⟨e, he⟩ := applyMnaReserveOperation_uncovered hv hn hc
    have hafter : s.next E (.mnaReserve o) = s.markMnaReserve id := congrArg Applied.state he
    rw [hafter] at hnext
    exact hn ((h.reserve id).mpr ((hnext.reserve id).mp ExtTreeSet.mem_insert_self))
  · intro hsettles
    refine next_of_allOrNothing (applyMnaReserveOperation_allOrNothing_iff.mpr hsettles) h
      fun t ht => ?_
    obtain ⟨hvalid, -, next, he, -, rfl⟩ := applyMnaReserveOperation_true ht
    have hinserted := recorded_insert (o := o) hvalid.id h.reserve
    rcases reserveEffect_eq_ok he with
      ⟨-, -, _, _, _, _, -, -, -, rfl⟩ | ⟨-, -, _, -, rfl⟩ | ⟨-, -, _, _, -, -, rfl⟩ |
        ⟨-, -, _, -, -, rfl⟩
    all_goals exact ⟨h.swaps, hinserted⟩

/-- **One call** keeps marks and records together exactly if it settles. -/
theorem recorded_afterCall_iff {call : LedgerCall} (h : Recorded E s) :
    Recorded E (afterCall E s call) ↔ Settles E s call := by
  cases call with
  | creditDevnet address amount =>
    obtain ⟨accounts, hs⟩ := s.creditDevnet_writes address amount
    rw [afterCall, hs]
    exact iff_of_true (h.of_fields rfl rfl rfl rfl) trivial
  | operation op =>
    cases op with
    | mnaSwap o => exact recorded_mnaSwap_iff h
    | mnaReserve o => exact recorded_mnaReserve_iff h
    | _ => exact iff_of_true (h.of_writes next_writes
        (fun _ he => by cases he) fun _ he => by cases he) trivial

/-- What a state whose marks are its records promises of a retry. -/
structure Retries (E : Env) (s : State) : Prop where
  swap : ∀ o id, validateMnaSwap E s o = .ok id → SwapCovered E s o.unsigned →
    id ∉ s.mnaSwapOperationRecords → ∃ next, s.applyMnaSwap E o = ⟨.ok true, next⟩ ∧
      next.mnaSwapOperationRecords[id]? = some o
  reserve : ∀ o id, validateMnaReserveOperation E s o = .ok id → ReserveCovered s o →
    id ∉ s.mnaReserveOperationRecords → ∃ next, s.applyMnaReserveOperation E o = ⟨.ok true, next⟩ ∧
      next.mnaReserveOperationRecords[id]? = some o

theorem Recorded.retries (h : Recorded E s) : Retries E s := by
  constructor
  · intro o id hv hc hn
    refine applyMnaSwap_covered hv (fun hp => hn ?_) hc
    obtain ⟨o', ho, -⟩ := (h.swaps id).mp hp
    exact ExtTreeMap.mem_iff_isSome_getElem?.mpr (ho ▸ rfl)
  · intro o id hv hc hn
    refine applyMnaReserveOperation_covered hv (fun hp => hn ?_) hc
    obtain ⟨o', ho, -⟩ := (h.reserve id).mp hp
    exact ExtTreeMap.mem_iff_isSome_getElem?.mpr (ho ▸ rfl)

/-- **A failed swap or reserve operation** leaves the state as it was, exactly if it is not one that
    is valid, new and not covered. **In every run from a genesis** what is processed is what is on
    record at every state reached, if and only if no call is such an operation; then whatever is not
    on record is applied as soon as it is valid and covered. -/
theorem mnaOperations_retried {genesis : GenesisConfig} {s₀ : State}
    (hg : fromGenesis genesis = .ok s₀) (calls : List LedgerCall) :
    (∀ s o, (applyMnaSwap E s o).AllOrNothing s ↔ SwapSettles E s o) ∧
      (∀ s o, (applyMnaReserveOperation E s o).AllOrNothing s ↔ ReserveSettles E s o) ∧
      ((∀ pre, pre <+: calls → Recorded E (runs (afterCall E) s₀ pre)) ↔
        EachStep (afterCall E) (Settles E) s₀ calls) ∧
      (EachStep (afterCall E) (Settles E) s₀ calls →
        ∀ pre, pre <+: calls → Retries E (runs (afterCall E) s₀ pre)) := by
  have hrun : (∀ pre, pre <+: calls → Recorded E (runs (afterCall E) s₀ pre)) ↔
      EachStep (afterCall E) (Settles E) s₀ calls := by
    rw [← throughout_iff]
    have hall : EachStep (afterCall E) (fun _ _ => True) s₀ calls :=
      EachStep.of_forall (D := fun _ => True) fun _ _ => trivial
    exact hall.throughout_iff_guarded (fun _ _ _ h => recorded_afterCall_iff h)
      (recorded_fromGenesis hg)
  exact ⟨fun _ _ => applyMnaSwap_allOrNothing_iff,
    fun _ _ => applyMnaReserveOperation_allOrNothing_iff, hrun,
    fun h pre hpre => (hrun.mpr h pre hpre).retries⟩

end State

namespace Sample

/-- A swap of 200 USDC, sent before and after the USDC arrives. -/
def earlySwap : MnaSwapOperation := swap .mintMna 0 100 1

def depositOf200 : Operation := .asset (bridge .mint 1 usdc 200)

/-- The USDC is deposited and swapped, and half of it is swapped back. -/
def swappedBack : List State.LedgerCall :=
  [.operation depositOf200, .operation (.mnaSwap earlySwap),
    .operation (.mnaSwap (swap .redeemMna 1 50 1))]

end Sample

namespace State

/-- A swap that is applied is covered. -/
theorem SwapSettles.of_applied {s : State} {o : MnaSwapOperation} {b : Bool}
    (h : (applyMnaSwap E s o).result = .ok b) : SwapSettles E s o := by
  refine applyMnaSwap_allOrNothing_iff.mp fun e s' he => ?_
  rw [he] at h
  cases h

/-- A deposit and two swaps that are applied. -/
theorem mnaOperations_retried_swaps :
    Retries .standIn (runs (afterCall .standIn) (Sample.genesisState 1) Sample.swappedBack) := by
  refine (mnaOperations_retried (E := .standIn) (Sample.fromGenesis_genesis 1)
    Sample.swappedBack).2.2.2 ⟨trivial, SwapSettles.of_applied (b := true) ?_,
      SwapSettles.of_applied (b := true) ?_, trivial⟩ _ (List.prefix_refl _)
  · decide +kernel
  · decide +kernel

/-- The swap fails, and when the USDC is there it is taken for a duplicate; sent only then, it is
    applied. -/
theorem failed_swap_not_retried :
    fromGenesis (Sample.genesis 1) = .ok (Sample.genesisState 1) ∧
      ¬ (applyMnaSwap .standIn (Sample.genesisState 1) Sample.earlySwap).AllOrNothing
        (Sample.genesisState 1) ∧
      (applyMnaSwap .standIn (runs (next .standIn) (Sample.genesisState 1)
        [.mnaSwap Sample.earlySwap, Sample.depositOf200]) Sample.earlySwap).result = .ok false ∧
      (applyMnaSwap .standIn (runs (next .standIn) (Sample.genesisState 1)
        [Sample.depositOf200]) Sample.earlySwap).result = .ok true := by
  have hrun : Crypto.standIn.mnaSwapOperationId Sample.earlySwap ∉
        (Sample.genesisState 1).processedMnaSwapOperations ∧
      (applyMnaSwap .standIn (Sample.genesisState 1) Sample.earlySwap).result =
        .error (.err .mnaSwapInsufficientBalance) ∧
      Crypto.standIn.mnaSwapOperationId Sample.earlySwap ∈ (applyMnaSwap .standIn
        (Sample.genesisState 1) Sample.earlySwap).state.processedMnaSwapOperations ∧
      (applyMnaSwap .standIn (runs (next .standIn) (Sample.genesisState 1)
        [.mnaSwap Sample.earlySwap, Sample.depositOf200]) Sample.earlySwap).result = .ok false ∧
      (applyMnaSwap .standIn (runs (next .standIn) (Sample.genesisState 1)
        [Sample.depositOf200]) Sample.earlySwap).result = .ok true := by decide +kernel
  obtain ⟨hnew, hfails, hmarked, hrest⟩ := hrun
  refine ⟨Sample.fromGenesis_genesis 1, fun h => hnew ?_, hrest⟩
  rw [h _ _ (Applied.eq_of_result hfails)] at hmarked
  exact hmarked

end State

end WorldstreetChain
