import WorldstreetChain.State.Operation
import Mathlib.Algebra.Order.Ring.Int

/-!
# Conservation of native MNA

`nativeMna` is what all accounts hold, with the fee pool, less the MNA the reserve backs. The
faucet adds to it, and every other operation is meant to move MNA around inside it.

* `State.apply_nativeMna` -- **what an applied operation does to it**: nothing, the faucet's amount
  and fee, or, for a swap, minus the fee (the swap debits its fee and credits nobody).
* `State.nativeMna_follows_iff` -- **along a run of successful operations** the sum follows the
  faucet exactly as long as no swap charges a fee.
-/

namespace WorldstreetChain

open Std

namespace State

/-! ## 1. The sum -/

/-- All account balances. -/
def totalBalances (s : State) : Nat := BTreeMap.total (fun _ a => a.balance.toNat) s.accounts

/-- Balances and fee pool, less the reserve-backed MNA. -/
def nativeMna (s : State) : ℤ :=
  s.totalBalances + s.feePool.toNat - s.mnaReserveLedger.reserveBackedMnaMinted.toNat

variable {E : Env} {s s' : State}

/-- Writing an account trades the old balance for the new one. -/
theorem totalBalances_insertAccount (s : State) (a : Address) (balance : Amount) (nonce : Nonce) :
    (s.insertAccount a ⟨balance, nonce⟩).totalBalances + (s.balanceOf a).toNat =
      s.totalBalances + balance.toNat := by
  have h := BTreeMap.total_insert (fun (_ : Address) y => y.balance.toNat) s.accounts a
    ⟨balance, nonce⟩
  have hb : s.accounts[a]?.elim 0 (fun y : Account => y.balance.toNat) =
      (s.balanceOf a).toNat := by
    unfold balanceOf
    cases s.accounts[a]? <;> rfl
  rw [hb] at h
  exact h

/-! ## 2. One operation -/

/-- What the faucet adds. -/
def minted (E : Env) (s : State) : Operation → ℤ
  | .transaction t =>
    if isFaucet E s t.unsigned then t.unsigned.amount.toNat + t.unsigned.fee.toNat else 0
  | _ => 0

/-- The swap is new and charges a fee. -/
def ChargesSwapFee (E : Env) (s : State) : Operation → Prop
  | .mnaSwap o =>
    o.unsigned.fee ≠ 0 ∧ E.crypto.mnaSwapOperationId o ∉ s.processedMnaSwapOperations
  | _ => False

theorem applyTransaction_nativeMna {t : Transaction} {id : Hash}
    (h : applyTransaction E s t = ⟨.ok id, s'⟩) :
    s'.nativeMna = s.nativeMna + minted E s (.transaction t) := by
  unfold minted
  obtain ⟨-, -, ⟨hf, h⟩ | ⟨hf, total, ht, h⟩⟩ := applyTransaction_eq_ok h
  · obtain ⟨-, balance, feePool, hb, hp, rfl⟩ := faucetTransfer_eq_ok h
    have hsum := totalBalances_insertAccount s t.unsigned.toAddress balance
      (s.nonceOf t.unsigned.toAddress)
    show ((s.insertAccount t.unsigned.toAddress
        ⟨balance, s.nonceOf t.unsigned.toAddress⟩).totalBalances : ℤ) +
      feePool.toNat - s.mnaReserveLedger.reserveBackedMnaMinted.toNat = _
    simp only [hf, if_true, nativeMna]
    omega
  · obtain ⟨balance, nonce, feePool, hb, -, hp, hcase⟩ := transfer_eq_ok h
    rcases hcase with ⟨heq, balance', hb', rfl⟩ | ⟨hne, balance', hb', rfl⟩
    · have hsum := totalBalances_insertAccount s t.unsigned.fromAddress balance' nonce
      show ((s.insertAccount t.unsigned.fromAddress ⟨balance', nonce⟩).totalBalances : ℤ) +
        feePool.toNat - s.mnaReserveLedger.reserveBackedMnaMinted.toNat = _
      simp only [hf, Bool.false_eq_true, if_false, nativeMna]
      omega
    · have hsum := totalBalances_insertAccount s t.unsigned.fromAddress balance nonce
      have hsum' := totalBalances_insertAccount
        (s.insertAccount t.unsigned.fromAddress ⟨balance, nonce⟩) t.unsigned.toAddress
        balance' (s.nonceOf t.unsigned.toAddress)
      rw [balanceOf_insertAccount, if_neg hne] at hsum'
      show (((s.insertAccount t.unsigned.fromAddress ⟨balance, nonce⟩).insertAccount
          t.unsigned.toAddress ⟨balance', s.nonceOf t.unsigned.toAddress⟩).totalBalances : ℤ) +
        feePool.toNat - s.mnaReserveLedger.reserveBackedMnaMinted.toNat = _
      simp only [hf, Bool.false_eq_true, if_false, nativeMna]
      omega

theorem applyTokenOperation_nativeMna {o : TokenOperation} {id : Hash}
    (h : s.applyTokenOperation E o id = ⟨.ok true, s'⟩) : s'.nativeMna = s.nativeMna := by
  obtain ⟨-, -, -, charged, next, hc, ht, rfl⟩ := applyTokenOperation_true h
  obtain ⟨balance, nonce, feePool, hb, -, hp, rfl⟩ := chargeTokenFee_eq_ok hc
  have hsum := totalBalances_insertAccount s o.unsigned.fromAddress balance nonce
  rw [(tokenEffect_eq_ok ht).frame]
  show ((s.insertAccount o.unsigned.fromAddress ⟨balance, nonce⟩).totalBalances : ℤ) +
    feePool.toNat - s.mnaReserveLedger.reserveBackedMnaMinted.toNat = _
  unfold nativeMna
  omega

theorem applyAssetOperation_nativeMna {o : AssetOperation}
    (h : s.applyAssetOperation o = ⟨.ok true, s'⟩) : s'.nativeMna = s.nativeMna := by
  obtain ⟨-, -, ledger, balance, hl, -, rfl⟩ := applyAssetOperation_true h
  have hbacked : ledger.reserveBackedMnaMinted = s.mnaReserveLedger.reserveBackedMnaMinted := by
    rcases assetLedger_eq_ok hl with ⟨-, rfl⟩ | ⟨-, -, _, -, rfl⟩ | ⟨-, -, _, -, rfl⟩ <;> rfl
  show (s.totalBalances : ℤ) + s.feePool.toNat - ledger.reserveBackedMnaMinted.toNat = _
  rw [hbacked, nativeMna]

/-- **A swap takes its fee out of the sum**, unless a release build wraps the redemption's debit;
    then the wrap comes back on top. -/
theorem applyMnaSwap_nativeMna {o : MnaSwapOperation}
    (h : s.applyMnaSwap E o = ⟨.ok true, s'⟩) :
    s'.nativeMna = s.nativeMna - o.unsigned.fee.toNat ∨
      (s'.nativeMna = s.nativeMna - o.unsigned.fee.toNat + 2 ^ 128 ∧ o.unsigned.fee ≠ 0) := by
  obtain ⟨-, -, next, he, rfl⟩ := applyMnaSwap_true h
  obtain ⟨nonce, usdc, balance, backed, ledger, -, -, rfl, hcase⟩ := swapEffect_eq_ok he
  have hsum := totalBalances_insertAccount s o.unsigned.fromAddress balance nonce
  show ((s.insertAccount o.unsigned.fromAddress ⟨balance, nonce⟩).totalBalances : ℤ) +
        s.feePool.toNat - ledger.reserveBackedMnaMinted.toNat = _ ∨
    (((s.insertAccount o.unsigned.fromAddress ⟨balance, nonce⟩).totalBalances : ℤ) +
        s.feePool.toNat - ledger.reserveBackedMnaMinted.toNat = _ ∧ _)
  unfold nativeMna
  rcases hcase with ⟨-, -, hb, hback, -, hl⟩ | ⟨-, debit, redeemed, hd, -, hb, hback, hl⟩
  · have hb' : balance.toNat + o.unsigned.fee.toNat =
        (s.balanceOf o.unsigned.fromAddress).toNat + o.unsigned.amountMna.toNat := hb
    have hback' : backed.toNat = s.mnaReserveLedger.reserveBackedMnaMinted.toNat +
        o.unsigned.amountMna.toNat := hback
    have hl' : ledger.reserveBackedMnaMinted = backed := by rw [hl]
    rw [hl']
    omega
  · have hb' : (s.balanceOf o.unsigned.fromAddress).toNat = debit.toNat + balance.toNat := hb
    have hback' : s.mnaReserveLedger.reserveBackedMnaMinted.toNat =
        o.unsigned.amountMna.toNat + backed.toNat := hback
    have hl' : ledger.reserveBackedMnaMinted = backed := by rw [hl]
    rw [hl']
    rcases Unsigned.add_eq_ok hd with hd | ⟨-, hge, hd⟩
    · omega
    · refine Or.inr ⟨by omega, fun h0 => ?_⟩
      -- without a fee the sum is the amount, which fits
      have hlt := o.unsigned.amountMna.isLt
      rw [h0] at hge
      have hz : (0 : Amount).toNat = 0 := rfl
      omega

theorem applyMnaReserveOperation_nativeMna {o : MnaReserveOperation}
    (h : s.applyMnaReserveOperation E o = ⟨.ok true, s'⟩) : s'.nativeMna = s.nativeMna := by
  obtain ⟨-, -, next, he, -, rfl⟩ := applyMnaReserveOperation_true h
  rcases reserveEffect_eq_ok he with
    ⟨-, -, balance, _, _, backed, hb, -, hback, rfl⟩ | ⟨-, -, _, -, rfl⟩ |
      ⟨-, -, _, _, -, -, rfl⟩ | ⟨-, -, _, -, -, rfl⟩
  · have hsum := totalBalances_insertAccount s o.address balance (s.nonceOf o.address)
    have hb' : balance.toNat = (s.balanceOf o.address).toNat + o.amountMna.toNat := hb
    have hback' : backed.toNat = s.mnaReserveLedger.reserveBackedMnaMinted.toNat +
      o.amountMna.toNat := hback
    show ((s.insertAccount o.address ⟨balance, s.nonceOf o.address⟩).totalBalances : ℤ) +
      s.feePool.toNat - backed.toNat = _
    unfold nativeMna
    omega
  all_goals rfl

theorem applyProgramOperation_nativeMna (hR : E.runtime.FuelBounded) {o : ProgramOperation}
    {height : U64} (h : s.applyProgramOperation E o height = ⟨.ok true, s'⟩) :
    s'.nativeMna = s.nativeMna := by
  obtain ⟨-, hm⟩ := applyProgramOperation_true h
  obtain ⟨-, -, programs, closed, fee, balance, feePool, nonce, receipt, hle, hb, -, hp, rfl⟩ :=
    applyProgramOperationMut_eq_ok hm
  have hfee := hle hR
  rw [Unsigned.sub_of_le hfee, Except.ok.injEq] at hb
  have hbal : balance.toNat = _ := hb ▸ Unsigned.toNat_sub_of_le hfee
  have hsum := totalBalances_insertAccount s (E.crypto.addressFromPublicKey o.publicKey) balance
    nonce
  show ((s.insertAccount (E.crypto.addressFromPublicKey o.publicKey)
      ⟨balance, nonce⟩).totalBalances : ℤ) + feePool.toNat -
    s.mnaReserveLedger.reserveBackedMnaMinted.toNat = _
  unfold nativeMna
  omega

/-- **An operation that succeeds** moves the sum by what the faucet mints, and by nothing else,
    unless it is a swap that charges a fee. -/
theorem apply_nativeMna (hR : E.runtime.FuelBounded) {op : Operation} {b : Bool}
    (h : s.apply E op = ⟨.ok b, s'⟩) :
    s'.nativeMna = s.nativeMna + minted E s op ↔ ¬ ChargesSwapFee E s op := by
  cases b with
  | false =>
    rw [apply_false h]
    cases op with
    | transaction t =>
      obtain ⟨_, -, h⟩ := Applied.map_eq_ok.mp h
      cases h
    | mnaSwap o => exact iff_of_true (add_zero _).symm fun hc => hc.2 (applyMnaSwap_false h).2
    | asset o => exact iff_of_true (add_zero _).symm not_false
    | token o id => exact iff_of_true (add_zero _).symm not_false
    | mnaReserve o => exact iff_of_true (add_zero _).symm not_false
    | program o height => exact iff_of_true (add_zero _).symm not_false
  | true =>
    cases op with
    | transaction t =>
      obtain ⟨id, h, -⟩ := Applied.map_eq_ok.mp h
      exact iff_of_true (applyTransaction_nativeMna h) not_false
    | mnaSwap o =>
      obtain ⟨-, hn, -⟩ := applyMnaSwap_true h
      have hzero : o.unsigned.fee = 0 ↔ o.unsigned.fee.toNat = 0 :=
        ⟨fun h0 => by rw [h0]; rfl, fun h0 => BitVec.eq_of_toNat_eq h0⟩
      have hlt := o.unsigned.fee.isLt
      simp only [ChargesSwapFee, minted, hn, not_false_eq_true, and_true, not_not, ne_eq, add_zero]
      rcases applyMnaSwap_nativeMna h with hm | ⟨hm, h0⟩
      · rw [hzero]
        omega
      · exact iff_of_false (by omega) h0
    | asset o =>
      exact iff_of_true ((applyAssetOperation_nativeMna h).trans (add_zero _).symm) not_false
    | token o id =>
      exact iff_of_true ((applyTokenOperation_nativeMna h).trans (add_zero _).symm) not_false
    | mnaReserve o =>
      exact iff_of_true ((applyMnaReserveOperation_nativeMna h).trans (add_zero _).symm) not_false
    | program o height =>
      exact iff_of_true ((applyProgramOperation_nativeMna hR h).trans (add_zero _).symm) not_false

/-! ## 3. Runs -/

theorem minted_congr (hc : s'.chainId = s.chainId) (op : Operation) :
    minted E s' op = minted E s op := by
  cases op <;> simp [minted, isFaucet, hc]

/-- **Along a run of successful operations**, from any state, the sum follows what the faucet mints
    at every state reached if and only if no step is a swap that charges a fee. -/
theorem nativeMna_follows_iff (hR : E.runtime.FuelBounded) {ops : List Operation}
    (h : EachStep (next E) (Succeeds E) s ops) :
    (∀ pre, pre <+: ops →
        (runs (next E) s pre).nativeMna = s.nativeMna + (pre.map (minted E s)).sum) ↔
      EachStep (next E) (fun s op => ¬ ChargesSwapFee E s op) s ops := by
  induction ops generalizing s with
  | nil =>
    refine iff_of_true (fun pre hp => ?_) trivial
    rw [List.prefix_nil.mp hp]
    simp
  | cons op ops ih =>
    obtain ⟨⟨b, hb⟩, h⟩ := h
    have hstep := apply_nativeMna hR (apply_eq hb)
    have hmint : (minted E (s.next E op)) = minted E s :=
      funext fun op' => minted_congr next_chainId op'
    constructor
    · intro hall
      have h1 := hall [op] (List.cons_prefix_cons.mpr ⟨rfl, List.nil_prefix⟩)
      rw [runs_cons, runs_nil, List.map_singleton, List.sum_singleton] at h1
      refine ⟨hstep.mp h1, (ih h).mp fun pre hp => ?_⟩
      have h2 := hall (op :: pre) (List.cons_prefix_cons.mpr ⟨rfl, hp⟩)
      rw [runs_cons, List.map_cons, List.sum_cons] at h2
      rw [h2, h1, hmint]
      omega
    · rintro ⟨h1, h2⟩ pre hp
      cases pre with
      | nil => simp
      | cons op' pre =>
        obtain ⟨rfl, hp'⟩ := List.cons_prefix_cons.mp hp
        rw [runs_cons, (ih h).mpr h2 pre hp', hstep.mpr h1, hmint, List.map_cons, List.sum_cons]
        omega

/-- A bridge mint and a transfer that pays its fee keep the sum. -/
theorem nativeMna_follows_transfer :
    let ops : List Operation := [.asset (Sample.bridge .mint 1 Sample.usdc 200),
      .transaction (Sample.transfer 0 ⟨Vector.replicate 21 1⟩ 10 1)]
    (runs (next .standIn) (Sample.genesisState 1) ops).nativeMna =
      (Sample.genesisState 1).nativeMna +
        (ops.map (minted .standIn (Sample.genesisState 1))).sum := by
  have h : EachStep (next .standIn) (Succeeds .standIn) (Sample.genesisState 1)
      [.asset (Sample.bridge .mint 1 Sample.usdc 200),
        .transaction (Sample.transfer 0 ⟨Vector.replicate 21 1⟩ 10 1)] := by decide +kernel
  exact (nativeMna_follows_iff WasmRuntime.standIn_fuelBounded h).mpr
    ⟨not_false, not_false, trivial⟩ _ (List.prefix_refl _)

/-- A swap of 200 USDC that charges a fee of 1 succeeds, and 1 MNA is gone. -/
theorem swap_fee_leaves_nativeMna :
    (((Sample.genesisState 1).next .standIn (.asset (Sample.bridge .mint 1 Sample.usdc 200))).apply
        .standIn (.mnaSwap (Sample.swap .mintMna 0 100 1))).result = .ok true ∧
      (runs (next .standIn) (Sample.genesisState 1)
          [.asset (Sample.bridge .mint 1 Sample.usdc 200),
            .mnaSwap (Sample.swap .mintMna 0 100 1)]).nativeMna ≠
        ((Sample.genesisState 1).next .standIn
          (.asset (Sample.bridge .mint 1 Sample.usdc 200))).nativeMna := by
  decide +kernel

end State

end WorldstreetChain
