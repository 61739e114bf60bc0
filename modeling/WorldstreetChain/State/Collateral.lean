import WorldstreetChain.State.Operation

/-!
# Collateral of reserve-backed MNA

The reserve is meant to hold two units of USD for each MNA it backs. Swaps that mint and reserve
operations check it; a bridge burn of USDC takes from the reserve without a look at what it backs,
and the checks multiply with saturation.

* `State.collateralized_next_iff` -- **one successful operation** keeps the collateral exactly
  under `KeepsCollateral`.
* `State.collateralized_iff` -- **along every run from a genesis** the collateral holds at every
  state exactly if every step meets that condition.
-/

namespace WorldstreetChain

open Std

namespace State

variable {E : Env} {s s' : State}

/-! ## 1. The reserve in numbers -/

/-- USDC verified less released. -/
def usdcReserve (s : State) : Nat :=
  s.mnaReserveLedger.totalVerifiedDepositsUsdc.toNat - s.mnaReserveLedger.totalReleasedUsdc.toNat

/-- USD of SOL verified less released. -/
def solReserve (s : State) : Nat :=
  s.mnaReserveLedger.totalVerifiedSolUsd.toNat - s.mnaReserveLedger.totalReleasedSolUsd.toNat

def backed (s : State) : Nat := s.mnaReserveLedger.reserveBackedMnaMinted.toNat

/-- The reserve the state reports covers twice the MNA it backs. -/
def Collateralized (s : State) : Prop :=
  mnaUsdcDenominator.toNat * s.backed ≤ s.currentReserveUsd.toNat

instance (s : State) : Decidable s.Collateralized := inferInstanceAs (Decidable (_ ≤ _))

/-- What the reserve holds beyond twice the MNA it backs. -/
def freeReserve (s : State) : Nat :=
  s.usdcReserve + s.solReserve - mnaUsdcDenominator.toNat * s.backed

theorem toNat_currentReserveUsd (s : State) :
    s.currentReserveUsd.toNat = min (s.usdcReserve + s.solReserve) (2 ^ 128 - 1) := by
  unfold currentReserveUsd usdcReserve solReserve
  rw [Unsigned.toNat_saturatingAdd, Unsigned.toNat_saturatingSub, Unsigned.toNat_saturatingSub]

theorem collateralized_iff_le (s : State) :
    s.Collateralized ↔ 2 * s.backed ≤ min (s.usdcReserve + s.solReserve) (2 ^ 128 - 1) := by
  rw [Collateralized, toNat_currentReserveUsd, toNat_mnaUsdcDenominator]

/-- The collateral is a matter of the ledger alone. -/
theorem collateralized_congr (h : s'.mnaReserveLedger = s.mnaReserveLedger) :
    s'.Collateralized ↔ s.Collateralized := by
  simp only [Collateralized, backed, currentReserveUsd, h]

/-! ## 2. One operation -/

/-- **What keeps the collateral**: a new burn of supported USDC takes no more out of the USDC
    reserve than is free, and a swap or a SOL deposit that mints keeps twice the MNA backed below
    `2 ^ 128`, where the check of the source starts to saturate. -/
def KeepsCollateral (E : Env) (s : State) : Operation → Prop
  | .asset o =>
    isSupportedUsdc o.assetId = true → o.kind = .burn →
      o.operationId ∉ s.processedAssetOperations →
        min o.amount.toNat s.usdcReserve ≤ s.freeReserve
  | .mnaSwap o =>
    o.unsigned.kind = .mintMna →
      E.crypto.mnaSwapOperationId o ∉ s.processedMnaSwapOperations →
        mnaUsdcDenominator.toNat * (s.backed + o.unsigned.amountMna.toNat) < 2 ^ 128
  | .mnaReserve o =>
    o.kind = .verifyDeposit → isSupportedSol o.collateralAsset = true →
      o.operationId ∉ s.processedMnaReserveOperations →
        mnaUsdcDenominator.toNat * (s.backed + o.amountMna.toNat) < 2 ^ 128
  | _ => True

theorem applyTransaction_ledger {t : Transaction} {id : Hash}
    (h : applyTransaction E s t = ⟨.ok id, s'⟩) : s'.mnaReserveLedger = s.mnaReserveLedger := by
  obtain ⟨-, -, ⟨-, h⟩ | ⟨-, total, -, h⟩⟩ := applyTransaction_eq_ok h
  · obtain ⟨-, _, _, -, -, rfl⟩ := faucetTransfer_eq_ok h
    rfl
  · obtain ⟨_, _, _, -, -, -, ⟨-, _, -, rfl⟩ | ⟨-, _, -, rfl⟩⟩ := transfer_eq_ok h <;> rfl

theorem applyTokenOperation_ledger {o : TokenOperation} {id : Hash}
    (h : s.applyTokenOperation E o id = ⟨.ok true, s'⟩) :
    s'.mnaReserveLedger = s.mnaReserveLedger := by
  obtain ⟨-, -, -, charged, next, hc, ht, rfl⟩ := applyTokenOperation_true h
  obtain ⟨_, _, _, -, -, -, rfl⟩ := chargeTokenFee_eq_ok hc
  rw [(tokenEffect_eq_ok ht).frame]
  rfl

theorem applyProgramOperation_ledger {o : ProgramOperation} {height : U64}
    (h : s.applyProgramOperation E o height = ⟨.ok true, s'⟩) :
    s'.mnaReserveLedger = s.mnaReserveLedger := by
  obtain ⟨-, hm⟩ := applyProgramOperation_true h
  obtain ⟨-, -, _, _, _, _, _, _, _, -, -, -, -, rfl⟩ := applyProgramOperationMut_eq_ok hm
  rfl

/-- **A bridge operation**: a mint only adds to the reserve; a burn of supported USDC keeps the
    collateral exactly if what it takes is free. -/
theorem applyAssetOperation_collateral {o : AssetOperation}
    (h : s.applyAssetOperation o = ⟨.ok true, s'⟩) (h0 : s.Collateralized) :
    s'.Collateralized ↔ KeepsCollateral E s (.asset o) := by
  obtain ⟨-, hn, ledger, balance, hl, -, rfl⟩ := applyAssetOperation_true h
  rw [collateralized_iff_le] at h0
  have hledger : (((s.recordAssetOperation o).setLedger ledger).setAssetBalance o.address
      o.assetId.canonicalKey balance).mnaReserveLedger = (s.setLedger ledger).mnaReserveLedger := rfl
  rw [collateralized_congr hledger, collateralized_iff_le, KeepsCollateral]
  rcases assetLedger_eq_ok hl with ⟨hu, rfl⟩ | ⟨-, hk, d, hd, rfl⟩ | ⟨hu, hk, r, hr, rfl⟩
  · rw [hu]
    exact iff_of_true h0 fun hf => absurd hf Bool.false_ne_true
  · rw [hk]
    refine iff_of_true ?_ fun _ hf => nomatch hf
    simp only [usdcReserve, solReserve, backed, setLedger_mnaReserveLedger] at h0 hd ⊢
    omega
  · simp only [hu, hk, hn, not_false_eq_true, forall_const, freeReserve, toNat_mnaUsdcDenominator]
    simp only [usdcReserve, solReserve, backed, setLedger_mnaReserveLedger] at h0 hr ⊢
    omega

/-- **A swap**: a redemption only lowers what is backed; a mint has passed the check, which is
    exact below `2 ^ 128`. -/
theorem applyMnaSwap_collateral {o : MnaSwapOperation}
    (h : s.applyMnaSwap E o = ⟨.ok true, s'⟩) (h0 : s.Collateralized) :
    s'.Collateralized ↔ KeepsCollateral E s (.mnaSwap o) := by
  obtain ⟨-, hn, next, he, rfl⟩ := applyMnaSwap_true h
  obtain ⟨nonce, usdc, balance, backed', ledger, -, -, rfl, hcase⟩ := swapEffect_eq_ok he
  rw [collateralized_iff_le] at h0
  have hledger : (((((s.markMnaSwap (E.crypto.mnaSwapOperationId o)).setAssetBalance
      o.unsigned.fromAddress o.unsigned.collateralAsset.canonicalKey usdc).insertAccount
      o.unsigned.fromAddress ⟨balance, nonce⟩).setLedger ledger).recordMnaSwap
        (E.crypto.mnaSwapOperationId o) o).mnaReserveLedger =
      (s.setLedger ledger).mnaReserveLedger := rfl
  rw [collateralized_congr hledger, collateralized_iff_le, KeepsCollateral]
  rcases hcase with ⟨hk, -, -, hback, hres, rfl⟩ | ⟨hk, debit, redeemed, -, -, -, hback, rfl⟩
  · have hres' : min (2 * backed'.toNat) (2 ^ 128 - 1) ≤ s.currentReserveUsd.toNat := hres
    rw [toNat_currentReserveUsd] at hres'
    simp only [hk, hn, not_false_eq_true, forall_const, toNat_mnaUsdcDenominator]
    simp only [usdcReserve, solReserve, backed, setLedger_mnaReserveLedger,
      markMnaSwap_mnaReserveLedger] at h0 hback hres' ⊢
    omega
  · rw [hk]
    refine iff_of_true ?_ fun hf => nomatch hf
    simp only [usdcReserve, solReserve, backed, setLedger_mnaReserveLedger,
      markMnaSwap_mnaReserveLedger] at h0 hback ⊢
    omega

/-- **A reserve operation** has passed the check, which is exact below `2 ^ 128`; only a SOL
    deposit raises what is backed. -/
theorem applyMnaReserveOperation_collateral {o : MnaReserveOperation}
    (h : s.applyMnaReserveOperation E o = ⟨.ok true, s'⟩) (h0 : s.Collateralized) :
    s'.Collateralized ↔ KeepsCollateral E s (.mnaReserve o) := by
  obtain ⟨-, hn, next, he, hres, rfl⟩ := applyMnaReserveOperation_true h
  rw [collateralized_iff_le] at h0
  have hledger : (next.recordMnaReserve o.operationId o).mnaReserveLedger =
      next.mnaReserveLedger := rfl
  rw [collateralized_congr hledger, collateralized_iff_le, KeepsCollateral]
  rw [toNat_currentReserveUsd] at hres
  have hbacked : next.mnaReserveLedger.reserveBackedMnaMinted.toNat = next.backed := rfl
  rw [hbacked] at hres
  have hunbacked : next.backed = s.backed →
      2 * next.backed ≤ min (next.usdcReserve + next.solReserve) (2 ^ 128 - 1) := fun hb => by
    rw [hb] at hres ⊢
    omega
  rcases reserveEffect_eq_ok he with
    ⟨hk, hsol, balance, _, _, b, -, -, hback, hnext⟩ | ⟨-, hsol, _, -, hnext⟩ |
      ⟨hk, -, _, _, -, -, hnext⟩ | ⟨hk, -, _, -, -, hnext⟩
  · have hb : next.backed = b.toNat := by rw [hnext]; rfl
    have hback' : b.toNat = s.backed + o.amountMna.toNat := hback
    simp only [hk, hsol, hn, not_false_eq_true, forall_const, toNat_mnaUsdcDenominator]
    omega
  · exact iff_of_true (hunbacked (by rw [hnext]; rfl))
      fun _ hf => absurd (hsol ▸ hf) Bool.false_ne_true
  · rw [hk]
    exact iff_of_true (hunbacked (by rw [hnext]; rfl)) fun hf => nomatch hf
  · rw [hk]
    exact iff_of_true (hunbacked (by rw [hnext]; rfl)) fun hf => nomatch hf

/-- **One successful operation** on a collateralized state leaves it so exactly under
    `KeepsCollateral`. -/
theorem collateralized_next_iff {op : Operation} (h : s.Succeeds E op) (h0 : s.Collateralized) :
    (s.next E op).Collateralized ↔ KeepsCollateral E s op := by
  obtain ⟨b, hb⟩ := h
  have happly := apply_eq hb
  cases b with
  | false =>
    have hsame := apply_false happly
    rw [hsame] at happly ⊢
    refine iff_of_true h0 ?_
    cases op with
    | asset o => exact fun _ _ hn => absurd (applyAssetOperation_false happly).2 hn
    | mnaSwap o => exact fun _ hn => absurd (applyMnaSwap_false happly).2 hn
    | mnaReserve o => exact fun _ _ hn => absurd (applyMnaReserveOperation_false happly).2 hn
    | _ => exact trivial
  | true =>
    cases op with
    | transaction t =>
      obtain ⟨id, ht, -⟩ := Applied.map_eq_ok.mp happly
      exact iff_of_true ((collateralized_congr (applyTransaction_ledger ht)).mpr h0) trivial
    | asset o => exact applyAssetOperation_collateral happly h0
    | token o id =>
      exact iff_of_true ((collateralized_congr (applyTokenOperation_ledger happly)).mpr h0) trivial
    | mnaSwap o => exact applyMnaSwap_collateral happly h0
    | mnaReserve o => exact applyMnaReserveOperation_collateral happly h0
    | program o height =>
      exact iff_of_true ((collateralized_congr (applyProgramOperation_ledger happly)).mpr h0)
        trivial

/-! ## 3. Runs from a genesis -/

theorem fromGenesis_collateralized {genesis : GenesisConfig} (h : fromGenesis genesis = .ok s) :
    s.Collateralized := by
  obtain ⟨accounts, rfl⟩ := fromGenesis_eq_ok h
  exact Nat.zero_le _

/-- **Along every run of successful operations from a genesis** the backed MNA is collateralized at
    every state reached if and only if every step meets `KeepsCollateral`. -/
theorem collateralized_iff {genesis : GenesisConfig} (hg : fromGenesis genesis = .ok s)
    {ops : List Operation} (h : EachStep (next E) (Succeeds E) s ops) :
    (∀ pre, pre <+: ops → (runs (next E) s pre).Collateralized) ↔
      EachStep (next E) (KeepsCollateral E) s ops := by
  rw [← throughout_iff]
  exact h.throughout_iff_guarded (fun _ _ => collateralized_next_iff) (fromGenesis_collateralized hg)

/-- Bridged USDC swapped to MNA, and half of a second deposit burned. -/
theorem collateralized_swap :
    (runs (next .standIn) (Sample.genesisState 1)
      [.asset (Sample.bridge .mint 1 Sample.usdc 300),
        .mnaSwap (Sample.swap .mintMna 0 100 1),
        .asset (Sample.bridge .burn 2 Sample.usdc 100)]).Collateralized := by
  have h : EachStep (next .standIn) (Succeeds .standIn) (Sample.genesisState 1)
      [.asset (Sample.bridge .mint 1 Sample.usdc 300), .mnaSwap (Sample.swap .mintMna 0 100 1),
        .asset (Sample.bridge .burn 2 Sample.usdc 100)] := by decide +kernel
  refine (collateralized_iff (Sample.fromGenesis_genesis 1) h).mpr ⟨?_, ?_, ?_, trivial⟩ _
    (List.prefix_refl _)
  · exact fun _ hf => nomatch hf
  · exact fun _ _ => by decide +kernel
  · exact fun _ _ _ => by decide +kernel

/-- USDC under another number of decimals has the same key and no deposit behind it. Two hundred
    of it, minted after the real 200 were swapped to MNA and burned as real USDC, leave 100 MNA
    backed by nothing. -/
theorem collateral_burned_through_lookalike :
    let ops : List Operation :=
      [.asset (Sample.bridge .mint 1 Sample.usdc 200), .mnaSwap (Sample.swap .mintMna 0 100 1),
        .asset (Sample.bridge .mint 2 { Sample.usdc with decimals := 9 } 200),
        .asset (Sample.bridge .burn 3 Sample.usdc 200)]
    fromGenesis (Sample.genesis 1) = .ok (Sample.genesisState 1) ∧
      EachStep (next .standIn) (Succeeds .standIn) (Sample.genesisState 1) ops ∧
      ¬ (runs (next .standIn) (Sample.genesisState 1) ops).Collateralized := by
  refine ⟨Sample.fromGenesis_genesis 1, ?_, ?_⟩
  · decide +kernel
  · decide +kernel

end State

end WorldstreetChain
