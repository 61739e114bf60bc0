import WorldstreetChain.State.Failure

/-!
# The plain additions of the MNA conversion

`validate_mna_reserve_operation` and the redemption of `apply_mna_swap` add amount and fee with a
plain `+`. Whether such an addition overflows shows in a build with overflow checks, which panics
there and nowhere else; a build without them carries on with the sum less `2 ^ 128`.

* `State.ReserveSumFits`, `State.SwapSumFits` -- the sum fits where the tests in front of it let it
  be evaluated.
* `State.conversion_additions_exact` -- **no addition overflows exactly if the sum fits**; then a
  redemption debits amount and fee, and an accepted reserve operation splits half its USD amount
  into both, in every build.
-/

namespace WorldstreetChain

open Std

/-- The same build with overflow checks. -/
def Env.checked (E : Env) : Env := { E with overflowChecks := true }

namespace State

variable {E : Env} {s t : State}

/-- The tests in front of the sum of `validate_mna_reserve_operation` let it be evaluated. -/
structure ReachesReserveSum (s : State) (o : MnaReserveOperation) : Prop where
  version : o.version = 1
  running : s.mnaReserveLedger.paused = false
  supported : isSupportedSol o.collateralAsset = true ∨ isSupportedUsdc o.collateralAsset = true
  usdc : o.amountUsdc.toNat ≠ 0
  even : o.amountUsdc.toNat % 2 = 0
  mna : o.amountMna.toNat ≠ 0
  fee : o.feeMna.toNat ≤ o.amountUsdc.toNat / 2

def ReserveSumFits (s : State) (o : MnaReserveOperation) : Prop :=
  ReachesReserveSum s o → o.amountMna.toNat + o.feeMna.toNat < 2 ^ 128

/-- A redemption that is valid and new comes to its sum unless its nonce is the last one. -/
def SwapSumFits (E : Env) (s : State) (o : MnaSwapOperation) : Prop :=
  ∀ id, validateMnaSwap E s o = .ok id → id ∉ s.processedMnaSwapOperations →
    o.unsigned.kind = .redeemMna → (s.nonceOf o.unsigned.fromAddress).toNat + 1 < 2 ^ 64 →
    o.unsigned.amountMna.toNat + o.unsigned.fee.toNat < 2 ^ 128

theorem toNat_ne_zero {x : Amount} : ¬ x = 0 ↔ x.toNat ≠ 0 := by
  constructor
  · exact fun h h0 => h (BitVec.eq_of_toNat_eq h0)
  · rintro h rfl
    exact h rfl

theorem not_half_lt {x y : Amount} : ¬ x / mnaUsdcDenominator < y ↔ y.toNat ≤ x.toNat / 2 := by
  rw [BitVec.lt_def, BitVec.toNat_udiv, toNat_mnaUsdcDenominator, Nat.not_lt]

theorem checkCollateral_ne_panic {o : MnaReserveOperation} :
    checkCollateral o ≠ .error .panic := by
  unfold checkCollateral
  split
  · simp only [ne_eq, rejectIf_bind_eq_panic, orFail_bind_eq_panic]
    rintro ⟨-, _, -, -, h⟩
    cases h
  · simp only [ne_eq, rejectIf_bind_eq_panic]
    rintro ⟨-, h⟩
    cases h

/-- Past the sum nothing panics. -/
theorem behindReserveSum_ne_panic {o : MnaReserveOperation} :
    (do
      checkCollateral o
      rejectIf (isBlank o.externalTransaction = true) .invalidMnaReserveVersion
      rejectIf (E.crypto.mnaReserveOperationId o ≠ o.operationId) .invalidMnaReserveVersion
      .ok (E.crypto.mnaReserveOperationId o) : Outcome StateError Hash) ≠ .error .panic := by
  simp only [ne_eq, bind_eq_panic (x := checkCollateral o), rejectIf_bind_eq_panic]
  rintro (h | ⟨-, -, -, -, h⟩)
  · exact checkCollateral_ne_panic h
  · cases h

/-- **The sum of a reserve operation overflows** exactly where it is evaluated and does not fit. -/
theorem validateMnaReserveOperation_panics_iff {o : MnaReserveOperation} :
    validateMnaReserveOperation E.checked s o = .error .panic ↔ ¬ ReserveSumFits s o := by
  unfold validateMnaReserveOperation ReserveSumFits
  simp only [rejectIf_bind_eq_panic, Env.checked, bind_eq_panic (x := Unsigned.add _ _ _),
    Unsigned.add_eq_panic, not_or, toNat_ne_zero, not_not, not_half_lt]
  constructor
  · rintro ⟨hversion, hpaused, hsupported, ⟨husdc, heven, hmna, hfee⟩, hover | ⟨_, -, -, htail⟩⟩
    · intro hfits
      have hreaches : ReachesReserveSum s o := by
        refine ⟨hversion, by simpa using hpaused, ?_, husdc, heven, hmna, hfee⟩
        cases hsol : isSupportedSol o.collateralAsset with
        | true => exact Or.inl rfl
        | false => exact Or.inr (by simpa [hsol] using hsupported)
      exact Nat.not_lt.mpr hover (hfits hreaches)
    · exact absurd htail behindReserveSum_ne_panic
  · intro hfits
    obtain ⟨h, hover⟩ := Classical.not_imp.mp hfits
    refine ⟨h.version, by simp [h.running], ?_, ⟨h.usdc, h.even, h.mna, h.fee⟩,
      Or.inl (Nat.not_lt.mp hover)⟩
    rintro ⟨hsol, husdc⟩
    rcases h.supported with hs | hs
    · exact absurd (hsol.symm.trans hs) (by decide)
    · exact absurd (husdc.symm.trans hs) (by decide)

/-- Validation adds nothing. -/
theorem validateMnaSwap_ne_panic {o : MnaSwapOperation} :
    validateMnaSwap E s o ≠ .error .panic := by
  unfold validateMnaSwap
  simp only [ne_eq, rejectIf_bind_eq_panic, orFail_bind_eq_panic]
  rintro ⟨-, -, -, -, -, _, -, -, -, -, -, h⟩
  cases h

theorem mintMna_ne_panic {u : UnsignedMnaSwapOperation} {balance : Amount} {nonce : Nonce} :
    s.mintMna u balance nonce ≠ .error .panic := by
  unfold mintMna
  simp only [ne_eq, rejectIf_bind_eq_panic, orFail_bind_eq_panic]
  rintro ⟨-, _, -, _, -, -, h⟩
  cases h

theorem redeemMna_panics_iff {u : UnsignedMnaSwapOperation} {nonce : Nonce} :
    s.redeemMna E.checked u nonce = .error .panic ↔
      2 ^ 128 ≤ u.amountMna.toNat + u.fee.toNat := by
  unfold redeemMna
  simp only [rejectIf_bind_eq_panic, orFail_bind_eq_panic, Env.checked,
    bind_eq_panic (x := Unsigned.add _ _ _), Unsigned.add_eq_panic]
  constructor
  · rintro (hover | ⟨_, -, -, hover | ⟨_, -, _, -, _, -, _, -, _, -, h⟩⟩)
    · exact hover
    · exact hover
    · cases h
  · exact Or.inl

theorem swapEffect_panics_iff {u : UnsignedMnaSwapOperation} :
    s.swapEffect E.checked u = .error .panic ↔ u.kind = .redeemMna ∧
      u.fee.toNat ≤ (s.balanceOf u.fromAddress).toNat ∧
      (s.nonceOf u.fromAddress).toNat + 1 < 2 ^ 64 ∧
      2 ^ 128 ≤ u.amountMna.toNat + u.fee.toNat := by
  unfold swapEffect
  simp only [orFail_bind_eq_panic, accountOf_balance, accountOf_nonce]
  constructor
  · rintro ⟨newBalance, hfee, newNonce, hnonce, h⟩
    cases hk : u.kind with
    | mintMna =>
      rw [hk] at h
      exact absurd h mintMna_ne_panic
    | redeemMna =>
      rw [hk] at h
      exact ⟨rfl, Unsigned.exists_checkedSub.mp ⟨_, hfee⟩,
        Unsigned.exists_checkedAdd.mp ⟨_, hnonce⟩, redeemMna_panics_iff.mp h⟩
  · rintro ⟨hk, hfee, hnonce, hover⟩
    obtain ⟨newBalance, hfee⟩ := Unsigned.exists_checkedSub.mpr hfee
    have hone : (s.nonceOf u.fromAddress).toNat + (1 : Nonce).toNat < 2 ^ 64 := hnonce
    obtain ⟨newNonce, hnonce⟩ := Unsigned.exists_checkedAdd.mpr hone
    refine ⟨newBalance, hfee, newNonce, hnonce, ?_⟩
    rw [hk]
    exact redeemMna_panics_iff.mpr hover

/-- A valid swap's signer has its fee. -/
theorem validateMnaSwap_fee {o : MnaSwapOperation} {id : Hash}
    (h : validateMnaSwap E s o = .ok id) :
    o.unsigned.fee.toNat ≤ (s.balanceOf o.unsigned.fromAddress).toNat := by
  unfold validateMnaSwap at h
  simp only [rejectIf_bind_eq_ok, orFail_bind_eq_ok] at h
  obtain ⟨-, -, -, -, -, account, ha, -, hfee, -⟩ := h
  rw [BitVec.lt_def, Nat.not_lt] at hfee
  have hbalance : s.balanceOf o.unsigned.fromAddress = account.balance := by
    rw [← accountOf_balance, accountOf, ha]
    rfl
  rwa [hbalance]

/-- **The sum of a redemption overflows** exactly where it is evaluated and does not fit. -/
theorem applyMnaSwap_panics_iff {o : MnaSwapOperation} :
    (s.applyMnaSwap E.checked o).result = .error .panic ↔ ¬ SwapSumFits E s o := by
  unfold applyMnaSwap SwapSumFits
  simp only [Applied.attempt_result_eq_error]
  constructor
  · rintro (h | ⟨id, hv, h⟩) hfits
    · exact validateMnaSwap_ne_panic h
    by_cases hn : id ∈ s.processedMnaSwapOperations
    · rw [if_pos hn] at h
      cases h
    rw [if_neg hn, Applied.ofClone_result_eq_error] at h
    rcases bind_eq_panic.mp h with h | ⟨next, -, h⟩
    · obtain ⟨hk, -, hnonce, hover⟩ := swapEffect_panics_iff.mp h
      exact Nat.not_lt.mpr hover (hfits id hv hn hk hnonce)
    · cases h
  · intro hfits
    obtain ⟨id, hfits⟩ := Classical.not_forall.mp hfits
    obtain ⟨hv, hfits⟩ := Classical.not_imp.mp hfits
    obtain ⟨hn, hfits⟩ := Classical.not_imp.mp hfits
    obtain ⟨hk, hfits⟩ := Classical.not_imp.mp hfits
    obtain ⟨hnonce, hover⟩ := Classical.not_imp.mp hfits
    refine Or.inr ⟨id, hv, ?_⟩
    rw [if_neg hn, Applied.ofClone_result_eq_error]
    exact bind_eq_panic.mpr (Or.inl (swapEffect_panics_iff.mpr ⟨hk, validateMnaSwap_fee hv,
      hnonce, Nat.not_lt.mp hover⟩))

/-- **A redemption debits amount and fee** exactly if their sum fits. -/
theorem applyMnaSwap_debits_iff {o : MnaSwapOperation} (hk : o.unsigned.kind = .redeemMna)
    (h : s.applyMnaSwap E o = ⟨.ok true, t⟩) :
    (s.balanceOf o.unsigned.fromAddress).toNat = (t.balanceOf o.unsigned.fromAddress).toNat +
        (o.unsigned.amountMna.toNat + o.unsigned.fee.toNat) ↔ SwapSumFits E s o := by
  have happlied := h
  obtain ⟨-, hn, next, he, rfl⟩ := applyMnaSwap_true h
  obtain ⟨id, hv, -⟩ := Applied.attempt_eq_ok.mp happlied
  rw [← (validateMnaSwap_eq_ok hv).2] at hn
  obtain ⟨nonce, usdc, balance, backed, ledger, hnonce, -, rfl, ⟨hm, -⟩ | ⟨-, debit, redeemed, hd,
    -, hb, -⟩⟩ := swapEffect_eq_ok he
  · rw [hk] at hm
    cases hm
  have hafter : (((((s.markMnaSwap (E.crypto.mnaSwapOperationId o)).setAssetBalance
      o.unsigned.fromAddress o.unsigned.collateralAsset.canonicalKey usdc).insertAccount
        o.unsigned.fromAddress ⟨balance, nonce⟩).setLedger ledger).recordMnaSwap
          (E.crypto.mnaSwapOperationId o) o).balanceOf o.unsigned.fromAddress = balance := by
    have hset := balanceOf_insertAccount ((s.markMnaSwap
      (E.crypto.mnaSwapOperationId o)).setAssetBalance o.unsigned.fromAddress
        o.unsigned.collateralAsset.canonicalKey usdc) o.unsigned.fromAddress
          o.unsigned.fromAddress ⟨balance, nonce⟩
    rwa [if_pos rfl] at hset
  rw [hafter]
  have hbefore : (s.balanceOf o.unsigned.fromAddress).toNat = debit.toNat + balance.toNat := hb
  have hnext : nonce.toNat = (s.nonceOf o.unsigned.fromAddress).toNat + 1 := hnonce
  have hbound := (s.balanceOf o.unsigned.fromAddress).isLt
  have hnonceBound := nonce.isLt
  constructor
  · intro hsum id hv hn hk hnonce
    omega
  · intro hfits
    have hlt := hfits id hv hn hk (by omega)
    rcases Unsigned.add_eq_ok hd with hd | ⟨-, hd, -⟩
    · omega
    · omega

/-- The sum fits where the signer holds no more than half of what a `u128` can be. -/
theorem swapSumFits_of_balance {o : MnaSwapOperation}
    (h : (s.balanceOf o.unsigned.fromAddress).toNat ≤ 2 ^ 127) : SwapSumFits E s o := by
  intro id hv hn hk hnonce
  have hfee := validateMnaSwap_fee hv
  have husdc := (validateMnaSwap_eq_ok hv).1.usdc
  have hbound := o.unsigned.amountUsdc.isLt
  omega

/-- **No addition of the MNA conversion overflows**, in any state and for any operation, exactly if
    the sum fits where it is evaluated; a redemption that goes through debits amount and fee exactly
    if their sum fits, in every build; an accepted reserve operation splits half its USD amount
    into amount and fee. -/
theorem conversion_additions_exact (E : Env) (s : State) :
    (∀ o, validateMnaReserveOperation E.checked s o ≠ .error .panic ↔ ReserveSumFits s o) ∧
      (∀ o, (s.applyMnaSwap E.checked o).result ≠ .error .panic ↔ SwapSumFits E s o) ∧
      (∀ o t, o.unsigned.kind = .redeemMna → s.applyMnaSwap E o = ⟨.ok true, t⟩ →
        ((s.balanceOf o.unsigned.fromAddress).toNat =
          (t.balanceOf o.unsigned.fromAddress).toNat +
            (o.unsigned.amountMna.toNat + o.unsigned.fee.toNat) ↔ SwapSumFits E s o)) ∧
      (∀ o id, validateMnaReserveOperation E s o = .ok id →
        o.amountMna.toNat + o.feeMna.toNat = o.amountUsdc.toNat / 2) := by
  refine ⟨fun o => ?_, fun o => ?_, fun o t hk h => applyMnaSwap_debits_iff hk h, fun o id h => ?_⟩
  · rw [ne_eq, validateMnaReserveOperation_panics_iff, not_not]
  · rw [ne_eq, applyMnaSwap_panics_iff, not_not]
  · have husdc := (validateMnaReserveOperation_eq_ok h).1.usdc
    omega

end State

namespace Sample

/-- The account swaps 200 USDC to MNA, and the faucet gives it all that a `u128` can hold. -/
def whale : List Operation :=
  [.asset (bridge .mint 1 usdc 200), .mnaSwap (swap .mintMna 0 100 1),
    .transaction (transferBy Crypto.devnetFaucet 0 address (BitVec.ofNat 128 (2 ^ 128 - 1100)) 1)]

/-- A redemption whose amount and fee are `2 ^ 128` together. -/
def wrappingRedemption : MnaSwapOperation := 
  swap .redeemMna 1 100 (BitVec.ofNat 128 (2 ^ 128 - 100))

/-- A deposit whose amount and fee are `2 ^ 128` together. -/
def wrappingDeposit : MnaReserveOperation where
  version := 1
  operationId := .zero
  kind := .verifyDeposit
  collateralAsset := usdc
  address := address
  amountUsdc := 2
  amountMna := BitVec.ofNat 128 (2 ^ 128 - 1)
  feeMna := 1
  collateralAmount := 0
  oraclePriceUsdMicroPerSol := 0
  oracleTimestamp := 0
  destination := ""
  externalTransaction := "tx"
  memo := ""

end Sample

namespace State

/-- Both sums overflow; without overflow checks the redemption pays out and debits nothing. -/
theorem conversion_overflows :
    fromGenesis (Sample.genesis 1) = .ok (Sample.genesisState 1) ∧
      validateMnaReserveOperation Env.standIn.checked (Sample.genesisState 1)
        Sample.wrappingDeposit = .error .panic ∧
      (applyMnaSwap Env.standIn.checked (runs (next .standIn) (Sample.genesisState 1) Sample.whale)
        Sample.wrappingRedemption).result = .error .panic ∧
      (applyMnaSwap .standIn (runs (next .standIn) (Sample.genesisState 1) Sample.whale)
        Sample.wrappingRedemption).result = .ok true ∧
      (applyMnaSwap .standIn (runs (next .standIn) (Sample.genesisState 1) Sample.whale)
        Sample.wrappingRedemption).state.balanceOf Sample.address =
          (runs (next .standIn) (Sample.genesisState 1) Sample.whale).balanceOf Sample.address :=
  ⟨Sample.fromGenesis_genesis 1, by decide +kernel⟩

end State

end WorldstreetChain
