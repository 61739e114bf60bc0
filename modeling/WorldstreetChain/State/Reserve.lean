import WorldstreetChain.State.Basic

/-!
# Reserve-backed MNA (`State::apply_mna_swap`, `State::apply_mna_reserve_operation`)

A swap turns wrapped USDC into MNA at two to one, or back; a reserve operation records a verified
external deposit or a release, and a SOL deposit mints MNA with it. Both calls process their id on
the live state first and then work on a clone, so a failure from there on keeps the id processed.

* `State.ValidMnaSwap`, `State.ValidMnaReserve` -- what the validations have passed.
* `State.applyMnaSwap_true`, `State.applyMnaReserveOperation_true` -- **what an applied operation
  did**, through `swapEffect_eq_ok` and `reserveEffect_eq_ok`, one case per kind.
* `..._false`, `..._error` -- a duplicate changes nothing; a failure changes nothing, or leaves the
  id processed and everything else alone.
-/

namespace WorldstreetChain

open Std

namespace State

/-! ## 1. Swaps -/

section Swap

variable (E : Env) (s : State)

def validateMnaSwap (o : MnaSwapOperation) : Outcome StateError Hash := do
  let u := o.unsigned
  rejectIf (u.version ≠ 1) .invalidMnaSwapVersion
  rejectIf (u.chainId ≠ s.chainId) .mnaSwapWrongChainId
  rejectIf (E.crypto.addressFromPublicKey u.publicKey ≠ u.fromAddress) .mnaSwapAddressMismatch
  rejectIf (E.crypto.verify u.publicKey o.signingBytes o.signature = false)
    .invalidMnaSwapSignature
  rejectIf (u.fee < s.feeMinimum) .mnaSwapFeeTooLow
  let account ← orFail s.accounts[u.fromAddress]? .mnaSwapInsufficientFeeBalance
  rejectIf (account.nonce ≠ u.nonce) (.mnaSwapNonceMismatch account.nonce u.nonce)
  rejectIf (account.balance < u.fee) .mnaSwapInsufficientFeeBalance
  rejectIf (isSupportedUsdc u.collateralAsset = false) .invalidMnaCollateral
  rejectIf (u.amountUsdc = 0 ∨ u.amountUsdc % mnaUsdcDenominator ≠ 0
    ∨ u.amountMna ≠ u.amountUsdc / mnaUsdcDenominator) .invalidMnaConversion
  .ok (E.crypto.mnaSwapOperationId o)

/-- USDC becomes MNA, as far as the reserve covers it. -/
def mintMna (u : UnsignedMnaSwapOperation) (newBalance : Amount) (newNonce : Nonce) :
    Outcome StateError State := do
  let key := u.collateralAsset.canonicalKey
  let currentUsdc := s.assetBalanceOf u.fromAddress key
  rejectIf (currentUsdc < u.amountUsdc) .mnaSwapInsufficientBalance
  let balance ← orFail (Unsigned.checkedAdd newBalance u.amountMna) .balanceOverflow
  let newBacked ← orFail
    (Unsigned.checkedAdd s.mnaReserveLedger.reserveBackedMnaMinted u.amountMna) .balanceOverflow
  rejectIf (s.currentReserveUsd < Unsigned.saturatingMul newBacked mnaUsdcDenominator)
    .mnaReserveInsufficient
  .ok (((s.setAssetBalance u.fromAddress key (currentUsdc - u.amountUsdc)).insertAccount
    u.fromAddress { balance, nonce := newNonce }).setLedger
      { s.mnaReserveLedger with reserveBackedMnaMinted := newBacked })

/-- MNA becomes USDC. The plain additions are the source's. -/
def redeemMna (u : UnsignedMnaSwapOperation) (newNonce : Nonce) : Outcome StateError State := do
  let key := u.collateralAsset.canonicalKey
  let currentUsdc := s.assetBalanceOf u.fromAddress key
  let held := (s.accountOf u.fromAddress).balance
  let debit ← Unsigned.add E.overflowChecks u.amountMna u.fee
  rejectIf (held < debit) .mnaSwapInsufficientBalance
  let debit ← Unsigned.add E.overflowChecks u.amountMna u.fee
  let balance ← orFail (Unsigned.checkedSub held debit) .mnaSwapInsufficientBalance
  let usdc ← orFail (Unsigned.checkedAdd currentUsdc u.amountUsdc) .assetBalanceOverflow
  let backed ← orFail
    (Unsigned.checkedSub s.mnaReserveLedger.reserveBackedMnaMinted u.amountMna)
    .mnaReserveInsufficient
  let redeemed ← orFail (Unsigned.checkedAdd s.mnaReserveLedger.totalRedeemedMna u.amountMna)
    .balanceOverflow
  .ok (((s.setAssetBalance u.fromAddress key usdc).insertAccount u.fromAddress
    { balance, nonce := newNonce }).setLedger
      { s.mnaReserveLedger with reserveBackedMnaMinted := backed, totalRedeemedMna := redeemed })

def swapEffect (u : UnsignedMnaSwapOperation) : Outcome StateError State := do
  let account := s.accountOf u.fromAddress
  let newBalance ← orFail (Unsigned.checkedSub account.balance u.fee)
    .mnaSwapInsufficientFeeBalance
  let newNonce ← orFail (Unsigned.checkedAdd account.nonce 1) .nonceOverflow
  match u.kind with
  | .mintMna => s.mintMna u newBalance newNonce
  | .redeemMna => s.redeemMna E u newNonce

@[simps] def markMnaSwap (id : Hash) : State :=
  { s with processedMnaSwapOperations := s.processedMnaSwapOperations.insert id }

@[simps] def recordMnaSwap (id : Hash) (o : MnaSwapOperation) : State :=
  { s with mnaSwapOperationRecords := s.mnaSwapOperationRecords.insert id o }

def applyMnaSwap (o : MnaSwapOperation) : Applied StateError State Bool :=
  .attempt s (validateMnaSwap E s o) fun id =>
  if id ∈ s.processedMnaSwapOperations then ⟨.ok false, s⟩
  else
    let s := s.markMnaSwap id
    .ofClone s do
      let next ← s.swapEffect E o.unsigned
      .ok (true, next.recordMnaSwap id o)

end Swap

/-! ## 2. Reserve operations -/

section Operation

variable (E : Env) (s : State)

/-- The SOL amount is the USD amount at the oracle price; a USDC operation has none of either. -/
def checkCollateral (o : MnaReserveOperation) : Outcome StateError Unit :=
  if isSupportedSol o.collateralAsset then do
    rejectIf (o.collateralAmount = 0 ∨ o.oraclePriceUsdMicroPerSol = 0 ∨ o.oracleTimestamp = 0)
      .invalidMnaConversion
    let product ← orFail (Unsigned.checkedMul o.collateralAmount o.oraclePriceUsdMicroPerSol)
      .balanceOverflow
    rejectIf (product / 1000000000 ≠ o.amountUsdc) .invalidMnaConversion
    .ok ()
  else do
    rejectIf (o.collateralAmount ≠ 0 ∨ o.oraclePriceUsdMicroPerSol ≠ 0 ∨ o.oracleTimestamp ≠ 0
      ∨ o.feeMna ≠ 0) .invalidMnaConversion
    .ok ()

def validateMnaReserveOperation (o : MnaReserveOperation) : Outcome StateError Hash := do
  rejectIf (o.version ≠ 1) .invalidMnaReserveVersion
  rejectIf (s.mnaReserveLedger.paused = true) .mnaReservePaused
  rejectIf (isSupportedSol o.collateralAsset = false ∧ isSupportedUsdc o.collateralAsset = false)
    .invalidMnaCollateral
  rejectIf (o.amountUsdc = 0 ∨ o.amountUsdc % mnaUsdcDenominator ≠ 0 ∨ o.amountMna = 0
    ∨ o.amountUsdc / mnaUsdcDenominator < o.feeMna) .invalidMnaConversion
  -- the plain addition is reached only when the tests before it passed (`||`)
  let sum ← Unsigned.add E.overflowChecks o.amountMna o.feeMna
  rejectIf (sum ≠ o.amountUsdc / mnaUsdcDenominator) .invalidMnaConversion
  checkCollateral o
  rejectIf (isBlank o.externalTransaction = true) .invalidMnaReserveVersion
  let id := E.crypto.mnaReserveOperationId o
  rejectIf (id ≠ o.operationId) .invalidMnaReserveVersion
  .ok id

/-- A verified deposit: SOL also mints MNA to the depositor. -/
def verifyDeposit (o : MnaReserveOperation) : Outcome StateError State :=
  let l := s.mnaReserveLedger
  if isSupportedSol o.collateralAsset then do
    let lamports ← orFail (Unsigned.checkedAdd l.totalVerifiedSolLamports o.collateralAmount)
      .balanceOverflow
    let usd ← orFail (Unsigned.checkedAdd l.totalVerifiedSolUsd o.amountUsdc) .balanceOverflow
    let account := s.accountOf o.address
    let balance ← orFail (Unsigned.checkedAdd account.balance o.amountMna) .balanceOverflow
    let backed ← orFail (Unsigned.checkedAdd l.reserveBackedMnaMinted o.amountMna)
      .balanceOverflow
    .ok ((s.insertAccount o.address { balance, nonce := account.nonce }).setLedger
      { l with
        totalVerifiedSolLamports := lamports
        totalVerifiedSolUsd := usd
        reserveBackedMnaMinted := backed })
  else do
    let deposits ← orFail (Unsigned.checkedAdd l.totalVerifiedDepositsUsdc o.amountUsdc)
      .balanceOverflow
    .ok (s.setLedger { l with totalVerifiedDepositsUsdc := deposits })

/-- A release of collateral, out of what is left of its own kind. -/
def releaseReserve (o : MnaReserveOperation) : Outcome StateError State :=
  let l := s.mnaReserveLedger
  if isSupportedSol o.collateralAsset then do
    let available := Unsigned.saturatingSub l.totalVerifiedSolUsd l.totalReleasedSolUsd
    rejectIf (available < o.amountUsdc) .mnaReserveInsufficient
    let usd ← orFail (Unsigned.checkedAdd l.totalReleasedSolUsd o.amountUsdc) .balanceOverflow
    let lamports ← orFail (Unsigned.checkedAdd l.totalReleasedSolLamports o.collateralAmount)
      .balanceOverflow
    .ok (s.setLedger
      { l with totalReleasedSolUsd := usd, totalReleasedSolLamports := lamports })
  else do
    let available := Unsigned.saturatingSub l.totalVerifiedDepositsUsdc l.totalReleasedUsdc
    rejectIf (available < o.amountUsdc) .mnaReserveInsufficient
    let released ← orFail (Unsigned.checkedAdd l.totalReleasedUsdc o.amountUsdc) .balanceOverflow
    .ok (s.setLedger { l with totalReleasedUsdc := released })

def reserveEffect (o : MnaReserveOperation) : Outcome StateError State :=
  match o.kind with
  | .verifyDeposit => s.verifyDeposit o
  | .release => s.releaseReserve o

@[simps] def markMnaReserve (id : Hash) : State :=
  { s with processedMnaReserveOperations := s.processedMnaReserveOperations.insert id }

@[simps] def recordMnaReserve (id : Hash) (o : MnaReserveOperation) : State :=
  { s with mnaReserveOperationRecords := s.mnaReserveOperationRecords.insert id o }

def applyMnaReserveOperation (o : MnaReserveOperation) : Applied StateError State Bool :=
  .attempt s (validateMnaReserveOperation E s o) fun id =>
  if id ∈ s.processedMnaReserveOperations then ⟨.ok false, s⟩
  else
    let s := s.markMnaReserve id
    .ofClone s do
      let next ← s.reserveEffect o
      rejectIf (next.currentReserveUsd
          < Unsigned.saturatingMul next.mnaReserveLedger.reserveBackedMnaMinted mnaUsdcDenominator)
        .mnaReserveInsufficient
      .ok (true, next.recordMnaReserve id o)

end Operation

/-! ## 3. What the validations have passed -/

variable {E : Env} {s s' : State}

@[simp] theorem toNat_mnaUsdcDenominator : mnaUsdcDenominator.toNat = 2 := rfl

/-- What `validate_mna_swap` has checked of a swap it accepts. -/
structure ValidMnaSwap (E : Env) (s : State) (o : MnaSwapOperation) : Prop where
  chainId : o.unsigned.chainId = s.chainId
  derives : E.crypto.addressFromPublicKey o.unsigned.publicKey = o.unsigned.fromAddress
  signed : E.crypto.verify o.unsigned.publicKey o.signingBytes o.signature = true
  nonce : ∃ a, s.accounts[o.unsigned.fromAddress]? = some a ∧ a.nonce = o.unsigned.nonce
  supported : isSupportedUsdc o.unsigned.collateralAsset = true
  usdc : o.unsigned.amountUsdc.toNat = 2 * o.unsigned.amountMna.toNat
  positive : 0 < o.unsigned.amountMna.toNat

/-- An amount without remainder is twice its half. -/
theorem exactly_convertible {usdc : Amount} (h : usdc % mnaUsdcDenominator = 0) :
    usdc.toNat = 2 * (usdc / mnaUsdcDenominator).toNat := by
  have hm := congrArg BitVec.toNat h
  rw [BitVec.toNat_umod, toNat_mnaUsdcDenominator] at hm
  rw [BitVec.toNat_udiv, toNat_mnaUsdcDenominator]
  have h0 : (0 : Amount).toNat = 0 := rfl
  omega

theorem validateMnaSwap_eq_ok {o : MnaSwapOperation} {id : Hash}
    (h : validateMnaSwap E s o = .ok id) :
    ValidMnaSwap E s o ∧ id = E.crypto.mnaSwapOperationId o := by
  unfold validateMnaSwap at h
  simp only [rejectIf_bind_eq_ok, orFail_bind_eq_ok, not_or, not_not] at h
  obtain ⟨-, hc, hd, hs, -, a, ha, hn, -, hu, ⟨h0, hm, he⟩, hid⟩ := h
  have husdc := exactly_convertible hm
  rw [← he] at husdc
  refine ⟨⟨hc, hd, by simpa using hs, ⟨a, ha, hn⟩, by simpa using hu, husdc, ?_⟩,
    (Except.ok.inj hid).symm⟩
  have hpos : o.unsigned.amountUsdc.toNat ≠ 0 := fun hz => h0 (BitVec.eq_of_toNat_eq hz)
  omega

/-- What `validate_mna_reserve_operation` has checked of an operation it accepts: among other
    things that MNA and fee together are exactly half the USD amount. -/
structure ValidMnaReserve (E : Env) (s : State) (o : MnaReserveOperation) : Prop where
  id : E.crypto.mnaReserveOperationId o = o.operationId
  supported : isSupportedSol o.collateralAsset = true ∨ isSupportedUsdc o.collateralAsset = true
  usdc : o.amountUsdc.toNat = 2 * (o.amountMna.toNat + o.feeMna.toNat)
  positive : 0 < o.amountMna.toNat

theorem validateMnaReserveOperation_eq_ok {o : MnaReserveOperation} {id : Hash}
    (h : validateMnaReserveOperation E s o = .ok id) :
    ValidMnaReserve E s o ∧ id = E.crypto.mnaReserveOperationId o := by
  unfold validateMnaReserveOperation at h
  simp only [rejectIf_bind_eq_ok, not_or, not_not] at h
  obtain ⟨-, -, hsup, ⟨-, hm, h0, hfee⟩, h⟩ := h
  obtain ⟨sum, hsum, h⟩ := Outcome.bind_eq_ok.mp h
  obtain ⟨hhalf, h⟩ := rejectIf_bind_eq_ok.mp h
  obtain ⟨⟨⟩, -, h⟩ := Outcome.bind_eq_ok.mp h
  simp only [rejectIf_bind_eq_ok, not_not] at h
  obtain ⟨-, hid, h⟩ := h
  refine ⟨⟨hid, ?_, ?_, ?_⟩, (Except.ok.inj h).symm⟩
  · cases hsol : isSupportedSol o.collateralAsset with
    | true => exact Or.inl rfl
    | false => exact Or.inr (by simpa [hsol] using hsup)
  · have husdc := exactly_convertible hm
    rw [BitVec.lt_def] at hfee
    rw [← not_not.mp hhalf] at husdc hfee
    -- a sum that wrapped would be below the fee
    rcases Unsigned.add_eq_ok hsum with hs | ⟨-, -, hs⟩
    · omega
    · have := o.amountMna.isLt
      omega
  · have hpos : o.amountMna.toNat ≠ 0 := fun hz => h0 (BitVec.eq_of_toNat_eq hz)
    omega

/-! ## 4. What the effects do -/

/-- **A swap's effect**: a mint pays USDC and the fee for MNA, a redemption pays MNA and the fee
    (as the build adds them) for USDC; the fee goes nowhere. -/
theorem swapEffect_eq_ok {u : UnsignedMnaSwapOperation} (h : s.swapEffect E u = .ok s') :
    ∃ (nonce : Nonce) (usdc balance backed : Amount) (ledger : MnaReserveLedger),
      nonce.toNat = (s.nonceOf u.fromAddress).toNat + 1 ∧
      u.fee.toNat ≤ (s.balanceOf u.fromAddress).toNat ∧
      s' = ((s.setAssetBalance u.fromAddress u.collateralAsset.canonicalKey usdc).insertAccount
        u.fromAddress ⟨balance, nonce⟩).setLedger ledger ∧
      ((u.kind = .mintMna ∧
          (s.assetBalanceOf u.fromAddress u.collateralAsset.canonicalKey).toNat =
            usdc.toNat + u.amountUsdc.toNat ∧
          balance.toNat + u.fee.toNat = (s.balanceOf u.fromAddress).toNat + u.amountMna.toNat ∧
          backed.toNat = s.mnaReserveLedger.reserveBackedMnaMinted.toNat + u.amountMna.toNat ∧
          min (2 * backed.toNat) (2 ^ 128 - 1) ≤ s.currentReserveUsd.toNat ∧
          ledger = { s.mnaReserveLedger with reserveBackedMnaMinted := backed }) ∨
        (u.kind = .redeemMna ∧ ∃ debit redeemed : Amount,
          Unsigned.add (ε := StateError) E.overflowChecks u.amountMna u.fee = .ok debit ∧
          usdc.toNat = (s.assetBalanceOf u.fromAddress u.collateralAsset.canonicalKey).toNat +
            u.amountUsdc.toNat ∧
          (s.balanceOf u.fromAddress).toNat = debit.toNat + balance.toNat ∧
          s.mnaReserveLedger.reserveBackedMnaMinted.toNat = u.amountMna.toNat + backed.toNat ∧
          ledger = { s.mnaReserveLedger with
            reserveBackedMnaMinted := backed, totalRedeemedMna := redeemed })) := by
  unfold swapEffect at h
  simp only [orFail_bind_eq_ok, Unsigned.checkedSub_eq_some, Unsigned.checkedAdd_eq_some,
    accountOf_balance, accountOf_nonce] at h
  obtain ⟨newBalance, hb, nonce, hn, h⟩ := h
  split at h
  · rename_i hk
    unfold mintMna at h
    simp only [rejectIf_bind_eq_ok, orFail_bind_eq_ok, Unsigned.checkedAdd_eq_some] at h
    obtain ⟨hlt, balance, hbal, backed, hback, hres, h⟩ := h
    rw [BitVec.lt_def] at hlt hres
    rw [Unsigned.toNat_saturatingMul, toNat_mnaUsdcDenominator] at hres
    cases h
    refine ⟨nonce, _, balance, backed, _, hn, by omega, rfl, Or.inl ⟨hk, ?_, ?_, hback, ?_, rfl⟩⟩
    · rw [Unsigned.toNat_sub_of_le (by omega)]
      omega
    · omega
    · omega
  · rename_i hk
    unfold redeemMna at h
    obtain ⟨debit, hd, h⟩ := Outcome.bind_eq_ok.mp h
    obtain ⟨-, h⟩ := rejectIf_bind_eq_ok.mp h
    -- the source adds twice; it is the same sum
    obtain ⟨debit', hd', h⟩ := Outcome.bind_eq_ok.mp h
    cases hd.symm.trans hd'
    simp only [orFail_bind_eq_ok, Unsigned.checkedSub_eq_some, Unsigned.checkedAdd_eq_some,
      accountOf_balance, Except.ok.injEq] at h
    obtain ⟨balance, hbal, usdc, hu, backed, hback, redeemed, -, rfl⟩ := h
    exact ⟨nonce, usdc, balance, backed, _, hn, by omega, rfl,
      Or.inr ⟨hk, debit, redeemed, hd, hu, hbal, hback, rfl⟩⟩

/-- **A reserve operation's effect**: four cases, by kind and collateral. Only a SOL deposit
    touches an account. -/
theorem reserveEffect_eq_ok {o : MnaReserveOperation} (h : s.reserveEffect o = .ok s') :
    (o.kind = .verifyDeposit ∧ isSupportedSol o.collateralAsset = true ∧
      ∃ balance lamports usd backed : Amount,
        balance.toNat = (s.balanceOf o.address).toNat + o.amountMna.toNat ∧
        usd.toNat = s.mnaReserveLedger.totalVerifiedSolUsd.toNat + o.amountUsdc.toNat ∧
        backed.toNat = s.mnaReserveLedger.reserveBackedMnaMinted.toNat + o.amountMna.toNat ∧
        s' = (s.insertAccount o.address ⟨balance, s.nonceOf o.address⟩).setLedger
          { s.mnaReserveLedger with
            totalVerifiedSolLamports := lamports
            totalVerifiedSolUsd := usd
            reserveBackedMnaMinted := backed }) ∨
    (o.kind = .verifyDeposit ∧ isSupportedSol o.collateralAsset = false ∧
      ∃ deposits : Amount,
        deposits.toNat = s.mnaReserveLedger.totalVerifiedDepositsUsdc.toNat + o.amountUsdc.toNat ∧
        s' = s.setLedger { s.mnaReserveLedger with totalVerifiedDepositsUsdc := deposits }) ∨
    (o.kind = .release ∧ isSupportedSol o.collateralAsset = true ∧
      ∃ usd lamports : Amount,
        usd.toNat = s.mnaReserveLedger.totalReleasedSolUsd.toNat + o.amountUsdc.toNat ∧
        o.amountUsdc.toNat ≤ s.mnaReserveLedger.totalVerifiedSolUsd.toNat -
          s.mnaReserveLedger.totalReleasedSolUsd.toNat ∧
        s' = s.setLedger { s.mnaReserveLedger with
          totalReleasedSolUsd := usd, totalReleasedSolLamports := lamports }) ∨
    (o.kind = .release ∧ isSupportedSol o.collateralAsset = false ∧
      ∃ released : Amount,
        released.toNat = s.mnaReserveLedger.totalReleasedUsdc.toNat + o.amountUsdc.toNat ∧
        o.amountUsdc.toNat ≤ s.mnaReserveLedger.totalVerifiedDepositsUsdc.toNat -
          s.mnaReserveLedger.totalReleasedUsdc.toNat ∧
        s' = s.setLedger { s.mnaReserveLedger with totalReleasedUsdc := released }) := by
  unfold reserveEffect at h
  split at h
  · rename_i hk
    unfold verifyDeposit at h
    simp only at h
    split at h
    · rename_i hsol
      simp only [orFail_bind_eq_ok, Unsigned.checkedAdd_eq_some, accountOf_balance,
        accountOf_nonce, Except.ok.injEq] at h
      obtain ⟨lamports, -, usd, hu, balance, hb, backed, hback, rfl⟩ := h
      exact Or.inl ⟨hk, hsol, balance, lamports, usd, backed, hb, hu, hback, rfl⟩
    · rename_i hsol
      simp only [orFail_bind_eq_ok, Unsigned.checkedAdd_eq_some, Except.ok.injEq] at h
      obtain ⟨deposits, hd, rfl⟩ := h
      exact Or.inr (Or.inl ⟨hk, by simpa using hsol, deposits, hd, rfl⟩)
  · rename_i hk
    unfold releaseReserve at h
    simp only at h
    split at h
    · rename_i hsol
      simp only [rejectIf_bind_eq_ok, orFail_bind_eq_ok, Unsigned.checkedAdd_eq_some,
        BitVec.lt_def, Unsigned.toNat_saturatingSub, Except.ok.injEq] at h
      obtain ⟨ha, usd, hu, lamports, -, rfl⟩ := h
      exact Or.inr (Or.inr (Or.inl ⟨hk, hsol, usd, lamports, hu, Nat.le_of_not_lt ha, rfl⟩))
    · rename_i hsol
      simp only [rejectIf_bind_eq_ok, orFail_bind_eq_ok, Unsigned.checkedAdd_eq_some,
        BitVec.lt_def, Unsigned.toNat_saturatingSub, Except.ok.injEq] at h
      obtain ⟨ha, released, hr, rfl⟩ := h
      exact Or.inr (Or.inr (Or.inr ⟨hk, by simpa using hsol, released, hr,
        Nat.le_of_not_lt ha, rfl⟩))

/-! ## 5. The calls -/

section Calls

variable {so : MnaSwapOperation} {ro : MnaReserveOperation} {e : Fault StateError}

/-- **An applied swap** was valid and new. -/
theorem applyMnaSwap_true (h : s.applyMnaSwap E so = ⟨.ok true, s'⟩) :
    ValidMnaSwap E s so ∧ E.crypto.mnaSwapOperationId so ∉ s.processedMnaSwapOperations ∧
      ∃ next, (s.markMnaSwap (E.crypto.mnaSwapOperationId so)).swapEffect E so.unsigned =
          .ok next ∧
        s' = next.recordMnaSwap (E.crypto.mnaSwapOperationId so) so := by
  unfold applyMnaSwap at h
  obtain ⟨id, hv, h⟩ := Applied.attempt_eq_ok.mp h
  obtain ⟨hvalid, rfl⟩ := validateMnaSwap_eq_ok hv
  split at h
  · simp at h
  · rename_i hn
    obtain ⟨next, he, h⟩ := Outcome.bind_eq_ok.mp (Applied.ofClone_eq_ok.mp h)
    cases h
    exact ⟨hvalid, hn, next, he, rfl⟩

/-- A valid, new swap whose effect goes through is applied. -/
theorem applyMnaSwap_of {id : Hash} {next : State} (hv : validateMnaSwap E s so = .ok id)
    (hn : id ∉ s.processedMnaSwapOperations)
    (he : (s.markMnaSwap id).swapEffect E so.unsigned = .ok next) :
    s.applyMnaSwap E so = ⟨.ok true, next.recordMnaSwap id so⟩ := by
  unfold applyMnaSwap
  refine Applied.attempt_eq_ok.mpr ⟨id, hv, ?_⟩
  rw [if_neg hn]
  exact Applied.ofClone_eq_ok.mpr (Outcome.bind_eq_ok.mpr ⟨next, he, rfl⟩)

/-- A duplicate swap changes nothing. -/
theorem applyMnaSwap_false (h : s.applyMnaSwap E so = ⟨.ok false, s'⟩) :
    s' = s ∧ E.crypto.mnaSwapOperationId so ∈ s.processedMnaSwapOperations := by
  unfold applyMnaSwap at h
  obtain ⟨id, hv, h⟩ := Applied.attempt_eq_ok.mp h
  obtain ⟨-, rfl⟩ := validateMnaSwap_eq_ok hv
  split at h
  · rename_i hp
    exact ⟨(Applied.mk_eq_ok.mp h).2.symm, hp⟩
  · obtain ⟨next, -, h⟩ := Outcome.bind_eq_ok.mp (Applied.ofClone_eq_ok.mp h)
    cases h

/-- **A failed swap** changes nothing, or was new and leaves its id processed. -/
theorem applyMnaSwap_error (h : s.applyMnaSwap E so = ⟨.error e, s'⟩) :
    s' = s ∨ (ValidMnaSwap E s so ∧
      E.crypto.mnaSwapOperationId so ∉ s.processedMnaSwapOperations ∧
      s' = s.markMnaSwap (E.crypto.mnaSwapOperationId so)) := by
  unfold applyMnaSwap at h
  rcases Applied.attempt_eq_error.mp h with ⟨-, h⟩ | ⟨id, hv, h⟩
  · exact Or.inl h.symm
  obtain ⟨hvalid, rfl⟩ := validateMnaSwap_eq_ok hv
  split at h
  · simp at h
  · rename_i hn
    exact Or.inr ⟨hvalid, hn, (Applied.ofClone_eq_error.mp h).2.symm⟩

/-- **An applied reserve operation** was valid and new, and the reserve it leaves covers the MNA
    it backs, as far as `u128` tells. -/
theorem applyMnaReserveOperation_true (h : s.applyMnaReserveOperation E ro = ⟨.ok true, s'⟩) :
    ValidMnaReserve E s ro ∧ ro.operationId ∉ s.processedMnaReserveOperations ∧
      ∃ next, (s.markMnaReserve ro.operationId).reserveEffect ro = .ok next ∧
        min (2 * next.mnaReserveLedger.reserveBackedMnaMinted.toNat) (2 ^ 128 - 1) ≤
          next.currentReserveUsd.toNat ∧
        s' = next.recordMnaReserve ro.operationId ro := by
  unfold applyMnaReserveOperation at h
  obtain ⟨id, hv, h⟩ := Applied.attempt_eq_ok.mp h
  obtain ⟨hvalid, rfl⟩ := validateMnaReserveOperation_eq_ok hv
  rw [hvalid.id] at h
  split at h
  · simp at h
  · rename_i hn
    obtain ⟨next, he, h⟩ := Outcome.bind_eq_ok.mp (Applied.ofClone_eq_ok.mp h)
    obtain ⟨hres, h⟩ := rejectIf_bind_eq_ok.mp h
    cases h
    rw [BitVec.lt_def, Unsigned.toNat_saturatingMul, toNat_mnaUsdcDenominator] at hres
    exact ⟨hvalid, hn, next, he, by omega, rfl⟩

/-- A duplicate reserve operation changes nothing. -/
theorem applyMnaReserveOperation_false (h : s.applyMnaReserveOperation E ro = ⟨.ok false, s'⟩) :
    s' = s ∧ ro.operationId ∈ s.processedMnaReserveOperations := by
  unfold applyMnaReserveOperation at h
  obtain ⟨id, hv, h⟩ := Applied.attempt_eq_ok.mp h
  obtain ⟨hvalid, rfl⟩ := validateMnaReserveOperation_eq_ok hv
  rw [hvalid.id] at h
  split at h
  · rename_i hp
    exact ⟨(Applied.mk_eq_ok.mp h).2.symm, hp⟩
  · obtain ⟨next, -, h⟩ := Outcome.bind_eq_ok.mp (Applied.ofClone_eq_ok.mp h)
    obtain ⟨-, h⟩ := rejectIf_bind_eq_ok.mp h
    cases h

/-- **A failed reserve operation** changes nothing, or was new and leaves its id processed. -/
theorem applyMnaReserveOperation_error (h : s.applyMnaReserveOperation E ro = ⟨.error e, s'⟩) :
    s' = s ∨ (ValidMnaReserve E s ro ∧ ro.operationId ∉ s.processedMnaReserveOperations ∧
      s' = s.markMnaReserve ro.operationId) := by
  unfold applyMnaReserveOperation at h
  rcases Applied.attempt_eq_error.mp h with ⟨-, h⟩ | ⟨id, hv, h⟩
  · exact Or.inl h.symm
  obtain ⟨hvalid, rfl⟩ := validateMnaReserveOperation_eq_ok hv
  rw [hvalid.id] at h
  split at h
  · simp at h
  · rename_i hn
    exact Or.inr ⟨hvalid, hn, (Applied.ofClone_eq_error.mp h).2.symm⟩

end Calls

end State

end WorldstreetChain
