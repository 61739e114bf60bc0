import WorldstreetChain.Rpc.Reserve

/-!
# Quotes for SOL (`sol_mna_quote`)

A quote says what a deposit of SOL is worth in micro-dollars and in MNA, at the configured price and
fee. The state takes the deposit only if the micro-dollars are even and not zero; the quote is given
in any case.

* `Rpc.solMnaQuote` -- the handler.
* `State.checkConversion` -- the checks of a reserve operation that look at its amounts.
* `Rpc.quote_mintable_iff` -- **when the state accepts the amounts of a quote**: exactly if the
  lamports are worth an even number of micro-dollars that is not zero.
-/

namespace WorldstreetChain

open Std

/-! ## 1. The checks of amounts -/

namespace State

/-- The checks of amounts and conversion. -/
def checkConversion (E : Env) (o : MnaReserveOperation) : Outcome StateError Unit := do
  rejectIf (o.amountUsdc = 0 ∨ o.amountUsdc % mnaUsdcDenominator ≠ 0 ∨ o.amountMna = 0
    ∨ o.amountUsdc / mnaUsdcDenominator < o.feeMna) .invalidMnaConversion
  let sum ← Unsigned.add E.overflowChecks o.amountMna o.feeMna
  rejectIf (sum ≠ o.amountUsdc / mnaUsdcDenominator) .invalidMnaConversion
  checkCollateral o

/-- **The validation** looks at version, pause and collateral, at the amounts, and at the reference
    and the id. -/
theorem validateMnaReserveOperation_checkConversion (E : Env) (s : State)
    (o : MnaReserveOperation) : s.validateMnaReserveOperation E o = (do
      rejectIf (o.version ≠ 1) .invalidMnaReserveVersion
      rejectIf (s.mnaReserveLedger.paused = true) .mnaReservePaused
      rejectIf (isSupportedSol o.collateralAsset = false ∧
        isSupportedUsdc o.collateralAsset = false) .invalidMnaCollateral
      checkConversion E o
      rejectIf (isBlank o.externalTransaction = true) .invalidMnaReserveVersion
      rejectIf (E.crypto.mnaReserveOperationId o ≠ o.operationId) .invalidMnaReserveVersion
      .ok (E.crypto.mnaReserveOperationId o)) := by
  unfold validateMnaReserveOperation checkConversion
  simp only [bind_assoc]

end State

namespace Rpc

/-! ## 2. The handler -/

/-- The variables of the environment the handler reads. -/
structure QuoteVariables where
  priceUsdMicroPerSol : Option String
  feeBps : Option String

structure SolQuote where
  amountLamports : Amount
  oraclePriceUsdMicroPerSol : Amount
  amountUsdMicro : Amount
  grossMna : Amount
  feeMna : Amount
  amountMna : Amount
  feeBps : Amount
  deriving DecidableEq

def QuoteVariables.price (vars : QuoteVariables) : Amount :=
  (vars.priceUsdMicroPerSol.bind parseU128).getD 0

/-- The fee that is set, 50 if none is, between 50 and 500. -/
def QuoteVariables.clampedFeeBps (vars : QuoteVariables) : Amount :=
  let feeBps := (vars.feeBps.bind parseU128).getD 50
  if feeBps < 50 then 50 else if 500 < feeBps then 500 else feeBps

/-- `sol_mna_quote`; the answer has its amounts as numerals. -/
def solMnaQuote (vars : QuoteVariables) (amountLamports : String) : Outcome RpcError SolQuote := do
  let lamports ← orFail (parseU128 amountLamports)
    (.reply (-32602) "amount_lamports must be an unsigned integer string")
  rejectIf (lamports = 0) (.reply (-32602) "amount_lamports must be positive")
  rejectIf (vars.price = 0) (.reply (-32010) "SOL/MNA oracle is not configured")
  let product ← orFail (Unsigned.checkedMul lamports vars.price)
    (.reply (-32000) "SOL quote overflow")
  let usd := product / 1000000000
  let gross := usd / mnaUsdcDenominator
  let fee := Unsigned.saturatingMul gross vars.clampedFeeBps / 10000
  .ok
    { amountLamports := lamports
      oraclePriceUsdMicroPerSol := vars.price
      amountUsdMicro := usd
      grossMna := gross
      feeMna := fee
      amountMna := Unsigned.saturatingSub gross fee
      feeBps := vars.clampedFeeBps }

/-! ## 3. What a quote says -/

variable {vars : QuoteVariables} {text : String} {q : SolQuote} {o : MnaReserveOperation}

theorem clampedFeeBps_le (vars : QuoteVariables) : vars.clampedFeeBps.toNat ≤ 500 := by
  unfold QuoteVariables.clampedFeeBps
  dsimp only
  split
  · decide
  · split
    · decide
    · rename_i h
      exact Nat.le_of_not_lt fun hlt => h (BitVec.lt_def.mpr hlt)

/-- The numbers of a quote. -/
structure Quoted (lamports price feeBps : Nat) (q : SolQuote) : Prop where
  amount : q.amountLamports.toNat = lamports
  oracle : q.oraclePriceUsdMicroPerSol.toNat = price
  lamports_pos : 0 < lamports
  price_pos : 0 < price
  product : lamports * price < 2 ^ 128
  usd : q.amountUsdMicro.toNat = lamports * price / 1000000000
  fee : q.feeMna.toNat = q.amountUsdMicro.toNat / 2 * feeBps / 10000
  mna : q.amountMna.toNat = q.amountUsdMicro.toNat / 2 - q.feeMna.toNat
  bounded : feeBps ≤ 500

theorem toNat_pos {w : Nat} {a : BitVec w} (h : a ≠ 0) : 0 < a.toNat :=
  Nat.pos_of_ne_zero fun hzero => h (BitVec.eq_of_toNat_eq (by rw [hzero]; simp))

/-- **What a quote says**: it is rounded down three times, and no product in it saturates. -/
theorem solMnaQuote_quoted (h : solMnaQuote vars text = .ok q) : ∃ lamports : Amount,
    parseU128 text = some lamports ∧
      Quoted lamports.toNat vars.price.toNat vars.clampedFeeBps.toNat q := by
  unfold solMnaQuote at h
  obtain ⟨lamports, hlamports, h⟩ := orFail_bind_eq_ok.mp h
  obtain ⟨hpositive, h⟩ := rejectIf_bind_eq_ok.mp h
  obtain ⟨hprice, h⟩ := rejectIf_bind_eq_ok.mp h
  obtain ⟨product, hproduct, h⟩ := orFail_bind_eq_ok.mp h
  cases h
  have hvalue := Unsigned.checkedMul_eq_some.mp hproduct
  have hbound := product.isLt
  have hbps := clampedFeeBps_le vars
  have hsmall : product.toNat / 1000000000 / 2 * vars.clampedFeeBps.toNat < 2 ^ 128 := by
    have hle := Nat.mul_le_mul_left (product.toNat / 1000000000 / 2) hbps
    omega
  have husd : (product / 1000000000).toNat = product.toNat / 1000000000 := BitVec.toNat_udiv
  have hgross : (product / 1000000000 / mnaUsdcDenominator).toNat =
      product.toNat / 1000000000 / 2 := by
    rw [BitVec.toNat_udiv, husd]
    rfl
  have hfee : (Unsigned.saturatingMul (product / 1000000000 / mnaUsdcDenominator)
      vars.clampedFeeBps / 10000).toNat =
        product.toNat / 1000000000 / 2 * vars.clampedFeeBps.toNat / 10000 := by
    rw [BitVec.toNat_udiv, Unsigned.toNat_saturatingMul, hgross,
      Nat.min_eq_left (Nat.le_sub_one_of_lt hsmall)]
    rfl
  refine ⟨lamports, hlamports, rfl, rfl, toNat_pos hpositive, toNat_pos hprice, hvalue ▸ hbound, ?_,
    ?_, ?_, hbps⟩
  · rw [← hvalue]
    exact husd
  · rw [husd]
    exact hfee
  · rw [husd]
    show (Unsigned.saturatingSub (product / 1000000000 / mnaUsdcDenominator) _).toNat = _
    rw [Unsigned.toNat_saturatingSub, hgross]

/-- The operation that converts a deposit at a quote. -/
structure AtQuote (q : SolQuote) (o : MnaReserveOperation) : Prop where
  kind : o.kind = .verifyDeposit
  sol : State.isSupportedSol o.collateralAsset = true
  amountUsdc : o.amountUsdc = q.amountUsdMicro
  feeMna : o.feeMna = q.feeMna
  amountMna : o.amountMna = q.amountMna
  collateral : o.collateralAmount = q.amountLamports
  price : o.oraclePriceUsdMicroPerSol = q.oraclePriceUsdMicroPerSol
  timestamp : o.oracleTimestamp ≠ 0

/-- The collateral of a quote is worth what the quote says. -/
theorem checkCollateral_atQuote {lamports price feeBps : Nat} (hq : Quoted lamports price feeBps q)
    (ho : AtQuote q o) : State.checkCollateral o = .ok () := by
  have hne : ∀ {a : Amount}, 0 < a.toNat → a ≠ 0 := fun h hzero => by
    rw [hzero] at h
    cases h
  have hlamports : 0 < o.collateralAmount.toNat := by
    rw [ho.collateral, hq.amount]
    exact hq.lamports_pos
  have hprice : 0 < o.oraclePriceUsdMicroPerSol.toNat := by
    rw [ho.price, hq.oracle]
    exact hq.price_pos
  obtain ⟨product, hproduct⟩ : ∃ product, Unsigned.checkedMul o.collateralAmount
      o.oraclePriceUsdMicroPerSol = some product := by
    unfold Unsigned.checkedMul
    rw [if_pos (by rw [ho.collateral, ho.price, hq.amount, hq.oracle]; exact hq.product)]
    exact ⟨_, rfl⟩
  have hvalue := Unsigned.checkedMul_eq_some.mp hproduct
  rw [ho.collateral, ho.price, hq.amount, hq.oracle] at hvalue
  have husd : product / 1000000000 = o.amountUsdc := by
    refine BitVec.eq_of_toNat_eq ?_
    rw [BitVec.toNat_udiv, hvalue, ho.amountUsdc, hq.usd]
    rfl
  unfold State.checkCollateral
  rw [if_pos ho.sol, hproduct, rejectIf_bind_eq_ok]
  refine ⟨?_, rejectIf_bind_eq_ok.mpr ⟨not_not.mpr husd, rfl⟩⟩
  rintro (h | h | h)
  · exact hne hlamports h
  · exact hne hprice h
  · exact ho.timestamp h

/-- **When the state accepts the amounts of a quote**: exactly if the lamports are worth an even
    number of micro-dollars that is not zero. -/
theorem quote_mintable_iff (E : Env) (vars : QuoteVariables) (text : String) (q : SolQuote)
    (o : MnaReserveOperation) (hquote : solMnaQuote vars text = .ok q) (ho : AtQuote q o) :
    State.checkConversion E o = .ok () ↔
      q.amountLamports.toNat * q.oraclePriceUsdMicroPerSol.toNat / 1000000000 ≠ 0 ∧
        q.amountLamports.toNat * q.oraclePriceUsdMicroPerSol.toNat / 1000000000 % 2 = 0 := by
  obtain ⟨lamports, -, hq⟩ := solMnaQuote_quoted hquote
  rw [hq.amount, hq.oracle, ← hq.usd]
  have hmod : (o.amountUsdc % mnaUsdcDenominator).toNat = q.amountUsdMicro.toNat % 2 := by
    rw [BitVec.toNat_umod, ho.amountUsdc]
    rfl
  have hdiv : (o.amountUsdc / mnaUsdcDenominator).toNat = q.amountUsdMicro.toNat / 2 := by
    rw [BitVec.toNat_udiv, ho.amountUsdc]
    rfl
  have hfee : q.feeMna.toNat ≤ q.amountUsdMicro.toNat / 2 / 20 := by
    have hle := Nat.mul_le_mul_left (q.amountUsdMicro.toNat / 2) hq.bounded
    have heq := hq.fee
    omega
  have hmna := hq.mna
  have hbound := q.amountUsdMicro.isLt
  constructor
  · intro h
    obtain ⟨hamounts, -⟩ := rejectIf_bind_eq_ok.mp h
    simp only [not_or, not_not] at hamounts
    obtain ⟨hzero, heven, -, -⟩ := hamounts
    refine ⟨fun h0 => hzero ?_, ?_⟩
    · rw [ho.amountUsdc]
      exact BitVec.eq_of_toNat_eq h0
    · rw [← hmod, heven]
      rfl
  · intro h
    obtain ⟨hzero, heven⟩ := h
    have hsum : o.amountMna.toNat + o.feeMna.toNat < 2 ^ 128 := by
      rw [ho.amountMna, ho.feeMna]
      omega
    unfold State.checkConversion
    rw [rejectIf_bind_eq_ok]
    refine ⟨?_, ?_⟩
    · rintro (h0 | h0 | h0 | h0)
      · exact hzero (by rw [← ho.amountUsdc, h0]; rfl)
      · exact h0 (BitVec.eq_of_toNat_eq (by rw [hmod, heven]; rfl))
      · have hpositive : q.amountMna.toNat = 0 := by
          rw [← ho.amountMna, h0]
          rfl
        omega
      · have hlt := BitVec.lt_def.mp h0
        rw [hdiv, ho.feeMna] at hlt
        omega
    · rw [Unsigned.add_of_lt hsum, Outcome.ok_bind, rejectIf_bind_eq_ok]
      refine ⟨not_not.mpr (BitVec.eq_of_toNat_eq ?_), checkCollateral_atQuote hq ho⟩
      rw [BitVec.toNat_add_of_lt hsum, hdiv, ho.amountMna, ho.feeMna]
      omega

end Rpc

/-! ## 4. One SOL -/

namespace Sample

/-- The variables for a price in micro-dollars. -/
def quoteVariables (price : String) : Rpc.QuoteVariables := ⟨some price, none⟩

/-- What a SOL is quoted at 150 dollars, and a micro-dollar above. -/
def evenQuote : Rpc.SolQuote := ⟨1000000000, 150000000, 150000000, 75000000, 375000, 74625000, 50⟩

def oddQuote : Rpc.SolQuote := ⟨1000000000, 150000001, 150000001, 75000000, 375000, 74625000, 50⟩

theorem solMnaQuote_even :
    Rpc.solMnaQuote (quoteVariables "150000000") "1000000000" = .ok evenQuote := by
  decide +kernel

theorem solMnaQuote_odd :
    Rpc.solMnaQuote (quoteVariables "150000001") "1000000000" = .ok oddQuote := by
  decide +kernel

/-- The conversion of a deposit at a quote. -/
def conversionAt (q : Rpc.SolQuote) : MnaReserveOperation :=
  { deposit with
    collateralAsset := .wrapped "solana" "SOL" "devnet:native" 9
    amountUsdc := q.amountUsdMicro
    amountMna := q.amountMna
    collateralAmount := q.amountLamports
    oraclePriceUsdMicroPerSol := q.oraclePriceUsdMicroPerSol
    oracleTimestamp := 1
    feeMna := q.feeMna }

theorem supported_sol :
    State.isSupportedSol (.wrapped "solana" "SOL" "devnet:native" 9) = true := by
  decide +kernel

theorem atQuote_conversionAt (q : Rpc.SolQuote) : Rpc.AtQuote q (conversionAt q) :=
  ⟨rfl, supported_sol, rfl, rfl, rfl, rfl, rfl, by simp [conversionAt]⟩

end Sample

namespace Rpc

theorem quote_mintable_even :
    State.checkConversion .standIn (Sample.conversionAt Sample.evenQuote) = .ok () :=
  (quote_mintable_iff .standIn _ _ _ _ Sample.solMnaQuote_even
    (Sample.atQuote_conversionAt Sample.evenQuote)).mpr (by decide +kernel)

/-- **A quote that is not mintable**: 74.625 MNA for one SOL at 150.000001 dollars. -/
theorem odd_quote_refused :
    solMnaQuote (Sample.quoteVariables "150000001") "1000000000" = .ok Sample.oddQuote ∧
      AtQuote Sample.oddQuote (Sample.conversionAt Sample.oddQuote) ∧
      State.checkConversion .standIn (Sample.conversionAt Sample.oddQuote) =
        .error (.err .invalidMnaConversion) :=
  ⟨Sample.solMnaQuote_odd, Sample.atQuote_conversionAt Sample.oddQuote, by decide +kernel⟩

end Rpc

end WorldstreetChain
