import WorldstreetChain.State.TokenSupply

/-!
# Test supply and the reserve

The devnet faucet mints MNA that nothing backs. A redemption looks at the MNA its caller holds and
at how much MNA is backed at all, so MNA from the faucet redeems against the deposits of others.

* `State.RedemptionCovered`, `State.swapEffect_redeem_covered` -- when a redemption goes through.
* `State.faucetOnly_usdc_iff` -- **in every run** an address that is given nothing but faucet MNA
  holds no supported USDC at any state reached, exactly if none of its redemptions goes through.
-/

namespace WorldstreetChain

open Std

namespace State

variable {E : Env} {s t : State} {a : Address}

/-! ## 1. Runs with direct credits -/

/-- What changes the state of a devnet node: an operation, or a credit of the node's faucet. -/
inductive LedgerCall where
  | operation (op : Operation)
  | creditDevnet (address : Address) (amount : Amount)

/-- The state a call leaves behind, whether it succeeds or not. -/
def afterCall (E : Env) (s : State) : LedgerCall → State
  | .operation op => s.next E op
  | .creditDevnet address amount => (s.creditDevnet address amount).state

/-- The call gives `a` nothing but faucet MNA: no transfer of another account, no bridge mint, no
    reserve deposit. -/
def GivesFaucetOnly (E : Env) (a : Address) : LedgerCall → Prop
  | .operation (.transaction t) =>
    t.unsigned.toAddress = a → t.unsigned.fromAddress = a ∨
      t.unsigned.publicKey = E.crypto.publicKey Crypto.devnetFaucet
  | .operation (.asset o) => o.kind = .mint → o.address ≠ a
  | .operation (.mnaReserve o) => o.kind = .verifyDeposit → o.address ≠ a
  | _ => True

def HoldsNoUsdc (a : Address) (s : State) : Prop :=
  ∀ asset, isSupportedUsdc asset = true → s.assetBalanceOf a asset.canonicalKey = 0

theorem HoldsNoUsdc.of_assetBalances (h : HoldsNoUsdc a s)
    (ht : t.assetBalances = s.assetBalances) : HoldsNoUsdc a t := by
  intro asset hu
  rw [assetBalanceOf, ht]
  exact h asset hu

/-! ## 2. When a redemption goes through -/

/-- What `apply_mna_swap` asks of a redemption past its validation, for an account without the
    USDC it pays out: the account covers the fee, and MNA and fee as the build adds them; the
    backed MNA covers the MNA, whoever's deposits back it. -/
structure RedemptionCovered (E : Env) (s : State) (u : UnsignedMnaSwapOperation) : Prop where
  fee : u.fee.toNat ≤ (s.balanceOf u.fromAddress).toNat
  nonce : (s.nonceOf u.fromAddress).toNat + 1 < 2 ^ 64
  debit : ∃ debit : Amount,
    Unsigned.add (ε := StateError) E.overflowChecks u.amountMna u.fee = .ok debit ∧
      debit.toNat ≤ (s.balanceOf u.fromAddress).toNat
  backed : u.amountMna.toNat ≤ s.mnaReserveLedger.reserveBackedMnaMinted.toNat
  redeemed : s.mnaReserveLedger.totalRedeemedMna.toNat + u.amountMna.toNat < 2 ^ 128

/-- Processing an id changes nothing a redemption is covered by. -/
theorem redemptionCovered_markMnaSwap {u : UnsignedMnaSwapOperation} (id : Hash) :
    RedemptionCovered E (s.markMnaSwap id) u ↔ RedemptionCovered E s u :=
  ⟨fun h => ⟨h.fee, h.nonce, h.debit, h.backed, h.redeemed⟩,
    fun h => ⟨h.fee, h.nonce, h.debit, h.backed, h.redeemed⟩⟩

/-- **A redemption goes through exactly if it is covered** and the account can take the USDC. -/
theorem swapEffect_redeem_covered {u : UnsignedMnaSwapOperation} (hk : u.kind = .redeemMna) :
    (∃ t, s.swapEffect E u = .ok t) ↔ RedemptionCovered E s u ∧
      (s.assetBalanceOf u.fromAddress u.collateralAsset.canonicalKey).toNat +
        u.amountUsdc.toNat < 2 ^ 128 := by
  unfold swapEffect redeemMna
  simp only [hk, Outcome.bind_eq_ok, orFail_eq_ok, rejectIf_eq_ok, accountOf_balance,
    accountOf_nonce]
  constructor
  · rintro ⟨t, newBalance, hfee, newNonce, hnonce, debit, hd, -, hle, debit', hd', balance, hb,
      usdc, husdc, backed, hback, redeemed, hr, -⟩
    rw [BitVec.lt_def] at hle
    have hfee' := Unsigned.exists_checkedSub.mp ⟨_, hfee⟩
    have hnonce' : (s.nonceOf u.fromAddress).toNat + (1 : Nonce).toNat < 2 ^ 64 :=
      Unsigned.exists_checkedAdd.mp ⟨_, hnonce⟩
    have husdc' := Unsigned.exists_checkedAdd.mp ⟨_, husdc⟩
    have hback' := Unsigned.exists_checkedSub.mp ⟨_, hback⟩
    have hr' := Unsigned.exists_checkedAdd.mp ⟨_, hr⟩
    exact ⟨⟨hfee', hnonce', ⟨debit, hd, by omega⟩, hback', hr'⟩, husdc'⟩
  · rintro ⟨⟨hfee, hnonce, ⟨debit, hd, hle⟩, hback, hr⟩, husdc⟩
    obtain ⟨newBalance, hfee⟩ := Unsigned.exists_checkedSub.mpr hfee
    have hone : (s.nonceOf u.fromAddress).toNat + (1 : Nonce).toNat < 2 ^ 64 := hnonce
    obtain ⟨newNonce, hnonce⟩ := Unsigned.exists_checkedAdd.mpr hone
    obtain ⟨balance, hb⟩ := Unsigned.exists_checkedSub.mpr hle
    obtain ⟨usdc, husdc⟩ := Unsigned.exists_checkedAdd.mpr husdc
    obtain ⟨backed, hback⟩ := Unsigned.exists_checkedSub.mpr hback
    obtain ⟨redeemed, hr⟩ := Unsigned.exists_checkedAdd.mpr hr
    have hlt : ¬ s.balanceOf u.fromAddress < debit := by
      rw [BitVec.lt_def]
      omega
    exact ⟨_, newBalance, hfee, newNonce, hnonce, debit, hd, ⟨⟩, hlt, debit, hd, balance, hb, usdc,
      husdc, backed, hback, redeemed, hr, rfl⟩

/-- An account that holds none of the USDC can take it. -/
theorem swapEffect_redeem_iff {u : UnsignedMnaSwapOperation} (hk : u.kind = .redeemMna)
    (h0 : s.assetBalanceOf u.fromAddress u.collateralAsset.canonicalKey = 0) :
    (∃ t, s.swapEffect E u = .ok t) ↔ RedemptionCovered E s u := by
  rw [swapEffect_redeem_covered hk, h0]
  have hroom : (0 : Amount).toNat + u.amountUsdc.toNat < 2 ^ 128 := by
    rw [BitVec.ofNat_eq_ofNat, BitVec.toNat_ofNat, Nat.zero_mod, Nat.zero_add]
    exact u.amountUsdc.isLt
  exact and_iff_left hroom

/-! ## 3. One call -/

/-- A redemption of `a` that goes through: valid, new and covered. -/
def Redeems (E : Env) (a : Address) (s : State) : LedgerCall → Prop
  | .operation (.mnaSwap o) =>
    o.unsigned.kind = .redeemMna ∧ o.unsigned.fromAddress = a ∧
      (∃ id, validateMnaSwap E s o = .ok id ∧ id ∉ s.processedMnaSwapOperations) ∧
      RedemptionCovered E s o.unsigned
  | _ => False

/-- Token operations write balances under token keys only. -/
theorem TokenEffect.assetBalanceOf {u : UnsignedTokenOperation} {id : Hash}
    (h : TokenEffect E s u id t) (b : Address) {key : String} (hkey : ¬ IsTokenKey key) :
    t.assetBalanceOf b key = s.assetBalanceOf b key := by
  have hne : ∀ d : TokenDefinition, tokenAssetKey d ≠ key := fun d he =>
    hkey (he ▸ isTokenKey_tokenAssetKey d)
  have hset : ∀ (s : State) (d : TokenDefinition) (c : Address) (v : Amount),
      (s.setAssetBalance c (tokenAssetKey d) v).assetBalanceOf b key = s.assetBalanceOf b key :=
    fun s d c v => by
      rw [assetBalanceOf_setAssetBalance, if_neg fun hc => hne d hc.2]
  cases h with
  | createEmpty hk h0 hnew => rfl
  | create d v hk hd hnew hv => exact hset (s.insertTokenDefinition d.tokenId d) d _ v
  | transfer d recipient v w hk hd hto hv hw => exact (hset _ d recipient w).trans (hset s d _ v)
  | mint d recipient total v hk hd htotal hcap hv => exact hset s d recipient v
  | burn d total v hk hd htotal hv => exact hset s d _ v
  | administer d d' hd hsame => rfl
  | frozen accounts => rfl

/-- A bridge operation that mints nothing to `a` leaves it without USDC. -/
theorem applyAssetOperation_usdc {o : AssetOperation} (h0 : HoldsNoUsdc a s)
    (hgives : o.kind = .mint → o.address ≠ a) (h : s.applyAssetOperation o = ⟨.ok true, t⟩) :
    HoldsNoUsdc a t := by
  obtain ⟨-, -, ledger, balance, -, hb, rfl⟩ := applyAssetOperation_true h
  intro asset hu
  have hset := assetBalanceOf_setAssetBalance ((s.recordAssetOperation o).setLedger ledger)
    o.address a o.assetId.canonicalKey asset.canonicalKey balance
  rw [hset]
  by_cases hcase : o.address = a ∧ o.assetId.canonicalKey = asset.canonicalKey
  · rw [if_pos hcase]
    have hzero := h0 asset hu
    rw [← hcase.1, ← hcase.2] at hzero
    rcases assetBalance_eq_ok hb with ⟨hk, -⟩ | ⟨-, hv⟩
    · exact absurd hcase.1 (hgives hk)
    · -- a burn out of nothing leaves nothing
      rw [hzero] at hv
      refine BitVec.eq_of_toNat_eq ?_
      have hz : (0 : Amount).toNat = 0 := rfl
      omega
  · rw [if_neg hcase]
    exact h0 asset hu

/-- A swap leaves `a` without USDC unless it is a redemption of `a`. -/
theorem applyMnaSwap_usdc {o : MnaSwapOperation} (h0 : HoldsNoUsdc a s)
    (hno : ¬ Redeems E a s (.operation (.mnaSwap o))) (h : s.applyMnaSwap E o = ⟨.ok true, t⟩) :
    HoldsNoUsdc a t := by
  have happlied := h
  obtain ⟨hvalid, hn, next, he, rfl⟩ := applyMnaSwap_true h
  have heffect := he
  obtain ⟨nonce, usdc, balance, backed, ledger, -, -, rfl, hcase⟩ := swapEffect_eq_ok he
  by_cases ha : o.unsigned.fromAddress = a
  · have hzero : s.assetBalanceOf o.unsigned.fromAddress
        o.unsigned.collateralAsset.canonicalKey = 0 := by
      rw [ha]
      exact h0 _ hvalid.supported
    have hfound : (s.markMnaSwap (E.crypto.mnaSwapOperationId o)).assetBalanceOf
        o.unsigned.fromAddress o.unsigned.collateralAsset.canonicalKey = 0 := hzero
    rcases hcase with ⟨-, husdc, -⟩ | ⟨hk, -⟩
    · -- a mint would pay with USDC the account does not have
      rw [hfound] at husdc
      have hz : (0 : Amount).toNat = 0 := rfl
      have hpos := hvalid.positive
      have hamount := hvalid.usdc
      omega
    · refine absurd ⟨hk, ha, ?_, ?_⟩ hno
      · obtain ⟨id, hv, -⟩ := Applied.attempt_eq_ok.mp happlied
        exact ⟨id, hv, (validateMnaSwap_eq_ok hv).2 ▸ hn⟩
      · exact (redemptionCovered_markMnaSwap _).mp
          ((swapEffect_redeem_iff hk hfound).mp ⟨_, heffect⟩)
  · intro asset hu
    have hset := assetBalanceOf_setAssetBalance s o.unsigned.fromAddress a
      o.unsigned.collateralAsset.canonicalKey asset.canonicalKey usdc
    rw [if_neg fun hc => ha hc.1] at hset
    exact hset.trans (h0 asset hu)

/-- A redemption that goes through pays out USDC. -/
theorem redeems_holdsUsdc {o : MnaSwapOperation} (h0 : HoldsNoUsdc a s)
    (h : Redeems E a s (.operation (.mnaSwap o))) : ¬ HoldsNoUsdc a (s.next E (.mnaSwap o)) := by
  obtain ⟨hk, ha, ⟨id, hv, hn⟩, hcovered⟩ := h
  have hvalid := (validateMnaSwap_eq_ok hv).1
  have hfound : (s.markMnaSwap id).assetBalanceOf o.unsigned.fromAddress
      o.unsigned.collateralAsset.canonicalKey = 0 := by
    rw [ha]
    exact h0 _ hvalid.supported
  have hcovered' := (redemptionCovered_markMnaSwap id).mpr hcovered
  obtain ⟨next, he⟩ := (swapEffect_redeem_iff hk hfound).mpr hcovered'
  have happly : s.apply E (.mnaSwap o) = ⟨.ok true, next.recordMnaSwap id o⟩ :=
    applyMnaSwap_of hv hn he
  have hafter : s.next E (.mnaSwap o) = next.recordMnaSwap id o := congrArg Applied.state happly
  rw [hafter]
  obtain ⟨nonce, usdc, balance, backed, ledger, -, -, rfl, ⟨hm, -⟩ | ⟨-, _, _, -, husdc, -⟩⟩ :=
    swapEffect_eq_ok he
  · rw [hk] at hm
    cases hm
  · intro hnone
    have hset := assetBalanceOf_setAssetBalance (s.markMnaSwap id) o.unsigned.fromAddress a
      o.unsigned.collateralAsset.canonicalKey o.unsigned.collateralAsset.canonicalKey usdc
    rw [if_pos ⟨ha, rfl⟩] at hset
    have hzero : usdc = 0 := hset.symm.trans (hnone _ hvalid.supported)
    have hz : (0 : Amount).toNat = 0 := rfl
    have hpos := hvalid.positive
    have hamount := hvalid.usdc
    rw [hzero] at husdc
    omega

/-- **One call** that gives `a` nothing but faucet MNA leaves it without USDC exactly if it is no
    redemption of `a` that goes through. -/
theorem afterCall_usdc_iff {call : LedgerCall} (hgives : GivesFaucetOnly E a call)
    (h0 : HoldsNoUsdc a s) : HoldsNoUsdc a (afterCall E s call) ↔ ¬ Redeems E a s call := by
  constructor
  · intro h hr
    cases call with
    | creditDevnet address amount => exact hr
    | operation op =>
      cases op with
      | mnaSwap o => exact redeems_holdsUsdc h0 hr h
      | _ => exact hr
  intro hno
  cases call with
  | creditDevnet address amount =>
    obtain ⟨accounts, hs⟩ := s.creditDevnet_writes address amount
    rw [afterCall, hs]
    exact h0.of_assetBalances rfl
  | operation op =>
    refine next_cases (R := HoldsNoUsdc a) h0 (fun t h => ?_) fun t h => ?_
    · cases op with
      | asset o => exact applyAssetOperation_usdc h0 hgives h
      | mnaSwap o => exact applyMnaSwap_usdc h0 hno h
      | token o id =>
        obtain ⟨-, -, -, charged, next, hc, ht, rfl⟩ := applyTokenOperation_true h
        have hcharged : HoldsNoUsdc a charged := by
          obtain ⟨_, _, _, -, -, -, rfl⟩ := chargeTokenFee_eq_ok hc
          exact h0
        intro asset hu
        have hsame := (tokenEffect_eq_ok ht).assetBalanceOf a (not_isTokenKey_of_supportedUsdc hu)
        exact hsame.trans (hcharged asset hu)
      | transaction tx =>
        cases Writes.of_apply h
        exact h0
      | mnaReserve o =>
        cases Writes.of_apply h
        exact h0
      | program o height =>
        cases Writes.of_apply h
        exact h0
    · cases h with
      | assetMoved o ledger hc hn =>
        intro asset hu
        have hsame := assetBalanceOf_insertAssets_self ((s.recordAssetOperation o).setLedger ledger)
          o.address a asset.canonicalKey
        exact hsame.trans (h0 asset hu)
      | _ => exact h0

/-! ## 4. Runs -/

/-- **In every run from a genesis** of calls that give an address nothing but faucet MNA, whether
    they succeed or not, the address holds no supported USDC at any state reached, if and only if
    none of its redemptions goes through. -/
theorem faucetOnly_usdc_iff {genesis : GenesisConfig} (hg : fromGenesis genesis = .ok s)
    {calls : List LedgerCall} (h : ∀ call ∈ calls, GivesFaucetOnly E a call) :
    (∀ pre, pre <+: calls → HoldsNoUsdc a (runs (afterCall E) s pre)) ↔
      EachStep (afterCall E) (fun s call => ¬ Redeems E a s call) s calls := by
  have h0 : HoldsNoUsdc a s := by
    obtain ⟨accounts, rfl⟩ := fromGenesis_eq_ok hg
    exact fun asset _ => rfl
  have hgives : EachStep (afterCall E) (fun _ call => GivesFaucetOnly E a call) s calls :=
    EachStep.of_forall h
  rw [← throughout_iff]
  exact hgives.throughout_iff_guarded (fun _ _ hc h0 => afterCall_usdc_iff hc h0) h0

end State

namespace Sample

/-- Somebody gets MNA from the faucet; the account deposits USDC and swaps it to MNA. -/
def faucetAndDeposit : List State.LedgerCall :=
  [.operation (.transaction (transferBy Crypto.devnetFaucet 0 otherAddress 500 1)),
    .operation (.asset (bridge .mint 1 usdc 200)),
    .operation (.mnaSwap (swap .mintMna 0 100 1))]

/-- The faucet's MNA is redeemed. -/
def faucetRedemption : State.LedgerCall :=
  .operation (.mnaSwap (swapBy otherKeyPair usdc .redeemMna 0 100 1))

theorem otherAddress_ne : address ≠ otherAddress := by decide +kernel

theorem givesFaucetOnly {call : State.LedgerCall}
    (h : call ∈ faucetAndDeposit ++ [faucetRedemption]) :
    State.GivesFaucetOnly .standIn otherAddress call := by
  simp only [faucetAndDeposit, faucetRedemption, List.cons_append, List.nil_append,
    List.mem_cons, List.not_mem_nil, or_false] at h
  rcases h with rfl | rfl | rfl | rfl
  · exact fun _ => Or.inr rfl
  · exact fun _ => otherAddress_ne
  · exact trivial
  · exact trivial

end Sample

namespace State

/-- Before the redemption the faucet's receiver holds no USDC. -/
theorem faucetOnly_usdc_deposit :
    HoldsNoUsdc Sample.otherAddress
      (runs (afterCall .standIn) (Sample.genesisState 1) Sample.faucetAndDeposit) := by
  refine (faucetOnly_usdc_iff (Sample.fromGenesis_genesis 1) fun call hc =>
    Sample.givesFaucetOnly (List.mem_append_left _ hc)).mpr ⟨id, id, fun h => ?_, trivial⟩ _
      (List.prefix_refl _)
  cases h.1

/-- Afterwards it holds the USDC that the account has deposited. -/
theorem faucet_redeems_deposit :
    fromGenesis (Sample.genesis 1) = .ok (Sample.genesisState 1) ∧
      (Sample.genesisState 1).balanceOf Sample.otherAddress = 0 ∧
      (∀ call ∈ Sample.faucetAndDeposit ++ [Sample.faucetRedemption],
        GivesFaucetOnly .standIn Sample.otherAddress call) ∧
      ¬ HoldsNoUsdc Sample.otherAddress (runs (afterCall .standIn) (Sample.genesisState 1)
        (Sample.faucetAndDeposit ++ [Sample.faucetRedemption])) := by
  have hrun : (Sample.genesisState 1).balanceOf Sample.otherAddress = 0 ∧
      isSupportedUsdc Sample.usdc = true ∧
      (runs (afterCall .standIn) (Sample.genesisState 1)
        (Sample.faucetAndDeposit ++ [Sample.faucetRedemption])).assetBalanceOf Sample.otherAddress
          Sample.usdc.canonicalKey ≠ 0 := by decide +kernel
  exact ⟨Sample.fromGenesis_genesis 1, hrun.1, fun _ => Sample.givesFaucetOnly,
    fun h => hrun.2.2 (h _ hrun.2.1)⟩

end State

end WorldstreetChain
