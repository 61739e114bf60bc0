import WorldstreetChain.State.TestSupply
import WorldstreetChain.State.TokenAuthority

/-!
# Balance buckets

A balance is found under a string: the namespace, the symbol and the reference of an asset,
joined by colons. The decimals are not in it, the parts may contain colons, and a bridge operation
may name any asset with a reference outside the native namespace.

* `AssetId.eq_of_canonicalKey` -- two assets with one key that are split alike are one.
* `State.apply_tokenBalance_iff` -- when a bridge operation leaves a token alone.
* `State.buckets_distinct_iff` -- **assets of one key are one asset exactly if they are split
  alike**, and what follows for tokens and for USDC.
-/

namespace WorldstreetChain

open Std

namespace AssetId

/-- The joined key of the one is cut where that of the other is, and the decimals agree. -/
def SplitAlike (a b : AssetId) : Prop :=
  a.nameSpace.length = b.nameSpace.length ∧ a.symbol.length = b.symbol.length ∧
    a.decimals = b.decimals

/-- **Two assets with a reference and one key are one if they are split alike.** -/
theorem eq_of_canonicalKey {a b : AssetId} (ha : a.contract.isSome) (hb : b.contract.isSome)
    (hsplit : SplitAlike a b) (h : a.canonicalKey = b.canonicalKey) : a = b := by
  obtain ⟨ns, sym, contract, dec⟩ := a
  obtain ⟨ns', sym', contract', dec'⟩ := b
  obtain ⟨c, rfl⟩ := Option.isSome_iff_exists.mp ha
  obtain ⟨c', rfl⟩ := Option.isSome_iff_exists.mp hb
  obtain ⟨hns, hsym, hdec⟩ := hsplit
  have hl := congrArg String.toList h
  simp only [canonicalKey, Option.getD_some, String.toList_append, List.append_assoc] at hl
  have hnsLength : ns.toList.length = ns'.toList.length := hns
  have hsymLength : sym.toList.length = sym'.toList.length := hsym
  obtain ⟨h1, hl⟩ := List.append_inj hl hnsLength
  obtain ⟨h2, h3⟩ := List.append_inj (List.append_cancel_left hl) hsymLength
  have h4 := List.append_cancel_left h3
  rw [String.toList_inj.mp h1, String.toList_inj.mp h2, String.toList_inj.mp h4]
  exact congrArg _ hdec

end AssetId

namespace State

variable {E : Env} {s t : State}

/-! ## 1. What is accepted as a key -/

/-- The state machine accepts the asset as a key of balances: in a bridge operation, in a swap or
    as a token. -/
inductive AcceptsKey (E : Env) (s : State) : AssetId → Prop where
  | asset (o : AssetOperation) (h : (s.applyAssetOperation o).result.isOk) :
      AcceptsKey E s o.assetId
  | swap (o : MnaSwapOperation) (h : (validateMnaSwap E s o).isOk) :
      AcceptsKey E s o.unsigned.collateralAsset
  | token (id : Hash) (d : TokenDefinition) (h : s.tokenDefinitions[id]? = some d) :
      AcceptsKey E s (.custom d.tokenId d.symbol d.decimals)

theorem contract_isSome_of_supportedUsdc {asset : AssetId} (h : isSupportedUsdc asset = true) :
    asset.contract.isSome := by
  cases hc : asset.contract with
  | some c => rfl
  | none => simp [isSupportedUsdc, hc] at h

theorem AcceptsKey.contract_isSome {asset : AssetId} (h : AcceptsKey E s asset) :
    asset.contract.isSome := by
  cases h with
  | asset o h =>
    obtain ⟨b, hb⟩ := Outcome.isOk_iff.mp h
    obtain ⟨⟨⟩, hc, -⟩ := Applied.attempt_eq_ok.mp (Applied.eq_of_result hb)
    unfold checkAssetOperation at hc
    simp only [rejectIf_bind_eq_ok, not_or] at hc
    simpa [Option.isSome_iff_ne_none] using hc.2.2.1.2
  | swap o h =>
    obtain ⟨id, hid⟩ := Outcome.isOk_iff.mp h
    exact contract_isSome_of_supportedUsdc (validateMnaSwap_eq_ok hid).1.supported
  | token id d h => rfl

/-! ## 2. What a bridge operation moves -/

/-- An applied bridge operation changes the balance it names. -/
theorem applyAssetOperation_changes {o : AssetOperation}
    (h : s.applyAssetOperation o = ⟨.ok true, t⟩) :
    t.assetBalanceOf o.address o.assetId.canonicalKey ≠
      s.assetBalanceOf o.address o.assetId.canonicalKey := by
  obtain ⟨hc, -, ledger, balance, -, hb, rfl⟩ := applyAssetOperation_true h
  have hamount : o.amount.toNat ≠ 0 := fun hz =>
    (checkAssetOperation_eq_ok hc).2.1 (BitVec.eq_of_toNat_eq hz)
  rw [assetBalanceOf_setAssetBalance, if_pos ⟨rfl, rfl⟩]
  intro he
  rcases assetBalance_eq_ok hb with ⟨-, hv⟩ | ⟨-, hv⟩
  · rw [he] at hv
    omega
  · rw [he] at hv
    omega

/-- **A bridge operation leaves a token alone exactly if it is not on the token's key.** -/
theorem apply_tokenBalance_iff {o : AssetOperation} (h : s.applyAssetOperation o = ⟨.ok true, t⟩)
    (d : TokenDefinition) :
    (∀ a, t.tokenBalance a d = s.tokenBalance a d) ↔ o.assetId.canonicalKey ≠ tokenAssetKey d := by
  constructor
  · intro hsame hkey
    have hchange := applyAssetOperation_changes h
    rw [hkey] at hchange
    exact hchange (hsame o.address)
  · intro hkey a
    obtain ⟨-, -, ledger, balance, -, -, rfl⟩ := applyAssetOperation_true h
    rw [tokenBalance, assetBalanceOf_setAssetBalance, if_neg fun hc => hkey hc.2]
    rfl

/-- The bucket holds supported USDC. -/
def UsdcBucket (key : String) : Prop :=
  ∃ asset, isSupportedUsdc asset = true ∧ asset.canonicalKey = key

/-- The ledger counts the operation: as a deposit, or as a release. -/
def Counted (o : AssetOperation) (l l' : MnaReserveLedger) : Prop :=
  match o.kind with
  | .mint => l'.totalVerifiedDepositsUsdc.toNat =
      l.totalVerifiedDepositsUsdc.toNat + o.amount.toNat
  | .burn => l'.totalReleasedUsdc.toNat = l.totalReleasedUsdc.toNat + o.amount.toNat

/-- **The ledger counts an applied operation exactly if it names supported USDC itself.** -/
theorem applyAssetOperation_counted_iff {o : AssetOperation}
    (h : s.applyAssetOperation o = ⟨.ok true, t⟩) :
    Counted o s.mnaReserveLedger t.mnaReserveLedger ↔ isSupportedUsdc o.assetId = true := by
  obtain ⟨hc, -, ledger, balance, hl, -, rfl⟩ := applyAssetOperation_true h
  have hamount : o.amount.toNat ≠ 0 := fun hz =>
    (checkAssetOperation_eq_ok hc).2.1 (BitVec.eq_of_toNat_eq hz)
  have hledger : (((s.recordAssetOperation o).setLedger ledger).setAssetBalance o.address
      o.assetId.canonicalKey balance).mnaReserveLedger = ledger := rfl
  rw [hledger, Counted]
  rcases assetLedger_eq_ok hl with ⟨hu, rfl⟩ | ⟨hu, hk, d, hd, rfl⟩ | ⟨hu, hk, r, hr, rfl⟩
  · rw [hu]
    refine iff_of_false (fun hcount => ?_) Bool.false_ne_true
    cases hk : o.kind with
    | mint =>
      rw [hk] at hcount
      exact hamount (Nat.left_eq_add.mp hcount)
    | burn =>
      rw [hk] at hcount
      exact hamount (Nat.left_eq_add.mp hcount)
  · rw [hk]
    exact iff_of_true hd hu
  · rw [hk]
    exact iff_of_true hr hu

/-! ## 3. The result -/

/-- **Distinct assets and their buckets.** Of two accepted assets, one key means one asset exactly
    if it means that they are split alike; an applied bridge operation leaves every token alone
    exactly if its key is no token's; and one that moves a bucket of supported USDC is counted in
    the reserve ledger exactly if it names that USDC with its own fields. -/
theorem buckets_distinct_iff (E : Env) :
    (∀ s s' a b, AcceptsKey E s a → AcceptsKey E s' b →
      ((a.canonicalKey = b.canonicalKey → a = b) ↔
        (a.canonicalKey = b.canonicalKey → a.SplitAlike b))) ∧
    (∀ (s t : State) (o : AssetOperation), s.applyAssetOperation o = ⟨.ok true, t⟩ →
      ((∀ (id : Hash) (d : TokenDefinition), s.tokenDefinitions[id]? = some d →
          ∀ a, t.tokenBalance a d = s.tokenBalance a d) ↔
        ∀ (id : Hash) (d : TokenDefinition), s.tokenDefinitions[id]? = some d →
          o.assetId.canonicalKey ≠ tokenAssetKey d)) ∧
    ∀ (s t : State) (o : AssetOperation), s.applyAssetOperation o = ⟨.ok true, t⟩ →
      ((UsdcBucket o.assetId.canonicalKey → Counted o s.mnaReserveLedger t.mnaReserveLedger) ↔
        (UsdcBucket o.assetId.canonicalKey → isSupportedUsdc o.assetId = true)) := by
  refine ⟨fun s s' a b ha hb => ?_, fun s t o h => ?_, fun s t o h => ?_⟩
  · refine forall_congr' fun hkey => ⟨?_, fun hsplit => ?_⟩
    · rintro rfl
      exact ⟨rfl, rfl, rfl⟩
    · exact AssetId.eq_of_canonicalKey ha.contract_isSome hb.contract_isSome hsplit hkey
  · exact forall_congr' fun id => forall_congr' fun d => forall_congr' fun _ =>
      apply_tokenBalance_iff h d
  · exact forall_congr' fun _ => applyAssetOperation_counted_iff h

/-- Two kinds of USDC are told apart, their keys being split at different places. -/
theorem buckets_distinct_usdc :
    AcceptsKey .standIn (Sample.genesisState 1) Sample.usdc ∧
      AcceptsKey .standIn (Sample.genesisState 1) Sample.usdcEthereum ∧
      (Sample.usdc.canonicalKey = Sample.usdcEthereum.canonicalKey →
        Sample.usdc = Sample.usdcEthereum) := by
  have hsol : ((Sample.genesisState 1).applyAssetOperation
      (Sample.bridge .mint 1 Sample.usdc 200)).result.isOk := by decide +kernel
  have heth : ((Sample.genesisState 1).applyAssetOperation
      (Sample.bridge .mint 1 Sample.usdcEthereum 200)).result.isOk := by decide +kernel
  refine ⟨.asset _ hsol, .asset _ heth, ?_⟩
  refine ((buckets_distinct_iff .standIn).1 _ _ _ _ (.asset _ hsol) (.asset _ heth)).mpr
    fun hkey => absurd hkey ?_
  decide +kernel

/-- USDC and the same reference with nine decimals share a bucket. -/
theorem usdc_shares_bucket :
    AcceptsKey .standIn (Sample.genesisState 1) Sample.usdc ∧
      AcceptsKey .standIn (Sample.genesisState 1) { Sample.usdc with decimals := 9 } ∧
      Sample.usdc.canonicalKey = { Sample.usdc with decimals := 9 : AssetId }.canonicalKey ∧
      Sample.usdc ≠ { Sample.usdc with decimals := 9 } := by
  have hsix : ((Sample.genesisState 1).applyAssetOperation
      (Sample.bridge .mint 1 Sample.usdc 200)).result.isOk := by decide +kernel
  have hnine : ((Sample.genesisState 1).applyAssetOperation
      (Sample.bridge .mint 1 { Sample.usdc with decimals := 9 } 200)).result.isOk := by
    decide +kernel
  exact ⟨.asset _ hsix, .asset _ hnine, rfl, by decide +kernel⟩

end State

end WorldstreetChain
