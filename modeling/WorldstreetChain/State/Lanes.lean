import WorldstreetChain.State.TokenAuthority
import WorldstreetChain.State.Collateral

/-!
# Bridge lanes

Each external asset comes in and goes out through a lane of its own: what the bridge has minted
and burned under its key. Swaps take USDC in under one key and pay it out under another, so the
lanes are coupled.

* `State.LanesBalanced` -- **the account of a lane**: what came in through the bridge, was paid out
  by redemptions or issued by a token has been burned, taken in by swaps, or is held.
* `State.LanesSolvent` -- no lane has let out more than it took in.
* `State.lanes_solvent_iff` -- **along every run from a genesis** the lanes are solvent exactly if
  every burn takes what came in through its own lane.
-/

namespace WorldstreetChain

open Std

namespace State

variable {E : Env} {s t : State}

/-! ## 1. The account of a lane -/

/-- What the bridge operations of a kind have moved under a key. A failed operation can be on
    record too, so this is the amount moved in runs of successful operations. -/
def bridged (kind : AssetOperationKind) (key : String) (s : State) : Nat :=
  BTreeMap.total (fun (_ : Hash) (o : AssetOperation) =>
    if o.kind = kind ∧ o.assetId.canonicalKey = key then o.amount.toNat else 0)
    s.assetOperationRecords

/-- What the swaps of a kind have moved under a key. -/
def swapped (kind : MnaSwapKind) (key : String) (s : State) : Nat :=
  BTreeMap.total (fun (_ : Hash) (o : MnaSwapOperation) =>
    if o.unsigned.kind = kind ∧ o.unsigned.collateralAsset.canonicalKey = key then
      o.unsigned.amountUsdc.toNat else 0)
    s.mnaSwapOperationRecords

/-- The supply of the tokens whose key it is. -/
def issued (key : String) (s : State) : Nat :=
  BTreeMap.total (fun (_ : Hash) (d : TokenDefinition) =>
    if tokenAssetKey d = key then d.totalSupply.toNat else 0)
    s.tokenDefinitions

/-- What all accounts hold under a key beyond what tokens have issued and redemptions have paid
    out, against what swaps have taken in. -/
def Balanced (s : State) (key : String) : Prop :=
  s.bridged .mint key + s.swapped .redeemMna key + s.issued key =
    s.bridged .burn key + s.swapped .mintMna key + s.tokenTotal key

/-- **The account of every lane**, with what keeping it needs: definitions are filed under their
    ids, and what is on record is processed. -/
structure LanesBalanced (s : State) : Prop where
  named : TokensNamed s
  assetsProcessed : ∀ id, id ∈ s.assetOperationRecords → id ∈ s.processedAssetOperations
  swapsProcessed : ∀ id, id ∈ s.mnaSwapOperationRecords → id ∈ s.processedMnaSwapOperations
  balanced : ∀ key, s.Balanced key

theorem bridged_recordAssetOperation {o : AssetOperation} (s : State) (kind : AssetOperationKind)
    (key : String) (hnew : s.assetOperationRecords[o.operationId]? = none) :
    (s.recordAssetOperation o).bridged kind key = s.bridged kind key +
      if o.kind = kind ∧ o.assetId.canonicalKey = key then o.amount.toNat else 0 := by
  have h := BTreeMap.total_insert (fun (_ : Hash) (o : AssetOperation) =>
    if o.kind = kind ∧ o.assetId.canonicalKey = key then o.amount.toNat else 0)
    s.assetOperationRecords o.operationId o
  rw [hnew, Option.elim_none, Nat.add_zero] at h
  exact h

theorem swapped_recordMnaSwap {o : MnaSwapOperation} {id : Hash} (s : State) (kind : MnaSwapKind)
    (key : String) (hnew : s.mnaSwapOperationRecords[id]? = none) :
    (s.recordMnaSwap id o).swapped kind key = s.swapped kind key +
      if o.unsigned.kind = kind ∧ o.unsigned.collateralAsset.canonicalKey = key then
        o.unsigned.amountUsdc.toNat else 0 := by
  have h := BTreeMap.total_insert (fun (_ : Hash) (o : MnaSwapOperation) =>
    if o.unsigned.kind = kind ∧ o.unsigned.collateralAsset.canonicalKey = key then
      o.unsigned.amountUsdc.toNat else 0)
    s.mnaSwapOperationRecords id o
  rw [hnew, Option.elim_none, Nat.add_zero] at h
  exact h

theorem issued_insertTokenDefinition (s : State) (id : Hash) (d : TokenDefinition)
    (key : String) :
    (s.insertTokenDefinition id d).issued key + s.tokenDefinitions[id]?.elim 0 (fun old =>
      if tokenAssetKey old = key then old.totalSupply.toNat else 0) =
        s.issued key + if tokenAssetKey d = key then d.totalSupply.toNat else 0 :=
  BTreeMap.total_insert (fun (_ : Hash) (d : TokenDefinition) =>
    if tokenAssetKey d = key then d.totalSupply.toNat else 0) s.tokenDefinitions id d

/-- A balance written under `key` changes what is held under it by the difference. -/
theorem tokenTotal_setAssetBalance_if (s : State) (a : Address) (key key' : String) (v : Amount) :
    (s.setAssetBalance a key v).tokenTotal key' +
        (if key = key' then (s.assetBalanceOf a key).toNat else 0) =
      s.tokenTotal key' + if key = key' then v.toNat else 0 := by
  by_cases hk : key = key'
  · subst hk
    rw [if_pos rfl, if_pos rfl]
    exact tokenTotal_setAssetBalance s a key v
  · rw [if_neg hk, if_neg hk, tokenTotal_setAssetBalance_of_ne s a v (Ne.symm hk)]

/-! ## 2. Every successful operation keeps it -/

/-- The account depends on four fields. -/
theorem Balanced.of_same {key : String} (h : s.Balanced key)
    (hrec : t.assetOperationRecords = s.assetOperationRecords)
    (hswap : t.mnaSwapOperationRecords = s.mnaSwapOperationRecords)
    (hdefs : t.tokenDefinitions = s.tokenDefinitions)
    (hbal : t.assetBalances = s.assetBalances) : t.Balanced key := by
  simp only [Balanced, bridged, swapped, issued, tokenTotal, hrec, hswap, hdefs, hbal] at h ⊢
  exact h

theorem not_mem_getElem? {ν : Type} {m : BTreeMap Hash ν} {id : Hash} (h : id ∉ m) :
    m[id]? = none := by
  rw [ExtTreeMap.mem_iff_isSome_getElem?, Bool.not_eq_true, Option.isSome_eq_false_iff] at h
  exact Option.isNone_iff_eq_none.mp h

theorem applyAssetOperation_balanced {o : AssetOperation} (h : LanesBalanced s)
    (happly : s.applyAssetOperation o = ⟨.ok true, t⟩) : LanesBalanced t := by
  obtain ⟨-, hn, ledger, balance, -, hb, rfl⟩ := applyAssetOperation_true happly
  have hnew : s.assetOperationRecords[o.operationId]? = none :=
    not_mem_getElem? fun hm => hn (h.assetsProcessed _ hm)
  refine ⟨h.named.of_same rfl, fun id hid => ?_, h.swapsProcessed, fun key => ?_⟩
  · rcases ExtTreeMap.mem_insert.mp hid with hc | hm
    · exact ExtTreeSet.mem_insert.mpr (Or.inl hc)
    · exact ExtTreeSet.mem_insert.mpr (Or.inr (h.assetsProcessed id hm))
  · have h0 := h.balanced key
    have hmint := bridged_recordAssetOperation s .mint key hnew
    have hburn := bridged_recordAssetOperation s .burn key hnew
    have hheld := tokenTotal_setAssetBalance_if s o.address o.assetId.canonicalKey key balance
    show (s.recordAssetOperation o).bridged .mint key + s.swapped .redeemMna key + s.issued key =
      (s.recordAssetOperation o).bridged .burn key + s.swapped .mintMna key +
        (s.setAssetBalance o.address o.assetId.canonicalKey balance).tokenTotal key
    unfold Balanced at h0
    by_cases hk : o.assetId.canonicalKey = key
    · rcases assetBalance_eq_ok hb with ⟨hkind, hv⟩ | ⟨hkind, hv⟩
      · simp only [hkind, hk, true_and, if_true, reduceCtorEq, false_and, if_false] at *
        omega
      · simp only [hkind, hk, true_and, if_true, reduceCtorEq, false_and, if_false] at *
        omega
    · simp only [hk, and_false, if_false] at *
      omega

theorem applyMnaSwap_balanced {o : MnaSwapOperation} (h : LanesBalanced s)
    (happly : s.applyMnaSwap E o = ⟨.ok true, t⟩) : LanesBalanced t := by
  obtain ⟨-, hn, next, he, rfl⟩ := applyMnaSwap_true happly
  obtain ⟨nonce, usdc, balance, backed', ledger, -, -, rfl, hcase⟩ := swapEffect_eq_ok he
  have hnew : s.mnaSwapOperationRecords[E.crypto.mnaSwapOperationId o]? = none :=
    not_mem_getElem? fun hm => hn (h.swapsProcessed _ hm)
  refine ⟨h.named.of_same rfl, h.assetsProcessed, fun id hid => ?_, fun key => ?_⟩
  · rcases ExtTreeMap.mem_insert.mp hid with hc | hm
    · exact ExtTreeSet.mem_insert.mpr (Or.inl hc)
    · exact ExtTreeSet.mem_insert.mpr (Or.inr (h.swapsProcessed id hm))
  · have h0 := h.balanced key
    have hmint := swapped_recordMnaSwap (o := o) s .mintMna key hnew
    have hredeem := swapped_recordMnaSwap (o := o) s .redeemMna key hnew
    have hheld := tokenTotal_setAssetBalance_if s o.unsigned.fromAddress
      o.unsigned.collateralAsset.canonicalKey key usdc
    have hfound : (s.markMnaSwap (E.crypto.mnaSwapOperationId o)).assetBalanceOf
        o.unsigned.fromAddress o.unsigned.collateralAsset.canonicalKey =
      s.assetBalanceOf o.unsigned.fromAddress o.unsigned.collateralAsset.canonicalKey := rfl
    rw [hfound] at hcase
    show s.bridged .mint key +
        (s.recordMnaSwap (E.crypto.mnaSwapOperationId o) o).swapped .redeemMna key + s.issued key =
      s.bridged .burn key +
        (s.recordMnaSwap (E.crypto.mnaSwapOperationId o) o).swapped .mintMna key +
        (s.setAssetBalance o.unsigned.fromAddress o.unsigned.collateralAsset.canonicalKey
          usdc).tokenTotal key
    unfold Balanced at h0
    by_cases hk : o.unsigned.collateralAsset.canonicalKey = key
    · rcases hcase with ⟨hkind, hv, -⟩ | ⟨hkind, _, _, -, hv, -⟩
      · simp only [hkind, hk, true_and, if_true, reduceCtorEq, false_and, if_false] at *
        omega
      · simp only [hkind, hk, true_and, if_true, reduceCtorEq, false_and, if_false] at *
        omega
    · simp only [hk, and_false, if_false] at *
      omega

/-- A definition rewritten under its own key changes what is issued under it by the difference. -/
theorem issued_rewrite (hn : TokensNamed s) {id : Hash} {d d' : TokenDefinition}
    (hd : s.tokenDefinitions[id]? = some d) (hkeys : tokenAssetKey d' = tokenAssetKey d)
    (key : String) :
    (s.insertTokenDefinition d.tokenId d').issued key +
        (if tokenAssetKey d = key then d.totalSupply.toNat else 0) =
      s.issued key + if tokenAssetKey d = key then d'.totalSupply.toNat else 0 := by
  have h := issued_insertTokenDefinition s d.tokenId d' key
  have hfiled : s.tokenDefinitions[d.tokenId]? = some d := (hn id d hd).symm ▸ hd
  rw [hfiled, Option.elim_some, hkeys] at h
  exact h

/-- A mint and a burn change a supply and a balance by the same amount. -/
theorem supplyChange_balanced (hn : TokensNamed s) {id : Hash} {d d' : TokenDefinition}
    {holder : Address} {v : Amount} (hd : s.tokenDefinitions[id]? = some d)
    (hkeys : tokenAssetKey d' = tokenAssetKey d)
    (hsame : d'.totalSupply.toNat + (s.assetBalanceOf holder (tokenAssetKey d)).toNat =
      d.totalSupply.toNat + v.toNat) {key : String} (h : s.Balanced key) :
    ((s.setAssetBalance holder (tokenAssetKey d) v).insertTokenDefinition d.tokenId
      d').Balanced key := by
  have hissued := issued_rewrite hn hd hkeys key
  have hheld := tokenTotal_setAssetBalance_if s holder (tokenAssetKey d) key v
  unfold Balanced at h
  show s.bridged .mint key + s.swapped .redeemMna key +
      (s.insertTokenDefinition d.tokenId d').issued key =
    s.bridged .burn key + s.swapped .mintMna key +
      (s.setAssetBalance holder (tokenAssetKey d) v).tokenTotal key
  by_cases hkey : tokenAssetKey d = key
  · simp only [if_pos hkey] at hissued hheld
    omega
  · simp only [if_neg hkey] at hissued hheld
    omega

/-- A token operation issues what it adds to the balances, and takes back what it burns. -/
theorem TokenEffect.balanced (hn : TokensNamed s) {u : UnsignedTokenOperation} {id : Hash}
    (he : TokenEffect E s u id t) {key : String} (h : s.Balanced key) : t.Balanced key := by
  unfold Balanced at h
  cases he with
  | createEmpty hk h0 hnew =>
    have hissued := issued_insertTokenDefinition s (E.crypto.tokenIdFromOperation id)
      (newTokenDefinition u (E.crypto.tokenIdFromOperation id)) key
    have hsupply : (newTokenDefinition u (E.crypto.tokenIdFromOperation id)).totalSupply.toNat =
        0 := by
      show u.amount.toNat = 0
      rw [h0]
      rfl
    rw [not_mem_getElem? hnew, Option.elim_none, hsupply, ite_self] at hissued
    show s.bridged .mint key + s.swapped .redeemMna key +
        (s.insertTokenDefinition (E.crypto.tokenIdFromOperation id) _).issued key =
      s.bridged .burn key + s.swapped .mintMna key + s.tokenTotal key
    omega
  | create d v hk hd hnew hv =>
    have hissued := issued_insertTokenDefinition s d.tokenId d key
    have hheld := tokenTotal_setAssetBalance_if (s.insertTokenDefinition d.tokenId d) u.fromAddress
      (tokenAssetKey d) key v
    have hsupply : d.totalSupply = u.amount := by
      rw [hd]
      rfl
    have hfound : (s.insertTokenDefinition d.tokenId d).assetBalanceOf u.fromAddress
      (tokenAssetKey d) = s.assetBalanceOf u.fromAddress (tokenAssetKey d) := rfl
    have hbefore : (s.insertTokenDefinition d.tokenId d).tokenTotal key = s.tokenTotal key := rfl
    rw [not_mem_getElem? hnew, Option.elim_none, hsupply] at hissued
    rw [hfound, hbefore] at hheld
    show s.bridged .mint key + s.swapped .redeemMna key +
        (s.insertTokenDefinition d.tokenId d).issued key =
      s.bridged .burn key + s.swapped .mintMna key +
        ((s.insertTokenDefinition d.tokenId d).setAssetBalance u.fromAddress (tokenAssetKey d)
          v).tokenTotal key
    by_cases hkey : tokenAssetKey d = key
    · rw [if_pos hkey] at hissued hheld
      rw [if_pos hkey] at hheld
      omega
    · rw [if_neg hkey] at hissued hheld
      rw [if_neg hkey] at hheld
      omega
  | transfer d recipient v w hk hd hto hv hw =>
    have h1 := tokenTotal_setAssetBalance_if s u.fromAddress (tokenAssetKey d) key v
    have h2 := tokenTotal_setAssetBalance_if
      (s.setAssetBalance u.fromAddress (tokenAssetKey d) v) recipient (tokenAssetKey d) key w
    show s.bridged .mint key + s.swapped .redeemMna key + s.issued key =
      s.bridged .burn key + s.swapped .mintMna key +
        ((s.setAssetBalance u.fromAddress (tokenAssetKey d) v).setAssetBalance recipient
          (tokenAssetKey d) w).tokenTotal key
    by_cases hkey : tokenAssetKey d = key
    · simp only [if_pos hkey] at h1 h2
      omega
    · simp only [if_neg hkey] at h1 h2
      omega
  | mint d recipient total v hk hd htotal hcap hv =>
    have hkeys : tokenAssetKey { d with totalSupply := total } = tokenAssetKey d := rfl
    exact supplyChange_balanced hn hd hkeys (show total.toNat + _ = _ by omega) h
  | burn d total v hk hd htotal hv =>
    have hkeys : tokenAssetKey { d with totalSupply := total } = tokenAssetKey d := rfl
    exact supplyChange_balanced hn hd hkeys (show total.toNat + _ = _ by omega) h
  | administer d d' hd hsame =>
    have hissued := issued_rewrite hn hd (tokenAssetKey_congr hsame) key
    rw [hsame.totalSupply] at hissued
    show s.bridged .mint key + s.swapped .redeemMna key +
        (s.insertTokenDefinition d.tokenId d').issued key =
      s.bridged .burn key + s.swapped .mintMna key + s.tokenTotal key
    omega
  | frozen accounts => exact h

/-- **Every applied operation keeps the account of every lane.** -/
theorem lanesBalanced_apply (h : LanesBalanced s) {op : Operation}
    (happly : s.apply E op = ⟨.ok true, t⟩) : LanesBalanced t := by
  have hn : TokensNamed t := tokensNamed_apply h.named happly
  cases op with
  | asset o => exact applyAssetOperation_balanced h happly
  | mnaSwap o => exact applyMnaSwap_balanced h happly
  | token o id =>
    obtain ⟨-, -, -, charged, next, hc, ht, rfl⟩ := applyTokenOperation_true happly
    have heffect := tokenEffect_eq_ok ht
    have hcharged : LanesBalanced charged := by
      obtain ⟨_, _, _, -, -, -, rfl⟩ := chargeTokenFee_eq_ok hc
      exact ⟨h.named.of_same rfl, h.assetsProcessed, h.swapsProcessed,
        fun key => (h.balanced key).of_same rfl rfl rfl rfl⟩
    have hbal : ∀ key, next.Balanced key := fun key =>
      heffect.balanced hcharged.named (hcharged.balanced key)
    obtain ⟨_, _, _, rfl⟩ := heffect.writes
    exact ⟨hn, hcharged.assetsProcessed, hcharged.swapsProcessed,
      fun key => (hbal key).of_same rfl rfl rfl rfl⟩
  | transaction tx =>
    cases Writes.of_apply happly
    exact ⟨hn, h.assetsProcessed, h.swapsProcessed,
      fun key => (h.balanced key).of_same rfl rfl rfl rfl⟩
  | mnaReserve o =>
    cases Writes.of_apply happly
    exact ⟨hn, h.assetsProcessed, h.swapsProcessed,
      fun key => (h.balanced key).of_same rfl rfl rfl rfl⟩
  | program o height =>
    cases Writes.of_apply happly
    exact ⟨hn, h.assetsProcessed, h.swapsProcessed,
      fun key => (h.balanced key).of_same rfl rfl rfl rfl⟩

theorem lanesBalanced_next (h : LanesBalanced s) {op : Operation} (hop : s.Succeeds E op) :
    LanesBalanced (s.next E op) := by
  obtain ⟨b, hb⟩ := hop
  have happly := apply_eq hb
  cases b with
  | false =>
    rw [apply_false happly]
    exact h
  | true => exact lanesBalanced_apply h happly

theorem fromGenesis_lanesBalanced {genesis : GenesisConfig} (h : fromGenesis genesis = .ok s) :
    LanesBalanced s := by
  have hnamed : TokensNamed s := (fromGenesis_supplyBalanced h).ids
  obtain ⟨accounts, rfl⟩ := fromGenesis_eq_ok h
  refine ⟨hnamed, fun id hid => ?_, fun id hid => ?_, fun key => ?_⟩
  · exact absurd hid ExtTreeMap.not_mem_empty
  · exact absurd hid ExtTreeMap.not_mem_empty
  · simp only [Balanced, bridged, swapped, issued, tokenTotal, ofAccounts, BTreeMap.total_empty]

/-! ## 3. Solvency -/

/-- **No lane has let out more than it took in.** -/
structure LanesSolvent (s : State) : Prop where
  bridge : ∀ key, s.bridged .burn key ≤ s.bridged .mint key
  usdc : s.mnaReserveLedger.totalReleasedUsdc.toNat ≤
    s.mnaReserveLedger.totalVerifiedDepositsUsdc.toNat
  sol : s.mnaReserveLedger.totalReleasedSolUsd.toNat ≤
    s.mnaReserveLedger.totalVerifiedSolUsd.toNat

/-- **What keeps the lanes solvent**: a new burn is covered by what is held under its key and was
    not issued by a token nor paid out by a redemption beyond what swaps took in; and a burn of
    supported USDC passes the test a release of the reserve has to pass. -/
def WithinLane (s : State) : Operation → Prop
  | .asset o =>
    o.kind = .burn → o.operationId ∉ s.processedAssetOperations →
      s.swapped .redeemMna o.assetId.canonicalKey + s.issued o.assetId.canonicalKey +
          o.amount.toNat ≤
        s.swapped .mintMna o.assetId.canonicalKey + s.tokenTotal o.assetId.canonicalKey ∧
      (isSupportedUsdc o.assetId = true → o.amount.toNat ≤ s.usdcReserve)
  | _ => True

/-- Where the lanes are solvent, a burn within its lane is one that the lane covers. -/
theorem LanesBalanced.covers_iff (h : LanesBalanced s) (key : String) (amount : Nat) :
    s.swapped .redeemMna key + s.issued key + amount ≤
        s.swapped .mintMna key + s.tokenTotal key ↔
      s.bridged .burn key + amount ≤ s.bridged .mint key := by
  have hkey := h.balanced key
  unfold Balanced at hkey
  omega

/-- Solvency is about the bridge operations on record and the ledger. -/
theorem LanesSolvent.of_same (h : LanesSolvent s)
    (hrec : t.assetOperationRecords = s.assetOperationRecords)
    (hledger : t.mnaReserveLedger.totalReleasedUsdc = s.mnaReserveLedger.totalReleasedUsdc ∧
      t.mnaReserveLedger.totalVerifiedDepositsUsdc =
        s.mnaReserveLedger.totalVerifiedDepositsUsdc ∧
      t.mnaReserveLedger.totalReleasedSolUsd = s.mnaReserveLedger.totalReleasedSolUsd ∧
      t.mnaReserveLedger.totalVerifiedSolUsd = s.mnaReserveLedger.totalVerifiedSolUsd) :
    LanesSolvent t := by
  obtain ⟨h1, h2, h3, h4⟩ := hledger
  refine ⟨fun key => ?_, h1 ▸ h2 ▸ h.usdc, h3 ▸ h4 ▸ h.sol⟩
  rw [bridged, bridged, hrec]
  exact h.bridge key

/-- **A bridge operation**: a mint widens its lane; a burn keeps the lanes solvent exactly if it
    is within its own. -/
theorem applyAssetOperation_solvent {o : AssetOperation} (hb : LanesBalanced s)
    (h0 : LanesSolvent s) (happly : s.applyAssetOperation o = ⟨.ok true, t⟩) :
    LanesSolvent t ↔ WithinLane s (.asset o) := by
  obtain ⟨-, hn, ledger, balance, hl, -, rfl⟩ := applyAssetOperation_true happly
  have hnew : s.assetOperationRecords[o.operationId]? = none :=
    not_mem_getElem? fun hm => hn (hb.assetsProcessed _ hm)
  have hmint := bridged_recordAssetOperation (o := o) s .mint
  have hburn := bridged_recordAssetOperation (o := o) s .burn
  have hsplit : LanesSolvent (((s.recordAssetOperation o).setLedger ledger).setAssetBalance
      o.address o.assetId.canonicalKey balance) ↔
      (∀ key, (s.recordAssetOperation o).bridged .burn key ≤
        (s.recordAssetOperation o).bridged .mint key) ∧
      ledger.totalReleasedUsdc.toNat ≤ ledger.totalVerifiedDepositsUsdc.toNat ∧
      ledger.totalReleasedSolUsd.toNat ≤ ledger.totalVerifiedSolUsd.toNat :=
    ⟨fun h => ⟨h.bridge, h.usdc, h.sol⟩, fun h => ⟨h.1, h.2.1, h.2.2⟩⟩
  rw [hsplit, WithinLane, hb.covers_iff]
  cases hk : o.kind with
  | mint =>
    refine iff_of_true ⟨fun key => ?_, ?_⟩ (by simp)
    · rw [hmint key hnew, hburn key hnew, hk]
      simp only [reduceCtorEq, false_and, if_false]
      exact Nat.le_trans (h0.bridge key) (Nat.le_add_right _ _)
    · rcases assetLedger_eq_ok hl with ⟨-, rfl⟩ | ⟨-, -, d, hd, rfl⟩ | ⟨-, hk', -⟩
      · exact ⟨h0.usdc, h0.sol⟩
      · have husdc := h0.usdc
        have hle : s.mnaReserveLedger.totalReleasedUsdc.toNat ≤ d.toNat := by omega
        exact ⟨hle, h0.sol⟩
      · rw [hk] at hk'
        cases hk'
  | burn =>
    simp only [forall_const, hn, not_false_eq_true]
    refine and_congr ?_ ?_
    · constructor
      · intro h
        have hkey := h o.assetId.canonicalKey
        rw [hmint _ hnew, hburn _ hnew, hk] at hkey
        simpa using hkey
      · intro h key
        rw [hmint key hnew, hburn key hnew, hk]
        by_cases hkey : o.assetId.canonicalKey = key
        · subst hkey
          simpa using h
        · simp only [hkey, and_false, if_false]
          exact h0.bridge key
    · rcases assetLedger_eq_ok hl with ⟨hu, rfl⟩ | ⟨-, hk', -⟩ | ⟨hu, -, r, hr, rfl⟩
      · rw [hu]
        exact iff_of_true ⟨h0.usdc, h0.sol⟩ (by simp)
      · rw [hk] at hk'
        cases hk'
      · have husdc := h0.usdc
        have hsol := h0.sol
        simp only [hu, forall_const, usdcReserve]
        constructor
        · rintro ⟨hle, -⟩
          omega
        · intro hle
          exact ⟨by omega, hsol⟩

/-- The other operations keep the lanes solvent: a release of the reserve is tested. -/
theorem apply_solvent {op : Operation} (hop : ∀ o, op ≠ .asset o) (h0 : LanesSolvent s)
    (happly : s.apply E op = ⟨.ok true, t⟩) : LanesSolvent t := by
  cases op with
  | asset o => exact absurd rfl (hop o)
  | transaction tx =>
    cases Writes.of_apply happly
    exact h0.of_same rfl ⟨rfl, rfl, rfl, rfl⟩
  | token o id =>
    cases Writes.of_apply happly
    exact h0.of_same rfl ⟨rfl, rfl, rfl, rfl⟩
  | program o height =>
    cases Writes.of_apply happly
    exact h0.of_same rfl ⟨rfl, rfl, rfl, rfl⟩
  | mnaSwap o =>
    obtain ⟨-, -, next, he, rfl⟩ := applyMnaSwap_true happly
    obtain ⟨_, _, _, _, _, -, -, rfl, ⟨-, -, -, -, -, rfl⟩ | ⟨-, _, _, -, -, -, -, rfl⟩⟩ :=
      swapEffect_eq_ok he
    · exact h0.of_same rfl ⟨rfl, rfl, rfl, rfl⟩
    · exact h0.of_same rfl ⟨rfl, rfl, rfl, rfl⟩
  | mnaReserve o =>
    obtain ⟨-, -, next, he, -, rfl⟩ := applyMnaReserveOperation_true happly
    have husdc := h0.usdc
    have hsol := h0.sol
    rcases reserveEffect_eq_ok he with
      ⟨-, -, _, _, usd, _, -, hu, -, rfl⟩ | ⟨-, -, d, hd, rfl⟩ | ⟨-, -, usd, _, hu, ha, rfl⟩ |
        ⟨-, -, r, hr, ha, rfl⟩
    · have hle : s.mnaReserveLedger.totalReleasedSolUsd.toNat ≤ usd.toNat := by
        have hu' : usd.toNat = s.mnaReserveLedger.totalVerifiedSolUsd.toNat + o.amountUsdc.toNat :=
          hu
        omega
      exact ⟨h0.bridge, husdc, hle⟩
    · have hle : s.mnaReserveLedger.totalReleasedUsdc.toNat ≤ d.toNat := by
        have hd' : d.toNat = s.mnaReserveLedger.totalVerifiedDepositsUsdc.toNat +
          o.amountUsdc.toNat := hd
        omega
      exact ⟨h0.bridge, hle, hsol⟩
    · have hle : usd.toNat ≤ s.mnaReserveLedger.totalVerifiedSolUsd.toNat := by
        have hu' : usd.toNat = s.mnaReserveLedger.totalReleasedSolUsd.toNat + o.amountUsdc.toNat :=
          hu
        have ha' : o.amountUsdc.toNat ≤ s.mnaReserveLedger.totalVerifiedSolUsd.toNat -
          s.mnaReserveLedger.totalReleasedSolUsd.toNat := ha
        omega
      exact ⟨h0.bridge, husdc, hle⟩
    · have hle : r.toNat ≤ s.mnaReserveLedger.totalVerifiedDepositsUsdc.toNat := by
        have hr' : r.toNat = s.mnaReserveLedger.totalReleasedUsdc.toNat + o.amountUsdc.toNat := hr
        have ha' : o.amountUsdc.toNat ≤ s.mnaReserveLedger.totalVerifiedDepositsUsdc.toNat -
          s.mnaReserveLedger.totalReleasedUsdc.toNat := ha
        omega
      exact ⟨h0.bridge, hle, hsol⟩

/-- **One successful operation** keeps solvent lanes solvent exactly if it is within its lane. -/
theorem lanesSolvent_next_iff {op : Operation} (hop : s.Succeeds E op) (hb : LanesBalanced s)
    (h0 : LanesSolvent s) : LanesSolvent (s.next E op) ↔ WithinLane s op := by
  obtain ⟨b, hx⟩ := hop
  have happly := apply_eq hx
  by_cases hasset : ∃ o, op = .asset o
  · obtain ⟨o, rfl⟩ := hasset
    cases b with
    | false =>
      have hdone : o.operationId ∈ s.processedAssetOperations :=
        (applyAssetOperation_false happly).2
      rw [apply_false happly]
      exact iff_of_true h0 fun _ hn => absurd hdone hn
    | true => exact applyAssetOperation_solvent hb h0 happly
  · have hwithin : WithinLane s op := by
      cases op with
      | asset o => exact absurd ⟨o, rfl⟩ hasset
      | _ => exact trivial
    refine iff_of_true ?_ hwithin
    cases b with
    | false =>
      rw [apply_false happly]
      exact h0
    | true => exact apply_solvent (fun o ho => hasset ⟨o, ho⟩) h0 happly

/-! ## 4. Runs from a genesis -/

theorem fromGenesis_lanesSolvent {genesis : GenesisConfig} (h : fromGenesis genesis = .ok s) :
    LanesSolvent s := by
  obtain ⟨accounts, rfl⟩ := fromGenesis_eq_ok h
  refine ⟨fun key => ?_, Nat.le_refl _, Nat.le_refl _⟩
  simp only [bridged, ofAccounts, BTreeMap.total_empty, Nat.le_refl]

/-- **Along every run of successful operations from a genesis** no lane lets out more than it took
    in at any state reached, if and only if every burn is within its lane. -/
theorem lanes_solvent_iff {genesis : GenesisConfig} (hg : fromGenesis genesis = .ok s)
    {ops : List Operation} (h : EachStep (next E) (Succeeds E) s ops) :
    (∀ pre, pre <+: ops → (runs (next E) s pre).LanesSolvent) ↔
      EachStep (next E) WithinLane s ops := by
  have hb := fromGenesis_lanesBalanced hg
  have hbalanced : Throughout (next E) LanesBalanced s ops :=
    h.throughout (P := LanesBalanced) (fun t op hop ht => lanesBalanced_next ht hop) hb
  have hboth : Throughout (next E) (fun t => LanesSolvent t ∧ LanesBalanced t) s ops ↔
      EachStep (next E) WithinLane s ops := by
    refine h.throughout_iff_guarded (fun t op hop ht => ?_) ⟨fromGenesis_lanesSolvent hg, hb⟩
    rw [← lanesSolvent_next_iff hop ht.2 ht.1]
    exact and_iff_left (lanesBalanced_next ht.2 hop)
  rw [← throughout_iff, ← hboth, throughout_and]
  exact (and_iff_left hbalanced).symm

/-- A deposit bridged in and part of it out again. -/
theorem lanes_solvent_burn :
    (runs (next .standIn) (Sample.genesisState 1)
      [.asset (Sample.bridge .mint 1 Sample.usdc 300),
        .asset (Sample.bridge .burn 2 Sample.usdc 100)]).LanesSolvent := by
  have h : EachStep (next .standIn) (Succeeds .standIn) (Sample.genesisState 1)
      [.asset (Sample.bridge .mint 1 Sample.usdc 300),
        .asset (Sample.bridge .burn 2 Sample.usdc 100)] := by decide +kernel
  refine (lanes_solvent_iff (Sample.fromGenesis_genesis 1) h).mpr ⟨?_, ?_, trivial⟩ _
    (List.prefix_refl _)
  · intro hk
    cases hk
  · exact fun _ _ => by decide +kernel

/-- Deposits of one USDC are redeemed and burned as another: 200 units bridged in from one chain
    leave through the lane of the other, which never took anything in. -/
theorem lane_drained_through_redemption :
    let ops : List Operation :=
      [.asset (Sample.bridge .mint 1 Sample.usdc 200), .mnaSwap (Sample.swap .mintMna 0 100 1),
        .mnaSwap (Sample.swapBy Sample.keyPair Sample.usdcEthereum .redeemMna 1 100 1),
        .asset (Sample.bridge .burn 2 Sample.usdcEthereum 200)]
    fromGenesis (Sample.genesis 1) = .ok (Sample.genesisState 1) ∧
      EachStep (next .standIn) (Succeeds .standIn) (Sample.genesisState 1) ops ∧
      ¬ (runs (next .standIn) (Sample.genesisState 1) ops).LanesSolvent := by
  intro ops
  have hrun : EachStep (next .standIn) (Succeeds .standIn) (Sample.genesisState 1) ops ∧
      ¬ (runs (next .standIn) (Sample.genesisState 1) ops).bridged .burn
          Sample.usdcEthereum.canonicalKey ≤
        (runs (next .standIn) (Sample.genesisState 1) ops).bridged .mint
          Sample.usdcEthereum.canonicalKey := by decide +kernel
  exact ⟨Sample.fromGenesis_genesis 1, hrun.1, fun h => hrun.2 (h.bridge _)⟩

end State

end WorldstreetChain
