import WorldstreetChain.State.Operation

/-!
# Token supplies

The supply of a token is a number in its definition, its balances are entries of another table
under a string key. The two agree in every state reachable without a bridge operation on a key of
the tokens' own namespace.

* `State.SupplyBalanced` -- the invariant: for each token the balances under its key add up to its
  supply, which is within its cap, and no other key of the namespace holds anything.
* `State.supplyBalanced_next` -- **every step keeps it**, also one that fails.
* `State.token_supply_conserved` -- **the result**, with two errors that cannot occur.
-/

namespace WorldstreetChain

open Std

namespace State

variable {E : Env} {s t : State}

/-! ## 1. The balances under a key -/

/-- What all addresses hold under a key. -/
def tokenTotal (s : State) (key : String) : Nat :=
  BTreeMap.total (fun _ assets => (assets[key]?.getD 0).toNat) s.assetBalances

theorem elim_assetBalances (s : State) (a : Address) (key : String) :
    s.assetBalances[a]?.elim 0 (fun assets : BTreeMap String Amount =>
      (assets[key]?.getD 0).toNat) = (s.assetBalanceOf a key).toNat := by
  unfold assetBalanceOf
  cases s.assetBalances[a]? <;> rfl

theorem tokenTotal_insertAssets (s : State) (a : Address) (assets : BTreeMap String Amount)
    (key : String) :
    (s.insertAssets a assets).tokenTotal key + (s.assetBalanceOf a key).toNat =
      s.tokenTotal key + (assets[key]?.getD 0).toNat := by
  have h := BTreeMap.total_insert
    (fun (_ : Address) (m : BTreeMap String Amount) => (m[key]?.getD 0).toNat) s.assetBalances a
    assets
  rw [elim_assetBalances] at h
  exact h

theorem tokenTotal_setAssetBalance (s : State) (a : Address) (key : String) (v : Amount) :
    (s.setAssetBalance a key v).tokenTotal key + (s.assetBalanceOf a key).toNat =
      s.tokenTotal key + v.toNat := by
  have h := tokenTotal_insertAssets s a ((s.assetsOf a).insert key v) key
  rw [ExtTreeMap.getElem?_insert_self, Option.getD_some] at h
  exact h

theorem tokenTotal_setAssetBalance_of_ne (s : State) (a : Address) {key key' : String}
    (v : Amount) (hne : key' ≠ key) :
    (s.setAssetBalance a key v).tokenTotal key' = s.tokenTotal key' := by
  have h := tokenTotal_insertAssets s a ((s.assetsOf a).insert key v) key'
  rw [ExtTreeMap.getElem?_insert, if_neg (fun hc => hne (LawfulEqOrd.eq_of_compare hc).symm),
    assetsOf_getD] at h
  exact Nat.add_right_cancel h

theorem tokenTotal_of_assetBalances (h : t.assetBalances = s.assetBalances) (key : String) :
    t.tokenTotal key = s.tokenTotal key := by
  rw [tokenTotal, h, tokenTotal]

/-- One address holds no more than all. -/
theorem assetBalanceOf_le_tokenTotal (s : State) (a : Address) (key : String) :
    (s.assetBalanceOf a key).toNat ≤ s.tokenTotal key := by
  rw [← elim_assetBalances]
  cases h : s.assetBalances[a]? with
  | none => exact Nat.zero_le _
  | some assets =>
    exact BTreeMap.le_total
      (fun (_ : Address) (m : BTreeMap String Amount) => (m[key]?.getD 0).toNat) h

/-- Two addresses hold no more than all. -/
theorem add_assetBalanceOf_le_tokenTotal (s : State) {a b : Address} (hne : b ≠ a)
    (key : String) :
    (s.assetBalanceOf a key).toNat + (s.assetBalanceOf b key).toNat ≤ s.tokenTotal key := by
  rw [← elim_assetBalances, ← elim_assetBalances]
  exact BTreeMap.add_le_total
    (fun (_ : Address) (m : BTreeMap String Amount) => (m[key]?.getD 0).toNat) hne

/-! ## 2. The tokens' keys -/

/-- The key lies in the namespace of native tokens. -/
def IsTokenKey (key : String) : Prop := "intertrain:".toList <+: key.toList

theorem isTokenKey_tokenAssetKey (d : TokenDefinition) : IsTokenKey (tokenAssetKey d) := by
  simp only [IsTokenKey, tokenAssetKey, AssetId.canonicalKey, AssetId.custom, Option.getD_some,
    String.toList_append]
  exact ⟨_, by simp only [List.append_assoc]; rfl⟩

theorem tokenAssetKey_congr {d d' : TokenDefinition} (h : SameSupply d d') :
    tokenAssetKey d' = tokenAssetKey d := by
  rw [tokenAssetKey, h.tokenId, h.symbol, h.decimals, tokenAssetKey]

/-- A key that begins with another namespace is no token's. -/
theorem not_isTokenKey_of_nameSpace {asset : AssetId} (c : Char) (rest : List Char)
    (hns : asset.nameSpace.toList = c :: rest) (hc : c ≠ 'i') :
    ¬ IsTokenKey asset.canonicalKey := by
  rintro ⟨tail, h⟩
  simp only [AssetId.canonicalKey, String.toList_append, hns, List.cons_append] at h
  have hfirst : "intertrain:".toList = 'i' :: "ntertrain:".toList := rfl
  rw [hfirst, List.cons_append] at h
  exact hc (List.cons.inj h).1.symm

/-- Supported USDC lives in the namespaces of its home chains. -/
theorem not_isTokenKey_of_supportedUsdc {asset : AssetId} (h : isSupportedUsdc asset = true) :
    ¬ IsTokenKey asset.canonicalKey := by
  simp only [isSupportedUsdc, Bool.or_eq_true, Bool.and_eq_true, beq_iff_eq] at h
  rcases h with ⟨⟨⟨hns, -⟩, -⟩, -⟩ | ⟨⟨⟨hns, -⟩, -⟩, -⟩
  · exact not_isTokenKey_of_nameSpace 'e' "thereum".toList (by rw [hns]; rfl)
      (by decide)
  · exact not_isTokenKey_of_nameSpace 's' "olana".toList (by rw [hns]; rfl)
      (by decide)

/-! ## 3. The invariant -/

/-- **Supplies and balances agree.** -/
structure SupplyBalanced (s : State) : Prop where
  ids : ∀ (id : Hash) (d : TokenDefinition), s.tokenDefinitions[id]? = some d → d.tokenId = id
  supply : ∀ (id : Hash) (d : TokenDefinition), s.tokenDefinitions[id]? = some d →
    s.tokenTotal (tokenAssetKey d) = d.totalSupply.toNat
  cap : ∀ (id : Hash) (d : TokenDefinition), s.tokenDefinitions[id]? = some d →
    ∀ cap : Amount, d.maxSupply = some cap → d.totalSupply.toNat ≤ cap.toNat
  /-- A key of the namespace that is no token's holds nothing. -/
  owned : ∀ key, IsTokenKey key → s.tokenTotal key ≠ 0 →
    ∃ (id : Hash) (d : TokenDefinition), s.tokenDefinitions[id]? = some d ∧ tokenAssetKey d = key

/-- Definitions and token balances are all it depends on. -/
theorem SupplyBalanced.of_same (h : SupplyBalanced s)
    (hdefs : t.tokenDefinitions = s.tokenDefinitions)
    (htotal : ∀ key, IsTokenKey key → t.tokenTotal key = s.tokenTotal key) :
    SupplyBalanced t where
  ids id d hd := h.ids id d (hdefs ▸ hd)
  supply id d hd := by
    rw [htotal _ (isTokenKey_tokenAssetKey d)]
    exact h.supply id d (hdefs ▸ hd)
  cap id d hd := h.cap id d (hdefs ▸ hd)
  owned key hkey hne := by
    rw [htotal key hkey] at hne
    rw [hdefs]
    exact h.owned key hkey hne

/-- Writing one definition together with the balances under its key. -/
theorem SupplyBalanced.write (h : SupplyBalanced s) {d : TokenDefinition}
    (hdefs : t.tokenDefinitions = s.tokenDefinitions.insert d.tokenId d)
    (hkey : ∀ old, s.tokenDefinitions[d.tokenId]? = some old → tokenAssetKey old = tokenAssetKey d)
    (hsupply : t.tokenTotal (tokenAssetKey d) = d.totalSupply.toNat)
    (hother : ∀ key, key ≠ tokenAssetKey d → t.tokenTotal key = s.tokenTotal key)
    (hcap : ∀ cap, d.maxSupply = some cap → d.totalSupply.toNat ≤ cap.toNat) :
    SupplyBalanced t := by
  have hget : ∀ (id : Hash) (x : TokenDefinition), t.tokenDefinitions[id]? = some x →
      (id = d.tokenId ∧ x = d) ∨ (id ≠ d.tokenId ∧ s.tokenDefinitions[id]? = some x) := by
    intro id x hx
    rw [hdefs, ExtTreeMap.getElem?_insert] at hx
    split at hx
    · rename_i hc
      exact Or.inl ⟨(LawfulEqOrd.eq_of_compare hc).symm, (Option.some.inj hx).symm⟩
    · rename_i hc
      refine Or.inr ⟨fun he => hc ?_, hx⟩
      rw [he]
      exact compare_self
  refine ⟨fun id x hx => ?_, fun id x hx => ?_, fun id x hx => ?_, fun key hkt hne => ?_⟩
  · rcases hget id x hx with ⟨rfl, rfl⟩ | ⟨-, hx⟩
    · rfl
    · exact h.ids id x hx
  · rcases hget id x hx with ⟨rfl, rfl⟩ | ⟨hid, hx⟩
    · exact hsupply
    · rw [hother _ fun hk => hid ?_]
      · exact h.supply id x hx
      · rw [← h.ids id x hx]
        exact AssetId.canonicalKey_custom_inj hk
  · rcases hget id x hx with ⟨rfl, rfl⟩ | ⟨-, hx⟩
    · exact hcap
    · exact h.cap id x hx
  · by_cases hk : key = tokenAssetKey d
    · refine ⟨d.tokenId, d, ?_, hk.symm⟩
      rw [hdefs, ExtTreeMap.getElem?_insert_self]
    · rw [hother key hk] at hne
      obtain ⟨id, x, hx, rfl⟩ := h.owned key hkt hne
      refine ⟨id, x, ?_, rfl⟩
      rw [hdefs, ExtTreeMap.getElem?_insert, if_neg, hx]
      intro hc
      rw [LawfulEqOrd.eq_of_compare hc] at hkey
      exact hk (hkey x hx)

/-! ## 4. Every step keeps it -/

theorem SupplyBalanced.total_of_new (h : SupplyBalanced s) {d : TokenDefinition}
    (hnew : d.tokenId ∉ s.tokenDefinitions) : s.tokenTotal (tokenAssetKey d) = 0 := by
  by_contra hne
  obtain ⟨id, x, hx, hk⟩ := h.owned _ (isTokenKey_tokenAssetKey d) hne
  have hid : x.tokenId = d.tokenId := AssetId.canonicalKey_custom_inj hk
  rw [h.ids id x hx] at hid
  rw [← hid, ExtTreeMap.mem_iff_isSome_getElem?, hx] at hnew
  exact hnew rfl

/-- **Every effect of a token operation keeps the invariant**, in a state in which it holds. The
    cap of a new token is the one its operation was checked against. -/
theorem SupplyBalanced.tokenEffect (h : SupplyBalanced s) {u : UnsignedTokenOperation} {id : Hash}
    (hfields : checkTokenFields u = .ok ()) (he : TokenEffect E s u id t) : SupplyBalanced t := by
  cases he with
  | createEmpty hk h0 hnew =>
    have htotal := h.total_of_new
      (d := newTokenDefinition u (E.crypto.tokenIdFromOperation id)) hnew
    refine h.write (d := newTokenDefinition u (E.crypto.tokenIdFromOperation id)) rfl
      (fun old hold => ?_) ?_ (fun _ _ => rfl) fun cap hc => checkTokenFields_create hfields hk hc
    · rw [ExtTreeMap.mem_iff_isSome_getElem?] at hnew
      exact absurd (hold ▸ rfl) hnew
    · refine htotal.trans ?_
      show 0 = u.amount.toNat
      rw [h0]
      rfl
  | create d v hk hd hnew hv =>
    have htotal := h.total_of_new hnew
    have hold := assetBalanceOf_le_tokenTotal s u.fromAddress (tokenAssetKey d)
    have hset := tokenTotal_setAssetBalance (s.insertTokenDefinition d.tokenId d) u.fromAddress
      (tokenAssetKey d) v
    refine h.write (d := d) rfl (fun old hx => ?_) ?_ (fun key hne => ?_) fun cap hc => ?_
    · rw [ExtTreeMap.mem_iff_isSome_getElem?] at hnew
      exact absurd (hx ▸ rfl) hnew
    · have hsame : (s.insertTokenDefinition d.tokenId d).tokenTotal (tokenAssetKey d) =
          s.tokenTotal (tokenAssetKey d) := rfl
      have hbal : (s.insertTokenDefinition d.tokenId d).assetBalanceOf u.fromAddress
          (tokenAssetKey d) = s.assetBalanceOf u.fromAddress (tokenAssetKey d) := rfl
      have hsupply : d.totalSupply = u.amount := by rw [hd]; rfl
      rw [hsame, hbal] at hset
      rw [hsupply]
      omega
    · exact tokenTotal_setAssetBalance_of_ne _ _ _ hne
    · rw [hd] at hc ⊢
      exact checkTokenFields_create hfields hk hc
  | transfer d recipient v w hk hd hto hv hw =>
    refine h.of_same rfl fun key _ => ?_
    by_cases hkey : key = tokenAssetKey d
    · have h1 := tokenTotal_setAssetBalance s u.fromAddress (tokenAssetKey d) v
      have h2 := tokenTotal_setAssetBalance (s.setAssetBalance u.fromAddress (tokenAssetKey d) v)
        recipient (tokenAssetKey d) w
      rw [hkey]
      omega
    · rw [tokenTotal_setAssetBalance_of_ne _ _ _ hkey, tokenTotal_setAssetBalance_of_ne _ _ _ hkey]
  | mint d recipient total v hk hd htotal hcap hv =>
    have hset := tokenTotal_setAssetBalance s recipient (tokenAssetKey d) v
    have hsupply := h.supply _ d hd
    have hid := h.ids _ d hd
    refine h.write (d := { d with totalSupply := total }) rfl (fun old hold => ?_) ?_
      (fun key hne => tokenTotal_setAssetBalance_of_ne _ _ _ hne) hcap
    · rw [← hid] at hd
      cases hd.symm.trans hold
      rfl
    · show (s.setAssetBalance recipient (tokenAssetKey d) v).tokenTotal (tokenAssetKey d) =
        total.toNat
      omega
  | burn d total v hk hd htotal hv =>
    have hset := tokenTotal_setAssetBalance s u.fromAddress (tokenAssetKey d) v
    have hsupply := h.supply _ d hd
    have hid := h.ids _ d hd
    refine h.write (d := { d with totalSupply := total }) rfl (fun old hold => ?_) ?_
      (fun key hne => tokenTotal_setAssetBalance_of_ne _ _ _ hne) fun cap hc => ?_
    · rw [← hid] at hd
      cases hd.symm.trans hold
      rfl
    · show (s.setAssetBalance u.fromAddress (tokenAssetKey d) v).tokenTotal (tokenAssetKey d) =
        total.toNat
      omega
    · have hle := h.cap _ d hd cap hc
      show total.toNat ≤ cap.toNat
      omega
  | administer d d' hd hsame =>
    have hid := h.ids _ d hd
    have hkeys := tokenAssetKey_congr hsame
    refine h.write (d := d') (by rw [hsame.tokenId]; rfl) (fun old hold => ?_) ?_
      (fun _ _ => rfl) fun cap hc => ?_
    · rw [hsame.tokenId, hid, hd] at hold
      cases hold
      exact hkeys.symm
    · rw [hkeys, hsame.totalSupply]
      exact h.supply _ d hd
    · rw [hsame.totalSupply]
      exact h.cap _ d hd cap (hsame.maxSupply ▸ hc)
  | frozen accounts => exact h.of_same rfl fun _ _ => rfl

/-- The operation is no bridge operation on a key of the tokens. -/
def AvoidsTokenKeys : Operation → Prop
  | .asset o => ¬ IsTokenKey o.assetId.canonicalKey
  | _ => True

theorem SupplyBalanced.setAssetBalance_of_ne (h : SupplyBalanced s) {a : Address} {key : String}
    {v : Amount} (hkey : ¬ IsTokenKey key)
    (hdefs : t.tokenDefinitions = s.tokenDefinitions)
    (hassets : t.assetBalances = (s.setAssetBalance a key v).assetBalances) : SupplyBalanced t :=
  h.of_same hdefs fun key' hkey' => by
    rw [tokenTotal_of_assetBalances hassets]
    exact tokenTotal_setAssetBalance_of_ne s a v fun he => hkey (he ▸ hkey')

/-- The fee of a token operation is MNA. -/
theorem SupplyBalanced.charge (h : SupplyBalanced s) {u : UnsignedTokenOperation}
    (hc : s.chargeTokenFee u = .ok t) : SupplyBalanced t := by
  obtain ⟨_, _, _, -, -, -, rfl⟩ := chargeTokenFee_eq_ok hc
  exact h.of_same rfl fun _ _ => rfl

theorem SupplyBalanced.apply (h : SupplyBalanced s) {op : Operation} (hop : AvoidsTokenKeys op)
    (happly : s.apply E op = ⟨.ok true, t⟩) : SupplyBalanced t := by
  cases op with
  | transaction tx =>
    obtain ⟨id, happly, -⟩ := Applied.map_eq_ok.mp happly
    obtain ⟨-, -, ⟨-, hx⟩ | ⟨-, total, -, hx⟩⟩ := applyTransaction_eq_ok happly
    · obtain ⟨-, _, _, -, -, rfl⟩ := faucetTransfer_eq_ok hx
      exact h.of_same rfl fun _ _ => rfl
    · obtain ⟨_, _, _, -, -, -, ⟨-, _, -, rfl⟩ | ⟨-, _, -, rfl⟩⟩ := transfer_eq_ok hx
      · exact h.of_same rfl fun _ _ => rfl
      · exact h.of_same rfl fun _ _ => rfl
  | asset o =>
    obtain ⟨-, -, _, balance, -, -, rfl⟩ := applyAssetOperation_true happly
    exact h.setAssetBalance_of_ne (a := o.address) (v := balance) hop rfl rfl
  | token o id =>
    obtain ⟨hv, -, -, charged, next, hc, ht, rfl⟩ := applyTokenOperation_true happly
    have hcharged : SupplyBalanced charged := h.charge hc
    have hnext : SupplyBalanced next := hcharged.tokenEffect hv.fields (tokenEffect_eq_ok ht)
    exact hnext.of_same rfl fun _ _ => rfl
  | mnaSwap o =>
    obtain ⟨hv, -, next, he, rfl⟩ := applyMnaSwap_true happly
    obtain ⟨_, usdc, _, _, _, -, -, rfl, -⟩ := swapEffect_eq_ok he
    exact h.setAssetBalance_of_ne (a := o.unsigned.fromAddress) (v := usdc)
      (not_isTokenKey_of_supportedUsdc hv.supported) rfl rfl
  | mnaReserve o =>
    obtain ⟨-, -, next, he, -, rfl⟩ := applyMnaReserveOperation_true happly
    rcases reserveEffect_eq_ok he with
      ⟨-, -, _, _, _, _, -, -, -, rfl⟩ | ⟨-, -, _, -, rfl⟩ | ⟨-, -, _, _, -, -, rfl⟩ |
        ⟨-, -, _, -, -, rfl⟩
    all_goals exact h.of_same rfl fun _ _ => rfl
  | program o height =>
    obtain ⟨-, hm⟩ := applyProgramOperation_true happly
    obtain ⟨-, -, _, _, _, _, _, _, _, -, -, -, -, rfl⟩ := applyProgramOperationMut_eq_ok hm
    exact h.of_same rfl fun _ _ => rfl

/-- **Every step keeps the invariant**, whether the operation succeeds or not. -/
theorem supplyBalanced_next {op : Operation} (hop : AvoidsTokenKeys op) (h : SupplyBalanced s) :
    SupplyBalanced (s.next E op) := by
  refine next_cases (R := SupplyBalanced) h (fun _ happly => h.apply hop happly) fun t hr => ?_
  cases hr with
  | faucet tx balance hf hv hp hb => exact h.of_same rfl fun _ _ => rfl
  | assetRecorded o hc hn => exact h.of_same rfl fun _ _ => rfl
  | assetMoved o ledger hc hn =>
    refine h.of_same rfl fun key _ => ?_
    -- the map the failed operation has given the address is the one it had
    have hins := tokenTotal_insertAssets s o.address (s.assetsOf o.address) key
    rw [assetsOf_getD] at hins
    exact Nat.add_right_cancel hins
  | mnaSwap o hv hn => exact h.of_same rfl fun _ _ => rfl
  | mnaReserve o hv hn => exact h.of_same rfl fun _ _ => rfl

theorem supplyBalanced_runs {ops : List Operation} (hops : ∀ op ∈ ops, AvoidsTokenKeys op)
    (h : SupplyBalanced s) : SupplyBalanced (runs (next E) s ops) := by
  induction ops generalizing s with
  | nil => exact h
  | cons op ops ih =>
    exact ih (fun o ho => hops o (List.mem_cons_of_mem _ ho))
      (supplyBalanced_next (hops op List.mem_cons_self) h)

theorem fromGenesis_supplyBalanced {genesis : GenesisConfig} (h : fromGenesis genesis = .ok s) :
    SupplyBalanced s := by
  obtain ⟨accounts, rfl⟩ := fromGenesis_eq_ok h
  have hnone : ∀ id : Hash, (ofAccounts genesis.chainId genesis.feeMinimum
      accounts).tokenDefinitions[id]? = none := fun id => ExtTreeMap.getElem?_empty
  have hzero : ∀ key, (ofAccounts genesis.chainId genesis.feeMinimum accounts).tokenTotal key = 0 :=
    fun key => BTreeMap.total_empty _
  refine ⟨fun id d hd => ?_, fun id d hd => ?_, fun id d hd => ?_, fun key _ hne => ?_⟩
  · rw [hnone] at hd
    cases hd
  · rw [hnone] at hd
    cases hd
  · rw [hnone] at hd
    cases hd
  · exact absurd (hzero key) hne

/-! ## 5. The errors that cannot occur -/

section Unreachable

variable {d : TokenDefinition} {a : Address} {amount : Amount} {u : UnsignedTokenOperation}
  {id : Hash}

theorem avoids_adjustTokenBalance_sub :
    Avoids (s.adjustTokenBalance d a amount false) .tokenBalanceOverflow := by
  unfold adjustTokenBalance
  exact Avoids.lookup (by simp) fun _ _ => avoids_ok _ _

theorem avoids_adjustTokenBalance_add
    (h : (s.assetBalanceOf a (tokenAssetKey d)).toNat + amount.toNat < 2 ^ 128) :
    Avoids (s.adjustTokenBalance d a amount true) .tokenBalanceOverflow := by
  unfold adjustTokenBalance
  cases hv : Unsigned.checkedAdd (s.assetBalanceOf a (tokenAssetKey d)) amount with
  | none => exact absurd (Unsigned.checkedAdd_eq_none.mp hv) (Nat.not_le.mpr h)
  | some v =>
    simp only [if_true, hv, orFail_some]
    exact avoids_ok _ _

theorem avoids_ensureTokenTransferable {b : Address} :
    Avoids (s.ensureTokenTransferable d a b) .tokenBalanceOverflow :=
  Avoids.reject (by simp) fun _ => Avoids.reject (by simp) fun _ => avoids_ok _ _

theorem avoids_chargeTokenFee : Avoids (s.chargeTokenFee u) .tokenBalanceOverflow :=
  Avoids.lookup (by simp) fun _ _ => Avoids.lookup (by simp) fun _ _ =>
    Avoids.lookup (by simp) fun _ _ => Avoids.lookup (by simp) fun _ _ => avoids_ok _ _

theorem avoids_checkTokenFields : Avoids (checkTokenFields u) .tokenBalanceOverflow := by
  unfold checkTokenFields
  split
  all_goals
    repeat refine Avoids.reject (by simp) fun _ => ?_
    exact avoids_ok _ _

theorem avoids_validateTokenOperation {o : TokenOperation} :
    Avoids (validateTokenOperation E s o) .tokenBalanceOverflow := by
  unfold validateTokenOperation
  iterate 6 refine Avoids.reject (by simp) fun _ => ?_
  refine Avoids.lookup (by simp) fun _ _ => ?_
  iterate 2 refine Avoids.reject (by simp) fun _ => ?_
  exact avoids_checkTokenFields.bind fun _ _ => avoids_ok _ _

/-- A new token's key holds nothing its first balance could overflow. -/
theorem SupplyBalanced.avoids_tokenCreate (h : SupplyBalanced s) :
    Avoids (s.tokenCreate E u id) .tokenBalanceOverflow := by
  unfold tokenCreate
  refine Avoids.reject (by simp) fun hnew => ?_
  have htotal := h.total_of_new (d := newTokenDefinition u (E.crypto.tokenIdFromOperation id))
    hnew
  split
  · refine avoids_adjustTokenBalance_add ?_
    have hle := assetBalanceOf_le_tokenTotal s u.fromAddress
      (tokenAssetKey (newTokenDefinition u (E.crypto.tokenIdFromOperation id)))
    have hlt := u.amount.isLt
    show (s.assetBalanceOf u.fromAddress (tokenAssetKey
      (newTokenDefinition u (E.crypto.tokenIdFromOperation id)))).toNat + u.amount.toNat < 2 ^ 128
    omega
  · exact avoids_ok _ _

/-- The two balances a transfer touches lie within the supply, and one of them gives what the
    other takes. -/
theorem SupplyBalanced.avoids_tokenTransfer (h : SupplyBalanced s)
    (hto : u.toAddress ≠ some u.fromAddress) :
    Avoids (s.tokenTransfer u) .tokenBalanceOverflow := by
  unfold tokenTransfer
  refine Avoids.lookup (by simp) fun d hd => ?_
  refine Avoids.lookup (by simp) fun recipient hr => ?_
  refine avoids_ensureTokenTransferable.bind fun _ _ => ?_
  refine avoids_adjustTokenBalance_sub.bind fun s1 h1 => avoids_adjustTokenBalance_add ?_
  obtain ⟨v, hv, rfl⟩ := adjustTokenBalance_sub h1
  have hne : recipient ≠ u.fromAddress := fun he => hto (he ▸ hr)
  have hsupply := h.supply _ d hd
  have hboth := add_assetBalanceOf_le_tokenTotal s hne (tokenAssetKey d)
  have hlt := d.totalSupply.isLt
  rw [assetBalanceOf_setAssetBalance, if_neg fun hc => hne hc.1.symm]
  omega

/-- A mint that fits into the supply fits into every balance. -/
theorem SupplyBalanced.avoids_tokenMint (h : SupplyBalanced s) :
    Avoids (s.tokenMint u) .tokenBalanceOverflow := by
  unfold tokenMint
  refine Avoids.lookup (by simp) fun d hd => ?_
  refine Avoids.reject (by simp) fun _ => ?_
  refine Avoids.lookup (by simp) fun recipient _ => ?_
  iterate 2 refine Avoids.reject (by simp) fun _ => ?_
  refine Avoids.lookup (by simp) fun total ht => ?_
  refine Avoids.reject (by simp) fun _ => ?_
  refine (avoids_adjustTokenBalance_add ?_).bind fun _ _ => avoids_ok _ _
  have hsum := Unsigned.checkedAdd_eq_some.mp ht
  have hsupply := h.supply _ d hd
  have hle := assetBalanceOf_le_tokenTotal s recipient (tokenAssetKey d)
  have hlt := total.isLt
  show (s.assetBalanceOf recipient (tokenAssetKey d)).toNat + u.amount.toNat < 2 ^ 128
  omega

theorem avoids_tokenBurn : Avoids (s.tokenBurn u) .tokenBalanceOverflow := by
  unfold tokenBurn
  refine Avoids.lookup (by simp) fun d _ => ?_
  refine avoids_ensureTokenTransferable.bind fun _ _ => ?_
  refine avoids_adjustTokenBalance_sub.bind fun _ _ => ?_
  exact Avoids.lookup (by simp) fun _ _ => avoids_ok _ _

/-- The kinds that only look a definition up and test an authority. -/
theorem avoids_tokenAdminister :
    Avoids (s.tokenSetAuthorities u) .tokenBalanceOverflow ∧
      Avoids (s.tokenFreeze u) .tokenBalanceOverflow ∧
      Avoids (s.tokenPause u) .tokenBalanceOverflow ∧
      Avoids (s.tokenUpdateMetadata u) .tokenBalanceOverflow := by
  refine ⟨?_, ?_, ?_, ?_⟩
  · exact Avoids.lookup (by simp) fun _ _ => Avoids.reject (by simp) fun _ =>
      avoids_ok _ _
  · exact Avoids.lookup (by simp) fun _ _ => Avoids.reject (by simp) fun _ =>
      Avoids.lookup (by simp) fun _ _ => avoids_ok _ _
  · exact Avoids.lookup (by simp) fun _ _ => Avoids.reject (by simp) fun _ =>
      avoids_ok _ _
  · exact Avoids.lookup (by simp) fun _ _ => Avoids.reject (by simp) fun _ =>
      avoids_ok _ _

theorem SupplyBalanced.avoids_tokenEffect (h : SupplyBalanced s)
    (hfields : checkTokenFields u = .ok ()) :
    Avoids (s.tokenEffect E u id) .tokenBalanceOverflow := by
  obtain ⟨hset, hfreeze, hpause, hmeta⟩ := avoids_tokenAdminister (s := s) (u := u)
  unfold State.tokenEffect
  split
  · exact h.avoids_tokenCreate
  · exact h.avoids_tokenTransfer (checkTokenFields_transfer hfields ‹_›)
  · exact h.avoids_tokenMint
  · exact avoids_tokenBurn
  · exact hset
  · exact hfreeze
  · exact hfreeze
  · exact hpause
  · exact hpause
  · exact hmeta

/-- **No token operation ends in `TokenBalanceOverflow`.** -/
theorem SupplyBalanced.avoids_applyTokenOperation (h : SupplyBalanced s) (o : TokenOperation)
    (id : Hash) : Avoids (s.applyTokenOperation E o id).result .tokenBalanceOverflow := by
  intro herr
  rcases Applied.attempt_eq_error.mp (Applied.eq_of_result herr) with ⟨hid, -⟩ | ⟨⟨⟩, -, happly⟩
  · exact avoids_rejectIf (by simp) hid
  split at happly
  · cases happly
  · refine Avoids.bind avoids_validateTokenOperation (fun _ hv => ?_)
      (Applied.ofClone_eq_error.mp happly).1
    refine Avoids.bind (avoids_chargeTokenFee.bind fun charged hc => ?_) fun _ _ => avoids_ok _ _
    exact ((h.charge hc).avoids_tokenEffect (validateTokenOperation_eq_ok hv).1.fields).bind
      fun _ _ => avoids_ok _ _

/-- **A burn covered by a balance is covered by the supply.** -/
theorem SupplyBalanced.burn_covered (h : SupplyBalanced s)
    (hd : s.tokenDefinitions[u.tokenId]? = some d)
    (hsub : s.adjustTokenBalance d a amount false = .ok t) :
    (Unsigned.checkedSub d.totalSupply amount).isSome := by
  cases hv : Unsigned.checkedSub d.totalSupply amount with
  | some v => rfl
  | none =>
    have hlt := Unsigned.checkedSub_eq_none.mp hv
    obtain ⟨v, hv, -⟩ := adjustTokenBalance_sub hsub
    have hsupply := h.supply _ d hd
    have hle := assetBalanceOf_le_tokenTotal s a (tokenAssetKey d)
    omega

end Unreachable

/-! ## 6. The result -/

/-- **Token supply conservation.** After any operations from a genesis, the bridge operations
    among them on keys of other namespaces: the balances of each token add up to its supply, which
    is within its cap; no token operation ends in `TokenBalanceOverflow`; and a burn that its
    balance covers passes the subtraction from the supply. -/
theorem token_supply_conserved {genesis : GenesisConfig} (hg : fromGenesis genesis = .ok s)
    {ops : List Operation} (hops : ∀ op ∈ ops, AvoidsTokenKeys op) :
    let t := runs (next E) s ops
    (∀ (id : Hash) (d : TokenDefinition), t.tokenDefinitions[id]? = some d →
      t.tokenTotal (tokenAssetKey d) = d.totalSupply.toNat ∧
      ∀ cap : Amount, d.maxSupply = some cap → d.totalSupply.toNat ≤ cap.toNat) ∧
    (∀ o id, (t.applyTokenOperation E o id).result ≠ .error (.err .tokenBalanceOverflow)) ∧
    ∀ (u : UnsignedTokenOperation) (charged burned : State) (d : TokenDefinition),
      t.chargeTokenFee u = .ok charged → charged.tokenDefinitions[u.tokenId]? = some d →
      charged.adjustTokenBalance d u.fromAddress u.amount false = .ok burned →
      (Unsigned.checkedSub d.totalSupply u.amount).isSome := by
  intro t
  have ht : SupplyBalanced t := supplyBalanced_runs hops (fromGenesis_supplyBalanced hg)
  refine ⟨fun id d hd => ⟨ht.supply id d hd, ht.cap id d hd⟩, fun o id => ?_, ?_⟩
  · exact ht.avoids_applyTokenOperation o id
  · exact fun u charged burned d hc hd hsub => (ht.charge hc).burn_covered hd hsub

/-- Five hundred of a new token with a cap of a thousand, in one account. -/
theorem token_supply_conserved_create :
    let t := runs (next .standIn) (Sample.genesisState 1) [Sample.createToken 500 1000]
    t.tokenDefinitions.size = 1 ∧
      ∀ (id : Hash) (d : TokenDefinition), t.tokenDefinitions[id]? = some d →
        t.tokenTotal (tokenAssetKey d) = d.totalSupply.toNat ∧
        ∀ cap : Amount, d.maxSupply = some cap → d.totalSupply.toNat ≤ cap.toNat := by
  refine ⟨by decide +kernel, ?_⟩
  refine (token_supply_conserved (Sample.fromGenesis_genesis 1) fun op hop => ?_).1
  rw [List.mem_singleton.mp hop]
  exact trivial

end State

end WorldstreetChain
