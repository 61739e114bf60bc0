import WorldstreetChain.State.TokenAuthority

/-!
# Two lookups of a token balance (`token_balance_of`, `token_balance`)

Transfers go by the exact key of a token. The RPC is served by a scan of an address's keys for the
first that begins like a token's key and ends in the token's id. Whether the two agree is a matter
of the keys that stand in the map, and a bridge operation brings the key of any asset into it.

* `State.tokenBalanceOf` -- the scan; `State.tokenBalance` is the exact lookup.
* `State.KeysApart` -- no key that a token's scan finds is another than the token's own.
* `State.token_lookups_agree` -- **the lookups agree along every run that keeps keys apart**.
-/

namespace WorldstreetChain

open Std

namespace State

variable {E : Env} {s t : State}

/-! ## 1. The scan -/

/-- The key begins with `intertrain:` and ends in `token:` and the id. -/
def Scanned (id : Hash) (key : String) : Bool :=
  "intertrain:".toList.isPrefixOf key.toList && ("token:" ++ id.toHex).toList.isSuffixOf key.toList

def tokenBalanceOf (s : State) (address : Address) (tokenId : Hash) : Amount :=
  ((s.assetsOf address).toList.findSome? fun entry =>
    if Scanned tokenId entry.1 then some entry.2 else none).getD 0

theorem tokenAssetKey_toList (d : TokenDefinition) : (tokenAssetKey d).toList =
    "intertrain:".toList ++ (d.symbol.toList ++ (":".toList ++
      ("token:" ++ d.tokenId.toHex).toList)) := by
  simp only [tokenAssetKey, AssetId.canonicalKey, AssetId.custom, Option.getD_some,
    String.toList_append, List.append_assoc]
  rfl

/-- **A token's key is found by the scan for that token, and by no other.** -/
theorem scanned_tokenAssetKey {id : Hash} {d : TokenDefinition} :
    Scanned id (tokenAssetKey d) = true ↔ id = d.tokenId := by
  unfold Scanned
  rw [Bool.and_eq_true, List.isPrefixOf_iff_prefix, List.isSuffixOf_iff_suffix,
    tokenAssetKey_toList]
  constructor
  · intro hscanned
    obtain ⟨front, h⟩ := hscanned.2
    rw [← List.append_assoc, ← List.append_assoc, String.toList_append, String.toList_append,
      Hash.toList_toHex, Hash.toList_toHex, ← List.append_assoc, ← List.append_assoc] at h
    obtain ⟨-, hid⟩ := List.append_inj' h
      (by simp only [length_flatMap_hexByte, Vector.length_toList])
    exact Hash.toList_injective (flatMap_hexByte_injective hid)
  · intro h
    rw [h]
    exact ⟨⟨_, rfl⟩, "intertrain:".toList ++ (d.symbol.toList ++ ":".toList),
      by simp only [List.append_assoc]⟩

/-- Where the scan finds no key but the token's own, it finds what the exact lookup does. -/
theorem tokenBalanceOf_eq {a : Address} {d : TokenDefinition}
    (h : ∀ key ∈ s.assetsOf a, Scanned d.tokenId key = true → key = tokenAssetKey d) :
    s.tokenBalanceOf a d.tokenId = s.tokenBalance a d := by
  unfold tokenBalanceOf tokenBalance
  rw [← assetsOf_getD]
  congr 1
  cases hfind : (s.assetsOf a).toList.findSome? fun entry =>
      if Scanned d.tokenId entry.1 then some entry.2 else none with
  | some balance =>
    obtain ⟨⟨key, value⟩, hmem, hvalue⟩ := List.exists_of_findSome?_eq_some hfind
    have hget := ExtTreeMap.mem_toList_iff_getElem?_eq_some.mp hmem
    split at hvalue
    · rename_i hscanned
      cases hvalue
      rw [← h key (ExtTreeMap.mem_iff_isSome_getElem?.mpr (by rw [hget]; rfl)) hscanned, hget]
    · cases hvalue
  | none =>
    cases hget : (s.assetsOf a)[tokenAssetKey d]? with
    | none => rfl
    | some value =>
      have hmiss := List.findSome?_eq_none_iff.mp hfind _
        (ExtTreeMap.mem_toList_iff_getElem?_eq_some.mpr hget)
      rw [if_pos (scanned_tokenAssetKey.mpr rfl)] at hmiss
      cases hmiss

/-! ## 2. The keys that stand in the maps -/

/-- **No key that a token's scan finds is another than the token's own.** -/
structure KeysApart (s : State) : Prop where
  named : TokensNamed s
  own : ∀ (a : Address) (key : String), key ∈ s.assetsOf a → ∀ (id : Hash) (d : TokenDefinition),
    s.tokenDefinitions[id]? = some d → Scanned d.tokenId key = true → key = tokenAssetKey d

theorem mem_assetsOf_setAssetBalance {a b : Address} {key key' : String} {v : Amount}
    (h : key ∈ (s.setAssetBalance b key' v).assetsOf a) : key = key' ∨ key ∈ s.assetsOf a := by
  unfold setAssetBalance assetsOf at h
  rw [insertAssets_assetBalances, ExtTreeMap.getElem?_insert] at h
  split at h
  · rename_i hab
    rw [Option.getD_some, ExtTreeMap.mem_insert] at h
    rw [← LawfulEqOrd.eq_of_compare hab]
    obtain hkey | hmem := h
    · exact Or.inl (LawfulEqOrd.eq_of_compare hkey).symm
    · exact Or.inr hmem
  · exact Or.inr h

theorem KeysApart.of_same (h : KeysApart s) (hassets : t.assetBalances = s.assetBalances)
    (hdefs : t.tokenDefinitions = s.tokenDefinitions) : KeysApart t where
  named := h.named.of_same hdefs
  own a key hkey id d hd := by
    unfold assetsOf at hkey
    rw [hassets] at hkey
    exact h.own a key hkey id d (hdefs ▸ hd)

theorem KeysApart.setAssetBalance (h : KeysApart s) {key : String}
    (hkey : ∀ (id : Hash) (d : TokenDefinition), s.tokenDefinitions[id]? = some d →
      Scanned d.tokenId key = true → key = tokenAssetKey d) (a : Address) (v : Amount) :
    KeysApart (s.setAssetBalance a key v) where
  named := h.named.of_same rfl
  own b key' hmem id d hd := by
    obtain rfl | hmem := mem_assetsOf_setAssetBalance hmem
    · exact hkey id d hd
    · exact h.own b key' hmem id d hd

/-- The key of a token that is defined. -/
theorem KeysApart.setTokenBalance (h : KeysApart s) {id : Hash} {d : TokenDefinition}
    (hd : s.tokenDefinitions[id]? = some d) (a : Address) (v : Amount) :
    KeysApart (s.setAssetBalance a (tokenAssetKey d) v) := by
  refine h.setAssetBalance (fun id' d' hd' hscanned => ?_) a v
  have hids : d'.tokenId = d.tokenId := scanned_tokenAssetKey.mp hscanned
  have hsame : id' = id := by rw [← h.named id' d' hd', ← h.named id d hd, hids]
  rw [hsame, hd] at hd'
  cases hd'
  rfl

theorem KeysApart.insertTokenDefinition (h : KeysApart s) {d : TokenDefinition}
    (hown : ∀ (a : Address) (key : String), key ∈ s.assetsOf a → Scanned d.tokenId key = true →
      key = tokenAssetKey d) : KeysApart (s.insertTokenDefinition d.tokenId d) where
  named := h.named.insert rfl
  own a key hkey id d' hd' := by
    rw [getElem?_insertTokenDefinition] at hd'
    split at hd'
    · cases hd'
      exact hown a key hkey
    · exact h.own a key hkey id d' hd'

/-- A definition that is written again, with the same key. -/
theorem KeysApart.rewrite (h : KeysApart s) {id : Hash} {d d' : TokenDefinition}
    (hd : s.tokenDefinitions[id]? = some d) (hid : d'.tokenId = d.tokenId)
    (hkey : tokenAssetKey d' = tokenAssetKey d) :
    KeysApart (s.insertTokenDefinition d.tokenId d') := by
  rw [← hid]
  refine h.insertTokenDefinition fun a key hmem hscanned => ?_
  rw [hid] at hscanned
  rw [hkey]
  exact h.own a key hmem id d hd hscanned

/-! ## 3. What each operation does to them -/

/-- **What keeps keys apart**: a new bridge mint names no asset whose key the scan for a defined
    token finds, unless it is that token's key; and when a token is created, no address holds a
    key that the scan for its id finds, unless it is its key. -/
def BringsOwnKeys (E : Env) (s : State) : Operation → Prop
  | .asset o =>
    o.kind = .mint → checkAssetOperation o = .ok () → o.operationId ∉ s.processedAssetOperations →
      ∀ (id : Hash) (d : TokenDefinition), s.tokenDefinitions[id]? = some d →
        Scanned d.tokenId o.assetId.canonicalKey = true →
          o.assetId.canonicalKey = tokenAssetKey d
  | .token o expectedOperationId =>
    let tokenId := E.crypto.tokenIdFromOperation expectedOperationId
    o.unsigned.kind = .create → ∀ (a : Address) (key : String), key ∈ s.assetsOf a →
      Scanned tokenId key = true → key = tokenAssetKey (newTokenDefinition o.unsigned tokenId)
  | _ => True

theorem mem_assetsOf_of_balance {a : Address} {key : String} (h : s.assetBalanceOf a key ≠ 0) :
    key ∈ s.assetsOf a := by
  rw [← assetsOf_getD] at h
  refine ExtTreeMap.mem_iff_isSome_getElem?.mpr (Option.isSome_iff_ne_none.mpr fun hnone => h ?_)
  rw [hnone]
  rfl

/-- A bridge operation: what is burned was there before. -/
theorem keysApart_asset {o : AssetOperation} (h : KeysApart s) (hop : BringsOwnKeys E s (.asset o))
    (happly : s.applyAssetOperation o = ⟨.ok true, t⟩) : KeysApart t := by
  obtain ⟨hcheck, hnew, ledger, balance, -, hbalance, rfl⟩ := applyAssetOperation_true happly
  have hfront : KeysApart ((s.recordAssetOperation o).setLedger ledger) := h.of_same rfl rfl
  refine hfront.setAssetBalance (fun id d hd hscanned => ?_) o.address balance
  obtain ⟨hmint, -⟩ | ⟨-, hburn⟩ := assetBalance_eq_ok hbalance
  · exact hop hmint hcheck hnew id d hd hscanned
  · have hheld : s.assetBalanceOf o.address o.assetId.canonicalKey ≠ 0 := by
      intro hzero
      have hnone : BitVec.toNat (0 : Amount) = 0 := rfl
      rw [hzero, hnone] at hburn
      exact (checkAssetOperation_eq_ok hcheck).2.1 (BitVec.eq_of_toNat_eq (by
        rw [hnone]
        omega))
    exact h.own o.address _ (mem_assetsOf_of_balance hheld) id d hd hscanned

/-- Past the fee, each kind of token operation. -/
theorem keysApart_tokenEffect {o : TokenOperation} {expectedId : Hash} (h : KeysApart s)
    (hop : BringsOwnKeys E s (.token o expectedId)) (he : TokenEffect E s o.unsigned expectedId t) :
    KeysApart t := by
  cases he with
  | createEmpty hk h0 hnew =>
    exact h.insertTokenDefinition
      (d := newTokenDefinition o.unsigned (E.crypto.tokenIdFromOperation expectedId)) (hop hk)
  | create d v hk hd hnew hv =>
    have hown := hop hk
    rw [← hd] at hown
    have hid : d.tokenId = E.crypto.tokenIdFromOperation expectedId := by rw [hd]; rfl
    rw [← hid] at hown
    have hdefined : (s.insertTokenDefinition d.tokenId d).tokenDefinitions[d.tokenId]? = some d := by
      rw [getElem?_insertTokenDefinition, if_pos rfl]
    exact (h.insertTokenDefinition hown).setTokenBalance hdefined o.unsigned.fromAddress v
  | transfer d recipient v w hk hd hto hv hw =>
    have hdebited := h.setTokenBalance hd o.unsigned.fromAddress v
    exact hdebited.setTokenBalance hd recipient w
  | mint d recipient total v hk hd htotal hcap hv =>
    have hcredited := h.setTokenBalance hd recipient v
    exact hcredited.rewrite hd rfl rfl
  | burn d total v hk hd htotal hv =>
    have hdebited := h.setTokenBalance hd o.unsigned.fromAddress v
    exact hdebited.rewrite hd rfl rfl
  | administer d d' hd hsame => exact h.rewrite hd hsame.tokenId (tokenAssetKey_congr hsame)
  | frozen accounts => exact h.of_same rfl rfl

theorem keysApart_apply (h : KeysApart s) {op : Operation} (hop : BringsOwnKeys E s op)
    (happly : s.apply E op = ⟨.ok true, t⟩) : KeysApart t := by
  cases op with
  | asset o => exact keysApart_asset h hop happly
  | token o id =>
    obtain ⟨-, -, -, charged, next, hc, ht, rfl⟩ := applyTokenOperation_true happly
    obtain ⟨balance, nonce, feePool, -, -, -, rfl⟩ := chargeTokenFee_eq_ok hc
    have hcharged : KeysApart ((s.insertAccount o.unsigned.fromAddress ⟨balance, nonce⟩).setFeePool
        feePool) := h.of_same rfl rfl
    have hnext := keysApart_tokenEffect hcharged hop (tokenEffect_eq_ok ht)
    exact hnext.of_same rfl rfl
  | mnaSwap o =>
    obtain ⟨hv, -, next, he, rfl⟩ := applyMnaSwap_true happly
    obtain ⟨_, usdc, _, _, _, -, -, rfl, -⟩ := swapEffect_eq_ok he
    have hpaid : KeysApart (s.setAssetBalance o.unsigned.fromAddress
        o.unsigned.collateralAsset.canonicalKey usdc) := by
      refine h.setAssetBalance (fun id d _ hscanned => ?_) _ _
      unfold Scanned at hscanned
      rw [Bool.and_eq_true, List.isPrefixOf_iff_prefix] at hscanned
      exact absurd hscanned.1 (not_isTokenKey_of_supportedUsdc hv.supported)
    exact hpaid.of_same rfl rfl
  | transaction tx =>
    cases Writes.of_apply happly
    exact h.of_same rfl rfl
  | mnaReserve o =>
    cases Writes.of_apply happly
    exact h.of_same rfl rfl
  | program o height =>
    cases Writes.of_apply happly
    exact h.of_same rfl rfl

theorem keysApart_next (h : KeysApart s) {op : Operation} (hop : BringsOwnKeys E s op) :
    KeysApart (s.next E op) := by
  refine next_cases (R := KeysApart) h (fun _ happly => keysApart_apply h hop happly) fun t hr => ?_
  cases hr with
  | assetMoved o ledger hc hn =>
    have hrecorded : KeysApart ((s.recordAssetOperation o).setLedger ledger) := h.of_same rfl rfl
    refine ⟨hrecorded.named.of_same rfl, fun a key hkey => ?_⟩
    refine hrecorded.own a key ?_
    unfold assetsOf at hkey ⊢
    rw [insertAssets_assetBalances, ExtTreeMap.getElem?_insert] at hkey
    split at hkey
    · rename_i ha
      rw [← LawfulEqOrd.eq_of_compare ha]
      exact hkey
    · exact hkey
  | faucet t balance hf hv hp hb => exact h.of_same rfl rfl
  | assetRecorded o hc hn => exact h.of_same rfl rfl
  | mnaSwap o hv hn => exact h.of_same rfl rfl
  | mnaReserve o hv hn => exact h.of_same rfl rfl

/-! ## 4. The result -/

theorem fromGenesis_keysApart {genesis : GenesisConfig} (h : fromGenesis genesis = .ok s) :
    KeysApart s := by
  have hnamed : TokensNamed s := (fromGenesis_supplyBalanced h).ids
  obtain ⟨accounts, rfl⟩ := fromGenesis_eq_ok h
  exact ⟨hnamed, fun a key hkey => absurd hkey ExtTreeMap.not_mem_empty⟩

/-- **Both lookups of a token's balance agree** in every state of a run whose operations keep the
    keys apart. -/
theorem token_lookups_agree {genesis : GenesisConfig} (hg : fromGenesis genesis = .ok s)
    {ops : List Operation} (hops : EachStep (next E) (BringsOwnKeys E) s ops) :
    ∀ pre, pre <+: ops → ∀ (a : Address) (id : Hash) (d : TokenDefinition),
      (runs (next E) s pre).tokenDefinitions[id]? = some d →
        (runs (next E) s pre).tokenBalanceOf a d.tokenId =
          (runs (next E) s pre).tokenBalance a d := by
  have hapart : Throughout (next E) KeysApart s ops :=
    hops.throughout (P := KeysApart) (fun _ _ hop h => keysApart_next h hop)
      (fromGenesis_keysApart hg)
  intro pre hpre a id d hd
  have hstate := throughout_iff.mp hapart pre hpre
  exact tokenBalanceOf_eq fun key hkey => hstate.own a key hkey id d hd

end State

/-! ## 5. Another key for a token's id -/

namespace Sample

/-- An asset of the bridge whose key the scan for the created token finds first. -/
def besideToken : AssetId :=
  .wrapped "intertrain" "" ("token:" ++ (createdToken 500 1000).toHex) 9

def bridgedBeside : List Operation :=
  [createToken 500 1000, .asset (bridge .mint 1 besideToken 7)]

/-- USDC of the bridge, beside the token. -/
def usdcBeside : List Operation := [createToken 500 1000, .asset (bridge .mint 1 usdc 7)]

end Sample

namespace State

/-- Five hundred of a new token, beside seven of an asset of the bridge. -/
theorem token_lookups_agree_beside :
    let t := runs (next .standIn) (Sample.genesisState 1) Sample.usdcBeside
    ∃ d : TokenDefinition, t.tokenDefinitions[Sample.createdToken 500 1000]? = some d ∧
      t.tokenBalanceOf Sample.address d.tokenId = t.tokenBalance Sample.address d ∧
      t.assetBalanceOf Sample.address Sample.usdc.canonicalKey = 7 := by
  intro t
  have hsome : (t.tokenDefinitions[Sample.createdToken 500 1000]?).isSome = true ∧
      t.assetBalanceOf Sample.address Sample.usdc.canonicalKey = 7 := by
    decide +kernel
  have hbeside : BringsOwnKeys .standIn
      (next .standIn (Sample.genesisState 1) (Sample.createToken 500 1000))
      (.asset (Sample.bridge .mint 1 Sample.usdc 7)) := by
    have hunscanned : ∀ e ∈ (next .standIn (Sample.genesisState 1)
        (Sample.createToken 500 1000)).tokenDefinitions.toList,
          Scanned e.2.tokenId Sample.usdc.canonicalKey = false := by
      decide +kernel
    intro _ _ _ id e he hscan
    have hno := hunscanned (id, e) (ExtTreeMap.mem_toList_iff_getElem?_eq_some.mpr he)
    exact absurd (hno.symm.trans hscan) Bool.false_ne_true
  obtain ⟨d, hd⟩ := Option.isSome_iff_exists.mp hsome.1
  refine ⟨d, hd, token_lookups_agree (Sample.fromGenesis_genesis 1) ?_ _ (List.prefix_refl _)
    Sample.address _ d hd, hsome.2⟩
  exact ⟨fun _ a key hkey => absurd hkey ExtTreeMap.not_mem_empty, hbeside, trivial⟩

/-- **An asset of the bridge is shown as the token's balance.** -/
theorem bridged_key_shown :
    let t := runs (next .standIn) (Sample.genesisState 1) Sample.bridgedBeside
    fromGenesis (Sample.genesis 1) = .ok (Sample.genesisState 1) ∧
    ∃ d : TokenDefinition, t.tokenDefinitions[Sample.createdToken 500 1000]? = some d ∧
      t.tokenBalanceOf Sample.address d.tokenId = 7 ∧ t.tokenBalance Sample.address d = 500 := by
  intro t
  have hsome : (t.tokenDefinitions[Sample.createdToken 500 1000]?).isSome = true := by
    decide +kernel
  have hlookups : (t.tokenDefinitions[Sample.createdToken 500 1000]?).all fun d =>
      t.tokenBalanceOf Sample.address d.tokenId == 7 && t.tokenBalance Sample.address d == 500 := by
    decide +kernel
  obtain ⟨d, hd⟩ := Option.isSome_iff_exists.mp hsome
  rw [hd, Option.all_some, Bool.and_eq_true, beq_iff_eq, beq_iff_eq] at hlookups
  exact ⟨Sample.fromGenesis_genesis 1, d, hd, hlookups⟩

end State

end WorldstreetChain
