import WorldstreetChain.State.TokenSupply

/-!
# Who may change a token

A token's balances, supply, rights and frozen accounts change by signed token operations only, and
each of them only by the signer its rule names. Bridge operations are left out: their keys are the
subject of `State/Buckets.lean`.

* `State.TokenStep` -- **the rule of one operation** for one token.
* `State.tokenEffect_step` -- each kind of token operation obeys it.
* `State.token_authority` -- **every successful operation in a reachable state obeys it**.
-/

namespace WorldstreetChain

open Std

namespace State

variable {E : Env} {s t : State}

/-! ## 1. The rule -/

/-- `token_balance`. -/
def tokenBalance (s : State) (address : Address) (token : TokenDefinition) : Amount :=
  s.assetBalanceOf address (tokenAssetKey token)

/-- The operation names `a` as its signer, under a key of `a` that its signature verifies for. -/
def SignedBy (E : Env) (o : TokenOperation) (a : Address) : Prop :=
  o.unsigned.fromAddress = a ∧ E.crypto.addressFromPublicKey o.unsigned.publicKey = a ∧
    E.crypto.verify o.unsigned.publicKey o.signingBytes o.signature = true

/-- A token operation on token `id` of one of the kinds, signed by `a`. -/
def ActsOn (E : Env) (op : Operation) (id : Hash) (kinds : List TokenOperationKind)
    (a : Address) : Prop :=
  ∃ o expectedId, op = .token o expectedId ∧ o.unsigned.tokenId = id ∧ o.unsigned.kind ∈ kinds ∧
    SignedBy E o a

/-- The rights and the metadata of a token. -/
def administered (d : TokenDefinition) :
    Option Address × Option Address × Option Address × Bool × String × Hash :=
  (d.mintAuthority, d.burnAuthority, d.freezeAuthority, d.paused, d.metadataUri, d.metadataHash)

/-- **The rule of one operation** for a token whose definition it finds as `d` and leaves as
    `d'`. -/
structure TokenStep (E : Env) (s : State) (op : Operation) (t : State) (id : Hash)
    (d d' : TokenDefinition) : Prop where
  identity : d'.tokenId = d.tokenId ∧ d'.creator = d.creator ∧ d'.name = d.name ∧
    d'.symbol = d.symbol ∧ d'.decimals = d.decimals ∧ d'.maxSupply = d.maxSupply
  debit : ∀ a, (t.tokenBalance a d').toNat < (s.tokenBalance a d).toNat →
    ActsOn E op id [.transfer, .burn] a
  supply : d.totalSupply.toNat < d'.totalSupply.toNat →
    ∃ a, d.mintAuthority = some a ∧ ActsOn E op id [.mint] a
  rights : administered d' ≠ administered d →
    ActsOn E op id [.setAuthorities, .pause, .unpause, .updateMetadata] d.creator
  freezing : ∀ a, t.isTokenAccountFrozen id a ≠ s.isTokenAccountFrozen id a →
    ∃ f, d.freezeAuthority = some f ∧ ActsOn E op id [.freeze, .unfreeze] f
  still : ∀ a, d.paused = true ∨ s.isTokenAccountFrozen id a = true →
    t.tokenBalance a d' = s.tokenBalance a d

/-- What leaves a token's balances and frozen accounts alone obeys the rule. -/
theorem TokenStep.of_same {op : Operation} {id : Hash} {d : TokenDefinition}
    (hfrozen : ∀ a, t.isTokenAccountFrozen id a = s.isTokenAccountFrozen id a)
    (hbalance : ∀ a, t.tokenBalance a d = s.tokenBalance a d) : TokenStep E s op t id d d where
  identity := ⟨rfl, rfl, rfl, rfl, rfl, rfl⟩
  debit a h := by
    rw [hbalance] at h
    exact absurd h (Nat.lt_irrefl _)
  supply h := absurd h (Nat.lt_irrefl _)
  rights h := absurd rfl h
  freezing a h := absurd (hfrozen a) h
  still a _ := hbalance a

/-- The rule is about token definitions, asset balances and frozen accounts. -/
theorem TokenStep.congr {s' t' : State} {op : Operation} {id : Hash} {d d' : TokenDefinition}
    (h : TokenStep E s op t id d d') (hs : s'.assetBalances = s.assetBalances)
    (hsf : s'.frozenTokenAccounts = s.frozenTokenAccounts)
    (ht : t'.assetBalances = t.assetBalances)
    (htf : t'.frozenTokenAccounts = t.frozenTokenAccounts) : TokenStep E s' op t' id d d' := by
  have hbs : ∀ a d, s'.tokenBalance a d = s.tokenBalance a d := fun a d => by
    simp only [tokenBalance, assetBalanceOf, hs]
  have hbt : ∀ a d, t'.tokenBalance a d = t.tokenBalance a d := fun a d => by
    simp only [tokenBalance, assetBalanceOf, ht]
  have hfs : ∀ a, s'.isTokenAccountFrozen id a = s.isTokenAccountFrozen id a := fun a => by
    simp only [isTokenAccountFrozen, hsf]
  have hft : ∀ a, t'.isTokenAccountFrozen id a = t.isTokenAccountFrozen id a := fun a => by
    simp only [isTokenAccountFrozen, htf]
  obtain ⟨hi, hd, hsu, hr, hf, hst⟩ := h
  refine ⟨hi, fun a => ?_, hsu, hr, fun a => ?_, fun a => ?_⟩
  · rw [hbs, hbt]
    exact hd a
  · rw [hfs, hft]
    exact hf a
  · rw [hbs, hbt, hfs]
    exact hst a

/-! ## 2. Definitions are found under their own id -/

/-- Every definition is filed under its token id. -/
def TokensNamed (s : State) : Prop :=
  ∀ (id : Hash) (d : TokenDefinition), s.tokenDefinitions[id]? = some d → d.tokenId = id

theorem TokensNamed.of_same (h : TokensNamed s)
    (hdefs : t.tokenDefinitions = s.tokenDefinitions) : TokensNamed t :=
  fun id d hd => h id d (hdefs ▸ hd)

theorem getElem?_insertTokenDefinition (s : State) (key id : Hash) (d : TokenDefinition) :
    (s.insertTokenDefinition key d).tokenDefinitions[id]? =
      if id = key then some d else s.tokenDefinitions[id]? := by
  rw [insertTokenDefinition_tokenDefinitions, ExtTreeMap.getElem?_insert]
  by_cases hid : id = key
  · rw [if_pos hid, if_pos (by rw [hid]; exact compare_self)]
  · rw [if_neg hid, if_neg fun hc => hid (LawfulEqOrd.eq_of_compare hc).symm]

theorem TokensNamed.insert (h : TokensNamed s) {d : TokenDefinition}
    (hdefs : t.tokenDefinitions = (s.insertTokenDefinition d.tokenId d).tokenDefinitions) :
    TokensNamed t := by
  intro id x hx
  rw [hdefs, getElem?_insertTokenDefinition] at hx
  by_cases hid : id = d.tokenId
  · rw [if_pos hid] at hx
    cases hx
    exact hid.symm
  · rw [if_neg hid] at hx
    exact h id x hx

theorem TokensNamed.tokenEffect (h : TokensNamed s) {u : UnsignedTokenOperation} {id : Hash}
    (he : TokenEffect E s u id t) : TokensNamed t := by
  cases he with
  | createEmpty hk h0 hnew =>
    exact h.insert (d := newTokenDefinition u (E.crypto.tokenIdFromOperation id)) rfl
  | create d v hk hd hnew hv => exact h.insert (d := d) rfl
  | transfer d recipient v w hk hd hto hv hw => exact h.of_same rfl
  | mint d recipient total v hk hd htotal hcap hv =>
    exact h.insert (d := { d with totalSupply := total }) rfl
  | burn d total v hk hd htotal hv => exact h.insert (d := { d with totalSupply := total }) rfl
  | administer d d' hd hsame => exact h.insert (d := d') (by rw [hsame.tokenId])
  | frozen accounts => exact h.of_same rfl

theorem tokensNamed_apply (hs : TokensNamed s) {op : Operation}
    (h : s.apply E op = ⟨.ok true, t⟩) : TokensNamed t := by
  by_cases hop : ∃ o id, op = .token o id
  · obtain ⟨o, id, rfl⟩ := hop
    obtain ⟨-, -, -, charged, next, hc, ht, rfl⟩ := applyTokenOperation_true h
    have hcharged : TokensNamed charged := by
      obtain ⟨_, _, _, -, -, -, rfl⟩ := chargeTokenFee_eq_ok hc
      exact hs.of_same rfl
    have hnext : TokensNamed next := hcharged.tokenEffect (tokenEffect_eq_ok ht)
    exact hnext.of_same rfl
  · have hno : ∀ o id, op ≠ .token o id := fun o id he => hop ⟨o, id, he⟩
    exact hs.of_same ((Writes.of_apply h).tokens hno).1

theorem tokensNamed_next (hs : TokensNamed s) (op : Operation) : TokensNamed (s.next E op) :=
  next_cases (R := TokensNamed) hs (fun _ h => tokensNamed_apply hs h) fun t hr => by
    cases hr <;> exact hs.of_same rfl

/-- **In every reachable state** each definition is filed under its id. -/
theorem tokensNamed_runs {genesis : GenesisConfig} (hg : fromGenesis genesis = .ok s)
    (ops : List Operation) : TokensNamed (runs (next E) s ops) := by
  have h0 : TokensNamed s := (fromGenesis_supplyBalanced hg).ids
  clear hg
  induction ops generalizing s with
  | nil => exact h0
  | cons op ops ih => exact ih (tokensNamed_next h0 op)

/-! ## 3. Each kind of token operation -/

section Kinds

variable {o : TokenOperation} {expectedId id : Hash} {d : TokenDefinition}

theorem ensureTokenTransferable_eq_ok {token : TokenDefinition} {a b : Address} {x : Unit}
    (h : s.ensureTokenTransferable token a b = .ok x) :
    token.paused = false ∧ s.isTokenAccountFrozen token.tokenId a = false ∧
      s.isTokenAccountFrozen token.tokenId b = false := by
  unfold ensureTokenTransferable at h
  simp only [rejectIf_bind_eq_ok, not_or, Bool.not_eq_true] at h
  exact ⟨h.1, h.2.1.1, h.2.1.2⟩

/-- Balances of one token are not balances of another. -/
theorem tokenBalance_setAssetBalance_of_ne {d0 : TokenDefinition} (hne : d.tokenId ≠ d0.tokenId)
    (a b : Address) (v : Amount) :
    (s.setAssetBalance b (tokenAssetKey d0) v).tokenBalance a d = s.tokenBalance a d := by
  have hkey : tokenAssetKey d0 ≠ tokenAssetKey d := fun hk =>
    hne (AssetId.canonicalKey_custom_inj hk).symm
  rw [tokenBalance, assetBalanceOf_setAssetBalance, if_neg fun hc => hkey hc.2, tokenBalance]

theorem tokenBalance_setAssetBalance (d : TokenDefinition) (a b : Address) (v : Amount) :
    (s.setAssetBalance b (tokenAssetKey d) v).tokenBalance a d =
      if b = a then v else s.tokenBalance a d := by
  rw [tokenBalance, assetBalanceOf_setAssetBalance]
  by_cases hb : b = a
  · rw [if_pos hb, if_pos ⟨hb, rfl⟩]
  · rw [if_neg hb, if_neg fun hc => hb hc.1, tokenBalance]

theorem tokenCreate_step (hn : TokensNamed s) (h : s.tokenCreate E o.unsigned expectedId = .ok t)
    (hd : s.tokenDefinitions[id]? = some d) :
    ∃ d', t.tokenDefinitions[id]? = some d' ∧
      TokenStep E s (.token o expectedId) t id d d' := by
  unfold tokenCreate at h
  simp only [rejectIf_bind_eq_ok] at h
  obtain ⟨hnew, h⟩ := h
  have hne : id ≠ E.crypto.tokenIdFromOperation expectedId := by
    rintro rfl
    rw [ExtTreeMap.mem_iff_isSome_getElem?, hd] at hnew
    exact hnew rfl
  let d0 := newTokenDefinition o.unsigned (E.crypto.tokenIdFromOperation expectedId)
  have hid : d.tokenId ≠ d0.tokenId := (hn id d hd).symm ▸ hne
  split at h
  · obtain ⟨v, -, rfl⟩ := adjustTokenBalance_add h
    refine ⟨d, ?_, .of_same (fun _ => rfl) fun a => ?_⟩
    · show (s.insertTokenDefinition _ _).tokenDefinitions[id]? = some d
      rw [getElem?_insertTokenDefinition, if_neg hne, hd]
    · exact tokenBalance_setAssetBalance_of_ne (s := s.insertTokenDefinition _ _) hid a _ v
  · cases h
    refine ⟨d, ?_, .of_same (fun _ => rfl) fun _ => rfl⟩
    rw [getElem?_insertTokenDefinition, if_neg hne, hd]

theorem tokenTransfer_step (hn : TokensNamed s) (hsig : SignedBy E o o.unsigned.fromAddress)
    (hk : o.unsigned.kind = .transfer) (h : s.tokenTransfer o.unsigned = .ok t)
    (hd : s.tokenDefinitions[id]? = some d) :
    ∃ d', t.tokenDefinitions[id]? = some d' ∧
      TokenStep E s (.token o expectedId) t id d d' := by
  unfold tokenTransfer at h
  simp only [orFail_bind_eq_ok] at h
  obtain ⟨d0, hd0, recipient, -, h⟩ := h
  obtain ⟨⟨⟩, hallow, h⟩ := Outcome.bind_eq_ok.mp h
  obtain ⟨s1, h1, h⟩ := Outcome.bind_eq_ok.mp h
  obtain ⟨v, hv, rfl⟩ := adjustTokenBalance_sub h1
  obtain ⟨w, hw, rfl⟩ := adjustTokenBalance_add h
  obtain ⟨hpaused, hfrom, hto⟩ := ensureTokenTransferable_eq_ok hallow
  refine ⟨d, hd, ?_⟩
  by_cases hid : id = o.unsigned.tokenId
  · obtain rfl : d = d0 := by
      rw [hid, hd0] at hd
      exact (Option.some.inj hd).symm
    have hname : d.tokenId = id := hn id d hd
    rw [hname] at hfrom hto
    -- the recipient's balance as the transfer finds it, after the debit
    have hmid := tokenBalance_setAssetBalance (s := s) d recipient o.unsigned.fromAddress v
    have hw' : w.toNat = (if o.unsigned.fromAddress = recipient then v
        else s.tokenBalance recipient d).toNat + o.unsigned.amount.toNat := by
      rw [← hmid]
      exact hw
    have hv' : (s.tokenBalance o.unsigned.fromAddress d).toNat =
        o.unsigned.amount.toNat + v.toNat := hv
    have hbal : ∀ a, ((s.setAssetBalance o.unsigned.fromAddress (tokenAssetKey d)
        v).setAssetBalance recipient (tokenAssetKey d) w).tokenBalance a d =
          if recipient = a then w else if o.unsigned.fromAddress = a then v
            else s.tokenBalance a d := fun a => by
      rw [tokenBalance_setAssetBalance, tokenBalance_setAssetBalance]
    refine ⟨⟨rfl, rfl, rfl, rfl, rfl, rfl⟩, fun a ha => ?_, fun hs => absurd hs (Nat.lt_irrefl _),
      fun hr => absurd rfl hr, fun a ha => absurd rfl ha, fun a ha => ?_⟩
    · rw [hbal] at ha
      by_cases hra : recipient = a
      · subst hra
        rw [if_pos rfl] at ha
        by_cases hfa : o.unsigned.fromAddress = recipient
        · rw [if_pos hfa] at hw'
          rw [hfa] at hv'
          omega
        · rw [if_neg hfa] at hw'
          omega
      · rw [if_neg hra] at ha
        by_cases hfa : o.unsigned.fromAddress = a
        · refine ⟨o, expectedId, rfl, hid.symm, by simp [hk], ?_⟩
          rw [← hfa]
          exact hsig
        · rw [if_neg hfa] at ha
          exact absurd ha (Nat.lt_irrefl _)
    · rcases ha with hp | hf
      · rw [hpaused] at hp
        cases hp
      · have hra : recipient ≠ a := by
          rintro rfl
          rw [hto] at hf
          cases hf
        have hfa : o.unsigned.fromAddress ≠ a := by
          rintro rfl
          rw [hfrom] at hf
          cases hf
        rw [hbal, if_neg hra, if_neg hfa]
  · have hne : d.tokenId ≠ d0.tokenId := by
      rw [hn id d hd, hn _ d0 hd0]
      exact hid
    refine .of_same (fun _ => rfl) fun a => ?_
    rw [tokenBalance_setAssetBalance_of_ne hne, tokenBalance_setAssetBalance_of_ne hne]

/-- A mint and a burn write one balance and the supply of their token, which is not paused and
    whose account is not frozen. -/
theorem supplyChange_step (hn : TokensNamed s) {d0 : TokenDefinition} {holder : Address}
    {total v : Amount} (hd0 : s.tokenDefinitions[o.unsigned.tokenId]? = some d0)
    (hpaused : d0.paused = false)
    (hfrozen : s.isTokenAccountFrozen d0.tokenId holder = false)
    (hdebit : v.toNat < (s.tokenBalance holder d0).toNat →
      ActsOn E (.token o expectedId) o.unsigned.tokenId [.transfer, .burn] holder)
    (hsupply : d0.totalSupply.toNat < total.toNat →
      ∃ a, d0.mintAuthority = some a ∧
        ActsOn E (.token o expectedId) o.unsigned.tokenId [.mint] a)
    (ht : t = (s.setAssetBalance holder (tokenAssetKey d0) v).insertTokenDefinition d0.tokenId
      { d0 with totalSupply := total })
    (hd : s.tokenDefinitions[id]? = some d) :
    ∃ d', t.tokenDefinitions[id]? = some d' ∧
      TokenStep E s (.token o expectedId) t id d d' := by
  have hname := hn _ d0 hd0
  have hget : t.tokenDefinitions[id]? =
      if id = d0.tokenId then some { d0 with totalSupply := total }
      else s.tokenDefinitions[id]? := by
    rw [ht]
    exact getElem?_insertTokenDefinition _ _ _ _
  by_cases hid : id = o.unsigned.tokenId
  · obtain rfl : d = d0 := by
      rw [hid, hd0] at hd
      exact (Option.some.inj hd).symm
    have hbal : ∀ a, t.tokenBalance a { d with totalSupply := total } =
        if holder = a then v else s.tokenBalance a d := fun a => by
      rw [ht]
      exact tokenBalance_setAssetBalance d a holder v
    refine ⟨{ d with totalSupply := total }, ?_, ⟨rfl, rfl, rfl, rfl, rfl, rfl⟩, fun a ha => ?_,
      fun hs => ?_, fun hr => absurd rfl hr, fun a ha => absurd ?_ ha, fun a ha => ?_⟩
    · rw [hget, if_pos (hid.trans hname.symm)]
    · rw [hbal] at ha
      by_cases hha : holder = a
      · subst hha
        rw [if_pos rfl] at ha
        rw [hid]
        exact hdebit ha
      · rw [if_neg hha] at ha
        exact absurd ha (Nat.lt_irrefl _)
    · rw [hid]
      exact hsupply hs
    · rw [ht]
      rfl
    · rcases ha with hp | hf
      · rw [hpaused] at hp
        cases hp
      · have hha : holder ≠ a := by
          rintro rfl
          rw [hname, ← hid, hf] at hfrozen
          cases hfrozen
        rw [hbal, if_neg hha]
  · have hne : d.tokenId ≠ d0.tokenId := by
      rw [hn id d hd, hname]
      exact hid
    refine ⟨d, ?_, .of_same (fun a => ?_) fun a => ?_⟩
    · rw [hget, if_neg (hname ▸ hid), hd]
    · rw [ht]
      rfl
    · rw [ht]
      exact tokenBalance_setAssetBalance_of_ne hne a holder v

theorem tokenMint_step (hn : TokensNamed s) (hsig : SignedBy E o o.unsigned.fromAddress)
    (hk : o.unsigned.kind = .mint) (h : s.tokenMint o.unsigned = .ok t)
    (hd : s.tokenDefinitions[id]? = some d) :
    ∃ d', t.tokenDefinitions[id]? = some d' ∧
      TokenStep E s (.token o expectedId) t id d d' := by
  unfold tokenMint at h
  simp only [orFail_bind_eq_ok, rejectIf_bind_eq_ok, Unsigned.checkedAdd_eq_some, not_not,
    Bool.not_eq_true] at h
  obtain ⟨d0, hd0, hauth, recipient, -, hpaused, hfrozen, total, -, -, h⟩ := h
  obtain ⟨s1, h1, h⟩ := Outcome.bind_eq_ok.mp h
  obtain ⟨v, hv, rfl⟩ := adjustTokenBalance_add h1
  have hv' : v.toNat = (s.tokenBalance recipient d0).toNat + o.unsigned.amount.toNat := hv
  refine supplyChange_step hn hd0 hpaused hfrozen (fun hlt => ?_) (fun _ => ?_)
    (Except.ok.inj h).symm hd
  · omega
  · exact ⟨o.unsigned.fromAddress, hauth, o, expectedId, rfl, rfl, by simp [hk], hsig⟩

theorem tokenBurn_step (hn : TokensNamed s) (hsig : SignedBy E o o.unsigned.fromAddress)
    (hk : o.unsigned.kind = .burn) (h : s.tokenBurn o.unsigned = .ok t)
    (hd : s.tokenDefinitions[id]? = some d) :
    ∃ d', t.tokenDefinitions[id]? = some d' ∧
      TokenStep E s (.token o expectedId) t id d d' := by
  unfold tokenBurn at h
  obtain ⟨d0, hd0, h⟩ := orFail_bind_eq_ok.mp h
  obtain ⟨⟨⟩, hallow, h⟩ := Outcome.bind_eq_ok.mp h
  obtain ⟨s1, h1, h⟩ := Outcome.bind_eq_ok.mp h
  obtain ⟨v, -, rfl⟩ := adjustTokenBalance_sub h1
  simp only [orFail_bind_eq_ok, Unsigned.checkedSub_eq_some, Except.ok.injEq] at h
  obtain ⟨total, htotal, h⟩ := h
  obtain ⟨hpaused, hfrom, -⟩ := ensureTokenTransferable_eq_ok hallow
  refine supplyChange_step hn hd0 hpaused hfrom (fun _ => ?_) (fun hlt => ?_) h.symm hd
  · exact ⟨o, expectedId, rfl, rfl, by simp [hk], hsig⟩
  · omega

/-- The kinds that rewrite a definition's other fields are the creator's. -/
theorem tokenAdminister_step (hn : TokensNamed s) (hsig : SignedBy E o o.unsigned.fromAddress)
    (hk : o.unsigned.kind ∈ [.setAuthorities, .pause, .unpause, .updateMetadata])
    (h : s.tokenSetAuthorities o.unsigned = .ok t ∨ s.tokenPause o.unsigned = .ok t ∨
      s.tokenUpdateMetadata o.unsigned = .ok t)
    (hd : s.tokenDefinitions[id]? = some d) :
    ∃ d', t.tokenDefinitions[id]? = some d' ∧
      TokenStep E s (.token o expectedId) t id d d' := by
  have hwrite : ∃ d0 d1 : TokenDefinition, s.tokenDefinitions[o.unsigned.tokenId]? = some d0 ∧
      d0.creator = o.unsigned.fromAddress ∧ SameSupply d0 d1 ∧
      (d1.creator = d0.creator ∧ d1.name = d0.name) ∧
      t = s.insertTokenDefinition d0.tokenId d1 := by
    unfold tokenSetAuthorities tokenPause tokenUpdateMetadata at h
    simp only [orFail_bind_eq_ok, rejectIf_bind_eq_ok, Except.ok.injEq, not_or, not_not] at h
    rcases h with ⟨d0, hd0, hc, rfl⟩ | ⟨d0, hd0, hc, rfl⟩ | ⟨d0, hd0, ⟨hc, -⟩, rfl⟩
    all_goals
      refine ⟨d0, _, hd0, hc, ?_, ?_, rfl⟩
      · exact ⟨rfl, rfl, rfl, rfl, rfl⟩
      · exact ⟨rfl, rfl⟩
  obtain ⟨d0, d1, hd0, hc, hsame, ⟨hcreator, hnm⟩, rfl⟩ := hwrite
  have hname := hn _ d0 hd0
  by_cases hid : id = o.unsigned.tokenId
  · obtain rfl : d = d0 := by
      rw [hid, hd0] at hd
      exact (Option.some.inj hd).symm
    have hbal : ∀ a, (s.insertTokenDefinition d.tokenId d1).tokenBalance a d1 =
        s.tokenBalance a d := fun a => by
      rw [tokenBalance, tokenAssetKey_congr hsame]
      rfl
    refine ⟨d1, ?_, ⟨hsame.tokenId, hcreator, hnm, hsame.symbol, hsame.decimals, hsame.maxSupply⟩,
      fun a ha => ?_, fun hs => ?_, fun _ => ?_, fun a ha => absurd rfl ha, fun a _ => hbal a⟩
    · rw [getElem?_insertTokenDefinition, if_pos (hid.trans hname.symm)]
    · rw [hbal] at ha
      exact absurd ha (Nat.lt_irrefl _)
    · rw [hsame.totalSupply] at hs
      exact absurd hs (Nat.lt_irrefl _)
    · refine ⟨o, expectedId, rfl, hid.symm, hk, ?_⟩
      rw [hc]
      exact hsig
  · refine ⟨d, ?_, .of_same (fun _ => rfl) fun _ => rfl⟩
    rw [getElem?_insertTokenDefinition, if_neg (hname ▸ hid), hd]

theorem tokenFreeze_step (hn : TokensNamed s) (hsig : SignedBy E o o.unsigned.fromAddress)
    (hk : o.unsigned.kind ∈ [.freeze, .unfreeze]) (h : s.tokenFreeze o.unsigned = .ok t)
    (hd : s.tokenDefinitions[id]? = some d) :
    ∃ d', t.tokenDefinitions[id]? = some d' ∧
      TokenStep E s (.token o expectedId) t id d d' := by
  unfold tokenFreeze at h
  simp only [orFail_bind_eq_ok, rejectIf_bind_eq_ok, Except.ok.injEq, not_not] at h
  obtain ⟨d0, hd0, hauth, recipient, -, rfl⟩ := h
  have hname := hn _ d0 hd0
  refine ⟨d, hd, ⟨rfl, rfl, rfl, rfl, rfl, rfl⟩, fun a ha => absurd ha (Nat.lt_irrefl _),
    fun hs => absurd hs (Nat.lt_irrefl _), fun hr => absurd rfl hr, fun a ha => ?_, fun a _ => rfl⟩
  by_cases hid : id = o.unsigned.tokenId
  · obtain rfl : d = d0 := by
      rw [hid, hd0] at hd
      exact (Option.some.inj hd).symm
    exact ⟨o.unsigned.fromAddress, hauth, o, expectedId, rfl, hid.symm, hk, hsig⟩
  · -- the entry written is another token's
    have hpair : ∀ b, (d0.tokenId, b) ≠ (id, a) := fun b he =>
      hid ((congrArg Prod.fst he).symm.trans hname)
    have hne : (compare (d0.tokenId, recipient) (id, a) == .eq) = false := by
      refine Bool.eq_false_iff.mpr fun hc => hpair recipient (LawfulEqOrd.eq_of_compare ?_)
      exact eq_of_beq hc
    refine absurd ?_ ha
    simp only [isTokenAccountFrozen, setFrozenTokenAccounts]
    split
    · rw [ExtTreeSet.contains_insert, hne, Bool.false_or]
    · rw [ExtTreeSet.contains_erase, bne, hne, Bool.not_false, Bool.true_and]

/-- **Every kind obeys the rule.** -/
theorem tokenEffect_step (hn : TokensNamed s) (hsig : SignedBy E o o.unsigned.fromAddress)
    (h : s.tokenEffect E o.unsigned expectedId = .ok t)
    (hd : s.tokenDefinitions[id]? = some d) :
    ∃ d', t.tokenDefinitions[id]? = some d' ∧
      TokenStep E s (.token o expectedId) t id d d' := by
  unfold State.tokenEffect at h
  split at h
  case h_1 hk => exact tokenCreate_step hn h hd
  case h_2 hk => exact tokenTransfer_step hn hsig hk h hd
  case h_3 hk => exact tokenMint_step hn hsig hk h hd
  case h_4 hk => exact tokenBurn_step hn hsig hk h hd
  case h_5 hk => exact tokenAdminister_step hn hsig (by simp [hk]) (Or.inl h) hd
  case h_6 hk => exact tokenFreeze_step hn hsig (by simp [hk]) h hd
  case h_7 hk => exact tokenFreeze_step hn hsig (by simp [hk]) h hd
  case h_8 hk => exact tokenAdminister_step hn hsig (by simp [hk]) (Or.inr (Or.inl h)) hd
  case h_9 hk => exact tokenAdminister_step hn hsig (by simp [hk]) (Or.inr (Or.inl h)) hd
  case h_10 hk => exact tokenAdminister_step hn hsig (by simp [hk]) (Or.inr (Or.inr h)) hd

end Kinds

/-! ## 4. Every operation -/

/-- A successful operation other than a bridge operation obeys the rule, where the definitions are
    filed under their ids. -/
theorem apply_tokenStep (hn : TokensNamed s) {op : Operation} (hop : ∀ o, op ≠ .asset o)
    (h : s.apply E op = ⟨.ok true, t⟩) {id : Hash} {d : TokenDefinition}
    (hd : s.tokenDefinitions[id]? = some d) :
    ∃ d', t.tokenDefinitions[id]? = some d' ∧ TokenStep E s op t id d d' := by
  have hsame : (∀ o eid, op ≠ .token o eid) → (∀ a, t.tokenBalance a d = s.tokenBalance a d) →
      ∃ d', t.tokenDefinitions[id]? = some d' ∧ TokenStep E s op t id d d' := by
    intro hno hbal
    obtain ⟨hdefs, hfrozen⟩ := (Writes.of_apply h).tokens hno
    refine ⟨d, hdefs ▸ hd, .of_same (fun a => ?_) hbal⟩
    rw [isTokenAccountFrozen, hfrozen, isTokenAccountFrozen]
  cases op with
  | transaction tx =>
    refine hsame (by simp) fun a => ?_
    obtain ⟨_, h, -⟩ := Applied.map_eq_ok.mp h
    obtain ⟨-, -, ⟨-, hx⟩ | ⟨-, total, -, hx⟩⟩ := applyTransaction_eq_ok h
    · obtain ⟨-, _, _, -, -, rfl⟩ := faucetTransfer_eq_ok hx
      rfl
    · obtain ⟨_, _, _, -, -, -, ⟨-, _, -, rfl⟩ | ⟨-, _, -, rfl⟩⟩ := transfer_eq_ok hx
      · rfl
      · rfl
  | asset o => exact absurd rfl (hop o)
  | token o eid =>
    obtain ⟨hv, -, -, charged, next, hc, ht, rfl⟩ := applyTokenOperation_true h
    have hsig : SignedBy E o o.unsigned.fromAddress := ⟨rfl, hv.derives, hv.signed⟩
    have hfields : charged.tokenDefinitions = s.tokenDefinitions ∧
        charged.assetBalances = s.assetBalances ∧
        charged.frozenTokenAccounts = s.frozenTokenAccounts := by
      obtain ⟨_, _, _, -, -, -, rfl⟩ := chargeTokenFee_eq_ok hc
      exact ⟨rfl, rfl, rfl⟩
    obtain ⟨hdefs, hassets, hfrozen⟩ := hfields
    obtain ⟨d', hd', hstep⟩ := tokenEffect_step (hn.of_same hdefs) hsig ht (hdefs ▸ hd)
    exact ⟨d', hd', hstep.congr hassets.symm hfrozen.symm rfl rfl⟩
  | mnaSwap o =>
    refine hsame (by simp) fun a => ?_
    obtain ⟨hv, -, next, he, rfl⟩ := applyMnaSwap_true h
    obtain ⟨_, usdc, _, _, _, -, -, rfl, -⟩ := swapEffect_eq_ok he
    have hkey : o.unsigned.collateralAsset.canonicalKey ≠ tokenAssetKey d := fun hk =>
      not_isTokenKey_of_supportedUsdc hv.supported (hk ▸ isTokenKey_tokenAssetKey d)
    have hset := assetBalanceOf_setAssetBalance (s := s) o.unsigned.fromAddress a
      o.unsigned.collateralAsset.canonicalKey (tokenAssetKey d) usdc
    rw [if_neg fun hc => hkey hc.2] at hset
    exact hset
  | mnaReserve o =>
    refine hsame (by simp) fun a => ?_
    obtain ⟨-, -, next, he, -, rfl⟩ := applyMnaReserveOperation_true h
    rcases reserveEffect_eq_ok he with
      ⟨-, -, _, _, _, _, -, -, -, rfl⟩ | ⟨-, -, _, -, rfl⟩ | ⟨-, -, _, _, -, -, rfl⟩ |
        ⟨-, -, _, -, -, rfl⟩
    all_goals rfl
  | program o height =>
    refine hsame (by simp) fun a => ?_
    obtain ⟨-, hm⟩ := applyProgramOperation_true h
    obtain ⟨-, -, _, _, _, _, _, _, _, -, -, -, -, rfl⟩ := applyProgramOperationMut_eq_ok hm
    rfl

/-- **Token authority and freeze safety.** In every state reached from a genesis, a successful
    operation that is no bridge operation obeys the rule for every defined token. -/
theorem token_authority {genesis : GenesisConfig} {s₀ : State} (hg : fromGenesis genesis = .ok s₀)
    {ops : List Operation} (hs : s = runs (next E) s₀ ops) {op : Operation}
    (hop : ∀ o, op ≠ .asset o) {b : Bool} (h : s.apply E op = ⟨.ok b, t⟩) {id : Hash}
    {d : TokenDefinition} (hd : s.tokenDefinitions[id]? = some d) :
    ∃ d', t.tokenDefinitions[id]? = some d' ∧ TokenStep E s op t id d d' := by
  cases b with
  | false =>
    rw [apply_false h]
    exact ⟨d, hd, .of_same (fun _ => rfl) fun _ => rfl⟩
  | true =>
    have hn : TokensNamed s := hs ▸ tokensNamed_runs hg ops
    exact apply_tokenStep hn hop h hd

/-- Two hundred of a new token burned by their holder. -/
theorem token_authority_burn :
    let s := runs (next .standIn) (Sample.genesisState 1) [Sample.createToken 500 1000]
    let id := Sample.createdToken 500 1000
    let op := Sample.tokenCall (Sample.tokenOperation .burn 1 id 200 0)
    ∃ d d' : TokenDefinition, s.tokenDefinitions[id]? = some d ∧
      TokenStep .standIn s op (s.next .standIn op) id d d' := by
  intro s id op
  have happly : (s.apply .standIn op).result = .ok true := by decide +kernel
  have hsome : (s.tokenDefinitions[id]?).isSome = true := by decide +kernel
  obtain ⟨d, hd⟩ := Option.isSome_iff_exists.mp hsome
  obtain ⟨d', -, hstep⟩ := token_authority (Sample.fromGenesis_genesis 1) rfl
    (fun _ => by simp [op, Sample.tokenCall]) (apply_eq happly) hd
  exact ⟨d, d', hd, hstep⟩

end State

end WorldstreetChain
