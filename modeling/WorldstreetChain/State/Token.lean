import WorldstreetChain.State.Basic

/-!
# Native tokens (`State::apply_token_operation`)

A token operation pays its fee, then creates a token, moves or changes its supply, or administers
it. Balances live in `assetBalances` under the key of the token's asset id, supplies in
`tokenDefinitions`. The call works on a clone.

* `State.ValidTokenOperation` -- what the validation has passed.
* `State.chargeTokenFee_eq_ok` -- the fee and the nonce.
* `State.tokenEffect_eq_ok` -- **what each kind does**, in five cases.
* `State.applyTokenOperation_true`, `..._false`, `..._error` -- the call.
-/

namespace WorldstreetChain

open Std

namespace State

/-! ## 1. Definitions -/

section Definitions

variable (E : Env) (s : State)

/-- The field checks of `validate_token_operation`, per kind. -/
def checkTokenFields (u : UnsignedTokenOperation) : Outcome StateError Unit :=
  match u.kind with
  | .create => do
    rejectIf (u.tokenId ≠ Hash.zero ∨ u.name.isEmpty ∨ 64 < u.name.utf8ByteSize
      ∨ u.symbol.isEmpty ∨ 16 < u.symbol.utf8ByteSize
      ∨ u.symbol.toList.all Char.isAlphanum = false ∨ 18 < u.decimals.toNat
      ∨ u.toAddress.isSome ∨ u.maxSupply = some 0 ∨ u.maxSupply.any fun cap => cap < u.amount)
      .invalidTokenMetadata
    .ok ()
  | .transfer | .mint => do
    rejectIf (u.tokenId = Hash.zero ∨ u.toAddress.isNone ∨ u.amount = 0) .tokenRecipientRequired
    rejectIf (u.toAddress = some u.fromAddress) .tokenRecipientRequired
    .ok ()
  | .burn => do
    rejectIf (u.tokenId = Hash.zero ∨ u.toAddress.isSome ∨ u.amount = 0) .tokenRecipientForbidden
    .ok ()
  | .freeze | .unfreeze => do
    rejectIf (u.tokenId = Hash.zero) .invalidTokenId
    rejectIf u.toAddress.isNone .tokenRecipientRequired
    .ok ()
  | .setAuthorities | .pause | .unpause | .updateMetadata => do
    rejectIf (u.tokenId = Hash.zero) .invalidTokenId
    rejectIf u.toAddress.isSome .tokenRecipientForbidden
    .ok ()

def validateTokenOperation (o : TokenOperation) : Outcome StateError Hash := do
  let u := o.unsigned
  rejectIf (u.version ≠ 1) .unsupportedTokenOperationVersion
  rejectIf (u.chainId ≠ s.chainId) .tokenWrongChainId
  rejectIf (E.crypto.addressFromPublicKey u.publicKey ≠ u.fromAddress) .tokenAddressMismatch
  rejectIf (E.crypto.verify u.publicKey o.signingBytes o.signature = false) .invalidTokenSignature
  rejectIf (maxMemoBytes < u.memo.utf8ByteSize) .tokenMemoTooLong
  rejectIf (u.fee < s.feeMinimum) .tokenFeeTooLow
  let sender ← orFail s.accounts[u.fromAddress]? .tokenInsufficientFeeBalance
  rejectIf (sender.nonce ≠ u.nonce) (.tokenNonceMismatch sender.nonce u.nonce)
  rejectIf (sender.balance < u.fee) .tokenInsufficientFeeBalance
  checkTokenFields u
  .ok (E.crypto.tokenOperationId o)

def tokenAssetKey (definition : TokenDefinition) : String :=
  (AssetId.custom definition.tokenId definition.symbol definition.decimals).canonicalKey

def adjustTokenBalance (definition : TokenDefinition) (address : Address) (amount : Amount)
    (add : Bool) : Outcome StateError State := do
  let key := tokenAssetKey definition
  let current := s.assetBalanceOf address key
  let next ←
    if add then orFail (Unsigned.checkedAdd current amount) .tokenBalanceOverflow
    else orFail (Unsigned.checkedSub current amount) .tokenInsufficientBalance
  .ok (s.setAssetBalance address key next)

def ensureTokenTransferable (definition : TokenDefinition) (fromAddress toAddress : Address) :
    Outcome StateError Unit := do
  rejectIf (definition.paused = true) .tokenPaused
  rejectIf (s.isTokenAccountFrozen definition.tokenId fromAddress
    ∨ s.isTokenAccountFrozen definition.tokenId toAddress) .tokenAccountFrozen
  .ok ()

/-- The fee leaves the sender for the fee pool and the sender's nonce moves. -/
def chargeTokenFee (u : UnsignedTokenOperation) : Outcome StateError State := do
  let sender ← orFail s.accounts[u.fromAddress]? .tokenInsufficientFeeBalance
  let senderBalance ← orFail (Unsigned.checkedSub sender.balance u.fee)
    .tokenInsufficientFeeBalance
  let senderNonce ← orFail (Unsigned.checkedAdd sender.nonce 1) .nonceOverflow
  let feePool ← orFail (Unsigned.checkedAdd s.feePool u.fee) .feePoolOverflow
  .ok ((s.insertAccount u.fromAddress { balance := senderBalance, nonce := senderNonce }).setFeePool
    feePool)

/-- The definition a `Create` writes. -/
def newTokenDefinition (u : UnsignedTokenOperation) (tokenId : Hash) : TokenDefinition where
  tokenId := tokenId
  creator := u.fromAddress
  name := u.name
  symbol := u.symbol
  decimals := u.decimals
  totalSupply := u.amount
  maxSupply := u.maxSupply
  mintAuthority := u.mintAuthority
  burnAuthority := u.burnAuthority
  freezeAuthority := u.freezeAuthority
  metadataUri := u.metadataUri
  metadataHash := u.metadataHash
  paused := false

def tokenCreate (u : UnsignedTokenOperation) (operationId : Hash) : Outcome StateError State := do
  let tokenId := E.crypto.tokenIdFromOperation operationId
  rejectIf (tokenId ∈ s.tokenDefinitions) .tokenAlreadyExists
  let definition := newTokenDefinition u tokenId
  let s := s.insertTokenDefinition tokenId definition
  if 0 < u.amount then s.adjustTokenBalance definition u.fromAddress u.amount true else .ok s

def tokenTransfer (u : UnsignedTokenOperation) : Outcome StateError State := do
  let definition ← orFail s.tokenDefinitions[u.tokenId]? .tokenNotFound
  let recipient ← orFail u.toAddress .tokenRecipientRequired
  s.ensureTokenTransferable definition u.fromAddress recipient
  let s ← s.adjustTokenBalance definition u.fromAddress u.amount false
  s.adjustTokenBalance definition recipient u.amount true

def tokenMint (u : UnsignedTokenOperation) : Outcome StateError State := do
  let definition ← orFail s.tokenDefinitions[u.tokenId]? .tokenNotFound
  rejectIf (definition.mintAuthority ≠ some u.fromAddress) .tokenUnauthorized
  let recipient ← orFail u.toAddress .tokenRecipientRequired
  rejectIf (definition.paused = true) .tokenPaused
  rejectIf (s.isTokenAccountFrozen definition.tokenId recipient) .tokenAccountFrozen
  let total ← orFail (Unsigned.checkedAdd definition.totalSupply u.amount) .tokenSupplyCapExceeded
  rejectIf (definition.maxSupply.any fun cap => cap < total) .tokenSupplyCapExceeded
  let definition := { definition with totalSupply := total }
  let s ← s.adjustTokenBalance definition recipient u.amount true
  .ok (s.insertTokenDefinition definition.tokenId definition)

def tokenBurn (u : UnsignedTokenOperation) : Outcome StateError State := do
  let definition ← orFail s.tokenDefinitions[u.tokenId]? .tokenNotFound
  s.ensureTokenTransferable definition u.fromAddress u.fromAddress
  let s ← s.adjustTokenBalance definition u.fromAddress u.amount false
  let total ← orFail (Unsigned.checkedSub definition.totalSupply u.amount)
    .tokenInsufficientBalance
  let definition := { definition with totalSupply := total }
  .ok (s.insertTokenDefinition definition.tokenId definition)

def tokenSetAuthorities (u : UnsignedTokenOperation) : Outcome StateError State := do
  let definition ← orFail s.tokenDefinitions[u.tokenId]? .tokenNotFound
  rejectIf (definition.creator ≠ u.fromAddress) .tokenUnauthorized
  .ok (s.insertTokenDefinition definition.tokenId
    { definition with
      mintAuthority := u.mintAuthority
      burnAuthority := u.burnAuthority
      freezeAuthority := u.freezeAuthority })

@[simps] def setFrozenTokenAccounts (frozenTokenAccounts : BTreeSet (Hash × Address)) : State :=
  { s with frozenTokenAccounts }

/-- `Freeze` and `Unfreeze`. -/
def tokenFreeze (u : UnsignedTokenOperation) : Outcome StateError State := do
  let definition ← orFail s.tokenDefinitions[u.tokenId]? .tokenNotFound
  rejectIf (definition.freezeAuthority ≠ some u.fromAddress) .tokenUnauthorized
  let recipient ← orFail u.toAddress .tokenRecipientRequired
  .ok (s.setFrozenTokenAccounts
    (if u.kind = .freeze then s.frozenTokenAccounts.insert (definition.tokenId, recipient)
    else s.frozenTokenAccounts.erase (definition.tokenId, recipient)))

/-- `Pause` and `Unpause`. -/
def tokenPause (u : UnsignedTokenOperation) : Outcome StateError State := do
  let definition ← orFail s.tokenDefinitions[u.tokenId]? .tokenNotFound
  rejectIf (definition.creator ≠ u.fromAddress) .tokenUnauthorized
  .ok (s.insertTokenDefinition definition.tokenId
    { definition with paused := decide (u.kind = .pause) })

def tokenUpdateMetadata (u : UnsignedTokenOperation) : Outcome StateError State := do
  let definition ← orFail s.tokenDefinitions[u.tokenId]? .tokenNotFound
  rejectIf (definition.creator ≠ u.fromAddress ∨ 256 < u.metadataUri.utf8ByteSize)
    .tokenUnauthorized
  .ok (s.insertTokenDefinition definition.tokenId
    { definition with metadataUri := u.metadataUri, metadataHash := u.metadataHash })

/-- The `match` of `apply_token_operation_mut`. -/
def tokenEffect (u : UnsignedTokenOperation) (operationId : Hash) : Outcome StateError State :=
  match u.kind with
  | .create => s.tokenCreate E u operationId
  | .transfer => s.tokenTransfer u
  | .mint => s.tokenMint u
  | .burn => s.tokenBurn u
  | .setAuthorities => s.tokenSetAuthorities u
  | .freeze | .unfreeze => s.tokenFreeze u
  | .pause | .unpause => s.tokenPause u
  | .updateMetadata => s.tokenUpdateMetadata u

@[simps] def recordTokenOperation (id : Hash) (o : TokenOperation) : State :=
  { s with
    processedTokenOperations := s.processedTokenOperations.insert id
    tokenOperationRecords := s.tokenOperationRecords.insert id o }

def applyTokenOperationMut (o : TokenOperation) (operationId : Hash) :
    Outcome StateError State := do
  let charged ← s.chargeTokenFee o.unsigned
  let next ← charged.tokenEffect E o.unsigned operationId
  .ok (next.recordTokenOperation operationId o)

def applyTokenOperation (o : TokenOperation) (expectedOperationId : Hash) :
    Applied StateError State Bool :=
  .attempt s (rejectIf (E.crypto.tokenOperationId o ≠ expectedOperationId) .invalidTokenId)
    fun _ =>
  if expectedOperationId ∈ s.processedTokenOperations then ⟨.ok false, s⟩
  else .ofClone s do
    let _ ← validateTokenOperation E s o
    let next ← s.applyTokenOperationMut E o expectedOperationId
    .ok (true, next)

end Definitions

/-! ## 2. Validation and the fee -/

variable {E : Env} {s s' : State}

/-- What `validate_token_operation` has checked of an operation it accepts. -/
structure ValidTokenOperation (E : Env) (s : State) (o : TokenOperation) : Prop where
  chainId : o.unsigned.chainId = s.chainId
  derives : E.crypto.addressFromPublicKey o.unsigned.publicKey = o.unsigned.fromAddress
  signed : E.crypto.verify o.unsigned.publicKey o.signingBytes o.signature = true
  nonce : ∃ a, s.accounts[o.unsigned.fromAddress]? = some a ∧ a.nonce = o.unsigned.nonce
  fields : checkTokenFields o.unsigned = .ok ()

theorem validateTokenOperation_eq_ok {o : TokenOperation} {id : Hash}
    (h : validateTokenOperation E s o = .ok id) :
    ValidTokenOperation E s o ∧ id = E.crypto.tokenOperationId o := by
  unfold validateTokenOperation at h
  simp only [rejectIf_bind_eq_ok, orFail_bind_eq_ok, not_not] at h
  obtain ⟨-, hc, hd, hs, -, -, a, ha, hn, -, h⟩ := h
  obtain ⟨⟨⟩, hf, h⟩ := Outcome.bind_eq_ok.mp h
  exact ⟨⟨hc, hd, by simpa using hs, ⟨a, ha, hn⟩, hf⟩, (Except.ok.inj h).symm⟩

/-- A `Create` stays within its own cap. -/
theorem checkTokenFields_create {u : UnsignedTokenOperation} (h : checkTokenFields u = .ok ())
    (hk : u.kind = .create) {cap : Amount} (hcap : u.maxSupply = some cap) :
    u.amount.toNat ≤ cap.toNat := by
  unfold checkTokenFields at h
  simp only [hk] at h
  simp only [rejectIf_bind_eq_ok, not_or] at h
  obtain ⟨⟨-, -, -, -, -, -, -, -, -, hc⟩, -⟩ := h
  rw [hcap, Option.any_some, decide_eq_true_eq, BitVec.lt_def] at hc
  omega

/-- A transfer goes to somebody else. -/
theorem checkTokenFields_transfer {u : UnsignedTokenOperation} (h : checkTokenFields u = .ok ())
    (hk : u.kind = .transfer) : u.toAddress ≠ some u.fromAddress := by
  unfold checkTokenFields at h
  simp only [hk] at h
  simp only [rejectIf_bind_eq_ok] at h
  exact h.2.1

/-- **The fee** leaves the sender for the fee pool, and the sender's nonce moves by one. -/
theorem chargeTokenFee_eq_ok {u : UnsignedTokenOperation} (h : s.chargeTokenFee u = .ok s') :
    ∃ (balance : Amount) (nonce : Nonce) (feePool : Amount),
      (s.balanceOf u.fromAddress).toNat = u.fee.toNat + balance.toNat ∧
      nonce.toNat = (s.nonceOf u.fromAddress).toNat + 1 ∧
      feePool.toNat = s.feePool.toNat + u.fee.toNat ∧
      s' = (s.insertAccount u.fromAddress ⟨balance, nonce⟩).setFeePool feePool := by
  unfold chargeTokenFee at h
  simp only [orFail_bind_eq_ok, Unsigned.checkedSub_eq_some, Unsigned.checkedAdd_eq_some,
    Except.ok.injEq] at h
  obtain ⟨a, ha, balance, hb, nonce, hn, feePool, hp, rfl⟩ := h
  refine ⟨balance, nonce, feePool, ?_, ?_, hp, rfl⟩
  · rw [balanceOf, ha]
    exact hb
  · rw [nonceOf, ha]
    exact hn

/-! ## 3. What each kind does -/

theorem adjustTokenBalance_add {d : TokenDefinition} {a : Address} {amount : Amount}
    (h : s.adjustTokenBalance d a amount true = .ok s') :
    ∃ v : Amount, v.toNat = (s.assetBalanceOf a (tokenAssetKey d)).toNat + amount.toNat ∧
      s' = s.setAssetBalance a (tokenAssetKey d) v := by
  unfold adjustTokenBalance at h
  simp only [if_true, orFail_bind_eq_ok, Unsigned.checkedAdd_eq_some, Except.ok.injEq] at h
  obtain ⟨v, hv, rfl⟩ := h
  exact ⟨v, hv, rfl⟩

theorem adjustTokenBalance_sub {d : TokenDefinition} {a : Address} {amount : Amount}
    (h : s.adjustTokenBalance d a amount false = .ok s') :
    ∃ v : Amount, (s.assetBalanceOf a (tokenAssetKey d)).toNat = amount.toNat + v.toNat ∧
      s' = s.setAssetBalance a (tokenAssetKey d) v := by
  unfold adjustTokenBalance at h
  simp only [Bool.false_eq_true, if_false, orFail_bind_eq_ok, Unsigned.checkedSub_eq_some,
    Except.ok.injEq] at h
  obtain ⟨v, hv, rfl⟩ := h
  exact ⟨v, hv, rfl⟩

/-- A definition of the same token with the same supply and cap. -/
structure SameSupply (d d' : TokenDefinition) : Prop where
  tokenId : d'.tokenId = d.tokenId
  symbol : d'.symbol = d.symbol
  decimals : d'.decimals = d.decimals
  totalSupply : d'.totalSupply = d.totalSupply
  maxSupply : d'.maxSupply = d.maxSupply

/-- **What a token operation does** past the fee: a new token whose supply its creator holds; a
    transfer; a mint; a burn; or a change that leaves every supply and balance alone. -/
inductive TokenEffect (E : Env) (s : State) (u : UnsignedTokenOperation) (operationId : Hash) :
    State → Prop where
  | createEmpty (hk : u.kind = .create) (h0 : u.amount = 0)
      (hnew : E.crypto.tokenIdFromOperation operationId ∉ s.tokenDefinitions) :
      TokenEffect E s u operationId
        (s.insertTokenDefinition (E.crypto.tokenIdFromOperation operationId)
          (newTokenDefinition u (E.crypto.tokenIdFromOperation operationId)))
  | create (d : TokenDefinition) (v : Amount) (hk : u.kind = .create)
      (hd : d = newTokenDefinition u (E.crypto.tokenIdFromOperation operationId))
      (hnew : d.tokenId ∉ s.tokenDefinitions)
      (hv : v.toNat = (s.assetBalanceOf u.fromAddress (tokenAssetKey d)).toNat + u.amount.toNat) :
      TokenEffect E s u operationId ((s.insertTokenDefinition d.tokenId d).setAssetBalance
        u.fromAddress (tokenAssetKey d) v)
  | transfer (d : TokenDefinition) (recipient : Address) (v w : Amount) (hk : u.kind = .transfer)
      (hd : s.tokenDefinitions[u.tokenId]? = some d) (hto : u.toAddress = some recipient)
      (hv : (s.assetBalanceOf u.fromAddress (tokenAssetKey d)).toNat = u.amount.toNat + v.toNat)
      (hw : w.toNat = ((s.setAssetBalance u.fromAddress (tokenAssetKey d) v).assetBalanceOf recipient
        (tokenAssetKey d)).toNat + u.amount.toNat) :
      TokenEffect E s u operationId ((s.setAssetBalance u.fromAddress (tokenAssetKey d)
        v).setAssetBalance recipient (tokenAssetKey d) w)
  | mint (d : TokenDefinition) (recipient : Address) (total v : Amount) (hk : u.kind = .mint)
      (hd : s.tokenDefinitions[u.tokenId]? = some d)
      (htotal : total.toNat = d.totalSupply.toNat + u.amount.toNat)
      (hcap : ∀ cap, d.maxSupply = some cap → total.toNat ≤ cap.toNat)
      (hv : v.toNat = (s.assetBalanceOf recipient (tokenAssetKey d)).toNat + u.amount.toNat) :
      TokenEffect E s u operationId ((s.setAssetBalance recipient (tokenAssetKey d)
        v).insertTokenDefinition d.tokenId { d with totalSupply := total })
  | burn (d : TokenDefinition) (total v : Amount) (hk : u.kind = .burn)
      (hd : s.tokenDefinitions[u.tokenId]? = some d)
      (htotal : d.totalSupply.toNat = u.amount.toNat + total.toNat)
      (hv : (s.assetBalanceOf u.fromAddress (tokenAssetKey d)).toNat = u.amount.toNat + v.toNat) :
      TokenEffect E s u operationId ((s.setAssetBalance u.fromAddress (tokenAssetKey d)
        v).insertTokenDefinition d.tokenId { d with totalSupply := total })
  | administer (d d' : TokenDefinition) (hd : s.tokenDefinitions[u.tokenId]? = some d)
      (hsame : SameSupply d d') :
      TokenEffect E s u operationId (s.insertTokenDefinition d.tokenId d')
  | frozen (accounts : BTreeSet (Hash × Address)) :
      TokenEffect E s u operationId (s.setFrozenTokenAccounts accounts)

variable {u : UnsignedTokenOperation} {id : Hash}

theorem tokenCreate_effect (hk : u.kind = .create) (h : s.tokenCreate E u id = .ok s') :
    TokenEffect E s u id s' := by
  unfold tokenCreate at h
  simp only [rejectIf_bind_eq_ok] at h
  obtain ⟨hnew, h⟩ := h
  split at h
  · obtain ⟨v, hv, rfl⟩ := adjustTokenBalance_add h
    exact .create _ v hk rfl hnew hv
  · rename_i h0
    cases h
    refine .createEmpty hk (BitVec.eq_of_toNat_eq ?_) hnew
    rw [BitVec.lt_def] at h0
    have hz : (0 : Amount).toNat = 0 := rfl
    omega

theorem tokenTransfer_effect (hk : u.kind = .transfer) (h : s.tokenTransfer u = .ok s') :
    TokenEffect E s u id s' := by
  unfold tokenTransfer at h
  simp only [orFail_bind_eq_ok] at h
  obtain ⟨d, hd, recipient, hto, h⟩ := h
  obtain ⟨⟨⟩, -, h⟩ := Outcome.bind_eq_ok.mp h
  obtain ⟨s1, h1, h⟩ := Outcome.bind_eq_ok.mp h
  obtain ⟨v, hv, rfl⟩ := adjustTokenBalance_sub h1
  obtain ⟨w, hw, rfl⟩ := adjustTokenBalance_add h
  exact .transfer d recipient v w hk hd hto hv hw

theorem tokenMint_effect (hk : u.kind = .mint) (h : s.tokenMint u = .ok s') :
    TokenEffect E s u id s' := by
  unfold tokenMint at h
  simp only [orFail_bind_eq_ok, rejectIf_bind_eq_ok, Unsigned.checkedAdd_eq_some] at h
  obtain ⟨d, hd, -, recipient, -, -, -, total, ht, hcap, h⟩ := h
  obtain ⟨s1, h1, h⟩ := Outcome.bind_eq_ok.mp h
  obtain ⟨v, hv, rfl⟩ := adjustTokenBalance_add h1
  cases h
  refine .mint d recipient total v hk hd ht (fun cap hc => ?_) hv
  rw [hc, Option.any_some, decide_eq_true_eq, BitVec.lt_def] at hcap
  omega

theorem tokenBurn_effect (hk : u.kind = .burn) (h : s.tokenBurn u = .ok s') :
    TokenEffect E s u id s' := by
  unfold tokenBurn at h
  obtain ⟨d, hd, h⟩ := orFail_bind_eq_ok.mp h
  obtain ⟨⟨⟩, -, h⟩ := Outcome.bind_eq_ok.mp h
  obtain ⟨s1, h1, h⟩ := Outcome.bind_eq_ok.mp h
  obtain ⟨v, hv, rfl⟩ := adjustTokenBalance_sub h1
  simp only [orFail_bind_eq_ok, Unsigned.checkedSub_eq_some, Except.ok.injEq] at h
  obtain ⟨total, ht, rfl⟩ := h
  exact .burn d total v hk hd ht hv

/-- The three kinds that rewrite a definition's other fields. -/
theorem tokenAdminister_effect
    (h : s.tokenSetAuthorities u = .ok s' ∨ s.tokenPause u = .ok s' ∨
      s.tokenUpdateMetadata u = .ok s') :
    TokenEffect E s u id s' := by
  unfold tokenSetAuthorities tokenPause tokenUpdateMetadata at h
  simp only [orFail_bind_eq_ok, rejectIf_bind_eq_ok, Except.ok.injEq] at h
  rcases h with ⟨d, hd, -, rfl⟩ | ⟨d, hd, -, rfl⟩ | ⟨d, hd, -, rfl⟩
  all_goals exact .administer d _ hd ⟨rfl, rfl, rfl, rfl, rfl⟩

theorem tokenFreeze_effect (h : s.tokenFreeze u = .ok s') : TokenEffect E s u id s' := by
  unfold tokenFreeze at h
  simp only [orFail_bind_eq_ok, rejectIf_bind_eq_ok, Except.ok.injEq] at h
  obtain ⟨d, -, -, recipient, -, rfl⟩ := h
  exact .frozen _

/-- **Every kind has one of these effects.** -/
theorem tokenEffect_eq_ok (h : s.tokenEffect E u id = .ok s') : TokenEffect E s u id s' := by
  unfold tokenEffect at h
  split at h
  · exact tokenCreate_effect ‹_› h
  · exact tokenTransfer_effect ‹_› h
  · exact tokenMint_effect ‹_› h
  · exact tokenBurn_effect ‹_› h
  · exact tokenAdminister_effect (Or.inl h)
  · exact tokenFreeze_effect h
  · exact tokenFreeze_effect h
  · exact tokenAdminister_effect (Or.inr (Or.inl h))
  · exact tokenAdminister_effect (Or.inr (Or.inl h))
  · exact tokenAdminister_effect (Or.inr (Or.inr h))

/-- Past the fee a token operation moves no MNA: accounts, fee pool and reserve ledger stay. -/
theorem TokenEffect.frame (h : TokenEffect E s u id s') :
    s' = { s with
      assetBalances := s'.assetBalances
      tokenDefinitions := s'.tokenDefinitions
      frozenTokenAccounts := s'.frozenTokenAccounts } := by
  cases h <;> rfl

/-! ## 4. The call -/

section Calls

variable {o : TokenOperation} {e : Fault StateError}

/-- **An applied token operation** was valid and new; it paid, had its effect and is recorded. -/
theorem applyTokenOperation_true (h : s.applyTokenOperation E o id = ⟨.ok true, s'⟩) :
    ValidTokenOperation E s o ∧ id = E.crypto.tokenOperationId o ∧
      id ∉ s.processedTokenOperations ∧
      ∃ charged next, s.chargeTokenFee o.unsigned = .ok charged ∧
        charged.tokenEffect E o.unsigned id = .ok next ∧ s' = next.recordTokenOperation id o := by
  unfold applyTokenOperation at h
  obtain ⟨⟨⟩, hid, h⟩ := Applied.attempt_eq_ok.mp h
  have hid' := not_not.mp (rejectIf_eq_ok.mp hid)
  split at h
  · simp at h
  · rename_i hn
    obtain ⟨_, hv, h⟩ := Outcome.bind_eq_ok.mp (Applied.ofClone_eq_ok.mp h)
    obtain ⟨next', hm, h⟩ := Outcome.bind_eq_ok.mp h
    obtain ⟨charged, hc, hm⟩ := Outcome.bind_eq_ok.mp hm
    obtain ⟨next, ht, hm⟩ := Outcome.bind_eq_ok.mp hm
    cases hm
    cases h
    exact ⟨(validateTokenOperation_eq_ok hv).1, hid'.symm, hn, charged, next, hc, ht, rfl⟩

/-- A duplicate token operation changes nothing. -/
theorem applyTokenOperation_false (h : s.applyTokenOperation E o id = ⟨.ok false, s'⟩) :
    s' = s ∧ id = E.crypto.tokenOperationId o ∧ id ∈ s.processedTokenOperations := by
  unfold applyTokenOperation at h
  obtain ⟨⟨⟩, hid, h⟩ := Applied.attempt_eq_ok.mp h
  split at h
  · rename_i hp
    exact ⟨(Applied.mk_eq_ok.mp h).2.symm, (not_not.mp (rejectIf_eq_ok.mp hid)).symm, hp⟩
  · obtain ⟨_, -, h⟩ := Outcome.bind_eq_ok.mp (Applied.ofClone_eq_ok.mp h)
    obtain ⟨_, -, h⟩ := Outcome.bind_eq_ok.mp h
    cases h

/-- A failed token operation changes nothing. -/
theorem applyTokenOperation_error (h : s.applyTokenOperation E o id = ⟨.error e, s'⟩) :
    s' = s := by
  unfold applyTokenOperation at h
  rcases Applied.attempt_eq_error.mp h with ⟨-, h⟩ | ⟨⟨⟩, -, h⟩
  · exact h.symm
  split at h
  · simp at h
  · exact (Applied.ofClone_eq_error.mp h).2.symm

end Calls

end State

end WorldstreetChain
