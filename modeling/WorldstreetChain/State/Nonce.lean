import WorldstreetChain.State.Operation

/-!
# Signed operations act once, and for their signer

Four kinds of operation are signed; each carries a nonce that has to be the signer's. This module
says whose account such an operation touches, and that it can never be played again.

* `State.apply_actsFor`, `State.apply_leavesAccounts` -- what an applied operation does to nonces
  and balances, signed or not.
* `State.nonceOf_le_runs` -- **nonces never go back**, along any run.
* `State.next_of_stale` -- an operation for a nonce that has passed changes nothing.
* `State.signed_acts_once` -- **the result**: an applied signed operation acts for its signer, and
  in no later state does an operation of the same content do anything again.
-/

namespace WorldstreetChain

open Std
open Postcard (utf8)

namespace State

variable {E : Env} {s s' : State}

/-! ## 1. Signatures -/

/-- What a signed operation carries: the key, what it signed, and the nonce it is for. -/
structure Authorization where
  key : PublicKey
  message : List UInt8
  signature : Signature
  nonce : Nonce
  deriving DecidableEq

/-- The authorization of an operation; the faucet's transfers and the operations of the bridge
    have none. -/
def authorization (E : Env) (s : State) : Operation → Option Authorization
  | .transaction t =>
    if isFaucet E s t.unsigned then none
    else some ⟨t.unsigned.publicKey, t.signingBytes, t.signature, t.unsigned.nonce⟩
  | .token o _ => some ⟨o.unsigned.publicKey, o.signingBytes, o.signature, o.unsigned.nonce⟩
  | .mnaSwap o => some ⟨o.unsigned.publicKey, o.signingBytes, o.signature, o.unsigned.nonce⟩
  | .program o _ => some ⟨o.publicKey, utf8 (programMessage E o), o.signature, o.nonce⟩
  | .asset _ | .mnaReserve _ => none

/-- The account a key stands for. -/
def Authorization.signer (E : Env) (auth : Authorization) : Address :=
  E.crypto.addressFromPublicKey auth.key

/-! ## 2. What happens to accounts -/

/-- The step from `s` to `s'` acts for the signer alone: it was signed for the signer's nonce,
    which moves by one, and nobody else's nonce moves or balance falls. -/
structure ActsFor (E : Env) (s : State) (auth : Authorization) (s' : State) : Prop where
  signed : E.crypto.verify auth.key auth.message auth.signature = true
  nonce : s.nonceOf (auth.signer E) = auth.nonce
  next : (s'.nonceOf (auth.signer E)).toNat = auth.nonce.toNat + 1
  nonces : ∀ b, b ≠ auth.signer E → s'.nonceOf b = s.nonceOf b
  balances : ∀ b, b ≠ auth.signer E → (s.balanceOf b).toNat ≤ (s'.balanceOf b).toNat

/-- The step moves no nonce and lowers no balance. -/
structure LeavesAccounts (s s' : State) : Prop where
  nonces : ∀ b, s'.nonceOf b = s.nonceOf b
  balances : ∀ b, (s.balanceOf b).toNat ≤ (s'.balanceOf b).toNat

theorem LeavesAccounts.of_accounts (h : s'.accounts = s.accounts) : LeavesAccounts s s' where
  nonces b := nonceOf_of_accounts h b
  balances b := by rw [balanceOf_of_accounts h b]

/-- A credit. -/
theorem LeavesAccounts.of_credit {a : Address} {v : Amount}
    (hb : (s.balanceOf a).toNat ≤ v.toNat)
    (h : s'.accounts = (s.insertAccount a ⟨v, s.nonceOf a⟩).accounts) :
    LeavesAccounts s s' where
  nonces b := by
    rw [nonceOf_of_accounts h, nonceOf_insertAccount]
    split
    · rename_i hab
      rw [hab]
    · rfl
  balances b := by
    rw [balanceOf_of_accounts h, balanceOf_insertAccount]
    split
    · rename_i hab
      rw [← hab]
      exact hb
    · exact Nat.le_refl _

/-- Writing the signer's own account with its nonce moved. -/
theorem ActsFor.of_insertAccount {auth : Authorization} {v : Amount} {nonce : Nonce}
    (hs : E.crypto.verify auth.key auth.message auth.signature = true)
    (hn : s.nonceOf (auth.signer E) = auth.nonce)
    (hn' : nonce.toNat = (s.nonceOf (auth.signer E)).toNat + 1)
    (h : s'.accounts = (s.insertAccount (auth.signer E) ⟨v, nonce⟩).accounts) :
    ActsFor E s auth s' := by
  refine ⟨hs, hn, ?_, fun b hb => ?_, fun b hb => ?_⟩
  · rw [nonceOf_of_accounts h, nonceOf_insertAccount, if_pos rfl, hn', hn]
  · rw [nonceOf_of_accounts h, nonceOf_insertAccount, if_neg (Ne.symm hb)]
  · rw [balanceOf_of_accounts h, balanceOf_insertAccount, if_neg (Ne.symm hb)]

/-- A credit after a step that acts for its signer. -/
theorem ActsFor.trans_leavesAccounts {t : State} {auth : Authorization} (h : ActsFor E s auth t)
    (h' : LeavesAccounts t s') : ActsFor E s auth s' where
  signed := h.signed
  nonce := h.nonce
  next := by rw [h'.nonces, h.next]
  nonces b hb := (h'.nonces b).trans (h.nonces b hb)
  balances b hb := Nat.le_trans (h.balances b hb) (h'.balances b)

theorem nonceOf_of_get {a : Address} {x : Account} (h : s.accounts[a]? = some x) :
    s.nonceOf a = x.nonce := by
  rw [nonceOf, h]
  rfl

theorem ValidTransaction.nonceOf {t : Transaction} (hv : ValidTransaction E s t)
    (hf : isFaucet E s t.unsigned = false) :
    s.nonceOf t.unsigned.fromAddress = t.unsigned.nonce := by
  cases hx : s.accounts[t.unsigned.fromAddress]? with
  | none => simpa [hx] using hv.sender hf
  | some x => exact (nonceOf_of_get hx).trans (hv.nonce x hx)

/-- **A signed operation that is applied acts for its signer.** -/
theorem apply_actsFor {op : Operation} {auth : Authorization}
    (hauth : authorization E s op = some auth) (h : s.apply E op = ⟨.ok true, s'⟩) :
    ActsFor E s auth s' := by
  cases op with
  | transaction t =>
    obtain ⟨id, h, -⟩ := Applied.map_eq_ok.mp h
    obtain ⟨hv, -, ⟨hf, -⟩ | ⟨hf, total, -, h⟩⟩ := applyTransaction_eq_ok h
    · simp [authorization, hf] at hauth
    · simp only [authorization, hf, Bool.false_eq_true, if_false, Option.some.injEq] at hauth
      subst hauth
      have hsigner : Authorization.signer E ⟨t.unsigned.publicKey, t.signingBytes, t.signature,
          t.unsigned.nonce⟩ = t.unsigned.fromAddress := hv.derives
      have hn := hv.nonceOf hf
      obtain ⟨balance, nonce, feePool, -, hn', -, hcase⟩ := transfer_eq_ok h
      rw [← hsigner] at hn hn'
      rcases hcase with ⟨-, balance', -, rfl⟩ | ⟨hne, balance', hb', rfl⟩
      · rw [← hsigner]
        exact .of_insertAccount hv.signed hn hn' rfl
      · have hpaid := ActsFor.of_insertAccount (s := s) (v := balance) hv.signed hn hn' rfl
        rw [← hsigner] at hne ⊢
        refine hpaid.trans_leavesAccounts (.of_credit (a := t.unsigned.toAddress)
          (v := balance') ?_ ?_)
        · rw [balanceOf_insertAccount, if_neg hne]
          omega
        · rw [nonceOf_insertAccount, if_neg hne]
          rfl
  | asset o => cases hauth
  | token o id =>
    cases hauth
    obtain ⟨hv, -, -, charged, next, hc, ht, rfl⟩ := applyTokenOperation_true h
    obtain ⟨balance, nonce, feePool, -, hn', -, rfl⟩ := chargeTokenFee_eq_ok hc
    obtain ⟨x, hx, hn⟩ := hv.nonce
    rw [← hv.derives] at hx hn' ht
    rw [(tokenEffect_eq_ok ht).frame]
    exact .of_insertAccount hv.signed ((nonceOf_of_get hx).trans hn) hn' rfl
  | mnaSwap o =>
    cases hauth
    obtain ⟨hv, -, next, he, rfl⟩ := applyMnaSwap_true h
    obtain ⟨nonce, usdc, balance, backed, ledger, hn', -, rfl, -⟩ := swapEffect_eq_ok he
    obtain ⟨x, hx, hn⟩ := hv.nonce
    rw [← hv.derives] at hx hn' ⊢
    exact .of_insertAccount hv.signed ((nonceOf_of_get hx).trans hn) hn' rfl
  | mnaReserve o => cases hauth
  | program o height =>
    cases hauth
    obtain ⟨-, hm⟩ := applyProgramOperation_true h
    obtain ⟨hv, -, _, _, _, balance, _, nonce, _, -, -, hn', -, rfl⟩ :=
      applyProgramOperationMut_eq_ok hm
    exact .of_insertAccount hv.signed hv.nonce hn' rfl

/-- **An operation without a signer** moves no nonce and lowers no balance when it is applied. -/
theorem apply_leavesAccounts {op : Operation} (hauth : authorization E s op = none)
    (h : s.apply E op = ⟨.ok true, s'⟩) : LeavesAccounts s s' := by
  cases op with
  | transaction t =>
    obtain ⟨id, h, -⟩ := Applied.map_eq_ok.mp h
    obtain ⟨-, -, ⟨-, h⟩ | ⟨hf, -⟩⟩ := applyTransaction_eq_ok h
    · obtain ⟨-, balance, feePool, hb, -, rfl⟩ := faucetTransfer_eq_ok h
      exact .of_credit (a := t.unsigned.toAddress) (by omega) rfl
    · simp [authorization, hf] at hauth
  | asset o =>
    obtain ⟨-, -, _, _, -, -, rfl⟩ := applyAssetOperation_true h
    exact .of_accounts rfl
  | token o id => cases hauth
  | mnaSwap o => cases hauth
  | mnaReserve o =>
    obtain ⟨-, -, next, he, -, rfl⟩ := applyMnaReserveOperation_true h
    rcases reserveEffect_eq_ok he with
      ⟨-, -, balance, _, _, _, hb, -, -, rfl⟩ | ⟨-, -, _, -, rfl⟩ |
        ⟨-, -, _, _, -, -, rfl⟩ | ⟨-, -, _, -, -, rfl⟩
    · have hb' : balance.toNat = (s.balanceOf o.address).toNat + o.amountMna.toNat := hb
      exact .of_credit (a := o.address) (by omega) rfl
    all_goals exact .of_accounts rfl
  | program o height => cases hauth

theorem Residue.leavesAccounts {op : Operation} (h : Residue E s op s') : LeavesAccounts s s' := by
  cases h with
  | faucet t balance hf hv hp hb => exact .of_credit (a := t.unsigned.toAddress) (by omega) rfl
  | assetRecorded o hc hn => exact .of_accounts rfl
  | assetMoved o ledger hc hn => exact .of_accounts rfl
  | mnaSwap o hv hn => exact .of_accounts rfl
  | mnaReserve o hv hn => exact .of_accounts rfl

/-! ## 3. Nonces over runs -/

theorem nonceOf_le_next (op : Operation) (b : Address) :
    (s.nonceOf b).toNat ≤ ((s.next E op).nonceOf b).toNat := by
  refine next_cases (R := fun s' => (s.nonceOf b).toNat ≤ (s'.nonceOf b).toNat) (Nat.le_refl _)
    (fun s' h => ?_) fun s' h => ?_
  · cases hauth : authorization E s op with
    | none => rw [(apply_leavesAccounts hauth h).nonces]
    | some auth =>
      have hacts := apply_actsFor hauth h
      by_cases hb : b = auth.signer E
      · rw [hb, hacts.next, hacts.nonce]
        exact Nat.le_succ _
      · rw [hacts.nonces b hb]
  · rw [h.leavesAccounts.nonces]

/-- **Nonces never go back**, whatever operations are applied, successful or not. -/
theorem nonceOf_le_runs (ops : List Operation) (b : Address) :
    (s.nonceOf b).toNat ≤ ((runs (next E) s ops).nonceOf b).toNat := by
  induction ops generalizing s with
  | nil => exact Nat.le_refl _
  | cons op ops ih => exact Nat.le_trans (nonceOf_le_next op b) ih

theorem chainId_runs (ops : List Operation) : (runs (next E) s ops).chainId = s.chainId := by
  induction ops generalizing s with
  | nil => rfl
  | cons op ops ih => exact ih.trans next_chainId

/-- **An operation for a nonce that has passed changes nothing.** -/
theorem next_of_stale {op : Operation} {auth : Authorization}
    (hauth : authorization E s op = some auth)
    (hstale : auth.nonce.toNat < (s.nonceOf (auth.signer E)).toNat) : s.next E op = s := by
  refine next_cases (R := fun s' => s' = s) rfl (fun s' h => ?_) fun s' h => ?_
  · rw [(apply_actsFor hauth h).nonce] at hstale
    exact absurd hstale (Nat.lt_irrefl _)
  · cases h with
    | faucet t balance hf hv hp hb => simp [authorization, hf] at hauth
    | assetRecorded o hc hn => cases hauth
    | assetMoved o ledger hc hn => cases hauth
    | mnaSwap o hv hn =>
      cases hauth
      obtain ⟨x, hx, hnonce⟩ := hv.nonce
      rw [← hv.derives] at hx
      have heq : s.nonceOf (Authorization.signer E ⟨o.unsigned.publicKey, o.signingBytes,
          o.signature, o.unsigned.nonce⟩) = o.unsigned.nonce := (nonceOf_of_get hx).trans hnonce
      rw [heq] at hstale
      exact absurd hstale (Nat.lt_irrefl _)
    | mnaReserve o hv hn => cases hauth

/-! ## 4. The result -/

/-- The same unsigned content, under any signature; the id a token operation is submitted with and
    the height a program operation is applied at are free. -/
def SameContent : Operation → Operation → Prop
  | .transaction t, .transaction t' => t'.unsigned = t.unsigned
  | .token o _, .token o' _ => o'.unsigned = o.unsigned
  | .mnaSwap o, .mnaSwap o' => o'.unsigned = o.unsigned
  | .program o _, .program o' _ => { o' with signature := o.signature } = o
  | _, _ => False

/-- The same content is signed for under the same key and nonce, on the same chain. -/
theorem SameContent.authorization {op op' : Operation} (h : SameContent op op')
    (hc : s'.chainId = s.chainId) {auth : Authorization}
    (hauth : authorization E s op = some auth) :
    ∃ auth', State.authorization E s' op' = some auth' ∧ auth'.key = auth.key ∧
      auth'.nonce = auth.nonce := by
  cases op with
  | transaction t =>
    cases op' with
    | transaction t' =>
      have hu : t'.unsigned = t.unsigned := h
      have hf : isFaucet E s' t'.unsigned = isFaucet E s t.unsigned := by
        rw [isFaucet, isFaucet, hc, hu]
      unfold State.authorization at hauth ⊢
      simp only [hf] at hauth ⊢
      split at hauth
      · cases hauth
      · rename_i hff
        cases hauth
        rw [if_neg hff]
        exact ⟨_, rfl, by rw [hu], by rw [hu]⟩
    | _ => exact absurd h id
  | token o id =>
    cases op' with
    | token o' id' =>
      have hu : o'.unsigned = o.unsigned := h
      cases hauth
      exact ⟨_, rfl, by rw [hu], by rw [hu]⟩
    | _ => exact absurd h fun hx => hx
  | mnaSwap o =>
    cases op' with
    | mnaSwap o' =>
      have hu : o'.unsigned = o.unsigned := h
      cases hauth
      exact ⟨_, rfl, by rw [hu], by rw [hu]⟩
    | _ => exact absurd h id
  | program o height =>
    cases op' with
    | program o' height' =>
      have hu : { o' with signature := o.signature } = o := h
      cases hauth
      have hk := congrArg ProgramOperation.publicKey hu
      have hn := congrArg ProgramOperation.nonce hu
      exact ⟨_, rfl, hk, hn⟩
    | _ => exact absurd h id
  | asset o => cases hauth
  | mnaReserve o => cases hauth

/-- **Signed operations act once and only for their signer.** An operation that answers `Ok(false)`
    changes nothing. An applied operation with a signer acts for that signer alone, and after any
    further operations one of the same content changes nothing; one without a signer moves no
    nonce and lowers no balance. -/
theorem signed_acts_once {op : Operation} {b : Bool} (h : s.apply E op = ⟨.ok b, s'⟩) :
    (b = false → s' = s) ∧
    (b = true →
      (∀ auth, authorization E s op = some auth →
        ActsFor E s auth s' ∧
        ∀ later op', SameContent op op' →
          (runs (next E) s' later).next E op' = runs (next E) s' later) ∧
      (authorization E s op = none → LeavesAccounts s s')) := by
  cases b with
  | false => exact ⟨fun _ => apply_false h, fun hb => absurd hb Bool.false_ne_true⟩
  | true =>
    refine ⟨fun hb => absurd hb.symm Bool.false_ne_true, fun _ => ⟨fun auth hauth => ?_, ?_⟩⟩
    · have hacts := apply_actsFor hauth h
      refine ⟨hacts, fun later op' hsame => ?_⟩
      have hchain : (runs (next E) s' later).chainId = s.chainId :=
        (chainId_runs later).trans (Writes.of_apply h).chainId
      obtain ⟨auth', hauth', hkey, hnonce⟩ := hsame.authorization hchain hauth
      refine next_of_stale hauth' ?_
      have hsigner : auth'.signer E = auth.signer E := by
        rw [Authorization.signer, hkey, Authorization.signer]
      have hle := nonceOf_le_runs (E := E) (s := s') later (auth.signer E)
      rw [hacts.next] at hle
      rw [hsigner, hnonce]
      omega
    · exact fun hauth => apply_leavesAccounts hauth h

/-- A transfer of the small chain, played twice. -/
theorem signed_acts_once_transfer :
    (authorization .standIn (Sample.genesisState 1)
        (.transaction (Sample.transfer 0 Sample.address 10 1))).isSome ∧
      let s' := (Sample.genesisState 1).next .standIn
        (.transaction (Sample.transfer 0 Sample.address 10 1))
      s'.next .standIn (.transaction (Sample.transfer 0 Sample.address 10 1)) = s' := by
  have happly : (Sample.genesisState 1).apply .standIn
      (.transaction (Sample.transfer 0 Sample.address 10 1)) = ⟨.ok true, _⟩ :=
    apply_eq (by decide +kernel)
  have hsome : (authorization .standIn (Sample.genesisState 1)
      (.transaction (Sample.transfer 0 Sample.address 10 1))).isSome := by decide +kernel
  obtain ⟨auth, hauth⟩ := Option.isSome_iff_exists.mp hsome
  exact ⟨hsome, (((signed_acts_once happly).2 rfl).1 auth hauth).2 [] _ rfl⟩

end State

end WorldstreetChain
