import WorldstreetChain.State.Basic

/-!
# Native transfers (`State::validate_transaction`, `State::apply_transaction`)

A transfer moves `amount` from the sender to the receiver and `fee` to the fee pool. On a devnet
chain a transfer signed by the faucet key mints instead: the receiver is credited, nobody is
debited and no nonce moves.

* `State.ValidTransaction`, `State.validateTransaction_eq_ok` -- what a valid transfer has passed.
* `State.applyTransaction_ok` -- **what an applied transfer did**, faucet and non-faucet.
* `State.applyTransaction_error` -- what a failed one leaves behind: the state it was given, except
  for a faucet transfer whose fee overflows the pool, whose receiver has been credited by then.
-/

namespace WorldstreetChain

open Std

namespace State

section Definitions

variable (E : Env) (s : State)

/-- Signed by the devnet faucet on a devnet chain. -/
def isFaucet (u : UnsignedTransaction) : Bool :=
  containsStr s.chainId "devnet" && u.publicKey == E.crypto.publicKey Crypto.devnetFaucet

def validateTransaction (t : Transaction) : Outcome StateError Hash := do
  let u := t.unsigned
  rejectIf (u.version ≠ 1) .unsupportedTransactionVersion
  rejectIf (u.chainId ≠ s.chainId) .wrongChainId
  rejectIf (E.crypto.addressFromPublicKey u.publicKey ≠ u.fromAddress) .addressMismatch
  rejectIf (E.crypto.verify u.publicKey t.signingBytes t.signature = false) .invalidSignature
  rejectIf (u.amount = 0) .zeroAmount
  rejectIf (maxMemoBytes < u.memo.utf8ByteSize) .memoTooLong
  rejectIf (u.fee < s.feeMinimum) .feeTooLow
  let faucet := isFaucet E s u
  let sender := s.accounts[u.fromAddress]?
  rejectIf (faucet = false ∧ sender.isNone) .insufficientBalance
  let total ← orFail (Unsigned.checkedAdd u.amount u.fee) .balanceOverflow
  -- the `expect` of the source cannot fail here: a missing sender was refused above
  rejectIf (faucet = false ∧ sender.any fun a => a.balance < total) .insufficientBalance
  rejectIf (sender.any fun a => u.nonce ≠ a.nonce)
    (.nonceMismatch (sender.getD {}).nonce u.nonce)
  .ok (E.crypto.transactionId t)

/-- The transfer of a sender that pays: every check precedes the first write. -/
def transfer (u : UnsignedTransaction) (total : Amount) : Outcome StateError State := do
  let sender := s.accountOf u.fromAddress
  let receiver := s.accountOf u.toAddress
  let newSenderBalance ← orFail (Unsigned.checkedSub sender.balance total) .insufficientBalance
  let newSenderNonce ← orFail (Unsigned.checkedAdd sender.nonce 1) .nonceOverflow
  let newFeePool ← orFail (Unsigned.checkedAdd s.feePool u.fee) .feePoolOverflow
  let next ←
    if u.fromAddress = u.toAddress then do
      let balance ← orFail (Unsigned.checkedAdd newSenderBalance u.amount) .balanceOverflow
      .ok (s.insertAccount u.fromAddress { balance, nonce := newSenderNonce })
    else do
      let newReceiverBalance ← orFail (Unsigned.checkedAdd receiver.balance u.amount)
        .balanceOverflow
      .ok ((s.insertAccount u.fromAddress
          { balance := newSenderBalance, nonce := newSenderNonce }).insertAccount u.toAddress
        { balance := newReceiverBalance, nonce := receiver.nonce })
  .ok (next.setFeePool newFeePool)

/-- The faucet's transfer: the receiver is written before the fee pool is checked. -/
def faucetTransfer (u : UnsignedTransaction) (txId : Hash) : Applied StateError State Hash :=
  let receiver := s.accountOf u.toAddress
  .attempt s (orFail (Unsigned.checkedAdd receiver.balance u.amount) .balanceOverflow)
    fun newReceiverBalance =>
  let s := s.insertAccount u.toAddress { balance := newReceiverBalance, nonce := receiver.nonce }
  .attempt s (orFail (Unsigned.checkedAdd s.feePool u.fee) .feePoolOverflow) fun feePool =>
  ⟨.ok txId, s.setFeePool feePool⟩

def applyTransaction (t : Transaction) : Applied StateError State Hash :=
  let u := t.unsigned
  .attempt s (validateTransaction E s t) fun txId =>
  .attempt s (orFail (Unsigned.checkedAdd u.amount u.fee) .balanceOverflow) fun total =>
  if isFaucet E s u then s.faucetTransfer u txId
  else .ofClone s do
    let next ← s.transfer u total
    .ok (txId, next)

/-- `State::credit_devnet`: the entry is there before the balance is checked. -/
def creditDevnet (address : Address) (amount : Amount) : Applied StateError State Unit :=
  let account := s.accountOf address
  let s := s.insertAccount address account
  .attempt s (orFail (Unsigned.checkedAdd account.balance amount) .balanceOverflow) fun balance =>
  ⟨.ok (), s.insertAccount address { account with balance }⟩

end Definitions

/-! ## 1. Validation -/

variable {E : Env} {s : State}

/-- What `validate_transaction` has checked of a transfer it accepts. -/
structure ValidTransaction (E : Env) (s : State) (t : Transaction) : Prop where
  chainId : t.unsigned.chainId = s.chainId
  derives : E.crypto.addressFromPublicKey t.unsigned.publicKey = t.unsigned.fromAddress
  signed : E.crypto.verify t.unsigned.publicKey t.signingBytes t.signature = true
  feeMinimum : s.feeMinimum.toNat ≤ t.unsigned.fee.toNat
  /-- Whoever pays has an account. -/
  sender : isFaucet E s t.unsigned = false → (s.accounts[t.unsigned.fromAddress]?).isSome
  total : ∃ total : Amount, total.toNat = t.unsigned.amount.toNat + t.unsigned.fee.toNat
  /-- An account that exists has the transfer's nonce. -/
  nonce : ∀ a, s.accounts[t.unsigned.fromAddress]? = some a → a.nonce = t.unsigned.nonce

theorem validateTransaction_eq_ok {t : Transaction} {id : Hash}
    (h : validateTransaction E s t = .ok id) :
    ValidTransaction E s t ∧ id = E.crypto.transactionId t := by
  unfold validateTransaction at h
  simp only [rejectIf_bind_eq_ok, orFail_bind_eq_ok, Unsigned.checkedAdd_eq_some] at h
  obtain ⟨-, hc, hd, hs, -, -, hf, ha, total, ht, -, hn, hid⟩ := h
  refine ⟨⟨not_not.mp hc, not_not.mp hd, by simpa using hs, ?_, fun hfa => ?_, ⟨total, ht⟩,
    fun a h => ?_⟩, by simpa using hid.symm⟩
  · rw [BitVec.lt_def] at hf
    omega
  · cases hx : s.accounts[t.unsigned.fromAddress]? with
    | some a => rfl
    | none => exact absurd ⟨hfa, by rw [hx]; rfl⟩ ha
  · rw [h] at hn
    simpa using Eq.symm (by simpa using hn : t.unsigned.nonce = a.nonce)

/-! ## 2. A transfer that succeeds -/

/-- The two account tables a transfer can leave: the sender's entry alone when it pays itself,
    else the sender's and then the receiver's. -/
theorem transfer_eq_ok {u : UnsignedTransaction} {total : Amount} {s' : State}
    (h : s.transfer u total = .ok s') :
    ∃ (balance : Amount) (nonce : Nonce) (feePool : Amount),
      (s.balanceOf u.fromAddress).toNat = total.toNat + balance.toNat ∧
      nonce.toNat = (s.nonceOf u.fromAddress).toNat + 1 ∧
      feePool.toNat = s.feePool.toNat + u.fee.toNat ∧
      ((u.fromAddress = u.toAddress ∧ ∃ balance' : Amount,
          balance'.toNat = balance.toNat + u.amount.toNat ∧
          s' = (s.insertAccount u.fromAddress ⟨balance', nonce⟩).setFeePool feePool) ∨
        (u.fromAddress ≠ u.toAddress ∧ ∃ balance' : Amount,
          balance'.toNat = (s.balanceOf u.toAddress).toNat + u.amount.toNat ∧
          s' = ((s.insertAccount u.fromAddress ⟨balance, nonce⟩).insertAccount u.toAddress
            ⟨balance', s.nonceOf u.toAddress⟩).setFeePool feePool)) := by
  unfold transfer at h
  simp only [orFail_bind_eq_ok, Unsigned.checkedSub_eq_some, Unsigned.checkedAdd_eq_some,
    accountOf_balance, accountOf_nonce] at h
  obtain ⟨balance, hb, nonce, hn, feePool, hp, h⟩ := h
  refine ⟨balance, nonce, feePool, hb, hn, hp, ?_⟩
  split at h
  · rename_i heq
    obtain ⟨balance', hb', h⟩ := orFail_bind_eq_ok.mp h
    cases h
    exact Or.inl ⟨heq, balance', Unsigned.checkedAdd_eq_some.mp hb', rfl⟩
  · rename_i hne
    obtain ⟨balance', hb', h⟩ := orFail_bind_eq_ok.mp h
    cases h
    exact Or.inr ⟨hne, balance', Unsigned.checkedAdd_eq_some.mp hb', rfl⟩

/-- The faucet credits the receiver and the fee pool. -/
theorem faucetTransfer_eq_ok {u : UnsignedTransaction} {txId id : Hash} {s' : State}
    (h : s.faucetTransfer u txId = ⟨.ok id, s'⟩) :
    id = txId ∧ ∃ balance feePool : Amount,
      balance.toNat = (s.balanceOf u.toAddress).toNat + u.amount.toNat ∧
      feePool.toNat = s.feePool.toNat + u.fee.toNat ∧
      s' = (s.insertAccount u.toAddress ⟨balance, s.nonceOf u.toAddress⟩).setFeePool feePool := by
  unfold faucetTransfer at h
  simp only [Applied.attempt_eq_ok, orFail_eq_ok, Unsigned.checkedAdd_eq_some, accountOf_balance,
    accountOf_nonce, Applied.mk_eq_ok] at h
  obtain ⟨balance, hb, feePool, hp, hid, rfl⟩ := h
  exact ⟨(Except.ok.inj hid).symm, balance, feePool, hb, hp, rfl⟩

/-- **An applied transfer** was valid, and is the faucet's or a sender's. -/
theorem applyTransaction_eq_ok {t : Transaction} {id : Hash} {s' : State}
    (h : applyTransaction E s t = ⟨.ok id, s'⟩) :
    ValidTransaction E s t ∧ id = E.crypto.transactionId t ∧
      ((isFaucet E s t.unsigned = true ∧ s.faucetTransfer t.unsigned id = ⟨.ok id, s'⟩) ∨
        (isFaucet E s t.unsigned = false ∧ ∃ total : Amount,
          total.toNat = t.unsigned.amount.toNat + t.unsigned.fee.toNat ∧
          s.transfer t.unsigned total = .ok s')) := by
  unfold applyTransaction at h
  simp only [Applied.attempt_eq_ok, orFail_eq_ok, Unsigned.checkedAdd_eq_some] at h
  obtain ⟨txId, hv, total, ht, h⟩ := h
  obtain ⟨hvalid, rfl⟩ := validateTransaction_eq_ok hv
  refine ⟨hvalid, ?_⟩
  split at h
  · rename_i hf
    obtain ⟨rfl, -⟩ := faucetTransfer_eq_ok h
    exact ⟨rfl, Or.inl ⟨hf, h⟩⟩
  · rename_i hf
    obtain ⟨next, hx, h⟩ := Outcome.bind_eq_ok.mp (Applied.ofClone_eq_ok.mp h)
    cases h
    exact ⟨rfl, Or.inr ⟨by simpa using hf, total, ht, hx⟩⟩

/-- A credit of the node's faucet writes accounts only, whether it succeeds or not. -/
theorem creditDevnet_writes (s : State) (address : Address) (amount : Amount) :
    ∃ accounts, (s.creditDevnet address amount).state = { s with accounts } := by
  unfold creditDevnet
  dsimp only
  cases Unsigned.checkedAdd (s.accountOf address).balance amount with
  | none => exact ⟨_, rfl⟩
  | some balance => exact ⟨_, rfl⟩

/-! ## 3. A transfer that fails -/

/-- **A failed transfer leaves the state as it was**, unless it is the faucet's and its fee
    overflows the fee pool: then the receiver has been credited. -/
theorem applyTransaction_eq_error {t : Transaction} {e : Fault StateError} {s' : State}
    (h : applyTransaction E s t = ⟨.error e, s'⟩) :
    s' = s ∨
      (isFaucet E s t.unsigned = true ∧ (∃ id, validateTransaction E s t = .ok id) ∧
        2 ^ 128 ≤ s.feePool.toNat + t.unsigned.fee.toNat ∧ ∃ balance : Amount,
        balance.toNat = (s.balanceOf t.unsigned.toAddress).toNat + t.unsigned.amount.toNat ∧
        s' = s.insertAccount t.unsigned.toAddress ⟨balance, s.nonceOf t.unsigned.toAddress⟩) := by
  unfold applyTransaction at h
  simp only [Applied.attempt_eq_error, orFail_eq_ok] at h
  rcases h with ⟨-, h⟩ | ⟨txId, hv, h⟩
  · exact Or.inl h.symm
  rcases h with ⟨-, h⟩ | ⟨total, -, h⟩
  · exact Or.inl h.symm
  split at h
  · rename_i hf
    unfold faucetTransfer at h
    simp only [Applied.attempt_eq_error, orFail_eq_ok, Unsigned.checkedAdd_eq_some,
      accountOf_balance, accountOf_nonce] at h
    rcases h with ⟨-, h⟩ | ⟨balance, hb, h⟩
    · exact Or.inl h.symm
    rcases h with ⟨hp, rfl⟩ | ⟨feePool, -, h⟩
    · exact Or.inr ⟨hf, ⟨txId, hv⟩,
        Unsigned.checkedAdd_eq_none.mp (orFail_eq_error.mp hp).1, balance, hb, rfl⟩
    · cases h
  · exact Or.inl (Applied.ofClone_eq_error.mp h).2.symm

end State

end WorldstreetChain
