import WorldstreetChain.Library.Keyed
import WorldstreetChain.Node.Run

/-!
# The mempool

Transactions wait in a vector, and a set beside it holds their ids. Three operations write both:
`admit` puts a valid transaction behind the others, `drain` hands all of them over, and `remove_ids`
takes out what a block has included, from a list of ids of any kind.

* `Mempool.Valid` -- what holds the vector and the set together.
* `Mempool.admitTransaction_cases` -- a transaction is refused, and nothing changes, or it is the
  last.
* `Mempool.valid_runs` -- **the mempool stays valid**, whatever is called.
* `Node.mempool_next` -- a call on a node makes at most one of these calls on its mempool.
-/

namespace WorldstreetChain

open Std

namespace Mempool

/-! ## 1. Calls -/

/-- `drain`: what waited, and what is left. -/
def drain (m : Mempool) : List Transaction × Mempool := (m.transactions, .empty)

/-- A call, with what it is given. -/
inductive Call where
  | admitTransaction (s : State) (t : Transaction)
  | drain
  | removeIds (ids : List Hash)

/-- The mempool a call leaves behind. -/
def next (E : Env) (m : Mempool) : Call → Mempool
  | .admitTransaction s t => (m.admitTransaction E s t).state
  | .drain => m.drain.2
  | .removeIds ids => m.removeIds E.crypto ids

variable {E : Env} {m : Mempool}

/-- A transaction is refused and nothing changes, or its id is not known and it is the last to
    wait. -/
theorem admitTransaction_cases (E : Env) (m : Mempool) (s : State) (t : Transaction) :
    (∃ e, m.admitTransaction E s t = ⟨.error e, m⟩) ∨
      m.transactions.length < maxMempoolTransactions ∧ State.ValidTransaction E s t ∧
        E.crypto.transactionId t ∉ m.ids ∧
        m.admitTransaction E s t = ⟨.ok (E.crypto.transactionId t),
          ⟨m.transactions ++ [t], m.ids.insert (E.crypto.transactionId t)⟩⟩ := by
  unfold admitTransaction
  by_cases hfull : maxMempoolTransactions ≤ m.transactions.length
  · rw [rejectIf_pos hfull]
    exact Or.inl ⟨_, rfl⟩
  rw [rejectIf_neg hfull]
  cases hvalid : State.validateTransaction E s t with
  | error e => cases e <;> exact Or.inl ⟨_, rfl⟩
  | ok id =>
    obtain ⟨ht, rfl⟩ := State.validateTransaction_eq_ok hvalid
    by_cases hknown : E.crypto.transactionId t ∈ m.ids
    · refine Or.inl ⟨.err .duplicateTransaction, ?_⟩
      show Applied.ofClone m (rejectIf (E.crypto.transactionId t ∈ m.ids) _ >>= _) = _
      rw [rejectIf_pos hknown]
      rfl
    · refine Or.inr ⟨by omega, ht, hknown, ?_⟩
      show Applied.ofClone m (rejectIf (E.crypto.transactionId t ∈ m.ids) _ >>= _) = _
      rw [rejectIf_neg hknown]
      rfl

theorem admitTransaction_rejected {s : State} {t : Transaction} {e : Fault NodeError}
    (h : (m.admitTransaction E s t).result = .error e) :
    (m.admitTransaction E s t).state = m := by
  rcases admitTransaction_cases E m s t with ⟨e', heq⟩ | ⟨-, -, -, heq⟩
  · rw [heq]
  · rw [heq] at h
    cases h

/-- **Exactly the listed ones are taken out**, and the others stay in their order. -/
theorem removeIds_spec (C : Crypto) (m : Mempool) (ids : List Hash) :
    (m.removeIds C ids).transactions.Sublist m.transactions ∧
      ∀ t, t ∈ (m.removeIds C ids).transactions ↔ t ∈ m.transactions ∧ C.transactionId t ∉ ids := by
  refine ⟨List.filter_sublist, fun t => ?_⟩
  exact List.mem_filter.trans (and_congr_right' decide_eq_true_iff)

/-! ## 2. What holds the vector and the set together -/

/-- The set holds the ids of the transactions that wait, no two of them have the same id, and there
    are not too many. -/
structure Valid (C : Crypto) (m : Mempool) : Prop where
  keyed : Keyed C.transactionId m.transactions m.ids
  length_le : m.transactions.length ≤ maxMempoolTransactions

theorem Valid.empty (C : Crypto) : Mempool.empty.Valid C :=
  ⟨.nil _, Nat.zero_le _⟩

theorem Valid.removeIds (h : m.Valid E.crypto) (ids : List Hash) :
    (m.removeIds E.crypto ids).Valid E.crypto :=
  ⟨h.keyed.remove ids, (List.length_filter_le ..).trans h.length_le⟩

theorem Valid.admitTransaction (h : m.Valid E.crypto) (s : State) (t : Transaction) :
    (m.admitTransaction E s t).state.Valid E.crypto := by
  rcases admitTransaction_cases E m s t with ⟨e, heq⟩ | ⟨hfull, -, hnew, heq⟩
  · rw [heq]
    exact h
  · rw [heq]
    refine ⟨h.keyed.push hnew, ?_⟩
    show (m.transactions ++ [t]).length ≤ _
    rw [List.length_append, List.length_singleton]
    exact hfull

/-- What one call keeps. -/
theorem Valid.next (h : m.Valid E.crypto) (c : Call) : (m.next E c).Valid E.crypto := by
  cases c with
  | admitTransaction s t => exact h.admitTransaction s t
  | drain => exact .empty _
  | removeIds ids => exact h.removeIds ids

/-- **The mempool stays valid**, whatever is called. -/
theorem valid_runs (h : m.Valid E.crypto) (calls : List Call) :
    (runs (Mempool.next E) m calls).Valid E.crypto :=
  (EachStep.of_forall fun _ _ => trivial).invariant (fun _ c _ hm => hm.next c) h

/-- **The two structures in step**, from an empty mempool, whatever is called, with whatever states
    and ids: the set is the set of the ids that wait, none waits twice, there are not too many, a
    refused transaction changes nothing, and exactly what is listed is taken out. -/
theorem mempool_in_step (E : Env) (calls : List Call) :
    (∀ id, id ∈ (runs (Mempool.next E) .empty calls).ids ↔
        ∃ t ∈ (runs (Mempool.next E) .empty calls).transactions, E.crypto.transactionId t = id) ∧
      ((runs (Mempool.next E) .empty calls).transactions.map E.crypto.transactionId).Nodup ∧
      (runs (Mempool.next E) .empty calls).transactions.length ≤ maxMempoolTransactions ∧
      (∀ s t e, ((runs (Mempool.next E) .empty calls).admitTransaction E s t).result = .error e →
        ((runs (Mempool.next E) .empty calls).admitTransaction E s t).state =
          runs (Mempool.next E) .empty calls) ∧
      ∀ ids,
        ((runs (Mempool.next E) .empty calls).removeIds E.crypto ids).transactions.Sublist
          (runs (Mempool.next E) .empty calls).transactions ∧
        ∀ t, t ∈ ((runs (Mempool.next E) .empty calls).removeIds E.crypto ids).transactions ↔
          t ∈ (runs (Mempool.next E) .empty calls).transactions ∧
            E.crypto.transactionId t ∉ ids := by
  have hvalid := valid_runs (.empty E.crypto) calls
  refine ⟨fun id => ?_, hvalid.keyed.nodup, hvalid.length_le, fun s t e he => ?_,
    removeIds_spec E.crypto _⟩
  · rw [hvalid.keyed.mem_iff, List.mem_map]
  · exact admitTransaction_rejected he

end Mempool

/-! ## 3. A node's mempool -/

namespace Node

variable {E : Env} {n : Node}

theorem mempool_ofClone {α : Type} {r : Outcome NodeError (α × Node)}
    (h : ∀ a m, r = .ok (a, m) → m.mempool = n.mempool) :
    (Applied.ofClone n r).state.mempool = n.mempool :=
  Applied.ofClone_rule (P := fun m : Node => m.mempool = n.mempool) rfl h

theorem mempool_adopt (n : Node) (io : Io) (s : State) (b : Block) :
    (n.adopt E io s b).state.mempool = n.mempool := by
  unfold adopt
  dsimp only
  cases (n.store.commit E (E.crypto.blockHeaderId b.header) b s.snapshot io.fault).result with
  | error e => cases e <;> rfl
  | ok u => rfl

theorem mempool_commitBlock (n : Node) (io : Io) (s : State) (batch : Batch)
    (proposer : Option KeyPair) :
    (n.commitBlock E io s batch proposer).state.mempool = n.mempool := by
  unfold commitBlock
  cases Unsigned.add (ε := NodeError) E.overflowChecks n.latestBlock.header.height 1 with
  | error e => rfl
  | ok height => exact mempool_adopt n io s _

theorem mempool_importBlock (n : Node) (io : Io) (b : Block) :
    (n.importBlock E io b).state.mempool = n.mempool ∨
      ∃ ids, (n.importBlock E io b).state.mempool = n.mempool.removeIds E.crypto ids := by
  unfold importBlock
  by_cases hversion : b.header.version ≠ 1
  · rw [rejectIf_pos hversion]
    exact Or.inl rfl
  · rw [rejectIf_neg hversion, Applied.attempt_ok]
    dsimp only
    split
    · exact Or.inl rfl
    · cases n.replay E b with
      | error e => exact Or.inl rfl
      | ok s =>
        rw [Applied.attempt_ok]
        have hadopt := mempool_adopt (E := E) n io s b
        generalize n.adopt E io s b = adopted at hadopt
        obtain ⟨result, m⟩ := adopted
        cases result with
        | error e => exact Or.inl hadopt
        | ok u => exact Or.inr ⟨_, rfl⟩

theorem mempool_produceBlock (n : Node) (io : Io) (proposer : Option KeyPair) :
    (n.produceBlockWithProposer E io proposer).state.mempool = n.mempool ∨
      (n.produceBlockWithProposer E io proposer).state.mempool = n.mempool.drain.2 := by
  unfold produceBlockWithProposer
  by_cases hturn : proposer.any (fun key => !n.isExpectedProposer (E.crypto.publicKey key)) = true
  · rw [rejectIf_pos hturn]
    exact Or.inl rfl
  · rw [rejectIf_neg hturn, Applied.attempt_ok]
    refine Or.inr ?_
    cases accept E n.state n.nextHeight (n.queue E) with
    | error e => rfl
    | ok r => exact mempool_commitBlock n.clearQueues io r.1 r.2 proposer

theorem mempool_faucet (n : Node) (io : Io) (address : Address) (amount : Amount) :
    (n.faucet E io address amount).state.mempool = n.mempool := by
  unfold faucet
  by_cases hdevnet : State.containsStr n.genesis.chainId "devnet" = false
  · rw [rejectIf_pos hdevnet]
    rfl
  · rw [rejectIf_neg hdevnet, Applied.attempt_ok]
    cases n.state.creditDevnet address amount with
    | mk result s =>
      cases result with
      | error e => cases e <;> rfl
      | ok u => exact mempool_commitBlock n io s .empty none

/-- **A call on a node** leaves its mempool alone or makes one call on it. -/
theorem mempool_next (n : Node) (c : Call) :
    (n.next E c).mempool = n.mempool ∨ ∃ c', (n.next E c).mempool = n.mempool.next E c' := by
  cases c with
  | submitTransaction t =>
    show (n.submitTransaction E t).state.mempool = _ ∨
      ∃ c', (n.submitTransaction E t).state.mempool = _
    unfold submitTransaction
    by_cases hstored : (n.store.getTransaction (E.crypto.transactionId t)).isOk = true
    · rw [rejectIf_pos hstored]
      exact Or.inl rfl
    · rw [rejectIf_neg hstored]
      exact Or.inr ⟨.admitTransaction n.state t, rfl⟩
  | submitAssetOperation o =>
    refine Or.inl (mempool_ofClone fun a m hr => ?_)
    simp only [rejectIf_bind_eq_ok] at hr
    obtain ⟨-, -, hr⟩ := hr
    cases hr
    rfl
  | submitTokenOperation o =>
    refine Or.inl (mempool_ofClone fun a m hr => ?_)
    obtain ⟨-, hr⟩ := rejectIf_bind_eq_ok.mp hr
    obtain ⟨_, -, hr⟩ := Outcome.bind_eq_ok.mp hr
    cases hr
    rfl
  | submitMnaSwap o =>
    refine Or.inl (mempool_ofClone fun a m hr => ?_)
    obtain ⟨-, hr⟩ := rejectIf_bind_eq_ok.mp hr
    obtain ⟨_, -, hr⟩ := Outcome.bind_eq_ok.mp hr
    cases hr
    rfl
  | submitMnaReserveOperation o =>
    refine Or.inl (mempool_ofClone fun a m hr => ?_)
    obtain ⟨-, hr⟩ := rejectIf_bind_eq_ok.mp hr
    obtain ⟨_, -, hr⟩ := Outcome.bind_eq_ok.mp hr
    cases hr
    rfl
  | submitProgramOperation o =>
    refine Or.inl (mempool_ofClone fun a m hr => ?_)
    obtain ⟨-, hr⟩ := rejectIf_bind_eq_ok.mp hr
    obtain ⟨_, -, hr⟩ := Outcome.bind_eq_ok.mp hr
    cases hr
    rfl
  | produceBlock io proposer =>
    exact (mempool_produceBlock n io proposer).imp_right fun h => ⟨.drain, h⟩
  | faucet io address amount => exact Or.inl (mempool_faucet n io address amount)
  | importBlock io b =>
    rcases mempool_importBlock n io b with h | ⟨ids, h⟩
    · exact Or.inl h
    · exact Or.inr ⟨.removeIds ids, h⟩
  | finalizeVotes io S =>
    show (n.finalizeVotes E io S).state.mempool = _ ∨ _
    rw [finalizeVotes_state]
    cases n.checkVotes E S with
    | error e => exact Or.inl rfl
    | ok u => exact Or.inl rfl

/-- **No call lets a transaction wait twice.** -/
theorem validMempool_next (h : n.mempool.Valid E.crypto) (c : Call) :
    (n.next E c).mempool.Valid E.crypto := by
  rcases mempool_next (E := E) n c with heq | ⟨c', heq⟩
  · rw [heq]
    exact h
  · rw [heq]
    exact h.next c'

end Node

end WorldstreetChain
