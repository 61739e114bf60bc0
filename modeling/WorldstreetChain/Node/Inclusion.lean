import WorldstreetChain.Node.Calls
import WorldstreetChain.Node.Crash
import WorldstreetChain.Node.Mempool
import WorldstreetChain.Node.Production

/-!
# How often an operation is included

A block takes its operations from the queues or from another node. What keeps an operation from
being included twice is the state's set of processed ids for five kinds, and for transactions the nonce of
the sender and, where a node produces, the transactions it has stored. A producer takes an operation
that answers `Ok(false)` all the same, and an importer does not ask whether a transaction of the
faucet, which uses up no nonce, is stored.

* `Batch.keys` -- kinds and ids of a block's operations.
* `Node.IncludesOnce`, `Node.includesOnce_step` -- what a call keeps.
* `Node.included_once` -- **every operation is included at most once**, along every run whose blocks
  are new in these two respects.
-/

namespace WorldstreetChain

open Std

/-! ## 1. The operations of a block -/

/-- Kinds and ids, in the order in which a block is executed. -/
def Batch.keys (C : Crypto) (b : Batch) : List (OperationKind × Hash) :=
  b.transactions.map (fun t => (.transaction, C.transactionId t))
    ++ b.assetOperations.map (fun o => (.asset, o.operationId))
    ++ b.tokenOperations.map (fun o => (.token, C.tokenOperationId o))
    ++ b.mnaSwapOperations.map (fun o => (.mnaSwap, C.mnaSwapOperationId o))
    ++ b.mnaReserveOperations.map (fun o => (.mnaReserve, C.mnaReserveOperationId o))
    ++ b.programOperations.map (fun o => (.program, C.programOperationId o))

theorem Batch.map_key_calls (C : Crypto) (height : U64) (b : Batch) :
    (b.calls C height).map (Operation.key C) = b.keys C := by
  simp only [calls, keys, List.map_append, List.map_map]
  rfl

/-- The transaction, if it is one. -/
def Operation.transaction? : Operation → Option Transaction
  | .transaction t => some t
  | _ => none

theorem Batch.filterMap_calls (C : Crypto) (height : U64) (b : Batch) :
    (b.calls C height).filterMap Operation.transaction? = b.transactions := by
  simp [calls, List.filterMap_map, Function.comp_def, Operation.transaction?]

theorem Batch.mem_transactions_calls {C : Crypto} {height : U64} {b : Batch} {t : Transaction} :
    Operation.transaction t ∈ b.calls C height ↔ t ∈ b.transactions := by
  simp [calls]

/-- The node's faucet moves no nonce. -/
theorem State.nonceOf_creditDevnet (s : State) (address : Address) (amount : Amount) (a : Address) :
    (s.creditDevnet address amount).state.nonceOf a = s.nonceOf a := by
  have hsame : ∀ x : Account, x.nonce = s.nonceOf address →
      (s.insertAccount address x).nonceOf a = s.nonceOf a := fun x hx => by
    rw [nonceOf_insertAccount]
    by_cases ha : address = a
    · rw [if_pos ha, hx, ha]
    · rw [if_neg ha]
  have hentry := hsame _ (accountOf_nonce s address)
  unfold State.creditDevnet
  dsimp only
  cases Unsigned.checkedAdd (s.accountOf address).balance amount with
  | none => exact hentry
  | some balance =>
    show ((s.insertAccount address _).insertAccount address ⟨balance, _⟩).nonceOf a = _
    rw [nonceOf_insertAccount]
    by_cases ha : address = a
    · rw [if_pos ha, ← ha, accountOf_nonce]
    · rw [if_neg ha]
      exact hentry

/-- Only a transaction has a transaction's key. -/
theorem Operation.exists_transaction {C : Crypto} {op : Operation}
    (h : (op.key C).1 = .transaction) :
    ∃ t, op = .transaction t ∧ op.key C = (.transaction, C.transactionId t) := by
  cases op with
  | transaction t => exact ⟨t, rfl, rfl⟩
  | _ => cases h

theorem Batch.mem_keys {C : Crypto} (height : U64) {b : Batch} {key : OperationKind × Hash} :
    key ∈ b.keys C ↔ ∃ op ∈ b.calls C height, op.key C = key := by
  rw [← map_key_calls C height, List.mem_map]

theorem Batch.exists_transaction {C : Crypto} {b : Batch} {id : Hash}
    (h : (OperationKind.transaction, id) ∈ b.keys C) :
    ∃ t ∈ b.transactions, C.transactionId t = id := by
  obtain ⟨op, hop, hkey⟩ := (mem_keys 0).mp h
  have hkind : (op.key C).1 = .transaction := by rw [hkey]
  obtain ⟨t, rfl, hkey'⟩ := Operation.exists_transaction hkind
  rw [hkey'] at hkey
  exact ⟨t, mem_transactions_calls.mp hop, (Prod.mk.inj hkey).2⟩

namespace Node

variable {E : Env} {n n' : Node} {c : Call} {s : State} {b : Block} {chain : List Block}

/-! ## 2. A new block -/

/-- The block's transactions of the faucet are not stored, and no two of them have the same id. -/
structure FaucetNew (E : Env) (n : Node) (b : Block) : Prop where
  nodup : ((b.transactions.filter fun t => State.isFaucet E n.state t.unsigned).map
    E.crypto.transactionId).Nodup
  new : ∀ t ∈ b.transactions, State.isFaucet E n.state t.unsigned = true →
    (n.store.getTransaction (E.crypto.transactionId t)).isOk = false

/-- The block a call makes is new: no operation in the queues is a duplicate at its turn; an
    imported block repeats no transaction of the faucet. -/
def TakesNew (E : Env) (n : Node) : Call → Prop
  | .produceBlock _ _ => EachStep (State.next E) (NoDuplicate E) n.state
      ((n.queue E).calls E.crypto n.nextHeight)
  | .importBlock _ b => FaucetNew E n b
  | _ => True

/-- What a new block and the state it leads to have over the state before it. -/
structure NewBlock (E : Env) (n : Node) (s : State) (b : Block) (height : U64) : Prop where
  marked : ∀ op ∈ b.batch.calls E.crypto height, (op.key E.crypto).1 ≠ .transaction →
    ¬ n.state.Processed (op.key E.crypto).1 (op.key E.crypto).2 ∧
      s.Processed (op.key E.crypto).1 (op.key E.crypto).2
  distinct : (b.batch.calls E.crypto height).Pairwise fun op op' =>
    (op.key E.crypto).1 ≠ .transaction → op.key E.crypto ≠ op'.key E.crypto
  spent : ∀ op ∈ b.batch.calls E.crypto height, ∀ auth,
    State.authorization E n.state op = some auth →
      (n.state.nonceOf (auth.signer E)).toNat ≤ auth.nonce.toNat ∧
        auth.nonce.toNat < (s.nonceOf (auth.signer E)).toNat
  nonces : (b.batch.calls E.crypto height).Pairwise fun op op' => ∀ auth auth',
    State.authorization E n.state op = some auth →
      State.authorization E n.state op' = some auth' → auth.signer E = auth'.signer E →
        auth.nonce.toNat < auth'.nonce.toNat
  faucet : FaucetNew E n b
  processed : ∀ kind id, n.state.Processed kind id → s.Processed kind id
  nonceOf : ∀ a, (n.state.nonceOf a).toNat ≤ (s.nonceOf a).toNat
  chainId : s.chainId = n.state.chainId

theorem NewBlock.of_accepts {l : List Operation} {height : U64}
    (h : Accepts E n.state l s (b.batch.calls E.crypto height))
    (hno : EachStep (State.next E) (NoDuplicate E) n.state l) (hfaucet : FaucetNew E n b) :
    NewBlock E n s b height where
  marked _ hop hkind := h.marked hno hop hkind
  distinct := h.distinct hno
  spent _ hop _ hauth := h.spent hno hop hauth
  nonces := h.nonces hno
  faucet := hfaucet
  processed kind id hp := by
    rw [← h.runs_eq]
    exact hp.runs l
  nonceOf a := by
    rw [← h.runs_eq]
    exact State.nonceOf_le_runs l a
  chainId := by
    rw [← h.runs_eq]
    exact State.chainId_runs l

/-- What a producer takes from the mempool is neither stored nor there twice. -/
theorem faucetNew_produce (hpool : n.mempool.Valid E.crypto) {height : U64} {accepted : Batch}
    {header : BlockHeader} (haccept : accept E n.state height (n.queue E) = .ok (s, accepted)) :
    FaucetNew E n (accepted.toBlock header) := by
  unfold accept at haccept
  obtain ⟨⟨s1, l⟩, h1, h⟩ := Outcome.bind_eq_ok.mp haccept
  obtain ⟨⟨_, _⟩, -, h⟩ := Outcome.bind_eq_ok.mp h
  obtain ⟨⟨_, _⟩, -, h⟩ := Outcome.bind_eq_ok.mp h
  obtain ⟨⟨_, _⟩, -, h⟩ := Outcome.bind_eq_ok.mp h
  obtain ⟨⟨_, _⟩, -, h⟩ := Outcome.bind_eq_ok.mp h
  obtain ⟨⟨_, _⟩, -, h⟩ := Outcome.bind_eq_ok.mp h
  cases h
  have hsub : l.Sublist (n.queue E).transactions := acceptLoop_sublist h1
  refine ⟨?_, fun t ht _ => ?_⟩
  · have hall : (l.filter fun t => State.isFaucet E n.state t.unsigned).Sublist
        n.mempool.transactions :=
      (List.filter_sublist.trans hsub).trans List.filter_sublist
    exact hpool.keyed.nodup.sublist (hall.map _)
  · obtain ⟨-, hstored⟩ := List.mem_filter.mp (hsub.subset ht)
    simpa using hstored

/-- **The block that is committed is new**, where the call takes what is new. -/
theorem Commits.newBlock (hc : Commits E n c s b) (hnew : TakesNew E n c)
    (hpool : n.mempool.Valid E.crypto) : ∃ height, NewBlock E n s b height := by
  cases hc with
  | produce io proposer s accepted height hturn haccept hheight =>
    exact ⟨n.nextHeight, .of_accepts (accept_accepts haccept) hnew
      (faucetNew_produce hpool haccept)⟩
  | faucet io address amount s height hdevnet hcredit hheight =>
    have hstate : s = (n.state.creditDevnet address amount).state := by rw [hcredit]
    obtain ⟨accounts, hwrites⟩ := State.creditDevnet_writes n.state address amount
    have hnone : (Batch.empty.toBlock (n.makeHeader E io height s .empty none)).batch.calls
        E.crypto 0 = [] := rfl
    refine ⟨0, ?_, ?_, ?_, ?_, ⟨List.nodup_nil, fun t ht => by cases ht⟩, fun kind id hp => ?_,
      fun a => ?_, ?_⟩
    · rw [hnone]
      exact fun op hop => by cases hop
    · rw [hnone]
      exact List.Pairwise.nil
    · rw [hnone]
      exact fun op hop => by cases hop
    · rw [hnone]
      exact List.Pairwise.nil
    · rw [hstate, hwrites]
      cases kind <;> exact hp
    · rw [hstate, State.nonceOf_creditDevnet]
    · rw [hstate, hwrites]
  | «import» io b s hversion hfresh hreplay =>
    obtain ⟨happlies, hlast⟩ := execute_iff.mp (replay_eq_ok.mp hreplay).2.1
    have haccepts := accepts_of_applies happlies
    rw [hlast] at haccepts
    exact ⟨b.header.height, .of_accepts haccepts
      (happlies.mono fun s op h => h.noDuplicate) hnew⟩

/-! ## 3. One call -/

/-- Every operation of the chain is there once, and nothing of it can be taken again. -/
structure IncludesOnce (E : Env) (n : Node) (chain : List Block) : Prop where
  nodup : (chain.flatMap (·.batch.keys E.crypto)).Nodup
  processed : ∀ b ∈ chain, ∀ kind id, (kind, id) ∈ b.batch.keys E.crypto →
    kind ≠ .transaction → n.state.Processed kind id
  stored : ∀ b ∈ chain, ∀ t ∈ b.transactions,
    (n.store.getTransaction (E.crypto.transactionId t)).isOk = true
  spent : ∀ b ∈ chain, ∀ t ∈ b.transactions, ∀ auth,
    State.authorization E n.state (.transaction t) = some auth →
      auth.nonce.toNat < (n.state.nonceOf (auth.signer E)).toNat
  mempool : n.mempool.Valid E.crypto

/-- Two transactions of one unsigned content are signed for by one account and for one nonce. -/
theorem authorization_unsigned {t t' : Transaction} (h : t.unsigned = t'.unsigned)
    (hfaucet : State.isFaucet E s t.unsigned = false) :
    ∃ auth auth', State.authorization E s (.transaction t) = some auth ∧
      State.authorization E s (.transaction t') = some auth' ∧
      auth.signer E = auth'.signer E ∧ auth.nonce = auth'.nonce := by
  have hfaucet' : State.isFaucet E s t'.unsigned = false := h ▸ hfaucet
  refine ⟨⟨t.unsigned.publicKey, t.signingBytes, t.signature, t.unsigned.nonce⟩,
    ⟨t'.unsigned.publicKey, t'.signingBytes, t'.signature, t'.unsigned.nonce⟩, ?_, ?_, ?_, ?_⟩
  · simp [State.authorization, hfaucet]
  · simp [State.authorization, hfaucet']
  · show E.crypto.addressFromPublicKey _ = E.crypto.addressFromPublicKey _
    rw [h]
  · show t.unsigned.nonce = t'.unsigned.nonce
    rw [h]

/-- **A new block has no operation twice.** -/
theorem NewBlock.nodup {height : U64} (h : NewBlock E n s b height)
    (hsep : E.crypto.SeparatesTransactions b.transactions) :
    (b.batch.keys E.crypto).Nodup := by
  have hfaucet : b.transactions.Pairwise fun t t' => State.isFaucet E n.state t.unsigned = true →
      State.isFaucet E n.state t'.unsigned = true →
        E.crypto.transactionId t ≠ E.crypto.transactionId t' := by
    have hnodup := h.faucet.nodup
    rwa [List.Nodup, List.pairwise_map, List.pairwise_filter] at hnodup
  have hlist : (b.batch.calls E.crypto height).filterMap Operation.transaction? =
    b.transactions := b.batch.filterMap_calls E.crypto height
  rw [← hlist, List.pairwise_filterMap] at hfaucet
  rw [← Batch.map_key_calls E.crypto height, List.Nodup, List.pairwise_map]
  have hall := (h.distinct.and h.nonces).and hfaucet
  refine hall.imp_of_mem fun {op op'} hop hop' hpair heq => ?_
  obtain ⟨⟨hdistinct, hnonces⟩, hfaucets⟩ := hpair
  by_cases hkind : (op.key E.crypto).1 = .transaction
  · obtain ⟨t, rfl, hkey⟩ := Operation.exists_transaction hkind
    have hkind' : (op'.key E.crypto).1 = .transaction := by rw [← heq, hkey]
    obtain ⟨t', rfl, hkey'⟩ := Operation.exists_transaction hkind'
    rw [hkey, hkey', Prod.mk.injEq] at heq
    have hunsigned := hsep t (Batch.mem_transactions_calls.mp hop) t'
      (Batch.mem_transactions_calls.mp hop') heq.2
    cases hf : State.isFaucet E n.state t.unsigned with
    | true => exact hfaucets t rfl t' rfl hf (hunsigned ▸ hf) heq.2
    | false =>
      obtain ⟨auth, auth', hauth, hauth', hsigner, hnonce⟩ := authorization_unsigned hunsigned hf
      have hlt := hnonces auth auth' hauth hauth' hsigner
      rw [hnonce] at hlt
      exact Nat.lt_irrefl _ hlt
  · exact hdistinct hkind heq

/-- **Nothing of the chain is in a new block.** -/
theorem IncludesOnce.disjoint (h : IncludesOnce E n chain) {height : U64}
    (hb : NewBlock E n s b height)
    (hsep : E.crypto.SeparatesTransactions ((chain ++ [b]).flatMap Block.transactions))
    {a : Block} (ha : a ∈ chain) {kind : OperationKind} {id : Hash}
    (hchain : (kind, id) ∈ a.batch.keys E.crypto) : (kind, id) ∉ b.batch.keys E.crypto := by
  intro hblock
  by_cases hkind : kind = .transaction
  · subst hkind
    obtain ⟨t, ht, hid⟩ := Batch.exists_transaction hchain
    obtain ⟨t', ht', hid'⟩ := Batch.exists_transaction hblock
    have hmem : t ∈ (chain ++ [b]).flatMap Block.transactions :=
      List.mem_flatMap.mpr ⟨a, List.mem_append_left _ ha, ht⟩
    have hmem' : t' ∈ (chain ++ [b]).flatMap Block.transactions :=
      List.mem_flatMap.mpr ⟨b, List.mem_append_right _ List.mem_cons_self, ht'⟩
    have hunsigned := hsep t hmem t' hmem' (hid.trans hid'.symm)
    cases hf : State.isFaucet E n.state t.unsigned with
    | true =>
      have hnew := hb.faucet.new t' ht' (hunsigned ▸ hf)
      rw [hid', ← hid, h.stored a ha t ht] at hnew
      cases hnew
    | false =>
      obtain ⟨auth, auth', hauth, hauth', hsigner, hnonce⟩ := authorization_unsigned hunsigned hf
      have hspent := h.spent a ha t ht auth hauth
      have hnew := (hb.spent _ (Batch.mem_transactions_calls.mpr ht') auth' hauth').1
      rw [hsigner, hnonce] at hspent
      exact Nat.lt_irrefl _ (Nat.lt_of_lt_of_le hspent hnew)
  · obtain ⟨op, hop, hkey⟩ := (Batch.mem_keys height).mp hblock
    refine (hb.marked op hop (by rw [hkey]; exact hkind)).1 ?_
    rw [hkey]
    exact h.processed a ha kind id hchain hkind

/-- **A new block keeps the chain without repetition.** -/
theorem IncludesOnce.adopted (h : IncludesOnce E n chain) {height : U64}
    (hb : NewBlock E n s b height) (ha : Adopted E n s b n')
    (hsep : E.crypto.SeparatesTransactions ((chain ++ [b]).flatMap Block.transactions))
    (hpool : n'.mempool.Valid E.crypto) : IncludesOnce E n' (chain ++ [b]) := by
  refine ⟨?_, fun a hmem kind id hk hkind => ?_, fun a hmem t ht => ?_,
    fun a hmem t ht auth hauth => ?_, hpool⟩
  · rw [List.flatMap_append, List.flatMap_singleton, List.nodup_append]
    refine ⟨h.nodup, hb.nodup fun t ht t' ht' => ?_, fun key hkey key' hkey' heq => ?_⟩
    · have hlast : b ∈ chain ++ [b] := List.mem_append_right _ List.mem_cons_self
      exact hsep t (List.mem_flatMap.mpr ⟨b, hlast, ht⟩) t' (List.mem_flatMap.mpr ⟨b, hlast, ht'⟩)
    · subst heq
      obtain ⟨a, ha, hka⟩ := List.mem_flatMap.mp hkey
      exact h.disjoint hb hsep ha hka hkey'
  · rw [ha.state]
    rcases List.mem_append.mp hmem with hmem | hmem
    · exact hb.processed kind id (h.processed a hmem kind id hk hkind)
    · rw [List.mem_singleton.mp hmem] at hk
      obtain ⟨op, hop, hkey⟩ := (Batch.mem_keys height).mp hk
      have hmarked := (hb.marked op hop (by rw [hkey]; exact hkind)).2
      rw [hkey] at hmarked
      exact hmarked
  · rw [ha.store]
    rcases List.mem_append.mp hmem with hmem | hmem
    · have hkept : ((n.store.insertAll ((commitWrites E s b).take
          (commitWrites E s b).length)).getTransaction (E.crypto.transactionId t)).isOk = true :=
        Store.getTransaction_mono (h.stored a hmem t ht)
      rwa [List.take_length] at hkept
    · rw [List.mem_singleton.mp hmem] at ht
      exact Store.getTransaction_commit ht
  · rw [ha.state] at hauth ⊢
    rw [authorization_congr hb.chainId] at hauth
    rcases List.mem_append.mp hmem with hmem | hmem
    · exact Nat.lt_of_lt_of_le (h.spent a hmem t ht auth hauth) (hb.nonceOf _)
    · rw [List.mem_singleton.mp hmem] at ht
      exact (hb.spent _ (Batch.mem_transactions_calls.mpr ht) auth hauth).2

/-- **What a call keeps**: the chain, with the block it adopts, has no operation twice. -/
theorem includesOnce_step (h : IncludesOnce E n chain) (hnew : TakesNew E n c)
    (hsep : E.crypto.SeparatesTransactions
      ((chain ++ Node.adopted E n c).flatMap Block.transactions)) :
    IncludesOnce E (n.next E c) (chain ++ Node.adopted E n c) := by
  have hpool := validMempool_next h.mempool c
  have hstep := next_step (E := E) n c
  generalize hn : n.next E c = n' at hpool hstep
  have hquiet : ∀ n', n.next E c = n' → n'.mempool.Valid E.crypto → n'.state = n.state →
      n'.latestBlock = n.latestBlock →
      (∀ id, (n.store.getTransaction id).isOk = true → (n'.store.getTransaction id).isOk = true) →
        IncludesOnce E n' (chain ++ Node.adopted E n c) :=
    fun n' hn hpool hstate hlatest hstored => by
      rw [adopted_of_sameBlock (hn ▸ hlatest), List.append_nil]
      refine ⟨h.nodup, ?_, fun a ha t ht => hstored _ (h.stored a ha t ht), ?_, hpool⟩
      · rw [hstate]
        exact h.processed
      · rw [hstate]
        exact h.spent
  cases hstep with
  | quiet _ ht _ =>
    refine hquiet n' hn hpool ht.state ht.latestBlock fun id hid => ?_
    rw [ht.store]
    exact hid
  | commit s b _ hc _ ha =>
    rw [adopted_of_commits hc (hn ▸ ha.latestBlock)] at hsep ⊢
    obtain ⟨height, hb⟩ := hc.newBlock hnew h.mempool
    exact h.adopted hb ha hsep hpool
  | cutOff s b k _ _ _ _ hcut =>
    refine hquiet n' hn hpool hcut.state hcut.latestBlock fun id hid => ?_
    rw [hcut.store]
    exact Store.getTransaction_mono hid
  | finalize _ S current _ _ _ _ _ _ hn' =>
    refine hquiet n' hn hpool (by rw [hn']) (by rw [hn']) fun id hid => ?_
    subst hn'
    obtain ⟨k, hk⟩ := Store.perform_state n.store
      (Store.finalizedWrites S.height (n.latestHash E)) c.fault
    show ((n.store.perform _ _).state.getTransaction id).isOk = true
    rw [hk]
    unfold Store.getTransaction
    rw [Store.get_finalized_take k fun ht => by cases ht]
    exact hid

/-- **Along a run** the chain has no operation twice. -/
theorem includesOnce_runs {calls : List Call} (h : IncludesOnce E n chain)
    (hnew : EachStep (next E) (TakesNew E) n calls)
    (hsep : E.crypto.SeparatesTransactions
      ((chain ++ chainOf.go E n calls).flatMap Block.transactions)) :
    IncludesOnce E (runs (next E) n calls) (chain ++ chainOf.go E n calls) := by
  induction calls generalizing n chain with
  | nil =>
    show IncludesOnce E n (chain ++ [])
    rw [List.append_nil]
    exact h
  | cons c calls ih =>
    rw [go_cons, ← List.append_assoc] at hsep ⊢
    refine ih (includesOnce_step h hnew.1 fun t ht t' ht' => hsep t ?_ t' ?_) hnew.2 hsep
    · rw [List.flatMap_append]
      exact List.mem_append_left _ ht
    · rw [List.flatMap_append]
      exact List.mem_append_left _ ht'

theorem includesOnce_fresh (E : Env) (genesis : GenesisConfig) (s : State) :
    IncludesOnce E (fresh E genesis s) [makeGenesisBlock E genesis s] := by
  refine ⟨List.nodup_nil, fun b hb kind id hk => ?_, fun b hb t ht => ?_, fun b hb t ht => ?_,
    .empty _⟩
  all_goals
    rw [List.mem_singleton.mp hb] at *
  · cases hk
  · cases ht
  · cases ht

/-- **Exactly-once inclusion.** Along every run of a node opened on a fresh directory, whatever is
    submitted, produced, imported or credited and whatever the store does, no operation of a kind
    and id is in the chain twice, if transaction ids do not collide and every block that is made
    takes what is new. -/
theorem included_once {configChainId : String} {genesis : GenesisConfig} {store : Store} {io : Io}
    {calls : List Call} (hopen : openDir E configChainId genesis .empty io = ⟨.ok n, store⟩)
    (hsep : E.crypto.SeparatesTransactions ((chainOf E n calls).flatMap Block.transactions))
    (hnew : EachStep (next E) (TakesNew E) n calls) :
    ((chainOf E n calls).flatMap (·.batch.keys E.crypto)).Nodup := by
  obtain ⟨s, -, rfl⟩ := openDir_empty hopen
  exact (includesOnce_runs (includesOnce_fresh E genesis s) hnew hsep).nodup

end Node

/-! ## 4. A bridge mint and a transfer of the faucet -/

namespace Sample

def waitingMint : AssetOperation := bridge .mint 1 usdc 200

def mintBatch : Batch := { Batch.empty with assetOperations := [waitingMint] }

/-- The state behind the mint. -/
def mintedState : State := (genesisState 1).next .standIn (.asset waitingMint)

/-- A block with the mint, as any node makes it on top of the genesis block. -/
def mintBlock : Block :=
  mintBatch.toBlock (nodeWithMint.makeHeader .standIn ⟨2, none⟩ 1 mintedState mintBatch none)

/-- The node behind the import, with the mint still in its queue. -/
def mintedNode : Node := nodeWithMint.next .standIn (.importBlock ⟨3, none⟩ mintBlock)

/-- A transfer of the faucet, which has no account and so uses up no nonce. -/
def gift : Transaction := transferBy Crypto.devnetFaucet 0 otherAddress 10 1

def doubledBatch : Batch := { Batch.empty with transactions := [gift, gift] }

def doubledState : State :=
  runs (State.next .standIn) (genesisState 1) [.transaction gift, .transaction gift]

/-- A block that lists the transfer twice. -/
def doubledBlock : Block :=
  doubledBatch.toBlock (nodeWithMint.makeHeader .standIn ⟨2, none⟩ 1 doubledState doubledBatch
    none)

/-- The mint waits in the node and applies once; the block with it is the next one and is new.
    Behind the import the mint still waits, and the next block is the second. The transfer applies
    twice, and the block with it is new. -/
theorem evaluated_nodes :
    (nodeWithMint.queue .standIn = mintBatch ∧
      Node.Applies .standIn (genesisState 1) (.asset waitingMint) ∧
      (mintedState.apply .standIn (.asset waitingMint)).result = .ok false ∧
      Unsigned.add (ε := NodeError) Env.standIn.overflowChecks
        nodeWithMint.latestBlock.header.height 1 = .ok 1 ∧
      (nodeWithMint.store.getBlock
        (Env.standIn.crypto.blockHeaderId mintBlock.header)).isOk = false) ∧
    (mintedNode.queue .standIn = mintBatch ∧
      Unsigned.add (ε := NodeError) Env.standIn.overflowChecks mintBlock.header.height 1 =
        .ok 2) ∧
    (EachStep (State.next .standIn) (Node.Applies .standIn) (genesisState 1)
        [.transaction gift, .transaction gift] ∧
      (nodeWithMint.store.getBlock
        (Env.standIn.crypto.blockHeaderId doubledBlock.header)).isOk = false) := by
  decide +kernel

theorem applies_mint : Node.Applies .standIn (genesisState 1) (.asset waitingMint) :=
  evaluated_nodes.1.2.1

/-- The node that has the mint in its queue makes the block. -/
theorem commits_nodeWithMint :
    Node.Commits .standIn nodeWithMint (.produceBlock ⟨2, none⟩ none) mintedState mintBlock := by
  have hloop : Node.acceptLoop .standIn .asset (genesisState 1) [waitingMint] =
      .ok (mintedState, [waitingMint]) := by
    unfold Node.acceptLoop
    rw [State.apply_eq applies_mint]
    rfl
  obtain ⟨hqueue, -, -, hheight, -⟩ := evaluated_nodes.1
  have haccept : Node.accept .standIn nodeWithMint.state nodeWithMint.nextHeight
      (nodeWithMint.queue .standIn) = .ok (mintedState, mintBatch) := by
    rw [hqueue]
    exact Node.accept_assets hloop
  exact .produce ⟨2, none⟩ none mintedState mintBatch 1 (fun h => by cases h) haccept hheight

/-- It imports the block as well. -/
theorem commits_mintBlock :
    Node.Commits .standIn nodeWithMint (.importBlock ⟨3, none⟩ mintBlock) mintedState
      mintBlock := by
  obtain ⟨-, happlies, -, hheight, hnew⟩ := evaluated_nodes.1
  exact (Node.commits_import_iff (Node.extends_makeHeader hheight)).mpr
    ⟨hnew, rfl, Node.execute_iff.mpr ⟨⟨happlies, trivial⟩, rfl⟩⟩

theorem adopted_mintBlock :
    Node.Adopted .standIn nodeWithMint mintedState mintBlock mintedNode :=
  commits_mintBlock.adopted rfl

/-- It takes the mint once more, as a duplicate. -/
theorem accept_mintedNode : Node.accept .standIn mintedNode.state mintedNode.nextHeight
    (mintedNode.queue .standIn) = .ok (mintedState, mintBatch) := by
  have hduplicate := State.apply_eq evaluated_nodes.1.2.2.1
  rw [State.apply_false hduplicate] at hduplicate
  have hloop : Node.acceptLoop .standIn .asset mintedState [waitingMint] =
      .ok (mintedState, [waitingMint]) := by
    unfold Node.acceptLoop
    rw [hduplicate]
    rfl
  rw [evaluated_nodes.2.1.1, adopted_mintBlock.state]
  exact Node.accept_assets hloop

/-- The block that holds the mint once more. -/
def secondMintBlock : Block :=
  mintBatch.toBlock (mintedNode.makeHeader .standIn ⟨4, none⟩ 2 mintedState mintBatch none)

theorem commits_secondMintBlock :
    Node.Commits .standIn mintedNode (.produceBlock ⟨4, none⟩ none) mintedState
      secondMintBlock := by
  refine .produce ⟨4, none⟩ none mintedState mintBatch 2 (fun h => by cases h) accept_mintedNode ?_
  rw [adopted_mintBlock.latestBlock]
  exact evaluated_nodes.2.1.2

theorem commits_doubledBlock :
    Node.Commits .standIn nodeWithMint (.importBlock ⟨3, none⟩ doubledBlock) doubledState
      doubledBlock := by
  obtain ⟨happlies, hnew⟩ := evaluated_nodes.2.2
  obtain ⟨-, -, -, hheight, -⟩ := evaluated_nodes.1
  exact (Node.commits_import_iff (Node.extends_makeHeader hheight)).mpr
    ⟨hnew, rfl, Node.execute_iff.mpr ⟨happlies, rfl⟩⟩

end Sample

namespace Node

theorem adopted_submit : adopted .standIn
    (fresh .standIn (Sample.genesis 1) (Sample.genesisState 1))
      (.submitAssetOperation Sample.waitingMint) = [] :=
  adopted_of_sameBlock (submitAssetOperation_sameTip _ _).latestBlock

/-- Operations of three kinds, in two blocks. -/
theorem included_once_blocks :
    ((chainOf Sample.tagged Sample.taggedNode Sample.twoBlocks).flatMap
        (·.batch.keys Sample.tagged.crypto)).Nodup ∧
      ((chainOf Sample.tagged Sample.taggedNode Sample.twoBlocks).flatMap
        (·.batch.keys Sample.tagged.crypto)).map Prod.fst =
          [.transaction, .asset, .mnaSwap] := by
  have hkeys : (chainOf Sample.tagged Sample.taggedNode Sample.twoBlocks).flatMap
        Block.transactions = [Sample.transfer 0 Sample.otherAddress 10 1] ∧
      ((chainOf Sample.tagged Sample.taggedNode Sample.twoBlocks).flatMap
        (·.batch.keys Sample.tagged.crypto)).map Prod.fst = [.transaction, .asset, .mnaSwap] := by
    decide +kernel
  have hsep : Sample.tagged.crypto.SeparatesTransactions
      ((chainOf Sample.tagged Sample.taggedNode Sample.twoBlocks).flatMap
        Block.transactions) := by
    rw [hkeys.1]
    intro t ht t' ht' _
    rw [List.mem_singleton.mp ht, List.mem_singleton.mp ht']
  have hnew : EachStep (next Sample.tagged) (TakesNew Sample.tagged) Sample.taggedNode
      Sample.twoBlocks := by
    refine ⟨trivial, trivial, ?_, trivial, ?_, trivial⟩
    · unfold TakesNew
      decide +kernel
    · unfold TakesNew
      decide +kernel
  exact ⟨included_once openDir_taggedNode hsep hnew, hkeys.2⟩

/-- **Operations that are included twice**: a mint that waits in the queue while another node's
    block with it is imported, and a transfer of the faucet that a block lists twice. -/
theorem operations_included_twice :
    openDir .standIn Sample.chainId (Sample.genesis 1) .empty ⟨0, none⟩ =
        ⟨.ok (fresh .standIn (Sample.genesis 1) (Sample.genesisState 1)),
          (fresh .standIn (Sample.genesis 1) (Sample.genesisState 1)).store⟩ ∧
      ¬ ((chainOf .standIn (fresh .standIn (Sample.genesis 1) (Sample.genesisState 1))
        [.submitAssetOperation Sample.waitingMint, .importBlock ⟨3, none⟩ Sample.mintBlock,
          .produceBlock ⟨4, none⟩ none]).flatMap (·.batch.keys Env.standIn.crypto)).Nodup ∧
      ¬ ((chainOf .standIn (fresh .standIn (Sample.genesis 1) (Sample.genesisState 1))
        [.submitAssetOperation Sample.waitingMint,
          .importBlock ⟨3, none⟩ Sample.doubledBlock]).flatMap (·.batch.keys Env.standIn.crypto)).Nodup := by
  have himport : adopted .standIn Sample.nodeWithMint (.importBlock ⟨3, none⟩ Sample.mintBlock) =
      [Sample.mintBlock] :=
    adopted_of_commits Sample.commits_mintBlock Sample.adopted_mintBlock.latestBlock
  have hproduce : adopted .standIn Sample.mintedNode (.produceBlock ⟨4, none⟩ none) =
      [Sample.secondMintBlock] :=
    adopted_of_commits Sample.commits_secondMintBlock
      (Sample.commits_secondMintBlock.adopted rfl).latestBlock
  have hdoubled : adopted .standIn Sample.nodeWithMint
      (.importBlock ⟨3, none⟩ Sample.doubledBlock) = [Sample.doubledBlock] :=
    adopted_of_commits Sample.commits_doubledBlock
      (Sample.commits_doubledBlock.adopted rfl).latestBlock
  refine ⟨openDir_fresh (Sample.fromGenesis_genesis 1) rfl, ?_, ?_⟩
  · show ¬ ((_ :: (adopted .standIn _ _ ++ (adopted .standIn Sample.nodeWithMint _ ++
      (adopted .standIn Sample.mintedNode _ ++ [])))).flatMap _).Nodup
    rw [adopted_submit, himport, hproduce]
    show ¬ [(OperationKind.asset, Sample.waitingMint.operationId),
      (OperationKind.asset, Sample.waitingMint.operationId)].Nodup
    simp
  · show ¬ ((_ :: (adopted .standIn _ _ ++ (adopted .standIn Sample.nodeWithMint _ ++
      []))).flatMap _).Nodup
    rw [adopted_submit, hdoubled]
    show ¬ [(OperationKind.transaction, Env.standIn.crypto.transactionId Sample.gift),
      (OperationKind.transaction, Env.standIn.crypto.transactionId Sample.gift)].Nodup
    simp

end Node

end WorldstreetChain
