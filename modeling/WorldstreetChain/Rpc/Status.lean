import WorldstreetChain.Node.Nonces
import WorldstreetChain.Rpc.Bridge
import WorldstreetChain.State.Records

/-!
# Queries about single operations (`transaction_status` and its siblings)

A query answers with what is stored under the id, else with what waits under it. A transaction is
looked up in the index the store keeps of the transactions of its blocks, a token or swap operation
in the records of the state.

* `Rpc.transactionStatus`, `Rpc.tokenOperationStatus`, `Rpc.mnaSwapStatus` -- the answers.
* `Rpc.Indexed`, `Rpc.indexed_step` -- the index has the chain's transactions and no others.
* `Rpc.transaction_status_exact` -- **the answer is the chain's and the mempool's**.
* `Rpc.OnChain`, `Rpc.onChain_step` -- whatever is on record is in a block of the chain.
* `Rpc.confirmed_operations_on_chain` -- **what is answered as confirmed has been included**.
-/

namespace WorldstreetChain

open Std

namespace Rpc

/-! ## 1. The answers -/

/-- What a query finds. -/
inductive Answer (α : Type) where
  | confirmed (x : α)
  | pending (x : α)
  | notFound
  deriving DecidableEq

/-- The answer for what is stored, and what waits. -/
def Answer.of {α : Type} (stored waiting : Option α) : Answer α :=
  match stored, waiting with
  | some x, _ => .confirmed x
  | none, some x => .pending x
  | none, none => .notFound

section Queries

variable (E : Env) (n : Node) (id : Hash)

def transactionStatus : Answer Transaction :=
  .of (n.store.getTransaction id).toOption
    (n.mempool.transactions.find? fun t => E.crypto.transactionId t = id)

def tokenOperationStatus : Answer TokenOperation :=
  .of n.state.tokenOperationRecords[id]?
    (n.pendingTokenOperations.find? fun o => E.crypto.tokenOperationId o = id)

def mnaSwapStatus : Answer MnaSwapOperation :=
  .of n.state.mnaSwapOperationRecords[id]?
    (n.pendingMnaSwapOperations.find? fun o => E.crypto.mnaSwapOperationId o = id)

end Queries

theorem Answer.of_eq_confirmed {α : Type} {stored waiting : Option α} {x : α} :
    Answer.of stored waiting = .confirmed x ↔ stored = some x := by
  cases stored <;> cases waiting <;> simp [Answer.of]

theorem Answer.of_eq_pending {α : Type} {stored waiting : Option α} {x : α} :
    Answer.of stored waiting = .pending x ↔ stored = none ∧ waiting = some x := by
  cases stored <;> cases waiting <;> simp [Answer.of]

theorem Answer.of_eq_notFound {α : Type} {stored waiting : Option α} :
    Answer.of stored waiting = .notFound ↔ stored = none ∧ waiting = none := by
  cases stored <;> cases waiting <;> simp [Answer.of]

/-! ## 2. The index of transactions -/

variable {E : Env} {n n' : Node} {c : Node.Call} {s s' : State} {b : Block} {chain : List Block}

/-- The store has the chain's transactions under their ids, and no others. -/
structure Indexed (E : Env) (n : Node) (chain : List Block) : Prop where
  sound : ∀ id t, n.store.getTransaction id = .ok t →
    ∃ b ∈ chain, t ∈ b.transactions ∧ E.crypto.transactionId t = id
  complete : ∀ b ∈ chain, ∀ t ∈ b.transactions,
    (n.store.getTransaction (E.crypto.transactionId t)).isOk = true

theorem Indexed.congr (h : Indexed E n chain)
    (hstore : ∀ id, n'.store.getTransaction id = n.store.getTransaction id) :
    Indexed E n' chain := by
  refine ⟨fun id t ht => h.sound id t ?_, fun b hb t ht => ?_⟩
  · rw [← hstore]
    exact ht
  · rw [hstore]
    exact h.complete b hb t ht

theorem indexed_fresh (E : Env) (genesis : GenesisConfig) (s : State) :
    Indexed E (Node.fresh E genesis s) [Node.makeGenesisBlock E genesis s] := by
  refine ⟨fun id t ht => ?_, fun b hb t ht => ?_⟩
  · rw [Node.fresh_store, ← Node.take_commitWrites] at ht
    rcases Store.getTransaction_commit_cases (E := E) _
      (E.crypto.blockHeaderId (Node.makeGenesisBlock E genesis s).header)
      (Node.makeGenesisBlock E genesis s) s.snapshot _ id with ⟨t', ht', -, -⟩ | hkept
    · cases ht'
    · rw [hkept] at ht
      unfold Store.getTransaction at ht
      rw [Store.get_finalized_of_ne fun htree => by cases htree] at ht
      cases ht
  · rw [List.mem_singleton.mp hb] at ht
    cases ht

/-- A commit indexes the transactions of its block. -/
theorem Indexed.adopted (h : Indexed E n chain) (ha : Node.Adopted E n s b n') :
    Indexed E n' (chain ++ [b]) := by
  refine ⟨fun id t ht => ?_, fun a ha' t ht => ?_⟩
  · rw [ha.store, ← Node.take_commitWrites] at ht
    rcases Store.getTransaction_commit_cases (E := E) n.store
      (E.crypto.blockHeaderId b.header) b s.snapshot _ id with ⟨t', ht', hid, hnew⟩ | hkept
    · rw [hnew] at ht
      cases ht
      exact ⟨b, List.mem_append_right _ List.mem_cons_self, ht', hid⟩
    · rw [hkept] at ht
      obtain ⟨a, ha', hta, hid⟩ := h.sound id t ht
      exact ⟨a, List.mem_append_left _ ha', hta, hid⟩
  · rw [ha.store]
    rcases List.mem_append.mp ha' with ha' | ha'
    · rw [← Node.take_commitWrites]
      exact Store.getTransaction_mono (h.complete a ha' t ht)
    · rw [List.mem_singleton.mp ha'] at ht
      exact Store.getTransaction_commit ht

/-- **The step lemma.** -/
theorem indexed_step (h : Indexed E n chain) (hrel : Node.Reliable n c) :
    Indexed E (n.next E c) (chain ++ Node.adopted E n c) := by
  have hstep := Node.next_step (E := E) n c
  generalize hn : n.next E c = n' at hstep
  have hquiet : n'.latestBlock = n.latestBlock →
      (∀ id, n'.store.getTransaction id = n.store.getTransaction id) →
        Indexed E n' (chain ++ Node.adopted E n c) := fun hlatest hstore => by
    rw [Node.adopted_of_sameBlock (hn ▸ hlatest), List.append_nil]
    exact h.congr hstore
  cases hstep with
  | quiet _ htip _ => exact hquiet htip.latestBlock fun id => by rw [htip.store]
  | commit s b _ hc _ ha =>
    rw [Node.adopted_of_commits hc (hn ▸ ha.latestBlock)]
    exact h.adopted ha
  | cutOff _ _ k _ _ hfault _ _ =>
    rw [hrel] at hfault
    cases hfault
  | finalize _ S _ _ _ _ _ _ _ hn' =>
    refine hquiet (by rw [hn']) fun id => ?_
    subst hn'
    obtain ⟨k, hk⟩ := Store.perform_state n.store
      (Store.finalizedWrites S.height (n.latestHash E)) c.fault
    show (n.store.perform _ _).state.getTransaction id = _
    rw [hk]
    unfold Store.getTransaction
    rw [Store.get_finalized_take k fun ht => by cases ht]

theorem indexed_runs {calls : List Node.Call} (h : Indexed E n chain)
    (hrel : EachStep (Node.next E) Node.Reliable n calls) :
    Indexed E (runs (Node.next E) n calls) (chain ++ Node.chainOf.go E n calls) := by
  induction calls generalizing n chain with
  | nil =>
    show Indexed E n (chain ++ [])
    rw [List.append_nil]
    exact h
  | cons c calls ih =>
    rw [Node.go_cons, ← List.append_assoc]
    exact ih (indexed_step h hrel.1) hrel.2

theorem go_append (n : Node) (calls later : List Node.Call) :
    Node.chainOf.go E n (calls ++ later) =
      Node.chainOf.go E n calls ++ Node.chainOf.go E (runs (Node.next E) n calls) later := by
  induction calls generalizing n with
  | nil => rfl
  | cons c calls ih => rw [List.cons_append, Node.go_cons, Node.go_cons, ih, List.append_assoc,
      runs_cons]

/-- The transaction is in a block of the chain. -/
def Included (E : Env) (chain : List Block) (id : Hash) : Prop :=
  ∃ b ∈ chain, ∃ t ∈ b.transactions, E.crypto.transactionId t = id

/-- What an answer about a transaction stands for. -/
inductive Exact (E : Env) (n : Node) (chain : List Block) (id : Hash) :
    Answer Transaction → Prop where
  | confirmed (b : Block) (t : Transaction) (hb : b ∈ chain) (ht : t ∈ b.transactions)
      (hid : E.crypto.transactionId t = id) : Exact E n chain id (.confirmed t)
  | pending (t : Transaction) (ht : t ∈ n.mempool.transactions)
      (hid : E.crypto.transactionId t = id) (hnew : ¬ Included E chain id) :
      Exact E n chain id (.pending t)
  | notFound (hnone : ∀ t ∈ n.mempool.transactions, E.crypto.transactionId t ≠ id)
      (hnew : ¬ Included E chain id) : Exact E n chain id .notFound

theorem Indexed.not_included (h : Indexed E n chain) {id : Hash}
    (hnone : (n.store.getTransaction id).toOption = none) : ¬ Included E chain id := by
  rintro ⟨b, hb, t, ht, rfl⟩
  obtain ⟨t', ht'⟩ := Outcome.isOk_iff.mp (h.complete b hb t ht)
  rw [ht'] at hnone
  cases hnone

theorem Indexed.exact (h : Indexed E n chain) (id : Hash) :
    Exact E n chain id (transactionStatus E n id) := by
  cases hstatus : transactionStatus E n id with
  | confirmed t =>
    have hstored := Answer.of_eq_confirmed.mp hstatus
    cases hget : n.store.getTransaction id with
    | error e =>
      rw [hget] at hstored
      cases hstored
    | ok t' =>
      rw [hget] at hstored
      cases hstored
      obtain ⟨b, hb, ht, hid⟩ := h.sound id t hget
      exact .confirmed b t hb ht hid
  | pending t =>
    obtain ⟨hnone, hwaits⟩ := Answer.of_eq_pending.mp hstatus
    have hid := List.find?_some hwaits
    exact .pending t (List.mem_of_find?_eq_some hwaits) (of_decide_eq_true hid)
      (h.not_included hnone)
  | notFound =>
    obtain ⟨hnone, hwaits⟩ := Answer.of_eq_notFound.mp hstatus
    refine .notFound (fun t ht hid => ?_) (h.not_included hnone)
    exact List.find?_eq_none.mp hwaits t ht (decide_eq_true hid)

/-- **The answer is the chain's and the mempool's.** In every state of a node opened on a fresh
    directory whose storage calls do not fail, `transaction_status` answers with a transaction of
    the chain, or with one that waits and is in no block, or with neither if there is neither; and a
    transaction that is confirmed stays so. -/
theorem transaction_status_exact {configChainId : String} {genesis : GenesisConfig}
    {store : Store} {io : Io} {calls later : List Node.Call}
    (hopen : Node.openDir E configChainId genesis .empty io = ⟨.ok n, store⟩)
    (hrel : EachStep (Node.next E) Node.Reliable n (calls ++ later)) (id : Hash) :
    Exact E (runs (Node.next E) n calls) (Node.chainOf E n calls) id
        (transactionStatus E (runs (Node.next E) n calls) id) ∧
      ((∃ t, transactionStatus E (runs (Node.next E) n calls) id = .confirmed t) →
        ∃ t, transactionStatus E (runs (Node.next E) n (calls ++ later)) id = .confirmed t) := by
  obtain ⟨s, -, rfl⟩ := Node.openDir_empty hopen
  have hfresh := indexed_fresh E genesis s
  have hindexed := indexed_runs hfresh (eachStep_append.mp hrel).1
  have hlater := indexed_runs hfresh hrel
  refine ⟨hindexed.exact id, fun ⟨t, ht⟩ => ?_⟩
  have hexact := hindexed.exact id
  rw [ht] at hexact
  obtain ⟨b, _, hb, hmem, hid⟩ := hexact
  have hstays : b ∈ [Node.makeGenesisBlock E genesis s] ++
      Node.chainOf.go E (Node.fresh E genesis s) (calls ++ later) := by
    rw [go_append, ← List.append_assoc]
    exact List.mem_append_left _ hb
  obtain ⟨t', ht'⟩ := Outcome.isOk_iff.mp (hlater.complete b hstays t hmem)
  rw [hid] at ht'
  exact ⟨t', Answer.of_eq_confirmed.mpr (by rw [ht']; rfl)⟩

end Rpc

namespace Sample

def waitingTransfer : Transaction := transfer 0 otherAddress 10 1

def transferRun : List Node.Call := [.submitTransaction waitingTransfer]

end Sample

namespace Rpc

/-- A transfer waits; its answer stands for that. -/
theorem transaction_status_exact_transfer :
    Exact .standIn (runs (Node.next .standIn) Sample.freshNode Sample.transferRun)
      (Node.chainOf .standIn Sample.freshNode Sample.transferRun)
      (Env.standIn.crypto.transactionId Sample.waitingTransfer)
      (transactionStatus .standIn (runs (Node.next .standIn) Sample.freshNode Sample.transferRun)
        (Env.standIn.crypto.transactionId Sample.waitingTransfer)) := by
  have hopen : Node.openDir .standIn (Sample.genesis 1).chainId (Sample.genesis 1) .empty
      ⟨0, none⟩ = ⟨.ok Sample.freshNode, Sample.freshNode.store⟩ :=
    Node.openDir_fresh (Sample.fromGenesis_genesis 1) rfl
  have hrel : EachStep (Node.next .standIn) Node.Reliable Sample.freshNode
      (Sample.transferRun ++ [.produceBlock ⟨2, none⟩ none]) :=
    ⟨rfl, rfl, trivial⟩
  exact (transaction_status_exact hopen hrel
    (Env.standIn.crypto.transactionId Sample.waitingTransfer)).1

/-! ## 3. Operations on record -/

open Node (Accepts NoDuplicate NothingTwice commits_cases)

variable {E : Env} {n : Node} {c : Node.Call} {s s' : State} {b : Block} {chain : List Block}

variable {l accepted : List Operation} {kind : OperationKind} {id : Hash} {op : Operation}

/-- **What a pass puts on record** it takes. -/
theorem accepts_onRecord (h : Accepts E s l s' accepted)
    (hrecord : s'.onRecord kind id = some op) :
    s.onRecord kind id = some op ∨ op ∈ accepted ∧ op.key E.crypto = (kind, id) := by
  induction h with
  | nil s => exact Or.inl hrecord
  | @taken s s' first l accepted b hb _ ih =>
    rcases ih hrecord with hrecord | ⟨hop, hkey⟩
    · rcases State.onRecord_next (E := E) s first kind id with hsame | ⟨-, hkey, hnew⟩
      · exact Or.inl (hsame ▸ hrecord)
      · rw [hnew] at hrecord
        cases hrecord
        exact Or.inr ⟨List.mem_cons_self, hkey⟩
    · exact Or.inr ⟨List.mem_cons_of_mem _ hop, hkey⟩
  | @passed s s' first l accepted e he _ ih =>
    rcases ih hrecord with hrecord | hnew
    · rcases State.onRecord_next (E := E) s first kind id with hsame | ⟨htrue, -, -⟩
      · exact Or.inl (hsame ▸ hrecord)
      · rw [he] at htrue
        cases htrue
    · exact Or.inr hnew

/-- **What a pass takes is on record** behind it, where nothing is a duplicate. -/
theorem accepts_recorded (h : Accepts E s l s' accepted)
    (hno : EachStep (State.next E) (NoDuplicate E) s l) (hop : op ∈ accepted)
    (hkind : State.KeepsRecord (op.key E.crypto).1) :
    (s'.onRecord (op.key E.crypto).1 (op.key E.crypto).2).isSome = true := by
  induction h with
  | nil s => cases hop
  | @taken s s' first l accepted b hb hrest ih =>
    rcases List.mem_cons.mp hop with rfl | hop
    · cases b with
      | false => exact absurd hb hno.1
      | true =>
        rw [← hrest.runs_eq]
        refine State.isSome_onRecord_runs l ?_
        rw [State.onRecord_applied (State.apply_eq hb) hkind, if_pos rfl]
        rfl
    · exact ih hno.2 hop
  | passed e he _ ih => exact ih hno.2 hop

/-- Everything on record is in a block of the chain. -/
def OnChain (E : Env) (s : State) (chain : List Block) : Prop :=
  ∀ kind id op, s.onRecord kind id = some op → op.key E.crypto = (kind, id) ∧
    ∃ b ∈ chain, ∃ height, op ∈ b.batch.calls E.crypto height

/-- Everything in the chain that is recorded when it is applied is on record. -/
def RecordsChain (E : Env) (s : State) (chain : List Block) : Prop :=
  ∀ b ∈ chain, ∀ height, ∀ op ∈ b.batch.calls E.crypto height,
    State.KeepsRecord (op.key E.crypto).1 →
      (s.onRecord (op.key E.crypto).1 (op.key E.crypto).2).isSome = true

/-- A recorded operation does not depend on the height. -/
theorem mem_calls_of_keepsRecord {C : Crypto} {batch : Batch} {height height' : U64}
    (h : op ∈ batch.calls C height) (hkind : State.KeepsRecord (op.key C).1) :
    op ∈ batch.calls C height' := by
  cases op with
  | program o at' => exact hkind.elim
  | _ => simpa [Batch.calls] using h

theorem OnChain.of_accounts (h : OnChain E s chain) (accounts : BTreeMap Address Account) :
    OnChain E { s with accounts } (chain ++ [b]) := by
  intro kind id op hrecord
  have hsame : s.onRecord kind id = some op := by
    rw [← hrecord]
    cases kind <;> rfl
  obtain ⟨hkey, a, ha, height, hop⟩ := h kind id op hsame
  exact ⟨hkey, a, List.mem_append_left _ ha, height, hop⟩

/-- A committed block keeps the records and the chain together. -/
theorem OnChain.commit (h : OnChain E n.state chain) (hc : Node.Commits E n c s b) :
    OnChain E s (chain ++ [b]) := by
  rcases commits_cases hc with ⟨l, height, haccepts, -⟩ | ⟨-, ⟨accounts, rfl⟩, -⟩
  · intro kind id op hrecord
    rcases accepts_onRecord haccepts hrecord with hold | ⟨hop, hkey⟩
    · obtain ⟨hkey, a, ha, height, hop⟩ := h kind id op hold
      exact ⟨hkey, a, List.mem_append_left _ ha, height, hop⟩
    · exact ⟨hkey, b, List.mem_append_right _ List.mem_cons_self, height, hop⟩
  · exact h.of_accounts accounts

theorem RecordsChain.commit (h : RecordsChain E n.state chain) (hc : Node.Commits E n c s b)
    (hno : NothingTwice E n c) : RecordsChain E s (chain ++ [b]) := by
  intro a ha height op hop hkind
  rcases commits_cases hc with ⟨l, height', haccepts, hnew⟩ | ⟨hempty, ⟨accounts, rfl⟩, -⟩
  · rcases List.mem_append.mp ha with ha | ha
    · rw [← haccepts.runs_eq]
      exact State.isSome_onRecord_runs l (h a ha height op hop hkind)
    · rw [List.mem_singleton.mp ha] at hop
      exact accepts_recorded haccepts (hnew hno) (mem_calls_of_keepsRecord hop hkind) hkind
  · rcases List.mem_append.mp ha with ha | ha
    · have hold := h a ha height op hop hkind
      rw [← hold]
      cases (op.key E.crypto).1 <;> rfl
    · rw [List.mem_singleton.mp ha, hempty] at hop
      cases hop

/-- **The step lemma.** -/
theorem onChain_step (h : OnChain E n.state chain) (c : Node.Call) :
    OnChain E (n.next E c).state (chain ++ Node.adopted E n c) := by
  rcases Node.next_cases (E := E) n c with ⟨s, b, hc, ha⟩ | ⟨hlatest, hstate⟩
  · rw [Node.adopted_of_commits hc ha.latestBlock, ha.state]
    exact h.commit hc
  · rw [Node.adopted_of_sameBlock hlatest, List.append_nil, hstate]
    exact h

theorem recordsChain_step (h : RecordsChain E n.state chain) (hno : NothingTwice E n c) :
    RecordsChain E (n.next E c).state (chain ++ Node.adopted E n c) := by
  rcases Node.next_cases (E := E) n c with ⟨s, b, hc, ha⟩ | ⟨hlatest, hstate⟩
  · rw [Node.adopted_of_commits hc ha.latestBlock, ha.state]
    exact h.commit hc hno
  · rw [Node.adopted_of_sameBlock hlatest, List.append_nil, hstate]
    exact h

theorem onChain_runs (h : OnChain E n.state chain) (calls : List Node.Call) :
    OnChain E (runs (Node.next E) n calls).state (chain ++ Node.chainOf.go E n calls) := by
  induction calls generalizing n chain with
  | nil =>
    show OnChain E n.state (chain ++ [])
    rw [List.append_nil]
    exact h
  | cons c calls ih =>
    rw [Node.go_cons, ← List.append_assoc]
    exact ih (onChain_step h c)

theorem recordsChain_runs {calls : List Node.Call} (h : RecordsChain E n.state chain)
    (hno : EachStep (Node.next E) (NothingTwice E) n calls) :
    RecordsChain E (runs (Node.next E) n calls).state (chain ++ Node.chainOf.go E n calls) := by
  induction calls generalizing n chain with
  | nil =>
    show RecordsChain E n.state (chain ++ [])
    rw [List.append_nil]
    exact h
  | cons c calls ih =>
    rw [Node.go_cons, ← List.append_assoc]
    exact ih (recordsChain_step h hno.1) hno.2

/-- **What is answered as confirmed has been included.** On every run of a node opened on a fresh
    directory, whatever the store does: a token or swap operation that is confirmed is in a block of
    the chain under its id; and where no production takes up a duplicate, everything of these kinds
    that is in the chain is confirmed. -/
theorem confirmed_operations_on_chain {configChainId : String} {genesis : GenesisConfig}
    {store : Store} {io : Io} {calls : List Node.Call}
    (hopen : Node.openDir E configChainId genesis .empty io = ⟨.ok n, store⟩) :
    (∀ id o, tokenOperationStatus E (runs (Node.next E) n calls) id = .confirmed o →
      E.crypto.tokenOperationId o = id ∧
        ∃ b ∈ Node.chainOf E n calls, o ∈ b.tokenOperations) ∧
    (∀ id o, mnaSwapStatus E (runs (Node.next E) n calls) id = .confirmed o →
      E.crypto.mnaSwapOperationId o = id ∧
        ∃ b ∈ Node.chainOf E n calls, o ∈ b.mnaSwapOperations) ∧
    (EachStep (Node.next E) (NothingTwice E) n calls → ∀ b ∈ Node.chainOf E n calls,
      (∀ o ∈ b.tokenOperations, ∃ o', tokenOperationStatus E (runs (Node.next E) n calls)
        (E.crypto.tokenOperationId o) = .confirmed o') ∧
      ∀ o ∈ b.mnaSwapOperations, ∃ o', mnaSwapStatus E (runs (Node.next E) n calls)
        (E.crypto.mnaSwapOperationId o) = .confirmed o') := by
  obtain ⟨s, hs, rfl⟩ := Node.openDir_empty hopen
  have hnone : ∀ kind id, (Node.fresh E genesis s).state.onRecord kind id = none :=
    State.onRecord_fromGenesis hs
  have hgenesis : OnChain E (Node.fresh E genesis s).state [Node.makeGenesisBlock E genesis s] :=
    fun kind id op hop => by
      rw [hnone] at hop
      cases hop
  have hchain := onChain_runs hgenesis calls
  refine ⟨fun id o hstatus => ?_, fun id o hstatus => ?_, fun hno b hb => ?_⟩
  · have hstored := Answer.of_eq_confirmed.mp hstatus
    obtain ⟨hkey, b, hb, height, hop⟩ := hchain .token id (.token o id)
      (congrArg (Option.map (Operation.token · id)) hstored)
    refine ⟨congrArg Prod.snd hkey, b, hb, ?_⟩
    obtain ⟨o', ho', heq⟩ : ∃ o' ∈ b.tokenOperations,
        Operation.token o' (E.crypto.tokenOperationId o') = .token o id := by
      simpa [Batch.calls, Block.batch] using hop
    cases heq
    exact ho'
  · have hstored := Answer.of_eq_confirmed.mp hstatus
    obtain ⟨hkey, b, hb, height, hop⟩ := hchain .mnaSwap id (.mnaSwap o)
      (congrArg (Option.map Operation.mnaSwap) hstored)
    refine ⟨congrArg Prod.snd hkey, b, hb, ?_⟩
    simpa [Batch.calls, Block.batch] using hop
  · have hrecorded : RecordsChain E (Node.fresh E genesis s).state
        [Node.makeGenesisBlock E genesis s] := fun a ha height op hop => by
      rw [List.mem_singleton.mp ha] at hop
      cases hop
    have hrecords := recordsChain_runs hrecorded hno
    refine ⟨fun o ho => ?_, fun o ho => ?_⟩
    · have hrecord := hrecords b hb 0 (.token o (E.crypto.tokenOperationId o))
        (by simpa [Batch.calls, Block.batch] using ho) trivial
      have hstored := (Option.isSome_map ..).symm.trans hrecord
      obtain ⟨o', ho'⟩ := Option.isSome_iff_exists.mp hstored
      exact ⟨o', Answer.of_eq_confirmed.mpr ho'⟩
    · have hrecord := hrecords b hb 0 (.mnaSwap o)
        (by simpa [Batch.calls, Block.batch] using ho) trivial
      have hstored := (Option.isSome_map ..).symm.trans hrecord
      obtain ⟨o', ho'⟩ := Option.isSome_iff_exists.mp hstored
      exact ⟨o', Answer.of_eq_confirmed.mpr ho'⟩

end Rpc

namespace Sample

theorem confirmed_createRun :
    Rpc.tokenOperationStatus .standIn (runs (Node.next .standIn) freshNode createRun)
      (Env.standIn.crypto.tokenOperationId waitingToken) = .confirmed waitingToken := by
  decide +kernel

end Sample

namespace Rpc

/-- The token's operation is confirmed, is in a block, and is confirmed because it is. -/
theorem confirmed_operations_on_chain_token :
    ∃ b ∈ Node.chainOf .standIn Sample.freshNode Sample.createRun,
      Sample.waitingToken ∈ b.tokenOperations ∧
        ∃ o, tokenOperationStatus .standIn
          (runs (Node.next .standIn) Sample.freshNode Sample.createRun)
            (Env.standIn.crypto.tokenOperationId Sample.waitingToken) = .confirmed o := by
  have hopen : Node.openDir .standIn (Sample.genesis 1).chainId (Sample.genesis 1) .empty
      ⟨0, none⟩ = ⟨.ok Sample.freshNode, Sample.freshNode.store⟩ :=
    Node.openDir_fresh (Sample.fromGenesis_genesis 1) rfl
  obtain ⟨-, b, hb, ho⟩ := (confirmed_operations_on_chain hopen).1 _ _ Sample.confirmed_createRun
  have hincluded := (confirmed_operations_on_chain hopen).2.2 Sample.nothingTwice_createRun
  obtain ⟨o, hstatus⟩ := (hincluded b hb).1 Sample.waitingToken ho
  exact ⟨b, hb, ho, o, hstatus⟩

end Rpc

end WorldstreetChain
