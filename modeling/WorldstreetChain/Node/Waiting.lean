import WorldstreetChain.Node.Inclusion

/-!
# What waits on a node

Operations wait in the mempool and in five queues until a block is made of them. Each was valid when
it was submitted, for the nonce its signer had then, and nonces never go back: nothing that waits is
ahead of its signer. So a block a node makes takes at most one operation of an account, however many
wait, and the account is free for its next nonce only behind the block.

* `Node.waiting` -- the six lists.
* `Node.WaitingStep`, `Node.waiting_step` -- **what a call does to them**: less waits, or one valid
  operation more.
* `Node.Behind`, `Node.behind_next` -- nothing is ahead of its signer.
* `Node.one_nonce_a_block` -- **one nonce a block**.
-/

namespace WorldstreetChain

open Std

/-! ## 1. The six lists -/

namespace Batch

variable {C : Crypto} {height : U64} {b b' : Batch}

/-- Each list is a part of the other's. -/
structure Within (b' b : Batch) : Prop where
  transactions : b'.transactions.Sublist b.transactions
  assetOperations : b'.assetOperations.Sublist b.assetOperations
  tokenOperations : b'.tokenOperations.Sublist b.tokenOperations
  mnaSwapOperations : b'.mnaSwapOperations.Sublist b.mnaSwapOperations
  mnaReserveOperations : b'.mnaReserveOperations.Sublist b.mnaReserveOperations
  programOperations : b'.programOperations.Sublist b.programOperations

theorem Within.refl (b : Batch) : b.Within b :=
  ⟨.refl _, .refl _, .refl _, .refl _, .refl _, .refl _⟩

theorem Within.calls (h : b'.Within b) (C : Crypto) (height : U64) :
    (b'.calls C height).Sublist (b.calls C height) := by
  have h12 := (h.transactions.map Operation.transaction).append (h.assetOperations.map .asset)
  have h123 := h12.append (h.tokenOperations.map fun o => .token o (C.tokenOperationId o))
  have h1234 := h123.append (h.mnaSwapOperations.map .mnaSwap)
  have h12345 := h1234.append (h.mnaReserveOperations.map .mnaReserve)
  exact h12345.append (h.programOperations.map (Operation.program · height))

/-- One more operation, at the end of the list of its kind. -/
inductive Pushed (C : Crypto) (height : U64) (b : Batch) : Operation → Batch → Prop where
  | transaction (t : Transaction) :
      Pushed C height b (.transaction t) { b with transactions := b.transactions ++ [t] }
  | asset (o : AssetOperation) :
      Pushed C height b (.asset o) { b with assetOperations := b.assetOperations ++ [o] }
  | token (o : TokenOperation) :
      Pushed C height b (.token o (C.tokenOperationId o))
        { b with tokenOperations := b.tokenOperations ++ [o] }
  | mnaSwap (o : MnaSwapOperation) :
      Pushed C height b (.mnaSwap o) { b with mnaSwapOperations := b.mnaSwapOperations ++ [o] }
  | mnaReserve (o : MnaReserveOperation) :
      Pushed C height b (.mnaReserve o)
        { b with mnaReserveOperations := b.mnaReserveOperations ++ [o] }
  | program (o : ProgramOperation) :
      Pushed C height b (.program o height)
        { b with programOperations := b.programOperations ++ [o] }

theorem Pushed.calls {op : Operation} (h : Pushed C height b op b') :
    (b'.calls C height).Perm (op :: b.calls C height) := by
  have hlast : ∀ (l : List Operation) (op : Operation), (l ++ [op]).Perm (op :: l) :=
    fun l op => List.perm_append_singleton op l
  cases h
  all_goals
    simp only [Batch.calls, List.map_append, List.map_cons, List.map_nil, ← List.append_assoc]
  · exact (((((hlast _ _).append_right _).append_right _).append_right _).append_right _).append_right _
  · exact ((((hlast _ _).append_right _).append_right _).append_right _).append_right _
  · exact (((hlast _ _).append_right _).append_right _).append_right _
  · exact ((hlast _ _).append_right _).append_right _
  · exact (hlast _ _).append_right _
  · exact hlast _ _

end Batch

namespace Node

variable {E : Env} {n n' : Node} {c : Call}

/-- What waits: the transactions of the mempool and the five queues. -/
def waiting (n : Node) : Batch where
  transactions := n.mempool.transactions
  assetOperations := n.pendingAssetOperations
  tokenOperations := n.pendingTokenOperations
  mnaSwapOperations := n.pendingMnaSwapOperations
  mnaReserveOperations := n.pendingMnaReserveOperations
  programOperations := n.pendingProgramOperations

theorem queue_within (E : Env) (n : Node) : (n.queue E).Within n.waiting :=
  ⟨List.filter_sublist, .refl _, .refl _, .refl _, .refl _, .refl _⟩

/-! ## 2. The waiting rule -/

/-- What a call can do to what waits: less waits, or one operation more, whose id did not wait and
    whose nonce is its signer's. -/
inductive WaitingStep (E : Env) (n n' : Node) : Prop where
  | fewer (h : n'.waiting.Within n.waiting)
  | pushed (op : U64 → Operation) (hpushed : ∀ height, n.waiting.Pushed E.crypto height (op height)
        n'.waiting)
      (hnew : ∀ height, (op height).key E.crypto ∉ n.waiting.keys E.crypto)
      (hnonce : ∀ height auth, State.authorization E n.state (op height) = some auth →
        n.state.nonceOf (auth.signer E) = auth.nonce)

theorem waiting_ofClone {α : Type} {r : Outcome NodeError (α × Node)}
    (h : ∀ a m, r = .ok (a, m) → WaitingStep E n m) :
    WaitingStep E n (Applied.ofClone n r).state :=
  Applied.ofClone_rule (P := WaitingStep E n) (.fewer (.refl _)) h

theorem mem_keys_token {C : Crypto} {b : Batch} {o : TokenOperation} :
    Operation.key C (.token o (C.tokenOperationId o)) ∈ b.keys C ↔
      C.tokenOperationId o ∈ b.tokenOperations.map C.tokenOperationId := by
  simp [Batch.keys, Operation.key]

theorem mem_keys_asset {C : Crypto} {b : Batch} {o : AssetOperation} :
    Operation.key C (.asset o) ∈ b.keys C ↔
      o.operationId ∈ b.assetOperations.map AssetOperation.operationId := by
  simp [Batch.keys, Operation.key]

theorem mem_keys_mnaSwap {C : Crypto} {b : Batch} {o : MnaSwapOperation} :
    Operation.key C (.mnaSwap o) ∈ b.keys C ↔
      C.mnaSwapOperationId o ∈ b.mnaSwapOperations.map C.mnaSwapOperationId := by
  simp [Batch.keys, Operation.key]

theorem mem_keys_mnaReserve {C : Crypto} {b : Batch} {o : MnaReserveOperation} :
    Operation.key C (.mnaReserve o) ∈ b.keys C ↔
      C.mnaReserveOperationId o ∈ b.mnaReserveOperations.map C.mnaReserveOperationId := by
  simp [Batch.keys, Operation.key]

theorem mem_keys_program {C : Crypto} {b : Batch} {o : ProgramOperation} {height : U64} :
    Operation.key C (.program o height) ∈ b.keys C ↔
      C.programOperationId o ∈ b.programOperations.map C.programOperationId := by
  simp [Batch.keys, Operation.key]

theorem mem_keys_transaction {C : Crypto} {b : Batch} {t : Transaction} :
    Operation.key C (.transaction t) ∈ b.keys C ↔
      C.transactionId t ∈ b.transactions.map C.transactionId := by
  simp [Batch.keys, Operation.key]

theorem waiting_submitTransaction (hpool : n.mempool.Valid E.crypto) (t : Transaction) :
    WaitingStep E n (n.submitTransaction E t).state := by
  unfold submitTransaction
  by_cases h : (n.store.getTransaction (E.crypto.transactionId t)).isOk = true
  · rw [rejectIf_pos h]
    exact .fewer (.refl _)
  · rw [rejectIf_neg h]
    rcases Mempool.admitTransaction_cases E n.mempool n.state t with
      ⟨e, heq⟩ | ⟨-, hvalid, hnew, heq⟩
    · refine .fewer ?_
      show Batch.Within { n.waiting with transactions := _ } n.waiting
      rw [heq]
      exact .refl _
    · refine .pushed (fun _ => .transaction t) (fun height => ?_) (fun _ => ?_)
        fun _ auth hauth => ?_
      · show n.waiting.Pushed _ _ _ { n.waiting with transactions := _ }
        rw [heq]
        exact .transaction t
      · rw [mem_keys_transaction]
        exact fun hmem => hnew ((hpool.keyed.mem_iff _).mpr hmem)
      · cases hf : State.isFaucet E n.state t.unsigned with
        | true => simp [State.authorization, hf] at hauth
        | false =>
          simp only [State.authorization, hf, Bool.false_eq_true, if_false, Option.some.injEq]
            at hauth
          subst hauth
          show n.state.nonceOf (E.crypto.addressFromPublicKey _) = _
          rw [hvalid.derives]
          exact hvalid.nonceOf hf

theorem waiting_submitAssetOperation (n : Node) (o : AssetOperation) :
    WaitingStep E n (n.submitAssetOperation o).state := by
  refine waiting_ofClone fun a m h => ?_
  obtain ⟨-, h⟩ := rejectIf_bind_eq_ok.mp h
  obtain ⟨hnew, h⟩ := rejectIf_bind_eq_ok.mp h
  cases h
  refine .pushed (fun _ => .asset o) (fun _ => .asset o) (fun _ hmem => ?_) fun _ auth h => ?_
  · exact hnew (Or.inr (mem_keys_asset.mp hmem))
  · cases h

theorem waiting_submitTokenOperation (n : Node) (o : TokenOperation) :
    WaitingStep E n (n.submitTokenOperation E o).state := by
  refine waiting_ofClone fun a m h => ?_
  obtain ⟨hnew, h⟩ := rejectIf_bind_eq_ok.mp h
  obtain ⟨id, hvalid, h⟩ := Outcome.bind_eq_ok.mp h
  cases h
  obtain ⟨hv, -⟩ := State.validateTokenOperation_eq_ok (Outcome.mapErr_eq_ok.mp hvalid)
  refine .pushed (fun _ => .token o (E.crypto.tokenOperationId o)) (fun _ => .token o)
    (fun _ hmem => ?_) fun _ auth hauth => ?_
  · exact hnew (Or.inr (mem_keys_token.mp hmem))
  · cases hauth
    obtain ⟨x, hx, hnonce⟩ := hv.nonce
    rw [← hv.derives] at hx
    exact (State.nonceOf_of_get hx).trans hnonce

theorem waiting_submitMnaSwap (n : Node) (o : MnaSwapOperation) :
    WaitingStep E n (n.submitMnaSwap E o).state := by
  refine waiting_ofClone fun a m h => ?_
  obtain ⟨hnew, h⟩ := rejectIf_bind_eq_ok.mp h
  obtain ⟨id, hvalid, h⟩ := Outcome.bind_eq_ok.mp h
  cases h
  obtain ⟨hv, -⟩ := State.validateMnaSwap_eq_ok (Outcome.mapErr_eq_ok.mp hvalid)
  refine .pushed (fun _ => .mnaSwap o) (fun _ => .mnaSwap o) (fun _ hmem => ?_)
    fun _ auth hauth => ?_
  · exact hnew (Or.inr (mem_keys_mnaSwap.mp hmem))
  · cases hauth
    obtain ⟨x, hx, hnonce⟩ := hv.nonce
    rw [← hv.derives] at hx
    exact (State.nonceOf_of_get hx).trans hnonce

theorem waiting_submitMnaReserveOperation (n : Node) (o : MnaReserveOperation) :
    WaitingStep E n (n.submitMnaReserveOperation E o).state := by
  refine waiting_ofClone fun a m h => ?_
  obtain ⟨hnew, h⟩ := rejectIf_bind_eq_ok.mp h
  obtain ⟨id, -, h⟩ := Outcome.bind_eq_ok.mp h
  cases h
  refine .pushed (fun _ => .mnaReserve o) (fun _ => .mnaReserve o) (fun _ hmem => ?_)
    fun _ auth h => ?_
  · exact hnew (Or.inr (mem_keys_mnaReserve.mp hmem))
  · cases h

theorem waiting_submitProgramOperation (n : Node) (o : ProgramOperation) :
    WaitingStep E n (n.submitProgramOperation E o).state := by
  refine waiting_ofClone fun a m h => ?_
  obtain ⟨hnew, h⟩ := rejectIf_bind_eq_ok.mp h
  obtain ⟨u, hvalid, h⟩ := Outcome.bind_eq_ok.mp h
  cases h
  obtain ⟨⟨id, s⟩, hmut, -⟩ := Outcome.bind_eq_ok.mp (Outcome.mapErr_eq_ok.mp hvalid)
  obtain ⟨hv, -⟩ := State.applyProgramOperationMut_steps hmut
  refine .pushed (fun height => .program o height) (fun _ => .program o) (fun _ hmem => ?_)
    fun _ auth hauth => ?_
  · exact hnew (Or.inr (mem_keys_program.mp hmem))
  · cases hauth
    exact hv.nonce

theorem waiting_adopt (n : Node) (io : Io) (s : State) (b : Block) :
    (n.adopt E io s b).state.waiting = n.waiting := by
  unfold adopt
  dsimp only
  cases (n.store.commit E (E.crypto.blockHeaderId b.header) b s.snapshot io.fault).result with
  | error e => cases e <;> rfl
  | ok u => rfl

theorem waiting_commitBlock (n : Node) (io : Io) (s : State) (batch : Batch)
    (proposer : Option KeyPair) :
    (n.commitBlock E io s batch proposer).state.waiting = n.waiting := by
  unfold commitBlock
  cases Unsigned.add (ε := NodeError) E.overflowChecks n.latestBlock.header.height 1 with
  | error e => rfl
  | ok height => exact waiting_adopt n io s _

theorem waiting_produceBlock (n : Node) (io : Io) (proposer : Option KeyPair) :
    (n.produceBlockWithProposer E io proposer).state.waiting.Within n.waiting := by
  have hnone : Batch.empty.Within n.waiting := by
    constructor <;> exact List.nil_sublist _
  unfold produceBlockWithProposer
  by_cases hturn : proposer.any (fun key => !n.isExpectedProposer (E.crypto.publicKey key)) = true
  · rw [rejectIf_pos hturn]
    exact .refl _
  · rw [rejectIf_neg hturn, Applied.attempt_ok]
    cases accept E n.state n.nextHeight (n.queue E) with
    | error e => exact hnone
    | ok r =>
      rw [Applied.attempt_ok, waiting_commitBlock]
      exact hnone

theorem waiting_faucet (n : Node) (io : Io) (address : Address) (amount : Amount) :
    (n.faucet E io address amount).state.waiting = n.waiting := by
  unfold faucet
  by_cases hdevnet : State.containsStr n.genesis.chainId "devnet" = false
  · rw [rejectIf_pos hdevnet]
    rfl
  · rw [rejectIf_neg hdevnet, Applied.attempt_ok]
    cases n.state.creditDevnet address amount with
    | mk result s =>
      cases result with
      | error e => cases e <;> rfl
      | ok u => exact waiting_commitBlock n io s .empty none

theorem waiting_importBlock (n : Node) (io : Io) (b : Block) :
    (n.importBlock E io b).state.waiting.Within n.waiting := by
  unfold importBlock
  by_cases hversion : b.header.version ≠ 1
  · rw [rejectIf_pos hversion]
    exact .refl _
  · rw [rejectIf_neg hversion, Applied.attempt_ok]
    dsimp only
    split
    · exact .refl _
    · cases n.replay E b with
      | error e => exact .refl _
      | ok s =>
        rw [Applied.attempt_ok]
        have hadopt := waiting_adopt (E := E) n io s b
        generalize n.adopt E io s b = adopted at hadopt
        obtain ⟨result, m⟩ := adopted
        cases result with
        | error e =>
          show m.waiting.Within n.waiting
          rw [hadopt]
          exact .refl _
        | ok u =>
          show Batch.Within { m.waiting with transactions := _ } n.waiting
          rw [hadopt]
          exact { Batch.Within.refl n.waiting with transactions := List.filter_sublist }

theorem waiting_finalizeVotes (n : Node) (io : Io) (S : VoteSet) :
    (n.finalizeVotes E io S).state.waiting = n.waiting := by
  rw [finalizeVotes_state]
  cases n.checkVotes E S with
  | error e => rfl
  | ok u => rfl

/-- **The waiting rule.** -/
theorem waiting_step (hpool : n.mempool.Valid E.crypto) (c : Call) :
    WaitingStep E n (n.next E c) := by
  cases c with
  | submitTransaction t => exact waiting_submitTransaction hpool t
  | submitAssetOperation o => exact waiting_submitAssetOperation n o
  | submitTokenOperation o => exact waiting_submitTokenOperation n o
  | submitMnaSwap o => exact waiting_submitMnaSwap n o
  | submitMnaReserveOperation o => exact waiting_submitMnaReserveOperation n o
  | submitProgramOperation o => exact waiting_submitProgramOperation n o
  | produceBlock io proposer => exact .fewer (waiting_produceBlock n io proposer)
  | faucet io address amount =>
    refine .fewer ?_
    show (n.faucet E io address amount).state.waiting.Within _
    rw [waiting_faucet]
    exact .refl _
  | importBlock io b => exact .fewer (waiting_importBlock n io b)
  | finalizeVotes io S =>
    refine .fewer ?_
    show (n.finalizeVotes E io S).state.waiting.Within _
    rw [waiting_finalizeVotes]
    exact .refl _

/-! ## 3. Nothing is ahead -/

/-- No id waits twice, and no operation is ahead of its signer. -/
structure Behind (E : Env) (n : Node) : Prop where
  mempool : n.mempool.Valid E.crypto
  nodup : (n.waiting.keys E.crypto).Nodup
  nonce : ∀ height, ∀ op ∈ n.waiting.calls E.crypto height, ∀ auth,
    State.authorization E n.state op = some auth →
      auth.nonce.toNat ≤ (n.state.nonceOf (auth.signer E)).toNat

theorem behind_idle (E : Env) (genesis : GenesisConfig) (store : Store) (s : State) (b : Block) :
    Behind E (idle genesis store s b) :=
  ⟨.empty _, List.nodup_nil, fun _ op hop => by cases hop⟩

/-- No call takes an account's nonce back. -/
theorem nonceOf_le_next (n : Node) (c : Call) (a : Address) :
    (n.state.nonceOf a).toNat ≤ ((n.next E c).state.nonceOf a).toNat := by
  refine next_state_rule (P := fun s => (n.state.nonceOf a).toNat ≤ (s.nonceOf a).toNat)
    (fun s op h => h.trans (State.nonceOf_le_next op a)) (fun s address amount h => ?_) n c
    (Nat.le_refl _)
  rw [State.nonceOf_creditDevnet]
  exact h

theorem chainId_next (n : Node) (c : Call) : (n.next E c).state.chainId = n.state.chainId := by
  refine next_state_rule (P := fun s => s.chainId = n.state.chainId)
    (fun s op h => State.next_chainId.trans h) (fun s address amount h => ?_) n c rfl
  obtain ⟨accounts, hwrites⟩ := State.creditDevnet_writes s address amount
  rw [hwrites]
  exact h

/-- **What one call keeps.** -/
theorem behind_next (h : Behind E n) (c : Call) : Behind E (n.next E c) := by
  have hauthorization := fun op => authorization_congr (E := E) (chainId_next (E := E) n c) op
  have hkept : ∀ op auth, State.authorization E (n.next E c).state op = some auth →
      State.authorization E n.state op = some auth := fun op auth hauth => by
    rw [← hauthorization]
    exact hauth
  refine ⟨validMempool_next h.mempool c, ?_, fun height op hop auth hauth => ?_⟩
  · cases waiting_step h.mempool c with
    | fewer hwithin =>
      have hsub := (hwithin.calls E.crypto 0).map (Operation.key E.crypto)
      rw [Batch.map_key_calls, Batch.map_key_calls] at hsub
      exact h.nodup.sublist hsub
    | pushed op hpushed hnew hnonce =>
      have hperm := (hpushed 0).calls.map (Operation.key E.crypto)
      rw [List.map_cons, Batch.map_key_calls, Batch.map_key_calls] at hperm
      exact hperm.nodup_iff.mpr (List.nodup_cons.mpr ⟨hnew 0, h.nodup⟩)
  · refine Nat.le_trans ?_ (nonceOf_le_next n c _)
    cases waiting_step h.mempool c with
    | fewer hwithin =>
      exact h.nonce height op ((hwithin.calls E.crypto height).subset hop) auth (hkept op auth hauth)
    | pushed op' hpushed hnew hnonce =>
      rcases List.mem_cons.mp ((hpushed height).calls.mem_iff.mp hop) with rfl | hold
      · rw [hnonce height auth (hkept _ auth hauth)]
      · exact h.nonce height op hold auth (hkept op auth hauth)

theorem behind_runs (h : Behind E n) (calls : List Call) : Behind E (runs (next E) n calls) :=
  (EachStep.of_forall (D := fun _ => True) fun _ _ => trivial).invariant (P := Behind E)
    (fun _ c _ hn => behind_next hn c) h

/-! ## 4. One nonce a block -/

/-- An operation that is not ahead moves a nonce by one at most, up to the one behind its own. -/
theorem nonceOf_next_le {s : State} {op : Operation} {a : Address} {k : Nat}
    (hop : ∀ auth, State.authorization E s op = some auth → auth.signer E = a →
      auth.nonce.toNat ≤ k) (h : (s.nonceOf a).toNat ≤ k + 1) :
    ((s.next E op).nonceOf a).toNat ≤ k + 1 := by
  refine State.next_cases (R := fun s' => (s'.nonceOf a).toNat ≤ k + 1) h (fun s' happlied => ?_)
    fun s' hresidue => ?_
  · cases hauth : State.authorization E s op with
    | none => rw [(State.apply_leavesAccounts hauth happlied).nonces]; exact h
    | some auth =>
      have hacts := State.apply_actsFor hauth happlied
      by_cases ha : a = auth.signer E
      · rw [ha, hacts.next]
        exact Nat.succ_le_succ (hop auth hauth ha.symm)
      · rw [hacts.nonces a ha]
        exact h
  · rw [hresidue.leavesAccounts.nonces]
    exact h

/-- The state a block is made with that the node itself makes. -/
theorem nonceOf_commits_le (h : Behind E n) {s : State} {b : Block} (hc : Commits E n c s b)
    (himport : ∀ io b, c ≠ .importBlock io b) (a : Address) :
    (s.nonceOf a).toNat ≤ (n.state.nonceOf a).toNat + 1 := by
  have hrule := hc.rule (P := fun s => s.chainId = n.state.chainId ∧
    (s.nonceOf a).toNat ≤ (n.state.nonceOf a).toNat + 1) ?_ ?_ ⟨rfl, Nat.le_succ _⟩
  · exact hrule.2
  · rintro s op hop ⟨hchain, hs⟩
    refine ⟨State.next_chainId.trans hchain, nonceOf_next_le (fun auth hauth hsigner => ?_) hs⟩
    cases c with
    | produceBlock io proposer =>
      have hwaits := ((queue_within E n).calls E.crypto n.nextHeight).subset hop
      rw [authorization_congr hchain] at hauth
      rw [← hsigner]
      exact h.nonce _ op hwaits auth hauth
    | importBlock io b => exact absurd rfl (himport io b)
    | _ => cases hop
  · rintro s address amount ⟨hchain, hs⟩
    obtain ⟨accounts, hwrites⟩ := State.creditDevnet_writes s address amount
    refine ⟨?_, ?_⟩
    · rw [hwrites]
      exact hchain
    · rw [State.nonceOf_creditDevnet]
      exact hs

/-- The call takes no block over. -/
def NoImport (_ : Node) (c : Call) : Prop := ∀ io b, c ≠ .importBlock io b

/-- **One call**: a nonce moves by one at most, with a block. -/
theorem nonceOf_next_le_adopted (h : Behind E n) (himport : NoImport n c) (a : Address) :
    ((n.next E c).state.nonceOf a).toNat ≤
      (n.state.nonceOf a).toNat + (adopted E n c).length := by
  have hstep := next_step (E := E) n c
  generalize hn : n.next E c = n' at hstep
  cases hstep with
  | quiet _ htip _ =>
    rw [htip.state]
    exact Nat.le_add_right _ _
  | commit s b _ hc _ ha =>
    rw [adopted_of_commits hc (hn ▸ ha.latestBlock), ha.state]
    exact nonceOf_commits_le h hc himport a
  | cutOff s b k _ _ _ _ hcut =>
    rw [hcut.state]
    exact Nat.le_add_right _ _
  | finalize _ _ _ _ _ _ _ _ _ hn' =>
    rw [hn']
    exact Nat.le_add_right _ _

theorem nonceOf_runs_le {calls : List Call} (h : Behind E n)
    (himport : EachStep (next E) NoImport n calls) (a : Address) :
    ((runs (next E) n calls).state.nonceOf a).toNat ≤
      (n.state.nonceOf a).toNat + (chainOf.go E n calls).length := by
  induction calls generalizing n with
  | nil => exact Nat.le_refl _
  | cons c calls ih =>
    have hfirst := nonceOf_next_le_adopted h himport.1 a
    have hrest := ih (behind_next h c) himport.2
    rw [go_cons, List.length_append, runs_cons]
    omega

/-- An opened node has nothing queued. -/
theorem behind_opened {configChainId : String} {genesis : GenesisConfig} {store store' : Store}
    {io : Io} (h : openDir E configChainId genesis store io = ⟨.ok n, store'⟩) : Behind E n := by
  unfold openDir at h
  obtain ⟨_, -, h⟩ := Applied.attempt_eq_ok.mp h
  obtain ⟨s, -, h⟩ := Applied.attempt_eq_ok.mp h
  obtain ⟨_, -, h⟩ := Applied.attempt_eq_ok.mp h
  obtain ⟨n', hrestore, h⟩ := Applied.attempt_eq_ok.mp h
  cases h
  obtain ⟨b, p, -, -, -, -, rfl⟩ := restore_cases hrestore
  exact behind_idle E genesis _ _ b

/-- **One nonce a block.** On every node that has been opened, on whatever store, and whatever has
    been called since: no id waits twice, and while the node takes over no foreign block, an
    account's nonce moves by no more than the number of blocks the node puts on its tip. -/
theorem one_nonce_a_block {configChainId : String} {genesis : GenesisConfig}
    {store store' : Store} {io : Io} {before calls : List Call}
    (hopen : openDir E configChainId genesis store io = ⟨.ok n, store'⟩)
    (himport : EachStep (next E) NoImport (runs (next E) n before) calls) (a : Address) :
    ((runs (next E) n before).waiting.keys E.crypto).Nodup ∧
      ((runs (next E) n (before ++ calls)).state.nonceOf a).toNat ≤
        ((runs (next E) n before).state.nonceOf a).toNat +
          (chainOf.go E (runs (next E) n before) calls).length := by
  have hbehind := behind_runs (behind_opened hopen) before
  rw [runs_append]
  exact ⟨hbehind.nodup, nonceOf_runs_le hbehind himport a⟩

/-- Of two transfers for one nonce, the block takes one. -/
theorem one_nonce_a_block_transfers :
    ((runs (next .standIn) (fresh .standIn (Sample.genesis 1) (Sample.genesisState 1))
      ([.submitTransaction (Sample.transfer 0 Sample.otherAddress 1 1)] ++
        [.submitTransaction (Sample.transfer 0 Sample.otherAddress 2 1),
          .produceBlock ⟨2, none⟩ none])).state.nonceOf Sample.address).toNat ≤
      ((runs (next .standIn) (fresh .standIn (Sample.genesis 1) (Sample.genesisState 1))
        [.submitTransaction (Sample.transfer 0 Sample.otherAddress 1 1)]).state.nonceOf
          Sample.address).toNat +
        (chainOf.go .standIn
          (runs (next .standIn) (fresh .standIn (Sample.genesis 1) (Sample.genesisState 1))
            [.submitTransaction (Sample.transfer 0 Sample.otherAddress 1 1)])
          [.submitTransaction (Sample.transfer 0 Sample.otherAddress 2 1),
            .produceBlock ⟨2, none⟩ none]).length := by
  have hopen : openDir .standIn (Sample.genesis 1).chainId (Sample.genesis 1) .empty ⟨0, none⟩ =
      ⟨.ok (fresh .standIn (Sample.genesis 1) (Sample.genesisState 1)),
        (fresh .standIn (Sample.genesis 1) (Sample.genesisState 1)).store⟩ :=
    openDir_fresh (Sample.fromGenesis_genesis 1) rfl
  have himport : EachStep (next .standIn) NoImport
      (runs (next .standIn) (fresh .standIn (Sample.genesis 1) (Sample.genesisState 1))
        [.submitTransaction (Sample.transfer 0 Sample.otherAddress 1 1)])
      [.submitTransaction (Sample.transfer 0 Sample.otherAddress 2 1),
        .produceBlock ⟨2, none⟩ none] :=
    ⟨(fun io b h => by cases h), (fun io b h => by cases h), trivial⟩
  exact (one_nonce_a_block hopen himport Sample.address).2

end Node

end WorldstreetChain
