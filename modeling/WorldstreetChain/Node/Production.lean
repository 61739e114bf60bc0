import WorldstreetChain.Node.Execution

/-!
# A block production that fails

The producer's loop calls `produce_block_with_proposer` again and again, and prints its errors. The
call empties the mempool and the five queues in front of everything that can fail but the turn of
the proposer, so what was queued is gone when the store fails.

* `Node.produceBlock_error` -- **the two ways to fail with an error**: the proposer is refused, or
  an insertion of the commit fails.
* `Node.failedProduction_keeps_iff` -- **a failed production loses nothing** exactly if the proposer
  is refused, nothing is queued, or no insertion fails.
-/

namespace WorldstreetChain

open Std

namespace Node

variable {E : Env} {n n' : Node} {io : Io} {proposer : Option KeyPair}

/-! ## 1. Ways to fail -/

/-- The proposer is not the one whose turn it is. -/
def Refused (E : Env) (n : Node) (proposer : Option KeyPair) : Prop :=
  proposer.any (fun key => !n.isExpectedProposer (E.crypto.publicKey key)) = true

/-- Nothing waits, neither in the mempool nor in a queue. -/
structure NothingQueued (n : Node) : Prop where
  mempool : n.mempool = .empty
  asset : n.pendingAssetOperations = []
  token : n.pendingTokenOperations = []
  mnaSwap : n.pendingMnaSwapOperations = []
  mnaReserve : n.pendingMnaReserveOperations = []
  program : n.pendingProgramOperations = []

/-- An insertion of the commit of the block that is made fails. -/
def StoreFails (E : Env) (n : Node) (io : Io) (proposer : Option KeyPair) : Prop :=
  ∃ s b, Commits E n (.produceBlock io proposer) s b ∧ ¬ Reaches io.fault (commitWrites E s b)

theorem StoreFails.notRefused (h : StoreFails E n io proposer) : ¬ Refused E n proposer := by
  obtain ⟨s, b, hcommits, -⟩ := h
  cases hcommits with
  | produce _ _ _ _ _ hturn => exact hturn

/-- What waits, the state and the tip are as they were, and the next attempt accepts the same. -/
structure LosesNothing (E : Env) (n n' : Node) : Prop where
  mempool : n'.mempool = n.mempool
  asset : n'.pendingAssetOperations = n.pendingAssetOperations
  token : n'.pendingTokenOperations = n.pendingTokenOperations
  mnaSwap : n'.pendingMnaSwapOperations = n.pendingMnaSwapOperations
  mnaReserve : n'.pendingMnaReserveOperations = n.pendingMnaReserveOperations
  program : n'.pendingProgramOperations = n.pendingProgramOperations
  state : n'.state = n.state
  latestBlock : n'.latestBlock = n.latestBlock
  next : accept E n'.state n'.nextHeight (n'.queue E) =
    accept E n.state n.nextHeight (n.queue E)

theorem LosesNothing.refl (n : Node) : LosesNothing E n n :=
  ⟨rfl, rfl, rfl, rfl, rfl, rfl, rfl, rfl, rfl⟩

/-! ## 2. The two errors -/

/-- A loop passes over what fails. -/
theorem acceptLoop_avoids {α : Type} {call : α → Operation} {s : State} {l : List α}
    {e : NodeError} : Avoids (acceptLoop E call s l) e := by
  induction l generalizing s with
  | nil => exact avoids_ok _ _
  | cons a l ih =>
    unfold acceptLoop
    cases hx : (s.apply E (call a)).result with
    | ok x =>
      rw [State.apply_eq hx]
      exact ih.bind fun _ _ => avoids_ok _ _
    | error f =>
      rw [State.apply_eq hx]
      cases f with
      | err f => exact ih
      | panic => exact fun h => by cases h

theorem accept_avoids {s : State} {height : U64} {queue : Batch} {e : NodeError} :
    Avoids (accept E s height queue) e := by
  unfold accept
  refine acceptLoop_avoids.bind fun _ _ => ?_
  refine acceptLoop_avoids.bind fun _ _ => ?_
  refine acceptLoop_avoids.bind fun _ _ => ?_
  refine acceptLoop_avoids.bind fun _ _ => ?_
  refine acceptLoop_avoids.bind fun _ _ => ?_
  exact acceptLoop_avoids.bind fun _ _ => avoids_ok _ _

/-- Past the loops the queues are empty and the block is committed. -/
theorem produceBlock_accepts {s : State} {accepted : Batch}
    (hturn : ¬ proposer.any (fun key => !n.isExpectedProposer (E.crypto.publicKey key)) = true)
    (haccept : accept E n.state n.nextHeight (n.queue E) = .ok (s, accepted)) :
    n.produceBlockWithProposer E io proposer =
      n.clearQueues.commitBlock E io s accepted proposer := by
  unfold produceBlockWithProposer
  rw [rejectIf_neg hturn, Applied.attempt_ok, haccept]
  rfl

/-- The commit of a node whose queues have been emptied. -/
theorem commitBlock_cleared {s : State} {accepted : Batch} {height : U64}
    (hheight : Unsigned.add (ε := NodeError) E.overflowChecks n.latestBlock.header.height 1 =
      .ok height) :
    n.clearQueues.commitBlock E io s accepted proposer =
      (n.clearQueues.adopt E io s
        (accepted.toBlock (n.makeHeader E io height s accepted proposer))).map
          fun _ => accepted.toBlock (n.makeHeader E io height s accepted proposer) := by
  unfold commitBlock
  exact Applied.attempt_of_ok hheight

/-- A production whose block the store does not take ends in an error, with nothing queued. -/
theorem produceBlock_storeFails (h : StoreFails E n io proposer) :
    ∃ store, n.produceBlockWithProposer E io proposer =
      ⟨.error (.err (.storage .database)), { n.clearQueues with store }⟩ := by
  obtain ⟨s, b, hcommits, hfails⟩ := h
  cases hcommits with
  | produce _ _ s accepted height hturn haccept hheight =>
    obtain hr | ⟨k, hk, hle⟩ := reaches_or io.fault
      (commitWrites E s (accepted.toBlock (n.makeHeader E io height s accepted proposer)))
    · exact absurd hr hfails
    refine ⟨n.store.insertAll ((commitWrites E s (accepted.toBlock
      (n.makeHeader E io height s accepted proposer))).take k), ?_⟩
    rw [produceBlock_accepts hturn haccept, commitBlock_cleared hheight, adopt_cutOff hk hle]
    rfl

/-- **The two ways to fail with an error**: the proposer is refused and nothing has happened, or the
    store fails, and nothing is queued any more. -/
theorem produceBlock_error {e : NodeError}
    (h : n.produceBlockWithProposer E io proposer = ⟨.error (.err e), n'⟩) :
    (Refused E n proposer ∧ n' = n) ∨
      (StoreFails E n io proposer ∧ ∃ store, n' = { n.clearQueues with store }) := by
  by_cases hturn : proposer.any (fun key => !n.isExpectedProposer (E.crypto.publicKey key)) = true
  · unfold produceBlockWithProposer at h
    rw [rejectIf_pos hturn] at h
    cases h
    exact Or.inl ⟨hturn, rfl⟩
  have hfails : StoreFails E n io proposer := by
    by_contra hstore
    cases haccept : accept E n.state n.nextHeight (n.queue E) with
    | error f =>
      unfold produceBlockWithProposer at h
      rw [rejectIf_neg hturn, Applied.attempt_ok, haccept] at h
      cases f with
      | err f => exact accept_avoids haccept
      | panic => cases h
    | ok r =>
      obtain ⟨s, accepted⟩ := r
      rw [produceBlock_accepts hturn haccept] at h
      cases hheight : Unsigned.add (ε := NodeError) E.overflowChecks
        n.latestBlock.header.height 1 with
      | error f =>
        have hcleared : Unsigned.add (ε := NodeError) E.overflowChecks
          n.clearQueues.latestBlock.header.height 1 = .error f := hheight
        unfold commitBlock at h
        rw [hcleared] at h
        cases f with
        | err f => exact Unsigned.add_avoids hheight
        | panic => cases h
      | ok height =>
        have hcommits := Commits.produce io proposer s accepted height hturn haccept hheight
        have hreaches : Reaches io.fault (commitWrites E s
            (accepted.toBlock (n.makeHeader E io height s accepted proposer))) :=
          not_not.mp fun hr => hstore ⟨_, _, hcommits, hr⟩
        rw [commitBlock_cleared hheight, adopt_reaches hreaches] at h
        cases h
  obtain ⟨store, hs⟩ := produceBlock_storeFails hfails
  rw [hs] at h
  cases h
  exact Or.inr ⟨hfails, store, rfl⟩

/-! ## 3. What is lost -/

theorem NothingQueued.losesNothing (h : NothingQueued n) (store : Store) :
    LosesNothing E n { n.clearQueues with store } := by
  obtain ⟨hmempool, hasset, htoken, hswap, hreserve, hprogram⟩ := h
  refine ⟨hmempool.symm, hasset.symm, htoken.symm, hswap.symm, hreserve.symm, hprogram.symm, rfl,
    rfl, ?_⟩
  have hqueue : n.queue E = Batch.empty := by
    unfold queue
    rw [hmempool, hasset, htoken, hswap, hreserve, hprogram]
    rfl
  rw [hqueue]
  rfl

/-- **A failed production loses nothing**, exactly if the proposer is refused, nothing is queued, or
    no insertion of the commit fails. -/
theorem failedProduction_keeps_iff (E : Env) (n : Node) (io : Io) (proposer : Option KeyPair) :
    (∀ e n', n.produceBlockWithProposer E io proposer = ⟨.error (.err e), n'⟩ →
      LosesNothing E n n') ↔
        Refused E n proposer ∨ NothingQueued n ∨ ¬ StoreFails E n io proposer := by
  constructor
  · intro h
    by_cases hfails : StoreFails E n io proposer
    · obtain ⟨store, hs⟩ := produceBlock_storeFails hfails
      have hkept := h _ _ hs
      exact Or.inr (Or.inl ⟨hkept.mempool.symm, hkept.asset.symm, hkept.token.symm,
        hkept.mnaSwap.symm, hkept.mnaReserve.symm, hkept.program.symm⟩)
    · exact Or.inr (Or.inr hfails)
  · intro hcond e n' h
    rcases produceBlock_error h with ⟨-, hsame⟩ | ⟨hfails, store, hcleared⟩
    · rw [hsame]
      exact .refl n
    · rcases hcond with hrefused | hnothing | hstore
      · exact absurd hrefused hfails.notRefused
      · rw [hcleared]
        exact hnothing.losesNothing store
      · exact absurd hfails hstore

end Node

namespace Sample

/-- A fresh node with a bridge mint queued. -/
def nodeWithMint : Node :=
  (Node.fresh .standIn (genesis 1) (genesisState 1)).next .standIn
    (.submitAssetOperation (bridge .mint 1 usdc 200))

end Sample

namespace Node

/-- The first insertion of the commit fails, and the mint is gone. -/
theorem failed_commit_loses_mint :
    openDir .standIn Sample.chainId (Sample.genesis 1) .empty ⟨0, none⟩ =
        ⟨.ok (fresh .standIn (Sample.genesis 1) (Sample.genesisState 1)),
          (fresh .standIn (Sample.genesis 1) (Sample.genesisState 1)).store⟩ ∧
      Sample.nodeWithMint.pendingAssetOperations = [Sample.bridge .mint 1 Sample.usdc 200] ∧
      ∃ n', Sample.nodeWithMint.produceBlockWithProposer .standIn ⟨1, some 0⟩ none =
          ⟨.error (.err (.storage .database)), n'⟩ ∧ n'.pendingAssetOperations = [] := by
  have hqueued : Sample.nodeWithMint.pendingAssetOperations =
      [Sample.bridge .mint 1 Sample.usdc 200] := by decide +kernel
  have haccepts : (accept .standIn Sample.nodeWithMint.state Sample.nodeWithMint.nextHeight
      (Sample.nodeWithMint.queue .standIn)).isOk = true := by decide +kernel
  have hfails : StoreFails .standIn Sample.nodeWithMint ⟨1, some 0⟩ none := by
    obtain ⟨⟨s, accepted⟩, haccept⟩ := Outcome.isOk_iff.mp haccepts
    refine ⟨s, _, .produce _ none s accepted 1 nofun haccept (by decide +kernel), fun h => ?_⟩
    exact Nat.not_lt_zero _ (h 0 rfl)
  obtain ⟨store, hs⟩ := produceBlock_storeFails hfails
  exact ⟨openDir_fresh (Sample.fromGenesis_genesis 1) rfl, hqueued, _, hs, rfl⟩

end Node

end WorldstreetChain
