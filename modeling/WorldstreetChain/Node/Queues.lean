import WorldstreetChain.Node.Backed
import WorldstreetChain.Rpc.Bridge

/-!
# What a call does to the queues

A submission puts one operation at the end of its queue, or nothing. A production whose turn it is
empties the queues, whatever comes of the block. Everything else leaves them alone.

* `Node.QueueStep`, `Node.queue_step` -- **the queue rule**, for the two queues a bridge uses.
* `Node.processed_pending` -- a block that is committed takes up every asset operation that passes
  the field checks.
-/

namespace WorldstreetChain

open Std

namespace State

variable {E : Env} {s : State}

/-! ## 1. What is processed -/

/-- What is processed stays so. -/
theorem processed_next {id : Hash} (h : id ∈ s.processedAssetOperations) (op : Operation) :
    id ∈ (s.next E op).processedAssetOperations := by
  rcases Rpc.next_records (E := E) s op with ⟨-, hproc⟩ | ⟨o, -, -, -, hproc⟩
  · rw [hproc]
    exact h
  · rw [hproc, ExtTreeSet.mem_insert]
    exact Or.inr h

theorem processed_creditDevnet {id : Hash} (h : id ∈ s.processedAssetOperations)
    (address : Address) (amount : Amount) :
    id ∈ (s.creditDevnet address amount).state.processedAssetOperations := by
  rw [(Rpc.creditDevnet_records s address amount).2]
  exact h

/-- An operation that passes the field checks is processed behind its turn, even if it fails. -/
theorem processed_asset {o : AssetOperation} (hc : checkAssetOperation o = .ok ()) :
    o.operationId ∈ (s.next E (.asset o)).processedAssetOperations := by
  have hrecorded : o.operationId ∈ (s.recordAssetOperation o).processedAssetOperations := by
    rw [recordAssetOperation_processedAssetOperations, ExtTreeSet.mem_insert]
    exact Or.inl compare_self
  show o.operationId ∈ (s.applyAssetOperation o).state.processedAssetOperations
  unfold applyAssetOperation
  rw [hc, Applied.attempt_ok]
  split
  · assumption
  · dsimp only
    cases assetLedger (s.recordAssetOperation o).mnaReserveLedger o with
    | error e => exact hrecorded
    | ok ledger =>
      rw [Applied.attempt_ok]
      generalize assetBalance _ o = balance
      cases balance with
      | error e => exact hrecorded
      | ok balance => exact hrecorded

end State

namespace Node

variable {E : Env} {n n' : Node} {c : Call}

/-! ## 2. The queue rule -/

/-- The two queues are as they were. -/
structure SameQueues (n n' : Node) : Prop where
  asset : n'.pendingAssetOperations = n.pendingAssetOperations
  reserve : n'.pendingMnaReserveOperations = n.pendingMnaReserveOperations

theorem SameQueues.refl (n : Node) : SameQueues n n := ⟨rfl, rfl⟩

/-- What a call can do to the two queues. -/
inductive QueueStep (E : Env) (n : Node) : Call → Node → Prop where
  | same (c : Call) (n' : Node) (h : SameQueues n n') : QueueStep E n c n'
  | asset (o : AssetOperation) :
      QueueStep E n (.submitAssetOperation o)
        { n with pendingAssetOperations := n.pendingAssetOperations ++ [o] }
  | reserve (o : MnaReserveOperation) (id : Hash)
      (hvalid : n.state.validateMnaReserveOperation E o = .ok id) :
      QueueStep E n (.submitMnaReserveOperation o)
        { n with pendingMnaReserveOperations := n.pendingMnaReserveOperations ++ [o] }
  | cleared (io : Io) (proposer : Option KeyPair) (n' : Node)
      (hturn : ¬ proposer.any (fun key => !n.isExpectedProposer (E.crypto.publicKey key)) = true)
      (h : SameQueues n.clearQueues n') : QueueStep E n (.produceBlock io proposer) n'

theorem sameQueues_ofClone {α : Type} {r : Outcome NodeError (α × Node)}
    (h : ∀ a m, r = .ok (a, m) → SameQueues n m) : SameQueues n (Applied.ofClone n r).state := by
  cases r with
  | error e => exact .refl n
  | ok x => exact h x.1 x.2 rfl

theorem sameQueues_adopt (n : Node) (io : Io) (s : State) (b : Block) :
    SameQueues n (n.adopt E io s b).state := by
  unfold adopt
  dsimp only
  cases (n.store.commit E (E.crypto.blockHeaderId b.header) b s.snapshot io.fault).result with
  | error e => cases e <;> exact ⟨rfl, rfl⟩
  | ok u => exact ⟨rfl, rfl⟩

theorem sameQueues_commitBlock (n : Node) (io : Io) (s : State) (batch : Batch)
    (proposer : Option KeyPair) : SameQueues n (n.commitBlock E io s batch proposer).state := by
  unfold commitBlock
  cases Unsigned.add (ε := NodeError) E.overflowChecks n.latestBlock.header.height 1 with
  | error e => exact .refl n
  | ok height => exact sameQueues_adopt n io s _

theorem sameQueues_faucet (n : Node) (io : Io) (address : Address) (amount : Amount) :
    SameQueues n (n.faucet E io address amount).state := by
  unfold faucet
  by_cases hdevnet : State.containsStr n.genesis.chainId "devnet" = false
  · rw [rejectIf_pos hdevnet]
    exact .refl n
  · rw [rejectIf_neg hdevnet, Applied.attempt_ok]
    cases n.state.creditDevnet address amount with
    | mk result s =>
      cases result with
      | error e => cases e <;> exact .refl n
      | ok u => exact sameQueues_commitBlock n io s .empty none

theorem sameQueues_importBlock (n : Node) (io : Io) (b : Block) :
    SameQueues n (n.importBlock E io b).state := by
  unfold importBlock
  by_cases hversion : b.header.version ≠ 1
  · rw [rejectIf_pos hversion]
    exact .refl n
  · rw [rejectIf_neg hversion, Applied.attempt_ok]
    dsimp only
    split
    · exact .refl n
    · cases n.replay E b with
      | error e => exact .refl n
      | ok s =>
        rw [Applied.attempt_ok]
        have hadopt := sameQueues_adopt (E := E) n io s b
        generalize n.adopt E io s b = adopted at hadopt
        obtain ⟨result, m⟩ := adopted
        cases result with
        | error e => exact hadopt
        | ok u => exact ⟨hadopt.asset, hadopt.reserve⟩

theorem sameQueues_finalizeVotes (n : Node) (io : Io) (S : VoteSet) :
    SameQueues n (n.finalizeVotes E io S).state := by
  rw [finalizeVotes_state]
  cases n.checkVotes E S with
  | error e => exact .refl n
  | ok u => exact ⟨rfl, rfl⟩

/-- A submission that goes through is the operation at the end of its queue. -/
theorem submitAssetOperation_cases (n : Node) (o : AssetOperation) :
    ((n.submitAssetOperation o).state = n ∧ ∃ e, (n.submitAssetOperation o).result = .error e) ∨
      (n.submitAssetOperation o).result = .ok o.operationId ∧
      (n.submitAssetOperation o).state =
        { n with pendingAssetOperations := n.pendingAssetOperations ++ [o] } := by
  unfold submitAssetOperation
  by_cases hversion : o.version ≠ 1
  · rw [rejectIf_pos hversion]
    exact Or.inl ⟨rfl, _, rfl⟩
  rw [rejectIf_neg hversion]
  by_cases hduplicate : o.operationId ∈ n.state.processedAssetOperations ∨
      o.operationId ∈ n.pendingAssetOperations.map AssetOperation.operationId
  · rw [rejectIf_pos hduplicate]
    exact Or.inl ⟨rfl, _, rfl⟩
  · rw [rejectIf_neg hduplicate]
    exact Or.inr ⟨rfl, rfl⟩

theorem queueStep_reserve (n : Node) (o : MnaReserveOperation) :
    QueueStep E n (.submitMnaReserveOperation o) (n.submitMnaReserveOperation E o).state := by
  unfold submitMnaReserveOperation
  dsimp only
  by_cases hduplicate : E.crypto.mnaReserveOperationId o ∈ n.state.mnaReserveOperationRecords ∨
      E.crypto.mnaReserveOperationId o ∈
        n.pendingMnaReserveOperations.map E.crypto.mnaReserveOperationId
  · rw [rejectIf_pos hduplicate]
    exact .same _ _ (.refl n)
  rw [rejectIf_neg hduplicate]
  cases hvalid : n.state.validateMnaReserveOperation E o with
  | error e => cases e <;> exact .same _ _ (.refl n)
  | ok id => exact .reserve o id hvalid

theorem queueStep_produce (n : Node) (io : Io) (proposer : Option KeyPair) :
    QueueStep E n (.produceBlock io proposer) (n.produceBlockWithProposer E io proposer).state := by
  unfold produceBlockWithProposer
  by_cases hturn : proposer.any (fun key => !n.isExpectedProposer (E.crypto.publicKey key)) = true
  · rw [rejectIf_pos hturn]
    exact .same _ _ (.refl n)
  · rw [rejectIf_neg hturn, Applied.attempt_ok]
    refine .cleared io proposer _ hturn ?_
    cases accept E n.state n.nextHeight (n.queue E) with
    | error e => exact .refl _
    | ok r => exact sameQueues_commitBlock n.clearQueues io r.1 r.2 proposer

/-- **The queue rule.** -/
theorem queue_step (n : Node) (c : Call) : QueueStep E n c (n.next E c) := by
  cases c with
  | submitTransaction t =>
    refine .same _ _ ?_
    show SameQueues n (n.submitTransaction E t).state
    unfold submitTransaction
    by_cases h : (n.store.getTransaction (E.crypto.transactionId t)).isOk = true
    · rw [rejectIf_pos h]
      exact .refl n
    · rw [rejectIf_neg h]
      exact ⟨rfl, rfl⟩
  | submitAssetOperation o =>
    show QueueStep E n _ (n.submitAssetOperation o).state
    rcases submitAssetOperation_cases n o with ⟨h, -⟩ | ⟨-, h⟩
    · rw [h]
      exact .same _ _ (.refl n)
    · rw [h]
      exact .asset o
  | submitTokenOperation o =>
    refine .same _ _ (sameQueues_ofClone fun a m h => ?_)
    obtain ⟨-, h⟩ := rejectIf_bind_eq_ok.mp h
    obtain ⟨_, -, h⟩ := Outcome.bind_eq_ok.mp h
    cases h
    exact ⟨rfl, rfl⟩
  | submitMnaSwap o =>
    refine .same _ _ (sameQueues_ofClone fun a m h => ?_)
    obtain ⟨-, h⟩ := rejectIf_bind_eq_ok.mp h
    obtain ⟨_, -, h⟩ := Outcome.bind_eq_ok.mp h
    cases h
    exact ⟨rfl, rfl⟩
  | submitMnaReserveOperation o => exact queueStep_reserve n o
  | submitProgramOperation o =>
    refine .same _ _ (sameQueues_ofClone fun a m h => ?_)
    obtain ⟨-, h⟩ := rejectIf_bind_eq_ok.mp h
    obtain ⟨_, -, h⟩ := Outcome.bind_eq_ok.mp h
    cases h
    exact ⟨rfl, rfl⟩
  | produceBlock io proposer => exact queueStep_produce n io proposer
  | faucet io address amount => exact .same _ _ (sameQueues_faucet n io address amount)
  | importBlock io b => exact .same _ _ (sameQueues_importBlock n io b)
  | finalizeVotes io S => exact .same _ _ (sameQueues_finalizeVotes n io S)

/-! ## 3. What a block takes up -/

theorem processed_acceptLoop {s s' : State} {l accepted : List AssetOperation} {o : AssetOperation}
    (h : acceptLoop E .asset s l = .ok (s', accepted)) (ho : o ∈ l)
    (hc : State.checkAssetOperation o = .ok ()) : o.operationId ∈ s'.processedAssetOperations := by
  induction l generalizing s accepted with
  | nil => cases ho
  | cons a l ih =>
    have hrest : ∃ accepted', acceptLoop E .asset (s.next E (.asset a)) l =
        .ok (s', accepted') := by
      unfold acceptLoop at h
      cases hx : (s.apply E (.asset a)).result with
      | ok x =>
        rw [State.apply_eq hx] at h
        obtain ⟨⟨last, rest⟩, hl, h⟩ := Outcome.bind_eq_ok.mp h
        cases h
        exact ⟨rest, hl⟩
      | error e =>
        rw [State.apply_eq hx] at h
        cases e with
        | err e => exact ⟨accepted, h⟩
        | panic => cases h
    obtain ⟨accepted', hrest⟩ := hrest
    rcases List.mem_cons.mp ho with rfl | ho
    · exact acceptLoop_rule (P := fun s => o.operationId ∈ s.processedAssetOperations)
        (fun s x _ h => State.processed_next h _) hrest (State.processed_asset hc)
    · exact ih hrest ho

/-- **A block that is committed takes up what is queued** and passes the field checks. -/
theorem processed_pending {s : State} {b : Block} {io : Io} {proposer : Option KeyPair}
    {o : AssetOperation} (hcommits : Commits E n (.produceBlock io proposer) s b)
    (ho : o ∈ n.pendingAssetOperations) (hc : State.checkAssetOperation o = .ok ()) :
    o.operationId ∈ s.processedAssetOperations := by
  cases hcommits with
  | produce _ _ s accepted height hturn haccept hheight =>
    unfold accept at haccept
    obtain ⟨⟨s1, _⟩, -, h⟩ := Outcome.bind_eq_ok.mp haccept
    obtain ⟨⟨s2, _⟩, h2, h⟩ := Outcome.bind_eq_ok.mp h
    obtain ⟨⟨s3, _⟩, h3, h⟩ := Outcome.bind_eq_ok.mp h
    obtain ⟨⟨s4, _⟩, h4, h⟩ := Outcome.bind_eq_ok.mp h
    obtain ⟨⟨s5, _⟩, h5, h⟩ := Outcome.bind_eq_ok.mp h
    obtain ⟨⟨s6, _⟩, h6, h⟩ := Outcome.bind_eq_ok.mp h
    cases h
    have hkept : ∀ (s : State) op, o.operationId ∈ s.processedAssetOperations →
        o.operationId ∈ (s.next E op).processedAssetOperations :=
      fun s op h => State.processed_next h op
    have p2 : o.operationId ∈ s2.processedAssetOperations := processed_acceptLoop h2 ho hc
    have p3 := acceptLoop_rule (P := (o.operationId ∈ ·.processedAssetOperations))
      (fun s x _ => hkept s _) h3 p2
    have p4 := acceptLoop_rule (P := (o.operationId ∈ ·.processedAssetOperations))
      (fun s x _ => hkept s _) h4 p3
    have p5 := acceptLoop_rule (P := (o.operationId ∈ ·.processedAssetOperations))
      (fun s x _ => hkept s _) h5 p4
    exact acceptLoop_rule (P := (o.operationId ∈ ·.processedAssetOperations))
      (fun s x _ => hkept s _) h6 p5

end Node

end WorldstreetChain
