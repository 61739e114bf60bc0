import WorldstreetChain.Node.Crash
import WorldstreetChain.Node.Replica

/-!
# A node that is restarted

What waits in a node's queues is in memory only; what a restart finds is the store. A node that
follows others, by imports and by votes, reads its tip alone, and so a restart is nothing to it.

* `Node.next_sameTip` -- a call that makes no block of the queues does the same at the same tip.
* `Node.Event`, `Node.live` -- a call or a restart.
* `Node.restarts_invisible` -- **a run with restarts is the run without them.**
-/

namespace WorldstreetChain

open Std

namespace Node

variable {E : Env} {n n' m : Node} {c : Call} {io : Io}

/-! ## 1. Calls at the same tip -/

theorem SameTip.trans {l : Node} (h : SameTip n m) (h' : SameTip m l) : SameTip n l :=
  ⟨h'.genesis.trans h.genesis, h'.store.trans h.store, h'.state.trans h.state,
    h'.latestBlock.trans h.latestBlock⟩

/-- The call does not make a block of what waits. -/
def Call.NoProduction : Call → Prop
  | .produceBlock _ _ => False
  | _ => True

theorem attempt_sameTip {α β : Type} {r : Outcome NodeError β}
    {k k' : β → Applied NodeError Node α} (htip : SameTip n m)
    (h : ∀ b, SameTip (k b).state (k' b).state) :
    SameTip (Applied.attempt n r k).state (Applied.attempt m r k').state := by
  cases r with
  | error e => exact htip
  | ok b => exact h b

theorem adopt_sameTip (htip : SameTip n m) (s : State) (b : Block) :
    (m.adopt E io s b).result = (n.adopt E io s b).result ∧
      SameTip (n.adopt E io s b).state (m.adopt E io s b).state := by
  unfold adopt
  rw [htip.store]
  generalize n.store.commit E (E.crypto.blockHeaderId b.header) b s.snapshot io.fault = committed
  dsimp only
  cases committed.result.mapErr NodeError.storage with
  | error e => exact ⟨rfl, htip.genesis, rfl, htip.state, htip.latestBlock⟩
  | ok a => exact ⟨rfl, htip.genesis, rfl, rfl, rfl⟩

theorem importBlock_sameTip (htip : SameTip n m) (b : Block) :
    SameTip (n.importBlock E io b).state (m.importBlock E io b).state := by
  unfold importBlock
  refine attempt_sameTip htip fun _ => ?_
  rw [htip.store, replay_congr htip.genesis htip.state htip.latestBlock]
  by_cases hknown : (n.store.getBlock (E.crypto.blockHeaderId b.header)).isOk = true
  · rw [if_pos hknown, if_pos hknown]
    exact htip
  · rw [if_neg hknown, if_neg hknown]
    refine attempt_sameTip htip fun s => ?_
    obtain ⟨hresult, hadopted⟩ : (m.adopt E io s b).result = (n.adopt E io s b).result ∧ _ :=
      adopt_sameTip htip s b
    simp only [hresult]
    exact attempt_sameTip hadopted fun _ =>
      ⟨hadopted.genesis, hadopted.store, hadopted.state, hadopted.latestBlock⟩

theorem faucet_sameTip (htip : SameTip n m) (address : Address) (amount : Amount) :
    SameTip (n.faucet E io address amount).state (m.faucet E io address amount).state := by
  have hheader : ∀ height s, m.makeHeader E io height s .empty none =
      n.makeHeader E io height s .empty none := fun height s => by
    unfold makeHeader latestHash
    rw [htip.genesis, htip.latestBlock]
  unfold faucet
  rw [htip.genesis, htip.state]
  refine attempt_sameTip htip fun _ => attempt_sameTip htip fun _ => ?_
  unfold commitBlock
  rw [htip.latestBlock]
  refine attempt_sameTip htip fun height => ?_
  simp only [hheader]
  exact (adopt_sameTip htip _ _).2

theorem finalizeVotes_sameTip (htip : SameTip n m) (S : VoteSet) :
    SameTip (n.finalizeVotes E io S).state (m.finalizeVotes E io S).state := by
  have hvotes : ∀ hash votes, m.validateVotes E S hash votes = n.validateVotes E S hash votes :=
    fun hash votes => by
      induction votes with
      | nil => rfl
      | cons v votes ih =>
        unfold validateVotes validatorSet
        rw [htip.genesis, ih]
  have hcheck : m.checkVotes E S = n.checkVotes E S := by
    unfold checkVotes validatorSet latestHash
    rw [htip.genesis, htip.latestBlock]
    simp only [hvotes]
  have hhash : m.latestHash E = n.latestHash E := by
    unfold latestHash
    rw [htip.latestBlock]
  unfold finalizeVotes
  rw [hcheck, hhash, htip.store]
  refine attempt_sameTip htip fun _ => ?_
  exact attempt_sameTip ⟨htip.genesis, rfl, htip.state, htip.latestBlock⟩ fun _ =>
    ⟨htip.genesis, rfl, htip.state, htip.latestBlock⟩

/-- **At the same tip** a call that makes no block of the queues does the same. -/
theorem next_sameTip (htip : SameTip n m) (hc : c.NoProduction) :
    SameTip (n.next E c) (m.next E c) := by
  cases c with
  | submitTransaction t =>
    exact (submitTransaction_sameTip n t).symm.trans
      (htip.trans (submitTransaction_sameTip m t))
  | submitAssetOperation o =>
    exact (submitAssetOperation_sameTip n o).symm.trans
      (htip.trans (submitAssetOperation_sameTip m o))
  | submitTokenOperation o =>
    exact (submitTokenOperation_sameTip n o).symm.trans
      (htip.trans (submitTokenOperation_sameTip m o))
  | submitMnaSwap o =>
    exact (submitMnaSwap_sameTip n o).symm.trans (htip.trans (submitMnaSwap_sameTip m o))
  | submitMnaReserveOperation o =>
    exact (submitMnaReserveOperation_sameTip n o).symm.trans
      (htip.trans (submitMnaReserveOperation_sameTip m o))
  | submitProgramOperation o =>
    exact (submitProgramOperation_sameTip n o).symm.trans
      (htip.trans (submitProgramOperation_sameTip m o))
  | produceBlock io proposer => exact hc.elim
  | faucet io address amount => exact faucet_sameTip htip address amount
  | importBlock io b => exact importBlock_sameTip htip b
  | finalizeVotes io S => exact finalizeVotes_sameTip htip S

/-! ## 2. Restarts -/

/-- What happens to a node: a call, or a restart on its own directory. -/
inductive Event where
  | call (c : Call)
  | restart (io : Io)

def Event.call? : Event → Option Call
  | .call c => some c
  | .restart _ => none

/-- The directory is opened again. -/
def reopen (E : Env) (n : Node) (io : Io) : Outcome NodeError Node :=
  (openDir E n.genesis.chainId n.genesis n.store io).result

/-- A node whose directory does not open is left where it was. -/
def live (E : Env) (n : Node) : Event → Node
  | .call c => n.next E c
  | .restart io =>
    match n.reopen E io with
    | .ok m => m
    | .error _ => n

/-- No insertion of a call fails, and it makes no block of the queues. -/
def Follower (_ : Node) : Event → Prop
  | .call c => c.fault = none ∧ c.NoProduction
  | .restart _ => True

/-- If the event is a restart, the directory opens. -/
def Opens (E : Env) (n : Node) : Event → Prop
  | .call _ => True
  | .restart io => (n.reopen E io).isOk = true

/-- A durable node finds its tip again. -/
theorem Durable.reopen (h : Durable E n) (io : Io) :
    n.reopen E io = .ok (idle n.genesis n.store n.state n.latestBlock) := by
  unfold Node.reopen
  rw [openDir_initialized h.initialized]
  exact restore_eq_ok h.latestBlock h.latestState h.chainId h.root

theorem Durable.sameTip (h : Durable E n) (htip : SameTip n m) : Durable E m := by
  have hhash : m.latestHash E = n.latestHash E := latestHash_congr htip.latestBlock
  refine ⟨?_, ?_, ?_, ?_, ?_, ?_⟩
  · rw [htip.genesis, htip.store]
    exact h.initialized
  · rw [htip.store, hhash]
    exact h.latestHash
  · rw [htip.store, hhash, htip.latestBlock]
    exact h.stored
  · rw [htip.store, htip.state]
    exact h.latestState
  · rw [htip.latestBlock, htip.genesis]
    exact h.chainId
  · rw [htip.state, htip.latestBlock]
    exact h.root

/-- **The step lemma**: the directory opens, a restart leaves the tip alone, and a call is the
    call. -/
theorem live_step {e : Event} (h : Durable E n) (htip : SameTip n m) (hf : Follower n e) :
    Opens E n e ∧ Durable E (n.live E e) ∧
      SameTip (n.live E e) (runs (next E) m e.call?.toList) := by
  cases e with
  | call c => exact ⟨trivial, durable_step h hf.1, next_sameTip htip hf.2⟩
  | restart io =>
    have hidle : SameTip n (idle n.genesis n.store n.state n.latestBlock) := ⟨rfl, rfl, rfl, rfl⟩
    have hreopen := h.reopen io
    have hlive : n.live E (.restart io) = idle n.genesis n.store n.state n.latestBlock := by
      simp only [live, hreopen]
    refine ⟨Outcome.isOk_iff.mpr ⟨_, hreopen⟩, ?_, ?_⟩
    · rw [hlive]
      exact h.sameTip hidle
    · rw [hlive]
      exact hidle.symm.trans htip

theorem live_runs {events : List Event} (h : Durable E n) (htip : SameTip n m)
    (hf : EachStep (live E) Follower n events) :
    EachStep (live E) (Opens E) n events ∧
      SameTip (runs (live E) n events) (runs (next E) m (events.filterMap Event.call?)) := by
  induction events generalizing n m with
  | nil => exact ⟨trivial, htip⟩
  | cons e events ih =>
    obtain ⟨hopens, hdurable, hsame⟩ := live_step h htip hf.1
    obtain ⟨hrest, htips⟩ := ih hdurable hsame hf.2
    refine ⟨⟨hopens, hrest⟩, ?_⟩
    cases e with
    | call c => exact htips
    | restart io => exact htips

/-- **Restarts are invisible.** A directory is opened for the first time; the node gets calls and
    is restarted in between, as often as it pleases. While no insertion fails and it makes no block
    of its own queues, every restart succeeds, and its tip, state and store are those of the node
    that got the same calls and was never restarted. -/
theorem restarts_invisible {configChainId : String} {genesis : GenesisConfig} {store : Store}
    {events : List Event} (hopen : openDir E configChainId genesis .empty io = ⟨.ok n, store⟩)
    (hfollows : EachStep (live E) Follower n events) :
    EachStep (live E) (Opens E) n events ∧
      SameTip (runs (live E) n events) (runs (next E) n (events.filterMap Event.call?)) := by
  obtain ⟨s, hs, rfl⟩ := openDir_empty hopen
  exact live_runs (durable_fresh hs) (.refl _) hfollows

end Node

namespace Sample

/-- The mint waits, the node is restarted, and then it gets the block with the mint. -/
def restartedRun : List Node.Event :=
  [.call (.submitAssetOperation waitingMint), .restart ⟨3, none⟩,
    .call (.importBlock ⟨5, none⟩ mintBlock), .restart ⟨6, none⟩]

end Sample

namespace Node

/-- What waited is lost, the block is not. -/
theorem restarts_invisible_mint :
    (runs (live .standIn) Sample.freshNode Sample.restartedRun).state =
      (runs (next .standIn) Sample.freshNode [.submitAssetOperation Sample.waitingMint,
        .importBlock ⟨5, none⟩ Sample.mintBlock]).state := by
  have hopen : openDir .standIn (Sample.genesis 1).chainId (Sample.genesis 1) .empty ⟨0, none⟩ =
      ⟨.ok Sample.freshNode, Sample.freshNode.store⟩ :=
    openDir_fresh (Sample.fromGenesis_genesis 1) rfl
  have hfollows : EachStep (live .standIn) Follower Sample.freshNode Sample.restartedRun :=
    ⟨⟨rfl, trivial⟩, trivial, ⟨rfl, trivial⟩, trivial, trivial⟩
  exact (restarts_invisible hopen hfollows).2.state.symm

end Node

end WorldstreetChain
