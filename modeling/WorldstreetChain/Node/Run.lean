import WorldstreetChain.Library.Runs
import WorldstreetChain.Node.Basic

/-!
# What a call can do to a node

A call makes a block and commits it, or marks a block final, or leaves everything but the queues
alone; a commit that meets a failing insertion leaves a part of its insertions in the store and
the tip where it was.

* `Node.Commits` -- the block and the state a call is about to commit.
* `Node.next_step` -- **the step rule**: the four things a call can do.
* `Node.chainOf` -- the blocks that have been at the tip along a run.
-/

namespace WorldstreetChain

open Std

namespace Node

variable {E : Env} {n n' : Node} {c : Call} {s : State} {b : Block} {io : Io}

/-! ## 1. What is committed -/

/-- The call passes everything in front of the store's commit, with this state and this block. -/
inductive Commits (E : Env) (n : Node) : Call → State → Block → Prop where
  | produce (io : Io) (proposer : Option KeyPair) (s : State) (accepted : Batch) (height : U64)
      (hturn : ¬ proposer.any (fun key => !n.isExpectedProposer (E.crypto.publicKey key)) = true)
      (haccept : accept E n.state n.nextHeight (n.queue E) = .ok (s, accepted))
      (hheight : Unsigned.add (ε := NodeError) E.overflowChecks n.latestBlock.header.height 1 =
        .ok height) :
      Commits E n (.produceBlock io proposer) s
        (accepted.toBlock (n.makeHeader E io height s accepted proposer))
  | faucet (io : Io) (address : Address) (amount : Amount) (s : State) (height : U64)
      (hdevnet : State.containsStr n.genesis.chainId "devnet" = true)
      (hcredit : n.state.creditDevnet address amount = ⟨.ok (), s⟩)
      (hheight : Unsigned.add (ε := NodeError) E.overflowChecks n.latestBlock.header.height 1 =
        .ok height) :
      Commits E n (.faucet io address amount) s
        (Batch.empty.toBlock (n.makeHeader E io height s .empty none))
  | import (io : Io) (b : Block) (s : State) (hversion : b.header.version = 1)
      (hnew : (n.store.getBlock (E.crypto.blockHeaderId b.header)).isOk = false)
      (hreplay : n.replay E b = .ok s) :
      Commits E n (.importBlock io b) s b

/-- The header stands on the tip and declares the state. -/
structure Extends (E : Env) (n : Node) (s : State) (b : Block) : Prop where
  version : b.header.version = 1
  chainId : b.header.chainId = n.genesis.chainId
  height : Unsigned.add (ε := NodeError) E.overflowChecks n.latestBlock.header.height 1 =
    .ok b.header.height
  parent : b.header.parentHash = n.latestHash E
  root : b.header.stateRoot = s.stateRoot E
  ids : b.header.transactionRoot = E.crypto.merkleRoot (b.batch.ids E.crypto)

theorem extends_makeHeader {height : U64} {batch : Batch} {proposer : Option KeyPair}
    (h : Unsigned.add (ε := NodeError) E.overflowChecks n.latestBlock.header.height 1 =
      .ok height) :
    Extends E n s (batch.toBlock (n.makeHeader E io height s batch proposer)) := by
  cases proposer with
  | none => exact ⟨rfl, rfl, h, rfl, rfl, rfl⟩
  | some key => exact ⟨rfl, rfl, h, rfl, rfl, rfl⟩

theorem checkPosition_eq_ok {header : BlockHeader} (h : n.checkPosition E header = .ok ()) :
    header.chainId = n.genesis.chainId ∧
      Unsigned.add (ε := NodeError) E.overflowChecks n.latestBlock.header.height 1 =
        .ok header.height ∧
      header.parentHash = n.latestHash E ∧ n.checkProposer E header = .ok () := by
  unfold checkPosition at h
  obtain ⟨hchain, h⟩ := rejectIf_bind_eq_ok.mp h
  obtain ⟨expected, hadd, h⟩ := Outcome.bind_eq_ok.mp h
  obtain ⟨hheight, h⟩ := rejectIf_bind_eq_ok.mp h
  obtain ⟨hparent, h⟩ := rejectIf_bind_eq_ok.mp h
  rw [not_not.mp hheight]
  exact ⟨not_not.mp hchain, hadd, not_not.mp hparent, h⟩

/-- **What a block has passed that an importer replays.** -/
theorem replay_eq_ok : n.replay E b = .ok s ↔
    n.checkPosition E b.header = .ok () ∧
      execute E n.state b.header.height b.batch = .ok s ∧
      E.crypto.merkleRoot (b.batch.ids E.crypto) = b.header.transactionRoot ∧
      s.stateRoot E = b.header.stateRoot := by
  unfold replay
  constructor
  · intro h
    obtain ⟨_, hposition, h⟩ := Outcome.bind_eq_ok.mp h
    obtain ⟨next, hexecute, h⟩ := Outcome.bind_eq_ok.mp h
    obtain ⟨hids, h⟩ := rejectIf_bind_eq_ok.mp h
    obtain ⟨hroot, h⟩ := rejectIf_bind_eq_ok.mp h
    cases h
    exact ⟨hposition, hexecute, not_not.mp hids, not_not.mp hroot⟩
  · rintro ⟨hposition, hexecute, hids, hroot⟩
    refine Outcome.bind_eq_ok.mpr ⟨(), hposition, Outcome.bind_eq_ok.mpr ⟨s, hexecute, ?_⟩⟩
    refine rejectIf_bind_eq_ok.mpr ⟨not_not.mpr hids, ?_⟩
    exact rejectIf_bind_eq_ok.mpr ⟨not_not.mpr hroot, rfl⟩

/-- **Whatever is committed stands on the tip.** -/
theorem Commits.extends (h : Commits E n c s b) : Extends E n s b := by
  cases h with
  | produce io proposer s accepted height hturn haccept hheight => exact extends_makeHeader hheight
  | faucet io address amount s height hdevnet hcredit hheight => exact extends_makeHeader hheight
  | «import» io b s hversion hnew hreplay =>
    obtain ⟨hposition, -, hids, hroot⟩ := replay_eq_ok.mp hreplay
    obtain ⟨hchain, hheight, hparent, -⟩ := checkPosition_eq_ok hposition
    exact ⟨hversion, hchain, hheight, hparent, hroot.symm, hids.symm⟩

/-- The heights of two neighbours differ, whether the sum wraps or not. -/
theorem Extends.height_ne (h : Extends E n s b) :
    b.header.height ≠ n.latestBlock.header.height := by
  intro heq
  have hadd := Unsigned.add_eq_ok h.height
  have hlt := n.latestBlock.header.height.isLt
  have hone : (1 : U64).toNat = 1 := rfl
  rw [heq, hone] at hadd
  rcases hadd with hadd | ⟨-, -, hadd⟩
  · omega
  · omega

/-! ## 2. What a commit leaves behind -/

/-- Nothing but the queues differs. -/
structure SameTip (n n' : Node) : Prop where
  genesis : n'.genesis = n.genesis
  store : n'.store = n.store
  state : n'.state = n.state
  latestBlock : n'.latestBlock = n.latestBlock

theorem SameTip.refl (n : Node) : SameTip n n := ⟨rfl, rfl, rfl, rfl⟩

/-- The insertions of the commit of a block and a state. -/
def commitWrites (E : Env) (s : State) (b : Block) : List Write :=
  Store.commitWrites E (E.crypto.blockHeaderId b.header) b s.snapshot

/-- The node with the block at its tip. -/
structure Adopted (E : Env) (n : Node) (s : State) (b : Block) (n' : Node) : Prop where
  genesis : n'.genesis = n.genesis
  store : n'.store = n.store.insertAll (commitWrites E s b)
  state : n'.state = s
  latestBlock : n'.latestBlock = b

/-- The node whose commit was cut off. -/
structure CutOff (E : Env) (n : Node) (s : State) (b : Block) (k : Nat) (n' : Node) : Prop where
  genesis : n'.genesis = n.genesis
  store : n'.store = n.store.insertAll ((commitWrites E s b).take k)
  state : n'.state = n.state
  latestBlock : n'.latestBlock = n.latestBlock

/-- Where the insertions of a call stop: behind the last one, or where one fails. -/
def Reaches (fault : Option Nat) (ws : List Write) : Prop := ∀ k, fault = some k → ws.length < k

theorem perform_reaches (store : Store) {ws : List Write} {fault : Option Nat}
    (h : Reaches fault ws) : store.perform ws fault = ⟨.ok (), store.insertAll ws⟩ := by
  unfold Store.perform
  cases fault with
  | none => rfl
  | some k => exact if_neg (Nat.not_le.mpr (h k rfl))

theorem perform_cutOff (store : Store) {ws : List Write} {k : Nat} (h : k ≤ ws.length) :
    store.perform ws (some k) = ⟨.error (.err .database), store.insertAll (ws.take k)⟩ :=
  if_pos h

theorem reaches_or (fault : Option Nat) (ws : List Write) :
    Reaches fault ws ∨ ∃ k, fault = some k ∧ k ≤ ws.length := by
  cases fault with
  | none => exact Or.inl fun k hk => by cases hk
  | some k =>
    by_cases hk : k ≤ ws.length
    · exact Or.inr ⟨k, rfl, hk⟩
    · refine Or.inl fun k' hk' => ?_
      cases hk'
      omega

theorem adopt_reaches (h : Reaches io.fault (commitWrites E s b)) :
    n.adopt E io s b = ⟨.ok (), { n with
      store := n.store.insertAll (commitWrites E s b), state := s, latestBlock := b }⟩ := by
  have hp := perform_reaches n.store h
  unfold commitWrites at hp
  unfold adopt Store.commit
  rw [hp]
  rfl

theorem adopt_cutOff {k : Nat} (hf : io.fault = some k)
    (hk : k ≤ (commitWrites E s b).length) :
    n.adopt E io s b = ⟨.error (.err (.storage .database)), { n with
      store := n.store.insertAll ((commitWrites E s b).take k) }⟩ := by
  have hp := perform_cutOff n.store hk
  unfold commitWrites at hp
  unfold adopt Store.commit
  rw [hf, hp]
  rfl

/-! ## 3. The step rule -/

/-- What a call can do: change the queues alone; commit a block; fail at an insertion of a commit;
    mark the tip final. -/
inductive Step (E : Env) (n : Node) (c : Call) : Node → Prop where
  | quiet (n' : Node) (htip : SameTip n n') (hnone : ∀ s b, ¬ Commits E n c s b) : Step E n c n'
  | commit (s : State) (b : Block) (n' : Node) (hcommits : Commits E n c s b)
      (hreaches : Reaches c.fault (commitWrites E s b)) (h : Adopted E n s b n') : Step E n c n'
  | cutOff (s : State) (b : Block) (k : Nat) (n' : Node) (hcommits : Commits E n c s b)
      (hfault : c.fault = some k) (hk : k ≤ (commitWrites E s b).length)
      (h : CutOff E n s b k n') : Step E n c n'
  | finalize (io : Io) (S : VoteSet) (current : U64) (n' : Node) (hcall : c = .finalizeVotes io S)
      (hvotes : n.checkVotes E S = .ok ()) (hcurrent : n.store.finalizedHeight = .ok current)
      (hle : current ≤ S.height)
      (hstored : ∃ b, n.store.getBlock (n.latestHash E) = .ok b ∧ b.header.height = S.height)
      (h : n' = { n with store :=
        (n.store.perform (Store.finalizedWrites S.height (n.latestHash E)) c.fault).state }) :
      Step E n c n'

/-- A call that is no block call commits nothing. -/
theorem step_quiet (htip : SameTip n n') (h : ∀ s b, ¬ Commits E n c s b) : Step E n c n' :=
  .quiet n' htip h

theorem commitBlock_step {m : Node} (htip : SameTip n m) {batch : Batch}
    {proposer : Option KeyPair} (hfault : c.fault = io.fault)
    (hcommits : ∀ height, Unsigned.add (ε := NodeError) E.overflowChecks
      n.latestBlock.header.height 1 = .ok height →
        Commits E n c s (batch.toBlock (n.makeHeader E io height s batch proposer)))
    (hnone : ∀ s b, Commits E n c s b → Unsigned.add (ε := NodeError) E.overflowChecks
      n.latestBlock.header.height 1 = .ok b.header.height) :
    Step E n c (m.commitBlock E io s batch proposer).state := by
  have hlatest := htip.latestBlock
  have hheader : ∀ height, m.makeHeader E io height s batch proposer =
      n.makeHeader E io height s batch proposer := by
    intro height
    unfold makeHeader latestHash
    rw [hlatest, htip.genesis]
  unfold commitBlock
  rw [hlatest]
  cases hadd : Unsigned.add (ε := NodeError) E.overflowChecks n.latestBlock.header.height 1 with
  | error e =>
    refine .quiet _ htip fun s b h => ?_
    rw [hnone s b h] at hadd
    cases hadd
  | ok height =>
    have hc := hcommits height hadd
    rw [Applied.attempt_ok, hheader]
    rcases reaches_or io.fault (commitWrites E s (batch.toBlock
      (n.makeHeader E io height s batch proposer))) with hr | ⟨k, hk, hle⟩
    · have ha := adopt_reaches (n := m) hr
      simp only [ha, Applied.map]
      refine .commit s _ _ hc (hfault ▸ hr) ⟨htip.genesis, ?_, rfl, rfl⟩
      rw [htip.store]
    · have ha := adopt_cutOff (n := m) hk hle
      simp only [ha, Applied.map]
      refine .cutOff s _ k _ hc (hfault.trans hk) hle ⟨htip.genesis, ?_, htip.state, hlatest⟩
      rw [htip.store]

theorem sameTip_clearQueues (n : Node) : SameTip n n.clearQueues := ⟨rfl, rfl, rfl, rfl⟩

theorem produce_step (n : Node) (io : Io) (proposer : Option KeyPair) :
    Step E n (.produceBlock io proposer) (n.next E (.produceBlock io proposer)) := by
  show Step E n _ (n.produceBlockWithProposer E io proposer).state
  unfold produceBlockWithProposer
  by_cases hturn : proposer.any (fun key => !n.isExpectedProposer (E.crypto.publicKey key)) = true
  · rw [rejectIf_pos hturn]
    refine .quiet _ (.refl n) fun s b h => ?_
    cases h with
    | produce _ _ _ _ _ hturn' => exact hturn' hturn
  · rw [rejectIf_neg hturn, Applied.attempt_ok]
    cases haccept : accept E n.state n.nextHeight (n.queue E) with
    | error e =>
      refine .quiet _ (sameTip_clearQueues n) fun s b h => ?_
      cases h with
      | produce _ _ _ _ _ _ haccept' =>
        rw [haccept'] at haccept
        cases haccept
    | ok r =>
      obtain ⟨s, accepted⟩ := r
      exact commitBlock_step (sameTip_clearQueues n) rfl
        (fun height hadd => .produce io proposer s accepted height hturn haccept hadd)
        fun s b h => h.extends.height

theorem faucet_step (n : Node) (io : Io) (address : Address) (amount : Amount) :
    Step E n (.faucet io address amount) (n.next E (.faucet io address amount)) := by
  show Step E n _ (n.faucet E io address amount).state
  unfold faucet
  by_cases hdevnet : State.containsStr n.genesis.chainId "devnet" = false
  · rw [rejectIf_pos hdevnet]
    refine .quiet _ (.refl n) fun s b h => ?_
    cases h with
    | faucet _ _ _ _ _ hdevnet' =>
      rw [hdevnet] at hdevnet'
      cases hdevnet'
  · rw [rejectIf_neg hdevnet, Applied.attempt_ok]
    cases hcredit : n.state.creditDevnet address amount with
    | mk result s =>
      cases result with
      | error e =>
        have hsame : SameTip n (Applied.attempt n (Outcome.mapErr NodeError.state
            (.error e : Outcome StateError Unit)) fun _ => n.commitBlock E io s .empty none).state := by
          cases e <;> exact .refl n
        refine .quiet _ hsame fun s' b h => ?_
        cases h with
        | faucet _ _ _ _ _ _ hcredit' =>
          rw [hcredit'] at hcredit
          cases hcredit
      | ok u =>
        exact commitBlock_step (.refl n) rfl
          (fun height hadd => .faucet io address amount s height (by simpa using hdevnet) hcredit
            hadd)
          fun s b h => h.extends.height

theorem import_step (n : Node) (io : Io) (b : Block) :
    Step E n (.importBlock io b) (n.next E (.importBlock io b)) := by
  show Step E n _ (n.importBlock E io b).state
  unfold importBlock
  by_cases hversion : b.header.version ≠ 1
  · rw [rejectIf_pos hversion]
    refine .quiet _ (.refl n) fun s b' h => ?_
    cases h with
    | «import» _ _ _ hversion' => exact hversion hversion'
  · rw [rejectIf_neg hversion, Applied.attempt_ok]
    have hone := not_not.mp hversion
    by_cases hnew : (n.store.getBlock (E.crypto.blockHeaderId b.header)).isOk = true
    · simp only [hnew, if_true]
      refine .quiet _ (.refl n) fun s b' h => ?_
      cases h with
      | «import» _ _ _ _ hnew' =>
        rw [hnew] at hnew'
        cases hnew'
    · simp only [hnew]
      cases hreplay : n.replay E b with
      | error e =>
        refine .quiet _ (.refl n) fun s b' h => ?_
        cases h with
        | «import» _ _ _ _ _ hreplay' =>
          rw [hreplay'] at hreplay
          cases hreplay
      | ok s =>
        have hc : Commits E n (.importBlock io b) s b :=
          .import io b s hone (by simpa using hnew) hreplay
        rw [Applied.attempt_ok]
        rcases reaches_or io.fault (commitWrites E s b) with hr | ⟨k, hk, hle⟩
        · have ha := adopt_reaches (n := n) hr
          simp only [ha, Applied.attempt_ok]
          exact .commit s b _ hc hr ⟨rfl, rfl, rfl, rfl⟩
        · have ha := adopt_cutOff (n := n) hk hle
          simp only [ha]
          exact .cutOff s b k _ hc hk hle ⟨rfl, rfl, rfl, rfl⟩

/-- What handing in votes leaves behind: the store, marked, if they pass. -/
theorem finalizeVotes_state (n : Node) (io : Io) (S : VoteSet) :
    (n.finalizeVotes E io S).state = match n.checkVotes E S with
      | .ok _ =>
        { n with store := (n.store.markFinalized S.height (n.latestHash E) io.fault).state }
      | .error _ => n := by
  unfold finalizeVotes
  cases hvotes : n.checkVotes E S with
  | error e => rfl
  | ok u =>
    rw [Applied.attempt_ok]
    generalize n.store.markFinalized S.height (n.latestHash E) io.fault = marked
    obtain ⟨result, store⟩ := marked
    cases result with
    | error e => cases e <;> rfl
    | ok u => rfl

theorem finalize_step (n : Node) (io : Io) (S : VoteSet) :
    Step E n (.finalizeVotes io S) (n.next E (.finalizeVotes io S)) := by
  show Step E n _ (n.finalizeVotes E io S).state
  have hnone : ∀ s b, ¬ Commits E n (.finalizeVotes io S) s b := fun s b h => by cases h
  rw [finalizeVotes_state]
  cases hvotes : n.checkVotes E S with
  | error e => exact .quiet _ (.refl n) hnone
  | ok u =>
    rcases Store.markFinalized_cases n.store S.height (n.latestHash E) io.fault with
      h | ⟨b, current, hget, hheight, hcurrent, hle, h⟩
    · exact .quiet _ ⟨rfl, h, rfl, rfl⟩ hnone
    · simp only [h]
      exact .finalize io S current _ rfl hvotes hcurrent hle ⟨b, hget, hheight⟩ rfl

/-- A submission leaves the tip alone. -/
theorem ofClone_sameTip {α : Type} {r : Outcome NodeError (α × Node)}
    (h : ∀ a m, r = .ok (a, m) → SameTip n m) : SameTip n (Applied.ofClone n r).state := by
  cases r with
  | error e => exact .refl n
  | ok x => exact h x.1 x.2 rfl

theorem submitTransaction_sameTip (n : Node) (t : Transaction) :
    SameTip n (n.submitTransaction E t).state := by
  unfold submitTransaction
  by_cases h : (n.store.getTransaction (E.crypto.transactionId t)).isOk = true
  · rw [rejectIf_pos h]
    exact .refl n
  · rw [rejectIf_neg h]
    exact ⟨rfl, rfl, rfl, rfl⟩

theorem submitAssetOperation_sameTip (n : Node) (o : AssetOperation) :
    SameTip n (n.submitAssetOperation o).state := by
  refine ofClone_sameTip fun a m h => ?_
  simp only [rejectIf_bind_eq_ok] at h
  obtain ⟨-, -, h⟩ := h
  cases h
  exact ⟨rfl, rfl, rfl, rfl⟩

theorem submitTokenOperation_sameTip (n : Node) (o : TokenOperation) :
    SameTip n (n.submitTokenOperation E o).state := by
  refine ofClone_sameTip fun a m h => ?_
  obtain ⟨-, h⟩ := rejectIf_bind_eq_ok.mp h
  obtain ⟨_, -, h⟩ := Outcome.bind_eq_ok.mp h
  cases h
  exact ⟨rfl, rfl, rfl, rfl⟩

theorem submitMnaSwap_sameTip (n : Node) (o : MnaSwapOperation) :
    SameTip n (n.submitMnaSwap E o).state := by
  refine ofClone_sameTip fun a m h => ?_
  obtain ⟨-, h⟩ := rejectIf_bind_eq_ok.mp h
  obtain ⟨_, -, h⟩ := Outcome.bind_eq_ok.mp h
  cases h
  exact ⟨rfl, rfl, rfl, rfl⟩

theorem submitMnaReserveOperation_sameTip (n : Node) (o : MnaReserveOperation) :
    SameTip n (n.submitMnaReserveOperation E o).state := by
  refine ofClone_sameTip fun a m h => ?_
  obtain ⟨-, h⟩ := rejectIf_bind_eq_ok.mp h
  obtain ⟨_, -, h⟩ := Outcome.bind_eq_ok.mp h
  cases h
  exact ⟨rfl, rfl, rfl, rfl⟩

theorem submitProgramOperation_sameTip (n : Node) (o : ProgramOperation) :
    SameTip n (n.submitProgramOperation E o).state := by
  refine ofClone_sameTip fun a m h => ?_
  obtain ⟨-, h⟩ := rejectIf_bind_eq_ok.mp h
  obtain ⟨_, -, h⟩ := Outcome.bind_eq_ok.mp h
  cases h
  exact ⟨rfl, rfl, rfl, rfl⟩

/-- **The step rule**: every call does one of the four things. -/
theorem next_step (n : Node) (c : Call) : Step E n c (n.next E c) := by
  cases c with
  | submitTransaction t => exact step_quiet (submitTransaction_sameTip n t) fun s b h => by cases h
  | submitAssetOperation o =>
    exact step_quiet (submitAssetOperation_sameTip n o) fun s b h => by cases h
  | submitTokenOperation o =>
    exact step_quiet (submitTokenOperation_sameTip n o) fun s b h => by cases h
  | submitMnaSwap o => exact step_quiet (submitMnaSwap_sameTip n o) fun s b h => by cases h
  | submitMnaReserveOperation o =>
    exact step_quiet (submitMnaReserveOperation_sameTip n o) fun s b h => by cases h
  | submitProgramOperation o =>
    exact step_quiet (submitProgramOperation_sameTip n o) fun s b h => by cases h
  | produceBlock io proposer => exact produce_step n io proposer
  | faucet io address amount => exact faucet_step n io address amount
  | importBlock io b => exact import_step n io b
  | finalizeVotes io S => exact finalize_step n io S

/-- A call commits one block and one state. -/
theorem Commits.unique {s' : State} {b' : Block} (h : Commits E n c s b)
    (h' : Commits E n c s' b') : s' = s ∧ b' = b := by
  cases h with
  | produce io proposer s accepted height hturn haccept hheight =>
    cases h' with
    | produce _ _ s' accepted' height' hturn' haccept' hheight' =>
      rw [haccept] at haccept'
      rw [hheight] at hheight'
      cases haccept'
      cases hheight'
      exact ⟨rfl, rfl⟩
  | faucet io address amount s height hdevnet hcredit hheight =>
    cases h' with
    | faucet _ _ _ s' height' hdevnet' hcredit' hheight' =>
      rw [hcredit] at hcredit'
      rw [hheight] at hheight'
      cases hcredit'
      cases hheight'
      exact ⟨rfl, rfl⟩
  | «import» io b s hversion hnew hreplay =>
    cases h' with
    | «import» _ _ s' hversion' hnew' hreplay' =>
      rw [hreplay] at hreplay'
      cases hreplay'
      exact ⟨rfl, rfl⟩

/-! ## 4. Runs -/

/-- The storage calls of the call do not fail. -/
def Reliable (_ : Node) (c : Call) : Prop := c.fault = none

/-- The block a call puts at the tip, if it does. -/
def adopted (E : Env) (n : Node) (c : Call) : List Block :=
  if (n.next E c).latestBlock = n.latestBlock then [] else [(n.next E c).latestBlock]

/-- The blocks that have been at the tip, the first one's block included, in their order. -/
def chainOf (E : Env) (n : Node) (calls : List Call) : List Block :=
  n.latestBlock :: go n calls
where
  go (n : Node) : List Call → List Block
    | [] => []
    | c :: rest => adopted E n c ++ go (n.next E c) rest

theorem adopted_of_sameBlock (h : (n.next E c).latestBlock = n.latestBlock) :
    adopted E n c = [] := if_pos h

/-- A call without a fault that moves the tip has committed what it has moved to. -/
theorem commits_of_moved (hrel : c.fault = none)
    (hmoved : (n.next E c).latestBlock ≠ n.latestBlock) :
    Commits E n c (n.next E c).state (n.next E c).latestBlock := by
  have hstep := next_step (E := E) n c
  generalize n.next E c = n' at hstep hmoved ⊢
  cases hstep with
  | quiet _ htip _ => exact absurd htip.latestBlock hmoved
  | commit s b _ hc _ ha =>
    rw [ha.state, ha.latestBlock]
    exact hc
  | cutOff s b k _ _ hfault _ _ =>
    rw [hrel] at hfault
    cases hfault
  | finalize io S current _ _ _ _ _ _ h =>
    rw [h] at hmoved
    exact absurd rfl hmoved

/-- A committed block is new at the tip. -/
theorem adopted_of_commits (hc : Commits E n c s b) (h : (n.next E c).latestBlock = b) :
    adopted E n c = [b] := by
  unfold adopted
  rw [h, if_neg fun heq => hc.extends.height_ne (by rw [heq])]

theorem go_cons (n : Node) (c : Call) (calls : List Call) :
    chainOf.go E n (c :: calls) = adopted E n c ++ chainOf.go E (n.next E c) calls := rfl

/-! ## 5. Opening a fresh directory -/

/-- The node of a fresh directory. -/
def fresh (E : Env) (genesis : GenesisConfig) (s : State) : Node :=
  idle genesis (Store.empty.insertAll (Store.genesisWrites E genesis
    (E.crypto.blockHeaderId (makeGenesisBlock E genesis s).header) (makeGenesisBlock E genesis s)
    s.snapshot)) s (makeGenesisBlock E genesis s)

/-- Its store is that of a commit, after the entries of the genesis and of finality. -/
theorem fresh_store (E : Env) (genesis : GenesisConfig) (s : State) :
    (fresh E genesis s).store = ((Store.empty.insertAll
      [⟨.metadata, Store.metaChainId, Postcard.utf8 genesis.chainId⟩,
        ⟨.metadata, Store.metaGenesisHash, (E.crypto.blockHeaderId
          (makeGenesisBlock E genesis s).header).bytes.toList⟩]).insertAll
      (Store.finalizedWrites 0 (E.crypto.blockHeaderId
        (makeGenesisBlock E genesis s).header))).insertAll
      (commitWrites E s (makeGenesisBlock E genesis s)) := by
  unfold fresh idle Store.genesisWrites
  rw [Store.insertAll_append, Store.insertAll_append]
  rfl

/-- A store whose latest block and state fit opens at them. -/
theorem restore_eq_ok {genesis : GenesisConfig} {store : Store}
    (hb : store.latestBlock = .ok b) (hs : store.latestState = .ok s.snapshot)
    (hchain : b.header.chainId = genesis.chainId) (hroot : s.stateRoot E = b.header.stateRoot) :
    restore E genesis store = .ok (idle genesis store s b) := by
  have hfits : (State.fromSnapshot s.snapshot).stateRoot E = b.header.stateRoot := hroot
  unfold restore
  rw [hb, hs]
  refine Outcome.bind_eq_ok.mpr ⟨b, rfl, Outcome.bind_eq_ok.mpr ⟨s.snapshot, rfl, ?_⟩⟩
  refine rejectIf_bind_eq_ok.mpr ⟨not_not.mpr hchain, ?_⟩
  exact rejectIf_bind_eq_ok.mpr ⟨not_not.mpr hfits, rfl⟩

/-- What an opened node has read off its store. -/
theorem restore_cases {genesis : GenesisConfig} {store : Store}
    (h : restore E genesis store = .ok n) :
    ∃ b p, store.latestBlock = .ok b ∧ store.latestState = .ok p ∧
      b.header.chainId = genesis.chainId ∧
      (State.fromSnapshot p).stateRoot E = b.header.stateRoot ∧
      n = idle genesis store (State.fromSnapshot p) b := by
  unfold restore at h
  obtain ⟨b, hb, h⟩ := Outcome.bind_eq_ok.mp h
  obtain ⟨p, hp, h⟩ := Outcome.bind_eq_ok.mp h
  obtain ⟨hchain, h⟩ := rejectIf_bind_eq_ok.mp h
  obtain ⟨hroot, h⟩ := rejectIf_bind_eq_ok.mp h
  cases h
  exact ⟨b, p, Outcome.mapErr_eq_ok.mp hb, Outcome.mapErr_eq_ok.mp hp, not_not.mp hchain,
    not_not.mp hroot, rfl⟩

theorem latestBlock_commit (store : Store) (s : State) (b : Block) :
    (store.insertAll (commitWrites E s b)).latestBlock = .ok b := by
  unfold Store.latestBlock commitWrites
  rw [Store.latestHash_commit]
  exact Store.getBlock_commit store _ b _

/-- **A fresh directory opens at the genesis block and state.** -/
theorem openDir_empty {configChainId : String} {genesis : GenesisConfig} {store : Store}
    (h : openDir E configChainId genesis .empty io = ⟨.ok n, store⟩) :
    ∃ s, State.fromGenesis genesis = .ok s ∧ n = fresh E genesis s := by
  unfold openDir at h
  obtain ⟨_, -, h⟩ := Applied.attempt_eq_ok.mp h
  obtain ⟨s, hs, h⟩ := Applied.attempt_eq_ok.mp h
  simp only [Store.ensureGenesis_empty] at h
  refine ⟨s, Outcome.mapErr_eq_ok.mp hs, ?_⟩
  rcases reaches_or io.fault (Store.genesisWrites E genesis
    (E.crypto.blockHeaderId (makeGenesisBlock E genesis s).header) (makeGenesisBlock E genesis s)
    s.snapshot) with hr | ⟨k, hk, hle⟩
  · rw [perform_reaches _ hr] at h
    obtain ⟨_, -, h⟩ := Applied.attempt_eq_ok.mp h
    obtain ⟨n', hn', h⟩ := Applied.attempt_eq_ok.mp h
    have hread : restore E genesis (fresh E genesis s).store = .ok (fresh E genesis s) := by
      refine restore_eq_ok ?_ ?_ rfl rfl
      · exact latestBlock_commit _ s (makeGenesisBlock E genesis s)
      · exact Store.latestState_commit _ _ _ _
    have hn : restore E genesis (fresh E genesis s).store = .ok n' := hn'
    rw [hread] at hn
    cases hn
    cases h
    rfl
  · rw [hk, perform_cutOff _ hle] at h
    obtain ⟨_, herr, -⟩ := Applied.attempt_eq_ok.mp h
    cases herr

theorem openDir_fresh {genesis : GenesisConfig} (hs : State.fromGenesis genesis = .ok s)
    (hio : io.fault = none) :
    openDir E genesis.chainId genesis .empty io =
      ⟨.ok (fresh E genesis s), (fresh E genesis s).store⟩ := by
  have hread : restore E genesis (fresh E genesis s).store = .ok (fresh E genesis s) := by
    refine restore_eq_ok ?_ ?_ rfl rfl
    · exact latestBlock_commit _ s (makeGenesisBlock E genesis s)
    · exact Store.latestState_commit _ _ _ _
  unfold openDir
  rw [rejectIf_neg (not_not.mpr rfl), Applied.attempt_ok, hs]
  show Applied.attempt _ _ _ = _
  simp only [Store.ensureGenesis_empty, hio]
  show Applied.attempt _ (restore E genesis (fresh E genesis s).store) _ = _
  rw [hread]
  rfl

/-! ## 6. Blocks without operations -/

/-- A node with nothing queued puts a block without operations on its tip. -/
theorem next_produce_idle (hE : E.overflowChecks = false) (genesis : GenesisConfig)
    (store : Store) (s : State) (b : Block) (now : U64) :
    (idle genesis store s b).next E (.produceBlock ⟨now, none⟩ none) =
      let block := Batch.empty.toBlock ((idle genesis store s b).makeHeader E ⟨now, none⟩
        (b.header.height + 1) s .empty none)
      idle genesis (store.insertAll (commitWrites E s block)) s block := by
  have hadd : Unsigned.add (ε := NodeError) E.overflowChecks b.header.height 1 =
      .ok (b.header.height + 1) := by
    rw [hE, Unsigned.add]
    split <;> rfl
  show (Node.produceBlockWithProposer E _ ⟨now, none⟩ none).state = _
  unfold produceBlockWithProposer
  rw [rejectIf_neg (by simp), Applied.attempt_ok]
  show (Node.commitBlock E (idle genesis store s b) ⟨now, none⟩ s .empty none).state = _
  unfold commitBlock
  have hadd' : Unsigned.add (ε := NodeError) E.overflowChecks
      (idle genesis store s b).latestBlock.header.height 1 = .ok (b.header.height + 1) := hadd
  rw [hadd']
  rfl

end Node

end WorldstreetChain
