import WorldstreetChain.Node.Crash

/-!
# Peers (`wsc-network`)

A peer serves any number of connections with one node, behind one lock, and one table of vote
sets. Blocks that arrive are imported one by one, and a validator then answers with votes for
them; votes that arrive are counted under their height, block and round, and a quorum is handed to
the node. Between two uses of the lock the other connections go on.

* `Peer.serveBlocks`, `Peer.serveVote`, `Peer.work` -- a message that arrives, and what a
  connection does next about an earlier one.
* `Peer.Event`, `Peer.next`, `Peer.sends` -- the peer as a machine, and the votes it sends.
* `Peer.Lives.kept` -- **what the votes of a set have passed**, on every run.
-/

namespace WorldstreetChain

open Std

/-- What votes are counted under: the height, the block and the round. -/
abbrev VoteKey := U64 × Hash × U64

def Vote.key (v : Vote) : VoteKey := (v.height, v.blockHash, v.round)

def VoteSet.key (S : VoteSet) : VoteKey := (S.height, S.blockHash, S.round)

inductive NetworkError where
  | encoding
  | invalidFrameLength
  | timeout
  | handshake (text : String)
  | node (e : NodeError)
  | vote (text : String)
  | nodeLockPoisoned
  deriving DecidableEq

/-- The table behind `vote_sets`. -/
abbrev VoteSets := VoteKey → Option VoteSet

/-- What a connection is in the middle of: blocks it has still to import, with the votes it sends
    after the last one, or a quorum it is about to hand to the node. -/
inductive Task where
  | importing (blocks : List Block) (votes : List Vote)
  | finalizing (S : VoteSet)

/-- A panic under the node's lock poisons it: nobody gets at the node any more. -/
structure Peer where
  node : Node
  poisoned : Bool
  voteSets : VoteSets
  validator : Option KeyPair
  tasks : List Task

/-- Whether the call panics. -/
def Node.panics (E : Env) (n : Node) : Node.Call → Bool
  | .submitTransaction t => (n.submitTransaction E t).result.isPanic
  | .submitAssetOperation o => (n.submitAssetOperation o).result.isPanic
  | .submitTokenOperation o => (n.submitTokenOperation E o).result.isPanic
  | .submitMnaSwap o => (n.submitMnaSwap E o).result.isPanic
  | .submitMnaReserveOperation o => (n.submitMnaReserveOperation E o).result.isPanic
  | .submitProgramOperation o => (n.submitProgramOperation E o).result.isPanic
  | .produceBlock io proposer => (n.produceBlockWithProposer E io proposer).result.isPanic
  | .faucet io address amount => (n.faucet E io address amount).result.isPanic
  | .importBlock io b => (n.importBlock E io b).result.isPanic
  | .finalizeVotes io S => (n.finalizeVotes E io S).result.isPanic

/-! ## 1. Sound sets of votes -/

/-- The votes of the set stand under their validators' keys and are valid there. -/
def VoteSet.Sound (C : Crypto) (V : ValidatorSet) (S : VoteSet) : Prop :=
  ∀ k v, S.votes[k]? = some v →
    v.validator = k ∧ ValidVote C V v S.chainId S.height S.round S.blockHash

theorem VoteSet.sound_new {C : Crypto} {V : ValidatorSet} (chainId : String) (height round : U64)
    (hash : Hash) : (new chainId height round hash).Sound C V := by
  intro k v hv
  have hempty : (∅ : BTreeMap PublicKey Vote)[k]? = some v := hv
  rw [ExtTreeMap.getElem?_empty] at hempty
  cases hempty

theorem VoteSet.Sound.insert {C : Crypto} {V : ValidatorSet} {S : VoteSet} {v : Vote}
    (h : S.Sound C V) (hv : ValidVote C V v S.chainId S.height S.round S.blockHash) :
    VoteSet.Sound C V { S with votes := S.votes.insert v.validator v } := by
  intro k w hw
  have hinsert : (S.votes.insert v.validator v)[k]? = some w := hw
  rw [ExtTreeMap.getElem?_insert] at hinsert
  split at hinsert
  · rename_i hk
    cases hinsert
    exact ⟨LawfulEqOrd.eq_of_compare hk, hv⟩
  · exact h k w hinsert

namespace Peer

/-! ## 2. Serving -/

section Calls

variable (E : Env) (P : Peer)

/-- A call of the node under its lock. -/
def underLock {α : Type} (r : Applied NodeError Node α) : Applied NetworkError Peer α :=
  ⟨r.result.mapErr .node, { P with node := r.state, poisoned := r.result.isPanic }⟩

/-- `node.lock().map_err(..)?`. -/
def lock : Outcome NetworkError Unit := rejectIf (P.poisoned = true) .nodeLockPoisoned

/-- The votes for the blocks of a message, signed before any of them is imported. -/
def signVotes (blocks : List Block) : Outcome NetworkError (List Vote) :=
  match P.validator with
  | some key => do
    P.lock
    .ok (blocks.map fun b => Vote.sign E.crypto P.node.genesis.chainId b.header.height 0
      (E.crypto.blockHeaderId b.header) key)
  | none => .ok []

/-- `if let Ok(mut node) = node.lock() { node.import_block(block).map_err(node_error)?; }`. -/
def importBlock (io : Io) (b : Block) : Applied NetworkError Peer Unit :=
  if P.poisoned then ⟨.ok (), P⟩
  else (P.underLock (P.node.importBlock E io b)).map fun _ => ()

def putSet (key : VoteKey) (S : VoteSet) : Peer :=
  { P with voteSets := Function.update P.voteSets key (some S) }

/-- The set a vote is counted in: the one under its key, or a new one on the vote's own chain id. -/
def setFor (v : Vote) : VoteSet :=
  (P.voteSets v.key).getD (.new v.chainId v.height v.round v.blockHash)

/-- Counting a vote; the set is in the table from then on, whether the vote is counted or not. -/
def recordVote (v : Vote) : Applied NetworkError Peer (Option VoteSet) :=
  .attempt P P.lock fun _ =>
  match (P.setFor v).record E.crypto P.node.validatorSet v with
  | .ok (_, S) =>
    ⟨.ok (if S.isQuorum P.node.validatorSet then some S else none), P.putSet v.key S⟩
  | .error (.err e) => ⟨.error (.err (.vote e.toText)), P.putSet v.key (P.setFor v)⟩
  | .error .panic => ⟨.error .panic, P.putSet v.key (P.setFor v)⟩

/-- `node.finalize_votes(&vote_set).map_err(node_error)?`. -/
def finalize (io : Io) (S : VoteSet) : Applied NetworkError Peer U64 :=
  .attempt P P.lock fun _ => P.underLock (P.node.finalizeVotes E io S)

/-- A connection takes something up. -/
def takeUp (t : Task) : Peer := { P with tasks := P.tasks ++ [t] }

/-- A connection is done with its task, or has ended. -/
def drop (i : Nat) : Peer := { P with tasks := P.tasks.eraseIdx i }

def serveBlocks (blocks : List Block) : Peer :=
  match P.signVotes E blocks with
  | .ok votes => P.takeUp (.importing blocks votes)
  | .error _ => P

def serveVote (v : Vote) : Peer :=
  let recorded := P.recordVote E v
  match recorded.result with
  | .ok (some S) => recorded.state.takeUp (.finalizing S)
  | _ => recorded.state

/-- What the `i`-th of the waiting connections does next. -/
def work (io : Io) (i : Nat) : Peer :=
  match P.tasks[i]? with
  | some (.importing (b :: rest) votes) =>
    let imported := P.importBlock E io b
    match imported.result with
    | .ok _ => { imported.state with tasks := P.tasks.set i (.importing rest votes) }
    | .error _ => imported.state.drop i
  | some (.importing [] _) => P.drop i
  | some (.finalizing S) => (P.finalize E io S).state.drop i
  | none => P

end Calls

/-! ## 3. The peer as a machine -/

/-- A message that arrives, a connection that goes on, or a call from elsewhere. -/
inductive Event where
  | blocks (blocks : List Block)
  | vote (v : Vote)
  | work (io : Io) (i : Nat)
  | call (c : Node.Call)

def next (E : Env) (P : Peer) : Event → Peer
  | .blocks blocks => P.serveBlocks E blocks
  | .vote v => P.serveVote E v
  | .work io i => P.work E io i
  | .call c =>
    if P.poisoned then P
    else { P with node := P.node.next E c, poisoned := P.node.panics E c }

/-- The votes sent: those of a connection that has imported the last of its blocks. -/
def sends (P : Peer) : Event → List Vote
  | .work _ i =>
    match P.tasks[i]? with
    | some (.importing [] votes) => votes
    | _ => []
  | _ => []

/-- The node's call in the event, if the lock can be had. -/
def nodeCall (P : Peer) (e : Event) : Option Node.Call :=
  if P.poisoned then none
  else match e with
    | .work io i =>
      match P.tasks[i]? with
      | some (.importing (b :: _) _) => some (.importBlock io b)
      | some (.finalizing S) => some (.finalizeVotes io S)
      | _ => none
    | .call c => some c
    | _ => none

variable {E : Env} {P : Peer} {io : Io} {v : Vote}

@[simp] theorem putSet_node (key : VoteKey) (S : VoteSet) : (P.putSet key S).node = P.node := rfl

@[simp] theorem putSet_tasks (key : VoteKey) (S : VoteSet) :
    (P.putSet key S).tasks = P.tasks := rfl

theorem putSet_self (key : VoteKey) (S : VoteSet) : (P.putSet key S).voteSets key = some S := by
  unfold putSet
  exact Function.update_self ..

theorem putSet_of_ne {key key' : VoteKey} (h : key' ≠ key) (S : VoteSet) :
    (P.putSet key S).voteSets key' = P.voteSets key' := by
  unfold putSet
  exact Function.update_of_ne h ..

/-! ## 4. The step rule -/

/-- The vote passes the tests of its set and is the first of its validator there. -/
def Counts (E : Env) (P : Peer) (v : Vote) : Prop :=
  ValidVote E.crypto P.node.validatorSet v (P.setFor v).chainId (P.setFor v).height
    (P.setFor v).round (P.setFor v).blockHash ∧ v.validator ∉ (P.setFor v).votes

/-- The set with the vote. -/
def countedSet (P : Peer) (v : Vote) : VoteSet :=
  { P.setFor v with votes := (P.setFor v).votes.insert v.validator v }

/-- **Counting a vote**: one that counts is put into its set, any other leaves the set as it is. -/
theorem recordVote_cases (hlock : P.poisoned = false) (v : Vote) :
    (P.Counts E v ∧ P.recordVote E v =
      ⟨.ok (if (P.countedSet v).isQuorum P.node.validatorSet then some (P.countedSet v) else none),
        P.putSet v.key (P.countedSet v)⟩) ∨
    (¬ P.Counts E v ∧ ∃ e, P.recordVote E v = ⟨.error e, P.putSet v.key (P.setFor v)⟩) := by
  unfold recordVote lock
  rw [hlock, rejectIf_neg Bool.false_ne_true, Applied.attempt_ok]
  cases h : (P.setFor v).record E.crypto P.node.validatorSet v with
  | ok r =>
    obtain ⟨quorum, S⟩ := r
    obtain ⟨hvalid, hnew, rfl, -⟩ := VoteSet.record_eq_ok.mp h
    exact Or.inl ⟨⟨hvalid, hnew⟩, rfl⟩
  | error e =>
    have hnot : ¬ P.Counts E v := by
      intro hc
      have hok := VoteSet.record_eq_ok.mpr ⟨hc.1, hc.2, rfl, rfl⟩
      rw [hok] at h
      cases h
    cases e with
    | err e => exact Or.inr ⟨hnot, _, rfl⟩
    | panic => exact Or.inr ⟨hnot, _, rfl⟩

/-- What an event does while the lock is good. -/
inductive Step (E : Env) (P : Peer) : Event → Peer → Prop where
  | begun (blocks : List Block) (votes : List Vote)
      (hvotes : P.signVotes E blocks = .ok votes) :
      Step E P (.blocks blocks) (P.takeUp (.importing blocks votes))
  | counted (v : Vote) (hcounts : P.Counts E v)
      (hquorum : ¬ (P.countedSet v).isQuorum P.node.validatorSet = true) :
      Step E P (.vote v) (P.putSet v.key (P.countedSet v))
  | quorum (v : Vote) (hcounts : P.Counts E v)
      (hquorum : (P.countedSet v).isQuorum P.node.validatorSet = true) :
      Step E P (.vote v) ((P.putSet v.key (P.countedSet v)).takeUp (.finalizing (P.countedSet v)))
  | uncounted (v : Vote) (hcounts : ¬ P.Counts E v) :
      Step E P (.vote v) (P.putSet v.key (P.setFor v))
  | imported (io : Io) (i : Nat) (b : Block) (rest : List Block) (votes : List Vote) (hash : Hash)
      (htask : P.tasks[i]? = some (.importing (b :: rest) votes))
      (hok : (P.node.importBlock E io b).result = .ok hash) :
      Step E P (.work io i) { P with
        node := P.node.next E (.importBlock io b)
        tasks := P.tasks.set i (.importing rest votes) }
  | failed (io : Io) (i : Nat) (b : Block) (rest : List Block) (votes : List Vote)
      (poisoned : Bool) (htask : P.tasks[i]? = some (.importing (b :: rest) votes)) :
      Step E P (.work io i) { P with
        node := P.node.next E (.importBlock io b), poisoned, tasks := P.tasks.eraseIdx i }
  | sent (io : Io) (i : Nat) (votes : List Vote)
      (htask : P.tasks[i]? = some (.importing [] votes)) : Step E P (.work io i) (P.drop i)
  | finalized (io : Io) (i : Nat) (S : VoteSet) (poisoned : Bool)
      (htask : P.tasks[i]? = some (.finalizing S)) :
      Step E P (.work io i) { P with
        node := P.node.next E (.finalizeVotes io S), poisoned, tasks := P.tasks.eraseIdx i }
  | absent (io : Io) (i : Nat) (htask : P.tasks[i]? = none) : Step E P (.work io i) P
  | called (c : Node.Call) (poisoned : Bool) :
      Step E P (.call c) { P with node := P.node.next E c, poisoned }

theorem serveVote_step (hlock : P.poisoned = false) (v : Vote) :
    Step E P (.vote v) (P.serveVote E v) := by
  unfold serveVote
  rcases recordVote_cases (E := E) hlock v with ⟨hc, hr⟩ | ⟨hc, e, hr⟩
  · rw [hr]
    by_cases hquorum : (P.countedSet v).isQuorum P.node.validatorSet = true
    · simp only [if_pos hquorum]
      exact .quorum v hc hquorum
    · simp only [if_neg hquorum]
      exact .counted v hc hquorum
  · rw [hr]
    exact .uncounted v hc

theorem work_step (hlock : P.poisoned = false) (io : Io) (i : Nat) :
    Step E P (.work io i) (P.work E io i) := by
  unfold work
  cases htask : P.tasks[i]? with
  | none => exact .absent io i htask
  | some t =>
    cases t with
    | finalizing S =>
      have hfinalize : (P.finalize E io S).state.drop i = { P with
          node := P.node.next E (.finalizeVotes io S)
          poisoned := (P.node.finalizeVotes E io S).result.isPanic
          tasks := P.tasks.eraseIdx i } := by
        unfold finalize lock
        rw [hlock, rejectIf_neg Bool.false_ne_true, Applied.attempt_ok]
        rfl
      simp only [hfinalize]
      exact .finalized io i S _ htask
    | importing blocks votes =>
      cases blocks with
      | nil => exact .sent io i votes htask
      | cons b rest =>
        have himport : P.importBlock E io b = ⟨((P.node.importBlock E io b).result.mapErr
            .node).map fun _ => (), { P with
              node := P.node.next E (.importBlock io b)
              poisoned := (P.node.importBlock E io b).result.isPanic }⟩ := by
          unfold importBlock
          rw [hlock, if_neg Bool.false_ne_true]
          rfl
        simp only [himport]
        cases hresult : (P.node.importBlock E io b).result with
        | ok hash =>
          have hstep := Step.imported (E := E) io i b rest votes hash htask hresult
          rw [hlock] at hstep
          exact hstep
        | error e =>
          cases e with
          | err e => exact .failed io i b rest votes false htask
          | panic => exact .failed io i b rest votes true htask

/-- **The step rule.** -/
theorem next_step (hlock : P.poisoned = false) (e : Event) : Step E P e (P.next E e) := by
  cases e with
  | blocks blocks =>
    have hvotes : ∃ votes, P.signVotes E blocks = .ok votes := by
      unfold signVotes lock
      cases P.validator with
      | none => exact ⟨[], rfl⟩
      | some key =>
        rw [hlock, rejectIf_neg Bool.false_ne_true]
        exact ⟨_, rfl⟩
    obtain ⟨votes, hvotes⟩ := hvotes
    have hserve : P.next E (.blocks blocks) = P.takeUp (.importing blocks votes) := by
      show P.serveBlocks E blocks = _
      unfold serveBlocks
      rw [hvotes]
    rw [hserve]
    exact .begun blocks votes hvotes
  | vote v => exact serveVote_step hlock v
  | work io i => exact work_step hlock io i
  | call c =>
    have hcall : P.next E (.call c) =
        { P with node := P.node.next E c, poisoned := P.node.panics E c } := by
      unfold next
      rw [hlock]
      rfl
    rw [hcall]
    exact .called c _

/-! ## 5. What is counted -/

/-- The sets in the table stand under their own keys and are sound, and so are those on their way
    to the node. -/
structure Kept (E : Env) (P : Peer) : Prop where
  key : ∀ key S, P.voteSets key = some S → S.key = key
  sound : ∀ key S, P.voteSets key = some S → S.Sound E.crypto P.node.validatorSet
  finalizing : ∀ S, .finalizing S ∈ P.tasks → S.Sound E.crypto P.node.validatorSet

theorem setFor_key (h : P.Kept E) (v : Vote) : (P.setFor v).key = v.key := by
  unfold setFor
  cases hS : P.voteSets v.key with
  | none => rfl
  | some S => exact h.key v.key S hS

theorem setFor_sound (h : P.Kept E) (v : Vote) :
    (P.setFor v).Sound E.crypto P.node.validatorSet := by
  unfold setFor
  cases hS : P.voteSets v.key with
  | none => exact VoteSet.sound_new _ _ _ _
  | some S => exact h.sound v.key S hS

theorem countedSet_sound (h : P.Kept E) (hc : P.Counts E v) :
    (P.countedSet v).Sound E.crypto P.node.validatorSet :=
  (setFor_sound h v).insert hc.1

theorem Kept.putSet (h : P.Kept E) {S : VoteSet} {key : VoteKey} (hkey : S.key = key)
    (hsound : S.Sound E.crypto P.node.validatorSet) : (P.putSet key S).Kept E := by
  refine ⟨fun key' S' hS' => ?_, fun key' S' hS' => ?_, h.finalizing⟩
  · by_cases hk : key' = key
    · subst hk
      rw [putSet_self] at hS'
      cases hS'
      exact hkey
    · rw [putSet_of_ne hk] at hS'
      exact h.key key' S' hS'
  · by_cases hk : key' = key
    · subst hk
      rw [putSet_self] at hS'
      cases hS'
      exact hsound
    · rw [putSet_of_ne hk] at hS'
      exact h.sound key' S' hS'

/-- Anything that leaves the genesis and the table alone, and brings no set to the node. -/
theorem Kept.of_tasks {P' : Peer} (h : P.Kept E) (hgenesis : P'.node.genesis = P.node.genesis)
    (hsets : P'.voteSets = P.voteSets)
    (htasks : ∀ S, .finalizing S ∈ P'.tasks → .finalizing S ∈ P.tasks) : P'.Kept E := by
  have hset : P'.node.validatorSet = P.node.validatorSet := by
    unfold Node.validatorSet
    rw [hgenesis]
  refine ⟨?_, ?_, fun S hS => ?_⟩
  · rw [hsets]
    exact h.key
  · rw [hsets, hset]
    exact h.sound
  · rw [hset]
    exact h.finalizing S (htasks S hS)

theorem Kept.takeUp (h : P.Kept E) {S : VoteSet} (hsound : S.Sound E.crypto P.node.validatorSet) :
    (P.takeUp (.finalizing S)).Kept E := by
  refine ⟨h.key, h.sound, fun S' hS' => ?_⟩
  rcases List.mem_append.mp hS' with hS' | hS'
  · exact h.finalizing S' hS'
  · cases List.mem_singleton.mp hS'
    exact hsound

/-- Where a task was put in another one's place. -/
theorem mem_tasks_of_set {tasks : List Task} {i : Nat} {blocks : List Block} {votes : List Vote}
    {S : VoteSet} (h : .finalizing S ∈ tasks.set i (.importing blocks votes)) :
    .finalizing S ∈ tasks := by
  rcases List.mem_or_eq_of_mem_set h with h | h
  · exact h
  · cases h

/-- **An event keeps the table.** -/
theorem Kept.next (h : P.Kept E) (hlock : P.poisoned = false) (e : Event) :
    (P.next E e).Kept E := by
  have hstep := next_step (E := E) hlock e
  generalize P.next E e = P' at hstep
  cases hstep with
  | begun blocks votes _ =>
    refine h.of_tasks rfl rfl fun S hS => ?_
    rcases List.mem_append.mp hS with hS | hS
    · exact hS
    · cases List.mem_singleton.mp hS
  | counted v hc _ => exact h.putSet (setFor_key h v) (countedSet_sound h hc)
  | quorum v hc _ =>
    have hput : (P.putSet v.key (P.countedSet v)).Kept E :=
      h.putSet (setFor_key h v) (countedSet_sound h hc)
    exact hput.takeUp (countedSet_sound h hc)
  | uncounted v _ => exact h.putSet (setFor_key h v) (setFor_sound h v)
  | imported io i b rest votes hash _ _ =>
    exact h.of_tasks (Node.genesis_next _ _) rfl fun S hS => mem_tasks_of_set hS
  | failed io i b rest votes poisoned _ =>
    exact h.of_tasks (Node.genesis_next _ _) rfl fun S hS => List.mem_of_mem_eraseIdx hS
  | sent io i votes _ => exact h.of_tasks rfl rfl fun S hS => List.mem_of_mem_eraseIdx hS
  | finalized io i S poisoned _ =>
    exact h.of_tasks (Node.genesis_next _ _) rfl fun S hS => List.mem_of_mem_eraseIdx hS
  | absent io i _ => exact h
  | called c poisoned => exact h.of_tasks (Node.genesis_next _ _) rfl fun S hS => hS

/-! ## 6. Peers that serve -/

/-- The storage calls of the event do not fail, and votes come to the node by connections only. -/
def Event.Calm : Event → Prop
  | .work io _ => io.fault = none
  | .call c => c.fault = none ∧ ∀ io S, c ≠ .finalizeVotes io S
  | _ => True

/-- A peer that has started with a node and nothing else, and served. -/
inductive Lives (E : Env) (genesis : GenesisConfig) : Peer → Prop where
  | started {n : Node} (h : Node.Lives E genesis n) (validator : Option KeyPair) :
      Lives E genesis ⟨n, false, fun _ => none, validator, []⟩
  | next {P : Peer} (h : Lives E genesis P) (hlock : P.poisoned = false) {e : Event}
      (hcalm : e.Calm) : Lives E genesis (P.next E e)

/-- The nodes of an event with reliable storage. -/
theorem durable_next (h : Node.Durable E P.node) (hlock : P.poisoned = false) {e : Event}
    (hcalm : e.Calm) : Node.Durable E (P.next E e).node := by
  have hstep := next_step (E := E) hlock e
  generalize P.next E e = P' at hstep
  cases hstep with
  | begun blocks votes _ => exact h
  | counted v _ _ => exact h
  | quorum v _ _ => exact h
  | uncounted v _ => exact h
  | imported io i b rest votes hash _ _ =>
    have hrel : Node.Reliable P.node (.importBlock io b) := hcalm
    exact Node.durable_step h hrel
  | failed io i b rest votes poisoned _ =>
    have hrel : Node.Reliable P.node (.importBlock io b) := hcalm
    exact Node.durable_step h hrel
  | sent io i votes _ => exact h
  | finalized io i S poisoned _ =>
    have hrel : Node.Reliable P.node (.finalizeVotes io S) := hcalm
    exact Node.durable_step h hrel
  | absent io i _ => exact h
  | called c poisoned => exact Node.durable_step h hcalm.1

/-- **Every peer's sets are sound**, and its node is durable. -/
theorem Lives.kept {genesis : GenesisConfig} (h : P.Lives E genesis) :
    Node.Durable E P.node ∧ P.Kept E := by
  induction h with
  | started h validator =>
    refine ⟨h.durable.1, fun key S hS => ?_, fun key S hS => ?_, fun S hS => ?_⟩
    · cases hS
    · cases hS
    · cases hS
  | next _ hlock hcalm ih => exact ⟨durable_next ih.1 hlock hcalm, ih.2.next hlock _⟩

end Peer

end WorldstreetChain
