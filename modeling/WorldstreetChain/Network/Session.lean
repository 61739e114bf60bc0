import WorldstreetChain.Network.Sync
import WorldstreetChain.Node.Replica

/-!
# Sessions (`serve_connection`)

A connection is a stream of bytes in either direction. It opens with a `Hello` of both sides; after
that each frame is a message, served with the node's lock taken for one step at a time. Bytes
arrive in any pieces, connections take turns in any order, and any of them may end.

* `Connection`, `Hub`, `Hub.next` -- the connections of a peer, down to the bytes that have arrived.
* `Hub.Mirrors` -- the peer, with what its connections are in the middle of as its tasks.
* `Hub.mirrors_step` -- one event of the hub is at most one event of the peer.
* `Hub.sessions_refine` -- **every run over streams is a run of the peer**, on the messages read.
-/

namespace WorldstreetChain

open Std

/-! ## 1. One connection -/

/-- What `local_hello` takes down when the connection starts. -/
structure HelloFields where
  chainId : String
  genesisHash : Hash
  height : U64
  nodeId : String

def HelloFields.message (h : HelloFields) : NetworkMessage :=
  .hello h.chainId h.genesisHash h.height h.nodeId

/-- Where a connection stands: before the other side's `Hello`, before the next message, in the
    middle of one, or at its end. After its last block a connection may have a request to write. -/
inductive Stage where
  | greeting
  | serving
  | working (task : Task) (request : Option (U64 × U64))
  | submitting (transactions : List Transaction)
  | closed

def Stage.task : Stage → Option Task
  | .working task _ => some task
  | _ => none

/-- The bytes that have arrived and are not read yet, and the messages written. -/
structure Connection where
  initiator : Bool
  hello : HelloFields
  inbox : List UInt8
  written : List NetworkMessage
  stage : Stage

def validateHello (message : NetworkMessage) (expected : HelloFields) :
    Outcome NetworkError Unit :=
  match message with
  | .hello chainId genesisHash _ _ =>
    rejectIf (¬ (chainId = expected.chainId ∧ genesisHash = expected.genesisHash))
      (.handshake ("peer chain mismatch: chain_id=" ++ chainId ++ ", genesis_hash="
        ++ genesisHash.toHex))
  | _ => .error (.err (.handshake "first peer message must be Hello"))

namespace Connection

def close (C : Connection) : Connection := { C with stage := .closed }

/-- `write_message(..).await?`, one after the other. -/
def send (C : Connection) : List NetworkMessage → Connection
  | [] => C
  | m :: rest =>
    match writeMessage m with
    | .ok _ => send { C with written := C.written ++ [m] } rest
    | .error _ => C.close

/-- What is written once the other side has greeted. -/
def greetings (C : Connection) : List NetworkMessage :=
  let request := firstRequest C.hello.height
  (if C.initiator then [] else [C.hello.message])
    ++ [.getBlocks request.1 request.2, .getMempool]

def greet (C : Connection) (m : NetworkMessage) : Connection :=
  match validateHello m C.hello with
  | .ok _ => { C with stage := .serving }.send C.greetings
  | .error _ => C.close

end Connection

/-! ## 2. The connections of a peer -/

/-- The peer that all connections share, and the connections. What a connection is in the middle of
    stands in its stage; the peer's own list of tasks stays empty. -/
structure Hub where
  peer : Peer
  chainId : String
  nodeId : String
  connections : List Connection

namespace Hub

section Calls

variable (E : Env) (H : Hub)

def localHello : Outcome NetworkError HelloFields := do
  H.peer.lock
  rejectIf (H.peer.node.genesis.chainId ≠ H.chainId)
    (.handshake "configured chain ID does not match node")
  let genesisHash ← H.peer.node.store.genesisHash.mapErr fun e => .node (.storage e)
  .ok ⟨H.chainId, genesisHash, H.peer.node.latestBlock.header.height, H.nodeId⟩

/-- `serve_connection` starts. -/
def connect (initiator : Bool) : Hub :=
  match H.localHello with
  | .ok hello =>
    let C : Connection := ⟨initiator, hello, [], [], .greeting⟩
    { H with connections :=
        H.connections ++ [if initiator then C.send [hello.message] else C] }
  | .error _ => H

def put (i : Nat) (C : Connection) : Hub := { H with connections := H.connections.set i C }

/-- `if let Ok(mut node) = node.lock() { node.submit_transaction(transaction) }`, without what is
    made of the answer. -/
def submit (P : Peer) (t : Transaction) : Peer := P.next E (.call (.submitTransaction t))

/-- `collect_blocks`; the lock and the range are tested before anything else, and either failure
    ends the connection. -/
def collect (P : Peer) (first last : U64) : Outcome NetworkError (List Block) := do
  P.lock
  P.node.collectBlocks first last

/-- A message of the loop is taken up. -/
def handle (P : Peer) (C : Connection) : NetworkMessage → Peer × Connection
  | .hello .. => (P, C)
  | .getBlocks first last =>
    match collect P first last with
    | .ok blocks => (P, C.send [.blocks blocks])
    | .error _ => (P, C.close)
  | .blocks blocks =>
    match P.signVotes E blocks with
    | .ok votes =>
      (P, { C with stage := .working (.importing blocks votes) (continueFrom blocks) })
    | .error _ => (P, C.close)
  | .getMempool =>
    match P.lock with
    | .ok _ => (P, C.send [.transactions P.node.mempool.transactions])
    | .error _ => (P, C.close)
  | .transactions transactions => (P, { C with stage := .submitting transactions })
  | .transaction t =>
    if P.poisoned ∨ (P.node.submitTransaction E t).result.isOk then (submit E P t, C)
    else (submit E P t, C.close)
  | .vote v =>
    let recorded := P.recordVote E v
    match recorded.result with
    | .ok (some S) => (recorded.state, { C with stage := .working (.finalizing S) none })
    | .ok none => (recorded.state, C)
    | .error _ => (recorded.state, C.close)

/-- What is written behind the last block. -/
def answers (request : Option (U64 × U64)) (votes : List Vote) : List NetworkMessage :=
  (request.map fun r => .getBlocks r.1 r.2).toList ++ votes.map .vote

/-- What a connection does next with what it is in the middle of. -/
def continueTask (io : Io) (P : Peer) (C : Connection) (request : Option (U64 × U64)) :
    Task → Peer × Connection
  | .importing (b :: rest) votes =>
    let imported := P.importBlock E io b
    match imported.result with
    | .ok _ => (imported.state, { C with stage := .working (.importing rest votes) request })
    | .error _ => (imported.state, C.close)
  | .importing [] votes => (P, { C with stage := .serving }.send (answers request votes))
  | .finalizing S =>
    let finalized := P.finalize E io S
    match finalized.result with
    | .ok _ => (finalized.state, { C with stage := .serving })
    | .error _ => (finalized.state, C.close)

/-- Transactions of the other side's mempool, whose refusal does not matter; a panic ends the
    connection with the lock. -/
def continueSubmitting (P : Peer) (C : Connection) : List Transaction → Peer × Connection
  | [] => (P, { C with stage := .serving })
  | t :: rest =>
    if P.poisoned = false ∧ (P.node.submitTransaction E t).result.isPanic then
      (submit E P t, C.close)
    else (submit E P t, { C with stage := .submitting rest })

/-- The connection reads a frame, if a whole one has arrived. -/
def read (P : Peer) (C : Connection) (serve : Connection → NetworkMessage → Peer × Connection) :
    Peer × Connection :=
  match readMessage C.inbox with
  | .ok (m, rest) => serve { C with inbox := rest } m
  | .error (.err .timeout) => (P, C)
  | .error _ => (P, C.close)

/-- What a connection does next. -/
def turn (io : Io) (P : Peer) (C : Connection) : Peer × Connection :=
  match C.stage with
  | .greeting => read P C fun C m => (P, C.greet m)
  | .serving => read P C (handle E P)
  | .working task request => continueTask E io P C request task
  | .submitting transactions => continueSubmitting E P C transactions
  | .closed => (P, C)

/-- The connection is at a place where it waits for the other side. -/
def waits (C : Connection) : Bool :=
  match C.stage with
  | .greeting | .serving | .working (.importing [] _) _ => true
  | _ => false

end Calls

/-- A connection starts; bytes arrive on one; it does what it does next; it runs into the timeout
    or an error of the socket; or the node is called from elsewhere. -/
inductive Event where
  | connect (initiator : Bool)
  | arrive (i : Nat) (bytes : List UInt8)
  | go (io : Io) (i : Nat)
  | fail (i : Nat)
  | call (c : Node.Call)

def next (E : Env) (H : Hub) : Event → Hub
  | .connect initiator => H.connect initiator
  | .arrive i bytes =>
    match H.connections[i]? with
    | some C => H.put i { C with inbox := C.inbox ++ bytes }
    | none => H
  | .go io i =>
    match H.connections[i]? with
    | some C => { H with
        peer := (turn E io H.peer C).1, connections := H.connections.set i (turn E io H.peer C).2 }
    | none => H
  | .fail i =>
    match H.connections[i]? with
    | some C => if waits C then H.put i C.close else H
    | none => H
  | .call c => { H with peer := H.peer.next E (.call c) }

/-! ## 3. What the peer is given -/

/-- The event a message is for the peer. Requests, the lists of transactions and the greetings are
    none; the transactions come one by one. -/
def input : NetworkMessage → Option Peer.Event
  | .blocks blocks => some (.blocks blocks)
  | .vote v => some (.vote v)
  | .transaction t => some (.call (.submitTransaction t))
  | _ => none

/-- What the connection's next turn gives to the peer: a message it reads in its loop, or the next
    transaction of a list. -/
def given (C : Connection) : Option Peer.Event :=
  match C.stage with
  | .serving =>
    match readMessage C.inbox with
    | .ok (m, _) => input m
    | .error _ => none
  | .submitting (t :: _) => some (.call (.submitTransaction t))
  | _ => none

/-- What an event of the hub gives to the peer. -/
def inputs (H : Hub) : Event → Option Peer.Event
  | .go _ i => H.connections[i]?.bind given
  | .call c => some (.call c)
  | _ => none

/-- Everything but a connection going on with its task. -/
def isInput : Peer.Event → Bool
  | .work .. => false
  | _ => true

/-- The storage calls of the event do not fail, and votes come to the node by connections only. -/
def Event.Calm : Event → Prop
  | .go io _ => io.fault = none
  | .call c => c.fault = none ∧ ∀ io S, c ≠ .finalizeVotes io S
  | _ => True

/-- What the connections are in the middle of. -/
def tasks (H : Hub) : List Task := H.connections.filterMap (·.stage.task)

/-- The peer with its connections' tasks. -/
structure Mirrors (H : Hub) (P : Peer) : Prop where
  same : P = { H.peer with tasks := P.tasks }
  tasks : P.tasks.Perm H.tasks

/-! ## 4. Tasks -/

theorem filterMap_cons_toList {α β : Type} (f : α → Option β) (a : α) (l : List α) :
    (a :: l).filterMap f = (f a).toList ++ l.filterMap f := by
  rw [List.filterMap_cons]
  cases f a <;> rfl

/-- One entry is replaced. -/
theorem filterMap_set_perm {α β : Type} {f : α → Option β} {l : List α} {i : Nat} {a b : α}
    (h : l[i]? = some a) :
    ((l.set i b).filterMap f ++ (f a).toList).Perm (l.filterMap f ++ (f b).toList) := by
  induction l generalizing i with
  | nil => cases h
  | cons c l ih =>
    cases i with
    | zero =>
      cases h
      show ((b :: l).filterMap f ++ _).Perm _
      rw [filterMap_cons_toList, filterMap_cons_toList]
      refine List.perm_append_comm.trans ?_
      rw [List.append_assoc]
      exact List.perm_append_comm.append_left _
    | succ i =>
      show ((c :: l.set i b).filterMap f ++ _).Perm _
      rw [filterMap_cons_toList, filterMap_cons_toList, List.append_assoc, List.append_assoc]
      exact (ih h).append_left _

theorem task_send {C : Connection} (h : C.stage.task = none) (ms : List NetworkMessage) :
    (C.send ms).stage.task = none := by
  induction ms generalizing C with
  | nil => exact h
  | cons m ms ih =>
    unfold Connection.send
    split
    · exact ih h
    · rfl

theorem task_greet {C : Connection} (m : NetworkMessage) : (C.greet m).stage.task = none := by
  unfold Connection.greet
  split
  · exact task_send rfl _
  · rfl

/-! ## 5. One turn -/

variable {E : Env} {P P' : Peer} {C C' : Connection} {io : Io} {H : Hub}

/-- A turn of one connection, as at most one event of a peer that has these tasks. -/
def Turns (E : Env) (io : Io) (P P' : Peer) (C C' : Connection) (given : Option Peer.Event) :
    Prop :=
  ∀ ts : List Task, (∀ t, C.stage.task = some t → t ∈ ts) →
    ∃ (l : List Peer.Event) (ts' : List Task),
      runs (Peer.next E) { P with tasks := ts } l = { P' with tasks := ts' } ∧
      (ts' ++ C.stage.task.toList).Perm (ts ++ C'.stage.task.toList) ∧
      l.filter isInput = given.toList ∧ (io.fault = none → ∀ e ∈ l, e.Calm)

/-- Nothing happens to the peer. -/
theorem Turns.quiet (h : C'.stage.task = C.stage.task) : Turns E io P P C C' none := by
  intro ts _
  refine ⟨[], ts, rfl, ?_, rfl, fun _ e he => by cases he⟩
  rw [h]

/-- The peer is given a message by a connection without a task. -/
theorem Turns.of_next {e : Peer.Event} (hin : isInput e = true) (hcalm : e.Calm)
    (hC : C.stage.task = none)
    (h : ∀ ts, Peer.next E { P with tasks := ts } e =
      { P' with tasks := ts ++ C'.stage.task.toList }) : Turns E io P P' C C' (some e) := by
  intro ts _
  refine ⟨[e], ts ++ C'.stage.task.toList, h ts, ?_, ?_, fun _ x hx => ?_⟩
  · rw [hC]
    show (_ ++ []).Perm _
    rw [List.append_nil]
  · rw [List.filter_cons_of_pos hin]
    rfl
  · rw [List.mem_singleton.mp hx]
    exact hcalm

/-- A connection goes on with its task, which the peer has somewhere in its list. -/
theorem Turns.of_work {task : Task} (hC : C.stage.task = some task)
    (h : ∀ ts j, ts[j]? = some task →
      ∃ ts', Peer.next E { P with tasks := ts } (.work io j) = { P' with tasks := ts' } ∧
        (ts' ++ [task]).Perm (ts ++ C'.stage.task.toList)) : Turns E io P P' C C' none := by
  intro ts hts
  obtain ⟨j, hj⟩ := List.mem_iff_getElem?.mp (hts task hC)
  obtain ⟨ts', hnext, hperm⟩ := h ts j hj
  refine ⟨[.work io j], ts', hnext, ?_, rfl, fun hio x hx => ?_⟩
  · rw [hC]
    exact hperm
  · rw [List.mem_singleton.mp hx]
    exact hio

theorem eraseIdx_perm {ts : List Task} {j : Nat} {task : Task} (h : ts[j]? = some task) :
    (ts.eraseIdx j ++ [task]).Perm ts := by
  obtain ⟨hlt, rfl⟩ := List.getElem?_eq_some_iff.mp h
  exact List.perm_append_comm.trans (List.getElem_cons_eraseIdx_perm hlt)

theorem set_perm {ts : List Task} {j : Nat} {task task' : Task} (h : ts[j]? = some task) :
    (ts.set j task' ++ [task]).Perm (ts ++ [task']) := by
  obtain ⟨hlt, -⟩ := List.getElem?_eq_some_iff.mp h
  have hset := List.set_perm_cons_eraseIdx hlt task'
  refine (hset.append_right _).trans ?_
  refine ((eraseIdx_perm h).cons task').trans ?_
  have hcomm : ([task'] ++ ts).Perm (ts ++ [task']) := List.perm_append_comm
  exact hcomm

/-- The node's calls do not see the tasks. -/
theorem call_tasks (c : Node.Call) (ts : List Task) :
    Peer.next E { P with tasks := ts } (.call c) = { P.next E (.call c) with tasks := ts } := by
  unfold Peer.next
  dsimp only
  split <;> rfl

theorem importBlock_tasks (b : Block) (ts : List Task) :
    Peer.importBlock E { P with tasks := ts } io b =
      ⟨(P.importBlock E io b).result, { (P.importBlock E io b).state with tasks := ts }⟩ := by
  unfold Peer.importBlock
  dsimp only
  split <;> rfl

theorem finalize_tasks (S : VoteSet) (ts : List Task) :
    Peer.finalize E { P with tasks := ts } io S =
      ⟨(P.finalize E io S).result, { (P.finalize E io S).state with tasks := ts }⟩ := by
  have hlock : Peer.lock { P with tasks := ts } = P.lock := rfl
  unfold Peer.finalize
  rw [hlock]
  cases P.lock <;> rfl

theorem recordVote_tasks (v : Vote) (ts : List Task) :
    Peer.recordVote E { P with tasks := ts } v =
      ⟨(P.recordVote E v).result, { (P.recordVote E v).state with tasks := ts }⟩ := by
  have hlock : Peer.lock { P with tasks := ts } = P.lock := rfl
  unfold Peer.recordVote
  rw [hlock]
  cases P.lock with
  | error e => rfl
  | ok u =>
    have hset : Peer.setFor { P with tasks := ts } v = P.setFor v := rfl
    rw [Applied.attempt_ok, Applied.attempt_ok, hset]
    rcases (P.setFor v).record E.crypto P.node.validatorSet v with (_ | _) | ⟨_, S⟩ <;> rfl

theorem submit_calm (t : Transaction) : (Peer.Event.call (.submitTransaction t)).Calm :=
  ⟨rfl, fun io S h => by cases h⟩

/-- A transaction goes to the node, and the connection has no task before or after. -/
theorem turns_submit (t : Transaction) (hC : C.stage.task = none) (hC' : C'.stage.task = none) :
    Turns E io P (submit E P t) C C' (some (.call (.submitTransaction t))) := by
  refine .of_next rfl (submit_calm t) hC fun ts => ?_
  rw [hC', call_tasks]
  show _ = { P.next E (.call (.submitTransaction t)) with tasks := ts ++ [] }
  rw [List.append_nil]

/-- **A message of the loop.** -/
theorem turns_handle (m : NetworkMessage) (hC : C.stage.task = none) :
    Turns E io P (handle E P C m).1 C (handle E P C m).2 (input m) := by
  have hclose : C.close.stage.task = C.stage.task := hC.symm
  cases m with
  | hello chainId genesisHash height nodeId => exact .quiet rfl
  | getBlocks first last =>
    unfold handle
    dsimp only
    cases collect P first last with
    | error e => exact .quiet hclose
    | ok blocks => exact .quiet ((task_send hC _).trans hC.symm)
  | blocks blocks =>
    have hvotes : ∀ ts, Peer.signVotes E { P with tasks := ts } blocks = P.signVotes E blocks :=
      fun ts => rfl
    refine .of_next rfl trivial hC fun ts => ?_
    show Peer.serveBlocks E { P with tasks := ts } blocks = _
    unfold Peer.serveBlocks handle
    rw [hvotes ts]
    dsimp only
    cases P.signVotes E blocks with
    | error e =>
      show _ = { P with tasks := ts ++ [] }
      rw [List.append_nil]
    | ok votes => rfl
  | getMempool =>
    unfold handle
    dsimp only
    cases P.lock with
    | error e => exact .quiet hclose
    | ok u => exact .quiet ((task_send hC _).trans hC.symm)
  | transactions ts => exact .quiet hC.symm
  | transaction t =>
    unfold handle
    dsimp only
    split
    · exact turns_submit t hC hC
    · exact turns_submit t hC rfl
  | vote v =>
    refine .of_next rfl trivial hC fun ts => ?_
    show Peer.serveVote E { P with tasks := ts } v = _
    unfold Peer.serveVote handle
    rw [recordVote_tasks]
    dsimp only
    rcases hr : (P.recordVote E v).result with e | _ | S
    · show _ = { (P.recordVote E v).state with tasks := ts ++ [] }
      rw [List.append_nil]
    · show _ = { (P.recordVote E v).state with tasks := ts ++ C.stage.task.toList }
      rw [hC]
      show _ = { (P.recordVote E v).state with tasks := ts ++ [] }
      rw [List.append_nil]
    · rfl

/-- A connection that has imported its last block is done, or ends. -/
theorem work_importing {ts : List Task} {j : Nat} {votes : List Vote}
    (hj : ts[j]? = some (.importing [] votes)) :
    Peer.next E { P with tasks := ts } (.work io j) = { P with tasks := ts.eraseIdx j } := by
  show Peer.work E { P with tasks := ts } io j = _
  unfold Peer.work
  rw [hj]
  rfl

theorem work_imported {ts : List Task} {j : Nat} {b : Block} {rest : List Block}
    {votes : List Vote} {u : Unit} (hj : ts[j]? = some (.importing (b :: rest) votes))
    (h : (P.importBlock E io b).result = .ok u) :
    Peer.next E { P with tasks := ts } (.work io j) =
      { (P.importBlock E io b).state with tasks := ts.set j (.importing rest votes) } := by
  show Peer.work E { P with tasks := ts } io j = _
  unfold Peer.work
  rw [hj]
  dsimp only
  rw [importBlock_tasks, h]

theorem work_refused {ts : List Task} {j : Nat} {b : Block} {rest : List Block}
    {votes : List Vote} {e : Fault NetworkError}
    (hj : ts[j]? = some (.importing (b :: rest) votes))
    (h : (P.importBlock E io b).result = .error e) :
    Peer.next E { P with tasks := ts } (.work io j) =
      { (P.importBlock E io b).state with tasks := ts.eraseIdx j } := by
  show Peer.work E { P with tasks := ts } io j = _
  unfold Peer.work
  rw [hj]
  dsimp only
  rw [importBlock_tasks, h]
  rfl

/-- The task is dropped. -/
theorem erased_perm {ts : List Task} {j : Nat} {task : Task} (hj : ts[j]? = some task)
    (hC' : C'.stage.task = none) : (ts.eraseIdx j ++ [task]).Perm (ts ++ C'.stage.task.toList) := by
  rw [hC']
  show (_ ++ [_]).Perm (ts ++ [])
  rw [List.append_nil]
  exact eraseIdx_perm hj

/-- **A connection in the middle of a task.** -/
theorem turns_continueTask (task : Task) (request : Option (U64 × U64))
    (hC : C.stage.task = some task) :
    Turns E io P (continueTask E io P C request task).1 C
      (continueTask E io P C request task).2 none := by
  refine .of_work hC fun ts j hj => ?_
  cases task with
  | importing blocks votes =>
    cases blocks with
    | nil => exact ⟨ts.eraseIdx j, work_importing hj, erased_perm hj (task_send rfl _)⟩
    | cons b rest =>
      unfold continueTask
      dsimp only
      cases hr : (P.importBlock E io b).result with
      | ok u => exact ⟨ts.set j (.importing rest votes), work_imported hj hr, set_perm hj⟩
      | error e => exact ⟨ts.eraseIdx j, work_refused hj hr, erased_perm hj rfl⟩
  | finalizing S =>
    have hnone : (continueTask E io P C request (.finalizing S)).2.stage.task = none := by
      unfold continueTask
      dsimp only
      split <;> rfl
    have hstate : (continueTask E io P C request (.finalizing S)).1 =
        (P.finalize E io S).state := by
      unfold continueTask
      dsimp only
      split <;> rfl
    refine ⟨ts.eraseIdx j, ?_, erased_perm hj hnone⟩
    show Peer.work E { P with tasks := ts } io j = _
    unfold Peer.work
    rw [hj, hstate]
    show (Peer.finalize E { P with tasks := ts } io S).state.drop j = _
    rw [finalize_tasks]
    rfl

/-- A connection without a task reads, and the peer is given what `serve` makes of the message. -/
theorem turns_read (io : Io) (serve : Connection → NetworkMessage → Peer × Connection)
    (given : NetworkMessage → Option Peer.Event)
    (hserve : ∀ m rest, Turns E io P (serve { C with inbox := rest } m).1 C
      (serve { C with inbox := rest } m).2 (given m)) (hC : C.stage.task = none) :
    Turns E io P (read P C serve).1 C (read P C serve).2
      (match readMessage C.inbox with
        | .ok (m, _) => given m
        | .error _ => none) := by
  unfold read
  cases readMessage C.inbox with
  | ok r => exact hserve r.1 r.2
  | error e =>
    dsimp only
    split
    · rename_i heq
      cases heq
    · exact .quiet rfl
    · exact .quiet hC.symm

/-- **One turn of a connection** is at most one event of the peer. -/
theorem turns_turn (C : Connection) :
    Turns E io P (turn E io P C).1 C (turn E io P C).2 (given C) := by
  obtain ⟨initiator, hello, inbox, written, stage⟩ := C
  cases stage with
  | greeting =>
    have hread := turns_read (E := E) (P := P) (C := ⟨initiator, hello, inbox, written, .greeting⟩)
      io (fun C m => (P, C.greet m)) (fun _ => none) (fun m rest => .quiet (task_greet m)) rfl
    cases hr : readMessage inbox with
    | ok r => rwa [hr] at hread
    | error e => rwa [hr] at hread
  | serving =>
    refine turns_read (C := ⟨initiator, hello, inbox, written, .serving⟩) io (handle E P) input
      (fun m rest => ?_) rfl
    exact turns_handle (C := ⟨initiator, hello, rest, written, .serving⟩) m rfl
  | working task request => exact turns_continueTask task request rfl
  | submitting ts =>
    cases ts with
    | nil => exact .quiet rfl
    | cons t rest =>
      show Turns E io P (continueSubmitting E P _ (t :: rest)).1 _
        (continueSubmitting E P _ (t :: rest)).2 (some _)
      unfold continueSubmitting
      dsimp only
      split
      · refine turns_submit t ?_ ?_ <;> rfl
      · refine turns_submit t ?_ ?_ <;> rfl
  | closed => exact .quiet rfl

/-- A connection that waits for the other side may end. -/
theorem turns_fail (hw : waits C = true) : Turns E io P P C C.close none := by
  obtain ⟨initiator, hello, inbox, written, stage⟩ := C
  cases stage with
  | greeting => exact .quiet rfl
  | serving => exact .quiet rfl
  | submitting ts => cases hw
  | closed => cases hw
  | working task request =>
    cases task with
    | finalizing S => cases hw
    | importing blocks votes =>
      cases blocks with
      | cons b rest => cases hw
      | nil =>
        have hC : (Stage.working (.importing [] votes) request).task =
            some (.importing [] votes) := rfl
        refine .of_work hC fun ts j hj => ?_
        exact ⟨ts.eraseIdx j, work_importing hj, erased_perm hj rfl⟩

/-! ## 6. Runs -/

theorem Mirrors.of_start {P : Peer} (hP : P.tasks = []) (chainId nodeId : String) :
    Mirrors ⟨P, chainId, nodeId, []⟩ P := by
  refine ⟨rfl, ?_⟩
  rw [hP]
  exact List.Perm.refl []

/-- What happens to one connection happens to the hub. -/
theorem mirrors_turns (io : Io) (h : Mirrors H P) {i : Nat} (hi : H.connections[i]? = some C)
    {given : Option Peer.Event} (ht : Turns E io H.peer P' C C' given) :
    ∃ l, Mirrors { H with peer := P', connections := H.connections.set i C' }
        (runs (Peer.next E) P l) ∧
      l.filter isInput = given.toList ∧ (io.fault = none → ∀ e ∈ l, e.Calm) := by
  have hmem : ∀ t, C.stage.task = some t → t ∈ P.tasks := fun t hC =>
    h.tasks.mem_iff.mpr (List.mem_filterMap.mpr ⟨C, List.mem_of_getElem? hi, hC⟩)
  obtain ⟨l, ts', hrun, hperm, hinput, hcalm⟩ := ht P.tasks hmem
  rw [← h.same] at hrun
  refine ⟨l, ?_, hinput, hcalm⟩
  rw [hrun]
  have hset := filterMap_set_perm (f := fun C : Connection => C.stage.task) (b := C') hi
  have hall := hperm.trans ((h.tasks.append_right _).trans hset.symm)
  exact ⟨rfl, (List.perm_append_right_iff _).mp hall⟩

theorem next_arrive {i : Nat} (hi : H.connections[i]? = some C) (bytes : List UInt8) :
    H.next E (.arrive i bytes) = H.put i { C with inbox := C.inbox ++ bytes } := by
  unfold next
  dsimp only
  rw [hi]

theorem next_go {i : Nat} (hi : H.connections[i]? = some C) (io : Io) :
    H.next E (.go io i) = { H with
      peer := (turn E io H.peer C).1
      connections := H.connections.set i (turn E io H.peer C).2 } := by
  unfold next
  dsimp only
  rw [hi]

theorem next_fail {i : Nat} (hi : H.connections[i]? = some C) :
    H.next E (.fail i) = if waits C then H.put i C.close else H := by
  unfold next
  dsimp only
  rw [hi]

/-- Without the connection, nothing happens to it. -/
theorem next_absent {i : Nat} (hi : H.connections[i]? = none) :
    (∀ bytes, H.next E (.arrive i bytes) = H) ∧ (∀ io, H.next E (.go io i) = H) ∧
      H.next E (.fail i) = H := by
  unfold next
  dsimp only
  rw [hi]
  exact ⟨fun _ => rfl, fun _ => rfl, rfl⟩

/-- **One event of the hub is at most one event of the peer**, and what is read is what the peer is
    given. -/
theorem mirrors_step (h : Mirrors H P) (e : Event) :
    ∃ l, Mirrors (H.next E e) (runs (Peer.next E) P l) ∧
      l.filter isInput = (inputs H e).toList ∧ (e.Calm → ∀ x ∈ l, x.Calm) := by
  have hquiet : Mirrors H P → ∃ l, Mirrors H (runs (Peer.next E) P l) ∧
      l.filter isInput = [] ∧ (e.Calm → ∀ x ∈ l, x.Calm) :=
    fun hm => ⟨[], hm, rfl, fun _ x hx => by cases hx⟩
  cases e with
  | connect initiator =>
    refine ⟨[], ?_, rfl, fun _ x hx => by cases hx⟩
    show Mirrors (H.connect initiator) P
    unfold connect
    cases H.localHello with
    | error e => exact h
    | ok hello =>
      refine ⟨h.same, h.tasks.trans ?_⟩
      show H.tasks.Perm ((H.connections ++ [_]).filterMap _)
      have hnone : (if initiator then Connection.send ⟨initiator, hello, [], [], .greeting⟩
          [hello.message] else ⟨initiator, hello, [], [], .greeting⟩).stage.task = none := by
        split
        · exact task_send rfl _
        · rfl
      simp only [List.filterMap_append, List.filterMap_cons, hnone, List.filterMap_nil,
        List.append_nil]
      exact List.Perm.refl _
  | arrive i bytes =>
    cases hi : H.connections[i]? with
    | none =>
      rw [(next_absent hi).1 bytes]
      exact hquiet h
    | some C =>
      rw [next_arrive hi]
      have hsame : Turns E ⟨0, none⟩ H.peer H.peer C { C with inbox := C.inbox ++ bytes } none :=
        .quiet rfl
      obtain ⟨l, hl, hinput, hcalm⟩ := mirrors_turns ⟨0, none⟩ h hi hsame
      exact ⟨l, hl, hinput, fun _ => hcalm rfl⟩
  | fail i =>
    cases hi : H.connections[i]? with
    | none =>
      rw [(next_absent hi).2.2]
      exact hquiet h
    | some C =>
      rw [next_fail hi]
      cases hw : waits C with
      | false => exact hquiet h
      | true =>
        obtain ⟨l, hl, hinput, hcalm⟩ := mirrors_turns (E := E) ⟨0, none⟩ h hi (turns_fail hw)
        exact ⟨l, hl, hinput, fun _ => hcalm rfl⟩
  | call c =>
    have hnext : P.next E (.call c) = { H.peer.next E (.call c) with tasks := P.tasks } := by
      rw [← call_tasks, ← h.same]
    refine ⟨[.call c], ⟨?_, ?_⟩, rfl, fun hcalm x hx => ?_⟩
    · show P.next E (.call c) = { H.peer.next E (.call c) with
        tasks := (P.next E (.call c)).tasks }
      rw [hnext]
    · show (P.next E (.call c)).tasks.Perm H.tasks
      rw [hnext]
      exact h.tasks
    · rw [List.mem_singleton.mp hx]
      exact hcalm
  | go io i =>
    have hgiven : inputs H (.go io i) = H.connections[i]?.bind given := rfl
    rw [hgiven]
    cases hi : H.connections[i]? with
    | none =>
      rw [(next_absent hi).2.1 io]
      exact hquiet h
    | some C =>
      rw [next_go hi]
      exact mirrors_turns io h hi (turns_turn C)

/-- **Along a run**, event for event. -/
theorem mirrors_runs (h : Mirrors H P) (events : List Event) :
    ∃ l, Mirrors (runs (next E) H events) (runs (Peer.next E) P l) ∧
      l.filter isInput = emitted (next E) inputs H events ∧
      ((∀ e ∈ events, e.Calm) → ∀ x ∈ l, x.Calm) := by
  induction events generalizing H P with
  | nil => exact ⟨[], h, rfl, fun _ x hx => by cases hx⟩
  | cons e events ih =>
    obtain ⟨first, hfirst, hinput, hcalm⟩ := mirrors_step (E := E) h e
    obtain ⟨rest, hrest, hinputs, hcalms⟩ := ih hfirst
    refine ⟨first ++ rest, ?_, ?_, fun hall x hx => ?_⟩
    · rw [runs_append]
      exact hrest
    · rw [List.filter_append, hinput, hinputs]
      rfl
    · rcases List.mem_append.mp hx with hx | hx
      · exact hcalm (hall e List.mem_cons_self) x hx
      · exact hcalms (fun e he => hall e (List.mem_cons_of_mem _ he)) x hx

/-- A lock that is poisoned stays so. -/
theorem poisoned_next (h : P.poisoned = true) (e : Peer.Event) :
    (P.next E e).poisoned = true := by
  have hlock : P.lock = .error (.err .nodeLockPoisoned) := rejectIf_pos h
  cases e with
  | blocks blocks =>
    show (P.serveBlocks E blocks).poisoned = true
    unfold Peer.serveBlocks
    split <;> exact h
  | vote v =>
    show (P.serveVote E v).poisoned = true
    unfold Peer.serveVote Peer.recordVote
    rw [hlock]
    exact h
  | work io i =>
    show (P.work E io i).poisoned = true
    unfold Peer.work
    split
    · rename_i b rest votes _
      have himport : P.importBlock E io b = ⟨.ok (), P⟩ := if_pos h
      rw [himport]
      exact h
    · exact h
    · rename_i S _
      unfold Peer.finalize
      rw [hlock]
      exact h
    · exact h
  | call c =>
    show (if P.poisoned then P else _).poisoned = true
    rw [if_pos h]
    exact h

theorem poisoned_runs (h : P.poisoned = true) (l : List Peer.Event) :
    (runs (Peer.next E) P l).poisoned = true := by
  induction l generalizing P with
  | nil => exact h
  | cons e l ih => exact ih (poisoned_next h e)

/-- A peer whose lock is still good has served all the while. -/
theorem lives_of_runs {genesis : GenesisConfig} (h : P.Lives E genesis) {l : List Peer.Event}
    (hcalm : ∀ e ∈ l, e.Calm) (hlast : (runs (Peer.next E) P l).poisoned = false) :
    Peer.Lives E genesis (runs (Peer.next E) P l) := by
  induction l generalizing P with
  | nil => exact h
  | cons e l ih =>
    cases hp : P.poisoned with
    | true =>
      rw [poisoned_runs hp (e :: l)] at hlast
      cases hlast
    | false =>
      exact ih (h.next hp (hcalm e List.mem_cons_self))
        (fun x hx => hcalm x (List.mem_cons_of_mem _ hx)) hlast

/-- The hub of a node that starts to serve. -/
def started (n : Node) (validator : Option KeyPair) (chainId nodeId : String) : Hub :=
  ⟨⟨n, false, fun _ => none, validator, []⟩, chainId, nodeId, []⟩

theorem Mirrors.node {H : Hub} {P : Peer} (h : Mirrors H P) : P.node = H.peer.node := by
  have hnode := congrArg Peer.node h.same
  exact hnode

/-- **Sessions refine the peer.** Whatever connections a node takes up, whatever bytes arrive on
    them in whatever pieces, in whatever order they take turns and whichever of them end: the node,
    its lock and its vote sets are those of a peer that was given, one by one and in this order,
    the blocks, votes and transactions the connections have read and the calls from elsewhere, and
    whose tasks are what the connections are in the middle of. While storage works and nothing
    panics, it is a peer that has served. -/
theorem sessions_refine {genesis : GenesisConfig} {n : Node} (hn : Node.Lives E genesis n)
    (validator : Option KeyPair) (chainId nodeId : String) (events : List Event) :
    ∃ l : List Peer.Event,
      Mirrors (runs (next E) (started n validator chainId nodeId) events)
        (runs (Peer.next E) (started n validator chainId nodeId).peer l) ∧
      l.filter isInput = emitted (next E) inputs (started n validator chainId nodeId) events ∧
      ((∀ e ∈ events, e.Calm) →
        (runs (next E) (started n validator chainId nodeId) events).peer.poisoned = false →
          Peer.Lives E genesis
            (runs (Peer.next E) (started n validator chainId nodeId).peer l)) := by
  obtain ⟨l, hmirrors, hinputs, hcalm⟩ := mirrors_runs (E := E)
    (Mirrors.of_start (P := ⟨n, false, fun _ => none, validator, []⟩) rfl chainId nodeId) events
  refine ⟨l, hmirrors, hinputs, fun hall hlock => ?_⟩
  refine lives_of_runs (.started hn validator) (hcalm hall) ?_
  have hsame := congrArg Peer.poisoned hmirrors.same
  exact hsame.trans hlock

end Hub

/-! ## 7. A transaction on a connection -/

namespace Sample

def frame (m : NetworkMessage) : List UInt8 :=
  Unsigned.beBytes 4 (canonicalEncode m).length ++ canonicalEncode m

/-- Another node of the chain greets. -/
def greeting : NetworkMessage :=
  .hello chainId (Env.standIn.crypto.blockHeaderId freshNode.latestBlock.header) 0 "other"

/-- A transfer it has heard of. -/
def heardTransfer : NetworkMessage := .transaction (transfer 0 otherAddress 10 1)

/-- It connects and sends both, the second frame in two pieces; then the node makes a block. -/
def sessionEvents : List Hub.Event :=
  [.connect false, .arrive 0 (frame greeting), .go ⟨2, none⟩ 0,
    .arrive 0 ((frame heardTransfer).take 10), .go ⟨2, none⟩ 0,
    .arrive 0 ((frame heardTransfer).drop 10), .go ⟨2, none⟩ 0,
    .call (.produceBlock ⟨2, none⟩ none)]

end Sample

namespace Hub

/-- A transaction that is read in two pieces, and a block with it. -/
theorem sessions_refine_transfer :
    ∃ l : List Peer.Event,
      Mirrors
        (runs (next .standIn) (started Sample.freshNode none Sample.chainId "node")
          Sample.sessionEvents)
        (runs (Peer.next .standIn) (started Sample.freshNode none Sample.chainId "node").peer l) ∧
      l.filter isInput = emitted (next .standIn) inputs
        (started Sample.freshNode none Sample.chainId "node") Sample.sessionEvents ∧
      (runs (Peer.next .standIn) (started Sample.freshNode none Sample.chainId "node").peer
        l).node.latestBlock.transactions = [Sample.transfer 0 Sample.otherAddress 10 1] := by
  have hopen : Node.openDir .standIn (Sample.genesis 1).chainId (Sample.genesis 1) .empty
      ⟨0, none⟩ = ⟨.ok Sample.freshNode, Sample.freshNode.store⟩ :=
    Node.openDir_fresh (Sample.fromGenesis_genesis 1) rfl
  have hread : (runs (next .standIn) (started Sample.freshNode none Sample.chainId "node")
      Sample.sessionEvents).peer.node.latestBlock.transactions =
        [Sample.transfer 0 Sample.otherAddress 10 1] := by
    decide +kernel
  obtain ⟨l, hmirrors, hinputs, -⟩ := sessions_refine (.opened ⟨0, none⟩ hopen) none
    Sample.chainId "node" Sample.sessionEvents
  refine ⟨l, hmirrors, hinputs, ?_⟩
  rw [hmirrors.node]
  exact hread

end Hub

end WorldstreetChain
