import WorldstreetChain.Node.Backed
import WorldstreetChain.Relayer.Iteration

/-!
# The relayer and the node

The relayer keeps its table in a database and the node keeps its queues in memory. A call of the
relayer may not reach the node, and its answer may be lost. A cycle goes row by row; between two
rows the node can be called by others, make blocks and be restarted, and so can the relayer.

* `Relayer.Passage`, `Relayer.link` -- how a call of the relayer goes, and the node as the relayer
  reaches it.
* `Relayer.System.next` -- the two as a machine.
* `Relayer.turns_process` -- **the turns of a cycle are `process_operations`**.
-/

namespace WorldstreetChain

namespace Relayer

/-! ## 1. The link -/

/-- How a call of the relayer goes. -/
structure Passage where
  now : Nat
  oracle : Outcome RelayerError OracleAnswer
  /-- Whether a call over RPC reaches the node. -/
  reaches : Bool
  /-- What the relayer meets in place of an answer. -/
  lost : Option (Fault RelayerError)
  /-- What comes of a release. -/
  command : Command → Outcome RelayerError Unit

/-- An answer with an error, and none at all, raise in `rpc`. -/
def heard {α : Type} : Outcome Rpc.RpcError α → Outcome RelayerError α
  | .ok a => .ok a
  | .error _ => .error (.err .runtime)

def Passage.carry {α : Type} (p : Passage) (n : Node) (called : Applied Rpc.RpcError Node α) :
    Applied RelayerError Node α :=
  if p.reaches then ⟨p.lost.elim (heard called.result) .error, called.state⟩
  else ⟨.error (p.lost.getD (.err .runtime)), n⟩

/-- The node over RPC. -/
def link (E : Env) (ctx : Rpc.Context) (p : Passage) : Outside Node where
  now _ := p.now
  oracle n := ⟨p.oracle, n⟩
  bridgeMint q n := (p.carry n (Rpc.bridgeAssetOperation ctx n .mint q)).map fun _ => ()
  mnaReserveMint q n := (p.carry n (Rpc.mnaReserve E ctx n "mna_reserve_mint" q)).map fun _ => ()
  bridgeOperationStatus id n := p.carry n ⟨Rpc.bridgeOperationStatus n id, n⟩
  execute c n := ⟨p.command c, n⟩

/-! ## 2. The machine -/

/-- Where the relayer is in a cycle, with the rows that are still to come. -/
inductive Phase where
  | idle
  | processing (rest : List Row)
  | settling (rest : List Row)
  deriving DecidableEq

structure System where
  db : Db
  node : Node
  phase : Phase

/-- The polls of an iteration, the next step of the cycle behind them, a restart of the relayer, a
    call of the node by others, and a restart of the node. -/
inductive SystemEvent where
  | poll (a : Answers) (now : Nat)
  | turn (p : Passage)
  | restart
  | call (c : Node.Call)
  | reopen (io : Io)

/-- What a turn leaves; a relayer that dies in it starts again. -/
def took (out : Applied RelayerError (Site Node) Unit) (phase : Phase) : System :=
  match out.result with
  | .ok _ => ⟨out.state.db, out.state.outside, phase⟩
  | .error _ => ⟨out.state.db.restart, out.state.outside, .idle⟩

namespace System

section Next

variable (E : Env) (ctx : Rpc.Context) (py : Python) (cfg : Settings)

def turn (s : System) (p : Passage) : System :=
  match s.phase with
  | .idle => s
  | .processing [] => { s with phase := .settling (submitted s.db.tables) }
  | .processing (r :: rest) =>
    took (processRow (link E ctx p) py cfg r ⟨s.db, s.node⟩) (.processing rest)
  | .settling [] => { s with phase := .idle }
  | .settling (r :: rest) => took (settleRow (link E ctx p) r ⟨s.db, s.node⟩) (.settling rest)

def poll (s : System) (a : Answers) (now : Nat) : System :=
  match s.phase with
  | .idle =>
    let polled := polled py cfg a s.db
    match polled.result with
    | .ok _ => { s with db := polled.state, phase := .processing (due now polled.state.tables) }
    | .error _ => { s with db := polled.state }
  | _ => s

def next (s : System) : SystemEvent → System
  | .poll a now => s.poll py cfg a now
  | .turn p => s.turn E ctx py cfg p
  | .restart => { s with db := s.db.restart, phase := .idle }
  | .call c => { s with node := s.node.next E c }
  | .reopen io => { s with node := s.node.reopened E io }

end Next

end System

/-! ## 3. Cycles -/

section Cycle

variable (E : Env) (ctx : Rpc.Context) (py : Python) (cfg : Settings) (p : Passage)

theorem took_ok {out : Applied RelayerError (Site Node) Unit} (h : out.result = .ok ())
    (phase : Phase) : took out phase = ⟨out.state.db, out.state.outside, phase⟩ := by
  unfold took
  rw [h]

theorem took_error {out : Applied RelayerError (Site Node) Unit} {e : Fault RelayerError}
    (h : out.result = .error e) (phase : Phase) :
    took out phase = ⟨out.state.db.restart, out.state.outside, .idle⟩ := by
  unfold took
  rw [h]

/-- The turns of a phase are its loop. -/
theorem turns_eachRow (f : Row → Site Node → Applied RelayerError (Site Node) Unit)
    (phase : List Row → Phase) (hturn : ∀ r rest d n, (⟨d, n, phase (r :: rest)⟩ : System).turn E ctx
      py cfg p = took (f r ⟨d, n⟩) (phase rest)) (rows : List Row) (d : Db) (n : Node) :
    runs (System.next E ctx py cfg) ⟨d, n, phase rows⟩ (List.replicate rows.length (.turn p)) =
      took (eachRow f rows ⟨d, n⟩) (phase []) := by
  have hidle : ∀ d n k, runs (System.next E ctx py cfg) ⟨d, n, .idle⟩
      (List.replicate k (.turn p)) = ⟨d, n, .idle⟩ := by
    intro d n k
    induction k with
    | zero => rfl
    | succ k ih => exact ih
  induction rows generalizing d n with
  | nil => rfl
  | cons r rows ih =>
    have hfirst : System.next E ctx py cfg ⟨d, n, phase (r :: rows)⟩ (.turn p) =
        took (f r ⟨d, n⟩) (phase rows) := hturn r rows d n
    rw [List.length_cons, List.replicate_succ, runs_cons, hfirst]
    cases hr : (f r ⟨d, n⟩).result with
    | ok u => rw [took_ok hr, ih, eachRow, Applied.andThen_of_ok hr]
    | error e =>
      rw [took_error hr, hidle, eachRow, Applied.andThen_of_error hr]
      rfl

/-- **The turns of a cycle are `process_operations`**, where nothing comes in between. -/
theorem turns_process (d : Db) (n : Node) : ∃ k, runs (System.next E ctx py cfg)
    ⟨d, n, .processing (due p.now d.tables)⟩ (List.replicate k (.turn p)) =
      took (processOperations (link E ctx p) py cfg ⟨d, n⟩) .idle := by
  have hfirst := turns_eachRow E ctx py cfg p (processRow (link E ctx p) py cfg) .processing
    (fun _ _ _ _ => rfl) (due p.now d.tables) d n
  unfold processOperations
  show ∃ k, _ = took (Applied.andThen (eachRow (processRow (link E ctx p) py cfg)
    (due p.now d.tables) ⟨d, n⟩) _) _
  cases hout : (eachRow (processRow (link E ctx p) py cfg) (due p.now d.tables) ⟨d, n⟩).result with
  | error e =>
    refine ⟨_, hfirst.trans ?_⟩
    rw [Applied.andThen_of_error hout, took_error hout]
    rfl
  | ok u =>
    rw [took_ok hout] at hfirst
    rw [Applied.andThen_of_ok hout]
    generalize eachRow (processRow (link E ctx p) py cfg) (due p.now d.tables) ⟨d, n⟩ = out at hfirst
    have hsecond := turns_eachRow E ctx py cfg p (settleRow (link E ctx p)) .settling
      (fun _ _ _ _ => rfl) (submitted out.state.db.tables) out.state.db out.state.outside
    refine ⟨(due p.now d.tables).length + (1 + ((submitted out.state.db.tables).length + 1)), ?_⟩
    rw [List.replicate_add, runs_append, hfirst, List.replicate_add, runs_append,
      List.replicate_add, runs_append]
    show System.next E ctx py cfg (runs (System.next E ctx py cfg) ⟨out.state.db, out.state.outside,
      .settling (submitted out.state.db.tables)⟩ _) (.turn p) = _
    rw [hsecond]
    cases hlast : (eachRow (settleRow (link E ctx p)) (submitted out.state.db.tables)
        ⟨out.state.db, out.state.outside⟩).result with
    | ok u =>
      rw [took_ok hlast, took_ok hlast]
      rfl
    | error e =>
      rw [took_error hlast, took_error hlast]
      rfl

end Cycle

end Relayer

end WorldstreetChain
