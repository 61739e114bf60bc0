import WorldstreetChain.Node.Queues
import WorldstreetChain.Relayer.System

/-!
# Rows that are submitted

A row is `mint_submitted` from the answer to its mint on. The operation waits in the node's memory
until a block takes it up, and the relayer does nothing about a row whose operation is gone; what
the node queues for a deposit of SOL is another operation than the one the row names.

* `Node.Holds` -- an operation that waits for a block that takes it up, or is processed.
* `Relayer.System.Named` -- every submitted row names an operation the node knows.
* `Relayer.no_row_stranded` -- **no row is stranded**, if the node loses no queue with the operation
  of a submitted row in it.
-/

namespace WorldstreetChain

open Std

/-! ## 1. What the node holds -/

namespace Node

variable {E : Env} {n n' : Node} {c : Call} {id : Hash}

/-- An operation under the id is processed, or waits and passes the field checks. -/
def Holds (n : Node) (id : Hash) : Prop :=
  id ∈ n.state.processedAssetOperations ∨
    ∃ o ∈ n.pendingAssetOperations, o.operationId = id ∧ State.checkAssetOperation o = .ok ()

theorem Holds.status (h : n.Holds id) : Rpc.statusOf n id ≠ .notFound := by
  unfold Rpc.statusOf
  split
  · nofun
  · rename_i hnew
    rcases h with h | ⟨o, ho, hid, -⟩
    · exact absurd h hnew
    · rw [if_pos (List.mem_map.mpr ⟨o, ho, hid⟩)]
      nofun

theorem processed_state (h : id ∈ n.state.processedAssetOperations) (c : Call) :
    id ∈ (n.next E c).state.processedAssetOperations :=
  next_state_rule (P := fun s => id ∈ s.processedAssetOperations)
    (fun _ op h => State.processed_next h op)
    (fun _ address amount h => State.processed_creditDevnet h address amount) n c h

/-- What is held stays so in a call that leaves the queue alone or adds to it. -/
theorem Holds.next_of_subset (h : n.Holds id)
    (hsub : n.pendingAssetOperations ⊆ (n.next E c).pendingAssetOperations) :
    (n.next E c).Holds id := by
  rcases h with h | ⟨o, ho, hid, hc⟩
  · exact Or.inl (processed_state h c)
  · exact Or.inr ⟨o, hsub ho, hid, hc⟩

/-- Only a production whose turn it is can lose what waits. -/
theorem pending_subset (n : Node) (c : Call) :
    n.pendingAssetOperations ⊆ (n.next E c).pendingAssetOperations ∨ ∃ io proposer,
      c = .produceBlock io proposer ∧
        ¬ proposer.any (fun key => !n.isExpectedProposer (E.crypto.publicKey key)) = true := by
  have hstep := queue_step (E := E) n c
  generalize n.next E c = n' at hstep
  cases hstep with
  | same _ _ h => exact Or.inl (by rw [h.asset]; exact List.Subset.refl _)
  | asset o => exact Or.inl (List.subset_append_left _ _)
  | reserve o id hvalid => exact Or.inl (List.Subset.refl _)
  | cleared io proposer _ hturn h => exact Or.inr ⟨io, proposer, rfl, hturn⟩

/-- The production commits its block. -/
def Completes (E : Env) (n : Node) (io : Io) (proposer : Option KeyPair) : Prop :=
  ∃ s b, Commits E n (.produceBlock io proposer) s b ∧ Reaches io.fault (commitWrites E s b)

/-- A production without a fault that moves the tip. -/
theorem completes_of_moved {io : Io} {proposer : Option KeyPair} (hrel : io.fault = none)
    (hmoved : (n.next E (.produceBlock io proposer)).latestBlock ≠ n.latestBlock) :
    Completes E n io proposer := by
  refine ⟨_, _, commits_of_moved hrel hmoved, fun k hk => ?_⟩
  rw [hrel] at hk
  cases hk

/-- A production that commits its block loses nothing. -/
theorem Holds.produce {io : Io} {proposer : Option KeyPair} (h : n.Holds id)
    (hcompletes : Completes E n io proposer) : (n.next E (.produceBlock io proposer)).Holds id := by
  rcases h with h | ⟨o, ho, rfl, hc⟩
  · exact Or.inl (processed_state h _)
  obtain ⟨s, b, hcommits, hreaches⟩ := hcompletes
  have hs := processed_pending hcommits ho hc
  refine Or.inl ?_
  have hstep := next_step (E := E) n (.produceBlock io proposer)
  generalize n.next E (.produceBlock io proposer) = n' at hstep
  cases hstep with
  | quiet _ _ hnone => exact absurd hcommits (hnone s b)
  | commit s' b' _ hcommits' _ hadopted =>
    rw [hadopted.state, (hcommits.unique hcommits').1]
    exact hs
  | cutOff s' b' k _ hcommits' hfault hk _ =>
    obtain ⟨rfl, rfl⟩ := hcommits.unique hcommits'
    have hlt := hreaches k hfault
    omega
  | finalize _ _ _ _ hcall => cases hcall

end Node

namespace Rpc

variable {ctx : Context} {n : Node} {p : BridgeOperationParams} {o : AssetOperation}
  {kind : AssetOperationKind}

/-- What the handler builds passes the field checks of the state. -/
theorem bridgeOperation_ok (h : bridgeOperation ctx kind p = .ok o) :
    parseHash p.operationId = .ok o.operationId ∧ State.checkAssetOperation o = .ok () := by
  unfold bridgeOperation at h
  obtain ⟨-, h⟩ := rejectIf_bind_eq_ok.mp h
  obtain ⟨id, hid, h⟩ := Outcome.bind_eq_ok.mp h
  obtain ⟨asset, hasset, h⟩ := Outcome.bind_eq_ok.mp h
  obtain ⟨address, -, h⟩ := Outcome.bind_eq_ok.mp h
  obtain ⟨amount, -, h⟩ := Outcome.bind_eq_ok.mp h
  obtain ⟨hamount, h⟩ := rejectIf_bind_eq_ok.mp h
  cases h
  refine ⟨hid, ?_⟩
  unfold parseAssetId at hasset
  obtain ⟨hname, hasset⟩ := rejectIf_bind_eq_ok.mp hasset
  obtain ⟨decimals, -, hasset⟩ := Outcome.bind_eq_ok.mp hasset
  cases hasset
  unfold State.checkAssetOperation
  simp only [not_or] at hname
  rw [rejectIf_neg (by simp), rejectIf_neg hamount, rejectIf_neg]
  · rfl
  · rintro (h | h)
    · exact hname.2.2.2 h
    · cases h

theorem bridgeAssetOperation_state (ctx : Context) (n : Node) (kind : AssetOperationKind)
    (p : BridgeOperationParams) : (bridgeAssetOperation ctx n kind p).state = n ∨
      ∃ o, bridgeOperation ctx kind p = .ok o ∧
        (bridgeAssetOperation ctx n kind p).state = (n.submitAssetOperation o).state := by
  unfold bridgeAssetOperation
  cases hbuild : bridgeOperation ctx kind p with
  | error e => exact Or.inl rfl
  | ok o =>
    refine Or.inr ⟨o, rfl, ?_⟩
    rw [Applied.attempt_ok]
    dsimp only
    cases (n.submitAssetOperation o).result.mapErr RpcError.node with
    | error e => rfl
    | ok id => rfl

theorem mnaReserve_state (E : Env) (ctx : Context) (n : Node) (method : String)
    (p : MnaReserveOperationParams) : (mnaReserve E ctx n method p).state = n ∨
      ∃ o, blankReserveOperation ctx method p = .ok o ∧ (mnaReserve E ctx n method p).state =
        (n.submitMnaReserveOperation E (fillId E.crypto o)).state := by
  unfold mnaReserve
  cases hbuild : blankReserveOperation ctx method p with
  | error e => exact Or.inl rfl
  | ok o =>
    refine Or.inr ⟨o, rfl, ?_⟩
    rw [Applied.attempt_ok]
    dsimp only
    cases (n.submitMnaReserveOperation E (fillId E.crypto o)).result.mapErr RpcError.node with
    | error e => rfl
    | ok id => rfl

/-- **What `bridge_mint` leaves**: nothing, or the operation at the end of the queue. -/
theorem bridgeAssetOperation_cases (ctx : Context) (n : Node) (kind : AssetOperationKind)
    (p : BridgeOperationParams) :
    (bridgeAssetOperation ctx n kind p).state = n ∧
        (∀ q, (bridgeAssetOperation ctx n kind p).result ≠ .ok q) ∨
      ∃ o, bridgeOperation ctx kind p = .ok o ∧ (bridgeAssetOperation ctx n kind p).state =
        { n with pendingAssetOperations := n.pendingAssetOperations ++ [o] } := by
  unfold bridgeAssetOperation
  cases hbuild : bridgeOperation ctx kind p with
  | error e => exact Or.inl ⟨rfl, nofun⟩
  | ok o =>
    rw [Applied.attempt_ok]
    rcases Node.submitAssetOperation_cases n o with ⟨hstate, e, hresult⟩ | ⟨hresult, hstate⟩
    · refine Or.inl ?_
      simp only [hstate, hresult]
      cases e <;> exact ⟨rfl, nofun⟩
    · refine Or.inr ⟨o, rfl, ?_⟩
      simp only [hstate, hresult]
      rfl

end Rpc

namespace Relayer

/-! ## 2. Submitted deposits -/

/-- A submitted deposit names an operation the node holds. -/
def Row.Known (n : Node) (r : Row) : Prop :=
  r.direction = "inbound" → r.status = "mint_submitted" →
    ∃ id, Rpc.parseHash r.operationId = .ok id ∧ n.Holds id

theorem Row.Known.mono {n n' : Node} {r : Row} (h : r.Known n)
    (hkept : ∀ id, n.Holds id → n'.Holds id) : r.Known n' := fun hdirection hstatus => by
  obtain ⟨id, hid, hn⟩ := h hdirection hstatus
  exact ⟨id, hid, hkept id hn⟩

theorem Row.known_of_status {n : Node} {r : Row} {status : String}
    (h : status ≠ "mint_submitted") : Row.Known n { r with status } :=
  fun _ hstatus => absurd hstatus h

namespace System

/-- Every submitted deposit names an operation that waits or is processed at the node. -/
def Named (s : System) : Prop :=
  ∀ r ∈ s.db.tables.operations, r.direction = "inbound" → r.status = "mint_submitted" →
    ∃ id, Rpc.parseHash r.operationId = .ok id ∧ Rpc.statusOf s.node id ≠ .notFound

/-- A submitted deposit names the id. -/
def Names (s : System) (id : Hash) : Prop :=
  ∃ r ∈ s.db.tables.operations ++ s.db.committed.operations, r.direction = "inbound" ∧
    r.status = "mint_submitted" ∧ Rpc.parseHash r.operationId = .ok id

/-- The event loses no operation a submitted deposit names: a production commits its block, or finds
    each of them processed; a restart finds each of them in the store; and no deposit of SOL is
    taken for submitted under an id the node does not hold. -/
def Keeps (E : Env) (ctx : Rpc.Context) (py : Python) (cfg : Settings) (s : System) :
    SystemEvent → Prop
  | .call (.produceBlock io proposer) =>
    proposer.any (fun key => !s.node.isExpectedProposer (E.crypto.publicKey key)) = true ∨
      Node.Completes E s.node io proposer ∨
      ∀ id, s.Names id → id ∈ s.node.state.processedAssetOperations
  | .reopen _ => ∀ p, s.node.store.latestState = .ok p →
    ∀ id, s.Names id → id ∈ (State.fromSnapshot p).processedAssetOperations
  | .turn p => ∀ r rest, s.phase = .processing (r :: rest) → r.direction = "inbound" →
    r.assetId = cfg.mnaAssetId →
      (∃ id, Rpc.parseHash r.operationId = .ok id ∧ s.node.Holds id) ∨
      (submitMint (link E ctx p) py cfg r s.node).result ≠ .ok ()
  | _ => True

end System

section Steps

variable {E : Env} {ctx : Rpc.Context} {py : Python} {cfg : Settings} {p : Passage} {n : Node}
  {r : Row} {d : Db} {s : System}

theorem carry_state {α : Type} (p : Passage) (n : Node) (called : Applied Rpc.RpcError Node α) :
    (p.carry n called).state = n ∨
      (p.reaches = true ∧ (p.carry n called).state = called.state) := by
  unfold Passage.carry
  split
  · rename_i hreaches
    exact Or.inr ⟨hreaches, rfl⟩
  · exact Or.inl rfl

/-- An answer of success is the answer of the call. -/
theorem carry_ok {α : Type} {called : Applied Rpc.RpcError Node α} {a : α}
    (h : (p.carry n called).result = .ok a) :
    called.result = .ok a ∧ (p.carry n called).state = called.state := by
  unfold Passage.carry at h ⊢
  split
  · rename_i hreaches
    rw [if_pos hreaches] at h
    refine ⟨?_, rfl⟩
    cases hlost : p.lost with
    | some e =>
      rw [hlost] at h
      cases h
    | none =>
      rw [hlost] at h
      cases hcalled : called.result with
      | ok b =>
        have h : heard called.result = .ok a := h
        rw [hcalled] at h
        cases h
        rfl
      | error e =>
        have h : heard called.result = .ok a := h
        rw [hcalled] at h
        cases h
  · rename_i hreaches
    rw [if_neg hreaches] at h
    cases h

/-- The operation that a turn asks for, for a deposit of SOL. -/
def conversionOf (E : Env) (ctx : Rpc.Context) (py : Python) (cfg : Settings) (r : Row)
    (p : Passage) : Option MnaReserveOperation :=
  match solanaMnaOracleSnapshot cfg (if cfg.oracleUrl then p.oracle else .error (.err .runtime))
      p.now with
  | .error _ => none
  | .ok (price, published) =>
    match mnaMintParams py cfg r price published with
    | .error _ => none
    | .ok q =>
      match Rpc.blankReserveOperation ctx "mna_reserve_mint" q with
      | .error _ => none
      | .ok o => some (Rpc.fillId E.crypto o)

/-- The deposit is one of SOL, and the call for it reaches the node with this operation. -/
structure Converting (E : Env) (ctx : Rpc.Context) (py : Python) (cfg : Settings) (p : Passage)
    (r : Row) (o : MnaReserveOperation) : Prop where
  inbound : r.direction = "inbound"
  sol : r.assetId = cfg.mnaAssetId
  reaches : p.reaches = true
  asked : conversionOf E ctx py cfg r p = some o

/-- **What a submission does to the node**: nothing, or what a call with one operation does. -/
theorem submit_node (E : Env) (ctx : Rpc.Context) (py : Python) (cfg : Settings) (p : Passage)
    (r : Row) (n : Node) :
    (submit (link E ctx p) py cfg r n).state = n ∨
      (∃ o, (submit (link E ctx p) py cfg r n).state = n.next E (.submitAssetOperation o)) ∨
      ∃ o, Converting E ctx py cfg p r o ∧
        (submit (link E ctx p) py cfg r n).state = n.next E (.submitMnaReserveOperation o) := by
  unfold submit
  by_cases hdirection : r.direction = "inbound"
  · rw [if_pos hdirection]
    unfold submitMint
    by_cases hsol : r.assetId = cfg.mnaAssetId
    · rw [if_pos hsol]
      dsimp only
      have hasked : (if cfg.oracleUrl = true then (link E ctx p).oracle n
          else ⟨.error (.err .runtime), n⟩ : Applied RelayerError Node OracleAnswer) =
          ⟨if cfg.oracleUrl then p.oracle else .error (.err .runtime), n⟩ := by
        split
        · rfl
        · rfl
      rw [hasked]
      dsimp only [link]
      cases hsnapshot : solanaMnaOracleSnapshot cfg
          (if cfg.oracleUrl then p.oracle else .error (.err .runtime)) p.now with
      | error e => exact Or.inl rfl
      | ok snapshot =>
        obtain ⟨price, published⟩ := snapshot
        dsimp only
        cases hparams : mnaMintParams py cfg r price published with
        | error e => exact Or.inl rfl
        | ok q =>
          rcases carry_state p n (Rpc.mnaReserve E ctx n "mna_reserve_mint" q) with
            h | ⟨hreaches, h⟩
          · exact Or.inl h
          · rcases Rpc.mnaReserve_state E ctx n "mna_reserve_mint" q with hq | ⟨o, hbuild, hq⟩
            · exact Or.inl (h.trans hq)
            · have hconversion : conversionOf E ctx py cfg r p = some (Rpc.fillId E.crypto o) := by
                simp only [conversionOf, hsnapshot, hparams, hbuild]
              exact Or.inr (Or.inr ⟨Rpc.fillId E.crypto o,
                ⟨hdirection, hsol, hreaches, hconversion⟩, h.trans hq⟩)
    · rw [if_neg hsol]
      rcases carry_state p n (Rpc.bridgeAssetOperation ctx n .mint (bridgeMintParams cfg r)) with
        h | ⟨-, h⟩
      · exact Or.inl h
      · rcases Rpc.bridgeAssetOperation_state ctx n .mint (bridgeMintParams cfg r) with
          hq | ⟨o, -, hq⟩
        · exact Or.inl (h.trans hq)
        · exact Or.inr (Or.inl ⟨o, h.trans hq⟩)
  · rw [if_neg hdirection]
    unfold submitRelease
    cases releaseCommand py cfg r with
    | error e => exact Or.inl rfl
    | ok c => exact Or.inl rfl

/-- A submission loses nothing. -/
theorem holds_submit {id : Hash} (h : n.Holds id) :
    (submit (link E ctx p) py cfg r n).state.Holds id := by
  have hnext : ∀ c, (∀ io proposer, c ≠ .produceBlock io proposer) → (n.next E c).Holds id := by
    intro c hc
    rcases Node.pending_subset (E := E) n c with hsub | ⟨io, proposer, hcall, -⟩
    · exact h.next_of_subset hsub
    · exact absurd hcall (hc io proposer)
  rcases submit_node E ctx py cfg p r n with hm | ⟨o, hm⟩ | ⟨o, -, hm⟩
  · rw [hm]
    exact h
  · rw [hm]
    exact hnext _ nofun
  · rw [hm]
    exact hnext _ nofun

/-- A mint that is answered is held under the id its row names. -/
theorem submit_holds (hdirection : r.direction = "inbound") (hasset : r.assetId ≠ cfg.mnaAssetId)
    (h : (submit (link E ctx p) py cfg r n).result = .ok ()) :
    ∃ id, Rpc.parseHash r.operationId = .ok id ∧
      (submit (link E ctx p) py cfg r n).state.Holds id := by
  unfold submit submitMint at h ⊢
  rw [if_pos hdirection, if_neg hasset] at h ⊢
  obtain ⟨q, hq, -⟩ := Applied.map_result_eq_ok.mp h
  obtain ⟨hcalled, hstate⟩ := carry_ok hq
  rcases Rpc.bridgeAssetOperation_cases ctx n .mint (bridgeMintParams cfg r) with
    ⟨-, hno⟩ | ⟨o, hbuild, hqueued⟩
  · exact absurd hcalled (hno q)
  · obtain ⟨hid, hc⟩ := Rpc.bridgeOperation_ok hbuild
    refine ⟨o.operationId, hid, Or.inr ⟨o, ?_, rfl, hc⟩⟩
    have hm : ((link E ctx p).bridgeMint (bridgeMintParams cfg r) n).state =
        (p.carry n (Rpc.bridgeAssetOperation ctx n .mint (bridgeMintParams cfg r))).state := rfl
    rw [hm, hstate, hqueued]
    exact List.mem_append_right _ (List.mem_singleton_self o)

theorem took_node (out : Applied RelayerError (Site Node) Unit) (phase : Phase) :
    (took out phase).node = out.state.outside := by
  cases hresult : out.result with
  | ok u => rw [took_ok hresult]
  | error e => rw [took_error hresult]

theorem processRow_node (E : Env) (ctx : Rpc.Context) (py : Python) (cfg : Settings) (p : Passage)
    (r : Row) (d : Db) (n : Node) : (processRow (link E ctx p) py cfg r ⟨d, n⟩).state.outside =
      (submit (link E ctx p) py cfg r n).state :=
  answered_outside

/-- Asking for a status changes nothing. -/
theorem settleRow_node (E : Env) (ctx : Rpc.Context) (p : Passage) (r : Row) (d : Db) (n : Node) :
    (settleRow (link E ctx p) r ⟨d, n⟩).state.outside = n := by
  unfold settleRow
  split
  · rw [answered_outside]
    exact (carry_state p n ⟨Rpc.bridgeOperationStatus n r.operationId, n⟩).elim id And.right
  · rfl

/-- **What a turn does to the node**: nothing, or what the submission of a row does. -/
theorem turn_node (E : Env) (ctx : Rpc.Context) (py : Python) (cfg : Settings) (s : System)
    (p : Passage) : (s.turn E ctx py cfg p).node = s.node ∨
      ∃ r rest, s.phase = .processing (r :: rest) ∧ (s.turn E ctx py cfg p).node =
        (submit (link E ctx p) py cfg r s.node).state := by
  obtain ⟨d, n, phase⟩ := s
  cases phase with
  | idle => exact Or.inl rfl
  | processing rest =>
    cases rest with
    | nil => exact Or.inl rfl
    | cons r rest =>
      exact Or.inr ⟨r, rest, rfl, (took_node _ _).trans (processRow_node E ctx py cfg p r d n)⟩
  | settling rest =>
    cases rest with
    | nil => exact Or.inl rfl
    | cons r rest => exact Or.inl ((took_node _ _).trans (settleRow_node E ctx p r d n))

/-- What a row's turn leaves, whether the relayer dies in it or not. -/
theorem took_rule {out : Applied RelayerError (Site Node) Unit} (phase : Phase)
    {P : Node → Row → Prop} (h : out.state.db.Every (P out.state.outside)) :
    (took out phase).node = out.state.outside ∧
      (took out phase).db.Every (P (took out phase).node) := by
  refine ⟨took_node out phase, ?_⟩
  cases hresult : out.result with
  | ok u =>
    rw [took_ok hresult]
    exact h
  | error e =>
    rw [took_error hresult]
    exact h.restart

/-- **The turn of a row** that is submitted. -/
theorem processRow_known (hknown : d.Every (Row.Known n))
    (hmna : r.direction = "inbound" → r.assetId = cfg.mnaAssetId →
      (∃ id, Rpc.parseHash r.operationId = .ok id ∧ n.Holds id) ∨
        (submitMint (link E ctx p) py cfg r n).result ≠ .ok ()) :
    (processRow (link E ctx p) py cfg r ⟨d, n⟩).state.db.Every
      (Row.Known (processRow (link E ctx p) py cfg r ⟨d, n⟩).state.outside) := by
  unfold processRow
  rw [answered_outside]
  have hmono : d.Every (Row.Known (submit (link E ctx p) py cfg r n).state) :=
    fun r' hr' => (hknown r' hr').mono fun id h => holds_submit h
  refine answered_rule hmono (fun note hnote => ?_) fun now => ?_
  · obtain ⟨u, hu, rfl⟩ := Applied.map_result_eq_ok.mp hnote
    refine hmono.setStatus fun r' hid _ => ?_
    intro _ hstatus
    have hstatus : submittedStatus r = "mint_submitted" := hstatus
    by_cases hdirection : r.direction = "inbound"
    · show ∃ id, Rpc.parseHash r'.operationId = .ok id ∧ _
      rw [hid]
      by_cases hasset : r.assetId = cfg.mnaAssetId
      · rcases hmna hdirection hasset with ⟨id, hparse, hheld⟩ | hrefused
        · exact ⟨id, hparse, holds_submit hheld⟩
        · have hresult : (submit (link E ctx p) py cfg r n).result =
              (submitMint (link E ctx p) py cfg r n).result := by
            unfold submit
            rw [if_pos hdirection]
          exact absurd (hresult ▸ hu) hrefused
      · exact submit_holds hdirection hasset hu
    · unfold submittedStatus at hstatus
      rw [if_neg hdirection] at hstatus
      exact absurd hstatus (by decide)
  · exact hmono.markError now fun r' _ _ => Row.known_of_status (by decide)

/-- **The turn of a row** that is settled. -/
theorem settleRow_known (hknown : d.Every (Row.Known n)) :
    (settleRow (link E ctx p) r ⟨d, n⟩).state.db.Every (Row.Known n) := by
  have hcompleted : (d.setStatus r.operationId "completed").Every (Row.Known n) :=
    hknown.setStatus fun r' _ _ => Row.known_of_status (by decide)
  unfold settleRow
  split
  · refine answered_rule hknown (fun note hnote => ?_) fun now => ?_
    · obtain ⟨status, -, rfl⟩ := Applied.map_result_eq_ok.mp hnote
      dsimp only
      split
      · exact hcompleted
      · exact hknown.commit
    · exact hknown.markError now fun r' _ _ => Row.known_of_status (by decide)
  · exact hcompleted

/-- What holds in every state of a run: every submitted deposit names an operation the node holds,
    and the node's store opens. -/
structure System.Safe (E : Env) (s : System) : Prop where
  known : s.db.Every (Row.Known s.node)
  store : Node.Initialized E s.node.genesis s.node.store

theorem System.Safe.named (h : s.Safe E) : s.Named := fun r hr hdirection hstatus => by
  obtain ⟨id, hid, hheld⟩ := h.known r (List.mem_append_left _ hr) hdirection hstatus
  exact ⟨id, hid, hheld.status⟩

/-- A call keeps the store in a state that opens. -/
theorem initialized_next (h : Node.Initialized E n.genesis n.store) (c : Node.Call) :
    Node.Initialized E (n.next E c).genesis (n.next E c).store :=
  (Node.Backed.next (Q := fun _ => True) ⟨h, trivial, fun _ _ => trivial⟩ (fun _ _ _ _ => trivial)
    fun _ _ _ _ => trivial).initialized

theorem initialized_submit (h : Node.Initialized E n.genesis n.store) :
    Node.Initialized E (submit (link E ctx p) py cfg r n).state.genesis
      (submit (link E ctx p) py cfg r n).state.store := by
  rcases submit_node E ctx py cfg p r n with hm | ⟨o, hm⟩ | ⟨o, -, hm⟩
  · rw [hm]
    exact h
  · rw [hm]
    exact initialized_next h _
  · rw [hm]
    exact initialized_next h _

/-- **A turn of the relayer.** -/
theorem safe_turn (h : s.Safe E) (hkeeps : s.Keeps E ctx py cfg (.turn p)) :
    (s.turn E ctx py cfg p).Safe E := by
  obtain ⟨d, n, phase⟩ := s
  cases phase with
  | idle => exact h
  | processing rest =>
    cases rest with
    | nil => exact ⟨h.known, h.store⟩
    | cons r rest =>
      have hmna := hkeeps r rest rfl
      obtain ⟨hnode, hdb⟩ := took_rule (.processing rest) (P := Row.Known)
        (processRow_known (p := p) h.known hmna)
      refine ⟨hdb, ?_⟩
      show Node.Initialized E (took _ _).node.genesis (took _ _).node.store
      rw [hnode, processRow_node]
      exact initialized_submit h.store
  | settling rest =>
    cases rest with
    | nil => exact ⟨h.known, h.store⟩
    | cons r rest =>
      have houtside := settleRow_node E ctx p r d n
      have hsettled : (settleRow (link E ctx p) r ⟨d, n⟩).state.db.Every
          (Row.Known (settleRow (link E ctx p) r ⟨d, n⟩).state.outside) := by
        rw [houtside]
        exact settleRow_known h.known
      obtain ⟨hnode, hdb⟩ := took_rule (.settling rest) hsettled
      refine ⟨hdb, ?_⟩
      show Node.Initialized E (took _ _).node.genesis (took _ _).node.store
      rw [hnode, houtside]
      exact h.store

/-- **The polls of an iteration** note rows that are not submitted. -/
theorem safe_poll (h : s.Safe E) (a : Answers) (now : Nat) : (s.poll py cfg a now).Safe E := by
  have hpolled : (polled py cfg a s.db).state.Every (Row.Known s.node) := by
    refine PollSteps.polls ⟨⟨fun d row hrow hd => hd.insert ?_, fun _ _ hd => hd,
      fun _ hd => hd.commit⟩, fun _ _ hd => hd⟩ h.known
    intro _ hstatus
    rw [hrow.detected] at hstatus
    exact absurd hstatus (by decide)
  unfold System.poll
  split
  · dsimp only
    split
    · exact ⟨hpolled, h.store⟩
    · exact ⟨hpolled, h.store⟩
  · exact h

/-- **Calls by others.** -/
theorem safe_call (h : s.Safe E) {c : Node.Call} (hkeeps : s.Keeps E ctx py cfg (.call c)) :
    System.Safe E { s with node := s.node.next E c } := by
  refine ⟨fun r hr hdirection hstatus => ?_, initialized_next h.store c⟩
  obtain ⟨id, hid, hheld⟩ := h.known r hr hdirection hstatus
  refine ⟨id, hid, ?_⟩
  rcases Node.pending_subset (E := E) s.node c with hsub | ⟨io, proposer, rfl, hturn⟩
  · exact hheld.next_of_subset hsub
  · rcases hkeeps with hrefused | hcompletes | hprocessed
    · exact absurd hrefused hturn
    · exact hheld.produce hcompletes
    · exact Or.inl (Node.processed_state
        (hprocessed id ⟨r, hr, hdirection, hstatus, hid⟩) _)

/-- **A restart of the node.** -/
theorem safe_reopen (h : s.Safe E) {io : Io} (hkeeps : s.Keeps E ctx py cfg (.reopen io)) :
    System.Safe E { s with node := s.node.reopened E io } := by
  rcases Node.reopened_cases h.store io with hsame | ⟨b, p, hp, hopened⟩
  · show System.Safe E { s with node := s.node.reopened E io }
    rw [hsame]
    exact h
  · refine ⟨fun r hr hdirection hstatus => ?_, ?_⟩
    · obtain ⟨id, hid, -⟩ := h.known r hr hdirection hstatus
      refine ⟨id, hid, Or.inl ?_⟩
      show id ∈ (s.node.reopened E io).state.processedAssetOperations
      rw [hopened]
      exact hkeeps p hp id ⟨r, hr, hdirection, hstatus, hid⟩
    · show Node.Initialized E (s.node.reopened E io).genesis (s.node.reopened E io).store
      rw [hopened]
      exact h.store

/-- **Every event.** -/
theorem safe_next (h : s.Safe E) (e : SystemEvent) (hkeeps : s.Keeps E ctx py cfg e) :
    (s.next E ctx py cfg e).Safe E := by
  cases e with
  | poll a now => exact safe_poll h a now
  | turn p => exact safe_turn h hkeeps
  | restart => exact ⟨h.known.restart, h.store⟩
  | call c => exact safe_call h hkeeps
  | reopen io => exact safe_reopen h hkeeps

/-- **No submitted deposit is stranded**, in any state of a run, where no event loses an operation
    that a submitted deposit names. -/
theorem no_row_stranded (E : Env) (ctx : Rpc.Context) (py : Python) (cfg : Settings) (s : System)
    (events : List SystemEvent) (hstart : s.db.Every fun r => r.status ≠ "mint_submitted")
    (hstore : Node.Initialized E s.node.genesis s.node.store)
    (hkeeps : EachStep (System.next E ctx py cfg) (System.Keeps E ctx py cfg) s events) :
    Throughout (System.next E ctx py cfg) System.Named s events := by
  have hsafe : s.Safe E := ⟨fun r hr _ hstatus => absurd hstatus (hstart r hr), hstore⟩
  have hrun := hkeeps.throughout (P := System.Safe E) (fun s e hk h => safe_next h e hk) hsafe
  exact throughout_iff.mpr fun pre hpre => (throughout_iff.mp hrun pre hpre).named

end Steps

end Relayer

/-! ## 3. A deposit and a restart -/

namespace Sample

open Relayer

/-- Every call arrives and is answered. -/
def clearPassage : Passage where
  now := 0
  oracle := .error (.err .runtime)
  reaches := true
  lost := none
  command := fun _ => .ok ()

/-- A relayer and a fresh node. -/
def beginning : System := ⟨scanned.db, taggedNode, .idle⟩

/-- The polls of an iteration and the turns of its cycle. -/
def cycle (logs : List DepositLog) (turns : Nat) : List SystemEvent :=
  .poll (answers logs) 0 :: List.replicate turns (.turn clearPassage)

/-- A cycle with a deposit, a restart of the node, and another cycle. -/
def forgotten : List SystemEvent := cycle [goodLog] 4 ++ .reopen ⟨1, none⟩ :: cycle [] 3

def goodId : Hash := ⟨Vector.replicate 32 0xaa⟩

theorem unsubmitted_beginning : beginning.db.Every fun r => r.status ≠ "mint_submitted" := by
  unfold Db.Every
  decide +kernel

theorem initialized_taggedNode :
    Node.Initialized tagged taggedNode.genesis taggedNode.store :=
  taggedNode_lives.durable.1.initialized

/-- The rows that are to be submitted. -/
def unsent : Phase → List Row
  | .processing rest => rest
  | _ => []

/-- What is computed of an event that keeps what is submitted: rows of wrapped assets have their
    turns, a block is made, and a restart finds the ids of all rows on record in the store. -/
def Plain (s : System) : SystemEvent → Prop
  | .turn _ => ∀ r ∈ unsent s.phase, r.assetId ≠ settings.mnaAssetId
  | .call c => c.fault = none ∧ (s.node.next tagged c).latestBlock ≠ s.node.latestBlock
  | .reopen _ => ∀ r ∈ s.db.tables.operations ++ s.db.committed.operations,
    ∀ id ∈ (Rpc.parseHash r.operationId).toOption, ∀ p ∈ s.node.store.latestState.toOption,
      id ∈ (State.fromSnapshot p).processedAssetOperations
  | _ => True

instance (s : System) : (e : SystemEvent) → Decidable (Plain s e)
  | .poll .. => inferInstanceAs (Decidable True)
  | .turn _ => inferInstanceAs (Decidable (∀ r ∈ _, _))
  | .restart => inferInstanceAs (Decidable True)
  | .call _ => inferInstanceAs (Decidable (_ ∧ _))
  | .reopen _ => inferInstanceAs (Decidable (∀ r ∈ _, _))

theorem Plain.keeps {s : System} {e : SystemEvent} (h : Plain s e) :
    s.Keeps tagged rpcContext python settings e := by
  cases e with
  | poll => trivial
  | turn p =>
    intro r rest hphase _ hasset
    unfold Plain at h
    rw [hphase] at h
    exact absurd hasset (h r List.mem_cons_self)
  | restart => trivial
  | call c =>
    cases c with
    | produceBlock io proposer => exact Or.inr (Or.inl (Node.completes_of_moved h.1 h.2))
    | _ => trivial
  | reopen io =>
    intro p hp id hnames
    obtain ⟨r, hr, -, -, hid⟩ := hnames
    exact h r hr id (by rw [hid]; rfl) p (by rw [hp]; rfl)

/-- The node produces a block and restarts while the deposit is submitted. -/
def remembered : List SystemEvent :=
  [.poll (answers [goodLog]) 0, .turn clearPassage, .turn clearPassage, .call tick,
    .reopen ⟨3, none⟩, .turn clearPassage, .turn clearPassage]

theorem evaluated_remembered :
    EachStep (System.next tagged rpcContext python settings) Plain beginning remembered ∧
      (runs (System.next tagged rpcContext python settings)
        beginning remembered).db.tables.operations.map (·.status) = ["completed"] := by
  decide +kernel

/-- The row stays submitted, and the node does not know its operation. -/
theorem evaluated_forgotten :
    (runs (System.next tagged rpcContext python settings) beginning forgotten).phase = .idle ∧
      (∃ r ∈ (runs (System.next tagged rpcContext python settings)
        beginning forgotten).db.tables.operations, r.direction = "inbound" ∧
          r.status = "mint_submitted" ∧ Rpc.parseHash r.operationId = .ok goodId) ∧
      Rpc.statusOf (runs (System.next tagged rpcContext python settings)
        beginning forgotten).node goodId = .notFound := by
  decide +kernel

end Sample

namespace Relayer

/-- A deposit that is completed behind a restart. -/
theorem no_row_stranded_restart :
    Throughout (System.next Sample.tagged Sample.rpcContext Sample.python Sample.settings)
        System.Named Sample.beginning Sample.remembered ∧
      (runs (System.next Sample.tagged Sample.rpcContext Sample.python Sample.settings)
        Sample.beginning Sample.remembered).db.tables.operations.map (·.status) =
          ["completed"] :=
  ⟨no_row_stranded Sample.tagged Sample.rpcContext Sample.python Sample.settings Sample.beginning _
    Sample.unsubmitted_beginning Sample.initialized_taggedNode
    (Sample.evaluated_remembered.1.mono fun _ _ h => h.keeps), Sample.evaluated_remembered.2⟩

/-- **A restart strands a deposit**: the operation was queued and not yet in a block; a cycle later
    the row is still submitted, and the node does not know its operation. -/
theorem restart_strands_deposit :
    (Sample.beginning.db.Every fun r => r.status ≠ "mint_submitted") ∧
      Node.Initialized Sample.tagged Sample.beginning.node.genesis Sample.beginning.node.store ∧
      (runs (System.next Sample.tagged Sample.rpcContext Sample.python Sample.settings)
        Sample.beginning Sample.forgotten).phase = .idle ∧
      ¬ (runs (System.next Sample.tagged Sample.rpcContext Sample.python Sample.settings)
        Sample.beginning Sample.forgotten).Named := by
  obtain ⟨hphase, hrow, hunknown⟩ := Sample.evaluated_forgotten
  refine ⟨Sample.unsubmitted_beginning, Sample.initialized_taggedNode, hphase, fun h => ?_⟩
  obtain ⟨r, hr, hdirection, hstatus, hid⟩ := hrow
  obtain ⟨id, hid', hknown⟩ := h r hr hdirection hstatus
  rw [hid] at hid'
  cases hid'
  exact hknown hunknown

end Relayer

end WorldstreetChain
