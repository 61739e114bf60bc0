import WorldstreetChain.Node.Run

/-!
# What executing a block does to the state

A producer and an importer carry out the same operations, one with a loop that leaves out what
fails, one with a loop that refuses the block. Both lead the state through `State.next`, and so
does the faucet with its credit; a property of states that these keep is kept by every call.

* `Node.acceptLoop_rule`, `Node.importLoop_rule` -- **the loop rules**.
* `Node.next_state_rule` -- **the rule for calls**: what every operation and the faucet's credit
  keep is kept by every call of the node.
* `Node.Commits.adopted`, `Node.next_produce`, `Node.runs_submitAssetOperation` -- the nodes that
  successful calls leave behind.
-/

namespace WorldstreetChain

open Std

namespace Node

variable {E : Env} {n : Node} {c : Call} {s s' : State} {b : Block}

/-! ## 1. The loops -/

section Loops

variable {α : Type} {call : α → Operation} {l accepted : List α} {P : State → Prop}

/-- **The rule for a producer's loop**: an operation that fails counts as well. -/
theorem acceptLoop_rule (hstep : ∀ s a, a ∈ l → P s → P (s.next E (call a)))
    (h : acceptLoop E call s l = .ok (s', accepted)) (h0 : P s) : P s' := by
  induction l generalizing s accepted with
  | nil =>
    cases h
    exact h0
  | cons a l ih =>
    have h1 : P (s.next E (call a)) := hstep s a List.mem_cons_self h0
    have hrest : ∀ s x, x ∈ l → P s → P (s.next E (call x)) :=
      fun s x hx => hstep s x (List.mem_cons_of_mem _ hx)
    unfold acceptLoop at h
    cases hx : (s.apply E (call a)).result with
    | ok x =>
      rw [State.apply_eq hx] at h
      obtain ⟨⟨last, rest⟩, hl, h⟩ := Outcome.bind_eq_ok.mp h
      cases h
      exact ih hrest hl h1
    | error e =>
      rw [State.apply_eq hx] at h
      cases e with
      | err e => exact ih hrest h h1
      | panic => cases h

/-- What a producer accepts comes out of its queue, in order. -/
theorem acceptLoop_sublist (h : acceptLoop E call s l = .ok (s', accepted)) :
    accepted.Sublist l := by
  induction l generalizing s accepted with
  | nil =>
    cases h
    exact List.Sublist.slnil
  | cons a l ih =>
    unfold acceptLoop at h
    cases hx : (s.apply E (call a)).result with
    | ok x =>
      rw [State.apply_eq hx] at h
      obtain ⟨⟨last, rest⟩, hl, h⟩ := Outcome.bind_eq_ok.mp h
      cases h
      exact (ih hl).cons_cons a
    | error e =>
      rw [State.apply_eq hx] at h
      cases e with
      | err e => exact (ih h).cons a
      | panic => cases h

/-- **The rule for an importer's loop.** -/
theorem importLoop_rule {duplicate : String}
    (hstep : ∀ s a, a ∈ l → P s → P (s.next E (call a)))
    (h : importLoop E call duplicate s l = .ok s') (h0 : P s) : P s' := by
  induction l generalizing s with
  | nil =>
    cases h
    exact h0
  | cons a l ih =>
    unfold importLoop at h
    obtain ⟨applied, -, h⟩ := Outcome.bind_eq_ok.mp h
    obtain ⟨-, h⟩ := rejectIf_bind_eq_ok.mp h
    exact ih (fun s x hx => hstep s x (List.mem_cons_of_mem _ hx)) h
      (hstep s a List.mem_cons_self h0)

end Loops

/-! ## 2. The six loops -/

/-- The operations a call may carry out. -/
def operations (E : Env) (n : Node) : Call → List Operation
  | .produceBlock _ _ => (n.queue E).calls E.crypto n.nextHeight
  | .importBlock _ b => b.batch.calls E.crypto b.header.height
  | _ => []

section Blocks

variable {P : State → Prop}

theorem accept_rule {height : U64} {queue accepted : Batch}
    (hstep : ∀ s op, op ∈ queue.calls E.crypto height → P s → P (s.next E op))
    (h : accept E s height queue = .ok (s', accepted)) (h0 : P s) : P s' := by
  unfold accept at h
  obtain ⟨⟨s1, _⟩, h1, h⟩ := Outcome.bind_eq_ok.mp h
  obtain ⟨⟨s2, _⟩, h2, h⟩ := Outcome.bind_eq_ok.mp h
  obtain ⟨⟨s3, _⟩, h3, h⟩ := Outcome.bind_eq_ok.mp h
  obtain ⟨⟨s4, _⟩, h4, h⟩ := Outcome.bind_eq_ok.mp h
  obtain ⟨⟨s5, _⟩, h5, h⟩ := Outcome.bind_eq_ok.mp h
  obtain ⟨⟨s6, _⟩, h6, h⟩ := Outcome.bind_eq_ok.mp h
  cases h
  have p1 : P s1 := acceptLoop_rule (fun s a ha => hstep s _ (by simp [Batch.calls, ha])) h1 h0
  have p2 : P s2 := acceptLoop_rule (fun s a ha => hstep s _ (by simp [Batch.calls, ha])) h2 p1
  have p3 : P s3 := acceptLoop_rule (fun s a ha => hstep s _ (by simp [Batch.calls, ha])) h3 p2
  have p4 : P s4 := acceptLoop_rule (fun s a ha => hstep s _ (by simp [Batch.calls, ha])) h4 p3
  have p5 : P s5 := acceptLoop_rule (fun s a ha => hstep s _ (by simp [Batch.calls, ha])) h5 p4
  exact acceptLoop_rule (fun s a ha => hstep s _ (by simp [Batch.calls, ha])) h6 p5

/-- A queue of asset operations alone. -/
theorem accept_assets {ops accepted : List AssetOperation} {height : U64}
    (h : acceptLoop E .asset s ops = .ok (s', accepted)) :
    accept E s height { Batch.empty with assetOperations := ops } =
      .ok (s', { Batch.empty with assetOperations := accepted }) := by
  unfold accept
  show (acceptLoop E .asset s ops >>= _) = _
  rw [h]
  rfl

theorem execute_rule {height : U64} {batch : Batch}
    (hstep : ∀ s op, op ∈ batch.calls E.crypto height → P s → P (s.next E op))
    (h : execute E s height batch = .ok s') (h0 : P s) : P s' := by
  unfold execute at h
  obtain ⟨s1, h1, h⟩ := Outcome.bind_eq_ok.mp h
  obtain ⟨s2, h2, h⟩ := Outcome.bind_eq_ok.mp h
  obtain ⟨s3, h3, h⟩ := Outcome.bind_eq_ok.mp h
  obtain ⟨s4, h4, h⟩ := Outcome.bind_eq_ok.mp h
  obtain ⟨s5, h5, h6⟩ := Outcome.bind_eq_ok.mp h
  have p1 : P s1 := importLoop_rule (fun s a ha => hstep s _ (by simp [Batch.calls, ha])) h1 h0
  have p2 : P s2 := importLoop_rule (fun s a ha => hstep s _ (by simp [Batch.calls, ha])) h2 p1
  have p3 : P s3 := importLoop_rule (fun s a ha => hstep s _ (by simp [Batch.calls, ha])) h3 p2
  have p4 : P s4 := importLoop_rule (fun s a ha => hstep s _ (by simp [Batch.calls, ha])) h4 p3
  have p5 : P s5 := importLoop_rule (fun s a ha => hstep s _ (by simp [Batch.calls, ha])) h5 p4
  exact importLoop_rule (fun s a ha => hstep s _ (by simp [Batch.calls, ha])) h6 p5

/-- The state about to be committed. -/
theorem Commits.rule (hstep : ∀ s op, op ∈ n.operations E c → P s → P (s.next E op))
    (hcredit : ∀ s address amount, P s → P (s.creditDevnet address amount).state)
    (h : Commits E n c s b) (h0 : P n.state) : P s := by
  cases h with
  | produce io proposer s accepted height hturn haccept hheight =>
    exact accept_rule hstep haccept h0
  | faucet io address amount s height hdevnet hcredited hheight =>
    have hs := hcredit n.state address amount h0
    rw [hcredited] at hs
    exact hs
  | «import» io b s hversion hnew hreplay =>
    exact execute_rule hstep (replay_eq_ok.mp hreplay).2.1 h0

/-- **The rule for calls.** -/
theorem next_state_rule (hstep : ∀ s op, P s → P (s.next E op))
    (hcredit : ∀ s address amount, P s → P (s.creditDevnet address amount).state)
    (n : Node) (c : Call) (h0 : P n.state) : P (n.next E c).state := by
  cases next_step (E := E) n c with
  | quiet n' htip hnone =>
    rw [htip.state]
    exact h0
  | commit s b n' hcommits hreaches h =>
    rw [h.state]
    exact hcommits.rule (fun s op _ => hstep s op) hcredit h0
  | cutOff s b k n' hcommits hfault hk h =>
    rw [h.state]
    exact h0
  | finalize io S current n' hcall hvotes hcurrent hle hstored h =>
    rw [h]
    exact h0

end Blocks

/-! ## 3. Calls that succeed -/

/-- A block that is committed without a failing insertion is at the tip. -/
theorem Commits.adopted {c : Call} {s : State} {b : Block} (hc : Commits E n c s b)
    (hrel : Reliable n c) : Adopted E n s b (n.next E c) := by
  have hstep := next_step (E := E) n c
  generalize n.next E c = n' at hstep
  cases hstep with
  | quiet _ _ hnone => exact absurd hc (hnone s b)
  | commit s' b' _ hc' _ ha =>
    obtain ⟨rfl, rfl⟩ := hc.unique hc'
    exact ha
  | cutOff s' b' k _ _ hfault _ _ =>
    rw [hrel] at hfault
    cases hfault
  | finalize io S current _ hcall _ _ _ _ _ =>
    subst hcall
    cases hc

theorem Adopted.getBlockByHeight {n' : Node} {s : State} {b : Block} (h : Adopted E n s b n') :
    n'.store.getBlockByHeight b.header.height = .ok b := by
  rw [h.store]
  refine (Store.getBlockByHeight_of_get ?_).trans (Store.getBlock_commit _ _ _ _)
  rw [commitWrites, Store.get_heights_commit, if_pos rfl]

/-- The queues are cleared and the block stands at the tip. -/
theorem next_produce (now : U64) {accepted : Batch} {height : U64}
    (haccept : accept E n.state n.nextHeight (n.queue E) = .ok (s, accepted))
    (hheight : Unsigned.add (ε := NodeError) E.overflowChecks n.latestBlock.header.height 1 =
      .ok height) :
    n.next E (.produceBlock ⟨now, none⟩ none) =
      let block := accepted.toBlock (n.makeHeader E ⟨now, none⟩ height s accepted none)
      { n.clearQueues with
        store := n.store.insertAll (commitWrites E s block), state := s, latestBlock := block } := by
  show (n.produceBlockWithProposer E ⟨now, none⟩ none).state = _
  unfold produceBlockWithProposer
  rw [rejectIf_neg (by simp), Applied.attempt_ok, haccept, Applied.attempt_ok]
  unfold commitBlock
  have hheight' : Unsigned.add (ε := NodeError) E.overflowChecks
      n.clearQueues.latestBlock.header.height 1 = .ok height := hheight
  rw [hheight']
  rfl

/-- The imported block stands at the tip, and its transactions wait no more. -/
theorem next_import {io : Io} (hio : io.fault = none)
    (hc : Commits E n (.importBlock io b) s b) :
    n.importBlock E io b = ⟨.ok (E.crypto.blockHeaderId b.header),
      { n with
        store := n.store.insertAll (commitWrites E s b), state := s, latestBlock := b
        mempool := n.mempool.removeIds E.crypto (b.batch.ids E.crypto) }⟩ := by
  cases hc with
  | «import» _ _ _ hversion hnew hreplay =>
    have hr : Reaches io.fault (commitWrites E s b) := fun k hk => by
      rw [hio] at hk
      cases hk
    have ha := adopt_reaches (n := n) hr
    unfold importBlock
    rw [rejectIf_neg (not_not.mpr hversion), Applied.attempt_ok]
    simp only [hnew, hreplay, ha, Applied.attempt_ok]
    rfl

/-- Bridge operations of new ids, handed in one after the other, are queued. -/
theorem runs_submitAssetOperation {ops : List AssetOperation} (hversion : ∀ o ∈ ops, o.version = 1)
    (hnew : ∀ o ∈ ops, o.operationId ∉ n.state.processedAssetOperations)
    (hnodup : ((n.pendingAssetOperations ++ ops).map AssetOperation.operationId).Nodup) :
    runs (next E) n (ops.map .submitAssetOperation) =
      { n with pendingAssetOperations := n.pendingAssetOperations ++ ops } := by
  induction ops generalizing n with
  | nil =>
    rw [List.append_nil]
    rfl
  | cons o ops ih =>
    have hnext : n.next E (.submitAssetOperation o) =
        { n with pendingAssetOperations := n.pendingAssetOperations ++ [o] } := by
      show (n.submitAssetOperation o).state = _
      unfold submitAssetOperation
      rw [rejectIf_neg (not_not.mpr (hversion o List.mem_cons_self))]
      have hfresh : ¬ (o.operationId ∈ n.state.processedAssetOperations ∨
          o.operationId ∈ n.pendingAssetOperations.map AssetOperation.operationId) := by
        intro h
        rcases h with h | h
        · exact hnew o List.mem_cons_self h
        · rw [List.map_append, List.nodup_append] at hnodup
          exact hnodup.2.2 _ h _ List.mem_cons_self rfl
      show (Applied.ofClone n (rejectIf _ _ >>= _)).state = _
      rw [rejectIf_neg hfresh]
      rfl
    have happend : n.pendingAssetOperations ++ o :: ops =
        n.pendingAssetOperations ++ [o] ++ ops := List.append_cons _ _ _
    rw [happend] at hnodup
    have hrest := ih (n := { n with pendingAssetOperations := n.pendingAssetOperations ++ [o] })
      (fun a ha => hversion a (List.mem_cons_of_mem _ ha))
      (fun a ha => hnew a (List.mem_cons_of_mem _ ha)) hnodup
    rw [List.map_cons, runs_cons, hnext, hrest, happend]

end Node

end WorldstreetChain
