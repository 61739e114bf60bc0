import WorldstreetChain.Network.Finality

/-!
# What an honest validator sends

A validator signs a vote for every block of a message before it imports the first one, and sends
the votes when it has imported the last one. A block counts as imported if it is in the store
already, and the store has the blocks of one chain.

* `Node.OnlyStores` -- the store has no blocks but the chain's.
* `Peer.Honest` -- the votes a connection holds back are for blocks of the chain, or for blocks it has
  still to import.
* `Peer.Honest.next` -- **an event keeps that**, and the votes it sends are for blocks of the chain.
-/

namespace WorldstreetChain

open Std

/-- The vote is for the block. -/
def Vote.For (E : Env) (v : Vote) (b : Block) : Prop :=
  v.height = b.header.height ∧ v.blockHash = E.crypto.blockHeaderId b.header

namespace Node

variable {E : Env} {n : Node} {c : Call} {chain : List Block}

/-! ## 1. The blocks in the store -/

/-- The store has no blocks but the chain's. -/
def OnlyStores (E : Env) (n : Node) (chain : List Block) : Prop :=
  ∀ hash, (n.store.getBlock hash).isOk = true →
    ∃ b ∈ chain, E.crypto.blockHeaderId b.header = hash

theorem onlyStores_next (h : OnlyStores E n chain) (hrel : c.fault = none) :
    OnlyStores E (n.next E c) (chain ++ Node.adopted E n c) := by
  generalize hn : n.next E c = n'
  have hstep := next_step (E := E) n c
  rw [hn] at hstep
  cases hstep with
  | quiet _ ht _ =>
    rw [adopted_of_sameBlock (hn ▸ ht.latestBlock), List.append_nil]
    intro hash hget
    rw [ht.store] at hget
    exact h hash hget
  | commit s b _ hc _ ha =>
    rw [adopted_of_commits hc (hn ▸ ha.latestBlock)]
    intro hash hget
    rw [ha.store, ← take_commitWrites] at hget
    rcases Store.getBlock_commit_cases (E := E) n.store (E.crypto.blockHeaderId b.header) b
      s.snapshot (commitWrites E s b).length hash with ⟨rfl, -⟩ | hold
    · exact ⟨b, List.mem_append_right _ List.mem_cons_self, rfl⟩
    · rw [hold] at hget
      obtain ⟨a, ha, hid⟩ := h hash hget
      exact ⟨a, List.mem_append_left _ ha, hid⟩
  | cutOff s b k _ _ hfault _ _ =>
    rw [hrel] at hfault
    cases hfault
  | finalize io S current _ _ _ _ _ _ hn' =>
    have hsame : (n.next E c).latestBlock = n.latestBlock := by rw [hn, hn']
    rw [adopted_of_sameBlock hsame, List.append_nil]
    subst hn'
    intro hash hget
    refine h hash ?_
    have hblock : Store.getBlock (n.store.perform
        (Store.finalizedWrites S.height (n.latestHash E)) c.fault).state hash =
          n.store.getBlock hash := by
      rw [hrel]
      show Store.getBlock (n.store.insertAll _) hash = _
      unfold Store.getBlock
      rw [Store.get_finalized_of_ne fun ht => by cases ht]
    rw [← hblock]
    exact hget

theorem onlyStores_fresh (E : Env) (genesis : GenesisConfig) (s : State) :
    OnlyStores E (fresh E genesis s) [makeGenesisBlock E genesis s] := by
  intro hash hget
  rw [fresh_store, ← take_commitWrites] at hget
  rcases Store.getBlock_commit_cases (E := E) _ (E.crypto.blockHeaderId
    (makeGenesisBlock E genesis s).header) (makeGenesisBlock E genesis s) s.snapshot
    (commitWrites E s (makeGenesisBlock E genesis s)).length hash with ⟨rfl, -⟩ | hold
  · exact ⟨_, List.mem_singleton_self _, rfl⟩
  · have hnone : ((Store.empty.insertAll [⟨.metadata, Store.metaChainId,
        Postcard.utf8 genesis.chainId⟩, ⟨.metadata, Store.metaGenesisHash,
          (E.crypto.blockHeaderId (makeGenesisBlock E genesis s).header).bytes.toList⟩]).insertAll
            (Store.finalizedWrites 0 (E.crypto.blockHeaderId
              (makeGenesisBlock E genesis s).header))).getBlock hash = .error (.err .missing) := by
      unfold Store.getBlock
      rw [Store.get_finalized_of_ne fun ht => by cases ht]
      rfl
    rw [hold, hnone] at hget
    cases hget

/-- What has been imported is in the chain, under its id. -/
theorem imported_mem {io : Io} {b : Block} {hash : Hash} (h : OnlyStores E n chain)
    (hrel : io.fault = none) (hok : (n.importBlock E io b).result = .ok hash) :
    ∃ a ∈ chain ++ Node.adopted E n (.importBlock io b),
      E.crypto.blockHeaderId a.header = E.crypto.blockHeaderId b.header := by
  unfold importBlock at hok
  by_cases hversion : b.header.version ≠ 1
  · rw [rejectIf_pos hversion] at hok
    cases hok
  · rw [rejectIf_neg hversion, Applied.attempt_ok] at hok
    by_cases hstored : (n.store.getBlock (E.crypto.blockHeaderId b.header)).isOk = true
    · obtain ⟨a, ha, hid⟩ := h _ hstored
      exact ⟨a, List.mem_append_left _ ha, hid⟩
    · simp only [hstored] at hok
      cases hreplay : n.replay E b with
      | error e =>
        rw [hreplay] at hok
        cases hok
      | ok s =>
        have hc : Commits E n (.importBlock io b) s b :=
          .import io b s (not_not.mp hversion) (by simpa using hstored) hreplay
        have hr : Reaches io.fault (commitWrites E s b) := fun k hk => by
          rw [hrel] at hk
          cases hk
        have hlatest : (n.next E (.importBlock io b)).latestBlock = b := by
          show (n.importBlock E io b).state.latestBlock = b
          unfold importBlock
          rw [rejectIf_neg hversion, Applied.attempt_ok]
          simp only [hstored, hreplay, Applied.attempt_ok, adopt_reaches hr]
          rfl
        rw [adopted_of_commits hc hlatest]
        exact ⟨b, List.mem_append_right _ List.mem_cons_self, rfl⟩

end Node

namespace Peer

variable {E : Env} {H : List BlockHeader} {P : Peer} {e : Event} {chain : List Block}

/-! ## 2. Events without crashes -/

/-- The blocks a message brings. -/
def Event.brings : Event → List Block
  | .blocks message => message
  | _ => []

/-- An event of a peer that has not crashed, with storage that does not fail, below the greatest
    height; `H` has the headers that turn up. -/
structure Regular (E : Env) (H : List BlockHeader) (P : Peer) (e : Event) : Prop where
  lock : P.poisoned = false
  calm : e.Calm
  room : ∀ c, P.nodeCall e = some c → Node.HasRoom E P.node c
  brings : ∀ b ∈ e.brings, b.header ∈ H
  adopts : ∀ c, P.nodeCall e = some c → ∀ b ∈ Node.adopted E P.node c, b.header ∈ H

theorem nodeCall_importing (hlock : P.poisoned = false) (io : Io) {i : Nat} {b : Block}
    {rest : List Block} {votes : List Vote}
    (htask : P.tasks[i]? = some (.importing (b :: rest) votes)) :
    P.nodeCall (.work io i) = some (.importBlock io b) := by
  unfold nodeCall
  rw [hlock]
  simp [htask]

theorem nodeCall_finalizing (hlock : P.poisoned = false) (io : Io) {i : Nat} {S : VoteSet}
    (htask : P.tasks[i]? = some (.finalizing S)) :
    P.nodeCall (.work io i) = some (.finalizeVotes io S) := by
  unfold nodeCall
  rw [hlock]
  simp [htask]

theorem nodeCall_called (hlock : P.poisoned = false) (c : Node.Call) :
    P.nodeCall (.call c) = some c := by
  unfold nodeCall
  rw [hlock]
  simp

/-! ## 3. The votes a peer holds back -/

/-- The vote is one of the peer's validator. -/
def Own (E : Env) (P : Peer) (v : Vote) : Prop :=
  ∃ key, P.validator = some key ∧ v.validator = E.crypto.publicKey key

/-- The votes a connection holds back are for blocks of the chain, or for blocks it has still to
    import. -/
structure Honest (E : Env) (H : List BlockHeader) (P : Peer) (chain : List Block) : Prop where
  integrity : Node.Integrity E P.node chain
  stores : Node.OnlyStores E P.node chain
  headers : ∀ b ∈ chain, b.header ∈ H
  pending : ∀ blocks votes, .importing blocks votes ∈ P.tasks → ∀ b ∈ blocks, b.header ∈ H
  held : ∀ blocks votes, .importing blocks votes ∈ P.tasks → ∀ v ∈ votes,
    Own E P v ∧ ∃ b, (b ∈ chain ∨ b ∈ blocks) ∧ v.For E b

/-- A call of the node extends the chain. -/
theorem Honest.call {c : Node.Call} (h : P.Honest E H chain)
    (hsep : E.crypto.SeparatesHeaders H) (hrel : c.fault = none)
    (hroom : Node.HasRoom E P.node c) (hadopts : ∀ b ∈ Node.adopted E P.node c, b.header ∈ H) :
    Node.Integrity E (P.node.next E c) (chain ++ Node.adopted E P.node c) ∧
      Node.OnlyStores E (P.node.next E c) (chain ++ Node.adopted E P.node c) ∧
      ∀ b ∈ chain ++ Node.adopted E P.node c, b.header ∈ H := by
  have hheaders : ∀ b ∈ chain ++ Node.adopted E P.node c, b.header ∈ H := fun b hb => by
    rcases List.mem_append.mp hb with hb | hb
    · exact h.headers b hb
    · exact hadopts b hb
  have hin : ∀ x ∈ (chain ++ Node.adopted E P.node c).map Block.header, x ∈ H := fun x hx => by
    obtain ⟨b, hb, rfl⟩ := List.mem_map.mp hx
    exact hheaders b hb
  refine ⟨(Node.integrity_step h.integrity hrel hroom fun x hx y hy => ?_).1,
    Node.onlyStores_next h.stores hrel, hheaders⟩
  exact hsep x (hin x hx) y (hin y hy)

/-- Where the node is left alone, and tasks are taken from the old ones. -/
theorem Honest.of_node (h : P.Honest E H chain) {P' : Peer} (hnode : P'.node = P.node)
    (hvalidator : P'.validator = P.validator)
    (htasks : ∀ blocks votes, .importing blocks votes ∈ P'.tasks →
      .importing blocks votes ∈ P.tasks) : P'.Honest E H chain := by
  refine ⟨?_, ?_, h.headers, fun blocks votes ht => h.pending blocks votes (htasks _ _ ht),
    fun blocks votes ht v hv => ?_⟩
  · rw [hnode]
    exact h.integrity
  · rw [hnode]
    exact h.stores
  · obtain ⟨hown, hfor⟩ := h.held blocks votes (htasks _ _ ht) v hv
    unfold Own at hown ⊢
    rw [hvalidator]
    exact ⟨hown, hfor⟩

/-- Where the node makes a call, and tasks are taken from the old ones. -/
theorem Honest.called (h : P.Honest E H chain) {chain' : List Block} {P' : Peer}
    (hsub : chain <+: chain') (hvalidator : P'.validator = P.validator)
    (hcall : Node.Integrity E P'.node chain' ∧ Node.OnlyStores E P'.node chain' ∧
      ∀ b ∈ chain', b.header ∈ H)
    (htasks : ∀ blocks votes, .importing blocks votes ∈ P'.tasks →
      .importing blocks votes ∈ P.tasks) : P'.Honest E H chain' := by
  refine ⟨hcall.1, hcall.2.1, hcall.2.2, fun blocks votes ht =>
    h.pending blocks votes (htasks _ _ ht), fun blocks votes ht v hv => ?_⟩
  obtain ⟨hown, b, hb, hfor⟩ := h.held blocks votes (htasks _ _ ht) v hv
  unfold Own at hown ⊢
  rw [hvalidator]
  exact ⟨hown, b, hb.imp_left fun hb => hsub.subset hb, hfor⟩

/-- What is sent is what a connection without blocks to import has held back. -/
theorem mem_sends_work {io : Io} {i : Nat} {v : Vote} (h : v ∈ P.sends (.work io i)) :
    ∃ votes, P.tasks[i]? = some (.importing [] votes) ∧ v ∈ votes := by
  simp only [sends] at h
  split at h
  · rename_i votes ht
    exact ⟨votes, ht, h⟩
  · exact absurd h List.not_mem_nil

/-- The votes signed for the blocks of a message. -/
theorem mem_signVotes {blocks : List Block} {votes : List Vote}
    (h : P.signVotes E blocks = .ok votes) {v : Vote} (hv : v ∈ votes) :
    Own E P v ∧ ∃ b ∈ blocks, v.For E b := by
  unfold signVotes at h
  cases hkey : P.validator with
  | none =>
    rw [hkey] at h
    cases h
    exact absurd hv List.not_mem_nil
  | some key =>
    rw [hkey] at h
    obtain ⟨_, -, h⟩ := Outcome.bind_eq_ok.mp h
    cases h
    obtain ⟨b, hb, rfl⟩ := List.mem_map.mp hv
    exact ⟨⟨key, hkey, rfl⟩, b, hb, rfl, rfl⟩

/-- **An event keeps an honest peer honest**, extends its chain, and sends votes for blocks of the
    chain only. -/
theorem Honest.next (h : P.Honest E H chain) (hsep : E.crypto.SeparatesHeaders H)
    (hr : P.Regular E H e) :
    ∃ chain', chain <+: chain' ∧ (P.next E e).Honest E H chain' ∧
      ∀ v ∈ P.sends e, Own E P v ∧ ∃ b ∈ chain', v.For E b := by
  have hlock := hr.lock
  have hcalm := hr.calm
  have hstep := next_step (E := E) hlock e
  generalize P.next E e = P' at hstep
  cases hstep with
  | begun blocks votes hvotes =>
    refine ⟨chain, List.prefix_refl _, ⟨h.integrity, h.stores, h.headers, ?_, ?_⟩,
      fun v hv => absurd hv List.not_mem_nil⟩
    · intro blocks' votes' ht b hb
      rcases List.mem_append.mp ht with ht | ht
      · exact h.pending blocks' votes' ht b hb
      · cases List.mem_singleton.mp ht
        exact hr.brings b hb
    · intro blocks' votes' ht v hv
      rcases List.mem_append.mp ht with ht | ht
      · exact h.held blocks' votes' ht v hv
      · cases List.mem_singleton.mp ht
        obtain ⟨hown, b, hb, hfor⟩ := mem_signVotes hvotes hv
        exact ⟨hown, b, Or.inr hb, hfor⟩
  | counted v _ _ =>
    exact ⟨chain, List.prefix_refl _, h.of_node rfl rfl fun _ _ ht => ht,
      fun v hv => absurd hv List.not_mem_nil⟩
  | quorum v _ _ =>
    refine ⟨chain, List.prefix_refl _, h.of_node rfl rfl fun blocks votes ht => ?_,
      fun v hv => absurd hv List.not_mem_nil⟩
    rcases List.mem_append.mp ht with ht | ht
    · exact ht
    · cases List.mem_singleton.mp ht
  | uncounted v _ =>
    exact ⟨chain, List.prefix_refl _, h.of_node rfl rfl fun _ _ ht => ht,
      fun v hv => absurd hv List.not_mem_nil⟩
  | imported io i b rest votes hash htask hok =>
    have hcall := nodeCall_importing hlock io htask
    obtain ⟨hint, hstores, hheaders⟩ := h.call (c := .importBlock io b) hsep hcalm
      (hr.room _ hcall) (hr.adopts _ hcall)
    obtain ⟨a, ha, hid⟩ := Node.imported_mem h.stores hcalm hok
    have htaskin : .importing (b :: rest) votes ∈ P.tasks := List.mem_of_getElem? htask
    have hsame : a.header = b.header :=
      hsep _ (hheaders a ha) _ (h.pending _ _ htaskin b List.mem_cons_self) hid
    refine ⟨_, List.prefix_append _ _, ⟨hint, hstores, hheaders, ?_, ?_⟩, fun v hv => ?_⟩
    · intro blocks' votes' ht b' hb'
      rcases List.mem_or_eq_of_mem_set ht with ht | ht
      · exact h.pending blocks' votes' ht b' hb'
      · cases ht
        exact h.pending _ _ htaskin b' (List.mem_cons_of_mem _ hb')
    · intro blocks' votes' ht v hv
      rcases List.mem_or_eq_of_mem_set ht with ht | ht
      · obtain ⟨hown, b', hb', hfor⟩ := h.held blocks' votes' ht v hv
        exact ⟨hown, b', hb'.imp_left fun hb' => List.mem_append_left _ hb', hfor⟩
      · cases ht
        obtain ⟨hown, b', hb', hfor⟩ := h.held _ _ htaskin v hv
        rcases hb' with hb' | hb'
        · exact ⟨hown, b', Or.inl (List.mem_append_left _ hb'), hfor⟩
        · rcases List.mem_cons.mp hb' with rfl | hb'
          · refine ⟨hown, a, Or.inl ha, ?_⟩
            unfold Vote.For at hfor ⊢
            rw [hsame]
            exact hfor
          · exact ⟨hown, b', Or.inr hb', hfor⟩
    · obtain ⟨votes', ht, -⟩ := mem_sends_work hv
      rw [htask] at ht
      cases ht
  | failed io i b rest votes poisoned htask =>
    have hcall := nodeCall_importing hlock io htask
    refine ⟨_, List.prefix_append _ _, h.called (List.prefix_append _ _) rfl
      (h.call (c := .importBlock io b) hsep hcalm (hr.room _ hcall) (hr.adopts _ hcall))
      fun _ _ ht => List.mem_of_mem_eraseIdx ht, fun v hv => ?_⟩
    obtain ⟨votes', ht, -⟩ := mem_sends_work hv
    rw [htask] at ht
    cases ht
  | sent io i votes htask =>
    refine ⟨chain, List.prefix_refl _, h.of_node rfl rfl fun _ _ ht =>
      List.mem_of_mem_eraseIdx ht, fun v hv => ?_⟩
    obtain ⟨votes', ht, hv⟩ := mem_sends_work hv
    obtain ⟨hown, b, hb, hfor⟩ := h.held _ _ (List.mem_of_getElem? ht) v hv
    rcases hb with hb | hb
    · exact ⟨hown, b, hb, hfor⟩
    · exact absurd hb List.not_mem_nil
  | finalized io i S poisoned htask =>
    have hcall := nodeCall_finalizing hlock io htask
    refine ⟨_, List.prefix_append _ _, h.called (List.prefix_append _ _) rfl
      (h.call (c := .finalizeVotes io S) hsep hcalm (hr.room _ hcall) (hr.adopts _ hcall))
      fun _ _ ht => List.mem_of_mem_eraseIdx ht, fun v hv => ?_⟩
    obtain ⟨votes', ht, -⟩ := mem_sends_work hv
    rw [htask] at ht
    cases ht
  | absent io i htask =>
    refine ⟨chain, List.prefix_refl _, h, fun v hv => ?_⟩
    obtain ⟨votes', ht, -⟩ := mem_sends_work hv
    rw [htask] at ht
    cases ht
  | called c poisoned =>
    have hcall := nodeCall_called hlock c
    exact ⟨_, List.prefix_append _ _, h.called (List.prefix_append _ _) rfl
      (h.call hsep hcalm.1 (hr.room _ hcall) (hr.adopts _ hcall)) fun _ _ ht => ht,
      fun v hv => absurd hv List.not_mem_nil⟩

end Peer

end WorldstreetChain
