import WorldstreetChain.Node.Integrity

/-!
# Crashes inside a commit

A commit is a list of insertions that become durable in order; a crash keeps a prefix of it. The
tip's hash is the last insertion and the block the first: a node that opens on anything in
between finds the old tip, with the new block already in its store.

* `Node.Durable`, `Node.durable_runs` -- the store of a node opens at the node's tip.
* `Node.Lives` -- a node that may have been restarted and may have crashed before.
* `Node.crash_atomic_iff` -- **when a crash is harmless**: behind the last insertion, or in front of
  the first, where the block can be imported; and for a fresh directory the same.
-/

namespace WorldstreetChain

open Std

namespace Node

variable {E : Env} {n n' : Node} {c : Call} {s : State} {b : Block} {io : Io}

/-! ## 1. The store opens at the tip -/

/-- What a store of this genesis has besides its tip. -/
structure Initialized (E : Env) (genesis : GenesisConfig) (store : Store) : Prop where
  chainId : store.get .metadata Store.metaChainId = some (Postcard.utf8 genesis.chainId)
  genesisHash : ∃ s, State.fromGenesis genesis = .ok s ∧
    store.get .metadata Store.metaGenesisHash =
      some (E.crypto.blockHeaderId (makeGenesisBlock E genesis s).header).bytes.toList
  final : (store.get .metadata Store.metaFinalizedHeight).isSome = true

/-- The store opens at the node's tip. -/
structure Durable (E : Env) (n : Node) : Prop where
  initialized : Initialized E n.genesis n.store
  latestHash : n.store.latestHash = .ok (n.latestHash E)
  stored : n.store.getBlock (n.latestHash E) = .ok n.latestBlock
  latestState : n.store.latestState = .ok n.state.snapshot
  chainId : n.latestBlock.header.chainId = n.genesis.chainId
  root : n.state.stateRoot E = n.latestBlock.header.stateRoot

theorem Durable.latestBlock (h : Durable E n) : n.store.latestBlock = .ok n.latestBlock := by
  rw [Store.latestBlock, h.latestHash]
  exact h.stored

theorem latestHash_congr (hl : n'.latestBlock = n.latestBlock) :
    n'.latestHash E = n.latestHash E := by
  rw [Node.latestHash, hl, Node.latestHash]

/-- An initialized store opens as it is. -/
theorem openDir_initialized {genesis : GenesisConfig} {store : Store}
    (h : Initialized E genesis store) :
    openDir E genesis.chainId genesis store io = ⟨restore E genesis store, store⟩ := by
  obtain ⟨s, hs, hgenesis⟩ := h.genesisHash
  have hensure : store.ensureGenesis E genesis (makeGenesisBlock E genesis s) s.snapshot io.fault =
      ⟨.ok (E.crypto.blockHeaderId (makeGenesisBlock E genesis s).header), store⟩ :=
    Store.ensureGenesis_initialized h.chainId hgenesis h.final
  unfold openDir
  rw [rejectIf_neg (not_not.mpr rfl), Applied.attempt_ok, hs, Outcome.mapErr_ok,
    Applied.attempt_ok]
  simp only [hensure, Outcome.mapErr_ok, Applied.attempt_ok]
  cases restore E genesis store with
  | error e => rfl
  | ok n => rfl

/-- A commit, as far as it gets, leaves a store initialized. -/
theorem Initialized.commit {genesis : GenesisConfig} {store : Store}
    (h : Initialized E genesis store) (s : State) (b : Block) (k : Nat) :
    Initialized E genesis (store.insertAll ((commitWrites E s b).take k)) := by
  obtain ⟨g, hg, hgenesis⟩ := h.genesisHash
  refine ⟨?_, ⟨g, hg, ?_⟩, ?_⟩
  · rw [commitWrites, Store.get_metadata_commit (by decide) (by decide)]
    exact h.chainId
  · rw [commitWrites, Store.get_metadata_commit (by decide) (by decide)]
    exact hgenesis
  · rw [commitWrites, Store.get_metadata_commit (by decide) (by decide)]
    exact h.final

/-- So do the entries of finality. -/
theorem Initialized.finalized {genesis : GenesisConfig} {store : Store}
    (h : Initialized E genesis store) (height : U64) (hash : Hash) (k : Nat) :
    Initialized E genesis (store.insertAll ((Store.finalizedWrites height hash).take k)) := by
  obtain ⟨g, hg, hgenesis⟩ := h.genesisHash
  refine ⟨?_, ⟨g, hg, ?_⟩, ?_⟩
  · rw [Store.get_finalized_take k fun _ => by decide]
    exact h.chainId
  · rw [Store.get_finalized_take k fun _ => by decide]
    exact hgenesis
  · rcases Store.get_insertAll store ((Store.finalizedWrites height hash).take k) .metadata
      Store.metaFinalizedHeight with ⟨w, -, -, -, hget⟩ | ⟨-, hget⟩
    · rw [hget]
      rfl
    · rw [hget]
      exact h.final

theorem Durable.adopted (h : Durable E n) (hext : Extends E n s b) (hn : Adopted E n s b n') :
    Durable E n' := by
  have hinit := h.initialized.commit s b (commitWrites E s b).length
  rw [List.take_length] at hinit
  have hhash : n'.latestHash E = E.crypto.blockHeaderId b.header := by
    rw [Node.latestHash, hn.latestBlock]
  refine ⟨?_, ?_, ?_, ?_, ?_, ?_⟩
  · rw [hn.genesis, hn.store]
    exact hinit
  · rw [hn.store, hhash]
    exact Store.latestHash_commit _ _ _ _
  · rw [hn.store, hhash, hn.latestBlock]
    exact Store.getBlock_commit _ _ _ _
  · rw [hn.store, hn.state]
    exact Store.latestState_commit _ _ _ _
  · rw [hn.latestBlock, hn.genesis]
    exact hext.chainId
  · rw [hn.state, hn.latestBlock, hext.root]

theorem Durable.finalized (h : Durable E n) (height : U64) (hash : Hash) {store : Store}
    (hstore : store = n.store.insertAll (Store.finalizedWrites height hash)) :
    Durable E { n with store } := by
  subst hstore
  have hinit := h.initialized.finalized height hash (Store.finalizedWrites height hash).length
  rw [List.take_length] at hinit
  have hblock : ∀ id, (n.store.insertAll (Store.finalizedWrites height hash)).getBlock id =
      n.store.getBlock id := fun id => by
    unfold Store.getBlock
    rw [Store.get_finalized_of_ne fun ht => by cases ht]
  refine ⟨hinit, ?_, ?_, ?_, h.chainId, h.root⟩
  · have hlatest := h.latestHash
    unfold Store.latestHash Store.metaHash at hlatest ⊢
    rw [Store.get_finalized_of_ne fun _ => by decide]
    exact hlatest
  · exact (hblock _).trans h.stored
  · rw [← h.latestState]
    unfold Store.latestState
    rw [Store.get_finalized_of_ne fun ht => by cases ht]

theorem durable_step (h : Durable E n) (hrel : Reliable n c) : Durable E (n.next E c) := by
  have hstep := next_step (E := E) n c
  generalize n.next E c = n' at hstep
  cases hstep with
  | quiet _ ht _ =>
    obtain ⟨hg, hst, hs, hl⟩ := ht
    refine ⟨?_, ?_, ?_, ?_, ?_, ?_⟩
    · rw [hg, hst]
      exact h.initialized
    · rw [hst, latestHash_congr hl]
      exact h.latestHash
    · rw [hst, latestHash_congr hl, hl]
      exact h.stored
    · rw [hst, hs]
      exact h.latestState
    · rw [hl, hg]
      exact h.chainId
    · rw [hs, hl]
      exact h.root
  | commit s b _ hc _ ha => exact h.adopted hc.extends ha
  | cutOff s b k _ _ hfault _ _ =>
    rw [hrel] at hfault
    cases hfault
  | finalize _ S current _ _ _ _ _ _ hn' =>
    subst hn'
    refine h.finalized S.height (n.latestHash E) ?_
    rw [hrel]
    rfl

theorem initialized_head {genesis : GenesisConfig} (hs : State.fromGenesis genesis = .ok s)
    {hash : Hash} (hhash : hash = E.crypto.blockHeaderId (makeGenesisBlock E genesis s).header) :
    Initialized E genesis ((Store.empty.insertAll
      [⟨.metadata, Store.metaChainId, Postcard.utf8 genesis.chainId⟩,
        ⟨.metadata, Store.metaGenesisHash, hash.bytes.toList⟩]).insertAll
      (Store.finalizedWrites 0 hash)) := by
  subst hhash
  refine ⟨?_, ⟨s, hs, ?_⟩, ?_⟩
  · rw [Store.get_finalized_of_ne fun _ => by decide]
    rfl
  · rw [Store.get_finalized_of_ne fun _ => by decide]
    rfl
  · obtain ⟨value, hvalue, -⟩ := Outcome.bind_eq_ok.mp (Store.finalizedHeight_finalized
      (Store.empty.insertAll [⟨.metadata, Store.metaChainId, Postcard.utf8 genesis.chainId⟩,
        ⟨.metadata, Store.metaGenesisHash, (E.crypto.blockHeaderId
          (makeGenesisBlock E genesis s).header).bytes.toList⟩]) 0 (E.crypto.blockHeaderId
          (makeGenesisBlock E genesis s).header))
    rw [orFail_eq_ok.mp hvalue]
    rfl

theorem durable_fresh {genesis : GenesisConfig} (hs : State.fromGenesis genesis = .ok s) :
    Durable E (fresh E genesis s) := by
  have hinit := (initialized_head (E := E) hs rfl).commit s (makeGenesisBlock E genesis s)
    (commitWrites E s (makeGenesisBlock E genesis s)).length
  rw [List.take_length, ← fresh_store] at hinit
  exact ⟨hinit, Store.latestHash_commit _ _ _ _, Store.getBlock_commit _ _ _ _,
    Store.latestState_commit _ _ _ _, rfl, rfl⟩

/-- **The store of every node opens at the node's tip**, on every run without storage failures. -/
theorem durable_runs {calls : List Call} (h : Durable E n)
    (hrel : EachStep (next E) Reliable n calls) : Durable E (runs (next E) n calls) :=
  hrel.invariant (fun _ _ hc hd => durable_step hd hc) h

/-! ## 2. A crash in a commit -/

/-- The store a crash leaves of the commit of `b` and `s` after its first `k` insertions. -/
def crashed (E : Env) (n : Node) (s : State) (b : Block) (k : Nat) : Store :=
  n.store.insertAll ((commitWrites E s b).take k)

/-- The node opens again, at the tip after the commit or at the tip before it; and in the second
    case the block can be imported and leads to the state after it. -/
def OpensAgain (E : Env) (io : Io) (n : Node) (s : State) (b : Block) (store : Store) : Prop :=
  ∃ m store', openDir E n.genesis.chainId n.genesis store io = ⟨.ok m, store'⟩ ∧
    ((m.latestBlock = b ∧ m.state = s) ∨
      (m.latestBlock = n.latestBlock ∧ m.state = n.state ∧
        ∃ hash m', m.importBlock E io b = ⟨.ok hash, m'⟩ ∧ m'.latestBlock = b ∧ m'.state = s))

theorem replay_congr (hg : n'.genesis = n.genesis) (hs : n'.state = n.state)
    (hl : n'.latestBlock = n.latestBlock) (b : Block) : n'.replay E b = n.replay E b := by
  unfold replay checkPosition checkProposer latestHash
  rw [hg, hs, hl]

/-- Behind the last insertion the node opens at the new tip. -/
theorem opensAgain_of_length_le (h : Durable E n) (hext : Extends E n s b) {k : Nat}
    (hk : (commitWrites E s b).length ≤ k) : OpensAgain E io n s b (crashed E n s b k) := by
  have hinit : Initialized E n.genesis (crashed E n s b k) := h.initialized.commit s b k
  have hall : crashed E n s b k = n.store.insertAll (commitWrites E s b) := by
    rw [crashed, List.take_of_length_le hk]
  have hread : restore E n.genesis (crashed E n s b k) =
      .ok (idle n.genesis (crashed E n s b k) s b) := by
    refine restore_eq_ok ?_ ?_ hext.chainId hext.root.symm
    · rw [hall]
      exact latestBlock_commit _ _ _
    · rw [hall]
      exact Store.latestState_commit _ _ _ _
  refine ⟨idle n.genesis (crashed E n s b k) s b, crashed E n s b k, ?_, Or.inl ⟨rfl, rfl⟩⟩
  rw [openDir_initialized hinit, hread]

/-- In front of the first insertion nothing has happened. -/
theorem opensAgain_zero (h : Durable E n) (hio : io.fault = none)
    (hc : Commits E n (.importBlock io b) s b) : OpensAgain E io n s b (crashed E n s b 0) := by
  have hread : restore E n.genesis n.store =
      .ok (idle n.genesis n.store n.state n.latestBlock) :=
    restore_eq_ok h.latestBlock h.latestState h.chainId h.root
  refine ⟨idle n.genesis n.store n.state n.latestBlock, n.store, ?_, Or.inr ⟨rfl, rfl, ?_⟩⟩
  · show openDir E _ _ n.store io = _
    rw [openDir_initialized h.initialized, hread]
  · cases hc with
    | «import» _ _ _ hversion hnew hreplay =>
      have hreplay' : (idle n.genesis n.store n.state n.latestBlock).replay E b = .ok s := by
        rw [← hreplay]
        exact replay_congr rfl rfl rfl b
      have hnew' : ((idle n.genesis n.store n.state n.latestBlock).store.getBlock
          (E.crypto.blockHeaderId b.header)).isOk = false := hnew
      have hr : Reaches io.fault (commitWrites E s b) := fun k hk => by
        rw [hio] at hk
        cases hk
      have ha := adopt_reaches (n := idle n.genesis n.store n.state n.latestBlock) hr
      unfold importBlock
      rw [rejectIf_neg (not_not.mpr hversion), Applied.attempt_ok]
      simp only [hnew', hreplay', ha, Applied.attempt_ok]
      exact ⟨_, _, rfl, rfl, rfl⟩

/-- In between the old tip is found, and the block is already in the store: it is not imported. -/
theorem not_opensAgain (h : Durable E n) (hext : Extends E n s b)
    (hsep : E.crypto.SeparatesHeaders [n.latestBlock.header, b.header]) {k : Nat}
    (hpos : 0 < k) (hlt : k < (commitWrites E s b).length) :
    ¬ OpensAgain E io n s b (crashed E n s b k) := by
  rintro ⟨m, store', hopen, hcase⟩
  have hinit : Initialized E n.genesis (crashed E n s b k) := h.initialized.commit s b k
  rw [openDir_initialized hinit] at hopen
  obtain ⟨b', p, hb', -, -, -, rfl⟩ := restore_cases (congrArg Applied.result hopen)
  have hid : n.latestHash E ≠ E.crypto.blockHeaderId b.header := by
    intro heq
    refine hext.height_ne ?_
    rw [hsep _ (by simp) _ (by simp) heq]
  have hold : (crashed E n s b k).latestBlock = .ok n.latestBlock := by
    have hhash : (crashed E n s b k).latestHash = .ok (n.latestHash E) := by
      rw [crashed, commitWrites, Store.latestHash_commit_of_lt hlt, h.latestHash]
    rw [Store.latestBlock, hhash]
    show (crashed E n s b k).getBlock (n.latestHash E) = _
    rw [crashed, commitWrites, Store.getBlock_commit_of_ne hid]
    exact h.stored
  rw [hold] at hb'
  cases hb'
  have hne : n.latestBlock ≠ b := fun heq => hext.height_ne (by rw [heq])
  rcases hcase with ⟨hlatest, -⟩ | ⟨-, -, hash, m', himport, hlatest, -⟩
  · exact hne hlatest
  · have hstored : ((idle n.genesis (crashed E n s b k) (State.fromSnapshot p)
        n.latestBlock).store.getBlock (E.crypto.blockHeaderId b.header)).isOk = true := by
      show ((crashed E n s b k).getBlock _).isOk = true
      rw [crashed, commitWrites, Store.getBlock_commit_of_pos hpos]
      rfl
    unfold importBlock at himport
    rw [rejectIf_neg (not_not.mpr hext.version), Applied.attempt_ok] at himport
    simp only [hstored, if_true] at himport
    cases himport
    exact hne hlatest

/-- A call of an importer that puts the block at its tip has committed it. -/
theorem commits_of_importBlock {m : Node} {hash : Hash} (hio : io.fault = none)
    (himport : n.importBlock E io b = ⟨.ok hash, m⟩) (hne : n.latestBlock ≠ b)
    (hlatest : m.latestBlock = b) : Commits E n (.importBlock io b) m.state b := by
  have hstep := next_step (E := E) n (.importBlock io b)
  have hnext : n.next E (.importBlock io b) = m := congrArg Applied.state himport
  rw [hnext] at hstep
  cases hstep with
  | quiet _ ht _ => exact absurd (ht.latestBlock.symm.trans hlatest) hne
  | commit s' b' _ hc _ ha =>
    cases hc with
    | «import» _ _ _ hversion hnew hreplay =>
      rw [ha.state]
      exact .import io b s' hversion hnew hreplay
  | cutOff s' b' k _ _ hfault _ _ =>
    have hnone : (Call.importBlock io b).fault = none := hio
    rw [hnone] at hfault
    cases hfault
  | finalize _ _ _ _ _ _ _ _ _ hm =>
    subst hm
    exact absurd hlatest hne

/-- In front of the first insertion, what opens again is what an importer takes. -/
theorem commits_of_opensAgain (h : Durable E n) (hext : Extends E n s b)
    (hio : io.fault = none) (hopens : OpensAgain E io n s b (crashed E n s b 0)) :
    Commits E n (.importBlock io b) s b := by
  obtain ⟨m, store', hopen, hcase⟩ := hopens
  have hread : restore E n.genesis n.store =
      .ok (idle n.genesis n.store n.state n.latestBlock) :=
    restore_eq_ok h.latestBlock h.latestState h.chainId h.root
  have hnone : crashed E n s b 0 = n.store := rfl
  rw [hnone, openDir_initialized h.initialized, hread] at hopen
  cases hopen
  have hne : n.latestBlock ≠ b := fun heq => hext.height_ne (by rw [heq])
  rcases hcase with ⟨hlatest, -⟩ | ⟨-, -, hash, m', himport, hlatest, hstate⟩
  · exact absurd hlatest hne
  · have hc := commits_of_importBlock hio himport hne hlatest
    rw [hstate] at hc
    cases hc with
    | «import» _ _ _ hversion hnew hreplay =>
      refine .import io b s hversion hnew ?_
      rw [← hreplay]
      exact (replay_congr rfl rfl rfl b).symm

/-- The block is new in the store, and its operations lead from the old state to the new one. -/
structure Repeatable (E : Env) (n : Node) (s : State) (b : Block) : Prop where
  new : (n.store.getBlock (E.crypto.blockHeaderId b.header)).isOk = false
  proposer : n.checkProposer E b.header = .ok ()
  execute : execute E n.state b.header.height b.batch = .ok s

theorem checkPosition_extends (hext : Extends E n s b) :
    n.checkPosition E b.header = n.checkProposer E b.header := by
  unfold checkPosition
  rw [rejectIf_neg (not_not.mpr hext.chainId), hext.height]
  refine Eq.trans (b := rejectIf (b.header.height ≠ b.header.height) _ >>= _) rfl ?_
  rw [rejectIf_neg (not_not.mpr rfl)]
  refine Eq.trans (b := rejectIf (b.header.parentHash ≠ n.latestHash E) _ >>= _) rfl ?_
  rw [rejectIf_neg (not_not.mpr hext.parent)]
  rfl

/-- On top of the tip, an importer takes what can be repeated. -/
theorem commits_import_iff (hext : Extends E n s b) :
    Commits E n (.importBlock io b) s b ↔ Repeatable E n s b := by
  constructor
  · intro hc
    cases hc with
    | «import» _ _ _ hversion hnew hreplay =>
      obtain ⟨hposition, hexecute, -, -⟩ := replay_eq_ok.mp hreplay
      rw [checkPosition_extends hext] at hposition
      exact ⟨hnew, hposition, hexecute⟩
  · intro hr
    refine .import io b s hext.version hr.new (replay_eq_ok.mpr ?_)
    rw [checkPosition_extends hext]
    exact ⟨hr.proposer, hr.execute, hext.ids.symm, hext.root.symm⟩

/-- An imported block is repeatable. -/
theorem Commits.repeatable {io' : Io} {b' : Block} (hc : Commits E n (.importBlock io' b') s b) :
    Repeatable E n s b := by
  have hext := hc.extends
  cases hc with
  | «import» _ _ _ hversion hnew hreplay =>
    exact (commits_import_iff hext).mp (.import io' b s hversion hnew hreplay)

/-- **A crash in a commit is harmless** behind its last insertion, and in front of its first if the
    block is repeatable; nowhere else. -/
theorem opensAgain_iff (h : Durable E n) (hext : Extends E n s b)
    (hsep : E.crypto.SeparatesHeaders [n.latestBlock.header, b.header])
    (hio : io.fault = none) (k : Nat) :
    OpensAgain E io n s b (crashed E n s b k) ↔
      (commitWrites E s b).length ≤ k ∨ (k = 0 ∧ Repeatable E n s b) := by
  have hiff : Commits E n (.importBlock io b) s b ↔ Repeatable E n s b := commits_import_iff hext
  rw [← hiff]
  constructor
  · intro hopens
    by_cases hk : (commitWrites E s b).length ≤ k
    · exact Or.inl hk
    · rcases Nat.eq_zero_or_pos k with rfl | hpos
      · exact Or.inr ⟨rfl, commits_of_opensAgain h hext hio hopens⟩
      · exact absurd hopens (not_opensAgain h hext hsep hpos (Nat.not_le.mp hk))
  · rintro (hk | ⟨rfl, hc⟩)
    · exact opensAgain_of_length_le h hext hk
    · exact opensAgain_zero h hio hc

/-! ## 3. A crash while a directory is initialized -/

/-- The store a crash leaves of a fresh directory after its first `k` insertions. -/
def crashedGenesis (E : Env) (genesis : GenesisConfig) (s : State) (k : Nat) : Store :=
  Store.empty.insertAll ((Store.genesisWrites E genesis
    (E.crypto.blockHeaderId (makeGenesisBlock E genesis s).header) (makeGenesisBlock E genesis s)
    s.snapshot).take k)

/-- A store that has no tip does not open. -/
theorem restore_ne_ok {genesis : GenesisConfig} {store : Store}
    (h : store.get .metadata Store.metaLatestHash = none) : restore E genesis store ≠ .ok n := by
  intro hread
  obtain ⟨b, -, hb, -⟩ := restore_cases hread
  unfold Store.latestBlock Store.latestHash Store.metaHash at hb
  rw [h] at hb
  cases hb

/-- **A directory whose initialization was cut off does not open any more.** -/
theorem openDir_crashedGenesis {genesis : GenesisConfig} {store : Store} {k : Nat}
    (hpos : 0 < k) (hlt : k < (Store.genesisWrites E genesis
      (E.crypto.blockHeaderId (makeGenesisBlock E genesis s).header) (makeGenesisBlock E genesis s)
      s.snapshot).length) :
    openDir E genesis.chainId genesis (crashedGenesis E genesis s k) io ≠ ⟨.ok n, store⟩ := by
  intro hopen
  have hchain : ((crashedGenesis E genesis s k).get .metadata Store.metaChainId).isSome = true :=
    Store.chainId_genesis_of_pos hpos
  have hlatest : (crashedGenesis E genesis s k).get .metadata Store.metaLatestHash = none :=
    Store.latestHash_genesis_of_lt hlt
  unfold openDir at hopen
  obtain ⟨_, -, hopen⟩ := Applied.attempt_eq_ok.mp hopen
  obtain ⟨s', -, hopen⟩ := Applied.attempt_eq_ok.mp hopen
  obtain ⟨_, -, hopen⟩ := Applied.attempt_eq_ok.mp hopen
  obtain ⟨n', hread, -⟩ := Applied.attempt_eq_ok.mp hopen
  refine restore_ne_ok ?_ hread
  rw [Store.ensureGenesis_latestHash hchain, hlatest]

/-- A directory that nothing or everything has been written to opens at the genesis block. -/
theorem openDir_crashedGenesis_iff {genesis : GenesisConfig}
    (hs : State.fromGenesis genesis = .ok s) (hio : io.fault = none) (k : Nat) :
    (∃ m store, openDir E genesis.chainId genesis (crashedGenesis E genesis s k) io =
        ⟨.ok m, store⟩ ∧ m.latestBlock = makeGenesisBlock E genesis s ∧ m.state = s) ↔
      k = 0 ∨ (Store.genesisWrites E genesis
        (E.crypto.blockHeaderId (makeGenesisBlock E genesis s).header)
        (makeGenesisBlock E genesis s) s.snapshot).length ≤ k := by
  constructor
  · rintro ⟨m, store, hopen, -⟩
    by_contra hk
    obtain ⟨hzero, hlt⟩ := not_or.mp hk
    exact openDir_crashedGenesis (Nat.pos_of_ne_zero hzero) (Nat.not_le.mp hlt) hopen
  · rintro (rfl | hk)
    · exact ⟨fresh E genesis s, _, openDir_fresh hs hio, rfl, rfl⟩
    · have hall : crashedGenesis E genesis s k = (fresh E genesis s).store := by
        rw [crashedGenesis, List.take_of_length_le hk]
        rfl
      have hd := durable_fresh (E := E) hs
      have hinit : Initialized E genesis (fresh E genesis s).store := hd.initialized
      have hread : restore E genesis (fresh E genesis s).store = .ok (fresh E genesis s) :=
        restore_eq_ok hd.latestBlock hd.latestState hd.chainId hd.root
      refine ⟨fresh E genesis s, (fresh E genesis s).store, ?_, rfl, rfl⟩
      rw [hall, openDir_initialized hinit, hread]

/-! ## 4. Nodes that have lived through crashes -/

/-- A node on a directory of this genesis: opened on a fresh one, after a call, opened again, or
    opened after a crash in a commit. -/
inductive Lives (E : Env) (genesis : GenesisConfig) : Node → Prop where
  | opened {n : Node} {store : Store} (io : Io)
      (hopen : openDir E genesis.chainId genesis .empty io = ⟨.ok n, store⟩) : Lives E genesis n
  | call {n : Node} (h : Lives E genesis n) (c : Call) (hrel : c.fault = none) :
      Lives E genesis (n.next E c)
  | reopened {n m : Node} {store : Store} (h : Lives E genesis n) (io : Io)
      (hopen : openDir E genesis.chainId genesis n.store io = ⟨.ok m, store⟩) : Lives E genesis m
  | crashed {n m : Node} {store : Store} {c : Call} {s : State} {b : Block}
      (h : Lives E genesis n) (hc : Commits E n c s b) (k : Nat) (io : Io)
      (hopen : openDir E genesis.chainId genesis (crashed E n s b k) io = ⟨.ok m, store⟩) :
      Lives E genesis m

/-- What opens on an initialized store is durable, where the tip's block is under its own id. -/
theorem durable_opened {genesis : GenesisConfig} {store store' : Store}
    (hinit : Initialized E genesis store)
    (hid : ∀ b, store.latestBlock = .ok b →
      store.latestHash = .ok (E.crypto.blockHeaderId b.header))
    (hopen : openDir E genesis.chainId genesis store io = ⟨.ok n, store'⟩) :
    Durable E n ∧ n.genesis = genesis := by
  rw [openDir_initialized hinit] at hopen
  obtain ⟨b, p, hb, hp, hchain, hroot, rfl⟩ := restore_cases (congrArg Applied.result hopen)
  have hhash := hid b hb
  have hstored : store.getBlock (E.crypto.blockHeaderId b.header) = .ok b := by
    rw [Store.latestBlock, hhash] at hb
    exact hb
  exact ⟨⟨hinit, hhash, hstored, hp, hchain, hroot⟩, rfl⟩

/-- A crash leaves at the tip a block under its own id. -/
theorem latestHash_crashed (h : Durable E n) (s : State) (b : Block) (k : Nat) {b' : Block}
    (hb' : (crashed E n s b k).latestBlock = .ok b') :
    (crashed E n s b k).latestHash = .ok (E.crypto.blockHeaderId b'.header) := by
  by_cases hk : k < (commitWrites E s b).length
  · have hhash : (crashed E n s b k).latestHash = .ok (n.latestHash E) := by
      rw [crashed, commitWrites, Store.latestHash_commit_of_lt hk, h.latestHash]
    have hget : (crashed E n s b k).getBlock (n.latestHash E) = .ok b' := by
      rw [Store.latestBlock, hhash] at hb'
      exact hb'
    rw [hhash]
    rcases Store.getBlock_commit_cases (E := E) n.store (E.crypto.blockHeaderId b.header) b
      s.snapshot k (n.latestHash E) with ⟨hid, hnew⟩ | hold
    · have heq := hnew.symm.trans hget
      cases heq
      rw [hid]
    · have heq := (hold.trans h.stored).symm.trans hget
      cases heq
      rfl
  · have hall : crashed E n s b k = n.store.insertAll (commitWrites E s b) := by
      rw [crashed, List.take_of_length_le (Nat.not_lt.mp hk)]
    rw [hall] at hb' ⊢
    rw [latestBlock_commit] at hb'
    cases hb'
    exact Store.latestHash_commit _ _ _ _

theorem genesis_next (n : Node) (c : Call) : (n.next E c).genesis = n.genesis := by
  have hstep := next_step (E := E) n c
  generalize n.next E c = n' at hstep
  cases hstep with
  | quiet _ ht _ => exact ht.genesis
  | commit s b _ _ _ ha => exact ha.genesis
  | cutOff s b k _ _ _ _ hcut => exact hcut.genesis
  | finalize _ S current _ _ _ _ _ _ hn' => rw [hn']

/-- **Every living node is durable**, however often it has crashed. -/
theorem Lives.durable {genesis : GenesisConfig} (h : Lives E genesis n) :
    Durable E n ∧ n.genesis = genesis := by
  induction h with
  | opened io hopen =>
    obtain ⟨s, hs, rfl⟩ := openDir_empty hopen
    exact ⟨durable_fresh hs, rfl⟩
  | @call n _ c hrel ih =>
    refine ⟨durable_step ih.1 hrel, ?_⟩
    rw [genesis_next, ih.2]
  | reopened _ io hopen ih =>
    obtain ⟨hd, rfl⟩ := ih
    refine durable_opened hd.initialized (fun b hb => ?_) hopen
    rw [hd.latestBlock] at hb
    cases hb
    exact hd.latestHash
  | @crashed n m store c s b _ hc k io hopen ih =>
    obtain ⟨hd, rfl⟩ := ih
    exact durable_opened (hd.initialized.commit s b k)
      (fun b' hb' => latestHash_crashed hd s b k hb') hopen

/-- **Crash atomicity of a commit.** On every living node and for every block a call commits there,
    the directory opens after a crash, at the new tip or at the old one with the block still to be
    had, exactly if the crash came behind the last insertion, or in front of the first and the
    block is repeatable. A directory that is being initialized opens exactly if nothing or
    everything has been written. -/
theorem crash_atomic_iff {genesis : GenesisConfig} {g : State}
    (hg : State.fromGenesis genesis = .ok g) (now : U64) :
    (∀ n c s b, Lives E genesis n → Commits E n c s b →
      E.crypto.SeparatesHeaders [n.latestBlock.header, b.header] → ∀ k,
        (OpensAgain E ⟨now, none⟩ n s b (crashed E n s b k) ↔
          (commitWrites E s b).length ≤ k ∨ (k = 0 ∧ Repeatable E n s b))) ∧
    ∀ k, (∃ m store, openDir E genesis.chainId genesis (crashedGenesis E genesis g k) ⟨now, none⟩ =
        ⟨.ok m, store⟩ ∧ m.latestBlock = makeGenesisBlock E genesis g ∧ m.state = g) ↔
      k = 0 ∨ (Store.genesisWrites E genesis
        (E.crypto.blockHeaderId (makeGenesisBlock E genesis g).header)
        (makeGenesisBlock E genesis g) g.snapshot).length ≤ k := by
  refine ⟨fun n c s b hlives hc hsep k => ?_, openDir_crashedGenesis_iff hg rfl⟩
  exact opensAgain_iff hlives.durable.1 hc.extends hsep rfl k

end Node

/-! ## 5. A block of one tick, and one with operations -/

namespace Sample

def tickBlock : Block :=
  Batch.empty.toBlock (taggedNode.makeHeader tagged ⟨2, none⟩ 1 (genesisState 1) .empty none)

theorem taggedNode_lives : Node.Lives tagged (genesis 1) taggedNode :=
  .opened ⟨1, none⟩ Node.openDir_taggedNode

theorem commits_tick : Node.Commits tagged taggedNode tick (genesisState 1) tickBlock :=
  .produce ⟨2, none⟩ none (genesisState 1) .empty 1 (by decide) rfl rfl

theorem tickBlock_separates :
    tagged.crypto.SeparatesHeaders [taggedNode.latestBlock.header, tickBlock.header] := by
  have hne : taggedNode.latestBlock.header.height ≠ tickBlock.header.height := by decide
  intro h hh h' hh' heq
  have hheight := (tagged_binds heq).1
  simp only [List.mem_cons, List.not_mem_nil, or_false] at hh hh'
  rcases hh with rfl | rfl
  · rcases hh' with rfl | rfl
    · rfl
    · exact absurd hheight hne
  · rcases hh' with rfl | rfl
    · exact absurd hheight.symm hne
    · rfl

/-- The node with a mint and a transfer in its queues. -/
def busyNode : Node :=
  (taggedNode.next tagged (.submitAssetOperation (bridge .mint 1 usdc 200))).next tagged
    (.submitTransaction (transfer 0 otherAddress 10 1))

/-- The block it makes of them arrives from elsewhere. -/
def busyImport : Node.Call := .importBlock ⟨3, none⟩ (busyNode.next tagged tick).latestBlock

def busyBlock : Block := (busyNode.next tagged busyImport).latestBlock

def busyState : State := (busyNode.next tagged busyImport).state

theorem busyNode_lives : Node.Lives tagged (genesis 1) busyNode :=
  (taggedNode_lives.call (.submitAssetOperation _) rfl).call (.submitTransaction _) rfl

theorem evaluated_busy :
    busyBlock ≠ busyNode.latestBlock ∧
      (∀ x ∈ [busyNode.latestBlock.header, busyBlock.header],
        ∀ y ∈ [busyNode.latestBlock.header, busyBlock.header], x.height = y.height → x = y) ∧
      busyBlock.transactions.length = 1 ∧ busyBlock.assetOperations.length = 1 := by
  decide +kernel

theorem commits_busy : Node.Commits tagged busyNode busyImport busyState busyBlock :=
  Node.commits_of_moved rfl evaluated_busy.1

end Sample

namespace Node

/-- Behind its six insertions the block is there; in front of them it can still be had. -/
theorem crash_around_import :
    OpensAgain Sample.tagged ⟨3, none⟩ Sample.busyNode Sample.busyState Sample.busyBlock
        (crashed Sample.tagged Sample.busyNode Sample.busyState Sample.busyBlock 6) ∧
      OpensAgain Sample.tagged ⟨3, none⟩ Sample.busyNode Sample.busyState Sample.busyBlock
        (crashed Sample.tagged Sample.busyNode Sample.busyState Sample.busyBlock 0) := by
  obtain ⟨-, hheights, hlength, -⟩ := Sample.evaluated_busy
  have hiff := (crash_atomic_iff (Sample.fromGenesis_genesis 1) 3).1 Sample.busyNode
    Sample.busyImport Sample.busyState Sample.busyBlock Sample.busyNode_lives Sample.commits_busy
    (Sample.separates_of_heights hheights)
  refine ⟨(hiff 6).mpr (Or.inl ?_), (hiff 0).mpr (Or.inr ⟨rfl, Sample.commits_busy.repeatable⟩)⟩
  unfold commitWrites Store.commitWrites
  rw [List.length_append, List.length_append, List.length_map, hlength]
  exact Nat.le_refl 6

/-- **A crash behind the first insertion**: the node opens at the old tip, and the block it was
    about to commit counts as imported without being applied. -/
theorem crash_after_first_insertion :
    Lives Sample.tagged (Sample.genesis 1) Sample.taggedNode ∧
      Commits Sample.tagged Sample.taggedNode Sample.tick (Sample.genesisState 1)
        Sample.tickBlock ∧
      Sample.tagged.crypto.SeparatesHeaders
        [Sample.taggedNode.latestBlock.header, Sample.tickBlock.header] ∧
      ¬ OpensAgain Sample.tagged ⟨3, none⟩ Sample.taggedNode (Sample.genesisState 1)
        Sample.tickBlock
        (crashed Sample.tagged Sample.taggedNode (Sample.genesisState 1) Sample.tickBlock 1) := by
  refine ⟨Sample.taggedNode_lives, Sample.commits_tick, Sample.tickBlock_separates, ?_⟩
  exact not_opensAgain Sample.taggedNode_lives.durable.1 Sample.commits_tick.extends
    Sample.tickBlock_separates (by decide) (by decide)

end Node

end WorldstreetChain
