import WorldstreetChain.Node.Run

/-!
# The stored chain

Blocks are written by three calls, finality by a fourth, into five trees. Whatever their order, the
height index describes one chain from the genesis block to the tip, and finality moves along it.

* `Node.Integrity` -- the store and the tip describe this list of blocks.
* `Node.integrity_step` -- **a call keeps it**, as long as the heights do not run out.
* `Node.chain_integrity` -- **the result**: on every run of a fresh node, the index, the links, the
  stored state and the finality entries are right, no entry is replaced and finality never
  goes back.
-/

namespace WorldstreetChain

open Std

namespace Node

variable {E : Env} {n n' : Node} {c : Call} {s : State} {b : Block} {chain : List Block}

/-! ## 1. The invariant -/

/-- The store and the tip describe the blocks of `chain`, the genesis block first. -/
structure Integrity (E : Env) (n : Node) (chain : List Block) : Prop where
  tip : chain.getLast? = some n.latestBlock
  heights : ∀ (i : Nat) (b : Block), chain[i]? = some b → b.header.height.toNat = i
  linked : ∀ (i : Nat) (a b : Block), chain[i]? = some a → chain[i + 1]? = some b →
    b.header.parentHash = E.crypto.blockHeaderId a.header
  stored : ∀ b ∈ chain, n.store.getBlock (E.crypto.blockHeaderId b.header) = .ok b
  index : ∀ b ∈ chain, n.store.get .heights (heightKey b.header.height) =
    some (E.crypto.blockHeaderId b.header).bytes.toList
  exact : ∀ key value, n.store.get .heights key = some value →
    ∃ b ∈ chain, key = heightKey b.header.height
  latestBlock : n.store.latestBlock = .ok n.latestBlock
  latestState : n.store.latestState = .ok n.state.snapshot
  root : n.state.stateRoot E = n.latestBlock.header.stateRoot
  final : ∃ b ∈ chain, n.store.finalizedHeight = .ok b.header.height ∧
    n.store.finalizedHash = .ok (E.crypto.blockHeaderId b.header)

theorem Integrity.length (h : Integrity E n chain) :
    chain.length = n.latestBlock.header.height.toNat + 1 := by
  have htip := h.tip
  rw [List.getLast?_eq_getElem?] at htip
  have hlast := h.heights _ _ htip
  have hpos : chain ≠ [] := by
    rintro rfl
    cases htip
  have := List.length_pos_iff.mpr hpos
  omega

theorem Integrity.height_lt (h : Integrity E n chain) (hb : b ∈ chain) :
    b.header.height.toNat < chain.length := by
  obtain ⟨i, hi⟩ := List.mem_iff_getElem?.mp hb
  rw [h.heights i b hi]
  exact (List.getElem?_eq_some_iff.mp hi).1

/-- Whatever only moves the queues keeps it. -/
theorem Integrity.of_sameTip (h : Integrity E n chain) (ht : SameTip n n') :
    Integrity E n' chain := by
  obtain ⟨hg, hst, hs, hl⟩ := ht
  refine ⟨hl ▸ h.tip, h.heights, h.linked, ?_, ?_, ?_, ?_, ?_, ?_, ?_⟩
  · rw [hst]
    exact h.stored
  · rw [hst]
    exact h.index
  · rw [hst]
    exact h.exact
  · rw [hst, hl]
    exact h.latestBlock
  · rw [hst, hs]
    exact h.latestState
  · rw [hs, hl]
    exact h.root
  · rw [hst]
    exact h.final

/-! ## 2. A commit -/

theorem take_commitWrites (s : State) (b : Block) :
    (Store.commitWrites E (E.crypto.blockHeaderId b.header) b s.snapshot).take
      (commitWrites E s b).length = commitWrites E s b :=
  List.take_length

theorem finality_adopted (store : Store) (s : State) (b : Block) :
    (store.insertAll (commitWrites E s b)).finalizedHeight = store.finalizedHeight ∧
      (store.insertAll (commitWrites E s b)).finalizedHash = store.finalizedHash := by
  rw [← take_commitWrites]
  exact Store.finality_commit _

/-- The block above the tip, while the heights do not run out. -/
theorem Extends.height_succ (h : Extends E n s b)
    (hroom : n.latestBlock.header.height.toNat + 1 < 2 ^ 64) :
    b.header.height.toNat = n.latestBlock.header.height.toNat + 1 := by
  have hone : (1 : U64).toNat = 1 := rfl
  rcases Unsigned.add_eq_ok h.height with hadd | ⟨-, hwrap, -⟩
  · omega
  · omega

/-- **A committed block extends the chain.** -/
theorem Integrity.adopted (h : Integrity E n chain) (hext : Extends E n s b)
    (hroom : n.latestBlock.header.height.toNat + 1 < 2 ^ 64)
    (hsep : E.crypto.SeparatesHeaders ((chain ++ [b]).map Block.header))
    (hn : Adopted E n s b n') : Integrity E n' (chain ++ [b]) := by
  obtain ⟨-, hstore, hstate, hblock⟩ := hn
  have hlength := h.length
  have hheight := hext.height_succ hroom
  have hother : ∀ a ∈ chain, a.header.height ≠ b.header.height := fun a ha heq => by
    have hlt := h.height_lt ha
    rw [heq] at hlt
    omega
  have hid : ∀ a ∈ chain, E.crypto.blockHeaderId a.header ≠ E.crypto.blockHeaderId b.header :=
    fun a ha heq => hother a ha (congrArg BlockHeader.height
      (hsep _ (List.mem_map_of_mem (List.mem_append_left _ ha)) _
        (List.mem_map_of_mem (List.mem_append_right _ List.mem_cons_self)) heq))
  have hget : ∀ i a, (chain ++ [b])[i]? = some a → chain[i]? = some a ∨
      (i = chain.length ∧ a = b) := by
    intro i a hi
    rcases Nat.lt_trichotomy i chain.length with hlt | heq | hgt
    · exact Or.inl (List.getElem?_append_left hlt ▸ hi)
    · subst heq
      rw [List.getElem?_concat_length] at hi
      exact Or.inr ⟨rfl, (Option.some.inj hi).symm⟩
    · rw [List.getElem?_eq_none (by simp; omega)] at hi
      cases hi
  have hstores : n'.store.getBlock (E.crypto.blockHeaderId b.header) = .ok b := by
    rw [hstore]
    exact Store.getBlock_commit _ _ _ _
  have hindex : ∀ key, n'.store.get .heights key = if key = heightKey b.header.height
      then some (E.crypto.blockHeaderId b.header).bytes.toList else n.store.get .heights key := by
    intro key
    rw [hstore]
    exact Store.get_heights_commit _ _ _ _ key
  refine ⟨?_, ?_, ?_, ?_, ?_, ?_, ?_, ?_, ?_, ?_⟩
  · rw [List.getLast?_concat, hblock]
  · intro i a hi
    rcases hget i a hi with hi | ⟨rfl, rfl⟩
    · exact h.heights i a hi
    · omega
  · intro i a a' hi hi'
    rcases hget (i + 1) a' hi' with hi'' | ⟨hlast, rfl⟩
    · rcases hget i a hi with hi | ⟨rfl, rfl⟩
      · exact h.linked i a a' hi hi''
      · rw [List.getElem?_eq_none (by omega)] at hi''
        cases hi''
    · rcases hget i a hi with hi | ⟨rfl, rfl⟩
      · have htip := h.tip
        rw [List.getLast?_eq_getElem?, ← hlast, Nat.add_sub_cancel, hi] at htip
        rw [hext.parent, Option.some.inj htip]
        rfl
      · omega
  · intro a ha
    rcases List.mem_append.mp ha with ha | ha
    · rw [hstore, ← take_commitWrites, Store.getBlock_commit_of_ne (hid a ha)]
      exact h.stored a ha
    · rw [List.mem_singleton.mp ha]
      exact hstores
  · intro a ha
    rw [hindex]
    rcases List.mem_append.mp ha with ha | ha
    · rw [if_neg fun hk => hother a ha (Store.heightKey_inj hk)]
      exact h.index a ha
    · rw [List.mem_singleton.mp ha, if_pos rfl]
  · intro key value hkey
    rw [hindex] at hkey
    by_cases hk : key = heightKey b.header.height
    · exact ⟨b, List.mem_append_right _ List.mem_cons_self, hk⟩
    · rw [if_neg hk] at hkey
      obtain ⟨a, ha, heq⟩ := h.exact key value hkey
      exact ⟨a, List.mem_append_left _ ha, heq⟩
  · rw [hstore, hblock]
    exact latestBlock_commit _ _ _
  · rw [hstore, hstate]
    exact Store.latestState_commit _ _ _ _
  · rw [hstate, hblock, hext.root]
  · obtain ⟨a, ha, hfh, hfid⟩ := h.final
    obtain ⟨hkh, hkid⟩ := finality_adopted n.store s b
    exact ⟨a, List.mem_append_left _ ha, by rw [hstore, hkh, hfh], by rw [hstore, hkid, hfid]⟩

/-! ## 3. Finality -/

theorem checkVotes_eq_ok {S : VoteSet} (h : n.checkVotes E S = .ok ()) :
    S.height = n.latestBlock.header.height ∧ S.blockHash = n.latestHash E ∧
      S.isQuorum n.validatorSet = true ∧
      n.validateVotes E S (n.latestHash E) (S.votes.toList.map Prod.snd) = .ok () := by
  unfold checkVotes at h
  obtain ⟨hheight, h⟩ := rejectIf_bind_eq_ok.mp h
  obtain ⟨hhash, h⟩ := rejectIf_bind_eq_ok.mp h
  obtain ⟨hquorum, h⟩ := rejectIf_bind_eq_ok.mp h
  exact ⟨not_not.mp hheight, not_not.mp hhash, by simpa using hquorum, h⟩

/-- Marking the tip final keeps it. -/
theorem Integrity.finalized (h : Integrity E n chain) {store : Store}
    (hstore : store = n.store.insertAll
      (Store.finalizedWrites n.latestBlock.header.height (n.latestHash E))) :
    Integrity E { n with store } chain := by
  subst hstore
  have hget : ∀ t key, (t = .metadata → key ≠ Store.metaFinalizedHeight ∧
      key ≠ Store.metaFinalizedHash) → (n.store.insertAll
        (Store.finalizedWrites n.latestBlock.header.height (n.latestHash E))).get t key =
          n.store.get t key :=
    fun t key hkey => Store.get_finalized_of_ne hkey
  have hblock : ∀ hash, (n.store.insertAll (Store.finalizedWrites n.latestBlock.header.height
      (n.latestHash E))).getBlock hash = n.store.getBlock hash := fun hash => by
    unfold Store.getBlock
    rw [hget .blocks _ (fun ht => by cases ht)]
  refine ⟨h.tip, h.heights, h.linked, fun a ha => ?_, fun a ha => ?_, fun key value hk => ?_, ?_,
    ?_, h.root, ?_⟩
  · rw [hblock]
    exact h.stored a ha
  · rw [hget .heights _ (fun ht => by cases ht)]
    exact h.index a ha
  · rw [hget .heights _ (fun ht => by cases ht)] at hk
    exact h.exact key value hk
  · rw [← h.latestBlock]
    unfold Store.latestBlock Store.latestHash Store.metaHash
    simp only [hblock]
    rw [hget .metadata _ (fun _ => by decide)]
  · rw [← h.latestState]
    unfold Store.latestState
    rw [hget .state _ (fun ht => by cases ht)]
  · refine ⟨n.latestBlock, List.mem_of_getLast? h.tip, ?_, ?_⟩
    · exact Store.finalizedHeight_finalized _ _ _
    · exact Store.finalizedHash_finalized _ _ _

/-! ## 4. Runs -/

/-- The call commits no block on top of the greatest height. -/
def HasRoom (E : Env) (n : Node) (c : Call) : Prop :=
  ∀ s b, Commits E n c s b → n.latestBlock.header.height.toNat + 1 < 2 ^ 64

/-- No entry of the index is replaced or lost, and finality does not go back. -/
structure Keeps (n n' : Node) : Prop where
  index : ∀ key value, n.store.get .heights key = some value →
    n'.store.get .heights key = some value
  final : ∀ height height', n.store.finalizedHeight = .ok height →
    n'.store.finalizedHeight = .ok height' → height ≤ height'

theorem Keeps.of_sameTip (h : SameTip n n') : Keeps n n' := by
  refine ⟨fun key value hk => ?_, fun height height' hh hh' => ?_⟩
  · rw [h.store]
    exact hk
  · rw [h.store, hh] at hh'
    rw [Except.ok.inj hh']
    exact BitVec.le_refl _

theorem Integrity.keeps_adopted (h : Integrity E n chain) (hext : Extends E n s b)
    (hroom : n.latestBlock.header.height.toNat + 1 < 2 ^ 64) (hn : Adopted E n s b n') :
    Keeps n n' := by
  have hheight := hext.height_succ hroom
  have hlength := h.length
  refine ⟨fun key value hk => ?_, fun height height' hh hh' => ?_⟩
  · obtain ⟨a, ha, rfl⟩ := h.exact key value hk
    have hlt := h.height_lt ha
    rw [hn.store, commitWrites, Store.get_heights_commit, if_neg fun heq => ?_, hk]
    rw [Store.heightKey_inj heq] at hlt
    omega
  · rw [hn.store, (finality_adopted n.store s b).1, hh] at hh'
    rw [Except.ok.inj hh']
    exact BitVec.le_refl _

/-- **A call keeps the chain**, up to the block it adopts. -/
theorem integrity_step (h : Integrity E n chain) (hrel : Reliable n c) (hroom : HasRoom E n c)
    (hsep : E.crypto.SeparatesHeaders ((chain ++ Node.adopted E n c).map Block.header)) :
    Integrity E (n.next E c) (chain ++ Node.adopted E n c) ∧ Keeps n (n.next E c) := by
  generalize hn : n.next E c = n'
  have hstep := next_step (E := E) n c
  rw [hn] at hstep
  cases hstep with
  | quiet _ htip _ =>
    have hnone : Node.adopted E n c = [] := adopted_of_sameBlock (hn ▸ htip.latestBlock)
    rw [hnone, List.append_nil]
    exact ⟨h.of_sameTip htip, .of_sameTip htip⟩
  | commit s b _ hc _ ha =>
    rw [adopted_of_commits hc (hn ▸ ha.latestBlock)] at hsep ⊢
    exact ⟨h.adopted hc.extends (hroom s b hc) hsep ha,
      h.keeps_adopted hc.extends (hroom s b hc) ha⟩
  | cutOff s b k _ _ hfault _ _ =>
    rw [hrel] at hfault
    cases hfault
  | finalize _ S current _ _ hvotes hcurrent hle _ hn' =>
    have hnone : Node.adopted E n c = [] := adopted_of_sameBlock (by rw [hn, hn'])
    rw [hnone, List.append_nil]
    obtain ⟨hheight, -, -, -⟩ := checkVotes_eq_ok hvotes
    have hstore : (n.store.perform (Store.finalizedWrites S.height (n.latestHash E))
        c.fault).state = n.store.insertAll (Store.finalizedWrites n.latestBlock.header.height
          (n.latestHash E)) := by
      rw [hrel, hheight]
      rfl
    subst hn'
    refine ⟨h.finalized hstore, fun key value hk => ?_, fun height height' hh hh' => ?_⟩
    · show Store.get (n.store.perform _ _).state .heights key = _
      rw [hstore, Store.get_finalized_of_ne (fun ht => by cases ht)]
      exact hk
    · have hmarked : (n.store.perform (Store.finalizedWrites S.height (n.latestHash E))
          c.fault).state.finalizedHeight = .ok height' := hh'
      rw [hstore, Store.finalizedHeight_finalized] at hmarked
      rw [hcurrent] at hh
      rw [← Except.ok.inj hh, ← Except.ok.inj hmarked, ← hheight]
      exact hle

/-- The node of a fresh directory. -/
theorem integrity_fresh (E : Env) (genesis : GenesisConfig) (s : State) :
    Integrity E (fresh E genesis s) [makeGenesisBlock E genesis s] := by
  let block := makeGenesisBlock E genesis s
  let hash := E.crypto.blockHeaderId block.header
  let head : Store := Store.empty.insertAll
    [⟨.metadata, Store.metaChainId, Postcard.utf8 genesis.chainId⟩,
      ⟨.metadata, Store.metaGenesisHash, hash.bytes.toList⟩]
  have hstore : (fresh E genesis s).store =
      (head.insertAll (Store.finalizedWrites 0 hash)).insertAll (commitWrites E s block) :=
    fresh_store E genesis s
  have hindex : ∀ key, (fresh E genesis s).store.get .heights key =
      if key = heightKey 0 then some hash.bytes.toList else none := fun key => by
    rw [hstore, commitWrites, Store.get_heights_commit]
    rfl
  obtain ⟨hheight, hid⟩ := finality_adopted (E := E)
    (head.insertAll (Store.finalizedWrites 0 hash)) s block
  refine ⟨rfl, fun i b hi => ?_, fun i a b hi hi' => ?_, fun b hb => ?_, fun b hb => ?_,
    fun key value hk => ?_, latestBlock_commit _ _ _, Store.latestState_commit _ _ _ _, rfl,
    block, List.mem_singleton_self _, ?_, ?_⟩
  · cases i with
    | zero =>
      cases hi
      rfl
    | succ i => cases hi
  · cases hi'
  · rw [List.mem_singleton.mp hb]
    exact Store.getBlock_commit _ _ _ _
  · rw [List.mem_singleton.mp hb, hindex]
    exact if_pos rfl
  · rw [hindex] at hk
    by_cases hkey : key = heightKey 0
    · exact ⟨block, List.mem_singleton_self _, hkey⟩
    · rw [if_neg hkey] at hk
      cases hk
  · rw [hstore, hheight, Store.finalizedHeight_finalized]
    rfl
  · rw [hstore, hid, Store.finalizedHash_finalized]

/-- **Along a run** the chain is kept in every state. -/
theorem integrity_runs {calls : List Call} (h : Integrity E n chain)
    (hrel : EachStep (next E) Reliable n calls) (hroom : EachStep (next E) (HasRoom E) n calls)
    (hsep : E.crypto.SeparatesHeaders ((chain ++ chainOf.go E n calls).map Block.header)) :
    Throughout (next E) (fun n => ∃ chain, Integrity E n chain) n calls ∧
      EachStep (next E) (fun n c => Keeps n (n.next E c)) n calls := by
  induction calls generalizing n chain with
  | nil => exact ⟨⟨chain, h⟩, trivial⟩
  | cons c calls ih =>
    rw [go_cons, ← List.append_assoc] at hsep
    have hpre : E.crypto.SeparatesHeaders ((chain ++ Node.adopted E n c).map Block.header) := by
      intro x hx y hy
      refine hsep x ?_ y ?_
      · rw [List.map_append]
        exact List.mem_append_left _ hx
      · rw [List.map_append]
        exact List.mem_append_left _ hy
    obtain ⟨hnext, hkeeps⟩ := integrity_step h hrel.1 hroom.1 hpre
    obtain ⟨ht, he⟩ := ih hnext hrel.2 hroom.2 hsep
    exact ⟨⟨⟨chain, h⟩, ht⟩, hkeeps, he⟩

/-! ## 5. The result -/

/-- The stored chain is sound: the index has exactly the heights up to the tip's, each with a stored
    block of that height linked to the one below; the stored state is the tip's; and the finality
    entries name one of these blocks. -/
structure ChainIntegrity (E : Env) (n : Node) : Prop where
  index : ∀ height, height ≤ n.latestBlock.header.height → ∃ b : Block,
    n.store.get .heights (heightKey height) =
        some (E.crypto.blockHeaderId b.header).bytes.toList ∧
      n.store.getBlockByHeight height = .ok b ∧ b.header.height = height
  exact : ∀ key value, n.store.get .heights key = some value →
    ∃ height, height ≤ n.latestBlock.header.height ∧ key = heightKey height
  linked : ∀ height (a b : Block), height < n.latestBlock.header.height →
    n.store.getBlockByHeight height = .ok a → n.store.getBlockByHeight (height + 1) = .ok b →
      b.header.parentHash = E.crypto.blockHeaderId a.header
  tip : n.store.getBlockByHeight n.latestBlock.header.height = .ok n.latestBlock
  latestBlock : n.store.latestBlock = .ok n.latestBlock
  root : ∃ p, n.store.latestState = .ok p ∧
    (State.fromSnapshot p).stateRoot E = n.latestBlock.header.stateRoot
  final : ∃ height b, n.store.finalizedHeight = .ok height ∧
    height ≤ n.latestBlock.header.height ∧ n.store.getBlockByHeight height = .ok b ∧
      n.store.finalizedHash = .ok (E.crypto.blockHeaderId b.header)

theorem Integrity.getBlockByHeight (h : Integrity E n chain) (hb : b ∈ chain) :
    n.store.getBlockByHeight b.header.height = .ok b :=
  (Store.getBlockByHeight_of_get (h.index b hb)).trans (h.stored b hb)

/-- At every height up to the tip's there is a block of the chain. -/
theorem Integrity.exists_height (h : Integrity E n chain) {height : U64}
    (hle : height ≤ n.latestBlock.header.height) :
    ∃ b, chain[height.toNat]? = some b ∧ b ∈ chain ∧ b.header.height = height := by
  have hlt : height.toNat < chain.length := by
    have hnat := BitVec.le_def.mp hle
    have hlength := h.length
    omega
  have hget := List.getElem?_eq_getElem hlt
  exact ⟨_, hget, List.getElem_mem hlt, BitVec.eq_of_toNat_eq (h.heights _ _ hget)⟩

theorem Integrity.le_tip (h : Integrity E n chain) (hb : b ∈ chain) :
    b.header.height ≤ n.latestBlock.header.height := by
  have hlt := h.height_lt hb
  have hlength := h.length
  rw [BitVec.le_def]
  omega

theorem Integrity.chainIntegrity (h : Integrity E n chain) : ChainIntegrity E n where
  index height hle := by
    obtain ⟨b, -, hb, rfl⟩ := h.exists_height hle
    exact ⟨b, h.index b hb, h.getBlockByHeight hb, rfl⟩
  exact key value hk := by
    obtain ⟨b, hb, rfl⟩ := h.exact key value hk
    exact ⟨_, h.le_tip hb, rfl⟩
  linked height a b hlt ha hb := by
    have hnat := BitVec.lt_def.mp hlt
    have hone : (height + 1).toNat = height.toNat + 1 := by
      have hmax := n.latestBlock.header.height.isLt
      rw [BitVec.toNat_add]
      exact Nat.mod_eq_of_lt (by show height.toNat + 1 < 2 ^ 64; omega)
    have hle : height + 1 ≤ n.latestBlock.header.height := by
      rw [BitVec.le_def]
      omega
    obtain ⟨a', hget, ha', hheight⟩ := h.exists_height (BitVec.le_of_lt hlt)
    obtain ⟨b', hget', hb', hheight'⟩ := h.exists_height hle
    have hread := h.getBlockByHeight ha'
    have hread' := h.getBlockByHeight hb'
    rw [hheight, ha] at hread
    rw [hheight', hb] at hread'
    cases hread
    cases hread'
    rw [hone] at hget'
    exact h.linked _ a b hget hget'
  tip := h.getBlockByHeight (List.mem_of_getLast? h.tip)
  latestBlock := h.latestBlock
  root := ⟨_, h.latestState, h.root⟩
  final := by
    obtain ⟨b, hb, hheight, hhash⟩ := h.final
    exact ⟨_, b, hheight, h.le_tip hb, h.getBlockByHeight hb, hhash⟩

theorem throughout_mono {P Q : Node → Prop} (hPQ : ∀ n, P n → Q n) {calls : List Call}
    (h : Throughout (next E) P n calls) : Throughout (next E) Q n calls :=
  throughout_iff.mpr fun pre hpre => hPQ _ (throughout_iff.mp h pre hpre)

/-- **Chain integrity and finality.** On every run of a node opened on a fresh directory whose
    storage calls do not fail, whose block ids do not collide, and which commits no block on top
    of the greatest height, the stored chain is sound in every state, no entry of the index is
    replaced, and finality does not go back. -/
theorem chain_integrity {configChainId : String} {genesis : GenesisConfig} {store : Store}
    {io : Io} {calls : List Call}
    (hopen : openDir E configChainId genesis .empty io = ⟨.ok n, store⟩)
    (hrel : EachStep (next E) Reliable n calls) (hroom : EachStep (next E) (HasRoom E) n calls)
    (hsep : E.crypto.SeparatesHeaders ((chainOf E n calls).map Block.header)) :
    Throughout (next E) (ChainIntegrity E) n calls ∧
      EachStep (next E) (fun n c => Keeps n (n.next E c)) n calls := by
  obtain ⟨s, -, rfl⟩ := openDir_empty hopen
  obtain ⟨ht, he⟩ := integrity_runs (integrity_fresh E genesis s) hrel hroom hsep
  exact ⟨throughout_mono (fun n ⟨chain, h⟩ => h.chainIntegrity) ht, he⟩

end Node

/-! ## 6. A chain of empty blocks

Digests of headers are their heights and times, so that the ids of a long chain can be told
apart. -/

namespace Sample

def tagged : Env :=
  { Env.standIn with
    crypto := { Crypto.standIn with
      sha256 := fun bytes =>
        match (canonicalDecode (bytes.drop (Postcard.utf8 "MNA/block/v1").length) :
          Option BlockHeader) with
        | some h =>
          ⟨(heightKey h.height ++ heightKey h.timestamp ++ List.replicate 16 0).toArray,
            by simp [heightKey]⟩
        | none => Crypto.standIn.sha256 bytes } }

theorem tagged_blockHeaderId (h : BlockHeader) :
    (tagged.crypto.blockHeaderId h).bytes.toList =
      heightKey h.height ++ heightKey h.timestamp ++ List.replicate 16 0 := by
  have hdrop : (Postcard.utf8 "MNA/block/v1" ++ canonicalEncode h).drop
      (Postcard.utf8 "MNA/block/v1").length = canonicalEncode h := List.drop_left
  unfold Crypto.blockHeaderId Crypto.sha256Domain tagged
  simp only [hdrop, canonicalDecode_canonicalEncode]
  rfl

/-- Ids bind height and time. -/
theorem tagged_binds {h h' : BlockHeader}
    (heq : tagged.crypto.blockHeaderId h = tagged.crypto.blockHeaderId h') :
    h.height = h'.height ∧ h.timestamp = h'.timestamp := by
  have hl := congrArg (fun id : Hash => id.bytes.toList) heq
  simp only [tagged_blockHeaderId, List.append_assoc] at hl
  have hlength : ∀ a b : U64, (heightKey a).length = (heightKey b).length := fun a b => by
    simp [heightKey]
  obtain ⟨hheight, hrest⟩ := List.append_inj hl (hlength _ _)
  obtain ⟨htime, -⟩ := List.append_inj hrest (hlength _ _)
  exact ⟨Store.heightKey_inj hheight, Store.heightKey_inj htime⟩

/-- A block is produced at second 2, one after the genesis block's. -/
def tick : Node.Call := .produceBlock ⟨2, none⟩ none

def taggedNode : Node := .fresh tagged (genesis 1) (genesisState 1)

/-- A block of a bridge mint and a transfer, and one of a swap. -/
def twoBlocks : List Node.Call :=
  [.submitAssetOperation (bridge .mint 1 usdc 200),
    .submitTransaction (transfer 0 otherAddress 10 1), .produceBlock ⟨2, none⟩ none,
    .submitMnaSwap (swap .mintMna 1 100 1), .produceBlock ⟨3, none⟩ none]

/-- Headers of different heights are told apart. -/
theorem separates_of_heights {headers : List BlockHeader}
    (h : ∀ x ∈ headers, ∀ y ∈ headers, x.height = y.height → x = y) :
    tagged.crypto.SeparatesHeaders headers :=
  fun x hx y hy heq => h x hx y hy (tagged_binds heq).1

theorem evaluated_twoBlocks :
    (∀ x ∈ (Node.chainOf tagged taggedNode twoBlocks).map Block.header,
      ∀ y ∈ (Node.chainOf tagged taggedNode twoBlocks).map Block.header,
        x.height = y.height → x = y) ∧
    EachStep (Node.next tagged) (fun n _ => n.latestBlock.header.height.toNat + 1 < 2 ^ 64)
      taggedNode twoBlocks := by
  decide +kernel

theorem twoBlocks_separate : tagged.crypto.SeparatesHeaders
    ((Node.chainOf tagged taggedNode twoBlocks).map Block.header) :=
  separates_of_heights evaluated_twoBlocks.1

end Sample

namespace Node

/-- **The blocks of `k` ticks**, by height and time, and the entries they leave in the index. -/
theorem ticks (k : Nat) (hE : E.overflowChecks = false) (genesis : GenesisConfig) (store : Store)
    (s : State) (b : Block) :
    (∀ i x, (chainOf.go E (idle genesis store s b) (List.replicate k Sample.tick))[i]? = some x →
      i < k ∧ x.header.height = b.header.height + BitVec.ofNat 64 (i + 1) ∧
        x.header.timestamp = 2) ∧
    ∃ store' b', runs (next E) (idle genesis store s b) (List.replicate k Sample.tick) =
        idle genesis store' s b' ∧
      b'.header.height = b.header.height + BitVec.ofNat 64 k ∧
      (∀ key, (store.get .heights key).isSome → (store'.get .heights key).isSome) ∧
      (0 < k → (store'.get .heights (heightKey (b.header.height + 1))).isSome) := by
  induction k generalizing store b with
  | zero =>
    refine ⟨fun i x hi => ?_, store, b, rfl, ?_, fun _ h => h, fun h => ?_⟩
    · cases hi
    · exact (BitVec.add_zero _).symm
    · exact absurd h (Nat.lt_irrefl 0)
  | succ k ih =>
    have hnext := next_produce_idle hE genesis store s b 2
    let block := Batch.empty.toBlock ((idle genesis store s b).makeHeader E ⟨2, none⟩
      (b.header.height + 1) s .empty none)
    have hheight : block.header.height = b.header.height + 1 := rfl
    have hadd : ∀ i, b.header.height + 1 + BitVec.ofNat 64 i =
        b.header.height + BitVec.ofNat 64 (i + 1) := fun i => by
      rw [BitVec.ofNat_add, BitVec.add_assoc, BitVec.add_comm (BitVec.ofNat 64 i)]
      rfl
    have hnew : adopted E (idle genesis store s b) Sample.tick = [block] := by
      unfold adopted Sample.tick
      rw [hnext]
      refine if_neg fun heq => ?_
      have hh : b.header.height + 1 = b.header.height :=
        congrArg (fun x : Block => x.header.height) heq
      bv_omega
    obtain ⟨hgo, store', b', hruns, hlast, hmono, -⟩ :=
      ih (store.insertAll (commitWrites E s block)) block
    have hcommit : ∀ key, (store.insertAll (commitWrites E s block)).get .heights key =
        if key = heightKey block.header.height
        then some (E.crypto.blockHeaderId block.header).bytes.toList
        else store.get .heights key := Store.get_heights_commit store _ block s.snapshot
    refine ⟨fun i x hi => ?_, store', b', ?_, ?_, fun key hkey => hmono key ?_, fun _ => hmono _ ?_⟩
    · rw [List.replicate_succ, go_cons, hnew] at hi
      unfold Sample.tick at hi
      rw [hnext] at hi
      cases i with
      | zero =>
        cases hi
        exact ⟨Nat.succ_pos k, hheight, rfl⟩
      | succ i =>
        obtain ⟨hlt, hx, htime⟩ := hgo i x hi
        rw [hheight, hadd] at hx
        exact ⟨Nat.succ_lt_succ hlt, hx, htime⟩
    · rw [List.replicate_succ, runs_cons]
      unfold Sample.tick
      rw [hnext]
      exact hruns
    · rw [hlast, hheight, hadd]
    · rw [hcommit]
      split
      · rfl
      · exact hkey
    · rw [hcommit, if_pos (congrArg heightKey hheight.symm)]
      rfl

theorem ticks_reliable (n : Node) (k : Nat) :
    EachStep (next E) Reliable n (List.replicate k Sample.tick) :=
  EachStep.of_forall (D := fun c : Call => c.fault = none) fun c hc => by
    rw [List.eq_of_mem_replicate hc]
    rfl

theorem openDir_taggedNode : openDir Sample.tagged Sample.chainId (Sample.genesis 1) .empty
    ⟨1, none⟩ = ⟨.ok Sample.taggedNode, Sample.taggedNode.store⟩ :=
  openDir_fresh (Sample.fromGenesis_genesis 1) rfl

/-- Up to the wrap, and one block further, heights and times tell the blocks apart. -/
theorem ticks_separate {k : Nat} (hk : k ≤ 2 ^ 64) :
    Sample.tagged.crypto.SeparatesHeaders
      ((chainOf Sample.tagged Sample.taggedNode (List.replicate k Sample.tick)).map
        Block.header) := by
  obtain ⟨hgo, -⟩ := ticks (E := Sample.tagged) k rfl (Sample.genesis 1) Sample.taggedNode.store
    (Sample.genesisState 1) Sample.taggedNode.latestBlock
  intro h hh h' hh' heq
  obtain ⟨hheight, htime⟩ := Sample.tagged_binds heq
  obtain ⟨x, hx, rfl⟩ := List.mem_map.mp hh
  obtain ⟨y, hy, rfl⟩ := List.mem_map.mp hh'
  have hgenesis : Sample.taggedNode.latestBlock.header.timestamp ≠ 2 := by decide
  rcases List.mem_cons.mp hx with rfl | hx
  · rcases List.mem_cons.mp hy with rfl | hy
    · rfl
    · obtain ⟨j, hj⟩ := List.mem_iff_getElem?.mp hy
      exact absurd (htime.trans (hgo j y hj).2.2) hgenesis
  · obtain ⟨i, hi⟩ := List.mem_iff_getElem?.mp hx
    obtain ⟨hik, hxh, hxt⟩ := hgo i x hi
    rcases List.mem_cons.mp hy with rfl | hy
    · exact absurd (htime.symm.trans hxt) hgenesis
    · obtain ⟨j, hj⟩ := List.mem_iff_getElem?.mp hy
      obtain ⟨hjk, hyh, -⟩ := hgo j y hj
      have hij : i = j := by
        rw [hxh, hyh] at hheight
        have hnat := congrArg BitVec.toNat ((BitVec.add_right_inj _).mp hheight)
        rw [BitVec.toNat_ofNat, BitVec.toNat_ofNat] at hnat
        omega
      rw [hij, hj] at hi
      rw [Option.some.inj hi]

/-- A chain of two blocks with operations of three kinds. -/
theorem chain_integrity_blocks :
    Throughout (next Sample.tagged) (ChainIntegrity Sample.tagged) Sample.taggedNode
      Sample.twoBlocks := by
  have hrel : EachStep (next Sample.tagged) Reliable Sample.taggedNode Sample.twoBlocks :=
    ⟨rfl, rfl, rfl, rfl, rfl, trivial⟩
  have hroom : EachStep (next Sample.tagged) (HasRoom Sample.tagged) Sample.taggedNode
      Sample.twoBlocks := Sample.evaluated_twoBlocks.2.mono fun _ _ h _ _ _ => h
  exact (chain_integrity openDir_taggedNode hrel hroom Sample.twoBlocks_separate).1

/-- **The heights run out.** In a build without overflow checks the block above height `u64::MAX`
    has height 0 and takes the genesis block's place in the index, which still has height 1. -/
theorem height_index_wraps :
    openDir Sample.tagged Sample.chainId (Sample.genesis 1) .empty ⟨1, none⟩ =
        ⟨.ok Sample.taggedNode, Sample.taggedNode.store⟩ ∧
      EachStep (next Sample.tagged) Reliable Sample.taggedNode
        (List.replicate (2 ^ 64) Sample.tick) ∧
      Sample.tagged.crypto.SeparatesHeaders
        ((chainOf Sample.tagged Sample.taggedNode (List.replicate (2 ^ 64) Sample.tick)).map
          Block.header) ∧
      ¬ Throughout (next Sample.tagged) (ChainIntegrity Sample.tagged) Sample.taggedNode
        (List.replicate (2 ^ 64) Sample.tick) := by
  refine ⟨openDir_taggedNode, ticks_reliable _ _, ticks_separate (Nat.le_refl _), fun h => ?_⟩
  obtain ⟨-, store', b', hruns, hheight, -, hindex⟩ := ticks (E := Sample.tagged) (2 ^ 64) rfl
    (Sample.genesis 1) Sample.taggedNode.store (Sample.genesisState 1) Sample.taggedNode.latestBlock
  have hlast : ChainIntegrity Sample.tagged (idle (Sample.genesis 1) store'
      (Sample.genesisState 1) b') := hruns ▸ h.last
  obtain ⟨value, hvalue⟩ := Option.isSome_iff_exists.mp (hindex (by decide))
  obtain ⟨height, hle, hkey⟩ := hlast.exact _ value hvalue
  have hzero : b'.header.height = 0 := by
    rw [hheight]
    decide
  have hone : Sample.taggedNode.latestBlock.header.height + 1 = 1 := by decide
  rw [← Store.heightKey_inj hkey, hone] at hle
  have htip : (idle (Sample.genesis 1) store' (Sample.genesisState 1) b').latestBlock.header.height
      = 0 := hzero
  rw [htip] at hle
  exact absurd hle (by decide)

end Node

end WorldstreetChain
