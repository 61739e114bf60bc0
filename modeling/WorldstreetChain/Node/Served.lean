import WorldstreetChain.Node.Crash

/-!
# The blocks a node can serve

A peer asks for blocks by their heights. Whatever happens to a node, a failing insertion, a crash in
a commit, opening again, a height that wraps around, there is a block of its height under every
entry of the index up to the tip's.

* `Store.Serves` -- a block of its height under every height up to `top`.
* `Node.Reached` -- the nodes on directories of a genesis, whatever has happened to them.
* `Node.Reached.serves` -- **every node serves all heights up to its tip's.**
-/

namespace WorldstreetChain

open Std

variable {E : Env} {H : List BlockHeader} {genesis : GenesisConfig}

/-! ## 1. Stores -/

namespace Store

variable {s s' : Store} {top : U64} {b : Block}

/-- Under every height up to `top` there is a stored block of this height. -/
def Serves (E : Env) (H : List BlockHeader) (s : Store) (top : U64) : Prop :=
  ∀ height, height ≤ top → ∃ b : Block, b.header ∈ H ∧ b.header.height = height ∧
    s.get .heights (heightKey height) = some (E.crypto.blockHeaderId b.header).bytes.toList ∧
    s.getBlock (E.crypto.blockHeaderId b.header) = .ok b

/-- The store opens at this block, and serves all heights up to it. -/
structure Stands (E : Env) (H : List BlockHeader) (s : Store) (b : Block) : Prop where
  latestHash : s.latestHash = .ok (E.crypto.blockHeaderId b.header)
  stored : s.getBlock (E.crypto.blockHeaderId b.header) = .ok b
  mem : b.header ∈ H
  serves : s.Serves E H b.header.height

theorem Stands.latestBlock (h : s.Stands E H b) : s.latestBlock = .ok b := by
  rw [Store.latestBlock, h.latestHash]
  exact h.stored

/-- A height of a commit that is cut off: the index is as before, or has the new block. -/
theorem get_heights_cut (s : Store) (hash : Hash) (b : Block) (state : StateSnapshot) (k : Nat)
    (key : List UInt8) :
    let s' := s.insertAll ((commitWrites E hash b state).take k)
    s'.get .heights key = s.get .heights key ∨
      (0 < k ∧ key = heightKey b.header.height ∧
        s'.get .heights key = some hash.bytes.toList) := by
  rcases get_insertAll s ((commitWrites E hash b state).take k) .heights key with
    ⟨w, hw, ht, hkey, hv⟩ | ⟨-, hv⟩
  · have hpos : 0 < k := Nat.pos_of_ne_zero fun hzero => by
      rw [hzero] at hw
      cases hw
    rcases mem_commitWrites (List.mem_of_mem_take hw) with
      rfl | rfl | rfl | ⟨t, -, rfl⟩ | rfl | rfl
    · cases ht
    · exact Or.inr ⟨hpos, hkey.symm, hv⟩
    all_goals cases ht
  · exact Or.inl hv

/-- **A commit, as far as it gets, leaves every height served.** -/
theorem Serves.cut (h : s.Serves E H top) (hsep : E.crypto.SeparatesHeaders H)
    (hb : b.header ∈ H) (state : StateSnapshot) (k : Nat) :
    (s.insertAll ((commitWrites E (E.crypto.blockHeaderId b.header) b state).take k)).Serves
      E H top := by
  intro height hle
  obtain ⟨a, ha, hheight, hindex, hstored⟩ := h height hle
  rcases get_heights_cut (E := E) s (E.crypto.blockHeaderId b.header) b state k
    (heightKey height) with hkept | ⟨hpos, hkey, hnew⟩
  · rcases getBlock_commit_cases (E := E) s (E.crypto.blockHeaderId b.header) b state k
      (E.crypto.blockHeaderId a.header) with ⟨hid, hread⟩ | hread
    · -- the block under the entry is written again
      have hheader : a.header = b.header := hsep _ ha _ hb hid
      rw [hid] at hread
      refine ⟨b, hb, ?_, ?_, hread⟩
      · rw [← hheader]
        exact hheight
      · rw [hkept, hindex, hheader]
    · exact ⟨a, ha, hheight, hkept.trans hindex, hread.trans hstored⟩
  · exact ⟨b, hb, (heightKey_inj hkey).symm, hnew, getBlock_commit_of_pos hpos⟩

/-- The block of a commit is served, with all heights below it. -/
theorem Serves.commit (h : s.Serves E H top) (hsep : E.crypto.SeparatesHeaders H)
    (hb : b.header ∈ H) (hheight : b.header.height = top + 1) (state : StateSnapshot) :
    (s.insertAll (commitWrites E (E.crypto.blockHeaderId b.header) b state)).Serves
      E H b.header.height := by
  intro height hle
  by_cases heq : height = b.header.height
  · subst heq
    refine ⟨b, hb, rfl, ?_, getBlock_commit _ _ _ _⟩
    rw [get_heights_commit, if_pos rfl]
  · have hbelow : height ≤ top := by
      rw [hheight] at hle heq
      bv_omega
    have hcut := h.cut hsep hb state
      (commitWrites E (E.crypto.blockHeaderId b.header) b state).length
    rw [List.take_length] at hcut
    exact hcut height hbelow

/-- What a commit that is cut off leaves standing. -/
theorem Stands.cut {a : Block} (h : s.Stands E H a) (hserves : s.Serves E H top)
    (hsep : E.crypto.SeparatesHeaders H) (hb : b.header ∈ H) (hheight : b.header.height = top + 1)
    (state : StateSnapshot) (k : Nat) :
    ∃ a', (s.insertAll ((commitWrites E (E.crypto.blockHeaderId b.header) b state).take k)).Stands
      E H a' := by
  by_cases hk : k < (commitWrites E (E.crypto.blockHeaderId b.header) b state).length
  · have hlatest := latestHash_commit_of_lt (s := s) hk
    rcases getBlock_commit_cases (E := E) s (E.crypto.blockHeaderId b.header) b state k
      (E.crypto.blockHeaderId a.header) with ⟨hid, hread⟩ | hread
    · have hheader : a.header = b.header := hsep _ h.mem _ hb hid
      have hkept := h.serves.cut hsep hb state k
      rw [hheader] at hkept
      rw [hid] at hread
      refine ⟨b, ?_, hread, hb, hkept⟩
      rw [hlatest, h.latestHash, hid]
    · exact ⟨a, hlatest.trans h.latestHash, hread.trans h.stored, h.mem,
        h.serves.cut hsep hb state k⟩
  · rw [List.take_of_length_le (Nat.not_lt.mp hk)]
    exact ⟨b, latestHash_commit _ _ _ _, getBlock_commit _ _ _ _, hb,
      hserves.commit hsep hb hheight state⟩

/-- Stores that agree on blocks and heights. -/
theorem Serves.congr (h : s.Serves E H top) (hblocks : ∀ key, s'.get .blocks key = s.get .blocks key)
    (hheights : ∀ key, s'.get .heights key = s.get .heights key) : s'.Serves E H top := by
  intro height hle
  obtain ⟨a, ha, hheight, hindex, hstored⟩ := h height hle
  refine ⟨a, ha, hheight, (hheights _).trans hindex, ?_⟩
  rw [← hstored]
  unfold getBlock
  rw [hblocks]

theorem Stands.finalized {height : U64} {hash : Hash} (h : s.Stands E H b) (k : Nat) :
    (s.insertAll ((finalizedWrites height hash).take k)).Stands E H b := by
  have hblocks : ∀ key, (s.insertAll ((finalizedWrites height hash).take k)).get .blocks key =
      s.get .blocks key := fun key => get_finalized_take k fun ht => by cases ht
  have hheights : ∀ key, (s.insertAll ((finalizedWrites height hash).take k)).get .heights key =
      s.get .heights key := fun key => get_finalized_take k fun ht => by cases ht
  refine ⟨?_, ?_, h.mem, h.serves.congr hblocks hheights⟩
  · rw [← h.latestHash]
    unfold Store.latestHash metaHash
    rw [get_finalized_take k fun _ => by decide]
  · rw [← h.stored]
    unfold getBlock
    rw [hblocks]

end Store

/-! ## 2. Nodes -/

namespace Node

variable {n m : Node} {c : Call} {s : State} {b : Block} {io : Io}

/-- A node on a directory of this genesis: opened on a fresh one, after a call, whatever its
    insertions did, opened again, or opened after a crash in a commit. The headers of the blocks
    committed are those of `H`. -/
inductive Reached (E : Env) (H : List BlockHeader) (genesis : GenesisConfig) : Node → Prop
  | opened {n : Node} {store : Store} (io : Io)
      (hopen : openDir E genesis.chainId genesis .empty io = ⟨.ok n, store⟩)
      (hmem : n.latestBlock.header ∈ H) : Reached E H genesis n
  | call {n : Node} (h : Reached E H genesis n) (c : Call)
      (hmem : ∀ s b, Commits E n c s b → b.header ∈ H) : Reached E H genesis (n.next E c)
  | reopened {n m : Node} {store : Store} (h : Reached E H genesis n) (io : Io)
      (hopen : openDir E genesis.chainId genesis n.store io = ⟨.ok m, store⟩) :
      Reached E H genesis m
  | crashed {n m : Node} {store : Store} {c : Call} {s : State} {b : Block}
      (h : Reached E H genesis n) (hc : Commits E n c s b) (hmem : b.header ∈ H) (k : Nat) (io : Io)
      (hopen : openDir E genesis.chainId genesis (crashed E n s b k) io = ⟨.ok m, store⟩) :
      Reached E H genesis m

/-- The store is a store of the genesis, serves the heights up to the tip's, and opens at a block up
    to which it serves them too. -/
structure Served (E : Env) (H : List BlockHeader) (n : Node) : Prop where
  initialized : Initialized E n.genesis n.store
  serves : n.store.Serves E H n.latestBlock.header.height
  stands : ∃ b, n.store.Stands E H b

theorem Extends.height_eq (h : Extends E n s b) :
    b.header.height = n.latestBlock.header.height + 1 := by
  have hone : (1 : U64).toNat = 1 := rfl
  apply BitVec.eq_of_toNat_eq
  rw [BitVec.toNat_add]
  have hlt := b.header.height.isLt
  have hlt' := n.latestBlock.header.height.isLt
  rcases Unsigned.add_eq_ok h.height with hadd | ⟨-, hwrap, hadd⟩
  · omega
  · omega

theorem served_fresh (hs : State.fromGenesis genesis = .ok s)
    (hmem : (makeGenesisBlock E genesis s).header ∈ H) : Served E H (fresh E genesis s) := by
  have hd := durable_fresh (E := E) hs
  have hi := integrity_fresh E genesis s
  have hserves : (fresh E genesis s).store.Serves E H 0 := by
    intro height hle
    have hzero : height = (makeGenesisBlock E genesis s).header.height := by
      show height = 0
      bv_omega
    subst hzero
    exact ⟨_, hmem, rfl, hi.index _ List.mem_cons_self, hi.stored _ List.mem_cons_self⟩
  exact ⟨hd.initialized, hserves, _, hd.latestHash, hd.stored, hmem, hserves⟩

/-- **A commit, cut off or not, keeps it** on the tip before. -/
theorem Served.cut (h : Served E H n) (hsep : E.crypto.SeparatesHeaders H)
    (hext : Extends E n s b) (hb : b.header ∈ H) (k : Nat) :
    Initialized E n.genesis (crashed E n s b k) ∧
      (crashed E n s b k).Serves E H n.latestBlock.header.height ∧
      ∃ a, (crashed E n s b k).Stands E H a := by
  obtain ⟨a, ha⟩ := h.stands
  exact ⟨h.initialized.commit s b k, h.serves.cut hsep hb s.snapshot k,
    ha.cut h.serves hsep hb hext.height_eq s.snapshot k⟩

/-- **The step lemma.** -/
theorem served_step (h : Served E H n) (hsep : E.crypto.SeparatesHeaders H)
    (hmem : ∀ s b, Commits E n c s b → b.header ∈ H) : Served E H (n.next E c) := by
  have hstep := next_step (E := E) n c
  generalize n.next E c = n' at hstep
  cases hstep with
  | quiet _ ht _ =>
    obtain ⟨hg, hst, -, hl⟩ := ht
    refine ⟨?_, ?_, ?_⟩
    · rw [hg, hst]
      exact h.initialized
    · rw [hst, hl]
      exact h.serves
    · rw [hst]
      exact h.stands
  | commit s b _ hc _ ha =>
    have hb := hmem s b hc
    obtain ⟨hinit, -, hstands⟩ := h.cut hsep hc.extends hb (commitWrites E s b).length
    rw [crashed, List.take_length] at hinit hstands
    refine ⟨?_, ?_, ?_⟩
    · rw [ha.genesis, ha.store]
      exact hinit
    · rw [ha.store, ha.latestBlock]
      exact h.serves.commit hsep hb hc.extends.height_eq s.snapshot
    · rw [ha.store]
      exact hstands
  | cutOff s b k _ hc _ _ hcut =>
    obtain ⟨hinit, hserves, hstands⟩ := h.cut hsep hc.extends (hmem s b hc) k
    refine ⟨?_, ?_, ?_⟩
    · rw [hcut.genesis, hcut.store]
      exact hinit
    · rw [hcut.store, hcut.latestBlock]
      exact hserves
    · rw [hcut.store]
      exact hstands
  | finalize _ S current _ _ _ _ _ _ hn' =>
    obtain ⟨k, hk⟩ := Store.perform_state n.store
      (Store.finalizedWrites S.height (n.latestHash E)) c.fault
    obtain ⟨b, hb⟩ := h.stands
    subst hn'
    refine ⟨?_, ?_, b, ?_⟩
    · show Initialized E n.genesis (n.store.perform _ _).state
      rw [hk]
      exact h.initialized.finalized _ _ k
    · show (n.store.perform _ _).state.Serves E H _
      rw [hk]
      exact h.serves.congr (fun key => Store.get_finalized_take k fun ht => by cases ht)
        fun key => Store.get_finalized_take k fun ht => by cases ht
    · show (n.store.perform _ _).state.Stands E H b
      rw [hk]
      exact hb.finalized k

/-- What opens on a store that stands serves up to its tip. -/
theorem served_opened {store store' : Store} (hinit : Initialized E genesis store)
    (hstands : ∃ b, store.Stands E H b)
    (hopen : openDir E genesis.chainId genesis store io = ⟨.ok m, store'⟩) :
    Served E H m ∧ m.genesis = genesis := by
  obtain ⟨b, hb⟩ := hstands
  rw [openDir_initialized hinit] at hopen
  obtain ⟨b', p, hb', -, -, -, rfl⟩ := restore_cases (congrArg Applied.result hopen)
  rw [hb.latestBlock] at hb'
  cases hb'
  exact ⟨⟨hinit, hb.serves, b, hb⟩, rfl⟩

/-- **Every node serves the heights up to its tip's**, whatever has happened to it. -/
theorem Reached.serves (h : Reached E H genesis n) (hsep : E.crypto.SeparatesHeaders H) :
    Served E H n ∧ n.genesis = genesis := by
  induction h with
  | opened io hopen hmem =>
    obtain ⟨s, hs, rfl⟩ := openDir_empty hopen
    exact ⟨served_fresh hs hmem, rfl⟩
  | call _ c hmem ih =>
    refine ⟨served_step ih.1 hsep hmem, ?_⟩
    rw [genesis_next, ih.2]
  | reopened _ io hopen ih =>
    obtain ⟨hserved, rfl⟩ := ih
    exact served_opened hserved.initialized hserved.stands hopen
  | crashed _ hc hmem k io hopen ih =>
    obtain ⟨hserved, rfl⟩ := ih
    obtain ⟨hinit, -, hstands⟩ := hserved.cut hsep hc.extends hmem k
    exact served_opened hinit hstands hopen

end Node

end WorldstreetChain
