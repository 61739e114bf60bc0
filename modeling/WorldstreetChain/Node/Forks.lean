import WorldstreetChain.Node.Replica

/-!
# Chains with a common block

A header names the block below it by its id. Two nodes that have the same block at a height have had
the same headers at every height below, whoever made the blocks and whatever came between: chains
that have parted never meet again.

* `Node.Integrity.agree` -- the headers below a common block, by induction downwards.
* `Node.same_block_same_past` -- **a common block has one past**, for any two runs.
-/

namespace WorldstreetChain

namespace Node

variable {E : Env} {n n' : Node} {b b' : Block} {chain chain' : List Block}

/-- **Below a common block** the headers are the same. -/
theorem Integrity.agree (h : Integrity E n chain) (h' : Integrity E n' chain')
    (hsep : E.crypto.SeparatesHeaders ((chain ++ chain').map Block.header)) {k : Nat}
    (hb : chain[k]? = some b) (hb' : chain'[k]? = some b')
    (hid : E.crypto.blockHeaderId b.header = E.crypto.blockHeaderId b'.header) {i : Nat}
    (hi : i ≤ k) : ∃ a a', chain[i]? = some a ∧ chain'[i]? = some a' ∧ a.header = a'.header := by
  have hmem := List.mem_map_of_mem (f := Block.header)
    (List.mem_append_left chain' (List.mem_of_getElem? hb))
  have hmem' := List.mem_map_of_mem (f := Block.header)
    (List.mem_append_right chain (List.mem_of_getElem? hb'))
  have hheader : b.header = b'.header := hsep _ hmem _ hmem' hid
  induction k generalizing b b' with
  | zero =>
    obtain rfl := Nat.le_zero.mp hi
    exact ⟨b, b', hb, hb', hheader⟩
  | succ k ih =>
    rcases Nat.le_succ_iff.mp hi with hbelow | rfl
    · have hlt := (List.getElem?_eq_some_iff.mp hb).1
      have hlt' := (List.getElem?_eq_some_iff.mp hb').1
      have ha : chain[k]? = some chain[k] := List.getElem?_eq_getElem (by omega)
      have ha' : chain'[k]? = some chain'[k] := List.getElem?_eq_getElem (by omega)
      have hparent := h.linked k _ b ha hb
      have hparent' := h'.linked k _ b' ha' hb'
      have hids : E.crypto.blockHeaderId chain[k].header =
          E.crypto.blockHeaderId chain'[k].header := by
        rw [← hparent, ← hparent', hheader]
      have hin := List.mem_map_of_mem (f := Block.header)
        (List.mem_append_left chain' (List.mem_of_getElem? ha))
      have hin' := List.mem_map_of_mem (f := Block.header)
        (List.mem_append_right chain (List.mem_of_getElem? ha'))
      exact ih ha ha' hids hbelow hin hin' (hsep _ hin _ hin' hids)
    · exact ⟨b, b', hb, hb', hheader⟩

/-- The block a node has at a height is the chain's. -/
theorem Integrity.getElem_of_height (h : Integrity E n chain) {height : U64}
    (hb : n.store.getBlockByHeight height = .ok b)
    (hle : height ≤ n.latestBlock.header.height) : chain[height.toNat]? = some b := by
  obtain ⟨a, hget, ha, hheight⟩ := h.exists_height hle
  have hread := h.getBlockByHeight ha
  rw [hheight, hb] at hread
  rw [hget, Except.ok.inj hread]

/-- **A common block has one past.** Two nodes are opened on fresh directories; whatever they have
    made, imported and finalized since, if the blocks they have at a height are the same, then at
    every height below they have blocks of the same header. -/
theorem same_block_same_past {configChainId configChainId' : String}
    {genesis genesis' : GenesisConfig} {store store' : Store} {io io' : Io}
    {calls calls' : List Call} {height below : U64}
    (hopen : openDir E configChainId genesis .empty io = ⟨.ok n, store⟩)
    (hopen' : openDir E configChainId' genesis' .empty io' = ⟨.ok n', store'⟩)
    (hrel : EachStep (next E) Reliable n calls) (hrel' : EachStep (next E) Reliable n' calls')
    (hroom : EachStep (next E) (HasRoom E) n calls)
    (hroom' : EachStep (next E) (HasRoom E) n' calls')
    (hsep : E.crypto.SeparatesHeaders
      ((chainOf E n calls ++ chainOf E n' calls').map Block.header))
    (hle : height ≤ (runs (next E) n calls).latestBlock.header.height)
    (hle' : height ≤ (runs (next E) n' calls').latestBlock.header.height)
    (hb : (runs (next E) n calls).store.getBlockByHeight height = .ok b)
    (hb' : (runs (next E) n' calls').store.getBlockByHeight height = .ok b')
    (hid : E.crypto.blockHeaderId b.header = E.crypto.blockHeaderId b'.header)
    (hbelow : below ≤ height) :
    ∃ a a', (runs (next E) n calls).store.getBlockByHeight below = .ok a ∧
      (runs (next E) n' calls').store.getBlockByHeight below = .ok a' ∧ a.header = a'.header := by
  obtain ⟨s, -, rfl⟩ := openDir_empty hopen
  obtain ⟨s', -, rfl⟩ := openDir_empty hopen'
  have hown : E.crypto.SeparatesHeaders
      ((chainOf E (fresh E genesis s) calls).map Block.header) := fun x hx y hy => by
    refine hsep x ?_ y ?_
    · rw [List.map_append]
      exact List.mem_append_left _ hx
    · rw [List.map_append]
      exact List.mem_append_left _ hy
  have hown' : E.crypto.SeparatesHeaders
      ((chainOf E (fresh E genesis' s') calls').map Block.header) := fun x hx y hy => by
    refine hsep x ?_ y ?_
    · rw [List.map_append]
      exact List.mem_append_right _ hx
    · rw [List.map_append]
      exact List.mem_append_right _ hy
  have h := integrity_end (integrity_fresh E genesis s) hrel hroom hown
  have h' := integrity_end (integrity_fresh E genesis' s') hrel' hroom' hown'
  obtain ⟨a, a', ha, ha', hheader⟩ := h.agree h' hsep (h.getElem_of_height hb hle)
    (h'.getElem_of_height hb' hle') hid (BitVec.le_def.mp hbelow)
  have hheight : a.header.height = below := BitVec.eq_of_toNat_eq (h.heights _ a ha)
  have hread := h.getBlockByHeight (List.mem_of_getElem? ha)
  have hread' := h'.getBlockByHeight (List.mem_of_getElem? ha')
  rw [hheight] at hread
  rw [← hheader, hheight] at hread'
  exact ⟨a, a', hread, hread', hheader⟩

end Node

namespace Sample

theorem commits_mintImport :
    Node.Commits .standIn freshNode (.importBlock ⟨5, none⟩ mintBlock) mintedState mintBlock :=
  (Node.commits_import_iff (commits_nodeWithMint.extends.congr sameTip_nodeWithMint.symm)).mpr
    (commits_mintBlock.repeatable.congr sameTip_nodeWithMint.symm)

end Sample

namespace Node

/-- One node has made the block with the mint, the other has imported it. -/
theorem same_block_same_past_mint : ∃ a a' : Block,
    (runs (next .standIn) Sample.freshNode Sample.mintRun).store.getBlockByHeight 0 = .ok a ∧
      (runs (next .standIn) Sample.freshNode
        [.importBlock ⟨5, none⟩ Sample.mintBlock]).store.getBlockByHeight 0 = .ok a' ∧
      a.header = a'.header := by
  have hopen : openDir .standIn (Sample.genesis 1).chainId (Sample.genesis 1) .empty ⟨0, none⟩ =
      ⟨.ok Sample.freshNode, Sample.freshNode.store⟩ :=
    openDir_fresh (Sample.fromGenesis_genesis 1) rfl
  have hmade := Sample.commits_nodeWithMint.adopted rfl
  have himported := Sample.commits_mintImport.adopted rfl
  have hrel : EachStep (next .standIn) Reliable Sample.freshNode Sample.mintRun :=
    ⟨rfl, rfl, trivial⟩
  have hrel' : EachStep (next .standIn) Reliable Sample.freshNode
      [.importBlock ⟨5, none⟩ Sample.mintBlock] := ⟨rfl, trivial⟩
  have hroom' : EachStep (next .standIn) (HasRoom .standIn) Sample.freshNode
      [.importBlock ⟨5, none⟩ Sample.mintBlock] := by
    refine ⟨fun s b _ => ?_, trivial⟩
    rw [Sample.height_freshNode]
    decide
  have hchain' : chainOf .standIn Sample.freshNode [.importBlock ⟨5, none⟩ Sample.mintBlock] =
      [makeGenesisBlock .standIn (Sample.genesis 1) (Sample.genesisState 1), Sample.mintBlock] := by
    show _ :: (adopted .standIn _ _ ++ []) = _
    rw [adopted_of_commits Sample.commits_mintImport himported.latestBlock]
    rfl
  have hsep : Env.standIn.crypto.SeparatesHeaders
      ((chainOf .standIn Sample.freshNode Sample.mintRun ++ chainOf .standIn Sample.freshNode
        [.importBlock ⟨5, none⟩ Sample.mintBlock]).map Block.header) := by
    rw [Sample.chainOf_mintRun, hchain', List.map_append]
    intro x hx y hy
    rw [List.mem_append, or_self_iff] at hx hy
    exact Sample.mintHeaders_separate x hx y hy
  have hruns : runs (next .standIn) Sample.freshNode Sample.mintRun =
      Sample.nodeWithMint.next .standIn (.produceBlock ⟨2, none⟩ none) := rfl
  have hb : (runs (next .standIn) Sample.freshNode Sample.mintRun).store.getBlockByHeight
      Sample.mintBlock.header.height = .ok Sample.mintBlock := by
    rw [hruns]
    exact hmade.getBlockByHeight
  have hb' : (runs (next .standIn) Sample.freshNode
      [.importBlock ⟨5, none⟩ Sample.mintBlock]).store.getBlockByHeight
        Sample.mintBlock.header.height = .ok Sample.mintBlock := by
    rw [runs_cons, runs_nil]
    exact himported.getBlockByHeight
  have htip : (runs (next .standIn) Sample.freshNode Sample.mintRun).latestBlock =
      Sample.mintBlock := by
    rw [hruns]
    exact hmade.latestBlock
  have htip' : (runs (next .standIn) Sample.freshNode
      [.importBlock ⟨5, none⟩ Sample.mintBlock]).latestBlock = Sample.mintBlock := by
    rw [runs_cons, runs_nil]
    exact himported.latestBlock
  exact same_block_same_past hopen hopen hrel hrel' Sample.mintRun_hasRoom hroom' hsep
    (by rw [htip]; exact BitVec.le_refl _) (by rw [htip']; exact BitVec.le_refl _) hb hb' rfl
    (BitVec.le_def.mpr (Nat.zero_le _))

end Node

end WorldstreetChain
