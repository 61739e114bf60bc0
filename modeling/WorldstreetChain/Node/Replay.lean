import WorldstreetChain.Node.Proposers
import WorldstreetChain.Node.Waiting

/-!
# A produced block on another node

A producer goes through its queues and takes what answers `Ok`; an importer gets the operations that
were taken and insists on `Ok(true)`. What was passed over is not in the block, so a replica arrives
at the producer's state only if it has left nothing behind; and a duplicate, which answers
`Ok(false)`, is taken by the one and refused by the other.

* `Node.Settles` -- an operation is applied, or fails and leaves nothing behind.
* `Node.Accepts.replayed`, `Node.Accepts.settles` -- the two directions, along a producer's pass.
* `Node.produced_block_replays_iff` -- **when a replica takes the block over** and arrives at the
  same tip.
-/

namespace WorldstreetChain

open Std

namespace Node

variable {E : Env} {n n' : Node} {s s' : State} {op : Operation} {l accepted : List Operation}
  {b : Block} {io io' : Io} {proposer : Option KeyPair}

/-! ## 1. One pass and the other -/

/-- The operation is applied, or it fails and leaves nothing behind. -/
def Settles (E : Env) (s : State) (op : Operation) : Prop :=
  Applies E s op ∨ (∃ e, (s.apply E op).result = .error (.err e)) ∧ s.next E op = s

/-- The fee of a transaction of the faucet has room in the fee pool. -/
def FeeFits (E : Env) (s : State) (op : Operation) : Prop :=
  ∀ t, op = .transaction t → State.isFaucet E s t.unsigned = true →
    s.feePool.toNat + t.unsigned.fee.toNat < 2 ^ 128

/-- **What settles is replayed**: what is taken is applied on its own as well, to the same end. -/
theorem Accepts.replayed (h : Accepts E s l s' accepted)
    (hsettles : EachStep (State.next E) (Settles E) s l) :
    EachStep (State.next E) (Applies E) s accepted ∧ runs (State.next E) s accepted = s' := by
  induction h with
  | nil s => exact ⟨trivial, rfl⟩
  | @taken s s' op l accepted b hb _ ih =>
    obtain ⟨hsettled, hrest⟩ := hsettles
    have happlies : Applies E s op := by
      rcases hsettled with happlies | ⟨⟨e, he⟩, -⟩
      · exact happlies
      · rw [hb] at he
        cases he
    obtain ⟨happlied, hlast⟩ := ih hrest
    exact ⟨⟨happlies, happlied⟩, hlast⟩
  | @passed s s' op l accepted e he _ ih =>
    obtain ⟨hsettled, hrest⟩ := hsettles
    have hsame : s.next E op = s := by
      rcases hsettled with happlies | ⟨-, hsame⟩
      · rw [Applies, he] at happlies
        cases happlies
      · exact hsame
    rw [hsame] at ih hrest
    exact ih hrest

/-- A failure that leaves something behind processes its id, unless the fee pool has overflowed. -/
theorem marked_of_failed {e : StateError} (he : (s.apply E op).result = .error (.err e))
    (hfits : FeeFits E s op) :
    s.next E op = s ∨ State.Marked E.crypto s op (s.next E op) := by
  rcases State.apply_error (State.apply_eq he) with hsame | hresidue
  · exact Or.inl hsame
  by_cases hkind : (op.key E.crypto).1 = .transaction
  · obtain ⟨t, rfl, -⟩ := Operation.exists_transaction hkind
    generalize s.next E (.transaction t) = s' at hresidue
    cases hresidue with
    | faucet _ balance hf _ hp _ => exact absurd (hfits t rfl hf) (Nat.not_lt.mpr hp)
  · exact Or.inr (.of_residue hkind State.next_writes hresidue)

/-- **What is replayed has settled**, where no id is in the queues twice. -/
theorem Accepts.settles (h : Accepts E s l s' accepted)
    (hnodup : (l.map (Operation.key E.crypto)).Nodup)
    (hfits : EachStep (State.next E) (FeeFits E) s l)
    (happlied : EachStep (State.next E) (Applies E) s accepted)
    (hlast : runs (State.next E) s accepted = s') : EachStep (State.next E) (Settles E) s l := by
  induction h with
  | nil s => trivial
  | taken b hb _ ih =>
    rw [List.map_cons, List.nodup_cons] at hnodup
    exact ⟨Or.inl happlied.1, ih hnodup.2 hfits.2 happlied.2 hlast⟩
  | @passed s s' op l accepted e he hrest ih =>
    rw [List.map_cons, List.nodup_cons] at hnodup
    obtain ⟨hown, hnodup⟩ := hnodup
    rcases marked_of_failed he hfits.1 with hsame | hmarked
    · rw [hsame] at ih hrest
      have hfitsRest := hfits.2
      rw [hsame] at hfitsRest
      refine ⟨Or.inr ⟨⟨e, he⟩, hsame⟩, ?_⟩
      rw [hsame]
      exact ih hnodup hfitsRest happlied hlast
    · -- The id is processed at the end, and nobody but this operation can have done that.
      have hprocessed := ((hmarked.processed _ _).mpr (Or.inl rfl)).runs (E := E) l
      rw [hrest.runs_eq, ← hlast] at hprocessed
      rcases State.processed_runs_cases hprocessed with ⟨op', hop', hkey⟩ | hbefore
      · refine absurd (List.mem_map.mpr ⟨op', hrest.sublist.subset hop', ?_⟩) hown
        exact hkey.symm
      · exact absurd hbefore hmarked.new

/-! ## 2. A production that succeeds -/

/-- What a production that succeeds has committed. -/
theorem produceBlock_ok (h : n.produceBlockWithProposer E io proposer = ⟨.ok b, n'⟩) :
    ∃ s, Commits E n (.produceBlock io proposer) s b ∧ Adopted E n s b n' := by
  by_cases hturn : proposer.any (fun key => !n.isExpectedProposer (E.crypto.publicKey key)) = true
  · unfold produceBlockWithProposer at h
    rw [rejectIf_pos hturn] at h
    cases h
  cases haccept : accept E n.state n.nextHeight (n.queue E) with
  | error e =>
    unfold produceBlockWithProposer at h
    rw [rejectIf_neg hturn, Applied.attempt_ok, haccept] at h
    cases h
  | ok r =>
    obtain ⟨s, accepted⟩ := r
    rw [produceBlock_accepts hturn haccept] at h
    cases hheight : Unsigned.add (ε := NodeError) E.overflowChecks n.latestBlock.header.height 1 with
    | error e =>
      unfold commitBlock at h
      rw [show Unsigned.add (ε := NodeError) E.overflowChecks
        n.clearQueues.latestBlock.header.height 1 = .error e from hheight] at h
      cases h
    | ok height =>
      rw [commitBlock_cleared hheight] at h
      have hcommits := Commits.produce io proposer s accepted height hturn haccept hheight
      rcases reaches_or io.fault (commitWrites E s
        (accepted.toBlock (n.makeHeader E io height s accepted proposer))) with hr | ⟨k, hk, hle⟩
      · rw [adopt_reaches hr] at h
        cases h
        exact ⟨s, hcommits, rfl, rfl, rfl, rfl⟩
      · rw [adopt_cutOff hk hle] at h
        cases h

/-- A production without a fault that gets as far as the commit succeeds. -/
theorem Commits.produceBlock (h : Commits E n (.produceBlock io proposer) s b)
    (hio : io.fault = none) :
    n.produceBlockWithProposer E io proposer = ⟨.ok b, n.next E (.produceBlock io proposer)⟩ := by
  show _ = Applied.mk _ (n.produceBlockWithProposer E io proposer).state
  cases h with
  | produce _ _ s accepted height hturn haccept hheight =>
    have hr : Reaches io.fault (commitWrites E s
        (accepted.toBlock (n.makeHeader E io height s accepted proposer))) := fun k hk => by
      rw [hio] at hk
      cases hk
    rw [produceBlock_accepts hturn haccept, commitBlock_cleared hheight, adopt_reaches hr]
    rfl

/-- Below the greatest height, the importer's rule about proposers is the producer's. -/
theorem checkProposer_iff (hsign : E.crypto.SignVerifies)
    (hcommits : Commits E n (.produceBlock io proposer) s b)
    (hroom : n.latestBlock.header.height ≠ BitVec.allOnes 64) :
    n.checkProposer E b.header = .ok () ↔ MayPropose E n proposer := by
  cases hcommits with
  | produce _ _ s accepted height hturn haccept hheight =>
    obtain ⟨-, hnext⟩ | ⟨hmax, -⟩ := height_cases hheight
    · cases proposer with
      | none => exact checkProposer_unsigned_iff rfl rfl
      | some key =>
        show n.checkProposer E (n.makeHeader E io height s accepted (some key)) = .ok () ↔ _
        rw [checkProposer_signed_iff rfl rfl (E.crypto.verify_sign hsign key _)]
        show (proposerForHeight n.genesis.validators height 0).any _ = true ↔ _
        constructor
        · intro h
          refine ⟨fun hempty => ?_, fun hlatest => absurd hlatest hroom⟩
          rw [hempty] at h
          cases h
        · intro h
          rw [hnext]
          refine (isExpectedProposer_iff h.1).mp ?_
          simpa using hturn
    · exact absurd hmax hroom

/-! ## 3. A replica -/

/-- What a replica checks and executes is the same on both nodes. -/
theorem Repeatable.congr (htip : SameTip n n') (h : Repeatable E n s b) : Repeatable E n' s b := by
  refine ⟨?_, ?_, ?_⟩
  · rw [htip.store]
    exact h.new
  · have hsame : n'.checkProposer E b.header = n.checkProposer E b.header := by
      unfold checkProposer
      rw [htip.genesis]
    rw [hsame]
    exact h.proposer
  · rw [htip.state]
    exact h.execute

theorem SameTip.symm (h : SameTip n n') : SameTip n' n :=
  ⟨h.genesis.symm, h.store.symm, h.state.symm, h.latestBlock.symm⟩

theorem Extends.congr (htip : SameTip n n') (h : Extends E n s b) : Extends E n' s b := by
  refine ⟨h.version, ?_, ?_, ?_, h.root, h.ids⟩
  · rw [htip.genesis]
    exact h.chainId
  · rw [htip.latestBlock]
    exact h.height
  · unfold latestHash
    rw [htip.latestBlock]
    exact h.parent

/-- A replica at the same tip arrives at the next one exactly if the block is repeatable. -/
theorem import_sameTip_iff {m m' : Node} (htip : SameTip n m) (hio : io.fault = none)
    (hext : Extends E n s b) (ha : Adopted E n s b n') (hm : m' = (m.importBlock E io b).state) :
    (m.importBlock E io b).result = .ok (E.crypto.blockHeaderId b.header) ∧ SameTip n' m' ↔
      Repeatable E n s b := by
  constructor
  · rintro ⟨-, hsame⟩
    have hstep := next_step (E := E) m (.importBlock io b)
    have hnext : m.next E (.importBlock io b) = m' := hm.symm
    rw [hnext] at hstep
    have hmoved : m'.latestBlock ≠ m.latestBlock := by
      rw [hsame.latestBlock, ha.latestBlock, htip.latestBlock]
      exact fun heq => hext.height_ne (by rw [heq])
    cases hstep with
    | quiet _ hquiet _ => exact absurd hquiet.latestBlock hmoved
    | commit s' b' _ hc _ ha' =>
      have hs : s' = s := by rw [← ha'.state, hsame.state, ha.state]
      have hb : b' = b := by rw [← ha'.latestBlock, hsame.latestBlock, ha.latestBlock]
      subst hs hb
      exact ((commits_import_iff (hext.congr htip)).mp hc).congr htip.symm
    | cutOff _ _ k _ _ _ _ hcut => exact absurd hcut.latestBlock hmoved
    | finalize _ _ _ _ hcall => cases hcall
  · intro hr
    have hc : Commits E m (.importBlock io b) s b :=
      (commits_import_iff (hext.congr htip)).mpr (hr.congr htip)
    have himport := next_import hio hc
    rw [hm, himport]
    refine ⟨rfl, ?_, ?_, ?_, ?_⟩
    · exact htip.genesis.trans ha.genesis.symm
    · show m.store.insertAll _ = _
      rw [htip.store, ha.store]
    · exact ha.state.symm
    · exact ha.latestBlock.symm

/-- **When a produced block is repeatable.** -/
theorem repeatable_produced_iff (hsign : E.crypto.SignVerifies) (h : Behind E n)
    (hcommits : Commits E n (.produceBlock io proposer) s b)
    (hroom : n.latestBlock.header.height ≠ BitVec.allOnes 64)
    (hfits : EachStep (State.next E) (FeeFits E) n.state
      ((n.queue E).calls E.crypto n.nextHeight)) :
    Repeatable E n s b ↔
      (n.store.getBlock (E.crypto.blockHeaderId b.header)).isOk = false ∧
        MayPropose E n proposer ∧
        EachStep (State.next E) (Settles E) n.state ((n.queue E).calls E.crypto n.nextHeight) := by
  have hproposer := checkProposer_iff hsign hcommits hroom
  cases hcommits with
  | produce _ _ s accepted height hturn haccept hheight =>
    have hnext : height = n.nextHeight := by
      obtain ⟨-, hnext⟩ | ⟨hmax, -⟩ := height_cases hheight
      · exact hnext
      · exact absurd hmax hroom
    have haccepts := accept_accepts haccept
    have hnodup : (((n.queue E).calls E.crypto n.nextHeight).map (Operation.key E.crypto)).Nodup := by
      have hsub := ((queue_within E n).calls E.crypto n.nextHeight).map (Operation.key E.crypto)
      rw [Batch.map_key_calls E.crypto n.nextHeight n.waiting] at hsub
      exact h.nodup.sublist hsub
    have hheader : (n.makeHeader E io height s accepted proposer).height = n.nextHeight := by
      rw [← hnext]
      cases proposer <;> rfl
    constructor
    · intro hr
      obtain ⟨happlied, hlast⟩ := execute_iff.mp hr.execute
      rw [Batch.header_toBlock, Batch.batch_toBlock, hheader] at happlied hlast
      exact ⟨hr.new, hproposer.mp hr.proposer, haccepts.settles hnodup hfits happlied hlast⟩
    · rintro ⟨hnew, hmay, hsettles⟩
      refine ⟨hnew, hproposer.mpr hmay, execute_iff.mpr ?_⟩
      rw [Batch.header_toBlock, Batch.batch_toBlock, hheader]
      exact haccepts.replayed hsettles

/-- **When a produced block replays.** A node that has been opened, whatever has been called since,
    makes a block. A node at the same tip takes it over and arrives at the same tip, with the same
    state and store, exactly if the block is new, the proposer may propose by both rules, and
    whatever was queued was applied or failed without leaving anything behind. -/
theorem produced_block_replays_iff {configChainId : String} {genesis : GenesisConfig}
    {store store' : Store} {io₀ : Io} {opened m : Node} {calls : List Call}
    (hsign : E.crypto.SignVerifies)
    (hopen : openDir E configChainId genesis store io₀ = ⟨.ok opened, store'⟩)
    (hn : n = runs (next E) opened calls)
    (hproduced : n.produceBlockWithProposer E io proposer = ⟨.ok b, n'⟩)
    (htip : SameTip n m) (hio' : io'.fault = none)
    (hroom : n.latestBlock.header.height ≠ BitVec.allOnes 64)
    (hfits : EachStep (State.next E) (FeeFits E) n.state
      ((n.queue E).calls E.crypto n.nextHeight)) :
    (m.importBlock E io' b).result = .ok (E.crypto.blockHeaderId b.header) ∧
        SameTip n' (m.importBlock E io' b).state ↔
      (n.store.getBlock (E.crypto.blockHeaderId b.header)).isOk = false ∧
        MayPropose E n proposer ∧
        EachStep (State.next E) (Settles E) n.state ((n.queue E).calls E.crypto n.nextHeight) := by
  obtain ⟨s, hcommits, ha⟩ := produceBlock_ok hproduced
  have hbehind : Behind E n := hn ▸ behind_runs (behind_opened hopen) calls
  rw [import_sameTip_iff htip hio' hcommits.extends ha rfl]
  exact repeatable_produced_iff hsign hbehind hcommits hroom hfits

/-- The node with the mint makes a block, and a fresh node takes it over. -/
theorem produced_block_replays_mint :
    ((fresh .standIn (Sample.genesis 1) (Sample.genesisState 1)).importBlock .standIn ⟨5, none⟩
        Sample.mintBlock).result = .ok (Env.standIn.crypto.blockHeaderId Sample.mintBlock.header) ∧
      SameTip (Sample.nodeWithMint.next .standIn (.produceBlock ⟨2, none⟩ none))
        ((fresh .standIn (Sample.genesis 1) (Sample.genesisState 1)).importBlock .standIn ⟨5, none⟩
          Sample.mintBlock).state := by
  have hopen : openDir .standIn (Sample.genesis 1).chainId (Sample.genesis 1) .empty ⟨0, none⟩ =
      ⟨.ok (fresh .standIn (Sample.genesis 1) (Sample.genesisState 1)),
        (fresh .standIn (Sample.genesis 1) (Sample.genesisState 1)).store⟩ :=
    openDir_fresh (Sample.fromGenesis_genesis 1) rfl
  have htip : SameTip Sample.nodeWithMint
      (fresh .standIn (Sample.genesis 1) (Sample.genesisState 1)) :=
    (submitAssetOperation_sameTip _ _).symm
  obtain ⟨hqueue, happlies, -, -, hnew⟩ := Sample.evaluated_nodes.1
  have hcalls : (Sample.nodeWithMint.queue .standIn).calls Env.standIn.crypto
      Sample.nodeWithMint.nextHeight = [.asset Sample.waitingMint] := by
    rw [hqueue]
    rfl
  have hfits : EachStep (State.next .standIn) (FeeFits .standIn) Sample.nodeWithMint.state
      ((Sample.nodeWithMint.queue .standIn).calls Env.standIn.crypto
        Sample.nodeWithMint.nextHeight) := by
    rw [hcalls]
    exact ⟨(fun t ht => by cases ht), trivial⟩
  have hqueued : Sample.nodeWithMint = runs (next .standIn)
      (fresh .standIn (Sample.genesis 1) (Sample.genesisState 1))
      [.submitAssetOperation Sample.waitingMint] := rfl
  have hroom : Sample.nodeWithMint.latestBlock.header.height ≠ BitVec.allOnes 64 := by
    decide +kernel
  have hproduced := Sample.commits_nodeWithMint.produceBlock rfl
  refine (produced_block_replays_iff Crypto.standIn_signVerifies hopen hqueued hproduced htip rfl
    hroom hfits).mpr ⟨hnew, Or.inl rfl, ?_⟩
  rw [hcalls]
  exact ⟨Or.inl happlies, trivial⟩

end Node

end WorldstreetChain
