import WorldstreetChain.Node.Production

/-!
# Who may propose

The rule about proposers is written twice: the producer asks whether a key is the one whose turn it
is at the next height, and the importer looks at the header. The producer lets anybody make a block
where there are no validators, and makes one without a proposer on any chain.

* `Node.produceBlock_header` -- the header of the block that a production commits.
* `Node.MayPropose` -- when both rules let the proposer pass.
* `Node.proposer_checks_agree_iff` -- **when a block's header is accepted** by every node with the
  same genesis and the same parent.
-/

namespace WorldstreetChain

namespace Node

variable {E : Env} {n : Node} {io : Io} {proposer : Option KeyPair} {b : Block}

/-! ## 1. The producer's header -/

/-- The height of a block is the next one, and wraps only in a build without overflow checks. -/
theorem height_cases {latest height : U64}
    (h : Unsigned.add (ε := NodeError) E.overflowChecks latest 1 = .ok height) :
    (latest ≠ BitVec.allOnes 64 ∧ height = Unsigned.saturatingAdd latest 1) ∨
      (latest = BitVec.allOnes 64 ∧ height = 0) := by
  have hlt := latest.isLt
  have hone : (1 : U64).toNat = 1 := rfl
  have hall : (BitVec.allOnes 64).toNat = 2 ^ 64 - 1 := BitVec.toNat_allOnes
  have hsaturating := Unsigned.toNat_saturatingAdd latest 1
  rcases Unsigned.add_eq_ok h with hheight | ⟨-, hge, hheight⟩
  · have hbound := height.isLt
    refine Or.inl ⟨fun hlatest => ?_, BitVec.eq_of_toNat_eq ?_⟩
    · rw [hlatest, hall] at hheight
      omega
    · omega
  · refine Or.inr ⟨BitVec.eq_of_toNat_eq (by omega), BitVec.eq_of_toNat_eq ?_⟩
    show height.toNat = 0
    omega

/-- **The header of a block that is committed** by a production. -/
theorem produceBlock_header (h : (n.produceBlockWithProposer E io proposer).result = .ok b) :
    ¬ Refused E n proposer ∧ ∃ s accepted height,
      Unsigned.add (ε := NodeError) E.overflowChecks n.latestBlock.header.height 1 = .ok height ∧
        b.header = n.makeHeader E io height s accepted proposer := by
  by_cases hturn : proposer.any (fun key => !n.isExpectedProposer (E.crypto.publicKey key)) = true
  · unfold produceBlockWithProposer at h
    rw [rejectIf_pos hturn] at h
    cases h
  refine ⟨hturn, ?_⟩
  cases haccept : accept E n.state n.nextHeight (n.queue E) with
  | error e =>
    unfold produceBlockWithProposer at h
    rw [rejectIf_neg hturn, Applied.attempt_ok, haccept] at h
    cases h
  | ok r =>
    obtain ⟨s, accepted⟩ := r
    rw [produceBlock_accepts hturn haccept] at h
    cases hheight : Unsigned.add (ε := NodeError) E.overflowChecks n.latestBlock.header.height 1 with
    | error e =>
      unfold commitBlock at h
      rw [show Unsigned.add (ε := NodeError) E.overflowChecks
        n.clearQueues.latestBlock.header.height 1 = .error e from hheight] at h
      cases h
    | ok height =>
      rw [commitBlock_cleared hheight] at h
      obtain ⟨_, -, rfl⟩ := Applied.map_result_eq_ok.mp h
      exact ⟨s, accepted, height, rfl, rfl⟩

/-! ## 2. Both rules -/

/-- The importer accepts what the producer has accepted: without a proposer only where there are no
    validators, and on a devnet; with one only where there are validators, and at the greatest
    height of all, behind which heights start again, only if the key has its turn at height 0 as
    well. -/
def MayPropose (E : Env) (n : Node) : Option KeyPair → Prop
  | none => n.genesis.validators = [] ∨ State.containsStr n.genesis.chainId "devnet" = true
  | some key => n.genesis.validators ≠ [] ∧ (n.latestBlock.header.height = BitVec.allOnes 64 →
    (proposerForHeight n.genesis.validators 0 0).any (·.publicKey == E.crypto.publicKey key) = true)

/-- Whose turn it is, is a validator. -/
theorem mem_of_proposerForHeight {validators : List Validator} {height round : U64}
    {key : PublicKey}
    (h : (proposerForHeight validators height round).any (·.publicKey == key) = true) :
    ¬ validators.all (·.publicKey ≠ key) = true := by
  intro hall
  obtain ⟨v, hv, hkey⟩ := (Option.any_eq_true _ _).mp h
  unfold proposerForHeight at hv
  split at hv
  · cases hv
  · have hmem := List.mem_of_getElem? hv
    have hne := List.all_eq_true.mp hall v hmem
    exact absurd (beq_iff_eq.mp hkey) (of_decide_eq_true hne)

theorem isExpectedProposer_iff {key : PublicKey} (h : n.genesis.validators ≠ []) :
    n.isExpectedProposer key = true ↔
      (proposerForHeight n.genesis.validators n.nextHeight 0).any (·.publicKey == key) = true := by
  unfold isExpectedProposer nextHeight
  rw [if_neg (by simpa using h)]

/-- The checks of a signed header, where the signature is good. -/
theorem checkProposer_signed_iff {header : BlockHeader} {key : PublicKey} {signature : Signature}
    (hproposer : header.proposer = some key) (hsignature : header.proposerSignature = some signature)
    (hverify : E.crypto.verify key header.signingBytes signature = true) :
    n.checkProposer E header = .ok () ↔
      (proposerForHeight n.genesis.validators header.height 0).any (·.publicKey == key) = true := by
  unfold checkProposer
  rw [hproposer, hsignature]
  dsimp only
  rw [rejectIf_bind_eq_ok, rejectIf_bind_eq_ok, rejectIf_bind_eq_ok, hverify]
  constructor
  · intro h
    exact Bool.eq_true_of_not_eq_false h.2.1
  · intro h
    exact ⟨mem_of_proposerForHeight h, by rw [h]; nofun, by nofun, rfl⟩

theorem checkProposer_unsigned_iff {header : BlockHeader} (hproposer : header.proposer = none)
    (hsignature : header.proposerSignature = none) :
    n.checkProposer E header = .ok () ↔
      n.genesis.validators = [] ∨ State.containsStr n.genesis.chainId "devnet" = true := by
  unfold checkProposer
  rw [hproposer, hsignature]
  dsimp only
  rw [rejectIf_bind_eq_ok, not_and_or, Bool.not_eq_false, Bool.not_eq_false, List.isEmpty_iff]
  exact and_iff_left rfl

/-- A header on top of the tip stands where it should; what is left is its proposer. -/
theorem checkPosition_makeHeader {height : U64} {s : State} {accepted : Batch}
    (hheight : Unsigned.add (ε := NodeError) E.overflowChecks n.latestBlock.header.height 1 =
      .ok height) :
    n.checkPosition E (n.makeHeader E io height s accepted proposer) =
      n.checkProposer E (n.makeHeader E io height s accepted proposer) := by
  have hfields : (n.makeHeader E io height s accepted proposer).chainId = n.genesis.chainId ∧
      (n.makeHeader E io height s accepted proposer).height = height ∧
      (n.makeHeader E io height s accepted proposer).parentHash = n.latestHash E := by
    unfold makeHeader
    cases proposer with
    | none => exact ⟨rfl, rfl, rfl⟩
    | some key => exact ⟨rfl, rfl, rfl⟩
  obtain ⟨hchain, hheader, hparent⟩ := hfields
  unfold checkPosition
  rw [rejectIf_neg (not_not.mpr hchain), Outcome.ok_bind, hheight, Outcome.ok_bind,
    rejectIf_neg (not_not.mpr hheader), Outcome.ok_bind, rejectIf_neg (not_not.mpr hparent),
    Outcome.ok_bind]

/-- What a node looks at in a header is its genesis and its latest block. -/
theorem checkPosition_congr {n' : Node} (hgenesis : n'.genesis = n.genesis)
    (hparent : n'.latestBlock.header = n.latestBlock.header) (header : BlockHeader) :
    n'.checkPosition E header = n.checkPosition E header := by
  unfold checkPosition checkProposer latestHash
  rw [hgenesis, hparent]

/-- **When a committed block's header is accepted** by every node with the same genesis and the same
    parent: exactly if the proposer may propose by both rules. -/
theorem proposer_checks_agree_iff (E : Env) (n : Node) (io : Io) (proposer : Option KeyPair)
    (b : Block) (hsign : E.crypto.SignVerifies)
    (hproduced : (n.produceBlockWithProposer E io proposer).result = .ok b) :
    (∀ n' : Node, n'.genesis = n.genesis → n'.latestBlock.header = n.latestBlock.header →
      n'.checkPosition E b.header = .ok ()) ↔ MayPropose E n proposer := by
  obtain ⟨hturn, s, accepted, height, hheight, hheader⟩ := produceBlock_header hproduced
  have hsame : (∀ n' : Node, n'.genesis = n.genesis →
      n'.latestBlock.header = n.latestBlock.header → n'.checkPosition E b.header = .ok ()) ↔
        n.checkProposer E (n.makeHeader E io height s accepted proposer) = .ok () := by
    rw [← checkPosition_makeHeader hheight, hheader]
    constructor
    · intro h
      exact h n rfl rfl
    · intro h n' hgenesis hparent
      rw [checkPosition_congr hgenesis hparent, h]
  rw [hsame]
  cases proposer with
  | none => exact checkProposer_unsigned_iff rfl rfl
  | some key =>
    rw [checkProposer_signed_iff rfl rfl (E.crypto.verify_sign hsign key _)]
    show (proposerForHeight n.genesis.validators height 0).any _ = true ↔ _
    constructor
    · intro h
      refine ⟨fun hempty => ?_, fun hlatest => ?_⟩
      · rw [hempty] at h
        cases h
      · rcases height_cases hheight with ⟨hne, -⟩ | ⟨-, hzero⟩
        · exact absurd hlatest hne
        · rwa [hzero] at h
    · intro h
      obtain ⟨hvalidators, hlast⟩ := h
      rcases height_cases hheight with ⟨-, hnext⟩ | ⟨hlatest, hzero⟩
      · rw [hnext]
        refine (isExpectedProposer_iff hvalidators).mp ?_
        simpa [Refused] using hturn
      · rw [hzero]
        exact hlast hlatest

end Node

/-! ## 3. A chain with one validator -/

namespace Sample

theorem oneValidator_fits : [Validator.mk "first" publicKey].length * 56 < 2 ^ 63 := by decide

/-- A genesis with one validator, on a devnet or elsewhere. -/
def oneValidator (chainId : String) : GenesisConfig :=
  { genesis 1 with
    chainId := chainId
    validators := [⟨"first", publicKey⟩]
    validators_fit := oneValidator_fits }

def oneValidatorNode (chainId : String) : Node :=
  .fresh .standIn (oneValidator chainId) (genesisState 1)

/-- A node with nothing queued, at the genesis block, produces an empty block. -/
theorem produce_empty {n : Node} {proposer : Option KeyPair}
    (hturn :
      ¬ proposer.any (fun key => !n.isExpectedProposer (Env.standIn.crypto.publicKey key)) = true)
    (haccept : Node.accept .standIn n.state n.nextHeight (n.queue .standIn) =
      .ok (genesisState 1, .empty))
    (hheight : Unsigned.add (ε := NodeError) Env.standIn.overflowChecks
      n.latestBlock.header.height 1 = .ok 1) :
    (n.produceBlockWithProposer .standIn ⟨2, none⟩ proposer).result =
      .ok (Batch.empty.toBlock
        (n.makeHeader .standIn ⟨2, none⟩ 1 (genesisState 1) .empty proposer)) := by
  rw [Node.produceBlock_accepts hturn haccept, Node.commitBlock_cleared hheight,
    Node.adopt_reaches fun k hk => by cases hk]
  rfl

/-- The validator's block. -/
def proposedBlock : Block :=
  Batch.empty.toBlock ((oneValidatorNode "worldstreet").makeHeader .standIn ⟨2, none⟩ 1
    (genesisState 1) .empty (some keyPair))

theorem produce_proposedBlock : ((oneValidatorNode "worldstreet").produceBlockWithProposer .standIn
    ⟨2, none⟩ (some keyPair)).result = .ok proposedBlock :=
  produce_empty (by decide +kernel) rfl rfl

/-- A block that nobody has signed, on a chain with a validator. -/
def unsignedBlock : Block :=
  Batch.empty.toBlock ((oneValidatorNode "worldstreet").makeHeader .standIn ⟨2, none⟩ 1
    (genesisState 1) .empty none)

/-- A signed block on a chain without validators. -/
def strayBlock : Block :=
  Batch.empty.toBlock ((Node.fresh .standIn (genesis 1) (genesisState 1)).makeHeader .standIn
    ⟨2, none⟩ 1 (genesisState 1) .empty (some keyPair))

theorem produce_unsignedBlock : ((oneValidatorNode "worldstreet").produceBlockWithProposer .standIn
    ⟨2, none⟩ none).result = .ok unsignedBlock :=
  produce_empty (by decide +kernel) rfl rfl

theorem produce_strayBlock : ((Node.fresh .standIn (genesis 1)
    (genesisState 1)).produceBlockWithProposer .standIn ⟨2, none⟩ (some keyPair)).result =
      .ok strayBlock :=
  produce_empty (by decide +kernel) rfl rfl

end Sample

namespace Node

/-- The validator's own block. -/
theorem proposer_checks_agree_validator :
    (Sample.oneValidatorNode "worldstreet").checkPosition .standIn Sample.proposedBlock.header =
      .ok () :=
  (proposer_checks_agree_iff .standIn _ _ _ _ Crypto.standIn_signVerifies
    Sample.produce_proposedBlock).mpr ⟨by decide, fun h => absurd h (by decide +kernel)⟩ _ rfl rfl

/-- **Blocks that every other node refuses**: one without a proposer on a chain with a validator
    that is no devnet, and a signed one on a chain without validators. -/
theorem produced_and_refused :
    (((Sample.oneValidatorNode "worldstreet").produceBlockWithProposer .standIn ⟨2, none⟩
        none).result = .ok Sample.unsignedBlock ∧
      (Sample.oneValidatorNode "worldstreet").checkProposer .standIn Sample.unsignedBlock.header =
        .error (.err (.invalidBlock "validator block requires proposer signature"))) ∧
    ((fresh .standIn (Sample.genesis 1) (Sample.genesisState 1)).produceBlockWithProposer .standIn
        ⟨2, none⟩ (some Sample.keyPair)).result = .ok Sample.strayBlock ∧
      (fresh .standIn (Sample.genesis 1) (Sample.genesisState 1)).checkProposer .standIn
        Sample.strayBlock.header = .error (.err (.invalidBlock "unknown block proposer")) :=
  ⟨⟨Sample.produce_unsignedBlock, by decide +kernel⟩, Sample.produce_strayBlock, by decide +kernel⟩

end Node

end WorldstreetChain
