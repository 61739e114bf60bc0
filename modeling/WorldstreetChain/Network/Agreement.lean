import WorldstreetChain.Library.Quorum
import WorldstreetChain.Network.Honest

/-!
# Agreement

Any number of peers serve each other, with any loss, repetition and order of their messages. A peer
marks a block final on a set of votes of two thirds of the validators. Two such sets share a
validator that is honest, and an honest validator has sent one vote a height.

* `Network.next` -- an event at one of the peers, and all votes sent so far.
* `Network.Certified` -- the votes sent make a block final at a height.
* `Network.sent_unique` -- **an honest validator sends one vote a height**.
* `Network.finality_agreement` -- **no two peers ever mark two blocks of one height final.**
-/

namespace WorldstreetChain

open Std

/-! ## 1. Quorums of validators -/

namespace ValidatorSet

/-- The keys of the list of validators. -/
def keys (validators : List Validator) : Finset PublicKey :=
  (validators.map (·.publicKey)).toFinset

theorem keyFinset_new (validators : List Validator) :
    (new validators).validators.keyFinset = keys validators := by
  refine Finset.ext fun k => ?_
  have hk : k ∈ (new validators).validators ↔ ∃ v ∈ validators, v.publicKey = k := by
    rw [ExtTreeMap.mem_iff_contains]
    exact contains_new
  rw [BTreeMap.mem_keyFinset, hk, keys, List.mem_toFinset, List.mem_map]

theorem len_new (validators : List Validator) :
    (new validators).len = (keys validators).card := by
  rw [← keyFinset_new, BTreeMap.card_keyFinset, len]

/-- **The quorum test** without the saturating arithmetic, for as many validators as fit into a
    list. -/
theorem isQuorum_new {validators : List Validator} (hfit : validators.length * 56 < 2 ^ 63)
    {votes : Nat} (h : (new validators).isQuorum votes = true) :
    0 < (keys validators).card ∧ 2 * (keys validators).card ≤ 3 * votes := by
  have hle : (keys validators).card ≤ validators.length := by
    have := List.toFinset_card_le (validators.map (·.publicKey))
    rw [List.length_map] at this
    exact this
  unfold isQuorum saturatingMul at h
  rw [len_new, Bool.and_eq_true, decide_eq_true_iff, decide_eq_true_iff] at h
  omega

end ValidatorSet

/-- A sound set that is a quorum is one of the validators of the genesis. -/
theorem VoteSet.Sound.isQuorum {C : Crypto} {genesis : GenesisConfig} {S : VoteSet}
    (h : S.Sound C (.new genesis.validators))
    (hquorum : S.isQuorum (.new genesis.validators) = true) :
    IsQuorum (ValidatorSet.keys genesis.validators) S.votes.keyFinset := by
  refine ⟨fun k hk => ?_, ?_⟩
  · obtain ⟨v, hv⟩ := Option.isSome_iff_exists.mp
      (ExtTreeMap.mem_iff_isSome_getElem?.mp (BTreeMap.mem_keyFinset.mp hk))
    obtain ⟨rfl, hvalid⟩ := h k v hv
    rw [← ValidatorSet.keyFinset_new, BTreeMap.mem_keyFinset, ExtTreeMap.mem_iff_contains]
    exact hvalid.validator
  · rw [BTreeMap.card_keyFinset]
    exact (ValidatorSet.isQuorum_new genesis.validators_fit hquorum).2

/-! ## 2. The network -/

/-- Two votes of one validator with one signed message. -/
def Vote.SameMessage (v w : Vote) : Prop :=
  v.validator = w.validator ∧ v.signingBytes = w.signingBytes

/-- One message is one vote, but for the signature. -/
theorem Vote.SameMessage.fields {v w : Vote} (h : v.SameMessage w) :
    v.validator = w.validator ∧ v.height = w.height ∧ v.blockHash = w.blockHash := by
  have heq : ({ v with signature := blankSignature } : Vote) =
      { w with signature := blankSignature } := canonicalEncode_inj.mp h.2
  injection heq with _ _ hheight _ hhash
  exact ⟨h.1, hheight, hhash⟩

universe u

/-- Peers, and the votes they have sent. -/
structure Network (ι : Type u) where
  peers : ι → Peer
  sent : List Vote

namespace Network

variable {ι : Type u}

/-- An event at one of the peers. -/
def next [DecidableEq ι] (E : Env) (N : Network ι) (e : ι × Peer.Event) : Network ι where
  peers := Function.update N.peers e.1 ((N.peers e.1).next E e.2)
  sent := N.sent ++ (N.peers e.1).sends e.2

/-- Peers of one genesis that have just opened fresh directories. -/
def start (E : Env) (genesis : GenesisConfig) (s : State) (validators : ι → Option KeyPair) :
    Network ι where
  peers i := ⟨.fresh E genesis s, false, fun _ => none, validators i, []⟩
  sent := []

/-- An event that is regular for its peer; and no honest validator's signature is forged: a vote
    that arrives with a valid one says what the validator has sent. -/
structure Regular (E : Env) (H : List BlockHeader) (faulty : Finset PublicKey) (N : Network ι)
    (e : ι × Peer.Event) : Prop where
  peer : (N.peers e.1).Regular E H e.2
  unforged : ∀ v, e.2 = .vote v → E.crypto.verify v.validator v.signingBytes v.signature = true →
    v.validator ∉ faulty → ∃ w ∈ N.sent, w.SameMessage v

/-- Each honest validator's key is on one peer. -/
def OneNode (E : Env) (faulty : Finset PublicKey) (validators : ι → Option KeyPair) : Prop :=
  ∀ i j key key', validators i = some key → validators j = some key' →
    E.crypto.publicKey key = E.crypto.publicKey key' → E.crypto.publicKey key ∉ faulty → i = j

/-- The store of a node names this block final. -/
def Finalized (n : Node) (height : U64) (hash : Hash) : Prop :=
  n.store.finalizedHeight = .ok height ∧ n.store.finalizedHash = .ok hash

/-- The votes of a set of an honest validator have been sent. -/
def Backed (faulty : Finset PublicKey) (sent : List Vote) (S : VoteSet) : Prop :=
  ∀ (k : PublicKey) (v : Vote), S.votes[k]? = some v → v.validator ∉ faulty →
    ∃ w ∈ sent, w.SameMessage v

/-- A quorum of validators, whose honest members have sent votes for the block at the height. -/
def Certified (genesis : GenesisConfig) (faulty : Finset PublicKey) (sent : List Vote)
    (height : U64) (hash : Hash) : Prop :=
  ∃ Q : Finset PublicKey, IsQuorum (ValidatorSet.keys genesis.validators) Q ∧
    ∀ k ∈ Q, k ∉ faulty → ∃ w ∈ sent, w.validator = k ∧ w.height = height ∧ w.blockHash = hash

theorem Certified.mono {genesis : GenesisConfig} {faulty : Finset PublicKey}
    {sent sent' : List Vote} {height : U64} {hash : Hash} (hsub : ∀ w ∈ sent, w ∈ sent')
    (h : Certified genesis faulty sent height hash) :
    Certified genesis faulty sent' height hash := by
  obtain ⟨Q, hQ, hvotes⟩ := h
  refine ⟨Q, hQ, fun k hk hf => ?_⟩
  obtain ⟨w, hw, hfields⟩ := hvotes k hk hf
  exact ⟨w, hsub w hw, hfields⟩

theorem Backed.mono {faulty : Finset PublicKey} {sent sent' : List Vote} {S : VoteSet}
    (hsub : ∀ w ∈ sent, w ∈ sent') (h : Backed faulty sent S) : Backed faulty sent' S := by
  intro k v hv hf
  obtain ⟨w, hw, hsame⟩ := h k v hv hf
  exact ⟨w, hsub w hw, hsame⟩

/-! ## 3. One peer's part -/

/-- What holds of a peer and its chain, given the votes sent. -/
structure Part (E : Env) (genesis : GenesisConfig) (H : List BlockHeader)
    (faulty : Finset PublicKey) (first : Block) (sent : List Vote) (P : Peer) (chain : List Block) :
    Prop where
  config : P.node.genesis = genesis
  head : chain[0]? = some first
  honest : P.Honest E H chain
  kept : P.Kept E
  backed : ∀ key S, P.voteSets key = some S → Backed faulty sent S
  finalizing : ∀ S, .finalizing S ∈ P.tasks → Backed faulty sent S
  final : ∀ height hash, Finalized P.node height hash →
    (height = first.header.height ∧ hash = E.crypto.blockHeaderId first.header) ∨
      Certified genesis faulty sent height hash

variable {E : Env} {genesis : GenesisConfig} {H : List BlockHeader} {faulty : Finset PublicKey}
  {first : Block} {sent sent' : List Vote} {P : Peer} {chain : List Block} {e : Peer.Event}

theorem Part.mono (h : Part E genesis H faulty first sent P chain)
    (hsub : ∀ w ∈ sent, w ∈ sent') : Part E genesis H faulty first sent' P chain := by
  refine ⟨h.config, h.head, h.honest, h.kept, fun key S hS => (h.backed key S hS).mono hsub,
    fun S hS => (h.finalizing S hS).mono hsub, fun height hash hf => ?_⟩
  exact (h.final height hash hf).imp_right (Certified.mono hsub)

/-- Handing in a set leaves the finality entries alone, or the set passes and names the tip. -/
theorem finalized_next {n : Node} {io : Io} {S : VoteSet} (hio : io.fault = none) {height : U64}
    {hash : Hash} (h : Finalized (n.next E (.finalizeVotes io S)) height hash) :
    Finalized n height hash ∨ (n.Passes E n.latestBlock S ∧ height = S.height ∧
      hash = S.blockHash) := by
  have hstate : n.next E (.finalizeVotes io S) = (n.finalizeVotes E io S).state := rfl
  rw [hstate, Node.finalizeVotes_state] at h
  cases hvotes : n.checkVotes E S with
  | error err =>
    rw [hvotes] at h
    exact Or.inl h
  | ok u =>
    rw [hvotes, hio] at h
    have hpasses := Node.checkVotes_iff.mp hvotes
    rcases Store.markFinalized_cases n.store S.height (n.latestHash E) none with
      hsame | ⟨b, current, -, -, -, -, hmark⟩
    · simp only [hsame] at h
      exact Or.inl h
    · simp only [hmark] at h
      have hheight : Store.finalizedHeight (n.store.insertAll
          (Store.finalizedWrites S.height (n.latestHash E))) = .ok height := h.1
      have hhash : Store.finalizedHash (n.store.insertAll
          (Store.finalizedWrites S.height (n.latestHash E))) = .ok hash := h.2
      rw [Store.finalizedHeight_finalized] at hheight
      rw [Store.finalizedHash_finalized] at hhash
      refine Or.inr ⟨hpasses, (Except.ok.inj hheight).symm, ?_⟩
      rw [hpasses.blockHash]
      exact (Except.ok.inj hhash).symm

/-- A set that passes certifies its block. -/
theorem certified_of_passes (hg : P.node.genesis = genesis) {S : VoteSet}
    (hsound : S.Sound E.crypto P.node.validatorSet) (hbacked : Backed faulty sent S)
    (hp : P.node.Passes E P.node.latestBlock S) :
    Certified genesis faulty sent S.height S.blockHash := by
  have hset : P.node.validatorSet = .new genesis.validators := by rw [Node.validatorSet, hg]
  have hquorum := hp.quorum
  rw [hset] at hsound hquorum
  refine ⟨S.votes.keyFinset, hsound.isQuorum hquorum, fun k hk hf => ?_⟩
  obtain ⟨v, hv⟩ := Option.isSome_iff_exists.mp
    (ExtTreeMap.mem_iff_isSome_getElem?.mp (BTreeMap.mem_keyFinset.mp hk))
  obtain ⟨rfl, hvalid⟩ := hsound k v hv
  obtain ⟨w, hw, hsame⟩ := hbacked _ v hv hf
  obtain ⟨hvalidator, hheight, hhash⟩ := hsame.fields
  exact ⟨w, hw, hvalidator, hheight.trans hvalid.height, hhash.trans hvalid.blockHash⟩

theorem backed_setFor (h : Part E genesis H faulty first sent P chain) (v : Vote) :
    Backed faulty sent (P.setFor v) := by
  unfold Peer.setFor
  cases hS : P.voteSets v.key with
  | none =>
    intro k w hw _
    have hempty : (∅ : BTreeMap PublicKey Vote)[k]? = some w := hw
    rw [ExtTreeMap.getElem?_empty] at hempty
    cases hempty
  | some S => exact h.backed v.key S hS

/-- The set with a vote that has arrived is backed. -/
theorem backed_countedSet (h : Part E genesis H faulty first sent P chain) {v : Vote}
    (hcounts : P.Counts E v)
    (hunforged : E.crypto.verify v.validator v.signingBytes v.signature = true →
      v.validator ∉ faulty → ∃ w ∈ sent, w.SameMessage v) : Backed faulty sent (P.countedSet v) := by
  intro k w hw hf
  have hinsert : ((P.setFor v).votes.insert v.validator v)[k]? = some w := hw
  rw [ExtTreeMap.getElem?_insert] at hinsert
  split at hinsert
  · cases hinsert
    exact hunforged hcounts.1.signed hf
  · exact backed_setFor h v k w hinsert hf

/-- The sets of the table after a vote. -/
theorem backed_putSet (h : Part E genesis H faulty first sent P chain) {v : Vote} {T : VoteSet}
    (hT : Backed faulty sent T) (key : VoteKey) (S : VoteSet)
    (hS : (P.putSet v.key T).voteSets key = some S) : Backed faulty sent S := by
  by_cases hkey : key = v.key
  · subst hkey
    rw [Peer.putSet_self] at hS
    cases hS
    exact hT
  · rw [Peer.putSet_of_ne hkey] at hS
    exact h.backed key S hS

/-- What an event marks final is certified, where it was not final before. -/
theorem Part.certifies (h : Part E genesis H faulty first sent P chain)
    (hr : P.Regular E H e) {height : U64} {hash : Hash}
    (hf : Finalized (P.next E e).node height hash) :
    Finalized P.node height hash ∨ Certified genesis faulty sent height hash := by
  have hcalm := hr.calm
  have hsame : ∀ {c : Node.Call}, c.fault = none → (∀ io S, c ≠ .finalizeVotes io S) →
      Finalized (P.node.next E c) height hash → Finalized P.node height hash :=
    fun hrel hc hf => by
      obtain ⟨hheight, hhash⟩ := Node.finality_next (E := E) (n := P.node) hrel hc
      exact ⟨hheight ▸ hf.1, hhash ▸ hf.2⟩
  have hstep := Peer.next_step (E := E) hr.lock e
  generalize P.next E e = P' at hstep hf
  cases hstep with
  | begun blocks votes _ => exact Or.inl hf
  | counted v _ _ => exact Or.inl hf
  | quorum v _ _ => exact Or.inl hf
  | uncounted v _ => exact Or.inl hf
  | imported io i b rest votes hash' _ _ =>
    exact Or.inl (hsame (c := .importBlock io b) hcalm (fun _ _ h => by cases h) hf)
  | failed io i b rest votes poisoned _ =>
    exact Or.inl (hsame (c := .importBlock io b) hcalm (fun _ _ h => by cases h) hf)
  | sent io i votes _ => exact Or.inl hf
  | finalized io i S poisoned htask =>
    rcases finalized_next hcalm hf with hold | ⟨hp, rfl, rfl⟩
    · exact Or.inl hold
    · have hin := List.mem_of_getElem? htask
      exact Or.inr (certified_of_passes h.config (h.kept.finalizing S hin)
        (h.finalizing S hin) hp)
  | absent io i _ => exact Or.inl hf
  | called c poisoned => exact Or.inl (hsame hcalm.1 hcalm.2 hf)

/-- The sets of a peer after an event, in the table and on their way to the node. -/
theorem Part.backs (h : Part E genesis H faulty first sent P chain) (hlock : P.poisoned = false)
    (hunforged : ∀ v, e = .vote v →
      E.crypto.verify v.validator v.signingBytes v.signature = true → v.validator ∉ faulty →
        ∃ w ∈ sent, w.SameMessage v) :
    (∀ key S, (P.next E e).voteSets key = some S → Backed faulty sent S) ∧
      ∀ S, .finalizing S ∈ (P.next E e).tasks → Backed faulty sent S := by
  have hstep := Peer.next_step (E := E) hlock e
  generalize P.next E e = P' at hstep
  cases hstep with
  | begun blocks votes _ =>
    refine ⟨h.backed, fun S hS => ?_⟩
    rcases List.mem_append.mp hS with hS | hS
    · exact h.finalizing S hS
    · cases List.mem_singleton.mp hS
  | counted v hc _ =>
    have hnew := backed_countedSet h hc (hunforged v rfl)
    exact ⟨fun key S hS => backed_putSet h hnew key S hS, h.finalizing⟩
  | quorum v hc _ =>
    have hnew := backed_countedSet h hc (hunforged v rfl)
    refine ⟨fun key S hS => backed_putSet h hnew key S hS, fun S hS => ?_⟩
    rcases List.mem_append.mp hS with hS | hS
    · exact h.finalizing S hS
    · cases List.mem_singleton.mp hS
      exact hnew
  | uncounted v _ =>
    exact ⟨fun key S hS => backed_putSet h (backed_setFor h v) key S hS, h.finalizing⟩
  | imported io i b rest votes hash _ _ =>
    exact ⟨h.backed, fun S hS => h.finalizing S (Peer.mem_tasks_of_set hS)⟩
  | failed io i b rest votes poisoned _ =>
    exact ⟨h.backed, fun S hS => h.finalizing S (List.mem_of_mem_eraseIdx hS)⟩
  | sent io i votes _ =>
    exact ⟨h.backed, fun S hS => h.finalizing S (List.mem_of_mem_eraseIdx hS)⟩
  | finalized io i S poisoned _ =>
    exact ⟨h.backed, fun S hS => h.finalizing S (List.mem_of_mem_eraseIdx hS)⟩
  | absent io i _ => exact ⟨h.backed, h.finalizing⟩
  | called c poisoned => exact ⟨h.backed, h.finalizing⟩

/-- **An event keeps its peer's part**, and the votes it sends are for blocks of the chain. -/
theorem Part.next (h : Part E genesis H faulty first sent P chain)
    (hsep : E.crypto.SeparatesHeaders H) (hr : P.Regular E H e)
    (hunforged : ∀ v, e = .vote v →
      E.crypto.verify v.validator v.signingBytes v.signature = true → v.validator ∉ faulty →
        ∃ w ∈ sent, w.SameMessage v) :
    ∃ chain', chain <+: chain' ∧ Part E genesis H faulty first sent (P.next E e) chain' ∧
      ∀ v ∈ P.sends e, Peer.Own E P v ∧ ∃ b ∈ chain', v.For E b := by
  obtain ⟨chain', hsub, hhonest, hsends⟩ := h.honest.next hsep hr
  obtain ⟨hbacked, hfinalizing⟩ := h.backs (e := e) hr.lock hunforged
  refine ⟨chain', hsub, ⟨?_, ?_, hhonest, h.kept.next hr.lock e, hbacked, hfinalizing, ?_⟩, hsends⟩
  · rw [Peer.genesis_next hr.lock, h.config]
  · obtain ⟨rest, rfl⟩ := hsub
    have hlt := (List.getElem?_eq_some_iff.mp h.head).1
    rw [List.getElem?_append_left hlt, h.head]
  · intro height hash hf
    rcases h.certifies hr hf with hold | hnew
    · exact h.final height hash hold
    · exact Or.inr hnew

/-! ## 4. All peers -/

theorem validator_next (hlock : P.poisoned = false) (e : Peer.Event) :
    (P.next E e).validator = P.validator := by
  have hstep := Peer.next_step (E := E) hlock e
  generalize P.next E e = P' at hstep
  cases hstep with
  | begun blocks votes _ => rfl
  | counted v _ _ => rfl
  | quorum v _ _ => rfl
  | uncounted v _ => rfl
  | imported io i b rest votes hash _ _ => rfl
  | failed io i b rest votes poisoned _ => rfl
  | sent io i votes _ => rfl
  | finalized io i S poisoned _ => rfl
  | absent io i _ => rfl
  | called c poisoned => rfl

/-- Every peer plays its part, and what has been sent is for blocks of the sender's chain. -/
structure Sound (E : Env) (genesis : GenesisConfig) (H : List BlockHeader)
    (faulty : Finset PublicKey) (first : Block) (validators : ι → Option KeyPair) (N : Network ι)
    (chains : ι → List Block) : Prop where
  part : ∀ i, Part E genesis H faulty first N.sent (N.peers i) (chains i)
  validator : ∀ i, (N.peers i).validator = validators i
  sent : ∀ v ∈ N.sent, ∃ i, Peer.Own E (N.peers i) v ∧ ∃ b ∈ chains i, v.For E b

variable {N : Network ι} {validators : ι → Option KeyPair} {chains : ι → List Block}
  {a : ι × Peer.Event} {es es' : List (ι × Peer.Event)}

/-- **An event keeps the network sound**, and extends the chains. -/
theorem Sound.next [DecidableEq ι]
    (h : Sound E genesis H faulty first validators N chains) (hsep : E.crypto.SeparatesHeaders H)
    (hr : Regular E H faulty N a) :
    ∃ chains', Sound E genesis H faulty first validators (N.next E a) chains' := by
  obtain ⟨i, e⟩ := a
  obtain ⟨chain', hsub, hpart, hsends⟩ := (h.part i).next hsep hr.peer hr.unforged
  have hlock : (N.peers i).poisoned = false := hr.peer.lock
  have hmono : ∀ w ∈ N.sent, w ∈ (N.next E (i, e)).sent := fun w hw => List.mem_append_left _ hw
  have hself : (N.next E (i, e)).peers i = (N.peers i).next E e := Function.update_self ..
  have hother : ∀ j, j ≠ i → (N.next E (i, e)).peers j = N.peers j := fun j hj =>
    Function.update_of_ne hj ..
  have hvalidator : ∀ j, ((N.next E (i, e)).peers j).validator = (N.peers j).validator := by
    intro j
    by_cases hj : j = i
    · subst hj
      rw [hself, validator_next hlock]
    · rw [hother j hj]
  refine ⟨Function.update chains i chain', fun j => ?_, fun j => ?_, fun v hv => ?_⟩
  · by_cases hj : j = i
    · subst hj
      rw [hself, Function.update_self]
      exact hpart.mono hmono
    · rw [hother j hj, Function.update_of_ne hj]
      exact (h.part j).mono hmono
  · rw [hvalidator, h.validator]
  · rcases List.mem_append.mp hv with hv | hv
    · obtain ⟨j, hown, b, hb, hfor⟩ := h.sent v hv
      refine ⟨j, ?_, b, ?_, hfor⟩
      · unfold Peer.Own at hown ⊢
        rw [hvalidator]
        exact hown
      · by_cases hj : j = i
        · subst hj
          rw [Function.update_self]
          exact hsub.subset hb
        · rw [Function.update_of_ne hj]
          exact hb
    · obtain ⟨hown, b, hb, hfor⟩ := hsends v hv
      refine ⟨i, ?_, b, ?_, hfor⟩
      · unfold Peer.Own at hown ⊢
        rw [hvalidator]
        exact hown
      · rw [Function.update_self]
        exact hb

/-- **The network stays sound** on every regular run. -/
theorem sound_runs [DecidableEq ι]
    (h : Sound E genesis H faulty first validators N chains) (hsep : E.crypto.SeparatesHeaders H)
    (hr : EachStep (next E) (Regular E H faulty) N es) :
    ∃ chains', Sound E genesis H faulty first validators (runs (next E) N es) chains' := by
  induction es generalizing N chains with
  | nil => exact ⟨chains, h⟩
  | cons a es ih =>
    obtain ⟨chains', h'⟩ := h.next hsep hr.1
    exact ih h' hr.2

theorem sent_runs [DecidableEq ι] (N : Network ι) (es : List (ι × Peer.Event)) :
    ∀ w ∈ N.sent, w ∈ (runs (next E) N es).sent := by
  induction es generalizing N with
  | nil => exact fun w hw => hw
  | cons a es ih => exact fun w hw => ih (N.next E a) w (List.mem_append_left _ hw)

theorem sound_start {s : State} (hgenesis : (Node.makeGenesisBlock E genesis s).header ∈ H) :
    Sound E genesis H faulty (Node.makeGenesisBlock E genesis s) validators
      (start E genesis s validators) fun _ => [Node.makeGenesisBlock E genesis s] := by
  have hint := Node.integrity_fresh E genesis s
  refine ⟨fun i => ⟨rfl, rfl, ⟨hint, Node.onlyStores_fresh E genesis s, ?_, ?_, ?_⟩, ⟨?_, ?_, ?_⟩,
    ?_, ?_, ?_⟩, fun i => rfl, fun v hv => absurd hv List.not_mem_nil⟩
  · intro b hb
    rw [List.mem_singleton.mp hb]
    exact hgenesis
  · exact fun _ _ ht => absurd ht List.not_mem_nil
  · exact fun _ _ ht => absurd ht List.not_mem_nil
  · intro key S hS
    cases hS
  · intro key S hS
    cases hS
  · exact fun _ ht => absurd ht List.not_mem_nil
  · intro key S hS
    cases hS
  · exact fun _ ht => absurd ht List.not_mem_nil
  · intro height hash hf
    obtain ⟨b, hb, hheight, hhash⟩ := hint.final
    rw [List.mem_singleton.mp hb] at hheight hhash
    have hfin : Finalized (.fresh E genesis s) height hash := hf
    unfold Finalized at hfin
    rw [hheight, hhash] at hfin
    exact Or.inl ⟨(Except.ok.inj hfin.1).symm, (Except.ok.inj hfin.2).symm⟩

/-! ## 5. Agreement -/

/-- One chain has one block a height. -/
theorem eq_of_height {n : Node} {b b' : Block} (h : Node.Integrity E n chain) (hb : b ∈ chain)
    (hb' : b' ∈ chain) (heq : b.header.height = b'.header.height) : b = b' := by
  obtain ⟨i, hi⟩ := List.mem_iff_getElem?.mp hb
  obtain ⟨j, hj⟩ := List.mem_iff_getElem?.mp hb'
  have hij : i = j := by rw [← h.heights i b hi, ← h.heights j b' hj, heq]
  subst hij
  exact Option.some.inj (hi.symm.trans hj)

/-- **An honest validator sends one vote a height.** -/
theorem Sound.sent_unique (h : Sound E genesis H faulty first validators N chains)
    (hone : OneNode E faulty validators) {v w : Vote} (hv : v ∈ N.sent) (hw : w ∈ N.sent)
    (hsame : v.validator = w.validator) (hf : v.validator ∉ faulty)
    (hheight : v.height = w.height) : v.blockHash = w.blockHash := by
  obtain ⟨i, ⟨key, hkey, hvkey⟩, b, hb, hbv⟩ := h.sent v hv
  obtain ⟨j, ⟨key', hkey', hwkey⟩, b', hb', hbw⟩ := h.sent w hw
  rw [h.validator] at hkey hkey'
  have hij : i = j := hone i j key key' hkey hkey' (by rw [← hvkey, ← hwkey, hsame])
    (by rw [← hvkey]; exact hf)
  subst hij
  have heq : b = b' := eq_of_height (h.part i).honest.integrity hb hb'
    (by rw [← hbv.1, ← hbw.1, hheight])
  rw [hbv.2, hbw.2, heq]

/-- **Two certificates of one height are for one block.** -/
theorem Sound.certified_unique (h : Sound E genesis H faulty first validators N chains)
    (hone : OneNode E faulty validators)
    (hfaulty : 3 * faulty.card < (ValidatorSet.keys genesis.validators).card) {height : U64}
    {x y : Hash} (hx : Certified genesis faulty N.sent height x)
    (hy : Certified genesis faulty N.sent height y) : x = y := by
  obtain ⟨Q, hQ, hvotes⟩ := hx
  obtain ⟨R, hR, hvotes'⟩ := hy
  obtain ⟨k, hk, hf⟩ := hQ.exists_correct hR hfaulty
  obtain ⟨hkQ, hkR⟩ := Finset.mem_inter.mp hk
  obtain ⟨v, hv, rfl, hvh, rfl⟩ := hvotes k hkQ hf
  obtain ⟨w, hw, hsame, hwh, rfl⟩ := hvotes' _ hkR hf
  exact h.sent_unique hone hv hw hsame.symm hf (hvh.trans hwh.symm)

/-- What is certified at the first block's height is the first block. -/
theorem Sound.certified_first (h : Sound E genesis H faulty first validators N chains)
    (hfaulty : 3 * faulty.card < (ValidatorSet.keys genesis.validators).card) {x : Hash}
    (hx : Certified genesis faulty N.sent first.header.height x) :
    x = E.crypto.blockHeaderId first.header := by
  obtain ⟨Q, hQ, hvotes⟩ := hx
  obtain ⟨k, hk, hf⟩ := hQ.exists_correct hQ hfaulty
  obtain ⟨v, hv, rfl, hvh, rfl⟩ := hvotes k (Finset.mem_inter.mp hk).1 hf
  obtain ⟨i, -, b, hb, hbv⟩ := h.sent v hv
  have hfirst : first ∈ chains i := List.mem_of_getElem? (h.part i).head
  have heq : b = first := eq_of_height (h.part i).honest.integrity hb hfirst
    (by rw [← hbv.1, hvh])
  rw [hbv.2, heq]

/-- **Finality agreement.** Peers of one genesis with distinct validator keys serve each other, on
    any run without crashes below the greatest height, while less than a third of the validators is
    faulty. No two of them ever mark different blocks of one height final; an honest validator never
    sends votes for two blocks of one height; and two quorums share a third of the validators. -/
theorem finality_agreement [DecidableEq ι] {s : State}
    (hdistinct : (genesis.validators.map (·.publicKey)).Nodup)
    (hfaulty : 3 * faulty.card < genesis.validators.length)
    (hone : OneNode E faulty validators) (hsep : E.crypto.SeparatesHeaders H)
    (hgenesis : (Node.makeGenesisBlock E genesis s).header ∈ H)
    (hr : EachStep (next E) (Regular E H faulty) (start E genesis s validators) (es ++ es')) :
    (∀ i j height x y,
      Finalized ((runs (next E) (start E genesis s validators) es).peers i).node height x →
      Finalized ((runs (next E) (start E genesis s validators) (es ++ es')).peers j).node height y →
        x = y) ∧
    (∀ v w, v ∈ (runs (next E) (start E genesis s validators) (es ++ es')).sent →
      w ∈ (runs (next E) (start E genesis s validators) (es ++ es')).sent →
      v.validator = w.validator → v.validator ∉ faulty → v.height = w.height →
        v.blockHash = w.blockHash) ∧
    ∀ S T : VoteSet, S.Sound E.crypto (.new genesis.validators) →
      T.Sound E.crypto (.new genesis.validators) → S.isQuorum (.new genesis.validators) = true →
      T.isQuorum (.new genesis.validators) = true →
        genesis.validators.length ≤ 3 * (S.votes.keyFinset ∩ T.votes.keyFinset).card := by
  have hcard : (ValidatorSet.keys genesis.validators).card = genesis.validators.length := by
    rw [ValidatorSet.keys, List.toFinset_card_of_nodup hdistinct, List.length_map]
  have hfew : 3 * faulty.card < (ValidatorSet.keys genesis.validators).card := by
    rw [hcard]
    exact hfaulty
  obtain ⟨hr1, hr2⟩ := eachStep_append.mp hr
  obtain ⟨chains, h⟩ := sound_runs (sound_start hgenesis) hsep hr1
  obtain ⟨chains', h'⟩ := sound_runs h hsep hr2
  rw [runs_append]
  refine ⟨fun i j height x y hx hy => ?_, fun v w hv hw hsame hf hheight => ?_,
    fun S T hS hT hSq hTq => ?_⟩
  · have hmono := sent_runs (E := E) (runs (next E) (start E genesis s validators) es) es'
    rcases (h.part i).final height x hx with ⟨rfl, rfl⟩ | hcx
    · rcases (h'.part j).final _ y hy with ⟨-, rfl⟩ | hcy
      · rfl
      · exact (h'.certified_first hfew hcy).symm
    · rcases (h'.part j).final _ y hy with ⟨rfl, rfl⟩ | hcy
      · exact h'.certified_first hfew (hcx.mono hmono)
      · exact h'.certified_unique hone hfew (hcx.mono hmono) hcy
  · exact h'.sent_unique hone hv hw hsame hf hheight
  · rw [← hcard]
    exact (hS.isQuorum hSq).inter (hT.isQuorum hTq)

end Network

/-! ## 6. Four validators -/

namespace Peer

variable {E : Env} {H : List BlockHeader} {P : Peer} {e : Event}

/-- The node of a peer makes the event's call. -/
theorem node_next (hlock : P.poisoned = false) {c : Node.Call} (hc : P.nodeCall e = some c) :
    (P.next E e).node = P.node.next E c := by
  have hstep := next_step (E := E) hlock e
  generalize P.next E e = P' at hstep
  cases hstep with
  | begun blocks votes _ => simp [nodeCall] at hc
  | counted v _ _ => simp [nodeCall] at hc
  | quorum v _ _ => simp [nodeCall] at hc
  | uncounted v _ => simp [nodeCall] at hc
  | imported io i b rest votes hash htask _ =>
    rw [nodeCall_importing hlock io htask] at hc
    cases hc
    rfl
  | failed io i b rest votes poisoned htask =>
    rw [nodeCall_importing hlock io htask] at hc
    cases hc
    rfl
  | sent io i votes htask => simp [nodeCall, htask] at hc
  | finalized io i S poisoned htask =>
    rw [nodeCall_finalizing hlock io htask] at hc
    cases hc
    rfl
  | absent io i htask => simp [nodeCall, htask] at hc
  | called c' poisoned =>
    rw [nodeCall_called hlock] at hc
    cases hc
    rfl

/-- Whether an event is regular is seen from the heights and from the headers that turn up. -/
theorem regular_of (hlock : P.poisoned = false) (hcalm : e.Calm)
    (hroom : P.node.latestBlock.header.height.toNat + 1 < 2 ^ 64)
    (hbrings : ∀ b ∈ e.brings, b.header ∈ H)
    (hlatest : (P.next E e).node.latestBlock.header ∈ H) : P.Regular E H e := by
  refine ⟨hlock, hcalm, fun _ _ _ _ _ => hroom, hbrings, fun c hc b hb => ?_⟩
  rw [node_next hlock hc] at hlatest
  unfold Node.adopted at hb
  split at hb
  · exact absurd hb List.not_mem_nil
  · rw [List.mem_singleton.mp hb]
    exact hlatest

end Peer

namespace Sample

/-- Another block of the same height. -/
def rivalBlock : Block :=
  { votedBlock with header := { votedBlock.header with timestamp := 3 } }

def headers : List BlockHeader :=
  [(Node.makeGenesisBlock tagged votingGenesis (genesisState 1)).header, votedBlock.header,
    rivalBlock.header]

theorem headers_separate : tagged.crypto.SeparatesHeaders headers := by
  have h01 : (Node.makeGenesisBlock tagged votingGenesis (genesisState 1)).header.height ≠
      votedBlock.header.height := by decide +kernel
  have h02 : (Node.makeGenesisBlock tagged votingGenesis (genesisState 1)).header.height ≠
      rivalBlock.header.height := h01
  have h12 : votedBlock.header.timestamp ≠ rivalBlock.header.timestamp := by decide +kernel
  intro h hh h' hh' heq
  obtain ⟨hheight, htime⟩ := tagged_binds heq
  simp only [headers, List.mem_cons, List.not_mem_nil, or_false] at hh hh'
  rcases hh with rfl | rfl | rfl
  · rcases hh' with rfl | rfl | rfl
    · rfl
    · exact absurd hheight h01
    · exact absurd hheight h02
  · rcases hh' with rfl | rfl | rfl
    · exact absurd hheight.symm h01
    · rfl
    · exact absurd htime h12
  · rcases hh' with rfl | rfl | rfl
    · exact absurd hheight.symm h02
    · exact absurd htime.symm h12
    · rfl

/-- Two peers with the keys of the first two validators. -/
def votingNetwork : Network Bool :=
  .start tagged votingGenesis (genesisState 1) fun second =>
    some (if second then otherKeyPair else keyPair)

/-- The fourth validator deviates. -/
def deviating : Finset PublicKey := {tagged.crypto.publicKey fourthKeyPair}

/-- Its vote for the other block. -/
def rivalVote : Vote :=
  .sign tagged.crypto chainId 1 0 (tagged.crypto.blockHeaderId rivalBlock.header) fourthKeyPair

/-- The block arrives at a peer, is imported, and the vote for it is sent. -/
def imports (second : Bool) : List (Bool × Peer.Event) :=
  [(second, .blocks [votedBlock]), (second, .work ⟨3, none⟩ 0), (second, .work ⟨3, none⟩ 0)]

/-- The votes of the two peers and of the fourth validator are handed in. -/
def finalizes (second : Bool) : List (Bool × Peer.Event) :=
  (arriving ([keyPair, otherKeyPair, fourthKeyPair].map (voteBy chainId))).map (second, ·)

/-- The first peer marks the block final. -/
def firstFinal : List (Bool × Peer.Event) := imports false ++ imports true ++ finalizes false

/-- The second one is sent both votes of the fourth validator. -/
def secondFinal : List (Bool × Peer.Event) := (true, .vote rivalVote) :: finalizes true

theorem oneNode_voting : Network.OneNode tagged deviating fun second : Bool =>
    some (if second then otherKeyPair else keyPair) := by
  have hne : tagged.crypto.publicKey keyPair ≠ tagged.crypto.publicKey otherKeyPair := by
    decide +kernel
  intro i j key key' hi hj heq _
  cases hi
  cases hj
  cases i with
  | false =>
    cases j with
    | false => rfl
    | true => exact absurd heq hne
  | true =>
    cases j with
    | false => exact absurd heq.symm hne
    | true => rfl

/-- What is computed of an event that is regular: a vote that arrives is the deviating validator's,
    or has been sent. -/
def Seen (N : Network Bool) (e : Bool × Peer.Event) : Prop :=
  (N.peers e.1).poisoned = false ∧
    (N.peers e.1).node.latestBlock.header.height.toNat + 1 < 2 ^ 64 ∧
    (∀ b ∈ e.2.brings, b.header ∈ headers) ∧
    ((N.peers e.1).next tagged e.2).node.latestBlock.header ∈ headers ∧
    ∀ v ∈ Peer.delivered [e.2], v.validator ∈ deviating ∨ v ∈ N.sent

instance (N : Network Bool) (e : Bool × Peer.Event) : Decidable (Seen N e) :=
  inferInstanceAs (Decidable (_ ∧ _))

theorem Seen.regular {N : Network Bool} {e : Bool × Peer.Event} (h : Seen N e)
    (hcalm : e.2.Calm) : N.Regular tagged headers deviating e := by
  obtain ⟨hlock, hroom, hbrings, hlatest, hvotes⟩ := h
  refine ⟨Peer.regular_of hlock hcalm hroom hbrings hlatest, fun v hv _ hhonest => ?_⟩
  rw [hv] at hvotes
  rcases hvotes v List.mem_cons_self with hd | hsent
  · exact absurd hd hhonest
  · exact ⟨v, hsent, rfl, rfl⟩

theorem imports_calm (second : Bool) : ∀ e ∈ imports second, e.2.Calm := by
  intro e he
  rcases List.mem_cons.mp he with rfl | he
  · trivial
  · rw [List.eq_of_mem_replicate (n := 2) he]
    exact rfl

theorem finalizes_calm (second : Bool) : ∀ e ∈ finalizes second, e.2.Calm := by
  intro e he
  obtain ⟨e', he', rfl⟩ := List.mem_map.mp he
  exact arriving_calm _ e' he'

theorem voting_calm : ∀ e ∈ firstFinal ++ secondFinal, e.2.Calm := by
  intro e he
  rcases List.mem_append.mp he with he | he
  · rcases List.mem_append.mp he with he | he
    · rcases List.mem_append.mp he with he | he
      · exact imports_calm false e he
      · exact imports_calm true e he
    · exact finalizes_calm false e he
  · rcases List.mem_cons.mp he with rfl | he
    · trivial
    · exact finalizes_calm true e he

/-- Every event is seen to be regular, and the block is final at one peer, then at both. -/
theorem evaluated_voting :
    EachStep (Network.next tagged) Seen votingNetwork (firstFinal ++ secondFinal) ∧
    ((runs (Network.next tagged) votingNetwork
      firstFinal).peers false).node.store.finalizedHeight = .ok 1 ∧
    ((runs (Network.next tagged) votingNetwork
      (firstFinal ++ secondFinal)).peers true).node.store.finalizedHeight = .ok 1 ∧
    Seen votingNetwork (false, .blocks [votedBlock, rivalBlock]) := by
  decide +kernel

theorem voting_regular : EachStep (Network.next tagged) (Network.Regular tagged headers deviating)
    votingNetwork (firstFinal ++ secondFinal) :=
  (evaluated_voting.1.and (.of_forall voting_calm)).mono fun _ _ h => h.1.regular h.2

end Sample

namespace Network

/-- The votes of two peers, and of a validator who also votes for another block, make the block
    final at both peers. -/
theorem finality_agreement_pair :
    ((∀ i j height x y,
      Finalized ((runs (next Sample.tagged) Sample.votingNetwork Sample.firstFinal).peers i).node
        height x →
      Finalized ((runs (next Sample.tagged) Sample.votingNetwork
        (Sample.firstFinal ++ Sample.secondFinal)).peers j).node height y → x = y) ∧
    ∀ v w, v ∈ (runs (next Sample.tagged) Sample.votingNetwork
        (Sample.firstFinal ++ Sample.secondFinal)).sent →
      w ∈ (runs (next Sample.tagged) Sample.votingNetwork
        (Sample.firstFinal ++ Sample.secondFinal)).sent →
      v.validator = w.validator → v.validator ∉ Sample.deviating → v.height = w.height →
        v.blockHash = w.blockHash) ∧
    ((runs (next Sample.tagged) Sample.votingNetwork
      Sample.firstFinal).peers false).node.store.finalizedHeight = .ok 1 ∧
    ((runs (next Sample.tagged) Sample.votingNetwork
      (Sample.firstFinal ++ Sample.secondFinal)).peers true).node.store.finalizedHeight = .ok 1 := by
  have hfew : 3 * Sample.deviating.card < Sample.votingGenesis.validators.length := by
    rw [Sample.deviating, Finset.card_singleton]
    decide
  obtain ⟨-, hfirst, hsecond, -⟩ := Sample.evaluated_voting
  have h := finality_agreement (by decide) hfew Sample.oneNode_voting Sample.headers_separate
    List.mem_cons_self Sample.voting_regular
  exact ⟨⟨h.1, h.2.1⟩, hfirst, hsecond⟩

/-- **A validator signs before it imports**: of two blocks of one height in a message, it signs
    votes for both and keeps them for the end of the import. The import of the second fails, and
    then neither vote is sent. -/
theorem signs_both_blocks :
    EachStep (next Sample.tagged) (Regular Sample.tagged Sample.headers Sample.deviating)
        Sample.votingNetwork [(false, .blocks [Sample.votedBlock, Sample.rivalBlock])] ∧
      ∃ votes v w, .importing [Sample.votedBlock, Sample.rivalBlock] votes ∈
          ((Sample.votingNetwork.next Sample.tagged
            (false, .blocks [Sample.votedBlock, Sample.rivalBlock])).peers false).tasks ∧
        v ∈ votes ∧ w ∈ votes ∧ v.validator = w.validator ∧
        v.validator ∉ Sample.deviating ∧ v.height = w.height ∧ v.blockHash ≠ w.blockHash ∧
        v.verify Sample.tagged.crypto = .ok () ∧ w.verify Sample.tagged.crypto = .ok () := by
  refine ⟨⟨Sample.evaluated_voting.2.2.2.regular trivial, trivial⟩, _,
    Sample.voteBy Sample.chainId Sample.keyPair,
    .sign Sample.tagged.crypto Sample.chainId 1 0
      (Sample.tagged.crypto.blockHeaderId Sample.rivalBlock.header) Sample.keyPair,
    List.mem_singleton_self _, ?_⟩
  decide +kernel

end Network

end WorldstreetChain
