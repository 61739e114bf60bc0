import WorldstreetChain.Network.Basic

/-!
# Votes that arrive

The votes for a block are counted in one set a round, on the chain id the set was made with. A set
is handed to the node each time a vote is counted in it, and never else.

* `Peer.Completes` -- votes that arrive complete a set that is on the node's chain.
* `Peer.completes_cons` -- **one vote after the other**: the first completes the set, or the rest.
* `Peer.due_runs_iff` -- **when a block gets final**: where some set is completed while it is the tip.
-/

namespace WorldstreetChain

open Std

/-! ## 1. What makes a block final -/

/-- More votes do not spoil a quorum. -/
theorem ValidatorSet.isQuorum_mono {V : ValidatorSet} {a b : Nat} (hab : a ≤ b)
    (h : V.isQuorum a = true) : V.isQuorum b = true := by
  unfold isQuorum saturatingMul at h ⊢
  rw [Bool.and_eq_true, decide_eq_true_iff, decide_eq_true_iff] at h ⊢
  omega

namespace Node

variable {E : Env} {n : Node} {io : Io} {S : VoteSet} {b : Block}

/-- The store marks the block final. -/
def Final (E : Env) (n : Node) (b : Block) : Prop :=
  n.store.finalizedHeight = .ok b.header.height ∧
    n.store.finalizedHash = .ok (E.crypto.blockHeaderId b.header)

/-- What the store marks final is not above the height. -/
def MarkedTo (n : Node) (height : U64) : Prop :=
  ∃ current, n.store.finalizedHeight = .ok current ∧ current ≤ height

theorem validateVotes_eq_ok {hash : Hash} {vs : List Vote} {x : Unit} :
    n.validateVotes E S hash vs = .ok x ↔ ∀ v ∈ vs,
      ValidVote E.crypto n.validatorSet v n.genesis.chainId S.height S.round hash := by
  induction vs with
  | nil => exact ⟨fun _ v hv => absurd hv List.not_mem_nil, fun _ => rfl⟩
  | cons v vs ih =>
    rw [List.forall_mem_cons, ← ih]
    constructor
    · intro h
      obtain ⟨u, hv, h⟩ := Outcome.bind_eq_ok.mp h
      exact ⟨validateVote_eq_ok.mp (Outcome.mapErr_eq_ok.mp hv), h⟩
    · rintro ⟨hv, h⟩
      refine Outcome.bind_eq_ok.mpr ⟨(), ?_, h⟩
      exact Outcome.mapErr_eq_ok.mpr (validateVote_eq_ok.mpr hv)

/-- The set is a quorum of votes for the block that are valid on the node's chain. -/
structure Passes (E : Env) (n : Node) (b : Block) (S : VoteSet) : Prop where
  height : S.height = b.header.height
  blockHash : S.blockHash = E.crypto.blockHeaderId b.header
  quorum : S.isQuorum n.validatorSet = true
  votes : ∀ v ∈ S.votes.toList.map Prod.snd,
    ValidVote E.crypto n.validatorSet v n.genesis.chainId S.height S.round
      (E.crypto.blockHeaderId b.header)

theorem checkVotes_iff : n.checkVotes E S = .ok () ↔ Passes E n n.latestBlock S := by
  constructor
  · intro h
    obtain ⟨hheight, hhash, hquorum, hvotes⟩ := checkVotes_eq_ok h
    exact ⟨hheight, hhash, hquorum, validateVotes_eq_ok.mp hvotes⟩
  · intro h
    unfold checkVotes
    refine rejectIf_bind_eq_ok.mpr ⟨not_not.mpr h.height, ?_⟩
    refine rejectIf_bind_eq_ok.mpr ⟨not_not.mpr h.blockHash, ?_⟩
    refine rejectIf_bind_eq_ok.mpr ⟨by rw [h.quorum]; decide, ?_⟩
    exact validateVotes_eq_ok.mpr h.votes

theorem Passes.congr {n' : Node} (hg : n'.genesis = n.genesis) :
    Passes E n' b S ↔ Passes E n b S := by
  have hset : n'.validatorSet = n.validatorSet := by rw [validatorSet, hg, validatorSet]
  constructor
  · intro h
    obtain ⟨hheight, hhash, hquorum, hvotes⟩ := h
    rw [hset] at hquorum hvotes
    rw [hg] at hvotes
    exact ⟨hheight, hhash, hquorum, hvotes⟩
  · intro h
    refine ⟨h.height, h.blockHash, ?_, ?_⟩
    · rw [hset]
      exact h.quorum
    · rw [hset, hg]
      exact h.votes

/-- Votes that do not pass leave the node as it is. -/
theorem finalizeVotes_of_error (h : n.checkVotes E S ≠ .ok ()) :
    (n.finalizeVotes E io S).state = n := by
  rw [finalizeVotes_state]
  cases hvotes : n.checkVotes E S with
  | error e => rfl
  | ok u => exact absurd hvotes h

/-- **Votes make the tip final** if they pass and nothing above it has been marked. -/
theorem finalizeVotes_final_iff
    (hstored : n.store.getBlock (n.latestHash E) = .ok n.latestBlock) (hio : io.fault = none) :
    Final E (n.finalizeVotes E io S).state n.latestBlock ↔
      Final E n n.latestBlock ∨
        (n.MarkedTo n.latestBlock.header.height ∧ Passes E n n.latestBlock S) := by
  rw [← checkVotes_iff]
  by_cases hvotes : n.checkVotes E S = .ok ()
  · have hstate : (n.finalizeVotes E io S).state = { n with store :=
        (n.store.markFinalized S.height (n.latestHash E) io.fault).state } := by
      rw [finalizeVotes_state, hvotes]
    obtain ⟨hheight, -, -, -⟩ := checkVotes_eq_ok hvotes
    rw [hstate, hheight, hio]
    cases hcurrent : n.store.finalizedHeight with
    | error e =>
      have hsame : (n.store.markFinalized n.latestBlock.header.height (n.latestHash E)
          none).state = n.store :=
        Store.markFinalized_error none fun _ current _ _ h => by
          rw [hcurrent] at h
          cases h
      have hnot : ¬ Final E n n.latestBlock := by
        rintro ⟨h, -⟩
        rw [hcurrent] at h
        cases h
      rw [hsame]
      constructor
      · exact Or.inl
      · rintro (h | ⟨⟨current, h, -⟩, -⟩)
        · exact h
        · rw [hcurrent] at h
          cases h
    | ok current =>
      rw [Store.markFinalized_eq hstored rfl hcurrent]
      by_cases hlt : n.latestBlock.header.height < current
      · rw [if_pos hlt]
        constructor
        · exact Or.inl
        · rintro (h | ⟨⟨current', h, hle⟩, -⟩)
          · exact h
          · rw [hcurrent] at h
            cases h
            exact absurd hlt (BitVec.not_lt.mpr hle)
      · rw [if_neg hlt]
        refine iff_of_true ⟨?_, ?_⟩ (Or.inr ⟨⟨current, hcurrent, BitVec.not_lt.mp hlt⟩, hvotes⟩)
        · exact Store.finalizedHeight_finalized _ _ _
        · exact Store.finalizedHash_finalized _ _ _
  · rw [finalizeVotes_of_error hvotes]
    constructor
    · exact Or.inl
    · rintro (h | ⟨-, h⟩)
      · exact h
      · exact absurd h hvotes

/-- Handing in votes does not move the mark above the tip. -/
theorem finalizeVotes_markedTo (hio : io.fault = none) :
    (n.finalizeVotes E io S).state.MarkedTo n.latestBlock.header.height ↔
      n.MarkedTo n.latestBlock.header.height := by
  by_cases hvotes : n.checkVotes E S = .ok ()
  · obtain ⟨hheight, -, -, -⟩ := checkVotes_eq_ok hvotes
    rw [finalizeVotes_state, hvotes, hheight, hio]
    rcases Store.markFinalized_cases n.store n.latestBlock.header.height (n.latestHash E) none with
      h | ⟨b, current, -, -, hcurrent, hle, h⟩
    · simp only [h]
    · simp only [h]
      refine iff_of_true ⟨_, Store.finalizedHeight_finalized _ _ _, BitVec.le_refl _⟩ ?_
      exact ⟨current, hcurrent, hle⟩
  · rw [finalizeVotes_of_error hvotes]

end Node

namespace Peer

variable {E : Env} {P P' : Peer} {b : Block} {v : Vote} {vs : List Vote} {key : VoteKey}

/-! ## 2. Votes that complete a set -/

/-- The key of the votes for a block in a round. -/
def blockKey (E : Env) (b : Block) (round : U64) : VoteKey :=
  (b.header.height, E.crypto.blockHeaderId b.header, round)

/-- The validator's vote is in the set for the key. -/
def HasVote (P : Peer) (key : VoteKey) (k : PublicKey) : Prop :=
  ∃ S, P.voteSets key = some S ∧ k ∈ S.votes

/-- A vote for the key that is valid on the node's chain. -/
def ValidFor (E : Env) (P : Peer) (key : VoteKey) (v : Vote) : Prop :=
  ValidVote E.crypto P.node.validatorSet v P.node.genesis.chainId key.1 key.2.2 key.2.1

/-- The chain id of the set for the key once the votes have arrived: the one it has, or that of
    the first of them. -/
def chainIdAt (P : Peer) (vs : List Vote) (key : VoteKey) : Option String :=
  ((P.voteSets key).map VoteSet.chainId).or ((vs.find? (·.key = key)).map Vote.chainId)

/-- With the votes that arrive, the set for the key is on the node's chain, it gets a vote more,
    and it is a quorum. -/
structure Completes (E : Env) (P : Peer) (vs : List Vote) (key : VoteKey) : Prop where
  chainId : P.chainIdAt vs key = some P.node.genesis.chainId
  fresh : ∃ v ∈ vs, P.ValidFor E key v ∧ ¬ P.HasVote key v.validator
  quorum : ∃ Q : Finset PublicKey, P.node.validatorSet.isQuorum Q.card = true ∧
    ∀ k ∈ Q, P.HasVote key k ∨ ∃ v ∈ vs, P.ValidFor E key v ∧ v.validator = k

/-- The vote is counted for the key on the node's chain, and makes a quorum. -/
structure Decides (E : Env) (P : Peer) (key : VoteKey) (v : Vote) : Prop where
  key : v.key = key
  counts : P.Counts E v
  chainId : (P.setFor v).chainId = P.node.genesis.chainId
  quorum : (P.countedSet v).isQuorum P.node.validatorSet = true

theorem ValidFor.key_eq (h : P.ValidFor E key v) : v.key = key := by
  obtain ⟨height, hash, round⟩ := key
  rw [Vote.key, h.height, h.blockHash, h.round]

theorem ValidFor.congr (hg : P'.node.genesis = P.node.genesis) :
    P'.ValidFor E key v ↔ P.ValidFor E key v := by
  unfold ValidFor Node.validatorSet
  rw [hg]

theorem mem_setFor {k : PublicKey} : k ∈ (P.setFor v).votes ↔ P.HasVote v.key k := by
  unfold setFor HasVote
  cases hS : P.voteSets v.key with
  | none =>
    constructor
    · intro hk
      exact absurd hk ExtTreeMap.not_mem_empty
    · rintro ⟨S, hS, -⟩
      cases hS
  | some S =>
    constructor
    · intro hk
      exact ⟨S, rfl, hk⟩
    · rintro ⟨S', hS', hk⟩
      cases hS'
      exact hk

/-- On the node's chain, what counts is a valid vote that is new. -/
theorem counts_iff (h : P.Kept E) (hchain : (P.setFor v).chainId = P.node.genesis.chainId) :
    P.Counts E v ↔ P.ValidFor E v.key v ∧ ¬ P.HasVote v.key v.validator := by
  have hkey := setFor_key h v
  have hheight : (P.setFor v).height = v.height := congrArg Prod.fst hkey
  have hhash : (P.setFor v).blockHash = v.blockHash := congrArg (fun k => k.2.1) hkey
  have hround : (P.setFor v).round = v.round := congrArg (fun k => k.2.2) hkey
  unfold Counts ValidFor
  rw [hchain, hheight, hhash, hround, mem_setFor]
  rfl

/-- **A counted set passes the node's tests** for a block if it is for it and on its chain. -/
theorem passes_counted (h : P.Kept E) (hc : P.Counts E v)
    (hquorum : (P.countedSet v).isQuorum P.node.validatorSet = true) :
    P.node.Passes E b (P.countedSet v) ↔ ∃ round, P.Decides E (blockKey E b round) v := by
  have hkey := setFor_key h v
  have hheight : (P.setFor v).height = v.height := congrArg Prod.fst hkey
  have hhash : (P.setFor v).blockHash = v.blockHash := congrArg (fun k => k.2.1) hkey
  constructor
  · intro hp
    have hh : v.height = b.header.height := hheight.symm.trans hp.height
    have hx : v.blockHash = E.crypto.blockHeaderId b.header := hhash.symm.trans hp.blockHash
    have hmem : v ∈ (P.countedSet v).votes.toList.map Prod.snd := by
      refine List.mem_map.mpr ⟨(v.validator, v), ?_, rfl⟩
      refine ExtTreeMap.mem_toList_iff_getElem?_eq_some.mpr ?_
      exact ExtTreeMap.getElem?_insert_self
    refine ⟨v.round, ?_, hc, hc.1.chainId.symm.trans (hp.votes v hmem).chainId, hquorum⟩
    rw [Vote.key, blockKey, hh, hx]
  · rintro ⟨round, hd⟩
    have hh : v.height = b.header.height := congrArg Prod.fst hd.key
    have hx : v.blockHash = E.crypto.blockHeaderId b.header := congrArg (fun k => k.2.1) hd.key
    refine ⟨hheight.trans hh, hhash.trans hx, hquorum, fun w hw => ?_⟩
    obtain ⟨⟨k, w'⟩, hmem, rfl⟩ := List.mem_map.mp hw
    obtain ⟨-, hvalid⟩ :=
      countedSet_sound h hc k w' (ExtTreeMap.mem_toList_iff_getElem?_eq_some.mp hmem)
    have hvalid' : ValidVote E.crypto P.node.validatorSet w' (P.setFor v).chainId
        (P.setFor v).height (P.setFor v).round (P.setFor v).blockHash := hvalid
    rw [hd.chainId, hhash, hx] at hvalid'
    exact hvalid'

/-! ## 3. One vote -/

/-- What is in the table after a vote. -/
theorem table_vote (hlock : P.poisoned = false) (v : Vote) :
    (P.next E (.vote v)).node = P.node ∧
    (∀ key, key ≠ v.key → (P.next E (.vote v)).voteSets key = P.voteSets key) ∧
    (P.Counts E v → (P.next E (.vote v)).voteSets v.key = some (P.countedSet v)) ∧
    (¬ P.Counts E v → (P.next E (.vote v)).voteSets v.key = some (P.setFor v)) := by
  have hstep := next_step (E := E) hlock (.vote v)
  generalize P.next E (.vote v) = P' at hstep
  cases hstep with
  | counted _ hc _ =>
    exact ⟨rfl, fun key hne => putSet_of_ne hne _, fun _ => putSet_self _ _, fun h => absurd hc h⟩
  | quorum _ hc _ =>
    exact ⟨rfl, fun key hne => putSet_of_ne hne _, fun _ => putSet_self _ _, fun h => absurd hc h⟩
  | uncounted _ hc =>
    exact ⟨rfl, fun key hne => putSet_of_ne hne _, fun h => absurd h hc, fun _ => putSet_self _ _⟩

theorem hasVote_vote (hlock : P.poisoned = false) (v : Vote) (key : VoteKey) (k : PublicKey) :
    (P.next E (.vote v)).HasVote key k ↔
      P.HasVote key k ∨ (v.key = key ∧ P.Counts E v ∧ v.validator = k) := by
  obtain ⟨-, hother, hcounted, huncounted⟩ := table_vote (E := E) hlock v
  by_cases hkey : v.key = key
  · subst hkey
    have hbefore : P.HasVote v.key k ↔ k ∈ (P.setFor v).votes := mem_setFor.symm
    rw [hbefore]
    by_cases hc : P.Counts E v
    · have hmem : (P.next E (.vote v)).HasVote v.key k ↔ k ∈ (P.countedSet v).votes := by
        unfold HasVote
        rw [hcounted hc]
        simp
      have hinsert : k ∈ (P.countedSet v).votes ↔ v.validator = k ∨ k ∈ (P.setFor v).votes := by
        show k ∈ (P.setFor v).votes.insert v.validator v ↔ _
        rw [ExtTreeMap.mem_insert, LawfulEqOrd.compare_eq_iff_eq]
      rw [hmem, hinsert, or_comm]
      simp [hc]
    · have hmem : (P.next E (.vote v)).HasVote v.key k ↔ k ∈ (P.setFor v).votes := by
        unfold HasVote
        rw [huncounted hc]
        simp
      rw [hmem]
      simp [hc]
  · unfold HasVote
    rw [hother key fun h => hkey h.symm]
    simp [hkey]

theorem chainIdAt_cons_self : P.chainIdAt (v :: vs) v.key = some (P.setFor v).chainId := by
  unfold chainIdAt setFor
  have hfirst : (v :: vs).find? (·.key = v.key) = some v :=
    List.find?_cons_of_pos (decide_eq_true rfl)
  rw [hfirst]
  cases P.voteSets v.key with
  | none => rfl
  | some S => rfl

/-- A vote that has arrived does not change whose chain the set will be on. -/
theorem chainIdAt_vote (hlock : P.poisoned = false) (v : Vote) (vs : List Vote) (key : VoteKey) :
    (P.next E (.vote v)).chainIdAt vs key = P.chainIdAt (v :: vs) key := by
  obtain ⟨-, hother, hcounted, huncounted⟩ := table_vote (E := E) hlock v
  by_cases hkey : v.key = key
  · subst hkey
    rw [chainIdAt_cons_self]
    unfold chainIdAt
    by_cases hc : P.Counts E v
    · rw [hcounted hc]
      rfl
    · rw [huncounted hc]
      rfl
  · unfold chainIdAt
    rw [hother key fun h => hkey h.symm, List.find?_cons_of_neg (by simp [hkey])]

/-- On the node's chain a valid vote counts unless its validator's is there already. -/
theorem ValidFor.counts (h : P.Kept E) (hv : P.ValidFor E key v)
    (hc : P.chainIdAt (v :: vs) key = some P.node.genesis.chainId)
    (hn : ¬ P.HasVote key v.validator) : P.Counts E v := by
  have hkey := hv.key_eq
  subst hkey
  rw [chainIdAt_cons_self] at hc
  exact (counts_iff h (Option.some.inj hc)).mpr ⟨hv, hn⟩

/-- A vote that decides a set completes it. -/
theorem Decides.completes (h : P.Kept E) (hd : P.Decides E key v) :
    P.Completes E (v :: vs) key := by
  obtain ⟨hkey, hc, hid, hquorum⟩ := hd
  subst hkey
  obtain ⟨hv, hn⟩ := (counts_iff h hid).mp hc
  refine ⟨?_, ⟨v, List.mem_cons_self, hv, hn⟩, (P.countedSet v).votes.keyFinset, ?_, ?_⟩
  · rw [chainIdAt_cons_self, hid]
  · rw [BTreeMap.card_keyFinset]
    exact hquorum
  · intro k hk
    have hmem : k ∈ (P.setFor v).votes.insert v.validator v := BTreeMap.mem_keyFinset.mp hk
    rw [ExtTreeMap.mem_insert, LawfulEqOrd.compare_eq_iff_eq, mem_setFor] at hmem
    rcases hmem with rfl | hthere
    · exact Or.inr ⟨v, List.mem_cons_self, hv, rfl⟩
    · exact Or.inl hthere

/-- What completes a set after a vote completes it with the vote. -/
theorem Completes.of_vote (h : P.Kept E) (hlock : P.poisoned = false)
    (hcomplete : (P.next E (.vote v)).Completes E vs key) : P.Completes E (v :: vs) key := by
  have hnode : (P.next E (.vote v)).node = P.node := (table_vote hlock v).1
  have hgenesis : (P.next E (.vote v)).node.genesis = P.node.genesis := by rw [hnode]
  have hvalid : ∀ w, (P.next E (.vote v)).ValidFor E key w ↔ P.ValidFor E key w :=
    fun _ => ValidFor.congr hgenesis
  have hhas := hasVote_vote (E := E) hlock v key
  obtain ⟨hc, ⟨w, hw, hwv, hwn⟩, Q, hQ, hQv⟩ := hcomplete
  rw [chainIdAt_vote hlock, hgenesis] at hc
  refine ⟨hc, ⟨w, List.mem_cons_of_mem _ hw, (hvalid w).mp hwv, fun hthere => ?_⟩, Q, ?_, ?_⟩
  · exact hwn ((hhas _).mpr (Or.inl hthere))
  · rw [← hnode]
    exact hQ
  · intro k hk
    rcases hQv k hk with hthere | ⟨u, hu, huv, rfl⟩
    · rcases (hhas k).mp hthere with hthere | ⟨hkey, hcv, rfl⟩
      · exact Or.inl hthere
      · subst hkey
        rw [chainIdAt_cons_self] at hc
        have hv := ((counts_iff h (Option.some.inj hc)).mp hcv).1
        exact Or.inr ⟨v, List.mem_cons_self, hv, rfl⟩
    · exact Or.inr ⟨u, List.mem_cons_of_mem _ hu, (hvalid u).mp huv, rfl⟩

/-- Where no vote behind the first would be new after it, the first decides the set. -/
theorem Completes.decides (h : P.Kept E) (hlock : P.poisoned = false)
    (hcomplete : P.Completes E (v :: vs) key)
    (hnone : ∀ u ∈ vs, P.ValidFor E key u → (P.next E (.vote v)).HasVote key u.validator) :
    P.Decides E key v := by
  have hhas := hasVote_vote (E := E) hlock v key
  obtain ⟨hc, ⟨w, hw, hwv, hwn⟩, Q, hQ, hQv⟩ := hcomplete
  have hcounts : v.key = key ∧ P.Counts E v := by
    rcases List.mem_cons.mp hw with rfl | hmem
    · exact ⟨hwv.key_eq, hwv.counts h hc hwn⟩
    · rcases (hhas _).mp (hnone w hmem hwv) with hthere | ⟨hk, hcv, -⟩
      · exact absurd hthere hwn
      · exact ⟨hk, hcv⟩
  obtain ⟨hkey, hcv⟩ := hcounts
  subst hkey
  have hsub : Q ⊆ (P.countedSet v).votes.keyFinset := by
    intro k hk
    refine BTreeMap.mem_keyFinset.mpr ?_
    show k ∈ (P.setFor v).votes.insert v.validator v
    rw [ExtTreeMap.mem_insert, LawfulEqOrd.compare_eq_iff_eq, mem_setFor]
    rcases hQv k hk with hthere | ⟨u, hu, huv, rfl⟩
    · exact Or.inr hthere
    · rcases List.mem_cons.mp hu with rfl | hmem
      · exact Or.inl rfl
      · rcases (hhas _).mp (hnone u hmem huv) with hthere | ⟨-, -, heq⟩
        · exact Or.inr hthere
        · exact Or.inl heq
  have hcard := Finset.card_le_card hsub
  rw [BTreeMap.card_keyFinset] at hcard
  rw [chainIdAt_cons_self] at hc
  exact ⟨rfl, hcv, Option.some.inj hc, ValidatorSet.isQuorum_mono hcard hQ⟩

/-- Where the first vote leaves something new to come, the rest completes the set. -/
theorem Completes.vote (h : P.Kept E) (hlock : P.poisoned = false)
    (hcomplete : P.Completes E (v :: vs) key)
    (hnew : ∃ u ∈ vs, P.ValidFor E key u ∧ ¬ (P.next E (.vote v)).HasVote key u.validator) :
    (P.next E (.vote v)).Completes E vs key := by
  have hnode : (P.next E (.vote v)).node = P.node := (table_vote hlock v).1
  have hgenesis : (P.next E (.vote v)).node.genesis = P.node.genesis := by rw [hnode]
  have hvalid : ∀ w, (P.next E (.vote v)).ValidFor E key w ↔ P.ValidFor E key w :=
    fun _ => ValidFor.congr hgenesis
  have hhas := hasVote_vote (E := E) hlock v key
  obtain ⟨hc, -, Q, hQ, hQv⟩ := hcomplete
  obtain ⟨w, hw, hwv, hwn⟩ := hnew
  refine ⟨?_, ⟨w, hw, (hvalid w).mpr hwv, hwn⟩, Q, ?_, fun k hk => ?_⟩
  · rw [chainIdAt_vote hlock, hgenesis, hc]
  · rw [hnode]
    exact hQ
  · rcases hQv k hk with hthere | ⟨u, hu, huv, rfl⟩
    · exact Or.inl ((hhas k).mpr (Or.inl hthere))
    · rcases List.mem_cons.mp hu with rfl | hmem
      · by_cases hthere : P.HasVote key u.validator
        · exact Or.inl ((hhas _).mpr (Or.inl hthere))
        · exact Or.inl ((hhas _).mpr (Or.inr ⟨huv.key_eq, huv.counts h hc hthere, rfl⟩))
      · exact Or.inr ⟨u, hmem, (hvalid u).mpr huv, rfl⟩

/-- **One vote after the other**: either the first completes the set, or those after it do. -/
theorem completes_cons (h : P.Kept E) (hlock : P.poisoned = false) :
    P.Completes E (v :: vs) key ↔
      P.Decides E key v ∨ (P.next E (.vote v)).Completes E vs key := by
  constructor
  · intro hcomplete
    by_cases hnew : ∃ u ∈ vs, P.ValidFor E key u ∧
        ¬ (P.next E (.vote v)).HasVote key u.validator
    · exact Or.inr (hcomplete.vote h hlock hnew)
    · refine Or.inl (hcomplete.decides h hlock fun u hu huv => ?_)
      exact by_contra fun hno => hnew ⟨u, hu, huv, hno⟩
  · intro hcases
    rcases hcases with hd | hcomplete
    · exact hd.completes h
    · exact hcomplete.of_vote h hlock

end Peer

end WorldstreetChain
