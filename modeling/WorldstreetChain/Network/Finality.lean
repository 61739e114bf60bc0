import WorldstreetChain.Network.Votes

/-!
# When a block gets final

A set of votes is handed to the node each time a vote is counted in it, and never else. So the tip
gets final where a vote completes its set after the tip has arrived, in a set on the node's chain.

* `Peer.Due` -- the block is final, or will be as soon as the connections have gone on.
* `Peer.due_runs_iff` -- **one vote after the other**: what votes make of the tip.
* `Peer.votes_finalize_iff` -- **votes behind a block**: a set on another chain id blocks them.
* `Peer.arrival_order_iff` -- **votes around a block**: some vote has to come behind it.
-/

namespace WorldstreetChain

open Std

namespace Node

variable {E : Env} {n : Node} {c : Call}

/-- No other call moves the finality entries. -/
theorem finality_next (hrel : c.fault = none) (hc : ∀ io S, c ≠ .finalizeVotes io S) :
    (n.next E c).store.finalizedHeight = n.store.finalizedHeight ∧
      (n.next E c).store.finalizedHash = n.store.finalizedHash := by
  have hstep := next_step (E := E) n c
  generalize n.next E c = n' at hstep
  cases hstep with
  | quiet _ ht _ =>
    rw [ht.store]
    exact ⟨rfl, rfl⟩
  | commit s b _ _ _ ha =>
    rw [ha.store]
    exact finality_adopted n.store s b
  | cutOff s b k _ _ hfault _ _ =>
    rw [hrel] at hfault
    cases hfault
  | finalize io S _ _ hcall _ _ _ _ _ => exact absurd hcall (hc io S)

/-- Handing in votes does not move the tip. -/
theorem latestBlock_finalizeVotes (n : Node) (io : Io) (S : VoteSet) :
    (n.next E (.finalizeVotes io S)).latestBlock = n.latestBlock := by
  show (n.finalizeVotes E io S).state.latestBlock = _
  rw [finalizeVotes_state]
  cases n.checkVotes E S with
  | error e => rfl
  | ok u => rfl

end Node

namespace Peer

variable {E : Env} {P P' : Peer} {b : Block} {key : VoteKey} {e : Event} {es : List Event}

/-! ## 1. What is due -/

/-- The block is final, or nothing above it is and a set that passes is on its way to the node. -/
def Due (E : Env) (P : Peer) (b : Block) : Prop :=
  P.node.Final E b ∨ (P.node.MarkedTo b.header.height ∧
    ∃ S, .finalizing S ∈ P.tasks ∧ P.node.Passes E b S)

/-- Where no connection has a set left to hand in, what is due is final. -/
theorem due_iff_final (h : ∀ S, .finalizing S ∉ P.tasks) : P.Due E b ↔ P.node.Final E b := by
  constructor
  · intro hdue
    rcases hdue with hf | ⟨-, S, hS, -⟩
    · exact hf
    · exact absurd hS (h S)
  · exact Or.inl

/-- Anything that leaves the finality entries and the sets on their way alone. -/
theorem due_congr (hg : P'.node.genesis = P.node.genesis)
    (hf : P'.node.store.finalizedHeight = P.node.store.finalizedHeight ∧
      P'.node.store.finalizedHash = P.node.store.finalizedHash)
    (ht : ∀ S, .finalizing S ∈ P'.tasks ↔ .finalizing S ∈ P.tasks) :
    P'.Due E b ↔ P.Due E b := by
  unfold Due Node.Final Node.MarkedTo
  simp only [hf.1, hf.2, ht, Node.Passes.congr hg]

theorem mem_eraseIdx_of_ne {α : Type} {l : List α} {i : Nat} {a x : α} (hi : l[i]? = some a)
    (hne : x ≠ a) : x ∈ l.eraseIdx i ↔ x ∈ l := by
  constructor
  · exact List.mem_of_mem_eraseIdx
  · intro hx
    obtain ⟨j, hj⟩ := List.mem_iff_getElem?.mp hx
    refine List.mem_eraseIdx_iff_getElem?.mpr ⟨j, fun hij => hne ?_, hj⟩
    subst hij
    rw [hi] at hj
    exact (Option.some.inj hj).symm

theorem mem_set_of_ne {α : Type} {l : List α} {i : Nat} {a a' x : α} (hi : l[i]? = some a)
    (hne : x ≠ a) (hne' : x ≠ a') : x ∈ l.set i a' ↔ x ∈ l := by
  constructor
  · intro hx
    rcases List.mem_or_eq_of_mem_set hx with hx | hx
    · exact hx
    · exact absurd hx hne'
  · intro hx
    obtain ⟨j, hj⟩ := List.mem_iff_getElem?.mp hx
    have hij : i ≠ j := fun hij => hne (by
      subst hij
      rw [hi] at hj
      exact (Option.some.inj hj).symm)
    exact List.mem_iff_getElem?.mpr ⟨j, by rw [List.getElem?_set_ne hij, hj]⟩

/-- Handing in a set settles what was due with it. -/
theorem due_finalized (hstored : P.node.store.getBlock (P.node.latestHash E) =
    .ok P.node.latestBlock) {io : Io} (hio : io.fault = none) {i : Nat} {S : VoteSet}
    {poisoned : Bool} (htask : P.tasks[i]? = some (.finalizing S)) :
    Due E { P with
        node := P.node.next E (.finalizeVotes io S), poisoned, tasks := P.tasks.eraseIdx i }
      P.node.latestBlock ↔ P.Due E P.node.latestBlock := by
  have hfinal : (P.node.next E (.finalizeVotes io S)).Final E P.node.latestBlock ↔ _ :=
    Node.finalizeVotes_final_iff hstored hio
  have hmarked : (P.node.next E (.finalizeVotes io S)).MarkedTo _ ↔ _ :=
    Node.finalizeVotes_markedTo hio
  have hpass : ∀ T, (P.node.next E (.finalizeVotes io S)).Passes E P.node.latestBlock T ↔
      P.node.Passes E P.node.latestBlock T := fun T => Node.Passes.congr (Node.genesis_next _ _)
  unfold Due
  simp only [hfinal, hmarked, hpass]
  constructor
  · intro hdue
    rcases hdue with (hf | ⟨hm, hp⟩) | ⟨hm, T, hT, hp⟩
    · exact Or.inl hf
    · exact Or.inr ⟨hm, S, List.mem_of_getElem? htask, hp⟩
    · exact Or.inr ⟨hm, T, List.mem_of_mem_eraseIdx hT, hp⟩
  · intro hdue
    rcases hdue with hf | ⟨hm, T, hT, hp⟩
    · exact Or.inl (Or.inl hf)
    · by_cases heq : T = S
      · subst heq
        exact Or.inl (Or.inr ⟨hm, hp⟩)
      · refine Or.inr ⟨hm, T, (mem_eraseIdx_of_ne htask fun h => heq ?_).mpr hT, hp⟩
        exact Task.finalizing.inj h

/-- A vote makes the block due if it decides a set for it. -/
theorem due_vote (h : P.Kept E) (hlock : P.poisoned = false) (v : Vote) :
    (P.next E (.vote v)).Due E b ↔ P.Due E b ∨ (P.node.MarkedTo b.header.height ∧
      ∃ round, P.Decides E (blockKey E b round) v) := by
  have hsame : ∀ S : VoteSet, (¬ ∃ round, P.Decides E (blockKey E b round) v) →
      ((P.putSet v.key S).Due E b ↔ P.Due E b ∨ (P.node.MarkedTo b.header.height ∧
        ∃ round, P.Decides E (blockKey E b round) v)) := fun S hd => by
    constructor
    · exact Or.inl
    · intro hdue
      rcases hdue with hdue | ⟨-, hd'⟩
      · exact hdue
      · exact absurd hd' hd
  have hstep := next_step (E := E) hlock (.vote v)
  generalize P.next E (.vote v) = P' at hstep
  cases hstep with
  | counted _ _ hquorum => exact hsame _ fun ⟨_, hd⟩ => hquorum hd.quorum
  | uncounted _ hc => exact hsame _ fun ⟨_, hd⟩ => hc hd.counts
  | quorum _ hc hquorum =>
    rw [← passes_counted (b := b) h hc hquorum]
    have hmem : ∀ S, .finalizing S ∈ ((P.putSet v.key (P.countedSet v)).takeUp
        (.finalizing (P.countedSet v))).tasks ↔
          .finalizing S ∈ P.tasks ∨ S = P.countedSet v := fun S => by
      show _ ∈ P.tasks ++ [_] ↔ _
      simp
    unfold Due
    simp only [hmem]
    show (P.node.Final E b ∨ (P.node.MarkedTo _ ∧ ∃ S, _ ∧ P.node.Passes E b S)) ↔ _
    constructor
    · intro hdue
      rcases hdue with hf | ⟨hm, S, hS | rfl, hp⟩
      · exact Or.inl (Or.inl hf)
      · exact Or.inl (Or.inr ⟨hm, S, hS, hp⟩)
      · exact Or.inr ⟨hm, hp⟩
    · intro hdue
      rcases hdue with (hf | ⟨hm, S, hS, hp⟩) | ⟨hm, hp⟩
      · exact Or.inl hf
      · exact Or.inr ⟨hm, S, Or.inl hS, hp⟩
      · exact Or.inr ⟨hm, _, Or.inr rfl, hp⟩

/-! ## 2. What the other events leave alone -/

/-- Nothing that finality hangs on differs: the entries, the sets on their way, the table. -/
structure SameVotes (P P' : Peer) : Prop where
  genesis : P'.node.genesis = P.node.genesis
  final : P'.node.store.finalizedHeight = P.node.store.finalizedHeight ∧
    P'.node.store.finalizedHash = P.node.store.finalizedHash
  finalizing : ∀ S, .finalizing S ∈ P'.tasks ↔ .finalizing S ∈ P.tasks
  voteSets : P'.voteSets = P.voteSets

theorem SameVotes.markedTo (h : SameVotes P P') (height : U64) :
    P'.node.MarkedTo height ↔ P.node.MarkedTo height := by
  unfold Node.MarkedTo
  rw [h.final.1]

theorem SameVotes.due (h : SameVotes P P') : P'.Due E b ↔ P.Due E b :=
  due_congr h.genesis h.final h.finalizing

theorem completes_congr (hg : P'.node.genesis = P.node.genesis)
    (hv : P'.voteSets = P.voteSets) (vs : List Vote) (key : VoteKey) :
    P'.Completes E vs key ↔ P.Completes E vs key := by
  have hset : P'.node.validatorSet = P.node.validatorSet := by
    rw [Node.validatorSet, hg, Node.validatorSet]
  have hvalid : ∀ v, P'.ValidFor E key v ↔ P.ValidFor E key v := fun _ => ValidFor.congr hg
  have hhas : ∀ k, P'.HasVote key k ↔ P.HasVote key k := fun k => by
    unfold HasVote
    rw [hv]
  have hchain : P'.chainIdAt vs key = P.chainIdAt vs key := by
    unfold chainIdAt
    rw [hv]
  constructor
  · intro hc
    obtain ⟨hchainId, hfresh, hquorum⟩ := hc
    simp only [hvalid, hhas, hchain, hg, hset] at hchainId hfresh hquorum
    exact ⟨hchainId, hfresh, hquorum⟩
  · intro hc
    refine ⟨?_, ?_, ?_⟩
    · rw [hchain, hg]
      exact hc.chainId
    · simp only [hvalid, hhas]
      exact hc.fresh
    · simp only [hvalid, hhas, hset]
      exact hc.quorum

theorem sameVotes_called {c : Node.Call} (hrel : c.fault = none)
    (hc : ∀ io S, c ≠ .finalizeVotes io S) (poisoned : Bool) {tasks : List Task}
    (ht : ∀ S, .finalizing S ∈ tasks ↔ .finalizing S ∈ P.tasks) :
    SameVotes P { P with node := P.node.next E c, poisoned, tasks } :=
  ⟨Node.genesis_next _ _, Node.finality_next hrel hc, ht, rfl⟩

/-- **An event** is a vote, hands in a set, or leaves all that alone. -/
theorem sameVotes_next (hlock : P.poisoned = false) (hcalm : e.Calm)
    (hvote : ∀ v, e ≠ .vote v)
    (hfinalize : ∀ io i S, e = .work io i → P.tasks[i]? ≠ some (.finalizing S)) :
    SameVotes P (P.next E e) := by
  have hstep := next_step (E := E) hlock e
  generalize P.next E e = P' at hstep
  cases hstep with
  | begun blocks votes _ =>
    refine ⟨rfl, ⟨rfl, rfl⟩, fun S => ?_, rfl⟩
    show _ ∈ P.tasks ++ [_] ↔ _
    simp
  | counted v _ _ => exact absurd rfl (hvote v)
  | quorum v _ _ => exact absurd rfl (hvote v)
  | uncounted v _ => exact absurd rfl (hvote v)
  | imported io i b rest votes hash htask _ =>
    exact sameVotes_called (c := .importBlock io b) hcalm (fun _ _ h => by cases h) P.poisoned
      fun S => mem_set_of_ne htask (fun h => by cases h) fun h => by cases h
  | failed io i b rest votes poisoned htask =>
    exact sameVotes_called (c := .importBlock io b) hcalm (fun _ _ h => by cases h) poisoned
      fun S => mem_eraseIdx_of_ne htask fun h => by cases h
  | sent io i votes htask =>
    have hmem : ∀ S, .finalizing S ∈ P.tasks.eraseIdx i ↔ .finalizing S ∈ P.tasks :=
      fun S => mem_eraseIdx_of_ne htask fun h => by cases h
    exact ⟨rfl, ⟨rfl, rfl⟩, hmem, rfl⟩
  | finalized io i S poisoned htask => exact absurd htask (hfinalize io i S rfl)
  | absent io i _ => exact ⟨rfl, ⟨rfl, rfl⟩, fun _ => Iff.rfl, rfl⟩
  | called c poisoned => exact sameVotes_called hcalm.1 hcalm.2 poisoned fun _ => Iff.rfl

theorem next_finalizing (hlock : P.poisoned = false) (io : Io) {i : Nat} {S : VoteSet}
    (htask : P.tasks[i]? = some (.finalizing S)) : ∃ poisoned, P.next E (.work io i) = { P with
      node := P.node.next E (.finalizeVotes io S), poisoned, tasks := P.tasks.eraseIdx i } := by
  refine ⟨(P.node.finalizeVotes E io S).result.isPanic, ?_⟩
  show P.work E io i = _
  unfold work finalize lock
  rw [htask, hlock]
  rfl

/-! ## 3. Votes behind a block -/

/-- The votes that arrive in a run. -/
def delivered (es : List Event) : List Vote :=
  es.filterMap fun
    | .vote v => some v
    | _ => none

theorem delivered_cons_vote (v : Vote) (es : List Event) :
    delivered (.vote v :: es) = v :: delivered es := rfl

theorem delivered_cons_of_ne (h : ∀ v, e ≠ .vote v) (es : List Event) :
    delivered (e :: es) = delivered es := by
  cases e with
  | vote v => exact absurd rfl (h v)
  | blocks blocks => rfl
  | work io i => rfl
  | call c => rfl

/-- The peer's tip is the block, and its lock is good. -/
def StaysAt (b : Block) (P : Peer) : Prop := P.node.latestBlock = b ∧ P.poisoned = false

instance (b : Block) (P : Peer) : Decidable (P.StaysAt b) := inferInstanceAs (Decidable (_ ∧ _))

/-- What a step makes of what is due and of what the votes behind it complete. -/
theorem due_next (hd : Node.Durable E P.node) (hk : P.Kept E) (hcalm : e.Calm)
    (htip : StaysAt b P) :
    (P.next E e).Due E b ∨ ((P.next E e).node.MarkedTo b.header.height ∧
      ∃ round, (P.next E e).Completes E (delivered es) (blockKey E b round)) ↔
    P.Due E b ∨ (P.node.MarkedTo b.header.height ∧
      ∃ round, P.Completes E (delivered (e :: es)) (blockKey E b round)) := by
  obtain ⟨rfl, hlock⟩ := htip
  by_cases hvote : ∃ v, e = .vote v
  · obtain ⟨v, rfl⟩ := hvote
    have hnode : (P.next E (.vote v)).node = P.node := (table_vote hlock v).1
    rw [due_vote hk hlock v, hnode, delivered_cons_vote]
    simp only [completes_cons hk hlock, exists_or, and_or_left, or_assoc]
  · have hne : ∀ v, e ≠ .vote v := fun v h => hvote ⟨v, h⟩
    rw [delivered_cons_of_ne hne]
    by_cases hfinalize : ∀ io i S, e = .work io i → P.tasks[i]? ≠ some (.finalizing S)
    · have hsame := sameVotes_next (E := E) hlock hcalm hne hfinalize
      rw [hsame.due, hsame.markedTo]
      simp only [completes_congr hsame.genesis hsame.voteSets]
    · obtain ⟨io, i, S, rfl, htask⟩ : ∃ io i S, e = .work io i ∧
          P.tasks[i]? = some (.finalizing S) := by
        by_contra hnone
        exact hfinalize fun io i S he ht => hnone ⟨io, i, S, he, ht⟩
      obtain ⟨poisoned, hnext⟩ := next_finalizing (E := E) hlock io htask
      have hmarked : (P.node.next E (.finalizeVotes io S)).MarkedTo _ ↔ _ :=
        Node.finalizeVotes_markedTo hcalm
      have hsame : ∀ key, (P.next E (.work io i)).Completes E (delivered es) key ↔
          P.Completes E (delivered es) key := fun key => by
        refine completes_congr ?_ ?_ _ key
        · rw [hnext]
          exact Node.genesis_next _ _
        · rw [hnext]
      simp only [hsame]
      rw [hnext, due_finalized hd.stored hcalm htask]
      exact or_congr_right (and_congr_left fun _ => hmarked)

/-- **Votes that arrive while the block is the tip** make it due where they complete a set. -/
theorem due_runs_iff (hd : Node.Durable E P.node) (hk : P.Kept E) (hcalm : ∀ e ∈ es, e.Calm)
    (htip : Throughout (next E) (StaysAt b) P es) :
    (runs (next E) P es).Due E b ↔ P.Due E b ∨ (P.node.MarkedTo b.header.height ∧
      ∃ round, P.Completes E (delivered es) (blockKey E b round)) := by
  induction es generalizing P with
  | nil =>
    have hnone : ∀ key, ¬ P.Completes E (delivered []) key := fun key hc => by
      obtain ⟨v, hv, -⟩ := hc.fresh
      exact absurd hv List.not_mem_nil
    simp [hnone]
  | cons e es ih =>
    have he : e.Calm := hcalm e List.mem_cons_self
    have hlock : P.poisoned = false := htip.1.2
    rw [runs_cons, ih (durable_next hd hlock he) (hk.next hlock e)
      (fun e' he' => hcalm e' (List.mem_cons_of_mem _ he')) htip.2]
    exact due_next hd hk he htip.1

/-- The votes have valid ones of a quorum of validators among them. -/
def DeliversQuorum (E : Env) (P : Peer) (vs : List Vote) (key : VoteKey) : Prop :=
  ∃ Q : Finset PublicKey, P.node.validatorSet.isQuorum Q.card = true ∧
    ∀ k ∈ Q, ∃ v ∈ vs, P.ValidFor E key v ∧ v.validator = k

/-- The set for the key is on the node's chain, and gets another vote. -/
structure StillCounts (E : Env) (P : Peer) (vs : List Vote) (key : VoteKey) : Prop where
  chainId : P.chainIdAt vs key = some P.node.genesis.chainId
  fresh : ∃ v ∈ vs, P.ValidFor E key v ∧ ¬ P.HasVote key v.validator

/-- **Votes behind a block.** If a quorum votes for the tip, it gets final exactly if it was due
    already, or nothing above it is final and the round's set is on the node's chain and gets
    another vote (or the votes complete the set of another round). -/
theorem votes_finalize_iff {genesis : GenesisConfig} {round : U64} (h : P.Lives E genesis)
    (hcalm : ∀ e ∈ es, e.Calm) (htip : Throughout (next E) (StaysAt b) P es)
    (hdone : ∀ S, .finalizing S ∉ (runs (next E) P es).tasks)
    (hquorum : P.DeliversQuorum E (delivered es) (blockKey E b round)) :
    (runs (next E) P es).node.Final E b ↔ P.Due E b ∨ (P.node.MarkedTo b.header.height ∧
      (P.StillCounts E (delivered es) (blockKey E b round) ∨
        ∃ other, P.Completes E (delivered es) (blockKey E b other))) := by
  obtain ⟨hd, hk⟩ := h.kept
  rw [← due_iff_final hdone, due_runs_iff hd hk hcalm htip]
  refine or_congr_right (and_congr_right fun _ => ?_)
  constructor
  · exact Or.inr
  · intro hcases
    rcases hcases with hs | hc
    · obtain ⟨Q, hQ, hQv⟩ := hquorum
      exact ⟨round, hs.chainId, hs.fresh, Q, hQ, fun k hk => Or.inr (hQv k hk)⟩
    · exact hc

/-! ## 4. Votes around a block -/

theorem genesis_next (hlock : P.poisoned = false) (e : Event) :
    (P.next E e).node.genesis = P.node.genesis := by
  have hstep := next_step (E := E) hlock e
  generalize P.next E e = P' at hstep
  cases hstep with
  | begun blocks votes _ => rfl
  | counted v _ _ => rfl
  | quorum v _ _ => rfl
  | uncounted v _ => rfl
  | imported io i b rest votes hash _ _ => exact Node.genesis_next _ _
  | failed io i b rest votes poisoned _ => exact Node.genesis_next _ _
  | sent io i votes _ => rfl
  | finalized io i S poisoned _ => exact Node.genesis_next _ _
  | absent io i _ => rfl
  | called c poisoned => exact Node.genesis_next _ _

theorem voteSets_next (hlock : P.poisoned = false) (hvote : ∀ v, e ≠ .vote v) :
    (P.next E e).voteSets = P.voteSets := by
  have hstep := next_step (E := E) hlock e
  generalize P.next E e = P' at hstep
  cases hstep with
  | begun blocks votes _ => rfl
  | counted v _ _ => exact absurd rfl (hvote v)
  | quorum v _ _ => exact absurd rfl (hvote v)
  | uncounted v _ => exact absurd rfl (hvote v)
  | imported io i b rest votes hash _ _ => rfl
  | failed io i b rest votes poisoned _ => rfl
  | sent io i votes _ => rfl
  | finalized io i S poisoned _ => rfl
  | absent io i _ => rfl
  | called c poisoned => rfl

/-- A set in the table keeps its chain id and its votes. -/
theorem table_next (hlock : P.poisoned = false) (e : Event) {S : VoteSet}
    (hS : P.voteSets key = some S) : ∃ S', (P.next E e).voteSets key = some S' ∧
      S'.chainId = S.chainId ∧ ∀ k, k ∈ S.votes → k ∈ S'.votes := by
  by_cases hvote : ∃ v, e = .vote v
  · obtain ⟨v, rfl⟩ := hvote
    obtain ⟨-, hother, hcounted, huncounted⟩ := table_vote (E := E) hlock v
    by_cases hkey : key = v.key
    · subst hkey
      have hset : P.setFor v = S := by
        unfold setFor
        rw [hS]
        rfl
      by_cases hc : P.Counts E v
      · have hid : (P.countedSet v).chainId = S.chainId := by
          show (P.setFor v).chainId = S.chainId
          rw [hset]
        refine ⟨P.countedSet v, hcounted hc, hid, fun k hk => ?_⟩
        show k ∈ (P.setFor v).votes.insert v.validator v
        rw [hset]
        exact ExtTreeMap.mem_insert.mpr (Or.inr hk)
      · exact ⟨S, by rw [huncounted hc, hset], rfl, fun _ hk => hk⟩
    · exact ⟨S, by rw [hother key hkey, hS], rfl, fun _ hk => hk⟩
  · exact ⟨S, by rw [voteSets_next hlock fun v h => hvote ⟨v, h⟩, hS], rfl, fun _ hk => hk⟩

theorem table_runs (hlock : Throughout (next E) (fun P => P.poisoned = false) P es) {S : VoteSet}
    (hS : P.voteSets key = some S) : ∃ S', (runs (next E) P es).voteSets key = some S' ∧
      S'.chainId = S.chainId ∧ ∀ k, k ∈ S.votes → k ∈ S'.votes := by
  induction es generalizing P S with
  | nil => exact ⟨S, hS, rfl, fun _ hk => hk⟩
  | cons e es ih =>
    obtain ⟨S', hS', hchain, hmem⟩ := table_next (E := E) hlock.1 e hS
    obtain ⟨S'', hS'', hchain', hmem'⟩ := ih hlock.2 hS'
    exact ⟨S'', hS'', hchain'.trans hchain, fun k hk => hmem' k (hmem k hk)⟩

theorem genesis_runs (hlock : Throughout (next E) (fun P => P.poisoned = false) P es) :
    (runs (next E) P es).node.genesis = P.node.genesis := by
  induction es generalizing P with
  | nil => rfl
  | cons e es ih => exact (ih hlock.2).trans (genesis_next hlock.1 e)

theorem lives_runs {genesis : GenesisConfig} (h : P.Lives E genesis) (hcalm : ∀ e ∈ es, e.Calm)
    (hlock : Throughout (next E) (fun P => P.poisoned = false) P es) :
    (runs (next E) P es).Lives E genesis := by
  induction es generalizing P with
  | nil => exact h
  | cons e es ih =>
    exact ih (h.next hlock.1 (hcalm e List.mem_cons_self))
      (fun e' he' => hcalm e' (List.mem_cons_of_mem _ he')) hlock.2

/-- **A valid vote that has arrived is in its set**, if the set is on the node's chain. -/
theorem hasVote_runs (hk : P.Kept E)
    (hlock : Throughout (next E) (fun P => P.poisoned = false) P es)
    (hchain : ∀ S, (runs (next E) P es).voteSets key = some S →
      S.chainId = P.node.genesis.chainId)
    {v : Vote} (hv : v ∈ delivered es) (hvalid : P.ValidFor E key v) :
    (runs (next E) P es).HasVote key v.validator := by
  induction es generalizing P with
  | nil => exact absurd hv List.not_mem_nil
  | cons e es ih =>
    have hg : (P.next E e).node.genesis = P.node.genesis := genesis_next hlock.1 e
    have hlater : v ∈ delivered es → (runs (next E) P (e :: es)).HasVote key v.validator :=
      fun hmem => ih (hk.next hlock.1 e) hlock.2 (fun S hS => by rw [hg, hchain S hS]) hmem
        ((ValidFor.congr hg).mpr hvalid)
    by_cases hvote : ∃ w, e = .vote w
    · obtain ⟨w, rfl⟩ := hvote
      rw [delivered_cons_vote] at hv
      rcases List.mem_cons.mp hv with rfl | hmem
      · -- the set it finds, or makes, has the chain id of the set in the end
        have hkey := hvalid.key_eq
        subst hkey
        have hset : ∃ S, (P.next E (.vote v)).voteSets v.key = some S ∧
            S.chainId = (P.setFor v).chainId := by
          obtain ⟨-, -, hcounted, huncounted⟩ := table_vote (E := E) hlock.1 v
          by_cases hc : P.Counts E v
          · exact ⟨_, hcounted hc, rfl⟩
          · exact ⟨_, huncounted hc, rfl⟩
        obtain ⟨S, hS, hid⟩ := hset
        obtain ⟨S', hS', hid', hmem⟩ := table_runs hlock.2 hS
        have hgood : (P.setFor v).chainId = P.node.genesis.chainId := by
          rw [← hid, ← hid', hchain S' hS']
        have hthere : (P.next E (.vote v)).HasVote v.key v.validator := by
          rw [hasVote_vote hlock.1]
          by_cases hbefore : P.HasVote v.key v.validator
          · exact Or.inl hbefore
          · exact Or.inr ⟨rfl, (counts_iff hk hgood).mpr ⟨hvalid, hbefore⟩, rfl⟩
        obtain ⟨T, hT, hin⟩ := hthere
        rw [hS] at hT
        cases hT
        exact ⟨S', hS', hmem _ hin⟩
      · exact hlater hmem
    · rw [delivered_cons_of_ne fun w h => hvote ⟨w, h⟩] at hv
      exact hlater hv

/-- An event that moves the tip leaves alone what finality hangs on. -/
theorem sameVotes_of_tip (hlock : P.poisoned = false) (hcalm : e.Calm)
    (hne : (P.next E e).node.latestBlock ≠ P.node.latestBlock) : SameVotes P (P.next E e) := by
  refine sameVotes_next hlock hcalm (fun v he => hne ?_) fun io i S he htask => hne ?_
  · subst he
    rw [(table_vote hlock v).1]
  · subst he
    obtain ⟨poisoned, hnext⟩ := next_finalizing (E := E) hlock io htask
    rw [hnext]
    exact Node.latestBlock_finalizeVotes _ _ _

/-- **Votes around a block.** If a quorum votes for a block that arrives among the votes, it gets
    final exactly if it was due when it came, or nothing above it is final and of the votes
    behind it one is new in the round's set, which is on the node's chain (or they complete the set
    of another round). -/
theorem arrival_order_iff {genesis : GenesisConfig} {round : U64} {arrival : Event}
    {es' : List Event} {Q : Peer} (h : P.Lives E genesis)
    (hcalm : ∀ e ∈ es ++ arrival :: es', e.Calm) (hQ : runs (next E) P es = Q)
    (hlock : Throughout (next E) (fun P => P.poisoned = false) P es)
    (harrives : Q.node.latestBlock ≠ b)
    (htip : Throughout (next E) (StaysAt b) (Q.next E arrival) es')
    (hdone : ∀ S, .finalizing S ∉ (runs (next E) P (es ++ arrival :: es')).tasks)
    (hquorum : P.DeliversQuorum E (delivered es ++ delivered es') (blockKey E b round)) :
    (runs (next E) P (es ++ arrival :: es')).node.Final E b ↔
      Q.Due E b ∨ (Q.node.MarkedTo b.header.height ∧
        (Q.StillCounts E (delivered es') (blockKey E b round) ∨
          ∃ other, Q.Completes E (delivered es') (blockKey E b other))) := by
  have hcalm' : ∀ e ∈ es, e.Calm := fun e he => hcalm e (List.mem_append_left _ he)
  have harrival : arrival.Calm :=
    hcalm arrival (List.mem_append_right _ List.mem_cons_self)
  have hrest : ∀ e ∈ es', e.Calm := fun e he =>
    hcalm e (List.mem_append_right _ (List.mem_cons_of_mem _ he))
  have hgenesis : Q.node.genesis = P.node.genesis := hQ ▸ genesis_runs hlock
  have hlockQ : Q.poisoned = false := hQ ▸ hlock.last
  have hlives : Q.Lives E genesis := hQ ▸ lives_runs h hcalm' hlock
  have hsame : SameVotes Q (Q.next E arrival) :=
    sameVotes_of_tip hlockQ harrival fun heq => harrives (heq ▸ htip.head.1)
  obtain ⟨hd, hk⟩ := (hlives.next hlockQ harrival).kept
  have hend : runs (next E) P (es ++ arrival :: es') = runs (next E) (Q.next E arrival) es' := by
    rw [runs_append, hQ, runs_cons]
  rw [← due_iff_final hdone, hend, due_runs_iff hd hk hrest htip, hsame.due, hsame.markedTo]
  simp only [completes_congr hsame.genesis hsame.voteSets]
  refine or_congr_right (and_congr_right fun _ => ?_)
  constructor
  · exact Or.inr
  · intro hcases
    rcases hcases with hs | hc
    · obtain ⟨V, hV, hVv⟩ := hquorum
      have hset : Q.node.validatorSet = P.node.validatorSet := by
        rw [Node.validatorSet, hgenesis, Node.validatorSet]
      refine ⟨round, hs.chainId, hs.fresh, V, hset ▸ hV, fun k hkV => ?_⟩
      obtain ⟨v, hv, hvalid, rfl⟩ := hVv k hkV
      rcases List.mem_append.mp hv with hbefore | hbehind
      · refine Or.inl ?_
        rw [← hQ]
        refine hasVote_runs h.kept.2 hlock (fun S hS => ?_) hbefore hvalid
        have hchain := hs.chainId
        rw [hQ] at hS
        unfold chainIdAt at hchain
        rw [hS, hgenesis] at hchain
        exact Option.some.inj hchain
      · exact Or.inr ⟨v, hbehind, (ValidFor.congr hgenesis).mpr hvalid, rfl⟩
    · exact hc

end Peer

/-! ## 5. Four validators -/

namespace Sample

def thirdKeyPair : KeyPair := ⟨Vector.replicate 32 11⟩

def fourthKeyPair : KeyPair := ⟨Vector.replicate 32 13⟩

def votingGenesis : GenesisConfig :=
  { genesis 1 with
    validators :=
      [⟨"first", publicKey⟩, ⟨"second", Crypto.standIn.publicKey otherKeyPair⟩,
        ⟨"third", Crypto.standIn.publicKey thirdKeyPair⟩,
        ⟨"fourth", Crypto.standIn.publicKey fourthKeyPair⟩]
    validators_fit := by decide }

def votingNode : Node := .fresh tagged votingGenesis (genesisState 1)

/-- A peer without connections. -/
def servingPeer : Peer := ⟨votingNode, false, fun _ => none, none, []⟩

/-- The peer with a block on top of the genesis block. -/
def tickedPeer : Peer := servingPeer.next tagged (.call tick)

def votedBlock : Block := tickedPeer.node.latestBlock

/-- A validator's vote for the block, on a chain. -/
def voteBy (chainId : String) (key : KeyPair) : Vote :=
  .sign tagged.crypto chainId 1 0 (tagged.crypto.blockHeaderId votedBlock.header) key

/-- The first three validators' votes. -/
def quorumVotes : List Vote := [keyPair, otherKeyPair, thirdKeyPair].map (voteBy chainId)

/-- A vote in the fourth one's name that is not signed. -/
def unsignedVote : Vote := { voteBy chainId fourthKeyPair with signature := Vote.blankSignature }

theorem fromGenesis_votingGenesis : State.fromGenesis votingGenesis = .ok (genesisState 1) :=
  fromGenesis_genesis 1

theorem openDir_votingNode :
    Node.openDir tagged chainId votingGenesis .empty ⟨1, none⟩ =
      ⟨.ok votingNode, votingNode.store⟩ :=
  Node.openDir_fresh fromGenesis_votingGenesis rfl

theorem servingPeer_lives : servingPeer.Lives tagged votingGenesis :=
  .started (.opened ⟨1, none⟩ openDir_votingNode) none

theorem tickedPeer_lives : tickedPeer.Lives tagged votingGenesis :=
  servingPeer_lives.next rfl ⟨rfl, fun _ _ h => by cases h⟩

/-- The block as it arrives from elsewhere. -/
def blockArrives : Peer.Event := .call (.importBlock ⟨3, none⟩ votedBlock)

theorem blockArrives_calm : blockArrives.Calm := ⟨rfl, fun _ _ h => by cases h⟩

/-- The first waiting connection goes on. -/
def goOn : Peer.Event := .work ⟨4, none⟩ 0

/-- Votes arrive, and the connection that has them goes on. -/
def arriving (vs : List Vote) : List Peer.Event := vs.map .vote ++ [goOn]

theorem arriving_calm (vs : List Vote) : ∀ e ∈ arriving vs, e.Calm := by
  intro e he
  rcases List.mem_append.mp he with he | he
  · obtain ⟨v, -, rfl⟩ := List.mem_map.mp he
    trivial
  · rw [List.mem_singleton.mp he]
    exact rfl

/-- The vote that is not signed arrives first. -/
def votesArrive : List Peer.Event := arriving (unsignedVote :: quorumVotes)

/-- The first vote arrives in front of the block. -/
def oneAhead : List Peer.Event := [.vote (voteBy chainId keyPair)]

/-- The other two arrive behind it. -/
def twoBehind : List Peer.Event := arriving ([otherKeyPair, thirdKeyPair].map (voteBy chainId))

/-- Anybody's vote: on another chain's id, and not signed. -/
def foreignVote : Vote :=
  { voteBy "other" fourthKeyPair with signature := Vote.blankSignature }

/-- It comes first. -/
def foreignArrives : List Peer.Event := (foreignVote :: quorumVotes).map .vote

/-- The votes are signed by validators, who are a quorum; the other chain's vote decides on the
    chain id that the block's set is on. -/
theorem evaluated_votes :
    (∀ v ∈ quorumVotes, (ValidatorSet.new votingGenesis.validators).contains v.validator = true ∧
      tagged.crypto.verify v.validator v.signingBytes v.signature = true) ∧
    (ValidatorSet.new votingGenesis.validators).isQuorum
      (quorumVotes.map (·.validator)).toFinset.card = true := by
  decide +kernel

/-- The block stays the tip while votes arrive, and no connection is left with a quorum; nothing
    is final before the block's votes are handed in, nor with the other chain's vote. -/
theorem evaluated_ticked :
    (Throughout (Peer.next tagged) (Peer.StaysAt votedBlock) tickedPeer votesArrive ∧
      (runs (Peer.next tagged) tickedPeer votesArrive).tasks.isEmpty = true ∧
      tickedPeer.node.store.finalizedHeight = .ok 0 ∧
      tickedPeer.chainIdAt (unsignedVote :: quorumVotes) (Peer.blockKey tagged votedBlock 0) =
        some votingGenesis.chainId) ∧
    (Throughout (Peer.next tagged) (Peer.StaysAt votedBlock) tickedPeer foreignArrives ∧
      (runs (Peer.next tagged) tickedPeer foreignArrives).tasks.isEmpty = true ∧
      (runs (Peer.next tagged) tickedPeer foreignArrives).node.store.finalizedHeight = .ok 0) ∧
    votedBlock.header.height = 1 := by
  decide +kernel

/-- The peer that has the first vote and not yet the block. -/
def aheadPeer : Peer := servingPeer.next tagged (.vote (voteBy chainId keyPair))

theorem genesis_aheadPeer : aheadPeer.node.genesis = votingGenesis := by
  unfold aheadPeer
  rw [Peer.genesis_next (P := servingPeer) rfl]
  rfl

theorem runs_oneAhead : runs (Peer.next tagged) servingPeer oneAhead = aheadPeer := by
  unfold oneAhead aheadPeer
  rw [runs_cons, runs_nil]

/-- The same with the block that arrives, among the votes and behind them. -/
theorem evaluated_arrival :
    (Throughout (Peer.next tagged) (fun P => P.poisoned = false) servingPeer oneAhead ∧
      aheadPeer.node.latestBlock ≠ votedBlock ∧
      Throughout (Peer.next tagged) (Peer.StaysAt votedBlock)
        (aheadPeer.next tagged blockArrives) twoBehind ∧
      (runs (Peer.next tagged) servingPeer
        (oneAhead ++ blockArrives :: twoBehind)).tasks.isEmpty = true ∧
      aheadPeer.node.store.finalizedHeight = .ok 0 ∧
      aheadPeer.chainIdAt (quorumVotes.drop 1) (Peer.blockKey tagged votedBlock 0) =
        some votingGenesis.chainId ∧
      (aheadPeer.voteSets (Peer.blockKey tagged votedBlock 0)).all
        (fun S => !S.votes.contains (Crypto.standIn.publicKey otherKeyPair)) = true) ∧
    (Throughout (Peer.next tagged) (fun P => P.poisoned = false) servingPeer
        (arriving quorumVotes ++ [blockArrives]) ∧
      (runs (Peer.next tagged) servingPeer
        (arriving quorumVotes ++ [blockArrives])).node.latestBlock = votedBlock ∧
      (runs (Peer.next tagged) servingPeer
        (arriving quorumVotes ++ [blockArrives])).tasks.isEmpty = true ∧
      (runs (Peer.next tagged) servingPeer
        (arriving quorumVotes ++ [blockArrives])).node.store.finalizedHeight = .ok 0) := by
  decide +kernel

theorem not_final {P : Peer} (h : P.node.store.finalizedHeight = .ok 0) :
    ¬ P.node.Final tagged votedBlock := by
  intro hf
  have hsame := Except.ok.inj (h.symm.trans hf.1)
  rw [evaluated_ticked.2.2] at hsame
  exact absurd hsame (by decide)

theorem quorumVotes_valid {P : Peer} (hP : P.node.genesis = votingGenesis) {v : Vote}
    (hv : v ∈ quorumVotes) : P.ValidFor tagged (Peer.blockKey tagged votedBlock 0) v := by
  obtain ⟨hmember, hsigned⟩ := evaluated_votes.1 v hv
  obtain ⟨key, -, rfl⟩ := List.mem_map.mp hv
  unfold Peer.ValidFor Node.validatorSet
  rw [hP]
  exact ⟨rfl, rfl, rfl, rfl, hmember, rfl, hsigned⟩

theorem delivers_quorum {P : Peer} (hP : P.node.genesis = votingGenesis) {vs : List Vote}
    (hvs : quorumVotes ⊆ vs) :
    P.DeliversQuorum tagged vs (Peer.blockKey tagged votedBlock 0) := by
  refine ⟨(quorumVotes.map (·.validator)).toFinset, ?_, fun k hk => ?_⟩
  · unfold Node.validatorSet
    rw [hP]
    exact evaluated_votes.2
  · obtain ⟨v, hv, rfl⟩ := List.mem_map.mp (List.mem_toFinset.mp hk)
    exact ⟨v, hvs hv, quorumVotes_valid hP hv, rfl⟩

/-- A vote of the three counts where it is not in the set yet. -/
theorem stillCounts_of {P : Peer} (hP : P.node.genesis = votingGenesis) {vs : List Vote} {v : Vote}
    (hchain : P.chainIdAt vs (Peer.blockKey tagged votedBlock 0) = some votingGenesis.chainId)
    (hv : v ∈ vs) (hquorum : v ∈ quorumVotes)
    (hnew : (P.voteSets (Peer.blockKey tagged votedBlock 0)).all
      (fun S => !S.votes.contains v.validator) = true) :
    P.StillCounts tagged vs (Peer.blockKey tagged votedBlock 0) := by
  refine ⟨hP ▸ hchain, v, hv, quorumVotes_valid hP hquorum, ?_⟩
  rintro ⟨S, hS, hk⟩
  rw [hS, Option.all_some, ExtTreeMap.contains_iff_mem.mpr hk] at hnew
  cases hnew

theorem no_finalizing {P : Peer} (h : P.tasks.isEmpty = true) (S : VoteSet) :
    .finalizing S ∉ P.tasks := by
  rw [List.isEmpty_iff.mp h]
  exact List.not_mem_nil

end Sample

namespace Peer

/-- A vote that is not signed, and the votes of three of four for the tip. -/
theorem votes_finalize_ticked :
    (runs (next Sample.tagged) Sample.tickedPeer Sample.votesArrive).node.Final Sample.tagged
      Sample.votedBlock := by
  obtain ⟨⟨htip, htasks, hheight, hchain⟩, -, -⟩ := Sample.evaluated_ticked
  refine (votes_finalize_iff Sample.tickedPeer_lives (Sample.arriving_calm _) htip
    (Sample.no_finalizing htasks)
    (Sample.delivers_quorum rfl (List.subset_cons_self _ _))).mpr (Or.inr ⟨?_, Or.inl ?_⟩)
  · exact ⟨0, hheight, Nat.zero_le _⟩
  · exact Sample.stillCounts_of rfl hchain (List.mem_cons_of_mem _ List.mem_cons_self)
      List.mem_cons_self rfl

/-- **A vote from another chain, ahead of the quorum**: the set is on that chain's id from then on,
    and takes no vote. -/
theorem foreign_vote_blocks_finality :
    Sample.tickedPeer.Lives Sample.tagged Sample.votingGenesis ∧
      (∀ e ∈ Sample.foreignArrives, e.Calm) ∧
      Throughout (next Sample.tagged) (StaysAt Sample.votedBlock) Sample.tickedPeer
        Sample.foreignArrives ∧
      (∀ S, .finalizing S ∉
        (runs (next Sample.tagged) Sample.tickedPeer Sample.foreignArrives).tasks) ∧
      Sample.tickedPeer.DeliversQuorum Sample.tagged (delivered Sample.foreignArrives)
        (blockKey Sample.tagged Sample.votedBlock 0) ∧
      ¬ (runs (next Sample.tagged) Sample.tickedPeer Sample.foreignArrives).node.Final
          Sample.tagged Sample.votedBlock := by
  obtain ⟨-, ⟨htip, htasks, hheight⟩, -⟩ := Sample.evaluated_ticked
  refine ⟨Sample.tickedPeer_lives, fun e he => ?_, htip, Sample.no_finalizing htasks,
    Sample.delivers_quorum rfl (List.subset_cons_self _ _), Sample.not_final hheight⟩
  obtain ⟨v, -, rfl⟩ := List.mem_map.mp he
  trivial

/-- One vote arrives in front of the block, and two behind it. -/
theorem arrival_order_ticked :
    (runs (next Sample.tagged) Sample.servingPeer
      (Sample.oneAhead ++ Sample.blockArrives :: Sample.twoBehind)).node.Final Sample.tagged
        Sample.votedBlock := by
  have hcalm : ∀ e ∈ Sample.oneAhead ++ Sample.blockArrives :: Sample.twoBehind,
      Event.Calm e := by
    intro e he
    rcases List.mem_cons.mp he with rfl | he
    · trivial
    · rcases List.mem_cons.mp he with rfl | he
      · exact Sample.blockArrives_calm
      · exact Sample.arriving_calm _ e he
  obtain ⟨⟨hlock, hbefore, htip, htasks, hheight, hchain, hnew⟩, -⟩ := Sample.evaluated_arrival
  refine (arrival_order_iff Sample.servingPeer_lives hcalm Sample.runs_oneAhead hlock hbefore htip
    (Sample.no_finalizing htasks)
    (Sample.delivers_quorum rfl (List.Subset.refl _))).mpr (Or.inr ⟨?_, Or.inl ?_⟩)
  · exact ⟨0, hheight, Nat.zero_le _⟩
  · exact Sample.stillCounts_of Sample.genesis_aheadPeer hchain List.mem_cons_self
      (List.mem_cons_of_mem _ List.mem_cons_self) hnew

/-- **The quorum arrives ahead of the block**: it is handed in while the genesis block is the tip,
    is refused, and nobody hands it in again. -/
theorem early_quorum_is_lost :
    Sample.servingPeer.Lives Sample.tagged Sample.votingGenesis ∧
      (∀ e ∈ Sample.arriving Sample.quorumVotes ++ [Sample.blockArrives], e.Calm) ∧
      Throughout (next Sample.tagged) (fun P => P.poisoned = false) Sample.servingPeer
        (Sample.arriving Sample.quorumVotes ++ [Sample.blockArrives]) ∧
      (runs (next Sample.tagged) Sample.servingPeer
        (Sample.arriving Sample.quorumVotes ++ [Sample.blockArrives])).node.latestBlock =
          Sample.votedBlock ∧
      (∀ S, .finalizing S ∉ (runs (next Sample.tagged) Sample.servingPeer
        (Sample.arriving Sample.quorumVotes ++ [Sample.blockArrives])).tasks) ∧
      Sample.servingPeer.DeliversQuorum Sample.tagged
        (delivered (Sample.arriving Sample.quorumVotes))
        (blockKey Sample.tagged Sample.votedBlock 0) ∧
      ¬ (runs (next Sample.tagged) Sample.servingPeer
        (Sample.arriving Sample.quorumVotes ++ [Sample.blockArrives])).node.Final Sample.tagged
          Sample.votedBlock := by
  obtain ⟨-, hlock, hblock, htasks, hheight⟩ := Sample.evaluated_arrival
  refine ⟨Sample.servingPeer_lives, fun e he => ?_, hlock, hblock, Sample.no_finalizing htasks,
    Sample.delivers_quorum rfl (List.Subset.refl _), Sample.not_final hheight⟩
  rcases List.mem_append.mp he with he | he
  · exact Sample.arriving_calm _ e he
  · rw [List.mem_singleton.mp he]
    exact Sample.blockArrives_calm

end Peer

end WorldstreetChain
