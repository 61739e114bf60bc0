import WorldstreetChain.Node.Crash
import WorldstreetChain.Node.Execution

/-!
# What a restart keeps

A restarted node has the state its store holds, and empty queues. What every operation of a run
keeps holds of the state in memory and of the one in the store alike, wherever a commit was cut
off.

* `Node.reopened` -- the node behind a restart.
* `Node.Backed` -- a property of both states.
* `Node.Backed.next`, `Node.Backed.reopened` -- **calls and restarts keep it**.
-/

namespace WorldstreetChain

open Std

namespace Node

variable {E : Env} {n : Node} {c : Call} {s : State} {b : Block}

/-- The node behind a restart; one that does not open stays down, as it was. -/
def reopened (n : Node) (E : Env) (io : Io) : Node :=
  match (openDir E n.genesis.chainId n.genesis n.store io).result with
  | .ok m => m
  | .error _ => n

/-- The state has a property, and so has the one in the store. -/
structure Backed (E : Env) (Q : State → Prop) (n : Node) : Prop where
  initialized : Initialized E n.genesis n.store
  state : Q n.state
  stored : ∀ p, n.store.latestState = .ok p → Q (State.fromSnapshot p)

/-! ## 1. Insertions that are cut off -/

/-- A commit, as far as it gets, leaves the old state in the store or the new one. -/
theorem latestState_cutOff (store : Store) (s : State) (b : Block) (k : Nat) :
    (store.insertAll ((commitWrites E s b).take k)).latestState = store.latestState ∨
      (store.insertAll ((commitWrites E s b).take k)).latestState = .ok s.snapshot := by
  rcases Store.get_insertAll store ((commitWrites E s b).take k) .state Store.stateLatest with
    ⟨w, hw, ht, -, hget⟩ | ⟨-, hget⟩
  · right
    rcases Store.mem_commitWrites (List.mem_of_mem_take hw) with
      rfl | rfl | rfl | ⟨t, -, rfl⟩ | rfl | rfl
    · cases ht
    · cases ht
    · exact Store.latestState_of_get hget
    all_goals cases ht
  · left
    unfold Store.latestState
    rw [hget]

/-- Marks of finality, as far as they get, leave the stored state. -/
theorem latestState_finalized (store : Store) (height : U64) (hash : Hash) (k : Nat) :
    (store.insertAll ((Store.finalizedWrites height hash).take k)).latestState =
      store.latestState := by
  unfold Store.latestState
  rw [Store.get_finalized_take k fun ht => by cases ht]

/-! ## 2. Rules -/

section Rules

variable {Q : State → Prop}

/-- **A call keeps a property** that the state it is about to commit has. -/
theorem Backed.called (h : Backed E Q n) (hcommits : ∀ s b, Commits E n c s b → Q s) :
    Backed E Q (n.next E c) := by
  have hstepped := next_step (E := E) n c
  generalize n.next E c = n' at hstepped
  cases hstepped with
  | quiet _ htip _ =>
    refine ⟨?_, ?_, ?_⟩
    · rw [htip.genesis, htip.store]
      exact h.initialized
    · rw [htip.state]
      exact h.state
    · rw [htip.store]
      exact h.stored
  | commit s b _ hcommit _ hadopted =>
    have hs : Q s := hcommits s b hcommit
    refine ⟨?_, ?_, fun p hp => ?_⟩
    · have hinit := h.initialized.commit s b (commitWrites E s b).length
      rw [List.take_length] at hinit
      rw [hadopted.genesis, hadopted.store]
      exact hinit
    · rw [hadopted.state]
      exact hs
    · rw [hadopted.store, commitWrites, Store.latestState_commit] at hp
      cases hp
      exact hs
  | cutOff s b k _ hcommit _ _ hcut =>
    have hs : Q s := hcommits s b hcommit
    refine ⟨?_, ?_, fun p hp => ?_⟩
    · rw [hcut.genesis, hcut.store]
      exact h.initialized.commit s b k
    · rw [hcut.state]
      exact h.state
    · rw [hcut.store] at hp
      rcases latestState_cutOff (E := E) n.store s b k with hold | hnew
      · exact h.stored p (hold ▸ hp)
      · rw [hnew] at hp
        cases hp
        exact hs
  | finalize io S current _ _ _ _ _ _ hn' =>
    obtain ⟨k, hk⟩ := Store.perform_state n.store
      (Store.finalizedWrites S.height (n.latestHash E)) c.fault
    rw [hn', hk]
    refine ⟨h.initialized.finalized _ _ k, h.state, fun p hp => h.stored p ?_⟩
    rwa [latestState_finalized] at hp

/-- **A call keeps what its operations keep**, on both states. -/
theorem Backed.next (h : Backed E Q n)
    (hstep : ∀ s op, op ∈ n.operations E c → Q s → Q (s.next E op))
    (hcredit : ∀ s address amount, Q s → Q (s.creditDevnet address amount).state) :
    Backed E Q (n.next E c) :=
  h.called fun _ _ hcommit => hcommit.rule hstep hcredit h.state

/-- A restart leaves the queues empty, unless the node does not open. -/
theorem reopened_cases (h : Initialized E n.genesis n.store) (io : Io) :
    n.reopened E io = n ∨ ∃ b p, n.store.latestState = .ok p ∧
      n.reopened E io = idle n.genesis n.store (State.fromSnapshot p) b := by
  unfold reopened
  rw [openDir_initialized h]
  cases hrestore : restore E n.genesis n.store with
  | error e => exact Or.inl rfl
  | ok m =>
    obtain ⟨b, p, -, hp, -, -, hm⟩ := restore_cases hrestore
    exact Or.inr ⟨b, p, hp, hm⟩

/-- **A restart keeps it.** -/
theorem Backed.reopened (h : Backed E Q n) (io : Io) : Backed E Q (n.reopened E io) := by
  rcases reopened_cases h.initialized io with heq | ⟨b, p, hp, heq⟩
  · rw [heq]
    exact h
  · rw [heq]
    exact ⟨h.initialized, h.stored p hp, h.stored⟩

end Rules

end Node

end WorldstreetChain
