import WorldstreetChain.Node.Queues

/-!
# Asset operations on their way into the records

An asset operation reaches the records of a node from its queue or in a block of somebody else. What
holds of all that is handed in holds of all that waits and of all that is on record, over calls and
restarts, and what is on record stays there.

* `Node.Call.assets` -- the asset operations a call hands in.
* `Node.OnlyAssets` -- every asset operation that waits or is on record has a property.
* `Node.OnlyAssets.next`, `Node.OnlyAssets.reopened` -- **calls and restarts keep it**.
* `Node.HasOnRecord` -- an operation is on record, in memory and in the store.
-/

namespace WorldstreetChain

open Std

/-- The faucet's credit keeps what is on record. -/
theorem Rpc.Recorded.credit {s : State} (h : Recorded s) (address : Address) (amount : Amount) :
    Recorded (s.creditDevnet address amount).state ∧
      Keeps s (s.creditDevnet address amount).state := by
  obtain ⟨hrec, hproc⟩ := creditDevnet_records s address amount
  refine ⟨⟨fun id o hid => h.named id o (hrec ▸ hid), fun id hid => ?_⟩, fun id o hid => ?_⟩
  · rw [hproc]
    exact h.processed id (hrec ▸ hid)
  · rw [hrec]
    exact hid

namespace Node

variable {E : Env} {n : Node} {c : Call} {o : AssetOperation} {P Q : AssetOperation → Prop}

/-- The asset operations a call hands in. -/
def Call.assets : Call → List AssetOperation
  | .submitAssetOperation o => [o]
  | .importBlock _ b => b.assetOperations
  | _ => []

/-- An asset operation that a call carries out waits, or comes with the call. -/
theorem asset_mem_operations (h : .asset o ∈ n.operations E c) :
    o ∈ n.pendingAssetOperations ∨ o ∈ c.assets := by
  cases c with
  | produceBlock io proposer =>
    left
    simpa [operations, Batch.calls, queue] using h
  | importBlock io b =>
    right
    simpa [operations, Batch.calls, Block.batch, Call.assets] using h
  | _ => cases h

/-- Every asset operation on record has a property. -/
structure OnRecord (P : AssetOperation → Prop) (s : State) : Prop where
  recorded : Rpc.Recorded s
  holds : ∀ (id : Hash) o, s.assetOperationRecords[id]? = some o → P o

theorem OnRecord.next {s : State} (h : OnRecord P s) {op : Operation}
    (hop : ∀ o, op = .asset o → P o) : OnRecord P (s.next E op) := by
  refine ⟨(h.recorded.next op).1, fun id o hid => ?_⟩
  rcases Rpc.next_records (E := E) s op with ⟨hrec, -⟩ | ⟨o', hasset, -, hrec, -⟩
  · exact h.holds id o (hrec ▸ hid)
  · rw [hrec, BTreeMap.getElem?_insert_ite] at hid
    split at hid
    · cases hid
      exact hop o hasset
    · exact h.holds id o hid

theorem OnRecord.credit {s : State} (h : OnRecord P s) (address : Address) (amount : Amount) :
    OnRecord P (s.creditDevnet address amount).state := by
  refine ⟨(h.recorded.credit address amount).1, fun id o hid => h.holds id o ?_⟩
  rw [← (Rpc.creditDevnet_records s address amount).1]
  exact hid

/-! ## 1. What a node can come to hold -/

/-- Every asset operation that waits or is on record has the property, and the store is not behind
    the memory. -/
structure OnlyAssets (E : Env) (P : AssetOperation → Prop) (n : Node) : Prop where
  backed : Backed E (OnRecord P) n
  pending : ∀ o ∈ n.pendingAssetOperations, P o
  ahead : ∀ p, n.store.latestState = .ok p → Rpc.Keeps n.state (State.fromSnapshot p)

theorem OnlyAssets.mono (h : OnlyAssets E P n) (hPQ : ∀ o, P o → Q o) : OnlyAssets E Q n where
  backed :=
    { initialized := h.backed.initialized
      state := ⟨h.backed.state.recorded, fun id o hid => hPQ o (h.backed.state.holds id o hid)⟩
      stored := fun p hp => ⟨(h.backed.stored p hp).recorded,
        fun id o hid => hPQ o ((h.backed.stored p hp).holds id o hid)⟩ }
  pending o ho := hPQ o (h.pending o ho)
  ahead := h.ahead

/-- The state a call commits has what was on record. -/
theorem Commits.keeps {s : State} {b : Block} (h : Commits E n c s b)
    (hrec : Rpc.Recorded n.state) : Rpc.Keeps n.state s := by
  refine (h.rule (P := fun t => Rpc.Recorded t ∧ Rpc.Keeps n.state t) (fun t op _ ht => ?_)
    (fun t address amount ht => ?_) ⟨hrec, .refl _⟩).2
  · have hnext := ht.1.next (E := E) op
    exact ⟨hnext.1, ht.2.trans hnext.2⟩
  · have hcredit := ht.1.credit address amount
    exact ⟨hcredit.1, ht.2.trans hcredit.2⟩

/-- A call does not leave the store behind the memory. -/
theorem ahead_next (hrec : Rpc.Recorded n.state)
    (h : ∀ p, n.store.latestState = .ok p → Rpc.Keeps n.state (State.fromSnapshot p)) (c : Call) :
    ∀ p, (n.next E c).store.latestState = .ok p →
      Rpc.Keeps (n.next E c).state (State.fromSnapshot p) := by
  have hstepped := next_step (E := E) n c
  generalize n.next E c = n' at hstepped
  intro p hp
  cases hstepped with
  | quiet _ htip _ =>
    rw [htip.store] at hp
    rw [htip.state]
    exact h p hp
  | commit s b _ _ _ hadopted =>
    rw [hadopted.store, commitWrites, Store.latestState_commit] at hp
    cases hp
    rw [hadopted.state]
    exact .refl s
  | cutOff s b k _ hcommits _ _ hcut =>
    rw [hcut.store] at hp
    rw [hcut.state]
    rcases latestState_cutOff (E := E) n.store s b k with hold | hnew
    · exact h p (hold ▸ hp)
    · rw [hnew] at hp
      cases hp
      exact hcommits.keeps hrec
  | finalize io S current _ _ _ _ _ _ hn' =>
    obtain ⟨k, hk⟩ := Store.perform_state n.store
      (Store.finalizedWrites S.height (n.latestHash E)) c.fault
    rw [hn', hk, latestState_finalized] at hp
    rw [hn']
    exact h p hp

/-- **A call** that hands in nothing else. -/
theorem OnlyAssets.next (h : OnlyAssets E P n) (hc : ∀ o ∈ c.assets, P o) :
    OnlyAssets E P (n.next E c) where
  backed := h.backed.next
    (fun _ _ hop hs => hs.next fun o ho =>
      (asset_mem_operations (ho ▸ hop)).elim (h.pending o) (hc o))
    fun _ address amount hs => hs.credit address amount
  pending := by
    have hstep := queue_step (E := E) n c
    generalize n.next E c = n' at hstep
    cases hstep with
    | same _ _ hsame =>
      rw [hsame.asset]
      exact h.pending
    | asset o =>
      intro o' ho'
      rcases List.mem_append.mp ho' with ho' | ho'
      · exact h.pending o' ho'
      · exact hc o' ho'
    | reserve o id hvalid => exact h.pending
    | cleared io proposer _ hturn hcleared =>
      rw [hcleared.asset]
      exact fun o ho => absurd ho List.not_mem_nil
  ahead := ahead_next h.backed.state.recorded h.ahead c

/-- **A restart.** -/
theorem OnlyAssets.reopened (h : OnlyAssets E P n) (io : Io) :
    OnlyAssets E P (n.reopened E io) := by
  rcases reopened_cases h.backed.initialized io with heq | ⟨b, p, hp, heq⟩
  · rw [heq]
    exact h
  · refine ⟨h.backed.reopened io, ?_, ?_⟩
    · rw [heq]
      exact fun o ho => absurd ho List.not_mem_nil
    · rw [heq]
      intro p' hp'
      rw [show p' = p from Except.ok.inj (hp'.symm.trans hp)]
      exact .refl _

/-! ## 2. What stays on record -/

/-- The operation is on record, in memory and in the store. -/
def HasOnRecord (E : Env) (o : AssetOperation) (n : Node) : Prop :=
  Backed E (fun s => Rpc.Recorded s ∧ s.assetOperationRecords[o.operationId]? = some o) n

theorem OnlyAssets.keeps (h : OnlyAssets E P n)
    (ho : n.state.assetOperationRecords[o.operationId]? = some o) : HasOnRecord E o n where
  initialized := h.backed.initialized
  state := ⟨h.backed.state.recorded, ho⟩
  stored p hp := ⟨(h.backed.stored p hp).recorded, h.ahead p hp _ _ ho⟩

theorem HasOnRecord.next (h : HasOnRecord E o n) (c : Call) : HasOnRecord E o (n.next E c) :=
  Backed.next h
    (fun _ op _ hs => ⟨(hs.1.next op).1, (hs.1.next op).2 _ _ hs.2⟩)
    fun _ address amount hs =>
      ⟨(hs.1.credit address amount).1, (hs.1.credit address amount).2 _ _ hs.2⟩

theorem HasOnRecord.reopened (h : HasOnRecord E o n) (io : Io) : HasOnRecord E o (n.reopened E io) :=
  Backed.reopened h io

/-- A fresh node has nothing on record. -/
theorem onlyAssets_fresh {genesis : GenesisConfig} {s : State}
    (hs : State.fromGenesis genesis = .ok s) : OnlyAssets E P (fresh E genesis s) := by
  have hdurable := durable_fresh (E := E) hs
  have hempty : OnRecord P s := by
    obtain ⟨accounts, rfl⟩ := State.fromGenesis_eq_ok hs
    exact ⟨.empty rfl, fun id o hid => by cases hid⟩
  have hstored : ∀ p, (fresh E genesis s).store.latestState = .ok p → State.fromSnapshot p = s :=
    fun p hp => by
      rw [hdurable.latestState] at hp
      cases hp
      rfl
  refine ⟨⟨hdurable.initialized, hempty, fun p hp => ?_⟩, fun o ho => absurd ho List.not_mem_nil,
    fun p hp => ?_⟩
  · rw [hstored p hp]
    exact hempty
  · rw [hstored p hp]
    exact .refl s

end Node

end WorldstreetChain
