import WorldstreetChain.Library.Keyed
import WorldstreetChain.State.Operation

/-!
# Ids of operations

Every operation has an id. The state keeps the ids of five kinds, four in sets of their own and the
programs' with their receipts; a transaction leaves no id behind.

* `Operation.key` -- kind and id of an operation.
* `State.next_marks` -- **what a step does to the processed ids**: nothing, or it adds the
  operation's own, which was not there before.
* `State.processed_of_false` -- an operation that is taken for a duplicate is processed.
-/

namespace WorldstreetChain

open Std

inductive OperationKind where
  | transaction
  | asset
  | token
  | mnaSwap
  | mnaReserve
  | program
  deriving DecidableEq

/-- Kind and id. -/
def Operation.key (C : Crypto) : Operation → OperationKind × Hash
  | .transaction t => (.transaction, C.transactionId t)
  | .asset o => (.asset, o.operationId)
  | .token o _ => (.token, C.tokenOperationId o)
  | .mnaSwap o => (.mnaSwap, C.mnaSwapOperationId o)
  | .mnaReserve o => (.mnaReserve, C.mnaReserveOperationId o)
  | .program o _ => (.program, C.programOperationId o)

namespace State

/-- The state takes the operation with this id for a duplicate. -/
def Processed (s : State) : OperationKind → Hash → Prop
  | .transaction, _ => False
  | .asset, id => id ∈ s.processedAssetOperations
  | .token, id => id ∈ s.processedTokenOperations
  | .mnaSwap, id => id ∈ s.processedMnaSwapOperations
  | .mnaReserve, id => id ∈ s.processedMnaReserveOperations
  | .program, id => id ∈ s.programReceipts

variable {E : Env} {s s' : State} {op : Operation}

/-! ## 1. One step -/

/-- The step adds the operation's own id to what is processed, where it was not before. -/
structure Marked (C : Crypto) (s : State) (op : Operation) (s' : State) : Prop where
  new : ¬ s.Processed (op.key C).1 (op.key C).2
  processed : ∀ kind id, s'.Processed kind id ↔ (kind, id) = op.key C ∨ s.Processed kind id

/-- An operation leaves the ids of the other kinds alone. -/
theorem Writes.processed (h : Writes s op s') {kind : OperationKind} (id : Hash)
    (hne : kind ≠ (op.key E.crypto).1) : s'.Processed kind id ↔ s.Processed kind id := by
  cases h <;> cases kind <;> first | exact Iff.rfl | exact absurd rfl hne

/-- A step that adds one id to the set of its kind. -/
theorem Marked.of_insert (hwrites : Writes s op s')
    (hnew : ¬ s.Processed (op.key E.crypto).1 (op.key E.crypto).2)
    (hown : ∀ id, s'.Processed (op.key E.crypto).1 id ↔
      id = (op.key E.crypto).2 ∨ s.Processed (op.key E.crypto).1 id) :
    Marked E.crypto s op s' := by
  refine ⟨hnew, fun kind id => ?_⟩
  rw [Prod.ext_iff]
  by_cases hk : kind = (op.key E.crypto).1
  · rw [hk, hown, eq_self_iff_true, true_and]
  · rw [hwrites.processed id hk]
    exact (or_iff_right fun h => hk h.1).symm

/-- An applied operation that is no transaction. -/
theorem Marked.of_applied (hkind : (op.key E.crypto).1 ≠ .transaction)
    (h : s.apply E op = ⟨.ok true, s'⟩) : Marked E.crypto s op s' := by
  have hwrites := Writes.of_apply h
  cases op with
  | transaction t => exact absurd rfl hkind
  | asset o =>
    obtain ⟨-, hn, _, _, -, -, rfl⟩ := applyAssetOperation_true h
    exact .of_insert hwrites hn fun id => BTreeSet.mem_insert_iff
  | token o id =>
    obtain ⟨-, rfl, hn, charged, next, hc, ht, rfl⟩ := applyTokenOperation_true h
    obtain ⟨_, _, _, -, -, -, rfl⟩ := chargeTokenFee_eq_ok hc
    obtain ⟨_, _, _, rfl⟩ := (tokenEffect_eq_ok ht).writes
    exact .of_insert hwrites hn fun id => BTreeSet.mem_insert_iff
  | mnaSwap o =>
    obtain ⟨-, hn, next, he, rfl⟩ := applyMnaSwap_true h
    obtain ⟨_, _, _, _, _, -, -, rfl, -⟩ := swapEffect_eq_ok he
    exact .of_insert hwrites hn fun id => BTreeSet.mem_insert_iff
  | mnaReserve o =>
    obtain ⟨hv, hn, next, he, -, rfl⟩ := applyMnaReserveOperation_true h
    have hset : next.processedMnaReserveOperations =
        s.processedMnaReserveOperations.insert o.operationId := by
      rcases reserveEffect_eq_ok he with
        ⟨-, -, _, _, _, _, -, -, -, rfl⟩ | ⟨-, -, _, -, rfl⟩ | ⟨-, -, _, _, -, -, rfl⟩ |
          ⟨-, -, _, -, -, rfl⟩
      all_goals rfl
    refine .of_insert hwrites ?_ fun id => ?_
    · show E.crypto.mnaReserveOperationId o ∉ _
      rw [hv.id]
      exact hn
    · show id ∈ next.processedMnaReserveOperations ↔ id = E.crypto.mnaReserveOperationId o ∨ _
      rw [hv.id, hset]
      exact BTreeSet.mem_insert_iff
  | program o height =>
    obtain ⟨hn, hm⟩ := applyProgramOperation_true h
    obtain ⟨-, -, _, _, _, _, _, _, _, -, -, -, -, rfl⟩ := applyProgramOperationMut_eq_ok hm
    refine .of_insert hwrites hn fun id => ?_
    show id ∈ s.programReceipts.insert _ _ ↔ _
    rw [ExtTreeMap.mem_insert, LawfulEqCmp.compare_eq_iff_eq, eq_comm]
    exact Iff.rfl

/-- A failed operation that has left something behind and is no transaction. -/
theorem Marked.of_residue (hkind : (op.key E.crypto).1 ≠ .transaction) (hwrites : Writes s op s')
    (h : Residue E s op s') : Marked E.crypto s op s' := by
  cases h with
  | faucet t balance hf hv hp hb => exact absurd rfl hkind
  | assetRecorded o hc hn => exact .of_insert hwrites hn fun id => BTreeSet.mem_insert_iff
  | assetMoved o ledger hc hn => exact .of_insert hwrites hn fun id => BTreeSet.mem_insert_iff
  | mnaSwap o hv hn => exact .of_insert hwrites hn fun id => BTreeSet.mem_insert_iff
  | mnaReserve o hv hn =>
    refine .of_insert hwrites ?_ fun id => ?_
    · show E.crypto.mnaReserveOperationId o ∉ _
      rw [hv.id]
      exact hn
    · show _ ↔ id = E.crypto.mnaReserveOperationId o ∨ _
      rw [hv.id]
      exact BTreeSet.mem_insert_iff

/-- A step is an applied operation, leaves everything alone, or leaves a residue. -/
theorem next_or (s : State) (op : Operation) :
    s.next E op = s ∨ s.apply E op = ⟨.ok true, s.next E op⟩ ∨ Residue E s op (s.next E op) := by
  rcases hx : (s.apply E op).result with e | b
  · rcases apply_error (apply_eq hx) with h | h
    · exact Or.inl h
    · exact Or.inr (Or.inr h)
  · cases b with
    | true => exact Or.inr (Or.inl (apply_eq hx))
    | false => exact Or.inl (apply_false (apply_eq hx))

/-- **What a step does to the processed ids.** -/
theorem next_marks (s : State) (op : Operation) :
    (∀ kind id, (s.next E op).Processed kind id ↔ s.Processed kind id) ∨
      Marked E.crypto s op (s.next E op) := by
  have hwrites : Writes s op (s.next E op) := next_writes
  by_cases hkind : (op.key E.crypto).1 = .transaction
  · refine Or.inl fun kind id => ?_
    cases kind with
    | transaction => exact Iff.rfl
    | _ => exact hwrites.processed (E := E) id fun h => by rw [hkind] at h; cases h
  · rcases next_or (E := E) s op with h | h | h
    · rw [h]
      exact Or.inl fun kind id => Iff.rfl
    · exact Or.inr (.of_applied hkind h)
    · exact Or.inr (.of_residue hkind hwrites h)

/-! ## 2. What is processed -/

variable {kind : OperationKind} {id : Hash}

/-- What is processed stays so. -/
theorem Processed.next (h : s.Processed kind id) (op : Operation) :
    (s.next E op).Processed kind id := by
  rcases next_marks (E := E) s op with hs | hs
  · exact (hs kind id).mpr h
  · exact (hs.processed kind id).mpr (Or.inr h)

/-- Nothing is processed that was not or is the operation's own. -/
theorem processed_next_cases (h : (s.next E op).Processed kind id) :
    (kind, id) = op.key E.crypto ∨ s.Processed kind id := by
  rcases next_marks (E := E) s op with hs | hs
  · exact Or.inr ((hs kind id).mp h)
  · exact (hs.processed kind id).mp h

theorem Processed.runs (h : s.Processed kind id) (ops : List Operation) :
    (runs (State.next E) s ops).Processed kind id := by
  induction ops generalizing s with
  | nil => exact h
  | cons op ops ih => exact ih (h.next op)

theorem processed_runs_cases {ops : List Operation}
    (h : (runs (State.next E) s ops).Processed kind id) :
    (∃ op ∈ ops, (kind, id) = op.key E.crypto) ∨ s.Processed kind id := by
  induction ops generalizing s with
  | nil => exact Or.inr h
  | cons op ops ih =>
    rcases ih h with ⟨op', hop, hkey⟩ | h
    · exact Or.inl ⟨op', List.mem_cons_of_mem _ hop, hkey⟩
    · rcases processed_next_cases h with hkey | h
      · exact Or.inl ⟨op, List.mem_cons_self, hkey⟩
      · exact Or.inr h

/-- **A duplicate is processed.** -/
theorem processed_of_false (h : (s.apply E op).result = .ok false) :
    s.Processed (op.key E.crypto).1 (op.key E.crypto).2 := by
  have happly := apply_eq h
  cases op with
  | transaction t =>
    obtain ⟨_, -, h⟩ := Applied.map_eq_ok.mp happly
    cases h
  | asset o => exact (applyAssetOperation_false happly).2
  | token o id =>
    obtain ⟨-, rfl, hp⟩ := applyTokenOperation_false happly
    exact hp
  | mnaSwap o => exact (applyMnaSwap_false happly).2
  | mnaReserve o =>
    obtain ⟨-, hp⟩ := applyMnaReserveOperation_false happly
    obtain ⟨id, hv, -⟩ := Applied.attempt_eq_ok.mp happly
    show E.crypto.mnaReserveOperationId o ∈ _
    rw [(validateMnaReserveOperation_eq_ok hv).1.id]
    exact hp
  | program o height => exact (applyProgramOperation_false happly).2

end State

end WorldstreetChain
