import WorldstreetChain.State.Processed

/-!
# Operations on record

Token, swap and reserve operations are put on record under their ids when they are applied, and in
no other case: what an operation that fails leaves behind is no record.

* `State.onRecord` -- the operation on record under an id.
* `State.onRecord_next` -- **what a step does to the records**.
* `State.isSome_onRecord_runs` -- nothing goes off the record.
-/

namespace WorldstreetChain

open Std

namespace State

/-- The operation on record under an id, for the kinds that are recorded when they are applied. -/
def onRecord (s : State) : OperationKind → Hash → Option Operation
  | .token, id => s.tokenOperationRecords[id]?.map (.token · id)
  | .mnaSwap, id => s.mnaSwapOperationRecords[id]?.map .mnaSwap
  | .mnaReserve, id => s.mnaReserveOperationRecords[id]?.map .mnaReserve
  | _, _ => none

/-- The kinds that are recorded when they are applied. -/
def KeepsRecord : OperationKind → Prop
  | .token | .mnaSwap | .mnaReserve => True
  | _ => False

variable {E : Env} {s s' : State} {op : Operation} {kind : OperationKind} {id : Hash}

/-- An operation leaves the records of the other kinds alone. -/
theorem Writes.onRecord (h : Writes s op s') (hne : kind ≠ (op.key E.crypto).1) :
    s'.onRecord kind id = s.onRecord kind id := by
  cases h <;> cases kind <;> first | rfl | exact absurd rfl hne

theorem getElem?_insert_map {α β : Type} {records : BTreeMap Hash α} {id id' : Hash} {x : α}
    {f : Hash → α → β} :
    ((records.insert id x)[id']?).map (f id') =
      if id' = id then some (f id x) else (records[id']?).map (f id') := by
  rw [BTreeMap.getElem?_insert_ite]
  by_cases hid : id' = id
  · rw [if_pos hid, if_pos hid, hid]
    rfl
  · rw [if_neg hid, if_neg hid]

/-- The records of an applied operation's kind: its own is new, or takes the place of one. -/
theorem onRecord_applied (h : s.apply E op = ⟨.ok true, s'⟩) (hkind : KeepsRecord kind) :
    s'.onRecord kind id =
      if (kind, id) = op.key E.crypto then some op else s.onRecord kind id := by
  by_cases hne : kind = (op.key E.crypto).1
  · have hid : ((kind, id) = op.key E.crypto) = (id = (op.key E.crypto).2) := by
      rw [Prod.ext_iff]
      exact propext (and_iff_right hne)
    simp only [hid]
    subst hne
    cases op with
    | token o id' =>
      obtain ⟨-, rfl, -, charged, next, hc, ht, rfl⟩ := applyTokenOperation_true h
      obtain ⟨_, _, _, -, -, -, rfl⟩ := chargeTokenFee_eq_ok hc
      obtain ⟨_, _, _, rfl⟩ := (tokenEffect_eq_ok ht).writes
      exact getElem?_insert_map (f := fun id o => Operation.token o id)
    | mnaSwap o =>
      obtain ⟨-, -, next, he, rfl⟩ := applyMnaSwap_true h
      obtain ⟨_, _, _, _, _, -, -, rfl, -⟩ := swapEffect_eq_ok he
      exact getElem?_insert_map (f := fun _ o => Operation.mnaSwap o)
    | mnaReserve o =>
      obtain ⟨hv, -, next, he, -, rfl⟩ := applyMnaReserveOperation_true h
      have hrecords : next.mnaReserveOperationRecords = s.mnaReserveOperationRecords := by
        rcases reserveEffect_eq_ok he with
          ⟨-, -, _, _, _, _, -, -, -, rfl⟩ | ⟨-, -, _, -, rfl⟩ | ⟨-, -, _, _, -, -, rfl⟩ |
            ⟨-, -, _, -, -, rfl⟩
        all_goals rfl
      show ((next.mnaReserveOperationRecords.insert o.operationId o)[id]?).map Operation.mnaReserve =
        if id = E.crypto.mnaReserveOperationId o then _ else _
      rw [hrecords, hv.id]
      exact getElem?_insert_map (f := fun _ o => Operation.mnaReserve o)
    | transaction t => exact hkind.elim
    | asset o => exact hkind.elim
    | program o height => exact hkind.elim
  · rw [if_neg fun heq => hne (congrArg Prod.fst heq), (Writes.of_apply h).onRecord hne]

/-- What a failed operation leaves behind is no record. -/
theorem Residue.onRecord (h : Residue E s op s') : s'.onRecord kind id = s.onRecord kind id := by
  cases h <;> cases kind <;> rfl

/-- **What a step does to the records**: nothing, or the operation is applied and is on record. -/
theorem onRecord_next (s : State) (op : Operation) (kind : OperationKind) (id : Hash) :
    (s.next E op).onRecord kind id = s.onRecord kind id ∨
      (s.apply E op).result = .ok true ∧ op.key E.crypto = (kind, id) ∧
        (s.next E op).onRecord kind id = some op := by
  rcases next_or (E := E) s op with hsame | happlied | hresidue
  · rw [hsame]
    exact Or.inl rfl
  · by_cases hkind : KeepsRecord kind
    · have hrecord : (s.next E op).onRecord kind id =
          if (kind, id) = op.key E.crypto then some op else s.onRecord kind id :=
        onRecord_applied happlied hkind
      split at hrecord
      · rename_i hkey
        exact Or.inr ⟨by rw [happlied], hkey.symm, hrecord⟩
      · exact Or.inl hrecord
    · cases kind <;> first | exact Or.inl rfl | exact absurd trivial hkind
  · exact Or.inl hresidue.onRecord

/-- What is on record stays on record. -/
theorem isSome_onRecord_runs (ops : List Operation) (h : (s.onRecord kind id).isSome = true) :
    ((runs (next E) s ops).onRecord kind id).isSome = true := by
  induction ops generalizing s with
  | nil => exact h
  | cons op ops ih =>
    refine ih ?_
    rcases onRecord_next (E := E) s op kind id with hsame | ⟨-, -, hnew⟩
    · rw [hsame]
      exact h
    · rw [hnew]
      rfl

/-- The genesis state has nothing on record. -/
theorem onRecord_fromGenesis {genesis : GenesisConfig} (h : fromGenesis genesis = .ok s)
    (kind : OperationKind) (id : Hash) : s.onRecord kind id = none := by
  obtain ⟨accounts, rfl⟩ := fromGenesis_eq_ok h
  cases kind <;> rfl

/-- What is on record has been among the operations. -/
theorem mem_of_onRecord (ops : List Operation)
    (h : (runs (next E) s ops).onRecord kind id = some op) :
    s.onRecord kind id = some op ∨ op ∈ ops := by
  induction ops generalizing s with
  | nil => exact Or.inl h
  | cons first ops ih =>
    rcases ih h with hbefore | hmem
    · rcases onRecord_next (E := E) s first kind id with hsame | ⟨-, -, hnew⟩
      · exact Or.inl (hsame ▸ hbefore)
      · rw [hnew] at hbefore
        cases hbefore
        exact Or.inr List.mem_cons_self
    · exact Or.inr (List.mem_cons_of_mem _ hmem)

end State

end WorldstreetChain
