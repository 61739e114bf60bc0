import WorldstreetChain.State.TokenOrigin

/-!
# The tokens a node shows

`token_get` and `token_list` show every definition with the id of the operation that created it,
which they look for among the operations on record.

* `Rpc.tokenCreationOperationId`, `Rpc.tokenGet`, `Rpc.tokenList` -- the views.
* `Rpc.token_origin` -- **every token is shown with the one operation it comes from**, for good.
-/

namespace WorldstreetChain

open Std

namespace Rpc

variable {E : Env} {s : State} {id opId : Hash} {d : TokenDefinition}

/-! ## 1. The views -/

section Views

variable (E : Env) (s : State)

def tokenCreationOperationId (tokenId : Hash) : Option Hash :=
  s.tokenOperationRecords.toList.findSome? fun (operationId, operation) =>
    if operation.unsigned.kind = .create ∧ E.crypto.tokenIdFromOperation operationId = tokenId
    then some operationId else none

/-- `token_get`: the definition, and the operation that created it; `none` is "token not found". -/
def tokenGet (tokenId : Hash) : Option (TokenDefinition × Option Hash) := do
  let definition ← s.tokenDefinitions[tokenId]?
  some (definition, tokenCreationOperationId E s tokenId)

/-- `token_list`. -/
def tokenList : List (TokenDefinition × Option Hash) :=
  s.tokenDefinitions.toList.map fun (_, definition) =>
    (definition, tokenCreationOperationId E s definition.tokenId)

end Views

/-! ## 2. The operation shown -/

/-- The scan finds a creation on record. -/
theorem tokenCreationOperationId_eq_some (h : tokenCreationOperationId E s id = some opId) :
    ∃ o, s.tokenOperationRecords[opId]? = some o ∧ o.unsigned.kind = .create ∧
      E.crypto.tokenIdFromOperation opId = id := by
  obtain ⟨⟨i, o⟩, hmem, hfound⟩ := List.exists_of_findSome?_eq_some h
  obtain ⟨⟨hkind, htoken⟩, hi⟩ := Option.ite_none_right_eq_some.mp hfound
  cases hi
  exact ⟨o, ExtTreeMap.mem_toList_iff_getElem?_eq_some.mp hmem, hkind, htoken⟩

/-- It finds one where there is one. -/
theorem isSome_tokenCreationOperationId {o : TokenOperation}
    (hrecord : s.tokenOperationRecords[opId]? = some o) (hkind : o.unsigned.kind = .create) :
    (tokenCreationOperationId E s (E.crypto.tokenIdFromOperation opId)).isSome = true := by
  refine List.findSome?_isSome_iff.mpr
    ⟨(opId, o), ExtTreeMap.mem_toList_iff_getElem?_eq_some.mpr hrecord, ?_⟩
  dsimp only
  rw [if_pos ⟨hkind, rfl⟩]
  rfl

/-- Where each token has its one operation, it is this one. -/
theorem tokenCreationOperationId_of_created (h : State.Originates E s) {o : TokenOperation}
    (hcreated : State.Created E s id d opId o) :
    tokenCreationOperationId E s id = some opId := by
  have hsome := isSome_tokenCreationOperationId (E := E) hcreated.record hcreated.kind
  rw [hcreated.tokenId] at hsome
  obtain ⟨i, hi⟩ := Option.isSome_iff_exists.mp hsome
  obtain ⟨o', hrecord, hkind, htoken⟩ := tokenCreationOperationId_eq_some hi
  rw [hi, h.unique i opId o' o hrecord hcreated.record hkind hcreated.kind
    (htoken.trans hcreated.tokenId.symm)]

theorem tokenGet_eq_some {shown : Option Hash} : tokenGet E s id = some (d, shown) ↔
    s.tokenDefinitions[id]? = some d ∧ tokenCreationOperationId E s id = shown := by
  unfold tokenGet
  cases s.tokenDefinitions[id]? with
  | none => simp
  | some d' => simp

/-- What is listed is what is shown under its own id. -/
theorem mem_tokenList (h : State.TokensNamed s) {shown : Option Hash} :
    (d, shown) ∈ tokenList E s ↔ tokenGet E s d.tokenId = some (d, shown) := by
  rw [tokenGet_eq_some]
  constructor
  · intro hmem
    obtain ⟨⟨key, d'⟩, hentry, heq⟩ := List.mem_map.mp hmem
    cases heq
    have hget := ExtTreeMap.mem_toList_iff_getElem?_eq_some.mp hentry
    rw [h key d hget]
    exact ⟨hget, rfl⟩
  · rintro ⟨hget, hshown⟩
    refine List.mem_map.mpr
      ⟨(d.tokenId, d), ExtTreeMap.mem_toList_iff_getElem?_eq_some.mpr hget, ?_⟩
    dsimp only
    rw [hshown]

/-- **Where a token comes from.** In every state reached from a genesis, `token_get` shows a token
    exactly if it is listed, and then with the one operation that created it: one of those that
    were applied, signed by the token's creator, and on record under the id the token's id is made
    from. Whatever is applied later, the token is shown with the same operation, and its id,
    creator, name, symbol, decimals and cap stay those the operation gave it. -/
theorem token_origin {genesis : GenesisConfig} {s₀ : State}
    (hg : State.fromGenesis genesis = .ok s₀) {ops : List Operation}
    (hs : s = runs (State.next E) s₀ ops) (later : List Operation) {shown : Option Hash} :
    ((d, shown) ∈ tokenList E s ↔ tokenGet E s d.tokenId = some (d, shown)) ∧
    (tokenGet E s id = some (d, shown) → ∃ opId o, shown = some opId ∧ .token o opId ∈ ops ∧
      State.Created E s id d opId o ∧
      ∃ d', tokenGet E (runs (State.next E) s later) id = some (d', some opId) ∧
        State.tokenIdentity d' = State.tokenIdentity (State.newTokenDefinition o.unsigned id)) := by
  have horiginates : State.Originates E s := by
    rw [hs]
    exact State.originates_runs (State.originates_fromGenesis hg) ops
  have hlater := State.originates_runs horiginates later
  constructor
  · exact mem_tokenList horiginates.named
  · intro hget
    obtain ⟨hd, hshown⟩ := tokenGet_eq_some.mp hget
    obtain ⟨opId, o, hcreated⟩ := horiginates.created id d hd
    have hfound := tokenCreationOperationId_of_created horiginates hcreated
    have hmem : .token o opId ∈ ops := by
      have hrecord : (runs (State.next E) s₀ ops).onRecord .token opId = some (.token o opId) := by
        rw [← hs]
        exact congrArg (Option.map (Operation.token · opId)) hcreated.record
      refine (State.mem_of_onRecord ops hrecord).resolve_left fun hgenesis => ?_
      rw [State.onRecord_fromGenesis hg] at hgenesis
      cases hgenesis
    refine ⟨opId, o, hshown.symm.trans hfound, hmem, hcreated, ?_⟩
    obtain ⟨d', hd', hidentity⟩ := State.tokenIdentity_runs (E := E) horiginates.named later hd
    have hstays := hcreated.of_same (horiginates.record_runs later hcreated.record) hidentity
    exact ⟨d', tokenGet_eq_some.mpr ⟨hd', tokenCreationOperationId_of_created hlater hstays⟩,
      hstays.identity⟩

end Rpc

namespace Sample

/-- A token is created, and two hundred of it are burned later. -/
def tokenState : State := runs (State.next .standIn) (genesisState 1) [createToken 500 1000]

def tokenBurned : List Operation :=
  [tokenCall (tokenOperation .burn 1 (createdToken 500 1000) 200 0)]

theorem evaluated_tokenState :
    (Rpc.tokenGet .standIn tokenState (createdToken 500 1000)).isSome = true := by
  decide +kernel

end Sample

namespace Rpc

/-- It is shown with its creation before and after. -/
theorem token_origin_burn : ∃ d d' opId,
    tokenGet .standIn Sample.tokenState (Sample.createdToken 500 1000) = some (d, some opId) ∧
      tokenGet .standIn (runs (State.next .standIn) Sample.tokenState Sample.tokenBurned)
        (Sample.createdToken 500 1000) = some (d', some opId) := by
  obtain ⟨⟨d, shown⟩, hget⟩ := Option.isSome_iff_exists.mp Sample.evaluated_tokenState
  have hreached : Sample.tokenState =
      runs (State.next .standIn) (Sample.genesisState 1) [Sample.createToken 500 1000] := rfl
  obtain ⟨opId, o, rfl, -, -, d', hget', -⟩ :=
    (token_origin (Sample.fromGenesis_genesis 1) hreached Sample.tokenBurned).2 hget
  exact ⟨d, d', opId, hget, hget'⟩

end Rpc

end WorldstreetChain
