import WorldstreetChain.State.Records
import WorldstreetChain.State.TokenAuthority

/-!
# Where a token comes from

A token is defined by one operation, which is on record under the id the token's id is made from.
What the operation gave the token as its identity stays; no second operation defines it again.

* `State.tokenIdentity` -- what no operation on a token changes.
* `State.Created` -- an operation on record has created a token.
* `State.originates_runs` -- **in every reachable state** each token has its one operation.
-/

namespace WorldstreetChain

open Std

namespace State

variable {E : Env} {s t : State} {op : Operation} {o : TokenOperation} {id opId : Hash}
  {d : TokenDefinition}

/-! ## 1. What an operation does to the definitions -/

/-- What no operation on a token changes. -/
def tokenIdentity (d : TokenDefinition) :
    Hash × Address × String × String × UInt8 × Option Amount :=
  (d.tokenId, d.creator, d.name, d.symbol, d.decimals, d.maxSupply)

/-- A defined token stays, and so does its identity. -/
theorem tokenIdentity_applied (hn : TokensNamed s) (h : s.apply E op = ⟨.ok true, t⟩)
    (hd : s.tokenDefinitions[id]? = some d) :
    ∃ d', t.tokenDefinitions[id]? = some d' ∧ tokenIdentity d' = tokenIdentity d := by
  by_cases hop : ∃ o, op = .asset o
  · obtain ⟨o, rfl⟩ := hop
    have hdefs := ((Writes.of_apply h).tokens fun o id he => by cases he).1
    exact ⟨d, hdefs ▸ hd, rfl⟩
  · obtain ⟨d', hd', hstep⟩ := apply_tokenStep hn (fun o he => hop ⟨o, he⟩) h hd
    obtain ⟨h1, h2, h3, h4, h5, h6⟩ := hstep.identity
    refine ⟨d', hd', ?_⟩
    unfold tokenIdentity
    rw [h1, h2, h3, h4, h5, h6]

theorem tokenIdentity_next (hn : TokensNamed s) (op : Operation)
    (hd : s.tokenDefinitions[id]? = some d) :
    ∃ d', (s.next E op).tokenDefinitions[id]? = some d' ∧ tokenIdentity d' = tokenIdentity d :=
  next_cases (R := fun t => ∃ d', t.tokenDefinitions[id]? = some d' ∧
      tokenIdentity d' = tokenIdentity d) ⟨d, hd, rfl⟩
    (fun _ h => tokenIdentity_applied hn h hd) fun t hr => by
      cases hr <;> exact ⟨d, hd, rfl⟩

theorem tokenIdentity_runs (hn : TokensNamed s) (ops : List Operation)
    (hd : s.tokenDefinitions[id]? = some d) :
    ∃ d', (runs (next E) s ops).tokenDefinitions[id]? = some d' ∧
      tokenIdentity d' = tokenIdentity d := by
  induction ops generalizing s d with
  | nil => exact ⟨d, hd, rfl⟩
  | cons op ops ih =>
    obtain ⟨d₁, hd₁, h₁⟩ := tokenIdentity_next (E := E) hn op hd
    obtain ⟨d₂, hd₂, h₂⟩ := ih (tokensNamed_next hn op) hd₁
    exact ⟨d₂, hd₂, h₂.trans h₁⟩

/-- A token that is new past the fee has been created by the operation. -/
theorem TokenEffect.defined {u : UnsignedTokenOperation} (he : TokenEffect E s u opId t)
    (hn : TokensNamed s) (hnew : s.tokenDefinitions[id]? = none)
    (hd : t.tokenDefinitions[id]? = some d) :
    u.kind = .create ∧ E.crypto.tokenIdFromOperation opId = id ∧ d = newTokenDefinition u id := by
  have hinsert : ∀ d', (s.insertTokenDefinition d'.tokenId d').tokenDefinitions[id]? = some d →
      id = d'.tokenId ∧ d = d' := fun d' hd => by
    rw [getElem?_insertTokenDefinition] at hd
    split at hd
    · cases hd
      exact ⟨‹_›, rfl⟩
    · rw [hnew] at hd
      cases hd
  have hold : ∀ d₀, s.tokenDefinitions[u.tokenId]? = some d₀ → id ≠ d₀.tokenId := fun d₀ hd₀ he => by
    rw [he, hn _ _ hd₀, hd₀] at hnew
    cases hnew
  cases he with
  | createEmpty hk h0 hfresh =>
    obtain ⟨hid, hdef⟩ := hinsert (newTokenDefinition u (E.crypto.tokenIdFromOperation opId)) hd
    have hid' : E.crypto.tokenIdFromOperation opId = id := hid.symm
    exact ⟨hk, hid', hid' ▸ hdef⟩
  | create d₀ v hk hd₀ hfresh hv =>
    obtain ⟨hid, hdef⟩ := hinsert d₀ hd
    subst hd₀
    have hid' : E.crypto.tokenIdFromOperation opId = id := hid.symm
    exact ⟨hk, hid', hid' ▸ hdef⟩
  | transfer d₀ recipient v w hk hd₀ hto hv hw =>
    have hsame : s.tokenDefinitions[id]? = some d := hd
    rw [hnew] at hsame
    cases hsame
  | mint d₀ recipient total v hk hd₀ htotal hcap hv =>
    exact absurd (hinsert { d₀ with totalSupply := total } hd).1 (hold d₀ hd₀)
  | burn d₀ total v hk hd₀ htotal hv =>
    exact absurd (hinsert { d₀ with totalSupply := total } hd).1 (hold d₀ hd₀)
  | administer d₀ d' hd₀ hsame =>
    refine absurd (hinsert d' (hsame.tokenId ▸ hd)).1 ?_
    rw [hsame.tokenId]
    exact hold d₀ hd₀
  | frozen accounts =>
    have hsame : s.tokenDefinitions[id]? = some d := hd
    rw [hnew] at hsame
    cases hsame

/-- A creation defines a token that has not been defined. -/
theorem tokenCreate_defines {u : UnsignedTokenOperation} (hk : u.kind = .create)
    (h : s.tokenEffect E u opId = .ok t) :
    s.tokenDefinitions[E.crypto.tokenIdFromOperation opId]? = none ∧
      t.tokenDefinitions[E.crypto.tokenIdFromOperation opId]? =
        some (newTokenDefinition u (E.crypto.tokenIdFromOperation opId)) := by
  have hcreate : s.tokenCreate E u opId = .ok t := by
    rw [← h, tokenEffect, hk]
  unfold tokenCreate at hcreate
  obtain ⟨hnew, hcreate⟩ := rejectIf_bind_eq_ok.mp hcreate
  refine ⟨ExtTreeMap.getElem?_eq_none hnew, ?_⟩
  have hself : ∀ d', (s.insertTokenDefinition (E.crypto.tokenIdFromOperation opId)
      d').tokenDefinitions[E.crypto.tokenIdFromOperation opId]? = some d' := fun d' => by
    rw [getElem?_insertTokenDefinition, if_pos rfl]
  split at hcreate
  · obtain ⟨v, -, rfl⟩ := adjustTokenBalance_add hcreate
    exact hself _
  · cases hcreate
    exact hself _

/-! ## 2. The operation a token comes from -/

/-- An operation on record under `opId` has created the token `d`, signed by its creator. -/
structure Created (E : Env) (s : State) (id : Hash) (d : TokenDefinition) (opId : Hash)
    (o : TokenOperation) : Prop where
  record : s.tokenOperationRecords[opId]? = some o
  kind : o.unsigned.kind = .create
  operationId : E.crypto.tokenOperationId o = opId
  tokenId : E.crypto.tokenIdFromOperation opId = id
  signed : SignedBy E o d.creator
  identity : tokenIdentity d = tokenIdentity (newTokenDefinition o.unsigned id)

theorem Created.of_same {d' : TokenDefinition} (h : Created E s id d opId o)
    (hrecord : t.tokenOperationRecords[opId]? = some o)
    (hidentity : tokenIdentity d' = tokenIdentity d) : Created E t id d' opId o := by
  refine ⟨hrecord, h.kind, h.operationId, h.tokenId, ?_, hidentity.trans h.identity⟩
  have hcreator : d'.creator = d.creator := congrArg (fun i => i.2.1) hidentity
  rw [hcreator]
  exact h.signed

/-- **Each token has its one operation.** -/
structure Originates (E : Env) (s : State) : Prop where
  named : TokensNamed s
  recorded : ∀ opId o, s.tokenOperationRecords[opId]? = some o →
    opId ∈ s.processedTokenOperations
  created : ∀ id d, s.tokenDefinitions[id]? = some d → ∃ opId o, Created E s id d opId o
  defined : ∀ opId o, s.tokenOperationRecords[opId]? = some o → o.unsigned.kind = .create →
    (s.tokenDefinitions[E.crypto.tokenIdFromOperation opId]?).isSome = true
  unique : ∀ opId opId' o o', s.tokenOperationRecords[opId]? = some o →
    s.tokenOperationRecords[opId']? = some o' → o.unsigned.kind = .create →
    o'.unsigned.kind = .create →
    E.crypto.tokenIdFromOperation opId = E.crypto.tokenIdFromOperation opId' → opId = opId'

/-- What leaves definitions, records and the processed ids alone. -/
theorem Originates.of_same (h : Originates E s) (hdefs : t.tokenDefinitions = s.tokenDefinitions)
    (hrecords : t.tokenOperationRecords = s.tokenOperationRecords)
    (hprocessed : t.processedTokenOperations = s.processedTokenOperations) : Originates E t := by
  refine ⟨h.named.of_same hdefs, ?_, fun id d hd => ?_, ?_, ?_⟩
  · rw [hrecords, hprocessed]
    exact h.recorded
  · rw [hdefs] at hd
    obtain ⟨opId, o, hcreated⟩ := h.created id d hd
    exact ⟨opId, o, hcreated.of_same (hrecords ▸ hcreated.record) rfl⟩
  · rw [hdefs, hrecords]
    exact h.defined
  · rw [hrecords]
    exact h.unique

/-- An operation that is applied takes no other's place on record. -/
theorem Originates.record_applied (h : Originates E s) (happly : s.apply E op = ⟨.ok true, t⟩)
    (hrecord : s.tokenOperationRecords[opId]? = some o) :
    t.tokenOperationRecords[opId]? = some o := by
  have hon : s.onRecord .token opId = some (.token o opId) :=
    congrArg (Option.map (Operation.token · opId)) hrecord
  have htrue : t.onRecord .token opId =
      if (.token, opId) = op.key E.crypto then some op else s.onRecord .token opId :=
    onRecord_applied happly trivial
  by_cases hkey : (OperationKind.token, opId) = op.key E.crypto
  · cases op with
    | token o' id =>
      obtain ⟨-, rfl, hnew, -⟩ := applyTokenOperation_true happly
      cases hkey
      exact absurd (h.recorded _ o hrecord) hnew
    | _ => cases hkey
  · rw [if_neg hkey, hon] at htrue
    obtain ⟨o', ho', heq⟩ := Option.map_eq_some_iff.mp htrue
    cases heq
    exact ho'

/-- A token operation that is applied. -/
theorem Originates.token (h : Originates E s) (happly : s.apply E (.token o opId) = ⟨.ok true, t⟩) :
    Originates E t := by
  have hnamed := tokensNamed_apply h.named happly
  have hstays := fun (id : Hash) (d : TokenDefinition) (hd : s.tokenDefinitions[id]? = some d) =>
    tokenIdentity_applied h.named happly hd
  have hold := fun (i : Hash) (o' : TokenOperation) (hi : s.tokenOperationRecords[i]? = some o') =>
    h.record_applied happly hi
  obtain ⟨hvalid, hid, hnew, charged, next, hcharge, heffect, rfl⟩ := applyTokenOperation_true happly
  have hcharged : charged.tokenDefinitions = s.tokenDefinitions ∧
      charged.tokenOperationRecords = s.tokenOperationRecords ∧
      charged.processedTokenOperations = s.processedTokenOperations := by
    obtain ⟨_, _, _, -, -, -, rfl⟩ := chargeTokenFee_eq_ok hcharge
    exact ⟨rfl, rfl, rfl⟩
  obtain ⟨hdefs, hrecords, hprocessed⟩ := hcharged
  have hnext : next.tokenOperationRecords = s.tokenOperationRecords ∧
      next.processedTokenOperations = s.processedTokenOperations := by
    obtain ⟨_, _, _, rfl⟩ := (tokenEffect_eq_ok heffect).writes
    exact ⟨hrecords, hprocessed⟩
  have hget : ∀ i, (next.recordTokenOperation opId o).tokenOperationRecords[i]? =
      if i = opId then some o else s.tokenOperationRecords[i]? := fun i => by
    rw [recordTokenOperation_tokenOperationRecords, BTreeMap.getElem?_insert_ite, hnext.1]
  have hcreates : o.unsigned.kind = .create →
      s.tokenDefinitions[E.crypto.tokenIdFromOperation opId]? = none ∧
        next.tokenDefinitions[E.crypto.tokenIdFromOperation opId]? =
          some (newTokenDefinition o.unsigned (E.crypto.tokenIdFromOperation opId)) := fun hk => by
    rw [← hdefs]
    exact tokenCreate_defines hk heffect
  -- Of two creations on record of one token, the new one would have found it defined.
  have hclash : ∀ i o', o.unsigned.kind = .create → s.tokenOperationRecords[i]? = some o' →
      o'.unsigned.kind = .create →
        E.crypto.tokenIdFromOperation opId ≠ E.crypto.tokenIdFromOperation i :=
    fun i o' hk hi hk' he => by
      have hsome := h.defined i o' hi hk'
      rw [← he, (hcreates hk).1] at hsome
      cases hsome
  refine ⟨hnamed, fun i o' hi => ?_, fun id d hd => ?_, fun i o' hi hk => ?_,
    fun i i' o₁ o₂ hi hi' hk hk' he => ?_⟩
  · show i ∈ next.processedTokenOperations.insert opId
    rw [hnext.2, BTreeSet.mem_insert_iff]
    rw [hget] at hi
    split at hi
    · exact Or.inl ‹_›
    · exact Or.inr (h.recorded i o' hi)
  · cases hbefore : s.tokenDefinitions[id]? with
    | some d₀ =>
      obtain ⟨d', hd', hidentity⟩ := hstays id d₀ hbefore
      rw [hd] at hd'
      cases hd'
      obtain ⟨opId', o', hcreated⟩ := h.created id d₀ hbefore
      exact ⟨opId', o', hcreated.of_same (hold opId' o' hcreated.record) hidentity⟩
    | none =>
      obtain ⟨hk, htoken, hdef⟩ := (tokenEffect_eq_ok heffect).defined
        (h.named.of_same hdefs) (hdefs ▸ hbefore) hd
      subst hdef
      refine ⟨opId, o, ?_, hk, hid.symm, htoken, ⟨rfl, hvalid.derives, hvalid.signed⟩, rfl⟩
      rw [hget, if_pos rfl]
  · rw [hget] at hi
    split at hi
    · subst ‹i = opId›
      cases hi
      exact Option.isSome_iff_exists.mpr ⟨_, (hcreates hk).2⟩
    · obtain ⟨d, hd⟩ := Option.isSome_iff_exists.mp (h.defined i o' hi hk)
      obtain ⟨d', hd', -⟩ := hstays _ d hd
      exact Option.isSome_iff_exists.mpr ⟨d', hd'⟩
  · rw [hget] at hi hi'
    split at hi
    · subst ‹i = opId›
      cases hi
      split at hi'
      · exact ‹i' = i›.symm
      · exact absurd he (hclash i' o₂ hk hi' hk')
    · split at hi'
      · subst ‹i' = opId›
        cases hi'
        exact absurd he.symm (hclash i o₁ hk' hi hk)
      · exact h.unique i i' o₁ o₂ hi hi' hk hk' he

/-- **The step lemma.** -/
theorem originates_next (h : Originates E s) (op : Operation) : Originates E (s.next E op) := by
  refine next_cases (R := Originates E) h (fun t happly => ?_) fun t hr => ?_
  · by_cases hop : ∃ o id, op = .token o id
    · obtain ⟨o, id, rfl⟩ := hop
      exact h.token happly
    · have hwrites := Writes.of_apply happly
      cases hwrites with
      | token o id => exact absurd ⟨o, id, rfl⟩ hop
      | _ => exact h.of_same rfl rfl rfl
  · cases hr <;> exact h.of_same rfl rfl rfl

theorem originates_fromGenesis {genesis : GenesisConfig} (hg : fromGenesis genesis = .ok s) :
    Originates E s := by
  have hnamed := (fromGenesis_supplyBalanced hg).ids
  have hrecord (opId : Hash) : s.tokenOperationRecords[opId]? = none := by
    obtain ⟨accounts, rfl⟩ := fromGenesis_eq_ok hg
    exact ExtTreeMap.getElem?_empty
  have hdef (id : Hash) : s.tokenDefinitions[id]? = none := by
    obtain ⟨accounts, rfl⟩ := fromGenesis_eq_ok hg
    exact ExtTreeMap.getElem?_empty
  refine ⟨hnamed, fun opId o ho => ?_, fun id d hd => ?_, fun opId o ho => ?_,
    fun opId _ o _ ho => ?_⟩
  · rw [hrecord] at ho
    cases ho
  · rw [hdef] at hd
    cases hd
  · rw [hrecord] at ho
    cases ho
  · rw [hrecord] at ho
    cases ho

/-- **In every reachable state** each token has its one operation. -/
theorem originates_runs (h : Originates E s) (ops : List Operation) :
    Originates E (runs (next E) s ops) := by
  induction ops generalizing s with
  | nil => exact h
  | cons op ops ih => exact ih (originates_next h op)

theorem Originates.record_runs (h : Originates E s) (ops : List Operation)
    (hrecord : s.tokenOperationRecords[opId]? = some o) :
    (runs (next E) s ops).tokenOperationRecords[opId]? = some o := by
  induction ops generalizing s with
  | nil => exact hrecord
  | cons op ops ih =>
    refine ih (originates_next h op) ?_
    exact next_cases (R := fun t => t.tokenOperationRecords[opId]? = some o) hrecord
      (fun _ happly => h.record_applied happly hrecord) fun t hr => by cases hr <;> exact hrecord

end State

end WorldstreetChain
