import WorldstreetChain.Rpc.Bridge
import WorldstreetChain.State.Failure

/-!
# Bridge mints and burns on record

`apply_asset_operation` keeps the record of an operation before it checks whether the reserve ledger
and the balance can take it, so an operation that fails there is on record and reported to the
relayer. Where every operation that is checked and new finds room, records and balances agree.

* `State.AssetRoom`, `State.applyAssetOperation_allOrNothing_iff` -- **a failed bridge operation
  leaves the state as it was** exactly if it is not one that is checked, new and without room.
* `State.bridge_reconciled` -- **in every run** whose bridge operations settle the records are the
  operations that were applied, a balance is the recorded mints less the recorded burns, and a
  reported burn has debited its holder.
-/

namespace WorldstreetChain

open Std

namespace State

variable {E : Env} {s t : State} {o : AssetOperation} {a : Address} {key : String}

/-! ## 1. A bridge operation that fails -/

/-- The ledger total of supported USDC and the balance can take a mint; for a burn the total can,
    and the balance covers it. -/
def AssetRoom (s : State) (o : AssetOperation) : Prop :=
  let held := (s.assetBalanceOf o.address o.assetId.canonicalKey).toNat
  match o.kind with
  | .mint =>
    (isSupportedUsdc o.assetId = true →
      s.mnaReserveLedger.totalVerifiedDepositsUsdc.toNat + o.amount.toNat < 2 ^ 128) ∧
      held + o.amount.toNat < 2 ^ 128
  | .burn =>
    (isSupportedUsdc o.assetId = true →
      s.mnaReserveLedger.totalReleasedUsdc.toNat + o.amount.toNat < 2 ^ 128) ∧
      o.amount.toNat ≤ held

/-- An operation that is checked and new has room. -/
def AssetSettles (s : State) (o : AssetOperation) : Prop :=
  checkAssetOperation o = .ok () → o.operationId ∉ s.processedAssetOperations → s.AssetRoom o

theorem exists_assetBalance {current : Amount} :
    (∃ balance, assetBalance current o = .ok balance) ↔
      match o.kind with
      | .mint => current.toNat + o.amount.toNat < 2 ^ 128
      | .burn => o.amount.toNat ≤ current.toNat := by
  unfold assetBalance
  cases o.kind with
  | mint =>
    simp only [orFail_eq_ok]
    exact Unsigned.exists_checkedAdd
  | burn =>
    simp only [orFail_eq_ok]
    exact Unsigned.exists_checkedSub

theorem exists_assetLedger {l : MnaReserveLedger} :
    (∃ ledger, assetLedger l o = .ok ledger) ↔ (isSupportedUsdc o.assetId = true →
      match o.kind with
      | .mint => l.totalVerifiedDepositsUsdc.toNat + o.amount.toNat < 2 ^ 128
      | .burn => l.totalReleasedUsdc.toNat + o.amount.toNat < 2 ^ 128) := by
  unfold assetLedger
  split
  · rename_i hu
    cases o.kind with
    | mint =>
      simp only [orFail_bind_eq_ok, ← Unsigned.exists_checkedAdd]
      exact ⟨fun ⟨_, d, hd, _⟩ _ => ⟨d, hd⟩, fun h => let ⟨d, hd⟩ := h hu; ⟨_, d, hd, rfl⟩⟩
    | burn =>
      simp only [orFail_bind_eq_ok, ← Unsigned.exists_checkedAdd]
      exact ⟨fun ⟨_, d, hd, _⟩ _ => ⟨d, hd⟩, fun h => let ⟨d, hd⟩ := h hu; ⟨_, d, hd, rfl⟩⟩
  · rename_i hu
    exact iff_of_true ⟨l, rfl⟩ fun h => absurd h hu

/-- Room is where ledger and balance take the operation. -/
theorem assetRoom_iff : s.AssetRoom o ↔
    (∃ ledger, assetLedger s.mnaReserveLedger o = .ok ledger) ∧
      ∃ balance, assetBalance (s.assetBalanceOf o.address o.assetId.canonicalKey) o = .ok balance := by
  rw [exists_assetLedger, exists_assetBalance, AssetRoom]
  cases o.kind <;> exact Iff.rfl

/-- A checked and new operation without room fails, and its id is processed. -/
theorem applyAssetOperation_noRoom (hc : checkAssetOperation o = .ok ())
    (hn : o.operationId ∉ s.processedAssetOperations) (hroom : ¬ s.AssetRoom o) :
    ∃ e s', s.applyAssetOperation o = ⟨.error e, s'⟩ ∧
      o.operationId ∈ s'.processedAssetOperations := by
  have hmem : o.operationId ∈ (s.recordAssetOperation o).processedAssetOperations := by
    rw [recordAssetOperation_processedAssetOperations]
    exact ExtTreeSet.mem_insert_self
  cases hl : assetLedger s.mnaReserveLedger o with
  | error e =>
    have hl' : assetLedger (s.recordAssetOperation o).mnaReserveLedger o = .error e := hl
    refine ⟨e, _, ?_, hmem⟩
    unfold applyAssetOperation
    rw [hc, Applied.attempt_ok, if_neg hn]
    simp only [hl']
    rfl
  | ok ledger =>
    have hl' : assetLedger (s.recordAssetOperation o).mnaReserveLedger o = .ok ledger := hl
    cases hb : assetBalance (s.assetBalanceOf o.address o.assetId.canonicalKey) o with
    | ok balance => exact absurd (assetRoom_iff.mpr ⟨⟨ledger, hl⟩, balance, hb⟩) hroom
    | error e =>
      refine ⟨e, ((s.recordAssetOperation o).setLedger ledger).insertAssets o.address
        (s.assetsOf o.address), ?_, hmem⟩
      unfold applyAssetOperation
      rw [hc, Applied.attempt_ok, if_neg hn]
      simp only [hl', Applied.attempt_ok, assetBalanceOf_insertAssets_self]
      have hb' : assetBalance (((s.recordAssetOperation o).setLedger ledger).assetBalanceOf
        o.address o.assetId.canonicalKey) o = .error e := hb
      rw [hb']
      rfl

/-- **A failed bridge operation leaves the state as it was**, exactly if it is not one that is
    checked, new and without room. -/
theorem applyAssetOperation_allOrNothing_iff :
    (s.applyAssetOperation o).AllOrNothing s ↔ s.AssetSettles o := by
  constructor
  · intro h hc hn
    by_contra hroom
    obtain ⟨e, s', he, hmem⟩ := applyAssetOperation_noRoom hc hn hroom
    rw [h e s' he] at hmem
    exact hn hmem
  · intro h e s' he
    rcases applyAssetOperation_error he with hs | ⟨hc, hn, -⟩
    · exact hs
    · obtain ⟨⟨ledger, hl⟩, balance, hb⟩ := assetRoom_iff.mp (h hc hn)
      rw [applyAssetOperation_new hc hn hl hb] at he
      cases he

/-! ## 2. Records and balances -/

/-- A bridge operation settles. -/
def BridgeSettles (s : State) : LedgerCall → Prop
  | .operation (.asset o) => s.AssetSettles o
  | _ => True

/-- The bridge operation that a call applies: the one that answers `Ok(true)`. -/
def appliedAsset (s : State) : LedgerCall → Option AssetOperation
  | .operation (.asset o) => if (s.applyAssetOperation o).result = .ok true then some o else none
  | _ => none

/-- What the operations of a kind on record have moved for an address under a key. -/
def recordedFor (kind : AssetOperationKind) (a : Address) (key : String) (s : State) : Nat :=
  BTreeMap.total (fun (_ : Hash) (o : AssetOperation) =>
    if o.kind = kind ∧ o.address = a ∧ o.assetId.canonicalKey = key then o.amount.toNat else 0)
    s.assetOperationRecords

/-- The call is no swap of the address under the key, and no token operation if the key is one of a
    native token. -/
def LeavesKey (a : Address) (key : String) : LedgerCall → Prop
  | .operation (.mnaSwap o) =>
    ¬ (o.unsigned.fromAddress = a ∧ o.unsigned.collateralAsset.canonicalKey = key)
  | .operation (.token _ _) => ¬ IsTokenKey key
  | _ => True

theorem appliedAsset_eq_some {call : LedgerCall} (h : appliedAsset s call = some o) :
    call = .operation (.asset o) ∧ ∃ t, s.applyAssetOperation o = ⟨.ok true, t⟩ := by
  cases call with
  | creditDevnet address amount => cases h
  | operation op =>
    cases op with
    | asset o' =>
      by_cases hr : (s.applyAssetOperation o').result = .ok true
      · rw [appliedAsset, if_pos hr] at h
        obtain rfl := Option.some.inj h
        exact ⟨rfl, _, Applied.eq_of_result hr⟩
      · rw [appliedAsset, if_neg hr] at h
        cases h
    | _ => cases h

theorem appliedAsset_eq_none {call : LedgerCall} (h : ∀ o, call ≠ .operation (.asset o)) :
    appliedAsset s call = none := by
  cases ha : appliedAsset s call with
  | none => rfl
  | some o => exact absurd (appliedAsset_eq_some ha).1 (h o)

theorem bridge_of_ne {call : LedgerCall} (h : ∀ o, call ≠ .operation (.asset o)) :
    (afterCall E s call).assetOperationRecords = s.assetOperationRecords ∧
      (afterCall E s call).processedAssetOperations = s.processedAssetOperations := by
  cases call with
  | creditDevnet address amount => exact Rpc.creditDevnet_records s address amount
  | operation op =>
    have hop : ∀ o, op ≠ .asset o := fun o ho => h o (congrArg LedgerCall.operation ho)
    exact Writes.bridge next_writes hop

/-- **What a call that settles does to the bridge**: it applies an operation, or leaves records and
    marks alone, and everything else too if it is a bridge operation. -/
theorem bridge_afterCall {call : LedgerCall} (h : BridgeSettles s call) :
    (∃ o t, appliedAsset s call = some o ∧ s.applyAssetOperation o = ⟨.ok true, t⟩ ∧
      afterCall E s call = t) ∨
    (appliedAsset s call = none ∧
      (afterCall E s call).assetOperationRecords = s.assetOperationRecords ∧
      (afterCall E s call).processedAssetOperations = s.processedAssetOperations ∧
      (afterCall E s call = s ∨ ∀ o, call ≠ .operation (.asset o))) := by
  by_cases hcall : ∃ o, call = .operation (.asset o)
  · obtain ⟨o, rfl⟩ := hcall
    by_cases hr : (s.applyAssetOperation o).result = .ok true
    · exact Or.inl ⟨o, _, if_pos hr, Applied.eq_of_result hr, rfl⟩
    · have hs : afterCall E s (.operation (.asset o)) = s := by
        refine next_of_allOrNothing (R := fun t => t = s)
          (applyAssetOperation_allOrNothing_iff.mpr h) rfl fun t ht => ?_
        exact absurd (congrArg Applied.result ht) hr
      rw [hs]
      exact Or.inr ⟨if_neg hr, rfl, rfl, Or.inl rfl⟩
  · have hne : ∀ o, call ≠ .operation (.asset o) := fun o ho => hcall ⟨o, ho⟩
    exact Or.inr ⟨appliedAsset_eq_none hne, (bridge_of_ne hne).1, (bridge_of_ne hne).2, Or.inr hne⟩

/-- The records of an applied operation, which was new. -/
theorem applied_records (h : Rpc.Recorded s) (ha : s.applyAssetOperation o = ⟨.ok true, t⟩) :
    s.assetOperationRecords[o.operationId]? = none ∧
      t.assetOperationRecords = s.assetOperationRecords.insert o.operationId o ∧
      t.processedAssetOperations = s.processedAssetOperations.insert o.operationId := by
  obtain ⟨-, hn, _, _, -, -, rfl⟩ := applyAssetOperation_true ha
  refine ⟨?_, rfl, rfl⟩
  by_contra hsome
  exact hn (h.processed _ (ExtTreeMap.mem_iff_isSome_getElem?.mpr
    (Option.isSome_iff_ne_none.mpr hsome)))

theorem recorded_afterCall {call : LedgerCall} (hs : BridgeSettles s call) (h : Rpc.Recorded s) :
    Rpc.Recorded (afterCall E s call) := by
  rcases bridge_afterCall (E := E) hs with ⟨o, t, -, ha, rfl⟩ | ⟨-, hrec, hproc, -⟩
  · obtain ⟨-, hn, -⟩ := applyAssetOperation_true ha
    obtain ⟨-, hrec, hproc⟩ := applied_records h ha
    exact (h.insert hn hrec hproc).1
  · exact ⟨fun id o hid => h.named id o (hrec ▸ hid),
      fun id hid => hproc ▸ h.processed id (hrec ▸ hid)⟩

/-- **On record is what was on record and what the run has applied.** -/
theorem records_applied {calls : List LedgerCall} (h : Rpc.Recorded s)
    (hs : EachStep (afterCall E) BridgeSettles s calls) (id : Hash) :
    (runs (afterCall E) s calls).assetOperationRecords[id]? = some o ↔
      s.assetOperationRecords[id]? = some o ∨
        (o ∈ emitted (afterCall E) appliedAsset s calls ∧ o.operationId = id) := by
  induction calls generalizing s with
  | nil => simp [emitted]
  | cons call calls ih =>
    have hnext := ih (recorded_afterCall hs.1 h) hs.2
    rw [runs_cons, hnext, emitted]
    rcases bridge_afterCall (E := E) hs.1 with ⟨o', t, hap, ha, rfl⟩ | ⟨hap, hrec, -, -⟩
    · obtain ⟨hnew, hrec, -⟩ := applied_records h ha
      rw [hap, hrec, ExtTreeMap.getElem?_insert, List.mem_append, Option.mem_toList,
        or_and_right, ← or_assoc]
      refine or_congr_left ?_
      by_cases hid : o'.operationId = id
      · subst hid
        rw [if_pos compare_self, hnew]
        exact ⟨fun ho => Or.inr ⟨ho, Option.some_inj.mp ho ▸ rfl⟩,
          fun ho => ho.elim (fun hn => by cases hn) fun ho => ho.1⟩
      · rw [if_neg fun hc => hid (LawfulEqOrd.eq_of_compare hc)]
        refine ⟨Or.inl, fun ho => ho.elim (fun ho => ho) fun ho => ?_⟩
        exact absurd (Option.some_inj.mp ho.1 ▸ ho.2) hid
    · rw [hap, hrec]
      rfl

/-- Nothing is applied twice. -/
theorem applied_nodup {calls : List LedgerCall}
    (hs : EachStep (afterCall E) BridgeSettles s calls) :
    (emitted (afterCall E) appliedAsset s calls).Nodup := by
  refine (hs.emitted_nodup (fun s o => o.operationId ∈ s.processedAssetOperations)
    (fun s call o hcall ha => ?_) fun s call o hcall hm => ?_).1
  · obtain ⟨rfl, t, happly⟩ := appliedAsset_eq_some ha
    have hafter : afterCall E s (.operation (.asset o)) = t := congrArg Applied.state happly
    obtain ⟨-, hn, _, _, -, -, rfl⟩ := applyAssetOperation_true happly
    rw [hafter]
    exact ⟨hn, ExtTreeSet.mem_insert_self⟩
  · rcases bridge_afterCall (E := E) hcall with ⟨o', t, -, ha, rfl⟩ | ⟨-, -, hproc, -⟩
    · obtain ⟨-, -, _, _, -, -, hafter⟩ := applyAssetOperation_true ha
      rw [hafter]
      exact ExtTreeSet.mem_insert.mpr (Or.inr hm)
    · rw [hproc]
      exact hm

/-! ## 3. Balances -/

/-- The balance is the recorded mints less the recorded burns. -/
def Reconciles (a : Address) (key : String) (s : State) : Prop :=
  (s.assetBalanceOf a key).toNat + s.recordedFor .burn a key = s.recordedFor .mint a key

theorem Reconciles.of_same (h : Reconciles a key s)
    (hrec : t.assetOperationRecords = s.assetOperationRecords)
    (hbal : t.assetBalanceOf a key = s.assetBalanceOf a key) : Reconciles a key t := by
  unfold Reconciles recordedFor
  rw [hrec, hbal]
  exact h

theorem recordedFor_insert (kind : AssetOperationKind)
    (hnew : s.assetOperationRecords[o.operationId]? = none)
    (hrec : t.assetOperationRecords = s.assetOperationRecords.insert o.operationId o) :
    t.recordedFor kind a key = s.recordedFor kind a key +
      if o.kind = kind ∧ o.address = a ∧ o.assetId.canonicalKey = key then o.amount.toNat
      else 0 := by
  have h := BTreeMap.total_insert (fun (_ : Hash) (o : AssetOperation) =>
    if o.kind = kind ∧ o.address = a ∧ o.assetId.canonicalKey = key then o.amount.toNat else 0)
    s.assetOperationRecords o.operationId o
  rw [hnew, Option.elim_none, Nat.add_zero] at h
  unfold recordedFor
  rw [hrec]
  exact h

/-- An applied bridge operation moves balance and records together. -/
theorem reconciles_applied (hr : Rpc.Recorded s) (h : Reconciles a key s)
    (ha : s.applyAssetOperation o = ⟨.ok true, t⟩) : Reconciles a key t := by
  obtain ⟨hnew, hrec, -⟩ := applied_records hr ha
  obtain ⟨-, -, ledger, balance, -, hb, rfl⟩ := applyAssetOperation_true ha
  have hset := assetBalanceOf_setAssetBalance ((s.recordAssetOperation o).setLedger ledger)
    o.address a o.assetId.canonicalKey key balance
  unfold Reconciles at h ⊢
  rw [hset, recordedFor_insert .mint hnew hrec, recordedFor_insert .burn hnew hrec]
  by_cases hcase : o.address = a ∧ o.assetId.canonicalKey = key
  · obtain ⟨rfl, rfl⟩ := hcase
    rcases assetBalance_eq_ok hb with ⟨hk, hv⟩ | ⟨hk, hv⟩
    · simp only [hk, and_self, if_true, reduceCtorEq, false_and, if_false]
      omega
    · simp only [hk, and_self, if_true, reduceCtorEq, false_and, if_false]
      omega
  · rw [if_neg hcase, if_neg fun hc => hcase hc.2, if_neg fun hc => hcase hc.2]
    exact h

/-- A call that is no bridge operation and leaves the key leaves the balance under it. -/
theorem assetBalanceOf_afterCall {call : LedgerCall} (hleaves : LeavesKey a key call)
    (hne : ∀ o, call ≠ .operation (.asset o)) :
    (afterCall E s call).assetBalanceOf a key = s.assetBalanceOf a key := by
  cases call with
  | creditDevnet address amount =>
    obtain ⟨accounts, hs⟩ := s.creditDevnet_writes address amount
    rw [afterCall, hs]
    rfl
  | operation op =>
    refine next_cases (R := fun t => t.assetBalanceOf a key = s.assetBalanceOf a key) rfl
      (fun t h => ?_) fun t h => ?_
    · cases op with
      | asset o => exact absurd rfl (hne o)
      | mnaSwap o =>
        obtain ⟨-, -, next, he, rfl⟩ := applyMnaSwap_true h
        obtain ⟨_, usdc, _, _, _, -, -, rfl, -⟩ := swapEffect_eq_ok he
        have hset := assetBalanceOf_setAssetBalance s o.unsigned.fromAddress a
          o.unsigned.collateralAsset.canonicalKey key usdc
        rwa [if_neg hleaves] at hset
      | token o id =>
        obtain ⟨-, -, -, charged, next, hc, ht, rfl⟩ := applyTokenOperation_true h
        obtain ⟨_, _, _, -, -, -, rfl⟩ := chargeTokenFee_eq_ok hc
        exact (tokenEffect_eq_ok ht).assetBalanceOf a hleaves
      | transaction tx =>
        cases Writes.of_apply h
        rfl
      | mnaReserve o =>
        cases Writes.of_apply h
        rfl
      | program o height =>
        cases Writes.of_apply h
        rfl
    · cases h with
      | assetRecorded o => exact absurd rfl (hne o)
      | assetMoved o => exact absurd rfl (hne o)
      | _ => rfl

/-- **One call that settles** keeps a balance that it otherwise leaves alone reconciled. -/
theorem reconciles_afterCall {call : LedgerCall} (hs : BridgeSettles s call)
    (hleaves : LeavesKey a key call) (hr : Rpc.Recorded s) (h : Reconciles a key s) :
    Reconciles a key (afterCall E s call) := by
  rcases bridge_afterCall (E := E) hs with ⟨o, t, -, ha, rfl⟩ | ⟨-, hrec, -, hsame | hne⟩
  · exact reconciles_applied hr h ha
  · rw [hsame]
    exact h
  · exact h.of_same hrec (assetBalanceOf_afterCall hleaves hne)

/-! ## 4. Runs -/

theorem recorded_fromGenesis_assets {genesis : GenesisConfig} (h : fromGenesis genesis = .ok s) :
    Rpc.Recorded s ∧ s.assetOperationRecords = ∅ := by
  obtain ⟨accounts, rfl⟩ := fromGenesis_eq_ok h
  exact ⟨.empty rfl, rfl⟩

/-- The operation has debited its holder when the run applied it. -/
def Debited (E : Env) (s : State) (calls : List LedgerCall) (o : AssetOperation) : Prop :=
  ∃ pre post, calls = pre ++ .operation (.asset o) :: post ∧
    ((runs (afterCall E) s pre).assetBalanceOf o.address o.assetId.canonicalKey).toNat =
      o.amount.toNat + ((runs (afterCall E) s
        (pre ++ [.operation (.asset o)])).assetBalanceOf o.address o.assetId.canonicalKey).toNat

/-- What records, balances and the relayer's list say of the bridge operations of a run. -/
structure BridgeReconciled (E : Env) (s : State) (calls : List LedgerCall) : Prop where
  /-- On record is what answered `Ok(true)`, under its id. -/
  records : ∀ id o, (runs (afterCall E) s calls).assetOperationRecords[id]? = some o ↔
    o ∈ emitted (afterCall E) appliedAsset s calls ∧ o.operationId = id
  once : (emitted (afterCall E) appliedAsset s calls).Nodup
  balances : ∀ a key, (∀ call ∈ calls, LeavesKey a key call) →
    Reconciles a key (runs (afterCall E) s calls)
  burns : ∀ o ∈ Rpc.recentOperations (runs (afterCall E) s calls), o.kind = .burn →
    Debited E s calls o

/-- What the run applies as a burn debits its holder. -/
theorem debited_of_emitted {calls : List LedgerCall}
    (ho : o ∈ emitted (afterCall E) appliedAsset s calls) (hk : o.kind = .burn) :
    Debited E s calls o := by
  obtain ⟨pre, call, post, rfl, ha⟩ := mem_emitted.mp ho
  obtain ⟨rfl, t, happly⟩ := appliedAsset_eq_some ha
  refine ⟨pre, post, rfl, ?_⟩
  have hafter : runs (afterCall E) s (pre ++ [.operation (.asset o)]) = t := by
    rw [runs_append]
    exact congrArg Applied.state happly
  obtain ⟨-, -, ledger, balance, -, hb, rfl⟩ := applyAssetOperation_true happly
  rw [hafter, assetBalanceOf_setAssetBalance, if_pos ⟨rfl, rfl⟩]
  rcases assetBalance_eq_ok hb with ⟨hm, -⟩ | ⟨-, hv⟩
  · rw [hk] at hm
    cases hm
  · exact hv

/-- **A failed bridge operation** leaves the state as it was, exactly if it is not one that is
    checked, new and without room. **In every run from a genesis** without such operations records,
    balances and the relayer's list agree on what was applied. -/
theorem bridge_reconciled {genesis : GenesisConfig} {s₀ : State}
    (hg : fromGenesis genesis = .ok s₀) (calls : List LedgerCall) :
    (∀ s o, (applyAssetOperation s o).AllOrNothing s ↔ s.AssetSettles o) ∧
      (EachStep (afterCall E) BridgeSettles s₀ calls → BridgeReconciled E s₀ calls) := by
  refine ⟨fun _ _ => applyAssetOperation_allOrNothing_iff, fun hs => ?_⟩
  obtain ⟨hr, hempty⟩ := recorded_fromGenesis_assets hg
  have hrecords : ∀ id o, (runs (afterCall E) s₀ calls).assetOperationRecords[id]? = some o ↔
      o ∈ emitted (afterCall E) appliedAsset s₀ calls ∧ o.operationId = id := by
    intro id o
    rw [records_applied hr hs id, hempty, ExtTreeMap.getElem?_empty]
    exact or_iff_right nofun
  have hfinal : Rpc.Recorded (runs (afterCall E) s₀ calls) :=
    hs.invariant (fun _ _ hcall h => recorded_afterCall hcall h) hr
  refine ⟨hrecords, applied_nodup hs, fun a key hleaves => ?_, fun o ho hk => ?_⟩
  · have h0 : Reconciles a key s₀ := by
      obtain ⟨accounts, rfl⟩ := fromGenesis_eq_ok hg
      simp only [Reconciles, recordedFor, ofAccounts, BTreeMap.total_empty]
      rfl
    have hkeys : EachStep (afterCall E) (fun _ call => LeavesKey a key call) s₀ calls :=
      EachStep.of_forall hleaves
    have hinv := (hs.and hkeys).invariant (P := fun s => Rpc.Recorded s ∧ Reconciles a key s)
      (fun _ _ hc h => ⟨recorded_afterCall hc.1 h.1, reconciles_afterCall hc.1 hc.2 h.1 h.2⟩)
      ⟨hr, h0⟩
    exact hinv.2
  · have hrec := Rpc.recent_recorded hfinal ho
    exact debited_of_emitted ((hrecords _ o).mp hrec).1 hk

end State

namespace Sample

/-- A burn of what nobody holds. -/
def emptyBurn : AssetOperation := bridge .burn 1 usdc 50

/-- A mint, and a burn of part of it. -/
def mintAndBurn : List State.LedgerCall :=
  [.operation (.asset (bridge .mint 1 usdc 200)), .operation (.asset (bridge .burn 2 usdc 50))]

end Sample

namespace State

/-- A mint and a burn of part of it agree with their records. -/
theorem bridge_reconciled_burn :
    BridgeReconciled .standIn (Sample.genesisState 1) Sample.mintAndBurn := by
  refine (bridge_reconciled (E := .standIn) (Sample.fromGenesis_genesis 1)
    Sample.mintAndBurn).2 ⟨fun _ _ => ?_, fun _ _ => ?_, trivial⟩
  · exact assetRoom_iff.mpr ⟨Outcome.isOk_iff.mp (by decide +kernel),
      Outcome.isOk_iff.mp (by decide +kernel)⟩
  · exact assetRoom_iff.mpr ⟨Outcome.isOk_iff.mp (by decide +kernel),
      Outcome.isOk_iff.mp (by decide +kernel)⟩

/-- The burn fails and is reported all the same. -/
theorem failed_burn_reported :
    fromGenesis (Sample.genesis 1) = .ok (Sample.genesisState 1) ∧
      ¬ (applyAssetOperation (Sample.genesisState 1) Sample.emptyBurn).AllOrNothing
        (Sample.genesisState 1) ∧
      (applyAssetOperation (Sample.genesisState 1) Sample.emptyBurn).result =
        .error (.err .insufficientAssetBalance) ∧
      Sample.emptyBurn ∈
        Rpc.recentOperations (next .standIn (Sample.genesisState 1) (.asset Sample.emptyBurn)) := by
  have hrun : (applyAssetOperation (Sample.genesisState 1) Sample.emptyBurn).result =
        .error (.err .insufficientAssetBalance) ∧
      Sample.emptyBurn ∉ Rpc.recentOperations (Sample.genesisState 1) ∧
      Sample.emptyBurn ∈ Rpc.recentOperations
        (next .standIn (Sample.genesisState 1) (.asset Sample.emptyBurn)) := by decide +kernel
  obtain ⟨hfails, hbefore, hafter⟩ := hrun
  refine ⟨Sample.fromGenesis_genesis 1, fun h => hbefore ?_, hfails, hafter⟩
  have hsame := h _ _ (Applied.eq_of_result hfails)
  rw [← hsame]
  exact hafter

end State

end WorldstreetChain
