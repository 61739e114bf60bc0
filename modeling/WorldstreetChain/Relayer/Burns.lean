import WorldstreetChain.Rpc.Bridge
import WorldstreetChain.Relayer.Solana

/-!
# Burns on their way out (`discover_burns`)

The relayer asks the node for the recent bridge operations and notes every burn among them. The
node lists the operations on record with the greatest ids, whenever they were confirmed.

* `Relayer.discoverBurns` -- what a poll notes.
* `Node.confirmedOf` -- the asset operations the blocks of a run have confirmed.
* `Relayer.recent_operations_iff` -- **when the recent operations are listed and the burns among
  them are found**: as long as fewer than 1000 operations on record have a greater id.
-/

namespace WorldstreetChain

open Std

theorem Hash.toHex_injective : Function.Injective Hash.toHex := by
  intro h h' heq
  have hlist := congrArg String.toList heq
  rw [Hash.toList_toHex, Hash.toList_toHex] at hlist
  exact Hash.toList_injective (flatMap_hexByte_injective hlist)

/-! ## 1. Confirmed operations -/

namespace Node

variable (E : Env)

/-- The asset operations a call confirms, with the height of their block: what is in the block, was
    new to the chain and is on record now. -/
def confirmed (n : Node) (c : Call) : List (U64 × AssetOperation) :=
  (adopted E n c).flatMap fun b =>
    (b.assetOperations.filter fun o => o.operationId ∉ n.state.processedAssetOperations
      ∧ (n.next E c).state.assetOperationRecords[o.operationId]? = some o).map
        (b.header.height, ·)

/-- The asset operations the blocks of a run confirm, the oldest first. -/
def confirmedOf (n : Node) : List Call → List (U64 × AssetOperation)
  | [] => []
  | c :: rest => n.confirmed E c ++ confirmedOf (n.next E c) rest

variable {E} {n : Node} {c : Call} {e : U64 × AssetOperation}

theorem mem_confirmed (h : e ∈ n.confirmed E c) :
    e.2.operationId ∉ n.state.processedAssetOperations ∧
      (n.next E c).state.assetOperationRecords[e.2.operationId]? = some e.2 := by
  obtain ⟨b, -, he⟩ := List.mem_flatMap.mp h
  obtain ⟨o, ho, heq⟩ := List.mem_map.mp he
  cases heq
  simpa using (List.mem_filter.mp ho).2

/-- **A confirmed operation** was not on record before the run and is after it. -/
theorem mem_confirmedOf (h : Rpc.Recorded n.state) {calls : List Call}
    (he : e ∈ n.confirmedOf E calls) :
    n.state.assetOperationRecords[e.2.operationId]? = none ∧
      (runs (next E) n calls).state.assetOperationRecords[e.2.operationId]? = some e.2 := by
  induction calls generalizing n with
  | nil => cases he
  | cons c calls ih =>
    have h1 := h.call (E := E) c
    rcases List.mem_append.mp he with he | he
    · obtain ⟨hnew, hrec⟩ := mem_confirmed he
      exact ⟨ExtTreeMap.getElem?_eq_none fun hm => hnew (h.processed _ hm),
        (h1.1.run (E := E) calls).2 _ _ hrec⟩
    · obtain ⟨hnone, hrec⟩ := ih h1.1 he
      refine ⟨?_, hrec⟩
      cases hold : n.state.assetOperationRecords[e.2.operationId]? with
      | none => rfl
      | some o =>
        have hkept := h1.2 _ _ hold
        rw [hnone] at hkept
        cases hkept

theorem confirmedOf_append (calls calls' : List Call) : n.confirmedOf E (calls ++ calls') =
    n.confirmedOf E calls ++ (runs (next E) n calls).confirmedOf E calls' := by
  induction calls generalizing n with
  | nil => rfl
  | cons c calls ih =>
    show n.confirmed E c ++ confirmedOf E (n.next E c) (calls ++ calls') = _
    rw [ih, ← List.append_assoc]
    rfl

end Node

namespace Relayer

/-! ## 2. A poll -/

/-- `str.removeprefix`. -/
def removePrefix (lead text : List Char) : List Char :=
  if lead.isPrefixOf text then text.drop lead.length else text

/-- The row an operation becomes that the node has listed. -/
def burnRow (v : Rpc.AssetOperationView) : Option Row :=
  if v.kind ≠ "burn" then none
  else
    let operationId := lower (removePrefix "0x".toList v.operationId.toList)
    if operationId.length ≠ 64 then none
    else
      some
        { operationId := operationId
          direction := "outbound"
          status := "detected"
          assetId := v.assetId
          address := v.address
          destination := v.destination
          amount := v.amount
          externalTransaction := v.externalTransaction
          sourceBlock := 0 }

/-- What a row keeps for ever. -/
def Row.key (r : Row) : Row := { r with status := "" }

def discoverBurns (operations : List Rpc.AssetOperationView) (rows : List Row) : List Row :=
  operations.foldl (fun rows v => (burnRow v).elim rows (insertOrIgnore rows)) rows

theorem toHex_digits (h : Hash) : ∀ c ∈ h.toHex.toList, c.toLower = c ∧ c ≠ 'x' := by
  have hdigit : ∀ n < 16, (Nat.digitChar n).toLower = Nat.digitChar n ∧ Nat.digitChar n ≠ 'x' := by
    decide
  intro c hc
  rw [Hash.toList_toHex] at hc
  obtain ⟨b, -, hb⟩ := List.mem_flatMap.mp hc
  simp only [hexByte, List.mem_cons, List.not_mem_nil, or_false] at hb
  have hlt := b.toNat_lt
  rcases hb with rfl | rfl
  · exact hdigit _ (by omega)
  · exact hdigit _ (by omega)

theorem lower_hex (h : Hash) : lower h.toHex.toList = h.toHex := by
  rw [lower, List.map_congr_left fun c hc => (toHex_digits h c hc).1, List.map_id',
    String.ofList_toList]

/-- A hash as the node writes it is taken as it is. -/
theorem lower_toHex (h : Hash) : lower (removePrefix "0x".toList h.toHex.toList) = h.toHex := by
  have hlead : ¬ ("0x".toList).isPrefixOf h.toHex.toList = true := by
    intro hp
    obtain ⟨rest, hrest⟩ := List.isPrefixOf_iff_prefix.mp hp
    exact (toHex_digits h 'x' (by rw [← hrest]; simp)).2 rfl
  rw [removePrefix, if_neg hlead, lower_hex]

theorem length_toHex (h : Hash) : h.toHex.length = 64 := by
  rw [← String.length_toList, Hash.toList_toHex, length_flatMap_hexByte]
  simp

variable {addressText : Address → String} {o o' : AssetOperation} {row : Row} {rows : List Row}

/-- A burn becomes a row under its id. -/
theorem burnRow_burn (addressText : Address → String) (h : o.kind = .burn) :
    ∃ row, burnRow (Rpc.assetOperationView addressText o) = some row ∧
      row.operationId = o.operationId.toHex := by
  have hid := lower_toHex o.operationId
  unfold burnRow Rpc.assetOperationView
  simp only [h, hid, length_toHex]
  exact ⟨_, rfl, rfl⟩

theorem burnRow_detected {v : Rpc.AssetOperationView} (h : burnRow v = some row) :
    row.status = "detected" ∧ row.direction = "outbound" := by
  unfold burnRow at h
  split at h
  · cases h
  dsimp only at h
  split at h
  · cases h
  · cases h
    exact ⟨rfl, rfl⟩

theorem burnRow_some (h : burnRow (Rpc.assetOperationView addressText o) = some row) :
    o.kind = .burn ∧ row.operationId = o.operationId.toHex := by
  cases hk : o.kind with
  | mint =>
    unfold burnRow Rpc.assetOperationView at h
    simp [hk] at h
  | burn =>
    obtain ⟨row', h', hid⟩ := burnRow_burn addressText hk
    rw [h] at h'
    cases h'
    exact ⟨rfl, hid⟩

theorem mem_insertOrIgnore {r : Row} (h : r ∈ insertOrIgnore rows row) :
    r ∈ rows ∨ r = row ∧ row.operationId ∉ rows.map Row.operationId := by
  unfold insertOrIgnore at h
  split at h
  · exact Or.inl h
  · rename_i hnew
    refine (List.mem_append.mp h).imp id fun h => ?_
    exact ⟨List.mem_singleton.mp h, hnew⟩

theorem insertOrIgnore_id (rows : List Row) (row : Row) :
    row.operationId ∈ (insertOrIgnore rows row).map Row.operationId := by
  unfold insertOrIgnore
  split
  · assumption
  · simp

theorem subset_insertOrIgnore (rows : List Row) (row : Row) : rows ⊆ insertOrIgnore rows row := by
  unfold insertOrIgnore
  split
  · exact List.Subset.refl rows
  · exact List.subset_append_left rows [row]

section Poll

variable {operations : List Rpc.AssetOperationView}

theorem subset_discoverBurns : rows ⊆ discoverBurns operations rows := by
  unfold discoverBurns
  induction operations generalizing rows with
  | nil => exact List.Subset.refl rows
  | cons v operations ih =>
    rw [List.foldl_cons]
    refine List.Subset.trans ?_ ih
    cases burnRow v with
    | none => exact List.Subset.refl rows
    | some row => exact subset_insertOrIgnore rows row

/-- Every row of a poll was there before, or is that of a listed burn under a new id. -/
theorem mem_discoverBurns (h : row ∈ discoverBurns operations rows) :
    row ∈ rows ∨ row.operationId ∉ rows.map Row.operationId ∧
      ∃ v ∈ operations, burnRow v = some row := by
  unfold discoverBurns at h
  induction operations generalizing rows with
  | nil => exact Or.inl h
  | cons v operations ih =>
    rw [List.foldl_cons] at h
    rcases ih h with h | ⟨hnew, v', hv', hrow⟩
    · cases hv : burnRow v with
      | none =>
        rw [hv] at h
        exact Or.inl h
      | some r =>
        rw [hv] at h
        rcases mem_insertOrIgnore h with h | ⟨rfl, hnew⟩
        · exact Or.inl h
        · exact Or.inr ⟨hnew, v, List.mem_cons_self, hv⟩
    · refine Or.inr ⟨fun hold => hnew ?_, v', List.mem_cons_of_mem _ hv', hrow⟩
      cases burnRow v with
      | none => exact hold
      | some r => exact List.map_subset _ (subset_insertOrIgnore rows r) hold

/-- Every listed burn has a row under its id. -/
theorem discoverBurns_id {v : Rpc.AssetOperationView} (hv : v ∈ operations)
    (hrow : burnRow v = some row) :
    row.operationId ∈ (discoverBurns operations rows).map Row.operationId := by
  induction operations generalizing rows with
  | nil => cases hv
  | cons v' operations ih =>
    rcases List.mem_cons.mp hv with rfl | hv
    · have hstep : discoverBurns (v :: operations) rows =
          discoverBurns operations (insertOrIgnore rows row) := by
        unfold discoverBurns
        rw [List.foldl_cons, hrow]
        rfl
      rw [hstep]
      exact List.map_subset _ subset_discoverBurns (insertOrIgnore_id rows row)
    · exact ih hv

end Poll

/-! ## 3. Visits -/

/-- A row of a deposit. -/
structure DepositRow where
  row : Row
  inbound : row.direction = "inbound"

/-- What happens up to a poll of the chain and behind it: calls of the node, the deposits that the
    polls in front of it find, and the statuses that processing leaves the rows with. -/
structure Visit where
  calls : List Node.Call
  deposits : List DepositRow
  status : Row → String

/-- The node and the rows of the relayer that watches it. -/
structure Watch where
  node : Node
  rows : List Row

def noteDeposits (deposits : List DepositRow) (rows : List Row) : List Row :=
  deposits.foldl (fun rows d => insertOrIgnore rows d.row) rows

def callsOf (visits : List Visit) : List Node.Call := visits.flatMap Visit.calls

def depositsOf (visits : List Visit) : List Row :=
  visits.flatMap fun v => v.deposits.map DepositRow.row

section Visits

variable (E : Env) (addressText : Address → String)

/-- A visit: calls of the node, the other polls, the poll of the chain, and the processing. -/
def Watch.next (w : Watch) (v : Visit) : Watch :=
  let n := runs (Node.next E) w.node v.calls
  let found := discoverBurns (Rpc.bridgeOperationsRecent addressText n)
    (noteDeposits v.deposits w.rows)
  ⟨n, found.map fun r => { r with status := v.status r }⟩

variable {E addressText} {w : Watch} {v : Visit} {visits : List Visit} {k : Row}

theorem runs_node : (runs (Watch.next E addressText) w visits).node =
    runs (Node.next E) w.node (callsOf visits) := by
  induction visits generalizing w with
  | nil => rfl
  | cons v visits ih =>
    rw [runs_cons, ih]
    show _ = runs (Node.next E) w.node (v.calls ++ callsOf visits)
    rw [runs_append]
    rfl

theorem recorded_runs (h : Rpc.Recorded w.node.state) (visits : List Visit) :
    Rpc.Recorded (runs (Watch.next E addressText) w visits).node.state ∧
      Rpc.Keeps w.node.state (runs (Watch.next E addressText) w visits).node.state := by
  rw [runs_node]
  exact h.run (callsOf visits)

theorem subset_noteDeposits {deposits : List DepositRow} :
    rows ⊆ noteDeposits deposits rows := by
  unfold noteDeposits
  induction deposits generalizing rows with
  | nil => exact List.Subset.refl rows
  | cons d deposits ih => exact List.Subset.trans (subset_insertOrIgnore rows d.row) ih

theorem mem_noteDeposits {deposits : List DepositRow} (h : row ∈ noteDeposits deposits rows) :
    row ∈ rows ∨ row ∈ deposits.map DepositRow.row := by
  unfold noteDeposits at h
  induction deposits generalizing rows with
  | nil => exact Or.inl h
  | cons d deposits ih =>
    rcases ih h with h | h
    · rcases mem_insertOrIgnore h with h | ⟨rfl, -⟩
      · exact Or.inl h
      · exact Or.inr List.mem_cons_self
    · exact Or.inr (List.mem_cons_of_mem _ h)

theorem noteDeposits_id {deposits : List DepositRow} {d : DepositRow} (hd : d ∈ deposits) :
    d.row.operationId ∈ (noteDeposits deposits rows).map Row.operationId := by
  induction deposits generalizing rows with
  | nil => cases hd
  | cons d' deposits ih =>
    rcases List.mem_cons.mp hd with rfl | hd
    · have hsub : insertOrIgnore rows d.row ⊆ noteDeposits (d :: deposits) rows :=
        subset_noteDeposits
      exact List.map_subset _ hsub (insertOrIgnore_id rows d.row)
    · exact ih hd

/-- Processing leaves the rows as they are, up to their statuses. -/
theorem keys_next : (w.next E addressText v).rows.map Row.key =
    (discoverBurns (Rpc.bridgeOperationsRecent addressText (w.next E addressText v).node)
      (noteDeposits v.deposits w.rows)).map Row.key := by
  unfold Watch.next
  rw [List.map_map]
  rfl

theorem ids_of_keys (rows : List Row) :
    rows.map Row.operationId = (rows.map Row.key).map Row.operationId := by
  rw [List.map_map]
  rfl

theorem subset_runs : w.rows.map Row.key ⊆
    (runs (Watch.next E addressText) w visits).rows.map Row.key := by
  induction visits generalizing w with
  | nil => exact List.Subset.refl _
  | cons v visits ih =>
    refine List.Subset.trans ?_ (ih (w := w.next E _ v))
    rw [keys_next]
    exact List.map_subset _ (List.Subset.trans subset_noteDeposits subset_discoverBurns)

/-- The rows there were and the deposits that came hold their ids. -/
theorem next_id {r : Row} (h : r ∈ w.rows ++ v.deposits.map DepositRow.row) :
    r.operationId ∈ (w.next E addressText v).rows.map Row.operationId := by
  rw [ids_of_keys, keys_next, ← ids_of_keys]
  refine List.map_subset _ subset_discoverBurns ?_
  rcases List.mem_append.mp h with h | h
  · exact List.mem_map_of_mem (subset_noteDeposits h)
  · obtain ⟨d, hd, rfl⟩ := List.mem_map.mp h
    exact noteDeposits_id hd

/-- **Where a row comes from**: it was there, or a deposit has brought it, or some poll has listed
    its burn while no row was under its id. -/
theorem mem_rows (h : k ∈ (runs (Watch.next E addressText) w visits).rows.map Row.key) :
    k ∈ (w.rows ++ depositsOf visits).map Row.key ∨ ∃ now v, now ++ [v] <+: visits ∧
      (∀ r ∈ w.rows ++ depositsOf (now ++ [v]), r.operationId ≠ k.operationId) ∧
      ∃ o ∈ Rpc.recentOperations (runs (Watch.next E addressText) w (now ++ [v])).node.state,
        ∃ row, burnRow (Rpc.assetOperationView addressText o) = some row ∧ row.key = k := by
  induction visits generalizing w with
  | nil =>
    left
    rwa [show depositsOf [] = [] from rfl, List.append_nil]
  | cons v visits ih =>
    have hdeposits : depositsOf (v :: visits) = v.deposits.map DepositRow.row ++
        depositsOf visits := rfl
    rw [hdeposits]
    rcases ih h with h | ⟨now, last, hpre, hfree, o, ho, hrow⟩
    · rw [List.map_append, List.mem_append, keys_next] at h
      rcases h with h | h
      · obtain ⟨row, hmem, rfl⟩ := List.mem_map.mp h
        rcases mem_discoverBurns hmem with hmem | ⟨hnew, x, hx, hrow⟩
        · left
          refine List.mem_map_of_mem ?_
          rw [← List.append_assoc]
          exact List.mem_append_left _ (List.mem_append.mpr (mem_noteDeposits hmem))
        · right
          obtain ⟨o, ho, rfl⟩ := List.mem_map.mp hx
          refine ⟨[], v, List.cons_prefix_cons.mpr ⟨rfl, List.nil_prefix⟩, fun r hr heq => ?_, o, ho,
            row, hrow, rfl⟩
          rw [show depositsOf ([] ++ [v]) = v.deposits.map DepositRow.row from
            List.append_nil _] at hr
          refine hnew ?_
          rw [show row.operationId = row.key.operationId from rfl, ← heq]
          rcases List.mem_append.mp hr with hr | hr
          · exact List.mem_map_of_mem (subset_noteDeposits hr)
          · obtain ⟨d, hd, rfl⟩ := List.mem_map.mp hr
            exact noteDeposits_id hd
      · left
        rw [← List.append_assoc, List.map_append]
        exact List.mem_append_right _ h
    · refine Or.inr ⟨v :: now, last, List.cons_prefix_cons.mpr ⟨rfl, hpre⟩, fun r hr => ?_, o, ho,
        hrow⟩
      have hdeposits : depositsOf (v :: now ++ [last]) = v.deposits.map DepositRow.row ++
          depositsOf (now ++ [last]) := rfl
      rw [hdeposits, ← List.append_assoc] at hr
      rcases List.mem_append.mp hr with hr | hr
      · have hid : r.operationId ∈ (w.next E addressText v).rows.map Row.operationId := next_id hr
        obtain ⟨r', hr', heq⟩ := List.mem_map.mp hid
        rw [← heq]
        exact hfree r' (List.mem_append_left _ hr')
      · exact hfree r (List.mem_append_right _ hr)

/-- What is on record after some visits still is after more of them. -/
theorem keeps_of_prefix (h : Rpc.Recorded w.node.state) {before : List Visit}
    (hp : before <+: visits) : Rpc.Keeps (runs (Watch.next E addressText) w before).node.state
      (runs (Watch.next E addressText) w visits).node.state := by
  obtain ⟨rest, rfl⟩ := hp
  rw [runs_append]
  exact (recorded_runs (recorded_runs h before).1 rest).2

end Visits

/-! ## 4. Recent operations -/

section Recent

variable (E : Env) (addressText : Address → String)

/-- The operations confirmed in blocks above a height. -/
def confirmedAbove (n : Node) (calls : List Node.Call) (h : U64) : List (U64 × AssetOperation) :=
  (n.confirmedOf E calls).filter fun e => h < e.1

/-- Wherever at most 1000 operations are confirmed above a height, all of them are listed. -/
def RecentListed (n : Node) (calls : List Node.Call) : Prop :=
  ∀ h, (confirmedAbove E n calls h).length ≤ Rpc.recentLimit → ∀ e ∈ confirmedAbove E n calls h,
    Rpc.assetOperationView addressText e.2 ∈
      Rpc.bridgeOperationsRecent addressText (runs (Node.next E) n calls)

/-- The operations that the last of the visits confirms. -/
def ConfirmedIn (start : Watch) (visits : List Visit) (o : AssetOperation) : Prop :=
  ∃ before v h, visits = before ++ [v] ∧
    (h, o) ∈ (runs (Watch.next E addressText) start before).node.confirmedOf E v.calls

/-- The relayer polls at least once in 1000 operations. -/
def PollsOften (start : Watch) (visits : List Visit) : Prop :=
  ∀ before v, before ++ [v] <+: visits →
    ((runs (Watch.next E addressText) start before).node.confirmedOf E v.calls).length ≤
      Rpc.recentLimit

/-- Every burn that is confirmed has its row in the end, whatever its status is. -/
def BurnsDiscovered (start : Watch) (visits : List Visit) : Prop :=
  ∀ polls o, polls <+: visits → ConfirmedIn E addressText start polls o → o.kind = .burn →
    ∃ row ∈ (runs (Watch.next E addressText) start visits).rows, ∃ noted,
      burnRow (Rpc.assetOperationView addressText o) = some noted ∧ row.key = noted.key

/-- Every burn is, at some poll after it was confirmed, among the 1000 greatest ids, and up to this
    poll no row and no deposit is under its id. -/
def BurnsReached (start : Watch) (visits : List Visit) : Prop :=
  ∀ polls o, polls <+: visits → ConfirmedIn E addressText start polls o → o.kind = .burn →
    ∃ later, polls <+: later ∧ later <+: visits ∧
      Rpc.greaterIds (runs (Watch.next E addressText) start later).node.state o.operationId <
        Rpc.recentLimit ∧
      ∀ r ∈ start.rows ++ depositsOf later, r.operationId ≠ o.operationId.toHex

variable {E addressText} {start : Watch} {visits polls : List Visit}

theorem view_inj {s : State} (h : Rpc.Recorded s)
    (ho : s.assetOperationRecords[o.operationId]? = some o)
    (hview : Rpc.assetOperationView addressText o ∈
      (Rpc.recentOperations s).map (Rpc.assetOperationView addressText)) :
    o ∈ Rpc.recentOperations s := by
  obtain ⟨o', ho', heq⟩ := List.mem_map.mp hview
  have hid : o'.operationId = o.operationId :=
    Hash.toHex_injective (congrArg Rpc.AssetOperationView.operationId heq)
  have hrec := Rpc.recent_recorded h ho'
  rw [hid, ho] at hrec
  cases hrec
  exact ho'

/-- What a visit confirms, the whole of the visits confirms. -/
theorem confirmed_sublist {before : List Visit} {v : Visit} (hp : before ++ [v] <+: visits) :
    ((runs (Watch.next E addressText) start before).node.confirmedOf E v.calls).Sublist
      (start.node.confirmedOf E (callsOf visits)) := by
  obtain ⟨rest, rfl⟩ := hp
  have hcalls : callsOf (before ++ [v] ++ rest) = callsOf before ++ (v.calls ++ callsOf rest) := by
    unfold callsOf
    rw [List.flatMap_append, List.flatMap_append, List.flatMap_singleton, List.append_assoc]
  rw [hcalls, Node.confirmedOf_append, Node.confirmedOf_append, ← runs_node]
  exact (List.sublist_append_left _ _).trans (List.sublist_append_right _ _)

theorem ConfirmedIn.confirmed (hc : ConfirmedIn E addressText start polls o)
    (hp : polls <+: visits) : ∃ h, (h, o) ∈ start.node.confirmedOf E (callsOf visits) := by
  obtain ⟨before, v, height, rfl, hin⟩ := hc
  exact ⟨height, (confirmed_sublist hp).subset hin⟩

/-- **When the recent operations are listed.** -/
theorem recentListed_iff {n : Node} (h : Rpc.Recorded n.state) (calls : List Node.Call) :
    RecentListed E addressText n calls ↔
      ∀ height, (confirmedAbove E n calls height).length ≤ Rpc.recentLimit →
        ∀ e ∈ confirmedAbove E n calls height,
          Rpc.greaterIds (runs (Node.next E) n calls).state e.2.operationId <
            Rpc.recentLimit := by
  have hend := (h.run (E := E) calls).1
  refine forall_congr' fun height => forall_congr' fun _ => forall₂_congr fun e he => ?_
  have hrec := (Node.mem_confirmedOf h (List.mem_of_mem_filter he)).2
  rw [← Rpc.recent_iff hend hrec]
  exact ⟨view_inj hend hrec, fun ho => List.mem_map_of_mem ho⟩

/-- A confirmed operation is new in its visit and on record from then on. -/
theorem ConfirmedIn.records (h : Rpc.Recorded start.node.state)
    (hc : ConfirmedIn E addressText start polls o) :
    (∀ before, before <+: polls → before ≠ polls →
      (runs (Watch.next E addressText) start before).node.state.assetOperationRecords[
        o.operationId]? = none) ∧
    ∀ later, polls <+: later →
      (runs (Watch.next E addressText) start later).node.state.assetOperationRecords[
        o.operationId]? = some o := by
  obtain ⟨before, v, height, rfl, he⟩ := hc
  obtain ⟨hnone, hrec⟩ := Node.mem_confirmedOf (recorded_runs h before).1 he
  constructor
  · intro earlier hp hne
    have hp' := (List.prefix_concat_iff.mp hp).resolve_left hne
    cases hold : (runs (Watch.next E addressText) start
        earlier).node.state.assetOperationRecords[o.operationId]? with
    | none => rfl
    | some o' =>
      have hkept := keeps_of_prefix h hp' _ _ hold
      rw [hnone] at hkept
      cases hkept
  · intro later hp
    refine keeps_of_prefix h hp _ _ ?_
    rw [runs_append]
    exact hrec

/-- A poll that has listed an operation under the id of a confirmed one has listed that one. -/
theorem ConfirmedIn.listed (h : Rpc.Recorded start.node.state)
    (hc : ConfirmedIn E addressText start polls o) (hp : polls <+: visits) {now : List Visit}
    (hnow : now <+: visits) (ho' : o' ∈ Rpc.recentOperations
      (runs (Watch.next E addressText) start now).node.state)
    (hid : o'.operationId = o.operationId) : o' = o ∧ polls <+: now := by
  obtain ⟨hbefore, hafter⟩ := hc.records h
  have hrec' := Rpc.recent_recorded (recorded_runs h now).1 ho'
  have hkept := keeps_of_prefix h hnow _ _ hrec'
  rw [hid] at hrec' hkept
  rw [hafter visits hp] at hkept
  refine ⟨(Option.some.inj hkept).symm, ?_⟩
  -- the poll is not earlier than the confirmation
  rcases List.prefix_or_prefix_of_prefix hp hnow with hle | hle
  · exact hle
  · by_cases heq : now = polls
    · rw [heq]
    · rw [hbefore _ hle heq] at hrec'
      cases hrec'

/-- **When the burns are found.** -/
theorem burnsDiscovered_iff (h : Rpc.Recorded start.node.state)
    (hrows : ∀ r ∈ start.rows, r.direction = "inbound") :
    BurnsDiscovered E addressText start visits ↔ BurnsReached E addressText start visits := by
  have hinbound : ∀ visits, ∀ r ∈ start.rows ++ depositsOf visits, r.direction = "inbound" := by
    intro visits r hr
    rcases List.mem_append.mp hr with hr | hr
    · exact hrows r hr
    · obtain ⟨v, -, hr⟩ := List.mem_flatMap.mp hr
      obtain ⟨d, -, rfl⟩ := List.mem_map.mp hr
      exact d.inbound
  constructor
  · intro hfound polls o hp hc hburn
    obtain ⟨row, hrow, noted, hnoted, hkey⟩ := hfound polls o hp hc hburn
    have hid : row.operationId = o.operationId.toHex :=
      (congrArg Row.operationId hkey).trans (burnRow_some hnoted).2
    rcases mem_rows (List.mem_map_of_mem hrow) with hold | ⟨now, v, hnow, hfree, o', ho', row', hrow',
      hkey'⟩
    · -- a deposit is no burn
      obtain ⟨r, hr, hrkey⟩ := List.mem_map.mp hold
      have hout : r.direction = "outbound" :=
        (congrArg Row.direction (hrkey.trans hkey)).trans (burnRow_detected hnoted).2
      rw [hinbound visits r hr] at hout
      exact absurd hout (by decide)
    · have hsame : o'.operationId = o.operationId := Hash.toHex_injective
        ((burnRow_some hrow').2.symm.trans ((congrArg Row.operationId hkey').trans hid))
      obtain ⟨rfl, hlater⟩ := hc.listed h hp hnow ho' hsame
      refine ⟨now ++ [v], hlater, hnow, ?_, fun r hr heq => hfree r hr (heq.trans hid.symm)⟩
      have hend : Rpc.Recorded
          (runs (Watch.next E addressText) start (now ++ [v])).node.state := (recorded_runs h _).1
      exact (Rpc.recent_iff hend ((hc.records h).2 _ hlater)).mp ho'
  · intro hreach polls o hp hc hburn
    obtain ⟨later, hlater, hlast, hgreater, hfree⟩ := hreach polls o hp hc hburn
    have hafter := (hc.records h).2
    have hend : Rpc.Recorded (runs (Watch.next E addressText) start later).node.state :=
      (recorded_runs h later).1
    have hlisted := (Rpc.recent_iff hend (hafter later hlater)).mpr hgreater
    obtain ⟨noted, hnoted, hid⟩ := burnRow_burn addressText hburn
    have hin : noted.operationId ∈
        (runs (Watch.next E addressText) start later).rows.map Row.operationId := by
      obtain ⟨before, v, _, rfl, -⟩ := hc
      obtain ⟨rest, rfl⟩ := hlater
      obtain ⟨m, last, hm⟩ : ∃ m last, before ++ [v] ++ rest = m ++ [last] := by
        rcases List.eq_nil_or_concat rest with rfl | ⟨rest, last, rfl⟩
        · exact ⟨before, v, List.append_nil _⟩
        · exact ⟨before ++ [v] ++ rest, last, by rw [List.concat_eq_append, ← List.append_assoc]⟩
      rw [hm, runs_append] at hlisted ⊢
      rw [runs_cons, runs_nil, ids_of_keys, keys_next, ← ids_of_keys]
      exact discoverBurns_id (List.mem_map_of_mem hlisted) hnoted
    -- the row under the id is the burn's
    obtain ⟨row, hrow, hrowid⟩ := List.mem_map.mp hin
    have hkey : row.key = noted.key := by
      rcases mem_rows (List.mem_map_of_mem hrow) with hold | ⟨now, v', hnow, -, o', ho', row', hrow',
        hkey'⟩
      · obtain ⟨r, hr, hrkey⟩ := List.mem_map.mp hold
        have hrid : r.operationId = o.operationId.toHex :=
          (congrArg Row.operationId hrkey).trans (hrowid.trans hid)
        exact absurd hrid (hfree r hr)
      · have hsame : o'.operationId = o.operationId := Hash.toHex_injective
          ((burnRow_some hrow').2.symm.trans
            ((congrArg Row.operationId hkey').trans (hrowid.trans hid)))
        obtain ⟨rfl, -⟩ := hc.listed h hp (hnow.trans hlast) ho' hsame
        rw [hnoted] at hrow'
        cases hrow'
        exact hkey'.symm
    have hsub : (runs (Watch.next E addressText) start later).rows.map Row.key ⊆
        (runs (Watch.next E addressText) start visits).rows.map Row.key := by
      obtain ⟨rest, rfl⟩ := hlast
      rw [runs_append]
      exact subset_runs
    obtain ⟨row', hrow', hkey'⟩ := List.mem_map.mp (hsub (List.mem_map_of_mem hrow))
    exact ⟨row', hrow', noted, hnoted, hkey'.trans hkey⟩

/-- **The recent operations and the burns among them.** From a fresh node and a table with nothing
    but deposits: all operations confirmed above a height are listed, where there are at most 1000,
    exactly if of each of them fewer than 1000 operations on record have a greater id; and a
    relayer that polls at least once in 1000 operations finds every burn exactly if that holds of
    each burn at some poll after its confirmation, up to which no deposit is noted under its id. -/
theorem recent_operations_iff (addressText : Address → String) {configChainId : String}
    {genesis : GenesisConfig} {io : Io}
    {n : Node} {store : Store}
    (hopen : Node.openDir E configChainId genesis .empty io = ⟨.ok n, store⟩)
    {rows : List Row} (hrows : ∀ r ∈ rows, r.direction = "inbound") (visits : List Visit) :
    (RecentListed E addressText n (callsOf visits) ↔
      ∀ h, (confirmedAbove E n (callsOf visits) h).length ≤ Rpc.recentLimit →
        ∀ e ∈ confirmedAbove E n (callsOf visits) h,
          Rpc.greaterIds (runs (Node.next E) n (callsOf visits)).state e.2.operationId <
            Rpc.recentLimit) ∧
      ((PollsOften E addressText ⟨n, rows⟩ visits →
          BurnsDiscovered E addressText ⟨n, rows⟩ visits) ↔
        (PollsOften E addressText ⟨n, rows⟩ visits →
          BurnsReached E addressText ⟨n, rows⟩ visits)) := by
  obtain ⟨s, hs, rfl⟩ := Node.openDir_empty hopen
  obtain ⟨accounts, rfl⟩ := State.fromGenesis_eq_ok hs
  have h : Rpc.Recorded (Node.fresh E genesis (.ofAccounts genesis.chainId genesis.feeMinimum
      accounts)).state := .empty rfl
  exact ⟨recentListed_iff h (callsOf visits),
    imp_congr_right fun _ => burnsDiscovered_iff h hrows⟩

end Recent

end Relayer

/-! ## 5. A burn with a small id -/

namespace Node

variable {E : Env} {n : Node} {s s' : State} {c : Call}

/-- Submissions confirm nothing. -/
theorem confirmedOf_submit (ops : List AssetOperation) (calls : List Call) :
    n.confirmedOf E (ops.map Call.submitAssetOperation ++ calls) =
      (runs (next E) n (ops.map Call.submitAssetOperation)).confirmedOf E calls := by
  rw [confirmedOf_append]
  have hnone : n.confirmedOf E (ops.map Call.submitAssetOperation) = [] := by
    induction ops generalizing n with
    | nil => rfl
    | cons o ops ih =>
      have hsame : adopted E n (.submitAssetOperation o) = [] :=
        adopted_of_sameBlock (submitAssetOperation_sameTip n o).latestBlock
      show n.confirmed E _ ++ confirmedOf E _ _ = []
      rw [ih, confirmed, hsame]
      rfl
  rw [hnone, List.nil_append]

/-- A call confirms what its block carries, at the block's height. -/
theorem confirmed_subset {e : U64 × AssetOperation} (h : e ∈ n.confirmed E c) :
    e.1 = (n.next E c).latestBlock.header.height ∧
      e.2 ∈ (n.next E c).latestBlock.assetOperations := by
  obtain ⟨b, hb, he⟩ := List.mem_flatMap.mp h
  obtain ⟨o, ho, rfl⟩ := List.mem_map.mp he
  unfold adopted at hb
  split at hb
  · cases hb
  · cases List.mem_singleton.mp hb
    exact ⟨rfl, List.mem_of_mem_filter ho⟩

theorem length_confirmed_le : (n.confirmed E c).length ≤
    (n.next E c).latestBlock.assetOperations.length := by
  unfold confirmed adopted
  split
  · exact Nat.zero_le _
  · rw [List.flatMap_singleton, List.length_map]
    exact List.length_filter_le _ _

/-- What a block of new asset operations leaves behind, where the producer accepts all of them. -/
structure Round (E : Env) (n : Node) (calls : List Call) (s : State) (height : U64)
    (ops : List AssetOperation) : Prop where
  idle : (runs (next E) n calls).clearQueues = runs (next E) n calls
  state : (runs (next E) n calls).state = s
  tip : (runs (next E) n calls).latestBlock.header.height = height
  confirms : ∀ o ∈ ops, (height, o) ∈ n.confirmedOf E calls
  only : ∀ e ∈ n.confirmedOf E calls, e.1 = height
  count : (n.confirmedOf E calls).length ≤ ops.length

theorem round_of_accept {ops : List AssetOperation} {height now : U64}
    (hidle : n.clearQueues = n) (hversion : ∀ o ∈ ops, o.version = 1)
    (hnew : ∀ o ∈ ops, o.operationId ∉ n.state.processedAssetOperations)
    (hnodup : (ops.map AssetOperation.operationId).Nodup)
    (haccept : acceptLoop E .asset n.state ops = .ok (s', ops))
    (hrec : ∀ o ∈ ops, s'.assetOperationRecords[o.operationId]? = some o)
    (hheight : Unsigned.add (ε := NodeError) E.overflowChecks n.latestBlock.header.height 1 =
      .ok height) (hne : height ≠ n.latestBlock.header.height) :
    Round E n (ops.map .submitAssetOperation ++ [.produceBlock ⟨now, none⟩ none]) s' height
      ops := by
  have hpending : n.pendingAssetOperations = [] := by
    rw [← hidle]
    rfl
  have hqueued := runs_submitAssetOperation (E := E) hversion hnew (by rw [hpending]; exact hnodup)
  rw [hpending, List.nil_append] at hqueued
  -- the node with its queue
  let m : Node := { n with pendingAssetOperations := ops }
  have hm : runs (next E) n (ops.map .submitAssetOperation) = m := hqueued
  have hqueue : m.queue E = { Batch.empty with assetOperations := ops } := by
    have h : m = { n.clearQueues with pendingAssetOperations := ops } := by rw [hidle]
    rw [h]
    rfl
  have hloops : accept E m.state m.nextHeight (m.queue E) =
      .ok (s', { Batch.empty with assetOperations := ops }) := by
    rw [hqueue]
    exact accept_assets haccept
  have hproduce := next_produce (n := m) now hloops hheight
  have hruns : runs (next E) n (ops.map .submitAssetOperation ++
      [.produceBlock ⟨now, none⟩ none]) = m.next E (.produceBlock ⟨now, none⟩ none) := by
    rw [runs_append, hm]
    rfl
  have hconfirms : n.confirmedOf E (ops.map .submitAssetOperation ++
      [.produceBlock ⟨now, none⟩ none]) = m.confirmed E (.produceBlock ⟨now, none⟩ none) := by
    rw [confirmedOf_submit, hm]
    exact List.append_nil _
  have hheader : (m.next E (.produceBlock ⟨now, none⟩ none)).latestBlock.header.height =
      height := by
    rw [hproduce]
    rfl
  have hblock : (m.next E (.produceBlock ⟨now, none⟩ none)).latestBlock.assetOperations =
      ops := by
    rw [hproduce]
    rfl
  have hstate : (m.next E (.produceBlock ⟨now, none⟩ none)).state = s' := by
    rw [hproduce]
  refine ⟨?_, by rw [hruns, hstate], by rw [hruns, hheader], fun o ho => ?_, fun e he => ?_, ?_⟩
  · rw [hruns, hproduce]
    rfl
  · have hadopted : adopted E m (.produceBlock ⟨now, none⟩ none) =
        [(m.next E (.produceBlock ⟨now, none⟩ none)).latestBlock] := by
      refine if_neg fun hsame => hne ?_
      rw [← hheader, hsame]
    rw [hconfirms]
    unfold confirmed
    rw [hadopted, List.flatMap_singleton, hblock, hheader, hstate]
    exact List.mem_map.mpr ⟨o, List.mem_filter.mpr ⟨ho, by simpa using ⟨hnew o ho, hrec o ho⟩⟩,
      rfl⟩
  · rw [hconfirms] at he
    rw [(confirmed_subset he).1, hheader]
  · rw [hconfirms, ← hblock]
    exact length_confirmed_le

end Node

namespace Sample

open Relayer

/-- The wrapped ether of the examples. -/
def weth : AssetId := .wrapped "ethereum" "WETH" "sepolia:bridge-placeholder" 18

/-- Id number `i`; all of them are greater than the id of zeros. -/
def greatId (i : Nat) : Hash :=
  ⟨#v[UInt8.ofNat (i / 256 + 1), UInt8.ofNat (i % 256), 0, 0, 0, 0, 0, 0, 0, 0, 0, 0, 0, 0, 0, 0, 0,
    0, 0, 0, 0, 0, 0, 0, 0, 0, 0, 0, 0, 0, 0, 0]⟩

def unitOf (kind : AssetOperationKind) (id : Hash) : AssetOperation where
  version := 1
  operationId := id
  kind := kind
  assetId := weth
  address := address
  destination := ""
  amount := 1
  externalTransaction := ""
  memo := ""

/-- A thousand deposits of one unit. -/
def thousandMints : List AssetOperation := (List.range 1000).map fun i => unitOf .mint (greatId i)

def lateBurn : AssetOperation := unitOf .burn .zero

def mintCalls : List Node.Call :=
  thousandMints.map .submitAssetOperation ++ [.produceBlock ⟨1, none⟩ none]

def burnCalls : List Node.Call :=
  [lateBurn].map .submitAssetOperation ++ [.produceBlock ⟨2, none⟩ none]

/-- A thousand deposits in one block; then a burn with a smaller id in the next. -/
def lateBurnVisits : List Visit := [⟨mintCalls, [], Row.status⟩, ⟨burnCalls, [], Row.status⟩]

/-- The row of a deposit with the id of 64 times a digit. -/
def noted (digit : Char) : DepositRow where
  row :=
    { operationId := String.ofList (List.replicate 64 digit)
      direction := "inbound"
      status := "detected"
      assetId := weth.canonicalKey
      address := ""
      destination := ""
      amount := "1"
      externalTransaction := ""
      sourceBlock := 100 }
  inbound := rfl

/-- A deposit and then a burn, each in a block of its own, while the relayer notes a deposit. -/
def burnVisits : List Visit :=
  [⟨[unitOf .mint (greatId 0)].map .submitAssetOperation ++ [.produceBlock ⟨1, none⟩ none],
      [noted 'b'], fun _ => "mint_submitted"⟩,
    ⟨burnCalls, [], fun _ => "release_submitted"⟩]

theorem callsOf_lateBurn : callsOf lateBurnVisits = mintCalls ++ burnCalls := by
  unfold callsOf lateBurnVisits
  rw [List.flatMap_cons, List.flatMap_cons, List.flatMap_nil, List.append_nil]

theorem greatId_number : ∀ i < 1000, (greatId i).bytes[0].toNat * 256 + (greatId i).bytes[1].toNat =
    256 + i := by
  intro i hi
  show (UInt8.ofNat (i / 256 + 1)).toNat * 256 + (UInt8.ofNat (i % 256)).toNat = 256 + i
  rw [UInt8.toNat_ofNat', UInt8.toNat_ofNat']
  omega

theorem thousandMints_nodup : (thousandMints.map AssetOperation.operationId).Nodup := by
  rw [thousandMints, List.map_map]
  refine List.Nodup.map_on (fun i hi j hj h => ?_) List.nodup_range
  have hi' := greatId_number i (List.mem_range.mp hi)
  have hj' := greatId_number j (List.mem_range.mp hj)
  have hid : greatId i = greatId j := h
  rw [hid] at hi'
  omega

theorem zero_lt_greatId : ∀ i < 1000, compare Hash.zero (greatId i) = .lt := by
  decide +kernel

theorem checkAssetOperation_unitOf (kind : AssetOperationKind) (id : Hash) :
    State.checkAssetOperation (unitOf kind id) = .ok () := by
  have h : State.checkAssetOperation (unitOf kind .zero) = .ok () := by
    cases kind <;> decide +kernel
  exact h

/-- What the account holds of the wrapped ether. -/
def held (s : State) : Nat := (s.assetBalanceOf address weth.canonicalKey).toNat

/-- A deposit of one unit, as it is applied. -/
theorem apply_mint {s : State} {id : Hash} (hnew : id ∉ s.processedAssetOperations)
    (hroom : held s + 1 < 2 ^ 128) :
    ∃ s', s.applyAssetOperation (unitOf .mint id) = ⟨.ok true, s'⟩ ∧
      s'.assetOperationRecords = s.assetOperationRecords.insert id (unitOf .mint id) ∧
      s'.processedAssetOperations = s.processedAssetOperations.insert id ∧
      held s' = held s + 1 := by
  have hledger : State.assetLedger s.mnaReserveLedger (unitOf .mint id) =
      .ok s.mnaReserveLedger := by
    have husdc : State.isSupportedUsdc weth = false := by decide +kernel
    unfold State.assetLedger
    rw [show (unitOf .mint id).assetId = weth from rfl, husdc]
    rfl
  have hsum : (BitVec.ofNat 128 (held s + 1)).toNat = held s + 1 := by
    rw [BitVec.toNat_ofNat, Nat.mod_eq_of_lt hroom]
  have hbalance : State.assetBalance (s.assetBalanceOf address weth.canonicalKey)
      (unitOf .mint id) = .ok (BitVec.ofNat 128 (held s + 1)) :=
    orFail_eq_ok.mpr (Unsigned.checkedAdd_eq_some.mpr hsum)
  refine ⟨_, State.applyAssetOperation_new (checkAssetOperation_unitOf .mint id) hnew hledger
    hbalance, rfl, rfl, ?_⟩
  show (State.assetBalanceOf _ address weth.canonicalKey).toNat = _
  rw [State.assetBalanceOf_setAssetBalance, if_pos ⟨rfl, rfl⟩, hsum]

/-- A burn of one unit, as it is applied. -/
theorem apply_burn {s : State} {id : Hash} (hnew : id ∉ s.processedAssetOperations)
    (hheld : 0 < held s) :
    ∃ s', s.applyAssetOperation (unitOf .burn id) = ⟨.ok true, s'⟩ ∧
      s'.assetOperationRecords = s.assetOperationRecords.insert id (unitOf .burn id) := by
  have hledger : State.assetLedger s.mnaReserveLedger (unitOf .burn id) =
      .ok s.mnaReserveLedger := by
    have husdc : State.isSupportedUsdc weth = false := by decide +kernel
    unfold State.assetLedger
    rw [show (unitOf .burn id).assetId = weth from rfl, husdc]
    rfl
  have hrest : held s = 1 + (BitVec.ofNat 128 (held s - 1)).toNat := by
    have hlt := (s.assetBalanceOf address weth.canonicalKey).isLt
    have hle : held s - 1 < 2 ^ 128 := by
      unfold held
      omega
    rw [BitVec.toNat_ofNat, Nat.mod_eq_of_lt hle]
    omega
  have hbalance : State.assetBalance (s.assetBalanceOf address weth.canonicalKey)
      (unitOf .burn id) = .ok (BitVec.ofNat 128 (held s - 1)) :=
    orFail_eq_ok.mpr (Unsigned.checkedSub_eq_some.mpr hrest)
  exact ⟨_, State.applyAssetOperation_new (checkAssetOperation_unitOf .burn id) hnew hledger
    hbalance, rfl⟩

/-- Deposits of one unit each with new ids are all accepted and on record. -/
theorem accept_mints {E : Env} {s : State} (hs : Rpc.Recorded s) {ids : List Hash}
    (hnew : ∀ id ∈ ids, id ∉ s.processedAssetOperations) (hnodup : ids.Nodup)
    (hroom : held s + ids.length < 2 ^ 128) :
    ∃ s', Node.acceptLoop E .asset s (ids.map (unitOf .mint)) = .ok (s', ids.map (unitOf .mint)) ∧
      (∀ id ∈ ids, s'.assetOperationRecords[id]? = some (unitOf .mint id)) ∧
      (∀ id ∈ s'.processedAssetOperations, id ∈ s.processedAssetOperations ∨ id ∈ ids) ∧
      held s' = held s + ids.length := by
  induction ids generalizing s with
  | nil => exact ⟨s, rfl, by simp, fun id hid => Or.inl hid, rfl⟩
  | cons id ids ih =>
    rw [List.length_cons] at hroom
    obtain ⟨hid, hnodup⟩ := List.nodup_cons.mp hnodup
    obtain ⟨s1, happly, hrec, hproc, hheld⟩ :=
      apply_mint (hnew id List.mem_cons_self) (by omega)
    have hnext : s.apply E (.asset (unitOf .mint id)) = ⟨.ok true, s1⟩ := happly
    have hs1 : s.next E (.asset (unitOf .mint id)) = s1 := by
      rw [State.next, hnext]
    have hrecorded : Rpc.Recorded s1 := by
      rw [← hs1]
      exact (hs.next _).1
    have hnew1 : ∀ x ∈ ids, x ∉ s1.processedAssetOperations := by
      intro x hx hm
      rw [hproc, ExtTreeSet.mem_insert] at hm
      rcases hm with hm | hm
      · rw [LawfulEqOrd.eq_of_compare hm] at hid
        exact hid hx
      · exact hnew x (List.mem_cons_of_mem _ hx) hm
    obtain ⟨s', hloop, hall, hold, hlast⟩ := ih hrecorded hnew1 hnodup (by omega)
    have hkeeps : Rpc.Recorded s' ∧ Rpc.Keeps s1 s' := by
      refine Node.acceptLoop_rule (P := fun t => Rpc.Recorded t ∧ Rpc.Keeps s1 t)
        (fun t o _ ht => ?_) hloop ⟨hrecorded, .refl s1⟩
      have h1 := ht.1.next (E := E) (.asset o)
      exact ⟨h1.1, ht.2.trans h1.2⟩
    refine ⟨s', ?_, ?_, ?_, ?_⟩
    · rw [List.map_cons, Node.acceptLoop, hnext]
      show (Node.acceptLoop E .asset s1 _ >>= _) = _
      rw [hloop]
      rfl
    · intro x hx
      rcases List.mem_cons.mp hx with rfl | hx
      · exact hkeeps.2 _ _ (by rw [hrec, ExtTreeMap.getElem?_insert_self])
      · exact hall x hx
    · intro x hx
      rcases hold x hx with hx | hx
      · rw [hproc, ExtTreeSet.mem_insert] at hx
        rcases hx with hx | hx
        · rw [LawfulEqOrd.eq_of_compare hx]
          exact Or.inr List.mem_cons_self
        · exact Or.inl hx
      · exact Or.inr (List.mem_cons_of_mem _ hx)
    · rw [hlast, hheld, List.length_cons]
      omega

def lateBurnStart : Node := .fresh .standIn (genesis 1) (genesisState 1)

def greatIds : List Hash := (List.range 1000).map greatId

theorem thousandMints_eq : thousandMints = greatIds.map (unitOf .mint) := by
  rw [greatIds, List.map_map]
  rfl

theorem greatIds_nodup : greatIds.Nodup := by
  have h := thousandMints_nodup
  rw [thousandMints_eq, List.map_map] at h
  exact h.of_map

theorem mintRound : ∃ s, Node.Round .standIn lateBurnStart mintCalls s 1 thousandMints ∧
    (∀ id ∈ greatIds, s.assetOperationRecords[id]? = some (unitOf .mint id)) ∧
    (∀ id ∈ s.processedAssetOperations, id ∈ greatIds) ∧ 0 < held s := by
  have hfresh : Rpc.Recorded lateBurnStart.state := .empty rfl
  have hnone : ∀ id : Hash, id ∉ lateBurnStart.state.processedAssetOperations :=
    fun id => ExtTreeSet.not_mem_empty
  have hheld : held lateBurnStart.state = 0 := by decide +kernel
  have hcount : greatIds.length = 1000 := by simp [greatIds]
  obtain ⟨s, hloop, hrec, hproc, hlast⟩ := accept_mints (E := .standIn) hfresh
    (fun id _ => hnone id) greatIds_nodup (by rw [hheld, hcount]; decide)
  have hin : ∀ o ∈ thousandMints, o.version = 1 ∧ s.assetOperationRecords[o.operationId]? =
      some o := by
    intro o ho
    rw [thousandMints_eq] at ho
    obtain ⟨id, hid, rfl⟩ := List.mem_map.mp ho
    exact ⟨rfl, hrec id hid⟩
  refine ⟨s, ?_, hrec, fun id hid => (hproc id hid).resolve_left (hnone id), ?_⟩
  · rw [← thousandMints_eq] at hloop
    have hheight : Unsigned.add (ε := NodeError) Env.standIn.overflowChecks
        lateBurnStart.latestBlock.header.height 1 = .ok 1 := by decide +kernel
    exact Node.round_of_accept rfl (fun o ho => (hin o ho).1) (fun o _ => hnone _)
      thousandMints_nodup hloop (fun o ho => (hin o ho).2) hheight (by decide +kernel)
  · rw [hlast, hheld, hcount]
    decide

theorem burnRound {n : Node} (hidle : n.clearQueues = n)
    (hheight : n.latestBlock.header.height = 1)
    (hnew : Hash.zero ∉ n.state.processedAssetOperations) (hheld : 0 < held n.state) :
    ∃ s, Node.Round .standIn n burnCalls s 2 [lateBurn] ∧
      s.assetOperationRecords = n.state.assetOperationRecords.insert Hash.zero lateBurn := by
  obtain ⟨s, happly, hrec⟩ := apply_burn hnew hheld
  have hloop : Node.acceptLoop .standIn .asset n.state [lateBurn] = .ok (s, [lateBurn]) := by
    have hnext : n.state.apply .standIn (.asset lateBurn) = ⟨.ok true, s⟩ := happly
    rw [Node.acceptLoop, hnext]
    rfl
  refine ⟨s, Node.round_of_accept hidle ?_ ?_ ?_ hloop ?_ ?_ ?_, hrec⟩
  · simp [lateBurn, unitOf]
  · intro o ho
    rw [List.mem_singleton.mp ho]
    exact hnew
  · simp
  · intro o ho
    rw [List.mem_singleton.mp ho, hrec]
    exact ExtTreeMap.getElem?_insert_self
  · rw [hheight]
    decide +kernel
  · rw [hheight]
    decide

end Sample

namespace Relayer

open Sample

/-- A burn is confirmed behind a deposit and found. -/
theorem recent_operations_burned :
    (lateBurnStart.confirmedOf .standIn (callsOf burnVisits)).map Prod.snd =
        [unitOf .mint (greatId 0), lateBurn] ∧
      RecentListed .standIn (fun _ => accountText) lateBurnStart (callsOf burnVisits) ∧
      BurnsDiscovered .standIn (fun _ => accountText) ⟨lateBurnStart, [(noted 'a').row]⟩ burnVisits := by
  have hopen : Node.openDir .standIn (genesis 1).chainId (genesis 1) .empty ⟨1, none⟩ =
      ⟨.ok lateBurnStart, lateBurnStart.store⟩ :=
    Node.openDir_fresh (fromGenesis_genesis 1) rfl
  have hrows : ∀ r ∈ [(noted 'a').row], r.direction = "inbound" := by decide
  have h := recent_operations_iff (fun _ => accountText) hopen hrows burnVisits
  have hfew : (lateBurnStart.confirmedOf .standIn (callsOf burnVisits)).length ≤
      Rpc.recentLimit := by
    decide +kernel
  have hreach : ∀ e ∈ lateBurnStart.confirmedOf .standIn (callsOf burnVisits),
      Rpc.greaterIds (runs (Node.next .standIn) lateBurnStart (callsOf burnVisits)).state
          e.2.operationId < Rpc.recentLimit ∧
        ∀ r ∈ [(noted 'a').row] ++ depositsOf burnVisits, r.operationId ≠ e.2.operationId.toHex := by
    decide +kernel
  refine ⟨by decide +kernel, h.1.mpr fun height _ e he => ?_,
    h.2.mpr (fun _ polls o hp hc _ => ?_) fun before v hp => ?_⟩
  · unfold confirmedAbove at he
    have hin := List.mem_of_mem_filter he
    exact (hreach e hin).1
  · have hconfirmed : ∃ h, (h, o) ∈ lateBurnStart.confirmedOf .standIn (callsOf burnVisits) :=
      hc.confirmed hp
    obtain ⟨height, hin⟩ := hconfirmed
    obtain ⟨hgreater, hfree⟩ := hreach _ hin
    have hnode : (runs (Watch.next .standIn fun _ => accountText) ⟨lateBurnStart, [(noted 'a').row]⟩
        burnVisits).node = runs (Node.next .standIn) lateBurnStart (callsOf burnVisits) := runs_node
    refine ⟨burnVisits, hp, List.prefix_refl _, ?_, hfree⟩
    rw [hnode]
    exact hgreater
  · have hle : ((runs (Watch.next .standIn fun _ => accountText) ⟨lateBurnStart, [(noted 'a').row]⟩
        before).node.confirmedOf .standIn v.calls).length ≤
          (lateBurnStart.confirmedOf .standIn (callsOf burnVisits)).length :=
      (confirmed_sublist hp).length_le
    exact hle.trans hfew

/-- **The burn is confirmed and never listed**: one operation is confirmed above height 1, but a
    thousand older ones have greater ids; the relayer polls after each block and misses it. -/
theorem late_burn_missed :
    ¬ RecentListed .standIn (fun _ => accountText) lateBurnStart (callsOf lateBurnVisits) ∧
      PollsOften .standIn (fun _ => accountText) ⟨lateBurnStart, []⟩ lateBurnVisits ∧
      ¬ BurnsDiscovered .standIn (fun _ => accountText) ⟨lateBurnStart, []⟩ lateBurnVisits := by
  obtain ⟨s1, hmint, hrec, hproc, hheld⟩ := mintRound
  have hfresh : Rpc.Recorded lateBurnStart.state := .empty rfl
  have hnotzero : Hash.zero ∉ greatIds := by
    intro hm
    obtain ⟨i, hi, heq⟩ := List.mem_map.mp hm
    have hlt := zero_lt_greatId i (List.mem_range.mp hi)
    rw [heq, compare_self] at hlt
    cases hlt
  obtain ⟨s2, hburn, hlast⟩ := burnRound hmint.idle hmint.tip
    (fun hm => hnotzero (hproc _ (by rw [← hmint.state]; exact hm))) (by rw [hmint.state]; exact hheld)
  -- all of the thousand stand before the burn
  have hgreater : Rpc.recentLimit ≤ Rpc.greaterIds s2 lateBurn.operationId := by
    have hnodup : (greatIds.map fun id => (id, unitOf .mint id)).Nodup := by
      refine List.Nodup.map (fun id id' h => congrArg Prod.fst h) greatIds_nodup
    have hsub : (greatIds.map fun id => (id, unitOf .mint id)) ⊆
        s2.assetOperationRecords.toList.filter fun e => compare Hash.zero e.1 == .lt := by
      intro e he
      obtain ⟨id, hid, rfl⟩ := List.mem_map.mp he
      obtain ⟨i, hi, rfl⟩ := List.mem_map.mp hid
      have hlt := zero_lt_greatId i (List.mem_range.mp hi)
      refine List.mem_filter.mpr ⟨?_, by simp [hlt]⟩
      rw [ExtTreeMap.mem_toList_iff_getElem?_eq_some, hlast, ExtTreeMap.getElem?_insert,
        if_neg (by rw [hlt]; decide), hmint.state]
      exact hrec _ hid
    have hle := (hnodup.subperm hsub).length_le
    rw [List.length_map] at hle
    have hcount : greatIds.length = 1000 := by simp [greatIds]
    rw [hcount] at hle
    exact hle
  have hwhole : runs (Node.next .standIn) lateBurnStart (callsOf lateBurnVisits) =
      runs (Node.next .standIn) (runs (Node.next .standIn) lateBurnStart mintCalls) burnCalls := by
    rw [callsOf_lateBurn, runs_append]
  have hconfirmed : lateBurnStart.confirmedOf .standIn (callsOf lateBurnVisits) =
      lateBurnStart.confirmedOf .standIn mintCalls ++
        (runs (Node.next .standIn) lateBurnStart mintCalls).confirmedOf .standIn burnCalls := by
    rw [callsOf_lateBurn, Node.confirmedOf_append]
  have hnode : (runs (Watch.next .standIn fun _ => accountText) ⟨lateBurnStart, []⟩
      [⟨mintCalls, [], Row.status⟩]).node =
      runs (Node.next .standIn) lateBurnStart mintCalls := by
    rw [runs_node]
    exact congrArg _ (List.append_nil mintCalls)
  have hend : (runs (Node.next .standIn) lateBurnStart (callsOf lateBurnVisits)).state = s2 := by
    rw [hwhole, hburn.state]
  refine ⟨fun hlisted => ?_, fun before v hp => ?_, fun hfound => ?_⟩
  · have habove : confirmedAbove .standIn lateBurnStart (callsOf lateBurnVisits) 1 =
        (runs (Node.next .standIn) lateBurnStart mintCalls).confirmedOf .standIn burnCalls := by
      unfold confirmedAbove
      rw [hconfirmed, List.filter_append, List.filter_eq_nil_iff.mpr fun e he => ?_,
        List.nil_append, List.filter_eq_self.mpr fun e he => ?_]
      · rw [hburn.only e he]
        decide
      · rw [hmint.only e he]
        decide
    have hone := hburn.count
    have hcond := (recentListed_iff hfresh _).mp hlisted 1
      (by rw [habove]; exact Nat.le_trans hone (by decide)) (2, lateBurn)
      (by rw [habove]; exact hburn.confirms lateBurn (List.mem_singleton.mpr rfl))
    rw [hend] at hcond
    exact absurd hcond (Nat.not_lt.mpr hgreater)
  · rcases List.prefix_cons_iff.mp hp with hnil | ⟨rest, hrest, hone⟩
    · simp at hnil
    · cases before with
      | nil =>
        have hvisit : v = ⟨mintCalls, [], Row.status⟩ := (List.cons.inj hrest).1
        have hcount := hmint.count
        rw [thousandMints, List.length_map, List.length_range] at hcount
        rw [hvisit]
        exact hcount
      | cons first before =>
        obtain ⟨hfirst, htail⟩ := List.cons.inj hrest
        rw [← htail] at hone
        have hlast : before = [] ∧ v = ⟨burnCalls, [], Row.status⟩ := by
          rcases List.prefix_cons_iff.mp hone with hnil | ⟨rest, hrest, hp⟩
          · simp at hnil
          · rw [List.prefix_nil.mp hp] at hrest
            exact List.append_eq_singleton_iff.mp hrest |>.elim (by simp) (by simp)
        rw [hfirst, hlast.1, hlast.2, hnode]
        exact Nat.le_trans hburn.count (by decide)
  · have hlast : ConfirmedIn .standIn (fun _ => accountText) ⟨lateBurnStart, []⟩ lateBurnVisits
        lateBurn :=
      ⟨[⟨mintCalls, [], Row.status⟩], ⟨burnCalls, [], Row.status⟩, 2, rfl, by
        rw [hnode]
        exact hburn.confirms lateBurn (List.mem_singleton.mpr rfl)⟩
    obtain ⟨later, hp, hp', hreach, -⟩ := (burnsDiscovered_iff hfresh fun r hr => by cases hr).mp
      hfound lateBurnVisits lateBurn (List.prefix_refl _) hlast rfl
    have hsame : later = lateBurnVisits := hp'.eq_of_length_le hp.length_le
    rw [hsame, runs_node, hend] at hreach
    exact absurd hreach (Nat.not_lt.mpr hgreater)

end Relayer

end WorldstreetChain
