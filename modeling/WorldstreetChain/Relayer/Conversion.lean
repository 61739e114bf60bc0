import WorldstreetChain.Relayer.Submitted
import Mathlib.Logic.Relator

/-!
# Deposits of SOL

A deposit of SOL becomes MNA by a reserve operation. Its id is the hash of its content, the price of
the oracle and the time of the price included, and neither the relayer nor the node looks at the
external transaction: a second attempt at another price is another operation.

* `Node.Converts` -- the operations by which a deposit is or is about to be converted.
* `Relayer.conversionOf` -- the operation a turn of the relayer asks for.
* `Relayer.converted_at_most_once` -- **a deposit is converted at most once**, in every run in which
  no event asks for a second conversion of it.
-/

namespace WorldstreetChain

open Std Relator

/-! ## 1. What converts a deposit -/

/-- The operation verifies the deposit. -/
def MnaReserveOperation.Verifies (o : MnaReserveOperation) (deposit : String) : Prop :=
  o.kind = .verifyDeposit ∧ o.externalTransaction = deposit

instance (o : MnaReserveOperation) (deposit : String) : Decidable (o.Verifies deposit) :=
  inferInstanceAs (Decidable (_ ∧ _))

namespace State

variable {E : Env} {s t : State} {op : Operation} {i : Hash} {o : MnaReserveOperation}

/-- The conversions of a deposit that took effect. -/
def conversions (s : State) (deposit : String) : List (Hash × MnaReserveOperation) :=
  s.mnaReserveOperationRecords.toList.filter fun e => e.2.Verifies deposit

/-- The deposit is converted by the operation with this id. -/
def Converts (s : State) (deposit : String) (i : Hash) : Prop :=
  ∃ o, s.mnaReserveOperationRecords[i]? = some o ∧ o.Verifies deposit

theorem Writes.reserveRecords (h : Writes s op t) (hop : ∀ o, op ≠ .mnaReserve o) :
    t.mnaReserveOperationRecords = s.mnaReserveOperationRecords := by
  cases h with
  | mnaReserve o => exact absurd rfl (hop o)
  | _ => rfl

/-- **An operation records at most itself.** -/
theorem reserveRecords_next (h : (s.next E op).mnaReserveOperationRecords[i]? = some o) :
    s.mnaReserveOperationRecords[i]? = some o ∨
      (op = .mnaReserve o ∧ E.crypto.mnaReserveOperationId o = i) := by
  by_cases hop : ∀ o', op ≠ .mnaReserve o'
  · rw [next_writes.reserveRecords hop] at h
    exact Or.inl h
  simp only [ne_eq, not_forall, not_not] at hop
  obtain ⟨o', rfl⟩ := hop
  revert h
  refine next_cases (R := fun t => t.mnaReserveOperationRecords[i]? = some o → _) Or.inl
    (fun t ht h => ?_) fun t ht h => ?_
  · obtain ⟨hvalid, -, next, he, -, rfl⟩ := applyMnaReserveOperation_true ht
    have hrecords : next.mnaReserveOperationRecords = s.mnaReserveOperationRecords := by
      rcases reserveEffect_eq_ok he with
        ⟨-, -, _, _, _, _, -, -, -, rfl⟩ | ⟨-, -, _, -, rfl⟩ | ⟨-, -, _, _, -, -, rfl⟩ |
          ⟨-, -, _, -, -, rfl⟩
      all_goals rfl
    rw [recordMnaReserve_mnaReserveOperationRecords, ExtTreeMap.getElem?_insert, hrecords] at h
    split at h
    · rename_i hi
      cases h
      exact Or.inr ⟨rfl, hvalid.id.trans (LawfulEqOrd.eq_of_compare hi)⟩
    · exact Or.inl h
  · cases ht with
    | mnaReserve o hv hn => exact Or.inl h

theorem reserveRecords_creditDevnet (s : State) (address : Address) (amount : Amount) :
    (s.creditDevnet address amount).state.mnaReserveOperationRecords =
      s.mnaReserveOperationRecords := by
  obtain ⟨accounts, hs⟩ := s.creditDevnet_writes address amount
  rw [hs]

/-- Converted in one way is converted at most once. -/
theorem conversions_le_one (h : RightUnique s.Converts) (deposit : String) :
    (s.conversions deposit).length ≤ 1 := by
  have hmem : ∀ e ∈ s.conversions deposit, s.mnaReserveOperationRecords[e.1]? = some e.2 ∧
      e.2.Verifies deposit := by
    intro e he
    obtain ⟨hrecord, hverifies⟩ := List.mem_filter.mp he
    exact ⟨ExtTreeMap.mem_toList_iff_getElem?_eq_some.mp hrecord, by simpa using hverifies⟩
  have hsame : ∀ e ∈ s.conversions deposit, ∀ e' ∈ s.conversions deposit, e = e' := by
    intro e he e' he'
    obtain ⟨hrecord, hverifies⟩ := hmem e he
    obtain ⟨hrecord', hverifies'⟩ := hmem e' he'
    have hid : e.1 = e'.1 := h ⟨_, hrecord, hverifies⟩ ⟨_, hrecord', hverifies'⟩
    rw [hid, hrecord'] at hrecord
    exact Prod.ext hid (Option.some.inj hrecord).symm
  have hnodup : (s.conversions deposit).Nodup := (BTreeMap.nodup_toList _).filter _
  match hl : s.conversions deposit with
  | [] => exact Nat.zero_le 1
  | [e] => exact Nat.le_refl 1
  | e :: e' :: rest =>
    rw [hl] at hnodup hsame
    have heq := hsame e List.mem_cons_self e' (List.mem_cons_of_mem _ List.mem_cons_self)
    exact absurd (heq ▸ List.mem_cons_self) (List.nodup_cons.mp hnodup).1

end State

namespace Node

variable {E : Env} {n : Node} {c : Call} {deposit : String} {i : Hash}

/-- The deposit is converted, or about to be, by the operation with this id. -/
def Converts (E : Env) (n : Node) (deposit : String) (i : Hash) : Prop :=
  n.state.Converts deposit i ∨ ∃ o ∈ n.pendingMnaReserveOperations, o.Verifies deposit ∧
    E.crypto.mnaReserveOperationId o = i

/-- A call brings a conversion of the deposit along. -/
def Adds (E : Env) : Call → String → Hash → Prop
  | .submitMnaReserveOperation o, deposit, i =>
    o.Verifies deposit ∧ E.crypto.mnaReserveOperationId o = i
  | .importBlock _ b, deposit, i =>
    ∃ o ∈ b.mnaReserveOperations, o.Verifies deposit ∧ E.crypto.mnaReserveOperationId o = i
  | _, _, _ => False

/-- The operations of a call convert what waits or what comes along. -/
theorem converts_operation {o : MnaReserveOperation} (h : .mnaReserve o ∈ n.operations E c)
    (hverifies : o.Verifies deposit) :
    n.Converts E deposit (E.crypto.mnaReserveOperationId o) ∨
      Adds E c deposit (E.crypto.mnaReserveOperationId o) := by
  cases c with
  | produceBlock io proposer =>
    have hmem : o ∈ n.pendingMnaReserveOperations := by
      simpa [operations, Batch.calls, queue] using h
    exact Or.inl (Or.inr ⟨o, hmem, hverifies, rfl⟩)
  | importBlock io b =>
    have hmem : o ∈ b.mnaReserveOperations := by
      simpa [operations, Batch.calls, Block.batch] using h
    exact Or.inr ⟨o, hmem, hverifies, rfl⟩
  | _ => cases h

/-- The state a call is about to commit converts what waited or came along. -/
theorem converts_commits {s : State} {b : Block} (hcommits : Commits E n c s b)
    (h : s.Converts deposit i) : n.Converts E deposit i ∨ Adds E c deposit i := by
  have hrule : ∀ deposit i, s.Converts deposit i →
      n.Converts E deposit i ∨ Adds E c deposit i := by
    refine hcommits.rule (P := fun s => ∀ deposit i, s.Converts deposit i →
      n.Converts E deposit i ∨ Adds E c deposit i) (fun s op hop hs deposit i hconverts => ?_)
      (fun s address amount hs deposit i hconverts => ?_) fun deposit i hconverts =>
        Or.inl (Or.inl hconverts)
    · obtain ⟨o, hrecord, hverifies⟩ := hconverts
      rcases State.reserveRecords_next hrecord with hold | ⟨rfl, rfl⟩
      · exact hs deposit i ⟨o, hold, hverifies⟩
      · exact converts_operation hop hverifies
    · obtain ⟨o, hrecord, hverifies⟩ := hconverts
      rw [State.reserveRecords_creditDevnet] at hrecord
      exact hs deposit i ⟨o, hrecord, hverifies⟩
  exact hrule deposit i h

/-- **A call converts what was converted, waited or came along.** -/
theorem converts_next (h : (n.next E c).Converts E deposit i) :
    n.Converts E deposit i ∨ Adds E c deposit i := by
  rcases h with h | ⟨o, ho, hverifies, hi⟩
  · cases next_step (E := E) n c with
    | quiet n' htip hnone =>
      rw [htip.state] at h
      exact Or.inl (Or.inl h)
    | commit s b n' hcommits hreaches hadopted =>
      rw [hadopted.state] at h
      exact converts_commits hcommits h
    | cutOff s b k n' hcommits hfault hk hcut =>
      rw [hcut.state] at h
      exact Or.inl (Or.inl h)
    | finalize io S current n' hcall hvotes hcurrent hle hstored hn =>
      rw [hn] at h
      exact Or.inl (Or.inl h)
  · have hstep := queue_step (E := E) n c
    generalize n.next E c = n' at ho hstep
    cases hstep with
    | same c n' hsame =>
      rw [hsame.reserve] at ho
      exact Or.inl (Or.inr ⟨o, ho, hverifies, hi⟩)
    | asset o' => exact Or.inl (Or.inr ⟨o, ho, hverifies, hi⟩)
    | reserve o' id hvalid =>
      rcases List.mem_append.mp ho with ho | ho
      · exact Or.inl (Or.inr ⟨o, ho, hverifies, hi⟩)
      · rw [List.mem_singleton.mp ho] at hverifies hi
        exact Or.inr ⟨hverifies, hi⟩
    | cleared io proposer n' hturn hsame =>
      rw [hsame.reserve] at ho
      cases ho

/-- What holds between the calls: no deposit is converted in two ways. -/
structure ConvertsOnce (E : Env) (n : Node) : Prop where
  backed : Backed E (fun s => RightUnique s.Converts) n
  unique : RightUnique (n.Converts E)

/-- **A call that adds no second conversion.** -/
theorem ConvertsOnce.next (h : n.ConvertsOnce E)
    (hadds : ∀ deposit i j, Adds E c deposit i → n.Converts E deposit j ∨ Adds E c deposit j →
      i = j) : (n.next E c).ConvertsOnce E := by
  have hunique : RightUnique fun deposit i => n.Converts E deposit i ∨ Adds E c deposit i := by
    rintro deposit i j (hi | hi) hj
    · rcases hj with hj | hj
      · exact h.unique hi hj
      · exact (hadds deposit j i hj (Or.inl hi)).symm
    · exact hadds deposit i j hi hj
  refine ⟨h.backed.called fun s b hcommits deposit i j hi hj => ?_, fun deposit i j hi hj => ?_⟩
  · exact hunique (converts_commits hcommits hi) (converts_commits hcommits hj)
  · exact hunique (converts_next hi) (converts_next hj)

/-- **A restart** brings back what the store has converted. -/
theorem ConvertsOnce.reopened (h : n.ConvertsOnce E) (io : Io) :
    (n.reopened E io).ConvertsOnce E := by
  refine ⟨h.backed.reopened io, ?_⟩
  rcases reopened_cases h.backed.initialized io with hsame | ⟨b, p, hp, hopened⟩
  · rw [hsame]
    exact h.unique
  · rw [hopened]
    rintro deposit i j (hi | ⟨o, ho, -⟩) (hj | ⟨o', ho', -⟩)
    · exact h.backed.stored p hp hi hj
    · cases ho'
    · cases ho
    · cases ho

theorem not_converts_genesis {genesis : GenesisConfig} {s : State}
    (hs : State.fromGenesis genesis = .ok s) : ¬ s.Converts deposit i := by
  intro hconverts
  obtain ⟨o, hrecord, -⟩ := hconverts
  obtain ⟨accounts, rfl⟩ := State.fromGenesis_eq_ok hs
  rw [State.ofAccounts, ExtTreeMap.getElem?_empty] at hrecord
  cases hrecord

/-- A fresh node has converted nothing. -/
theorem not_converts_fresh {genesis : GenesisConfig} {s : State}
    (hs : State.fromGenesis genesis = .ok s) :
    ¬ (fresh E genesis s).Converts E deposit i := by
  intro hconverts
  rcases hconverts with hi | ⟨o, ho, -⟩
  · exact not_converts_genesis hs hi
  · cases ho

theorem convertsOnce_fresh {genesis : GenesisConfig} {s : State}
    (hs : State.fromGenesis genesis = .ok s) : (fresh E genesis s).ConvertsOnce E := by
  have hdurable := durable_fresh (E := E) hs
  refine ⟨⟨hdurable.initialized, fun deposit i j hi => absurd hi (not_converts_genesis hs), ?_⟩,
    fun deposit i j hi => absurd hi (not_converts_fresh hs)⟩
  intro p hp deposit i j hi
  rw [hdurable.latestState] at hp
  cases hp
  exact absurd hi (not_converts_genesis hs)

end Node

namespace Relayer

/-! ## 2. The relayer's turns -/

namespace System

/-- No event converts a deposit in a second way. A turn that reaches the node asks for the
    operation the node has for the deposit, if it has one; a call by others brings none along for a
    deposit that is converted by another one. -/
def AsksOnce (E : Env) (ctx : Rpc.Context) (py : Python) (cfg : Settings) (s : System) :
    SystemEvent → Prop
  | .turn p => ∀ r rest o, s.phase = .processing (r :: rest) → Converting E ctx py cfg p r o →
    ∀ i, s.node.Converts E r.externalTransaction i → i = E.crypto.mnaReserveOperationId o
  | .call c => ∀ deposit i j, Node.Adds E c deposit i →
    s.node.Converts E deposit j ∨ Node.Adds E c deposit j → i = j
  | _ => True

end System

variable {E : Env} {ctx : Rpc.Context} {py : Python} {cfg : Settings} {p : Passage} {n : Node}
  {r : Row} {s : System} {o : MnaReserveOperation}

theorem mnaMintParams_deposit {price published : Int} {q : Rpc.MnaReserveOperationParams}
    (h : mnaMintParams py cfg r price published = .ok q) :
    q.externalTransaction = r.externalTransaction := by
  unfold mnaMintParams at h
  obtain ⟨lamports, -, h⟩ := Outcome.bind_eq_ok.mp h
  obtain ⟨-, h⟩ := rejectIf_bind_eq_ok.mp h
  obtain ⟨-, h⟩ := rejectIf_bind_eq_ok.mp h
  cases h
  rfl

/-- What the handler builds for a mint verifies a deposit. -/
theorem blankReserveOperation_verifies {q : Rpc.MnaReserveOperationParams}
    (h : Rpc.blankReserveOperation ctx "mna_reserve_mint" q = .ok o) :
    o.Verifies q.externalTransaction := by
  unfold Rpc.blankReserveOperation at h
  simp only [Outcome.bind_eq_ok] at h
  obtain ⟨_, -, _, -, _, -, _, -, _, -, _, -, _, -, _, -, h⟩ := h
  cases h
  have hkind : (if "mint".toList <:+ "mna_reserve_mint".toList then
      MnaReserveOperationKind.verifyDeposit else .release) = .verifyDeposit := by decide +kernel
  exact ⟨hkind, rfl⟩

/-- The operation converts the deposit of the row. -/
theorem Converting.verifies (h : Converting E ctx py cfg p r o) :
    o.Verifies r.externalTransaction := by
  have hasked := h.asked
  unfold conversionOf at hasked
  split at hasked
  · cases hasked
  · split at hasked
    · cases hasked
    · rename_i q hparams
      split at hasked
      · cases hasked
      · rename_i blank hbuild
        cases hasked
        have hverifies := blankReserveOperation_verifies hbuild
        rw [mnaMintParams_deposit hparams] at hverifies
        exact hverifies

/-- **A submission** that asks for no second conversion. -/
theorem convertsOnce_submit (h : n.ConvertsOnce E) (hasks : ∀ o, Converting E ctx py cfg p r o →
    ∀ i, n.Converts E r.externalTransaction i → i = E.crypto.mnaReserveOperationId o) :
    (submit (link E ctx p) py cfg r n).state.ConvertsOnce E := by
  rcases submit_node E ctx py cfg p r n with hm | ⟨o, hm⟩ | ⟨o, hconverting, hm⟩
  · rw [hm]
    exact h
  · rw [hm]
    exact h.next fun _ _ _ hadds => absurd hadds id
  · rw [hm]
    refine h.next fun deposit i j hadds hj => ?_
    obtain ⟨hverifies, rfl⟩ := hadds
    have hdeposit : r.externalTransaction = deposit :=
      hconverting.verifies.2.symm.trans hverifies.2
    rcases hj with hj | ⟨-, hj⟩
    · exact (hasks o hconverting j (hdeposit ▸ hj)).symm
    · exact hj

/-- The polls do not touch the node. -/
theorem poll_node (s : System) (py : Python) (cfg : Settings) (a : Answers) (now : Nat) :
    (s.poll py cfg a now).node = s.node := by
  unfold System.poll
  split
  · dsimp only
    split <;> rfl
  · rfl

/-- **Every event.** -/
theorem convertsOnce_next (h : s.node.ConvertsOnce E) (e : SystemEvent)
    (hasks : s.AsksOnce E ctx py cfg e) : (s.next E ctx py cfg e).node.ConvertsOnce E := by
  cases e with
  | poll a now =>
    show (s.poll py cfg a now).node.ConvertsOnce E
    rw [poll_node]
    exact h
  | turn p =>
    show (s.turn E ctx py cfg p).node.ConvertsOnce E
    rcases turn_node E ctx py cfg s p with hnode | ⟨r, rest, hphase, hnode⟩
    · rw [hnode]
      exact h
    · rw [hnode]
      exact convertsOnce_submit h fun o => hasks r rest o hphase
  | restart => exact h
  | call c => exact h.next hasks
  | reopen io => exact h.reopened io

/-- **A deposit is converted at most once**, in every state of a run, where no event asks for a
    second conversion of it. -/
theorem converted_at_most_once (E : Env) (ctx : Rpc.Context) (py : Python) (cfg : Settings)
    (s : System) (events : List SystemEvent) (hstart : s.node.ConvertsOnce E)
    (hasks : EachStep (System.next E ctx py cfg) (System.AsksOnce E ctx py cfg) s events) :
    Throughout (System.next E ctx py cfg)
      (fun s => ∀ deposit, (s.node.state.conversions deposit).length ≤ 1) s events := by
  have hrun := hasks.throughout (P := fun s => s.node.ConvertsOnce E)
    (fun s e ha h => convertsOnce_next h e ha) hstart
  refine throughout_iff.mpr fun pre hpre => ?_
  exact State.conversions_le_one (throughout_iff.mp hrun pre hpre).backed.state

end Relayer

/-! ## 3. Two prices -/

namespace Sample

open Relayer

/-- A hash that does not look at the id of a reserve operation, so that the ids the RPC builds are
    accepted. -/
def blind : Env :=
  { Env.standIn with
    crypto := { Crypto.standIn with
      sha256 := fun bytes =>
        let domain := Postcard.utf8 "MNA/mna-reserve/v1"
        if domain.isPrefixOf bytes then
          Crypto.standIn.sha256 (bytes.take (domain.length + 1) ++ bytes.drop (domain.length + 33))
        else Crypto.standIn.sha256 bytes } }

def oracleSettings : Settings := { settings with oracleUrl := true }

/-- One SOL, locked in the vault. -/
def solDeposit : Row where
  operationId := String.ofList (List.replicate 64 'c')
  direction := "inbound"
  status := "detected"
  assetId := settings.mnaAssetId
  address := accountText
  destination := ""
  amount := "1000000000"
  externalTransaction := "5sig"
  sourceBlock := 7

def solTables : Tables := { scanned.db.tables with operations := [solDeposit] }

/-- The deposit is noted and the node is fresh. -/
def solBeginning (E : Env) : System :=
  ⟨⟨solTables, solTables⟩, .fresh E (genesis 1) (genesisState 1), .idle⟩

/-- The call arrives while SOL is at `price` dollars. -/
def priced (price now : Nat) (lost : Option (Fault RelayerError)) : Passage where
  now := now
  oracle := .ok ⟨price, 0, now⟩
  reaches := true
  lost := lost
  command := fun _ => .ok ()

/-- The answer to the first attempt is lost, and the second one is made at another price. -/
def twoPrices : List SystemEvent :=
  [.poll (answers []) 1000, .turn (priced 150 1000 (some (.err .runtime))),
    .turn (priced 150 1000 none), .turn (priced 150 1000 none),
    .poll (answers []) 1010, .turn (priced 151 1010 none), .call (.produceBlock ⟨1020, none⟩ none)]

/-- The answer to the first attempt is lost, and the second one still has its price and time. -/
def onePrice : List SystemEvent :=
  [.poll (answers []) 1000, .turn (priced 150 1000 (some (.err .runtime))),
    .turn (priced 150 1000 none), .turn (priced 150 1000 none),
    .poll (answers []) 1010, .turn { priced 150 1000 none with now := 1010 },
    .call (.produceBlock ⟨1020, none⟩ none)]

/-- What waits in the node for a deposit, and what it has converted it by, is what is asked for. -/
theorem asksOnce_turn {E : Env} {cfg : Settings} {s : System} {p : Passage}
    (h : ∀ r ∈ unsent s.phase, ∀ o ∈ (conversionOf E rpcContext python cfg r p).toList,
      (∀ o' ∈ s.node.pendingMnaReserveOperations,
        E.crypto.mnaReserveOperationId o' = E.crypto.mnaReserveOperationId o) ∧
      ∀ e ∈ s.node.state.conversions r.externalTransaction,
        e.1 = E.crypto.mnaReserveOperationId o) :
    s.AsksOnce E rpcContext python cfg (.turn p) := by
  intro r rest o hphase hconverting i hconverts
  rw [hphase] at h
  obtain ⟨hqueue, hrecords⟩ := h r List.mem_cons_self o (Option.mem_toList.mpr hconverting.asked)
  rcases hconverts with ⟨o', hrecord, hverifies⟩ | ⟨o', ho', -, rfl⟩
  · refine hrecords (i, o') (List.mem_filter.mpr ⟨?_, decide_eq_true hverifies⟩)
    exact ExtTreeMap.mem_toList_iff_getElem?_eq_some.mpr hrecord
  · exact hqueue o' ho'

/-- A reserve operation's bytes behind its id. -/
def behindId (o : MnaReserveOperation) : List UInt8 :=
  Postcard.encode (o.kind, o.collateralAsset, o.address, o.amountUsdc, o.amountMna,
    o.collateralAmount, o.oraclePriceUsdMicroPerSol, o.oracleTimestamp, o.feeMna, o.destination,
    o.externalTransaction, o.memo)

theorem blind_reserveId (o : MnaReserveOperation) :
    blind.crypto.mnaReserveOperationId o = ⟨Crypto.standIn.sha256
      (Postcard.utf8 "MNA/mna-reserve/v1" ++ ([o.version] ++ behindId o))⟩ := by
  have hencode : canonicalEncode o = [o.version] ++ (o.operationId.bytes.toList ++ behindId o) := by
    simp only [canonicalEncode, behindId, Postcard.encode_pair]
    rfl
  have hdomain : (Postcard.utf8 "MNA/mna-reserve/v1").isPrefixOf
      (Postcard.utf8 "MNA/mna-reserve/v1" ++ canonicalEncode o) = true :=
    List.isPrefixOf_iff_prefix.mpr (List.prefix_append _ _)
  have hid : (o.operationId.bytes.toList ++ behindId o).drop 32 = behindId o :=
    List.drop_left' Vector.length_toList
  unfold Crypto.mnaReserveOperationId Crypto.sha256Domain blind
  simp only [hdomain, if_true, List.take_length_add_append, List.drop_length_add_append]
  rw [hencode]
  show Hash.mk (Crypto.standIn.sha256 ((_ ++ [o.version]) ++
    (o.operationId.bytes.toList ++ behindId o).drop 32)) = _
  rw [hid, List.append_assoc]

/-- The ids the RPC builds are accepted. -/
theorem blind_fixed (o : MnaReserveOperation) :
    blind.crypto.mnaReserveOperationId (Rpc.fillId blind.crypto o) =
      (Rpc.fillId blind.crypto o).operationId :=
  (blind_reserveId (Rpc.fillId blind.crypto o)).trans (blind_reserveId o).symm

end Sample

namespace Relayer

/-- The answer to the first attempt is lost, the second one is made at the same price and time, and
    the block has one conversion. -/
theorem converted_at_most_once_retried :
    Throughout (System.next Sample.blind Sample.rpcContext Sample.python Sample.oracleSettings)
        (fun s => ∀ deposit, (s.node.state.conversions deposit).length ≤ 1)
        (Sample.solBeginning Sample.blind) Sample.onePrice ∧
      ((runs (System.next Sample.blind Sample.rpcContext Sample.python Sample.oracleSettings)
        (Sample.solBeginning Sample.blind) Sample.onePrice).node.state.conversions "5sig").length
          = 1 := by
  refine ⟨converted_at_most_once Sample.blind Sample.rpcContext Sample.python
    Sample.oracleSettings _ _ (Node.convertsOnce_fresh (Sample.fromGenesis_genesis 1)) ⟨trivial,
      Sample.asksOnce_turn ?_, Sample.asksOnce_turn ?_, Sample.asksOnce_turn ?_, trivial,
      Sample.asksOnce_turn ?_, fun deposit i j hadds => ?_, trivial⟩, by decide +kernel⟩
  · decide +kernel
  · decide +kernel
  · decide +kernel
  · decide +kernel
  · cases hadds

/-- **A deposit is converted twice**: the answer to the first attempt is lost, and the second one is
    made at another price. -/
theorem deposit_converted_twice :
    (Sample.solBeginning Sample.blind).node.ConvertsOnce Sample.blind ∧
      (∀ o, Sample.blind.crypto.mnaReserveOperationId (Rpc.fillId Sample.blind.crypto o) =
        (Rpc.fillId Sample.blind.crypto o).operationId) ∧
      ((runs (System.next Sample.blind Sample.rpcContext Sample.python Sample.oracleSettings)
        (Sample.solBeginning Sample.blind) Sample.twoPrices).node.state.conversions "5sig").length
          = 2 :=
  ⟨Node.convertsOnce_fresh (Sample.fromGenesis_genesis 1), Sample.blind_fixed, by decide +kernel⟩

end Relayer

end WorldstreetChain
