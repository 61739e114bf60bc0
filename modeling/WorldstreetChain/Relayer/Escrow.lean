import WorldstreetChain.Ethereum.Escrow
import WorldstreetChain.Node.Assets
import WorldstreetChain.Relayer.Contracts
import WorldstreetChain.Relayer.Payout
import WorldstreetChain.Relayer.Submitted
import WorldstreetChain.Rpc.Transaction
import WorldstreetChain.State.Lanes

/-!
# What the contract holds and what the chain has minted

The contract for WETH on Ethereum, the relayer and the node as one machine. The contract emits
events, the relayer mints for them and sends releases for burns, and in between everybody calls the
contract and the node, and the relayer and the node are restarted as often as one pleases.

* `Relayer.Escrow.next` -- the three as a machine.
* `Relayer.Escrow.Honest` -- what can happen: logs are those of the contract, the node is asked for
  its own operations, and only the relayer mints and releases.
* `Relayer.Escrow.Sound` -- what holds in every state.
* `Relayer.escrow_covers_mints` -- **what is minted is held**, but for the burns that are paid out
  of the contract, whatever their asset.
-/

namespace WorldstreetChain

open Std Ethereum

namespace Relayer

/-! ## 1. The machine -/

/-- The command that the turn of a row runs. -/
def System.command (py : Python) (cfg : Settings) (s : System) : Option Command :=
  match s.phase with
  | .processing (r :: _) =>
    if r.direction = "inbound" then none else (releaseCommand py cfg r).toOption
  | _ => none

structure Escrow where
  system : System
  weth : WethBridge
  /-- The events the contract has emitted. -/
  deposited : List DepositEvent
  released : List ReleaseEvent
  /-- Commands whose transaction can be executed, once and again. -/
  inFlight : List Command

/-- What happens to the relayer and the node, a call of the contract by somebody else, and the
    execution of a transaction of the relayer. `sent` is whether the command of a turn hands its
    transaction to the chain. -/
inductive EscrowEvent where
  | system (e : SystemEvent) (sent : Bool)
  | weth (c : WethCall)
  | execute (k : Nat) (accepts : Bool)

/-- A mint of the asset has its deposit. -/
def Deposited (key : String) (deposits : List DepositEvent) (o : AssetOperation) : Prop :=
  o.kind = .mint → o.assetId.canonicalKey = key →
    ∃ e ∈ deposits, (⟨e.depositId⟩ : Hash) = o.operationId ∧ e.amount = o.amount.toNat

namespace Escrow

/-- A call of the contract. -/
def contract (s : Escrow) (c : WethCall) : Escrow :=
  { s with
    weth := s.weth.next c
    deposited := s.deposited ++ (s.weth.deposited c).toList
    released := s.released ++ (s.weth.released c).toList }

section Next

variable (E : Env) (ctx : Rpc.Context) (py : Python) (cfg : Settings)

def handed (s : Escrow) (sent : Bool) : SystemEvent → Option Command
  | .turn _ => if sent then s.system.command py cfg else none
  | _ => none

def next (s : Escrow) : EscrowEvent → Escrow
  | .system e sent =>
    { s with
      system := s.system.next E ctx py cfg e
      inFlight := s.inFlight ++ (s.handed py cfg sent e).toList }
  | .weth c => s.contract c
  | .execute k accepts =>
    match s.inFlight[k]? with
    | some (.cast burnId recipient amount) =>
      match castArguments burnId recipient amount with
      | some (id, recipient, amount) =>
        s.contract (.release s.weth.relayer id recipient amount accepts)
      | none => s
    | _ => s

end Next

/-- What can happen. The RPC of Ethereum answers the contract's logs for its asset, and the node's
    answers are about what it has on record; nobody else mints what was not deposited, or has the
    relayer's key; what is deposited fits the words of a log. -/
def Honest (key : String) (s : Escrow) : EscrowEvent → Prop
  | .system (.poll a _) _ =>
    (∀ logs, (key, .ok logs) ∈ a.sources → ∀ log ∈ logs, ∃ e ∈ s.deposited,
      ∃ topic transactionHash blockNumber, log = eventLog topic e transactionHash blockNumber) ∧
    ∀ views, a.burns = .ok views → ∃ addressText,
      views = Rpc.bridgeOperationsRecent addressText s.system.node
  | .system (.call c) _ => ∀ o ∈ c.assets, Deposited key s.deposited o
  | .weth (.deposit _ value _ destination) => value < 2 ^ 256 ∧ destination.length < 2 ^ 256
  | .weth (.release sender _ _ _ _) => sender ≠ s.weth.relayer
  | _ => True

end Escrow

/-! ## 2. What holds -/

/-- A burn whose release goes to the contract: of any asset but wrapped SOL. -/
def PaidInWeth (o : AssetOperation) : Prop :=
  o.kind = .burn ∧ ¬ "solana:WSOL:".toList.isPrefixOf o.assetId.canonicalKey.toList = true

instance (o : AssetOperation) : Decidable (PaidInWeth o) := inferInstanceAs (Decidable (_ ∧ _))

/-- A row of the table has its deposit, or its burn. -/
structure Row.Backed (E : Env) (key : String) (deposits : List DepositEvent) (n : Node) (r : Row) :
    Prop where
  inbound : r.direction = "inbound" → r.assetId = key → ∃ e ∈ deposits,
    r.operationId = Hash.toHex ⟨e.depositId⟩ ∧ r.amount = toString e.amount
  outbound : r.direction ≠ "inbound" → ∃ o, Node.HasOnRecord E o n ∧ o.kind = .burn ∧
    r.operationId = o.operationId.toHex ∧ r.assetId = o.assetId.canonicalKey ∧
      r.amount = toString o.amount.toNat

/-- A call to the contract has its burn. -/
def Command.Backed (E : Env) (n : Node) (c : Command) : Prop :=
  ∀ burnId recipient amount, c = .cast burnId recipient amount → ∃ o, Node.HasOnRecord E o n ∧
    PaidInWeth o ∧ burnId = o.operationId.toHex ∧ amount = toString o.amount.toNat

def Phase.rows : Phase → List Row
  | .idle => []
  | .processing rest => rest
  | .settling rest => rest

/-- What the node and the relayer hold is backed. -/
structure System.Backed (E : Env) (key : String) (deposits : List DepositEvent) (s : System) :
    Prop where
  node : Node.OnlyAssets E (Deposited key deposits) s.node
  rows : s.db.Every (Row.Backed E key deposits s.node)
  waiting : ∀ r ∈ s.phase.rows, r.Backed E key deposits s.node

/-- A release has its burn on record. -/
def Released (E : Env) (n : Node) (e : ReleaseEvent) : Prop :=
  ∃ o, Node.HasOnRecord E o n ∧ PaidInWeth o ∧ o.operationId = ⟨e.burnId⟩ ∧
    o.amount.toNat = e.amount

/-- What holds in every state. -/
structure Escrow.Sound (E : Env) (key : String) (s : Escrow) : Prop where
  booked : Booked s.weth s.deposited s.released
  sized : ∀ e ∈ s.deposited, e.amount < 2 ^ 256 ∧ e.destination.length < 2 ^ 256
  system : s.system.Backed E key s.deposited
  inFlight : ∀ c ∈ s.inFlight, c.Backed E s.system.node
  released : ∀ e ∈ s.released, Released E s.system.node e

/-! ## 3. What is written and what is read -/

section Read

variable {ctx : Rpc.Context} {py : Python} {cfg : Settings} {assetId topic transactionHash : String}
  {blockNumber : Nat} {e : DepositEvent} {r row : Row} {o : AssetOperation}
  {addressText : WorldstreetChain.Address → String}

/-- A row of the contract's log is the row of its deposit. -/
theorem depositRow_event (hamount : e.amount < 2 ^ 256) (hlength : e.destination.length < 2 ^ 256)
    (h : depositRow assetId (eventLog topic e transactionHash blockNumber) = .ok (some row)) :
    row.direction = "inbound" ∧ row.operationId = Hash.toHex ⟨e.depositId⟩ ∧
      row.amount = toString e.amount := by
  have hid : lower (removePrefix "0x".toList ("0x" ++ Hash.toHex ⟨e.depositId⟩).toList) =
      Hash.toHex ⟨e.depositId⟩ := by
    rw [String.toList_append, removePrefix_append, lower_hex]
  change (decodeDeposit (eventLog topic e transactionHash blockNumber).data >>= _) = _ at h
  rw [decodeDeposit_eventLog hamount hlength] at h
  obtain ⟨x, hx, h⟩ := Outcome.bind_eq_ok.mp h
  obtain ⟨destination, -, hx⟩ := Outcome.bind_eq_ok.mp hx
  cases hx
  cases h
  exact ⟨rfl, hid, rfl⟩

/-- A row of the node's list is the row of a burn. -/
theorem burnRow_fields (h : burnRow (Rpc.assetOperationView addressText o) = some row) :
    row.direction = "outbound" ∧ o.kind = .burn ∧ row.operationId = o.operationId.toHex ∧
      row.assetId = o.assetId.canonicalKey ∧ row.amount = toString o.amount.toNat := by
  obtain ⟨hkind, hid⟩ := burnRow_some h
  refine ⟨(burnRow_detected h).2, hkind, hid, ?_⟩
  unfold burnRow at h
  split at h
  · cases h
  dsimp only at h
  split at h
  · cases h
  · cases h
    exact ⟨rfl, rfl⟩

/-- The row of a transaction on Solana is of one of the assets the relayer has there. -/
theorem transactionRow_assetId {t : Transaction} {detail : Detail}
    (h : transactionRow py cfg t detail = .ok (some row)) :
    row.assetId ∈ [cfg.mnaAssetId, cfg.splUsdcAssetId, cfg.assetId] := by
  unfold transactionRow at h
  split at h
  · unfold solanaRow at h
    split at h
    · cases h
    split at h
    · cases h
    obtain ⟨deposit, hdeposit, h⟩ := Outcome.bind_eq_ok.mp h
    obtain ⟨⟨assetId, d⟩, rfl, rfl⟩ := Option.map_eq_some_iff.mp (Except.ok.inj h)
    show assetId ∈ _
    unfold solanaDeposit at hdeposit
    obtain ⟨mna, -, hdeposit⟩ := Outcome.bind_eq_ok.mp hdeposit
    obtain ⟨spl, -, hdeposit⟩ := Outcome.bind_eq_ok.mp hdeposit
    split at hdeposit
    · cases hdeposit
      exact List.mem_cons_self
    split at hdeposit
    · split at hdeposit
      · cases hdeposit
      · cases hdeposit
        exact List.mem_cons_of_mem _ List.mem_cons_self
    · obtain ⟨wsol, -, hdeposit⟩ := Outcome.bind_eq_ok.mp hdeposit
      obtain ⟨d', -, heq⟩ := Option.map_eq_some_iff.mp (Except.ok.inj hdeposit)
      cases heq
      exact List.mem_cons_of_mem _ (List.mem_cons_of_mem _ List.mem_cons_self)
  · have h := Except.ok.inj h
    simp only [custodyRow, Option.bind_eq_bind, Option.bind_eq_some_iff, Option.some.injEq] at h
    obtain ⟨_, -, _, -, _, -, rfl⟩ := h
    exact List.mem_cons_of_mem _ (List.mem_cons_of_mem _ List.mem_cons_self)

/-- What the node builds for a deposit's row. -/
theorem bridgeOperation_row
    (h : Rpc.bridgeOperation ctx .mint (bridgeMintParams cfg r) = .ok o) :
    Rpc.parseHash r.operationId = .ok o.operationId ∧ o.assetId.canonicalKey = r.assetId ∧
      Rpc.parseU128 r.amount = some o.amount := by
  unfold Rpc.bridgeOperation at h
  obtain ⟨-, h⟩ := rejectIf_bind_eq_ok.mp h
  obtain ⟨id, hid, h⟩ := Outcome.bind_eq_ok.mp h
  obtain ⟨asset, hasset, h⟩ := Outcome.bind_eq_ok.mp h
  obtain ⟨address, -, h⟩ := Outcome.bind_eq_ok.mp h
  obtain ⟨amount, hamount, h⟩ := Outcome.bind_eq_ok.mp h
  obtain ⟨-, h⟩ := rejectIf_bind_eq_ok.mp h
  cases h
  exact ⟨hid, Rpc.parseAssetId_canonicalKey hasset, orFail_eq_ok.mp hamount⟩

/-- The id of a command is read as the one it was written from. -/
theorem rawId_toHex (id : Hash) : rawId id.toHex = some id.bytes := by
  have hlength : id.bytes.toList.length = 32 := Vector.length_toList
  have hlead : ¬ ("0x".toList).isPrefixOf id.toHex.toList = true := by
    intro hp
    obtain ⟨rest, hrest⟩ := List.isPrefixOf_iff_prefix.mp hp
    exact (toHex_digits id 'x' (by rw [← hrest]; simp)).2 rfl
  unfold rawId
  rw [removePrefix, if_neg hlead, Hash.toList_toHex, Rpc.hexDecode_hexByte]
  dsimp only
  rw [dif_pos hlength]
  rfl

/-- What the contract is called with for a burn's row. -/
theorem castArguments_burn {id : Hash} {amount amount' : Nat} {recipient : String}
    {id' : Bytes32} {recipient' : Ethereum.Address}
    (h : castArguments id.toHex recipient (toString amount) = some (id', recipient', amount')) :
    id = ⟨id'⟩ ∧ amount = amount' := by
  unfold castArguments at h
  rw [rawId_toHex] at h
  obtain ⟨_, hid, h⟩ := Option.bind_eq_some_iff.mp h
  obtain ⟨bytes, -, h⟩ := Option.bind_eq_some_iff.mp h
  obtain ⟨value, hvalue, h⟩ := Option.bind_eq_some_iff.mp h
  split at h
  · cases h
    cases hid
    exact ⟨rfl, (Rpc.parseU128_eq_some hvalue).symm⟩
  · cases h

end Read

/-! ## 4. What a step keeps -/

section Rows

variable {E : Env} {key : String} {deposits deposits' : List DepositEvent} {n n' : Node}
  {r : Row} {o : AssetOperation} {c : Command} {py : Python} {cfg : Settings}

theorem Deposited.mono (h : Deposited key deposits o) (hd : deposits ⊆ deposits') :
    Deposited key deposits' o := fun hkind hkey => by
  obtain ⟨e, he, heq⟩ := h hkind hkey
  exact ⟨e, hd he, heq⟩

theorem Row.Backed.mono (h : r.Backed E key deposits n) (hd : deposits ⊆ deposits')
    (hn : ∀ o, Node.HasOnRecord E o n → Node.HasOnRecord E o n') :
    r.Backed E key deposits' n' where
  inbound hdirection hasset := by
    obtain ⟨e, he, heq⟩ := h.inbound hdirection hasset
    exact ⟨e, hd he, heq⟩
  outbound hdirection := by
    obtain ⟨o, ho, heq⟩ := h.outbound hdirection
    exact ⟨o, hn o ho, heq⟩

/-- A status is nothing that a row is backed by. -/
theorem Row.Backed.status (h : r.Backed E key deposits n) (status : String) :
    Row.Backed E key deposits n { r with status } :=
  ⟨h.inbound, h.outbound⟩

theorem Command.Backed.mono (h : c.Backed E n)
    (hn : ∀ o, Node.HasOnRecord E o n → Node.HasOnRecord E o n') : c.Backed E n' :=
  fun burnId recipient amount hc => by
    obtain ⟨o, ho, heq⟩ := h burnId recipient amount hc
    exact ⟨o, hn o ho, heq⟩

/-- The contract is called for what is no wrapped SOL. -/
theorem releaseCommand_cast {burnId recipient amount : String}
    (h : releaseCommand py cfg r = .ok (.cast burnId recipient amount)) :
    burnId = r.operationId ∧ amount = r.amount ∧
      ¬ "solana:WSOL:".toList.isPrefixOf r.assetId.toList = true := by
  unfold releaseCommand at h
  split at h
  · unfold solanaReleaseCommand at h
    obtain ⟨-, h⟩ := rejectIf_bind_eq_ok.mp h
    obtain ⟨lamports, -, h⟩ := Outcome.bind_eq_ok.mp h
    obtain ⟨-, h⟩ := rejectIf_bind_eq_ok.mp h
    split at h
    · obtain ⟨-, h⟩ := rejectIf_bind_eq_ok.mp h
      cases h
    split at h
    · obtain ⟨-, h⟩ := rejectIf_bind_eq_ok.mp h
      cases h
    · obtain ⟨-, h⟩ := rejectIf_bind_eq_ok.mp h
      cases h
  · rename_i hroute
    obtain ⟨-, h⟩ := rejectIf_bind_eq_ok.mp h
    cases h
    exact ⟨rfl, rfl, hroute⟩

/-- The command of a burn's row. -/
theorem Row.Backed.command (h : r.Backed E key deposits n) (hdirection : r.direction ≠ "inbound")
    (hc : releaseCommand py cfg r = .ok c) : c.Backed E n := by
  rintro burnId recipient amount rfl
  obtain ⟨rfl, rfl, hroute⟩ := releaseCommand_cast hc
  obtain ⟨o, ho, hkind, hid, hasset, hamount⟩ := h.outbound hdirection
  exact ⟨o, ho, ⟨hkind, hasset ▸ hroute⟩, hid, hamount⟩

end Rows

section Cycle

variable {ω : Type} {O : Outside ω} {py : Python} {cfg : Settings} {r : Row} {d : Db} {w : ω}
  {P : Row → Prop}

/-- **What a submission asks for**, where the oracle changes nothing outside: nothing, one of the
    two mints, or a command. -/
theorem submit_cases (py : Python) (cfg : Settings) (r : Row) (w : ω)
    (horacle : ∀ w, (O.oracle w).state = w) :
    (submit O py cfg r w).state = w ∨
    (∃ q, (submit O py cfg r w).state = (O.mnaReserveMint q w).state) ∨
    (r.direction = "inbound" ∧ (submit O py cfg r w).state =
      (O.bridgeMint (bridgeMintParams cfg r) w).state) ∨
    ∃ c, (submit O py cfg r w).state = (O.execute c w).state := by
  unfold submit
  split
  · rename_i hdirection
    unfold submitMint
    split
    · have hasked : (if cfg.oracleUrl then O.oracle w else ⟨.error (.err .runtime), w⟩ :
          Applied RelayerError ω OracleAnswer).state = w := by
        split
        · exact horacle w
        · rfl
      dsimp only
      rw [hasked]
      split
      · exact Or.inl rfl
      · rename_i price published _
        cases mnaMintParams py cfg r price published with
        | error e => exact Or.inl rfl
        | ok q => exact Or.inr (Or.inl ⟨q, rfl⟩)
    · exact Or.inr (Or.inr (Or.inl ⟨hdirection, rfl⟩))
  · unfold submitRelease
    cases releaseCommand py cfg r with
    | error e => exact Or.inl rfl
    | ok c => exact Or.inr (Or.inr (Or.inr ⟨c, rfl⟩))

/-- A row's turn writes statuses only. -/
theorem processRow_every (hfree : ∀ r status, P r → P { r with status }) (h : d.Every P) :
    (processRow O py cfg r ⟨d, w⟩).state.db.Every P := by
  unfold processRow
  refine answered_rule h (fun note hnote => ?_) fun now => ?_
  · obtain ⟨u, -, rfl⟩ := Applied.map_result_eq_ok.mp hnote
    exact h.setStatus fun r' _ hr' => hfree r' _ hr'
  · exact h.markError now fun r' _ hr' => hfree r' _ hr'

theorem settleRow_every (hfree : ∀ r status, P r → P { r with status }) (h : d.Every P) :
    (settleRow O r ⟨d, w⟩).state.db.Every P := by
  have hcompleted : (d.setStatus r.operationId "completed").Every P :=
    h.setStatus fun r' _ hr' => hfree r' _ hr'
  unfold settleRow
  split
  · refine answered_rule h (fun note hnote => ?_) fun now => ?_
    · obtain ⟨status, -, rfl⟩ := Applied.map_result_eq_ok.mp hnote
      dsimp only
      split
      · exact hcompleted
      · exact h.commit
    · exact h.markError now fun r' _ hr' => hfree r' _ hr'
  · exact hcompleted

end Cycle

section Steps

variable {E : Env} {ctx : Rpc.Context} {py : Python} {cfg : Settings} {p : Passage} {key : String}
  {deposits deposits' : List DepositEvent} {n : Node} {r : Row} {s : System}

/-- **What a submission hands to the node** was deposited. -/
theorem submit_handsIn (hrow : r.Backed E key deposits n) :
    (submit (link E ctx p) py cfg r n).state = n ∨ ∃ c : Node.Call,
      (∀ o ∈ c.assets, Deposited key deposits o) ∧
        (submit (link E ctx p) py cfg r n).state = n.next E c := by
  have hcases := submit_cases (O := link E ctx p) py cfg r n fun _ => rfl
  rcases hcases with h | ⟨q, h⟩ | ⟨hdirection, h⟩ | ⟨c, h⟩
  · exact Or.inl h
  · have hstate : ((link E ctx p).mnaReserveMint q n).state =
        (p.carry n (Rpc.mnaReserve E ctx n "mna_reserve_mint" q)).state := rfl
    rw [h, hstate]
    rcases carry_state p n (Rpc.mnaReserve E ctx n "mna_reserve_mint" q) with hq | ⟨-, hq⟩
    · exact Or.inl hq
    · rw [hq]
      rcases Rpc.mnaReserve_state E ctx n "mna_reserve_mint" q with hm | ⟨o, -, hm⟩
      · exact Or.inl hm
      · exact Or.inr ⟨.submitMnaReserveOperation (Rpc.fillId E.crypto o),
          fun o ho => absurd ho List.not_mem_nil, hm⟩
  · have hstate : ((link E ctx p).bridgeMint (bridgeMintParams cfg r) n).state =
        (p.carry n (Rpc.bridgeAssetOperation ctx n .mint (bridgeMintParams cfg r))).state := rfl
    rw [h, hstate]
    rcases carry_state p n (Rpc.bridgeAssetOperation ctx n .mint (bridgeMintParams cfg r)) with
      hq | ⟨-, hq⟩
    · exact Or.inl hq
    · rw [hq]
      rcases Rpc.bridgeAssetOperation_state ctx n .mint (bridgeMintParams cfg r) with
        hm | ⟨o, hbuild, hm⟩
      · exact Or.inl hm
      · refine Or.inr ⟨.submitAssetOperation o, fun o' ho' => ?_, hm⟩
        rw [List.mem_singleton.mp ho']
        obtain ⟨hid, hasset, hamount⟩ := bridgeOperation_row hbuild
        intro _ hkey
        obtain ⟨e, he, hrowId, hrowAmount⟩ := hrow.inbound hdirection (hasset ▸ hkey)
        rw [hrowId, parseHash_toHex] at hid
        rw [hrowAmount] at hamount
        exact ⟨e, he, Except.ok.inj hid, (Rpc.parseU128_eq_some hamount).symm⟩
  · exact Or.inl h

/-- A submission loses nothing that is on record. -/
theorem submit_hasOnRecord {o : AssetOperation} (h : Node.HasOnRecord E o n) :
    Node.HasOnRecord E o (submit (link E ctx p) py cfg r n).state := by
  rcases submit_node E ctx py cfg p r n with hm | ⟨o', hm⟩ | ⟨o', -, hm⟩
  · rw [hm]
    exact h
  · rw [hm]
    exact h.next _
  · rw [hm]
    exact h.next _

/-- **Nothing takes an operation off the record.** -/
theorem System.next_hasOnRecord {o : AssetOperation} (h : Node.HasOnRecord E o s.node)
    (e : SystemEvent) : Node.HasOnRecord E o (s.next E ctx py cfg e).node := by
  cases e with
  | poll a now =>
    have hnode : (s.poll py cfg a now).node = s.node := by
      unfold System.poll
      split
      · dsimp only
        split
        · rfl
        · rfl
      · rfl
    exact (show Node.HasOnRecord E o (s.poll py cfg a now).node from hnode ▸ h)
  | turn p =>
    show Node.HasOnRecord E o (s.turn E ctx py cfg p).node
    rcases turn_node E ctx py cfg s p with hm | ⟨r, rest, -, hm⟩
    · rw [hm]
      exact h
    · rw [hm]
      exact submit_hasOnRecord h
  | restart => exact h
  | call c => exact h.next c
  | reopen io => exact h.reopened io

/-- More is deposited. -/
theorem System.Backed.mono (h : s.Backed E key deposits) (hd : deposits ⊆ deposits') :
    s.Backed E key deposits' where
  node := h.node.mono fun _ ho => ho.mono hd
  rows r hr := (h.rows r hr).mono hd fun _ ho => ho
  waiting r hr := (h.waiting r hr).mono hd fun _ ho => ho

/-- The node goes on. -/
theorem System.Backed.outside {n' : Node} (h : s.Backed E key deposits)
    (hnode : Node.OnlyAssets E (Deposited key deposits) n')
    (hkept : ∀ o, Node.HasOnRecord E o s.node → Node.HasOnRecord E o n') :
    System.Backed E key deposits { s with node := n' } where
  node := hnode
  rows r hr := (h.rows r hr).mono (List.Subset.refl _) hkept
  waiting r hr := (h.waiting r hr).mono (List.Subset.refl _) hkept

/-- A row's turn, and the rows that wait behind it. -/
theorem backed_took {out : Applied RelayerError (Site Node) Unit} {phase : Phase}
    (hnode : Node.OnlyAssets E (Deposited key deposits) out.state.outside)
    (hrows : out.state.db.Every (Row.Backed E key deposits out.state.outside))
    (hwaiting : ∀ r ∈ phase.rows, r.Backed E key deposits out.state.outside) :
    (took out phase).Backed E key deposits := by
  cases hresult : out.result with
  | ok u =>
    rw [took_ok hresult]
    exact ⟨hnode, hrows, hwaiting⟩
  | error e =>
    rw [took_error hresult]
    exact ⟨hnode, hrows.restart, fun r hr => absurd hr List.not_mem_nil⟩

/-- **A turn of the relayer.** -/
theorem backed_turn (h : s.Backed E key deposits) :
    (s.turn E ctx py cfg p).Backed E key deposits := by
  obtain ⟨d, n, phase⟩ := s
  obtain ⟨hnode, hrows, hwaiting⟩ := h
  cases phase with
  | idle => exact ⟨hnode, hrows, hwaiting⟩
  | processing rest =>
    cases rest with
    | nil =>
      refine ⟨hnode, hrows, fun r hr => hrows r (List.mem_append_left _ ?_)⟩
      exact List.mem_of_mem_filter hr
    | cons r rest =>
      have hkept : ∀ o, Node.HasOnRecord E o n →
          Node.HasOnRecord E o (submit (link E ctx p) py cfg r n).state :=
        fun o ho => submit_hasOnRecord ho
      have hafter : Node.OnlyAssets E (Deposited key deposits)
          (submit (link E ctx p) py cfg r n).state := by
        rcases submit_handsIn (hwaiting r List.mem_cons_self) with hm | ⟨c, hc, hm⟩
        · rw [hm]
          exact hnode
        · rw [hm]
          exact hnode.next hc
      show (took (processRow (link E ctx p) py cfg r ⟨d, n⟩) (.processing rest)).Backed E key
        deposits
      refine backed_took ?_ ?_ ?_
      · rw [processRow_node]
        exact hafter
      · rw [processRow_node]
        refine processRow_every (fun r' status hr' => hr'.status status) fun r' hr' => ?_
        exact (hrows r' hr').mono (List.Subset.refl _) hkept
      · rw [processRow_node]
        exact fun r' hr' =>
          (hwaiting r' (List.mem_cons_of_mem _ hr')).mono (List.Subset.refl _) hkept
  | settling rest =>
    cases rest with
    | nil => exact ⟨hnode, hrows, fun r hr => absurd hr List.not_mem_nil⟩
    | cons r rest =>
      show (took (settleRow (link E ctx p) r ⟨d, n⟩) (.settling rest)).Backed E key deposits
      refine backed_took ?_ ?_ ?_
      · rw [settleRow_node]
        exact hnode
      · rw [settleRow_node]
        exact settleRow_every (fun r' status hr' => hr'.status status) hrows
      · rw [settleRow_node]
        exact fun r' hr' => hwaiting r' (List.mem_cons_of_mem _ hr')

/-- **A row that a poll notes** has its deposit or its burn. -/
theorem arrives_backed {a : Answers} {row : Row} {now : Nat} {sent : Bool} {w : Escrow}
    (hw : w.Sound E key) (hhonest : w.Honest key (.system (.poll a now) sent))
    (hapart : key ∉ [cfg.mnaAssetId, cfg.splUsdcAssetId, cfg.assetId])
    (h : Arrives py cfg a row) : row.Backed E key w.deposited w.system.node := by
  obtain ⟨hlogs, hburns⟩ := hhonest
  cases h with
  | log assetId logs log hsource hlog hrow =>
    obtain ⟨-, hdirection, hasset⟩ := depositRow_some hrow
    refine ⟨fun _ hkey => ?_, fun hne => absurd hdirection hne⟩
    rw [hasset] at hkey
    subst hkey
    obtain ⟨e, he, topic, transactionHash, blockNumber, rfl⟩ := hlogs logs hsource log hlog
    obtain ⟨hamount, hlength⟩ := hw.sized e he
    exact ⟨e, he, (depositRow_event hamount hlength hrow).2⟩
  | transaction history t detail hanswer ht hfound hrow =>
    have hasset := transactionRow_assetId hrow
    obtain ⟨assetId, deposit, rfl⟩ := transactionRow_some hrow
    exact ⟨fun _ hkey => absurd (hkey ▸ hasset) hapart, fun hne => absurd rfl hne⟩
  | burn views v hanswer hv hrow =>
    obtain ⟨addressText, rfl⟩ := hburns views hanswer
    obtain ⟨o, ho, rfl⟩ := List.mem_map.mp hv
    obtain ⟨hdirection, hkind, hfields⟩ := burnRow_fields hrow
    have hrec := Rpc.recent_recorded hw.system.node.backed.state.recorded ho
    refine ⟨fun hinbound => ?_, fun _ => ⟨o, hw.system.node.keeps hrec, hkind, hfields⟩⟩
    rw [hdirection] at hinbound
    exact absurd hinbound (by decide)

/-- **The polls of an iteration.** -/
theorem backed_poll {a : Answers} {now : Nat} (h : s.Backed E key deposits)
    (hrows : ∀ row, Arrives py cfg a row → row.Backed E key deposits s.node) :
    (s.poll py cfg a now).Backed E key deposits := by
  have hpolled : (polled py cfg a s.db).state.Every (Row.Backed E key deposits s.node) :=
    PollSteps.polls ⟨⟨fun d row hrow hd => hd.insert (hrows row hrow), fun _ _ hd => hd,
      fun _ hd => hd.commit⟩, fun _ _ hd => hd⟩ h.rows
  unfold System.poll
  split
  · dsimp only
    split
    · refine ⟨h.node, hpolled, fun r hr => hpolled r (List.mem_append_left _ ?_)⟩
      exact List.mem_of_mem_filter (List.mem_of_mem_take hr)
    · exact ⟨h.node, hpolled, h.waiting⟩
  · exact h

/-- The command of a turn has its burn. -/
theorem command_backed {c : Command} (h : s.Backed E key deposits)
    (hc : s.command py cfg = some c) : c.Backed E s.node := by
  unfold System.command at hc
  split at hc
  · rename_i r rest hphase
    split at hc
    · cases hc
    · rename_i hdirection
      have hwaiting : r.Backed E key deposits s.node :=
        h.waiting r (hphase ▸ List.mem_cons_self)
      cases hcommand : releaseCommand py cfg r with
      | error e =>
        rw [hcommand] at hc
        cases hc
      | ok c' =>
        rw [hcommand] at hc
        cases hc
        exact hwaiting.command hdirection hcommand
  · cases hc

end Steps

namespace Escrow

variable {E : Env} {ctx : Rpc.Context} {py : Python} {cfg : Settings} {key : String} {s : Escrow}

/-- **An event of the relayer or the node.** -/
theorem Sound.system_next (h : s.Sound E key)
    (hapart : key ∉ [cfg.mnaAssetId, cfg.splUsdcAssetId, cfg.assetId]) {e : SystemEvent}
    {sent : Bool} (hhonest : s.Honest key (.system e sent)) :
    (s.next E ctx py cfg (.system e sent)).Sound E key := by
  have hkept : ∀ o, Node.HasOnRecord E o s.system.node →
      Node.HasOnRecord E o (s.system.next E ctx py cfg e).node :=
    fun o ho => System.next_hasOnRecord ho e
  have hsystem : (s.system.next E ctx py cfg e).Backed E key s.deposited := by
    cases e with
    | poll a now =>
      exact backed_poll h.system fun row hrow => arrives_backed h hhonest hapart hrow
    | turn p => exact backed_turn h.system
    | restart => exact ⟨h.system.node, h.system.rows.restart, fun r hr => absurd hr List.not_mem_nil⟩
    | call c => exact h.system.outside (h.system.node.next hhonest) hkept
    | reopen io => exact h.system.outside (h.system.node.reopened io) hkept
  refine ⟨h.booked, h.sized, hsystem, fun c hc => ?_, fun e' he' => ?_⟩
  · rcases List.mem_append.mp hc with hc | hc
    · exact (h.inFlight c hc).mono hkept
    · refine Command.Backed.mono ?_ hkept
      unfold handed at hc
      split at hc
      · split at hc
        · exact command_backed h.system (Option.mem_toList.mp hc)
        · cases hc
      · cases hc
  · obtain ⟨o, ho, hpaid⟩ := h.released e' he'
    exact ⟨o, hkept o ho, hpaid⟩

/-- **A call of the contract** that pays for burns on record only. -/
theorem Sound.contract (h : s.Sound E key) (c : WethCall)
    (hsized : ∀ e ∈ s.weth.deposited c, e.amount < 2 ^ 256 ∧ e.destination.length < 2 ^ 256)
    (hreleased : ∀ e ∈ s.weth.released c, Released E s.system.node e) :
    (s.contract c).Sound E key := by
  refine ⟨h.booked.next c, fun e he => ?_, h.system.mono (List.subset_append_left _ _), h.inFlight,
    fun e he => ?_⟩
  · rcases List.mem_append.mp he with he | he
    · exact h.sized e he
    · exact hsized e (Option.mem_toList.mp he)
  · rcases List.mem_append.mp he with he | he
    · exact h.released e he
    · exact hreleased e (Option.mem_toList.mp he)

/-- What a call that is no release by the relayer emits. -/
theorem released_honest {c : WethCall} (h : s.Honest key (.weth c)) :
    s.weth.released c = none := by
  cases c with
  | release sender id recipient amount accepts =>
    show (s.weth.release sender id recipient amount accepts).toOption.map Prod.snd = none
    cases hr : s.weth.release sender id recipient amount accepts with
    | error e => rfl
    | ok r => exact absurd (WethBridge.release_balance hr).1 h
  | deposit sender value id destination => rfl
  | receive value => rfl

/-- **The execution of a transaction of the relayer.** -/
theorem Sound.execute (h : s.Sound E key) (k : Nat) (accepts : Bool) :
    (s.next E ctx py cfg (.execute k accepts)).Sound E key := by
  unfold next
  dsimp only
  split
  · rename_i burnId recipient amount hc
    have hcommand := h.inFlight _ (List.mem_of_getElem? hc)
    split
    · rename_i id recipient' amount' harguments
      obtain ⟨o, ho, hpaid, rfl, rfl⟩ := hcommand _ _ _ rfl
      obtain ⟨hid, hamount⟩ := castArguments_burn harguments
      refine h.contract _ (fun e he => by cases he) fun e he => ⟨o, ho, hpaid, ?_⟩
      unfold WethBridge.released at he
      dsimp only at he
      cases hr : s.weth.release s.weth.relayer id recipient' amount' accepts with
      | error e' =>
        rw [hr] at he
        cases he
      | ok r =>
        rw [hr] at he
        cases he
        obtain ⟨-, hevent, -⟩ := WethBridge.release_marks hr
        rw [hevent]
        exact ⟨hid, hamount⟩
    · exact h
  · exact h

/-- **Every event.** -/
theorem Sound.next (h : s.Sound E key)
    (hapart : key ∉ [cfg.mnaAssetId, cfg.splUsdcAssetId, cfg.assetId]) {event : EscrowEvent}
    (hhonest : s.Honest key event) : (s.next E ctx py cfg event).Sound E key := by
  cases event with
  | system e sent => exact h.system_next hapart hhonest
  | weth c =>
    refine Sound.contract h c (fun e he => ?_) fun e he => ?_
    · cases c with
      | deposit sender value id destination =>
        obtain ⟨hvalue, hlength⟩ := hhonest
        unfold WethBridge.deposited at he
        dsimp only at he
        cases hd : s.weth.deposit sender value id destination with
        | error e' =>
          rw [hd] at he
          cases he
        | ok r =>
          rw [hd] at he
          cases he
          rw [(WethBridge.deposit_marks hd).2.1]
          exact ⟨hvalue, hlength⟩
      | release sender id recipient amount accepts => cases he
      | receive value => cases he
    · rw [released_honest hhonest] at he
      cases he
  | execute k accepts => exact h.execute k accepts

end Escrow

/-! ## 5. What is minted and what is held -/

/-- What the burns on record whose releases go to the contract add up to. -/
def paidInWeth (s : State) : Nat :=
  BTreeMap.total (fun (_ : Hash) (o : AssetOperation) => if PaidInWeth o then o.amount.toNat else 0)
    s.assetOperationRecords

namespace Escrow

/-- A contract, a relayer without rows and a fresh node. -/
def start (E : Env) (genesis : GenesisConfig) (s : State) (d : Db) (weth : WethBridge) : Escrow where
  system := ⟨d, Node.fresh E genesis s, .idle⟩
  weth := weth
  deposited := []
  released := []
  inFlight := []

/-- The contract covers what is minted of its asset. -/
structure Covered (key : String) (s : Escrow) : Prop where
  /-- Every mint has a deposit of its own. -/
  minted : ∀ (id : Hash) o, s.system.node.state.assetOperationRecords[id]? = some o →
    o.operationId = id ∧ Deposited key s.deposited o
  /-- Every release has a burn of its own. -/
  paid : ∀ e ∈ s.released, ∃ o, s.system.node.state.assetOperationRecords[(⟨e.burnId⟩ : Hash)]? =
    some o ∧ PaidInWeth o ∧ o.amount.toNat = e.amount
  deposits : (s.deposited.map DepositEvent.depositId).Nodup
  releases : (s.released.map ReleaseEvent.burnId).Nodup
  /-- What is minted is held, but for the burns. -/
  held : s.system.node.state.bridged .mint key ≤ s.weth.balance + paidInWeth s.system.node.state

section Run

variable {E : Env} {ctx : Rpc.Context} {py : Python} {cfg : Settings} {key : String} {s : Escrow}

theorem nodup_ids {α : Type} {l : List α} {id : α → Bytes32} (h : (l.map id).Nodup) :
    (l.map fun a => (⟨id a⟩ : Hash)).Nodup := by
  have hmap := h.map (f := Hash.mk) fun _ _ heq => Hash.mk.inj heq
  rwa [List.map_map] at hmap

theorem Sound.covered (h : s.Sound E key) : s.Covered key := by
  have hrecorded := h.system.node.backed.state
  have hpaid : ∀ e ∈ s.released, ∃ o, s.system.node.state.assetOperationRecords[
      (⟨e.burnId⟩ : Hash)]? = some o ∧ PaidInWeth o ∧ o.amount.toNat = e.amount := by
    intro e he
    obtain ⟨o, ho, hpaid, hid, hamount⟩ := h.released e he
    exact ⟨o, hid ▸ ho.state.2, hpaid, hamount⟩
  have hmints : s.system.node.state.bridged .mint key ≤
      (s.deposited.map DepositEvent.amount).sum := by
    have hmatched : ∀ (id : Hash) o, s.system.node.state.assetOperationRecords[id]? = some o →
        (if o.kind = .mint ∧ o.assetId.canonicalKey = key then o.amount.toNat else 0) = 0 ∨
          ∃ e ∈ s.deposited, (⟨e.depositId⟩ : Hash) = id ∧
            (if o.kind = .mint ∧ o.assetId.canonicalKey = key then o.amount.toNat else 0) ≤
              e.amount := by
      intro id o hid
      split
      · rename_i hmint
        obtain ⟨e, he, heq, hamount⟩ := hrecorded.holds id o hid hmint.1 hmint.2
        exact Or.inr ⟨e, he, heq.trans (hrecorded.recorded.named id o hid),
          Nat.le_of_eq hamount.symm⟩
      · exact Or.inl rfl
    exact BTreeMap.total_le_sum hmatched
  have hreleases : (s.released.map ReleaseEvent.amount).sum ≤
      paidInWeth s.system.node.state := by
    refine BTreeMap.sum_le_total (nodup_ids h.booked.releaseIds) fun e he => ?_
    obtain ⟨o, ho, hweth, hamount⟩ := hpaid e he
    exact ⟨o, ho, by rw [if_pos hweth, hamount]⟩
  have hheld := h.booked.held
  exact ⟨fun id o hid => ⟨hrecorded.recorded.named id o hid, hrecorded.holds id o hid⟩, hpaid,
    h.booked.depositIds, h.booked.releaseIds, by omega⟩

theorem sound_start {genesis : GenesisConfig} {st : State} (hgenesis : State.fromGenesis genesis =
    .ok st) {d : Db} (hrows : d.Every fun _ => False) (weth : WethBridge) :
    (start E genesis st d weth).Sound E key where
  booked := .start weth
  sized _ he := absurd he List.not_mem_nil
  system := ⟨Node.onlyAssets_fresh hgenesis, fun r hr => (hrows r hr).elim,
    fun _ hr => absurd hr List.not_mem_nil⟩
  inFlight _ hc := absurd hc List.not_mem_nil
  released _ he := absurd he List.not_mem_nil

end Run

end Escrow

/-- **The contract covers what is minted of its asset**, in every state of a run from its
    deployment on: every mint has a deposit of its own, every release has a burn on record of its
    own, and what is minted is held, but for the burns whose releases go to the contract. -/
theorem escrow_covers_mints (E : Env) (ctx : Rpc.Context) (py : Python) (cfg : Settings)
    (key : String) (hapart : key ∉ [cfg.mnaAssetId, cfg.splUsdcAssetId, cfg.assetId])
    {genesis : GenesisConfig} {st : State} (hgenesis : State.fromGenesis genesis = .ok st) {d : Db}
    (hrows : d.Every fun _ => False) (weth : WethBridge) (events : List EscrowEvent)
    (hhonest : EachStep (Escrow.next E ctx py cfg) (Escrow.Honest key)
      (Escrow.start E genesis st d weth) events) :
    Throughout (Escrow.next E ctx py cfg) (Escrow.Covered key) (Escrow.start E genesis st d weth)
      events := by
  have hrun := hhonest.throughout (P := Escrow.Sound E key)
    (fun s event hh h => h.next hapart hh) (Escrow.sound_start hgenesis hrows weth)
  exact throughout_iff.mpr fun pre hpre => (throughout_iff.mp hrun pre hpre).covered

end Relayer

/-! ## 6. A deposit, a burn and a release -/

namespace Sample

open Relayer

def wethKey : String := "ethereum:WETH:sepolia:bridge"

def wethContract : WethBridge where
  relayer := Vector.replicate 20 1
  deposits _ := false
  releases _ := false
  balance := 0

def wethDeposit : DepositEvent :=
  ⟨Vector.replicate 32 0xaa, Vector.replicate 20 9, 5, Postcard.utf8 accountText⟩

def wethLog : DepositLog := eventLog "0x01" wethDeposit "ab" 7

def wethBurn : AssetOperation where
  version := 1
  operationId := ⟨Vector.replicate 32 0xbb⟩
  kind := .burn
  assetId := .wrapped "ethereum" "WETH" "sepolia:bridge" 18
  address := address
  destination := "0x0202020202020202020202020202020202020202"
  amount := 3
  externalTransaction := ""
  memo := ""

def escrow : Escrow := .start tagged (genesis 1) (genesisState 1) beginning.db wethContract

/-- A deposit of 5 is minted, and 3 of it are burned. -/
def mintedAndBurned : List EscrowEvent :=
  [.weth (.deposit wethDeposit.sender 5 wethDeposit.depositId wethDeposit.destination),
    .system (.poll (answers [wethLog]) 0) true, .system (.turn clearPassage) true,
    .system (.call tick) true, .system (.turn clearPassage) true, .system (.turn clearPassage) true,
    .system (.turn clearPassage) true, .system (.call (.submitAssetOperation wethBurn)) true,
    .system (.call tick) true]

def burned : Escrow := runs (Escrow.next tagged rpcContext python settings) escrow mintedAndBurned

def burnAnswers : Answers :=
  { answers [] with burns := .ok (Rpc.bridgeOperationsRecent (fun _ => accountText) burned.system.node) }

/-- The burn is released. -/
def paidOut : List EscrowEvent :=
  [.system (.poll burnAnswers 0) true, .system (.turn clearPassage) true, .execute 0 true]

theorem every_beginning : beginning.db.Every fun _ => False :=
  fun _ hr => absurd hr List.not_mem_nil

theorem wethKey_apart :
    wethKey ∉ [settings.mnaAssetId, settings.splUsdcAssetId, settings.assetId] := by
  decide +kernel

theorem honest_tick (s : Escrow) : s.Honest wethKey (.system (.call tick) true) :=
  fun _ ho => absurd ho List.not_mem_nil

theorem honest_mintedAndBurned : EachStep (Escrow.next tagged rpcContext python settings)
    (Escrow.Honest wethKey) escrow mintedAndBurned := by
  refine ⟨⟨by decide, by decide⟩, ⟨fun logs hlogs log hlog => ?_, fun views hviews => ?_⟩, trivial,
    honest_tick _, trivial, trivial, trivial, fun o ho hkind => ?_, honest_tick _, trivial⟩
  · cases List.mem_singleton.mp hlogs
    exact ⟨wethDeposit, List.mem_singleton_self _, "0x01", "ab", 7, List.mem_singleton.mp hlog⟩
  · exact ⟨fun _ => accountText, (Except.ok.inj hviews).symm⟩
  · rw [List.mem_singleton.mp ho] at hkind
    cases hkind

theorem honest_paidOut : EachStep (Escrow.next tagged rpcContext python settings)
    (Escrow.Honest wethKey) burned paidOut := by
  refine ⟨⟨fun logs hlogs log hlog => ?_, fun views hviews => ?_⟩, trivial, trivial, trivial⟩
  · cases List.mem_singleton.mp hlogs
    cases hlog
  · exact ⟨fun _ => accountText, (Except.ok.inj hviews).symm⟩

end Sample

namespace Relayer

/-- A run in which 5 are deposited and 3 burned and released. -/
theorem escrow_covers_mints_paidOut :
    ((runs (Escrow.next Sample.tagged Sample.rpcContext Sample.python Sample.settings)
      Sample.escrow (Sample.mintedAndBurned ++ Sample.paidOut)).Covered Sample.wethKey) ∧
    (runs (Escrow.next Sample.tagged Sample.rpcContext Sample.python Sample.settings)
      Sample.escrow (Sample.mintedAndBurned ++ Sample.paidOut)).weth.balance = 2 := by
  refine ⟨?_, by decide +kernel⟩
  exact (escrow_covers_mints Sample.tagged Sample.rpcContext Sample.python Sample.settings
    Sample.wethKey Sample.wethKey_apart (Sample.fromGenesis_genesis 1) Sample.every_beginning
    Sample.wethContract (Sample.mintedAndBurned ++ Sample.paidOut)
    (eachStep_append.mpr ⟨Sample.honest_mintedAndBurned, Sample.honest_paidOut⟩)).last

end Relayer

end WorldstreetChain
