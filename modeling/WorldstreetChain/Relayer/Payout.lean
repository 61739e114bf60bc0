import WorldstreetChain.Ethereum.Bridge
import WorldstreetChain.Relayer.Iteration
import WorldstreetChain.Solana.Release

/-!
# Payments for burns (`submit_release` and what it reaches)

A release is a transaction that is handed to a chain and may be executed there later, whatever the
relayer is told. The contract and the program refuse a burn id they have marked; a plain transfer
of the custody mode is not refused.

* `Relayer.Chains` -- the chains, with the transactions that are on their way and those that have
  paid.
* `Relayer.PayoutSafe` -- what holds in every state of a run.
* `Relayer.paid_at_most_once` -- **a burn is paid at most once**, if every transfer that may be
  executed was reported as a success.
-/

namespace WorldstreetChain

namespace Relayer

open Solana

/-! ## 1. The client -/

/-- The client of the bridge program: the cluster, the key it signs with, the vault's token account,
    the mint, and how it reads a key in base 58. -/
structure Client where
  cluster : Cluster
  authority : Pubkey
  vaultTokens : Pubkey
  mint : Pubkey
  pubkey : String → Option Pubkey

/-- `id`: 32 bytes in hexadecimal digits. -/
def rawId (text : String) : Option (Vector UInt8 32) :=
  match Rpc.hexDecode (removePrefix "0x".toList text.toList) with
  | some bytes => if h : bytes.length = 32 then some ⟨bytes.toArray, h⟩ else none
  | none => none

def releaseInput (tag : UInt8) (amount : Nat) (id : Vector UInt8 32) : List UInt8 :=
  tag :: ((Crypto.leBytes amount 8).toList ++ id.toList)

namespace Client

variable (K : Client)

/-- The instruction of `release`; the key that signs pays the fee, so its account is writable. -/
def release (recipient : String) (amount : Nat) (burnId : String) : Option Invocation := do
  guard (0 < amount ∧ amount < 2 ^ 64)
  let id ← rawId burnId
  let recipient ← K.pubkey recipient
  some
    { accounts := [⟨K.authority, true, true⟩, ⟨statePda K.cluster, false, false⟩,
        ⟨vaultPda K.cluster, false, true⟩, ⟨recipient, false, true⟩,
        ⟨K.cluster.address (releaseSeeds id), false, true⟩, ⟨systemProgram, false, false⟩]
      input := releaseInput tagReleaseNativeSol amount id }

/-- The instruction of `release-spl`. -/
def releaseSpl (recipientTokens : String) (amount : Nat) (burnId : String) : Option Invocation := do
  guard (0 < amount ∧ amount < 2 ^ 64)
  let id ← rawId burnId
  let recipientTokens ← K.pubkey recipientTokens
  some
    { accounts := [⟨K.authority, true, true⟩, ⟨statePda K.cluster, false, false⟩,
        ⟨K.vaultTokens, false, true⟩, ⟨recipientTokens, false, true⟩, ⟨K.mint, false, false⟩,
        ⟨K.cluster.address (splReleaseSeeds id), false, true⟩, ⟨splTokenProgramId, false, false⟩,
        ⟨systemProgram, false, false⟩]
      input := releaseInput tagReleaseSpl amount id }

/-- The instruction of a command, if it is one of the client's. -/
def invocation : Command → Option Invocation
  | .release recipient amount burnId => K.release recipient amount burnId
  | .releaseSpl recipientTokens amount burnId => K.releaseSpl recipientTokens amount burnId
  | _ => none

end Client

/-- The arguments of `cast send` as it reads them. -/
def castArguments (burnId recipient amount : String) :
    Option (Ethereum.Bytes32 × Ethereum.Address × Nat) := do
  let id ← rawId burnId
  let bytes ← Rpc.hexDecode (recipient.toList.drop 2)
  let amount ← Rpc.parseU128 amount
  if h : bytes.length = 20 then some (id, ⟨bytes.toArray, h⟩, amount.toNat) else none

/-! ## 2. The chains -/

def Command.burnId : Command → String
  | .cast burnId _ _ => burnId
  | .release _ _ burnId => burnId
  | .releaseSpl _ _ burnId => burnId
  | .transfer _ _ burnId => burnId

def Command.isTransfer : Command → Bool
  | .transfer _ _ _ => true
  | _ => false

/-- What comes of a command: whether its transaction is handed to the chain, and what the relayer is
    told. -/
structure Decision where
  sent : Bool
  reply : Outcome RelayerError Unit

/-- What the relayer is told in an iteration. -/
structure Replies where
  now : Nat
  oracle : Outcome RelayerError OracleAnswer
  mint : String → Outcome RelayerError Unit
  status : String → Outcome RelayerError Rpc.OperationStatus
  command : Command → Decision

structure Chains where
  weth : Ethereum.WethBridge
  ledger : Ledger
  /-- Transactions that may still be executed. -/
  inFlight : List Command
  /-- Commands whose transaction has paid. -/
  paid : List Command
  replies : Replies

/-- A command hands its transaction to the chain or does not, and is answered. -/
def chains : Outside Chains where
  now w := w.replies.now
  oracle w := ⟨w.replies.oracle, w⟩
  bridgeMint p w := ⟨w.replies.mint p.operationId, w⟩
  mnaReserveMint p w := ⟨w.replies.mint p.externalTransaction, w⟩
  bridgeOperationStatus id w := ⟨w.replies.status id, w⟩
  execute c w :=
    ⟨(w.replies.command c).reply,
      if (w.replies.command c).sent then { w with inFlight := w.inFlight ++ [c] } else w⟩

namespace Chains

/-- A transaction is executed: it pays, or it fails and changes nothing. `accepts` is whether the
    recipient takes the value. -/
def execute (K : Client) (w : Chains) (c : Command) (accepts : Bool) : Chains :=
  match c with
  | .cast burnId recipient amount =>
    match castArguments burnId recipient amount with
    | none => w
    | some (id, recipient, amount) =>
      match w.weth.release w.weth.relayer id recipient amount accepts with
      | .ok (weth, _) => { w with weth, paid := w.paid ++ [c] }
      | .error _ => w
  | .transfer _ _ _ => { w with paid := w.paid ++ [c] }
  | .release _ _ _ | .releaseSpl _ _ _ =>
    match K.invocation c with
    | none => w
    | some i =>
      match processInstruction K.cluster w.ledger i with
      | .ok ledger => { w with ledger, paid := w.paid ++ [c] }
      | .error _ => w

end Chains

/-! ## 3. Runs -/

/-- An iteration of the relayer, its restart, the execution of a transaction on its way, and what
    others do on the chains. -/
inductive PayoutEvent where
  | iterate (a : Answers) (r : Replies)
  | restart
  | execute (k : Nat) (accepts : Bool)
  | weth (c : Ethereum.WethCall)
  | solana (e : Event)

section Runs

variable (K : Client) (py : Python) (cfg : Settings)

def payoutNext (s : Site Chains) : PayoutEvent → Site Chains
  | .iterate a r =>
    (iteration chains py cfg a { s with outside := { s.outside with replies := r } }).state
  | .restart => { s with db := s.db.restart }
  | .execute k accepts =>
    match s.outside.inFlight[k]? with
    | none => s
    | some c =>
      { s with
        outside :=
          ({ s.outside with inFlight := s.outside.inFlight.eraseIdx k } : Chains).execute K c
            accepts }
  | .weth c => { s with outside := { s.outside with weth := s.outside.weth.next c } }
  | .solana e =>
    { s with outside := { s.outside with ledger := Solana.next K.cluster s.outside.ledger e } }

/-- What can happen: on Solana what its rules allow. -/
def Possible (known : List Seeds) (s : Site Chains) : PayoutEvent → Prop
  | .execute k _ => ∀ c, s.outside.inFlight[k]? = some c → ∀ i, K.invocation c = some i →
    Admissible K.cluster known i
  | .solana e => Allowed K.cluster known s.outside.ledger e
  | _ => True

/-- In custody mode every transfer that is handed over is reported as a success. -/
def Reported : PayoutEvent → Prop
  | .iterate _ r => cfg.programMode = false → ∀ c, c.isTransfer = true →
    (r.command c).sent = true → (r.command c).reply = .ok ()
  | _ => True

end Runs

/-! ## 4. The rows -/

def closedStatus (status : String) : Prop := status = "release_submitted" ∨ status = "completed"

section Rows

variable {py : Python} {cfg : Settings} {r r' row : Row} {rows : List Row} {c : Command}

theorem Row.eq_of_key (py : Python) (cfg : Settings) (h : r.key = r'.key) :
    r.operationId = r'.operationId ∧
    r.direction = r'.direction ∧ releaseCommand py cfg r = releaseCommand py cfg r' := by
  have hcommand : ∀ r : Row, releaseCommand py cfg r.key = releaseCommand py cfg r := fun _ => rfl
  have hid : r.key.operationId = r'.key.operationId := by rw [h]
  have hdirection : r.key.direction = r'.key.direction := by rw [h]
  refine ⟨hid, hdirection, ?_⟩
  rw [← hcommand r, h, hcommand]

theorem releaseCommand_ok (h : releaseCommand py cfg r = .ok c) :
    c.burnId = r.operationId ∧ (c.isTransfer = true → cfg.programMode = false) := by
  unfold releaseCommand at h
  split at h
  · unfold solanaReleaseCommand at h
    obtain ⟨-, h⟩ := rejectIf_bind_eq_ok.mp h
    obtain ⟨lamports, -, h⟩ := Outcome.bind_eq_ok.mp h
    obtain ⟨-, h⟩ := rejectIf_bind_eq_ok.mp h
    split at h
    · obtain ⟨-, h⟩ := rejectIf_bind_eq_ok.mp h
      cases h
      exact ⟨rfl, fun h => by cases h⟩
    split at h
    · obtain ⟨-, h⟩ := rejectIf_bind_eq_ok.mp h
      cases h
      exact ⟨rfl, fun h => by cases h⟩
    · rename_i hmode
      obtain ⟨-, h⟩ := rejectIf_bind_eq_ok.mp h
      cases h
      exact ⟨rfl, fun _ => Bool.eq_false_of_not_eq_true hmode⟩
  · obtain ⟨-, h⟩ := rejectIf_bind_eq_ok.mp h
    cases h
    exact ⟨rfl, fun h => by cases h⟩

end Rows

/-- **The rows and the commands**: every command was asked for by a committed row, and the row of a
    transfer is closed. -/
structure Filed (py : Python) (cfg : Settings) (L : List Command) (d : Db) : Prop where
  ids : (d.tables.operations.map Row.operationId).Nodup
  committedIds : (d.committed.operations.map Row.operationId).Nodup
  keys : d.committed.operations.map Row.key ⊆ d.tables.operations.map Row.key
  asked : ∀ c ∈ L, ∃ r ∈ d.committed.operations,
    r.direction ≠ "inbound" ∧ releaseCommand py cfg r = .ok c
  closed : ∀ c ∈ L, c.isTransfer = true → ∀ r ∈ d.committed.operations ++ d.tables.operations,
    r.operationId = c.burnId → closedStatus r.status

section Filed

variable {py : Python} {cfg : Settings} {L L' : List Command} {d : Db} {c : Command}

theorem Filed.mono (h : Filed py cfg L d) (hsub : ∀ c ∈ L', c ∈ L) : Filed py cfg L' d :=
  ⟨h.ids, h.committedIds, h.keys, fun c hc => h.asked c (hsub c hc),
    fun c hc => h.closed c (hsub c hc)⟩

/-- The row of a command, in the table. -/
theorem Filed.row (h : Filed py cfg L d) (hc : c ∈ L) : ∃ r ∈ d.tables.operations,
    r.operationId = c.burnId ∧ r.direction ≠ "inbound" ∧ releaseCommand py cfg r = .ok c := by
  obtain ⟨r, hr, hdirection, hcommand⟩ := h.asked c hc
  obtain ⟨r', hr', hkey⟩ := List.mem_map.mp (h.keys (List.mem_map.mpr ⟨r, hr, rfl⟩))
  obtain ⟨hid, hdir, hcom⟩ := Row.eq_of_key py cfg hkey
  refine ⟨r', hr', ?_, hdir ▸ hdirection, hcom.trans hcommand⟩
  rw [hid, (releaseCommand_ok hcommand).1]

theorem Filed.commit (h : Filed py cfg L d) : Filed py cfg L d.commit where
  ids := h.ids
  committedIds := h.ids
  keys := List.Subset.refl _
  asked c hc := by
    obtain ⟨r, hr, -, hdirection, hcommand⟩ := h.row hc
    exact ⟨r, hr, hdirection, hcommand⟩
  closed c hc ht r hr := by
    refine h.closed c hc ht r (List.mem_append_right _ ?_)
    exact (List.mem_append.mp hr).elim id id

theorem Filed.restart (h : Filed py cfg L d) : Filed py cfg L d.restart where
  ids := h.committedIds
  committedIds := h.committedIds
  keys := List.Subset.refl _
  asked := h.asked
  closed c hc ht r hr := by
    refine h.closed c hc ht r (List.mem_append_left _ ?_)
    exact (List.mem_append.mp hr).elim id id

/-- The polls file new rows only. -/
theorem filed_pollSteps (a : Answers) : PollSteps py cfg a (Filed py cfg L) where
  row d row hrow h := by
    have hsub := subset_insertOrIgnore d.tables.operations row
    refine ⟨nodup_insertOrIgnore h.ids row, h.committedIds,
      List.Subset.trans h.keys (List.map_subset _ hsub), h.asked, fun c hc ht r hr hid => ?_⟩
    rcases List.mem_append.mp hr with hr | hr
    · exact h.closed c hc ht r (List.mem_append_left _ hr) hid
    · obtain ⟨r', hr', hid', -, -⟩ := h.row hc
      have heq := row_eq (nodup_insertOrIgnore h.ids row) hr (hsub hr') (hid.trans hid'.symm)
      rw [heq]
      exact h.closed c hc ht r' (List.mem_append_right _ hr') hid'
  ethBlock _ _ h := ⟨h.ids, h.committedIds, h.keys, h.asked, h.closed⟩
  solanaSignature _ _ h := ⟨h.ids, h.committedIds, h.keys, h.asked, h.closed⟩
  commit _ h := h.commit

/-- An update of a status, as long as no transfer's row is opened by it. -/
theorem Filed.setStatus (h : Filed py cfg L d) {id status : String}
    (hclosed : ∀ c ∈ L, c.isTransfer = true → c.burnId = id → closedStatus status) :
    Filed py cfg L (d.setStatus id status) := by
  have hnodup := nodup_setStatus h.ids id status
  refine ⟨hnodup, hnodup, List.Subset.refl _, fun c hc => ?_, fun c hc ht r hr hid => ?_⟩
  · obtain ⟨r, hr, -, hdirection, hcommand⟩ := h.row hc
    have hkey : r.key ∈ (d.setStatus id status).tables.operations.map Row.key := by
      rw [setStatus_keys]
      exact List.mem_map.mpr ⟨r, hr, rfl⟩
    obtain ⟨r', hr', hkey'⟩ := List.mem_map.mp hkey
    obtain ⟨-, hdir, hcom⟩ := Row.eq_of_key py cfg hkey'
    exact ⟨r', hr', hdir ▸ hdirection, hcom.trans hcommand⟩
  · have hr : r ∈ (d.setStatus id status).tables.operations :=
      (List.mem_append.mp hr).elim (fun h => h) fun h => h
    obtain ⟨r', hr', hkey, ⟨hid', hstatus⟩ | ⟨-, rfl⟩⟩ := mem_setStatus hr
    · rw [hstatus]
      exact hclosed c hc ht (hid.symm.trans hid')
    · exact h.closed c hc ht r' (List.mem_append_right _ hr') hid

theorem Filed.markError (h : Filed py cfg L d) (now : Nat) {id : String}
    (hopen : ∀ c ∈ L, c.isTransfer = true → c.burnId ≠ id) :
    Filed py cfg L (d.markError now id) := by
  have hcount : Filed py cfg L (d.countAttempt now id) :=
    ⟨h.ids, h.committedIds, h.keys, h.asked, h.closed⟩
  exact hcount.setStatus fun c hc ht hid => absurd hid (hopen c hc ht)

/-- One more command, asked for by its row. -/
theorem Filed.add (h : Filed py cfg L d) (hrow : ∃ r ∈ d.committed.operations,
    r.direction ≠ "inbound" ∧ releaseCommand py cfg r = .ok c)
    (hclosed : c.isTransfer = true → ∀ r ∈ d.committed.operations ++ d.tables.operations,
      r.operationId = c.burnId → closedStatus r.status) : Filed py cfg (c :: L) d where
  ids := h.ids
  committedIds := h.committedIds
  keys := h.keys
  asked c' hc' := by
    rcases List.mem_cons.mp hc' with rfl | hc'
    · exact hrow
    · exact h.asked c' hc'
  closed c' hc' := by
    rcases List.mem_cons.mp hc' with rfl | hc'
    · exact hclosed
    · exact h.closed c' hc'

end Filed

/-! ## 5. A cycle -/

/-- In a cycle: the commands and their rows, and the rows whose turn is still to come. Nothing is
    executed meanwhile. -/
structure Turn (py : Python) (cfg : Settings) (w : Chains) (rest : List Row) (s : Site Chains) :
    Prop where
  filed : Filed py cfg (s.outside.inFlight ++ s.outside.paid) s.db
  committed : s.db.committed = s.db.tables
  rows : ∀ r ∈ rest, r.key ∈ s.db.tables.operations.map Row.key
  transfers : ∀ c, c.isTransfer = true → (s.outside.inFlight ++ s.outside.paid).count c ≤ 1
  weth : s.outside.weth = w.weth
  ledger : s.outside.ledger = w.ledger
  paid : s.outside.paid = w.paid
  replies : s.outside.replies = w.replies

/-- The rows that are due: none is there twice, and none is the row of a transfer. -/
structure DueTurn (py : Python) (cfg : Settings) (w : Chains) (rest : List Row) (s : Site Chains) :
    Prop extends Turn py cfg w rest s where
  once : (rest.map Row.operationId).Nodup
  unpaid : ∀ r ∈ rest, ∀ c ∈ s.outside.inFlight ++ s.outside.paid, c.isTransfer = true →
    c.burnId ≠ r.operationId

section Cycle

variable {py : Python} {cfg : Settings} {w : Chains} {r : Row} {rest : List Row} {s : Site Chains}

theorem Turn.tail (h : Turn py cfg w (r :: rest) s) : Turn py cfg w rest s :=
  { h with rows := fun r' hr' => h.rows r' (List.mem_cons_of_mem r hr') }

/-- An update of the row of a status leaves what a cycle needs. -/
theorem Turn.setStatus (h : Turn py cfg w rest s) {id status : String}
    (hclosed : ∀ c ∈ s.outside.inFlight ++ s.outside.paid, c.isTransfer = true → c.burnId = id →
      closedStatus status) : Turn py cfg w rest { s with db := s.db.setStatus id status } :=
  { h with
    filed := h.filed.setStatus hclosed
    committed := rfl
    rows := fun r hr => by
      show r.key ∈ (s.db.setStatus id status).tables.operations.map Row.key
      rw [setStatus_keys]
      exact h.rows r hr }

theorem Turn.markError (h : Turn py cfg w rest s) (now : Nat) {id : String}
    (hopen : ∀ c ∈ s.outside.inFlight ++ s.outside.paid, c.isTransfer = true → c.burnId ≠ id) :
    Turn py cfg w rest { s with db := s.db.markError now id } :=
  { h with
    filed := h.filed.markError now hopen
    committed := rfl
    rows := fun r hr => by
      show r.key ∈ ((s.db.countAttempt now id).setStatus id "retry").tables.operations.map Row.key
      rw [setStatus_keys]
      exact h.rows r hr }

/-- What the answer to a call leaves that has not touched the chains. -/
theorem Turn.answered {id : String} {asked : Applied RelayerError Chains (Db → Db)}
    (h : Turn py cfg w rest s) (hstate : asked.state = s.outside)
    (hnote : ∀ note, asked.result = .ok note → Turn py cfg w rest { s with db := note s.db })
    (hopen : ∀ c ∈ s.outside.inFlight ++ s.outside.paid, c.isTransfer = true → c.burnId ≠ id) :
    Turn py cfg w rest (answered chains s.db id asked).state := by
  unfold Relayer.answered
  rw [hstate]
  split
  · rename_i note hresult
    exact hnote note hresult
  · exact h.markError _ hopen
  · exact h

theorem submitMint_state (op : Row) (w : Chains) : (submitMint chains py cfg op w).state = w := by
  unfold submitMint
  split
  · dsimp only
    split
    · split
      · rfl
      · rfl
    · rename_i price published hprice
      cases mnaMintParams py cfg op price published with
      | error e =>
        show (if cfg.oracleUrl then _ else _ : Applied RelayerError Chains OracleAnswer).state = w
        split
        · rfl
        · rfl
      | ok p =>
        show (if cfg.oracleUrl then _ else _ : Applied RelayerError Chains OracleAnswer).state = w
        split
        · rfl
        · rfl
  · rfl

/-- The row of the table that a row of a cycle stands for. -/
theorem Turn.row (h : Turn py cfg w (r :: rest) s) : ∃ r' ∈ s.db.committed.operations,
    r'.operationId = r.operationId ∧ r'.direction = r.direction ∧
      releaseCommand py cfg r' = releaseCommand py cfg r := by
  obtain ⟨r', hr', hkey⟩ := List.mem_map.mp (h.rows r List.mem_cons_self)
  obtain ⟨hid, hdirection, hcommand⟩ := Row.eq_of_key py cfg hkey
  exact ⟨r', h.committed ▸ hr', hid, hdirection, hcommand⟩

/-- A deposit's row is the row of no transfer. -/
theorem Turn.inbound (h : Turn py cfg w (r :: rest) s) (hr : r.direction = "inbound") {c : Command}
    (hc : c ∈ s.outside.inFlight ++ s.outside.paid) : c.burnId ≠ r.operationId := by
  intro hid
  obtain ⟨r1, hr1, hid1, hdirection1, -⟩ := h.row
  obtain ⟨r2, hr2, hid2, hdirection2, -⟩ := h.filed.row hc
  have hsame : r1 = r2 :=
    row_eq h.filed.ids (h.committed ▸ hr1) hr2 (hid1.trans (hid.symm.trans hid2.symm))
  exact hdirection2 (hsame ▸ hdirection1.trans hr)

/-- A command that is handed over joins the others. -/
theorem Turn.sent {c : Command} (h : Turn py cfg w (r :: rest) s)
    (hr : r.direction ≠ "inbound") (hc : releaseCommand py cfg r = .ok c)
    (hclosed : c.isTransfer = true → ∀ r' ∈ s.db.committed.operations ++ s.db.tables.operations,
      r'.operationId = c.burnId → closedStatus r'.status)
    (hnew : c.isTransfer = true → c ∉ s.outside.inFlight ++ s.outside.paid) :
    Turn py cfg w (r :: rest)
      { s with outside := { s.outside with inFlight := s.outside.inFlight ++ [c] } } := by
  have hperm : (s.outside.inFlight ++ [c] ++ s.outside.paid).Perm
      (c :: (s.outside.inFlight ++ s.outside.paid)) := by
    rw [List.append_assoc]
    exact List.perm_middle
  obtain ⟨r', hr', -, hdirection, hcommand⟩ := h.row
  have hfiled := h.filed.add ⟨r', hr', hdirection ▸ hr, hcommand.trans hc⟩ hclosed
  refine
    { h with
      filed := hfiled.mono fun c hc => hperm.subset hc
      transfers := fun c' ht => ?_ }
  show (s.outside.inFlight ++ [c] ++ s.outside.paid).count c' ≤ 1
  rw [hperm.count_eq, List.count_cons]
  split
  · rename_i heq
    have heq : c = c' := beq_iff_eq.mp heq
    rw [List.count_eq_zero.mpr (heq ▸ hnew (heq ▸ ht))]
  · exact h.transfers c' ht

theorem DueTurn.next (h : DueTurn py cfg w (r :: rest) s) {s' : Site Chains}
    (hturn : Turn py cfg w (r :: rest) s')
    (hsame : ∀ c ∈ s'.outside.inFlight ++ s'.outside.paid,
      c ∈ s.outside.inFlight ++ s.outside.paid ∨ c.burnId = r.operationId) :
    DueTurn py cfg w rest s' where
  toTurn := hturn.tail
  once := (List.nodup_cons.mp h.once).2
  unpaid r' hr' c hc ht hid := by
    rcases hsame c hc with hc | hc
    · exact h.unpaid r' (List.mem_cons_of_mem r hr') c hc ht hid
    · refine (List.nodup_cons.mp h.once).1 (List.mem_map.mpr ⟨r', hr', ?_⟩)
      exact hid.symm.trans hc

/-- The answer to a command, with what its row notes. -/
def asked (r : Row) (c : Command) (s : Site Chains) : Applied RelayerError Chains (Db → Db) :=
  (chains.execute c s.outside).map fun _ d => d.setStatus r.operationId (submittedStatus r)

theorem asked_sent {c : Command} (hsent : (s.outside.replies.command c).sent = true) :
    (asked r c s).state = { s.outside with inFlight := s.outside.inFlight ++ [c] } := if_pos hsent

theorem mem_sent {c c' : Command}
    (h : c' ∈ s.outside.inFlight ++ [c] ++ s.outside.paid) :
    c' ∈ s.outside.inFlight ++ s.outside.paid ∨ c' = c := by
  simp only [List.mem_append, List.mem_singleton] at h ⊢
  tauto

/-- A call to a contract or to the program is handed over: the destination refuses a second one,
    whatever the relayer is told. -/
theorem DueTurn.guarded {c : Command} (h : DueTurn py cfg w (r :: rest) s)
    (hr : r.direction ≠ "inbound") (hc : releaseCommand py cfg r = .ok c)
    (ht : c.isTransfer = false) (hsent : (s.outside.replies.command c).sent = true) :
    Turn py cfg w (r :: rest) (answered chains s.db r.operationId (asked r c s)).state := by
  have hturn := h.toTurn.sent hr hc (fun h => by rw [ht] at h; cases h)
    (fun h => by rw [ht] at h; cases h)
  have hopen : ∀ c' ∈ s.outside.inFlight ++ [c] ++ s.outside.paid, c'.isTransfer = true →
      c'.burnId ≠ r.operationId := by
    intro c' hc' ht'
    rcases mem_sent hc' with hc' | rfl
    · exact h.unpaid r List.mem_cons_self c' hc' ht'
    · rw [ht] at ht'
      cases ht'
  refine hturn.answered (asked_sent hsent) (fun note hnote => ?_) hopen
  obtain ⟨_, -, rfl⟩ := Applied.map_result_eq_ok.mp hnote
  exact hturn.setStatus fun c hc ht hid => absurd hid (hopen c hc ht)

/-- A transfer is handed over and reported as a success: its row is closed. -/
theorem DueTurn.transferred {c : Command} (h : DueTurn py cfg w (r :: rest) s)
    (hr : r.direction ≠ "inbound") (hc : releaseCommand py cfg r = .ok c)
    (ht : c.isTransfer = true) (hsent : (s.outside.replies.command c).sent = true)
    (hreply : (s.outside.replies.command c).reply = .ok ()) :
    Turn py cfg w (r :: rest) (answered chains s.db r.operationId (asked r c s)).state := by
  have hopen := h.unpaid r List.mem_cons_self
  have hid := (releaseCommand_ok hc).1
  have hclosed : closedStatus (submittedStatus r) := Or.inl (if_neg hr)
  have hset : Turn py cfg w (r :: rest)
      { s with db := s.db.setStatus r.operationId (submittedStatus r) } :=
    h.toTurn.setStatus fun c' hc' ht' hid' => absurd hid' (hopen c' hc' ht')
  have hresult : (asked r c s).result =
      .ok fun d => d.setStatus r.operationId (submittedStatus r) :=
    Applied.map_result_eq_ok.mpr ⟨(), hreply, rfl⟩
  have heq : answered chains s.db r.operationId (asked r c s) = ⟨.ok (),
      ⟨s.db.setStatus r.operationId (submittedStatus r),
        { s.outside with inFlight := s.outside.inFlight ++ [c] }⟩⟩ := by
    unfold answered
    rw [hresult, asked_sent hsent]
  rw [heq]
  refine hset.sent hr hc (fun _ r' hr' hid' => ?_) fun _ hmem => hopen c hmem ht hid
  have hr' : r' ∈ (s.db.setStatus r.operationId (submittedStatus r)).tables.operations :=
    (List.mem_append.mp hr').elim (fun h => h) fun h => h
  obtain ⟨_, -, -, ⟨-, hstatus⟩ | ⟨hne, -⟩⟩ := mem_setStatus hr'
  · exact hstatus ▸ hclosed
  · exact absurd (hid'.trans hid) hne

/-- **A burn's turn**: a transfer is handed over only as its row is closed. -/
theorem DueTurn.outbound (h : DueTurn py cfg w (r :: rest) s) (hr : r.direction ≠ "inbound")
    (hreported : cfg.programMode = false → ∀ c, c.isTransfer = true →
      (w.replies.command c).sent = true → (w.replies.command c).reply = .ok ()) :
    DueTurn py cfg w rest (processRow chains py cfg r s).state := by
  have hopen := h.unpaid r List.mem_cons_self
  unfold processRow submit
  rw [if_neg hr]
  unfold submitRelease
  cases hc : releaseCommand py cfg r with
  | error e =>
    refine h.next (h.toTurn.answered rfl (fun note hnote => ?_) hopen) fun c hc => Or.inl ?_
    · obtain ⟨_, hok, -⟩ := Applied.map_result_eq_ok.mp hnote
      cases hok
    · rw [answered_outside] at hc
      exact hc
  | ok c =>
    rw [Applied.attempt_ok]
    by_cases hsent : (s.outside.replies.command c).sent = true
    · refine h.next ?_ fun c' hc' => ?_
      · show Turn py cfg w (r :: rest) (answered chains s.db r.operationId (asked r c s)).state
        cases ht : c.isTransfer with
        | false => exact h.guarded hr hc ht hsent
        | true =>
          refine h.transferred hr hc ht hsent ?_
          rw [h.replies] at hsent ⊢
          exact hreported ((releaseCommand_ok hc).2 ht) c ht hsent
      · have hstate := asked_sent (r := r) hsent
        unfold asked at hstate
        rw [answered_outside, hstate] at hc'
        refine (mem_sent hc').imp_right fun heq => ?_
        rw [heq]
        exact (releaseCommand_ok hc).1
    · have hstate : ((chains.execute c s.outside).map fun _ (d : Db) =>
          d.setStatus r.operationId (submittedStatus r)).state = s.outside := if_neg hsent
      refine h.next (h.toTurn.answered hstate (fun note hnote => ?_) hopen) fun c hc => Or.inl ?_
      · obtain ⟨_, -, rfl⟩ := Applied.map_result_eq_ok.mp hnote
        exact h.toTurn.setStatus fun c hc ht hid => absurd hid (hopen c hc ht)
      · rw [answered_outside, hstate] at hc
        exact hc

theorem DueTurn.process (h : DueTurn py cfg w (r :: rest) s)
    (hreported : cfg.programMode = false → ∀ c, c.isTransfer = true →
      (w.replies.command c).sent = true → (w.replies.command c).reply = .ok ()) :
    DueTurn py cfg w rest (processRow chains py cfg r s).state := by
  by_cases hr : r.direction = "inbound"
  · have hopen := h.unpaid r List.mem_cons_self
    have hstate : ((submit chains py cfg r s.outside).map fun _ (d : Db) =>
        d.setStatus r.operationId (submittedStatus r)).state = s.outside := by
      unfold submit
      rw [if_pos hr]
      exact submitMint_state r s.outside
    refine h.next (h.toTurn.answered hstate (fun note hnote => ?_) hopen) fun c hc => Or.inl ?_
    · obtain ⟨_, -, rfl⟩ := Applied.map_result_eq_ok.mp hnote
      exact h.toTurn.setStatus fun c hc ht hid => absurd hid (hopen c hc ht)
    · unfold processRow at hc
      rw [answered_outside, hstate] at hc
      exact hc
  · exact h.outbound hr hreported

/-- **A submitted row's turn.** -/
theorem Turn.settle (h : Turn py cfg w (r :: rest) s) :
    Turn py cfg w rest (settleRow chains r s).state := by
  refine Turn.tail (r := r) ?_
  unfold settleRow
  by_cases hr : r.direction = "inbound"
  · rw [if_pos hr]
    have hopen : ∀ c ∈ s.outside.inFlight ++ s.outside.paid, c.isTransfer = true →
        c.burnId ≠ r.operationId := fun c hc _ => h.inbound hr hc
    refine h.answered rfl (fun note hnote => ?_) hopen
    obtain ⟨status, -, rfl⟩ := Applied.map_result_eq_ok.mp hnote
    dsimp only
    split
    · exact h.setStatus fun c hc ht hid => absurd hid (hopen c hc ht)
    · exact { h with filed := h.filed.commit, committed := rfl }
  · rw [if_neg hr]
    exact h.setStatus fun _ _ _ _ => Or.inr rfl

/-- **A cycle** keeps the commands filed, and hands over no transfer twice. -/
theorem turn_process (h : Turn py cfg s.outside [] s)
    (hreported : cfg.programMode = false → ∀ c, c.isTransfer = true →
      (s.outside.replies.command c).sent = true → (s.outside.replies.command c).reply = .ok ()) :
    Turn py cfg s.outside [] (processOperations chains py cfg s).state := by
  have hdue : DueTurn py cfg s.outside (due (chains.now s.outside) s.db.tables) s := by
    have hsub : (due (chains.now s.outside) s.db.tables).Sublist s.db.tables.operations :=
      (List.take_sublist _ _).trans List.filter_sublist
    refine
      { h with
        rows := fun r hr => List.mem_map.mpr ⟨r, hsub.subset hr, rfl⟩
        once := h.filed.ids.sublist (hsub.map _)
        unpaid := fun r hr c hc ht hid => ?_ }
    have hclosed := h.filed.closed c hc ht r (List.mem_append_right _ (hsub.subset hr)) hid.symm
    have hopen := (List.mem_filter.mp ((List.take_sublist _ _).subset hr)).2
    rcases hclosed with hstatus | hstatus
    · rw [hstatus] at hopen
      simp at hopen
    · rw [hstatus] at hopen
      simp at hopen
  obtain ⟨rest, hfirst⟩ := eachRow_turns
    (fun r rest s' (hs : DueTurn py cfg s.outside (r :: rest) s') => hs.process hreported) hdue
  have hfirst : Turn py cfg s.outside [] (eachRow (processRow chains py cfg)
      (due (chains.now s.outside) s.db.tables) s).state :=
    { hfirst.toTurn with rows := fun r hr => by cases hr }
  unfold processOperations
  refine Applied.andThen_rule hfirst fun _ _ => ?_
  have hsubmitted : Turn py cfg s.outside (submitted (eachRow (processRow chains py cfg)
      (due (chains.now s.outside) s.db.tables) s).state.db.tables) _ :=
    { hfirst with rows := fun r hr => List.mem_map.mpr ⟨r, (List.mem_filter.mp hr).1, rfl⟩ }
  obtain ⟨rest', hsecond⟩ := eachRow_turns
    (fun r rest s' (hs : Turn py cfg s.outside (r :: rest) s') => hs.settle) hsubmitted
  exact { hsecond with rows := fun r hr => by cases hr }

end Cycle

/-! ## 6. What the chains refuse -/

/-- The destination has marked the burn of a command; nothing marks that of a transfer. -/
def Spent (K : Client) (known : List Seeds) (weth : Ethereum.WethBridge) (ledger : Ledger) :
    Command → Prop
  | .cast burnId recipient amount => ∃ x, castArguments burnId recipient amount = some x ∧
    weth.releases x.1 = true
  | .transfer _ _ _ => False
  | c => ∃ i s, K.invocation c = some i ∧ i.marker = some s ∧ s ∈ known ∧
    Marked K.cluster ledger (K.cluster.address s)

/-- Marks stay. -/
structure Grows (K : Client) (weth weth' : Ethereum.WethBridge) (ledger ledger' : Ledger) :
    Prop where
  releases : ∀ id, weth.releases id = true → weth'.releases id = true
  marked : ∀ k, k ≠ vaultPda K.cluster → Marked K.cluster ledger k → Marked K.cluster ledger' k

section Spent

variable {K : Client} {known : List Seeds} {weth weth' : Ethereum.WethBridge}
  {ledger ledger' : Ledger} {c : Command} {w : Chains}

theorem Spent.grows (hd : Derived K.cluster known) (hgrows : Grows K weth weth' ledger ledger')
    (h : Spent K known weth ledger c) : Spent K known weth' ledger' c := by
  cases c with
  | cast burnId recipient amount =>
    obtain ⟨x, hx, hmark⟩ := h
    exact ⟨x, hx, hgrows.releases _ hmark⟩
  | transfer => exact h
  | release recipient amount burnId =>
    obtain ⟨i, s, hi, hm, hs, hmark⟩ := h
    exact ⟨i, s, hi, hm, hs, hgrows.marked _ (hd.marker_ne hs hm).2 hmark⟩
  | releaseSpl recipientToken amount burnId =>
    obtain ⟨i, s, hi, hm, hs, hmark⟩ := h
    exact ⟨i, s, hi, hm, hs, hgrows.marked _ (hd.marker_ne hs hm).2 hmark⟩

/-- The instructions of the client leave a marker. -/
theorem marker_releaseInput {i : Invocation} {tag : UInt8} {amount : Nat} {id : Vector UInt8 32}
    (htag : tag = tagReleaseNativeSol ∨ tag = tagReleaseSpl)
    (hinput : i.input = releaseInput tag amount id) : ∃ s, i.marker = some s := by
  have hread : readId (((Crypto.leBytes amount 8).toList ++ id.toList).drop 8) = .ok id := by
    rw [List.drop_left' (Vector.length_toList), readId, dif_pos (by simp)]
    congr 1
    exact Vector.toList_inj.mp (by simp)
  rw [marker_eq hinput hread]
  rcases htag with rfl | rfl
  · exact ⟨releaseSeeds id, rfl⟩
  · exact ⟨splReleaseSeeds id, rfl⟩

theorem invocation_marker {i : Invocation} (h : K.invocation c = some i) :
    ∃ s, i.marker = some s := by
  cases c with
  | cast => cases h
  | transfer => cases h
  | release recipient amount burnId =>
    simp only [Client.invocation, Client.release, Option.bind_eq_bind, Option.bind_eq_some_iff,
      Option.some.injEq] at h
    obtain ⟨-, -, id, -, key, -, rfl⟩ := h
    exact marker_releaseInput (Or.inl rfl) rfl
  | releaseSpl recipientToken amount burnId =>
    simp only [Client.invocation, Client.releaseSpl, Option.bind_eq_bind, Option.bind_eq_some_iff,
      Option.some.injEq] at h
    obtain ⟨-, -, id, -, key, -, rfl⟩ := h
    exact marker_releaseInput (Or.inr rfl) rfl

/-- What the execution of a command leaves that pays. -/
structure Pays (K : Client) (known : List Seeds) (w : Chains) (c : Command) (w' : Chains) :
    Prop where
  paid : w'.paid = w.paid ++ [c]
  inFlight : w'.inFlight = w.inFlight
  grows : Grows K w.weth w'.weth w.ledger w'.ledger
  ledger : Inv K.cluster known w'.ledger
  unspent : c.isTransfer = false → ¬ Spent K known w.weth w.ledger c
  spent : c.isTransfer = false → Spent K known w'.weth w'.ledger c

theorem Grows.refl : Grows K weth weth ledger ledger := ⟨fun _ h => h, fun _ _ h => h⟩

theorem pays_invocation (hC : K.cluster.Lawful) (hd : Derived K.cluster known)
    (hinv : Inv K.cluster known w.ledger) {i : Invocation} (hi : K.invocation c = some i)
    (hspent : ∀ weth ledger, Spent K known weth ledger c ↔ ∃ i s, K.invocation c = some i ∧
      i.marker = some s ∧ s ∈ known ∧ Marked K.cluster ledger (K.cluster.address s))
    (hadm : Admissible K.cluster known i)
    (hp : processInstruction K.cluster w.ledger i = .ok ledger') :
    Pays K known w c { w with ledger := ledger', paid := w.paid ++ [c] } := by
  have hnext : Solana.next K.cluster w.ledger (.call i) = ledger' := by
    simp only [Solana.next, hp]
  obtain ⟨s, hs⟩ := invocation_marker hi
  have hstep := callStep hC hd hinv hadm (process_effect hC hp)
  obtain ⟨hold, hnew, hlamports⟩ := hstep.marker s hs
  refine ⟨rfl, rfl, ⟨fun _ h => h, fun k hk hm => ?_⟩, ?_, fun _ h => ?_, fun _ => ?_⟩
  · exact hnext ▸ marked_next hC hd hinv hk hm (e := .call i) hadm
  · exact hnext ▸ inv_next hC hd hinv (e := .call i) hadm
  · obtain ⟨i', s', hi', hs', -, hmarked⟩ := (hspent _ _).mp h
    rw [hi] at hi'
    cases hi'
    rw [hs] at hs'
    cases hs'
    exact hold hmarked.owner
  · exact (hspent _ _).mpr ⟨i, s, hi, hs, hadm.marker s hs, hnew, hlamports⟩

/-- **An execution** pays, and marks its burn unless it is a transfer, or changes nothing. -/
theorem execute_pays (hC : K.cluster.Lawful) (hd : Derived K.cluster known)
    (hinv : Inv K.cluster known w.ledger)
    (hadm : ∀ i, K.invocation c = some i → Admissible K.cluster known i) (accepts : Bool) :
    w.execute K c accepts = w ∨ Pays K known w c (w.execute K c accepts) := by
  have hprogram : (∀ weth ledger, Spent K known weth ledger c ↔ ∃ i s, K.invocation c = some i ∧
        i.marker = some s ∧ s ∈ known ∧ Marked K.cluster ledger (K.cluster.address s)) →
      ∀ w', (match K.invocation c with
        | none => w
        | some i =>
          match processInstruction K.cluster w.ledger i with
          | .ok ledger => { w with ledger, paid := w.paid ++ [c] }
          | .error _ => w) = w' → w' = w ∨ Pays K known w c w' := by
    intro hspent w' hw'
    cases hi : K.invocation c with
    | none =>
      rw [hi] at hw'
      exact Or.inl hw'.symm
    | some i =>
      rw [hi] at hw'
      cases hp : processInstruction K.cluster w.ledger i with
      | error e =>
        simp only [hp] at hw'
        exact Or.inl hw'.symm
      | ok ledger' =>
        simp only [hp] at hw'
        exact Or.inr (hw' ▸ pays_invocation hC hd hinv hi hspent (hadm i hi) hp)
  cases c with
  | cast burnId recipient amount =>
    unfold Chains.execute
    cases hx : castArguments burnId recipient amount with
    | none =>
      left
      simp only [hx]
    | some x =>
      obtain ⟨id, target, value⟩ := x
      cases hr : w.weth.release w.weth.relayer id target value accepts with
      | error e =>
        left
        simp only [hx, hr]
      | ok r =>
        right
        obtain ⟨weth', event⟩ := r
        simp only [hx, hr]
        obtain ⟨hnew, -, -, hreleases⟩ := Ethereum.WethBridge.release_marks hr
        have hmarks : ∀ j, weth'.releases j = true ↔ j = id ∨ w.weth.releases j = true := by
          intro j
          rw [hreleases]
          exact Ethereum.Bridge.releases_markRelease
        refine ⟨rfl, rfl, ⟨fun j hj => (hmarks j).mpr (Or.inr hj), fun _ _ h => h⟩, hinv,
          fun _ h => ?_, fun _ => ⟨_, hx, (hmarks id).mpr (Or.inl rfl)⟩⟩
        obtain ⟨x, hx', hmark⟩ := h
        rw [hx] at hx'
        cases hx'
        rw [hnew] at hmark
        cases hmark
  | transfer =>
    exact Or.inr ⟨rfl, rfl, .refl, hinv, (fun h => by cases h), fun h => by cases h⟩
  | release => exact hprogram (fun _ _ => Iff.rfl) _ rfl
  | releaseSpl => exact hprogram (fun _ _ => Iff.rfl) _ rfl

end Spent

/-! ## 7. Whole runs -/

/-- **What holds in every state of a run**: the commands are filed, no transfer is there twice, and
    what has paid otherwise is marked where it was paid. -/
structure PayoutSafe (K : Client) (known : List Seeds) (py : Python) (cfg : Settings)
    (s : Site Chains) : Prop where
  filed : Filed py cfg (s.outside.inFlight ++ s.outside.paid) s.db
  transfers : ∀ c, c.isTransfer = true → (s.outside.inFlight ++ s.outside.paid).count c ≤ 1
  ledger : Inv K.cluster known s.outside.ledger
  spent : ∀ c ∈ s.outside.paid, c.isTransfer = false →
    Spent K known s.outside.weth s.outside.ledger c
  once : ∀ c, c.isTransfer = false → s.outside.paid.count c ≤ 1

/-- The relayer has no row and no command yet, and the program is deployed. -/
structure Unused (K : Client) (known : List Seeds) (s : Site Chains) : Prop where
  rows : s.db.tables.operations = [] ∧ s.db.committed.operations = []
  commands : s.outside.inFlight = [] ∧ s.outside.paid = []
  ledger : Fresh K.cluster known s.outside.ledger

section Whole

variable {K : Client} {known : List Seeds} {py : Python} {cfg : Settings} {s : Site Chains}

theorem Unused.safe (hC : K.cluster.Lawful) (hd : Derived K.cluster known) (h : Unused K known s) :
    PayoutSafe K known py cfg s := by
  have hnone : s.outside.inFlight ++ s.outside.paid = [] := by
    rw [h.commands.1, h.commands.2]
    rfl
  refine ⟨⟨?_, ?_, ?_, ?_, ?_⟩, fun c _ => ?_, h.ledger.inv hC hd, fun c hc => ?_, fun c _ => ?_⟩
  · rw [h.rows.1]
    exact List.nodup_nil
  · rw [h.rows.2]
    exact List.nodup_nil
  · rw [h.rows.2]
    exact List.nil_subset _
  · rw [hnone]
    exact fun c hc => by cases hc
  · rw [hnone]
    exact fun c hc => by cases hc
  · rw [hnone]
    exact Nat.zero_le 1
  · rw [h.commands.2] at hc
    cases hc
  · rw [h.commands.2]
    exact Nat.zero_le 1

/-- An iteration hands commands over and executes none. -/
theorem PayoutSafe.iterate (h : PayoutSafe K known py cfg s) (a : Answers) (r : Replies)
    (hreported : Reported cfg (.iterate a r)) :
    PayoutSafe K known py cfg (payoutNext K py cfg s (.iterate a r)) := by
  have hpolled : Filed py cfg (s.outside.inFlight ++ s.outside.paid) (polled py cfg a s.db).state :=
    (filed_pollSteps a).polls h.filed
  show PayoutSafe K known py cfg
    (iteration chains py cfg a { s with outside := { s.outside with replies := r } }).state
  rcases iteration_cases chains py cfg a { s with outside := { s.outside with replies := r } }
    with heq | ⟨hcommitted, heq⟩
  · rw [heq]
    exact ⟨hpolled, h.transfers, h.ledger, h.spent, h.once⟩
  · rw [heq]
    have hstart : Turn py cfg { s.outside with replies := r } []
        ⟨(polled py cfg a s.db).state, { s.outside with replies := r }⟩ :=
      ⟨hpolled, hcommitted, (fun r hr => by cases hr), h.transfers, rfl, rfl, rfl, rfl⟩
    have hturn := turn_process
      (s := ⟨(polled py cfg a s.db).state, { s.outside with replies := r }⟩) hstart hreported
    refine ⟨hturn.filed, hturn.transfers, ?_, ?_, ?_⟩
    · rw [hturn.ledger]
      exact h.ledger
    · rw [hturn.paid, hturn.weth, hturn.ledger]
      exact h.spent
    · rw [hturn.paid]
      exact h.once

/-- An execution pays for a command that was on its way. -/
theorem PayoutSafe.execute (hC : K.cluster.Lawful) (hd : Derived K.cluster known)
    (h : PayoutSafe K known py cfg s) {k : Nat} {c : Command}
    (hc : s.outside.inFlight[k]? = some c)
    (hadm : ∀ i, K.invocation c = some i → Admissible K.cluster known i) (accepts : Bool) :
    PayoutSafe K known py cfg { s with
      outside := ({ s.outside with inFlight := s.outside.inFlight.eraseIdx k } : Chains).execute K c
        accepts } := by
  have hsub : (s.outside.inFlight.eraseIdx k ++ s.outside.paid).Sublist
      (s.outside.inFlight ++ s.outside.paid) :=
    (List.eraseIdx_sublist _ k).append_right _
  rcases execute_pays (w := { s.outside with inFlight := s.outside.inFlight.eraseIdx k }) hC hd
    h.ledger hadm accepts with heq | hpays
  · rw [heq]
    exact ⟨h.filed.mono fun c hc => hsub.subset hc,
      fun c ht => Nat.le_trans (hsub.count_le c) (h.transfers c ht), h.ledger, h.spent, h.once⟩
  · have hperm : (s.outside.inFlight.eraseIdx k ++ (s.outside.paid ++ [c])).Perm
        (s.outside.inFlight ++ s.outside.paid) := by
      obtain ⟨hk, hget⟩ := List.getElem?_eq_some_iff.mp hc
      have hmoved := hget ▸ List.getElem_cons_eraseIdx_perm hk
      rw [← List.append_assoc]
      exact (List.perm_append_singleton c _).trans (hmoved.append_right s.outside.paid)
    refine ⟨?_, fun c' ht => ?_, hpays.ledger, fun c' hc' ht => ?_, fun c' ht => ?_⟩
    · rw [hpays.inFlight, hpays.paid]
      exact h.filed.mono fun c hc => hperm.subset hc
    · rw [hpays.inFlight, hpays.paid, hperm.count_eq]
      exact h.transfers c' ht
    · rw [hpays.paid] at hc'
      rcases List.mem_append.mp hc' with hc' | hc'
      · exact (h.spent c' hc' ht).grows hd hpays.grows
      · rw [List.mem_singleton.mp hc'] at ht ⊢
        exact hpays.spent ht
    · rw [hpays.paid, List.count_append, List.count_singleton]
      split
      · rename_i heq
        have heq : c = c' := beq_iff_eq.mp heq
        have hnew : c' ∉ s.outside.paid := fun hmem =>
          hpays.unspent (heq ▸ ht) (heq ▸ h.spent c' hmem ht)
        rw [List.count_eq_zero.mpr hnew]
      · exact h.once c' ht

/-- What others do on the chains leaves the marks. -/
theorem PayoutSafe.grows (hd : Derived K.cluster known) (h : PayoutSafe K known py cfg s)
    {weth : Ethereum.WethBridge} {ledger : Ledger}
    (hgrows : Grows K s.outside.weth weth s.outside.ledger ledger)
    (hledger : Inv K.cluster known ledger) :
    PayoutSafe K known py cfg { s with outside := { s.outside with weth, ledger } } :=
  ⟨h.filed, h.transfers, hledger, fun c hc ht => (h.spent c hc ht).grows hd hgrows, h.once⟩

theorem PayoutSafe.next (hC : K.cluster.Lawful) (hd : Derived K.cluster known)
    (h : PayoutSafe K known py cfg s) (e : PayoutEvent) (hpossible : Possible K known s e)
    (hreported : Reported cfg e) : PayoutSafe K known py cfg (payoutNext K py cfg s e) := by
  cases e with
  | iterate a r => exact h.iterate a r hreported
  | restart => exact ⟨h.filed.restart, h.transfers, h.ledger, h.spent, h.once⟩
  | execute k accepts =>
    cases hc : s.outside.inFlight[k]? with
    | none =>
      simp only [payoutNext, hc]
      exact h
    | some c =>
      simp only [payoutNext, hc]
      exact h.execute hC hd hc (hpossible c hc) accepts
  | weth c =>
    exact h.grows hd ⟨fun _ => (s.outside.weth.next_kept c).2, fun _ _ hm => hm⟩ h.ledger
  | solana e =>
    exact h.grows hd ⟨fun _ hm => hm, fun _ hk hm => marked_next hC hd h.ledger hk hm hpossible⟩
      (inv_next hC hd h.ledger hpossible)

/-- Commands that have paid under one burn id are one. -/
theorem PayoutSafe.burns_nodup (h : PayoutSafe K known py cfg s) :
    (s.outside.paid.map Command.burnId).Nodup := by
  have hnodup : s.outside.paid.Nodup := by
    refine List.nodup_iff_count_le_one.mpr fun c => ?_
    cases ht : c.isTransfer with
    | false => exact h.once c ht
    | true =>
      refine Nat.le_trans ?_ (h.transfers c ht)
      rw [List.count_append]
      exact Nat.le_add_left _ _
  refine hnodup.map_on fun c hc c' hc' hid => ?_
  obtain ⟨r, hr, hrid, -, hcommand⟩ := h.filed.row (List.mem_append_right _ hc)
  obtain ⟨r', hr', hrid', -, hcommand'⟩ := h.filed.row (List.mem_append_right _ hc')
  have hsame := row_eq h.filed.ids hr hr' (hrid.trans (hid.trans hrid'.symm))
  rw [hsame, hcommand'] at hcommand
  exact (Except.ok.inj hcommand).symm

/-- **A burn is paid at most once**: in every run, if in custody mode every transfer that is handed
    over is reported as a success; in Ethereum mode and in program mode whatever is reported. -/
theorem paid_at_most_once (hC : K.cluster.Lawful) (hd : Derived K.cluster known)
    (hs : Unused K known s) {events : List PayoutEvent}
    (hpossible : EachStep (payoutNext K py cfg) (Possible K known) s events)
    (hreported : ∀ e ∈ events, Reported cfg e) :
    Throughout (payoutNext K py cfg) (fun s => (s.outside.paid.map Command.burnId).Nodup) s
      events := by
  have heach : EachStep (payoutNext K py cfg) (fun _ e => Reported cfg e) s events :=
    .of_forall hreported
  have hrun := hpossible.and heach
  have hsafe := hrun.throughout (P := PayoutSafe K known py cfg)
    (fun s e he h => h.next hC hd e he.1 he.2) (hs.safe hC hd)
  rw [throughout_iff] at hsafe ⊢
  exact fun pre hpre => (hsafe pre hpre).burns_nodup

end Whole

end Relayer

/-! ## 8. A transfer whose answer is late -/

namespace Sample

open Relayer Solana Solana.Sample

def custody : Settings :=
  { settings with solanaEnabled := true, programMode := false, vaultKeypair := true }

def client : Client where
  cluster := cluster
  authority := authority
  vaultTokens := vaultTokens
  mint := mint
  pubkey := fun _ => none

def solBurn : Rpc.AssetOperationView where
  operationId := String.ofList (List.replicate 64 'c')
  kind := "burn"
  assetId := "solana:WSOL:devnet:vault"
  address := accountText
  destination := String.ofList (List.replicate 32 'B')
  amount := "5"
  externalTransaction := ""
  memo := ""

def solTransfer : Command :=
  .transfer (String.ofList (List.replicate 32 'B')) 5 (String.ofList (List.replicate 64 'c'))

def burnPoll : Answers := { answers [] with burns := .ok [solBurn] }

/-- Every command is handed over and answered so. -/
def handedOver (now : Nat) (reply : Outcome RelayerError Unit) : Replies where
  now := now
  oracle := .error (.err .runtime)
  mint := fun _ => .ok ()
  status := fun _ => .ok .pending
  command := fun _ => ⟨true, reply⟩

def unpaid : Site Chains where
  db := scanned.db
  outside :=
    { weth := ⟨⟨Ethereum.zeroAddress, fun _ => false, fun _ => false⟩, 0⟩
      ledger := start
      inFlight := []
      paid := []
      replies := handedOver 0 (.ok ()) }

/-- The transfer is answered by `reply` and executed, and so is what comes of the next poll. -/
def transferred (reply : Outcome RelayerError Unit) : List PayoutEvent :=
  [.iterate burnPoll (handedOver 0 reply), .execute 0 true,
    .iterate burnPoll (handedOver 10 (.ok ())), .execute 0 true]

theorem unused_unpaid : Unused client seeds unpaid :=
  ⟨⟨rfl, rfl⟩, ⟨rfl, rfl⟩, fresh⟩

theorem possible_transfer {s : Site Chains} (h : s.outside.inFlight.all Command.isTransfer = true)
    (k : Nat) (accepts : Bool) : Possible client seeds s (.execute k accepts) := by
  intro c hc i hi
  have ht := List.all_eq_true.mp h c (List.mem_of_getElem? hc)
  cases c with
  | transfer => cases hi
  | cast => cases ht
  | release => cases ht
  | releaseSpl => cases ht

theorem possible_transferred {reply : Outcome RelayerError Unit}
    (h : reply = .ok () ∨ reply = .error (.err .runtime)) :
    EachStep (payoutNext client python custody) (Possible client seeds) unpaid
      (transferred reply) := by
  refine ⟨trivial, possible_transfer ?_ 0 true, trivial, possible_transfer ?_ 0 true, trivial⟩
  · rcases h with rfl | rfl
    · decide +kernel
    · decide +kernel
  · rcases h with rfl | rfl
    · decide +kernel
    · decide +kernel

end Sample

namespace Relayer

theorem paid_at_most_once_transferred : Throughout
    (payoutNext Sample.client Sample.python Sample.custody)
    (fun s => (s.outside.paid.map Command.burnId).Nodup) Sample.unpaid
      (Sample.transferred (.ok ())) :=
  paid_at_most_once Solana.Sample.cluster_lawful Solana.Sample.derived Sample.unused_unpaid
    (Sample.possible_transferred (Or.inl rfl)) (by
      simp only [Sample.transferred, List.forall_mem_cons]
      exact ⟨fun _ _ _ _ => rfl, trivial, fun _ _ _ _ => rfl, trivial, fun _ h => by cases h⟩)

/-- **A transfer is paid twice**: it is executed although the relayer is told of an error, and so is
    the one that is handed over at the retry. -/
theorem late_transfer_pays_twice :
    EachStep (payoutNext Sample.client Sample.python Sample.custody)
        (Possible Sample.client Solana.Sample.seeds) Sample.unpaid
        (Sample.transferred (.error (.err .runtime))) ∧
      (runs (payoutNext Sample.client Sample.python Sample.custody) Sample.unpaid
        (Sample.transferred (.error (.err .runtime)))).outside.paid =
          [Sample.solTransfer, Sample.solTransfer] ∧
      ¬ Throughout (payoutNext Sample.client Sample.python Sample.custody)
        (fun s => (s.outside.paid.map Command.burnId).Nodup) Sample.unpaid
          (Sample.transferred (.error (.err .runtime))) := by
  have hpaid : (runs (payoutNext Sample.client Sample.python Sample.custody) Sample.unpaid
      (Sample.transferred (.error (.err .runtime)))).outside.paid =
        [Sample.solTransfer, Sample.solTransfer] := by
    decide +kernel
  refine ⟨Sample.possible_transferred (Or.inr rfl), hpaid, fun h => ?_⟩
  have hnodup := h.last
  rw [hpaid] at hnodup
  exact absurd hnodup (by decide)

end Relayer

end WorldstreetChain
