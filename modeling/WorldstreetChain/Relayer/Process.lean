import WorldstreetChain.Relayer.Deposits

/-!
# Processing (`process_operations`)

A cycle goes over the rows that are due: a deposit is minted over RPC, a burn is released by a
command, and the row notes that it was submitted or is to be tried again. A second loop completes
the rows that were submitted. Each row is committed on its own; whatever ends the relayer in the
middle of a cycle leaves what was committed.

* `Relayer.submitMint`, `Relayer.submitRelease` -- what is asked for a row.
* `Relayer.processOperations` -- a cycle.
* `Relayer.eachRow_rule`, `Relayer.process_rule` -- **what every row of a cycle keeps, the cycle
  keeps**.
* `Relayer.Db.Every` -- a property of every row.
-/

namespace WorldstreetChain

namespace Relayer

/-! ## 1. What is asked for a row -/

/-- The settings that processing depends on. -/
structure Settings extends Config where
  /-- `SOLANA_ENABLED`. -/
  solanaEnabled : Bool
  /-- `SOLANA_MODE` is `program`; it is `custody` otherwise. -/
  programMode : Bool
  vaultAddress : String
  authorityKeypair : Bool
  vaultKeypair : Bool
  operatorToken : String
  mnaFeeBps : Nat
  /-- Whether an oracle is asked; the price is taken from the settings otherwise. -/
  oracleUrl : Bool
  oraclePrice : Nat
  oracleMaxAge : Nat
  confirmations : Nat

/-- What a release is done with. -/
inductive Command where
  | cast (burnId recipient amount : String)
  | release (recipient : String) (amount : Nat) (burnId : String)
  | releaseSpl (recipientToken : String) (amount : Nat) (burnId : String)
  | transfer (recipient : String) (lamports : Nat) (burnId : String)
  deriving DecidableEq

/-- The price of the oracle's answer: `raw` times ten to the `expo`. -/
structure OracleAnswer where
  raw : Int
  expo : Int
  published : Int

section Ask

variable (py : Python) (cfg : Settings)

/-- `int` of a column that holds a numeral. -/
def numeral (text : String) : Outcome RelayerError Nat := do
  rejectIf (text.toList = [] ∨ text.toList.all (digit py) = false) .value
  int py text.toList

/-- `solana_mna_oracle_snapshot`: micro-dollars a SOL, and when. -/
def solanaMnaOracleSnapshot (answer : Outcome RelayerError OracleAnswer) (now : Nat) :
    Outcome RelayerError (Int × Int) :=
  if cfg.oracleUrl = false then do
    rejectIf (cfg.oraclePrice = 0) .runtime
    .ok ((cfg.oraclePrice : Int), (now : Int))
  else do
    let price ← answer
    rejectIf (price.raw ≤ 0 ∨ price.published ≤ 0
      ∨ (cfg.oracleMaxAge : Int) < (now : Int) - price.published) .runtime
    let micro :=
      if 0 ≤ price.expo then price.raw * 10 ^ price.expo.toNat * 1000000
      else price.raw * 1000000 / 10 ^ (-price.expo).toNat
    rejectIf (micro ≤ 0) .runtime
    .ok (micro, price.published)

/-- The parameters of `mna_reserve_mint`. The node's RPC refuses a time that is no `u64`. -/
def mnaMintParams (op : Row) (price published : Int) :
    Outcome RelayerError Rpc.MnaReserveOperationParams := do
  let lamports ← numeral py op.amount
  let usdMicro := lamports * price.toNat / 1000000000
  let grossMna := usdMicro / 2
  let feeMna := grossMna * cfg.mnaFeeBps / 10000
  let amountMna := grossMna - feeMna
  rejectIf (usdMicro = 0 ∨ usdMicro % 2 ≠ 0 ∨ grossMna ≤ feeMna) .runtime
  rejectIf (2 ^ 64 ≤ published.toNat) .runtime
  .ok
    { operatorToken := cfg.operatorToken
      collateralAsset := cfg.mnaAssetId
      address := op.address
      amountUsdc := toString usdMicro
      amountMna := toString amountMna
      collateralAmount := toString lamports
      oraclePriceUsdMicroPerSol := toString price.toNat
      oracleTimestamp := BitVec.ofNat 64 published.toNat
      feeMna := toString feeMna
      externalTransaction := op.externalTransaction
      destination := op.destination
      memo := "solana devnet SOL direct collateral" }

/-- The parameters of `bridge_mint`. -/
def bridgeMintParams (op : Row) : Rpc.BridgeOperationParams where
  operatorToken := cfg.operatorToken
  operationId := op.operationId
  assetId := op.assetId
  address := op.address
  destination := op.address
  amount := op.amount
  externalTransaction := op.externalTransaction
  memo := "ethereum deposit relayed"

/-- `0x` and forty hexadecimal digits. -/
def ethereumAddress (text : String) : Bool :=
  "0x".toList.isPrefixOf text.toList && text.toList.length == 42
    && (text.toList.drop 2).all hexDigit

/-- `solana_recipient`: 32 to 44 characters of base 58. -/
def solanaAddress (text : String) : Bool :=
  32 ≤ text.toList.length && text.toList.length ≤ 44 && text.toList.all Solana.base58

/-- `submit_solana_release`, up to the command. -/
def solanaReleaseCommand (op : Row) : Outcome RelayerError Command := do
  rejectIf (solanaAddress op.destination = false) .value
  let lamports ← numeral py op.amount
  rejectIf (lamports = 0) .value
  if "solana:USDC:".toList.isPrefixOf op.assetId.toList then do
    rejectIf (cfg.splEnabled = false) .runtime
    .ok (.releaseSpl op.destination lamports op.operationId)
  else if cfg.programMode then do
    rejectIf (cfg.authorityKeypair = false) .runtime
    .ok (.release op.destination lamports op.operationId)
  else do
    rejectIf (cfg.vaultKeypair = false) .runtime
    .ok (.transfer op.destination lamports op.operationId)

/-- `submit_release`, up to the command: wrapped SOL goes to Solana and all else to the contract for
    WETH. -/
def releaseCommand (op : Row) : Outcome RelayerError Command :=
  if "solana:WSOL:".toList.isPrefixOf op.assetId.toList then solanaReleaseCommand py cfg op
  else do
    rejectIf (ethereumAddress op.destination = false) .value
    .ok (.cast op.operationId op.destination op.amount)

end Ask

/-! ## 2. The outside -/

/-- What a cycle calls. A call can change the outside and still end in an error; one in whose middle
    the relayer dies ends in a panic. -/
structure Outside (ω : Type) where
  now : ω → Nat
  oracle : ω → Applied RelayerError ω OracleAnswer
  bridgeMint : Rpc.BridgeOperationParams → ω → Applied RelayerError ω Unit
  mnaReserveMint : Rpc.MnaReserveOperationParams → ω → Applied RelayerError ω Unit
  bridgeOperationStatus : String → ω → Applied RelayerError ω Rpc.OperationStatus
  execute : Command → ω → Applied RelayerError ω Unit

/-- The relayer's database and what is outside. -/
structure Site (ω : Type) where
  db : Db
  outside : ω

section Cycle

variable {ω : Type} (O : Outside ω) (py : Python) (cfg : Settings)

def submitMint (op : Row) (w : ω) : Applied RelayerError ω Unit :=
  if op.assetId = cfg.mnaAssetId then
    let asked := if cfg.oracleUrl then O.oracle w else ⟨.error (.err .runtime), w⟩
    match solanaMnaOracleSnapshot cfg asked.result (O.now asked.state) with
    | .error e => ⟨.error e, asked.state⟩
    | .ok (price, published) =>
      .attempt asked.state (mnaMintParams py cfg op price published) fun p =>
      O.mnaReserveMint p asked.state
  else O.bridgeMint (bridgeMintParams cfg op) w

def submitRelease (op : Row) (w : ω) : Applied RelayerError ω Unit :=
  .attempt w (releaseCommand py cfg op) fun command => O.execute command w

def submit (op : Row) (w : ω) : Applied RelayerError ω Unit :=
  if op.direction = "inbound" then submitMint O py cfg op w else submitRelease O py cfg op w

def submittedStatus (op : Row) : String :=
  if op.direction = "inbound" then "mint_submitted" else "release_submitted"

/-- `UPDATE operations SET status=? WHERE operation_id=?`, committed. -/
def Db.setStatus (d : Db) (id status : String) : Db :=
  (d.withRows (d.tables.operations.map fun r =>
    if r.operationId = id then { r with status } else r)).commit

/-- The delay behind an attempt. -/
def retryDelay (attempts : Nat) : Nat := min 3600 (2 ^ min attempts 10)

/-- One more attempt, and when the next one is due. -/
def Db.countAttempt (d : Db) (now : Nat) (id : String) : Db :=
  let attempts := d.tables.attempts id + 1
  { d with
    tables :=
      { d.tables with
        attempts := Function.update d.tables.attempts id attempts
        nextAttempt := Function.update d.tables.nextAttempt id (now + retryDelay attempts) } }

def Db.markError (d : Db) (now : Nat) (id : String) : Db :=
  (d.countAttempt now id).setStatus id "retry"

/-- The rows a cycle takes up, at most fifty. -/
def due (now : Nat) (t : Tables) : List Row :=
  (t.operations.filter fun r =>
    (r.status = "detected" ∨ r.status = "retry") ∧ t.nextAttempt r.operationId ≤ now).take 50

/-- What the answer to a call for a row leaves: `row` is what it notes where the call succeeds. -/
def answered (d : Db) (id : String) (asked : Applied RelayerError ω (Db → Db)) :
    Applied RelayerError (Site ω) Unit :=
  match asked.result with
  | .ok note => ⟨.ok (), ⟨note d, asked.state⟩⟩
  | .error (.err _) => ⟨.ok (), ⟨d.markError (O.now asked.state) id, asked.state⟩⟩
  | .error .panic => ⟨.error .panic, ⟨d, asked.state⟩⟩

def processRow (op : Row) (s : Site ω) : Applied RelayerError (Site ω) Unit :=
  answered O s.db op.operationId
    ((submit O py cfg op s.outside).map fun _ d => d.setStatus op.operationId (submittedStatus op))

def settleRow (op : Row) (s : Site ω) : Applied RelayerError (Site ω) Unit :=
  if op.direction = "inbound" then
    answered O s.db op.operationId
      ((O.bridgeOperationStatus op.operationId s.outside).map fun status d =>
        if status = .confirmed then d.setStatus op.operationId "completed" else d.commit)
  else ⟨.ok (), ⟨s.db.setStatus op.operationId "completed", s.outside⟩⟩

def eachRow (f : Row → Site ω → Applied RelayerError (Site ω) Unit) :
    List Row → Site ω → Applied RelayerError (Site ω) Unit
  | [], s => ⟨.ok (), s⟩
  | r :: rest, s => (f r s).andThen fun _ s => eachRow f rest s

def submitted (t : Tables) : List Row :=
  t.operations.filter fun r => r.status = "mint_submitted" ∨ r.status = "release_submitted"

def processOperations (s : Site ω) : Applied RelayerError (Site ω) Unit :=
  (eachRow (processRow O py cfg) (due (O.now s.outside) s.db.tables) s).andThen fun _ s =>
  eachRow (settleRow O) (submitted s.db.tables) s

end Cycle

/-! ## 3. Rules -/

section Rules

variable {ω : Type} {O : Outside ω} {py : Python} {cfg : Settings}

/-- **What each row keeps, the loop keeps.** -/
theorem eachRow_rule {f : Row → Site ω → Applied RelayerError (Site ω) Unit} {P : Site ω → Prop}
    {rows : List Row} (hf : ∀ r ∈ rows, ∀ s, P s → P (f r s).state) {s : Site ω} (hs : P s) :
    P (eachRow f rows s).state := by
  induction rows generalizing s with
  | nil => exact hs
  | cons r rows ih =>
    refine Applied.andThen_rule (hf r List.mem_cons_self s hs) fun _ _ => ?_
    exact ih (fun r' hr' => hf r' (List.mem_cons_of_mem r hr')) (hf r List.mem_cons_self s hs)

/-- The rule with the rows whose turn is still to come. -/
theorem eachRow_turns {f : Row → Site ω → Applied RelayerError (Site ω) Unit}
    {P : List Row → Site ω → Prop} (hf : ∀ r rest s, P (r :: rest) s → P rest (f r s).state)
    {rows : List Row} {s : Site ω} (h : P rows s) : ∃ rest, P rest (eachRow f rows s).state := by
  induction rows generalizing s with
  | nil => exact ⟨[], h⟩
  | cons r rows ih =>
    refine Applied.andThen_rule (P := fun s => ∃ rest, P rest s) ⟨rows, hf r rows s h⟩ fun _ _ => ?_
    exact ih (hf r rows s h)

theorem answered_outside {d : Db} {id : String} {asked : Applied RelayerError ω (Db → Db)} :
    (answered O d id asked).state.outside = asked.state := by
  unfold answered
  split
  · rfl
  · rfl
  · rfl

/-- An answer writes nothing to the database but a status, or a failed attempt. -/
theorem answered_rule {P : Db → Prop} {d : Db} {id : String}
    {asked : Applied RelayerError ω (Db → Db)} (hd : P d)
    (hnote : ∀ note, asked.result = .ok note → P (note d)) (hmark : ∀ now, P (d.markError now id)) :
    P (answered O d id asked).state.db := by
  unfold answered
  split
  · rename_i note hresult
    exact hnote note hresult
  · exact hmark _
  · exact hd

/-- **The rule of a cycle**, for what is said of the database alone. -/
theorem process_rule {P : Db → Prop} (hstatus : ∀ d id status, P d → P (d.setStatus id status))
    (hmark : ∀ d now id, P d → P (d.markError now id)) (hcommit : ∀ d, P d → P d.commit)
    {s : Site ω} (hs : P s.db) : P (processOperations O py cfg s).state.db := by
  unfold processOperations
  have hfirst : P (eachRow (processRow O py cfg) (due (O.now s.outside) s.db.tables) s).state.db := by
    refine eachRow_rule (P := fun s => P s.db) (fun r _ s hs => ?_) hs
    refine answered_rule hs (fun note hnote => ?_) fun now => hmark _ _ _ hs
    obtain ⟨_, -, rfl⟩ := Applied.map_result_eq_ok.mp hnote
    exact hstatus _ _ _ hs
  refine Applied.andThen_rule (P := fun s : Site ω => P s.db) hfirst fun _ _ => ?_
  refine eachRow_rule (P := fun s => P s.db) (fun r _ s hs => ?_) hfirst
  unfold settleRow
  split
  · refine answered_rule hs (fun note hnote => ?_) fun now => hmark _ _ _ hs
    obtain ⟨status, -, rfl⟩ := Applied.map_result_eq_ok.mp hnote
    dsimp only
    split
    · exact hstatus _ _ _ hs
    · exact hcommit _ hs
  · exact hstatus _ _ _ hs

end Rules

/-! ## 4. Rows of the table -/

section Rows

variable {r r' : Row} {rows : List Row} {d : Db} {P : Row → Prop}

theorem nodup_insertOrIgnore (h : (rows.map Row.operationId).Nodup) (row : Row) :
    ((insertOrIgnore rows row).map Row.operationId).Nodup := by
  unfold insertOrIgnore
  split
  · exact h
  · rename_i hnew
    rw [List.map_append, List.map_singleton]
    exact List.nodup_append.mpr ⟨h, List.nodup_singleton _, fun a ha b hb => by
      rw [List.mem_singleton.mp hb]
      exact fun heq => hnew (heq ▸ ha)⟩

/-- Two rows of one table under one id are one row. -/
theorem row_eq (h : (rows.map Row.operationId).Nodup) (hr : r ∈ rows) (hr' : r' ∈ rows)
    (heq : r.operationId = r'.operationId) : r = r' :=
  List.inj_on_of_nodup_map h hr hr' heq

/-- The table after an update of a status. -/
theorem mem_setStatus {id status : String} {r : Row}
    (h : r ∈ (d.setStatus id status).tables.operations) :
    ∃ r' ∈ d.tables.operations, r'.key = r.key ∧
      ((r.operationId = id ∧ r.status = status) ∨ (r.operationId ≠ id ∧ r' = r)) := by
  obtain ⟨r', hr', heq⟩ := List.mem_map.mp h
  refine ⟨r', hr', ?_⟩
  by_cases hid : r'.operationId = id
  · rw [if_pos hid] at heq
    rw [← heq]
    exact ⟨rfl, Or.inl ⟨hid, rfl⟩⟩
  · rw [if_neg hid] at heq
    rw [← heq]
    exact ⟨rfl, Or.inr ⟨hid, rfl⟩⟩

theorem setStatus_keys (id status : String) :
    (d.setStatus id status).tables.operations.map Row.key = d.tables.operations.map Row.key := by
  show (d.tables.operations.map _).map Row.key = _
  rw [List.map_map]
  refine List.map_congr_left fun r _ => ?_
  show Row.key (if r.operationId = id then _ else _) = _
  split
  · rfl
  · rfl

theorem nodup_setStatus (h : (d.tables.operations.map Row.operationId).Nodup)
    (id status : String) :
    ((d.setStatus id status).tables.operations.map Row.operationId).Nodup := by
  rw [ids_of_keys, setStatus_keys, ← ids_of_keys]
  exact h

/-- Every row has a property, in the table and in what is committed of it. -/
def Db.Every (P : Row → Prop) (d : Db) : Prop :=
  ∀ r ∈ d.tables.operations ++ d.committed.operations, P r

theorem Db.Every.commit (h : d.Every P) : d.commit.Every P := fun r hr =>
  h r (List.mem_append_left _ ((List.mem_append.mp hr).elim id id))

theorem Db.Every.restart (h : d.Every P) : d.restart.Every P := fun r hr =>
  h r (List.mem_append_right _ ((List.mem_append.mp hr).elim id id))

theorem Db.Every.insert (h : d.Every P) {row : Row} (hrow : P row) :
    (d.withRows (insertOrIgnore d.tables.operations row)).Every P := by
  intro r hr
  rcases List.mem_append.mp hr with hr | hr
  · rcases mem_insertOrIgnore hr with hr | ⟨rfl, -⟩
    · exact h r (List.mem_append_left _ hr)
    · exact hrow
  · exact h r (List.mem_append_right _ hr)

theorem Db.Every.setStatus (h : d.Every P) {id status : String}
    (hset : ∀ r, r.operationId = id → P r → P { r with status }) :
    (d.setStatus id status).Every P := by
  intro r hr
  have hr : r ∈ d.tables.operations.map fun r =>
      if r.operationId = id then { r with status } else r :=
    (List.mem_append.mp hr).elim (fun h => h) fun h => h
  obtain ⟨r', hr', rfl⟩ := List.mem_map.mp hr
  have hP := h r' (List.mem_append_left _ hr')
  split
  · rename_i hid
    exact hset r' hid hP
  · exact hP

theorem Db.Every.markError (h : d.Every P) (now : Nat) {id : String}
    (hset : ∀ r, r.operationId = id → P r → P { r with status := "retry" }) :
    (d.markError now id).Every P := by
  have hcount : (d.countAttempt now id).Every P := h
  exact hcount.setStatus hset

end Rows

end Relayer

end WorldstreetChain
