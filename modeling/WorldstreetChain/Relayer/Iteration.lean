import WorldstreetChain.Relayer.Process

/-!
# An iteration of the relayer (`main`)

An iteration polls the contracts for the blocks that are confirmed, moves the cursor behind them,
polls the vault and the chain, and processes the rows. An error of any poll ends the iteration.

* `Relayer.iteration` -- the body of the loop.
* `Relayer.iteration_handles_iff` -- **when an iteration handles a range**: exactly if each log of
  the range with three topics can be decoded and nothing else is noted under its id.
-/

namespace WorldstreetChain

namespace Relayer

/-! ## 1. The loop's body -/

/-- What the polls of an iteration are answered. -/
structure Answers where
  tip : Outcome RelayerError Nat
  /-- Where the scan is to start, asked for the first cursor. -/
  start : Outcome RelayerError Nat
  /-- The contracts, each with the asset it locks and the logs of the range. -/
  sources : List (String × Outcome RelayerError (List DepositLog))
  solana : SolanaAnswers
  burns : Outcome RelayerError (List Rpc.AssetOperationView)

def cursor (start : Outcome RelayerError Nat) (d : Db) : Applied RelayerError Db Nat :=
  match d.tables.ethBlock with
  | some block => ⟨.ok block, d⟩
  | none => .attempt d start fun block => ⟨.ok block, (d.setEthBlock block).commit⟩

section Iteration

variable {ω : Type} (O : Outside ω) (py : Python) (cfg : Settings)

/-- The contracts from the cursor on, as far as blocks are confirmed. -/
def pollContracts (a : Answers) (d : Db) : Applied RelayerError Db Unit :=
  .attempt d a.tip fun tip =>
  (cursor a.start d).andThen fun previous d =>
  if previous + cfg.confirmations ≤ tip then
    let safeTip := tip - cfg.confirmations
    (discoverDeposits previous safeTip a.sources d).andThen fun _ d =>
    ⟨.ok (), (d.setEthBlock (safeTip + 1)).commit⟩
  else ⟨.ok (), d⟩

/-- A transaction is read for a lock of the program, or for a transfer with a memo. -/
def transactionRow (t : Transaction) (detail : Detail) : Outcome RelayerError (Option Row) :=
  if cfg.programMode then solanaRow py cfg.toConfig t
  else .ok (custodyRow py cfg.toConfig cfg.vaultAddress t detail)

/-- The vault and the chain. -/
def pollChains (a : Answers) (d : Db) : Applied RelayerError Db Unit :=
  (if cfg.solanaEnabled then discoverSolanaDeposits (transactionRow py cfg) a.solana d
    else ⟨.ok (), d⟩).andThen fun _ d => noteBurns a.burns d

def iteration (a : Answers) (s : Site ω) : Applied RelayerError (Site ω) Unit :=
  let polled := (pollContracts cfg a s.db).andThen fun _ d => pollChains py cfg a d
  match polled.result with
  | .ok _ => processOperations O py cfg ⟨polled.state, s.outside⟩
  | .error e => ⟨.error e, ⟨polled.state, s.outside⟩⟩

end Iteration

/-! ## 2. Logs that can be decoded -/

/-- A log is passed over, or it can be decoded. -/
def DepositLog.Readable (log : DepositLog) : Prop :=
  3 ≤ log.topics.length → (decodeDeposit log.data).isOk = true

instance (log : DepositLog) : Decidable log.Readable :=
  inferInstanceAs (Decidable (_ → _))

variable {assetId : String} {log : DepositLog} {logs : List DepositLog} {rows : List Row}

theorem readable_iff (assetId : String) (log : DepositLog) :
    log.Readable ↔ ∃ row, depositRow assetId log = .ok row := by
  unfold DepositLog.Readable depositRow
  split
  · rename_i a b c rest htopics
    have hlength : 3 ≤ log.topics.length := by
      rw [htopics]
      simp
    constructor
    · intro h
      obtain ⟨⟨amount, destination⟩, hd⟩ := Outcome.isOk_iff.mp (h hlength)
      exact ⟨_, Outcome.bind_eq_ok.mpr ⟨_, hd, rfl⟩⟩
    · intro ⟨row, h⟩ _
      obtain ⟨d, hd, -⟩ := Outcome.bind_eq_ok.mp h
      exact Outcome.isOk_iff.mpr ⟨d, hd⟩
  · rename_i hshort
    refine ⟨fun _ => ⟨none, rfl⟩, fun _ hlength => ?_⟩
    exfalso
    match htopics : log.topics with
    | a :: b :: c :: rest => exact hshort a b c rest htopics
    | [] => simp [htopics] at hlength
    | [_] => simp [htopics] at hlength
    | [_, _] => simp [htopics] at hlength

/-- **When the logs of a source are noted.** -/
theorem noteLogs_iff (assetId : String) (logs : List DepositLog) (rows : List Row) :
    (noteLogs assetId logs rows).result = .ok () ↔ ∀ log ∈ logs, log.Readable := by
  induction logs generalizing rows with
  | nil => simp [noteLogs]
  | cons log logs ih =>
    rw [noteLogs, List.forall_mem_cons, readable_iff assetId]
    cases h : depositRow assetId log with
    | ok row => simp [ih]
    | error e => simp [Applied.attempt]

theorem subset_noteLogs : rows ⊆ (noteLogs assetId logs rows).state := by
  induction logs generalizing rows with
  | nil => exact List.Subset.refl rows
  | cons log logs ih =>
    rw [noteLogs]
    cases depositRow assetId log with
    | error e => exact List.Subset.refl rows
    | ok row =>
      refine List.Subset.trans ?_ ih
      cases row with
      | none => exact List.Subset.refl rows
      | some row => exact subset_insertOrIgnore rows row

/-- Every log that is noted has a row under its id. -/
theorem noteLogs_id (h : (noteLogs assetId logs rows).result = .ok ()) (hlog : log ∈ logs)
    {row : Row} (hrow : depositRow assetId log = .ok (some row)) :
    row.operationId ∈ (noteLogs assetId logs rows).state.map Row.operationId := by
  induction logs generalizing rows with
  | nil => cases hlog
  | cons first logs ih =>
    rw [noteLogs] at h ⊢
    cases hfirst : depositRow assetId first with
    | error e =>
      rw [hfirst] at h
      cases h
    | ok row' =>
      rw [hfirst] at h
      rcases List.mem_cons.mp hlog with rfl | hlog
      · rw [hrow] at hfirst
        cases hfirst
        exact List.map_subset _ subset_noteLogs (insertOrIgnore_id rows row)
      · exact ih h hlog

/-- Sources whose logs the RPC has answered. -/
def answeredSources (sources : List (String × List DepositLog)) :
    List (String × Outcome RelayerError (List DepositLog)) :=
  sources.map fun (assetId, logs) => (assetId, .ok logs)

section Sources

variable {sources : List (String × List DepositLog)}

theorem noteSources_cons (assetId : String) (logs : List DepositLog) (rows : List Row) :
    noteSources (answeredSources ((assetId, logs) :: sources)) rows =
      (noteLogs assetId logs rows).andThen fun _ rows =>
        noteSources (answeredSources sources) rows := rfl

/-- **When the logs of a range are noted.** -/
theorem noteSources_iff (rows : List Row) :
    (noteSources (answeredSources sources) rows).result = .ok () ↔
    ∀ x ∈ sources, ∀ log ∈ x.2, log.Readable := by
  induction sources generalizing rows with
  | nil => simp [answeredSources, noteSources]
  | cons x sources ih =>
    obtain ⟨assetId, logs⟩ := x
    rw [noteSources_cons, List.forall_mem_cons, ← noteLogs_iff assetId logs rows]
    cases h : (noteLogs assetId logs rows).result with
    | ok u => simp [Applied.andThen_of_ok h, ih]
    | error e => simp [Applied.andThen_of_error h]

theorem subset_noteSources {answers : List (String × Outcome RelayerError (List DepositLog))} :
    rows ⊆ (noteSources answers rows).state := by
  induction answers generalizing rows with
  | nil => exact List.Subset.refl rows
  | cons x answers ih =>
    obtain ⟨assetId, answer⟩ := x
    rw [noteSources]
    cases answer with
    | error e => exact List.Subset.refl rows
    | ok logs =>
      refine Applied.andThen_rule (P := fun rows' => rows ⊆ rows') subset_noteLogs fun _ _ => ?_
      exact List.Subset.trans subset_noteLogs ih

theorem noteSources_id (h : (noteSources (answeredSources sources) rows).result = .ok ())
    (hsource : (assetId, logs) ∈ sources) (hlog : log ∈ logs) {row : Row}
    (hrow : depositRow assetId log = .ok (some row)) :
    row.operationId ∈ (noteSources (answeredSources sources) rows).state.map Row.operationId := by
  induction sources generalizing rows with
  | nil => cases hsource
  | cons x sources ih =>
    obtain ⟨assetId', logs'⟩ := x
    rw [noteSources_cons] at h ⊢
    cases hfirst : (noteLogs assetId' logs' rows).result with
    | error e =>
      rw [Applied.andThen_of_error hfirst] at h
      cases h
    | ok u =>
      rw [Applied.andThen_of_ok hfirst] at h ⊢
      rcases List.mem_cons.mp hsource with heq | hsource
      · cases heq
        exact List.map_subset _ subset_noteSources (noteLogs_id hfirst hlog hrow)
      · exact ih h hsource

end Sources

/-! ## 3. Rules -/

/-- The rows the polls of an iteration can note. -/
inductive Arrives (py : Python) (cfg : Settings) (a : Answers) (row : Row) : Prop where
  | log (assetId : String) (logs : List DepositLog) (log : DepositLog)
      (hsource : (assetId, .ok logs) ∈ a.sources) (hlog : log ∈ logs)
      (hrow : depositRow assetId log = .ok (some row))
  | transaction (history : List Transaction) (t : Transaction) (detail : Detail)
      (hanswer : a.solana.history = .ok history) (ht : t ∈ history)
      (hfound : a.solana.found t.signature = .ok (some detail))
      (hrow : transactionRow py cfg t detail = .ok (some row))
  | burn (views : List Rpc.AssetOperationView) (v : Rpc.AssetOperationView)
      (hanswer : a.burns = .ok views) (hv : v ∈ views) (hrow : burnRow v = some row)

section Rules

variable {py : Python} {cfg : Settings} {a : Answers} {Q : List Row → Prop} {P : Db → Prop} {d : Db}

theorem depositRow_some {row : Row} (h : depositRow assetId log = .ok (some row)) :
    row.status = "detected" ∧ row.direction = "inbound" ∧ row.assetId = assetId := by
  unfold depositRow at h
  split at h
  · obtain ⟨d, -, h⟩ := Outcome.bind_eq_ok.mp h
    cases h
    exact ⟨rfl, rfl, rfl⟩
  · cases h

theorem transactionRow_some {t : Transaction} {detail : Detail} {row : Row}
    (h : transactionRow py cfg t detail = .ok (some row)) :
    ∃ assetId deposit, row = inbound t assetId deposit := by
  unfold transactionRow at h
  split at h
  · unfold solanaRow at h
    split at h
    · cases h
    split at h
    · cases h
    obtain ⟨deposit, -, h⟩ := Outcome.bind_eq_ok.mp h
    obtain ⟨x, -, hx⟩ := Option.map_eq_some_iff.mp (Except.ok.inj h)
    exact ⟨_, _, hx.symm⟩
  · have h := Except.ok.inj h
    simp only [custodyRow, Option.bind_eq_bind, Option.bind_eq_some_iff, Option.some.injEq] at h
    obtain ⟨_, -, _, -, _, -, hx⟩ := h
    exact ⟨_, _, hx.symm⟩

theorem Arrives.detected {row : Row} (h : Arrives py cfg a row) : row.status = "detected" := by
  cases h with
  | log _ _ _ _ _ hrow => exact (depositRow_some hrow).1
  | transaction _ _ _ _ _ _ hrow =>
    obtain ⟨_, _, rfl⟩ := transactionRow_some hrow
    rfl
  | burn _ _ _ _ hrow => exact (burnRow_detected hrow).1

theorem noteLogs_rule (hins : ∀ rows row, (∃ log ∈ logs, depositRow assetId log = .ok (some row)) →
    Q rows → Q (insertOrIgnore rows row)) (hQ : Q rows) : Q (noteLogs assetId logs rows).state := by
  induction logs generalizing rows with
  | nil => exact hQ
  | cons log logs ih =>
    rw [noteLogs]
    cases hlog : depositRow assetId log with
    | error e => exact hQ
    | ok row =>
      refine ih (fun rows row ⟨log', hlog', hrow⟩ =>
        hins rows row ⟨log', List.mem_cons_of_mem log hlog', hrow⟩) ?_
      cases row with
      | none => exact hQ
      | some row => exact hins rows row ⟨log, List.mem_cons_self, hlog⟩ hQ

theorem noteSources_rule (sources : List (String × Outcome RelayerError (List DepositLog)))
    (rows : List Row)
    (hins : ∀ rows row, (∃ assetId logs log, (assetId, .ok logs) ∈ sources ∧ log ∈ logs ∧
      depositRow assetId log = .ok (some row)) → Q rows → Q (insertOrIgnore rows row))
    (hQ : Q rows) : Q (noteSources sources rows).state := by
  induction sources generalizing rows with
  | nil => exact hQ
  | cons x sources ih =>
    obtain ⟨assetId, answer⟩ := x
    rw [noteSources]
    cases answer with
    | error e => exact hQ
    | ok logs =>
      have hfirst : Q (noteLogs assetId logs rows).state :=
        noteLogs_rule (fun rows row ⟨log, hlog, hrow⟩ =>
          hins rows row ⟨assetId, logs, log, List.mem_cons_self, hlog, hrow⟩) hQ
      refine Applied.andThen_rule (P := Q) hfirst fun _ _ => ?_
      exact ih _ (fun rows row ⟨assetId', logs', log, hmem, hlog, hrow⟩ =>
        hins rows row ⟨assetId', logs', log, List.mem_cons_of_mem _ hmem, hlog, hrow⟩) hfirst

theorem noteTransactions_rule {read : Transaction → Detail → Outcome RelayerError (Option Row)}
    (found : String → Outcome RelayerError (Option Detail)) (history : List Transaction)
    (rows : List Row) (hins : ∀ rows row, (∃ t ∈ history, ∃ detail,
      found t.signature = .ok (some detail) ∧ read t detail = .ok (some row)) →
        Q rows → Q (insertOrIgnore rows row)) (hQ : Q rows) :
    Q (noteTransactions read found history rows).state := by
  induction history generalizing rows with
  | nil => exact hQ
  | cons t history ih =>
    have hrest := fun rows => ih rows fun rows row ⟨t', ht', hrow⟩ =>
      hins rows row ⟨t', List.mem_cons_of_mem t ht', hrow⟩
    rw [noteTransactions]
    split
    · exact hrest rows hQ
    cases hfound : found t.signature with
    | error e => exact hQ
    | ok answer =>
      rw [Applied.attempt_ok]
      cases answer with
      | none => exact hrest rows hQ
      | some detail =>
        dsimp only
        cases ht : read t detail with
        | error e => exact hQ
        | ok row =>
          refine hrest _ ?_
          cases row with
          | none => exact hQ
          | some row => exact hins rows row ⟨t, List.mem_cons_self, detail, hfound, ht⟩ hQ

theorem discoverBurns_rule {views : List Rpc.AssetOperationView}
    (hins : ∀ rows row, (∃ v ∈ views, burnRow v = some row) → Q rows → Q (insertOrIgnore rows row))
    (hQ : Q rows) : Q (discoverBurns views rows) := by
  unfold discoverBurns
  induction views generalizing rows with
  | nil => exact hQ
  | cons v views ih =>
    rw [List.foldl_cons]
    refine ih (fun rows row ⟨v', hv', hrow⟩ =>
      hins rows row ⟨v', List.mem_cons_of_mem v hv', hrow⟩) ?_
    cases hv : burnRow v with
    | none => exact hQ
    | some row => exact hins rows row ⟨v, List.mem_cons_self, hv⟩ hQ

theorem mem_unseen {previous : String} {history : List Transaction} {t : Transaction}
    (h : t ∈ unseen previous history) : t ∈ history := by
  unfold unseen at h
  split at h
  · exact (List.takeWhile_sublist _).subset (List.mem_reverse.mp h)
  · exact List.mem_reverse.mp h

/-- What the database goes through in the polls of the vault and of the chain. -/
structure ChainSteps (py : Python) (cfg : Settings) (a : Answers) (P : Db → Prop) : Prop where
  row : ∀ d row, Arrives py cfg a row → P d →
    P (d.withRows (insertOrIgnore d.tables.operations row))
  solanaSignature : ∀ d signature, P d → P (d.setSolanaSignature signature)
  commit : ∀ d, P d → P d.commit

/-- What the database goes through in the polls of an iteration. -/
structure PollSteps (py : Python) (cfg : Settings) (a : Answers) (P : Db → Prop) : Prop extends
    ChainSteps py cfg a P where
  ethBlock : ∀ d block, P d → P (d.setEthBlock block)

theorem ChainSteps.noted (h : ChainSteps py cfg a P) (d : Db) (rows : List Row) (row : Row)
    (hrow : Arrives py cfg a row) (hP : P (d.withRows rows)) :
    P (d.withRows (insertOrIgnore rows row)) :=
  h.row (d.withRows rows) row hrow hP

theorem ChainSteps.solana (h : ChainSteps py cfg a P) (hP : P d) :
    P (discoverSolanaDeposits (transactionRow py cfg) a.solana d).state := by
  have hcursor : P (solanaCursor a.solana.newest d).state := by
    unfold solanaCursor
    cases d.tables.solanaSignature with
    | some signature => exact hP
    | none =>
      cases a.solana.newest with
      | error e => exact hP
      | ok signatures => exact h.commit _ (h.solanaSignature _ _ hP)
  unfold discoverSolanaDeposits
  refine Applied.andThen_rule hcursor fun previous _ => ?_
  cases hhistory : a.solana.history with
  | error e => exact hcursor
  | ok signatures =>
    rw [Applied.attempt_ok]
    cases signatures with
    | nil => exact hcursor
    | cons newest rest =>
      dsimp only
      split
      · exact h.commit _ (h.solanaSignature _ _ hcursor)
      · have hrows := noteTransactions_rule
          (Q := fun rows => P ((solanaCursor a.solana.newest d).state.withRows rows))
          a.solana.found (unseen previous (newest :: rest))
          (solanaCursor a.solana.newest d).state.tables.operations
          (fun rows row ⟨t, ht, detail, hfound, hrow⟩ => h.noted _ rows row
            (.transaction _ t detail hhistory (mem_unseen ht) hfound hrow)) hcursor
        split
        · exact h.commit _ (h.solanaSignature _ _ hrows)
        · exact hrows

theorem ChainSteps.burns (h : ChainSteps py cfg a P) (hP : P d) :
    P (noteBurns a.burns d).state := by
  unfold noteBurns
  cases hviews : a.burns with
  | error e => exact hP
  | ok views =>
    refine h.commit _ ?_
    exact discoverBurns_rule (Q := fun rows => P (d.withRows rows))
      (fun rows row ⟨v, hv, hrow⟩ => h.noted d rows row (.burn views v hviews hv hrow)) hP

theorem ChainSteps.chains (h : ChainSteps py cfg a P) (hP : P d) :
    P (pollChains py cfg a d).state := by
  unfold pollChains
  have hsolana : P (if cfg.solanaEnabled then discoverSolanaDeposits (transactionRow py cfg) a.solana d
      else ⟨.ok (), d⟩).state := by
    split
    · exact h.solana hP
    · exact hP
  exact Applied.andThen_rule hsolana fun _ _ => h.burns hsolana

/-- What the database goes through in the poll of the contracts. -/
structure ContractSteps (py : Python) (cfg : Settings) (a : Answers) (P : Db → Prop) : Prop where
  row : ∀ d row, Arrives py cfg a row → P d →
    P (d.withRows (insertOrIgnore d.tables.operations row))
  ethBlock : ∀ d block, P d → P (d.setEthBlock block)
  commit : ∀ d, P d → P d.commit

theorem ContractSteps.contracts (h : ContractSteps py cfg a P) (hP : P d) :
    P (pollContracts cfg a d).state := by
  unfold pollContracts
  cases a.tip with
  | error e => exact hP
  | ok tip =>
    have hcursor : P (cursor a.start d).state := by
      unfold cursor
      cases d.tables.ethBlock with
      | some block => exact hP
      | none =>
        cases a.start with
        | error e => exact hP
        | ok block => exact h.commit _ (h.ethBlock _ _ hP)
    rw [Applied.attempt_ok]
    refine Applied.andThen_rule hcursor fun previous _ => ?_
    split
    · have hdeposits : P (discoverDeposits previous (tip - cfg.confirmations) a.sources
          (cursor a.start d).state).state := by
        unfold discoverDeposits
        split
        · exact hcursor
        have hnoted := noteSources_rule (Q := fun rows => P ((cursor a.start d).state.withRows rows))
          a.sources (cursor a.start d).state.tables.operations
          (fun rows row ⟨assetId, logs, log, hsource, hlog, hrow⟩ =>
            h.row ((cursor a.start d).state.withRows rows) row
              (.log assetId logs log hsource hlog hrow)) hcursor
        unfold Db.note
        split
        · exact h.commit _ hnoted
        · exact hnoted
      refine Applied.andThen_rule hdeposits fun _ _ => ?_
      exact h.commit _ (h.ethBlock _ _ hdeposits)
    · exact hcursor

theorem PollSteps.contracts (h : PollSteps py cfg a P) (hP : P d) :
    P (pollContracts cfg a d).state :=
  ContractSteps.contracts ⟨h.row, h.ethBlock, h.commit⟩ hP

/-- The database behind the polls of an iteration. -/
def polled (py : Python) (cfg : Settings) (a : Answers) (d : Db) : Applied RelayerError Db Unit :=
  (pollContracts cfg a d).andThen fun _ d => pollChains py cfg a d

/-- **The rule of polls**: what their steps keep, the polls of an iteration keep. -/
theorem PollSteps.polls (h : PollSteps py cfg a P) (hP : P d) :
    P (polled py cfg a d).state :=
  Applied.andThen_rule (h.contracts hP) fun _ _ => h.toChainSteps.chains (h.contracts hP)

/-- Polls that end without an error have committed what they noted. -/
theorem polled_committed (h : (polled py cfg a d).result = .ok ()) :
    (polled py cfg a d).state.committed = (polled py cfg a d).state.tables := by
  have hburns : ∀ d, (noteBurns a.burns d).result = .ok () →
      (noteBurns a.burns d).state.committed = (noteBurns a.burns d).state.tables := by
    intro d h
    unfold noteBurns at h ⊢
    cases hviews : a.burns with
    | error e =>
      rw [hviews] at h
      cases h
    | ok views => rfl
  unfold polled at h ⊢
  cases hcontracts : (pollContracts cfg a d).result with
  | error e =>
    rw [Applied.andThen_of_error hcontracts] at h
    cases h
  | ok u =>
    rw [Applied.andThen_of_ok hcontracts] at h ⊢
    unfold pollChains at h ⊢
    cases hsolana : (if cfg.solanaEnabled then discoverSolanaDeposits (transactionRow py cfg) a.solana
        (pollContracts cfg a d).state else ⟨.ok (), (pollContracts cfg a d).state⟩).result with
    | error e =>
      rw [Applied.andThen_of_error hsolana] at h
      cases h
    | ok u =>
      rw [Applied.andThen_of_ok hsolana] at h ⊢
      exact hburns _ h

/-- **An iteration** polls, and processes the rows of what is committed then. -/
theorem iteration_cases {ω : Type} (O : Outside ω) (py : Python) (cfg : Settings) (a : Answers)
    (s : Site ω) :
    (iteration O py cfg a s).state = ⟨(polled py cfg a s.db).state, s.outside⟩ ∨
      ((polled py cfg a s.db).state.committed = (polled py cfg a s.db).state.tables ∧
        (iteration O py cfg a s).state =
          (processOperations O py cfg ⟨(polled py cfg a s.db).state, s.outside⟩).state) := by
  cases h : (polled py cfg a s.db).result with
  | error e =>
    left
    unfold polled at h
    unfold iteration
    simp only [h]
    rfl
  | ok u =>
    right
    refine ⟨polled_committed h, ?_⟩
    unfold polled at h
    unfold iteration
    simp only [h]
    rfl

end Rules

/-! ## 4. What an iteration keeps -/

/-- Rows that are committed, whatever their statuses have become, and the committed cursor. -/
structure Holds (keys : List Row) (block : Nat) (d : Db) : Prop where
  committed : keys ⊆ d.committed.operations.map Row.key
  noted : keys ⊆ d.tables.operations.map Row.key
  cursor : d.committed.ethBlock = some block ∧ d.tables.ethBlock = some block

/-- `PRIMARY KEY`: one row an operation id. -/
structure Db.OneRow (d : Db) : Prop where
  ids : (d.tables.operations.map Row.operationId).Nodup
  committedIds : (d.committed.operations.map Row.operationId).Nodup

section Holds

variable {keys : List Row} {block : Nat} {d : Db}

theorem Holds.commit (h : Holds keys block d) : Holds keys block d.commit :=
  ⟨h.noted, h.noted, h.cursor.2, h.cursor.2⟩

theorem Holds.withRows (h : Holds keys block d)
    (hrows : keys ⊆ rows.map Row.key) : Holds keys block (d.withRows rows) :=
  ⟨h.committed, hrows, h.cursor⟩

theorem Holds.solana (h : Holds keys block d) (signature : String) :
    Holds keys block (d.setSolanaSignature signature) :=
  ⟨h.committed, h.noted, h.cursor⟩

theorem Holds.setStatus (h : Holds keys block d) (id status : String) :
    Holds keys block (d.setStatus id status) := by
  have hset : Holds keys block (d.withRows (d.setStatus id status).tables.operations) := by
    refine h.withRows ?_
    rw [setStatus_keys]
    exact h.noted
  exact hset.commit

theorem Holds.markError (h : Holds keys block d) (now : Nat) (id : String) :
    Holds keys block (d.markError now id) := by
  have hcount : Holds keys block (d.countAttempt now id) := ⟨h.committed, h.noted, h.cursor⟩
  exact hcount.setStatus id "retry"

theorem holds_chainSteps (keys : List Row) (block : Nat) (py : Python) (cfg : Settings)
    (a : Answers) : ChainSteps py cfg a (Holds keys block) where
  row d row _ h := h.withRows (List.Subset.trans h.noted
    (List.map_subset Row.key (subset_insertOrIgnore d.tables.operations row)))
  solanaSignature _ signature h := h.solana signature
  commit _ h := h.commit

theorem Db.OneRow.commit (h : d.OneRow) : d.commit.OneRow := ⟨h.ids, h.ids⟩

theorem Db.OneRow.setStatus (h : d.OneRow) (id status : String) : (d.setStatus id status).OneRow :=
  have hids := nodup_setStatus h.ids id status
  ⟨hids, hids⟩

theorem Db.OneRow.markError (h : d.OneRow) (now : Nat) (id : String) : (d.markError now id).OneRow :=
  have hcount : (d.countAttempt now id).OneRow := ⟨h.ids, h.committedIds⟩
  hcount.setStatus id "retry"

theorem oneRow_pollSteps (py : Python) (cfg : Settings) (a : Answers) :
    PollSteps py cfg a Db.OneRow where
  row _ row _ h := ⟨nodup_insertOrIgnore h.ids row, h.committedIds⟩
  solanaSignature _ _ h := ⟨h.ids, h.committedIds⟩
  commit _ h := h.commit
  ethBlock _ _ h := ⟨h.ids, h.committedIds⟩

/-- **An iteration keeps one row an id.** -/
theorem Db.OneRow.iteration {ω : Type} {O : Outside ω} {py : Python} {cfg : Settings} {a : Answers}
    {s : Site ω} (h : s.db.OneRow) : (iteration O py cfg a s).state.db.OneRow := by
  have hpolled := (oneRow_pollSteps py cfg a).polls h
  rcases iteration_cases O py cfg a s with heq | ⟨-, heq⟩
  · rw [heq]
    exact hpolled
  · rw [heq]
    exact process_rule (fun d id status h => h.setStatus id status)
      (fun d now id h => h.markError now id) (fun d h => h.commit) hpolled

end Holds

/-! ## 5. Ranges -/

section Range

variable {ω : Type} {O : Outside ω} {py : Python} {cfg : Settings} {a : Answers} {s : Site ω}
variable {sources : List (String × List DepositLog)} {views : List Rpc.AssetOperationView}
variable {tip previous : Nat}

/-- The rows of the logs of a range that can be decoded. -/
def rowsOf (sources : List (String × List DepositLog)) : List Row :=
  sources.flatMap fun x => x.2.filterMap fun log => (depositRow x.1 log).toOption.join

/-- What is under the id of a log's row, in the table and in the range, says the same. -/
def OwnIds (rows : List Row) (sources : List (String × List DepositLog)) : Prop :=
  ∀ row ∈ rowsOf sources, ∀ r ∈ rows ++ rowsOf sources,
    r.operationId = row.operationId → r.key = row.key

instance (rows : List Row) (sources : List (String × List DepositLog)) :
    Decidable (OwnIds rows sources) :=
  inferInstanceAs (Decidable (∀ row ∈ _, ∀ r ∈ _, _ → _))

/-- An iteration commits a row with all that its log says for every log of its range that can be
    decoded, moves the cursor behind the range, polls the chain for burns and processes what there
    is then. -/
structure Handles (O : Outside ω) (py : Python) (cfg : Settings) (a : Answers) (s : Site ω)
    (sources : List (String × List DepositLog)) (views : List Rpc.AssetOperationView)
    (tip : Nat) : Prop where
  recorded : ∀ row ∈ rowsOf sources,
    row.key ∈ (iteration O py cfg a s).state.db.committed.operations.map Row.key
  advanced : (iteration O py cfg a s).state.db.committed.ethBlock =
      some (tip - cfg.confirmations + 1) ∧
    (iteration O py cfg a s).state.db.tables.ethBlock = some (tip - cfg.confirmations + 1)
  burns : ∀ v ∈ views, ∀ row, burnRow v = some row →
    row.operationId ∈ (iteration O py cfg a s).state.db.committed.operations.map Row.operationId
  processed : ∃ d, iteration O py cfg a s =
    processOperations O py cfg ⟨(noteBurns a.burns d).state, s.outside⟩

/-- The cursor that is read is the table's. -/
theorem cursor_block {start : Outcome RelayerError Nat} {d : Db}
    (h : (cursor start d).result = .ok previous) :
    (cursor start d).state.tables.ethBlock = some previous := by
  unfold cursor at h ⊢
  cases hblock : d.tables.ethBlock with
  | some block =>
    rw [hblock] at h
    cases h
    exact hblock
  | none =>
    rw [hblock] at h
    cases start with
    | error e => cases h
    | ok block =>
      cases h
      rfl

/-- The poll of the contracts, where the cursor is known. -/
theorem pollContracts_eq (cfg : Settings) (htip : a.tip = .ok tip)
    (hcursor : (cursor a.start s.db).result = .ok previous)
    (hrange : previous + cfg.confirmations ≤ tip) :
    pollContracts cfg a s.db =
      ((cursor a.start s.db).state.note
        (noteSources a.sources (cursor a.start s.db).state.tables.operations)).andThen fun _ d =>
          ⟨.ok (), (d.setEthBlock (tip - cfg.confirmations + 1)).commit⟩ := by
  have hlt : ¬ tip - cfg.confirmations < previous := by omega
  unfold pollContracts discoverDeposits
  rw [htip, Applied.attempt_ok, Applied.andThen_of_ok hcursor]
  simp only [if_pos hrange, if_neg hlt]

theorem mem_rowsOf {row : Row} : row ∈ rowsOf sources ↔
    ∃ x ∈ sources, ∃ log ∈ x.2, depositRow x.1 log = .ok (some row) := by
  have hrow : ∀ x : String × List DepositLog, ∀ log,
      (depositRow x.1 log).toOption.join = some row ↔ depositRow x.1 log = .ok (some row) := by
    intro x log
    cases depositRow x.1 log with
    | error e => simp [Except.toOption]
    | ok found => simp [Except.toOption]
  simp only [rowsOf, List.mem_flatMap, List.mem_filterMap, hrow]

/-- The cursor is read without a change to the rows. -/
theorem cursor_rows (start : Outcome RelayerError Nat) (d : Db) :
    (cursor start d).state.tables.operations = d.tables.operations := by
  unfold cursor
  cases d.tables.ethBlock with
  | some block => rfl
  | none => cases start <;> rfl

/-- The polls of the vault and of the chain end without an error and note the burns. -/
theorem holds_pollChains {keys : List Row} {block : Nat} {d : Db}
    (hsolana : cfg.solanaEnabled = true →
      ∀ d, (discoverSolanaDeposits (transactionRow py cfg) a.solana d).result = .ok ())
    (hburns : a.burns = .ok views) (h : Holds keys block d) :
    ∃ d', pollChains py cfg a d = ⟨.ok (), (noteBurns a.burns d').state⟩ ∧
      Holds keys block (noteBurns a.burns d').state ∧
      ∀ v ∈ views, ∀ row, burnRow v = some row → ∃ r : Row, r.operationId = row.operationId ∧
        Holds [r.key] block (noteBurns a.burns d').state := by
  have hkept := (holds_chainSteps keys block py cfg a).chains h
  obtain ⟨d1, hd1⟩ : ∃ d1, (if cfg.solanaEnabled then
      discoverSolanaDeposits (transactionRow py cfg) a.solana d else ⟨.ok (), d⟩) = ⟨.ok (), d1⟩ := by
    cases henabled : cfg.solanaEnabled with
    | false => exact ⟨d, rfl⟩
    | true => exact ⟨_, Applied.eq_of_result (hsolana henabled d)⟩
  have hnote : noteBurns a.burns d1 = ⟨.ok (),
      (d1.withRows (discoverBurns views d1.tables.operations)).commit⟩ := by
    rw [hburns]
    rfl
  have hchains : pollChains py cfg a d = ⟨.ok (), (noteBurns a.burns d1).state⟩ := by
    unfold pollChains
    rw [hd1, Applied.andThen_of_ok rfl, hnote]
  rw [hchains] at hkept
  refine ⟨d1, hchains, hkept, fun v hv row hrow => ?_⟩
  rw [hnote] at hkept ⊢
  have hin : row.operationId ∈
      (discoverBurns views d1.tables.operations).map Row.operationId := discoverBurns_id hv hrow
  obtain ⟨r, hr, hid⟩ := List.mem_map.mp hin
  have hkey : [r.key] ⊆ (discoverBurns views d1.tables.operations).map Row.key := by
    intro k hk
    rw [List.mem_singleton.mp hk]
    exact List.mem_map_of_mem hr
  exact ⟨r, hid, hkey, hkey, hkept.cursor⟩

/-- Rows of the range are noted as they are, where nothing else is under their ids. -/
theorem noteSources_key (hown : OwnIds rows sources)
    (h : (noteSources (answeredSources sources) rows).result = .ok ()) {row : Row}
    (hrow : row ∈ rowsOf sources) :
    row.key ∈ (noteSources (answeredSources sources) rows).state.map Row.key := by
  have hfrom : ∀ r ∈ (noteSources (answeredSources sources) rows).state,
      r ∈ rows ++ rowsOf sources := by
    refine noteSources_rule (Q := fun rows' => ∀ r ∈ rows', r ∈ rows ++ rowsOf sources) _ rows
      (fun rows' row' hsource hrows r hr => ?_) fun r hr => List.mem_append_left _ hr
    rcases mem_insertOrIgnore hr with hr | ⟨rfl, -⟩
    · exact hrows r hr
    · obtain ⟨assetId, logs, log, hmem, hlog, hrow⟩ := hsource
      obtain ⟨x, hx, heq⟩ := List.mem_map.mp hmem
      cases heq
      exact List.mem_append_right _ (mem_rowsOf.mpr ⟨x, hx, log, hlog, hrow⟩)
  obtain ⟨x, hx, log, hlog, hnoted⟩ := mem_rowsOf.mp hrow
  obtain ⟨r, hr, hid⟩ := List.mem_map.mp (noteSources_id h hx hlog hnoted)
  rw [← hown row hrow r (hfrom r hr) hid]
  exact List.mem_map_of_mem hr

/-- Where the logs of the range cannot be noted, the cursor stays where it was. -/
theorem iteration_refused (htip : a.tip = .ok tip)
    (hcursor : (cursor a.start s.db).result = .ok previous)
    (hrange : previous + cfg.confirmations ≤ tip) (hsources : a.sources = answeredSources sources)
    {e : Fault RelayerError}
    (hnoted : (noteSources (answeredSources sources) s.db.tables.operations).result = .error e) :
    (iteration O py cfg a s).state.db.tables.ethBlock = some previous := by
  have hpoll := pollContracts_eq cfg htip hcursor hrange
  rw [hsources, cursor_rows] at hpoll
  have hpolled : pollContracts cfg a s.db = ⟨.error e, (cursor a.start s.db).state.withRows
      (noteSources (answeredSources sources) s.db.tables.operations).state⟩ := by
    rw [hpoll]
    unfold Db.note
    rw [hnoted]
    rfl
  rw [← cursor_block hcursor]
  unfold iteration
  rw [hpolled]
  rfl

/-- Where they are noted, what is noted is committed at the end, with the cursor behind the range,
    and so are the rows of the burns. -/
theorem iteration_noted (htip : a.tip = .ok tip)
    (hcursor : (cursor a.start s.db).result = .ok previous)
    (hrange : previous + cfg.confirmations ≤ tip) (hsources : a.sources = answeredSources sources)
    (hsolana : cfg.solanaEnabled = true →
      ∀ d, (discoverSolanaDeposits (transactionRow py cfg) a.solana d).result = .ok ())
    (hburns : a.burns = .ok views)
    (hnoted : (noteSources (answeredSources sources) s.db.tables.operations).result = .ok ())
    (keys : List Row) (hkeys : keys ⊆ (noteSources (answeredSources sources)
      s.db.tables.operations).state.map Row.key) :
    ∃ d, iteration O py cfg a s =
        processOperations O py cfg ⟨(noteBurns a.burns d).state, s.outside⟩ ∧
      Holds keys (tip - cfg.confirmations + 1) (iteration O py cfg a s).state.db ∧
      ∀ v ∈ views, ∀ row, burnRow v = some row → ∃ r : Row, r.operationId = row.operationId ∧
        Holds [r.key] (tip - cfg.confirmations + 1) (iteration O py cfg a s).state.db := by
  have hpoll := pollContracts_eq cfg htip hcursor hrange
  rw [hsources, cursor_rows] at hpoll
  have hpolled : pollContracts cfg a s.db = ⟨.ok (), (((cursor a.start s.db).state.withRows
      (noteSources (answeredSources sources) s.db.tables.operations).state).commit.setEthBlock
        (tip - cfg.confirmations + 1)).commit⟩ := by
    rw [hpoll]
    unfold Db.note
    rw [hnoted]
    rfl
  have hheld : Holds keys (tip - cfg.confirmations + 1) (((cursor a.start s.db).state.withRows
      (noteSources (answeredSources sources) s.db.tables.operations).state).commit.setEthBlock
        (tip - cfg.confirmations + 1)).commit := ⟨hkeys, hkeys, rfl, rfl⟩
  obtain ⟨d, hchains, hkept, hfound⟩ := holds_pollChains hsolana hburns hheld
  have hiteration : iteration O py cfg a s =
      processOperations O py cfg ⟨(noteBurns a.burns d).state, s.outside⟩ := by
    unfold iteration
    rw [hpolled, Applied.andThen_of_ok rfl, hchains]
  have hprocess : ∀ keys, Holds keys (tip - cfg.confirmations + 1) (noteBurns a.burns d).state →
      Holds keys (tip - cfg.confirmations + 1) (iteration O py cfg a s).state.db := by
    intro keys hkeys
    rw [hiteration]
    exact process_rule (fun d id status h => h.setStatus id status)
      (fun d now id h => h.markError now id) (fun d h => h.commit) hkeys
  refine ⟨d, hiteration, hprocess keys hkept, fun v hv row hrow => ?_⟩
  obtain ⟨r, hid, hr⟩ := hfound v hv row hrow
  exact ⟨r, hid, hprocess _ hr⟩

/-- **When an iteration handles a range**, other polls being answered: exactly if each log of the
    range with three topics can be decoded, and whatever else is under its id, in the table or in
    the range, says the same. -/
theorem iteration_handles_iff (hone : s.db.OneRow) (htip : a.tip = .ok tip)
    (hcursor : (cursor a.start s.db).result = .ok previous)
    (hrange : previous + cfg.confirmations ≤ tip) (hsources : a.sources = answeredSources sources)
    (hsolana : cfg.solanaEnabled = true →
      ∀ d, (discoverSolanaDeposits (transactionRow py cfg) a.solana d).result = .ok ())
    (hburns : a.burns = .ok views) :
    Handles O py cfg a s sources views tip ↔
      (∀ x ∈ sources, ∀ log ∈ x.2, log.Readable) ∧ OwnIds s.db.tables.operations sources := by
  rw [← noteSources_iff s.db.tables.operations]
  cases hnoted : (noteSources (answeredSources sources) s.db.tables.operations).result with
  | error e =>
    refine ⟨fun h => ?_, fun h => by cases h.1⟩
    have hadvanced := h.advanced.2
    rw [iteration_refused htip hcursor hrange hsources hnoted] at hadvanced
    have hblock := Option.some.inj hadvanced
    omega
  | ok u =>
    have hheld := iteration_noted (O := O) htip hcursor hrange hsources hsolana hburns hnoted
    constructor
    · intro h
      refine ⟨rfl, fun row hrow r hr hid => ?_⟩
      -- the rows of the table are committed as well, and there is one row an id
      have hcommitted : r.key ∈
          (iteration O py cfg a s).state.db.committed.operations.map Row.key := by
        rcases List.mem_append.mp hr with hr | hr
        · obtain ⟨d, -, hkept, -⟩ := hheld [r.key] (by
            intro k hk
            rw [List.mem_singleton.mp hk]
            exact List.mem_map_of_mem (subset_noteSources hr))
          exact hkept.committed (List.mem_singleton_self _)
        · exact h.recorded r hr
      obtain ⟨r1, hr1, hkey1⟩ := List.mem_map.mp hcommitted
      obtain ⟨r2, hr2, hkey2⟩ := List.mem_map.mp (h.recorded row hrow)
      have hsame : r1.operationId = r2.operationId :=
        (congrArg Row.operationId hkey1).trans (hid.trans (congrArg Row.operationId hkey2).symm)
      rw [← hkey1, ← hkey2, row_eq hone.iteration.committedIds hr1 hr2 hsame]
    · rintro ⟨-, hown⟩
      obtain ⟨d, hiteration, hkept, hfound⟩ := hheld [] (List.nil_subset _)
      refine ⟨fun row hrow => ?_, hkept.cursor, fun v hv row hrow => ?_, d, hiteration⟩
      · obtain ⟨_, -, hrecorded, -⟩ := hheld [row.key] (by
          intro k hk
          rw [List.mem_singleton.mp hk]
          exact noteSources_key hown hnoted hrow)
        exact hrecorded.committed (List.mem_singleton_self _)
      · obtain ⟨r, hid, hr⟩ := hfound v hv row hrow
        have hkey := hr.committed (List.mem_singleton_self _)
        rw [← hid, ids_of_keys]
        exact List.mem_map.mpr ⟨r.key, hkey, rfl⟩

end Range

end Relayer

namespace Sample

open Relayer

def settings : Settings where
  toConfig := relayer
  solanaEnabled := false
  programMode := true
  vaultAddress := ""
  authorityKeypair := true
  vaultKeypair := false
  operatorToken := "token"
  mnaFeeBps := 50
  oracleUrl := false
  oraclePrice := 0
  oracleMaxAge := 120
  confirmations := 12

/-- An outside in which every call succeeds and nothing changes. -/
def calm : Outside Unit where
  now := fun _ => 0
  oracle := fun _ => ⟨.error (.err .runtime), ()⟩
  bridgeMint := fun _ _ => ⟨.ok (), ()⟩
  mnaReserveMint := fun _ _ => ⟨.ok (), ()⟩
  bridgeOperationStatus := fun _ _ => ⟨.ok .pending, ()⟩
  execute := fun _ _ => ⟨.ok (), ()⟩

/-- A word of an event's data whose last byte is given. -/
def word (low : String) : List Char := List.replicate 62 '0' ++ low.toList

/-- One wei for the bytes `destination`. -/
def depositLog (id : Char) (length destination : String)
    (hex : (word "01" ++ word "40" ++ word length ++ destination.toList).all hexDigit = true) :
    DepositLog where
  topics := ["0xdeposit", "0x" ++ String.ofList (List.replicate 64 id), "0xsender"]
  digits := word "01" ++ word "40" ++ word length ++ destination.toList
  transactionHash := "0xabc"
  blockNumber := 100
  hex := hex

/-- A deposit for the account. -/
def goodLog : DepositLog :=
  depositLog 'a' "2c" (hexString (Postcard.utf8 accountText)) (by decide +kernel)

/-- A deposit for two bytes that are no text. -/
def badLog : DepositLog := depositLog 'b' "02" "ffff" (by decide +kernel)

def answers (logs : List DepositLog) : Answers where
  tip := .ok 112
  start := .ok 0
  sources := answeredSources [("ethereum:WETH:sepolia:bridge", logs)]
  solana := ⟨.ok [], .ok [], fun _ => .ok none⟩
  burns := .ok []

/-- A relayer that has scanned the blocks below 100. -/
def scanned : Site Unit where
  db := ⟨⟨[], fun _ => 0, fun _ => 0, some 100, none⟩, ⟨[], fun _ => 0, fun _ => 0, some 100, none⟩⟩
  outside := ()

theorem cursor_scanned : (cursor (answers [goodLog]).start scanned.db).result = .ok 100 := rfl

theorem oneRow_scanned : scanned.db.OneRow := ⟨List.nodup_nil, List.nodup_nil⟩

/-- The log can be decoded, and nothing else is under its id. -/
theorem evaluated_goodLog :
    (∀ x ∈ [("ethereum:WETH:sepolia:bridge", [goodLog])], ∀ log ∈ x.2, log.Readable) ∧
      OwnIds scanned.db.tables.operations [("ethereum:WETH:sepolia:bridge", [goodLog])] := by
  decide +kernel

end Sample

namespace Relayer

theorem iteration_handles_goodLog : Handles Sample.calm Sample.python Sample.settings
    (Sample.answers [Sample.goodLog]) Sample.scanned
      [("ethereum:WETH:sepolia:bridge", [Sample.goodLog])] [] 112 :=
  (iteration_handles_iff Sample.oneRow_scanned rfl Sample.cursor_scanned (by decide) rfl
    (fun h => by cases h) rfl).mpr Sample.evaluated_goodLog

/-- **A malformed deposit stalls the relayer**: with it in the range the good deposit in front of it
    is not recorded and the cursor stays where it was. -/
theorem malformed_log_stalls :
    (depositRow "ethereum:WETH:sepolia:bridge" Sample.goodLog).isOk = true ∧
      (iteration Sample.calm Sample.python Sample.settings
        (Sample.answers [Sample.goodLog, Sample.badLog]) Sample.scanned).result =
          .error (.err .value) ∧
      (iteration Sample.calm Sample.python Sample.settings
        (Sample.answers [Sample.goodLog, Sample.badLog]) Sample.scanned).state.db.committed.operations
          = [] ∧
      ¬ Handles Sample.calm Sample.python Sample.settings
        (Sample.answers [Sample.goodLog, Sample.badLog]) Sample.scanned
          [("ethereum:WETH:sepolia:bridge", [Sample.goodLog, Sample.badLog])] [] 112 := by
  have hrun : (depositRow "ethereum:WETH:sepolia:bridge" Sample.goodLog).isOk = true ∧
      (iteration Sample.calm Sample.python Sample.settings
        (Sample.answers [Sample.goodLog, Sample.badLog]) Sample.scanned).result =
          .error (.err .value) ∧
      (iteration Sample.calm Sample.python Sample.settings
        (Sample.answers [Sample.goodLog, Sample.badLog]) Sample.scanned).state.db.committed.operations
          = [] ∧
      (iteration Sample.calm Sample.python Sample.settings
        (Sample.answers [Sample.goodLog, Sample.badLog]) Sample.scanned).state.db.committed.ethBlock
          ≠ some (112 - Sample.settings.confirmations + 1) := by
    decide +kernel
  obtain ⟨hreadable, hresult, hempty, hcursor⟩ := hrun
  exact ⟨hreadable, hresult, hempty, fun h => hcursor h.advanced.1⟩

end Relayer

end WorldstreetChain
