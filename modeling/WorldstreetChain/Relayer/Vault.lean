import WorldstreetChain.Relayer.Iteration

/-!
# The history of the vault (`solana_cursor`, `discover_solana_deposits`)

Transactions of the vault get final one after the other, and between two of them the relayer polls
or is started again. Its cursor is the newest transaction it has gone through. A poll is answered
the thousand newest transactions and takes those in front of the cursor, and moves the cursor to
the newest even where it has passed some over.

* `Relayer.Vault.next` -- a transaction gets final, an iteration, a restart.
* `Relayer.Attends` -- what a poll needs in order to note what is new.
* `Relayer.no_deposit_skipped` -- **no deposit is skipped** in a run whose polls have it.
* `Relayer.deposits_skipped` -- three runs in which one is skipped.
-/

namespace WorldstreetChain

open Solana

namespace Relayer

/-! ## 1. Rows of locks -/

/-- The row is that of the lock in the transaction. -/
structure RowOf (cfg : Config) (t : Transaction) (R : Runtime) (l : Lock) (row : Row) : Prop
    extends Credits cfg row R l where
  externalTransaction : row.externalTransaction = t.signature
  direction : row.direction = "inbound"

/-- One row is under the lock's id, and it is the lock's. -/
def Recorded (cfg : Config) (t : Transaction) (R : Runtime) (l : Lock) (rows : List Row) : Prop :=
  ∃ row, rows.filter (·.operationId = String.ofList l.input.id) = [row] ∧ RowOf cfg t R l row

section Rows

variable {cfg : Config} {t : Transaction} {R : Runtime} {l : Lock} {rows : List Row} {row : Row}

/-- Nobody else has a row under the lock's id. -/
def Unclaimed (cfg : Config) (t : Transaction) (R : Runtime) (l : Lock) (rows : List Row) : Prop :=
  ∀ row ∈ rows, row.operationId = String.ofList l.input.id → RowOf cfg t R l row

theorem recorded_of_mem (hids : (rows.map Row.operationId).Nodup) (hmem : row ∈ rows)
    (hrow : RowOf cfg t R l row) : Recorded cfg t R l rows := by
  refine ⟨row, ?_, hrow⟩
  have hin : row ∈ rows.filter (·.operationId = String.ofList l.input.id) :=
    List.mem_filter.mpr ⟨hmem, decide_eq_true hrow.operationId⟩
  have hnodup : (rows.filter (·.operationId = String.ofList l.input.id)).Nodup :=
    (List.Nodup.of_map _ hids).filter _
  have hall : ∀ r ∈ rows.filter (·.operationId = String.ofList l.input.id), r = row := by
    intro r hr
    obtain ⟨hin', hid⟩ := List.mem_filter.mp hr
    exact row_eq hids hin' hmem ((of_decide_eq_true hid).trans hrow.operationId.symm)
  have hsame := List.eq_replicate_of_mem hall
  have hpos := List.length_pos_of_mem hin
  rw [hsame, List.nodup_replicate] at hnodup
  rw [hsame, Nat.le_antisymm hnodup hpos]
  rfl

theorem Recorded.insert (h : Recorded cfg t R l rows) (row : Row) :
    Recorded cfg t R l (insertOrIgnore rows row) := by
  obtain ⟨row', hfilter, hrow⟩ := h
  unfold insertOrIgnore
  split
  · exact ⟨row', hfilter, hrow⟩
  · rename_i hnew
    have hmem : row' ∈ rows.filter (·.operationId = String.ofList l.input.id) := by
      rw [hfilter]
      exact List.mem_singleton_self row'
    obtain ⟨hin, hid⟩ := List.mem_filter.mp hmem
    have hne : ¬ row.operationId = String.ofList l.input.id := fun heq =>
      hnew (List.mem_map.mpr ⟨row', hin, (of_decide_eq_true hid).trans heq.symm⟩)
    refine ⟨row', ?_, hrow⟩
    rw [List.filter_append, hfilter, List.filter_singleton, decide_eq_false hne]
    rfl

theorem Recorded.setStatus {d : Db} (h : Recorded cfg t R l d.tables.operations)
    (id status : String) : Recorded cfg t R l (d.setStatus id status).tables.operations := by
  obtain ⟨row, hfilter, hrow⟩ := h
  let f := fun r : Row => if r.operationId = id then { r with status } else r
  have hkey : ∀ r : Row, (f r).operationId = r.operationId := by
    intro r
    show (if r.operationId = id then { r with status } else r).operationId = _
    split
    · rfl
    · rfl
  refine ⟨f row, ?_, ?_⟩
  · show (d.tables.operations.map f).filter _ = _
    rw [List.filter_map]
    have hsame : ((fun r : Row => decide (r.operationId = String.ofList l.input.id)) ∘ f) =
        fun r : Row => decide (r.operationId = String.ofList l.input.id) := by
      funext r
      show decide ((f r).operationId = _) = _
      rw [hkey]
    rw [hsame, hfilter]
    rfl
  · show RowOf cfg t R l (if row.operationId = id then { row with status } else row)
    split
    · exact { hrow with }
    · exact hrow

/-- The lock's row is noted, or it was before. -/
theorem Unclaimed.recorded (h : Unclaimed cfg t R l rows) (hids : (rows.map Row.operationId).Nodup)
    (hrow : RowOf cfg t R l row) : Recorded cfg t R l (insertOrIgnore rows row) := by
  by_cases hmem : row.operationId ∈ rows.map Row.operationId
  · have hsame : insertOrIgnore rows row = rows := if_pos hmem
    obtain ⟨row', hin, hid⟩ := List.mem_map.mp hmem
    rw [hsame]
    exact recorded_of_mem hids hin (h row' hin (hid.trans hrow.operationId))
  · have hnew : insertOrIgnore rows row = rows ++ [row] := if_neg hmem
    refine recorded_of_mem (nodup_insertOrIgnore hids row) ?_ hrow
    rw [hnew]
    exact List.mem_append_right _ (List.mem_singleton_self row)

theorem Unclaimed.insert (h : Unclaimed cfg t R l rows)
    (hrow : row.operationId ≠ String.ofList l.input.id) :
    Unclaimed cfg t R l (insertOrIgnore rows row) := by
  intro row' hmem hid
  rcases mem_insertOrIgnore hmem with hin | ⟨rfl, -⟩
  · exact h row' hin hid
  · exact absurd hid hrow

end Rows

/-! ## 2. Transactions that are read -/

section Reading

variable {py : Python} {cfg : Config} {t : Transaction} {R : Runtime} {l : Lock}

/-- A deposit of the SPL mint is taken if it is enabled and in micro-dollars. -/
def Branch.Taken (py : Python) (cfg : Config) : Branch → List Char → Prop
  | .spl, line => cfg.splEnabled = true ∧
    ∃ d, solanaSplProgramLog py [line] = .ok (some d) ∧ d.decimals = 6
  | _, _ => True

/-- The relayer reads the transaction as its one lock: some instruction at its top calls the
    program, and the line that decides is taken, and reads like the lock's. -/
structure Heard (py : Python) (cfg : Config) (t : Transaction) (R : Runtime) (l : Lock) : Prop where
  called : solanaProgramCalled cfg t = true
  alone : t.locks cfg = [(R, l)]
  solid : Solid l.input
  line : ∃ b line, decisive py cfg (t.logMessages cfg) = some (b, line) ∧ b.Taken py cfg line ∧
    laneAssetId cfg R l.lane = b.assetId cfg ∧
      b.reads py line = (Branch.ofLane l.lane).reads py (logLine R l)

/-- A log whose decisive line is taken is a deposit's, if it can be read. -/
theorem solanaDeposit_ne_none {log : List (List Char)} {b : Branch} {line : List Char}
    (h : decisive py cfg log = some (b, line)) (htaken : b.Taken py cfg line) :
    solanaDeposit py cfg log ≠ .ok none := by
  intro hnone
  unfold solanaDeposit at hnone
  obtain ⟨mna, hmna, hnone⟩ := Outcome.bind_eq_ok.mp hnone
  obtain ⟨spl, hspl, hnone⟩ := Outcome.bind_eq_ok.mp hnone
  rw [mnaParsed_eq] at hmna
  unfold decisive at h
  cases hfirst : mnaLine py cfg log with
  | some line' =>
    rw [hfirst] at hmna
    obtain ⟨groups, hgroups⟩ := mnaLine_found hfirst
    cases mna with
    | none => exact Branch.reads_some hgroups hmna
    | some d => cases hnone
  | none =>
    rw [hfirst] at hmna h
    cases hmna
    rcases splFound_cases cfg hspl with
      ⟨line', s, hline, hfilter, -, hlog⟩ | ⟨hline, hfilter⟩
    · rw [hline] at h
      cases h
      obtain ⟨henabled, d, hd, hdecimals⟩ := htaken
      rw [hlog] at hd
      cases hd
      simp only [hfilter] at hnone
      rw [if_neg (by simp [hdecimals, henabled])] at hnone
      cases hnone
    · rw [hline] at h
      simp only [hfilter] at hnone
      obtain ⟨line', hline', heq⟩ := Option.map_eq_some_iff.mp h
      obtain ⟨groups, hgroups⟩ := firstLine_found hline'
      obtain ⟨wsol, hwsol, hnone⟩ := Outcome.bind_eq_ok.mp hnone
      cases wsol with
      | some d => cases hnone
      | none =>
        refine Branch.reads_some hgroups ?_
        exact (programLog_reads (b := .wsol) rfl rfl hline').symm.trans hwsol

theorem Heard.solanaRow (h : Heard py cfg t R l) (hsignature : t.signature ≠ "")
    (hfailed : t.failed = false) :
    (∃ e, solanaRow py cfg t = .error e) ∨
      ∃ row, solanaRow py cfg t = .ok (some row) ∧ RowOf cfg t R l row := by
  obtain ⟨b, line, hdecides, htaken, hasset, hsame⟩ := h.line
  cases hrow : Relayer.solanaRow py cfg t with
  | error e => exact Or.inl ⟨e, rfl⟩
  | ok found =>
    cases found with
    | none =>
      unfold Relayer.solanaRow at hrow
      rw [if_neg (by simp [hsignature, hfailed]), if_neg (by simp [h.called])] at hrow
      obtain ⟨deposit, hdeposit, hrow⟩ := Outcome.bind_eq_ok.mp hrow
      cases deposit with
      | none => exact absurd hdeposit (solanaDeposit_ne_none hdecides htaken)
      | some d => cases hrow
    | some row =>
      refine Or.inr ⟨row, rfl, ?_⟩
      have hreads : ReadsLock py cfg t := by
        refine ⟨b, line, hdecides, R, l, ?_, hasset, h.solid, hsame⟩
        rw [h.alone]
        exact List.mem_singleton_self _
      obtain ⟨R', l', hmem, hcredits⟩ := (credits_locked_iff hrow).mpr hreads
      rw [h.alone] at hmem
      cases List.mem_singleton.mp hmem
      obtain ⟨b', line', d, -, -, rfl⟩ := solanaRow_decisive hrow
      exact { hcredits with externalTransaction := rfl, direction := rfl }

end Reading

/-! ## 3. A poll -/

/-- What stands in front of the cursor in a history with the newest first. -/
def newer (cursor : String) (history : List Transaction) : List Transaction :=
  history.takeWhile (·.signature ≠ cursor)

section Poll

variable {py : Python} {cfg : Config} {cursor : String} {history : List Transaction}
variable {t t' : Transaction} {R : Runtime} {l : Lock} {rows : List Row}

theorem newer_cons (h : t.signature ≠ cursor) :
    newer cursor (t :: history) = t :: newer cursor history := by
  unfold newer
  exact List.takeWhile_cons_of_pos (decide_eq_true h)

theorem newer_head : newer t.signature (t :: history) = [] := by
  unfold newer
  exact List.takeWhile_cons_of_neg (by simp)

/-- What is new and among the newest a poll is answered, it goes through. -/
theorem mem_unseen_of_newer {k : Nat} (ht : t ∈ newer cursor history) (hk : t ∈ history.take k) :
    t ∈ unseen cursor (history.take k) := by
  unfold unseen
  split
  · rename_i hcursor
    refine List.mem_reverse.mpr ?_
    -- the cursor is among them, and the scan ends there
    obtain ⟨mark, hmark, hsignature⟩ := List.mem_map.mp hcursor
    have hshort : ¬ ((history.take k).takeWhile (·.signature ≠ cursor)).length =
        (history.take k).length := by
      intro hlength
      have hall := (List.takeWhile_prefix _).eq_of_length hlength
      rw [← hall] at hmark
      exact of_decide_eq_true (List.all_eq_true.mp List.all_takeWhile mark hmark) hsignature
    rwa [newer, ← List.take_append_drop k history, List.takeWhile_append, if_neg hshort] at ht
  · exact List.mem_reverse.mpr hk

/-- The transaction's row takes the id of no lock in the other. -/
def Apart (py : Python) (cfg : Config) (t' t : Transaction) : Prop :=
  t.failed = false → ∀ R l, (R, l) ∈ t.locks cfg → ∀ row, solanaRow py cfg t' = .ok (some row) →
    row.operationId ≠ String.ofList l.input.id

/-- What a poll has to make of a lock: the transaction is found, it is read as the lock, and the id
    is not taken. -/
structure Notable (py : Python) (cfg : Config)
    (found : String → Outcome RelayerError (Option Detail)) (rows : List Row) (t : Transaction)
    (R : Runtime) (l : Lock) : Prop where
  found : found t.signature ≠ .ok none
  heard : Heard py cfg t R l
  unclaimed : Unclaimed cfg t R l rows

/-- **A poll that ends without an error** has noted the lock. -/
theorem noteTransactions_recorded {read : Transaction → Detail → Outcome RelayerError (Option Row)}
    (hread : ∀ t detail, read t detail = solanaRow py cfg t)
    {found : String → Outcome RelayerError (Option Detail)} {ts : List Transaction}
    (hok : (noteTransactions read found ts rows).result = .ok ()) (ht : t ∈ ts)
    (hsignature : t.signature ≠ "") (hfailed : t.failed = false)
    (hapart : ts.Pairwise (Apart py cfg)) (hids : (rows.map Row.operationId).Nodup)
    (h : Notable py cfg found rows t R l) :
    Recorded cfg t R l (noteTransactions read found ts rows).state := by
  induction ts generalizing rows with
  | nil => cases ht
  | cons first ts ih =>
    obtain ⟨hfirst, hrest⟩ := List.pairwise_cons.mp hapart
    rw [noteTransactions] at hok ⊢
    rcases List.mem_cons.mp ht with rfl | ht
    · rw [if_neg (by simp [hsignature, hfailed])] at hok ⊢
      cases hfound : found t.signature with
      | error e =>
        rw [hfound] at hok
        cases hok
      | ok answer =>
        cases answer with
        | none => exact absurd hfound h.found
        | some detail =>
          rw [hfound, Applied.attempt_ok] at hok
          rw [Applied.attempt_ok]
          dsimp only at hok ⊢
          rw [hread] at hok ⊢
          rcases h.heard.solanaRow hsignature hfailed with ⟨e, herror⟩ | ⟨row, hrow, hof⟩
          · rw [herror] at hok
            cases hok
          · rw [hrow, Applied.attempt_ok]
            exact noteTransactions_rule found ts _ (fun rows row _ h => h.insert row)
              (h.unclaimed.recorded hids hof)
    · -- what comes before it leaves its id alone
      have hpass : ∀ row, solanaRow py cfg first = .ok (some row) →
          Notable py cfg found (insertOrIgnore rows row) t R l := fun row hrow =>
        ⟨h.found, h.heard, h.unclaimed.insert (hfirst t ht hfailed R l (by
          rw [h.heard.alone]
          exact List.mem_singleton_self _) row hrow)⟩
      split at hok
      · rename_i hskip
        rw [if_pos hskip]
        exact ih hok ht hrest hids h
      · rename_i hkeep
        rw [if_neg hkeep]
        cases hfound : found first.signature with
        | error e =>
          rw [hfound] at hok
          cases hok
        | ok answer =>
          rw [hfound, Applied.attempt_ok] at hok
          rw [Applied.attempt_ok]
          cases answer with
          | none => exact ih hok ht hrest hids h
          | some detail =>
            dsimp only at hok ⊢
            rw [hread] at hok ⊢
            cases hrow : solanaRow py cfg first with
            | error e =>
              rw [hrow] at hok
              cases hok
            | ok found =>
              rw [hrow, Applied.attempt_ok] at hok
              rw [Applied.attempt_ok]
              cases found with
              | none => exact ih hok ht hrest hids h
              | some row =>
                exact ih hok ht hrest (nodup_insertOrIgnore hids row) (hpass row hrow)

end Poll

/-! ## 4. The vault and the relayer -/

/-- The final transactions of the vault, the newest first, and the relayer. -/
structure Vault (ω : Type) where
  history : List Transaction
  site : Site ω

/-- A transaction of the vault gets final, an iteration of the relayer, its restart. -/
inductive VaultEvent where
  | final (t : Transaction)
  | iterate (a : Answers)
  | restart

namespace Vault

variable {ω : Type} (O : Outside ω) (py : Python) (cfg : Settings)

def next (v : Vault ω) : VaultEvent → Vault ω
  | .final t => { v with history := t :: v.history }
  | .iterate a => { v with site := (iteration O py cfg a v.site).state }
  | .restart => { v with site := { v.site with db := v.site.db.restart } }

/-- Signatures tell transactions apart; the RPC answers the newest of them, or fails. -/
def Possible (v : Vault ω) : VaultEvent → Prop
  | .final t => t.signature ≠ "" ∧ t.signature ∉ v.history.map Transaction.signature
  | .iterate a => (∀ ts, a.solana.newest = .ok ts → ts = v.history.take 1) ∧
      ∀ ts, a.solana.history = .ok ts → ts = v.history.take 1000
  | .restart => True

/-- The rows there are when an iteration gets to the vault. -/
def rowsBefore (a : Answers) (v : Vault ω) : List Row :=
  (pollContracts cfg a v.site.db).state.tables.operations

/-- A poll that is answered makes something of each lock in front of the cursor: its transaction is
    among the thousand newest, it can be noted, and no transaction gone through before has a row
    under its id. -/
def Attends (v : Vault ω) : VaultEvent → Prop
  | .iterate a => (pollContracts cfg a v.site.db).result = .ok () → a.solana.history.isOk = true →
      ∀ cursor, v.site.db.tables.solanaSignature = some cursor →
      (∀ t ∈ newer cursor v.history, t.failed = false → ∀ R l, (R, l) ∈ t.locks cfg.toConfig →
        t ∈ v.history.take 1000 ∧
          Notable py cfg.toConfig a.solana.found (rowsBefore cfg a v) t R l) ∧
      (unseen cursor (v.history.take 1000)).Pairwise (Apart py cfg.toConfig)
  | _ => True

/-- Once the cursor is at the newest transaction, every lock of a transaction that was not in the
    history at the first poll has its one row. -/
def NoneSkipped (base : List Transaction) (v : Vault ω) : Prop :=
  v.site.db.committed.solanaSignature = v.history.head?.map Transaction.signature →
    ∀ t ∈ v.history, t ∉ base → t.failed = false → ∀ R l, (R, l) ∈ t.locks cfg.toConfig →
      Recorded cfg.toConfig t R l v.site.db.committed.operations

end Vault

/-! ## 5. What the relayer has noted -/

/-- Of the history, what is no longer in front of the cursor. -/
def Passed (base history : List Transaction) (cursor : String) (t : Transaction) : Prop :=
  t ∈ history ∧ t ∉ base ∧ t ∉ newer cursor history

/-- The locks of the transactions have their rows, and the cursor is known. -/
structure Notes (cfg : Config) (S : Transaction → Prop) (c : String) (d : Db) : Prop where
  ids : (d.tables.operations.map Row.operationId).Nodup
  committedIds : (d.committed.operations.map Row.operationId).Nodup
  cursor : d.tables.solanaSignature = some c
  committedCursor : d.committed.solanaSignature = some c
  recorded : ∀ t, S t → t.failed = false → ∀ R l, (R, l) ∈ t.locks cfg →
    Recorded cfg t R l d.tables.operations
  committed : ∀ t, S t → t.failed = false → ∀ R l, (R, l) ∈ t.locks cfg →
    Recorded cfg t R l d.committed.operations

section Notes

variable {cfg : Config} {S : Transaction → Prop} {c : String} {d : Db}

theorem Notes.commit (h : Notes cfg S c d) : Notes cfg S c d.commit :=
  ⟨h.ids, h.ids, h.cursor, h.cursor, h.recorded, h.recorded⟩

theorem Notes.restart (h : Notes cfg S c d) : Notes cfg S c d.restart :=
  ⟨h.committedIds, h.committedIds, h.committedCursor, h.committedCursor, h.committed, h.committed⟩

theorem Notes.insert (h : Notes cfg S c d) (row : Row) :
    Notes cfg S c (d.withRows (insertOrIgnore d.tables.operations row)) :=
  { h with
    ids := nodup_insertOrIgnore h.ids row
    recorded := fun t ht hfailed R l hl => (h.recorded t ht hfailed R l hl).insert row }

theorem Notes.ethBlock (h : Notes cfg S c d) (block : Nat) :
    Notes cfg S c (d.setEthBlock block) :=
  { h with }

theorem Notes.setStatus (h : Notes cfg S c d) (id status : String) :
    Notes cfg S c (d.setStatus id status) := by
  have hids := nodup_setStatus h.ids id status
  have hrecorded : ∀ t, S t → t.failed = false → ∀ R l, (R, l) ∈ t.locks cfg →
      Recorded cfg t R l (d.setStatus id status).tables.operations :=
    fun t ht hfailed R l hl => (h.recorded t ht hfailed R l hl).setStatus id status
  exact ⟨hids, hids, h.cursor, h.cursor, hrecorded, hrecorded⟩

theorem Notes.markError (h : Notes cfg S c d) (now : Nat) (id : String) :
    Notes cfg S c (d.markError now id) := by
  have hcount : Notes cfg S c (d.countAttempt now id) := { h with }
  exact hcount.setStatus id "retry"

theorem Notes.mono {S' : Transaction → Prop} (h : Notes cfg S c d) (hS : ∀ t, S' t → S t) :
    Notes cfg S' c d :=
  { h with
    recorded := fun t ht => h.recorded t (hS t ht)
    committed := fun t ht => h.committed t (hS t ht) }

/-- The poll of the contracts. -/
theorem Notes.contracts (py : Python) {cfg : Settings} {a : Answers}
    (h : Notes cfg.toConfig S c d) : Notes cfg.toConfig S c (pollContracts cfg a d).state := by
  have hsteps : ContractSteps py cfg a (Notes cfg.toConfig S c) :=
    ⟨fun _ row _ h => h.insert row, fun _ block h => h.ethBlock block, fun _ h => h.commit⟩
  exact hsteps.contracts h

/-- The poll of the chain. -/
theorem Notes.burns (h : Notes cfg S c d)
    (answer : Outcome RelayerError (List Rpc.AssetOperationView)) :
    Notes cfg S c (noteBurns answer d).state := by
  unfold noteBurns
  cases answer with
  | error e => exact h
  | ok views =>
    exact (discoverBurns_rule (Q := fun rows => Notes cfg S c (d.withRows rows))
      (fun _ row _ h => h.insert row) h).commit

/-- A cycle. -/
theorem Notes.process {ω : Type} {O : Outside ω} {py : Python} {settings : Settings} {s : Site ω}
    (h : Notes cfg S c s.db) : Notes cfg S c (processOperations O py settings s).state.db :=
  process_rule (fun _ id status h => h.setStatus id status) (fun _ now id h => h.markError now id)
    (fun _ h => h.commit) h

end Notes

section Vault

variable {ω : Type} {O : Outside ω} {py : Python} {cfg : Settings} {a : Answers}
variable {base history : List Transaction} {c : String} {d : Db} {v : Vault ω}

theorem solanaCursor_some {answer : Outcome RelayerError (List Transaction)}
    (h : d.tables.solanaSignature = some c) : solanaCursor answer d = ⟨.ok c, d⟩ := by
  unfold solanaCursor
  rw [h]

/-- **A poll of the vault**: the cursor stays, or it is at the newest transaction and all in front
    of it has been noted. -/
theorem Notes.vault (py : Python) (hmode : cfg.programMode = true)
    (hnamed : ∀ t ∈ history, t.signature ≠ "") (hc : c ∈ history.map Transaction.signature)
    (hhistory : ∀ ts, a.solana.history = .ok ts → ts = history.take 1000)
    (hattends : a.solana.history.isOk = true →
      (∀ t ∈ newer c history, t.failed = false → ∀ R l, (R, l) ∈ t.locks cfg.toConfig →
        t ∈ history.take 1000 ∧ Notable py cfg.toConfig a.solana.found d.tables.operations t R l) ∧
      (unseen c (history.take 1000)).Pairwise (Apart py cfg.toConfig))
    (h : Notes cfg.toConfig (Passed base history c) c d) :
    ∃ c' ∈ history.map Transaction.signature, Notes cfg.toConfig (Passed base history c') c'
      (discoverSolanaDeposits (transactionRow py cfg) a.solana d).state := by
  have hread : ∀ t detail, transactionRow py cfg t detail = solanaRow py cfg.toConfig t := by
    intro t detail
    unfold transactionRow
    rw [if_pos hmode]
  have hne : c ≠ "" := by
    obtain ⟨t, ht, rfl⟩ := List.mem_map.mp hc
    exact hnamed t ht
  unfold discoverSolanaDeposits
  rw [solanaCursor_some h.cursor, Applied.andThen_of_ok rfl]
  cases hanswer : a.solana.history with
  | error e => exact ⟨c, hc, h⟩
  | ok signatures =>
    obtain ⟨hnotable, hapart⟩ := hattends (by rw [hanswer]; rfl)
    obtain rfl := hhistory signatures hanswer
    rw [Applied.attempt_ok]
    cases history with
    | nil => cases hc
    | cons newest older =>
      rw [List.take_succ_cons] at hapart hnotable ⊢
      dsimp only
      rw [if_neg hne]
      have hrows : Notes cfg.toConfig (Passed base (newest :: older) c) c
          (d.withRows (noteTransactions (transactionRow py cfg) a.solana.found
            (unseen c (newest :: older.take 999)) d.tables.operations).state) :=
        noteTransactions_rule
          (Q := fun rows => Notes cfg.toConfig (Passed base (newest :: older) c) c (d.withRows rows))
          _ _ _ (fun rows row _ h => h.insert row) h
      split
      · rename_i hok
        have hnoted : ∀ t, Passed base (newest :: older) newest.signature t → t.failed = false →
            ∀ R l, (R, l) ∈ t.locks cfg.toConfig → Recorded cfg.toConfig t R l
              (noteTransactions (transactionRow py cfg) a.solana.found
                (unseen c (newest :: older.take 999)) d.tables.operations).state := by
          intro t ht hfailed R l hl
          by_cases hnew : t ∈ newer c (newest :: older)
          · obtain ⟨hwindow, hnote⟩ := hnotable t hnew hfailed R l hl
            exact noteTransactions_recorded hread hok (mem_unseen_of_newer (k := 1000) hnew hwindow)
              (hnamed t ht.1) hfailed hapart h.ids hnote
          · exact hrows.recorded t ⟨ht.1, ht.2.1, hnew⟩ hfailed R l hl
        exact ⟨newest.signature, List.mem_cons_self,
          ⟨hrows.ids, hrows.ids, rfl, rfl, hnoted, hnoted⟩⟩
      · exact ⟨c, hc, hrows⟩

/-- The rest of an iteration, behind the poll of the vault. -/
theorem Notes.iteration {S : Transaction → Prop} {s : Site ω} (hsolana : cfg.solanaEnabled = true)
    (hpoll : (pollContracts cfg a s.db).result = .ok ())
    (h : Notes cfg.toConfig S c (discoverSolanaDeposits (transactionRow py cfg) a.solana
      (pollContracts cfg a s.db).state).state) :
    Notes cfg.toConfig S c (iteration O py cfg a s).state.db := by
  have hchains : Notes cfg.toConfig S c
      (pollChains py cfg a (pollContracts cfg a s.db).state).state := by
    unfold pollChains
    rw [if_pos hsolana]
    exact Applied.andThen_rule h fun _ _ => h.burns a.burns
  unfold Relayer.iteration
  rw [Applied.andThen_of_ok hpoll]
  dsimp only
  split
  · exact Notes.process hchains
  · exact hchains

/-- The history is the vault's, and what is no longer in front of the cursor is noted. -/
structure Follows (cfg : Config) (base : List Transaction) (v : Vault ω) : Prop where
  distinct : (v.history.map Transaction.signature).Nodup
  named : ∀ t ∈ v.history, t.signature ≠ ""
  notes : ∃ c ∈ v.history.map Transaction.signature,
    Notes cfg (Passed base v.history c) c v.site.db

theorem Follows.final (h : Follows cfg.toConfig base v) {t : Transaction}
    (hnamed : t.signature ≠ "") (hnew : t.signature ∉ v.history.map Transaction.signature) :
    Follows cfg.toConfig base (v.next O py cfg (.final t)) := by
  obtain ⟨c, hc, hnotes⟩ := h.notes
  have hne : t.signature ≠ c := fun heq => hnew (heq ▸ hc)
  refine ⟨List.nodup_cons.mpr ⟨hnew, h.distinct⟩, List.forall_mem_cons.mpr ⟨hnamed, h.named⟩, c,
    List.mem_cons_of_mem _ hc, hnotes.mono fun t' ht' => ?_⟩
  -- the new one stands in front of the cursor
  obtain ⟨hmem, hbase, hfront⟩ := ht'
  change t' ∉ newer c (t :: v.history) at hfront
  rw [newer_cons hne, List.mem_cons, not_or] at hfront
  exact ⟨(List.mem_cons.mp hmem).resolve_left hfront.1, hbase, hfront.2⟩

theorem Follows.iterate (h : Follows cfg.toConfig base v) (hsolana : cfg.solanaEnabled = true)
    (hmode : cfg.programMode = true) (hpossible : v.Possible (.iterate a))
    (hattends : v.Attends py cfg (.iterate a)) :
    Follows cfg.toConfig base (v.next O py cfg (.iterate a)) := by
  obtain ⟨c, hc, hnotes⟩ := h.notes
  have hcontracts : Notes cfg.toConfig (Passed base v.history c) c
      (pollContracts cfg a v.site.db).state := hnotes.contracts py
  refine ⟨h.distinct, h.named, ?_⟩
  cases hpoll : (pollContracts cfg a v.site.db).result with
  | error e =>
    refine ⟨c, hc, ?_⟩
    show Notes _ _ _ (Relayer.iteration O py cfg a v.site).state.db
    unfold Relayer.iteration
    rw [Applied.andThen_of_error hpoll]
    exact hcontracts
  | ok u =>
    obtain ⟨c', hc', hvault⟩ := hcontracts.vault py hmode h.named hc hpossible.2
      fun hanswered => hattends hpoll hanswered c hnotes.cursor
    exact ⟨c', hc', hvault.iteration hsolana hpoll⟩

theorem Follows.restart (h : Follows cfg.toConfig base v) :
    Follows cfg.toConfig base (v.next O py cfg .restart) := by
  obtain ⟨c, hc, hnotes⟩ := h.notes
  exact ⟨h.distinct, h.named, c, hc, hnotes.restart⟩

/-- **Every step** follows the vault. -/
theorem Follows.next (hsolana : cfg.solanaEnabled = true) (hmode : cfg.programMode = true)
    (h : Follows cfg.toConfig base v) (e : VaultEvent) (hpossible : v.Possible e)
    (hattends : v.Attends py cfg e) : Follows cfg.toConfig base (v.next O py cfg e) := by
  cases e with
  | final t => exact h.final hpossible.1 hpossible.2
  | iterate a => exact h.iterate hsolana hmode hpossible hattends
  | restart => exact h.restart

/-! ## 6. From the first poll on -/

/-- The relayer has never polled the vault, and no two rows are under one id. -/
structure Unpolled (d : Db) : Prop where
  ids : (d.tables.operations.map Row.operationId).Nodup
  committedIds : (d.committed.operations.map Row.operationId).Nodup
  cursor : d.tables.solanaSignature = none

/-- A history of the vault, and a relayer that has never polled it. -/
structure Fresh (v : Vault ω) : Prop where
  distinct : (v.history.map Transaction.signature).Nodup
  named : ∀ t ∈ v.history, t.signature ≠ ""
  unpolled : Unpolled v.site.db

/-- The first poll of the vault is answered, and finds a transaction. -/
structure FindsHistory (cfg : Settings) (v : Vault ω) (a : Answers) : Prop where
  reached : (pollContracts cfg a v.site.db).result = .ok ()
  answered : a.solana.newest = .ok (v.history.take 1)
  nonempty : v.history ≠ []

theorem Unpolled.contracts (py : Python) (h : Unpolled d) :
    Unpolled (pollContracts cfg a d).state := by
  have hsteps : ContractSteps py cfg a Unpolled :=
    ⟨fun _ row _ h => ⟨nodup_insertOrIgnore h.ids row, h.committedIds, h.cursor⟩,
      fun _ _ h => ⟨h.ids, h.committedIds, h.cursor⟩, fun _ h => ⟨h.ids, h.ids, h.cursor⟩⟩
  exact hsteps.contracts h

/-- **The first poll** sets the cursor at the newest transaction. -/
theorem follows_first (hsolana : cfg.solanaEnabled = true) (hmode : cfg.programMode = true)
    (h : Fresh v) (hfirst : FindsHistory cfg v a) (hpossible : v.Possible (.iterate a)) :
    Follows cfg.toConfig v.history (v.next O py cfg (.iterate a)) := by
  have hstart : Unpolled (pollContracts cfg a v.site.db).state := h.unpolled.contracts py
  refine ⟨h.distinct, h.named, ?_⟩
  cases hhistory : v.history with
  | nil => exact absurd hhistory hfirst.nonempty
  | cons newest older =>
    have hanswered := hfirst.answered
    have hpoll : discoverSolanaDeposits (transactionRow py cfg) a.solana
          (pollContracts cfg a v.site.db).state =
        discoverSolanaDeposits (transactionRow py cfg) a.solana
          ((pollContracts cfg a v.site.db).state.setSolanaSignature newest.signature).commit := by
      unfold discoverSolanaDeposits solanaCursor
      rw [hstart.cursor, hanswered, hhistory]
      rfl
    have hnotes : Notes cfg.toConfig (Passed v.history v.history newest.signature)
        newest.signature
        ((pollContracts cfg a v.site.db).state.setSolanaSignature newest.signature).commit :=
      ⟨hstart.ids, hstart.ids, rfl, rfl, fun t ht => absurd ht.1 ht.2.1,
        fun t ht => absurd ht.1 ht.2.1⟩
    have hunseen : unseen newest.signature (v.history.take 1000) = [] := by
      have htake : (newest :: older).take 1000 = newest :: older.take 999 := rfl
      rw [hhistory, htake, unseen, List.map_cons, if_pos List.mem_cons_self]
      exact congrArg List.reverse newer_head
    have hfront : newer newest.signature v.history = [] := by
      rw [hhistory]
      exact newer_head
    have hmark : newest.signature ∈ v.history.map Transaction.signature := by
      rw [hhistory]
      exact List.mem_cons_self
    obtain ⟨c, hc, hvault⟩ := hnotes.vault (a := a) py hmode h.named hmark
      hpossible.2 fun _ => ⟨by rw [hfront]; exact fun t ht => absurd ht List.not_mem_nil,
        by rw [hunseen]; exact .nil⟩
    rw [← hpoll] at hvault
    rw [← hhistory]
    exact ⟨c, hc, hvault.iteration hsolana hfirst.reached⟩

/-- **No deposit is skipped** in a run from the first poll of the vault on, whatever gets final in
    between, if the vault had a history at the first poll and every poll makes something of each
    lock in front of its cursor. -/
theorem no_deposit_skipped (hsolana : cfg.solanaEnabled = true) (hmode : cfg.programMode = true)
    (h : Fresh v) (hfirst : FindsHistory cfg v a) (hpossible : v.Possible (.iterate a))
    {events : List VaultEvent}
    (hrun : EachStep (Vault.next O py cfg) Vault.Possible (v.next O py cfg (.iterate a)) events)
    (hattends : EachStep (Vault.next O py cfg) (Vault.Attends py cfg)
      (v.next O py cfg (.iterate a)) events) :
    (runs (Vault.next O py cfg) v (.iterate a :: events)).NoneSkipped cfg v.history := by
  have hfollows : Follows cfg.toConfig v.history
      (runs (Vault.next O py cfg) (v.next O py cfg (.iterate a)) events) :=
    (hrun.and hattends).invariant
      (fun v e he h => h.next hsolana hmode e he.1 he.2) (follows_first hsolana hmode h hfirst
        hpossible)
  rw [runs_cons]
  intro hcaught t ht hbase hfailed R l hl
  obtain ⟨c, hc, hnotes⟩ := hfollows.notes
  refine hnotes.committed t ⟨ht, hbase, fun hnew => ?_⟩ hfailed R l hl
  -- nothing stands in front of the newest
  rw [hnotes.committedCursor] at hcaught
  obtain ⟨newest, hnewest, hc'⟩ := Option.map_eq_some_iff.mp hcaught.symm
  obtain ⟨older, hhistory⟩ := List.head?_eq_some_iff.mp hnewest
  rw [← hc', hhistory, newer_head] at hnew
  cases hnew

end Vault

end Relayer

/-! ## 7. A vault with one lock, and three that lose one -/

namespace Sample

open Relayer

def vaultSettings : Settings := { settings with solanaEnabled := true }

/-- A transaction of the vault without a lock. -/
def plain : Relayer.Transaction := ⟨"plain", false, 0, []⟩

def detail : Detail := ⟨[], [], [], []⟩

/-- What a poll is answered. -/
def vaultAnswers (history : List Relayer.Transaction) (found : Option Detail) : Answers :=
  { answers [] with solana := ⟨.ok (history.take 1), .ok (history.take 1000), fun _ => .ok found⟩ }

def watched (history : List Relayer.Transaction) : Vault Unit := ⟨history, scanned⟩

/-- A transaction gets final between two polls. -/
def deposited (history : List Relayer.Transaction) (t : Relayer.Transaction)
    (found : Option Detail) : List VaultEvent :=
  [.iterate (vaultAnswers history (some detail)), .final t,
    .iterate (vaultAnswers (t :: history) found)]

/-- Another lock of five lamports. -/
def secondLockData : List UInt8 :=
  [1, 5, 0, 0, 0, 0, 0, 0, 0] ++ List.replicate 32 8 ++ [5, 0, 97, 108, 105, 99, 101]

/-- Two locks in one transaction. -/
def double : Relayer.Transaction :=
  ⟨"double", false, 1,
    [lockInstruction, { lockInstruction with log := [.call runtime lockAccounts secondLockData] }]⟩

def secondLock : Lock :=
  { lock with input := { lock.input with depositId := Vector.replicate 32 8 } }

/-- What a run leaves in the store: its cursor, and the ids of its rows. -/
def stored (v : Vault Unit) : Option String × List String :=
  (v.site.db.committed.solanaSignature, v.site.db.committed.operations.map Row.operationId)

/-- The relayer behind its first poll of a vault with one transaction. -/
def polledOnce : Vault Unit :=
  (watched [plain]).next calm python vaultSettings (.iterate (vaultAnswers [plain] (some detail)))

theorem evaluated_honest :
    solanaProgramCalled relayer honest = true ∧
      decisive python relayer (honest.logMessages relayer) =
        some (.wsol, logLine runtime lock) ∧
      polledOnce.site.db.tables.solanaSignature = some "plain" ∧
      polledOnce.rowsBefore vaultSettings (vaultAnswers [honest, plain] (some detail)) = [] ∧
      stored (runs (Vault.next calm python vaultSettings) (watched [plain])
        (deposited [plain] honest (some detail))) =
          (some "honest", [String.ofList lock.input.id]) := by
  decide +kernel

/-- What the three runs leave. -/
theorem evaluated_deposited :
    stored (runs (Vault.next calm python vaultSettings) (watched [])
        (deposited [] honest (some detail))) = (some "honest", []) ∧
      stored (runs (Vault.next calm python vaultSettings) (watched [plain])
        (deposited [plain] honest none)) = (some "honest", []) ∧
      stored (runs (Vault.next calm python vaultSettings) (watched [plain])
        (deposited [plain] double (some detail))) =
          (some "double", [String.ofList lock.input.id]) := by
  decide +kernel

theorem possible_deposited {history : List Relayer.Transaction} {t : Relayer.Transaction}
    {found : Option Detail} (hnamed : t.signature ≠ "")
    (hnew : t.signature ∉ history.map Relayer.Transaction.signature) :
    EachStep (Vault.next calm python vaultSettings) Vault.Possible (watched history)
      (deposited history t found) :=
  ⟨⟨fun _ h => (Except.ok.inj h).symm, fun _ h => (Except.ok.inj h).symm⟩, ⟨hnamed, hnew⟩,
    ⟨fun _ h => (Except.ok.inj h).symm, fun _ h => (Except.ok.inj h).symm⟩, trivial⟩

theorem not_mem_plain {t : Relayer.Transaction} (h : t.signature ≠ "plain") : t ∉ [plain] :=
  fun hmem => h (congrArg Relayer.Transaction.signature (List.mem_singleton.mp hmem))

theorem heard_honest : Heard python relayer honest runtime lock where
  called := evaluated_honest.1
  alone := locks_honest
  solid := solid_lock
  line := ⟨.wsol, logLine runtime lock, evaluated_honest.2.1, trivial, rfl, rfl⟩

end Sample

namespace Relayer

/-- A lock that gets final between two polls. -/
theorem no_deposit_skipped_honest :
    Recorded Sample.relayer Sample.honest Sample.runtime Sample.lock
      (runs (Vault.next Sample.calm Sample.python Sample.vaultSettings)
        (Sample.watched [Sample.plain])
        (Sample.deposited [Sample.plain] Sample.honest
          (some Sample.detail))).site.db.committed.operations := by
  have hpossible : EachStep (Vault.next Sample.calm Sample.python Sample.vaultSettings)
      Vault.Possible (Sample.watched [Sample.plain])
        (Sample.deposited [Sample.plain] Sample.honest (some Sample.detail)) :=
    Sample.possible_deposited (by decide) (by decide)
  obtain ⟨hfirst, hrest⟩ := hpossible
  obtain ⟨-, -, hcursor, hrows, hstored⟩ := Sample.evaluated_honest
  have hfront : newer "plain" [Sample.honest, Sample.plain] = [Sample.honest] :=
    (newer_cons (by decide)).trans (congrArg _ (newer_head (t := Sample.plain)))
  refine no_deposit_skipped (v := Sample.watched [Sample.plain]) rfl rfl
    ⟨by decide, by decide, .nil, .nil, rfl⟩ ⟨rfl, rfl, by decide⟩ hfirst hrest
    ⟨trivial, fun _ _ c hc => ?_, trivial⟩ (congrArg Prod.fst hstored) Sample.honest
    List.mem_cons_self (Sample.not_mem_plain (by decide)) rfl Sample.runtime Sample.lock
    (List.mem_singleton_self _)
  obtain rfl := Option.some.inj (hcursor.symm.trans hc)
  refine ⟨fun t ht _ R l hl => ?_, ?_⟩
  · have ht : t ∈ newer "plain" [Sample.honest, Sample.plain] := ht
    rw [hfront] at ht
    obtain rfl := List.mem_singleton.mp ht
    change (R, l) ∈ Sample.honest.locks Sample.relayer at hl
    rw [Sample.locks_honest] at hl
    cases List.mem_singleton.mp hl
    have hfree : Unclaimed Sample.relayer Sample.honest Sample.runtime Sample.lock
        (Sample.polledOnce.rowsBefore Sample.vaultSettings
          (Sample.vaultAnswers [Sample.honest, Sample.plain] (some Sample.detail))) := by
      rw [hrows]
      exact fun row hrow => absurd hrow List.not_mem_nil
    have hfound : (.ok (some Sample.detail) : Outcome RelayerError (Option Detail)) ≠ .ok none :=
      fun h => by cases h
    exact ⟨List.mem_cons_self, hfound, Sample.heard_honest, hfree⟩
  · have hunseen : unseen "plain" [Sample.honest, Sample.plain] = [Sample.honest] := by
      rw [unseen, if_pos (by decide)]
      exact congrArg List.reverse hfront
    show (unseen "plain" [Sample.honest, Sample.plain]).Pairwise _
    rw [hunseen]
    exact List.pairwise_singleton _ _

/-- What is skipped has no row. -/
theorem not_noneSkipped {v : Vault Unit} {base : List Transaction} {t : Transaction} {R : Runtime}
    {l : Lock} {ids : List String} {settings : Settings}
    (hstored : Sample.stored v = (v.history.head?.map Transaction.signature, ids))
    (ht : t ∈ v.history) (hbase : t ∉ base) (hfailed : t.failed = false)
    (hl : (R, l) ∈ t.locks settings.toConfig) (hid : String.ofList l.input.id ∉ ids) :
    ¬ v.NoneSkipped settings base := by
  intro h
  obtain ⟨row, hrow, -⟩ := h (congrArg Prod.fst hstored) t ht hbase hfailed R l hl
  have hmem : row ∈ v.site.db.committed.operations.filter
      (·.operationId = String.ofList l.input.id) := by
    rw [hrow]
    exact List.mem_singleton_self row
  obtain ⟨hin, heq⟩ := List.mem_filter.mp hmem
  have hids : v.site.db.committed.operations.map Row.operationId = ids := congrArg Prod.snd hstored
  rw [← hids, ← of_decide_eq_true heq] at hid
  exact hid (List.mem_map_of_mem hin)

/-- **Deposits that are skipped**: the first of a vault that had no history at the first poll, one
    whose transaction is not found when it is polled, and one of two in a transaction. -/
theorem deposits_skipped :
    (EachStep (Vault.next Sample.calm Sample.python Sample.vaultSettings) Vault.Possible
        (Sample.watched []) (Sample.deposited [] Sample.honest (some Sample.detail)) ∧
      ¬ (runs (Vault.next Sample.calm Sample.python Sample.vaultSettings) (Sample.watched [])
        (Sample.deposited [] Sample.honest (some Sample.detail))).NoneSkipped
          Sample.vaultSettings []) ∧
    (EachStep (Vault.next Sample.calm Sample.python Sample.vaultSettings) Vault.Possible
        (Sample.watched [Sample.plain]) (Sample.deposited [Sample.plain] Sample.honest none) ∧
      ¬ (runs (Vault.next Sample.calm Sample.python Sample.vaultSettings)
        (Sample.watched [Sample.plain])
        (Sample.deposited [Sample.plain] Sample.honest none)).NoneSkipped
          Sample.vaultSettings [Sample.plain]) ∧
    (EachStep (Vault.next Sample.calm Sample.python Sample.vaultSettings) Vault.Possible
        (Sample.watched [Sample.plain])
        (Sample.deposited [Sample.plain] Sample.double (some Sample.detail)) ∧
      ¬ (runs (Vault.next Sample.calm Sample.python Sample.vaultSettings)
        (Sample.watched [Sample.plain])
        (Sample.deposited [Sample.plain] Sample.double (some Sample.detail))).NoneSkipped
          Sample.vaultSettings [Sample.plain]) := by
  obtain ⟨hempty, hnull, hdouble⟩ := Sample.evaluated_deposited
  refine ⟨⟨Sample.possible_deposited (by decide) (by decide), ?_⟩,
    ⟨Sample.possible_deposited (by decide) (by decide), ?_⟩,
    ⟨Sample.possible_deposited (by decide) (by decide), ?_⟩⟩
  · exact not_noneSkipped hempty List.mem_cons_self List.not_mem_nil rfl
      (List.mem_singleton_self _) List.not_mem_nil
  · exact not_noneSkipped hnull List.mem_cons_self (Sample.not_mem_plain (by decide)) rfl
      (List.mem_singleton_self _) List.not_mem_nil
  · exact not_noneSkipped (l := Sample.secondLock) hdouble List.mem_cons_self
      (Sample.not_mem_plain (by decide)) rfl (List.mem_cons_of_mem _ (List.mem_singleton_self _))
      (by decide +kernel)

end Relayer

end WorldstreetChain
