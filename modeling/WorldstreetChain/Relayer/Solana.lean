import WorldstreetChain.Library.Pattern
import WorldstreetChain.Solana.Lock

/-!
# Solana deposits (`ops/wsc-relayer.py`)

The relayer asks for the transactions of the vault's address, looks for the line of a deposit in
the log of each of them and notes the deposit in its table. In program mode some instruction of the
transaction must call the bridge program; the line is looked for in the whole log.

* `Relayer.solanaRow` -- the row a transaction becomes, if it becomes one.
* `Relayer.discover` -- the transactions of one poll.
* `Relayer.credits_locked_iff` -- **when the row is that of a lock**: exactly where the line that is
  found first reads like that of a lock of the transaction.
-/

namespace WorldstreetChain

namespace Relayer

open Pattern Solana

/-- What the interpreter and its library say about characters, numerals and digests. -/
structure Python where
  /-- The value of a decimal digit of any script, which the class of digits in a pattern takes. -/
  decimal : Char → Option Nat
  decimal_digit : ∀ c, c.isDigit = true → decimal c = some (c.toNat - 48)
  decimal_ascii : ∀ c, c.toNat < 128 → c.isDigit = false → decimal c = none
  /-- The longest numeral `int` takes, if it is limited. -/
  maxStrDigits : Option Nat
  le_maxStrDigits : ∀ m, maxStrDigits = some m → 640 ≤ m
  /-- `hashlib.sha256(text.encode()).hexdigest()`. -/
  sha256Hex : String → String

inductive RelayerError where
  | value
  | runtime
  deriving DecidableEq

/-- `str.isspace`, the class of white space in a pattern. -/
def isSpace (c : Char) : Bool :=
  c.toNat ∈ [9, 10, 11, 12, 13, 28, 29, 30, 31, 32, 0x85, 0xa0, 0x1680, 0x2000, 0x2001, 0x2002,
    0x2003, 0x2004, 0x2005, 0x2006, 0x2007, 0x2008, 0x2009, 0x200a, 0x2028, 0x2029, 0x202f, 0x205f,
    0x3000]

/-- `[0-9a-fA-F]`. -/
def hexDigit (c : Char) : Bool := ('0' ≤ c && c ≤ '9') || ('a' ≤ c && c ≤ 'f') || ('A' ≤ c && c ≤ 'F')

/-! ## 1. Lines -/

section Lines

variable (py : Python)

/-- `int` of a row of digits. -/
def int (digits : List Char) : Outcome RelayerError Nat := do
  rejectIf (py.maxStrDigits.any (· < digits.length) = true) .value
  .ok (digits.foldl (fun n c => 10 * n + (py.decimal c).getD 0) 0)

def digit (c : Char) : Bool := (py.decimal c).isSome

/-- `… id=([0-9a-fA-F]{64}) amount=(\d+) destination=([^\s]+)`, after a label. -/
def depositPattern (label : String) : List Piece :=
  [.text (label ++ " id=").toList, .run 64 (some 64) hexDigit, .text " amount=".toList,
    .run 1 none (digit py), .text " destination=".toList, .run 1 none fun c => !isSpace c]

/-- `… id=(…) mint=([1-9A-HJ-NP-Za-km-z]{32,44}) amount=(\d+) decimals=(\d+) destination=(…)`. -/
def splPattern : List Piece :=
  [.text "INTERTRAIN_SPL_DEPOSIT id=".toList, .run 64 (some 64) hexDigit, .text " mint=".toList,
    .run 32 (some 44) base58, .text " amount=".toList, .run 1 none (digit py),
    .text " decimals=".toList, .run 1 none (digit py), .text " destination=".toList,
    .run 1 none fun c => !isSpace c]

/-- What the log says of a deposit. -/
structure Deposit where
  operationId : String
  amount : Nat
  destination : String
  deriving DecidableEq

structure SplDeposit extends Deposit where
  mint : String
  decimals : Nat
  deriving DecidableEq

def lower (cs : List Char) : String := String.ofList (cs.map Char.toLower)

/-- What a line says, where the pattern is found in it. -/
def readDeposit : List (List Char) → Outcome RelayerError (Option Deposit)
  | [id, amount, destination] => do
    let amount ← int py amount
    .ok (some ⟨lower id, amount, String.ofList destination⟩)
  | _ => .ok none

def readSplDeposit : List (List Char) → Outcome RelayerError (Option SplDeposit)
  | [id, mint, amount, decimals, destination] => do
    let amount ← int py amount
    let decimals ← int py decimals
    .ok (some ⟨⟨lower id, amount, String.ofList destination⟩, String.ofList mint, decimals⟩)
  | _ => .ok none

/-- The first line a pattern is found in, as far as it captures it. -/
def firstFound (ps : List Piece) (log : List (List Char)) : Option (List (List Char)) :=
  log.findSome? (search ps)

def programLog (label : String) (log : List (List Char)) : Outcome RelayerError (Option Deposit) :=
  match firstFound (depositPattern py label) log with
  | some groups => readDeposit py groups
  | none => .ok none

def solanaProgramLog := programLog py "INTERTRAIN_WSOL_DEPOSIT"

def solanaMnaProgramLog := programLog py "INTERTRAIN_SOL_MNA_DEPOSIT"

def solanaSplProgramLog (log : List (List Char)) : Outcome RelayerError (Option SplDeposit) :=
  match firstFound (splPattern py) log with
  | some groups => readSplDeposit py groups
  | none => .ok none

end Lines

/-! ## 2. Transactions -/

/-- What the log of a transaction is made of: lines of any program or of the runtime, and calls of
    the bridge program, at the top or from within another program. -/
inductive Entry where
  | line (text : List Char)
  | call (R : Runtime) (accounts : List AccountInfo) (input : List UInt8)

structure Instruction where
  programId : String
  /-- The name the encoding has for a well-known program. -/
  program : Option String
  log : List Entry

/-- A transaction as the vault's history lists it. -/
structure Transaction where
  signature : String
  /-- `err` of the history's item. -/
  failed : Bool
  slot : Nat
  instructions : List Instruction

/-- The relayer's settings, as far as deposits in program mode depend on them. -/
structure Config where
  /-- The program behind `SOLANA_PROGRAM_ID`. -/
  program : Pubkey
  programId : String
  mnaEnabled : Bool
  mnaAssetId : String
  assetId : String
  splEnabled : Bool
  network : String
  splUsdcMint : String

def Config.splUsdcAssetId (cfg : Config) : String :=
  "solana:USDC:" ++ cfg.network ++ ":" ++ cfg.splUsdcMint

/-- A row of the table of operations. -/
structure Row where
  operationId : String
  direction : String
  status : String
  assetId : String
  address : String
  destination : String
  amount : String
  externalTransaction : String
  sourceBlock : Nat
  deriving DecidableEq

section Rows

variable (py : Python) (cfg : Config)

/-- The locks of an entry. -/
def Entry.lock : Entry → Option (Runtime × Lock)
  | .line _ => none
  | .call R accounts input => (lockOf R cfg.program accounts input).map (R, ·)

/-- The line a lock writes to the log. -/
def logLine (R : Runtime) (l : Lock) : List Char := "Program log: ".toList ++ l.message R

/-- The lines of an entry. What else a call of the bridge writes stands in lines of its own. -/
def Entry.lines (e : Entry) : List (List Char) :=
  match e with
  | .line text => [text]
  | .call _ _ _ => (e.lock cfg).toList.map fun (R, l) => logLine R l

def Transaction.entries (t : Transaction) : List Entry := t.instructions.flatMap Instruction.log

def Transaction.logMessages (t : Transaction) : List (List Char) :=
  t.entries.flatMap (Entry.lines cfg)

/-- The locks of a transaction. -/
def Transaction.locks (t : Transaction) : List (Runtime × Lock) :=
  t.entries.filterMap (Entry.lock cfg)

def solanaProgramCalled (t : Transaction) : Bool :=
  t.instructions.any fun i => i.programId == cfg.programId || i.program == some cfg.programId

def inbound (t : Transaction) (assetId : String) (d : Deposit) : Row where
  operationId := d.operationId
  direction := "inbound"
  status := "detected"
  assetId := assetId
  address := d.destination
  destination := d.destination
  amount := toString d.amount
  externalTransaction := t.signature
  sourceBlock := t.slot

/-- `mna_parsed`. -/
def mnaParsed (log : List (List Char)) : Outcome RelayerError (Option Deposit) :=
  if cfg.mnaEnabled then solanaMnaProgramLog py log else .ok none

/-- The lane of a deposit: MNA before the SPL mint before wrapped SOL. -/
def solanaDeposit (log : List (List Char)) : Outcome RelayerError (Option (String × Deposit)) := do
  let mna ← mnaParsed py cfg log
  let spl ← solanaSplProgramLog py log
  match mna with
  | some d => .ok (some (cfg.mnaAssetId, d))
  | none =>
    match spl.filter (·.mint = cfg.splUsdcMint) with
    | some d =>
      if d.decimals ≠ 6 ∨ cfg.splEnabled = false then .ok none
      else .ok (some (cfg.splUsdcAssetId, d.toDeposit))
    | none => do
      let wsol ← solanaProgramLog py log
      .ok (wsol.map (cfg.assetId, ·))

/-- The row a transaction becomes. -/
def solanaRow (t : Transaction) : Outcome RelayerError (Option Row) :=
  if t.signature = "" ∨ t.failed = true then .ok none
  else if solanaProgramCalled cfg t = false then .ok none
  else do
    let deposit ← solanaDeposit py cfg (t.logMessages cfg)
    .ok (deposit.map fun (assetId, d) => inbound t assetId d)

/-- `INSERT OR IGNORE`. -/
def insertOrIgnore (rows : List Row) (row : Row) : List Row :=
  if row.operationId ∈ rows.map Row.operationId then rows else rows ++ [row]

/-- The transactions a poll has not seen, the oldest first. -/
def unseen (previous : String) (history : List Transaction) : List Transaction :=
  if previous ∈ history.map Transaction.signature then
    (history.takeWhile (·.signature ≠ previous)).reverse
  else history.reverse

/-- The loop of a poll. -/
def discoverAll : List Row → List Transaction → Outcome RelayerError (List Row)
  | rows, [] => .ok rows
  | rows, t :: rest => do
    let row ← solanaRow py cfg t
    discoverAll (row.elim rows (insertOrIgnore rows)) rest

/-- The rows after a poll; `history` has the newest transaction first. -/
def discover (previous : String) (history : List Transaction) (rows : List Row) :
    Outcome RelayerError (List Row) :=
  discoverAll py cfg rows (unseen previous history)

end Rows

/-! ## 3. The line that decides -/

/-- The three ways a deposit is read. -/
inductive Branch where
  | mna
  | spl
  | wsol
  deriving DecidableEq

section Decisive

variable (py : Python) (cfg : Config)

def Branch.pattern : Branch → List Piece
  | .mna => depositPattern py "INTERTRAIN_SOL_MNA_DEPOSIT"
  | .spl => splPattern py
  | .wsol => depositPattern py "INTERTRAIN_WSOL_DEPOSIT"

def Branch.assetId : Branch → String
  | .mna => cfg.mnaAssetId
  | .spl => cfg.splUsdcAssetId
  | .wsol => cfg.assetId

/-- What is read off the captured texts. -/
def Branch.read : Branch → List (List Char) → Outcome RelayerError (Option Deposit)
  | .mna, groups => readDeposit py groups
  | .spl, groups => do
    let d ← readSplDeposit py groups
    .ok (d.map SplDeposit.toDeposit)
  | .wsol, groups => readDeposit py groups

/-- What a line says. -/
def Branch.reads (b : Branch) (line : List Char) : Outcome RelayerError (Option Deposit) :=
  match search (b.pattern py) line with
  | some groups => b.read py groups
  | none => .ok none

/-- The first line a pattern is found in. -/
def firstLine (ps : List Piece) (log : List (List Char)) : Option (List Char) :=
  log.find? fun line => (search ps line).isSome

/-- The mint a line names. -/
def splMint (line : List Char) : Option String :=
  match search (splPattern py) line with
  | some [_, mint, _, _, _] => some (String.ofList mint)
  | _ => none

/-- The line that decides for MNA, if MNA is enabled. -/
def mnaLine (log : List (List Char)) : Option (List Char) :=
  if cfg.mnaEnabled then firstLine (Branch.mna.pattern py) log else none

/-- The line of the log that decides about a transaction, and how it is read. -/
def decisive (log : List (List Char)) : Option (Branch × List Char) :=
  match mnaLine py cfg log with
  | some line => some (.mna, line)
  | none =>
    match (firstLine (Branch.spl.pattern py) log).filter (splMint py · = some cfg.splUsdcMint) with
    | some line => some (.spl, line)
    | none => (firstLine (Branch.wsol.pattern py) log).map (.wsol, ·)

end Decisive

variable {py : Python} {cfg : Config} {t : Transaction} {log : List (List Char)}

theorem firstFound_eq (ps : List Piece) (log : List (List Char)) :
    firstFound ps log = (firstLine ps log).bind (search ps) := by
  unfold firstFound firstLine
  induction log with
  | nil => rfl
  | cons line log ih =>
    rw [List.findSome?_cons, List.find?_cons]
    cases h : search ps line with
    | none => exact ih
    | some groups => exact h.symm

theorem firstLine_found {ps : List Piece} {line : List Char} (h : firstLine ps log = some line) :
    ∃ groups, search ps line = some groups :=
  Option.isSome_iff_exists.mp (List.find?_some (p := fun line => (search ps line).isSome) h)

/-- A log says what its first line with the label says. -/
theorem programLog_eq (label : String) (log : List (List Char)) :
    programLog py label log = match firstLine (depositPattern py label) log with
      | some line => match search (depositPattern py label) line with
        | some groups => readDeposit py groups
        | none => .ok none
      | none => .ok none := by
  unfold programLog
  rw [firstFound_eq]
  cases firstLine (depositPattern py label) log with
  | none => rfl
  | some line => rfl

theorem solanaSplProgramLog_eq (log : List (List Char)) :
    solanaSplProgramLog py log = match firstLine (splPattern py) log with
      | some line => match search (splPattern py) line with
        | some groups => readSplDeposit py groups
        | none => .ok none
      | none => .ok none := by
  unfold solanaSplProgramLog
  rw [firstFound_eq]
  cases firstLine (splPattern py) log with
  | none => rfl
  | some line => rfl

/-- Five texts are captured of a deposit of the SPL mint, and its mint is the second. -/
theorem splPattern_groups {line : List Char} {groups : List (List Char)}
    (h : search (splPattern py) line = some groups) :
    ∃ id mint amount decimals destination, groups = [id, mint, amount, decimals, destination] ∧
      splMint py line = some (String.ofList mint) ∧ ∀ c ∈ destination, isSpace c = false := by
  cases search_fits h with
  | text _ h1 => cases h1 with
  | run id _ _ _ h2 => cases h2 with
  | text _ h3 => cases h3 with
  | run mint _ _ _ h4 => cases h4 with
  | text _ h5 => cases h5 with
  | run amount _ _ _ h6 => cases h6 with
  | text _ h7 => cases h7 with
  | run decimals _ _ _ h8 => cases h8 with
  | text _ h9 => cases h9 with
  | run destination hclass _ _ h10 =>
    cases h10
    refine ⟨id, mint, amount, decimals, destination, rfl, ?_, fun c hc => ?_⟩
    · rw [splMint, h]
    · simpa using hclass c hc

theorem depositPattern_groups {label : String} {line : List Char} {groups : List (List Char)}
    (h : search (depositPattern py label) line = some groups) :
    ∃ id amount destination, groups = [id, amount, destination] ∧
      ∀ c ∈ destination, isSpace c = false := by
  cases search_fits h with
  | text _ h1 => cases h1 with
  | run id _ _ _ h2 => cases h2 with
  | text _ h3 => cases h3 with
  | run amount _ _ _ h4 => cases h4 with
  | text _ h5 => cases h5 with
  | run destination hclass _ _ h6 =>
    cases h6
    exact ⟨id, amount, destination, rfl, fun c hc => by simpa using hclass c hc⟩

/-- A label's first line is read as a branch of the label reads it. -/
theorem programLog_reads {label : String} {b : Branch} (hp : b.pattern py = depositPattern py label)
    (hr : b.read py = readDeposit py) {line : List Char}
    (h : firstLine (b.pattern py) log = some line) : programLog py label log = b.reads py line := by
  rw [hp] at h
  rw [programLog_eq, h, Branch.reads, hp, hr]

theorem programLog_none {label : String} (h : firstLine (depositPattern py label) log = none) :
    programLog py label log = .ok none := by
  rw [programLog_eq, h]

theorem mnaLine_found {line : List Char} (h : mnaLine py cfg log = some line) :
    ∃ groups, search (Branch.mna.pattern py) line = some groups := by
  unfold mnaLine at h
  split at h
  · exact firstLine_found h
  · cases h

theorem mnaParsed_eq (log : List (List Char)) :
    mnaParsed py cfg log = match mnaLine py cfg log with
      | some line => Branch.mna.reads py line
      | none => .ok none := by
  unfold mnaParsed mnaLine
  split
  · cases h : firstLine (Branch.mna.pattern py) log with
    | some line => exact programLog_reads rfl rfl h
    | none => exact programLog_none h
  · rfl

/-- Where the pattern is found and the numerals are read, a line says something. -/
theorem Branch.reads_some {b : Branch} {line : List Char} {groups : List (List Char)}
    (h : search (b.pattern py) line = some groups) : b.reads py line ≠ .ok none := by
  intro hreads
  rw [Branch.reads, h] at hreads
  cases b with
  | mna =>
    obtain ⟨id, amount, destination, rfl, -⟩ := depositPattern_groups h
    obtain ⟨n, -, hread⟩ := Outcome.bind_eq_ok.mp hreads
    cases hread
  | spl =>
    obtain ⟨id, mint, amount, decimals, destination, rfl, -, -⟩ := splPattern_groups h
    obtain ⟨d, hd, hread⟩ := Outcome.bind_eq_ok.mp hreads
    obtain ⟨n, -, hd⟩ := Outcome.bind_eq_ok.mp hd
    obtain ⟨m, -, hd⟩ := Outcome.bind_eq_ok.mp hd
    cases hd
    cases hread
  | wsol =>
    obtain ⟨id, amount, destination, rfl, -⟩ := depositPattern_groups h
    obtain ⟨n, -, hread⟩ := Outcome.bind_eq_ok.mp hreads
    cases hread

/-- What is left to wrapped SOL. -/
theorem wsol_reads {a : String} {d : Deposit}
    (h : (do
      let wsol ← solanaProgramLog py log
      Except.ok (wsol.map (cfg.assetId, ·)) : Outcome RelayerError _) = .ok (some (a, d))) :
    ∃ line, firstLine (Branch.wsol.pattern py) log = some line ∧ a = cfg.assetId ∧
      Branch.wsol.reads py line = .ok (some d) := by
  obtain ⟨wsol, hwsol, h⟩ := Outcome.bind_eq_ok.mp h
  cases wsol with
  | none => cases h
  | some d' =>
    cases h
    cases hline : firstLine (Branch.wsol.pattern py) log with
    | none =>
      rw [solanaProgramLog, programLog_none hline] at hwsol
      cases hwsol
    | some line => exact ⟨line, rfl, rfl, (programLog_reads rfl rfl hline).symm.trans hwsol⟩

/-- What a line says of the SPL mint. -/
theorem splReads {line : List Char} {groups : List (List Char)} {spl : Option SplDeposit}
    (h : search (splPattern py) line = some groups)
    (hread : readSplDeposit py groups = .ok spl) :
    ∃ d, spl = some d ∧ splMint py line = some d.mint ∧
      Branch.spl.reads py line = .ok (some d.toDeposit) := by
  obtain ⟨id, mint, amount, decimals, destination, rfl, hmint, -⟩ := splPattern_groups h
  have hreads : Branch.spl.reads py line = (do
      let d ← readSplDeposit py [id, mint, amount, decimals, destination]
      Except.ok (d.map SplDeposit.toDeposit)) := by
    unfold Branch.reads Branch.pattern
    rw [h]
    rfl
  rw [hreads, hread]
  obtain ⟨n, -, hread⟩ := Outcome.bind_eq_ok.mp hread
  obtain ⟨m, -, hread⟩ := Outcome.bind_eq_ok.mp hread
  cases hread
  exact ⟨_, rfl, hmint, rfl⟩

theorem solanaSplProgramLog_singleton {line : List Char} {groups : List (List Char)}
    (h : search (splPattern py) line = some groups) :
    solanaSplProgramLog py [line] = readSplDeposit py groups := by
  unfold solanaSplProgramLog firstFound
  rw [List.findSome?_cons, h]

/-- The deposit of the SPL mint, where there is one, is that of the first line of the pattern. -/
theorem splFound_cases (cfg : Config) {spl : Option SplDeposit} (h : solanaSplProgramLog py log = .ok spl) :
    (∃ line s, (firstLine (Branch.spl.pattern py) log).filter
          (splMint py · = some cfg.splUsdcMint) = some line ∧
        spl.filter (·.mint = cfg.splUsdcMint) = some s ∧
        Branch.spl.reads py line = .ok (some s.toDeposit) ∧
        solanaSplProgramLog py [line] = .ok (some s)) ∨
      ((firstLine (Branch.spl.pattern py) log).filter
          (splMint py · = some cfg.splUsdcMint) = none ∧
        spl.filter (·.mint = cfg.splUsdcMint) = none) := by
  rw [solanaSplProgramLog_eq] at h
  cases hline : firstLine (Branch.spl.pattern py) log with
  | none =>
    have hline' : firstLine (splPattern py) log = none := hline
    rw [hline'] at h
    cases h
    exact Or.inr ⟨rfl, rfl⟩
  | some line =>
    have hline' : firstLine (splPattern py) log = some line := hline
    rw [hline'] at h
    obtain ⟨groups, hgroups⟩ := firstLine_found hline'
    simp only [hgroups] at h
    obtain ⟨s, rfl, hmint, hreads⟩ := splReads hgroups h
    by_cases hm : s.mint = cfg.splUsdcMint
    · refine Or.inl ⟨line, s, ?_, ?_, hreads, (solanaSplProgramLog_singleton hgroups).trans h⟩
      · exact Option.filter_eq_some_iff.mpr ⟨rfl, decide_eq_true (by rw [hmint, hm])⟩
      · exact Option.filter_eq_some_iff.mpr ⟨rfl, decide_eq_true hm⟩
    · refine Or.inr ⟨Option.filter_eq_none_iff.mpr fun x hx => ?_,
        Option.filter_eq_none_iff.mpr fun x hx => ?_⟩
      · cases hx
        rw [hmint]
        simpa using hm
      · cases hx
        simpa using hm

/-- **A transaction becomes a deposit by its decisive line.** -/
theorem solanaDeposit_decisive {a : String} {d : Deposit}
    (h : solanaDeposit py cfg log = .ok (some (a, d))) :
    ∃ b line, decisive py cfg log = some (b, line) ∧ a = b.assetId cfg ∧
      b.reads py line = .ok (some d) := by
  unfold solanaDeposit at h
  obtain ⟨mna, hmna, h⟩ := Outcome.bind_eq_ok.mp h
  obtain ⟨spl, hspl, h⟩ := Outcome.bind_eq_ok.mp h
  rw [mnaParsed_eq] at hmna
  unfold decisive
  cases hfirst : mnaLine py cfg log with
  | some line =>
    rw [hfirst] at hmna
    obtain ⟨groups, hgroups⟩ := mnaLine_found hfirst
    cases mna with
    | none => exact absurd hmna (Branch.reads_some hgroups)
    | some d' =>
      cases h
      exact ⟨.mna, line, rfl, rfl, hmna⟩
  | none =>
    rw [hfirst] at hmna
    cases hmna
    rcases splFound_cases cfg hspl with ⟨line, s, hline, hfilter, hreads, -⟩ | ⟨hline, hfilter⟩
    · simp only [hfilter] at h
      split at h
      · cases h
      · cases h
        exact ⟨.spl, line, by rw [hline], rfl, hreads⟩
    · simp only [hfilter] at h
      obtain ⟨line, hfound, ha, hreads⟩ := wsol_reads h
      refine ⟨.wsol, line, ?_, ha, hreads⟩
      rw [hline, hfound]
      rfl

/-! ## 4. Reading a lock's line back -/

theorem decimal_eq (n : Nat) : Solana.decimal n = Nat.toDigits 10 n := by
  unfold Solana.decimal
  rw [Nat.toString_eq_repr, Nat.toList_repr]

theorem isDigit_of_mem_decimal {n : Nat} {c : Char} (h : c ∈ Solana.decimal n) :
    c.isDigit = true := by
  rw [decimal_eq] at h
  exact Nat.isDigit_of_mem_toDigits (by decide) (by decide) h

theorem digit_of_mem_decimal {n : Nat} {c : Char} (h : c ∈ Solana.decimal n) :
    digit py c = true := by
  rw [digit, py.decimal_digit c (isDigit_of_mem_decimal h)]
  rfl

theorem length_decimal_pos (n : Nat) : 1 ≤ (Solana.decimal n).length := by
  rw [decimal_eq]
  exact Nat.length_toDigits_pos

theorem length_decimal_le {n k : Nat} (hk : 0 < k) (h : n < 10 ^ k) :
    (Solana.decimal n).length ≤ k := by
  rw [decimal_eq]
  exact (Nat.length_toDigits_le_iff (by decide) hk).mpr h

/-- **A numeral that is not too long** is read as the number it was printed from. -/
theorem int_decimal_of_lt {n k : Nat} (hk : 0 < k) (hle : k ≤ 640) (h : n < 10 ^ k) :
    int py (Solana.decimal n) = .ok n := by
  have hlimit : ¬ py.maxStrDigits.any (· < (Solana.decimal n).length) = true := by
    rw [Option.any_eq_true]
    rintro ⟨m, hm, hlt⟩
    have hlength := length_decimal_le hk h
    have hlimit := py.le_maxStrDigits m hm
    have hlt := of_decide_eq_true hlt
    omega
  have hvalue : ∀ (ds : List Char) (k : Nat), (∀ c ∈ ds, c.isDigit = true) →
      ds.foldl (fun n c => 10 * n + (py.decimal c).getD 0) k = Nat.ofDigitChars 10 ds k := by
    intro ds
    induction ds with
    | nil =>
      intro k _
      rfl
    | cons c ds ih =>
      intro k hds
      rw [List.foldl_cons, Nat.ofDigitChars_cons, py.decimal_digit c (hds c List.mem_cons_self),
        ih _ fun d hd => hds d (List.mem_cons_of_mem c hd)]
      rfl
  unfold int
  rw [rejectIf_neg hlimit, hvalue _ _ fun c => isDigit_of_mem_decimal, decimal_eq,
    Nat.ofDigitChars_ten_toDigits]
  rfl

theorem int_decimal {n : Nat} (h : n < 10 ^ 20) : int py (Solana.decimal n) = .ok n :=
  int_decimal_of_lt (by decide) (by decide) h

theorem hexDigit_digitChar : ∀ n < 16, hexDigit (Nat.digitChar n) = true ∧
    (Nat.digitChar n).toLower = Nat.digitChar n := by
  decide

theorem hex_id (i : LockInput) : ∀ c ∈ i.id, hexDigit c = true ∧ c.toLower = c := by
  intro c hc
  obtain ⟨b, -, hb⟩ := List.mem_flatMap.mp hc
  have hlt := b.toNat_lt
  simp only [hexByte, List.mem_cons, List.not_mem_nil, or_false] at hb
  rcases hb with rfl | rfl
  · exact hexDigit_digitChar _ (by omega)
  · exact hexDigit_digitChar _ (by omega)

theorem length_id (i : LockInput) : i.id.length = 64 := by
  rw [LockInput.id, length_flatMap_hexByte, Vector.length_toList]

theorem lower_id (i : LockInput) : lower i.id = String.ofList i.id := by
  unfold lower
  congr 1
  exact (List.map_congr_left fun c hc => (hex_id i c hc).2).trans (List.map_id _)

/-- The destination has no white space. -/
def Solid (i : LockInput) : Prop := ∀ c ∈ i.text, isSpace c = false

theorem length_text_pos (i : LockInput) : 1 ≤ i.text.length := by
  rw [LockInput.text, List.length_map]
  exact List.length_pos_iff.mpr i.destination_ne_nil

/-- The branch that reads the locks of a lane. -/
def Branch.ofLane : Lane → Branch
  | .wsol => .wsol
  | .mna => .mna
  | .spl _ _ => .spl

/-- The deposit a lock makes. -/
def deposit (l : Lock) : Deposit where
  operationId := String.ofList l.input.id
  amount := l.input.amount.toNat
  destination := String.ofList l.input.text

theorem isDigit_space : (' ' : Char).isDigit = false := by decide

/-- Digits end at a space. -/
theorem digit_space : digit py ' ' = false := by
  rw [digit, py.decimal_ascii ' ' (by decide) isDigit_space]
  rfl

/-- The text after the id of a deposit, as its pattern has it. -/
theorem renders_deposit (label : String) {i : LockInput} (hsolid : Solid i) :
    Renders (depositPattern py label) [i.id, Solana.decimal i.amount.toNat, i.text]
      (depositLine label i) := by
  have hend : Renders [.run 1 none fun c => !isSpace c] [i.text] (i.text ++ []) := by
    refine .run i.text (fun c hc => ?_) (length_text_pos i) (fun m hm => by cases hm)
      (fun c hc => by cases hc) (.nil [])
    rw [hsolid c hc]
    rfl
  rw [List.append_nil] at hend
  unfold depositPattern depositLine
  refine .text _ (.run _ (fun c hc => (hex_id i c hc).1) (Nat.le_of_eq (length_id i).symm)
    (fun m hm => ?_) (fun c hc => ?_) (.text _ (.run _ (fun c hc => digit_of_mem_decimal hc)
      (length_decimal_pos _) (fun m hm => by cases hm) (fun c hc => ?_) (.text _ hend))))
  · cases hm
    exact Nat.le_of_eq (length_id i)
  · cases hc
    decide
  · cases hc
    exact digit_space

theorem renders_spl (R : Runtime) (mint : Pubkey) (decimals : UInt8) {i : LockInput}
    (hsolid : Solid i) :
    Renders (splPattern py) [i.id, R.text mint, Solana.decimal i.amount.toNat,
      Solana.decimal decimals.toNat, i.text] (splLine (R.text mint) decimals i) := by
  have hend : Renders [.run 1 none fun c => !isSpace c] [i.text] (i.text ++ []) := by
    refine .run i.text (fun c hc => ?_) (length_text_pos i) (fun m hm => by cases hm)
      (fun c hc => by cases hc) (.nil [])
    rw [hsolid c hc]
    rfl
  rw [List.append_nil] at hend
  unfold splPattern splLine
  refine .text _ (.run _ (fun c hc => (hex_id i c hc).1) (Nat.le_of_eq (length_id i).symm)
    (fun m hm => ?_) (fun c hc => ?_) (.text _ (.run _ (R.text_base58 mint)
      (R.text_length mint).1 (fun m hm => ?_) (fun c hc => ?_) (.text _ (.run _
        (fun c hc => digit_of_mem_decimal hc) (length_decimal_pos _) (fun m hm => by cases hm)
        (fun c hc => ?_) (.text _ (.run _ (fun c hc => digit_of_mem_decimal hc)
          (length_decimal_pos _) (fun m hm => by cases hm) (fun c hc => ?_) (.text _ hend))))))))
  · cases hm
    exact Nat.le_of_eq (length_id i)
  · cases hc
    decide
  · cases hm
    exact (R.text_length mint).2
  · cases hc
    decide
  · cases hc
    exact digit_space
  · cases hc
    exact digit_space

/-- **A lock's line says what was locked**, if its destination has no white space. -/
theorem reads_lock (R : Runtime) {l : Lock} (hsolid : Solid l.input) :
    (Branch.ofLane l.lane).reads py (logLine R l) = .ok (some (deposit l)) := by
  have hamount : int py (Solana.decimal l.input.amount.toNat) = .ok l.input.amount.toNat :=
    int_decimal (Nat.lt_trans l.input.amount.isLt (by decide))
  have hpre : 'I' ∉ "Program log: ".toList := by decide
  have hdeposit : ∀ label : String, (label ++ " id=").toList.head? = some 'I' →
      search (depositPattern py label) ("Program log: ".toList ++ depositLine label l.input) =
        some [l.input.id, Solana.decimal l.input.amount.toNat, l.input.text] := fun label hlabel =>
    search_renders hlabel hpre (renders_deposit label hsolid)
  have hread : readDeposit py [l.input.id, Solana.decimal l.input.amount.toNat, l.input.text] =
      .ok (some (deposit l)) := by
    refine Outcome.bind_eq_ok.mpr ⟨_, hamount, ?_⟩
    rw [lower_id]
    rfl
  unfold logLine Lock.message Branch.reads
  cases l.lane with
  | wsol =>
    have hfound := hdeposit "INTERTRAIN_WSOL_DEPOSIT" (by decide)
    simp only [Branch.ofLane, Branch.pattern, hfound]
    exact hread
  | mna =>
    have hfound := hdeposit "INTERTRAIN_SOL_MNA_DEPOSIT" (by decide)
    simp only [Branch.ofLane, Branch.pattern, hfound]
    exact hread
  | spl mint decimals =>
    have hdecimals : int py (Solana.decimal decimals.toNat) = .ok decimals.toNat :=
      int_decimal (Nat.lt_trans decimals.toNat_lt (by decide))
    have hlabel : "INTERTRAIN_SPL_DEPOSIT id=".toList.head? = some 'I' := by decide
    have hfound : search (splPattern py)
        ("Program log: ".toList ++ splLine (R.text mint) decimals l.input) = _ :=
      search_renders hlabel hpre (renders_spl R mint decimals hsolid)
    simp only [Branch.ofLane, Branch.pattern, hfound]
    refine Outcome.bind_eq_ok.mpr ⟨_, Outcome.bind_eq_ok.mpr ⟨_, hamount,
      Outcome.bind_eq_ok.mpr ⟨_, hdecimals, rfl⟩⟩, ?_⟩
    rw [lower_id]
    rfl

/-! ## 5. Rows and locks -/

/-- The asset a lane is for. -/
def laneAssetId (cfg : Config) (R : Runtime) : Lane → String
  | .wsol => cfg.assetId
  | .mna => cfg.mnaAssetId
  | .spl mint _ => "solana:USDC:" ++ cfg.network ++ ":" ++ String.ofList (R.text mint)

/-- The row is that of the lock: its id, its asset, its destination and its amount, which is no more
    than what the lock moved into the vault. -/
structure Credits (cfg : Config) (row : Row) (R : Runtime) (l : Lock) : Prop where
  operationId : row.operationId = String.ofList l.input.id
  assetId : row.assetId = laneAssetId cfg R l.lane
  destination : row.destination = String.ofList l.input.text
  amount : row.amount = toString l.input.amount.toNat
  covered : l.input.amount.toNat ≤ l.moved

/-- The line that decides about the transaction reads like the line of a lock in it whose
    destination has no white space. -/
def ReadsLock (py : Python) (cfg : Config) (t : Transaction) : Prop :=
  ∃ b line, decisive py cfg (t.logMessages cfg) = some (b, line) ∧
    ∃ R l, (R, l) ∈ t.locks cfg ∧ laneAssetId cfg R l.lane = b.assetId cfg ∧ Solid l.input ∧
      b.reads py line = (Branch.ofLane l.lane).reads py (logLine R l)

/-- A destination that is read off a line has no white space. -/
theorem reads_solid {b : Branch} {line : List Char} {d : Deposit}
    (h : b.reads py line = .ok (some d)) : ∀ c ∈ d.destination.toList, isSpace c = false := by
  unfold Branch.reads at h
  cases hsearch : search (b.pattern py) line with
  | none =>
    rw [hsearch] at h
    cases h
  | some groups =>
    rw [hsearch] at h
    cases b with
    | mna =>
      obtain ⟨id, amount, destination, rfl, hsolid⟩ := depositPattern_groups hsearch
      obtain ⟨n, -, hread⟩ := Outcome.bind_eq_ok.mp h
      cases hread
      rwa [String.toList_ofList]
    | spl =>
      obtain ⟨id, mint, amount, decimals, destination, rfl, -, hsolid⟩ :=
        splPattern_groups hsearch
      obtain ⟨s, hs, hread⟩ := Outcome.bind_eq_ok.mp h
      obtain ⟨n, -, hs⟩ := Outcome.bind_eq_ok.mp hs
      obtain ⟨m, -, hs⟩ := Outcome.bind_eq_ok.mp hs
      cases hs
      cases hread
      rwa [String.toList_ofList]
    | wsol =>
      obtain ⟨id, amount, destination, rfl, hsolid⟩ := depositPattern_groups hsearch
      obtain ⟨n, -, hread⟩ := Outcome.bind_eq_ok.mp h
      cases hread
      rwa [String.toList_ofList]

/-- What a transaction's row says is what its decisive line says. -/
theorem solanaRow_decisive {row : Row} (h : solanaRow py cfg t = .ok (some row)) :
    ∃ b line d, decisive py cfg (t.logMessages cfg) = some (b, line) ∧
      b.reads py line = .ok (some d) ∧ row = inbound t (b.assetId cfg) d := by
  unfold solanaRow at h
  split at h
  · cases h
  · split at h
    · cases h
    · obtain ⟨deposit, hdeposit, h⟩ := Outcome.bind_eq_ok.mp h
      cases deposit with
      | none => cases h
      | some x =>
        obtain ⟨a, d⟩ := x
        cases h
        obtain ⟨b, line, hdecides, rfl, hreads⟩ := solanaDeposit_decisive hdeposit
        exact ⟨b, line, d, hdecides, hreads, rfl⟩

theorem moved_of_mem_locks {R : Runtime} {l : Lock} (h : (R, l) ∈ t.locks cfg) :
    l.moved = l.input.amount.toNat := by
  obtain ⟨e, -, he⟩ := List.mem_filterMap.mp h
  cases e with
  | line text => cases he
  | call R' accounts input =>
    obtain ⟨l', hl', heq⟩ := Option.map_eq_some_iff.mp he
    cases heq
    exact lockOf_moved hl'

/-- **The relayer credits what a lock moved** exactly where the line that decides about the
    transaction reads like that of a lock in it whose destination has no white space. -/
theorem credits_locked_iff {row : Row} (h : solanaRow py cfg t = .ok (some row)) :
    (∃ R l, (R, l) ∈ t.locks cfg ∧ Credits cfg row R l) ↔ ReadsLock py cfg t := by
  obtain ⟨b, line, d, hdecides, hreads, rfl⟩ := solanaRow_decisive h
  constructor
  · rintro ⟨R, l, hmem, hc⟩
    have hid : d.operationId = String.ofList l.input.id := hc.operationId
    have hdestination : d.destination = String.ofList l.input.text := hc.destination
    have hamount : toString d.amount = toString l.input.amount.toNat := hc.amount
    have hd : d = deposit l := by
      obtain ⟨operationId, amount, destination⟩ := d
      rw [deposit, ← hid, ← hdestination,
        ← Text.toString_toList_inj (congrArg String.toList hamount)]
    have hsolid : Solid l.input := by
      intro c hc
      refine reads_solid hreads c ?_
      rwa [hdestination, String.toList_ofList]
    refine ⟨b, line, hdecides, R, l, hmem, hc.assetId.symm, hsolid, ?_⟩
    rw [hreads, reads_lock R hsolid, hd]
  · rintro ⟨b', line', hdecides', R, l, hmem, hasset, hsolid, hsame⟩
    rw [hdecides] at hdecides'
    cases hdecides'
    rw [hreads, reads_lock R hsolid] at hsame
    cases hsame
    exact ⟨R, l, hmem, rfl, hasset.symm, rfl, rfl, Nat.le_of_eq (moved_of_mem_locks hmem).symm⟩

end Relayer

/-! ## 6. A lock of five lamports -/

namespace Sample

open Solana Relayer

def python : Python where
  decimal := fun c => if c.isDigit then some (c.toNat - 48) else none
  decimal_digit := fun c hc => by rw [if_pos hc]
  decimal_ascii := fun c _ hc => by rw [hc]; rfl
  maxStrDigits := some 4300
  le_maxStrDigits := fun m hm => by cases hm; decide
  sha256Hex := fun text => text

def relayer : Config where
  program := Vector.replicate 32 1
  programId := "4vJ9JU1bJJE96FWSJKvHsmmFADCg4gpZQff4P3bkLKi"
  mnaEnabled := false
  mnaAssetId := "solana:SOL:devnet:native"
  assetId := "solana:WSOL:devnet:vault"
  splEnabled := false
  network := "devnet"
  splUsdcMint := ""

def runtime : Runtime where
  findProgramAddress := fun _ _ => Vector.replicate 32 4
  minimumBalance := fun _ => 897840
  invoke := fun _ => .ok ()
  text := fun _ => List.replicate 32 '1'
  text_base58 := fun _ => Solana.ones_base58
  text_length := fun _ => Solana.ones_length

def lockAccounts : List AccountInfo :=
  [⟨Vector.replicate 32 2, systemProgram, true, true, []⟩,
    ⟨Vector.replicate 32 3, relayer.program, false, true, []⟩,
    ⟨Vector.replicate 32 5, relayer.program, false, false,
      List.replicate 32 6 ++ List.replicate 32 3 ++ List.replicate 32 0⟩,
    ⟨Vector.replicate 32 4, systemProgram, false, true, []⟩,
    ⟨systemProgram, systemProgram, false, false, []⟩]

/-- Five lamports for `alice`. -/
def lockData : List UInt8 :=
  [1, 5, 0, 0, 0, 0, 0, 0, 0] ++ List.replicate 32 7 ++ [5, 0, 97, 108, 105, 99, 101]

def lockInstruction : Instruction where
  programId := relayer.programId
  program := none
  log := [.call runtime lockAccounts lockData]

/-- A line that only claims a deposit. -/
def forgedLine : List Char :=
  "Program log: INTERTRAIN_WSOL_DEPOSIT id=".toList ++ List.replicate 64 'f'
    ++ " amount=1000000000 destination=mallory".toList

def forgedInstruction : Instruction where
  programId := "8qbHbw2BbbTHBW1sbeqakYXVKRQM8Ne7pLK7m6CVfeR"
  program := none
  log := [.line forgedLine]

def honest : Relayer.Transaction := ⟨"honest", false, 1, [lockInstruction]⟩

def forged : Relayer.Transaction := ⟨"forged", false, 1, [forgedInstruction, lockInstruction]⟩

def honestRow : Row where
  operationId := "0707070707070707070707070707070707070707070707070707070707070707"
  direction := "inbound"
  status := "detected"
  assetId := "solana:WSOL:devnet:vault"
  address := "alice"
  destination := "alice"
  amount := "5"
  externalTransaction := "honest"
  sourceBlock := 1

def forgedRow : Row where
  operationId := "ffffffffffffffffffffffffffffffffffffffffffffffffffffffffffffffff"
  direction := "inbound"
  status := "detected"
  assetId := "solana:WSOL:devnet:vault"
  address := "mallory"
  destination := "mallory"
  amount := "1000000000"
  externalTransaction := "forged"
  sourceBlock := 1

theorem solanaRow_honest : solanaRow python relayer honest = .ok (some honestRow) := by
  decide +kernel

theorem solanaRow_forged : solanaRow python relayer forged = .ok (some forgedRow) := by
  decide +kernel

def lock : Lock where
  lane := .wsol
  input := ⟨5, Vector.replicate 32 7, [97, 108, 105, 99, 101], by decide, by decide, by decide⟩
  vault := Vector.replicate 32 3
  cpis := [.createAccount (Vector.replicate 32 2) (Vector.replicate 32 4) 897840 1 relayer.program,
    .transfer (Vector.replicate 32 2) (Vector.replicate 32 3) 5]

theorem solid_lock : Solid lock.input := by
  have htext : lock.input.text.all (fun c => !isSpace c) = true := by decide +kernel
  intro c hc
  simpa using List.all_eq_true.mp htext c hc

theorem locks_honest : honest.locks relayer = [(runtime, lock)] := rfl

theorem locks_forged : forged.locks relayer = [(runtime, lock)] := rfl

end Sample

namespace Relayer

/-- A transaction with one lock: its row is the lock's. -/
theorem credits_locked_honest :
    ∃ R l, (R, l) ∈ Sample.honest.locks Sample.relayer ∧
      Credits Sample.relayer Sample.honestRow R l := by
  refine (credits_locked_iff Sample.solanaRow_honest).mpr
    ⟨.wsol, logLine Sample.runtime Sample.lock, by decide +kernel, Sample.runtime, Sample.lock, ?_,
      rfl, Sample.solid_lock, rfl⟩
  rw [Sample.locks_honest]
  exact List.mem_singleton_self _

/-- **A line of another program is credited**: a billion lamports for a lock of five. -/
theorem forged_line_credited :
    solanaRow Sample.python Sample.relayer Sample.forged = .ok (some Sample.forgedRow) ∧
      ¬ ∃ R l, (R, l) ∈ Sample.forged.locks Sample.relayer ∧
        Credits Sample.relayer Sample.forgedRow R l := by
  refine ⟨Sample.solanaRow_forged, ?_⟩
  rintro ⟨R, l, hmem, hc⟩
  rw [Sample.locks_forged] at hmem
  cases List.mem_singleton.mp hmem
  exact absurd hc.amount (by decide)

end Relayer

end WorldstreetChain
