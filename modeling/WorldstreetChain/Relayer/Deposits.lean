import WorldstreetChain.Relayer.Burns

/-!
# Discovery (`discover_deposits`, `discover_solana_deposits`, `discover_burns`)

A poll notes the deposits of the sources and the burns of the chain in the relayer's table, which
has one row an operation id. Rows are noted in a transaction of the database, and a poll that ends
in an error leaves what it had noted until then uncommitted.

* `Relayer.decodeDeposit` -- what the data of a log of the contracts says.
* `Relayer.custodyRow` -- the row of a transfer into the vault in custody mode.
* `Relayer.discoverDeposits`, `Relayer.discoverSolanaDeposits`, `Relayer.noteBurns` -- the polls.
-/

namespace WorldstreetChain

namespace Relayer

/-! ## 1. Logs of the contracts -/

/-- A `Deposit` log as the RPC answers it: bytes are digits behind `0x`. -/
structure DepositLog where
  topics : List String
  digits : List Char
  transactionHash : String
  blockNumber : Nat
  hex : digits.all hexDigit = true

def DepositLog.data (log : DepositLog) : List Char := "0x".toList ++ log.digits

/-- `int(text, 16)` of digits. -/
def int16 (text : List Char) : Outcome RelayerError Nat := do
  rejectIf (text = []) .value
  let values ← orFail (text.mapM Rpc.hexValue) .value
  .ok (values.foldl (fun n v => 16 * n + v) 0)

def decodeDeposit (data : List Char) : Outcome RelayerError (Nat × String) := do
  let raw := removePrefix "0x".toList data
  rejectIf (raw.length < 128) .value
  let amount ← int16 (raw.take 64)
  let offset ← int16 ((raw.drop 64).take 64)
  let start := offset * 2
  rejectIf (raw.length < start + 64) .value
  let length ← int16 ((raw.drop start).take 64)
  let textStart := start + 64
  let bytes ← orFail (Rpc.hexDecode ((raw.drop textStart).take (length * 2))) .value
  let destination ← orFail (String.fromUTF8? ⟨bytes.toArray⟩) .value
  .ok (amount, destination)

/-- The row a log becomes; one with fewer than three topics is passed over. -/
def depositRow (assetId : String) (log : DepositLog) : Outcome RelayerError (Option Row) :=
  match log.topics with
  | _ :: depositId :: _ :: _ => do
    let (amount, destination) ← decodeDeposit log.data
    .ok (some
      { operationId := lower (removePrefix "0x".toList depositId.toList)
        direction := "inbound"
        status := "detected"
        assetId := assetId
        address := destination
        destination := destination
        amount := toString amount
        externalTransaction := String.ofList (removePrefix "0x".toList log.transactionHash.toList)
        sourceBlock := log.blockNumber })
  | _ => .ok none

def noteLogs (assetId : String) : List DepositLog → List Row → Applied RelayerError (List Row) Unit
  | [], rows => ⟨.ok (), rows⟩
  | log :: rest, rows =>
    .attempt rows (depositRow assetId log) fun row =>
    noteLogs assetId rest (row.elim rows (insertOrIgnore rows))

/-- The contracts one after the other, each with the asset it locks and what the RPC answers. -/
def noteSources : List (String × Outcome RelayerError (List DepositLog)) → List Row →
    Applied RelayerError (List Row) Unit
  | [], rows => ⟨.ok (), rows⟩
  | (assetId, answer) :: rest, rows =>
    .attempt rows answer fun logs =>
    (noteLogs assetId logs rows).andThen fun _ rows => noteSources rest rows

/-! ## 2. Transfers in custody mode -/

/-- An instruction of one of the memo programs. -/
structure Memo where
  parsed : Option String
  data : Option String

/-- A transaction's accounts, their balances in front of it and behind it, and its memos. -/
structure Detail where
  accountKeys : List String
  preBalances : List Int
  postBalances : List Int
  memos : List Memo

def solanaMemo (detail : Detail) : String :=
  (detail.memos.findSome? fun memo => memo.parsed <|> memo.data).getD ""

/-- `intertrain:wsol:deposit:([0-9a-fA-F]{64}):([^:]+)`, the second group of a full match. -/
def custodyDestination (memo : List Char) : Option String := do
  let lead := "intertrain:wsol:deposit:".toList
  guard (lead.isPrefixOf memo)
  let rest := memo.drop lead.length
  guard ((rest.take 64).length = 64 ∧ (rest.take 64).all hexDigit)
  match rest.drop 64 with
  | ':' :: destination =>
    guard (destination ≠ [] ∧ ':' ∉ destination)
    some (String.ofList destination)
  | _ => none

/-- What a transaction adds to the vault. -/
def vaultGain (vaultAddress : String) (detail : Detail) : Option Int := do
  let vaultIndex ← detail.accountKeys.idxOf? vaultAddress
  let post ← detail.postBalances[vaultIndex]?
  let pre ← detail.preBalances[vaultIndex]?
  some (post - pre)

def custodyRow (py : Python) (cfg : Config) (vaultAddress : String) (t : Transaction)
    (detail : Detail) : Option Row := do
  let amount ← vaultGain vaultAddress detail
  guard (0 < amount)
  let destination ← custodyDestination (solanaMemo detail).toList
  let operationId := py.sha256Hex ("solana:wsol:deposit:" ++ t.signature)
  some (inbound t cfg.assetId ⟨operationId, amount.toNat, destination⟩)

/-! ## 3. The database -/

/-- The tables; the rows stand in the order in which they were noted. -/
structure Tables where
  operations : List Row
  attempts : String → Nat
  nextAttempt : String → Nat
  ethBlock : Option Nat
  solanaSignature : Option String

/-- What is committed, and what the relayer's connection sees. -/
structure Db where
  committed : Tables
  tables : Tables

namespace Db

def commit (d : Db) : Db := { d with committed := d.tables }

/-- A restart of the relayer: what was not committed is gone. -/
def restart (d : Db) : Db := { d with tables := d.committed }

def withRows (d : Db) (rows : List Row) : Db :=
  { d with tables := { d.tables with operations := rows } }

def setEthBlock (d : Db) (block : Nat) : Db :=
  { d with tables := { d.tables with ethBlock := some block } }

def setSolanaSignature (d : Db) (signature : String) : Db :=
  { d with tables := { d.tables with solanaSignature := some signature } }

/-- Rows that are noted and committed, unless an error came in between. -/
def note (d : Db) (noted : Applied RelayerError (List Row) Unit) : Applied RelayerError Db Unit :=
  match noted.result with
  | .ok _ => ⟨.ok (), (d.withRows noted.state).commit⟩
  | .error e => ⟨.error e, d.withRows noted.state⟩

end Db

/-! ## 4. The polls -/

def discoverDeposits (fromBlock toBlock : Nat)
    (sources : List (String × Outcome RelayerError (List DepositLog))) (d : Db) :
    Applied RelayerError Db Unit :=
  if toBlock < fromBlock then ⟨.ok (), d⟩
  else d.note (noteSources sources d.tables.operations)

/-- What the RPC of Solana answers in one poll: the newest transaction of the vault, where there is
    no cursor yet, its history with the newest first, and what it knows of a transaction. -/
structure SolanaAnswers where
  newest : Outcome RelayerError (List Transaction)
  history : Outcome RelayerError (List Transaction)
  /-- `getTransaction`, which may find nothing. -/
  found : String → Outcome RelayerError (Option Detail)

/-- `solana_cursor`. -/
def solanaCursor (answer : Outcome RelayerError (List Transaction)) (d : Db) :
    Applied RelayerError Db String :=
  match d.tables.solanaSignature with
  | some signature => ⟨.ok signature, d⟩
  | none =>
    .attempt d answer fun signatures =>
    let value := (signatures.head?.map Transaction.signature).getD ""
    ⟨.ok value, (d.setSolanaSignature value).commit⟩

section Solana

variable (read : Transaction → Detail → Outcome RelayerError (Option Row))

/-- The loop over the transactions; `read` is how one is read in the mode the relayer is in. -/
def noteTransactions (found : String → Outcome RelayerError (Option Detail)) :
    List Transaction → List Row → Applied RelayerError (List Row) Unit
  | [], rows => ⟨.ok (), rows⟩
  | t :: rest, rows =>
    if t.signature = "" ∨ t.failed = true then noteTransactions found rest rows
    else
      .attempt rows (found t.signature) fun
      | none => noteTransactions found rest rows
      | some detail =>
        .attempt rows (read t detail) fun row =>
        noteTransactions found rest (row.elim rows (insertOrIgnore rows))

/-- The poll of the vault's history. -/
def discoverSolanaDeposits (answers : SolanaAnswers) (d : Db) : Applied RelayerError Db Unit :=
  (solanaCursor answers.newest d).andThen fun previous d =>
  .attempt d answers.history fun signatures =>
  match signatures with
  | [] => ⟨.ok (), d⟩
  | newest :: _ =>
    if previous = "" then ⟨.ok (), (d.setSolanaSignature newest.signature).commit⟩
    else
      let noted := noteTransactions read answers.found (unseen previous signatures)
        d.tables.operations
      match noted.result with
      | .ok _ => ⟨.ok (), ((d.withRows noted.state).setSolanaSignature newest.signature).commit⟩
      | .error e => ⟨.error e, d.withRows noted.state⟩

end Solana

/-- `discover_burns`, with what the node answers. -/
def noteBurns (answer : Outcome RelayerError (List Rpc.AssetOperationView)) (d : Db) :
    Applied RelayerError Db Unit :=
  .attempt d answer fun operations =>
  ⟨.ok (), (d.withRows (discoverBurns operations d.tables.operations)).commit⟩

end Relayer

end WorldstreetChain
