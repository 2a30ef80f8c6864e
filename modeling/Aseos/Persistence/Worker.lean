import Aseos.Persistence.Requests
import Aseos.Library.Sorting
import Mathlib.Data.Char
import Mathlib.Data.List.Lex

namespace Aseos.Persistence

open Execution Kernel

-- What the worker has beside its tables: its configuration and what SQLite and the host answer,
-- the journal mode in lower case.
structure WorkerHost where
  databasePath : JsString
  busyTimeoutMs : ℕ
  journalMode : JsString
  synchronous : ℕ
  foreignKeys : ℕ
  trustedSchema : ℕ
  busyTimeout : ℕ
  sqliteVersion : JsString
  -- the rows of `PRAGMA quick_check`
  quickCheckRows : List JsString
  -- what denies ATTACH, CREATE TABLE and `load_extension`
  attachDenied : Bool
  schemaMutationDenied : Bool
  extensionLoadingDenied : Bool
  -- `stateSchemaManifest`, when the schema was verified
  stateManifest : Option (JsString → JsValue)
  resolve : JsString → JsString
  -- creating the directory of the copy, and checking and reading the copy
  mkdir : JsString → Except Failure Unit
  checkCopy : JsString → Except Failure JsValue

section Requests

variable (runtime : JsonRuntime) (driver : Driver) (host : WorkerHost)

def inboxReply (row : InboxRow) : JsValue :=
  .record [(js "schemaVersion", .string (js "1.0.0")),
    (js "resultId", .string (driver.columnText row.resultId)),
    (js "taskId", .string (driver.columnText row.taskId)),
    (js "payloadHash", .string (driver.columnText row.payloadHash)),
    (js "status", .string (js "DUPLICATE")),
    (js "receivedAt", .string (driver.columnText row.receivedAt))]

def inboxReused : Failure :=
  .internal .idempotencyConflict "Inbox result or task identity was reused by a different record"

def inboxTransaction (record : JsValue) : Sql JsValue := do
  let existing ← Sql.query fun tables => tables.inbox.filter fun row =>
    row.resultId = bound (text record "resultId") ∨ row.taskId = bound (text record "taskId")
  match existing with
  | [] =>
      Sql.insert (·.insertInbox {
        resultId := bound (text record "resultId")
        taskId := bound (text record "taskId")
        payloadHash := bound (text record "payloadHash")
        status := bound (text record "status")
        receivedAt := bound (text record "receivedAt") })
      return record
  | [row] =>
      if driver.columnText row.resultId = text record "resultId" ∧
          driver.columnText row.taskId = text record "taskId" ∧
          driver.columnText row.payloadHash = text record "payloadHash" then
        return inboxReply driver row
      else throw inboxReused
  | _ => throw inboxReused

def recordInbox (record : JsValue) : Sql JsValue :=
  Sql.runTransaction (inboxTransaction driver record)

def checkpointMovesBack : Failure :=
  .internal .optimisticConcurrency "Projection checkpoint cannot move backwards"

def verifyForward (existing : Option CheckpointRow) (checkpoint : JsValue) :
    Except Failure Unit := do
  match existing with
  | some row => do
      let sourceSequence ← safeColumn row.sourceSequence "checkpoint" "source_sequence"
      if sourceSequence > natural checkpoint "sourceSequence" then .error checkpointMovesBack
      else return ()
  | none => return ()

def checkpointTransaction (checkpoint : JsValue) : Sql JsValue := do
  let existing ← Sql.query fun tables => tables.projectionCheckpoints.find? fun row =>
    row.projectionName = bound (text checkpoint "projectionName")
  lift (verifyForward existing checkpoint)
  Sql.insert fun tables => .ok (tables.upsertCheckpoint {
    projectionName := bound (text checkpoint "projectionName")
    projectionVersion := bound (text checkpoint "projectionVersion")
    sourceSequence := natural checkpoint "sourceSequence"
    rebuiltFromSequence :=
      match checkpoint.property (js "rebuiltFromSequence") with
      | .number _ => some (natural checkpoint "rebuiltFromSequence")
      | _ => none
    updatedAt := bound (text checkpoint "updatedAt") })
  return checkpoint

def saveCheckpoint (checkpoint : JsValue) : Sql JsValue :=
  Sql.runTransaction (checkpointTransaction checkpoint)

def commandReply (row : CommandReceiptRow) : JsValue :=
  .record [(js "schemaVersion", .string (js "1.0.0")),
    (js "commandId", .string (driver.columnText row.commandId)),
    (js "idempotencyKey", .string (driver.columnText row.idempotencyKey)),
    (js "effectScope", .string (driver.columnText row.effectScope)),
    (js "payloadHash", .string (driver.columnText row.payloadHash)),
    (js "outcomeHash", .string (driver.columnText row.outcomeHash)),
    (js "status", .string (js "COMMITTED")),
    (js "completedAt", .string (driver.columnText row.completedAt))]

def getCommand (payload : JsValue) : Sql JsValue := do
  let commandId ← lift (requiredString payload "commandId" "get-command")
  let row ← Sql.query fun tables =>
    tables.commandReceipts.find? fun row => row.commandId = bound commandId
  return (row.map (commandReply driver)).getD .null

def lookupCommandReceipt (payload : JsValue) : Sql JsValue := do
  let commandId ← lift (requiredString payload "commandId" "lookup-command-receipt")
  let idempotencyKey ← lift (requiredString payload "idempotencyKey" "lookup-command-receipt")
  let effectScope ← lift (requiredString payload "effectScope" "lookup-command-receipt")
  let payloadHash ← lift (requiredString payload "payloadHash" "lookup-command-receipt")
  match ← findCommandDuplicate driver ⟨commandId, idempotencyKey, effectScope, payloadHash⟩ with
  | some row => lift (receiptOfRow runtime driver row)
  | none => return .null

def outboxReply (row : OutboxRow) : JsValue :=
  .record [(js "schemaVersion", .string (js "1.0.0")),
    (js "taskId", .string (driver.columnText row.taskId)),
    (js "idempotencyKey", .string (driver.columnText row.idempotencyKey)),
    (js "effectScope", .string (driver.columnText row.effectScope)),
    (js "payloadHash", .string (driver.columnText row.payloadHash)),
    (js "status", .string (js "PENDING")),
    (js "attempt", .number (integer row.attempt)),
    (js "createdAt", .string (driver.columnText row.createdAt)),
    (js "leasedUntil", (row.leasedUntil.map fun t => .string (driver.columnText t)).getD .null)]

def listOutbox : Sql JsValue := do
  let rows ← Sql.query (·.outbox)
  return .array ((sortBy (·.taskId) rows).map fun row => (.data, outboxReply driver row)) []

-- A negative LIMIT is none.
def limited {α : Type} (limit : ℤ) (rows : List α) : List α :=
  if limit < 0 then rows else rows.take limit.toNat

def streamRows (tables : Tables) (aggregateType aggregateId : Text) : List EventRow :=
  sortBy (·.aggregateVersion)
    (tables.eventJournal.filter (·.inStream aggregateType aggregateId))

def readEvents (payload : JsValue) : Sql JsValue := do
  let aggregateType ← lift (requiredString payload "aggregateType" "read-events")
  let aggregateId ← lift (requiredString payload "aggregateId" "read-events")
  let limit ← lift (requiredSafeInteger payload "limit" "read-events")
  let rows ← Sql.query fun tables =>
    limited limit (streamRows tables (bound aggregateType) (bound aggregateId))
  let events ← lift (rows.mapM fun row => parseJson runtime driver row.eventJson "event journal")
  return .array (events.map fun event => (.data, event)) []

def quickCheck : Sql Unit := do
  let rows ← Sql.query fun _ => host.quickCheckRows
  match rows with
  | [row] => if row = js "ok" then return () else Sql.fail .corruption "SQLite quick_check failed"
  | _ =>
      let count := toString rows.length
      Sql.fail .corruption ("SQLite quick_check returned " ++ count ++ " rows")

def health : Sql JsValue := do
  let journalMode ← Sql.query fun _ => host.journalMode
  let synchronous ← Sql.query fun _ => host.synchronous
  let foreignKeys ← Sql.query fun _ => host.foreignKeys
  let trustedSchema ← Sql.query fun _ => host.trustedSchema
  let busyTimeout ← Sql.query fun _ => host.busyTimeout
  let sqliteVersion ← Sql.query fun _ => host.sqliteVersion
  if journalMode ≠ js "wal" ∨ synchronous ≠ 2 ∨ foreignKeys ≠ 1 ∨ trustedSchema ≠ 0 ∨
      busyTimeout ≠ host.busyTimeoutMs then
    Sql.fail .securityControlFailed "SQLite durability or security PRAGMA attestation failed"
  else
    quickCheck host
    return .record [(js "databasePath", .string host.databasePath),
      (js "sqliteVersion", .string sqliteVersion), (js "journalMode", .string (js "wal")),
      (js "synchronous", .number (integer 2)), (js "foreignKeys", .number (integer 1)),
      (js "trustedSchema", .number (integer 0)),
      (js "busyTimeoutMs", .number (integer host.busyTimeoutMs)), (js "defensive", .bool true),
      (js "extensionLoading", .bool false), (js "doubleQuotedStringLiterals", .bool false),
      (js "integrity", .string (js "ok"))]

def count (rows : Tables → ℕ) (table : String) : Sql JsValue := do
  let n ← Sql.query rows
  let n ← lift (safeColumn n (table ++ " count") "count")
  return .number (integer n)

def recover : Sql JsValue := do
  quickCheck host
  let eventCount ← count (·.eventJournal.length) "event_journal"
  let commandCount ← count (·.commandReceipts.length) "command_receipts"
  let pendingOutboxCount ← count (fun tables =>
    tables.outbox.countP fun row => row.status = .pending) "outbox"
  let inboxCount ← count (·.inbox.length) "inbox"
  let auditCount ← count (·.auditFacts.length) "audit_facts"
  let checkpointCount ← count (·.projectionCheckpoints.length) "projection_checkpoints"
  return .record [(js "eventCount", eventCount), (js "commandCount", commandCount),
    (js "pendingOutboxCount", pendingOutboxCount), (js "inboxCount", inboxCount),
    (js "auditCount", auditCount), (js "checkpointCount", checkpointCount),
    (js "integrity", .string (js "ok"))]

def stateSchemaManifest : Sql JsValue := do
  match host.stateManifest with
  | none => Sql.fail .migrationMismatch "State schema manifest is unavailable"
  | some manifest => do
      let version ← Sql.query fun _ => host.sqliteVersion
      return manifest version

def backupDatabase (payload : JsValue) : Sql JsValue := do
  let destination ← lift (requiredString payload "destination" "backup")
  if host.resolve destination = host.databasePath then
    Sql.fail .contractInvalid "Backup destination must differ from authority database"
  else
    lift (host.mkdir destination)
    -- `backup(db(), destination)`
    Sql.query fun _ => ()
    lift (host.checkCopy destination)

def denied (isDenied : Bool) : Sql Bool := do
  let succeeded ← attempt (Sql.statement fun tables =>
    if isDenied then .error (.foreign .storageFailure) else .ok ((), tables))
  return !succeeded

def securityQualification : Sql JsValue := do
  Sql.db
  let attachDenied ← denied host.attachDenied
  let schemaMutationDenied ← denied host.schemaMutationDenied
  let extensionLoadingDenied ← denied host.extensionLoadingDenied
  -- `SELECT ? AS value` with a text that would drop a table
  Sql.query fun _ => ()
  let _ ← count (·.eventJournal.length) "event_journal"
  if attachDenied && schemaMutationDenied && extensionLoadingDenied then
    return .record [(js "attachDenied", .bool true), (js "schemaMutationDenied", .bool true),
      (js "extensionLoadingDenied", .bool true),
      (js "parameterBindingPreservedJournal", .bool true)]
  else
    Sql.fail .securityControlFailed "SQLite runtime security qualification did not fail closed"

end Requests

section Qualification

variable (runtime : JsonRuntime)

def setWriteLockHeld (held : Bool) : Sql Unit :=
  modify fun s => { s with connection := { s.connection with writeLockHeld := held } }

def setCrashTransactionArmed (armed : Bool) : Sql Unit :=
  modify fun s => { s with connection := { s.connection with crashTransactionArmed := armed } }

def Database.qualifying (c : Database) : Bool := c.writeLockHeld || c.crashTransactionArmed

def alreadyActive : Failure := .internal .busy "A qualification transaction is already active"

-- What `armCrash` checks before it begins; it returns the event that it will insert.
def armCrashChecks (batch : JsValue) : Sql JsValue := do
  let c ← Sql.connection
  if c.qualifying then throw alreadyActive
  else
    lift (verifyOutbox runtime batch)
    let currentVersion ← currentAggregateVersion batch
    if currentVersion ≠ natural (stream batch) "expectedVersion" then
      Sql.fail .optimisticConcurrency "Crash probe expected version mismatch"
    else
      match elements batch "events" with
      | [] => Sql.fail .contractInvalid "Crash probe requires an event"
      | event :: _ => do
          lift (verifyEvent runtime event batch (currentVersion + 1))
          return event

def armCrashTransaction (event : JsValue) : Sql JsValue :=
  Execution.recover (do
    Sql.beginImmediate
    insertEvent runtime event .armCrash
    setCrashTransactionArmed true
    return .string (js "ARMED")) fun error => do
      let _ ← attempt Sql.rollback
      throw error

def armCrash (batch : JsValue) : Sql JsValue := do
  let event ← armCrashChecks runtime batch
  armCrashTransaction runtime event

def holdLock : Sql JsValue := do
  let c ← Sql.connection
  if c.qualifying then throw alreadyActive
  else
    Sql.beginImmediate
    setWriteLockHeld true
    return .string (js "LOCKED")

def releaseLock : Sql JsValue := do
  let c ← Sql.connection
  if c.writeLockHeld then
    Sql.rollback
    setWriteLockHeld false
    return .string (js "RELEASED")
  else Sql.fail .contractInvalid "No qualification write lock is active"

def endQualification : Sql Unit := do
  let c ← Sql.connection
  if c.qualifying then
    let _ ← attempt Sql.rollback
    return ()
  else return ()

def closeDatabase : Sql JsValue := do
  endQualification
  Sql.walCheckpoint
  Sql.close
  return .string (js "CLOSED")

end Qualification

def asRecord (value : JsValue) (context : String) : Except Failure Unit :=
  match value with
  | .object _ _ => .ok ()
  | _ => reject .storageFailure ("Expected row object for " ++ context)

def WorkerRequestKind.name : WorkerRequestKind → String
  | armCrash => "arm-crash"
  | backup => "backup"
  | close => "close"
  | commit => "commit"
  | getCommand => "get-command"
  | lookupCommandReceipt => "lookup-command-receipt"
  | health => "health"
  | holdLock => "hold-lock"
  | listOutbox => "list-outbox"
  | readEvents => "read-events"
  | recordInbox => "record-inbox"
  | recover => "recover"
  | releaseLock => "release-lock"
  | saveCheckpoint => "save-checkpoint"
  | security => "security"
  | stateManifest => "state-manifest"

structure WorkerRequest where
  kind : WorkerRequestKind
  payload : JsValue

section Dispatch

variable (runtime : JsonRuntime) (driver : Driver) (host : WorkerHost)

def handle (request : WorkerRequest) : Sql JsValue := do
  lift (asRecord request.payload request.kind.name)
  match request.kind with
  | .armCrash => armCrash runtime request.payload
  | .backup => backupDatabase host request.payload
  | .close => closeDatabase
  | .commit => commitBatch runtime driver request.payload
  | .getCommand => getCommand driver request.payload
  | .lookupCommandReceipt => lookupCommandReceipt runtime driver request.payload
  | .health => health host
  | .holdLock => holdLock
  | .listOutbox => listOutbox driver
  | .readEvents => readEvents runtime driver request.payload
  | .recordInbox => recordInbox driver request.payload
  | .recover => recover host
  | .releaseLock => releaseLock
  | .saveCheckpoint => saveCheckpoint request.payload
  | .security => securityQualification host
  | .stateManifest => stateSchemaManifest host

end Dispatch

end Aseos.Persistence
