import Aseos.Kernel.Model
import Aseos.Persistence.Connection

namespace Aseos.Persistence

open Execution Kernel

def elements (value : JsValue) (key : String) : List JsValue :=
  (((value.property (js key)).isArray).getD []).map Prod.snd

-- A natural number member of a value that its schema has accepted.
def natural (value : JsValue) (key : String) : ℕ :=
  match value.property (js key) with
  | .number (.finite x) => if x.value.den = 1 then x.value.num.toNat else 0
  | _ => 0

-- The sum of a version and a length; a stream with 2 ^ 53 events is not reached.
def integer (n : ℕ) : JsNumber :=
  if h : |(n : ℤ)| < 2 ^ 53 then .ofInt n h else .infinity false

structure CommandIdentity where
  commandId : JsString
  idempotencyKey : JsString
  effectScope : JsString
  payloadHash : JsString
  deriving DecidableEq

def CommandIdentity.ofBatch (batch : JsValue) : CommandIdentity :=
  ⟨text batch "commandId", text batch "idempotencyKey", text batch "effectScope",
    text batch "payloadHash"⟩

def stream (batch : JsValue) : JsValue := batch.property (js "stream")

def foreign {α : Type} : Except CanonicalError α → Except Failure α
  | .ok a => .ok a
  | .error _ => .error (.foreign .storageFailure)

def reject {α : Type} (code : PersistenceErrorCode) (message : String) : Except Failure α :=
  .error (.internal code message)

def requiredString (record : JsValue) (key : String) (context : String) : Except Failure JsString :=
  match record.property (js key) with
  | .string s => .ok s
  | _ => reject .storageFailure ("Expected " ++ context ++ "." ++ key ++ " to be a string")

def requiredSafeInteger (record : JsValue) (key : String) (context : String) : Except Failure ℤ :=
  match record.property (js key) with
  | .number (.finite x) =>
      if x.isSafeInteger then .ok x.value.num
      else reject .storageFailure ("Expected " ++ context ++ "." ++ key ++ " to be a safe integer")
  | _ => reject .storageFailure ("Expected " ++ context ++ "." ++ key ++ " to be a safe integer")

-- `requiredSafeInteger` of an INTEGER column.
def safeColumn (n : ℕ) (context key : String) : Except Failure ℕ :=
  if (n : ℤ) ≤ Aseos.maxSafeInteger then .ok n
  else reject .storageFailure ("Expected " ++ context ++ "." ++ key ++ " to be a safe integer")

section Requests

variable (runtime : JsonRuntime) (driver : Driver)

def parseJson (value : Text) (context : String) : Except Failure JsValue :=
  match Json.parse runtime.numberValue (driver.columnText value) with
  | some v => .ok v
  | none => reject .storageFailure ("Invalid canonical JSON in " ++ context)

def verifyEvent (event batch : JsValue) (expectedVersion : ℕ) : Except Failure Unit := do
  if text event "aggregateType" ≠ text (stream batch) "aggregateType" ∨
      text event "aggregateId" ≠ text (stream batch) "aggregateId" ∨
      natural event "aggregateVersion" ≠ expectedVersion then
    reject .optimisticConcurrency
      "Event aggregate identity or version differs from the append stream"
  else
    let actual ← foreign (canonicalJsonSha256 runtime.toHost (event.property (js "payload")))
    if actual.text ≠ text event "payloadHash" then
      reject .contractInvalid "Event payload hash does not match canonical payload"
    else return ()

def verifyTask (task : JsValue) : Except Failure Unit := do
  let actual ← foreign (canonicalJsonSha256 runtime.toHost (task.property (js "payload")))
  if actual.text ≠ text task "payloadHash" then
    reject .contractInvalid "Outbox payload hash does not match canonical payload"
  else return ()

def verifyOutbox (batch : JsValue) : Except Failure Unit :=
  (elements batch "outbox").forM (verifyTask runtime)

def currentAggregateVersion (batch : JsValue) : Sql ℕ := do
  let version ← Sql.query (·.maxVersion (bound (text (stream batch) "aggregateType"))
    (bound (text (stream batch) "aggregateId")))
  lift (safeColumn version "aggregate version" "version")

def CommandReceiptRow.matches (row : CommandReceiptRow) (identity : CommandIdentity) : Prop :=
  row.commandId = bound identity.commandId ∨
    row.idempotencyKey = bound identity.idempotencyKey ∧
      row.effectScope = bound identity.effectScope

instance (row : CommandReceiptRow) (identity : CommandIdentity) :
    Decidable (row.matches identity) :=
  inferInstanceAs (Decidable (_ ∨ _))

def CommandReceiptRow.identity (row : CommandReceiptRow) : CommandIdentity :=
  ⟨driver.columnText row.commandId, driver.columnText row.idempotencyKey,
    driver.columnText row.effectScope, driver.columnText row.payloadHash⟩

def identityReused : Failure :=
  .internal .idempotencyConflict "Command identity was reused by a different command or payload"

def findCommandDuplicate (identity : CommandIdentity) : Sql (Option CommandReceiptRow) := do
  let rows ← Sql.query fun tables => tables.commandReceipts.filter (·.matches identity)
  match rows with
  | [] => return none
  | [row] =>
      if row.identity driver = identity then return some row else throw identityReused
  | _ => throw identityReused

-- The loop over the tasks still to come, with the identities of those before them.
def verifyOutboxIdentitiesFrom (taskIds pairs : List JsString) : List JsValue → Sql Unit
  | [] => return ()
  | task :: tasks => do
      let pair ← lift (foreign (canonicalJson runtime.toHost
        (.ofStrings [text task "idempotencyKey", text task "effectScope"])))
      if text task "taskId" ∈ taskIds ∨ pair ∈ pairs then
        Sql.fail .idempotencyConflict "Outbox identity is duplicated inside the append batch"
      else
        let existing ← Sql.query fun tables => tables.outbox.filter fun row =>
          row.taskId = bound (text task "taskId") ∨
            row.idempotencyKey = bound (text task "idempotencyKey") ∧
              row.effectScope = bound (text task "effectScope")
        if existing ≠ [] then
          Sql.fail .idempotencyConflict
            "Outbox task or idempotency identity was reused by another command"
        else
          verifyOutboxIdentitiesFrom (text task "taskId" :: taskIds) (pair :: pairs) tasks

def verifyOutboxIdentities (batch : JsValue) : Sql Unit :=
  verifyOutboxIdentitiesFrom runtime [] [] (elements batch "outbox")

-- AUTOINCREMENT replaces the sequence number.
def eventRow (event : JsValue) (insertedBy : WorkerRequestKind) : Except Failure EventRow := do
  let payloadJson ← foreign (canonicalJson runtime.toHost (event.property (js "payload")))
  let eventJson ← foreign (canonicalJson runtime.toHost event)
  let payloadSchema := event.property (js "payloadSchema")
  return {
    sequence := 0
    eventId := bound (text event "eventId")
    aggregateType := bound (text event "aggregateType")
    aggregateId := bound (text event "aggregateId")
    aggregateVersion := natural event "aggregateVersion"
    occurredAt := bound (text event "occurredAt")
    payloadSchemaId := bound (text payloadSchema "schemaId")
    payloadSchemaVersion := bound (text payloadSchema "schemaVersion")
    payloadSchemaHash := bound (text payloadSchema "schemaHash")
    payloadHash := bound (text event "payloadHash")
    payloadJson := bound payloadJson
    eventJson := bound eventJson
    insertedBy := insertedBy }

def insertEvent (event : JsValue) (insertedBy : WorkerRequestKind) : Sql Unit := do
  let row ← lift (eventRow runtime event insertedBy)
  Sql.insert (·.insertEvent row)

def insertTask (batch task : JsValue) : Sql Unit := do
  let envelopeJson ← lift (foreign (canonicalJson runtime.toHost task))
  Sql.insert (·.insertOutbox {
    taskId := bound (text task "taskId")
    idempotencyKey := bound (text task "idempotencyKey")
    effectScope := bound (text task "effectScope")
    payloadHash := bound (text task "payloadHash")
    envelopeJson := bound envelopeJson
    status := .pending
    attempt := natural task "attempt"
    createdAt := bound (text batch "capturedAt")
    leasedUntil := none })

def insertAudit (audit : JsValue) : Sql Unit :=
  Sql.insert (·.insertAudit {
    auditId := bound (text audit "auditId")
    occurredAt := bound (text audit "occurredAt")
    action := bound (text audit "action")
    payloadHash := bound (text audit "payloadHash") })

def members (envelopes : List JsValue) (key : String) : JsValue :=
  .array (envelopes.map fun envelope => (.data, envelope.property (js key))) []

def receiptBase (batch : JsValue) (committedVersion : ℕ) : List (JsString × JsValue) :=
  [(js "schemaVersion", .string (js "1.0.0")),
    (js "transactionId", batch.property (js "transactionId")),
    (js "commandId", batch.property (js "commandId")),
    (js "aggregateType", (stream batch).property (js "aggregateType")),
    (js "aggregateId", (stream batch).property (js "aggregateId")),
    (js "committedVersion", .number (integer committedVersion)),
    (js "eventIds", members (elements batch "events") "eventId"),
    (js "outboxTaskIds", members (elements batch "outbox") "taskId"),
    (js "auditIds", members (elements batch "audit") "auditId"),
    (js "committedAt", batch.property (js "capturedAt"))]

def insertReceipt (batch receipt : JsValue) : Sql Unit := do
  let receiptJson ← lift (foreign (canonicalJson runtime.toHost receipt))
  Sql.insert (·.insertReceipt {
    commandId := bound (text batch "commandId")
    idempotencyKey := bound (text batch "idempotencyKey")
    effectScope := bound (text batch "effectScope")
    payloadHash := bound (text batch "payloadHash")
    outcomeHash := bound (text receipt "receiptHash")
    status := .committed
    receiptJson := bound receiptJson
    completedAt := bound (text batch "capturedAt") })

def receiptOf (batch : JsValue) (committedVersion : ℕ) : Except Failure JsValue := do
  let base := receiptBase batch committedVersion
  let receiptHash ← foreign (canonicalJsonSha256 runtime.toHost (.record base))
  return .record (base ++ [(js "receiptHash", .string receiptHash.text)])

-- The transaction of `commitBatch`, after its second look for a duplicate.
def appendBatch (batch : JsValue) : Sql JsValue := do
  verifyOutboxIdentities runtime batch
  let currentVersion ← currentAggregateVersion batch
  if currentVersion ≠ natural (stream batch) "expectedVersion" then
    Sql.fail .optimisticConcurrency "Aggregate expected version does not match authority storage"
  else
    Sql.prepare
    (elements batch "events").zipIdx.forM fun (event, index) => do
      lift (verifyEvent runtime event batch (currentVersion + index + 1))
      insertEvent runtime event .commit
    Sql.prepare
    (elements batch "outbox").forM (insertTask runtime batch)
    Sql.prepare
    (elements batch "audit").forM insertAudit
    let receipt ← lift (receiptOf runtime batch
      (currentVersion + (elements batch "events").length))
    insertReceipt runtime batch receipt
    return receipt

def receiptOfRow (row : CommandReceiptRow) : Except Failure JsValue :=
  parseJson runtime driver row.receiptJson "command receipt"

def commitTransaction (batch : JsValue) : Sql JsValue := do
  match ← findCommandDuplicate driver (.ofBatch batch) with
  | some row => lift (receiptOfRow runtime driver row)
  | none => appendBatch runtime batch

-- The reply of `commitBatch` when it opens no transaction.
def commitLookup (batch : JsValue) : Sql (Option JsValue) := do
  match ← findCommandDuplicate driver (.ofBatch batch) with
  | some row => some <$> lift (receiptOfRow runtime driver row)
  | none => do
      lift (verifyOutbox runtime batch)
      return none

def commitBatch (batch : JsValue) : Sql JsValue := do
  match ← commitLookup runtime driver batch with
  | some receipt => return receipt
  | none => Sql.runTransaction (commitTransaction runtime driver batch)

end Requests

end Aseos.Persistence
