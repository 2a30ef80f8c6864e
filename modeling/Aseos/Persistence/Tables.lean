import Aseos.Js.Utf16
import Aseos.Persistence.Protocol

namespace Aseos.Persistence

-- A TEXT value. The driver binds a string as UTF-8, so a lone surrogate becomes U+FFFD.
abbrev Text := List Char

def bound (s : JsString) : Text := s.chars

def nul : Char := Char.ofNat 0

-- `length` of SQLite, which stops at a NUL.
def sqlLength (t : Text) : ℕ := (t.takeWhile (· ≠ nul)).length

-- How the driver hands a TEXT value back; what becomes of a NUL is left open.
structure Driver where
  columnText : Text → JsString
  columnText_eq (t : Text) : nul ∉ t → columnText t = utf16Text t

inductive Failure where
  | internal (code : PersistenceErrorCode) (message : String)
  -- an error of SQLite or of canonical JSON, with the code that `serializeError` gives it
  | foreign (code : PersistenceErrorCode)
  deriving DecidableEq

def Failure.code : Failure → PersistenceErrorCode
  | internal code _ => code
  | foreign code => code

-- `insertedBy` is a history variable and no column.
structure EventRow where
  sequence : ℕ
  eventId : Text
  aggregateType : Text
  aggregateId : Text
  aggregateVersion : ℕ
  occurredAt : Text
  payloadSchemaId : Text
  payloadSchemaVersion : Text
  payloadSchemaHash : Text
  payloadHash : Text
  payloadJson : Text
  eventJson : Text
  insertedBy : WorkerRequestKind
  deriving DecidableEq

inductive CommandStatus where
  | committed
  | rejected
  deriving DecidableEq

structure CommandReceiptRow where
  commandId : Text
  idempotencyKey : Text
  effectScope : Text
  payloadHash : Text
  outcomeHash : Text
  status : CommandStatus
  receiptJson : Text
  completedAt : Text
  deriving DecidableEq

inductive OutboxStatus where
  | pending
  | dispatched
  | failed
  deriving DecidableEq

structure OutboxRow where
  taskId : Text
  idempotencyKey : Text
  effectScope : Text
  payloadHash : Text
  envelopeJson : Text
  status : OutboxStatus
  attempt : ℕ
  createdAt : Text
  leasedUntil : Option Text
  deriving DecidableEq

structure InboxRow where
  resultId : Text
  taskId : Text
  payloadHash : Text
  status : Text
  receivedAt : Text
  deriving DecidableEq

structure AuditRow where
  auditId : Text
  occurredAt : Text
  action : Text
  payloadHash : Text
  deriving DecidableEq

structure CheckpointRow where
  projectionName : Text
  projectionVersion : Text
  sourceSequence : ℕ
  rebuiltFromSequence : Option ℕ
  updatedAt : Text
  deriving DecidableEq

-- The rows of each table in the order of their insertion; `sequence` is the last one given out.
structure Tables where
  sequence : ℕ
  eventJournal : List EventRow
  commandReceipts : List CommandReceiptRow
  outbox : List OutboxRow
  inbox : List InboxRow
  auditFacts : List AuditRow
  projectionCheckpoints : List CheckpointRow
  deriving DecidableEq

def EventRow.inStream (row : EventRow) (aggregateType aggregateId : Text) : Prop :=
  row.aggregateType = aggregateType ∧ row.aggregateId = aggregateId

instance (row : EventRow) (aggregateType aggregateId : Text) :
    Decidable (row.inStream aggregateType aggregateId) :=
  inferInstanceAs (Decidable (_ ∧ _))

namespace Tables

def empty : Tables := ⟨0, [], [], [], [], [], []⟩

-- The CHECK and UNIQUE constraints that a new row of each table has to meet.

def admitsEvent (tables : Tables) (row : EventRow) : Prop :=
  1 ≤ row.aggregateVersion ∧ sqlLength row.payloadSchemaHash = 64 ∧ sqlLength row.payloadHash = 64 ∧
    ∀ r ∈ tables.eventJournal, r.eventId ≠ row.eventId ∧
      ¬(r.inStream row.aggregateType row.aggregateId ∧ r.aggregateVersion = row.aggregateVersion)

def admitsReceipt (tables : Tables) (row : CommandReceiptRow) : Prop :=
  sqlLength row.payloadHash = 64 ∧ sqlLength row.outcomeHash = 64 ∧
    ∀ r ∈ tables.commandReceipts, r.commandId ≠ row.commandId ∧
      ¬(r.idempotencyKey = row.idempotencyKey ∧ r.effectScope = row.effectScope)

def admitsOutbox (tables : Tables) (row : OutboxRow) : Prop :=
  sqlLength row.payloadHash = 64 ∧
    ∀ r ∈ tables.outbox, r.taskId ≠ row.taskId ∧
      ¬(r.idempotencyKey = row.idempotencyKey ∧ r.effectScope = row.effectScope)

def inboxStatuses : List Text :=
  [bound (js "ACCEPTED"), bound (js "DUPLICATE"), bound (js "REJECTED")]

def admitsInbox (tables : Tables) (row : InboxRow) : Prop :=
  sqlLength row.payloadHash = 64 ∧ row.status ∈ inboxStatuses ∧
    ∀ r ∈ tables.inbox, r.resultId ≠ row.resultId ∧ r.taskId ≠ row.taskId

def admitsAudit (tables : Tables) (row : AuditRow) : Prop :=
  sqlLength row.payloadHash = 64 ∧ ∀ r ∈ tables.auditFacts, r.auditId ≠ row.auditId

section Decidability

variable (tables : Tables)

instance (row : EventRow) : Decidable (tables.admitsEvent row) :=
  inferInstanceAs (Decidable (_ ∧ _))

instance (row : CommandReceiptRow) : Decidable (tables.admitsReceipt row) :=
  inferInstanceAs (Decidable (_ ∧ _))

instance (row : OutboxRow) : Decidable (tables.admitsOutbox row) :=
  inferInstanceAs (Decidable (_ ∧ _))

instance (row : InboxRow) : Decidable (tables.admitsInbox row) :=
  inferInstanceAs (Decidable (_ ∧ _))

instance (row : AuditRow) : Decidable (tables.admitsAudit row) :=
  inferInstanceAs (Decidable (_ ∧ _))

end Decidability

section Inserts

variable (tables : Tables)

def constraintFailed {α : Type} : Except Failure α := .error (.foreign .storageFailure)

-- AUTOINCREMENT gives the row its sequence number.
def insertEvent (row : EventRow) : Except Failure Tables :=
  if tables.admitsEvent row then
    .ok { tables with
      sequence := tables.sequence + 1
      eventJournal := tables.eventJournal ++ [{ row with sequence := tables.sequence + 1 }] }
  else constraintFailed

def insertReceipt (row : CommandReceiptRow) : Except Failure Tables :=
  if tables.admitsReceipt row then
    .ok { tables with commandReceipts := tables.commandReceipts ++ [row] }
  else constraintFailed

def insertOutbox (row : OutboxRow) : Except Failure Tables :=
  if tables.admitsOutbox row then .ok { tables with outbox := tables.outbox ++ [row] }
  else constraintFailed

def insertInbox (row : InboxRow) : Except Failure Tables :=
  if tables.admitsInbox row then .ok { tables with inbox := tables.inbox ++ [row] }
  else constraintFailed

def insertAudit (row : AuditRow) : Except Failure Tables :=
  if tables.admitsAudit row then .ok { tables with auditFacts := tables.auditFacts ++ [row] }
  else constraintFailed

-- `INSERT ... ON CONFLICT(projection_name) DO UPDATE`
def upsertCheckpoint (row : CheckpointRow) : Tables :=
  { tables with
    projectionCheckpoints :=
      if tables.projectionCheckpoints.any (·.projectionName = row.projectionName) then
        tables.projectionCheckpoints.map fun r =>
          if r.projectionName = row.projectionName then row else r
      else tables.projectionCheckpoints ++ [row] }

end Inserts

section Inserted

variable {tables tables' : Tables}

theorem checked_eq_ok {p : Prop} [Decidable p] {a b : Tables} :
    (if p then .ok a else constraintFailed) = Except.ok b ↔ p ∧ b = a := by
  by_cases h : p
  · rw [if_pos h, Except.ok.injEq]
    exact ⟨fun heq => ⟨h, heq.symm⟩, fun heq => heq.2.symm⟩
  · rw [if_neg h]
    exact ⟨nofun, fun heq => absurd heq.1 h⟩

theorem insertEvent_eq_ok {row : EventRow} :
    tables.insertEvent row = .ok tables' ↔ tables.admitsEvent row ∧ tables' = { tables with
      sequence := tables.sequence + 1
      eventJournal := tables.eventJournal ++ [{ row with sequence := tables.sequence + 1 }] } :=
  checked_eq_ok

theorem insertReceipt_eq_ok {row : CommandReceiptRow} :
    tables.insertReceipt row = .ok tables' ↔ tables.admitsReceipt row ∧
      tables' = { tables with commandReceipts := tables.commandReceipts ++ [row] } :=
  checked_eq_ok

theorem insertOutbox_eq_ok {row : OutboxRow} :
    tables.insertOutbox row = .ok tables' ↔
      tables.admitsOutbox row ∧ tables' = { tables with outbox := tables.outbox ++ [row] } :=
  checked_eq_ok

theorem insertInbox_eq_ok {row : InboxRow} :
    tables.insertInbox row = .ok tables' ↔
      tables.admitsInbox row ∧ tables' = { tables with inbox := tables.inbox ++ [row] } :=
  checked_eq_ok

theorem insertAudit_eq_ok {row : AuditRow} :
    tables.insertAudit row = .ok tables' ↔ tables.admitsAudit row ∧
      tables' = { tables with auditFacts := tables.auditFacts ++ [row] } :=
  checked_eq_ok

end Inserted


def outsideCommit (tables : Tables) : List InboxRow × List CheckpointRow :=
  (tables.inbox, tables.projectionCheckpoints)

def outsideInbox (tables : Tables) : Tables := { tables with inbox := [] }

def outsideCheckpoints (tables : Tables) : Tables := { tables with projectionCheckpoints := [] }

-- `MAX(aggregate_version)`, or 0 for a stream without events.
def maxVersion (tables : Tables) (aggregateType aggregateId : Text) : ℕ :=
  ((tables.eventJournal.filter (·.inStream aggregateType aggregateId)).map
    (·.aggregateVersion)).foldl max 0

end Tables

end Aseos.Persistence
