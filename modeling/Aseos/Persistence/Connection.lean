import Aseos.Library.Execution
import Aseos.Persistence.Tables

namespace Aseos.Persistence

-- A statement that fails; some errors of SQLite also roll the open transaction back.
structure Fault where
  code : PersistenceErrorCode
  rollsBack : Bool
  deriving DecidableEq

-- What becomes of the statements of one request. BEGIN, COMMIT, ROLLBACK, the checkpoint and the
-- closing happen once at most; every other statement takes the next of `statements`.
structure Faults where
  beginImmediate : Option Fault
  commit : Option Fault
  rollback : Option Fault
  walCheckpoint : Option Fault
  close : Option Fault
  statements : List (Option Fault)

def Faults.none : Faults := ⟨.none, .none, .none, .none, .none, []⟩

-- The connection of one worker, with its two flags. `lockedElsewhere` says that another
-- connection holds the write lock of the database.
structure Database where
  committed : Tables
  transaction : Option Tables
  lockedElsewhere : Bool
  opened : Bool
  writeLockHeld : Bool
  crashTransactionArmed : Bool

structure Session where
  connection : Database
  faults : Faults

namespace Session

def advance (s : Session) : Session :=
  { s with faults := { s.faults with statements := s.faults.statements.tail } }

def inTransaction (s : Session) (transaction : Option Tables) : Session :=
  { s with connection := { s.connection with transaction := transaction } }

end Session

abbrev Sql (α : Type) := Execution Failure Session α

namespace Database

def afterFault (c : Database) (fault : Fault) : Database :=
  if fault.rollsBack then { c with transaction := none } else c

def tables (c : Database) : Tables := c.transaction.getD c.committed

-- A statement outside a transaction commits by itself.
def written (c : Database) (tables : Tables) : Database :=
  match c.transaction with
  | some _ => { c with transaction := some tables }
  | none => { c with committed := tables }

end Database

namespace Sql

open Execution

def fail {α : Type} (code : PersistenceErrorCode) (message : String) : Sql α :=
  throw (.internal code message)

def connection : Sql Database := fun s => (.ok s.connection, s)

def unavailable : Failure := .internal .closed "SQLite connection is not available"

-- `db()`
def db : Sql Unit := fun s =>
  if s.connection.opened then (.ok (), s) else throw unavailable s

def guarded {α : Type} (fault : Option Fault) (run : Sql α) : Sql α := do
  db
  match fault with
  | some fault => fun s =>
      (.error (.foreign fault.code), { s with connection := s.connection.afterFault fault })
  | none => run

def apply {α : Type} (run : Tables → Except Failure (α × Tables)) : Sql α := fun s =>
  match run s.connection.tables with
  | .ok (a, tables) => (.ok a, { s with connection := s.connection.written tables })
  | .error e => (.error e, s)

def statement {α : Type} (run : Tables → Except Failure (α × Tables)) : Sql α := fun s =>
  guarded s.faults.statements.head?.join (apply run) s.advance

def query {α : Type} (run : Tables → α) : Sql α := statement fun tables => .ok (run tables, tables)

def insert (run : Tables → Except Failure Tables) : Sql Unit :=
  statement fun tables => (run tables).map ((), ·)

-- A statement that is prepared before the loop that runs it.
def prepare : Sql Unit := query fun _ => ()

def enter : Sql Unit := fun s =>
  if s.connection.transaction.isSome then (.error (.foreign .storageFailure), s)
  else if s.connection.lockedElsewhere then (.error (.foreign .busy), s)
  else (.ok (), s.inTransaction (some s.connection.committed))

def beginImmediate : Sql Unit := fun s => guarded s.faults.beginImmediate enter s

def publish : Sql Unit := fun s =>
  match s.connection.transaction with
  | some tables => (.ok (), { s with
      connection := { s.connection with committed := tables, transaction := none } })
  | none => (.error (.foreign .storageFailure), s)

def commit : Sql Unit := fun s => guarded s.faults.commit publish s

def discard : Sql Unit := fun s =>
  match s.connection.transaction with
  | some _ => (.ok (), s.inTransaction none)
  | none => (.error (.foreign .storageFailure), s)

def rollback : Sql Unit := fun s => guarded s.faults.rollback discard s

def truncateLog : Sql Unit := fun s =>
  if s.connection.transaction.isSome then (.error (.foreign .busy), s) else (.ok (), s)

-- `PRAGMA wal_checkpoint(TRUNCATE)`; it is refused inside a transaction.
def walCheckpoint : Sql Unit := fun s => guarded s.faults.walCheckpoint truncateLog s

def disconnect : Sql Unit := fun s =>
  (.ok (), { s with connection := { s.connection with opened := false, transaction := none } })

-- `db().close(); database = undefined`
def close : Sql Unit := fun s => guarded s.faults.close disconnect s

def runTransaction {α : Type} (action : Sql α) : Sql α := do
  db
  beginImmediate
  recover (do
    let result ← action
    commit
    return result) fun error => do
      let _ ← attempt rollback
      throw error

section Rules

variable {α : Type} {s : Session}

theorem db_open (h : s.connection.opened = true) : db s = (.ok (), s) := by
  rw [db, if_pos h]

theorem db_closed (h : s.connection.opened = false) : db s = (.error unavailable, s) := by
  rw [db, if_neg (by rw [h]; decide)]
  rfl

theorem guarded_closed {fault : Option Fault} {run : Sql α} (h : s.connection.opened = false) :
    guarded fault run s = (.error unavailable, s) := by
  unfold guarded
  exact bind_of_error (db_closed h)

theorem guarded_open {fault : Option Fault} {run : Sql α} (h : s.connection.opened = true) :
    guarded fault run s =
      match fault with
      | some fault =>
          (.error (.foreign fault.code), { s with connection := s.connection.afterFault fault })
      | none => run s := by
  unfold guarded
  rw [bind_of_ok (db_open h)]
  cases fault <;> rfl

theorem apply_ok {run : Tables → Except Failure (α × Tables)} {a : α} {tables : Tables}
    (h : run s.connection.tables = .ok (a, tables)) :
    apply run s = (.ok a, { s with connection := s.connection.written tables }) := by
  rw [apply, h]

theorem apply_error {run : Tables → Except Failure (α × Tables)} {e : Failure}
    (h : run s.connection.tables = .error e) : apply run s = (.error e, s) := by
  rw [apply, h]

theorem statement_rule {run : Tables → Except Failure (α × Tables)} {P : Session → Prop}
    {Q : α → Session → Prop} {E : Failure → Session → Prop}
    (hok : ∀ s a tables, P s → run s.connection.tables = .ok (a, tables) →
      Q a { s.advance with connection := s.connection.written tables })
    (herror : ∀ s e, P s → E e s.advance)
    (hfault : ∀ s fault, P s → s.faults.statements.head?.join = some fault →
      E (.foreign fault.code) { s.advance with connection := s.connection.afterFault fault }) :
    Triple P (statement run) Q E := by
  intro s hs
  unfold statement
  cases hopen : s.connection.opened with
  | false =>
    rw [@guarded_closed _ s.advance _ _ hopen]
    exact herror s _ hs
  | true =>
    rw [@guarded_open _ s.advance _ _ hopen]
    cases hnext : s.faults.statements.head?.join with
    | some fault => exact hfault s fault hs hnext
    | none =>
      dsimp only
      cases hrun : run s.connection.tables with
      | ok result =>
        rw [@apply_ok _ s.advance _ _ _ hrun]
        exact hok s _ _ hs hrun
      | error e =>
        rw [@apply_error _ s.advance _ _ hrun]
        exact herror s e hs

end Rules

end Sql

end Aseos.Persistence
