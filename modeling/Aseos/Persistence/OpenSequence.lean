import Aseos.Library.TransitionSystem
import Aseos.Persistence.QuarantineDatabase

namespace Aseos.Persistence

namespace OpenSequence

-- What SQLite reads in a database: nothing, the header that the first pragma writes, or the schema.
inductive Content where
  | empty
  | header
  | migrated
  deriving DecidableEq

-- The committed events stand in the database file, or still in its write-ahead log.
structure DatabaseFile (Event : Type) where
  content : Content
  events : List Event
  logged : List Event

-- Where a worker stands between its start and the end of its process.
inductive Phase where
  | checkMarker
  | checkFile (quarantineRequired : Bool)
  | checkSize (quarantineRequired databaseExisted : Bool)
  | openFile (databaseExisted : Bool)
  | setJournalMode (databaseExisted : Bool) (file : ℕ)
  | migrate (databaseExisted : Bool) (file : ℕ)
  | verify (databaseExisted : Bool) (file : ℕ)
  | ready (file : ℕ)
  | closeFailed (databaseExisted : Bool) (file : ℕ)
  | quarantine (step : QuarantineStep)
  | ended (error : Option PersistenceErrorCode)
  deriving DecidableEq

-- The databases are numbered as they are created; `database` is the one at `databasePath`, and
-- `sidecars` the one that the side file at the path belongs to.
structure DataRoot (Worker Event : Type) extends AuthorityFiles ℕ ℕ where
  files : ℕ → DatabaseFile Event
  created : ℕ
  phase : Worker → Phase

def DataRoot.initial {Worker Event : Type} : DataRoot Worker Event where
  database := none
  sidecars _ := none
  marker := false
  quarantined := []
  quarantinedSidecars := []
  files _ := ⟨.empty, [], []⟩
  created := 0
  phase _ := .checkMarker

inductive Action (Event : Type) where
  | advance
  | commit (event : Event)
  | checkpoint
  | close
  | exit

section Steps

variable {Worker Event : Type} [DecidableEq Worker]

def DataRoot.move (s : DataRoot Worker Event) (w : Worker) (p : Phase) : DataRoot Worker Event :=
  { s with phase := Function.update s.phase w p }

def DataRoot.write (s : DataRoot Worker Event) (file : ℕ) (contents : DatabaseFile Event)
    (sidecars : Sidecar → Option ℕ) : DataRoot Worker Event :=
  { s with files := Function.update s.files file contents, sidecars := sidecars }

-- The error handler of the worker.
def failWith (quarantineRequired databaseExisted : Bool) (code : PersistenceErrorCode) : Phase :=
  if !quarantineRequired && databaseExisted && decide (code = .corruption) then
    .quarantine .findFile
  else .ended (some code)

def checkSize (s : DataRoot Worker Event) (quarantineRequired databaseExisted : Bool) : Phase :=
  if quarantineRequired then failWith quarantineRequired databaseExisted .corruption
  else if databaseExisted then
    match s.database with
    | none => failWith quarantineRequired databaseExisted .storageFailure
    | some file =>
        if (s.files file).content = .empty then
          failWith quarantineRequired databaseExisted .corruption
        else .openFile databaseExisted
  else .openFile databaseExisted

-- `new DatabaseSync(databasePath)` creates the file where there is none.
def openFile (s : DataRoot Worker Event) (w : Worker) (databaseExisted : Bool) :
    DataRoot Worker Event :=
  match s.database with
  | some file => s.move w (.setJournalMode databaseExisted file)
  | none =>
      { s.write s.created ⟨.empty, [], []⟩ s.sidecars with
        database := some s.created
        created := s.created + 1 }.move w (.setJournalMode databaseExisted s.created)

-- `PRAGMA journal_mode = WAL` writes the first page of an empty database, whose side files are new,
-- and opens the side files at the path or creates them.
def setJournalMode (s : DataRoot Worker Event) (file : ℕ) : DataRoot Worker Event :=
  if (s.files file).content = .empty then
    s.write file { s.files file with content := .header } fun _ => some file
  else s.write file (s.files file) fun sidecar => (s.sidecars sidecar).or (some file)

def applyMigration (s : DataRoot Worker Event) (file : ℕ) : DataRoot Worker Event :=
  s.write file { s.files file with content := .migrated } s.sidecars

def verifyAppliedSchema (s : DataRoot Worker Event) (databaseExisted : Bool) (file : ℕ) : Phase :=
  if (s.files file).content = .migrated then .ready file else .closeFailed databaseExisted file

def commit (s : DataRoot Worker Event) (file : ℕ) (event : Event) : DataRoot Worker Event :=
  s.write file { s.files file with logged := (s.files file).logged ++ [event] } s.sidecars

def checkpoint (s : DataRoot Worker Event) (file : ℕ) (sidecars : Sidecar → Option ℕ) :
    DataRoot Worker Event :=
  s.write file
    { s.files file with events := (s.files file).events ++ (s.files file).logged, logged := [] }
    sidecars

def Phase.after : QuarantineNext → Phase
  | .step next => .quarantine next
  | .ended error => .ended error

def quarantine (s : DataRoot Worker Event) (w : Worker) (step : QuarantineStep) :
    DataRoot Worker Event :=
  { s with toAuthorityFiles := (quarantineDatabase s.toAuthorityFiles step).1 }.move w
    (.after (quarantineDatabase s.toAuthorityFiles step).2)

-- Where a worker ends whose connection is closed; only a failed verification has an error.
def Phase.closed : Phase → Phase
  | .closeFailed databaseExisted _ => failWith false databaseExisted .migrationMismatch
  | _ => .ended none

def advance (s : DataRoot Worker Event) (w : Worker) : Option (DataRoot Worker Event) :=
  match s.phase w with
  | .checkMarker => some (s.move w (.checkFile s.marker))
  | .checkFile quarantineRequired =>
      some (s.move w (.checkSize quarantineRequired s.database.isSome))
  | .checkSize quarantineRequired databaseExisted =>
      some (s.move w (checkSize s quarantineRequired databaseExisted))
  | .openFile databaseExisted => some (openFile s w databaseExisted)
  | .setJournalMode databaseExisted file =>
      some ((setJournalMode s file).move w (.migrate databaseExisted file))
  | .migrate databaseExisted file =>
      some ((if databaseExisted then s else applyMigration s file).move w
        (.verify databaseExisted file))
  | .verify databaseExisted file => some (s.move w (verifyAppliedSchema s databaseExisted file))
  | .closeFailed databaseExisted file =>
      some (s.move w (Phase.closeFailed databaseExisted file).closed)
  | .quarantine step => some (quarantine s w step)
  | .ready _ | .ended _ => none

end Steps

def Phase.file : Phase → Option ℕ
  | .setJournalMode _ file | .migrate _ file | .verify _ file | .ready file
  | .closeFailed _ file => some file
  | _ => none

def Phase.journaled : Phase → Option ℕ
  | .migrate _ file | .verify _ file | .ready file | .closeFailed _ file => some file
  | _ => none

section Statements

variable {Worker Event : Type} [DecidableEq Worker]

-- A worker exits at any time, also because a step of its opening fails otherwise, and leaves the
-- side files; or its connection is closed as the last one and SQLite empties the log and deletes
-- them.
def next (s : DataRoot Worker Event) : Worker × Action Event → Option (DataRoot Worker Event)
  | (w, .advance) => advance s w
  | (w, .commit event) =>
      match s.phase w with
      | .ready file => some (commit s file event)
      | _ => none
  | (w, .checkpoint) =>
      match s.phase w with
      | .ready file => some (checkpoint s file s.sidecars)
      | _ => none
  | (w, .close) =>
      (s.phase w).journaled.map fun file =>
        (checkpoint s file fun _ => none).move w (s.phase w).closed
  | (w, .exit) => some (s.move w (.ended none))

def LastConnection (s : DataRoot Worker Event) (w : Worker) : Prop :=
  ∀ v ≠ w, ∀ file, (s.phase w).journaled = some file → (s.phase v).journaled ≠ some file

def Step (s : DataRoot Worker Event) (label : Worker × Action Event)
    (t : DataRoot Worker Event) : Prop :=
  next s label = some t ∧ (label.2 = .close → LastConnection s label.1)

def Phase.opens : Phase → Bool
  | .checkSize false false | .openFile _ => true
  | _ => false

-- The step of the worker takes a file from another live worker: it finds the database corrupt,
-- writes a marker for it, renames it or renames a side file of it.
def TakesFile (s : DataRoot Worker Event) (w : Worker) : Prop :=
  ∃ file, (∃ v ≠ w, (s.phase v).file = some file) ∧
    (s.database = some file ∧
      (s.phase w = .checkSize false true ∧ (s.files file).content = .empty ∨
        s.phase w = .quarantine .writeMarker ∧ s.marker = false ∨
        s.phase w = .quarantine .renameFile) ∨
    ∃ sidecar, s.sidecars sidecar = some file ∧ s.phase w = .quarantine (.renameSidecar sidecar))

-- A size check does not meet the empty file that another worker has just created, nor one that
-- another worker is going to open because it found none.
def FindsNoFreshFile (s : DataRoot Worker Event) (w : Worker) : Prop :=
  ∀ file, s.phase w = .checkSize false true → s.database = some file →
    (s.files file).content = .empty →
    ∀ v ≠ w, (s.phase v).file ≠ some file ∧ (s.phase v).opens = false

-- The loop over the side files does not find one of the database that is now at the path.
def FindsNoFreshSidecar (s : DataRoot Worker Event) (w : Worker) : Prop :=
  ∀ sidecar file, s.phase w = .quarantine (.findSidecar sidecar) →
    s.sidecars sidecar = some file → s.database ≠ some file

def CarefulStep (s : DataRoot Worker Event) (label : Worker × Action Event)
    (t : DataRoot Worker Event) : Prop :=
  Step s label t ∧
    (label.2 = .advance → FindsNoFreshFile s label.1 ∧ FindsNoFreshSidecar s label.1)

end Statements

end OpenSequence

end Aseos.Persistence
