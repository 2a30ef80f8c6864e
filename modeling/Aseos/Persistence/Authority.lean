import Aseos.Persistence.Transactions
import Mathlib.Logic.Function.Basic

namespace Aseos.Persistence

open Execution TransitionSystem

-- A request that has read what was committed and has its transaction still to come; in between,
-- other workers may commit.
inductive Pending where
  | commit (batch : JsValue)
  | armCrash (event : JsValue)

inductive Phase where
  | replied (value : JsValue)
  | waits (pending : Pending)

section Phases

variable (runtime : JsonRuntime) (driver : Driver) (host : WorkerHost)

-- `handle` up to the reads that go before the transaction of the request.
def handleReads (request : WorkerRequest) : Sql Phase := do
  lift (asRecord request.payload request.kind.name)
  match request.kind with
  | .commit => do
      match ← commitLookup runtime driver request.payload with
      | some receipt => return .replied receipt
      | none => return .waits (.commit request.payload)
  | .armCrash => do
      let event ← armCrashChecks runtime request.payload
      return .waits (.armCrash event)
  | _ => do
      let value ← handle runtime driver host request
      return .replied value

def Pending.finish : Pending → Sql JsValue
  | .commit batch => Sql.runTransaction (commitTransaction runtime driver batch)
  | .armCrash event => armCrashTransaction runtime event

def Phase.finish : Phase → Sql JsValue
  | .replied value => pure value
  | .waits pending => pending.finish runtime driver

theorem handle_eq_parts (request : WorkerRequest) :
    handle runtime driver host request =
      handleReads runtime driver host request >>= Phase.finish runtime driver := by
  obtain ⟨kind, payload⟩ := request
  rw [handleReads, bind_assoc]
  cases kind with
  | commit =>
    refine congrArg _ (funext fun _ => ?_)
    dsimp only
    rw [bind_assoc]
    refine congrArg _ (funext fun receipt => ?_)
    cases receipt with
    | some receipt => rfl
    | none => rfl
  | armCrash =>
    refine congrArg _ (funext fun _ => ?_)
    dsimp only
    rw [bind_assoc]
    rfl
  | _ =>
    dsimp only
    rw [handle, bind_assoc]
    simp only [Phase.finish, pure_bind, bind_pure]
    exact (lift_twice _ _).symm

end Phases

structure WorkerState where
  transaction : Option Tables
  opened : Bool
  writeLockHeld : Bool
  crashTransactionArmed : Bool
  pending : Option Pending

def WorkerState.started : WorkerState := ⟨none, true, false, false, none⟩

def WorkerState.ended : WorkerState := ⟨none, false, false, false, none⟩

structure Authority (ι : Type) where
  committed : Tables
  workers : ι → WorkerState

inductive AuthorityEvent (ι : Type) where
  | start (worker : ι)
  | request (worker : ι) (request : WorkerRequest) (faults : Faults) (result : Except Failure Phase)
  | finish (worker : ι) (pending : Pending) (faults : Faults) (result : Except Failure JsValue)
  | terminate (worker : ι)

namespace Authority

variable {ι : Type}

def LockedElsewhere (a : Authority ι) (worker : ι) : Prop :=
  ∃ other, other ≠ worker ∧ (a.workers other).transaction.isSome = true

def database (a : Authority ι) (worker : ι) (lockedElsewhere : Bool) : Database where
  committed := a.committed
  transaction := (a.workers worker).transaction
  lockedElsewhere := lockedElsewhere
  opened := (a.workers worker).opened
  writeLockHeld := (a.workers worker).writeLockHeld
  crashTransactionArmed := (a.workers worker).crashTransactionArmed

structure Fresh (a : Authority ι) : Prop where
  committed : a.committed = .empty
  workers : ∀ worker, a.workers worker = .ended

def Idle (a : Authority ι) : Prop := ∀ worker, (a.workers worker).transaction = none

theorem Fresh.idle {a : Authority ι} (h : Fresh a) : a.Idle :=
  fun worker => by rw [h.workers worker, WorkerState.ended]

theorem Idle.free {a : Authority ι} (h : a.Idle) {worker : ι} {locked : Bool}
    (hopened : (a.workers worker).opened = true)
    (hlocked : locked = true ↔ a.LockedElsewhere worker) : (a.database worker locked).Free where
  opened := hopened
  transaction := h worker
  unlocked := Bool.eq_false_iff.mpr fun hlock => by
    obtain ⟨other, -, hother⟩ := hlocked.mp hlock
    rw [h other] at hother
    cases hother

variable [DecidableEq ι]

def set (a : Authority ι) (worker : ι) (state : WorkerState) : Authority ι :=
  { a with workers := Function.update a.workers worker state }

def after (a : Authority ι) (worker : ι) (c : Database) (pending : Option Pending) :
    Authority ι where
  committed := c.committed
  workers := Function.update a.workers worker
    ⟨c.transaction, c.opened, c.writeLockHeld, c.crashTransactionArmed, pending⟩

end Authority

def pendingOf : Except Failure Phase → Option Pending
  | .ok (.waits pending) => some pending
  | _ => none

section Steps

variable (runtime : JsonRuntime) (driver : Driver) (host : WorkerHost) {ι : Type} [DecidableEq ι]

-- The end of a process drops its transaction and whatever request it had begun.
inductive Step : Authority ι → AuthorityEvent ι → Authority ι → Prop
  | start {a worker} :
      (a.workers worker).opened = false → Step a (.start worker) (a.set worker .started)
  | request {a worker locked request faults result s} :
      (a.workers worker).opened = true → (a.workers worker).pending = none →
      (locked = true ↔ a.LockedElsewhere worker) →
      handleReads runtime driver host request ⟨a.database worker locked, faults⟩ = (result, s) →
      Step a (.request worker request faults result)
        (a.after worker s.connection (pendingOf result))
  | finish {a worker locked pending faults result s} :
      (a.workers worker).pending = some pending → (locked = true ↔ a.LockedElsewhere worker) →
      pending.finish runtime driver ⟨a.database worker locked, faults⟩ = (result, s) →
      Step a (.finish worker pending faults result) (a.after worker s.connection none)
  | terminate {a worker} : Step a (.terminate worker) (a.set worker .ended)

def AuthorityEvent.transaction : AuthorityEvent ι → Option (Sql JsValue × JsValue)
  | .request _ ⟨.recordInbox, record⟩ _ (.ok (.replied reply)) =>
      some (inboxTransaction driver record, reply)
  | .request _ ⟨.saveCheckpoint, checkpoint⟩ _ (.ok (.replied reply)) =>
      some (checkpointTransaction checkpoint, reply)
  | .finish _ (.commit batch) _ (.ok reply) =>
      some (commitTransaction runtime driver batch, reply)
  | _ => none

variable {runtime driver host}

def Publishes (action : Sql JsValue) (reply : JsValue) (before after : Tables) : Prop :=
  ∃ c : Database, c.opened = true ∧ action (working c before) = (.ok reply, working c after)

theorem runTransaction_publishes {β : Type} {kept : Tables → β} {action : Sql JsValue}
    (h : Statements kept action) {s t : Session}
    {reply : JsValue} (hok : Sql.runTransaction action s = (.ok reply, t)) :
    Publishes action reply s.connection.committed t.connection.committed := by
  obtain ⟨hfree, tables, haction, hconnection⟩ := runTransaction_eq_ok h hok
  rw [hconnection]
  exact ⟨s.connection, hfree.opened, haction⟩

theorem handleReads_steady {kind : WorkerRequestKind} (payload : JsValue)
    (hinbox : kind ≠ .recordInbox) (hcheckpoint : kind ≠ .saveCheckpoint) :
    Steady (handleReads runtime driver host ⟨kind, payload⟩) := by
  have hlift : Steady (lift (asRecord payload kind.name) : Sql Unit) := (Reading.lift _).steady
  have hplain {x : Sql JsValue} (hx : Steady x) : Steady (do
      let value ← (do
        lift (asRecord payload kind.name)
        x)
      return Phase.replied value : Sql Phase) :=
    (hlift.bind fun _ => hx).bind fun _ _ => rfl
  refine hlift.bind fun _ => ?_
  cases kind with
  | recordInbox => exact absurd rfl hinbox
  | saveCheckpoint => exact absurd rfl hcheckpoint
  | commit =>
    refine (commitLookup_reading runtime driver payload).steady.bind fun receipt => ?_
    cases receipt with
    | some receipt => exact fun _ => rfl
    | none => exact fun _ => rfl
  | armCrash => exact (armCrashChecks_reading runtime payload).steady.bind fun _ _ => rfl
  | backup => exact hplain (backupDatabase_reading host payload).steady
  | close => exact hplain closeDatabase_steady
  | getCommand => exact hplain (getCommand_reading driver payload).steady
  | lookupCommandReceipt =>
    exact hplain (lookupCommandReceipt_reading runtime driver payload).steady
  | health => exact hplain (health_reading host).steady
  | holdLock => exact hplain holdLock_steady
  | listOutbox => exact hplain (listOutbox_reading driver).steady
  | readEvents => exact hplain (readEvents_reading runtime driver payload).steady
  | recover => exact hplain (recover_reading host).steady
  | releaseLock => exact hplain releaseLock_steady
  | security => exact hplain (securityQualification_reading host).steady
  | stateManifest => exact hplain (stateSchemaManifest_reading host).steady

theorem handleReads_transaction {kind : WorkerRequestKind} {payload : JsValue}
    {β : Type} {kept : Tables → β} {action : Sql JsValue} (h : Statements kept action)
    (hhandle : handleReads runtime driver host ⟨kind, payload⟩ = (do
      lift (asRecord payload kind.name)
      let value ← (do
        lift (asRecord payload kind.name)
        Sql.runTransaction action)
      return Phase.replied value : Sql Phase)) {s t : Session} {result : Except Failure Phase}
    (hresult : handleReads runtime driver host ⟨kind, payload⟩ s = (result, t)) :
    (∃ reply, result = .ok (.replied reply) ∧
        Publishes action reply s.connection.committed t.connection.committed) ∨
      (∃ e, result = .error e) ∧ t.connection.committed = s.connection.committed := by
  rw [hhandle] at hresult
  have hlift : Steady (lift (asRecord payload kind.name) : Sql Unit) := (Reading.lift _).steady
  cases result with
  | ok phase =>
    obtain ⟨_, u, hrecord, hresult⟩ := bind_eq_ok.mp hresult
    obtain ⟨reply, v, hrun, hreturn⟩ := bind_eq_ok.mp hresult
    obtain ⟨hphase, rfl⟩ := Prod.mk.inj hreturn
    obtain ⟨_, w, hagain, hrun⟩ := bind_eq_ok.mp hrun
    refine .inl ⟨reply, hphase.symm, ?_⟩
    rw [← hlift.eq hrecord, ← hlift.eq hagain]
    exact runTransaction_publishes h hrun
  | error e =>
    refine .inr ⟨⟨e, rfl⟩, ?_⟩
    obtain hrecord | ⟨_, u, hrecord, hresult⟩ := bind_eq_error.mp hresult
    · exact hlift.eq hrecord
    rw [← hlift.eq hrecord]
    obtain hrun | ⟨_, v, -, hreturn⟩ := bind_eq_error.mp hresult
    · obtain hagain | ⟨_, w, hagain, hrun⟩ := bind_eq_error.mp hrun
      · exact hlift.eq hagain
      · exact (runTransaction_failed h hrun).trans (hlift.eq hagain)
    · cases hreturn

variable (runtime driver) in
def Committed (event : AuthorityEvent ι) (before after : Tables) : Prop :=
  match event.transaction runtime driver with
  | some (action, reply) => Publishes action reply before after
  | none => after = before

omit [DecidableEq ι] in
theorem committed_request {worker : ι} {request : WorkerRequest} {faults : Faults}
    {result : Except Failure Phase} {s t : Session}
    (h : handleReads runtime driver host request s = (result, t)) :
    Committed runtime driver (.request worker request faults result) s.connection.committed
      t.connection.committed := by
  obtain ⟨kind, payload⟩ := request
  cases kind with
  | recordInbox =>
    obtain h | h := handleReads_transaction (inboxTransaction_statements driver payload) rfl h
    · obtain ⟨reply, rfl, hpublishes⟩ := h
      exact hpublishes
    · obtain ⟨⟨e, rfl⟩, hsame⟩ := h
      exact hsame
  | saveCheckpoint =>
    obtain h | h := handleReads_transaction (checkpointTransaction_statements payload) rfl h
    · obtain ⟨reply, rfl, hpublishes⟩ := h
      exact hpublishes
    · obtain ⟨⟨e, rfl⟩, hsame⟩ := h
      exact hsame
  | _ => exact (handleReads_steady payload (by decide) (by decide)).eq h

omit [DecidableEq ι] in
theorem committed_cases {event : AuthorityEvent ι} {before after : Tables}
    (h : Committed runtime driver event before after) :
    event.transaction runtime driver = none ∧ after = before ∨
      (∃ worker record faults reply,
        event = .request worker ⟨.recordInbox, record⟩ faults (.ok (.replied reply)) ∧
          Publishes (inboxTransaction driver record) reply before after) ∨
      (∃ worker checkpoint faults reply,
        event = .request worker ⟨.saveCheckpoint, checkpoint⟩ faults (.ok (.replied reply)) ∧
          Publishes (checkpointTransaction checkpoint) reply before after) ∨
      ∃ worker batch faults reply, event = .finish worker (.commit batch) faults (.ok reply) ∧
        Publishes (commitTransaction runtime driver batch) reply before after := by
  unfold Committed AuthorityEvent.transaction at h
  split at h
  · rename_i hevent
    split at hevent
    · obtain ⟨rfl, rfl⟩ := Prod.mk.inj (Option.some.inj hevent)
      exact .inr (.inl ⟨_, _, _, _, rfl, h⟩)
    · obtain ⟨rfl, rfl⟩ := Prod.mk.inj (Option.some.inj hevent)
      exact .inr (.inr (.inl ⟨_, _, _, _, rfl, h⟩))
    · obtain ⟨rfl, rfl⟩ := Prod.mk.inj (Option.some.inj hevent)
      exact .inr (.inr (.inr ⟨_, _, _, _, rfl, h⟩))
    · cases hevent
  · rename_i hevent
    exact .inl ⟨hevent, h⟩

theorem Publishes.keeps {β : Type} {kept : Tables → β} {action : Sql JsValue} {reply : JsValue}
    {before after : Tables} (h : Publishes action reply before after)
    (hstatements : Statements kept action) : kept after = kept before := by
  obtain ⟨c, -, haction⟩ := h
  exact hstatements.keeps haction

theorem Step.committed {a a' : Authority ι} {event : AuthorityEvent ι}
    (h : Step runtime driver host a event a') :
    Committed runtime driver event a.committed a'.committed := by
  cases h with
  | start => exact rfl
  | terminate => exact rfl
  | request _ _ _ hresult => exact committed_request hresult
  | @finish worker locked pending faults result s _ _ hresult =>
    cases pending with
    | commit batch =>
      cases result with
      | ok reply =>
        exact runTransaction_publishes (commitTransaction_statements runtime driver batch) hresult
      | error e =>
        exact runTransaction_failed (commitTransaction_statements runtime driver batch) hresult
    | armCrash event => exact (armCrashTransaction_steady runtime event).eq hresult

end Steps

section Samples

def noAuthority : Authority Unit := ⟨.empty, fun _ => .ended⟩

def openAuthority : Authority Unit := noAuthority.set () .started

theorem openAuthority_run :
    Run (Step sampleRuntime sampleDriver sampleHost) noAuthority [.start ()] openAuthority :=
  (Run.nil noAuthority).snoc (.start rfl)

theorem unlocked_alone (a : Authority Unit) : false = true ↔ a.LockedElsewhere () :=
  iff_of_false nofun fun ⟨_, hother, _⟩ => hother rfl

end Samples

end Aseos.Persistence
