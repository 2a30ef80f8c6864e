import Aseos.Library.TransitionSystem
import Aseos.Persistence.Worker

namespace Aseos.Persistence

open Execution TransitionSystem

namespace Faults

def rest (faults : Faults) : Faults := { faults with statements := [] }

def Keep (faults : Faults) : Prop :=
  ∀ fault, some fault ∈ faults.statements → fault.rollsBack = false

end Faults

section Sessions

variable {c : Database} {faults : Faults} {α β : Type}

structure At (c : Database) (faults : Faults) (s : Session) : Prop where
  connection : s.connection = c
  rest : s.faults.rest = faults.rest
  statements : ∀ fault ∈ s.faults.statements, fault ∈ faults.statements

def Inside (c : Database) (faults : Faults) (s : Session) : Prop :=
  ∃ tables, At { c with transaction := some tables } faults s

def Failed (c : Database) (faults : Faults) (s : Session) : Prop :=
  ∃ transaction, At { c with transaction := transaction } faults s

def Undisturbed (c : Database) (faults : Faults) : Prop := c.transaction = none ∨ faults.Keep

def Harmless (x : Sql α) : Prop :=
  ∀ c faults, Undisturbed c faults →
    Triple (At c faults) x (fun _ => At c faults) (fun _ => At c faults)

def Contained (x : Sql α) : Prop :=
  ∀ c faults, Triple (Inside c faults) x (fun _ => Inside c faults) (fun _ => Failed c faults)

theorem At.advance {s : Session} (h : At c faults s) :
    At c faults s.advance :=
  ⟨h.connection, h.rest, fun fault hfault => h.statements fault (List.mem_of_mem_tail hfault)⟩

theorem At.next {s : Session} (h : At c faults s) {fault : Fault}
    (hfault : s.faults.statements.head?.join = some fault) : some fault ∈ faults.statements :=
  h.statements _ (List.mem_of_mem_head? (Option.join_eq_some_iff.mp hfault))

theorem Inside.failed {s : Session} (h : Inside c faults s) : Failed c faults s :=
  h.imp' some fun _ => id

theorem At.written {s : Session} (h : At c faults s) (tables : Tables) :
    At (c.written tables) faults { s.advance with connection := s.connection.written tables } :=
  ⟨congrArg (Database.written · tables) h.connection, h.advance.rest, h.advance.statements⟩

theorem At.afterFault {s : Session} (h : At c faults s) (fault : Fault) :
    At (c.afterFault fault) faults
      { s.advance with connection := s.connection.afterFault fault } :=
  ⟨congrArg (Database.afterFault · fault) h.connection, h.advance.rest, h.advance.statements⟩

theorem Database.written_tables (c : Database) : c.written c.tables = c := by
  obtain ⟨committed, transaction, lockedElsewhere, opened, held, armed⟩ := c
  cases transaction <;> rfl

theorem Database.afterFault_eq {fault : Fault}
    (h : c.transaction = none ∨ fault.rollsBack = false) : c.afterFault fault = c := by
  rw [Database.afterFault]
  obtain hnone | hkeep := h
  · split
    · rw [← hnone]
    · rfl
  · rw [if_neg (by rw [hkeep]; decide)]

theorem Sql.statement_harmless {run : Tables → Except Failure (α × Tables)}
    (hrun : ∀ tables a tables', run tables = .ok (a, tables') → tables' = tables) :
    Harmless (Sql.statement run) := by
  intro c faults hkeep
  refine Sql.statement_rule ?_ (fun s e hs => hs.advance) ?_
  · rintro s a tables hs hok
    have hsame : c.written tables = c := by
      rw [hrun _ _ _ hok, hs.connection]
      exact c.written_tables
    have hwritten := hs.written tables
    rw [hsame] at hwritten
    exact hwritten
  · rintro s fault hs hnext
    have hfault := hs.afterFault fault
    rw [Database.afterFault_eq (hkeep.imp_right fun h => h fault (hs.next hnext))] at hfault
    exact hfault

theorem Sql.statement_contained (run : Tables → Except Failure (α × Tables)) :
    Contained (Sql.statement run) := by
  intro c faults
  refine Sql.statement_rule ?_ ?_ ?_
  · rintro s a tables ⟨_, hs⟩ -
    exact ⟨tables, hs.written tables⟩
  · rintro s e ⟨tables, hs⟩
    exact ⟨some tables, hs.advance⟩
  · rintro s fault ⟨tables, hs⟩ -
    have hfault := hs.afterFault fault
    rw [Database.afterFault] at hfault
    split at hfault
    · exact ⟨none, hfault⟩
    · exact ⟨some tables, hfault⟩

inductive Reading : {α : Type} → Sql α → Prop
  | pure {α : Type} (a : α) : Reading (Pure.pure a)
  | lift {α : Type} (x : Except Failure α) : Reading (Execution.lift x)
  | throw {α : Type} (e : Failure) : Reading (Execution.throw e : Sql α)
  | connection : Reading Sql.connection
  | db : Reading Sql.db
  | statement {α : Type} {run : Tables → Except Failure (α × Tables)} :
      (∀ tables a tables', run tables = .ok (a, tables') → tables' = tables) →
      Reading (Sql.statement run)
  | bind {α β : Type} {x : Sql α} {f : α → Sql β} :
      Reading x → (∀ a, Reading (f a)) → Reading (x >>= f)
  | attempt {α : Type} {x : Sql α} : Reading x → Reading (Execution.attempt x)

theorem Reading.query (run : Tables → α) : Reading (Sql.query run) :=
  .statement fun _ _ _ h => (Prod.mk.inj (Except.ok.inj h)).2.symm

theorem Reading.ite {p : Prop} [Decidable p] {x y : Sql α} (hx : Reading x) (hy : Reading y) :
    Reading (if p then x else y) := by
  split
  · exact hx
  · exact hy

theorem Reading.harmless {x : Sql α} (h : Reading x) : Harmless x := by
  induction h with
  | pure a => exact fun _ _ _ => .pure fun _ hs => hs
  | lift x => exact fun _ _ _ => .lift (fun _ _ _ hs => hs) fun _ _ hs => hs
  | throw e => exact fun _ _ _ => .throw fun _ hs => hs
  | connection => exact fun _ _ _ _ hs => hs
  | db =>
    intro c faults _ s hs
    cases hopen : s.connection.opened with
    | false =>
      rw [Sql.db_closed hopen]
      exact hs
    | true =>
      rw [Sql.db_open hopen]
      exact hs
  | statement hrun => exact Sql.statement_harmless hrun
  | bind _ _ ihx ihf => exact fun c faults hkeep =>
      (ihx c faults hkeep).bind fun a => ihf a c faults hkeep
  | attempt _ ih => exact fun c faults hkeep =>
      (ih c faults hkeep).attempt (fun _ _ hs => hs) fun _ _ hs => hs

inductive Statements {β : Type} (kept : Tables → β) : {α : Type} → Sql α → Prop
  | pure {α : Type} (a : α) : Statements kept (Pure.pure a)
  | lift {α : Type} (x : Except Failure α) : Statements kept (Execution.lift x)
  | throw {α : Type} (e : Failure) : Statements kept (Execution.throw e : Sql α)
  | statement {α : Type} {run : Tables → Except Failure (α × Tables)} :
      (∀ tables a tables', run tables = .ok (a, tables') → kept tables' = kept tables) →
      Statements kept (Sql.statement run)
  | bind {α γ : Type} {x : Sql α} {f : α → Sql γ} :
      Statements kept x → (∀ a, Statements kept (f a)) → Statements kept (x >>= f)

section Statements

variable {β : Type} {kept : Tables → β}

theorem Statements.query (run : Tables → α) : Statements kept (Sql.query run) :=
  .statement fun _ _ _ h => congrArg kept (Prod.mk.inj (Except.ok.inj h)).2.symm

theorem Statements.insert {run : Tables → Except Failure Tables}
    (h : ∀ tables tables', run tables = .ok tables' → kept tables' = kept tables) :
    Statements kept (Sql.insert run) := by
  refine .statement fun tables _ tables' hrun => ?_
  cases hresult : run tables with
  | error e =>
    rw [hresult] at hrun
    cases hrun
  | ok result =>
    rw [hresult] at hrun
    obtain rfl := (Prod.mk.inj (Except.ok.inj hrun)).2
    exact h tables _ hresult

theorem Statements.ite {p : Prop} [Decidable p] {x y : Sql α} (hx : Statements kept x)
    (hy : Statements kept y) : Statements kept (if p then x else y) := by
  split
  · exact hx
  · exact hy

theorem Statements.forM {γ : Type} {f : γ → Sql Unit} {l : List γ}
    (h : ∀ a, Statements kept (f a)) : Statements kept (l.forM f) := by
  induction l with
  | nil => exact .pure ()
  | cons a l ih => exact (h a).bind fun _ => ih

theorem Statements.contained {x : Sql α} (h : Statements kept x) : Contained x := by
  induction h with
  | pure a => exact fun _ _ => .pure fun _ hs => hs
  | lift x => exact fun _ _ => .lift (fun _ _ _ hs => hs) fun _ _ hs => hs.failed
  | throw e => exact fun _ _ => .throw fun _ hs => hs.failed
  | statement => exact Sql.statement_contained _
  | bind _ _ ihx ihf => exact fun c faults => (ihx c faults).bind fun a => ihf a c faults

end Statements

end Sessions

section Reading

variable (runtime : JsonRuntime) (driver : Driver) (host : WorkerHost)

theorem currentAggregateVersion_reading (batch : JsValue) :
    Reading (currentAggregateVersion batch) :=
  (Reading.query _).bind fun _ => .lift _

theorem findCommandDuplicate_reading (identity : CommandIdentity) :
    Reading (findCommandDuplicate driver identity) := by
  refine (Reading.query _).bind fun rows => ?_
  split
  · exact .pure _
  · exact .ite (.pure _) (.throw _)
  · exact .throw _

theorem commitLookup_reading (batch : JsValue) :
    Reading (commitLookup runtime driver batch) := by
  refine (findCommandDuplicate_reading driver _).bind fun duplicate => ?_
  cases duplicate with
  | some row => exact (Reading.lift _).bind fun _ => .pure _
  | none => exact (Reading.lift _).bind fun _ => .pure _

theorem getCommand_reading (payload : JsValue) : Reading (getCommand driver payload) :=
  (Reading.lift _).bind fun _ => (Reading.query _).bind fun _ => .pure _

theorem lookupCommandReceipt_reading (payload : JsValue) :
    Reading (lookupCommandReceipt runtime driver payload) := by
  refine (Reading.lift _).bind fun _ => (Reading.lift _).bind fun _ =>
    (Reading.lift _).bind fun _ => (Reading.lift _).bind fun _ => ?_
  refine (findCommandDuplicate_reading driver _).bind fun duplicate => ?_
  cases duplicate with
  | some row => exact .lift _
  | none => exact .pure _

theorem listOutbox_reading : Reading (listOutbox driver) :=
  (Reading.query _).bind fun _ => .pure _

theorem readEvents_reading (payload : JsValue) : Reading (readEvents runtime driver payload) :=
  (Reading.lift _).bind fun _ => (Reading.lift _).bind fun _ => (Reading.lift _).bind fun _ =>
    (Reading.query _).bind fun _ => (Reading.lift _).bind fun _ => .pure _

theorem quickCheck_reading : Reading (quickCheck host) := by
  refine (Reading.query _).bind fun rows => ?_
  split
  · exact .ite (.pure _) (.throw _)
  · exact .throw _

theorem health_reading : Reading (health host) := by
  refine (Reading.query _).bind fun _ => (Reading.query _).bind fun _ =>
    (Reading.query _).bind fun _ => (Reading.query _).bind fun _ =>
    (Reading.query _).bind fun _ => (Reading.query _).bind fun _ => ?_
  exact .ite (.throw _) ((quickCheck_reading host).bind fun _ => .pure _)

theorem count_reading (rows : Tables → ℕ) (table : String) : Reading (count rows table) :=
  (Reading.query _).bind fun _ => (Reading.lift _).bind fun _ => .pure _

theorem recover_reading : Reading (recover host) :=
  (quickCheck_reading host).bind fun _ => (count_reading _ _).bind fun _ =>
    (count_reading _ _).bind fun _ => (count_reading _ _).bind fun _ =>
    (count_reading _ _).bind fun _ => (count_reading _ _).bind fun _ =>
    (count_reading _ _).bind fun _ => .pure _

theorem stateSchemaManifest_reading : Reading (stateSchemaManifest host) := by
  unfold stateSchemaManifest
  split
  · exact .throw _
  · exact (Reading.query _).bind fun _ => .pure _

theorem backupDatabase_reading (payload : JsValue) : Reading (backupDatabase host payload) :=
  (Reading.lift _).bind fun _ => .ite (.throw _) <| (Reading.lift _).bind fun _ =>
    (Reading.query _).bind fun _ => .lift _

theorem denied_reading (isDenied : Bool) : Reading (denied isDenied) := by
  refine (Reading.statement ?_).attempt.bind fun _ => .pure _
  intro tables a tables' hrun
  split at hrun
  · cases hrun
  · exact (Prod.mk.inj (Except.ok.inj hrun)).2.symm

theorem securityQualification_reading : Reading (securityQualification host) :=
  Reading.db.bind fun _ => (denied_reading _).bind fun _ => (denied_reading _).bind fun _ =>
    (denied_reading _).bind fun _ => (Reading.query _).bind fun _ =>
    (count_reading _ _).bind fun _ => .ite (.pure _) (.throw _)

end Reading

section Writing

variable (runtime : JsonRuntime) (driver : Driver)

theorem verifyOutboxIdentitiesFrom_statements (taskIds pairs : List JsString)
    (tasks : List JsValue) :
    Statements Tables.outsideCommit (verifyOutboxIdentitiesFrom runtime taskIds pairs tasks) := by
  induction tasks generalizing taskIds pairs with
  | nil => exact .pure _
  | cons task tasks ih =>
    unfold verifyOutboxIdentitiesFrom
    refine (Statements.lift _).bind fun pair => .ite (.throw _) ?_
    exact (Statements.query _).bind fun existing => .ite (.throw _) (ih _ _)

theorem insertEvent_statements (event : JsValue) (insertedBy : WorkerRequestKind) :
    Statements Tables.outsideCommit (insertEvent runtime event insertedBy) := by
  refine (Statements.lift _).bind fun row => Statements.insert fun tables tables' h => ?_
  rw [(Tables.insertEvent_eq_ok.mp h).2]
  rfl

theorem insertTask_statements (batch task : JsValue) :
    Statements Tables.outsideCommit (insertTask runtime batch task) := by
  refine (Statements.lift _).bind fun row => Statements.insert fun tables tables' h => ?_
  rw [(Tables.insertOutbox_eq_ok.mp h).2]
  rfl

theorem insertAudit_statements (audit : JsValue) :
    Statements Tables.outsideCommit (insertAudit audit) := by
  refine Statements.insert fun tables tables' h => ?_
  rw [(Tables.insertAudit_eq_ok.mp h).2]
  rfl

theorem insertReceipt_statements (batch receipt : JsValue) :
    Statements Tables.outsideCommit (insertReceipt runtime batch receipt) := by
  refine (Statements.lift _).bind fun row => Statements.insert fun tables tables' h => ?_
  rw [(Tables.insertReceipt_eq_ok.mp h).2]
  rfl

theorem currentAggregateVersion_statements (batch : JsValue) :
    Statements Tables.outsideCommit (currentAggregateVersion batch) :=
  (Statements.query _).bind fun _ => .lift _

theorem findCommandDuplicate_statements (identity : CommandIdentity) :
    Statements Tables.outsideCommit (findCommandDuplicate driver identity) := by
  refine (Statements.query _).bind fun rows => ?_
  split
  · exact .pure _
  · exact .ite (.pure _) (.throw _)
  · exact .throw _

theorem appendBatch_statements (batch : JsValue) :
    Statements Tables.outsideCommit (appendBatch runtime batch) := by
  refine (verifyOutboxIdentitiesFrom_statements runtime _ _ _).bind fun _ =>
    (currentAggregateVersion_statements batch).bind fun _ => .ite (.throw _) ?_
  refine (Statements.query _).bind fun _ => (Statements.forM fun _ => ?_).bind fun _ => ?_
  · exact (Statements.lift _).bind fun _ => insertEvent_statements runtime _ _
  refine (Statements.query _).bind fun _ => (Statements.forM fun _ => ?_).bind fun _ => ?_
  · exact insertTask_statements runtime _ _
  refine (Statements.query _).bind fun _ => (Statements.forM fun _ => ?_).bind fun _ => ?_
  · exact insertAudit_statements _
  exact (Statements.lift _).bind fun _ =>
    (insertReceipt_statements runtime _ _).bind fun _ => .pure _

theorem commitTransaction_statements (batch : JsValue) :
    Statements Tables.outsideCommit (commitTransaction runtime driver batch) := by
  refine (findCommandDuplicate_statements driver _).bind fun duplicate => ?_
  cases duplicate with
  | some row => exact .lift _
  | none => exact appendBatch_statements runtime batch

theorem inboxTransaction_statements (record : JsValue) :
    Statements Tables.outsideInbox (inboxTransaction driver record) := by
  refine (Statements.query _).bind fun rows => ?_
  split
  · refine (Statements.insert fun tables tables' h => ?_).bind fun _ => .pure _
    rw [(Tables.insertInbox_eq_ok.mp h).2]
    rfl
  · exact .ite (.pure _) (.throw _)
  · exact .throw _

theorem checkpointTransaction_statements (checkpoint : JsValue) :
    Statements Tables.outsideCheckpoints (checkpointTransaction checkpoint) :=
  (Statements.query _).bind fun _ => (Statements.lift _).bind fun _ =>
    (Statements.insert fun _ _ h => by rw [← Except.ok.inj h]; rfl).bind fun _ => .pure _

end Writing

def Keeps (fault : Option Fault) : Prop := ∀ f, fault = some f → f.rollsBack = false

def RollsBack (fault : Option Fault) : Prop := ∀ f, fault = some f → f.rollsBack = true

section Control

variable {c : Database} {faults : Faults} {α : Type}

theorem At.failure {s : Session} (h : At c faults s) (fault : Fault) :
    At (c.afterFault fault) faults { s with connection := s.connection.afterFault fault } :=
  ⟨congrArg (Database.afterFault · fault) h.connection, h.rest, h.statements⟩

theorem At.inTransaction {s : Session} (h : At c faults s) (transaction : Option Tables) :
    At { c with transaction := transaction } faults (s.inTransaction transaction) :=
  ⟨by rw [← h.connection]; rfl, h.rest, h.statements⟩

theorem Sql.control_rule {select : Faults → Option Fault} {run : Sql α}
    (hselect : ∀ f g : Faults, f.rest = g.rest → select f = select g)
    {Q : α → Session → Prop} {E : Failure → Session → Prop} (hopen : c.opened = true)
    (hfault : ∀ fault, select faults = some fault → ∀ e s, At (c.afterFault fault) faults s → E e s)
    (hrun : select faults = none → Triple (At c faults) run Q E) :
    Triple (At c faults) (fun s => Sql.guarded (select s.faults) run s) Q E := by
  intro s hs
  have hsame := hselect _ _ hs.rest
  have hsopen : s.connection.opened = true := by rw [hs.connection, hopen]
  dsimp only
  rw [Sql.guarded_open hsopen, hsame]
  cases hnext : select faults with
  | some fault => exact hfault fault hnext _ _ (hs.failure fault)
  | none => exact hrun hnext s hs

theorem begin_outside (hopen : c.opened = true) (hnone : c.transaction = none) :
    Triple (At c faults) Sql.beginImmediate
      (fun _ => At { c with transaction := some c.committed } faults) (fun _ => At c faults) := by
  refine Sql.control_rule (fun f g h => congrArg Faults.beginImmediate h) hopen ?_ fun _ => ?_
  · intro fault _ e s hs
    rw [Database.afterFault_eq (.inl hnone)] at hs
    exact hs
  · intro s hs
    unfold Sql.enter
    rw [hs.connection, hnone, if_neg (by simp)]
    by_cases hlocked : c.lockedElsewhere = true
    · rw [if_pos hlocked]
      exact hs
    · rw [if_neg hlocked]
      exact hs.inTransaction _

theorem begin_inside {tables : Tables} (hopen : c.opened = true)
    (htransaction : c.transaction = some tables) (hkeep : Keeps faults.beginImmediate) :
    Triple (At c faults) Sql.beginImmediate (fun _ _ => False) (fun _ => At c faults) := by
  refine Sql.control_rule (fun f g h => congrArg Faults.beginImmediate h) hopen ?_ fun _ => ?_
  · intro fault hfault e s hs
    rw [Database.afterFault_eq (.inr (hkeep fault hfault))] at hs
    exact hs
  · intro s hs
    unfold Sql.enter
    rw [hs.connection, htransaction]
    exact hs

theorem failed_afterFault {fault : Fault} {transaction : Option Tables} {s : Session}
    (h : At (({ c with transaction := transaction } : Database).afterFault fault) faults s) :
    Failed c faults s := by
  rw [Database.afterFault] at h
  split at h
  · exact ⟨none, h⟩
  · exact ⟨transaction, h⟩

theorem commit_inside (hopen : c.opened = true) :
    Triple (Inside c faults) Sql.commit
      (fun _ s => ∃ tables, At { c with committed := tables, transaction := none } faults s)
      (fun _ => Failed c faults) := by
  rintro s ⟨tables, hs⟩
  refine @Sql.control_rule { c with transaction := some tables } faults Unit Faults.commit _
    (fun f g h => (congrArg Faults.commit h :)) _ _ hopen ?_ (fun _ => ?_) s hs
  · intro fault _ e s hs
    exact failed_afterFault hs
  · intro s hs
    unfold Sql.publish
    rw [hs.connection]
    exact ⟨tables, rfl, hs.rest, hs.statements⟩

theorem rollback_failed {E : Failure → Session → Prop} (hopen : c.opened = true)
    (hrollback : RollsBack faults.rollback) :
    Triple (Failed c faults) (attempt Sql.rollback)
      (fun _ => At { c with transaction := none } faults) E := by
  rintro s ⟨transaction, hs⟩
  suffices h : Triple (At { c with transaction := transaction } faults) Sql.rollback
      (fun _ => At { c with transaction := none } faults)
      (fun _ => At { c with transaction := none } faults) from
    h.attempt (fun _ _ h => h) (fun _ _ h => h) s hs
  refine Sql.control_rule (fun f g h => congrArg Faults.rollback h) hopen ?_ fun _ => ?_
  · intro fault hfault e s hs
    rw [Database.afterFault, if_pos (hrollback fault hfault)] at hs
    exact hs
  · intro s hs
    unfold Sql.discard
    rw [hs.connection]
    cases transaction with
    | some tables => exact hs.inTransaction none
    | none => exact hs

theorem runTransaction_outside {action : Sql α} (haction : Contained action)
    (hopen : c.opened = true) (hnone : c.transaction = none)
    (hrollback : RollsBack faults.rollback) :
    Triple (At c faults) (Sql.runTransaction action)
      (fun _ s => ∃ tables, At { c with committed := tables, transaction := none } faults s)
      (fun _ => At c faults) := by
  have hsame : ({ c with transaction := none } : Database) = c := by rw [← hnone]
  refine (Reading.db.harmless c faults (.inl hnone)).bind fun _ =>
    (begin_outside hopen hnone).bind fun _ => ?_
  have hbody := (haction c faults).bind fun result => (commit_inside hopen).bind fun _ =>
    Triple.pure (a := result) fun _ h => h
  refine (hbody.mono (fun s hs => ⟨_, hs⟩) (fun _ _ h => h) fun _ _ h => h).recover fun e => ?_
  · have hattempt := @rollback_failed c faults (fun _ => At c faults) hopen hrollback
    rw [hsame] at hattempt
    exact hattempt.bind fun _ => .throw fun _ h => h

theorem runTransaction_inside {action : Sql α} {tables : Tables} (hopen : c.opened = true)
    (htransaction : c.transaction = some tables) (hkeep : Keeps faults.beginImmediate) :
    Triple (At c faults) (Sql.runTransaction action) (fun _ _ => False)
      (fun _ => At c faults) := by
  have hdb : Triple (At c faults) Sql.db (fun _ => At c faults) (fun _ => At c faults) := by
    intro s hs
    rw [Sql.db_open (by rw [hs.connection, hopen])]
    exact hs
  exact hdb.bind fun _ => (begin_inside hopen htransaction hkeep).bind fun _ => fun _ h => h.elim

theorem rollback_inside {tables : Tables} (hopen : c.opened = true)
    (htransaction : c.transaction = some tables) (hkeep : Keeps faults.rollback) :
    Triple (At c faults) Sql.rollback (fun _ => At { c with transaction := none } faults)
      (fun _ => At c faults) := by
  refine Sql.control_rule (fun f g h => congrArg Faults.rollback h) hopen ?_ fun _ => ?_
  · intro fault hfault e s hs
    rw [Database.afterFault_eq (.inr (hkeep fault hfault))] at hs
    exact hs
  · intro s hs
    unfold Sql.discard
    rw [hs.connection, htransaction]
    exact hs.inTransaction none

theorem walCheckpoint_inside {tables : Tables} (hopen : c.opened = true)
    (htransaction : c.transaction = some tables) (hkeep : Keeps faults.walCheckpoint) :
    Triple (At c faults) Sql.walCheckpoint (fun _ _ => False) (fun _ => At c faults) := by
  refine Sql.control_rule (fun f g h => congrArg Faults.walCheckpoint h) hopen ?_ fun _ => ?_
  · intro fault hfault e s hs
    rw [Database.afterFault_eq (.inr (hkeep fault hfault))] at hs
    exact hs
  · intro s hs
    unfold Sql.truncateLog
    rw [hs.connection, htransaction]
    exact hs

theorem walCheckpoint_outside (hopen : c.opened = true) (hnone : c.transaction = none) :
    Triple (At c faults) Sql.walCheckpoint (fun _ => At c faults)
      (fun _ s => At c faults s ∧ faults.walCheckpoint ≠ none) := by
  refine Sql.control_rule (fun f g h => congrArg Faults.walCheckpoint h) hopen ?_ fun _ => ?_
  · intro fault hfault e s hs
    rw [Database.afterFault_eq (.inl hnone)] at hs
    exact ⟨hs, fun hnothing => nomatch hfault.symm.trans hnothing⟩
  · intro s hs
    unfold Sql.truncateLog
    rw [hs.connection, hnone]
    exact hs

theorem close_outside (hopen : c.opened = true) (hnone : c.transaction = none) :
    Triple (At c faults) Sql.close (fun _ s => s.connection.opened = false)
      (fun _ s => At c faults s ∧ faults.close ≠ none) := by
  refine Sql.control_rule (fun f g h => congrArg Faults.close h) hopen ?_ fun _ => ?_
  · intro fault hfault e s hs
    rw [Database.afterFault_eq (.inl hnone)] at hs
    exact ⟨hs, fun hnothing => nomatch hfault.symm.trans hnothing⟩
  · exact fun s hs => rfl

end Control

section Handling

structure FlagsAgree (c : Database) : Prop where
  transaction : c.transaction.isSome = c.qualifying
  exclusive : ¬(c.writeLockHeld = true ∧ c.crashTransactionArmed = true)

-- The failures that leave the flags in agreement: none ends an open qualification transaction,
-- none leaves the transaction of a failed request open, and a request to close that has ended a
-- qualification transaction goes through.
def Tolerable (c : Database) (kind : WorkerRequestKind) (faults : Faults) : Prop :=
  match kind with
  | .commit =>
      if c.qualifying then faults.Keep ∧ Keeps faults.beginImmediate
      else RollsBack faults.rollback
  | .recordInbox | .saveCheckpoint =>
      if c.qualifying then Keeps faults.beginImmediate else RollsBack faults.rollback
  | .armCrash => c.qualifying = false → RollsBack faults.rollback
  | .holdLock => True
  | .releaseLock => c.writeLockHeld = true → Keeps faults.rollback
  | .close =>
      c.qualifying = true →
        (∃ fault, faults.rollback = some fault ∧ fault.rollsBack = false ∧
            Keeps faults.walCheckpoint) ∨
          faults.walCheckpoint = none ∧ faults.close = none
  | _ => c.qualifying = true → faults.Keep

variable {c : Database} {faults : Faults}

def Handles (c : Database) (faults : Faults) (x : Sql JsValue) : Prop :=
  Triple (At c faults) x (fun _ s => s.connection.opened = true → FlagsAgree s.connection)
    (fun _ => At c faults)

theorem FlagsAgree.undisturbed (h : FlagsAgree c) (hkeep : c.qualifying = true → faults.Keep) :
    Undisturbed c faults := by
  cases hqualifying : c.qualifying with
  | true => exact .inr (hkeep hqualifying)
  | false => exact .inl (Option.isNone_iff_eq_none.mp (by
      rw [← Option.not_isSome, h.transaction, hqualifying]
      rfl))

theorem FlagsAgree.transaction_none (h : FlagsAgree c) (hqualifying : c.qualifying = false) :
    c.transaction = none := by
  rw [← Option.not_isSome_iff_eq_none, h.transaction, hqualifying]
  decide

theorem FlagsAgree.transaction_some (h : FlagsAgree c) (hqualifying : c.qualifying = true) :
    ∃ tables, c.transaction = some tables :=
  Option.isSome_iff_exists.mp (h.transaction.trans hqualifying)

theorem FlagsAgree.not_qualifying (h : FlagsAgree c) (hqualifying : c.qualifying = false)
    (committed : Tables) : FlagsAgree { c with committed := committed, transaction := none } where
  transaction := hqualifying.symm
  exclusive := h.exclusive

theorem Harmless.handles {x : Sql JsValue} (hx : Harmless x) (h : FlagsAgree c)
    (hkeep : c.qualifying = true → faults.Keep) : Handles c faults x :=
  (hx c faults (h.undisturbed hkeep)).mono (fun _ hs => hs)
    (fun _ s hs _ => by rw [hs.connection]; exact h) fun _ _ hs => hs

theorem runTransaction_handles {action : Sql JsValue} (haction : Contained action)
    (hopen : c.opened = true) (h : FlagsAgree c)
    (htolerable : if c.qualifying then Keeps faults.beginImmediate
      else RollsBack faults.rollback) : Handles c faults (Sql.runTransaction action) := by
  cases hqualifying : c.qualifying with
  | true =>
    rw [if_pos hqualifying] at htolerable
    obtain ⟨tables, htransaction⟩ := h.transaction_some hqualifying
    exact (runTransaction_inside hopen htransaction htolerable).mono (fun _ hs => hs)
      (fun _ _ hs => hs.elim) fun _ _ hs => hs
  | false =>
    rw [if_neg (by rw [hqualifying]; decide)] at htolerable
    refine (runTransaction_outside haction hopen (h.transaction_none hqualifying) htolerable).mono
      (fun _ hs => hs) ?_ fun _ _ hs => hs
    rintro _ s ⟨tables, hs⟩ -
    rw [hs.connection]
    exact h.not_qualifying hqualifying tables

variable (runtime : JsonRuntime) (driver : Driver) (host : WorkerHost)

theorem commitBatch_handles (batch : JsValue) (hopen : c.opened = true) (h : FlagsAgree c)
    (htolerable : Tolerable c .commit faults) :
    Handles c faults (commitBatch runtime driver batch) := by
  have hkeep : c.qualifying = true → faults.Keep := fun hqualifying => by
    unfold Tolerable at htolerable
    rw [if_pos hqualifying] at htolerable
    exact htolerable.1
  refine ((commitLookup_reading runtime driver batch).harmless c faults (h.undisturbed hkeep)).bind
    fun reply => ?_
  cases reply with
  | some receipt => exact (Reading.pure receipt).harmless.handles h hkeep
  | none =>
    have hcontained := (commitTransaction_statements runtime driver batch).contained
    refine runTransaction_handles hcontained hopen h ?_
    unfold Tolerable at htolerable
    split
    · rename_i hqualifying
      rw [if_pos hqualifying] at htolerable
      exact htolerable.2
    · rename_i hqualifying
      rw [if_neg hqualifying] at htolerable
      exact htolerable

theorem armCrashChecks_reading (batch : JsValue) : Reading (armCrashChecks runtime batch) := by
  refine Reading.connection.bind fun c => .ite (.throw _) ?_
  refine (Reading.lift _).bind fun _ => (currentAggregateVersion_reading batch).bind fun _ =>
    .ite (.throw _) ?_
  split
  · exact .throw _
  · exact (Reading.lift _).bind fun _ => .pure _

theorem connection_triple {α : Type} {f : Database → Sql α} {Q : α → Session → Prop}
    {E : Failure → Session → Prop} (h : Triple (At c faults) (f c) Q E) :
    Triple (At c faults) (Sql.connection >>= f) Q E := by
  intro s hs
  have hread : Sql.connection s = (.ok c, s) := by
    rw [Sql.connection, hs.connection]
  rw [bind_of_ok hread]
  exact h s hs

theorem armCrashTransaction_handles (event : JsValue) (hopen : c.opened = true) (h : FlagsAgree c)
    (hqualifying : c.qualifying = false) (hrollback : RollsBack faults.rollback) :
    Handles c faults (armCrashTransaction runtime event) := by
  have hnone := h.transaction_none hqualifying
  have hsame : ({ c with transaction := none } : Database) = c := by rw [← hnone]
  have hheld := (Bool.or_eq_false_iff.mp hqualifying).1
  have hbody : Triple (At c faults) (do
      Sql.beginImmediate
      insertEvent runtime event .armCrash
      setCrashTransactionArmed true
      return JsValue.string (js "ARMED"))
      (fun _ s => s.connection.opened = true → FlagsAgree s.connection)
      (fun _ => Failed c faults) := by
    refine Triple.bind ((begin_outside hopen hnone).mono (fun _ hs => hs)
      (fun _ s hs => (⟨_, hs⟩ : Inside c faults s)) fun _ s hs => ⟨none, by rw [hsame]; exact hs⟩)
      fun _ => ((insertEvent_statements runtime event _).contained c faults).bind fun _ => ?_
    refine Triple.bind (R := fun _ s => s.connection.opened = true → FlagsAgree s.connection)
      (.modify ?_) fun _ => .pure fun _ hs => hs
    rintro s ⟨tables, hs⟩ -
    dsimp only
    rw [hs.connection]
    refine ⟨(Bool.or_true _).symm, fun hboth => ?_⟩
    exact absurd (hheld.symm.trans hboth.1) (by decide)
  refine hbody.recover fun e => ?_
  have hattempt := @rollback_failed c faults (fun _ => At c faults) hopen hrollback
  rw [hsame] at hattempt
  exact hattempt.bind fun _ => .throw fun _ hs => hs

theorem armCrash_handles (batch : JsValue) (hopen : c.opened = true) (h : FlagsAgree c)
    (htolerable : Tolerable c .armCrash faults) : Handles c faults (armCrash runtime batch) := by
  cases hqualifying : c.qualifying with
  | true =>
    have hrefused : Triple (At c faults) (armCrash runtime batch) (fun _ _ => False)
        (fun _ => At c faults) := by
      refine Triple.bind (R := fun _ _ => False) (connection_triple ?_) fun _ _ hs => hs.elim
      rw [if_pos hqualifying]
      exact .throw fun _ hs => hs
    exact hrefused.mono (fun _ hs => hs) (fun _ _ hs => hs.elim) fun _ _ hs => hs
  | false =>
    exact ((armCrashChecks_reading runtime batch).harmless c faults
      (.inl (h.transaction_none hqualifying))).bind fun event =>
        armCrashTransaction_handles runtime event hopen h hqualifying (htolerable hqualifying)

theorem holdLock_handles (hopen : c.opened = true) (h : FlagsAgree c) :
    Handles c faults holdLock := by
  refine connection_triple ?_
  cases hqualifying : c.qualifying with
  | true =>
    rw [if_pos rfl]
    exact .throw fun _ hs => hs
  | false =>
    have harmed := (Bool.or_eq_false_iff.mp hqualifying).2
    rw [if_neg (by decide)]
    refine (begin_outside hopen (h.transaction_none hqualifying)).bind fun _ =>
      Triple.bind (R := fun _ s => s.connection.opened = true → FlagsAgree s.connection)
        (.modify ?_) fun _ => .pure fun _ hs => hs
    rintro s hs -
    dsimp only
    rw [hs.connection]
    refine ⟨rfl, fun hboth => absurd (harmed.symm.trans hboth.2) (by decide)⟩

theorem releaseLock_handles (hopen : c.opened = true) (h : FlagsAgree c)
    (htolerable : Tolerable c .releaseLock faults) : Handles c faults releaseLock := by
  refine connection_triple ?_
  cases hheld : c.writeLockHeld with
  | true =>
    have harmed : c.crashTransactionArmed = false :=
      Bool.eq_false_iff.mpr fun harmed => h.exclusive ⟨hheld, harmed⟩
    obtain ⟨tables, htransaction⟩ := h.transaction_some (by rw [Database.qualifying, hheld]; rfl)
    rw [if_pos rfl]
    refine (rollback_inside hopen htransaction (htolerable hheld)).bind fun _ =>
      Triple.bind (R := fun _ s => s.connection.opened = true → FlagsAgree s.connection)
        (.modify ?_) fun _ => .pure fun _ hs => hs
    rintro s hs -
    dsimp only
    rw [hs.connection]
    refine ⟨?_, nofun⟩
    rw [Database.qualifying, harmed]
    rfl
  | false =>
    rw [if_neg (by decide)]
    exact .throw fun _ hs => hs

theorem disconnect_triple (hopen : c.opened = true) (hnone : c.transaction = none) :
    Triple (At c faults) (do
        Sql.walCheckpoint
        Sql.close
        return JsValue.string (js "CLOSED"))
      (fun _ s => s.connection.opened = false)
      (fun _ s => At c faults s ∧ ¬(faults.walCheckpoint = none ∧ faults.close = none)) := by
  refine Triple.bind ((walCheckpoint_outside hopen hnone).mono (fun _ hs => hs)
    (fun _ _ hs => hs) fun _ _ hs => ⟨hs.1, fun hnothing => hs.2 hnothing.1⟩) fun _ => ?_
  refine Triple.bind ((close_outside hopen hnone).mono (fun _ hs => hs)
    (fun _ _ hs => hs) fun _ _ hs => ⟨hs.1, fun hnothing => hs.2 hnothing.2⟩) fun _ => ?_
  exact .pure fun _ hs => hs

theorem endQualification_kept {fault : Fault} (hopen : c.opened = true)
    (hfault : faults.rollback = some fault) (hkeep : fault.rollsBack = false) :
    Triple (At c faults) endQualification (fun _ => At c faults) (fun _ => At c faults) := by
  refine connection_triple ?_
  split
  · suffices h : Triple (At c faults) Sql.rollback (fun _ => At c faults)
        (fun _ => At c faults) from
      (h.attempt (fun _ _ hs => hs) fun _ _ hs => hs).bind fun _ => .pure fun _ hs => hs
    refine Sql.control_rule (fun f g h => congrArg Faults.rollback h) hopen ?_ fun hnothing => ?_
    · intro other hother e s hs
      obtain rfl := Option.some.inj (hfault.symm.trans hother)
      rw [Database.afterFault_eq (.inr hkeep)] at hs
      exact hs
    · exact nomatch hfault.symm.trans hnothing
  · exact .pure fun _ hs => hs

theorem endQualification_ended {E : Failure → Session → Prop} (hopen : c.opened = true)
    (hqualifying : c.qualifying = true)
    (hrollback : RollsBack faults.rollback) :
    Triple (At c faults) endQualification (fun _ => At { c with transaction := none } faults)
      E := by
  refine connection_triple ?_
  rw [if_pos hqualifying]
  refine Triple.bind (fun s hs => ?_) fun _ => .pure fun _ hs => hs
  exact rollback_failed hopen hrollback s ⟨c.transaction, hs⟩

theorem closeDatabase_handles (hopen : c.opened = true) (h : FlagsAgree c)
    (htolerable : Tolerable c .close faults) : Handles c faults closeDatabase := by
  have hclosed {s : Session} (hs : s.connection.opened = false) :
      s.connection.opened = true → FlagsAgree s.connection :=
    fun hopened => absurd (hs.symm.trans hopened) (by decide)
  cases hqualifying : c.qualifying with
  | false =>
    have hend : Triple (At c faults) endQualification (fun _ => At c faults)
        (fun _ => At c faults) := by
      refine connection_triple ?_
      rw [if_neg (by rw [hqualifying]; decide)]
      exact .pure fun _ hs => hs
    exact hend.bind fun _ => (disconnect_triple hopen (h.transaction_none hqualifying)).mono
      (fun _ hs => hs) (fun _ _ hs => hclosed hs) fun _ _ hs => hs.1
  | true =>
    have hkept {fault : Fault} (hfault : faults.rollback = some fault)
        (hkeep : fault.rollsBack = false) (hcheckpoint : Keeps faults.walCheckpoint) :
        Handles c faults closeDatabase := by
      obtain ⟨tables, htransaction⟩ := h.transaction_some hqualifying
      exact (endQualification_kept hopen hfault hkeep).bind fun _ =>
        (walCheckpoint_inside hopen htransaction hcheckpoint).bind fun _ => fun _ hs => hs.elim
    obtain ⟨fault, hfault, hkeep, hcheckpoint⟩ | hnothing := htolerable hqualifying
    · exact hkept hfault hkeep hcheckpoint
    by_cases hrollback : RollsBack faults.rollback
    · exact (endQualification_ended hopen hqualifying hrollback).bind fun _ =>
        (@disconnect_triple { c with transaction := none } faults hopen rfl).mono
          (fun _ hs => hs) (fun _ _ hs => hclosed hs)
          fun _ _ hs => (hs.2 hnothing).elim
    · obtain ⟨fault, hnot⟩ := not_forall.mp hrollback
      obtain ⟨hfault, hkeep⟩ := Classical.not_imp.mp hnot
      refine hkept hfault (Bool.eq_false_iff.mpr hkeep) ?_
      rw [hnothing.1]
      nofun

theorem handle_handles (request : WorkerRequest) (hopen : c.opened = true) (h : FlagsAgree c)
    (htolerable : Tolerable c request.kind faults) :
    Handles c faults (handle runtime driver host request) := by
  obtain ⟨kind, payload⟩ := request
  refine Triple.bind (R := fun _ => At c faults)
    (.lift (fun _ _ _ hs => hs) fun _ _ hs => hs) fun _ => ?_
  cases kind with
  | armCrash => exact armCrash_handles runtime payload hopen h htolerable
  | backup => exact (backupDatabase_reading host payload).harmless.handles h htolerable
  | close => exact closeDatabase_handles hopen h htolerable
  | commit => exact commitBatch_handles runtime driver payload hopen h htolerable
  | getCommand => exact (getCommand_reading driver payload).harmless.handles h htolerable
  | lookupCommandReceipt =>
    exact (lookupCommandReceipt_reading runtime driver payload).harmless.handles h htolerable
  | health => exact (health_reading host).harmless.handles h htolerable
  | holdLock => exact holdLock_handles hopen h
  | listOutbox => exact (listOutbox_reading driver).harmless.handles h htolerable
  | readEvents => exact (readEvents_reading runtime driver payload).harmless.handles h htolerable
  | recordInbox =>
    exact runTransaction_handles
        (inboxTransaction_statements driver payload).contained hopen h htolerable
  | recover => exact (recover_reading host).harmless.handles h htolerable
  | releaseLock => exact releaseLock_handles hopen h htolerable
  | saveCheckpoint =>
    exact runTransaction_handles
        (checkpointTransaction_statements payload).contained hopen h htolerable
  | security => exact (securityQualification_reading host).harmless.handles h htolerable
  | stateManifest => exact (stateSchemaManifest_reading host).harmless.handles h htolerable

end Handling

-- What happens to the connection of one worker: a request, or what another connection does with
-- the write lock while no request is handled.
inductive FlagEvent where
  | request (request : WorkerRequest) (faults : Faults)
  | lockElsewhere
  | releaseElsewhere (committed : Tables)

section Runs

variable (runtime : JsonRuntime) (driver : Driver) (host : WorkerHost)

def nextConnection (c : Database) : FlagEvent → Option Database
  | .request request faults =>
      if c.opened then some (handle runtime driver host request ⟨c, faults⟩).2.connection else none
  | .lockElsewhere =>
      if c.transaction = none ∧ c.lockedElsewhere = false then
        some { c with lockedElsewhere := true }
      else none
  | .releaseElsewhere committed =>
      if c.transaction = none ∧ c.lockedElsewhere = true then
        some { c with lockedElsewhere := false, committed := committed }
      else none

def Tolerated (c : Database) : FlagEvent → Prop
  | .request request faults => Tolerable c request.kind faults
  | .lockElsewhere | .releaseElsewhere _ => True

variable {runtime driver host} {c c' : Database} {faults : Faults}

theorem at_start (c : Database) (faults : Faults) : At c faults ⟨c, faults⟩ :=
  ⟨rfl, rfl, fun _ h => h⟩

theorem handle_agrees {request : WorkerRequest} (hopen : c.opened = true) (h : FlagsAgree c)
    (htolerable : Tolerable c request.kind faults)
    (hopened : (handle runtime driver host request ⟨c, faults⟩).2.connection.opened = true) :
    FlagsAgree (handle runtime driver host request ⟨c, faults⟩).2.connection := by
  have hhandles := handle_handles runtime driver host request hopen h htolerable
  cases hresult : handle runtime driver host request ⟨c, faults⟩ with
  | mk result s =>
    rw [hresult] at hopened
    cases result with
    | ok reply => exact hhandles.ok (at_start c faults) hresult hopened
    | error failure =>
      have hsame := (hhandles.error (at_start c faults) hresult).connection
      dsimp only
      rw [hsame]
      exact h

theorem nextConnection_agrees {event : FlagEvent}
    (hstep : nextConnection runtime driver host c event = some c')
    (htolerated : Tolerated c event) (h : c.opened = true → FlagsAgree c) :
    c'.opened = true → FlagsAgree c' := by
  cases event with
  | request request faults =>
    unfold nextConnection at hstep
    dsimp only at hstep
    split at hstep
    · rename_i hopen
      obtain rfl := Option.some.inj hstep
      exact handle_agrees hopen (h hopen) htolerated
    · cases hstep
  | lockElsewhere =>
    unfold nextConnection at hstep
    dsimp only at hstep
    split at hstep
    · obtain rfl := Option.some.inj hstep
      exact fun hopen => ⟨(h hopen).transaction, (h hopen).exclusive⟩
    · cases hstep
  | releaseElsewhere committed =>
    unfold nextConnection at hstep
    dsimp only at hstep
    split at hstep
    · obtain rfl := Option.some.inj hstep
      exact fun hopen => ⟨(h hopen).transaction, (h hopen).exclusive⟩
    · cases hstep

end Runs

structure Fresh (c : Database) : Prop where
  opened : c.opened = true
  transaction : c.transaction = none
  writeLockHeld : c.writeLockHeld = false
  crashTransactionArmed : c.crashTransactionArmed = false

theorem flags_agree (runtime : JsonRuntime) (driver : Driver) (host : WorkerHost)
    {c₀ c : Database} {events : List FlagEvent} (hfresh : Fresh c₀)
    (hrun : Run (fun c event c' => nextConnection runtime driver host c event = some c' ∧
      Tolerated c event) c₀ events c) (hopen : c.opened = true) :
    c.transaction.isSome = (c.writeLockHeld || c.crashTransactionArmed) ∧
      ¬(c.writeLockHeld = true ∧ c.crashTransactionArmed = true) ∧
      ∀ request faults failure s, Tolerable c request.kind faults →
        handle runtime driver host request ⟨c, faults⟩ = (.error failure, s) →
        s.connection.committed = c.committed ∧ s.connection.transaction = c.transaction := by
  have hstart : c₀.opened = true → FlagsAgree c₀ := fun _ => by
    refine ⟨?_, fun hboth => absurd (hfresh.writeLockHeld.symm.trans hboth.1) (by decide)⟩
    rw [Database.qualifying, hfresh.transaction, hfresh.writeLockHeld,
      hfresh.crashTransactionArmed]
    rfl
  have hagree := hrun.invariant (P := fun c => c.opened = true → FlagsAgree c)
    (fun _ _ _ hstep h => nextConnection_agrees hstep.1 hstep.2 h) hstart hopen
  refine ⟨hagree.transaction, hagree.exclusive,
    fun request faults failure s htolerable hfails => ?_⟩
  have hsame := ((handle_handles runtime driver host request hopen hagree htolerable).error
    (at_start c faults) hfails).connection
  rw [hsame]
  exact ⟨rfl, rfl⟩

section Samples

def sampleDriver : Driver := ⟨utf16Text, fun _ _ => rfl⟩

def sampleHost : WorkerHost where
  databasePath := js "/data/state/aseos.db"
  busyTimeoutMs := 5000
  journalMode := js "wal"
  synchronous := 2
  foreignKeys := 1
  trustedSchema := 0
  busyTimeout := 5000
  sqliteVersion := js "3.53.3"
  quickCheckRows := [js "ok"]
  attachDenied := true
  schemaMutationDenied := true
  extensionLoadingDenied := true
  stateManifest := none
  resolve := id
  mkdir _ := .ok ()
  checkCopy _ := .ok .null

def newConnection : Database := ⟨.empty, none, false, true, false, false⟩

def simpleRequest (kind : WorkerRequestKind) (faults : Faults) : FlagEvent :=
  .request ⟨kind, .record []⟩ faults

def checkpointFails : Faults := { Faults.none with walCheckpoint := some ⟨.storageFailure, false⟩ }

theorem failed_close_keeps_flag :
    let held := { newConnection with transaction := some .empty, writeLockHeld := true }
    nextConnection sampleRuntime sampleDriver sampleHost newConnection
        (simpleRequest .holdLock .none) = some held ∧
      (handle sampleRuntime sampleDriver sampleHost ⟨.close, .record []⟩
          ⟨held, checkpointFails⟩).1 = .error (.foreign .storageFailure) ∧
      nextConnection sampleRuntime sampleDriver sampleHost held
          (simpleRequest .close checkpointFails) =
        some { held with transaction := none } :=
  ⟨rfl, rfl, rfl⟩

theorem sample_flags_agree :
    let held := { newConnection with transaction := some .empty, writeLockHeld := true }
    held.transaction.isSome = (held.writeLockHeld || held.crashTransactionArmed) ∧
      ∀ failure s, handle sampleRuntime sampleDriver sampleHost
          ⟨.saveCheckpoint, .record []⟩ ⟨held, .none⟩ = (.error failure, s) →
        s.connection.committed = .empty ∧ s.connection.transaction = some .empty := by
  intro held
  have hkeep : Faults.none.Keep := nofun
  have hsave : Tolerable held .saveCheckpoint .none :=
    show Keeps Faults.none.beginImmediate from nofun
  have hsaves : nextConnection sampleRuntime sampleDriver sampleHost held
      (simpleRequest .saveCheckpoint .none) = some held ∧
      Tolerated held (simpleRequest .saveCheckpoint .none) := ⟨rfl, hsave⟩
  have hheld : Run (fun c event c' => nextConnection sampleRuntime sampleDriver sampleHost c event =
      some c' ∧ Tolerated c event) newConnection
      [.lockElsewhere, simpleRequest .holdLock .none, .releaseElsewhere .empty,
        simpleRequest .holdLock .none, simpleRequest .recover .none,
        simpleRequest .saveCheckpoint .none] held :=
    ((((((Run.nil newConnection).snoc ⟨rfl, trivial⟩).snoc ⟨rfl, trivial⟩).snoc
      ⟨rfl, trivial⟩).snoc ⟨rfl, trivial⟩).snoc ⟨rfl, fun _ => hkeep⟩).snoc hsaves
  obtain ⟨hagree, -, hfails⟩ := flags_agree sampleRuntime sampleDriver sampleHost
    ⟨rfl, rfl, rfl, rfl⟩ hheld rfl
  exact ⟨hagree, fun failure s hresult =>
    hfails ⟨.saveCheckpoint, .record []⟩ .none failure s hsave hresult⟩

end Samples

end Aseos.Persistence
