import Aseos.Library.StreamLog
import Aseos.Persistence.Checkpoints

namespace Aseos.Persistence

open Execution Kernel StreamLog TransitionSystem

section Evaluation

variable {α : Type} {c : Database} {tables : Tables} {s : Session}

theorem working_query (hopen : c.opened = true) {run : Tables → α} {a : α} :
    Sql.query run (working c tables) = (.ok a, s) ↔ a = run tables ∧ s = working c tables := by
  rw [query_working hopen]
  simp [eq_comm]

theorem working_insert (hopen : c.opened = true) {run : Tables → Except Failure Tables} {u : Unit} :
    Sql.insert run (working c tables) = (.ok u, s) ↔
      ∃ tables', run tables = .ok tables' ∧ s = working c tables' := by
  cases hrun : run tables with
  | ok tables' =>
    rw [insert_working hopen hrun]
    simp [eq_comm]
  | error e =>
    rw [insert_refused hopen hrun]
    simp

theorem working_lift {x : Except Failure α} {a : α} :
    lift x (working c tables) = (.ok a, s) ↔ x = .ok a ∧ s = working c tables := by
  simp [lift, eq_comm]

end Evaluation

structure Tables.Keyed (tables : Tables) : Prop where
  events : (tables.eventJournal.map (·.eventId)).Nodup
  commands : (tables.commandReceipts.map (·.commandId)).Nodup
  effects : (tables.commandReceipts.map fun row => (row.idempotencyKey, row.effectScope)).Nodup
  tasks : (tables.outbox.map (·.taskId)).Nodup
  audits : (tables.auditFacts.map (·.auditId)).Nodup

structure Entry where
  batch : JsValue
  version : ℕ
  events : List EventRow
  tasks : List OutboxRow
  audits : List AuditRow
  receipt : JsValue
  receiptRow : CommandReceiptRow

def EventRow.stream (row : EventRow) : Text × Text := (row.aggregateType, row.aggregateId)

def streamKey (batch : JsValue) : Text × Text :=
  (bound (text (stream batch) "aggregateType"), bound (text (stream batch) "aggregateId"))

def Tables.extend (tables : Tables) (e : Entry) : Tables :=
  { tables with
    sequence := tables.sequence + e.events.length
    eventJournal := tables.eventJournal ++ e.events
    commandReceipts := tables.commandReceipts ++ [e.receiptRow]
    outbox := tables.outbox ++ e.tasks
    auditFacts := tables.auditFacts ++ e.audits }

def taskRow (batch task : JsValue) (envelopeJson : JsString) : OutboxRow where
  taskId := bound (text task "taskId")
  idempotencyKey := bound (text task "idempotencyKey")
  effectScope := bound (text task "effectScope")
  payloadHash := bound (text task "payloadHash")
  envelopeJson := bound envelopeJson
  status := .pending
  attempt := natural task "attempt"
  createdAt := bound (text batch "capturedAt")
  leasedUntil := none

def auditRow (audit : JsValue) : AuditRow where
  auditId := bound (text audit "auditId")
  occurredAt := bound (text audit "occurredAt")
  action := bound (text audit "action")
  payloadHash := bound (text audit "payloadHash")

def receiptRow (batch receipt : JsValue) (receiptJson : JsString) : CommandReceiptRow where
  commandId := bound (text batch "commandId")
  idempotencyKey := bound (text batch "idempotencyKey")
  effectScope := bound (text batch "effectScope")
  payloadHash := bound (text batch "payloadHash")
  outcomeHash := bound (text receipt "receiptHash")
  status := .committed
  receiptJson := bound receiptJson
  completedAt := bound (text batch "capturedAt")

section Entries

variable (runtime : JsonRuntime)

-- An event as the journal has it; the row of the event has no sequence number yet.
def Journaled (event : JsValue) (row : EventRow) : Prop :=
  eventRow runtime event .commit = .ok { row with sequence := 0 }

def Queued (batch task : JsValue) (row : OutboxRow) : Prop :=
  ∃ envelopeJson, canonicalJson runtime.toHost task = .ok envelopeJson ∧
    row = taskRow batch task envelopeJson

structure Entry.Written (e : Entry) : Prop where
  expected : natural (stream e.batch) "expectedVersion" = e.version
  events : List.Forall₂ (Journaled runtime) (elements e.batch "events") e.events
  stream : ∀ row ∈ e.events, row.stream = streamKey e.batch
  versions : e.events.map (·.aggregateVersion) = List.range' (e.version + 1) e.events.length
  tasks : List.Forall₂ (Queued runtime e.batch) (elements e.batch "outbox") e.tasks
  audits : e.audits = (elements e.batch "audit").map auditRow
  receipt : receiptOf runtime e.batch (e.version + e.events.length) = .ok e.receipt
  receiptRow : ∃ receiptJson, canonicalJson runtime.toHost e.receipt = .ok receiptJson ∧
    e.receiptRow = Persistence.receiptRow e.batch e.receipt receiptJson

end Entries

section Appending

variable {runtime : JsonRuntime} {c : Database} {tables : Tables} {s : Session}

theorem foreign_eq_ok {α : Type} {x : Except CanonicalError α} {a : α} :
    foreign x = .ok a ↔ x = .ok a := by
  cases x <;> simp [foreign]

theorem nodup_snoc_map {α β : Type} {f : α → β} {rows : List α} {row : α}
    (h : (rows.map f).Nodup) (hnew : ∀ r ∈ rows, f r ≠ f row) : ((rows ++ [row]).map f).Nodup := by
  rw [List.map_append, List.map_singleton]
  refine h.append (List.nodup_singleton _) (List.disjoint_singleton.mpr fun hmem => ?_)
  obtain ⟨r, hr, hsame⟩ := List.mem_map.mp hmem
  exact hnew r hr hsame

theorem eventRow_eq_ok {event : JsValue} {insertedBy : WorkerRequestKind} {row : EventRow}
    (h : eventRow runtime event insertedBy = .ok row) :
    row.sequence = 0 ∧ row.insertedBy = insertedBy ∧
      row.aggregateVersion = natural event "aggregateVersion" ∧
      row.stream = (bound (text event "aggregateType"), bound (text event "aggregateId")) := by
  unfold eventRow at h
  obtain ⟨payloadJson, -, h⟩ := Except.bind_eq_ok.mp h
  obtain ⟨eventJson, -, h⟩ := Except.bind_eq_ok.mp h
  obtain rfl := Except.ok.inj h
  exact ⟨rfl, rfl, rfl, rfl⟩

theorem verifyEvent_eq_ok {event batch : JsValue} {version : ℕ} {u : Unit}
    (h : verifyEvent runtime event batch version = .ok u) :
    text event "aggregateType" = text (stream batch) "aggregateType" ∧
      text event "aggregateId" = text (stream batch) "aggregateId" ∧
      natural event "aggregateVersion" = version := by
  unfold verifyEvent at h
  split at h
  · cases h
  · rename_i hsame
    simp only [not_or, not_not, ne_eq] at hsame
    exact hsame

theorem insertEvent_working (hopen : c.opened = true) (hkeyed : tables.Keyed) {event : JsValue}
    {u : Unit} (h : insertEvent runtime event .commit (working c tables) = (.ok u, s)) :
    ∃ row, Journaled runtime event row ∧ row.sequence = tables.sequence + 1 ∧
      ∃ tables', s = working c tables' ∧ tables'.Keyed ∧ tables' = { tables with
        sequence := tables.sequence + 1
        eventJournal := tables.eventJournal ++ [row] } := by
  obtain ⟨row, t, hlift, hinsert⟩ := bind_eq_ok.mp h
  obtain ⟨hrow, rfl⟩ := working_lift.mp hlift
  obtain ⟨tables', htables, rfl⟩ := (working_insert hopen).mp hinsert
  obtain ⟨hadmits, rfl⟩ := Tables.insertEvent_eq_ok.mp htables
  refine ⟨{ row with sequence := tables.sequence + 1 }, ?_, rfl, _, rfl,
    { hkeyed with events := nodup_snoc_map hkeyed.events fun r hr => (hadmits.2.2.2 r hr).1 }, rfl⟩
  obtain ⟨hzero, -⟩ := eventRow_eq_ok hrow
  rw [Journaled, hrow, ← hzero]

theorem Journaled.fields {event : JsValue} {row : EventRow} (h : Journaled runtime event row) :
    row.insertedBy = .commit ∧ row.aggregateVersion = natural event "aggregateVersion" ∧
      row.stream = (bound (text event "aggregateType"), bound (text event "aggregateId")) :=
  (eventRow_eq_ok h).2

theorem insertEvents_working (hopen : c.opened = true) {batch : JsValue} {current index : ℕ}
    {events : List JsValue} {u : Unit} (hkeyed : tables.Keyed)
    (h : (events.zipIdx index).forM (fun (p : JsValue × ℕ) => (do
      lift (verifyEvent runtime p.1 batch (current + p.2 + 1))
      insertEvent runtime p.1 .commit : Sql Unit)) (working c tables) = (.ok u, s)) :
    ∃ rows, List.Forall₂ (Journaled runtime) events rows ∧
      (∀ row ∈ rows, row.stream = streamKey batch) ∧
      rows.map (·.aggregateVersion) = List.range' (current + index + 1) rows.length ∧
      rows.map (·.sequence) = List.range' (tables.sequence + 1) rows.length ∧
      ∃ tables', s = working c tables' ∧ tables'.Keyed ∧ tables' = { tables with
        sequence := tables.sequence + rows.length
        eventJournal := tables.eventJournal ++ rows } := by
  induction events generalizing index tables with
  | nil =>
    obtain ⟨-, rfl⟩ := Prod.mk.inj h
    exact ⟨[], .nil, List.forall_mem_nil _, rfl, rfl, tables, rfl, hkeyed, by simp⟩
  | cons event events ih =>
    obtain ⟨_, t, hfirst, hrest⟩ := bind_eq_ok.mp h
    obtain ⟨_, t', hlift, hinsert⟩ := bind_eq_ok.mp hfirst
    obtain ⟨hverify, rfl⟩ := working_lift.mp hlift
    obtain ⟨htype, hid, hversion⟩ := verifyEvent_eq_ok hverify
    obtain ⟨row, hrow, hsequence, between, rfl, hbetween, rfl⟩ :=
      insertEvent_working hopen hkeyed hinsert
    obtain ⟨-, hrowVersion, hrowStream⟩ := hrow.fields
    obtain ⟨rows, hrows, hstream, hversions, hsequences, tables', rfl, hkept, rfl⟩ :=
      ih hbetween hrest
    refine ⟨row :: rows, .cons hrow hrows, List.forall_mem_cons.mpr ⟨?_, hstream⟩, ?_, ?_,
      _, rfl, hkept, ?_⟩
    · rw [hrowStream, htype, hid, streamKey]
    · rw [List.map_cons, hversions, hrowVersion, hversion, List.length_cons, List.range'_succ]
      rfl
    · rw [List.map_cons, hsequences, hsequence, List.length_cons, List.range'_succ]
    · rw [List.length_cons, List.append_assoc, List.singleton_append, Nat.add_assoc,
        Nat.add_comm 1]

theorem insertTasks_working (hopen : c.opened = true) {batch : JsValue} {tasks : List JsValue}
    {u : Unit} (hkeyed : tables.Keyed)
    (h : tasks.forM (insertTask runtime batch) (working c tables) = (.ok u, s)) :
    ∃ rows, List.Forall₂ (Queued runtime batch) tasks rows ∧
      ∃ tables', s = working c tables' ∧ tables'.Keyed ∧
        tables' = { tables with outbox := tables.outbox ++ rows } := by
  induction tasks generalizing tables with
  | nil =>
    obtain ⟨-, rfl⟩ := Prod.mk.inj h
    exact ⟨[], .nil, tables, rfl, hkeyed, by simp⟩
  | cons task tasks ih =>
    obtain ⟨_, t, hfirst, hrest⟩ := bind_eq_ok.mp h
    obtain ⟨envelopeJson, t', hlift, hinsert⟩ := bind_eq_ok.mp hfirst
    obtain ⟨hjson, rfl⟩ := working_lift.mp hlift
    obtain ⟨between, hbetween, rfl⟩ := (working_insert hopen).mp hinsert
    obtain ⟨hadmits, rfl⟩ := Tables.insertOutbox_eq_ok.mp hbetween
    have hkeyed' : Tables.Keyed { tables with
        outbox := tables.outbox ++ [taskRow batch task envelopeJson] } :=
      { hkeyed with tasks := nodup_snoc_map hkeyed.tasks fun r hr => (hadmits.2 r hr).1 }
    obtain ⟨rows, hrows, tables', rfl, hkept, htables⟩ := ih hkeyed' hrest
    refine ⟨taskRow batch task envelopeJson :: rows,
      .cons ⟨envelopeJson, foreign_eq_ok.mp hjson, rfl⟩ hrows, tables', rfl, hkept, ?_⟩
    rw [htables]
    exact congrArg (fun rows => { tables with outbox := rows }) (List.append_assoc ..)

theorem insertAudits_working (hopen : c.opened = true) {audits : List JsValue} {u : Unit}
    (hkeyed : tables.Keyed) (h : audits.forM insertAudit (working c tables) = (.ok u, s)) :
    ∃ tables', s = working c tables' ∧ tables'.Keyed ∧
      tables' = { tables with auditFacts := tables.auditFacts ++ audits.map auditRow } := by
  induction audits generalizing tables with
  | nil =>
    obtain ⟨-, rfl⟩ := Prod.mk.inj h
    exact ⟨tables, rfl, hkeyed, by simp⟩
  | cons audit audits ih =>
    obtain ⟨_, t, hinsert, hrest⟩ := bind_eq_ok.mp h
    obtain ⟨between, hbetween, rfl⟩ := (working_insert hopen).mp hinsert
    obtain ⟨hadmits, rfl⟩ := Tables.insertAudit_eq_ok.mp hbetween
    have hkeyed' : Tables.Keyed { tables with
        auditFacts := tables.auditFacts ++ [auditRow audit] } :=
      { hkeyed with audits := nodup_snoc_map hkeyed.audits hadmits.2 }
    obtain ⟨tables', rfl, hkept, htables⟩ := ih hkeyed' hrest
    refine ⟨tables', rfl, hkept, ?_⟩
    rw [htables]
    exact congrArg (fun rows => { tables with auditFacts := rows }) (List.append_assoc ..)

theorem insertReceipt_working (hopen : c.opened = true) {batch receipt : JsValue} {u : Unit}
    (hkeyed : tables.Keyed)
    (h : insertReceipt runtime batch receipt (working c tables) = (.ok u, s)) :
    ∃ row, (∃ receiptJson, canonicalJson runtime.toHost receipt = .ok receiptJson ∧
        row = receiptRow batch receipt receiptJson) ∧
      ∃ tables', s = working c tables' ∧ tables'.Keyed ∧
        tables' = { tables with commandReceipts := tables.commandReceipts ++ [row] } := by
  obtain ⟨receiptJson, t, hlift, hinsert⟩ := bind_eq_ok.mp h
  obtain ⟨hjson, rfl⟩ := working_lift.mp hlift
  obtain ⟨tables', htables, rfl⟩ := (working_insert hopen).mp hinsert
  obtain ⟨hadmits, rfl⟩ := Tables.insertReceipt_eq_ok.mp htables
  refine ⟨_, ⟨receiptJson, foreign_eq_ok.mp hjson, rfl⟩, _, rfl, { hkeyed with
    commands := nodup_snoc_map hkeyed.commands fun r hr => (hadmits.2.2 r hr).1
    effects := nodup_snoc_map hkeyed.effects fun r hr hsame => (hadmits.2.2 r hr).2 ?_ }, rfl⟩
  exact ⟨congrArg Prod.fst hsame, congrArg Prod.snd hsame⟩

theorem verifyOutboxIdentitiesFrom_reads (taskIds pairs : List JsString) (tasks : List JsValue) :
    Statements (fun tables : Tables => tables)
      (verifyOutboxIdentitiesFrom runtime taskIds pairs tasks) := by
  induction tasks generalizing taskIds pairs with
  | nil => exact .pure _
  | cons task tasks ih =>
    unfold verifyOutboxIdentitiesFrom
    refine (Statements.lift _).bind fun pair => .ite (.throw _) ?_
    exact (Statements.query _).bind fun existing => .ite (.throw _) (ih _ _)

theorem reads_working {α : Type} {x : Sql α} (h : Statements (fun tables : Tables => tables) x)
    {a : α} (hx : x (working c tables) = (.ok a, s)) : s = working c tables := by
  obtain ⟨tables', rfl⟩ := h.working hx
  rw [h.keeps hx]

theorem appendBatch_working (hopen : c.opened = true) {batch receipt : JsValue}
    (hkeyed : tables.Keyed)
    (h : appendBatch runtime batch (working c tables) = (.ok receipt, s)) :
    ∃ e : Entry, e.batch = batch ∧ e.receipt = receipt ∧
      e.version = tables.maxVersion (streamKey batch).1 (streamKey batch).2 ∧
      e.Written runtime ∧
      e.events.map (·.sequence) = List.range' (tables.sequence + 1) e.events.length ∧
      s = working c (tables.extend e) ∧ (tables.extend e).Keyed := by
  obtain ⟨_, _, hidentities, h⟩ := bind_eq_ok.mp h
  obtain rfl := reads_working (verifyOutboxIdentitiesFrom_reads _ _ _) hidentities
  obtain ⟨version, _, hcurrent, h⟩ := bind_eq_ok.mp h
  obtain ⟨stored, _, hquery, hlift⟩ := bind_eq_ok.mp hcurrent
  obtain ⟨rfl, rfl⟩ := (working_query hopen).mp hquery
  obtain ⟨hsafe, rfl⟩ := working_lift.mp hlift
  obtain ⟨-, rfl⟩ := safeColumn_eq_ok.mp hsafe
  split at h
  · cases h
  rename_i hexpected
  obtain ⟨_, _, hprepare, h⟩ := bind_eq_ok.mp h
  obtain ⟨-, rfl⟩ := (working_query hopen).mp hprepare
  obtain ⟨_, _, hevents, h⟩ := bind_eq_ok.mp h
  obtain ⟨events, hjournaled, hstream, hversions, hsequences, _, rfl, hkeyed₁, rfl⟩ :=
    insertEvents_working hopen hkeyed hevents
  obtain ⟨_, _, hprepare₂, h⟩ := bind_eq_ok.mp h
  obtain ⟨-, rfl⟩ := (working_query hopen).mp hprepare₂
  obtain ⟨_, _, htasks, h⟩ := bind_eq_ok.mp h
  obtain ⟨tasks, hqueued, _, rfl, hkeyed₂, rfl⟩ := insertTasks_working hopen hkeyed₁ htasks
  obtain ⟨_, _, hprepare₃, h⟩ := bind_eq_ok.mp h
  obtain ⟨-, rfl⟩ := (working_query hopen).mp hprepare₃
  obtain ⟨_, _, haudits, h⟩ := bind_eq_ok.mp h
  obtain ⟨_, rfl, hkeyed₃, rfl⟩ := insertAudits_working hopen hkeyed₂ haudits
  obtain ⟨receipt', _, hlift₂, h⟩ := bind_eq_ok.mp h
  obtain ⟨hreceipt, rfl⟩ := working_lift.mp hlift₂
  obtain ⟨_, _, hinsert, h⟩ := bind_eq_ok.mp h
  obtain ⟨row, hrow, _, rfl, hkeyed₄, rfl⟩ := insertReceipt_working hopen hkeyed₃ hinsert
  obtain ⟨hsame, rfl⟩ := Prod.mk.inj h
  obtain rfl := Except.ok.inj hsame
  have hlength : (elements batch "events").length = events.length := hjournaled.length_eq
  rw [hlength] at hreceipt
  exact ⟨⟨batch, _, events, tasks, (elements batch "audit").map auditRow, receipt', row⟩, rfl,
    rfl, rfl, ⟨(not_not.mp hexpected).symm, hjournaled, hstream, hversions, hqueued, rfl, hreceipt,
      hrow⟩, hsequences, rfl, hkeyed₄⟩

theorem findCommandDuplicate_reads (driver : Driver) (identity : CommandIdentity) :
    Statements (fun tables : Tables => tables) (findCommandDuplicate driver identity) := by
  refine (Statements.query _).bind fun rows => ?_
  split
  · exact .pure _
  · exact .ite (.pure _) (.throw _)
  · exact .throw _

theorem commitTransaction_working {driver : Driver} (hopen : c.opened = true)
    {batch reply : JsValue} (hkeyed : tables.Keyed)
    (h : commitTransaction runtime driver batch (working c tables) = (.ok reply, s)) :
    (∃ row, findCommandDuplicate driver (.ofBatch batch) (working c tables) =
        (.ok (some row), working c tables) ∧ receiptOfRow runtime driver row = .ok reply ∧
        s = working c tables) ∨
      findCommandDuplicate driver (.ofBatch batch) (working c tables) =
        (.ok none, working c tables) ∧ ∃ e : Entry, e.batch = batch ∧ e.receipt = reply ∧
        e.version = tables.maxVersion (streamKey batch).1 (streamKey batch).2 ∧
        e.Written runtime ∧
        e.events.map (·.sequence) = List.range' (tables.sequence + 1) e.events.length ∧
        s = working c (tables.extend e) ∧ (tables.extend e).Keyed := by
  obtain ⟨duplicate, t, hfind, h⟩ := bind_eq_ok.mp h
  obtain rfl := reads_working (findCommandDuplicate_reads driver _) hfind
  cases duplicate with
  | some row =>
    obtain ⟨hreceipt, rfl⟩ := working_lift.mp h
    exact .inl ⟨row, hfind, hreceipt, rfl⟩
  | none => exact .inr ⟨hfind, appendBatch_working hopen hkeyed h⟩

end Appending

structure Journal (runtime : JsonRuntime) (log : List Entry) (tables : Tables) : Prop where
  keyed : tables.Keyed
  written : ∀ e ∈ log, e.Written runtime
  events : tables.eventJournal = log.flatMap (·.events)
  receipts : tables.commandReceipts = log.map (·.receiptRow)
  outbox : tables.outbox = log.flatMap (·.tasks)
  audits : tables.auditFacts = log.flatMap (·.audits)
  sequence : tables.sequence = tables.eventJournal.length
  sequences : tables.eventJournal.map (·.sequence) = List.range' 1 tables.eventJournal.length
  contiguous : Contiguous EventRow.stream (·.aggregateVersion) tables.eventJournal
  segments : ∀ e ∈ log, ((ofStream EventRow.stream (streamKey e.batch) tables.eventJournal).drop
    e.version).take e.events.length = e.events

section Journal

variable {runtime : JsonRuntime} {log : List Entry} {tables : Tables}

theorem Journal.empty (runtime : JsonRuntime) : Journal runtime [] .empty where
  keyed := ⟨List.nodup_nil, List.nodup_nil, List.nodup_nil, List.nodup_nil, List.nodup_nil⟩
  written := List.forall_mem_nil _
  events := rfl
  receipts := rfl
  outbox := rfl
  audits := rfl
  sequence := rfl
  sequences := rfl
  contiguous := .nil
  segments := List.forall_mem_nil _

theorem maxVersion_eq (h : Contiguous EventRow.stream (·.aggregateVersion) tables.eventJournal)
    (key : Text × Text) : tables.maxVersion key.1 key.2 =
      (ofStream EventRow.stream key tables.eventJournal).length := by
  have hsame : tables.eventJournal.filter (fun row => row.inStream key.1 key.2) =
      ofStream EventRow.stream key tables.eventJournal :=
    List.filter_congr fun row _ => decide_eq_decide.mpr (Prod.ext_iff (x := row.stream)).symm
  rw [Tables.maxVersion, hsame, h.max_version key]

theorem take_drop_append {α : Type} {l new added : List α} {n : ℕ}
    (h : (l.drop n).take new.length = new) : ((l ++ added).drop n).take new.length = new := by
  have hlength : min new.length (l.length - n) = new.length := by
    rw [← List.length_drop, ← List.length_take, h]
  obtain hlt | hle := Nat.lt_or_ge l.length n
  · obtain rfl : new = [] := List.eq_nil_of_length_eq_zero (by omega)
    rfl
  · rw [List.drop_append_of_le_length hle, List.take_append_of_le_length, h]
    rw [List.length_drop]
    omega

theorem Journal.extend (h : Journal runtime log tables) {e : Entry}
    (hversion : e.version = tables.maxVersion (streamKey e.batch).1 (streamKey e.batch).2)
    (hwritten : e.Written runtime)
    (hsequences : e.events.map (·.sequence) =
      List.range' (tables.sequence + 1) e.events.length)
    (hkeyed : (tables.extend e).Keyed) : Journal runtime (log ++ [e]) (tables.extend e) := by
  rw [maxVersion_eq h.contiguous] at hversion
  constructor
  · exact hkeyed
  · exact List.forall_mem_append.mpr ⟨h.written, List.forall_mem_singleton.mpr hwritten⟩
  · simp [Tables.extend, h.events]
  · simp [Tables.extend, h.receipts]
  · simp [Tables.extend, h.outbox]
  · simp [Tables.extend, h.audits]
  · simp [Tables.extend, h.sequence]
  · change (tables.eventJournal ++ e.events).map _ =
      List.range' 1 (tables.eventJournal ++ e.events).length
    rw [List.map_append, h.sequences, hsequences, h.sequence, List.length_append,
      Nat.add_comm _ 1, List.range'_append_1]
  · exact h.contiguous.append hwritten.stream (hversion ▸ hwritten.versions)
  · refine List.forall_mem_append.mpr ⟨fun e' he' => ?_, List.forall_mem_singleton.mpr ?_⟩
    · change ((ofStream _ _ (tables.eventJournal ++ e.events)).drop _).take _ = _
      rw [ofStream_append]
      exact take_drop_append (h.segments e' he')
    · have hsegment : ((ofStream _ _ (tables.eventJournal ++ e.events ++ [])).drop
          _).take _ = _ := ofStream_segment hwritten.stream
      rwa [List.append_nil, ← hversion] at hsegment

theorem Journal.same (h : Journal runtime log tables) {after : Tables}
    (hsequence : after.sequence = tables.sequence)
    (hevents : after.eventJournal = tables.eventJournal)
    (hreceipts : after.commandReceipts = tables.commandReceipts)
    (houtbox : after.outbox = tables.outbox) (haudits : after.auditFacts = tables.auditFacts) :
    Journal runtime log after := by
  obtain ⟨sequence, events, receipts, outbox, inbox, audits, checkpoints⟩ := tables
  obtain ⟨_, _, _, _, _, _, _⟩ := after
  cases hsequence
  cases hevents
  cases hreceipts
  cases houtbox
  cases haudits
  exact { h with keyed := { h.keyed with } }

end Journal

section Runs

variable {ι : Type} {runtime : JsonRuntime} {driver : Driver} {host : WorkerHost}
  {log : List Entry}

def Adds (event : AuthorityEvent ι) (added : List Entry) : Prop :=
  added = [] ∨ ∃ e worker faults,
    added = [e] ∧ event = .finish worker (.commit e.batch) faults (.ok e.receipt)

theorem Committed.journal {event : AuthorityEvent ι} {before after : Tables}
    (h : Committed runtime driver event before after) (hjournal : Journal runtime log before) :
    ∃ added, Adds event added ∧ Journal runtime (log ++ added) after := by
  obtain ⟨-, rfl⟩ | ⟨worker, record, faults, reply, rfl, h⟩ | ⟨_, checkpoint, _, _, -, h⟩ |
    ⟨worker, batch, faults, reply, rfl, h⟩ := committed_cases h
  · exact ⟨[], .inl rfl, by rwa [List.append_nil]⟩
  · have houtside := h.keeps (inboxTransaction_statements driver record)
    refine ⟨[], .inl rfl, ?_⟩
    rw [List.append_nil]
    exact hjournal.same (congrArg Tables.sequence houtside :)
      (congrArg Tables.eventJournal houtside :) (congrArg Tables.commandReceipts houtside :)
      (congrArg Tables.outbox houtside :) (congrArg Tables.auditFacts houtside :)
  · have houtside := h.keeps (checkpointTransaction_statements checkpoint)
    refine ⟨[], .inl rfl, ?_⟩
    rw [List.append_nil]
    exact hjournal.same (congrArg Tables.sequence houtside :)
      (congrArg Tables.eventJournal houtside :) (congrArg Tables.commandReceipts houtside :)
      (congrArg Tables.outbox houtside :) (congrArg Tables.auditFacts houtside :)
  · obtain ⟨c, hopen, haction⟩ := h
    obtain ⟨row, -, -, hsame⟩ | ⟨-, e, rfl, rfl, hversion, hwritten, hsequences, hafter, hkeyed⟩ :=
      commitTransaction_working hopen hjournal.keyed haction
    · refine ⟨[], .inl rfl, ?_⟩
      rwa [List.append_nil, working_inj hsame]
    · refine ⟨[e], .inr ⟨e, worker, faults, rfl, rfl⟩, ?_⟩
      rw [working_inj hafter]
      exact hjournal.extend hversion hwritten hsequences hkeyed

theorem Journal.committed {tables : Tables} (h : Journal runtime log tables) :
    ∀ row ∈ tables.eventJournal, row.insertedBy = .commit := by
  intro row hrow
  rw [h.events] at hrow
  obtain ⟨e, he, hrow⟩ := List.mem_flatMap.mp hrow
  obtain ⟨event, -, hjournaled⟩ := forall₂_left (h.written e he).events.flip row hrow
  exact (Journaled.fields hjournaled).1

variable [DecidableEq ι] {a a' b : Authority ι} {event : AuthorityEvent ι}

theorem journal_of_run {events : List (AuthorityEvent ι)} (hlog : Journal runtime log a.committed)
    (hrun : Run (Step runtime driver host) a events a') :
    ∃ added, Journal runtime (log ++ added) a'.committed := by
  induction hrun with
  | nil => exact ⟨[], by rwa [List.append_nil]⟩
  | snoc _ hlast ih =>
    obtain ⟨added, hadded⟩ := ih
    obtain ⟨last, -, hjournal⟩ := hlast.committed.journal hadded
    exact ⟨added ++ last, by rwa [← List.append_assoc]⟩

omit [DecidableEq ι] in
theorem Authority.Fresh.journal (h : a.Fresh) : Journal runtime [] a.committed :=
  h.committed ▸ .empty runtime

theorem journal_integrity {events : List (AuthorityEvent ι)} (hfresh : a.Fresh)
    (hrun : Run (Step runtime driver host) a events a')
    (hstep : Step runtime driver host a' event b) :
    ∃ log added, Journal runtime log a'.committed ∧ Journal runtime (log ++ added) b.committed ∧
      Adds event added ∧ ∀ row ∈ b.committed.eventJournal, row.insertedBy = .commit := by
  obtain ⟨log, hlog⟩ := journal_of_run hfresh.journal hrun
  obtain ⟨added, hadds, hjournal⟩ := hstep.committed.journal hlog
  exact ⟨_, added, hlog, hjournal, hadds, hjournal.committed⟩

end Runs

section Samples

def sampleBatch : JsValue :=
  .record [(js "schemaVersion", .string (js "1.0.0")),
    (js "transactionId", .string (js "01890f3e-0000-7000-8000-000000000007")),
    (js "commandId", .string (js "01890f3e-0000-7000-8000-000000000001")),
    (js "idempotencyKey", .string (js "0123456789abcdef")),
    (js "effectScope", .string (js "Counter:run")), (js "payloadHash", .string zeroDigest.text),
    (js "stream", .record [(js "aggregateType", .string (js "Counter")),
      (js "aggregateId", .string (js "run")),
      (js "expectedVersion", .number (.ofInt 0 zero_exact))]),
    (js "events", Json.arrayOf [.record [(js "schemaVersion", .string (js "1.0.0")),
      (js "eventId", .string (js "01890f3e-0000-7000-8000-000000000005")),
      (js "eventType", .string (js "Counted")), (js "aggregateType", .string (js "Counter")),
      (js "aggregateId", .string (js "run")),
      (js "aggregateVersion", .number (.ofInt 1 one_exact)),
      (js "occurredAt", .string (js "2024-01-01T00:00:00.000Z")),
      (js "actor", .record [(js "actorType", .string (js "SYSTEM")),
        (js "actorId", .string (js "test"))]),
      (js "causationId", .string (js "01890f3e-0000-7000-8000-000000000001")),
      (js "correlationId", .string (js "01890f3e-0000-7000-8000-000000000003")),
      (js "payloadSchema", .record [
        (js "schemaId", .string (js "urn:aseos:schema:counted-payload:1.0.0")),
        (js "schemaVersion", .string (js "1.0.0")), (js "schemaHash", .string zeroDigest.text)]),
      (js "payloadHash", .string zeroDigest.text), (js "payload", .record [])]]),
    (js "outbox", Json.arrayOf []),
    (js "audit", Json.arrayOf [.record [
      (js "auditId", .string (js "01890f3e-0000-7000-8000-000000000006")),
      (js "occurredAt", .string (js "2024-01-01T00:00:00.000Z")),
      (js "action", .string (js "KERNEL_COMMAND_COMMITTED")),
      (js "payloadHash", .string zeroDigest.text)]]),
    (js "capturedAt", .string (js "2024-01-01T00:00:00.000Z"))]

def requestedCommit : AuthorityEvent Unit :=
  .request () ⟨.commit, sampleBatch⟩ .none (.ok (.waits (.commit sampleBatch)))

theorem requestedCommit_run : ∃ a, Run (Step sampleRuntime sampleDriver sampleHost) noAuthority
      [.start (), requestedCommit] a ∧
    ∃ receipt b, Step sampleRuntime sampleDriver sampleHost a
        (.finish () (.commit sampleBatch) .none (.ok receipt)) b ∧ receipt ≠ .null ∧
      (b.workers ()).opened = true ∧ (b.workers ()).pending = none ∧
      (b.workers ()).transaction = none := by
  refine ⟨_, openAuthority_run.snoc (.request rfl rfl (unlocked_alone _) (Prod.ext rfl rfl)), _, _,
    .finish rfl (unlocked_alone _) (Prod.ext rfl rfl), ?_, rfl, rfl, rfl⟩
  rintro ⟨⟩

theorem sample_integrity : ∃ log added, ∃ b : Authority Unit,
    Journal sampleRuntime (log ++ added) b.committed ∧
      ∀ row ∈ b.committed.eventJournal, row.insertedBy = .commit := by
  obtain ⟨a, hrun, receipt, b, hstep, -⟩ := requestedCommit_run
  obtain ⟨log, added, -, hjournal, -, hcommitted⟩ :=
    journal_integrity ⟨rfl, fun _ => rfl⟩ hrun hstep
  exact ⟨log, added, b, hjournal, hcommitted⟩

end Samples

end Aseos.Persistence
