import Aseos.Contracts.PersistenceRecords
import Aseos.Persistence.Authority
import Aseos.Persistence.StoredText
import Mathlib.Logic.Relator

namespace Aseos.Persistence

open Execution Kernel TransitionSystem

-- What the client checks before it sends the request.
def ValidInboxRecord (formats : Format → JsString → Bool) (record : JsValue) : Prop :=
  Schema.accepts formats Schema.inboxRecord record = true

def inboxRow (record : JsValue) : InboxRow where
  resultId := bound (text record "resultId")
  taskId := bound (text record "taskId")
  payloadHash := bound (text record "payloadHash")
  status := bound (text record "status")
  receivedAt := bound (text record "receivedAt")

def InboxRow.Holds (row : InboxRow) (record : JsValue) : Prop :=
  row.resultId = bound (text record "resultId") ∧ row.taskId = bound (text record "taskId") ∧
    row.payloadHash = bound (text record "payloadHash")

def InboxRow.Touches (row : InboxRow) (record : JsValue) : Prop :=
  row.resultId = bound (text record "resultId") ∨ row.taskId = bound (text record "taskId")

instance (row : InboxRow) (record : JsValue) : Decidable (row.Touches record) :=
  inferInstanceAs (Decidable (_ ∨ _))

def Tables.Stores (tables : Tables) (record : JsValue) : Prop :=
  ∃ row ∈ tables.inbox, row.Holds record

def Tables.Touches (tables : Tables) (record : JsValue) : Prop :=
  ∃ row ∈ tables.inbox, row.Touches record

theorem Tables.Stores.touches {tables : Tables} {record : JsValue} (h : tables.Stores record) :
    tables.Touches record := by
  obtain ⟨row, hrow, hholds⟩ := h
  exact ⟨row, hrow, .inl hholds.1⟩

theorem InboxRow.Holds.touches {row : InboxRow} {record : JsValue} (h : row.Holds record) :
    row.Touches record :=
  .inl h.1

def Paired (rows : List InboxRow) (resultId taskId : Text) : Prop :=
  ∃ row ∈ rows, row.resultId = resultId ∧ row.taskId = taskId

structure OneToOne (rows : List InboxRow) : Prop where
  results : (rows.map InboxRow.resultId).Nodup
  tasks : (rows.map InboxRow.taskId).Nodup

namespace OneToOne

variable {rows : List InboxRow}

theorem of_result (h : OneToOne rows) {r s : InboxRow} (hr : r ∈ rows) (hs : s ∈ rows)
    (hresult : r.resultId = s.resultId) : r = s :=
  List.inj_on_of_nodup_map h.results hr hs hresult

theorem of_task (h : OneToOne rows) {r s : InboxRow} (hr : r ∈ rows) (hs : s ∈ rows)
    (htask : r.taskId = s.taskId) : r = s :=
  List.inj_on_of_nodup_map h.tasks hr hs htask

theorem biUnique (h : OneToOne rows) : Relator.BiUnique (Paired rows) := by
  constructor
  · rintro _ _ _ ⟨r, hr, rfl, rfl⟩ ⟨s, hs, rfl, htask⟩
    rw [h.of_task hs hr htask]
  · rintro _ _ _ ⟨r, hr, rfl, rfl⟩ ⟨s, hs, hresult, rfl⟩
    rw [h.of_result hs hr hresult]

theorem touching (h : OneToOne rows) {record : JsValue} {row : InboxRow} (hrow : row ∈ rows)
    (hholds : row.Holds record) : rows.filter (fun r => r.Touches record) = [row] := by
  have honly : ∀ r ∈ rows, decide (r.Touches record) = decide (r = row) := by
    intro r hr
    refine decide_eq_decide.mpr ⟨fun htouches => ?_, fun hsame => hsame ▸ hholds.touches⟩
    obtain hresult | htask := htouches
    · exact h.of_result hr hrow (hresult.trans hholds.1.symm)
    · exact h.of_task hr hrow (htask.trans hholds.2.1.symm)
  rw [List.filter_congr honly, List.filter_eq, List.count_eq_one_of_mem h.results.of_map hrow]
  rfl

theorem snoc (h : OneToOne rows) {row : InboxRow}
    (hnew : ∀ r ∈ rows, r.resultId ≠ row.resultId ∧ r.taskId ≠ row.taskId) :
    OneToOne (rows ++ [row]) := by
  have hfresh {f : InboxRow → Text} (hf : (rows.map f).Nodup) (hne : ∀ r ∈ rows, f r ≠ f row) :
      ((rows ++ [row]).map f).Nodup := by
    rw [List.map_append, List.map_singleton]
    refine hf.append (List.nodup_singleton _) (List.disjoint_singleton.mpr fun hmem => ?_)
    obtain ⟨r, hr, hsame⟩ := List.mem_map.mp hmem
    exact hne r hr hsame
  exact ⟨hfresh h.results fun r hr => (hnew r hr).1, hfresh h.tasks fun r hr => (hnew r hr).2⟩

end OneToOne

section Records

variable {formats : Format → JsString → Bool}

structure InboxTexts (record : JsValue) : Prop where
  resultId : Legible (text record "resultId")
  taskId : Legible (text record "taskId")
  payloadHash : Legible (text record "payloadHash")
  hashLength : sqlLength (bound (text record "payloadHash")) = 64
  status : bound (text record "status") ∈ Tables.inboxStatuses

theorem text_of_property {record : JsValue} {key : String} {s : JsString}
    (h : record.property (js key) = .string s) : text record key = s := by
  rw [text, h]
  rfl

theorem ValidInboxRecord.texts {record : JsValue} (h : ValidInboxRecord formats record) :
    InboxTexts record := by
  have hmember {key : String} {schema : Schema} (hschema : (key, schema) ∈ _) :=
    Schema.closedObject_member h hschema List.not_mem_nil
  obtain ⟨resultId, hresult, hresultId⟩ :=
    Schema.string_of_pattern (hmember (.tail _ (.head _)) : Schema.accepts formats .uuidV7 _ = true)
  obtain ⟨taskId, htask, htaskId⟩ := Schema.string_of_pattern
    (hmember (.tail _ (.tail _ (.head _))) : Schema.accepts formats .uuidV7 _ = true)
  obtain ⟨payloadHash, hhash, hpayload⟩ := Schema.string_of_pattern
    (hmember (.tail _ (.tail _ (.tail _ (.head _)))) : Schema.accepts formats .sha256 _ = true)
  obtain ⟨status, hvalue, hstatus⟩ := Schema.string_of_enum
    (hmember (.tail _ (.tail _ (.tail _ (.tail _ (.head _))))))
  constructor
  · rw [text_of_property hresult]
    exact legible_uuidV7 hresultId
  · rw [text_of_property htask]
    exact legible_uuidV7 htaskId
  · rw [text_of_property hhash]
    exact legible_sha256 hpayload
  · rw [text_of_property hhash]
    exact sqlLength_sha256 hpayload
  · rw [text_of_property hvalue]
    exact List.mem_map_of_mem hstatus

structure InboxKept (formats : Format → JsString → Bool) (rows : List InboxRow) : Prop where
  oneToOne : OneToOne rows
  written : ∀ row ∈ rows, ∃ record, ValidInboxRecord formats record ∧ row = inboxRow record

theorem InboxKept.empty : InboxKept formats [] :=
  ⟨⟨List.nodup_nil, List.nodup_nil⟩, nofun⟩

variable (driver : Driver) {record : JsValue} {tables : Tables} {row : InboxRow}

theorem InboxKept.holds (h : InboxKept formats tables.inbox)
    (hvalid : ValidInboxRecord formats record) (hrow : row ∈ tables.inbox) :
    (driver.columnText row.resultId = text record "resultId" ∧
      driver.columnText row.taskId = text record "taskId" ∧
      driver.columnText row.payloadHash = text record "payloadHash") ↔ row.Holds record := by
  obtain ⟨first, hfirst, rfl⟩ := h.written row hrow
  have ht := hvalid.texts
  have hf := hfirst.texts
  rw [InboxRow.Holds, inboxRow, columnText_bound driver hf.resultId,
    columnText_bound driver hf.taskId, columnText_bound driver hf.payloadHash,
    bound_inj hf.resultId ht.resultId, bound_inj hf.taskId ht.taskId,
    bound_inj hf.payloadHash ht.payloadHash]

inductive InboxAnswer (driver : Driver) (record : JsValue) (before : Tables) :
    Except Failure JsValue → Tables → Prop
  | duplicate {first : InboxRow} : first ∈ before.inbox → first.Holds record →
      InboxAnswer driver record before (.ok (inboxReply driver first)) before
  | reused : before.Touches record → ¬before.Stores record →
      InboxAnswer driver record before (.error inboxReused) before
  | inserted : ¬before.Touches record →
      InboxAnswer driver record before (.ok record)
        { before with inbox := before.inbox ++ [inboxRow record] }

variable {c : Database}

theorem inboxTransaction_answer (hopen : c.opened = true) (h : InboxKept formats tables.inbox)
    (hvalid : ValidInboxRecord formats record) :
    ∃ result after, InboxAnswer driver record tables result after ∧
      inboxTransaction driver record (working c tables) = (result, working c after) := by
  unfold inboxTransaction
  rw [bind_of_ok (query_working hopen _)]
  generalize hfound : List.filter _ tables.inbox = found
  replace hfound : tables.inbox.filter (fun row => row.Touches record) = found := hfound
  by_cases hstored : tables.Stores record
  · obtain ⟨row, hrow, hholds⟩ := hstored
    refine ⟨_, _, .duplicate hrow hholds, ?_⟩
    obtain rfl := (h.oneToOne.touching hrow hholds).symm.trans hfound
    dsimp only
    rw [if_pos ((h.holds driver hvalid hrow).mpr hholds)]
    rfl
  by_cases htouched : tables.Touches record
  · refine ⟨_, _, .reused htouched hstored, ?_⟩
    cases found with
    | nil =>
      obtain ⟨row, hrow, htouches⟩ := htouched
      exact absurd (decide_eq_true htouches) (List.filter_eq_nil_iff.mp hfound row hrow)
    | cons row rows =>
      cases rows with
      | nil =>
        have hrow : row ∈ tables.inbox :=
          (List.mem_filter.mp (hfound ▸ List.mem_singleton_self row)).1
        dsimp only
        rw [if_neg fun hcolumns => hstored ⟨row, hrow, (h.holds driver hvalid hrow).mp hcolumns⟩]
        rfl
      | cons other rows => rfl
  · refine ⟨_, _, .inserted htouched, ?_⟩
    have hnone : tables.inbox.filter (fun row => row.Touches record) = [] :=
      List.filter_eq_nil_iff.mpr fun row hrow htouches =>
        htouched ⟨row, hrow, of_decide_eq_true htouches⟩
    have ht := hvalid.texts
    have hadmits : tables.admitsInbox (inboxRow record) :=
      ⟨ht.hashLength, ht.status, fun row hrow =>
        ⟨fun hsame => htouched ⟨row, hrow, .inl hsame⟩,
          fun hsame => htouched ⟨row, hrow, .inr hsame⟩⟩⟩
    obtain rfl := hnone.symm.trans hfound
    dsimp only
    exact bind_of_ok (insert_working hopen (Tables.insertInbox_eq_ok.mpr ⟨hadmits, rfl⟩))

variable {driver}

theorem InboxAnswer.kept {result : Except Failure JsValue} {after : Tables}
    (hanswer : InboxAnswer driver record tables result after) (h : InboxKept formats tables.inbox)
    (hvalid : ValidInboxRecord formats record) :
    InboxKept formats after.inbox ∧ tables.inbox <+: after.inbox := by
  cases hanswer with
  | duplicate => exact ⟨h, List.prefix_refl _⟩
  | reused => exact ⟨h, List.prefix_refl _⟩
  | inserted htouched =>
    refine ⟨⟨h.oneToOne.snoc fun row hrow => ?_, ?_⟩, List.prefix_append _ _⟩
    · exact ⟨fun hsame => htouched ⟨row, hrow, .inl hsame⟩,
        fun hsame => htouched ⟨row, hrow, .inr hsame⟩⟩
    · intro row hrow
      obtain hrow | hrow := List.mem_append.mp hrow
      · exact h.written row hrow
      · exact ⟨record, hvalid, List.mem_singleton.mp hrow⟩

theorem InboxAnswer.of_ok {reply : JsValue} {after : Tables}
    (h : InboxAnswer driver record tables (.ok reply) after) :
    (tables.Stores record ∧ after = tables ∧ text reply "status" = js "DUPLICATE") ∨
      ¬tables.Touches record ∧ reply = record ∧
        after = { tables with inbox := tables.inbox ++ [inboxRow record] } := by
  cases h with
  | duplicate hrow hholds => exact .inl ⟨⟨_, hrow, hholds⟩, rfl, rfl⟩
  | inserted htouched => exact .inr ⟨htouched, rfl, rfl⟩

theorem InboxAnswer.of_error {e : Failure} {after : Tables}
    (h : InboxAnswer driver record tables (.error e) after) :
    e = inboxReused ∧ tables.Touches record ∧ ¬tables.Stores record := by
  cases h with
  | reused htouched hstored => exact ⟨rfl, htouched, hstored⟩

end Records

section Requests

variable {runtime : JsonRuntime} {driver : Driver} {host : WorkerHost}
  {formats : Format → JsString → Bool} {record : JsValue} {c : Database} {faults : Faults}
  {result : Except Failure Phase} {s : Session}

theorem handleReads_inbox (hvalid : ValidInboxRecord formats record) :
    handleReads runtime driver host ⟨.recordInbox, record⟩ =
      Sql.runTransaction (inboxTransaction driver record) >>=
        fun reply => pure (.replied reply) := by
  obtain ⟨plain, props, rfl⟩ := Schema.object_of_closedObject hvalid
  rfl

theorem handleReads_inbox_free (hfree : c.Free) (h : InboxKept formats c.committed.inbox)
    (hvalid : ValidInboxRecord formats record) :
    ∃ answer after, InboxAnswer driver record c.committed answer after ∧
      handleReads runtime driver host ⟨.recordInbox, record⟩ ⟨c, .none⟩ =
        (answer.map .replied, ⟨{ c with committed := after }, .none⟩) := by
  obtain ⟨answer, after, hanswer, haction⟩ :=
    inboxTransaction_answer driver hfree.opened h hvalid
  refine ⟨answer, after, hanswer, ?_⟩
  rw [handleReads_inbox hvalid]
  cases answer with
  | ok reply =>
    rw [bind_of_ok (runTransaction_ok hfree haction), ← hfree.transaction]
    rfl
  | error e =>
    have hsame : after = c.committed := by
      cases hanswer with
      | reused => rfl
    rw [bind_of_error (runTransaction_error hfree haction), hsame]
    rfl

theorem handleReads_inbox_result (h : InboxKept formats c.committed.inbox)
    (hvalid : ValidInboxRecord formats record)
    (hresult : handleReads runtime driver host ⟨.recordInbox, record⟩ ⟨c, faults⟩ = (result, s)) :
    (∃ reply, result = .ok (.replied reply) ∧
        InboxAnswer driver record c.committed (.ok reply) s.connection.committed) ∨
      ∃ e, result = .error e ∧ s.connection.committed = c.committed ∧
        ∀ message, e = .internal .idempotencyConflict message →
          InboxAnswer driver record c.committed (.error e) c.committed := by
  rw [handleReads_inbox hvalid] at hresult
  have hstatements := inboxTransaction_statements driver record
  have hdetermined {d : Database} (hopen : d.opened = true) {answer : Except Failure JsValue}
      {t : Session}
      (haction : inboxTransaction driver record (working d c.committed) = (answer, t)) :
      ∃ after, InboxAnswer driver record c.committed answer after ∧ t = working d after := by
    obtain ⟨answer', after, hanswer, haction'⟩ := inboxTransaction_answer driver hopen h hvalid
    obtain ⟨rfl, rfl⟩ := Prod.mk.inj (haction.symm.trans haction')
    exact ⟨after, hanswer, rfl⟩
  cases result with
  | ok phase =>
    obtain ⟨reply, t, hrun, hreturn⟩ := bind_eq_ok.mp hresult
    obtain ⟨hphase, rfl⟩ := Prod.mk.inj hreturn
    obtain ⟨hfree, tables, haction, hconnection⟩ := runTransaction_eq_ok hstatements hrun
    obtain ⟨after, hanswer, hworking⟩ := hdetermined hfree.opened haction
    refine .inl ⟨reply, hphase.symm, ?_⟩
    rw [hconnection, working_inj hworking]
    exact hanswer
  | error e =>
    obtain hrun | ⟨_, t, -, hreturn⟩ := bind_eq_error.mp hresult
    · refine .inr ⟨e, rfl, runTransaction_failed hstatements hrun, ?_⟩
      rintro message rfl
      obtain ⟨hopen, t, haction⟩ := runTransaction_internal hstatements hrun nofun
      obtain ⟨after, hanswer, -⟩ := hdetermined hopen haction
      cases hanswer with
      | reused htouched hstored => exact .reused htouched hstored
    · cases hreturn

end Requests

section Runs

variable {ι : Type}

namespace AuthorityEvent

def RecordsValid (formats : Format → JsString → Bool) : AuthorityEvent ι → Prop
  | .request _ ⟨.recordInbox, record⟩ _ _ => ValidInboxRecord formats record
  | _ => True

def RecordsOnly : AuthorityEvent ι → Prop
  | .request _ ⟨kind, _⟩ faults _ => kind = .recordInbox ∧ faults = .none
  | .finish .. => False
  | .start _ | .terminate _ => True

end AuthorityEvent

-- The first record with a result id or a task id is stored; `served` says that no failure of
-- SQLite and no other transaction keeps the request from its own.
structure FirstWriterWins (record : JsValue) (served : Prop) (result : Except Failure Phase)
    (before after : Tables) : Prop where
  -- a first record bears its own status in the reply
  answered (phase : Phase) : result = .ok phase → ∃ reply, phase = .replied reply ∧
    (text reply "status" = js "DUPLICATE" ↔ before.Stores record ∨
      ¬before.Touches record ∧ text record "status" = js "DUPLICATE")
  duplicate (phase : Phase) : result = .ok phase → before.Stores record → after = before
  inserted (phase : Phase) : result = .ok phase → ¬before.Stores record →
    ¬before.Touches record ∧ phase = .replied record ∧
      after = { before with inbox := before.inbox ++ [inboxRow record] }
  failed (e : Failure) : result = .error e → after = before
  reused (message : String) : result = .error (.internal .idempotencyConflict message) →
    before.Touches record ∧ ¬before.Stores record
  conflict : served → ((∃ e, result = .error e ∧ e.code = .idempotencyConflict) ↔
    before.Touches record ∧ ¬before.Stores record)
  accepted : served → before.Stores record ∨ ¬before.Touches record → ∃ phase, result = .ok phase

section Steps

variable {runtime : JsonRuntime} {driver : Driver} {host : WorkerHost}
  {formats : Format → JsString → Bool}

theorem Committed.inbox {event : AuthorityEvent ι} {before after : Tables}
    (h : Committed runtime driver event before after) (hkept : InboxKept formats before.inbox)
    (hvalid : event.RecordsValid formats) :
    InboxKept formats after.inbox ∧ before.inbox <+: after.inbox := by
  have hsame (hinbox : after.inbox = before.inbox) :
      InboxKept formats after.inbox ∧ before.inbox <+: after.inbox := by
    rw [hinbox]
    exact ⟨hkept, List.prefix_refl _⟩
  obtain ⟨-, rfl⟩ | ⟨worker, record, faults, reply, rfl, h⟩ | ⟨_, checkpoint, _, _, -, h⟩ |
    ⟨_, batch, _, _, -, h⟩ := committed_cases h
  · exact hsame rfl
  · obtain ⟨c, hopen, haction⟩ := h
    obtain ⟨answer, tables, hanswer, hresult⟩ :=
      inboxTransaction_answer driver hopen hkept hvalid
    obtain ⟨-, hworking⟩ := Prod.mk.inj (haction.symm.trans hresult)
    rw [working_inj hworking]
    exact hanswer.kept hkept hvalid
  · have houtside := h.keeps (checkpointTransaction_statements checkpoint)
    exact hsame (congrArg Tables.inbox houtside :)
  · have houtside := h.keeps (commitTransaction_statements runtime driver batch)
    exact hsame (congrArg Prod.fst houtside :)

variable [DecidableEq ι] {a b : Authority ι} {event : AuthorityEvent ι}

theorem Step.records_idle (h : Step runtime driver host a event b)
    (hkept : InboxKept formats a.committed.inbox) (hvalid : event.RecordsValid formats)
    (honly : event.RecordsOnly) (hidle : a.Idle) : b.Idle := by
  have hupdate {worker : ι} {state : WorkerState} {workers : ι → WorkerState}
      (hworkers : workers = Function.update a.workers worker state)
      (hstate : state.transaction = none) (other : ι) : (workers other).transaction = none := by
    rw [hworkers]
    by_cases hother : other = worker
    · rw [hother, Function.update_self, hstate]
    · rw [Function.update_of_ne hother, hidle other]
  cases h with
  | start => exact hupdate rfl rfl
  | terminate => exact hupdate rfl rfl
  | finish => exact honly.elim
  | @request worker locked request faults result s hopened _ hlocked hresult =>
    obtain ⟨kind, payload⟩ := request
    obtain ⟨rfl, rfl⟩ := honly
    have hfree := hidle.free hopened hlocked
    obtain ⟨answer, after, -, hanswer⟩ :=
      @handleReads_inbox_free runtime driver host _ _ _ hfree hkept hvalid
    obtain ⟨-, rfl⟩ := Prod.mk.inj (hresult.symm.trans hanswer)
    exact hupdate rfl hfree.transaction

theorem Step.first_writer {worker : ι} {record : JsValue} {faults : Faults}
    {result : Except Failure Phase}
    (h : Step runtime driver host a (.request worker ⟨.recordInbox, record⟩ faults result) b)
    (hkept : InboxKept formats a.committed.inbox) (hvalid : ValidInboxRecord formats record) :
    FirstWriterWins record (faults = .none ∧ a.Idle) result a.committed b.committed := by
  cases h with
  | @request _ locked _ _ _ s hopened _ hlocked hresult =>
  have hserved (hnone : faults = .none ∧ a.Idle) : ∃ answer after,
      InboxAnswer driver record a.committed answer after ∧ result = answer.map .replied := by
    obtain ⟨rfl, hidle⟩ := hnone
    obtain ⟨answer, after, hanswer, hfree⟩ :=
      @handleReads_inbox_free runtime driver host _ _ _ (hidle.free hopened hlocked) hkept hvalid
    exact ⟨answer, after, hanswer, (Prod.mk.inj (hresult.symm.trans hfree)).1⟩
  obtain ⟨reply, rfl, hanswer⟩ | ⟨e, rfl, hsame, hreused⟩ :=
    handleReads_inbox_result hkept hvalid hresult
  · obtain ⟨hstored, hsame, hstatus⟩ | ⟨htouched, hreply, hafter⟩ := hanswer.of_ok
    · refine ⟨fun phase hphase => ⟨reply, (Except.ok.inj hphase).symm, ?_⟩, fun _ _ _ => hsame,
        fun _ _ hnot => absurd hstored hnot, nofun, nofun, fun _ => ?_, fun _ _ => ⟨_, rfl⟩⟩
      · exact iff_of_true hstatus (.inl hstored)
      · exact iff_of_false nofun fun hconflict => hconflict.2 hstored
    · have hnot (hstored : a.committed.Stores record) : False := htouched hstored.touches
      subst hreply
      refine ⟨fun phase hphase => ⟨reply, (Except.ok.inj hphase).symm, ?_⟩,
        fun _ _ hstored => (hnot hstored).elim,
        fun phase hphase _ => ⟨htouched, (Except.ok.inj hphase).symm, hafter⟩, nofun, nofun,
        fun _ => ?_, fun _ _ => ⟨_, rfl⟩⟩
      · exact ⟨fun hstatus => .inr ⟨htouched, hstatus⟩,
          fun hcase => hcase.elim (fun hstored => (hnot hstored).elim) And.right⟩
      · exact iff_of_false nofun fun hconflict => htouched hconflict.1
  · have hconflict (hnone : faults = .none ∧ a.Idle) :
        e = inboxReused ∧ a.committed.Touches record ∧ ¬a.committed.Stores record := by
      obtain ⟨answer, after, hanswer, hmap⟩ := hserved hnone
      cases answer with
      | ok reply => cases hmap
      | error e' =>
        obtain rfl := Except.error.inj hmap
        exact hanswer.of_error
    refine ⟨nofun, nofun, nofun, fun _ _ => hsame, fun message he => ?_, fun hnone => ?_,
      fun hnone hcase => ?_⟩
    · exact (hreused message (Except.error.inj he)).of_error.2
    · obtain ⟨rfl, hstate⟩ := hconflict hnone
      exact iff_of_true ⟨_, rfl, rfl⟩ hstate
    · obtain ⟨-, htouched, hstored⟩ := hconflict hnone
      exact (hcase.elim hstored fun hnot => hnot htouched).elim

theorem inbox_kept {events : List (AuthorityEvent ι)} (hfresh : a.Fresh)
    (hrun : Run (Step runtime driver host) a events b)
    (hvalid : ∀ e ∈ events, e.RecordsValid formats) :
    InboxKept formats b.committed.inbox ∧ ((∀ e ∈ events, e.RecordsOnly) → b.Idle) := by
  induction hrun with
  | nil =>
    rw [hfresh.committed]
    exact ⟨.empty, fun _ => hfresh.idle⟩
  | snoc _ hlast ih =>
    obtain ⟨hbefore, hlabel⟩ := List.forall_mem_append.mp hvalid
    have hlabel := List.forall_mem_singleton.mp hlabel
    obtain ⟨hkept, hidle⟩ := ih hbefore
    refine ⟨(hlast.committed.inbox hkept hlabel).1, fun honly => ?_⟩
    obtain ⟨honlyBefore, honlyLabel⟩ := List.forall_mem_append.mp honly
    exact hlast.records_idle hkept hlabel (List.forall_mem_singleton.mp honlyLabel)
      (hidle honlyBefore)

theorem inbox_first_writer_wins {a' : Authority ι} {events : List (AuthorityEvent ι)}
    (hfresh : a.Fresh) (hrun : Run (Step runtime driver host) a events a')
    (hstep : Step runtime driver host a' event b)
    (hvalid : ∀ e ∈ events ++ [event], e.RecordsValid formats) :
    OneToOne b.committed.inbox ∧ Relator.BiUnique (Paired b.committed.inbox) ∧
      a'.committed.inbox <+: b.committed.inbox ∧
      ((∀ e ∈ events, e.RecordsOnly) → a'.Idle) ∧
      ∀ worker record faults result, event = .request worker ⟨.recordInbox, record⟩ faults result →
        FirstWriterWins record (faults = .none ∧ a'.Idle) result a'.committed b.committed := by
  obtain ⟨hbefore, hevent⟩ := List.forall_mem_append.mp hvalid
  have hevent := List.forall_mem_singleton.mp hevent
  obtain ⟨hkept, hidle⟩ := inbox_kept hfresh hrun hbefore
  obtain ⟨hafter, hprefix⟩ := hstep.committed.inbox hkept hevent
  refine ⟨hafter.oneToOne, hafter.oneToOne.biUnique, hprefix, hidle, ?_⟩
  rintro worker record faults result rfl
  exact hstep.first_writer hkept hevent

end Steps

section Samples

def sampleInboxRecord (status : String) : JsValue :=
  namedRecord [("schemaVersion", .string (js "1.0.0")),
    ("resultId", .string (js "00000000-0000-7000-8000-000000000009")),
    ("taskId", .string (js "00000000-0000-7000-8000-000000000004")),
    ("payloadHash", .string (List.replicate 64 49)), ("status", .string (js status)),
    ("receivedAt", .string (js "2026-08-31T00:00:00.000Z"))]

def clashingInboxRecord : JsValue :=
  namedRecord [("schemaVersion", .string (js "1.0.0")),
    ("resultId", .string (js "00000000-0000-7000-8000-000000000009")),
    ("taskId", .string (js "00000000-0000-7000-8000-000000000005")),
    ("payloadHash", .string (List.replicate 64 49)), ("status", .string (js "ACCEPTED")),
    ("receivedAt", .string (js "2026-08-31T00:00:00.000Z"))]

def sampleRecording (record : JsValue) (result : Except Failure Phase) : AuthorityEvent Unit :=
  .request () ⟨.recordInbox, record⟩ .none result

noncomputable def afterRecording (a : Authority Unit) (record : JsValue) : Authority Unit :=
  a.after () (handleReads sampleRuntime sampleDriver sampleHost ⟨.recordInbox, record⟩
    ⟨a.database () false, .none⟩).2.connection none

theorem recording_step {a : Authority Unit} {record : JsValue} {result : Except Failure Phase}
    (hopened : (a.workers ()).opened = true) (hpending : (a.workers ()).pending = none)
    (hresult : (handleReads sampleRuntime sampleDriver sampleHost ⟨.recordInbox, record⟩
      ⟨a.database () false, .none⟩).1 = result)
    (hanswered : pendingOf result = none) :
    Step sampleRuntime sampleDriver sampleHost a (sampleRecording record result)
      (afterRecording a record) := by
  have hstep := Step.request hopened hpending (unlocked_alone a) (Prod.ext hresult rfl)
  rwa [hanswered] at hstep

theorem first_record_answered_duplicate :
    let record := sampleInboxRecord "DUPLICATE"
    ValidInboxRecord (fun _ _ => true) record ∧ ¬openAuthority.committed.Stores record ∧
      text record "status" = js "DUPLICATE" ∧
      ∃ b, Run (Step sampleRuntime sampleDriver sampleHost) noAuthority
        [.start (), sampleRecording record (.ok (.replied record))] b := by
  refine ⟨?_, ?_, rfl, _, openAuthority_run.snoc (recording_step rfl rfl rfl rfl)⟩
  · unfold ValidInboxRecord
    decide +kernel
  · rintro ⟨row, hrow, -⟩
    cases hrow

theorem sample_first_writer :
    let record := sampleInboxRecord "ACCEPTED"
    let first := afterRecording openAuthority record
    let second := afterRecording first record
    ∃ reply e, Run (Step sampleRuntime sampleDriver sampleHost) noAuthority
        [.start (), sampleRecording record (.ok (.replied record)),
          sampleRecording record (.ok (.replied reply)),
          sampleRecording clashingInboxRecord (.error e)]
        (afterRecording second clashingInboxRecord) ∧
      text reply "status" = js "DUPLICATE" ∧ second.committed = first.committed ∧
      e.code = .idempotencyConflict ∧
      (afterRecording second clashingInboxRecord).committed = second.committed ∧
      OneToOne (afterRecording second clashingInboxRecord).committed.inbox := by
  intro record first second
  have hrecord : ValidInboxRecord (fun _ _ => true) record := by
    unfold ValidInboxRecord
    decide +kernel
  have hclash : ValidInboxRecord (fun _ _ => true) clashingInboxRecord := by
    unfold ValidInboxRecord
    decide +kernel
  have hfirst : Step sampleRuntime sampleDriver sampleHost openAuthority
      (sampleRecording record (.ok (.replied record))) first := recording_step rfl rfl rfl rfl
  have hsecond : Step sampleRuntime sampleDriver sampleHost first (sampleRecording record
      (.ok (.replied (inboxReply sampleDriver (inboxRow record))))) second :=
    recording_step rfl rfl rfl rfl
  have hthird : Step sampleRuntime sampleDriver sampleHost second
      (sampleRecording clashingInboxRecord (.error inboxReused))
      (afterRecording second clashingInboxRecord) := recording_step rfl rfl rfl rfl
  have hrun := (openAuthority_run.snoc hfirst).snoc hsecond
  have hvalid : ∀ e ∈ [.start (), sampleRecording record (.ok (.replied record))] ++
      [sampleRecording record (.ok (.replied (inboxReply sampleDriver (inboxRow record))))],
      e.RecordsValid fun _ _ => true :=
    List.forall_mem_cons.mpr ⟨trivial, List.forall_mem_cons.mpr
      ⟨hrecord, List.forall_mem_singleton.mpr hrecord⟩⟩
  have hvalid' := List.forall_mem_append.mpr ⟨hvalid, List.forall_mem_singleton.mpr
    (show (sampleRecording clashingInboxRecord (.error inboxReused)).RecordsValid _ from hclash)⟩
  have hstored : first.committed.Stores record := ⟨inboxRow record, .head _, rfl, rfl, rfl⟩
  obtain ⟨-, -, -, -, hrepeated⟩ := inbox_first_writer_wins ⟨rfl, fun _ => rfl⟩
    (openAuthority_run.snoc hfirst) hsecond hvalid
  obtain ⟨honeToOne, -, -, -, hclashed⟩ :=
    inbox_first_writer_wins ⟨rfl, fun _ => rfl⟩ hrun hthird hvalid'
  have hrepeated := hrepeated () record .none _ rfl
  have hclashed := hclashed () clashingInboxRecord .none _ rfl
  obtain ⟨_, hreply, hstatus⟩ := hrepeated.answered _ rfl
  obtain rfl := Phase.replied.inj hreply
  exact ⟨_, _, hrun.snoc hthird, hstatus.mpr (.inl hstored), hrepeated.duplicate _ rfl hstored,
    rfl, hclashed.failed _ rfl, honeToOne⟩

end Samples

end Runs

end Aseos.Persistence
