import Aseos.Persistence.CommittedStream

namespace Aseos.Persistence

open Execution JsValue Kernel StreamLog

section Members

variable {formats : Format → JsString → Bool} {v : JsValue}

theorem closedObject_isData {schemas : List (String × Schema)} {optional : List String}
    (hdata : IsData v)
    (h : Schema.accepts formats (Schema.closedObject schemas optional) v = true) {key : String}
    {schema : Schema} (hschema : (key, schema) ∈ schemas) (hrequired : key ∉ optional) :
    IsData (v.property (js key)) := by
  refine (property_isData hdata (js key)).resolve_left ?_
  obtain ⟨plain, props, rfl⟩ := Schema.object_of_closedObject h
  have hkey : key ∈ (schemas.map Prod.fst).filter (· ∉ optional) :=
    List.mem_filter.mpr ⟨List.mem_map.mpr ⟨_, hschema, rfl⟩, by simpa using hrequired⟩
  exact (accepts_member h hkey hschema).2

theorem elements_accepted {keywords : List Schema} {schema : Schema} {key : String}
    (hdata : IsData v) (h : Schema.accepts formats (.all keywords) (v.property (js key)) = true)
    (hitems : .items schema ∈ keywords) :
    ∀ element ∈ elements v key, Schema.accepts formats schema element = true := by
  have haccepts := accepts_all.mp h _ hitems
  intro element helement
  rw [elements] at helement
  cases hproperty : v.property (js key) with
  | array slots extra =>
    have hslots := property_isData hdata (js key)
    rw [hproperty] at helement haccepts hslots
    obtain ⟨s, hs, rfl⟩ := List.mem_map.mp helement
    have hkind := ((isData_array.mp (hslots.resolve_left (by simp))).2 s hs).1
    rw [Schema.accepts, Schema.onArray, List.all_eq_true] at haccepts
    have hvalue := haccepts _ (List.mem_map_of_mem hs)
    rwa [Slots.value, if_neg (by rw [hkind]; decide)] at hvalue
  | _ =>
    rw [hproperty] at helement
    cases helement

theorem sha256_text {key : String}
    (h : Schema.sha256.accepts formats (v.property (js key)) = true) :
    v.property (js key) = .string (text v key) ∧ Pattern.sha256.test (text v key) = true := by
  obtain ⟨s, hs, hpattern⟩ := Schema.string_of_pattern h
  rw [text, hs]
  exact ⟨rfl, hpattern⟩

end Members

section Appending

variable {runtime : JsonRuntime} {formats : Format → JsString → Bool} {batch : JsValue}

structure Accepted (formats : Format → JsString → Bool) (batch : JsValue) : Prop where
  data : IsData batch
  accepts : Schema.journalAppendBatch.accepts formats batch = true

section Parts

variable (h : Accepted formats batch)

include h

theorem Accepted.member (key : String) (schema : Schema)
    (hschema : (key, schema) ∈ [("schemaVersion", Schema.constText "1.0.0"),
      ("transactionId", Schema.uuidV7), ("commandId", Schema.uuidV7),
      ("idempotencyKey", Schema.idempotencyKey), ("effectScope", Schema.boundedString 1 512),
      ("payloadHash", Schema.sha256), ("stream", Schema.journalStream),
      ("events", Schema.arrayBetween 1 1000 Schema.domainEventEnvelope),
      ("outbox", .all [.type .array, .maxItems 1000, .items Schema.sideEffectTaskEnvelope]),
      ("audit", Schema.arrayBetween 1 1000 Schema.auditEntry),
      ("capturedAt", Schema.dateTime)]) :
    IsData (batch.property (js key)) ∧
      schema.accepts formats (batch.property (js key)) = true :=
  ⟨closedObject_isData h.data h.accepts hschema List.not_mem_nil,
    Schema.closedObject_member h.accepts hschema List.not_mem_nil⟩

theorem Accepted.stream : IsData (stream batch) ∧
    Schema.journalStream.accepts formats (stream batch) = true :=
  h.member "stream" _ (by simp)

theorem Accepted.events : ∀ event ∈ elements batch "events",
    IsData event ∧ Schema.domainEventEnvelope.accepts formats event = true := by
  obtain ⟨-, haccepts⟩ :=
    h.member "events" (Schema.arrayBetween 1 1000 Schema.domainEventEnvelope) (by simp)
  exact fun event hevent => ⟨elements_isData h.data "events" event hevent,
    elements_accepted h.data haccepts (by simp) event hevent⟩

theorem Accepted.tasks : ∀ task ∈ elements batch "outbox",
    IsData task ∧ Schema.sideEffectTaskEnvelope.accepts formats task = true := by
  obtain ⟨-, haccepts⟩ := h.member "outbox"
    (.all [.type .array, .maxItems 1000, .items Schema.sideEffectTaskEnvelope]) (by simp)
  exact fun task htask => ⟨elements_isData h.data "outbox" task htask,
    elements_accepted h.data haccepts (by simp) task htask⟩

theorem Accepted.audits : ∀ audit ∈ elements batch "audit",
    IsData audit ∧ Schema.auditEntry.accepts formats audit = true := by
  obtain ⟨-, haccepts⟩ :=
    h.member "audit" (Schema.arrayBetween 1 1000 Schema.auditEntry) (by simp)
  exact fun audit haudit => ⟨elements_isData h.data "audit" audit haudit,
    elements_accepted h.data haccepts (by simp) audit haudit⟩

end Parts

theorem members_isData {envelopes : List JsValue} {key : String}
    (h : ∀ envelope ∈ envelopes, IsData (envelope.property (js key))) :
    IsData (members envelopes key) := by
  rw [members, isData_array]
  exact ⟨rfl, List.forall_mem_map.mpr fun envelope henvelope => ⟨rfl, h envelope henvelope⟩⟩

theorem integer_isData {n : ℕ} (h : (n : ℤ) ≤ maxSafeInteger) : IsData (.number (integer n)) := by
  have hexact : |(n : ℤ)| < 2 ^ 53 := by
    rw [abs_of_nonneg (Int.natCast_nonneg n)]
    exact lt_of_le_of_lt h (by decide)
  rw [integer_eq hexact]
  exact isData_finite _

theorem receiptBase_isData (h : Accepted formats batch) {version : ℕ}
    (hversion : (version : ℤ) ≤ maxSafeInteger) : ∀ m ∈ receiptBase batch version, IsData m.2 := by
  have hstream (key : String) (schema : Schema) (hschema : (key, schema) ∈ _) :=
    closedObject_isData h.stream.1 h.stream.2 hschema List.not_mem_nil
  have hevents := members_isData fun event hevent =>
    (property_isData (h.events event hevent).1 (js "eventId")).resolve_left
      (envelope_member (h.events event hevent).2 (by decide)
        (by simp [Schema.domainEventEnvelopeMembers] : ("eventId", Schema.uuidV7) ∈ _)).2
  have htasks := members_isData fun task htask =>
    closedObject_isData (h.tasks task htask).1 (h.tasks task htask).2
      (by simp : ("taskId", Schema.uuidV7) ∈ _) (by decide)
  have haudits := members_isData fun audit haudit =>
    closedObject_isData (h.audits audit haudit).1 (h.audits audit haudit).2
      (by simp : ("auditId", Schema.uuidV7) ∈ _) List.not_mem_nil
  rw [receiptBase]
  simp only [List.forall_mem_cons, List.not_mem_nil, false_implies, implies_true, and_true]
  exact ⟨isData_string _, (h.member "transactionId" Schema.uuidV7 (by simp)).1,
    (h.member "commandId" Schema.uuidV7 (by simp)).1,
    hstream "aggregateType" Schema.canonicalTypeName (by simp),
    hstream "aggregateId" (Schema.boundedString 1 256) (by simp), integer_isData hversion, hevents,
    htasks, haudits, (h.member "capturedAt" Schema.dateTime (by simp)).1⟩

theorem digest_of_isData {v : JsValue} (h : IsData v) :
    ∃ digest, canonicalJsonSha256 runtime.toHost v = .ok digest := by
  obtain ⟨canonical, hcanonical⟩ := CanonicalJson.canonicalize_of_isJson h.1
  refine ⟨runtime.sha256 canonical, ?_⟩
  rw [canonicalJsonSha256, show canonicalJson runtime.toHost v = .ok canonical from hcanonical]
  rfl

theorem receiptOf_of_accepted (h : Accepted formats batch) {version : ℕ}
    (hversion : (version : ℤ) ≤ maxSafeInteger) :
    ∃ receipt receiptJson, receiptOf runtime batch version = .ok receipt ∧
      canonicalJson runtime.toHost receipt = .ok receiptJson ∧
      Pattern.sha256.test (text receipt "receiptHash") = true := by
  have hbase := receiptBase_isData h hversion
  have hnames : ((receiptBase batch version).map Prod.fst).Nodup := by
    rw [receiptBase]
    simp only [List.map_cons, List.map_nil]
    decide
  obtain ⟨digest, hdigest⟩ := @digest_of_isData runtime _ (isData_record.mpr ⟨hnames, hbase⟩)
  have hreceipt : IsData
      (.record (receiptBase batch version ++ [(js "receiptHash", .string digest.text)])) := by
    refine isData_record.mpr ⟨?_, List.forall_mem_append.mpr
      ⟨hbase, List.forall_mem_singleton.mpr (isData_string _)⟩⟩
    rw [receiptBase]
    simp only [List.cons_append, List.nil_append, List.map_cons, List.map_nil]
    decide
  obtain ⟨receiptJson, hjson⟩ := CanonicalJson.canonicalize_of_isJson hreceipt.1
  refine ⟨_, receiptJson, ?_, hjson, digest.hex⟩
  rw [receiptOf, hdigest]
  rfl

variable {c : Database} {tables : Tables} {event audit : JsValue} {version : ℕ}

theorem eventRow_of_isData (hdata : IsData event)
    (hpayload : IsData (event.property (js "payload"))) :
    ∃ row, eventRow runtime event .commit = .ok row := by
  obtain ⟨payloadJson, hpayloadJson⟩ := CanonicalJson.canonicalize_of_isJson hpayload.1
  obtain ⟨eventJson, heventJson⟩ := CanonicalJson.canonicalize_of_isJson hdata.1
  unfold eventRow
  rw [show canonicalJson runtime.toHost (event.property (js "payload")) = .ok payloadJson from
    hpayloadJson, show canonicalJson runtime.toHost event = .ok eventJson from heventJson]
  exact ⟨_, rfl⟩

theorem eventRow_fields {row : EventRow} (h : eventRow runtime event .commit = .ok row) :
    row.eventId = bound (text event "eventId") ∧
      row.stream = (bound (text event "aggregateType"), bound (text event "aggregateId")) ∧
      row.aggregateVersion = natural event "aggregateVersion" ∧
      row.payloadSchemaHash = bound (text (event.property (js "payloadSchema")) "schemaHash") ∧
      row.payloadHash = bound (text event "payloadHash") := by
  unfold eventRow at h
  obtain ⟨payloadJson, -, h⟩ := Except.bind_eq_ok.mp h
  obtain ⟨eventJson, -, h⟩ := Except.bind_eq_ok.mp h
  obtain rfl := Except.ok.inj h
  exact ⟨rfl, rfl, rfl, rfl, rfl⟩

theorem accepts_schemaRef {reference : JsValue}
    (h : Schema.schemaRef.accepts formats reference = true) :
    Pattern.sha256.test (text reference "schemaHash") = true := by
  have htype := accepts_all.mp h (.type .object) List.mem_cons_self
  cases reference with
  | object plain props =>
    exact (sha256_text (v := .object plain props) (accepts_member h (by decide)
      (by simp : ("schemaHash", Schema.sha256) ∈ _)).1).2
  | _ => cases htype

theorem insertEvent_accepted (hopen : c.opened = true) (hdata : IsData event)
    (haccepts : Schema.domainEventEnvelope.accepts formats event = true)
    (hversion : 1 ≤ natural event "aggregateVersion")
    (hid : ∀ r ∈ tables.eventJournal, r.eventId ≠ bound (text event "eventId"))
    (hnew : ∀ r ∈ tables.eventJournal,
      r.stream = (bound (text event "aggregateType"), bound (text event "aggregateId")) →
        r.aggregateVersion ≠ natural event "aggregateVersion") :
    ∃ row, insertEvent runtime event .commit (working c tables) = (.ok (), working c { tables with
      sequence := tables.sequence + 1
      eventJournal := tables.eventJournal ++ [row] }) := by
  have hmember {key : String} {schema : Schema} (hkey : key ∈ Schema.domainEventEnvelopeKeys)
      (hschema : (key, schema) ∈ Schema.domainEventEnvelopeMembers) :=
    envelope_member haccepts hkey hschema
  have hpayload := (property_isData hdata (js "payload")).resolve_left
    (@hmember "payload" (.type .object) (by decide) (by simp [Schema.domainEventEnvelopeMembers])).2
  obtain ⟨row, hrow⟩ := @eventRow_of_isData runtime _ hdata hpayload
  obtain ⟨hrowId, hrowStream, hrowVersion, hrowSchema, hrowHash⟩ := eventRow_fields hrow
  have hpayloadHash := sha256_text (@hmember "payloadHash" Schema.sha256 (by decide)
    (by simp [Schema.domainEventEnvelopeMembers])).1
  have hschema := accepts_schemaRef (@hmember "payloadSchema" Schema.schemaRef (by decide)
    (by simp [Schema.domainEventEnvelopeMembers])).1
  have hadmits : tables.admitsEvent row := by
    refine ⟨hrowVersion ▸ hversion, hrowSchema ▸ sqlLength_sha256 hschema,
      hrowHash ▸ sqlLength_sha256 hpayloadHash.2, fun r hr => ⟨hrowId ▸ hid r hr, ?_⟩⟩
    rintro ⟨⟨htype, hstreamId⟩, hsame⟩
    exact hnew r hr ((Prod.ext htype hstreamId : r.stream = row.stream).trans hrowStream)
      (hsame.trans hrowVersion)
  refine ⟨{ row with sequence := tables.sequence + 1 }, ?_⟩
  unfold insertEvent
  rw [bind_of_ok (working_lift.mpr ⟨hrow, rfl⟩)]
  exact insert_working hopen (Tables.insertEvent_eq_ok.mpr ⟨hadmits, rfl⟩)

structure Appendable (runtime : JsonRuntime) (tables : Tables) (batch event audit : JsValue)
    (version : ℕ) : Prop where
  oneEvent : elements batch "events" = [event]
  noTask : elements batch "outbox" = []
  oneAudit : elements batch "audit" = [audit]
  expected : natural (stream batch) "expectedVersion" = version
  current : tables.maxVersion (streamKey batch).1 (streamKey batch).2 = version
  safe : (version : ℤ) < maxSafeInteger
  verified : verifyEvent runtime event batch (version + 1) = .ok ()
  newEvent : ∀ r ∈ tables.eventJournal, r.eventId ≠ bound (text event "eventId")
  newVersion : ∀ r ∈ tables.eventJournal, r.stream = streamKey batch → r.aggregateVersion ≤ version
  newAudit : ∀ r ∈ tables.auditFacts, r.auditId ≠ bound (text audit "auditId")
  newCommand : ∀ r ∈ tables.commandReceipts, ¬r.matches (.ofBatch batch)

theorem forM_one {α : Type} {f : α → Sql Unit} {x : α} {s t : Session} (h : f x s = (.ok (), t)) :
    [x].forM f s = (.ok (), t) :=
  (bind_of_ok h).trans rfl

theorem find_none (hopen : c.opened = true) (driver : Driver) {identity : CommandIdentity}
    (hnew : ∀ r ∈ c.tables.commandReceipts, ¬r.matches identity) :
    findCommandDuplicate driver identity ⟨c, .none⟩ = (.ok none, ⟨c, .none⟩) := by
  have hfilter : c.tables.commandReceipts.filter (fun r => r.matches identity) = [] :=
    List.filter_eq_nil_iff.mpr fun r hr => by simpa using hnew r hr
  unfold findCommandDuplicate
  rw [bind_of_ok (query_calm hopen _), hfilter]
  rfl

theorem insertAudit_new (hopen : c.opened = true)
    (hhash : Pattern.sha256.test (text audit "payloadHash") = true)
    (hnew : ∀ r ∈ tables.auditFacts, r.auditId ≠ bound (text audit "auditId")) :
    insertAudit audit (working c tables) = (.ok (), working c
      { tables with auditFacts := tables.auditFacts ++ [auditRow audit] }) :=
  insert_working hopen (Tables.insertAudit_eq_ok.mpr ⟨⟨sqlLength_sha256 hhash, hnew⟩, rfl⟩)

theorem insertReceipt_new (hopen : c.opened = true) {receipt : JsValue} {receiptJson : JsString}
    (hjson : canonicalJson runtime.toHost receipt = .ok receiptJson)
    (hpayload : Pattern.sha256.test (text batch "payloadHash") = true)
    (houtcome : Pattern.sha256.test (text receipt "receiptHash") = true)
    (hnew : ∀ r ∈ tables.commandReceipts, ¬r.matches (.ofBatch batch)) :
    insertReceipt runtime batch receipt (working c tables) = (.ok (), working c { tables with
      commandReceipts := tables.commandReceipts ++ [receiptRow batch receipt receiptJson] }) := by
  unfold insertReceipt
  rw [bind_of_ok (working_lift.mpr ⟨foreign_eq_ok.mpr hjson, rfl⟩)]
  exact insert_working hopen (Tables.insertReceipt_eq_ok.mpr
    ⟨⟨sqlLength_sha256 hpayload, sqlLength_sha256 houtcome,
      fun r hr => not_or.mp (hnew r hr)⟩, rfl⟩)

theorem currentVersion_working (hopen : c.opened = true) (hsafe : (version : ℤ) ≤ maxSafeInteger)
    (hcurrent : tables.maxVersion (streamKey batch).1 (streamKey batch).2 = version) :
    currentAggregateVersion batch (working c tables) = (.ok version, working c tables) := by
  refine bind_eq_ok.mpr ⟨_, _, query_working hopen _, working_lift.mpr ⟨?_, rfl⟩⟩
  rw [streamKey] at hcurrent
  rw [hcurrent]
  exact safeColumn_eq_ok.mpr ⟨hsafe, rfl⟩

theorem append_event (hopen : c.opened = true) (h : Accepted formats batch)
    (happend : Appendable runtime tables batch event audit version) :
    ∃ row, [event].zipIdx.forM (fun (p : JsValue × ℕ) => (do
      lift (verifyEvent runtime p.1 batch (version + p.2 + 1))
      insertEvent runtime p.1 .commit : Sql Unit)) (working c tables) = (.ok (), working c
        { tables with
          sequence := tables.sequence + 1
          eventJournal := tables.eventJournal ++ [row] }) := by
  obtain ⟨hdata, hevent⟩ := h.events event (happend.oneEvent ▸ List.mem_singleton_self event)
  obtain ⟨htype, hid, hversion⟩ := verifyEvent_eq_ok happend.verified
  have hkey : (bound (text event "aggregateType"), bound (text event "aggregateId")) =
      streamKey batch := by rw [htype, hid, streamKey]
  obtain ⟨row, hinsert⟩ := @insertEvent_accepted runtime formats c tables event hopen hdata hevent
    (by omega) happend.newEvent fun r hr hstream hsame => by
      have hold := happend.newVersion r hr (hstream.trans hkey)
      omega
  exact ⟨row, forM_one
    ((bind_of_ok (working_lift.mpr ⟨happend.verified, rfl⟩)).trans hinsert)⟩

theorem appendBatch_accepted (hopen : c.opened = true) (h : Accepted formats batch)
    (happend : Appendable runtime tables batch event audit version) :
    ∃ receipt tables', appendBatch runtime batch (working c tables) =
      (.ok receipt, working c tables') := by
  have hsafe := happend.safe
  obtain ⟨-, haudit⟩ := h.audits audit (happend.oneAudit ▸ List.mem_singleton_self audit)
  have hauditHash := (sha256_text (Schema.closedObject_member haudit
    (by simp : ("payloadHash", Schema.sha256) ∈ _) List.not_mem_nil)).2
  have hpayloadHash := (sha256_text (h.member "payloadHash" Schema.sha256 (by simp)).2).2
  obtain ⟨row, hevent⟩ := append_event (c := c) hopen h happend
  obtain ⟨receipt, receiptJson, hreceipt, hjson, houtcome⟩ :=
    @receiptOf_of_accepted runtime formats batch h (version + 1) (by omega)
  have hidentities : verifyOutboxIdentities runtime batch (working c tables) =
      (.ok (), working c tables) := by
    rw [verifyOutboxIdentities, happend.noTask]
    rfl
  have hcurrent := currentVersion_working (c := c) hopen (by omega) happend.current
  have hprepare (tables : Tables) : Sql.prepare (working c tables) = (.ok (), working c tables) :=
    query_working hopen _
  refine ⟨receipt, { tables with
    sequence := tables.sequence + 1
    eventJournal := tables.eventJournal ++ [row]
    auditFacts := tables.auditFacts ++ [auditRow audit]
    commandReceipts := tables.commandReceipts ++ [receiptRow batch receipt receiptJson] }, ?_⟩
  unfold appendBatch
  rw [happend.oneEvent, happend.noTask, happend.oneAudit]
  refine (bind_of_ok hidentities).trans ((bind_of_ok hcurrent).trans ?_)
  rw [if_neg (not_not.mpr happend.expected.symm)]
  refine (bind_of_ok (hprepare _)).trans ((bind_of_ok hevent).trans ?_)
  refine (bind_of_ok (hprepare _)).trans ((bind_of_ok (a := ()) rfl).trans ?_)
  refine (bind_of_ok (hprepare _)).trans
    ((bind_of_ok (forM_one (insertAudit_new hopen hauditHash ?_))).trans ?_)
  · exact happend.newAudit
  refine (bind_of_ok (working_lift.mpr ⟨hreceipt, rfl⟩)).trans
    (bind_of_ok (insertReceipt_new hopen hjson hpayloadHash houtcome ?_))
  exact happend.newCommand

theorem commit_accepted (hopen : c.opened = true) (driver : Driver) (h : Accepted formats batch)
    (happend : Appendable runtime tables batch event audit version) :
    ∃ receipt tables', commitTransaction runtime driver batch (working c tables) =
      (.ok receipt, working c tables') := by
  obtain ⟨receipt, tables', hresult⟩ := appendBatch_accepted (c := c) hopen h happend
  have hfind := find_none (c := { c with transaction := some tables }) hopen driver
    happend.newCommand
  exact ⟨receipt, tables', (bind_of_ok hfind).trans hresult⟩

theorem request_accepted (hopen : c.opened = true) (driver : Driver) (host : WorkerHost)
    (h : Accepted formats batch) (happend : Appendable runtime c.tables batch event audit version) :
    handleReads runtime driver host ⟨.commit, batch⟩ ⟨c, .none⟩ =
      (.ok (.waits (.commit batch)), ⟨c, .none⟩) := by
  obtain ⟨plain, props, rfl⟩ := Schema.object_of_closedObject h.accepts
  have hlookup : commitLookup runtime driver (.object plain props) ⟨c, .none⟩ =
      (.ok none, ⟨c, .none⟩) := by
    unfold commitLookup
    refine (bind_of_ok (find_none hopen driver happend.newCommand)).trans ?_
    dsimp only
    rw [verifyOutbox, happend.noTask]
    rfl
  exact bind_of_ok hlookup

end Appending

end Aseos.Persistence
