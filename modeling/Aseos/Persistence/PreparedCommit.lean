import Aseos.Persistence.CommitReceipt

namespace Aseos.Persistence

open Execution JsValue Kernel StreamLog TransitionSystem

section Client

variable {runtime : JsonRuntime} {formats : Format → JsString → Bool}
  {registry : CommandRegistry} {State : Type} {domain : AggregateDefinition State}
  {command event : JsValue} {history : List JsValue} {transition : PreparedTransition State}

theorem resolve_version {contracts : ContractRegistry} {schemaId schemaVersion : JsString}
    {entry : SchemaRegistryEntry} (h : contracts.resolve schemaId schemaVersion = some entry) :
    entry.schemaVersion = schemaVersion := by
  unfold ContractRegistry.resolve at h
  split at h
  · cases h
  · split at h
    · split at h
      · rename_i hversion
        obtain rfl := Option.some.inj h
        exact hversion
      · cases h
    · cases h

theorem validateEnvelope_of_valid {aggregateId : JsString} {version : ℕ} (hdata : IsData event)
    (h : ValidEvent runtime formats registry.toContractRegistry domain aggregateId version event) :
    validateEnvelope formats registry event = .ok () := by
  obtain ⟨eventType, requiredSchema, -, -, ⟨entry, hentry, hnormal, haccepts⟩, -⟩ := h.payload
  have hdefined := (@envelope_member _ _ h.envelope "payloadSchema" .schemaRef (by decide)
    (by simp [Schema.domainEventEnvelopeMembers])).2
  have hdeclared := (property_isData hdata (js "payloadSchema")).resolve_left hdefined
  have hreference : IsData (reference requiredSchema entry) := isJson_reference requiredSchema entry
  have htext (key : String) : text (event.property (js "payloadSchema")) key =
      text (reference requiredSchema entry) key := by
    rw [← text_readBack hdeclared, readBack_congr hdeclared hreference hnormal,
      text_readBack hreference]
  have hid : text (reference requiredSchema entry) "schemaId" = requiredSchema := rfl
  have hversion : text (reference requiredSchema entry) "schemaVersion" = js "1.0.0" :=
    resolve_version hentry
  have hhash : entry.sha256 = text (event.property (js "payloadSchema")) "schemaHash" :=
    (htext "schemaHash").symm
  unfold validateEnvelope
  dsimp only
  rw [htext "schemaId", htext "schemaVersion", hid, hversion, hentry]
  dsimp only
  rw [if_neg (not_not.mpr hhash), if_pos haccepts]

theorem validateBatch_prepared
    (hprepared : Prepared runtime formats registry domain command history transition event)
    (hbatch : Submittable formats transition.batch) :
    validateBatch runtime formats registry transition.batch = .ok (readBack transition.batch) ∧
      Accepted formats (readBack transition.batch) := by
  obtain ⟨hjson, hvalid⟩ := hprepared.event_valid
  have haccepts : Schema.journalAppendBatch.accepts formats (readBack transition.batch) = true :=
    (Schema.accepts_readBack _ hbatch.data).trans hbatch.accepts
  refine ⟨validateBatch_eq_ok.mpr ⟨hbatch.data.1, rfl, haccepts, ?_⟩,
    isData_readBack hbatch.data.1, haccepts⟩
  rw [elements_readBack hbatch.data, elements_readBack hbatch.data, hprepared.events,
    hprepared.outbox]
  exact List.forall_mem_singleton.mpr (validateEnvelope_of_valid (isData_readBack hjson) hvalid)

theorem stream_isData {batch : JsValue} (h : Submittable formats batch) :
    IsData (stream batch) := by
  refine (property_isData h.data (js "stream")).resolve_left ?_
  exact closedObject_defined h.accepts "stream" (by simp)

theorem verifyEvent_prepared
    (hprepared : Prepared runtime formats registry domain command history transition event)
    (hbatch : Submittable formats transition.batch) :
    verifyEvent runtime (readBack event) (readBack transition.batch) (history.length + 1) =
      .ok () := by
  obtain ⟨hjson, hvalid⟩ := hprepared.event_valid
  obtain ⟨-, -, -, -, -, digest, hdigest, hhash⟩ := hvalid.payload
  obtain ⟨x, hversion, hsafe, hvalue⟩ := hvalid.aggregateVersion
  have hdata : IsData event := ⟨hjson, hprepared.event_keyed⟩
  have hstream := stream_isData hbatch
  have htype : text (readBack event) "aggregateType" =
      text (stream (readBack transition.batch)) "aggregateType" := by
    rw [stream_readBack hbatch.data, text_readBack hstream, text_readBack hdata,
      hprepared.event_aggregateType, hprepared.aggregateType]
  have hid : text (readBack event) "aggregateId" =
      text (stream (readBack transition.batch)) "aggregateId" := by
    rw [stream_readBack hbatch.data, text_readBack hstream, hprepared.aggregateId, text,
      hvalid.aggregateId]
    rfl
  have hnext : natural (readBack event) "aggregateVersion" = history.length + 1 := by
    rw [natural, hversion]
    dsimp only
    rw [hvalue, Rat.den_natCast, if_pos rfl, Rat.num_natCast, Int.toNat_natCast]
  have hpayloadHash : digest.text = text (readBack event) "payloadHash" := by
    rw [text, hhash]
    rfl
  unfold verifyEvent
  rw [if_neg (by simp only [htype, hid, hnext, ne_eq, not_true_eq_false, or_self,
    not_false_eq_true]), hdigest]
  exact if_neg (not_not.mpr hpayloadHash)

end Client

section Append

variable {runtime : JsonRuntime} {formats : Format → JsString → Bool}
  {registry : CommandRegistry} {State : Type} {domain : AggregateDefinition State}
  {command event : JsValue} {history : List JsValue} {transition : PreparedTransition State}
  {log : List Entry} {tables : Tables}

theorem appendable {audit : JsValue} (hlog : Journal runtime log tables)
    (hprepared : Prepared runtime formats registry domain command history transition event)
    (hbatch : Submittable formats transition.batch)
    (haudit : elements transition.batch "audit" = [audit])
    (hhistory : history.length = (committedEvents log (bound (text command "aggregateType"),
      bound (text command "aggregateId"))).length)
    (hnewEvent : ∀ row ∈ tables.eventJournal, row.eventId ≠ bound (text event "eventId"))
    (hnewAudit : ∀ row ∈ tables.auditFacts, row.auditId ≠ bound (text audit "auditId"))
    (hnewCommand : ∀ row ∈ tables.commandReceipts, ¬row.matches (.ofBatch transition.batch)) :
    Appendable runtime tables (readBack transition.batch) (readBack event) (readBack audit)
      history.length := by
  have hstream := stream_isData hbatch
  have hevent : IsData event := ⟨hprepared.event_valid.1, hprepared.event_keyed⟩
  have hauditData : IsData audit :=
    elements_isData hbatch.data "audit" audit (haudit ▸ List.mem_singleton_self audit)
  have hkey : streamKey (readBack transition.batch) = (bound (text command "aggregateType"),
      bound (text command "aggregateId")) := by
    rw [streamKey, stream_readBack hbatch.data, text_readBack hstream, text_readBack hstream,
      hprepared.aggregateType, hprepared.aggregateId]
  have hlength := (hlog.journaled (streamKey (readBack transition.batch))).length_eq
  rw [← hkey] at hhistory
  constructor
  · rw [elements_readBack hbatch.data, hprepared.events]
    rfl
  · rw [elements_readBack hbatch.data, hprepared.outbox]
    rfl
  · rw [elements_readBack hbatch.data, haudit]
    rfl
  · rw [stream_readBack hbatch.data, natural_readBack hstream, hprepared.expectedVersion]
  · rw [maxVersion_eq hlog.contiguous, ← hlength, hhistory]
  · exact hprepared.expectedVersion ▸ hbatch.safe
  · exact verifyEvent_prepared hprepared hbatch
  · rwa [text_readBack hevent]
  · intro row hrow hown
    have hmem : row.aggregateVersion ∈ List.range' 1 history.length := by
      rw [hhistory, hlength, ← hlog.contiguous]
      exact List.mem_map_of_mem (List.mem_filter.mpr ⟨hrow, by simpa using hown⟩)
    have hrange := List.mem_range'_1.mp hmem
    omega
  · rwa [text_readBack hauditData]
  · rwa [ofBatch_readBack hbatch.data]

end Append

section Runs

variable {ι : Type} [DecidableEq ι] {runtime : JsonRuntime} {driver : Driver} {host : WorkerHost}
  {a b : Authority ι} {writer : ι}

theorem appended_receipt {formats : Format → JsString → Bool} {event audit : JsValue}
    {version : ℕ} {tables : Tables} {e : Entry} (haccepted : Accepted formats e.batch)
    (happend : Appendable runtime tables e.batch event audit version)
    (hwritten : e.Written runtime) :
    Schema.persistenceCommitReceipt.accepts formats e.receipt = true := by
  have hone : e.events.length = 1 := by
    rw [← hwritten.events.length_eq, happend.oneEvent, List.length_singleton]
  have hversion : e.version = version := hwritten.expected.symm.trans happend.expected
  have hreceipt := hwritten.receipt
  rw [hone, hversion] at hreceipt
  refine receipt_accepted haccepted (Nat.le_add_left 1 version) ?_ ?_ ?_ ?_ hreceipt
  · exact_mod_cast happend.safe
  · rw [happend.oneEvent]
    exact List.nodup_singleton _
  · rw [happend.noTask]
    exact List.nodup_nil
  · rw [happend.oneAudit]
    exact List.nodup_singleton _

theorem after_self (a : Authority ι) (worker : ι) (c : Database) (pending : Option Pending) :
    (a.after worker c pending).workers worker =
      ⟨c.transaction, c.opened, c.writeLockHeld, c.crashTransactionArmed, pending⟩ :=
  Function.update_self ..

theorem after_other {worker other : ι} (h : other ≠ worker) (a : Authority ι) (c : Database)
    (pending : Option Pending) : (a.after worker c pending).workers other = a.workers other :=
  Function.update_of_ne h ..

variable (driver host) in
theorem commit_served {formats : Format → JsString → Bool} {batch event audit : JsValue}
    {version : ℕ} {log : List Entry} (hidle : b.Idle) (hopened : (b.workers writer).opened = true)
    (hpending : (b.workers writer).pending = none) (hlog : Journal runtime log b.committed)
    (haccepted : Accepted formats batch)
    (happend : Appendable runtime b.committed batch event audit version) :
    ∃ (b₁ b₂ : Authority ι) (e : Entry), e.batch = batch ∧
      Step runtime driver host b
        (.request writer ⟨.commit, batch⟩ .none (.ok (.waits (.commit batch)))) b₁ ∧
      Step runtime driver host b₁ (.finish writer (.commit batch) .none (.ok e.receipt)) b₂ ∧
      Schema.persistenceCommitReceipt.accepts formats e.receipt = true ∧
      Journal runtime (log ++ [e]) b₂.committed := by
  obtain ⟨locked, hlocked⟩ := exists_locked b writer
  have htables : (b.database writer locked).tables = b.committed := database_tables (hidle writer)
  have hrequest := request_accepted (c := b.database writer locked) hopened driver host haccepted
    (htables.symm ▸ happend)
  have hbegun : Step runtime driver host b
      (.request writer ⟨.commit, batch⟩ .none (.ok (.waits (.commit batch))))
      (b.after writer (b.database writer locked) (some (.commit batch))) :=
    .request hopened hpending hlocked hrequest
  generalize hb₁ : b.after writer (b.database writer locked) (some (.commit batch)) = b₁ at hbegun
  have hworkers : (b₁.workers writer).opened = true ∧
      (b₁.workers writer).pending = some (.commit batch) ∧ b₁.committed = b.committed := by
    rw [← hb₁, after_self]
    exact ⟨hopened, rfl, rfl⟩
  obtain ⟨hopened₁, hpending₁, hcommitted₁⟩ := hworkers
  have hidle₁ : b₁.Idle := by
    intro worker
    rw [← hb₁]
    by_cases hworker : worker = writer
    · rw [hworker, after_self]
      exact hidle writer
    · rw [after_other hworker]
      exact hidle worker
  obtain ⟨locked₁, hlocked₁⟩ := exists_locked b₁ writer
  obtain ⟨receipt, tables, hcommit⟩ := commit_accepted (c := b₁.database writer locked₁) hopened₁
    driver haccepted happend
  rw [← hcommitted₁] at hcommit hlog
  have hrun := runTransaction_ok (hidle₁.free hopened₁ hlocked₁) hcommit
  obtain ⟨row, hfind, -⟩ | ⟨-, e, rfl, rfl, hversion, hwritten, hsequences, hafter, hkeyed⟩ :=
    commitTransaction_working hopened₁ hlog.keyed hcommit
  · have hnone := find_none (c := { b₁.database writer locked₁ with
      transaction := some b₁.committed }) hopened₁ driver (hcommitted₁ ▸ happend.newCommand)
    cases hfind.symm.trans hnone
  · refine ⟨b₁, _, e, rfl, hbegun, .finish hpending₁ hlocked₁ hrun,
      appended_receipt haccepted happend hwritten, ?_⟩
    change Journal runtime (log ++ [e]) tables
    rw [working_inj hafter]
    exact hlog.extend hversion hwritten hsequences hkeyed

variable {formats : Format → JsString → Bool} {registry : CommandRegistry} {State : Type}
  {domain : AggregateDefinition State} {given command context batch receipt : JsValue}
  {history : List JsValue} {transition : PreparedTransition State} {log : List Entry}

variable (driver host) in
theorem prepared_served (hidle : b.Idle) (hopened : (b.workers writer).opened = true)
    (hpending : (b.workers writer).pending = none) (hlog : Journal runtime log b.committed)
    (hadmitted : admitCommand runtime formats registry domain given = .ok command)
    (hprepare : prepare runtime formats registry domain given (Json.arrayOf history) context =
      .ok transition)
    (hhistory : history.length = (committedEvents log (bound (text command "aggregateType"),
      bound (text command "aggregateId"))).length)
    (hnewEvent : ∀ event ∈ transition.events, ∀ row ∈ b.committed.eventJournal,
      row.eventId ≠ bound (text event "eventId"))
    (hnewAudit : ∀ audit ∈ elements transition.batch "audit", ∀ row ∈ b.committed.auditFacts,
      row.auditId ≠ bound (text audit "auditId"))
    (hnewCommand : ∀ row ∈ b.committed.commandReceipts, ¬row.matches (.ofBatch transition.batch)) :
    ∃ (batch : JsValue) (b₁ b₂ : Authority ι) (e : Entry),
      validateBatch runtime formats registry transition.batch = .ok batch ∧ e.batch = batch ∧
      Step runtime driver host b
        (.request writer ⟨.commit, batch⟩ .none (.ok (.waits (.commit batch)))) b₁ ∧
      Step runtime driver host b₁ (.finish writer (.commit batch) .none (.ok e.receipt)) b₂ ∧
      Schema.persistenceCommitReceipt.accepts formats e.receipt = true ∧
      Journal runtime (log ++ [e]) b₂.committed := by
  obtain ⟨event, hprepared⟩ := prepared hadmitted hprepare
  have hbatch := submittable hadmitted hprepare hprepared
  obtain ⟨hvalid, haccepted⟩ := validateBatch_prepared hprepared hbatch
  obtain ⟨audit, haudit⟩ := hbatch.audit
  have happend := appendable hlog hprepared hbatch haudit hhistory
    (hnewEvent event (hprepared.transition_events ▸ List.mem_singleton_self event))
    (hnewAudit audit (haudit ▸ List.mem_singleton_self audit)) hnewCommand
  obtain ⟨b₁, b₂, e, hsteps⟩ :=
    commit_served driver host hidle hopened hpending hlog haccepted happend
  exact ⟨_, b₁, b₂, e, hvalid, hsteps⟩

theorem prepared_commit {a₁ a₂ a₃ a₄ : Authority ι} {before later : List (AuthorityEvent ι)}
    {answered : AuthorityEvent ι} {reader : ι} {faults : Faults} {limit : JsNumber} {most : ℕ}
    {reading : JsValue} (hfresh : a.Fresh)
    (hbefore : Run (Step runtime driver host) a before a₁)
    (hnone : (a₁.workers reader).transaction = none) (hlimit : ReadLimit limit most)
    (hread : Step runtime driver host a₁ (.request reader ⟨.readEvents, readPayload
      (text command "aggregateType") (text command "aggregateId") limit⟩ faults
      (.ok (.replied reading))) a₂)
    (hadmitted : admitCommand runtime formats registry domain given = .ok command)
    (hprepare : prepare runtime formats registry domain given reading context = .ok transition)
    (hvalid : validateBatch runtime formats registry transition.batch = .ok batch)
    (hlater : Run (Step runtime driver host) a₂ later a₃)
    (hcommit : Step runtime driver host a₃ answered a₄)
    (hanswers : Answers a₃ batch receipt answered) :
    ∃ log more, Journal runtime log a₁.committed ∧ Journal runtime (log ++ more) a₃.committed ∧
      ((a₄.committed = a₃.committed ∧ ∃ row ∈ a₃.committed.commandReceipts,
          row.identity driver = .ofBatch batch ∧ receiptOfRow runtime driver row = .ok receipt) ∨
        ∃ (e : Entry) (event : JsValue) (key : Text × Text), e.batch = batch ∧
          e.receipt = receipt ∧ Journal runtime (log ++ more ++ [e]) a₄.committed ∧
          transition.events = [event] ∧
          key = (bound (text command "aggregateType"), bound (text command "aggregateId")) ∧
          committedEvents more key = [] ∧ (committedEvents log key).length ≤ most ∧
          committedEvents [e] key = [readBack event] ∧
          ∀ limit', (committedEvents log key).length < limit' →
            Kernel.replay runtime formats registry.toContractRegistry domain
              (text command "aggregateId") (firstEvents (log ++ more ++ [e]) key limit') =
                .ok ⟨some transition.state, (committedEvents log key).length + 1⟩) := by
  obtain ⟨log, hlog⟩ := journal_of_run hfresh.journal hbefore
  obtain rfl : reading = firstEvents log _ most := by
    cases hread with
    | request _ _ _ hresult =>
      exact reading_answered hlimit ((database_tables hnone).symm ▸ hlog) hresult
  obtain ⟨event, hprepared⟩ := prepared hadmitted hprepare
  have hposted := posted hprepared hvalid
  obtain ⟨more, hmore⟩ := journal_of_run hlog (hlater.cons hread)
  refine ⟨log, more, hlog, hmore, (commit_cases hcommit hanswers hmore).imp_right ?_⟩
  rintro ⟨e, rfl, rfl, hafter⟩
  obtain ⟨hunchanged, hshort, hlast, hwhole⟩ := stream_unchanged hafter hposted rfl rfl
  rw [hwhole] at hprepared
  exact ⟨e, event, _, rfl, rfl, hafter, hprepared.transition_events, rfl, hunchanged, hshort, hlast,
    fun limit' hlimit' => replay_committed hafter hposted.event hprepared hunchanged hlast hlimit'⟩

end Runs

section Samples

theorem sample_start : Run (Step parityRuntime sampleDriver sampleHost) noAuthority [.start ()]
    openAuthority :=
  (Run.nil noAuthority).snoc (.start rfl)

theorem Journal.eq_nil {runtime : JsonRuntime} {log : List Entry} (h : Journal runtime log .empty) :
    log = [] :=
  List.map_eq_nil_iff.mp h.receipts.symm

theorem sample_prepared : ∃ (log more : List Entry) (transition : PreparedTransition ℕ)
    (a₃ a₄ : Authority Unit) (batch receipt : JsValue),
    Journal parityRuntime (log ++ more) a₃.committed ∧
    Step parityRuntime sampleDriver sampleHost a₃ (.finish () (.commit batch) .none (.ok receipt))
      a₄ ∧
    (a₄.committed = a₃.committed ∨ ∃ e, Journal parityRuntime (log ++ more ++ [e]) a₄.committed ∧
      Kernel.replay parityRuntime sampleFormats sampleCommandRegistry.toContractRegistry
        sampleDomain (js "run") (firstEvents (log ++ more ++ [e])
          (bound (js "Counter"), bound (js "run")) 10001) =
        .ok ⟨some transition.state,
          (committedEvents log (bound (js "Counter"), bound (js "run"))).length + 1⟩) := by
  obtain ⟨transition, hprepare⟩ := prepare_run
  have hread : Step parityRuntime sampleDriver sampleHost openAuthority (.request ()
      ⟨.readEvents, readPayload (text (sampleCommand "run").readBack "aggregateType")
        (text (sampleCommand "run").readBack "aggregateId") defaultReadLimit⟩ .none
      (.ok (.replied (Json.arrayOf []))))
      (openAuthority.after () (openAuthority.database () false) none) :=
    .request rfl rfl (unlocked_alone _)
      (reading_served (c := openAuthority.database () false) readLimit_default rfl (.empty _))
  obtain ⟨batch, a₃, a₄, e, hvalid, rfl, hbegun, hcommitted, -⟩ := prepared_served sampleDriver
    sampleHost (b := openAuthority.after () (openAuthority.database () false) none)
    (fun _ => rfl) (show (openAuthority.workers ()).opened = true from rfl) rfl (.empty _)
    admit_run hprepare rfl
    (fun _ _ => List.forall_mem_nil _) (fun _ _ => List.forall_mem_nil _) (List.forall_mem_nil _)
  obtain ⟨log, more, -, hmore, hresult⟩ := prepared_commit ⟨rfl, fun _ => rfl⟩ sample_start rfl
    readLimit_default hread admit_run hprepare hvalid ((Run.nil _).snoc hbegun) hcommitted
    .transaction
  refine ⟨log, more, transition, a₃, a₄, e.batch, e.receipt, hmore, hcommitted, ?_⟩
  obtain ⟨hsame, -⟩ | ⟨e', event, key, -, -, hafter, -, rfl, -, hshort, -, hreplay⟩ := hresult
  · exact .inl hsame
  · exact .inr ⟨e', hafter, hreplay 10001 (Nat.lt_succ_of_le hshort)⟩

end Samples

end Aseos.Persistence
