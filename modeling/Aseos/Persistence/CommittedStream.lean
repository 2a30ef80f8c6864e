import Aseos.Persistence.ClientBatch
import Aseos.Persistence.StreamReading

namespace Aseos.Persistence

open Execution JsValue Kernel StreamLog TransitionSystem

section Streams

variable {runtime : JsonRuntime} {log : List Entry} {tables : Tables} {e : Entry}

theorem committedEvents_append (log more : List Entry) (key : Text × Text) :
    committedEvents (log ++ more) key = committedEvents log key ++ committedEvents more key := by
  rw [committedEvents, List.filter_append, List.flatMap_append]
  rfl

theorem committedEvents_own (e : Entry) :
    committedEvents [e] (streamKey e.batch) = elements e.batch "events" := by
  simp [committedEvents]

theorem Journaled.isJson {event : JsValue} {row : EventRow} (h : Journaled runtime event row) :
    IsJson event := by
  unfold Journaled eventRow at h
  obtain ⟨payloadJson, -, h⟩ := Except.bind_eq_ok.mp h
  obtain ⟨eventJson, hjson, -⟩ := Except.bind_eq_ok.mp h
  exact CanonicalJson.isJson_of_canonicalize (foreign_eq_ok.mp hjson)

theorem Journal.isJson (h : Journal runtime log tables) (key : Text × Text) :
    ∀ event ∈ committedEvents log key, IsJson event := by
  intro event hevent
  obtain ⟨row, -, hrow⟩ := forall₂_left (h.journaled key) event hevent
  exact Journaled.isJson hrow

theorem Journal.version_eq (h : Journal runtime (log ++ [e]) tables)
    (hevents : elements e.batch "events" ≠ []) :
    e.version = (committedEvents log (streamKey e.batch)).length := by
  have hwritten := h.written e (by simp)
  have hversions := h.versions (streamKey e.batch)
  rw [committedEvents_append, committedEvents_own, List.map_append, List.length_append,
    ← List.range'_append_1] at hversions
  have hlast := (List.append_inj hversions (by simp)).2
  rw [journaled_versions hwritten.events, hwritten.versions, List.range'_inj] at hlast
  obtain ⟨hlength, hempty | hstart⟩ := hlast
  · exact absurd (List.length_eq_zero_iff.mp (hlength.symm.trans hempty)) hevents
  · omega

end Streams

section Replaying

variable {runtime : JsonRuntime} {formats : Format → JsString → Bool}
  {registry : CommandRegistry} {State : Type} {domain : AggregateDefinition State}
  {command batch event : JsValue} {history : List JsValue} {transition : PreparedTransition State}

theorem replay_congr {aggregateId : JsString} {values values' : List JsValue}
    (hvalues : ∀ v ∈ values, IsJson v) (hvalues' : ∀ v ∈ values', IsJson v)
    (h : values.map readBack = values'.map readBack) :
    Kernel.replay runtime formats registry.toContractRegistry domain aggregateId
        (Json.arrayOf values) =
      Kernel.replay runtime formats registry.toContractRegistry domain aggregateId
        (Json.arrayOf values') := by
  rw [Kernel.replay, Kernel.replay, snapshot_of_isJson (isJson_arrayOf.mpr hvalues),
    snapshot_of_isJson (isJson_arrayOf.mpr hvalues'), readBack_arrayOf, readBack_arrayOf, h]

structure Posted (transition : PreparedTransition State) (command batch event : JsValue)
    (history : List JsValue) : Prop where
  identity : CommandIdentity.ofBatch batch = CommandIdentity.ofBatch transition.batch
  key : streamKey batch =
    (bound (text command "aggregateType"), bound (text command "aggregateId"))
  expectedVersion : natural (stream batch) "expectedVersion" = history.length
  events : elements batch "events" = [readBack event]
  event : IsData event

theorem posted (hprepared : Prepared runtime formats registry domain command history transition
      event) (hbatch : validateBatch runtime formats registry transition.batch = .ok batch) :
    Posted transition command batch event history := by
  obtain ⟨hjson, rfl, haccepts, -⟩ := validateBatch_eq_ok.mp hbatch
  have hdata : IsData transition.batch := ⟨hjson, hprepared.keyed⟩
  have hmember : Schema.journalStream.accepts formats
      ((readBack transition.batch).property (js "stream")) = true :=
    Schema.closedObject_member haccepts (by simp) List.not_mem_nil
  have hstream : IsData (stream transition.batch) := by
    refine (property_isData hdata (js "stream")).resolve_left fun hundefined => ?_
    rw [property_readBack hdata, hundefined] at hmember
    cases hmember
  refine ⟨ofBatch_readBack hdata, ?_, ?_, ?_, ?_⟩
  · rw [streamKey, stream_readBack hdata, text_readBack hstream, text_readBack hstream,
      hprepared.aggregateType, hprepared.aggregateId]
  · rw [stream_readBack hdata, natural_readBack hstream, hprepared.expectedVersion]
  · rw [elements_readBack hdata, hprepared.events]
    rfl
  · exact elements_isData hdata "events" event (hprepared.events ▸ List.mem_singleton_self event)

end Replaying

section Committing

variable {ι : Type} [DecidableEq ι] {runtime : JsonRuntime} {driver : Driver} {host : WorkerHost}
  {formats : Format → JsString → Bool} {registry : CommandRegistry} {State : Type}
  {domain : AggregateDefinition State} {a b : Authority ι} {log more : List Entry}
  {command batch event receipt : JsValue} {history : List JsValue}
  {transition : PreparedTransition State}

-- What answers a commit of the batch: the first lookup of a worker that has no transaction open, or
-- the transaction.
inductive Answers (a : Authority ι) (batch receipt : JsValue) : AuthorityEvent ι → Prop
  | lookup {worker faults} : (a.workers worker).transaction = none →
      Answers a batch receipt (.request worker ⟨.commit, batch⟩ faults (.ok (.replied receipt)))
  | transaction {worker faults} :
      Answers a batch receipt (.finish worker (.commit batch) faults (.ok receipt))

theorem commit_cases {event : AuthorityEvent ι} (h : Step runtime driver host a event b)
    (hanswers : Answers a batch receipt event) (hlog : Journal runtime log a.committed) :
    (b.committed = a.committed ∧ ∃ row ∈ a.committed.commandReceipts,
        row.identity driver = .ofBatch batch ∧ receiptOfRow runtime driver row = .ok receipt) ∨
      ∃ e : Entry, e.batch = batch ∧ e.receipt = receipt ∧
        Journal runtime (log ++ [e]) b.committed := by
  have hcommitted := h.committed
  cases hanswers with
  | lookup hnone =>
    cases h with
    | request _ _ _ hresult =>
      obtain ⟨row, _, hfind, hreceipt⟩ := commit_found hresult
      obtain ⟨hrow, hidentity⟩ := find_found hfind
      change row ∈ (a.database _ _).tables.commandReceipts at hrow
      rw [database_tables hnone] at hrow
      exact .inl ⟨hcommitted, row, hrow, hidentity, hreceipt⟩
  | transaction =>
    obtain ⟨c, hopen, haction⟩ := hcommitted
    obtain ⟨row, hfind, hreceipt, hsame⟩ | ⟨-, e, rfl, rfl, hversion, hwritten, hsequences, hafter,
      hkeyed⟩ := commitTransaction_working hopen hlog.keyed haction
    · obtain ⟨hrow, hidentity⟩ := find_found hfind
      exact .inl ⟨working_inj hsame, row, hrow, hidentity, hreceipt⟩
    · refine .inr ⟨e, rfl, rfl, ?_⟩
      rw [working_inj hafter]
      exact hlog.extend hversion hwritten hsequences hkeyed

theorem stream_unchanged {e : Entry} {key : Text × Text} {most : ℕ} {tables : Tables}
    (hlog : Journal runtime (log ++ more ++ [e]) tables)
    (hposted : Posted transition command e.batch event history)
    (hkey : key = (bound (text command "aggregateType"), bound (text command "aggregateId")))
    (hhistory : history = ((committedEvents log key).take most).map readBack) :
    committedEvents more key = [] ∧ (committedEvents log key).length ≤ most ∧
      committedEvents [e] key = [readBack event] ∧
      history = (committedEvents log key).map readBack := by
  have hown : streamKey e.batch = key := hposted.key.trans hkey.symm
  have hversion := hlog.version_eq (by rw [hposted.events]; exact List.cons_ne_nil _ _)
  have hexpected := (hlog.written e (by simp)).expected
  rw [hposted.expectedVersion, hversion, hown, committedEvents_append, List.length_append,
    hhistory, List.length_map, List.length_take] at hexpected
  have hshort : (committedEvents log key).length ≤ most := by omega
  refine ⟨List.length_eq_zero_iff.mp (by omega), hshort, ?_, ?_⟩
  · rw [← hown, committedEvents_own, hposted.events]
  · rw [hhistory, List.take_of_length_le hshort]

theorem replay_committed {tables : Tables} {key : Text × Text} {limit : ℕ} {e : Entry}
    (hlog : Journal runtime (log ++ more ++ [e]) tables) (hevent : IsData event)
    (hprepared : Prepared runtime formats registry domain command
      ((committedEvents log key).map readBack) transition event)
    (hmore : committedEvents more key = []) (hlast : committedEvents [e] key = [readBack event])
    (hlimit : (committedEvents log key).length < limit) :
    Kernel.replay runtime formats registry.toContractRegistry domain (text command "aggregateId")
        (firstEvents (log ++ more ++ [e]) key limit) =
      .ok ⟨some transition.state, (committedEvents log key).length + 1⟩ := by
  have hevents : committedEvents (log ++ more ++ [e]) key =
      committedEvents log key ++ [readBack event] := by
    rw [committedEvents_append, committedEvents_append, hmore, hlast, List.append_nil]
  have hjson : ∀ v ∈ committedEvents log key, IsJson v := fun v hv =>
    hlog.isJson key v (hevents ▸ List.mem_append_left _ hv)
  obtain ⟨version, hreplayed⟩ := hprepared.replayed
  have hversion := replay_version hreplayed
  rw [List.map_map, List.length_append, List.length_map] at hversion
  obtain rfl : version = _ := hversion
  rw [firstEvents, hevents, List.take_of_length_le (by simpa using hlimit)]
  refine (replay_congr ?_ ?_ ?_).trans hreplayed
  · refine List.forall_mem_map.mpr (List.forall_mem_append.mpr ⟨fun v hv => ?_, ?_⟩)
    · exact (isData_readBack (hjson v hv)).1
    · exact List.forall_mem_singleton.mpr (isData_readBack (isData_readBack hevent.1).1).1
  · refine List.forall_mem_append.mpr ⟨?_, List.forall_mem_singleton.mpr hevent.1⟩
    refine List.forall_mem_map.mpr (List.forall_mem_map.mpr fun v hv => ?_)
    exact (isData_readBack (isData_readBack (hjson v hv)).1).1
  · -- once read back, data stays as it is
    have htwice : ∀ v ∈ committedEvents log key,
        readBack (readBack v) = readBack (readBack (readBack v)) := fun v hv =>
      (readBack_readBack (isData_readBack (hjson v hv))).symm
    rw [List.map_append, List.map_append, List.map_append, List.map_map, List.map_map,
      List.map_map]
    refine congrArg₂ _ (List.map_congr_left htwice) ?_
    rw [List.map_singleton, List.map_singleton, Function.comp_apply, readBack_readBack hevent,
      readBack_readBack hevent]

end Committing

end Aseos.Persistence
