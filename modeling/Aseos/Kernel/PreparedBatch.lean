import Aseos.Contracts.ReadBack
import Aseos.Kernel.CommandIdentity

namespace Aseos.Kernel

open JsValue Persistence

section Capturing

variable {runtime : JsonRuntime} {v captured : JsValue}

end Capturing

section Preparing

variable {runtime : JsonRuntime} {formats : Format → JsString → Bool}
  {registry : CommandRegistry} {State : Type} {domain : AggregateDefinition State}

theorem foldlM_version {aggregateId : JsString} {events : List JsValue} {s t : ReplayState State}
    (h : events.foldlM (replayEvent runtime formats registry.toContractRegistry domain aggregateId)
      s = .ok t) : t.version = s.version + events.length := by
  induction events generalizing s with
  | nil =>
    obtain rfl := Except.ok.inj h
    rfl
  | cons event events ih =>
    rw [List.foldlM_cons] at h
    obtain ⟨u, hevent, hrest⟩ := Except.bind_eq_ok.mp h
    obtain ⟨_, -, hevent⟩ := Except.bind_eq_ok.mp hevent
    have hversion : u.version = s.version + 1 := by
      split at hevent
      · cases hevent
      · split at hevent
        · cases hevent
        · obtain ⟨_, -, hevent⟩ := Except.bind_eq_ok.mp hevent
          obtain ⟨_, -, hevent⟩ := Except.bind_eq_ok.mp hevent
          exact congrArg ReplayState.version (Except.ok.inj hevent).symm
    rw [ih hrest, hversion, List.length_cons]
    omega

theorem replay_version {aggregateId : JsString} {events : List JsValue} {r : ReplayResult State}
    (h : replay runtime formats registry.toContractRegistry domain aggregateId
      (Json.arrayOf events) = .ok r) : r.version = events.length := by
  unfold replay at h
  split at h
  · cases h
  · obtain ⟨history, hhistory, h⟩ := Except.bind_eq_ok.mp h
    obtain ⟨-, rfl⟩ := snapshot_ok hhistory
    rw [readBack_arrayOf, replayFrom_arrayOf, map_eq_ok] at h
    obtain ⟨t, ht, rfl⟩ := h
    have hversion := foldlM_version ht
    rw [List.length_map] at hversion
    exact hversion.trans (Nat.zero_add _)

theorem natural_of_isNumber {v : JsValue} {key : String} {n : ℕ}
    (h : Workflow.isNumber (v.property (js key)) n = true) : natural v key = n := by
  unfold Workflow.isNumber at h
  split at h
  · rename_i x hx
    have hvalue := of_decide_eq_true h
    rw [natural, hx]
    dsimp only
    rw [hvalue, Rat.den_natCast, Rat.num_natCast, if_pos rfl, Int.toNat_natCast]
  · cases h

theorem prepared_version {given context : JsValue} {events : List JsValue}
    {transition : PreparedTransition State}
    (h : prepare runtime formats registry domain given (Json.arrayOf events) context =
      .ok transition) :
    natural (stream transition.batch) "expectedVersion" = events.length := by
  obtain ⟨command, captured, history, replayed, _, _, event, _, _, batch, -, -, hhistory,
    hreplayed, hnumber, -, -, -, -, -, hbatch, rfl⟩ := prepare_eq_ok.mp h
  obtain ⟨-, rfl⟩ := snapshot_ok hhistory
  rw [readBack_arrayOf] at hreplayed
  have hversion := (replay_version hreplayed).trans (List.length_map _)
  obtain ⟨identity, -, hvalid⟩ := Except.bind_eq_ok.mp hbatch
  obtain ⟨rfl, -⟩ := validate_eq_ok.mp hvalid
  rw [← hversion]
  exact natural_of_isNumber (v := stream (Kernel.appendBatch command captured identity event))
    hnumber

theorem keyed_property {v : JsValue} (h : Keyed v) (key : JsString) : Keyed (v.property key) := by
  have hundefined : Keyed .undefined := .atom (by simp) (by simp)
  cases h with
  | object _ _ hprops =>
    rw [property, Props.get]
    cases hfind : List.find? _ _ with
    | none => exact hundefined
    | some p => exact hprops p (List.mem_of_find?_eq_some hfind)
  | array => exact hundefined
  | @atom v _ hobject =>
    cases v with
    | object plain props => exact absurd rfl (hobject plain props)
    | _ => exact hundefined

theorem keyed_string (s : JsString) : Keyed (.string s) := .atom (by simp) (by simp)

theorem keyed_number (n : JsNumber) : Keyed (.number n) := .atom (by simp) (by simp)

theorem keyed_arrayOf {values : List JsValue} (h : ∀ v ∈ values, Keyed v) :
    Keyed (Json.arrayOf values) :=
  .array (List.forall_mem_map.mpr fun v hv _ => h v hv)

theorem keyed_record {members : List (JsString × JsValue)} (hnames : (members.map Prod.fst).Nodup)
    (h : ∀ m ∈ members, Keyed m.2) : Keyed (.record members) := by
  refine .object (List.forall_mem_map.mpr fun m _ => rfl) ?_ (List.forall_mem_map.mpr h)
  rwa [List.map_map]

theorem extended_arrayOf (values : List JsValue) (event : JsValue) :
    extended (Json.arrayOf values) event = Json.arrayOf (values ++ [event]) := by
  change Json.arrayOf ((values.map fun v => (SlotKind.data, v)).map Prod.snd ++ [event]) = _
  rw [List.map_map]
  exact congrArg (fun l => Json.arrayOf (l ++ [event])) (List.map_id values)

theorem proposedEvent_keyed {command context decision event : JsValue} {version : ℕ}
    (hcommand : Keyed command) (hcontext : Keyed context) (hdecision : Keyed decision)
    (h : proposedEvent runtime registry domain command context decision version = .ok event) :
    Keyed event := by
  unfold proposedEvent at h
  split at h
  · cases h
  · rename_i schemaId _
    obtain ⟨payloadSchema, hschema, h⟩ := Except.bind_eq_ok.mp h
    obtain ⟨payloadHash, -, h⟩ := Except.bind_eq_ok.mp h
    obtain rfl := Except.ok.inj h
    have hreference : Keyed payloadSchema := by
      unfold schemaRef at hschema
      split at hschema
      · rename_i entry _
        obtain rfl := Except.ok.inj hschema
        exact (isJson_reference schemaId entry).2
      · cases hschema
    refine keyed_record (by simp only [List.map_cons, List.map_nil]; decide) ?_
    simp only [List.forall_mem_cons, List.not_mem_nil, false_implies, implies_true, and_true]
    exact ⟨keyed_string _, keyed_property hcontext _, keyed_property hdecision _,
      keyed_property hcommand _, keyed_property hcommand _, keyed_number _,
      keyed_property hcontext _, keyed_property hcommand _, keyed_property hcommand _,
      keyed_property hcommand _, hreference, keyed_string _, keyed_property hdecision _⟩

theorem proposedEvent_aggregateType {command context decision event : JsValue} {version : ℕ}
    (h : proposedEvent runtime registry domain command context decision version = .ok event) :
    text event "aggregateType" = text command "aggregateType" := by
  unfold proposedEvent at h
  split at h
  · cases h
  · obtain ⟨payloadSchema, -, h⟩ := Except.bind_eq_ok.mp h
    obtain ⟨payloadHash, -, h⟩ := Except.bind_eq_ok.mp h
    obtain rfl := Except.ok.inj h
    rfl

theorem appendBatch_keyed {command context event : JsValue} (identity : CommandIdentity)
    (hcommand : Keyed command) (hcontext : Keyed context) (hevent : Keyed event) :
    Keyed (Kernel.appendBatch command context identity event) := by
  have hstream : Keyed (.record [
      (js "aggregateType", command.property (js "aggregateType")),
      (js "aggregateId", command.property (js "aggregateId")),
      (js "expectedVersion", command.property (js "expectedVersion"))]) := by
    refine keyed_record (by simp only [List.map_cons, List.map_nil]; decide) ?_
    simp only [List.forall_mem_cons, List.not_mem_nil, false_implies, implies_true, and_true]
    exact ⟨keyed_property hcommand _, keyed_property hcommand _, keyed_property hcommand _⟩
  have haudit : Keyed (.record [(js "auditId", context.property (js "auditId")),
      (js "action", .string (js "KERNEL_COMMAND_COMMITTED")),
      (js "occurredAt", context.property (js "occurredAt")),
      (js "payloadHash", .string identity.payloadHash)]) := by
    refine keyed_record (by simp only [List.map_cons, List.map_nil]; decide) ?_
    simp only [List.forall_mem_cons, List.not_mem_nil, false_implies, implies_true, and_true]
    exact ⟨keyed_property hcontext _, keyed_string _, keyed_property hcontext _, keyed_string _⟩
  refine keyed_record (by simp only [List.map_cons, List.map_nil]; decide) ?_
  simp only [List.forall_mem_cons, List.not_mem_nil, false_implies, implies_true, and_true]
  exact ⟨keyed_string _, keyed_string _, keyed_string _, keyed_string _, keyed_string _,
    keyed_property hcontext _, keyed_property hcontext _, hstream,
    keyed_arrayOf (List.forall_mem_singleton.mpr hevent),
    keyed_arrayOf (List.forall_mem_nil _), keyed_arrayOf (List.forall_mem_singleton.mpr haudit)⟩

structure Prepared (runtime : JsonRuntime) (formats : Format → JsString → Bool)
    (registry : CommandRegistry) (domain : AggregateDefinition State) (command : JsValue)
    (history : List JsValue) (transition : PreparedTransition State) (event : JsValue) : Prop where
  identity : commandIdentity runtime.toHost command =
    .ok (CommandIdentity.ofBatch transition.batch)
  aggregateType : text (stream transition.batch) "aggregateType" = text command "aggregateType"
  aggregateId : text (stream transition.batch) "aggregateId" = text command "aggregateId"
  expectedVersion : natural (stream transition.batch) "expectedVersion" = history.length
  transition_events : transition.events = [event]
  events : elements transition.batch "events" = [event]
  outbox : elements transition.batch "outbox" = []
  keyed : Keyed transition.batch
  event_keyed : Keyed event
  event_aggregateType : text event "aggregateType" = text command "aggregateType"
  replayed : ∃ version, replay runtime formats registry.toContractRegistry domain
    (text command "aggregateId") (Json.arrayOf (history.map readBack ++ [event])) =
      .ok ⟨some transition.state, version⟩

theorem prepared {given command context : JsValue} {history : List JsValue}
    {transition : PreparedTransition State}
    (hadmitted : admitCommand runtime formats registry domain given = .ok command)
    (h : prepare runtime formats registry domain given (Json.arrayOf history) context =
      .ok transition) :
    ∃ event, Prepared runtime formats registry domain command history transition event := by
  have hidentity := ofBatch_prepare hadmitted h
  have hversion := prepared_version h
  obtain ⟨command', captured, capturedHistory, replayed, proposed, decision, event, next, state,
    batch, hcommand, hcaptured, hhistory, -, -, -, hdecision, hevent, hnext, hstate, hbatch, rfl⟩ :=
    prepare_eq_ok.mp h
  obtain rfl := Except.ok.inj (hadmitted.symm.trans hcommand)
  obtain ⟨identity, -, hvalid⟩ := Except.bind_eq_ok.mp hbatch
  obtain ⟨rfl, -⟩ := validate_eq_ok.mp hvalid
  obtain ⟨-, rfl⟩ := snapshot_ok hhistory
  obtain ⟨hdecisionJson, rfl⟩ := snapshot_ok hdecision
  obtain ⟨hcapturedJson, rfl⟩ := snapshot_ok hcaptured
  obtain ⟨hgiven, rfl⟩ := snapshot_ok (admitCommand_eq_ok hadmitted).1
  have hcommandKeys := (isData_readBack hgiven).2
  have hcontextKeys := (isData_readBack hcapturedJson).2
  have hdecisionKeys := (isData_readBack hdecisionJson).2
  have heventKeys := proposedEvent_keyed hcommandKeys hcontextKeys hdecisionKeys hevent
  refine ⟨event, hidentity, rfl, rfl, hversion, rfl, rfl, rfl, ?_, heventKeys,
    proposedEvent_aggregateType hevent, next.version, ?_⟩
  · exact appendBatch_keyed identity hcommandKeys hcontextKeys heventKeys
  · rw [readBack_arrayOf, extended_arrayOf] at hnext
    obtain ⟨nextState, nextVersion⟩ := next
    obtain rfl : nextState = some state := hstate
    exact hnext

theorem Prepared.event_valid {command event : JsValue} {history : List JsValue}
    {transition : PreparedTransition State}
    (h : Prepared runtime formats registry domain command history transition event) :
    IsJson event ∧ ValidEvent runtime formats registry.toContractRegistry domain
      (text command "aggregateId") (history.length + 1) (readBack event) := by
  obtain ⟨version, hreplayed⟩ := h.replayed
  unfold replay at hreplayed
  split at hreplayed
  · cases hreplayed
  · obtain ⟨values, hvalues, hfold⟩ := Except.bind_eq_ok.mp hreplayed
    obtain ⟨hjson, rfl⟩ := snapshot_ok hvalues
    have hevents := isJson_arrayOf.mp hjson
    rw [readBack_arrayOf, replayFrom_arrayOf, map_eq_ok] at hfold
    obtain ⟨t, ht, -⟩ := hfold
    obtain ⟨hvalid, -⟩ := (foldlM_replayEvent_eq_ok
      (List.forall_mem_map.mpr fun v hv => isData_readBack (hevents v hv)) List.nodup_nil).mp ht
    have hlast := hvalid history.length (readBack event) (by simp)
    rw [show ReplayState.initial.version + history.length + 1 = history.length + 1 from
      congrArg (· + 1) (Nat.zero_add _)] at hlast
    exact ⟨hevents event (by simp), hlast⟩

theorem closedObject_defined {schemas : List (String × Schema)} {v : JsValue}
    (h : Schema.accepts formats (Schema.closedObject schemas []) v = true) (key : String)
    (hkey : key ∈ schemas.map Prod.fst) : v.property (js key) ≠ .undefined := by
  obtain ⟨plain, props, rfl⟩ := Schema.object_of_closedObject h
  obtain ⟨⟨_, schema⟩, hschema, rfl⟩ := List.mem_map.mp hkey
  exact (accepts_member h (List.mem_filter.mpr ⟨hkey, by simp⟩) hschema).2

theorem items_arrayOf {schema : Schema} {values : List JsValue}
    (h : Schema.accepts formats (.items schema) (Json.arrayOf values) = true) :
    ∀ v ∈ values, Schema.accepts formats schema v = true := by
  intro v hv
  rw [Schema.accepts] at h
  exact List.all_eq_true.mp h v
    (List.mem_map.mpr ⟨(.data, v), List.mem_map_of_mem hv, if_neg (by rintro ⟨⟩)⟩)

theorem appendBatch_isData {command context event : JsValue} {identity : CommandIdentity}
    (hcommand : IsData command) (hcontext : IsData context) (hevent : IsData event)
    (h : Schema.journalAppendBatch.accepts formats
      (Kernel.appendBatch command context identity event) = true) :
    IsData (Kernel.appendBatch command context identity event) := by
  have hof (key : String) := (property_isData hcommand (js key)).resolve_left
  have hin (key : String) := (property_isData hcontext (js key)).resolve_left
  have hstream := Schema.closedObject_member h
    (by simp : ("stream", Schema.journalStream) ∈ _) List.not_mem_nil
  have haudits := Schema.closedObject_member h
    (by simp : ("audit", Schema.arrayBetween 1 1000 Schema.auditEntry) ∈ _) List.not_mem_nil
  have haudit := items_arrayOf (accepts_all.mp haudits (.items Schema.auditEntry) (by simp)) _
    (List.mem_singleton_self _)
  have hstreamData : IsData (.record [
      (js "aggregateType", command.property (js "aggregateType")),
      (js "aggregateId", command.property (js "aggregateId")),
      (js "expectedVersion", command.property (js "expectedVersion"))]) := by
    refine isData_record.mpr ⟨by simp only [List.map_cons, List.map_nil]; decide, ?_⟩
    simp only [List.forall_mem_cons, List.not_mem_nil, false_implies, implies_true, and_true]
    exact ⟨hof _ (closedObject_defined hstream "aggregateType" (by simp)),
      hof _ (closedObject_defined hstream "aggregateId" (by simp)),
      hof _ (closedObject_defined hstream "expectedVersion" (by simp))⟩
  have hauditData : IsData (.record [(js "auditId", context.property (js "auditId")),
      (js "action", .string (js "KERNEL_COMMAND_COMMITTED")),
      (js "occurredAt", context.property (js "occurredAt")),
      (js "payloadHash", .string identity.payloadHash)]) := by
    refine isData_record.mpr ⟨by simp only [List.map_cons, List.map_nil]; decide, ?_⟩
    simp only [List.forall_mem_cons, List.not_mem_nil, false_implies, implies_true, and_true]
    exact ⟨hin _ (closedObject_defined haudit "auditId" (by simp)), isData_string _,
      hin _ (closedObject_defined haudit "occurredAt" (by simp)), isData_string _⟩
  refine isData_record.mpr ⟨by simp only [List.map_cons, List.map_nil]; decide, ?_⟩
  simp only [List.forall_mem_cons, List.not_mem_nil, false_implies, implies_true, and_true]
  exact ⟨isData_string _, isData_string _, isData_string _, isData_string _, isData_string _,
    hin _ (closedObject_defined h "transactionId" (by simp)),
    hin _ (closedObject_defined h "capturedAt" (by simp)), hstreamData,
    isData_arrayOf.mpr (List.forall_mem_singleton.mpr hevent),
    isData_arrayOf.mpr (List.forall_mem_nil _),
    isData_arrayOf.mpr (List.forall_mem_singleton.mpr hauditData)⟩

theorem natural_of_incrementable {v : JsValue} {key : String}
    (h : incrementable (v.property (js key)) = true) :
    (natural v key : ℤ) < maxSafeInteger := by
  unfold incrementable at h
  split at h
  · rename_i x hx
    obtain ⟨hsafe, hless⟩ := Bool.and_eq_true_iff.mp h
    have hden := eq_of_beq (Bool.and_eq_true_iff.mp hsafe).1
    have hless := of_decide_eq_true hless
    rw [← (Rat.den_eq_one_iff x.value).mp hden, Int.cast_lt] at hless
    rw [natural, hx]
    dsimp only
    rw [if_pos hden]
    have hmost : 0 < maxSafeInteger := by decide
    omega
  · cases h

theorem admitCommand_incrementable {given command : JsValue}
    (h : admitCommand runtime formats registry domain given = .ok command) :
    incrementable (command.property (js "expectedVersion")) = true := by
  obtain ⟨captured, -, h⟩ := Except.bind_eq_ok.mp h
  obtain ⟨w, -, h⟩ := Except.bind_eq_ok.mp h
  split at h
  · cases h
  · split at h
    · cases h
    · split at h
      · cases h
      · rename_i hincrementable
        obtain ⟨_, -, h⟩ := Except.bind_eq_ok.mp h
        obtain rfl := Except.ok.inj h
        exact Bool.of_not_eq_false hincrementable

structure Submittable (formats : Format → JsString → Bool) (batch : JsValue) : Prop where
  data : IsData batch
  accepts : Schema.journalAppendBatch.accepts formats batch = true
  audit : ∃ audit, elements batch "audit" = [audit]
  safe : (natural (stream batch) "expectedVersion" : ℤ) < maxSafeInteger

theorem submittable {given command context event : JsValue} {history : List JsValue}
    {transition : PreparedTransition State}
    (hadmitted : admitCommand runtime formats registry domain given = .ok command)
    (h : prepare runtime formats registry domain given (Json.arrayOf history) context =
      .ok transition)
    (hprepared : Prepared runtime formats registry domain command history transition event) :
    Submittable formats transition.batch := by
  obtain ⟨command', captured, _, _, _, _, event', _, _, batch, hcommand, hcaptured, -, -, -, -, -, -,
    -, -, hbatch, rfl⟩ := prepare_eq_ok.mp h
  obtain rfl := Except.ok.inj (hadmitted.symm.trans hcommand)
  obtain ⟨identity, -, hvalid⟩ := Except.bind_eq_ok.mp hbatch
  obtain ⟨rfl, entry, hentry, haccepts⟩ := validate_eq_ok.mp hvalid
  obtain rfl := Option.some.inj (registry.resolve_journalAppendBatch.symm.trans hentry)
  obtain rfl : event' = event := List.singleton_inj.mp hprepared.transition_events
  obtain ⟨hcapturedJson, rfl⟩ := snapshot_ok hcaptured
  obtain ⟨hgiven, rfl⟩ := snapshot_ok (admitCommand_eq_ok hadmitted).1
  refine ⟨appendBatch_isData (isData_readBack hgiven) (isData_readBack hcapturedJson)
    ⟨hprepared.event_valid.1, hprepared.event_keyed⟩ haccepts, haccepts, ⟨_, rfl⟩, ?_⟩
  have hincrementable := admitCommand_incrementable hadmitted
  exact natural_of_incrementable (v := stream (Kernel.appendBatch _ _ identity event'))
    hincrementable

end Preparing

end Aseos.Kernel
