import Aseos.Kernel.Prepare

namespace Aseos.Kernel

open JsValue Persistence

section Separation

theorem append_separator_inj {α : Type*} {x x' y y' : List α} {separator : α}
    (hx : separator ∉ x) (hx' : separator ∉ x')
    (h : x ++ separator :: y = x' ++ separator :: y') : x = x' ∧ y = y' := by
  induction x generalizing x' with
  | nil =>
    cases x' with
    | nil => exact ⟨rfl, List.tail_eq_of_cons_eq h⟩
    | cons c x' =>
      have hhead := List.head_eq_of_cons_eq h
      exact absurd (hhead ▸ List.mem_cons_self) hx'
  | cons c x ih =>
    cases x' with
    | nil =>
      have hhead := List.head_eq_of_cons_eq h
      exact absurd (hhead ▸ List.mem_cons_self) hx
    | cons c' x' =>
      obtain ⟨rfl, htail⟩ := List.cons_eq_cons.mp h
      obtain ⟨rfl, rfl⟩ := ih (fun hmem => hx (List.mem_cons_of_mem _ hmem))
        (fun hmem => hx' (List.mem_cons_of_mem _ hmem)) htail
      exact ⟨rfl, rfl⟩

theorem colon_notMem_typeName {s : JsString} (h : Pattern.canonicalTypeName.test s = true) :
    (58 : CodeUnit) ∉ s := by
  have hletters : Pattern.canonicalTypeName.Letters fun c : CodeUnit => c ≠ 58 := by
    have hunit (c : CodeUnit) (hc : (c.isUpper || c.isLower || c.isDigit) = true) : c ≠ 58 := by
      rintro rfl
      revert hc
      decide
    have htimes (n : ℕ) : (Regex.upTo n (.one fun c : CodeUnit =>
        c.isUpper || c.isLower || c.isDigit)).Letters fun c => c ≠ 58 := by
      induction n with
      | zero => trivial
      | succ n ih => exact ⟨⟨hunit, ih⟩, trivial⟩
    exact ⟨fun c hc => hunit c (by simp [hc]), hunit, htimes 126⟩
  exact fun hmem => Regex.Letters.all_mem hletters ((Regex.test_iff _ _).mp h) _ hmem rfl

end Separation

section Admission

variable {runtime : JsonRuntime} {formats : Format → JsString → Bool}
  {registry : CommandRegistry} {State : Type} {domain : AggregateDefinition State}
  {input command : JsValue}

theorem snapshot_snapshot {v w : JsValue} (hkeys : v.WellFormed)
    (h : snapshot runtime v = .ok w) : snapshot runtime w = .ok w := by
  obtain ⟨hjson, rfl⟩ := snapshot_ok h
  obtain ⟨text, htext⟩ := CanonicalJson.canonicalize_of_isJson hjson
  have hcopy := (@canonicalJson_readBack runtime v text hkeys htext).2
  have hparse := @CanonicalJson.parse_canonicalJson runtime _ _ htext
  rw [snapshot, hcopy]
  simp only [Except.toOption, Option.bind_some, hparse]

theorem admitCommand_eq_ok (h : admitCommand runtime formats registry domain input = .ok command) :
    snapshot runtime input = .ok command ∧
      Schema.commandEnvelope.accepts formats command = true ∧
      ∀ given, snapshot runtime given = .ok command →
        admitCommand runtime formats registry domain given = .ok command := by
  have hrun := h
  obtain ⟨captured, hcaptured, hrest⟩ := Except.bind_eq_ok.mp h
  obtain ⟨w, hvalid, hchecks⟩ := Except.bind_eq_ok.mp hrest
  obtain ⟨rfl, entry, hentry, haccepts⟩ := validate_eq_ok.mp hvalid
  obtain rfl := Option.some.inj (registry.resolve_commandEnvelope.symm.trans hentry)
  have hsame : w = command := by
    split at hchecks
    · cases hchecks
    split at hchecks
    · cases hchecks
    split at hchecks
    · cases hchecks
    obtain ⟨_, -, hchecks⟩ := Except.bind_eq_ok.mp hchecks
    exact Except.ok.inj hchecks
  subst hsame
  refine ⟨hcaptured, haccepts, fun given hgiven => ?_⟩
  rw [admitCommand, hcaptured] at hrun
  rw [admitCommand, hgiven]
  exact hrun

theorem admitCommand_again (hkeys : input.WellFormed)
    (h : admitCommand runtime formats registry domain input = .ok command) :
    admitCommand runtime formats registry domain command = .ok command := by
  obtain ⟨hcaptured, -, hadmits⟩ := admitCommand_eq_ok h
  exact hadmits command (snapshot_snapshot hkeys hcaptured)

theorem commandIdentity_of_isJson (hjson : IsJson command) :
    ∃ canonical, canonicalJson runtime.toHost command = .ok canonical ∧
      commandIdentity runtime.toHost command = .ok
        ⟨text command "commandId", text command "idempotencyKey",
          text command "aggregateType" ++ js ":" ++ text command "aggregateId",
          (runtime.sha256 canonical).text⟩ := by
  obtain ⟨canonical, hcanonical⟩ := CanonicalJson.canonicalize_of_isJson hjson
  refine ⟨canonical, hcanonical, ?_⟩
  rw [commandIdentity, canonicalJsonSha256,
    show canonicalJson runtime.toHost command = .ok canonical from hcanonical]
  rfl

theorem ofBatch_appendBatch (command context : JsValue) (identity : CommandIdentity)
    (event : JsValue) : CommandIdentity.ofBatch (appendBatch command context identity event) =
      identity := rfl

theorem prepare_eq_ok {given history suppliedContext : JsValue}
    {transition : PreparedTransition State} :
    prepare runtime formats registry domain given history suppliedContext = .ok transition ↔
      ∃ command context capturedHistory replayed proposed decision event next state batch,
        admitCommand runtime formats registry domain given = .ok command ∧
        snapshot runtime suppliedContext = .ok context ∧
        snapshot runtime history = .ok capturedHistory ∧
        replay runtime formats registry.toContractRegistry domain (text command "aggregateId")
          capturedHistory = .ok replayed ∧
        Workflow.isNumber (command.property (js "expectedVersion")) replayed.version = true ∧
        domain.decide replayed.state command = .ok proposed ∧
        snapshot runtime proposed = .ok decision ∧
        proposedEvent runtime registry domain command context decision replayed.version =
          .ok event ∧
        replay runtime formats registry.toContractRegistry domain (text command "aggregateId")
          (extended capturedHistory event) = .ok next ∧
        next.state = some state ∧
        preparedBatch runtime formats registry command context event = .ok batch ∧
        transition = ⟨batch, state, [event]⟩ := by
  constructor
  · intro h
    obtain ⟨command, hcommand, h⟩ := Except.bind_eq_ok.mp h
    obtain ⟨context, hcontext, h⟩ := Except.bind_eq_ok.mp h
    obtain ⟨capturedHistory, hhistory, h⟩ := Except.bind_eq_ok.mp h
    obtain ⟨replayed, hreplayed, h⟩ := Except.bind_eq_ok.mp h
    split at h
    · cases h
    rename_i hversion
    obtain ⟨proposed, hproposed, h⟩ := Except.bind_eq_ok.mp h
    obtain ⟨decision, hdecision, h⟩ := Except.bind_eq_ok.mp h
    obtain ⟨event, hevent, h⟩ := Except.bind_eq_ok.mp h
    obtain ⟨next, hnext, h⟩ := Except.bind_eq_ok.mp h
    split at h
    · cases h
    rename_i state hstate
    obtain ⟨batch, hbatch, h⟩ := Except.bind_eq_ok.mp h
    exact ⟨command, context, capturedHistory, replayed, proposed, decision, event, next, state,
      batch, hcommand, hcontext, hhistory, hreplayed, Bool.of_not_eq_false hversion, hproposed,
      hdecision, hevent, hnext, hstate, hbatch, (Except.ok.inj h).symm⟩
  · rintro ⟨command, context, capturedHistory, replayed, proposed, decision, event, next, state,
      batch, hcommand, hcontext, hhistory, hreplayed, hversion, hproposed, hdecision, hevent,
      hnext, hstate, hbatch, rfl⟩
    rw [prepare, hcommand, Except.ok_bind, hcontext, Except.ok_bind, hhistory, Except.ok_bind]
    simp only [hreplayed, Except.ok_bind, hversion, Bool.true_eq_false, if_false, hproposed,
      hdecision, hevent, hnext, hstate, hbatch]
    rfl

theorem ofBatch_prepare {given history context : JsValue} {transition : PreparedTransition State}
    (hadmitted : admitCommand runtime formats registry domain given = .ok command)
    (h : prepare runtime formats registry domain given history context = .ok transition) :
    commandIdentity runtime.toHost command = .ok (CommandIdentity.ofBatch transition.batch) := by
  obtain ⟨command', captured, _, _, _, _, event, _, _, batch, hcommand, -, -, -, -, -, -, -, -, -,
    hbatch, rfl⟩ := prepare_eq_ok.mp h
  obtain rfl := Except.ok.inj (hadmitted.symm.trans hcommand)
  obtain ⟨identity, hidentity, hvalid⟩ := Except.bind_eq_ok.mp hbatch
  obtain ⟨rfl, -⟩ := validate_eq_ok.mp hvalid
  rw [ofBatch_appendBatch]
  exact ofCanonical_eq_ok.mp hidentity

end Admission

section Identity

variable (runtime : JsonRuntime) (formats : Format → JsString → Bool)

def Admitted (command : JsValue) : Prop :=
  ∃ (State : Type) (registry : CommandRegistry) (domain : AggregateDefinition State)
    (input : JsValue), input.WellFormed ∧
      admitCommand runtime formats registry domain input = .ok command

def NoCollision (v w : JsValue) : Prop :=
  ∀ s t, canonicalJson runtime.toHost v = .ok s → canonicalJson runtime.toHost w = .ok t →
    (runtime.sha256 s).text = (runtime.sha256 t).text → s = t

variable {runtime formats} {command command' : JsValue} {identity identity' : CommandIdentity}

theorem Admitted.spec (h : Admitted runtime formats command) :
    snapshot runtime command = .ok command ∧ IsJson command ∧ Keyed command ∧
      Schema.commandEnvelope.accepts formats command = true := by
  obtain ⟨State, registry, domain, input, hkeys, hadmit⟩ := h
  obtain ⟨hcaptured, haccepts, -⟩ := admitCommand_eq_ok hadmit
  obtain ⟨hjson, hread⟩ := snapshot_ok hcaptured
  obtain ⟨-, hcopy⟩ := readBack_spec hjson (hjson.keyed hkeys)
  rw [← hread] at hcopy
  exact ⟨snapshot_snapshot hkeys hcaptured, hcopy.1, hcopy.2, haccepts⟩

theorem Admitted.typeName (h : Admitted runtime formats command) :
    (58 : CodeUnit) ∉ text command "aggregateType" := by
  obtain ⟨-, -, -, haccepts⟩ := h.spec
  have hmember := @Schema.closedObject_member formats _ _ _ haccepts "aggregateType"
    .canonicalTypeName (by simp) (by simp)
  obtain ⟨s, hs, htest⟩ := Schema.string_of_pattern hmember
  rw [text, hs]
  exact colon_notMem_typeName htest

theorem Admitted.eq_of_normal (h : Admitted runtime formats command)
    (h' : Admitted runtime formats command') (hnormal : command.normal = command'.normal) :
    command = command' := by
  obtain ⟨hcopy, hjson, hkeyed, -⟩ := h.spec
  obtain ⟨hcopy', hjson', hkeyed', -⟩ := h'.spec
  have htext := (@canonicalJson_eq_iff runtime _ _ hjson hjson' hkeyed hkeyed').mpr hnormal
  have hsame : snapshot runtime command = snapshot runtime command' := by
    rw [snapshot, snapshot, htext]
  exact Except.ok.inj (hcopy.symm.trans (hsame.trans hcopy'))

theorem Admitted.identity_eq_iff (h : Admitted runtime formats command)
    (h' : Admitted runtime formats command')
    (hidentity : commandIdentity runtime.toHost command = .ok identity)
    (hidentity' : commandIdentity runtime.toHost command' = .ok identity')
    (hhash : NoCollision runtime command command') :
    identity = identity' ↔ command.normal = command'.normal := by
  obtain ⟨-, hjson, hkeyed, -⟩ := h.spec
  obtain ⟨-, hjson', hkeyed', -⟩ := h'.spec
  obtain ⟨s, hs, hcomputed⟩ := @commandIdentity_of_isJson runtime _ hjson
  obtain ⟨t, ht, hcomputed'⟩ := @commandIdentity_of_isJson runtime _ hjson'
  obtain rfl := Except.ok.inj (hidentity.symm.trans hcomputed)
  obtain rfl := Except.ok.inj (hidentity'.symm.trans hcomputed')
  constructor
  · intro hsame
    have hdigest := congrArg CommandIdentity.payloadHash hsame
    obtain rfl := hhash s t hs ht hdigest
    exact (canonicalJson_eq_iff hjson hjson' hkeyed hkeyed').mp (hs.trans ht.symm)
  · intro hnormal
    obtain rfl := h.eq_of_normal h' hnormal
    exact Except.ok.inj (hidentity.symm.trans hidentity')

theorem Admitted.effectScope_ne (h : Admitted runtime formats command)
    (h' : Admitted runtime formats command')
    (hidentity : commandIdentity runtime.toHost command = .ok identity)
    (hidentity' : commandIdentity runtime.toHost command' = .ok identity')
    (hstream : text command "aggregateType" ≠ text command' "aggregateType" ∨
      text command "aggregateId" ≠ text command' "aggregateId") :
    identity.effectScope ≠ identity'.effectScope := by
  obtain ⟨-, hjson, -⟩ := h.spec
  obtain ⟨-, hjson', -⟩ := h'.spec
  obtain ⟨s, -, hcomputed⟩ := @commandIdentity_of_isJson runtime _ hjson
  obtain ⟨t, -, hcomputed'⟩ := @commandIdentity_of_isJson runtime _ hjson'
  obtain rfl := Except.ok.inj (hidentity.symm.trans hcomputed)
  obtain rfl := Except.ok.inj (hidentity'.symm.trans hcomputed')
  intro hscope
  have hcolon : js ":" = [(58 : CodeUnit)] := rfl
  simp only [hcolon, List.append_assoc, List.singleton_append] at hscope
  obtain ⟨htype, hid⟩ := append_separator_inj h.typeName h'.typeName hscope
  exact hstream.elim (absurd htype) (absurd hid)

end Identity

section CommandIdentity

variable (runtime : JsonRuntime) (formats : Format → JsString → Bool)
  (registry : CommandRegistry) {State : Type} (domain : AggregateDefinition State)

theorem command_identity :
    (∀ input command, input.WellFormed →
      admitCommand runtime formats registry domain input = .ok command →
      admitCommand runtime formats registry domain command = .ok command ∧
      ∃ identity, commandIdentity runtime.toHost command = .ok identity ∧
        ∀ given history context transition,
          admitCommand runtime formats registry domain given = .ok command →
          prepare runtime formats registry domain given history context = .ok transition →
          CommandIdentity.ofBatch transition.batch = identity) ∧
    ∀ command command' identity identity', Admitted runtime formats command →
      Admitted runtime formats command' →
      commandIdentity runtime.toHost command = .ok identity →
      commandIdentity runtime.toHost command' = .ok identity' →
      (NoCollision runtime command command' →
        (identity = identity' ↔ command.normal = command'.normal)) ∧
      (text command "aggregateType" ≠ text command' "aggregateType" ∨
          text command "aggregateId" ≠ text command' "aggregateId" →
        identity.effectScope ≠ identity'.effectScope) := by
  refine ⟨fun input command hkeys hadmit => ⟨admitCommand_again hkeys hadmit, ?_⟩, ?_⟩
  · obtain ⟨-, hjson, -⟩ := Admitted.spec ⟨State, registry, domain, input, hkeys, hadmit⟩
    obtain ⟨_, -, hidentity⟩ := @commandIdentity_of_isJson runtime _ hjson
    refine ⟨_, hidentity, fun given history context transition hgiven hprepare => ?_⟩
    exact Except.ok.inj ((ofBatch_prepare hgiven hprepare).symm.trans hidentity)
  · intro command command' identity identity' h h' hidentity hidentity'
    exact ⟨h.identity_eq_iff h' hidentity hidentity', h.effectScope_ne h' hidentity hidentity'⟩

end CommandIdentity

section Sample

def oneDigest : HexDigest := ⟨49 :: List.replicate 63 48, by decide⟩

noncomputable def parityRuntime : JsonRuntime :=
  decimalRuntime fun s => if s.length % 2 = 0 then zeroDigest else oneDigest

def sampleSchemaId : JsString := js "urn:aseos:schema:sample:1.0.0"

def sampleCommandRegistry : CommandRegistry where
  byId schemaId :=
    if schemaId = SchemaId.domainEventEnvelope then
      some ⟨js "1.0.0", zeroDigest.text, .domainEventEnvelope⟩
    else if schemaId = SchemaId.commandEnvelope then
      some ⟨js "1.0.0", zeroDigest.text, .commandEnvelope⟩
    else if schemaId = SchemaId.journalAppendBatch then
      some ⟨js "1.0.0", zeroDigest.text, .journalAppendBatch⟩
    else if schemaId = sampleSchemaId then
      some ⟨js "1.0.0", zeroDigest.text, .type .object⟩
    else none
  eventEnvelopeHash := zeroDigest.text
  eventEnvelope := if_pos rfl
  commandEnvelopeHash := zeroDigest.text
  commandEnvelope := by rw [if_neg (by decide), if_pos rfl]
  journalAppendBatchHash := zeroDigest.text
  journalAppendBatch := by rw [if_neg (by decide), if_neg (by decide), if_pos rfl]

def sampleDomain : AggregateDefinition ℕ where
  aggregateType := js "Counter"
  commandSchemas _ := some sampleSchemaId
  eventSchemas _ := some sampleSchemaId
  decide _ _ := .ok (.record [(js "eventType", .string (js "Counted")), (js "payload", .record [])])
  apply state _ := .ok (some (state.getD 0 + 1))

def sampleCommand (aggregateId : String) : JsValue :=
  .record [(js "schemaVersion", .string (js "1.0.0")),
    (js "commandId", .string (js "01890f3e-0000-7000-8000-000000000001")),
    (js "commandType", .string (js "Count")),
    (js "aggregateType", .string (js "Counter")), (js "aggregateId", .string (js aggregateId)),
    (js "expectedVersion", .number (.ofInt 0 zero_exact)),
    (js "issuedAt", .string (js "2024-01-01T00:00:00.000Z")),
    (js "actor", .record [(js "actorType", .string (js "SYSTEM")),
      (js "actorId", .string (js "test"))]),
    (js "correlationId", .string (js "01890f3e-0000-7000-8000-000000000003")),
    (js "idempotencyKey", .string (js "0123456789abcdef")),
    (js "payloadSchema", .record [(js "schemaId", .string sampleSchemaId),
      (js "schemaVersion", .string (js "1.0.0")), (js "schemaHash", .string zeroDigest.text)]),
    (js "payloadHash", .string zeroDigest.text), (js "payload", .record [])]

def sampleContext : JsValue :=
  .record [(js "eventId", .string (js "01890f3e-0000-7000-8000-000000000005")),
    (js "auditId", .string (js "01890f3e-0000-7000-8000-000000000006")),
    (js "transactionId", .string (js "01890f3e-0000-7000-8000-000000000007")),
    (js "occurredAt", .string (js "2024-01-01T00:00:00.000Z"))]

theorem isJson_of_text {v : JsValue}
    (h : (canonicalJson parityRuntime.toHost v).toOption.isSome = true) : IsJson v := by
  obtain ⟨text, htext⟩ := Option.isSome_iff_exists.mp h
  exact CanonicalJson.isJson_of_canonicalize (Except.toOption_eq_some.mp htext)

theorem wellFormed_sampleCommand (aggregateId : String) :
    (sampleCommand aggregateId).WellFormed := by
  have hkeys : (["schemaVersion", "commandId", "commandType", "aggregateType", "aggregateId",
      "expectedVersion", "issuedAt", "actor", "correlationId", "idempotencyKey", "payloadSchema",
      "payloadHash", "payload"].map js).Nodup := by
    decide
  refine wellFormed_record hkeys ?_
  simp only [List.forall_mem_cons]
  refine ⟨trivial, trivial, trivial, trivial, trivial, trivial, trivial, ?_, trivial, trivial, ?_,
    trivial, ?_, List.forall_mem_nil _⟩
  all_goals
    refine wellFormed_record (by decide) ?_
    simp [JsValue.WellFormed]

theorem admit_sample {aggregateId : String}
    (h : (admitCommand parityRuntime sampleFormats sampleCommandRegistry sampleDomain
      (sampleCommand aggregateId)).toOption.isSome = true) :
    admitCommand parityRuntime sampleFormats sampleCommandRegistry sampleDomain
      (sampleCommand aggregateId) = .ok (sampleCommand aggregateId).readBack := by
  obtain ⟨w, hw⟩ := Option.isSome_iff_exists.mp h
  have hadmit := Except.toOption_eq_some.mp hw
  obtain rfl := (snapshot_ok (admitCommand_eq_ok hadmit).1).2
  exact hadmit

theorem admit_run : admitCommand parityRuntime sampleFormats sampleCommandRegistry sampleDomain
    (sampleCommand "run") = .ok (sampleCommand "run").readBack := by
  refine admit_sample ?_
  rw [admitCommand, snapshot_of_isJson (isJson_of_text (by decide))]
  decide +kernel

theorem admit_rerun : admitCommand parityRuntime sampleFormats sampleCommandRegistry sampleDomain
    (sampleCommand "runs") = .ok (sampleCommand "runs").readBack := by
  refine admit_sample ?_
  rw [admitCommand, snapshot_of_isJson (isJson_of_text (by decide))]
  decide +kernel

def sampleEvent : JsValue :=
  domainEvent (sampleCommand "run").readBack sampleContext.readBack
    (JsValue.record [(js "eventType", .string (js "Counted")), (js "payload", .record [])]).readBack
    0 (reference sampleSchemaId ⟨js "1.0.0", zeroDigest.text, .type .object⟩) zeroDigest

theorem replay_sample {events : List JsValue} (hjson : ∀ v ∈ events, IsJson v)
    {r : ReplayResult ℕ}
    (h : ((events.map readBack).foldlM (replayEvent parityRuntime sampleFormats
      sampleCommandRegistry.toContractRegistry sampleDomain (js "run")) .initial).toOption.map
        (fun s => (s.state, s.version)) = some (r.state, r.version)) :
    replay parityRuntime sampleFormats sampleCommandRegistry.toContractRegistry sampleDomain
      (js "run") (Json.arrayOf events) = .ok r := by
  obtain ⟨s, hs, hresult⟩ := Option.map_eq_some_iff.mp h
  obtain ⟨state, version⟩ := r
  obtain ⟨rfl, rfl⟩ := Prod.mk.inj hresult
  rw [replay_eq_replayFrom (by decide), snapshot_of_isJson (isJson_arrayOf.mpr hjson),
    readBack_arrayOf, Except.ok_bind, replayFrom_arrayOf, Except.toOption_eq_some.mp hs]
  rfl

theorem prepare_run : ∃ transition, prepare parityRuntime sampleFormats sampleCommandRegistry
    sampleDomain (sampleCommand "run") (Json.arrayOf []) sampleContext = .ok transition := by
  have hnone : ∀ v ∈ ([] : List JsValue), IsJson v := fun _ h => absurd h List.not_mem_nil
  have hfirst : replay parityRuntime sampleFormats sampleCommandRegistry.toContractRegistry
      sampleDomain (js "run") (Json.arrayOf []) = .ok ⟨none, 0⟩ := replay_sample hnone rfl
  have hevent : IsJson sampleEvent := isJson_of_text (by decide)
  have hnext : replay parityRuntime sampleFormats sampleCommandRegistry.toContractRegistry
      sampleDomain (js "run") (Json.arrayOf [sampleEvent]) = .ok ⟨some 1, 1⟩ := by
    refine replay_sample (fun v hv => List.mem_singleton.mp hv ▸ hevent) ?_
    decide +kernel
  obtain ⟨batch, hbatch⟩ : ∃ batch, (preparedBatch parityRuntime sampleFormats
      sampleCommandRegistry (sampleCommand "run").readBack sampleContext.readBack
      sampleEvent).toOption = some batch := Option.isSome_iff_exists.mp (by decide +kernel)
  refine ⟨_, prepare_eq_ok.mpr ⟨_, _, _, _, _, _, sampleEvent, _, 1, batch, admit_run,
    snapshot_of_isJson (isJson_of_text (by decide)), snapshot_of_isJson (isJson_arrayOf.mpr hnone),
    hfirst, by decide, rfl, snapshot_of_isJson (isJson_of_text (by decide)), rfl, hnext, rfl,
    Except.toOption_eq_some.mp hbatch, rfl⟩⟩

theorem noCollision_sample : NoCollision parityRuntime (sampleCommand "run").readBack
    (sampleCommand "runs").readBack := by
  have hdigests : (canonicalJson parityRuntime.toHost (sampleCommand "run").readBack).toOption.map
      (fun s => (parityRuntime.sha256 s).text) ≠
        (canonicalJson parityRuntime.toHost (sampleCommand "runs").readBack).toOption.map
          (fun s => (parityRuntime.sha256 s).text) := by
    decide +kernel
  intro s t hs ht hsame
  rw [hs, ht] at hdigests
  exact absurd (congrArg some hsame) hdigests

theorem sample_identities : ∃ identity identity' transition,
    prepare parityRuntime sampleFormats sampleCommandRegistry sampleDomain (sampleCommand "run")
      (Json.arrayOf []) sampleContext = .ok transition ∧
    CommandIdentity.ofBatch transition.batch = identity ∧
    commandIdentity parityRuntime.toHost (sampleCommand "runs").readBack = .ok identity' ∧
    identity.effectScope ≠ identity'.effectScope ∧ identity ≠ identity' ∧
    (sampleCommand "run").readBack.normal ≠ (sampleCommand "runs").readBack.normal := by
  obtain ⟨hstable, hseparate⟩ := command_identity parityRuntime sampleFormats
    sampleCommandRegistry sampleDomain
  obtain ⟨-, identity, hidentity, hbatch⟩ :=
    hstable _ _ (wellFormed_sampleCommand "run") admit_run
  obtain ⟨-, identity', hidentity', -⟩ :=
    hstable _ _ (wellFormed_sampleCommand "runs") admit_rerun
  obtain ⟨transition, htransition⟩ := prepare_run
  obtain ⟨hsame, hscope⟩ := hseparate _ _ _ _
    ⟨_, _, _, _, wellFormed_sampleCommand "run", admit_run⟩
    ⟨_, _, _, _, wellFormed_sampleCommand "runs", admit_rerun⟩ hidentity hidentity'
  have hscopes := hscope (.inr (by decide))
  have hdiffer : identity ≠ identity' := fun h => hscopes (congrArg _ h)
  exact ⟨identity, identity', transition, htransition, hbatch _ _ _ _ admit_run htransition,
    hidentity', hscopes, hdiffer, fun h => hdiffer ((hsame noCollision_sample).mpr h)⟩

end Sample

end Aseos.Kernel
