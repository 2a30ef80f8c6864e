import Aseos.Kernel.Workflow

namespace Aseos

namespace Kernel

open JsValue

section Snapshot

variable {runtime : JsonRuntime}

theorem snapshot_of_isJson {v : JsValue} (h : IsJson v) : snapshot runtime v = .ok v.readBack := by
  obtain ⟨text, htext⟩ := CanonicalJson.canonicalize_of_isJson h
  have hparse := @CanonicalJson.parse_canonicalJson runtime _ _ htext
  rw [snapshot, show canonicalJson runtime.toHost v = .ok text from htext]
  simp only [Except.toOption, Option.bind_some, hparse]

theorem snapshot_of_not_isJson {v : JsValue} (h : ¬ IsJson v) :
    snapshot runtime v = fail .contractInvalid (js "Input must be canonical JSON data") := by
  cases htext : canonicalJson runtime.toHost v with
  | ok text => exact absurd (CanonicalJson.isJson_of_canonicalize htext) h
  | error e =>
    rw [snapshot, htext]
    rfl

theorem snapshot_ok {v w : JsValue} (h : snapshot runtime v = .ok w) :
    IsJson v ∧ w = v.readBack := by
  by_cases hv : IsJson v
  · rw [snapshot_of_isJson hv] at h
    exact ⟨hv, (Except.ok.inj h).symm⟩
  · rw [snapshot_of_not_isJson hv] at h
    cases h

theorem isJson_arrayOf {values : List JsValue} :
    IsJson (Json.arrayOf values) ↔ ∀ v ∈ values, IsJson v := by
  rw [Json.arrayOf, isJson_array]
  simp

theorem readBack_arrayOf (values : List JsValue) :
    (Json.arrayOf values).readBack = Json.arrayOf (values.map readBack) := by
  rw [Json.arrayOf, readBack, slotsReadBack_eq, List.map_map]
  rfl

theorem arrayOf_injective {values values' : List JsValue}
    (h : Json.arrayOf values = Json.arrayOf values') : values = values' := by
  have hslots := (JsValue.array.inj h).1
  exact List.map_injective_iff.mpr (fun v w hvw => (Prod.mk.inj hvw).2) hslots

end Snapshot

section Members

theorem property_spec {v : JsValue} (hjson : IsJson v) (hkeyed : Keyed v) (key : JsString) :
    v.property key = .undefined ∨ IsJson (v.property key) ∧ Keyed (v.property key) := by
  cases v with
  | object plain props =>
    rw [property, Props.get]
    cases hfind : props.find? (fun p => p.1.key = .text key) with
    | none => exact .inl rfl
    | some p =>
      have hp := List.mem_of_find?_eq_some hfind
      exact .inr ⟨((isJson_object.mp hjson).2 p hp).2, hkeyed.props.2.2 p hp⟩
  | _ => exact .inl rfl

theorem isJson_reference (schemaId : JsString) (entry : SchemaRegistryEntry) :
    IsJson (reference schemaId entry) ∧ Keyed (reference schemaId entry) := by
  have hatom (s : JsString) : IsJson (.string s) ∧ Keyed (.string s) :=
    ⟨(isJson_atom (by simp) (by simp)).mpr trivial, .atom (by simp) (by simp)⟩
  refine ⟨isJson_object.mpr ⟨rfl, ?_⟩, .object ?_ ?_ ?_⟩
  · simp [Field.own, Field.sortKey, Field.name?, (hatom _).1]
  · simp [Field.own, Field.sortKey, Field.name?]
  · change ([js "schemaId", js "schemaVersion", js "schemaHash"] : List JsString).Nodup
    decide
  · simp [(hatom _).2]

variable {formats : Format → JsString → Bool}

theorem envelope_member {event : JsValue}
    (h : Schema.domainEventEnvelope.accepts formats event = true) {key : String} {schema : Schema}
    (hkey : key ∈ Schema.domainEventEnvelopeKeys)
    (hschema : (key, schema) ∈ Schema.domainEventEnvelopeMembers) :
    schema.accepts formats (event.property (js key)) = true ∧
      event.property (js key) ≠ .undefined := by
  have htype := accepts_all.mp h (.type .object) List.mem_cons_self
  cases event with
  | object plain props => exact accepts_member h hkey hschema
  | _ => cases htype

theorem envelope_text {event : JsValue}
    (h : Schema.domainEventEnvelope.accepts formats event = true) :
    ∀ key ∈ ["eventId", "eventType", "aggregateType", "aggregateId", "payloadHash"],
      event.property (js key) = .string (text event key) := by
  intro key hkey
  obtain ⟨keywords, hkeys, hmember⟩ : ∃ keywords, key ∈ Schema.domainEventEnvelopeKeys ∧
      (key, Schema.all (.type .string :: keywords)) ∈ Schema.domainEventEnvelopeMembers := by
    simp only [List.mem_cons, List.not_mem_nil, or_false] at hkey
    rcases hkey with rfl | rfl | rfl | rfl | rfl
    · exact ⟨[.pattern Pattern.uuidV7], by decide, by simp [Schema.domainEventEnvelopeMembers,
        Schema.uuidV7]⟩
    · exact ⟨[.pattern Pattern.canonicalTypeName], by decide, by
        simp [Schema.domainEventEnvelopeMembers, Schema.canonicalTypeName]⟩
    · exact ⟨[.pattern Pattern.canonicalTypeName], by decide, by
        simp [Schema.domainEventEnvelopeMembers, Schema.canonicalTypeName]⟩
    · exact ⟨[.minLength 1, .maxLength 256], by decide, by
        simp [Schema.domainEventEnvelopeMembers, Schema.boundedString]⟩
    · exact ⟨[.pattern Pattern.sha256], by decide, by
        simp [Schema.domainEventEnvelopeMembers, Schema.sha256]⟩
  obtain ⟨s, hs⟩ := accepts_type_string (envelope_member h hkeys hmember).1
  rw [text, hs]
  rfl

end Members

section Events

variable (runtime : JsonRuntime) (formats : Format → JsString → Bool)
  (registry : ContractRegistry) {State : Type} (domain : AggregateDefinition State)
  (aggregateId : JsString)

def eventId (event : JsValue) : JsString := text event "eventId"

structure ValidPayload (requiredSchema : JsString) (event : JsValue) : Prop where
  reference : ∃ entry, registry.resolve requiredSchema (js "1.0.0") = some entry ∧
    (event.property (js "payloadSchema")).normal = (reference requiredSchema entry).normal ∧
    entry.schema.accepts formats (event.property (js "payload")) = true
  hash : ∃ digest, canonicalJsonSha256 runtime.toHost (event.property (js "payload")) = .ok digest ∧
    event.property (js "payloadHash") = .string digest.text

structure ValidEvent (version : ℕ) (event : JsValue) : Prop where
  envelope : Schema.domainEventEnvelope.accepts formats event = true
  aggregateType : event.property (js "aggregateType") = .string domain.aggregateType
  aggregateId : event.property (js "aggregateId") = .string aggregateId
  aggregateVersion : ∃ x : Double, event.property (js "aggregateVersion") = .number (.finite x) ∧
    x.isSafeInteger = true ∧ x.value = version
  payload : ∃ eventType requiredSchema, event.property (js "eventType") = .string eventType ∧
    domain.eventSchemas eventType = some requiredSchema ∧
    ValidPayload runtime formats registry requiredSchema event

variable {runtime formats registry domain aggregateId}

theorem isNextVersion_iff {value : JsValue} {version : ℕ} :
    isNextVersion value version = true ↔
      ∃ x : Double, value = .number (.finite x) ∧ x.isSafeInteger = true ∧
        x.value = (version + 1 : ℕ) := by
  cases value with
  | number n =>
    cases n with
    | finite x => simp [isNextVersion]
    | _ => simp [isNextVersion]
  | _ => simp [isNextVersion]

theorem validate_eq_ok {schemaId : JsString} {value w : JsValue} :
    validate formats registry schemaId value = .ok w ↔
      w = value ∧ ∃ entry, registry.resolve schemaId (js "1.0.0") = some entry ∧
        entry.schema.accepts formats value = true := by
  rw [validate, ContractRegistry.validate]
  constructor
  · intro h
    cases hentry : registry.resolve schemaId (js "1.0.0") with
    | none =>
      rw [hentry] at h
      cases h
    | some entry =>
      simp only [hentry] at h
      split at h
      · rename_i haccepts
        exact ⟨(Except.ok.inj h).symm, entry, rfl, haccepts⟩
      · cases h
  · rintro ⟨rfl, entry, hentry, haccepts⟩
    simp only [hentry]
    exact if_pos haccepts

theorem ofCanonical_eq_ok {α : Type} {x : Except CanonicalError α} {a : α} :
    ofCanonical x = .ok a ↔ x = .ok a := by
  cases x with
  | ok b => simp [ofCanonical]
  | error e => simp [ofCanonical]

theorem validatePayload_eq_ok {event : JsValue} {requiredSchema : JsString}
    (hjson : IsJson event) (hkeyed : Keyed event)
    (henvelope : Schema.domainEventEnvelope.accepts formats event = true) :
    validatePayload runtime formats registry event requiredSchema = .ok () ↔
      ValidPayload runtime formats registry requiredSchema event := by
  have hdefined := (@envelope_member _ _ henvelope "payloadSchema" .schemaRef (by decide)
    (by simp [Schema.domainEventEnvelopeMembers])).2
  obtain ⟨hdeclared, hdeclaredKeys⟩ :=
    (property_spec hjson hkeyed (js "payloadSchema")).resolve_left hdefined
  have hhash := envelope_text henvelope "payloadHash" (by decide)
  constructor
  · intro h
    rw [validatePayload] at h
    obtain ⟨ref, href, h⟩ := Except.bind_eq_ok.mp h
    rw [schemaRef] at href
    cases hentry : registry.resolve requiredSchema (js "1.0.0") with
    | none =>
      rw [hentry] at href
      cases href
    | some entry =>
      rw [hentry] at href
      obtain rfl := Except.ok.inj href
      obtain ⟨required, hrequired, h⟩ := Except.bind_eq_ok.mp h
      obtain ⟨declared, hsame, h⟩ := Except.bind_eq_ok.mp h
      split at h
      · cases h
      · rename_i htexts
        obtain ⟨digest, hdigest, h⟩ := Except.bind_eq_ok.mp h
        split at h
        · cases h
        · rename_i hhashes
          obtain ⟨w, hw, -⟩ := Except.bind_eq_ok.mp h
          obtain ⟨-, entry', hentry', haccepts⟩ := validate_eq_ok.mp hw
          obtain rfl := Option.some.inj (hentry.symm.trans hentry')
          obtain ⟨href, hrefKeys⟩ := isJson_reference requiredSchema entry
          have htext : canonicalJson runtime.toHost (event.property (js "payloadSchema")) =
              canonicalJson runtime.toHost (reference requiredSchema entry) := by
            rw [ofCanonical_eq_ok.mp hsame, ofCanonical_eq_ok.mp hrequired, not_not.mp htexts]
          refine ⟨⟨entry, hentry, ?_, haccepts⟩, digest, ofCanonical_eq_ok.mp hdigest, ?_⟩
          · exact (canonicalJson_eq_iff hdeclared href hdeclaredKeys hrefKeys).mp htext
          · rw [hhash, not_not.mp hhashes]
  · rintro ⟨⟨entry, hentry, hnormal, haccepts⟩, digest, hdigest, hpayloadHash⟩
    obtain ⟨href, hrefKeys⟩ := isJson_reference requiredSchema entry
    have htext := (@canonicalJson_eq_iff runtime _ _ hdeclared href hdeclaredKeys
      hrefKeys).mpr hnormal
    obtain ⟨required, hrequired⟩ :=
      CanonicalJson.canonicalize_of_isJson href
    have hsame : digest.text = text event "payloadHash" := by
      rw [hhash] at hpayloadHash
      exact (JsValue.string.inj hpayloadHash).symm
    have hvalid : validate formats registry requiredSchema (event.property (js "payload")) =
        .ok (event.property (js "payload")) :=
      validate_eq_ok.mpr ⟨rfl, entry, hentry, haccepts⟩
    rw [validatePayload, schemaRef, hentry]
    refine Except.bind_eq_ok.mpr ⟨_, rfl, Except.bind_eq_ok.mpr ⟨required, ?_, ?_⟩⟩
    · exact ofCanonical_eq_ok.mpr hrequired
    · refine Except.bind_eq_ok.mpr ⟨required, ofCanonical_eq_ok.mpr (htext.trans hrequired), ?_⟩
      rw [if_neg (not_not.mpr rfl)]
      refine Except.bind_eq_ok.mpr ⟨digest, ofCanonical_eq_ok.mpr hdigest, ?_⟩
      rw [if_neg (not_not.mpr hsame), hvalid]
      rfl

theorem replayEvent_eq_ok {s t : ReplayState State} {event : JsValue} (hjson : IsJson event)
    (hkeyed : Keyed event) :
    replayEvent runtime formats registry domain aggregateId s event = .ok t ↔
      ValidEvent runtime formats registry domain aggregateId (s.version + 1) event ∧
        eventId event ∉ s.eventIds ∧ ∃ state, domain.apply s.state event = .ok state ∧
          t = ⟨state, s.version + 1, s.eventIds ++ [eventId event]⟩ := by
  constructor
  · intro hrun
    obtain ⟨w, hw, h⟩ := Except.bind_eq_ok.mp hrun
    obtain ⟨rfl, entry, hentry, haccepts⟩ := validate_eq_ok.mp hw
    obtain rfl := Option.some.inj (registry.resolve_eventEnvelope.symm.trans hentry)
    have htext := envelope_text haccepts
    cases hschema : domain.eventSchemas (text w "eventType") with
    | none =>
      simp only [hschema] at h
      cases h
    | some requiredSchema =>
      simp only [hschema] at h
      split at h
      · cases h
      · rename_i hchecks
        push Not at hchecks
        obtain ⟨htype, hid, hversion, hfresh⟩ := hchecks
        obtain ⟨_, hpayload, h⟩ := Except.bind_eq_ok.mp h
        obtain ⟨state, hstate, h⟩ := Except.bind_eq_ok.mp h
        refine ⟨⟨haccepts, ?_, ?_, ?_, ?_⟩, hfresh, state, hstate, (Except.ok.inj h).symm⟩
        · rw [htext "aggregateType" (by decide), htype]
        · rw [htext "aggregateId" (by decide), hid]
        · exact isNextVersion_iff.mp (by simpa using hversion)
        · exact ⟨_, requiredSchema, htext "eventType" (by decide), hschema,
            (validatePayload_eq_ok hjson hkeyed haccepts).mp hpayload⟩
  · rintro ⟨hvalid, hfresh, state, hstate, rfl⟩
    have htext := envelope_text hvalid.envelope
    obtain ⟨eventType, requiredSchema, htype, hschema, hpayload⟩ := hvalid.payload
    rw [htext "eventType" (by decide)] at htype
    obtain rfl := JsValue.string.inj htype
    refine Except.bind_eq_ok.mpr ⟨event, ?_, ?_⟩
    · exact validate_eq_ok.mpr ⟨rfl, _, registry.resolve_eventEnvelope, hvalid.envelope⟩
    · simp only [hschema]
      rw [if_neg]
      · refine Except.bind_eq_ok.mpr ⟨(), ?_, Except.bind_eq_ok.mpr ⟨state, hstate, rfl⟩⟩
        exact (validatePayload_eq_ok hjson hkeyed hvalid.envelope).mpr hpayload
      · have haggregateType := hvalid.aggregateType
        have haggregateId := hvalid.aggregateId
        rw [htext "aggregateType" (by decide)] at haggregateType
        rw [htext "aggregateId" (by decide)] at haggregateId
        push Not
        refine ⟨JsValue.string.inj haggregateType, JsValue.string.inj haggregateId, ?_, hfresh⟩
        simpa using isNextVersion_iff.mpr hvalid.aggregateVersion

variable (runtime formats registry domain aggregateId) in
def ValidFrom (start : ℕ) (events : List JsValue) : Prop :=
  ∀ i event, events[i]? = some event →
    ValidEvent runtime formats registry domain aggregateId (start + i + 1) event

theorem validFrom_cons {start : ℕ} {event : JsValue} {events : List JsValue} :
    ValidFrom runtime formats registry domain aggregateId start (event :: events) ↔
      ValidEvent runtime formats registry domain aggregateId (start + 1) event ∧
        ValidFrom runtime formats registry domain aggregateId (start + 1) events := by
  constructor
  · intro h
    refine ⟨h 0 event rfl, fun i e he => ?_⟩
    have hnext := h (i + 1) e (by simpa using he)
    rwa [show start + (i + 1) + 1 = start + 1 + i + 1 by omega] at hnext
  · rintro ⟨hfirst, hrest⟩ i e he
    cases i with
    | zero =>
      obtain rfl := Option.some.inj he
      exact hfirst
    | succ i =>
      have hnext := hrest i e (by simpa using he)
      rwa [show start + 1 + i + 1 = start + (i + 1) + 1 by omega] at hnext

theorem foldlM_replayEvent_eq_ok {events : List JsValue} {s t : ReplayState State}
    (hevents : ∀ event ∈ events, IsJson event ∧ Keyed event) (hseen : s.eventIds.Nodup) :
    events.foldlM (replayEvent runtime formats registry domain aggregateId) s = .ok t ↔
      ValidFrom runtime formats registry domain aggregateId s.version events ∧
        (s.eventIds ++ events.map eventId).Nodup ∧
        events.foldlM domain.apply s.state = .ok t.state ∧
        t.version = s.version + events.length ∧ t.eventIds = s.eventIds ++ events.map eventId := by
  induction events generalizing s with
  | nil =>
    have hvalid : ValidFrom runtime formats registry domain aggregateId s.version [] := by
      intro i event h
      cases h
    constructor
    · intro h
      obtain rfl := Except.ok.inj h
      exact ⟨hvalid, by simpa using hseen, rfl, rfl, by simp⟩
    · rintro ⟨-, -, hstate, hversion, hids⟩
      have hstate := Except.ok.inj hstate
      obtain ⟨state, version, ids⟩ := t
      simp only [List.length_nil, Nat.add_zero, List.map_nil, List.append_nil] at hstate hversion hids
      rw [List.foldlM_nil, ← hstate, hversion, hids]
      rfl
  | cons event events ih =>
    obtain ⟨hevent, hrest⟩ := List.forall_mem_cons.mp hevents
    rw [List.foldlM_cons, List.foldlM_cons, validFrom_cons, Except.bind_eq_ok]
    constructor
    · rintro ⟨u, hu, h⟩
      obtain ⟨hvalid, hfresh, state, hstate, rfl⟩ := (replayEvent_eq_ok hevent.1 hevent.2).mp hu
      have hseen' : (s.eventIds ++ [eventId event]).Nodup :=
        List.nodup_append.mpr ⟨hseen, List.nodup_singleton _, by
          rintro a ha b hb rfl
          rw [List.mem_singleton] at hb
          exact hfresh (hb ▸ ha)⟩
      obtain ⟨hvalids, hnodup, hfold, hversion, hids⟩ := (ih hrest hseen').mp h
      refine ⟨⟨hvalid, hvalids⟩, by simpa using hnodup,
        Except.bind_eq_ok.mpr ⟨state, hstate, hfold⟩, ?_, by simpa using hids⟩
      dsimp only at hversion
      rw [hversion, List.length_cons]
      omega
    · rintro ⟨⟨hvalid, hvalids⟩, hnodup, hfold, hversion, hids⟩
      obtain ⟨state, hstate, hfold⟩ := Except.bind_eq_ok.mp hfold
      have hfresh : eventId event ∉ s.eventIds := by
        intro hmem
        exact (List.nodup_append.mp hnodup).2.2 _ hmem _ (by simp) rfl
      have hnodup' : (s.eventIds ++ [eventId event] ++ events.map eventId).Nodup := by
        simpa using hnodup
      refine ⟨⟨state, s.version + 1, s.eventIds ++ [eventId event]⟩, ?_, ?_⟩
      · exact (replayEvent_eq_ok hevent.1 hevent.2).mpr ⟨hvalid, hfresh, state, hstate, rfl⟩
      · refine (ih hrest (List.nodup_append.mp hnodup').1).mpr ⟨hvalids, hnodup', hfold, ?_, ?_⟩
        · rw [hversion, List.length_cons]
          dsimp only
          omega
        · simpa using hids

theorem replayFrom_arrayOf (s : ReplayState State) (events : List JsValue) :
    replayFrom runtime formats registry domain aggregateId s (Json.arrayOf events) =
      (events.foldlM (replayEvent runtime formats registry domain aggregateId) s).map
        (fun t => ⟨t.state, t.version⟩) := by
  rw [Json.arrayOf, replayFrom, List.map_map, show Prod.snd ∘ (fun v => (SlotKind.data, v)) = id
    from rfl, List.map_id]
  cases events.foldlM (replayEvent runtime formats registry domain aggregateId) s <;> rfl

theorem replayFrom_eq_ok {s : ReplayState State} {history : JsValue} {r : ReplayResult State}
    (h : replayFrom runtime formats registry domain aggregateId s history = .ok r) :
    ∃ slots extra, history = .array slots extra := by
  cases history with
  | array slots extra => exact ⟨slots, extra, rfl⟩
  | _ => cases h

theorem map_eq_ok {α β : Type} {x : Except Thrown α} {f : α → β} {b : β} :
    x.map f = .ok b ↔ ∃ a, x = .ok a ∧ f a = b := by
  cases x with
  | ok a => simp [Except.map]
  | error e => simp [Except.map]

theorem snapshot_array {inputs : JsValue} {slots : Slots} {extra : List PropertyKey}
    (h : snapshot runtime inputs = .ok (.array slots extra)) (hkeys : inputs.WellFormed) :
    ∃ values, inputs = Json.arrayOf values ∧ (∀ v ∈ values, IsJson v ∧ v.WellFormed) ∧
      JsValue.array slots extra = Json.arrayOf (values.map readBack) := by
  obtain ⟨hjson, hread⟩ := snapshot_ok h
  cases inputs with
  | array slots' extra' =>
    obtain ⟨rfl, hslots⟩ := isJson_array.mp hjson
    have harray : JsValue.array slots' [] = Json.arrayOf (slots'.map Prod.snd) := by
      rw [Json.arrayOf, List.map_map]
      refine congrArg (JsValue.array · []) (Eq.trans (List.map_id _).symm ?_)
      exact List.map_congr_left fun s hs => Prod.ext (hslots s hs).1 rfl
    refine ⟨_, harray, fun v hv => ?_, ?_⟩
    · obtain ⟨s, hs, rfl⟩ := List.mem_map.mp hv
      exact ⟨(hslots s hs).2, slotsWellFormed_iff.mp hkeys s hs⟩
    · rw [hread, harray, readBack_arrayOf]
  | object plain props =>
    rw [readBack] at hread
    cases hread
  | number n =>
    cases n with
    | finite x => cases hread
    | _ => cases hread
  | _ => cases hread

theorem replay_eq_replayFrom (hlength : 1 ≤ aggregateId.length ∧ aggregateId.length ≤ 256)
    (inputs : JsValue) :
    replay runtime formats registry domain aggregateId inputs =
      snapshot runtime inputs >>= replayFrom runtime formats registry domain aggregateId .initial := by
  rw [replay, if_neg (by omega)]

theorem foldlM_initial_eq_ok {values : List JsValue} {t : ReplayState State}
    (hvalues : ∀ v ∈ values, IsJson v ∧ v.WellFormed) :
    (values.map readBack).foldlM (replayEvent runtime formats registry domain aggregateId)
        .initial = .ok t ↔
      ValidFrom runtime formats registry domain aggregateId 0 (values.map readBack) ∧
        ((values.map readBack).map eventId).Nodup ∧
        (values.map readBack).foldlM domain.apply none = .ok t.state ∧
        t.version = (values.map readBack).length ∧
        t.eventIds = (values.map readBack).map eventId := by
  have hevents : ∀ event ∈ values.map readBack, IsJson event ∧ Keyed event := by
    intro event hevent
    obtain ⟨v, hv, rfl⟩ := List.mem_map.mp hevent
    obtain ⟨hjson, hkeys⟩ := hvalues v hv
    exact (readBack_spec hjson (hjson.keyed hkeys)).2
  have hloop := @foldlM_replayEvent_eq_ok runtime formats registry _ domain aggregateId _
    .initial t hevents List.nodup_nil
  simpa only [ReplayState.initial, Nat.zero_add, List.nil_append] using hloop

theorem replay_eq_ok (hlength : 1 ≤ aggregateId.length ∧ aggregateId.length ≤ 256)
    {inputs : JsValue} {r : ReplayResult State} (hkeys : inputs.WellFormed) :
    replay runtime formats registry domain aggregateId inputs = .ok r ↔
      ∃ events, snapshot runtime inputs = .ok (Json.arrayOf events) ∧
        ValidFrom runtime formats registry domain aggregateId 0 events ∧
        (events.map eventId).Nodup ∧ events.foldlM domain.apply none = .ok r.state ∧
        r.version = events.length := by
  rw [replay_eq_replayFrom hlength, Except.bind_eq_ok]
  constructor
  · rintro ⟨history, hhistory, h⟩
    obtain ⟨slots, extra, rfl⟩ := replayFrom_eq_ok h
    obtain ⟨values, -, hvalues, heq⟩ := snapshot_array hhistory hkeys
    rw [heq, replayFrom_arrayOf, map_eq_ok] at h
    obtain ⟨t, ht, rfl⟩ := h
    obtain ⟨hvalid, hnodup, hfold, hversion, -⟩ := (foldlM_initial_eq_ok hvalues).mp ht
    exact ⟨_, heq ▸ hhistory, hvalid, hnodup, hfold, hversion⟩
  · rintro ⟨events, hhistory, hvalid, hnodup, hfold, hversion⟩
    obtain ⟨values, -, hvalues, heq⟩ := snapshot_array hhistory hkeys
    obtain rfl : events = values.map readBack := arrayOf_injective heq
    refine ⟨_, hhistory, ?_⟩
    rw [replayFrom_arrayOf, map_eq_ok]
    refine ⟨⟨r.state, r.version, (values.map readBack).map eventId⟩, ?_, rfl⟩
    exact (foldlM_initial_eq_ok hvalues).mpr ⟨hvalid, hnodup, hfold, hversion, rfl⟩

theorem wellFormed_arrayOf {values : List JsValue} :
    (Json.arrayOf values).WellFormed ↔ ∀ v ∈ values, v.WellFormed := by
  rw [Json.arrayOf, JsValue.WellFormed, slotsWellFormed_iff]
  simp

theorem replay_append (hlength : 1 ≤ aggregateId.length ∧ aggregateId.length ≤ 256)
    {h t : List JsValue} {r : ReplayResult State} (hkeys : ∀ v ∈ h, v.WellFormed)
    (hreplay : replay runtime formats registry domain aggregateId (Json.arrayOf h) = .ok r) :
    ∃ events, snapshot runtime (Json.arrayOf h) = .ok (Json.arrayOf events) ∧
      replay runtime formats registry domain aggregateId (Json.arrayOf (h ++ t)) =
        snapshot runtime (Json.arrayOf t) >>=
          replayFrom runtime formats registry domain aggregateId
            ⟨r.state, r.version, events.map eventId⟩ := by
  obtain ⟨events, hsnapshot, hvalid, hnodup, hfold, hversion⟩ :=
    (replay_eq_ok hlength (wellFormed_arrayOf.mpr hkeys)).mp hreplay
  obtain ⟨hjson, hread⟩ := snapshot_ok hsnapshot
  rw [readBack_arrayOf] at hread
  obtain rfl := arrayOf_injective hread
  refine ⟨_, hsnapshot, ?_⟩
  have hfirst := (foldlM_initial_eq_ok
    (t := ⟨r.state, r.version, (h.map readBack).map eventId⟩)
    fun v hv => ⟨isJson_arrayOf.mp hjson v hv, hkeys v hv⟩).mpr ⟨hvalid, hnodup, hfold, hversion, rfl⟩
  rw [replay_eq_replayFrom hlength]
  by_cases htail : IsJson (Json.arrayOf t)
  · have hall : IsJson (Json.arrayOf (h ++ t)) := by
      rw [isJson_arrayOf] at hjson htail ⊢
      exact fun v hv => (List.mem_append.mp hv).elim (hjson v) (htail v)
    rw [snapshot_of_isJson hall, snapshot_of_isJson htail, readBack_arrayOf, readBack_arrayOf,
      List.map_append, Except.ok_bind, Except.ok_bind, replayFrom_arrayOf, replayFrom_arrayOf,
      List.foldlM_append, hfirst]
    rfl
  · have hall : ¬ IsJson (Json.arrayOf (h ++ t)) := by
      rw [isJson_arrayOf] at htail ⊢
      exact fun hall => htail fun v hv => hall v (List.mem_append_right _ hv)
    rw [snapshot_of_not_isJson hall, snapshot_of_not_isJson htail]
    rfl

theorem replay_of_append (hlength : 1 ≤ aggregateId.length ∧ aggregateId.length ≤ 256)
    {h t : List JsValue} {r : ReplayResult State}
    (hreplay : replay runtime formats registry domain aggregateId (Json.arrayOf (h ++ t)) = .ok r) :
    ∃ r', replay runtime formats registry domain aggregateId (Json.arrayOf h) = .ok r' := by
  rw [replay_eq_replayFrom hlength, Except.bind_eq_ok] at hreplay
  obtain ⟨history, hhistory, hreplay⟩ := hreplay
  obtain ⟨hjson, rfl⟩ := snapshot_ok hhistory
  rw [readBack_arrayOf, replayFrom_arrayOf, map_eq_ok, List.map_append, List.foldlM_append] at hreplay
  obtain ⟨u, hu, -⟩ := hreplay
  obtain ⟨s, hs, -⟩ := Except.bind_eq_ok.mp hu
  have hfirst : IsJson (Json.arrayOf h) :=
    isJson_arrayOf.mpr fun v hv => isJson_arrayOf.mp hjson v (List.mem_append_left t hv)
  refine ⟨⟨s.state, s.version⟩, ?_⟩
  rw [replay_eq_replayFrom hlength, snapshot_of_isJson hfirst, readBack_arrayOf, Except.ok_bind,
    replayFrom_arrayOf, hs]
  rfl

end Events

section CheckedFold

variable (runtime : JsonRuntime) (formats : Format → JsString → Bool)
  (registry : ContractRegistry) {State : Type} (domain : AggregateDefinition State)
  (aggregateId : JsString)

theorem replay_is_checked_fold (hlength : 1 ≤ aggregateId.length ∧ aggregateId.length ≤ 256) :
    (∀ inputs (r : ReplayResult State), inputs.WellFormed →
      (replay runtime formats registry domain aggregateId inputs = .ok r ↔
        ∃ events, snapshot runtime inputs = .ok (Json.arrayOf events) ∧
          ValidFrom runtime formats registry domain aggregateId 0 events ∧
          (events.map eventId).Nodup ∧ events.foldlM domain.apply none = .ok r.state ∧
          r.version = events.length)) ∧
    (∀ h t r, replay runtime formats registry domain aggregateId (Json.arrayOf (h ++ t)) = .ok r →
      ∃ r', replay runtime formats registry domain aggregateId (Json.arrayOf h) = .ok r') ∧
    ∀ h t r, (∀ v ∈ h, v.WellFormed) →
      replay runtime formats registry domain aggregateId (Json.arrayOf h) = .ok r →
      ∃ events, snapshot runtime (Json.arrayOf h) = .ok (Json.arrayOf events) ∧
        replay runtime formats registry domain aggregateId (Json.arrayOf (h ++ t)) =
          snapshot runtime (Json.arrayOf t) >>=
            replayFrom runtime formats registry domain aggregateId
              ⟨r.state, r.version, events.map eventId⟩ :=
  ⟨fun _ _ hkeys => replay_eq_ok hlength hkeys, fun _ _ _ h => replay_of_append hlength h,
    fun _ _ _ hkeys h => replay_append hlength hkeys h⟩

def sampleFormats (format : Format) (s : JsString) : Bool :=
  match format with
  | .dateTime => DateTime.validDateTime s
  | .uri => true

def sampleRegistry : ContractRegistry where
  byId schemaId :=
    if schemaId = SchemaId.domainEventEnvelope then
      some ⟨js "1.0.0", zeroDigest.text, .domainEventEnvelope⟩
    else if schemaId = SchemaId.workflowRunCreatedPayload then
      some ⟨js "1.0.0", zeroDigest.text, .workflowRunCreatedPayload⟩
    else none
  eventEnvelopeHash := zeroDigest.text
  eventEnvelope := if_pos rfl

def sampleCreation : JsValue :=
  .record [(js "schemaVersion", .string (js "1.0.0")),
    (js "eventId", .string (js "01890f3e-0000-7000-8000-000000000001")),
    (js "eventType", .string (js "WorkflowRunCreated")),
    (js "aggregateType", .string (js "WorkflowRun")), (js "aggregateId", .string (js "run")),
    (js "aggregateVersion", .number (.ofInt 1 one_exact)),
    (js "occurredAt", .string (js "2024-01-01T00:00:00.000Z")),
    (js "actor", .record [(js "actorType", .string (js "SYSTEM")),
      (js "actorId", .string (js "test"))]),
    (js "causationId", .string (js "01890f3e-0000-7000-8000-000000000002")),
    (js "correlationId", .string (js "01890f3e-0000-7000-8000-000000000003")),
    (js "payloadSchema", .record [(js "schemaId", .string SchemaId.workflowRunCreatedPayload),
      (js "schemaVersion", .string (js "1.0.0")), (js "schemaHash", .string zeroDigest.text)]),
    (js "payloadHash", .string zeroDigest.text),
    (js "payload", .record [(js "workflowDefinitionId", .string (js "flow")),
      (js "workflowDefinitionVersion", .string (js "1.0.0")),
      (js "createdByCommandId", .string (js "01890f3e-0000-7000-8000-000000000002"))])]

def sampleState : Workflow.WorkflowRunState :=
  ⟨js "run", 1, js "flow", js "1.0.0", js "01890f3e-0000-7000-8000-000000000002",
    js "2024-01-01T00:00:00.000Z"⟩

theorem isJson_sampleCreation : IsJson sampleCreation := by
  have htext : (canonicalJson sampleRuntime.toHost sampleCreation).toOption.isSome = true := by
    decide
  obtain ⟨text, htext⟩ := Option.isSome_iff_exists.mp htext
  exact CanonicalJson.isJson_of_canonicalize (Except.toOption_eq_some.mp htext)

theorem wellFormed_record {members : List (JsString × JsValue)}
    (hkeys : (members.map Prod.fst).Nodup) (hvalues : ∀ m ∈ members, m.2.WellFormed) :
    (JsValue.record members).WellFormed := by
  have hown : Props.ownKeys (members.map fun m => (Field.own m.1, m.2)) =
      (members.map Prod.fst).map .text := by
    simp [Props.ownKeys, Field.own]
  refine ⟨?_, propsWellFormed_iff.mpr fun p hp => ?_⟩
  · rw [hown]
    exact hkeys.map fun _ _ h => PropertyKey.text.inj h
  · obtain ⟨m, hm, rfl⟩ := List.mem_map.mp hp
    exact hvalues m hm

theorem wellFormed_sampleCreation : sampleCreation.WellFormed := by
  refine wellFormed_record (by decide) ?_
  simp only [List.forall_mem_cons]
  refine ⟨trivial, trivial, trivial, trivial, trivial, trivial, trivial, ?_, trivial, trivial, ?_,
    trivial, ?_, nofun⟩
  all_goals
    refine wellFormed_record (by decide) ?_
    simp [JsValue.WellFormed]

theorem replay_sampleCreation :
    replay sampleRuntime sampleFormats sampleRegistry Workflow.workflowRunDefinition (js "run")
      (Json.arrayOf [sampleCreation]) = .ok ⟨some sampleState, 1⟩ := by
  have hloop : (replayEvent sampleRuntime sampleFormats sampleRegistry
      Workflow.workflowRunDefinition (js "run") .initial sampleCreation.readBack).toOption.map
        (fun s => (s.state, s.version)) = some (some sampleState, 1) := by
    decide +kernel
  obtain ⟨s, hs, hresult⟩ := Option.map_eq_some_iff.mp hloop
  obtain ⟨hstate, hversion⟩ := Prod.mk.inj hresult
  have hjson : IsJson (Json.arrayOf [sampleCreation]) :=
    isJson_arrayOf.mpr fun v hv => List.mem_singleton.mp hv ▸ isJson_sampleCreation
  rw [replay_eq_replayFrom (by decide), snapshot_of_isJson hjson, readBack_arrayOf,
    Except.ok_bind, replayFrom_arrayOf, List.map_singleton, List.foldlM_cons,
    Except.toOption_eq_some.mp hs, ← hstate, ← hversion]
  rfl

theorem sample_replayed :
    ∃ events, snapshot sampleRuntime (Json.arrayOf [sampleCreation]) = .ok (Json.arrayOf events) ∧
      ValidFrom sampleRuntime sampleFormats sampleRegistry Workflow.workflowRunDefinition
        (js "run") 0 events ∧
      events.foldlM Workflow.apply none = .ok (some sampleState) ∧ 1 = events.length := by
  obtain ⟨haccepted, -, -⟩ := replay_is_checked_fold sampleRuntime sampleFormats sampleRegistry
    Workflow.workflowRunDefinition (js "run") (by decide)
  have hkeys : (Json.arrayOf [sampleCreation]).WellFormed :=
    wellFormed_arrayOf.mpr fun v hv => List.mem_singleton.mp hv ▸ wellFormed_sampleCreation
  obtain ⟨events, hsnapshot, hvalid, -, hfold, hversion⟩ :=
    (haccepted _ _ hkeys).mp replay_sampleCreation
  exact ⟨events, hsnapshot, hvalid, hfold, hversion⟩

end CheckedFold

end Kernel

end Aseos
