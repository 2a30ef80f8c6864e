import Aseos.Contracts.ReadBack
import Aseos.Kernel.PreparedBatch

namespace Aseos.Persistence

open JsValue Kernel

section Client

variable (runtime : JsonRuntime) (formats : Format → JsString → Bool)
  (registry : CommandRegistry)

def payloadSchemaInvalid : Failure :=
  .internal .contractInvalid "Payload schema identity or authority hash is invalid"

def payloadInvalid : Failure :=
  .internal .contractInvalid "Payload violates its declared canonical schema"

def validateEnvelope (envelope : JsValue) : Except Failure Unit :=
  let reference := envelope.property (js "payloadSchema")
  match registry.resolve (text reference "schemaId") (text reference "schemaVersion") with
  | none => .error payloadSchemaInvalid
  | some entry =>
      if entry.sha256 ≠ text reference "schemaHash" then .error payloadSchemaInvalid
      else if entry.schema.accepts formats (envelope.property (js "payload")) then .ok ()
      else .error payloadInvalid

-- `#validateBatch`: what the client posts is the batch as its canonical JSON reads back.
def validateBatch (batch : JsValue) : Except Failure JsValue := do
  match (canonicalJson runtime.toHost batch).toOption.bind (Json.parse runtime.numberValue) with
  | none => reject .contractInvalid "Batch is not canonical JSON"
  | some captured =>
      if registry.validate formats SchemaId.journalAppendBatch (js "1.0.0") captured then do
        (elements captured "events" ++ elements captured "outbox").forM
          (validateEnvelope formats registry)
        return captured
      else
        reject .contractInvalid
          "Persistence Contract rejected by urn:aseos:schema:journal-append-batch:1.0.0"

end Client

section ReadBack

variable {v : JsValue}

theorem isString_readBack (v : JsValue) : (readBack v).isString = v.isString := by
  cases v with
  | number n => cases n <;> rfl
  | _ => rfl

theorem text_readBack (h : IsData v) (key : String) : text (readBack v) key = text v key := by
  rw [text, property_readBack h, isString_readBack]
  rfl

theorem natural_readBack (h : IsData v) (key : String) :
    natural (readBack v) key = natural v key := by
  rw [natural, natural, property_readBack h]
  cases v.property (js key) with
  | number n => cases n <;> rfl
  | _ => rfl

theorem elements_isData (h : IsData v) (key : String) :
    ∀ element ∈ elements v key, IsData element := by
  intro element helement
  rw [elements] at helement
  obtain hundefined | hdata := property_isData h (js key)
  · rw [hundefined] at helement
    cases helement
  · cases hproperty : v.property (js key) with
    | array slots extra =>
      rw [hproperty] at helement hdata
      obtain ⟨s, hs, rfl⟩ := List.mem_map.mp helement
      exact ((isData_array.mp hdata).2 s hs).2
    | _ =>
      rw [hproperty] at helement
      cases helement

theorem stream_readBack (h : IsData v) : stream (readBack v) = readBack (stream v) :=
  property_readBack h _

theorem elements_readBack (h : IsData v) (key : String) :
    elements (readBack v) key = (elements v key).map readBack := by
  rw [elements, elements, property_readBack h]
  cases v.property (js key) with
  | array slots extra =>
    rw [readBack, slotsReadBack_eq]
    simp [Json.arrayOf, isArray]
  | number n => cases n <;> rfl
  | _ => rfl

theorem ofBatch_readBack (h : IsData v) :
    CommandIdentity.ofBatch (readBack v) = CommandIdentity.ofBatch v := by
  rw [CommandIdentity.ofBatch, text_readBack h, text_readBack h, text_readBack h, text_readBack h]
  rfl

end ReadBack

section Validated

variable {runtime : JsonRuntime} {formats : Format → JsString → Bool}
  {registry : CommandRegistry} {batch validated : JsValue}

theorem validateBatch_eq_ok :
    validateBatch runtime formats registry batch = .ok validated ↔
      IsJson batch ∧ validated = readBack batch ∧
        Schema.journalAppendBatch.accepts formats validated = true ∧
        ∀ envelope ∈ elements validated "events" ++ elements validated "outbox",
          validateEnvelope formats registry envelope = .ok () := by
  have hresolve := registry.resolve_journalAppendBatch
  unfold validateBatch
  constructor
  · intro h
    split at h
    · cases h
    · rename_i captured hcaptured
      rw [ContractRegistry.validate, hresolve] at h
      dsimp only at h
      split at h
      · rename_i haccepts
        obtain ⟨_, henvelopes, h⟩ := Except.bind_eq_ok.mp h
        obtain rfl := Except.ok.inj h
        have hsnapshot : snapshot runtime batch = .ok captured := by rw [snapshot, hcaptured]
        obtain ⟨hjson, hread⟩ := snapshot_ok hsnapshot
        exact ⟨hjson, hread, haccepts, Except.forM_eq_ok.mp henvelopes⟩
      · cases h
  · rintro ⟨hjson, rfl, haccepts, henvelopes⟩
    obtain ⟨canonical, hcanonical⟩ := CanonicalJson.canonicalize_of_isJson hjson
    have hcaptured : (canonicalJson runtime.toHost batch).toOption.bind
        (Json.parse runtime.numberValue) = some (readBack batch) := by
      rw [show canonicalJson runtime.toHost batch = .ok canonical from hcanonical]
      exact CanonicalJson.parse_canonicalJson hcanonical
    rw [hcaptured]
    dsimp only
    rw [ContractRegistry.validate, hresolve]
    dsimp only
    rw [if_pos haccepts]
    exact Except.bind_eq_ok.mpr ⟨(), Except.forM_eq_ok.mpr henvelopes, rfl⟩

end Validated

end Aseos.Persistence
