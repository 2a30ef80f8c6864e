import Aseos.Contracts.CanonicalForm
import Aseos.Contracts.Envelope
import Aseos.Contracts.Spread

namespace Aseos

namespace Kernel

inductive KernelErrorCode where
  | contractInvalid
  | unsupportedCommand
  | versionConflict
  | replayInvalid
  | domainRejected
  deriving DecidableEq, Repr

structure KernelError where
  code : KernelErrorCode
  message : JsString

-- An exception: of the kernel, of canonical JSON, or of a domain function.
inductive Thrown where
  | kernel (error : KernelError)
  | canonical (error : CanonicalError)
  | domain (error : JsValue)

def fail {α : Type} (code : KernelErrorCode) (message : JsString) : Except Thrown α :=
  .error (.kernel ⟨code, message⟩)

def ofCanonical {α : Type} : Except CanonicalError α → Except Thrown α
  | .ok a => .ok a
  | .error e => .error (.canonical e)

-- `none` is the state `null`. Domain functions are pure and see frozen values.
structure AggregateDefinition (State : Type) where
  aggregateType : JsString
  commandSchemas : JsString → Option JsString
  eventSchemas : JsString → Option JsString
  decide : Option State → JsValue → Except Thrown JsValue
  apply : Option State → JsValue → Except Thrown (Option State)

structure ReplayResult (State : Type) where
  state : Option State
  version : ℕ

structure ReplayState (State : Type) where
  state : Option State
  version : ℕ
  eventIds : List JsString

def ReplayState.initial {State : Type} : ReplayState State := ⟨none, 0, []⟩

section Kernel

variable (runtime : JsonRuntime) (formats : Format → JsString → Bool)
  (registry : ContractRegistry)

def snapshot (value : JsValue) : Except Thrown JsValue :=
  match (canonicalJson runtime.toHost value).toOption.bind (Json.parse runtime.numberValue) with
  | some captured => .ok captured
  | none => fail .contractInvalid (js "Input must be canonical JSON data")

def validate (schemaId : JsString) (value : JsValue) : Except Thrown JsValue :=
  if registry.validate formats schemaId (js "1.0.0") value then .ok value
  else fail .contractInvalid (js "Rejected by schema " ++ schemaId)

def reference (schemaId : JsString) (entry : SchemaRegistryEntry) : JsValue :=
  .record [(js "schemaId", .string schemaId), (js "schemaVersion", .string entry.schemaVersion),
    (js "schemaHash", .string entry.sha256)]

def schemaRef (schemaId : JsString) : Except Thrown JsValue :=
  match registry.resolve schemaId (js "1.0.0") with
  | some entry => .ok (reference schemaId entry)
  | none => fail .contractInvalid (js "Unknown canonical schema " ++ schemaId)

-- A string member of an envelope that its schema has accepted.
def text (envelope : JsValue) (key : String) : JsString :=
  (envelope.property (js key)).isString.getD []

def validatePayload (envelope : JsValue) (requiredSchema : JsString) : Except Thrown Unit := do
  let reference ← schemaRef registry requiredSchema
  let required ← ofCanonical (canonicalJson runtime.toHost reference)
  let declared ← ofCanonical (canonicalJson runtime.toHost (envelope.property (js "payloadSchema")))
  if required ≠ declared then
    fail .contractInvalid (js "Payload schema identity or hash mismatch")
  else
    let digest ← ofCanonical (canonicalJsonSha256 runtime.toHost (envelope.property (js "payload")))
    if digest.text ≠ text envelope "payloadHash" then
      fail .contractInvalid (js "Payload schema identity or hash mismatch")
    else
      let _ ← validate formats registry requiredSchema (envelope.property (js "payload"))
      return ()

variable {State : Type} (domain : AggregateDefinition State) (aggregateId : JsString)

-- `Number.isSafeInteger(value) && value === version + 1`
def isNextVersion (value : JsValue) (version : ℕ) : Bool :=
  match value with
  | .number (.finite x) => x.isSafeInteger && decide (x.value = version + 1)
  | _ => false

def replayEvent (s : ReplayState State) (input : JsValue) : Except Thrown (ReplayState State) := do
  let event ← validate formats registry SchemaId.domainEventEnvelope input
  match domain.eventSchemas (text event "eventType") with
  | none => fail .replayInvalid (js "Event type, stream, ID or version invariant failed")
  | some requiredSchema =>
      if text event "aggregateType" ≠ domain.aggregateType ∨
          text event "aggregateId" ≠ aggregateId ∨
          isNextVersion (event.property (js "aggregateVersion")) s.version = false ∨
          text event "eventId" ∈ s.eventIds then
        fail .replayInvalid (js "Event type, stream, ID or version invariant failed")
      else
        let _ ← validatePayload runtime formats registry event requiredSchema
        let state ← domain.apply s.state event
        return ⟨state, s.version + 1, s.eventIds ++ [text event "eventId"]⟩

-- The loop of `replay` over the events still to come.
def replayFrom (s : ReplayState State) (history : JsValue) : Except Thrown (ReplayResult State) :=
  match history with
  | .array slots _ => do
      let s ← (slots.map Prod.snd).foldlM
        (replayEvent runtime formats registry domain aggregateId) s
      return ⟨s.state, s.version⟩
  | _ => fail .replayInvalid (js "History must be an event array")

def replay (inputs : JsValue) : Except Thrown (ReplayResult State) :=
  if aggregateId.length < 1 ∨ 256 < aggregateId.length then
    fail .replayInvalid (js "Invalid aggregate identity")
  else do
    let history ← snapshot runtime inputs
    replayFrom runtime formats registry domain aggregateId .initial history

end Kernel

end Kernel

end Aseos
