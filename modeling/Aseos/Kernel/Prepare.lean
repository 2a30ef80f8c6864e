import Aseos.Contracts.CommandEnvelope
import Aseos.Kernel.Replay
import Aseos.Persistence.Requests

namespace Aseos.Kernel

open Persistence

structure PreparedTransition (State : Type) where
  batch : JsValue
  state : State
  events : List JsValue

def commandIdentity (host : Host) (command : JsValue) :
    Except CanonicalError CommandIdentity := do
  let payloadHash ← canonicalJsonSha256 host command
  return {
    commandId := text command "commandId"
    idempotencyKey := text command "idempotencyKey"
    effectScope := text command "aggregateType" ++ js ":" ++ text command "aggregateId"
    payloadHash := payloadHash.text }

-- `Number.isSafeInteger(value) && value < Number.MAX_SAFE_INTEGER`
def incrementable (value : JsValue) : Bool :=
  match value with
  | .number (.finite x) => x.isSafeInteger && decide (x.value < maxSafeInteger)
  | _ => false

def domainEvent (command context decision : JsValue) (version : ℕ) (payloadSchema : JsValue)
    (payloadHash : HexDigest) : JsValue :=
  .record [(js "schemaVersion", .string (js "1.0.0")),
    (js "eventId", context.property (js "eventId")),
    (js "eventType", decision.property (js "eventType")),
    (js "aggregateType", command.property (js "aggregateType")),
    (js "aggregateId", command.property (js "aggregateId")),
    (js "aggregateVersion", .number (integer (version + 1))),
    (js "occurredAt", context.property (js "occurredAt")),
    (js "actor", command.property (js "actor")),
    (js "causationId", command.property (js "commandId")),
    (js "correlationId", command.property (js "correlationId")),
    (js "payloadSchema", payloadSchema), (js "payloadHash", .string payloadHash.text),
    (js "payload", decision.property (js "payload"))]

def appendBatch (command context : JsValue) (identity : CommandIdentity) (event : JsValue) :
    JsValue :=
  .record [(js "schemaVersion", .string (js "1.0.0")),
    (js "commandId", .string identity.commandId),
    (js "idempotencyKey", .string identity.idempotencyKey),
    (js "effectScope", .string identity.effectScope),
    (js "payloadHash", .string identity.payloadHash),
    (js "transactionId", context.property (js "transactionId")),
    (js "capturedAt", context.property (js "occurredAt")),
    (js "stream", .record [(js "aggregateType", command.property (js "aggregateType")),
      (js "aggregateId", command.property (js "aggregateId")),
      (js "expectedVersion", command.property (js "expectedVersion"))]),
    (js "events", Json.arrayOf [event]), (js "outbox", Json.arrayOf []),
    (js "audit", Json.arrayOf [.record [(js "auditId", context.property (js "auditId")),
      (js "action", .string (js "KERNEL_COMMAND_COMMITTED")),
      (js "occurredAt", context.property (js "occurredAt")),
      (js "payloadHash", .string identity.payloadHash)]])]

-- `[...history, event]`
def extended (history event : JsValue) : JsValue :=
  match history with
  | .array slots _ => Json.arrayOf (slots.map Prod.snd ++ [event])
  | _ => Json.arrayOf [event]

section Prepare

variable (runtime : JsonRuntime) (formats : Format → JsString → Bool)
  (registry : CommandRegistry) {State : Type} (domain : AggregateDefinition State)

def admitCommand (input : JsValue) : Except Thrown JsValue := do
  let captured ← snapshot runtime input
  let command ← validate formats registry.toContractRegistry SchemaId.commandEnvelope captured
  match domain.commandSchemas (text command "commandType") with
  | none => fail .unsupportedCommand (js "Unsupported aggregate/command pair")
  | some requiredSchema =>
      if text command "aggregateType" ≠ domain.aggregateType then
        fail .unsupportedCommand (js "Unsupported aggregate/command pair")
      else if incrementable (command.property (js "expectedVersion")) = false then
        fail .contractInvalid (js "Expected version cannot be safely incremented")
      else
        let _ ← validatePayload runtime formats registry.toContractRegistry command requiredSchema
        return command

-- The event that the decision proposes; the type of a decision makes its event type a string.
def proposedEvent (command context decision : JsValue) (version : ℕ) : Except Thrown JsValue :=
  match domain.eventSchemas (text decision "eventType") with
  | none => fail .domainRejected (js "Domain proposed an unsupported event")
  | some schemaId => do
      let payloadSchema ← schemaRef registry.toContractRegistry schemaId
      let payloadHash ← ofCanonical
        (canonicalJsonSha256 runtime.toHost (decision.property (js "payload")))
      return domainEvent command context decision version payloadSchema payloadHash

-- The batch of an event that recovery has accepted.
def preparedBatch (command context event : JsValue) : Except Thrown JsValue := do
  let identity ← ofCanonical (commandIdentity runtime.toHost command)
  validate formats registry.toContractRegistry SchemaId.journalAppendBatch
    (appendBatch command context identity event)

def prepare (input history suppliedContext : JsValue) :
    Except Thrown (PreparedTransition State) := do
  let command ← admitCommand runtime formats registry domain input
  let context ← snapshot runtime suppliedContext
  let capturedHistory ← snapshot runtime history
  let aggregateId := text command "aggregateId"
  let replayed ← replay runtime formats registry.toContractRegistry domain aggregateId
    capturedHistory
  if Workflow.isNumber (command.property (js "expectedVersion")) replayed.version = false then
    fail .versionConflict (js "Expected version differs from committed history")
  else
    let proposed ← domain.decide replayed.state command
    let decision ← snapshot runtime proposed
    let event ← proposedEvent runtime registry domain command context decision replayed.version
    let next ← replay runtime formats registry.toContractRegistry domain aggregateId
      (extended capturedHistory event)
    match next.state with
    | none => fail .domainRejected (js "Transition did not produce aggregate state")
    | some state => do
        let batch ← preparedBatch runtime formats registry command context event
        return ⟨batch, state, [event]⟩

end Prepare

end Aseos.Kernel
