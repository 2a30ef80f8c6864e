import Aseos.Contracts.Envelope
import Aseos.Contracts.PersistenceRecords

namespace Aseos

namespace Pattern

open Regex

-- /^[A-Za-z0-9._:/+-]+$/
def idempotencyKey : Regex CodeUnit :=
  plus (one fun c => c.isUpper || c.isLower || c.isDigit || c.isAny "._:/+-")

end Pattern

namespace Schema

def idempotencyKey : Schema :=
  .all [.type .string, .minLength 16, .maxLength 256, .pattern Pattern.idempotencyKey]

-- urn:aseos:schema:artifact-ref:1.0.0
def artifactRef : Schema :=
  closedObject [("artifactId", uuidV7), ("sha256", sha256), ("mediaType", boundedString 3 255),
    ("sizeBytes", integerFrom 0),
    ("sensitivity", .enum [js "PUBLIC", js "INTERNAL", js "CONFIDENTIAL", js "SECRET"]),
    ("logicalName", boundedString 1 512)] ["logicalName"]

-- urn:aseos:schema:command-envelope:1.0.0
def commandEnvelope : Schema :=
  closedObject [("schemaVersion", constText "1.0.0"), ("commandId", uuidV7),
    ("commandType", canonicalTypeName), ("aggregateType", canonicalTypeName),
    ("aggregateId", boundedString 1 256), ("expectedVersion", integerFrom 0),
    ("issuedAt", dateTime), ("actor", actorRef), ("causationId", uuidV7),
    ("correlationId", uuidV7), ("idempotencyKey", idempotencyKey), ("payloadSchema", schemaRef),
    ("payloadHash", sha256), ("payload", .type .object), ("requestId", uuidV7)]
    ["causationId", "requestId"]

def taskResourceBudget : Schema :=
  closedObject [("maxCpuTimeMs", integerFrom 1), ("maxMemoryBytes", integerFrom 1048576),
    ("maxProcessCount", integerBetween 1 256), ("maxOutputBytes", integerFrom 0),
    ("networkMode", .enum [js "DENY", js "ALLOWLIST"])] ["maxCpuTimeMs", "networkMode"]

-- urn:aseos:schema:side-effect-task-envelope:1.0.0
def sideEffectTaskEnvelope : Schema :=
  closedObject [("schemaVersion", constText "1.0.0"), ("taskId", uuidV7), ("executionId", uuidV7),
    ("attempt", integerFrom 1), ("correlationId", uuidV7), ("causationId", uuidV7),
    ("idempotencyKey", idempotencyKey), ("effectScope", boundedString 1 512),
    ("capability", boundedString 1 128), ("permissionSet", uniqueArray (boundedString 1 256)),
    ("requiredIsolationLevel", .enum [js "PROCESS_RESTRICTED", js "OS_SANDBOXED",
      js "CONTAINER_ISOLATED", js "REMOTE_ISOLATED"]),
    ("inputArtifactRefs", uniqueArray artifactRef), ("timeoutMs", integerBetween 1 86400000),
    ("resourceBudget", taskResourceBudget), ("adapterContractVersion", semanticVersion),
    ("payloadSchema", schemaRef), ("payloadHash", sha256), ("payload", .type .object)]
    ["causationId"]

def arrayBetween (minItems maxItems : ℕ) (schema : Schema) : Schema :=
  .all [.type .array, .minItems minItems, .maxItems maxItems, .items schema]

def journalStream : Schema :=
  closedObject [("aggregateType", canonicalTypeName), ("aggregateId", boundedString 1 256),
    ("expectedVersion", integerBetween 0 9007199254740991)] []

def auditEntry : Schema :=
  closedObject [("auditId", uuidV7), ("occurredAt", dateTime), ("action", stableCode),
    ("payloadHash", sha256)] []

-- urn:aseos:schema:journal-append-batch:1.0.0
def journalAppendBatch : Schema :=
  closedObject [("schemaVersion", constText "1.0.0"), ("transactionId", uuidV7),
    ("commandId", uuidV7), ("idempotencyKey", idempotencyKey),
    ("effectScope", boundedString 1 512), ("payloadHash", sha256), ("stream", journalStream),
    ("events", arrayBetween 1 1000 domainEventEnvelope),
    ("outbox", .all [.type .array, .maxItems 1000, .items sideEffectTaskEnvelope]),
    ("audit", arrayBetween 1 1000 auditEntry), ("capturedAt", dateTime)] []

end Schema

namespace SchemaId

def commandEnvelope : JsString := js "urn:aseos:schema:command-envelope:1.0.0"

def journalAppendBatch : JsString := js "urn:aseos:schema:journal-append-batch:1.0.0"

end SchemaId

-- A loaded registry has these canonical envelopes too.
structure CommandRegistry extends ContractRegistry where
  commandEnvelopeHash : JsString
  commandEnvelope : byId SchemaId.commandEnvelope =
    some ⟨js "1.0.0", commandEnvelopeHash, .commandEnvelope⟩
  journalAppendBatchHash : JsString
  journalAppendBatch : byId SchemaId.journalAppendBatch =
    some ⟨js "1.0.0", journalAppendBatchHash, .journalAppendBatch⟩

namespace CommandRegistry

variable (registry : CommandRegistry)

theorem resolve_commandEnvelope :
    registry.resolve SchemaId.commandEnvelope (js "1.0.0") =
      some ⟨js "1.0.0", registry.commandEnvelopeHash, .commandEnvelope⟩ := by
  rw [ContractRegistry.resolve, if_neg (by decide), registry.commandEnvelope]
  rfl

theorem resolve_journalAppendBatch :
    registry.resolve SchemaId.journalAppendBatch (js "1.0.0") =
      some ⟨js "1.0.0", registry.journalAppendBatchHash, .journalAppendBatch⟩ := by
  rw [ContractRegistry.resolve, if_neg (by decide), registry.journalAppendBatch]
  rfl

end CommandRegistry

end Aseos
