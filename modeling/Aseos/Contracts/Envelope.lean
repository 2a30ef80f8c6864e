import Aseos.Contracts.Common

namespace Aseos

namespace Pattern

open Regex

-- /^(0|[1-9][0-9]*)\.(0|[1-9][0-9]*)\.(0|[1-9][0-9]*)$/
def schemaVersion : Regex CodeUnit := all [decimal, text (js "."), decimal, text (js "."), decimal]

end Pattern

namespace Schema

def schemaVersion : Schema := .all [.type .string, .pattern Pattern.schemaVersion]

-- urn:aseos:schema:actor-ref:1.0.0
def actorRef : Schema :=
  .all [.type .object, .closed ["actorType", "actorId", "displayName", "actorVersion"],
    .required ["actorType", "actorId"],
    .properties [("actorType", .enum [js "HUMAN", js "AGENT", js "SYSTEM", js "WORKER"]),
      ("actorId", boundedString 1 256), ("displayName", boundedString 1 256),
      ("actorVersion", boundedString 1 128)]]

-- urn:aseos:schema:schema-ref:1.0.0
def schemaRef : Schema :=
  .all [.type .object, .closed ["schemaId", "schemaVersion", "schemaHash"],
    .required ["schemaId", "schemaVersion", "schemaHash"],
    .properties [("schemaId", .all [.type .string, .format .uri, .minLength 1]),
      ("schemaVersion", schemaVersion), ("schemaHash", sha256)]]

def domainEventEnvelopeKeys : List String :=
  ["schemaVersion", "eventId", "eventType", "aggregateType", "aggregateId", "aggregateVersion",
    "occurredAt", "actor", "causationId", "correlationId", "payloadSchema", "payloadHash",
    "payload"]

def domainEventEnvelopeMembers : List (String × Schema) :=
  [("schemaVersion", .const (.string (js "1.0.0"))), ("eventId", uuidV7),
    ("eventType", canonicalTypeName), ("aggregateType", canonicalTypeName),
    ("aggregateId", boundedString 1 256),
    ("aggregateVersion", .all [.type .integer, .minimum 1]), ("occurredAt", dateTime),
    ("actor", actorRef), ("causationId", uuidV7), ("correlationId", uuidV7),
    ("payloadSchema", schemaRef), ("payloadHash", sha256), ("payload", .type .object)]

-- urn:aseos:schema:domain-event-envelope:1.0.0
def domainEventEnvelope : Schema :=
  .all [.type .object, .closed domainEventEnvelopeKeys, .required domainEventEnvelopeKeys,
    .properties domainEventEnvelopeMembers]

end Schema

-- What the kernel reads of a registry entry.
structure SchemaRegistryEntry where
  schemaVersion : JsString
  sha256 : JsString
  schema : Schema

namespace SchemaId

def domainEventEnvelope : JsString := js "urn:aseos:schema:domain-event-envelope:1.0.0"

end SchemaId

-- The entries by their ids; a loaded registry has the canonical envelope schemas.
structure ContractRegistry where
  byId : JsString → Option SchemaRegistryEntry
  eventEnvelopeHash : JsString
  eventEnvelope : byId SchemaId.domainEventEnvelope =
    some ⟨js "1.0.0", eventEnvelopeHash, .domainEventEnvelope⟩

namespace ContractRegistry

variable (registry : ContractRegistry) (formats : Format → JsString → Bool)

-- Which of the failures `resolve` reports is not read by its callers here.
def resolve (schemaId schemaVersion : JsString) : Option SchemaRegistryEntry :=
  if schemaId = [] ∨ schemaVersion = [] then none
  else
    match registry.byId schemaId with
    | some entry => if entry.schemaVersion = schemaVersion then some entry else none
    | none => none

def validate (schemaId schemaVersion : JsString) (value : JsValue) : Bool :=
  match registry.resolve schemaId schemaVersion with
  | some entry => entry.schema.accepts formats value
  | none => false

theorem resolve_eventEnvelope :
    registry.resolve SchemaId.domainEventEnvelope (js "1.0.0") =
      some ⟨js "1.0.0", registry.eventEnvelopeHash, .domainEventEnvelope⟩ := by
  rw [resolve, if_neg (by decide), registry.eventEnvelope]
  rfl

end ContractRegistry

end Aseos
