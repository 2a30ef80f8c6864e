import Aseos.Kernel.Model

namespace Aseos

namespace Schema

-- urn:aseos:schema:workflow-run-created-payload:1.0.0
def workflowRunCreatedPayload : Schema :=
  .all [.type .object,
    .closed ["workflowDefinitionId", "workflowDefinitionVersion", "createdByCommandId"],
    .required ["workflowDefinitionId", "workflowDefinitionVersion", "createdByCommandId"],
    .properties [("workflowDefinitionId", boundedString 1 256),
      ("workflowDefinitionVersion", semanticVersion), ("createdByCommandId", uuidV7)]]

end Schema

namespace SchemaId

def createWorkflowRunPayload : JsString := js "urn:aseos:schema:create-workflow-run-payload:1.0.0"

def workflowRunCreatedPayload : JsString :=
  js "urn:aseos:schema:workflow-run-created-payload:1.0.0"

end SchemaId

namespace Workflow

open Kernel

-- The status is always CREATED.
structure WorkflowRunState where
  runId : JsString
  version : ℕ
  workflowDefinitionId : JsString
  workflowDefinitionVersion : JsString
  createdByCommandId : JsString
  createdAt : JsString
  deriving DecidableEq

-- `value === n` for a number n.
def isNumber (value : JsValue) (n : ℕ) : Bool :=
  match value with
  | .number (.finite x) => decide (x.value = n)
  | _ => false

def decide (state : Option WorkflowRunState) (command : JsValue) : Except Thrown JsValue :=
  if state ≠ none ∨ text command "commandType" ≠ js "CreateWorkflowRun" ∨
      isNumber (command.property (js "expectedVersion")) 0 = false then
    fail .domainRejected (js "Workflow run can only be created once")
  else
    let payload := command.property (js "payload")
    .ok (.record [(js "eventType", .string (js "WorkflowRunCreated")),
      (js "payload", .record [
        (js "workflowDefinitionId", payload.property (js "workflowDefinitionId")),
        (js "workflowDefinitionVersion", payload.property (js "workflowDefinitionVersion")),
        (js "createdByCommandId", command.property (js "commandId"))])])

def apply (state : Option WorkflowRunState) (event : JsValue) :
    Except Thrown (Option WorkflowRunState) :=
  let payload := event.property (js "payload")
  if state ≠ none ∨ text event "eventType" ≠ js "WorkflowRunCreated" ∨
      isNumber (event.property (js "aggregateVersion")) 1 = false ∨
      text payload "createdByCommandId" ≠ text event "causationId" then
    fail .replayInvalid (js "Invalid workflow creation or causation")
  else
    .ok (some
      { runId := text event "aggregateId"
        version := 1
        workflowDefinitionId := text payload "workflowDefinitionId"
        workflowDefinitionVersion := text payload "workflowDefinitionVersion"
        createdByCommandId := text payload "createdByCommandId"
        createdAt := text event "occurredAt" })

def workflowRunDefinition : AggregateDefinition WorkflowRunState where
  aggregateType := js "WorkflowRun"
  commandSchemas commandType :=
    if commandType = js "CreateWorkflowRun" then some SchemaId.createWorkflowRunPayload else none
  eventSchemas eventType :=
    if eventType = js "WorkflowRunCreated" then some SchemaId.workflowRunCreatedPayload else none
  decide := decide
  apply := apply

end Workflow

end Aseos
