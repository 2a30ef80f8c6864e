import Aseos.Contracts.JsonLine
import Aseos.Js.IsoString
import Aseos.Platform.EventStream
import Aseos.Platform.Identity

namespace Aseos

namespace EventStream

open Utf8

inductive PublishError where
  | runtimeStopped
  | notificationInvalid
  deriving DecidableEq

namespace PublishError

def code : PublishError → String
  | runtimeStopped => "CONTROL_RUNTIME_STOPPED"
  | notificationInvalid => "CONTROL_NOTIFICATION_INVALID"

def message : PublishError → String
  | runtimeStopped => "Runtime is stopped"
  | notificationInvalid => "Notification metadata failed validation"

end PublishError

section Publication

def validSubjectRef : JsValue → Bool
  | .object _ subject =>
      let keys := Props.keys subject
      let version := Props.get subject (js "subjectVersion")
      (decide (keys.length = 2) || (decide (keys.length = 3) && isText version fun _ => true)) &&
        isText (Props.get subject (js "subjectType")) Pattern.canonicalTypeName.test &&
        isText (Props.get subject (js "subjectId")) (fun s => 1 ≤ s.length && s.length ≤ 256) &&
        (isUndefined version || isText version (fun s => 1 ≤ s.length && s.length ≤ 128))
  | _ => false

structure ControlNotification where
  notificationId : JsString
  kind : JsString
  subjectRef : Props
  projectionVersion : JsNumber
  occurredAt : JsString
  resourceUri : JsString

def ControlNotification.value (n : ControlNotification) : JsValue :=
  .record [(js "schemaVersion", .string (js "1.0.0")),
    (js "notificationId", .string n.notificationId), (js "kind", .string n.kind),
    (js "subjectRef", .object true n.subjectRef),
    (js "projectionVersion", .number n.projectionVersion),
    (js "occurredAt", .string n.occurredAt), (js "resourceUri", .string n.resourceUri)]

def publishNotification (stopRequested : Bool) (candidate : JsValue)
    (notificationId occurredAt : JsString) : Except PublishError ControlNotification :=
  if stopRequested then .error .runtimeStopped
  else
    match candidate.property (js "projectionVersion"), candidate.property (js "subjectRef"),
        candidate.property (js "kind"), candidate.property (js "resourceUri") with
    | .number version, .object plain subject, .string kind, .string uri =>
        if nonNegativeInteger (.number version) && validSubjectRef (.object plain subject) &&
            notificationKinds.elem kind && (js "/v1/").isPrefixOf uri &&
            decide (uri.length ≤ 1024) then
          .ok ⟨notificationId, kind, Props.spread subject, version, occurredAt, uri⟩
        else .error .notificationInvalid
    | _, _, _, _ => .error .notificationInvalid

end Publication

section Writing

inductive SseFrame where
  | notification (n : ControlNotification)
  | gap
  | heartbeat

namespace SseFrame

variable (host : Host)

-- A frame without the blank line that ends it.
def fields : SseFrame → JsString
  | notification n =>
      js "id: " ++ n.notificationId ++ js "\nevent: " ++ n.kind ++ js "\ndata: " ++
        (Json.stringify host n.value).getD (js "undefined")
  | gap => js "event: gap\ndata: \x7b\"code\":\"CONTROL_SSE_RETENTION_GAP\"\x7d"
  | heartbeat => js ": heartbeat"

def data (frame : SseFrame) : JsString := frame.fields host ++ js "\n\n"

-- The bytes that `response.write` sends for a frame.
def bytes (frame : SseFrame) : List Byte := (frame.data host).utf8

def item : SseFrame → Option StreamItem
  | notification n => n.value.restored.map .notification
  | gap => some .retentionGap
  | heartbeat => none

end SseFrame

end Writing

section Subjects

mutual

-- `JSON.stringify` gives the value a text without throwing and without calling a `toJSON` method.
def serializable : JsValue → Bool
  | .cycle | .foreign .bigint => false
  | .array slots _ => slotsSerializable slots
  | .object _ props => propsSerializable props
  | _ => true

def slotsSerializable : List (SlotKind × JsValue) → Bool
  | [] => true
  | (_, v) :: slots => serializable v && slotsSerializable slots

def propsSerializable : List (Field × JsValue) → Bool
  | [] => true
  | (field, v) :: props =>
      (match field.kind, field.key, v with
        | _, .text key, .foreign .function => key != js "toJSON"
        | .hidden, _, _ | _, .symbol _, _ => true
        | _, .text _, v => serializable v) && propsSerializable props

end

-- A value that `JSON.stringify` leaves out of an object.
def unwritten : JsValue → Bool
  | .undefined | .foreign _ | .cycle => true
  | _ => false

-- The names of the members that `JSON.stringify` writes.
def writtenKeys (props : Props) : List JsString :=
  (Props.entries props).filterMap fun e => if unwritten e.2 then none else some e.1

def NamesSubject (subjectRef : Props) : Prop :=
  (writtenKeys subjectRef).Perm [js "subjectType", js "subjectId"] ∨
    (writtenKeys subjectRef).Perm [js "subjectType", js "subjectId", js "subjectVersion"]

structure Published (n : ControlNotification) : Prop where
  accepted : ∃ candidate : JsValue, candidate.WellFormed ∧
    publishNotification false candidate n.notificationId n.occurredAt = .ok n
  created : ∃ now random, Identity.createUuidV7 now random = some n.notificationId
  dated : ∃ instant, DateTime.toISOString instant = n.occurredAt
  serializable : propsSerializable n.subjectRef = true

end Subjects

end EventStream

end Aseos
