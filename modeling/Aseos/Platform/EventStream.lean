import Aseos.Contracts.Spread
import Aseos.Js.DateTime
import Aseos.Js.Utf16

namespace Aseos

namespace EventStream

open Utf8

-- Decoded text, character by character; the methods of JavaScript strings used on it never cut a
-- surrogate pair.
abbrev Text := List Char

inductive StreamItem where
  | retentionGap
  | notification (value : JsValue)

inductive StreamError where
  | invalidUtf8
  | frameTooLarge
  | gapInvalid
  | invalidJson
  | notificationInvalid
  | frameIncomplete
  | truncatedUtf8
  | streamIncomplete
  deriving DecidableEq

namespace StreamError

def code : StreamError → String
  | frameTooLarge => "CONTROL_CLIENT_RESPONSE_TOO_LARGE"
  | _ => "CONTROL_CLIENT_EVENT_INVALID"

def message : StreamError → String
  | invalidUtf8 => "Control event contains invalid UTF-8"
  | frameTooLarge => "Control event frame exceeded the client limit"
  | gapInvalid => "Control event gap failed validation"
  | invalidJson => "Control event contained invalid JSON"
  | notificationInvalid => "Control event failed validation"
  | frameIncomplete => "Control event frame was incomplete"
  | truncatedUtf8 => "Control event ends with truncated UTF-8"
  | streamIncomplete => "Control event stream ended with an incomplete frame"

end StreamError

section Validation

def exactKeys (props : Props) (expected : List String) : Bool :=
  JsonText.commaSeparated (JsString.sort (Props.keys props)) ==
    JsonText.commaSeparated (JsString.sort (expected.map js))

def isText (value : JsValue) (valid : JsString → Bool) : Bool :=
  match value with
  | .string s => valid s
  | _ => false

def nonNegativeInteger : JsValue → Bool
  | .number (.finite x) => x.isSafeInteger && decide (0 ≤ x.value)
  | _ => false

def isUndefined : JsValue → Bool
  | .undefined => true
  | _ => false

def isSubjectRef : JsValue → Bool
  | .object _ props =>
      let version := Props.get props (js "subjectVersion")
      exactKeys props
        (if isUndefined version then ["subjectType", "subjectId"]
          else ["subjectType", "subjectId", "subjectVersion"]) &&
        isText (Props.get props (js "subjectType")) Pattern.canonicalTypeName.test &&
        isText (Props.get props (js "subjectId")) (fun s => 1 ≤ s.length && s.length ≤ 256) &&
        (isUndefined version || isText version (fun s => 1 ≤ s.length && s.length ≤ 128))
  | _ => false

def isRfc3339DateTime (s : JsString) : Bool :=
  match DateTime.rfc3339DateTime s with
  | some fields => DateTime.calendarValid fields
  | none => false

def notificationKinds : List JsString :=
  [js "RUNTIME_STATUS", js "OPERATION_METADATA", js "EVIDENCE_METADATA"]

variable (host : Host)

def isNotification : JsValue → Bool
  | .object _ props =>
      exactKeys props
          ["schemaVersion", "notificationId", "subjectRef", "projectionVersion", "kind",
            "occurredAt", "resourceUri"] &&
        isText (Props.get props (js "schemaVersion")) (· == js "1.0.0") &&
        isText (Props.get props (js "notificationId")) Pattern.uuidV7.test &&
        isSubjectRef (Props.get props (js "subjectRef")) &&
        nonNegativeInteger (Props.get props (js "projectionVersion")) &&
        notificationKinds.elem ((Props.get props (js "kind")).toText host) &&
        isText (Props.get props (js "occurredAt")) isRfc3339DateTime &&
        isText (Props.get props (js "resourceUri"))
          (fun s => (js "/v1/").isPrefixOf s && s.length ≤ 1024)
  | _ => false

end Validation

section Frames

-- The frames that `indexOf` and `slice` cut off at each blank line, and the text left pending.
def splitFrames : Text → List Text × Text
  | [] => ([], [])
  | '\n' :: '\n' :: s => ([] :: (splitFrames s).1, (splitFrames s).2)
  | c :: s =>
      match splitFrames s with
      | ([], rest) => ([], c :: rest)
      | (frame :: frames, rest) => ((c :: frame) :: frames, rest)

def field (name : String) (frame : Text) : Option Text :=
  ((frame.splitOn '\n').find? (fun line => name.toList.isPrefixOf line)).map
    (·.drop name.length)

variable (runtime : JsonRuntime)

def parseData (data : Text) : Option JsValue := Json.parse runtime.numberValue (utf16Text data)

def gapValid (data : Option Text) : Bool :=
  match data.bind (parseData runtime) with
  | some (.object _ props) =>
      exactKeys props ["code"] &&
        isText (Props.get props (js "code")) (· == js "CONTROL_SSE_RETENTION_GAP")
  | _ => false

-- `event === parsed.kind`
def eventIsKind (event : Option Text) (parsed : JsValue) : Bool :=
  match event, parsed.property (js "kind") with
  | some event, .string kind => utf16Text event == kind
  | none, .undefined => true
  | _, _ => false

def frameItem (frame : Text) : Except StreamError (Option StreamItem) :=
  let event := field "event: " frame
  let data := field "data: " frame
  if event = some "gap".toList then
    if gapValid runtime data then .ok (some .retentionGap) else .error .gapInvalid
  else
    match data with
    | some data =>
        match parseData runtime data with
        | some parsed =>
            if isNotification runtime.toHost parsed && eventIsKind event parsed then
              .ok (some (.notification parsed))
            else .error .notificationInvalid
        | none => .error .invalidJson
    | none => if [':'].isPrefixOf frame then .ok none else .error .frameIncomplete

-- The items of the frames up to the first one that throws.
def drainFrames : List Text → List StreamItem × Option StreamError
  | [] => ([], none)
  | frame :: frames =>
      match frameItem runtime frame with
      | .error e => ([], some e)
      | .ok item => (item.toList ++ (drainFrames frames).1, (drainFrames frames).2)

end Frames

section Streaming

-- `bytes > limit`
def exceeds (limit : JsNumber) (bytes : ℤ) : Bool :=
  match limit with
  | .finite x => decide (x.value < bytes)
  | .infinity negative => negative
  | .nan => false

structure StreamState where
  pending : Text
  held : List Byte
  undecodedBytes : ℤ
  atStart : Bool

def StreamState.initial : StreamState := ⟨[], [], 0, true⟩

def byteOrderMark : Char := Char.ofNat 65279

def withoutMark (atStart : Bool) (decoded : Text) : Text :=
  if atStart && decoded.head? == some byteOrderMark then decoded.tail else decoded

variable (runtime : JsonRuntime) (limit : JsNumber)

def receive (s : StreamState) (chunk : List Byte) :
    List StreamItem × Except StreamError StreamState :=
  match decode s.held chunk with
  | none => ([], .error .invalidUtf8)
  | some (decoded, held) =>
      let undecodedBytes := s.undecodedBytes + (chunk.length - (encode decoded).length)
      let pending := s.pending ++ withoutMark s.atStart decoded
      if exceeds limit ((encode pending).length + undecodedBytes) then ([], .error .frameTooLarge)
      else
        match drainFrames runtime (splitFrames pending).1 with
        | (items, some e) => (items, .error e)
        | (items, none) =>
            (items,
              .ok ⟨(splitFrames pending).2, held, undecodedBytes, s.atStart && decoded.isEmpty⟩)

-- `decoder.decode()` throws on the start of a character.
def finish (s : StreamState) : Option StreamError :=
  if s.held ≠ [] then some .truncatedUtf8
  else if s.pending ≠ [] then some .streamIncomplete
  else none

def streamFrom (s : StreamState) : List (List Byte) → List StreamItem × Option StreamError
  | [] => ([], finish s)
  | chunk :: chunks =>
      match receive runtime limit s chunk with
      | (items, .error e) => (items, some e)
      | (items, .ok s) => (items ++ (streamFrom s chunks).1, (streamFrom s chunks).2)

-- What the generator yields for the body of a response, and the error that ends it.
def streamEvents (chunks : List (List Byte)) : List StreamItem × Option StreamError :=
  streamFrom runtime limit .initial chunks

end Streaming

end EventStream

end Aseos
