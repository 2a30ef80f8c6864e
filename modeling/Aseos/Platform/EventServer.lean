import Aseos.Library.TransitionSystem
import Aseos.Platform.EventPublication

namespace Aseos

namespace EventStream

structure EventLimits where
  sseConnectionCapacity : ℕ
  sseRetentionCapacity : ℕ
  sseMaxBufferedBytes : ℕ

structure Write where
  frame : SseFrame
  flushed : Bool

-- `active` says that `state.eventConnections` has the connection, and `writable` is what
-- `response.write` returns for each write. The last three fields are history: what the client gave,
-- and what was retained and how much had been published when it connected.
structure EventConnection where
  bufferedBytes : ℕ
  writable : ℕ → Bool
  writes : List Write
  active : Bool
  lastEventId : Option JsString
  retained : List ControlNotification
  publishedBefore : ℕ

-- Every connection there has been, and in `published` every notification.
structure ServerState where
  notifications : List ControlNotification
  connections : List EventConnection
  stopRequested : Bool
  published : List ControlNotification

def ServerState.initial : ServerState := ⟨[], [], false, []⟩

def ServerState.eventConnections (s : ServerState) : List EventConnection :=
  s.connections.filter EventConnection.active

section Server

variable (host : Host) (limits : EventLimits)

def Write.size (w : Write) : ℕ := (w.frame.bytes host).length

def writeSseFrame (c : EventConnection) (frame : SseFrame) : EventConnection × Bool :=
  let bytes := (frame.bytes host).length
  if limits.sseMaxBufferedBytes < c.bufferedBytes + bytes then (c, false)
  else
    ({ c with bufferedBytes := c.bufferedBytes + bytes, writes := c.writes ++ [⟨frame, false⟩] },
      c.writable c.writes.length ||
        decide (c.bufferedBytes + bytes ≤ limits.sseMaxBufferedBytes))

def closeEventConnection (c : EventConnection) : EventConnection := { c with active := false }

-- False when `JSON.stringify` throws, or calls a `toJSON` function of the caller. A throw ends the
-- loop it is in: a replay is cut off there, a publication reaches no connection.
def ControlNotification.writable (n : ControlNotification) : Bool := propsSerializable n.subjectRef

-- A connection that a frame cannot be written to is closed.
def writeOrClose (c : EventConnection) (frame : SseFrame) : EventConnection :=
  match writeSseFrame host limits c frame with
  | (c, true) => c
  | (c, false) => closeEventConnection c

def replayNotifications (c : EventConnection) : List ControlNotification → EventConnection
  | [] => c
  | n :: rest =>
      if n.writable then
        match writeSseFrame host limits c (.notification n) with
        | (c, true) => replayNotifications c rest
        | (c, false) => closeEventConnection c
      else c

def resumeConnection (c : EventConnection) (notifications : List ControlNotification)
    (lastId : Option JsString) : EventConnection :=
  match lastId with
  | none => c
  | some lastId =>
      if 0 < notifications.length then
        match notifications.findIdx? (fun n => n.notificationId = lastId) with
        | none => writeOrClose host limits c .gap
        | some index => replayNotifications host limits c (notifications.drop (index + 1))
      else c

def serveEvents (s : ServerState) (lastId : Option JsString) (writable : ℕ → Bool) : ServerState :=
  if limits.sseConnectionCapacity ≤ s.eventConnections.length then s
  else
    let connection : EventConnection :=
      ⟨0, writable, [], true, lastId, s.notifications, s.published.length⟩
    { s with
      connections :=
        s.connections ++ [resumeConnection host limits connection s.notifications lastId] }

-- `while (notifications.length > capacity) notifications.shift()`
def shiftTo (capacity : ℕ) : List ControlNotification → List ControlNotification
  | [] => []
  | n :: rest => if capacity < (n :: rest).length then shiftTo capacity rest else n :: rest

-- A notification is retained before it is written.
def broadcast (s : ServerState) (n : ControlNotification) : ServerState :=
  { s with
    notifications := shiftTo limits.sseRetentionCapacity (s.notifications ++ [n])
    connections := s.connections.map fun c =>
      if n.writable && c.active then writeOrClose host limits c (.notification n) else c
    published := s.published ++ [n] }

-- The callback of a write.
def flushWrite (c : EventConnection) (write : ℕ) : EventConnection :=
  match c.writes[write]? with
  | some w =>
      if w.flushed then c
      else
        { c with
          bufferedBytes := c.bufferedBytes - w.size host
          writes := c.writes.set write { w with flushed := true } }
  | none => c

inductive ServerEvent where
  | publish (candidate : JsValue) (notificationId occurredAt : JsString)
  | connect (lastEventId : Option JsString) (writable : ℕ → Bool)
  | flush (connection write : ℕ)
  | heartbeat (connection : ℕ)
  | close (connection : ℕ)
  | stop

def nextState (s : ServerState) : ServerEvent → ServerState
  | .publish candidate notificationId occurredAt =>
      match publishNotification s.stopRequested candidate notificationId occurredAt with
      | .ok n => broadcast host limits s n
      | .error _ => s
  | .connect lastEventId writable => serveEvents host limits s lastEventId writable
  | .flush connection write =>
      { s with connections := s.connections.modify connection (flushWrite host · write) }
  | .heartbeat connection =>
      { s with
        connections := s.connections.modify connection fun c =>
          if c.active then writeOrClose host limits c .heartbeat else c }
  | .close connection =>
      { s with connections := s.connections.modify connection closeEventConnection }
  | .stop =>
      { s with stopRequested := true, connections := s.connections.map closeEventConnection }

def ServerStep (s : ServerState) (event : ServerEvent) (t : ServerState) : Prop :=
  nextState host limits s event = t

end Server

section Statements

-- Every candidate that is offered for publication can be written.
def WritableCandidates (events : List ServerEvent) : Prop :=
  ∀ candidate id date, .publish candidate id date ∈ events →
    propsSerializable (candidate.property (js "subjectRef")).spread = true

def isHeartbeat : SseFrame → Bool
  | .heartbeat => true
  | _ => false

def EventConnection.received (c : EventConnection) : List SseFrame :=
  (c.writes.map Write.frame).filter fun frame => !isHeartbeat frame

def EventConnection.unflushedBytes (host : Host) (c : EventConnection) : ℕ :=
  ((c.writes.filter fun w => !w.flushed).map (Write.size host)).sum

def notificationOf : SseFrame → Option ControlNotification
  | .notification n => some n
  | _ => none

inductive Resumed : Option JsString → List ControlNotification → List SseFrame → Prop
  | live (retained : List ControlNotification) : Resumed none retained []
  | unretained (id : JsString) : Resumed (some id) [] []
  | gap {id : JsString} {retained : List ControlNotification} : retained ≠ [] →
      id ∉ retained.map ControlNotification.notificationId → Resumed (some id) retained [.gap]
  | replay (before : List ControlNotification) (n : ControlNotification)
      (after : List ControlNotification) :
      Resumed (some n.notificationId) (before ++ n :: after) (after.map .notification)

end Statements

end EventStream

end Aseos
