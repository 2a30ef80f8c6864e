import Aseos.Library.TransitionSystem
import Aseos.Persistence.Protocol

namespace Aseos.Persistence

structure Call where
  number : ℕ
  kind : WorkerRequestKind
  deriving DecidableEq, Repr

inductive Settlement where
  | reply (id : ℕ) (failure : Option PersistenceErrorCode)
  | error (code : PersistenceErrorCode)
  deriving DecidableEq, Repr

inductive Ready where
  | waiting
  | resolved
  | rejected (code : PersistenceErrorCode)
  deriving DecidableEq, Repr

-- `posted` and `settled` are history variables: what was sent under which id, and every
-- settlement of a caller's promise in order.
structure Client where
  maxQueueDepth : ℕ
  ready : Ready
  waiting : List Call
  pending : List (ℕ × Call)
  nextRequestId : ℕ
  closed : Bool
  posted : List (ℕ × Call)
  settled : List (Call × Settlement)
  deriving DecidableEq, Repr

inductive WorkerMessage where
  | ready (failure : Option PersistenceErrorCode)
  | reply (id : ℕ) (failure : Option PersistenceErrorCode)
  deriving DecidableEq, Repr

namespace Client

def create (maxQueueDepth : ℕ) : Client :=
  ⟨maxQueueDepth, .waiting, [], [], 1, false, [], []⟩

def settle (c : Client) (call : Call) (outcome : Settlement) : Client :=
  { c with settled := c.settled ++ [(call, outcome)] }

def failPending (c : Client) (code : PersistenceErrorCode) : Client :=
  { c with
    pending := []
    settled := c.settled ++ c.pending.map (fun entry => (entry.2, .error code)) }

def enqueue (c : Client) (call : Call) : Client :=
  { c with
    nextRequestId := c.nextRequestId + 1
    pending := c.pending ++ [(c.nextRequestId, call)]
    posted := c.posted ++ [(c.nextRequestId, call)] }

-- `#request` from the resumption of its `await this.#ready` on, with the message it posts.
def request (c : Client) (call : Call) : Client × List (ℕ × Call) :=
  let c := { c with waiting := c.waiting.erase call }
  if c.closed then (c.settle call (.error .closed), [])
  else if c.pending.length ≥ c.maxQueueDepth then (c.settle call (.error .queueFull), [])
  else (c.enqueue call, [(c.nextRequestId, call)])

def onReply (c : Client) (id : ℕ) (failure : Option PersistenceErrorCode) : Client :=
  match c.pending.find? (fun entry => entry.1 == id) with
  | none => c
  | some entry =>
      { c with pending := c.pending.filter (fun entry => entry.1 != id) }.settle entry.2
        (.reply id failure)

def onMessage (c : Client) : WorkerMessage → Client
  | .ready failure =>
      match c.ready, failure with
      | .waiting, none => { c with ready := .resolved }
      | .waiting, some code => { c with ready := .rejected code }
      | _, _ => c
  | .reply id failure => c.onReply id failure

def rejectReady (c : Client) (code : PersistenceErrorCode) : Client :=
  if c.ready = .waiting then { c with ready := .rejected code } else c

def onError (c : Client) : Client :=
  (c.rejectReady .workerExited).failPending .workerExited

def onExit (c : Client) (code : Int) : Client :=
  if c.closed ∧ code = 0 then c else (c.rejectReady .workerExited).failPending .workerExited

def terminateForQualification (c : Client) : Client :=
  if c.closed then c else { c with closed := true }.failPending .workerExited

end Client

inductive WorkerPhase where
  | starting
  | serving
  | portClosed
  | exited
  deriving DecidableEq, Repr

structure Connection where
  client : Client
  calls : ℕ
  phase : WorkerPhase
  inbox : List (ℕ × Call)
  outbox : List WorkerMessage
  errorRaised : Bool
  exitProcessed : Bool
  deriving DecidableEq, Repr

inductive Event where
  | submit (kind : WorkerRequestKind)
  | resume (call : Call)
  | finishClose (call : Call)
  | terminate
  | workerReady (failure : Option PersistenceErrorCode)
  | serve (failure : Option PersistenceErrorCode)
  | deliver
  | workerError
  | workerExit
  | exitEvent (code : Int)
  deriving DecidableEq, Repr

namespace Connection

def start (maxQueueDepth : ℕ) : Connection :=
  ⟨Client.create maxQueueDepth, 0, .starting, [], [], false, false⟩

-- `open` hands the instance out only once `#ready` is resolved; `close` returns at once when
-- the instance is closed, and after its reply it sets `#closed` and terminates the worker.
def step (s : Connection) : Event → Option Connection
  | .submit kind =>
      if s.client.ready = .resolved ∧ ¬ (kind = .close ∧ s.client.closed) then
        some { s with
          calls := s.calls + 1
          client := { s.client with waiting := s.client.waiting ++ [⟨s.calls, kind⟩] } }
      else none
  | .resume call =>
      if call ∈ s.client.waiting ∧ s.client.ready = .resolved then
        some { s with
          client := (s.client.request call).1
          inbox := s.inbox ++ (s.client.request call).2 }
      else none
  | .finishClose call =>
      if call.kind = .close ∧
          s.client.settled.any (fun entry => entry.1 = call ∧ entry.2 matches .reply _ none) then
        some { s with client := { s.client with closed := true } }
      else none
  | .terminate =>
      if s.client.ready = .resolved then
        some { s with client := s.client.terminateForQualification }
      else none
  | .workerReady failure =>
      if s.phase = .starting then
        some { s with
          phase := if failure.isNone then .serving else .portClosed
          outbox := s.outbox ++ [.ready failure] }
      else none
  | .serve failure =>
      match s.phase, s.inbox with
      | .serving, (id, call) :: rest =>
          some { s with
            inbox := rest
            outbox := s.outbox ++ [.reply id failure]
            phase := if call.kind = .close ∧ failure = none then .portClosed else .serving }
      | _, _ => none
  | .deliver =>
      match s.outbox with
      | message :: rest => some { s with client := s.client.onMessage message, outbox := rest }
      | [] => none
  | .workerError =>
      if s.errorRaised then none
      else some { s with client := s.client.onError, errorRaised := true }
  | .workerExit => if s.phase = .exited then none else some { s with phase := .exited }
  | .exitEvent code =>
      if s.phase = .exited ∧ s.exitProcessed = false then
        some { s with client := s.client.onExit code, exitProcessed := true }
      else none

def Step (s : Connection) (e : Event) (t : Connection) : Prop := s.step e = some t

def Reachable (maxQueueDepth : ℕ) : Connection → Prop :=
  TransitionSystem.Reachable (· = start maxQueueDepth) Step

-- The exit handler does not take its early return over pending requests, and no request is
-- resumed on an instance that was never closed after its worker is gone.
def Guarded (s : Connection) : Event → Prop
  | .exitEvent code => s.client.closed = true → code = 0 → s.client.pending = []
  | .resume _ => s.exitProcessed = true → s.client.closed = true
  | _ => True

def GuardedReachable (maxQueueDepth : ℕ) : Connection → Prop :=
  TransitionSystem.Reachable (· = start maxQueueDepth) (fun s e t => Guarded s e ∧ Step s e t)

end Connection

end Aseos.Persistence
