import Aseos.Js.Number
import Aseos.Js.Text
import Aseos.Platform.RuntimeLock

namespace Aseos.ControlApi

open RuntimeLock (World Deployment Control)

inductive LimitName where
  | maxHeaderBytes
  | maxUrlBytes
  | maxBodyBytes
  | maxResponseBytes
  | maxConcurrentRequests
  | requestTimeoutMs
  | authFailureCapacity
  | authFailureWindowMs
  | idempotencyCapacity
  | idempotencyTtlMs
  | sseConnectionCapacity
  | sseRetentionCapacity
  | sseHeartbeatMs
  | sseMaxBufferedBytes
  deriving DecidableEq, Repr

def LimitName.all : List LimitName :=
  [.maxHeaderBytes, .maxUrlBytes, .maxBodyBytes, .maxResponseBytes, .maxConcurrentRequests,
    .requestTimeoutMs, .authFailureCapacity, .authFailureWindowMs, .idempotencyCapacity,
    .idempotencyTtlMs, .sseConnectionCapacity, .sseRetentionCapacity, .sseHeartbeatMs,
    .sseMaxBufferedBytes]

theorem LimitName.mem_all (name : LimitName) : name ∈ all := by
  cases name <;> decide

abbrev ControlApiLimits := LimitName → JsNumber

def defaultLimits : ControlApiLimits
  | .maxHeaderBytes => .ofInt 16384 (by decide)
  | .maxUrlBytes => .ofInt 2048 (by decide)
  | .maxBodyBytes => .ofInt 16384 (by decide)
  | .maxResponseBytes => .ofInt 262144 (by decide)
  | .maxConcurrentRequests => .ofInt 64 (by decide)
  | .requestTimeoutMs => .ofInt 10000 (by decide)
  | .authFailureCapacity => .ofInt 20 (by decide)
  | .authFailureWindowMs => .ofInt 60000 (by decide)
  | .idempotencyCapacity => .ofInt 1024 (by decide)
  | .idempotencyTtlMs => .ofInt 900000 (by decide)
  | .sseConnectionCapacity => .ofInt 8 (by decide)
  | .sseRetentionCapacity => .ofInt 512 (by decide)
  | .sseHeartbeatMs => .ofInt 15000 (by decide)
  | .sseMaxBufferedBytes => .ofInt 262144 (by decide)

structure Url where
  username : JsString
  password : JsString
  origin : JsString

structure StartControlApiOptions where
  dataRoot : JsString
  frameworkVersion : JsString
  releaseId : JsString
  limits : LimitName → Option JsNumber
  allowedOrigins : Option (List JsString)

inductive StartFailure where
  | optionsInvalid
  | limitInvalid (name : LimitName)
  | originUnparsable
  | originInvalid
  | registryInvalid
  deriving DecidableEq, Repr

def mergeLimits (input : LimitName → Option JsNumber) : Except StartFailure ControlApiLimits :=
  let result : ControlApiLimits := fun name => (input name).getD (defaultLimits name)
  match LimitName.all.find? (fun name => !(result name).isPositiveSafeInteger) with
  | some name => .error (.limitInvalid name)
  | none => .ok result

def addOrigin (result : List JsString) (candidate : JsString) : List JsString :=
  if candidate ∈ result then result else result ++ [candidate]

def normalizedOrigins (parseUrl : JsString → Option Url) (origins : Option (List JsString)) :
    Except StartFailure (List JsString) :=
  List.foldlM (fun result candidate =>
    match parseUrl candidate with
    | none => .error .originUnparsable
    | some url =>
        if url.username ≠ [] ∨ url.password ≠ [] ∨ url.origin ≠ candidate then
          .error .originInvalid
        else .ok (addOrigin result candidate)) [] (origins.getD [])

def idempotencyRegistry (capacity ttlMs : JsNumber) : Except StartFailure Unit :=
  if capacity.isPositiveSafeInteger && ttlMs.isPositiveSafeInteger then .ok ()
  else .error .registryInvalid

-- What `startControlApi` checks before it takes the lock.
def checkOptions (options : StartControlApiOptions) : Except StartFailure ControlApiLimits :=
  if JsString.trim options.dataRoot = [] ∨ Pattern.semver.test options.frameworkVersion = false ∨
      options.releaseId.length < 1 ∨ options.releaseId.length > 256 then
    .error .optionsInvalid
  else mergeLimits options.limits

-- The initialiser of `state`, evaluated while the lock is held.
def createState (parseUrl : JsString → Option Url) (options : StartControlApiOptions)
    (limits : ControlApiLimits) : Except StartFailure (List JsString) := do
  let origins ← normalizedOrigins parseUrl options.allowedOrigins
  idempotencyRegistry (limits .idempotencyCapacity) (limits .idempotencyTtlMs)
  return origins

theorem mergeLimits_positive {input : LimitName → Option JsNumber} {limits : ControlApiLimits}
    (h : mergeLimits input = .ok limits) (name : LimitName) :
    (limits name).isPositiveSafeInteger = true := by
  simp only [mergeLimits] at h
  split at h
  · cases h
  · rename_i hnone
    obtain rfl := Except.ok.inj h
    simpa using List.find?_eq_none.mp hnone name name.mem_all

theorem checkOptions_positive {options : StartControlApiOptions} {limits : ControlApiLimits}
    (h : checkOptions options = .ok limits) (name : LimitName) :
    (limits name).isPositiveSafeInteger = true := by
  unfold checkOptions at h
  split at h
  · cases h
  · exact mergeLimits_positive h name

theorem createState_eq {parseUrl : JsString → Option Url} {options : StartControlApiOptions}
    {limits : ControlApiLimits} (h : checkOptions options = .ok limits) :
    createState parseUrl options limits = normalizedOrigins parseUrl options.allowedOrigins := by
  have hregistry : idempotencyRegistry (limits .idempotencyCapacity) (limits .idempotencyTtlMs) =
      .ok () := by
    simp [idempotencyRegistry, checkOptions_positive h]
  unfold createState
  rw [hregistry]
  cases normalizedOrigins parseUrl options.allowedOrigins <;> rfl

inductive Cleanup where
  | closeServer
  | removeControlFiles
  | releaseLock
  deriving DecidableEq, Repr

inductive Start where
  | entered
  | acquiring (limits : ControlApiLimits)
  | holding (limits : ControlApiLimits)
  | createToken
  | listen
  | writeDescriptor
  | running
  | cleaning (step : Cleanup)
  | rejected

inductive Stop where
  | idle
  | cleaning (step : Cleanup)
  | settled
  deriving DecidableEq, Repr

-- `served`, `claimRemovalFailed` and `lockRemovalFailed` are history variables.
structure Instance (Claim Process : Type) where
  world : World Claim Process
  start : Start
  stop : Stop
  listening : Bool
  served : Bool
  claimRemovalFailed : Bool
  lockRemovalFailed : Bool

inductive Event (Claim Process : Type) where
  | others (a : RuntimeLock.Action Claim Process)
  | lockMove
  | lockFault
  | lockSettled
  | check
  | createState
  | resolved
  | rejected
  | bindUnsafe
  | stop
  | stopResolved
  | stopRejected

variable {Claim Process : Type} [LinearOrder Claim] [DecidableEq Process]

def Cleanup.first (listening : Bool) : Cleanup :=
  if listening then .closeServer else .removeControlFiles

namespace Instance

def control (s : Instance Claim Process) (me : Claim) : Control Claim := s.world.control me

def listen (s : Instance Claim Process) : Instance Claim Process :=
  { s with start := .writeDescriptor, listening := true, served := true }

def lockPending (s : Instance Claim Process) (me : Claim) : Prop :=
  (∃ limits, s.start = .acquiring limits ∧ ∀ t, s.control me ≠ .held t) ∨
    s.start = .cleaning .releaseLock ∨ s.stop = .cleaning .releaseLock

def fail (s : Instance Claim Process) : Instance Claim Process :=
  { s with start := .cleaning (.first s.listening), listening := false }

def requestStop (s : Instance Claim Process) : Instance Claim Process :=
  { s with stop := .cleaning (.first s.listening), listening := false }

def noteFault (s : Instance Claim Process) (me : Claim) : Instance Claim Process :=
  match s.control me with
  | .abort | .releaseClaim _ => { s with claimRemovalFailed := true }
  | .releaseLock _ => { s with lockRemovalFailed := true }
  | _ => s

end Instance

variable (parseUrl : JsString → Option Url) (options : StartControlApiOptions)
  (d : Deployment Claim Process) (me : Claim)

-- `startControlApi` of the contender `me`, and `stop`, which a request handler may call as soon
-- as the server listens. Both await the same promise of the release function.
inductive Progress :
    Instance Claim Process → Event Claim Process → Instance Claim Process → Prop
  | accept {s limits} : s.start = .entered → checkOptions options = .ok limits →
      Progress s .check { s with start := .acquiring limits }
  | refuse {s failure} : s.start = .entered → checkOptions options = .error failure →
      Progress s .check { s with start := .rejected }
  | acquired {s limits t} : s.start = .acquiring limits → s.control me = .held t →
      Progress s .lockSettled { s with start := .holding limits }
  | notAcquired {s limits} : s.start = .acquiring limits → s.control me = .done →
      Progress s .lockSettled { s with start := .rejected }
  | released {s} : s.start = .cleaning .releaseLock → s.control me = .done →
      Progress s .lockSettled { s with start := .rejected }
  | stopReleased {s} : s.stop = .cleaning .releaseLock → s.control me = .done →
      Progress s .lockSettled { s with stop := .settled }
  | stateCreated {s limits origins} : s.start = .holding limits →
      createState parseUrl options limits = .ok origins →
      Progress s .createState { s with start := .createToken }
  | stateThrew {s limits failure} : s.start = .holding limits →
      createState parseUrl options limits = .error failure →
      Progress s .createState { s with start := .rejected }
  | tokenCreated {s} : s.start = .createToken → Progress s .resolved { s with start := .listen }
  | tokenFailed {s} : s.start = .createToken → Progress s .rejected s.fail
  | listening {s} : s.start = .listen →
      Progress s .resolved s.listen
  | listenFailed {s} : s.start = .listen → Progress s .rejected s.fail
  | bindUnsafe {s} : s.start = .listen →
      Progress s .bindUnsafe s.listen.fail
  | descriptorWritten {s} : s.start = .writeDescriptor → s.stop = .idle →
      Progress s .resolved { s with start := .running }
  | runtimeStopped {s} : s.start = .writeDescriptor → s.stop ≠ .idle →
      Progress s .resolved { s with start := .rejected }
  | descriptorFailed {s} : s.start = .writeDescriptor → Progress s .rejected s.fail
  | serverClosed {s} : s.start = .cleaning .closeServer →
      Progress s .resolved { s with start := .cleaning .removeControlFiles }
  | filesRemoved {s} : s.start = .cleaning .removeControlFiles →
      Progress s .resolved { s with start := .cleaning .releaseLock }
  | cleanupFailed {s step} : s.start = .cleaning step → step ≠ .releaseLock →
      Progress s .rejected { s with start := .rejected }
  | stop {s} : s.served = true → s.stop = .idle → Progress s .stop s.requestStop
  | stopServerClosed {s} : s.stop = .cleaning .closeServer →
      Progress s .stopResolved { s with stop := .cleaning .removeControlFiles }
  | stopFilesRemoved {s} : s.stop = .cleaning .removeControlFiles →
      Progress s .stopResolved { s with stop := .cleaning .releaseLock }
  | stopCleanupFailed {s step} : s.stop = .cleaning step → step ≠ .releaseLock →
      Progress s .stopRejected { s with stop := .settled }

inductive Step : Instance Claim Process → Event Claim Process → Instance Claim Process → Prop
  | own {s e t} : s.world.live d me → Progress parseUrl options me s e t → Step s e t
  | lockMove {s w} : s.lockPending me → RuntimeLock.Step d s.world (.move me) w →
      Step s .lockMove { s with world := w }
  | lockFault {s w} : s.lockPending me → RuntimeLock.Step d s.world (.fault me) w →
      Step s .lockFault { s.noteFault me with world := w }
  | others {s a w} : a ≠ .move me → a ≠ .fault me → RuntimeLock.Step d s.world a w →
      Step s (.others a) { s with world := w }

def Initial (s : Instance Claim Process) : Prop :=
  RuntimeLock.Initial s.world ∧ s.start = .entered ∧ s.stop = .idle ∧ s.listening = false ∧
    s.served = false ∧ s.claimRemovalFailed = false ∧ s.lockRemovalFailed = false

def Reachable : Instance Claim Process → Prop :=
  TransitionSystem.Reachable Initial (Step parseUrl options d me)

end Aseos.ControlApi
