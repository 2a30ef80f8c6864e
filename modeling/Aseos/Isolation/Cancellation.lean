import Aseos.Isolation.Evidence
import Aseos.Library.TransitionSystem

namespace Aseos.Isolation

open TransitionSystem

section Staging

-- The file that a path of the staging directory names, and whether a new file can be put there.
structure StagingFiles (runtime : AdapterRuntime) (Entry : Type) where
  entry : JsString → Entry
  admits : List Entry → JsString → Bool
  request_ne_cancel (directory : JsString) :
    entry (runtime.join directory (js ".aseos-request.json")) ≠
      entry (runtime.join directory (js ".aseos-cancel"))

variable (runtime : AdapterRuntime)

def safeInputPath (stagingDirectory relativePath : JsString) : Except RequestError JsString := do
  let candidate := runtime.normalize (relativePath.map fun c => if c = 47 then 92 else c)
  refuseWhen (candidate.isEmpty || candidate == js "." || runtime.isAbsolute candidate ||
      (js "..\\").isPrefixOf candidate || candidate == js ".." || candidate.elem 0)
    (js "unsafe staged input path: " ++ relativePath)
  let destination := runtime.resolve stagingDirectory candidate
  let boundary := runtime.relative stagingDirectory destination
  refuseWhen ((js "..").isPrefixOf boundary || runtime.isAbsolute boundary)
    (js "staged input escapes working directory: " ++ relativePath)
  return destination

def relativePaths (request : Props) : Except RequestError (List JsString) := do
  match request.get (js "inputs") with
  | .undefined | .null => return []
  | inputs => ((← arraySlots inputs).map Slots.value).mapM fun input =>
      readText (input.property (js "relativePath"))

variable {runtime} {Entry : Type} [DecidableEq Entry] (fs : StagingFiles runtime Entry)

-- `writeFile(path, …, { flag: "wx" })`
def writeNew (files : List Entry) (path : JsString) : Option (List Entry) :=
  if fs.entry path ∈ files ∨ fs.admits files path = false then none
  else some (fs.entry path :: files)

def stageInput (stagingDirectory : JsString) (files : List Entry) (relativePath : JsString) :
    Option (List Entry) := do
  writeNew fs files (← (safeInputPath runtime stagingDirectory relativePath).toOption)

def createStagingDirectory (request : Props) (stagingDirectory : JsString) : Option (List Entry) :=
  do (← (relativePaths request).toOption).foldlM (stageInput fs stagingDirectory) []

-- The files beside the bridge when the adapter spawns it.
def stagedFiles (request : Props) (stagingDirectory : JsString) : Option (List Entry) := do
  writeNew fs (← createStagingDirectory fs request stagingDirectory)
    (runtime.join stagingDirectory (js ".aseos-request.json"))

def cancellationFile (stagingDirectory : JsString) : Entry :=
  fs.entry (runtime.join stagingDirectory (js ".aseos-cancel"))

end Staging

structure Usage where
  elapsedMilliseconds : NetLong
  cpuTimeMs : NetLong
  memoryPeakBytes : NetLong
  activeProcessCount : NetInt

-- Interlocked.CompareExchange(ref terminationReason, value, 0)
def compareExchange (terminationReason value : ℤ) : ℤ :=
  if terminationReason = 0 then value else terminationReason

inductive ResourceNotification where
  | time
  | processCount
  | memory

def ResourceNotification.reason : ResourceNotification → ℤ
  | .time => 5
  | .processCount => 7
  | .memory => 6

inductive OutputStream where
  | stdout
  | stderr

def OutputStream.reason : OutputStream → ℤ
  | .stdout => 2
  | .stderr => 3

section Polling

variable (limits : Limits)

def pollReason (hostExited cancellationExists : Bool) (usage : Usage) (terminationReason : ℤ) : ℤ :=
  if hostExited || cancellationExists then compareExchange terminationReason 4
  else if wallClockReached limits usage.elapsedMilliseconds then
    compareExchange terminationReason 1
  else if cpuTimeReached limits usage.cpuTimeMs then compareExchange terminationReason 5
  else if memoryReached limits usage.memoryPeakBytes then compareExchange terminationReason 6
  else if processCountExceeded limits usage.activeProcessCount then
    compareExchange terminationReason 7
  else terminationReason

def closingReason (usage : Usage) (terminationReason : ℤ) : ℤ :=
  if terminationReason = 0 ∧ cpuTimeReached limits usage.cpuTimeMs then 5
  else if terminationReason = 0 ∧ memoryReached limits usage.memoryPeakBytes then 6
  else terminationReason

end Polling

-- `ended` holds the outcome that the bridge serializes; an exception, or the end of the bridge
-- before its response, leaves none.
inductive Phase where
  | starting
  | polling
  | closing
  | ended (outcome : Option RunOutcome)

structure RunState (Entry : Type) where
  files : List Entry
  aborted : Bool := false
  cancelled : Bool := false
  markerPending : Bool := false
  hostExited : Bool := false
  terminationReason : ℤ := 0
  phase : Phase := .starting

inductive RunEvent (Entry : Type) where
  | abort
  | writeMarker
  | hostExit
  | resume
  | childCreates (entry : Entry)
  | childRemoves (entry : Entry)
  | overflow (stream : OutputStream)
  | notify (notification : ResourceNotification)
  | poll (usage : Usage) (childExited : Bool)
  | finish (usage : Usage) (outcome : RunOutcome)
  | fail

def Phase.isEnded : Phase → Bool
  | .ended _ => true
  | _ => false

def Phase.childRuns : Phase → Bool
  | .polling | .closing => true
  | _ => false

section Steps

variable {Entry : Type} [DecidableEq Entry] (limits : Limits) (marker : Entry)

def runStep (s : RunState Entry) (event : RunEvent Entry) : Option (RunState Entry) :=
  if s.phase.isEnded then none
  else
    match event with
    | .abort =>
        some { s with
          aborted := true, cancelled := true, markerPending := s.markerPending || !s.cancelled }
    | .writeMarker =>
        if !s.markerPending then none
        else if marker ∈ s.files then some { s with markerPending := false, phase := .ended none }
        else some { s with markerPending := false, files := marker :: s.files }
    | .hostExit => some { s with hostExited := true }
    | .resume =>
        match s.phase with
        | .starting =>
            some { s with phase := if s.hostExited then .ended none else .polling }
        | _ => none
    | .childCreates entry =>
        if s.phase.childRuns then some { s with files := entry :: s.files } else none
    | .childRemoves entry =>
        if s.phase.childRuns then some { s with files := s.files.filter (· ≠ entry) } else none
    | .overflow stream =>
        if s.phase.childRuns then
          some { s with terminationReason := compareExchange s.terminationReason stream.reason }
        else none
    | .notify notification =>
        match s.phase with
        | .polling =>
            some { s with
              terminationReason := compareExchange s.terminationReason notification.reason }
        | _ => none
    | .poll usage childExited =>
        match s.phase with
        | .polling =>
            let reason := pollReason limits s.hostExited (marker ∈ s.files) usage
              s.terminationReason
            some { s with
              terminationReason := reason
              phase := if reason ≠ 0 ∨ childExited then .closing else .polling }
        | _ => none
    | .finish usage outcome =>
        match s.phase with
        | .closing =>
            let reason := closingReason limits usage s.terminationReason
            if outcome.terminationReason = reason then
              some { s with terminationReason := reason, phase := .ended (some outcome) }
            else none
        | _ => none
    | .fail => some { s with phase := .ended none }

end Steps

section Report

-- What the adapter resolves with; every exception is a failed start.
inductive ProcessResult where
  | failedToStart
  | terminated (reason evidence : JsValue)
  | completed (exitCode evidence : JsValue)

variable (reading : IntegerReading) (host : EvidenceHost) (request : Props)
  (capability : IsolationCapabilityReport)

def processResult (outcome : Option RunOutcome) : ProcessResult :=
  match outcome.bind runResponse with
  | none => .failedToStart
  | some r =>
    let response := parsedResponse reading r
    match createEvidence host request capability response with
    | .error _ => .failedToStart
    | .ok evidence =>
      if isTextOf "TERMINATED" (response.property (js "status")) then
        .terminated
          (orElse (response.property (js "reason")) (.string (js "WALL_CLOCK_LIMIT"))) evidence
      else
        .completed (orElse (response.property (js "exitCode"))
          (.number (.ofInt (-1) (by decide)))) evidence

def cancelledEvidence (evidence : JsValue) : Bool :=
  let result := evidence.property (js "result")
  isTextOf "CANCELLED" (result.property (js "outcome")) ||
    isTextOf "CANCELLED" (result.property (js "terminationReason"))

def ProcessResult.isCancelled : ProcessResult → Bool
  | .failedToStart => false
  | .terminated reason evidence => isTextOf "CANCELLED" reason || cancelledEvidence evidence
  | .completed _ evidence => cancelledEvidence evidence

end Report

end Aseos.Isolation
