import Aseos.Contracts.IsolationEvidence
import Aseos.Isolation.BridgeLimits
import Aseos.Js.IsoString
import Aseos.Platform.Identity

namespace Aseos.Isolation

-- What the locals of Run hold when its polling loop has ended.
structure RunOutcome where
  terminationReason : ℤ
  exitCode : BitVec 32
  stdoutBase64 : JsString
  stderrBase64 : JsString
  elapsedMilliseconds : NetLong
  processId : BitVec 32
  cpuTimeMs : NetLong
  memoryPeakBytes : NetLong
  processPeakCount : NetInt
  activeProcessCount : NetInt

structure Response where
  status : JsString
  exitCode : Option NetInt := none
  reason : Option JsString := none
  stdoutBase64 : Option JsString := none
  stderrBase64 : Option JsString := none
  durationMs : NetLong
  code : Option JsString := none
  message : Option JsString := none
  rootProcessId : NetInt := 0
  cpuTimeMs : NetLong := 0
  memoryPeakBytes : NetLong := 0
  processPeakCount : NetInt := 0
  activeProcessCountAfterCompletion : NetInt := 0
  descendantTerminationVerified : Bool := false

def reasonText (terminationReason : ℤ) : Option JsString :=
  if terminationReason = 1 then some (js "WALL_CLOCK_LIMIT")
  else if terminationReason = 2 ∨ terminationReason = 3 then some (js "OUTPUT_LIMIT")
  else if terminationReason = 4 then some (js "CANCELLED")
  else if terminationReason = 5 then some (js "CPU_LIMIT")
  else if terminationReason = 6 then some (js "MEMORY_LIMIT")
  else if terminationReason = 7 then some (js "PROCESS_COUNT_LIMIT")
  else none

-- An active process left over or a process id outside of Int32 is an exception instead.
def runResponse (o : RunOutcome) : Option Response :=
  if o.activeProcessCount ≠ 0 ∨ 2147483647 < o.processId.toNat then none
  else
    let reason := reasonText o.terminationReason
    some {
      status := if reason.isNone then js "COMPLETED" else js "TERMINATED"
      exitCode := if reason.isNone then some o.exitCode else none
      reason := reason
      stdoutBase64 := some o.stdoutBase64
      stderrBase64 := some o.stderrBase64
      durationMs := o.elapsedMilliseconds
      rootProcessId := o.processId
      cpuTimeMs := o.cpuTimeMs
      memoryPeakBytes := o.memoryPeakBytes
      processPeakCount := o.processPeakCount
      activeProcessCountAfterCompletion := o.activeProcessCount
      descendantTerminationVerified := o.activeProcessCount = 0 }

-- What JSON.parse makes of the decimal digits of an integer: the nearest double, which is the
-- integer itself below 2^53 and has no fraction above.
structure IntegerReading where
  double : ℤ → Double
  integral (n : ℤ) : |n| < 2 ^ 64 → (double n).value.den = 1
  nonneg (n : ℤ) : 0 ≤ n → 0 ≤ (double n).value
  exact (n : ℤ) : |n| < 2 ^ 53 → (double n).value = n

variable (reading : IntegerReading)

def readInteger (n : ℤ) : JsValue := .number (.finite (reading.double n))

def orNull (value : Option JsValue) : JsValue := value.getD .null

def responseMembers (r : Response) : List (String × JsValue) :=
  [("status", .string r.status),
    ("exitCode", orNull (r.exitCode.map fun n => readInteger reading n.toInt)),
    ("reason", orNull (r.reason.map .string)),
    ("stdoutBase64", orNull (r.stdoutBase64.map .string)),
    ("stderrBase64", orNull (r.stderrBase64.map .string)),
    ("durationMs", readInteger reading r.durationMs.toInt), ("code", orNull (r.code.map .string)),
    ("message", orNull (r.message.map .string)),
    ("rootProcessId", readInteger reading r.rootProcessId.toInt),
    ("cpuTimeMs", readInteger reading r.cpuTimeMs.toInt),
    ("memoryPeakBytes", readInteger reading r.memoryPeakBytes.toInt),
    ("processPeakCount", readInteger reading r.processPeakCount.toInt),
    ("activeProcessCountAfterCompletion",
      readInteger reading r.activeProcessCountAfterCompletion.toInt),
    ("descendantTerminationVerified", .bool r.descendantTerminationVerified)]

-- JSON.parse of what JavaScriptSerializer writes: every property, null ones as null.
def parsedResponse (r : Response) : JsValue := namedRecord (responseMembers reading r)

def uuidByte (timestamp : ℤ) (random : Fin 16 → Utf8.Byte) (index : Fin 16) : Utf8.Byte :=
  if index.val < 6 then Utf8.byte (timestamp / 256 ^ (5 - index.val) % 256).toNat
  else if index = 6 then Utf8.byte (112 ||| ((random 6).val &&& 15))
  else if index = 8 then Utf8.byte (128 ||| ((random 8).val &&& 63))
  else random index

def uuidV7 (timestamp : ℤ) (random : Fin 16 → Utf8.Byte) : JsString :=
  Identity.uuidText (uuidByte timestamp random)

inductive CapabilityResult where
  | available
  | unavailable
  | probeFailed
  deriving DecidableEq

structure IsolationCapabilityReport where
  reportId : JsString
  providerId : JsString
  providerVersion : JsString
  probeId : JsString
  guarantees : JsValue
  result : CapabilityResult

structure IdentitySource where
  timestamp : ℤ
  random : Fin 16 → Utf8.Byte

def IdentitySource.next (source : IdentitySource) : JsString :=
  uuidV7 source.timestamp source.random

def capabilityReport (result : CapabilityResult) (report probe : IdentitySource) :
    IsolationCapabilityReport where
  reportId := report.next
  providerId := js "aseos.windows-job-object"
  providerVersion := js "1.0.0"
  probeId := probe.next
  guarantees := namedRecord
    [("processTreeLifecycleContained", .bool (result = .available)),
      ("resourceBudgetsEnforced", .bool (result = .available)),
      ("networkAccessDenied", .bool false), ("filesystemAccessDenied", .bool false),
      ("registryAccessDenied", .bool false), ("securitySandbox", .bool false)]
  result := result

def isTextOf (text : String) : JsValue → Bool
  | .string s => s = js text
  | _ => false

def isNumber (n : ℤ) : JsValue → Bool
  | .number (.finite x) => x.value = n
  | _ => false

-- `value < 1` of a number; the bridge writes nothing else there.
def belowOne : JsValue → Bool
  | .number (.finite x) => decide (x.value < 1)
  | _ => false

def limitReasons : List String :=
  ["WALL_CLOCK_LIMIT", "CPU_LIMIT", "MEMORY_LIMIT", "PROCESS_COUNT_LIMIT", "CANCELLED"]

def terminationReason (response : JsValue) : String :=
  if isTextOf "COMPLETED" (response.property (js "status")) then "EXITED"
  else (limitReasons.find? fun reason => isTextOf reason (response.property (js "reason"))).getD
    "OUTPUT_LIMIT"

def outcomeText (succeeded : Bool) (reason : String) : String :=
  if succeeded then "SUCCEEDED"
  else if reason = "CANCELLED" then "CANCELLED"
  else if reason = "WALL_CLOCK_LIMIT" then "TIMED_OUT"
  else "FAILED"

def exitCodeMember (response : JsValue) : List (String × JsValue) :=
  match response.property (js "exitCode") with
  | .undefined => []
  | exitCode => [("exitCode", exitCode)]

def evidenceResult (response : JsValue) : JsValue :=
  let reason := terminationReason response
  let succeeded := isTextOf "COMPLETED" (response.property (js "status")) &&
    isNumber 0 (response.property (js "exitCode"))
  namedRecord ([("outcome", .string (js (outcomeText succeeded reason)))] ++
    exitCodeMember response ++
    [("terminationReason", .string (js reason)), ("processTreeTerminated", .bool true),
      ("reasonCodes", .ofStrings (if succeeded then [] else [js ("PROCESS_" ++ reason)]))])

-- The clock, the identifier and the decoded outputs that createEvidence takes from its host.
structure EvidenceHost where
  evidenceId : IdentitySource
  startedAt : DateTime.UtcInstant
  completedAt : DateTime.UtcInstant
  stdoutLength : ℕ
  stderrLength : ℕ
  lengths_lt : stdoutLength < 2 ^ 53 ∧ stderrLength < 2 ^ 53

def countValue (n : ℕ) (h : n < 2 ^ 53) : JsValue :=
  .number (.ofInt n (by rw [abs_of_nonneg (Int.natCast_nonneg n)]; exact_mod_cast h))

def usage (host : EvidenceHost) (response : JsValue) : JsValue :=
  namedRecord
    [("cpuTimeMs", orElse (response.property (js "cpuTimeMs")) (countValue 0 (by decide))),
      ("memoryPeakBytes",
        orElse (response.property (js "memoryPeakBytes")) (countValue 0 (by decide))),
      ("processPeakCount",
        orElse (response.property (js "processPeakCount")) (countValue 1 (by decide))),
      ("wallClockMs", response.property (js "durationMs")),
      ("stdoutBytes", countValue host.stdoutLength host.lengths_lt.1),
      ("stderrBytes", countValue host.stderrLength host.lengths_lt.2)]

def processTree (response : JsValue) : JsValue :=
  namedRecord
    [("rootProcessId", response.property (js "rootProcessId")), ("jobObjectAssigned", .bool true),
      ("killOnJobClose", .bool true),
      ("descendantTerminationVerified",
        orElse (response.property (js "descendantTerminationVerified")) (.bool false)),
      ("activeProcessCountAfterCompletion", countValue 0 (by decide))]

def evidenceMembers (host : EvidenceHost) (request : Props)
    (capability : IsolationCapabilityReport) (response : JsValue) : List (String × JsValue) :=
  let context := request.get (js "evidenceContext")
  [("schemaVersion", .string (js "1.0.0")), ("evidenceId", .string host.evidenceId.next),
    ("requirementId", context.property (js "requirementId")),
    ("capabilityReportId", .string capability.reportId),
    ("taskId", context.property (js "taskId")),
    ("executionId", context.property (js "executionId")),
    ("providerId", .string capability.providerId),
    ("providerVersion", .string capability.providerVersion),
    ("probeId", .string capability.probeId),
    ("selectedIsolationLevel", .string (js "PROCESS_RESTRICTED")),
    ("downgradeOccurred", .bool false), ("budgets", request.get (js "limits")),
    ("usage", usage host response), ("processTree", processTree response),
    ("guarantees", capability.guarantees), ("result", evidenceResult response),
    ("evidenceRefs", context.property (js "evidenceRefs")),
    ("startedAt", .string (DateTime.toISOString host.startedAt)),
    ("completedAt", .string (DateTime.toISOString host.completedAt))]

def createEvidence (host : EvidenceHost) (request : Props)
    (capability : IsolationCapabilityReport) (response : JsValue) : Except RequestError JsValue :=
  let rootProcessId := response.property (js "rootProcessId")
  if !rootProcessId.isDefined || belowOne rootProcessId ||
      !isNumber 0 (response.property (js "activeProcessCountAfterCompletion")) then
    .error (.refused (js "Win32 bridge did not return a closed, attributable process tree"))
  else .ok (namedRecord (evidenceMembers host request capability response))

end Aseos.Isolation
