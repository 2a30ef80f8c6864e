import Aseos.Contracts.JsonSchema
import Aseos.Contracts.Spread
import Aseos.Library.Outcome

namespace Aseos.Isolation

-- What the adapter takes from `node:path`, from the strings' locale-free case mapping and from
-- `instanceof Uint8Array`; then what it meets in values that are not of the declared types, and
-- that may run their own code: the text of one that is no string and whether its `length` is out
-- of bounds (none when the conversion throws), and the keys and members of one that is no record.
structure AdapterRuntime where
  isAbsolute : JsString → Bool
  normalize : JsString → JsString
  resolve : JsString → JsString → JsString
  relative : JsString → JsString → JsString
  join : JsString → JsString → JsString
  basename : JsString → JsString
  extname : JsString → JsString
  toLowerCase : JsString → JsString
  isBytes : JsValue → Bool
  coercedText : JsValue → Option JsString
  coercedLengthOutside : ℕ → ℕ → JsValue → Option Bool
  foreignKeys : JsValue → List JsString
  foreignMember : JsValue → JsString → JsValue

inductive RequestError where
  | refused (message : JsString)
  | typeError
  deriving DecidableEq

structure TrustedToolDescriptor where
  toolRef : JsString
  toolVersion : JsString
  canonicalExecutablePath : JsString
  executableSha256 : JsString

structure CanonicalPaths where
  canonicalExecutable : JsString
  canonicalStagingRoot : JsString
  deriving DecidableEq

namespace Pattern

open Regex

def isLowerDigit (c : CodeUnit) : Bool := c.isLower || c.isDigit

-- /^[a-z][a-z0-9]*(?:[._-][a-z0-9]+)*$/
def toolRef : Regex CodeUnit :=
  all [one CodeUnit.isLower, star (one isLowerDigit),
    star (seq (one (CodeUnit.isAny "._-")) (plus (one isLowerDigit)))]

-- /^[0-9]+\.[0-9]+\.[0-9]+(?:-[0-9A-Za-z.-]+)?(?:\+[0-9A-Za-z.-]+)?$/
def toolVersion : Regex CodeUnit :=
  let number := plus (one CodeUnit.isDigit)
  all [number, text (js "."), number, text (js "."), number,
    opt (seq (text (js "-")) Aseos.Pattern.versionTail),
    opt (seq (text (js "+")) Aseos.Pattern.versionTail)]

-- /^[A-Za-z_][A-Za-z0-9_()]*$/
def environmentName : Regex CodeUnit :=
  seq (one fun c => c.isUpper || c.isLower || c.isAny "_")
    (star (one fun c => c.isUpper || c.isLower || c.isDigit || c.isAny "_()"))

end Pattern

def deniedExecutableNames : List JsString :=
  [js "bash.exe", js "cmd.exe", js "cscript.exe", js "mshta.exe", js "node.exe",
    js "powershell.exe", js "pwsh.exe", js "python.exe", js "python3.exe", js "sh.exe",
    js "wscript.exe", js "wsl.exe"]

def deniedExecutableExtensions : List JsString :=
  [js ".bat", js ".cmd", js ".js", js ".ps1", js ".vbs", js ".wsf"]

def requestKeys : List JsString :=
  [js "argv", js "environment", js "environmentAllowlist", js "evidenceContext", js "inputs",
    js "limits", js "signal", js "stagingRoot", js "toolRef"]

def budgetKeys : List String :=
  ["maxCpuTimeMs", "maxMemoryBytes", "maxProcessCount", "maxStderrBytes", "maxStdoutBytes",
    "maxWallClockMs"]

def isRecordValue : JsValue → Bool
  | .object _ _ => true
  | _ => false

def isText : JsValue → Bool
  | .string _ => true
  | _ => false

-- Two lists of strings have the same JSON text when they are the same list.
def hasExactKeys (value : JsValue) (expected : List String) : Bool :=
  match value with
  | .object _ props => JsString.sort (Props.keys props) == JsString.sort (expected.map js)
  | _ => false

def everyText : JsValue → Bool
  | .array slots _ => (Slots.present slots).all isText
  | _ => false

-- `Number.isSafeInteger`, with the integer.
def safeInteger : JsValue → Option ℤ
  | .number (.finite x) => if x.isSafeInteger then some x.value.num else none
  | _ => none

def refuseWhen (condition : Bool) (message : JsString) : Except RequestError Unit :=
  if condition then .error (.refused message) else .ok ()

-- The text of a value that the check of the shape has left only a string or a hole.
def readText : JsValue → Except RequestError JsString
  | .string s => .ok s
  | _ => .error .typeError

section Shape

variable (runtime : AdapterRuntime)

def inputMatches (input : JsValue) : Bool :=
  isRecordValue input && hasExactKeys input ["content", "relativePath"] &&
    isText (input.property (js "relativePath")) &&
    (isText (input.property (js "content")) || runtime.isBytes (input.property (js "content")))

def optional (value : JsValue) (test : JsValue → Bool) : Bool :=
  match value with
  | .undefined => true
  | value => test value

def inputsMatch : JsValue → Bool
  | .array slots _ => (Slots.present slots).all (inputMatches runtime)
  | _ => false

def validateRequestShape (request : Props) : Except RequestError Unit := do
  refuseWhen (request.keys.any fun key => key ∉ requestKeys)
    (js "request contains an unknown or authority-injecting field")
  refuseWhen (!(isText (request.get (js "toolRef")) && isText (request.get (js "stagingRoot")) &&
      everyText (request.get (js "argv")) &&
      isRecordValue (request.get (js "limits")) &&
      hasExactKeys (request.get (js "limits")) budgetKeys &&
      isRecordValue (request.get (js "evidenceContext")) &&
      optional (request.get (js "environment")) isRecordValue &&
      optional (request.get (js "environmentAllowlist")) everyText &&
      optional (request.get (js "inputs")) (inputsMatch runtime)))
    (js "request does not match the exact WindowsProcessRestrictedRequest shape")

end Shape

section Limits

def validateBoundedInteger (name : String) (value : JsValue) : Except RequestError Unit :=
  refuseWhen (!(safeInteger value).any (0 < ·)) (js (name ++ " must be a positive safe integer"))

def validateLimits (limits : JsValue) : Except RequestError Unit := do
  let limit := fun name => limits.property (js name)
  validateBoundedInteger "maxCpuTimeMs" (limit "maxCpuTimeMs")
  validateBoundedInteger "maxMemoryBytes" (limit "maxMemoryBytes")
  validateBoundedInteger "maxProcessCount" (limit "maxProcessCount")
  validateBoundedInteger "maxWallClockMs" (limit "maxWallClockMs")
  refuseWhen (!(safeInteger (limit "maxStdoutBytes")).any (0 ≤ ·))
    (js "maxStdoutBytes must be a non-negative safe integer")
  refuseWhen (!(safeInteger (limit "maxStderrBytes")).any (0 ≤ ·))
    (js "maxStderrBytes must be a non-negative safe integer")
  refuseWhen ((safeInteger (limit "maxMemoryBytes")).any (· < 1048576))
    (js "maxMemoryBytes must be at least 1 MiB")
  refuseWhen ((safeInteger (limit "maxProcessCount")).any (256 < ·))
    (js "maxProcessCount must not exceed 256")
  refuseWhen ((safeInteger (limit "maxWallClockMs")).any (86400000 < ·))
    (js "maxWallClockMs must not exceed 86400000")

end Limits

section Context

variable (runtime : AdapterRuntime)

def orThrow {α : Type} : Option α → Except RequestError α
  | some a => .ok a
  | none => .error .typeError

-- `${value}`, which is also what `RegExp.prototype.test` looks at.
def toText : JsValue → Except RequestError JsString
  | .string s => .ok s
  | value => orThrow (runtime.coercedText value)

-- `value.length < least || value.length > most`
def lengthOutside (least most : ℕ) : JsValue → Except RequestError Bool
  | .string s => .ok (decide (s.length < least) || decide (most < s.length))
  | value => orThrow (runtime.coercedLengthOutside least most value)

-- `value ?? fallback`
def orElse (value fallback : JsValue) : JsValue :=
  match value with
  | .undefined | .null => fallback
  | value => value

-- No check asks whether a reference is a record.
def member (ref : JsValue) (name : String) : Except RequestError JsValue :=
  match ref with
  | .undefined | .null => .error .typeError
  | .object _ props => .ok (Props.get props (js name))
  | ref => .ok (runtime.foreignMember ref (js name))

def ownKeys : JsValue → List JsString
  | .object _ props => Props.keys props
  | ref => runtime.foreignKeys ref

def canonicalEvidenceRef (ref : JsValue) : Except RequestError JsString := do
  let subjectType ← toText runtime (← member runtime ref "subjectType")
  let subjectId ← toText runtime (← member runtime ref "subjectId")
  let subjectVersion ← toText runtime (orElse (← member runtime ref "subjectVersion") (.string []))
  return subjectType ++ 0 :: (subjectId ++ 0 :: subjectVersion)

def referenceKeys (subjectVersion : JsValue) : List String :=
  if subjectVersion.isDefined then ["subjectId", "subjectType", "subjectVersion"]
  else ["subjectId", "subjectType"]

def refusesReference (ref : JsValue) : Except RequestError Bool := do
  let subjectType ← member runtime ref "subjectType"
  let subjectId ← member runtime ref "subjectId"
  let subjectVersion ← member runtime ref "subjectVersion"
  [.ok (JsString.sort (ownKeys runtime ref) !=
      JsString.sort ((referenceKeys subjectVersion).map js)),
    do return !Aseos.Pattern.canonicalTypeName.test (← toText runtime subjectType),
    lengthOutside runtime 1 256 subjectId,
    if subjectVersion.isDefined then lengthOutside runtime 1 128 subjectVersion
    else .ok false].anyM id

def refusesId (context : JsValue) (name : String) : Except RequestError Bool := do
  return !Aseos.Pattern.uuidV7.test (← toText runtime (context.property (js name)))

def arraySlots : JsValue → Except RequestError Slots
  | .array slots _ => .ok slots
  | _ => .error .typeError

-- `map` and `some` pass over the holes of `evidenceRefs`; to the set they are one more element.
def validateEvidenceContext (context : JsValue) : Except RequestError Unit := do
  let slots ← arraySlots (context.property (js "evidenceRefs"))
  let refs := Slots.present slots
  let canonicalEvidenceRefs ← refs.mapM (canonicalEvidenceRef runtime)
  let refused ← [
    .ok (!hasExactKeys context ["evidenceRefs", "executionId", "requirementId", "taskId"]),
    refusesId runtime context "requirementId", refusesId runtime context "taskId",
    refusesId runtime context "executionId", .ok slots.isEmpty,
    .ok (!(decide canonicalEvidenceRefs.Nodup && decide (Slots.holes slots ≤ 1))),
    refs.anyM (refusesReference runtime)].anyM id
  refuseWhen refused
    (js "evidenceContext does not satisfy canonical IsolationEvidence identifiers")

end Context

variable (runtime : AdapterRuntime)

def validateArgument (argument : JsValue) : Except RequestError Unit := do
  let text ← readText argument
  refuseWhen (text.elem 0) (js "argv must not contain NUL characters")

def isNulText : JsValue → Bool
  | .string s => s == [0]
  | _ => false

-- `value.includes("\0")`, a method of strings, of arrays and of the numbers of a byte array.
def includesNul (value : JsValue) : Except RequestError Bool :=
  match value with
  | .string s => .ok (s.elem 0)
  | .array slots _ => .ok (slots.any fun slot => isNulText (Slots.value slot))
  | value => if runtime.isBytes value then .ok false else .error .typeError

def validateEnvironmentEntry (entry : JsString × JsValue) : Except RequestError Unit := do
  refuseWhen (← [.ok (!Pattern.environmentName.test entry.1), includesNul runtime entry.2].anyM id)
    (js "invalid environment entry: " ++ entry.1)

def environmentEntries : JsValue → List (JsString × JsValue)
  | .object _ props => Props.entries props
  | _ => []

-- `prepared` is what resolving the paths, hashing the executable and making the staging root
-- come to.
def validateRequest (request : Props) (tool : TrustedToolDescriptor)
    (prepared : Except RequestError CanonicalPaths) : Except RequestError CanonicalPaths := do
  validateRequestShape runtime request
  refuseWhen (!runtime.isAbsolute tool.canonicalExecutablePath ||
      tool.canonicalExecutablePath.elem 0)
    (js "executable must be an absolute path without NUL characters")
  let stagingRoot ← readText (request.get (js "stagingRoot"))
  refuseWhen (!runtime.isAbsolute stagingRoot) (js "stagingRoot must be absolute")
  let toolRef ← readText (request.get (js "toolRef"))
  refuseWhen (!Pattern.toolRef.test toolRef) (js "toolRef is not canonical")
  refuseWhen (tool.toolRef != toolRef || !Pattern.toolVersion.test tool.toolVersion ||
      !Aseos.Pattern.sha256.test tool.executableSha256)
    (js "trusted catalog descriptor is malformed or does not bind the requested toolRef")
  let executableName := runtime.toLowerCase (runtime.basename tool.canonicalExecutablePath)
  refuseWhen (executableName ∈ deniedExecutableNames ||
      runtime.extname executableName ∈ deniedExecutableExtensions)
    (js "shell or script interpreter executable is forbidden: " ++ executableName)
  let arguments ← arraySlots (request.get (js "argv"))
  (arguments.map Slots.value).forM validateArgument
  (environmentEntries (request.get (js "environment"))).forM (validateEnvironmentEntry runtime)
  validateLimits (request.get (js "limits"))
  validateEvidenceContext runtime (request.get (js "evidenceContext"))
  prepared

section Accepted

variable {runtime} {request : Props} {tool : TrustedToolDescriptor}
  {prepared : Except RequestError CanonicalPaths} {paths : CanonicalPaths}

theorem refuseWhen_eq_ok {condition : Bool} {message : JsString} {result : Unit} :
    refuseWhen condition message = .ok result ↔ condition = false := by
  cases condition <;> simp [refuseWhen]

structure Validated (runtime : AdapterRuntime) (request : Props) (paths : CanonicalPaths)
    (prepared : Except RequestError CanonicalPaths) : Prop where
  shape : validateRequestShape runtime request = .ok ()
  limits : validateLimits (request.get (js "limits")) = .ok ()
  evidenceContext : validateEvidenceContext runtime (request.get (js "evidenceContext")) = .ok ()
  paths : prepared = .ok paths

theorem validateRequest_validated
    (h : validateRequest runtime request tool prepared = .ok paths) :
    Validated runtime request paths prepared := by
  simp only [validateRequest, Except.bind_eq_ok] at h
  obtain ⟨_, hshape, _, -, _, -, _, -, _, -, _, -, _, -, _, -, _, -, _, -, _, -, _, hlimits, _,
    hcontext, hpaths⟩ := h
  exact ⟨hshape, hlimits, hcontext, hpaths⟩

structure RequestedLimits where
  cpuTime : ℤ
  memory : ℤ
  processCount : ℤ
  wallClock : ℤ
  stdout : ℤ
  stderr : ℤ

structure AdmittedLimits (limits : JsValue) (r : RequestedLimits) : Prop where
  cpuTime : safeInteger (limits.property (js "maxCpuTimeMs")) = some r.cpuTime
  memory : safeInteger (limits.property (js "maxMemoryBytes")) = some r.memory
  processCount : safeInteger (limits.property (js "maxProcessCount")) = some r.processCount
  wallClock : safeInteger (limits.property (js "maxWallClockMs")) = some r.wallClock
  stdout : safeInteger (limits.property (js "maxStdoutBytes")) = some r.stdout
  stderr : safeInteger (limits.property (js "maxStderrBytes")) = some r.stderr
  cpuTime_pos : 1 ≤ r.cpuTime
  memory_least : 1048576 ≤ r.memory
  processCount_range : 1 ≤ r.processCount ∧ r.processCount ≤ 256
  wallClock_range : 1 ≤ r.wallClock ∧ r.wallClock ≤ 86400000
  stdout_nonneg : 0 ≤ r.stdout
  stderr_nonneg : 0 ≤ r.stderr

theorem any_eq_some {o : Option ℤ} {p : ℤ → Bool} (h : (!o.any p) = false) :
    ∃ n, o = some n ∧ p n = true := by
  rw [Bool.not_eq_false'] at h
  exact Option.any_eq_true _ _ |>.mp h

theorem validateLimits_admitted {limits : JsValue} (h : validateLimits limits = .ok ()) :
    ∃ r, AdmittedLimits limits r := by
  simp only [validateLimits, validateBoundedInteger, Except.bind_eq_ok, refuseWhen_eq_ok] at h
  obtain ⟨_, hcpu, _, hmemory, _, hcount, _, hwall, _, hout, _, herr, _, hmemory', _, hcount',
    hwall'⟩ := h
  obtain ⟨cpuTime, hcpu, hcpu₀⟩ := any_eq_some hcpu
  obtain ⟨memory, hmemory, hmemory₀⟩ := any_eq_some hmemory
  obtain ⟨processCount, hcount, hcount₀⟩ := any_eq_some hcount
  obtain ⟨wallClock, hwall, hwall₀⟩ := any_eq_some hwall
  obtain ⟨stdout, hout, hout₀⟩ := any_eq_some hout
  obtain ⟨stderr, herr, herr₀⟩ := any_eq_some herr
  rw [hmemory, Option.any_some, decide_eq_false_iff_not] at hmemory'
  rw [hcount, Option.any_some, decide_eq_false_iff_not] at hcount'
  rw [hwall, Option.any_some, decide_eq_false_iff_not] at hwall'
  rw [decide_eq_true_eq] at hcpu₀ hmemory₀ hcount₀ hwall₀ hout₀ herr₀
  exact ⟨⟨cpuTime, memory, processCount, wallClock, stdout, stderr⟩, hcpu, hmemory, hcount, hwall,
    hout, herr, hcpu₀, Int.not_lt.mp hmemory', ⟨hcount₀, Int.not_lt.mp hcount'⟩,
    ⟨hwall₀, Int.not_lt.mp hwall'⟩, hout₀, herr₀⟩

end Accepted

end Aseos.Isolation
