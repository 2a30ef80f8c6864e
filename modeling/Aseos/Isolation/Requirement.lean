import Aseos.Isolation.Request

namespace Aseos.Isolation

def supportedFeatures : List JsString :=
  [js "JOB_OBJECT_KILL_ON_CLOSE", js "PROCESS_TREE_CONTAINMENT", js "CPU_LIMIT",
    js "MEMORY_LIMIT", js "PROCESS_COUNT_LIMIT", js "WALL_CLOCK_LIMIT", js "OUTPUT_LIMIT",
    js "ENVIRONMENT_ALLOWLIST", js "EXPLICIT_EXECUTABLE_AND_ARGV", js "STAGED_WORKING_DIRECTORY",
    js "CLOSED_STDIN", js "CONTROLLED_STANDARD_HANDLES", js "NO_SECRET_INHERITANCE"]

def requirementKeys : List String :=
  ["budgets", "capabilityId", "downgradeAllowed", "minimumIsolationLevel",
    "requiredProviderFeatures", "requirementId", "schemaVersion"]

def isolationLevels : List JsString :=
  [js "PROCESS_RESTRICTED", js "OS_SANDBOXED", js "CONTAINER_ISOLATED", js "REMOTE_ISOLATED"]

def maximumSafeInteger : ℤ := 9007199254740991

def isSafeIntegerBetween (value : JsValue) (minimum : ℤ) (maximum : ℤ := maximumSafeInteger) :
    Bool :=
  (safeInteger value).any fun n => minimum ≤ n && n ≤ maximum

def textIn (value : JsValue) (test : JsString → Bool) : Bool :=
  match value with
  | .string s => test s
  | _ => false

-- A hole is not visited by `every`, and undefined in the set.
def featuresSupported : JsValue → Bool
  | .array slots _ =>
      !slots.isEmpty && (Slots.present slots).all isText &&
        decide (slots.map fun slot => (Slots.value slot).isString).Nodup &&
        (Slots.present slots).all fun feature => textIn feature (· ∈ supportedFeatures)
  | _ => false

def isCanonicalRequirement (request : JsValue) : Bool :=
  let evidenceContext := request.property (js "evidenceContext")
  let requirement := request.property (js "isolationRequirement")
  let budgets := requirement.property (js "budgets")
  isRecordValue request && isRecordValue evidenceContext && isRecordValue requirement &&
    isRecordValue budgets && hasExactKeys requirement requirementKeys &&
    hasExactKeys budgets budgetKeys &&
    textIn (requirement.property (js "schemaVersion")) (· = js "1.0.0") &&
    textIn (requirement.property (js "requirementId")) (fun id =>
      Aseos.Pattern.uuidV7.test id &&
        textIn (evidenceContext.property (js "requirementId")) (id = ·)) &&
    textIn (requirement.property (js "capabilityId")) (· = js "windows-process-restricted") &&
    textIn (requirement.property (js "minimumIsolationLevel")) (· ∈ isolationLevels) &&
    featuresSupported (requirement.property (js "requiredProviderFeatures")) &&
    (requirement.property (js "downgradeAllowed")).isBool == some false &&
    isSafeIntegerBetween (budgets.property (js "maxCpuTimeMs")) 1 &&
    isSafeIntegerBetween (budgets.property (js "maxMemoryBytes")) 1048576 &&
    isSafeIntegerBetween (budgets.property (js "maxProcessCount")) 1 256 &&
    isSafeIntegerBetween (budgets.property (js "maxWallClockMs")) 1 86400000 &&
    isSafeIntegerBetween (budgets.property (js "maxStdoutBytes")) 0 &&
    isSafeIntegerBetween (budgets.property (js "maxStderrBytes")) 0

def optionalMember (request : JsValue) (key : String) : List (JsString × JsValue) :=
  match request.property (js key) with
  | .undefined => []
  | value => [(js key, value)]

-- The request that executeRestrictedWorkerTask makes of its own.
def adapterRequest (request : JsValue) : Props :=
  ([(js "toolRef", request.property (js "toolRef")), (js "argv", request.property (js "argv")),
    (js "stagingRoot", request.property (js "stagingRoot")),
    (js "limits", (request.property (js "isolationRequirement")).property (js "budgets")),
    (js "evidenceContext", request.property (js "evidenceContext"))] ++
    optionalMember request "inputs" ++ optionalMember request "environment" ++
    optionalMember request "environmentAllowlist" ++ optionalMember request "signal").map
      fun member => (Field.own member.1, member.2)

end Aseos.Isolation
