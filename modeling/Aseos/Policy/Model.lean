import Aseos.Js.DateTime
import Aseos.Js.Value

namespace Aseos

-- The named members of an enumeration and the texts the source writes for them.
class Named (α : Type) where
  all : List α
  text : α → JsString
  mem_all : ∀ a, a ∈ all
  text_injective : ∀ a b, text a = text b → a = b

namespace Named

variable {α : Type} [Named α]

def parse (s : JsString) : Option α := (all : List α).find? (fun a => text a = s)

@[simp] theorem parse_text (a : α) : parse (text a) = some a := by
  unfold parse
  cases h : (all : List α).find? (fun b => decide (text b = text a)) with
  | none => simpa using List.find?_eq_none.mp h a (mem_all a)
  | some b => exact congrArg some (text_injective b a (by simpa using List.find?_some h))

end Named

namespace Policy

inductive DiagnosticCode where
  | INVALID_POLICY_VALUE
  | INVALID_POLICY_SET
  | INVALID_POLICY_RULE
  | INVALID_CONDITION
  | INVALID_REFERENCE
  | INVALID_REQUIREMENTS
  | INVALID_YAML
  | YAML_LIMIT_EXCEEDED
  deriving DecidableEq, Repr

structure PolicyFailure where
  code : DiagnosticCode
  path : JsString
  message : String
  deriving DecidableEq

def stableCode : Regex CodeUnit := Pattern.stableCode

def ruleIdPattern : Regex CodeUnit :=
  let lowerDigit := Regex.one fun c => c.isLower || c.isDigit
  Regex.all [.one CodeUnit.isLower, .star lowerDigit,
    .star (.seq (.text (js "-")) (.plus lowerDigit))]

def constantName : Regex CodeUnit :=
  .seq (.one CodeUnit.isUpper) (.star (.one fun c => c.isUpper || c.isDigit || c.isAny "_"))

def constantPrefix : JsString := js "constant."

def constantReference : Regex CodeUnit := .seq (.text constantPrefix) constantName

inductive IsolationLevel where
  | processRestricted
  | osSandboxed
  | containerIsolated
  | remoteIsolated
  deriving DecidableEq, Repr

instance : Named IsolationLevel where
  all := [.processRestricted, .osSandboxed, .containerIsolated, .remoteIsolated]
  text
    | .processRestricted => js "PROCESS_RESTRICTED"
    | .osSandboxed => js "OS_SANDBOXED"
    | .containerIsolated => js "CONTAINER_ISOLATED"
    | .remoteIsolated => js "REMOTE_ISOLATED"
  mem_all a := by cases a <;> decide
  text_injective a b := by cases a <;> cases b <;> decide

inductive RuleEffect where
  | allow
  | deny
  deriving DecidableEq, Repr

instance : Named RuleEffect where
  all := [.allow, .deny]
  text
    | .allow => js "ALLOW"
    | .deny => js "DENY"
  mem_all a := by cases a <;> decide
  text_injective a b := by cases a <;> cases b <;> decide

inductive SourceKind where
  | release
  | machine
  | user
  | workspace
  | node
  | workflow
  deriving DecidableEq, Repr

instance : Named SourceKind where
  all := [.release, .machine, .user, .workspace, .node, .workflow]
  text
    | .release => js "RELEASE"
    | .machine => js "MACHINE"
    | .user => js "USER"
    | .workspace => js "WORKSPACE"
    | .node => js "NODE"
    | .workflow => js "WORKFLOW"
  mem_all a := by cases a <;> decide
  text_injective a b := by cases a <;> cases b <;> decide

inductive GroupOperator where
  | all
  | any
  deriving DecidableEq, Repr

instance : Named GroupOperator where
  all := [.all, .any]
  text
    | .all => js "all"
    | .any => js "any"
  mem_all a := by cases a <;> decide
  text_injective a b := by cases a <;> cases b <;> decide

inductive LeafOperator where
  | eq
  | notEq
  | in
  | contains
  | lt
  | lte
  | gt
  | gte
  | exists
  | startsWith
  | setSubset
  | setIntersects
  deriving DecidableEq, Repr

instance : Named LeafOperator where
  all := [.eq, .notEq, .in, .contains, .lt, .lte, .gt, .gte, .exists, .startsWith, .setSubset,
    .setIntersects]
  text
    | .eq => js "eq"
    | .notEq => js "notEq"
    | .in => js "in"
    | .contains => js "contains"
    | .lt => js "lt"
    | .lte => js "lte"
    | .gt => js "gt"
    | .gte => js "gte"
    | .exists => js "exists"
    | .startsWith => js "startsWith"
    | .setSubset => js "setSubset"
    | .setIntersects => js "setIntersects"
  mem_all a := by cases a <;> decide
  text_injective a b := by cases a <;> cases b <;> decide

-- A string that `requiredString` accepts.
structure Text (pattern : Option (Regex CodeUnit)) (maxLength : Option ℕ) (minLength : ℕ) where
  value : JsString
  long : minLength ≤ value.length
  short : ∀ n ∈ maxLength, value.length ≤ n
  matching : ∀ r ∈ pattern, r.test value = true

structure PositiveInteger where
  number : Double
  positive : JsNumber.isPositiveSafeInteger (.finite number) = true

-- A hole of the source array, copied by the spread, is an undefined element after the strings.
structure StringSet where
  strings : List JsString
  holes : ℕ
  sorted : strings.Pairwise (· ≤ ·)
  nodup : strings.Nodup
  bounded : ∀ s ∈ strings, 1 ≤ s.length ∧ s.length ≤ 256
  holes_le : holes ≤ 1

structure PolicyRequirements where
  permissionScopes : Option StringSet
  minimumIsolationLevel : Option IsolationLevel
  timeoutMs : Option PositiveInteger
  maxConcurrency : Option PositiveInteger
  postVerificationRequired : Option Bool

-- `holes` counts the holes of the source array, which `map` keeps.
inductive PolicyCondition where
  | group (operator : GroupOperator) (conditions : List PolicyCondition) (holes : ℕ)
  | not (condition : PolicyCondition)
  | leaf (operator : LeafOperator) (reference : JsString) (operand : Option JsValue)

structure CompiledPolicyRule where
  ruleId : Text (some ruleIdPattern) (some 128) 1
  domain : Text none (some 64) 1
  subjectTypes : StringSet
  action : Text none (some 128) 1
  resourceTypes : StringSet
  when : PolicyCondition
  ruleEffect : RuleEffect
  requirements : PolicyRequirements
  reasonCode : Text (some stableCode) (some 128) 3
  metadata : Props

structure CompiledPolicySet where
  policySetId : Text (some Pattern.uuidV7) none 1
  version : Text (some Pattern.semver) none 1
  description : Text none (some 2048) 1
  sourceKind : SourceKind
  sourceRef : Text none (some 512) 1
  constants : Props
  rules : List CompiledPolicyRule
  holes : ℕ

def StringSet.toValue (s : StringSet) : JsValue :=
  .array (s.strings.map (fun s => (.data, .string s)) ++
    List.replicate s.holes (.data, .undefined)) []

def optional (key : String) (value : Option JsValue) : List (JsString × JsValue) :=
  (value.map (js key, ·)).toList

def PolicyRequirements.toValue (r : PolicyRequirements) : JsValue :=
  .record (optional "permissionScopes" (r.permissionScopes.map StringSet.toValue) ++
    optional "minimumIsolationLevel" (r.minimumIsolationLevel.map (.string ∘ Named.text)) ++
    optional "timeoutMs" (r.timeoutMs.map fun n => .number (.finite n.number)) ++
    optional "maxConcurrency" (r.maxConcurrency.map fun n => .number (.finite n.number)) ++
    optional "postVerificationRequired" (r.postVerificationRequired.map .bool))

namespace PolicyCondition

mutual

def toValue : PolicyCondition → JsValue
  | group operator conditions holes =>
      .record [(js "operator", .string (Named.text operator)),
        (js "conditions",
          .array (toSlots conditions ++ List.replicate holes (.hole, .undefined)) [])]
  | not condition =>
      .record [(js "operator", .string (js "not")), (js "condition", toValue condition)]
  | leaf operator reference operand =>
      .record ([(js "operator", .string (Named.text operator)),
        (js "reference", .string reference)] ++ optional "operand" operand)

def toSlots : List PolicyCondition → Slots
  | [] => []
  | c :: conditions => (.data, toValue c) :: toSlots conditions

end

end PolicyCondition

def CompiledPolicyRule.toValue (r : CompiledPolicyRule) : JsValue :=
  .record [(js "schemaVersion", .string (js "1.0.0")),
    (js "ruleId", .string r.ruleId.value),
    (js "domain", .string r.domain.value),
    (js "subjectSelector", .record [(js "subjectTypes", r.subjectTypes.toValue)]),
    (js "action", .string r.action.value),
    (js "resourceSelector", .record [(js "resourceTypes", r.resourceTypes.toValue)]),
    (js "when", r.when.toValue),
    (js "ruleEffect", .string (Named.text r.ruleEffect)),
    (js "requirements", r.requirements.toValue),
    (js "reasonCode", .string r.reasonCode.value),
    (js "metadata", .object true r.metadata)]

def CompiledPolicySet.toValue (s : CompiledPolicySet) : JsValue :=
  .record [(js "schemaVersion", .string (js "1.0.0")),
    (js "policySetId", .string s.policySetId.value),
    (js "version", .string s.version.value),
    (js "description", .string s.description.value),
    (js "source", .record [(js "kind", .string (Named.text s.sourceKind)),
      (js "ref", .string s.sourceRef.value)]),
    (js "defaultOutcome", .string (js "DENY")),
    (js "constants", .object true s.constants),
    (js "rules", .array (s.rules.map (fun r => (.data, r.toValue)) ++
      List.replicate s.holes (.data, .undefined)) [])]

end Policy

end Aseos
