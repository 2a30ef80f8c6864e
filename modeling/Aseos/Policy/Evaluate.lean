import Aseos.Policy.Compile

namespace Aseos.Policy

inductive RiskClass where
  | R0
  | R1
  | R2
  | R3
  | R4
  deriving DecidableEq, Repr

instance : Named RiskClass where
  all := [.R0, .R1, .R2, .R3, .R4]
  text
    | .R0 => js "R0"
    | .R1 => js "R1"
    | .R2 => js "R2"
    | .R3 => js "R3"
    | .R4 => js "R4"
  mem_all a := by cases a <;> decide
  text_injective a b := by cases a <;> cases b <;> decide

inductive DataClassification where
  | PUBLIC
  | INTERNAL
  | CONFIDENTIAL
  | SECRET
  deriving DecidableEq, Repr

instance : Named DataClassification where
  all := [.PUBLIC, .INTERNAL, .CONFIDENTIAL, .SECRET]
  text
    | .PUBLIC => js "PUBLIC"
    | .INTERNAL => js "INTERNAL"
    | .CONFIDENTIAL => js "CONFIDENTIAL"
    | .SECRET => js "SECRET"
  mem_all a := by cases a <;> decide
  text_injective a b := by cases a <;> cases b <;> decide

inductive Direction where
  | LOCAL
  | INBOUND
  | OUTBOUND
  deriving DecidableEq, Repr

instance : Named Direction where
  all := [.LOCAL, .INBOUND, .OUTBOUND]
  text
    | .LOCAL => js "LOCAL"
    | .INBOUND => js "INBOUND"
    | .OUTBOUND => js "OUTBOUND"
  mem_all a := by cases a <;> decide
  text_injective a b := by cases a <;> cases b <;> decide

inductive Outcome where
  | allow
  | allowWithRequirements
  | deny
  | indeterminate
  deriving DecidableEq, Repr

instance : Named Outcome where
  all := [.allow, .allowWithRequirements, .deny, .indeterminate]
  text
    | .allow => js "ALLOW"
    | .allowWithRequirements => js "ALLOW_WITH_REQUIREMENTS"
    | .deny => js "DENY"
    | .indeterminate => js "INDETERMINATE"
  mem_all a := by cases a <;> decide
  text_injective a b := by cases a <;> cases b <;> decide

structure PolicyEvaluationInput where
  evaluationId : JsString
  capturedAt : JsString
  policySnapshotId : JsString
  domain : JsString
  subjectType : JsString
  action : JsString
  resourceType : JsString
  riskClass : RiskClass
  dataClassification : DataClassification
  direction : Direction
  authorityMutation : Bool
  controlVerified : Bool
  permissionScopes : JsValue
  capabilityIds : JsValue

def isRfc3339DateTime (value : JsString) : Bool :=
  (DateTime.rfc3339DateTime value).any DateTime.calendarValid

def hasExactKeys (props : Props) (allowed : List String) : Bool :=
  props.ownKeys.length == allowed.length &&
    props.ownKeys.all (fun key => key ∈ allowed.map (fun name => PropertyKey.text (js name)))

def isBoundedString (value : JsValue) (minLength maxLength : ℕ) : Option JsString :=
  value.isString.filter (fun s => minLength ≤ s.length && s.length ≤ maxLength)

def matchingString (value : JsValue) (test : JsString → Bool) : Option JsString :=
  value.isString.filter test

def validateInput (value : JsValue) : Option PolicyEvaluationInput := do
  let props ← value.isRecord
  guard (hasExactKeys props ["schemaVersion", "evaluationId", "capturedAt", "policySnapshotId",
    "domain", "subjectType", "action", "resourceType", "riskClass", "dataClassification",
    "direction", "authorityMutation", "controlVerified", "permissionScopes", "capabilityIds"])
  guard ((props.get (js "schemaVersion")).isString = some (js "1.0.0"))
  let evaluationId ← matchingString (props.get (js "evaluationId")) Pattern.uuidV7.test
  let capturedAt ← matchingString (props.get (js "capturedAt")) isRfc3339DateTime
  let policySnapshotId ← matchingString (props.get (js "policySnapshotId")) Pattern.uuidV7.test
  let domain ← isBoundedString (props.get (js "domain")) 1 64
  let subjectType ← isBoundedString (props.get (js "subjectType")) 1 128
  let action ← isBoundedString (props.get (js "action")) 1 128
  let resourceType ← isBoundedString (props.get (js "resourceType")) 1 128
  let riskClass ← (props.get (js "riskClass")).isString.bind Named.parse
  let dataClassification ← (props.get (js "dataClassification")).isString.bind Named.parse
  let direction ← (props.get (js "direction")).isString.bind Named.parse
  let authorityMutation ← (props.get (js "authorityMutation")).isBool
  let controlVerified ← (props.get (js "controlVerified")).isBool
  let _ ← isUniqueBoundedStringArray (props.get (js "permissionScopes")) 256
  let _ ← isUniqueBoundedStringArray (props.get (js "capabilityIds")) 256
  return ⟨evaluationId, capturedAt, policySnapshotId, domain, subjectType, action, resourceType,
    riskClass, dataClassification, direction, authorityMutation, controlVerified,
    props.get (js "permissionScopes"), props.get (js "capabilityIds")⟩

def validateSnapshot (props : Props) (input : PolicyEvaluationInput)
    (compiledPolicySet : CompiledPolicySet) (compiledHash : HexDigest) : Bool :=
  let is (key : String) (test : JsString → Bool) : Bool :=
    ((props.get (js key)).isString).any test
  hasExactKeys props ["schemaVersion", "snapshotId", "policySetId", "policyVersion",
      "policyHash", "compiledPolicySet", "compilerVersion", "createdAt"] &&
    is "schemaVersion" (· = js "1.0.0") &&
    is "snapshotId" (fun s => Pattern.uuidV7.test s && s = input.policySnapshotId) &&
    is "policySetId" (fun s => Pattern.uuidV7.test s && s = compiledPolicySet.policySetId.value) &&
    is "policyVersion" (fun s => Pattern.semver.test s && s = compiledPolicySet.version.value) &&
    is "policyHash" (fun s => Pattern.sha256.test s && s = compiledHash.text) &&
    is "compilerVersion" Pattern.semver.test &&
    is "createdAt" isRfc3339DateTime

def referencedValue (input : PolicyEvaluationInput) (reference : JsString) : JsValue :=
  if reference = js "input.action" then .string input.action
  else if reference = js "input.domain" then .string input.domain
  else if reference = js "input.subjectType" then .string input.subjectType
  else if reference = js "input.resourceType" then .string input.resourceType
  else if reference = js "input.riskClass" then .string (Named.text input.riskClass)
  else if reference = js "input.dataClassification" then
    .string (Named.text input.dataClassification)
  else if reference = js "input.direction" then .string (Named.text input.direction)
  else if reference = js "input.authorityMutation" then .bool input.authorityMutation
  else if reference = js "input.controlVerified" then .bool input.controlVerified
  else if reference = js "input.permissionScopes" then input.permissionScopes
  else if reference = js "input.capabilityIds" then input.capabilityIds
  else .undefined

def actualValue (input : PolicyEvaluationInput) (constants : Props) (reference : JsString) :
    JsValue :=
  match constantKey reference with
  | some key => constants.get key
  | none => referencedValue input reference

inductive JsonType where
  | undefined
  | null
  | boolean
  | number
  | string
  | array
  | object
  deriving DecidableEq

-- `typeof`, with null and arrays told apart from the other objects.
def jsonType : JsValue → JsonType
  | .null => .null
  | .bool _ => .boolean
  | .number _ => .number
  | .string _ => .string
  | .array _ _ => .array
  | .object _ _ => .object
  | _ => .undefined

def sameJsonType (left right : JsValue) : Bool :=
  jsonType left != .undefined && jsonType right != .undefined && jsonType left == jsonType right

-- Both sides are parts of values that have been canonicalised, so neither text is an error.
def equalJson (host : Host) (left right : JsValue) : Bool :=
  match canonicalJson host left, canonicalJson host right with
  | .ok l, .ok r => l == r
  | _, _ => false

structure ConditionResult where
  ok : Bool
  matched : Bool
  deriving DecidableEq, Repr

def ConditionResult.mismatch : ConditionResult := ⟨false, false⟩

def ConditionResult.typed (matched : Bool) : ConditionResult := ⟨true, matched⟩

def comparison : LeafOperator → JsNumber → JsNumber → Bool
  | .lt, a, b => a.lt b
  | .lte, a, b => a.le b
  | .gt, a, b => b.lt a
  | _, a, b => b.le a

def evaluateLeaf (host : Host) (operator : LeafOperator) (actual : JsValue)
    (expected : Option JsValue) : ConditionResult :=
  let expected := expected.getD .undefined
  match operator with
  | .exists => .typed true
  | .eq => if sameJsonType actual expected then .typed (equalJson host actual expected) else .mismatch
  | .notEq =>
      if sameJsonType actual expected then .typed (!equalJson host actual expected) else .mismatch
  | .in =>
      match expected with
      | .array slots _ => .typed ((Slots.present slots).any (equalJson host actual))
      | _ => .mismatch
  | .contains =>
      match actual, expected with
      | .string s, .string part => .typed (JsString.includes s part)
      | .array slots _, _ => .typed ((Slots.present slots).any (equalJson host · expected))
      | _, _ => .mismatch
  | .lt | .lte | .gt | .gte =>
      match actual, expected with
      | .number a, .number b => .typed (comparison operator a b)
      | _, _ => .mismatch
  | .startsWith =>
      match actual, expected with
      | .string s, .string start => .typed (start.isPrefixOf s)
      | _, _ => .mismatch
  | .setSubset =>
      match actual, expected with
      | .array slots _, .array other _ =>
          .typed ((Slots.present slots).all fun item =>
            (Slots.present other).any (equalJson host item))
      | _, _ => .mismatch
  | .setIntersects =>
      match actual, expected with
      | .array slots _, .array other _ =>
          .typed ((Slots.present slots).any fun item =>
            (Slots.present other).any (equalJson host item))
      | _, _ => .mismatch

section Conditions

variable (host : Host) (input : PolicyEvaluationInput) (constants : Props)

mutual

def evaluateCondition : PolicyCondition → ConditionResult
  | .group operator conditions _ =>
      let results := evaluateConditions conditions
      if results.any (fun result => !result.ok) then .mismatch
      else
        .typed (match operator with
          | .all => results.all ConditionResult.matched
          | .any => results.any ConditionResult.matched)
  | .not condition =>
      let result := evaluateCondition condition
      ⟨result.ok, result.ok && !result.matched⟩
  | .leaf operator reference operand =>
      match actualValue input constants reference with
      | .undefined => .mismatch
      | actual => evaluateLeaf host operator actual operand

def evaluateConditions : List PolicyCondition → List ConditionResult
  | [] => []
  | c :: conditions => evaluateCondition c :: evaluateConditions conditions

end

end Conditions

def hardInvariantViolations (input : PolicyEvaluationInput) : List JsString :=
  JsString.sort
    ((if input.authorityMutation then [js "NO_DIRECT_AUTHORITY_WRITE"] else []) ++
      (if input.riskClass = .R4 ∧ input.controlVerified = false then
        [js "R4_REQUIRES_VERIFIED_CONTROL"] else []) ++
      (if input.dataClassification = .SECRET ∧ input.direction = .OUTBOUND then
        [js "NO_SECRET_OUTBOUND"] else []))

def addString (set : List JsString) (s : JsString) : List JsString :=
  if s ∈ set then set else set ++ [s]

theorem mem_addString {set : List JsString} {s t : JsString} :
    t ∈ addString set s ↔ t ∈ set ∨ t = s := by
  unfold addString
  split
  · rename_i hs
    constructor
    · exact .inl
    · rintro (ht | rfl)
      · exact ht
      · exact hs
  · simp

theorem nodup_addString {set : List JsString} (h : set.Nodup) (s : JsString) :
    (addString set s).Nodup := by
  unfold addString
  split
  · exact h
  · rename_i hs
    refine List.nodup_append.mpr ⟨h, by simp, ?_⟩
    rintro a ha b hb rfl
    exact hs (List.mem_singleton.mp hb ▸ ha)

def addStrings (set : List JsString) (more : List JsString) : List JsString :=
  more.foldl addString set

theorem mem_addStrings {set more : List JsString} {t : JsString} :
    t ∈ addStrings set more ↔ t ∈ set ∨ t ∈ more := by
  unfold addStrings
  induction more generalizing set with
  | nil => simp
  | cons s more ih => simp [ih, mem_addString, or_assoc]

theorem nodup_addStrings {set : List JsString} (h : set.Nodup) (more : List JsString) :
    (addStrings set more).Nodup := by
  unfold addStrings
  induction more generalizing set with
  | nil => exact h
  | cons s more ih => exact ih (nodup_addString h s)

def UniqueStrings.union (u : UniqueStrings 256) (s : StringSet) : UniqueStrings 256 where
  strings := addStrings u.strings s.strings
  holes := max u.holes s.holes
  nodup := nodup_addStrings u.nodup s.strings
  bounded t ht := (mem_addStrings.mp ht).elim (u.bounded t) (s.bounded t)
  holes_le := max_le u.holes_le s.holes_le

structure Merge where
  permissionScopes : UniqueStrings 256
  isolation : Option IsolationLevel
  timeoutMs : Option PositiveInteger
  maxConcurrency : Option PositiveInteger
  postVerificationRequired : Bool

def Merge.empty : Merge :=
  ⟨⟨[], 0, .nil, by simp, by simp⟩, none, none, none, false⟩

-- `none` is the conflict of two levels of which neither is PROCESS_RESTRICTED.
def mergeIsolation (isolation candidate : Option IsolationLevel) :
    Option (Option IsolationLevel) :=
  match candidate with
  | none => some isolation
  | some candidate =>
      match isolation with
      | none | some .processRestricted => some (some candidate)
      | some level =>
          if candidate ≠ .processRestricted ∧ candidate ≠ level then none else some (some level)

-- `Math.min`
def PositiveInteger.min (a b : PositiveInteger) : PositiveInteger :=
  if b.number.value < a.number.value then b else a

def mergeMinimum (current candidate : Option PositiveInteger) : Option PositiveInteger :=
  match current, candidate with
  | current, none => current
  | none, some candidate => some candidate
  | some current, some candidate => some (current.min candidate)

def Merge.add (m : Merge) (requirement : PolicyRequirements) : Option Merge := do
  let isolation ← mergeIsolation m.isolation requirement.minimumIsolationLevel
  return {
    permissionScopes := match requirement.permissionScopes with
      | none => m.permissionScopes
      | some scopes => m.permissionScopes.union scopes
    isolation := isolation
    timeoutMs := mergeMinimum m.timeoutMs requirement.timeoutMs
    maxConcurrency := mergeMinimum m.maxConcurrency requirement.maxConcurrency
    postVerificationRequired :=
      m.postVerificationRequired || requirement.postVerificationRequired == some true }

def Merge.value (m : Merge) : PolicyRequirements where
  permissionScopes :=
    if m.permissionScopes.strings.length + m.permissionScopes.holes > 0 then
      some m.permissionScopes.sort
    else none
  minimumIsolationLevel := m.isolation
  timeoutMs := m.timeoutMs
  maxConcurrency := m.maxConcurrency
  postVerificationRequired := if m.postVerificationRequired then some true else none

def mergeRequirements (requirements : List PolicyRequirements) : Option PolicyRequirements :=
  (requirements.foldlM Merge.add Merge.empty).map Merge.value

-- `Object.keys(value).length > 0`
def PolicyRequirements.nonEmpty (r : PolicyRequirements) : Bool :=
  r.permissionScopes.isSome || r.minimumIsolationLevel.isSome || r.timeoutMs.isSome ||
    r.maxConcurrency.isSome || r.postVerificationRequired.isSome

structure PolicyDecision where
  decisionId : JsString
  outcome : Outcome
  policySnapshotId : JsString
  policySnapshotHash : JsString
  inputHash : HexDigest
  matchedRuleIds : List JsString
  hardInvariantIds : List JsString
  requirements : PolicyRequirements
  reasonCodes : List JsString
  evaluatedAt : JsString

def policyEvaluatorVersion : JsString := js "0.1.0"

def fallbackId : JsString := js "00000000-0000-7000-8000-000000000000"

def fallbackTime : JsString := js "1970-01-01T00:00:00.000Z"

def fallbackHash : JsString := List.replicate 64 48

def stringOr (value : JsValue) (test : JsString → Bool) (fallback : JsString) : JsString :=
  (matchingString value test).getD fallback

def createDecision (snapshot input : Props) (outcome : Outcome)
    (matchedRuleIds invariantIds : List JsString) (requirements : PolicyRequirements)
    (reasonCodes : List JsString) (inputHash : HexDigest) : PolicyDecision where
  decisionId := stringOr (input.get (js "evaluationId")) Pattern.uuidV7.test fallbackId
  outcome := outcome
  policySnapshotId := stringOr (snapshot.get (js "snapshotId")) Pattern.uuidV7.test fallbackId
  policySnapshotHash := stringOr (snapshot.get (js "policyHash")) Pattern.sha256.test fallbackHash
  inputHash := inputHash
  matchedRuleIds := JsString.sort matchedRuleIds
  hardInvariantIds := JsString.sort invariantIds
  requirements := requirements
  reasonCodes := JsString.sort (addStrings [] reasonCodes)
  evaluatedAt := stringOr (input.get (js "capturedAt")) isRfc3339DateTime fallbackTime

def PolicyRequirements.none : PolicyRequirements := ⟨.none, .none, .none, .none, .none⟩

def selects (rule : CompiledPolicyRule) (input : PolicyEvaluationInput) : Bool :=
  rule.domain.value == input.domain && rule.action.value == input.action &&
    rule.subjectTypes.strings.elem input.subjectType &&
    rule.resourceTypes.strings.elem input.resourceType

-- The loop over the rules: the matched ones, or those matched before the first ill-typed one.
def matchRules (host : Host) (input : PolicyEvaluationInput) (constants : Props) :
    List CompiledPolicyRule → List CompiledPolicyRule →
      Except (List CompiledPolicyRule) (List CompiledPolicyRule)
  | [], matched => .ok matched
  | rule :: rules, matched =>
      if selects rule input then
        let result := evaluateCondition host input constants rule.when
        if !result.ok then .error matched
        else if result.matched then matchRules host input constants rules (matched ++ [rule])
        else matchRules host input constants rules matched
      else matchRules host input constants rules matched

def ruleIds (rules : List CompiledPolicyRule) : List JsString :=
  rules.map fun rule => rule.ruleId.value

def evaluateRules (host : Host) (snapshot inputProps : Props) (input : PolicyEvaluationInput)
    (compiled : CompiledPolicySet) (inputHash : HexDigest) : PolicyDecision :=
  let decide := createDecision snapshot inputProps
  match matchRules host input compiled.constants compiled.rules [] with
  | .error matched =>
      decide .indeterminate (ruleIds matched) [] .none [js "CONDITION_TYPE_MISMATCH"] inputHash
  | .ok matched =>
      let denied := matched.filter fun rule => rule.ruleEffect = .deny
      let allowed := matched.filter fun rule => rule.ruleEffect = .allow
      if denied.length > 0 then
        decide .deny (ruleIds matched) [] .none (denied.map fun rule => rule.reasonCode.value)
          inputHash
      else if allowed.length = 0 then
        decide .deny [] [] .none [js "DEFAULT_DENY"] inputHash
      else
        match mergeRequirements (allowed.map CompiledPolicyRule.requirements) with
        | none =>
            decide .indeterminate (ruleIds allowed) [] .none [js "REQUIREMENTS_CONFLICT"] inputHash
        | some merged =>
            decide (if merged.nonEmpty then .allowWithRequirements else .allow) (ruleIds allowed)
              [] merged [] inputHash

-- `canonicalJsonSha256({ invalidInput: true })`
def invalidInputHash (host : Host) : HexDigest :=
  host.sha256 (js "\x7b\"invalidInput\":true\x7d")

def evaluateValid (host : Host) (snapshotValue inputValue : JsValue) (snapshot inputProps : Props)
    (inputHash : HexDigest) : PolicyDecision :=
  let decide := createDecision snapshot inputProps
  match validateInput inputValue, snapshotValue.isRecord with
  | some input, some props =>
      match compilePolicySet host (props.get (js "compiledPolicySet")) with
      | .error _ =>
          decide .indeterminate [] [] .none [js "INVALID_POLICY_SNAPSHOT"] inputHash
      | .ok compiled =>
          if !validateSnapshot props input compiled.value compiled.sha256 then
            decide .indeterminate [] [] .none [js "INVALID_POLICY_SNAPSHOT"] inputHash
          else if (hardInvariantViolations input).length > 0 then
            decide .deny [] (hardInvariantViolations input) .none
              [js "HARD_INVARIANT_VIOLATION"] inputHash
          else evaluateRules host snapshot inputProps input compiled.value inputHash
  | _, _ => decide .indeterminate [] [] .none [js "INVALID_EVALUATION_INPUT"] inputHash

def evaluatePolicy (host : Host) (snapshotValue inputValue : JsValue) : PolicyDecision :=
  match assertPolicyJson snapshotValue (js "$/snapshot"),
      assertPolicyJson inputValue (js "$/input") with
  | .ok _, .ok _ =>
      let snapshot := snapshotValue.isRecord.getD []
      let input := inputValue.isRecord.getD []
      match hashPolicyValue host inputValue with
      | .ok inputHash => evaluateValid host snapshotValue inputValue snapshot input inputHash
      | .error _ =>
          createDecision snapshot input .indeterminate [] [] .none
            [js "INVALID_EVALUATION_VALUE"] (invalidInputHash host)
  | _, _ =>
      createDecision [] [] .indeterminate [] [] .none [js "INVALID_EVALUATION_VALUE"]
        (invalidInputHash host)

structure PolicySnapshotMetadata where
  snapshotId : JsString
  compilerVersion : JsString
  createdAt : JsString

def createPolicySnapshot (host : Host) (policy : CompiledPolicySet)
    (metadata : PolicySnapshotMetadata) : Except PolicyFailure JsValue :=
  if Pattern.uuidV7.test metadata.snapshotId = false ∨
      Pattern.semver.test metadata.compilerVersion = false ∨
      isRfc3339DateTime metadata.createdAt = false then
    fail .INVALID_POLICY_SET (js "$/snapshot") "Invalid snapshot metadata"
  else do
    let policyHash ← hashPolicyValue host policy.toValue
    return .record [(js "schemaVersion", .string (js "1.0.0")),
      (js "snapshotId", .string metadata.snapshotId),
      (js "policySetId", .string policy.policySetId.value),
      (js "policyVersion", .string policy.version.value),
      (js "policyHash", .string policyHash.text),
      (js "compiledPolicySet", policy.toValue),
      (js "compilerVersion", .string metadata.compilerVersion),
      (js "createdAt", .string metadata.createdAt)]

end Aseos.Policy
