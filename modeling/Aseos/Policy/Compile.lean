import Aseos.Contracts.CanonicalJson
import Aseos.Js.KeyOrder
import Aseos.Policy.Model

namespace Aseos.Policy

open Props (fromEntries)

def protectedKeys : List JsString := [js "__proto__", js "prototype", js "constructor"]

def slash (path : JsString) (step : JsString) : JsString := path ++ js "/" ++ step

def slashIndex (path : JsString) (index : ℕ) : JsString := slash path (js (toString index))

def fail {α : Type} (code : DiagnosticCode) (path : JsString) (message : String) :
    Except PolicyFailure α :=
  .error ⟨code, path, message⟩

def assertWellFormedUnicodeString (value : JsString) (path : JsString) :
    Except PolicyFailure Unit :=
  if value.wellFormed then .ok () else fail .INVALID_POLICY_VALUE path "Lone Unicode surrogate"

def assertKey (key : PropertyKey) (path : JsString) : Except PolicyFailure JsString :=
  match key with
  | .text s =>
      if s ∈ protectedKeys then fail .INVALID_POLICY_VALUE path "Unsafe object key" else .ok s
  | .symbol _ => fail .INVALID_POLICY_VALUE path "Unsafe object key"

mutual

def assertPolicyJson : JsValue → JsString → Except PolicyFailure Unit
  | .null, _ => .ok ()
  | .bool _, _ => .ok ()
  | .number n, path =>
      if n.isFinite then .ok ()
      else fail .INVALID_POLICY_VALUE path "Value is not I-JSON compatible"
  | .string s, path => assertWellFormedUnicodeString s path
  | .undefined, path | .foreign _, path =>
      fail .INVALID_POLICY_VALUE path "Value is not I-JSON compatible"
  | .cycle, path => fail .INVALID_POLICY_VALUE path "Cyclic value"
  | .array slots _, path => assertSlots slots 0 path
  | .object plain props, path =>
      if plain then assertProps props path
      else fail .INVALID_POLICY_VALUE path "Object must have a plain prototype"

def assertSlots : List (SlotKind × JsValue) → ℕ → JsString → Except PolicyFailure Unit
  | [], _, _ => .ok ()
  | (kind, v) :: slots, index, path => do
      if kind ≠ .hole then assertPolicyJson v (slashIndex path index)
      assertSlots slots (index + 1) path

def assertProps : List (Field × JsValue) → JsString → Except PolicyFailure Unit
  | [], _ => .ok ()
  | (field, v) :: props, path => do
      let key ← assertKey field.key path
      assertWellFormedUnicodeString key (slash path (js "<key>"))
      if field.kind ≠ .data then
        fail .INVALID_POLICY_VALUE (slash path key)
          "Accessors and non-enumerable properties are forbidden"
      assertPolicyJson v (slash path key)
      assertProps props path

end

def ofCanonical {α : Type} : Except CanonicalError α → Except PolicyFailure α
  | .ok a => .ok a
  | .error e => fail .INVALID_POLICY_SET (js "$") e.message

def canonicalizePolicyValue (host : Host) (value : JsValue) : Except PolicyFailure JsString := do
  assertPolicyJson value (js "$")
  ofCanonical (canonicalJson host value)

def hashPolicyValue (host : Host) (value : JsValue) : Except PolicyFailure HexDigest := do
  assertPolicyJson value (js "$")
  ofCanonical (canonicalJsonSha256 host value)

def requiredString (props : Props) (key : String) (path : JsString)
    (pattern : Option (Regex CodeUnit)) (maxLength : Option ℕ) (minLength : ℕ) :
    Except PolicyFailure (Text pattern maxLength minLength) :=
  match props.get (js key) with
  | .string value =>
      if h : minLength ≤ value.length ∧ (∀ n ∈ maxLength, value.length ≤ n) ∧
          ∀ r ∈ pattern, r.test value = true then
        .ok ⟨value, h.1, h.2.1, h.2.2⟩
      else fail .INVALID_POLICY_SET (slash path (js key)) "Expected canonical string"
  | _ => fail .INVALID_POLICY_SET (slash path (js key)) "Expected canonical string"

def exactKeys (props : Props) (allowed : List String) (path : JsString) :
    Except PolicyFailure Unit :=
  match props.keys.find? (fun key => key ∉ allowed.map js) with
  | some key => fail .INVALID_POLICY_SET (slash path key) "Unknown field"
  | none => .ok ()

structure UniqueStrings (maxLength : ℕ) where
  strings : List JsString
  holes : ℕ
  nodup : strings.Nodup
  bounded : ∀ s ∈ strings, 1 ≤ s.length ∧ s.length ≤ maxLength
  holes_le : holes ≤ 1

def uniqueStrings (maxLength : ℕ) (strings : List JsString) (holes : ℕ) :
    Option (UniqueStrings maxLength) :=
  if h : strings.Nodup ∧ (∀ s ∈ strings, 1 ≤ s.length ∧ s.length ≤ maxLength) ∧ holes ≤ 1 then
    some ⟨strings, holes, h.1, h.2.1, h.2.2⟩
  else none

-- `every` skips the holes, and the set of the elements holds them as one undefined element.
def isUniqueBoundedStringArray (value : JsValue) (maxLength : ℕ) :
    Option (UniqueStrings maxLength) :=
  match value with
  | .array slots _ =>
      ((Slots.present slots).mapM JsValue.isString).bind fun strings =>
        uniqueStrings maxLength strings (Slots.holes slots)
  | _ => none

def UniqueStrings.sort (u : UniqueStrings 256) : StringSet where
  strings := JsString.sort u.strings
  holes := u.holes
  sorted := JsString.sort_pairwise u.strings
  nodup := (JsString.sort_perm u.strings).nodup_iff.mpr u.nodup
  bounded s hs := u.bounded s ((JsString.sort_perm u.strings).mem_iff.mp hs)
  holes_le := u.holes_le

def sortedUniqueStrings (value : JsValue) (path : JsString) : Except PolicyFailure StringSet :=
  match isUniqueBoundedStringArray value 256 with
  | some u => .ok u.sort
  | none => fail .INVALID_POLICY_SET path "Expected unique bounded string array"

-- A field that may be absent: its value is checked only when it is not undefined.
def optionalField {α : Type} (props : Props) (key : String)
    (check : JsValue → Except PolicyFailure α) : Except PolicyFailure (Option α) :=
  match props.get (js key) with
  | .undefined => .ok none
  | value => do
      let a ← check value
      return some a

def isolationLevel (path : JsString) (value : JsValue) : Except PolicyFailure IsolationLevel :=
  match value.isString.bind Named.parse with
  | some level => .ok level
  | none =>
      fail .INVALID_REQUIREMENTS (slash path (js "minimumIsolationLevel"))
        "Unknown isolation level"

def positiveInteger (key : String) (path : JsString) (value : JsValue) :
    Except PolicyFailure PositiveInteger :=
  match value with
  | .number (.finite x) =>
      if h : JsNumber.isPositiveSafeInteger (.finite x) = true then .ok ⟨x, h⟩
      else fail .INVALID_REQUIREMENTS (slash path (js key)) "Expected positive integer"
  | _ => fail .INVALID_REQUIREMENTS (slash path (js key)) "Expected positive integer"

def verificationFlag (path : JsString) (value : JsValue) : Except PolicyFailure Bool :=
  match value with
  | .bool b => .ok b
  | _ =>
      fail .INVALID_REQUIREMENTS (slash path (js "postVerificationRequired")) "Expected boolean"

def compileRequirements (value : JsValue) (path : JsString) :
    Except PolicyFailure PolicyRequirements :=
  match value.isRecord with
  | none => fail .INVALID_REQUIREMENTS path "Requirements must be an object"
  | some props => do
      exactKeys props ["permissionScopes", "minimumIsolationLevel", "timeoutMs",
        "maxConcurrency", "postVerificationRequired"] path
      let permissionScopes ← optionalField props "permissionScopes" fun value =>
        sortedUniqueStrings value (slash path (js "permissionScopes"))
      let minimumIsolationLevel ← optionalField props "minimumIsolationLevel"
        (isolationLevel path)
      let timeoutMs ← optionalField props "timeoutMs" (positiveInteger "timeoutMs" path)
      let maxConcurrency ← optionalField props "maxConcurrency"
        (positiveInteger "maxConcurrency" path)
      let postVerificationRequired ← optionalField props "postVerificationRequired"
        (verificationFlag path)
      return ⟨permissionScopes, minimumIsolationLevel, timeoutMs, maxConcurrency,
        postVerificationRequired⟩

def allowedInputReferences : List JsString :=
  [js "input.action", js "input.domain", js "input.subjectType", js "input.resourceType",
    js "input.riskClass", js "input.dataClassification", js "input.direction",
    js "input.authorityMutation", js "input.controlVerified", js "input.permissionScopes",
    js "input.capabilityIds"]

def constantKey (reference : JsString) : Option JsString :=
  if constantPrefix.isPrefixOf reference then some (reference.drop constantPrefix.length) else none

def compileReference (constants : Props) (reference : JsString) (path : JsString) :
    Except PolicyFailure Unit :=
  if reference ∉ allowedInputReferences ∧ constantReference.test reference = false then
    fail .INVALID_REFERENCE (slash path (js "reference"))
      "Reference is outside the typed namespace"
  else if (constantKey reference).any (fun key => !constants.hasOwn key) then
    fail .INVALID_REFERENCE (slash path (js "reference")) "Referenced constant is not declared"
  else .ok ()

def compileOperand (operator : LeafOperator) (value : JsValue) (path : JsString) :
    Except PolicyFailure (Option JsValue) :=
  match operator, value with
  | .exists, .undefined => .ok none
  | .exists, _ =>
      fail .INVALID_CONDITION (slash path (js "operand")) "exists does not accept an operand"
  | _, .undefined =>
      fail .INVALID_CONDITION (slash path (js "operand")) "Operator requires an operand"
  | _, value => .ok (some value)

def compileLeaf (constants : Props) (props : Props) (operator : LeafOperator) (path : JsString) :
    Except PolicyFailure PolicyCondition := do
  exactKeys props ["operator", "reference", "operand"] path
  let reference ← requiredString props "reference" path none none 1
  compileReference constants reference.value path
  let operand ← compileOperand operator (props.get (js "operand")) path
  return .leaf operator reference.value operand

-- The source counts `remainingDepth` down to -1; the number here is one more.
def compileCondition (constants : Props) :
    ℕ → JsValue → JsString → Except PolicyFailure PolicyCondition
  | 0, _, path => fail .INVALID_CONDITION path "Condition depth exceeds four"
  | depth + 1, value, path =>
      match value.isRecord with
      | none => fail .INVALID_CONDITION path "Condition depth exceeds four"
      | some props =>
          let operator := (props.get (js "operator")).isString
          match operator.bind Named.parse with
          | some group => do
              exactKeys props ["operator", "conditions"] path
              match props.get (js "conditions") with
              | .array slots _ =>
                  if slots.length = 0 ∨ slots.length > 32 then
                    fail .INVALID_CONDITION (slash path (js "conditions"))
                      "Expected bounded condition array"
                  else do
                    let conditions ← (Slots.visited slots).mapM fun child =>
                      compileCondition constants depth child.2
                        (slashIndex (slash path (js "conditions")) child.1)
                    return .group group conditions (Slots.holes slots)
              | _ =>
                  fail .INVALID_CONDITION (slash path (js "conditions"))
                    "Expected bounded condition array"
          | none =>
              if operator = some (js "not") then do
                exactKeys props ["operator", "condition"] path
                let condition ← compileCondition constants depth (props.get (js "condition"))
                  (slash path (js "condition"))
                return .not condition
              else
                match operator.bind Named.parse with
                | some operator => compileLeaf constants props operator path
                | none =>
                    fail .INVALID_CONDITION (slash path (js "operator"))
                      "Unknown condition operator"

def conditionDepth : ℕ := 5

def compileRuleFields (props subject resource : Props) (ruleEffect : RuleEffect)
    (metadata : Props) (constants : Props) (path : JsString) :
    Except PolicyFailure CompiledPolicyRule := do
  let ruleId ← requiredString props "ruleId" path (some ruleIdPattern) (some 128) 1
  let domain ← requiredString props "domain" path none (some 64) 1
  let subjectTypes ← sortedUniqueStrings (subject.get (js "subjectTypes"))
    (path ++ js "/subjectSelector/subjectTypes")
  let action ← requiredString props "action" path none (some 128) 1
  let resourceTypes ← sortedUniqueStrings (resource.get (js "resourceTypes"))
    (path ++ js "/resourceSelector/resourceTypes")
  let when ← compileCondition constants conditionDepth (props.get (js "when"))
    (slash path (js "when"))
  let requirements ← compileRequirements (props.get (js "requirements"))
    (slash path (js "requirements"))
  let reasonCode ← requiredString props "reasonCode" path (some stableCode) (some 128) 3
  return ⟨ruleId, domain, subjectTypes, action, resourceTypes, when, ruleEffect, requirements,
    reasonCode, metadata.spread⟩

def compileRule (value : JsValue) (index : ℕ) (constants : Props) :
    Except PolicyFailure CompiledPolicyRule :=
  let path := slashIndex (js "$/rules") index
  match value.isRecord with
  | none => fail .INVALID_POLICY_RULE path "Rule must be an object"
  | some props => do
      exactKeys props ["schemaVersion", "ruleId", "domain", "subjectSelector", "action",
        "resourceSelector", "when", "ruleEffect", "requirements", "reasonCode", "metadata"] path
      if (props.get (js "schemaVersion")).isString ≠ some (js "1.0.0") then
        fail .INVALID_POLICY_RULE (slash path (js "schemaVersion")) "Unsupported version"
      match (props.get (js "subjectSelector")).isRecord,
          (props.get (js "resourceSelector")).isRecord with
      | some subject, some resource => do
          exactKeys subject ["subjectTypes"] (slash path (js "subjectSelector"))
          exactKeys resource ["resourceTypes"] (slash path (js "resourceSelector"))
          match (props.get (js "ruleEffect")).isString.bind Named.parse with
          | none => fail .INVALID_POLICY_RULE (slash path (js "ruleEffect")) "Unknown rule effect"
          | some ruleEffect =>
              match (props.get (js "metadata")).isRecord with
              | none =>
                  fail .INVALID_POLICY_RULE (slash path (js "metadata"))
                    "Metadata must be an object"
              | some metadata =>
                  compileRuleFields props subject resource ruleEffect metadata constants path
      | _, _ => fail .INVALID_POLICY_RULE path "Selectors must be objects"

def compileRules (slots : Slots) (constants : Props) :
    Except PolicyFailure (List CompiledPolicyRule) :=
  (Slots.visited slots).mapM fun rule => compileRule rule.2 rule.1 constants

def sortRules (rules : List CompiledPolicyRule) : List CompiledPolicyRule :=
  sortBy (fun rule => rule.ruleId.value) rules

def sortedConstants (constants : Props) : Props :=
  fromEntries (CanonicalJson.sortMembers constants.entries)

def checkConstantNames (constants : Props) : Except PolicyFailure Unit :=
  match constants.keys.find? (fun key => !constantName.test key) with
  | some key => fail .INVALID_POLICY_SET (js "$/constants/" ++ key) "Invalid constant name"
  | none => .ok ()

structure CompileSuccess where
  value : CompiledPolicySet
  canonicalJson : JsString
  sha256 : HexDigest

def compileFields (props source constants : Props) (slots : Slots) (kind : SourceKind) :
    Except PolicyFailure CompiledPolicySet := do
  let rules ← compileRules slots constants
  if ¬ (rules.map (fun rule => rule.ruleId.value)).Nodup ∨ Slots.holes slots > 1 then
    fail .INVALID_POLICY_SET (js "$/rules") "Duplicate ruleId"
  checkConstantNames (sortedConstants constants)
  let policySetId ← requiredString props "policySetId" (js "$") (some Pattern.uuidV7) none 1
  let version ← requiredString props "version" (js "$") (some Pattern.semver) none 1
  let description ← requiredString props "description" (js "$") none (some 2048) 1
  let ref ← requiredString source "ref" (js "$/source") none (some 512) 1
  return ⟨policySetId, version, description, kind, ref, sortedConstants constants,
    sortRules rules, Slots.holes slots⟩

def compileSource (value : JsValue) : Except PolicyFailure CompiledPolicySet :=
  match value.isRecord with
  | none => fail .INVALID_POLICY_SET (js "$") "PolicySet must be an object"
  | some props => do
      exactKeys props ["schemaVersion", "policySetId", "version", "description", "source",
        "defaultOutcome", "constants", "rules"] (js "$")
      if (props.get (js "schemaVersion")).isString ≠ some (js "1.0.0") ∨
          (props.get (js "defaultOutcome")).isString ≠ some (js "DENY") then
        fail .INVALID_POLICY_SET (js "$") "Unsupported version or non-deny default"
      match (props.get (js "source")).isRecord, (props.get (js "constants")).isRecord,
          (props.get (js "rules")).isArray with
      | some source, some constants, some slots => do
          if slots.length > 4096 then
            fail .INVALID_POLICY_SET (js "$") "Invalid source, constants, or rules"
          exactKeys source ["kind", "ref"] (js "$/source")
          match (source.get (js "kind")).isString.bind Named.parse with
          | none => fail .INVALID_POLICY_SET (js "$/source/kind") "Unknown source kind"
          | some kind => compileFields props source constants slots kind
      | _, _, _ => fail .INVALID_POLICY_SET (js "$") "Invalid source, constants, or rules"

def compilePolicySet (host : Host) (value : JsValue) : Except PolicyFailure CompileSuccess := do
  assertPolicyJson value (js "$")
  let compiled ← compileSource value
  let text ← canonicalizePolicyValue host compiled.toValue
  let sha256 ← hashPolicyValue host compiled.toValue
  return ⟨compiled, text, sha256⟩

end Aseos.Policy
