import Aseos.Policy.Contract

namespace Aseos.Policy

open JsValue

section Schemas

open Schema

def anyText (texts : List String) : Regex CodeUnit :=
  texts.foldr (fun text rest => .alt (.text (js text)) rest) .empty

def inputFields : List String :=
  ["action", "domain", "subjectType", "resourceType", "riskClass", "dataClassification",
    "direction", "authorityMutation", "controlVerified", "permissionScopes", "capabilityIds"]

-- ^(?:input\.(?:action|...|capabilityIds)|constant\.[A-Z][A-Z0-9_]*)$
def referencePattern : Regex CodeUnit :=
  .alt (.seq (.text (js "input.")) (anyText inputFields)) (.seq (.text (js "constant.")) constantName)

-- urn:aseos:schema:policy-rule:1.0.0
def conditionLeaf : Schema :=
  .all [.type .object, .closed ["operator", "reference", "operand"],
    .required ["operator", "reference"],
    .properties [("operator", .enum [js "eq", js "notEq", js "in", js "contains", js "lt", js "lte",
        js "gt", js "gte", js "exists", js "startsWith", js "setSubset", js "setIntersects"]),
      ("reference", .all [.type .string, .pattern referencePattern]),
      ("operand", .all [])]]

def conditionGroup (child : Schema) : Schema :=
  .all [.type .object, .closed ["operator", "conditions"], .required ["operator", "conditions"],
    .properties [("operator", .enum [js "all", js "any"]),
      ("conditions", .all [.type .array, .minItems 1, .maxItems 32, .items child])]]

def conditionNot (child : Schema) : Schema :=
  .all [.type .object, .closed ["operator", "condition"], .required ["operator", "condition"],
    .properties [("operator", .const (.string (js "not"))), ("condition", child)]]

def conditionOver (child : Schema) : Schema :=
  .oneOf [conditionLeaf, conditionGroup child, conditionNot child]

def conditionDepth0 : Schema := conditionLeaf

def conditionDepth1 : Schema := conditionOver conditionDepth0

def conditionDepth2 : Schema := conditionOver conditionDepth1

def conditionDepth3 : Schema := conditionOver conditionDepth2

def conditionDepth4 : Schema := conditionOver conditionDepth3

def selectorSchema (key : String) : Schema :=
  .all [.type .object, .closed [key], .required [key],
    .properties [(key, uniqueArray (boundedString 1 256))]]

def ruleRequirementsSchema : Schema :=
  .all [.type .object,
    .closed ["permissionScopes", "minimumIsolationLevel", "timeoutMs", "maxConcurrency",
      "postVerificationRequired"],
    .properties [("permissionScopes", uniqueArray (boundedString 1 256)),
      ("minimumIsolationLevel", .enum [js "PROCESS_RESTRICTED", js "OS_SANDBOXED",
        js "CONTAINER_ISOLATED", js "REMOTE_ISOLATED"]),
      ("timeoutMs", .all [.type .integer, .minimum 1]),
      ("maxConcurrency", .all [.type .integer, .minimum 1]),
      ("postVerificationRequired", .type .boolean)]]

def policyRuleSchema : Schema :=
  let fields := ["schemaVersion", "ruleId", "domain", "subjectSelector", "action",
    "resourceSelector", "when", "ruleEffect", "requirements", "reasonCode", "metadata"]
  .all [.type .object, .closed fields, .required fields,
    .properties [("schemaVersion", .const (.string (js "1.0.0"))),
      ("ruleId", .all [.type .string, .pattern ruleIdPattern, .maxLength 128]),
      ("domain", boundedString 1 64),
      ("subjectSelector", selectorSchema "subjectTypes"),
      ("action", boundedString 1 128),
      ("resourceSelector", selectorSchema "resourceTypes"),
      ("when", .all [.type .object, conditionDepth4]),
      ("ruleEffect", .enum [js "ALLOW", js "DENY"]),
      ("requirements", ruleRequirementsSchema),
      ("reasonCode", Schema.stableCode),
      ("metadata", .type .object)]]

-- urn:aseos:schema:policy-set:1.0.0
def policySetSchema : Schema :=
  let fields := ["schemaVersion", "policySetId", "version", "description", "source",
    "defaultOutcome", "constants", "rules"]
  .all [.type .object, .closed fields, .required fields,
    .properties [("schemaVersion", .const (.string (js "1.0.0"))),
      ("policySetId", uuidV7),
      ("version", semanticVersion),
      ("description", boundedString 1 2048),
      ("source", .all [.type .object, .closed ["kind", "ref"], .required ["kind", "ref"],
        .properties [("kind", .enum [js "RELEASE", js "MACHINE", js "USER", js "WORKSPACE",
            js "NODE", js "WORKFLOW"]),
          ("ref", boundedString 1 512)]]),
      ("defaultOutcome", .const (.string (js "DENY"))),
      ("constants", .type .object),
      ("rules", .all [.type .array, .maxItems 4096, .items policyRuleSchema])]]

end Schemas

section References

open Regex

theorem mem_lang_anyText {texts : List String} {text : String} (h : text ∈ texts) :
    js text ∈ (anyText texts).lang := by
  induction texts with
  | nil => cases h
  | cons first texts ih =>
    rw [anyText, List.foldr_cons]
    rcases List.mem_cons.mp h with rfl | h
    · exact mem_lang_alt.mpr (.inl (mem_lang_text _))
    · exact mem_lang_alt.mpr (.inr (ih h))

theorem allowedInputReferences_eq :
    allowedInputReferences = inputFields.map fun field => js "input." ++ js field := by
  decide

theorem referencePattern_test {reference : JsString}
    (h : ¬ (reference ∉ allowedInputReferences ∧ constantReference.test reference = false)) :
    referencePattern.test reference = true := by
  rw [test_iff]
  by_cases hinput : reference ∈ allowedInputReferences
  · rw [allowedInputReferences_eq] at hinput
    obtain ⟨field, hfield, rfl⟩ := List.mem_map.mp hinput
    exact mem_lang_alt.mpr (.inl (mem_lang_seq.mpr
      ⟨_, mem_lang_text _, _, mem_lang_anyText hfield, rfl⟩))
  · have hconstant : constantReference.test reference = true := by
      by_contra hfalse
      exact h ⟨hinput, by simpa using hfalse⟩
    exact mem_lang_alt.mpr (.inr ((test_iff _ _).mp hconstant))

end References

section Conditions

open Schema

variable {formats : ContractFormats}

theorem accepts_oneOf {schemas : List Schema} {v : JsValue} :
    accepts formats.check (.oneOf schemas) v = true ↔
      schemas.countP (fun schema => accepts formats.check schema v) = 1 := by
  have hcount : acceptedBy formats.check schemas v = schemas.countP fun schema =>
      accepts formats.check schema v := by
    induction schemas with
    | nil => rfl
    | cons schema schemas ih =>
      rw [acceptedBy, ih, List.countP_cons, Nat.add_comm]
  rw [accepts, beq_iff_eq, hcount]

theorem accepts_unknown {keys : List String} {keywords : List Schema}
    {ms : List (JsString × JsValue)} {key : JsString} {v : JsValue} (hm : (key, v) ∈ ms)
    (hkey : key ∉ keys.map js) :
    accepts formats.check (.all (.type .object :: .closed keys :: keywords)) (.record ms) =
      false := by
  rw [← Bool.not_eq_true, accepts_all]
  intro h
  have hclosed := h (.closed keys) (by simp)
  simp only [accepts, onObject, JsValue.record, List.all_eq_true, decide_eq_true_eq] at hclosed
  refine hkey (hclosed key ?_)
  exact keys_members ms ▸ List.mem_map_of_mem hm

theorem accepts_record {keys required : List String} {schemas : List (String × Schema)}
    {ms : List (JsString × JsValue)} (hclosed : ∀ m ∈ ms, m.1 ∈ keys.map js)
    (hrequired : ∀ key ∈ required, (Props.get (members ms) (js key)).isDefined = true)
    (hmembers : ∀ p ∈ schemas, Props.get (members ms) (js p.1) = .undefined ∨
      accepts formats.check p.2 (Props.get (members ms) (js p.1)) = true) :
    accepts formats.check (.all [.type .object, .closed keys, .required required,
      .properties schemas]) (.record ms) = true := by
  refine accepts_all.mpr ?_
  simp only [List.forall_mem_cons]
  exact ⟨rfl, accepts_closed hclosed, accepts_required.mpr hrequired,
    accepts_properties.mpr hmembers, by simp⟩

theorem accepts_conditionLeaf {operator : LeafOperator} {reference : JsString}
    {operand : Option JsValue} (h : referencePattern.test reference = true) :
    accepts formats.check conditionLeaf
      (PolicyCondition.leaf operator reference operand).toValue = true := by
  have hget (key : JsString) : Props.get (members ([(js "operator", .string (Named.text operator)),
      (js "reference", .string reference)] ++ optional "operand" operand)) key =
      if js "operator" = key then .string (Named.text operator)
      else if js "reference" = key then .string reference
      else Props.get (members (optional "operand" operand)) key := by
    simp only [members, List.map_cons, List.cons_append, List.nil_append, Props.get_cons,
      Field.own, PropertyKey.text.injEq]
  rw [PolicyCondition.toValue]
  refine accepts_record ?_ ?_ ?_
  · cases operand <;> simp [optional]
  · simp only [List.forall_mem_cons, hget]
    exact ⟨rfl, rfl, by simp⟩
  · simp only [List.forall_mem_cons, hget]
    refine ⟨.inr (accepts_enum.mpr ?_), .inr (accepts_pattern.mpr h), ?_, by simp⟩
    · cases operator <;> simp [Named.text]
    · exact .inr (accepts_all.mpr (by simp))

def conditionSchema : ℕ → Schema
  | 0 => conditionLeaf
  | n + 1 => conditionOver (conditionSchema n)

theorem accepts_conditionSchema_leaf (n : ℕ) {operator : LeafOperator} {reference : JsString}
    {operand : Option JsValue} (h : referencePattern.test reference = true) :
    accepts formats.check (conditionSchema n)
      (PolicyCondition.leaf operator reference operand).toValue = true := by
  have hleaf : accepts formats.check conditionLeaf
      (PolicyCondition.leaf operator reference operand).toValue = true := accepts_conditionLeaf h
  cases n with
  | zero => exact hleaf
  | succ n =>
    have hgroup : accepts formats.check (conditionGroup (conditionSchema n))
        (PolicyCondition.leaf operator reference operand).toValue = false :=
      @accepts_unknown _ _ _ _ (js "reference") (.string reference) (by simp) (by decide)
    have hnot : accepts formats.check (conditionNot (conditionSchema n))
        (PolicyCondition.leaf operator reference operand).toValue = false :=
      @accepts_unknown _ _ _ _ (js "reference") (.string reference) (by simp) (by decide)
    refine accepts_oneOf.mpr ?_
    simp [hleaf, hgroup, hnot]

theorem accepts_conditionSchema_group {n : ℕ} {operator : GroupOperator}
    {conditions : List PolicyCondition}
    (h : ∀ c ∈ conditions, accepts formats.check (conditionSchema n) c.toValue = true)
    (hpos : conditions.length ≠ 0) (hlength : conditions.length ≤ 32) :
    accepts formats.check (conditionSchema (n + 1))
      (PolicyCondition.group operator conditions 0).toValue = true := by
  have hslots : PolicyCondition.toSlots conditions ++ List.replicate 0 (.hole, .undefined) =
      conditions.map fun c => (.data, c.toValue) := by
    rw [List.replicate_zero, List.append_nil, toSlots_eq]
  rw [PolicyCondition.toValue, hslots]
  have hleaf : accepts formats.check conditionLeaf (.record
      [(js "operator", .string (Named.text operator)),
        (js "conditions", .array (conditions.map fun c => (.data, c.toValue)) [])]) = false :=
    accepts_unknown (List.mem_cons_of_mem _ List.mem_cons_self) (by decide)
  have hnot : accepts formats.check (conditionNot (conditionSchema n)) (.record
      [(js "operator", .string (Named.text operator)),
        (js "conditions", .array (conditions.map fun c => (.data, c.toValue)) [])]) = false :=
    accepts_unknown (List.mem_cons_of_mem _ List.mem_cons_self) (by decide)
  have hgroup : accepts formats.check (conditionGroup (conditionSchema n)) (.record
      [(js "operator", .string (Named.text operator)),
        (js "conditions", .array (conditions.map fun c => (.data, c.toValue)) [])]) = true := by
    refine accepts_record (by simp) ?_ ?_
    · simp only [List.forall_mem_cons]
      exact ⟨rfl, rfl, by simp⟩
    · simp only [List.forall_mem_cons]
      refine ⟨.inr (accepts_enum.mpr ?_), .inr (accepts_all.mpr ?_), by simp⟩
      · cases operator <;> simp [Named.text]
      · have harray : Props.get (members [(js "operator", .string (Named.text operator)),
            (js "conditions", .array (conditions.map fun c => (.data, c.toValue)) [])])
            (js "conditions") = .array (conditions.map fun c => (.data, c.toValue)) [] := rfl
        simp only [harray, List.forall_mem_cons]
        refine ⟨rfl, ?_, ?_, ?_, by simp⟩
        · simpa [accepts, onArray] using Nat.one_le_iff_ne_zero.mpr hpos
        · simpa [accepts, onArray] using hlength
        · simpa [accepts, onArray, Slots.value] using h
  refine accepts_oneOf.mpr ?_
  simp [hleaf, hgroup, hnot]

theorem accepts_conditionSchema_not {n : ℕ} {c : PolicyCondition}
    (h : accepts formats.check (conditionSchema n) c.toValue = true) :
    accepts formats.check (conditionSchema (n + 1)) (PolicyCondition.not c).toValue = true := by
  rw [PolicyCondition.toValue]
  have hleaf : accepts formats.check conditionLeaf (.record
      [(js "operator", .string (js "not")), (js "condition", c.toValue)]) = false :=
    accepts_unknown (List.mem_cons_of_mem _ List.mem_cons_self) (by decide)
  have hgroup : accepts formats.check (conditionGroup (conditionSchema n)) (.record
      [(js "operator", .string (js "not")), (js "condition", c.toValue)]) = false :=
    accepts_unknown (List.mem_cons_of_mem _ List.mem_cons_self) (by decide)
  have hnot : accepts formats.check (conditionNot (conditionSchema n)) (.record
      [(js "operator", .string (js "not")), (js "condition", c.toValue)]) = true := by
    refine accepts_record (by simp) ?_ ?_
    · have hcondition : c.toValue.isDefined = true := by
        cases c <;> rfl
      simp only [List.forall_mem_cons]
      exact ⟨rfl, hcondition, by simp⟩
    · simp only [List.forall_mem_cons]
      exact ⟨.inr (accepts_const.mpr rfl), .inr h, by simp⟩
  refine accepts_oneOf.mpr ?_
  simp [hleaf, hgroup, hnot]

-- The compiler counts the levels left, one more than the number of the schema.
theorem accepts_compiled {constants : Props} {depth : ℕ} {c : PolicyCondition}
    (h : Compiled constants depth c) (hfree : HoleFree c) :
    ∃ n, depth = n + 1 ∧ accepts formats.check (conditionSchema n) c.toValue = true := by
  induction h with
  | @group depth operator conditions holes _ hpos hlength ih =>
    obtain ⟨rfl, hfree⟩ := hfree
    have hchildren := fun c hc => ih c hc (allHoleFree_iff.mp hfree c hc)
    obtain ⟨first, hfirst⟩ := List.exists_mem_of_length_pos (Nat.pos_of_ne_zero hpos)
    obtain ⟨n, rfl, -⟩ := hchildren first hfirst
    refine ⟨n + 1, rfl, accepts_conditionSchema_group (fun c hc => ?_) hpos hlength⟩
    obtain ⟨m, hm, haccepts⟩ := hchildren c hc
    obtain rfl : n = m := by omega
    exact haccepts
  | not _ ih =>
    obtain ⟨n, rfl, haccepts⟩ := ih hfree
    exact ⟨n + 1, rfl, accepts_conditionSchema_not haccepts⟩
  | @leaf depth operator reference operand _ hreference _ =>
    have hpattern := referencePattern_test (compileReference_eq_ok.mp (hreference [])).1
    exact ⟨depth, rfl, accepts_conditionSchema_leaf depth hpattern⟩

end Conditions

section Rules

open Schema

variable {formats : ContractFormats} {host : Host}

theorem accepts_text {pattern : Option (Regex CodeUnit)} {maxLength minLength : ℕ}
    (text : Text pattern (some maxLength) minLength) (h : 1 ≤ minLength) :
    accepts formats.check (boundedString 1 maxLength) (.string text.value) = true :=
  accepts_boundedString.mpr ⟨JsString.codePoints_pos (h.trans text.long),
    (JsString.codePoints_le_length _).trans (text.short _ rfl)⟩

theorem accepts_matching {r : Regex CodeUnit} {maxLength : Option ℕ} {minLength : ℕ}
    (text : Text (some r) maxLength minLength) :
    accepts formats.check (.all [.type .string, .pattern r]) (.string text.value) = true :=
  accepts_pattern.mpr (text.matching r rfl)

theorem accepts_ruleId (text : Text (some ruleIdPattern) (some 128) 1) :
    accepts formats.check (.all [.type .string, .pattern ruleIdPattern, .maxLength 128])
      (.string text.value) = true := by
  refine accepts_all.mpr ?_
  simp only [List.forall_mem_cons]
  refine ⟨rfl, text.matching _ rfl, ?_, by simp⟩
  exact decide_eq_true ((JsString.codePoints_le_length _).trans (text.short _ rfl))

theorem accepts_reasonCode (text : Text (some stableCode) (some 128) 3) :
    accepts formats.check Schema.stableCode (.string text.value) = true := by
  have hmatching : Pattern.stableCode.test text.value = true := text.matching _ rfl
  have hlength := (Pattern.stableCode_ascii hmatching).codePoints_eq
  refine accepts_all.mpr ?_
  simp only [List.forall_mem_cons]
  refine ⟨rfl, hmatching, ?_, ?_, by simp⟩
  · exact decide_eq_true (hlength.symm ▸ text.long)
  · exact decide_eq_true (hlength.symm ▸ text.short _ rfl)

theorem accepts_selector {key : String} {s : StringSet} (h : s.holes = 0) :
    accepts formats.check (selectorSchema key) (.record [(js key, s.toValue)]) = true := by
  have hget : Props.get (members [(js key, s.toValue)]) (js key) = s.toValue := by
    simp [members, Props.get_cons, Field.own]
  refine accepts_record (by simp) ?_ ?_
  · simp only [List.forall_mem_singleton, hget]
    rfl
  · simp only [List.forall_mem_singleton, hget]
    exact .inr (accepts_scopes h)

theorem accepts_rule {constants : Props} {r : CompiledPolicyRule} (h : CompiledRule constants r)
    (hcanonical : Canonical host r.toValue) :
    accepts formats.check policyRuleSchema r.toValue = true := by
  have hmembers := hcanonical.member
  simp only [List.forall_mem_cons] at hmembers
  obtain ⟨-, -, -, hsubject, -, hresource, hwhen, -, hrequirements, -, -, -⟩ := hmembers
  have hsubjectHoles := (hsubject.member (js "subjectTypes", r.subjectTypes.toValue)
    (by simp)).stringSet
  have hresourceHoles := (hresource.member (js "resourceTypes", r.resourceTypes.toValue)
    (by simp)).stringSet
  have hscopes : ∀ s ∈ r.requirements.permissionScopes, s.holes = 0 := by
    intro s hs
    have hmember := hrequirements.member (js "permissionScopes", s.toValue)
    refine (hmember ?_).stringSet
    simp [optional, Option.mem_def.mp hs]
  obtain ⟨n, hn, hcondition⟩ := @accepts_compiled formats _ _ _ h.when hwhen.holeFree
  obtain rfl : n = 4 := by
    unfold conditionDepth at hn
    omega
  have hobject : accepts formats.check (.type .object) r.when.toValue = true := by
    cases r.when <;> rfl
  refine accepts_record (by simp) ?_ ?_
  · have hwhenDefined : r.when.toValue.isDefined = true := by
      cases r.when <;> rfl
    simp only [List.forall_mem_cons]
    exact ⟨rfl, rfl, rfl, rfl, rfl, rfl, hwhenDefined, rfl, rfl, rfl, rfl, by simp⟩
  · simp only [List.forall_mem_cons]
    refine ⟨.inr (accepts_const.mpr rfl), .inr (accepts_ruleId r.ruleId),
      .inr (accepts_text r.domain le_rfl), .inr (accepts_selector hsubjectHoles),
      .inr (accepts_text r.action le_rfl), .inr (accepts_selector hresourceHoles),
      .inr (accepts_all.mpr ?_), .inr (accepts_enum.mpr ?_), .inr ?_,
      .inr (accepts_reasonCode r.reasonCode), .inr rfl, by simp⟩
    · simp only [List.forall_mem_cons]
      exact ⟨hobject, hcondition, by simp⟩
    · cases r.ruleEffect <;> simp [Named.text]
    · refine accepts_requirementProperties hscopes (by simp [requirementProperties]) ?_
      exact fun p hp => .inl hp

theorem accepts_set {c : CompiledPolicySet} (h : CompiledSet c)
    (hcanonical : Canonical host c.toValue) :
    accepts formats.check policySetSchema c.toValue = true ∧
      ∀ r ∈ c.rules, accepts formats.check policyRuleSchema r.toValue = true := by
  obtain ⟨constants, -, hrules⟩ := h.rules
  have hslots := (hcanonical.member (js "rules", .array (c.rules.map (fun r => (.data, r.toValue)) ++
    List.replicate c.holes (.data, .undefined)) []) (by simp)).slot
  have hholes : c.holes = 0 := by
    by_contra hholes
    refine not_canonical_undefined (hslots (.data, .undefined) ?_).2
    exact List.mem_append_right _ (List.mem_replicate.mpr ⟨hholes, rfl⟩)
  have hall : ∀ r ∈ c.rules, accepts formats.check policyRuleSchema r.toValue = true := by
    intro r hr
    refine accepts_rule (hrules r hr) (hslots (.data, r.toValue) ?_).2
    exact List.mem_append_left _ (List.mem_map_of_mem hr)
  have hbounded := h.bounded
  refine ⟨?_, hall⟩
  unfold CompiledPolicySet.toValue
  rw [hholes, List.replicate_zero, List.append_nil]
  refine accepts_record (by simp) ?_ ?_
  · simp only [List.forall_mem_cons]
    exact ⟨rfl, rfl, rfl, rfl, rfl, rfl, rfl, rfl, by simp⟩
  · simp only [List.forall_mem_cons]
    refine ⟨.inr (accepts_const.mpr rfl), .inr (accepts_matching c.policySetId),
      .inr (accepts_matching c.version), .inr (accepts_text c.description le_rfl), .inr ?_,
      .inr (accepts_const.mpr rfl), .inr rfl, .inr (accepts_all.mpr ?_), by simp⟩
    · refine accepts_record (by simp) ?_ ?_
      · simp only [List.forall_mem_cons]
        exact ⟨rfl, rfl, by simp⟩
      · simp only [List.forall_mem_cons]
        refine ⟨.inr (accepts_enum.mpr ?_), .inr (accepts_text c.sourceRef le_rfl), by simp⟩
        cases c.sourceKind <;> simp [Named.text]
    · simp only [List.forall_mem_cons]
      refine ⟨rfl, ?_, ?_, by simp⟩
      · have hlength : c.rules.length ≤ 4096 := by omega
        exact decide_eq_true ((List.length_map _).trans_le ((List.length_map _).trans_le hlength))
      · have hitems : ((c.rules.map fun r => (SlotKind.data, r.toValue)).map Slots.value).all
            (accepts formats.check policyRuleSchema) = true := by
          simpa [Slots.value] using hall
        exact hitems

end Rules

theorem compiled_satisfies_schemas (formats : ContractFormats) {host : Host} {source : JsValue}
    {success : CompileSuccess} (h : compilePolicySet host source = .ok success) :
    Schema.accepts formats.check policySetSchema success.value.toValue = true ∧
      ∀ r ∈ success.value.rules, Schema.accepts formats.check policyRuleSchema r.toValue = true := by
  obtain ⟨hacceptable, hsource, -, htext, -⟩ := compilePolicySet_eq_ok.mp h
  exact accepts_set (compileSource_compiled hacceptable hsource) ⟨_, htext⟩

theorem sample_satisfies_schemas :
    Schema.accepts contractFormats.check policySetSchema samplePolicy.toValue = true ∧
      Schema.accepts contractFormats.check policyRuleSchema sampleRule.toValue = true := by
  obtain ⟨hset, hrules⟩ := compiled_satisfies_schemas contractFormats samplePolicy_compiles
  exact ⟨hset, hrules sampleRule (List.mem_singleton_self _)⟩

end Aseos.Policy
