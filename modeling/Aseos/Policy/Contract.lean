import Aseos.Contracts.Common
import Aseos.Policy.Snapshot

namespace Aseos.Policy

open JsValue

def PolicyDecision.toValue (d : PolicyDecision) : JsValue :=
  .record [(js "schemaVersion", .string (js "1.0.0")),
    (js "decisionId", .string d.decisionId),
    (js "outcome", .string (Named.text d.outcome)),
    (js "policySnapshotId", .string d.policySnapshotId),
    (js "policySnapshotHash", .string d.policySnapshotHash),
    (js "inputHash", .string d.inputHash.text),
    (js "matchedRuleIds", .ofStrings d.matchedRuleIds),
    (js "hardInvariantIds", .ofStrings d.hardInvariantIds),
    (js "requirements", d.requirements.toValue),
    (js "reasonCodes", .ofStrings d.reasonCodes),
    (js "residualRiskRefs", .ofStrings []),
    (js "evaluatedAt", .string d.evaluatedAt),
    (js "evaluatorVersion", .string policyEvaluatorVersion)]

open Schema in
def requirementsSchema : Schema :=
  .all [.type .object,
    .closed ["permissionScopes", "minimumIsolationLevel", "verificationProfileRefs",
      "approvalProfileRefs", "timeoutMs", "maxConcurrency", "postVerificationRequired"],
    .properties [("permissionScopes", uniqueArray (boundedString 1 256)),
      ("minimumIsolationLevel", .enum [js "PROCESS_RESTRICTED", js "OS_SANDBOXED",
        js "CONTAINER_ISOLATED", js "REMOTE_ISOLATED"]),
      ("verificationProfileRefs", uniqueArray subjectRef),
      ("approvalProfileRefs", uniqueArray subjectRef),
      ("timeoutMs", .all [.type .integer, .minimum 1]),
      ("maxConcurrency", .all [.type .integer, .minimum 1]),
      ("postVerificationRequired", .type .boolean)]]

-- urn:aseos:schema:policy-decision:1.0.0
open Schema in
def policyDecisionSchema : Schema :=
  let fields := ["schemaVersion", "decisionId", "outcome", "policySnapshotId",
    "policySnapshotHash", "inputHash", "matchedRuleIds", "hardInvariantIds", "requirements",
    "reasonCodes", "residualRiskRefs", "evaluatedAt", "evaluatorVersion"]
  .all [.type .object, .closed fields, .required fields,
    .properties [("schemaVersion", .const (.string (js "1.0.0"))),
      ("decisionId", uuidV7),
      ("outcome", .enum [js "ALLOW", js "ALLOW_WITH_REQUIREMENTS", js "DENY",
        js "INDETERMINATE"]),
      ("policySnapshotId", uuidV7),
      ("policySnapshotHash", sha256),
      ("inputHash", sha256),
      ("matchedRuleIds", uniqueArray (boundedString 1 256)),
      ("hardInvariantIds", uniqueArray (boundedString 1 256)),
      ("requirements", requirementsSchema),
      ("reasonCodes", uniqueArray Schema.stableCode),
      ("residualRiskRefs", uniqueArray subjectRef),
      ("evaluatedAt", dateTime),
      ("evaluatorVersion", semanticVersion)],
    .ifThen (.all [.properties [("outcome", .const (.string (js "ALLOW_WITH_REQUIREMENTS")))],
        .required ["outcome"]])
      (.properties [("requirements", .minProperties 1)]),
    .ifThen (.all [.properties [("outcome", .enum [js "DENY", js "INDETERMINATE"])],
        .required ["outcome"]])
      (.properties [("reasonCodes", .minItems 1)])]

-- The format checks the contracts package gives ajv.
structure ContractFormats where
  check : Format → JsString → Bool
  dateTime : check .dateTime = DateTime.validDateTime

structure DecisionFields (d : PolicyDecision) : Prop where
  decisionId : Pattern.uuidV7.test d.decisionId = true
  policySnapshotId : Pattern.uuidV7.test d.policySnapshotId = true
  policySnapshotHash : Pattern.sha256.test d.policySnapshotHash = true
  matchedRuleIds : d.matchedRuleIds.Nodup
  matchedRuleIds_bounded : ∀ s ∈ d.matchedRuleIds, 1 ≤ s.length ∧ s.length ≤ 256
  hardInvariantIds : d.hardInvariantIds.Nodup
  hardInvariantIds_bounded : ∀ s ∈ d.hardInvariantIds, 1 ≤ s.length ∧ s.length ≤ 256
  scopes : ∀ s ∈ d.requirements.permissionScopes, s.holes = 0
  reasonCodes : d.reasonCodes.Nodup
  reasonCodes_stable : ∀ s ∈ d.reasonCodes,
    stableCode.test s = true ∧ 3 ≤ s.length ∧ s.length ≤ 128
  required : d.outcome = .allowWithRequirements → d.requirements.nonEmpty = true
  explained : d.outcome = .deny ∨ d.outcome = .indeterminate → d.reasonCodes ≠ []

section Schema

open Schema

variable {formats : ContractFormats}

theorem accepts_scopes {s : StringSet} (h : s.holes = 0) :
    accepts formats.check (uniqueArray (boundedString 1 256)) s.toValue = true := by
  have hvalue : s.toValue = .ofStrings s.strings := by
    simp [StringSet.toValue, JsValue.ofStrings, h]
  rw [hvalue]
  refine accepts_uniqueStrings s.nodup fun t ht => accepts_boundedString.mpr ?_
  have hbounded := s.bounded t ht
  exact ⟨JsString.codePoints_pos hbounded.1, (JsString.codePoints_le_length t).trans hbounded.2⟩

theorem accepts_positiveInteger (n : PositiveInteger) :
    accepts formats.check (.all [.type .integer, .minimum 1]) (.number (.finite n.number)) =
      true := by
  have hpositive := n.positive
  simp only [JsNumber.isPositiveSafeInteger, Double.isSafeInteger, Bool.and_eq_true,
    decide_eq_true_eq, beq_iff_eq] at hpositive
  simp [accepts, acceptsAll, hasType, onNumber, atLeast, hpositive.1.1, hpositive.2]

theorem accepts_closed {ms : List (JsString × JsValue)} {keys : List String}
    (h : ∀ m ∈ ms, m.1 ∈ keys.map js) :
    accepts formats.check (.closed keys) (.record ms) = true := by
  have hkeys := keys_members ms
  simp only [accepts, onObject, JsValue.record, List.all_eq_true, decide_eq_true_eq]
  intro key hkey
  obtain ⟨m, hm, rfl⟩ := List.mem_map.mp (hkeys ▸ hkey)
  exact h m hm

theorem accepts_properties {ms : List (JsString × JsValue)} {schemas : List (String × Schema)} :
    accepts formats.check (.properties schemas) (.record ms) = true ↔
      ∀ p ∈ schemas, Props.get (members ms) (js p.1) = .undefined ∨
        accepts formats.check p.2 (Props.get (members ms) (js p.1)) = true :=
  acceptsProperties_iff

theorem accepts_required {ms : List (JsString × JsValue)} {keys : List String} :
    accepts formats.check (.required keys) (.record ms) = true ↔
      ∀ key ∈ keys, (Props.get (members ms) (js key)).isDefined = true := by
  simp only [accepts, onObject, JsValue.record, List.all_eq_true]
  rfl

theorem accepts_optional {schema : Schema} {α : Type} {a : Option α} {toValue : α → JsValue}
    {v : JsValue} (hv : v = (a.map toValue).getD .undefined)
    (h : ∀ b ∈ a, accepts formats.check schema (toValue b) = true) :
    v = .undefined ∨ accepts formats.check schema v = true := by
  cases a with
  | none => exact .inl hv
  | some b => exact .inr (hv ▸ h b rfl)

open Schema in
def requirementProperties : List (String × Schema) :=
  [("permissionScopes", uniqueArray (boundedString 1 256)),
    ("minimumIsolationLevel", .enum [js "PROCESS_RESTRICTED", js "OS_SANDBOXED",
      js "CONTAINER_ISOLATED", js "REMOTE_ISOLATED"]),
    ("timeoutMs", .all [.type .integer, .minimum 1]),
    ("maxConcurrency", .all [.type .integer, .minimum 1]),
    ("postVerificationRequired", .type .boolean)]

theorem accepts_requirementProperties {r : PolicyRequirements}
    (h : ∀ s ∈ r.permissionScopes, s.holes = 0) {keys : List String}
    (hkeys : requirementProperties.map Prod.fst ⊆ keys) {schemas : List (String × Schema)}
    (hschemas : ∀ p ∈ schemas, p ∈ requirementProperties ∨
      js p.1 ∉ (requirementProperties.map Prod.fst).map js) :
    accepts formats.check (.all [.type .object, .closed keys, .properties schemas]) r.toValue =
      true := by
  have hrecord : r.toValue = .record (optionals (requirementFields r)) := requirements_toValue r
  have hnames : (requirementFields r).map Prod.fst = requirementProperties.map Prod.fst := rfl
  have hnodup : ((requirementProperties.map Prod.fst).map js).Nodup := by decide
  have hget := @get_optionals (requirementFields r) hnodup
  simp only [requirementFields, List.forall_mem_cons] at hget
  obtain ⟨hscopes, hlevel, htimeout, hconcurrency, hflag, -⟩ := hget
  have hown : ∀ p ∈ requirementProperties,
      Props.get (members (optionals (requirementFields r))) (js p.1) = .undefined ∨
        accepts formats.check p.2
          (Props.get (members (optionals (requirementFields r))) (js p.1)) = true := by
    simp only [requirementProperties, List.forall_mem_cons]
    refine ⟨accepts_optional hscopes fun s hs => accepts_scopes (h s hs),
      accepts_optional hlevel fun level _ => ?_,
      accepts_optional htimeout fun n _ => accepts_positiveInteger n,
      accepts_optional hconcurrency fun n _ => accepts_positiveInteger n,
      accepts_optional hflag fun b _ => rfl, by simp⟩
    refine accepts_enum.mpr ?_
    cases level <;> simp [Named.text]
  rw [hrecord]
  refine accepts_all.mpr ?_
  simp only [List.forall_mem_cons]
  refine ⟨rfl, accepts_closed fun m hm => ?_, accepts_properties.mpr fun p hp => ?_, by simp⟩
  · exact List.map_subset js (hnames ▸ hkeys) (keys_optionals m hm)
  · rcases hschemas p hp with hmem | habsent
    · exact hown p hmem
    · exact .inl (get_optionals_absent habsent)

theorem accepts_requirements {r : PolicyRequirements}
    (h : ∀ s ∈ r.permissionScopes, s.holes = 0) :
    accepts formats.check requirementsSchema r.toValue = true := by
  refine accepts_requirementProperties h (by simp [requirementProperties]) ?_
  have hverification : js "verificationProfileRefs" ∉
      (requirementProperties.map Prod.fst).map js := by decide
  have happroval : js "approvalProfileRefs" ∉
      (requirementProperties.map Prod.fst).map js := by decide
  simp only [List.forall_mem_cons]
  exact ⟨.inl (by simp [requirementProperties]), .inl (by simp [requirementProperties]),
    .inr hverification, .inr happroval, .inl (by simp [requirementProperties]),
    .inl (by simp [requirementProperties]), .inl (by simp [requirementProperties]), by simp⟩

theorem decision_record (d : PolicyDecision) : ∃ ms, d.toValue = .record ms ∧
    ms.map Prod.fst = [js "schemaVersion", js "decisionId", js "outcome", js "policySnapshotId",
      js "policySnapshotHash", js "inputHash", js "matchedRuleIds", js "hardInvariantIds",
      js "requirements", js "reasonCodes", js "residualRiskRefs", js "evaluatedAt",
      js "evaluatorVersion"] ∧
    Props.get (members ms) (js "schemaVersion") = .string (js "1.0.0") ∧
    Props.get (members ms) (js "decisionId") = .string d.decisionId ∧
    Props.get (members ms) (js "outcome") = .string (Named.text d.outcome) ∧
    Props.get (members ms) (js "policySnapshotId") = .string d.policySnapshotId ∧
    Props.get (members ms) (js "policySnapshotHash") = .string d.policySnapshotHash ∧
    Props.get (members ms) (js "inputHash") = .string d.inputHash.text ∧
    Props.get (members ms) (js "matchedRuleIds") = .ofStrings d.matchedRuleIds ∧
    Props.get (members ms) (js "hardInvariantIds") = .ofStrings d.hardInvariantIds ∧
    Props.get (members ms) (js "requirements") = d.requirements.toValue ∧
    Props.get (members ms) (js "reasonCodes") = .ofStrings d.reasonCodes ∧
    Props.get (members ms) (js "residualRiskRefs") = .ofStrings [] ∧
    Props.get (members ms) (js "evaluatedAt") = .string d.evaluatedAt ∧
    Props.get (members ms) (js "evaluatorVersion") = .string policyEvaluatorVersion :=
  ⟨_, rfl, rfl, rfl, rfl, rfl, rfl, rfl, rfl, rfl, rfl, rfl, rfl, rfl, rfl, rfl⟩

theorem accepts_nonEmpty {r : PolicyRequirements} (h : r.nonEmpty = true) :
    accepts formats.check (.minProperties 1) r.toValue = true := by
  have hrecord : r.toValue = .record (optionals (requirementFields r)) := requirements_toValue r
  have hsome : ∃ key v, (key, v) ∈ optionals (requirementFields r) := by
    simp only [PolicyRequirements.nonEmpty, Bool.or_eq_true, Option.isSome_iff_exists] at h
    rcases h with (((⟨a, ha⟩ | ⟨a, ha⟩) | ⟨a, ha⟩) | ⟨a, ha⟩) | ⟨a, ha⟩
    all_goals
      simp only [optionals, requirementFields, ha, List.flatMap_cons, optional, Option.map_some,
        Option.toList_some, List.mem_append, List.mem_singleton, Prod.mk.injEq]
      grind
  obtain ⟨key, v, hmem⟩ := hsome
  rw [hrecord]
  simp only [accepts, onObject, JsValue.record, decide_eq_true_eq]
  have hkey : key ∈ Props.keys (members (optionals (requirementFields r))) := by
    rw [keys_members]
    exact List.mem_map.mpr ⟨_, hmem, rfl⟩
  exact List.length_pos_of_mem hkey

theorem accepts_nonEmptyStrings {strings : List JsString} (h : strings ≠ []) :
    accepts formats.check (.minItems 1) (.ofStrings strings) = true := by
  simp only [accepts, onArray, JsValue.ofStrings, List.length_map, decide_eq_true_eq]
  exact List.length_pos_iff.mpr h

theorem accepts_decision {d : PolicyDecision} (h : DecisionFields d) :
    accepts formats.check policyDecisionSchema d.toValue = true ↔
      DateTime.validDateTime d.evaluatedAt = true := by
  have hbounded (strings : List JsString) (hnodup : strings.Nodup)
      (hs : ∀ s ∈ strings, 1 ≤ s.length ∧ s.length ≤ 256) :
      accepts formats.check (uniqueArray (boundedString 1 256)) (.ofStrings strings) = true :=
    accepts_uniqueStrings hnodup fun t ht => accepts_boundedString.mpr
      ⟨JsString.codePoints_pos (hs t ht).1, (JsString.codePoints_le_length t).trans (hs t ht).2⟩
  have hreasons : accepts formats.check (uniqueArray Schema.stableCode)
      (.ofStrings d.reasonCodes) = true := by
    refine accepts_uniqueStrings h.reasonCodes fun t ht => ?_
    obtain ⟨hstable, hlong, hshort⟩ := h.reasonCodes_stable t ht
    have hlength := (Pattern.stableCode_ascii hstable).codePoints_eq
    simp [Schema.stableCode, accepts, acceptsAll, hasType, onString, hlength, hlong, hshort]
    exact hstable
  have houtcomes : Named.text d.outcome ∈ [js "ALLOW", js "ALLOW_WITH_REQUIREMENTS", js "DENY",
      js "INDETERMINATE"] := by
    cases d.outcome <;> simp [Named.text]
  have hrequired : Named.text d.outcome = js "ALLOW_WITH_REQUIREMENTS" →
      accepts formats.check (.minProperties 1) d.requirements.toValue = true := by
    intro houtcome
    refine accepts_nonEmpty (h.required ?_)
    exact Named.text_injective _ Outcome.allowWithRequirements houtcome
  have hexplained : Named.text d.outcome ∈ [js "DENY", js "INDETERMINATE"] →
      accepts formats.check (.minItems 1) (.ofStrings d.reasonCodes) = true := by
    intro houtcome
    refine accepts_nonEmptyStrings (h.explained ?_)
    rcases List.mem_pair.mp houtcome with houtcome | houtcome
    · exact .inl (Named.text_injective _ Outcome.deny houtcome)
    · exact .inr (Named.text_injective _ Outcome.indeterminate houtcome)
  have hversion : Pattern.semver.test policyEvaluatorVersion = true := by decide
  obtain ⟨ms, hms, hkeys, hschema, hid, houtcome, hsnapshotId, hsnapshotHash, hinputHash, hmatched,
    hinvariants, hrequirements, hreasonsGet, hrisks, htimeGet, hversionGet⟩ := decision_record d
  have hclosed : accepts formats.check (.closed ["schemaVersion", "decisionId", "outcome",
      "policySnapshotId", "policySnapshotHash", "inputHash", "matchedRuleIds", "hardInvariantIds",
      "requirements", "reasonCodes", "residualRiskRefs", "evaluatedAt", "evaluatorVersion"])
      (.record ms) = true := by
    refine accepts_closed fun m hm => ?_
    have hkey : m.1 ∈ ms.map Prod.fst := List.mem_map_of_mem hm
    rw [hkeys] at hkey
    exact hkey
  rw [hms, policyDecisionSchema, accepts_all]
  simp only [List.forall_mem_cons, List.not_mem_nil, false_imp_iff, implies_true, and_true,
    hclosed, accepts_required, accepts_properties, accepts_ifThen, accepts_all, hschema, hid,
    houtcome, hsnapshotId, hsnapshotHash, hinputHash, hmatched, hinvariants, hrequirements,
    hreasonsGet, hrisks, htimeGet, hversionGet, accepts_enum, accepts_const, true_and]
  constructor
  · rintro ⟨-, -, ⟨-, -, -, -, -, -, -, -, -, -, -, htime, -⟩, -⟩
    rw [accepts_dateTime, formats.dateTime] at htime
    exact htime.resolve_left (by simp)
  · intro htime
    refine ⟨rfl, by simp [isDefined, JsValue.ofStrings, PolicyRequirements.toValue, JsValue.record],
      ⟨.inr trivial, .inr (accepts_pattern.mpr h.decisionId), .inr houtcomes,
      .inr (accepts_pattern.mpr h.policySnapshotId), .inr (accepts_pattern.mpr h.policySnapshotHash),
      .inr (accepts_pattern.mpr d.inputHash.hex),
      .inr (hbounded _ h.matchedRuleIds h.matchedRuleIds_bounded),
      .inr (hbounded _ h.hardInvariantIds h.hardInvariantIds_bounded),
      .inr (accepts_requirements h.scopes), .inr hreasons,
      .inr (accepts_uniqueStrings List.nodup_nil (by simp)),
      .inr (accepts_dateTime.mpr (formats.dateTime ▸ htime)), .inr (accepts_pattern.mpr hversion)⟩,
      fun hcondition => .inr (hrequired (hcondition.1.resolve_left (by simp))),
      fun hcondition => .inr (hexplained (hcondition.1.resolve_left (by simp)))⟩

end Schema

section Fields

variable {host : Host} {snapshot inputProps : Props} {hash : HexDigest}

theorem stringOr_test {v : JsValue} {test : JsString → Bool} {fallback : JsString}
    (h : test fallback = true) : test (stringOr v test fallback) = true := by
  unfold stringOr matchingString
  cases hv : v.isString.filter test with
  | none => exact h
  | some s => exact (Option.filter_eq_some_iff.mp hv).2

theorem decision_fields {outcome : Outcome} {matched invariants reasons : List JsString}
    {requirements : PolicyRequirements}
    (hmatched : matched.Nodup) (hmatchedLength : ∀ s ∈ matched, 1 ≤ s.length ∧ s.length ≤ 256)
    (hinvariants : invariants.Nodup)
    (hinvariantsLength : ∀ s ∈ invariants, 1 ≤ s.length ∧ s.length ≤ 256)
    (hscopes : ∀ s ∈ requirements.permissionScopes, s.holes = 0)
    (hreasons : ∀ s ∈ reasons, stableCode.test s = true ∧ 3 ≤ s.length ∧ s.length ≤ 128)
    (hrequired : outcome = .allowWithRequirements → requirements.nonEmpty = true)
    (hexplained : outcome = .deny ∨ outcome = .indeterminate → reasons ≠ []) :
    DecisionFields (createDecision snapshot inputProps outcome matched invariants requirements
      reasons hash) where
  decisionId := stringOr_test (by decide)
  policySnapshotId := stringOr_test (by decide)
  policySnapshotHash := stringOr_test (by decide)
  matchedRuleIds := (JsString.sort_perm _).nodup_iff.mpr hmatched
  matchedRuleIds_bounded s hs := hmatchedLength s ((JsString.sort_perm _).mem_iff.mp hs)
  hardInvariantIds := (JsString.sort_perm _).nodup_iff.mpr hinvariants
  hardInvariantIds_bounded s hs := hinvariantsLength s ((JsString.sort_perm _).mem_iff.mp hs)
  scopes := hscopes
  reasonCodes := (JsString.sort_perm _).nodup_iff.mpr (nodup_addStrings List.nodup_nil reasons)
  reasonCodes_stable s hs := hreasons s (mem_reasonCodes.mp hs)
  required := hrequired
  explained houtcome := by
    obtain ⟨reason, hreason⟩ := List.exists_mem_of_ne_nil _ (hexplained houtcome)
    exact List.ne_nil_of_mem (mem_reasonCodes.mpr hreason)

theorem indeterminate_fields {matched : List JsString} {reason : String}
    (hmatched : matched.Nodup) (hlength : ∀ s ∈ matched, 1 ≤ s.length ∧ s.length ≤ 256)
    (hreason : stableCode.test (js reason) = true ∧ 3 ≤ (js reason).length ∧
      (js reason).length ≤ 128) :
    DecisionFields (createDecision snapshot inputProps .indeterminate matched [] .none [js reason]
      hash) :=
  decision_fields hmatched hlength List.nodup_nil (by simp) nofun (by simpa using hreason) nofun
    (by simp)

theorem nodup_hardInvariantViolations (input : PolicyEvaluationInput) :
    (hardInvariantViolations input).Nodup := by
  refine (JsString.sort_perm _).nodup_iff.mpr ?_
  split <;> split <;> split <;> decide

theorem hardInvariantViolations_bounded (input : PolicyEvaluationInput) :
    ∀ s ∈ hardInvariantViolations input, 1 ≤ s.length ∧ s.length ≤ 256 := by
  have hall (s : JsString) (hs : s ∈ [js "NO_DIRECT_AUTHORITY_WRITE",
      js "R4_REQUIRES_VERIFIED_CONTROL", js "NO_SECRET_OUTBOUND"]) :
      1 ≤ s.length ∧ s.length ≤ 256 := by
    revert s
    decide
  intro s hs
  have hs := (JsString.sort_perm _).mem_iff.mp hs
  refine hall s ?_
  grind

theorem matchRules_sublist {input : PolicyEvaluationInput} {constants : Props}
    {rules matched : List CompiledPolicyRule} {result : List CompiledPolicyRule}
    (h : matchRules host input constants rules matched = .ok result ∨
      matchRules host input constants rules matched = .error result) :
    ∃ fired, fired.Sublist rules ∧ result = matched ++ fired := by
  induction rules generalizing matched with
  | nil =>
    refine ⟨[], List.nil_sublist _, ?_⟩
    rcases h with h | h
    · simpa using (Except.ok.inj h).symm
    · cases h
  | cons rule rules ih =>
    have hskip (h : matchRules host input constants rules matched = .ok result ∨
        matchRules host input constants rules matched = .error result) :
        ∃ fired, fired.Sublist (rule :: rules) ∧ result = matched ++ fired := by
      obtain ⟨fired, hfired, hresult⟩ := ih h
      exact ⟨fired, hfired.cons rule, hresult⟩
    unfold matchRules at h
    split at h
    · simp only at h
      split at h
      · rcases h with h | h
        · cases h
        · exact ⟨[], List.nil_sublist _, by simpa using (Except.error.inj h).symm⟩
      · split at h
        · obtain ⟨fired, hfired, hresult⟩ := ih h
          exact ⟨rule :: fired, hfired.cons_cons rule, by simpa using hresult⟩
        · exact hskip h
    · exact hskip h

theorem add_scopes {m m' : Merge} {q : PolicyRequirements} (h : Merge.add m q = some m')
    (hm : m.permissionScopes.holes = 0) (hq : ∀ s ∈ q.permissionScopes, s.holes = 0) :
    m'.permissionScopes.holes = 0 := by
  rw [Merge.add_eq] at h
  obtain ⟨isolation, -, rfl⟩ := Option.map_eq_some_iff.mp h
  cases hscopes : q.permissionScopes with
  | none => simpa [hscopes] using hm
  | some scopes => simp [UniqueStrings.union, hm, hq scopes hscopes]

theorem mergeRequirements_scopes {requirements : List PolicyRequirements}
    {merged : PolicyRequirements} (h : mergeRequirements requirements = some merged)
    (hscopes : ∀ q ∈ requirements, ∀ s ∈ q.permissionScopes, s.holes = 0) :
    ∀ s ∈ merged.permissionScopes, s.holes = 0 := by
  obtain ⟨m, hm, rfl⟩ := Option.map_eq_some_iff.mp h
  have hfold (requirements : List PolicyRequirements)
      (hscopes : ∀ q ∈ requirements, ∀ s ∈ q.permissionScopes, s.holes = 0) (m m' : Merge)
      (hm : m.permissionScopes.holes = 0) (h : requirements.foldlM Merge.add m = some m') :
      m'.permissionScopes.holes = 0 := by
    induction requirements generalizing m with
    | nil => exact Option.some.inj h ▸ hm
    | cons q requirements ih =>
      obtain ⟨hq, hrest⟩ := List.forall_mem_cons.mp hscopes
      rw [List.foldlM_cons, Option.bind_eq_bind, Option.bind_eq_some_iff] at h
      obtain ⟨next, hadd, h⟩ := h
      exact ih hrest next (add_scopes hadd hm hq) h
  have hholes := hfold requirements hscopes _ m rfl hm
  intro s hs
  simp only [Merge.value] at hs
  split at hs
  · obtain rfl := Option.some.inj hs
    exact hholes
  · cases hs

theorem compiled_scopes {v : JsValue} {s : CompileSuccess} (h : compilePolicySet host v = .ok s) :
    ∀ r ∈ s.value.rules, ∀ scopes ∈ r.requirements.permissionScopes, scopes.holes = 0 := by
  obtain ⟨-, -, -, htext, -⟩ := compilePolicySet_eq_ok.mp h
  have hcanonical : Canonical host s.value.toValue := ⟨s.canonicalJson, htext⟩
  have hrules := (hcanonical.member (js "rules",
    .array (s.value.rules.map (fun r => (.data, r.toValue)) ++
      List.replicate s.value.holes (.data, .undefined)) []) (by simp)).slot
  intro r hr scopes hscopes
  have hrule : Canonical host r.toValue :=
    (hrules (.data, r.toValue) (List.mem_append_left _ (List.mem_map_of_mem hr))).2
  have hrequirements := hrule.member (js "requirements", r.requirements.toValue) (by simp)
  have hmember := hrequirements.member (js "permissionScopes", scopes.toValue)
    (by simp [optional, Option.mem_def.mp hscopes])
  exact hmember.stringSet

theorem evaluateRules_fields {input : PolicyEvaluationInput} {v : JsValue} {s : CompileSuccess}
    (h : compilePolicySet host v = .ok s) :
    DecisionFields (evaluateRules host snapshot inputProps input s.value hash) := by
  obtain ⟨hacceptable, hsource, -⟩ := compilePolicySet_eq_ok.mp h
  have hdistinct := (compileSource_compiled hacceptable hsource).distinct
  have hscopes := compiled_scopes h
  have hids {matched : List CompiledPolicyRule} (hsublist : matched.Sublist s.value.rules) :
      (ruleIds matched).Nodup ∧ ∀ t ∈ ruleIds matched, 1 ≤ t.length ∧ t.length ≤ 256 := by
    refine ⟨hdistinct.sublist (hsublist.map _), fun t ht => ?_⟩
    obtain ⟨rule, -, rfl⟩ := List.mem_map.mp ht
    exact ⟨rule.ruleId.long, (rule.ruleId.short 128 rfl).trans (by decide)⟩
  unfold evaluateRules
  cases hmatch : matchRules host input s.value.constants s.value.rules [] with
  | error matched =>
    obtain ⟨fired, hfired, rfl⟩ := matchRules_sublist (.inr hmatch)
    exact indeterminate_fields (hids hfired).1 (hids hfired).2 (by decide)
  | ok matched =>
    obtain ⟨fired, hfired, rfl⟩ := matchRules_sublist (.inl hmatch)
    simp only
    split
    · rename_i hdenied
      refine decision_fields (hids hfired).1 (hids hfired).2 List.nodup_nil (by simp) nofun ?_ nofun
        fun _ => ?_
      · intro reason hreason
        obtain ⟨rule, -, rfl⟩ := List.mem_map.mp hreason
        exact ⟨rule.reasonCode.matching _ rfl, rule.reasonCode.long, rule.reasonCode.short 128 rfl⟩
      · exact List.ne_nil_of_length_pos (by rwa [List.length_map])
    · split
      · exact decision_fields List.nodup_nil (by simp) List.nodup_nil (by simp) nofun
          (by simp; decide) nofun (by simp)
      · have hallowed : (matched.filter
            fun rule => rule.ruleEffect = .allow).Sublist s.value.rules :=
          List.filter_sublist.trans hfired
        split
        · exact indeterminate_fields (hids hallowed).1 (hids hallowed).2 (by decide)
        · rename_i merged hmerged
          refine decision_fields (hids hallowed).1 (hids hallowed).2 List.nodup_nil (by simp) ?_
            (by simp) ?_ ?_
          · refine mergeRequirements_scopes hmerged fun q hq => ?_
            obtain ⟨rule, hrule, rfl⟩ := List.mem_map.mp hq
            exact hscopes rule (hallowed.subset hrule)
          · intro houtcome
            split at houtcome
            · assumption
            · cases houtcome
          · intro houtcome
            split at houtcome <;> simp at houtcome

theorem evaluatePolicy_fields (host : Host) (snapshotValue inputValue : JsValue) :
    DecisionFields (evaluatePolicy host snapshotValue inputValue) := by
  unfold evaluatePolicy
  split
  · simp only
    split
    · unfold evaluateValid
      split
      · split
        · exact indeterminate_fields List.nodup_nil (by simp) (by decide)
        · split
          · exact indeterminate_fields List.nodup_nil (by simp) (by decide)
          · split
            · exact decision_fields List.nodup_nil (by simp) (nodup_hardInvariantViolations _)
                (hardInvariantViolations_bounded _) nofun (by simp; decide) nofun (by simp)
            · rename_i hcompile _ _
              exact evaluateRules_fields hcompile
      · exact indeterminate_fields List.nodup_nil (by simp) (by decide)
    · exact indeterminate_fields List.nodup_nil (by simp) (by decide)
  · exact indeterminate_fields List.nodup_nil (by simp) (by decide)

end Fields

section Timestamps

variable {host : Host} {snapshot input : JsValue}

def LeapSecondInside (s : JsString) : Prop :=
  ∃ f, DateTime.rfc3339DateTime s = some f ∧ DateTime.calendarValid f = true ∧ f.second = 60 ∧
    DateTime.endsMonth f = false

def LeapSecondCaptured (snapshot input : JsValue) : Prop :=
  Acceptable snapshot ∧ Acceptable input ∧ ∃ props s, input.isRecord = some props ∧
    props.get (js "capturedAt") = .string s ∧ LeapSecondInside s

theorem validDateTime_iff {s : JsString} (h : isRfc3339DateTime s = true) :
    DateTime.validDateTime s = true ↔ ¬ LeapSecondInside s := by
  obtain ⟨f, hf, hvalid⟩ := Option.any_eq_true _ _ |>.mp h
  have hsecond : f.second ≤ 60 := by
    simp only [DateTime.calendarValid, Bool.and_eq_true, decide_eq_true_eq] at hvalid
    exact hvalid.1.1.2
  have hinside : LeapSecondInside s ↔ f.second = 60 ∧ DateTime.endsMonth f = false := by
    constructor
    · rintro ⟨g, hg, -, hleap⟩
      obtain rfl := Option.some.inj (hf.symm.trans hg)
      exact hleap
    · exact fun hleap => ⟨f, hf, hvalid, hleap⟩
  rw [hinside]
  cases hends : DateTime.endsMonth f with
  | false => simp [DateTime.validDateTime, hf, hvalid, hends]; omega
  | true => simp [DateTime.validDateTime, hf, hvalid, hends]

theorem evaluateRules_evaluatedAt {snapshotProps inputProps : Props} {i : PolicyEvaluationInput}
    {compiled : CompiledPolicySet} {hash : HexDigest} :
    (evaluateRules host snapshotProps inputProps i compiled hash).evaluatedAt =
      stringOr (inputProps.get (js "capturedAt")) isRfc3339DateTime fallbackTime := by
  unfold evaluateRules
  split
  · rfl
  · simp only
    split
    · rfl
    · split
      · rfl
      · split <;> rfl

open Classical in
theorem evaluatePolicy_evaluatedAt :
    (evaluatePolicy host snapshot input).evaluatedAt =
      if Acceptable snapshot ∧ Acceptable input then
        stringOr (Props.get (input.isRecord.getD []) (js "capturedAt")) isRfc3339DateTime
          fallbackTime
      else fallbackTime := by
  unfold evaluatePolicy
  split
  · rename_i hsnapshot hinput
    rw [if_pos ⟨(assertPolicyJson_iff _).mp hsnapshot, (assertPolicyJson_iff _).mp hinput⟩]
    simp only
    split
    · unfold evaluateValid
      split
      · split
        · rfl
        · split
          · rfl
          · split
            · rfl
            · exact evaluateRules_evaluatedAt
      · rfl
    · rfl
  · rename_i hnot
    rw [if_neg]
    · rfl
    · rintro ⟨hsnapshot, hinput⟩
      exact hnot () () ((assertPolicyJson_iff _).mpr hsnapshot) ((assertPolicyJson_iff _).mpr hinput)

theorem evaluatedAt_valid :
    DateTime.validDateTime (evaluatePolicy host snapshot input).evaluatedAt = true ↔
      ¬ LeapSecondCaptured snapshot input := by
  have hfallback : DateTime.validDateTime fallbackTime = true := by decide
  rw [evaluatePolicy_evaluatedAt]
  split
  · rename_i hacceptable
    have hinside : LeapSecondCaptured snapshot input ↔
        ∃ s, Props.get (input.isRecord.getD []) (js "capturedAt") = .string s ∧
          LeapSecondInside s := by
      constructor
      · rintro ⟨-, -, props, s, hprops, hget, hleap⟩
        exact ⟨s, by simpa [hprops] using hget, hleap⟩
      · rintro ⟨s, hget, hleap⟩
        cases hprops : input.isRecord with
        | none => simp [hprops, Props.get] at hget
        | some props =>
          exact ⟨hacceptable.1, hacceptable.2, props, s, hprops, by simpa [hprops] using hget, hleap⟩
    rw [hinside]
    generalize Props.get (input.isRecord.getD []) (js "capturedAt") = v
    unfold stringOr matchingString
    cases hcaptured : v.isString.filter isRfc3339DateTime with
    | none =>
      refine iff_of_true hfallback ?_
      rintro ⟨s, rfl, f, hf, hvalid, -⟩
      have hs : isRfc3339DateTime s = true := by simp [isRfc3339DateTime, hf, hvalid]
      simp [isString, hs] at hcaptured
    | some s =>
      obtain ⟨hstring, hs⟩ := Option.filter_eq_some_iff.mp hcaptured
      obtain rfl : v = .string s := by cases v <;> simp_all [isString]
      rw [Option.getD_some, validDateTime_iff hs]
      simp
  · rename_i hnot
    exact iff_of_true hfallback fun h => hnot ⟨h.1, h.2.1⟩

theorem decision_contract (formats : ContractFormats) (host : Host) (snapshot input : JsValue) :
    Schema.accepts formats.check policyDecisionSchema
        (evaluatePolicy host snapshot input).toValue = true ↔
      ¬ LeapSecondCaptured snapshot input :=
  (accepts_decision (evaluatePolicy_fields host snapshot input)).trans evaluatedAt_valid

def contractFormats : ContractFormats where
  check
    | .dateTime => DateTime.validDateTime
    | .uri => fun _ => true
  dateTime := rfl

def leapSecondInput : JsValue :=
  .record [(js "schemaVersion", .string (js "1.0.0")),
    (js "evaluationId", .string (js "01890a5d-ac96-774b-bcce-b302099a8058")),
    (js "capturedAt", .string (js "2026-01-15T12:00:60Z")),
    (js "policySnapshotId", .string (js "01890a5d-ac96-774b-bcce-b302099a8057")),
    (js "domain", .string (js "workspace")),
    (js "subjectType", .string (js "USER")),
    (js "action", .string (js "READ")),
    (js "resourceType", .string (js "FILE")),
    (js "riskClass", .string (js "R1")),
    (js "dataClassification", .string (js "INTERNAL")),
    (js "direction", .string (js "LOCAL")),
    (js "authorityMutation", .bool false),
    (js "controlVerified", .bool true),
    (js "permissionScopes", .ofStrings []),
    (js "capabilityIds", .ofStrings [])]

theorem leap_second_rejected : (validateInput leapSecondInput).isSome = true ∧
    Schema.accepts contractFormats.check policyDecisionSchema
      (evaluatePolicy sampleHost .null leapSecondInput).toValue = false := by
  refine ⟨by decide, ?_⟩
  rw [← Bool.not_eq_true, accepts_decision (evaluatePolicy_fields sampleHost .null leapSecondInput)]
  decide

end Timestamps

end Aseos.Policy
