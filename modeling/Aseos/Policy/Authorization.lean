import Aseos.Policy.Conditions
import Aseos.Policy.Requirements
import Aseos.Policy.RuleOrder

namespace Aseos.Policy

structure InputValid (host : Host) (value : JsValue) (input : PolicyEvaluationInput) : Prop where
  acceptable : Acceptable value
  hashed : ∃ digest, canonicalJsonSha256 host value = .ok digest
  valid : validateInput value = some input

structure SnapshotValid (host : Host) (value : JsValue) (input : PolicyEvaluationInput)
    (compiled : CompiledPolicySet) : Prop where
  acceptable : Acceptable value
  bound : ∃ props success, value.isRecord = some props ∧
    compilePolicySet host (props.get (js "compiledPolicySet")) = .ok success ∧
    success.value = compiled ∧
    validateSnapshot props input compiled success.sha256 = true

def Violates (input : PolicyEvaluationInput) : Prop :=
  input.authorityMutation = true ∨ (input.riskClass = .R4 ∧ input.controlVerified = false) ∨
    (input.dataClassification = .SECRET ∧ input.direction = .OUTBOUND)

def Applicable (input : PolicyEvaluationInput) (rule : CompiledPolicyRule) : Prop :=
  rule.domain.value = input.domain ∧ rule.action.value = input.action ∧
    input.subjectType ∈ rule.subjectTypes.strings ∧ input.resourceType ∈ rule.resourceTypes.strings

section Rules

variable (host : Host) (input : PolicyEvaluationInput) (compiled : CompiledPolicySet)

def AllTyped : Prop :=
  ∀ rule ∈ compiled.rules, Applicable input rule → rule.when.WellTyped input compiled.constants

def Matches (effect : RuleEffect) (rule : CompiledPolicyRule) : Prop :=
  rule ∈ compiled.rules ∧ Applicable input rule ∧ rule.when.Holds host input compiled.constants ∧
    rule.ruleEffect = effect

def allowedRequirements : Set PolicyRequirements :=
  {q | ∃ rule, Matches host input compiled .allow rule ∧ rule.requirements = q}

structure RulesPermit : Prop where
  typed : AllTyped input compiled
  undenied : ∀ rule, ¬ Matches host input compiled .deny rule
  allowed : ∃ rule, Matches host input compiled .allow rule
  compatible : Compatible (allowedRequirements host input compiled)

structure RulesDeny : Prop where
  typed : AllTyped input compiled
  denied : (∃ rule, Matches host input compiled .deny rule) ∨
    ∀ rule, ¬ Matches host input compiled .allow rule

end Rules

def Permitted (host : Host) (snapshot input : JsValue) (required : Prop) : Prop :=
  ∃ i compiled, InputValid host input i ∧ SnapshotValid host snapshot i compiled ∧ ¬ Violates i ∧
    RulesPermit host i compiled ∧
    ((∃ q ∈ allowedRequirements host i compiled, Demanding q) ↔ required)

def Denied (host : Host) (snapshot input : JsValue) : Prop :=
  ∃ i compiled, InputValid host input i ∧ SnapshotValid host snapshot i compiled ∧
    (Violates i ∨ RulesDeny host i compiled)

def SnapshotRulesPermuted : JsValue → JsValue → Prop := AtKey "compiledPolicySet" RulesPermuted

theorem hardInvariantViolations_length (input : PolicyEvaluationInput) :
    (hardInvariantViolations input).length > 0 ↔ Violates input := by
  have hlength (l : List JsString) : (JsString.sort l).length = l.length :=
    (JsString.sort_perm l).length_eq
  unfold hardInvariantViolations Violates
  rw [hlength]
  by_cases ha : input.authorityMutation = true <;>
    by_cases hr : input.riskClass = .R4 ∧ input.controlVerified = false <;>
    by_cases hd : input.dataClassification = .SECRET ∧ input.direction = .OUTBOUND <;>
    simp [ha, hr, hd]

section Matching

variable {host : Host} {input : PolicyEvaluationInput}

theorem selects_iff (rule : CompiledPolicyRule) :
    selects rule input = true ↔ Applicable input rule := by
  simp [selects, Applicable, and_assoc]

def fires (host : Host) (input : PolicyEvaluationInput) (constants : Props)
    (rule : CompiledPolicyRule) : Bool :=
  selects rule input && (evaluateCondition host input constants rule.when).matched

theorem matchRules_typed {constants : Props} {rules : List CompiledPolicyRule}
    (matched : List CompiledPolicyRule)
    (h : ∀ rule ∈ rules, Applicable input rule → rule.when.WellTyped input constants) :
    matchRules host input constants rules matched =
      .ok (matched ++ rules.filter (fires host input constants)) := by
  induction rules generalizing matched with
  | nil => simp [matchRules]
  | cons rule rules ih =>
    obtain ⟨hrule, hrules⟩ := List.forall_mem_cons.mp h
    cases hselects : selects rule input with
    | false => simp [matchRules, fires, hselects, ih matched hrules]
    | true =>
      have hok := (@evaluateCondition_spec host _ _ rule.when).1.mpr
        (hrule ((selects_iff rule).mp hselects))
      cases hmatched : (evaluateCondition host input constants rule.when).matched with
      | false => simp [matchRules, fires, hselects, hok, hmatched, ih matched hrules]
      | true => simp [matchRules, fires, hselects, hok, hmatched, ih (matched ++ [rule]) hrules]

theorem matchRules_untyped {constants : Props} {rules : List CompiledPolicyRule}
    (matched : List CompiledPolicyRule)
    (h : ∃ rule ∈ rules, Applicable input rule ∧ ¬ rule.when.WellTyped input constants) :
    ∃ before, matchRules host input constants rules matched = .error before := by
  induction rules generalizing matched with
  | nil => simp at h
  | cons rule rules ih =>
    obtain ⟨hok, -⟩ := @evaluateCondition_spec host input constants
      rule.when
    rcases List.exists_mem_cons_iff .. |>.mp h with ⟨happlicable, htyped⟩ | hrest
    · exact ⟨matched, by simp [matchRules, (selects_iff rule).mpr happlicable, hok.not.mpr htyped]⟩
    · unfold matchRules
      split
      · by_cases htyped : rule.when.WellTyped input constants
        · simp only [hok.mpr htyped, Bool.not_true, Bool.false_eq_true, if_false]
          split
          · exact ih _ hrest
          · exact ih _ hrest
        · exact ⟨matched, by simp [hok.not.mpr htyped]⟩
      · exact ih _ hrest

end Matching

section Outcomes

variable {host : Host} {input : PolicyEvaluationInput} {compiled : CompiledPolicySet}

def firing (host : Host) (input : PolicyEvaluationInput) (compiled : CompiledPolicySet)
    (effect : RuleEffect) : List CompiledPolicyRule :=
  (compiled.rules.filter (fires host input compiled.constants)).filter
    fun rule => rule.ruleEffect = effect

theorem mem_firing (htyped : AllTyped input compiled) (effect : RuleEffect)
    (rule : CompiledPolicyRule) :
    rule ∈ firing host input compiled effect ↔ Matches host input compiled effect rule := by
  simp only [firing, fires, List.mem_filter, Bool.and_eq_true, selects_iff, decide_eq_true_eq,
    Matches, and_assoc]
  refine and_congr_right fun hrule => and_congr_right fun happlicable => ?_
  rw [(evaluateCondition_spec rule.when).2 (htyped rule hrule happlicable)]

theorem firing_eq_nil (htyped : AllTyped input compiled) (effect : RuleEffect) :
    firing host input compiled effect = [] ↔ ∀ rule, ¬ Matches host input compiled effect rule := by
  simp only [List.eq_nil_iff_forall_not_mem, mem_firing htyped]

theorem allowedRequirements_eq (htyped : AllTyped input compiled) :
    allowedRequirements host input compiled =
      {q | q ∈ (firing host input compiled .allow).map CompiledPolicyRule.requirements} := by
  ext q
  simp [allowedRequirements, mem_firing htyped]

theorem evaluateRules_typed (htyped : AllTyped input compiled) (snapshot inputProps : Props)
    (hash : HexDigest) :
    (evaluateRules host snapshot inputProps input compiled hash).outcome =
      if firing host input compiled .deny ≠ [] then .deny
      else if firing host input compiled .allow = [] then .deny
      else match mergeRequirements
          ((firing host input compiled .allow).map CompiledPolicyRule.requirements) with
        | none => .indeterminate
        | some merged => if merged.nonEmpty then .allowWithRequirements else .allow := by
  unfold evaluateRules firing
  rw [matchRules_typed [] htyped]
  simp only [List.nil_append, gt_iff_lt, List.length_pos_iff, List.length_eq_zero_iff]
  generalize List.filter (fun rule : CompiledPolicyRule => decide (rule.ruleEffect = .deny)) _ =
    denied
  generalize List.filter (fun rule : CompiledPolicyRule => decide (rule.ruleEffect = .allow)) _ =
    allowed
  by_cases hdenied : denied ≠ []
  · rw [if_pos hdenied, if_pos hdenied]
    rfl
  rw [if_neg hdenied, if_neg hdenied]
  by_cases hallowed : allowed = []
  · rw [if_pos hallowed, if_pos hallowed]
    rfl
  rw [if_neg hallowed, if_neg hallowed]
  cases mergeRequirements (allowed.map CompiledPolicyRule.requirements) <;> rfl

theorem evaluateRules_untyped (htyped : ¬ AllTyped input compiled) (snapshot inputProps : Props)
    (hash : HexDigest) :
    (evaluateRules host snapshot inputProps input compiled hash).outcome = .indeterminate := by
  simp only [AllTyped, not_forall, exists_prop] at htyped
  obtain ⟨before, hbefore⟩ := matchRules_untyped [] htyped
  unfold evaluateRules
  rw [hbefore]
  rfl

theorem evaluateRules_permit (snapshot inputProps : Props) (hash : HexDigest)
    (h : RulesPermit host input compiled) :
    (evaluateRules host snapshot inputProps input compiled hash).outcome =
      open Classical in
      if ∃ q ∈ allowedRequirements host input compiled, Demanding q then .allowWithRequirements
      else .allow := by
  have hmerge := h.compatible
  rw [allowedRequirements_eq h.typed, ← mergeRequirements_isSome] at hmerge
  obtain ⟨merged, hmerged⟩ := Option.isSome_iff_exists.mp hmerge
  have hallowed : firing host input compiled .allow ≠ [] := by
    rw [Ne, firing_eq_nil h.typed]
    exact fun hnone => h.allowed.elim hnone
  have hundenied : firing host input compiled .deny = [] :=
    (firing_eq_nil h.typed .deny).mpr h.undenied
  rw [evaluateRules_typed h.typed, if_neg (not_not.mpr hundenied), if_neg hallowed, hmerged,
    allowedRequirements_eq h.typed]
  have hdemanding := mergeRequirements_nonEmpty hmerged
  by_cases hmore : merged.nonEmpty = true
  · exact (if_pos hmore).trans (if_pos (hdemanding.mp hmore)).symm
  · exact (if_neg hmore).trans (if_neg (hdemanding.not.mp hmore)).symm

theorem evaluateRules_deny (snapshot inputProps : Props) (hash : HexDigest)
    (h : RulesDeny host input compiled) :
    (evaluateRules host snapshot inputProps input compiled hash).outcome = .deny := by
  rw [evaluateRules_typed h.typed]
  split
  · rfl
  · rename_i hdeny
    rw [not_not, firing_eq_nil h.typed] at hdeny
    rcases h.denied with ⟨rule, hrule⟩ | hnone
    · exact absurd hrule (hdeny rule)
    · rw [if_pos ((firing_eq_nil h.typed .allow).mpr hnone)]

theorem evaluateRules_otherwise (snapshot inputProps : Props) (hash : HexDigest)
    (hpermit : ¬ RulesPermit host input compiled) (hdeny : ¬ RulesDeny host input compiled) :
    (evaluateRules host snapshot inputProps input compiled hash).outcome = .indeterminate := by
  by_cases htyped : AllTyped input compiled
  · have hundenied : firing host input compiled .deny = [] := by
      rw [firing_eq_nil htyped]
      exact fun rule hrule => hdeny ⟨htyped, .inl ⟨rule, hrule⟩⟩
    have hallowed : firing host input compiled .allow ≠ [] := by
      rw [Ne, firing_eq_nil htyped]
      exact fun hnone => hdeny ⟨htyped, .inr hnone⟩
    have hmerge : mergeRequirements
        ((firing host input compiled .allow).map CompiledPolicyRule.requirements) = none := by
      rw [← Option.not_isSome_iff_eq_none, mergeRequirements_isSome, ← allowedRequirements_eq htyped]
      intro hcompatible
      refine hpermit ⟨htyped, (firing_eq_nil htyped .deny).mp hundenied, ?_, hcompatible⟩
      by_contra hnone
      exact hallowed ((firing_eq_nil htyped .allow).mpr (not_exists.mp hnone))
    rw [evaluateRules_typed htyped, if_neg (by simpa using hundenied), if_neg hallowed, hmerge]
  · exact evaluateRules_untyped htyped snapshot inputProps hash

end Outcomes

section Validation

variable {host : Host} {snapshot input : JsValue} {i : PolicyEvaluationInput}
  {compiled : CompiledPolicySet}

theorem hashPolicyValue_ok (h : Acceptable input) :
    hashPolicyValue host input = ofCanonical (canonicalJsonSha256 host input) := by
  unfold hashPolicyValue
  rw [show assertPolicyJson input (js "$") = .ok () from h]
  rfl

theorem evaluatePolicy_valid (hi : InputValid host input i)
    (hs : SnapshotValid host snapshot i compiled) :
    ∃ snapshotProps inputProps hash, evaluatePolicy host snapshot input =
      open Classical in
      if Violates i then createDecision snapshotProps inputProps .deny []
        (hardInvariantViolations i) .none [js "HARD_INVARIANT_VIOLATION"] hash
      else evaluateRules host snapshotProps inputProps i compiled hash := by
  obtain ⟨digest, hdigest⟩ := hi.hashed
  obtain ⟨props, success, hprops, hcompile, rfl, hbound⟩ := hs.bound
  refine ⟨props, input.isRecord.getD [], digest, ?_⟩
  simp only [evaluatePolicy, (assertPolicyJson_iff _).mpr hs.acceptable,
    (assertPolicyJson_iff _).mpr hi.acceptable, hashPolicyValue_ok hi.acceptable, hdigest,
    ofCanonical, evaluateValid, hi.valid, hprops, hcompile, hbound, Bool.not_true,
    Bool.false_eq_true, if_false, Option.getD_some]
  by_cases hviolates : Violates i
  · rw [if_pos hviolates, if_pos ((hardInvariantViolations_length i).mpr hviolates)]
  · rw [if_neg hviolates, if_neg ((hardInvariantViolations_length i).not.mpr hviolates)]

theorem evaluatePolicy_invalid
    (h : ¬ ∃ i compiled, InputValid host input i ∧ SnapshotValid host snapshot i compiled) :
    (evaluatePolicy host snapshot input).outcome = .indeterminate := by
  unfold evaluatePolicy
  split
  · rename_i hsnapshot hinput
    have hsnapshot := (assertPolicyJson_iff _).mp hsnapshot
    have hinput := (assertPolicyJson_iff _).mp hinput
    simp only [hashPolicyValue_ok hinput]
    cases hdigest : canonicalJsonSha256 host input with
    | error e => rfl
    | ok digest =>
      simp only [ofCanonical, evaluateValid]
      split
      · rename_i j props hvalid hprops
        split
        · rfl
        · rename_i success hcompile
          cases hbound : validateSnapshot props j success.value success.sha256 with
          | false => rfl
          | true =>
            exact absurd ⟨j, success.value, ⟨hinput, ⟨digest, hdigest⟩, hvalid⟩, hsnapshot,
              props, success, hprops, hcompile, rfl, hbound⟩ h
      · rfl
  · rfl

theorem InputValid.unique {j : PolicyEvaluationInput} (hi : InputValid host input i)
    (hj : InputValid host input j) : i = j :=
  Option.some.inj (hi.valid.symm.trans hj.valid)

theorem SnapshotValid.unique {compiled' : CompiledPolicySet}
    (h : SnapshotValid host snapshot i compiled) (h' : SnapshotValid host snapshot i compiled') :
    compiled = compiled' := by
  obtain ⟨props, success, hprops, hcompile, rfl, -⟩ := h.bound
  obtain ⟨props', success', hprops', hcompile', rfl, -⟩ := h'.bound
  obtain rfl := Option.some.inj (hprops.symm.trans hprops')
  exact congrArg CompileSuccess.value (Except.ok.inj (hcompile.symm.trans hcompile'))

end Validation

section Decision

variable {host : Host} {snapshot input : JsValue}

theorem outcome_cases {i : PolicyEvaluationInput} {compiled : CompiledPolicySet}
    (hi : InputValid host input i) (hs : SnapshotValid host snapshot i compiled) :
    (evaluatePolicy host snapshot input).outcome =
      open Classical in
      if Violates i ∨ RulesDeny host i compiled then .deny
      else if RulesPermit host i compiled then
        if ∃ q ∈ allowedRequirements host i compiled, Demanding q then .allowWithRequirements
        else .allow
      else .indeterminate := by
  obtain ⟨props, inputProps, hash, hdecision⟩ := evaluatePolicy_valid hi hs
  rw [hdecision]
  by_cases hviolates : Violates i
  · simp [hviolates, createDecision]
  by_cases hdeny : RulesDeny host i compiled
  · simp [hviolates, hdeny, evaluateRules_deny props inputProps hash hdeny]
  by_cases hpermit : RulesPermit host i compiled
  · simp [hviolates, hdeny, hpermit, evaluateRules_permit props inputProps hash hpermit]
  · simp [hviolates, hdeny, hpermit, evaluateRules_otherwise props inputProps hash hpermit hdeny]

theorem RulesPermit.not_deny {i : PolicyEvaluationInput} {compiled : CompiledPolicySet}
    (h : RulesPermit host i compiled) : ¬ RulesDeny host i compiled := by
  rintro ⟨-, ⟨rule, hrule⟩ | hnone⟩
  · exact h.undenied rule hrule
  · exact h.allowed.elim hnone

theorem permitted_iff {i : PolicyEvaluationInput} {compiled : CompiledPolicySet}
    (hi : InputValid host input i) (hs : SnapshotValid host snapshot i compiled) (required : Prop) :
    Permitted host snapshot input required ↔ ¬ Violates i ∧ RulesPermit host i compiled ∧
      ((∃ q ∈ allowedRequirements host i compiled, Demanding q) ↔ required) := by
  constructor
  · rintro ⟨j, compiled', hj, hs', hrest⟩
    obtain rfl := hi.unique hj
    obtain rfl := hs.unique hs'
    exact hrest
  · exact fun hrest => ⟨i, compiled, hi, hs, hrest⟩

theorem denied_iff {i : PolicyEvaluationInput} {compiled : CompiledPolicySet}
    (hi : InputValid host input i) (hs : SnapshotValid host snapshot i compiled) :
    Denied host snapshot input ↔ Violates i ∨ RulesDeny host i compiled := by
  constructor
  · rintro ⟨j, compiled', hj, hs', hrest⟩
    obtain rfl := hi.unique hj
    obtain rfl := hs.unique hs'
    exact hrest
  · exact fun hrest => ⟨i, compiled, hi, hs, hrest⟩

theorem outcome_iff :
    ((evaluatePolicy host snapshot input).outcome = .allow ↔
      Permitted host snapshot input False) ∧
    ((evaluatePolicy host snapshot input).outcome = .allowWithRequirements ↔
      Permitted host snapshot input True) ∧
    ((evaluatePolicy host snapshot input).outcome = .deny ↔ Denied host snapshot input) := by
  by_cases h : ∃ i compiled, InputValid host input i ∧ SnapshotValid host snapshot i compiled
  · obtain ⟨i, compiled, hi, hs⟩ := h
    rw [outcome_cases hi hs, permitted_iff hi hs, permitted_iff hi hs, denied_iff hi hs]
    have hexclusive := @RulesPermit.not_deny host i compiled
    split
    · simp_all
      tauto
    · split
      · split <;> simp_all
      · simp_all
  · rw [evaluatePolicy_invalid h]
    refine ⟨iff_of_false nofun ?_, iff_of_false nofun ?_, iff_of_false nofun ?_⟩
    · rintro ⟨i, compiled, hi, hs, -⟩
      exact h ⟨i, compiled, hi, hs⟩
    · rintro ⟨i, compiled, hi, hs, -⟩
      exact h ⟨i, compiled, hi, hs⟩
    · rintro ⟨i, compiled, hi, hs, -⟩
      exact h ⟨i, compiled, hi, hs⟩

theorem acceptable_snapshotRulesPermuted {v v' : JsValue} (h : SnapshotRulesPermuted v v') :
    Acceptable v ↔ Acceptable v' :=
  acceptable_atKey (fun _ _ => acceptable_rulesPermuted) h

theorem createDecision_congr {props props' : Props}
    (hid : props.get (js "snapshotId") = props'.get (js "snapshotId"))
    (hhash : props.get (js "policyHash") = props'.get (js "policyHash")) :
    createDecision props = createDecision props' := by
  funext
  simp only [createDecision, hid, hhash]

theorem validateSnapshot_congr {props props' : Props} (hown : props.ownKeys = props'.ownKeys)
    (hget : ∀ key, key ≠ js "compiledPolicySet" → props.get key = props'.get key) :
    validateSnapshot props = validateSnapshot props' := by
  funext
  simp only [validateSnapshot, hasExactKeys, hown,
    hget (js "schemaVersion") (by decide), hget (js "snapshotId") (by decide),
    hget (js "policySetId") (by decide), hget (js "policyVersion") (by decide),
    hget (js "policyHash") (by decide), hget (js "compilerVersion") (by decide),
    hget (js "createdAt") (by decide)]

theorem evaluatePolicy_rulesPermuted {snapshot' : JsValue}
    (h : SnapshotRulesPermuted snapshot snapshot') :
    evaluatePolicy host snapshot' input = evaluatePolicy host snapshot input := by
  have hacceptable := acceptable_snapshotRulesPermuted h
  by_cases hsnapshot : Acceptable snapshot
  · have hok := (assertPolicyJson_iff (js "$/snapshot")).mpr hsnapshot
    have hok' := (assertPolicyJson_iff (js "$/snapshot")).mpr (hacceptable.mp hsnapshot)
    rcases h.isRecord with ⟨hnone, hnone'⟩ | ⟨props, props', rfl, rfl, hown, -, hget, hset⟩
    · simp only [evaluatePolicy, hok, hok', evaluateValid, hnone, hnone']
    · have hdecision := createDecision_congr (hget (js "snapshotId") (by decide))
        (hget (js "policyHash") (by decide))
      have hvalidate := validateSnapshot_congr hown hget
      have hcompile : Agrees Eq (compilePolicySet host (props.get (js "compiledPolicySet")))
          (compilePolicySet host (props'.get (js "compiledPolicySet"))) := by
        rcases hset with heq | hpermuted
        · exact .of_eq (by rw [heq])
        · exact compilePolicySet_rulesPermuted host hpermuted
      have hvalid (inputProps : Props) (hash : HexDigest) :
          evaluateValid host (.object true props') input props' inputProps hash =
            evaluateValid host (.object true props) input props inputProps hash := by
        unfold evaluateValid evaluateRules
        cases validateInput input with
        | none => simp only [hdecision]
        | some i =>
          simp only [JsValue.isRecord, hdecision, hvalidate]
          generalize compilePolicySet host (props.get (js "compiledPolicySet")) = x at hcompile
          generalize compilePolicySet host (props'.get (js "compiledPolicySet")) = x' at hcompile
          cases hcompile with
          | ok heq => rw [heq]
          | error e e' => rfl
      simp only [evaluatePolicy, hok, hok', JsValue.isRecord, Option.getD_some, hvalid, hdecision]
  · have hfail (v : JsValue) (hv : ¬ Acceptable v) :
        ∃ e, assertPolicyJson v (js "$/snapshot") = .error e := by
      cases hx : assertPolicyJson v (js "$/snapshot") with
      | ok u => exact absurd ((assertPolicyJson_iff _).mp hx) hv
      | error e => exact ⟨e, rfl⟩
    obtain ⟨e, he⟩ := hfail snapshot hsnapshot
    obtain ⟨e', he'⟩ := hfail snapshot' (fun hv => hsnapshot (hacceptable.mpr hv))
    simp only [evaluatePolicy, he, he']

theorem evaluatePolicy_authorization (host : Host) (snapshot input : JsValue) :
    ((evaluatePolicy host snapshot input).outcome = .allow ↔
      Permitted host snapshot input False) ∧
    ((evaluatePolicy host snapshot input).outcome = .allowWithRequirements ↔
      Permitted host snapshot input True) ∧
    ((evaluatePolicy host snapshot input).outcome = .deny ↔ Denied host snapshot input) ∧
    ((evaluatePolicy host snapshot input).outcome = .indeterminate ↔
      (∀ required, ¬ Permitted host snapshot input required) ∧ ¬ Denied host snapshot input) ∧
    ∀ snapshot', SnapshotRulesPermuted snapshot snapshot' →
      evaluatePolicy host snapshot' input = evaluatePolicy host snapshot input := by
  obtain ⟨hallow, hrequire, hdeny⟩ := outcome_iff
  refine ⟨hallow, hrequire, hdeny, ?_, fun _ => evaluatePolicy_rulesPermuted⟩
  have hpermitted : (∀ required, ¬ Permitted host snapshot input required) ↔
      ¬ Permitted host snapshot input False ∧ ¬ Permitted host snapshot input True := by
    refine ⟨fun h => ⟨h False, h True⟩, fun ⟨hfalse, htrue⟩ required => ?_⟩
    by_cases hr : required
    · rwa [eq_true hr]
    · rwa [eq_false hr]
  rw [hpermitted, ← hallow, ← hrequire, ← hdeny]
  cases (evaluatePolicy host snapshot input).outcome <;> simp

end Decision

end Aseos.Policy
