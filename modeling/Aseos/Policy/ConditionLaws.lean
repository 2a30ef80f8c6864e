import Aseos.Contracts.CanonicalForm
import Aseos.Policy.Contract

namespace Aseos.Policy

def GroupOperator.dual : GroupOperator → GroupOperator
  | .all => .any
  | .any => .all

structure LeafCondition where
  operator : LeafOperator
  reference : JsString
  operand : Option JsValue

def LeafCondition.WellTyped (input : PolicyEvaluationInput) (constants : Props)
    (leaf : LeafCondition) : Prop :=
  actualValue input constants leaf.reference ≠ .undefined ∧
    LeafTyped leaf.operator (actualValue input constants leaf.reference)
      (leaf.operand.getD .undefined)

def LeafCondition.compared (input : PolicyEvaluationInput) (constants : Props)
    (leaf : LeafCondition) : List JsValue :=
  let actual := actualValue input constants leaf.reference
  let expected := leaf.operand.getD .undefined
  actual :: expected :: (elements actual ++ elements expected)

namespace PolicyCondition

mutual

def leaves : PolicyCondition → List LeafCondition
  | group _ conditions _ => leavesOf conditions
  | not condition => leaves condition
  | leaf operator reference operand => [⟨operator, reference, operand⟩]

def leavesOf : List PolicyCondition → List LeafCondition
  | [] => []
  | c :: conditions => leaves c ++ leavesOf conditions

end

theorem mem_leavesOf {conditions : List PolicyCondition} {leaf : LeafCondition} :
    leaf ∈ leavesOf conditions ↔ ∃ c ∈ conditions, leaf ∈ c.leaves := by
  induction conditions with
  | nil => simp [leavesOf]
  | cons c conditions ih => simp [leavesOf, ih]

mutual

theorem wellTyped_iff {input : PolicyEvaluationInput} {constants : Props} :
    ∀ c : PolicyCondition,
      WellTyped input constants c ↔ ∀ leaf ∈ c.leaves, leaf.WellTyped input constants
  | group _ conditions _ => by
    simpa only [WellTyped, leaves] using allWellTyped_iff conditions
  | not condition => by
    simpa only [WellTyped, leaves] using wellTyped_iff condition
  | leaf operator reference operand => by
    simp only [WellTyped, leaves, List.forall_mem_singleton, LeafCondition.WellTyped]

theorem allWellTyped_iff {input : PolicyEvaluationInput} {constants : Props} :
    ∀ conditions : List PolicyCondition, AllWellTyped input constants conditions ↔
      ∀ leaf ∈ leavesOf conditions, leaf.WellTyped input constants
  | [] => by simp [AllWellTyped, leavesOf]
  | c :: conditions => by
    simp only [AllWellTyped, leavesOf, List.forall_mem_append, wellTyped_iff c,
      allWellTyped_iff conditions]

end

inductive Rewrites : PolicyCondition → PolicyCondition → Prop
  | refl (c) : Rewrites c c
  | symm {c d} : Rewrites c d → Rewrites d c
  | trans {c d e} : Rewrites c d → Rewrites d e → Rewrites c e
  | notNot (c) : Rewrites (.not (.not c)) c
  | deMorgan (operator conditions holes) :
      Rewrites (.not (.group operator conditions holes))
        (.group operator.dual (conditions.map .not) holes)
  | children (operator) {conditions conditions'} (holes holes') :
      (∀ c, c ∈ conditions ↔ c ∈ conditions') →
        Rewrites (.group operator conditions holes) (.group operator conditions' holes')
  | underNot {c d} : Rewrites c d → Rewrites (.not c) (.not d)
  | underGroup (operator before after holes) {c d} : Rewrites c d →
      Rewrites (.group operator (before ++ c :: after) holes)
        (.group operator (before ++ d :: after) holes)

theorem Rewrites.leaves {c d : PolicyCondition} (h : Rewrites c d) (leaf : LeafCondition) :
    leaf ∈ c.leaves ↔ leaf ∈ d.leaves := by
  induction h with
  | refl => rfl
  | symm _ ih => exact ih.symm
  | trans _ _ ih ih' => exact ih.trans ih'
  | notNot => simp only [PolicyCondition.leaves]
  | deMorgan => simp [PolicyCondition.leaves, mem_leavesOf]
  | children _ _ _ hmem => simp only [PolicyCondition.leaves, mem_leavesOf, hmem]
  | underNot _ ih => simpa only [PolicyCondition.leaves] using ih
  | underGroup operator before after holes _ ih =>
    simp only [PolicyCondition.leaves, mem_leavesOf, List.mem_append, List.mem_cons, or_and_right,
      exists_or, exists_eq_left, ih]

end PolicyCondition

open PolicyCondition

section Laws

variable {host : Host} {input : PolicyEvaluationInput} {constants : Props}

theorem evaluateConditions_eq (conditions : List PolicyCondition) :
    evaluateConditions host input constants conditions =
      conditions.map (evaluateCondition host input constants) := by
  induction conditions with
  | nil => rfl
  | cons c conditions ih => rw [evaluateConditions, ih, List.map_cons]

def combine (operator : GroupOperator) (results : List ConditionResult) : ConditionResult :=
  if results.any (fun result => !result.ok) then .mismatch
  else
    .typed (match operator with
      | .all => results.all ConditionResult.matched
      | .any => results.any ConditionResult.matched)

theorem evaluateCondition_group (operator : GroupOperator) (conditions : List PolicyCondition)
    (holes : ℕ) :
    evaluateCondition host input constants (.group operator conditions holes) =
      combine operator (conditions.map (evaluateCondition host input constants)) := by
  rw [← evaluateConditions_eq]
  unfold evaluateCondition
  rfl

def ConditionResult.negate (result : ConditionResult) : ConditionResult :=
  ⟨result.ok, result.ok && !result.matched⟩

theorem evaluateCondition_not (c : PolicyCondition) :
    evaluateCondition host input constants (.not c) =
      (evaluateCondition host input constants c).negate := by
  simp only [evaluateCondition, ConditionResult.negate]

def ConditionResult.Strict (result : ConditionResult) : Prop :=
  result.ok = false → result = .mismatch

theorem strict_evaluateLeaf (operator : LeafOperator) (actual : JsValue)
    (operand : Option JsValue) : (evaluateLeaf host operator actual operand).Strict := by
  have htyped (matched : Bool) : (ConditionResult.typed matched).Strict := nofun
  have hmismatch : ConditionResult.mismatch.Strict := fun _ => rfl
  unfold evaluateLeaf
  cases operator with
  | «exists» => exact htyped true
  | eq | notEq | «in» | contains | lt | lte | gt | gte | startsWith | setSubset | setIntersects =>
    dsimp only
    split <;> first | exact htyped _ | exact hmismatch

theorem strict_combine (operator : GroupOperator) (results : List ConditionResult) :
    (combine operator results).Strict := by
  unfold ConditionResult.Strict combine
  split <;> simp [ConditionResult.typed]

theorem ConditionResult.Strict.negate_negate {result : ConditionResult} (h : result.Strict) :
    result.negate.negate = result := by
  obtain ⟨ok, matched⟩ := result
  cases ok with
  | false => exact (h rfl).symm
  | true => simp [ConditionResult.negate]

theorem strict_evaluateCondition (c : PolicyCondition) :
    (evaluateCondition host input constants c).Strict := by
  cases c with
  | group operator conditions holes =>
    rw [evaluateCondition_group]
    exact strict_combine operator _
  | not c =>
    intro hok
    rw [evaluateCondition_not] at hok ⊢
    simp_all [ConditionResult.negate, ConditionResult.mismatch]
  | leaf operator reference operand =>
    by_cases hactual : actualValue input constants reference = .undefined
    · intro _
      simp [evaluateCondition, hactual]
    · rw [evaluateCondition_leaf hactual]
      exact strict_evaluateLeaf operator _ operand

theorem combine_congr (operator : GroupOperator) {results results' : List ConditionResult}
    (h : ∀ r, r ∈ results ↔ r ∈ results') : combine operator results = combine operator results' := by
  have hany (p : ConditionResult → Bool) : results.any p = results'.any p := by
    rw [Bool.eq_iff_iff, List.any_eq_true, List.any_eq_true]
    simp only [h]
  have hall (p : ConditionResult → Bool) : results.all p = results'.all p := by
    rw [Bool.eq_iff_iff, List.all_eq_true, List.all_eq_true]
    simp only [h]
  unfold combine
  simp only [hany, hall]

theorem combine_dual (operator : GroupOperator) (results : List ConditionResult) :
    combine operator.dual (results.map ConditionResult.negate) =
      (combine operator results).negate := by
  have hok : (results.map ConditionResult.negate).any (fun result => !result.ok) =
      results.any fun result => !result.ok := by
    simp [List.any_map, Function.comp_def, ConditionResult.negate]
  unfold combine
  rw [hok]
  split
  · rfl
  · rename_i hgood
    have hgood : ∀ r ∈ results, r.ok = true := by simpa using hgood
    cases operator with
    | all =>
      have hmatched : (results.map ConditionResult.negate).any ConditionResult.matched =
          !results.all ConditionResult.matched := by
        rw [List.not_all_eq_any_not, List.any_map, Bool.eq_iff_iff, List.any_eq_true,
          List.any_eq_true]
        refine exists_congr fun r => and_congr_right fun hr => ?_
        simp [ConditionResult.negate, hgood r hr]
      simp [GroupOperator.dual, hmatched, ConditionResult.negate, ConditionResult.typed]
    | any =>
      have hmatched : (results.map ConditionResult.negate).all ConditionResult.matched =
          !results.any ConditionResult.matched := by
        rw [List.not_any_eq_all_not, List.all_map, Bool.eq_iff_iff, List.all_eq_true,
          List.all_eq_true]
        refine forall₂_congr fun r hr => ?_
        simp [ConditionResult.negate, hgood r hr]
      simp [GroupOperator.dual, hmatched, ConditionResult.negate, ConditionResult.typed]

theorem PolicyCondition.Rewrites.evaluate {c d : PolicyCondition} (h : Rewrites c d) :
    evaluateCondition host input constants c = evaluateCondition host input constants d := by
  induction h with
  | refl => rfl
  | symm _ ih => exact ih.symm
  | trans _ _ ih ih' => exact ih.trans ih'
  | notNot c =>
    rw [evaluateCondition_not, evaluateCondition_not]
    exact (strict_evaluateCondition c).negate_negate
  | deMorgan operator conditions holes =>
    have hresults : (conditions.map .not).map (evaluateCondition host input constants) =
        (conditions.map (evaluateCondition host input constants)).map ConditionResult.negate := by
      rw [List.map_map, List.map_map]
      exact List.map_congr_left fun c _ => evaluateCondition_not c
    rw [evaluateCondition_not, evaluateCondition_group, evaluateCondition_group, hresults,
      combine_dual]
  | children operator holes holes' hmem =>
    rw [evaluateCondition_group, evaluateCondition_group]
    refine combine_congr operator fun r => ?_
    simp only [List.mem_map, hmem]
  | underNot _ ih => rw [evaluateCondition_not, evaluateCondition_not, ih]
  | underGroup operator before after holes _ ih =>
    rw [evaluateCondition_group, evaluateCondition_group, List.map_append, List.map_append,
      List.map_cons, List.map_cons, ih]

end Laws

section Json

theorem isJson_record {ms : List (JsString × JsValue)} :
    (JsValue.record ms).IsJson ↔ ∀ m ∈ ms, m.2.IsJson := by
  rw [JsValue.record, JsValue.isJson_object]
  constructor
  · rintro ⟨-, h⟩ m hm
    exact (h (.own m.1, m.2) (List.mem_map.mpr ⟨m, hm, rfl⟩)).2
  · refine fun h => ⟨rfl, fun p hp => ?_⟩
    obtain ⟨m, hm, rfl⟩ := List.mem_map.mp hp
    exact ⟨rfl, h m hm⟩

theorem IsJson.get {plain : Bool} {props : Props} (h : (JsValue.object plain props).IsJson)
    (key : JsString) (hne : props.get key ≠ .undefined) : (props.get key).IsJson := by
  unfold Props.get at hne ⊢
  cases hfind : props.find? (fun p => p.1.key = .text key) with
  | none => simp [hfind] at hne
  | some p => exact ((JsValue.isJson_object.mp h).2 p (List.mem_of_find?_eq_some hfind)).2

theorem isJson_elements {v : JsValue} (h : v.IsJson) : ∀ item ∈ elements v, item.IsJson := by
  intro item hitem
  cases v with
  | array slots extra =>
    obtain ⟨s, hs, rfl⟩ := List.mem_map.mp hitem
    exact ((JsValue.isJson_array.mp h).2 s (List.mem_filter.mp hs).1).2
  | _ => cases hitem

theorem isJson_string (s : JsString) : (JsValue.string s).IsJson :=
  (JsValue.isJson_atom (by simp) (by simp)).mpr trivial

theorem isJson_bool (b : Bool) : (JsValue.bool b).IsJson :=
  (JsValue.isJson_atom (by simp) (by simp)).mpr trivial

mutual

theorem isJson_leaves : ∀ c : PolicyCondition, c.toValue.IsJson →
    ∀ leaf ∈ c.leaves, ∀ v ∈ leaf.operand, v.IsJson
  | .group operator conditions holes, h => by
    simp only [toValue, isJson_record, List.forall_mem_cons] at h
    simp only [leaves]
    refine isJson_leavesOf conditions fun s hs => ?_
    exact ((JsValue.isJson_array.mp h.2.1).2 s (List.mem_append_left _ hs)).2
  | .not condition, h => by
    simp only [toValue, isJson_record, List.forall_mem_cons] at h
    simp only [leaves]
    exact isJson_leaves condition h.2.1
  | .leaf operator reference operand, h => by
    simp only [toValue, isJson_record, List.forall_mem_append] at h
    simp only [leaves, List.forall_mem_singleton]
    intro v hv
    exact h.2 (js "operand", v) (by simp [optional, Option.mem_def.mp hv])

theorem isJson_leavesOf : ∀ conditions : List PolicyCondition,
    (∀ s ∈ toSlots conditions, s.2.IsJson) →
      ∀ leaf ∈ leavesOf conditions, ∀ v ∈ leaf.operand, v.IsJson
  | [], _ => nofun
  | c :: conditions, h => by
    simp only [toSlots, List.forall_mem_cons] at h
    simp only [leavesOf, List.forall_mem_append]
    exact ⟨isJson_leaves c h.1, isJson_leavesOf conditions h.2⟩

end

theorem isJson_compiled {host : Host} {source : JsValue} {success : CompileSuccess}
    (h : compilePolicySet host source = .ok success) : success.value.toValue.IsJson := by
  obtain ⟨-, -, -, htext, -⟩ := compilePolicySet_eq_ok.mp h
  exact CanonicalJson.isJson_of_canonicalize htext

theorem isJson_rule {s : CompiledPolicySet} (h : s.toValue.IsJson) {rule : CompiledPolicyRule}
    (hrule : rule ∈ s.rules) : rule.when.toValue.IsJson := by
  simp only [CompiledPolicySet.toValue, isJson_record, List.forall_mem_cons] at h
  have hrules := h.2.2.2.2.2.2.2.1
  have hslot := List.mem_map_of_mem (f := fun r : CompiledPolicyRule =>
    (SlotKind.data, r.toValue)) hrule
  have hvalue := ((JsValue.isJson_array.mp hrules).2 _ (List.mem_append_left _ hslot)).2
  simp only [CompiledPolicyRule.toValue, isJson_record, List.forall_mem_cons] at hvalue
  exact hvalue.2.2.2.2.2.2.1

theorem validateInput_arrays {value : JsValue} {input : PolicyEvaluationInput}
    (h : validateInput value = some input) : ∃ props, value.isRecord = some props ∧
      input.permissionScopes = props.get (js "permissionScopes") ∧
      input.capabilityIds = props.get (js "capabilityIds") := by
  obtain ⟨props, hprops, h⟩ := Option.bind_eq_some_iff.mp h
  iterate 16 obtain ⟨_, -, h⟩ := Option.bind_eq_some_iff.mp h
  obtain rfl := Option.some.inj h
  exact ⟨props, hprops, rfl, rfl⟩

theorem isJson_inputArrays {host : Host} {value : JsValue} {input : PolicyEvaluationInput}
    (h : InputValid host value input) :
    (input.permissionScopes ≠ .undefined → input.permissionScopes.IsJson) ∧
      (input.capabilityIds ≠ .undefined → input.capabilityIds.IsJson) := by
  obtain ⟨digest, hdigest⟩ := h.hashed
  obtain ⟨text, htext, -⟩ := Except.bind_eq_ok.mp hdigest
  have hjson : value.IsJson := CanonicalJson.isJson_of_canonicalize htext
  obtain ⟨props, hprops, hscopes, hcapabilities⟩ := validateInput_arrays h.valid
  cases value with
  | object plain fields =>
    cases plain with
    | false => cases hprops
    | true =>
      obtain rfl := Option.some.inj hprops
      rw [hscopes, hcapabilities]
      exact ⟨IsJson.get hjson _, IsJson.get hjson _⟩
  | _ => cases hprops

inductive FieldOf (input : PolicyEvaluationInput) : JsValue → Prop
  | string (s) : FieldOf input (.string s)
  | bool (b) : FieldOf input (.bool b)
  | permissionScopes : FieldOf input input.permissionScopes
  | capabilityIds : FieldOf input input.capabilityIds
  | undefined : FieldOf input .undefined

theorem fieldOf_referencedValue (input : PolicyEvaluationInput) (reference : JsString) :
    FieldOf input (referencedValue input reference) := by
  have hstep {p : Prop} [Decidable p] {v w : JsValue} (hv : FieldOf input v)
      (hw : FieldOf input w) : FieldOf input (if p then v else w) :=
    iteInduction (fun _ => hv) fun _ => hw
  unfold referencedValue
  iterate 7 refine hstep (.string _) ?_
  iterate 2 refine hstep (.bool _) ?_
  exact hstep .permissionScopes (hstep .capabilityIds .undefined)

theorem FieldOf.isJson {host : Host} {value v : JsValue} {input : PolicyEvaluationInput}
    (h : FieldOf input v) (hinput : InputValid host value input) (hne : v ≠ .undefined) :
    v.IsJson := by
  obtain ⟨hscopes, hcapabilities⟩ := isJson_inputArrays hinput
  cases h with
  | string s => exact isJson_string s
  | bool b => exact isJson_bool b
  | permissionScopes => exact hscopes hne
  | capabilityIds => exact hcapabilities hne
  | undefined => exact absurd rfl hne

theorem isJson_actualValue {host : Host} {value : JsValue} {input : PolicyEvaluationInput}
    {constants : Props} (hinput : InputValid host value input)
    (hconstants : (JsValue.object true constants).IsJson) {reference : JsString}
    (hne : actualValue input constants reference ≠ .undefined) :
    (actualValue input constants reference).IsJson := by
  unfold actualValue at hne ⊢
  split at hne
  · exact IsJson.get hconstants _ hne
  · exact (fieldOf_referencedValue input reference).isJson hinput hne

theorem isJson_compared {host : Host} {source value : JsValue} {success : CompileSuccess}
    (hcompile : compilePolicySet host source = .ok success) {rule : CompiledPolicyRule}
    (hrule : rule ∈ success.value.rules) {input : PolicyEvaluationInput}
    (hinput : InputValid host value input) {leaf : LeafCondition} (hleaf : leaf ∈ rule.when.leaves)
    {v : JsValue} (hv : v ∈ leaf.compared input success.value.constants) (hne : v ≠ .undefined) :
    v.IsJson := by
  have hcompiled := isJson_compiled hcompile
  have hconstants : (JsValue.object true success.value.constants).IsJson := by
    simp only [CompiledPolicySet.toValue, isJson_record, List.forall_mem_cons] at hcompiled
    exact hcompiled.2.2.2.2.2.2.1
  have hactual (h : actualValue input success.value.constants leaf.reference ≠ .undefined) :=
    isJson_actualValue hinput hconstants h
  have hexpected (h : leaf.operand.getD .undefined ≠ .undefined) :
      (leaf.operand.getD .undefined).IsJson := by
    cases hoperand : leaf.operand with
    | none => simp [hoperand] at h
    | some operand =>
      exact isJson_leaves rule.when (isJson_rule hcompiled hrule) leaf hleaf operand hoperand
  have hitems {w : JsValue} (hw : w ≠ .undefined → w.IsJson) : v ∈ elements w → v.IsJson := by
    intro hitem
    refine isJson_elements (hw ?_) v hitem
    rintro rfl
    cases hitem
  simp only [LeafCondition.compared, List.mem_cons, List.mem_append] at hv
  obtain rfl | rfl | hv | hv := hv
  · exact hactual hne
  · exact hexpected hne
  · exact hitems hactual hv
  · exact hitems hexpected hv

end Json

theorem condition_evaluation {host : Host} {source value : JsValue} {success : CompileSuccess}
    (hcompile : compilePolicySet host source = .ok success) {rule : CompiledPolicyRule}
    (hrule : rule ∈ success.value.rules) {input : PolicyEvaluationInput}
    (hinput : InputValid host value input) :
    (∀ leaf ∈ rule.when.leaves, ∀ v ∈ leaf.compared input success.value.constants,
      v ≠ .undefined → ∃ text, canonicalJson host v = .ok text) ∧
    ∀ c : PolicyCondition,
      ((evaluateCondition host input success.value.constants c).ok = true ↔
        ∀ leaf ∈ c.leaves, leaf.WellTyped input success.value.constants) ∧
      ((evaluateCondition host input success.value.constants c).ok = true →
        ((evaluateCondition host input success.value.constants c).matched = true ↔
          c.Holds host input success.value.constants)) ∧
      ∀ d, Rewrites c d → (∀ leaf, leaf ∈ c.leaves ↔ leaf ∈ d.leaves) ∧
        evaluateCondition host input success.value.constants d =
          evaluateCondition host input success.value.constants c := by
  refine ⟨fun leaf hleaf v hv hne => ?_, fun c => ?_⟩
  · exact CanonicalJson.canonicalize_of_isJson
      (isJson_compared hcompile hrule hinput hleaf hv hne)
  · obtain ⟨hok, hmatched⟩ :=
      @evaluateCondition_spec host input success.value.constants c
    refine ⟨hok.trans (wellTyped_iff c), fun h => hmatched (hok.mp h), fun d hd => ?_⟩
    exact ⟨hd.leaves, hd.evaluate.symm⟩

def sampleInput : PolicyEvaluationInput := (validateInput leapSecondInput).get (by decide)

theorem sampleInput_valid : InputValid sampleHost leapSecondInput sampleInput where
  acceptable := rfl
  hashed := ⟨_, rfl⟩
  valid := (Option.some_get _).symm

theorem sample_condition_evaluation :
    (evaluateCondition sampleHost sampleInput [] sampleRule.when).ok = true ∧
      evaluateCondition sampleHost sampleInput [] (.not (.not sampleRule.when)) =
        evaluateCondition sampleHost sampleInput [] sampleRule.when := by
  have hrule : sampleRule ∈ samplePolicy.rules := List.mem_singleton_self _
  obtain ⟨-, h⟩ := condition_evaluation samplePolicy_compiles hrule sampleInput_valid
  obtain ⟨hok, -, hrewrites⟩ := h sampleRule.when
  refine ⟨hok.mpr fun leaf hleaf => ?_, (hrewrites _ (.symm (.notNot _))).2⟩
  obtain rfl := List.mem_singleton.mp hleaf
  have haction : JsValue.string sampleInput.action ≠ .undefined := nofun
  exact ⟨haction, trivial⟩

end Aseos.Policy
