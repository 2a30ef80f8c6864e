import Aseos.Policy.Evaluate

namespace Aseos.Policy

def LeafTyped (operator : LeafOperator) (actual expected : JsValue) : Prop :=
  match operator with
  | .exists => True
  | .eq | .notEq => sameJsonType actual expected = true
  | .in => ∃ slots extra, expected = .array slots extra
  | .contains =>
      (∃ s part, actual = .string s ∧ expected = .string part) ∨
        ∃ slots extra, actual = .array slots extra
  | .lt | .lte | .gt | .gte => ∃ a b, actual = .number a ∧ expected = .number b
  | .startsWith => ∃ s part, actual = .string s ∧ expected = .string part
  | .setSubset | .setIntersects =>
      ∃ slots extra other extra', actual = .array slots extra ∧ expected = .array other extra'

def elements : JsValue → List JsValue
  | .array slots _ => Slots.present slots
  | _ => []

def LeafHolds (host : Host) (operator : LeafOperator) (actual expected : JsValue) : Prop :=
  match operator with
  | .exists => True
  | .eq => equalJson host actual expected = true
  | .notEq => equalJson host actual expected = false
  | .in => ∃ item ∈ elements expected, equalJson host actual item = true
  | .contains =>
      (∃ s part, actual = .string s ∧ expected = .string part ∧ JsString.includes s part = true) ∨
        ∃ item ∈ elements actual, equalJson host item expected = true
  | .lt => ∃ a b, actual = .number a ∧ expected = .number b ∧ a.lt b = true
  | .lte => ∃ a b, actual = .number a ∧ expected = .number b ∧ a.le b = true
  | .gt => ∃ a b, actual = .number a ∧ expected = .number b ∧ b.lt a = true
  | .gte => ∃ a b, actual = .number a ∧ expected = .number b ∧ b.le a = true
  | .startsWith => ∃ s part, actual = .string s ∧ expected = .string part ∧ part <+: s
  | .setSubset =>
      ∀ item ∈ elements actual, ∃ other ∈ elements expected, equalJson host item other = true
  | .setIntersects =>
      ∃ item ∈ elements actual, ∃ other ∈ elements expected, equalJson host item other = true

theorem evaluateLeaf_spec (host : Host) (operator : LeafOperator) (actual : JsValue)
    (operand : Option JsValue) :
    ((evaluateLeaf host operator actual operand).ok = true ↔
      LeafTyped operator actual (operand.getD .undefined)) ∧
    (LeafTyped operator actual (operand.getD .undefined) →
      ((evaluateLeaf host operator actual operand).matched = true ↔
        LeafHolds host operator actual (operand.getD .undefined))) := by
  generalize hexpected : operand.getD .undefined = expected
  cases operator with
  | «exists» => simp [evaluateLeaf, LeafTyped, LeafHolds, ConditionResult.typed]
  | eq | notEq =>
    by_cases htype : sameJsonType actual expected = true <;>
      simp [evaluateLeaf, LeafTyped, LeafHolds, hexpected, htype, ConditionResult.typed,
        ConditionResult.mismatch]
  | «in» =>
    cases expected <;>
      simp [evaluateLeaf, LeafTyped, LeafHolds, hexpected, elements, ConditionResult.typed,
        ConditionResult.mismatch]
  | contains =>
    cases actual <;> cases expected <;>
      simp [evaluateLeaf, LeafTyped, LeafHolds, hexpected, elements, ConditionResult.typed,
        ConditionResult.mismatch]
  | lt | lte | gt | gte =>
    cases actual <;> cases expected <;>
      simp [evaluateLeaf, LeafTyped, LeafHolds, hexpected, comparison, ConditionResult.typed,
        ConditionResult.mismatch]
  | startsWith =>
    cases actual <;> cases expected <;>
      simp [evaluateLeaf, LeafTyped, LeafHolds, hexpected, ConditionResult.typed,
        ConditionResult.mismatch]
  | setSubset | setIntersects =>
    cases actual <;> cases expected <;>
      simp [evaluateLeaf, LeafTyped, LeafHolds, hexpected, elements, ConditionResult.typed,
        ConditionResult.mismatch]

namespace PolicyCondition

section Meaning

variable (host : Host) (input : PolicyEvaluationInput) (constants : Props)

mutual

def WellTyped : PolicyCondition → Prop
  | .group _ conditions _ => AllWellTyped conditions
  | .not condition => WellTyped condition
  | .leaf operator reference operand =>
      actualValue input constants reference ≠ .undefined ∧
        LeafTyped operator (actualValue input constants reference) (operand.getD .undefined)

def AllWellTyped : List PolicyCondition → Prop
  | [] => True
  | c :: conditions => WellTyped c ∧ AllWellTyped conditions

end

mutual

def Holds : PolicyCondition → Prop
  | .group .all conditions _ => AllHold conditions
  | .group .any conditions _ => AnyHolds conditions
  | .not condition => ¬ Holds condition
  | .leaf operator reference operand =>
      LeafHolds host operator (actualValue input constants reference) (operand.getD .undefined)

def AllHold : List PolicyCondition → Prop
  | [] => True
  | c :: conditions => Holds c ∧ AllHold conditions

def AnyHolds : List PolicyCondition → Prop
  | [] => False
  | c :: conditions => Holds c ∨ AnyHolds conditions

end

end Meaning

end PolicyCondition

open PolicyCondition

section Evaluation

variable {host : Host} {input : PolicyEvaluationInput} {constants : Props}

theorem evaluateCondition_leaf {operator : LeafOperator} {reference : JsString}
    {operand : Option JsValue} (h : actualValue input constants reference ≠ .undefined) :
    evaluateCondition host input constants (.leaf operator reference operand) =
      evaluateLeaf host operator (actualValue input constants reference) operand := by
  unfold evaluateCondition
  cases hactual : actualValue input constants reference <;> simp_all

mutual

theorem evaluateCondition_spec : ∀ c : PolicyCondition,
    ((evaluateCondition host input constants c).ok = true ↔ WellTyped input constants c) ∧
    (WellTyped input constants c →
      ((evaluateCondition host input constants c).matched = true ↔ Holds host input constants c))
  | .group operator conditions holes => by
    obtain ⟨hok, hall, hany⟩ := evaluateConditions_spec conditions
    have hbad : ((evaluateConditions host input constants conditions).any
        (fun result => !result.ok)) = true ↔ ¬ AllWellTyped input constants conditions := by
      rw [← hok]
      simp
    by_cases htyped : AllWellTyped input constants conditions
    · have hgood : (evaluateConditions host input constants conditions).any
          (fun result => !result.ok) = false := by
        simpa [htyped] using hbad
      cases operator with
      | all => simpa [evaluateCondition, hgood, WellTyped, Holds, htyped,
          ConditionResult.typed] using hall htyped
      | any => simpa [evaluateCondition, hgood, WellTyped, Holds, htyped,
          ConditionResult.typed] using hany htyped
    · simp [evaluateCondition, hbad.mpr htyped, WellTyped, htyped, ConditionResult.mismatch]
  | .not condition => by
    obtain ⟨hok, hmatched⟩ := evaluateCondition_spec condition
    refine ⟨by simpa [evaluateCondition, WellTyped] using hok, ?_⟩
    intro htyped
    have htrue := hok.mpr htyped
    simp [evaluateCondition, Holds, htrue, ← hmatched htyped]
  | .leaf operator reference operand => by
    obtain ⟨hok, hmatched⟩ :=
      evaluateLeaf_spec host operator (actualValue input constants reference) operand
    by_cases hactual : actualValue input constants reference = .undefined
    · simp [evaluateCondition, hactual, WellTyped, ConditionResult.mismatch]
    · rw [evaluateCondition_leaf hactual]
      exact ⟨by simpa [WellTyped, hactual] using hok, fun htyped => hmatched htyped.2⟩

theorem evaluateConditions_spec : ∀ conditions : List PolicyCondition,
    ((evaluateConditions host input constants conditions).all ConditionResult.ok = true ↔
      AllWellTyped input constants conditions) ∧
    (AllWellTyped input constants conditions →
      ((evaluateConditions host input constants conditions).all ConditionResult.matched = true ↔
        AllHold host input constants conditions)) ∧
    (AllWellTyped input constants conditions →
      ((evaluateConditions host input constants conditions).any ConditionResult.matched = true ↔
        AnyHolds host input constants conditions))
  | [] => by simp [evaluateConditions, AllWellTyped, AllHold, AnyHolds]
  | c :: conditions => by
    obtain ⟨hok, hmatched⟩ := evaluateCondition_spec c
    obtain ⟨hoks, hall, hany⟩ := evaluateConditions_spec conditions
    refine ⟨?_, ?_, ?_⟩
    · simp only [evaluateConditions, List.all_cons, Bool.and_eq_true, AllWellTyped, hok, hoks]
    · rintro ⟨hc, hcs⟩
      simp only [evaluateConditions, List.all_cons, Bool.and_eq_true, AllHold, hmatched hc,
        hall hcs]
    · rintro ⟨hc, hcs⟩
      simp only [evaluateConditions, List.any_cons, Bool.or_eq_true, AnyHolds, hmatched hc,
        hany hcs]

end

end Evaluation

end Aseos.Policy
