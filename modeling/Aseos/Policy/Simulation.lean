import Aseos.Library.Outcome
import Aseos.Policy.Compile

namespace Aseos.Policy

structure SameProps (R : JsValue → JsValue → Prop) (props props' : Props) : Prop where
  get : ∀ key, (props.get key = .undefined ∧ props'.get key = .undefined) ∨
    R (props.get key) (props'.get key)
  keys : ∀ key, key ∈ props.keys ↔ key ∈ props'.keys
  hasOwn : ∀ key, props.hasOwn key = props'.hasOwn key

inductive SameShape (R : JsValue → JsValue → Prop) : JsValue → JsValue → Prop
  | undefined : SameShape R .undefined .undefined
  | null : SameShape R .null .null
  | bool (b) : SameShape R (.bool b) (.bool b)
  | number (n) : SameShape R (.number n) (.number n)
  | string (s) : SameShape R (.string s) (.string s)
  | foreign (t) : SameShape R (.foreign t) (.foreign t)
  | cycle : SameShape R .cycle .cycle
  | array {slots slots' extra} :
      List.Forall₂ (fun a b => a.1 = b.1 ∧ (a.1 ≠ .hole → R a.2 b.2)) slots slots' →
      SameShape R (.array slots extra) (.array slots' extra)
  | object {plain props props'} : SameProps R props props' →
      SameShape R (.object plain props) (.object plain props')

structure Simulation (R : JsValue → JsValue → Prop) : Prop where
  shape : ∀ {v v'}, R v v' → SameShape R v v'
  spread : ∀ {props props'}, R (.object true props) (.object true props') →
    R (.object true (Props.spread props)) (.object true (Props.spread props'))
  constants : ∀ {props props'}, R (.object true props) (.object true props') →
    R (.object true (sortedConstants props)) (.object true (sortedConstants props'))

mutual

inductive SameCondition (R : JsValue → JsValue → Prop) : PolicyCondition → PolicyCondition → Prop
  | group {operator conditions conditions' holes} : SameConditions R conditions conditions' →
      SameCondition R (.group operator conditions holes) (.group operator conditions' holes)
  | not {c c'} : SameCondition R c c' → SameCondition R (.not c) (.not c')
  | leaf {operator reference} : SameCondition R (.leaf operator reference none)
      (.leaf operator reference none)
  | operand {operator reference v v'} : R v v' →
      SameCondition R (.leaf operator reference (some v)) (.leaf operator reference (some v'))

inductive SameConditions (R : JsValue → JsValue → Prop) :
    List PolicyCondition → List PolicyCondition → Prop
  | nil : SameConditions R [] []
  | cons {c c' conditions conditions'} : SameCondition R c c' →
      SameConditions R conditions conditions' →
      SameConditions R (c :: conditions) (c' :: conditions')

end

structure SameRule (R : JsValue → JsValue → Prop) (r r' : CompiledPolicyRule) : Prop where
  fields : r' = { r with when := r'.when, metadata := r'.metadata }
  when : SameCondition R r.when r'.when
  metadata : R (.object true r.metadata) (.object true r'.metadata)

structure SameSet (R : JsValue → JsValue → Prop) (s s' : CompiledPolicySet) : Prop where
  fields : s' = { s with constants := s'.constants, rules := s'.rules }
  constants : R (.object true s.constants) (.object true s'.constants)
  rules : List.Forall₂ (SameRule R) s.rules s'.rules

variable {R : JsValue → JsValue → Prop}

theorem SameConditions.of_forall₂ {cs cs' : List PolicyCondition}
    (h : List.Forall₂ (SameCondition R) cs cs') : SameConditions R cs cs' := by
  induction h with
  | nil => exact .nil
  | cons hc _ ih => exact .cons hc ih

theorem SameShape.isRecord {v v' : JsValue} (h : SameShape R v v') :
    (v.isRecord = none ∧ v'.isRecord = none) ∨
      ∃ props props', v = .object true props ∧ v' = .object true props' ∧
        SameProps R props props' := by
  cases h with
  | @object plain props props' hprops =>
    cases plain with
    | true => exact .inr ⟨props, props', rfl, rfl, hprops⟩
    | false => exact .inl ⟨rfl, rfl⟩
  | _ => exact .inl ⟨rfl, rfl⟩

theorem SameShape.isString {v v' : JsValue} (h : SameShape R v v') : v.isString = v'.isString := by
  cases h <;> rfl

theorem SameProps.getShape (S : Simulation R) {props props' : Props}
    (h : SameProps R props props') (key : JsString) :
    SameShape R (props.get key) (props'.get key) := by
  rcases h.get key with ⟨hv, hv'⟩ | hv
  · rw [hv, hv']
    exact .undefined
  · exact S.shape hv

theorem SameProps.record (S : Simulation R) {props props' : Props}
    (h : SameProps R props props') (key : JsString) :
    ((props.get key).isRecord = none ∧ (props'.get key).isRecord = none) ∨
      ∃ inner inner', props.get key = .object true inner ∧ props'.get key = .object true inner' ∧
        SameProps R inner inner' ∧ R (.object true inner) (.object true inner') := by
  rcases (h.getShape S key).isRecord with hnone | ⟨inner, inner', hv, hv', hinner⟩
  · exact .inl hnone
  · refine .inr ⟨inner, inner', hv, hv', hinner, ?_⟩
    rcases h.get key with ⟨hundefined, -⟩ | hR
    · simp [hv] at hundefined
    · rwa [hv, hv'] at hR

theorem forall₂_present {slots slots' : Slots}
    (h : List.Forall₂ (fun a b => a.1 = b.1 ∧ (a.1 ≠ .hole → R a.2 b.2)) slots slots') :
    List.Forall₂ R (Slots.present slots) (Slots.present slots') := by
  induction h with
  | nil => exact .nil
  | @cons a b slots slots' hab _ ih =>
    by_cases ha : a.1 = .hole
    · have hb : b.1 = .hole := hab.1 ▸ ha
      simpa [Slots.present, ha, hb] using ih
    · have hb : b.1 ≠ .hole := hab.1 ▸ ha
      simp only [Slots.present, ne_eq, decide_not, List.forall₂_map_left_iff,
        List.forall₂_map_right_iff] at ih
      simpa [Slots.present, ha, hb] using ⟨hab.2 ha, ih⟩

theorem forall₂_visited {slots slots' : Slots} (start : ℕ)
    (h : List.Forall₂ (fun a b => a.1 = b.1 ∧ (a.1 ≠ .hole → R a.2 b.2)) slots slots') :
    List.Forall₂ (fun a b => R a.2 b.2) (Slots.visitedFrom start slots)
      (Slots.visitedFrom start slots') := by
  induction h generalizing start with
  | nil => exact .nil
  | @cons a b slots slots' hab _ ih =>
    by_cases ha : a.1 = .hole
    · have hb : b.1 = .hole := hab.1 ▸ ha
      simpa [Slots.visitedFrom, ha, hb] using ih (start + 1)
    · have hb : b.1 ≠ .hole := hab.1 ▸ ha
      simpa [Slots.visitedFrom, ha, hb] using ⟨hab.2 ha, ih (start + 1)⟩

theorem forall₂_holes {slots slots' : Slots}
    (h : List.Forall₂ (fun a b => a.1 = b.1 ∧ (a.1 ≠ .hole → R a.2 b.2)) slots slots') :
    Slots.holes slots = Slots.holes slots' := by
  induction h with
  | nil => rfl
  | @cons a b slots slots' hab _ ih =>
    simp only [Slots.holes, List.countP_cons, hab.1] at ih ⊢
    rw [ih]

theorem mapM_isString {l l' : List JsValue} (S : Simulation R) (h : List.Forall₂ R l l') :
    l.mapM JsValue.isString = l'.mapM JsValue.isString := by
  induction h with
  | nil => rfl
  | cons hab _ ih => rw [List.mapM_cons, List.mapM_cons, (S.shape hab).isString, ih]

theorem isUniqueBoundedStringArray_sim (S : Simulation R) {v v' : JsValue} (h : SameShape R v v')
    (maxLength : ℕ) :
    isUniqueBoundedStringArray v maxLength = isUniqueBoundedStringArray v' maxLength := by
  cases h with
  | array hslots =>
    simp only [isUniqueBoundedStringArray, mapM_isString S (forall₂_present hslots),
      forall₂_holes hslots]
  | _ => rfl

theorem fail_agrees {α β : Type} {T : α → β → Prop} (code code' : DiagnosticCode)
    (path path' : JsString) (message message' : String) :
    Agrees T (fail code path message : Except PolicyFailure α)
      (fail code' path' message' : Except PolicyFailure β) :=
  .error _ _

theorem sortedUniqueStrings_sim (S : Simulation R) {v v' : JsValue} (h : SameShape R v v')
    (path path' : JsString) :
    Agrees Eq (sortedUniqueStrings v path) (sortedUniqueStrings v' path') := by
  unfold sortedUniqueStrings
  rw [isUniqueBoundedStringArray_sim S h 256]
  cases isUniqueBoundedStringArray v' 256 with
  | some u => exact .ok rfl
  | none => exact fail_agrees ..

theorem requiredString_sim {props props' : Props} (key : String)
    (h : SameShape R (props.get (js key)) (props'.get (js key))) (path path' : JsString)
    (pattern : Option (Regex CodeUnit)) (maxLength : Option ℕ) (minLength : ℕ) :
    Agrees Eq (requiredString props key path pattern maxLength minLength)
      (requiredString props' key path' pattern maxLength minLength) := by
  unfold requiredString
  generalize props.get (js key) = v at h
  generalize props'.get (js key) = v' at h
  cases h with
  | string s =>
    simp only
    split
    · exact .ok rfl
    · exact fail_agrees ..
  | _ => exact fail_agrees ..

theorem find?_eq_none_congr {keys keys' : List JsString} (h : ∀ key, key ∈ keys ↔ key ∈ keys')
    (p : JsString → Bool) : keys.find? p = none ↔ keys'.find? p = none := by
  simp only [List.find?_eq_none, h]

theorem exactKeys_sim {props props' : Props} (h : ∀ key, key ∈ props.keys ↔ key ∈ props'.keys)
    (allowed : List String) (path path' : JsString) :
    Agrees Eq (exactKeys props allowed path) (exactKeys props' allowed path') := by
  have hiff := find?_eq_none_congr h (fun key => key ∉ allowed.map js)
  unfold exactKeys
  cases hfind : props.keys.find? (fun key => key ∉ allowed.map js) with
  | none =>
    rw [hiff.mp hfind]
    exact .ok rfl
  | some key =>
    cases hfind' : props'.keys.find? (fun key => key ∉ allowed.map js) with
    | none => rw [hiff.mpr hfind'] at hfind; cases hfind
    | some key' => exact fail_agrees ..

def SameOptional {α : Type} (check check' : JsValue → Except PolicyFailure α)
    (v v' : JsValue) : Prop :=
  (v = .undefined ∧ v' = .undefined) ∨
    (v ≠ .undefined ∧ v' ≠ .undefined ∧ Agrees Eq (check v) (check' v'))

theorem SameShape.optional {α : Type} {check check' : JsValue → Except PolicyFailure α}
    {v v' : JsValue} (h : SameShape R v v') (hcheck : Agrees Eq (check v) (check' v')) :
    SameOptional check check' v v' := by
  cases h with
  | undefined => exact .inl ⟨rfl, rfl⟩
  | _ => exact .inr ⟨by simp, by simp, hcheck⟩

theorem optionalField_sim {α : Type} {props props' : Props} (key : String)
    {check check' : JsValue → Except PolicyFailure α}
    (h : SameOptional check check' (props.get (js key)) (props'.get (js key))) :
    Agrees Eq (optionalField props key check) (optionalField props' key check') := by
  have hpresent (q : Props) (f : JsValue → Except PolicyFailure α)
      (hq : q.get (js key) ≠ .undefined) :
      optionalField q key f = f (q.get (js key)) >>= fun a => .ok (some a) := by
    unfold optionalField
    cases hv : q.get (js key) <;> simp_all <;> rfl
  rcases h with ⟨hv, hv'⟩ | ⟨hv, hv', hcheck⟩
  · simp only [optionalField, hv, hv']
    exact .ok rfl
  · rw [hpresent props check hv, hpresent props' check' hv']
    exact hcheck.bind fun a b hab => .ok (congrArg some hab)

theorem isolationLevel_sim {v v' : JsValue} (h : SameShape R v v') (path path' : JsString) :
    Agrees Eq (isolationLevel path v) (isolationLevel path' v') := by
  unfold isolationLevel
  rw [h.isString]
  split
  · exact .ok rfl
  · exact fail_agrees ..

theorem positiveInteger_sim {v v' : JsValue} (h : SameShape R v v') (key : String)
    (path path' : JsString) :
    Agrees Eq (positiveInteger key path v) (positiveInteger key path' v') := by
  cases h with
  | number n =>
    cases n with
    | finite x =>
      simp only [positiveInteger]
      split
      · exact .ok rfl
      · exact fail_agrees ..
    | _ => exact fail_agrees ..
  | _ => exact fail_agrees ..

theorem verificationFlag_sim {v v' : JsValue} (h : SameShape R v v') (path path' : JsString) :
    Agrees Eq (verificationFlag path v) (verificationFlag path' v') := by
  cases h with
  | bool b => exact .ok rfl
  | _ => exact fail_agrees ..

theorem compileRequirements_fields {props props' : Props}
    (hkeys : ∀ key, key ∈ props.keys ↔ key ∈ props'.keys)
    (hscopes : ∀ path path', SameOptional (sortedUniqueStrings · path) (sortedUniqueStrings · path')
      (props.get (js "permissionScopes")) (props'.get (js "permissionScopes")))
    (hget : ∀ key, key ≠ js "permissionScopes" → SameShape R (props.get key) (props'.get key))
    (path path' : JsString) :
    Agrees Eq (compileRequirements (.object true props) path)
      (compileRequirements (.object true props') path') := by
  refine (exactKeys_sim hkeys _ _ _).bind fun _ _ _ => ?_
  refine (optionalField_sim _ (hscopes _ _)).bind ?_
  rintro scopes _ rfl
  have hlevel := hget (js "minimumIsolationLevel") (by decide)
  refine (optionalField_sim _ (hlevel.optional (isolationLevel_sim hlevel _ _))).bind ?_
  rintro level _ rfl
  have htimeout := hget (js "timeoutMs") (by decide)
  refine (optionalField_sim _ (htimeout.optional (positiveInteger_sim htimeout _ _ _))).bind ?_
  rintro timeout _ rfl
  have hconcurrency := hget (js "maxConcurrency") (by decide)
  refine (optionalField_sim _
    (hconcurrency.optional (positiveInteger_sim hconcurrency _ _ _))).bind ?_
  rintro concurrency _ rfl
  have hflag := hget (js "postVerificationRequired") (by decide)
  refine (optionalField_sim _ (hflag.optional (verificationFlag_sim hflag _ _))).bind ?_
  rintro verification _ rfl
  exact .ok rfl

theorem compileRequirements_sim (S : Simulation R) {v v' : JsValue} (h : SameShape R v v')
    (path path' : JsString) :
    Agrees Eq (compileRequirements v path) (compileRequirements v' path') := by
  rcases h.isRecord with ⟨hv, hv'⟩ | ⟨props, props', rfl, rfl, hprops⟩
  · unfold compileRequirements
    rw [hv, hv']
    exact fail_agrees ..
  · have hscopes := hprops.getShape S (js "permissionScopes")
    exact compileRequirements_fields hprops.keys
      (fun _ _ => hscopes.optional (sortedUniqueStrings_sim S hscopes _ _))
      (fun key _ => hprops.getShape S key) path path'

theorem compileReference_sim {constants constants' : Props} (h : SameProps R constants constants')
    (reference path path' : JsString) :
    Agrees Eq (compileReference constants reference path)
      (compileReference constants' reference path') := by
  unfold compileReference
  simp only [h.hasOwn]
  exact .ite Iff.rfl (fail_agrees ..) (.ite Iff.rfl (fail_agrees ..) (.ok rfl))

inductive SameOperand (R : JsValue → JsValue → Prop) : Option JsValue → Option JsValue → Prop
  | none : SameOperand R none none
  | some {v v'} : R v v' → SameOperand R (some v) (some v')

theorem compileOperand_sim (S : Simulation R) (operator : LeafOperator) {v v' : JsValue}
    (h : (v = .undefined ∧ v' = .undefined) ∨ R v v') (path path' : JsString) :
    Agrees (SameOperand R) (compileOperand operator v path) (compileOperand operator v' path') := by
  rcases h with ⟨rfl, rfl⟩ | h
  · cases operator with
    | «exists» => exact .ok .none
    | _ => exact fail_agrees ..
  · have hshape := S.shape h
    cases hshape with
    | undefined =>
      cases operator with
      | «exists» => exact .ok .none
      | _ => exact fail_agrees ..
    | _ =>
      cases operator with
      | «exists» => exact fail_agrees ..
      | _ => exact .ok (.some h)

theorem compileLeaf_sim (S : Simulation R) {constants constants' props props' : Props}
    (hconstants : SameProps R constants constants') (h : SameProps R props props')
    (operator : LeafOperator) (path path' : JsString) :
    Agrees (SameCondition R) (compileLeaf constants props operator path)
      (compileLeaf constants' props' operator path') := by
  refine (exactKeys_sim h.keys _ _ _).bind fun _ _ _ => ?_
  refine (requiredString_sim _ (h.getShape S _) _ _ _ _ _).bind ?_
  rintro reference _ rfl
  refine (compileReference_sim hconstants _ _ _).bind fun _ _ _ => ?_
  refine (compileOperand_sim S operator (h.get _) _ _).bind fun operand operand' hoperand => ?_
  cases hoperand with
  | none => exact .ok .leaf
  | some hv => exact .ok (.operand hv)

theorem compileCondition_sim (S : Simulation R) {constants constants' : Props}
    (hconstants : SameProps R constants constants') (depth : ℕ) {v v' : JsValue}
    (h : SameShape R v v') (path path' : JsString) :
    Agrees (SameCondition R) (compileCondition constants depth v path)
      (compileCondition constants' depth v' path') := by
  induction depth generalizing v v' path path' with
  | zero => exact fail_agrees ..
  | succ depth ih =>
    unfold compileCondition
    rcases h.isRecord with ⟨hv, hv'⟩ | ⟨props, props', rfl, rfl, hprops⟩
    · rw [hv, hv']
      exact fail_agrees ..
    · simp only [JsValue.isRecord]
      rw [(hprops.getShape S (js "operator")).isString]
      generalize (Props.get props' (js "operator")).isString = operator
      cases hgroup : operator.bind (Named.parse (α := GroupOperator)) with
      | some group =>
        refine (exactKeys_sim hprops.keys _ _ _).bind fun _ _ _ => ?_
        have hconditions := hprops.getShape S (js "conditions")
        generalize Props.get props (js "conditions") = w at hconditions
        generalize Props.get props' (js "conditions") = w' at hconditions
        cases hconditions with
        | @array slots slots' extra hslots =>
          refine .ite (by rw [hslots.length_eq]) (fail_agrees ..) ?_
          refine (Agrees.mapM (forall₂_visited 0 hslots) fun a b hab =>
            ih (S.shape hab) _ _).bind fun cs cs' hcs => ?_
          rw [forall₂_holes hslots]
          exact .ok (.group (.of_forall₂ hcs))
        | _ => exact fail_agrees ..
      | none =>
        refine .ite Iff.rfl ?_ ?_
        · refine (exactKeys_sim hprops.keys _ _ _).bind fun _ _ _ => ?_
          exact (ih (hprops.getShape S _) _ _).bind fun c c' hc => .ok (.not hc)
        · cases hleaf : operator.bind (Named.parse (α := LeafOperator)) with
          | some leaf => exact compileLeaf_sim S hconstants hprops leaf _ _
          | none => exact fail_agrees ..

def SetLike (v v' : JsValue) : Prop :=
  ∀ path path', Agrees Eq (sortedUniqueStrings v path) (sortedUniqueStrings v' path')

inductive SameSelector (key : String) : JsValue → JsValue → Prop
  | invalid {v v'} : v.isRecord = none → v'.isRecord = none → SameSelector key v v'
  | record {props props'} : (∀ k, k ∈ Props.keys props ↔ k ∈ Props.keys props') →
      SetLike (Props.get props (js key)) (Props.get props' (js key)) →
      SameSelector key (.object true props) (.object true props')

def SameRequirements (v v' : JsValue) : Prop :=
  ∀ path path', Agrees Eq (compileRequirements v path) (compileRequirements v' path')

structure SameRuleProps (R : JsValue → JsValue → Prop) (props props' : Props) : Prop where
  keys : ∀ key, key ∈ props.keys ↔ key ∈ props'.keys
  get : ∀ key, key ≠ js "subjectSelector" → key ≠ js "resourceSelector" →
    key ≠ js "requirements" → (props.get key = .undefined ∧ props'.get key = .undefined) ∨
      R (props.get key) (props'.get key)
  subjectSelector : SameSelector "subjectTypes" (props.get (js "subjectSelector"))
    (props'.get (js "subjectSelector"))
  resourceSelector : SameSelector "resourceTypes" (props.get (js "resourceSelector"))
    (props'.get (js "resourceSelector"))
  requirements : SameRequirements (props.get (js "requirements")) (props'.get (js "requirements"))

inductive SameRuleValue (R : JsValue → JsValue → Prop) : JsValue → JsValue → Prop
  | invalid {v v'} : v.isRecord = none → v'.isRecord = none → SameRuleValue R v v'
  | record {props props'} : SameRuleProps R props props' →
      SameRuleValue R (.object true props) (.object true props')

theorem SameProps.selector (S : Simulation R) {props props' : Props}
    (h : SameProps R props props') (field : JsString) (key : String) :
    SameSelector key (props.get field) (props'.get field) := by
  rcases h.record S field with ⟨hv, hv'⟩ | ⟨inner, inner', hv, hv', hinner, -⟩
  · exact .invalid hv hv'
  · rw [hv, hv']
    exact .record hinner.keys fun path path' =>
      sortedUniqueStrings_sim S (hinner.getShape S _) path path'

theorem SameShape.ruleValue (S : Simulation R) {v v' : JsValue} (h : SameShape R v v') :
    SameRuleValue R v v' := by
  rcases h.isRecord with ⟨hv, hv'⟩ | ⟨props, props', rfl, rfl, hprops⟩
  · exact .invalid hv hv'
  · exact .record {
      keys := hprops.keys
      get := fun key _ _ _ => hprops.get key
      subjectSelector := hprops.selector S _ _
      resourceSelector := hprops.selector S _ _
      requirements := fun path path' => compileRequirements_sim S (hprops.getShape S _) path path' }

theorem SameRuleProps.getShape (S : Simulation R) {props props' : Props}
    (h : SameRuleProps R props props') (key : JsString) (hsubject : key ≠ js "subjectSelector")
    (hresource : key ≠ js "resourceSelector") (hrequirements : key ≠ js "requirements") :
    SameShape R (props.get key) (props'.get key) := by
  rcases h.get key hsubject hresource hrequirements with ⟨hv, hv'⟩ | hv
  · rw [hv, hv']
    exact .undefined
  · exact S.shape hv

theorem compileRuleFields_sim (S : Simulation R)
    {props props' subject subject' resource resource' metadata metadata' constants constants' :
      Props}
    (hprops : SameRuleProps R props props')
    (hsubject : SetLike (subject.get (js "subjectTypes")) (subject'.get (js "subjectTypes")))
    (hresource : SetLike (resource.get (js "resourceTypes")) (resource'.get (js "resourceTypes")))
    (hmetadata : R (.object true metadata) (.object true metadata'))
    (hconstants : SameProps R constants constants') (effect : RuleEffect)
    (path path' : JsString) :
    Agrees (SameRule R)
      (compileRuleFields props subject resource effect metadata constants path)
      (compileRuleFields props' subject' resource' effect metadata' constants' path') := by
  have hget (key : String) (hs : js key ≠ js "subjectSelector")
      (hr : js key ≠ js "resourceSelector") (hq : js key ≠ js "requirements") :=
    hprops.getShape S (js key) hs hr hq
  refine (requiredString_sim _ (hget _ (by decide) (by decide) (by decide)) _ _ _ _ _).bind ?_
  rintro ruleId _ rfl
  refine (requiredString_sim _ (hget _ (by decide) (by decide) (by decide)) _ _ _ _ _).bind ?_
  rintro domain _ rfl
  refine (hsubject _ _).bind ?_
  rintro subjectTypes _ rfl
  refine (requiredString_sim _ (hget _ (by decide) (by decide) (by decide)) _ _ _ _ _).bind ?_
  rintro action _ rfl
  refine (hresource _ _).bind ?_
  rintro resourceTypes _ rfl
  refine (compileCondition_sim S hconstants _
    (hget "when" (by decide) (by decide) (by decide)) _ _).bind
    fun condition condition' hcondition => ?_
  refine (hprops.requirements _ _).bind ?_
  rintro requirements _ rfl
  refine (requiredString_sim _ (hget _ (by decide) (by decide) (by decide)) _ _ _ _ _).bind ?_
  rintro reasonCode _ rfl
  exact .ok ⟨rfl, hcondition, S.spread hmetadata⟩

theorem compileRule_sim (S : Simulation R) {constants constants' : Props} {v v' : JsValue}
    (h : SameRuleValue R v v') (hconstants : SameProps R constants constants')
    (index index' : ℕ) :
    Agrees (SameRule R) (compileRule v index constants) (compileRule v' index' constants') := by
  unfold compileRule
  cases h with
  | invalid hv hv' =>
    simp only [hv, hv']
    exact fail_agrees ..
  | @record props props' hprops =>
    have hrecord (inner : Props) : (JsValue.object true inner).isRecord = some inner := rfl
    simp only [hrecord]
    refine (exactKeys_sim hprops.keys _ _ _).bind fun _ _ _ => ?_
    rw [(hprops.getShape S (js "schemaVersion") (by decide) (by decide) (by decide)).isString,
      (hprops.getShape S (js "ruleEffect") (by decide) (by decide) (by decide)).isString]
    refine .ite Iff.rfl (.error _ _) ?_
    have hsubject := hprops.subjectSelector
    have hresource := hprops.resourceSelector
    generalize props.get (js "subjectSelector") = s at hsubject
    generalize props'.get (js "subjectSelector") = s' at hsubject
    generalize props.get (js "resourceSelector") = r at hresource
    generalize props'.get (js "resourceSelector") = r' at hresource
    cases hsubject with
    | invalid hs hs' =>
      simp only [hs, hs']
      exact fail_agrees ..
    | record hsubjectKeys hsubject =>
      cases hresource with
      | invalid hr hr' =>
        simp only [hr, hr']
        exact fail_agrees ..
      | record hresourceKeys hresource =>
        simp only [hrecord]
        refine (exactKeys_sim hsubjectKeys _ _ _).bind fun _ _ _ => ?_
        refine (exactKeys_sim hresourceKeys _ _ _).bind fun _ _ _ => ?_
        cases (Props.get props' (js "ruleEffect")).isString.bind
          (Named.parse (α := RuleEffect)) with
        | none => exact fail_agrees ..
        | some effect =>
          have hmetadata := hprops.get (js "metadata") (by decide) (by decide) (by decide)
          have hshape := hprops.getShape S (js "metadata") (by decide) (by decide) (by decide)
          rcases hshape.isRecord with ⟨hm, hm'⟩ | ⟨metadata, metadata', hm, hm', -⟩
          · simp only [hm, hm']
            exact fail_agrees ..
          · rw [hm, hm'] at hmetadata
            simp only [hm, hm', hrecord]
            refine compileRuleFields_sim S hprops hsubject hresource ?_ hconstants effect _ _
            exact hmetadata.resolve_left (by simp)

def SameRules (R : JsValue → JsValue → Prop) (rs rs' : List CompiledPolicyRule) : Prop :=
  ((rs.map fun rule => rule.ruleId.value).Nodup ↔
    (rs'.map fun rule => rule.ruleId.value).Nodup) ∧
  ((rs.map fun rule => rule.ruleId.value).Nodup →
    List.Forall₂ (SameRule R) (sortRules rs) (sortRules rs'))

theorem SameRule.ruleId {r r' : CompiledPolicyRule} (h : SameRule R r r') :
    r'.ruleId = r.ruleId := by
  rw [h.fields]

theorem sortRules_sim {rs rs' : List CompiledPolicyRule} (h : List.Forall₂ (SameRule R) rs rs') :
    List.Forall₂ (SameRule R) (sortRules rs) (sortRules rs') :=
  forall₂_sortBy (fun _ _ hrule => by rw [hrule.ruleId]) h

theorem SameRules.of_forall₂ {rs rs' : List CompiledPolicyRule}
    (h : List.Forall₂ (SameRule R) rs rs') : SameRules R rs rs' := by
  have hids : rs'.map (fun rule => rule.ruleId.value) = rs.map fun rule => rule.ruleId.value := by
    induction h with
    | nil => rfl
    | cons hab _ ih => simp [hab.ruleId, ih]
  exact ⟨by rw [hids], fun _ => sortRules_sim h⟩

theorem compileRules_sim (S : Simulation R) {constants constants' : Props} {slots slots' : Slots}
    (h : List.Forall₂ (fun a b => a.1 = b.1 ∧ (a.1 ≠ .hole → SameRuleValue R a.2 b.2)) slots slots')
    (hconstants : SameProps R constants constants') :
    Agrees (SameRules R) (compileRules slots constants) (compileRules slots' constants') :=
  (Agrees.mapM (forall₂_visited 0 h) fun _ _ hab =>
    compileRule_sim S hab hconstants _ _).mono fun _ _ => .of_forall₂

structure SameSource (R : JsValue → JsValue → Prop) (props props' : Props) : Prop where
  keys : ∀ key, key ∈ props.keys ↔ key ∈ props'.keys
  get : ∀ key, key ≠ js "rules" →
    (props.get key = .undefined ∧ props'.get key = .undefined) ∨
      R (props.get key) (props'.get key)
  rules : ((props.get (js "rules")).isArray = none ∧ (props'.get (js "rules")).isArray = none) ∨
    ∃ slots slots', (props.get (js "rules")).isArray = some slots ∧
      (props'.get (js "rules")).isArray = some slots' ∧ slots.length = slots'.length ∧
      Slots.holes slots = Slots.holes slots' ∧
      ∀ constants constants', R (.object true constants) (.object true constants') →
        Agrees (SameRules R) (compileRules slots constants) (compileRules slots' constants')

theorem SameSource.getShape (S : Simulation R) {props props' : Props}
    (h : SameSource R props props') (key : JsString) (hkey : key ≠ js "rules") :
    SameShape R (props.get key) (props'.get key) := by
  rcases h.get key hkey with ⟨hv, hv'⟩ | hv
  · rw [hv, hv']
    exact .undefined
  · exact S.shape hv

theorem Simulation.sameProps (S : Simulation R) {props props' : Props}
    (h : R (.object true props) (.object true props')) : SameProps R props props' := by
  cases S.shape h with
  | object hprops => exact hprops

theorem checkConstantNames_sim {constants constants' : Props}
    (h : SameProps R constants constants') :
    Agrees Eq (checkConstantNames constants) (checkConstantNames constants') := by
  have hiff := find?_eq_none_congr h.keys (fun key => !constantName.test key)
  unfold checkConstantNames
  cases hfind : constants.keys.find? (fun key => !constantName.test key) with
  | none =>
    rw [hiff.mp hfind]
    exact .ok rfl
  | some key =>
    cases hfind' : constants'.keys.find? (fun key => !constantName.test key) with
    | none => rw [hiff.mpr hfind'] at hfind; cases hfind
    | some key' => exact fail_agrees ..

theorem compileFields_sim (S : Simulation R) {props props' source source' constants constants' :
      Props} {slots slots' : Slots}
    (hprops : SameSource R props props') (hsource : SameProps R source source')
    (hconstants : R (.object true constants) (.object true constants'))
    (hholes : Slots.holes slots = Slots.holes slots')
    (hrules : Agrees (SameRules R) (compileRules slots constants) (compileRules slots' constants'))
    (kind : SourceKind) :
    Agrees (SameSet R) (compileFields props source constants slots kind)
      (compileFields props' source' constants' slots' kind) := by
  have hsorted := S.constants hconstants
  refine hrules.bind fun rs rs' hrs => ?_
  rw [hholes]
  by_cases hdup : ¬ (rs.map fun rule => rule.ruleId.value).Nodup ∨ Slots.holes slots' > 1
  · rw [if_pos hdup, if_pos (by rwa [← hrs.1])]
    exact .error _ _
  · rw [if_neg hdup, if_neg (by rwa [← hrs.1])]
    refine (checkConstantNames_sim (S.sameProps hsorted)).bind fun _ _ _ => ?_
    refine (requiredString_sim _ (hprops.getShape S _ (by decide)) _ _ _ _ _).bind ?_
    rintro policySetId _ rfl
    refine (requiredString_sim _ (hprops.getShape S _ (by decide)) _ _ _ _ _).bind ?_
    rintro version _ rfl
    refine (requiredString_sim _ (hprops.getShape S _ (by decide)) _ _ _ _ _).bind ?_
    rintro description _ rfl
    refine (requiredString_sim _ (hsource.getShape S _) _ _ _ _ _).bind ?_
    rintro ref _ rfl
    exact .ok ⟨rfl, hsorted, hrs.2 (by tauto)⟩

inductive SameSourceValue (R : JsValue → JsValue → Prop) : JsValue → JsValue → Prop
  | invalid {v v'} : v.isRecord = none → v'.isRecord = none → SameSourceValue R v v'
  | record {props props'} : SameSource R props props' →
      SameSourceValue R (.object true props) (.object true props')

theorem compileSource_sim (S : Simulation R) {v v' : JsValue} (h : SameSourceValue R v v') :
    Agrees (SameSet R) (compileSource v) (compileSource v') := by
  unfold compileSource
  cases h with
  | invalid hv hv' =>
    simp only [hv, hv']
    exact fail_agrees ..
  | @record props props' hprops =>
    have hrecord (inner : Props) : (JsValue.object true inner).isRecord = some inner := rfl
    simp only [hrecord]
    refine (exactKeys_sim hprops.keys _ _ _).bind fun _ _ _ => ?_
    rw [(hprops.getShape S (js "schemaVersion") (by decide)).isString,
      (hprops.getShape S (js "defaultOutcome") (by decide)).isString]
    refine .ite Iff.rfl (.error _ _) ?_
    have hsource := hprops.get (js "source") (by decide)
    have hconstants := hprops.get (js "constants") (by decide)
    rcases (hprops.getShape S (js "source") (by decide)).isRecord with ⟨hs, hs'⟩ |
      ⟨source, source', hs, hs', hsame⟩
    · simp only [hs, hs']
      exact fail_agrees ..
    rcases (hprops.getShape S (js "constants") (by decide)).isRecord with ⟨hc, hc'⟩ |
      ⟨constants, constants', hc, hc', -⟩
    · simp only [hs, hs', hc, hc', hrecord]
      exact fail_agrees ..
    rcases hprops.rules with ⟨hr, hr'⟩ | ⟨slots, slots', hr, hr', hlength, hholes, hrules⟩
    · simp only [hs, hs', hc, hc', hr, hr', hrecord]
      exact fail_agrees ..
    rw [hc, hc'] at hconstants
    have hconstants := hconstants.resolve_left (by simp)
    simp only [hs, hs', hc, hc', hr, hr', hrecord, hlength]
    refine .ite Iff.rfl (.error _ _) ?_
    refine (exactKeys_sim hsame.keys _ _ _).bind fun _ _ _ => ?_
    rw [(hsame.getShape S (js "kind")).isString]
    cases (Props.get source' (js "kind")).isString.bind (Named.parse (α := SourceKind)) with
    | none => exact fail_agrees ..
    | some kind =>
      exact compileFields_sim S hprops hsame hconstants hholes (hrules _ _ hconstants) kind

end Aseos.Policy
