import Aseos.Policy.Acceptance
import Aseos.Policy.Simulation

namespace Aseos.Policy

variable {R : JsValue → JsValue → Prop}

theorem SameProps.refl (hR : ∀ v, R v v) (props : Props) : SameProps R props props :=
  ⟨fun _ => .inr (hR _), fun _ => Iff.rfl, fun _ => rfl⟩

theorem SameShape.refl (hR : ∀ v, R v v) (v : JsValue) : SameShape R v v := by
  cases v with
  | array slots extra =>
    exact .array (List.forall₂_same.mpr fun s _ => ⟨rfl, fun _ => hR s.2⟩)
  | object plain props => exact .object (SameProps.refl hR props)
  | undefined => exact .undefined
  | null => exact .null
  | bool b => exact .bool b
  | number n => exact .number n
  | string s => exact .string s
  | foreign t => exact .foreign t
  | cycle => exact .cycle

mutual

theorem SameCondition.refl (hR : ∀ v, R v v) : ∀ c : PolicyCondition, SameCondition R c c
  | .group _ conditions _ => .group (SameConditions.refl hR conditions)
  | .not c => .not (SameCondition.refl hR c)
  | .leaf _ _ none => .leaf
  | .leaf _ _ (some v) => .operand (hR v)

theorem SameConditions.refl (hR : ∀ v, R v v) : ∀ cs : List PolicyCondition, SameConditions R cs cs
  | [] => .nil
  | c :: cs => .cons (SameCondition.refl hR c) (SameConditions.refl hR cs)

end

theorem SameRule.refl (hR : ∀ v, R v v) (r : CompiledPolicyRule) : SameRule R r r :=
  ⟨rfl, SameCondition.refl hR r.when, hR _⟩

theorem simulation_eq : Simulation Eq where
  shape := by
    rintro v _ rfl
    exact SameShape.refl (fun _ => rfl) v
  spread := by
    rintro props props' ⟨⟩
    rfl
  constants := by
    rintro props props' ⟨⟩
    rfl

mutual

theorem SameCondition.eq : ∀ {c c' : PolicyCondition}, SameCondition Eq c c' → c = c'
  | _, _, .group h => by rw [SameConditions.eq h]
  | _, _, .not h => by rw [SameCondition.eq h]
  | _, _, .leaf => rfl
  | _, _, .operand h => by rw [h]

theorem SameConditions.eq : ∀ {cs cs' : List PolicyCondition}, SameConditions Eq cs cs' → cs = cs'
  | _, _, .nil => rfl
  | _, _, .cons h hs => by rw [SameCondition.eq h, SameConditions.eq hs]

end

theorem SameRule.eq {r r' : CompiledPolicyRule} (h : SameRule Eq r r') : r = r' := by
  have hmetadata : r.metadata = r'.metadata := by simpa using h.metadata
  rw [h.fields, ← h.when.eq, ← hmetadata]

theorem SameSet.eq {s s' : CompiledPolicySet} (h : SameSet Eq s s') : s = s' := by
  have hconstants : s.constants = s'.constants := by simpa using h.constants
  have hrules : s.rules = s'.rules :=
    List.forall₂_eq_eq_eq ▸ h.rules.imp fun _ _ => SameRule.eq
  rw [h.fields, ← hconstants, ← hrules]

theorem compileRules_present (slots : Slots) (constants : Props) :
    Agrees Eq (compileRules slots constants)
      ((Slots.present slots).mapM fun v => compileRule v 0 constants) := by
  have hpaired : List.Forall₂ (fun (a : ℕ × JsValue) v => a.2 = v) (Slots.visited slots)
      (Slots.present slots) := by
    rw [← Slots.visited_map_snd, List.forall₂_map_right_iff]
    exact List.forall₂_same.mpr fun _ _ => rfl
  refine (Agrees.mapM hpaired fun a v hav => ?_).mono fun rs rs' hrs =>
    List.forall₂_eq_eq_eq ▸ hrs
  subst hav
  exact (compileRule_sim simulation_eq (SameShape.ruleValue simulation_eq
    (simulation_eq.shape rfl)) (SameProps.refl (fun _ => rfl) constants) _ _).mono
    fun _ _ => SameRule.eq

theorem sortRules_eq_of_perm {rs rs' : List CompiledPolicyRule} (h : rs.Perm rs')
    (hids : (rs.map fun rule => rule.ruleId.value).Nodup) : sortRules rs = sortRules rs' :=
  sortBy_eq_of_perm h fun _ ha _ hb => List.inj_on_of_nodup_map hids ha hb

theorem SameRules.of_perm (hR : ∀ v, R v v) {rs rs' : List CompiledPolicyRule}
    (h : rs.Perm rs') : SameRules R rs rs' := by
  refine ⟨(h.map _).nodup_iff, fun hids => ?_⟩
  rw [sortRules_eq_of_perm h hids]
  exact List.forall₂_same.mpr fun r _ => SameRule.refl hR r

theorem compileRules_permuted {slots slots' : Slots} (h : slots.Perm slots') (constants : Props) :
    Agrees (SameRules Eq) (compileRules slots constants) (compileRules slots' constants) := by
  have hpresent : (Slots.present slots).Perm (Slots.present slots') := (h.filter _).map _
  refine (((compileRules_present slots constants).trans (Agrees.mapM_perm hpresent)).trans
    (compileRules_present slots' constants).symm).mono ?_
  rintro rs rs' ⟨_, ⟨_, rfl, hperm⟩, rfl⟩
  exact .of_perm (fun _ => rfl) hperm

def RulesPermuted : JsValue → JsValue → Prop := AtKey "rules" SlotsPermuted

def SameRuleArray (v v' : JsValue) : Prop :=
  (v.isArray = none ∧ v'.isArray = none) ∨
    ∃ slots slots', v.isArray = some slots ∧ v'.isArray = some slots' ∧
      slots.length = slots'.length ∧ Slots.holes slots = Slots.holes slots' ∧
      ∀ constants, Agrees (SameRules Eq) (compileRules slots constants)
        (compileRules slots' constants)

theorem SameRuleArray.refl (v : JsValue) : SameRuleArray v v := by
  cases hv : v.isArray with
  | none => exact .inl ⟨hv, hv⟩
  | some slots =>
    exact .inr ⟨slots, slots, hv, hv, rfl, rfl,
      fun constants => compileRules_permuted (List.Perm.refl slots) constants⟩

theorem SlotsPermuted.sameRuleArray {v v' : JsValue} (h : SlotsPermuted v v') :
    SameRuleArray v v' := by
  cases h with
  | intro hperm =>
    exact .inr ⟨_, _, rfl, rfl, hperm.length_eq, hperm.countP_eq _, compileRules_permuted hperm⟩

theorem sameSourceValue_atRules {T : JsValue → JsValue → Prop}
    (hT : ∀ w w', T w w' → SameRuleArray w w') {v v' : JsValue} (h : AtKey "rules" T v v') :
    SameSourceValue Eq v v' := by
  rcases h.isRecord with ⟨hv, hv'⟩ | ⟨props, props', rfl, rfl, -, hkeys, hget, hrules⟩
  · exact .invalid hv hv'
  · refine .record ⟨fun key => by rw [hkeys], fun key hkey => .inr (hget key hkey), ?_⟩
    have harray : SameRuleArray (Props.get props (js "rules")) (Props.get props' (js "rules")) := by
      rcases hrules with heq | hrules
      · exact heq ▸ SameRuleArray.refl _
      · exact hT _ _ hrules
    refine harray.imp_right ?_
    rintro ⟨slots, slots', hslots, hslots', hlength, hholes, hcompile⟩
    refine ⟨slots, slots', hslots, hslots', hlength, hholes, ?_⟩
    rintro constants constants' ⟨⟩
    exact hcompile constants

theorem compileSource_rulesPermuted {v v' : JsValue} (h : RulesPermuted v v') :
    Agrees Eq (compileSource v) (compileSource v') :=
  (compileSource_sim simulation_eq
    (sameSourceValue_atRules (fun _ _ => SlotsPermuted.sameRuleArray) h)).mono fun _ _ => SameSet.eq

theorem acceptable_rulesPermuted {v v' : JsValue} (h : RulesPermuted v v') :
    Acceptable v ↔ Acceptable v' :=
  acceptable_atKey (fun _ _ => acceptable_slotsPermuted) h

theorem compilePolicySet_rulesPermuted (host : Host) {v v' : JsValue} (h : RulesPermuted v v') :
    Agrees Eq (compilePolicySet host v) (compilePolicySet host v') := by
  have hassert : Agrees Eq (assertPolicyJson v (js "$")) (assertPolicyJson v' (js "$")) := by
    cases hv : assertPolicyJson v (js "$") with
    | ok u =>
      rw [show assertPolicyJson v' (js "$") = .ok () from (acceptable_rulesPermuted h).mp hv]
      exact .ok rfl
    | error e =>
      cases hv' : assertPolicyJson v' (js "$") with
      | ok u =>
        have : Acceptable v := (acceptable_rulesPermuted h).mpr hv'
        rw [Acceptable, hv] at this
        cases this
      | error e' => exact .error e e'
  refine hassert.bind fun _ _ _ => (compileSource_rulesPermuted h).bind ?_
  rintro compiled _ rfl
  exact .of_eq rfl

end Aseos.Policy
