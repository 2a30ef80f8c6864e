import Aseos.Policy.Canonicality

namespace Aseos.Policy

open JsValue

inductive RuleSetPermuted : JsValue → JsValue → Prop
  | subjectTypes {v v'} : AtKey "subjectSelector" (AtKey "subjectTypes" SlotsPermuted) v v' →
      RuleSetPermuted v v'
  | resourceTypes {v v'} : AtKey "resourceSelector" (AtKey "resourceTypes" SlotsPermuted) v v' →
      RuleSetPermuted v v'
  | permissionScopes {v v'} : AtKey "requirements" (AtKey "permissionScopes" SlotsPermuted) v v' →
      RuleSetPermuted v v'

inductive Rearranged : JsValue → JsValue → Prop
  | keys {v v'} : KeysPermuted v v' → Rearranged v v'
  | rules {v v'} : RulesPermuted v v' → Rearranged v v'
  | sets {v v'} : AtKey "rules" (AtSlot RuleSetPermuted) v v' → Rearranged v v'

section Sets

theorem mapM_isString_eq_some {l : List JsValue} {strings : List JsString} :
    l.mapM isString = some strings ↔ l = strings.map .string := by
  induction l generalizing strings with
  | nil => cases strings <;> simp
  | cons v l ih =>
    rw [List.mapM_cons]
    cases v <;> cases strings <;> simp [isString, ih, Option.bind_eq_some_iff, and_comm]

theorem StringSet.ext {s t : StringSet} (hstrings : s.strings = t.strings)
    (hholes : s.holes = t.holes) : s = t := by
  cases s
  cases t
  cases hstrings
  cases hholes
  rfl

theorem uniqueStrings_eq_some {maxLength holes : ℕ} {strings : List JsString}
    {u : UniqueStrings maxLength} :
    uniqueStrings maxLength strings holes = some u ↔ u.strings = strings ∧ u.holes = holes := by
  unfold uniqueStrings
  constructor
  · intro h
    split at h
    · obtain rfl := Option.some.inj h
      exact ⟨rfl, rfl⟩
    · cases h
  · rintro ⟨rfl, rfl⟩
    rw [dif_pos ⟨u.nodup, u.bounded, u.holes_le⟩]

theorem sortedUniqueStrings_eq_ok {v : JsValue} {path : JsString} {s : StringSet} :
    sortedUniqueStrings v path = .ok s ↔ ∃ slots extra strings, v = .array slots extra ∧
      Slots.present slots = strings.map .string ∧ strings.Nodup ∧
      (∀ t ∈ strings, 1 ≤ t.length ∧ t.length ≤ 256) ∧ Slots.holes slots ≤ 1 ∧
      s.strings = JsString.sort strings ∧ s.holes = Slots.holes slots := by
  constructor
  · intro h
    unfold sortedUniqueStrings at h
    cases hu : isUniqueBoundedStringArray v 256 with
    | none => simp [hu, fail] at h
    | some u =>
      simp only [hu, Except.ok.injEq] at h
      cases v with
      | array slots extra =>
        obtain ⟨strings, hstrings, hunique⟩ := Option.bind_eq_some_iff.mp hu
        obtain ⟨rfl, hholes⟩ := uniqueStrings_eq_some.mp hunique
        refine ⟨slots, extra, u.strings, rfl, mapM_isString_eq_some.mp hstrings, u.nodup, u.bounded,
          hholes ▸ u.holes_le, ?_, ?_⟩
        · rw [← h]
          rfl
        · rw [← h, ← hholes]
          rfl
      | _ => cases hu
  · rintro ⟨slots, extra, strings, rfl, hpresent, hnodup, hbounded, hholes, hsorted, hcount⟩
    have hu : isUniqueBoundedStringArray (.array slots extra) 256 =
        some ⟨strings, Slots.holes slots, hnodup, hbounded, hholes⟩ :=
      Option.bind_eq_some_iff.mpr ⟨strings, mapM_isString_eq_some.mpr hpresent,
        uniqueStrings_eq_some.mpr ⟨rfl, rfl⟩⟩
    unfold sortedUniqueStrings
    rw [hu]
    exact congrArg _ (StringSet.ext hsorted.symm hcount.symm)

theorem sortedUniqueStrings_perm {v v' : JsValue} (h : SlotsPermuted v v') {path path' : JsString}
    {s : StringSet} (hs : sortedUniqueStrings v path = .ok s) :
    sortedUniqueStrings v' path' = .ok s := by
  cases h with
  | @intro slots slots' extra hperm =>
    obtain ⟨_, _, strings, ⟨⟩, hpresent, hnodup, hbounded, hholes, hsorted, hcount⟩ :=
      sortedUniqueStrings_eq_ok.mp hs
    have hpresent' : (Slots.present slots').Perm (strings.map .string) :=
      hpresent ▸ ((hperm.filter _).map _).symm
    obtain ⟨strings', heq, hstrings'⟩ :=
      (congrFun₂ (List.eq_map_comp_perm JsValue.string) _ _).mpr hpresent'
    have hcount' : Slots.holes slots = Slots.holes slots' := hperm.countP_eq _
    refine sortedUniqueStrings_eq_ok.mpr ⟨slots', extra, strings', rfl, heq,
      hstrings'.nodup_iff.mpr hnodup, fun t ht => hbounded t (hstrings'.mem_iff.mp ht),
      hcount' ▸ hholes, ?_, hcount' ▸ hcount⟩
    rw [hsorted, JsString.sort_eq_of_perm hstrings']

theorem setLike_slotsPermuted {v v' : JsValue} (h : SlotsPermuted v v') : SetLike v v' :=
  fun _ _ => .of_ok_iff fun _ => ⟨sortedUniqueStrings_perm h, sortedUniqueStrings_perm h.symm⟩

end Sets

section Rules

variable {v v' : JsValue}

theorem sameSelector_refl (key : String) (v : JsValue) : SameSelector key v v := by
  cases hv : v.isRecord with
  | none => exact .invalid hv hv
  | some props =>
    have hobject : v = .object true props := by
      cases v with
      | object plain inner =>
        cases plain with
        | true => exact congrArg _ (Option.some.inj hv)
        | false => cases hv
      | _ => cases hv
    subst hobject
    exact .record (fun _ => Iff.rfl) fun path path' =>
      sortedUniqueStrings_sim simulation_eq (SameShape.refl (fun _ => rfl) _) path path'

theorem sameRequirements_refl (v : JsValue) : SameRequirements v v := fun path path' =>
  compileRequirements_sim simulation_eq (SameShape.refl (fun _ => rfl) v) path path'

theorem sameSelector_atKey {key : String} (h : AtKey key SlotsPermuted v v') :
    SameSelector key v v' := by
  rcases h.isRecord with ⟨hv, hv'⟩ | ⟨props, props', rfl, rfl, -, hkeys, -, hset⟩
  · exact .invalid hv hv'
  · refine .record (fun k => by rw [hkeys]) ?_
    rcases hset with heq | hpermuted
    · rw [heq]
      exact fun path path' =>
        sortedUniqueStrings_sim simulation_eq (SameShape.refl (fun _ => rfl) _) path path'
    · exact setLike_slotsPermuted hpermuted

theorem sameRequirements_atKey (h : AtKey "permissionScopes" SlotsPermuted v v') :
    SameRequirements v v' := by
  rcases h.isRecord with ⟨hv, hv'⟩ | ⟨props, props', rfl, rfl, -, hkeys, hget, hset⟩
  · intro path path'
    unfold compileRequirements
    rw [hv, hv']
    exact fail_agrees ..
  · intro path path'
    refine compileRequirements_fields (R := Eq) (fun k => by rw [hkeys]) (fun p p' => ?_)
      (fun key hkey => hget key hkey ▸ SameShape.refl (fun _ => rfl) _) path path'
    have hrefl := SameShape.refl (R := Eq) (fun _ => rfl) (props.get (js "permissionScopes"))
    rcases hset with heq | hpermuted
    · rw [← heq]
      exact hrefl.optional (sortedUniqueStrings_sim simulation_eq hrefl _ _)
    · have hset := setLike_slotsPermuted hpermuted p p'
      generalize Props.get props (js "permissionScopes") = w at hpermuted hset
      generalize Props.get props' (js "permissionScopes") = w' at hpermuted hset
      cases hpermuted with
      | intro => exact .inr ⟨by simp, by simp, hset⟩

theorem RuleSetPermuted.same (h : RuleSetPermuted v v') : SameRuleValue Eq v v' := by
  cases h with
  | subjectTypes h =>
    rcases h.isRecord with ⟨hv, hv'⟩ | ⟨props, props', rfl, rfl, -, hkeys, hget, hset⟩
    · exact .invalid hv hv'
    · refine .record ⟨fun k => by rw [hkeys], fun key hs _ _ => .inr (hget key hs), ?_, ?_, ?_⟩
      · rcases hset with heq | hpermuted
        · exact heq ▸ sameSelector_refl _ _
        · exact sameSelector_atKey hpermuted
      · exact hget (js "resourceSelector") (by decide) ▸ sameSelector_refl _ _
      · exact hget (js "requirements") (by decide) ▸ sameRequirements_refl _
  | resourceTypes h =>
    rcases h.isRecord with ⟨hv, hv'⟩ | ⟨props, props', rfl, rfl, -, hkeys, hget, hset⟩
    · exact .invalid hv hv'
    · refine .record ⟨fun k => by rw [hkeys], fun key _ hr _ => .inr (hget key hr), ?_, ?_, ?_⟩
      · exact hget (js "subjectSelector") (by decide) ▸ sameSelector_refl _ _
      · rcases hset with heq | hpermuted
        · exact heq ▸ sameSelector_refl _ _
        · exact sameSelector_atKey hpermuted
      · exact hget (js "requirements") (by decide) ▸ sameRequirements_refl _
  | permissionScopes h =>
    rcases h.isRecord with ⟨hv, hv'⟩ | ⟨props, props', rfl, rfl, -, hkeys, hget, hset⟩
    · exact .invalid hv hv'
    · refine .record ⟨fun k => by rw [hkeys], fun key _ _ hq => .inr (hget key hq), ?_, ?_, ?_⟩
      · exact hget (js "subjectSelector") (by decide) ▸ sameSelector_refl _ _
      · exact hget (js "resourceSelector") (by decide) ▸ sameSelector_refl _ _
      · rcases hset with heq | hpermuted
        · exact heq ▸ sameRequirements_refl _
        · exact sameRequirements_atKey hpermuted

theorem AtSlot.sameRuleArray (h : AtSlot RuleSetPermuted v v') : SameRuleArray v v' := by
  obtain ⟨slots, slots', extra, rfl, rfl, hslots⟩ := h.forall₂
  have hsame : List.Forall₂ (fun a b => a.1 = b.1 ∧ (a.1 ≠ .hole → SameRuleValue Eq a.2 b.2))
      slots slots' := by
    refine hslots.imp fun a b hab => ⟨hab.1, fun _ => ?_⟩
    rcases hab.2 with heq | hpermuted
    · exact heq ▸ (SameShape.refl (fun _ => rfl) _).ruleValue simulation_eq
    · exact hpermuted.same
  have hholes : Slots.holes slots = Slots.holes slots' :=
    forall₂_holes (R := SameRuleValue Eq) hsame
  exact .inr ⟨slots, slots', rfl, rfl, hslots.length_eq, hholes, fun constants =>
    compileRules_sim simulation_eq hsame (SameProps.refl (fun _ => rfl) constants)⟩

end Rules

section Soundness

variable {v v' : JsValue}

theorem acceptable_ruleSet (h : RuleSetPermuted v v') : Acceptable v ↔ Acceptable v' := by
  have hinner (key : String) {w w' : JsValue} (hw : AtKey key SlotsPermuted w w') :
      Acceptable w ↔ Acceptable w' := acceptable_atKey (fun _ _ => acceptable_slotsPermuted) hw
  cases h with
  | subjectTypes h => exact acceptable_atKey (fun _ _ => hinner _) h
  | resourceTypes h => exact acceptable_atKey (fun _ _ => hinner _) h
  | permissionScopes h => exact acceptable_atKey (fun _ _ => hinner _) h

theorem wellFormed_ruleSet (h : RuleSetPermuted v v') (hv : v.WellFormed) : v'.WellFormed := by
  have hinner (key : String) (w w' : JsValue) (hw : AtKey key SlotsPermuted w w') :
      w.WellFormed → w'.WellFormed := wellFormed_atKey (fun _ _ => wellFormed_slotsPermuted) hw
  cases h with
  | subjectTypes h => exact wellFormed_atKey (hinner _) h hv
  | resourceTypes h => exact wellFormed_atKey (hinner _) h hv
  | permissionScopes h => exact wellFormed_atKey (hinner _) h hv

theorem Sound.keysPermuted (h : KeysPermuted v v') (hv : Sound v) : KeyEquivalent v v' := by
  induction h with
  | here hperm => exact ⟨hv, hv.perm hperm, keysSorted_perm hv hperm⟩
  | @member plain before field w w' after _ ih =>
    have hw : KeyEquivalent w w' := ih (hv.member (List.mem_append_right _ List.mem_cons_self))
    have hmembers := acceptable_object.mp hv.acceptable
    have hwellFormed := propsWellFormed_iff.mp hv.wellFormed.2
    simp only [List.forall_mem_append, List.forall_mem_cons] at hmembers hwellFormed
    refine ⟨hv, ⟨⟨(Props.ownKeys_set ..) ▸ hv.wellFormed.1, propsWellFormed_iff.mpr ?_⟩,
      acceptable_object.mpr ⟨hmembers.1, ?_⟩⟩, ?_⟩
    · simp only [List.forall_mem_append, List.forall_mem_cons]
      exact ⟨hwellFormed.1, hw.right.wellFormed, hwellFormed.2.2⟩
    · simp only [List.forall_mem_append, List.forall_mem_cons]
      exact ⟨hmembers.2.1, ⟨hmembers.2.2.1.key, hw.right.acceptable⟩, hmembers.2.2.2⟩
    · simp only [keysSorted, propsSorted_eq, List.map_append, List.map_cons, hw.same]
  | @slot before kind w w' after extra hkind _ ih =>
    have hw : KeyEquivalent w w' := ih (hv.slot (List.mem_append_right _ List.mem_cons_self) hkind)
    have hacceptable := acceptable_array.mp hv.acceptable
    have hwellFormed := slotsWellFormed_iff.mp hv.wellFormed
    simp only [List.forall_mem_append, List.forall_mem_cons] at hacceptable hwellFormed
    refine ⟨hv, ⟨slotsWellFormed_iff.mpr ?_, acceptable_array.mpr ?_⟩, ?_⟩
    · simp only [List.forall_mem_append, List.forall_mem_cons]
      exact ⟨hwellFormed.1, hw.right.wellFormed, hwellFormed.2.2⟩
    · simp only [List.forall_mem_append, List.forall_mem_cons]
      exact ⟨hacceptable.1, fun _ => hw.right.acceptable, hacceptable.2.2⟩
    · simp only [keysSorted, slotsSorted_eq, List.map_append, List.map_cons, hw.same]

theorem sameOutput_of_sameSource (host : Host) (hacceptable : Acceptable v')
    (h : SameSourceValue Eq v v') : SameOutput host v v' := by
  intro s hs
  obtain ⟨-, hsource, hrest⟩ := compilePolicySet_eq_ok.mp hs
  have hsim := compileSource_sim simulation_eq h
  rw [hsource] at hsim
  obtain ⟨c, hc, hsame⟩ := hsim.ok_left
  obtain rfl := hsame.eq
  exact ⟨s, compilePolicySet_eq_ok.mpr ⟨hacceptable, hc, hrest⟩, rfl, rfl⟩

theorem Rearranged.step (host : Host) (h : Rearranged v v') (hv : Sound v) :
    Sound v' ∧ SameOutput host v v' := by
  cases h with
  | keys h =>
    have hsame := hv.keysPermuted h
    exact ⟨hsame.right, hsame.sameOutput⟩
  | rules h =>
    have hacceptable := (acceptable_rulesPermuted h).mp hv.acceptable
    refine ⟨⟨wellFormed_atKey (fun _ _ => wellFormed_slotsPermuted) h hv.wellFormed, hacceptable⟩, ?_⟩
    exact sameOutput_of_sameSource host hacceptable
      (sameSourceValue_atRules (fun _ _ => SlotsPermuted.sameRuleArray) h)
  | sets h =>
    have hacceptable := (acceptable_atKey (fun _ _ =>
      acceptable_atSlot fun _ _ => acceptable_ruleSet) h).mp hv.acceptable
    have hwellFormed := wellFormed_atKey (fun _ _ =>
      wellFormed_atSlot fun _ _ => wellFormed_ruleSet) h hv.wellFormed
    refine ⟨⟨hwellFormed, hacceptable⟩, ?_⟩
    exact sameOutput_of_sameSource host hacceptable
      (sameSourceValue_atRules (fun _ _ => AtSlot.sameRuleArray) h)

theorem rearranged_sameOutput (host : Host) (h : Relation.ReflTransGen Rearranged v v')
    (hv : Sound v) : Sound v' ∧ SameOutput host v v' := by
  induction h with
  | refl => exact ⟨hv, fun s hs => ⟨s, hs, rfl, rfl⟩⟩
  | tail _ hstep ih =>
    obtain ⟨hsound, hsame⟩ := ih
    obtain ⟨hsound', hsame'⟩ := hstep.step host hsound
    refine ⟨hsound', fun s hs => ?_⟩
    obtain ⟨s', hs', htext, hhash⟩ := hsame s hs
    obtain ⟨s'', hs'', htext', hhash'⟩ := hsame' s' hs'
    exact ⟨s'', hs'', htext'.trans htext, hhash'.trans hhash⟩

end Soundness

end Aseos.Policy
