import Aseos.Policy.KeyOrder

namespace Aseos.Policy

open JsValue

section Congruence

abbrev SameMembers : List (JsString × JsValue) → List (JsString × JsValue) → Prop :=
  List.Forall₂ fun a b => a.1 = b.1 ∧ KeyEquivalent a.2 b.2

variable {ms ms' : List (JsString × JsValue)}

theorem SameMembers.keys (h : SameMembers ms ms') : ms'.map Prod.fst = ms.map Prod.fst := by
  induction h with
  | nil => rfl
  | cons hab _ ih => rw [List.map_cons, List.map_cons, hab.1, ih]

theorem SameMembers.sorted (h : SameMembers ms ms') :
    propsSorted (ms.map fun m => (Field.own m.1, m.2)) =
      propsSorted (ms'.map fun m => (Field.own m.1, m.2)) := by
  induction h with
  | nil => rfl
  | cons hab _ ih => simp only [List.map_cons, propsSorted, hab.1, hab.2.same, ih]

theorem SameMembers.acceptable (h : SameMembers ms ms')
    (hms : ∀ m ∈ ms, AcceptableMember (Field.own m.1, m.2)) :
    ∀ m ∈ ms', AcceptableMember (Field.own m.1, m.2) := by
  induction h with
  | nil => exact hms
  | cons hab _ ih =>
    obtain ⟨hm, hrest⟩ := List.forall_mem_cons.mp hms
    exact List.forall_mem_cons.mpr ⟨⟨hab.1 ▸ hm.key, hab.2.right.acceptable⟩, ih hrest⟩

theorem acceptable_record {ms : List (JsString × JsValue)} :
    Acceptable (.record ms) ↔ ∀ m ∈ ms, AcceptableMember (Field.own m.1, m.2) := by
  simp only [JsValue.record, acceptable_object, List.forall_mem_map, true_and]

theorem wellFormed_record {ms : List (JsString × JsValue)} (hkeys : (ms.map Prod.fst).Nodup)
    (hvalues : ∀ m ∈ ms, m.2.WellFormed) : (JsValue.record ms).WellFormed := by
  refine ⟨?_, propsWellFormed_iff.mpr ?_⟩
  · have hown : Props.ownKeys (ms.map fun m => (Field.own m.1, m.2)) =
        (ms.map Prod.fst).map PropertyKey.text := by
      simp [Props.ownKeys, Field.own, Function.comp_def]
    rw [hown]
    exact hkeys.map fun _ _ => PropertyKey.text.inj
  · rintro p hp
    obtain ⟨m, hm, rfl⟩ := List.mem_map.mp hp
    exact hvalues m hm

theorem SameMembers.left (h : SameMembers ms ms') : ∀ m ∈ ms, m.2.WellFormed := by
  induction h with
  | nil => simp
  | cons hab _ ih => exact List.forall_mem_cons.mpr ⟨hab.2.left.wellFormed, ih⟩

theorem SameMembers.right (h : SameMembers ms ms') : ∀ m ∈ ms', m.2.WellFormed := by
  induction h with
  | nil => simp
  | cons hab _ ih => exact List.forall_mem_cons.mpr ⟨hab.2.right.wellFormed, ih⟩

theorem KeyEquivalent.record (hkeys : (ms.map Prod.fst).Nodup)
    (hacceptable : Acceptable (.record ms)) (h : SameMembers ms ms') :
    KeyEquivalent (.record ms) (.record ms') where
  left := ⟨wellFormed_record hkeys h.left, hacceptable⟩
  right := ⟨wellFormed_record (h.keys ▸ hkeys) h.right,
    acceptable_record.mpr (h.acceptable (acceptable_record.mp hacceptable))⟩
  same := by rw [JsValue.record, JsValue.record, keysSorted, keysSorted, h.sorted]

theorem KeyEquivalent.array {slots slots' : Slots}
    (h : List.Forall₂ (fun a b => a.1 = b.1 ∧ KeyEquivalent a.2 b.2) slots slots')
    (rest : Slots) (hrest : ∀ s ∈ rest, s.2 = .undefined)
    (hacceptable : Acceptable (.array (slots ++ rest) [])) :
    KeyEquivalent (.array (slots ++ rest) []) (.array (slots' ++ rest) []) := by
  have hboth : (∀ s ∈ slots, Sound s.2) ∧ (∀ s ∈ slots', Sound s.2) ∧
      slotsSorted (slots ++ rest) = slotsSorted (slots' ++ rest) := by
    clear hacceptable
    induction h with
    | nil => simp
    | cons hab _ ih =>
      obtain ⟨hleft, hright, hsame⟩ := ih
      refine ⟨List.forall_mem_cons.mpr ⟨hab.2.left, hleft⟩,
        List.forall_mem_cons.mpr ⟨hab.2.right, hright⟩, ?_⟩
      simp only [List.cons_append, slotsSorted, hab.1, hab.2.same, hsame]
  obtain ⟨hleft, hright, hsame⟩ := hboth
  have hwellFormed (l : Slots) (hl : ∀ s ∈ l, Sound s.2) :
      (JsValue.array (l ++ rest) []).WellFormed := by
    refine slotsWellFormed_iff.mpr (List.forall_mem_append.mpr ⟨fun s hs => (hl s hs).wellFormed, ?_⟩)
    intro s hs
    rw [hrest s hs]
    trivial
  obtain ⟨-, hundefined⟩ := List.forall_mem_append.mp (acceptable_array.mp hacceptable)
  refine ⟨⟨hwellFormed slots hleft, hacceptable⟩, ⟨hwellFormed slots' hright, ?_⟩, ?_⟩
  · exact acceptable_array.mpr (List.forall_mem_append.mpr
      ⟨fun s hs _ => (hright s hs).acceptable, hundefined⟩)
  · rw [keysSorted, keysSorted, hsame]

end Congruence

section Values

theorem KeyEquivalent.string {s : JsString} (h : Acceptable (.string s)) :
    KeyEquivalent (.string s) (.string s) :=
  .refl ⟨trivial, h⟩

mutual

theorem SameCondition.toValue : ∀ {c c' : PolicyCondition}, SameCondition KeyEquivalent c c' →
    Acceptable c.toValue → KeyEquivalent c.toValue c'.toValue
  | .group operator conditions holes, .group _ conditions' _, .group h, hacceptable => by
    have hmembers := acceptable_record.mp hacceptable
    simp only [List.forall_mem_cons] at hmembers
    obtain ⟨hoperator, hconditions, -⟩ := hmembers
    have hslots := (List.forall_mem_append.mp (acceptable_array.mp hconditions.value)).1
    have hsame := h.toSlots hslots
    refine .record (show [js "operator", js "conditions"].Nodup by decide) hacceptable ?_
    refine .cons ⟨rfl, .string hoperator.value⟩ (.cons ⟨rfl, ?_⟩ .nil)
    refine .array hsame _ (fun s hs => ?_) hconditions.value
    rw [List.eq_of_mem_replicate hs]
  | .not c, .not c', .not h, hacceptable => by
    have hmembers := acceptable_record.mp hacceptable
    simp only [List.forall_mem_cons] at hmembers
    obtain ⟨hoperator, hcondition, -⟩ := hmembers
    refine .record (show [js "operator", js "condition"].Nodup by decide) hacceptable ?_
    exact .cons ⟨rfl, .string hoperator.value⟩
      (.cons ⟨rfl, h.toValue hcondition.value⟩ .nil)
  | .leaf operator reference none, .leaf _ _ none, .leaf, hacceptable => by
    have hmembers := acceptable_record.mp hacceptable
    simp only [optional, Option.map_none, Option.toList_none, List.append_nil,
      List.forall_mem_cons] at hmembers
    obtain ⟨hoperator, hreference, -⟩ := hmembers
    refine .record (show [js "operator", js "reference"].Nodup by decide) hacceptable ?_
    exact .cons ⟨rfl, .string hoperator.value⟩ (.cons ⟨rfl, .string hreference.value⟩ .nil)
  | .leaf operator reference (some v), .leaf _ _ (some v'), .operand h, hacceptable => by
    have hmembers := acceptable_record.mp hacceptable
    simp only [optional, Option.map_some, Option.toList_some, List.cons_append, List.nil_append,
      List.forall_mem_cons] at hmembers
    obtain ⟨hoperator, hreference, -⟩ := hmembers
    refine .record (show [js "operator", js "reference", js "operand"].Nodup by decide)
      hacceptable ?_
    exact .cons ⟨rfl, .string hoperator.value⟩ (.cons ⟨rfl, .string hreference.value⟩
      (.cons ⟨rfl, h⟩ .nil))

theorem SameConditions.toSlots : ∀ {cs cs' : List PolicyCondition},
    SameConditions KeyEquivalent cs cs' →
    (∀ s ∈ PolicyCondition.toSlots cs, s.1 ≠ .hole → Acceptable s.2) →
    List.Forall₂ (fun a b => a.1 = b.1 ∧ KeyEquivalent a.2 b.2) (PolicyCondition.toSlots cs)
      (PolicyCondition.toSlots cs')
  | [], [], .nil, _ => .nil
  | c :: cs, c' :: cs', .cons h hs, hacceptable => by
    rw [PolicyCondition.toSlots] at hacceptable
    obtain ⟨hc, hcs⟩ := List.forall_mem_cons.mp hacceptable
    exact .cons ⟨rfl, h.toValue (hc (by simp))⟩ (hs.toSlots hcs)

end

theorem StringSet.sound {s : StringSet} (h : Acceptable s.toValue) : Sound s.toValue := by
  refine ⟨slotsWellFormed_iff.mpr fun slot hslot => ?_, h⟩
  rcases List.mem_append.mp hslot with hstring | hhole
  · obtain ⟨t, -, rfl⟩ := List.mem_map.mp hstring
    trivial
  · rw [List.eq_of_mem_replicate hhole]
    trivial

theorem PolicyRequirements.sound {r : PolicyRequirements} (h : Acceptable r.toValue) :
    Sound r.toValue := by
  refine ⟨wellFormed_record ?_ ?_, h⟩
  · have hoptional (key : String) (value : Option JsValue) :
        ((optional key value).map Prod.fst).Sublist [js key] := by
      cases value <;> simp [optional]
    have hkeys : [js "permissionScopes", js "minimumIsolationLevel", js "timeoutMs",
        js "maxConcurrency", js "postVerificationRequired"].Nodup := by decide
    refine hkeys.sublist ?_
    simp only [List.map_append]
    exact ((((hoptional _ _).append (hoptional _ _)).append (hoptional _ _)).append
      (hoptional _ _)).append (hoptional _ _)
  · have hscopes : ∀ s ∈ r.permissionScopes, s.toValue.WellFormed := by
      intro s hs
      have hmember := acceptable_record.mp h (js "permissionScopes", s.toValue)
        (by simp [optional, Option.mem_def.mp hs])
      exact (StringSet.sound hmember.value).wellFormed
    intro m hm
    simp only [optional, List.mem_append, Option.mem_toList, Option.map_eq_some_iff, or_assoc] at hm
    rcases hm with ⟨_, ⟨s, hs, rfl⟩, rfl⟩ | ⟨_, ⟨_, _, rfl⟩, rfl⟩ | ⟨_, ⟨_, _, rfl⟩, rfl⟩ |
      ⟨_, ⟨_, _, rfl⟩, rfl⟩ | ⟨_, ⟨_, _, rfl⟩, rfl⟩
    · exact hscopes s hs
    · trivial
    · trivial
    · trivial
    · trivial

theorem KeyEquivalent.selector {key : String} {s : StringSet}
    (h : Acceptable (.record [(js key, s.toValue)])) :
    KeyEquivalent (.record [(js key, s.toValue)]) (.record [(js key, s.toValue)]) := by
  have hmember := acceptable_record.mp h (js key, s.toValue) (by simp)
  exact .record (by simp) h (.cons ⟨rfl, .refl (StringSet.sound hmember.value)⟩ .nil)

theorem SameRule.toValue {r r' : CompiledPolicyRule} (h : SameRule KeyEquivalent r r')
    (hacceptable : Acceptable r.toValue) : KeyEquivalent r.toValue r'.toValue := by
  have hmembers := acceptable_record.mp hacceptable
  simp only [List.forall_mem_cons] at hmembers
  obtain ⟨hversion, hruleId, hdomain, hsubject, haction, hresource, hwhen, heffect, hrequirements,
    hreason, -, -⟩ := hmembers
  rw [h.fields]
  refine .record (show [js "schemaVersion", js "ruleId", js "domain", js "subjectSelector",
    js "action", js "resourceSelector", js "when", js "ruleEffect", js "requirements",
    js "reasonCode", js "metadata"].Nodup by decide) hacceptable ?_
  refine .cons ⟨rfl, .string hversion.value⟩ (.cons ⟨rfl, .string hruleId.value⟩ ?_)
  refine .cons ⟨rfl, .string hdomain.value⟩ (.cons ⟨rfl, .selector hsubject.value⟩ ?_)
  refine .cons ⟨rfl, .string haction.value⟩ (.cons ⟨rfl, .selector hresource.value⟩ ?_)
  refine .cons ⟨rfl, h.when.toValue hwhen.value⟩ (.cons ⟨rfl, .string heffect.value⟩ ?_)
  refine .cons ⟨rfl, .refl (PolicyRequirements.sound hrequirements.value)⟩ ?_
  exact .cons ⟨rfl, .string hreason.value⟩ (.cons ⟨rfl, h.metadata⟩ .nil)

theorem sameRules_slots {rs rs' : List CompiledPolicyRule}
    (h : List.Forall₂ (SameRule KeyEquivalent) rs rs')
    (hacceptable : ∀ r ∈ rs, Acceptable r.toValue) :
    List.Forall₂ (fun (a b : SlotKind × JsValue) => a.1 = b.1 ∧ KeyEquivalent a.2 b.2)
      (rs.map fun r => (.data, r.toValue)) (rs'.map fun r => (.data, r.toValue)) := by
  induction h with
  | nil => exact .nil
  | cons hr _ ih =>
    obtain ⟨hhead, hrest⟩ := List.forall_mem_cons.mp hacceptable
    exact .cons ⟨rfl, hr.toValue hhead⟩ (ih hrest)

theorem SameSet.toValue {c c' : CompiledPolicySet} (h : SameSet KeyEquivalent c c')
    (hacceptable : Acceptable c.toValue) : KeyEquivalent c.toValue c'.toValue := by
  have hmembers := acceptable_record.mp hacceptable
  simp only [List.forall_mem_cons] at hmembers
  obtain ⟨hversion, hid, hpolicyVersion, hdescription, hsource, hdefault, -, hrules, -⟩ := hmembers
  have hsourceMembers := acceptable_record.mp hsource.value
  simp only [List.forall_mem_cons] at hsourceMembers
  obtain ⟨hkind, href, -⟩ := hsourceMembers
  have hslots : ∀ r ∈ c.rules, Acceptable r.toValue := fun r hr =>
    acceptable_array.mp hrules.value (.data, r.toValue)
      (List.mem_append_left _ (List.mem_map_of_mem hr)) (by simp)
  rw [h.fields]
  refine .record (show [js "schemaVersion", js "policySetId", js "version", js "description",
    js "source", js "defaultOutcome", js "constants", js "rules"].Nodup by decide) hacceptable ?_
  refine .cons ⟨rfl, .string hversion.value⟩ (.cons ⟨rfl, .string hid.value⟩ ?_)
  refine .cons ⟨rfl, .string hpolicyVersion.value⟩ (.cons ⟨rfl, .string hdescription.value⟩ ?_)
  refine .cons ⟨rfl, .record (show [js "kind", js "ref"].Nodup by decide) hsource.value
    (.cons ⟨rfl, .string hkind.value⟩ (.cons ⟨rfl, .string href.value⟩ .nil))⟩ ?_
  refine .cons ⟨rfl, .string hdefault.value⟩ (.cons ⟨rfl, h.constants⟩ (.cons ⟨rfl, ?_⟩ .nil))
  refine .array (sameRules_slots h.rules hslots) _ (fun s hs => ?_) hrules.value
  rw [List.eq_of_mem_replicate hs]

end Values

section Compilation

variable {host : Host}

theorem SameShape.sourceValue {R : JsValue → JsValue → Prop} (S : Simulation R) {v v' : JsValue}
    (h : SameShape R v v') : SameSourceValue R v v' := by
  rcases h.isRecord with ⟨hv, hv'⟩ | ⟨props, props', rfl, rfl, hprops⟩
  · exact .invalid hv hv'
  refine .record ⟨hprops.keys, fun key _ => hprops.get key, ?_⟩
  have hrules := hprops.getShape S (js "rules")
  generalize Props.get props (js "rules") = w at hrules
  generalize Props.get props' (js "rules") = w' at hrules
  cases hrules with
  | array hslots =>
    refine .inr ⟨_, _, rfl, rfl, hslots.length_eq, forall₂_holes hslots, ?_⟩
    intro constants constants' hconstants
    refine compileRules_sim S (hslots.imp fun a b hab => ⟨hab.1, fun hhole => ?_⟩)
      (S.sameProps hconstants)
    exact (S.shape (hab.2 hhole)).ruleValue S
  | _ => exact .inl ⟨rfl, rfl⟩

theorem ofCanonical_eq_ok {α : Type} {x : Except CanonicalError α} {a : α} :
    ofCanonical x = .ok a ↔ x = .ok a := by
  cases x <;> simp [ofCanonical, fail]

theorem compilePolicySet_eq_ok {v : JsValue} {s : CompileSuccess} :
    compilePolicySet host v = .ok s ↔ Acceptable v ∧ compileSource v = .ok s.value ∧
      Acceptable s.value.toValue ∧ canonicalJson host s.value.toValue = .ok s.canonicalJson ∧
      host.sha256 s.canonicalJson = s.sha256 := by
  constructor
  · intro h
    obtain ⟨⟨⟩, hassert, h⟩ := Except.bind_eq_ok.mp h
    obtain ⟨c, hc, h⟩ := Except.bind_eq_ok.mp h
    obtain ⟨text, htext, h⟩ := Except.bind_eq_ok.mp h
    obtain ⟨hash, hhash, h⟩ := Except.bind_eq_ok.mp h
    obtain rfl := Except.ok.inj h
    obtain ⟨⟨⟩, hacceptable, htext⟩ := Except.bind_eq_ok.mp htext
    obtain ⟨⟨⟩, -, hhash⟩ := Except.bind_eq_ok.mp hhash
    have htext := ofCanonical_eq_ok.mp htext
    refine ⟨hassert, hc, hacceptable, htext, ?_⟩
    rw [canonicalJsonSha256, htext] at hhash
    exact Except.ok.inj hhash
  · rintro ⟨hassert, hc, hacceptable, htext, hhash⟩
    refine Except.bind_eq_ok.mpr ⟨(), hassert, Except.bind_eq_ok.mpr ⟨s.value, hc, ?_⟩⟩
    refine Except.bind_eq_ok.mpr ⟨s.canonicalJson,
      Except.bind_eq_ok.mpr ⟨(), hacceptable, ofCanonical_eq_ok.mpr htext⟩, ?_⟩
    refine Except.bind_eq_ok.mpr ⟨s.sha256,
      Except.bind_eq_ok.mpr ⟨(), hacceptable, ofCanonical_eq_ok.mpr ?_⟩, rfl⟩
    rw [canonicalJsonSha256, htext, ← hhash]
    rfl

def SameOutput (host : Host) (v v' : JsValue) : Prop :=
  ∀ s, compilePolicySet host v = .ok s → ∃ s', compilePolicySet host v' = .ok s' ∧
    s'.canonicalJson = s.canonicalJson ∧ s'.sha256 = s.sha256

theorem KeyEquivalent.sameOutput {v v' : JsValue} (h : KeyEquivalent v v') :
    SameOutput host v v' := by
  intro s hs
  obtain ⟨-, hsource, hacceptable, htext, hhash⟩ := compilePolicySet_eq_ok.mp hs
  have hsim := compileSource_sim simulation_keys (h.shape.sourceValue simulation_keys)
  rw [hsource] at hsim
  obtain ⟨c, hc, hsame⟩ := hsim.ok_left
  have hvalue := hsame.toValue hacceptable
  refine ⟨⟨c, s.canonicalJson, s.sha256⟩, compilePolicySet_eq_ok.mpr ?_, rfl, rfl⟩
  exact ⟨h.right.acceptable, hc, hvalue.right.acceptable, hvalue.canonicalJson_eq.symm.trans htext,
    hhash⟩

end Compilation

end Aseos.Policy
