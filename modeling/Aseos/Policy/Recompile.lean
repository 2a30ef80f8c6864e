import Aseos.Policy.Rearrangement

namespace Aseos.Policy

open JsValue
open Props (arrayIndex fromEntries fromEntries_perm hasOwn_eq)

section Records

variable {ms : List (JsString × JsValue)}

def members (ms : List (JsString × JsValue)) : Props := ms.map fun m => (Field.own m.1, m.2)

theorem keys_members (ms : List (JsString × JsValue)) :
    Props.keys (members ms) = ms.map Prod.fst := by
  induction ms with
  | nil => rfl
  | cons m ms ih => exact congrArg (m.1 :: ·) ih

theorem exactKeys_members {allowed : List String} (path : JsString)
    (h : ∀ m ∈ ms, m.1 ∈ allowed.map js) : exactKeys (members ms) allowed path = .ok () := by
  unfold exactKeys
  rw [keys_members, List.find?_eq_none.mpr]
  rintro key hkey
  obtain ⟨m, hm, rfl⟩ := List.mem_map.mp hkey
  simpa using h m hm

def optionals (fields : List (String × Option JsValue)) : List (JsString × JsValue) :=
  fields.flatMap fun f => optional f.1 f.2

theorem keys_optionals {fields : List (String × Option JsValue)} :
    ∀ m ∈ optionals fields, m.1 ∈ (fields.map Prod.fst).map js := by
  intro m hm
  obtain ⟨⟨key, value⟩, hf, hm⟩ := List.mem_flatMap.mp hm
  cases value with
  | none => cases hm
  | some v =>
    obtain rfl := List.mem_singleton.mp hm
    exact List.mem_map_of_mem (List.mem_map_of_mem hf)

theorem get_optional_append (key : String) (value : Option JsValue)
    (ms : List (JsString × JsValue)) (k : JsString) :
    Props.get (members (optional key value ++ ms)) k =
      if value.isSome ∧ js key = k then value.getD .undefined else Props.get (members ms) k := by
  cases value with
  | none => rfl
  | some v => simp [members, optional, Props.get_cons, Field.own]

theorem get_optionals_absent {fields : List (String × Option JsValue)} {k : JsString}
    (hk : k ∉ (fields.map Prod.fst).map js) :
    Props.get (members (optionals fields)) k = .undefined := by
  induction fields with
  | nil => rfl
  | cons f fields ih =>
    simp only [List.map_cons, List.mem_cons, not_or] at hk
    refine (get_optional_append f.1 f.2 (optionals fields) k).trans ?_
    rw [if_neg fun h => hk.1 h.2.symm, ih hk.2]

theorem get_optionals {fields : List (String × Option JsValue)}
    (hkeys : ((fields.map Prod.fst).map js).Nodup) :
    ∀ f ∈ fields, Props.get (members (optionals fields)) (js f.1) = f.2.getD .undefined := by
  induction fields with
  | nil => simp
  | cons g fields ih =>
    simp only [List.map_cons, List.nodup_cons] at hkeys
    intro f hf
    refine (get_optional_append g.1 g.2 (optionals fields) (js f.1)).trans ?_
    rcases List.mem_cons.mp hf with rfl | hf
    · cases hvalue : f.2 with
      | none => simp [get_optionals_absent hkeys.1]
      | some v => simp
    · have hne : js g.1 ≠ js f.1 := fun heq =>
        hkeys.1 (heq ▸ List.mem_map_of_mem (List.mem_map_of_mem hf))
      rw [if_neg fun h => hne h.2, ih hkeys.2 f hf]

theorem requiredString_text {props : Props} {key : String} (path : JsString)
    {pattern : Option (Regex CodeUnit)} {maxLength : Option ℕ} {minLength : ℕ}
    (t : Text pattern maxLength minLength) (h : props.get (js key) = .string t.value) :
    requiredString props key path pattern maxLength minLength = .ok t := by
  unfold requiredString
  rw [h]
  exact dif_pos ⟨t.long, t.short, t.matching⟩

theorem optionalField_eq {α : Type} {props : Props} {key : String}
    {check : JsValue → Except PolicyFailure α} {a : Option α} {toValue : α → JsValue}
    (hget : props.get (js key) = (a.map toValue).getD .undefined)
    (hcheck : ∀ b ∈ a, toValue b ≠ .undefined ∧ check (toValue b) = .ok b) :
    optionalField props key check = .ok a := by
  unfold optionalField
  rw [hget]
  cases a with
  | none => rfl
  | some b =>
    obtain ⟨hne, hok⟩ := hcheck b rfl
    simp only [Option.map_some, Option.getD_some]
    rw [hok]
    rfl

end Records

section Sets

theorem sortedUniqueStrings_toValue {s : StringSet} (h : s.holes = 0) (path : JsString) :
    sortedUniqueStrings s.toValue path = .ok s := by
  refine sortedUniqueStrings_eq_ok.mpr ⟨_, _, s.strings, rfl, ?_, s.nodup, s.bounded, ?_, ?_, ?_⟩
  · simp [Slots.present, h, List.filter_map, Function.comp_def]
  · simp [Slots.holes, h, List.countP_map, Function.comp_def]
  · exact (sortBy_eq_self s.sorted).symm
  · simp [Slots.holes, h, List.countP_map, Function.comp_def]

def requirementFields (r : PolicyRequirements) : List (String × Option JsValue) :=
  [("permissionScopes", r.permissionScopes.map StringSet.toValue),
    ("minimumIsolationLevel", r.minimumIsolationLevel.map (.string ∘ Named.text)),
    ("timeoutMs", r.timeoutMs.map fun n => .number (.finite n.number)),
    ("maxConcurrency", r.maxConcurrency.map fun n => .number (.finite n.number)),
    ("postVerificationRequired", r.postVerificationRequired.map .bool)]

theorem requirements_toValue (r : PolicyRequirements) :
    r.toValue = .object true (members (optionals (requirementFields r))) := by
  simp [PolicyRequirements.toValue, JsValue.record, members, optionals, requirementFields]

theorem positiveInteger_number (key : String) (path : JsString) (n : PositiveInteger) :
    positiveInteger key path (.number (.finite n.number)) = .ok n :=
  dif_pos n.positive

theorem compileRequirements_toValue {r : PolicyRequirements}
    (h : ∀ s ∈ r.permissionScopes, s.holes = 0) (path : JsString) :
    compileRequirements r.toValue path = .ok r := by
  have hget := @get_optionals (requirementFields r)
    (show [js "permissionScopes", js "minimumIsolationLevel", js "timeoutMs",
      js "maxConcurrency", js "postVerificationRequired"].Nodup by decide)
  simp only [requirementFields, List.forall_mem_cons] at hget
  obtain ⟨hscopes, hlevel, htimeout, hconcurrency, hflag, -⟩ := hget
  rw [requirements_toValue]
  refine Except.bind_eq_ok.mpr ⟨(), exactKeys_members path keys_optionals, ?_⟩
  refine Except.bind_eq_ok.mpr ⟨r.permissionScopes, optionalField_eq hscopes fun s hs =>
    ⟨by simp [StringSet.toValue], sortedUniqueStrings_toValue (h s hs) _⟩, ?_⟩
  refine Except.bind_eq_ok.mpr ⟨r.minimumIsolationLevel, optionalField_eq hlevel fun level _ =>
    ⟨by simp, by simp [isolationLevel, isString]⟩, ?_⟩
  refine Except.bind_eq_ok.mpr ⟨r.timeoutMs, optionalField_eq htimeout fun n _ =>
    ⟨by simp, positiveInteger_number _ _ n⟩, ?_⟩
  refine Except.bind_eq_ok.mpr ⟨r.maxConcurrency, optionalField_eq hconcurrency fun n _ =>
    ⟨by simp, positiveInteger_number _ _ n⟩, ?_⟩
  exact Except.bind_eq_ok.mpr ⟨r.postVerificationRequired, optionalField_eq hflag fun b _ =>
    ⟨by simp, rfl⟩, rfl⟩

end Sets

section Conditions

variable {constants constants' : Props}

inductive Compiled (constants : Props) : ℕ → PolicyCondition → Prop
  | group {depth operator conditions holes} :
      (∀ c ∈ conditions, Compiled constants depth c) → conditions.length + holes ≠ 0 →
      conditions.length + holes ≤ 32 →
      Compiled constants (depth + 1) (.group operator conditions holes)
  | not {depth c} : Compiled constants depth c → Compiled constants (depth + 1) (.not c)
  | leaf {depth operator reference operand} :
      1 ≤ reference.length → (∀ path, compileReference constants reference path = .ok ()) →
      (∀ path, compileOperand operator (operand.getD .undefined) path = .ok operand) →
      Compiled constants (depth + 1) (.leaf operator reference operand)

theorem compileReference_eq_ok {reference path : JsString} {u : Unit} :
    compileReference constants reference path = .ok u ↔
      ¬ (reference ∉ allowedInputReferences ∧ constantReference.test reference = false) ∧
        ¬ (constantKey reference).any (fun key => !constants.hasOwn key) = true := by
  unfold compileReference
  split
  · rename_i h
    exact iff_of_false (by simp [fail]) fun h' => h'.1 h
  · split
    · rename_i h
      exact iff_of_false (by simp [fail]) fun h' => h'.2 h
    · rename_i h h'
      exact iff_of_true rfl ⟨h, h'⟩

theorem compileOperand_eq_ok {operator : LeafOperator} {v : JsValue} {path : JsString}
    {operand : Option JsValue} (h : compileOperand operator v path = .ok operand)
    (path' : JsString) :
    compileOperand operator (operand.getD .undefined) path' = .ok operand := by
  cases operator <;> cases v <;> simp_all [compileOperand, fail] <;> subst h <;> rfl

theorem length_visitedFrom (start : ℕ) (slots : Slots) :
    (Slots.visitedFrom start slots).length + Slots.holes slots = slots.length := by
  induction slots generalizing start with
  | nil => rfl
  | cons s slots ih =>
    have hrest := ih (start + 1)
    unfold Slots.holes at hrest ⊢
    by_cases hs : s.1 = .hole
    · simp [Slots.visitedFrom, hs] 
      omega
    · simp [Slots.visitedFrom, hs]
      omega

theorem compileCondition_compiled {depth : ℕ} {v : JsValue} {path : JsString}
    {c : PolicyCondition} (h : compileCondition constants depth v path = .ok c) :
    Compiled constants depth c := by
  induction depth generalizing v path c with
  | zero => simp [compileCondition, fail] at h
  | succ depth ih =>
    unfold compileCondition at h
    cases hv : v.isRecord with
    | none => simp [hv, fail] at h
    | some props =>
      simp only [hv] at h
      generalize (Props.get props (js "operator")).isString = operator at h
      cases hgroup : operator.bind (Named.parse (α := GroupOperator)) with
      | some group =>
        simp only [hgroup] at h
        obtain ⟨-, -, h⟩ := Except.bind_eq_ok.mp h
        cases hconditions : Props.get props (js "conditions") with
        | array slots extra =>
          simp only [hconditions] at h
          split at h
          · simp [fail] at h
          · rename_i hlength
            obtain ⟨cs, hcs, h⟩ := Except.bind_eq_ok.mp h
            obtain rfl := Except.ok.inj h
            have hall := Except.mapM_eq_ok.mp hcs
            have hcount := length_visitedFrom 0 slots
            have hsame := hall.length_eq
            rw [Slots.visited] at hsame
            refine .group (fun c hc => ?_) (by omega) (by omega)
            obtain ⟨child, -, hchild⟩ := Except.exists_of_mem_mapM hcs c hc
            exact ih hchild
        | _ => simp [hconditions, fail] at h
      | none =>
        simp only [hgroup] at h
        split at h
        · obtain ⟨-, -, h⟩ := Except.bind_eq_ok.mp h
          obtain ⟨inner, hinner, h⟩ := Except.bind_eq_ok.mp h
          obtain rfl := Except.ok.inj h
          exact .not (ih hinner)
        · cases hleaf : operator.bind (Named.parse (α := LeafOperator)) with
          | none => simp [hleaf, fail] at h
          | some leaf =>
            simp only [hleaf] at h
            obtain ⟨-, -, h⟩ := Except.bind_eq_ok.mp h
            obtain ⟨reference, -, h⟩ := Except.bind_eq_ok.mp h
            obtain ⟨_, hreference, h⟩ := Except.bind_eq_ok.mp h
            obtain ⟨operand, hoperand, h⟩ := Except.bind_eq_ok.mp h
            obtain rfl := Except.ok.inj h
            exact .leaf reference.long
              (fun _ => compileReference_eq_ok.mpr (compileReference_eq_ok.mp hreference))
              (compileOperand_eq_ok hoperand)

mutual

def HoleFree : PolicyCondition → Prop
  | .group _ conditions holes => holes = 0 ∧ AllHoleFree conditions
  | .not c => HoleFree c
  | .leaf _ _ _ => True

def AllHoleFree : List PolicyCondition → Prop
  | [] => True
  | c :: conditions => HoleFree c ∧ AllHoleFree conditions

end

theorem allHoleFree_iff {conditions : List PolicyCondition} :
    AllHoleFree conditions ↔ ∀ c ∈ conditions, HoleFree c := by
  induction conditions with
  | nil => simp [AllHoleFree]
  | cons c conditions ih => simp [AllHoleFree, ih]

theorem toSlots_eq (conditions : List PolicyCondition) :
    PolicyCondition.toSlots conditions = conditions.map fun c => (.data, c.toValue) := by
  induction conditions with
  | nil => rfl
  | cons c conditions ih => rw [PolicyCondition.toSlots, ih, List.map_cons]

theorem visitedFrom_data {α : Type} (toValue : α → JsValue) (start : ℕ) {l : List α}
    {P : α → Prop} (h : ∀ b ∈ l, P b) :
    List.Forall₂ (fun (a : ℕ × JsValue) b => a.2 = toValue b ∧ P b)
      (Slots.visitedFrom start (l.map fun b => (.data, toValue b))) l := by
  induction l generalizing start with
  | nil => exact .nil
  | cons b l ih =>
    obtain ⟨hb, hl⟩ := List.forall_mem_cons.mp h
    exact .cons ⟨rfl, hb⟩ (ih (start + 1) hl)

theorem holes_data {α : Type} (toValue : α → JsValue) (l : List α) :
    Slots.holes (l.map fun b => (.data, toValue b)) = 0 := by
  simp [Slots.holes, List.countP_map, Function.comp_def]

theorem parse_leafOperator (operator : LeafOperator) :
    (Named.parse (Named.text operator) : Option GroupOperator) = none ∧
      Named.text operator ≠ js "not" := by
  cases operator <;> decide

theorem compileReference_congr (h : ∀ key, constants'.hasOwn key = constants.hasOwn key)
    (reference path : JsString) :
    compileReference constants' reference path = compileReference constants reference path := by
  simp only [compileReference, h]

theorem compileGroup_ok {props : Props} {depth : ℕ} {group : GroupOperator} {slots : Slots}
    {extra : List PropertyKey} {conditions : List PolicyCondition} {path : JsString}
    (hoperator : props.get (js "operator") = .string (Named.text group))
    (hkeys : exactKeys props ["operator", "conditions"] path = .ok ())
    (hconditions : props.get (js "conditions") = .array slots extra)
    (hlength : ¬ (slots.length = 0 ∨ slots.length > 32))
    (hall : List.Forall₂ (fun child c => ∀ path, compileCondition constants depth child.2 path =
      .ok c) (Slots.visited slots) conditions) :
    compileCondition constants (depth + 1) (.object true props) path =
      .ok (.group group conditions (Slots.holes slots)) := by
  unfold compileCondition
  simp only [isRecord, hoperator, isString, Option.bind_some, Named.parse_text, hkeys]
  refine Except.bind_eq_ok.mpr ⟨(), rfl, ?_⟩
  simp only [hconditions]
  rw [if_neg hlength]
  exact Except.bind_eq_ok.mpr
    ⟨conditions, Except.mapM_eq_ok.mpr (hall.imp fun _ _ hchild => hchild _), rfl⟩

theorem compileNot_ok {props : Props} {depth : ℕ} {c : PolicyCondition} {path : JsString}
    (hoperator : props.get (js "operator") = .string (js "not"))
    (hkeys : exactKeys props ["operator", "condition"] path = .ok ())
    (hcondition : ∀ path, compileCondition constants depth (props.get (js "condition")) path =
      .ok c) :
    compileCondition constants (depth + 1) (.object true props) path = .ok (.not c) := by
  have hparse : (Named.parse (js "not") : Option GroupOperator) = none := by decide
  unfold compileCondition
  simp only [isRecord, hoperator, isString, Option.bind_some, hparse, if_true, hkeys]
  exact Except.bind_eq_ok.mpr ⟨(), rfl, Except.bind_eq_ok.mpr ⟨c, hcondition _, rfl⟩⟩

theorem compileLeaf_ok {props : Props} {depth : ℕ} {operator : LeafOperator}
    {reference : JsString} {operand : Option JsValue} {path : JsString}
    (hoperator : props.get (js "operator") = .string (Named.text operator))
    (hkeys : exactKeys props ["operator", "reference", "operand"] path = .ok ())
    (hreference : props.get (js "reference") = .string reference) (hlength : 1 ≤ reference.length)
    (hcompile : ∀ path, compileReference constants reference path = .ok ())
    (hoperand : ∀ path, compileOperand operator (props.get (js "operand")) path = .ok operand) :
    compileCondition constants (depth + 1) (.object true props) path =
      .ok (.leaf operator reference operand) := by
  obtain ⟨hparse, hnot⟩ := parse_leafOperator operator
  have htext := @requiredString_text _ _ path none none _
    ⟨reference, hlength, by simp, by simp⟩ hreference
  unfold compileCondition
  simp only [isRecord, hoperator, isString, Option.bind_some, hparse, Option.some.injEq, hnot,
    if_false, Named.parse_text]
  refine Except.bind_eq_ok.mpr ⟨(), hkeys, Except.bind_eq_ok.mpr ⟨_, htext, ?_⟩⟩
  exact Except.bind_eq_ok.mpr ⟨(), hcompile _, Except.bind_eq_ok.mpr ⟨operand, hoperand _, rfl⟩⟩

theorem compileCondition_toValue (hconstants : ∀ key, constants'.hasOwn key = constants.hasOwn key)
    {depth : ℕ} {c : PolicyCondition} (h : Compiled constants depth c) (hfree : HoleFree c)
    (path : JsString) : compileCondition constants' depth c.toValue path = .ok c := by
  induction h generalizing path with
  | @group depth operator conditions holes hconditions hpos hbound ih =>
    obtain ⟨rfl, hfree⟩ := hfree
    have hslots : PolicyCondition.toSlots conditions ++ List.replicate 0 (.hole, .undefined) =
        conditions.map fun c => (.data, c.toValue) := by
      rw [toSlots_eq, List.replicate_zero, List.append_nil]
    have hall : List.Forall₂ (fun (child : ℕ × JsValue) c =>
        ∀ path, compileCondition constants' depth child.2 path = .ok c)
        (Slots.visitedFrom 0 (conditions.map fun c => (.data, c.toValue))) conditions := by
      have hcompiled : ∀ c ∈ conditions, ∀ path,
          compileCondition constants' depth c.toValue path = .ok c :=
        fun c hc => ih c hc (allHoleFree_iff.mp hfree c hc)
      refine (visitedFrom_data PolicyCondition.toValue 0 hcompiled).imp fun child c hchild => ?_
      rw [hchild.1]
      exact hchild.2
    rw [PolicyCondition.toValue, hslots]
    have hcompile := @compileGroup_ok _
      (members [(js "operator", .string (Named.text operator)),
        (js "conditions", .array (conditions.map fun c => (.data, c.toValue)) [])]) _ _ _ _ _ _
      rfl (exactKeys_members path (by simp)) rfl (by rw [List.length_map]; omega) hall
    rwa [holes_data] at hcompile
  | @not depth c _ ih =>
    exact compileNot_ok rfl (exactKeys_members path (by simp)) (ih hfree)
  | @leaf depth operator reference operand hlength hreference hoperand =>
    have hoperandGet : Props.get (members ([(js "operator", .string (Named.text operator)),
        (js "reference", .string reference)] ++ optional "operand" operand)) (js "operand") =
        operand.getD .undefined := by
      cases operand <;> rfl
    refine compileLeaf_ok rfl
      (exactKeys_members path ?_) rfl hlength
      (fun path => (compileReference_congr hconstants _ _).trans (hreference path))
      (fun path => hoperandGet ▸ hoperand path)
    cases operand <;> simp [optional]

end Conditions

section Canonical

open CanonicalJson

variable {host : Host}

def Canonical (host : Host) (v : JsValue) : Prop := ∃ text, canonicalJson host v = .ok text

theorem canonicalizeProps_members (ms : List (JsString × JsValue)) :
    canonicalizeProps host (members ms) = ms.map fun m => (m.1, canonicalize host m.2) := by
  induction ms with
  | nil => rfl
  | cons m ms ih => exact congrArg ((m.1, canonicalize host m.2) :: ·) ih

theorem Canonical.member {ms : List (JsString × JsValue)} (h : Canonical host (.record ms)) :
    ∀ m ∈ ms, Canonical host m.2 := by
  intro m hm
  obtain ⟨text, htext⟩ := h
  change canonicalize host (.object true (members ms)) = .ok text at htext
  rw [canonicalize] at htext
  split at htext
  · cases htext
  · simp only [Bool.not_true, Bool.false_eq_true, if_false] at htext
    obtain ⟨parts, hparts, -⟩ := Except.bind_eq_ok.mp htext
    rw [canonicalizeProps_members] at hparts
    have hmem : (m.1, canonicalize host m.2) ∈
        sortMembers (ms.map fun m => (m.1, canonicalize host m.2)) :=
      mem_sortBy.mpr (List.mem_map_of_mem hm)
    obtain ⟨part, hpart⟩ := Except.eq_ok_of_mapM hparts _ hmem
    obtain ⟨inner, hinner, -⟩ := Except.bind_eq_ok.mp hpart
    exact ⟨inner, hinner⟩

theorem canonicalizeSlots_ok {slots : Slots} {items : List JsString}
    (h : canonicalizeSlots host slots = .ok items) :
    ∀ s ∈ slots, s.1 = .data ∧ Canonical host s.2 := by
  induction slots generalizing items with
  | nil => simp
  | cons s slots ih =>
    obtain ⟨kind, v⟩ := s
    rw [canonicalizeSlots] at h
    by_cases hkind : kind = .data
    · rw [if_neg (not_not.mpr hkind)] at h
      obtain ⟨item, hitem, h⟩ := Except.bind_eq_ok.mp h
      obtain ⟨rest, hrest, -⟩ := Except.bind_eq_ok.mp h
      exact List.forall_mem_cons.mpr ⟨⟨hkind, item, hitem⟩, ih hrest⟩
    · rw [if_pos hkind] at h
      cases h

theorem Canonical.slot {slots : Slots} {extra : List PropertyKey}
    (h : Canonical host (.array slots extra)) : ∀ s ∈ slots, s.1 = .data ∧ Canonical host s.2 := by
  obtain ⟨text, htext⟩ := h
  rw [canonicalJson, canonicalize] at htext
  split at htext
  · cases htext
  · split at htext
    · cases htext
    · obtain ⟨items, hitems, -⟩ := Except.bind_eq_ok.mp htext
      exact canonicalizeSlots_ok hitems

theorem not_canonical_undefined : ¬ Canonical host .undefined := by
  rintro ⟨text, htext⟩
  cases htext

theorem Canonical.stringSet {s : StringSet} (h : Canonical host s.toValue) : s.holes = 0 := by
  by_contra hholes
  refine not_canonical_undefined (h.slot (.data, .undefined) ?_).2
  exact List.mem_append_right _ (List.mem_replicate.mpr ⟨hholes, rfl⟩)

mutual

theorem Canonical.holeFree : ∀ {c : PolicyCondition}, Canonical host c.toValue → HoleFree c
  | .group operator conditions holes, h => by
    have hslots := (h.member (js "conditions", .array (PolicyCondition.toSlots conditions ++
      List.replicate holes (.hole, .undefined)) []) (by simp)).slot
    obtain ⟨hconditions, hreplicate⟩ := List.forall_mem_append.mp hslots
    refine ⟨?_, Canonical.allHoleFree fun s hs => (hconditions s hs).2⟩
    by_contra hholes
    have hhole := (hreplicate _ (List.mem_replicate.mpr ⟨hholes, rfl⟩)).1
    cases hhole
  | .not c, h => Canonical.holeFree (c := c) (h.member (js "condition", c.toValue) (by simp))
  | .leaf _ _ _, _ => trivial

theorem Canonical.allHoleFree : ∀ {cs : List PolicyCondition},
    (∀ s ∈ PolicyCondition.toSlots cs, Canonical host s.2) → AllHoleFree cs
  | [], _ => trivial
  | c :: cs, h => by
    rw [PolicyCondition.toSlots] at h
    obtain ⟨hc, hcs⟩ := List.forall_mem_cons.mp h
    exact ⟨Canonical.holeFree hc, Canonical.allHoleFree hcs⟩

end

end Canonical

section Rules

variable {host : Host} {constants constants' : Props}

structure CompiledRule (constants : Props) (r : CompiledPolicyRule) : Prop where
  when : Compiled constants conditionDepth r.when
  metadata : r.metadata.spread = r.metadata

theorem spread_spread (props : Props) : props.spread.spread = props.spread := by
  unfold Props.spread
  rw [List.filterMap_filterMap]
  refine List.filterMap_congr fun p _ => ?_
  split <;> rfl

theorem compileRuleFields_compiled {props subject resource metadata : Props} {effect : RuleEffect}
    {path : JsString} {r : CompiledPolicyRule}
    (h : compileRuleFields props subject resource effect metadata constants path = .ok r) :
    CompiledRule constants r := by
  obtain ⟨ruleId, -, h⟩ := Except.bind_eq_ok.mp h
  obtain ⟨domain, -, h⟩ := Except.bind_eq_ok.mp h
  obtain ⟨subjectTypes, -, h⟩ := Except.bind_eq_ok.mp h
  obtain ⟨action, -, h⟩ := Except.bind_eq_ok.mp h
  obtain ⟨resourceTypes, -, h⟩ := Except.bind_eq_ok.mp h
  obtain ⟨condition, hcondition, h⟩ := Except.bind_eq_ok.mp h
  obtain ⟨requirements, -, h⟩ := Except.bind_eq_ok.mp h
  obtain ⟨reasonCode, -, h⟩ := Except.bind_eq_ok.mp h
  obtain rfl := Except.ok.inj h
  exact ⟨compileCondition_compiled hcondition, spread_spread metadata⟩

theorem compileRule_compiled {v : JsValue} {index : ℕ} {r : CompiledPolicyRule}
    (h : compileRule v index constants = .ok r) : CompiledRule constants r := by
  unfold compileRule at h
  cases hv : v.isRecord with
  | none => simp [hv, fail] at h
  | some props =>
    simp only [hv] at h
    obtain ⟨_, -, h⟩ := Except.bind_eq_ok.mp h
    split at h
    · cases h
    · split at h
      · obtain ⟨_, -, h⟩ := Except.bind_eq_ok.mp h
        obtain ⟨_, -, h⟩ := Except.bind_eq_ok.mp h
        split at h
        · cases h
        · split at h
          · cases h
          · exact compileRuleFields_compiled h
      · cases h

theorem rule_record (r : CompiledPolicyRule) : ∃ props : Props, r.toValue = .object true props ∧
    (∀ path, exactKeys props ["schemaVersion", "ruleId", "domain", "subjectSelector", "action",
      "resourceSelector", "when", "ruleEffect", "requirements", "reasonCode", "metadata"] path =
      .ok ()) ∧
    props.get (js "schemaVersion") = .string (js "1.0.0") ∧
    props.get (js "ruleId") = .string r.ruleId.value ∧
    props.get (js "domain") = .string r.domain.value ∧
    props.get (js "subjectSelector") =
      .object true (members [(js "subjectTypes", r.subjectTypes.toValue)]) ∧
    props.get (js "action") = .string r.action.value ∧
    props.get (js "resourceSelector") =
      .object true (members [(js "resourceTypes", r.resourceTypes.toValue)]) ∧
    props.get (js "when") = r.when.toValue ∧
    props.get (js "ruleEffect") = .string (Named.text r.ruleEffect) ∧
    props.get (js "requirements") = r.requirements.toValue ∧
    props.get (js "reasonCode") = .string r.reasonCode.value ∧
    props.get (js "metadata") = .object true r.metadata :=
  ⟨_, rfl, fun path => exactKeys_members path (by simp), rfl, rfl, rfl, rfl, rfl, rfl, rfl, rfl,
    rfl, rfl, rfl⟩

theorem compileRule_toValue (hconstants : ∀ key, constants'.hasOwn key = constants.hasOwn key)
    {r : CompiledPolicyRule} (h : CompiledRule constants r) (hcanonical : Canonical host r.toValue)
    (index : ℕ) : compileRule r.toValue index constants' = .ok r := by
  have hmembers := hcanonical.member
  simp only [List.forall_mem_cons] at hmembers
  obtain ⟨-, -, -, hsubject, -, hresource, hwhen, -, hrequirements, -, -, -⟩ := hmembers
  have hsubjectHoles := (hsubject.member (js "subjectTypes", r.subjectTypes.toValue)
    (by simp)).stringSet
  have hresourceHoles := (hresource.member (js "resourceTypes", r.resourceTypes.toValue)
    (by simp)).stringSet
  have hscopes : ∀ s ∈ r.requirements.permissionScopes, s.holes = 0 := by
    intro s hs
    have hmember := hrequirements.member (js "permissionScopes", s.toValue)
      (by simp [optional, Option.mem_def.mp hs])
    exact hmember.stringSet
  obtain ⟨props, hprops, hkeys, hversion, hruleId, hdomain, hsubjectGet, haction, hresourceGet,
    hwhenGet, heffect, hrequirementsGet, hreason, hmetadata⟩ := rule_record r
  have hsubjectSet (path : JsString) : sortedUniqueStrings
      (Props.get (members [(js "subjectTypes", r.subjectTypes.toValue)]) (js "subjectTypes")) path =
      .ok r.subjectTypes := sortedUniqueStrings_toValue hsubjectHoles path
  have hresourceSet (path : JsString) : sortedUniqueStrings
      (Props.get (members [(js "resourceTypes", r.resourceTypes.toValue)]) (js "resourceTypes"))
      path = .ok r.resourceTypes := sortedUniqueStrings_toValue hresourceHoles path
  have hfields (path : JsString) : compileRuleFields props
      (members [(js "subjectTypes", r.subjectTypes.toValue)])
      (members [(js "resourceTypes", r.resourceTypes.toValue)]) r.ruleEffect r.metadata constants'
      path = .ok r := by
    refine Except.bind_eq_ok.mpr ⟨r.ruleId, requiredString_text path _ hruleId, ?_⟩
    refine Except.bind_eq_ok.mpr ⟨r.domain, requiredString_text path _ hdomain, ?_⟩
    refine Except.bind_eq_ok.mpr ⟨r.subjectTypes, hsubjectSet _, ?_⟩
    refine Except.bind_eq_ok.mpr ⟨r.action, requiredString_text path _ haction, ?_⟩
    refine Except.bind_eq_ok.mpr ⟨r.resourceTypes, hresourceSet _, ?_⟩
    refine Except.bind_eq_ok.mpr ⟨r.when, hwhenGet ▸
      compileCondition_toValue hconstants h.when hwhen.holeFree _, ?_⟩
    refine Except.bind_eq_ok.mpr ⟨r.requirements, hrequirementsGet ▸
      compileRequirements_toValue hscopes _, ?_⟩
    refine Except.bind_eq_ok.mpr ⟨r.reasonCode, requiredString_text path _ hreason, ?_⟩
    rw [h.metadata]
    rfl
  unfold compileRule
  simp only [hprops, isRecord, hversion, hsubjectGet, hresourceGet, heffect, hmetadata, isString,
    Option.bind_some, Named.parse_text, hfields]
  refine Except.bind_eq_ok.mpr ⟨(), hkeys _, ?_⟩
  rw [if_neg (by simp)]
  exact Except.bind_eq_ok.mpr ⟨(), exactKeys_members _ (by simp),
    Except.bind_eq_ok.mpr ⟨(), exactKeys_members _ (by simp), rfl⟩⟩

end Rules

section Sets

variable {host : Host}

structure CompiledSet (c : CompiledPolicySet) : Prop where
  rules : ∃ constants : Props, (∀ key, c.constants.hasOwn key = constants.hasOwn key) ∧
    ∀ r ∈ c.rules, CompiledRule constants r
  distinct : (c.rules.map fun rule => rule.ruleId.value).Nodup
  sorted : sortRules c.rules = c.rules
  names : checkConstantNames c.constants = .ok ()
  constants : sortedConstants c.constants = c.constants
  bounded : c.rules.length + c.holes ≤ 4096

theorem arrayIndex_constantName {key : JsString} (h : constantName.test key = true) :
    arrayIndex key = none := by
  have hnot : Pattern.decimal.test key = false := by
    cases key with
    | nil => rfl
    | cons c w =>
      rw [Regex.test_iff, constantName, Regex.cons_mem_lang_seq] at h
      have hupper : CodeUnit.isUpper c = true := by
        rcases h with ⟨u, ⟨a, ha, heq⟩, -⟩ | ⟨⟨a, -, heq⟩, -⟩
        · obtain ⟨rfl, -⟩ := List.cons.inj heq
          exact ha
        · cases heq
      have hdigits : ¬ CodeUnit.inRange '1' '9' c = true ∧ c ≠ 48 := by
        simp only [CodeUnit.isUpper, CodeUnit.inRange, Bool.and_eq_true, decide_eq_true_eq] at hupper ⊢
        constructor
        · rintro ⟨-, hle⟩
          exact absurd (hupper.1.trans hle) (by decide)
        · rintro rfl
          exact absurd hupper.1 (by decide)
      rw [← Bool.not_eq_true, Regex.test_iff, Pattern.decimal, Regex.mem_lang_alt]
      rintro (hzero | hrest)
      · rw [show js "0" = [48] by decide, Regex.text, Regex.cons_mem_lang_seq] at hzero
        rcases hzero with ⟨u, ⟨a, ha, heq⟩, -⟩ | ⟨⟨a, -, heq⟩, -⟩
        · obtain ⟨rfl, -⟩ := List.cons.inj heq
          exact hdigits.2 (by simpa using ha)
        · cases heq
      · rw [Regex.cons_mem_lang_seq] at hrest
        rcases hrest with ⟨u, ⟨a, ha, heq⟩, -⟩ | ⟨⟨a, -, heq⟩, -⟩
        · obtain ⟨rfl, -⟩ := List.cons.inj heq
          exact hdigits.1 ha
        · cases heq
  unfold arrayIndex
  rw [if_neg (by simp [hnot])]

theorem fromEntries_names {entries : List (JsString × JsValue)}
    (h : ∀ e ∈ entries, arrayIndex e.1 = none) : fromEntries entries = members entries := by
  have hindices : entries.filter (fun e => (arrayIndex e.1).isSome) = [] :=
    List.filter_eq_nil_iff.mpr fun e he => by simp [h e he]
  have hnames : entries.filter (fun e => (arrayIndex e.1).isNone) = entries :=
    List.filter_eq_self.mpr fun e he => by simp [h e he]
  simp only [fromEntries, hindices, hnames]
  rfl

theorem entries_members (entries : List (JsString × JsValue)) :
    Props.entries (members entries) = entries := by
  induction entries with
  | nil => rfl
  | cons e entries ih => exact congrArg (e :: ·) ih

theorem sortedConstants_sorted {constants : Props}
    (h : checkConstantNames (sortedConstants constants) = .ok ()) :
    sortedConstants (sortedConstants constants) = sortedConstants constants := by
  have hnames : ∀ key ∈ Props.keys (sortedConstants constants), constantName.test key = true := by
    unfold checkConstantNames at h
    split at h
    · cases h
    · rename_i hfind
      simpa using hfind
  have hindex : ∀ e ∈ CanonicalJson.sortMembers constants.entries, arrayIndex e.1 = none := by
    intro e he
    refine arrayIndex_constantName (hnames e.1 ?_)
    have hkeys := ((fromEntries_perm (CanonicalJson.sortMembers constants.entries)).filterMap
      fun p => if p.1.kind = .hidden then none else p.1.name?).mem_iff (a := e.1)
    refine hkeys.mpr ?_
    have hmem : e.1 ∈ Props.keys (members (CanonicalJson.sortMembers constants.entries)) := by
      rw [keys_members]
      exact List.mem_map_of_mem he
    exact hmem
  have hsorted : sortedConstants constants = members (CanonicalJson.sortMembers constants.entries) :=
    fromEntries_names hindex
  rw [hsorted, sortedConstants, entries_members]
  have htwice : CanonicalJson.sortMembers (CanonicalJson.sortMembers constants.entries) =
      CanonicalJson.sortMembers constants.entries := sortBy_sortBy _ _
  rw [htwice]
  exact fromEntries_names hindex

theorem hasOwn_sortedConstants {plain : Bool} {constants : Props}
    (h : Acceptable (.object plain constants)) (key : JsString) :
    (sortedConstants constants).hasOwn key = constants.hasOwn key := by
  rw [hasOwn_eq, hasOwn_eq]
  exact decide_eq_decide.mpr ((sortedConstants_perm h).map _).mem_iff

theorem compileFields_compiled {plain : Bool} {props source constants : Props} {slots : Slots}
    {kind : SourceKind} {c : CompiledPolicySet} (hconstants : Acceptable (.object plain constants))
    (hlength : slots.length ≤ 4096)
    (h : compileFields props source constants slots kind = .ok c) : CompiledSet c := by
  obtain ⟨rules, hrules, h⟩ := Except.bind_eq_ok.mp h
  split at h
  · cases h
  · rename_i hdistinct
    obtain ⟨⟨⟩, hnames, h⟩ := Except.bind_eq_ok.mp h
    obtain ⟨policySetId, -, h⟩ := Except.bind_eq_ok.mp h
    obtain ⟨version, -, h⟩ := Except.bind_eq_ok.mp h
    obtain ⟨description, -, h⟩ := Except.bind_eq_ok.mp h
    obtain ⟨ref, -, h⟩ := Except.bind_eq_ok.mp h
    obtain rfl := Except.ok.inj h
    have hperm : (sortRules rules).Perm rules := sortBy_perm _ rules
    refine ⟨⟨constants, hasOwn_sortedConstants hconstants, fun r hr => ?_⟩, ?_, sortBy_sortBy _ _,
      hnames, sortedConstants_sorted hnames, ?_⟩
    · obtain ⟨rule, -, hrule⟩ := Except.exists_of_mem_mapM hrules r (hperm.mem_iff.mp hr)
      exact compileRule_compiled hrule
    · exact (hperm.map _).nodup_iff.mpr (by tauto)
    · have hcount := length_visitedFrom 0 slots
      have hsame := (Except.mapM_eq_ok.mp hrules).length_eq
      rw [Slots.visited] at hsame
      have hsorted := hperm.length_eq
      simp only
      omega

theorem isRecord_eq_some {v : JsValue} {props : Props} :
    v.isRecord = some props ↔ v = .object true props := by
  cases v with
  | object plain inner => cases plain <;> simp [isRecord]
  | _ => simp [isRecord]

theorem compileSource_compiled {v : JsValue} {c : CompiledPolicySet} (hacceptable : Acceptable v)
    (h : compileSource v = .ok c) : CompiledSet c := by
  unfold compileSource at h
  cases v with
  | object plain props =>
    cases plain with
    | false => simp [isRecord, fail] at h
    | true =>
      simp only [isRecord] at h
      obtain ⟨_, -, h⟩ := Except.bind_eq_ok.mp h
      split at h
      · cases h
      · split at h
        · rename_i source constants slots hsource hconstants hrules
          split at h
          · cases h
          · rename_i hlength
            obtain ⟨_, -, h⟩ := Except.bind_eq_ok.mp h
            split at h
            · cases h
            · refine @compileFields_compiled true _ _ _ _ _ _ ?_ (by omega) h
              rcases hacceptable.get (js "constants") with hundefined | hacceptable
              · rw [hundefined] at hconstants
                cases hconstants
              · generalize Props.get props (js "constants") = w at hconstants hacceptable
                rwa [← isRecord_eq_some.mp hconstants]
        · cases h
  | _ => simp [isRecord, fail] at h

theorem set_record (c : CompiledPolicySet) : ∃ props : Props, c.toValue = .object true props ∧
    (∀ path, exactKeys props ["schemaVersion", "policySetId", "version", "description", "source",
      "defaultOutcome", "constants", "rules"] path = .ok ()) ∧
    props.get (js "schemaVersion") = .string (js "1.0.0") ∧
    props.get (js "policySetId") = .string c.policySetId.value ∧
    props.get (js "version") = .string c.version.value ∧
    props.get (js "description") = .string c.description.value ∧
    props.get (js "source") = .object true (members
      [(js "kind", .string (Named.text c.sourceKind)), (js "ref", .string c.sourceRef.value)]) ∧
    props.get (js "defaultOutcome") = .string (js "DENY") ∧
    props.get (js "constants") = .object true c.constants ∧
    props.get (js "rules") = .array (c.rules.map (fun r => (.data, r.toValue)) ++
      List.replicate c.holes (.data, .undefined)) [] :=
  ⟨_, rfl, fun path => exactKeys_members path (by simp), rfl, rfl, rfl, rfl, rfl, rfl, rfl, rfl⟩

theorem compileSource_toValue {c : CompiledPolicySet} (h : CompiledSet c)
    (hcanonical : Canonical host c.toValue) : compileSource c.toValue = .ok c := by
  obtain ⟨constants, hhasOwn, hrules⟩ := h.rules
  obtain ⟨props, hprops, hkeys, hversion, hid, hpolicyVersion, hdescription, hsource, hdefault,
    hconstants, hrulesGet⟩ := set_record c
  have hslots := (hcanonical.member (js "rules", .array (c.rules.map (fun r => (.data, r.toValue)) ++
    List.replicate c.holes (.data, .undefined)) []) (by simp)).slot
  have hholes : c.holes = 0 := by
    by_contra hholes
    refine not_canonical_undefined (hslots (.data, .undefined) ?_).2
    exact List.mem_append_right _ (List.mem_replicate.mpr ⟨hholes, rfl⟩)
  rw [hholes, List.replicate_zero, List.append_nil] at hrulesGet hslots
  have hcompile : compileRules (c.rules.map fun r => (.data, r.toValue)) c.constants =
      .ok c.rules := by
    have hall : ∀ r ∈ c.rules, ∀ index, compileRule r.toValue index c.constants = .ok r := by
      intro r hr
      exact compileRule_toValue hhasOwn (hrules r hr)
        (hslots (.data, r.toValue) (List.mem_map_of_mem hr)).2
    refine Except.mapM_eq_ok.mpr ((visitedFrom_data CompiledPolicyRule.toValue 0 hall).imp ?_)
    intro rule r hrule
    rw [hrule.1]
    exact hrule.2 _
  have hfields : compileFields props (members [(js "kind", .string (Named.text c.sourceKind)),
      (js "ref", .string c.sourceRef.value)]) c.constants
      (c.rules.map fun r => (.data, r.toValue)) c.sourceKind = .ok c := by
    refine Except.bind_eq_ok.mpr ⟨c.rules, hcompile, ?_⟩
    rw [holes_data, if_neg (by simpa using h.distinct)]
    refine Except.bind_eq_ok.mpr ⟨(), h.constants.symm ▸ h.names, ?_⟩
    refine Except.bind_eq_ok.mpr ⟨c.policySetId, requiredString_text _ _ hid, ?_⟩
    refine Except.bind_eq_ok.mpr ⟨c.version, requiredString_text _ _ hpolicyVersion, ?_⟩
    refine Except.bind_eq_ok.mpr ⟨c.description, requiredString_text _ _ hdescription, ?_⟩
    refine Except.bind_eq_ok.mpr ⟨c.sourceRef, requiredString_text _ _ rfl, ?_⟩
    rw [h.constants, h.sorted, ← hholes]
    rfl
  have hkind : (Props.get (members [(js "kind", .string (Named.text c.sourceKind)),
      (js "ref", .string c.sourceRef.value)]) (js "kind")) = .string (Named.text c.sourceKind) := rfl
  unfold compileSource
  simp only [hprops, isRecord, hversion, hdefault, hsource, hconstants, hrulesGet, isArray,
    isString, hkind, Option.bind_some, Named.parse_text, hfields]
  refine Except.bind_eq_ok.mpr ⟨(), hkeys _, ?_⟩
  rw [if_neg (by simp), if_neg (by have := h.bounded; rw [List.length_map]; omega)]
  exact Except.bind_eq_ok.mpr ⟨(), exactKeys_members _ (by simp), rfl⟩

theorem compilePolicySet_toValue {v : JsValue} {s : CompileSuccess}
    (h : compilePolicySet host v = .ok s) : compilePolicySet host s.value.toValue = .ok s := by
  obtain ⟨hacceptable, hsource, hvalue, htext, hhash⟩ := compilePolicySet_eq_ok.mp h
  refine compilePolicySet_eq_ok.mpr ⟨hvalue, ?_, hvalue, htext, hhash⟩
  exact compileSource_toValue (compileSource_compiled hacceptable hsource) ⟨s.canonicalJson, htext⟩

end Sets

end Aseos.Policy
