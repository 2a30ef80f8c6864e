import Aseos.Contracts.DecimalRuntime
import Aseos.Contracts.Stringify
import Aseos.Js.Parsed

namespace Aseos

namespace JsValue

-- `value?.key`
def property (value : JsValue) (key : JsString) : JsValue :=
  match value with
  | .object _ props => Props.get props key
  | _ => .undefined

-- The members of `{ ...value }`.
def spread : JsValue → Props
  | .object _ props => Props.spread props
  | .array slots _ => slots.zipIdx.map fun s => (.own (Decimal.digits s.2), s.1.2)
  | .string s => s.zipIdx.map fun c => (.own (Decimal.digits c.2), .string [c.1])
  | _ => []

-- `{ ...value, [key]: undefined }`
def without (value : JsValue) (key : JsString) : JsValue :=
  .object true <|
    if Props.hasOwn value.spread key then
      value.spread.map fun p => if p.1.key = .text key then (p.1, .undefined) else p
    else value.spread ++ [(.own key, .undefined)]

mutual

-- `String(value)` for a value read from JSON text.
def toText (host : Host) : JsValue → JsString
  | .undefined => js "undefined"
  | .null => js "null"
  | .bool b => if b then js "true" else js "false"
  | .number .nan => js "NaN"
  | .number (.infinity negative) => if negative then js "-Infinity" else js "Infinity"
  | .number (.finite x) => host.numberText x
  | .string s => s
  | .array slots _ => JsonText.commaSeparated (slotsToText host slots)
  | .object _ _ | .foreign _ | .cycle => js "[object Object]"

def slotsToText (host : Host) : List (SlotKind × JsValue) → List JsString
  | [] => []
  | (_, .undefined) :: slots | (_, .null) :: slots => [] :: slotsToText host slots
  | (_, v) :: slots => toText host v :: slotsToText host slots

end

theorem ofStrings_inj {strings strings' : List JsString}
    (h : (ofStrings strings).restored = (ofStrings strings').restored) : strings = strings' := by
  have hslots (strings : List JsString) :
      slotsRestored (strings.map fun s => (.data, .string s)) = strings.map JsValue.string := by
    induction strings with
    | nil => rfl
    | cons s strings ih =>
      rw [List.map_cons, slotsRestored, ih]
      rfl
  rw [ofStrings, ofStrings, restored, restored, hslots, hslots] at h
  simp only [Json.arrayOf, List.map_map, Option.some.injEq, JsValue.array.injEq, and_true] at h
  refine List.map_injective_iff.mpr (fun s t hst => ?_) h
  simpa using hst

theorem Keyed.props {plain : Bool} {props : Props} (h : Keyed (.object plain props)) :
    (∀ p ∈ props, p.1 = .own p.1.sortKey) ∧ (props.map fun p => p.1.sortKey).Nodup ∧
      ∀ p ∈ props, Keyed p.2 := by
  cases h with
  | atom _ hobject => exact absurd rfl (hobject _ _)
  | object hown hdistinct hprops => exact ⟨hown, hdistinct, hprops⟩

theorem Document.property {v : JsValue} (h : Document v) (key : JsString) :
    v.property key = .undefined ∨ Document (v.property key) := by
  cases h with
  | @object props hown hdistinct hprops =>
    rw [JsValue.property, Props.get]
    cases hfind : props.find? (fun p => p.1.key = .text key) with
    | none => exact .inl rfl
    | some p => exact .inr (hprops p (List.mem_of_find?_eq_some hfind))
  | _ => exact .inl rfl

theorem spread_eq {props : Props} (hown : ∀ p ∈ props, p.1 = .own p.1.sortKey) :
    Props.spread props = props := by
  induction props with
  | nil => rfl
  | cons p props ih =>
    obtain ⟨field, v⟩ := p
    obtain ⟨hfield, hprops⟩ := List.forall_mem_cons.mp hown
    have hrest := ih hprops
    rw [Props.spread] at hrest ⊢
    rw [List.filterMap_cons, hrest, show field = .own field.sortKey from hfield]
    rfl

variable {v w : JsValue} {key : JsString}

theorem without_eq {plain : Bool} {props : Props} (h : Keyed (.object plain props)) :
    ∃ props' : Props, (JsValue.object plain props).without key = .object true props' ∧
      Keyed (.object true props') ∧
      ∀ key' ≠ key, Props.get props' key' = Props.get props key' := by
  obtain ⟨hown, hdistinct, hprops⟩ := h.props
  have hundefined : Keyed .undefined := .atom (by simp) (by simp)
  rw [without, JsValue.spread, spread_eq hown]
  split
  · refine ⟨_, rfl, .object (fun p hp => ?_) ?_ fun p hp => ?_, fun key' hkey => ?_⟩
    · obtain ⟨q, hq, rfl⟩ := List.mem_map.mp hp
      split <;> exact hown q hq
    · rw [List.map_map]
      refine (List.map_congr_left fun p _ => ?_ : _ = props.map fun p => p.1.sortKey) ▸ hdistinct
      simp only [Function.comp_apply]
      split <;> rfl
    · obtain ⟨q, hq, rfl⟩ := List.mem_map.mp hp
      split
      · exact hundefined
      · exact hprops q hq
    · clear h hown hdistinct hprops
      rename_i hhas
      clear hhas
      induction props with
      | nil => rfl
      | cons p props ih =>
        obtain ⟨field, w⟩ := p
        rw [List.map_cons, Props.get_cons]
        by_cases hsame : field.key = .text key
        · rw [if_pos hsame, Props.get_cons, hsame, ih]
          have hne : ¬ PropertyKey.text key = .text key' := by
            simpa using fun h => hkey h.symm
          rw [if_neg hne, if_neg hne]
        · rw [if_neg hsame, Props.get_cons, ih]
  · rename_i hhas
    have hnew : key ∉ props.map fun p => p.1.sortKey := by
      intro hmem
      obtain ⟨p, hp, rfl⟩ := List.mem_map.mp hmem
      refine hhas ?_
      rw [Props.hasOwn, List.any_eq_true]
      exact ⟨p, hp, decide_eq_true (by rw [hown p hp]; rfl)⟩
    refine ⟨_, rfl, .object (fun p hp => ?_) ?_ fun p hp => ?_, fun key' hkey => ?_⟩
    · rcases List.mem_append.mp hp with hp | hp
      · exact hown p hp
      · obtain rfl := List.mem_singleton.mp hp
        rfl
    · rw [List.map_append, List.nodup_append]
      exact ⟨hdistinct, by simp, by rintro a ha b hb rfl; simp [Field.sortKey, Field.own, Field.name?] at hb; exact hnew (hb ▸ ha)⟩
    · rcases List.mem_append.mp hp with hp | hp
      · exact hprops p hp
      · obtain rfl := List.mem_singleton.mp hp
        exact hundefined
    · clear h hown hdistinct hprops hhas hnew
      induction props with
      | nil =>
        rw [List.nil_append, Props.get_cons, if_neg]
        simpa [Field.own] using fun h => hkey h.symm
      | cons p props ih =>
        rw [List.cons_append, Props.get_cons, Props.get_cons, ih]

theorem restored_property (hv : Document v) (hw : Document w)
    (hobject : ∃ plain props, v = .object plain props)
    (hobject' : ∃ plain props, w = .object plain props)
    (h : (v.without key).restored = (w.without key).restored) :
    ∀ key' ≠ key, (v.property key').restored = (w.property key').restored := by
  obtain ⟨plain, props, rfl⟩ := hobject
  obtain ⟨plain', props', rfl⟩ := hobject'
  obtain ⟨ps, hps, hkeyed, hget⟩ := without_eq hv.keyed
  obtain ⟨ps', hps', hkeyed', hget'⟩ := without_eq hw.keyed
  intro key' hkey
  rw [JsValue.property, JsValue.property, ← hget key' hkey, ← hget' key' hkey]
  rw [hps, hps'] at h
  exact restored_get hkeyed hkeyed' h key'

end JsValue

end Aseos
