import Aseos.Js.KeyOrder

namespace Aseos

namespace JsValue

inductive Within (u : JsValue) : JsValue → Prop
  | self : Within u u
  | slot {slots extra s} : s ∈ slots → Within u s.2 → Within u (.array slots extra)
  | member {plain props p} : p ∈ props → Within u p.2 → Within u (.object plain props)

-- What one value contributes by itself: no cycle, no sparse or extended array, no accessor, no
-- hidden or symbol property, a plain object, a finite number, nothing that JSON has no text for.
def Admissible : JsValue → Prop
  | .null | .bool _ | .string _ => True
  | .number n => n.isFinite = true
  | .array slots extra => extra = [] ∧ ∀ s ∈ slots, s.1 = .data
  | .object plain props => plain = true ∧ ∀ p ∈ props, p.1 = .own p.1.sortKey
  | .undefined | .foreign _ | .cycle => False

def IsJson (v : JsValue) : Prop := ∀ u, Within u v → Admissible u

theorem isJson_array {slots : Slots} {extra : List PropertyKey} :
    IsJson (.array slots extra) ↔ extra = [] ∧ ∀ s ∈ slots, s.1 = .data ∧ IsJson s.2 := by
  constructor
  · intro h
    obtain ⟨hextra, hdata⟩ := h _ .self
    exact ⟨hextra, fun s hs => ⟨hdata s hs, fun u hu => h u (.slot hs hu)⟩⟩
  · rintro ⟨hextra, hslots⟩ u hu
    cases hu with
    | self => exact ⟨hextra, fun s hs => (hslots s hs).1⟩
    | slot hs hu => exact (hslots _ hs).2 u hu

theorem isJson_object {plain : Bool} {props : Props} :
    IsJson (.object plain props) ↔
      plain = true ∧ ∀ p ∈ props, p.1 = .own p.1.sortKey ∧ IsJson p.2 := by
  constructor
  · intro h
    obtain ⟨hplain, hown⟩ := h _ .self
    exact ⟨hplain, fun p hp => ⟨hown p hp, fun u hu => h u (.member hp hu)⟩⟩
  · rintro ⟨hplain, hprops⟩ u hu
    cases hu with
    | self => exact ⟨hplain, fun p hp => (hprops p hp).1⟩
    | member hp hu => exact (hprops _ hp).2 u hu

theorem isJson_atom {v : JsValue} (harray : ∀ slots extra, v ≠ .array slots extra)
    (hobject : ∀ plain props, v ≠ .object plain props) : IsJson v ↔ Admissible v := by
  constructor
  · exact fun h => h v .self
  · intro h u hu
    cases hu with
    | self => exact h
    | slot => exact absurd rfl (harray _ _)
    | member => exact absurd rfl (hobject _ _)

theorem ownKeys_own {props : Props} (h : ∀ p ∈ props, p.1 = .own p.1.sortKey) :
    Props.ownKeys props = (props.map fun p => p.1.sortKey).map PropertyKey.text := by
  simp only [Props.ownKeys, List.map_map]
  exact List.map_congr_left fun p hp => congrArg Field.key (h p hp)

theorem IsJson.keyed {v : JsValue} (h : IsJson v) (hv : v.WellFormed) : Keyed v := by
  induction v using nestedInduction with
  | array slots extra ih =>
    refine .array fun s hs _ => ih s hs ((isJson_array.mp h).2 s hs).2 ?_
    exact slotsWellFormed_iff.mp hv s hs
  | object plain props ih =>
    obtain ⟨-, hprops⟩ := isJson_object.mp h
    have hown := fun p hp => (hprops p hp).1
    refine .object hown ?_ fun p hp => ih p hp (hprops p hp).2 (propsWellFormed_iff.mp hv.2 p hp)
    exact (ownKeys_own hown ▸ hv.1).of_map _
  | atom v harray hobject => exact .atom harray hobject

end JsValue

end Aseos
