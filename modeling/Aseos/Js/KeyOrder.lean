import Aseos.Js.Rearrangement
import Mathlib.Data.List.Find
import Mathlib.Data.List.Nodup

namespace Aseos

namespace Field

def sortKey (f : Field) : JsString := f.name?.getD []

end Field

namespace Props

-- An own key that is an array index comes before the others, in numeric order.
def arrayIndex (key : JsString) : Option ℕ :=
  if Pattern.decimal.test key then
    let value := key.foldl (fun n c => 10 * n + (c.val - '0'.toNat)) 0
    if value < 4294967295 then some value else none
  else none

-- `Object.fromEntries`
def fromEntries (entries : List (JsString × JsValue)) : Props :=
  let indices := entries.filter (fun e => (arrayIndex e.1).isSome)
  let names := entries.filter (fun e => (arrayIndex e.1).isNone)
  (sortBy (fun e => (arrayIndex e.1).getD 0) indices ++ names).map (fun e => (.own e.1, e.2))

theorem fromEntries_perm (entries : List (JsString × JsValue)) :
    (fromEntries entries).Perm (entries.map fun e => (.own e.1, e.2)) := by
  refine List.Perm.map _ ?_
  have hsplit := List.filter_append_perm (fun e : JsString × JsValue => (arrayIndex e.1).isSome)
    entries
  refine ((sortBy_perm _ _).append_right _).trans ?_
  simpa [Option.isNone_iff_eq_none, ← Option.not_isSome] using hsplit

theorem get_perm {props props' : Props} (hnodup : props.ownKeys.Nodup)
    (hperm : props.Perm props') (key : JsString) : props.get key = props'.get key := by
  unfold Props.get
  rw [List.find?_eq_find?_of_perm hperm]
  rintro p ⟨hp, hkey⟩ q ⟨hq, hkey'⟩
  refine List.inj_on_of_nodup_map hnodup hp hq ?_
  rw [of_decide_eq_true hkey, of_decide_eq_true hkey']

theorem hasOwn_eq (props : Props) (key : JsString) :
    props.hasOwn key = decide (PropertyKey.text key ∈ props.ownKeys) := by
  rw [Bool.eq_iff_iff, decide_eq_true_iff]
  simp [Props.hasOwn, Props.ownKeys]

end Props

namespace JsValue

@[elab_as_elim]
theorem nestedInduction {motive : JsValue → Prop}
    (array : ∀ slots extra, (∀ s ∈ slots, motive s.2) → motive (.array slots extra))
    (object : ∀ plain props, (∀ p ∈ props, motive p.2) → motive (.object plain props))
    (atom : ∀ v, (∀ slots extra, v ≠ .array slots extra) → (∀ plain props, v ≠ .object plain props) →
      motive v) (v : JsValue) : motive v := by
  match v with
  | .array slots extra =>
    exact array slots extra fun s hs => nestedInduction array object atom s.2
  | .object plain props =>
    exact object plain props fun p hp => nestedInduction array object atom p.2
  | .undefined | .null | .bool _ | .number _ | .string _ | .foreign _ | .cycle =>
    exact atom _ (by simp) (by simp)
termination_by sizeOf v
decreasing_by
  · obtain ⟨kind, w⟩ := s
    have hsize := List.sizeOf_lt_of_mem hs
    simp only [JsValue.array.sizeOf_spec, Prod.mk.sizeOf_spec] at hsize ⊢
    omega
  · obtain ⟨field, w⟩ := p
    have hsize := List.sizeOf_lt_of_mem hp
    simp only [JsValue.object.sizeOf_spec, Prod.mk.sizeOf_spec] at hsize ⊢
    omega

def sortFields (props : Props) : Props := sortBy (fun p => p.1.sortKey) props

mutual

def keysSorted : JsValue → JsValue
  | .array slots extra => .array (slotsSorted slots) extra
  | .object plain props => .object plain (sortFields (propsSorted props))
  | v => v

def slotsSorted : List (SlotKind × JsValue) → List (SlotKind × JsValue)
  | [] => []
  | (kind, v) :: slots => (kind, keysSorted v) :: slotsSorted slots

def propsSorted : List (Field × JsValue) → List (Field × JsValue)
  | [] => []
  | (field, v) :: props => (field, keysSorted v) :: propsSorted props

end

theorem slotsSorted_eq (slots : Slots) :
    slotsSorted slots = slots.map fun s => (s.1, keysSorted s.2) := by
  induction slots with
  | nil => rfl
  | cons s slots ih => rw [slotsSorted, ih, List.map_cons]

theorem propsSorted_eq (props : Props) :
    propsSorted props = props.map fun p => (p.1, keysSorted p.2) := by
  induction props with
  | nil => rfl
  | cons p props ih => rw [propsSorted, ih, List.map_cons]

theorem ownKeys_propsSorted (props : Props) :
    Props.ownKeys (propsSorted props) = props.ownKeys := by
  simp [propsSorted_eq, Props.ownKeys]

theorem get_propsSorted (props : Props) (key : JsString) :
    Props.get (propsSorted props) key = keysSorted (props.get key) := by
  induction props with
  | nil => rfl
  | cons p props ih =>
    obtain ⟨field, v⟩ := p
    rw [propsSorted, Props.get_cons, Props.get_cons, ih]
    split <;> rfl

mutual

def unsigned : JsValue → JsValue
  | .number (.finite x) => .number (.finite x.unsigned)
  | .array slots extra => .array (slotsUnsigned slots) extra
  | .object plain props => .object plain (propsUnsigned props)
  | v => v

def slotsUnsigned : List (SlotKind × JsValue) → List (SlotKind × JsValue)
  | [] => []
  | (kind, v) :: slots => (kind, unsigned v) :: slotsUnsigned slots

def propsUnsigned : List (Field × JsValue) → List (Field × JsValue)
  | [] => []
  | (field, v) :: props => (field, unsigned v) :: propsUnsigned props

end

theorem slotsUnsigned_eq (slots : Slots) :
    slotsUnsigned slots = slots.map fun s => (s.1, unsigned s.2) := by
  induction slots with
  | nil => rfl
  | cons s slots ih => rw [slotsUnsigned, ih, List.map_cons]

theorem propsUnsigned_eq (props : Props) :
    propsUnsigned props = props.map fun p => (p.1, unsigned p.2) := by
  induction props with
  | nil => rfl
  | cons p props ih => rw [propsUnsigned, ih, List.map_cons]

inductive Keyed : JsValue → Prop
  | atom {v} : (∀ slots extra, v ≠ .array slots extra) →
      (∀ plain props, v ≠ .object plain props) → Keyed v
  | array {slots extra} : (∀ s ∈ slots, s.1 ≠ .hole → Keyed s.2) → Keyed (.array slots extra)
  | object {plain props} : (∀ p ∈ props, p.1 = .own p.1.sortKey) →
      (props.map fun p => p.1.sortKey).Nodup → (∀ p ∈ props, Keyed p.2) →
      Keyed (.object plain props)

end JsValue

end Aseos
