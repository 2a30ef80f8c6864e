import Aseos.Contracts.CanonicalForm

namespace Aseos

namespace Json

open JsonText

variable (host : Host)

mutual

-- `JSON.stringify`: what has no text of its own is left out of an object and is null in an array.
-- It is given no cycle and no bigint, on which it throws.
def stringify : JsValue → Option JsString
  | .undefined | .foreign _ | .cycle => none
  | .null => some (js "null")
  | .bool b => some (if b then js "true" else js "false")
  | .number (.finite x) => some (host.numberText x)
  | .number _ => some (js "null")
  | .string s => some (quote s)
  | .array slots _ => some (js "[" ++ commaSeparated (stringifySlots slots) ++ js "]")
  | .object _ props => some (js "\x7b" ++ commaSeparated (stringifyProps props) ++ js "\x7d")

def stringifySlots : List (SlotKind × JsValue) → List JsString
  | [] => []
  | (_, v) :: slots => (stringify v).getD (js "null") :: stringifySlots slots

def stringifyProps : List (Field × JsValue) → List JsString
  | [] => []
  | (field, v) :: props =>
      match field.kind, field.key, stringify v with
      | .hidden, _, _ | _, .symbol _, _ | _, _, none => stringifyProps props
      | _, .text key, some text => (quote key ++ js ":" ++ text) :: stringifyProps props

end

end Json

namespace JsValue

mutual

-- What `JSON.parse` makes of the text that `JSON.stringify` gives.
def restored : JsValue → Option JsValue
  | .undefined | .foreign _ | .cycle => none
  | .null => some .null
  | .bool b => some (.bool b)
  | .number (.finite x) => some (.number (.finite x.unsigned))
  | .number _ => some .null
  | .string s => some (.string s)
  | .array slots _ => some (Json.arrayOf (slotsRestored slots))
  | .object _ props => some (Json.objectOf (propsRestored props))

def slotsRestored : List (SlotKind × JsValue) → List JsValue
  | [] => []
  | (_, v) :: slots => (restored v).getD .null :: slotsRestored slots

def propsRestored : List (Field × JsValue) → List (JsString × JsValue)
  | [] => []
  | (field, v) :: props =>
      match field.kind, field.key, restored v with
      | .hidden, _, _ | _, .symbol _, _ | _, _, none => propsRestored props
      | _, .text key, some w => (key, w) :: propsRestored props

end

end JsValue

namespace Json

open JsonText JsValue

variable {runtime : JsonRuntime}

inductive Restores (runtime : JsonRuntime) : Option JsString → Option JsValue → Prop
  | none : Restores runtime none none
  | some {text : JsString} {w : JsValue} : Parses runtime text w →
      Restores runtime (some text) (some w)

theorem stringify_restores (v : JsValue) :
    Restores runtime (stringify runtime.toHost v) v.restored := by
  induction v using nestedInduction with
  | array slots extra ih =>
    rw [stringify, restored]
    refine .some (parses_array ?_)
    induction slots with
    | nil => exact .nil
    | cons s slots hslots =>
      obtain ⟨hs, htail⟩ := List.forall_mem_cons.mp ih
      rw [stringifySlots, slotsRestored]
      refine .cons ?_ (hslots htail)
      generalize stringify runtime.toHost s.2 = text at hs ⊢
      generalize s.2.restored = w at hs ⊢
      cases hs with
      | none => exact parses_null
      | some h => exact h
  | object plain props ih =>
    rw [stringify, restored]
    refine .some (parses_object ?_)
    induction props with
    | nil => exact .nil
    | cons p props hprops =>
      obtain ⟨⟨key, kind⟩, v⟩ := p
      obtain ⟨hp, htail⟩ := List.forall_mem_cons.mp ih
      rw [stringifyProps, propsRestored]
      simp only at hp ⊢
      generalize stringify runtime.toHost v = text at hp ⊢
      generalize restored v = w at hp ⊢
      cases hp with
      | none => cases kind <;> cases key <;> exact hprops htail
      | some h =>
        cases kind <;> cases key <;>
          first | exact hprops htail | exact .cons ⟨_, rfl, h⟩ (hprops htail)
  | atom v harray hobject =>
    cases v with
    | undefined | foreign type | cycle => exact .none
    | null => exact .some parses_null
    | bool b => exact .some (parses_bool b)
    | number n =>
      cases n with
      | finite x => exact .some (parses_number x)
      | _ => exact .some parses_null
    | string s => exact .some (parses_string s)
    | array slots extra => exact absurd rfl (harray slots extra)
    | object plain props => exact absurd rfl (hobject plain props)

theorem parse_stringify {v : JsValue} {text : JsString}
    (h : stringify runtime.toHost v = some text) :
    Json.parse runtime.numberValue text = v.restored := by
  have hrestores := @stringify_restores runtime v
  rw [h] at hrestores
  generalize v.restored = w at hrestores ⊢
  cases hrestores with
  | some hparses =>
    have hrun := hparses.run (text.length + 1) [] stops_nil (Nat.le_succ _)
    rw [List.append_nil] at hrun
    rw [Json.parse, hrun]
    rfl

theorem restored_eq_of_stringify {v w : JsValue}
    (h : stringify runtime.toHost v = stringify runtime.toHost w) : v.restored = w.restored := by
  cases hv : stringify runtime.toHost v with
  | none =>
    have hnone {u : JsValue} (hu : stringify runtime.toHost u = none) : u.restored = none := by
      have hrestores := @stringify_restores runtime u
      rw [hu] at hrestores
      generalize u.restored = r at hrestores
      cases hrestores
      rfl
    rw [hnone hv, hnone (h ▸ hv)]
  | some text => rw [← parse_stringify hv, ← parse_stringify (h ▸ hv)]

end Json

namespace JsValue

theorem restored_ne_undefined (v : JsValue) : v.restored ≠ some .undefined := by
  cases v with
  | number n => cases n <;> simp [restored]
  | _ => simp [restored, Json.arrayOf, Json.objectOf]

theorem getD_undefined_inj {a b : Option JsValue} (ha : a ≠ some .undefined)
    (hb : b ≠ some .undefined) (h : a.getD .undefined = b.getD .undefined) : a = b := by
  cases a <;> cases b <;> simp_all

theorem propsRestored_eq {props : Props} (hown : ∀ p ∈ props, p.1 = .own p.1.sortKey) :
    propsRestored props = props.filterMap fun p => p.2.restored.map (p.1.sortKey, ·) := by
  induction props with
  | nil => rfl
  | cons p props ih =>
    obtain ⟨field, v⟩ := p
    obtain ⟨hfield, hprops⟩ := List.forall_mem_cons.mp hown
    simp only at hfield
    rw [propsRestored, ih hprops, List.filterMap_cons]
    cases hrestored : v.restored <;> rw [hfield] <;> 
      simp [Field.own, Field.sortKey, Field.name?]

theorem keys_propsRestored {props : Props} (hown : ∀ p ∈ props, p.1 = .own p.1.sortKey) :
    ((propsRestored props).map Prod.fst).Sublist (props.map fun p => p.1.sortKey) := by
  rw [propsRestored_eq hown]
  clear hown
  induction props with
  | nil => exact .slnil
  | cons p props ih =>
    rw [List.filterMap_cons]
    cases p.2.restored with
    | none => exact ih.cons _
    | some w => exact ih.cons_cons _

theorem get_of_notMem {props : Props} {key : JsString} (hkey : key ∉ props.map fun p => p.1.sortKey) :
    props.get key = .undefined := by
  rw [Props.get, List.find?_eq_none.mpr]
  · rfl
  · intro p hp hfound
    refine hkey (List.mem_map.mpr ⟨p, hp, ?_⟩)
    rw [Field.sortKey, Field.name?, of_decide_eq_true hfound]
    rfl

theorem get_propsRestored {props : Props} (hown : ∀ p ∈ props, p.1 = .own p.1.sortKey)
    (hdistinct : (props.map fun p => p.1.sortKey).Nodup) (key : JsString) :
    Props.get ((propsRestored props).map fun e => (.own e.1, e.2)) key =
      (props.get key).restored.getD .undefined := by
  rw [propsRestored_eq hown]
  induction props with
  | nil => rfl
  | cons p props ih =>
    obtain ⟨field, v⟩ := p
    obtain ⟨hfield, hprops⟩ := List.forall_mem_cons.mp hown
    obtain ⟨hnew, htail⟩ := List.nodup_cons.mp hdistinct
    have hkey : (field.key = .text key) ↔ field.sortKey = key := by
      rw [show field = .own field.sortKey from hfield]
      simp [Field.own, Field.sortKey, Field.name?]
    have hrest := ih hprops htail
    rw [List.filterMap_cons, Props.get_cons]
    simp only [hkey]
    by_cases hsame : field.sortKey = key
    · subst hsame
      have hnone := get_of_notMem hnew
      cases hv : v.restored with
      | none => simpa [hv, hnone, restored] using hrest
      | some w => simp [hv, Props.get_cons, Field.own]
    · rw [if_neg hsame, ← hrest]
      cases hv : v.restored with
      | none => rfl
      | some w => simp [Props.get_cons, Field.own, hsame]

theorem keysNodup_restored {props : Props} (hown : ∀ p ∈ props, p.1 = .own p.1.sortKey)
    (hdistinct : (props.map fun p => p.1.sortKey).Nodup) :
    (Props.ownKeys ((propsRestored props).map fun e => (Field.own e.1, e.2))).Nodup := by
  have hkeys : Props.ownKeys ((propsRestored props).map fun e => (Field.own e.1, e.2)) =
      ((propsRestored props).map Prod.fst).map PropertyKey.text := by
    simp [Props.ownKeys, Field.own]
  rw [hkeys]
  exact ((keys_propsRestored hown).nodup hdistinct).map fun _ _ => PropertyKey.text.inj

theorem restored_get {plain plain' : Bool} {props props' : Props}
    (hprops : Keyed (.object plain props)) (hprops' : Keyed (.object plain' props'))
    (h : restored (.object plain props) = restored (.object plain' props')) (key : JsString) :
    (props.get key).restored = (props'.get key).restored := by
  have hrun {plain : Bool} {props : Props} (hprops : Keyed (.object plain props)) :
      ∃ P : Props, restored (.object plain props) = some (.object true P) ∧
        P.get key = (props.get key).restored.getD .undefined := by
    cases hprops with
    | atom _ hobject => exact absurd rfl (hobject _ _)
    | object hown hdistinct _ =>
      obtain ⟨P, hP, hperm⟩ := objectOf_eq ((keys_propsRestored hown).nodup hdistinct)
      refine ⟨P, by rw [restored, hP], ?_⟩
      rw [← get_propsRestored hown hdistinct]
      exact (Props.get_perm (keysNodup_restored hown hdistinct) hperm.symm key).symm
  obtain ⟨P, hP, hget⟩ := hrun hprops
  obtain ⟨P', hP', hget'⟩ := hrun hprops'
  obtain rfl : P = P' := by simpa using hP.symm.trans (h.trans hP')
  exact getD_undefined_inj (restored_ne_undefined _) (restored_ne_undefined _)
    (hget.symm.trans hget')

end JsValue

end Aseos
