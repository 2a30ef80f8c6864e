import Aseos.Js.Text
import Aseos.Js.Number
import Mathlib.Logic.Relation

namespace Aseos

inductive PropertyKey where
  | text (s : JsString)
  | symbol (id : ℕ)
  deriving DecidableEq

-- `hidden` is any property that is not enumerable; an enumerable accessor carries the value its
-- getter returns.
inductive PropertyKind where
  | data
  | hidden
  | accessor
  deriving DecidableEq

inductive SlotKind where
  | data
  | hidden
  | accessor
  | hole
  deriving DecidableEq

structure Field where
  key : PropertyKey
  kind : PropertyKind
  deriving DecidableEq

inductive ForeignType where
  | function
  | symbol
  | bigint
  deriving DecidableEq

-- A JavaScript value as it is reached from one root: `cycle` is a reference to an object that is
-- being visited, `plain` says that the prototype is null or `Object.prototype`, and `extra` are
-- the own keys of an array other than its indices and its length.
inductive JsValue where
  | undefined
  | null
  | bool (b : Bool)
  | number (n : JsNumber)
  | string (s : JsString)
  | foreign (type : ForeignType)
  | cycle
  | array (slots : List (SlotKind × JsValue)) (extra : List PropertyKey)
  | object (plain : Bool) (props : List (Field × JsValue))

abbrev Slots := List (SlotKind × JsValue)

abbrev Props := List (Field × JsValue)

namespace Field

def own (key : JsString) : Field := ⟨.text key, .data⟩

def name? (f : Field) : Option JsString :=
  match f.key with
  | .text s => some s
  | .symbol _ => none

end Field

namespace Props

def get (props : Props) (key : JsString) : JsValue :=
  ((props.find? (fun p => p.1.key = .text key)).map Prod.snd).getD .undefined

def hasOwn (props : Props) (key : JsString) : Bool :=
  props.any (fun p => p.1.key = .text key)

def ownKeys (props : Props) : List PropertyKey := props.map (fun p => p.1.key)

-- `Object.keys`
def keys (props : Props) : List JsString :=
  props.filterMap fun p => if p.1.kind = .hidden then none else p.1.name?

-- `{...value}`
def spread (props : Props) : Props :=
  props.filterMap fun p => if p.1.kind = .hidden then none else some (⟨p.1.key, .data⟩, p.2)

-- `Object.entries`
def entries (props : Props) : List (JsString × JsValue) :=
  props.filterMap fun p => if p.1.kind = .hidden then none else p.1.name?.map (·, p.2)

end Props

namespace Slots

def visitedFrom (start : ℕ) : Slots → List (ℕ × JsValue)
  | [] => []
  | (kind, v) :: slots =>
      if kind = .hole then visitedFrom (start + 1) slots
      else (start, v) :: visitedFrom (start + 1) slots

-- The values that `map`, `every` and `some` visit, with their indices.
def visited (slots : Slots) : List (ℕ × JsValue) := visitedFrom 0 slots

def present (slots : Slots) : List JsValue :=
  (slots.filter (fun s => s.1 ≠ .hole)).map Prod.snd

def holes (slots : Slots) : ℕ := slots.countP (fun s => s.1 = .hole)

theorem visitedFrom_map_snd (start : ℕ) (slots : Slots) :
    (visitedFrom start slots).map Prod.snd = present slots := by
  induction slots generalizing start with
  | nil => rfl
  | cons s slots ih =>
    by_cases hs : s.1 = .hole
    · simpa [visitedFrom, present, hs] using ih (start + 1)
    · simpa [visitedFrom, present, hs] using ih (start + 1)

theorem visited_map_snd (slots : Slots) : (visited slots).map Prod.snd = present slots :=
  visitedFrom_map_snd 0 slots

end Slots

namespace JsValue

def ofStrings (strings : List JsString) : JsValue :=
  .array (strings.map fun s => (.data, .string s)) []

def record (members : List (JsString × JsValue)) : JsValue :=
  .object true (members.map fun m => (Field.own m.1, m.2))

def isRecord : JsValue → Option Props
  | .object true props => some props
  | _ => none

def isArray : JsValue → Option Slots
  | .array slots _ => some slots
  | _ => none

def isString : JsValue → Option JsString
  | .string s => some s
  | _ => none

def isBool : JsValue → Option Bool
  | .bool b => some b
  | _ => none

mutual

def WellFormed : JsValue → Prop
  | .array slots _ => SlotsWellFormed slots
  | .object _ props => (Props.ownKeys props).Nodup ∧ PropsWellFormed props
  | _ => True

def SlotsWellFormed : List (SlotKind × JsValue) → Prop
  | [] => True
  | (_, v) :: slots => WellFormed v ∧ SlotsWellFormed slots

def PropsWellFormed : List (Field × JsValue) → Prop
  | [] => True
  | (_, v) :: props => WellFormed v ∧ PropsWellFormed props

end

theorem slotsWellFormed_iff {slots : Slots} :
    SlotsWellFormed slots ↔ ∀ s ∈ slots, WellFormed s.2 := by
  induction slots with
  | nil => simp [SlotsWellFormed]
  | cons s slots ih => simp [SlotsWellFormed, ih]

theorem propsWellFormed_iff {props : Props} :
    PropsWellFormed props ↔ ∀ p ∈ props, WellFormed p.2 := by
  induction props with
  | nil => simp [PropsWellFormed]
  | cons p props ih => simp [PropsWellFormed, ih]

end JsValue

end Aseos
