import Aseos.Js.Ascii
import Aseos.Js.Value

namespace Aseos

namespace JsString

-- ajv counts the code points: a surrogate pair is one.
def codePoints : JsString → ℕ
  | [] => 0
  | [_] => 1
  | c :: d :: s =>
      if c.isHighSurrogate && d.isLowSurrogate then codePoints s + 1 else codePoints (d :: s) + 1

end JsString

namespace Slots

def value (slot : SlotKind × JsValue) : JsValue :=
  if slot.1 = .hole then .undefined else slot.2

end Slots

namespace JsNumber

-- `===`, or both not a number.
def same : JsNumber → JsNumber → Bool
  | nan, nan => true
  | finite x, finite y => x.value == y.value
  | infinity a, infinity b => a == b
  | _, _ => false

end JsNumber

namespace JsValue

def isDefined : JsValue → Bool
  | .undefined => false
  | _ => true

mutual

-- The equality of `fast-deep-equal` on JSON values.
def deepEqual : JsValue → JsValue → Bool
  | .undefined, .undefined => true
  | .null, .null => true
  | .bool a, .bool b => a == b
  | .number a, .number b => a.same b
  | .string a, .string b => a == b
  | .array slots _, .array other _ => slots.length == other.length && slotsEqual slots other
  | .object _ props, .object _ other =>
      (Props.keys props).length == (Props.keys other).length && propsEqual props other
  | _, _ => false

def slotsEqual : List (SlotKind × JsValue) → Slots → Bool
  | [], _ => true
  | _ :: _, [] => false
  | (kind, v) :: slots, s :: other =>
      (if kind = .hole then deepEqual .undefined (Slots.value s) else deepEqual v (Slots.value s)) &&
        slotsEqual slots other

def propsEqual : List (Field × JsValue) → Props → Bool
  | [], _ => true
  | (field, v) :: props, other =>
      (match field.name? with
        | none => true
        | some key => Props.hasOwn other key && deepEqual v (Props.get other key)) &&
        propsEqual props other

end

end JsValue

inductive SchemaType where
  | null
  | boolean
  | number
  | integer
  | string
  | array
  | object
  deriving DecidableEq, Repr

inductive Format where
  | dateTime
  | uri
  deriving DecidableEq, Repr

-- A schema is the conjunction of its keywords; a pattern is anchored at both ends.
inductive Schema where
  | all (keywords : List Schema)
  | type (t : SchemaType)
  | const (value : JsValue)
  | enum (values : List JsString)
  | minLength (n : ℕ)
  | maxLength (n : ℕ)
  | pattern (r : Regex CodeUnit)
  | format (f : Format)
  | minimum (n : ℤ)
  | maximum (n : ℤ)
  | items (schema : Schema)
  | minItems (n : ℕ)
  | maxItems (n : ℕ)
  | uniqueItems
  | required (keys : List String)
  | properties (schemas : List (String × Schema))
  | closed (keys : List String)
  | minProperties (n : ℕ)
  | ifThen (condition consequence : Schema)
  | ifElse (condition alternative : Schema)
  | oneOf (alternatives : List Schema)

namespace Schema

def hasType : SchemaType → JsValue → Bool
  | .null, .null => true
  | .boolean, .bool _ => true
  | .number, .number n => n.isFinite
  | .integer, .number (.finite x) => x.value.den == 1
  | .string, .string _ => true
  | .array, .array _ _ => true
  | .object, .object _ _ => true
  | _, _ => false

def onString (v : JsValue) (test : JsString → Bool) : Bool :=
  match v with
  | .string s => test s
  | _ => true

def onNumber (v : JsValue) (test : JsNumber → Bool) : Bool :=
  match v with
  | .number n => test n
  | _ => true

def onArray (v : JsValue) (test : List JsValue → Bool) : Bool :=
  match v with
  | .array slots _ => test (slots.map Slots.value)
  | _ => true

def onObject (v : JsValue) (test : Props → Bool) : Bool :=
  match v with
  | .object _ props => test props
  | _ => true

def distinct : List JsValue → Bool
  | [] => true
  | v :: values => values.all (fun w => !v.deepEqual w) && distinct values

def atLeast (n : ℤ) : JsNumber → Bool
  | .finite x => decide ((n : ℚ) ≤ x.value)
  | .infinity negative => !negative
  | .nan => false

def atMost (n : ℤ) : JsNumber → Bool
  | .finite x => decide (x.value ≤ (n : ℚ))
  | .infinity negative => negative
  | .nan => false

section Validation

variable (formats : Format → JsString → Bool)

mutual

def accepts : Schema → JsValue → Bool
  | .all keywords, v => acceptsAll keywords v
  | .type t, v => hasType t v
  | .const value, v => v.deepEqual value
  | .enum values, v => values.any (fun s => v.deepEqual (.string s))
  | .minLength n, v => onString v (fun s => n ≤ s.codePoints)
  | .maxLength n, v => onString v (fun s => s.codePoints ≤ n)
  | .pattern r, v => onString v r.test
  | .format f, v => onString v (formats f)
  | .minimum n, v => onNumber v (atLeast n)
  | .maximum n, v => onNumber v (atMost n)
  | .items schema, v => onArray v (fun items => items.all (accepts schema))
  | .minItems n, v => onArray v (fun items => n ≤ items.length)
  | .maxItems n, v => onArray v (fun items => items.length ≤ n)
  | .uniqueItems, v => onArray v distinct
  | .required keys, v =>
      onObject v (fun props => keys.all fun key => (props.get (js key)).isDefined)
  | .properties schemas, v => onObject v (acceptsProperties schemas)
  | .closed keys, v => onObject v (fun props => props.keys.all (fun key => key ∈ keys.map js))
  | .minProperties n, v => onObject v (fun props => n ≤ props.keys.length)
  | .ifThen condition consequence, v => !accepts condition v || accepts consequence v
  | .ifElse condition alternative, v => accepts condition v || accepts alternative v
  | .oneOf alternatives, v => acceptedBy alternatives v == 1

def acceptsAll : List Schema → JsValue → Bool
  | [], _ => true
  | schema :: schemas, v => accepts schema v && acceptsAll schemas v

def acceptedBy : List Schema → JsValue → ℕ
  | [], _ => 0
  | schema :: schemas, v => (if accepts schema v then 1 else 0) + acceptedBy schemas v

def acceptsProperties : List (String × Schema) → Props → Bool
  | [], _ => true
  | (key, schema) :: schemas, props =>
      (match props.get (js key) with
        | .undefined => true
        | v => accepts schema v) && acceptsProperties schemas props

end

end Validation

section Lemmas

variable {formats : Format → JsString → Bool}

theorem acceptsAll_iff {schemas : List Schema} {v : JsValue} :
    acceptsAll formats schemas v = true ↔ ∀ schema ∈ schemas, accepts formats schema v = true := by
  induction schemas with
  | nil => simp [acceptsAll]
  | cons schema schemas ih => simp [acceptsAll, ih]

theorem acceptsProperties_iff {schemas : List (String × Schema)} {props : Props} :
    acceptsProperties formats schemas props = true ↔
      ∀ p ∈ schemas, Props.get props (js p.1) = .undefined ∨
        accepts formats p.2 (Props.get props (js p.1)) = true := by
  induction schemas with
  | nil => simp [acceptsProperties]
  | cons p schemas ih =>
    obtain ⟨key, schema⟩ := p
    rw [acceptsProperties, Bool.and_eq_true, ih, List.forall_mem_cons]
    refine and_congr_left' ?_
    cases Props.get props (js key) <;> simp

theorem accepts_items_strings {schema : Schema} {strings : List JsString}
    (h : ∀ s ∈ strings, accepts formats schema (.string s) = true) :
    accepts formats (.items schema) (.ofStrings strings) = true := by
  simp only [accepts, onArray, JsValue.ofStrings, List.map_map, List.all_map, List.all_eq_true]
  exact fun s hs => h s hs

theorem distinct_strings {strings : List JsString} (h : strings.Nodup) :
    distinct (strings.map .string) = true := by
  induction strings with
  | nil => rfl
  | cons s strings ih =>
    obtain ⟨hs, hstrings⟩ := List.nodup_cons.mp h
    rw [List.map_cons, distinct, ih hstrings, Bool.and_true, List.all_map, List.all_eq_true]
    intro t ht
    have hne : s ≠ t := fun heq => hs (heq ▸ ht)
    simpa [JsValue.deepEqual] using hne

end Lemmas

end Schema

namespace DateTime

-- The last branch is the leap second, which ends a month in UTC.
def validDateTime (value : JsString) : Bool :=
  (rfc3339DateTime value).any fun f => calendarValid f && (f.second < 60 || endsMonth f)

end DateTime

namespace JsString

theorem codePoints_le_length (s : JsString) : s.codePoints ≤ s.length := by
  induction s using codePoints.induct with
  | case1 => rfl
  | case2 c => rfl
  | case3 c d s hpair ih =>
    simp only [codePoints, hpair, if_true, List.length_cons]
    omega
  | case4 c d s hpair ih =>
    simp only [codePoints, hpair, List.length_cons] at ih ⊢
    simp
    omega

theorem codePoints_pos {s : JsString} (h : 1 ≤ s.length) : 1 ≤ s.codePoints := by
  cases s using codePoints.induct with
  | case1 => exact h
  | case2 c => rfl
  | case3 c d s hpair => simp [codePoints, hpair]
  | case4 c d s hpair => simp [codePoints, hpair]

theorem IsAscii.codePoints_eq {s : JsString} (h : s.IsAscii) : s.codePoints = s.length := by
  induction s using codePoints.induct with
  | case1 => rfl
  | case2 c => rfl
  | case3 c d s hpair ih =>
    have hc := h c (by simp)
    simp only [CodeUnit.isHighSurrogate, Bool.and_eq_true, decide_eq_true_eq] at hpair
    omega
  | case4 c d s hpair ih =>
    have hrest := ih fun e he => h e (List.mem_cons_of_mem _ he)
    simp only [codePoints, hpair, List.length_cons] at hrest ⊢
    simp [hrest]

end JsString

end Aseos
