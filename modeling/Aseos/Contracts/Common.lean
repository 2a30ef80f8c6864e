import Aseos.Contracts.JsonSchema

namespace Aseos

namespace Schema

-- urn:aseos:schema:common-identifiers:1.0.0
def uuidV7 : Schema := .all [.type .string, .pattern Pattern.uuidV7]

def sha256 : Schema := .all [.type .string, .pattern Pattern.sha256]

def semanticVersion : Schema := .all [.type .string, .pattern Pattern.semver]

def stableCode : Schema :=
  .all [.type .string, .pattern Pattern.stableCode, .minLength 3, .maxLength 128]

def boundedString (minLength maxLength : ℕ) : Schema :=
  .all [.type .string, .minLength minLength, .maxLength maxLength]

def uniqueArray (schema : Schema) : Schema := .all [.type .array, .items schema, .uniqueItems]

def dateTime : Schema := .all [.type .string, .format .dateTime]

def canonicalTypeName : Schema := .all [.type .string, .pattern Pattern.canonicalTypeName]

-- urn:aseos:schema:subject-ref:1.0.0
def subjectRef : Schema :=
  .all [.type .object, .closed ["subjectType", "subjectId", "subjectVersion"],
    .required ["subjectType", "subjectId"],
    .properties [("subjectType", canonicalTypeName), ("subjectId", boundedString 1 256),
      ("subjectVersion", boundedString 1 128)]]

end Schema

section Checks

variable {formats : Format → JsString → Bool}

open Schema

attribute [local simp] accepts acceptsAll hasType onString

theorem accepts_all {keywords : List Schema} {v : JsValue} :
    accepts formats (.all keywords) v = true ↔
      ∀ keyword ∈ keywords, accepts formats keyword v = true :=
  acceptsAll_iff

theorem accepts_ifThen {condition consequence : Schema} {v : JsValue} :
    accepts formats (.ifThen condition consequence) v = true ↔
      (accepts formats condition v = true → accepts formats consequence v = true) := by
  rw [accepts, Bool.or_eq_true, Bool.not_eq_true', ← Bool.not_eq_true, imp_iff_not_or]

theorem accepts_ifElse {condition alternative : Schema} {v : JsValue} :
    accepts formats (.ifElse condition alternative) v = true ↔
      (accepts formats condition v = false → accepts formats alternative v = true) := by
  rw [accepts, Bool.or_eq_true, ← Bool.not_eq_true, or_iff_not_imp_left]

theorem accepts_enum {values : List JsString} {s : JsString} :
    accepts formats (.enum values) (.string s) = true ↔ s ∈ values := by
  simp [JsValue.deepEqual]

theorem accepts_const {s t : JsString} :
    accepts formats (.const (.string t)) (.string s) = true ↔ s = t := by
  simp [JsValue.deepEqual]

theorem accepts_pattern {r : Regex CodeUnit} {s : JsString} :
    accepts formats (.all [.type .string, .pattern r]) (.string s) = true ↔ r.test s = true := by
  simp

theorem defined_of_type {t : SchemaType} {keywords : List Schema} {v : JsValue}
    (h : accepts formats (.all (.type t :: keywords)) v = true) : v ≠ .undefined := by
  rintro rfl
  have htype := accepts_all.mp h (.type t) List.mem_cons_self
  cases t <;> cases htype

theorem accepts_dateTime {s : JsString} :
    accepts formats dateTime (.string s) = true ↔ formats .dateTime s = true := by
  simp [dateTime]

theorem accepts_boundedString {minLength maxLength : ℕ} {s : JsString} :
    accepts formats (boundedString minLength maxLength) (.string s) = true ↔
      minLength ≤ s.codePoints ∧ s.codePoints ≤ maxLength := by
  simp [boundedString]

theorem accepts_uniqueStrings {schema : Schema} {strings : List JsString}
    (hnodup : strings.Nodup) (h : ∀ s ∈ strings, accepts formats schema (.string s) = true) :
    accepts formats (uniqueArray schema) (.ofStrings strings) = true := by
  have hdistinct : accepts formats .uniqueItems (.ofStrings strings) = true := by
    simp only [accepts, onArray, JsValue.ofStrings, List.map_map]
    exact distinct_strings hnodup
  refine accepts_all.mpr ?_
  simp only [List.forall_mem_cons]
  exact ⟨by simp [accepts, JsValue.ofStrings, hasType], accepts_items_strings h, hdistinct, by simp⟩

theorem accepts_member {keys required : List String} {schemas : List (String × Schema)}
    {props : Props} (h : accepts formats (.all [.type .object, .closed keys, .required required,
      .properties schemas]) (.object plain props) = true)
    {key : String} {schema : Schema} (hkey : key ∈ required) (hschema : (key, schema) ∈ schemas) :
    accepts formats schema (props.get (js key)) = true ∧ props.get (js key) ≠ .undefined := by
  have hkeywords := accepts_all.mp h
  have hdefined : (props.get (js key)).isDefined = true :=
    List.all_eq_true.mp (hkeywords (.required required) (by simp)) key hkey
  have hne : props.get (js key) ≠ .undefined := by
    intro hundefined
    rw [hundefined] at hdefined
    cases hdefined
  have hmembers := acceptsProperties_iff.mp (hkeywords (.properties schemas) (by simp))
  exact ⟨(hmembers _ hschema).resolve_left hne, hne⟩

theorem accepts_type_string {keywords : List Schema} {v : JsValue}
    (h : accepts formats (.all (.type .string :: keywords)) v = true) : ∃ s, v = .string s := by
  have htype := accepts_all.mp h (.type .string) List.mem_cons_self
  cases v with
  | string s => exact ⟨s, rfl⟩
  | _ => cases htype

end Checks

end Aseos
