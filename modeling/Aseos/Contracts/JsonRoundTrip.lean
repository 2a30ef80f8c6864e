import Aseos.Contracts.KeyOrder
import Aseos.Js.Ascii
import Aseos.Js.Json
import Aseos.Js.JsonValue
import Aseos.Library.Outcome

namespace Aseos

-- Number printing as ECMAScript has it: a literal that reads back exactly, without the sign of
-- a negative zero.
structure JsonRuntime extends Host where
  numberValue : JsString → JsNumber
  literal (x : Double) : Json.numberLiteral.test (numberText x) = true
  readBack (x : Double) : numberValue (numberText x) = .finite x.unsigned
  unsignedText (x : Double) : numberText x.unsigned = numberText x

namespace Json

open JsonText

section Strings

theorem hexValue_hexDigit {n : ℕ} (h : n < 16) : hexValue (hexDigit n) = some n := by
  revert n
  decide

theorem takeString_unicodeEscape (c : CodeUnit) (r : JsString) :
    takeString (unicodeEscape c ++ r) = prepend c (takeString r) := by
  have hunit : hexUnit (hexDigit (c.val / 4096 % 16)) (hexDigit (c.val / 256 % 16))
      (hexDigit (c.val / 16 % 16)) (hexDigit (c.val % 16)) = some c := by
    simp only [hexUnit, hexValue_hexDigit (Nat.mod_lt _ (by decide : 0 < 16))]
    refine congrArg some (Fin.ext ?_)
    have hc := c.isLt
    simp only [Fin.val_ofNat]
    omega
  have hform : unicodeEscape c ++ r = 92 :: 117 :: hexDigit (c.val / 4096 % 16) ::
      hexDigit (c.val / 256 % 16) :: hexDigit (c.val / 16 % 16) :: hexDigit (c.val % 16) :: r := rfl
  rw [hform, takeString_hex, hunit]
  rfl

theorem takeString_escapeUnit (c : CodeUnit) (r : JsString) :
    takeString (escapeUnit c ++ r) = prepend c (takeString r) := by
  have hshort (e u : CodeUnit) (he : e.val ≠ 117) (hu : unescape e = some u) (hc : c = u) :
      takeString (92 :: e :: r) = prepend c (takeString r) := by
    rw [takeString_escaped he, hu, hc]
    rfl
  have hval (n : CodeUnit) (hn : c.val = n.val) : c = n := Fin.ext hn
  unfold escapeUnit
  split
  · rename_i h
    exact hshort 98 8 (by decide) (by decide) (hval 8 h)
  split
  · rename_i h
    exact hshort 116 9 (by decide) (by decide) (hval 9 h)
  split
  · rename_i h
    exact hshort 110 10 (by decide) (by decide) (hval 10 h)
  split
  · rename_i h
    exact hshort 102 12 (by decide) (by decide) (hval 12 h)
  split
  · rename_i h
    exact hshort 114 13 (by decide) (by decide) (hval 13 h)
  split
  · rename_i h
    exact hshort 34 34 (by decide) (by decide) (hval 34 h)
  split
  · rename_i h
    exact hshort 92 92 (by decide) (by decide) (hval 92 h)
  split
  · exact takeString_unicodeEscape c r
  · rename_i hquote hslash hcontrol
    exact takeString_plain hquote hslash (by omega) r

theorem takeString_surrogate {c : CodeUnit}
    (h : c.isHighSurrogate = true ∨ c.isLowSurrogate = true) (r : JsString) :
    takeString (c :: r) = prepend c (takeString r) := by
  simp only [CodeUnit.isHighSurrogate, CodeUnit.isLowSurrogate, Bool.and_eq_true,
    decide_eq_true_eq] at h
  exact takeString_plain (by omega) (by omega) (by omega) r

theorem takeString_escape (s r : JsString) : takeString (escape s ++ 34 :: r) = some (s, r) := by
  induction s using escape.induct with
  | case1 => simp [escape]
  | case2 c hc =>
    rw [escape, if_pos hc, takeString_unicodeEscape]
    simp [prepend]
  | case3 c hc =>
    rw [escape, if_neg hc, takeString_escapeUnit]
    simp [prepend]
  | case4 c d s hpair ih =>
    obtain ⟨hc, hd⟩ := Bool.and_eq_true_iff.mp hpair
    rw [escape, if_pos hpair, List.cons_append, List.cons_append, takeString_surrogate (.inl hc),
      takeString_surrogate (.inr hd), ih]
    rfl
  | case5 c d s hpair hlone ih =>
    rw [escape, if_neg hpair, if_pos hlone, List.append_assoc, takeString_unicodeEscape, ih]
    rfl
  | case6 c d s hpair hlone ih =>
    rw [escape, if_neg hpair, if_neg hlone, List.append_assoc, takeString_escapeUnit, ih]
    rfl

theorem quote_append (s r : JsString) : quote s ++ r = 34 :: (escape s ++ 34 :: r) := by
  have hquote : js "\"" = [34] := rfl
  simp [quote, hquote]

end Strings

section Values

def Stops (rest : JsString) : Prop := ∀ c ∈ rest.head?, isNumberUnit c = false

theorem stops_nil : Stops [] := by simp [Stops]

theorem stops_cons {c : CodeUnit} (h : isNumberUnit c = false) (rest : JsString) :
    Stops (c :: rest) := by
  simpa [Stops] using h

variable {runtime : JsonRuntime}

structure Parses (runtime : JsonRuntime) (text : JsString) (w : JsValue) : Prop where
  start : ∃ c s, text = c :: s ∧ isSpace c = false ∧ c.val ≠ 93 ∧ c.val ≠ 125
  run : ∀ fuel rest, Stops rest → text.length ≤ fuel →
    parseValue runtime.numberValue fuel (text ++ rest) = some (w, rest)

theorem skipSpace_cons {c : CodeUnit} (h : isSpace c = false) (s : JsString) :
    skipSpace (c :: s) = c :: s := by
  simp [skipSpace, h]

theorem exists_fuel {text : JsString} {fuel : ℕ} (h : text.length < fuel) :
    ∃ n, fuel = n + 1 ∧ text.length ≤ n :=
  ⟨fuel - 1, by omega, by omega⟩

theorem Parses.of_cons {c : CodeUnit} {s : JsString} {w : JsValue} (hspace : isSpace c = false)
    (hbracket : c.val ≠ 93) (hbrace : c.val ≠ 125)
    (h : ∀ n rest, Stops rest → s.length ≤ n →
      parseValue runtime.numberValue (n + 1) (c :: (s ++ rest)) = some (w, rest)) :
    Parses runtime (c :: s) w := by
  refine ⟨⟨c, s, rfl, hspace, hbracket, hbrace⟩, fun fuel rest hrest hfuel => ?_⟩
  obtain ⟨n, rfl, hn⟩ := exists_fuel (Nat.lt_of_succ_le hfuel)
  exact h n rest hrest hn

theorem parses_null : Parses runtime (js "null") .null := by
  refine .of_cons (by decide) (by decide) (by decide) fun n rest _ _ => ?_
  rw [parseValue, skipSpace_cons (by decide)]
  rfl

theorem parses_bool (b : Bool) : Parses runtime (if b then js "true" else js "false") (.bool b) := by
  cases b with
  | false =>
    refine .of_cons (by decide) (by decide) (by decide) fun n rest _ _ => ?_
    rw [parseValue, skipSpace_cons (by decide)]
    rfl
  | true =>
    refine .of_cons (by decide) (by decide) (by decide) fun n rest _ _ => ?_
    rw [parseValue, skipSpace_cons (by decide)]
    rfl

theorem parses_string (s : JsString) : Parses runtime (quote s) (.string s) := by
  have hquote := quote_append s []
  rw [List.append_nil] at hquote
  rw [hquote]
  refine .of_cons (by decide) (by decide) (by decide) fun n rest _ _ => ?_
  rw [parseValue, skipSpace_cons (by decide)]
  have htake := takeString_escape s rest
  simp [htake]

theorem literal_units {text : JsString} (h : numberLiteral.test text = true) :
    ∀ c ∈ text, isNumberUnit c = true := by
  refine Regex.Letters.all_mem ?_ ((Regex.test_iff _ _).mp h)
  have htext (t : String) (ht : (js t).all isNumberUnit = true) :
      (Regex.text (js t)).Letters fun c => isNumberUnit c = true :=
    Regex.letters_text (List.all_eq_true.mp ht)
  have hdigit (c : CodeUnit) (hc : c.isDigit = true) : isNumberUnit c = true := by
    simp [isNumberUnit, hc]
  have hany (chars : String) (hchars : (js chars).all isNumberUnit = true) (c : CodeUnit)
      (hc : c.isAny chars = true) : isNumberUnit c = true :=
    List.all_eq_true.mp hchars c (List.elem_iff.mp hc)
  have hrange (c : CodeUnit) (hc : CodeUnit.inRange '1' '9' c = true) : isNumberUnit c = true := by
    refine hdigit c ?_
    simp only [CodeUnit.inRange, CodeUnit.isDigit, Bool.and_eq_true, decide_eq_true_eq] at hc ⊢
    exact ⟨le_trans (by decide) hc.1, hc.2⟩
  exact ⟨⟨htext _ (by decide), trivial⟩, ⟨htext _ (by decide), hrange, hdigit⟩,
    ⟨⟨htext _ (by decide), hdigit, hdigit⟩, trivial⟩,
    ⟨hany _ (by decide), ⟨hany _ (by decide), trivial⟩, hdigit, hdigit⟩, trivial⟩

theorem literal_ne_nil {text : JsString} (h : numberLiteral.test text = true) : text ≠ [] := by
  rintro rfl
  revert h
  decide

theorem numberText_units (x : Double) : ∀ c ∈ runtime.numberText x, isNumberUnit c = true :=
  literal_units (runtime.literal x)

theorem isNumberUnit_iff (c : CodeUnit) : isNumberUnit c = true ↔
    (48 ≤ c.val ∧ c.val ≤ 57) ∨ c.val ∈ [43, 45, 46, 101, 69] := by
  have hchars : js "+-.eE" = [43, 45, 46, 101, 69] := rfl
  simp [isNumberUnit, CodeUnit.isDigit, CodeUnit.inRange, CodeUnit.isAny, hchars, Fin.ext_iff]

theorem takeNumber_literal {text : JsString} (hunits : ∀ c ∈ text, isNumberUnit c = true)
    (hliteral : numberLiteral.test text = true) {rest : JsString} (hrest : Stops rest) :
    takeNumber runtime.numberValue (text ++ rest) =
      some (.number (runtime.numberValue text), rest) := by
  have htake : rest.takeWhile isNumberUnit = [] := by
    cases rest with
    | nil => rfl
    | cons c rest => simp [hrest c rfl]
  have hdrop : rest.dropWhile isNumberUnit = rest := by
    cases rest with
    | nil => rfl
    | cons c rest => simp [hrest c rfl]
  rw [takeNumber, List.takeWhile_append_of_pos hunits, List.dropWhile_append_of_pos hunits, htake,
    hdrop, List.append_nil, if_pos hliteral]

theorem parses_number (x : Double) :
    Parses runtime (runtime.numberText x) (.number (.finite x.unsigned)) := by
  have hunits := @numberText_units runtime x
  have hliteral := runtime.literal x
  have hread := runtime.readBack x
  obtain ⟨c, s, htext⟩ := List.exists_cons_of_ne_nil (literal_ne_nil (runtime.literal x))
  rw [htext] at hunits hliteral hread ⊢
  have hunit := (isNumberUnit_iff c).mp (hunits c List.mem_cons_self)
  simp only [List.mem_cons, List.not_mem_nil, or_false] at hunit
  have hspace : isSpace c = false := by
    simp only [isSpace, Bool.or_eq_false_iff, beq_eq_false_iff_ne]
    omega
  refine .of_cons hspace (by omega) (by omega) fun n rest hrest _ => ?_
  rw [parseValue, skipSpace_cons hspace]
  simp only
  rw [if_neg (by omega), if_neg (by omega), if_neg (by omega), if_neg (by omega),
    if_neg (by omega), if_neg (by omega), ← List.cons_append,
    takeNumber_literal hunits hliteral hrest, hread]

theorem stops_separator {c : CodeUnit} (h : c.val = 44 ∨ c.val = 93 ∨ c.val = 125)
    (rest : JsString) : Stops (c :: rest) := by
  refine stops_cons ?_ rest
  rw [← Bool.not_eq_true, isNumberUnit_iff]
  simp only [List.mem_cons, List.not_mem_nil, or_false]
  omega

theorem commaSeparated_cons (text : JsString) {texts : List JsString} (h : texts ≠ []) :
    commaSeparated (text :: texts) = text ++ 44 :: commaSeparated texts := by
  obtain ⟨next, texts, rfl⟩ := List.exists_cons_of_ne_nil h
  rfl

theorem commaSeparated_single (text : JsString) : commaSeparated [text] = text := by
  simp [commaSeparated]

theorem parseElements_texts {texts : List JsString} {values : List JsValue}
    (h : List.Forall₂ (Parses runtime) texts values) (hne : texts ≠ []) {fuel : ℕ} (rest : JsString)
    (hfuel : (commaSeparated texts).length < fuel) :
    parseElements runtime.numberValue fuel (commaSeparated texts ++ 93 :: rest) =
      some (values, rest) := by
  induction h generalizing fuel with
  | nil => exact absurd rfl hne
  | @cons text w texts values hw hrest ih =>
    obtain ⟨n, rfl, hn⟩ := exists_fuel hfuel
    by_cases hlast : texts = []
    · subst hlast
      cases hrest
      rw [commaSeparated_single] at hn ⊢
      have hrun := hw.run n (93 :: rest) (stops_separator (by decide) rest) hn
      rw [parseElements, hrun]
      rfl
    · rw [commaSeparated_cons text hlast] at hn ⊢
      rw [List.length_append, List.length_cons] at hn
      have hrun := hw.run n (44 :: (commaSeparated texts ++ 93 :: rest))
        (stops_separator (by decide) _) (by omega)
      have htail := @ih hlast n (by omega)
      rw [List.append_assoc, List.cons_append, parseElements, hrun]
      simp only [Option.bind_eq_bind, Option.bind_some, skipSpace_cons (c := 44) (by decide)]
      rw [if_pos (by decide), htail]
      rfl

def ParsesMember (runtime : JsonRuntime) (text : JsString) (entry : JsString × JsValue) : Prop :=
  ∃ t, text = quote entry.1 ++ js ":" ++ t ∧ Parses runtime t entry.2

theorem parseMembers_member {t : JsString} {entry : JsString × JsValue}
    (h : Parses runtime t entry.2) {n : ℕ} {rest : JsString} (hrest : Stops rest)
    (hn : t.length ≤ n) :
    parseMembers runtime.numberValue (n + 1) (quote entry.1 ++ js ":" ++ t ++ rest) =
      match skipSpace rest with
      | [] => none
      | c :: s =>
          if c.val = 44 then
            (parseMembers runtime.numberValue n s).map fun p => (entry :: p.1, p.2)
          else if c.val = 125 then some ([entry], s)
          else none := by
  obtain ⟨key, v⟩ := entry
  have hform : quote key ++ js ":" ++ t ++ rest =
      34 :: (escape key ++ 34 :: (58 :: (t ++ rest))) := by
    rw [List.append_assoc, List.append_assoc, quote_append]
    rfl
  have hstring := takeString_escape key (58 :: (t ++ rest))
  have hquote (s : JsString) : afterText "\"" (skipSpace (34 :: s)) = some s := by
    rw [skipSpace_cons (by decide)]
    rfl
  have hcolon (s : JsString) : afterText ":" (skipSpace (58 :: s)) = some s := by
    rw [skipSpace_cons (by decide)]
    rfl
  have hrun := h.run n rest hrest hn
  rw [hform, parseMembers]
  cases hnext : skipSpace rest with
  | nil => simp only [Option.bind_eq_bind, hquote, hstring, hcolon, hrun, hnext, Option.bind_some]
  | cons c s =>
    simp only [Option.bind_eq_bind, hquote, hstring, hcolon, hrun, hnext, Option.bind_some]

theorem parseMembers_texts {texts : List JsString} {entries : List (JsString × JsValue)}
    (h : List.Forall₂ (ParsesMember runtime) texts entries) (hne : texts ≠ []) {fuel : ℕ}
    (rest : JsString) (hfuel : (commaSeparated texts).length < fuel) :
    parseMembers runtime.numberValue fuel (commaSeparated texts ++ 125 :: rest) =
      some (entries, rest) := by
  induction h generalizing fuel with
  | nil => exact absurd rfl hne
  | @cons text entry texts entries hmember hrest ih =>
    obtain ⟨n, rfl, hn⟩ := exists_fuel hfuel
    obtain ⟨t, rfl, ht⟩ := hmember
    by_cases hlast : texts = []
    · subst hlast
      cases hrest
      rw [commaSeparated_single] at hn ⊢
      rw [List.length_append] at hn
      rw [parseMembers_member ht (stops_separator (by decide) rest) (by omega),
        skipSpace_cons (by decide)]
      rfl
    · rw [commaSeparated_cons _ hlast] at hn ⊢
      rw [List.length_append, List.length_append, List.length_cons] at hn
      have htail := @ih hlast n (by omega)
      rw [List.append_assoc, List.cons_append,
        parseMembers_member ht (stops_separator (by decide) _) (by omega),
        skipSpace_cons (by decide)]
      simp only
      rw [if_pos (by decide), htail]
      rfl

theorem parses_array {texts : List JsString} {values : List JsValue}
    (h : List.Forall₂ (Parses runtime) texts values) :
    Parses runtime (js "[" ++ commaSeparated texts ++ js "]") (arrayOf values) := by
  have hform : js "[" ++ commaSeparated texts ++ js "]" = 91 :: (commaSeparated texts ++ [93]) := rfl
  rw [hform]
  refine .of_cons (by decide) (by decide) (by decide) fun n rest _ hn => ?_
  rw [parseValue, skipSpace_cons (by decide), List.append_assoc]
  cases h with
  | nil => rfl
  | @cons text w texts values hw hrest =>
    have hall : List.Forall₂ (Parses runtime) (text :: texts) (w :: values) := .cons hw hrest
    rw [List.length_append, List.length_singleton] at hn
    have hrun := parseElements_texts hall (by simp) rest hn
    obtain ⟨c, s, rfl, hspace, hbracket, -⟩ := hw.start
    have hhead : ∃ tail, commaSeparated ((c :: s) :: texts) ++ [93] ++ rest = c :: tail := by
      by_cases hlast : texts = []
      · subst hlast
        exact ⟨s ++ [93] ++ rest, by rw [commaSeparated_single]; rfl⟩
      · exact ⟨_, by rw [commaSeparated_cons _ hlast]; rfl⟩
    obtain ⟨tail, htail⟩ := hhead
    have hrun' : parseElements runtime.numberValue n (c :: tail) = some (w :: values, rest) := by
      rw [← htail, List.append_assoc]
      exact hrun
    rw [← List.append_assoc, htail]
    simp [skipSpace_cons hspace, hbracket, hrun']

theorem parses_object {texts : List JsString} {entries : List (JsString × JsValue)}
    (h : List.Forall₂ (ParsesMember runtime) texts entries) :
    Parses runtime (js "\x7b" ++ commaSeparated texts ++ js "\x7d") (objectOf entries) := by
  have hform : js "\x7b" ++ commaSeparated texts ++ js "\x7d" =
      123 :: (commaSeparated texts ++ [125]) := rfl
  rw [hform]
  refine .of_cons (by decide) (by decide) (by decide) fun n rest _ hn => ?_
  rw [parseValue, skipSpace_cons (by decide), List.append_assoc]
  cases h with
  | nil => rfl
  | @cons text entry texts entries hmember hrest =>
    have hall : List.Forall₂ (ParsesMember runtime) (text :: texts) (entry :: entries) :=
      .cons hmember hrest
    rw [List.length_append, List.length_singleton] at hn
    have hrun := parseMembers_texts hall (by simp) rest hn
    obtain ⟨t, rfl, -⟩ := hmember
    have hhead : ∃ tail, commaSeparated ((quote entry.1 ++ js ":" ++ t) :: texts) ++ [125] ++ rest =
        34 :: tail := by
      by_cases hlast : texts = []
      · subst hlast
        exact ⟨_, by rw [commaSeparated_single]; rfl⟩
      · exact ⟨_, by rw [commaSeparated_cons _ hlast]; rfl⟩
    obtain ⟨tail, htail⟩ := hhead
    have hrun' : parseMembers runtime.numberValue n (34 :: tail) = some (entry :: entries, rest) := by
      rw [← htail, List.append_assoc]
      exact hrun
    rw [← List.append_assoc, htail]
    simp [skipSpace_cons (c := 34) (by decide), hrun']

end Values

end Json

namespace JsValue

mutual

-- What `JSON.parse` makes of the canonical text of a value.
def readBack : JsValue → JsValue
  | .number (.finite x) => .number (.finite x.unsigned)
  | .array slots _ => Json.arrayOf (slotsReadBack slots)
  | .object _ props => Json.objectOf (CanonicalJson.sortMembers (propsReadBack props))
  | v => v

def slotsReadBack : List (SlotKind × JsValue) → List JsValue
  | [] => []
  | (_, v) :: slots => readBack v :: slotsReadBack slots

def propsReadBack : List (Field × JsValue) → List (JsString × JsValue)
  | [] => []
  | (field, v) :: props => (field.sortKey, readBack v) :: propsReadBack props

end

theorem slotsReadBack_eq (slots : Slots) : slotsReadBack slots = slots.map fun s => readBack s.2 := by
  induction slots with
  | nil => rfl
  | cons s slots ih => rw [slotsReadBack, ih, List.map_cons]

theorem propsReadBack_eq (props : Props) :
    propsReadBack props = props.map fun p => (p.1.sortKey, readBack p.2) := by
  induction props with
  | nil => rfl
  | cons p props ih => rw [propsReadBack, ih, List.map_cons]

end JsValue

end Aseos
