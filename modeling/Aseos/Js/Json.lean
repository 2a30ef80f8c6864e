import Aseos.Js.KeyOrder

namespace Aseos

namespace Json

def isSpace (c : CodeUnit) : Bool := c.val == 9 || c.val == 10 || c.val == 13 || c.val == 32

def skipSpace (s : JsString) : JsString := s.dropWhile isSpace

def hexValue (c : CodeUnit) : Option ℕ :=
  if c.isDigit then some (c.val - 48)
  else if CodeUnit.inRange 'a' 'f' c then some (c.val - 87)
  else if CodeUnit.inRange 'A' 'F' c then some (c.val - 55)
  else none

def hexUnit (a b c d : CodeUnit) : Option CodeUnit := do
  let a ← hexValue a
  let b ← hexValue b
  let c ← hexValue c
  let d ← hexValue d
  return Fin.ofNat 65536 (4096 * a + 256 * b + 16 * c + d)

def unescape (c : CodeUnit) : Option CodeUnit :=
  if c.val = 34 ∨ c.val = 92 ∨ c.val = 47 then some c
  else if c.val = 98 then some 8
  else if c.val = 102 then some 12
  else if c.val = 110 then some 10
  else if c.val = 114 then some 13
  else if c.val = 116 then some 9
  else none

def prepend (c : CodeUnit) (r : Option (JsString × JsString)) : Option (JsString × JsString) :=
  r.map fun p => (c :: p.1, p.2)

def takeString : JsString → Option (JsString × JsString)
  | [] => none
  | c :: s =>
      if c.val = 34 then some ([], s)
      else if c.val = 92 then
        match s with
        | [] => none
        | e :: s =>
            if e.val = 117 then
              match s with
              | a :: b :: c :: d :: s => (hexUnit a b c d).bind fun u => prepend u (takeString s)
              | _ => none
            else (unescape e).bind fun u => prepend u (takeString s)
      else if c.val < 32 then none
      else prepend c (takeString s)

@[simp] theorem takeString_quote (s : JsString) : takeString (34 :: s) = some ([], s) := by
  rw [takeString.eq_def]
  rfl

theorem takeString_escaped {e : CodeUnit} (h : e.val ≠ 117) (s : JsString) :
    takeString (92 :: e :: s) = (unescape e).bind fun u => prepend u (takeString s) := by
  rw [takeString.eq_def]
  simp [h]

theorem takeString_hex (a b c d : CodeUnit) (s : JsString) :
    takeString (92 :: 117 :: a :: b :: c :: d :: s) =
      (hexUnit a b c d).bind fun u => prepend u (takeString s) := by
  rw [takeString.eq_def]
  rfl

theorem takeString_plain {c : CodeUnit} (hquote : c.val ≠ 34) (hslash : c.val ≠ 92)
    (hcontrol : 32 ≤ c.val) (s : JsString) : takeString (c :: s) = prepend c (takeString s) := by
  rw [takeString.eq_def]
  simp only
  rw [if_neg hquote, if_neg hslash, if_neg (by omega)]

def isNumberUnit (c : CodeUnit) : Bool := c.isDigit || c.isAny "+-.eE"

-- /^-?(0|[1-9][0-9]*)(\.[0-9]+)?([eE][+-]?[0-9]+)?$/
def numberLiteral : Regex CodeUnit :=
  .all [.opt (.text (js "-")), Pattern.decimal,
    .opt (.seq (.text (js ".")) (.plus (.one CodeUnit.isDigit))),
    .opt (.all [.one (CodeUnit.isAny "eE"), .opt (.one (CodeUnit.isAny "+-")),
      .plus (.one CodeUnit.isDigit)])]

def afterText (text : String) (s : JsString) : Option JsString :=
  if (js text).isPrefixOf s then some (s.drop (js text).length) else none

-- A repeated key keeps its first place and its last value.
def assign (entries : List (JsString × JsValue)) (entry : JsString × JsValue) :
    List (JsString × JsValue) :=
  if entries.any (fun e => e.1 = entry.1) then
    entries.map (fun e => if e.1 = entry.1 then entry else e)
  else entries ++ [entry]

def objectOf (entries : List (JsString × JsValue)) : JsValue :=
  .object true (Props.fromEntries (entries.foldl assign []))

def arrayOf (values : List JsValue) : JsValue := .array (values.map fun v => (.data, v)) []

section Parsing

variable (numberValue : JsString → JsNumber)

def takeNumber (s : JsString) : Option (JsValue × JsString) :=
  if numberLiteral.test (s.takeWhile isNumberUnit) then
    some (.number (numberValue (s.takeWhile isNumberUnit)), s.dropWhile isNumberUnit)
  else none

mutual

def parseValue : ℕ → JsString → Option (JsValue × JsString)
  | 0, _ => none
  | fuel + 1, s =>
      match skipSpace s with
      | [] => none
      | c :: s =>
          if c.val = 123 then
            match skipSpace s with
            | [] => none
            | d :: s =>
                if d.val = 125 then some (objectOf [], s)
                else (parseMembers fuel (d :: s)).map fun p => (objectOf p.1, p.2)
          else if c.val = 91 then
            match skipSpace s with
            | [] => none
            | d :: s =>
                if d.val = 93 then some (arrayOf [], s)
                else (parseElements fuel (d :: s)).map fun p => (arrayOf p.1, p.2)
          else if c.val = 34 then (takeString s).map fun p => (.string p.1, p.2)
          else if c.val = 110 then (afterText "null" (c :: s)).map fun s => (.null, s)
          else if c.val = 116 then (afterText "true" (c :: s)).map fun s => (.bool true, s)
          else if c.val = 102 then (afterText "false" (c :: s)).map fun s => (.bool false, s)
          else takeNumber numberValue (c :: s)

def parseElements : ℕ → JsString → Option (List JsValue × JsString)
  | 0, _ => none
  | fuel + 1, s => do
      let (v, s) ← parseValue fuel s
      match skipSpace s with
      | [] => none
      | c :: s =>
          if c.val = 44 then (parseElements fuel s).map fun p => (v :: p.1, p.2)
          else if c.val = 93 then some ([v], s)
          else none

def parseMembers : ℕ → JsString → Option (List (JsString × JsValue) × JsString)
  | 0, _ => none
  | fuel + 1, s => do
      let s ← afterText "\"" (skipSpace s)
      let (key, s) ← takeString s
      let s ← afterText ":" (skipSpace s)
      let (v, s) ← parseValue fuel s
      match skipSpace s with
      | [] => none
      | c :: s =>
          if c.val = 44 then (parseMembers fuel s).map fun p => ((key, v) :: p.1, p.2)
          else if c.val = 125 then some ([(key, v)], s)
          else none

end

-- `JSON.parse`; every step that recurses has consumed a code unit.
def parse (s : JsString) : Option JsValue := do
  let (v, rest) ← parseValue numberValue (s.length + 1) s
  if skipSpace rest = [] then some v else none

end Parsing

end Json

end Aseos
