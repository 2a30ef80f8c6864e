import Aseos.Js.Value

namespace Aseos

structure HexDigest where
  text : JsString
  hex : Pattern.sha256.test text = true

theorem zeros_hex : Pattern.sha256.test (List.replicate 64 48) = true := by decide

-- What the JavaScript runtime supplies: the text of a finite number and the hash of the UTF-8
-- encoding of a string.
structure Host where
  numberText : Double → JsString
  sha256 : JsString → HexDigest

namespace JsonText

def hexDigit (n : ℕ) : CodeUnit := (js "0123456789abcdef").getD n 0

def unicodeEscape (c : CodeUnit) : JsString :=
  js "\\u" ++ [hexDigit (c.val / 4096 % 16), hexDigit (c.val / 256 % 16),
    hexDigit (c.val / 16 % 16), hexDigit (c.val % 16)]

def escapeUnit (c : CodeUnit) : JsString :=
  if c.val = 8 then js "\\b"
  else if c.val = 9 then js "\\t"
  else if c.val = 10 then js "\\n"
  else if c.val = 12 then js "\\f"
  else if c.val = 13 then js "\\r"
  else if c.val = 34 then js "\\\""
  else if c.val = 92 then js "\\\\"
  else if c.val < 32 then unicodeEscape c
  else [c]

-- Only a surrogate pair passes unescaped.
def escape : JsString → JsString
  | [] => []
  | [c] =>
      if c.isHighSurrogate || c.isLowSurrogate then unicodeEscape c else escapeUnit c
  | c :: d :: s =>
      if c.isHighSurrogate && d.isLowSurrogate then c :: d :: escape s
      else if c.isHighSurrogate || c.isLowSurrogate then unicodeEscape c ++ escape (d :: s)
      else escapeUnit c ++ escape (d :: s)

def quote (s : JsString) : JsString := js "\"" ++ escape s ++ js "\""

def commaSeparated (parts : List JsString) : JsString := List.intercalate (js ",") parts

end JsonText

inductive CanonicalError where
  | nonFinite
  | cyclic
  | symbolProperty
  | extraProperty
  | notDataElement
  | notPlain
  | accessor
  | notEnumerable
  | unsupported (type : String)
  deriving DecidableEq, Repr

def CanonicalError.message : CanonicalError → String
  | nonFinite => "Canonical JSON does not permit non-finite numbers"
  | cyclic => "Canonical JSON does not permit cyclic values"
  | symbolProperty => "Canonical JSON does not permit symbol properties"
  | extraProperty => "Canonical JSON requires dense arrays without extra properties"
  | notDataElement => "Canonical JSON requires dense arrays with data properties"
  | notPlain => "Canonical JSON requires plain objects"
  | accessor => "Canonical JSON does not permit accessors"
  | notEnumerable => "Canonical JSON does not permit non-enumerable properties"
  | unsupported type => "Value cannot be represented as canonical JSON: " ++ type

namespace CanonicalJson

open JsonText

def isSymbol : PropertyKey → Bool
  | .text _ => false
  | .symbol _ => true

def sortMembers {α : Type} (members : List (JsString × α)) : List (JsString × α) :=
  sortBy Prod.fst members

def member (entry : JsString × Except CanonicalError JsString) :
    Except CanonicalError JsString := do
  let text ← entry.2
  return quote entry.1 ++ js ":" ++ text

variable (host : Host)

mutual

def canonicalize : JsValue → Except CanonicalError JsString
  | .undefined => .error (.unsupported "undefined")
  | .null => .ok (js "null")
  | .bool b => .ok (if b then js "true" else js "false")
  | .number (.finite x) => .ok (host.numberText x)
  | .number _ => .error .nonFinite
  | .string s => .ok (quote s)
  | .foreign .function => .error (.unsupported "function")
  | .foreign .symbol => .error (.unsupported "symbol")
  | .foreign .bigint => .error (.unsupported "bigint")
  | .cycle => .error .cyclic
  | .array slots extra =>
      if extra.any isSymbol then .error .symbolProperty
      else if (Slots.present slots).length + extra.length ≠ slots.length then
        .error .extraProperty
      else do
        let items ← canonicalizeSlots slots
        return js "[" ++ commaSeparated items ++ js "]"
  | .object plain props =>
      if (Props.ownKeys props).any isSymbol then .error .symbolProperty
      else if !plain then .error .notPlain
      else do
        let members ← (sortMembers (canonicalizeProps props)).mapM member
        if members.length ≠ props.length then throw .notEnumerable
        return js "\x7b" ++ commaSeparated members ++ js "\x7d"

def canonicalizeSlots : List (SlotKind × JsValue) → Except CanonicalError (List JsString)
  | [] => .ok []
  | (kind, v) :: slots => do
      if kind ≠ .data then throw .notDataElement
      let item ← canonicalize v
      let items ← canonicalizeSlots slots
      return item :: items

def canonicalizeProps : List (Field × JsValue) → List (JsString × Except CanonicalError JsString)
  | [] => []
  | (field, v) :: props =>
      match field.kind, field.key with
      | .data, .text key => (key, canonicalize v) :: canonicalizeProps props
      | .accessor, .text key => (key, .error .accessor) :: canonicalizeProps props
      | _, _ => canonicalizeProps props

end

end CanonicalJson

def canonicalJson (host : Host) (value : JsValue) : Except CanonicalError JsString :=
  CanonicalJson.canonicalize host value

def canonicalJsonSha256 (host : Host) (value : JsValue) : Except CanonicalError HexDigest := do
  let text ← canonicalJson host value
  return host.sha256 text

end Aseos
