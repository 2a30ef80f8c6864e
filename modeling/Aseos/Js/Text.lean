import Mathlib.Data.Fin.Basic
import Mathlib.Order.Fin.Basic
import Mathlib.Data.List.Lex
import Mathlib.Algebra.GroupWithZero.Nat
import Mathlib.Tactic.Common
import Aseos.Library.Regex
import Aseos.Library.Sorting

namespace Aseos

abbrev CodeUnit := Fin 65536

abbrev JsString := List CodeUnit

instance units_neZero : NeZero (65536 : ℕ) := ⟨by decide⟩

instance text_lawfulBEq : LawfulBEq JsString := inferInstanceAs (LawfulBEq (List (Fin 65536)))

def utf16 (c : Char) : List CodeUnit :=
  if c.toNat < 65536 then [Fin.ofNat 65536 c.toNat]
  else
    [Fin.ofNat 65536 (55296 + (c.toNat - 65536) / 1024),
      Fin.ofNat 65536 (56320 + (c.toNat - 65536) % 1024)]

def js (s : String) : JsString := s.toList.flatMap utf16

namespace CodeUnit

def inRange (first last : Char) (c : CodeUnit) : Bool :=
  first.toNat ≤ c.val && c.val ≤ last.toNat

def isDigit (c : CodeUnit) : Bool := inRange '0' '9' c

def isLower (c : CodeUnit) : Bool := inRange 'a' 'z' c

def isUpper (c : CodeUnit) : Bool := inRange 'A' 'Z' c

def isLowerHex (c : CodeUnit) : Bool := isDigit c || inRange 'a' 'f' c

def isAny (chars : String) (c : CodeUnit) : Bool := (js chars).elem c

def isHighSurrogate (c : CodeUnit) : Bool := 55296 ≤ c.val && c.val ≤ 56319

def isLowSurrogate (c : CodeUnit) : Bool := 56320 ≤ c.val && c.val ≤ 57343

-- ECMAScript WhiteSpace and LineTerminator.
def isSpace (c : CodeUnit) : Bool :=
  (9 ≤ c.val && c.val ≤ 13) || c.val == 32 || c.val == 160 || c.val == 5760 ||
    (8192 ≤ c.val && c.val ≤ 8202) || c.val == 8232 || c.val == 8233 || c.val == 8239 ||
    c.val == 8287 || c.val == 12288 || c.val == 65279

end CodeUnit

namespace JsString

def trimStart (s : JsString) : JsString := s.dropWhile CodeUnit.isSpace

def trim (s : JsString) : JsString := (trimStart (trimStart s).reverse).reverse

def includes (s part : JsString) : Bool := s.tails.any part.isPrefixOf

def wellFormedFrom (afterHigh : Bool) : JsString → Bool
  | [] => !afterHigh
  | c :: s =>
      (CodeUnit.isLowSurrogate c == afterHigh) && wellFormedFrom (CodeUnit.isHighSurrogate c) s

def wellFormed (s : JsString) : Bool := wellFormedFrom false s

def sort (l : List JsString) : List JsString := sortBy id l

theorem sort_perm (l : List JsString) : (sort l).Perm l := sortBy_perm id l

theorem sort_pairwise (l : List JsString) : (sort l).Pairwise (· ≤ ·) := sortBy_pairwise id l

theorem sort_eq_of_perm {l₁ l₂ : List JsString} (h : l₁.Perm l₂) : sort l₁ = sort l₂ :=
  sortBy_eq_of_perm h fun _ _ _ _ => id

end JsString

namespace Pattern

open Regex

def hexDigits (n : ℕ) : Regex CodeUnit := times n (one CodeUnit.isLowerHex)

-- /^[0-9a-f]{8}-[0-9a-f]{4}-7[0-9a-f]{3}-[89ab][0-9a-f]{3}-[0-9a-f]{12}$/u
def uuidV7 : Regex CodeUnit :=
  all [hexDigits 8, text (js "-"), hexDigits 4, text (js "-7"), hexDigits 3, text (js "-"),
    one (CodeUnit.isAny "89ab"), hexDigits 3, text (js "-"), hexDigits 12]

-- /^[0-9a-f]{64}$/u
def sha256 : Regex CodeUnit := hexDigits 64

def decimal : Regex CodeUnit :=
  alt (text (js "0"))
    (seq (one (CodeUnit.inRange '1' '9')) (star (one CodeUnit.isDigit)))

def versionTail : Regex CodeUnit :=
  plus (one fun c => c.isDigit || c.isUpper || c.isLower || c.isAny ".-")

-- /^(0|[1-9][0-9]*)\.(0|[1-9][0-9]*)\.(0|[1-9][0-9]*)(?:-[0-9A-Za-z.-]+)?(?:\+[0-9A-Za-z.-]+)?$/u
def semver : Regex CodeUnit :=
  all [decimal, text (js "."), decimal, text (js "."), decimal,
    opt (seq (text (js "-")) versionTail), opt (seq (text (js "+")) versionTail)]

-- /^[A-Z][A-Z0-9]*(?:_[A-Z0-9]+)*$/u
def stableCode : Regex CodeUnit :=
  let upperDigit := Regex.one fun c => c.isUpper || c.isDigit
  Regex.all [.one CodeUnit.isUpper, .star upperDigit,
    .star (.seq (.text (js "_")) (.plus upperDigit))]

-- /^[A-Z][A-Za-z0-9]{1,127}$/
def canonicalTypeName : Regex CodeUnit :=
  let letterDigit := Regex.one fun c => c.isUpper || c.isLower || c.isDigit
  Regex.all [.one CodeUnit.isUpper, letterDigit, upTo 126 letterDigit]

end Pattern

end Aseos
