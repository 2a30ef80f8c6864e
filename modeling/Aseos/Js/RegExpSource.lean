import Mathlib.Data.List.Forall2
import Aseos.Js.Text

namespace Aseos

namespace JsString

-- `s.split(separator)` for a separator that is not empty, `skipped` units of one still to pass.
def splitFrom (separator : JsString) : ℕ → JsString → List JsString
  | _, [] => [[]]
  | skipped + 1, _ :: s => splitFrom separator skipped s
  | 0, c :: s =>
      if separator.isPrefixOf (c :: s) then [] :: splitFrom separator (separator.length - 1) s
      else (splitFrom separator 0 s).modifyHead (c :: ·)

def split (separator s : JsString) : List JsString := splitFrom separator 0 s

-- `s.replace(/[class]/g, replacement)`, the replacement as a function of the match.
def replaceEach (isMatch : CodeUnit → Bool) (replacement : CodeUnit → JsString) (s : JsString) :
    JsString :=
  s.flatMap fun c => if isMatch c then replacement c else [c]

end JsString

-- The terms of an expression source that a caller without flags can rely on: one character, an
-- escaped one, the dot, a negated class of one character, each perhaps with a star behind it.
namespace RegExpSource

def isSyntaxCharacter (c : CodeUnit) : Bool := c.isAny "^$\\.*+?()[]\x7b\x7d|"

def isLineTerminator (c : CodeUnit) : Bool :=
  c.val == 10 || c.val == 13 || c.val == 8232 || c.val == 8233

def readAtom : JsString → Option (Regex CodeUnit × JsString)
  | [] => none
  | c :: s =>
      if c.isAny "\\" then
        match s with
        | d :: s => if isSyntaxCharacter d then some (.one (· = d), s) else none
        | [] => none
      else if c.isAny "." then some (.one fun d => !isLineTerminator d, s)
      else if c.isAny "[" then
        match s with
        | caret :: d :: close :: s =>
            if caret.isAny "^" && close.isAny "]" && !d.isAny "\\]" then
              some (.one fun e => e ≠ d, s)
            else none
        | _ => none
      else if isSyntaxCharacter c then none
      else some (.one (· = c), s)

def readTerm (s : JsString) : Option (Regex CodeUnit × JsString) :=
  match readAtom s with
  | some (atom, c :: rest) =>
      if c.isAny "*" then some (.star atom, rest) else some (atom, c :: rest)
  | result => result

def readTerms : ℕ → JsString → Option (List (Regex CodeUnit))
  | 0, _ => none
  | fuel + 1, s =>
      if s = js "$" then some []
      else match readTerm s with
        | some (term, rest) => (readTerms fuel rest).map (term :: ·)
        | none => none

-- `new RegExp(source)` of an anchored source: what the whole text has to match.
def regExp : JsString → Option (Regex CodeUnit)
  | c :: s => if c.isAny "^" then (readTerms (s.length + 1) s).map .all else none
  | [] => none

def Term (source : JsString) (term : Regex CodeUnit) : Prop :=
  ∀ rest : JsString, rest.head? ≠ some 42 → readTerm (source ++ rest) = some (term, rest)

theorem readTerm_of_atom {source : JsString} {atom : Regex CodeUnit} {rest : JsString}
    (h : readAtom source = some (atom, rest)) (hrest : rest.head? ≠ some 42) :
    readTerm source = some (atom, rest) := by
  rw [readTerm, h]
  cases rest with
  | nil => rfl
  | cons c rest =>
    have hc : c.isAny "*" = false := by
      refine Bool.eq_false_iff.mpr fun hc => hrest ?_
      simpa [CodeUnit.isAny, js, utf16] using hc
    simp only [hc, Bool.false_eq_true, if_false]

theorem readTerm_of_star {source : JsString} {atom : Regex CodeUnit} {rest : JsString}
    (h : readAtom source = some (atom, 42 :: rest)) :
    readTerm source = some (.star atom, rest) := by
  rw [readTerm, h]
  rfl

theorem readTerms_terms {sources : List JsString} {terms : List (Regex CodeUnit)}
    (h : List.Forall₂ Term sources terms)
    (hhead : ∀ source ∈ sources, ∃ c s, source = c :: s ∧ c ≠ 36 ∧ c ≠ 42) {fuel : ℕ}
    (hfuel : sources.length < fuel) :
    readTerms fuel (sources.flatten ++ js "$") = some terms := by
  induction h generalizing fuel with
  | nil =>
    obtain ⟨fuel, rfl⟩ := Nat.exists_eq_succ_of_ne_zero (Nat.ne_zero_of_lt hfuel)
    rfl
  | @cons source term sources terms hterm _ ih =>
    obtain ⟨fuel, rfl⟩ := Nat.exists_eq_succ_of_ne_zero (Nat.ne_zero_of_lt hfuel)
    obtain ⟨⟨c, s, rfl, hc, -⟩, hheads⟩ := List.forall_mem_cons.mp hhead
    have hrest : (sources.flatten ++ js "$").head? ≠ some 42 := by
      cases sources with
      | nil => decide
      | cons next sources =>
        obtain ⟨d, t, rfl, -, hd⟩ := hheads next List.mem_cons_self
        simpa using hd
    have hne : (c :: s ++ (sources.flatten ++ js "$")) ≠ js "$" := by
      intro heq
      exact hc (List.cons.inj heq).1
    rw [List.flatten_cons, List.append_assoc, readTerms, if_neg hne, hterm _ hrest]
    simp only [ih hheads (Nat.lt_of_succ_lt_succ hfuel), Option.map_some]

end RegExpSource

end Aseos
