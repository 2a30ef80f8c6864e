import Aseos.Js.RegExpSource
import Aseos.Library.Glob
import Aseos.Toolchain.ScopePolicy

namespace Aseos.ScopePolicy

-- /[.+^$\x7b\x7d()|[\]\\]/g
def isEscaped (c : CodeUnit) : Bool := c.isAny ".+^$\x7b\x7d()|[]\\"

def globSegment (segment : JsString) : JsString :=
  let escaped := segment.replaceEach isEscaped fun c => js "\\" ++ [c]
  let starred := escaped.replaceEach (CodeUnit.isAny "*") fun _ => js "[^/]*"
  starred.replaceEach (CodeUnit.isAny "?") fun _ => js "[^/]"

def globSource (pattern : JsString) : JsString :=
  js "^" ++ (js ".*").intercalate ((JsString.split (js "**") pattern).map globSegment) ++ js "$"

def globToRegex (pattern : JsString) : Option (Regex CodeUnit) :=
  RegExpSource.regExp (globSource pattern)

def matchesAny (path : JsString) (patterns : List JsString) : Bool :=
  patterns.any fun pattern => (globToRegex pattern).any fun regex => regex.test path

structure OperationScope where
  operationId : JsString
  allowedPathGlobs : List JsString
  deniedPathGlobs : List JsString

structure WriteScope where
  globalAllowedPathGlobs : List JsString
  globalDeniedPathGlobs : List JsString
  operations : List OperationScope

structure AuthorityFile where
  path : JsString
  mutationPolicy : JsString
  allowedOperationIds : List JsString

def isPhase1GovernedPath (path : JsString) (writeScope : WriteScope)
    (authorityFiles : List AuthorityFile) : Bool :=
  (js "operations/phase-1/").isPrefixOf path ||
    matchesAny path writeScope.globalAllowedPathGlobs ||
    matchesAny path writeScope.globalDeniedPathGlobs ||
    authorityFiles.any fun entry => entry.path == path

inductive PathViolation where
  | invalidPath (path : JsString)
  | denied (path : JsString)
  | notAllowed (path : JsString)
  | immutable (path : JsString)
  | authorityOperationDenied (path : JsString)

def PathViolation.message : PathViolation → JsString
  | .invalidPath path => js "INVALID_PATH: " ++ path
  | .denied path => js "DENIED: " ++ path
  | .notAllowed path => js "NOT_ALLOWED: " ++ path
  | .immutable path => js "IMMUTABLE: " ++ path
  | .authorityOperationDenied path => js "AUTHORITY_OPERATION_DENIED: " ++ path

def scopeViolations (path : JsString) (writeScope : WriteScope) (scope : OperationScope) :
    List PathViolation :=
  if matchesAny path writeScope.globalDeniedPathGlobs ||
      matchesAny path scope.deniedPathGlobs then [.denied path]
  else if !matchesAny path writeScope.globalAllowedPathGlobs ||
      !matchesAny path scope.allowedPathGlobs then [.notAllowed path]
  else []

-- `new Map(...)` keeps the last entry of a path.
def authorityViolations (path operationId : JsString) (authorityFiles : List AuthorityFile) :
    List PathViolation :=
  match authorityFiles.reverse.find? fun entry => entry.path == path with
  | none => []
  | some authority =>
      if authority.mutationPolicy = js "IMMUTABLE" then [.immutable path]
      else if authority.mutationPolicy = js "OPERATION_SCOPED" &&
          !authority.allowedOperationIds.contains operationId then
        [.authorityOperationDenied path]
      else []

def validateOperationChangedPaths (runtime : ScriptRuntime) (changedPaths : List JsString)
    (operationId : JsString) (writeScope : WriteScope) (authorityFiles : List AuthorityFile) :
    Except JsString (List PathViolation) :=
  match writeScope.operations.find? fun item => item.operationId == operationId with
  | none => .error (js "UNKNOWN_OPERATION_SCOPE: " ++ operationId)
  | some scope => .ok <| changedPaths.flatMap fun path =>
      if isSafeRepositoryPath runtime path then
        scopeViolations path writeScope scope ++
          authorityViolations path operationId authorityFiles
      else [.invalidPath path]

def globAlphabet : GlobAlphabet CodeUnit := ⟨42, 63, 47⟩

def tokenSource : GlobToken CodeUnit → JsString
  | .anything => js ".*"
  | .segment => js "[^/]*"
  | .character => js "[^/]"
  | .literal c => if isEscaped c then js "\\" ++ [c] else [c]

def unitSource (c : CodeUnit) : JsString :=
  if c = 42 then js "[^/]*" else if c = 63 then js "[^/]"
  else if isEscaped c then js "\\" ++ [c] else [c]

theorem isSyntaxCharacter_eq (c : CodeUnit) :
    RegExpSource.isSyntaxCharacter c = (isEscaped c || c == 42 || c == 63) := by
  have hspecial : js "^$\\.*+?()[]\x7b\x7d|" =
      [94, 36, 92, 46, 42, 43, 63, 40, 41, 91, 93, 123, 125, 124] := by decide
  have hescaped : js ".+^$\x7b\x7d()|[]\\" =
      [46, 43, 94, 36, 123, 125, 40, 41, 124, 91, 93, 92] := by decide
  rw [Bool.eq_iff_iff]
  simp only [RegExpSource.isSyntaxCharacter, isEscaped, CodeUnit.isAny, hspecial, hescaped,
    List.elem_eq_contains, List.contains_eq_mem, decide_eq_true_eq, Bool.or_eq_true,
    List.mem_cons, List.not_mem_nil, beq_iff_eq, or_false]
  tauto

theorem globSegment_eq (segment : JsString) : globSegment segment = segment.flatMap unitSource := by
  simp only [globSegment, JsString.replaceEach, List.flatMap_assoc]
  congr 1
  funext c
  unfold unitSource
  by_cases hwild : c = 42
  · subst hwild
    decide
  by_cases hsingle : c = 63
  · subst hsingle
    decide
  have hstar : c.isAny "*" = false := by simpa [CodeUnit.isAny, js, utf16] using hwild
  have hquestion : c.isAny "?" = false := by simpa [CodeUnit.isAny, js, utf16] using hsingle
  have hslash : CodeUnit.isAny "*" 92 = false ∧ CodeUnit.isAny "?" 92 = false := by decide
  rw [if_neg hwild, if_neg hsingle]
  split <;>
    simp [hstar, hquestion, hslash, show js "\\" = [92] by decide]

theorem tokenSource_unit {c : CodeUnit} (hc : c ≠ 42) :
    tokenSource (if c = 63 then .character else .literal c) = unitSource c := by
  unfold unitSource
  rw [if_neg hc]
  split <;> rfl

section Splitting

def globBody (pattern : JsString) : JsString :=
  (js ".*").intercalate ((JsString.split (js "**") pattern).map globSegment)

theorem splitFrom_ne_nil (separator : JsString) (skipped : ℕ) (s : JsString) :
    JsString.splitFrom separator skipped s ≠ [] := by
  induction s generalizing skipped with
  | nil => cases skipped <;> simp [JsString.splitFrom]
  | cons c s ih =>
    cases skipped with
    | succ skipped => exact ih skipped
    | zero =>
      rw [JsString.splitFrom]
      split
      · simp
      · obtain ⟨first, rest, hsplit⟩ := List.exists_cons_of_ne_nil (ih 0)
        simp [hsplit]

theorem intercalate_modifyHead (c : CodeUnit) {segments : List JsString} (h : segments ≠ []) :
    (js ".*").intercalate ((segments.modifyHead (c :: ·)).map globSegment) =
      unitSource c ++ (js ".*").intercalate (segments.map globSegment) := by
  obtain ⟨first, rest, rfl⟩ := List.exists_cons_of_ne_nil h
  rw [List.modifyHead_cons, List.map_cons, List.map_cons, globSegment_eq, globSegment_eq]
  cases rest with
  | nil => simp [List.intercalate]
  | cons next rest => simp [List.intercalate_cons_cons]

theorem globBody_unit {c : CodeUnit} {pattern : JsString}
    (h : (js "**").isPrefixOf (c :: pattern) = false) :
    globBody (c :: pattern) = unitSource c ++ globBody pattern := by
  rw [globBody, JsString.split, JsString.splitFrom]
  simp only [h, Bool.false_eq_true, if_false]
  exact intercalate_modifyHead c (splitFrom_ne_nil _ 0 pattern)

theorem globBody_pair (pattern : JsString) :
    globBody (42 :: 42 :: pattern) = js ".*" ++ globBody pattern := by
  have hsplit : JsString.split (js "**") (42 :: 42 :: pattern) =
      [] :: JsString.split (js "**") pattern := by
    rw [JsString.split, show js "**" = [42, 42] by decide]
    simp [JsString.splitFrom, JsString.split]
  obtain ⟨first, rest, hrest⟩ :=
    List.exists_cons_of_ne_nil (splitFrom_ne_nil (js "**") 0 pattern)
  rw [globBody, globBody, hsplit, JsString.split, hrest, List.map_cons, List.map_cons,
    List.intercalate_cons_cons]
  simp [globSegment_eq]

theorem isPrefixOf_pair_of_ne {c : CodeUnit} (pattern : JsString) (hc : c ≠ 42) :
    (js "**").isPrefixOf (c :: pattern) = false := by
  rw [show js "**" = [42, 42] by decide]
  simp [List.isPrefixOf, Ne.symm hc]

theorem globBody_tokens (pattern : JsString) :
    globBody pattern = ((globAlphabet.tokens pattern).map tokenSource).flatten := by
  induction pattern using GlobAlphabet.tokens.induct globAlphabet with
  | case1 => rfl
  | case2 => rfl
  | case3 => rfl
  | case4 c hwild hsingle =>
    rw [globBody_unit (isPrefixOf_pair_of_ne [] hwild), globAlphabet.tokens_cons_of_ne hwild,
      List.map_cons, show globAlphabet.single = 63 from rfl, tokenSource_unit hwild]
    rfl
  | case5 pattern ih =>
    rw [show globAlphabet.wildcard = 42 from rfl, globBody_pair, ih]
    rfl
  | case6 d pattern hd ih =>
    rw [show globAlphabet.wildcard = 42 from rfl] at hd ⊢
    have hpair : (js "**").isPrefixOf (42 :: d :: pattern) = false := by
      rw [show js "**" = [42, 42] by decide]
      simpa [List.isPrefixOf] using Ne.symm hd
    have htokens : globAlphabet.tokens (42 :: d :: pattern) =
        .segment :: globAlphabet.tokens (d :: pattern) := (if_pos rfl).trans (if_neg hd)
    rw [globBody_unit hpair, ih, htokens]
    rfl
  | case7 d pattern _ ih =>
    have hsingle : (63 : CodeUnit) ≠ globAlphabet.wildcard := by decide
    rw [show globAlphabet.single = 63 from rfl,
      globBody_unit (isPrefixOf_pair_of_ne _ hsingle), ih,
      globAlphabet.tokens_cons_of_ne hsingle (d :: pattern)]
    rfl
  | case8 c d pattern hwild hsingle ih =>
    rw [globBody_unit (isPrefixOf_pair_of_ne _ hwild), ih,
      globAlphabet.tokens_cons_of_ne hwild, List.map_cons, List.flatten_cons,
      show globAlphabet.single = 63 from rfl, tokenSource_unit hwild]

end Splitting

section Reading

open RegExpSource

def crosses (c : CodeUnit) : Bool := !isLineTerminator c

def globExpression (pattern : JsString) : Regex CodeUnit :=
  .all ((globAlphabet.tokens pattern).map (globAlphabet.expression crosses))

theorem readAtom_class (rest : JsString) :
    readAtom (js "[^/]" ++ rest) = some (.one fun e => e ≠ 47, rest) := by
  rw [show js "[^/]" = [91, 94, 47, 93] by decide]
  rfl

theorem readAtom_dot (rest : JsString) : readAtom (46 :: rest) = some (.one crosses, rest) := rfl

theorem readAtom_escaped {c : CodeUnit} (hc : isSyntaxCharacter c = true) (rest : JsString) :
    readAtom (92 :: c :: rest) = some (.one (· = c), rest) := by
  rw [readAtom, if_pos (by decide)]
  exact if_pos hc

theorem isAny_false {text : String} {c : CodeUnit}
    (hsub : ∀ d ∈ js text, isSyntaxCharacter d = true) (hc : isSyntaxCharacter c = false) :
    c.isAny text = false := by
  refine Bool.eq_false_iff.mpr fun hany => Bool.false_ne_true (hc.symm.trans (hsub c ?_))
  simpa [CodeUnit.isAny] using hany

theorem readAtom_plain {c : CodeUnit} (hc : isSyntaxCharacter c = false) (rest : JsString) :
    readAtom (c :: rest) = some (.one (· = c), rest) := by
  have hslash : c.isAny "\\" = false :=
    isAny_false (by rw [show js "\\" = [92] by decide]; simp; decide) hc
  have hdot : c.isAny "." = false :=
    isAny_false (by rw [show js "." = [46] by decide]; simp; decide) hc
  have hclass : c.isAny "[" = false :=
    isAny_false (by rw [show js "[" = [91] by decide]; simp; decide) hc
  simp only [readAtom, hslash, hdot, hclass, hc, Bool.false_eq_true, if_false]

theorem tokenSource_term {token : GlobToken CodeUnit}
    (h : ∀ c, token = .literal c → c ≠ 42 ∧ c ≠ 63) :
    Term (tokenSource token) (globAlphabet.expression crosses token) := by
  intro rest hrest
  cases token with
  | anything =>
    rw [tokenSource, show js ".*" = [46, 42] by decide]
    exact readTerm_of_star (readAtom_dot (42 :: rest))
  | segment =>
    rw [tokenSource, show js "[^/]*" = js "[^/]" ++ [42] by decide, List.append_assoc]
    exact readTerm_of_star (readAtom_class (42 :: rest))
  | character => exact readTerm_of_atom (readAtom_class rest) hrest
  | literal c =>
    obtain ⟨hwild, hsingle⟩ := h c rfl
    have hspecial : isSyntaxCharacter c = isEscaped c := by
      rw [isSyntaxCharacter_eq, beq_false_of_ne hwild, beq_false_of_ne hsingle, Bool.or_false,
        Bool.or_false]
    rw [tokenSource]
    split
    · rename_i hescaped
      rw [show js "\\" = [92] by decide]
      exact readTerm_of_atom (readAtom_escaped (hspecial.trans hescaped) rest) hrest
    · rename_i hplain
      have hplain := hspecial.trans (Bool.eq_false_iff.mpr hplain)
      exact readTerm_of_atom (readAtom_plain hplain rest) hrest

theorem tokenSource_head {token : GlobToken CodeUnit}
    (h : ∀ c, token = .literal c → c ≠ 42 ∧ c ≠ 63) :
    ∃ c s, tokenSource token = c :: s ∧ c ≠ 36 ∧ c ≠ 42 := by
  cases token with
  | anything => exact ⟨46, [42], by decide, by decide, by decide⟩
  | segment => exact ⟨91, [94, 47, 93, 42], by decide, by decide, by decide⟩
  | character => exact ⟨91, [94, 47, 93], by decide, by decide, by decide⟩
  | literal c =>
    obtain ⟨hwild, -⟩ := h c rfl
    rw [tokenSource]
    split
    · exact ⟨92, [c], by rw [show js "\\" = [92] by decide]; rfl, by decide, by decide⟩
    · rename_i hplain
      refine ⟨c, [], rfl, ?_, hwild⟩
      rintro rfl
      exact hplain (by decide)

theorem length_le_flatten {l : List JsString}
    (h : ∀ source ∈ l, ∃ c s, source = c :: s ∧ c ≠ 36 ∧ c ≠ 42) :
    l.length ≤ l.flatten.length := by
  induction l with
  | nil => exact Nat.le_refl 0
  | cons source l ih =>
    obtain ⟨⟨c, s, rfl, -⟩, hl⟩ := List.forall_mem_cons.mp h
    have := ih hl
    simp only [List.length_cons, List.flatten_cons, List.cons_append, List.length_append]
    omega

theorem globToRegex_eq (pattern : JsString) :
    globToRegex pattern = some (globExpression pattern) := by
  have hliteral : ∀ token ∈ globAlphabet.tokens pattern,
      ∀ c, token = .literal c → c ≠ 42 ∧ c ≠ 63 := by
    rintro token htoken c rfl
    exact globAlphabet.literal_mem_tokens htoken
  have hterms : List.Forall₂ Term ((globAlphabet.tokens pattern).map tokenSource)
      ((globAlphabet.tokens pattern).map (globAlphabet.expression crosses)) := by
    rw [List.forall₂_map_left_iff, List.forall₂_map_right_iff, List.forall₂_same]
    exact fun token htoken => tokenSource_term (hliteral token htoken)
  have hheads : ∀ source ∈ (globAlphabet.tokens pattern).map tokenSource,
      ∃ c s, source = c :: s ∧ c ≠ 36 ∧ c ≠ 42 := by
    rintro source hsource
    obtain ⟨token, htoken, rfl⟩ := List.mem_map.mp hsource
    exact tokenSource_head (hliteral token htoken)
  have hsource : globSource pattern = 94 ::
      (((globAlphabet.tokens pattern).map tokenSource).flatten ++ js "$") := by
    rw [← globBody_tokens, globSource, show js "^" = [94] by decide]
    rfl
  rw [globToRegex, hsource, regExp, if_pos (by decide),
    readTerms_terms hterms hheads ?_]
  · rfl
  · have := length_le_flatten hheads
    rw [List.length_append]
    omega

end Reading

end Aseos.ScopePolicy
