import Aseos.Toolchain.GlobScope

namespace Aseos.ScopePolicy

def isLineSeparator (c : CodeUnit) : Bool := c.val == 8232 || c.val == 8233

def MatchesWithinLines (pattern path : JsString) : Prop :=
  globAlphabet.TokensMatch (fun c => isLineSeparator c = false) (globAlphabet.tokens pattern) path

section Matching

variable {runtime : ScriptRuntime} {path : JsString}

theorem safe_not_control (hsafe : isSafeRepositoryPath runtime path = true) {c : CodeUnit}
    (hc : c ∈ path) : isInvalidControl c = false := by
  simp only [isSafeRepositoryPath, Bool.and_eq_true, Bool.not_eq_true',
    List.any_eq_false] at hsafe
  exact Bool.eq_false_iff.mpr (hsafe.1.1.1.2 c hc)

theorem safe_not_wildcard (hsafe : isSafeRepositoryPath runtime path = true) {c : CodeUnit}
    (hc : c ∈ path) : c ≠ 42 ∧ c ≠ 63 := by
  simp only [isSafeRepositoryPath, Bool.and_eq_true, Bool.not_eq_true',
    List.any_eq_false] at hsafe
  have hany := hsafe.2 c hc
  refine ⟨?_, ?_⟩ <;>
    · rintro rfl
      exact hany (by decide)

theorem safe_crosses (hsafe : isSafeRepositoryPath runtime path = true) {c : CodeUnit}
    (hc : c ∈ path) : crosses c = true ↔ isLineSeparator c = false := by
  have hcontrol := safe_not_control hsafe hc
  simp only [isInvalidControl, Bool.or_eq_false_iff, decide_eq_false_iff_not] at hcontrol
  have hlow : 32 ≤ c.val := Nat.not_lt.mp hcontrol.1.1
  simp only [crosses, RegExpSource.isLineTerminator, isLineSeparator, Bool.not_eq_true',
    Bool.or_eq_false_iff, beq_eq_false_iff_ne]
  omega

theorem matchesAny_iff {patterns : List JsString} :
    matchesAny path patterns = true ↔ ∃ pattern ∈ patterns,
      globAlphabet.TokensMatch (fun c => crosses c = true) (globAlphabet.tokens pattern) path := by
  simp only [matchesAny, List.any_eq_true, globToRegex_eq, Option.any_some, Regex.test_iff,
    globExpression, GlobAlphabet.mem_lang_expressions]

theorem matchesAny_safe (hsafe : isSafeRepositoryPath runtime path = true)
    {patterns : List JsString} :
    matchesAny path patterns = true ↔ ∃ pattern ∈ patterns, MatchesWithinLines pattern path := by
  rw [matchesAny_iff]
  refine exists_congr fun pattern => and_congr_right fun _ => ⟨fun h => ?_, fun h => ?_⟩
  · exact h.mono fun c hc => (safe_crosses hsafe hc).mp
  · exact h.mono fun c hc => (safe_crosses hsafe hc).mpr

theorem matches_safe_iff (hsafe : isSafeRepositoryPath runtime path = true) (pattern : JsString) :
    (matchesAny path [pattern] = true ↔ globAlphabet.Matches pattern path) ↔
      (globAlphabet.Matches pattern path → MatchesWithinLines pattern path) := by
  have hone : matchesAny path [pattern] = true ↔ MatchesWithinLines pattern path := by
    simpa using @matchesAny_safe _ _ hsafe [pattern]
  rw [hone]
  exact ⟨Iff.mpr, fun h => ⟨fun hm => hm.mono fun _ _ _ => trivial, h⟩⟩

theorem matches_pair (path : JsString) : globAlphabet.Matches (js "**") path := by
  rw [GlobAlphabet.Matches, show js "**" = [42, 42] by decide]
  exact ⟨[path], (List.append_nil path).symm, .cons (fun _ _ => trivial) .nil⟩

theorem withinLines_pair_iff :
    MatchesWithinLines (js "**") path ↔ ∀ c ∈ path, isLineSeparator c = false := by
  rw [MatchesWithinLines, show js "**" = [42, 42] by decide]
  constructor
  · rintro ⟨parts, rfl, hparts⟩
    obtain _ | @⟨_, part, _, parts, hpart, hparts⟩ := hparts
    cases hparts
    simpa [GlobAlphabet.Stands] using hpart
  · exact fun h => ⟨[path], (List.append_nil path).symm, .cons h .nil⟩

theorem matches_all_iff (hsafe : isSafeRepositoryPath runtime path = true) :
    (∀ pattern, matchesAny path [pattern] = true ↔ globAlphabet.Matches pattern path) ↔
      ∀ c ∈ path, isLineSeparator c = false := by
  constructor
  · intro h
    exact withinLines_pair_iff.mp ((matches_safe_iff hsafe _).mp (h (js "**")) (matches_pair path))
  · intro h pattern
    refine (matches_safe_iff hsafe pattern).mpr fun hm => ?_
    exact GlobAlphabet.TokensMatch.mono hm fun c hc _ => h c hc

end Matching

section Directory

variable {runtime : ScriptRuntime} {directory rest : JsString}

theorem tokens_literal {text : JsString} (h : ∀ c ∈ text, c ≠ 42 ∧ c ≠ 63) (pattern : JsString) :
    globAlphabet.tokens (text ++ pattern) = text.map .literal ++ globAlphabet.tokens pattern := by
  induction text with
  | nil => rfl
  | cons c text ih =>
    obtain ⟨⟨hwild, hsingle⟩, htext⟩ := List.forall_mem_cons.mp h
    rw [List.cons_append, globAlphabet.tokens_cons_of_ne hwild,
      show globAlphabet.single = 63 from rfl, if_neg hsingle, ih htext]
    rfl

theorem literals_match {crossed : CodeUnit → Prop} {text path : JsString}
    {l : List (GlobToken CodeUnit)} :
    globAlphabet.TokensMatch crossed (text.map .literal ++ l) (text ++ path) ↔
      globAlphabet.TokensMatch crossed l path := by
  induction text with
  | nil => rfl
  | cons c text ih =>
    rw [← ih]
    constructor
    · rintro ⟨parts, hpath, hparts⟩
      obtain _ | @⟨_, part, _, parts, hpart, hparts⟩ := hparts
      cases (show part = [c] from hpart)
      exact ⟨parts, (List.cons.inj hpath).2, hparts⟩
    · rintro ⟨parts, hpath, hparts⟩
      exact ⟨[c] :: parts, by rw [List.flatten_cons, ← hpath]; rfl, .cons rfl hparts⟩

theorem withinLines_directory
    (hsafe : isSafeRepositoryPath runtime (directory ++ js "/" ++ rest) = true) :
    MatchesWithinLines (directory ++ js "/**") (directory ++ js "/" ++ rest) ↔
      ∀ c ∈ rest, isLineSeparator c = false := by
  have hplain : ∀ c ∈ directory ++ js "/", c ≠ 42 ∧ c ≠ 63 := fun c hc =>
    safe_not_wildcard hsafe (List.mem_append_left _ hc)
  have hpattern : directory ++ js "/**" = directory ++ js "/" ++ js "**" := by
    rw [List.append_assoc]
    rfl
  rw [hpattern, MatchesWithinLines, tokens_literal hplain, literals_match]
  exact withinLines_pair_iff

theorem directory_matched_iff
    (hsafe : isSafeRepositoryPath runtime (directory ++ js "/" ++ rest) = true) :
    matchesAny (directory ++ js "/" ++ rest) [directory ++ js "/**"] = true ↔
      ∀ c ∈ rest, isLineSeparator c = false := by
  rw [matchesAny_safe hsafe, ← withinLines_directory hsafe]
  simp

def Governs (writeScope : WriteScope) (directory : JsString) : Prop :=
  directory ++ js "/**" ∈ writeScope.globalAllowedPathGlobs ++ writeScope.globalDeniedPathGlobs

theorem isPhase1GovernedPath_of_governs {writeScope : WriteScope} {files : List AuthorityFile}
    {path : JsString} (hgoverns : Governs writeScope directory)
    (hmatch : matchesAny path [directory ++ js "/**"] = true) :
    isPhase1GovernedPath path writeScope files = true := by
  have hany : ∀ patterns : List JsString, directory ++ js "/**" ∈ patterns →
      matchesAny path patterns = true := by
    intro patterns hmem
    obtain ⟨pattern, hpattern, h⟩ := matchesAny_iff.mp hmatch
    exact matchesAny_iff.mpr ⟨_, hmem, List.mem_singleton.mp hpattern ▸ h⟩
  rw [isPhase1GovernedPath]
  obtain hallowed | hdenied := List.mem_append.mp hgoverns
  · simp [hany _ hallowed]
  · simp [hany _ hdenied]

theorem governed_iff
    (hsafe : isSafeRepositoryPath runtime (directory ++ js "/" ++ rest) = true) :
    (∀ writeScope files, Governs writeScope directory →
      isPhase1GovernedPath (directory ++ js "/" ++ rest) writeScope files = true) ↔
      (js "operations/phase-1/").isPrefixOf (directory ++ js "/" ++ rest) = true ∨
        ∀ c ∈ rest, isLineSeparator c = false := by
  rw [← directory_matched_iff hsafe]
  constructor
  · intro h
    have hgoverned := h ⟨[directory ++ js "/**"], [], []⟩ [] (List.mem_singleton.mpr rfl)
    simpa [isPhase1GovernedPath, matchesAny] using hgoverned
  · rintro (hstarts | hmatch) writeScope files hgoverns
    · simp only [isPhase1GovernedPath, hstarts, Bool.true_or]
    · exact isPhase1GovernedPath_of_governs hgoverns hmatch

end Directory

theorem glob_matching_exact (runtime : ScriptRuntime) {path : JsString}
    (hsafe : isSafeRepositoryPath runtime path = true) :
    ((∀ pattern, matchesAny path [pattern] = true ↔ globAlphabet.Matches pattern path) ↔
      ∀ c ∈ path, isLineSeparator c = false) ∧
    (∀ pattern, (matchesAny path [pattern] = true ↔ globAlphabet.Matches pattern path) ↔
      (globAlphabet.Matches pattern path → MatchesWithinLines pattern path)) ∧
    ∀ directory rest, path = directory ++ js "/" ++ rest →
      (matchesAny path [directory ++ js "/**"] = true ↔ ∀ c ∈ rest, isLineSeparator c = false) ∧
      ((∀ writeScope files, Governs writeScope directory →
        isPhase1GovernedPath path writeScope files = true) ↔
        (js "operations/phase-1/").isPrefixOf path = true ∨
          ∀ c ∈ rest, isLineSeparator c = false) := by
  refine ⟨matches_all_iff hsafe, matches_safe_iff hsafe, ?_⟩
  rintro directory rest rfl
  exact ⟨directory_matched_iff hsafe, governed_iff hsafe⟩

noncomputable def identityScript : ScriptRuntime := { sampleRuntime with normalizeNfc := id }

theorem sample_glob_matching :
    matchesAny (js "docs/plan.md") [js "docs" ++ js "/**"] = true :=
  ((glob_matching_exact identityScript
    (by decide)).2.2 (js "docs") (js "plan.md") (by decide)).1.mpr (by
      have hall : (js "plan.md").all (fun c => !isLineSeparator c) = true := by decide
      simpa using hall)

theorem line_separator_escapes_scope :
    ∃ (runtime : ScriptRuntime) (path : JsString) (writeScope : WriteScope),
      path = js "docs/" ++ [8232] ∧ isSafeRepositoryPath runtime path = true ∧
      writeScope = ⟨[js "docs/**"], [], []⟩ ∧
      globAlphabet.Matches (js "docs/**") path ∧ matchesAny path [js "docs/**"] = false ∧
      isPhase1GovernedPath path writeScope [] = false := by
  refine ⟨identityScript, _, _, rfl, by decide, rfl, ?_, by decide, by decide⟩
  rw [GlobAlphabet.Matches, show js "docs/**" = js "docs/" ++ js "**" by decide,
    tokens_literal (by simp [js, utf16])]
  exact literals_match.mpr (matches_pair [8232])

end Aseos.ScopePolicy
