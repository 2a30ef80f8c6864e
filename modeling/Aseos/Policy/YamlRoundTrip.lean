import Aseos.Policy.YamlRendering
import Mathlib.Data.List.Infix
import Mathlib.Data.List.TakeWhile

namespace Aseos.Policy

section Source

variable {numberValue : JsString → JsNumber} {limits : RestrictedYamlLimits}

def lineText (line : ℕ × JsString) : JsString := List.replicate line.1 32 ++ line.2

def textLines (shown : List (ℕ × JsString)) (terminated : Bool) : List JsString :=
  shown.map lineText ++ if terminated then [[]] else []

def yamlText (shown : List (ℕ × JsString)) (terminated : Bool) : JsString :=
  List.intercalate [10] (textLines shown terminated)

theorem kept_margin {margin content : JsString} (hmargin : ∀ c ∈ margin, CodeUnit.isSpace c = true)
    (hfirst : ∃ c rest, content = c :: rest ∧ c.isSpace = false ∧ c.val ≠ 35) :
    ignored (margin ++ content) = false ∧ indentation (margin ++ content) = margin.length := by
  obtain ⟨c, rest, rfl, hspace, hhash⟩ := hfirst
  have hstart : JsString.trimStart (margin ++ c :: rest) = c :: rest := by
    rw [JsString.trimStart, List.dropWhile_append_of_pos hmargin]
    exact trimStart_cons hspace
  have hend : JsString.trim (margin ++ c :: rest) ≠ [] := by
    rw [JsString.trim, hstart]
    intro hnil
    have hspaces := List.dropWhile_eq_nil_iff.mp (List.reverse_eq_nil_iff.mp hnil) c (by simp)
    rw [hspace] at hspaces
    cases hspaces
  have hcomment : startsWith "#" (c :: rest) = false := by
    change ((35 == c) && List.isPrefixOf [] rest) = false
    rw [beq_false_of_ne fun h => by subst h; exact hhash rfl, Bool.false_and]
  refine ⟨?_, ?_⟩
  · rw [ignored, hstart, hcomment, decide_eq_false hend]
    rfl
  · rw [indentation, hstart, List.length_append]
    exact Nat.add_sub_cancel _ _

theorem kept_lineText {indent : ℕ} {content : JsString} (h : PlainLine indent content) :
    ignored (lineText (indent, content)) = false ∧
      indentation (lineText (indent, content)) = indent := by
  have hspaces : ∀ d ∈ List.replicate indent (32 : CodeUnit), CodeUnit.isSpace d = true := by
    intro d hd
    rw [(List.mem_replicate.mp hd).2]
    rfl
  obtain ⟨hkept, hindent⟩ := kept_margin hspaces h.first
  exact ⟨hkept, hindent.trans List.length_replicate⟩

theorem allowed_lineText {indent : ℕ} {content : JsString} (h : PlainLine indent content) :
    ∀ c ∈ lineText (indent, content), c.val ∉ forbidden := by
  refine List.forall_mem_append.mpr ⟨fun c hc => ?_, h.allowed⟩
  rw [(List.mem_replicate.mp hc).2]
  simp [forbidden]

theorem supported_of_plain {indent : ℕ} {content : JsString} (h : PlainLine indent content) :
    unsupported content = false := by
  have hchars : js "'[\x7b" = [39, 91, 123] := rfl
  have hunits : content.any (CodeUnit.isAny "'[\x7b") = false := by
    rw [List.any_eq_false]
    intro c hc
    have hallowed := h.allowed c hc
    simp only [forbidden, List.mem_cons, List.not_mem_nil, or_false] at hallowed
    rw [CodeUnit.isAny, List.elem_iff, hchars]
    simp only [List.mem_cons, List.not_mem_nil, or_false, Fin.ext_iff]
    omega
  rw [unsupported, h.noDirective, hunits, h.noPair]
  rfl

theorem yamlLines_shown {shown : List (ℕ × JsString)} (h : ∀ l ∈ shown, PlainLine l.1 l.2)
    (terminated : Bool) (index : ℕ) :
    ∃ lines, yamlLines index (textLines shown terminated) = .ok lines ∧
      lines.map YamlLine.shown = shown := by
  induction shown generalizing index with
  | nil =>
    cases terminated with
    | true => exact ⟨[], rfl, rfl⟩
    | false => exact ⟨[], rfl, rfl⟩
  | cons line shown ih =>
    obtain ⟨indent, content⟩ := line
    obtain ⟨hline, hshown⟩ := List.forall_mem_cons.mp h
    obtain ⟨lines, hlines, hmap⟩ := ih hshown (index + 1)
    have htab : (lineText (indent, content)).any (fun c => c.val == 9) = false := by
      rw [List.any_eq_false]
      intro c hc htab
      have hallowed := allowed_lineText hline c hc
      simp only [forbidden, List.mem_cons, not_or] at hallowed
      exact hallowed.1 (beq_iff_eq.mp htab)
    have hdrop : (lineText (indent, content)).drop indent = content := by
      rw [lineText, List.drop_left' List.length_replicate]
    obtain ⟨hkept, hindent⟩ := kept_lineText hline
    have hadmitted : Admitted (lineText (indent, content)) := by
      refine ⟨htab, ?_, ?_⟩
      · rw [hindent]
        exact hline.even
      · rw [hindent, hdrop]
        exact supported_of_plain hline
    refine ⟨⟨indent, content, index + 1⟩ :: lines, ?_, by rw [List.map_cons, hmap]; rfl⟩
    refine (yamlLines_kept hkept).mpr ⟨hadmitted, lines, hlines, ?_⟩
    rw [hindent, hdrop]

theorem replaceCrLf_plain {source : JsString} (h : ∀ c ∈ source, c.val ≠ 13) (text : JsString) :
    replaceCrLf text source = source := by
  induction source using replaceCrLf.induct with
  | case1 => rfl
  | case2 c => rfl
  | case3 c d s hpair => exact absurd hpair.1 (h c List.mem_cons_self)
  | case4 c d s hpair ih =>
    rw [replaceCrLf, if_neg hpair, ih (List.forall_mem_cons.mp h).2]

theorem mem_intercalate {ending : JsString} {lines : List JsString} {c : CodeUnit}
    (h : c ∈ List.intercalate ending lines) : c ∈ ending ∨ ∃ line ∈ lines, c ∈ line := by
  induction lines with
  | nil => cases h
  | cons line lines ih =>
    cases lines with
    | nil =>
      rw [List.intercalate_singleton] at h
      exact .inr ⟨line, List.mem_cons_self, h⟩
    | cons next lines =>
      rw [List.intercalate_cons_cons, List.mem_append, List.mem_append] at h
      obtain (h | h) | h := h
      · exact .inr ⟨line, List.mem_cons_self, h⟩
      · exact .inl h
      · exact (ih h).imp_right fun ⟨l, hl, hc⟩ => ⟨l, List.mem_cons_of_mem _ hl, hc⟩

theorem textLines_units {shown : List (ℕ × JsString)} (h : ∀ l ∈ shown, PlainLine l.1 l.2)
    (terminated : Bool) : ∀ line ∈ textLines shown terminated, ∀ c ∈ line, c.val ∉ forbidden := by
  refine List.forall_mem_append.mpr ⟨fun line hline => ?_, fun line hline => ?_⟩
  · obtain ⟨l, hl, rfl⟩ := List.mem_map.mp hline
    exact allowed_lineText (h l hl)
  · cases terminated with
    | true =>
      obtain rfl := List.mem_singleton.mp hline
      nofun
    | false => cases hline

theorem not_mixed_of_no_return {source : JsString} (h : ∀ c ∈ source, c.val ≠ 13) :
    mixedLineEnds source = false := by
  have hany : source.any (fun c => c.val == 13) = false := by
    rw [List.any_eq_false]
    exact fun c hc hval => h c hc (beq_iff_eq.mp hval)
  have hpair : source.includes (js "\r\n") = false := by
    rw [JsString.includes, List.any_eq_false]
    intro tail htail hstart
    obtain ⟨rest, hrest⟩ := List.isPrefixOf_iff_prefix.mp hstart
    have hmem : (13 : CodeUnit) ∈ tail := by
      rw [← hrest]
      exact List.mem_append_left _ (by decide)
    exact h 13 (((List.mem_tails _ _).mp htail).subset hmem) rfl
  rw [mixedLineEnds, replaceCrLf_plain h, hany, hpair]
  rfl

theorem rawLines_yamlText {shown : List (ℕ × JsString)} (h : ∀ l ∈ shown, PlainLine l.1 l.2)
    (hne : shown ≠ []) (terminated : Bool) :
    rawLines (yamlText shown terminated) = textLines shown terminated ∧
      mixedLineEnds (yamlText shown terminated) = false := by
  have hunits := textLines_units h terminated
  have hfeed : ∀ line ∈ textLines shown terminated, (10 : CodeUnit) ∉ line := by
    intro line hline hmem
    exact hunits line hline 10 hmem (by simp [forbidden])
  have hreturn : ∀ c ∈ yamlText shown terminated, c.val ≠ 13 := by
    intro c hc hval
    obtain hfeed | ⟨line, hline, hmem⟩ := mem_intercalate hc
    · obtain rfl := List.mem_singleton.mp hfeed
      cases hval
    · exact hunits line hline c hmem (by simp [forbidden, hval])
  have hlines : textLines shown terminated ≠ [] := by
    rw [textLines]
    simp [hne]
  refine ⟨?_, not_mixed_of_no_return hreturn⟩
  rw [rawLines, replaceCrLf_plain hreturn]
  exact List.splitOn_intercalate 10 hfeed hlines

end Source

section Quoting

open JsonText

def yamlEscape (afterColon : Bool) : JsString → JsString
  | [] => []
  | c :: s =>
      (if c.isAny "'[\x7b" || (afterColon && c.isAny "|>") then unicodeEscape c else escapeUnit c) ++
        yamlEscape (isColon c || (afterColon && c.isSpace)) s

def yamlQuote (s : JsString) : JsString := 34 :: (yamlEscape false s ++ [34])

theorem takeString_yamlEscape (s : JsString) (afterColon : Bool) :
    Json.takeString (yamlEscape afterColon s ++ [34]) = some (s, []) := by
  induction s generalizing afterColon with
  | nil => exact Json.takeString_quote []
  | cons c s ih =>
    rw [yamlEscape, List.append_assoc]
    split
    · rw [Json.takeString_unicodeEscape, ih]
      rfl
    · rw [Json.takeString_escapeUnit, ih]
      rfl

def Inert (c : CodeUnit) : Prop := c.val ∉ forbidden ∧ isColon c = false

theorem inert_hexDigit {n : ℕ} (h : n < 16) : Inert (hexDigit n) := by
  have hvalues : (hexDigit n).val ∈ (List.range 16).map (fun n => (hexDigit n).val) :=
    List.mem_map.mpr ⟨n, List.mem_range.mpr h, rfl⟩
  rw [show (List.range 16).map (fun n => (hexDigit n).val) =
    [48, 49, 50, 51, 52, 53, 54, 55, 56, 57, 97, 98, 99, 100, 101, 102] from rfl] at hvalues
  simp only [List.mem_cons, List.not_mem_nil, or_false] at hvalues
  refine ⟨?_, ?_⟩
  · simp only [forbidden, List.mem_cons, List.not_mem_nil, or_false]
    omega
  · rw [← Bool.not_eq_true, isColon_iff]
    omega

theorem inert_unicodeEscape (c : CodeUnit) : ∀ d ∈ unicodeEscape c, Inert d := by
  have hstart : js "\\u" = [92, 117] := rfl
  have hdigit (n : ℕ) : Inert (hexDigit (n % 16)) := inert_hexDigit (Nat.mod_lt _ (by decide))
  have hslash : Inert 92 := ⟨by simp [forbidden], rfl⟩
  have hletter : Inert 117 := ⟨by simp [forbidden], rfl⟩
  rw [unicodeEscape, hstart]
  simp [hdigit, hslash, hletter]

theorem escaped_unit (c : CodeUnit) (afterColon : Bool) :
    (∃ rest, (if c.isAny "'[\x7b" || (afterColon && c.isAny "|>") then unicodeEscape c
        else escapeUnit c) = 92 :: rest ∧ ∀ d ∈ 92 :: rest, Inert d) ∨
      ((if c.isAny "'[\x7b" || (afterColon && c.isAny "|>") then unicodeEscape c
        else escapeUnit c) = [c] ∧ c.val ∉ forbidden ∧
        (afterColon = true → c.isAny "|>" = false)) := by
  have hchars : js "'[\x7b" = [39, 91, 123] := rfl
  have hshort (d : CodeUnit) (hd : Inert d) : ∀ e ∈ ([92, d] : JsString), Inert e := by
    have hslash : Inert 92 := ⟨by simp [forbidden], rfl⟩
    simp [hd, hslash]
  split
  · exact .inl ⟨_, rfl, inert_unicodeEscape c⟩
  · rename_i hkept
    rw [Bool.or_eq_true, not_or, Bool.and_eq_true, not_and, Bool.not_eq_true,
      Bool.not_eq_true] at hkept
    unfold escapeUnit
    split
    · exact .inl ⟨[98], rfl, hshort 98 ⟨by simp [forbidden], rfl⟩⟩
    split
    · exact .inl ⟨[116], rfl, hshort 116 ⟨by simp [forbidden], rfl⟩⟩
    split
    · exact .inl ⟨[110], rfl, hshort 110 ⟨by simp [forbidden], rfl⟩⟩
    split
    · exact .inl ⟨[102], rfl, hshort 102 ⟨by simp [forbidden], rfl⟩⟩
    split
    · exact .inl ⟨[114], rfl, hshort 114 ⟨by simp [forbidden], rfl⟩⟩
    split
    · exact .inl ⟨[34], rfl, hshort 34 ⟨by simp [forbidden], rfl⟩⟩
    split
    · exact .inl ⟨[92], rfl, hshort 92 ⟨by simp [forbidden], rfl⟩⟩
    split
    · exact .inl ⟨_, rfl, inert_unicodeEscape c⟩
    · rename_i hcontrol
      refine .inr ⟨rfl, ?_, hkept.2⟩
      have hother := hkept.1
      rw [CodeUnit.isAny, ← Bool.not_eq_true, List.elem_iff, hchars] at hother
      simp only [List.mem_cons, List.not_mem_nil, or_false, Fin.ext_iff, not_or] at hother
      simp only [forbidden, List.mem_cons, List.not_mem_nil, or_false]
      have h39 : ((39 : CodeUnit) : ℕ) = 39 := rfl
      have h91 : ((91 : CodeUnit) : ℕ) = 91 := rfl
      have h123 : ((123 : CodeUnit) : ℕ) = 123 := rfl
      omega

def opensBar (s : JsString) : Bool :=
  (s.dropWhile CodeUnit.isSpace).head?.any (CodeUnit.isAny "|>")

theorem opensBar_cons (c : CodeUnit) (s : JsString) :
    opensBar (c :: s) = if c.isSpace then opensBar s else c.isAny "|>" := by
  rw [opensBar, List.dropWhile_cons]
  split
  · rfl
  · rfl

theorem yamlEscape_plain (s : JsString) (afterColon : Bool) :
    (∀ c ∈ yamlEscape afterColon s ++ [34], c.val ∉ forbidden) ∧
      opensBlockScalar (yamlEscape afterColon s ++ [34]) = false ∧
      (afterColon = true → opensBar (yamlEscape afterColon s ++ [34]) = false) := by
  induction s generalizing afterColon with
  | nil => exact ⟨by simp [yamlEscape, forbidden], rfl, fun _ => rfl⟩
  | cons c s ih =>
    obtain ⟨hunits, hpair, hbar⟩ := ih (isColon c || (afterColon && c.isSpace))
    rw [yamlEscape, List.append_assoc]
    obtain ⟨rest, hpiece, hinert⟩ | ⟨hpiece, hallowed, hkept⟩ := escaped_unit c afterColon
    · rw [hpiece]
      refine ⟨?_, ?_, fun _ => ?_⟩
      · exact List.forall_mem_append.mpr ⟨fun d hd => (hinert d hd).1, hunits⟩
      · rw [opensBlockScalar_append fun d hd => (hinert d hd).2]
        exact hpair
      · rw [List.cons_append, opensBar_cons, if_neg (by decide)]
        rfl
    · rw [hpiece, List.singleton_append]
      refine ⟨List.forall_mem_cons.mpr ⟨hallowed, hunits⟩, ?_, fun hcolon => ?_⟩
      · rw [opensBlockScalar_cons, hpair, Bool.or_false, Bool.and_eq_false_iff]
        by_cases hc : isColon c = true
        · exact .inr (hbar (by rw [hc]; rfl))
        · exact .inl (by simpa using hc)
      · rw [opensBar_cons]
        split
        · rename_i hspace
          exact hbar (by rw [hcolon, hspace]; simp)
        · exact hkept hcolon

theorem quoted_yamlQuote (s : JsString) : Quoted s (yamlQuote s) := by
  obtain ⟨hunits, hpair, -⟩ := yamlEscape_plain s false
  refine ⟨⟨yamlEscape false s, rfl, takeString_yamlEscape s false⟩, ?_, ?_⟩
  · exact List.forall_mem_cons.mpr ⟨by simp [forbidden], hunits⟩
  · rw [yamlQuote, opensBlockScalar_cons, hpair]
    rfl

end Quoting

section RoundTrip

variable (runtime : JsonRuntime)

structure WithinLimits (limits : RestrictedYamlLimits) (shown : List (ℕ × JsString))
    (terminated : Bool) : Prop where
  bytes : exceeds (yamlText shown terminated).utf8.length limits.maxBytes = false
  lines : exceeds (textLines shown terminated).length limits.maxLines = false
  depth : ∀ line ∈ shown, exceeds (line.1 / 2) limits.maxDepth = false
  nodes : exceeds shown.length limits.maxNodes = false

variable {runtime}

theorem parse_rendered {limits : ConfiguredLimits} {v : JsValue} {shown : List (ℕ × JsString)}
    {terminated : Bool} (hrender : Renders runtime.numberValue limits.required 0 shown (.node v))
    (hwithin : WithinLimits limits.required shown terminated) :
    parseRestrictedPolicyYaml runtime (yamlText shown terminated) limits = .ok v := by
  have hplain := hrender.plain rfl
  obtain ⟨lines, hlines, hshown⟩ := yamlLines_shown hplain terminated 0
  have hreads := hrender.reads lines hshown
  have hindent : indentOf lines = some 0 := hreads.begins
  have hne : shown ≠ [] := by
    rintro rfl
    rw [List.map_eq_nil_iff.mp hshown] at hindent
    cases hindent
  obtain ⟨hraw, hmixed⟩ := rawLines_yamlText hplain hne terminated
  have hlength : lines.length = shown.length := by rw [← hshown, List.length_map]
  have hfits : Fits limits.required 0 0 0 lines := by
    refine ⟨rfl, fun line hline => ?_, ?_⟩
    · exact hwithin.depth line.shown (hshown ▸ List.mem_map_of_mem hline)
    · rw [Nat.zero_add, hlength]
      exact hwithin.nodes
  have hparsed := hreads.parsed [] 0 0 (2 * lines.length + 2) hfits nofun le_rfl
  rw [List.append_nil] at hparsed
  have hacceptable : assertPolicyJson v (js "$") = .ok () := hrender.acceptable
  rw [parseRestrictedPolicyYaml, parseLimited, hwithin.bytes, hmixed, hraw, hwithin.lines,
    if_neg (by simp), if_neg (by simp), if_neg (by simp)]
  refine Except.bind_eq_ok.mpr ⟨lines, hlines, ?_⟩
  rw [hindent, if_neg (by simp)]
  refine Except.bind_eq_ok.mpr ⟨_, hparsed, ?_⟩
  rw [if_neg (by simp)]
  exact Except.bind_eq_ok.mpr ⟨(), hacceptable, rfl⟩

variable (runtime) in
theorem restricted_yaml_round_trip (limits : ConfiguredLimits) :
    (∀ v shown terminated, Renders runtime.numberValue limits.required 0 shown (.node v) →
      WithinLimits limits.required shown terminated →
      parseRestrictedPolicyYaml runtime (yamlText shown terminated) limits = .ok v) ∧
    (∀ s : JsString, s.wellFormed = true →
      ScalarText runtime.numberValue (.string s) (yamlQuote s)) ∧
    ∀ x : Double, x.negativeZero = false →
      ScalarText runtime.numberValue (.number (.finite x)) (runtime.numberText x) := by
  refine ⟨fun _ _ _ => parse_rendered, fun s hs => .string hs (quoted_yamlQuote s), fun x hx => ?_⟩
  have hunsigned : x.unsigned = x := by
    obtain ⟨value, negativeZero, hvalue, hzero⟩ := x
    cases hx
    rfl
  exact .number (runtime.literal x) (by rw [runtime.readBack, hunsigned])

def sampleShown : List (ℕ × JsString) :=
  [(0, js "rules" ++ js ":"),
    (2, js "- " ++ (js "effect" ++ js ": " ++ yamlQuote (js "it's: |"))),
    (4, js "when" ++ js ": " ++ js "null"),
    (2, js "-"),
    (4, js "- " ++ js "true")]

def sampleValue : JsValue :=
  .record [(js "rules", Json.arrayOf
    [.record [(js "effect", .string (js "it's: |")), (js "when", .null)],
      Json.arrayOf [.bool true]])]

theorem renders_sample : Renders sampleRuntime.numberValue (ConfiguredLimits.required {}) 0
    sampleShown (.node sampleValue) := by
  have hkey (key : String) (hgrammar : Pattern.mappingKey.test (js key) = true)
      (hsafe : js key ∉ protectedKeys) : ValidKey (js key) := ⟨hgrammar, hsafe⟩
  have hrecord : Renders sampleRuntime.numberValue (ConfiguredLimits.required {}) 4
      [(4, js "effect" ++ js ": " ++ yamlQuote (js "it's: |")),
        (4, js "when" ++ js ": " ++ js "null")]
      (.node (.record [(js "effect", .string (js "it's: |")), (js "when", .null)])) := by
    refine .mapping (by simp) (by decide) ?_
    refine .scalarEntry (hkey _ (by decide) (by decide)) (.string (by decide) (quoted_yamlQuote _))
      (by decide) ?_
    exact .scalarEntry (hkey _ (by decide) (by decide)) .null (by decide) .noEntries
  have hlast : Renders sampleRuntime.numberValue (ConfiguredLimits.required {}) 4
      [(4, js "- " ++ js "true")] (.node (Json.arrayOf [.bool true])) :=
    .sequence (by simp) (.scalarItem (.bool true) (by decide) .noItems)
  have hitems : Renders sampleRuntime.numberValue (ConfiguredLimits.required {}) 2
      sampleShown.tail (.items [.record [(js "effect", .string (js "it's: |")), (js "when", .null)],
        Json.arrayOf [.bool true]]) :=
    .compactItem hrecord (.expandedItem hlast .noItems)
  refine .mapping (by simp) (by decide) ?_
  exact .nestedEntry (hkey _ (by decide) (by decide)) (.sequence (by simp) hitems)
    .noEntries

theorem sample_round_trip :
    parseRestrictedPolicyYaml sampleRuntime (yamlText sampleShown true) {} = .ok sampleValue := by
  refine (restricted_yaml_round_trip sampleRuntime {}).1 _ _ _ renders_sample ⟨?_, ?_, ?_, ?_⟩
  · decide
  · decide
  · decide
  · decide

end RoundTrip

end Aseos.Policy
