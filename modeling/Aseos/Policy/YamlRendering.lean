import Aseos.Contracts.JsonRoundTrip
import Aseos.Policy.YamlCompleteness

namespace Aseos.Policy

def forbidden : List ℕ := [9, 10, 13, 39, 91, 123]

structure Quoted (s text : JsString) : Prop where
  literal : ∃ body, text = 34 :: (body ++ [34]) ∧ Json.takeString (body ++ [34]) = some (s, [])
  allowed : ∀ c ∈ text, c.val ∉ forbidden
  noPair : opensBlockScalar text = false

structure ValidKey (key : JsString) : Prop where
  grammar : Pattern.mappingKey.test key = true
  safe : key ∉ protectedKeys

section Rendering

variable (numberValue : JsString → JsNumber) (limits : RestrictedYamlLimits)

inductive ScalarText : JsValue → JsString → Prop
  | null : ScalarText .null (js "null")
  | bool (b : Bool) : ScalarText (.bool b) (if b then js "true" else js "false")
  | number {x text} : Json.numberLiteral.test text = true → numberValue text = .finite x →
      ScalarText (.number (.finite x)) text
  | string {s text} : s.wellFormed = true → Quoted s text → ScalarText (.string s) text

-- The indentation and the content of the lines. In a compact item the first line of the mapping
-- has the marker in place of its last two spaces.
inductive Renders : ℕ → List (ℕ × JsString) → Part → Prop
  | sequence {indent lines vs} :
      vs ≠ [] → Renders indent lines (.items vs) → Renders indent lines (.node (Json.arrayOf vs))
  | mapping {indent lines es} :
      es ≠ [] → (es.map Prod.fst).Nodup → Renders indent lines (.entries es) →
      Renders indent lines (.node (.record es))
  | noItems {indent} : Renders indent [] (.items [])
  | expandedItem {indent lines more v vs} :
      Renders (indent + 2) lines (.node v) → Renders indent more (.items vs) →
      Renders indent ((indent, js "-") :: (lines ++ more)) (.items (v :: vs))
  | compactItem {indent content lines more es vs} :
      Renders (indent + 2) ((indent + 2, content) :: lines) (.node (.record es)) →
      Renders indent more (.items vs) →
      Renders indent ((indent, js "- " ++ content) :: (lines ++ more)) (.items (.record es :: vs))
  | scalarItem {indent text more v vs} :
      ScalarText numberValue v text → exceeds text.length limits.maxScalarLength = false →
      Renders indent more (.items vs) →
      Renders indent ((indent, js "- " ++ text) :: more) (.items (v :: vs))
  | noEntries {indent} : Renders indent [] (.entries [])
  | nestedEntry {indent key lines more v es} :
      ValidKey key → Renders (indent + 2) lines (.node v) → Renders indent more (.entries es) →
      Renders indent ((indent, key ++ js ":") :: (lines ++ more)) (.entries ((key, v) :: es))
  | scalarEntry {indent key text more v es} :
      ValidKey key → ScalarText numberValue v text →
      exceeds text.length limits.maxScalarLength = false → Renders indent more (.entries es) →
      Renders indent ((indent, key ++ js ": " ++ text) :: more) (.entries ((key, v) :: es))

end Rendering

section Units

theorem opensBlockScalar_cons (c : CodeUnit) (s : JsString) :
    opensBlockScalar (c :: s) =
      (isColon c && (s.dropWhile CodeUnit.isSpace).head?.any (CodeUnit.isAny "|>") ||
        opensBlockScalar s) := by
  rw [opensBlockScalar, List.tails_cons, List.any_cons]
  rfl

theorem opensBlockScalar_append {s : JsString} (h : ∀ c ∈ s, isColon c = false) (t : JsString) :
    opensBlockScalar (s ++ t) = opensBlockScalar t := by
  induction s with
  | nil => rfl
  | cons c s ih =>
    obtain ⟨hc, hs⟩ := List.forall_mem_cons.mp h
    rw [List.cons_append, opensBlockScalar_cons, hc, ih hs, Bool.false_and, Bool.false_or]

theorem opensBlockScalar_of_no_colon {s : JsString} (h : ∀ c ∈ s, isColon c = false) :
    opensBlockScalar s = false := by
  have := opensBlockScalar_append h []
  rw [List.append_nil] at this
  exact this

theorem opensMapping_of_no_colon {s : JsString} (h : ∀ c ∈ s, isColon c = false) :
    opensMapping s = false := by
  cases s with
  | nil => rfl
  | cons c s =>
    rw [opensMapping, Bool.and_eq_false_iff]
    refine .inr ?_
    cases hhead : (s.dropWhile Pattern.isKeyUnit).head? with
    | none => rfl
    | some d =>
      refine h d (List.mem_cons_of_mem _ ?_)
      exact (List.dropWhile_sublist _).subset (List.mem_of_mem_head? hhead)

theorem isKeyUnit_iff (c : CodeUnit) : Pattern.isKeyUnit c = true ↔
    (65 ≤ c.val ∧ c.val ≤ 90) ∨ (97 ≤ c.val ∧ c.val ≤ 122) ∨ (48 ≤ c.val ∧ c.val ≤ 57) ∨
      c.val = 95 ∨ c.val = 45 := by
  have hchars : js "_-" = [95, 45] := rfl
  simp [Pattern.isKeyUnit, Pattern.isLetter, CodeUnit.isUpper, CodeUnit.isLower, CodeUnit.isDigit,
    CodeUnit.inRange, CodeUnit.isAny, hchars, Fin.ext_iff, or_assoc]

theorem isLetter_iff (c : CodeUnit) : Pattern.isLetter c = true ↔
    (65 ≤ c.val ∧ c.val ≤ 90) ∨ (97 ≤ c.val ∧ c.val ≤ 122) := by
  simp [Pattern.isLetter, CodeUnit.isUpper, CodeUnit.isLower, CodeUnit.inRange]

theorem isColon_iff (c : CodeUnit) : isColon c = true ↔ c.val = 58 := beq_iff_eq

theorem not_isColon_of_isKeyUnit {c : CodeUnit} (h : Pattern.isKeyUnit c = true) :
    isColon c = false := by
  rw [← Bool.not_eq_true, isColon_iff]
  rw [isKeyUnit_iff] at h
  omega

theorem mappingKey_spec {key : JsString} (h : Pattern.mappingKey.test key = true) :
    ∃ c rest, key = c :: rest ∧ Pattern.isLetter c = true ∧
      ∀ d ∈ rest, Pattern.isKeyUnit d = true := by
  have hlang := (Regex.test_iff _ _).mp h
  obtain ⟨first, ⟨c, hc, rfl⟩, rest, hrest, rfl⟩ := Regex.mem_lang_seq.mp hlang
  refine ⟨c, rest, rfl, hc, ?_⟩
  exact Regex.Letters.all_mem (r := .star (.one Pattern.isKeyUnit))
    (P := fun d => Pattern.isKeyUnit d = true) (fun _ hd => hd) hrest

theorem ValidKey.units {key : JsString} (h : ValidKey key) :
    ∀ c ∈ key, Pattern.isKeyUnit c = true := by
  obtain ⟨c, rest, rfl, hc, hrest⟩ := mappingKey_spec h.grammar
  refine List.forall_mem_cons.mpr ⟨?_, hrest⟩
  rw [Pattern.isKeyUnit, hc]
  rfl

end Units

section Scalars

variable {numberValue : JsString → JsNumber} {limits : RestrictedYamlLimits}

structure PlainText (text : JsString) : Prop where
  first : ∃ c rest, text = c :: rest ∧ c.isSpace = false ∧ c.isAny "|>" = false
  allowed : ∀ c ∈ text, c.val ∉ forbidden
  noPair : opensBlockScalar text = false
  noKey : opensMapping text = false

theorem plainText_of_units {text : JsString} (hne : text ≠ [])
    (h : ∀ c ∈ text, c.isSpace = false ∧ c.isAny "|>" = false ∧ c.val ∉ forbidden ∧
      isColon c = false) : PlainText text := by
  obtain ⟨c, rest, rfl⟩ := List.exists_cons_of_ne_nil hne
  obtain ⟨hspace, hbar, -⟩ := h c List.mem_cons_self
  exact ⟨⟨c, rest, rfl, hspace, hbar⟩, fun d hd => (h d hd).2.2.1,
    opensBlockScalar_of_no_colon fun d hd => (h d hd).2.2.2,
    opensMapping_of_no_colon fun d hd => (h d hd).2.2.2⟩

theorem isSpace_eq_false {c : CodeUnit} (h : 33 ≤ c.val) (hsmall : c.val < 128) :
    c.isSpace = false := by
  simp only [CodeUnit.isSpace, Bool.or_eq_false_iff, Bool.and_eq_false_iff, beq_eq_false_iff_ne,
    decide_eq_false_iff_not]
  omega

theorem isBar_eq_false {c : CodeUnit} (h : c.val ≠ 124) (h' : c.val ≠ 62) :
    c.isAny "|>" = false := by
  have hchars : js "|>" = [124, 62] := rfl
  rw [← Bool.not_eq_true, CodeUnit.isAny, List.elem_iff, hchars]
  simp only [List.mem_cons, List.not_mem_nil, or_false, Fin.ext_iff]
  omega

theorem literal_plain {text : JsString} (h : Json.numberLiteral.test text = true) :
    PlainText text := by
  refine plainText_of_units (Json.literal_ne_nil h) fun c hc => ?_
  have hunit := (Json.isNumberUnit_iff c).mp (Json.literal_units h c hc)
  simp only [List.mem_cons, List.not_mem_nil, or_false] at hunit
  refine ⟨isSpace_eq_false (by omega) (by omega), isBar_eq_false (by omega) (by omega), ?_, ?_⟩
  · simp only [forbidden, List.mem_cons, List.not_mem_nil, or_false]
    omega
  · rw [← Bool.not_eq_true, isColon_iff]
    omega

theorem Quoted.plain {s text : JsString} (h : Quoted s text) : PlainText text := by
  obtain ⟨body, rfl, -⟩ := h.literal
  exact ⟨⟨34, _, rfl, by decide, by decide⟩, h.allowed, h.noPair, rfl⟩

theorem ScalarText.plain {v : JsValue} {text : JsString} (h : ScalarText numberValue v text) :
    PlainText text := by
  have hword (word : String) (hunits : (js word).all CodeUnit.isLower = true)
      (hne : js word ≠ []) : PlainText (js word) := by
    refine plainText_of_units hne fun c hc => ?_
    have hunit := List.all_eq_true.mp hunits c hc
    simp only [CodeUnit.isLower, CodeUnit.inRange, Bool.and_eq_true, decide_eq_true_eq] at hunit
    have hlow : 'a'.toNat = 97 := rfl
    have hhigh : 'z'.toNat = 122 := rfl
    refine ⟨isSpace_eq_false (by omega) (by omega), isBar_eq_false (by omega) (by omega), ?_, ?_⟩
    · simp only [forbidden, List.mem_cons, List.not_mem_nil, or_false]
      omega
    · rw [← Bool.not_eq_true, isColon_iff]
      omega
  cases h with
  | null => exact hword "null" (by decide) (by decide)
  | bool b =>
    cases b with
    | true => exact hword "true" (by decide) (by decide)
    | false => exact hword "false" (by decide) (by decide)
  | number hliteral => exact literal_plain hliteral
  | string _ hquoted => exact hquoted.plain

theorem parse_quoted {s text : JsString} (h : Quoted s text) :
    Json.parse numberValue text = some (.string s) := by
  obtain ⟨body, rfl, htake⟩ := h.literal
  have hvalue (fuel : ℕ) :
      Json.parseValue numberValue (fuel + 1) (34 :: (body ++ [34])) = some (.string s, []) := by
    rw [Json.parseValue, Json.skipSpace_cons (by decide)]
    dsimp only
    rw [if_neg (by decide), if_neg (by decide), if_pos (by decide), htake]
    rfl
  rw [Json.parse, hvalue]
  rfl

theorem ScalarText.parsed {v : JsValue} {text : JsString} {line : ℕ}
    (h : ScalarText numberValue v text)
    (hlength : exceeds text.length limits.maxScalarLength = false) :
    parseScalar numberValue limits text line = .ok v := by
  rw [parseScalar, hlength, if_neg (by simp)]
  cases h with
  | null =>
    rw [if_neg (by decide), if_neg (by decide), if_pos rfl]
  | bool b =>
    cases b with
    | true => rfl
    | false => rfl
  | @number x text hliteral hread =>
    have hword (word : String) (hword : Json.numberLiteral.test (js word) = false) :
        text ≠ js word := by
      rintro rfl
      rw [hword] at hliteral
      cases hliteral
    rw [if_neg (hword _ (by decide)), if_neg (hword _ (by decide)), if_neg (hword _ (by decide)),
      if_pos hliteral, hread]
    rfl
  | @string s text _ hquoted =>
    have hparse := @parse_quoted numberValue _ _ hquoted
    obtain ⟨body, rfl, -⟩ := hquoted.literal
    have hliteral : Json.numberLiteral.test (34 :: (body ++ [34])) = false := by
      rw [← Bool.not_eq_true]
      intro htest
      have := Json.literal_units htest 34 List.mem_cons_self
      revert this
      decide
    have hquotes : (startsWith "\"" (34 :: (body ++ [34])) && endsWith "\"" (34 :: (body ++ [34]))) =
        true := by
      rw [Bool.and_eq_true]
      refine ⟨rfl, List.isSuffixOf_iff_suffix.mpr ⟨34 :: body, rfl⟩⟩
    have hword (word : String) (hword : (js word).head? ≠ some 34) :
        34 :: (body ++ [34]) ≠ js word := fun h => hword (h ▸ rfl)
    rw [if_neg (hword "true" (by decide)), if_neg (hword "false" (by decide)),
      if_neg (hword "null" (by decide)), hliteral, if_neg (by simp), if_pos hquotes, hparse]

theorem ScalarText.acceptable {v : JsValue} {text : JsString} (h : ScalarText numberValue v text) :
    Acceptable v := by
  cases h with
  | string hwell => exact acceptable_string.mpr hwell
  | _ => rfl

end Scalars

section Mappings

theorem colon_units : js ":" = [58] := rfl

theorem keyOf_append {key : JsString} (h : ValidKey key) (rest : JsString) :
    keyOf (key ++ 58 :: rest) = key ∧
      (key ++ 58 :: rest).dropWhile (!isColon ·) = 58 :: rest := by
  have hunits : ∀ c ∈ key, (!isColon c) = true := fun c hc => by
    rw [not_isColon_of_isKeyUnit (h.units c hc)]
    rfl
  rw [keyOf, List.takeWhile_append_of_pos hunits, List.dropWhile_append_of_pos hunits]
  simp [isColon]

theorem ValidKey.ne_nil {key : JsString} (h : ValidKey key) : key ≠ [] := by
  obtain ⟨c, rest, rfl, -⟩ := mappingKey_spec h.grammar
  exact List.cons_ne_nil _ _

theorem splitMapping_nested {key : JsString} (h : ValidKey key) (line : ℕ) :
    splitMapping (key ++ js ":") line = .ok (key, []) := by
  obtain ⟨hkey, hdrop⟩ := keyOf_append h []
  rw [colon_units, splitMapping, hdrop]
  simp only [hkey, if_neg h.ne_nil, h.grammar, h.safe, ne_eq, not_true_eq_false, false_and, or_self,
    Bool.true_eq_false, if_false]
  rfl

theorem trimStart_cons {c : CodeUnit} {rest : JsString} (h : c.isSpace = false) :
    JsString.trimStart (c :: rest) = c :: rest := by
  simp [JsString.trimStart, h]

theorem splitMapping_scalar {key text : JsString} (h : ValidKey key) (htext : PlainText text)
    (line : ℕ) : splitMapping (key ++ js ": " ++ text) line = .ok (key, text) := by
  obtain ⟨c, rest, rfl, hspace, -⟩ := htext.first
  have hform : key ++ js ": " ++ c :: rest = key ++ 58 :: 32 :: c :: rest := by
    rw [List.append_assoc]
    rfl
  obtain ⟨hkey, hdrop⟩ := keyOf_append h (32 :: c :: rest)
  have hstart : startsWith " " (32 :: c :: rest) = true := rfl
  have htrim : JsString.trimStart (32 :: c :: rest) = c :: rest := trimStart_cons hspace
  rw [hform, splitMapping, hdrop]
  simp only [hkey, if_neg h.ne_nil, h.grammar, h.safe, hstart, htrim, or_self, and_false,
    Bool.true_eq_false, if_false]

theorem opensMapping_of_split {content key text : JsString} {line : ℕ}
    (h : splitMapping content line = .ok (key, text)) : opensMapping content = true := by
  have hkey := splitMapping_key h
  unfold splitMapping at h
  split at h
  · cases h
  rename_i c rest hdrop
  split at h
  · cases h
  split at h
  · cases h
  rename_i hchecks
  rw [not_or, Bool.not_eq_false] at hchecks
  obtain ⟨first, units, hform, hletter, hunits⟩ := mappingKey_spec hchecks.1
  have hcolon : isColon c = true := by
    have := List.head?_dropWhile_not (p := fun c => !isColon c) (l := content)
    rw [hdrop] at this
    simpa using this
  have hcontent : content = first :: (units ++ c :: rest) := by
    rw [← List.cons_append, ← hform, ← hdrop]
    exact (List.takeWhile_append_dropWhile).symm
  have hstop : Pattern.isKeyUnit c = false := by
    by_contra hunit
    rw [not_isColon_of_isKeyUnit (by simpa using hunit)] at hcolon
    cases hcolon
  rw [hcontent, opensMapping, hletter, List.dropWhile_append_of_pos hunits]
  simp [hstop, hcolon]

end Mappings

section Readings

variable {numberValue : JsString → JsNumber} {limits : RestrictedYamlLimits}

def YamlLine.shown (line : YamlLine) : ℕ × JsString := (line.indent, line.content)

theorem reads_entries {indent : ℕ} {lines : List YamlLine} {es : Entries}
    (h : Reads numberValue limits indent lines (.node (.record es))) :
    es ≠ [] ∧ (es.map Prod.fst).Nodup ∧ Reads numberValue limits indent lines (.entries es) := by
  obtain ⟨es', hes, hkeys, hreads⟩ := reads_record h rfl
  obtain rfl : es = es' := by rw [← entries_record es, hes, entries_record]
  refine ⟨?_, hkeys, hreads⟩
  rintro rfl
  have hlines : lines = [] := by
    cases hreads
    rfl
  have hbegins := h.begins
  rw [hlines] at hbegins
  cases hbegins

theorem reads_compact {indent : ℕ} {line : YamlLine} {content : JsString} {lines more : List YamlLine}
    {es : Entries} {vs : List JsValue} (hindent : line.indent = indent)
    (hcontent : line.content = js "- " ++ content)
    (hmapping : Reads numberValue limits (indent + 2) (⟨indent + 2, content, line.line⟩ :: lines)
      (.node (.record es)))
    (hmore : Reads numberValue limits indent more (.items vs)) :
    Reads numberValue limits indent (line :: (lines ++ more)) (.items (.record es :: vs)) := by
  obtain ⟨-, hkeys, hentries⟩ := reads_entries hmapping
  cases hentries with
  | entry _ _ hsplit hmember htail =>
    exact .compactItem hindent hcontent (opensMapping_of_split hsplit) hsplit hmember htail hkeys hmore

theorem key_starts {key : JsString} (h : ValidKey key) (rest : JsString) :
    startsWith "-" (key ++ rest) = false := by
  obtain ⟨c, units, rfl, hletter, -⟩ := mappingKey_spec h.grammar
  rw [isLetter_iff] at hletter
  have hc : (45 : CodeUnit) ≠ c := by
    rintro rfl
    revert hletter
    decide
  change ((45 == c) && List.isPrefixOf [] (units ++ rest)) = false
  rw [beq_false_of_ne hc, Bool.false_and]

theorem Renders.reads {indent : ℕ} {shown : List (ℕ × JsString)} {part : Part}
    (h : Renders numberValue limits indent shown part) (lines : List YamlLine)
    (hlines : lines.map YamlLine.shown = shown) : Reads numberValue limits indent lines part := by
  induction h generalizing lines with
  | sequence hne _ ih => exact .sequence hne (ih lines hlines)
  | mapping hne hkeys _ ih => exact .mapping hne hkeys (ih lines hlines)
  | noItems =>
    obtain rfl := List.map_eq_nil_iff.mp hlines
    exact .noItems
  | expandedItem _ _ ihv ihvs =>
    obtain ⟨line, following, rfl, hline, hfollowing⟩ := List.map_eq_cons_iff.mp hlines
    obtain ⟨child, more, rfl, hchild, hmore⟩ := List.map_eq_append_iff.mp hfollowing
    obtain ⟨hindent, hcontent⟩ := Prod.mk.inj hline
    exact .nestedItem hindent (.inl hcontent) (ihv child hchild) (ihvs more hmore)
  | compactItem _ _ ihv ihvs =>
    obtain ⟨line, following, rfl, hline, hfollowing⟩ := List.map_eq_cons_iff.mp hlines
    obtain ⟨child, more, rfl, hchild, hmore⟩ := List.map_eq_append_iff.mp hfollowing
    obtain ⟨hindent, hcontent⟩ := Prod.mk.inj hline
    refine reads_compact hindent hcontent (ihv (⟨_, _, line.line⟩ :: child) ?_) (ihvs more hmore)
    rw [List.map_cons, hchild]
    rfl
  | scalarItem htext hlength _ ihvs =>
    obtain ⟨line, more, rfl, hline, hmore⟩ := List.map_eq_cons_iff.mp hlines
    obtain ⟨hindent, hcontent⟩ := Prod.mk.inj hline
    obtain ⟨c, rest, htextEq, -⟩ := htext.plain.first
    exact .scalarItem hindent hcontent (htextEq ▸ List.cons_ne_nil c rest) htext.plain.noKey
      (htext.parsed hlength) (ihvs more hmore)
  | noEntries =>
    obtain rfl := List.map_eq_nil_iff.mp hlines
    exact .noEntries
  | nestedEntry hkey _ _ ihv ihes =>
    obtain ⟨line, following, rfl, hline, hfollowing⟩ := List.map_eq_cons_iff.mp hlines
    obtain ⟨child, more, rfl, hchild, hmore⟩ := List.map_eq_append_iff.mp hfollowing
    obtain ⟨hindent, hcontent⟩ := Prod.mk.inj hline
    refine .entry hindent ?_ ?_ (.child (ihv child hchild)) (ihes more hmore)
    · rw [hcontent]
      exact key_starts hkey _
    · rw [hcontent]
      exact splitMapping_nested hkey _
  | scalarEntry hkey htext hlength _ ihes =>
    obtain ⟨line, more, rfl, hline, hmore⟩ := List.map_eq_cons_iff.mp hlines
    obtain ⟨hindent, hcontent⟩ := Prod.mk.inj hline
    obtain ⟨c, rest, htextEq, -⟩ := htext.plain.first
    refine .entry hindent ?_ ?_ (.scalar (htextEq ▸ List.cons_ne_nil c rest)
      (@ScalarText.parsed _ _ _ _ line.line htext hlength)) (ihes more hmore)
    · rw [hcontent, List.append_assoc]
      exact key_starts hkey _
    · rw [hcontent]
      exact splitMapping_scalar hkey htext.plain _

end Readings

section Lines

variable {numberValue : JsString → JsNumber} {limits : RestrictedYamlLimits}

structure PlainLine (indent : ℕ) (content : JsString) : Prop where
  even : indent % 2 = 0
  first : ∃ c rest, content = c :: rest ∧ c.isSpace = false ∧ c.val ≠ 35
  allowed : ∀ c ∈ content, c.val ∉ forbidden
  noDirective : opensDirective content = false
  noPair : opensBlockScalar content = false

theorem opensDirective_of_letter {c : CodeUnit} (h : Pattern.isLetter c = true) (rest : JsString) :
    opensDirective (c :: rest) = false := by
  rw [isLetter_iff] at h
  have hother (d : CodeUnit) (hd : d.val < 65) : (d == c) = false :=
    beq_false_of_ne fun hdc => by subst hdc; omega
  change ((45 == c && _) || ((46 == c && _) || ((37 == c && _) || ((33 == c && _) ||
    ((38 == c && _) || ((42 == c && _) || ((60 == c && _) || false))))))) = false
  simp only [hother 45 (by decide), hother 46 (by decide), hother 37 (by decide),
    hother 33 (by decide), hother 38 (by decide), hother 42 (by decide), hother 60 (by decide),
    Bool.false_and, Bool.or_self]

theorem marker_units : js "- " = [45, 32] := rfl

theorem separator_units : js ": " = [58, 32] := rfl

theorem opensBlockScalar_marker (content : JsString) :
    opensBlockScalar (js "- " ++ content) = opensBlockScalar content :=
  opensBlockScalar_append (by simp [marker_units, isColon]) content

theorem plainLine_marker {indent : ℕ} {content : JsString} (heven : indent % 2 = 0)
    (hallowed : ∀ c ∈ content, c.val ∉ forbidden) (hpair : opensBlockScalar content = false) :
    PlainLine indent (js "- " ++ content) where
  even := heven
  first := ⟨45, 32 :: content, rfl, by decide, by decide⟩
  allowed := List.forall_mem_append.mpr ⟨by simp [marker_units, forbidden], hallowed⟩
  noDirective := rfl
  noPair := (opensBlockScalar_marker content).trans hpair

theorem key_allowed {key : JsString} (h : ValidKey key) : ∀ c ∈ key, c.val ∉ forbidden := by
  intro c hc
  have hunit := (isKeyUnit_iff c).mp (h.units c hc)
  simp only [forbidden, List.mem_cons, List.not_mem_nil, or_false]
  omega

theorem plainLine_key {indent : ℕ} {key rest : JsString} (heven : indent % 2 = 0)
    (hkey : ValidKey key) (hallowed : ∀ c ∈ rest, c.val ∉ forbidden)
    (hpair : opensBlockScalar rest = false) : PlainLine indent (key ++ rest) := by
  have hcolons : ∀ c ∈ key, isColon c = false := fun c hc => not_isColon_of_isKeyUnit (hkey.units c hc)
  have hpairs := opensBlockScalar_append hcolons rest
  have hunits := List.forall_mem_append.mpr ⟨key_allowed hkey, hallowed⟩
  obtain ⟨c, units, rfl, hletter, -⟩ := mappingKey_spec hkey.grammar
  refine ⟨heven, ⟨c, units ++ rest, rfl, ?_, ?_⟩, hunits, opensDirective_of_letter hletter _, ?_⟩
  · rw [isLetter_iff] at hletter
    exact isSpace_eq_false (by omega) (by omega)
  · rw [isLetter_iff] at hletter
    omega
  · exact hpairs.trans hpair

theorem opensBlockScalar_value {text : JsString} (h : PlainText text) :
    opensBlockScalar (js ": " ++ text) = false := by
  obtain ⟨c, rest, rfl, hspace, hbar⟩ := h.first
  have hdrop : (32 :: c :: rest).dropWhile CodeUnit.isSpace = c :: rest := by
    rw [List.dropWhile_cons_of_pos (by decide), List.dropWhile_cons_of_neg (by simp [hspace])]
  change opensBlockScalar (58 :: 32 :: c :: rest) = false
  rw [opensBlockScalar_cons, opensBlockScalar_cons 32, hdrop, h.noPair]
  simp [hbar, isColon]

theorem Renders.plain {indent : ℕ} {shown : List (ℕ × JsString)} {part : Part}
    (h : Renders numberValue limits indent shown part) (heven : indent % 2 = 0) :
    ∀ line ∈ shown, PlainLine line.1 line.2 := by
  induction h with
  | sequence _ _ ih => exact ih heven
  | mapping _ _ _ ih => exact ih heven
  | noItems => nofun
  | expandedItem _ _ ihv ihvs =>
    refine List.forall_mem_cons.mpr ⟨?_, List.forall_mem_append.mpr ⟨ihv (by omega), ihvs heven⟩⟩
    refine ⟨heven, ⟨45, [], rfl, by decide, by decide⟩, ?_, rfl, rfl⟩
    change ∀ c ∈ ([45] : JsString), c.val ∉ forbidden
    simp [forbidden]
  | compactItem _ _ ihv ihvs =>
    obtain ⟨hfirst, hlines⟩ := List.forall_mem_cons.mp (ihv (by omega))
    refine List.forall_mem_cons.mpr ⟨?_, List.forall_mem_append.mpr ⟨hlines, ihvs heven⟩⟩
    exact plainLine_marker heven hfirst.allowed hfirst.noPair
  | scalarItem htext _ _ ihvs =>
    refine List.forall_mem_cons.mpr ⟨?_, ihvs heven⟩
    exact plainLine_marker heven htext.plain.allowed htext.plain.noPair
  | noEntries => nofun
  | nestedEntry hkey _ _ ihv ihes =>
    refine List.forall_mem_cons.mpr ⟨?_, List.forall_mem_append.mpr ⟨ihv (by omega), ihes heven⟩⟩
    exact plainLine_key heven hkey (by simp [colon_units, forbidden]) rfl
  | scalarEntry hkey htext _ _ ihes =>
    refine List.forall_mem_cons.mpr ⟨?_, ihes heven⟩
    rw [List.append_assoc]
    refine plainLine_key heven hkey ?_ (opensBlockScalar_value htext.plain)
    exact List.forall_mem_append.mpr ⟨by simp [separator_units, forbidden], htext.plain.allowed⟩

theorem Renders.acceptable {indent : ℕ} {shown : List (ℕ × JsString)} {part : Part}
    (h : Renders numberValue limits indent shown part) :
    match part with
    | .node v | .member _ v => Acceptable v
    | .items vs => ∀ v ∈ vs, Acceptable v
    | .entries es => ∀ e ∈ es, AcceptableMember (Field.own e.1, e.2) := by
  have hmember {key : JsString} {v : JsValue} (hkey : ValidKey key) (hv : Acceptable v) :
      AcceptableMember (Field.own key, v) := by
    refine ⟨⟨key, rfl, hkey.safe, JsString.IsAscii.wellFormed fun c hc => ?_⟩, hv⟩
    have hunit := (isKeyUnit_iff c).mp (hkey.units c hc)
    omega
  induction h with
  | sequence _ _ ih =>
    refine acceptable_array.mpr fun s hs _ => ?_
    obtain ⟨v, hv, rfl⟩ := List.mem_map.mp hs
    exact ih v hv
  | mapping _ _ _ ih =>
    refine acceptable_object.mpr ⟨rfl, fun p hp => ?_⟩
    obtain ⟨e, he, rfl⟩ := List.mem_map.mp hp
    exact ih e he
  | noItems => nofun
  | expandedItem _ _ ihv ihvs => exact List.forall_mem_cons.mpr ⟨ihv, ihvs⟩
  | compactItem _ _ ihv ihvs => exact List.forall_mem_cons.mpr ⟨ihv, ihvs⟩
  | scalarItem htext _ _ ihvs => exact List.forall_mem_cons.mpr ⟨htext.acceptable, ihvs⟩
  | noEntries => nofun
  | nestedEntry hkey _ _ ihv ihes => exact List.forall_mem_cons.mpr ⟨hmember hkey ihv, ihes⟩
  | scalarEntry hkey htext _ _ ihes =>
    exact List.forall_mem_cons.mpr ⟨hmember hkey htext.acceptable, ihes⟩

end Lines

end Aseos.Policy
