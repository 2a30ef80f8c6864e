import Aseos.Policy.Acceptance
import Aseos.Policy.YamlGrammar

namespace Aseos.Policy

section Completeness

variable {numberValue : JsString → JsNumber} {limits : RestrictedYamlLimits}

theorem exceeds_mono {m n : ℕ} {limit : JsNumber} (h : exceeds n limit = false) (hmn : m ≤ n) :
    exceeds m limit = false := by
  cases limit with
  | finite x =>
    rw [exceeds, decide_eq_false_iff_not, not_lt] at h ⊢
    exact le_trans (by exact_mod_cast hmn) h
  | _ => exact h

def Stops (indent : ℕ) (rest : List YamlLine) : Prop := ∀ line ∈ rest.head?, line.indent < indent

theorem Stops.mono {indent indent' : ℕ} {rest : List YamlLine} (h : Stops indent rest)
    (hle : indent ≤ indent') : Stops indent' rest :=
  fun line hline => lt_of_lt_of_le (h line hline) hle

theorem stops_append {indent : ℕ} {lines rest : List YamlLine}
    (hlines : ∀ line ∈ lines.head?, line.indent = indent) (hrest : Stops indent rest) :
    Stops (indent + 2) (lines ++ rest) := by
  cases lines with
  | nil => exact hrest.mono (by omega)
  | cons line lines =>
    intro first hfirst
    obtain rfl := Option.some.inj hfirst
    have := hlines line rfl
    omega

structure Fits (limits : RestrictedYamlLimits) (indent depth nodes : ℕ) (lines : List YamlLine) :
    Prop where
  level : indent = 2 * depth
  depths : ∀ line ∈ lines, exceeds (line.indent / 2) limits.maxDepth = false
  nodes : exceeds (nodes + lines.length) limits.maxNodes = false

theorem Fits.tail {indent depth nodes : ℕ} {line : YamlLine} {lines : List YamlLine}
    (h : Fits limits indent depth nodes (line :: lines)) :
    Fits limits indent depth (nodes + 1) lines :=
  ⟨h.level, fun l hl => h.depths l (List.mem_cons_of_mem _ hl),
    exceeds_mono h.nodes (by rw [List.length_cons]; omega)⟩

theorem Fits.left {indent depth nodes : ℕ} {lines more : List YamlLine}
    (h : Fits limits indent depth nodes (lines ++ more)) : Fits limits indent depth nodes lines :=
  ⟨h.level, fun l hl => h.depths l (List.mem_append_left _ hl),
    exceeds_mono h.nodes (by rw [List.length_append]; omega)⟩

theorem Fits.right {indent depth nodes : ℕ} {lines more : List YamlLine}
    (h : Fits limits indent depth nodes (lines ++ more)) :
    Fits limits indent depth (nodes + lines.length) more :=
  ⟨h.level, fun l hl => h.depths l (List.mem_append_right _ hl),
    exceeds_mono h.nodes (by rw [List.length_append]; omega)⟩

theorem Fits.deeper {indent depth nodes : ℕ} {lines : List YamlLine}
    (h : Fits limits indent depth nodes lines) :
    Fits limits (indent + 2) (depth + 1) nodes lines :=
  ⟨by rw [h.level]; omega, h.depths, h.nodes⟩

theorem Fits.depth {indent depth nodes : ℕ} {line : YamlLine} {lines : List YamlLine}
    (h : Fits limits indent depth nodes (line :: lines)) (hindent : line.indent = indent) :
    exceeds depth limits.maxDepth = false := by
  have hdepth := h.depths line List.mem_cons_self
  rw [hindent, h.level] at hdepth
  simpa using hdepth

def Part.Begins (indent : ℕ) (lines : List YamlLine) : Part → Prop
  | .node _ => indentOf lines = some indent
  | .member text _ => text = [] → indentOf lines = some (indent + 2)
  | .items vs => (∀ line ∈ lines.head?, line.indent = indent ∧ startsWith "-" line.content = true) ∧
      (vs ≠ [] → lines ≠ [])
  | .entries es =>
      (∀ line ∈ lines.head?, line.indent = indent ∧ startsWith "-" line.content = false) ∧
        (es ≠ [] → lines ≠ [])

theorem indentOf_of_head {indent : ℕ} {lines : List YamlLine} {p : YamlLine → Prop}
    (h : ∀ line ∈ lines.head?, line.indent = indent ∧ p line) (hne : lines ≠ []) :
    indentOf lines = some indent := by
  obtain ⟨line, lines, rfl⟩ := List.exists_cons_of_ne_nil hne
  exact congrArg some (h line rfl).1

theorem Reads.begins {indent : ℕ} {lines : List YamlLine} {part : Part}
    (h : Reads numberValue limits indent lines part) : part.Begins indent lines := by
  induction h with
  | sequence hne _ ih => exact indentOf_of_head ih.1 (ih.2 hne)
  | mapping hne _ _ ih => exact indentOf_of_head ih.1 (ih.2 hne)
  | child _ ih => exact fun _ => ih
  | scalar hne => exact fun hnil => absurd hnil hne
  | noItems => exact ⟨nofun, fun h => absurd rfl h⟩
  | nestedItem hindent hmarker =>
    refine ⟨fun line hline => ?_, fun _ => List.cons_ne_nil _ _⟩
    obtain rfl := Option.some.inj hline
    obtain hcontent | hcontent := hmarker
    · exact ⟨hindent, hcontent ▸ rfl⟩
    · exact ⟨hindent, hcontent ▸ rfl⟩
  | compactItem hindent hcontent =>
    refine ⟨fun line hline => ?_, fun _ => List.cons_ne_nil _ _⟩
    obtain rfl := Option.some.inj hline
    exact ⟨hindent, hcontent ▸ rfl⟩
  | scalarItem hindent hcontent =>
    refine ⟨fun line hline => ?_, fun _ => List.cons_ne_nil _ _⟩
    obtain rfl := Option.some.inj hline
    exact ⟨hindent, hcontent ▸ rfl⟩
  | noEntries => exact ⟨nofun, fun h => absurd rfl h⟩
  | entry hindent hdash =>
    refine ⟨fun line hline => ?_, fun _ => List.cons_ne_nil _ _⟩
    obtain rfl := Option.some.inj hline
    exact ⟨hindent, hdash⟩

theorem parseScalar_agrees (text : JsString) (line line' : ℕ) :
    Agrees Eq (parseScalar numberValue limits text line)
      (parseScalar numberValue limits text line') := by
  unfold parseScalar
  refine .ite Iff.rfl (.error _ _) (.ite Iff.rfl (.ok rfl) (.ite Iff.rfl (.ok rfl)
    (.ite Iff.rfl (.ok rfl) (.ite Iff.rfl (.ite Iff.rfl (.ok rfl) (.error _ _))
      (.ite Iff.rfl ?_ (.error _ _))))))
  cases Json.parse numberValue text with
  | none => exact .error _ _
  | some v =>
    cases v with
    | string s => exact .ok rfl
    | _ => exact .error _ _

theorem parseScalar_line {text : JsString} {line line' : ℕ} {v : JsValue}
    (h : parseScalar numberValue limits text line = .ok v) :
    parseScalar numberValue limits text line' = .ok v := by
  have hagrees := @parseScalar_agrees numberValue limits text line line'
  rw [h] at hagrees
  obtain ⟨_, hok, rfl⟩ := hagrees.ok_left
  exact hok

variable (numberValue limits) in
def Part.Parsed (indent : ℕ) (lines : List YamlLine) : Part → Prop
  | .node v => ∀ rest depth nodes fuel, Fits limits indent depth nodes lines → Stops indent rest →
      2 * lines.length + 2 ≤ fuel →
      parseYamlNode numberValue limits fuel (lines ++ rest) indent depth nodes =
        .ok ⟨v, rest, nodes + lines.length⟩
  | .member text v => ∀ line rest depth nodes fuel,
      Fits limits (indent + 2) (depth + 1) nodes lines → Stops (indent + 2) rest →
      2 * lines.length + 2 ≤ fuel →
      parseMember numberValue limits (parseYamlNode numberValue limits fuel) text line
        (lines ++ rest) indent depth nodes = .ok ⟨v, rest, nodes + lines.length⟩
  | .items vs => ∀ rest depth nodes fuel, Fits limits indent depth nodes lines → Stops indent rest →
      2 * lines.length + 1 ≤ fuel →
      parseItems numberValue limits fuel (lines ++ rest) indent depth nodes =
        .ok ⟨vs, rest, nodes + lines.length⟩
  | .entries es => ∀ object rest depth nodes fuel, ((object ++ es).map Prod.fst).Nodup →
      Fits limits indent depth nodes lines → Stops indent rest → 2 * lines.length + 1 ≤ fuel →
      parseEntries numberValue limits fuel object (lines ++ rest) indent depth nodes =
        .ok ⟨object ++ es, rest, nodes + lines.length⟩

theorem parseItems_stop {fuel indent depth nodes : ℕ} {rest : List YamlLine}
    (hstop : Stops indent rest) (hfuel : 1 ≤ fuel) :
    parseItems numberValue limits fuel rest indent depth nodes = .ok ⟨[], rest, nodes⟩ := by
  obtain ⟨fuel, rfl⟩ := Nat.exists_eq_add_of_le' hfuel
  cases rest with
  | nil => rfl
  | cons line rest =>
    have hline : line.indent < indent := hstop line rfl
    rw [parseItems, if_pos (.inl (by omega))]

theorem parseEntries_stop {fuel indent depth nodes : ℕ} {object : Entries} {rest : List YamlLine}
    (hstop : Stops indent rest) (hfuel : 1 ≤ fuel) :
    parseEntries numberValue limits fuel object rest indent depth nodes =
      .ok ⟨object, rest, nodes⟩ := by
  obtain ⟨fuel, rfl⟩ := Nat.exists_eq_add_of_le' hfuel
  cases rest with
  | nil => rfl
  | cons line rest =>
    have hline : line.indent < indent := hstop line rfl
    rw [parseEntries, if_pos (.inl (by omega))]

theorem parsed_item {indent depth nodes fuel : ℕ} {line : YamlLine}
    {lines more rest : List YamlLine} {v : JsValue} {vs : List JsValue}
    (hindent : line.indent = indent) (hdash : startsWith "-" line.content = true)
    (hmarker : line.content = js "-" ∨ startsWith "- " line.content = true)
    (hfits : Fits limits indent depth nodes (line :: (lines ++ more))) (hstop : Stops indent rest)
    (hfuel : 2 * (line :: (lines ++ more)).length + 1 ≤ fuel)
    (hitem : ∀ fuel, 2 * lines.length + 2 ≤ fuel →
      parseItem numberValue limits (parseYamlNode numberValue limits fuel) (line.content.drop 2)
        line.line (lines ++ (more ++ rest)) indent depth (nodes + 1) =
          .ok ⟨v, more ++ rest, nodes + 1 + lines.length⟩)
    (hmore : Part.Parsed numberValue limits indent more (.items vs)) :
    parseItems numberValue limits fuel (line :: (lines ++ more) ++ rest) indent depth nodes =
      .ok ⟨v :: vs, rest, nodes + (line :: (lines ++ more)).length⟩ := by
  obtain ⟨fuel, rfl⟩ := Nat.exists_eq_add_of_le' (Nat.one_le_of_lt hfuel)
  rw [List.length_cons, List.length_append] at hfuel ⊢
  have hroom : exceeds (nodes + 1) limits.maxNodes = false :=
    exceeds_mono hfits.nodes (by rw [List.length_cons]; omega)
  have hcontent : ¬ (line.content ≠ js "-" ∧ startsWith "- " line.content = false) := by
    rintro ⟨hne, hspace⟩
    obtain hdash | hdash := hmarker
    · exact hne hdash
    · rw [hdash] at hspace
      cases hspace
  rw [List.cons_append, parseItems, if_neg (by simp [hindent, hdash]), if_neg hcontent, hroom,
    List.append_assoc, hitem fuel (by omega)]
  have hitems : parseItems numberValue limits fuel (more ++ rest) indent depth
      (nodes + 1 + lines.length) = .ok ⟨vs, rest, nodes + (lines.length + more.length + 1)⟩ := by
    rw [hmore rest depth _ fuel hfits.tail.right hstop (by omega)]
    congr 2
    omega
  exact Except.bind_eq_ok.mpr ⟨_, rfl, Except.bind_eq_ok.mpr ⟨_, hitems, rfl⟩⟩

theorem stops_items {indent : ℕ} {lines rest : List YamlLine} {vs : List JsValue}
    (h : Reads numberValue limits indent lines (.items vs)) (hrest : Stops indent rest) :
    Stops (indent + 2) (lines ++ rest) :=
  stops_append (fun line hline => (h.begins.1 line hline).1) hrest

theorem stops_entries {indent : ℕ} {lines rest : List YamlLine} {es : Entries}
    (h : Reads numberValue limits indent lines (.entries es)) (hrest : Stops indent rest) :
    Stops (indent + 2) (lines ++ rest) :=
  stops_append (fun line hline => (h.begins.1 line hline).1) hrest

theorem indentOf_append {indent : ℕ} {lines : List YamlLine} (h : indentOf lines = some indent)
    (rest : List YamlLine) : indentOf (lines ++ rest) = some indent := by
  cases lines with
  | nil => cases h
  | cons line lines => exact h

theorem head_append {lines rest : List YamlLine} (hne : lines ≠ []) {p : YamlLine → Bool} {b : Bool}
    (h : ∀ line ∈ lines.head?, p line = b) : (lines ++ rest).head?.any p = b := by
  obtain ⟨line, lines, rfl⟩ := List.exists_cons_of_ne_nil hne
  exact h line rfl

theorem parsed_mapping {indent depth nodes fuel : ℕ} {lines rest : List YamlLine} {es : Entries}
    (hreads : Reads numberValue limits indent lines (.entries es)) (hne : lines ≠ [])
    (hparsed : Part.Parsed numberValue limits indent lines (.entries es))
    (hkeys : (es.map Prod.fst).Nodup) (hfits : Fits limits indent depth nodes lines)
    (hstop : Stops indent rest) (hfuel : 2 * lines.length + 2 ≤ fuel) :
    parseYamlNode numberValue limits fuel (lines ++ rest) indent depth nodes =
      .ok ⟨.record es, rest, nodes + lines.length⟩ := by
  obtain ⟨fuel, rfl⟩ := Nat.exists_eq_add_of_le' (Nat.one_le_of_lt hfuel)
  have hhead := hreads.begins.1
  have hindent := indentOf_append (indentOf_of_head hhead hne) rest
  have hdash := @head_append lines rest hne (fun line => startsWith "-" line.content) false
    (fun line hline => (hhead line hline).2)
  have hdepth : exceeds depth limits.maxDepth = false := by
    obtain ⟨line, lines, rfl⟩ := List.exists_cons_of_ne_nil hne
    exact hfits.depth (hhead line rfl).1
  have hentries := hparsed [] rest depth nodes fuel hkeys hfits hstop (by omega)
  rw [parseYamlNode, hdepth, hindent, hdash, hentries]
  rw [if_neg (by simp), if_neg (by simp), if_neg (by simp)]
  rfl

theorem parsed_sequence {indent depth nodes fuel : ℕ} {lines rest : List YamlLine}
    {vs : List JsValue} (hreads : Reads numberValue limits indent lines (.items vs))
    (hne : lines ≠ []) (hparsed : Part.Parsed numberValue limits indent lines (.items vs))
    (hfits : Fits limits indent depth nodes lines)
    (hstop : Stops indent rest) (hfuel : 2 * lines.length + 2 ≤ fuel) :
    parseYamlNode numberValue limits fuel (lines ++ rest) indent depth nodes =
      .ok ⟨Json.arrayOf vs, rest, nodes + lines.length⟩ := by
  obtain ⟨fuel, rfl⟩ := Nat.exists_eq_add_of_le' (Nat.one_le_of_lt hfuel)
  have hhead := hreads.begins.1
  have hindent := indentOf_append (indentOf_of_head hhead hne) rest
  have hdash := @head_append lines rest hne (fun line => startsWith "-" line.content) true
    (fun line hline => (hhead line hline).2)
  have hdepth : exceeds depth limits.maxDepth = false := by
    obtain ⟨line, lines, rfl⟩ := List.exists_cons_of_ne_nil hne
    exact hfits.depth (hhead line rfl).1
  rw [parseYamlNode, hdepth, hindent, hdash, hparsed rest depth nodes fuel hfits hstop (by omega)]
  rw [if_neg (by simp), if_neg (by simp), if_pos rfl]
  rfl

theorem parsed_tail {indent depth nodes fuel line : ℕ} {tail rest : List YamlLine} {key : JsString}
    {first : ParseResult JsValue} {es : Entries}
    (hreads : Reads numberValue limits indent tail (.entries es))
    (hparsed : Part.Parsed numberValue limits indent tail (.entries es))
    (hkeys : (key :: es.map Prod.fst).Nodup) (hfits : Fits limits indent depth nodes tail)
    (hstop : Stops indent rest) (hfuel : 2 * tail.length + 2 ≤ fuel)
    (hnext : first.next = tail ++ rest) (hnodes : first.nodes = nodes) :
    (if continuesMapping first.next indent then do
      let tail ← parseYamlNode numberValue limits fuel first.next indent depth first.nodes
      match tail.value.isRecord with
      | none => yamlFailure .INVALID_YAML line "Invalid sequence mapping"
      | some props =>
          let object ← mergeTail line [(key, first.value)] (Props.entries props)
          return ⟨.record object, tail.next, tail.nodes⟩
    else return ⟨.record [(key, first.value)], first.next, first.nodes⟩ :
      Except PolicyFailure (ParseResult JsValue)) =
      .ok ⟨.record ((key, first.value) :: es), rest, nodes + tail.length⟩ := by
  obtain ⟨hhead, hne⟩ := hreads.begins
  rw [hnext, hnodes]
  cases tail with
  | nil =>
    have hnil : es = [] := by
      by_contra hes
      exact hne hes rfl
    have hstops : continuesMapping ([] ++ rest) indent = false := by
      cases rest with
      | nil => rfl
      | cons line rest =>
        have := hstop line rfl
        simp only [List.nil_append, continuesMapping, List.head?_cons, Option.any_some,
          Bool.and_eq_false_iff, decide_eq_false_iff_not]
        exact .inl (by omega)
    rw [hstops, hnil]
    rfl
  | cons line' tail =>
    obtain ⟨hindent, hdash⟩ := hhead line' rfl
    have hcontinues : continuesMapping (line' :: tail ++ rest) indent = true := by
      simp [continuesMapping, hindent, hdash]
    have htail := parsed_mapping hreads (List.cons_ne_nil _ _) hparsed (List.nodup_cons.mp hkeys).2
      hfits hstop hfuel
    rw [hcontinues]
    refine Except.bind_eq_ok.mpr ⟨_, htail, ?_⟩
    have hmerge : mergeTail line [(key, first.value)] es = .ok ((key, first.value) :: es) :=
      (mergeTail_eq_ok (by simp)).mpr ⟨rfl, hkeys⟩
    simp only [JsValue.isRecord, JsValue.record, entries_record, hmerge]
    rfl

theorem drop_marker {content text : JsString} (h : content = js "- " ++ text) :
    content.drop 2 = text := by
  rw [h]
  rfl

theorem marker_cases {content text : JsString} (h : content = js "- " ++ text) :
    startsWith "-" content = true ∧ (content = js "-" ∨ startsWith "- " content = true) := by
  rw [h]
  exact ⟨rfl, .inr rfl⟩

theorem parsed_child {indent : ℕ} {lines : List YamlLine} {v : JsValue}
    (hreads : Reads numberValue limits (indent + 2) lines (.node v))
    (ih : Part.Parsed numberValue limits (indent + 2) lines (.node v)) :
    Part.Parsed numberValue limits indent lines (.member [] v) := by
  intro line rest depth nodes fuel hfits hstop hfuel
  rw [parseMember, if_pos rfl, indentOf_append hreads.begins rest, if_neg (by simp)]
  exact ih rest (depth + 1) nodes fuel hfits hstop hfuel

theorem parsed_scalar {indent line : ℕ} {text : JsString} {v : JsValue} (hne : text ≠ [])
    (hvalue : parseScalar numberValue limits text line = .ok v) :
    Part.Parsed numberValue limits indent [] (.member text v) := by
  intro line' rest depth nodes fuel _ _ _
  rw [parseMember, if_neg hne, parseScalar_line hvalue]
  rfl

theorem parsed_nestedItem {indent : ℕ} {line : YamlLine} {lines more : List YamlLine} {v : JsValue}
    {vs : List JsValue} (hindent : line.indent = indent)
    (hmarker : line.content = js "-" ∨ line.content = js "- ")
    (hreads : Reads numberValue limits (indent + 2) lines (.node v))
    (hmore : Reads numberValue limits indent more (.items vs))
    (ihv : Part.Parsed numberValue limits (indent + 2) lines (.node v))
    (ihvs : Part.Parsed numberValue limits indent more (.items vs)) :
    Part.Parsed numberValue limits indent (line :: (lines ++ more)) (.items (v :: vs)) := by
  intro rest depth nodes fuel hfits hstop hfuel
  have hdash : startsWith "-" line.content = true := by
    obtain hcontent | hcontent := hmarker
    · exact hcontent ▸ rfl
    · exact hcontent ▸ rfl
  have hspace : line.content = js "-" ∨ startsWith "- " line.content = true :=
    hmarker.imp_right fun hcontent => by rw [hcontent]; rfl
  have hdrop : line.content.drop 2 = [] := by
    obtain hcontent | hcontent := hmarker
    · exact hcontent ▸ rfl
    · exact hcontent ▸ rfl
  refine parsed_item hindent hdash hspace hfits hstop hfuel (fun fuel hfuel => ?_) ihvs
  rw [hdrop, parseItem, if_pos rfl, indentOf_append hreads.begins, if_neg (by simp)]
  exact ihv _ (depth + 1) (nodes + 1) fuel hfits.tail.left.deeper (stops_items hmore hstop) hfuel

theorem parsed_compactItem {indent : ℕ} {line : YamlLine} {content key text : JsString}
    {lines tail more : List YamlLine} {v : JsValue} {es : Entries} {vs : List JsValue}
    (hindent : line.indent = indent) (hcontent : line.content = js "- " ++ content)
    (hopens : opensMapping content = true)
    (hkey : splitMapping content line.line = .ok (key, text))
    (htail : Reads numberValue limits (indent + 2) tail (.entries es))
    (hkeys : (key :: es.map Prod.fst).Nodup) (hmore : Reads numberValue limits indent more (.items vs))
    (ihv : Part.Parsed numberValue limits (indent + 2) lines (.member text v))
    (ihes : Part.Parsed numberValue limits (indent + 2) tail (.entries es))
    (ihvs : Part.Parsed numberValue limits indent more (.items vs)) :
    Part.Parsed numberValue limits indent (line :: (lines ++ tail ++ more))
      (.items (.record ((key, v) :: es) :: vs)) := by
  intro rest depth nodes fuel hfits hstop hfuel
  obtain ⟨hdash, hspace⟩ := marker_cases hcontent
  refine parsed_item hindent hdash hspace hfits hstop hfuel (fun fuel hfuel => ?_) ihvs
  rw [List.length_append] at hfuel
  have hcontentNe : content ≠ [] := by
    rintro rfl
    cases hopens
  have hitem := hfits.tail.left
  have hstopMore := stops_items hmore hstop
  have hfirst := ihv line.line (tail ++ (more ++ rest)) (depth + 1) (nodes + 1) fuel
    hitem.left.deeper.deeper (stops_entries htail hstopMore) (by omega)
  rw [drop_marker hcontent, parseItem, if_neg hcontentNe, if_pos hopens, List.append_assoc]
  refine Except.bind_eq_ok.mpr ⟨_, hkey, Except.bind_eq_ok.mpr ⟨_, hfirst, ?_⟩⟩
  refine (parsed_tail htail ihes hkeys hitem.right.deeper hstopMore (by omega) rfl rfl).trans ?_
  simp only [List.length_append, Nat.add_assoc]

theorem parsed_scalarItem {indent : ℕ} {line : YamlLine} {text : JsString} {more : List YamlLine}
    {v : JsValue} {vs : List JsValue} (hindent : line.indent = indent)
    (hcontent : line.content = js "- " ++ text) (hne : text ≠ []) (hopens : opensMapping text = false)
    (hvalue : parseScalar numberValue limits text line.line = .ok v)
    (ihvs : Part.Parsed numberValue limits indent more (.items vs)) :
    Part.Parsed numberValue limits indent (line :: more) (.items (v :: vs)) := by
  intro rest depth nodes fuel hfits hstop hfuel
  obtain ⟨hdash, hspace⟩ := marker_cases hcontent
  refine @parsed_item _ _ _ _ _ _ _ [] _ _ _ _ hindent hdash hspace hfits hstop hfuel
    (fun fuel hfuel => ?_) ihvs
  rw [drop_marker hcontent, parseItem, if_neg hne, hopens, if_neg (by simp), hvalue]
  rfl

theorem parsed_entry {indent : ℕ} {line : YamlLine} {key text : JsString}
    {lines more : List YamlLine} {v : JsValue} {es : Entries} (hindent : line.indent = indent)
    (hdash : startsWith "-" line.content = false)
    (hkey : splitMapping line.content line.line = .ok (key, text))
    (hmore : Reads numberValue limits indent more (.entries es))
    (ihv : Part.Parsed numberValue limits indent lines (.member text v))
    (ihes : Part.Parsed numberValue limits indent more (.entries es)) :
    Part.Parsed numberValue limits indent (line :: (lines ++ more)) (.entries ((key, v) :: es)) := by
  intro object rest depth nodes fuel hkeys hfits hstop hfuel
  obtain ⟨fuel, rfl⟩ := Nat.exists_eq_add_of_le' (Nat.one_le_of_lt hfuel)
  rw [List.length_cons, List.length_append] at hfuel
  have happend : object ++ (key, v) :: es = object ++ [(key, v)] ++ es := by simp
  have hfresh : hasKey object key = false := by
    rw [← Bool.not_eq_true, hasKey_iff]
    rw [List.map_append, List.map_cons, List.nodup_append] at hkeys
    exact fun hmem => hkeys.2.2 _ hmem _ List.mem_cons_self rfl
  have hroom : exceeds (nodes + 1) limits.maxNodes = false :=
    exceeds_mono hfits.nodes (by rw [List.length_cons]; omega)
  have hfirst := ihv line.line (more ++ rest) depth (nodes + 1) fuel hfits.tail.left.deeper
    (stops_entries hmore hstop) (by omega)
  have hlater := ihes (object ++ [(key, v)]) rest depth _ fuel (happend ▸ hkeys) hfits.tail.right
    hstop (by omega)
  rw [List.cons_append, parseEntries, if_neg (by simp [hindent, hdash]), hroom,
    if_neg (by simp), List.append_assoc]
  refine Except.bind_eq_ok.mpr ⟨_, hkey, ?_⟩
  simp only [hfresh, Bool.false_eq_true, if_false]
  refine Except.bind_eq_ok.mpr ⟨_, hfirst, ?_⟩
  rw [hlater, happend, List.length_cons, List.length_append]
  congr 2
  omega

theorem Reads.parsed {indent : ℕ} {lines : List YamlLine} {part : Part}
    (h : Reads numberValue limits indent lines part) :
    Part.Parsed numberValue limits indent lines part := by
  induction h with
  | sequence hne hreads ih =>
    intro rest depth nodes fuel hfits hstop hfuel
    exact parsed_sequence hreads (hreads.begins.2 hne) ih hfits hstop hfuel
  | mapping hne hkeys hreads ih =>
    intro rest depth nodes fuel hfits hstop hfuel
    exact parsed_mapping hreads (hreads.begins.2 hne) ih hkeys hfits hstop hfuel
  | child hreads ih => exact parsed_child hreads ih
  | scalar hne hvalue => exact parsed_scalar hne hvalue
  | noItems =>
    intro rest depth nodes fuel _ hstop hfuel
    exact parseItems_stop hstop (by omega)
  | nestedItem hindent hmarker hreads hmore ihv ihvs =>
    exact parsed_nestedItem hindent hmarker hreads hmore ihv ihvs
  | compactItem hindent hcontent hopens hkey _ htail hkeys hmore ihv ihes ihvs =>
    exact parsed_compactItem hindent hcontent hopens hkey htail hkeys hmore ihv ihes ihvs
  | scalarItem hindent hcontent hne hopens hvalue _ ihvs =>
    exact parsed_scalarItem hindent hcontent hne hopens hvalue ihvs
  | noEntries =>
    intro object rest depth nodes fuel _ _ hstop hfuel
    rw [List.append_nil]
    exact parseEntries_stop hstop (by omega)
  | entry hindent hdash hkey _ hmore ihv ihes =>
    exact parsed_entry hindent hdash hkey hmore ihv ihes

end Completeness

end Aseos.Policy
