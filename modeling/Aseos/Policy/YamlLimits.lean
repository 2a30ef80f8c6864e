import Aseos.Policy.YamlOutline
import Aseos.Policy.YamlRoundTrip

namespace Aseos.Policy

section Counters

variable {numberValue : JsString → JsNumber} {limits : RestrictedYamlLimits}

def Takes (limits : RestrictedYamlLimits) (lines : List YamlLine) (nodes : ℕ)
    (next : List YamlLine) (nodes' : ℕ) : Prop :=
  ∃ used, lines = used ++ next ∧ nodes' = nodes + used.length ∧
    (∀ line ∈ used, exceeds (line.indent / 2) limits.maxDepth = false) ∧
    (used ≠ [] → exceeds nodes' limits.maxNodes = false)

theorem Takes.refl (lines : List YamlLine) (nodes : ℕ) : Takes limits lines nodes lines nodes :=
  ⟨[], rfl, rfl, nofun, fun h => absurd rfl h⟩

theorem Takes.trans {lines next last : List YamlLine} {nodes nodes' nodes'' : ℕ}
    (h : Takes limits lines nodes next nodes') (h' : Takes limits next nodes' last nodes'') :
    Takes limits lines nodes last nodes'' := by
  obtain ⟨used, rfl, rfl, hdepths, hnodes⟩ := h
  obtain ⟨used', rfl, rfl, hdepths', hnodes'⟩ := h'
  refine ⟨used ++ used', by rw [List.append_assoc], by rw [List.length_append, Nat.add_assoc],
    List.forall_mem_append.mpr ⟨hdepths, hdepths'⟩, fun hne => ?_⟩
  cases used' with
  | nil => exact hnodes (by simpa using hne)
  | cons line used' => exact hnodes' (List.cons_ne_nil _ _)

theorem Takes.line {line : YamlLine} {nodes : ℕ} (lines : List YamlLine)
    (hdepth : exceeds (line.indent / 2) limits.maxDepth = false)
    (hnodes : exceeds (nodes + 1) limits.maxNodes = false) :
    Takes limits (line :: lines) nodes lines (nodes + 1) :=
  ⟨[line], rfl, rfl, by simpa using hdepth, fun _ => hnodes⟩

def CountingNode (limits : RestrictedYamlLimits)
    (node : List YamlLine → ℕ → ℕ → ℕ → Except PolicyFailure (ParseResult JsValue)) : Prop :=
  ∀ lines depth nodes r, node lines (2 * depth) depth nodes = .ok r →
    Takes limits lines nodes r.next r.nodes

variable {node : List YamlLine → ℕ → ℕ → ℕ → Except PolicyFailure (ParseResult JsValue)}

theorem parseMember_takes (hnode : CountingNode limits node) {scalar : JsString}
    {line depth nodes : ℕ} {following : List YamlLine} {r : ParseResult JsValue}
    (h : parseMember numberValue limits node scalar line following (2 * depth) depth nodes =
      .ok r) : Takes limits following nodes r.next r.nodes := by
  rw [parseMember] at h
  split at h
  · split at h
    · cases h
    · exact hnode following (depth + 1) nodes r h
  · obtain ⟨value, -, h⟩ := Except.bind_eq_ok.mp h
    obtain rfl := Except.ok.inj h
    exact .refl following nodes

theorem parseItem_takes (hnode : CountingNode limits node) {rest : JsString}
    {line depth nodes : ℕ} {following : List YamlLine} {r : ParseResult JsValue}
    (h : parseItem numberValue limits node rest line following (2 * depth) depth nodes = .ok r) :
    Takes limits following nodes r.next r.nodes := by
  rw [parseItem] at h
  split at h
  · split at h
    · cases h
    · exact hnode following (depth + 1) nodes r h
  · split at h
    · obtain ⟨⟨key, text⟩, -, h⟩ := Except.bind_eq_ok.mp h
      obtain ⟨first, hfirst, h⟩ := Except.bind_eq_ok.mp h
      have htakes : Takes limits following nodes first.next first.nodes :=
        @parseMember_takes _ _ _ hnode _ _ (depth + 1) _ _ _ hfirst
      split at h
      · obtain ⟨tail, htail, h⟩ := Except.bind_eq_ok.mp h
        have htakesTail := hnode first.next (depth + 1) first.nodes tail htail
        split at h
        · cases h
        · obtain ⟨object, -, h⟩ := Except.bind_eq_ok.mp h
          obtain rfl := Except.ok.inj h
          exact htakes.trans htakesTail
      · obtain rfl := Except.ok.inj h
        exact htakes
    · obtain ⟨value, -, h⟩ := Except.bind_eq_ok.mp h
      obtain rfl := Except.ok.inj h
      exact .refl following nodes

structure ParserCounts (numberValue : JsString → JsNumber) (limits : RestrictedYamlLimits)
    (fuel : ℕ) : Prop where
  node : CountingNode limits (parseYamlNode numberValue limits fuel)
  items : ∀ lines depth nodes r, exceeds depth limits.maxDepth = false →
    parseItems numberValue limits fuel lines (2 * depth) depth nodes = .ok r →
    Takes limits lines nodes r.next r.nodes
  entries : ∀ object lines depth nodes r, exceeds depth limits.maxDepth = false →
    parseEntries numberValue limits fuel object lines (2 * depth) depth nodes = .ok r →
    Takes limits lines nodes r.next r.nodes

theorem counts_items {fuel : ℕ} (ih : ParserCounts numberValue limits fuel) {line : YamlLine}
    {lines : List YamlLine} {depth nodes : ℕ} {r : ParseResult (List JsValue)}
    (hdepth : exceeds depth limits.maxDepth = false)
    (h : parseItems numberValue limits (fuel + 1) (line :: lines) (2 * depth) depth nodes =
      .ok r) :
    Takes limits (line :: lines) nodes r.next r.nodes := by
  rw [parseItems] at h
  split at h
  · obtain rfl := Except.ok.inj h
    exact .refl _ _
  · rename_i hfirst
    rw [not_or, not_not] at hfirst
    split at h
    · cases h
    split at h
    · cases h
    rename_i hroom
    obtain ⟨item, hitem, h⟩ := Except.bind_eq_ok.mp h
    obtain ⟨items, hitems, h⟩ := Except.bind_eq_ok.mp h
    obtain rfl := Except.ok.inj h
    have hline : exceeds (line.indent / 2) limits.maxDepth = false := by
      rwa [hfirst.1, Nat.mul_div_cancel_left _ (by omega)]
    have htakes := (Takes.line lines hline (by simpa using hroom)).trans
      (parseItem_takes ih.node hitem)
    exact htakes.trans (ih.items _ _ _ items hdepth hitems)

theorem counts_entries {fuel : ℕ} (ih : ParserCounts numberValue limits fuel) {object : Entries}
    {line : YamlLine} {lines : List YamlLine} {depth nodes : ℕ} {r : ParseResult Entries}
    (hdepth : exceeds depth limits.maxDepth = false)
    (h : parseEntries numberValue limits (fuel + 1) object (line :: lines) (2 * depth) depth
      nodes = .ok r) :
    Takes limits (line :: lines) nodes r.next r.nodes := by
  rw [parseEntries] at h
  split at h
  · obtain rfl := Except.ok.inj h
    exact .refl _ _
  · rename_i hfirst
    rw [not_or, not_not] at hfirst
    split at h
    · cases h
    rename_i hroom
    obtain ⟨⟨key, text⟩, -, h⟩ := Except.bind_eq_ok.mp h
    dsimp only at h
    split at h
    · cases h
    obtain ⟨member, hmember, h⟩ := Except.bind_eq_ok.mp h
    have hline : exceeds (line.indent / 2) limits.maxDepth = false := by
      rwa [hfirst.1, Nat.mul_div_cancel_left _ (by omega)]
    have htakes := (Takes.line lines hline (by simpa using hroom)).trans
      (parseMember_takes ih.node hmember)
    exact htakes.trans (ih.entries _ _ _ _ _ hdepth h)

theorem parser_counts (fuel : ℕ) : ParserCounts numberValue limits fuel := by
  induction fuel with
  | zero => exact ⟨nofun, nofun, nofun⟩
  | succ fuel ih =>
    refine ⟨fun lines depth nodes r h => ?_, fun lines depth nodes r hdepth h => ?_,
      fun object lines depth nodes r hdepth h => ?_⟩
    · rw [parseYamlNode] at h
      split at h
      · cases h
      rename_i hdepth
      have hdepth : exceeds depth limits.maxDepth = false := by simpa using hdepth
      split at h
      · cases h
      split at h
      · obtain ⟨items, hitems, h⟩ := Except.bind_eq_ok.mp h
        obtain rfl := Except.ok.inj h
        exact ih.items lines depth nodes items hdepth hitems
      · obtain ⟨object, hobject, h⟩ := Except.bind_eq_ok.mp h
        obtain rfl := Except.ok.inj h
        exact ih.entries [] lines depth nodes object hdepth hobject
    · cases lines with
      | nil =>
        obtain rfl := Except.ok.inj h
        exact .refl _ _
      | cons line lines => exact counts_items ih hdepth h
    · cases lines with
      | nil =>
        obtain rfl := Except.ok.inj h
        exact .refl _ _
      | cons line lines => exact counts_entries ih hdepth h

end Counters

section Termination

variable {numberValue : JsString → JsNumber} {limits : RestrictedYamlLimits}
  {node node' : List YamlLine → ℕ → ℕ → ℕ → Except PolicyFailure (ParseResult JsValue)}

def SameUpTo (bound : ℕ)
    (node node' : List YamlLine → ℕ → ℕ → ℕ → Except PolicyFailure (ParseResult JsValue)) : Prop :=
  ∀ lines indent depth nodes, lines.length ≤ bound →
    node lines indent depth nodes = node' lines indent depth nodes

theorem parseMember_same {following : List YamlLine} (h : SameUpTo following.length node node')
    (scalar : JsString) (line indent depth nodes : ℕ) :
    parseMember numberValue limits node scalar line following indent depth nodes =
      parseMember numberValue limits node' scalar line following indent depth nodes := by
  rw [parseMember, parseMember, h following _ _ _ le_rfl]

theorem parseItem_same (hsound : SoundNode numberValue limits node') {following : List YamlLine}
    (h : SameUpTo following.length node node') (rest : JsString) (line indent depth nodes : ℕ) :
    parseItem numberValue limits node rest line following indent depth nodes =
      parseItem numberValue limits node' rest line following indent depth nodes := by
  rw [parseItem, parseItem, h following _ _ _ le_rfl]
  refine ite_congr rfl (fun _ => rfl) fun _ => ite_congr rfl (fun _ => ?_) fun _ => rfl
  refine Except.bind_congr_ok fun entry _ => ?_
  obtain ⟨key, scalar⟩ := entry
  dsimp only
  rw [parseMember_same h]
  refine Except.bind_congr_ok fun first hfirst => ?_
  obtain ⟨used, hused, -⟩ := parseMember_sound hsound hfirst
  have hle : first.next.length ≤ following.length := by
    rw [hused, List.length_append]
    omega
  rw [h first.next _ _ _ hle]

structure ParserSettles (numberValue : JsString → JsNumber) (limits : RestrictedYamlLimits)
    (fuel : ℕ) : Prop where
  node : ∀ lines indent depth nodes, 2 * lines.length + 2 ≤ fuel →
    parseYamlNode numberValue limits (fuel + 1) lines indent depth nodes =
      parseYamlNode numberValue limits fuel lines indent depth nodes
  items : ∀ lines indent depth nodes, 2 * lines.length + 1 ≤ fuel →
    parseItems numberValue limits (fuel + 1) lines indent depth nodes =
      parseItems numberValue limits fuel lines indent depth nodes
  entries : ∀ object lines indent depth nodes, 2 * lines.length + 1 ≤ fuel →
    parseEntries numberValue limits (fuel + 1) object lines indent depth nodes =
      parseEntries numberValue limits fuel object lines indent depth nodes

theorem ParserSettles.same {fuel : ℕ} (h : ParserSettles numberValue limits fuel) {bound : ℕ}
    (hbound : 2 * bound + 2 ≤ fuel) :
    SameUpTo bound (parseYamlNode numberValue limits (fuel + 1))
      (parseYamlNode numberValue limits fuel) :=
  fun lines _ _ _ hlines => h.node lines _ _ _ (by omega)

theorem settles_items {fuel : ℕ} (ih : ParserSettles numberValue limits fuel) (line : YamlLine)
    {lines : List YamlLine} (indent depth nodes : ℕ) (hfuel : 2 * lines.length + 2 ≤ fuel) :
    parseItems numberValue limits (fuel + 2) (line :: lines) indent depth nodes =
      parseItems numberValue limits (fuel + 1) (line :: lines) indent depth nodes := by
  rw [parseItems, parseItems]
  refine ite_congr rfl (fun _ => rfl) fun hfirst => ite_congr rfl (fun _ => rfl) fun hmarker =>
    ite_congr rfl (fun _ => rfl) fun _ => ?_
  rw [not_or, not_not] at hfirst
  have hdash : line.content = js "-" ∨ startsWith "- " line.content = true := by
    by_contra hneither
    rw [not_or, Bool.not_eq_true] at hneither
    exact hmarker hneither
  rw [parseItem_same (parser_sound fuel).node (ih.same hfuel)]
  refine Except.bind_congr_ok fun item hitem => ?_
  obtain ⟨used, hused, -⟩ := parseItem_sound (parser_sound fuel).node hfirst.1 hdash hitem
  have hlength : item.next.length ≤ lines.length := by
    rw [hused, List.length_append]
    omega
  rw [ih.items _ _ _ _ (by omega)]

theorem settles_entries {fuel : ℕ} (ih : ParserSettles numberValue limits fuel)
    (object : Entries) (line : YamlLine) {lines : List YamlLine} (indent depth nodes : ℕ)
    (hfuel : 2 * lines.length + 2 ≤ fuel) :
    parseEntries numberValue limits (fuel + 2) object (line :: lines) indent depth nodes =
      parseEntries numberValue limits (fuel + 1) object (line :: lines) indent depth nodes := by
  rw [parseEntries, parseEntries]
  refine ite_congr rfl (fun _ => rfl) fun _ => ite_congr rfl (fun _ => rfl) fun _ => ?_
  refine Except.bind_congr_ok fun entry _ => ?_
  obtain ⟨key, text⟩ := entry
  dsimp only
  refine ite_congr rfl (fun _ => rfl) fun _ => ?_
  rw [parseMember_same (ih.same hfuel)]
  refine Except.bind_congr_ok fun member hmember => ?_
  obtain ⟨used, hused, -⟩ := parseMember_sound (parser_sound fuel).node hmember
  have hlength : member.next.length ≤ lines.length := by
    rw [hused, List.length_append]
    omega
  exact ih.entries _ _ _ _ _ (by omega)

theorem parser_settles (fuel : ℕ) : ParserSettles numberValue limits fuel := by
  induction fuel with
  | zero => exact ⟨fun _ _ _ _ h => by omega, fun _ _ _ _ h => by omega,
      fun _ _ _ _ _ h => by omega⟩
  | succ fuel ih =>
    refine ⟨fun lines indent depth nodes hfuel => ?_, fun lines indent depth nodes hfuel => ?_,
      fun object lines indent depth nodes hfuel => ?_⟩
    · rw [parseYamlNode, parseYamlNode, ih.items _ _ _ _ (by omega), ih.entries _ _ _ _ _ (by omega)]
    · cases lines with
      | nil => rfl
      | cons line lines =>
        rw [List.length_cons] at hfuel
        exact settles_items ih line indent depth nodes (by omega)
    · cases lines with
      | nil => rfl
      | cons line lines =>
        rw [List.length_cons] at hfuel
        exact settles_entries ih object line indent depth nodes (by omega)

end Termination

section Nesting

variable (limit : JsNumber)

mutual

def nestedWithin : ℕ → JsValue → Bool
  | depth, .array slots _ => !exceeds depth limit && slotsNested (depth + 1) slots
  | depth, .object _ props => !exceeds depth limit && propsNested (depth + 1) props
  | _, _ => true

def slotsNested : ℕ → List (SlotKind × JsValue) → Bool
  | _, [] => true
  | depth, (_, v) :: slots => nestedWithin depth v && slotsNested depth slots

def propsNested : ℕ → List (Field × JsValue) → Bool
  | _, [] => true
  | depth, (_, v) :: props => nestedWithin depth v && propsNested depth props

end

variable {limit}

theorem nestedWithin_arrayOf {depth : ℕ} {vs : List JsValue} :
    nestedWithin limit depth (Json.arrayOf vs) = true ↔
      exceeds depth limit = false ∧ ∀ v ∈ vs, nestedWithin limit (depth + 1) v = true := by
  have hslots : slotsNested limit (depth + 1) (vs.map fun v => (.data, v)) =
      vs.all (nestedWithin limit (depth + 1)) := by
    induction vs with
    | nil => rfl
    | cons v vs ih => rw [List.map_cons, slotsNested, ih, List.all_cons]
  rw [Json.arrayOf, nestedWithin, hslots]
  simp

theorem nestedWithin_record {depth : ℕ} {es : Entries} :
    nestedWithin limit depth (.record es) = true ↔
      exceeds depth limit = false ∧ ∀ e ∈ es, nestedWithin limit (depth + 1) e.2 = true := by
  have hprops : propsNested limit (depth + 1) (es.map fun e => (Field.own e.1, e.2)) =
      es.all fun e => nestedWithin limit (depth + 1) e.2 := by
    induction es with
    | nil => rfl
    | cons e es ih => rw [List.map_cons, propsNested, ih, List.all_cons]
  rw [JsValue.record, nestedWithin, hprops]
  simp

theorem nestedWithin_scalar {numberValue : JsString → JsNumber} {limits : RestrictedYamlLimits}
    {text : JsString} {line : ℕ} {v : JsValue}
    (h : parseScalar numberValue limits text line = .ok v) (depth : ℕ) :
    nestedWithin limit depth v = true := by
  unfold parseScalar at h
  repeat' split at h
  all_goals
    first
    | cases h; done
    | obtain rfl := Except.ok.inj h
      rfl

variable (limit) in
def Part.NestedWithin (depth : ℕ) : Part → Prop
  | .node v => nestedWithin limit depth v = true
  | .member _ v => nestedWithin limit (depth + 1) v = true
  | .items vs => (vs ≠ [] → exceeds depth limit = false) ∧
      ∀ v ∈ vs, nestedWithin limit (depth + 1) v = true
  | .entries es => (es ≠ [] → exceeds depth limit = false) ∧
      ∀ e ∈ es, nestedWithin limit (depth + 1) e.2 = true

def Shallow (limit : JsNumber) (tokens : List Token) : Prop :=
  ∀ token ∈ tokens, exceeds (token.column / 2) limit = false

theorem shallow_cons {token : Token} {tokens : List Token} {depth : ℕ}
    (hcolumn : token.column = 2 * depth) :
    Shallow limit (token :: tokens) ↔ exceeds depth limit = false ∧ Shallow limit tokens := by
  have hhalf : token.column / 2 = depth := by omega
  rw [Shallow, List.forall_mem_cons, hhalf]
  rfl

theorem shallow_append {tokens tokens' : List Token} :
    Shallow limit (tokens ++ tokens') ↔ Shallow limit tokens ∧ Shallow limit tokens' :=
  List.forall_mem_append

theorem nestedWithin_items_cons {depth : ℕ} {v : JsValue} {vs : List JsValue} :
    Part.NestedWithin limit depth (.items (v :: vs)) ↔ exceeds depth limit = false ∧
      nestedWithin limit (depth + 1) v = true ∧ Part.NestedWithin limit depth (.items vs) := by
  simp only [Part.NestedWithin, List.forall_mem_cons, ne_eq, reduceCtorEq, not_false_eq_true,
    forall_const]
  tauto

theorem nestedWithin_entries_cons {depth : ℕ} {e : JsString × JsValue} {es : Entries} :
    Part.NestedWithin limit depth (.entries (e :: es)) ↔ exceeds depth limit = false ∧
      nestedWithin limit (depth + 1) e.2 = true ∧ Part.NestedWithin limit depth (.entries es) := by
  simp only [Part.NestedWithin, List.forall_mem_cons, ne_eq, reduceCtorEq, not_false_eq_true,
    forall_const]
  tauto

theorem Reads.nested {numberValue : JsString → JsNumber} {limits : RestrictedYamlLimits}
    {indent : ℕ} {lines : List YamlLine} {part : Part}
    (h : Reads numberValue limits indent lines part) {depth : ℕ} (hdepth : indent = 2 * depth) :
    Shallow limit (Policy.written lines) ↔ part.NestedWithin limit depth := by
  induction h generalizing depth with
  | sequence hne _ ih =>
    rw [ih hdepth, Part.NestedWithin, Part.NestedWithin, nestedWithin_arrayOf]
    exact and_congr_left' ⟨fun h => h hne, fun h _ => h⟩
  | mapping hne _ _ ih =>
    rw [ih hdepth, Part.NestedWithin, Part.NestedWithin, nestedWithin_record]
    exact and_congr_left' ⟨fun h => h hne, fun h _ => h⟩
  | child _ ih => exact @ih (depth + 1) (by omega)
  | scalar _ hvalue => exact iff_of_true (List.forall_mem_nil _) (nestedWithin_scalar hvalue _)
  | noItems =>
    exact iff_of_true (List.forall_mem_nil _) ⟨fun h => absurd rfl h, List.forall_mem_nil _⟩
  | @nestedItem indent line lines more v vs hindent hmarker _ _ ihv ihvs =>
    subst hindent
    have hchild : Shallow limit (Policy.written lines) ↔ _ := @ihv (depth + 1) (by omega)
    rw [Policy.written, List.flatMap_cons, List.flatMap_append,
      lineTokens_marker line.indent hmarker, List.singleton_append, shallow_cons hdepth,
      shallow_append, nestedWithin_items_cons]
    exact and_congr_right' (and_congr hchild (ihvs hdepth))
  | @compactItem indent line content key text lines tail more v es vs hindent hcontent hopens hkey
      _ _ _ _ ihv ihes ihvs =>
    subst hindent
    have hmember := @ihv (depth + 1) (by omega)
    have htail := @ihes (depth + 1) (by omega)
    have hmore := ihvs hdepth
    have hcolumn : line.indent + 2 = 2 * (depth + 1) := by omega
    rw [Policy.written, List.flatMap_cons, List.flatMap_append, List.flatMap_append,
      lineTokens_compact line.indent hcontent hopens hkey, List.cons_append,
      List.singleton_append, shallow_cons hdepth, shallow_cons hcolumn, shallow_append,
      shallow_append, nestedWithin_items_cons, nestedWithin_record, List.forall_mem_cons]
    unfold Policy.written Part.NestedWithin at hmember htail
    unfold Policy.written at hmore
    rw [hmember, htail, hmore]
    tauto
  | @scalarItem indent line text more v vs hindent hcontent _ hopens hvalue _ ihvs =>
    subst hindent
    rw [Policy.written, List.flatMap_cons, lineTokens_scalar line.indent hcontent hopens,
      List.singleton_append, shallow_cons hdepth, nestedWithin_items_cons,
      nestedWithin_scalar hvalue]
    exact and_congr_right' ((ihvs hdepth).trans ⟨fun h => ⟨rfl, h⟩, And.right⟩)
  | noEntries =>
    exact iff_of_true (List.forall_mem_nil _) ⟨fun h => absurd rfl h, List.forall_mem_nil _⟩
  | @entry indent line key text lines more v es hindent hdash hkey _ _ ihv ihes =>
    subst hindent
    rw [Policy.written, List.flatMap_cons, List.flatMap_append,
      lineTokens_entry line.indent hdash hkey, List.singleton_append, shallow_cons hdepth,
      shallow_append, nestedWithin_entries_cons]
    exact and_congr_right' (and_congr (ihv hdepth) (ihes hdepth))

end Nesting

section Source

variable {numberValue : JsString → JsNumber} {limits limits' : RestrictedYamlLimits}

theorem Reads.congr (hscalar : limits.maxScalarLength = limits'.maxScalarLength) {indent : ℕ}
    {lines : List YamlLine} {part : Part} (h : Reads numberValue limits indent lines part) :
    Reads numberValue limits' indent lines part := by
  have hparse (text : JsString) (line : ℕ) :
      parseScalar numberValue limits text line = parseScalar numberValue limits' text line := by
    rw [parseScalar, parseScalar, hscalar]
  induction h with
  | sequence hne _ ih => exact .sequence hne ih
  | mapping hne hkeys _ ih => exact .mapping hne hkeys ih
  | child _ ih => exact .child ih
  | scalar hne hvalue => exact .scalar hne (hparse _ _ ▸ hvalue)
  | noItems => exact .noItems
  | nestedItem hindent hmarker _ _ ihv ihvs => exact .nestedItem hindent hmarker ihv ihvs
  | compactItem hindent hcontent hopens hkey _ _ hkeys _ ihv ihes ihvs =>
    exact .compactItem hindent hcontent hopens hkey ihv ihes hkeys ihvs
  | scalarItem hindent hcontent hne hopens hvalue _ ihvs =>
    exact .scalarItem hindent hcontent hne hopens (hparse _ _ ▸ hvalue) ihvs
  | noEntries => exact .noEntries
  | entry hindent hdash hkey _ _ ihv ihes => exact .entry hindent hdash hkey ihv ihes

def keptLines (source : JsString) : List JsString :=
  (rawLines source).filter fun raw => !ignored raw

theorem keptLines_yamlLines {raws : List JsString} {index : ℕ} {lines : List YamlLine}
    (h : yamlLines index raws = .ok lines) :
    (raws.filter fun raw => !ignored raw).map indentation = lines.map YamlLine.indent := by
  induction raws generalizing index lines with
  | nil =>
    obtain rfl := Except.ok.inj h
    rfl
  | cons raw raws ih =>
    cases hignored : ignored raw with
    | true =>
      rw [yamlLines, if_pos hignored] at h
      rw [List.filter_cons_of_neg (by simp [hignored])]
      exact ih h
    | false =>
      obtain ⟨-, rest, hrest, rfl⟩ := (yamlLines_kept hignored).mp h
      rw [List.filter_cons_of_pos (by simp [hignored]), List.map_cons, List.map_cons, ih hrest]

-- What the parser counts: a node for each line, and the depth of the indentation of each.
structure Counted (limits : RestrictedYamlLimits) (source : JsString) : Prop where
  depth : ∀ raw ∈ keptLines source, exceeds (indentation raw / 2) limits.maxDepth = false
  nodes : exceeds (keptLines source).length limits.maxNodes = false

-- What is in the source: the key of a compact item is one more node, at one more depth.
structure Contained (limits : RestrictedYamlLimits) (source : JsString) : Prop where
  depth : Shallow limits.maxDepth (sourceTokens source)
  nodes : exceeds (sourceTokens source).length limits.maxNodes = false

structure WithinTreeLimits (limits : RestrictedYamlLimits) (v : JsValue) : Prop where
  depth : nestedWithin limits.maxDepth 0 v = true
  nodes : exceeds (entryCount v) limits.maxNodes = false

theorem lineTokens_head (indent : ℕ) (content : JsString) :
    ∃ mark rest, lineTokens indent content = ⟨indent, mark⟩ :: rest := by
  unfold lineTokens
  split
  · exact ⟨.item, _, rfl⟩
  · exact ⟨.key _, [], rfl⟩

theorem Contained.counted {source : JsString} (h : Contained limits source) :
    Counted limits source := by
  constructor
  · intro raw hraw
    obtain ⟨mark, rest, hhead⟩ :=
      lineTokens_head (indentation raw) (raw.drop (indentation raw))
    refine h.depth ⟨indentation raw, mark⟩ (List.mem_flatMap.mpr ⟨raw, hraw, ?_⟩)
    rw [hhead]
    exact List.mem_cons_self
  · refine exceeds_mono h.nodes ?_
    have hlength (raws : List JsString) : raws.length ≤ (raws.flatMap fun raw =>
        lineTokens (indentation raw) (raw.drop (indentation raw))).length := by
      induction raws with
      | nil => exact le_rfl
      | cons raw raws ih =>
        obtain ⟨mark, rest, hhead⟩ :=
          lineTokens_head (indentation raw) (raw.drop (indentation raw))
        rw [List.flatMap_cons, hhead, List.length_append, List.length_cons, List.length_cons]
        omega
    exact hlength (keptLines source)

theorem fits_iff_counted {source : JsString} {lines : List YamlLine}
    (h : yamlLines 0 (rawLines source) = .ok lines) :
    Fits limits 0 0 0 lines ↔ Counted limits source := by
  have hindents : (keptLines source).map indentation = lines.map YamlLine.indent :=
    keptLines_yamlLines h
  have hlength : (keptLines source).length = lines.length := by
    simpa using congrArg List.length hindents
  have hdepths : (∀ line ∈ lines, exceeds (line.indent / 2) limits.maxDepth = false) ↔
      ∀ raw ∈ keptLines source, exceeds (indentation raw / 2) limits.maxDepth = false := by
    have hmap : (∀ n ∈ lines.map YamlLine.indent, exceeds (n / 2) limits.maxDepth = false) ↔
        ∀ n ∈ (keptLines source).map indentation, exceeds (n / 2) limits.maxDepth = false := by
      rw [hindents]
    simpa only [List.forall_mem_map] using hmap
  constructor
  · rintro ⟨-, hdepth, hnodes⟩
    exact ⟨hdepths.mp hdepth, by rwa [hlength, ← Nat.zero_add lines.length]⟩
  · rintro ⟨hdepth, hnodes⟩
    exact ⟨rfl, hdepths.mpr hdepth, by rwa [Nat.zero_add, ← hlength]⟩

theorem contained_iff_within {source : JsString} {lines : List YamlLine} {v : JsValue}
    (hlines : yamlLines 0 (rawLines source) = .ok lines)
    (hreads : Reads numberValue limits 0 lines (.node v)) :
    Contained limits source ↔ WithinTreeLimits limits v := by
  have htokens : sourceTokens source = written lines := (written_yamlLines hlines).symm
  have hcount : entryCount v = (sourceTokens source).length := by
    rw [htokens, ← outline_size, ← Forest.paths_length]
    exact hreads.written.length_eq.symm
  have hdepth : Shallow limits.maxDepth (sourceTokens source) ↔
      nestedWithin limits.maxDepth 0 v = true := by
    rw [htokens]
    exact @Reads.nested limits.maxDepth _ _ _ _ _ hreads 0 rfl
  exact ⟨fun h => ⟨hdepth.mp h.depth, hcount ▸ h.nodes⟩,
    fun h => ⟨hdepth.mpr h.depth, hcount ▸ h.nodes⟩⟩

theorem parseLimited_eq_ok {source : JsString} {v : JsValue} :
    parseLimited numberValue limits source = .ok v ↔
      exceeds source.utf8.length limits.maxBytes = false ∧ mixedLineEnds source = false ∧
      exceeds (rawLines source).length limits.maxLines = false ∧
      ∃ lines, yamlLines 0 (rawLines source) = .ok lines ∧
        Reads numberValue limits 0 lines (.node v) ∧ Fits limits 0 0 0 lines ∧
        assertPolicyJson v (js "$") = .ok () := by
  constructor
  · intro h
    unfold parseLimited at h
    split at h
    · cases h
    rename_i hbytes
    split at h
    · cases h
    rename_i hmixed
    split at h
    · cases h
    rename_i hraw
    obtain ⟨lines, hlines, h⟩ := Except.bind_eq_ok.mp h
    split at h
    · cases h
    obtain ⟨parsed, hparsed, h⟩ := Except.bind_eq_ok.mp h
    split at h
    · cases h
    rename_i hnext
    rw [not_not] at hnext
    obtain ⟨_, hassert, h⟩ := Except.bind_eq_ok.mp h
    obtain rfl := Except.ok.inj h
    obtain ⟨used, hused, hreads⟩ := (parser_sound _).node _ _ _ _ _ hparsed
    rw [hnext, List.append_nil] at hused
    obtain rfl := hused
    have hfits : Fits limits 0 0 0 lines := by
      obtain ⟨taken, htaken, hcount, hdepths, hnodes⟩ :=
        (parser_counts _).node lines 0 0 parsed hparsed
      rw [hnext, List.append_nil] at htaken
      obtain rfl := htaken
      have hne : lines ≠ [] := by
        rintro rfl
        cases hreads.begins
      exact ⟨rfl, hdepths, hcount ▸ hnodes hne⟩
    exact ⟨by simpa using hbytes, by simpa using hmixed, by simpa using hraw, lines, hlines,
      hreads, hfits, hassert⟩
  · rintro ⟨hbytes, hmixed, hraw, lines, hlines, hreads, hfits, hassert⟩
    have hparsed := hreads.parsed [] 0 0 (2 * lines.length + 2) hfits nofun le_rfl
    rw [List.append_nil] at hparsed
    have hindent : indentOf lines = some 0 := hreads.begins
    rw [parseLimited, hbytes, hmixed, hraw, if_neg (by simp), if_neg (by simp), if_neg (by simp)]
    refine Except.bind_eq_ok.mpr ⟨lines, hlines, ?_⟩
    rw [hindent, if_neg (by simp)]
    refine Except.bind_eq_ok.mpr ⟨_, hparsed, ?_⟩
    rw [if_neg (by simp)]
    exact Except.bind_eq_ok.mpr ⟨(), hassert, rfl⟩

def ConfiguredLimits.unlimitedTree (configured : ConfiguredLimits) : ConfiguredLimits :=
  { configured with maxDepth := some (.infinity false), maxNodes := some (.infinity false) }

variable {runtime : JsonRuntime} {configured : ConfiguredLimits}

theorem parse_iff_counted {source : JsString} {v : JsValue} :
    parseRestrictedPolicyYaml runtime source configured = .ok v ↔
      parseRestrictedPolicyYaml runtime source configured.unlimitedTree = .ok v ∧
        Counted configured.required source := by
  have hscalar : configured.required.maxScalarLength =
      configured.unlimitedTree.required.maxScalarLength := rfl
  unfold parseRestrictedPolicyYaml
  rw [parseLimited_eq_ok, parseLimited_eq_ok]
  constructor
  · rintro ⟨hbytes, hmixed, hraw, lines, hlines, hreads, hfits, hassert⟩
    have hfree : Fits configured.unlimitedTree.required 0 0 0 lines := ⟨rfl, fun _ _ => rfl, rfl⟩
    exact ⟨⟨hbytes, hmixed, hraw, lines, hlines, hreads.congr hscalar, hfree, hassert⟩,
      (fits_iff_counted hlines).mp hfits⟩
  · rintro ⟨⟨hbytes, hmixed, hraw, lines, hlines, hreads, -, hassert⟩, hcounted⟩
    exact ⟨hbytes, hmixed, hraw, lines, hlines, hreads.congr hscalar.symm,
      (fits_iff_counted hlines).mpr hcounted, hassert⟩

theorem parse_contained {source : JsString} {v : JsValue}
    (h : parseRestrictedPolicyYaml runtime source configured.unlimitedTree = .ok v) :
    Contained configured.required source ↔ WithinTreeLimits configured.required v := by
  have hscalar : configured.unlimitedTree.required.maxScalarLength =
      configured.required.maxScalarLength := rfl
  obtain ⟨lines, hlines, hreads⟩ := reads_of_parse h
  exact contained_iff_within hlines (hreads.congr hscalar)

theorem parseYamlNode_fuel (lines : List YamlLine) (indent depth nodes : ℕ) {fuel : ℕ}
    (hfuel : 2 * lines.length + 2 ≤ fuel) :
    parseYamlNode numberValue limits fuel lines indent depth nodes =
      parseYamlNode numberValue limits (2 * lines.length + 2) lines indent depth nodes := by
  induction fuel, hfuel using Nat.le_induction with
  | base => rfl
  | succ fuel hfuel ih => rw [(parser_settles fuel).node _ _ _ _ hfuel, ih]

theorem parseYamlNode_progress {fuel indent depth nodes : ℕ} {lines : List YamlLine}
    {r : ParseResult JsValue}
    (h : parseYamlNode numberValue limits fuel lines indent depth nodes = .ok r) :
    ∃ used, used ≠ [] ∧ lines = used ++ r.next := by
  obtain ⟨used, hused, hreads⟩ := (parser_sound fuel).node _ _ _ _ _ h
  refine ⟨used, ?_, hused⟩
  rintro rfl
  cases hreads.begins

theorem yaml_limits_enforced (runtime : JsonRuntime) (configured : ConfiguredLimits) :
    (∀ limits lines indent depth nodes fuel, 2 * lines.length + 2 ≤ fuel →
      parseYamlNode runtime.numberValue limits fuel lines indent depth nodes =
        parseYamlNode runtime.numberValue limits (2 * lines.length + 2) lines indent depth nodes) ∧
    (∀ limits fuel lines indent depth nodes r,
      parseYamlNode runtime.numberValue limits fuel lines indent depth nodes = .ok r →
        ∃ used, used ≠ [] ∧ lines = used ++ r.next) ∧
    (∀ source v, parseRestrictedPolicyYaml runtime source configured = .ok v →
      parseRestrictedPolicyYaml runtime source configured.unlimitedTree = .ok v) ∧
    (∀ source v, parseRestrictedPolicyYaml runtime source configured.unlimitedTree = .ok v →
      ((∀ w, parseRestrictedPolicyYaml runtime source configured = .ok w →
          WithinTreeLimits configured.required w) ↔
        (Counted configured.required source → Contained configured.required source))) ∧
    (∀ source source' v,
      parseRestrictedPolicyYaml runtime source configured.unlimitedTree = .ok v →
      parseRestrictedPolicyYaml runtime source' configured.unlimitedTree = .ok v →
      (Counted configured.required source → Contained configured.required source) →
      (Counted configured.required source' → Contained configured.required source') →
        (parseRestrictedPolicyYaml runtime source configured = .ok v ↔
          parseRestrictedPolicyYaml runtime source' configured = .ok v)) := by
  refine ⟨fun limits lines indent depth nodes fuel => parseYamlNode_fuel lines indent depth nodes,
    fun limits fuel lines indent depth nodes r => parseYamlNode_progress,
    fun source v h => (parse_iff_counted.mp h).1, fun source v h => ?_,
    fun source source' v h h' hcontained hcontained' => ?_⟩
  · constructor
    · intro hwithin hcounted
      exact (parse_contained h).mpr (hwithin v (parse_iff_counted.mpr ⟨h, hcounted⟩))
    · intro hcontained w hw
      obtain ⟨hfree, hcounted⟩ := parse_iff_counted.mp hw
      obtain rfl := Except.ok.inj (h.symm.trans hfree)
      exact (parse_contained h).mp (hcontained hcounted)
  · have hcounted : Counted configured.required source ↔ WithinTreeLimits configured.required v :=
      Iff.trans ⟨hcontained, Contained.counted⟩ (parse_contained h)
    have hcounted' : Counted configured.required source' ↔
        WithinTreeLimits configured.required v :=
      Iff.trans ⟨hcontained', Contained.counted⟩ (parse_contained h')
    have hparse : parseRestrictedPolicyYaml runtime source configured = .ok v ↔
        WithinTreeLimits configured.required v :=
      parse_iff_counted.trans ((and_iff_right h).trans hcounted)
    have hparse' : parseRestrictedPolicyYaml runtime source' configured = .ok v ↔
        WithinTreeLimits configured.required v :=
      parse_iff_counted.trans ((and_iff_right h').trans hcounted')
    exact hparse.trans hparse'.symm

def compactShown : List (ℕ × JsString) := [(0, js "- " ++ (js "a" ++ js ": " ++ js "true"))]

def expandedShown : List (ℕ × JsString) := [(0, js "-"), (2, js "a" ++ js ": " ++ js "true")]

def nestedSample : JsValue := Json.arrayOf [.record [(js "a", .bool true)]]

def shallowLimits : ConfiguredLimits where
  maxDepth := some (.ofInt 0 zero_exact)
  maxNodes := some (.ofInt 1 one_exact)

theorem renders_nestedSample (limits : RestrictedYamlLimits)
    (hscalar : exceeds 4 limits.maxScalarLength = false) :
    Renders sampleRuntime.numberValue limits 0 compactShown (.node nestedSample) ∧
      Renders sampleRuntime.numberValue limits 0 expandedShown (.node nestedSample) := by
  have hkey : ValidKey (js "a") := ⟨by decide, by decide⟩
  have hrecord : Renders sampleRuntime.numberValue limits 2
      [(2, js "a" ++ js ": " ++ js "true")] (.node (.record [(js "a", .bool true)])) :=
    .mapping (by simp) (by decide) (.scalarEntry hkey (.bool true) hscalar .noEntries)
  exact ⟨.sequence (by simp) (.compactItem hrecord .noItems),
    .sequence (by simp) (.expandedItem hrecord .noItems)⟩

theorem compact_mapping_escapes_limits :
    parseRestrictedPolicyYaml sampleRuntime (yamlText compactShown false) shallowLimits =
        .ok nestedSample ∧
      nestedWithin shallowLimits.required.maxDepth 0 nestedSample = false ∧
      exceeds (entryCount nestedSample) shallowLimits.required.maxNodes = true ∧
      parseRestrictedPolicyYaml sampleRuntime (yamlText expandedShown false) {} =
        .ok nestedSample ∧
      (parseRestrictedPolicyYaml sampleRuntime (yamlText expandedShown false)
        shallowLimits).toOption.isNone = true := by
  have hcompact := (renders_nestedSample shallowLimits.required (by decide)).1
  have hexpanded := (renders_nestedSample (ConfiguredLimits.required {}) (by decide)).2
  refine ⟨parse_rendered hcompact ⟨?_, ?_, ?_, ?_⟩, ?_, ?_,
    parse_rendered hexpanded ⟨?_, ?_, ?_, ?_⟩, ?_⟩ <;> decide

end Source

end Aseos.Policy
