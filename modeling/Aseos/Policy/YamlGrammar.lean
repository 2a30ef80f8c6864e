import Aseos.Library.Outcome
import Aseos.Policy.Yaml

namespace Aseos.Policy

inductive Part where
  | node (v : JsValue)
  | member (text : JsString) (v : JsValue)
  | items (vs : List JsValue)
  | entries (es : Entries)

section Grammar

variable (numberValue : JsString → JsNumber) (limits : RestrictedYamlLimits)

inductive Reads : ℕ → List YamlLine → Part → Prop
  | sequence {indent lines vs} :
      vs ≠ [] → Reads indent lines (.items vs) → Reads indent lines (.node (Json.arrayOf vs))
  | mapping {indent lines es} :
      es ≠ [] → (es.map Prod.fst).Nodup → Reads indent lines (.entries es) →
      Reads indent lines (.node (.record es))
  | child {indent lines v} : Reads (indent + 2) lines (.node v) → Reads indent lines (.member [] v)
  | scalar {indent text line v} :
      text ≠ [] → parseScalar numberValue limits text line = .ok v →
      Reads indent [] (.member text v)
  | noItems {indent} : Reads indent [] (.items [])
  | nestedItem {indent line lines more v vs} :
      line.indent = indent → line.content = js "-" ∨ line.content = js "- " →
      Reads (indent + 2) lines (.node v) → Reads indent more (.items vs) →
      Reads indent (line :: (lines ++ more)) (.items (v :: vs))
  | compactItem {indent line content key text lines tail more v es vs} :
      line.indent = indent → line.content = js "- " ++ content → opensMapping content = true →
      splitMapping content line.line = .ok (key, text) → Reads (indent + 2) lines (.member text v) →
      Reads (indent + 2) tail (.entries es) → (key :: es.map Prod.fst).Nodup →
      Reads indent more (.items vs) →
      Reads indent (line :: (lines ++ tail ++ more)) (.items (.record ((key, v) :: es) :: vs))
  | scalarItem {indent line text more v vs} :
      line.indent = indent → line.content = js "- " ++ text → text ≠ [] →
      opensMapping text = false → parseScalar numberValue limits text line.line = .ok v →
      Reads indent more (.items vs) → Reads indent (line :: more) (.items (v :: vs))
  | noEntries {indent} : Reads indent [] (.entries [])
  | entry {indent line key text lines more v es} :
      line.indent = indent → startsWith "-" line.content = false →
      splitMapping line.content line.line = .ok (key, text) →
      Reads indent lines (.member text v) → Reads indent more (.entries es) →
      Reads indent (line :: (lines ++ more)) (.entries ((key, v) :: es))

end Grammar

section Lines

structure Admitted (raw : JsString) : Prop where
  noTab : raw.any (fun c => c.val == 9) = false
  even : indentation raw % 2 = 0
  supported : unsupported (raw.drop (indentation raw)) = false

theorem yamlLines_kept {raw : JsString} (hkept : ignored raw = false) {raws : List JsString}
    {index : ℕ} {lines : List YamlLine} :
    yamlLines index (raw :: raws) = .ok lines ↔
      Admitted raw ∧ ∃ rest, yamlLines (index + 1) raws = .ok rest ∧
        lines = ⟨indentation raw, raw.drop (indentation raw), index + 1⟩ :: rest := by
  rw [yamlLines, hkept, if_neg (by simp)]
  constructor
  · intro h
    split at h
    · cases h
    rename_i htab
    split at h
    · cases h
    rename_i heven
    split at h
    · cases h
    rename_i hsupported
    obtain ⟨rest, hrest, h⟩ := Except.bind_eq_ok.mp h
    exact ⟨⟨by simpa using htab, not_not.mp heven, by simpa using hsupported⟩, rest, hrest,
      (Except.ok.inj h).symm⟩
  · rintro ⟨⟨htab, heven, hsupported⟩, rest, hrest, rfl⟩
    rw [htab, heven, hsupported, if_neg (by simp), if_neg (by simp), if_neg (by simp)]
    exact Except.bind_eq_ok.mpr ⟨rest, hrest, rfl⟩

end Lines

section Soundness

variable {numberValue : JsString → JsNumber} {limits : RestrictedYamlLimits}

theorem splitMapping_key {content key text : JsString} {line : ℕ}
    (h : splitMapping content line = .ok (key, text)) : key = keyOf content := by
  unfold splitMapping at h
  split at h
  · cases h
  split at h
  · cases h
  split at h
  · cases h
  split at h
  · cases h
  exact (Prod.mk.inj (Except.ok.inj h)).1.symm

theorem entries_record (es : Entries) :
    Props.entries (es.map fun e => (Field.own e.1, e.2)) = es := by
  rw [Props.entries, List.filterMap_map]
  exact List.filterMap_some

theorem hasKey_iff {object : Entries} {key : JsString} :
    hasKey object key = true ↔ key ∈ object.map Prod.fst := by
  simp [hasKey]

theorem nodup_concat {object : Entries} {entry : JsString × JsValue}
    (h : (object.map Prod.fst).Nodup) (hkey : hasKey object entry.1 = false) :
    ((object ++ [entry]).map Prod.fst).Nodup := by
  have hfresh : entry.1 ∉ object.map Prod.fst := fun hmem => by
    rw [hasKey_iff.mpr hmem] at hkey
    cases hkey
  rw [List.map_append, List.map_singleton, List.nodup_append]
  refine ⟨h, List.nodup_singleton _, fun a ha b hb hab => ?_⟩
  rw [List.mem_singleton] at hb
  exact hfresh (hb ▸ hab ▸ ha)

theorem mergeTail_eq_ok {line : ℕ} {object es object' : Entries}
    (hobject : (object.map Prod.fst).Nodup) :
    mergeTail line object es = .ok object' ↔
      object' = object ++ es ∧ ((object ++ es).map Prod.fst).Nodup := by
  induction es generalizing object with
  | nil =>
    rw [mergeTail, List.append_nil]
    exact ⟨fun h => ⟨(Except.ok.inj h).symm, hobject⟩, fun h => congrArg _ h.1.symm⟩
  | cons entry es ih =>
    have happend : object ++ entry :: es = object ++ [entry] ++ es := by simp
    rw [mergeTail]
    cases hkey : hasKey object entry.1 with
    | true =>
      rw [if_pos rfl]
      refine ⟨nofun, fun h => ?_⟩
      have hmem := hasKey_iff.mp hkey
      have hnodup := h.2
      rw [List.map_append, List.map_cons] at hnodup
      exact absurd rfl ((List.nodup_append.mp hnodup).2.2 _ hmem _ List.mem_cons_self)
    | false =>
      rw [if_neg (by simp), ih (nodup_concat hobject hkey), happend]

theorem content_of_startsWith {content : JsString} (h : startsWith "- " content = true) :
    content = js "- " ++ content.drop 2 := by
  obtain ⟨rest, rfl⟩ := List.isPrefixOf_iff_prefix.mp h
  rfl

def SoundNode (numberValue : JsString → JsNumber) (limits : RestrictedYamlLimits)
    (node : List YamlLine → ℕ → ℕ → ℕ → Except PolicyFailure (ParseResult JsValue)) : Prop :=
  ∀ lines indent depth nodes r, node lines indent depth nodes = .ok r →
    ∃ used, lines = used ++ r.next ∧ Reads numberValue limits indent used (.node r.value)

variable {node : List YamlLine → ℕ → ℕ → ℕ → Except PolicyFailure (ParseResult JsValue)}

theorem parseMember_sound (hnode : SoundNode numberValue limits node) {scalar : JsString}
    {line indent depth nodes : ℕ} {following : List YamlLine} {r : ParseResult JsValue}
    (h : parseMember numberValue limits node scalar line following indent depth nodes = .ok r) :
    ∃ used, following = used ++ r.next ∧
      Reads numberValue limits indent used (.member scalar r.value) := by
  rw [parseMember] at h
  split at h
  · rename_i hscalar
    split at h
    · cases h
    · obtain ⟨used, hused, hreads⟩ := hnode _ _ _ _ _ h
      exact ⟨used, hused, hscalar ▸ .child hreads⟩
  · rename_i hscalar
    obtain ⟨value, hvalue, h⟩ := Except.bind_eq_ok.mp h
    obtain rfl := Except.ok.inj h
    exact ⟨[], rfl, .scalar hscalar hvalue⟩

theorem reads_record {indent : ℕ} {used : List YamlLine} {v : JsValue} {props : Props}
    (h : Reads numberValue limits indent used (.node v)) (hrecord : v.isRecord = some props) :
    ∃ es, props = es.map (fun e => (Field.own e.1, e.2)) ∧
      (es.map Prod.fst).Nodup ∧ Reads numberValue limits indent used (.entries es) := by
  cases h with
  | sequence => cases hrecord
  | @mapping _ _ es hne hnodup hentries =>
    exact ⟨es, (Option.some.inj hrecord).symm, hnodup, hentries⟩

theorem parseItem_sound (hnode : SoundNode numberValue limits node) {line : YamlLine}
    {indent depth nodes : ℕ} {following : List YamlLine} {r : ParseResult JsValue}
    (hindent : line.indent = indent)
    (hmarker : line.content = js "-" ∨ startsWith "- " line.content = true)
    (h : parseItem numberValue limits node (line.content.drop 2) line.line following indent depth
      nodes = .ok r) :
    ∃ used, following = used ++ r.next ∧ ∀ more vs, Reads numberValue limits indent more (.items vs) →
      Reads numberValue limits indent (line :: (used ++ more)) (.items (r.value :: vs)) := by
  have hcontent (hne : line.content.drop 2 ≠ []) : line.content = js "- " ++ line.content.drop 2 := by
    obtain hdash | hdash := hmarker
    · exact absurd (by rw [hdash]; rfl) hne
    · exact content_of_startsWith hdash
  rw [parseItem] at h
  split at h
  · rename_i hrest
    have hmarker : line.content = js "-" ∨ line.content = js "- " := by
      obtain hdash | hdash := hmarker
      · exact .inl hdash
      · have := content_of_startsWith hdash
        rw [hrest, List.append_nil] at this
        exact .inr this
    split at h
    · cases h
    · obtain ⟨used, hused, hreads⟩ := hnode _ _ _ _ _ h
      exact ⟨used, hused, fun more vs hmore => .nestedItem hindent hmarker hreads hmore⟩
  · rename_i hrest
    split at h
    · rename_i hopens
      obtain ⟨⟨key, text⟩, hkey, h⟩ := Except.bind_eq_ok.mp h
      obtain ⟨first, hfirst, h⟩ := Except.bind_eq_ok.mp h
      obtain ⟨used, hused, hmember⟩ := parseMember_sound hnode hfirst
      split at h
      · obtain ⟨tail, htail, h⟩ := Except.bind_eq_ok.mp h
        obtain ⟨rest, hrest', hreads⟩ := hnode _ _ _ _ _ htail
        cases hrecord : tail.value.isRecord with
        | none =>
          simp only [hrecord] at h
          cases h
        | some props =>
          simp only [hrecord] at h
          obtain ⟨es, rfl, hnodup, hentries⟩ := reads_record hreads hrecord
          obtain ⟨object, hobject, h⟩ := Except.bind_eq_ok.mp h
          obtain rfl := Except.ok.inj h
          rw [entries_record] at hobject
          obtain ⟨rfl, hkeys⟩ := (mergeTail_eq_ok (by simp)).mp hobject
          refine ⟨used ++ rest, by rw [hused, hrest', List.append_assoc], fun more vs hmore => ?_⟩
          exact .compactItem hindent (hcontent hrest) hopens hkey hmember hentries hkeys hmore
      · obtain rfl := Except.ok.inj h
        refine ⟨used, hused, fun more vs hmore => ?_⟩
        have := Reads.compactItem hindent (hcontent hrest) hopens hkey hmember .noEntries (by simp)
          hmore
        rwa [List.append_nil] at this
    · rename_i hopens
      obtain ⟨value, hvalue, h⟩ := Except.bind_eq_ok.mp h
      obtain rfl := Except.ok.inj h
      refine ⟨[], rfl, fun more vs hmore => ?_⟩
      exact .scalarItem hindent (hcontent hrest) hrest (by simpa using hopens) hvalue hmore

theorem parseItems_ne_nil {fuel indent depth nodes : ℕ} {lines : List YamlLine}
    {r : ParseResult (List JsValue)} (hindent : indentOf lines = some indent)
    (hmarker : lines.head?.any (fun line => startsWith "-" line.content) = true)
    (h : parseItems numberValue limits fuel lines indent depth nodes = .ok r) : r.value ≠ [] := by
  cases lines with
  | nil => cases hindent
  | cons line lines =>
    cases fuel with
    | zero => cases h
    | succ fuel =>
      have hfirst : ¬ (line.indent ≠ indent ∨ startsWith "-" line.content = false) := by
        rw [not_or, not_not, Bool.not_eq_false]
        exact ⟨Option.some.inj hindent, hmarker⟩
      rw [parseItems, if_neg hfirst] at h
      split at h
      · cases h
      split at h
      · cases h
      obtain ⟨item, -, h⟩ := Except.bind_eq_ok.mp h
      obtain ⟨items, -, h⟩ := Except.bind_eq_ok.mp h
      obtain rfl := Except.ok.inj h
      exact List.cons_ne_nil _ _

structure ParserSound (numberValue : JsString → JsNumber) (limits : RestrictedYamlLimits)
    (fuel : ℕ) : Prop where
  node : SoundNode numberValue limits (parseYamlNode numberValue limits fuel)
  items : ∀ lines indent depth nodes r,
    parseItems numberValue limits fuel lines indent depth nodes = .ok r →
    ∃ used, lines = used ++ r.next ∧ Reads numberValue limits indent used (.items r.value)
  entries : ∀ object lines indent depth nodes r, (object.map Prod.fst).Nodup →
    parseEntries numberValue limits fuel object lines indent depth nodes = .ok r →
    ∃ used es, lines = used ++ r.next ∧ r.value = object ++ es ∧ (r.value.map Prod.fst).Nodup ∧
      Reads numberValue limits indent used (.entries es) ∧
      (indentOf lines = some indent →
        lines.head?.any (fun line => startsWith "-" line.content) = false → es ≠ [])

theorem sound_items {fuel : ℕ} (ih : ParserSound numberValue limits fuel) {line : YamlLine}
    {lines : List YamlLine} {indent depth nodes : ℕ} {r : ParseResult (List JsValue)}
    (h : parseItems numberValue limits (fuel + 1) (line :: lines) indent depth nodes = .ok r) :
    ∃ used, line :: lines = used ++ r.next ∧
      Reads numberValue limits indent used (.items r.value) := by
  rw [parseItems] at h
  split at h
  · obtain rfl := Except.ok.inj h
    exact ⟨[], rfl, .noItems⟩
  · rename_i hfirst
    rw [not_or, not_not] at hfirst
    split at h
    · cases h
    rename_i hmarker
    split at h
    · cases h
    obtain ⟨item, hitem, h⟩ := Except.bind_eq_ok.mp h
    obtain ⟨items, hitems, h⟩ := Except.bind_eq_ok.mp h
    obtain rfl := Except.ok.inj h
    have hdash : line.content = js "-" ∨ startsWith "- " line.content = true := by
      by_contra hneither
      rw [not_or, Bool.not_eq_true] at hneither
      exact hmarker hneither
    obtain ⟨used, hused, hreads⟩ := parseItem_sound ih.node hfirst.1 hdash hitem
    obtain ⟨more, hmore, hrest⟩ := ih.items _ _ _ _ _ hitems
    refine ⟨line :: (used ++ more), ?_, hreads more _ hrest⟩
    rw [hused, hmore, List.cons_append, List.append_assoc]

theorem sound_entries {fuel : ℕ} (ih : ParserSound numberValue limits fuel) {object : Entries}
    {line : YamlLine} {lines : List YamlLine} {indent depth nodes : ℕ} {r : ParseResult Entries}
    (hobject : (object.map Prod.fst).Nodup)
    (h : parseEntries numberValue limits (fuel + 1) object (line :: lines) indent depth nodes =
      .ok r) :
    ∃ used es, line :: lines = used ++ r.next ∧ r.value = object ++ es ∧
      (r.value.map Prod.fst).Nodup ∧ Reads numberValue limits indent used (.entries es) ∧
      (line.indent = indent → startsWith "-" line.content = false → es ≠ []) := by
  rw [parseEntries] at h
  split at h
  · rename_i hstop
    obtain rfl := Except.ok.inj h
    refine ⟨[], [], rfl, by simp, hobject, .noEntries, fun hindent hkey => ?_⟩
    obtain hother | hmarker := hstop
    · exact absurd hindent hother
    · rw [hmarker] at hkey
      cases hkey
  · rename_i hfirst
    rw [not_or, not_not, Bool.not_eq_true] at hfirst
    split at h
    · cases h
    obtain ⟨⟨key, text⟩, hkey, h⟩ := Except.bind_eq_ok.mp h
    dsimp only at h
    split at h
    · cases h
    rename_i hfresh
    obtain ⟨member, hmember, h⟩ := Except.bind_eq_ok.mp h
    have hnodup : ((object ++ [(key, member.value)]).map Prod.fst).Nodup :=
      nodup_concat hobject (by simpa using hfresh)
    obtain ⟨used, hused, hreads⟩ := parseMember_sound ih.node hmember
    obtain ⟨more, es, hmore, hvalue, hkeys, hrest, -⟩ := ih.entries _ _ _ _ _ _ hnodup h
    refine ⟨line :: (used ++ more), (key, member.value) :: es, ?_, ?_, hkeys, ?_, fun _ _ => ?_⟩
    · rw [hused, hmore, List.cons_append, List.append_assoc]
    · rw [hvalue, List.append_assoc]
      rfl
    · exact .entry hfirst.1 hfirst.2 hkey hreads hrest
    · exact List.cons_ne_nil _ _

theorem parser_sound (fuel : ℕ) : ParserSound numberValue limits fuel := by
  induction fuel with
  | zero =>
    refine ⟨fun _ _ _ _ _ h => ?_, fun _ _ _ _ _ h => ?_, fun _ _ _ _ _ _ _ h => ?_⟩
    · cases h
    · cases h
    · cases h
  | succ fuel ih =>
    refine ⟨?_, ?_, ?_⟩
    · intro lines indent depth nodes r h
      rw [parseYamlNode] at h
      split at h
      · cases h
      split at h
      · cases h
      rename_i hindent
      rw [not_not] at hindent
      split at h
      · rename_i hmarker
        obtain ⟨items, hitems, h⟩ := Except.bind_eq_ok.mp h
        obtain rfl := Except.ok.inj h
        obtain ⟨used, hused, hreads⟩ := ih.items _ _ _ _ _ hitems
        exact ⟨used, hused, .sequence (parseItems_ne_nil hindent hmarker hitems) hreads⟩
      · rename_i hmarker
        obtain ⟨object, hobject, h⟩ := Except.bind_eq_ok.mp h
        obtain rfl := Except.ok.inj h
        obtain ⟨used, es, hused, hvalue, hkeys, hreads, hne⟩ :=
          ih.entries [] _ _ _ _ _ List.nodup_nil hobject
        rw [List.nil_append] at hvalue
        refine ⟨used, hused, ?_⟩
        dsimp only
        rw [hvalue] at hkeys ⊢
        exact .mapping (hne hindent (by simpa using hmarker)) hkeys hreads
    · intro lines indent depth nodes r h
      cases lines with
      | nil =>
        obtain rfl := Except.ok.inj h
        exact ⟨[], rfl, .noItems⟩
      | cons line lines => exact sound_items ih h
    · intro object lines indent depth nodes r hobject h
      cases lines with
      | nil =>
        obtain rfl := Except.ok.inj h
        exact ⟨[], [], rfl, by simp, hobject, .noEntries, nofun⟩
      | cons line lines =>
        obtain ⟨used, es, hused, hvalue, hkeys, hreads, hne⟩ := sound_entries ih hobject h
        exact ⟨used, es, hused, hvalue, hkeys, hreads,
          fun hindent hmarker => hne (Option.some.inj hindent) hmarker⟩

end Soundness

end Aseos.Policy
