import Aseos.Library.Outline
import Aseos.Policy.YamlGrammar

namespace Aseos.Policy

inductive Step where
  | item (index : ℕ)
  | key (name : JsString)

inductive Mark where
  | item
  | key (name : JsString)

def Step.mark : Step → Mark
  | .item _ => .item
  | .key name => .key name

-- A sequence marker or a key as it is written. The key of a compact item has the column of the
-- keys that continue it.
structure Token where
  column : ℕ
  mark : Mark

def lineTokens (indent : ℕ) (content : JsString) : List Token :=
  if startsWith "-" content then
    ⟨indent, .item⟩ ::
      if opensMapping (content.drop 2) then [⟨indent + 2, .key (keyOf (content.drop 2))⟩] else []
  else [⟨indent, .key (keyOf content)⟩]

def sourceTokens (source : JsString) : List Token :=
  ((rawLines source).filter fun raw => !ignored raw).flatMap fun raw =>
    lineTokens (indentation raw) (raw.drop (indentation raw))

mutual

def outline : JsValue → Forest Step
  | .array slots _ => outlineSlots 0 slots
  | .object _ props => outlineProps props
  | _ => .nil

def outlineSlots : ℕ → List (SlotKind × JsValue) → Forest Step
  | _, [] => .nil
  | index, (_, v) :: slots => .cons (.item index) (outline v) (outlineSlots (index + 1) slots)

def outlineProps : List (Field × JsValue) → Forest Step
  | [] => .nil
  | (field, v) :: props => .cons (.key field.sortKey) (outline v) (outlineProps props)

end

mutual

def entryCount : JsValue → ℕ
  | .array slots _ => slots.length + slotsEntryCount slots
  | .object _ props => props.length + propsEntryCount props
  | _ => 0

def slotsEntryCount : List (SlotKind × JsValue) → ℕ
  | [] => 0
  | (_, v) :: slots => entryCount v + slotsEntryCount slots

def propsEntryCount : List (Field × JsValue) → ℕ
  | [] => 0
  | (_, v) :: props => entryCount v + propsEntryCount props

end

mutual

theorem outline_size : ∀ v : JsValue, (outline v).size = entryCount v
  | .array slots _ => by
    rw [outline, entryCount, outlineSlots_size slots 0]
  | .object _ props => by
    rw [outline, entryCount, outlineProps_size props]
  | .undefined | .null | .bool _ | .number _ | .string _ | .foreign _ | .cycle => by
    simp [outline, entryCount, Forest.size]

theorem outlineSlots_size : ∀ (slots : List (SlotKind × JsValue)) (index : ℕ),
    (outlineSlots index slots).size = slots.length + slotsEntryCount slots
  | [], _ => rfl
  | (_, v) :: slots, index => by
    rw [outlineSlots, Forest.size, slotsEntryCount, outline_size v,
      outlineSlots_size slots (index + 1), List.length_cons]
    omega

theorem outlineProps_size : ∀ props : List (Field × JsValue),
    (outlineProps props).size = props.length + propsEntryCount props
  | [] => rfl
  | (_, v) :: props => by
    rw [outlineProps, Forest.size, propsEntryCount, outline_size v, outlineProps_size props,
      List.length_cons]
    omega

end

section Distinct

theorem outlineSlots_roots {slots : Slots} {index : ℕ} :
    ∀ step ∈ (outlineSlots index slots).roots, ∃ i, index ≤ i ∧ step = .item i := by
  induction slots generalizing index with
  | nil => nofun
  | cons s slots ih =>
    rw [outlineSlots, Forest.roots, List.forall_mem_cons]
    refine ⟨⟨index, le_rfl, rfl⟩, fun step hstep => ?_⟩
    obtain ⟨i, hi, rfl⟩ := ih step hstep
    exact ⟨i, by omega, rfl⟩

theorem outlineSlots_distinct {slots : Slots} (h : ∀ s ∈ slots, (outline s.2).Distinct)
    (index : ℕ) : (outlineSlots index slots).Distinct := by
  induction slots generalizing index with
  | nil => trivial
  | cons s slots ih =>
    obtain ⟨hs, hslots⟩ := List.forall_mem_cons.mp h
    refine ⟨fun hmem => ?_, hs, ih hslots (index + 1)⟩
    obtain ⟨i, hi, hstep⟩ := outlineSlots_roots _ hmem
    rw [Step.item.injEq] at hstep
    omega

theorem outlineProps_roots (props : Props) :
    (outlineProps props).roots = (props.map fun p => p.1.sortKey).map .key := by
  induction props with
  | nil => rfl
  | cons p props ih => rw [outlineProps, Forest.roots, ih, List.map_cons, List.map_cons]

theorem outlineProps_distinct {props : Props} (hkeys : (props.map fun p => p.1.sortKey).Nodup)
    (h : ∀ p ∈ props, (outline p.2).Distinct) : (outlineProps props).Distinct := by
  induction props with
  | nil => trivial
  | cons p props ih =>
    obtain ⟨hp, hprops⟩ := List.forall_mem_cons.mp h
    obtain ⟨hkey, hkeys⟩ := List.nodup_cons.mp hkeys
    refine ⟨?_, hp, ih hkeys hprops⟩
    rw [outlineProps_roots, List.mem_map]
    rintro ⟨key, hmem, hstep⟩
    rw [Step.key.injEq] at hstep
    subst hstep
    exact hkey hmem

end Distinct

section Places

variable {numberValue : JsString → JsNumber} {limits : RestrictedYamlLimits}

def Sits (indent : ℕ) (token : Token) (path : List Step) : Prop :=
  ∃ parent step, path = parent ++ [step] ∧ token.mark = step.mark ∧
    token.column = indent + 2 * parent.length

theorem Sits.under {indent : ℕ} {token : Token} {path : List Step}
    (h : Sits (indent + 2) token path) (step : Step) : Sits indent token (step :: path) := by
  obtain ⟨parent, last, rfl, hmark, hcolumn⟩ := h
  refine ⟨step :: parent, last, rfl, hmark, ?_⟩
  rw [hcolumn, List.length_cons]
  omega

theorem sits_cons {indent : ℕ} {mark : Mark} {tokens tokens' : List Token} {step : Step}
    {children siblings : Forest Step} (hmark : mark = step.mark)
    (hchildren : List.Forall₂ (Sits (indent + 2)) tokens children.paths)
    (hsiblings : List.Forall₂ (Sits indent) tokens' siblings.paths) :
    List.Forall₂ (Sits indent) (⟨indent, mark⟩ :: (tokens ++ tokens'))
      (Forest.cons step children siblings).paths := by
  refine .cons ⟨[], step, rfl, hmark, rfl⟩ (List.rel_append ?_ hsiblings)
  exact List.forall₂_map_right_iff.mpr (hchildren.imp fun _ _ h => h.under step)

def written (lines : List YamlLine) : List Token :=
  lines.flatMap fun line => lineTokens line.indent line.content

def itemsOutline (index : ℕ) (vs : List JsValue) : Forest Step :=
  outlineSlots index (vs.map fun v => (.data, v))

def entriesOutline (es : Entries) : Forest Step :=
  outlineProps (es.map fun e => (Field.own e.1, e.2))

def Part.Written (indent : ℕ) (tokens : List Token) : Part → Prop
  | .node v => List.Forall₂ (Sits indent) tokens (outline v).paths
  | .member _ v => List.Forall₂ (Sits (indent + 2)) tokens (outline v).paths
  | .items vs => ∀ index, List.Forall₂ (Sits indent) tokens (itemsOutline index vs).paths
  | .entries es => List.Forall₂ (Sits indent) tokens (entriesOutline es).paths

theorem outline_scalar {text : JsString} {line : ℕ} {v : JsValue}
    (h : parseScalar numberValue limits text line = .ok v) : outline v = .nil := by
  unfold parseScalar at h
  repeat' split at h
  all_goals
    first
    | cases h; done
    | obtain rfl := Except.ok.inj h
      rfl

theorem lineTokens_marker {content : JsString} (indent : ℕ)
    (h : content = js "-" ∨ content = js "- ") : lineTokens indent content = [⟨indent, .item⟩] := by
  obtain rfl | rfl := h <;> rfl

theorem lineTokens_compact {content rest key text : JsString} {line : ℕ} (indent : ℕ)
    (hcontent : content = js "- " ++ rest) (hopens : opensMapping rest = true)
    (hkey : splitMapping rest line = .ok (key, text)) :
    lineTokens indent content = [⟨indent, .item⟩, ⟨indent + 2, .key key⟩] := by
  have hdrop : content.drop 2 = rest := by
    rw [hcontent]
    rfl
  have hdash : startsWith "-" content = true := by
    rw [hcontent]
    rfl
  rw [lineTokens, if_pos hdash, hdrop, if_pos hopens, splitMapping_key hkey]

theorem lineTokens_scalar {content text : JsString} (indent : ℕ)
    (hcontent : content = js "- " ++ text) (hopens : opensMapping text = false) :
    lineTokens indent content = [⟨indent, .item⟩] := by
  have hdrop : content.drop 2 = text := by
    rw [hcontent]
    rfl
  have hdash : startsWith "-" content = true := by
    rw [hcontent]
    rfl
  rw [lineTokens, if_pos hdash, hdrop, hopens]
  rfl

theorem lineTokens_entry {content key text : JsString} {line : ℕ} (indent : ℕ)
    (hdash : startsWith "-" content = false) (hkey : splitMapping content line = .ok (key, text)) :
    lineTokens indent content = [⟨indent, .key key⟩] := by
  rw [lineTokens, hdash, splitMapping_key hkey]
  rfl

theorem Reads.written {indent : ℕ} {lines : List YamlLine} {part : Part}
    (h : Reads numberValue limits indent lines part) : part.Written indent (written lines) := by
  induction h with
  | sequence _ _ ih => exact ih 0
  | mapping _ _ _ ih => exact ih
  | child _ ih => exact ih
  | scalar _ hvalue =>
    rw [Part.Written, outline_scalar hvalue]
    exact .nil
  | noItems => exact fun _ => .nil
  | @nestedItem indent line lines more v vs hindent hmarker _ _ ihv ihvs =>
    intro index
    subst hindent
    have htokens := lineTokens_marker line.indent hmarker
    rw [Policy.written, List.flatMap_cons, List.flatMap_append, htokens, List.singleton_append]
    exact sits_cons rfl ihv (ihvs (index + 1))
  | @compactItem indent line content key text lines tail more v es vs hindent hcontent hopens hkey
      _ _ _ _ ihv ihes ihvs =>
    intro index
    subst hindent
    have htokens := lineTokens_compact line.indent hcontent hopens hkey
    rw [Policy.written, List.flatMap_cons, List.flatMap_append, List.flatMap_append, htokens,
      List.cons_append, List.singleton_append, ← List.cons_append]
    exact sits_cons rfl (sits_cons rfl ihv ihes) (ihvs (index + 1))
  | @scalarItem indent line text more v vs hindent hcontent _ hopens hvalue _ ihvs =>
    intro index
    subst hindent
    have htokens := lineTokens_scalar line.indent hcontent hopens
    rw [Policy.written, List.flatMap_cons, htokens, itemsOutline, List.map_cons, outlineSlots,
      outline_scalar hvalue]
    exact sits_cons rfl .nil (ihvs (index + 1))
  | noEntries => exact .nil
  | @entry indent line key text lines more v es hindent hdash hkey _ _ ihv ihes =>
    subst hindent
    have htokens := lineTokens_entry line.indent hdash hkey
    rw [Policy.written, List.flatMap_cons, List.flatMap_append, htokens, List.singleton_append]
    exact sits_cons rfl ihv ihes

def Part.Distinct : Part → Prop
  | .node v | .member _ v => (outline v).Distinct
  | .items vs => ∀ v ∈ vs, (outline v).Distinct
  | .entries es => ∀ e ∈ es, (outline e.2).Distinct

theorem outline_record_distinct {es : Entries} (hkeys : (es.map Prod.fst).Nodup)
    (h : ∀ e ∈ es, (outline e.2).Distinct) : (outline (.record es)).Distinct := by
  refine outlineProps_distinct ?_ fun p hp => ?_
  · rw [List.map_map]
    exact hkeys
  · obtain ⟨e, he, rfl⟩ := List.mem_map.mp hp
    exact h e he

theorem Reads.distinct {indent : ℕ} {lines : List YamlLine} {part : Part}
    (h : Reads numberValue limits indent lines part) : part.Distinct := by
  induction h with
  | sequence _ _ ih =>
    refine outlineSlots_distinct (fun s hs => ?_) 0
    obtain ⟨v, hv, rfl⟩ := List.mem_map.mp hs
    exact ih v hv
  | mapping _ hkeys _ ih => exact outline_record_distinct hkeys ih
  | child _ ih => exact ih
  | scalar _ hvalue =>
    rw [Part.Distinct, outline_scalar hvalue]
    trivial
  | noItems => nofun
  | nestedItem _ _ _ _ ihv ihvs => exact List.forall_mem_cons.mpr ⟨ihv, ihvs⟩
  | compactItem _ _ _ _ _ _ hkeys _ ihv ihes ihvs =>
    refine List.forall_mem_cons.mpr ⟨outline_record_distinct hkeys ?_, ihvs⟩
    exact List.forall_mem_cons.mpr ⟨ihv, ihes⟩
  | scalarItem _ _ _ _ hvalue _ ihvs =>
    refine List.forall_mem_cons.mpr ⟨?_, ihvs⟩
    rw [outline_scalar hvalue]
    trivial
  | noEntries => nofun
  | entry _ _ _ _ _ ihv ihes => exact List.forall_mem_cons.mpr ⟨ihv, ihes⟩

end Places

section Source

variable {runtime : JsonRuntime}

theorem written_yamlLines {raws : List JsString} {index : ℕ} {lines : List YamlLine}
    (h : yamlLines index raws = .ok lines) :
    written lines = (raws.filter fun raw => !ignored raw).flatMap fun raw =>
      lineTokens (indentation raw) (raw.drop (indentation raw)) := by
  induction raws generalizing index lines with
  | nil =>
    obtain rfl := Except.ok.inj h
    rfl
  | cons raw raws ih =>
    cases hignored : ignored raw with
    | true =>
      rw [yamlLines, if_pos hignored] at h
      rw [List.filter_cons_of_neg (by simp [hignored])]
      exact ih h
    | false =>
      obtain ⟨-, rest, hrest, rfl⟩ := (yamlLines_kept hignored).mp h
      rw [List.filter_cons_of_pos (by simp [hignored]), List.flatMap_cons, ← ih hrest]
      rfl

theorem reads_of_parse {source : JsString} {limits : ConfiguredLimits} {v : JsValue}
    (h : parseRestrictedPolicyYaml runtime source limits = .ok v) :
    ∃ lines, yamlLines 0 (rawLines source) = .ok lines ∧
      Reads runtime.numberValue limits.required 0 lines (.node v) := by
  unfold parseRestrictedPolicyYaml parseLimited at h
  split at h
  · cases h
  split at h
  · cases h
  split at h
  · cases h
  obtain ⟨lines, hlines, h⟩ := Except.bind_eq_ok.mp h
  split at h
  · cases h
  obtain ⟨parsed, hparsed, h⟩ := Except.bind_eq_ok.mp h
  split at h
  · cases h
  rename_i hnext
  rw [not_not] at hnext
  obtain ⟨_, -, h⟩ := Except.bind_eq_ok.mp h
  obtain rfl := Except.ok.inj h
  obtain ⟨used, hused, hreads⟩ := (parser_sound _).node _ _ _ _ _ hparsed
  rw [hnext, List.append_nil] at hused
  exact ⟨lines, hlines, hused ▸ hreads⟩

structure Placement (v : JsValue) (tokens : List Token) (placed : List (Token × List Step)) :
    Prop where
  tokens : placed.map Prod.fst = tokens
  entries : placed.map Prod.snd = (outline v).paths
  under : ∀ before token path after, placed = before ++ (token, path) :: after →
    ∃ parent step, path = parent ++ [step] ∧ token.mark = step.mark ∧
      (token.column = 0 ∧ parent = [] ∨
        ∃ earlier opener between, before = earlier ++ (opener, parent) :: between ∧
          opener.column + 2 = token.column ∧ ∀ other ∈ between, token.column ≤ other.1.column)
  once : ∀ before token parent step middle other step' after,
    placed = before ++ (token, parent ++ [step]) ::
      (middle ++ (other, parent ++ [step']) :: after) →
    ∀ key, token.mark = .key key → other.mark ≠ .key key

theorem Step.eq_key {step : Step} {name : JsString} (h : step.mark = .key name) :
    step = .key name := by
  cases step with
  | item index => cases h
  | key other => exact congrArg Step.key (Mark.key.inj h)

theorem placement {v : JsValue} {tokens : List Token}
    (hsits : List.Forall₂ (Sits 0) tokens (outline v).paths)
    (hdistinct : (outline v).Distinct) :
    Placement v tokens (tokens.zip (outline v).paths) := by
  have hlength := hsits.length_eq
  have hsit (token : Token) (path : List Step)
      (hmem : (token, path) ∈ tokens.zip (outline v).paths) : Sits 0 token path :=
    (List.forall₂_iff_zip.mp hsits).2 hmem
  have hentries : (tokens.zip (outline v).paths).map Prod.snd = (outline v).paths :=
    List.map_snd_zip hlength.ge
  refine ⟨List.map_fst_zip hlength.le, hentries, ?_, ?_⟩
  · intro before token path after hsplit
    obtain ⟨parent, step, rfl, hmark, hcolumn⟩ := hsit token path (by simp [hsplit])
    refine ⟨parent, step, rfl, hmark, ?_⟩
    have hpaths : (outline v).paths =
        before.map Prod.snd ++ (parent ++ [step]) :: after.map Prod.snd := by
      rw [← hentries, hsplit, List.map_append, List.map_cons]
    obtain hroot | ⟨earlier, between, hbefore, hdeeper⟩ :=
      Forest.outlined_paths (outline v) _ _ _ hpaths
    · rw [List.length_append, List.length_singleton] at hroot
      have hnil : parent = [] := List.length_eq_zero_iff.mp (by omega)
      exact .inl ⟨by rw [hcolumn, hnil]; rfl, hnil⟩
    · rw [List.dropLast_concat] at hbefore
      obtain ⟨first, rest, rfl, rfl, hrest⟩ := List.map_eq_append_iff.mp hbefore
      obtain ⟨opener, middle, rfl, rfl, rfl⟩ := List.map_eq_cons_iff.mp hrest
      refine .inr ⟨first, opener.1, middle, rfl, ?_, fun other hother => ?_⟩
      · obtain ⟨above, last, habove, -, hopener⟩ := hsit opener.1 opener.2 (by simp [hsplit])
        rw [hcolumn, hopener, habove, List.length_append, List.length_singleton]
        omega
      · obtain ⟨above, last, habove, -, hcolumn'⟩ :=
          hsit other.1 other.2 (by rw [hsplit]; simp [hother])
        have hlonger := hdeeper other.2 (List.mem_map_of_mem hother)
        rw [habove, List.length_append, List.length_append, List.length_singleton,
          List.length_singleton] at hlonger
        rw [hcolumn, hcolumn']
        omega
  · intro before token parent step middle other step' after hsplit key htoken hother
    have hnodup := hdistinct.paths_nodup
    rw [← hentries, hsplit] at hnodup
    have hstep (token : Token) (step : Step) (hmark : token.mark = .key key)
        (hmem : (token, parent ++ [step]) ∈ tokens.zip (outline v).paths) : step = .key key := by
      obtain ⟨above, last, habove, hlast, -⟩ := hsit token _ hmem
      obtain ⟨-, rfl⟩ := List.append_singleton_inj.mp habove
      exact Step.eq_key (hlast ▸ hmark)
    obtain rfl := hstep token step htoken (by simp [hsplit])
    obtain rfl := hstep other step' hother (by simp [hsplit])
    simp [List.nodup_append] at hnodup

theorem restricted_yaml_keeps_lines {source : JsString} {limits : ConfiguredLimits} {v : JsValue}
    (h : parseRestrictedPolicyYaml runtime source limits = .ok v) :
    entryCount v = (sourceTokens source).length ∧
      ∃ placed, Placement v (sourceTokens source) placed := by
  obtain ⟨lines, hlines, hreads⟩ := reads_of_parse h
  have hsits : List.Forall₂ (Sits 0) (sourceTokens source) (outline v).paths := by
    rw [sourceTokens, ← written_yamlLines hlines]
    exact hreads.written
  refine ⟨?_, _, placement hsits hreads.distinct⟩
  rw [← outline_size, ← Forest.paths_length, hsits.length_eq]

def sampleSource : JsString :=
  js "rules:\n  - effect: \"DENY\"\n    # a comment\n    when: null\n  -\n    - true\n"

theorem sample_lines_kept :
    ∃ v, parseRestrictedPolicyYaml sampleRuntime sampleSource {} = .ok v ∧ entryCount v = 6 := by
  have hparsed : (parseRestrictedPolicyYaml sampleRuntime sampleSource {}).toOption.isSome = true := by
    decide +kernel
  obtain ⟨v, hv⟩ := Option.isSome_iff_exists.mp hparsed
  have hok := Except.toOption_eq_some.mp hv
  obtain ⟨hcount, -⟩ := restricted_yaml_keeps_lines hok
  exact ⟨v, hok, hcount.trans (by decide +kernel)⟩

end Source

end Aseos.Policy
