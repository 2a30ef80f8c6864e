import Aseos.Policy.YamlLimits
import Mathlib.Logic.Relation

namespace Aseos.Policy

inductive LineEnd where
  | lf
  | crLf

def LineEnd.text : LineEnd → JsString
  | .lf => [10]
  | .crLf => [13, 10]

def joinLines (ending : LineEnd) (raws : List JsString) : JsString :=
  List.intercalate ending.text raws

def SingleLine (raw : JsString) : Prop := ∀ c ∈ raw, c.val ≠ 10 ∧ c.val ≠ 13

instance (raw : JsString) : Decidable (SingleLine raw) :=
  decidable_of_iff (raw.all fun c => c.val != 10 && c.val != 13) (by simp [SingleLine])

inductive Relayout : List JsString → List JsString → Prop
  | nil : Relayout [] []
  | keep {raw raws raws'} : Relayout raws raws' → Relayout (raw :: raws) (raw :: raws')
  | ignoredLine {raw raws raws'} :
      SingleLine raw → ignored raw = true → Relayout raws raws' → Relayout raws (raw :: raws')
  | expanded {margin rest raws raws'} :
      (∀ c ∈ margin, CodeUnit.isSpace c = true) → opensMapping rest = true → Relayout raws raws' →
      Relayout ((margin ++ (js "- " ++ rest)) :: raws)
        ((margin ++ js "-") :: (margin ++ (js "  " ++ rest)) :: raws')

section Ends

theorem replaceCrLf_append {raw : JsString} (h : SingleLine raw) (text s : JsString) :
    replaceCrLf text (raw ++ s) = raw ++ replaceCrLf text s := by
  induction raw with
  | nil => rfl
  | cons c raw ih =>
    obtain ⟨hc, hraw⟩ := List.forall_mem_cons.mp h
    rw [List.cons_append, List.cons_append, ← ih hraw]
    cases hs : raw ++ s with
    | nil => rfl
    | cons d s => rw [replaceCrLf, if_neg fun hpair => hc.2 hpair.1]

theorem replaceCrLf_joined {raws : List JsString} (h : ∀ raw ∈ raws, SingleLine raw)
    (text : JsString) : replaceCrLf text (joinLines .crLf raws) = List.intercalate text raws := by
  induction raws with
  | nil => rfl
  | cons raw raws ih =>
    obtain ⟨hraw, hraws⟩ := List.forall_mem_cons.mp h
    cases raws with
    | nil =>
      rw [joinLines, List.intercalate_singleton, List.intercalate_singleton]
      have hend := replaceCrLf_append hraw text []
      rwa [List.append_nil, replaceCrLf, List.append_nil] at hend
    | cons next raws =>
      rw [joinLines, List.intercalate_cons_cons, List.intercalate_cons_cons, List.append_assoc,
        replaceCrLf_append hraw, List.append_assoc, ← ih hraws]
      rfl

theorem no_return {raws : List JsString} (h : ∀ raw ∈ raws, SingleLine raw) :
    ∀ c ∈ joinLines .lf raws, c.val ≠ 13 := by
  intro c hc
  obtain hfeed | ⟨raw, hraw, hmem⟩ := mem_intercalate hc
  · obtain rfl := List.mem_singleton.mp hfeed
    decide
  · exact (h raw hraw c hmem).2

theorem rawLines_joinLines {raws : List JsString} (h : ∀ raw ∈ raws, SingleLine raw)
    (hne : raws ≠ []) (ending : LineEnd) : rawLines (joinLines ending raws) = raws := by
  have hfeed : ∀ raw ∈ raws, (10 : CodeUnit) ∉ raw := fun raw hraw hmem => (h raw hraw 10 hmem).1 rfl
  have hreplaced : replaceCrLf (js "\n") (joinLines ending raws) = List.intercalate [10] raws := by
    cases ending with
    | lf => exact replaceCrLf_plain (no_return h) _
    | crLf => exact replaceCrLf_joined h _
  rw [rawLines, hreplaced]
  exact List.splitOn_intercalate 10 hfeed hne

theorem not_mixed {raws : List JsString} (h : ∀ raw ∈ raws, SingleLine raw) (ending : LineEnd) :
    mixedLineEnds (joinLines ending raws) = false := by
  cases ending with
  | lf => exact not_mixed_of_no_return (no_return h)
  | crLf =>
    have hunits : ∀ c ∈ replaceCrLf [] (joinLines .crLf raws), c.val ≠ 10 ∧ c.val ≠ 13 := by
      intro c hc
      rw [replaceCrLf_joined h] at hc
      obtain hnone | ⟨raw, hraw, hmem⟩ := mem_intercalate hc
      · cases hnone
      · exact h raw hraw c hmem
    have hreturn : (replaceCrLf [] (joinLines .crLf raws)).any (fun c => c.val == 13) = false :=
      List.any_eq_false.mpr fun c hc hval => (hunits c hc).2 (beq_iff_eq.mp hval)
    have hfeed : (replaceCrLf [] (joinLines .crLf raws)).any (fun c => c.val == 10) = false :=
      List.any_eq_false.mpr fun c hc hval => (hunits c hc).1 (beq_iff_eq.mp hval)
    rw [mixedLineEnds, hreturn, hfeed, Bool.and_false]
    rfl

def Lined (ending : LineEnd) (source : JsString) : Prop :=
  ∃ raws, raws ≠ [] ∧ (∀ raw ∈ raws, SingleLine raw) ∧ joinLines ending raws = source

theorem Lined.nil (ending : LineEnd) : Lined ending [] :=
  ⟨[[]], by simp, by simp [SingleLine], rfl⟩

theorem Lined.unit {ending : LineEnd} {source : JsString} (h : Lined ending source) {c : CodeUnit}
    (hc : c.val ≠ 10 ∧ c.val ≠ 13) : Lined ending (c :: source) := by
  obtain ⟨raws, hne, hraws, rfl⟩ := h
  cases raws with
  | nil => exact absurd rfl hne
  | cons raw raws =>
    obtain ⟨hraw, hraws⟩ := List.forall_mem_cons.mp hraws
    refine ⟨(c :: raw) :: raws, List.cons_ne_nil _ _,
      List.forall_mem_cons.mpr ⟨List.forall_mem_cons.mpr ⟨hc, hraw⟩, hraws⟩, ?_⟩
    cases raws with
    | nil => rw [joinLines, joinLines, List.intercalate_singleton, List.intercalate_singleton]
    | cons next raws =>
      rw [joinLines, joinLines, List.intercalate_cons_cons, List.intercalate_cons_cons]
      rfl

theorem Lined.ended {ending : LineEnd} {source : JsString} (h : Lined ending source) :
    Lined ending (ending.text ++ source) := by
  obtain ⟨raws, hne, hraws, rfl⟩ := h
  refine ⟨[] :: raws, List.cons_ne_nil _ _, List.forall_mem_cons.mpr ⟨nofun, hraws⟩, ?_⟩
  rw [joinLines, List.intercalate_cons_of_ne_nil hne]
  rfl

theorem lined_lf {source : JsString} (h : ∀ c ∈ source, c.val ≠ 13) : Lined .lf source := by
  induction source with
  | nil => exact .nil .lf
  | cons c source ih =>
    obtain ⟨hc, hsource⟩ := List.forall_mem_cons.mp h
    by_cases hfeed : c.val = 10
    · obtain rfl : c = 10 := Fin.ext hfeed
      exact (ih hsource).ended
    · exact (ih hsource).unit ⟨hfeed, hc⟩

theorem lined_crLf {source : JsString}
    (h : ∀ c ∈ replaceCrLf [] source, c.val ≠ 10 ∧ c.val ≠ 13) : Lined .crLf source := by
  induction source using replaceCrLf.induct with
  | case1 => exact .nil .crLf
  | case2 c => exact (Lined.nil .crLf).unit (h c List.mem_cons_self)
  | case3 c d s hpair ih =>
    rw [replaceCrLf, if_pos hpair] at h
    obtain rfl : c = 13 := Fin.ext hpair.1
    obtain rfl : d = 10 := Fin.ext hpair.2
    exact (ih h).ended
  | case4 c d s hpair ih =>
    rw [replaceCrLf, if_neg hpair] at h
    obtain ⟨hc, hs⟩ := List.forall_mem_cons.mp h
    exact (ih hs).unit hc

theorem includes_crLf {source : JsString} (h : source.includes (js "\r\n") = false)
    (text : JsString) : replaceCrLf text source = source := by
  induction source using replaceCrLf.induct with
  | case1 => rfl
  | case2 c => rfl
  | case3 c d s hpair ih =>
    obtain rfl : c = 13 := Fin.ext hpair.1
    obtain rfl : d = 10 := Fin.ext hpair.2
    rw [JsString.includes, List.tails_cons, List.any_cons, Bool.or_eq_false_iff] at h
    cases h.1
  | case4 c d s hpair ih =>
    rw [JsString.includes, List.tails_cons, List.any_cons, Bool.or_eq_false_iff] at h
    rw [replaceCrLf, if_neg hpair, ih h.2]

theorem lined_of_not_mixed {source : JsString} (h : mixedLineEnds source = false) :
    ∃ ending, Lined ending source := by
  rw [mixedLineEnds, Bool.or_eq_false_iff, Bool.and_eq_false_iff] at h
  obtain ⟨hreturn, hpairs | hfeed⟩ := h
  · rw [includes_crLf hpairs] at hreturn
    exact ⟨.lf, lined_lf fun c hc hval => List.any_eq_false.mp hreturn c hc (beq_iff_eq.mpr hval)⟩
  · exact ⟨.crLf, lined_crLf fun c hc =>
      ⟨fun hval => List.any_eq_false.mp hfeed c hc (beq_iff_eq.mpr hval),
        fun hval => List.any_eq_false.mp hreturn c hc (beq_iff_eq.mpr hval)⟩⟩

end Ends

section Lines

theorem dash_units : js "-" = [45] := rfl

theorem spaces_units : js "  " = [32, 32] := rfl

theorem Relayout.singleLines {raws raws' : List JsString} (h : Relayout raws raws')
    (hraws : ∀ raw ∈ raws, SingleLine raw) : ∀ raw ∈ raws', SingleLine raw := by
  induction h with
  | nil => exact hraws
  | keep _ ih =>
    obtain ⟨hraw, hraws⟩ := List.forall_mem_cons.mp hraws
    exact List.forall_mem_cons.mpr ⟨hraw, ih hraws⟩
  | ignoredLine hraw _ _ ih => exact List.forall_mem_cons.mpr ⟨hraw, ih hraws⟩
  | expanded _ _ _ ih =>
    obtain ⟨hraw, hraws⟩ := List.forall_mem_cons.mp hraws
    obtain ⟨hmargin, hcontent⟩ := List.forall_mem_append.mp hraw
    obtain ⟨-, hrest⟩ := List.forall_mem_append.mp hcontent
    have hdash : SingleLine (js "-") := by simp [SingleLine, dash_units]
    have hspaces : SingleLine (js "  ") := by simp [SingleLine, spaces_units]
    refine List.forall_mem_cons.mpr ⟨?_, List.forall_mem_cons.mpr ⟨?_, ih hraws⟩⟩
    · exact List.forall_mem_append.mpr ⟨hmargin, hdash⟩
    · exact List.forall_mem_append.mpr ⟨hmargin, List.forall_mem_append.mpr ⟨hspaces, hrest⟩⟩

theorem Relayout.ne_nil {raws raws' : List JsString} (h : Relayout raws raws') (hne : raws ≠ []) :
    raws' ≠ [] := by
  cases h with
  | nil => exact hne
  | keep => exact List.cons_ne_nil _ _
  | ignoredLine => exact List.cons_ne_nil _ _
  | expanded => exact List.cons_ne_nil _ _

inductive Reflow : List YamlLine → List YamlLine → Prop
  | nil : Reflow [] []
  | keep {line line' lines lines'} :
      line'.shown = line.shown → Reflow lines lines' → Reflow (line :: lines) (line' :: lines')
  | expand {line marker first rest lines lines'} :
      line.content = js "- " ++ rest → opensMapping rest = true →
      marker.shown = (line.indent, js "-") → first.shown = (line.indent + 2, rest) →
      Reflow lines lines' → Reflow (line :: lines) (marker :: first :: lines')

theorem Reflow.append {lines more relaid : List YamlLine} (h : Reflow (lines ++ more) relaid) :
    ∃ lines' more', relaid = lines' ++ more' ∧ Reflow lines lines' ∧ Reflow more more' := by
  induction lines generalizing relaid with
  | nil => exact ⟨[], relaid, rfl, .nil, h⟩
  | cons line lines ih =>
    cases h with
    | keep hshown hrest =>
      obtain ⟨lines', more', rfl, hlines, hmore⟩ := ih hrest
      exact ⟨_ :: lines', more', rfl, .keep hshown hlines, hmore⟩
    | expand hcontent hopens hmarker hfirst hrest =>
      obtain ⟨lines', more', rfl, hlines, hmore⟩ := ih hrest
      exact ⟨_ :: _ :: lines', more', rfl, .expand hcontent hopens hmarker hfirst hlines, hmore⟩

theorem Reflow.kept {line : YamlLine} {lines relaid : List YamlLine}
    (h : Reflow (line :: lines) relaid)
    (hcompact : ∀ rest, line.content = js "- " ++ rest → opensMapping rest = false) :
    ∃ line' lines', relaid = line' :: lines' ∧ line'.indent = line.indent ∧
      line'.content = line.content ∧ Reflow lines lines' := by
  cases h with
  | @keep _ line' _ lines' hshown hrest =>
    obtain ⟨hindent, hcontent⟩ := Prod.mk.inj hshown
    exact ⟨line', lines', rfl, hindent, hcontent, hrest⟩
  | expand hcontent hopens =>
    rw [hcompact _ hcontent] at hopens
    cases hopens

theorem splitMapping_line {content : JsString} {line line' : ℕ} {entry : JsString × JsString}
    (h : splitMapping content line = .ok entry) : splitMapping content line' = .ok entry := by
  unfold splitMapping at h ⊢
  split at h
  · cases h
  split at h
  · cases h
  rename_i hempty
  split at h
  · cases h
  rename_i hsafe
  split at h
  · cases h
  rename_i hspace
  rw [if_neg hempty, if_neg hsafe, if_neg hspace]
  exact h

theorem starts_of_opensMapping {content : JsString} (h : opensMapping content = true) :
    ∃ c rest, content = c :: rest ∧ Pattern.isLetter c = true := by
  cases content with
  | nil => cases h
  | cons c rest => exact ⟨c, rest, rfl, (Bool.and_eq_true_iff.mp h).1⟩

theorem noDash_of_opensMapping {content : JsString} (h : opensMapping content = true) :
    startsWith "-" content = false := by
  obtain ⟨c, rest, rfl, hletter⟩ := starts_of_opensMapping h
  rw [isLetter_iff] at hletter
  change ((45 == c) && List.isPrefixOf [] rest) = false
  rw [beq_false_of_ne fun heq => by subst heq; revert hletter; decide, Bool.false_and]

variable {numberValue : JsString → JsNumber} {limits : RestrictedYamlLimits}

theorem Reads.reflow {indent : ℕ} {lines lines' : List YamlLine} {part : Part}
    (h : Reads numberValue limits indent lines part) (hrelaid : Reflow lines lines') :
    Reads numberValue limits indent lines' part := by
  induction h generalizing lines' with
  | sequence hne _ ih => exact .sequence hne (ih hrelaid)
  | mapping hne hkeys _ ih => exact .mapping hne hkeys (ih hrelaid)
  | child _ ih => exact .child (ih hrelaid)
  | scalar hne hvalue =>
    cases hrelaid
    exact .scalar hne hvalue
  | noItems =>
    cases hrelaid
    exact .noItems
  | nestedItem hindent hmarker _ _ ihv ihvs =>
    obtain ⟨line, relaid, rfl, hindent', hcontent', hrest⟩ := hrelaid.kept (by
      intro rest hrest
      obtain hdash | hmarker := hmarker
      · cases hdash.symm.trans hrest
      · obtain rfl : rest = [] := List.append_right_eq_self.mp (hrest.symm.trans hmarker)
        rfl)
    obtain ⟨lines, more, rfl, hlines, hmore⟩ := hrest.append
    exact .nestedItem (hindent'.trans hindent) (by rwa [hcontent']) (ihv hlines) (ihvs hmore)
  | @compactItem indent line content key text lines tail more v es vs hindent hcontent hopens hkey
      _ _ hkeys _ ihv ihes ihvs =>
    cases hrelaid with
    | @keep _ line' _ relaid hshown hrest =>
      obtain ⟨hindent', hcontent'⟩ := Prod.mk.inj hshown
      obtain ⟨block, more, rfl, hblock, hmore⟩ := hrest.append
      obtain ⟨lines, tail, rfl, hlines, htail⟩ := hblock.append
      exact .compactItem (hindent'.trans hindent) (hcontent'.trans hcontent) hopens
        (splitMapping_line hkey) (ihv hlines) (ihes htail) hkeys (ihvs hmore)
    | @expand _ marker first rest _ relaid hcontent' _ hmarker hfirst hrest =>
      obtain rfl : content = rest := List.append_cancel_left (hcontent.symm.trans hcontent')
      obtain ⟨hindent₁, hcontent₁⟩ := Prod.mk.inj hmarker
      obtain ⟨hindent₂, hcontent₂⟩ := Prod.mk.inj hfirst
      obtain ⟨block, more, rfl, hblock, hmore⟩ := hrest.append
      obtain ⟨lines, tail, rfl, hlines, htail⟩ := hblock.append
      have hentry : Reads numberValue limits (indent + 2) (first :: (lines ++ tail))
          (.entries ((key, v) :: es)) := by
        refine .entry (hindent₂.trans (by rw [hindent])) ?_ ?_ (ihv hlines) (ihes htail)
        · rw [hcontent₂]
          exact noDash_of_opensMapping hopens
        · rw [hcontent₂]
          exact splitMapping_line hkey
      exact .nestedItem (hindent₁.trans hindent) (.inl hcontent₁)
        (.mapping (List.cons_ne_nil _ _) (by rwa [List.map_cons]) hentry) (ihvs hmore)
  | scalarItem hindent hcontent hne hopens hvalue _ ihvs =>
    obtain ⟨line, relaid, rfl, hindent', hcontent', hrest⟩ := hrelaid.kept (by
      intro rest hrest
      rwa [← List.append_cancel_left (hcontent.symm.trans hrest)])
    exact .scalarItem (hindent'.trans hindent) (hcontent'.trans hcontent) hne hopens
      (parseScalar_line hvalue) (ihvs hrest)
  | noEntries =>
    cases hrelaid
    exact .noEntries
  | entry hindent hdash hkey _ _ ihv ihes =>
    obtain ⟨line, relaid, rfl, hindent', hcontent', hrest⟩ := hrelaid.kept (by
      intro rest hrest
      rw [hrest] at hdash
      cases hdash)
    obtain ⟨lines, more, rfl, hlines, hmore⟩ := hrest.append
    refine .entry (hindent'.trans hindent) (by rwa [hcontent']) ?_ (ihv hlines) (ihes hmore)
    rw [hcontent']
    exact splitMapping_line hkey

theorem unsupported_marker {rest : JsString} (hopens : opensMapping rest = true)
    (h : unsupported (js "- " ++ rest) = false) : unsupported rest = false := by
  obtain ⟨c, units, rfl, hletter⟩ := starts_of_opensMapping hopens
  rw [unsupported, Bool.or_eq_false_iff, Bool.or_eq_false_iff, List.any_append,
    Bool.or_eq_false_iff, opensBlockScalar_marker] at h
  obtain ⟨⟨-, -, hunits⟩, hpair⟩ := h
  rw [unsupported, opensDirective_of_letter hletter, hunits, hpair]
  rfl

theorem isSpace_of_letter {c : CodeUnit} (h : Pattern.isLetter c = true) : c.isSpace = false := by
  rw [isLetter_iff] at h
  exact isSpace_eq_false (by omega) (by omega)

structure ExpandedLines (margin rest : JsString) : Prop where
  compact : ignored (margin ++ (js "- " ++ rest)) = false ∧
    indentation (margin ++ (js "- " ++ rest)) = margin.length
  marker : ignored (margin ++ js "-") = false ∧ indentation (margin ++ js "-") = margin.length
  first : ignored (margin ++ (js "  " ++ rest)) = false ∧
    indentation (margin ++ (js "  " ++ rest)) = margin.length + 2

theorem expandedLines {margin rest : JsString}
    (hmargin : ∀ c ∈ margin, CodeUnit.isSpace c = true) (hopens : opensMapping rest = true) :
    ExpandedLines margin rest := by
  obtain ⟨c, units, rfl, hletter⟩ := starts_of_opensMapping hopens
  have hwide : ∀ d ∈ margin ++ js "  ", CodeUnit.isSpace d = true :=
    List.forall_mem_append.mpr ⟨hmargin, by simp [spaces_units, CodeUnit.isSpace]⟩
  have hhash : c.val ≠ 35 := by
    rw [isLetter_iff] at hletter
    omega
  have hfirst := kept_margin hwide ⟨c, units, rfl, isSpace_of_letter hletter, hhash⟩
  refine ⟨kept_margin hmargin ⟨45, 32 :: c :: units, rfl, by decide, by decide⟩,
    kept_margin hmargin ⟨45, [], rfl, by decide, by decide⟩, ?_⟩
  rwa [List.append_assoc, List.length_append] at hfirst

theorem admitted_expanded {margin rest : JsString} (hlines : ExpandedLines margin rest)
    (hopens : opensMapping rest = true) (h : Admitted (margin ++ (js "- " ++ rest))) :
    Admitted (margin ++ js "-") ∧ Admitted (margin ++ (js "  " ++ rest)) := by
  obtain ⟨htab, heven, hsupported⟩ := h
  rw [hlines.compact.2] at heven hsupported
  rw [List.drop_left] at hsupported
  rw [List.any_append, List.any_append, Bool.or_eq_false_iff, Bool.or_eq_false_iff] at htab
  obtain ⟨hmargin, -, hrest⟩ := htab
  refine ⟨⟨?_, ?_, ?_⟩, ⟨?_, ?_, ?_⟩⟩
  · rw [List.any_append, hmargin]
    rfl
  · rw [hlines.marker.2, heven]
  · rw [hlines.marker.2, List.drop_left]
    rfl
  · rw [List.any_append, List.any_append, hmargin, hrest]
    rfl
  · rw [hlines.first.2]
    omega
  · rw [hlines.first.2, List.drop_length_add_append]
    exact unsupported_marker hopens hsupported

theorem Relayout.lines {raws raws' : List JsString} (h : Relayout raws raws') {index : ℕ}
    {lines : List YamlLine} (hlines : yamlLines index raws = .ok lines) (index' : ℕ) :
    ∃ lines', yamlLines index' raws' = .ok lines' ∧ Reflow lines lines' := by
  induction h generalizing index lines index' with
  | nil =>
    obtain rfl := Except.ok.inj hlines
    exact ⟨[], rfl, .nil⟩
  | @keep raw raws raws' _ ih =>
    cases hignored : ignored raw with
    | true =>
      rw [yamlLines, if_pos hignored] at hlines
      obtain ⟨lines', hlines', hrelaid⟩ := ih hlines (index' + 1)
      exact ⟨lines', by rwa [yamlLines, if_pos hignored], hrelaid⟩
    | false =>
      obtain ⟨hadmitted, rest, hrest, rfl⟩ := (yamlLines_kept hignored).mp hlines
      obtain ⟨rest', hrest', hrelaid⟩ := ih hrest (index' + 1)
      exact ⟨_, (yamlLines_kept hignored).mpr ⟨hadmitted, rest', hrest', rfl⟩, .keep rfl hrelaid⟩
  | ignoredLine _ hignored _ ih =>
    obtain ⟨lines', hlines', hrelaid⟩ := ih hlines (index' + 1)
    exact ⟨lines', by rwa [yamlLines, if_pos hignored], hrelaid⟩
  | @expanded margin rest raws raws' hmargin hopens _ ih =>
    have hexpanded := expandedLines hmargin hopens
    obtain ⟨hadmitted, more, hmore, rfl⟩ := (yamlLines_kept hexpanded.compact.1).mp hlines
    obtain ⟨more', hmore', hrelaid⟩ := ih hmore (index' + 2)
    obtain ⟨hmarker, hfirst⟩ := admitted_expanded hexpanded hopens hadmitted
    have hrest := (yamlLines_kept hexpanded.first.1).mpr ⟨hfirst, more', hmore', rfl⟩
    refine ⟨_, (yamlLines_kept hexpanded.marker.1).mpr ⟨hmarker, _, hrest, rfl⟩, ?_⟩
    refine @Reflow.expand _ _ _ rest _ _ ?_ hopens ?_ ?_ hrelaid
    · rw [hexpanded.compact.2, List.drop_left]
    · rw [YamlLine.shown, hexpanded.marker.2, hexpanded.compact.2, List.drop_left]
    · rw [YamlLine.shown, hexpanded.first.2, hexpanded.compact.2, List.drop_length_add_append]
      rfl

end Lines

section Layout

variable {runtime : JsonRuntime} {configured : ConfiguredLimits}

structure WithinSourceLimits (limits : RestrictedYamlLimits) (source : JsString) : Prop where
  bytes : exceeds source.utf8.length limits.maxBytes = false
  lines : exceeds (rawLines source).length limits.maxLines = false
  counted : Counted limits source

structure Laid (numberValue : JsString → JsNumber) (limits : RestrictedYamlLimits)
    (raws : List JsString) (v : JsValue) : Prop where
  ne : raws ≠ []
  single : ∀ raw ∈ raws, SingleLine raw
  reads : ∃ lines, yamlLines 0 raws = .ok lines ∧ Reads numberValue limits 0 lines (.node v)

theorem Laid.relaid {numberValue : JsString → JsNumber} {limits : RestrictedYamlLimits}
    {raws raws' : List JsString} {v : JsValue} (h : Laid numberValue limits raws v)
    (hlayout : Relation.ReflTransGen Relayout raws raws') : Laid numberValue limits raws' v := by
  induction hlayout with
  | refl => exact h
  | tail _ hstep ih =>
    obtain ⟨hne, hsingle, lines, hlines, hreads⟩ := ih
    obtain ⟨lines', hlines', hrelaid⟩ := hstep.lines hlines 0
    exact ⟨hstep.ne_nil hne, hstep.singleLines hsingle, lines', hlines', hreads.reflow hrelaid⟩

theorem parse_relaid {ending ending' : LineEnd} {raws raws' : List JsString} {v : JsValue}
    (hraws : ∀ raw ∈ raws, SingleLine raw) (hlayout : Relation.ReflTransGen Relayout raws raws')
    (h : parseRestrictedPolicyYaml runtime (joinLines ending raws) configured = .ok v)
    (hlimits : WithinSourceLimits configured.required (joinLines ending' raws')) :
    parseRestrictedPolicyYaml runtime (joinLines ending' raws') configured = .ok v := by
  obtain ⟨-, -, -, lines, hlines, hreads, -, hassert⟩ := parseLimited_eq_ok.mp h
  have hne : raws ≠ [] := by
    rintro rfl
    obtain rfl := Except.ok.inj hlines
    cases hreads.begins
  rw [rawLines_joinLines hraws hne] at hlines
  have hlaid : Laid runtime.numberValue configured.required raws v :=
    ⟨hne, hraws, lines, hlines, hreads⟩
  obtain ⟨hne', hraws', lines', hlines', hreads'⟩ := hlaid.relaid hlayout
  rw [← rawLines_joinLines hraws' hne' ending'] at hlines'
  exact parseLimited_eq_ok.mpr ⟨hlimits.bytes, not_mixed hraws' ending', hlimits.lines, lines',
    hlines', hreads', (fits_iff_counted hlines').mpr hlimits.counted, hassert⟩

theorem yaml_layout_invariance (runtime : JsonRuntime) (configured : ConfiguredLimits) :
    (∀ source v, parseRestrictedPolicyYaml runtime source configured = .ok v →
      ∃ ending, Lined ending source) ∧
    (∀ ending ending' raws raws' v, (∀ raw ∈ raws, SingleLine raw) →
      Relation.ReflTransGen Relayout raws raws' →
      parseRestrictedPolicyYaml runtime (joinLines ending raws) configured = .ok v →
      WithinSourceLimits configured.required (joinLines ending' raws') →
      parseRestrictedPolicyYaml runtime (joinLines ending' raws') configured = .ok v) := by
  refine ⟨fun source v h => ?_, fun _ _ _ _ _ => parse_relaid⟩
  obtain ⟨-, hmixed, -⟩ := parseLimited_eq_ok.mp h
  exact lined_of_not_mixed hmixed

def sampleLayout : List JsString := [js "# policy", js "-", [], js "  a: true", js "  # end"]

theorem sample_relaid : Relation.ReflTransGen Relayout (textLines compactShown false)
    sampleLayout := by
  have hcompact : textLines compactShown false = [[] ++ (js "- " ++ js "a: true")] := rfl
  have hblank : ignored [] = true := rfl
  have hexpanded : Relayout [[] ++ (js "- " ++ js "a: true")] [js "-", js "  a: true"] :=
    .expanded nofun (by decide) .nil
  have hedited : Relayout [js "-", js "  a: true"] sampleLayout := by
    refine .ignoredLine (by decide) (by decide) (.keep ?_)
    refine .ignoredLine nofun hblank (.keep ?_)
    exact .ignoredLine (by decide) (by decide) .nil
  rw [hcompact]
  exact .tail (.single hexpanded) hedited

theorem sample_layout :
    parseRestrictedPolicyYaml sampleRuntime (joinLines .crLf sampleLayout) {} =
      .ok nestedSample := by
  have hcompact := (renders_nestedSample (ConfiguredLimits.required {}) (by decide)).1
  have hparsed : parseRestrictedPolicyYaml sampleRuntime
      (joinLines .lf (textLines compactShown false)) {} = .ok nestedSample := by
    refine parse_rendered hcompact ⟨?_, ?_, ?_, ?_⟩ <;> decide
  have hcompact' : textLines compactShown false = [js "- " ++ js "a: true"] := rfl
  refine (yaml_layout_invariance sampleRuntime {}).2 .lf .crLf _ _ _ ?_ sample_relaid hparsed
    ⟨?_, ?_, ?_, ?_⟩
  · rw [hcompact', List.forall_mem_singleton]
    decide
  · decide
  · decide
  · decide
  · decide

end Layout

end Aseos.Policy
