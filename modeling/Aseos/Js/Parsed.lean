import Aseos.Js.Json

namespace Aseos

namespace JsValue

-- A value that `JSON.parse` returns: dense arrays, and plain objects whose members are enumerable
-- data under distinct string keys.
inductive Document : JsValue → Prop
  | null : Document .null
  | bool {b} : Document (.bool b)
  | number {n} : Document (.number n)
  | string {s} : Document (.string s)
  | array {slots} : (∀ s ∈ slots, s.1 = .data) → (∀ s ∈ slots, Document s.2) →
      Document (.array slots [])
  | object {props} : (∀ p ∈ props, p.1 = .own p.1.sortKey) →
      (props.map fun p => p.1.sortKey).Nodup → (∀ p ∈ props, Document p.2) →
      Document (.object true props)

theorem Document.keyed {v : JsValue} (h : Document v) : Keyed v := by
  induction h with
  | array _ _ ih => exact .array fun s hs _ => ih s hs
  | object hown hdistinct _ ih => exact .object hown hdistinct ih
  | _ => exact .atom (by simp) (by simp)

end JsValue

open JsValue

namespace Json

theorem document_arrayOf {values : List JsValue} (h : ∀ v ∈ values, Document v) :
    Document (arrayOf values) := by
  refine .array (fun s hs => ?_) fun s hs => ?_
  · obtain ⟨v, -, rfl⟩ := List.mem_map.mp hs
    rfl
  · obtain ⟨v, hv, rfl⟩ := List.mem_map.mp hs
    exact h v hv

theorem assign_fst (entries : List (JsString × JsValue)) (entry : JsString × JsValue) :
    (assign entries entry).map Prod.fst =
      if entry.1 ∈ entries.map Prod.fst then entries.map Prod.fst
      else entries.map Prod.fst ++ [entry.1] := by
  have hany : entries.any (fun e => e.1 = entry.1) = decide (entry.1 ∈ entries.map Prod.fst) := by
    rw [Bool.eq_iff_iff, decide_eq_true_iff]
    simp
  rw [assign, hany]
  by_cases h : entry.1 ∈ entries.map Prod.fst
  · rw [if_pos (by simpa using h), if_pos h, List.map_map]
    refine List.map_congr_left fun e _ => ?_
    simp only [Function.comp_apply]
    split
    · rename_i hsame
      exact hsame.symm
    · rfl
  · rw [if_neg (by simpa using h), if_neg h, List.map_append]
    rfl

theorem assign_spec {entries : List (JsString × JsValue)} {entry : JsString × JsValue}
    (hnodup : (entries.map Prod.fst).Nodup) (hdocument : ∀ e ∈ entries, Document e.2)
    (hentry : Document entry.2) :
    ((assign entries entry).map Prod.fst).Nodup ∧ ∀ e ∈ assign entries entry, Document e.2 := by
  refine ⟨?_, fun e he => ?_⟩
  · rw [assign_fst]
    split
    · exact hnodup
    · rename_i hnew
      exact List.nodup_append.mpr ⟨hnodup, by simp, by rintro a ha b hb rfl; simp_all⟩
  · unfold assign at he
    split at he
    · obtain ⟨d, hd, rfl⟩ := List.mem_map.mp he
      split
      · exact hentry
      · exact hdocument d hd
    · rcases List.mem_append.mp he with he | he
      · exact hdocument e he
      · obtain rfl := List.mem_singleton.mp he
        exact hentry

theorem foldl_assign_spec {entries seen : List (JsString × JsValue)}
    (hnodup : (seen.map Prod.fst).Nodup) (hseen : ∀ e ∈ seen, Document e.2)
    (h : ∀ e ∈ entries, Document e.2) :
    ((entries.foldl assign seen).map Prod.fst).Nodup ∧
      ∀ e ∈ entries.foldl assign seen, Document e.2 := by
  induction entries generalizing seen with
  | nil => exact ⟨hnodup, hseen⟩
  | cons entry entries ih =>
    obtain ⟨hentry, htail⟩ := List.forall_mem_cons.mp h
    obtain ⟨hnodup', hseen'⟩ := assign_spec hnodup hseen hentry
    exact ih hnodup' hseen' htail

theorem document_objectOf {entries : List (JsString × JsValue)} (h : ∀ e ∈ entries, Document e.2) :
    Document (objectOf entries) := by
  obtain ⟨hnodup, hdocument⟩ := @foldl_assign_spec _ [] .nil (by simp) h
  have hperm := Props.fromEntries_perm (entries.foldl assign [])
  have hmem (p) (hp : p ∈ Props.fromEntries (entries.foldl assign [])) :
      ∃ e ∈ entries.foldl assign [], (Field.own e.1, e.2) = p :=
    List.mem_map.mp (hperm.mem_iff.mp hp)
  refine .object (fun p hp => ?_) ?_ fun p hp => ?_
  · obtain ⟨e, -, rfl⟩ := hmem p hp
    rfl
  · refine (hperm.map _).nodup_iff.mpr ?_
    rw [List.map_map]
    exact hnodup
  · obtain ⟨e, he, rfl⟩ := hmem p hp
    exact hdocument e he

variable {numberValue : JsString → JsNumber}

structure ParsesDocument (numberValue : JsString → JsNumber) (fuel : ℕ) : Prop where
  value : ∀ {s p}, parseValue numberValue fuel s = some p → Document p.1
  elements : ∀ {s p}, parseElements numberValue fuel s = some p → ∀ v ∈ p.1, Document v
  members : ∀ {s p}, parseMembers numberValue fuel s = some p → ∀ e ∈ p.1, Document e.2

theorem document_value {fuel : ℕ} (ih : ParsesDocument numberValue fuel) {s : JsString}
    {p : JsValue × JsString} (h : parseValue numberValue (fuel + 1) s = some p) :
    Document p.1 := by
  have hatom {o : Option JsString} {w : JsValue} (hw : Document w)
      (h : o.map (fun s => (w, s)) = some p) : Document p.1 := by
    obtain ⟨_, -, rfl⟩ := Option.map_eq_some_iff.mp h
    exact hw
  rw [parseValue] at h
  split at h
  · cases h
  split at h
  · split at h
    · cases h
    split at h
    · obtain rfl := Option.some.inj h
      exact document_objectOf (by simp)
    · obtain ⟨q, hq, rfl⟩ := Option.map_eq_some_iff.mp h
      exact document_objectOf (ih.members hq)
  split at h
  · split at h
    · cases h
    split at h
    · obtain rfl := Option.some.inj h
      exact document_arrayOf (by simp)
    · obtain ⟨q, hq, rfl⟩ := Option.map_eq_some_iff.mp h
      exact document_arrayOf (ih.elements hq)
  split at h
  · obtain ⟨_, -, rfl⟩ := Option.map_eq_some_iff.mp h
    exact .string
  split at h
  · exact hatom .null h
  split at h
  · exact hatom .bool h
  split at h
  · exact hatom .bool h
  · rw [takeNumber] at h
    split at h
    · obtain rfl := Option.some.inj h
      exact .number
    · cases h

theorem document_elements {fuel : ℕ} (ih : ParsesDocument numberValue fuel) {s : JsString}
    {p : List JsValue × JsString} (h : parseElements numberValue (fuel + 1) s = some p) :
    ∀ v ∈ p.1, Document v := by
  rw [parseElements] at h
  obtain ⟨⟨v, s'⟩, hv, h⟩ := Option.bind_eq_some_iff.mp h
  have hdocument := ih.value hv
  simp only at h
  split at h
  · cases h
  split at h
  · obtain ⟨q, hq, rfl⟩ := Option.map_eq_some_iff.mp h
    exact List.forall_mem_cons.mpr ⟨hdocument, ih.elements hq⟩
  split at h
  · obtain rfl := Option.some.inj h
    simpa using hdocument
  · cases h

theorem document_members {fuel : ℕ} (ih : ParsesDocument numberValue fuel) {s : JsString}
    {p : List (JsString × JsValue) × JsString}
    (h : parseMembers numberValue (fuel + 1) s = some p) : ∀ e ∈ p.1, Document e.2 := by
  rw [parseMembers] at h
  obtain ⟨_, -, h⟩ := Option.bind_eq_some_iff.mp h
  obtain ⟨⟨key, _⟩, -, h⟩ := Option.bind_eq_some_iff.mp h
  obtain ⟨_, -, h⟩ := Option.bind_eq_some_iff.mp h
  obtain ⟨⟨v, s'⟩, hv, h⟩ := Option.bind_eq_some_iff.mp h
  have hdocument := ih.value hv
  simp only at h
  split at h
  · cases h
  split at h
  · obtain ⟨q, hq, rfl⟩ := Option.map_eq_some_iff.mp h
    exact List.forall_mem_cons.mpr ⟨hdocument, ih.members hq⟩
  split at h
  · obtain rfl := Option.some.inj h
    simpa using hdocument
  · cases h

theorem parsesDocument (fuel : ℕ) : ParsesDocument numberValue fuel := by
  induction fuel with
  | zero => exact ⟨by simp [parseValue], by simp [parseElements], by simp [parseMembers]⟩
  | succ fuel ih => exact ⟨document_value ih, document_elements ih, document_members ih⟩

-- What the gates of the locks assume of the locks that they have read.
theorem document_of_parse {s : JsString} {v : JsValue} (h : Json.parse numberValue s = some v) :
    Document v := by
  obtain ⟨⟨w, rest⟩, hw, h⟩ := Option.bind_eq_some_iff.mp h
  simp only at h
  split at h
  · obtain rfl := Option.some.inj h
    exact (parsesDocument _).value hw
  · cases h

end Json

end Aseos
