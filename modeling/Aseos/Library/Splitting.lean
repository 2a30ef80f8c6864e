import Mathlib.Data.List.Infix
import Mathlib.Tactic.Common

namespace Aseos.Splitting

variable {α : Type*}

section Separators

variable [DecidableEq α] (separator : List α)

def splitFrom : ℕ → List α → List (List α)
  | _, [] => [[]]
  | skip + 1, _ :: text => splitFrom skip text
  | 0, c :: text =>
      if separator.isPrefixOf (c :: text) then [] :: splitFrom (separator.length - 1) text
      else (splitFrom 0 text).modifyHead (c :: ·)

def split (text : List α) : List (List α) := splitFrom separator 0 text

end Separators

section Pieces

variable (separator : List α)

def Closed (piece : List α) : Prop :=
  ∀ k < piece.length, ¬ separator <+: (piece ++ separator).drop k

inductive Separated : List (List α) → Prop
  | last {piece} : ¬ separator <:+: piece → Separated [piece]
  | cons {piece pieces} : Closed separator piece → Separated pieces → Separated (piece :: pieces)

variable {separator} {text piece : List α}

theorem closed_cons {c : α} (h : ¬ separator <+: c :: (piece ++ separator))
    (hpiece : Closed separator piece) : Closed separator (c :: piece) := by
  intro k hk
  cases k with
  | zero => exact h
  | succ k => exact hpiece k (Nat.lt_of_succ_lt_succ hk)

theorem Closed.not_infix (hne : separator ≠ []) (h : Closed separator piece) :
    ¬ separator <:+: piece := by
  rintro ⟨before, after, rfl⟩
  have hlength := List.length_pos_iff.mpr hne
  refine h before.length (by simp; omega) ?_
  rw [List.append_assoc, List.append_assoc, List.drop_left]
  exact List.prefix_append _ _

theorem Separated.sublist (hne : separator ≠ []) {pieces kept : List (List α)}
    (h : Separated separator pieces) (hkept : kept.Sublist pieces) (hsome : kept ≠ []) :
    Separated separator kept := by
  induction h generalizing kept with
  | last hinfix =>
    rcases List.sublist_singleton.mp hkept with rfl | rfl
    · exact absurd rfl hsome
    · exact .last hinfix
  | cons hclosed _ ih =>
    rcases List.sublist_cons_iff.mp hkept with hrest | ⟨kept', rfl, hrest⟩
    · exact ih hrest hsome
    · rcases eq_or_ne kept' [] with rfl | hmore
      · exact .last (hclosed.not_infix hne)
      · exact .cons hclosed (ih hrest hmore)

variable [DecidableEq α]

theorem splitFrom_drop (skip : ℕ) (text : List α) :
    splitFrom separator skip text = split separator (text.drop skip) := by
  induction text generalizing skip with
  | nil => cases skip <;> rfl
  | cons c text ih =>
    cases skip with
    | zero => rfl
    | succ skip => exact ih skip

theorem split_cons (hne : separator ≠ []) (c : α) (text : List α) :
    split separator (c :: text) =
      if separator <+: c :: text then [] :: split separator ((c :: text).drop separator.length)
      else (split separator text).modifyHead (c :: ·) := by
  have hlength : separator.length - 1 + 1 = separator.length :=
    Nat.succ_pred (List.length_pos_iff.mpr hne).ne'
  have hdrop : (c :: text).drop separator.length = text.drop (separator.length - 1) := by
    rw [← hlength, List.drop_succ_cons]
    rfl
  rw [split, splitFrom, hdrop, splitFrom_drop]
  simp only [List.isPrefixOf_iff_prefix]
  rfl

theorem split_cases (hne : separator ≠ []) (text : List α) :
    (split separator text = [text] ∧ ¬ separator <:+: text) ∨
      ∃ piece rest, text = piece ++ (separator ++ rest) ∧ Closed separator piece ∧
        split separator text = piece :: split separator rest := by
  induction text with
  | nil =>
    refine .inl ⟨rfl, fun h => hne (List.infix_nil.mp h)⟩
  | cons c text ih =>
    rw [split_cons hne]
    by_cases hprefix : separator <+: c :: text
    · obtain ⟨rest, hrest⟩ := hprefix
      refine .inr ⟨[], rest, hrest.symm, fun k hk => absurd hk (Nat.not_lt_zero k), ?_⟩
      rw [if_pos ⟨rest, hrest⟩, ← hrest, List.drop_left]
    · rw [if_neg hprefix]
      rcases ih with ⟨hsplit, hinfix⟩ | ⟨piece, rest, rfl, hclosed, hsplit⟩
      · refine .inl ⟨by rw [hsplit]; rfl, fun h => ?_⟩
        exact (List.infix_cons_iff.mp h).elim hprefix hinfix
      · refine .inr ⟨c :: piece, rest, rfl, closed_cons (fun h => hprefix ?_) hclosed, ?_⟩
        · rw [← List.append_assoc, ← List.cons_append]
          exact h.trans (List.prefix_append _ _)
        · rw [hsplit]
          rfl

theorem separated_split (hne : separator ≠ []) (text : List α) :
    Separated separator (split separator text) := by
  induction hlength : text.length using Nat.strong_induction_on generalizing text with
  | _ n ih =>
    rcases split_cases hne text with ⟨hsplit, hinfix⟩ | ⟨piece, rest, htext, hclosed, hsplit⟩
    · rw [hsplit]
      exact .last hinfix
    · rw [hsplit]
      have hpos := List.length_pos_iff.mpr hne
      refine .cons hclosed (ih rest.length ?_ rest rfl)
      rw [← hlength, htext, List.length_append, List.length_append]
      omega

theorem split_of_not_infix (hne : separator ≠ []) (h : ¬ separator <:+: text) :
    split separator text = [text] := by
  rcases split_cases hne text with ⟨hsplit, -⟩ | ⟨piece, rest, rfl, -⟩
  · exact hsplit
  · exact absurd ⟨piece, rest, by rw [List.append_assoc]⟩ h

theorem split_append (hne : separator ≠ []) (h : Closed separator piece) (rest : List α) :
    split separator (piece ++ (separator ++ rest)) = piece :: split separator rest := by
  induction piece with
  | nil =>
    obtain ⟨c, tail, hform⟩ := List.exists_cons_of_ne_nil hne
    have hprefix := List.prefix_append separator rest
    rw [List.nil_append, hform, List.cons_append, split_cons (hform ▸ hne), ← List.cons_append,
      ← hform, if_pos hprefix, List.drop_left]
  | cons c piece ih =>
    have htail : Closed separator piece := fun k hk => h (k + 1) (Nat.succ_lt_succ hk)
    have hstart : ¬ separator <+: c :: (piece ++ (separator ++ rest)) := by
      intro hprefix
      refine h 0 (Nat.succ_pos _) (List.prefix_of_prefix_length_le hprefix ?_ ?_)
      · rw [← List.append_assoc, ← List.cons_append]
        exact List.prefix_append _ _
      · simp
        omega
    rw [List.cons_append, split_cons hne, if_neg hstart, ih htail]
    rfl

theorem Separated.split_intercalate (hne : separator ≠ []) {pieces : List (List α)}
    (h : Separated separator pieces) : split separator (separator.intercalate pieces) = pieces := by
  induction h with
  | last hinfix => rw [List.intercalate_singleton, split_of_not_infix hne hinfix]
  | @cons piece pieces hclosed hrest ih =>
    have hmore : pieces ≠ [] := by rintro rfl; cases hrest
    obtain ⟨next, others, rfl⟩ := List.exists_cons_of_ne_nil hmore
    rw [List.intercalate_cons_cons, List.append_assoc, split_append hne hclosed, ih]

theorem split_intercalate_sublist (hne : separator ≠ []) {kept : List (List α)}
    (hkept : kept.Sublist (split separator text)) (hsome : kept ≠ []) :
    split separator (separator.intercalate kept) = kept :=
  ((separated_split hne text).sublist hne hkept hsome).split_intercalate hne

end Pieces

section Words

variable {space : α} {before after word : List α}

theorem last_word (space : α) (text : List α) :
    ∃ word, space ∉ word ∧ (text = word ∨ ∃ before, text = before ++ space :: word) := by
  induction text with
  | nil => exact ⟨[], by simp, .inl rfl⟩
  | cons c text ih =>
    obtain ⟨word, hword, rfl | ⟨before, rfl⟩⟩ := ih
    · rcases eq_or_ne space c with rfl | hc
      · exact ⟨text, hword, .inr ⟨[], rfl⟩⟩
      · exact ⟨c :: text, by simp [hc, hword], .inl rfl⟩
    · exact ⟨word, hword, .inr ⟨c :: before, rfl⟩⟩

theorem first_word (space : α) (text : List α) :
    ∃ word, space ∉ word ∧ (text = word ∨ ∃ after, text = word ++ space :: after) := by
  induction text with
  | nil => exact ⟨[], by simp, .inl rfl⟩
  | cons c text ih =>
    rcases eq_or_ne space c with rfl | hc
    · exact ⟨[], by simp, .inr ⟨text, rfl⟩⟩
    · obtain ⟨word, hword, rfl | ⟨after, rfl⟩⟩ := ih
      · exact ⟨c :: text, by simp [hc, hword], .inl rfl⟩
      · exact ⟨c :: word, by simp [hc, hword], .inr ⟨after, rfl⟩⟩

variable [DecidableEq α]

def words (space : α) (text : List α) : List (List α) :=
  (text.splitOn space).filter fun word => word ≠ []

theorem words_append_cons (before after : List α) :
    words space (before ++ space :: after) = words space before ++ words space after := by
  rw [words, List.splitOn_append_cons_self, List.filter_append]
  rfl

theorem words_word (h : space ∉ word) : words space word = if word = [] then [] else [word] := by
  rw [words, List.splitOn_eq_singleton h]
  by_cases hempty : word = [] <;> simp [hempty]

theorem word_prefix_iff (hword : space ∉ word) (after : List α) :
    words space word <+: words space (word ++ after) ↔
      word = [] ∨ ∀ c ∈ after.head?, c = space := by
  obtain ⟨first, hfirst, hafter⟩ := first_word space after
  have hjoined : space ∉ word ++ first := by simp [hword, hfirst]
  have hhead : (∀ c ∈ after.head?, c = space) ↔ first = [] := by
    cases first with
    | nil => rcases hafter with rfl | ⟨after, rfl⟩ <;> simp
    | cons c first =>
      have hc : c ≠ space := fun h => hfirst (by simp [h])
      rcases hafter with rfl | ⟨after, rfl⟩ <;> simpa using hc
  have hwords : ∃ others, words space (word ++ after) =
      (if word ++ first = [] then [] else [word ++ first]) ++ others := by
    rcases hafter with rfl | ⟨after, rfl⟩
    · exact ⟨[], by rw [words_word hjoined, List.append_nil]⟩
    · exact ⟨words space after, by rw [← List.append_assoc, words_append_cons, words_word hjoined]⟩
  obtain ⟨others, hothers⟩ := hwords
  rw [hhead, hothers, words_word hword]
  rcases eq_or_ne word [] with rfl | hne
  · simp
  · simp [hne]

theorem words_prefix_iff (space : α) (before after : List α) :
    words space before <+: words space (before ++ after) ↔
      (∀ c ∈ before.getLast?, c = space) ∨ ∀ c ∈ after.head?, c = space := by
  obtain ⟨word, hword, rfl | ⟨start, rfl⟩⟩ := last_word space before
  · rw [word_prefix_iff hword]
    refine or_congr_left ⟨fun h => by simp [h], fun h => ?_⟩
    by_contra hne
    exact hword (h _ (List.getLast?_eq_some_getLast hne) ▸ List.getLast_mem hne)
  · rw [List.append_assoc, List.cons_append, words_append_cons, words_append_cons,
      List.prefix_append_right_inj, word_prefix_iff hword]
    refine or_congr_left ⟨fun h => by simp [h], fun h => ?_⟩
    by_contra hne
    refine hword (h _ ?_ ▸ List.getLast_mem hne)
    rw [List.getLast?_append_of_ne_nil _ (by simp), List.getLast?_cons,
      List.getLast?_eq_some_getLast hne]
    rfl

end Words

end Aseos.Splitting
