import Mathlib.Data.List.Lex
import Mathlib.Order.Lattice
import Mathlib.Tactic.Common

namespace Aseos.Lexicographic

variable {α β : Type*} [LinearOrder α] [LinearOrder β]

theorem lt_iff_diverges {l m : List α} :
    l < m ↔ (∃ a s, m = l ++ a :: s) ∨
      ∃ common a b s t, l = common ++ a :: s ∧ m = common ++ b :: t ∧ a < b := by
  constructor
  · intro h
    induction l generalizing m with
    | nil =>
      cases m with
      | nil => cases h
      | cons b m => exact .inl ⟨b, m, rfl⟩
    | cons a l ih =>
      cases m with
      | nil => cases h
      | cons b m =>
        obtain hab | ⟨rfl, hlm⟩ := List.cons_lt_cons_iff.mp h
        · exact .inr ⟨[], a, b, l, m, rfl, rfl, hab⟩
        · obtain ⟨c, s, rfl⟩ | ⟨common, c, d, s, t, rfl, rfl, hcd⟩ := ih hlm
          · exact .inl ⟨c, s, rfl⟩
          · exact .inr ⟨a :: common, c, d, s, t, rfl, rfl, hcd⟩
  · rintro (⟨a, s, rfl⟩ | ⟨common, a, b, s, t, rfl, rfl, hab⟩)
    · have h : ([] : List α) < a :: s := List.nil_lt_cons a s
      simpa using @List.append_left_lt _ _ l _ _ h
    · exact List.append_left_lt (List.cons_lt_cons_iff.mpr (.inl hab))

theorem flatMap_lt {f : α → List β} (hne : ∀ a, f a ≠ []) {l m : List α} (h : l < m)
    (hf : ∀ common a b s t, l = common ++ a :: s → m = common ++ b :: t → a < b →
      ∀ u v, f a ++ u < f b ++ v) : l.flatMap f < m.flatMap f := by
  obtain ⟨a, s, rfl⟩ | ⟨common, a, b, s, t, rfl, rfl, hab⟩ := lt_iff_diverges.mp h
  · obtain ⟨x, u, hx⟩ := List.exists_cons_of_ne_nil (hne a)
    rw [List.flatMap_append, List.flatMap_cons, hx]
    exact lt_iff_diverges.mpr (.inl ⟨x, u ++ s.flatMap f, rfl⟩)
  · rw [List.flatMap_append, List.flatMap_append, List.flatMap_cons, List.flatMap_cons]
    exact List.append_left_lt (hf common a b s t rfl rfl hab _ _)

end Aseos.Lexicographic
