import Mathlib.Data.List.Forall2
import Mathlib.Data.List.Sort
import Mathlib.Order.Lattice

namespace Aseos

universe u v w

variable {α : Type u} {β : Type v} {γ : Type w} [LinearOrder β]

def sortBy (key : α → β) (l : List α) : List α :=
  l.insertionSort (fun a b => key a ≤ key b)

theorem sortBy_perm (key : α → β) (l : List α) : (sortBy key l).Perm l :=
  List.perm_insertionSort _ l

theorem mem_sortBy {key : α → β} {l : List α} {a : α} : a ∈ sortBy key l ↔ a ∈ l :=
  (sortBy_perm key l).mem_iff

theorem sortBy_pairwise (key : α → β) (l : List α) :
    (sortBy key l).Pairwise (fun a b => key a ≤ key b) := by
  have htotal : Std.Total fun (a b : α) => key a ≤ key b := ⟨fun a b => le_total (key a) (key b)⟩
  have htrans : IsTrans α fun a b => key a ≤ key b := ⟨fun _ _ _ => le_trans⟩
  exact List.pairwise_insertionSort _ l

theorem sortBy_eq_of_perm {key : α → β} {l l' : List α} (h : l.Perm l')
    (hkey : ∀ a ∈ l, ∀ b ∈ l, key a = key b → a = b) : sortBy key l = sortBy key l' := by
  refine List.Perm.eq_of_pairwise ?_ (sortBy_pairwise key l) (sortBy_pairwise key l')
    ((sortBy_perm key l).trans (h.trans (sortBy_perm key l').symm))
  intro a b ha hb hab hba
  exact hkey a (mem_sortBy.mp ha) b (h.mem_iff.mpr (mem_sortBy.mp hb)) (le_antisymm hab hba)

theorem sortBy_eq_self {key : α → β} {l : List α}
    (h : l.Pairwise (fun a b => key a ≤ key b)) : sortBy key l = l :=
  List.Pairwise.insertionSort_eq h

theorem sortBy_sortBy (key : α → β) (l : List α) : sortBy key (sortBy key l) = sortBy key l :=
  sortBy_eq_self (sortBy_pairwise key l)

section Related

variable {T : α → γ → Prop} {key : α → β} {key' : γ → β}

theorem forall₂_orderedInsert (hT : ∀ a c, T a c → key' c = key a) {a : α} {c : γ} (hac : T a c)
    {l : List α} {l' : List γ} (h : List.Forall₂ T l l') :
    List.Forall₂ T (l.orderedInsert (fun a b => key a ≤ key b) a)
      (l'.orderedInsert (fun a b => key' a ≤ key' b) c) := by
  induction h with
  | nil => exact .cons hac .nil
  | cons hbd hrest ih =>
    simp only [List.orderedInsert, hT _ _ hac, hT _ _ hbd]
    split
    · exact .cons hac (.cons hbd hrest)
    · exact .cons hbd ih

theorem forall₂_sortBy (hT : ∀ a c, T a c → key' c = key a) {l : List α} {l' : List γ}
    (h : List.Forall₂ T l l') : List.Forall₂ T (sortBy key l) (sortBy key' l') := by
  induction h with
  | nil => exact .nil
  | cons hac _ ih => exact forall₂_orderedInsert hT hac ih

theorem sortBy_map {f : α → γ} (h : ∀ a, key' (f a) = key a) (l : List α) :
    sortBy key' (l.map f) = (sortBy key l).map f := by
  have hmap : List.Forall₂ (fun a c => c = f a) l (l.map f) :=
    List.forall₂_map_right_iff.mpr (List.forall₂_same.mpr fun _ _ => rfl)
  have hsorted := forall₂_sortBy (by rintro a _ rfl; exact h a) hmap
  generalize sortBy key l = s at hsorted ⊢
  generalize sortBy key' (l.map f) = s' at hsorted ⊢
  induction hsorted with
  | nil => rfl
  | cons hc _ ih => rw [List.map_cons, hc, ih]

end Related

end Aseos
