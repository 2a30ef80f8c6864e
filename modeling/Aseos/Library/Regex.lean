import Mathlib.Computability.Language
import Mathlib.Tactic.Common

namespace Aseos

universe u

inductive Regex (α : Type u) where
  | empty
  | epsilon
  | one (p : α → Bool)
  | seq (r s : Regex α)
  | alt (r s : Regex α)
  | star (r : Regex α)

namespace Regex

variable {α : Type u}

def lang : Regex α → Language α
  | empty => 0
  | epsilon => 1
  | one p => {w | ∃ a, p a = true ∧ w = [a]}
  | seq r s => r.lang * s.lang
  | alt r s => r.lang + s.lang
  | star r => KStar.kstar r.lang

def nullable : Regex α → Bool
  | empty => false
  | epsilon => true
  | one _ => false
  | seq r s => r.nullable && s.nullable
  | alt r s => r.nullable || s.nullable
  | star _ => true

-- The two constructors below keep derivatives small enough to be evaluated.
def join : Regex α → Regex α → Regex α
  | empty, _ => empty
  | epsilon, s => s
  | r, s => seq r s

def either : Regex α → Regex α → Regex α
  | empty, s => s
  | r, empty => r
  | r, s => alt r s

def deriv (a : α) : Regex α → Regex α
  | empty => empty
  | epsilon => empty
  | one p => if p a then epsilon else empty
  | seq r s =>
      if r.nullable then either (join (r.deriv a) s) (s.deriv a) else join (r.deriv a) s
  | alt r s => either (r.deriv a) (s.deriv a)
  | star r => join (r.deriv a) (star r)

def test (r : Regex α) : List α → Bool
  | [] => r.nullable
  | a :: w => (r.deriv a).test w

@[simp] theorem mem_lang_empty (w : List α) : w ∉ (empty : Regex α).lang :=
  Language.notMem_zero w

@[simp] theorem mem_lang_epsilon {w : List α} : w ∈ (epsilon : Regex α).lang ↔ w = [] :=
  Language.mem_one w

@[simp] theorem mem_lang_one {p : α → Bool} {w : List α} :
    w ∈ (one p).lang ↔ ∃ a, p a = true ∧ w = [a] :=
  Iff.rfl

theorem mem_lang_seq {r s : Regex α} {w : List α} :
    w ∈ (seq r s).lang ↔ ∃ u ∈ r.lang, ∃ v ∈ s.lang, u ++ v = w :=
  Language.mem_mul

theorem mem_lang_alt {r s : Regex α} {w : List α} :
    w ∈ (alt r s).lang ↔ w ∈ r.lang ∨ w ∈ s.lang :=
  Language.mem_add r.lang s.lang w

theorem mem_lang_star {r : Regex α} {w : List α} :
    w ∈ (star r).lang ↔ ∃ parts : List (List α), w = parts.flatten ∧
      ∀ part ∈ parts, part ∈ r.lang ∧ part ≠ [] :=
  Language.mem_kstar_iff_exists_nonempty

theorem nullable_iff (r : Regex α) : r.nullable = true ↔ [] ∈ r.lang := by
  induction r with
  | empty => simp [nullable]
  | epsilon => simp [nullable]
  | one p => simp [nullable]
  | seq r s ihr ihs => simp [nullable, mem_lang_seq, ihr, ihs]
  | alt r s ihr ihs => simp [nullable, mem_lang_alt, ihr, ihs]
  | star r _ => exact ⟨fun _ => mem_lang_star.mpr ⟨[], rfl, by simp⟩, fun _ => rfl⟩

theorem lang_join (r s : Regex α) : (join r s).lang = (seq r s).lang := by
  cases r <;> simp [join, lang]

theorem lang_either (r s : Regex α) : (either r s).lang = (alt r s).lang := by
  cases r with
  | empty => exact (zero_add s.lang).symm
  | _ => cases s with
    | empty => exact (add_zero _).symm
    | _ => rfl

theorem mem_join {r s : Regex α} {w : List α} :
    w ∈ (join r s).lang ↔ ∃ u ∈ r.lang, ∃ v ∈ s.lang, u ++ v = w := by
  rw [lang_join, mem_lang_seq]

theorem mem_either {r s : Regex α} {w : List α} :
    w ∈ (either r s).lang ↔ w ∈ r.lang ∨ w ∈ s.lang := by
  rw [lang_either, mem_lang_alt]

theorem cons_mem_lang_seq {r s : Regex α} {a : α} {w : List α} :
    a :: w ∈ (seq r s).lang ↔
      (∃ u, a :: u ∈ r.lang ∧ ∃ v ∈ s.lang, u ++ v = w) ∨ ([] ∈ r.lang ∧ a :: w ∈ s.lang) := by
  rw [mem_lang_seq]
  constructor
  · rintro ⟨u, hu, v, hv, huv⟩
    cases u with
    | nil => exact .inr ⟨hu, by simpa using huv ▸ hv⟩
    | cons b u =>
      obtain ⟨rfl, rfl⟩ := List.cons.inj huv
      exact .inl ⟨u, hu, v, hv, rfl⟩
  · rintro (⟨u, hu, v, hv, rfl⟩ | ⟨hnil, hw⟩)
    · exact ⟨a :: u, hu, v, hv, rfl⟩
    · exact ⟨[], hnil, a :: w, hw, rfl⟩

theorem cons_mem_lang_star {r : Regex α} {a : α} {w : List α} :
    a :: w ∈ (star r).lang ↔ ∃ u, a :: u ∈ r.lang ∧ ∃ v ∈ (star r).lang, u ++ v = w := by
  constructor
  · intro h
    obtain ⟨parts, hflat, hparts⟩ := mem_lang_star.mp h
    cases parts with
    | nil => simp at hflat
    | cons part parts =>
      obtain ⟨hpart, hne⟩ := hparts part (by simp)
      cases part with
      | nil => exact absurd rfl hne
      | cons b part =>
        simp only [List.flatten_cons, List.cons_append, List.cons.injEq] at hflat
        obtain ⟨rfl, rfl⟩ := hflat
        refine ⟨part, hpart, parts.flatten, mem_lang_star.mpr ⟨parts, rfl, ?_⟩, rfl⟩
        exact fun other hother => hparts other (List.mem_cons_of_mem _ hother)
  · rintro ⟨u, hu, v, hv, rfl⟩
    obtain ⟨parts, rfl, hparts⟩ := mem_lang_star.mp hv
    refine mem_lang_star.mpr ⟨(a :: u) :: parts, rfl, ?_⟩
    intro part hpart
    rcases List.mem_cons.mp hpart with rfl | hpart
    · exact ⟨hu, by simp⟩
    · exact hparts part hpart

theorem mem_lang_deriv {r : Regex α} {a : α} {w : List α} :
    w ∈ (r.deriv a).lang ↔ a :: w ∈ r.lang := by
  induction r generalizing w with
  | empty => simp [deriv]
  | epsilon => simp [deriv]
  | one p => by_cases hp : p a <;> simp [deriv, hp]
  | seq r s ihr ihs =>
    rw [cons_mem_lang_seq, ← nullable_iff]
    by_cases hr : r.nullable <;> simp [deriv, hr, mem_either, mem_join, ihr, ihs]
  | alt r s ihr ihs => simp [deriv, mem_either, mem_lang_alt, ihr, ihs]
  | star r ih =>
    rw [cons_mem_lang_star]
    simp [deriv, mem_join, ih]

theorem test_iff (r : Regex α) (w : List α) : r.test w = true ↔ w ∈ r.lang := by
  induction w generalizing r with
  | nil => exact nullable_iff r
  | cons a w ih => exact (ih (r.deriv a)).trans mem_lang_deriv

def plus (r : Regex α) : Regex α := seq r (star r)

def opt (r : Regex α) : Regex α := alt r epsilon

def times : ℕ → Regex α → Regex α
  | 0, _ => epsilon
  | n + 1, r => seq r (times n r)

def upTo : ℕ → Regex α → Regex α
  | 0, _ => epsilon
  | n + 1, r => opt (seq r (upTo n r))

def text [DecidableEq α] : List α → Regex α
  | [] => epsilon
  | a :: w => seq (one (· = a)) (text w)

def all : List (Regex α) → Regex α
  | [] => epsilon
  | [r] => r
  | r :: rest => seq r (all rest)

def any : List (Regex α) → Regex α
  | [] => empty
  | [r] => r
  | r :: rest => alt r (any rest)

theorem mem_lang_text [DecidableEq α] (w : List α) : w ∈ (text w).lang := by
  induction w with
  | nil => exact mem_lang_epsilon.mpr rfl
  | cons a w ih => exact mem_lang_seq.mpr ⟨[a], ⟨a, decide_eq_true rfl, rfl⟩, w, ih, rfl⟩

theorem mem_lang_times_one {p : α → Bool} {n : ℕ} {w : List α} :
    w ∈ (times n (one p)).lang ↔ w.length = n ∧ ∀ a ∈ w, p a = true := by
  induction n generalizing w with
  | zero =>
    rw [times, mem_lang_epsilon, List.length_eq_zero_iff]
    constructor
    · rintro rfl
      simp
    · exact And.left
  | succ n ih =>
    simp only [times, mem_lang_seq, mem_lang_one, ih]
    constructor
    · rintro ⟨u, ⟨a, ha, rfl⟩, v, ⟨hlen, hv⟩, rfl⟩
      refine ⟨by simp [hlen], ?_⟩
      simpa using ⟨ha, hv⟩
    · rintro ⟨hlen, hall⟩
      cases w with
      | nil => cases hlen
      | cons a w =>
        refine ⟨[a], ⟨a, hall a (by simp), rfl⟩, w, ⟨by simpa using hlen, ?_⟩, rfl⟩
        exact fun b hb => hall b (List.mem_cons_of_mem _ hb)

end Regex

end Aseos
