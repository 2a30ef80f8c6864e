import Mathlib.Data.List.Forall2
import Mathlib.Data.List.Perm.Basic
import Mathlib.Tactic.Common

namespace Aseos

universe u v w

variable {ε : Type u} {α β γ δ : Type v}

inductive Agrees (R : α → β → Prop) : Except ε α → Except ε β → Prop
  | ok {a b} : R a b → Agrees R (.ok a) (.ok b)
  | error (e e') : Agrees R (.error e) (.error e')

namespace Agrees

variable {R : α → β → Prop} {S : γ → δ → Prop}

theorem bind {x : Except ε α} {y : Except ε β} {f : α → Except ε γ} {g : β → Except ε δ}
    (h : Agrees R x y) (hfg : ∀ a b, R a b → Agrees S (f a) (g b)) :
    Agrees S (x >>= f) (y >>= g) := by
  cases h with
  | ok hab => exact hfg _ _ hab
  | error e e' => exact .error e e'

theorem mono {R' : α → β → Prop} {x : Except ε α} {y : Except ε β} (h : Agrees R x y)
    (hR : ∀ a b, R a b → R' a b) : Agrees R' x y := by
  cases h with
  | ok hab => exact .ok (hR _ _ hab)
  | error e e' => exact .error e e'

theorem of_ok_iff {x y : Except ε α} (h : ∀ a, x = .ok a ↔ y = .ok a) : Agrees Eq x y := by
  cases hx : x with
  | ok a => rw [(h a).mp hx]; exact .ok rfl
  | error e =>
    cases hy : y with
    | ok b => rw [(h b).mpr hy] at hx; cases hx
    | error e' => exact .error e e'

theorem ok_left {a : α} {y : Except ε β} (h : Agrees R (.ok a) y) : ∃ b, y = .ok b ∧ R a b := by
  cases h with
  | ok hab => exact ⟨_, rfl, hab⟩

theorem symm {x : Except ε α} {y : Except ε β} (h : Agrees R x y) :
    Agrees (fun b a => R a b) y x := by
  cases h with
  | ok hab => exact .ok hab
  | error e e' => exact .error e' e

theorem trans {T : β → γ → Prop} {x : Except ε α} {y : Except ε β} {z : Except ε γ}
    (h : Agrees R x y) (h' : Agrees T y z) : Agrees (fun a c => ∃ b, R a b ∧ T b c) x z := by
  cases h with
  | ok hab =>
    obtain ⟨c, rfl, hbc⟩ := h'.ok_left
    exact .ok ⟨_, hab, hbc⟩
  | error e e' =>
    cases h' with
    | error _ e'' => exact .error e e''

theorem of_eq {x y : Except ε α} (h : x = y) : Agrees Eq x y := by
  cases h
  cases x with
  | ok a => exact .ok rfl
  | error e => exact .error e e

theorem mapM {T : α → β → Prop} {f : α → Except ε γ} {g : β → Except ε δ} {l : List α}
    {l' : List β} (hl : List.Forall₂ T l l') (hfg : ∀ a b, T a b → Agrees S (f a) (g b)) :
    Agrees (List.Forall₂ S) (l.mapM f) (l'.mapM g) := by
  induction hl with
  | nil => exact .ok .nil
  | cons hab _ ih =>
    rw [List.mapM_cons, List.mapM_cons]
    refine (hfg _ _ hab).bind fun c d hcd => ih.bind fun cs ds hcds => ?_
    exact .ok (.cons hcd hcds)

theorem ite {p q : Prop} [Decidable p] [Decidable q] {x x' : Except ε α} {y y' : Except ε β}
    (hpq : p ↔ q) (hx : Agrees R x y) (hx' : Agrees R x' y') :
    Agrees R (if p then x else x') (if q then y else y') := by
  by_cases hp : p
  · rw [if_pos hp, if_pos (hpq.mp hp)]
    exact hx
  · rw [if_neg hp, if_neg (fun hq => hp (hpq.mpr hq))]
    exact hx'

end Agrees

theorem forall₂_left {α β : Type*} {R : α → β → Prop} {l : List α} {l' : List β}
    (h : List.Forall₂ R l l') : ∀ a ∈ l, ∃ b ∈ l', R a b := by
  induction h with
  | nil => simp
  | cons hab _ ih =>
    refine List.forall_mem_cons.mpr ⟨⟨_, List.mem_cons_self, hab⟩, fun a ha => ?_⟩
    obtain ⟨b, hb, hrel⟩ := ih a ha
    exact ⟨b, List.mem_cons_of_mem _ hb, hrel⟩

namespace Except

theorem bind_eq_ok {x : Except ε α} {f : α → Except ε β} {b : β} :
    (x >>= f) = .ok b ↔ ∃ a, x = .ok a ∧ f a = .ok b := by
  cases x with
  | ok a => exact ⟨fun h => ⟨a, rfl, h⟩, by rintro ⟨_, ⟨⟩, h⟩; exact h⟩
  | error e => exact ⟨nofun, by rintro ⟨_, ⟨⟩, _⟩⟩

theorem ok_bind {a : α} {f : α → Except ε β} : (Except.ok a >>= f) = f a := rfl

theorem bind_congr_ok {x : Except ε α} {f g : α → Except ε β} (h : ∀ a, x = .ok a → f a = g a) :
    (x >>= f) = (x >>= g) := by
  cases x with
  | error e => rfl
  | ok a => exact h a rfl

theorem toOption_eq_some {x : Except ε α} {a : α} : x.toOption = some a ↔ x = .ok a := by
  cases x with
  | ok b => simp [Except.toOption]
  | error e => simp [Except.toOption]

theorem mapM_eq_ok {f : α → Except ε β} {l : List α} {l' : List β} :
    l.mapM f = .ok l' ↔ List.Forall₂ (fun a b => f a = .ok b) l l' := by
  induction l generalizing l' with
  | nil =>
    rw [List.mapM_nil, List.forall₂_nil_left_iff]
    exact ⟨fun h => (Except.ok.inj h).symm, fun h => congrArg _ h.symm⟩
  | cons a l ih =>
    rw [List.mapM_cons, bind_eq_ok]
    constructor
    · rintro ⟨b, hb, h⟩
      obtain ⟨bs, hbs, h⟩ := bind_eq_ok.mp h
      obtain rfl := Except.ok.inj h
      exact .cons hb (ih.mp hbs)
    · intro h
      obtain ⟨b, bs, hb, hbs, rfl⟩ := List.forall₂_cons_left_iff.mp h
      exact ⟨b, hb, bind_eq_ok.mpr ⟨bs, ih.mpr hbs, rfl⟩⟩

theorem eq_ok_of_mapM {f : α → Except ε β} {l : List α} {l' : List β}
    (h : l.mapM f = .ok l') (a : α) (ha : a ∈ l) : ∃ b, f a = .ok b := by
  obtain ⟨b, -, hb⟩ := forall₂_left (mapM_eq_ok.mp h) a ha
  exact ⟨b, hb⟩

theorem exists_of_mem_mapM {f : α → Except ε β} {l : List α} {l' : List β}
    (h : l.mapM f = .ok l') : ∀ b ∈ l', ∃ a ∈ l, f a = .ok b :=
  forall₂_left (mapM_eq_ok.mp h).flip

theorem forM_eq_ok {f : α → Except ε Unit} {l : List α} :
    l.forM f = .ok () ↔ ∀ a ∈ l, f a = .ok () := by
  induction l with
  | nil => simp [List.forM_nil, pure, Except.pure]
  | cons a l ih =>
    rw [List.forall_mem_cons, ← ih]
    exact bind_eq_ok.trans ⟨fun ⟨_, ha, h⟩ => ⟨ha, h⟩, fun ⟨ha, h⟩ => ⟨(), ha, h⟩⟩

theorem anyM_eq_false {f : α → Except ε Bool} {l : List α} (h : l.anyM f = .ok false) :
    ∀ a ∈ l, f a = .ok false := by
  induction l with
  | nil => simp
  | cons a l ih =>
    obtain ⟨found, hfound, h⟩ := bind_eq_ok.mp h
    cases found with
    | false => exact List.forall_mem_cons.mpr ⟨hfound, ih h⟩
    | true => cases h

theorem mapM_perm {f : α → Except ε β} {l₁ l₂ : List α} {r₁ : List β} (h : l₁.Perm l₂)
    (h₁ : l₁.mapM f = .ok r₁) : ∃ r₂, l₂.mapM f = .ok r₂ ∧ r₁.Perm r₂ := by
  obtain ⟨r₂, hrel, hperm⟩ := List.perm_comp_forall₂ h.symm (mapM_eq_ok.mp h₁)
  exact ⟨r₂, mapM_eq_ok.mpr hrel, hperm.symm⟩

end Except

theorem Agrees.mapM_perm {f : α → Except ε β} {l₁ l₂ : List α} (h : l₁.Perm l₂) :
    Agrees List.Perm (l₁.mapM f) (l₂.mapM f) := by
  cases h₁ : l₁.mapM f with
  | ok r₁ =>
    obtain ⟨r₂, h₂, hperm⟩ := Except.mapM_perm h h₁
    exact h₂ ▸ .ok hperm
  | error e =>
    cases h₂ : l₂.mapM f with
    | ok r₂ =>
      obtain ⟨r₁, h₁', -⟩ := Except.mapM_perm h.symm h₂
      rw [h₁'] at h₁
      cases h₁
    | error e' => exact .error e e'

end Aseos
