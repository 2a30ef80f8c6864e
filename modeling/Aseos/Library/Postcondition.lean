import Mathlib.Tactic.Common

namespace Aseos

universe u v

structure Meets {ε : Type u} {α : Type v} (E : ε → Prop) (x : Except ε α) (Q : α → Prop) :
    Prop where
  of_ok : ∀ a, x = .ok a → Q a
  of_error : ∀ e, x = .error e → E e

namespace Meets

section Outcomes

variable {ε : Type u} {α : Type v} {E : ε → Prop} {Q R : α → Prop} {x y : Except ε α}

theorem ok {a : α} (h : Q a) : Meets E (.ok a : Except ε α) Q :=
  ⟨fun _ hx => Except.ok.inj hx ▸ h, nofun⟩

theorem error {e : ε} (h : E e) : Meets E (.error e : Except ε α) Q :=
  ⟨nofun, fun _ hx => Except.error.inj hx ▸ h⟩

theorem mono (h : Meets E x R) (hQ : ∀ a, R a → Q a) : Meets E x Q :=
  ⟨fun a hx => hQ a (h.of_ok a hx), h.of_error⟩

theorem ne_error {e : ε} (h : Meets E x Q) (he : ¬ E e) : x ≠ .error e :=
  fun hx => he (h.of_error e hx)

theorem ite {p : Prop} [Decidable p] (hx : p → Meets E x Q) (hy : ¬ p → Meets E y Q) :
    Meets E (if p then x else y) Q := by
  by_cases hp : p
  · rw [if_pos hp]
    exact hx hp
  · rw [if_neg hp]
    exact hy hp

end Outcomes

section Sequence

variable {ε : Type u} {α β : Type v} {E : ε → Prop}

theorem bind {x : Except ε α} {f : α → Except ε β} {R : α → Prop} {Q : β → Prop}
    (hx : Meets E x R) (hf : ∀ a, R a → Meets E (f a) Q) : Meets E (x >>= f) Q := by
  cases x with
  | ok a => exact hf a (hx.of_ok a rfl)
  | error e => exact .error (hx.of_error e rfl)

end Sequence

end Meets

end Aseos
