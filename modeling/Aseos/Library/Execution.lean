import Mathlib.Data.List.Basic

namespace Aseos

-- A computation over a state that an exception leaves as it is.
def Execution (ε σ α : Type) := σ → Except ε α × σ

namespace Execution

variable {ε σ α β : Type}

instance : Monad (Execution ε σ) where
  pure a := fun s => (.ok a, s)
  bind x f := fun s =>
    match x s with
    | (.ok a, t) => f a t
    | (.error e, t) => (.error e, t)

def throw (e : ε) : Execution ε σ α := fun s => (.error e, s)

def lift (x : Except ε α) : Execution ε σ α := fun s => (x, s)

def modify (f : σ → σ) : Execution ε σ Unit := fun s => (.ok (), f s)

-- `try { x } catch (error) { handler(error) }`
def recover (x : Execution ε σ α) (handler : ε → Execution ε σ α) : Execution ε σ α := fun s =>
  match x s with
  | (.ok a, t) => (.ok a, t)
  | (.error e, t) => handler e t

-- `try { x; result = true } catch { result = false }`
def attempt (x : Execution ε σ α) : Execution ε σ Bool := fun s =>
  match x s with
  | (.ok _, t) => (.ok true, t)
  | (.error _, t) => (.ok false, t)

def Triple (P : σ → Prop) (x : Execution ε σ α) (Q : α → σ → Prop) (E : ε → σ → Prop) : Prop :=
  ∀ s, P s →
    match x s with
    | (.ok a, t) => Q a t
    | (.error e, t) => E e t

section Rules

variable {P : σ → Prop} {E E' : ε → σ → Prop}

theorem Triple.ok {x : Execution ε σ α} {Q : α → σ → Prop} (h : Triple P x Q E) {s t : σ} {a : α}
    (hs : P s) (hx : x s = (.ok a, t)) : Q a t := by
  have hpost := h s hs
  rw [hx] at hpost
  exact hpost

theorem Triple.error {x : Execution ε σ α} {Q : α → σ → Prop} (h : Triple P x Q E) {s t : σ}
    {e : ε} (hs : P s) (hx : x s = (.error e, t)) : E e t := by
  have hpost := h s hs
  rw [hx] at hpost
  exact hpost

theorem Triple.mono {P' : σ → Prop} {x : Execution ε σ α} {Q Q' : α → σ → Prop}
    (h : Triple P x Q E) (hP : ∀ s, P' s → P s) (hQ : ∀ a s, Q a s → Q' a s)
    (hE : ∀ e s, E e s → E' e s) : Triple P' x Q' E' := by
  intro s hs
  have hpost := h s (hP s hs)
  split
  · rename_i hx
    rw [hx] at hpost
    exact hQ _ _ hpost
  · rename_i hx
    rw [hx] at hpost
    exact hE _ _ hpost

theorem Triple.pure {a : α} {Q : α → σ → Prop} (h : ∀ s, P s → Q a s) :
    Triple P (Pure.pure a : Execution ε σ α) Q E := h

theorem Triple.throw {e : ε} {Q : α → σ → Prop} (h : ∀ s, P s → E e s) :
    Triple P (Execution.throw e : Execution ε σ α) Q E := h

theorem Triple.lift {x : Except ε α} {Q : α → σ → Prop} (hok : ∀ a s, x = .ok a → P s → Q a s)
    (herror : ∀ e s, P s → E e s) : Triple P (Execution.lift x) Q E := by
  intro s hs
  cases hx : x with
  | ok a => exact hok a s hx hs
  | error e => exact herror e s hs

theorem Triple.modify {f : σ → σ} {Q : Unit → σ → Prop} (h : ∀ s, P s → Q () (f s)) :
    Triple P (Execution.modify f : Execution ε σ Unit) Q E := h

theorem Triple.bind {x : Execution ε σ α} {f : α → Execution ε σ β} {R : α → σ → Prop}
    {Q : β → σ → Prop} (hx : Triple P x R E) (hf : ∀ a, Triple (R a) (f a) Q E) :
    Triple P (x >>= f) Q E := by
  intro s hs
  change match (match x s with
    | (.ok a, t) => f a t
    | (.error e, t) => (.error e, t)) with
    | (.ok b, t) => Q b t
    | (.error e, t) => E e t
  cases hxs : x s with
  | mk result t =>
    cases result with
    | ok a => exact hf a t (hx.ok hs hxs)
    | error e => exact hx.error hs hxs

theorem Triple.recover {x : Execution ε σ α} {handler : ε → Execution ε σ α} {Q : α → σ → Prop}
    (hx : Triple P x Q E') (hhandler : ∀ e, Triple (E' e) (handler e) Q E) :
    Triple P (x.recover handler) Q E := by
  intro s hs
  unfold Execution.recover
  cases hxs : x s with
  | mk result t =>
    cases result with
    | ok a => exact hx.ok hs hxs
    | error e => exact hhandler e t (hx.error hs hxs)

theorem Triple.attempt {x : Execution ε σ α} {Q : α → σ → Prop} {R : Bool → σ → Prop}
    (hx : Triple P x Q E') (hok : ∀ a s, Q a s → R true s)
    (herror : ∀ e s, E' e s → R false s) : Triple P x.attempt R E := by
  intro s hs
  unfold Execution.attempt
  cases hxs : x s with
  | mk result t =>
    cases result with
    | ok a => exact hok a t (hx.ok hs hxs)
    | error e => exact herror e t (hx.error hs hxs)

end Rules

theorem bind_eq_ok {x : Execution ε σ α} {f : α → Execution ε σ β} {s u : σ} {b : β} :
    (x >>= f) s = (.ok b, u) ↔ ∃ a t, x s = (.ok a, t) ∧ f a t = (.ok b, u) := by
  change (match x s with
    | (.ok a, t) => f a t
    | (.error e, t) => (.error e, t)) = (.ok b, u) ↔ _
  cases hxs : x s with
  | mk result t =>
    cases result with
    | ok a => simp
    | error e => simp

theorem bind_eq_error {x : Execution ε σ α} {f : α → Execution ε σ β} {s u : σ} {e : ε} :
    (x >>= f) s = (.error e, u) ↔
      x s = (.error e, u) ∨ ∃ a t, x s = (.ok a, t) ∧ f a t = (.error e, u) := by
  change (match x s with
    | (.ok a, t) => f a t
    | (.error e, t) => (.error e, t)) = (.error e, u) ↔ _
  cases hxs : x s with
  | mk result t =>
    cases result with
    | ok a => simp
    | error e => simp

theorem recover_eq_error {x : Execution ε σ α} {handler : ε → Execution ε σ α} {s u : σ} {e : ε}
    (h : x.recover handler s = (.error e, u)) :
    ∃ e' t, x s = (.error e', t) ∧ handler e' t = (.error e, u) := by
  unfold recover at h
  cases hxs : x s with
  | mk result t =>
    rw [hxs] at h
    cases result with
    | ok a => cases h
    | error e' => exact ⟨e', t, rfl, h⟩

theorem recover_of_ok {x : Execution ε σ α} {handler : ε → Execution ε σ α} {s t : σ} {a : α}
    (h : x s = (.ok a, t)) : x.recover handler s = (.ok a, t) := by
  rw [recover, h]

theorem recover_of_error {x : Execution ε σ α} {handler : ε → Execution ε σ α} {s t : σ} {e : ε}
    (h : x s = (.error e, t)) : x.recover handler s = handler e t := by
  rw [recover, h]

theorem recover_eq_ok {x : Execution ε σ α} {handler : ε → Execution ε σ α} {s t : σ} {a : α}
    (hthrow : ∀ e s b t, handler e s ≠ (.ok b, t)) (h : x.recover handler s = (.ok a, t)) :
    x s = (.ok a, t) := by
  unfold recover at h
  cases hx : x s with
  | mk result u =>
    rw [hx] at h
    cases result with
    | ok b => exact h
    | error e => exact absurd h (hthrow e u a t)

theorem bind_of_ok {x : Execution ε σ α} {f : α → Execution ε σ β} {s t : σ} {a : α}
    (h : x s = (.ok a, t)) : (x >>= f) s = f a t := by
  change (match x s with
    | (.ok a, t) => f a t
    | (.error e, t) => (.error e, t)) = f a t
  rw [h]

theorem bind_of_error {x : Execution ε σ α} {f : α → Execution ε σ β} {s t : σ} {e : ε}
    (h : x s = (.error e, t)) : (x >>= f) s = (.error e, t) := by
  change (match x s with
    | (.ok a, t) => f a t
    | (.error e, t) => (.error e, t)) = _
  rw [h]

theorem attempt_ne_error {x : Execution ε σ α} {s t : σ} {e : ε} :
    attempt x s ≠ (.error e, t) := by
  unfold attempt
  cases hx : x s with
  | mk result u =>
    cases result with
    | ok a => exact nofun
    | error e' => exact nofun

theorem pure_bind (a : α) (f : α → Execution ε σ β) : (pure a : Execution ε σ α) >>= f = f a := rfl

theorem bind_pure (x : Execution ε σ α) : x >>= pure = x := by
  funext s
  cases hx : x s with
  | mk result t =>
    cases result with
    | ok a => exact bind_of_ok hx
    | error e => exact bind_of_error hx

theorem bind_assoc {γ : Type} (x : Execution ε σ α) (f : α → Execution ε σ β)
    (g : β → Execution ε σ γ) : x >>= f >>= g = x >>= fun a => f a >>= g := by
  funext s
  cases hx : x s with
  | mk result t =>
    cases result with
    | ok a =>
      rw [bind_of_ok hx]
      change (match (x >>= f) s with
        | (.ok b, t) => g b t
        | (.error e, t) => (.error e, t)) = (f a >>= g) t
      rw [bind_of_ok hx]
      rfl
    | error e => rw [bind_of_error hx, bind_of_error (bind_of_error hx)]

theorem lift_twice (x : Except ε α) (f : α → Execution ε σ β) :
    (lift x >>= fun _ => lift x >>= f) = lift x >>= f := by
  cases x with
  | ok a => rfl
  | error e => rfl

end Execution

end Aseos
