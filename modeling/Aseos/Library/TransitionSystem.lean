import Mathlib.Logic.Relation

namespace Aseos.TransitionSystem

universe u v
variable {State : Type u} {Label : Type v}

inductive Run (step : State → Label → State → Prop) : State → List Label → State → Prop
  | nil (s) : Run step s [] s
  | snoc {s t u labels label} : Run step s labels t → step t label u →
      Run step s (labels ++ [label]) u

def Reachable (initial : State → Prop) (step : State → Label → State → Prop) (s : State) : Prop :=
  ∃ s₀ labels, initial s₀ ∧ Run step s₀ labels s

variable {initial : State → Prop} {step : State → Label → State → Prop} {P : State → Prop}

theorem Run.invariant (hstep : ∀ s l t, step s l t → P s → P t)
    {s t : State} {labels : List Label} (h : Run step s labels t) (hs : P s) : P t := by
  induction h with
  | nil => exact hs
  | snoc _ hlast ih => exact hstep _ _ _ hlast ih

theorem Run.cons {s t u : State} {l : Label} {labels : List Label} (hs : step s l t)
    (h : Run step t labels u) : Run step s (l :: labels) u := by
  induction h with
  | nil => exact (Run.nil s).snoc hs
  | snoc _ hlast ih => exact ih.snoc hlast

theorem Run.mono {step' : State → Label → State → Prop} (hstep : ∀ s l t, step s l t → step' s l t)
    {s t : State} {labels : List Label} (h : Run step s labels t) : Run step' s labels t := by
  induction h with
  | nil => exact .nil _
  | snoc _ hlast ih => exact ih.snoc (hstep _ _ _ hlast)

def replay (next : State → Label → Option State) : State → List Label → Option State
  | s, [] => some s
  | s, l :: labels => (next s l).bind fun t => replay next t labels

theorem run_of_replay {next : State → Label → Option State} {s t : State} {labels : List Label}
    (h : replay next s labels = some t) : Run (fun s l t => next s l = some t) s labels t := by
  induction labels generalizing s with
  | nil =>
    obtain rfl : s = t := by simpa [replay] using h
    exact .nil s
  | cons l labels ih =>
    obtain ⟨u, hu, hrest⟩ := Option.bind_eq_some_iff.mp h
    exact (ih hrest).cons hu

theorem Reachable.refl {s : State} (h : initial s) : Reachable initial step s :=
  ⟨s, [], h, .nil s⟩

theorem Reachable.tail {s t : State} {l : Label} (h : Reachable initial step s)
    (hst : step s l t) : Reachable initial step t := by
  obtain ⟨s₀, labels, h₀, hrun⟩ := h
  exact ⟨s₀, labels ++ [l], h₀, hrun.snoc hst⟩

theorem Reachable.invariant (hinit : ∀ s, initial s → P s)
    (hstep : ∀ s l t, step s l t → P s → P t) {s : State}
    (h : Reachable initial step s) : P s := by
  obtain ⟨s₀, labels, h₀, hrun⟩ := h
  exact hrun.invariant hstep (hinit s₀ h₀)

end Aseos.TransitionSystem
