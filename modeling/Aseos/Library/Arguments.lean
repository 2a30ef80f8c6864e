import Mathlib.Data.List.Basic
import Mathlib.Tactic.Common

namespace Aseos

structure ArgumentRules (α : Type*) where
  backslash : α
  quote : α
  separates : α → Bool
  ends : α → Bool
  quote_ne_backslash : quote ≠ backslash
  backslash_joins : separates backslash = false

variable {α : Type*}

structure ArgumentReader (α : Type*) where
  quoted : Bool := false
  slashes : ℕ := 0
  argument : Option (List α) := none
  finished : List (List α) := []

namespace ArgumentReader

variable (rules : ArgumentRules α)

def text (r : ArgumentReader α) : List α :=
  r.argument.getD [] ++ List.replicate r.slashes rules.backslash

def started (r : ArgumentReader α) : Bool := r.argument.isSome || 0 < r.slashes

def finish (r : ArgumentReader α) : ArgumentReader α :=
  if r.started then { quoted := r.quoted, finished := r.finished ++ [r.text rules] } else r

structure Holds (r : ArgumentReader α) (finished : List (List α))
    (argument : List α) : Prop where
  unquoted : r.quoted = false
  started : r.started = true
  text : r.text rules = argument
  finished : r.finished = finished

variable {rules} in
theorem Holds.finish {r : ArgumentReader α} {finished : List (List α)} {argument : List α}
    (h : r.Holds rules finished argument) :
    r.finish rules = { finished := finished ++ [argument] } := by
  rw [ArgumentReader.finish, if_pos h.started, h.unquoted, h.text, h.finished]

variable [DecidableEq α]

def step (r : ArgumentReader α) (c : α) : ArgumentReader α :=
  if c = rules.backslash then { r with slashes := r.slashes + 1 }
  else if c = rules.quote then
    let half := r.argument.getD [] ++ List.replicate (r.slashes / 2) rules.backslash
    if r.slashes % 2 = 0 then { r with quoted := !r.quoted, slashes := 0, argument := some half }
    else { r with slashes := 0, argument := some (half ++ [rules.quote]) }
  else if rules.separates c && !r.quoted then r.finish rules
  else { r with slashes := 0, argument := some (r.text rules ++ [c]) }

def run (r : ArgumentReader α) (s : List α) : ArgumentReader α := s.foldl (step rules) r

@[simp] theorem run_nil (r : ArgumentReader α) : r.run rules [] = r := rfl

@[simp] theorem run_cons (r : ArgumentReader α) (c : α) (s : List α) :
    r.run rules (c :: s) = (r.step rules c).run rules s := rfl

@[simp] theorem run_append (r : ArgumentReader α) (s t : List α) :
    r.run rules (s ++ t) = (r.run rules s).run rules t := List.foldl_append ..

@[simp] theorem step_backslash (r : ArgumentReader α) :
    r.step rules rules.backslash = { r with slashes := r.slashes + 1 } := if_pos rfl

variable {rules}

theorem step_quote_even {r : ArgumentReader α} {n : ℕ} (h : r.slashes = 2 * n) :
    r.step rules rules.quote = { r with
      quoted := !r.quoted, slashes := 0,
      argument := some (r.argument.getD [] ++ List.replicate n rules.backslash) } := by
  have hhalf : r.slashes / 2 = n := by omega
  have heven : r.slashes % 2 = 0 := by omega
  simp only [step, rules.quote_ne_backslash, if_false, if_true, hhalf, heven]

theorem step_quote_odd {r : ArgumentReader α} {n : ℕ} (h : r.slashes = 2 * n + 1) :
    r.step rules rules.quote = { r with
      slashes := 0,
      argument := some (r.argument.getD [] ++ List.replicate n rules.backslash ++
        [rules.quote]) } := by
  have hhalf : r.slashes / 2 = n := by omega
  have hodd : r.slashes % 2 = 1 := by omega
  simp only [step, rules.quote_ne_backslash, if_false, if_true, hhalf, hodd, Nat.one_ne_zero]

theorem step_separator {r : ArgumentReader α} {c : α} (hq : c ≠ rules.quote)
    (hc : rules.separates c = true) (hr : r.quoted = false) :
    r.step rules c = r.finish rules := by
  have hb : c ≠ rules.backslash := by
    rintro rfl
    exact Bool.false_ne_true (rules.backslash_joins.symm.trans hc)
  simp only [step, hb, hq, hc, hr, if_false, Bool.not_false, Bool.and_self, if_true]

theorem step_character {r : ArgumentReader α} {c : α} (hb : c ≠ rules.backslash)
    (hq : c ≠ rules.quote) (hc : r.quoted = true ∨ rules.separates c = false) :
    r.step rules c = { r with slashes := 0, argument := some (r.text rules ++ [c]) } := by
  have hsep : (rules.separates c && !r.quoted) = false := by
    obtain h | h := hc <;> simp [h]
  simp only [step, hb, hq, hsep, if_false, Bool.false_eq_true]

@[simp] theorem run_slashes (r : ArgumentReader α) (n : ℕ) :
    r.run rules (List.replicate n rules.backslash) = { r with slashes := r.slashes + n } := by
  induction n generalizing r with
  | zero => rfl
  | succ n ih =>
    rw [List.replicate_succ, run_cons, step_backslash, ih]
    simp only [Nat.add_assoc, Nat.add_comm 1 n]

theorem Holds.step_plain {r : ArgumentReader α} {finished : List (List α)} {argument : List α}
    (h : r.Holds rules finished argument) {c : α} (hq : c ≠ rules.quote)
    (hc : rules.separates c = false) :
    (r.step rules c).Holds rules finished (argument ++ [c]) := by
  by_cases hb : c = rules.backslash
  · subst hb
    rw [step_backslash]
    exact ⟨h.unquoted, by simp [ArgumentReader.started], by
      rw [← h.text]
      simp only [ArgumentReader.text, List.replicate_succ', List.append_assoc], h.finished⟩
  · rw [step_character hb hq (.inr hc)]
    exact ⟨h.unquoted, rfl, by simp [ArgumentReader.text, ← h.text], h.finished⟩

theorem Holds.run_plain {r : ArgumentReader α} {finished : List (List α)} {argument : List α}
    (h : r.Holds rules finished argument) {s : List α}
    (hs : ∀ c ∈ s, c ≠ rules.quote ∧ rules.separates c = false) :
    (r.run rules s).Holds rules finished (argument ++ s) := by
  induction s generalizing r argument with
  | nil => simpa using h
  | cons c s ih =>
    obtain ⟨⟨hq, hc⟩, hs⟩ := List.forall_mem_cons.mp hs
    simpa using ih (h.step_plain hq hc) hs

theorem run_plain {finished : List (List α)} {c : α} {s : List α}
    (hs : ∀ d ∈ c :: s, d ≠ rules.quote ∧ rules.separates d = false) :
    (({ finished := finished } : ArgumentReader α).run rules (c :: s)).Holds rules finished
      (c :: s) := by
  obtain ⟨⟨hq, hc⟩, hs⟩ := List.forall_mem_cons.mp hs
  have hfirst : (({ finished := finished } : ArgumentReader α).step rules c).Holds rules
      finished [c] := by
    by_cases hb : c = rules.backslash
    · subst hb
      rw [step_backslash]
      exact ⟨rfl, rfl, rfl, rfl⟩
    · rw [step_character hb hq (.inr hc)]
      exact ⟨rfl, rfl, rfl, rfl⟩
  exact hfirst.run_plain hs

end ArgumentReader

namespace ArgumentRules

variable (rules : ArgumentRules α) [DecidableEq α]

def arguments (s : List α) : List (List α) :=
  (((({} : ArgumentReader α).run rules (s.takeWhile fun c => !rules.ends c)).finish
    rules)).finished

variable {rules}

open ArgumentReader in
theorem run_intercalate {word : List α → List α} {separator : α}
    (hq : separator ≠ rules.quote) (hsep : rules.separates separator = true)
    {l : List (List α)} (hword : ∀ argument ∈ l, ∀ finished,
      (({ finished := finished } : ArgumentReader α).run rules (word argument)).Holds rules
        finished argument) (finished : List (List α)) :
    ((({ finished := finished } : ArgumentReader α).run rules
      ([separator].intercalate (l.map word))).finish rules).finished = finished ++ l := by
  induction l generalizing finished with
  | nil => simp [ArgumentReader.finish, ArgumentReader.started]
  | cons argument l ih =>
    obtain ⟨hfirst, hrest⟩ := List.forall_mem_cons.mp hword
    have hfirst := hfirst finished
    cases l with
    | nil => simp [List.intercalate, hfirst.finish]
    | cons next l =>
      have htail := ih hrest (finished ++ [argument])
      rw [List.map_cons, List.map_cons, List.intercalate_cons_cons]
      rw [run_append, run_append, run_cons, run_nil,
        step_separator hq hsep hfirst.unquoted, hfirst.finish]
      simpa using htail

end ArgumentRules

end Aseos
