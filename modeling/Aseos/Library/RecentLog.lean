import Mathlib.Data.List.Nodup
import Mathlib.Data.List.Infix
import Mathlib.Data.Finset.Card
import Mathlib.Algebra.Order.Ring.Int
import Aseos.Library.LastWriter

namespace Aseos.RecentLog

universe u v

structure Insertion (κ : Type u) (ν : Type v) where
  key : κ
  value : ν
  time : ℤ

variable {κ : Type u} {ν : Type v}

section Table

variable (capacity : ℕ) (lifetime : ℤ)

def recent (log : List (Insertion κ ν)) : List (Insertion κ ν) :=
  log.drop (log.length - capacity)

def Live (now : ℤ) (i : Insertion κ ν) : Prop := now < i.time + lifetime

instance (now : ℤ) (i : Insertion κ ν) : Decidable (Live lifetime now i) :=
  inferInstanceAs (Decidable (_ < _))

def held (now : ℤ) (log : List (Insertion κ ν)) : List (Insertion κ ν) :=
  (recent capacity log).filter fun i => Live lifetime now i

inductive Grown : List (Insertion κ ν) → Prop
  | nil : Grown []
  | snoc {log i} : Grown log → (∀ j ∈ log, j.time ≤ i.time) →
      i.key ∉ (held capacity lifetime i.time log).map (·.key) → Grown (log ++ [i])

end Table

section Held

variable {capacity : ℕ} {lifetime now : ℤ} {log : List (Insertion κ ν)} {i : Insertion κ ν}

theorem recent_snoc (hcapacity : 0 < capacity) (log : List (Insertion κ ν)) (i : Insertion κ ν) :
    recent capacity (log ++ [i]) = recent (capacity - 1) log ++ [i] := by
  rw [recent, recent, List.length_append, List.length_singleton,
    List.drop_append_of_le_length (by omega)]
  congr 2
  omega

theorem recent_of_le {after : List (Insertion κ ν)} (before : List (Insertion κ ν))
    (i : Insertion κ ν) (h : capacity ≤ after.length) :
    recent capacity (before ++ i :: after) = after.drop (after.length - capacity) := by
  rw [recent, List.length_append, List.length_cons,
    show before.length + (after.length + 1) - capacity =
      before.length + (1 + (after.length - capacity)) by omega,
    List.drop_append, List.drop_eq_nil_of_le (by omega), List.nil_append,
    Nat.add_sub_cancel_left, Nat.add_comm 1, List.drop_succ_cons]

theorem mem_recent {after : List (Insertion κ ν)} (before : List (Insertion κ ν))
    (i : Insertion κ ν) (h : after.length < capacity) :
    i ∈ recent capacity (before ++ i :: after) := by
  rw [recent, List.length_append, List.length_cons, List.drop_append_of_le_length (by omega)]
  exact List.mem_append_right _ List.mem_cons_self

theorem recent_drop (capacity : ℕ) (log : List (Insertion κ ν)) :
    recent (capacity - 1) log =
      (recent capacity log).drop (log.length - (capacity - 1) - (log.length - capacity)) := by
  rw [recent, recent, List.drop_drop]
  congr 1
  omega

theorem recent_sublist (capacity : ℕ) (log : List (Insertion κ ν)) :
    (recent (capacity - 1) log).Sublist (recent capacity log) := by
  rw [recent_drop]
  exact List.drop_sublist _ _

theorem length_held (now : ℤ) (log : List (Insertion κ ν)) :
    (held capacity lifetime now log).length ≤ capacity := by
  refine (List.length_filter_le _ _).trans ?_
  rw [recent, List.length_drop]
  omega

theorem Live.mono {earlier later : ℤ} (h : Live lifetime later i) (hle : earlier ≤ later) :
    Live lifetime earlier i := lt_of_le_of_lt hle h

theorem Live.later {j : Insertion κ ν} (h : Live lifetime now i) (hle : i.time ≤ j.time) :
    Live lifetime now j := h.trans_le (by omega)

theorem held_held {later : ℤ} (hle : now ≤ later) (log : List (Insertion κ ν)) :
    (held capacity lifetime now log).filter (fun i => Live lifetime later i) =
      held capacity lifetime later log := by
  rw [held, held, List.filter_filter]
  refine List.filter_congr fun i _ => ?_
  have hmono : Live lifetime later i → Live lifetime now i := fun h => h.mono hle
  rw [Bool.and_eq_left_iff_imp]
  exact fun h => decide_eq_true (hmono (of_decide_eq_true h))

theorem Grown.pairwise (h : Grown capacity lifetime log) :
    log.Pairwise fun i j => i.time ≤ j.time := by
  induction h with
  | nil => exact .nil
  | snoc _ htimes _ ih =>
    exact List.pairwise_append.mpr ⟨ih, List.pairwise_singleton _ _, fun j hj i hi =>
      List.mem_singleton.mp hi ▸ htimes j hj⟩

theorem Grown.nodup_held (hcapacity : 0 < capacity) (h : Grown capacity lifetime log)
    (htimes : ∀ j ∈ log, j.time ≤ now) :
    ((held capacity lifetime now log).map (·.key)).Nodup := by
  induction h generalizing now with
  | nil => simp [held, recent]
  | @snoc log i hlog hbefore hnew ih =>
    have hle : i.time ≤ now := htimes i (by simp)
    -- What is held of the earlier insertions was held when the last one came.
    have hsub : ((recent (capacity - 1) log).filter fun j => Live lifetime now j).Sublist
        (held capacity lifetime i.time log) := by
      have hlive : ((recent (capacity - 1) log).filter fun j => Live lifetime now j).Sublist
          ((recent (capacity - 1) log).filter fun j => Live lifetime i.time j) :=
        List.monotone_filter_right _ fun j hj =>
          decide_eq_true ((of_decide_eq_true hj : Live lifetime now j).mono hle)
      exact hlive.trans ((recent_sublist capacity log).filter _)
    rw [held, recent_snoc hcapacity, List.filter_append, List.map_append]
    refine List.Nodup.append ((hsub.map _).nodup (ih hbefore)) ?_ ?_
    · exact ((List.filter_sublist (l := [i])).map _).nodup (List.nodup_singleton _)
    · intro k hk hi
      obtain ⟨j, hj, rfl⟩ := List.mem_map.mp hi
      obtain rfl := List.mem_singleton.mp (List.mem_of_mem_filter hj)
      exact hnew ((hsub.map _).subset hk)

theorem Grown.held_snoc (hcapacity : 0 < capacity) (hlifetime : 0 < lifetime)
    (h : Grown capacity lifetime log) (i : Insertion κ ν) :
    held capacity lifetime i.time (log ++ [i]) =
      (held capacity lifetime i.time log).drop
        ((held capacity lifetime i.time log).length + 1 - capacity) ++ [i] := by
  have hlive : Live lifetime i.time i := by
    rw [Live]
    omega
  rw [held, recent_snoc hcapacity, List.filter_append, List.filter_singleton,
    decide_eq_true hlive, cond_true]
  congr 1
  by_cases hfull : log.length < capacity
  · have hlength : (held capacity lifetime i.time log).length + 1 - capacity = 0 := by
      have hle := List.length_filter_le (fun j => decide (Live lifetime i.time j))
        (recent capacity log)
      rw [recent, List.length_drop] at hle
      rw [held, recent]
      omega
    rw [hlength, List.drop_zero, held, recent, recent, Nat.sub_eq_zero_of_le (by omega),
      Nat.sub_eq_zero_of_le (by omega)]
  have hdrop : log.length - (capacity - 1) - (log.length - capacity) = 1 := by omega
  rw [recent_drop, hdrop]
  have hpairwise : (recent capacity log).Pairwise fun i j => i.time ≤ j.time :=
    h.pairwise.sublist (List.drop_sublist _ _)
  have hlength : (recent capacity log).length = capacity := by
    rw [recent, List.length_drop]
    omega
  rw [held]
  cases hrecent : recent capacity log with
  | nil =>
    rw [hrecent] at hlength
    exact absurd hlength hcapacity.ne
  | cons j rest =>
    rw [hrecent] at hlength hpairwise
    rw [List.drop_one, List.tail_cons]
    by_cases hj : Live lifetime i.time j
    · -- The oldest is live, and with it all the others.
      have hall : ∀ j' ∈ rest, Live lifetime i.time j' := fun j' hj' =>
        hj.later ((List.pairwise_cons.mp hpairwise).1 j' hj')
      have hrest : rest.filter (fun j' => Live lifetime i.time j') = rest :=
        List.filter_eq_self.mpr fun j' hj' => decide_eq_true (hall j' hj')
      have hfull : (j :: rest).filter (fun j' => Live lifetime i.time j') = j :: rest := by
        rw [List.filter_cons, if_pos (decide_eq_true hj), hrest]
      rw [hfull, hrest, hlength, Nat.add_sub_cancel_left, List.drop_one, List.tail_cons]
    · have hle := List.length_filter_le (fun j' => decide (Live lifetime i.time j')) rest
      rw [List.length_cons] at hlength
      rw [List.filter_cons, if_neg (by simpa using hj), Nat.sub_eq_zero_of_le (by omega),
        List.drop_zero]

end Held

section Find

variable [DecidableEq κ] (capacity : ℕ) (lifetime : ℤ)

def latest (k : κ) : List (Insertion κ ν) → Option (Insertion κ ν × List (Insertion κ ν))
  | [] => none
  | i :: log =>
      match latest k log with
      | some found => some found
      | none => if i.key = k then some (i, log) else none

def find (now : ℤ) (log : List (Insertion κ ν)) (k : κ) : Option (Insertion κ ν) :=
  match latest k log with
  | some (i, after) =>
      if Live lifetime now i ∧ (after.map (·.key)).toFinset.card < capacity then some i else none
  | none => none

variable {capacity lifetime} {now : ℤ} {log : List (Insertion κ ν)}

theorem latest_cases (k : κ) (log : List (Insertion κ ν)) :
    (latest k log = none ∧ k ∉ log.map (·.key)) ∨
      ∃ before i after, latest k log = some (i, after) ∧ log = before ++ i :: after ∧
        i.key = k ∧ k ∉ after.map (·.key) := by
  induction log with
  | nil => exact .inl ⟨rfl, by simp⟩
  | cons j log ih =>
    rw [latest]
    rcases ih with ⟨hnone, hnew⟩ | ⟨before, i, after, hsome, rfl, hkey, hafter⟩
    · rw [hnone]
      dsimp only
      split
      · rename_i hkey
        exact .inr ⟨[], j, log, rfl, rfl, hkey, hnew⟩
      · rename_i hkey
        refine .inl ⟨rfl, fun hmem => ?_⟩
        obtain hk | hk := List.mem_cons.mp hmem
        · exact hkey hk.symm
        · exact hnew hk
    · rw [hsome]
      exact .inr ⟨j :: before, i, after, rfl, rfl, hkey, hafter⟩

theorem Grown.card_after (hcapacity : 0 < capacity) (h : Grown capacity lifetime log)
    (htimes : ∀ j ∈ log, j.time ≤ now) {before after : List (Insertion κ ν)}
    {i : Insertion κ ν} (hlog : log = before ++ i :: after) (hlive : Live lifetime now i) :
    (after.map (·.key)).toFinset.card < capacity ↔ after.length < capacity := by
  constructor
  · intro hcard
    by_contra hlength
    have hnodup := h.nodup_held hcapacity htimes
    have hpairwise := h.pairwise
    subst hlog
    have hrecent := recent_of_le before i (not_lt.mp hlength)
    have hall : ∀ j ∈ after.drop (after.length - capacity), Live lifetime now j := by
      intro j hj
      have hafter := (List.pairwise_append.mp hpairwise).2.1
      exact hlive.later ((List.pairwise_cons.mp hafter).1 j (List.mem_of_mem_drop hj))
    have hheld : held capacity lifetime now (before ++ i :: after) =
        after.drop (after.length - capacity) := by
      rw [held, hrecent]
      exact List.filter_eq_self.mpr fun j hj => decide_eq_true (hall j hj)
    rw [hheld] at hnodup
    have hsub : ((after.drop (after.length - capacity)).map (·.key)).toFinset ⊆
        (after.map (·.key)).toFinset := by
      intro k hk
      rw [List.mem_toFinset] at hk ⊢
      exact ((List.drop_sublist _ _).map _).subset hk
    have hle := Finset.card_le_card hsub
    rw [List.toFinset_card_of_nodup hnodup, List.length_map, List.length_drop] at hle
    omega
  · intro hlength
    refine (List.toFinset_card_le _).trans_lt ?_
    rwa [List.length_map]

theorem Grown.lookup_held (hcapacity : 0 < capacity) (h : Grown capacity lifetime log)
    (htimes : ∀ j ∈ log, j.time ≤ now) (k : κ) :
    LastWriter.lookup Insertion.key (held capacity lifetime now log) k =
      find capacity lifetime now log k := by
  rw [find]
  rcases latest_cases k log with ⟨hnone, hnew⟩ | ⟨before, i, after, hsome, hlog, rfl, hafter⟩
  · rw [hnone]
    refine List.find?_eq_none.mpr fun j hj hk => hnew ?_
    have hmem : j ∈ log := List.mem_of_mem_drop (List.mem_of_mem_filter hj)
    exact List.mem_map.mpr ⟨j, hmem, of_decide_eq_true hk⟩
  rw [hsome]
  dsimp only
  have hpairwise := h.pairwise
  have hnodup := h.nodup_held hcapacity htimes
  by_cases hlive : Live lifetime now i
  · have hcard := h.card_after hcapacity htimes hlog hlive
    by_cases hlength : after.length < capacity
    · have hmem : i ∈ held capacity lifetime now log :=
        List.mem_filter.mpr ⟨hlog ▸ mem_recent before i hlength, decide_eq_true hlive⟩
      rw [if_pos ⟨hlive, hcard.mpr hlength⟩]
      exact LastWriter.lookup_of_mem hnodup hmem
    · rw [if_neg fun hboth => hlength (hcard.mp hboth.2)]
      refine List.find?_eq_none.mpr fun j hj hk => hafter ?_
      have hrecent : j ∈ after.drop (after.length - capacity) := by
        rw [← recent_of_le before i (not_lt.mp hlength), ← hlog]
        exact List.mem_of_mem_filter hj
      exact List.mem_map.mpr ⟨j, List.mem_of_mem_drop hrecent, of_decide_eq_true hk⟩
  · rw [if_neg fun hboth => hlive hboth.1]
    refine List.find?_eq_none.mpr fun j hj hk => ?_
    have hjlive : Live lifetime now j := of_decide_eq_true (List.mem_filter.mp hj).2
    have hmem : j ∈ log := List.mem_of_mem_drop (List.mem_of_mem_filter hj)
    rw [hlog] at hmem hpairwise
    obtain hbefore | hlater := List.mem_append.mp hmem
    · have hle := (List.pairwise_append.mp hpairwise).2.2 j hbefore i List.mem_cons_self
      exact hlive (hjlive.later hle)
    · obtain rfl | hlater := List.mem_cons.mp hlater
      · exact hlive hjlive
      · exact hafter (List.mem_map.mpr ⟨j, hlater, of_decide_eq_true hk⟩)

end Find

end Aseos.RecentLog
