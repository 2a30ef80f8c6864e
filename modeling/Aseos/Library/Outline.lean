import Mathlib.Data.List.Nodup
import Mathlib.Tactic.Common

namespace Aseos

inductive Forest (α : Type*) where
  | nil
  | cons (label : α) (children siblings : Forest α)

namespace Forest

variable {α : Type*}

def roots : Forest α → List α
  | nil => []
  | cons label _ siblings => label :: siblings.roots

def size : Forest α → ℕ
  | nil => 0
  | cons _ children siblings => children.size + siblings.size + 1

def paths : Forest α → List (List α)
  | nil => []
  | cons label children siblings =>
      [label] :: (children.paths.map (label :: ·) ++ siblings.paths)

def Distinct : Forest α → Prop
  | nil => True
  | cons label children siblings =>
      label ∉ siblings.roots ∧ children.Distinct ∧ siblings.Distinct

theorem paths_length (f : Forest α) : f.paths.length = f.size := by
  induction f with
  | nil => rfl
  | cons label children siblings ihc ihs =>
    simp only [paths, size, List.length_cons, List.length_append, List.length_map, ihc, ihs]

theorem path_root {f : Forest α} {p : List α} (h : p ∈ f.paths) :
    ∃ label rest, p = label :: rest ∧ label ∈ f.roots := by
  induction f generalizing p with
  | nil => cases h
  | cons label children siblings _ ihs =>
    rw [paths, List.mem_cons, List.mem_append, List.mem_map] at h
    obtain rfl | ⟨q, -, rfl⟩ | h := h
    · exact ⟨label, [], rfl, List.mem_cons_self⟩
    · exact ⟨label, q, rfl, List.mem_cons_self⟩
    · obtain ⟨root, rest, rfl, hroot⟩ := ihs h
      exact ⟨root, rest, rfl, List.mem_cons_of_mem _ hroot⟩

theorem nil_notMem_paths (f : Forest α) : [] ∉ f.paths := by
  intro h
  obtain ⟨label, rest, hnil, -⟩ := path_root h
  cases hnil

theorem Distinct.paths_nodup {f : Forest α} (h : f.Distinct) : f.paths.Nodup := by
  induction f with
  | nil => exact List.nodup_nil
  | cons label children siblings ihc ihs =>
    obtain ⟨hlabel, hchildren, hsiblings⟩ := h
    have hother (p : List α) (hp : p ∈ siblings.paths) (q : List α) : p ≠ label :: q := by
      rintro rfl
      obtain ⟨root, rest, hroot, hmem⟩ := path_root hp
      exact hlabel ((List.cons.inj hroot).1 ▸ hmem)
    rw [paths, List.nodup_cons, List.nodup_append]
    refine ⟨?_, (ihc hchildren).map fun _ _ hpq => (List.cons.inj hpq).2, ihs hsiblings, ?_⟩
    · rw [List.mem_append, List.mem_map, not_or]
      refine ⟨?_, fun hmem => hother _ hmem [] rfl⟩
      rintro ⟨q, hq, hnil⟩
      exact nil_notMem_paths children ((List.cons.inj hnil).2 ▸ hq)
    · intro p hp q hq
      obtain ⟨p', -, rfl⟩ := List.mem_map.mp hp
      exact (hother q hq p').symm

def Outlined (ps : List (List α)) : Prop :=
  ∀ before p after, ps = before ++ p :: after →
    p.length = 1 ∨ ∃ earlier between, before = earlier ++ p.dropLast :: between ∧
      ∀ q ∈ between, p.length ≤ q.length

theorem Outlined.append {ps qs : List (List α)} (hps : Outlined ps) (hqs : Outlined qs) :
    Outlined (ps ++ qs) := by
  intro before p after hsplit
  obtain ⟨later, rfl, h⟩ | ⟨later, h, hlater⟩ := List.append_eq_append_iff.mp hsplit
  · obtain hroot | ⟨earlier, between, rfl, hdeeper⟩ := hqs later p after h
    · exact .inl hroot
    · exact .inr ⟨ps ++ earlier, between, by simp, hdeeper⟩
  · cases later with
    | nil =>
      obtain hroot | ⟨earlier, between, hnil, -⟩ := hqs [] p after (by simpa using hlater.symm)
      · exact .inl hroot
      · simp at hnil
    | cons q later =>
      obtain ⟨rfl, rfl⟩ := List.cons.inj hlater
      exact hps before p later h

theorem Outlined.under {ps : List (List α)} (h : Outlined ps) (hne : [] ∉ ps) (label : α) :
    Outlined ([label] :: ps.map (label :: ·)) := by
  intro before p after hsplit
  cases before with
  | nil =>
    obtain ⟨rfl, -⟩ := List.cons.inj hsplit
    exact .inl rfl
  | cons first before =>
    obtain ⟨rfl, hrest⟩ := List.cons.inj hsplit
    obtain ⟨ps₁, ps₂, rfl, rfl, hps₂⟩ := List.map_eq_append_iff.mp hrest
    obtain ⟨p', ps₃, rfl, rfl, rfl⟩ := List.map_eq_cons_iff.mp hps₂
    have hp' : p' ≠ [] := fun hnil => hne (by simp [hnil])
    refine .inr ?_
    obtain hroot | ⟨earlier, between, rfl, hdeeper⟩ := h ps₁ p' ps₃ rfl
    · obtain ⟨root, rfl⟩ := List.length_eq_one_iff.mp hroot
      refine ⟨[], ps₁.map (label :: ·), by simp, fun q hq => ?_⟩
      obtain ⟨q', hq', rfl⟩ := List.mem_map.mp hq
      have : q' ≠ [] := fun hnil => hne (by simp [← hnil, hq'])
      have := List.length_pos_iff.mpr this
      simp only [List.length_cons, List.length_nil]
      omega
    · refine ⟨[label] :: earlier.map (label :: ·), between.map (label :: ·), ?_, fun q hq => ?_⟩
      · simp [List.dropLast_cons_of_ne_nil hp']
      · obtain ⟨q', hq', rfl⟩ := List.mem_map.mp hq
        exact Nat.succ_le_succ (hdeeper q' hq')

theorem outlined_paths (f : Forest α) : Outlined f.paths := by
  induction f with
  | nil =>
    intro before p after h
    simp [paths] at h
  | cons label children siblings ihc ihs =>
    exact (ihc.under (nil_notMem_paths children) label).append ihs

end Forest

end Aseos
