import Mathlib.Data.List.Nodup
import Mathlib.Order.Bounds.Basic

namespace Aseos.LastWriter

universe u v w
variable {κ : Type u} {α : Type v} [DecidableEq κ]

section Table

variable (key : α → κ)


def lookup (rows : List α) (k : κ) : Option α := rows.find? (key · = k)

def upsert (rows : List α) (row : α) : List α :=
  if rows.any (key · = key row) then rows.map fun r => if key r = key row then row else r
  else rows ++ [row]

def latest (writes : List α) (k : κ) : Option α := (writes.filter (key · = k)).getLast?

end Table

theorem replaced_key (key : α → κ) (row r : α) :
    key (if key r = key row then row else r) = key r := by
  split
  · rename_i hsame
    exact hsame.symm
  · rfl

variable {key : α → κ} {rows writes : List α} {row : α} {k : κ}

theorem upsert_keys (h : (rows.map key).Nodup) : ((upsert key rows row).map key).Nodup := by
  unfold upsert
  split
  · have hkeys : (rows.map fun r => if key r = key row then row else r).map key = rows.map key := by
      rw [List.map_map]
      exact List.map_congr_left fun r _ => replaced_key key row r
    rw [hkeys]
    exact h
  · rename_i hnew
    rw [List.map_append, List.map_singleton]
    refine h.append (List.nodup_singleton _) (List.disjoint_singleton.mpr fun hmem => hnew ?_)
    obtain ⟨r, hr, hsame⟩ := List.mem_map.mp hmem
    exact List.any_eq_true.mpr ⟨r, hr, decide_eq_true hsame⟩

theorem lookup_replaced (rows : List α) (row : α) :
    lookup key (rows.map fun r => if key r = key row then row else r) k =
      if key row = k then (lookup key rows k).map fun _ => row else lookup key rows k := by
  induction rows with
  | nil => simp [lookup]
  | cons r rows ih =>
    have hcons (r : α) (rows : List α) :
        lookup key (r :: rows) k = if key r = k then some r else lookup key rows k := by
      rw [lookup, List.find?_cons]
      by_cases hk : key r = k
      · simp [hk]
      · simp [hk, lookup]
    rw [List.map_cons, hcons, hcons, replaced_key key, ih]
    by_cases hk : key r = k
    · subst hk
      by_cases hsame : key r = key row
      · simp [hsame]
      · simp [hsame, Ne.symm hsame]
    · simp [hk]

theorem lookup_upsert (rows : List α) (row : α) :
    lookup key (upsert key rows row) k =
      if key row = k then some row else lookup key rows k := by
  unfold upsert
  split
  · rename_i hany
    rw [lookup_replaced]
    by_cases hk : key row = k
    · subst hk
      obtain ⟨r, hr⟩ := Option.isSome_iff_exists.mp (List.find?_isSome.mpr
        (List.any_eq_true.mp hany))
      rw [if_pos rfl, if_pos rfl, lookup, hr]
      rfl
    · rw [if_neg hk, if_neg hk]
  · rename_i hnew
    rw [lookup, List.find?_append, List.find?_singleton]
    by_cases hk : key row = k
    · subst hk
      have hnone : rows.find? (key · = key row) = none :=
        List.find?_eq_none.mpr fun r hr hsame => hnew (List.any_eq_true.mpr ⟨r, hr, hsame⟩)
      rw [hnone, if_pos (decide_eq_true rfl), if_pos rfl]
      rfl
    · rw [if_neg (by simpa using hk), if_neg hk, Option.or_none, lookup]

theorem lookup_of_mem (h : (rows.map key).Nodup) (hrow : row ∈ rows) :
    lookup key rows (key row) = some row := by
  have hsome : (rows.find? (key · = key row)).isSome = true :=
    List.find?_isSome.mpr ⟨row, hrow, decide_eq_true rfl⟩
  obtain ⟨r, hr⟩ := Option.isSome_iff_exists.mp hsome
  have hsame : key r = key row := by simpa using List.find?_some hr
  rw [List.inj_on_of_nodup_map h (List.mem_of_find?_eq_some hr) hrow hsame] at hr
  exact hr

theorem latest_mem (h : latest key writes k = some row) : row ∈ writes ∧ key row = k := by
  obtain ⟨hwritten, hkey⟩ := List.mem_filter.mp (List.mem_of_getLast? h)
  exact ⟨hwritten, of_decide_eq_true hkey⟩

theorem latest_snoc (writes : List α) (row : α) :
    latest key (writes ++ [row]) k = if key row = k then some row else latest key writes k := by
  by_cases hk : key row = k
  · simp [latest, hk]
  · simp [latest, hk]

section Measure

variable {β : Type w} [Preorder β] (key) (measure : α → β)

structure Tracks (rows writes : List α) : Prop where
  distinct : (rows.map key).Nodup
  latest (k : κ) : lookup key rows k = LastWriter.latest key writes k
  ascending (k : κ) : (writes.filter (key · = k)).Pairwise (measure · ≤ measure ·)

variable {key measure}

theorem Tracks.empty : Tracks key measure [] [] :=
  ⟨List.nodup_nil, fun _ => rfl, fun _ => .nil⟩

theorem le_latest (h : (writes.filter (key · = k)).Pairwise (measure · ≤ measure ·))
    (hlatest : latest key writes k = some row) :
    ∀ r ∈ writes, key r = k → measure r ≤ measure row := by
  intro r hr hk
  obtain ⟨before, hbefore⟩ := List.getLast?_eq_some_iff.mp hlatest
  have hmem : r ∈ before ++ [row] := hbefore ▸ List.mem_filter.mpr ⟨hr, decide_eq_true hk⟩
  rw [hbefore, List.pairwise_append] at h
  obtain hr | hr := List.mem_append.mp hmem
  · exact h.2.2 r hr row (List.mem_singleton_self row)
  · rw [List.mem_singleton.mp hr]

theorem Tracks.upsert (h : Tracks key measure rows writes)
    (hforward : ∀ r, lookup key rows (key row) = some r → measure r ≤ measure row) :
    Tracks key measure (LastWriter.upsert key rows row) (writes ++ [row]) where
  distinct := upsert_keys h.distinct
  latest k := by rw [lookup_upsert, latest_snoc, h.latest]
  ascending k := by
    rw [List.filter_append, List.pairwise_append]
    refine ⟨h.ascending k, (List.pairwise_singleton _ row).filter _, fun r hr s hs => ?_⟩
    obtain ⟨hs, hk⟩ := List.mem_filter.mp hs
    obtain rfl := List.mem_singleton.mp hs
    obtain rfl := of_decide_eq_true hk
    obtain ⟨last, hlast⟩ := Option.isSome_iff_exists.mp
      (List.getLast?_isSome.mpr (List.ne_nil_of_mem hr))
    obtain ⟨hr, hkey⟩ := List.mem_filter.mp hr
    calc measure r ≤ measure last := le_latest (h.ascending _) hlast r hr (of_decide_eq_true hkey)
      _ ≤ measure s := hforward last ((h.latest _).trans hlast)

theorem Tracks.greatest (h : Tracks key measure rows writes) (hrow : lookup key rows k = some row) :
    IsGreatest (measure '' {w | w ∈ writes ∧ key w = k}) (measure row) := by
  rw [h.latest] at hrow
  refine ⟨⟨row, latest_mem hrow, rfl⟩, ?_⟩
  rintro _ ⟨r, ⟨hr, hk⟩, rfl⟩
  exact le_latest (h.ascending k) hrow r hr hk

end Measure

end Aseos.LastWriter
