import Mathlib.Data.List.Nodup
import Mathlib.Data.List.Range

namespace Aseos.StreamLog

universe u v
variable {ρ : Type u} {κ : Type v} [DecidableEq κ] {stream : ρ → κ} {version : ρ → ℕ}

variable (stream) in
def ofStream (key : κ) (rows : List ρ) : List ρ := rows.filter fun row => stream row = key

theorem ofStream_append {key : κ} {rows new : List ρ} :
    ofStream stream key (rows ++ new) = ofStream stream key rows ++ ofStream stream key new :=
  List.filter_append ..

theorem ofStream_same {key : κ} {rows : List ρ} (h : ∀ row ∈ rows, stream row = key) :
    ofStream stream key rows = rows :=
  List.filter_eq_self.mpr fun row hrow => decide_eq_true (h row hrow)

theorem ofStream_other {key other : κ} {rows : List ρ} (h : ∀ row ∈ rows, stream row = key)
    (hother : key ≠ other) : ofStream stream other rows = [] :=
  List.filter_eq_nil_iff.mpr fun row hrow hsame =>
    hother ((h row hrow).symm.trans (of_decide_eq_true hsame))

variable (stream version) in
def Contiguous (rows : List ρ) : Prop :=
  ∀ key, (ofStream stream key rows).map version =
    List.range' 1 (ofStream stream key rows).length

theorem Contiguous.nil : Contiguous stream version [] := fun _ => rfl

theorem Contiguous.append {rows new : List ρ} {key : κ} (h : Contiguous stream version rows)
    (hstream : ∀ row ∈ new, stream row = key)
    (hversion : new.map version =
      List.range' ((ofStream stream key rows).length + 1) new.length) :
    Contiguous stream version (rows ++ new) := by
  intro other
  rw [ofStream_append, List.map_append, List.length_append, h other]
  by_cases hother : key = other
  · subst hother
    rw [ofStream_same hstream, hversion, Nat.add_comm _ 1, List.range'_append_1]
  · rw [ofStream_other hstream hother, List.map_nil, List.append_nil, List.length_nil,
      Nat.add_zero]

theorem foldl_max_range' (start count : ℕ) :
    (List.range' (start + 1) count).foldl max start = start + count := by
  induction count generalizing start with
  | zero => rfl
  | succ count ih =>
    rw [List.range'_succ, List.foldl_cons, max_eq_right (Nat.le_succ start), ih]
    omega

theorem Contiguous.max_version {rows : List ρ} (h : Contiguous stream version rows) (key : κ) :
    ((ofStream stream key rows).map version).foldl max 0 = (ofStream stream key rows).length := by
  rw [h key, foldl_max_range' 0, Nat.zero_add]

theorem Contiguous.pairwise {rows : List ρ} (h : Contiguous stream version rows) (key : κ) :
    (ofStream stream key rows).Pairwise fun a b => version a ≤ version b := by
  have hrange : ((ofStream stream key rows).map version).Pairwise (· ≤ ·) := by
    rw [h key]
    exact List.pairwise_le_range' 1
  exact List.pairwise_map.mp hrange

theorem ofStream_flatMap {ε : Type*} {own : ε → κ} {piece : ε → List ρ} {log : List ε} {key : κ}
    (h : ∀ e ∈ log, ∀ row ∈ piece e, stream row = own e) :
    ofStream stream key (log.flatMap piece) =
      (log.filter fun e => own e = key).flatMap piece := by
  induction log with
  | nil => rfl
  | cons e log ih =>
    obtain ⟨hfirst, hrest⟩ := List.forall_mem_cons.mp h
    rw [List.flatMap_cons, ofStream_append, ih hrest, List.filter_cons]
    split
    · rename_i hown
      rw [List.flatMap_cons, ofStream_same (of_decide_eq_true hown ▸ hfirst)]
    · rename_i hother
      rw [ofStream_other hfirst fun hown => hother (decide_eq_true hown), List.nil_append]

theorem ofStream_segment {before new after : List ρ} {key : κ}
    (hstream : ∀ row ∈ new, stream row = key) :
    ((ofStream stream key (before ++ new ++ after)).drop
      (ofStream stream key before).length).take new.length = new := by
  rw [ofStream_append, ofStream_append, ofStream_same hstream, List.append_assoc,
    List.drop_left, List.take_left]

end Aseos.StreamLog
