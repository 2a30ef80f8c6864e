import Aseos.Contracts.CanonicalJson
import Aseos.Js.KeyOrder

namespace Aseos

open JsValue

namespace CanonicalJson

variable {host : Host}

theorem canonicalizeProps_eq {props : Props} (h : ∀ p ∈ props, p.1 = .own p.1.sortKey) :
    canonicalizeProps host props = props.map fun p => (p.1.sortKey, canonicalize host p.2) := by
  induction props with
  | nil => rfl
  | cons p props ih =>
    obtain ⟨field, v⟩ := p
    obtain ⟨hfield, hprops⟩ := List.forall_mem_cons.mp h
    obtain ⟨s, rfl⟩ : ∃ s, field = .own s := ⟨_, hfield⟩
    rw [canonicalizeProps, List.map_cons, ← ih hprops]
    rfl

theorem present_slotsSorted (slots : Slots) :
    (Slots.present (slotsSorted slots)).length = (Slots.present slots).length := by
  simp [Slots.present, slotsSorted_eq, List.filter_map, Function.comp_def]

theorem sortMembers_sorted {props : Props} (hown : ∀ p ∈ props, p.1 = .own p.1.sortKey)
    (hdistinct : (props.map fun p => p.1.sortKey).Nodup)
    (hvalues : ∀ p ∈ props, canonicalize host (keysSorted p.2) = canonicalize host p.2) :
    sortMembers (canonicalizeProps host (sortFields (propsSorted props))) =
      sortMembers (canonicalizeProps host props) := by
  have hperm : (sortFields (propsSorted props)).Perm
      (props.map fun p => (p.1, keysSorted p.2)) := by
    rw [← propsSorted_eq]
    exact sortBy_perm _ _
  have hsorted : ∀ p ∈ sortFields (propsSorted props), p.1 = .own p.1.sortKey := by
    intro p hp
    obtain ⟨q, hq, rfl⟩ := List.mem_map.mp (hperm.mem_iff.mp hp)
    exact show q.1 = .own q.1.sortKey from hown q hq
  rw [canonicalizeProps_eq hsorted, canonicalizeProps_eq hown]
  have hmembers : ((sortFields (propsSorted props)).map
      fun p => (p.1.sortKey, canonicalize host p.2)).Perm
      (props.map fun p => (p.1.sortKey, canonicalize host p.2)) := by
    refine (hperm.map _).trans (List.Perm.of_eq ?_)
    rw [List.map_map]
    exact List.map_congr_left fun p hp => Prod.ext rfl (hvalues p hp)
  refine sortBy_eq_of_perm hmembers fun a ha b hb => ?_
  refine List.inj_on_of_nodup_map ?_ ha hb
  refine (hmembers.map _).nodup_iff.mpr ?_
  rw [List.map_map]
  exact hdistinct

theorem canonicalizeSlots_sorted {slots : Slots}
    (h : ∀ s ∈ slots, s.1 ≠ .hole → canonicalize host (keysSorted s.2) = canonicalize host s.2) :
    canonicalizeSlots host (slotsSorted slots) = canonicalizeSlots host slots := by
  induction slots with
  | nil => rfl
  | cons s slots ih =>
    obtain ⟨kind, v⟩ := s
    obtain ⟨hv, hslots⟩ := List.forall_mem_cons.mp h
    rw [slotsSorted, canonicalizeSlots, canonicalizeSlots, ih hslots]
    by_cases hkind : kind = .data
    · rw [hv (by simp [hkind])]
    · rw [if_pos hkind, if_pos hkind]
      rfl

theorem canonicalize_keysSorted {v : JsValue} (h : Keyed v) :
    canonicalize host (keysSorted v) = canonicalize host v := by
  induction h with
  | @atom v harray hobject =>
    cases v with
    | array slots extra => exact absurd rfl (harray slots extra)
    | object plain props => exact absurd rfl (hobject plain props)
    | _ => rfl
  | @array slots extra _ ih =>
    rw [keysSorted, canonicalize, canonicalize, present_slotsSorted, slotsSorted_eq,
      List.length_map, ← slotsSorted_eq, canonicalizeSlots_sorted ih]
  | @object plain props hown hdistinct _ ih =>
    have hperm : (sortFields (propsSorted props)).Perm (propsSorted props) := sortBy_perm _ _
    have hsymbols : (Props.ownKeys (sortFields (propsSorted props))).any isSymbol =
        (Props.ownKeys props).any isSymbol := by
      rw [← ownKeys_propsSorted props]
      exact (hperm.map _).any_eq
    have hlength : (sortFields (propsSorted props)).length = props.length := by
      rw [hperm.length_eq, propsSorted_eq, List.length_map]
    rw [keysSorted, canonicalize, canonicalize, hsymbols, hlength,
      sortMembers_sorted hown hdistinct ih]

end CanonicalJson

end Aseos
