import Aseos.Contracts.KeyOrder
import Aseos.Policy.RuleOrder

namespace Aseos

namespace Policy

open JsValue
open Props (get_perm hasOwn_eq fromEntries fromEntries_perm)

structure Sound (v : JsValue) : Prop where
  wellFormed : v.WellFormed
  acceptable : Acceptable v

theorem Sound.slot {slots : Slots} {extra : List PropertyKey} (h : Sound (.array slots extra))
    {s : SlotKind × JsValue} (hs : s ∈ slots) (hhole : s.1 ≠ .hole) : Sound s.2 :=
  ⟨slotsWellFormed_iff.mp h.wellFormed s hs, acceptable_array.mp h.acceptable s hs hhole⟩

theorem Sound.member {plain : Bool} {props : Props} (h : Sound (.object plain props))
    {p : Field × JsValue} (hp : p ∈ props) : Sound p.2 :=
  ⟨propsWellFormed_iff.mp h.wellFormed.2 p hp, ((acceptable_object.mp h.acceptable).2 p hp).value⟩

theorem Acceptable.own {plain : Bool} {props : Props} (h : Acceptable (.object plain props))
    {p : Field × JsValue} (hp : p ∈ props) : p.1 = .own p.1.sortKey := by
  obtain ⟨s, hs, -⟩ := ((acceptable_object.mp h).2 p hp).key
  rw [hs]
  rfl

theorem Sound.own {plain : Bool} {props : Props} (h : Sound (.object plain props))
    {p : Field × JsValue} (hp : p ∈ props) : p.1 = .own p.1.sortKey :=
  h.acceptable.own hp

theorem Sound.distinct {plain : Bool} {props : Props} (h : Sound (.object plain props)) :
    (props.map fun p => p.1.sortKey).Nodup := by
  have hkeys : Props.ownKeys props = (props.map fun p => p.1.sortKey).map PropertyKey.text := by
    simp only [Props.ownKeys, List.map_map]
    refine List.map_congr_left fun p hp => ?_
    exact congrArg Field.key (h.own hp)
  exact (hkeys ▸ h.wellFormed.1).of_map _

theorem Sound.perm {plain : Bool} {props props' : Props} (h : Sound (.object plain props))
    (hperm : props.Perm props') : Sound (.object plain props') := by
  constructor
  · refine ⟨(hperm.map _).nodup_iff.mp h.wellFormed.1, ?_⟩
    exact propsWellFormed_iff.mpr fun p hp =>
      propsWellFormed_iff.mp h.wellFormed.2 p (hperm.mem_iff.mpr hp)
  · have hmembers := acceptable_object.mp h.acceptable
    exact acceptable_object.mpr ⟨hmembers.1, fun p hp => hmembers.2 p (hperm.mem_iff.mpr hp)⟩

theorem Sound.sortFields_perm {plain : Bool} {props props' : Props}
    (h : Sound (.object plain props)) (hperm : props.Perm props') :
    sortFields (propsSorted props) = sortFields (propsSorted props') := by
  rw [propsSorted_eq, propsSorted_eq]
  refine sortBy_eq_of_perm (hperm.map _) fun a ha b hb => ?_
  refine List.inj_on_of_nodup_map (f := fun p : Field × JsValue => p.1.sortKey) ?_ ha hb
  rw [List.map_map]
  exact h.distinct

theorem keysSorted_perm {plain : Bool} {props props' : Props} (h : Sound (.object plain props))
    (hperm : props.Perm props') :
    keysSorted (.object plain props) = keysSorted (.object plain props') := by
  rw [keysSorted, keysSorted, h.sortFields_perm hperm]

theorem get_sortFields {plain : Bool} {props : Props} (h : Sound (.object plain props))
    (key : JsString) :
    Props.get (sortFields (propsSorted props)) key = keysSorted (props.get key) := by
  rw [← get_propsSorted]
  refine (get_perm ?_ (sortBy_perm _ _).symm key).symm
  rw [ownKeys_propsSorted]
  exact h.wellFormed.1

theorem Sound.get {plain : Bool} {props : Props} (h : Sound (.object plain props))
    (key : JsString) : props.get key = .undefined ∨ Sound (props.get key) := by
  unfold Props.get
  cases hfind : props.find? (fun p => p.1.key = .text key) with
  | none => exact .inl rfl
  | some p => exact .inr (h.member (List.mem_of_find?_eq_some hfind))

theorem mem_keys {plain : Bool} {props : Props} (h : Sound (.object plain props))
    (key : JsString) : key ∈ props.keys ↔ PropertyKey.text key ∈ props.ownKeys := by
  simp only [Props.keys, Props.ownKeys, List.mem_filterMap, List.mem_map]
  refine exists_congr fun p => and_congr_right fun hp => ?_
  rw [h.own hp]
  simp [Field.own, Field.name?]

structure KeyEquivalent (v v' : JsValue) : Prop where
  left : Sound v
  right : Sound v'
  same : keysSorted v = keysSorted v'

theorem KeyEquivalent.refl {v : JsValue} (h : Sound v) : KeyEquivalent v v := ⟨h, h, rfl⟩

theorem sameProps_of_sorted {plain plain' : Bool} {props props' : Props}
    (h : Sound (.object plain props)) (h' : Sound (.object plain' props'))
    (hsame : sortFields (propsSorted props) = sortFields (propsSorted props')) :
    SameProps KeyEquivalent props props' := by
  have hown : props.ownKeys.Perm props'.ownKeys := by
    have hperm : (propsSorted props).Perm (propsSorted props') := by
      refine (sortBy_perm (fun p => p.1.sortKey) (propsSorted props)).symm.trans ?_
      exact (List.Perm.of_eq hsame).trans (sortBy_perm _ _)
    rw [← ownKeys_propsSorted props, ← ownKeys_propsSorted props']
    exact hperm.map _
  have hget (key : JsString) : keysSorted (props.get key) = keysSorted (props'.get key) := by
    rw [← get_sortFields h, ← get_sortFields h', hsame]
  refine ⟨fun key => ?_, fun key => ?_, fun key => ?_⟩
  · rcases h.get key with hv | hv
    · refine .inl ⟨hv, ?_⟩
      have hundefined := hget key
      rw [hv] at hundefined
      cases hv' : props'.get key <;> simp [hv', keysSorted] at hundefined ⊢
    · rcases h'.get key with hv' | hv'
      · have hundefined := hget key
        rw [hv'] at hundefined
        refine .inl ⟨?_, hv'⟩
        cases hv : props.get key <;> simp [hv, keysSorted] at hundefined ⊢
      · exact .inr ⟨hv, hv', hget key⟩
  · rw [mem_keys h, mem_keys h', hown.mem_iff]
  · rw [hasOwn_eq, hasOwn_eq]
    exact decide_eq_decide.mpr hown.mem_iff

theorem forall₂_slotsSorted {slots slots' : Slots}
    (h : ∀ s ∈ slots, s.1 ≠ .hole → Sound s.2) (h' : ∀ s ∈ slots', s.1 ≠ .hole → Sound s.2)
    (hsame : slotsSorted slots = slotsSorted slots') :
    List.Forall₂ (fun a b => a.1 = b.1 ∧ (a.1 ≠ .hole → KeyEquivalent a.2 b.2)) slots slots' := by
  induction slots generalizing slots' with
  | nil =>
    cases slots' with
    | nil => exact .nil
    | cons b slots' => cases hsame
  | cons a slots ih =>
    cases slots' with
    | nil => cases hsame
    | cons b slots' =>
      obtain ⟨ha, hslots⟩ := List.forall_mem_cons.mp h
      obtain ⟨hb, hslots'⟩ := List.forall_mem_cons.mp h'
      simp only [slotsSorted, List.cons.injEq, Prod.mk.injEq] at hsame
      obtain ⟨⟨hkind, hv⟩, hrest⟩ := hsame
      refine .cons ⟨hkind, fun hhole => ⟨ha hhole, hb (hkind ▸ hhole), hv⟩⟩ ?_
      exact ih hslots hslots' hrest

theorem KeyEquivalent.shape {v v' : JsValue} (h : KeyEquivalent v v') :
    SameShape KeyEquivalent v v' := by
  have hsame := h.same
  cases v with
  | array slots extra =>
    cases v' with
    | array slots' extra' =>
      simp only [keysSorted, JsValue.array.injEq] at hsame
      obtain ⟨hslots, rfl⟩ := hsame
      exact .array (forall₂_slotsSorted (fun _ => h.left.slot) (fun _ => h.right.slot) hslots)
    | _ => simp [keysSorted] at hsame
  | object plain props =>
    cases v' with
    | object plain' props' =>
      simp only [keysSorted, JsValue.object.injEq] at hsame
      obtain ⟨rfl, hprops⟩ := hsame
      exact .object (sameProps_of_sorted h.left h.right hprops)
    | _ => simp [keysSorted] at hsame
  | _ =>
    cases v' with
    | array slots extra => simp [keysSorted] at hsame
    | object plain props => simp [keysSorted] at hsame
    | _ =>
      simp only [keysSorted] at hsame
      cases hsame <;> constructor

theorem spread_eq {plain : Bool} {props : Props} (h : Acceptable (.object plain props)) :
    props.spread = props := by
  unfold Props.spread
  rw [List.filterMap_congr (g := some), List.filterMap_some]
  rintro ⟨field, v⟩ hp
  obtain ⟨s, rfl⟩ : ∃ s, field = .own s := ⟨_, h.own hp⟩
  rfl

theorem entries_eq {plain : Bool} {props : Props} (h : Acceptable (.object plain props)) :
    props.entries = props.map fun p => (p.1.sortKey, p.2) := by
  unfold Props.entries
  rw [← List.filterMap_eq_map]
  refine List.filterMap_congr ?_
  rintro ⟨field, v⟩ hp
  obtain ⟨s, rfl⟩ : ∃ s, field = .own s := ⟨_, h.own hp⟩
  rfl

theorem sortedConstants_perm {plain : Bool} {props : Props}
    (h : Acceptable (.object plain props)) :
    (sortedConstants props).Perm props := by
  have hentries : (CanonicalJson.sortMembers props.entries).Perm props.entries := sortBy_perm _ _
  refine (fromEntries_perm _).trans ((hentries.map _).trans (List.Perm.of_eq ?_))
  rw [entries_eq h, List.map_map]
  refine (List.map_congr_left fun p hp => ?_).trans (List.map_id props)
  exact Prod.ext (h.own hp).symm rfl

theorem simulation_keys : Simulation KeyEquivalent where
  shape := KeyEquivalent.shape
  spread h := by rwa [spread_eq h.left.acceptable, spread_eq h.right.acceptable]
  constants h := by
    have hleft := (sortedConstants_perm h.left.acceptable).symm
    have hright := (sortedConstants_perm h.right.acceptable).symm
    refine ⟨h.left.perm hleft, h.right.perm hright, ?_⟩
    rw [← keysSorted_perm h.left hleft, ← keysSorted_perm h.right hright, h.same]

section Canonical

open CanonicalJson

variable {host : Host}

theorem Sound.keyed {v : JsValue} (h : Sound v) : Keyed v := by
  induction v using nestedInduction with
  | array slots extra ih => exact .array fun s hs hhole => ih s hs (h.slot hs hhole)
  | object plain props ih =>
    exact .object (fun p hp => h.own hp) h.distinct fun p hp => ih p hp (h.member hp)
  | atom v harray hobject => exact .atom harray hobject

theorem KeyEquivalent.canonicalJson_eq {v v' : JsValue} (h : KeyEquivalent v v') :
    canonicalJson host v = canonicalJson host v' := by
  unfold canonicalJson
  rw [← canonicalize_keysSorted h.left.keyed, ← canonicalize_keysSorted h.right.keyed, h.same]

end Canonical

end Policy

end Aseos
