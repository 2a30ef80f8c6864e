import Aseos.Js.Value
import Mathlib.Data.List.Forall2

namespace Aseos

inductive SlotsPermuted : JsValue → JsValue → Prop
  | intro {slots slots' extra} : slots.Perm slots' →
      SlotsPermuted (.array slots extra) (.array slots' extra)

theorem SlotsPermuted.symm {v v' : JsValue} (h : SlotsPermuted v v') : SlotsPermuted v' v := by
  cases h with
  | intro hperm => exact .intro hperm.symm

inductive AtKey (key : String) (T : JsValue → JsValue → Prop) : JsValue → JsValue → Prop
  | intro {plain before field v v' after} : field.key = .text (js key) → T v v' →
      AtKey key T (.object plain (before ++ (field, v) :: after))
        (.object plain (before ++ (field, v') :: after))

inductive AtSlot (T : JsValue → JsValue → Prop) : JsValue → JsValue → Prop
  | intro {before kind v v' after extra} : T v v' →
      AtSlot T (.array (before ++ (kind, v) :: after) extra)
        (.array (before ++ (kind, v') :: after) extra)

inductive KeysPermuted : JsValue → JsValue → Prop
  | here {plain props props'} : props.Perm props' →
      KeysPermuted (.object plain props) (.object plain props')
  | member {plain before field v v' after} : KeysPermuted v v' →
      KeysPermuted (.object plain (before ++ (field, v) :: after))
        (.object plain (before ++ (field, v') :: after))
  | slot {before kind v v' after extra} : kind ≠ .hole → KeysPermuted v v' →
      KeysPermuted (.array (before ++ (kind, v) :: after) extra)
        (.array (before ++ (kind, v') :: after) extra)

namespace Props

@[simp] theorem get_nil (key : JsString) : get [] key = .undefined := rfl

theorem get_cons (field : Field) (v : JsValue) (props : Props) (key : JsString) :
    get ((field, v) :: props) key = if field.key = .text key then v else get props key := by
  unfold get
  by_cases h : field.key = .text key <;> simp [h]

theorem get_set (before : Props) (field : Field) (v v' : JsValue) (after : Props)
    (key : JsString) :
    get (before ++ (field, v) :: after) key = get (before ++ (field, v') :: after) key ∨
      field.key = .text key ∧ get (before ++ (field, v) :: after) key = v ∧
        get (before ++ (field, v') :: after) key = v' := by
  induction before with
  | nil =>
    simp only [List.nil_append, get_cons]
    by_cases h : field.key = .text key
    · simp [h]
    · simp [h]
  | cons p before ih =>
    obtain ⟨f, w⟩ := p
    simp only [List.cons_append, get_cons]
    by_cases h : f.key = .text key
    · simp [h]
    · simpa only [h, if_false] using ih

theorem ownKeys_set (before : Props) (field : Field) (v v' : JsValue) (after : Props) :
    ownKeys (before ++ (field, v) :: after) = ownKeys (before ++ (field, v') :: after) := by
  simp [ownKeys]

theorem keys_set (before : Props) (field : Field) (v v' : JsValue) (after : Props) :
    keys (before ++ (field, v) :: after) = keys (before ++ (field, v') :: after) := by
  simp [keys, List.filterMap_append, List.filterMap_cons]

end Props

theorem AtKey.isRecord {key : String} {T : JsValue → JsValue → Prop} {v v' : JsValue}
    (h : AtKey key T v v') :
    (v.isRecord = none ∧ v'.isRecord = none) ∨ ∃ props props' : Props,
      v = .object true props ∧ v' = .object true props' ∧
        props.ownKeys = props'.ownKeys ∧ props.keys = props'.keys ∧
        (∀ k, k ≠ js key → props.get k = props'.get k) ∧
        (props.get (js key) = props'.get (js key) ∨
          T (props.get (js key)) (props'.get (js key))) := by
  cases h with
  | @intro plain before field w w' after hfield hT =>
    cases plain with
    | false => exact .inl ⟨rfl, rfl⟩
    | true =>
      refine .inr ⟨_, _, rfl, rfl, Props.ownKeys_set .., Props.keys_set .., ?_, ?_⟩
      · intro k hk
        rcases Props.get_set before field w w' after k with heq | ⟨hfield', -, -⟩
        · exact heq
        · exact absurd (PropertyKey.text.inj (hfield'.symm.trans hfield)) hk
      · rcases Props.get_set before field w w' after (js key) with heq | ⟨-, hw, hw'⟩
        · exact .inl heq
        · exact .inr (by rwa [hw, hw'])

theorem AtSlot.forall₂ {T : JsValue → JsValue → Prop} {v v' : JsValue} (h : AtSlot T v v') :
    ∃ slots slots' extra, v = .array slots extra ∧ v' = .array slots' extra ∧
      List.Forall₂ (fun a b => a.1 = b.1 ∧ (a.2 = b.2 ∨ T a.2 b.2)) slots slots' := by
  cases h with
  | @intro before kind w w' after extra hT =>
    refine ⟨_, _, extra, rfl, rfl, ?_⟩
    induction before with
    | nil => exact .cons ⟨rfl, .inr hT⟩ (List.forall₂_same.mpr fun _ _ => ⟨rfl, .inl rfl⟩)
    | cons s before ih => exact .cons ⟨rfl, .inl rfl⟩ ih

section WellFormedness

open JsValue

variable {T : JsValue → JsValue → Prop} {v v' : JsValue}

theorem wellFormed_slotsPermuted (h : SlotsPermuted v v') (hv : v.WellFormed) :
    v'.WellFormed := by
  cases h with
  | intro hperm =>
    exact slotsWellFormed_iff.mpr fun s hs => slotsWellFormed_iff.mp hv s (hperm.mem_iff.mpr hs)

theorem wellFormed_atKey {key : String} (hT : ∀ w w', T w w' → w.WellFormed → w'.WellFormed)
    (h : AtKey key T v v') (hv : v.WellFormed) : v'.WellFormed := by
  cases h with
  | intro _ hw =>
    refine ⟨(Props.ownKeys_set ..) ▸ hv.1, propsWellFormed_iff.mpr ?_⟩
    have hmembers := propsWellFormed_iff.mp hv.2
    simp only [List.forall_mem_append, List.forall_mem_cons] at hmembers ⊢
    exact ⟨hmembers.1, hT _ _ hw hmembers.2.1, hmembers.2.2⟩

theorem wellFormed_atSlot (hT : ∀ w w', T w w' → w.WellFormed → w'.WellFormed)
    (h : AtSlot T v v') (hv : v.WellFormed) : v'.WellFormed := by
  cases h with
  | intro hw =>
    have hslots := slotsWellFormed_iff.mp hv
    simp only [List.forall_mem_append, List.forall_mem_cons] at hslots
    refine slotsWellFormed_iff.mpr ?_
    simp only [List.forall_mem_append, List.forall_mem_cons]
    exact ⟨hslots.1, hT _ _ hw hslots.2.1, hslots.2.2⟩

end WellFormedness

end Aseos
