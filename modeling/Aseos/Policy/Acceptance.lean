import Aseos.Js.Rearrangement
import Aseos.Library.Outcome
import Aseos.Policy.Compile

namespace Aseos.Policy

section Paths

mutual

theorem assertPolicyJson_path : ∀ (v : JsValue) (path path' : JsString),
    Agrees Eq (assertPolicyJson v path) (assertPolicyJson v path')
  | .undefined, _, _ | .foreign _, _, _ | .cycle, _, _ => .error _ _
  | .null, _, _ | .bool _, _, _ => .ok rfl
  | .number n, path, path' => by
    unfold assertPolicyJson
    exact .ite Iff.rfl (.ok rfl) (.error _ _)
  | .string s, path, path' => by
    unfold assertPolicyJson assertWellFormedUnicodeString
    exact .ite Iff.rfl (.ok rfl) (.error _ _)
  | .array slots extra, path, path' => by
    unfold assertPolicyJson
    exact assertSlots_path slots 0 0 path path'
  | .object plain props, path, path' => by
    unfold assertPolicyJson
    exact .ite Iff.rfl (assertProps_path props path path') (.error _ _)

theorem assertSlots_path : ∀ (slots : List (SlotKind × JsValue)) (index index' : ℕ)
    (path path' : JsString),
    Agrees Eq (assertSlots slots index path) (assertSlots slots index' path')
  | [], _, _, _, _ => .ok rfl
  | (kind, v) :: slots, index, index', path, path' => by
    unfold assertSlots
    refine .ite Iff.rfl ?_ (assertSlots_path slots _ _ path path')
    exact (assertPolicyJson_path v _ _).bind fun _ _ _ => assertSlots_path slots _ _ path path'

theorem assertProps_path : ∀ (props : List (Field × JsValue)) (path path' : JsString),
    Agrees Eq (assertProps props path) (assertProps props path')
  | [], _, _ => .ok rfl
  | (⟨key, kind⟩, v) :: props, path, path' => by
    have hkey : Agrees Eq (assertKey key path) (assertKey key path') := by
      cases key with
      | text s => exact .ite Iff.rfl (.error _ _) (.ok rfl)
      | symbol id => exact .error _ _
    unfold assertProps
    refine hkey.bind ?_
    rintro s _ rfl
    have hunicode : Agrees Eq (assertWellFormedUnicodeString s (slash path (js "<key>")))
        (assertWellFormedUnicodeString s (slash path' (js "<key>"))) :=
      .ite Iff.rfl (.ok rfl) (.error _ _)
    refine hunicode.bind fun _ _ _ => .ite Iff.rfl (.error _ _) ?_
    exact (assertPolicyJson_path v _ _).bind fun _ _ _ => assertProps_path props path path'

end

end Paths

def Acceptable (v : JsValue) : Prop := assertPolicyJson v (js "$") = .ok ()

theorem assertPolicyJson_iff {v : JsValue} (path : JsString) :
    assertPolicyJson v path = .ok () ↔ Acceptable v := by
  unfold Acceptable
  have h := assertPolicyJson_path v path (js "$")
  constructor
  · intro hv
    rw [hv] at h
    obtain ⟨_, hok, rfl⟩ := h.ok_left
    exact hok
  · intro hv
    rw [hv] at h
    generalize assertPolicyJson v path = x at h ⊢
    cases h
    rfl

theorem assertSlots_iff {slots : Slots} (index : ℕ) (path : JsString) :
    assertSlots slots index path = .ok () ↔ ∀ s ∈ slots, s.1 ≠ .hole → Acceptable s.2 := by
  induction slots generalizing index with
  | nil => simp [assertSlots]
  | cons s slots ih =>
    obtain ⟨kind, v⟩ := s
    rw [assertSlots]
    by_cases hkind : kind = .hole
    · simp [hkind, ih]
    · rw [if_pos hkind, Except.bind_eq_ok]
      simp only [List.forall_mem_cons, ← ih (index + 1)]
      exact ⟨fun ⟨_, hv, hslots⟩ => ⟨fun _ => (assertPolicyJson_iff _).mp hv, hslots⟩,
        fun ⟨hv, hslots⟩ => ⟨(), (assertPolicyJson_iff _).mpr (hv hkind), hslots⟩⟩

theorem assertKey_eq_ok {key : PropertyKey} {path s : JsString} :
    assertKey key path = .ok s ↔ key = .text s ∧ s ∉ protectedKeys := by
  cases key with
  | symbol id => simp [assertKey, fail]
  | text t =>
    by_cases ht : t ∈ protectedKeys
    · simp only [assertKey, ht, if_true, fail, reduceCtorEq, PropertyKey.text.injEq, false_iff]
      rintro ⟨rfl, hs⟩
      exact hs ht
    · simp only [assertKey, ht, if_false, Except.ok.injEq, PropertyKey.text.injEq]
      exact ⟨fun hts => ⟨hts, hts ▸ ht⟩, And.left⟩

theorem assertWellFormedUnicodeString_eq_ok {s path : JsString} {u : Unit} :
    assertWellFormedUnicodeString s path = .ok u ↔ s.wellFormed = true := by
  unfold assertWellFormedUnicodeString
  split <;> simp_all [fail]

structure AcceptableMember (p : Field × JsValue) : Prop where
  key : ∃ s, p.1 = .own s ∧ s ∉ protectedKeys ∧ s.wellFormed = true
  value : Acceptable p.2

theorem assertProps_iff {props : Props} (path : JsString) :
    assertProps props path = .ok () ↔ ∀ p ∈ props, AcceptableMember p := by
  induction props with
  | nil => simp [assertProps]
  | cons p props ih =>
    obtain ⟨⟨key, kind⟩, v⟩ := p
    rw [List.forall_mem_cons, ← ih, assertProps]
    constructor
    · intro h
      obtain ⟨s, hs, h⟩ := Except.bind_eq_ok.mp h
      obtain ⟨_, hunicode, h⟩ := Except.bind_eq_ok.mp h
      by_cases hkind : kind = .data
      · subst hkind
        obtain ⟨⟨⟩, hv, hprops⟩ := Except.bind_eq_ok.mp h
        obtain ⟨rfl, hprotected⟩ := assertKey_eq_ok.mp hs
        refine ⟨⟨⟨s, rfl, hprotected, ?_⟩, (assertPolicyJson_iff _).mp hv⟩, hprops⟩
        exact assertWellFormedUnicodeString_eq_ok.mp hunicode
      · rw [if_pos hkind] at h
        cases h
    · rintro ⟨⟨⟨s, ⟨⟩, hprotected, hunicode⟩, hv⟩, hprops⟩
      refine Except.bind_eq_ok.mpr ⟨s, assertKey_eq_ok.mpr ⟨rfl, hprotected⟩, ?_⟩
      refine Except.bind_eq_ok.mpr ⟨(), assertWellFormedUnicodeString_eq_ok.mpr hunicode, ?_⟩
      exact Except.bind_eq_ok.mpr ⟨(), (assertPolicyJson_iff _).mpr hv, hprops⟩

theorem acceptable_array {slots : Slots} {extra : List PropertyKey} :
    Acceptable (.array slots extra) ↔ ∀ s ∈ slots, s.1 ≠ .hole → Acceptable s.2 :=
  assertSlots_iff 0 (js "$")

theorem acceptable_object {plain : Bool} {props : Props} :
    Acceptable (.object plain props) ↔ plain = true ∧ ∀ p ∈ props, AcceptableMember p := by
  cases plain with
  | true => simpa [Acceptable, assertPolicyJson] using assertProps_iff (js "$")
  | false => simp [Acceptable, assertPolicyJson, fail]

theorem acceptable_string {s : JsString} : Acceptable (.string s) ↔ s.wellFormed = true :=
  assertWellFormedUnicodeString_eq_ok

theorem Acceptable.get {plain : Bool} {props : Props} (h : Acceptable (.object plain props))
    (key : JsString) : props.get key = .undefined ∨ Acceptable (props.get key) := by
  unfold Props.get
  cases hfind : props.find? (fun p => p.1.key = .text key) with
  | none => exact .inl rfl
  | some p => exact .inr ((acceptable_object.mp h).2 p (List.mem_of_find?_eq_some hfind)).value

theorem acceptable_slotsPermuted {v v' : JsValue} (h : SlotsPermuted v v') :
    Acceptable v ↔ Acceptable v' := by
  cases h with
  | intro hperm => simp only [acceptable_array, hperm.mem_iff]

theorem acceptable_atKey {key : String} {T : JsValue → JsValue → Prop}
    (hT : ∀ v v', T v v' → (Acceptable v ↔ Acceptable v')) {v v' : JsValue}
    (h : AtKey key T v v') : Acceptable v ↔ Acceptable v' := by
  cases h with
  | @intro plain before field w w' after _ hv =>
    have hmember (field : Field) : AcceptableMember (field, w) ↔ AcceptableMember (field, w') :=
      ⟨fun hm => ⟨hm.key, (hT _ _ hv).mp hm.value⟩, fun hm => ⟨hm.key, (hT _ _ hv).mpr hm.value⟩⟩
    simp only [acceptable_object, List.forall_mem_append, List.forall_mem_cons, hmember]

theorem acceptable_atSlot {T : JsValue → JsValue → Prop}
    (hT : ∀ v v', T v v' → (Acceptable v ↔ Acceptable v')) {v v' : JsValue}
    (h : AtSlot T v v') : Acceptable v ↔ Acceptable v' := by
  cases h with
  | intro hv => simp only [acceptable_array, List.forall_mem_append, List.forall_mem_cons, hT _ _ hv]

end Aseos.Policy
