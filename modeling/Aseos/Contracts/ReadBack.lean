import Aseos.Contracts.CanonicalForm
import Aseos.Contracts.JsonSchema
import Aseos.Contracts.Spread

namespace Aseos

namespace JsValue

def IsData (v : JsValue) : Prop := IsJson v ∧ Keyed v

theorem isData_array {slots : Slots} {extra : List PropertyKey} :
    IsData (.array slots extra) ↔ extra = [] ∧ ∀ s ∈ slots, s.1 = .data ∧ IsData s.2 := by
  constructor
  · rintro ⟨hjson, hkeyed⟩
    obtain ⟨hextra, hslots⟩ := isJson_array.mp hjson
    refine ⟨hextra, fun s hs => ⟨(hslots s hs).1, (hslots s hs).2, ?_⟩⟩
    cases hkeyed with
    | atom harray => exact absurd rfl (harray _ _)
    | array hkeyed => exact hkeyed s hs (by rw [(hslots s hs).1]; decide)
  · rintro ⟨hextra, hslots⟩
    exact ⟨isJson_array.mpr ⟨hextra, fun s hs => ⟨(hslots s hs).1, (hslots s hs).2.1⟩⟩,
      .array fun s hs _ => (hslots s hs).2.2⟩

theorem isData_object {plain : Bool} {props : Props} :
    IsData (.object plain props) ↔ plain = true ∧ (props.map fun p => p.1.sortKey).Nodup ∧
      ∀ p ∈ props, p.1 = .own p.1.sortKey ∧ IsData p.2 := by
  constructor
  · rintro ⟨hjson, hkeyed⟩
    obtain ⟨hplain, hprops⟩ := isJson_object.mp hjson
    cases hkeyed with
    | atom _ hobject => exact absurd rfl (hobject _ _)
    | object hown hdistinct hkeyed =>
      exact ⟨hplain, hdistinct, fun p hp => ⟨hown p hp, (hprops p hp).2, hkeyed p hp⟩⟩
  · rintro ⟨hplain, hdistinct, hprops⟩
    exact ⟨isJson_object.mpr ⟨hplain, fun p hp => ⟨(hprops p hp).1, (hprops p hp).2.1⟩⟩,
      .object (fun p hp => (hprops p hp).1) hdistinct fun p hp => (hprops p hp).2.2⟩

theorem isData_atom {v : JsValue} (harray : ∀ slots extra, v ≠ .array slots extra)
    (hobject : ∀ plain props, v ≠ .object plain props) : IsData v ↔ Admissible v :=
  ⟨fun h => (isJson_atom harray hobject).mp h.1,
    fun h => ⟨(isJson_atom harray hobject).mpr h, .atom harray hobject⟩⟩

theorem isData_string (s : JsString) : IsData (.string s) :=
  (isData_atom (by simp) (by simp)).mpr trivial

theorem isData_finite (x : Double) : IsData (.number (.finite x)) :=
  (isData_atom (by simp) (by simp)).mpr rfl

theorem isData_arrayOf {values : List JsValue} :
    IsData (Json.arrayOf values) ↔ ∀ v ∈ values, IsData v := by
  rw [Json.arrayOf, isData_array]
  simp

theorem isData_record {members : List (JsString × JsValue)} :
    IsData (.record members) ↔ (members.map Prod.fst).Nodup ∧ ∀ m ∈ members, IsData m.2 := by
  rw [record, isData_object, List.map_map]
  constructor
  · rintro ⟨-, hnodup, hmembers⟩
    exact ⟨hnodup, fun m hm => (hmembers _ (List.mem_map_of_mem hm)).2⟩
  · rintro ⟨hnodup, hmembers⟩
    exact ⟨rfl, hnodup, List.forall_mem_map.mpr fun m hm => ⟨rfl, hmembers m hm⟩⟩

theorem assign_keys (entries : List (JsString × JsValue)) (entry : JsString × JsValue) :
    (Json.assign entries entry).map Prod.fst =
      if entry.1 ∈ entries.map Prod.fst then entries.map Prod.fst
      else entries.map Prod.fst ++ [entry.1] := by
  have hany : (entries.any fun e => e.1 = entry.1) = true ↔ entry.1 ∈ entries.map Prod.fst := by
    rw [List.any_eq_true, List.mem_map]
    exact exists_congr fun e => and_congr_right fun _ => decide_eq_true_iff
  rw [Json.assign]
  by_cases hseen : entry.1 ∈ entries.map Prod.fst
  · rw [if_pos (hany.mpr hseen), if_pos hseen, List.map_map]
    refine List.map_congr_left fun e _ => ?_
    dsimp only [Function.comp_apply]
    split
    · rename_i hkey
      exact hkey.symm
    · rfl
  · rw [if_neg (hany.not.mpr hseen), if_neg hseen, List.map_append]
    rfl

theorem foldl_assign_spec {entries seen : List (JsString × JsValue)}
    (hseen : (seen.map Prod.fst).Nodup) :
    ((entries.foldl Json.assign seen).map Prod.fst).Nodup ∧
      ∀ e ∈ entries.foldl Json.assign seen, e ∈ seen ∨ e ∈ entries := by
  induction entries generalizing seen with
  | nil => exact ⟨hseen, fun e he => .inl he⟩
  | cons entry entries ih =>
    have hassign : ((Json.assign seen entry).map Prod.fst).Nodup := by
      rw [assign_keys]
      split
      · exact hseen
      · rename_i hnew
        exact hseen.append (List.nodup_singleton _) (List.disjoint_singleton.mpr hnew)
    obtain ⟨hnodup, hmem⟩ := ih hassign
    refine ⟨hnodup, fun e he => ?_⟩
    obtain he | he := hmem e he
    · have hassigned : e ∈ seen ∨ e = entry := by
        rw [Json.assign] at he
        split at he
        · obtain ⟨e', he', rfl⟩ := List.mem_map.mp he
          split
          · exact .inr rfl
          · exact .inl he'
        · exact (List.mem_append.mp he).imp_right List.mem_singleton.mp
      exact hassigned.imp_right fun (hentry : e = entry) => hentry ▸ List.mem_cons_self
    · exact .inr (List.mem_cons_of_mem _ he)

theorem isData_objectOf {entries : List (JsString × JsValue)} (h : ∀ e ∈ entries, IsData e.2) :
    IsData (Json.objectOf entries) := by
  obtain ⟨hnodup, hmem⟩ := @foldl_assign_spec entries [] List.nodup_nil
  have hperm := Props.fromEntries_perm (entries.foldl Json.assign [])
  refine isData_object.mpr ⟨rfl, ?_, fun p hp => ?_⟩
  · refine (hperm.map _).nodup_iff.mpr ?_
    rwa [List.map_map]
  · obtain ⟨e, he, rfl⟩ := List.mem_map.mp (hperm.mem_iff.mp hp)
    exact ⟨rfl, h e ((hmem e he).resolve_left List.not_mem_nil)⟩

theorem isData_readBack {v : JsValue} (h : IsJson v) : IsData (readBack v) := by
  induction v using nestedInduction with
  | array slots extra ih =>
    obtain ⟨-, hslots⟩ := isJson_array.mp h
    rw [readBack, slotsReadBack_eq]
    refine isData_arrayOf.mpr fun w hw => ?_
    obtain ⟨s, hs, rfl⟩ := List.mem_map.mp hw
    exact ih s hs (hslots s hs).2
  | object plain props ih =>
    obtain ⟨-, hprops⟩ := isJson_object.mp h
    rw [readBack]
    refine isData_objectOf fun e he => ?_
    rw [CanonicalJson.sortMembers, mem_sortBy, propsReadBack_eq] at he
    obtain ⟨p, hp, rfl⟩ := List.mem_map.mp he
    exact ih p hp (hprops p hp).2
  | atom v harray hobject =>
    have hadmissible := (isJson_atom harray hobject).mp h
    cases v with
    | number n =>
      cases n with
      | finite x => exact isData_finite _
      | _ => exact (isData_atom harray hobject).mpr hadmissible
    | array slots extra => exact absurd rfl (harray slots extra)
    | object plain props => exact absurd rfl (hobject plain props)
    | _ => exact (isData_atom harray hobject).mpr hadmissible

theorem readBack_congr {v w : JsValue} (hv : IsData v) (hw : IsData w)
    (h : v.normal = w.normal) : readBack v = readBack w := by
  obtain ⟨text, htext⟩ := CanonicalJson.canonicalize_of_isJson hv.1
  have hsame := (@canonicalJson_eq_iff sampleRuntime _ _ hv.1 hw.1 hv.2 hw.2).mpr h
  have hv := @CanonicalJson.parse_canonicalJson sampleRuntime _ _ htext
  have hw := @CanonicalJson.parse_canonicalJson sampleRuntime _ _ (hsame.symm.trans htext)
  exact Option.some.inj (hv.symm.trans hw)

theorem readBack_readBack {v : JsValue} (h : IsData v) : readBack (readBack v) = readBack v :=
  readBack_congr (isData_readBack h.1) h (readBack_spec h.1 h.2).1

theorem readBack_members {plain : Bool} {props : Props} (h : IsData (.object plain props)) :
    ∃ props' : Props, readBack (.object plain props) = .object true props' ∧
      props'.Perm (props.map fun p => (p.1, readBack p.2)) := by
  obtain ⟨-, hdistinct, hprops⟩ := isData_object.mp h
  exact readBack_object (fun p hp => (hprops p hp).1) hdistinct

theorem get_map_readBack (props : Props) (key : JsString) :
    Props.get (props.map fun p => (p.1, readBack p.2)) key = readBack (props.get key) := by
  induction props with
  | nil => rfl
  | cons p props ih =>
    obtain ⟨field, v⟩ := p
    rw [List.map_cons, Props.get_cons, Props.get_cons, ih]
    split
    · rfl
    · rfl

theorem get_readBack {plain : Bool} {props props' : Props} (h : IsData (.object plain props))
    (hperm : props'.Perm (props.map fun p => (p.1, readBack p.2))) (key : JsString) :
    props'.get key = readBack (props.get key) := by
  obtain ⟨-, hdistinct, hprops⟩ := isData_object.mp h
  have hkeys : props.ownKeys.Nodup := by
    rw [ownKeys_own fun p hp => (hprops p hp).1]
    exact hdistinct.map fun _ _ => PropertyKey.text.inj
  rw [← get_map_readBack]
  refine Props.get_perm ?_ hperm key
  refine (hperm.map _).nodup_iff.mpr ?_
  rwa [List.map_map]

theorem get_isData {plain : Bool} {props : Props} (h : IsData (.object plain props))
    (key : JsString) : props.get key = .undefined ∨ IsData (props.get key) := by
  obtain ⟨-, -, hprops⟩ := isData_object.mp h
  rw [Props.get]
  cases hfind : props.find? (fun p => p.1.key = .text key) with
  | none => exact .inl rfl
  | some p => exact .inr (hprops p (List.mem_of_find?_eq_some hfind)).2

theorem property_isData {v : JsValue} (h : IsData v) (key : JsString) :
    v.property key = .undefined ∨ IsData (v.property key) := by
  cases v with
  | object plain props => exact get_isData h key
  | _ => exact .inl rfl

theorem property_readBack {v : JsValue} (h : IsData v) (key : JsString) :
    (readBack v).property key = readBack (v.property key) := by
  cases v with
  | object plain props =>
    obtain ⟨props', hobject, hperm⟩ := readBack_members h
    rw [hobject]
    exact get_readBack h hperm key
  | number n =>
    cases n with
    | finite x => rfl
    | _ => rfl
  | _ => rfl

theorem readBack_atom {v : JsValue} (harray : ∀ slots extra, v ≠ .array slots extra)
    (hobject : ∀ plain props, v ≠ .object plain props) :
    readBack v = v ∨ ∃ x : Double, v = .number (.finite x) ∧
      readBack v = .number (.finite x.unsigned) := by
  cases v with
  | number n =>
    cases n with
    | finite x => exact .inr ⟨x, rfl, rfl⟩
    | _ => exact .inl rfl
  | array slots extra => exact absurd rfl (harray slots extra)
  | object plain props => exact absurd rfl (hobject plain props)
  | _ => exact .inl rfl

section Equality

theorem same_unsigned (x : Double) (n : JsNumber) :
    JsNumber.same (.finite x.unsigned) n = JsNumber.same (.finite x) n ∧
      n.same (.finite x.unsigned) = n.same (.finite x) := by
  cases n <;> exact ⟨rfl, rfl⟩

theorem slotsEqual_readBack_left {slots other : Slots} (hdata : ∀ s ∈ slots, s.1 = .data)
    (h : ∀ s ∈ slots, ∀ w, deepEqual (readBack s.2) w = deepEqual s.2 w) :
    slotsEqual (slots.map fun s => (.data, readBack s.2)) other = slotsEqual slots other := by
  induction slots generalizing other with
  | nil => rw [List.map_nil]
  | cons s slots ih =>
    obtain ⟨kind, v⟩ := s
    obtain ⟨rfl, hrest⟩ := List.forall_mem_cons.mp hdata
    obtain ⟨hv, h⟩ := List.forall_mem_cons.mp h
    cases other with
    | nil => rw [List.map_cons, slotsEqual, slotsEqual]
    | cons t other =>
      rw [List.map_cons, slotsEqual, slotsEqual, if_neg (by decide), if_neg (by decide), ih hrest h,
        hv]

theorem slotsEqual_readBack_right {slots other : Slots} (hdata : ∀ s ∈ other, s.1 = .data)
    (h : ∀ s ∈ other, ∀ w, deepEqual w (readBack s.2) = deepEqual w s.2) :
    slotsEqual slots (other.map fun s => (.data, readBack s.2)) = slotsEqual slots other := by
  induction slots generalizing other with
  | nil => rw [slotsEqual, slotsEqual]
  | cons s slots ih =>
    cases other with
    | nil => rfl
    | cons t other =>
      obtain ⟨kind, v⟩ := s
      obtain ⟨ht, hdata⟩ := List.forall_mem_cons.mp hdata
      obtain ⟨hv, h⟩ := List.forall_mem_cons.mp h
      have hvalue : Slots.value t = t.2 := if_neg (by rw [ht]; decide)
      have hread : Slots.value (SlotKind.data, readBack t.2) = readBack t.2 :=
        if_neg (by rintro ⟨⟩)
      rw [List.map_cons, slotsEqual, slotsEqual, ih hdata h, hvalue, hread, hv, hv]

theorem propsEqual_iff {props other : Props} :
    propsEqual props other = true ↔ ∀ p ∈ props, ∀ key, p.1.name? = some key →
      other.hasOwn key = true ∧ deepEqual p.2 (other.get key) = true := by
  induction props with
  | nil => simp [propsEqual]
  | cons p props ih =>
    obtain ⟨field, v⟩ := p
    rw [propsEqual, Bool.and_eq_true, ih, List.forall_mem_cons]
    refine and_congr_left' ?_
    cases field.name? with
    | none => simp
    | some key => simp

theorem hasOwn_readBack {props props' : Props}
    (hperm : props'.Perm (props.map fun p => (p.1, readBack p.2))) (key : JsString) :
    props'.hasOwn key = props.hasOwn key := by
  rw [Props.hasOwn, Props.hasOwn, hperm.any_eq, List.any_map]
  rfl

theorem keys_readBack {props props' : Props}
    (hperm : props'.Perm (props.map fun p => (p.1, readBack p.2))) :
    (Props.keys props').Perm (Props.keys props) := by
  refine (hperm.filterMap _).trans (.of_eq ?_)
  rw [List.filterMap_map]
  rfl

theorem deepEqual_readBack_left {v : JsValue} (h : IsData v) (w : JsValue) :
    deepEqual (readBack v) w = deepEqual v w := by
  induction v using nestedInduction generalizing w with
  | array slots extra ih =>
    obtain ⟨-, hslots⟩ := isData_array.mp h
    rw [readBack, slotsReadBack_eq, Json.arrayOf, List.map_map]
    cases w with
    | array other extra' =>
      rw [deepEqual, deepEqual, List.length_map]
      exact congrArg _ (slotsEqual_readBack_left (fun s hs => (hslots s hs).1)
        fun s hs => ih s hs (hslots s hs).2)
    | _ => simp only [deepEqual]
  | object plain props ih =>
    obtain ⟨props', hobject, hperm⟩ := readBack_members h
    obtain ⟨-, -, hprops⟩ := isData_object.mp h
    rw [hobject]
    cases w with
    | object plain' other =>
      rw [deepEqual, deepEqual, (keys_readBack hperm).length_eq]
      refine congrArg _ (Bool.eq_iff_iff.mpr ?_)
      rw [propsEqual_iff, propsEqual_iff]
      refine ⟨fun hall p hp => ?_, fun hall q hq => ?_⟩
      · have hmember := hall _ (hperm.mem_iff.mpr (List.mem_map_of_mem hp))
        simpa only [ih p hp (hprops p hp).2] using hmember
      · obtain ⟨p, hp, rfl⟩ := List.mem_map.mp (hperm.mem_iff.mp hq)
        simpa only [ih p hp (hprops p hp).2] using hall p hp
    | _ => simp only [deepEqual]
  | atom v harray hobject =>
    obtain hsame | ⟨x, rfl, hunsigned⟩ := readBack_atom harray hobject
    · rw [hsame]
    · rw [hunsigned]
      cases w with
      | number n =>
        rw [deepEqual, deepEqual]
        exact (same_unsigned x n).1
      | _ => simp only [deepEqual]

theorem deepEqual_readBack_right {v : JsValue} (h : IsData v) (w : JsValue) :
    deepEqual w (readBack v) = deepEqual w v := by
  induction v using nestedInduction generalizing w with
  | array slots extra ih =>
    obtain ⟨-, hslots⟩ := isData_array.mp h
    rw [readBack, slotsReadBack_eq, Json.arrayOf, List.map_map]
    cases w with
    | array other extra' =>
      rw [deepEqual, deepEqual, List.length_map]
      exact congrArg _ (slotsEqual_readBack_right (fun s hs => (hslots s hs).1)
        fun s hs => ih s hs (hslots s hs).2)
    | _ => simp only [deepEqual]
  | object plain props ih =>
    obtain ⟨props', hobject, hperm⟩ := readBack_members h
    obtain ⟨-, -, hprops⟩ := isData_object.mp h
    rw [hobject]
    cases w with
    | object plain' other =>
      have hmember (u : JsValue) (key : JsString) :
          deepEqual u (Props.get props' key) = deepEqual u (Props.get props key) := by
        rw [get_readBack h hperm]
        cases hfind : props.find? (fun p => p.1.key = .text key) with
        | none => rw [Props.get, hfind]; rfl
        | some p =>
          have hp := List.mem_of_find?_eq_some hfind
          rw [Props.get, hfind]
          exact ih p hp (hprops p hp).2 u
      rw [deepEqual, deepEqual, (keys_readBack hperm).length_eq]
      refine congrArg _ (Bool.eq_iff_iff.mpr ?_)
      rw [propsEqual_iff, propsEqual_iff]
      simp only [hmember, hasOwn_readBack hperm]
    | _ => simp only [deepEqual]
  | atom v harray hobject =>
    obtain hsame | ⟨x, rfl, hunsigned⟩ := readBack_atom harray hobject
    · rw [hsame]
    · rw [hunsigned]
      cases w with
      | number n =>
        rw [deepEqual, deepEqual]
        exact (same_unsigned x n).2
      | _ => simp only [deepEqual]

end Equality

end JsValue

namespace Schema

open JsValue

variable {formats : Format → JsString → Bool}

theorem all_congr {α : Type} {l : List α} {p q : α → Bool} (h : ∀ a ∈ l, p a = q a) :
    l.all p = l.all q := by
  rw [Bool.eq_iff_iff, List.all_eq_true, List.all_eq_true]
  exact forall₂_congr fun a ha => by rw [h a ha]

theorem distinct_readBack {values : List JsValue} (h : ∀ v ∈ values, IsData v) :
    distinct (values.map readBack) = distinct values := by
  induction values with
  | nil => rfl
  | cons v values ih =>
    obtain ⟨hv, h⟩ := List.forall_mem_cons.mp h
    rw [List.map_cons, distinct, distinct, ih h, List.all_map]
    refine congrArg (· && _) (all_congr fun w hw => ?_)
    dsimp only [Function.comp_apply]
    rw [deepEqual_readBack_left hv, deepEqual_readBack_right (h w hw)]

theorem onArray_readBack {v : JsValue} (h : IsData v) (test : List JsValue → Bool)
    (htest : ∀ values, (∀ w ∈ values, IsData w) → test (values.map readBack) = test values) :
    onArray (readBack v) test = onArray v test := by
  cases v with
  | array slots extra =>
    obtain ⟨-, hslots⟩ := isData_array.mp h
    have hvalues : slots.map Slots.value = slots.map Prod.snd :=
      List.map_congr_left fun s hs => if_neg (by rw [(hslots s hs).1]; decide)
    have hread : (slots.map fun s => (SlotKind.data, readBack s.2)).map Slots.value =
        (slots.map Prod.snd).map readBack := by
      rw [List.map_map, List.map_map]
      refine List.map_congr_left fun s _ => ?_
      dsimp only [Function.comp_apply]
      exact if_neg (by rintro ⟨⟩)
    rw [readBack, slotsReadBack_eq, Json.arrayOf, List.map_map]
    change test ((slots.map fun s => (SlotKind.data, readBack s.2)).map Slots.value) =
      test (slots.map Slots.value)
    rw [hvalues, hread]
    refine htest _ fun w hw => ?_
    obtain ⟨s, hs, rfl⟩ := List.mem_map.mp hw
    exact (hslots s hs).2
  | number n => cases n <;> rfl
  | object plain props =>
    obtain ⟨props', hobject, -⟩ := readBack_members h
    rw [hobject]
    rfl
  | _ => rfl

theorem onNumber_readBack (v : JsValue) (test : JsNumber → Bool)
    (htest : ∀ x : Double, test (.finite x.unsigned) = test (.finite x)) :
    onNumber (readBack v) test = onNumber v test := by
  cases v with
  | number n =>
    cases n with
    | finite x => exact htest x
    | _ => rfl
  | _ => rfl

theorem onString_readBack (v : JsValue) (test : JsString → Bool) :
    onString (readBack v) test = onString v test := by
  cases v with
  | number n => cases n <;> rfl
  | _ => rfl

theorem onObject_readBack {v : JsValue} (h : IsData v) (test : Props → Bool)
    (htest : ∀ plain props props', IsData (.object plain props) →
      props'.Perm (props.map fun p => (p.1, readBack p.2)) → test props' = test props) :
    onObject (readBack v) test = onObject v test := by
  cases v with
  | object plain props =>
    obtain ⟨props', hobject, hperm⟩ := readBack_members h
    rw [hobject]
    exact htest plain props props' h hperm
  | number n => cases n <;> rfl
  | _ => rfl

theorem isDefined_readBack (v : JsValue) : (readBack v).isDefined = v.isDefined := by
  cases v with
  | number n => cases n <;> rfl
  | _ => rfl

theorem isDefined_eq_false {v : JsValue} : v.isDefined = false ↔ v = .undefined := by
  cases v <;> simp [isDefined]

theorem hasType_readBack (t : SchemaType) (v : JsValue) :
    hasType t (readBack v) = hasType t v := by
  cases v with
  | number n => cases n <;> cases t <;> rfl
  | array slots extra => cases t <;> rfl
  | object plain props => cases t <;> rfl
  | _ => rfl

mutual

theorem accepts_readBack (schema : Schema) {v : JsValue} (h : IsData v) :
    accepts formats schema (readBack v) = accepts formats schema v := by
  cases schema with
  | all keywords =>
    rw [accepts, accepts]
    exact acceptsAll_readBack keywords h
  | type t =>
    rw [accepts, accepts, hasType_readBack]
  | const value =>
    rw [accepts, accepts, deepEqual_readBack_left h]
  | enum values =>
    rw [accepts, accepts]
    simp only [deepEqual_readBack_left h]
  | minLength n | maxLength n | pattern r | format f =>
    rw [accepts, accepts]
    exact onString_readBack v _
  | minimum n | maximum n =>
    rw [accepts, accepts]
    exact onNumber_readBack v _ fun _ => rfl
  | items schema =>
    rw [accepts, accepts]
    refine onArray_readBack h _ fun values hvalues => ?_
    rw [List.all_map]
    exact all_congr fun w hw => accepts_readBack schema (hvalues w hw)
  | minItems n | maxItems n =>
    rw [accepts, accepts]
    exact onArray_readBack h _ fun values _ => by rw [List.length_map]
  | uniqueItems =>
    rw [accepts, accepts]
    exact onArray_readBack h _ fun values hvalues => distinct_readBack hvalues
  | required keys =>
    rw [accepts, accepts]
    refine onObject_readBack h _ fun plain props props' hprops hperm => ?_
    simp only [get_readBack hprops hperm, isDefined_readBack]
  | properties schemas =>
    rw [accepts, accepts]
    exact onObject_readBack h _ fun plain props props' hprops hperm =>
      acceptsProperties_readBack schemas hprops hperm
  | closed keys =>
    rw [accepts, accepts]
    refine onObject_readBack h _ fun plain props props' hprops hperm => ?_
    exact (keys_readBack hperm).all_eq
  | minProperties n =>
    rw [accepts, accepts]
    refine onObject_readBack h _ fun plain props props' hprops hperm => ?_
    rw [(keys_readBack hperm).length_eq]
  | ifThen condition consequence =>
    rw [accepts, accepts, accepts_readBack condition h, accepts_readBack consequence h]
  | ifElse condition alternative =>
    rw [accepts, accepts, accepts_readBack condition h, accepts_readBack alternative h]
  | oneOf alternatives =>
    rw [accepts, accepts, acceptedBy_readBack alternatives h]

theorem acceptsAll_readBack (schemas : List Schema) {v : JsValue} (h : IsData v) :
    acceptsAll formats schemas (readBack v) = acceptsAll formats schemas v := by
  cases schemas with
  | nil => rw [acceptsAll, acceptsAll]
  | cons schema schemas =>
    rw [acceptsAll, acceptsAll, accepts_readBack schema h, acceptsAll_readBack schemas h]

theorem acceptedBy_readBack (schemas : List Schema) {v : JsValue} (h : IsData v) :
    acceptedBy formats schemas (readBack v) = acceptedBy formats schemas v := by
  cases schemas with
  | nil => rw [acceptedBy, acceptedBy]
  | cons schema schemas =>
    rw [acceptedBy, acceptedBy, accepts_readBack schema h, acceptedBy_readBack schemas h]

theorem acceptsProperties_readBack (schemas : List (String × Schema)) {plain : Bool}
    {props props' : Props} (h : IsData (.object plain props))
    (hperm : props'.Perm (props.map fun p => (p.1, readBack p.2))) :
    acceptsProperties formats schemas props' = acceptsProperties formats schemas props := by
  cases schemas with
  | nil => rw [acceptsProperties, acceptsProperties]
  | cons p schemas =>
    obtain ⟨key, schema⟩ := p
    rw [Bool.eq_iff_iff, acceptsProperties_iff, acceptsProperties_iff, List.forall_mem_cons,
      List.forall_mem_cons, ← acceptsProperties_iff, ← acceptsProperties_iff,
      acceptsProperties_readBack schemas h hperm, get_readBack h hperm]
    refine and_congr_left' ?_
    obtain hundefined | hdata := get_isData h (js key)
    · rw [hundefined]
      rfl
    · rw [accepts_readBack schema hdata]
      refine or_congr_left ?_
      rw [← isDefined_eq_false, ← isDefined_eq_false, isDefined_readBack]

end

end Schema

end Aseos
