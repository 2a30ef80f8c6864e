import Aseos.Contracts.DecimalRuntime

namespace Aseos

open JsValue

namespace CanonicalJson

open JsonText Json

section Shapes

attribute [local simp] canonicalize canonicalizeSlots canonicalizeProps

variable {host : Host}

theorem canonicalizeSlots_eq_ok {slots : Slots} {items : List JsString} :
    canonicalizeSlots host slots = .ok items ↔
      List.Forall₂ (fun s item => s.1 = .data ∧ canonicalize host s.2 = .ok item) slots items := by
  induction slots generalizing items with
  | nil => cases items <;> simp [canonicalizeSlots]
  | cons s slots ih =>
    obtain ⟨kind, v⟩ := s
    rw [canonicalizeSlots]
    constructor
    · intro h
      split at h
      · cases h
      · rename_i hkind
        obtain ⟨item, hitem, h⟩ := Except.bind_eq_ok.mp h
        obtain ⟨rest, hrest, h⟩ := Except.bind_eq_ok.mp h
        obtain rfl := Except.ok.inj h
        exact .cons ⟨not_not.mp hkind, hitem⟩ (ih.mp hrest)
    · rintro (_ | ⟨⟨rfl, hitem⟩, hrest⟩)
      exact Except.bind_eq_ok.mpr ⟨_, hitem, Except.bind_eq_ok.mpr ⟨_, ih.mpr hrest, rfl⟩⟩

theorem canonicalize_array {slots : Slots} {extra : List PropertyKey} {text : JsString} :
    canonicalize host (.array slots extra) = .ok text ↔
      extra = [] ∧ ∃ items,
        List.Forall₂ (fun s item => s.1 = .data ∧ canonicalize host s.2 = .ok item) slots items ∧
        text = js "[" ++ commaSeparated items ++ js "]" := by
  have hpresent {items : List JsString}
      (h : List.Forall₂ (fun s item => s.1 = .data ∧ canonicalize host s.2 = .ok item) slots items) :
      (Slots.present slots).length = slots.length := by
    rw [Slots.present, List.length_map, List.filter_eq_self.mpr]
    intro s hs
    obtain ⟨item, -, hkind, -⟩ := forall₂_left h s hs
    simp [hkind]
  rw [canonicalize]
  constructor
  · intro h
    split at h
    · cases h
    · split at h
      · cases h
      · rename_i hlength
        obtain ⟨items, hitems, h⟩ := Except.bind_eq_ok.mp h
        obtain rfl := Except.ok.inj h
        have hall := canonicalizeSlots_eq_ok.mp hitems
        have hdense := hpresent hall
        refine ⟨List.length_eq_zero_iff.mp (by omega), items, hall, rfl⟩
  · rintro ⟨rfl, items, hitems, rfl⟩
    rw [if_neg (by simp), if_neg (by simp [hpresent hitems])]
    exact Except.bind_eq_ok.mpr ⟨items, canonicalizeSlots_eq_ok.mpr hitems, rfl⟩

theorem own_of_canonicalizeProps {props : Props}
    (hlength : (canonicalizeProps host props).length = props.length)
    (hok : ∀ e ∈ canonicalizeProps host props, ∃ t, e.2 = .ok t) :
    ∀ p ∈ props, p.1 = .own p.1.sortKey := by
  have hle (props : Props) : (canonicalizeProps host props).length ≤ props.length := by
    induction props with
    | nil => rfl
    | cons p props ih =>
      obtain ⟨⟨key, kind⟩, v⟩ := p
      cases key <;> cases kind <;> simp [canonicalizeProps] <;> omega
  induction props with
  | nil => simp
  | cons p props ih =>
    obtain ⟨⟨key, kind⟩, v⟩ := p
    have hrest := hle props
    cases key with
    | symbol id => cases kind <;> simp [canonicalizeProps] at hlength <;> omega
    | text key =>
      cases kind with
      | hidden =>
        simp [canonicalizeProps] at hlength
        omega
      | accessor =>
        obtain ⟨t, ht⟩ := hok (key, .error .accessor) (by simp [canonicalizeProps])
        cases ht
      | data =>
        simp only [canonicalizeProps, List.length_cons, Nat.add_right_cancel_iff,
          List.forall_mem_cons] at hlength hok
        exact List.forall_mem_cons.mpr ⟨rfl, ih hlength hok.2⟩

def namedMembers (props : Props) : List (JsString × JsValue) :=
  sortMembers (props.map fun p => (p.1.sortKey, p.2))

theorem sortMembers_canonicalizeProps {props : Props} (h : ∀ p ∈ props, p.1 = .own p.1.sortKey) :
    sortMembers (canonicalizeProps host props) =
      (namedMembers props).map fun e => (e.1, canonicalize host e.2) := by
  rw [canonicalizeProps_eq h, namedMembers, sortMembers, sortMembers,
    ← @sortBy_map _ _ _ _ _ Prod.fst (fun e : JsString × JsValue =>
      (e.1, canonicalize host e.2)) (fun _ => rfl), List.map_map]
  rfl

theorem member_eq_ok {entry : JsString × Except CanonicalError JsString} {text : JsString} :
    member entry = .ok text ↔ ∃ t, entry.2 = .ok t ∧ text = quote entry.1 ++ js ":" ++ t := by
  unfold member
  constructor
  · intro h
    obtain ⟨t, ht, h⟩ := Except.bind_eq_ok.mp h
    exact ⟨t, ht, (Except.ok.inj h).symm⟩
  · rintro ⟨t, ht, rfl⟩
    exact Except.bind_eq_ok.mpr ⟨t, ht, rfl⟩

theorem canonicalize_object {plain : Bool} {props : Props} {text : JsString} :
    canonicalize host (.object plain props) = .ok text ↔
      plain = true ∧ (∀ p ∈ props, p.1 = .own p.1.sortKey) ∧ ∃ texts,
        List.Forall₂ (fun e t => ∃ value, canonicalize host e.2 = .ok value ∧
          t = quote e.1 ++ js ":" ++ value) (namedMembers props) texts ∧
        text = js "\x7b" ++ commaSeparated texts ++ js "\x7d" := by
  have hmembers (hown : ∀ p ∈ props, p.1 = .own p.1.sortKey) (texts : List JsString) :
      (sortMembers (canonicalizeProps host props)).mapM member = .ok texts ↔
        List.Forall₂ (fun e t => ∃ value, canonicalize host e.2 = .ok value ∧
          t = quote e.1 ++ js ":" ++ value) (namedMembers props) texts := by
    rw [Except.mapM_eq_ok, sortMembers_canonicalizeProps hown, List.forall₂_map_left_iff]
    simp only [member_eq_ok]
  rw [canonicalize]
  constructor
  · intro h
    split at h
    · cases h
    · split at h
      · cases h
      · rename_i hplain
        obtain ⟨texts, htexts, h⟩ := Except.bind_eq_ok.mp h
        split at h
        · cases h
        · rename_i hlength
          obtain rfl := Except.ok.inj h
          have hforall := Except.mapM_eq_ok.mp htexts
          have hperm : (sortMembers (canonicalizeProps host props)).Perm
              (canonicalizeProps host props) := sortBy_perm _ _
          have hown : ∀ p ∈ props, p.1 = .own p.1.sortKey := by
            refine @own_of_canonicalizeProps host _ ?_ fun e he => ?_
            · rw [← hperm.length_eq, hforall.length_eq]
              exact not_not.mp hlength
            · obtain ⟨t, -, ht⟩ := forall₂_left hforall e (hperm.mem_iff.mpr he)
              obtain ⟨value, hvalue, -⟩ := member_eq_ok.mp ht
              exact ⟨value, hvalue⟩
          exact ⟨by simpa using hplain, hown, texts, (hmembers hown texts).mp htexts, rfl⟩
  · rintro ⟨rfl, hown, texts, htexts, rfl⟩
    have hsymbols : (Props.ownKeys props).any isSymbol = false := by
      rw [ownKeys_own hown]
      simp [isSymbol]
    have hlength : texts.length = props.length := by
      rw [← htexts.length_eq, namedMembers, sortMembers, (sortBy_perm _ _).length_eq,
        List.length_map]
    rw [hsymbols, if_neg (by simp), if_neg (by simp)]
    refine Except.bind_eq_ok.mpr ⟨texts, (hmembers hown texts).mpr htexts, ?_⟩
    rw [if_neg (by simp [hlength])]
    rfl

theorem mem_namedMembers {props : Props} {e : JsString × JsValue} :
    e ∈ namedMembers props ↔ ∃ p ∈ props, (p.1.sortKey, p.2) = e := by
  rw [namedMembers, sortMembers, mem_sortBy, List.mem_map]

theorem isJson_of_canonicalize {v : JsValue} {text : JsString}
    (h : canonicalize host v = .ok text) : IsJson v := by
  induction v using nestedInduction generalizing text with
  | array slots extra ih =>
    obtain ⟨rfl, items, hitems, -⟩ := canonicalize_array.mp h
    refine isJson_array.mpr ⟨rfl, fun s hs => ?_⟩
    obtain ⟨item, -, hkind, hitem⟩ := forall₂_left hitems s hs
    exact ⟨hkind, ih s hs hitem⟩
  | object plain props ih =>
    obtain ⟨hplain, hown, texts, htexts, -⟩ := canonicalize_object.mp h
    refine isJson_object.mpr ⟨hplain, fun p hp => ⟨hown p hp, ?_⟩⟩
    obtain ⟨t, -, value, hvalue, -⟩ :=
      forall₂_left htexts (p.1.sortKey, p.2) (mem_namedMembers.mpr ⟨p, hp, rfl⟩)
    exact ih p hp hvalue
  | atom v harray hobject =>
    refine (isJson_atom harray hobject).mpr ?_
    cases v with
    | undefined | cycle => simp [canonicalize] at h
    | foreign type => cases type <;> simp [canonicalize] at h
    | number n => cases n <;> first | rfl | simp [canonicalize] at h
    | array slots extra => exact absurd rfl (harray slots extra)
    | object plain props => exact absurd rfl (hobject plain props)
    | _ => trivial

theorem exists_forall₂ {α β : Type*} {R : α → β → Prop} {l : List α}
    (h : ∀ a ∈ l, ∃ b, R a b) : ∃ l', List.Forall₂ R l l' := by
  induction l with
  | nil => exact ⟨[], .nil⟩
  | cons a l ih =>
    obtain ⟨⟨b, hb⟩, hl⟩ := List.forall_mem_cons.mp h
    obtain ⟨l', hl'⟩ := ih hl
    exact ⟨b :: l', .cons hb hl'⟩

theorem canonicalize_of_isJson {v : JsValue} (h : IsJson v) :
    ∃ text, canonicalize host v = .ok text := by
  induction v using nestedInduction with
  | array slots extra ih =>
    obtain ⟨rfl, hslots⟩ := isJson_array.mp h
    obtain ⟨items, hitems⟩ := exists_forall₂
      (R := fun s item => s.1 = .data ∧ canonicalize host s.2 = .ok item) (l := slots)
      fun s hs => by
        obtain ⟨item, hitem⟩ := ih s hs (hslots s hs).2
        exact ⟨item, (hslots s hs).1, hitem⟩
    exact ⟨_, canonicalize_array.mpr ⟨rfl, items, hitems, rfl⟩⟩
  | object plain props ih =>
    obtain ⟨hplain, hprops⟩ := isJson_object.mp h
    obtain ⟨texts, htexts⟩ := exists_forall₂
      (R := fun (e : JsString × JsValue) t => ∃ value, canonicalize host e.2 = .ok value ∧
        t = quote e.1 ++ js ":" ++ value) (l := namedMembers props)
      fun e he => by
        obtain ⟨p, hp, rfl⟩ := mem_namedMembers.mp he
        obtain ⟨value, hvalue⟩ := ih p hp (hprops p hp).2
        exact ⟨_, value, hvalue, rfl⟩
    exact ⟨_, canonicalize_object.mpr ⟨hplain, fun p hp => (hprops p hp).1, texts, htexts, rfl⟩⟩
  | atom v harray hobject =>
    have hadmissible := h v .self
    cases v with
    | undefined | foreign type | cycle => exact hadmissible.elim
    | number n => cases n <;> first | exact ⟨_, rfl⟩ | simp [Admissible, JsNumber.isFinite] at hadmissible
    | array slots extra => exact absurd rfl (harray slots extra)
    | object plain props => exact absurd rfl (hobject plain props)
    | _ => exact ⟨_, rfl⟩

end Shapes

section Parsing

attribute [local simp] readBack unsigned

variable {runtime : JsonRuntime}

theorem sortMembers_propsReadBack (props : Props) :
    sortMembers (propsReadBack props) =
      (namedMembers props).map fun e => (e.1, e.2.readBack) := by
  rw [propsReadBack_eq, namedMembers, sortMembers, sortMembers,
    ← @sortBy_map _ _ _ _ _ Prod.fst (fun e : JsString × JsValue =>
      (e.1, e.2.readBack)) (fun _ => rfl), List.map_map]
  rfl

theorem parses_canonicalize {v : JsValue} {text : JsString}
    (h : canonicalize runtime.toHost v = .ok text) : Parses runtime text v.readBack := by
  induction v using nestedInduction generalizing text with
  | array slots extra ih =>
    obtain ⟨-, items, hitems, rfl⟩ := canonicalize_array.mp h
    rw [readBack, slotsReadBack_eq]
    refine parses_array (List.forall₂_map_right_iff.mpr (List.Forall₂.flip ?_))
    refine ((List.forall₂_and_left _ _).mpr ⟨ih, hitems⟩).imp ?_
    rintro s item ⟨hs, -, hitem⟩
    exact hs hitem
  | object plain props ih =>
    obtain ⟨-, -, texts, htexts, rfl⟩ := canonicalize_object.mp h
    rw [readBack, sortMembers_propsReadBack]
    refine parses_object (List.forall₂_map_right_iff.mpr (List.Forall₂.flip ?_))
    have hvalues : ∀ e ∈ namedMembers props, ∀ {value : JsString},
        canonicalize runtime.toHost e.2 = .ok value → Parses runtime value e.2.readBack := by
      intro e he
      obtain ⟨p, hp, rfl⟩ := mem_namedMembers.mp he
      exact ih p hp
    refine ((List.forall₂_and_left _ _).mpr ⟨hvalues, htexts⟩).imp ?_
    rintro e t ⟨he, value, hvalue, rfl⟩
    exact ⟨value, rfl, he hvalue⟩
  | atom v harray hobject =>
    cases v with
    | undefined | cycle => simp [canonicalize] at h
    | foreign type => cases type <;> simp [canonicalize] at h
    | null =>
      obtain rfl := Except.ok.inj h
      exact parses_null
    | bool b =>
      obtain rfl := Except.ok.inj h
      exact parses_bool b
    | number n =>
      cases n with
      | finite x =>
        obtain rfl := Except.ok.inj h
        exact parses_number x
      | _ => simp [canonicalize] at h
    | string s =>
      obtain rfl := Except.ok.inj h
      exact parses_string s
    | array slots extra => exact absurd rfl (harray slots extra)
    | object plain props => exact absurd rfl (hobject plain props)

theorem parse_canonicalJson {v : JsValue} {text : JsString}
    (h : canonicalJson runtime.toHost v = .ok text) :
    Json.parse runtime.numberValue text = some v.readBack := by
  have hrun := (parses_canonicalize h).run (text.length + 1) [] stops_nil (Nat.le_succ _)
  rw [List.append_nil] at hrun
  rw [Json.parse, hrun]
  rfl

theorem canonicalizeSlots_unsigned {slots : Slots}
    (h : ∀ s ∈ slots, canonicalize runtime.toHost s.2.unsigned = canonicalize runtime.toHost s.2) :
    canonicalizeSlots runtime.toHost (slotsUnsigned slots) =
      canonicalizeSlots runtime.toHost slots := by
  induction slots with
  | nil => rfl
  | cons s slots ih =>
    obtain ⟨hs, hslots⟩ := List.forall_mem_cons.mp h
    rw [slotsUnsigned, canonicalizeSlots, canonicalizeSlots, hs, ih hslots]

theorem canonicalizeProps_unsigned {props : Props}
    (h : ∀ p ∈ props, canonicalize runtime.toHost p.2.unsigned = canonicalize runtime.toHost p.2) :
    canonicalizeProps runtime.toHost (propsUnsigned props) =
      canonicalizeProps runtime.toHost props := by
  induction props with
  | nil => rfl
  | cons p props ih =>
    obtain ⟨hp, hprops⟩ := List.forall_mem_cons.mp h
    rw [propsUnsigned, canonicalizeProps, canonicalizeProps, hp, ih hprops]

theorem canonicalize_unsigned (v : JsValue) :
    canonicalize runtime.toHost v.unsigned = canonicalize runtime.toHost v := by
  induction v using nestedInduction with
  | array slots extra ih =>
    have hpresent : (Slots.present (slotsUnsigned slots)).length = (Slots.present slots).length := by
      simp [Slots.present, slotsUnsigned_eq, List.filter_map, Function.comp_def]
    have hlength : (slotsUnsigned slots).length = slots.length := by
      rw [slotsUnsigned_eq, List.length_map]
    rw [unsigned, canonicalize, canonicalize, hpresent, hlength, canonicalizeSlots_unsigned ih]
  | object plain props ih =>
    have hown : Props.ownKeys (propsUnsigned props) = Props.ownKeys props := by
      simp [propsUnsigned_eq, Props.ownKeys]
    have hlength : (propsUnsigned props).length = props.length := by
      rw [propsUnsigned_eq, List.length_map]
    rw [unsigned, canonicalize, canonicalize, hown, hlength, canonicalizeProps_unsigned ih]
  | atom v harray hobject =>
    cases v with
    | number n =>
      cases n with
      | finite x => exact congrArg Except.ok (runtime.unsignedText x)
      | _ => rfl
    | array slots extra => exact absurd rfl (harray slots extra)
    | object plain props => exact absurd rfl (hobject plain props)
    | _ => rfl

end Parsing

end CanonicalJson

namespace JsValue

def normal (v : JsValue) : JsValue := keysSorted (unsigned v)

theorem normal_array (slots : Slots) (extra : List PropertyKey) :
    normal (.array slots extra) = .array (slots.map fun s => (s.1, normal s.2)) extra := by
  rw [normal, unsigned, keysSorted, slotsUnsigned_eq, slotsSorted_eq, List.map_map]
  rfl

theorem normal_object (plain : Bool) (props : Props) :
    normal (.object plain props) =
      .object plain (sortFields (props.map fun p => (p.1, normal p.2))) := by
  rw [normal, unsigned, keysSorted, propsUnsigned_eq, propsSorted_eq, List.map_map]
  rfl

theorem Keyed.unsigned {v : JsValue} (h : Keyed v) : Keyed v.unsigned := by
  induction h with
  | @atom v harray hobject =>
    cases v with
    | number n => cases n <;> exact .atom (by simp [JsValue.unsigned]) (by simp [JsValue.unsigned])
    | array slots extra => exact absurd rfl (harray slots extra)
    | object plain props => exact absurd rfl (hobject plain props)
    | _ => exact .atom harray hobject
  | @array slots extra _ ih =>
    rw [JsValue.unsigned, slotsUnsigned_eq]
    refine .array fun s hs => ?_
    obtain ⟨t, ht, rfl⟩ := List.mem_map.mp hs
    exact ih t ht
  | @object plain props hown hdistinct _ ih =>
    rw [JsValue.unsigned, propsUnsigned_eq]
    refine .object ?_ ?_ ?_
    · intro p hp
      obtain ⟨q, hq, rfl⟩ := List.mem_map.mp hp
      exact hown q hq
    · rw [List.map_map]
      exact hdistinct
    · intro p hp
      obtain ⟨q, hq, rfl⟩ := List.mem_map.mp hp
      exact ih q hq

theorem canonicalJson_normal {runtime : JsonRuntime} {v : JsValue} (h : Keyed v) :
    canonicalJson runtime.toHost v.normal = canonicalJson runtime.toHost v := by
  rw [canonicalJson, canonicalJson, normal, CanonicalJson.canonicalize_keysSorted h.unsigned,
    CanonicalJson.canonicalize_unsigned]

section ReadBack

theorem foldl_assign {entries seen : List (JsString × JsValue)}
    (h : ((seen ++ entries).map Prod.fst).Nodup) :
    entries.foldl Json.assign seen = seen ++ entries := by
  induction entries generalizing seen with
  | nil => simp
  | cons e entries ih =>
    have hnew : seen.any (fun s => s.1 = e.1) = false := by
      rw [List.map_append, List.nodup_append] at h
      rw [List.any_eq_false]
      intro s hs
      simpa using h.2.2 s.1 (List.mem_map_of_mem hs) e.1 (by simp)
    have happend : seen ++ [e] ++ entries = seen ++ e :: entries := by simp
    rw [List.foldl_cons, Json.assign, hnew, if_neg (by simp), ih (happend ▸ h), happend]

theorem objectOf_eq {entries : List (JsString × JsValue)} (h : (entries.map Prod.fst).Nodup) :
    ∃ props : Props, Json.objectOf entries = .object true props ∧
      props.Perm (entries.map fun e => (.own e.1, e.2)) :=
  ⟨_, rfl, by
    rw [@foldl_assign _ [] h]
    exact Props.fromEntries_perm entries⟩

theorem readBack_object {plain : Bool} {props : Props} (hown : ∀ p ∈ props, p.1 = .own p.1.sortKey)
    (hdistinct : (props.map fun p => p.1.sortKey).Nodup) :
    ∃ props' : Props, readBack (.object plain props) = .object true props' ∧
      props'.Perm (props.map fun p => (p.1, readBack p.2)) := by
  have hperm : (CanonicalJson.sortMembers (propsReadBack props)).Perm (propsReadBack props) :=
    sortBy_perm _ _
  have hkeys : ((CanonicalJson.sortMembers (propsReadBack props)).map Prod.fst).Nodup := by
    refine (hperm.map _).nodup_iff.mpr ?_
    rw [propsReadBack_eq, List.map_map]
    exact hdistinct
  obtain ⟨props', hobject, hprops⟩ := objectOf_eq hkeys
  refine ⟨props', by rw [readBack, hobject], hprops.trans ((hperm.map _).trans (.of_eq ?_))⟩
  rw [propsReadBack_eq, List.map_map]
  exact List.map_congr_left fun p hp => Prod.ext (hown p hp).symm rfl

theorem readBack_spec {v : JsValue} (hjson : IsJson v) (hkeyed : Keyed v) :
    normal (readBack v) = normal v ∧ IsJson (readBack v) ∧ Keyed (readBack v) := by
  induction hkeyed with
  | @atom v harray hobject =>
    cases v with
    | array slots extra => exact absurd rfl (harray slots extra)
    | object plain props => exact absurd rfl (hobject plain props)
    | number n =>
      cases n with
      | finite x =>
        refine ⟨rfl, (isJson_atom (by simp [readBack]) (by simp [readBack])).mpr rfl, ?_⟩
        exact .atom (by simp [readBack]) (by simp [readBack])
      | _ => exact ⟨rfl, hjson, .atom harray hobject⟩
    | _ => exact ⟨rfl, hjson, .atom harray hobject⟩
  | @array slots extra _ ih =>
    obtain ⟨rfl, hslots⟩ := isJson_array.mp hjson
    have hvalues (s) (hs : s ∈ slots) := ih s hs (by simp [(hslots s hs).1]) (hslots s hs).2
    rw [readBack, slotsReadBack_eq, Json.arrayOf, List.map_map]
    refine ⟨?_, isJson_array.mpr ⟨rfl, fun s hs => ?_⟩, .array fun s hs _ => ?_⟩
    · rw [normal_array, normal_array, List.map_map]
      refine congrArg (JsValue.array · []) (List.map_congr_left fun s hs => ?_)
      exact Prod.ext (hslots s hs).1.symm (hvalues s hs).1
    · obtain ⟨t, ht, rfl⟩ := List.mem_map.mp hs
      exact ⟨rfl, (hvalues t ht).2.1⟩
    · obtain ⟨t, ht, rfl⟩ := List.mem_map.mp hs
      exact (hvalues t ht).2.2
  | @object plain props hown hdistinct _ ih =>
    obtain ⟨rfl, hprops⟩ := isJson_object.mp hjson
    have hvalues (p) (hp : p ∈ props) := ih p hp (hprops p hp).2
    obtain ⟨props', hobject, hperm⟩ := readBack_object hown hdistinct
    have hmem (q) (hq : q ∈ props') : ∃ p ∈ props, (p.1, readBack p.2) = q :=
      List.mem_map.mp (hperm.mem_iff.mp hq)
    rw [hobject]
    refine ⟨?_, isJson_object.mpr ⟨rfl, fun q hq => ?_⟩, .object (fun q hq => ?_) ?_ fun q hq => ?_⟩
    · rw [normal_object, normal_object]
      refine congrArg (JsValue.object true) (sortBy_eq_of_perm ?_ ?_)
      · refine (hperm.map _).trans (.of_eq ?_)
        rw [List.map_map]
        exact List.map_congr_left fun p hp => Prod.ext rfl (hvalues p hp).1
      · intro a ha b hb
        refine List.inj_on_of_nodup_map (f := fun p : Field × JsValue => p.1.sortKey) ?_ ha hb
        rw [List.map_map]
        refine (hperm.map _).nodup_iff.mpr ?_
        rw [List.map_map]
        exact hdistinct
    · obtain ⟨p, hp, rfl⟩ := hmem q hq
      exact ⟨hown p hp, (hvalues p hp).2.1⟩
    · obtain ⟨p, hp, rfl⟩ := hmem q hq
      exact hown p hp
    · refine (hperm.map _).nodup_iff.mpr ?_
      rw [List.map_map]
      exact hdistinct
    · obtain ⟨p, hp, rfl⟩ := hmem q hq
      exact (hvalues p hp).2.2

end ReadBack

end JsValue

section CanonicalForm

theorem canonicalJson_eq_iff {runtime : JsonRuntime} {v w : JsValue} (hv : IsJson v)
    (hw : IsJson w) (hvkeys : Keyed v) (hwkeys : Keyed w) :
    canonicalJson runtime.toHost v = canonicalJson runtime.toHost w ↔ v.normal = w.normal := by
  constructor
  · intro h
    obtain ⟨text, htext⟩ := CanonicalJson.canonicalize_of_isJson hv
    have hparse := @CanonicalJson.parse_canonicalJson runtime _ _ htext
    have hparse' := CanonicalJson.parse_canonicalJson (h.symm.trans htext)
    have hsame : v.readBack = w.readBack := Option.some.inj (hparse.symm.trans hparse')
    rw [← (readBack_spec hv hvkeys).1, ← (readBack_spec hw hwkeys).1, hsame]
  · intro h
    rw [← canonicalJson_normal hvkeys, ← canonicalJson_normal hwkeys, h]

theorem canonicalJson_readBack {runtime : JsonRuntime} {v : JsValue} {text : JsString}
    (hv : v.WellFormed) (h : canonicalJson runtime.toHost v = .ok text) :
    v.readBack.normal = v.normal ∧ canonicalJson runtime.toHost v.readBack = .ok text := by
  have hjson := CanonicalJson.isJson_of_canonicalize h
  obtain ⟨hnormal, -, hkeyed⟩ := readBack_spec hjson (hjson.keyed hv)
  refine ⟨hnormal, ?_⟩
  rw [← canonicalJson_normal hkeyed, hnormal, canonicalJson_normal (hjson.keyed hv), h]

variable (runtime : JsonRuntime)

theorem canonical_form :
    (∀ v, (∃ text, canonicalJson runtime.toHost v = .ok text) ↔ IsJson v) ∧
    (∀ v text, v.WellFormed → canonicalJson runtime.toHost v = .ok text →
      ∃ w, Json.parse runtime.numberValue text = some w ∧ w.normal = v.normal ∧
        canonicalJson runtime.toHost w = .ok text) ∧
    ∀ v w, IsJson v → IsJson w → v.WellFormed → w.WellFormed →
      (canonicalJson runtime.toHost v = canonicalJson runtime.toHost w ↔ v.normal = w.normal) := by
  refine ⟨fun v => ⟨fun ⟨text, h⟩ => CanonicalJson.isJson_of_canonicalize h,
    CanonicalJson.canonicalize_of_isJson⟩, fun v text hv h => ⟨v.readBack,
      CanonicalJson.parse_canonicalJson h, canonicalJson_readBack hv h⟩, ?_⟩
  intro v w hv hw hvkeys hwkeys
  exact canonicalJson_eq_iff hv hw (hv.keyed hvkeys) (hw.keyed hwkeys)

end CanonicalForm

section Zeros

def negativeZero : Double := ⟨0, true, representable_intCast (n := 0) (by decide), by simp⟩

def orderedZero : JsValue :=
  .record [(js "a", .bool true), (js "b", .number (.finite negativeZero.unsigned))]

def reversedZero : JsValue :=
  .record [(js "b", .number (.finite negativeZero)), (js "a", .bool true)]

theorem zeros_same_text :
    canonicalJson sampleRuntime.toHost orderedZero =
      canonicalJson sampleRuntime.toHost reversedZero ∧
    ∃ text w, canonicalJson sampleRuntime.toHost reversedZero = .ok text ∧
      Json.parse sampleRuntime.numberValue text = some w ∧ w.normal = orderedZero := by
  obtain ⟨hdomain, hread, hsame⟩ := canonical_form sampleRuntime
  have hordered : IsJson orderedZero := (hdomain _).mp ⟨_, rfl⟩
  have hreversed : IsJson reversedZero := (hdomain _).mp ⟨_, rfl⟩
  have horderedKeys : orderedZero.WellFormed := ⟨by decide, by simp [PropsWellFormed, WellFormed]⟩
  have hreversedKeys : reversedZero.WellFormed := ⟨by decide, by simp [PropsWellFormed, WellFormed]⟩
  refine ⟨(hsame _ _ hordered hreversed horderedKeys hreversedKeys).mpr rfl, ?_⟩
  obtain ⟨text, htext⟩ := (hdomain reversedZero).mpr hreversed
  obtain ⟨w, hparse, hnormal, -⟩ := hread _ text hreversedKeys htext
  exact ⟨text, w, htext, hparse, hnormal⟩

end Zeros

end Aseos
