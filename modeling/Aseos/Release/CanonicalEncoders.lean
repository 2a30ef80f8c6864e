import Aseos.Contracts.CanonicalForm
import Aseos.Contracts.JsonLine
import Aseos.Platform.EventStream

namespace Aseos.Release

open JsonText

inductive EncodingError where
  | failed (code detail : JsString)
  | typeError (message : JsString)
  | rangeError
  deriving DecidableEq

def typeName : ForeignType → JsString
  | .function => js "function"
  | .symbol => js "symbol"
  | .bigint => js "bigint"

def unsupported (type : JsString) : EncodingError :=
  .failed (js "RELEASE_CANONICAL_JSON_UNSUPPORTED_VALUE") type

def member {ε : Type} (entry : JsString × Except ε JsString) : Except ε JsString := do
  let text ← entry.2
  return quote entry.1 ++ js ":" ++ text

section Assembler

variable (host : Host)

mutual

-- A cyclic value overflows the stack; `join` writes nothing for a hole.
def encode : JsValue → Except EncodingError JsString
  | .null => .ok (js "null")
  | .bool b => .ok (if b then js "true" else js "false")
  | .string s => .ok (quote s)
  | .number (.finite x) => .ok (host.numberText x)
  | .number _ => .error (.failed (js "RELEASE_CANONICAL_JSON_NONFINITE_NUMBER") [])
  | .array slots _ => do
      let items ← encodeSlots slots
      return js "[" ++ commaSeparated items ++ js "]"
  | .object _ props => do
      let members ← (sortBy Prod.fst (encodeProps props)).mapM member
      return js "\x7b" ++ commaSeparated members ++ js "\x7d"
  | .cycle => .error .rangeError
  | .undefined => .error (unsupported (js "undefined"))
  | .foreign type => .error (unsupported (typeName type))

def encodeSlots : List (SlotKind × JsValue) → Except EncodingError (List JsString)
  | [] => .ok []
  | (kind, v) :: slots => do
      let item ← if kind = .hole then pure [] else encode v
      let items ← encodeSlots slots
      return item :: items

def encodeProps : List (Field × JsValue) → List (JsString × Except EncodingError JsString)
  | [] => []
  | (field, v) :: props =>
      match field.kind, field.key with
      | .hidden, _ | _, .symbol _ => encodeProps props
      | _, .text key => (key, encode v) :: encodeProps props

end

def stableJson (value : JsValue) : Except EncodingError JsString := do
  let text ← encode host value
  return text ++ [10]

end Assembler

section Scripts

def refuse (message location : JsString) : Except EncodingError Unit :=
  .error (.typeError (message ++ js " at " ++ location))

mutual

def assertJsonValue (location : JsString) : JsValue → Except EncodingError Unit
  | .null | .string _ | .bool _ => .ok ()
  | .number n => if n.isFinite then .ok () else refuse (js "Non-finite number") location
  | .undefined | .foreign _ => refuse (js "Non-JSON value") location
  | .cycle => refuse (js "Cyclic value") location
  | .array slots _ => assertSlots location 0 slots
  | .object plain props =>
      if plain then assertProps location props else refuse (js "Non-plain object") location

def assertSlots (location : JsString) (index : ℕ) :
    List (SlotKind × JsValue) → Except EncodingError Unit
  | [] => .ok ()
  | (kind, v) :: slots => do
      let place := location ++ js "[" ++ Decimal.digits index ++ js "]"
      if kind = .hole then refuse (js "Sparse array") place
      assertJsonValue place v
      assertSlots location (index + 1) slots

def assertProps (location : JsString) : List (Field × JsValue) → Except EncodingError Unit
  | [] => .ok ()
  | (field, v) :: props => do
      match field.kind, field.key with
      | .hidden, _ | _, .symbol _ => pure ()
      | _, .text key => assertJsonValue (location ++ js "." ++ key) v
      assertProps location props

end

variable (host : Host)

-- `Object.is(value, -0) ? 0 : value`
def positiveZero (x : Double) : Double := if x.negativeZero then x.unsigned else x

mutual

-- The last values never come through the assertion.
def serializeCanonical : JsValue → JsString
  | .null => js "null"
  | .bool b => if b then js "true" else js "false"
  | .string s => quote s
  | .number (.finite x) => host.numberText (positiveZero x)
  | .array slots _ => js "[" ++ commaSeparated (serializeSlots slots) ++ js "]"
  | .object _ props =>
      js "\x7b" ++ commaSeparated ((sortBy Prod.fst (serializeProps props)).map fun entry =>
        quote entry.1 ++ js ":" ++ entry.2) ++ js "\x7d"
  | .number _ => js "null"
  | .undefined | .foreign _ | .cycle => js "undefined"

def serializeSlots : List (SlotKind × JsValue) → List JsString
  | [] => []
  | (_, v) :: slots => serializeCanonical v :: serializeSlots slots

def serializeProps : List (Field × JsValue) → List (JsString × JsString)
  | [] => []
  | (field, v) :: props =>
      match field.kind, field.key with
      | .hidden, _ | _, .symbol _ => serializeProps props
      | _, .text key => (key, serializeCanonical v) :: serializeProps props

end

def canonicalJson (value : JsValue) : Except EncodingError JsString := do
  assertJsonValue (js "$") value
  return serializeCanonical host value

def canonicalJsonBytes (value : JsValue) (trailingLf : Bool := true) :
    Except EncodingError (List Utf8.Byte) := do
  let text ← canonicalJson host value
  return (text ++ if trailingLf then [10] else []).utf8

end Scripts

section Verifier

-- `new TextDecoder("utf-8", { fatal: true }).decode(bytes)`
def decodeText (bytes : List Utf8.Byte) : Option JsString :=
  match Utf8.decode [] bytes with
  | some (text, []) => some (utf16Text (EventStream.withoutMark true text))
  | _ => none

variable (runtime : JsonRuntime)

-- The canonical-form check of the bytes of a bound file, with the value it returns.
def readCanonicalJson (bytes : List Utf8.Byte) : Option JsValue := do
  let value ← Json.parse runtime.numberValue (← decodeText bytes)
  let canonical ← (canonicalJsonBytes runtime.toHost value).toOption
  if bytes = canonical then some value else none

end Verifier

section Agreement

open JsValue CanonicalJson

variable {host : Host}

theorem member_eq_ok {ε : Type} {entry : JsString × Except ε JsString} {text : JsString} :
    member entry = .ok text ↔ ∃ t, entry.2 = .ok t ∧ text = quote entry.1 ++ js ":" ++ t := by
  unfold member
  constructor
  · intro h
    obtain ⟨t, ht, h⟩ := Except.bind_eq_ok.mp h
    exact ⟨t, ht, (Except.ok.inj h).symm⟩
  · rintro ⟨t, ht, rfl⟩
    exact Except.bind_eq_ok.mpr ⟨t, ht, rfl⟩

theorem sortBy_members {α : Type} (f : JsValue → α) (props : Props) :
    sortBy Prod.fst (props.map fun p => (p.1.sortKey, f p.2)) =
      (namedMembers props).map fun e => (e.1, f e.2) := by
  rw [namedMembers, sortMembers, ← @sortBy_map _ _ _ _ _ Prod.fst
    (fun e : JsString × JsValue => (e.1, f e.2)) (fun _ => rfl), List.map_map]
  rfl

theorem encodeProps_own {props : Props} (h : ∀ p ∈ props, p.1 = .own p.1.sortKey) :
    encodeProps host props = props.map fun p => (p.1.sortKey, encode host p.2) := by
  induction props with
  | nil => rfl
  | cons p props ih =>
    obtain ⟨field, v⟩ := p
    obtain ⟨hfield, hprops⟩ := List.forall_mem_cons.mp h
    dsimp only at hfield
    rw [hfield, encodeProps, ih hprops]
    rfl

theorem serializeProps_own {props : Props} (h : ∀ p ∈ props, p.1 = .own p.1.sortKey) :
    serializeProps host props = props.map fun p => (p.1.sortKey, serializeCanonical host p.2) := by
  induction props with
  | nil => rfl
  | cons p props ih =>
    obtain ⟨field, v⟩ := p
    obtain ⟨hfield, hprops⟩ := List.forall_mem_cons.mp h
    dsimp only at hfield
    rw [hfield, serializeProps, ih hprops]
    rfl

theorem encode_of_canonicalize {v : JsValue} {text : JsString}
    (h : canonicalize host v = .ok text) : encode host v = .ok text := by
  induction v using nestedInduction generalizing text with
  | array slots extra ih =>
    obtain ⟨-, items, hitems, rfl⟩ := canonicalize_array.mp h
    rw [encode]
    refine Except.bind_eq_ok.mpr ⟨items, ?_, rfl⟩
    clear h
    induction hitems with
    | nil => rfl
    | cons hitem hitems hrest =>
      rename_i s item slots items
      obtain ⟨kind, v⟩ := s
      obtain ⟨rfl, hitem⟩ := hitem
      obtain ⟨hv, hslots⟩ := List.forall_mem_cons.mp ih
      rw [encodeSlots, if_neg (by decide), hv hitem, Except.ok_bind, hrest hslots]
      rfl
  | object plain props ih =>
    obtain ⟨-, hown, texts, htexts, rfl⟩ := canonicalize_object.mp h
    rw [encode, encodeProps_own hown, sortBy_members]
    refine Except.bind_eq_ok.mpr ⟨texts, Except.mapM_eq_ok.mpr ?_, rfl⟩
    rw [List.forall₂_map_left_iff]
    have hvalues : ∀ e ∈ namedMembers props, ∀ {value : JsString},
        canonicalize host e.2 = .ok value → encode host e.2 = .ok value := by
      intro e he
      obtain ⟨p, hp, rfl⟩ := mem_namedMembers.mp he
      exact ih p hp
    refine ((List.forall₂_and_left _ _).mpr ⟨hvalues, htexts⟩).imp ?_
    rintro e t ⟨he, value, hvalue, rfl⟩
    exact member_eq_ok.mpr ⟨value, he hvalue, rfl⟩
  | atom v harray hobject =>
    cases v with
    | undefined | cycle => simp [canonicalize] at h
    | foreign type => cases type <;> simp [canonicalize] at h
    | number n =>
      cases n with
      | finite x => exact congrArg Except.ok (Except.ok.inj h)
      | _ => simp [canonicalize] at h
    | array slots extra => exact absurd rfl (harray slots extra)
    | object plain props => exact absurd rfl (hobject plain props)
    | _ => exact congrArg Except.ok (Except.ok.inj h)

theorem assertJsonValue_of_isJson {v : JsValue} (h : IsJson v) (location : JsString) :
    assertJsonValue location v = .ok () := by
  induction v using nestedInduction generalizing location with
  | array slots extra ih =>
    obtain ⟨-, hslots⟩ := isJson_array.mp h
    rw [assertJsonValue]
    generalize 0 = index
    clear h
    induction slots generalizing index with
    | nil => rfl
    | cons s slots hrest =>
      obtain ⟨kind, v⟩ := s
      obtain ⟨hv, htail⟩ := List.forall_mem_cons.mp ih
      obtain ⟨⟨hkind, hjson⟩, hdata⟩ := List.forall_mem_cons.mp hslots
      dsimp only at hkind
      rw [assertSlots, hkind, if_neg (by decide)]
      exact Except.bind_eq_ok.mpr ⟨(), hv hjson _, hrest htail hdata (index + 1)⟩
  | object plain props ih =>
    obtain ⟨rfl, hprops⟩ := isJson_object.mp h
    rw [assertJsonValue, if_pos rfl]
    clear h
    induction props with
    | nil => rfl
    | cons p props hrest =>
      obtain ⟨field, v⟩ := p
      obtain ⟨hv, htail⟩ := List.forall_mem_cons.mp ih
      obtain ⟨⟨hfield, hjson⟩, hown⟩ := List.forall_mem_cons.mp hprops
      dsimp only at hfield
      rw [hfield, assertProps]
      exact Except.bind_eq_ok.mpr ⟨(), hv hjson _, hrest htail hown⟩
  | atom v harray hobject =>
    have hadmissible := h v .self
    cases v with
    | undefined | foreign type | cycle => exact hadmissible.elim
    | number n => exact if_pos hadmissible
    | array slots extra => exact absurd rfl (harray slots extra)
    | object plain props => exact absurd rfl (hobject plain props)
    | _ => rfl

variable {runtime : JsonRuntime}

theorem numberText_positiveZero (x : Double) :
    runtime.numberText (positiveZero x) = runtime.numberText x := by
  rw [positiveZero]
  split
  · exact runtime.unsignedText x
  · rfl

theorem serialize_of_canonicalize {v : JsValue} {text : JsString}
    (h : canonicalize runtime.toHost v = .ok text) : serializeCanonical runtime.toHost v = text := by
  induction v using nestedInduction generalizing text with
  | array slots extra ih =>
    obtain ⟨-, items, hitems, rfl⟩ := canonicalize_array.mp h
    rw [serializeCanonical]
    suffices hslots : serializeSlots runtime.toHost slots = items by rw [hslots]
    clear h
    induction hitems with
    | nil => rfl
    | cons hitem hitems hrest =>
      rename_i s item slots items
      obtain ⟨kind, v⟩ := s
      obtain ⟨hv, hslots⟩ := List.forall_mem_cons.mp ih
      rw [serializeSlots, hv hitem.2, hrest hslots]
  | object plain props ih =>
    obtain ⟨-, hown, texts, htexts, rfl⟩ := canonicalize_object.mp h
    rw [serializeCanonical, serializeProps_own hown, sortBy_members, List.map_map]
    suffices hmembers : (namedMembers props).map (fun e =>
        quote e.1 ++ js ":" ++ serializeCanonical runtime.toHost e.2) = texts by
      rw [← hmembers]
      rfl
    rw [← List.forall₂_eq_eq_eq, List.forall₂_map_left_iff]
    have hvalues : ∀ e ∈ namedMembers props, ∀ {value : JsString},
        canonicalize runtime.toHost e.2 = .ok value →
          serializeCanonical runtime.toHost e.2 = value := by
      intro e he
      obtain ⟨p, hp, rfl⟩ := mem_namedMembers.mp he
      exact ih p hp
    refine ((List.forall₂_and_left _ _).mpr ⟨hvalues, htexts⟩).imp ?_
    rintro e t ⟨he, value, hvalue, rfl⟩
    rw [he hvalue]
  | atom v harray hobject =>
    cases v with
    | undefined | cycle => simp [canonicalize] at h
    | foreign type => cases type <;> simp [canonicalize] at h
    | number n =>
      cases n with
      | finite x => exact (numberText_positiveZero x).trans (Except.ok.inj h)
      | _ => simp [canonicalize] at h
    | array slots extra => exact absurd rfl (harray slots extra)
    | object plain props => exact absurd rfl (hobject plain props)
    | _ => exact Except.ok.inj h

end Agreement

section Verification

open JsValue CanonicalJson

variable {runtime : JsonRuntime} {v : JsValue} {text : JsString}

theorem singleLine_canonicalize (h : canonicalize runtime.toHost v = .ok text) :
    SingleLine text := by
  induction v using nestedInduction generalizing text with
  | array slots extra ih =>
    obtain ⟨-, items, hitems, rfl⟩ := canonicalize_array.mp h
    refine ((SingleLine.js (by decide)).append (Json.singleLine_commaSeparated fun item hitem => ?_)).append
      (.js (by decide))
    obtain ⟨s, hs, -, hcanonical⟩ := forall₂_left hitems.flip item hitem
    exact ih s hs hcanonical
  | object plain props ih =>
    obtain ⟨-, -, texts, htexts, rfl⟩ := canonicalize_object.mp h
    refine ((SingleLine.js (by decide)).append (Json.singleLine_commaSeparated fun t ht => ?_)).append
      (.js (by decide))
    obtain ⟨e, he, value, hvalue, rfl⟩ := forall₂_left htexts.flip t ht
    obtain ⟨p, hp, rfl⟩ := mem_namedMembers.mp he
    exact ((Json.singleLine_quote _).append (.js (by decide))).append (ih p hp hvalue)
  | atom v harray hobject =>
    cases v with
    | undefined | cycle => simp [canonicalize] at h
    | foreign type => cases type <;> simp [canonicalize] at h
    | null =>
      obtain rfl := Except.ok.inj h
      exact .js (by decide)
    | bool b =>
      obtain rfl := Except.ok.inj h
      cases b <;> exact .js (by decide)
    | number n =>
      cases n with
      | finite x =>
        obtain rfl := Except.ok.inj h
        exact Json.singleLine_numberText x
      | _ => simp [canonicalize] at h
    | string s =>
      obtain rfl := Except.ok.inj h
      exact Json.singleLine_quote s
    | array slots extra => exact absurd rfl (harray slots extra)
    | object plain props => exact absurd rfl (hobject plain props)

theorem canonicalize_head (h : canonicalize runtime.toHost v = .ok text) :
    ∃ c s, text = c :: s ∧ c.val < 128 := by
  cases v with
  | undefined | cycle => simp [canonicalize] at h
  | foreign type => cases type <;> simp [canonicalize] at h
  | null =>
    obtain rfl := Except.ok.inj h
    exact ⟨110, _, rfl, by decide⟩
  | bool b =>
    obtain rfl := Except.ok.inj h
    cases b
    · exact ⟨102, _, rfl, by decide⟩
    · exact ⟨116, _, rfl, by decide⟩
  | number n =>
    cases n with
    | finite x =>
      obtain rfl := Except.ok.inj h
      obtain ⟨c, s, htext⟩ := List.exists_cons_of_ne_nil (Json.literal_ne_nil (runtime.literal x))
      have hunit := (Json.isNumberUnit_iff c).mp
        (Json.numberText_units x c (htext ▸ List.mem_cons_self))
      simp only [List.mem_cons, List.not_mem_nil, or_false] at hunit
      exact ⟨c, s, htext, by omega⟩
    | _ => simp [canonicalize] at h
  | string s =>
    obtain rfl := Except.ok.inj h
    exact ⟨34, _, rfl, by decide⟩
  | array slots extra =>
    obtain ⟨-, items, -, rfl⟩ := canonicalize_array.mp h
    exact ⟨91, _, rfl, by decide⟩
  | object plain props =>
    obtain ⟨-, -, texts, -, rfl⟩ := canonicalize_object.mp h
    exact ⟨123, _, rfl, by decide⟩

theorem chars_line (h : SingleLine text) :
    (text ++ [10]).chars = text.chars ++ ['\n'] := by
  have hline : text ++ [10] = utf16Text (text.chars ++ ['\n']) := by
    rw [utf16Text_append, h.chars.2]
    rfl
  rw [hline, JsString.chars_utf16Text]

theorem utf8_line (h : SingleLine text) : (text ++ [10]).utf8 = text.utf8 ++ [10] := by
  rw [JsString.utf8, chars_line h, Utf8.encode_append]
  rfl

theorem withoutMark_line (h : canonicalize runtime.toHost v = .ok text) :
    EventStream.withoutMark true (text.chars ++ ['\n']) = text.chars ++ ['\n'] := by
  obtain ⟨c, s, rfl, hc⟩ := canonicalize_head h
  have hhigh : c.isHighSurrogate = false := by
    simp only [CodeUnit.isHighSurrogate, Bool.and_eq_false_iff, decide_eq_false_iff_not]
    omega
  have hlow : c.isLowSurrogate = false := by
    simp only [CodeUnit.isLowSurrogate, Bool.and_eq_false_iff, decide_eq_false_iff_not]
    omega
  have hmark : Char.ofNat c.val ≠ EventStream.byteOrderMark := by
    intro heq
    have hnat := congrArg Char.toNat heq
    rw [Utf8.toNat_ofNat (.inl (by omega))] at hnat
    exact absurd hnat (by
      have : EventStream.byteOrderMark.toNat = 65279 := by decide
      omega)
  rw [JsString.chars_unit hhigh, JsString.unitChar, hhigh, hlow, if_neg (by simp),
    EventStream.withoutMark]
  simp [hmark]

theorem decodeText_line (h : canonicalize runtime.toHost v = .ok text) :
    decodeText (text ++ [10]).utf8 = some (text ++ [10]) := by
  have hline := singleLine_canonicalize h
  rw [decodeText, JsString.utf8, chars_line hline, Utf8.decode_encode]
  simp only [withoutMark_line h, utf16Text_append, hline.chars.2]
  rfl

theorem parse_line (h : Aseos.canonicalJson runtime.toHost v = .ok text) :
    Json.parse runtime.numberValue (text ++ [10]) = some v.readBack := by
  have hrun := (parses_canonicalize h).run ((text ++ [10]).length + 1) [10]
    (Json.stops_cons (by decide) []) (by simp only [List.length_append]; omega)
  rw [Json.parse, hrun]
  rfl

theorem canonicalJson_agrees (h : Aseos.canonicalJson runtime.toHost v = .ok text) :
    canonicalJson runtime.toHost v = .ok text := by
  rw [canonicalJson, assertJsonValue_of_isJson (isJson_of_canonicalize h), Except.ok_bind,
    serialize_of_canonicalize h]
  rfl

theorem canonicalJsonBytes_agrees (h : Aseos.canonicalJson runtime.toHost v = .ok text)
    (trailingLf : Bool) : canonicalJsonBytes runtime.toHost v trailingLf =
      .ok (text ++ if trailingLf then [10] else []).utf8 := by
  rw [canonicalJsonBytes, canonicalJson_agrees h, Except.ok_bind]
  rfl

theorem stableJson_agrees (h : Aseos.canonicalJson runtime.toHost v = .ok text) :
    stableJson runtime.toHost v = .ok (text ++ [10]) := by
  rw [stableJson, encode_of_canonicalize h, Except.ok_bind]
  rfl

theorem readCanonicalJson_line (hkeys : v.WellFormed)
    (h : Aseos.canonicalJson runtime.toHost v = .ok text) :
    readCanonicalJson runtime (text ++ [10]).utf8 = some v.readBack := by
  rw [readCanonicalJson, decodeText_line h]
  have hbytes := canonicalJsonBytes_agrees (canonicalJson_readBack hkeys h).2 true
  simp [parse_line h, hbytes, Except.toOption]

end Verification

theorem canonical_encoders_agree (runtime : JsonRuntime) (v : JsValue) (hjson : JsValue.IsJson v)
    (hkeys : v.WellFormed) :
    ∃ text, Aseos.canonicalJson runtime.toHost v = .ok text ∧
      canonicalJsonBytes runtime.toHost v false = .ok text.utf8 ∧
      canonicalJsonBytes runtime.toHost v true = .ok (text.utf8 ++ [10]) ∧
      (stableJson runtime.toHost v).map JsString.utf8 = .ok (text.utf8 ++ [10]) ∧
      ∃ w, readCanonicalJson runtime (text.utf8 ++ [10]) = some w ∧ w.normal = v.normal := by
  obtain ⟨text, htext⟩ := @CanonicalJson.canonicalize_of_isJson runtime.toHost v hjson
  have hline := utf8_line (singleLine_canonicalize htext)
  refine ⟨text, htext, ?_, ?_, ?_, v.readBack, ?_, (canonicalJson_readBack hkeys htext).1⟩
  · rw [canonicalJsonBytes_agrees htext, if_neg Bool.false_ne_true, List.append_nil]
  · rw [canonicalJsonBytes_agrees htext, if_pos rfl, hline]
  · rw [stableJson_agrees htext, ← hline]
    rfl
  · rw [← hline]
    exact readCanonicalJson_line hkeys htext

def sampleMetadata : JsValue :=
  .record [(js "__proto__", .number (.finite negativeZero)), (js "10", .ofStrings [[55357]]),
    ([233], .null), (js "2", .bool true)]

theorem sample_encoders_agree :
    ∃ text, Aseos.canonicalJson sampleRuntime.toHost sampleMetadata = .ok text ∧
      canonicalJsonBytes sampleRuntime.toHost sampleMetadata false = .ok text.utf8 ∧
      canonicalJsonBytes sampleRuntime.toHost sampleMetadata true = .ok (text.utf8 ++ [10]) ∧
      (stableJson sampleRuntime.toHost sampleMetadata).map JsString.utf8 =
        .ok (text.utf8 ++ [10]) ∧
      ∃ w, readCanonicalJson sampleRuntime (text.utf8 ++ [10]) = some w ∧
        w.normal = sampleMetadata.normal :=
  canonical_encoders_agree sampleRuntime sampleMetadata
    (@CanonicalJson.isJson_of_canonicalize sampleRuntime.toHost sampleMetadata _ rfl)
    ⟨by decide, by simp [JsValue.PropsWellFormed, JsValue.SlotsWellFormed,
      JsValue.WellFormed, JsValue.ofStrings]⟩

end Aseos.Release
