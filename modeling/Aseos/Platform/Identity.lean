import Aseos.Contracts.CanonicalJson
import Aseos.Library.Utf8

namespace Aseos

namespace Identity

open Utf8 JsonText Regex

-- `bytes.toString("hex")`
def hexText (bytes : List Byte) : JsString :=
  bytes.flatMap fun b => [hexDigit (b.val / 16), hexDigit (b.val % 16)]

instance positions_neZero : NeZero (16 : ℕ) := ⟨by decide⟩

def uuidByte (now : ℕ) (random : Fin 16 → Byte) (index : Fin 16) : Byte :=
  if index.val < 6 then byte (now / 256 ^ (5 - index.val) % 256)
  else if index = 6 then byte (112 ||| ((random 6).val &&& 15))
  else if index = 8 then byte (128 ||| ((random 8).val &&& 63))
  else random index

-- It throws a RangeError for a time outside 48 bits.
def createUuidV7 (now : ℤ) (random : Fin 16 → Byte) : Option JsString :=
  if now < 0 ∨ 281474976710655 < now then none
  else
    let hex := hexText (List.ofFn (uuidByte now.toNat random))
    some (hex.take 8 ++ js "-" ++ (hex.drop 8).take 4 ++ js "-" ++ (hex.drop 12).take 4 ++ js "-" ++
      (hex.drop 16).take 4 ++ js "-" ++ hex.drop 20)

theorem hexDigit_isLowerHex {n : ℕ} (h : n < 16) : (hexDigit n).isLowerHex = true := by
  revert n
  decide

theorem hexText_isLowerHex (bytes : List Byte) : ∀ c ∈ hexText bytes, c.isLowerHex = true := by
  intro c hc
  obtain ⟨b, -, hc⟩ := List.mem_flatMap.mp hc
  have hb := b.isLt
  rcases List.mem_pair.mp hc with rfl | rfl
  · exact hexDigit_isLowerHex (by omega)
  · exact hexDigit_isLowerHex (by omega)

theorem version_digit (b : Byte) :
    hexDigit ((byte (112 ||| (b.val &&& 15))).val / 16) = 55 := by
  revert b
  decide +kernel

theorem variant_digit (b : Byte) :
    (hexDigit ((byte (128 ||| (b.val &&& 63))).val / 16)).isAny "89ab" = true := by
  revert b
  decide +kernel

theorem mem_hexDigits {n : ℕ} {s : JsString} (hlength : s.length = n)
    (hs : ∀ c ∈ s, c.isLowerHex = true) : s ∈ (Pattern.hexDigits n).lang :=
  mem_lang_times_one.mpr ⟨hlength, hs⟩

theorem uuidV7_of_parts {first second third fourth fifth : JsString} {variant : CodeUnit}
    (hfirst : first ∈ (Pattern.hexDigits 8).lang) (hsecond : second ∈ (Pattern.hexDigits 4).lang)
    (hthird : third ∈ (Pattern.hexDigits 3).lang) (hvariant : variant.isAny "89ab" = true)
    (hfourth : fourth ∈ (Pattern.hexDigits 3).lang)
    (hfifth : fifth ∈ (Pattern.hexDigits 12).lang) :
    Pattern.uuidV7.test (first ++ (js "-" ++ (second ++ (js "-7" ++ (third ++ (js "-" ++
      ([variant] ++ (fourth ++ (js "-" ++ fifth))))))))) = true := by
  rw [test_iff]
  refine mem_lang_seq.mpr ⟨_, hfirst, _, ?_, rfl⟩
  refine mem_lang_seq.mpr ⟨_, mem_lang_text _, _, ?_, rfl⟩
  refine mem_lang_seq.mpr ⟨_, hsecond, _, ?_, rfl⟩
  refine mem_lang_seq.mpr ⟨_, mem_lang_text _, _, ?_, rfl⟩
  refine mem_lang_seq.mpr ⟨_, hthird, _, ?_, rfl⟩
  refine mem_lang_seq.mpr ⟨_, mem_lang_text _, _, ?_, rfl⟩
  refine mem_lang_seq.mpr ⟨_, ⟨variant, hvariant, rfl⟩, _, ?_, rfl⟩
  refine mem_lang_seq.mpr ⟨_, hfourth, _, ?_, rfl⟩
  exact mem_lang_seq.mpr ⟨_, mem_lang_text _, _, hfifth, rfl⟩

def uuidText (bytes : Fin 16 → Byte) : JsString :=
  let hex := hexText (List.ofFn bytes)
  hex.take 8 ++ js "-" ++ (hex.drop 8).take 4 ++ js "-" ++ (hex.drop 12).take 4 ++ js "-" ++
    (hex.drop 16).take 4 ++ js "-" ++ hex.drop 20

theorem uuidText_matches {bytes : Fin 16 → Byte} (hversion : hexDigit ((bytes 6).val / 16) = 55)
    (hvariant : (hexDigit ((bytes 8).val / 16)).isAny "89ab" = true) :
    Pattern.uuidV7.test (uuidText bytes) = true := by
  rw [uuidText]
  have hhex := hexText_isLowerHex (List.ofFn bytes)
  set digits := hexText (List.ofFn bytes) with hdigits
  have hsplit : ∃ first second third fourth fifth : JsString, ∃ variant : CodeUnit,
      digits = first ++ second ++ 55 :: third ++ variant :: fourth ++ fifth ∧
        first.length = 8 ∧ second.length = 4 ∧ third.length = 3 ∧ variant.isAny "89ab" = true ∧
        fourth.length = 3 ∧ fifth.length = 12 := by
    refine ⟨digits.take 8, (digits.drop 8).take 4, (digits.drop 13).take 3,
      (digits.drop 17).take 3, digits.drop 20,
      hexDigit ((bytes 8).val / 16), ?_, rfl, rfl, rfl, hvariant, rfl, rfl⟩
    rw [← hversion]
    rfl
  obtain ⟨first, second, third, fourth, fifth, variant, hform, h1, h2, h3, hvariant, h4, h5⟩ :=
    hsplit
  rw [hform] at hhex
  have hof (part : JsString) (hpart : ∀ c ∈ part, c ∈ first ++ second ++ 55 :: third ++
      variant :: fourth ++ fifth) : ∀ c ∈ part, c.isLowerHex = true := fun c hc => hhex c (hpart c hc)
  have hparts := uuidV7_of_parts (mem_hexDigits h1 (hof first (by simp +contextual)))
    (mem_hexDigits h2 (hof second (by simp +contextual)))
    (mem_hexDigits h3 (hof third (by simp +contextual))) hvariant
    (mem_hexDigits h4 (hof fourth (by simp +contextual)))
    (mem_hexDigits h5 (hof fifth (by simp +contextual)))
  have htext : digits.take 8 ++ js "-" ++ (digits.drop 8).take 4 ++ js "-" ++
      (digits.drop 12).take 4 ++ js "-" ++ (digits.drop 16).take 4 ++ js "-" ++ digits.drop 20 =
      first ++ (js "-" ++ (second ++ (js "-7" ++ (third ++ (js "-" ++ ([variant] ++ (fourth ++
        (js "-" ++ fifth)))))))) := by
    rw [hform, show js "-7" = js "-" ++ [55] from rfl]
    have hpast (part : JsString) {n : ℕ} (hn : part.length ≤ n) : part.drop n = [] :=
      List.drop_of_length_le hn
    simp [List.drop_append, h1, h2, h3, h4, hpast first, hpast second, hpast third]
  rw [htext]
  exact hparts

theorem createUuidV7_matches {now : ℤ} {random : Fin 16 → Byte} {id : JsString}
    (h : createUuidV7 now random = some id) : Pattern.uuidV7.test id = true := by
  rw [createUuidV7] at h
  split_ifs at h
  obtain rfl := Option.some.inj h
  exact uuidText_matches (version_digit (random 6))
    (variant_digit (random 8))

theorem createUuidV7_units {now : ℤ} {random : Fin 16 → Byte} {id : JsString}
    (h : createUuidV7 now random = some id) : ∀ c ∈ id, c.isLowerHex = true ∨ c = 45 := by
  rw [createUuidV7] at h
  split_ifs at h
  obtain rfl := Option.some.inj h
  have hhex := hexText_isLowerHex (List.ofFn (uuidByte now.toNat random))
  have hdash (c : CodeUnit) (hc : c ∈ js "-") : c = 45 := List.mem_singleton.mp hc
  intro c hc
  simp only [List.mem_append] at hc
  rcases hc with (((((((hc | hc) | hc) | hc) | hc) | hc) | hc) | hc) | hc
  · exact .inl (hhex c (List.mem_of_mem_take hc))
  · exact .inr (hdash c hc)
  · exact .inl (hhex c (List.mem_of_mem_drop (List.mem_of_mem_take hc)))
  · exact .inr (hdash c hc)
  · exact .inl (hhex c (List.mem_of_mem_drop (List.mem_of_mem_take hc)))
  · exact .inr (hdash c hc)
  · exact .inl (hhex c (List.mem_of_mem_drop (List.mem_of_mem_take hc)))
  · exact .inr (hdash c hc)
  · exact .inl (hhex c (List.mem_of_mem_drop hc))

end Identity

end Aseos
