import Aseos.Js.Text
import Aseos.Library.Utf8

namespace Aseos

def utf16Text (text : List Char) : JsString := text.flatMap utf16

namespace JsString

def replacement : Char := Char.ofNat 65533

def unitChar (c : CodeUnit) : Char :=
  if c.isHighSurrogate || c.isLowSurrogate then replacement else Char.ofNat c.val

-- The characters that an encoder writes: a lone surrogate is replaced.
def chars : JsString → List Char
  | [] => []
  | [c] => [unitChar c]
  | c :: d :: s =>
      if c.isHighSurrogate && d.isLowSurrogate then
        Char.ofNat (65536 + (c.val - 55296) * 1024 + (d.val - 56320)) :: chars s
      else unitChar c :: chars (d :: s)

def utf8 (s : JsString) : List Utf8.Byte := Utf8.encode (chars s)

theorem chars_unit {c : CodeUnit} (h : c.isHighSurrogate = false) (s : JsString) :
    chars (c :: s) = unitChar c :: chars s := by
  cases s with
  | nil => rfl
  | cons d s =>
    rw [chars, h, Bool.false_and, if_neg (by simp)]

theorem chars_utf16 (c : Char) (s : JsString) : chars (utf16 c ++ s) = c :: chars s := by
  have hvalid : c.toNat < 55296 ∨ 57343 < c.toNat ∧ c.toNat < 1114112 := c.valid
  unfold utf16
  split
  · rename_i hsmall
    have hval : (Fin.ofNat 65536 c.toNat).val = c.toNat := Nat.mod_eq_of_lt hsmall
    have hhigh : CodeUnit.isHighSurrogate (Fin.ofNat 65536 c.toNat) = false := by
      simp only [CodeUnit.isHighSurrogate, hval, Bool.and_eq_false_iff, decide_eq_false_iff_not]
      omega
    have hlow : CodeUnit.isLowSurrogate (Fin.ofNat 65536 c.toNat) = false := by
      simp only [CodeUnit.isLowSurrogate, hval, Bool.and_eq_false_iff, decide_eq_false_iff_not]
      omega
    rw [List.singleton_append, chars_unit hhigh, unitChar, hhigh, hlow, if_neg (by simp), hval,
      Char.ofNat_toNat]
  · rename_i hlarge
    have hfirst : (Fin.ofNat 65536 (55296 + (c.toNat - 65536) / 1024)).val =
        55296 + (c.toNat - 65536) / 1024 := Nat.mod_eq_of_lt (by omega)
    have hsecond : (Fin.ofNat 65536 (56320 + (c.toNat - 65536) % 1024)).val =
        56320 + (c.toNat - 65536) % 1024 := Nat.mod_eq_of_lt (by omega)
    have hhigh : CodeUnit.isHighSurrogate
        (Fin.ofNat 65536 (55296 + (c.toNat - 65536) / 1024)) = true := by
      simp only [CodeUnit.isHighSurrogate, hfirst, Bool.and_eq_true, decide_eq_true_eq]
      omega
    have hlow : CodeUnit.isLowSurrogate
        (Fin.ofNat 65536 (56320 + (c.toNat - 65536) % 1024)) = true := by
      simp only [CodeUnit.isLowSurrogate, hsecond, Bool.and_eq_true, decide_eq_true_eq]
      omega
    rw [List.cons_append, List.singleton_append, chars, hhigh, hlow, Bool.and_self, if_pos rfl,
      hfirst, hsecond]
    have hback : 65536 + (55296 + (c.toNat - 65536) / 1024 - 55296) * 1024 +
        (56320 + (c.toNat - 65536) % 1024 - 56320) = c.toNat := by omega
    rw [hback, Char.ofNat_toNat]

theorem chars_utf16Text (text : List Char) : chars (utf16Text text) = text := by
  induction text with
  | nil => rfl
  | cons c text ih =>
    rw [utf16Text, List.flatMap_cons, chars_utf16]
    exact congrArg (c :: ·) ih

theorem toNat_unit {c : CodeUnit} (hhigh : c.isHighSurrogate = false)
    (hlow : c.isLowSurrogate = false) : (Char.ofNat c.val).toNat = c.val := by
  simp only [CodeUnit.isHighSurrogate, CodeUnit.isLowSurrogate, Bool.and_eq_false_iff,
    decide_eq_false_iff_not] at hhigh hlow
  have hc := c.isLt
  exact Utf8.toNat_ofNat (by omega)

theorem utf16_unit {c : CodeUnit} (hhigh : c.isHighSurrogate = false)
    (hlow : c.isLowSurrogate = false) : utf16 (Char.ofNat c.val) = [c] := by
  rw [utf16, toNat_unit hhigh hlow, if_pos c.isLt]
  exact congrArg (fun c => [c]) (Fin.ext (Nat.mod_eq_of_lt c.isLt))

theorem toNat_pair {c d : CodeUnit} (hc : c.isHighSurrogate = true)
    (hd : d.isLowSurrogate = true) :
    (Char.ofNat (65536 + (c.val - 55296) * 1024 + (d.val - 56320))).toNat =
      65536 + (c.val - 55296) * 1024 + (d.val - 56320) := by
  simp only [CodeUnit.isHighSurrogate, CodeUnit.isLowSurrogate, Bool.and_eq_true,
    decide_eq_true_eq] at hc hd
  exact Utf8.toNat_ofNat (by omega)

theorem utf16_pair {c d : CodeUnit} (hc : c.isHighSurrogate = true) (hd : d.isLowSurrogate = true) :
    utf16 (Char.ofNat (65536 + (c.val - 55296) * 1024 + (d.val - 56320))) = [c, d] := by
  rw [utf16, toNat_pair hc hd, if_neg (by omega)]
  simp only [CodeUnit.isHighSurrogate, CodeUnit.isLowSurrogate, Bool.and_eq_true,
    decide_eq_true_eq] at hc hd
  have hfirst : (Fin.ofNat 65536 (55296 +
      (65536 + (c.val - 55296) * 1024 + (d.val - 56320) - 65536) / 1024)) = c :=
    Fin.ext ((Nat.mod_eq_of_lt (by omega)).trans (by omega))
  have hsecond : (Fin.ofNat 65536 (56320 +
      (65536 + (c.val - 55296) * 1024 + (d.val - 56320) - 65536) % 1024)) = d :=
    Fin.ext ((Nat.mod_eq_of_lt (by omega)).trans (by omega))
  rw [hfirst, hsecond]

theorem unitChar_eq {c : CodeUnit} (hhigh : c.isHighSurrogate = false)
    (hlow : c.isLowSurrogate = false) : unitChar c = Char.ofNat c.val := by
  rw [unitChar, hhigh, hlow]
  rfl

theorem utf16Text_chars {s : JsString} (h : s.wellFormed = true) : utf16Text (chars s) = s := by
  unfold wellFormed at h
  induction s using chars.induct with
  | case1 => rfl
  | case2 c =>
    rw [wellFormedFrom, wellFormedFrom, Bool.and_eq_true, beq_iff_eq, Bool.not_eq_true'] at h
    rw [chars, unitChar_eq h.2 h.1, utf16Text, List.flatMap_singleton]
    exact utf16_unit h.2 h.1
  | case3 c d s hpair ih =>
    rw [Bool.and_eq_true] at hpair
    have hafter : d.isHighSurrogate = false := by
      have hlow := hpair.2
      simp only [CodeUnit.isHighSurrogate, CodeUnit.isLowSurrogate, Bool.and_eq_true,
        Bool.and_eq_false_iff, decide_eq_true_eq, decide_eq_false_iff_not] at hlow ⊢
      omega
    rw [wellFormedFrom, wellFormedFrom, hafter, Bool.and_eq_true, Bool.and_eq_true] at h
    rw [chars, if_pos (by rw [hpair.1, hpair.2]; rfl), utf16Text, List.flatMap_cons,
      utf16_pair hpair.1 hpair.2]
    exact congrArg (c :: d :: ·) (ih h.2.2)
  | case4 c d s hpair ih =>
    have hfirst := h
    rw [wellFormedFrom, wellFormedFrom, Bool.and_eq_true, Bool.and_eq_true, beq_iff_eq,
      beq_iff_eq] at hfirst
    have hhigh : c.isHighSurrogate = false := by
      by_contra hhigh
      rw [Bool.not_eq_false] at hhigh
      exact hpair (by rw [hhigh, hfirst.2.1, hhigh]; rfl)
    rw [wellFormedFrom, hhigh, Bool.and_eq_true] at h
    rw [chars, if_neg hpair, unitChar_eq hhigh hfirst.1, utf16Text, List.flatMap_cons,
      utf16_unit hhigh hfirst.1]
    exact congrArg (c :: ·) (ih h.2)

theorem chars_injective {s t : JsString} (hs : s.wellFormed = true) (ht : t.wellFormed = true)
    (h : chars s = chars t) : s = t := by
  rw [← utf16Text_chars hs, ← utf16Text_chars ht, h]

theorem length_chars {s : JsString} (h : ∀ c ∈ s, c.val < 128) : (chars s).length = s.length := by
  induction s with
  | nil => rfl
  | cons c s ih =>
    obtain ⟨hc, hs⟩ := List.forall_mem_cons.mp h
    have hhigh : c.isHighSurrogate = false := by
      simp only [CodeUnit.isHighSurrogate, Bool.and_eq_false_iff, decide_eq_false_iff_not]
      omega
    rw [chars_unit hhigh, List.length_cons, List.length_cons, ih hs]

end JsString

end Aseos
