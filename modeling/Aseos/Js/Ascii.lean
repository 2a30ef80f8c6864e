import Aseos.Js.DateTime

namespace Aseos

namespace Regex

variable {α : Type*} {P : α → Prop}

def Letters (P : α → Prop) : Regex α → Prop
  | empty => True
  | epsilon => True
  | one p => ∀ a, p a = true → P a
  | seq r s => r.Letters P ∧ s.Letters P
  | alt r s => r.Letters P ∧ s.Letters P
  | star r => r.Letters P

theorem Letters.all_mem {r : Regex α} (h : r.Letters P) {w : List α} (hw : w ∈ r.lang) :
    ∀ a ∈ w, P a := by
  induction r generalizing w with
  | empty => exact absurd hw (mem_lang_empty w)
  | epsilon => simp [mem_lang_epsilon.mp hw]
  | one p =>
    obtain ⟨a, ha, rfl⟩ := hw
    simpa using h a ha
  | seq r s ihr ihs =>
    obtain ⟨u, hu, v, hv, rfl⟩ := mem_lang_seq.mp hw
    exact List.forall_mem_append.mpr ⟨ihr h.1 hu, ihs h.2 hv⟩
  | alt r s ihr ihs => exact (mem_lang_alt.mp hw).elim (ihr h.1) (ihs h.2)
  | star r ih =>
    obtain ⟨parts, rfl, hparts⟩ := mem_lang_star.mp hw
    intro a ha
    obtain ⟨part, hpart, ha⟩ := List.mem_flatten.mp ha
    exact ih h (hparts part hpart).1 a ha

theorem Letters.times {r : Regex α} (h : r.Letters P) (n : ℕ) : (times n r).Letters P := by
  induction n with
  | zero => trivial
  | succ n ih => exact ⟨h, ih⟩

theorem letters_text [DecidableEq α] {w : List α} (h : ∀ a ∈ w, P a) : (text w).Letters P := by
  induction w with
  | nil => trivial
  | cons a w ih =>
    obtain ⟨ha, hw⟩ := List.forall_mem_cons.mp h
    exact ⟨fun b hb => of_decide_eq_true hb ▸ ha, ih hw⟩

end Regex

namespace JsString

def IsAscii (s : JsString) : Prop := ∀ c ∈ s, c.val < 128

def asciiText (text : String) : Bool := (js text).all (fun c => c.val < 128)

theorem asciiText_isAscii {text : String} (h : asciiText text = true) : IsAscii (js text) :=
  fun c hc => of_decide_eq_true (List.all_eq_true.mp h c hc)

theorem IsAscii.wellFormedFrom {s : JsString} (h : s.IsAscii) : wellFormedFrom false s = true := by
  induction s with
  | nil => rfl
  | cons c s ih =>
    obtain ⟨hc, hs⟩ := List.forall_mem_cons.mp h
    have hlow : CodeUnit.isLowSurrogate c = false := by
      simp only [CodeUnit.isLowSurrogate, Bool.and_eq_false_iff, decide_eq_false_iff_not]
      omega
    have hhigh : CodeUnit.isHighSurrogate c = false := by
      simp only [CodeUnit.isHighSurrogate, Bool.and_eq_false_iff, decide_eq_false_iff_not]
      omega
    rw [JsString.wellFormedFrom, hlow, hhigh, ih hs]
    rfl

theorem IsAscii.wellFormed {s : JsString} (h : s.IsAscii) : s.wellFormed = true :=
  h.wellFormedFrom

end JsString

namespace CodeUnit

variable {c : CodeUnit}

theorem isDigit_ascii (h : c.isDigit = true) : c.val < 128 := by
  simp only [isDigit, inRange, Bool.and_eq_true, decide_eq_true_eq] at h
  exact lt_of_le_of_lt h.2 (by decide)

theorem isUpper_ascii (h : c.isUpper = true) : c.val < 128 := by
  simp only [isUpper, inRange, Bool.and_eq_true, decide_eq_true_eq] at h
  exact lt_of_le_of_lt h.2 (by decide)

theorem isLower_ascii (h : c.isLower = true) : c.val < 128 := by
  simp only [isLower, inRange, Bool.and_eq_true, decide_eq_true_eq] at h
  exact lt_of_le_of_lt h.2 (by decide)

theorem isLowerHex_ascii (h : c.isLowerHex = true) : c.val < 128 := by
  rcases Bool.or_eq_true _ _ |>.mp h with h | h
  · exact isDigit_ascii h
  · simp only [inRange, Bool.and_eq_true, decide_eq_true_eq] at h
    exact lt_of_le_of_lt h.2 (by decide)

theorem isAny_ascii {chars : String} (hchars : JsString.asciiText chars = true)
    (h : CodeUnit.isAny chars c = true) : c.val < 128 :=
  JsString.asciiText_isAscii hchars c (List.elem_iff.mp h)

end CodeUnit

namespace Pattern

open Regex CodeUnit

theorem sha256_ascii {s : JsString} (h : sha256.test s = true) : s.IsAscii := by
  refine Letters.all_mem ?_ ((test_iff _ _).mp h)
  exact Letters.times (r := one isLowerHex) (fun _ => isLowerHex_ascii) 64

theorem uuidV7_ascii {s : JsString} (h : uuidV7.test s = true) : s.IsAscii := by
  refine Letters.all_mem ?_ ((test_iff _ _).mp h)
  have hhex (n : ℕ) : (hexDigits n).Letters fun c : CodeUnit => c.val < 128 :=
    Letters.times (r := one isLowerHex) (fun _ => isLowerHex_ascii) n
  have htext (t : String) (ht : JsString.asciiText t = true) :
      (text (js t)).Letters fun c : CodeUnit => c.val < 128 :=
    letters_text (JsString.asciiText_isAscii ht)
  refine ⟨hhex 8, htext _ (by decide), hhex 4, htext _ (by decide), hhex 3, htext _ (by decide), ?_,
    hhex 3, htext _ (by decide), hhex 12⟩
  exact fun c => isAny_ascii (by decide)

theorem semver_ascii {s : JsString} (h : semver.test s = true) : s.IsAscii := by
  refine Letters.all_mem ?_ ((test_iff _ _).mp h)
  have htext (t : String) (ht : JsString.asciiText t = true) :
      (text (js t)).Letters fun c : CodeUnit => c.val < 128 :=
    letters_text (JsString.asciiText_isAscii ht)
  have hdecimal : decimal.Letters fun c : CodeUnit => c.val < 128 := by
    refine ⟨htext _ (by decide), fun c hc => ?_, fun _ => isDigit_ascii⟩
    simp only [inRange, Bool.and_eq_true, decide_eq_true_eq] at hc
    exact lt_of_le_of_lt hc.2 (by decide)
  have htail : versionTail.Letters fun c : CodeUnit => c.val < 128 := by
    have hletter : ∀ c : CodeUnit, (c.isDigit || c.isUpper || c.isLower || c.isAny ".-") = true →
        c.val < 128 := by
      intro c hc
      simp only [Bool.or_eq_true] at hc
      rcases hc with ((hc | hc) | hc) | hc
      · exact isDigit_ascii hc
      · exact isUpper_ascii hc
      · exact isLower_ascii hc
      · exact isAny_ascii (by decide) hc
    exact ⟨hletter, hletter⟩
  exact ⟨hdecimal, htext _ (by decide), hdecimal, htext _ (by decide), hdecimal,
    ⟨⟨htext _ (by decide), htail⟩, trivial⟩, ⟨htext _ (by decide), htail⟩, trivial⟩

theorem stableCode_ascii {s : JsString} (h : stableCode.test s = true) : s.IsAscii := by
  refine Letters.all_mem ?_ ((test_iff _ _).mp h)
  have hletter : ∀ c : CodeUnit, (c.isUpper || c.isDigit) = true → c.val < 128 := fun c hc =>
    (Bool.or_eq_true _ _ |>.mp hc).elim isUpper_ascii isDigit_ascii
  exact ⟨fun _ => isUpper_ascii, hletter,
    letters_text (JsString.asciiText_isAscii (by decide)), hletter, hletter⟩

end Pattern

namespace DateTime

open JsString CodeUnit

theorem takeDigits_ascii {n value : ℕ} {s : JsString} {r : ℕ × JsString}
    (h : takeDigits n value s = some r) (hr : IsAscii r.2) : IsAscii s := by
  induction n generalizing value s with
  | zero =>
    obtain rfl := Option.some.inj h
    exact hr
  | succ n ih =>
    cases s with
    | nil => cases h
    | cons c s =>
      rw [takeDigits] at h
      split at h
      · rename_i hc
        exact List.forall_mem_cons.mpr ⟨isDigit_ascii hc, ih h⟩
      · cases h

theorem skip_ascii {p : CodeUnit → Bool} (hp : ∀ c, p c = true → c.val < 128) {s r : JsString}
    (h : skip p s = some r) (hr : IsAscii r) : IsAscii s := by
  cases s with
  | nil => cases h
  | cons c s =>
    rw [skip] at h
    split at h
    · rename_i hc
      obtain rfl := Option.some.inj h
      exact List.forall_mem_cons.mpr ⟨hp c hc, hr⟩
    · cases h

theorem skipText_ascii {text : String} (htext : asciiText text = true) {s r : JsString}
    (h : skipText text s = some r) (hr : IsAscii r) : IsAscii s :=
  skip_ascii (fun _ => isAny_ascii htext) h hr

theorem dropDigits_ascii {s : JsString} (h : IsAscii (s.dropWhile isDigit)) : IsAscii s := by
  induction s with
  | nil => exact h
  | cons c s ih =>
    rw [List.dropWhile_cons] at h
    split at h
    · rename_i hc
      exact List.forall_mem_cons.mpr ⟨isDigit_ascii hc, ih h⟩
    · exact h

theorem skipFraction_ascii {s r : JsString} (h : skipFraction s = some r) (hr : IsAscii r) :
    IsAscii s := by
  cases s with
  | nil => simp [IsAscii]
  | cons c s =>
    rw [skipFraction] at h
    split at h
    · rename_i hc
      obtain ⟨rest, hrest, rfl⟩ := Option.map_eq_some_iff.mp h
      exact List.forall_mem_cons.mpr ⟨isAny_ascii (by decide) hc,
        skip_ascii (fun _ => isDigit_ascii) hrest (dropDigits_ascii hr)⟩
    · obtain rfl := Option.some.inj h
      exact hr

theorem takeOffset_ascii {s : JsString} {o : Option Offset} (h : takeOffset s = some o) :
    IsAscii s := by
  cases s with
  | nil => simp [IsAscii]
  | cons c s =>
    rw [takeOffset] at h
    split at h
    · rename_i hc
      split at h
      · rename_i hs
        subst hs
        exact List.forall_mem_cons.mpr ⟨isAny_ascii (by decide) hc, by simp⟩
      · cases h
    · split at h
      · rename_i hc
        refine List.forall_mem_cons.mpr ⟨isAny_ascii (by decide) hc, ?_⟩
        obtain ⟨⟨hour, s₁⟩, hhour, h⟩ := Option.bind_eq_some_iff.mp h
        obtain ⟨s₂, hcolon, h⟩ := Option.bind_eq_some_iff.mp h
        obtain ⟨⟨minute, s₃⟩, hminute, h⟩ := Option.bind_eq_some_iff.mp h
        simp only [Option.ite_none_right_eq_some] at h
        refine takeDigits_ascii hhour (skipText_ascii (by decide) hcolon
          (takeDigits_ascii hminute ?_))
        rw [h.1]
        simp [IsAscii]
      · cases h

theorem rfc3339DateTime_ascii {s : JsString} {f : DateTimeFields}
    (h : rfc3339DateTime s = some f) : IsAscii s := by
  obtain ⟨⟨year, s₁⟩, hyear, h⟩ := Option.bind_eq_some_iff.mp h
  obtain ⟨s₂, hdash, h⟩ := Option.bind_eq_some_iff.mp h
  obtain ⟨⟨month, s₃⟩, hmonth, h⟩ := Option.bind_eq_some_iff.mp h
  obtain ⟨s₄, hdash', h⟩ := Option.bind_eq_some_iff.mp h
  obtain ⟨⟨day, s₅⟩, hday, h⟩ := Option.bind_eq_some_iff.mp h
  obtain ⟨s₆, ht, h⟩ := Option.bind_eq_some_iff.mp h
  obtain ⟨⟨hour, s₇⟩, hhour, h⟩ := Option.bind_eq_some_iff.mp h
  obtain ⟨s₈, hcolon, h⟩ := Option.bind_eq_some_iff.mp h
  obtain ⟨⟨minute, s₉⟩, hminute, h⟩ := Option.bind_eq_some_iff.mp h
  obtain ⟨s₁₀, hcolon', h⟩ := Option.bind_eq_some_iff.mp h
  obtain ⟨⟨second, s₁₁⟩, hsecond, h⟩ := Option.bind_eq_some_iff.mp h
  obtain ⟨s₁₂, hfraction, h⟩ := Option.bind_eq_some_iff.mp h
  obtain ⟨offset, hoffset, -⟩ := Option.bind_eq_some_iff.mp h
  have hend := skipFraction_ascii hfraction (takeOffset_ascii hoffset)
  have hminutes := skipText_ascii (by decide) hcolon' (takeDigits_ascii hsecond hend)
  have hhours := skipText_ascii (by decide) hcolon (takeDigits_ascii hminute hminutes)
  have hdays := skipText_ascii (by decide) ht (takeDigits_ascii hhour hhours)
  have hmonths := skipText_ascii (by decide) hdash' (takeDigits_ascii hday hdays)
  exact takeDigits_ascii hyear (skipText_ascii (by decide) hdash (takeDigits_ascii hmonth hmonths))

end DateTime

end Aseos
