import Aseos.Js.Ascii
import Aseos.Persistence.Tables
import Mathlib.Data.List.TakeWhile

namespace Aseos

def CodeUnit.isPrintable (c : CodeUnit) : Bool := 0 < c.val && c.val < 128

theorem CodeUnit.isPrintable_iff {c : CodeUnit} :
    c.isPrintable = true ↔ 0 < c.val ∧ c.val < 128 := by
  rw [CodeUnit.isPrintable, Bool.and_eq_true, decide_eq_true_eq, decide_eq_true_eq]

theorem CodeUnit.isLowerHex_printable {c : CodeUnit} (h : c.isLowerHex = true) :
    c.isPrintable = true := by
  rw [isPrintable_iff]
  refine ⟨?_, isLowerHex_ascii h⟩
  rw [isLowerHex, Bool.or_eq_true] at h
  simp only [isDigit, inRange, Bool.and_eq_true, decide_eq_true_eq] at h
  obtain h | h := h
  · exact lt_of_lt_of_le (by decide) h.1
  · exact lt_of_lt_of_le (by decide) h.1

namespace Pattern

open Regex

variable {s : JsString}

theorem sha256_units (h : sha256.test s = true) :
    s.length = 64 ∧ ∀ c ∈ s, CodeUnit.isLowerHex c = true :=
  mem_lang_times_one.mp ((test_iff _ _).mp h)

theorem uuidV7_printable (h : uuidV7.test s = true) : ∀ c ∈ s, CodeUnit.isPrintable c = true := by
  have hhex (n : ℕ) : (hexDigits n).Letters fun c => CodeUnit.isPrintable c = true :=
    Letters.times (r := one CodeUnit.isLowerHex) (fun _ => CodeUnit.isLowerHex_printable) n
  have htext (t : String) (ht : (js t).all CodeUnit.isPrintable = true) :
      (text (js t)).Letters fun c => CodeUnit.isPrintable c = true :=
    letters_text (List.all_eq_true.mp ht)
  refine Letters.all_mem ?_ ((test_iff _ _).mp h)
  refine ⟨hhex 8, htext _ (by decide), hhex 4, htext _ (by decide), hhex 3, htext _ (by decide), ?_,
    hhex 3, htext _ (by decide), hhex 12⟩
  have hvariant : (js "89ab").all CodeUnit.isPrintable = true := by decide
  exact fun c hc => List.all_eq_true.mp hvariant c (List.elem_iff.mp hc)

end Pattern

namespace Persistence

-- What the driver hands back as it was given.
structure Legible (s : JsString) : Prop where
  wellFormed : s.wellFormed = true
  noNul : 0 ∉ s

theorem nul_notMem_bound {s : JsString} (h : Legible s) : nul ∉ bound s := by
  intro hmem
  have hunits : utf16Text (bound s) = s := JsString.utf16Text_chars h.wellFormed
  refine h.noNul ?_
  rw [← hunits, utf16Text, List.mem_flatMap]
  exact ⟨nul, hmem, by decide⟩

theorem columnText_bound (driver : Driver) {s : JsString} (h : Legible s) :
    driver.columnText (bound s) = s := by
  rw [driver.columnText_eq _ (nul_notMem_bound h)]
  exact JsString.utf16Text_chars h.wellFormed

theorem bound_inj {s t : JsString} (hs : Legible s) (ht : Legible t) : bound s = bound t ↔ s = t :=
  ⟨JsString.chars_injective hs.wellFormed ht.wellFormed, congrArg bound⟩

theorem legible_of_printable {s : JsString} (h : ∀ c ∈ s, CodeUnit.isPrintable c = true) :
    Legible s where
  wellFormed := JsString.IsAscii.wellFormed fun c hc => (CodeUnit.isPrintable_iff.mp (h c hc)).2
  noNul := fun hmem => absurd (CodeUnit.isPrintable_iff.mp (h 0 hmem)).1 (by decide)

theorem legible_uuidV7 {s : JsString} (h : Pattern.uuidV7.test s = true) : Legible s :=
  legible_of_printable (Pattern.uuidV7_printable h)

theorem legible_sha256 {s : JsString} (h : Pattern.sha256.test s = true) : Legible s :=
  legible_of_printable fun c hc => CodeUnit.isLowerHex_printable ((Pattern.sha256_units h).2 c hc)

theorem sqlLength_sha256 {s : JsString} (h : Pattern.sha256.test s = true) :
    sqlLength (bound s) = 64 := by
  have hnul := nul_notMem_bound (legible_sha256 h)
  have hall : (bound s).takeWhile (fun c => decide (c ≠ nul)) = bound s := by
    refine List.takeWhile_eq_self_iff.mpr ?_
    exact fun c hc => decide_eq_true fun heq => hnul (heq ▸ hc)
  rw [sqlLength, hall, bound, JsString.length_chars (Pattern.sha256_ascii h),
    (Pattern.sha256_units h).1]

end Persistence

end Aseos
