import Aseos.Contracts.Stringify
import Aseos.Js.Utf16
import Mathlib.Data.List.GetD

namespace Aseos

def SingleLine (s : JsString) : Prop := ∃ text : List Char, '\n' ∉ text ∧ utf16Text text = s

theorem utf16Text_append (text text' : List Char) :
    utf16Text (text ++ text') = utf16Text text ++ utf16Text text' :=
  List.flatMap_append

theorem utf16Text_cons (c : Char) (text : List Char) :
    utf16Text (c :: text) = utf16 c ++ utf16Text text :=
  List.flatMap_cons

namespace SingleLine

theorem chars {s : JsString} (h : SingleLine s) : '\n' ∉ s.chars ∧ utf16Text s.chars = s := by
  obtain ⟨text, hline, rfl⟩ := h
  rw [JsString.chars_utf16Text]
  exact ⟨hline, rfl⟩

theorem nil : SingleLine [] := ⟨[], by simp, rfl⟩

theorem append {s t : JsString} (hs : SingleLine s) (ht : SingleLine t) : SingleLine (s ++ t) := by
  obtain ⟨text, hline, rfl⟩ := hs
  obtain ⟨text', hline', rfl⟩ := ht
  exact ⟨text ++ text', by simp [hline, hline'], utf16Text_append text text'⟩

theorem js {s : String} (h : '\n' ∉ s.toList) : SingleLine (js s) := ⟨s.toList, h, rfl⟩

theorem unit {c : CodeUnit} (hhigh : c.isHighSurrogate = false) (hlow : c.isLowSurrogate = false)
    (hline : c.val ≠ 10) : SingleLine [c] := by
  have hnat := JsString.toNat_unit hhigh hlow
  refine ⟨[Char.ofNat c.val], ?_, ?_⟩
  · rw [List.mem_singleton]
    intro h
    rw [← h] at hnat
    exact hline hnat.symm
  · rw [utf16Text, List.flatMap_singleton]
    exact JsString.utf16_unit hhigh hlow

theorem units {s : JsString} (h : ∀ c ∈ s, c.val < 128 ∧ c.val ≠ 10) : SingleLine s := by
  induction s with
  | nil => exact nil
  | cons c s ih =>
    obtain ⟨⟨hascii, hline⟩, hs⟩ := List.forall_mem_cons.mp h
    refine (unit ?_ ?_ hline).append (ih hs)
    · simp only [CodeUnit.isHighSurrogate, Bool.and_eq_false_iff, decide_eq_false_iff_not]
      omega
    · simp only [CodeUnit.isLowSurrogate, Bool.and_eq_false_iff, decide_eq_false_iff_not]
      omega

theorem pair {c d : CodeUnit} (hc : c.isHighSurrogate = true) (hd : d.isLowSurrogate = true) :
    SingleLine [c, d] := by
  have hnat := JsString.toNat_pair hc hd
  refine ⟨[Char.ofNat (65536 + (c.val - 55296) * 1024 + (d.val - 56320))], ?_, ?_⟩
  · rw [List.mem_singleton]
    intro h
    rw [← h, show ('\n' : Char).toNat = 10 from rfl] at hnat
    omega
  · rw [utf16Text, List.flatMap_singleton]
    exact JsString.utf16_pair hc hd

end SingleLine

namespace Json

open JsonText JsValue

theorem hexDigit_ascii (n : ℕ) : (hexDigit n).val < 128 ∧ (hexDigit n).val ≠ 10 := by
  by_cases h : n < 16
  · revert n
    decide
  · have hdefault : hexDigit n = 0 := by
      rw [hexDigit, List.getD_eq_default]
      rw [show (js "0123456789abcdef").length = 16 from rfl]
      omega
    rw [hdefault]
    decide

theorem singleLine_unicodeEscape (c : CodeUnit) : SingleLine (unicodeEscape c) := by
  refine (SingleLine.js (by decide)).append (SingleLine.units ?_)
  simp [hexDigit_ascii]

theorem singleLine_escapeUnit {c : CodeUnit} (hhigh : c.isHighSurrogate = false)
    (hlow : c.isLowSurrogate = false) : SingleLine (escapeUnit c) := by
  unfold escapeUnit
  split_ifs <;>
    first
    | exact SingleLine.js (by decide)
    | exact singleLine_unicodeEscape c
    | exact .unit hhigh hlow ‹¬ c.val = 10›

theorem singleLine_escape (s : JsString) : SingleLine (escape s) := by
  induction s using escape.induct with
  | case1 => exact .nil
  | case2 c hc =>
    rw [escape, if_pos hc]
    exact singleLine_unicodeEscape c
  | case3 c hc =>
    rw [escape, if_neg hc]
    rw [Bool.not_eq_true, Bool.or_eq_false_iff] at hc
    exact singleLine_escapeUnit hc.1 hc.2
  | case4 c d s hpair ih =>
    rw [escape, if_pos hpair]
    obtain ⟨hc, hd⟩ := Bool.and_eq_true_iff.mp hpair
    exact (SingleLine.pair hc hd).append ih
  | case5 c d s hpair hlone ih =>
    rw [escape, if_neg hpair, if_pos hlone]
    exact (singleLine_unicodeEscape c).append ih
  | case6 c d s hpair hlone ih =>
    rw [escape, if_neg hpair, if_neg hlone]
    rw [Bool.not_eq_true, Bool.or_eq_false_iff] at hlone
    exact (singleLine_escapeUnit hlone.1 hlone.2).append ih

theorem singleLine_quote (s : JsString) : SingleLine (quote s) :=
  ((SingleLine.js (by decide)).append (singleLine_escape s)).append (.js (by decide))

theorem singleLine_commaSeparated {texts : List JsString} (h : ∀ t ∈ texts, SingleLine t) :
    SingleLine (commaSeparated texts) := by
  induction texts with
  | nil => exact .nil
  | cons t texts ih =>
    obtain ⟨ht, htexts⟩ := List.forall_mem_cons.mp h
    by_cases hlast : texts = []
    · subst hlast
      rw [commaSeparated_single]
      exact ht
    · rw [commaSeparated_cons t hlast]
      have hcomma : SingleLine [44] := .units (by simp)
      exact ht.append (hcomma.append (ih htexts))

variable {runtime : JsonRuntime}

theorem singleLine_numberText (x : Double) : SingleLine (runtime.numberText x) := by
  refine .units fun c hc => ?_
  have hunit := (isNumberUnit_iff c).mp (numberText_units x c hc)
  simp only [List.mem_cons, List.not_mem_nil, or_false] at hunit
  omega

theorem singleLine_stringify {v : JsValue} {text : JsString}
    (h : stringify runtime.toHost v = some text) : SingleLine text := by
  induction v using nestedInduction generalizing text with
  | array slots extra ih =>
    obtain rfl := Option.some.inj h
    refine ((SingleLine.js (by decide)).append (singleLine_commaSeparated ?_)).append
      (.js (by decide))
    clear h
    induction slots with
    | nil => simp [stringifySlots]
    | cons s slots hslots =>
      obtain ⟨hs, htail⟩ := List.forall_mem_cons.mp ih
      rw [stringifySlots]
      refine List.forall_mem_cons.mpr ⟨?_, hslots htail⟩
      cases htext : stringify runtime.toHost s.2 with
      | none => exact .js (by decide)
      | some text => exact hs htext
  | object plain props ih =>
    obtain rfl := Option.some.inj h
    refine ((SingleLine.js (by decide)).append (singleLine_commaSeparated ?_)).append
      (.js (by decide))
    clear h
    induction props with
    | nil => simp [stringifyProps]
    | cons p props hprops =>
      obtain ⟨⟨key, kind⟩, v⟩ := p
      obtain ⟨hp, htail⟩ := List.forall_mem_cons.mp ih
      have hrest := hprops htail
      rw [stringifyProps]
      split
      · exact hrest
      · exact hrest
      · exact hrest
      · refine List.forall_mem_cons.mpr ⟨?_, hrest⟩
        exact ((singleLine_quote _).append (.js (by decide))).append
          (hp ‹stringify runtime.toHost v = some _›)
  | atom v harray hobject =>
    cases v with
    | undefined | foreign type | cycle => cases h
    | null =>
      obtain rfl := Option.some.inj h
      exact .js (by decide)
    | bool b =>
      obtain rfl := Option.some.inj h
      cases b <;> exact .js (by decide)
    | number n =>
      cases n with
      | finite x =>
        obtain rfl := Option.some.inj h
        exact singleLine_numberText x
      | _ =>
        obtain rfl := Option.some.inj h
        exact .js (by decide)
    | string s =>
      obtain rfl := Option.some.inj h
      exact singleLine_quote s
    | array slots extra => exact absurd rfl (harray slots extra)
    | object plain props => exact absurd rfl (hobject plain props)

end Json

end Aseos
