import Aseos.Persistence.Requests
import Aseos.Persistence.StoredText
import Aseos.Release.CanonicalEncoders

namespace Aseos

def Visible (s : JsString) : Prop := ∀ c ∈ s, 32 ≤ c.val

namespace Visible

theorem append {s t : JsString} (hs : Visible s) (ht : Visible t) : Visible (s ++ t) :=
  List.forall_mem_append.mpr ⟨hs, ht⟩

theorem js {s : String} (h : (Aseos.js s).all fun c => 32 ≤ c.val) : Visible (Aseos.js s) :=
  fun c hc => of_decide_eq_true (List.all_eq_true.mp h c hc)

end Visible

namespace JsonText

theorem visible_hexDigit (n : ℕ) : Visible [hexDigit (n % 16)] := by
  have hall : ∀ m < 16, 32 ≤ (hexDigit m).val := by decide
  intro c hc
  obtain rfl := List.mem_singleton.mp hc
  exact hall _ (Nat.mod_lt n (by decide))

theorem visible_unicodeEscape (c : CodeUnit) : Visible (unicodeEscape c) :=
  (Visible.js (by decide)).append ((visible_hexDigit _).append ((visible_hexDigit _).append
    ((visible_hexDigit _).append (visible_hexDigit _))))

theorem visible_escapeUnit (c : CodeUnit) : Visible (escapeUnit c) := by
  unfold escapeUnit
  split_ifs with h₁ h₂ h₃ h₄ h₅ h₆ h₇ h₈
  · exact .js (by decide)
  · exact .js (by decide)
  · exact .js (by decide)
  · exact .js (by decide)
  · exact .js (by decide)
  · exact .js (by decide)
  · exact .js (by decide)
  · exact visible_unicodeEscape c
  · intro d hd
    obtain rfl := List.mem_singleton.mp hd
    exact Nat.le_of_not_lt h₈

theorem visible_surrogate {c : CodeUnit} (h : (c.isHighSurrogate || c.isLowSurrogate) = true) :
    32 ≤ c.val := by
  simp only [CodeUnit.isHighSurrogate, CodeUnit.isLowSurrogate, Bool.or_eq_true, Bool.and_eq_true,
    decide_eq_true_eq] at h
  omega

theorem visible_escape (s : JsString) : Visible (escape s) := by
  induction s using escape.induct with
  | case1 => exact List.forall_mem_nil _
  | case2 c hc =>
    rw [escape, if_pos hc]
    exact visible_unicodeEscape c
  | case3 c hc =>
    rw [escape, if_neg hc]
    exact visible_escapeUnit c
  | case4 c d s hpair ih =>
    rw [escape, if_pos hpair]
    obtain ⟨hc, hd⟩ := Bool.and_eq_true_iff.mp hpair
    refine List.forall_mem_cons.mpr ⟨visible_surrogate ?_, List.forall_mem_cons.mpr
      ⟨visible_surrogate ?_, ih⟩⟩
    · rw [hc, Bool.true_or]
    · rw [hd, Bool.or_true]
  | case5 c d s hpair hlone ih =>
    rw [escape, if_neg hpair, if_pos hlone]
    exact (visible_unicodeEscape c).append ih
  | case6 c d s hpair hlone ih =>
    rw [escape, if_neg hpair, if_neg hlone]
    exact (visible_escapeUnit c).append ih

theorem visible_quote (s : JsString) : Visible (quote s) :=
  ((Visible.js (by decide)).append (visible_escape s)).append (.js (by decide))

theorem visible_commaSeparated {texts : List JsString} (h : ∀ t ∈ texts, Visible t) :
    Visible (commaSeparated texts) := by
  induction texts with
  | nil => exact List.forall_mem_nil _
  | cons t texts ih =>
    obtain ⟨ht, htexts⟩ := List.forall_mem_cons.mp h
    obtain rfl | hrest := Classical.em (texts = [])
    · rw [Json.commaSeparated_single]
      exact ht
    · rw [Json.commaSeparated_cons t hrest]
      exact ht.append (List.forall_mem_cons.mpr ⟨by decide, ih htexts⟩)

end JsonText

namespace CanonicalJson

open JsonText JsValue

variable {runtime : JsonRuntime} {v : JsValue} {text : JsString}

theorem visible_canonicalize (h : canonicalize runtime.toHost v = .ok text) : Visible text := by
  induction v using nestedInduction generalizing text with
  | array slots extra ih =>
    obtain ⟨-, items, hitems, rfl⟩ := canonicalize_array.mp h
    refine ((Visible.js (by decide)).append (visible_commaSeparated fun item hitem => ?_)).append
      (.js (by decide))
    obtain ⟨s, hs, -, hcanonical⟩ := forall₂_left hitems.flip item hitem
    exact ih s hs hcanonical
  | object plain props ih =>
    obtain ⟨-, -, texts, htexts, rfl⟩ := canonicalize_object.mp h
    refine ((Visible.js (by decide)).append (visible_commaSeparated fun t ht => ?_)).append
      (.js (by decide))
    obtain ⟨e, he, value, hvalue, rfl⟩ := forall₂_left htexts.flip t ht
    obtain ⟨p, hp, rfl⟩ := mem_namedMembers.mp he
    exact ((visible_quote _).append (.js (by decide))).append (ih p hp hvalue)
  | atom v harray hobject =>
    cases v with
    | undefined | cycle => simp [canonicalize] at h
    | foreign type => cases type <;> simp [canonicalize] at h
    | null =>
      obtain rfl := Except.ok.inj h
      exact .js (by decide)
    | bool b =>
      obtain rfl := Except.ok.inj h
      cases b <;> exact .js (by decide)
    | number n =>
      cases n with
      | finite x =>
        obtain rfl := Except.ok.inj h
        intro c hc
        have hunit := (Json.isNumberUnit_iff c).mp (Json.numberText_units x c hc)
        simp only [List.mem_cons, List.not_mem_nil, or_false] at hunit
        omega
      | _ => simp [canonicalize] at h
    | string s =>
      obtain rfl := Except.ok.inj h
      exact visible_quote s
    | array slots extra => exact absurd rfl (harray slots extra)
    | object plain props => exact absurd rfl (hobject plain props)

end CanonicalJson

namespace Persistence

variable {runtime : JsonRuntime} {v : JsValue} {text : JsString}

theorem columnText_canonicalJson (driver : Driver)
    (h : canonicalJson runtime.toHost v = .ok text) : driver.columnText (bound text) = text := by
  have hunits : utf16Text text.chars = text := (Release.singleLine_canonicalize h).chars.2
  have hnul : nul ∉ bound text := by
    intro hmem
    have hzero : 0 ∈ text := by
      rw [← hunits, utf16Text, List.mem_flatMap]
      exact ⟨nul, hmem, by decide⟩
    exact absurd (CanonicalJson.visible_canonicalize h 0 hzero) (by decide)
  rw [driver.columnText_eq _ hnul]
  exact hunits

theorem parseJson_canonicalJson (driver : Driver) (context : String)
    (h : canonicalJson runtime.toHost v = .ok text) :
    parseJson runtime driver (bound text) context = .ok v.readBack := by
  rw [parseJson, columnText_canonicalJson driver h, CanonicalJson.parse_canonicalJson h]

end Persistence

end Aseos
