import Aseos.Contracts.JsonRoundTrip
import Mathlib.Data.Nat.Digits.Lemmas
import Mathlib.Data.Rat.Lemmas
import Mathlib.Data.Nat.Prime.Basic
import Mathlib.Tactic.FieldSimp
import Mathlib.Tactic.Ring

namespace Aseos

namespace Decimal

def digits (n : ℕ) : JsString :=
  if n = 0 then [48] else (Nat.digits 10 n).reverse.map fun d => Fin.ofNat 65536 (48 + d)

def digitsValue (s : JsString) : ℕ := Nat.ofDigits 10 (s.reverse.map fun c => c.val - 48)

theorem digits_pos {n : ℕ} (h : n ≠ 0) :
    digits n = (Nat.digits 10 n).reverse.map fun d => Fin.ofNat 65536 (48 + d) := if_neg h

theorem digitUnit_val {d : ℕ} (h : d < 10) : (Fin.ofNat 65536 (48 + d)).val = 48 + d := by
  simp only [Fin.val_ofNat]
  omega

theorem digitsValue_digits (n : ℕ) : digitsValue (digits n) = n := by
  by_cases h : n = 0
  · subst h
    rfl
  · rw [digits_pos h, digitsValue, ← List.map_reverse, List.reverse_reverse, List.map_map]
    have hmap : (Nat.digits 10 n).map ((fun c : CodeUnit => c.val - 48) ∘
        fun d => Fin.ofNat 65536 (48 + d)) = Nat.digits 10 n := by
      refine (List.map_congr_left fun d hd => ?_).trans (List.map_id _)
      have hlt := Nat.digits_lt_base (by decide : 1 < 10) hd
      simp only [Function.comp_apply, digitUnit_val hlt, id_eq]
      omega
    rw [hmap, Nat.ofDigits_digits]

theorem isDigit_iff (c : CodeUnit) : c.isDigit = true ↔ 48 ≤ c.val ∧ c.val ≤ 57 := by
  simp only [CodeUnit.isDigit, CodeUnit.inRange, Bool.and_eq_true, decide_eq_true_eq]
  exact Iff.rfl

theorem digits_isDigit (n : ℕ) : ∀ c ∈ digits n, c.isDigit = true := by
  intro c hc
  by_cases h : n = 0
  · subst h
    obtain rfl := List.mem_singleton.mp hc
    rfl
  · rw [digits_pos h] at hc
    obtain ⟨d, hd, rfl⟩ := List.mem_map.mp hc
    have hlt := Nat.digits_lt_base (by decide : 1 < 10) (List.mem_reverse.mp hd)
    rw [isDigit_iff, digitUnit_val hlt]
    omega

theorem digits_ne_nil (n : ℕ) : digits n ≠ [] := by
  by_cases h : n = 0
  · subst h
    exact List.cons_ne_nil _ _
  · rw [digits_pos h]
    simpa [Nat.digits_ne_nil_iff_ne_zero] using h

def scale (q : ℚ) : ℕ := Nat.log 2 q.den

-- An integer as its digits, and any other value as an integer times a power of ten.
def text (q : ℚ) : JsString :=
  (if q < 0 then [45] else []) ++ digits (q.num.natAbs * 5 ^ scale q) ++
    (if scale q = 0 then [] else [101, 45] ++ digits (scale q))

def value (s : JsString) : ℚ :=
  let body := if s.head? = some 45 then s.tail else s
  (if s.head? = some 45 then -1 else 1) * digitsValue (body.takeWhile CodeUnit.isDigit) /
    10 ^ digitsValue ((body.dropWhile CodeUnit.isDigit).drop 2)

theorem representable_den {q : ℚ} (h : Representable q) : q.den = 2 ^ scale q := by
  obtain ⟨m, e, -, -, -, rfl⟩ := h
  have hpow : ∃ k : ℕ, ((m : ℚ) * 2 ^ e).den ∣ 2 ^ k := by
    rcases Int.le_total 0 e with he | he
    · obtain ⟨n, rfl⟩ := Int.eq_ofNat_of_zero_le he
      refine ⟨0, ?_⟩
      have hint : (m : ℚ) * 2 ^ (n : ℤ) = ((m * 2 ^ n : ℤ) : ℚ) := by push_cast; rfl
      rw [hint, Rat.den_intCast]
      exact one_dvd _
    · obtain ⟨n, hn⟩ := Int.eq_ofNat_of_zero_le (Int.neg_nonneg_of_nonpos he)
      refine ⟨n, ?_⟩
      have hdiv : (m : ℚ) * 2 ^ e = Rat.divInt m ((2 ^ n : ℕ) : ℤ) := by
        rw [Rat.divInt_eq_div, show e = -(n : ℤ) by omega, zpow_neg, zpow_natCast]
        push_cast
        rfl
      rw [hdiv]
      exact_mod_cast Rat.den_dvd m ((2 ^ n : ℕ) : ℤ)
  obtain ⟨k, hk⟩ := hpow
  obtain ⟨j, -, hj⟩ := (Nat.dvd_prime_pow Nat.prime_two).mp hk
  rw [scale, hj, Nat.log_pow (by decide)]

theorem takeWhile_digits (n : ℕ) {rest : JsString}
    (hrest : ∀ c ∈ rest.head?, c.isDigit = false) :
    (digits n ++ rest).takeWhile CodeUnit.isDigit = digits n ∧
      (digits n ++ rest).dropWhile CodeUnit.isDigit = rest := by
  rw [List.takeWhile_append_of_pos (digits_isDigit n),
    List.dropWhile_append_of_pos (digits_isDigit n)]
  cases rest with
  | nil => simp
  | cons c rest => simp [hrest c rfl]

theorem value_text {q : ℚ} (h : Representable q) : value (text q) = q := by
  have hden := representable_den h
  set k := scale q with hk
  set m := q.num.natAbs * 5 ^ k with hm
  have htail : ∀ c ∈ (if k = 0 then [] else [101, 45] ++ digits k : JsString).head?,
      c.isDigit = false := by
    split
    · simp
    · rintro c ⟨⟩
      rfl
  have hexponent : digitsValue
      ((if k = 0 then [] else [101, 45] ++ digits k : JsString).drop 2) = k := by
    split
    · rename_i h0
      rw [h0]
      rfl
    · exact digitsValue_digits k
  obtain ⟨htake, hdrop⟩ := takeWhile_digits m htail
  have habs : (m : ℚ) / 10 ^ k = |q| := by
    rw [hm, show (10 : ℚ) = 2 * 5 by norm_num, mul_pow]
    push_cast
    have hq : |q| = (q.num.natAbs : ℚ) / 2 ^ k := by
      rw [← Rat.num_div_den |q|, Rat.num_abs_eq_abs_num, Rat.den_abs_eq_den, hden, Nat.cast_natAbs]
      push_cast
      rfl
    rw [hq]
    field_simp
  have hhead : (digits m ++ (if k = 0 then [] else [101, 45] ++ digits k)).head? ≠ some 45 := by
    obtain ⟨c, w, hw⟩ := List.exists_cons_of_ne_nil (digits_ne_nil m)
    have hc := digits_isDigit m c (hw ▸ List.mem_cons_self)
    rw [hw]
    rintro ⟨⟩
    exact absurd hc (by decide)
  by_cases hneg : q < 0
  · have hform : text q = 45 :: (digits m ++ (if k = 0 then [] else [101, 45] ++ digits k)) := by
      rw [text, if_pos hneg, List.append_assoc]
      rfl
    rw [hform, value]
    simp only [List.head?_cons, if_true, List.tail_cons, htake, hdrop, hexponent,
      digitsValue_digits, neg_mul, one_mul, neg_div, habs, abs_of_neg hneg, neg_neg]
  · have hform : text q = digits m ++ (if k = 0 then [] else [101, 45] ++ digits k) := by
      rw [text, if_neg hneg, List.nil_append]
    rw [hform, value]
    simp only [hhead, if_false, htake, hdrop, hexponent, digitsValue_digits, one_mul, habs,
      abs_of_nonneg (not_lt.mp hneg)]

section Literal

open Regex

theorem mem_star_digits {s : JsString} (h : ∀ c ∈ s, c.isDigit = true) :
    s ∈ (star (one CodeUnit.isDigit)).lang := by
  refine mem_lang_star.mpr ⟨s.map fun c => [c], ?_, fun part hpart => ?_⟩
  · rw [← List.flatMap_def, List.flatMap_singleton']
  · obtain ⟨c, hc, rfl⟩ := List.mem_map.mp hpart
    exact ⟨⟨c, h c hc, rfl⟩, List.cons_ne_nil _ _⟩

theorem mem_plus_digits (n : ℕ) : digits n ∈ (plus (one CodeUnit.isDigit)).lang := by
  have hall := digits_isDigit n
  obtain ⟨c, w, hw⟩ := List.exists_cons_of_ne_nil (digits_ne_nil n)
  rw [hw] at hall ⊢
  obtain ⟨hc, hrest⟩ := List.forall_mem_cons.mp hall
  exact mem_lang_seq.mpr ⟨[c], ⟨c, hc, rfl⟩, w, mem_star_digits hrest, rfl⟩

theorem mem_decimal_digits (n : ℕ) : digits n ∈ Pattern.decimal.lang := by
  by_cases h : n = 0
  · subst h
    exact (test_iff _ _).mp (by decide)
  · refine mem_lang_alt.mpr (.inr ?_)
    have hall := digits_isDigit n
    have hne : Nat.digits 10 n ≠ [] := Nat.digits_ne_nil_iff_ne_zero.mpr h
    have hlast := Nat.getLast_digit_ne_zero 10 h
    have hlt := Nat.digits_lt_base (by decide : 1 < 10) (List.getLast_mem hne)
    have hform : digits n = Fin.ofNat 65536 (48 + (Nat.digits 10 n).getLast hne) ::
        (Nat.digits 10 n).dropLast.reverse.map fun d => Fin.ofNat 65536 (48 + d) := by
      rw [digits_pos h]
      conv_lhs => rw [← List.dropLast_append_getLast hne]
      simp
    rw [hform] at hall ⊢
    obtain ⟨hc, hrest⟩ := List.forall_mem_cons.mp hall
    refine mem_lang_seq.mpr ⟨[_], ⟨_, ?_, rfl⟩, _, mem_star_digits hrest, rfl⟩
    simp only [CodeUnit.inRange, Bool.and_eq_true, decide_eq_true_eq, digitUnit_val hlt]
    exact ⟨show 49 ≤ _ by omega, show _ ≤ 57 by omega⟩

theorem text_literal (q : ℚ) : Json.numberLiteral.test (text q) = true := by
  have hopt {r : Regex CodeUnit} : [] ∈ (opt r).lang := mem_lang_alt.mpr (.inr rfl)
  have hsign : (if q < 0 then [45] else [] : JsString) ∈ (opt (Regex.text (js "-"))).lang := by
    split
    · exact (test_iff _ _).mp (by decide)
    · exact hopt
  have htail : (if scale q = 0 then [] else [101, 45] ++ digits (scale q) : JsString) ∈
      (opt (all [one (CodeUnit.isAny "eE"), opt (one (CodeUnit.isAny "+-")),
        plus (one CodeUnit.isDigit)])).lang := by
    split
    · exact hopt
    · refine mem_lang_alt.mpr (.inl (mem_lang_seq.mpr ⟨[101], ⟨_, by decide, rfl⟩, _, ?_, rfl⟩))
      refine mem_lang_seq.mpr ⟨[45], mem_lang_alt.mpr (.inl ⟨_, by decide, rfl⟩), _, ?_, rfl⟩
      exact mem_plus_digits _
  refine (test_iff _ _).mpr (mem_lang_seq.mpr ⟨_, hsign, _, ?_, (List.append_assoc _ _ _).symm⟩)
  exact mem_lang_seq.mpr ⟨_, mem_decimal_digits _, _, mem_lang_seq.mpr ⟨[], hopt, _, htail, rfl⟩, rfl⟩

end Literal

end Decimal

open Classical in
noncomputable def decimalRuntime (sha256 : JsString → HexDigest) : JsonRuntime where
  numberText x := Decimal.text x.value
  sha256 := sha256
  numberValue s :=
    if h : Representable (Decimal.value s) then .finite ⟨Decimal.value s, false, h, by simp⟩
    else .nan
  literal x := Decimal.text_literal x.value
  readBack x := by
    have hvalue := Decimal.value_text x.representable
    have hx : Representable (Decimal.value (Decimal.text x.value)) := by
      rw [hvalue]
      exact x.representable
    rw [dif_pos hx]
    simp only [Double.unsigned, hvalue]
  unsignedText _ := rfl

def zeroDigest : HexDigest := ⟨List.replicate 64 48, zeros_hex⟩

noncomputable def sampleRuntime : JsonRuntime := decimalRuntime fun _ => zeroDigest

end Aseos
