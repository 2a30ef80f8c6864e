import Aseos.Js.DateTime
import Mathlib.Tactic.Ring

namespace Aseos

namespace DateTime

-- A time value by its UTC fields, up to the year 9999.
structure UtcInstant where
  year : ℕ
  month : ℕ
  day : ℕ
  hour : ℕ
  minute : ℕ
  second : ℕ
  millisecond : ℕ
  year_le : year ≤ 9999
  month_le : 1 ≤ month ∧ month ≤ 12
  day_le : 1 ≤ day ∧ day ≤ (monthDays (leapYear year)).getD (month - 1) 0
  hour_le : hour ≤ 23
  minute_le : minute ≤ 59
  second_le : second ≤ 59
  millisecond_le : millisecond ≤ 999

def digitUnit (d : ℕ) : CodeUnit := Fin.ofNat 65536 (48 + d)

def fixedDigits : ℕ → ℕ → JsString
  | 0, _ => []
  | width + 1, n => fixedDigits width (n / 10) ++ [digitUnit (n % 10)]

-- `YYYY-MM-DDTHH:mm:ss.sssZ`
def toISOString (t : UtcInstant) : JsString :=
  fixedDigits 4 t.year ++ 45 :: (fixedDigits 2 t.month ++ 45 :: (fixedDigits 2 t.day ++ 84 ::
    (fixedDigits 2 t.hour ++ 58 :: (fixedDigits 2 t.minute ++ 58 :: (fixedDigits 2 t.second ++ 46 ::
      (fixedDigits 3 t.millisecond ++ [90]))))))

theorem digitUnit_val {d : ℕ} (h : d < 10) : (digitUnit d).val = 48 + d := by
  simp only [digitUnit, Fin.val_ofNat]
  omega

theorem digitUnit_isDigit {d : ℕ} (h : d < 10) : (digitUnit d).isDigit = true := by
  have hval := digitUnit_val h
  simp only [CodeUnit.isDigit, CodeUnit.inRange, Bool.and_eq_true, decide_eq_true_eq]
  change 48 ≤ (digitUnit d).val ∧ (digitUnit d).val ≤ 57
  omega

theorem takeDigits_cons {width value d : ℕ} (h : d < 10) (rest : JsString) :
    takeDigits (width + 1) value (digitUnit d :: rest) = takeDigits width (10 * value + d) rest := by
  have hval := digitUnit_val h
  rw [takeDigits, if_pos (digitUnit_isDigit h)]
  refine congrArg (takeDigits width · rest) ?_
  change 10 * value + ((digitUnit d).val - 48) = _
  omega

theorem takeDigits_fixedDigits {width n : ℕ} (h : n < 10 ^ width) (extra value : ℕ)
    (rest : JsString) :
    takeDigits (width + extra) value (fixedDigits width n ++ rest) =
      takeDigits extra (value * 10 ^ width + n) rest := by
  induction width generalizing n extra rest with
  | zero =>
    obtain rfl : n = 0 := by simpa using h
    simp [fixedDigits]
  | succ width ih =>
    have hdiv : n / 10 < 10 ^ width := by
      rw [Nat.div_lt_iff_lt_mul (by decide)]
      rwa [pow_succ] at h
    have hmod := Nat.mod_lt n (show 0 < 10 by decide)
    rw [fixedDigits, List.append_assoc, List.singleton_append,
      show width + 1 + extra = width + (extra + 1) by omega, ih hdiv, takeDigits_cons hmod]
    refine congrArg (takeDigits extra · rest) ?_
    rw [pow_succ]
    have hn := Nat.div_add_mod n 10
    calc 10 * (value * 10 ^ width + n / 10) + n % 10
        = value * (10 ^ width * 10) + (10 * (n / 10) + n % 10) := by ring
      _ = value * (10 ^ width * 10) + n := by rw [hn]

theorem takeDigits_fixed {width n : ℕ} (h : n < 10 ^ width) (rest : JsString) :
    takeDigits width 0 (fixedDigits width n ++ rest) = some (n, rest) := by
  have htake := takeDigits_fixedDigits h 0 0 rest
  rw [Nat.add_zero, Nat.zero_mul, Nat.zero_add] at htake
  exact htake

theorem fixedDigits_isDigit (width n : ℕ) : ∀ c ∈ fixedDigits width n, c.isDigit = true := by
  induction width generalizing n with
  | zero => simp [fixedDigits]
  | succ width ih =>
    intro c hc
    rcases List.mem_append.mp hc with hc | hc
    · exact ih _ c hc
    · obtain rfl := List.mem_singleton.mp hc
      exact digitUnit_isDigit (Nat.mod_lt _ (by decide))

theorem skipFraction_digits (n : ℕ) :
    skipFraction (46 :: (fixedDigits 3 n ++ [90])) = some [90] := by
  have hdigits := fixedDigits_isDigit 3 n
  obtain ⟨c, rest, hform⟩ : ∃ c rest, fixedDigits 3 n = c :: rest := ⟨_, _, rfl⟩
  rw [hform] at hdigits ⊢
  obtain ⟨hc, hrest⟩ := List.forall_mem_cons.mp hdigits
  rw [skipFraction, if_pos (by decide), List.cons_append, skip, if_pos hc, Option.map_some,
    List.dropWhile_append_of_pos hrest]
  rfl

theorem rfc3339DateTime_toISOString (t : UtcInstant) :
    rfc3339DateTime (toISOString t) =
      some ⟨t.year, t.month, t.day, t.hour, t.minute, t.second, none⟩ := by
  have hyear := @takeDigits_fixed 4 t.year (by have := t.year_le; omega)
  have hmonth := @takeDigits_fixed 2 t.month (by have := t.month_le; omega)
  have hday := @takeDigits_fixed 2 t.day (by
    have hday := t.day_le.2
    have hmonths : ∀ m < 12, ∀ leap, (monthDays leap).getD m 0 ≤ 31 := by decide
    have hle := hmonths (t.month - 1) (by have := t.month_le; omega) (leapYear t.year)
    omega)
  have hhour := @takeDigits_fixed 2 t.hour (by have := t.hour_le; omega)
  have hminute := @takeDigits_fixed 2 t.minute (by have := t.minute_le; omega)
  have hsecond := @takeDigits_fixed 2 t.second (by have := t.second_le; omega)
  have hdash (s : JsString) : skipText "-" (45 :: s) = some s := rfl
  have hmark (s : JsString) : skipText "tT" (84 :: s) = some s := rfl
  have hcolon (s : JsString) : skipText ":" (58 :: s) = some s := rfl
  have hoffset : takeOffset [90] = some none := rfl
  rw [rfc3339DateTime, toISOString]
  simp only [hyear, hmonth, hday, hhour, hminute, hsecond, hdash, hmark, hcolon, hoffset,
    skipFraction_digits, Option.bind_eq_bind, Option.bind_some]
  rfl

theorem calendarValid_utc (t : UtcInstant) :
    calendarValid ⟨t.year, t.month, t.day, t.hour, t.minute, t.second, none⟩ = true := by
  have hsecond : t.second ≤ 60 := t.second_le.trans (by decide)
  have hday := t.day_le
  rw [List.getD_eq_getElem?_getD] at hday
  simp [calendarValid, t.month_le, hday, t.hour_le, t.minute_le, hsecond]

end DateTime

end Aseos
