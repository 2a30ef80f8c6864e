import Aseos.Js.DateTime

namespace Aseos.DateTime

section Years

theorem dayFromYear_succ (year : ℤ) :
    dayFromYear (year + 1) = dayFromYear year + ((monthDays (leapYear year)).sum : ℕ) := by
  have hsum : ((monthDays (leapYear year)).sum : ℤ) = if leapYear year then 366 else 365 := by
    cases leapYear year <;> rfl
  rw [hsum]
  simp only [dayFromYear, leapYear, Bool.and_eq_true, Bool.or_eq_true, beq_iff_eq, bne_iff_ne]
  split <;> omega

theorem dayFromYear_le_succ (year : ℤ) : dayFromYear year ≤ dayFromYear (year + 1) := by
  rw [dayFromYear_succ]
  omega

theorem yearFromDay_eq {day year : ℤ} (hlow : dayFromYear year ≤ day)
    (hhigh : day < dayFromYear (year + 1)) : yearFromDay day = year := by
  have hguess : year - 1 ≤ 400 * day / 146097 + 1970 ∧ 400 * day / 146097 + 1970 ≤ year + 1 := by
    simp only [dayFromYear] at hlow hhigh
    omega
  obtain hg | hg | hg : 400 * day / 146097 + 1970 = year - 1 ∨
      400 * day / 146097 + 1970 = year ∨ 400 * day / 146097 + 1970 = year + 1 := by omega
  · simp only [yearFromDay, hg]
    rw [show year - 1 + 1 = year by omega, if_pos hlow]
  · simp only [yearFromDay, hg]
    rw [if_neg (by omega), if_neg (by omega)]
  · have := dayFromYear_le_succ (year + 1)
    simp only [yearFromDay, hg]
    rw [if_neg (by omega), if_pos hhigh]
    omega

theorem dateInYear_take {days : List ℕ} {k d : ℕ} (hk : k < days.length)
    (hd : d < days.getD k 0) : dateInYear days ((days.take k).sum + d) = d + 1 := by
  induction days generalizing k with
  | nil => exact absurd hk (Nat.not_lt_zero k)
  | cons first days ih =>
    cases k with
    | zero =>
      have hd : d < first := hd
      simp [dateInYear, hd]
    | succ k =>
      have hrest := ih (Nat.lt_of_succ_lt_succ hk) (by simpa using hd)
      rw [List.take_succ_cons, List.sum_cons, dateInYear, if_neg (by omega)]
      rw [show first + (days.take k).sum + d - first = (days.take k).sum + d by omega]
      exact hrest

theorem take_sum_add_lt {days : List ℕ} {k d : ℕ} (hk : k < days.length)
    (hd : d < days.getD k 0) : (days.take k).sum + d < days.sum := by
  induction days generalizing k with
  | nil => exact absurd hk (Nat.not_lt_zero k)
  | cons first days ih =>
    cases k with
    | zero =>
      have hd : d < first := hd
      rw [List.take_zero, List.sum_nil, List.sum_cons]
      omega
    | succ k =>
      have hrest := ih (Nat.lt_of_succ_lt_succ hk) (by simpa using hd)
      rw [List.take_succ_cons, List.sum_cons, List.sum_cons]
      omega

theorem take_succ_sum {days : List ℕ} {k : ℕ} (hk : k < days.length) :
    (days.take (k + 1)).sum = (days.take k).sum + days.getD k 0 := by
  rw [List.take_add_one, List.getD_eq_getElem?_getD, List.getElem?_eq_getElem hk,
    List.sum_append, Option.toList_some, List.sum_singleton, Option.getD_some]

theorem monthDays_length (leap : Bool) : (monthDays leap).length = 12 := rfl

end Years

section Days

variable {year month d : ℕ}

theorem utcDate_makeDay (hmonth : month < 12)
    (hd : d < (monthDays (leapYear year)).getD month 0) :
    utcDate (makeDay year month (d + 1) * 86400000) = d + 1 := by
  have hlength : month < (monthDays (leapYear year)).length := by rwa [monthDays_length]
  have hsum := take_sum_add_lt hlength hd
  have hday : makeDay year month (d + 1) * 86400000 / 86400000 = dayFromYear year +
      (((monthDays (leapYear year)).take month).sum + d : ℕ) := by
    rw [makeDay]
    omega
  have hyear : yearFromDay (dayFromYear year +
      (((monthDays (leapYear year)).take month).sum + d : ℕ)) = year := by
    refine yearFromDay_eq (by omega) ?_
    rw [dayFromYear_succ]
    omega
  simp only [utcDate, hday, hyear]
  rw [show (dayFromYear year + (((monthDays (leapYear year)).take month).sum + d : ℕ) -
    dayFromYear year).toNat = ((monthDays (leapYear year)).take month).sum + d by omega]
  exact dateInYear_take hlength hd

theorem monthDays_pos (leap : Bool) (hmonth : month < 12) : 0 < (monthDays leap).getD month 0 := by
  have hall : ∀ days ∈ monthDays leap, 0 < days := by cases leap <;> decide
  have hlength : month < (monthDays leap).length := hmonth
  rw [List.getD_eq_getElem?_getD, List.getElem?_eq_getElem hlength]
  exact hall _ (List.getElem_mem hlength)

theorem utcDate_next_month (hmonth : month < 12) :
    utcDate (makeDay year month ((monthDays (leapYear year)).getD month 0 + 1) * 86400000) = 1 := by
  have hlength : month < (monthDays (leapYear year)).length := by rwa [monthDays_length]
  have htake : ((monthDays (leapYear year)).take (month + 1)).sum =
      ((monthDays (leapYear year)).take month).sum +
        (monthDays (leapYear year)).getD month 0 := take_succ_sum hlength
  by_cases hlast : month + 1 < 12
  · have hday : makeDay year month ((monthDays (leapYear year)).getD month 0 + 1) =
        makeDay year (month + 1) (0 + 1) := by
      rw [makeDay, makeDay, htake]
      omega
    rw [hday]
    exact utcDate_makeDay hlast (monthDays_pos _ hlast)
  · have hfull : (monthDays (leapYear year)).take (month + 1) = monthDays (leapYear year) :=
      List.take_of_length_le (by rw [monthDays_length]; omega)
    have hday : makeDay year month ((monthDays (leapYear year)).getD month 0 + 1) =
        makeDay (year + 1 : ℕ) 0 (0 + 1) := by
      have hsucc := dayFromYear_succ year
      rw [hfull] at htake
      rw [makeDay, makeDay, List.take_zero, List.sum_nil,
        show ((year + 1 : ℕ) : ℤ) = year + 1 by omega, hsucc]
      omega
    rw [hday]
    exact utcDate_makeDay (by omega) (monthDays_pos _ (by omega))

end Days

section Minutes

variable {f : DateTimeFields}

def lastDay (f : DateTimeFields) : ℕ := (monthDays (leapYear f.year)).getD (f.month - 1) 0

def MonthEndMinute (f : DateTimeFields) : Prop :=
  ((f.hour * 60 + f.minute : ℤ) = offsetMinutes f + 1439 ∧ f.day = lastDay f) ∨
    ((f.hour * 60 + f.minute + 1 : ℤ) = offsetMinutes f ∧ f.day = 1)

structure InCalendar (f : DateTimeFields) : Prop where
  month : 1 ≤ f.month ∧ f.month ≤ 12
  day : 1 ≤ f.day ∧ f.day ≤ lastDay f
  hour : f.hour ≤ 23
  minute : f.minute ≤ 59
  second : f.second ≤ 60
  offset : -1439 ≤ offsetMinutes f ∧ offsetMinutes f ≤ 1439

theorem inCalendar (hvalid : calendarValid f = true) : InCalendar f := by
  simp only [calendarValid, Bool.and_eq_true, decide_eq_true_eq] at hvalid
  obtain ⟨⟨⟨⟨⟨⟨⟨⟨hmonth, hmonth'⟩, hday⟩, hday'⟩, hhour⟩, hminute⟩, hsecond⟩, hoh⟩, hom⟩ := hvalid
  refine ⟨⟨hmonth, hmonth'⟩, ⟨hday, hday'⟩, hhour, hminute, hsecond, ?_⟩
  unfold offsetMinutes
  cases ho : f.offset with
  | none => simp
  | some o =>
    simp only [ho, Option.map_some, Option.getD_some] at hoh hom
    dsimp only
    split <;> omega

theorem endsMonth_iff (hvalid : calendarValid f = true) :
    endsMonth f = true ↔ MonthEndMinute f := by
  have hf := inCalendar hvalid
  obtain ⟨hmonth, hmonth'⟩ := hf.month
  obtain ⟨hday, hday'⟩ := hf.day
  obtain ⟨hoffset, hoffset'⟩ := hf.offset
  have hhour := hf.hour
  have hminute := hf.minute
  have hmonths : f.month - 1 < 12 := by omega
  have hclock : utcHours (utcTime f) = 23 ∧ utcMinutes (utcTime f) = 59 ↔
      (f.hour * 60 + f.minute : ℤ) = offsetMinutes f + 1439 ∨
        (f.hour * 60 + f.minute + 1 : ℤ) = offsetMinutes f := by
    simp only [utcHours, utcMinutes, utcTime]
    omega
  rw [endsMonth, Bool.and_eq_true, Bool.and_eq_true, beq_iff_eq, beq_iff_eq, beq_iff_eq, hclock,
    MonthEndMinute, or_and_right]
  refine or_congr (and_congr_right fun hminutes => ?_) (and_congr_right fun hminutes => ?_)
  · have hnext : utcTime f + 1000 = makeDay f.year (f.month - 1) (f.day + 1) * 86400000 := by
      simp only [utcTime, makeDay]
      omega
    rw [hnext]
    by_cases hlast : f.day = lastDay f
    · rw [hlast, lastDay, utcDate_next_month hmonths]
      exact ⟨fun _ => rfl, fun _ => rfl⟩
    · rw [utcDate_makeDay hmonths (show f.day < lastDay f by omega)]
      exact ⟨fun h => absurd h (by omega), fun h => absurd h hlast⟩
  · have hsame : utcTime f + 1000 = makeDay f.year (f.month - 1) (f.day - 1 + 1) * 86400000 := by
      simp only [utcTime, makeDay]
      omega
    rw [hsame, utcDate_makeDay hmonths (show f.day - 1 < lastDay f by omega)]
    omega

end Minutes

end Aseos.DateTime
