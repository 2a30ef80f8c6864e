import Aseos.Js.Text

namespace Aseos

structure Offset where
  negative : Bool
  hour : ℕ
  minute : ℕ
  deriving DecidableEq, Repr

structure DateTimeFields where
  year : ℕ
  month : ℕ
  day : ℕ
  hour : ℕ
  minute : ℕ
  second : ℕ
  offset : Option Offset
  deriving DecidableEq, Repr

namespace DateTime

def skip (p : CodeUnit → Bool) : JsString → Option JsString
  | [] => none
  | c :: s => if p c then some s else none

def skipText (text : String) : JsString → Option JsString := skip (CodeUnit.isAny text)

def takeDigits : ℕ → ℕ → JsString → Option (ℕ × JsString)
  | 0, value, s => some (value, s)
  | n + 1, value, c :: s =>
      if c.isDigit then takeDigits n (10 * value + (c.val - '0'.toNat)) s else none
  | _ + 1, _, [] => none

def skipFraction : JsString → Option JsString
  | [] => some []
  | c :: s =>
      if CodeUnit.isAny "." c then
        (skip CodeUnit.isDigit s).map (List.dropWhile CodeUnit.isDigit)
      else some (c :: s)

def takeOffset : JsString → Option (Option Offset)
  | [] => none
  | c :: s =>
      if CodeUnit.isAny "zZ" c then if s = [] then some none else none
      else if CodeUnit.isAny "+-" c then do
        let (hour, s) ← takeDigits 2 0 s
        let s ← skipText ":" s
        let (minute, s) ← takeDigits 2 0 s
        if s = [] then some (some ⟨CodeUnit.isAny "-" c, hour, minute⟩) else none
      else none

-- /^(\d{4})-(\d{2})-(\d{2})[tT](\d{2}):(\d{2}):(\d{2})(?:\.\d+)?([zZ]|([+-])(\d{2}):(\d{2}))$/u
def rfc3339DateTime (s : JsString) : Option DateTimeFields := do
  let (year, s) ← takeDigits 4 0 s
  let s ← skipText "-" s
  let (month, s) ← takeDigits 2 0 s
  let s ← skipText "-" s
  let (day, s) ← takeDigits 2 0 s
  let s ← skipText "tT" s
  let (hour, s) ← takeDigits 2 0 s
  let s ← skipText ":" s
  let (minute, s) ← takeDigits 2 0 s
  let s ← skipText ":" s
  let (second, s) ← takeDigits 2 0 s
  let s ← skipFraction s
  let offset ← takeOffset s
  return ⟨year, month, day, hour, minute, second, offset⟩

def leapYear (year : ℤ) : Bool := year % 4 == 0 && (year % 100 != 0 || year % 400 == 0)

def monthDays (leap : Bool) : List ℕ :=
  [31, if leap then 29 else 28, 31, 30, 31, 30, 31, 31, 30, 31, 30, 31]

def calendarValid (f : DateTimeFields) : Bool :=
  1 ≤ f.month && f.month ≤ 12 && 1 ≤ f.day &&
    f.day ≤ (monthDays (leapYear f.year)).getD (f.month - 1) 0 && f.hour ≤ 23 && f.minute ≤ 59 &&
    f.second ≤ 60 && ((f.offset.map Offset.hour).getD 0 ≤ 23) &&
    ((f.offset.map Offset.minute).getD 0 ≤ 59)

def offsetMinutes (f : DateTimeFields) : ℤ :=
  match f.offset with
  | none => 0
  | some o => (o.hour * 60 + o.minute) * (if o.negative then -1 else 1)

-- ECMAScript DayFromYear, MakeDay and the UTC accessors of a time value in milliseconds.
def dayFromYear (year : ℤ) : ℤ :=
  365 * (year - 1970) + (year - 1969) / 4 - (year - 1901) / 100 + (year - 1601) / 400

def makeDay (year month day : ℕ) : ℤ :=
  dayFromYear year + ((monthDays (leapYear year)).take month).sum + day - 1

def yearFromDay (day : ℤ) : ℤ :=
  let guess := 400 * day / 146097 + 1970
  if dayFromYear (guess + 1) ≤ day then guess + 1
  else if day < dayFromYear guess then guess - 1
  else guess

def dateInYear : List ℕ → ℕ → ℕ
  | [], n => n + 1
  | days :: rest, n => if n < days then n + 1 else dateInYear rest (n - days)

def utcDate (time : ℤ) : ℕ :=
  let day := time / 86400000
  let year := yearFromDay day
  dateInYear (monthDays (leapYear year)) (day - dayFromYear year).toNat

def utcHours (time : ℤ) : ℤ := time / 3600000 % 24

def utcMinutes (time : ℤ) : ℤ := time / 60000 % 60

def utcTime (f : DateTimeFields) : ℤ :=
  makeDay f.year (f.month - 1) f.day * 86400000 + f.hour * 3600000 +
    (f.minute - offsetMinutes f) * 60000 + 59000

def endsMonth (f : DateTimeFields) : Bool :=
  utcHours (utcTime f) == 23 && utcMinutes (utcTime f) == 59 && utcDate (utcTime f + 1000) == 1

end DateTime

end Aseos
