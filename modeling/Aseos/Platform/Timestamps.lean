import Aseos.Contracts.JsonSchema
import Aseos.Js.LeapSecond
import Aseos.Platform.EventStream
import Aseos.Policy.Evaluate

namespace Aseos

namespace Filesystem

def isRfc3339DateTime (value : JsString) : Bool :=
  match DateTime.rfc3339DateTime value with
  | none => false
  | some f =>
      1 ≤ f.month && f.month ≤ 12 && 1 ≤ f.day &&
        f.day ≤ (DateTime.monthDays (DateTime.leapYear f.year)).getD (f.month - 1) 0 &&
        f.hour ≤ 23 && f.minute ≤ 59 && f.second ≤ 60 &&
        f.offset.all (fun o => o.hour ≤ 23) && f.offset.all (fun o => o.minute ≤ 59)

end Filesystem

namespace DateTime

variable {s : JsString}

def MisplacedLeapSecond (s : JsString) : Prop :=
  ∃ f, rfc3339DateTime s = some f ∧ calendarValid f = true ∧ f.second = 60 ∧ ¬ MonthEndMinute f

theorem filesystem_eq (s : JsString) :
    Filesystem.isRfc3339DateTime s = (rfc3339DateTime s).any calendarValid := by
  rw [Filesystem.isRfc3339DateTime]
  cases rfc3339DateTime s with
  | none => rfl
  | some f =>
    simp only [Option.any_some, calendarValid]
    cases f.offset <;> rfl

theorem client_eq (s : JsString) :
    EventStream.isRfc3339DateTime s = (rfc3339DateTime s).any calendarValid := by
  rw [EventStream.isRfc3339DateTime]
  cases rfc3339DateTime s <;> rfl

theorem validDateTime_eq_iff :
    validDateTime s = (rfc3339DateTime s).any calendarValid ↔ ¬ MisplacedLeapSecond s := by
  rw [validDateTime, MisplacedLeapSecond]
  cases hf : rfc3339DateTime s with
  | none => simp
  | some f =>
    simp only [Option.any_some, Option.some.injEq, exists_eq_left']
    cases hvalid : calendarValid f with
    | false => simp
    | true =>
      have hsecond := (inCalendar hvalid).second
      rw [← endsMonth_iff hvalid, Bool.true_and, Bool.or_eq_true, decide_eq_true_eq]
      constructor
      · rintro hagrees ⟨-, hleap, hends⟩
        exact hends (hagrees.resolve_left (by omega))
      · intro h
        by_cases hleap : f.second = 60
        · exact .inr (not_not.mp fun hends => h ⟨rfl, hleap, hends⟩)
        · exact .inl (by omega)

theorem copies_agree (s : JsString) :
    Policy.isRfc3339DateTime s = EventStream.isRfc3339DateTime s ∧
      EventStream.isRfc3339DateTime s = Filesystem.isRfc3339DateTime s :=
  ⟨(client_eq s).symm, (client_eq s).trans (filesystem_eq s).symm⟩

theorem date_time_validators_agree (s : JsString) :
    (validDateTime s = Policy.isRfc3339DateTime s ∧
      Policy.isRfc3339DateTime s = EventStream.isRfc3339DateTime s ∧
      EventStream.isRfc3339DateTime s = Filesystem.isRfc3339DateTime s) ↔
    ¬ MisplacedLeapSecond s :=
  ⟨fun h => validDateTime_eq_iff.mp h.1, fun h => ⟨validDateTime_eq_iff.mpr h, copies_agree s⟩⟩

theorem leap_second_splits_validators :
    validDateTime (js "2024-01-15T12:00:60Z") = false ∧
      Policy.isRfc3339DateTime (js "2024-01-15T12:00:60Z") = true ∧
      EventStream.isRfc3339DateTime (js "2024-01-15T12:00:60Z") = true ∧
      Filesystem.isRfc3339DateTime (js "2024-01-15T12:00:60Z") = true := by
  decide

end DateTime

end Aseos
