import Mathlib.Data.Rat.Defs
import Mathlib.Algebra.Order.Ring.Rat
import Mathlib.Tactic.Common
import Mathlib.Tactic.NormNum

namespace Aseos

def Representable (q : ℚ) : Prop :=
  ∃ m e : ℤ, |m| < 2 ^ 53 ∧ -1074 ≤ e ∧ e ≤ 971 ∧ q = m * 2 ^ e

structure Double where
  value : ℚ
  negativeZero : Bool
  representable : Representable value
  zero_of_negativeZero : negativeZero = true → value = 0
  deriving DecidableEq

inductive JsNumber where
  | nan
  | infinity (negative : Bool)
  | finite (x : Double)
  deriving DecidableEq

theorem representable_intCast {n : ℤ} (h : |n| < 2 ^ 53) : Representable n :=
  ⟨n, 0, h, by norm_num, by norm_num, by simp⟩

theorem zero_exact : |(0 : ℤ)| < 2 ^ 53 := by decide

theorem one_exact : |(1 : ℤ)| < 2 ^ 53 := by decide

theorem two_pow_sixteen_exact : |(65536 : ℤ)| < 2 ^ 53 := by decide

def maxSafeInteger : ℤ := 9007199254740991

namespace Double

def ofInt (n : ℤ) (h : |n| < 2 ^ 53) : Double := ⟨n, false, representable_intCast h, by simp⟩

def isSafeInteger (x : Double) : Bool :=
  x.value.den == 1 && decide (|x.value.num| ≤ maxSafeInteger)

def unsigned (x : Double) : Double := ⟨x.value, false, x.representable, by simp⟩

-- `===` and the relational operators do not tell the two zeros apart.
def lt (x y : Double) : Bool := decide (x.value < y.value)

def le (x y : Double) : Bool := decide (x.value ≤ y.value)

end Double

namespace JsNumber

def ofInt (n : ℤ) (h : |n| < 2 ^ 53) : JsNumber := finite (Double.ofInt n h)

def isFinite : JsNumber → Bool
  | finite _ => true
  | _ => false

def isSafeInteger : JsNumber → Bool
  | finite x => x.isSafeInteger
  | _ => false

def lt : JsNumber → JsNumber → Bool
  | finite x, finite y => x.lt y
  | infinity true, finite _ | infinity true, infinity false | finite _, infinity false => true
  | _, _ => false

def le : JsNumber → JsNumber → Bool
  | finite x, finite y => x.le y
  | infinity a, infinity b => a || !b
  | infinity a, finite _ => a
  | finite _, infinity b => !b
  | _, _ => false

def isPositiveSafeInteger : JsNumber → Bool
  | finite x => x.isSafeInteger && decide (1 ≤ x.value)
  | _ => false

end JsNumber

end Aseos
