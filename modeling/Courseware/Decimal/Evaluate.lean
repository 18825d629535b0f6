import Courseware.Text.Basic

/-!
# The value of a decimal

A decimal is read by keeping as many of its digits as fit 64 bits, turning these into a float, and
multiplying or dividing by a power of ten that is a float itself. The product may lie one unit in the
last place away from the nearest float.
-/

namespace Courseware

/-- The digits of a decimal in reading order, as a whole number times a power of ten. -/
structure DigitRun where
  significand : Nat
  exponent : Int
deriving DecidableEq, Repr

namespace DigitRun

/-- The value of a decimal digit. -/
def digitValue (digit : Char) : Nat := digit.toNat - '0'.toNat

/-- Take up a digit before the point. Once 64 bits are full, digits only count. -/
def addWhole (run : DigitRun) (digit : Char) : DigitRun :=
  let longer := 10 * run.significand + digitValue digit
  if run.exponent = 0 && longer < Nat.pow 2 64 then ⟨longer, 0⟩
  else ⟨run.significand, run.exponent + 1⟩

/-- Take up the digits after the point, up to the first that does not fit 64 bits. -/
def addFraction (run : DigitRun) : List Char → DigitRun
  | [] => run
  | digit :: rest =>
    let longer := 10 * run.significand + digitValue digit
    if longer < Nat.pow 2 64 then addFraction ⟨longer, run.exponent - 1⟩ rest else run

/-- A power of ten as a float. -/
def powerOfTen (power : Nat) : Float := Float.ofScientific 1 false power

/-- Divide by a power of ten, in steps that are floats. -/
def divide (value : Float) (power : Nat) : Nat → Float
  | 0 => value
  | steps + 1 =>
    if power ≤ 308 then value / powerOfTen power
    else divide (value / powerOfTen 308) (power - 308) steps

/-- The float that a run of digits stands for, `none` when it is too large. After three steps every
run has become zero. -/
def toFloat? (run : DigitRun) : Option Float :=
  let value := Float.ofNat run.significand
  match run.exponent with
  | .ofNat power =>
    if run.significand = 0 then some value
    else if 308 < power then none
    else
      let product := value * powerOfTen power
      if product.isInf then none else some product
  | .negSucc power => some (divide value (power + 1) 4)

end DigitRun
end Courseware
