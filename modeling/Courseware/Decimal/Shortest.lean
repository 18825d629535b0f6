import Courseware.Text.Basic

/-!
# The shortest decimal of a float

A finite double-precision float is `m · 2^q` for whole numbers `m` and `q`. The decimals that a reader
rounds to it fill an interval around it, whose ends belong to it when `m` is even. Of the decimals in
the interval the one with the fewest digits is written, and of those the one nearest to the float. It
is positional unless its point would stand too far away from its digits.
-/

namespace Courseware

/-- A magnitude `significand · 2^exponent`, where the next smaller float is half as far away as the
next larger one when `isNarrowBelow` holds. -/
structure Magnitude where
  significand : Nat
  exponent : Int
  isNarrowBelow : Bool
deriving DecidableEq, Repr

/-- A decimal `digits · 10^exponent`. -/
structure Decimal where
  digits : Nat
  exponent : Int
deriving DecidableEq, Repr

namespace Magnitude

/-- The magnitude of the bits of a finite float, sign aside. -/
def ofBits (bits : Nat) : Magnitude :=
  let fraction : Nat := bits % Nat.pow 2 52
  let order : Nat := bits / Nat.pow 2 52 % Nat.pow 2 11
  if order = 0 then ⟨fraction, -1074, false⟩
  else ⟨Nat.pow 2 52 + fraction, (order : Int) - 1075, fraction = 0 && 1 < order⟩

/-- The magnitude and the two ends of its rounding interval, as numerators over one denominator. -/
def scaled (magnitude : Magnitude) : (Nat × Nat × Nat) × Nat :=
  let value := 4 * magnitude.significand
  let low := value - (if magnitude.isNarrowBelow then 1 else 2)
  let high := value + 2
  match magnitude.exponent with
  | .ofNat power => ((low * Nat.pow 2 power, value * Nat.pow 2 power, high * Nat.pow 2 power), 4)
  | .negSucc power => ((low, value, high), 4 * Nat.pow 2 (power + 1))

/-- The decimal on the grid of multiples of `10^exponent` that lies in the rounding interval and is
nearest to the magnitude. Of two that are equally near the even one is taken. -/
def onGrid? (magnitude : Magnitude) (exponent : Int) : Option Decimal :=
  let ((low, value, high), denominator) := magnitude.scaled
  let (up, step) := match exponent with
    | .ofNat power => (1, denominator * Nat.pow 10 power)
    | .negSucc power => (Nat.pow 10 (power + 1), denominator)
  let below := value * up / step
  let inside (digits : Nat) : Bool :=
    if magnitude.significand % 2 = 0 then
      low * up ≤ digits * step && digits * step ≤ high * up
    else
      low * up < digits * step && digits * step < high * up
  let isBelowNearer :=
    let toBelow := value * up - below * step
    let toNext := (below + 1) * step - value * up
    toBelow < toNext || (toBelow = toNext && below % 2 = 0)
  match inside below && 0 < below, inside (below + 1) with
  | true, true => some ⟨if isBelowNearer then below else below + 1, exponent⟩
  | true, false => some ⟨below, exponent⟩
  | false, true => some ⟨below + 1, exponent⟩
  | false, false => none

/-- The first decimal on the grids from `10^exponent` down to `10^(exponent - steps)`. -/
def firstOnGrids (magnitude : Magnitude) (exponent : Int) : Nat → Decimal
  | 0 => ⟨0, 0⟩
  | steps + 1 =>
    match magnitude.onGrid? exponent with
    | some decimal => decimal
    | none => magnitude.firstOnGrids (exponent - 1) steps

/-- The shortest decimal of a magnitude that is not zero. Grids are tried from the coarsest that any
float needs to the finest. -/
def shortest (magnitude : Magnitude) : Decimal := magnitude.firstOnGrids 309 650

end Magnitude

namespace Decimal

/-- How a decimal is written: positional when its point stands after at most `positionalBelow` digits
and before at most `leadingZeros` zeros, and else with an exponent. -/
structure Format where
  positionalBelow : Int
  leadingZeros : Int
deriving DecidableEq, Repr

/-- Numbers are positional from 10⁻⁵ up to 10¹⁶. -/
def numberFormat : Format := ⟨16, 4⟩

/-- The text of a decimal whose digits do not end with zero. A whole number shows one decimal place
when it is positional, and an exponent always shows its sign. -/
def render (format : Format) (decimal : Decimal) : Text :=
  let digits := Text.ofNat decimal.digits
  let point := (digits.length : Int) + decimal.exponent
  if 0 ≤ decimal.exponent && point ≤ format.positionalBelow then
    digits ++ List.replicate decimal.exponent.toNat '0' ++ ['.', '0']
  else if 0 < point && point ≤ format.positionalBelow then
    digits.take point.toNat ++ '.' :: digits.drop point.toNat
  else if -format.leadingZeros ≤ point && point ≤ 0 then
    ['0', '.'] ++ List.replicate (-point).toNat '0' ++ digits
  else
    let power := point - 1
    let sign := if power < 0 then '-' else '+'
    let fraction := match digits.drop 1 with
      | [] => []
      | more => '.' :: more
    digits.take 1 ++ fraction ++ 'e' :: sign :: Text.ofNat power.natAbs

/-- The text of the bits of a float, `none` when it is infinite or not a number. -/
def ofFloatBits? (bits : Nat) : Option Text :=
  let sign := if bits / Nat.pow 2 63 % 2 = 1 then ['-'] else []
  if bits / Nat.pow 2 52 % Nat.pow 2 11 = 2047 then
    none
  else if bits % Nat.pow 2 63 = 0 then
    some (sign ++ ['0', '.', '0'])
  else
    some (sign ++ (Magnitude.ofBits (bits % Nat.pow 2 63)).shortest.render numberFormat)

end Decimal
end Courseware
