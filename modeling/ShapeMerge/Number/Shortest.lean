import ShapeMerge.Number.Binary64

namespace ShapeMerge

/-!
Decimal text of binary floating point numbers.  Of the decimals that read back
as a number, those with the fewest digits are taken, and of these the nearest to
the number.  A layout says where positional notation ends, whether whole numbers
keep a fraction, and how values without digits are written.
-/

/-- The number `digits · 10 ^ exponent`. -/
structure Decimal where
  digits : Nat
  exponent : Int
  deriving DecidableEq

namespace Decimal

def digitChars (decimal : Decimal) : List Char :=
  Nat.toDigits 10 decimal.digits

def leading (decimal : Decimal) : Int :=
  decimal.exponent + decimal.digitChars.length - 1

/-- A carry into a new digit leaves a zero behind. -/
def dropZero (decimal : Decimal) : Decimal :=
  if decimal.digits % 10 = 0 then ⟨decimal.digits / 10, decimal.exponent + 1⟩
  else decimal

end Decimal

inductive Tie where
  | up
  | toEven
  deriving DecidableEq

namespace Binary64

/-- The positive rationals `low / unit` to `high / unit` that round to
`middle / unit`; the ends belong to them where `closed` holds. -/
structure Rounding where
  low : Nat
  middle : Nat
  high : Nat
  unit : Nat
  closed : Bool

/-- Halfway to the neighbours.  Below a power of two the neighbour is only half
as far away. -/
def rounding (significand : Nat) (exponent : Int) : Rounding :=
  let below := if significand = Nat.pow 2 52 ∧ -1074 < exponent then 1 else 2
  let scaled : Nat := if 2 ≤ exponent then Nat.pow 2 (exponent - 2).toNat else 1
  { low := (4 * significand - below) * scaled
    middle := 4 * significand * scaled
    high := (4 * significand + 2) * scaled
    unit := if 2 ≤ exponent then 1 else Nat.pow 2 (2 - exponent).toNat
    closed := significand % 2 = 0 }

namespace Rounding

def holds (rounding : Rounding) (numerator denominator : Nat) : Bool :=
  let value := numerator * rounding.unit
  let low := rounding.low * denominator
  let high := rounding.high * denominator
  if rounding.closed then low ≤ value && value ≤ high
  else low < value && value < high

/-- The exponent of the first decimal digit of the middle, for numbers of at
least `10 ^ -400`. -/
def leading (rounding : Rounding) : Int :=
  ((Nat.toDigits 10 (rounding.middle * Nat.pow 10 400 / rounding.unit)).length :
    Int) - 401

/-- The multiple of `10 ^ exponent` that reads back, the nearer one where two
do. -/
def onGrid? (tie : Tie) (rounding : Rounding) (exponent : Int) :
    Option Decimal :=
  let numerator := Nat.pow 10 exponent.toNat
  let denominator := Nat.pow 10 (-exponent).toNat
  let step := numerator * rounding.unit
  let target := rounding.middle * denominator
  let below := target / step
  let excess := 2 * (target % step)
  let lower := rounding.holds (below * numerator) denominator
  let upper := rounding.holds ((below + 1) * numerator) denominator
  let nearerBelow :=
    excess < step || (excess = step && tie = .toEven && below % 2 = 0)
  if lower && (!upper || nearerBelow) then some ⟨below, exponent⟩
  else if upper then some (Decimal.dropZero ⟨below + 1, exponent⟩)
  else none

/-- Tries one digit, two digits and so on; seventeen always suffice. -/
def shortest (tie : Tie) (rounding : Rounding) : Decimal :=
  let leading := rounding.leading
  let grids :=
    (List.range 17).map (fun places : Nat => leading - (places : Int))
  (grids.findSome? (rounding.onGrid? tie)).getD ⟨0, 0⟩

end Rounding

def shortest (tie : Tie) (significand : Nat) (exponent : Int) : Decimal :=
  if significand = 0 then ⟨0, 0⟩
  else (rounding significand exponent).shortest tie

end Binary64

structure NumberLayout where
  tie : Tie
  /-- Whether a number whose first digit has this exponent is written without an
  exponent. -/
  positional : Int → Bool
  /-- Whether a whole number in positional notation ends in `.0`. -/
  wholeFraction : Bool
  undefined : String
  infinity : String
  negativeInfinity : String

namespace NumberLayout

private def zeros (count : Int) : List Char :=
  List.replicate count.toNat '0'

def positionalText (layout : NumberLayout) (digits : List Char)
    (leading : Int) : List Char :=
  if leading < 0 then '0' :: '.' :: zeros (-leading - 1) ++ digits
  else
    let whole := leading.toNat + 1
    if digits.length ≤ whole then
      digits ++ zeros (whole - digits.length) ++
        (if layout.wholeFraction then ['.', '0'] else [])
    else digits.take whole ++ '.' :: digits.drop whole

def exponentText (digits : List Char) (leading : Int) : List Char :=
  let mantissa :=
    match digits with
    | [] => []
    | [single] => [single]
    | first :: rest => first :: '.' :: rest
  let sign := if leading < 0 then '-' else '+'
  mantissa ++ 'e' :: sign :: Nat.toDigits 10 leading.natAbs

def decimalText (layout : NumberLayout) (decimal : Decimal) : List Char :=
  if layout.positional decimal.leading then
    layout.positionalText decimal.digitChars decimal.leading
  else exponentText decimal.digitChars decimal.leading

def render (layout : NumberLayout) (number : Binary64) : String :=
  match number.value with
  | .undefined => layout.undefined
  | .infinity negative =>
      if negative then layout.negativeInfinity else layout.infinity
  | .finite negative significand exponent =>
      let text :=
        layout.decimalText (Binary64.shortest layout.tie significand exponent)
      String.ofList (if negative then '-' :: text else text)

def plain : NumberLayout where
  tie := .up
  positional _ := true
  wholeFraction := false
  undefined := "NaN"
  infinity := "inf"
  negativeInfinity := "-inf"

end NumberLayout

instance : Share Binary64 where
  value := Binary64.toExtended
  scale share count := ((Binary64.ofNat count).mul share).toExtended
  label := NumberLayout.plain.render

end ShapeMerge
