namespace ShapeMerge

/-!
Binary floating point numbers of 64 bits: one sign bit, eleven bits of exponent
and 52 bits of fraction.  A finite number is `± significand · 2 ^ exponent`;
every operation takes the exact rational result and rounds it to the nearest
number, a tie to the even significand.  Thresholds are compared as rational
numbers with two infinities and an undefined value.
-/

/-- The range of counts and lengths in the written forms. -/
def countLimit : Nat := Nat.pow 2 64

inductive Extended where
  | undefined
  | negativeInfinity
  | infinity
  | finite (value : Rat)
  deriving DecidableEq

namespace Extended

def exceeds (number : Extended) (count : Nat) : Bool :=
  match number with
  | undefined => false
  | negativeInfinity => false
  | infinity => true
  | finite value => (count : Rat) < value

/-- The least count that is not below the number, within the range of counts. -/
def ceiling : Extended → Nat
  | undefined => 0
  | negativeInfinity => 0
  | infinity => countLimit - 1
  | finite value => min value.ceil.toNat (countLimit - 1)

def isShare : Extended → Bool
  | finite value => 0 < value && value ≤ 1
  | _ => false

end Extended

/-- A share of a count: the least part of the larger of two records' fields that
the smaller one must have.  `scale` is the share of a count, as exactly as the
representation can tell. -/
class Share (σ : Type) where
  value : σ → Extended
  scale : σ → Nat → Extended
  label : σ → String

instance : Share Rat where
  value := .finite
  scale share count := .finite (count * share)
  label share := toString share.num ++ "/" ++ toString share.den

structure Binary64 where
  bits : UInt64
  deriving DecidableEq

inductive Binary64.Value where
  | undefined
  | infinity (negative : Bool)
  | finite (negative : Bool) (significand : Nat) (exponent : Int)
  deriving DecidableEq

namespace Binary64

def undefined : Binary64 := ⟨0x7FF8000000000000⟩

def withSign (negative : Bool) (magnitude : Nat) : Binary64 :=
  ⟨UInt64.ofNat (if negative then Nat.pow 2 63 + magnitude else magnitude)⟩

def infinity (negative : Bool) : Binary64 :=
  withSign negative (2047 * Nat.pow 2 52)

def zero (negative : Bool) : Binary64 :=
  withSign negative 0

def value (number : Binary64) : Value :=
  let bits := number.bits.toNat
  let negative : Bool := Nat.pow 2 63 ≤ bits
  let scale : Nat := bits / Nat.pow 2 52 % 2048
  let fraction : Nat := bits % Nat.pow 2 52
  if scale = 2047 then
    if fraction = 0 then .infinity negative else .undefined
  else if scale = 0 then .finite negative fraction (-1074)
  else .finite negative (Nat.pow 2 52 + fraction) ((scale : Int) - 1075)

/-- `numerator / denominator` rounded to the nearest natural number, a tie to
the even one. -/
def divideToEven (numerator denominator : Nat) : Nat :=
  let quotient := numerator / denominator
  let excess := 2 * (numerator % denominator)
  if excess < denominator then quotient
  else if denominator < excess then quotient + 1
  else quotient + quotient % 2

/-- The exponent for which `numerator / denominator` has a significand of 53
bits, or the least exponent. -/
def exponentOf (numerator denominator : Nat) : Int :=
  let estimate : Int := (numerator.log2 : Int) - (denominator.log2 : Int)
  let fits : Bool :=
    if 0 ≤ estimate then denominator * Nat.pow 2 estimate.toNat ≤ numerator
    else denominator ≤ numerator * Nat.pow 2 (-estimate).toNat
  let exponent := (if fits then estimate else estimate - 1) - 52
  if exponent < -1074 then -1074 else exponent

def ofRatio (negative : Bool) (numerator denominator : Nat) : Binary64 :=
  if numerator = 0 then zero negative
  else
    let exponent := exponentOf numerator denominator
    let significand :=
      if 0 ≤ exponent then
        divideToEven numerator (denominator * Nat.pow 2 exponent.toNat)
      else divideToEven (numerator * Nat.pow 2 (-exponent).toNat) denominator
    let magnitude := (exponent + 1074).toNat * Nat.pow 2 52 + significand
    withSign negative (min magnitude (2047 * Nat.pow 2 52))

def ofScaled (negative : Bool) (significand : Nat)
    (exponent : Int) : Binary64 :=
  if 0 ≤ exponent then
    ofRatio negative (significand * Nat.pow 2 exponent.toNat) 1
  else ofRatio negative significand (Nat.pow 2 (-exponent).toNat)

def ofNat (number : Nat) : Binary64 :=
  ofRatio false number 1

/-- The number nearest to `± digits · 10 ^ exponent`.  Exponents far outside the
range of the format are decided by the number of digits alone. -/
def ofDecimal (negative : Bool) (digits : Nat) (exponent : Int) : Binary64 :=
  let places : Int := (Nat.toDigits 10 digits).length
  if digits = 0 || places + exponent < -330 then zero negative
  else if 310 < places + exponent then infinity negative
  else if 0 ≤ exponent then
    ofRatio negative (digits * Nat.pow 10 exponent.toNat) 1
  else ofRatio negative digits (Nat.pow 10 (-exponent).toNat)

def isFinite (number : Binary64) : Bool :=
  match number.value with
  | .finite .. => true
  | _ => false

def mul (left right : Binary64) : Binary64 :=
  match left.value, right.value with
  | .finite leftNegative leftSignificand leftExponent,
    .finite rightNegative rightSignificand rightExponent =>
      ofScaled (leftNegative != rightNegative)
        (leftSignificand * rightSignificand) (leftExponent + rightExponent)
  | .infinity leftNegative, .infinity rightNegative =>
      infinity (leftNegative != rightNegative)
  | .infinity leftNegative, .finite rightNegative significand _ =>
      if significand = 0 then undefined
      else infinity (leftNegative != rightNegative)
  | .finite leftNegative significand _, .infinity rightNegative =>
      if significand = 0 then undefined
      else infinity (leftNegative != rightNegative)
  | _, _ => undefined

def toExtended (number : Binary64) : Extended :=
  match number.value with
  | .undefined => .undefined
  | .infinity true => .negativeInfinity
  | .infinity false => .infinity
  | .finite negative significand exponent =>
      let magnitude : Rat :=
        if 0 ≤ exponent then
          ((significand * Nat.pow 2 exponent.toNat : Nat) : Rat)
        else mkRat significand (Nat.pow 2 (-exponent).toNat)
      .finite (if negative then -magnitude else magnitude)

end Binary64

end ShapeMerge
