import ShapeMerge.Number.Shortest

namespace ShapeMerge.Json

/-!
Numerals as they are written: a sign, whole digits, and perhaps a fraction and
an exponent.  A numeral without fraction and exponent stands for an integer of
any size; every numeral has a nearest floating point number.
-/

structure Numeral where
  negative : Bool
  whole : List Char
  /-- The digits behind the point; none if there is no point. -/
  fraction : List Char
  /-- The sign and the digits behind the `e`; none if there is no exponent. -/
  exponent : List Char
  deriving DecidableEq

namespace Numeral

def digits (chars : List Char) : List Char := chars.takeWhile Char.isDigit

def behindDigits (chars : List Char) : List Char := chars.dropWhile Char.isDigit

theorem length_behindDigits_le (chars : List Char) :
    (behindDigits chars).length ≤ chars.length :=
  (List.dropWhile_suffix _).length_le

def scanWhole : List Char → Option (List Char × List Char)
  | '0' :: rest => some (['0'], rest)
  | chars =>
      if digits chars = [] then none
      else some (digits chars, behindDigits chars)

def scanFraction : List Char → Option (List Char × List Char)
  | '.' :: rest =>
      if digits rest = [] then none else some (digits rest, behindDigits rest)
  | chars => some ([], chars)

def scanSign : List Char → List Char × List Char
  | '+' :: rest => (['+'], rest)
  | '-' :: rest => (['-'], rest)
  | chars => ([], chars)

def scanExponent : List Char → Option (List Char × List Char)
  | [] => some ([], [])
  | mark :: rest =>
      if mark = 'e' ∨ mark = 'E' then
        let (sign, rest) := scanSign rest
        if digits rest = [] then none
        else some (sign ++ digits rest, behindDigits rest)
      else some ([], mark :: rest)

/-- The numeral at the start of a text, a minus sign before it having been
read. -/
def scan (negative : Bool) (chars : List Char) :
    Option (Numeral × List Char) := do
  let (whole, rest) ← scanWhole chars
  let (fraction, rest) ← scanFraction rest
  let (exponent, rest) ← scanExponent rest
  return (⟨negative, whole, fraction, exponent⟩, rest)

def text (numeral : Numeral) : List Char :=
  (if numeral.negative then ['-'] else []) ++ numeral.whole ++
    (if numeral.fraction = [] then [] else '.' :: numeral.fraction) ++
    (if numeral.exponent = [] then [] else 'e' :: numeral.exponent)

def ofNat (number : Nat) : Numeral :=
  ⟨false, Nat.toDigits 10 number, [], []⟩

def toNat? (numeral : Numeral) : Option Nat :=
  if !numeral.negative && numeral.fraction = [] && numeral.exponent = [] then
    some (Nat.ofDigitChars 10 numeral.whole 0)
  else none

def exponentValue : List Char → Int
  | '-' :: rest => -(Nat.ofDigitChars 10 rest 0 : Int)
  | '+' :: rest => Nat.ofDigitChars 10 rest 0
  | chars => Nat.ofDigitChars 10 chars 0

def toBinary64 (numeral : Numeral) : Binary64 :=
  .ofDecimal numeral.negative
    (Nat.ofDigitChars 10 (numeral.whole ++ numeral.fraction) 0)
    (exponentValue numeral.exponent - numeral.fraction.length)

/-- Positional notation for numbers from `0.00001` to below `10 ^ 16`, with a
fraction behind whole numbers; what has no digits is `null`. -/
def layout : NumberLayout where
  tie := .toEven
  positional leading := -5 ≤ leading && leading ≤ 15
  wholeFraction := true
  undefined := "null"
  infinity := "null"
  negativeInfinity := "null"

theorem length_scanWhole_lt {chars whole rest : List Char}
    (h : scanWhole chars = some (whole, rest)) :
    rest.length < chars.length := by
  unfold scanWhole at h
  split at h
  · cases h
    simp
  · split at h
    · cases h
    · rename_i hdigits
      cases h
      have hsplit := congrArg List.length
        (List.takeWhile_append_dropWhile (p := Char.isDigit) (l := chars))
      rw [List.length_append] at hsplit
      have hpositive : 0 < (chars.takeWhile Char.isDigit).length :=
        List.length_pos_iff.mpr hdigits
      simp only [behindDigits]
      omega

theorem length_scanFraction_le {chars fraction rest : List Char}
    (h : scanFraction chars = some (fraction, rest)) :
    rest.length ≤ chars.length := by
  unfold scanFraction at h
  split at h
  · split at h
    · cases h
    · cases h
      exact Nat.le_succ_of_le (length_behindDigits_le _)
  · cases h
    exact Nat.le_refl _

theorem length_scanSign_le (chars : List Char) :
    (scanSign chars).2.length ≤ chars.length := by
  unfold scanSign
  split <;> simp

theorem length_scanExponent_le {chars exponent rest : List Char}
    (h : scanExponent chars = some (exponent, rest)) :
    rest.length ≤ chars.length := by
  unfold scanExponent at h
  split at h
  · cases h
    exact Nat.le_refl _
  · rename_i mark tail
    split at h
    · simp only at h
      split at h
      · cases h
      · cases h
        exact Nat.le_succ_of_le
          (Nat.le_trans (length_behindDigits_le _) (length_scanSign_le tail))
    · cases h
      exact Nat.le_refl _

theorem length_scan_lt {negative : Bool} {chars rest : List Char}
    {numeral : Numeral} (h : scan negative chars = some (numeral, rest)) :
    rest.length < chars.length := by
  simp only [scan, Option.bind_eq_bind, Option.bind_eq_some_iff, Prod.exists]
    at h
  obtain ⟨whole, behindWhole, hwhole, fraction, behindFraction, hfraction,
    exponent, behind, hexponent, heq⟩ := h
  cases heq
  exact Nat.lt_of_le_of_lt (length_scanExponent_le hexponent)
    (Nat.lt_of_le_of_lt (length_scanFraction_le hfraction)
      (length_scanWhole_lt hwhole))

end Numeral

end ShapeMerge.Json
