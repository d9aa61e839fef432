import ShapeMerge.Json.Value

namespace ShapeMerge.Json

/-!
The tokens of JSON text.  Blanks between tokens are dropped; a text with
anything else that is no token has no tokens at all.
-/

inductive Token where
  | openObject
  | closeObject
  | openArray
  | closeArray
  | comma
  | colon
  | null
  | bool (value : Bool)
  | number (numeral : Numeral)
  | string (text : Option String)
  deriving DecidableEq

namespace Token

/-- What stands for a part of a string: a character, or a code unit of sixteen
bits. -/
inductive Piece where
  | char (c : Char)
  | unit (value : Nat)
  deriving DecidableEq

def isHighHalf (unit : Nat) : Bool := 0xD800 ≤ unit && unit < 0xDC00

def isLowHalf (unit : Nat) : Bool := 0xDC00 ≤ unit && unit < 0xE000

def joinHalves (high low : Nat) : Char :=
  Char.ofNat (0x10000 + (high - 0xD800) * 0x400 + (low - 0xDC00))

/-- The text of the pieces, behind the characters `done`, the last one first.
Half of a pair alone stands for nothing. -/
def joinPieces : (done : List Char) → List Piece → Option String
  | done, [] => some (String.ofList done.reverse)
  | done, .char c :: rest => joinPieces (c :: done) rest
  | done, .unit high :: .unit low :: rest =>
      if isHighHalf high && isLowHalf low then
        joinPieces (joinHalves high low :: done) rest
      else if isHighHalf high || isLowHalf high then none
      else joinPieces (Char.ofNat high :: done) (.unit low :: rest)
  | done, .unit single :: rest =>
      if isHighHalf single || isLowHalf single then none
      else joinPieces (Char.ofNat single :: done) rest

def hexValue? (c : Char) : Option Nat :=
  if c.isDigit then some (c.toNat - '0'.toNat)
  else if 'a' ≤ c ∧ c ≤ 'f' then some (c.toNat - 'a'.toNat + 10)
  else if 'A' ≤ c ∧ c ≤ 'F' then some (c.toNat - 'A'.toNat + 10)
  else none

def hexUnit? (a b c d : Char) : Option Nat := do
  let a ← hexValue? a
  let b ← hexValue? b
  let c ← hexValue? c
  let d ← hexValue? d
  return ((a * 16 + b) * 16 + c) * 16 + d

def escaped? : Char → Option Char
  | '"' => some '"'
  | '\\' => some '\\'
  | '/' => some '/'
  | 'b' => some '\x08'
  | 'f' => some '\x0c'
  | 'n' => some '\n'
  | 'r' => some '\r'
  | 't' => some '\t'
  | _ => none

/-- The pieces of a string up to its closing quote, behind the pieces `done`,
the last one first. -/
def scanString :
    (done : List Piece) → List Char → Option (List Piece × List Char)
  | done, '"' :: rest => some (done.reverse, rest)
  | done, '\\' :: 'u' :: a :: b :: c :: d :: rest =>
      match hexUnit? a b c d with
      | some unit => scanString (.unit unit :: done) rest
      | none => none
  | done, '\\' :: mark :: rest =>
      match escaped? mark with
      | some c => scanString (.char c :: done) rest
      | none => none
  | done, c :: rest =>
      if c.toNat < 0x20 ∨ c = '\\' then none
      else scanString (.char c :: done) rest
  | _, [] => none

def behind? : List Char → List Char → Option (List Char)
  | [], chars => some chars
  | _ :: _, [] => none
  | wanted :: more, c :: rest => if c = wanted then behind? more rest else none

def isBlank (c : Char) : Bool :=
  c = ' ' || c = '\n' || c = '\t' || c = '\r'

def scanOne (first : Char) (rest : List Char) : Option (Token × List Char) :=
  match first with
  | '\x7b' => some (openObject, rest)
  | '\x7d' => some (closeObject, rest)
  | '[' => some (openArray, rest)
  | ']' => some (closeArray, rest)
  | ',' => some (comma, rest)
  | ':' => some (colon, rest)
  | 'n' => (behind? "ull".toList rest).map (null, ·)
  | 't' => (behind? "rue".toList rest).map (bool true, ·)
  | 'f' => (behind? "alse".toList rest).map (bool false, ·)
  | '"' =>
      (scanString [] rest).map fun (pieces, rest) =>
        (string (joinPieces [] pieces), rest)
  | '-' =>
      (Numeral.scan true rest).map fun (numeral, rest) => (number numeral, rest)
  | _ =>
      if first.isDigit then
        (Numeral.scan false (first :: rest)).map fun (numeral, rest) =>
          (number numeral, rest)
      else none

theorem length_scanString_le {done pieces : List Piece} {chars rest : List Char}
    (h : scanString done chars = some (pieces, rest)) :
    rest.length ≤ chars.length := by
  fun_induction scanString done chars with
  | case1 done tail =>
      cases h
      simp
  | case2 done a b c d tail unit hunit ih =>
      have := ih h
      simp only [List.length_cons]
      omega
  | case4 done mark tail _ c hc ih =>
      have := ih h
      simp only [List.length_cons]
      omega
  | case7 done c tail _ _ _ hc ih => exact Nat.le_succ_of_le (ih h)
  | case3 | case5 | case6 | case8 => cases h

theorem length_behind?_le {wanted chars rest : List Char}
    (h : behind? wanted chars = some rest) : rest.length ≤ chars.length := by
  fun_induction behind? wanted chars with
  | case1 => cases h; exact Nat.le_refl _
  | case3 more c tail ih => exact Nat.le_succ_of_le (ih h)
  | case2 | case4 => cases h

theorem length_scanOne_le {first : Char} {chars rest : List Char}
    {token : Token} (h : scanOne first chars = some (token, rest)) :
    rest.length ≤ chars.length := by
  unfold scanOne at h
  split at h
  case h_1 | h_2 | h_3 | h_4 | h_5 | h_6 =>
    cases h
    exact Nat.le_refl _
  case h_7 | h_8 | h_9 =>
    simp only [Option.map_eq_some_iff] at h
    obtain ⟨_, hbehind, heq⟩ := h
    cases heq
    exact length_behind?_le hbehind
  case h_10 =>
    simp only [Option.map_eq_some_iff] at h
    obtain ⟨_, hscan, heq⟩ := h
    cases heq
    exact length_scanString_le hscan
  case h_11 =>
    simp only [Option.map_eq_some_iff] at h
    obtain ⟨_, hscan, heq⟩ := h
    cases heq
    exact Nat.le_of_lt (Numeral.length_scan_lt hscan)
  case h_12 =>
    split at h
    · simp only [Option.map_eq_some_iff] at h
      obtain ⟨_, hscan, heq⟩ := h
      cases heq
      exact Nat.le_of_lt_succ (Numeral.length_scan_lt hscan)
    · cases h

def scanAll (done : List Token) : List Char → Option (List Token)
  | [] => some done.reverse
  | c :: rest =>
      if isBlank c then scanAll done rest
      else
        match _h : scanOne c rest with
        | some (token, behind) => scanAll (token :: done) behind
        | none => none
termination_by chars => chars.length
decreasing_by
  · simp
  · exact Nat.lt_succ_of_le (length_scanOne_le _h)

def scan (text : String) : Option (List Token) :=
  scanAll [] text.toList

end Token

end ShapeMerge.Json
