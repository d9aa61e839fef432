import ShapeMerge.NameMap.Basic

namespace ShapeMerge.Binary

/-!
Bytes of scalars and sequences.  Numbers are written with their lowest byte
first; texts and sequences follow their length.  A decoder takes what it needs
from the front and leaves the rest.
-/

abbrev Decoder (α : Type) := List UInt8 → Option (α × List UInt8)

def ofNat : (width : Nat) → Nat → List UInt8
  | 0, _ => []
  | width + 1, number => UInt8.ofNat number :: ofNat width (number / 256)

def nat? : (width : Nat) → Decoder Nat
  | 0, bytes => some (0, bytes)
  | _ + 1, [] => none
  | width + 1, byte :: bytes => do
      let (high, rest) ← nat? width bytes
      return (high * 256 + byte.toNat, rest)

/-- The width of references and of the numbers of constructors. -/
def short : Nat := 4

/-- The width of counts and lengths. -/
def long : Nat := 8

def ofBool (value : Bool) : List UInt8 := [if value then 1 else 0]

def bool? : Decoder Bool
  | 0 :: rest => some (false, rest)
  | 1 :: rest => some (true, rest)
  | _ => none

def ofText (text : String) : List UInt8 :=
  let bytes := text.toUTF8.toList
  ofNat long bytes.length ++ bytes

def text? : Decoder String := fun bytes => do
  let (length, rest) ← nat? long bytes
  if rest.length < length then none
  else
    let text ← String.fromUTF8? ⟨(rest.take length).toArray⟩
    return (text, rest.drop length)

def ofOption (encode : α → List UInt8) : Option α → List UInt8
  | none => ofBool false
  | some value => ofBool true ++ encode value

def option? (decode : Decoder α) : Decoder (Option α) := fun bytes => do
  let (present, rest) ← bool? bytes
  if present then
    let (value, rest) ← decode rest
    return (some value, rest)
  else return (none, rest)

def repeated? (decode : Decoder α) : (count : Nat) → Decoder (List α)
  | 0, bytes => some ([], bytes)
  | count + 1, bytes => do
      let (value, rest) ← decode bytes
      let (values, rest) ← repeated? decode count rest
      return (value :: values, rest)

def ofList (encode : α → List UInt8) (values : List α) : List UInt8 :=
  ofNat long values.length ++ values.flatMap encode

def list? (decode : Decoder α) : Decoder (List α) := fun bytes => do
  let (count, rest) ← nat? long bytes
  repeated? decode count rest

def pair? (first : Decoder α) (second : Decoder β) :
    Decoder (α × β) := fun bytes => do
  let (left, rest) ← first bytes
  let (right, rest) ← second rest
  return ((left, right), rest)

def map? (convert : α → β) (decode : Decoder α) : Decoder β := fun bytes =>
  (decode bytes).map fun (value, rest) => (convert value, rest)

def ofNameMap (encode : α → List UInt8) (map : NameMap α) : List UInt8 :=
  ofList (fun entry => ofText entry.1 ++ encode entry.2) map.entries

/-- Entries may come in any order; of repeated names the last wins. -/
def nameMap? (decode : Decoder α) : Decoder (NameMap α) :=
  map? NameMap.ofList (list? (pair? text? decode))

def constant? (all : List α) : Decoder α := fun bytes => do
  let (number, rest) ← nat? short bytes
  let value ← all[number]?
  return (value, rest)

end ShapeMerge.Binary
