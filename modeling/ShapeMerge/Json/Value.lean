import ShapeMerge.Json.Numeral
import ShapeMerge.NameMap.Basic

namespace ShapeMerge

/-!
JSON values as they are written: members of objects stay in their order, with
repetitions, and numbers keep their digits.  A string is `none` when an escape
in it names half of a surrogate pair: such a string is no text, but may stand in
a part of a document that nobody reads.

The views say what decoders ask of a value; each answers `none` where the value
has another form.
-/

inductive Json where
  | null
  | bool (value : Bool)
  | number (numeral : Json.Numeral)
  | string (text : Option String)
  | array (items : List Json)
  | object (members : List (Option String × Json))

namespace Json

instance : Inhabited Json := ⟨null⟩

def text (value : String) : Json := .string (some value)

def nat (value : Nat) : Json := .number (.ofNat value)

def float (value : Binary64) : Json :=
  let written := (Numeral.layout.render value).toList
  let scanned :=
    match written with
    | '-' :: rest => Numeral.scan true rest
    | chars => Numeral.scan false chars
  match scanned with
  | some (numeral, []) => .number numeral
  | _ => .null

def ofEntries (members : List (String × Json)) : Json :=
  .object (members.map fun (name, value) => (some name, value))

def bool? : Json → Option Bool
  | bool value => some value
  | _ => none

def text? : Json → Option String
  | string text => text
  | _ => none

/-- A natural number below the limit, written without sign, fraction and
exponent. -/
def natBelow? (limit : Nat) : Json → Option Nat
  | number numeral => do
      let value ← numeral.toNat?
      if value < limit then some value else none
  | _ => none

/-- Any number, rounded to the nearest; one that is too large for the format is
refused. -/
def float? : Json → Option Binary64
  | number numeral =>
      let value := numeral.toBinary64
      if value.isFinite then some value else none
  | _ => none

def items? : Json → Option (List Json)
  | array items => some items
  | _ => none

def entries? : Json → Option (List (String × Json))
  | object members => members.mapM fun (name, value) => name.map (·, value)
  | _ => none

/-- A structure is an object, in which unknown members do not count and no known
one is repeated, or an array of all its fields in order. -/
def fields? (names : List String) (json : Json) : Option (List (Option Json)) :=
  match json with
  | array items =>
      if items.length = names.length then some (items.map some) else none
  | _ => do
      let entries ← json.entries?
      names.mapM fun name =>
        match entries.filter (·.1 = name) with
        | [] => some none
        | [(_, value)] => some (some value)
        | _ => none

/-- A constructor is its name, or an object of its name and its argument; the
argument of a bare name counts as `null`. -/
def variant? : Json → Option (String × Json)
  | string (some name) => some (name, null)
  | object [(some name, argument)] => some (name, argument)
  | _ => none

def constant? (all : List α) (name : α → String) (json : Json) : Option α :=
  match json.variant? with
  | some (wanted, null) => all.find? (name · = wanted)
  | _ => none

/-- A map whose entries are decoded; of repeated names the last wins. -/
def nameMap? (decode : Json → Option α) (json : Json) : Option (NameMap α) := do
  let entries ← json.entries?
  let decoded ← entries.mapM fun (name, value) => (decode value).map (name, ·)
  return .ofList decoded

def ofNameMap (encode : α → Json) (map : NameMap α) : Json :=
  ofEntries (map.entries.map fun (name, value) => (name, encode value))

end Json

end ShapeMerge
