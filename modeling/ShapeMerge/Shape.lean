import ShapeMerge.Kind
import ShapeMerge.NameMap.Basic

namespace ShapeMerge

/-!
The shapes of data.  The parts of a shape are references into the graph that
holds it, so a shape is one node and not a tree.  Nullable data is a union with
the `null` primitive among its members.
-/

/-- A position in one graph's list of nodes; it means nothing without that
graph. -/
structure Ref where
  index : Nat
  deriving DecidableEq, Inhabited

namespace Ref

instance : LT Ref := ⟨fun left right => left.index < right.index⟩

instance (left right : Ref) : Decidable (left < right) :=
  inferInstanceAs (Decidable (left.index < right.index))

/-- The number of references that the written forms of a graph can hold. -/
def limit : Nat := Nat.pow 2 32

def label (ref : Ref) : String :=
  "#" ++ toString ref.index

instance : ToString Ref := ⟨label⟩

/-- Moves a reference, wrapping at the end of the written range. -/
def shift (ref : Ref) (offset : Nat) : Ref :=
  ⟨(ref.index + offset) % limit⟩

end Ref

/-- How often each literal text was seen.  A text with count zero is a text of
the tally. -/
abbrev Tally := NameMap Nat

namespace Tally

def count (tally : Tally) (literal : String) : Nat :=
  (tally.find? literal).getD 0

def total (tally : Tally) : Nat :=
  tally.values.foldr (· + ·) 0

def add (tally : Tally) (literal : String) (occurrences : Nat) : Tally :=
  tally.upsert literal (fun seen => seen.getD 0 + occurrences)

def ofList (pairs : List (String × Nat)) : Tally :=
  pairs.foldl (fun tally pair => tally.add pair.1 pair.2) ∅

def merge (tally other : Tally) : Tally :=
  other.entries.foldl (fun sum pair => sum.add pair.1 pair.2) tally

def sum (tallies : List Tally) : Tally :=
  tallies.foldl merge ∅

end Tally

/-- Naming suggestions for a shape.  Where bundles of them are joined, names
given explicitly win over names inferred from data. -/
structure Hints where
  names : NameSet
  inferred : Bool
  deriving DecidableEq

namespace Hints

def blank : Hints := ⟨∅, true⟩

instance : Inhabited Hints := ⟨blank⟩

def inferredName (name : String) : Hints := ⟨.ofList [name], true⟩

def explicitName (name : String) : Hints := ⟨.ofList [name], false⟩

def first? (hints : Hints) : Option String :=
  hints.names.names.head?

/-- A bundle marked explicit that holds no name asserts nothing. -/
def asserts (hints : Hints) : Bool :=
  !hints.inferred && !hints.names.isEmpty

def joinAll (bundles : List Hints) : Hints :=
  if bundles.any asserts then
    ⟨.unions ((bundles.filter (!·.inferred)).map (·.names)), false⟩
  else
    ⟨.unions (bundles.map (·.names)), true⟩

def join (left right : Hints) : Hints :=
  joinAll [left, right]

def label (hints : Hints) : String :=
  let body := "\x7b" ++ ",".intercalate hints.names.names ++ "\x7d"
  if hints.inferred then "~" ++ body else body

end Hints

structure Record where
  fields : NameMap Ref
  /-- A pinned record is never merged with another. -/
  pinned : Bool
  deriving DecidableEq

inductive Shape where
  | primitive (base : Primitive)
  /-- Any text, or the tallied literals only. -/
  | text (literals : Option Tally)
  | formatted (format : Format)
  | array (item : Ref)
  | map (element : Ref)
  | record (content : Record)
  /-- Alternatives, at most one of a kind. -/
  | union (alternatives : List Ref)
  deriving DecidableEq

namespace Shape

def null : Shape := .primitive .null

def plainText : Shape := .text none

def kind : Shape → Kind
  | .primitive base => .primitive base
  | .text _ => .text
  | .formatted format => .formatted format
  | .array _ => .array
  | .map _ => .map
  | .record _ => .record
  | .union _ => .union

def record? : Shape → Option Record
  | .record content => some content
  | _ => none

def members : Shape → List Ref
  | .union alternatives => alternatives
  | _ => []

def enumerated? : Shape → Option Bool
  | .text literals => some literals.isSome
  | _ => none

def children : Shape → List Ref
  | .array item => [item]
  | .map element => [element]
  | .record content => content.fields.values
  | .union alternatives => alternatives
  | _ => []

def mapRefs (move : Ref → Ref) : Shape → Shape
  | .array item => .array (move item)
  | .map element => .map (move element)
  | .record content => .record ⟨content.fields.map move, content.pinned⟩
  | .union alternatives => .union (alternatives.map move)
  | shape => shape

end Shape

structure Node where
  shape : Shape
  hints : Hints
  deriving DecidableEq

namespace Node

def kind (node : Node) : Kind :=
  node.shape.kind

end Node

end ShapeMerge
