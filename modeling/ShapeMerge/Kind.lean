namespace ShapeMerge

/-!
The categories that shapes are compared by.  Text whose every sample matched a
format is a kind of its own for each format, and none of these is the kind of
plain text.
-/

inductive Primitive where
  | any
  | null
  | bool
  | integer
  | double
  deriving DecidableEq

inductive Format where
  | date
  | time
  | dateTime
  | uuid
  | uri
  | integerText
  | boolText
  deriving DecidableEq

inductive Kind where
  | primitive (base : Primitive)
  | text
  | formatted (format : Format)
  | array
  | map
  | record
  | union
  deriving DecidableEq

namespace Primitive

def all : List Primitive := [.any, .null, .bool, .integer, .double]

def rank : Primitive → Nat
  | .any => 0
  | .null => 1
  | .bool => 2
  | .integer => 3
  | .double => 4

def label : Primitive → String
  | .any => "any"
  | .null => "null"
  | .bool => "bool"
  | .integer => "integer"
  | .double => "double"

end Primitive

namespace Format

def all : List Format :=
  [.date, .time, .dateTime, .uuid, .uri, .integerText, .boolText]

def rank : Format → Nat
  | .date => 0
  | .time => 1
  | .dateTime => 2
  | .uuid => 3
  | .uri => 4
  | .integerText => 5
  | .boolText => 6

def label : Format → String
  | .date => "date"
  | .time => "time"
  | .dateTime => "date-time"
  | .uuid => "uuid"
  | .uri => "uri"
  | .integerText => "integer-string"
  | .boolText => "bool-string"

theorem mem_all (format : Format) : format ∈ all := by
  cases format <;> decide

end Format

namespace Kind

def null : Kind := .primitive .null

def rank : Kind → Nat
  | .primitive base => base.rank
  | .text => 5
  | .formatted format => 6 + format.rank
  | .array => 13
  | .map => 14
  | .record => 15
  | .union => 16

def label : Kind → String
  | .primitive base => base.label
  | .text => "string"
  | .formatted format => format.label
  | .array => "array"
  | .map => "map"
  | .record => "record"
  | .union => "union"

def isText (kind : Kind) : Bool :=
  kind = .text

def isNull (kind : Kind) : Bool :=
  kind = null

def sort (kinds : List Kind) : List Kind :=
  kinds.mergeSort (fun left right => left.rank ≤ right.rank)

def repeated? (seen : List Kind) : List Kind → Option Kind
  | [] => none
  | kind :: rest =>
      if kind ∈ seen then some kind else repeated? (kind :: seen) rest

end Kind

end ShapeMerge
