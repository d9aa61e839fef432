import ShapeMerge.Exploration
import ShapeMerge.Graph.Basic

namespace ShapeMerge.Graph

open Exploration

/-!
One-line descriptions of shapes.  Records are written `{field: shape, ...}`,
arrays `[shape]`, maps `map<shape>`, unions `(shape | ...)`, with `null` written
as a `?` behind the union.  A node that is met while it is being described is
written as its reference.
-/

def braced (body : String) : String :=
  "\x7b" ++ body ++ "\x7d"

def textLine : Option Tally → String
  | none => "string"
  | some literals =>
      let items :=
        literals.entries.map (fun entry => entry.1 ++ ":" ++ toString entry.2)
      "enum" ++ braced (",".intercalate items)

def unionLine (alternatives : List String) (nullable : Bool) : String :=
  let body :=
    match alternatives with
    | [single] => single
    | several => "(" ++ " | ".intercalate several ++ ")"
  if nullable then body ++ "?" else body

/-- Describes a node inside the records in `inside`; `through` lists the arrays,
maps and unions entered since the innermost of them. -/
def oneLineInside (graph : Graph) (inside through : List Ref)
    (ref : Ref) : String :=
  match _h : graph.shape? ref with
  | none => "<missing " ++ ref.label ++ ">"
  | some (.primitive base) => base.label
  | some (.text literals) => textLine literals
  | some (.formatted format) => format.label
  | some (.record record) =>
      if ref ∈ inside then ref.label
      else
        braced (", ".intercalate (record.fields.entries.map fun (name, field) =>
          name ++ ": " ++ oneLineInside graph (ref :: inside) [] field))
  | some (.array item) =>
      if ref ∈ through then ref.label
      else "[" ++ oneLineInside graph inside (ref :: through) item ++ "]"
  | some (.map element) =>
      if ref ∈ through then ref.label
      else "map<" ++ oneLineInside graph inside (ref :: through) element ++ ">"
  | some (.union alternatives) =>
      if ref ∈ through then ref.label
      else
        let present := alternatives.filter (graph.kind? · ≠ some .null)
        unionLine (present.map (oneLineInside graph inside (ref :: through)))
          (present.length < alternatives.length)
termination_by (remaining graph.refs inside, remaining graph.refs through)
decreasing_by
  · exact Prod.Lex.left _ _ (remaining_cons_lt (mem_refs_of_shape? _h) ‹_›)
  all_goals
    exact Prod.Lex.right _ (remaining_cons_lt (mem_refs_of_shape? _h) ‹_›)

def oneLine (graph : Graph) (ref : Ref) : String :=
  graph.oneLineInside [] [] ref

end ShapeMerge.Graph
