import ShapeMerge.Builder.Basic

namespace ShapeMerge.Builder

/-!
The operations on a builder as data, so that a history of a builder is a list.
An operation leaves a builder behind also where it fails.
-/

inductive Operation where
  | reserve
  | primitive (base : Primitive)
  | text (hints : Hints) (literals : Option Tally)
  | formatted (hints : Hints) (format : Format)
  | array (hints : Hints) (item : Ref)
  | map (hints : Hints) (element : Ref)
  | record (hints : Hints) (content : Record) (slot : Option Ref)
  | union (hints : Hints) (members : List Ref)
  | nullable (hints : Hints) (ref : Ref)
  | root (name : String) (target : Ref)
  deriving DecidableEq

def settle (builder : Builder) :
    Except GraphFault (Ref × Builder) → Except GraphFault Ref × Builder
  | .ok (ref, changed) => (.ok ref, changed)
  | .error error => (.error error, builder)

def apply (builder : Builder) : Operation → Except GraphFault Ref × Builder
  | .reserve => builder.settle (.ok builder.reserve)
  | .primitive base => builder.settle (.ok (builder.primitive base))
  | .text hints literals => builder.settle (.ok (builder.text hints literals))
  | .formatted hints format =>
      builder.settle (.ok (builder.formatted hints format))
  | .array hints item => builder.settle (builder.array hints item)
  | .map hints element => builder.settle (builder.map hints element)
  | .record hints content slot =>
      builder.settle (builder.record hints content slot)
  | .union hints members => builder.settle (builder.union hints members)
  | .nullable hints ref => builder.nullable hints ref
  | .root name target =>
      builder.settle ((builder.root name target).map (target, ·))

/-- The builder after a history of operations, failed ones included. -/
def replay (builder : Builder) (history : List Operation) : Builder :=
  history.foldl (fun state operation => (state.apply operation).2) builder

end ShapeMerge.Builder
