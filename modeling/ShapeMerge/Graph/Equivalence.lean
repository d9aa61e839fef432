import ShapeMerge.Exploration
import ShapeMerge.Graph.Basic

namespace ShapeMerge.Graph

open Exploration

/-!
Equivalence of nodes: the same structure all the way down, whatever the name
hints.  A pair of nodes that is being compared already counts as equivalent, so
the comparison ends on cycles.
-/

/-- The last alternative of a kind. -/
def ofKind? (graph : Graph) (alternatives : List Ref) (kind : Kind) :
    Option Ref :=
  alternatives.reverse.find? (graph.kind? · = some kind)

def pairAlternatives (graph : Graph) (left right : List Ref) :
    Option (List (Ref × Ref)) :=
  if left.length = right.length then
    left.mapM fun ref => do
      let kind ← graph.kind? ref
      let other ← graph.ofKind? right kind
      return (ref, other)
  else none

def pairFields (left right : Record) : Option (List (Ref × Ref)) :=
  if left.pinned = right.pinned ∧ left.fields.size = right.fields.size then
    left.fields.entries.mapM fun (name, ref) => do
      let other ← right.fields.find? name
      return (ref, other)
  else none

/-- The pairs that have to be equivalent for two shapes to be; `none` where the
shapes themselves differ. -/
def pairParts (graph : Graph) : Shape → Shape → Option (List (Ref × Ref))
  | .primitive left, .primitive right => if left = right then some [] else none
  | .text left, .text right => if left = right then some [] else none
  | .formatted left, .formatted right => if left = right then some [] else none
  | .array left, .array right => some [(left, right)]
  | .map left, .map right => some [(left, right)]
  | .record left, .record right => pairFields left right
  | .union left, .union right => graph.pairAlternatives left right
  | _, _ => none

def comparePair (graph : Graph) (pair : Ref × Ref) :
    Except Unit (List (Ref × Ref)) :=
  if pair.1 = pair.2 then .ok []
  else
    match graph.shape? pair.1, graph.shape? pair.2 with
    | some left, some right =>
        match graph.pairParts left right with
        | some pairs => .ok pairs
        | none => .error ()
    | _, _ => .error ()

theorem comparePair_bounded (graph : Graph) : Bounded graph.comparePair := by
  refine ⟨graph.refs.flatMap (fun left => graph.refs.map (left, ·)),
    fun pair next h hne => ?_⟩
  unfold comparePair at h
  split at h
  · cases h
    exact absurd rfl hne
  · split at h
    · rename_i left right hleft hright
      simp only [List.mem_flatMap, List.mem_map]
      exact ⟨pair.1, mem_refs_of_shape? hleft, pair.2,
        mem_refs_of_shape? hright, rfl⟩
    · cases h

def equivalent (graph : Graph) (left right : Ref) : Bool :=
  match explore graph.comparePair graph.comparePair_bounded
    [(left, right)] [] with
  | .ok _ => true
  | .error () => false

end ShapeMerge.Graph
