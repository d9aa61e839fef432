import ShapeMerge.Exploration
import ShapeMerge.Graph.Basic

namespace ShapeMerge.Graph

open Exploration

/-!
What a reference stands for once unions are opened: its alternatives, unions
among the members of unions included, and whether `null` is one of them.
-/

def openUnion (graph : Graph) (ref : Ref) : Except GraphFault (List Ref) :=
  match graph.shape? ref with
  | none => .error (.missing ref)
  | some shape => .ok shape.members

theorem openUnion_bounded (graph : Graph) : Bounded graph.openUnion := by
  refine ⟨graph.refs, fun ref next h _ => ?_⟩
  unfold openUnion at h
  split at h
  · cases h
  · rename_i hshape
    exact mem_refs_of_shape? hshape

/-- The nodes met from a reference by going from unions to their members, the
reference itself first. -/
def opened (graph : Graph) (ref : Ref) : Except GraphFault (List Ref) :=
  explore graph.openUnion graph.openUnion_bounded [ref] []

def isPlain (graph : Graph) (ref : Ref) : Bool :=
  graph.kind? ref ≠ some .union && graph.kind? ref ≠ some .null

/-- The alternatives other than `null`, in order of first visit.  A reference to
no node fails. -/
def alternatives (graph : Graph) (ref : Ref) : Except GraphFault (List Ref) :=
  (graph.opened ref).map (·.filter graph.isPlain)

def openLeniently (graph : Graph) (ref : Ref) : Except Empty (List Ref) :=
  .ok (graph.members ref)

theorem openLeniently_bounded (graph : Graph) :
    Bounded graph.openLeniently := by
  refine ⟨graph.refs, fun ref next h hne => ?_⟩
  cases h
  cases hshape : graph.shape? ref with
  | none => simp [members, hshape] at hne
  | some shape => exact mem_refs_of_shape? hshape

/-- As `opened`, passing over references to no node. -/
def openedLeniently (graph : Graph) (ref : Ref) : List Ref :=
  match explore graph.openLeniently graph.openLeniently_bounded [ref] [] with
  | .ok visited => visited

def nullable (graph : Graph) (ref : Ref) : Bool :=
  (graph.openedLeniently ref).any (graph.kind? · = some .null)

end ShapeMerge.Graph
