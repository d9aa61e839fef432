import Mathlib.Data.List.Basic
import ShapeMerge.Number.Binary64
import ShapeMerge.Graph.Basic

namespace ShapeMerge

/-!
What the written forms of a graph have room for: references of 32 bits and
counts of 64 bits, and for forms that start with lengths also lengths of 64
bits.
-/

namespace Shape

def counts : Shape → List Nat
  | .text (some literals) => literals.values
  | _ => []

end Shape

namespace NameMap

def lengths (map : NameMap α) : List Nat :=
  map.size :: map.names.map String.utf8ByteSize

theorem size_of_lengths {map : NameMap α} {limit : Nat}
    (h : ∀ length ∈ map.lengths, length < limit) : map.size < limit :=
  h map.size List.mem_cons_self

theorem names_of_lengths {map : NameMap α} {limit : Nat}
    (h : ∀ length ∈ map.lengths, length < limit) :
    ∀ name ∈ map.names, name.utf8ByteSize < limit := fun _ hname =>
  h _ (List.mem_cons_of_mem _ (List.mem_map_of_mem hname))

end NameMap

def Shape.lengths : Shape → List Nat
  | .text (some literals) => literals.lengths
  | .record content => content.fields.lengths
  | .union alternatives => [alternatives.length]
  | _ => []

def Node.lengths (node : Node) : List Nat :=
  node.shape.lengths ++ node.hints.names.lengths

structure Node.InRange (node : Node) : Prop where
  children : ∀ ref ∈ node.shape.children, ref.index < Ref.limit
  counts : ∀ count ∈ node.shape.counts, count < countLimit

instance (node : Node) : Decidable node.InRange :=
  decidable_of_iff
    ((∀ ref ∈ node.shape.children, ref.index < Ref.limit) ∧
      ∀ count ∈ node.shape.counts, count < countLimit)
    ⟨fun h => ⟨h.1, h.2⟩, fun h => ⟨h.children, h.counts⟩⟩

namespace Graph

structure InRange (graph : Graph) : Prop where
  nodes : ∀ node ∈ graph.nodes.toList, node.InRange
  roots : ∀ ref ∈ graph.roots.values, ref.index < Ref.limit

structure Storable (graph : Graph) : Prop extends graph.InRange where
  size : graph.size < countLimit
  nodeLengths :
    ∀ node ∈ graph.nodes.toList, ∀ length ∈ node.lengths, length < countLimit
  rootLengths : ∀ length ∈ graph.roots.lengths, length < countLimit

/-- A graph with the largest reference and count, empty texts and texts that
need escapes, and every case of an optional part.  Its references dangle. -/
def extremes : Graph where
  nodes := #[
    ⟨.text none, .blank⟩,
    ⟨.text (some ∅), ⟨∅, false⟩⟩,
    ⟨.text (some ⟨[("", 0), ("\"\\\n€", countLimit - 1)], by decide⟩),
      ⟨⟨[("naïve\u0001", ())], by decide⟩, true⟩⟩,
    ⟨.record ⟨⟨[("next", ⟨Ref.limit - 1⟩)], by decide⟩, true⟩, .blank⟩,
    ⟨.union [⟨4⟩, ⟨0⟩, ⟨0⟩], .blank⟩]
  roots := ⟨[("top", ⟨5⟩)], by decide⟩

theorem extremes_storable : extremes.Storable where
  nodes := by decide
  roots := by decide
  size := by decide
  nodeLengths := by decide
  rootLengths := by decide

end Graph

end ShapeMerge
