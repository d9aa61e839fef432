import ShapeMerge.Graph.Basic
import ShapeMerge.Graph.Alternatives
import ShapeMerge.Graph.Equivalence

namespace ShapeMerge

namespace Exploration

variable [DecidableEq α]

theorem explore_congr {step other : α → Except ε (List α)} (h : step = other)
    (bounded : Bounded step) (bounded' : Bounded other) :
    explore step bounded = explore other bounded' := by
  subst h
  rfl

end Exploration

def Node.bare (node : Node) : Node := ⟨node.shape, .blank⟩

namespace Graph

open Exploration

def bare (graph : Graph) : Graph :=
  { graph with nodes := graph.nodes.map Node.bare }

variable (graph : Graph)

section Nodes

@[simp] theorem size_bare : graph.bare.size = graph.size :=
  Array.size_map

@[simp] theorem refs_bare : graph.bare.refs = graph.refs := by
  rw [refs, refs, size_bare]

@[simp] theorem has_bare : graph.bare.has = graph.has := by
  funext ref
  rw [has, has, size_bare]

@[simp] theorem node?_bare (ref : Ref) :
    graph.bare.node? ref = (graph.node? ref).map Node.bare :=
  Array.getElem?_map

@[simp] theorem shape?_bare : graph.bare.shape? = graph.shape? := by
  funext ref
  rw [shape?, shape?, node?_bare, Option.map_map]
  rfl

theorem hints?_bare (ref : Ref) :
    graph.bare.hints? ref = (graph.hints? ref).map fun _ => .blank := by
  rw [hints?, hints?, node?_bare, Option.map_map, Option.map_map]
  rfl

@[simp] theorem kind?_bare : graph.bare.kind? = graph.kind? := by
  funext ref
  rw [kind?, kind?, shape?_bare]

@[simp] theorem record?_bare : graph.bare.record? = graph.record? := by
  funext ref
  rw [record?, record?, shape?_bare]

@[simp] theorem members_bare : graph.bare.members = graph.members := by
  funext ref
  rw [members, members, shape?_bare]

theorem entries_bare :
    graph.bare.entries = graph.entries.map (Prod.map id Node.bare) := by
  rw [entries, entries, bare, Array.toList_map, List.zipIdx_map, List.map_map,
    List.map_map]
  rfl

@[simp] theorem records_bare : graph.bare.records = graph.records := by
  rw [records, records, entries_bare, List.filterMap_map]
  rfl

end Nodes

section Check

theorem nodeFault?_bare (entry : Ref × Node) :
    graph.bare.nodeFault? (Prod.map id Node.bare entry) =
      graph.nodeFault? entry := by
  rw [nodeFault?, nodeFault?, has_bare, kind?_bare]
  rfl

@[simp] theorem check_bare : graph.bare.check = graph.check := by
  have hnodes : graph.bare.entries.findSome? graph.bare.nodeFault? =
      graph.entries.findSome? graph.nodeFault? := by
    rw [entries_bare, List.findSome?_map]
    congr 1
    exact funext graph.nodeFault?_bare
  have hroots : graph.bare.rootFault? = graph.rootFault? := by
    rw [rootFault?, rootFault?, has_bare]
    rfl
  rw [check, check, fault?, fault?, hnodes, hroots]

end Check

section Alternatives

theorem openUnion_bare : graph.bare.openUnion = graph.openUnion := by
  funext ref
  rw [openUnion, openUnion, shape?_bare]

@[simp] theorem alternatives_bare :
    graph.bare.alternatives = graph.alternatives := by
  have hplain : graph.bare.isPlain = graph.isPlain := by
    funext ref
    rw [isPlain, isPlain, kind?_bare]
  funext ref
  rw [alternatives, alternatives, opened, opened, hplain, explore_congr
    graph.openUnion_bare graph.bare.openUnion_bounded graph.openUnion_bounded]

@[simp] theorem nullable_bare : graph.bare.nullable = graph.nullable := by
  have hopen : graph.bare.openLeniently = graph.openLeniently := by
    funext ref
    rw [openLeniently, openLeniently, members_bare]
  funext ref
  rw [nullable, nullable, openedLeniently, openedLeniently, kind?_bare,
    explore_congr hopen graph.bare.openLeniently_bounded
    graph.openLeniently_bounded]

end Alternatives

section Equivalence

@[simp] theorem ofKind?_bare : graph.bare.ofKind? = graph.ofKind? := by
  funext alternatives kind
  rw [ofKind?, ofKind?, kind?_bare]

theorem pairParts_bare : graph.bare.pairParts = graph.pairParts := by
  funext left right
  cases left <;> cases right <;>
    simp only [pairParts, pairAlternatives, kind?_bare, ofKind?_bare]

@[simp] theorem equivalent_bare : graph.bare.equivalent = graph.equivalent := by
  have hcompare : graph.bare.comparePair = graph.comparePair := by
    funext pair
    rw [comparePair, comparePair, shape?_bare, pairParts_bare]
  funext left right
  rw [equivalent, equivalent, explore_congr hcompare
    graph.bare.comparePair_bounded graph.comparePair_bounded]

end Equivalence

end Graph

end ShapeMerge
