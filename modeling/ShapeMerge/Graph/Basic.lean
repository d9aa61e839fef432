import ShapeMerge.Shape

namespace ShapeMerge

/-!
Graphs of shapes: the nodes in discovery order and the named roots.  A graph is
any such value.  In a well-formed one, which `Graph.check` accepts, every child
of a node and every root is a node, and no union has two members of one kind.
-/

inductive GraphFault where
  | missing (ref : Ref)
  | dangling (node target : Ref)
  | repeatedKind (union : Ref) (kind : String)
  | unfilled (slot : Ref)
  | alreadyFilled (slot : Ref)
  | repeatedMember (ref : Ref)
  | emptyGroup (group : Nat)
  /-- A group was built somewhere else than in its slot. -/
  | misplaced (expected actual : Ref)
  | repeatedRoot (name : String)
  deriving DecidableEq

namespace GraphFault

def message : GraphFault → String
  | missing ref => s!"node not found: {ref}"
  | dangling node target =>
      s!"dangling reference: node {node} references missing node {target}"
  | repeatedKind union kind =>
      s!"union {union} has more than one member of kind {kind}"
  | unfilled slot => s!"slot {slot} was reserved but never filled"
  | alreadyFilled slot => s!"slot {slot} is already filled"
  | repeatedMember ref => s!"node {ref} appears in more than one rewrite group"
  | emptyGroup group => s!"rewrite group {group} is empty"
  | misplaced expected actual =>
      s!"constructor for slot {expected} returned {actual}"
  | repeatedRoot name => s!"duplicate root name: {name}"

end GraphFault

structure Graph where
  nodes : Array Node
  roots : NameMap Ref
  deriving DecidableEq

namespace Graph

def empty : Graph := ⟨#[], ∅⟩

instance : Inhabited Graph := ⟨empty⟩

def size (graph : Graph) : Nat :=
  graph.nodes.size

def node? (graph : Graph) (ref : Ref) : Option Node :=
  graph.nodes[ref.index]?

def shape? (graph : Graph) (ref : Ref) : Option Shape :=
  (graph.node? ref).map (·.shape)

def hints? (graph : Graph) (ref : Ref) : Option Hints :=
  (graph.node? ref).map (·.hints)

def kind? (graph : Graph) (ref : Ref) : Option Kind :=
  (graph.shape? ref).map (·.kind)

def record? (graph : Graph) (ref : Ref) : Option Record :=
  (graph.shape? ref).bind (·.record?)

def members (graph : Graph) (ref : Ref) : List Ref :=
  ((graph.shape? ref).map (·.members)).getD []

def root? (graph : Graph) (name : String) : Option Ref :=
  graph.roots.find? name

def refs (graph : Graph) : List Ref :=
  (List.range graph.size).map Ref.mk

def entries (graph : Graph) : List (Ref × Node) :=
  graph.nodes.toList.zipIdx.map (fun entry => (⟨entry.2⟩, entry.1))

def records (graph : Graph) : List (Ref × Record) :=
  graph.entries.filterMap (fun entry => entry.2.shape.record?.map (entry.1, ·))

theorem mem_refs {graph : Graph} {ref : Ref} :
    ref ∈ graph.refs ↔ ref.index < graph.size := by
  simp only [refs, List.mem_map, List.mem_range]
  constructor
  · rintro ⟨index, hindex, rfl⟩
    exact hindex
  · exact fun h => ⟨ref.index, h, rfl⟩

theorem mem_refs_of_shape? {graph : Graph} {ref : Ref} {shape : Shape}
    (h : graph.shape? ref = some shape) : ref ∈ graph.refs := by
  rw [mem_refs]
  simp only [shape?, node?, Option.map_eq_some_iff] at h
  obtain ⟨node, hnode, _⟩ := h
  exact (Array.getElem?_eq_some_iff.mp hnode).1

def has (graph : Graph) (ref : Ref) : Bool :=
  ref.index < graph.size

/-- What is wrong with one node: a child that is no node comes before a repeated
kind. -/
def nodeFault? (graph : Graph) (entry : Ref × Node) : Option GraphFault :=
  match entry.2.shape.children.find? (!graph.has ·) with
  | some target => some (.dangling entry.1 target)
  | none =>
      (Kind.repeated? [] (entry.2.shape.members.filterMap graph.kind?)).map
        (fun kind => .repeatedKind entry.1 kind.label)

def rootFault? (graph : Graph) : Option GraphFault :=
  (graph.roots.values.find? (!graph.has ·)).map .missing

/-- The first fault in discovery order, those of the roots last. -/
def fault? (graph : Graph) : Option GraphFault :=
  (graph.entries.findSome? graph.nodeFault?).or graph.rootFault?

def check (graph : Graph) : Except GraphFault Unit :=
  match graph.fault? with
  | some fault => .error fault
  | none => .ok ()

end Graph

end ShapeMerge
