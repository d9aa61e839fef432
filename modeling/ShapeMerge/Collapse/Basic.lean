import ShapeMerge.Builder.Basic

namespace ShapeMerge

/-!
Collapsing groups of nodes into one node each.  Every node has a leader: the
first member of its group, the survivor that a union gives way to, or itself.
The leaders, in discovery order, are the first nodes of the new graph, and each
node goes where its leader goes.

The nodes outside the groups are copied with their references redirected and
formats lowered; the node of a group is made by a constructor, which has to fill
the slot kept for the group.  Any failure yields no graph at all.
-/

namespace Graph

def isLowered (graph : Graph) (policy : FormatPolicy) (ref : Ref) : Bool :=
  match graph.shape? ref with
  | some (.formatted format) => policy.lowers format
  | _ => false

def dropLowered (graph : Graph) (policy : FormatPolicy) :
    (present : Bool) → List Ref → List Ref
  | _, [] => []
  | present, member :: rest =>
      if graph.isLowered policy member then
        if present then dropLowered graph policy true rest
        else member :: dropLowered graph policy true rest
      else member :: dropLowered graph policy present rest

/-- The members of a union that stay.  Of those that lowering would turn into
plain text at most one may, and text that was plain before wins over lowered
formats, the first lowered format over later ones. -/
def narrow (graph : Graph) (policy : FormatPolicy)
    (alternatives : List Ref) : List Ref :=
  graph.dropLowered policy (alternatives.any (graph.kind? · = some .text))
    alternatives

def survivor? (graph : Graph) (policy : FormatPolicy)
    (alternatives : List Ref) : Option Ref :=
  match graph.narrow policy alternatives with
  | [only] =>
      if alternatives.length ≠ 1 && graph.kind? only ≠ some .union then
        some only
      else none
  | _ => none

end Graph

structure Collapse where
  graph : Graph
  policy : FormatPolicy
  groups : List (List Ref)

namespace Collapse

def group? (collapse : Collapse) (ref : Ref) : Option (List Ref) :=
  collapse.groups.find? (·.contains ref)

def earliest (group : List Ref) : Ref :=
  ⟨((group.map (·.index)).min?).getD 0⟩

def survivor? (collapse : Collapse) (ref : Ref) : Option Ref :=
  match collapse.group? ref, collapse.graph.shape? ref with
  | none, some (.union alternatives) =>
      collapse.graph.survivor? collapse.policy alternatives
  | _, _ => none

def leader (collapse : Collapse) (ref : Ref) : Ref :=
  let target := (collapse.survivor? ref).getD ref
  ((collapse.group? target).map earliest).getD target

def leaders (collapse : Collapse) : List Ref :=
  collapse.graph.refs.filter (fun ref => collapse.leader ref = ref)

def destinations (collapse : Collapse) : Array Ref :=
  let leaders := collapse.leaders
  (collapse.graph.refs.map
    (fun ref => ⟨leaders.idxOf (collapse.leader ref)⟩)).toArray

end Collapse

structure Passage where
  graph : Graph
  /-- The new reference of every old node; members of a group share the slot of
  the group. -/
  destinations : Array Ref

namespace Passage

def follow (passage : Passage) (ref : Ref) : Except GraphFault Ref :=
  match passage.destinations[ref.index]? with
  | some target => .ok target
  | none => .error (.missing ref)

/-- As `follow`, for a reference that is known to be to a node. -/
def redirect (passage : Passage) (ref : Ref) : Ref :=
  passage.destinations[ref.index]?.getD ref

end Passage

structure Site where
  number : Nat
  members : List Ref
  slot : Ref

structure Collapsed (α : Type) where
  graph : Graph
  passage : Passage
  reports : List α

namespace Collapse

def memberFault? (graph : Graph) :
    (taken : List Ref) → List Ref → Option GraphFault
  | _, [] => none
  | taken, ref :: rest =>
      if !graph.has ref then some (.missing ref)
      else if ref ∈ taken then some (.repeatedMember ref)
      else memberFault? graph (ref :: taken) rest

def groupFault? (graph : Graph) :
    (number : Nat) → (taken : List Ref) → List (List Ref) → Option GraphFault
  | _, _, [] => none
  | number, taken, group :: rest =>
      if group.isEmpty then some (.emptyGroup number)
      else
        (memberFault? graph taken group).or
          (groupFault? graph (number + 1) (group ++ taken) rest)

def check (collapse : Collapse) : Except GraphFault Unit := do
  collapse.graph.check
  match groupFault? collapse.graph 0 [] collapse.groups with
  | some fault => .error fault
  | none => return ()

def passage (collapse : Collapse) : Passage :=
  ⟨collapse.graph, collapse.destinations⟩

def carry (collapse : Collapse) (passage : Passage) (node : Node) : Node :=
  let narrowed : Shape :=
    match node.shape with
    | .union alternatives =>
        .union (collapse.graph.narrow collapse.policy alternatives)
    | shape => shape
  ⟨collapse.policy.lower (narrowed.mapRefs passage.redirect), node.hints⟩

/-- The new graph before any group has been built: a filled slot for every
copied node, and a reserved one for every group. -/
def draft (collapse : Collapse) (passage : Passage) : Builder :=
  let slot (ref : Ref) : Option Node :=
    match collapse.group? ref with
    | some _ => none
    | none => (collapse.graph.node? ref).map (collapse.carry passage)
  { Builder.start collapse.policy with
    slots := (collapse.leaders.map slot).toArray }

def sites (collapse : Collapse) (passage : Passage) : List Site :=
  collapse.groups.zipIdx.map fun (members, number) =>
    ⟨number, members, passage.redirect (earliest members)⟩

def construct (embed : GraphFault → ε)
    (build : Site → Builder → Except ε ((Ref × α) × Builder)) :
    List Site → Builder → Except ε (List α × Builder)
  | [], builder => .ok ([], builder)
  | site :: rest, builder => do
      let ((made, report), builder) ← build site builder
      if made ≠ site.slot then .error (embed (.misplaced site.slot made))
      else
        let (reports, builder) ← construct embed build rest builder
        return (report :: reports, builder)

def nameRoots (passage : Passage) :
    List (String × Ref) → Builder → Except GraphFault Builder
  | [], builder => .ok builder
  | (name, target) :: rest, builder => do
      let builder ← builder.root name (passage.redirect target)
      nameRoots passage rest builder

def run (collapse : Collapse) (embed : GraphFault → ε)
    (build : Passage → Site → Builder → Except ε ((Ref × α) × Builder)) :
    Except ε (Collapsed α) := do
  collapse.check.mapError embed
  let passage := collapse.passage
  let (reports, builder) ← construct embed (build passage)
    (collapse.sites passage) (collapse.draft passage)
  let builder ←
    (nameRoots passage collapse.graph.roots.entries builder).mapError embed
  let graph ← builder.toGraph.mapError embed
  return { graph, passage, reports }

end Collapse

end ShapeMerge
