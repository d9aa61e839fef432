import ShapeMerge.Collapse.Basic
import ShapeMerge.Proofs.Builder.Bare

namespace ShapeMerge

def Passage.bare (passage : Passage) : Passage :=
  { passage with graph := passage.graph.bare }

def Collapsed.bare (collapsed : Collapsed α) : Collapsed α :=
  { collapsed with
    graph := collapsed.graph.bare
    passage := collapsed.passage.bare }

namespace Graph

variable (graph : Graph) (policy : FormatPolicy)

theorem dropLowered_bare (present : Bool) (members : List Ref) :
    graph.bare.dropLowered policy present members =
      graph.dropLowered policy present members := by
  have hlowered : graph.bare.isLowered policy = graph.isLowered policy := by
    funext ref
    rw [isLowered, isLowered, shape?_bare]
  induction members generalizing present with
  | nil => rfl
  | cons member rest ih => rw [dropLowered, dropLowered, hlowered, ih, ih]

@[simp] theorem narrow_bare :
    graph.bare.narrow policy = graph.narrow policy := by
  funext alternatives
  rw [narrow, narrow, kind?_bare, dropLowered_bare]

@[simp] theorem survivor?_bare :
    graph.bare.survivor? policy = graph.survivor? policy := by
  funext alternatives
  rw [survivor?, survivor?, narrow_bare, kind?_bare]

end Graph

namespace Collapse

def bare (collapse : Collapse) : Collapse :=
  { collapse with graph := collapse.graph.bare }

variable (collapse : Collapse)

section Numbering

theorem leader_bare : collapse.bare.leader = collapse.leader := by
  have hsurvivor : collapse.bare.survivor? = collapse.survivor? := by
    funext ref
    rw [survivor?, survivor?, bare, Graph.shape?_bare, Graph.survivor?_bare]
    rfl
  funext ref
  rw [leader, leader, hsurvivor]
  rfl

@[simp] theorem leaders_bare : collapse.bare.leaders = collapse.leaders := by
  rw [leaders, leaders, leader_bare, bare, Graph.refs_bare]

theorem passage_bare : collapse.bare.passage = collapse.passage.bare := by
  have hdestinations : collapse.bare.destinations = collapse.destinations := by
    rw [destinations, destinations, leaders_bare, leader_bare, bare,
      Graph.refs_bare]
  rw [passage, hdestinations]
  rfl

end Numbering

section Check

variable (graph : Graph)

theorem memberFault?_bare (taken group : List Ref) :
    memberFault? graph.bare taken group = memberFault? graph taken group := by
  induction group generalizing taken with
  | nil => rfl
  | cons ref rest ih => rw [memberFault?, memberFault?, Graph.has_bare, ih]

theorem groupFault?_bare (number : Nat) (taken : List Ref)
    (groups : List (List Ref)) :
    groupFault? graph.bare number taken groups =
      groupFault? graph number taken groups := by
  induction groups generalizing number taken with
  | nil => rfl
  | cons group rest ih => rw [groupFault?, groupFault?, memberFault?_bare, ih]

theorem check_bare : collapse.bare.check = collapse.check := by
  rw [check, check, bare, Graph.check_bare, groupFault?_bare]

end Check

section Draft

variable (passage : Passage)

theorem carry_bare (node : Node) :
    collapse.bare.carry passage.bare node.bare =
      (collapse.carry passage node).bare := by
  rw [carry, carry, bare, Graph.narrow_bare]
  rfl

theorem draft_bare :
    collapse.bare.draft passage.bare = (collapse.draft passage).bare := by
  simp only [draft, Builder.bare, leaders_bare, List.map_toArray, List.map_map,
    Builder.mk.injEq, Array.mk.injEq]
  refine ⟨List.map_congr_left fun ref _ => ?_, rfl, rfl⟩
  have hgroup : collapse.bare.group? ref = collapse.group? ref := rfl
  rw [Function.comp_apply, hgroup]
  cases collapse.group? ref with
  | some group => rfl
  | none =>
      dsimp only
      rw [bare, Graph.node?_bare, Option.map_map, Option.map_map]
      congr 1
      exact funext (collapse.carry_bare passage)

end Draft

section Run

variable {ε α : Type} {embed : GraphFault → ε}

theorem construct_bare
    {build other : Site → Builder → Except ε ((Ref × α) × Builder)}
    (h : ∀ site builder,
      other site builder.bare = (build site builder).map Builder.bareResult)
    (sites : List Site) (builder : Builder) :
    construct embed other sites builder.bare =
      (construct embed build sites builder).map Builder.bareResult := by
  induction sites generalizing builder with
  | nil => rfl
  | cons site rest ih =>
      rw [construct, construct, h]
      apply map_bind_eq_map_bind
      intro made
      obtain ⟨⟨target, report⟩, after⟩ := made
      dsimp only
      by_cases hmisplaced : target ≠ site.slot
      · rw [if_pos hmisplaced, if_pos hmisplaced]
        rfl
      · rw [if_neg hmisplaced, if_neg hmisplaced, ih]
        exact map_bind_eq_map_bind fun _ => rfl

theorem nameRoots_bare (passage : Passage) (entries : List (String × Ref))
    (builder : Builder) :
    nameRoots passage.bare entries builder.bare =
      (nameRoots passage entries builder).map Builder.bare := by
  induction entries generalizing builder with
  | nil => rfl
  | cons entry rest ih =>
      have hredirect : passage.bare.redirect = passage.redirect := rfl
      rw [nameRoots, nameRoots, hredirect, Builder.root_bare]
      exact map_bind_eq_map_bind ih

theorem run_bare
    {build : Passage → Site → Builder → Except ε ((Ref × α) × Builder)}
    (h : ∀ passage site builder, build passage.bare site builder.bare =
      (build passage site builder).map Builder.bareResult) :
    collapse.bare.run embed build =
      (collapse.run embed build).map Collapsed.bare := by
  rw [run, run, check_bare, passage_bare]
  apply bind_eq_map_bind
  intro _
  have hsites : collapse.bare.sites collapse.passage.bare =
      collapse.sites collapse.passage := rfl
  dsimp only
  rw [hsites, draft_bare, construct_bare (h collapse.passage)]
  apply map_bind_eq_map_bind
  intro built
  obtain ⟨reports, builder⟩ := built
  dsimp only
  have hroots : collapse.bare.graph.roots = collapse.graph.roots := rfl
  rw [hroots, nameRoots_bare, mapError_map]
  apply map_bind_eq_map_bind
  intro named
  rw [Builder.toGraph_bare, mapError_map]
  exact map_bind_eq_map_bind fun _ => rfl

end Run

end Collapse

end ShapeMerge
