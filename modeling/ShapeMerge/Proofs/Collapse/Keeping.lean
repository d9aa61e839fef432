import ShapeMerge.Proofs.Collapse.Order

namespace ShapeMerge

theorem Shape.mapRefs_eq_self {move : Ref → Ref} {shape : Shape}
    (h : ∀ child ∈ shape.children, move child = child) :
    shape.mapRefs move = shape := by
  cases shape with
  | array item =>
      exact congrArg Shape.array (h item (List.mem_singleton_self item))
  | map element =>
      exact congrArg Shape.map (h element (List.mem_singleton_self element))
  | union alternatives =>
      exact congrArg Shape.union
        ((List.map_congr_left h).trans alternatives.map_id')
  | record content =>
      have hfields : content.fields.map move = content.fields := by
        apply NameMap.ext_find?
        intro name
        rw [NameMap.find?_map]
        cases hfind : content.fields.find? name with
        | none => rfl
        | some field =>
            exact congrArg
              some (h field (NameMap.mem_values_iff.mpr ⟨name, hfind⟩))
      rw [mapRefs, hfields]
  | _ => rfl

namespace Graph

theorem ext_node? {left right : Graph}
    (hnodes : ∀ ref, left.node? ref = right.node? ref)
    (hroots : left.roots = right.roots) : left = right := by
  obtain ⟨leftNodes, _⟩ := left
  obtain ⟨rightNodes, _⟩ := right
  have hsame : leftNodes = rightNodes :=
    Array.ext_getElem? fun index => hnodes ⟨index⟩
  subst hsame hroots
  rfl

variable {graph : Graph} {policy : FormatPolicy} {ref : Ref}

def Keeps (graph : Graph) (policy : FormatPolicy) : Prop :=
  ∀ ref, graph.isLowered policy ref = false

theorem keeps_iff :
    graph.Keeps policy ↔
      ∀ ref format, graph.shape? ref = some (.formatted format) →
        policy.lowers format = false := by
  constructor
  · intro h ref format hshape
    rw [Bool.eq_false_iff]
    intro hlowers
    exact Bool.eq_false_iff.mp (h ref)
      (isLowered_iff.mpr ⟨format, hshape, hlowers⟩)
  · intro h ref
    rw [Bool.eq_false_iff]
    intro hlowered
    obtain ⟨format, hshape, hlowers⟩ := isLowered_iff.mp hlowered
    rw [h ref format hshape] at hlowers
    cases hlowers

theorem keeps_of_policy (h : ∀ format, policy.lowers format = false) :
    graph.Keeps policy :=
  keeps_iff.mpr fun _ format _ => h format

theorem lower_eq_of_kept (hkept : graph.isLowered policy ref = false)
    {shape : Shape} (hshape : graph.shape? ref = some shape)
    (move : Ref → Ref) :
    policy.lower (shape.mapRefs move) = shape.mapRefs move := by
  cases shape with
  | formatted format =>
      have hstays : ¬ policy.lowers format = true := fun hlowers =>
        Bool.eq_false_iff.mp hkept (isLowered_iff.mpr ⟨format, hshape, hlowers⟩)
      exact if_neg hstays
  | _ => rfl

theorem Keeps.lower_eq (h : graph.Keeps policy) {shape : Shape}
    (hshape : graph.shape? ref = some shape) (move : Ref → Ref) :
    policy.lower (shape.mapRefs move) = shape.mapRefs move :=
  lower_eq_of_kept (h ref) hshape move

theorem Keeps.survivor?_eq_none (h : graph.Keeps policy)
    (alternatives : List Ref) : graph.survivor? policy alternatives = none := by
  rw [Option.eq_none_iff_forall_ne_some]
  intro only honly
  obtain ⟨hnarrow, hlength, _⟩ := survivor?_eq_some_iff.mp honly
  rw [narrow_eq_self fun member _ => h member] at hnarrow
  exact hlength (congrArg List.length hnarrow)

end Graph

namespace Collapse

variable {collapse : Collapse} {ref : Ref}

theorem narrowed_of_not_union {shape : Shape} (h : shape.kind ≠ .union) :
    collapse.narrowed shape = shape := by
  cases shape with
  | union alternatives => exact absurd rfl h
  | _ => rfl

theorem carry_of_kept {node : Node}
    (hnode : collapse.graph.node? ref = some node)
    (hkept : collapse.graph.isLowered collapse.policy ref = false)
    (hnarrowed : collapse.narrowed node.shape = node.shape)
    {passage : Passage} :
    collapse.carry passage node =
      ⟨node.shape.mapRefs passage.redirect, node.hints⟩ := by
  have hshape : collapse.graph.shape? ref = some node.shape :=
    Graph.shape?_of_node? hnode
  have hcarry := collapse.shape_carry passage node
  rw [hnarrowed, Graph.lower_eq_of_kept hkept hshape] at hcarry
  rw [← hcarry]
  rfl

variable (h : collapse.graph.Keeps collapse.policy)

include h

theorem narrowed_of_keeps (shape : Shape) :
    collapse.narrowed shape = shape := by
  cases shape with
  | union alternatives =>
      exact congrArg Shape.union (Graph.narrow_eq_self fun member _ => h member)
  | _ => rfl

theorem survivor?_of_keeps (ref : Ref) : collapse.survivor? ref = none := by
  rw [Option.eq_none_iff_forall_ne_some]
  intro only honly
  obtain ⟨_, alternatives, _, hsurvivor⟩ := survivor?_eq_some_iff.mp honly
  rw [h.survivor?_eq_none] at hsurvivor
  cases hsurvivor

theorem carry_of_keeps {node : Node}
    (hnode : collapse.graph.node? ref = some node) (passage : Passage) :
    collapse.carry passage node =
      ⟨node.shape.mapRefs passage.redirect, node.hints⟩ :=
  carry_of_kept hnode (h ref) (narrowed_of_keeps h node.shape)

theorem Realizes.shape?_kept {graph : Graph} {built : Builder}
    (hrealizes : collapse.Realizes graph built) (hready : collapse.Ready)
    {shape : Shape} (hshape : collapse.graph.shape? ref = some shape)
    (hgroup : collapse.group? ref = none) :
    graph.shape? (collapse.passage.redirect ref) =
      some (shape.mapRefs collapse.passage.redirect) := by
  rw [hrealizes.shape?_redirect hready hshape hgroup (survivor?_of_keeps h ref),
    narrowed_of_keeps h, h.lower_eq hshape]

section Alone

variable (hgroups : collapse.groups = [])

include hgroups

theorem leaders_of_no_group : collapse.leaders = collapse.graph.refs := by
  rw [leaders, List.filter_eq_self]
  intro ref _
  have hgroup : collapse.group? ref = none := by
    rw [group?, hgroups]
    rfl
  exact decide_eq_true (leader_of_none hgroup (survivor?_of_keeps h ref))

theorem redirect_of_no_group (href : collapse.graph.has ref = true) :
    collapse.passage.redirect ref = ref := by
  have hplaces : collapse.graph.refs.map collapse.passage.redirect =
      collapse.graph.refs.map id := by
    have hleaders := leaders_map_redirect collapse
    rw [leaders_of_no_group h hgroups] at hleaders
    rw [hleaders, List.map_id, Graph.refs, List.length_map, List.length_range]
  exact List.map_inj_left.mp hplaces ref (Graph.mem_refs_iff_has.mpr href)

theorem slot_of_no_group (hwf : collapse.graph.WellFormed) {node : Node}
    (hnode : collapse.graph.node? ref = some node) :
    collapse.slot ref = some node := by
  have hgroup : collapse.group? ref = none := by
    rw [group?, hgroups]
    rfl
  have hshape : collapse.graph.shape? ref = some node.shape :=
    Graph.shape?_of_node? hnode
  rw [slot, hgroup, hnode]
  refine congrArg some ((carry_of_keeps h hnode collapse.passage).trans ?_)
  rw [Shape.mapRefs_eq_self fun child hchild =>
    redirect_of_no_group h hgroups (hwf.children hshape child hchild)]

theorem draft_node?_of_no_group (hwf : collapse.graph.WellFormed) (ref : Ref) :
    (collapse.draft collapse.passage).node? ref = collapse.graph.node? ref := by
  rw [Builder.node?, draft_slots, leaders_of_no_group h hgroups, Graph.refs,
    List.getElem?_map]
  cases hnode : collapse.graph.node? ref with
  | some node =>
      have hlt : ref.index < collapse.graph.size :=
        Graph.has_iff.mp (Graph.has_iff_node?.mpr ⟨node, hnode⟩)
      rw [List.getElem?_range hlt]
      exact congrArg Option.join
        (congrArg some (slot_of_no_group h hgroups hwf hnode))
  | none =>
      have hnone : (List.range collapse.graph.size)[ref.index]? = none := by
        rw [List.getElem?_eq_none_iff, List.length_range]
        exact Array.getElem?_eq_none_iff.mp hnode
      rw [hnone]
      rfl

theorem run_eq_self {embed : GraphFault → ε}
    {build : Passage → Site → Builder → Except ε ((Ref × α) × Builder)}
    {collapsed : Collapsed α}
    (hrun : collapse.run embed build = .ok collapsed) :
    collapsed.graph = collapse.graph := by
  obtain ⟨hready, reports, built, named, graph, hconstruct, hnamed,
    hgraph, rfl⟩ :=
    run_eq_ok_iff.mp hrun
  obtain ⟨hfull, rfl, _⟩ := Builder.toGraph_eq_ok_iff.mp hgraph
  have hsites : collapse.sites collapse.passage = [] := by
    rw [sites, hgroups]
    rfl
  rw [hsites] at hconstruct
  obtain ⟨_, rfl⟩ := Prod.mk.inj (Except.ok.inj hconstruct)
  have hnodes (ref : Ref) :
      named.filled.node? ref = collapse.graph.node? ref := by
    rw [Builder.node?_filled hfull, Builder.node?, slots_nameRoots hnamed]
    exact draft_node?_of_no_group h hgroups hready.wellFormed ref
  have hroots : named.roots = collapse.graph.roots := by
    obtain ⟨roots, hroots, hiff⟩ := hready.exists_nameRoots (.refl _) rfl
    obtain rfl := Except.ok.inj (hnamed.symm.trans hroots)
    apply NameMap.ext_find?
    intro name
    ext target
    rw [hiff]
    constructor
    · rintro ⟨old, hold, rfl⟩
      rw [redirect_of_no_group h hgroups (hready.wellFormed.roots hold)]
      exact hold
    · exact fun hold => ⟨target, hold,
        redirect_of_no_group h hgroups (hready.wellFormed.roots hold)⟩
  exact Graph.ext_node? hnodes hroots

end Alone

end Collapse

end ShapeMerge
