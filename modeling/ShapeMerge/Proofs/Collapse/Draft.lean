import ShapeMerge.Proofs.Builder.Settled
import ShapeMerge.Proofs.Collapse.Numbering

namespace ShapeMerge

namespace Shape

theorem children_mapRefs (move : Ref → Ref) (shape : Shape) :
    (shape.mapRefs move).children = shape.children.map move := by
  cases shape with
  | record content =>
      simp [mapRefs, children, NameMap.map, NameMap.values, Function.comp_def]
  | _ => rfl

theorem members_mapRefs (move : Ref → Ref) (shape : Shape) :
    (shape.mapRefs move).members = shape.members.map move := by
  cases shape <;> rfl

theorem kind_mapRefs (move : Ref → Ref) (shape : Shape) :
    (shape.mapRefs move).kind = shape.kind := by
  cases shape <;> rfl

theorem children_lower (policy : FormatPolicy) (shape : Shape) :
    (policy.lower shape).children = shape.children := by
  cases shape with
  | formatted format =>
      rw [FormatPolicy.lower]
      split <;> rfl
  | _ => rfl

theorem members_lower (policy : FormatPolicy) (shape : Shape) :
    (policy.lower shape).members = shape.members := by
  cases shape with
  | formatted format =>
      rw [FormatPolicy.lower]
      split <;> rfl
  | _ => rfl

end Shape

namespace Collapse

variable {collapse : Collapse} {ref target : Ref} {group : List Ref}

def narrowed (collapse : Collapse) : Shape → Shape
  | .union alternatives =>
      .union (collapse.graph.narrow collapse.policy alternatives)
  | shape => shape

theorem shape_carry (collapse : Collapse) (passage : Passage) (node : Node) :
    (collapse.carry passage node).shape = collapse.policy.lower
        ((collapse.narrowed node.shape).mapRefs passage.redirect) := by
  rw [carry]
  cases node.shape <;> rfl

theorem kind_narrowed (shape : Shape) :
    (collapse.narrowed shape).kind = shape.kind := by
  cases shape <;> rfl

theorem children_narrowed {shape : Shape} {child : Ref}
    (h : child ∈ (collapse.narrowed shape).children) :
    child ∈ shape.children := by
  cases shape with
  | union alternatives => exact (Graph.narrow_sublist alternatives).subset h
  | _ => exact h

theorem kind_carry (collapse : Collapse) (passage : Passage) (node : Node) :
    (collapse.carry passage node).kind =
      collapse.policy.lowerKind node.kind := by
  rw [Node.kind, shape_carry, FormatPolicy.kind_lower, Shape.kind_mapRefs,
    kind_narrowed]
  rfl

def slot (collapse : Collapse) (ref : Ref) : Option Node :=
  match collapse.group? ref with
  | some _ => none
  | none => (collapse.graph.node? ref).map (collapse.carry collapse.passage)

theorem draft_slots (collapse : Collapse) (index : Nat) :
    (collapse.draft collapse.passage).slots[index]? =
      collapse.leaders[index]?.map collapse.slot := by
  rw [draft, List.getElem?_toArray, List.getElem?_map]
  rfl

theorem exists_leader {found : Option Node}
    (hslot : (collapse.draft collapse.passage).slots[target.index]? =
      some found) :
    ∃ ref, collapse.graph.has ref = true ∧ collapse.leader ref = ref ∧
      collapse.passage.redirect ref = target ∧ collapse.slot ref = found := by
  rw [draft_slots] at hslot
  obtain ⟨ref, hleaders, hfound⟩ := Option.map_eq_some_iff.mp hslot
  obtain ⟨hlt, hget⟩ := List.getElem?_eq_some_iff.mp hleaders
  obtain ⟨href, hself⟩ := mem_leaders_iff.mp (List.mem_of_getElem? hleaders)
  refine ⟨ref, href, hself, ?_, hfound⟩
  rw [redirect_eq href, hself, ← hget, (leaders_nodup collapse).idxOf_getElem]

namespace Ready

theorem survivor?_leader (h : collapse.Ready) (ref : Ref) :
    collapse.survivor? (collapse.leader ref) = none := by
  have hplain {ref : Ref} (hsurvivor : collapse.survivor? ref = none) :
      collapse.survivor? (collapse.leader ref) = none := by
    cases hgroup : collapse.group? ref with
    | none =>
        rw [leader_of_none hgroup hsurvivor]
        exact hsurvivor
    | some group =>
        obtain ⟨hmem, href⟩ := mem_of_group? hgroup
        apply survivor?_eq_none_of_group
        rw [h.leader_of_mem hmem href,
          h.group?_of_mem hmem (h.earliest_mem hmem)]
        exact Option.some_ne_none group
  cases hsurvivor : collapse.survivor? ref with
  | none => exact hplain hsurvivor
  | some other =>
      rw [leader_of_survivor hsurvivor]
      exact hplain (survivor?_of_survivor hsurvivor)

theorem draft_redirect (h : collapse.Ready)
    (href : collapse.graph.has ref = true) :
    (collapse.draft collapse.passage).slots[(collapse.passage.redirect
      ref).index]? = some (collapse.slot (collapse.leader ref)) := by
  rw [draft_slots, redirect_eq href,
    List.getElem?_idxOf (h.leader_mem_leaders href)]
  rfl

theorem draft_reserved_iff (h : collapse.Ready) :
    (collapse.draft collapse.passage).Reserved target ↔
      ∃ group ∈ collapse.groups,
        collapse.passage.redirect (earliest group) = target := by
  constructor
  · intro hreserved
    obtain ⟨ref, href, hself, hredirect, hslot⟩ := exists_leader hreserved
    cases hgroup : collapse.group? ref with
    | none =>
        obtain ⟨node, hnode⟩ := Graph.has_iff_node?.mp href
        simp [slot, hgroup, hnode] at hslot
    | some group =>
        obtain ⟨hmem, hin⟩ := mem_of_group? hgroup
        refine ⟨group, hmem, ?_⟩
        rw [← h.leader_of_mem hmem hin, hself, hredirect]
  · intro hgroup
    obtain ⟨group, hmem, rfl⟩ := hgroup
    have hearliest := h.earliest_mem hmem
    rw [Builder.Reserved, h.draft_redirect (h.has_of_mem hmem hearliest),
      h.leader_of_mem hmem hearliest, slot, h.group?_of_mem hmem hearliest]

theorem draft_node? (h : collapse.Ready)
    {node : Node} (hnode : collapse.graph.node? ref = some node)
    (hgroup : collapse.group? ref = none)
    (hsurvivor : collapse.survivor? ref = none) :
    (collapse.draft collapse.passage).node? (collapse.passage.redirect ref) =
      some (collapse.carry collapse.passage node) := by
  have href := Graph.has_iff_node?.mpr ⟨node, hnode⟩
  rw [Builder.node?_eq_some_iff, h.draft_redirect href,
    leader_of_none hgroup hsurvivor, slot, hgroup, hnode]
  rfl

theorem exists_source (h : collapse.Ready) {found : Node}
    (hfound : (collapse.draft collapse.passage).node? target = some found) :
    ∃ ref node, collapse.graph.node? ref = some node ∧
      collapse.group? ref = none ∧
      collapse.survivor? ref = none ∧ collapse.passage.redirect ref = target ∧
      found = collapse.carry collapse.passage node := by
  rw [Builder.node?_eq_some_iff] at hfound
  obtain ⟨ref, href, hself, hredirect, hslot⟩ := exists_leader hfound
  have hsurvivor := h.survivor?_leader ref
  rw [hself] at hsurvivor
  obtain ⟨node, hnode⟩ := Graph.has_iff_node?.mp href
  cases hgroup : collapse.group? ref with
  | some group => simp [slot, hgroup] at hslot
  | none =>
      refine ⟨ref, node, hnode, hgroup, hsurvivor, hredirect, ?_⟩
      simpa [slot, hgroup, hnode, eq_comm] using hslot

theorem draft_has (h : collapse.Ready) (href : collapse.graph.has ref = true) :
    (collapse.draft collapse.passage).has (collapse.passage.redirect ref) =
      true := by
  rw [Builder.has_iff]
  exact (Array.getElem?_eq_some_iff.mp (h.draft_redirect href)).1

theorem promised?_copied (h : collapse.Ready)
    (href : collapse.graph.has ref = true) (hgroup : collapse.group? ref = none)
    (hsurvivor : collapse.survivor? ref = none) :
    (collapse.draft collapse.passage).promised?
        (collapse.passage.redirect ref) =
      collapse.graph.loweredKind? collapse.policy ref := by
  obtain ⟨node, hnode⟩ := Graph.has_iff_node?.mp href
  rw [Builder.promised?_of_node? (h.draft_node? hnode hgroup hsurvivor),
    kind_carry, Graph.loweredKind?, Graph.kind?, Graph.shape?, hnode]
  rfl

theorem exists_shape_source (h : collapse.Ready) {shape : Shape}
    (hshape : (collapse.draft collapse.passage).shape? target = some shape) :
    ∃ ref old, collapse.graph.shape? ref = some old ∧
      collapse.survivor? ref = none ∧ collapse.passage.redirect ref = target ∧
      shape.children =
        (collapse.narrowed old).children.map collapse.passage.redirect ∧
      shape.members =
        (collapse.narrowed old).members.map collapse.passage.redirect := by
  obtain ⟨found, hfound, rfl⟩ := Option.map_eq_some_iff.mp hshape
  obtain ⟨ref, node, hnode, _, hsurvivor, hredirect, rfl⟩ :=
    h.exists_source hfound
  refine ⟨ref, node.shape, Graph.shape?_of_node? hnode, hsurvivor,
    hredirect, ?_, ?_⟩
  · rw [shape_carry, Shape.children_lower, Shape.children_mapRefs]
  · rw [shape_carry, Shape.members_lower, Shape.members_mapRefs]

theorem draft_children (h : collapse.Ready) {shape : Shape}
    (hshape : (collapse.draft collapse.passage).shape? target = some shape)
    {child : Ref} (hchild : child ∈ shape.children) :
    (collapse.draft collapse.passage).has child = true := by
  obtain ⟨ref, old, hold, _, _, hchildren, _⟩ := h.exists_shape_source hshape
  rw [hchildren] at hchild
  obtain ⟨source, hmem, rfl⟩ := List.mem_map.mp hchild
  exact h.draft_has (h.wellFormed.children hold source (children_narrowed hmem))

end Ready

/-- What a merge pass collapses: groups of records in a flat graph. -/
structure OfRecords (collapse : Collapse) : Prop extends Ready collapse where
  flat : collapse.graph.Flat
  records : ∀ group ∈ collapse.groups,
    ∀ ref ∈ group, collapse.graph.kind? ref = some .record

namespace OfRecords

theorem promised?_redirect (h : collapse.OfRecords)
    (href : collapse.graph.has ref = true)
    (hkind : collapse.graph.kind? ref ≠ some .union) :
    (collapse.draft collapse.passage).promised?
        (collapse.passage.redirect ref) =
      collapse.graph.loweredKind? collapse.policy ref := by
  cases hgroup : collapse.group? ref with
  | none =>
      exact h.promised?_copied href hgroup (survivor?_eq_none_of_kind hkind)
  | some group =>
      obtain ⟨hmem, hin⟩ := mem_of_group? hgroup
      have hreserved := h.draft_reserved_iff.mpr ⟨group, hmem, rfl⟩
      rw [h.redirect_of_mem hmem hin (h.earliest_mem hmem),
        Builder.promised?_of_reserved hreserved,
        Graph.loweredKind?, h.records group hmem ref hin]
      rfl

theorem promised?_leader (h : collapse.OfRecords)
    (href : ref ∈ collapse.leaders) :
    (collapse.draft collapse.passage).promised?
        (collapse.passage.redirect ref) =
      collapse.graph.loweredKind? collapse.policy ref := by
  obtain ⟨hhas, hself⟩ := mem_leaders_iff.mp href
  by_cases hkind : collapse.graph.kind? ref = some .union
  · have hgroup : collapse.group? ref = none := by
      rw [group?_eq_none_iff]
      intro group hgroup hmem
      rw [h.records group hgroup ref hmem] at hkind
      cases hkind
    have hsurvivor := h.survivor?_leader ref
    rw [hself] at hsurvivor
    exact h.promised?_copied hhas hgroup hsurvivor
  · exact h.promised?_redirect hhas hkind

theorem exists_promised_source (h : collapse.OfRecords) {kind : Kind}
    (hpromised : (collapse.draft collapse.passage).promised? target =
      some kind) :
    ∃ ref ∈ collapse.leaders, collapse.passage.redirect ref = target ∧
      collapse.graph.loweredKind? collapse.policy ref = some kind := by
  obtain ⟨found, hfound, _⟩ := Option.map_eq_some_iff.mp hpromised
  obtain ⟨ref, href, hself, rfl, _⟩ := exists_leader hfound
  have hleader := mem_leaders_iff.mpr ⟨href, hself⟩
  exact ⟨ref, hleader, rfl, by rw [← h.promised?_leader hleader, hpromised]⟩

theorem promised?_members (h : collapse.OfRecords) {alternatives : List Ref}
    (hshape : collapse.graph.shape? ref = some (.union alternatives))
    {members : List Ref} (hsub : members ⊆ alternatives) :
    (members.map collapse.passage.redirect).map
        (collapse.draft collapse.passage).promised? =
      members.map (collapse.graph.loweredKind? collapse.policy) := by
  rw [List.map_map]
  apply List.map_congr_left
  intro member hmember
  exact h.promised?_redirect
    (h.wellFormed.children hshape member (hsub hmember))
    (h.flat.flat hshape member (hsub hmember))

theorem narrowed_members (h : collapse.OfRecords) {old : Shape}
    (hold : collapse.graph.shape? ref = some old) :
    (((collapse.narrowed old).members.map collapse.passage.redirect).map
      (collapse.draft collapse.passage).promised?).Nodup ∧
      ∀ kind ∈
        ((collapse.narrowed old).members.map collapse.passage.redirect).map
          (collapse.draft collapse.passage).promised?,
        kind ≠ some .union := by
  cases old with
  | union alternatives =>
      rw [narrowed, Shape.members,
        h.promised?_members hold (Graph.narrow_sublist alternatives).subset]
      refine ⟨Graph.narrow_kinds collapse.policy (h.wellFormed.kinds hold),
        fun kind hkind heq => ?_⟩
      obtain ⟨member, hmember, hlower⟩ := List.mem_map.mp hkind
      apply h.flat.flat hold member
        ((Graph.narrow_sublist alternatives).subset hmember)
      exact Graph.kind?_of_loweredKind? (by decide) (hlower.trans heq)
  | _ => exact ⟨List.nodup_nil, List.forall_mem_nil _⟩

theorem settled_draft (h : collapse.OfRecords) :
    (collapse.draft collapse.passage).Settled := by
  refine ⟨⟨fun {target shape} hshape => ⟨?_, ?_⟩⟩,
    fun {target shape} hshape => ?_⟩
  · intro child hchild
    exact h.draft_children hshape hchild
  · intro member hmember
    obtain ⟨ref, old, hold, _, _, _, hmembers⟩ := h.exists_shape_source hshape
    rw [hmembers] at hmember
    exact (h.narrowed_members hold).2 _ (List.mem_map_of_mem hmember)
  · obtain ⟨ref, old, hold, _, _, _, hmembers⟩ := h.exists_shape_source hshape
    rw [hmembers]
    exact (h.narrowed_members hold).1

end OfRecords

end Collapse

end ShapeMerge
