import ShapeMerge.Proofs.Builder.Descent
import ShapeMerge.Proofs.Collapse.Faithful
import ShapeMerge.Proofs.Collapse.Order

namespace ShapeMerge

/-!
Collapsing a descending graph yields a descending graph, whatever is grouped.
Copied nodes keep their order, a union is bypassed for a member, which is a
record or comes before the union, and the node of a group is a record.
-/

namespace Collapse

open Builder

variable {collapse : Collapse} {ref part : Ref}

section Draft

variable (h : collapse.Ready)

include h

theorem Ready.record_or_leader (hhas : collapse.graph.has part = true)
    (hsurvivor : collapse.survivor? part = none) :
    (collapse.draft collapse.passage).promised?
        (collapse.passage.redirect part) = some .record ∨
      part ∈ collapse.leaders ∧ collapse.graph.kind? part ≠ some .record := by
  cases hgroup : collapse.group? part with
  | some group =>
      obtain ⟨hmem, hin⟩ := mem_of_group? hgroup
      have hreserved := h.draft_reserved_iff.mpr ⟨group, hmem, rfl⟩
      rw [h.redirect_of_mem hmem hin (h.earliest_mem hmem)]
      exact Or.inl (promised?_of_reserved hreserved)
  | none =>
      by_cases hkind : collapse.graph.kind? part = some .record
      · left
        rw [h.promised?_copied hhas hgroup hsurvivor, Graph.loweredKind?, hkind]
        rfl
      · exact Or.inr
          ⟨mem_leaders_iff.mpr ⟨hhas, leader_of_none hgroup hsurvivor⟩, hkind⟩

theorem Ready.redirect_part (href : ref ∈ collapse.leaders)
    (hhas : collapse.graph.has part = true)
    (hsurvivor : collapse.survivor? part = none)
    (hpart : collapse.graph.kind? part ≠ some .record → part < ref) :
    (collapse.draft collapse.passage).promised?
        (collapse.passage.redirect part) = some .record ∨
      collapse.passage.redirect part < collapse.passage.redirect ref := by
  refine (h.record_or_leader hhas hsurvivor).imp_right fun hleader => ?_
  exact redirect_lt hleader.1 href (hpart hleader.2)

theorem Ready.descending_draft (hgraph : collapse.graph.Descending) :
    (collapse.draft collapse.passage).Descending where
  part {target shape} hshape hplain child hchild := by
    obtain ⟨found, hfound, rfl⟩ := Option.map_eq_some_iff.mp hshape
    obtain ⟨ref, node, hnode, hgroup, hsurvivor, rfl, rfl⟩ :=
      h.exists_source hfound
    obtain ⟨part, hpart, hfollow⟩ := h.exists_part hnode hchild
    have hold : collapse.graph.shape? ref = some node.shape :=
      Graph.shape?_of_node? hnode
    have hhas := h.wellFormed.children hold part hpart
    have hleader : ref ∈ collapse.leaders :=
      mem_leaders_iff.mpr ⟨Graph.has_iff_shape?.mpr ⟨_, hold⟩,
        leader_of_none hgroup hsurvivor⟩
    have hkind : collapse.graph.kind? ref ≠ some .record := by
      intro hrecord
      have hsame : node.kind = .record :=
        Option.some.inj ((Graph.kind?_of_shape? hold).symm.trans hrecord)
      exact hplain ((kind_carry collapse _ node).trans
        (congrArg collapse.policy.lowerKind hsame))
    have hdown : collapse.graph.kind? part ≠ some .record → part < ref :=
      hgraph.part ⟨node.shape, hold, hpart⟩ hkind
    obtain rfl : collapse.passage.redirect part = child :=
      Except.ok.inj ((follow_eq_ok hhas).symm.trans hfollow)
    cases hbypassed : collapse.survivor? part with
    | none => exact h.redirect_part hleader hhas hbypassed hdown
    | some only =>
        obtain ⟨_, alternatives, hunion, hkept⟩ :=
          survivor?_eq_some_iff.mp hbypassed
        have hmember := Graph.mem_of_survivor? hkept
        have hpartKind : collapse.graph.kind? part ≠ some .record := by
          simp [Graph.kind?_of_shape? hunion, Shape.kind]
        rw [h.redirect_of_survivor hhas hbypassed]
        apply h.redirect_part hleader
          (h.wellFormed.children hunion only hmember)
          (survivor?_of_survivor hbypassed)
        intro honly
        exact Nat.lt_trans (hgraph.part ⟨_, hunion, hmember⟩ hpartKind honly)
          (hdown hpartKind)

end Draft

theorem run_descending {embed : GraphFault → ε}
    {build : Passage → Site → Builder → Except ε ((Ref × α) × Builder)}
    {collapsed : Collapsed α} (hbuild : ∀ {site builder result after},
      build collapse.passage site builder = .ok (result, after) →
      Changes builder after) (hgraph : collapse.graph.Descending)
    (h : collapse.run embed build = .ok collapsed) :
    collapsed.graph.Descending := by
  obtain ⟨hready, reports, built, named, graph, hconstruct, hnamed,
    hfinal, rfl⟩ :=
    run_eq_ok_iff.mp h
  have hrefl (builder : Builder) : Changes builder builder := .refl
  have hchanges :=
    construct_preserves hrefl Relation.ReflTransGen.trans hbuild hconstruct
  have hbuilt : built.Descending :=
    hchanges.preserve (fun hchange h => h.change hchange)
      (hready.descending_draft hgraph)
  exact (hbuilt.of_slots (slots_nameRoots hnamed)).toGraph hfinal

theorem Operates.changes
    {build : Site → Builder → Except ε ((Ref × α) × Builder)}
    (h : Operates build) {site : Site} {builder after : Builder}
    {result : Ref × α} (hbuild : build site builder = .ok (result, after)) :
    Changes builder after := by
  obtain ⟨history, rfl⟩ := h hbuild
  exact builder.changes_replay history

end Collapse

end ShapeMerge
