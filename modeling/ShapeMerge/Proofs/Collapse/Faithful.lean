import ShapeMerge.Proofs.Collapse.Run

namespace ShapeMerge

/-!
What a collapse yields whatever its constructor does, as long as it changes the
builder by operations alone.  Filled slots stay as they are, and a reserved slot
can only become a record, so copied nodes, groups and roots are found where the
passage leads.
-/

namespace Collapse

open Builder

/-- A constructor that changes the builder by operations alone, as many as it
likes and failed ones included.  Which operations it chooses may depend on
everything that it can see; one that remembers earlier sites is covered, since
in any one run its choices depend on the number of the site. -/
def Operates (build : Site → Builder → Except ε ((Ref × α) × Builder)) : Prop :=
  ∀ {site builder result after}, build site builder = .ok (result, after) →
    ∃ history, after = builder.replay history

section Construct

variable {build : Site → Builder → Except ε ((Ref × α) × Builder)}
  {embed : GraphFault → ε}

end Construct

section Roots

variable {passage : Passage} {entries : List (String × Ref)}
  {builder named : Builder}

end Roots

section Run

variable {collapse : Collapse} {built : Builder}

theorem Ready.exists_record (h : collapse.Ready)
    (hext : (collapse.draft collapse.passage).Extends built)
    (hfull : ∀ target, ¬ built.Reserved target)
    {group : List Ref} (hgroup : group ∈ collapse.groups) :
    ∃ content,
      built.filled.record? (collapse.passage.redirect (earliest group)) =
        some content := by
  have hreserved := h.draft_reserved_iff.mpr ⟨group, hgroup, rfl⟩
  have hkind := hext.promised (promised?_of_reserved hreserved)
  rw [← kind?_filled hfull] at hkind
  obtain ⟨content, hcontent⟩ := Graph.shape?_of_kind?_record hkind
  exact ⟨content, Graph.record?_eq_some_iff.mpr hcontent⟩

theorem Ready.exists_part (h : collapse.Ready) {ref child : Ref} {node : Node}
    (hnode : collapse.graph.node? ref = some node)
    (hchild : child ∈ (collapse.carry collapse.passage node).shape.children) :
    ∃ old ∈ node.shape.children, collapse.passage.follow old = .ok child := by
  rw [shape_carry, Shape.children_lower, Shape.children_mapRefs] at hchild
  obtain ⟨old, hold, rfl⟩ := List.mem_map.mp hchild
  have hpart := children_narrowed hold
  have hshape : collapse.graph.shape? ref = some node.shape :=
    Graph.shape?_of_node? hnode
  exact ⟨old, hpart, follow_eq_ok (h.wellFormed.children hshape old hpart)⟩

end Run

def dated : Collapse where
  graph := {
    nodes := #[
      ⟨.formatted .date, .blank⟩,
      ⟨.plainText, .blank⟩,
      ⟨.null, .blank⟩,
      ⟨.union [⟨2⟩, ⟨0⟩, ⟨1⟩], .inferredName "when"⟩,
      ⟨.record ⟨.ofList [("when", ⟨3⟩)], false⟩, .blank⟩,
      ⟨.record ⟨.ofList [("when", ⟨3⟩)], false⟩, .blank⟩]
    roots := .ofList [("first", ⟨4⟩), ("second", ⟨5⟩)] }
  policy := .allPlain
  groups := [[⟨5⟩, ⟨4⟩]]

/-- Makes a record of something else, names it, and tries to fill its slot
again. -/
def countInstead (site : Site) (builder : Builder) :
    Except GraphFault ((Ref × Unit) × Builder) :=
  .ok ((site.slot, ()), builder.replay [
    .primitive .integer,
    .record .blank ⟨.ofList [("count", builder.next)], false⟩ (some site.slot),
    .root "tally" site.slot,
    .record .blank ⟨∅, true⟩ (some site.slot)])

end Collapse

end ShapeMerge
