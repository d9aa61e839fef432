import ShapeMerge.Proofs.Builder.History
import ShapeMerge.Proofs.Graph.Descent

namespace ShapeMerge

/-!
The order in which a builder is filled.  Only a record is put into a slot that
others can refer to already; whatever else is made refers to slots that are
there.  So the graphs that a builder hands out are descending.
-/

namespace Builder

/-- Parts of a slot that holds no record come before it, unless they are records
or are going to be. -/
structure Descending (builder : Builder) : Prop where
  part : ∀ {ref shape}, builder.shape? ref = some shape → shape.kind ≠ .record →
    ∀ child ∈ shape.children,
      builder.promised? child = some .record ∨ child < ref

variable {builder before after : Builder}

theorem Descending.of_slots (h : before.Descending)
    (hslots : after.slots = before.slots) : after.Descending where
  part {ref shape} hshape hplain child hchild := by
    rw [shape?, node?, hslots] at hshape
    rw [promised?, hslots]
    exact h.part hshape hplain child hchild

theorem Descending.of_extends (h : before.Descending)
    (hext : before.Extends after)
    (hnew : ∀ {ref shape}, after.shape? ref = some shape →
      before.shape? ref = some shape ∨ shape.kind = .record ∨
        ¬ before.has ref = true ∧
        ∀ child ∈ shape.children, before.has child = true) :
    after.Descending where
  part {ref shape} hshape hplain child hchild := by
    rcases hnew hshape with hold | hrecord | ⟨hadded, hhas⟩
    · exact (h.part hold hplain child hchild).imp_left hext.promised
    · exact absurd hrecord hplain
    · rw [has_iff, Nat.not_lt] at hadded
      exact Or.inr (Nat.lt_of_lt_of_le (has_iff.mp (hhas child hchild)) hadded)

theorem Descending.append (h : builder.Descending)
    {shape : Shape} (hints : Hints)
    (hhas : ∀ child ∈ shape.children, builder.has child = true) :
    (builder.append shape hints).2.Descending := by
  refine h.of_extends (builder.grows_append shape hints).toExtends
    fun {ref other} hother => ?_
  by_cases href : builder.has ref = true
  · rw [shape?_append_of_has href] at hother
    exact Or.inl hother
  · rcases shape?_of_shape?_append hother with hold | rfl
    · exact Or.inl hold
    · exact Or.inr (Or.inr ⟨href, hhas⟩)

theorem Descending.has_of_mem_flatten (h : builder.Descending)
    {members : List Ref} (hhas : ∀ member ∈ members, builder.has member = true)
    {ref : Ref} (href : ref ∈ builder.flatten members) :
    builder.has ref = true := by
  obtain ⟨member, hmember, ⟨alternatives, hshape, hmem⟩ | ⟨_, rfl⟩⟩ :=
    mem_flatten.mp href
  · rcases h.part hshape (fun heq => nomatch heq) ref hmem with hpromised | hlt
    · exact has_of_promised? hpromised
    · exact has_iff.mpr (Nat.lt_trans hlt (has_iff.mp (hhas member hmember)))
  · exact hhas ref hmember

theorem Descending.change (h : before.Descending)
    (hchange : Change before after) : after.Descending := by
  cases hchange with
  | reserve =>
      exact h.of_extends (before.extends_push none) fun hshape =>
        Or.inl (shape?_of_shape?_reserve hshape)
  | append hints hmembers hchildren hkept => exact h.append hints hchildren
  | union hints hhas hkinds =>
      exact h.append hints fun ref href =>
        h.has_of_mem_flatten hhas (List.mem_eraseDups.mp href)
  | fill hhas hfill =>
      refine h.of_extends (extends_fill hfill rfl) fun hshape => ?_
      rcases shape?_of_shape?_fill hfill hshape with hold | rfl
      · exact Or.inl hold
      · exact Or.inr (Or.inl rfl)
  | root hhas hfree => exact h.of_slots rfl

theorem descending_start (policy : FormatPolicy) :
    (start policy).Descending where
  part hshape := by
    obtain ⟨node, hnode, _⟩ := Option.map_eq_some_iff.mp hshape
    rw [node?_eq_some_iff] at hnode
    cases hnode

theorem Descending.toGraph (h : builder.Descending) {graph : Graph}
    (hgraph : builder.toGraph = .ok graph) : graph.Descending := by
  obtain ⟨hfull, rfl, _⟩ := toGraph_eq_ok_iff.mp hgraph
  refine ⟨fun {parent child} hrefers hparent hrecord => ?_⟩
  obtain ⟨shape, hshape, hchild⟩ := hrefers
  rw [Graph.kind?_of_shape? hshape, ne_eq, Option.some.injEq] at hparent
  rw [shape?_filled hfull] at hshape
  rw [kind?_filled hfull] at hrecord
  exact (h.part hshape hparent child hchild).resolve_left hrecord

end Builder

end ShapeMerge
