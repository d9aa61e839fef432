import ShapeMerge.Proofs.Merging.Pass
import ShapeMerge.Proofs.Merging.Steps

namespace ShapeMerge

/-!
What merging records adds to a builder.  Besides the merged records themselves,
which have their slots already, it makes nodes for `null`, for texts and for
unions, so every record and every format of the merged graph is in a slot of the
draft.
-/

def Kind.Auxiliary (kind : Kind) : Prop :=
  kind = .null ∨ kind = .text ∨ kind = .union

theorem Kind.not_auxiliary_record : ¬ Kind.record.Auxiliary := by
  simp [Auxiliary, null]

theorem Kind.not_auxiliary_formatted (format : Format) :
    ¬ (Kind.formatted format).Auxiliary := by
  simp [Auxiliary, null]

namespace Builder

/-- Slots may be added for auxiliary nodes only, and no slot changes its
kind. -/
structure Supplements (before after : Builder) : Prop where
  kinds : ∀ {ref kind}, after.promised? ref = some kind →
    before.promised? ref = some kind ∨ kind.Auxiliary

variable {first second third builder after : Builder} {made : Ref}
  {hints : Hints}

theorem Supplements.refl (builder : Builder) : builder.Supplements builder :=
  ⟨Or.inl⟩

theorem Supplements.trans (h : first.Supplements second)
    (h' : second.Supplements third) : first.Supplements third := by
  refine ⟨fun hkind => ?_⟩
  rcases h'.kinds hkind with hold | hauxiliary
  · exact h.kinds hold
  · exact Or.inr hauxiliary

theorem supplements_append {shape : Shape} (hkind : shape.kind.Auxiliary)
    (hints : Hints) : builder.Supplements (builder.append shape hints).2 := by
  refine ⟨fun {ref kind} hpromised => ?_⟩
  rw [promised?, append, slots_push] at hpromised
  split at hpromised
  · cases hpromised
    exact Or.inr hkind
  · exact Or.inl hpromised

theorem supplements_fill {slot : Ref} {content : Record}
    (h : builder.fill slot (.record content) hints = .ok (made, after)) :
    builder.Supplements after := by
  refine ⟨fun {ref kind} hpromised => ?_⟩
  have href : builder.has ref = true := by
    obtain ⟨_, _, rfl⟩ := fill_eq_ok_iff.mp h
    have hhas := has_of_promised? hpromised
    rw [has_iff, size, Array.size_setIfInBounds] at hhas
    exact has_iff.mpr hhas
  rw [(extends_fill h rfl).promised?_eq href] at hpromised
  exact Or.inl hpromised

theorem supplements_union {members : List Ref} {result : Ref × Builder}
    (h : builder.union hints members = .ok result) :
    builder.Supplements result.2 := by
  obtain ⟨_, _, rfl⟩ := union_eq_ok_iff.mp h
  exact supplements_append (Or.inr (Or.inr rfl)) hints

theorem supplements_primitive_null :
    builder.Supplements (builder.primitive .null).2 :=
  supplements_append (Or.inl rfl) .blank

theorem supplements_nullable (builder : Builder) (hints : Hints) (ref : Ref) :
    builder.Supplements (builder.nullable hints ref).2 := by
  rw [nullable]
  split
  · exact Supplements.refl builder
  · dsimp only
    split
    · exact Supplements.refl builder
    · split
      · rename_i hunion
        exact supplements_primitive_null.trans (supplements_union hunion)
      · exact supplements_primitive_null

theorem supplements_stepsOfMerge : StepsOfMerge Supplements where
  refl := .refl
  trans := .trans
  null _ := supplements_primitive_null
  text _ hints _ := supplements_append (Or.inr (Or.inl rfl)) hints
  nullable := supplements_nullable
  record h := supplements_fill (record_some_eq_ok_iff.mp h).2

end Builder

theorem Graph.exists_source_of_kind? [Share σ] {settings : Settings σ}
    {graph : Graph} (hflat : graph.Flat) {cliques : List (List Ref)}
    (hcliques : graph.cliques settings.overlap = .ok cliques) {pass : MergePass}
    (hpass : graph.mergeSimilar settings = .ok pass)
    {target : Ref} {kind : Kind} (hkind : pass.graph.kind? target = some kind)
    (hplain : ¬ kind.Auxiliary) :
    ∃ ref ∈ (graph.collapseOf settings.policy cliques).leaders,
      pass.passage.redirect ref = target ∧
      graph.loweredKind? settings.policy ref = some kind := by
  obtain ⟨_, others, collapsed, hothers, hrun, rfl⟩ :=
    mergeSimilar_eq_ok_iff.mp hpass
  obtain rfl := Except.ok.inj (hcliques.symm.trans hothers)
  obtain ⟨_, reports, built, named, merged, hconstruct, hnamed, hgraph, rfl⟩ :=
    Collapse.run_eq_ok_iff.mp hrun
  obtain ⟨hfull, rfl, _⟩ := Builder.toGraph_eq_ok_iff.mp hgraph
  have hsupplements := Collapse.construct_preserves Builder.Supplements.refl
    Builder.Supplements.trans
    (Passage.related_buildMerged Builder.supplements_stepsOfMerge) hconstruct
  have hpromised : built.promised? target = some kind := by
    rw [Builder.promised?, ← Collapse.slots_nameRoots hnamed]
    exact (Builder.kind?_filled hfull target).symm.trans hkind
  have hdraft := (hsupplements.kinds hpromised).resolve_right hplain
  exact (ofRecords_collapseOf hcliques hflat
    settings.policy).exists_promised_source hdraft

end ShapeMerge
