import ShapeMerge.Proofs.Builder.Attempt

namespace ShapeMerge

/-!
Making a shape nullable adds `null` to it and nothing else.  That holds at once,
and also for good: whatever is built afterwards, a slot that is still reserved
filled included, the shape made admits `null` and has the other alternatives of
the shape that it was made from.
-/

namespace Builder

variable {builder after : Builder} {hints : Hints} {ref made : Ref}

theorem flatten_of_union {alternatives : List Ref}
    (h : builder.shape? ref = some (.union alternatives)) :
    builder.flatten [ref] = alternatives := by
  rw [flatten, List.flatMap_singleton, h]

theorem Widened.admits (h : builder.Widened ref made) :
    ∃ member ∈ builder.flatten [made], builder.kind? member = some .null := by
  rcases h with ⟨rfl, hadmits⟩ | ⟨null, hnull, hmade⟩
  · exact hadmits
  · refine ⟨null, ?_, ?_⟩
    · rw [flatten_of_union hmade]
      exact List.mem_cons_self
    · rw [kind?, hnull]
      rfl

theorem Widened.has_made (h : builder.Widened ref made)
    (href : builder.has ref = true) : builder.has made = true := by
  rcases h with ⟨rfl, _⟩ | ⟨_, _, hmade⟩
  · exact href
  · exact has_of_promised? (promised?_of_shape? hmade)

theorem Suits.made_union {members : List Ref}
    (h : builder.Suits (.union members))
    (hunion : builder.union hints members = .ok (made, after)) :
    builder.Grows after ∧ after.shape? made = some (.union members) := by
  obtain ⟨_, _, hresult⟩ := union_eq_ok_iff.mp hunion
  rw [h.flatten_eraseDups] at hresult
  have hgrows := builder.grows_append (.union members) hints
  have hmade := builder.shape?_append (.union members) hints
  rw [← hresult] at hgrows hmade
  exact ⟨hgrows, hmade⟩

theorem Orderly.widened_of_nullable (h : builder.Orderly)
    (hmake : builder.nullable hints ref = (.ok made, after)) :
    builder.has ref = true ∧ builder.Grows after ∧ after.Widened ref made := by
  by_cases href : builder.has ref = true
  swap
  · rw [nullable_of_missing href] at hmake
    cases hmake
  by_cases hadmits :
    ∃ member ∈ builder.flatten [ref], builder.kind? member = some .null
  · rw [nullable_of_admitting href hadmits] at hmake
    cases hmake
    exact ⟨href, .refl builder, Or.inl ⟨rfl, hadmits⟩⟩
  have habsent :
      ∀ member ∈ builder.flatten [ref], builder.kind? member ≠ some .null :=
    fun member hmember hkind => hadmits ⟨member, hmember, hkind⟩
  rw [nullable_of_absent href habsent] at hmake
  split at hmake
  · rename_i hunion
    cases hmake
    obtain ⟨hlast, hmade⟩ := (h.suits_widened href habsent).made_union hunion
    have hboth := (builder.grows_append (.primitive .null) .blank).trans hlast
    rw [← hboth.flatten_singleton href] at hmade
    exact ⟨href, hboth,
      Or.inr ⟨_, hlast.shape? (builder.shape?_append _ _), hmade⟩⟩
  · cases hmake

section Nodes

variable {graph : Graph}
  (hshapes : ∀ ref, graph.shape? ref = builder.shape? ref)

include hshapes

theorem kind?_eq (ref : Ref) : graph.kind? ref = builder.kind? ref := by
  rw [Graph.kind?, hshapes, kind?]

theorem flatten_singleton_cases (ref : Ref) :
    (∃ alternatives, graph.shape? ref = some (.union alternatives) ∧
        builder.flatten [ref] = alternatives) ∨
      (graph.kind? ref ≠ some .union ∧ builder.flatten [ref] = [ref]) := by
  by_cases hunion : graph.kind? ref = some .union
  · obtain ⟨alternatives, hshape⟩ := Graph.shape?_of_kind?_union hunion
    exact Or.inl ⟨alternatives, hshape,
      flatten_of_union ((hshapes ref).symm.trans hshape)⟩
  · refine Or.inr ⟨hunion, flatten_eq_self ?_⟩
    rw [kind?_eq hshapes] at hunion
    exact List.forall_mem_singleton.mpr hunion

theorem options_eq_filter_flatten (ref : Ref) :
    graph.options ref = (builder.flatten [ref]).filter graph.isPlain := by
  rcases flatten_singleton_cases hshapes ref with
    ⟨alternatives, hshape, hflatten⟩ | ⟨hkind, hflatten⟩
  · rw [Graph.options_of_union (Graph.kind?_of_shape? hshape),
      Graph.members_of_shape? hshape, hflatten]
    rfl
  · rw [Graph.options_of_not_union hkind, hflatten]

theorem Widened.options_eq (h : builder.Widened ref made) :
    graph.options made = graph.options ref := by
  rcases h with ⟨rfl, _⟩ | ⟨null, hnull, hmade⟩
  · rfl
  · have hplain : ¬ graph.isPlain null = true := by
      rw [Graph.isPlain_iff, Graph.kind?, hshapes, hnull]
      decide
    rw [options_eq_filter_flatten hshapes, options_eq_filter_flatten hshapes,
      flatten_of_union hmade, List.filter_cons_of_neg hplain]

theorem admits_null_iff :
    graph.Admits ref .null ↔
      ∃ member ∈ builder.flatten [ref], builder.kind? member = some .null := by
  simp only [← kind?_eq hshapes]
  rcases flatten_singleton_cases hshapes ref with
    ⟨alternatives, hshape, hflatten⟩ | ⟨hkind, hflatten⟩
  · rw [Graph.admits_of_union hshape (by decide), hflatten]
  · rw [Graph.admits_of_not_union hkind, hflatten]
    simp

end Nodes

section Later

variable {graph : Graph}

theorem Widened.of_toGraph (h : builder.Widened ref made)
    (hsound : builder.Sound) (href : builder.has ref = true)
    (hgraph : builder.toGraph = .ok graph) :
    graph.nullable made = true ∧
      ∃ options, graph.alternatives made = .ok options ∧
        graph.alternatives ref = .ok options := by
  have hflat := hsound.flat_of_toGraph hgraph
  obtain ⟨hfull, rfl, _⟩ := toGraph_eq_ok_iff.mp hgraph
  have hshapes := shape?_filled hfull
  refine ⟨hflat.nullable_iff_admits.mpr
    ((admits_null_iff hshapes).mpr h.admits),
    builder.filled.options ref, ?_, ?_⟩
  · rw [hflat.alternatives_eq_ok
      ((has_filled hfull made).trans (h.has_made href)), h.options_eq hshapes]
  · exact hflat.alternatives_eq_ok ((has_filled hfull ref).trans href)

theorem nullable_adds_null (policy : FormatPolicy) (history : List Operation)
    (h : ((start policy).replay history).nullable hints ref =
      (.ok made, after)) :
    (∀ again, after.nullable again made = (.ok made, after)) ∧
      (∀ {slot node}, ((start policy).replay history).node? slot = some node →
        after.node? slot = some node) ∧
      ∀ later {graph}, (after.replay later).toGraph = .ok graph →
        graph.nullable made = true ∧
          ∃ options, graph.alternatives made = .ok options ∧
            graph.alternatives ref = .ok options := by
  have horderly := (orderly_start policy).replay history
  obtain ⟨href, hgrows, hwidened⟩ := horderly.widened_of_nullable h
  have hhas := hgrows.toExtends.has href
  refine ⟨fun again => nullable_of_admitting (hwidened.has_made hhas)
    hwidened.admits, hgrows.filled, fun later graph hgraph => ?_⟩
  have hafter := (changes_nullable _ hints ref).preserve
    (fun hchange h => h.change hchange) horderly
  rw [h] at hafter
  have hsafe := safe_replay after later
  exact (hwidened.mono hsafe.toExtends hhas).of_toGraph
    (hsafe.sound hafter.sound) (hsafe.has hhas) hgraph

/-- A slot is made nullable while it is reserved. -/
def ahead : Builder :=
  empty.replay [.reserve, .nullable .blank ⟨0⟩]

/-- The slot gets a record that leads back to what was made of it. -/
def closing : Operation :=
  .record .blank ⟨.ofList [("next", ⟨2⟩)], false⟩ (some ⟨0⟩)

theorem nullable_of_reserved :
    (empty.replay [.reserve]).nullable .blank ⟨0⟩ = (.ok ⟨2⟩, ahead) ∧
      ∃ graph, (ahead.replay [closing]).toGraph = .ok graph ∧
        graph.nullable ⟨2⟩ = true ∧
        ∃ options, graph.alternatives ⟨2⟩ = .ok options ∧
          graph.alternatives ⟨0⟩ = .ok options := by
  have hmake :
      (empty.replay [.reserve]).nullable .blank ⟨0⟩ = (.ok ⟨2⟩, ahead) := by
    decide +kernel
  have hok : (ahead.replay [closing]).toGraph.isOk = true := by decide +kernel
  cases hgraph : (ahead.replay [closing]).toGraph with
  | error fault =>
      rw [hgraph] at hok
      cases hok
  | ok graph =>
      exact ⟨hmake, graph, rfl,
        (nullable_adds_null .lenient [.reserve] hmake).2.2 [closing] hgraph⟩

end Later

end Builder

end ShapeMerge
