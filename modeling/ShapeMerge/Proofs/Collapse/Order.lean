import ShapeMerge.Proofs.Collapse.Realization

namespace ShapeMerge.Collapse

variable {collapse : Collapse} {ref other : Ref}

theorem leaders_ordered (collapse : Collapse) :
    collapse.leaders.Pairwise (· < ·) :=
  collapse.graph.refs_ordered.sublist List.filter_sublist

theorem leaders_map_redirect (collapse : Collapse) :
    collapse.leaders.map collapse.passage.redirect =
      (List.range collapse.leaders.length).map Ref.mk := by
  apply List.ext_getElem
  · simp
  · intro index hindex _
    rw [List.length_map] at hindex
    obtain ⟨href, hself⟩ := mem_leaders_iff.mp (List.getElem_mem hindex)
    rw [List.getElem_map, List.getElem_map, List.getElem_range,
      redirect_eq href, hself, (leaders_nodup collapse).idxOf_getElem]

theorem redirect_lt (href : ref ∈ collapse.leaders)
    (hother : other ∈ collapse.leaders) (h : ref < other) :
    collapse.passage.redirect ref < collapse.passage.redirect other := by
  have hplaces : collapse.leaders.Pairwise fun x y =>
      collapse.passage.redirect x < collapse.passage.redirect y := by
    rw [← List.pairwise_map, leaders_map_redirect]
    exact List.pairwise_map.mpr List.pairwise_lt_range
  have hboth := (leaders_ordered collapse).and hplaces
  rcases or_of_pairwise hboth href hother
    (fun heq => Nat.lt_irrefl _ (heq ▸ h)) with
    ⟨_, hlt⟩ | ⟨hback, _⟩
  · exact hlt
  · exact absurd h (Nat.lt_asymm hback)

theorem earliest_of_ordered {group : List Ref} (h : group.Pairwise (· < ·))
    {first : Ref} (hfirst : group.head? = some first) :
    earliest group = first := by
  obtain ⟨rest, rfl⟩ := List.head?_eq_some_iff.mp hfirst
  rcases List.mem_cons.mp (earliest_mem (List.cons_ne_nil first rest)) with
    heq | hmem
  · exact heq
  · exact absurd (List.rel_of_pairwise_cons h hmem)
      (Nat.not_lt.mpr (earliest_le List.mem_cons_self))

theorem draft_has_iff {target : Ref} :
    (collapse.draft collapse.passage).has target = true ↔
      target.index < collapse.leaders.length := by
  rw [Builder.has_iff, Builder.size, draft, List.size_toArray, List.length_map]

namespace Realizes

variable {graph : Graph} {built : Builder}

theorem has_of_draft (h : collapse.Realizes graph built) {target : Ref}
    (htarget : (collapse.draft collapse.passage).has target = true) :
    graph.has target = true := by
  obtain ⟨node, hnode⟩ :=
    (Builder.reserved_or_filled (h.draft.has htarget)).resolve_left
      (h.full target)
  exact Graph.has_iff_node?.mpr ⟨node, (h.node? target).trans hnode⟩

theorem exists_refs (h : collapse.Realizes graph built) :
    ∃ added,
      graph.refs = collapse.leaders.map collapse.passage.redirect ++ added ∧
      ∀ ref ∈ collapse.leaders, collapse.passage.redirect ref ∉ added := by
  have hsize : collapse.leaders.length ≤ graph.size := by
    by_contra hless
    have hhas := h.has_of_draft (draft_has_iff.mpr (Nat.not_le.mp hless) :
      (collapse.draft collapse.passage).has ⟨graph.size⟩ = true)
    exact Nat.lt_irrefl _ (Graph.has_iff.mp hhas)
  obtain ⟨count, hcount⟩ := Nat.exists_eq_add_of_le hsize
  have hrefs : graph.refs = collapse.leaders.map collapse.passage.redirect ++
      ((List.range count).map (collapse.leaders.length + ·)).map Ref.mk := by
    rw [Graph.refs, hcount, List.range_add, List.map_append,
      leaders_map_redirect]
  refine ⟨_, hrefs, fun ref href hmem => ?_⟩
  have hapart := (List.nodup_append.mp (hrefs ▸ graph.refs_nodup)).2.2
  exact hapart _ (List.mem_map_of_mem href) _ hmem rfl

/-- What holds of places of leaders alone holds, in order, of the places of
those leaders whose places it holds of. -/
theorem filter_refs (h : collapse.Realizes graph built) {holds : Ref → Bool}
    (hplaces : ∀ target, holds target = true →
      ∃ ref ∈ collapse.leaders, collapse.passage.redirect ref = target) :
    graph.refs.filter holds = (collapse.leaders.filter fun ref =>
      holds (collapse.passage.redirect ref)).map collapse.passage.redirect := by
  obtain ⟨added, hrefs, hadded⟩ := h.exists_refs
  have hnone : added.filter holds = [] := by
    rw [List.filter_eq_nil_iff]
    intro target htarget hholds
    obtain ⟨ref, href, rfl⟩ := hplaces target hholds
    exact hadded ref href htarget
  rw [hrefs, List.filter_append, hnone, List.append_nil, List.filter_map]
  rfl

theorem kind?_leader (h : collapse.Realizes graph built)
    (hrecords : collapse.OfRecords) (href : ref ∈ collapse.leaders) :
    graph.kind? (collapse.passage.redirect ref) =
      collapse.graph.loweredKind? collapse.policy ref := by
  rw [h.kind?_eq, Builder.kind?_of_full h.full,
    h.draft.promised?_eq (hrecords.draft_has (mem_leaders_iff.mp href).1),
    hrecords.promised?_leader href]

end Realizes

end ShapeMerge.Collapse
