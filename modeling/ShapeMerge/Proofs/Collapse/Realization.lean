import ShapeMerge.Proofs.Collapse.Run

namespace ShapeMerge.Collapse.Realizes

variable {collapse : Collapse} {graph : Graph} {built : Builder}
  {ref member : Ref}

theorem shape?_eq (h : collapse.Realizes graph built) (ref : Ref) :
    graph.shape? ref = built.shape? ref := by
  rw [Graph.shape?, h.node?, Builder.shape?]

theorem kind?_eq (h : collapse.Realizes graph built) (ref : Ref) :
    graph.kind? ref = built.kind? ref := by
  rw [Graph.kind?, h.shape?_eq, Builder.kind?]

theorem node?_redirect (h : collapse.Realizes graph built)
    (hready : collapse.Ready)
    {node : Node} (hnode : collapse.graph.node? ref = some node)
    (hgroup : collapse.group? ref = none)
    (hsurvivor : collapse.survivor? ref = none) :
    graph.node? (collapse.passage.redirect ref) =
      some (collapse.carry collapse.passage node) := by
  rw [h.node?]
  exact h.draft.filled (hready.draft_node? hnode hgroup hsurvivor)

theorem shape?_redirect (h : collapse.Realizes graph built)
    (hready : collapse.Ready)
    {shape : Shape} (hshape : collapse.graph.shape? ref = some shape)
    (hgroup : collapse.group? ref = none)
    (hsurvivor : collapse.survivor? ref = none) :
    graph.shape? (collapse.passage.redirect ref) = some (collapse.policy.lower
      ((collapse.narrowed shape).mapRefs collapse.passage.redirect)) := by
  obtain ⟨node, hnode, rfl⟩ := Option.map_eq_some_iff.mp hshape
  rw [Graph.shape?, h.node?_redirect hready hnode hgroup hsurvivor,
    ← shape_carry]
  rfl

theorem kind?_redirect (h : collapse.Realizes graph built)
    (hrecords : collapse.OfRecords) (href : collapse.graph.has ref = true)
    (hkind : collapse.graph.kind? ref ≠ some .union) :
    graph.kind? (collapse.passage.redirect ref) =
      collapse.graph.loweredKind? collapse.policy ref := by
  rw [h.kind?_eq, Builder.kind?_of_full h.full,
    h.draft.promised?_eq (hrecords.draft_has href),
    hrecords.promised?_redirect href hkind]

theorem group?_eq_none (hrecords : collapse.OfRecords)
    (hkind : collapse.graph.kind? ref ≠ some .record) :
    collapse.group? ref = none := by
  rw [group?_eq_none_iff]
  intro group hgroup href
  exact hkind (hrecords.records group hgroup ref href)

theorem group?_eq_none_of_shape? (hrecords : collapse.OfRecords)
    {shape : Shape} (hshape : collapse.graph.shape? ref = some shape)
    (hkind : shape.kind ≠ .record) : collapse.group? ref = none := by
  refine group?_eq_none hrecords fun heq => hkind ?_
  exact Option.some.inj ((Graph.kind?_of_shape? hshape).symm.trans heq)

theorem redirect_member (h : collapse.Realizes graph built)
    (hrecords : collapse.OfRecords) {alternatives : List Ref}
    (hshape : collapse.graph.shape? ref = some (.union alternatives))
    (hmember : member ∈ collapse.graph.narrow collapse.policy alternatives) :
    collapse.passage.redirect ref = collapse.passage.redirect member ∨
      collapse.passage.redirect member ∈
        graph.members (collapse.passage.redirect ref) := by
  have href : collapse.graph.has ref = true :=
    Graph.has_iff_shape?.mpr ⟨_, hshape⟩
  have hgroup := group?_eq_none_of_shape? hrecords hshape fun heq => nomatch heq
  cases hsurvivor : collapse.survivor? ref with
  | some survivor =>
      obtain ⟨_, others, hothers, hnarrow⟩ := survivor?_eq_some_iff.mp hsurvivor
      cases hshape.symm.trans hothers
      rw [(Graph.survivor?_eq_some_iff.mp hnarrow).1, List.mem_singleton]
        at hmember
      subst hmember
      exact Or.inl (hrecords.redirect_of_survivor href hsurvivor)
  | none =>
      right
      rw [Graph.members_of_shape?
        (h.shape?_redirect hrecords.toReady hshape hgroup hsurvivor)]
      exact List.mem_map_of_mem hmember

theorem admits_redirect_of_not_union (h : collapse.Realizes graph built)
    (hrecords : collapse.OfRecords) (href : collapse.graph.has ref = true)
    (hkind : collapse.graph.kind? ref ≠ some .union) {kind : Kind} :
    graph.Admits (collapse.passage.redirect ref) kind ↔
      collapse.graph.loweredKind? collapse.policy ref = some kind := by
  have hlowered := h.kind?_redirect hrecords href hkind
  rw [Graph.admits_of_not_union, hlowered]
  rw [hlowered]
  exact fun heq => hkind (Graph.kind?_of_loweredKind? (by decide) heq)

theorem admits_redirect_of_union (h : collapse.Realizes graph built)
    (hrecords : collapse.OfRecords) {alternatives : List Ref}
    (hshape : collapse.graph.shape? ref = some (.union alternatives))
    {kind : Kind} (hne : kind ≠ .union) :
    graph.Admits (collapse.passage.redirect ref) kind ↔
      ∃ member ∈ collapse.graph.narrow collapse.policy alternatives,
        collapse.graph.loweredKind? collapse.policy member = some kind := by
  have hmember {member : Ref}
      (hmem : member ∈ collapse.graph.narrow collapse.policy alternatives) :
      collapse.graph.has member = true ∧
        collapse.graph.kind? member ≠ some .union := by
    have hin := (Graph.narrow_sublist alternatives).subset hmem
    exact ⟨hrecords.wellFormed.children hshape member hin,
      hrecords.flat.flat hshape member hin⟩
  cases hsurvivor : collapse.survivor? ref with
  | some only =>
      obtain ⟨_, others, hothers, hkept⟩ := survivor?_eq_some_iff.mp hsurvivor
      cases hshape.symm.trans hothers
      have hnarrow := (Graph.survivor?_eq_some_iff.mp hkept).1
      obtain ⟨honly, hkind⟩ := hmember (hnarrow ▸ List.mem_singleton_self only)
      rw [hrecords.redirect_of_survivor (Graph.has_iff_shape?.mpr ⟨_, hshape⟩)
        hsurvivor, h.admits_redirect_of_not_union hrecords honly hkind, hnarrow]
      simp
  | none =>
      have hgroup :=
        group?_eq_none_of_shape? hrecords hshape fun heq => nomatch heq
      rw [Graph.admits_of_union
        (h.shape?_redirect hrecords.toReady hshape hgroup hsurvivor) hne]
      simp only [List.mem_map, exists_exists_and_eq_and]
      refine exists_congr fun member => and_congr_right fun hmem => ?_
      rw [h.kind?_redirect hrecords (hmember hmem).1 (hmember hmem).2]

/-- A node admits the kinds that it admitted, those that are lowered as text. -/
theorem admits_redirect (h : collapse.Realizes graph built)
    (hrecords : collapse.OfRecords) (href : collapse.graph.has ref = true)
    {kind : Kind} (hne : kind ≠ .union) :
    graph.Admits (collapse.passage.redirect ref) kind ↔
      ∃ old, collapse.graph.Admits ref old ∧
        collapse.policy.lowerKind old = kind := by
  by_cases hkind : collapse.graph.kind? ref = some .union
  · obtain ⟨alternatives, hshape⟩ := Graph.shape?_of_kind?_union hkind
    rw [h.admits_redirect_of_union hrecords hshape hne, Graph.exists_narrow_iff,
      Graph.exists_admitted_iff hshape hne]
  · rw [h.admits_redirect_of_not_union hrecords href hkind, Graph.loweredKind?,
      Option.map_eq_some_iff]
    refine exists_congr fun old => and_congr_left fun _ => ?_
    exact (Graph.admits_of_not_union hkind).symm

theorem nullable_redirect (h : collapse.Realizes graph built)
    (hrecords : collapse.OfRecords) (href : collapse.graph.has ref = true) :
    graph.nullable (collapse.passage.redirect ref) =
      collapse.graph.nullable ref := by
  rw [Bool.eq_iff_iff, h.flat.nullable_iff_admits,
    hrecords.flat.nullable_iff_admits,
    h.admits_redirect hrecords href (by decide)]
  constructor
  · intro hadmits
    obtain ⟨old, hold, hlower⟩ := hadmits
    obtain rfl := FormatPolicy.lowerKind_eq_iff (by decide) hlower
    exact hold
  · intro hold
    exact ⟨.null, hold, rfl⟩

theorem flatten_singleton (h : collapse.Realizes graph built) (base : Ref) :
    built.flatten [base] = if graph.kind? base =
      some .union then graph.members base else [base] := by
  rw [Builder.flatten, List.flatMap_singleton, ← h.shape?_eq]
  cases hshape : graph.shape? base with
  | none => simp [Graph.kind?, hshape]
  | some shape =>
      cases shape <;>
        simp [Graph.kind?, Graph.members, hshape, Shape.kind, Shape.members]

theorem exists_flatten_iff (h : collapse.Realizes graph built) {base : Ref}
    {kind : Kind} (hne : kind ≠ .union) :
    (∃ source ∈ built.flatten [base], graph.kind? source = some kind) ↔
      graph.Admits base kind := by
  rw [h.flatten_singleton]
  split
  · rename_i hunion
    obtain ⟨alternatives, hshape⟩ := Graph.shape?_of_kind?_union hunion
    rw [Graph.admits_of_union hshape hne, Graph.members_of_shape? hshape]
    rfl
  · rename_i hplain
    rw [Graph.admits_of_not_union hplain]
    simp

theorem admits_widened (h : collapse.Realizes graph built) {base made : Ref}
    (hwidened : built.Widened base made) {kind : Kind} (hne : kind ≠ .union) :
    graph.Admits made kind ↔ graph.Admits base kind ∨ kind = .null := by
  rcases hwidened with ⟨rfl, source, hsource, hnull⟩ | ⟨null, hnull, hmade⟩
  · rw [← h.kind?_eq] at hnull
    have hadmits : graph.Admits made .null :=
      (h.exists_flatten_iff (by decide)).mp ⟨source, hsource, hnull⟩
    rw [or_iff_left_of_imp]
    rintro rfl
    exact hadmits
  · rw [← h.shape?_eq] at hnull hmade
    rw [Graph.admits_of_union hmade hne, ← h.exists_flatten_iff hne]
    simp [Graph.kind?_of_shape? hnull, Shape.kind, Shape.null, Kind.null,
      or_comm, eq_comm]

theorem nullable_of_widened (h : collapse.Realizes graph built)
    {base made : Ref} (hwidened : built.Widened base made) :
    graph.nullable made = true :=
  h.flat.nullable_iff_admits.mpr
    ((h.admits_widened hwidened (by decide)).mpr (Or.inr rfl))

end ShapeMerge.Collapse.Realizes
