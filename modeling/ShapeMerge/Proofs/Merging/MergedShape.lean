import ShapeMerge.Proofs.Collapse.Realization
import ShapeMerge.Proofs.Merging.Duplicates

namespace ShapeMerge.Graph

/-!
The merged record of a clique, in terms of the graph that was merged: which
fields it has, which of them admit `null`, and which kinds they have besides.  A
field is made from what one member holds, but since the members agree, its kinds
are those of every member.
-/

variable {graph : Graph} {policy : FormatPolicy} {cliques : List (List Ref)}
  {clique : List Ref} {pass : MergePass} {built : Builder}
  {records : List Record} {contents : NameMap FieldContent} {name : String}
  {base made : Ref} {kind : Kind}

def field? (graph : Graph) (ref : Ref) (name : String) : Option Ref :=
  (graph.record? ref).bind (·.fields.find? name)

structure MergedShape (graph : Graph) (policy : FormatPolicy) (pass : MergePass)
    (clique : List Ref) (target : Ref) (merged : Record) : Prop where
  members : ∀ member ∈ clique, ∃ content, graph.record? member = some content
  node : pass.graph.node? target =
    some ⟨.record merged, .joinAll (clique.filterMap graph.hints?)⟩
  unpinned : merged.pinned = false
  names : ∀ {name}, name ∈ merged.fields.names ↔
    ∃ member ∈ clique, ∃ field, graph.field? member name = some field
  nullable : ∀ {name made}, merged.fields.find? name = some made →
    (pass.graph.nullable made = true ↔
      (∃ member ∈ clique, graph.field? member name = none) ∨
      (∃ member ∈ clique, ∃ field, graph.field? member name = some field ∧
        graph.nullable field = true) ∨
      ∀ member ∈ clique, ∀ field, graph.field? member name = some field →
        graph.alternatives field = .ok [])
  kinds : ∀ {name made}, merged.fields.find? name = some made →
    ∀ member ∈ clique, ∀ field, graph.field? member name = some field →
      ∃ options, graph.alternatives field = .ok options ∧
        (options ≠ [] → ∃ found, pass.graph.alternatives made = .ok found ∧
          ∀ {kind}, (∃ option ∈ found, pass.graph.kind? option = some kind) ↔
            ∃ option ∈ options, graph.loweredKind? policy option = some kind)

theorem Gathers.exists_record (h : graph.Gathers clique records contents)
    {member : Ref} (hmember : member ∈ clique) :
    ∃ content ∈ records, graph.record? member = some content := by
  have hrecord : graph.record? member ∈ records.map some :=
    h.source ▸ List.mem_map_of_mem hmember
  obtain ⟨content, hcontent, hsome⟩ := List.mem_map.mp hrecord
  exact ⟨content, hcontent, hsome.symm⟩

/-- A record of the clique and the member that has it hold the same under every
name. -/
theorem Gathers.exists_iff (h : graph.Gathers clique records contents)
    (name : String) {p : Option Ref → Prop} :
    (∃ content ∈ records, p (content.fields.find? name)) ↔
      ∃ member ∈ clique, p (graph.field? member name) := by
  constructor
  · intro hcontent
    obtain ⟨content, hcontent, hp⟩ := hcontent
    obtain ⟨member, hmember, hrecord⟩ :=
      (mem_of_map_record? h.source).mp hcontent
    refine ⟨member, hmember, ?_⟩
    rw [field?, hrecord]
    exact hp
  · intro hmember
    obtain ⟨member, hmember, hp⟩ := hmember
    obtain ⟨content, hcontent, hrecord⟩ := h.exists_record hmember
    refine ⟨content, hcontent, ?_⟩
    rw [field?, hrecord] at hp
    exact hp

theorem Gathers.forall_iff (h : graph.Gathers clique records contents)
    (name : String) {p : Option Ref → Prop} :
    (∀ content ∈ records, p (content.fields.find? name)) ↔
      ∀ member ∈ clique, p (graph.field? member name) := by
  have hiff := not_congr (h.exists_iff name (p := fun field => ¬ p field))
  simpa using hiff

theorem Flat.field?_has (hflat : graph.Flat) {member field : Ref}
    (h : graph.field? member name = some field) : graph.has field = true := by
  obtain ⟨content, hrecord, hfind⟩ := Option.bind_eq_some_iff.mp h
  exact hflat.holds hrecord hfind

theorem Gathers.nullable_iff (h : graph.Gathers clique records contents) :
    (graph.contentOf records name).nullable = true ↔
      (∃ member ∈ clique, graph.field? member name = none) ∨
        ∃ member ∈ clique, ∃ field, graph.field? member name = some field ∧
          graph.nullable field = true := by
  rw [nullable_contentOf_iff, h.exists_iff name (p := fun found =>
    ∀ field, found = some field → graph.nullable field = true), ← exists_or]
  refine exists_congr fun member => ?_
  rw [← and_or_left]
  refine and_congr_right fun _ => ?_
  cases graph.field? member name <;> simp

theorem Gathers.shapes_eq_nil_iff (h : graph.Gathers clique records contents)
    (hflat : graph.Flat) :
    (graph.contentOf records name).shapes = [] ↔
      ∀ member ∈ clique, ∀ field, graph.field? member name = some field →
        graph.alternatives field = .ok [] := by
  rw [shapes_contentOf_eq_nil_iff, h.forall_iff name (p := fun found =>
    ∀ field, found = some field → graph.options field = [])]
  refine forall₂_congr fun member _ => forall₂_congr fun field hfield => ?_
  rw [hflat.alternatives_eq_ok (hflat.field?_has hfield), Except.ok.injEq]

/-- Besides `null`, what was found first has the kinds of every member that has
options there. -/
theorem Gathers.admits_representative
    (h : graph.Gathers clique records contents)
    {representative : Ref} {rest : List Ref}
    (hshapes : (graph.contentOf records name).shapes = representative :: rest)
    {record : Record} (hrecord : record ∈ records)
    {field : Ref} (hfield : record.fields.find? name = some field)
    (hoptions : graph.options field ≠ []) (hunion : kind ≠ .union)
    (hnull : kind ≠ .null) :
    graph.Admits representative kind ↔
      ∃ option ∈ graph.options field, graph.kind? option = some kind := by
  have hmem : representative ∈ (graph.contentOf records name).shapes :=
    hshapes ▸ List.mem_cons_self
  obtain ⟨other, hother, otherField, hotherField, hadded⟩ :=
    mem_shapes_contentOf.mp hmem
  have hagree := h.agree other hother record hrecord hotherField hfield
  exact (admits_contributed hadded hunion hnull).trans (hagree.exists_option_iff
    (options_ne_nil_of_mem_contributed hadded) hoptions)

theorem Merges.passage_graph (h : graph.Merges policy cliques pass built) :
    pass.passage.graph = graph := by
  rw [h.passage]
  rfl

section Field

variable (h : graph.Merges policy cliques pass built)
  (hrecords : (graph.collapseOf policy cliques).OfRecords)

include h hrecords

theorem Merges.admits_carried {content : FieldContent} {representative : Ref}
    {rest : List Ref} (hcarries : pass.passage.Carries built content base)
    (hshapes : content.shapes = representative :: rest)
    (hhas : graph.has representative = true) (hne : kind ≠ .union) :
    pass.graph.Admits base kind ↔
      ∃ old, graph.Admits representative old ∧ policy.lowerKind old = kind := by
  rcases hcarries with ⟨hempty, _⟩ | ⟨other, others, hother, hcase⟩
  · rw [hempty] at hshapes
    cases hshapes
  · cases hshapes.symm.trans hother
    rcases hcase with rfl | ⟨hkind, literals, htext⟩
    · rw [h.passage]
      exact h.realizes.admits_redirect hrecords hhas hne
    · rw [h.passage_graph] at hkind
      rw [← h.realizes.shape?_eq] at htext
      have hbase : pass.graph.kind? base = some .text := kind?_of_shape? htext
      rw [admits_of_kind? hbase (by decide)]
      simp only [admits_of_kind? hkind (by decide), exists_eq_left']
      rfl

theorem Merges.exists_representative
    (hgathers : graph.Gathers clique records contents) {content : FieldContent}
    (hcontent : contents.find? name = some content) {representative : Ref}
    {rest : List Ref} (hshapes : content.shapes = representative :: rest) :
    graph.has representative = true ∧
      ∃ record ∈ records, ∃ field, record.fields.find? name = some field ∧
        representative ∈ graph.contributed field := by
  have hmem : representative ∈ content.shapes := hshapes ▸ List.mem_cons_self
  have hhas := (hgathers.uniform hrecords.flat h.passage_graph hcontent).has
    representative hmem
  rw [h.passage_graph] at hhas
  obtain ⟨_, rfl⟩ := hgathers.find?.mp hcontent
  exact ⟨hhas, mem_shapes_contentOf.mp hmem⟩

theorem Merges.admits_made (hgathers : graph.Gathers clique records contents)
    {content : FieldContent} (hcontent : contents.find? name = some content)
    (hmakes : pass.passage.Makes built content made)
    {record : Record} (hrecord : record ∈ records) {field : Ref}
    (hfield : record.fields.find? name = some field)
    (hoptions : graph.options field ≠ []) (hunion : kind ≠ .union)
    (hnull : kind ≠ .null) :
    pass.graph.Admits made kind ↔
      ∃ option ∈ graph.options field,
        graph.loweredKind? policy option = some kind := by
  obtain ⟨base, _, hcarries, hmade⟩ := hmakes
  have hbase : pass.graph.Admits made kind ↔ pass.graph.Admits base kind := by
    split at hmade
    · rw [h.realizes.admits_widened hmade hunion, or_iff_left hnull]
    · rw [hmade]
  cases hshapes : content.shapes with
  | nil =>
      obtain ⟨_, rfl⟩ := hgathers.find?.mp hcontent
      exact absurd (shapes_contentOf_eq_nil_iff.mp hshapes record hrecord field
        hfield) hoptions
  | cons representative rest =>
      obtain ⟨hhas, _⟩ :=
        h.exists_representative hrecords hgathers hcontent hshapes
      rw [hbase, h.admits_carried hrecords hcarries hshapes hhas hunion,
        exists_loweredKind?_iff]
      obtain ⟨_, rfl⟩ := hgathers.find?.mp hcontent
      refine exists_congr fun old => and_congr_left fun hlower => ?_
      -- Neither a union nor `null` is ever lowered.
      have holdUnion : old ≠ .union := by
        rintro rfl
        exact hunion hlower.symm
      have holdNull : old ≠ .null := by
        rintro rfl
        exact hnull hlower.symm
      exact hgathers.admits_representative hshapes hrecord hfield hoptions
        holdUnion holdNull

theorem Merges.exists_option_made
    (hgathers : graph.Gathers clique records contents)
    {content : FieldContent} (hcontent : contents.find? name = some content)
    (hmakes : pass.passage.Makes built content made)
    {record : Record} (hrecord : record ∈ records)
    {field : Ref} (hfield : record.fields.find? name = some field)
    (hoptions : graph.options field ≠ []) :
    (∃ option ∈ pass.graph.options made, pass.graph.kind? option = some kind) ↔
      ∃ option ∈ graph.options field,
        graph.loweredKind? policy option = some kind := by
  rw [exists_option_iff]
  constructor
  · intro hadmits
    obtain ⟨hadmits, hunion, hnull⟩ := hadmits
    exact (h.admits_made hrecords hgathers hcontent hmakes hrecord hfield
      hoptions hunion hnull).mp hadmits
  · intro hoption
    obtain ⟨option, hmem, hlowered⟩ := hoption
    obtain ⟨_, hunion, hnull⟩ := mem_options.mp hmem
    have hkept {other : Kind} (htext : other ≠ .text)
        (hother : graph.kind? option ≠ some other) : kind ≠ other := by
      rintro rfl
      exact hother (kind?_of_loweredKind? htext hlowered)
    have hkindUnion := hkept (by decide) hunion
    have hkindNull := hkept (by decide) hnull
    exact ⟨(h.admits_made hrecords hgathers hcontent hmakes hrecord
      hfield hoptions hkindUnion hkindNull).mpr ⟨option, hmem, hlowered⟩,
      hkindUnion, hkindNull⟩

theorem Merges.nullable_made_iff
    (hgathers : graph.Gathers clique records contents)
    {content : FieldContent} (hcontent : contents.find? name = some content)
    (hmakes : pass.passage.Makes built content made) :
    pass.graph.nullable made = true ↔
      content.nullable = true ∨ content.shapes = [] := by
  obtain ⟨base, _, hcarries, hmade⟩ := hmakes
  by_cases hnullable : content.nullable = true
  · rw [if_pos hnullable] at hmade
    exact iff_of_true (h.realizes.nullable_of_widened hmade) (Or.inl hnullable)
  · rw [if_neg hnullable] at hmade
    subst hmade
    rw [or_iff_right hnullable, h.realizes.flat.nullable_iff_admits]
    cases hshapes : content.shapes with
    | nil =>
        rcases hcarries with ⟨_, hnull⟩ | ⟨representative, rest, hother, _⟩
        · rw [← h.realizes.shape?_eq] at hnull
          exact iff_of_true ⟨made, Or.inl rfl, kind?_of_shape? hnull⟩ rfl
        · cases hshapes.symm.trans hother
    | cons representative rest =>
        refine iff_of_false (fun hadmits => hnullable ?_) (List.cons_ne_nil _ _)
        obtain ⟨hhas, record, hrecord, field, hfield, hadded⟩ :=
          h.exists_representative hrecords hgathers hcontent hshapes
        obtain ⟨old, hold, hlower⟩ :=
          (h.admits_carried hrecords hcarries hshapes hhas (by decide)).mp
            hadmits
        obtain rfl := FormatPolicy.lowerKind_eq_iff (by decide) hlower
        obtain ⟨_, rfl⟩ := hgathers.find?.mp hcontent
        refine nullable_contentOf_iff.mpr
          ⟨record, hrecord, fun other hother => ?_⟩
        obtain rfl := Option.some.inj (hfield.symm.trans hother)
        exact nullable_of_contributed hrecords.flat hadded hold

theorem Merges.mergedShape (hgathers : graph.Gathers clique records contents)
    {target : Ref} {merged : Record}
    (hstands : pass.passage.Stands built clique target merged contents) :
    graph.MergedShape policy pass clique target merged := by
  have hflat := hrecords.flat
  have hnode := hstands.node
  rw [h.passage_graph, ← h.realizes.node?] at hnode
  refine
    { members := fun member href => ?_
      node := hnode
      unpinned := hstands.unpinned
      names := fun {name} => ?_
      nullable := fun {name made} hmade => ?_
      kinds := fun {name made} hmade member href field hfield => ?_ }
  · obtain ⟨content, _, hrecord⟩ := hgathers.exists_record href
    exact ⟨content, hrecord⟩
  · rw [← hgathers.exists_iff name (p := fun found =>
      ∃ field, found = some field), hstands.names, hgathers.mem_names_iff]
    simp only [NameMap.mem_names_iff]
  · obtain ⟨content, hcontent, hmakes⟩ := hstands.fields hmade
    rw [h.nullable_made_iff hrecords hgathers hcontent hmakes]
    obtain ⟨_, rfl⟩ := hgathers.find?.mp hcontent
    rw [hgathers.nullable_iff, hgathers.shapes_eq_nil_iff hflat, or_assoc]
  · obtain ⟨record, hrecord, hsome⟩ := hgathers.exists_record href
    obtain ⟨content, hcontent, hmakes⟩ := hstands.fields hmade
    have hfind : record.fields.find? name = some field := by
      rw [field?, hsome] at hfield
      exact hfield
    have hmerged : pass.graph.record? target = some merged := by
      rw [Graph.record?, Graph.shape?, hnode]
      rfl
    refine ⟨graph.options field,
      hflat.alternatives_eq_ok (hflat.field?_has hfield),
      fun hoptions => ⟨pass.graph.options made, ?_, ?_⟩⟩
    · exact h.realizes.flat.alternatives_eq_ok
        (h.realizes.flat.holds hmerged hmade)
    · exact h.exists_option_made hrecords hgathers hcontent hmakes hrecord
        hfind hoptions

end Field

theorem merged_shape [Share σ] {settings : Settings σ} (hbuilt : graph.Built)
    (h : graph.mergeSimilar settings = .ok pass) {index : Nat}
    (hclique : pass.summary.cliques[index]? = some clique) :
    ∃ target merged, pass.summary.merged[index]? = some target ∧
      graph.MergedShape settings.policy pass clique target merged := by
  obtain ⟨cliques, built, hcliques, hmerges⟩ := exists_merges hbuilt.flat h
  have hrecords := ofRecords_collapseOf hcliques hbuilt.flat settings.policy
  rw [hmerges.partition] at hclique
  obtain ⟨records, merged, contents, hgathers, hstands⟩ :=
    hmerges.stands clique (List.mem_of_getElem? hclique)
  refine ⟨_, merged, ?_, hmerges.mergedShape hrecords hgathers hstands⟩
  rw [hmerges.merged, List.getElem?_map, hclique]
  rfl

theorem twins_shape :
    ∃ pass, ∃ index : Nat, ∃ clique target merged,
      twins.mergeSimilar ⟨(1 / 2 : Rat), .lenient⟩ = .ok pass ∧
      pass.summary.cliques[index]? = some clique ∧ ⟨1⟩ ∈ clique ∧ ⟨5⟩ ∈ clique ∧
      pass.summary.merged[index]? = some target ∧
      twins.MergedShape .lenient pass clique target merged := by
  have hhalf : (1 / 2 : Rat) ≤ 1 := by decide +kernel
  have hcandidate (ref : Ref) (href : ref = ⟨1⟩ ∨ ref = ⟨5⟩) :
      ref ∈ twins.candidates := by
    rcases href with rfl | rfl <;> exact mem_candidates.mpr ⟨_, rfl, rfl⟩
  obtain ⟨pass, cliques, built, hpass, hcliques, hmerges⟩ :=
    twins_built.flat.exists_pass (by decide +kernel) hhalf .lenient
  obtain ⟨clique, hclique, hfirst, hsecond⟩ :=
    exists_clique_of_bisimilar twins_built.flat hhalf hcliques
      (hcandidate ⟨1⟩ (Or.inl rfl)) (hcandidate ⟨5⟩ (Or.inr rfl)) (by decide)
      twins_bisimilar
  rw [← hmerges.partition] at hclique
  obtain ⟨index, hindex⟩ := List.mem_iff_getElem?.mp hclique
  obtain ⟨target, merged, htarget, hshape⟩ :=
    merged_shape twins_built hpass hindex
  exact ⟨pass, index, clique, target, merged, hpass, hindex, hfirst, hsecond,
    htarget, hshape⟩

end ShapeMerge.Graph
