import ShapeMerge.Proofs.Collapse.Equivalence
import ShapeMerge.Proofs.Merging.Pass

namespace ShapeMerge.Graph

/-!
A merge pass never separates equivalent nodes.  Equivalent candidates always end
up in one merged record, whatever lies between them and in whatever order they
come; a record that is pinned is in no clique and has no equivalent in one.  So
the cliques respect equivalence.
-/

section Summary

variable {graph : Graph} {policy : FormatPolicy} {cliques : List (List Ref)}
  {pass : MergePass} {built : Builder}

theorem Merges.mergedInto?_eq (h : graph.Merges policy cliques pass built)
    (ref : Ref) :
    pass.summary.mergedInto? ref =
      ((graph.collapseOf policy cliques).group? ref).map fun clique =>
        pass.passage.redirect (Collapse.earliest clique) := by
  have hzip : cliques.zip (cliques.map fun clique =>
      pass.passage.redirect (Collapse.earliest clique)) =
        cliques.map fun clique =>
          (clique, pass.passage.redirect (Collapse.earliest clique)) := by
    rw [List.map_prod_left_eq_zip]
  rw [Summary.mergedInto?, h.partition, h.merged, hzip, List.find?_map,
    Option.map_map]
  rfl

theorem Merges.mergedInto?_of_mem (h : graph.Merges policy cliques pass built)
    (hready : (graph.collapseOf policy cliques).Ready) {clique : List Ref}
    (hclique : clique ∈ cliques) {ref : Ref} (href : ref ∈ clique) :
    pass.summary.mergedInto? ref = some (pass.passage.redirect ref) := by
  rw [h.mergedInto?_eq, hready.group?_of_mem hclique href,
    Option.map_some, h.passage,
    hready.redirect_of_mem hclique (hready.earliest_mem hclique) href]

end Summary

theorem duplicates_merge {graph : Graph}
    (hbuilt : graph.Built) {share : Rat} (hpos : 0 < share) (hle : share ≤ 1)
    (policy : FormatPolicy) {left right : Ref} {leftRecord rightRecord : Record}
    (hleft : graph.record? left = some leftRecord)
    (hleftFree : leftRecord.pinned = false)
    (hright : graph.record? right = some rightRecord)
    (hrightFree : rightRecord.pinned = false) (hne : left ≠ right)
    (hequivalent : graph.equivalent left right = true) :
    ∃ pass, graph.mergeSimilar ⟨share, policy⟩ = .ok pass ∧
      (∃ clique ∈ pass.summary.cliques, left ∈ clique ∧ right ∈ clique) ∧
      ∃ merged, pass.summary.mergedInto? left = some merged ∧
        pass.summary.mergedInto? right = some merged := by
  have hflat := hbuilt.flat
  obtain ⟨pass, cliques, built, hpass, hcliques, hmerges⟩ :=
    hflat.exists_pass hpos hle policy
  obtain ⟨clique, hclique, hleftMem, hrightMem⟩ :=
    exists_clique_of_bisimilar hflat hle hcliques
      (mem_candidates.mpr ⟨leftRecord, hleft, hleftFree⟩)
      (mem_candidates.mpr ⟨rightRecord, hright, hrightFree⟩) hne
      ((equivalent_iff_bisimilar hflat.toWellFormed).mp hequivalent)
  have hready := (ofRecords_collapseOf hcliques hflat policy).toReady
  refine ⟨pass, hpass, ⟨clique, ?_, hleftMem, hrightMem⟩,
    pass.passage.redirect left,
    hmerges.mergedInto?_of_mem hready hclique hleftMem, ?_⟩
  · rw [hmerges.partition]
    exact hclique
  · rw [hmerges.mergedInto?_of_mem hready hclique hrightMem, hmerges.passage,
      hready.redirect_of_mem hclique hrightMem hleftMem]

theorem twins_bisimilar : twins.Bisimilar ⟨1⟩ ⟨5⟩ := by
  refine ⟨fun x y => x = y ∨ (x = ⟨1⟩ ∧ y = ⟨5⟩), fun {x y} hrelated => ?_,
    Or.inr ⟨rfl, rfl⟩⟩
  rcases hrelated with rfl | ⟨rfl, rfl⟩
  · exact Or.inl rfl
  · refine Or.inr ⟨_, _, rfl, rfl, .record rfl rfl fun hx hy => Or.inl ?_⟩
    exact Option.some.inj (hx.symm.trans hy)

theorem twins_merge :
    ∃ pass, twins.mergeSimilar ⟨(1 / 2 : Rat), .lenient⟩ = .ok pass ∧
      (∃ clique ∈ pass.summary.cliques,
        (⟨1⟩ : Ref) ∈ clique ∧ (⟨5⟩ : Ref) ∈ clique) ∧
      ∃ merged, pass.summary.mergedInto? ⟨1⟩ = some merged ∧
        pass.summary.mergedInto? ⟨5⟩ = some merged := by
  have hrecord (ref : Ref) (h : ref = ⟨1⟩ ∨ ref = ⟨5⟩) :
      twins.record? ref = some ⟨.ofList [("id", ⟨0⟩)], false⟩ := by
    rcases h with rfl | rfl <;> rfl
  exact duplicates_merge twins_built (by decide +kernel) (by decide +kernel)
    .lenient (hrecord ⟨1⟩ (Or.inl rfl)) rfl (hrecord ⟨5⟩ (Or.inr rfl)) rfl
    (by decide) ((equivalent_iff_bisimilar twins_built.flat.toWellFormed).mpr
      twins_bisimilar)

theorem group?_eq_of_bisimilar {graph : Graph} (hflat : graph.Flat)
    {share : Rat} (hshare : share ≤ 1) (policy : FormatPolicy)
    {cliques : List (List Ref)} (hcliques : graph.cliques share = .ok cliques)
    {left right : Ref} (h : graph.Bisimilar left right) :
    (graph.collapseOf policy cliques).group? left =
      (graph.collapseOf policy cliques).group? right := by
  have hready := (ofRecords_collapseOf hcliques hflat policy).toReady
  have hcandidate {left right : Ref} (h : graph.Bisimilar left right)
      (hleft : left ∈ graph.candidates) : right ∈ graph.candidates := by
    obtain ⟨content, hrecord, hfree⟩ := mem_candidates.mp hleft
    obtain ⟨other, hother, hpinned, _⟩ := h.record? hrecord
    exact mem_candidates.mpr ⟨other, hother, hpinned ▸ hfree⟩
  have hnone {ref : Ref} (href : ref ∉ graph.candidates) :
      (graph.collapseOf policy cliques).group? ref = none := by
    rw [Collapse.group?_eq_none_iff]
    exact fun clique hclique hmem =>
      href (mem_candidates_of_mem_clique hcliques hclique hmem)
  by_cases heq : left = right
  · rw [heq]
  · by_cases hleft : left ∈ graph.candidates
    · obtain ⟨clique, hclique, hleftMem, hrightMem⟩ :=
        exists_clique_of_bisimilar hflat hshare hcliques hleft
          (hcandidate h hleft) heq h
      rw [hready.group?_of_mem hclique hleftMem,
        hready.group?_of_mem hclique hrightMem]
    · rw [hnone hleft, hnone fun hright => hleft (hcandidate h.symm hright)]

theorem equivalents_stay_equivalent {graph : Graph} (hbuilt : graph.Built)
    {share : Rat} (hpos : 0 < share) (hle : share ≤ 1) (policy : FormatPolicy) :
    ∃ pass, graph.mergeSimilar ⟨share, policy⟩ = .ok pass ∧
      ∀ {left right}, graph.has left = true →
        graph.equivalent left right = true →
        ∃ x y, pass.passage.follow left = .ok x ∧
          pass.passage.follow right = .ok y ∧
          pass.graph.equivalent x y = true := by
  have hflat := hbuilt.flat
  obtain ⟨pass, cliques, built, hpass, hcliques, hmerges⟩ :=
    hflat.exists_pass hpos hle policy
  have hrecords := ofRecords_collapseOf hcliques hflat policy
  refine ⟨pass, hpass, fun {left right} hleft hequivalent => ?_⟩
  have hbisimilar :=
    (equivalent_iff_bisimilar hflat.toWellFormed).mp hequivalent
  have hright : graph.has right = true := by
    rw [has_iff_kind?] at hleft ⊢
    rwa [← hbisimilar.kind?_eq]
  have hkept := hmerges.realizes.bisimilar_redirect hrecords
    (group?_eq_of_bisimilar hflat hle policy hcliques) hbisimilar
  rw [← hmerges.passage] at hkept
  exact ⟨_, _, hmerges.follow_eq_ok hleft, hmerges.follow_eq_ok hright,
    (equivalent_iff_bisimilar hmerges.realizes.flat.toWellFormed).mpr hkept⟩

def reorderedFormats : Graph :=
  ⟨#[⟨.formatted .date, .blank⟩, ⟨.formatted .uuid, .blank⟩,
    ⟨.union [⟨0⟩, ⟨1⟩], .blank⟩, ⟨.union [⟨1⟩, ⟨0⟩], .blank⟩], ∅⟩

theorem reorderedFormats_built : reorderedFormats.Built := by
  have h : ((Builder.start .lenient).replay [.formatted .blank .date,
    .formatted .blank .uuid, .union .blank [⟨0⟩, ⟨1⟩],
    .union .blank [⟨1⟩, ⟨0⟩]]).toGraph = .ok reorderedFormats := by
    decide +kernel
  exact .finished h

theorem reorderedFormats_bisimilar : reorderedFormats.Bisimilar ⟨2⟩ ⟨3⟩ := by
  refine ⟨fun x y => x = y ∨ (x = ⟨2⟩ ∧ y = ⟨3⟩), fun {x y} hrelated => ?_,
    Or.inr ⟨rfl, rfl⟩⟩
  rcases hrelated with rfl | ⟨rfl, rfl⟩
  · exact Or.inl rfl
  · refine Or.inr
      ⟨_, _, rfl, rfl, .union ⟨[(⟨0⟩, ⟨0⟩), (⟨1⟩, ⟨1⟩)], ?_, ?_, ?_⟩⟩
    · decide
    · decide
    · decide

/-- With all formats lowered, the unions give way to different texts. -/
theorem reorderedFormats_stay_equivalent :
    ∃ pass,
      reorderedFormats.mergeSimilar ⟨(1 / 2 : Rat), .allPlain⟩ = .ok pass ∧
      ∃ x y, pass.passage.follow ⟨2⟩ = .ok x ∧ pass.passage.follow ⟨3⟩ = .ok y ∧
        pass.graph.equivalent x y = true := by
  obtain ⟨pass, hpass, hstay⟩ :=
    equivalents_stay_equivalent reorderedFormats_built
      (by decide +kernel) (by decide +kernel : (1 / 2 : Rat) ≤ 1) .allPlain
  have hequivalent : reorderedFormats.equivalent ⟨2⟩ ⟨3⟩ = true :=
    (equivalent_iff_bisimilar reorderedFormats_built.flat.toWellFormed).mpr
      reorderedFormats_bisimilar
  exact ⟨pass, hpass, hstay (by decide) hequivalent⟩

end ShapeMerge.Graph
