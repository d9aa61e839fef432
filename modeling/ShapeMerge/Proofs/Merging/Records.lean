import ShapeMerge.Proofs.Collapse.Order
import ShapeMerge.Proofs.Merging.Additions
import ShapeMerge.Proofs.Merging.Duplicates

namespace ShapeMerge

/-- A record keeps its position among the records if it is in no clique, or the
first of its clique. -/
def Summary.retains (summary : Summary) (ref : Ref) : Bool :=
  decide (∀ clique ∈ summary.cliques, ref ∈ clique → clique.head? = some ref)

namespace Graph

/-- How the records of a merged graph correspond to those of the graph that was
merged. -/
structure Corresponds (graph : Graph) (pass : MergePass) : Prop where
  follow : ∀ {ref}, graph.has ref = true →
    pass.passage.follow ref = .ok (pass.passage.redirect ref)
  /-- A clique has one entry, at the position of its first member. -/
  order : pass.graph.records.map (·.1) =
    ((graph.records.map (·.1)).filter pass.summary.retains).map
      pass.passage.redirect
  joined : ∀ {left right}, left ∈ graph.records.map (·.1) →
    right ∈ graph.records.map (·.1) →
    (pass.passage.redirect left = pass.passage.redirect right ↔ left = right ∨
        ∃ clique ∈ pass.summary.cliques, left ∈ clique ∧ right ∈ clique)
  kept : ∀ {ref content hints},
    graph.node? ref = some ⟨.record content, hints⟩ →
    (∀ clique ∈ pass.summary.cliques, ref ∉ clique) →
    pass.graph.node? (pass.passage.redirect ref) =
      some ⟨.record ⟨content.fields.map pass.passage.redirect, content.pinned⟩,
        hints⟩
  sublists :
    ∀ clique ∈ pass.summary.cliques, clique.Sublist (graph.records.map (·.1))
  free : ∀ clique ∈ pass.summary.cliques, ∀ ref ∈ clique,
    ∃ content, graph.record? ref = some content ∧ content.pinned = false
  merged_length : pass.summary.merged.length = pass.summary.cliques.length
  merged_ordered : pass.summary.merged.Pairwise (· < ·)
  mergedInto : ∀ {ref target}, pass.summary.mergedInto? ref = some target ↔
    (∃ clique ∈ pass.summary.cliques, ref ∈ clique) ∧
      pass.passage.follow ref = .ok target
  merged_le : pass.summary.mergedRecords ≤ graph.records.length
  length : pass.graph.records.length = graph.records.length
      - pass.summary.mergedRecords + pass.summary.cliques.length

section Heads

variable {graph : Graph} {cliques : List (List Ref)} [Share σ]
  {share : σ} (hcliques : graph.cliques share = .ok cliques) {clique : List Ref}
  (hclique : clique ∈ cliques)

include hcliques hclique

theorem head?_clique : clique.head? = some (Collapse.earliest clique) := by
  have hlong := (mem_groups_of_mem_cliques hcliques hclique).2
  obtain ⟨first, rest, rfl⟩ :=
    List.exists_cons_of_length_pos (Nat.zero_lt_of_lt hlong)
  rw [Collapse.earliest_of_ordered (clique_ordered hcliques hclique) rfl]
  rfl

end Heads

section Places

variable {policy : FormatPolicy} {graph : Graph} {cliques : List (List Ref)}
  {pass : MergePass} {built : Builder} {ref : Ref} {content : Record}

theorem Merges.retains_iff (h : graph.Merges policy cliques pass built) :
    pass.summary.retains ref = true ↔
      ∀ clique ∈ cliques, ref ∈ clique → clique.head? = some ref := by
  rw [Summary.retains, decide_eq_true_iff, h.partition]

theorem survivor?_eq_none_of_record?
    (hrecord : graph.record? ref = some content) :
    (graph.collapseOf policy cliques).survivor? ref = none := by
  apply Collapse.survivor?_eq_none_of_kind
  rw [collapseOf, kind?_of_shape? (record?_eq_some_iff.mp hrecord)]
  exact fun heq => nomatch heq

theorem Merges.node?_kept (h : graph.Merges policy cliques pass built)
    (hready : (graph.collapseOf policy cliques).Ready)
    {hints : Hints} (hnode : graph.node? ref = some ⟨.record content, hints⟩)
    (hgroup : (graph.collapseOf policy cliques).group? ref = none) :
    pass.graph.node? (pass.passage.redirect ref) =
      some ⟨.record ⟨content.fields.map pass.passage.redirect, content.pinned⟩,
        hints⟩ := by
  have hrecord : graph.record? ref = some content := by
    rw [record?, shape?, hnode]
    rfl
  rw [h.passage]
  exact h.realizes.node?_redirect hready hnode hgroup
    (survivor?_eq_none_of_record? hrecord)

variable {σ : Type} [Share σ] {settings : Settings σ}
  (hflat : graph.Flat) (hcliques : graph.cliques settings.overlap = .ok cliques)
  (h : graph.Merges settings.policy cliques pass built)

include hflat hcliques h

theorem Merges.leader_eq_self_iff (hrecord : graph.record? ref = some content) :
    (graph.collapseOf settings.policy cliques).leader ref = ref ↔
      pass.summary.retains ref = true := by
  have hready := (ofRecords_collapseOf hcliques hflat settings.policy).toReady
  rw [h.retains_iff]
  cases hgroup : (graph.collapseOf settings.policy cliques).group? ref with
  | none =>
      refine iff_of_true (Collapse.leader_of_none hgroup
        (survivor?_eq_none_of_record? hrecord)) ?_
      exact fun clique hclique hmem =>
        absurd hmem (Collapse.group?_eq_none_iff.mp hgroup clique hclique)
  | some clique =>
      obtain ⟨hclique, hmem⟩ := Collapse.mem_of_group? hgroup
      rw [hready.leader_of_mem hclique hmem]
      constructor
      · intro hfirst other hother hin
        rw [hready.groups_eq_of_mem hother hclique hin hmem,
          head?_clique hcliques hclique, hfirst]
      · intro hall
        have hhead := hall clique hclique hmem
        rw [head?_clique hcliques hclique] at hhead
        exact Option.some.inj hhead

theorem Merges.pinned_of_record? (hrecord : graph.record? ref = some content) :
    (pass.graph.record? (pass.passage.redirect ref)).map (·.pinned) =
      some content.pinned := by
  have hready := (ofRecords_collapseOf hcliques hflat settings.policy).toReady
  cases hgroup : (graph.collapseOf settings.policy cliques).group? ref with
  | none =>
      obtain ⟨node, hnode, hshape⟩ :=
        Option.map_eq_some_iff.mp (record?_eq_some_iff.mp hrecord)
      obtain ⟨_, hints⟩ := node
      cases hshape
      rw [record?, shape?, h.node?_kept hready hnode hgroup]
      rfl
  | some clique =>
      obtain ⟨hclique, hmem⟩ := Collapse.mem_of_group? hgroup
      obtain ⟨candidate, hcandidate, hfree⟩ :=
        mem_candidates.mp (mem_candidates_of_mem_clique hcliques hclique hmem)
      obtain rfl := Option.some.inj (hrecord.symm.trans hcandidate)
      obtain ⟨_, merged, _, _, hstands, hmerged⟩ :=
        h.exists_merged hready hclique hmem
      rw [record?_eq_some_iff.mpr hmerged, Option.map_some,
        hstands.unpinned, hfree]

theorem Merges.pinned_leader
    (href : ref ∈ (graph.collapseOf settings.policy cliques).leaders) :
    (pass.graph.record? (pass.passage.redirect ref)).map (·.pinned) =
      (graph.record? ref).map (·.pinned) := by
  cases hrecord : graph.record? ref with
  | some content => exact h.pinned_of_record? hflat hcliques hrecord
  | none =>
      rw [Option.map_none, Option.map_eq_none_iff,
        Option.eq_none_iff_forall_ne_some]
      intro placed hplaced
      have hrecords := ofRecords_collapseOf hcliques hflat settings.policy
      have hkind := h.realizes.kind?_leader hrecords href
      rw [← h.passage, kind?_of_shape? (record?_eq_some_iff.mp hplaced)]
        at hkind
      obtain ⟨old, hold⟩ :=
        shape?_of_kind?_record (kind?_of_loweredKind? (by decide) hkind.symm)
      cases (record?_eq_some_iff.mpr hold).symm.trans hrecord

section Selection

variable (test : Option Bool → Bool) (htest : test none = false)

include htest

theorem Merges.leads_and_selected_iff (href : graph.has ref = true) :
    (graph.collapseOf settings.policy cliques).leader ref = ref ∧
        test ((pass.graph.record? (pass.passage.redirect ref)).map (·.pinned)) =
          true ↔
      pass.summary.retains ref = true ∧
        test ((graph.record? ref).map (·.pinned)) = true := by
  cases hrecord : graph.record? ref with
  | some content =>
      rw [h.pinned_of_record? hflat hcliques hrecord,
        h.leader_eq_self_iff hflat hcliques hrecord]
      rfl
  | none =>
      have hnone (hleader :
          (graph.collapseOf settings.policy cliques).leader ref = ref) :
          (pass.graph.record? (pass.passage.redirect ref)).map (·.pinned) =
            none := by
        rw [h.pinned_leader hflat hcliques
          (Collapse.mem_leaders_iff.mpr ⟨href, hleader⟩), hrecord,
          Option.map_none]
      rw [Option.map_none, htest]
      refine iff_of_false (fun hboth => ?_) fun hboth =>
        Bool.false_ne_true hboth.2
      rw [hnone hboth.1, htest] at hboth
      exact Bool.false_ne_true hboth.2

/-- What tells free records from pinned ones selects, in order, the places of
the records that it selected and that keep their positions. -/
theorem Merges.filter_records (hpass : graph.mergeSimilar settings = .ok pass) :
    (pass.graph.refs.filter fun ref =>
        test ((pass.graph.record? ref).map (·.pinned))) =
      ((graph.refs.filter fun ref =>
        test ((graph.record? ref).map (·.pinned))).filter
          pass.summary.retains).map pass.passage.redirect := by
  have hplaces (target : Ref)
      (hselected : test ((pass.graph.record? target).map (·.pinned)) = true) :
      ∃ ref ∈ (graph.collapseOf settings.policy cliques).leaders,
        (graph.collapseOf settings.policy cliques).passage.redirect ref =
          target := by
    cases hcontent : pass.graph.record? target with
    | none =>
        rw [hcontent, Option.map_none, htest] at hselected
        cases hselected
    | some content =>
        obtain ⟨ref, hleader, hplace, _⟩ := exists_source_of_kind? hflat
          hcliques hpass (kind?_of_shape? (record?_eq_some_iff.mp hcontent))
          Kind.not_auxiliary_record
        rw [h.passage] at hplace
        exact ⟨ref, hleader, hplace⟩
  rw [h.realizes.filter_refs hplaces, ← h.passage, Collapse.leaders,
    List.filter_filter, List.filter_filter]
  congr 1
  apply List.filter_congr
  intro ref href
  have hiff := h.leads_and_selected_iff hflat hcliques test htest
    (mem_refs_iff_has.mp href)
  rw [Bool.eq_iff_iff, Bool.and_eq_true, Bool.and_eq_true,
    decide_eq_true_iff, and_comm]
  exact hiff

end Selection

theorem Merges.records_order (hpass : graph.mergeSimilar settings = .ok pass) :
    pass.graph.records.map (·.1) =
      ((graph.records.map (·.1)).filter pass.summary.retains).map
        pass.passage.redirect := by
  have hfilter := h.filter_records hflat hcliques Option.isSome rfl hpass
  simpa only [records_fst, Option.isSome_map] using hfilter

theorem Merges.candidates_order
    (hpass : graph.mergeSimilar settings = .ok pass) :
    pass.graph.candidates = (graph.candidates.filter pass.summary.retains).map
        pass.passage.redirect := by
  have hcandidate (graph : Graph) : graph.isCandidate =
      fun ref => ((graph.record? ref).map (·.pinned)).any (!·) := by
    funext ref
    rw [isCandidate, Option.any_map]
  rw [candidates_eq, candidates_eq, hcandidate, hcandidate]
  exact h.filter_records hflat hcliques (·.any (!·)) rfl hpass

end Places

section Summary

variable {policy : FormatPolicy} {graph : Graph} {cliques : List (List Ref)}
  {pass : MergePass} {built : Builder} {ref target : Ref}

theorem Merges.mergedInto?_eq_some_iff
    (h : graph.Merges policy cliques pass built)
    (hready : (graph.collapseOf policy cliques).Ready) :
    pass.summary.mergedInto? ref = some target ↔
      (∃ clique ∈ cliques, ref ∈ clique) ∧
        pass.passage.follow ref = .ok target := by
  have hmember {clique : List Ref} (hclique : clique ∈ cliques)
      (hmem : ref ∈ clique) : pass.summary.mergedInto? ref = some target ↔
      pass.passage.follow ref = .ok target := by
    rw [h.mergedInto?_of_mem hready hclique hmem,
      h.follow_eq_ok (hready.has_of_mem hclique hmem), Option.some_inj,
      Except.ok.injEq]
  constructor
  · intro hmerged
    obtain ⟨clique, hclique, _⟩ :=
      Option.map_eq_some_iff.mp ((h.mergedInto?_eq ref).symm.trans hmerged)
    obtain ⟨hclique, hmem⟩ := Collapse.mem_of_group? hclique
    exact ⟨⟨clique, hclique, hmem⟩, (hmember hclique hmem).mp hmerged⟩
  · rintro ⟨⟨clique, hclique, hmem⟩, hfollow⟩
    exact (hmember hclique hmem).mpr hfollow

theorem mergedRecords_eq (summary : Summary) :
    summary.mergedRecords = summary.cliques.flatten.length := by
  rw [List.length_flatten]
  rfl

theorem Merges.merged_ordered [Share σ]
    {share : σ} (hcliques : graph.cliques share = .ok cliques)
    (h : graph.Merges policy cliques pass built)
    (hready : (graph.collapseOf policy cliques).Ready) :
    pass.summary.merged.Pairwise (· < ·) := by
  have hleader {clique : List Ref} (hclique : clique ∈ cliques) :
      Collapse.earliest clique ∈ (graph.collapseOf policy cliques).leaders := by
    have hmem := hready.earliest_mem hclique
    exact Collapse.mem_leaders_iff.mpr
      ⟨hready.has_of_mem hclique hmem, hready.leader_of_mem hclique hmem⟩
  rw [h.merged, List.pairwise_map]
  refine (cliques_ordered hcliques).imp_of_mem
    fun {earlier later} hearlier hlater hbefore => ?_
  rw [h.passage]
  exact Collapse.redirect_lt (hleader hearlier) (hleader hlater)
    (hbefore _ (head?_clique hcliques hearlier) _ (hready.earliest_mem hlater))

end Summary

theorem candidates_sublist (graph : Graph) :
    graph.candidates.Sublist (graph.records.map (·.1)) :=
  List.filter_sublist.map _

theorem mem_records_fst {graph : Graph} {ref : Ref} :
    ref ∈ graph.records.map (·.1) ↔
      ∃ content, graph.record? ref = some content := by
  rw [records_fst, List.mem_filter, Option.isSome_iff_exists,
    and_iff_right_of_imp]
  rintro ⟨content, hcontent⟩
  exact mem_refs_iff_has.mpr (has_of_record? hcontent)

theorem records_nodup (graph : Graph) : (graph.records.map (·.1)).Nodup := by
  rw [records_fst]
  exact graph.refs_nodup.filter _

section Counts

variable [Share σ] {settings : Settings σ} {graph : Graph}
  {cliques : List (List Ref)} {pass : MergePass} {built : Builder}
  (hcliques : graph.cliques settings.overlap = .ok cliques)

include hcliques

theorem clique_sublist_records {clique : List Ref}
    (hclique : clique ∈ cliques) : clique.Sublist (graph.records.map (·.1)) :=
  (clique_sublist hcliques hclique).trans graph.candidates_sublist

theorem cliques_flatten_subset {ref : Ref} (href : ref ∈ cliques.flatten) :
    ref ∈ graph.records.map (·.1) := by
  obtain ⟨clique, hclique, hmem⟩ := List.mem_flatten.mp href
  exact (clique_sublist_records hcliques hclique).subset hmem

theorem length_cliques_flatten_le :
    cliques.flatten.length ≤ graph.records.length := by
  have hsub := (cliques_flatten_nodup hcliques).subperm fun _ =>
    cliques_flatten_subset hcliques
  have hle := hsub.length_le
  rwa [List.length_map] at hle

/-- Of a list that has all members of cliques, as many keep their positions as
if every clique had been replaced by one member. -/
theorem Merges.length_retained
    (h : graph.Merges settings.policy cliques pass built)
    (hflat : graph.Flat) {refs : List Ref} (hrefs : refs.Nodup)
    (hmembers : ∀ ref ∈ cliques.flatten, ref ∈ refs) :
    (refs.filter pass.summary.retains).length + cliques.flatten.length =
      refs.length + cliques.length :=
  length_filter_heads hrefs (cliques_flatten_nodup hcliques) hmembers
    (ofRecords_collapseOf hcliques hflat settings.policy).nonempty fun _ =>
      h.retains_iff

theorem Merges.length_records
    (h : graph.Merges settings.policy cliques pass built) (hflat : graph.Flat)
    (hpass : graph.mergeSimilar settings = .ok pass) :
    pass.graph.records.length + cliques.flatten.length =
      graph.records.length + cliques.length := by
  have horder := congrArg List.length (h.records_order hflat hcliques hpass)
  rw [List.length_map, List.length_map] at horder
  rw [horder, h.length_retained hcliques hflat graph.records_nodup
    fun _ => cliques_flatten_subset hcliques, List.length_map]

theorem Merges.length_candidates
    (h : graph.Merges settings.policy cliques pass built) (hflat : graph.Flat)
    (hpass : graph.mergeSimilar settings = .ok pass) :
    pass.graph.candidates.length + cliques.flatten.length =
      graph.candidates.length + cliques.length := by
  have hmembers : ∀ ref ∈ cliques.flatten, ref ∈ graph.candidates := by
    intro ref href
    obtain ⟨clique, hclique, hmem⟩ := List.mem_flatten.mp href
    exact mem_candidates_of_mem_clique hcliques hclique hmem
  rw [h.candidates_order hflat hcliques hpass, List.length_map]
  exact h.length_retained hcliques hflat graph.candidates_nodup hmembers

end Counts

theorem mergeSimilar_corresponds [Share σ] {settings : Settings σ}
    {graph : Graph} (hbuilt : graph.Built) {pass : MergePass}
    (hpass : graph.mergeSimilar settings = .ok pass) :
    graph.Corresponds pass := by
  have hflat := hbuilt.flat
  obtain ⟨cliques, built, hcliques, hmerges⟩ := exists_merges hflat hpass
  have hready := (ofRecords_collapseOf hcliques hflat settings.policy).toReady
  have hmerged : pass.summary.mergedRecords = cliques.flatten.length := by
    rw [mergedRecords_eq, hmerges.partition]
  have hcount := hmerges.length_records hcliques hflat hpass
  have hle := length_cliques_flatten_le hcliques
  refine
    { follow := hmerges.follow_eq_ok
      order := hmerges.records_order hflat hcliques hpass
      joined := fun {left right} hleft hright => ?_
      kept := fun {ref content hints} hnode houtside => ?_
      sublists := fun clique hclique => ?_
      free := fun clique hclique ref href => ?_
      merged_length := ?_
      merged_ordered := hmerges.merged_ordered hcliques hready
      mergedInto := ?_
      merged_le := hmerged ▸ hle
      length := ?_ }
  · obtain ⟨_, hleft⟩ := mem_records_fst.mp hleft
    obtain ⟨_, hright⟩ := mem_records_fst.mp hright
    rw [hmerges.passage, hmerges.partition,
      hready.redirect_eq_iff (has_of_record? hleft) (has_of_record? hright)]
    exact hready.leader_eq_iff (survivor?_eq_none_of_record? hleft)
      (survivor?_eq_none_of_record? hright)
  · rw [hmerges.partition] at houtside
    exact hmerges.node?_kept hready hnode
      (Collapse.group?_eq_none_iff.mpr houtside)
  · exact clique_sublist_records hcliques (hmerges.partition ▸ hclique)
  · exact mem_candidates.mp
      (mem_candidates_of_mem_clique hcliques (hmerges.partition ▸ hclique) href)
  · rw [hmerges.merged, List.length_map, hmerges.partition]
  · rw [hmerges.partition]
    exact hmerges.mergedInto?_eq_some_iff hready
  · rw [hmerged, hmerges.partition]
    omega

theorem twins_correspond :
    ∃ pass, twins.mergeSimilar ⟨(1 / 2 : Rat), .lenient⟩ = .ok pass ∧
      twins.Corresponds pass := by
  have hpos : (0 : Rat) < 1 / 2 := by decide +kernel
  obtain ⟨pass, _, _, hpass, _⟩ :=
    twins_built.flat.exists_pass hpos (by decide +kernel) .lenient
  exact ⟨pass, hpass, mergeSimilar_corresponds twins_built hpass⟩

end Graph

end ShapeMerge
