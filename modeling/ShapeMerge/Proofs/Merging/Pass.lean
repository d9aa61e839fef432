import ShapeMerge.Builder.Operation
import ShapeMerge.Proofs.Builder.History
import ShapeMerge.Proofs.Merging.Cliques
import ShapeMerge.Proofs.Merging.MergedRecord

namespace ShapeMerge

/-!
A whole merge pass over a flat graph.  Once the cliques have been found nothing
can fail, and the graph that comes out is the collapse of the cliques into their
merged records.  The graphs that builders hand out, and those that merge passes
make of them, are flat, so with an exact share a pass never fails on one of
them.
-/

namespace Collapse.Ready

variable {collapse : Collapse}

theorem leads (h : collapse.Ready) (hflat : collapse.graph.Flat) :
    collapse.passage.Leads (collapse.draft collapse.passage) :=
  ⟨hflat, follow_eq_ok, h.draft_has⟩

end Collapse.Ready

namespace Graph

variable {graph : Graph} {cliques : List (List Ref)}

/-- The records of a clique and the contents of their fields, fit to be
merged. -/
structure Gathers (graph : Graph) (clique : List Ref) (records : List Record)
    (contents : NameMap FieldContent) : Prop where
  source : clique.map graph.record? = records.map some
  gathered : graph.fieldContents clique = .ok contents
  find? : ∀ {name content}, contents.find? name = some content ↔
    name ∈ allNames records ∧ content = graph.contentOf records name
  agree : ∀ left ∈ records, ∀ right ∈ records, graph.FieldsAgree left right

theorem mem_of_map_record? {clique : List Ref} {records : List Record}
    (h : clique.map graph.record? = records.map some) {content : Record} :
    content ∈ records ↔ ∃ ref ∈ clique, graph.record? ref = some content := by
  have hmem : some content ∈ records.map some ↔ content ∈ records := by simp
  rw [← hmem, ← h, List.mem_map]

theorem Gathers.uniform {clique : List Ref} {records : List Record}
    {contents : NameMap FieldContent}
    (h : graph.Gathers clique records contents) (hflat : graph.Flat)
    {passage : Passage} (hpassage : passage.graph = graph) {name : String}
    {content : FieldContent} (hcontent : contents.find? name = some content) :
    passage.Uniform content := by
  subst hpassage
  obtain ⟨_, rfl⟩ := h.find?.mp hcontent
  refine ⟨fun ref href => ?_, fun x hx y hy => contentOf_kinds h.agree hx hy⟩
  obtain ⟨record, hrecord, field, hfield, hcontributed⟩ :=
    mem_shapes_contentOf.mp href
  obtain ⟨member, _, hmember⟩ := (mem_of_map_record? h.source).mp hrecord
  exact contributed_has hflat (hflat.holds hmember hfield) hcontributed

theorem Gathers.mem_names_iff {clique : List Ref}
    {records : List Record} {contents : NameMap FieldContent}
    (h : graph.Gathers clique records contents) {name : String} :
    name ∈ contents.names ↔
      ∃ content ∈ records, name ∈ content.fields.names := by
  rw [NameMap.mem_names_iff, ← mem_allNames]
  simp only [h.find?, exists_and_left, exists_eq, and_true]

theorem Gathers.makes {clique : List Ref}
    {records : List Record} {contents : NameMap FieldContent}
    (h : graph.Gathers clique records contents)
    {passage : Passage} {builder : Builder} {slot made : Ref} {merged : Record}
    (hstands : passage.Stands builder clique slot merged contents)
    {name : String} (hmade : merged.fields.find? name = some made) :
    passage.Makes builder (graph.contentOf records name) made := by
  obtain ⟨content, hcontent, hmakes⟩ := hstands.fields hmade
  rw [← (h.find?.mp hcontent).2]
  exact hmakes

section Clique

variable [Share σ] {share : σ} (hcliques : graph.cliques share = .ok cliques)
  (hflat : graph.Flat) {clique : List Ref} (hclique : clique ∈ cliques)

include hcliques hflat hclique

theorem clique_fieldsAgree {x y : Ref} (hx : x ∈ clique) (hy : y ∈ clique)
    {left right : Record} (hleft : graph.record? x = some left)
    (hright : graph.record? y = some right) : graph.FieldsAgree left right := by
  by_cases heq : x = y
  · subst heq
    obtain rfl := Option.some.inj (hleft.symm.trans hright)
    exact fieldsAgree_refl graph left
  · rcases or_of_pairwise (clique_mergeable hcliques hclique) hx hy heq with
      hyes | hyes
    · exact fieldsAgree_of_mergeableRefs hflat hleft hright hyes
    · exact FieldsAgree.symm
        (fieldsAgree_of_mergeableRefs hflat hright hleft hyes)

theorem exists_gathers :
    ∃ records contents, graph.Gathers clique records contents := by
  have hall :
      ∀ ref ∈ clique, ∃ content, graph.record? ref = some content ∧ True := by
    intro ref href
    obtain ⟨content, hcontent, _⟩ :=
      mem_candidates.mp (mem_candidates_of_mem_clique hcliques hclique href)
    exact ⟨content, hcontent, trivial⟩
  obtain ⟨records, hmapM, _⟩ := exists_mapM_eq_some hall
  have hrecords := mapM_eq_some_iff.mp hmapM
  have hsource {content : Record} (hcontent : content ∈ records) :=
    (mem_of_map_record? hrecords).mp hcontent
  have hholds : ∀ content ∈ records, graph.Holds content := by
    intro content hcontent
    obtain ⟨ref, _, hrecord⟩ := hsource hcontent
    exact hflat.holds hrecord
  obtain ⟨contents, hcontents, hiff⟩ :=
    exists_fieldContents hflat hrecords hholds
  refine ⟨records, contents, hrecords, hcontents, hiff,
    fun left hleft right hright => ?_⟩
  obtain ⟨x, hx, hleft⟩ := hsource hleft
  obtain ⟨y, hy, hright⟩ := hsource hright
  exact clique_fieldsAgree hcliques hflat hclique hx hy hleft hright

end Clique

def collapseOf (graph : Graph) (policy : FormatPolicy)
    (cliques : List (List Ref)) : Collapse :=
  ⟨graph, policy, cliques⟩

theorem ofRecords_collapseOf [Share σ] {share : σ}
    (hcliques : graph.cliques share = .ok cliques) (hflat : graph.Flat)
    (policy : FormatPolicy) : (graph.collapseOf policy cliques).OfRecords where
  wellFormed := hflat.toWellFormed
  nonempty clique hclique hempty := by
    have hlong := (mem_groups_of_mem_cliques hcliques hclique).2
    rw [hempty] at hlong
    exact absurd hlong (by decide)
  disjoint := cliques_flatten_nodup hcliques
  has ref href := by
    obtain ⟨clique, hclique, hmem⟩ := List.mem_flatten.mp href
    obtain ⟨content, hrecord, _⟩ :=
      mem_candidates.mp (mem_candidates_of_mem_clique hcliques hclique hmem)
    exact has_of_record? hrecord
  flat := hflat
  records clique hclique ref href := by
    obtain ⟨content, hrecord, _⟩ :=
      mem_candidates.mp (mem_candidates_of_mem_clique hcliques hclique href)
    exact kind?_of_shape? (record?_eq_some_iff.mp hrecord)

def passOf (graph : Graph) (cliques : List (List Ref))
    (collapsed : Collapsed (Ref × List Warning)) : MergePass where
  graph := collapsed.graph
  summary := ⟨graph.candidates.length, cliques, collapsed.reports.map (·.1)⟩
  warnings := collapsed.reports.map (·.2)
  passage := collapsed.passage

theorem mergeSimilar_eq_ok_iff [Share σ] {settings : Settings σ}
    {pass : MergePass} :
    graph.mergeSimilar settings = .ok pass ↔
      settings.check = .ok () ∧
        ∃ cliques collapsed, graph.cliques settings.overlap = .ok cliques ∧
          (graph.collapseOf settings.policy cliques).run .graph buildMerged =
            .ok collapsed ∧ pass = graph.passOf cliques collapsed := by
  simp only [mergeSimilar, bind_eq_ok_iff, pure_eq_ok_iff]
  constructor
  · intro h
    obtain ⟨_, hcheck, cliques, hcliques, collapsed, hrun, hpass⟩ := h
    exact ⟨hcheck, cliques, collapsed, hcliques, hrun, hpass⟩
  · intro h
    obtain ⟨hcheck, cliques, collapsed, hcliques, hrun, hpass⟩ := h
    exact ⟨(), hcheck, cliques, hcliques, collapsed, hrun, hpass⟩

/-- What a merge pass comes to: the cliques collapsed, with a merged record in
the place of each. -/
structure Merges (graph : Graph)
    (policy : FormatPolicy) (cliques : List (List Ref)) (pass : MergePass)
    (built : Builder) : Prop where
  passage : pass.passage = (graph.collapseOf policy cliques).passage
  realizes : (graph.collapseOf policy cliques).Realizes pass.graph built
  partition : pass.summary.cliques = cliques
  merged : pass.summary.merged =
    cliques.map fun clique => pass.passage.redirect (Collapse.earliest clique)
  stands : ∀ clique ∈ cliques,
    ∃ records merged contents, graph.Gathers clique records contents ∧
      pass.passage.Stands built clique
        (pass.passage.redirect (Collapse.earliest clique)) merged contents

section Merged

variable {policy : FormatPolicy} {pass : MergePass}
  {built : Builder} {ref : Ref}

theorem Merges.follow_eq_ok (h : graph.Merges policy cliques pass built)
    (href : graph.has ref = true) :
    pass.passage.follow ref = .ok (pass.passage.redirect ref) := by
  rw [h.passage]
  exact Collapse.follow_eq_ok href

theorem Merges.exists_merged (h : graph.Merges policy cliques pass built)
    (hready : (graph.collapseOf policy cliques).Ready) {clique : List Ref}
    (hclique : clique ∈ cliques) (href : ref ∈ clique) :
    ∃ records merged contents, graph.Gathers clique records contents ∧
      pass.passage.Stands built clique
        (pass.passage.redirect ref) merged contents ∧
      pass.graph.shape? (pass.passage.redirect ref) =
        some (.record merged) := by
  have hslot : pass.passage.redirect ref =
      pass.passage.redirect (Collapse.earliest clique) := by
    rw [h.passage,
      hready.redirect_of_mem hclique href (hready.earliest_mem hclique)]
  obtain ⟨records, merged, contents, hgathers, hstands⟩ :=
    h.stands clique hclique
  rw [← hslot] at hstands
  refine ⟨records, merged, contents, hgathers, hstands, ?_⟩
  rw [shape?, h.realizes.node?, hstands.node]
  rfl

end Merged

def Reported (graph : Graph) (passage : Passage) (built : Builder) (site : Site)
    (report : Ref × List Warning) : Prop :=
  report.1 = site.slot ∧
    ∃ records merged contents, graph.Gathers site.members records contents ∧
      passage.Stands built site.members site.slot merged contents

theorem Reported.mono {passage : Passage} {before after : Builder}
    {site : Site} {report : Ref × List Warning} (hext : before.Extends after)
    (h : graph.Reported passage before site report) :
    graph.Reported passage after site report := by
  obtain ⟨hslot, records, merged, contents, hgathers, hstands⟩ := h
  exact ⟨hslot, records, merged, contents, hgathers, hstands.mono hext⟩

theorem builds_buildMerged {collapse : Collapse} (hrecords : collapse.OfRecords)
    {site : Site} (hgathers : ∃ records contents,
      collapse.graph.Gathers site.members records contents) :
    Collapse.Builds (buildMerged collapse.passage)
      (collapse.graph.Reported collapse.passage)
      (collapse.draft collapse.passage) site := by
  intro builder hext hsettled hslot
  obtain ⟨records, contents, hgathers⟩ := hgathers
  have hleads := (hrecords.leads hrecords.flat).mono hext
  obtain ⟨warnings, after, merged, hmerge, hfills, hafter, hstands⟩ :=
    Passage.exists_mergeRecords hleads hsettled hslot hgathers.gathered
      (hgathers.uniform hrecords.flat rfl)
  refine ⟨(site.slot, warnings), after, ?_, hfills, hafter, rfl, records,
    merged, contents, hgathers, hstands⟩
  simp only [buildMerged, hmerge, bind, Except.bind]
  rfl

/-- Whatever else holds of the sites and the reports that a constructor is known
to make, it holds at the end of the pass. -/
theorem exists_collapsed [Share σ] {settings : Settings σ} (hflat : graph.Flat)
    (hcheck : settings.check = .ok ()) {cliques : List (List Ref)}
    (hcliques : graph.cliques settings.overlap = .ok cliques)
    (outcome : Builder → Site → Ref × List Warning → Prop)
    (hmono : ∀ {before after site report}, before.Extends after →
      outcome before site report → outcome after site report)
    (hreported : ∀ {built site report}, outcome built site report →
      graph.Reported (graph.collapseOf settings.policy cliques).passage
        built site report)
    (hbuilds : ∀ site ∈ (graph.collapseOf settings.policy cliques).sites
        (graph.collapseOf settings.policy cliques).passage,
      Collapse.Builds
        (buildMerged (graph.collapseOf settings.policy cliques).passage)
        outcome
        ((graph.collapseOf settings.policy cliques).draft
          (graph.collapseOf settings.policy cliques).passage) site) :
    ∃ collapsed built,
      graph.mergeSimilar settings = .ok (graph.passOf cliques collapsed) ∧
      graph.Merges settings.policy cliques
        (graph.passOf cliques collapsed) built ∧
      List.Forall₂ (outcome built)
        ((graph.collapseOf settings.policy cliques).sites
          (graph.collapseOf settings.policy cliques).passage)
        collapsed.reports := by
  let collapse := graph.collapseOf settings.policy cliques
  have hrecords : collapse.OfRecords :=
    ofRecords_collapseOf hcliques hflat settings.policy
  obtain ⟨collapsed, built, hrun, hpassage, hrealizes, hreports⟩ :=
    hrecords.exists_run .graph outcome hmono hbuilds
  have hslots : (collapse.sites collapse.passage).map (·.slot) =
      collapsed.reports.map (·.1) :=
    map_eq_map_of_forall₂
      (hreports.imp fun _ _ houtcome => (hreported houtcome).1.symm)
  refine ⟨collapsed, built, mergeSimilar_eq_ok_iff.mpr ⟨hcheck,
    cliques, collapsed, hcliques, hrun, rfl⟩,
    ⟨hpassage, hrealizes, rfl, ?_, fun clique hclique => ?_⟩, hreports⟩
  · rw [passOf, hpassage]
    exact hslots.symm.trans (Collapse.sites_slots _)
  · have hmember :
        clique ∈ (collapse.sites collapse.passage).map (·.members) := by
      rw [Collapse.sites_members]
      exact hclique
    obtain ⟨site, hsite, rfl⟩ := List.mem_map.mp hmember
    obtain ⟨report, _, houtcome⟩ := exists_of_forall₂ hreports hsite
    rw [passOf, hpassage, ← (Collapse.mem_sites hsite).2]
    exact (hreported houtcome).2

theorem exists_mergeSimilar [Share σ]
    {settings : Settings σ} (hflat : graph.Flat)
    (hcheck : settings.check = .ok ()) {cliques : List (List Ref)}
    (hcliques : graph.cliques settings.overlap = .ok cliques) :
    ∃ pass built, graph.mergeSimilar settings = .ok pass ∧
      graph.Merges settings.policy cliques pass built := by
  obtain ⟨collapsed, built, hpass, hmerges, _⟩ := exists_collapsed hflat hcheck
    hcliques (graph.Reported (graph.collapseOf settings.policy cliques).passage)
    Reported.mono id fun site hsite =>
      builds_buildMerged (ofRecords_collapseOf hcliques hflat settings.policy)
      (exists_gathers hcliques hflat (Collapse.mem_sites hsite).1)
  exact ⟨_, built, hpass, hmerges⟩

theorem exists_merges [Share σ] {settings : Settings σ} {pass : MergePass}
    (hflat : graph.Flat) (h : graph.mergeSimilar settings = .ok pass) :
    ∃ cliques built, graph.cliques settings.overlap = .ok cliques ∧
      graph.Merges settings.policy cliques pass built := by
  obtain ⟨hcheck, cliques, _, hcliques, _⟩ := mergeSimilar_eq_ok_iff.mp h
  obtain ⟨other, built, hother, hmerges⟩ :=
    exists_mergeSimilar hflat hcheck hcliques
  obtain rfl := Except.ok.inj (h.symm.trans hother)
  exact ⟨cliques, built, hcliques, hmerges⟩

inductive Built : Graph → Prop
  | finished {policy : FormatPolicy}
      {history : List Builder.Operation} {graph : Graph}
      (h : ((Builder.start policy).replay history).toGraph = .ok graph) :
      Built graph
  | merged {σ : Type} [Share σ] {settings : Settings σ} {graph : Graph}
      {pass : MergePass} (hbuilt : Built graph)
      (h : graph.mergeSimilar settings = .ok pass) : Built pass.graph

theorem Built.flat {graph : Graph} (h : graph.Built) : graph.Flat := by
  induction h with
  | @finished policy history graph hgraph =>
      have hsafe := (Builder.start policy).safe_replay history
      exact (hsafe.sound (Builder.sound_start policy)).flat_of_toGraph hgraph
  | merged _ hpass ih =>
      obtain ⟨cliques, built, _, hmerges⟩ := exists_merges ih hpass
      exact hmerges.realizes.flat

theorem check_share_eq_ok {share : Rat} (hpos : 0 < share) (hle : share ≤ 1)
    (policy : FormatPolicy) :
    (⟨share, policy⟩ : Settings Rat).check = .ok () := by
  have hshare : (Share.value share).isShare = true := by
    simp [Share.value, Extended.isShare, hpos, hle]
  rw [Settings.check, if_pos hshare]

theorem Flat.exists_pass {graph : Graph} (hflat : graph.Flat) {share : Rat}
    (hpos : 0 < share) (hle : share ≤ 1) (policy : FormatPolicy) :
    ∃ pass cliques built, graph.mergeSimilar ⟨share, policy⟩ = .ok pass ∧
      graph.cliques share = .ok cliques ∧
      graph.Merges policy cliques pass built := by
  obtain ⟨cliques, hcliques⟩ := exists_cliques_eq_ok hflat share
  have hcheck := check_share_eq_ok hpos hle policy
  obtain ⟨pass, built, hpass, hmerges⟩ :=
    exists_mergeSimilar hflat hcheck hcliques
  exact ⟨pass, cliques, built, hpass, hcliques, hmerges⟩

theorem mergeSimilar_total {graph : Graph} (hbuilt : graph.Built) {share : Rat}
    (hpos : 0 < share) (hle : share ≤ 1) (policy : FormatPolicy) :
    ∃ pass, graph.mergeSimilar ⟨share, policy⟩ = .ok pass ∧
      pass.graph.check = .ok () := by
  obtain ⟨pass, cliques, built, hpass, _, hmerges⟩ :=
    hbuilt.flat.exists_pass hpos hle policy
  exact ⟨pass, hpass, check_eq_ok_iff.mpr hmerges.realizes.flat.toWellFormed⟩

/-- Two records with the same fields, one of them after a field that it does not
have. -/
def twinRecords : List Builder.Operation := [
  .primitive .integer,
  .record .blank ⟨.ofList [("id", ⟨0⟩)], false⟩ none,
  .nullable .blank ⟨0⟩,
  .record .blank ⟨.ofList [("id", ⟨0⟩), ("size", ⟨3⟩)], false⟩ none,
  .record .blank ⟨.ofList [("id", ⟨0⟩)], false⟩ none]

def twins : Graph := {
  nodes := #[
    ⟨.primitive .integer, .blank⟩,
    ⟨.record ⟨.ofList [("id", ⟨0⟩)], false⟩, .blank⟩,
    ⟨.null, .blank⟩,
    ⟨.union [⟨2⟩, ⟨0⟩], .blank⟩,
    ⟨.record ⟨.ofList [("id", ⟨0⟩), ("size", ⟨3⟩)], false⟩, .blank⟩,
    ⟨.record ⟨.ofList [("id", ⟨0⟩)], false⟩, .blank⟩]
  roots := ∅ }

theorem twins_built : twins.Built := by
  have h :
      ((Builder.start .lenient).replay twinRecords).toGraph = .ok twins := by
    decide +kernel
  exact .finished h

theorem twins_mergeSimilar :
    ∃ pass, twins.mergeSimilar ⟨(1 / 2 : Rat), .lenient⟩ = .ok pass ∧
      pass.graph.check = .ok () :=
  mergeSimilar_total twins_built (by decide +kernel)
    (by decide +kernel) .lenient

end Graph

end ShapeMerge
