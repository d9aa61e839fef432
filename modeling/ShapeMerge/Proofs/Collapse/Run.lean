import Mathlib.Data.List.Forall2
import ShapeMerge.Proofs.Collapse.Draft

namespace ShapeMerge

namespace Builder

/-- The given slots are filled, and others may be added, all of them filled. -/
structure Fills (slots : List Ref) (before after : Builder) : Prop
    extends Extends before after where
  reserved : ∀ {ref}, after.Reserved ref ↔ before.Reserved ref ∧ ref ∉ slots
  roots : after.roots = before.roots

namespace Fills

variable {first second third : Builder} {slots others : List Ref}

theorem refl (builder : Builder) : Fills [] builder builder :=
  ⟨.refl builder, by simp, rfl⟩

theorem trans (h : Fills slots first second) (h' : Fills others second third) :
    Fills (slots ++ others) first third where
  toExtends := h.toExtends.trans h'.toExtends
  reserved := by
    intro ref
    rw [h'.reserved, h.reserved, List.mem_append, not_or, and_assoc]
  roots := h'.roots.trans h.roots

end Fills

theorem Grows.fills_of_fill {first second third : Builder} {slot made : Ref}
    {content : Record} {hints : Hints} (h : first.Grows second)
    (hfill : second.fill slot (.record content) hints = .ok (made, third)) :
    Fills [slot] first third where
  toExtends := h.toExtends.trans (extends_fill hfill rfl)
  reserved := by
    intro ref
    rw [reserved_fill hfill, h.reserved, List.mem_singleton]
  roots := (roots_fill hfill).trans h.roots

end Builder

namespace Collapse

open Builder

theorem construct_preserves
    {build : Site → Builder → Except ε ((Ref × α) × Builder)}
    {related : Builder → Builder → Prop}
    (hrefl : ∀ builder, related builder builder)
    (htrans : ∀ {first second third},
      related first second → related second third → related first third)
    (hbuild : ∀ {site builder result after},
      build site builder = .ok (result, after) → related builder after)
    {embed : GraphFault → ε}
    {sites : List Site} {builder after : Builder} {reports : List α}
    (h : construct embed build sites builder = .ok (reports, after)) :
    related builder after := by
  induction sites generalizing builder reports with
  | nil =>
      cases h
      exact hrefl _
  | cons site rest ih =>
      obtain ⟨⟨⟨made, report⟩, middle⟩, hfirst, hothers⟩ := bind_eq_ok_iff.mp h
      dsimp only at hothers
      split at hothers
      · cases hothers
      · obtain ⟨⟨others, finished⟩, hrest, hresult⟩ := bind_eq_ok_iff.mp hothers
        cases hresult
        exact htrans (hbuild hfirst) (ih hrest)

section Construct

variable {ε α : Type} {embed : ε → δ}
  {build : Site → Builder → Except δ ((Ref × α) × Builder)}
  {outcome : Builder → Site → α → Prop}

/-- A constructor that fills the slot of its site, and reports an outcome. -/
def Builds (build : Site → Builder → Except δ ((Ref × α) × Builder))
    (outcome : Builder → Site → α → Prop) (draft : Builder)
    (site : Site) : Prop :=
  ∀ {builder}, draft.Extends builder →
    builder.Settled → builder.Reserved site.slot →
    ∃ report after, build site builder = .ok ((site.slot, report), after) ∧
      Fills [site.slot] builder after ∧ after.Settled ∧
      outcome after site report

theorem exists_construct {draft builder : Builder} {sites : List Site}
    (hbuilds : ∀ site ∈ sites, Builds build outcome draft site)
    (hmono : ∀ {before after site report}, before.Extends after →
      outcome before site report → outcome after site report)
    (hext : draft.Extends builder) (hsettled : builder.Settled)
    (hreserved : ∀ site ∈ sites, builder.Reserved site.slot)
    (hslots : (sites.map (·.slot)).Nodup) (embed : GraphFault → δ) :
    ∃ reports after,
      construct embed build sites builder = .ok (reports, after) ∧
      Fills (sites.map (·.slot)) builder after ∧ after.Settled ∧
      List.Forall₂ (outcome after) sites reports := by
  induction sites generalizing builder with
  | nil => exact ⟨[], builder, rfl, .refl builder, hsettled, .nil⟩
  | cons site rest ih =>
      obtain ⟨hfirst, hrest⟩ := List.forall_mem_cons.mp hbuilds
      obtain ⟨hslot, hothers⟩ := List.forall_mem_cons.mp hreserved
      rw [List.map_cons, List.nodup_cons] at hslots
      obtain ⟨report, middle, hbuild, hfills, hmiddle, houtcome⟩ :=
        hfirst hext hsettled hslot
      -- No two sites share a slot, so the first leaves those of the others
      -- reserved.
      have hwaiting : ∀ other ∈ rest, middle.Reserved other.slot := by
        intro other hother
        refine hfills.reserved.mpr ⟨hothers other hother, ?_⟩
        rw [List.mem_singleton]
        intro heq
        exact hslots.1 (heq ▸ List.mem_map_of_mem hother)
      obtain ⟨reports, after, hconstruct, hfills', hafter, hall⟩ :=
        ih hrest (hext.trans hfills.toExtends) hmiddle hwaiting hslots.2
      refine ⟨report :: reports, after, ?_, hfills.trans hfills', hafter,
        .cons (hmono hfills'.toExtends houtcome) hall⟩
      rw [construct, hbuild]
      simp [bind, Except.bind, hconstruct, pure, Except.pure]

end Construct

section Roots

theorem slots_nameRoots {passage : Passage}
    {entries : List (String × Ref)} {builder named : Builder}
    (h : nameRoots passage entries builder = .ok named) :
    named.slots = builder.slots := by
  induction entries generalizing builder with
  | nil =>
      cases h
      rfl
  | cons entry rest ih =>
      obtain ⟨middle, hroot, hrest⟩ := bind_eq_ok_iff.mp h
      obtain ⟨_, _, rfl⟩ := root_eq_ok_iff.mp hroot
      rw [ih hrest]

theorem exists_nameRoots (passage : Passage)
    (entries : List (String × Ref)) (builder : Builder)
    (hhas : ∀ entry ∈ entries, builder.has (passage.redirect entry.2) = true)
    (hnames : (entries.map (·.1)).Nodup)
    (hfresh : ∀ name ∈ entries.map (·.1), builder.roots.find? name = none) :
    ∃ roots : NameMap Ref,
      nameRoots passage entries builder = .ok { builder with roots } ∧
      ∀ {name target}, roots.find? name = some target ↔
        builder.roots.find? name = some target ∨
          ∃ old, (name, old) ∈ entries ∧ passage.redirect old = target := by
  induction entries generalizing builder with
  | nil => exact ⟨builder.roots, rfl, by simp⟩
  | cons entry rest ih =>
      obtain ⟨name, old⟩ := entry
      obtain ⟨hold, hrest⟩ := List.forall_mem_cons.mp hhas
      rw [List.map_cons, List.nodup_cons] at hnames
      rw [List.map_cons, List.forall_mem_cons] at hfresh
      let named := { builder with
        roots := builder.roots.insert name (passage.redirect old) }
      have hroot : builder.root name (passage.redirect old) = .ok named := by
        refine root_eq_ok_iff.mpr ⟨hold, ?_, rfl⟩
        rw [NameMap.contains, hfresh.1]
        rfl
      have hfind {other : String} (hne : other ≠ name) :
          named.roots.find? other = builder.roots.find? other :=
        builder.roots.find?_insert_of_ne hne _
      obtain ⟨roots, hroots, hiff⟩ :=
        ih named hrest hnames.2 fun other hother => by
        rw [hfind fun heq => hnames.1 (heq ▸ hother)]
        exact hfresh.2 other hother
      refine ⟨roots, ?_, fun {other target} => hiff.trans ?_⟩
      · rw [nameRoots, hroot]
        exact hroots
      · by_cases heq : other = name
        · subst heq
          have hnone : ∀ ref, (other, ref) ∉ rest :=
            fun ref hmem =>
              hnames.1 (List.mem_map.mpr ⟨(other, ref), hmem, rfl⟩)
          simp [named, hfresh.1, hnone]
        · simp [hfind heq, heq]

theorem Ready.exists_nameRoots {collapse : Collapse} (h : collapse.Ready)
    {built : Builder} (hext : (collapse.draft collapse.passage).Extends built)
    (hunnamed : built.roots = (collapse.draft collapse.passage).roots) :
    ∃ roots : NameMap Ref, nameRoots collapse.passage
        collapse.graph.roots.entries built = .ok { built with roots } ∧
      ∀ {name target}, roots.find? name = some target ↔
        ∃ old, collapse.graph.root? name = some old ∧
          collapse.passage.redirect old = target := by
  have hfresh (name : String) : built.roots.find? name = none := by
    rw [hunnamed]
    rfl
  obtain ⟨roots, hroots, hiff⟩ := Collapse.exists_nameRoots collapse.passage
    collapse.graph.roots.entries built
    (fun entry hentry => hext.has
      (h.draft_has (h.wellFormed.roots (NameMap.find?_eq_some_iff.mpr hentry))))
    collapse.graph.roots.names_nodup (fun name _ => hfresh name)
  refine ⟨roots, hroots, fun {name target} => hiff.trans ?_⟩
  rw [hfresh, or_iff_right (by simp)]
  exact exists_congr fun old =>
    and_congr_left fun _ => NameMap.find?_eq_some_iff.symm

end Roots

section Sites

variable {collapse : Collapse}

theorem sites_members (passage : Passage) :
    (collapse.sites passage).map (·.members) = collapse.groups := by
  rw [sites, List.map_map]
  exact List.zipIdx_map_fst 0 collapse.groups

theorem sites_slots (passage : Passage) :
    (collapse.sites passage).map (·.slot) =
      collapse.groups.map fun group => passage.redirect (earliest group) := by
  conv_rhs => rw [← sites_members passage]
  rw [sites, List.map_map, List.map_map, List.map_map]
  rfl

theorem mem_sites {passage : Passage} {site : Site}
    (h : site ∈ collapse.sites passage) :
    site.members ∈ collapse.groups ∧
      site.slot = passage.redirect (earliest site.members) := by
  obtain ⟨entry, hentry, rfl⟩ := List.mem_map.mp h
  exact ⟨List.fst_mem_of_mem_zipIdx hentry, rfl⟩

theorem Ready.slots_nodup (h : collapse.Ready) :
    ((collapse.sites collapse.passage).map (·.slot)).Nodup := by
  rw [sites_slots]
  apply List.pairwise_map.mpr
  refine List.Pairwise.imp_of_mem ?_ (List.nodup_flatten.mp h.disjoint).2
  intro first second hfirst hsecond hapart heq
  have hearliest := h.earliest_mem hfirst
  have hearliest' := h.earliest_mem hsecond
  rw [h.redirect_eq_iff (h.has_of_mem hfirst hearliest)
    (h.has_of_mem hsecond hearliest'),
    h.leader_of_mem hfirst hearliest, h.leader_of_mem hsecond hearliest'] at heq
  exact hapart hearliest (heq ▸ hearliest')

end Sites

theorem run_eq_ok_iff {collapse : Collapse} {embed : GraphFault → ε}
    {build : Passage → Site → Builder → Except ε ((Ref × α) × Builder)}
    {collapsed : Collapsed α} :
    collapse.run embed build = .ok collapsed ↔
      collapse.Ready ∧ ∃ reports built named graph,
        construct embed (build collapse.passage)
          (collapse.sites collapse.passage)
          (collapse.draft collapse.passage) = .ok (reports, built) ∧
        nameRoots collapse.passage collapse.graph.roots.entries built =
          .ok named ∧ named.toGraph = .ok graph ∧
        collapsed = ⟨graph, collapse.passage, reports⟩ := by
  rw [run]
  simp only [bind_eq_ok_iff, mapError_eq_ok_iff, pure_eq_ok_iff, Prod.exists]
  constructor
  · intro h
    obtain ⟨_, hcheck, reports, built, hconstruct, named, hnamed, graph, hgraph,
      hresult⟩ := h
    exact ⟨check_eq_ok_iff.mp hcheck, reports, built, named, graph, hconstruct,
      hnamed, hgraph, hresult⟩
  · intro h
    obtain ⟨hready, reports, built, named, graph, hconstruct, hnamed, hgraph,
      hresult⟩ := h
    exact ⟨(), check_eq_ok_iff.mpr hready, reports, built, hconstruct, named,
      hnamed, graph, hgraph, hresult⟩

/-- A graph that a collapse may yield: it holds the nodes of a builder that
extends the draft, and its roots are redirected. -/
structure Realizes (collapse : Collapse) (graph : Graph)
    (built : Builder) : Prop where
  draft : (collapse.draft collapse.passage).Extends built
  full : ∀ ref, ¬ built.Reserved ref
  node? : ∀ ref, graph.node? ref = built.node? ref
  roots : ∀ {name target}, graph.root? name = some target ↔
    ∃ old, collapse.graph.root? name = some old ∧
      collapse.passage.redirect old = target
  flat : graph.Flat

theorem OfRecords.exists_finish
    {collapse : Collapse} (h : collapse.OfRecords) {built : Builder}
    (hfills : Fills ((collapse.sites collapse.passage).map (·.slot))
      (collapse.draft collapse.passage) built) (hsettled : built.Settled) :
    ∃ named graph, nameRoots collapse.passage
        collapse.graph.roots.entries built = .ok named ∧
      named.toGraph = .ok graph ∧ collapse.Realizes graph built := by
  have hfull : ∀ ref, ¬ built.Reserved ref := by
    intro ref hleft
    obtain ⟨hdraft, hnew⟩ := hfills.reserved.mp hleft
    obtain ⟨group, hgroup, rfl⟩ := h.draft_reserved_iff.mp hdraft
    rw [sites_slots] at hnew
    exact hnew (List.mem_map.mpr ⟨group, hgroup, rfl⟩)
  obtain ⟨roots, hroots, hiff⟩ :=
    h.exists_nameRoots hfills.toExtends hfills.roots
  let named : Builder := { built with roots }
  have hnamed : named.Settled := hsettled.of_extends ⟨id, id, rfl⟩ Or.inl
  have hhas : ∀ {name target}, named.roots.find? name = some target →
      named.has target = true := by
    intro name target hfind
    obtain ⟨old, hold, rfl⟩ := hiff.mp hfind
    exact hfills.has (h.draft_has (h.wellFormed.roots hold))
  have hnamedFull : ∀ ref, ¬ named.Reserved ref := hfull
  refine ⟨named, named.filled, hroots, hnamed.toGraph_eq_ok hnamedFull hhas,
    hfills.toExtends, hfull, node?_filled hnamedFull, hiff, ?_⟩
  exact hnamed.flat hnamedFull (hnamed.wellFormed_filled hnamedFull hhas)

theorem OfRecords.exists_run {collapse : Collapse}
    (h : collapse.OfRecords) (embed : GraphFault → ε)
    {build : Passage → Site → Builder → Except ε ((Ref × α) × Builder)}
    (outcome : Builder → Site → α → Prop)
    (hmono : ∀ {before after site report}, before.Extends after →
      outcome before site report → outcome after site report)
    (hbuilds : ∀ site ∈ collapse.sites collapse.passage, Builds
      (build collapse.passage) outcome (collapse.draft collapse.passage) site) :
    ∃ collapsed built, collapse.run embed build = .ok collapsed ∧
      collapsed.passage = collapse.passage ∧
      collapse.Realizes collapsed.graph built ∧
      List.Forall₂ (outcome built) (collapse.sites collapse.passage)
        collapsed.reports := by
  have hreserved : ∀ site ∈ collapse.sites collapse.passage,
      (collapse.draft collapse.passage).Reserved site.slot := by
    intro site hsite
    obtain ⟨hgroup, hslot⟩ := mem_sites hsite
    exact h.draft_reserved_iff.mpr ⟨site.members, hgroup, hslot.symm⟩
  obtain ⟨reports, built, hconstruct, hfills, hsettled, houtcomes⟩ :=
    exists_construct hbuilds hmono (.refl _) h.settled_draft hreserved
      h.slots_nodup embed
  obtain ⟨named, graph, hroots, hgraph, hrealizes⟩ :=
    h.exists_finish hfills hsettled
  refine ⟨⟨graph, collapse.passage, reports⟩, built, ?_, rfl,
    hrealizes, houtcomes⟩
  exact run_eq_ok_iff.mpr
    ⟨h.toReady, reports, built, named, graph, hconstruct, hroots, hgraph, rfl⟩

end Collapse

end ShapeMerge
