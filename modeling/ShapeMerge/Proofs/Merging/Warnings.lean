import ShapeMerge.Proofs.Collapse.Realization
import ShapeMerge.Proofs.Merging.Pass

namespace ShapeMerge

namespace Graph

variable {graph : Graph} {ref : Ref}

theorem textLiterals?_eq_some_iff {literals : Option Tally} :
    graph.textLiterals? ref = some literals ↔
      graph.shape? ref = some (.text literals) := by
  rw [textLiterals?]
  split
  · rename_i hshape
    simp [hshape]
  · rename_i hother
    constructor
    · intro hnone
      cases hnone
    · intro hshape
      exact absurd hshape (hother _)

theorem kind?_of_map_textLiterals?
    {refs : List Ref} {texts : List (Option Tally)}
    (h : refs.map graph.textLiterals? = texts.map some) :
    ∀ ref ∈ refs, graph.kind? ref = some .text := by
  intro ref href
  have hmem : graph.textLiterals? ref ∈ texts.map some :=
    h ▸ List.mem_map_of_mem href
  obtain ⟨literals, _, hliterals⟩ := List.mem_map.mp hmem
  exact kind?_of_shape? (textLiterals?_eq_some_iff.mp hliterals.symm)

theorem map_textLiterals?_of_collectTexts
    {field : String} {refs : List Ref} {texts : List (Option Tally)}
    (h : graph.collectTexts field refs = .ok texts) :
    refs.map graph.textLiterals? = texts.map some := by
  induction refs generalizing texts with
  | nil =>
      cases h
      rfl
  | cons ref rest ih =>
      rw [collectTexts] at h
      split at h
      · cases h
      · rename_i literals hshape
        obtain ⟨others, hothers, hcons⟩ := bind_eq_ok_iff.mp h
        cases hcons
        rw [List.map_cons, List.map_cons, ih hothers,
          textLiterals?_eq_some_iff.mpr hshape]
      · cases h

end Graph

namespace Passage

open Builder

/-- What stands for the shapes of a field, and the literals that were given up
for it. -/
inductive Yields (passage : Passage) (builder : Builder) (field : String)
    (content : FieldContent) : Ref → List Warning → Prop
  | null {base : Ref} (hshapes : content.shapes = [])
      (hbase : builder.shape? base = some .null) :
      Yields passage builder field content base []
  | summed {base representative : Ref} {rest : List Ref}
      {texts : List (Option Tally)}
      (hshapes : content.shapes = representative :: rest)
      (htexts : content.shapes.map passage.graph.textLiterals? = texts.map some)
      (hall : none ∉ texts) (hbase : builder.node? base =
        some ⟨.text (some (.sum (texts.filterMap id))),
          .joinAll (content.shapes.filterMap passage.graph.hints?)⟩) :
      Yields passage builder field content base []
  | first {representative : Ref} {rest : List Ref} {texts : List (Option Tally)}
      (hshapes : content.shapes = representative :: rest)
      (htexts : content.shapes.map passage.graph.textLiterals? = texts.map some)
      (hplain : none ∈ texts) :
      Yields passage builder field content (passage.redirect representative)
        (if texts.any (·.isSome) then [⟨field, .mixedTexts⟩] else [])
  | other {representative : Ref} {rest : List Ref} {shape : Shape}
      {differ : Bool} (hshapes : content.shapes = representative :: rest)
      (hshape : passage.graph.shape? representative = some shape)
      (htext : shape.kind ≠ .text) (hdiffer : (if shape.kind =
        .union then passage.graph.textsDiffer none content.shapes
        else .ok false) = .ok differ) :
      Yields passage builder field content (passage.redirect representative)
        (if differ then [⟨field, .differingUnions⟩] else [])

def Completes (passage : Passage) (builder : Builder) (field : String)
    (content : FieldContent) (made : Ref) (warnings : List Warning) : Prop :=
  ∃ base, builder.has base = true ∧
    passage.Yields builder field content base warnings ∧
    if content.nullable then builder.Widened base made else made = base

variable {passage : Passage} {builder after : Builder} {field : String}
  {content : FieldContent} {base made : Ref} {warnings : List Warning}

theorem Yields.mono (h : passage.Yields builder field content base warnings)
    (hext : builder.Extends after) :
    passage.Yields after field content base warnings := by
  cases h with
  | null hshapes hbase => exact .null hshapes (hext.shape? hbase)
  | summed hshapes htexts hall hbase =>
      exact .summed hshapes htexts hall (hext.filled hbase)
  | first hshapes htexts hplain => exact .first hshapes htexts hplain
  | other hshapes hshape htext hdiffer =>
      exact .other hshapes hshape htext hdiffer

theorem Completes.mono
    (h : passage.Completes builder field content made warnings)
    (hext : builder.Extends after) :
    passage.Completes after field content made warnings := by
  obtain ⟨base, hbase, hyields, hmade⟩ := h
  exact ⟨base, hext.has hbase, hyields.mono hext, made_mono hext hbase hmade⟩

theorem Yields.field_eq
    (h : passage.Yields builder field content base warnings) :
    ∀ warning ∈ warnings, warning.field = field := by
  intro warning hwarning
  cases h with
  | null _ _ => cases hwarning
  | summed _ _ _ _ => cases hwarning
  | first _ _ _ =>
      split at hwarning
      · rw [List.mem_singleton.mp hwarning]
      · cases hwarning
  | other _ _ _ _ =>
      split at hwarning
      · rw [List.mem_singleton.mp hwarning]
      · cases hwarning

theorem Yields.silent_of_empty
    (h : passage.Yields builder field content base warnings)
    (hempty : content.shapes = []) : warnings = [] := by
  cases h with
  | null _ _ => rfl
  | summed _ _ _ _ => rfl
  | first hshapes _ _ => cases hempty.symm.trans hshapes
  | other hshapes _ _ _ => cases hempty.symm.trans hshapes

theorem Yields.carries
    (h : passage.Yields builder field content base warnings) :
    passage.Carries builder content base := by
  cases h with
  | null hshapes hbase => exact Or.inl ⟨hshapes, hbase⟩
  | @summed _ _ _ texts hshapes htexts _ hbase =>
      have hsum : builder.shape? base =
          some (.text (some (.sum (texts.filterMap id)))) := by
        rw [Builder.shape?, hbase]
        rfl
      refine Or.inr ⟨_, _, hshapes, Or.inr ⟨?_, _, hsum⟩⟩
      exact Graph.kind?_of_map_textLiterals? htexts _
        (hshapes ▸ List.mem_cons_self)
  | first hshapes _ _ => exact Or.inr ⟨_, _, hshapes, Or.inl rfl⟩
  | other hshapes _ _ _ => exact Or.inr ⟨_, _, hshapes, Or.inl rfl⟩

theorem Completes.makes
    (h : passage.Completes builder field content made warnings) :
    passage.Makes builder content made := by
  obtain ⟨base, hbase, hyields, hmade⟩ := h
  exact ⟨base, hbase, hyields.carries, hmade⟩

section Field

theorem redirect_of_carried {ref : Ref}
    (h : passage.carried ref builder = .ok (made, after)) :
    made = passage.redirect ref := by
  obtain ⟨target, hfollow, h⟩ := bind_eq_ok_iff.mp h
  obtain ⟨rfl, _⟩ := Prod.mk.inj (pure_eq_ok_iff.mp h)
  rw [mapError_eq_ok_iff, follow] at hfollow
  split at hfollow
  · rename_i hfound
    cases hfollow
    rw [redirect, hfound]
    rfl
  · cases hfollow

theorem yields_mergeTexts {representative : Ref} {rest : List Ref}
    (hshapes : content.shapes = representative :: rest)
    (h : passage.mergeTexts field content representative builder =
      .ok ((base, warnings), after)) :
    passage.Yields after field content base warnings := by
  obtain ⟨texts, htexts, h⟩ := bind_eq_ok_iff.mp h
  have htexts := Graph.map_textLiterals?_of_collectTexts htexts
  split at h
  · rename_i hall
    cases h
    refine .summed hshapes htexts (fun hnone => ?_) (builder.node?_append _ _)
    exact Bool.false_ne_true (List.all_eq_true.mp hall none hnone)
  · rename_i hall
    obtain ⟨⟨target, last⟩, hcarried, h⟩ := bind_eq_ok_iff.mp h
    cases h
    rw [redirect_of_carried hcarried]
    refine .first hshapes htexts ?_
    simpa using hall

theorem yields_mergeOthers {representative : Ref} {rest : List Ref}
    {shape : Shape} (hshapes : content.shapes = representative :: rest)
    (hshape : passage.graph.shape? representative = some shape)
    (htext : shape.kind ≠ .text)
    (h : passage.mergeOthers field content representative shape builder =
      .ok ((base, warnings), after)) :
    passage.Yields after field content base warnings := by
  rw [mergeOthers] at h
  split at h
  all_goals
    rename_i hunion
    obtain ⟨differ, hdiffer, h⟩ := bind_eq_ok_iff.mp h
    obtain ⟨⟨target, last⟩, hcarried, h⟩ := bind_eq_ok_iff.mp h
    cases h
    rw [redirect_of_carried hcarried]
    refine .other hshapes hshape htext ?_
  · rw [if_pos hunion]
    exact mapError_eq_ok_iff.mp hdiffer
  · rw [if_neg hunion]
    cases hdiffer
    rfl

theorem yields_mergeShapes
    (h : passage.mergeShapes field content builder =
      .ok ((base, warnings), after)) :
    passage.Yields after field content base warnings := by
  rw [mergeShapes] at h
  split at h
  · rename_i hshapes
    cases h
    exact .null hshapes (builder.shape?_append _ _)
  · rename_i representative rest hshapes
    split at h
    · cases h
    · exact yields_mergeTexts hshapes h
    · rename_i shape htext hshape
      refine yields_mergeOthers hshapes hshape (fun hkind => ?_) h
      cases shape with
      | text literals => exact htext literals rfl
      | _ => cases hkind

theorem completes_mergeField (hleads : passage.Leads builder)
    (hsettled : builder.Settled) (hcontent : passage.Uniform content)
    (h : passage.mergeField field content builder =
      .ok ((made, warnings), after)) :
    passage.Completes after field content made warnings := by
  obtain ⟨base, others, middle, hshapes, _, hmiddle, hbase, _⟩ :=
    exists_mergeShapes hleads hsettled hcontent field
  rw [mergeField, hshapes] at h
  have hyields := yields_mergeShapes hshapes
  dsimp only [bind, Except.bind] at h
  split at h
  · rename_i hnullable
    obtain ⟨other, last, hmake, hgrows, _, _, hwidened⟩ :=
      hmiddle.exists_nullable content.hints hbase
    rw [hmake] at h
    cases h
    refine ⟨base, hgrows.has hbase, hyields.mono hgrows.toExtends, ?_⟩
    rw [if_pos hnullable]
    exact hwidened
  · rename_i hnullable
    cases h
    refine ⟨made, hbase, hyields, ?_⟩
    rw [if_neg hnullable]

end Field

section Record

theorem completes_mergeFields (hleads : passage.Leads builder)
    (hsettled : builder.Settled) {entries : List (String × FieldContent)}
    (hcontents : ∀ entry ∈ entries, passage.Uniform entry.2)
    (hnames : (entries.map (·.1)).Nodup) {fields : List (String × Ref)}
    (h : passage.mergeFields entries builder =
      .ok ((fields, warnings), after)) :
    (∀ warning ∈ warnings, warning.field ∈ entries.map (·.1)) ∧
      ∀ entry ∈ entries, ∃ made, (entry.1, made) ∈ fields ∧
        passage.Completes after entry.1 entry.2 made
          (warnings.filter (·.field = entry.1)) := by
  induction entries generalizing builder fields warnings with
  | nil =>
      cases h
      exact ⟨List.forall_mem_nil _, List.forall_mem_nil _⟩
  | cons entry rest ih =>
      obtain ⟨field, content⟩ := entry
      obtain ⟨hfirst, hrest⟩ := List.forall_mem_cons.mp hcontents
      rw [List.map_cons, List.nodup_cons] at hnames
      obtain ⟨⟨⟨made, own⟩, middle⟩, hfield, h⟩ := bind_eq_ok_iff.mp h
      obtain ⟨⟨⟨others, more⟩, last⟩, hfields, h⟩ := bind_eq_ok_iff.mp h
      cases h
      obtain ⟨_, _, _, hfirstMade, hgrows, hmiddle, _⟩ :=
        exists_mergeField hleads hsettled hfirst field
      cases hfield.symm.trans hfirstMade
      obtain ⟨_, _, _, hrestMade, hgrows', _⟩ :=
        exists_mergeFields (hleads.mono hgrows.toExtends) hmiddle hrest
      cases hfields.symm.trans hrestMade
      have hcompletes := completes_mergeField hleads hsettled hfirst hfield
      obtain ⟨hmore, hothers⟩ :=
        ih (hleads.mono hgrows.toExtends) hmiddle hrest hnames.2 hfields
      have hown : ∀ warning ∈ own, warning.field = field := by
        obtain ⟨_, _, hyields, _⟩ := hcompletes
        exact hyields.field_eq
      refine ⟨List.forall_mem_append.mpr ⟨fun warning hwarning => ?_,
        fun warning hwarning => ?_⟩, List.forall_mem_cons.mpr
        ⟨⟨made, List.mem_cons_self, ?_⟩, fun other hother => ?_⟩⟩
      · exact hown warning hwarning ▸ List.mem_cons_self
      · exact List.mem_cons_of_mem _ (hmore warning hwarning)
      · have hapart : more.filter (·.field = field) = [] := by
          rw [List.filter_eq_nil_iff]
          intro warning hwarning hfield
          exact hnames.1 (of_decide_eq_true hfield ▸ hmore warning hwarning)
        have hkept : own.filter (·.field = field) = own :=
          List.filter_eq_self.mpr fun warning hwarning =>
            decide_eq_true (hown warning hwarning)
        rw [List.filter_append, hkept, hapart, List.append_nil]
        exact hcompletes.mono hgrows'.toExtends
      · obtain ⟨target, htarget, hother'⟩ := hothers other hother
        have hapart : own.filter (·.field = other.1) = [] := by
          rw [List.filter_eq_nil_iff]
          intro warning hwarning hfield
          refine hnames.1 ?_
          rw [← hown warning hwarning, of_decide_eq_true hfield]
          exact List.mem_map.mpr ⟨other, hother, rfl⟩
        refine ⟨target, List.mem_cons_of_mem _ htarget, ?_⟩
        rw [List.filter_append, hapart, List.nil_append]
        exact hother'

/-- How the fields of a merged record were made, and that nothing else was
reported about it. -/
structure Explains (passage : Passage)
    (builder : Builder) (contents : NameMap FieldContent) (merged : Record)
    (warnings : List Warning) : Prop where
  fields : ∀ {name content}, contents.find? name = some content →
    ∃ made, merged.fields.find? name = some made ∧
      passage.Completes builder name content made
        (warnings.filter (·.field = name))
  warned :
    ∀ warning ∈ warnings, ∃ content, contents.find? warning.field = some content

theorem Explains.mono {contents : NameMap FieldContent}
    {merged : Record} (h : passage.Explains builder contents merged warnings)
    (hext : builder.Extends after) :
    passage.Explains after contents merged warnings where
  fields hcontent := by
    obtain ⟨made, hmade, hcompletes⟩ := h.fields hcontent
    exact ⟨made, hmade, hcompletes.mono hext⟩
  warned := h.warned

theorem explains_mergeRecords (hleads : passage.Leads builder)
    (hsettled : builder.Settled) {members : List Ref} {slot : Ref}
    {contents : NameMap FieldContent}
    (hcontents : passage.graph.fieldContents members = .ok contents)
    (huniform : ∀ {name content}, contents.find? name = some content →
      passage.Uniform content) (h : passage.mergeRecords members slot builder =
        .ok ((made, warnings), after)) :
    ∃ merged, after.shape? slot = some (.record merged) ∧
      passage.Explains after contents merged warnings := by
  obtain ⟨_, hgathered, h⟩ := bind_eq_ok_iff.mp h
  cases hcontents.symm.trans hgathered
  obtain ⟨⟨⟨fields, others⟩, middle⟩, hfields, h⟩ := bind_eq_ok_iff.mp h
  obtain ⟨⟨target, last⟩, hrecord, h⟩ := bind_eq_ok_iff.mp h
  cases h
  obtain ⟨_, hfill⟩ :=
    Builder.record_some_eq_ok_iff.mp (mapError_eq_ok_iff.mp hrecord)
  have hentries : ∀ entry ∈ contents.entries, passage.Uniform entry.2 :=
    fun entry hentry => huniform (NameMap.find?_eq_some_iff.mpr hentry)
  obtain ⟨_, _, _, hmade, _, _, hnames, _⟩ :=
    exists_mergeFields hleads hsettled hentries
  cases hfields.symm.trans hmade
  obtain ⟨hwarned, hcompletes⟩ :=
    completes_mergeFields hleads hsettled hentries contents.names_nodup hfields
  have hnodup : (fields.map (·.1)).Nodup := hnames ▸ contents.names_nodup
  refine ⟨⟨.ofList fields, false⟩, ?_, fun {name content} hcontent => ?_,
    fun warning hwarning => ?_⟩
  · rw [Builder.shape?, Builder.node?_fill hfill]
    rfl
  · obtain ⟨made, hmem, hmade⟩ :=
      hcompletes (name, content) (NameMap.find?_eq_some_iff.mp hcontent)
    exact ⟨made, (NameMap.find?_ofList hnodup).mpr hmem,
      hmade.mono (Builder.extends_fill hfill rfl)⟩
  · exact NameMap.mem_names_iff.mp (hwarned warning hwarning)

end Record

end Passage

namespace Graph

variable {graph : Graph}

def Accounted (graph : Graph) (passage : Passage) (built : Builder)
    (site : Site) (report : Ref × List Warning) : Prop :=
  graph.Reported passage built site report ∧
    ∃ records merged contents, graph.Gathers site.members records contents ∧
      built.shape? site.slot = some (.record merged) ∧
      passage.Explains built contents merged report.2

theorem Accounted.mono {passage : Passage} {before after : Builder}
    {site : Site} {report : Ref × List Warning} (hext : before.Extends after)
    (h : graph.Accounted passage before site report) :
    graph.Accounted passage after site report := by
  obtain ⟨hreported, records, merged, contents, hgathers, hmerged, hexplains⟩ :=
    h
  exact ⟨hreported.mono hext, records, merged, contents, hgathers,
    hext.shape? hmerged, hexplains.mono hext⟩

theorem accounts_buildMerged {collapse : Collapse}
    (hrecords : collapse.OfRecords) {site : Site}
    (hgathers : ∃ records contents,
      collapse.graph.Gathers site.members records contents) :
    Collapse.Builds (buildMerged collapse.passage)
      (collapse.graph.Accounted collapse.passage)
      (collapse.draft collapse.passage) site := by
  intro builder hext hsettled hslot
  obtain ⟨report, after, hbuild, hfills, hafter, hreported⟩ :=
    builds_buildMerged hrecords hgathers hext hsettled hslot
  refine ⟨report, after, hbuild, hfills, hafter, hreported, ?_⟩
  obtain ⟨records, contents, hgathers⟩ := hgathers
  obtain ⟨⟨⟨made, warnings⟩, last⟩, hmerge, hresult⟩ := bind_eq_ok_iff.mp hbuild
  cases hresult
  obtain ⟨merged, hmerged, hexplains⟩ :=
    Passage.explains_mergeRecords ((hrecords.leads hrecords.flat).mono hext)
      hsettled hgathers.gathered (hgathers.uniform hrecords.flat rfl) hmerge
  exact ⟨records, merged, contents, hgathers, hmerged, hexplains⟩

/-- A merge pass with an account of what it reported about the cliques. -/
structure Recounts (graph : Graph) (policy : FormatPolicy)
    (cliques : List (List Ref)) (pass : MergePass) (built : Builder) : Prop
    extends graph.Merges policy cliques pass built where
  explained : ∀ {index : Nat} {clique : List Ref},
    cliques[index]? = some clique →
    ∃ warnings records merged contents, pass.warnings[index]? = some warnings ∧
      graph.Gathers clique records contents ∧
      pass.graph.record? (pass.passage.redirect (Collapse.earliest clique)) =
        some merged ∧ pass.passage.Explains built contents merged warnings

theorem exists_recounts [Share σ] {settings : Settings σ} {pass : MergePass}
    (hflat : graph.Flat) (h : graph.mergeSimilar settings = .ok pass) :
    ∃ cliques built, graph.cliques settings.overlap = .ok cliques ∧
      graph.Recounts settings.policy cliques pass built := by
  obtain ⟨hcheck, cliques, _, hcliques, _⟩ := mergeSimilar_eq_ok_iff.mp h
  let collapse := graph.collapseOf settings.policy cliques
  obtain ⟨collapsed, built, hpass, hmerges, hreports⟩ :=
    exists_collapsed hflat hcheck hcliques (graph.Accounted collapse.passage)
      Accounted.mono And.left fun site hsite =>
        accounts_buildMerged
          (ofRecords_collapseOf hcliques hflat settings.policy)
          (exists_gathers hcliques hflat (Collapse.mem_sites hsite).1)
  obtain rfl := Except.ok.inj (h.symm.trans hpass)
  refine ⟨cliques, built, hcliques, hmerges, fun {index clique} hclique => ?_⟩
  have hsites :=
    congrArg (·[index]?) (@Collapse.sites_members collapse collapse.passage)
  simp only [List.getElem?_map] at hsites
  obtain ⟨site, hsite, rfl⟩ := Option.map_eq_some_iff.mp (hsites.trans hclique)
  obtain ⟨⟨made, warnings⟩, hreport, _, records, merged, contents, hgathers,
    hmerged, hexplains⟩ :=
    exists_getElem?_of_forall₂ hreports hsite
  refine ⟨warnings, records, merged, contents, ?_, hgathers, ?_, ?_⟩
  · rw [passOf, List.getElem?_map, hreport]
    rfl
  · rw [record?_eq_some_iff, hmerges.passage,
      ← (Collapse.mem_sites (List.mem_of_getElem? hsite)).2,
      hmerges.realizes.shape?_eq, hmerged]
  · rw [hmerges.passage]
    exact hexplains

end Graph

end ShapeMerge
