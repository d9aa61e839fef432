import ShapeMerge.Proofs.Merging.Literals

namespace ShapeMerge.Graph

/-!
Which literals a merge gives up, and which it reports.  A field about which
nothing is reported has every literal that was tallied for it, and nothing is
reported where there is nothing to give up.
-/

variable {graph : Graph} {policy : FormatPolicy} {cliques : List (List Ref)}
  {clique : List Ref} {pass : MergePass} {built : Builder}
  {records : List Record} {contents : NameMap FieldContent}
  {name literal : String} {ref other base made text : Ref} {refs : List Ref}
  {tally : Tally}

theorem options_eq_filter_parts (graph : Graph) (ref : Ref) :
    graph.options ref = (graph.parts ref).filter graph.isPlain := by
  by_cases hunion : graph.kind? ref = some .union
  · obtain ⟨alternatives, hshape⟩ := shape?_of_kind?_union hunion
    rw [options_of_union hunion, members_of_shape? hshape,
      parts_of_union hshape]
    rfl
  · rw [options_of_not_union hunion, parts_of_not_union hunion]

theorem lists_iff (hflat : graph.Flat) (href : graph.has ref = true) :
    graph.Lists ref literal ↔
      ∃ text ∈ graph.options ref, ∃ tally, graph.tally? text = some tally ∧
        literal ∈ tally.names := by
  rw [Lists, hflat.alternatives_eq_ok href]
  simp only [Except.ok.injEq, exists_eq_left']

theorem tally?_of_shape? {literals : Option Tally}
    (h : graph.shape? text = some (.text literals)) :
    graph.tally? text = literals := by
  rw [tally?, textLiterals?_eq_some_iff.mpr h]
  rfl

section Differing

theorem mem_optionTexts {literals : Option Tally} :
    literals ∈ graph.optionTexts ref ↔
      ∃ text ∈ graph.options ref,
        graph.shape? text = some (.text literals) := by
  simp only [optionTexts, List.mem_filterMap, textLiterals?_eq_some_iff]

theorem textsDiffer_eq_false_iff (hflat : graph.Flat)
    (h : ∀ ref ∈ refs, graph.has ref = true) :
    graph.textsDiffer none refs = .ok false ↔
      ∀ left ∈ refs.flatMap graph.optionTexts,
        ∀ right ∈ refs.flatMap graph.optionTexts, left = right := by
  rw [textsDiffer_eq_ok hflat none h, Except.ok.injEq]
  cases refs.flatMap graph.optionTexts with
  | nil => simp
  | cons first rest =>
      rw [List.head?_cons, Option.none_or, List.any_eq_false]
      constructor
      · intro hfirst left hleft right hright
        have hleft : left = first := by simpa using hfirst left hleft
        have hright : right = first := by simpa using hfirst right hright
        exact hleft.trans hright.symm
      · intro hall text htext
        simpa using hall text htext first List.mem_cons_self

end Differing

section Members

variable (hgathers : graph.Gathers clique records contents)

include hgathers

theorem Gathers.exists_option_iff
    (href : ref ∈ (graph.contentOf records name).shapes)
    (hother : other ∈ (graph.contentOf records name).shapes) {kind : Kind} :
    (∃ option ∈ graph.options ref, graph.kind? option = some kind) ↔
      ∃ option ∈ graph.options other, graph.kind? option = some kind := by
  obtain ⟨left, hleft, x, hx, hadded⟩ := hgathers.mem_shapes_iff.mp href
  obtain ⟨right, hright, y, hy, hadded'⟩ := hgathers.mem_shapes_iff.mp hother
  rw [options_of_contributed hadded, options_of_contributed hadded']
  exact (hgathers.agree_fields hleft hx hright hy).exists_option_iff
    (options_ne_nil_of_mem_contributed hadded)
    (options_ne_nil_of_mem_contributed hadded')

theorem Gathers.shapes_has (hflat : graph.Flat)
    (href : ref ∈ (graph.contentOf records name).shapes) :
    graph.has ref = true := by
  obtain ⟨_, _, _, hfield, hadded⟩ := hgathers.mem_shapes_iff.mp href
  exact contributed_has hflat (hflat.field?_has hfield) hadded

theorem Gathers.exists_shape {member field : Ref} (hmember : member ∈ clique)
    (hfield : graph.field? member name = some field)
    (htext : text ∈ graph.options field) :
    ∃ other ∈ (graph.contentOf records name).shapes,
      graph.options other = graph.options field := by
  obtain ⟨other, hother⟩ := exists_mem_contributed (List.ne_nil_of_mem htext)
  exact ⟨other,
    hgathers.mem_shapes_iff.mpr ⟨member, hmember, field, hfield, hother⟩,
    options_of_contributed hother⟩

end Members

section Field

variable (h : graph.Merges policy cliques pass built)
  (hrecords : (graph.collapseOf policy cliques).OfRecords)

include h hrecords

theorem Merges.tally?_text (htally : graph.tally? text = some tally) :
    pass.graph.tally? (pass.passage.redirect text) = some tally := by
  rw [tally?_eq_some_iff] at htally ⊢
  obtain ⟨⟨_, hints⟩, hnode, rfl⟩ := Option.map_eq_some_iff.mp htally
  rw [shape?, h.node?_text hrecords hnode]
  rfl

/-- A tallied text stays where it is: lowered texts give way to it. -/
theorem Merges.option_text (htext : text ∈ graph.options ref)
    (htally : graph.tally? text = some tally) :
    pass.passage.redirect text ∈
      pass.graph.options (pass.passage.redirect ref) := by
  have hkind := kind?_of_shape? (tally?_eq_some_iff.mp htally)
  have hnew :=
    kind?_of_shape? (tally?_eq_some_iff.mp (h.tally?_text hrecords htally))
  by_cases hunion : graph.kind? ref = some .union
  · obtain ⟨alternatives, hshape⟩ := shape?_of_kind?_union hunion
    rw [options_of_union hunion, members_of_shape? hshape] at htext
    have hkept : graph.isLowered policy text = false :=
      isLowered_eq_false fun format hformat => by
        rw [hkind] at hformat
        cases hformat
    have hparts : pass.graph.parts (pass.passage.redirect ref) =
        (graph.narrow policy alternatives).map pass.passage.redirect := by
      rw [h.passage]
      exact h.realizes.parts_redirect hrecords hshape
    rw [options_eq_filter_parts, hparts, List.mem_filter]
    exact ⟨List.mem_map_of_mem (mem_narrow (List.mem_filter.mp htext).1 hkept),
      isPlain_of_text hnew⟩
  · rw [options_of_not_union hunion] at htext
    rw [List.mem_singleton.mp (List.mem_filter.mp htext).1] at hnew ⊢
    rw [options_of_text hnew]
    exact List.mem_singleton_self _

/-- Where nothing is reported, what stands for a field has every literal that
was found for it. -/
theorem Merges.lists_yielded (hgathers : graph.Gathers clique records contents)
    {warnings : List Warning} (hyields : pass.passage.Yields built name
      (graph.contentOf records name) base warnings) (hsilent : warnings = [])
    (hother : other ∈ (graph.contentOf records name).shapes)
    (htext : text ∈ graph.options other)
    (htally : graph.tally? text = some tally)
    (hliteral : literal ∈ tally.names) :
    ∃ new ∈ pass.graph.options base,
      ∃ sum, pass.graph.tally? new = some sum ∧ literal ∈ sum.names := by
  have hflat : graph.Flat := hrecords.flat
  have hsome : (graph.contentOf records name).shapes ≠ [] :=
    List.ne_nil_of_mem hother
  have hsame {ref : Ref} (href : ref ∈ (graph.contentOf records name).shapes) :
      graph.kind? ref = graph.kind? other :=
    contentOf_kinds hgathers.agree href hother
  have hshape := tally?_eq_some_iff.mp htally
  by_cases hkind : graph.kind? other = some .text
  · rw [options_of_text hkind, List.mem_singleton] at htext
    subst htext
    rcases h.text_yielded hrecords hyields
      (fun _ href => (hsame href).trans hkind) hsome with
      ⟨_, _, hnode⟩ | ⟨_, hiff, _⟩
    · have hbase : pass.graph.shape? base = some (.text (some (.sum
        ((graph.contentOf records name).shapes.filterMap graph.tally?)))) :=
        shape?_of_node? hnode
      refine ⟨base, ?_, _, tally?_eq_some_iff.mpr hbase, ?_⟩
      · rw [options_of_text (kind?_of_shape? hbase)]
        exact List.mem_singleton_self base
      · exact (mem_names_sum_tallies _ literal).mpr
          ⟨text, hother, tally, htally, hliteral⟩
    · cases (hiff.mp hsilent text hother).symm.trans htally
  · obtain ⟨first, hhead, rfl, hiff⟩ :=
      h.other_yielded hyields
        (fun _ href heq => hkind ((hsame href).symm.trans heq)) hsome
    have hfirst := List.mem_of_mem_head? hhead
    have hunion : graph.kind? first = some .union := by
      by_contra hplain
      rw [hsame hfirst] at hplain
      rw [options_of_not_union hplain] at htext
      rw [← List.mem_singleton.mp (List.mem_filter.mp htext).1] at hkind
      exact hkind (kind?_of_shape? hshape)
    obtain ⟨kept, hkept, hkeptKind⟩ :=
      (hgathers.exists_option_iff hother hfirst).mp
        ⟨text, htext, kind?_of_shape? hshape⟩
    obtain ⟨literals, hkeptShape⟩ := shape?_of_kind?_text hkeptKind
    have halike :=
      (textsDiffer_eq_false_iff hflat fun _ => hgathers.shapes_has hflat).mp
        (hiff.mp hsilent hunion)
    have hin := mem_optionTexts.mpr ⟨text, htext, hshape⟩
    have hkeptIn := mem_optionTexts.mpr ⟨kept, hkept, hkeptShape⟩
    obtain rfl := halike _ (List.mem_flatMap.mpr ⟨first, hfirst, hkeptIn⟩) _
      (List.mem_flatMap.mpr ⟨other, hother, hin⟩)
    have hkeptTally := tally?_eq_some_iff.mpr hkeptShape
    exact ⟨_, h.option_text hrecords hkept hkeptTally, tally,
      h.tally?_text hrecords hkeptTally, hliteral⟩

section Silence

variable (hgathers : graph.Gathers clique records contents)
  {warnings : List Warning}
  (hyields : pass.passage.Yields built name (graph.contentOf records name) base
    warnings)

include hgathers hyields

theorem Merges.silent_of_untallied
    (huntallied : ∀ other ∈ (graph.contentOf records name).shapes,
      ∀ text ∈ graph.options other, graph.tally? text = none) :
    warnings = [] := by
  have hflat : graph.Flat := hrecords.flat
  by_cases hsome : (graph.contentOf records name).shapes = []
  · exact hyields.silent_of_empty hsome
  obtain ⟨first, hfirst⟩ := List.exists_mem_of_ne_nil _ hsome
  have hsame {ref : Ref} (href : ref ∈ (graph.contentOf records name).shapes) :
      graph.kind? ref = graph.kind? first :=
    contentOf_kinds hgathers.agree href hfirst
  by_cases hkind : graph.kind? first = some .text
  · have hkinds : ∀ ref ∈ (graph.contentOf records name).shapes,
      graph.kind? ref = some .text :=
      fun _ href => (hsame href).trans hkind
    rcases h.text_yielded hrecords hyields hkinds hsome with
      ⟨_, hsilent, _⟩ | ⟨_, hiff, _⟩
    · exact hsilent
    · refine hiff.mpr fun old hold => huntallied old hold old ?_
      rw [options_of_text (hkinds old hold)]
      exact List.mem_singleton_self old
  · obtain ⟨_, _, _, hiff⟩ :=
      h.other_yielded hyields
        (fun _ href heq => hkind ((hsame href).symm.trans heq)) hsome
    have hnone : ∀ literals ∈ (graph.contentOf records name).shapes.flatMap
          graph.optionTexts, literals = none := by
      intro literals hliterals
      obtain ⟨other, hother, hliterals⟩ := List.mem_flatMap.mp hliterals
      obtain ⟨text, htext, hshape⟩ := mem_optionTexts.mp hliterals
      rw [← tally?_of_shape? hshape]
      exact huntallied other hother text htext
    refine hiff.mpr fun _ =>
      (textsDiffer_eq_false_iff hflat fun _ => hgathers.shapes_has hflat).mpr ?_
    exact fun left hleft right hright =>
      (hnone left hleft).trans (hnone right hright).symm

theorem Merges.silent_of_tallied
    (htallied : ∀ other ∈ (graph.contentOf records name).shapes, ∃ text tally,
      graph.options other = [text] ∧ graph.tally? text = some tally) :
    warnings = [] := by
  have hself : ∀ other ∈ (graph.contentOf records name).shapes,
      ∃ tally, graph.tally? other = some tally := by
    intro other hother
    obtain ⟨text, tally, hoptions, htally⟩ := htallied other hother
    obtain ⟨_, _, field, _, hadded⟩ := hgathers.mem_shapes_iff.mp hother
    rw [options_of_contributed hadded] at hoptions
    rcases mem_contributed_iff.mp hadded with hsingle | ⟨hlong, _⟩
    · obtain rfl := List.singleton_inj.mp (hoptions.symm.trans hsingle)
      exact ⟨tally, htally⟩
    · rw [hoptions, List.length_singleton] at hlong
      omega
  by_cases hsome : (graph.contentOf records name).shapes = []
  · exact hyields.silent_of_empty hsome
  have hkinds : ∀ ref ∈ (graph.contentOf records name).shapes,
    graph.kind? ref = some .text := by
    intro ref href
    obtain ⟨_, htally⟩ := hself ref href
    exact kind?_of_shape? (tally?_eq_some_iff.mp htally)
  exact (h.sum_yielded hrecords hyields hkinds hsome hself).1

end Silence

end Field

/-- What is reported about a name, and what is not lost if nothing is. -/
structure ReportsLosses (graph : Graph) (pass : MergePass) (clique : List Ref)
    (merged : Record) (warnings : List Warning) (name : String) : Prop where
  kept : (∀ warning ∈ warnings, warning.field ≠ name) →
    ∀ member ∈ clique, ∀ field, graph.field? member name = some field →
      ∀ literal, graph.Lists field literal →
        ∃ made, merged.fields.find? name = some made ∧
          pass.graph.Lists made literal
  /-- There is no second text for a literal to be tallied in. -/
  distinct : ∀ made, merged.fields.find? name = some made →
    ∀ options, pass.graph.alternatives made = .ok options →
      (options.map pass.graph.kind?).Nodup
  untallied : (∀ member ∈ clique,
    ∀ field, graph.field? member name = some field →
      ∀ options, graph.alternatives field = .ok options →
        ∀ text ∈ options, graph.tally? text = none) →
    ∀ warning ∈ warnings, warning.field ≠ name
  tallied : (∀ member ∈ clique, ∀ field, graph.field? member name = some field →
    graph.alternatives field = .ok [] ∨ ∃ text tally,
      graph.alternatives field = .ok [text] ∧ graph.tally? text = some tally) →
    ∀ warning ∈ warnings, warning.field ≠ name

theorem filter_field_eq_nil_iff {warnings : List Warning} :
    warnings.filter (·.field = name) = [] ↔
      ∀ warning ∈ warnings, warning.field ≠ name := by
  simp [List.filter_eq_nil_iff]

theorem silent_of_yields {passage : Passage}
    {merged : Record} {warnings : List Warning}
    (hexplains : passage.Explains built contents merged warnings)
    (hsilent : ∀ {content base own}, contents.find? name = some content →
      passage.Yields built name content base own → own = []) :
    ∀ warning ∈ warnings, warning.field ≠ name := by
  cases hcontent : contents.find? name with
  | none =>
      rintro warning hwarning rfl
      obtain ⟨_, hfound⟩ := hexplains.warned warning hwarning
      cases hcontent.symm.trans hfound
  | some content =>
      obtain ⟨_, _, _, _, hyields, _⟩ := hexplains.fields hcontent
      exact filter_field_eq_nil_iff.mp (hsilent hcontent hyields)

theorem Merges.reportsLosses (h : graph.Merges policy cliques pass built)
    (hrecords : (graph.collapseOf policy cliques).OfRecords)
    (hgathers : graph.Gathers clique records contents)
    {merged : Record} {warnings : List Warning}
    (hexplains : pass.passage.Explains built contents merged warnings)
    (hmerged : ∀ {name made}, merged.fields.find? name = some made →
      pass.graph.has made = true) (name : String) :
    graph.ReportsLosses pass clique merged warnings name := by
  have hflat : graph.Flat := hrecords.flat
  have hnewFlat : pass.graph.Flat := h.realizes.flat
  refine ⟨fun hsilent member hmember field hfield literal hlists => ?_,
    fun made hmade options hoptions => ?_, fun huntallied => ?_,
    fun htallied => ?_⟩
  · obtain ⟨text, htext, tally, htally, hliteral⟩ :=
      (lists_iff hflat (hflat.field?_has hfield)).mp hlists
    obtain ⟨other, hother, hoptions⟩ :=
      hgathers.exists_shape hmember hfield htext
    obtain ⟨made, hmade, base, _, hyields, hcompletes⟩ :=
      hexplains.fields (hgathers.find?_of_field? hmember hfield)
    have hlists := h.lists_yielded hrecords
      hgathers hyields (filter_field_eq_nil_iff.mpr hsilent)
      hother (hoptions ▸ htext) htally hliteral
    rw [← h.options_made hcompletes] at hlists
    exact ⟨made, hmade, (lists_iff hnewFlat (hmerged hmade)).mpr hlists⟩
  · rw [hnewFlat.alternatives_eq_ok (hmerged hmade), Except.ok.injEq]
      at hoptions
    exact hoptions ▸ hnewFlat.options_kinds made
  · refine silent_of_yields hexplains fun hcontent hyields => ?_
    obtain ⟨_, rfl⟩ := hgathers.find?.mp hcontent
    refine h.silent_of_untallied hrecords hgathers hyields
      fun other hother text htext => ?_
    obtain ⟨member, hmember, field, hfield, hadded⟩ :=
      hgathers.mem_shapes_iff.mp hother
    rw [options_of_contributed hadded] at htext
    exact huntallied member hmember field hfield _
      (hflat.alternatives_eq_ok (hflat.field?_has hfield)) text htext
  · refine silent_of_yields hexplains fun hcontent hyields => ?_
    obtain ⟨_, rfl⟩ := hgathers.find?.mp hcontent
    refine h.silent_of_tallied hrecords hgathers hyields fun other hother => ?_
    obtain ⟨member, hmember, field, hfield, hadded⟩ :=
      hgathers.mem_shapes_iff.mp hother
    have hmember := htallied member hmember field hfield
    simp only [hflat.alternatives_eq_ok (hflat.field?_has hfield),
      Except.ok.injEq] at hmember
    rw [options_of_contributed hadded]
    exact hmember.resolve_left (options_ne_nil_of_mem_contributed hadded)

theorem losses_reported [Share σ] {settings : Settings σ} (hbuilt : graph.Built)
    (hpass : graph.mergeSimilar settings = .ok pass) {index : Nat}
    (hclique : pass.summary.cliques[index]? = some clique) :
    ∃ target merged warnings, pass.summary.merged[index]? = some target ∧
      pass.graph.record? target = some merged ∧
      pass.warnings[index]? = some warnings ∧
      ∀ name, graph.ReportsLosses pass clique merged warnings name := by
  obtain ⟨cliques, built, hcliques, hrecounts⟩ :=
    exists_recounts hbuilt.flat hpass
  have hmerges := hrecounts.toMerges
  have hrecords := ofRecords_collapseOf hcliques hbuilt.flat settings.policy
  rw [hmerges.partition] at hclique
  obtain ⟨warnings, records, merged, contents, hwarnings, hgathers, hmerged,
    hexplains⟩ :=
    hrecounts.explained hclique
  refine ⟨_, merged, warnings, ?_, hmerged, hwarnings, hmerges.reportsLosses
    hrecords hgathers hexplains (hmerges.realizes.flat.holds hmerged)⟩
  rw [hmerges.merged, List.getElem?_map, hclique]
  rfl

theorem polls_losses :
    ∃ pass target merged warnings,
      polls.mergeSimilar ⟨(1 / 2 : Rat), .lenient⟩ = .ok pass ∧
      pass.summary.cliques[0]? = some [⟨2⟩, ⟨4⟩] ∧
      pass.summary.merged[0]? = some target ∧
      pass.graph.record? target = some merged ∧
      pass.warnings[0]? = some warnings ∧
      ∀ name, polls.ReportsLosses pass [⟨2⟩, ⟨4⟩] merged warnings name := by
  obtain ⟨pass, hpass, hclique⟩ := polls_pass
  obtain ⟨target, merged, warnings, htarget, hmerged, hwarnings, hlosses⟩ :=
    losses_reported polls_built hpass hclique
  exact ⟨pass, target, merged, warnings, hpass, hclique, htarget, hmerged,
    hwarnings, hlosses⟩

end ShapeMerge.Graph
