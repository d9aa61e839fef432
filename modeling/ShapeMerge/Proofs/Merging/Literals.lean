import ShapeMerge.Proofs.Builder.Nullable
import ShapeMerge.Proofs.Collapse.LoweredUnions
import ShapeMerge.Proofs.Merging.MergedShape
import ShapeMerge.Proofs.Merging.Warnings
import ShapeMerge.Proofs.Tally

namespace ShapeMerge

/-!
What becomes of tallied literals.  If the members of a clique hold texts and
nothing else under a name, the tallies are added up, or the first text stays as
it is.  Wherever literals are given up, that is reported.
-/

namespace Graph

def tally? (graph : Graph) (ref : Ref) : Option Tally :=
  (graph.textLiterals? ref).join

/-- How often a text was seen to be a literal. -/
def occurrences (graph : Graph) (literal : String) (text : Ref) : Nat :=
  ((graph.tally? text).map (·.count literal)).getD 0

/-- The text that a node is but for `null`. -/
def onlyText? (graph : Graph) (ref : Ref) : Option Ref :=
  match graph.alternatives ref with
  | .ok [text] => if graph.kind? text = some .text then some text else none
  | _ => none

def fieldTexts (graph : Graph) (clique : List Ref) (name : String) : List Ref :=
  clique.filterMap fun member => (graph.field? member name).bind graph.onlyText?

def Lists (graph : Graph) (ref : Ref) (literal : String) : Prop :=
  ∃ options, graph.alternatives ref = .ok options ∧
    ∃ text ∈ options, ∃ tally, graph.tally? text = some tally ∧
      literal ∈ tally.names

variable {graph : Graph} {policy : FormatPolicy} {cliques : List (List Ref)}
  {clique : List Ref} {pass : MergePass} {built : Builder}
  {records : List Record} {contents : NameMap FieldContent}
  {name literal : String} {ref other base made text : Ref}

theorem tally?_eq_some_iff {tally : Tally} :
    graph.tally? ref = some tally ↔
      graph.shape? ref = some (.text (some tally)) := by
  rw [tally?, Option.join_eq_some_iff, textLiterals?_eq_some_iff]

section Contributions

theorem options_of_plain (h : graph.isPlain ref = true) :
    graph.options ref = [ref] := by
  rw [options_of_not_union (isPlain_iff.mp h).1, List.filter_cons_of_pos h,
    List.filter_nil]

theorem isPlain_of_text (h : graph.kind? ref = some .text) :
    graph.isPlain ref = true := by
  rw [isPlain_iff, h]
  decide

theorem options_of_text (h : graph.kind? ref = some .text) :
    graph.options ref = [ref] :=
  options_of_plain (isPlain_of_text h)

theorem agree_of_texts {graph : Graph}
    {left right : Ref} (hleft : graph.kind? left = some .text)
    (hright : graph.kind? right = some .text) : graph.Agree left right := by
  refine Or.inr (Or.inr ⟨[(left, right)], ?_, ?_, ?_⟩)
  · rw [options_of_text hleft]
    exact .refl _
  · rw [options_of_text hright]
    exact .refl _
  · exact List.forall_mem_singleton.mpr ⟨hleft.trans hright.symm, Or.inl hleft⟩

theorem options_of_contributed (h : other ∈ graph.contributed ref) :
    graph.options other = graph.options ref := by
  rcases mem_contributed_iff.mp h with hsingle | ⟨_, rfl⟩
  · have hplain : graph.isPlain other = true :=
      (List.mem_filter.mp (hsingle ▸ List.mem_singleton_self other)).2
    rw [options_of_plain hplain, hsingle]
  · rfl

theorem kind?_of_onlyText? (h : graph.onlyText? ref = some text) :
    graph.kind? text = some .text := by
  rw [onlyText?] at h
  split at h
  · split at h
    · rename_i hkind
      exact Option.some.inj h ▸ hkind
    · cases h
  · cases h

theorem kind?_of_mem_fieldTexts (h : text ∈ graph.fieldTexts clique name) :
    graph.kind? text = some .text := by
  obtain ⟨_, _, hfound⟩ := List.mem_filterMap.mp h
  obtain ⟨_, _, honly⟩ := Option.bind_eq_some_iff.mp hfound
  exact kind?_of_onlyText? honly

theorem Agree.only_text {left right : Ref}
    (h : graph.Agree left right) (hleft : graph.options left = [text])
    (hkind : graph.kind? text = some .text) :
    graph.options right = [] ∨
      ∃ other, graph.options right = [other] ∧
        graph.kind? other = some .text := by
  rcases h with hempty | hempty | hpairing
  · rw [hleft] at hempty
    cases hempty
  · exact Or.inl hempty
  · right
    rw [hleft] at hpairing
    obtain ⟨other, hother⟩ := List.length_eq_one_iff.mp hpairing.length_eq.symm
    obtain ⟨partner, hpartner, hsame, _⟩ :=
      hpairing.exists_partner (List.mem_singleton_self text)
    rw [hother, List.mem_singleton] at hpartner
    exact ⟨other, hother, hpartner ▸ hsame.symm.trans hkind⟩

theorem contributed_eq_onlyText? (hflat : graph.Flat)
    (href : graph.has ref = true) (h : graph.options ref = [] ∨
      ∃ other, graph.options ref = [other] ∧ graph.kind? other = some .text) :
    graph.contributed ref = (graph.onlyText? ref).toList := by
  rw [contributed, onlyText?, hflat.alternatives_eq_ok href]
  rcases h with hoptions | ⟨other, hoptions, hkind⟩
  · rw [hoptions]
    rfl
  · rw [hoptions]
    simp [hkind]

end Contributions

section Members

variable (hgathers : graph.Gathers clique records contents) (hflat : graph.Flat)

include hgathers

theorem Gathers.map_field? (name : String) :
    clique.map (graph.field? · name) = records.map (·.fields.find? name) := by
  have hmap :=
    congrArg (List.map fun record => record.bind (·.fields.find? name))
      hgathers.source
  rw [List.map_map, List.map_map] at hmap
  exact hmap

theorem Gathers.mem_shapes_iff :
    ref ∈ (graph.contentOf records name).shapes ↔
      ∃ member ∈ clique, ∃ field, graph.field? member name = some field ∧
        ref ∈ graph.contributed field := by
  rw [mem_shapes_contentOf]
  exact hgathers.exists_iff name (p := fun found =>
    ∃ field, found = some field ∧ ref ∈ graph.contributed field)

theorem Gathers.find?_of_field? {member field : Ref} (hmember : member ∈ clique)
    (hfield : graph.field? member name = some field) :
    contents.find? name = some (graph.contentOf records name) := by
  obtain ⟨record, hrecord, hsome⟩ := hgathers.exists_record hmember
  rw [field?, hsome] at hfield
  exact hgathers.find?.mpr ⟨mem_allNames.mpr
    ⟨record, hrecord, NameMap.mem_names_iff.mpr ⟨field, hfield⟩⟩, rfl⟩

theorem Gathers.agree_fields {member field : Ref} (hmember : member ∈ clique)
    (hfield : graph.field? member name = some field) (hother : other ∈ clique)
    (href : graph.field? other name = some ref) : graph.Agree field ref := by
  obtain ⟨left, hleft, hrecord⟩ := hgathers.exists_record hmember
  obtain ⟨right, hright, hrecord'⟩ := hgathers.exists_record hother
  rw [field?, hrecord] at hfield
  rw [field?, hrecord'] at href
  exact hgathers.agree left hleft right hright hfield href

include hflat

theorem Gathers.shapes_eq_fieldTexts (htexts : ∀ member ∈ clique, ∀ field,
      graph.field? member name = some field → graph.options field = [] ∨
        ∃ other, graph.options field = [other] ∧
          graph.kind? other = some .text) :
    (graph.contentOf records name).shapes = graph.fieldTexts clique name := by
  have hmap : graph.fieldTexts clique name =
      (clique.map (graph.field? · name)).filterMap
        (·.bind graph.onlyText?) := by
    rw [List.filterMap_map]
    rfl
  rw [hmap, hgathers.map_field?, contentOf]
  have hpresent : ∀ ref ∈ (records.map (·.fields.find? name)).filterMap id,
      graph.contributed ref = (graph.onlyText? ref).toList := by
    intro ref href
    rw [← hgathers.map_field?] at href
    simp only [List.mem_filterMap, List.mem_map, id_eq,
      exists_exists_and_eq_and] at href
    obtain ⟨member, hmember, hfield⟩ := href
    exact contributed_eq_onlyText? hflat (hflat.field?_has hfield)
      (htexts member hmember ref hfield)
  dsimp only
  rw [List.flatMap_congr hpresent, ← List.filterMap_eq_flatMap_toList,
    List.filterMap_filterMap]
  rfl

end Members

section Sums

variable {refs : List Ref}

theorem map_tally?_of_texts {texts : List (Option Tally)}
    (h : refs.map graph.textLiterals? = texts.map some) :
    refs.map graph.tally? = texts := by
  have hmap := congrArg (List.map Option.join) h
  rw [List.map_map, List.map_map] at hmap
  exact hmap.trans (List.map_id _)

theorem mem_names_sum_tallies (refs : List Ref) (literal : String) :
    literal ∈ (Tally.sum (refs.filterMap graph.tally?)).names ↔
      ∃ ref ∈ refs, ∃ tally, graph.tally? ref = some tally ∧
        literal ∈ tally.names := by
  simp only [Tally.mem_names_sum, List.mem_filterMap]
  constructor
  · intro h
    obtain ⟨tally, ⟨ref, href, htally⟩, hliteral⟩ := h
    exact ⟨ref, href, tally, htally, hliteral⟩
  · intro h
    obtain ⟨ref, href, tally, htally, hliteral⟩ := h
    exact ⟨tally, ⟨ref, href, htally⟩, hliteral⟩

theorem count_sum_tallies (refs : List Ref) (literal : String) :
    (Tally.sum (refs.filterMap graph.tally?)).count literal =
      (refs.map (graph.occurrences literal)).sum := by
  rw [Tally.count_sum]
  induction refs with
  | nil => rfl
  | cons ref rest ih =>
      cases htally : graph.tally? ref <;> simp [occurrences, htally, ih]

end Sums

/-- What the texts under a name come to. -/
structure MergesTexts (graph : Graph) (pass : MergePass) (clique : List Ref)
    (name : String) (made text : Ref) : Prop where
  /-- No member holds anything else there, but for `null`. -/
  members : ∀ member ∈ clique, ∀ field, graph.field? member name = some field →
    graph.alternatives field = .ok [] ∨
      ∃ old ∈ graph.fieldTexts clique name, graph.alternatives field = .ok [old]
  only : pass.graph.alternatives made = .ok [text]
  summed : (∀ old ∈ graph.fieldTexts clique name,
    ∃ tally, graph.tally? old = some tally) →
    ∃ sum, pass.graph.node? text = some ⟨.text (some sum),
      .joinAll ((graph.fieldTexts clique name).filterMap graph.hints?)⟩ ∧
      ∀ literal, (literal ∈ sum.names ↔ ∃ old ∈ graph.fieldTexts clique name,
        ∃ tally, graph.tally? old = some tally ∧ literal ∈ tally.names) ∧
        sum.count literal =
          ((graph.fieldTexts clique name).map (graph.occurrences literal)).sum
  kept : (∃ old ∈ graph.fieldTexts clique name, graph.tally? old = none) →
    ∃ first, (graph.fieldTexts clique name).head? = some first ∧
      pass.graph.node? text = graph.node? first
  nullable : pass.graph.nullable made = true ↔
    (∃ member ∈ clique, graph.field? member name = none) ∨
      ∃ member ∈ clique, ∃ field, graph.field? member name = some field ∧
        graph.nullable field = true

section Field

variable (h : graph.Merges policy cliques pass built)
  (hrecords : (graph.collapseOf policy cliques).OfRecords)

include h

theorem Merges.options_made {nullable : Bool}
    (hmade : if nullable then built.Widened base made else made = base) :
    pass.graph.options made = pass.graph.options base := by
  cases nullable with
  | false => rw [hmade]
  | true => exact hmade.options_eq h.realizes.shape?_eq

include hrecords

theorem Merges.node?_text {literals : Option Tally} {hints : Hints}
    (hnode : graph.node? text = some ⟨.text literals, hints⟩) :
    pass.graph.node? (pass.passage.redirect text) =
      some ⟨.text literals, hints⟩ := by
  have hshape : graph.shape? text = some (.text literals) :=
    shape?_of_node? hnode
  have hkept : graph.isLowered policy text = false :=
    isLowered_eq_false fun format hformat => by
      rw [kind?_of_shape? hshape] at hformat
      cases hformat
  rw [h.passage]
  exact h.realizes.node?_kept hrecords hnode (fun heq => by cases heq)
    (Collapse.Realizes.group?_eq_none_of_shape? hrecords hshape fun heq => by
      cases heq) hkept

theorem Merges.text_yielded {content : FieldContent} {warnings : List Warning}
    (hyields : pass.passage.Yields built name content base warnings)
    (hkinds : ∀ ref ∈ content.shapes, graph.kind? ref = some .text)
    (hsome : content.shapes ≠ []) :
    (∀ old ∈ content.shapes, ∃ tally, graph.tally? old = some tally) ∧
        warnings = [] ∧
        pass.graph.node? base =
          some ⟨.text (some (.sum (content.shapes.filterMap graph.tally?))),
            .joinAll (content.shapes.filterMap graph.hints?)⟩ ∨
      (∃ old ∈ content.shapes, graph.tally? old = none) ∧
        (warnings = [] ↔ ∀ old ∈ content.shapes, graph.tally? old = none) ∧
        ∃ first, content.shapes.head? = some first ∧
          pass.graph.node? base = graph.node? first := by
  cases hyields with
  | null hempty _ => exact absurd hempty hsome
  | summed _ htexts hall hbase =>
      rw [h.passage_graph] at htexts hbase
      rw [← map_tally?_of_texts htexts] at hall hbase
      refine Or.inl ⟨fun old hold => ?_, rfl, ?_⟩
      · refine Option.ne_none_iff_exists'.mp fun hnone => hall ?_
        exact List.mem_map.mpr ⟨old, hold, hnone⟩
      · rw [h.realizes.node?, hbase, List.filterMap_map]
        rfl
  | @first representative rest texts hshapes htexts hplain =>
      rw [h.passage_graph] at htexts
      rw [← map_tally?_of_texts htexts] at hplain ⊢
      obtain ⟨old, hold, hnone⟩ := List.mem_map.mp hplain
      have hfirst : content.shapes.head? = some representative := by
        rw [hshapes]
        rfl
      refine Or.inr ⟨⟨old, hold, hnone⟩, ?_, representative, hfirst, ?_⟩
      · rw [ite_eq_right_iff]
        simp
      · obtain ⟨literals, hshape⟩ :=
          shape?_of_kind?_text
            (hkinds representative (List.mem_of_mem_head? hfirst))
        obtain ⟨⟨_, hints⟩, hnode, rfl⟩ := Option.map_eq_some_iff.mp hshape
        rw [h.node?_text hrecords hnode, hnode]
  | @other representative rest shape _ hshapes hshape htext _ =>
      rw [h.passage_graph] at hshape
      refine absurd ?_ htext
      have hkind := hkinds representative (hshapes ▸ List.mem_cons_self)
      exact Option.some.inj ((kind?_of_shape? hshape).symm.trans hkind)

section Texts

variable {content : FieldContent} {warnings : List Warning}
  (hyields : pass.passage.Yields built name content base warnings)
  (hkinds : ∀ ref ∈ content.shapes, graph.kind? ref = some .text)

include hyields hkinds

theorem Merges.sum_yielded (hsome : content.shapes ≠ [])
    (hall : ∀ old ∈ content.shapes, ∃ tally, graph.tally? old = some tally) :
    warnings = [] ∧
      pass.graph.node? base =
        some ⟨.text (some (.sum (content.shapes.filterMap graph.tally?))),
          .joinAll (content.shapes.filterMap graph.hints?)⟩ := by
  rcases h.text_yielded hrecords hyields hkinds hsome with
    ⟨_, hsum⟩ | ⟨⟨old, hold, hnone⟩, _⟩
  · exact hsum
  · obtain ⟨tally, htally⟩ := hall old hold
    cases hnone.symm.trans htally

theorem Merges.first_yielded
    (hplain : ∃ old ∈ content.shapes, graph.tally? old = none) :
    ∃ first, content.shapes.head? = some first ∧
      pass.graph.node? base = graph.node? first := by
  obtain ⟨old, hold, hnone⟩ := hplain
  rcases h.text_yielded hrecords hyields hkinds (List.ne_nil_of_mem hold) with
    ⟨hall, _⟩ | ⟨_, _, hfirst⟩
  · obtain ⟨tally, htally⟩ := hall old hold
    cases hnone.symm.trans htally
  · exact hfirst

theorem Merges.kind?_yielded (hsome : content.shapes ≠ []) :
    pass.graph.kind? base = some .text := by
  rcases h.text_yielded hrecords hyields hkinds hsome with
    ⟨_, _, hsum⟩ | ⟨_, _, first, hfirst, hsame⟩
  · rw [kind?, shape?, hsum]
    rfl
  · rw [kind?, shape?, hsame]
    exact hkinds first (List.mem_of_mem_head? hfirst)

end Texts

omit hrecords in
theorem Merges.other_yielded {content : FieldContent} {warnings : List Warning}
    (hyields : pass.passage.Yields built name content base warnings)
    (hkinds : ∀ ref ∈ content.shapes, graph.kind? ref ≠ some .text)
    (hsome : content.shapes ≠ []) :
    ∃ first,
      content.shapes.head? = some first ∧ base = pass.passage.redirect first ∧
      (warnings = [] ↔ (graph.kind? first = some .union →
        graph.textsDiffer none content.shapes = .ok false)) := by
  cases hyields with
  | null hempty _ => exact absurd hempty hsome
  | @summed _ representative _ _ hshapes htexts _ _ =>
      rw [h.passage_graph] at htexts
      have hmem : representative ∈ content.shapes :=
        hshapes ▸ List.mem_cons_self
      exact absurd (kind?_of_map_textLiterals? htexts _ hmem) (hkinds _ hmem)
  | @first representative _ _ hshapes htexts _ =>
      rw [h.passage_graph] at htexts
      have hmem : representative ∈ content.shapes :=
        hshapes ▸ List.mem_cons_self
      exact absurd (kind?_of_map_textLiterals? htexts _ hmem) (hkinds _ hmem)
  | @other representative rest shape differ hshapes hshape htext hdiffer =>
      rw [h.passage_graph] at hshape hdiffer
      have hfirst : content.shapes.head? = some representative := by
        rw [hshapes]
        rfl
      refine ⟨representative, hfirst, rfl, ?_⟩
      rw [kind?_of_shape? hshape, Option.some.injEq]
      split at hdiffer
      · rename_i hunion
        rw [hdiffer]
        cases differ <;> simp [hunion]
      · rename_i hunion
        cases hdiffer
        simp [hunion]

theorem Merges.mergesTexts (hgathers : graph.Gathers clique records contents)
    {content : FieldContent} (hcontent : contents.find? name = some content)
    {warnings : List Warning}
    (hcompletes : pass.passage.Completes built name content made warnings)
    (hhas : pass.graph.has made = true) (htexts : ∀ member ∈ clique, ∀ field,
      graph.field? member name = some field → graph.options field = [] ∨
        ∃ other, graph.options field = [other] ∧ graph.kind? other = some .text)
    (hsome : content.shapes ≠ []) :
    ∃ text, graph.MergesTexts pass clique name made text := by
  have hflat : graph.Flat := hrecords.flat
  have hnullable :=
    h.nullable_made_iff hrecords hgathers hcontent hcompletes.makes
  obtain ⟨base, _, hyields, hmade⟩ := hcompletes
  obtain ⟨_, rfl⟩ := hgathers.find?.mp hcontent
  have hshapes := hgathers.shapes_eq_fieldTexts hflat htexts
  rw [or_iff_left hsome, hgathers.nullable_iff] at hnullable
  have hkinds : ∀ ref ∈ (graph.contentOf records name).shapes,
    graph.kind? ref = some .text :=
    fun ref href => kind?_of_mem_fieldTexts (hshapes ▸ href)
  refine ⟨base, fun member hmember field hfield => ?_, ?_, fun hall => ?_,
    fun hplain => ?_, hnullable⟩
  · rw [hflat.alternatives_eq_ok (hflat.field?_has hfield)]
    rcases htexts member hmember field hfield with hnone | ⟨old, hold, _⟩
    · exact Or.inl (congrArg _ hnone)
    · refine Or.inr ⟨old, ?_, congrArg _ hold⟩
      rw [← hshapes]
      exact hgathers.mem_shapes_iff.mpr
        ⟨member, hmember, field, hfield, mem_contributed_iff.mpr (Or.inl hold)⟩
  · rw [h.realizes.flat.alternatives_eq_ok hhas, h.options_made hmade,
      options_of_text (h.kind?_yielded hrecords hyields hkinds hsome)]
  · rw [← hshapes] at hall
    have hsum := (h.sum_yielded hrecords hyields hkinds hsome hall).2
    rw [hshapes] at hsum
    exact ⟨_, hsum, fun literal =>
      ⟨mem_names_sum_tallies _ literal, count_sum_tallies _ literal⟩⟩
  · rw [← hshapes] at hplain ⊢
    exact h.first_yielded hrecords hyields hkinds hplain

end Field

section Pass

variable [Share σ] {settings : Settings σ} (hbuilt : graph.Built)
  (hpass : graph.mergeSimilar settings = .ok pass) {index : Nat}
  (hclique : pass.summary.cliques[index]? = some clique)

include hbuilt hpass hclique

theorem texts_summed_or_kept {member field : Ref} (hmember : member ∈ clique)
    (hfield : graph.field? member name = some field)
    (honly : graph.alternatives field = .ok [text])
    (hkind : graph.kind? text = some .text) :
    ∃ target merged made sum, pass.summary.merged[index]? = some target ∧
      pass.graph.record? target = some merged ∧
      merged.fields.find? name = some made ∧
      graph.MergesTexts pass clique name made sum := by
  have hflat := hbuilt.flat
  obtain ⟨cliques, built, hcliques, hrecounts⟩ := exists_recounts hflat hpass
  have hmerges := hrecounts.toMerges
  have hrecords := ofRecords_collapseOf hcliques hflat settings.policy
  rw [hmerges.partition] at hclique
  obtain ⟨warnings, records, merged, contents, _, hgathers, hmerged,
    hexplains⟩ :=
    hrecounts.explained hclique
  rw [hflat.alternatives_eq_ok (hflat.field?_has hfield), Except.ok.injEq]
    at honly
  have hadded : text ∈ graph.contributed field :=
    mem_contributed_iff.mpr (Or.inl honly)
  have hin : text ∈ (graph.contentOf records name).shapes :=
    hgathers.mem_shapes_iff.mpr ⟨member, hmember, field, hfield, hadded⟩
  have hcontent := hgathers.find?_of_field? hmember hfield
  obtain ⟨made, hmade, hcompletes⟩ := hexplains.fields hcontent
  obtain ⟨sum, hsum⟩ :=
    hmerges.mergesTexts hrecords hgathers hcontent hcompletes
      (hmerges.realizes.flat.holds hmerged hmade)
      (fun other hother ref href =>
        (hgathers.agree_fields hmember hfield hother href).only_text honly
          hkind)
      (List.ne_nil_of_mem hin)
  refine ⟨_, merged, made, sum, ?_, hmerged, hmade, hsum⟩
  rw [hmerges.merged, List.getElem?_map, hclique]
  rfl

end Pass

/-- Two polls with the same questions: all answers were tallied, and some of the
remarks. -/
def polls : Graph where
  nodes := #[
    ⟨.text (some (.ofList [("no", 1), ("yes", 2)])), .blank⟩,
    ⟨.plainText, .blank⟩,
    ⟨.record ⟨.ofList [("answer", ⟨0⟩), ("remark", ⟨1⟩)], false⟩, .blank⟩,
    ⟨.text (some (.ofList [("yes", 3)])), .blank⟩,
    ⟨.record ⟨.ofList [("answer", ⟨3⟩), ("remark", ⟨0⟩)], false⟩, .blank⟩]
  roots := ∅

theorem polls_built : polls.Built := by
  have h : ((Builder.start .lenient).replay [
      .text .blank (some (.ofList [("no", 1), ("yes", 2)])),
      .text .blank none,
      .record .blank ⟨.ofList [("answer", ⟨0⟩), ("remark", ⟨1⟩)], false⟩ none,
      .text .blank (some (.ofList [("yes", 3)])),
      .record .blank ⟨.ofList [("answer", ⟨3⟩), ("remark", ⟨0⟩)], false⟩ none
      ]).toGraph = .ok polls := by
    decide +kernel
  exact .finished h

theorem polls_mergeable :
    polls.mergeableRefs (1 / 2 : Rat) ⟨2⟩ ⟨4⟩ = .ok true := by
  have hfirst : polls.record? ⟨2⟩ =
      some ⟨.ofList [("answer", ⟨0⟩), ("remark", ⟨1⟩)], false⟩ := rfl
  have hsecond : polls.record? ⟨4⟩ =
      some ⟨.ofList [("answer", ⟨3⟩), ("remark", ⟨0⟩)], false⟩ := rfl
  have htexts : ∀ ref ∈ [⟨2⟩, ⟨4⟩], ∀ record ∈ polls.record? ref,
    ∀ field ∈ record.fields.values, polls.kind? field = some .text := by
    decide +kernel
  refine mergeableRefs_of_same_names polls_built.flat (by decide +kernel) hfirst
    hsecond (by decide +kernel) fun {name x y} hx hy => agree_of_texts ?_ ?_
  · exact htexts ⟨2⟩ (by decide) _ hfirst x
      (NameMap.mem_values_iff.mpr ⟨name, hx⟩)
  · exact htexts ⟨4⟩ (by decide) _ hsecond y
      (NameMap.mem_values_iff.mpr ⟨name, hy⟩)

theorem polls_pass :
    ∃ pass, polls.mergeSimilar ⟨(1 / 2 : Rat), .lenient⟩ = .ok pass ∧
      pass.summary.cliques[0]? = some [⟨2⟩, ⟨4⟩] := by
  have hhalf : (1 / 2 : Rat) ≤ 1 := by decide +kernel
  have hcandidates : polls.candidates = [⟨2⟩, ⟨4⟩] := by decide +kernel
  obtain ⟨pass, cliques, _, hpass, hcliques, hmerges⟩ :=
    polls_built.flat.exists_pass (by decide +kernel) hhalf .lenient
  rw [Graph.cliques, hcandidates] at hcliques
  obtain rfl := Partition.cliques_eq_ok hcliques
  refine ⟨pass, hpass, ?_⟩
  rw [hmerges.partition, Partition.groups_of_pairwise]
  · rfl
  · exact List.pairwise_pair.mpr
      (Partition.accepts_eq_true_iff.mpr polls_mergeable)

theorem polls_texts :
    ∃ pass target merged made sum,
      polls.mergeSimilar ⟨(1 / 2 : Rat), .lenient⟩ = .ok pass ∧
      pass.summary.cliques[0]? = some [⟨2⟩, ⟨4⟩] ∧
      pass.summary.merged[0]? = some target ∧
      pass.graph.record? target = some merged ∧
      merged.fields.find? "answer" = some made ∧
      polls.MergesTexts pass [⟨2⟩, ⟨4⟩] "answer" made sum := by
  obtain ⟨pass, hpass, hclique⟩ := polls_pass
  have hkind : polls.kind? ⟨0⟩ = some .text := rfl
  have honly : polls.alternatives ⟨0⟩ = .ok [⟨0⟩] := by
    rw [polls_built.flat.alternatives_eq_ok (by decide +kernel),
      options_of_text hkind]
  have hfield : polls.field? ⟨2⟩ "answer" = some ⟨0⟩ := by decide +kernel
  obtain ⟨target, merged, made, sum, htarget, hmerged, hmade, hsum⟩ :=
    texts_summed_or_kept polls_built hpass hclique List.mem_cons_self
      hfield honly hkind
  exact ⟨pass, target, merged, made, sum, hpass, hclique, htarget, hmerged,
    hmade, hsum⟩

end Graph

end ShapeMerge
