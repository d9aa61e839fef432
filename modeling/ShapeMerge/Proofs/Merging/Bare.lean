import ShapeMerge.Merging.Pass
import ShapeMerge.NameMap.Lemmas
import ShapeMerge.Proofs.Collapse.Bare
import ShapeMerge.Proofs.Merging.Pass

namespace ShapeMerge

/-!
Name hints never influence what is merged.  A merge pass over a graph without
its hints does what it does over the graph itself, hints apart, so graphs that
differ in their hints alone come out alike.
-/

def FieldContent.bare (content : FieldContent) : FieldContent :=
  { content with hints := .blank }

def MergePass.bare (pass : MergePass) : MergePass :=
  { pass with graph := pass.graph.bare, passage := pass.passage.bare }

theorem Hints.joinAll_blank {bundles : List Hints}
    (h : ∀ bundle ∈ bundles, bundle = .blank) : joinAll bundles = .blank := by
  obtain ⟨count, rfl⟩ : ∃ count, bundles = List.replicate count .blank :=
    ⟨_, List.eq_replicate_iff.mpr ⟨rfl, h⟩⟩
  have hasserts : (List.replicate count blank).any asserts = false := by
    rw [List.any_eq_false]
    intro bundle hbundle
    rw [List.eq_of_mem_replicate hbundle]
    decide
  have hnames :
      ((List.replicate count blank).map (·.names)).flatMap (·.names) = [] := by
    rw [List.flatMap_eq_nil_iff]
    intro names hnames
    obtain ⟨bundle, hbundle, rfl⟩ := List.mem_map.mp hnames
    rw [List.eq_of_mem_replicate hbundle]
    rfl
  rw [joinAll, hasserts, if_neg Bool.false_ne_true, NameSet.unions, hnames]
  rfl

namespace Graph

section Mergeability

variable (graph : Graph)

theorem pairUp_bare (others refs : List Ref) :
    graph.bare.pairUp others refs = graph.pairUp others refs := by
  induction refs with
  | nil => rfl
  | cons ref rest ih =>
      rw [pairUp, pairUp, kind?_bare, ofKind?_bare, equivalent_bare, ih]

theorem fieldsAgree_bare (left right : Record) (names : List String) :
    graph.bare.fieldsAgree left right names =
      graph.fieldsAgree left right names := by
  have hagrees : graph.bare.fieldAgrees = graph.fieldAgrees := by
    funext left right
    simp only [fieldAgrees, alternatives_bare, agree, kind?_bare, pairUp_bare]
  induction names with
  | nil => rfl
  | cons name rest ih => rw [fieldsAgree, fieldsAgree, hagrees, ih]

theorem mergeableRefs_bare [Share σ] (share : σ) :
    graph.bare.mergeableRefs share = graph.mergeableRefs share := by
  have habsorbable (larger smaller : Record) :
      graph.bare.absorbable share larger smaller =
        graph.absorbable share larger smaller := by
    rw [absorbable, absorbable, fieldsAgree_bare]
  funext left right
  rw [mergeableRefs, mergeableRefs, record?_bare]
  simp only [mergeable, habsorbable]

@[simp] theorem candidates_bare : graph.bare.candidates = graph.candidates := by
  rw [candidates, candidates, records_bare]

theorem cliques_bare [Share σ] (share : σ) :
    graph.bare.cliques share = graph.cliques share := by
  rw [cliques, cliques, mergeableRefs_bare, candidates_bare]

end Mergeability

section Contents

variable (graph : Graph)

theorem joinAll_bare (refs : List Ref) :
    Hints.joinAll (refs.filterMap graph.bare.hints?) = .blank := by
  apply Hints.joinAll_blank
  intro bundle hbundle
  obtain ⟨ref, _, hhints⟩ := List.mem_filterMap.mp hbundle
  rw [hints?_bare, Option.map_eq_some_iff] at hhints
  obtain ⟨_, _, rfl⟩ := hhints
  rfl

theorem fieldContent_bare (records : List Record) (name : String) :
    graph.bare.fieldContent records name =
      (graph.fieldContent records name).map FieldContent.bare := by
  have hcontribution : graph.bare.contribution = graph.contribution := by
    funext ref
    rw [contribution, contribution, alternatives_bare]
  rw [fieldContent, fieldContent, hcontribution, joinAll_bare, nullable_bare]
  exact bind_eq_map_bind fun _ => rfl

theorem fieldContents_bare (members : List Ref) :
    graph.bare.fieldContents members =
      (graph.fieldContents members).map (NameMap.map FieldContent.bare) := by
  have hrequire : graph.bare.requireRecord = graph.requireRecord := by
    funext ref
    rw [requireRecord, requireRecord, record?_bare]
  rw [fieldContents, fieldContents, hrequire]
  apply bind_eq_map_bind
  intro records
  dsimp only
  have hcontent (name : String) :
      (do
        let content ←
          (graph.bare.fieldContent records name).mapError MergeFault.graph
        return (name, content)) =
      (do
        let content ←
          (graph.fieldContent records name).mapError MergeFault.graph
        return (name, content)).map (Prod.map id FieldContent.bare) := by
    rw [fieldContent_bare, mapError_map]
    exact map_bind_eq_map_bind fun _ => rfl
  rw [mapM_eq_map_mapM hcontent]
  apply map_bind_eq_map_bind
  intro contents
  exact congrArg Except.ok (NameMap.ofList_map _ contents)

theorem textsDiffer_bare (first : Option (Option Tally)) (refs : List Ref) :
    graph.bare.textsDiffer first refs = graph.textsDiffer first refs := by
  have htexts : graph.bare.textLiterals? = graph.textLiterals? := by
    funext ref
    rw [textLiterals?, textLiterals?, shape?_bare]
  induction refs generalizing first with
  | nil => rfl
  | cons ref rest ih =>
      rw [textsDiffer, textsDiffer, alternatives_bare, htexts]
      simp only [ih]

theorem collectTexts_bare (field : String) (refs : List Ref) :
    graph.bare.collectTexts field refs = graph.collectTexts field refs := by
  induction refs with
  | nil => rfl
  | cons ref rest ih => rw [collectTexts, collectTexts, shape?_bare, ih]

end Contents

end Graph

namespace Passage

variable (passage : Passage) (field : String) (content : FieldContent)
  (builder : Builder)

theorem carried_bare (ref : Ref) :
    passage.bare.carried ref builder.bare =
      (passage.carried ref builder).map Builder.bareResult := by
  have hfollow : passage.bare.follow ref = passage.follow ref := rfl
  rw [carried, carried, hfollow]
  exact bind_eq_map_bind fun _ => rfl

theorem mergeTexts_bare (representative : Ref) :
    passage.bare.mergeTexts field content.bare representative builder.bare =
      (passage.mergeTexts field content representative builder).map
        Builder.bareResult := by
  have hgraph : passage.bare.graph = passage.graph.bare := rfl
  have hshapes : content.bare.shapes = content.shapes := rfl
  rw [mergeTexts, mergeTexts, hgraph, hshapes, Graph.collectTexts_bare,
    Graph.joinAll_bare]
  apply bind_eq_map_bind
  intro texts
  dsimp only
  split
  · rw [Builder.text_bare]
    rfl
  · rw [carried_bare]
    exact map_bind_eq_map_bind fun _ => rfl

theorem mergeOthers_bare (representative : Ref) (shape : Shape) :
    passage.bare.mergeOthers field content.bare
        representative shape builder.bare =
      (passage.mergeOthers field content representative shape builder).map
        Builder.bareResult := by
  have hgraph : passage.bare.graph = passage.graph.bare := rfl
  have hshapes : content.bare.shapes = content.shapes := rfl
  rw [mergeOthers, mergeOthers, carried_bare, hgraph, hshapes,
    Graph.textsDiffer_bare]
  by_cases hunion : shape.kind = .union
  · rw [if_pos hunion, if_pos hunion]
    exact bind_eq_map_bind fun _ => map_bind_eq_map_bind fun _ => rfl
  · rw [if_neg hunion, if_neg hunion]
    exact bind_eq_map_bind fun _ => map_bind_eq_map_bind fun _ => rfl

theorem mergeShapes_bare :
    passage.bare.mergeShapes field content.bare builder.bare =
      (passage.mergeShapes field content builder).map Builder.bareResult := by
  have hgraph : passage.bare.graph = passage.graph.bare := rfl
  have hshapes : content.bare.shapes = content.shapes := rfl
  rw [mergeShapes, mergeShapes, hgraph, hshapes, Graph.shape?_bare]
  cases content.shapes with
  | nil =>
      rw [Builder.primitive_bare]
      rfl
  | cons representative rest =>
      dsimp only
      cases passage.graph.shape? representative with
      | none => rfl
      | some shape =>
          cases shape with
          | text literals =>
              exact passage.mergeTexts_bare field content builder representative
          | _ =>
              exact passage.mergeOthers_bare field content builder
                representative _

theorem mergeField_bare :
    passage.bare.mergeField field content.bare builder.bare =
      (passage.mergeField field content builder).map Builder.bareResult := by
  rw [mergeField, mergeField, mergeShapes_bare]
  apply map_bind_eq_map_bind
  intro made
  obtain ⟨⟨merged, warnings⟩, after⟩ := made
  have hnullable : content.bare.nullable = content.nullable := rfl
  have hhints : content.bare.hints = .blank := rfl
  dsimp only
  rw [hnullable, hhints, after.nullable_bare content.hints]
  split
  · obtain ⟨answer, last⟩ := after.nullable content.hints merged
    cases answer <;> rfl
  · rfl

theorem mergeFields_bare (entries : List (String × FieldContent))
    (builder : Builder) :
    passage.bare.mergeFields (entries.map (Prod.map id FieldContent.bare))
        builder.bare =
      (passage.mergeFields entries builder).map Builder.bareResult := by
  induction entries generalizing builder with
  | nil => rfl
  | cons entry rest ih =>
      obtain ⟨field, content⟩ := entry
      rw [List.map_cons, Prod.map_apply, mergeFields, mergeFields, id,
        mergeField_bare]
      apply map_bind_eq_map_bind
      intro made
      obtain ⟨⟨merged, warnings⟩, after⟩ := made
      dsimp only
      rw [ih]
      exact map_bind_eq_map_bind fun _ => rfl

theorem mergeRecords_bare (members : List Ref) (slot : Ref) :
    passage.bare.mergeRecords members slot builder.bare =
      (passage.mergeRecords members slot builder).map Builder.bareResult := by
  have hgraph : passage.bare.graph = passage.graph.bare := rfl
  rw [mergeRecords, mergeRecords, hgraph, Graph.fieldContents_bare,
    Graph.joinAll_bare]
  apply map_bind_eq_map_bind
  intro contents
  have hentries : (contents.map FieldContent.bare).entries =
      contents.entries.map (Prod.map id FieldContent.bare) := rfl
  dsimp only
  rw [hentries, mergeFields_bare]
  apply map_bind_eq_map_bind
  intro merged
  obtain ⟨⟨fields, warnings⟩, after⟩ := merged
  dsimp only
  rw [after.record_bare (.joinAll (members.filterMap passage.graph.hints?)),
    mapError_map]
  exact map_bind_eq_map_bind fun _ => rfl

end Passage

namespace Graph

theorem buildMerged_bare (passage : Passage) (site : Site) (builder : Builder) :
    buildMerged passage.bare site builder.bare =
      (buildMerged passage site builder).map Builder.bareResult := by
  rw [buildMerged, buildMerged, Passage.mergeRecords_bare]
  exact map_bind_eq_map_bind fun _ => rfl

theorem mergeSimilar_bare [Share σ] (graph : Graph) (settings : Settings σ) :
    graph.bare.mergeSimilar settings =
      (graph.mergeSimilar settings).map MergePass.bare := by
  rw [mergeSimilar, mergeSimilar, cliques_bare, candidates_bare]
  apply bind_eq_map_bind
  intro _
  apply bind_eq_map_bind
  intro cliques
  have hrun :
      Collapse.run ⟨graph.bare, settings.policy, cliques⟩ .graph buildMerged =
        (Collapse.run ⟨graph, settings.policy, cliques⟩ .graph buildMerged).map
          Collapsed.bare :=
    Collapse.run_bare ⟨graph, settings.policy, cliques⟩ buildMerged_bare
  dsimp only
  rw [hrun]
  exact map_bind_eq_map_bind fun _ => rfl

/-- The same shapes in the same order, under the same names. -/
structure SameShapes (left right : Graph) : Prop where
  shapes : left.nodes.map (·.shape) = right.nodes.map (·.shape)
  roots : left.roots = right.roots

theorem sameShapes_iff_bare {left right : Graph} :
    left.SameShapes right ↔ left.bare = right.bare := by
  have hshapes (graph : Graph) :
      graph.bare.nodes = (graph.nodes.map (·.shape)).map (⟨·, .blank⟩) := by
    rw [Array.map_map]
    rfl
  have hback (graph : Graph) :
      graph.bare.nodes.map (·.shape) = graph.nodes.map (·.shape) := by
    rw [bare, Array.map_map]
    rfl
  constructor
  · intro h
    rw [bare, bare, h.roots]
    have hnodes :=
      (hshapes left).trans ((congrArg _ h.shapes).trans (hshapes right).symm)
    exact congrArg (Graph.mk · right.roots) hnodes
  · intro h
    have hroots : left.bare.roots = right.bare.roots := congrArg Graph.roots h
    exact ⟨by rw [← hback left, ← hback right, h], hroots⟩

/-- Two passes that differ at most in the hints of the graphs they yield. -/
inductive SameOutcome :
    Except MergeFault MergePass → Except MergeFault MergePass → Prop
  | error (fault : MergeFault) : SameOutcome (.error fault) (.error fault)
  | ok {left right : MergePass} (hsummary : left.summary = right.summary)
      (hwarnings : left.warnings = right.warnings)
      (hplaces : left.passage.destinations = right.passage.destinations)
      (hgraphs : left.graph.SameShapes right.graph) :
      SameOutcome (.ok left) (.ok right)

theorem SameOutcome.of_bare {left right : Except MergeFault MergePass}
    (h : left.map MergePass.bare = right.map MergePass.bare) :
    SameOutcome left right := by
  cases left with
  | error fault =>
      cases right with
      | error other =>
          cases h
          exact .error fault
      | ok pass => cases h
  | ok first =>
      cases right with
      | error fault => cases h
      | ok second =>
          have hpass : first.bare = second.bare := Except.ok.inj h
          have hsummary : first.bare.summary = second.bare.summary := by
            rw [hpass]
          have hwarnings : first.bare.warnings = second.bare.warnings := by
            rw [hpass]
          have hplaces : first.bare.passage.destinations =
              second.bare.passage.destinations := by
            rw [hpass]
          have hgraphs : first.bare.graph = second.bare.graph := by rw [hpass]
          exact .ok hsummary hwarnings hplaces (sameShapes_iff_bare.mpr hgraphs)

theorem mergeSimilar_ignores_hints [Share σ] (settings : Settings σ)
    {left right : Graph} (h : left.SameShapes right) :
    SameOutcome (left.mergeSimilar settings) (right.mergeSimilar settings) := by
  apply SameOutcome.of_bare
  rw [← mergeSimilar_bare, ← mergeSimilar_bare, sameShapes_iff_bare.mp h]

def namesakes : Graph :=
  { twins with nodes := twins.nodes.map fun node =>
    ⟨node.shape, .explicitName "twin"⟩ }

theorem namesakes_merge_as_twins :
    twins ≠ namesakes ∧
      SameOutcome (twins.mergeSimilar ⟨(1 / 2 : Rat), .lenient⟩)
        (namesakes.mergeSimilar ⟨(1 / 2 : Rat), .lenient⟩) :=
  ⟨by decide +kernel, mergeSimilar_ignores_hints _ ⟨by decide +kernel, rfl⟩⟩

end Graph

end ShapeMerge
