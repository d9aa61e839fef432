import ShapeMerge.Proofs.Collapse.Descent
import ShapeMerge.Proofs.Merging.Additions

namespace ShapeMerge

theorem Builder.changes_stepsOfMerge :
    Builder.StepsOfMerge Builder.Changes where
  refl _ := .refl
  trans := Relation.ReflTransGen.trans
  null _ := .single (change_leaf .blank rfl rfl)
  text _ hints _ := .single (change_leaf hints rfl rfl)
  nullable := changes_nullable
  record h := .single (change_record h)

namespace Graph

/-- What builders hand out, and what comes of it by merging and by collapsing
groups of any nodes with any constructor that goes by the operations of the
builder. -/
inductive Reworked : Graph → Prop
  | built {policy : FormatPolicy}
      {history : List Builder.Operation} {graph : Graph}
      (h : ((Builder.start policy).replay history).toGraph = .ok graph) :
      Reworked graph
  | merged {σ : Type} [Share σ] {settings : Settings σ}
      {graph : Graph} {pass : MergePass} (hgraph : Reworked graph)
      (h : graph.mergeSimilar settings = .ok pass) : Reworked pass.graph
  | collapsed {ε α : Type} {collapse : Collapse} {embed : GraphFault → ε}
      {build : Passage → Site → Builder → Except ε ((Ref × α) × Builder)}
      {result : Collapsed α} (hgraph : Reworked collapse.graph)
      (hoperates : Collapse.Operates (build collapse.passage))
      (h : collapse.run embed build = .ok result) : Reworked result.graph

theorem Reworked.descending {graph : Graph} (h : graph.Reworked) :
    graph.Descending := by
  induction h with
  | @built policy history graph h =>
      have hbuilder : ((Builder.start policy).replay history).Descending :=
        ((Builder.start policy).changes_replay history).preserve
          (fun hchange h => h.change hchange) (Builder.descending_start policy)
      exact hbuilder.toGraph h
  | merged _ h ih =>
      obtain ⟨_, cliques, collapsed, _, hrun, rfl⟩ :=
        mergeSimilar_eq_ok_iff.mp h
      exact Collapse.run_descending
        (Passage.related_buildMerged Builder.changes_stepsOfMerge) ih hrun
  | collapsed _ hoperates h ih =>
      exact Collapse.run_descending hoperates.changes ih h

/-- The order of the nodes, the cycles, and two recursions that look out for
records at most. -/
structure RecordsBreakCycles (graph : Graph) : Prop
    extends Descending graph where
  cycles : ∀ {refs}, graph.Cycle refs →
    ∃ ref ∈ refs, graph.kind? ref = some .record
  oneLine : ∀ ref, graph.oneLineWithin ((graph.size + 1) * (graph.size + 1)) []
      ref = some (graph.oneLine ref)
  nullable :
    ∀ ref, graph.nullableWithin (graph.size + 1) ref = some (graph.nullable ref)

theorem Reworked.recordsBreakCycles {graph : Graph} (h : graph.Reworked) :
    graph.RecordsBreakCycles where
  toDescending := h.descending
  cycles := h.descending.exists_record
  oneLine ref := h.descending.oneLineWithin_eq (List.forall_mem_nil _)
    (graph.depthLeft_lt [] ref)
  nullable ref :=
    h.descending.nullableWithin_eq (Nat.lt_succ_of_le (graph.weight_le ref))

section Example

/-- A list: a record with the rest of it, or with `null`. -/
def chain : Graph where
  nodes := #[
    ⟨.record ⟨.ofList [("next", ⟨2⟩)], false⟩, .blank⟩,
    ⟨.null, .blank⟩,
    ⟨.union [⟨1⟩, ⟨0⟩], .blank⟩]
  roots := .ofList [("chain", ⟨0⟩)]

/-- Makes a record that also has an array of itself. -/
def branchOut (site : Site) (builder : Builder) :
    Except GraphFault ((Ref × Unit) × Builder) :=
  .ok ((site.slot, ()), builder.replay [
    .array .blank site.slot,
    .record .blank ⟨.ofList [("branches", builder.next), ("next", ⟨2⟩)], false⟩
      (some site.slot)])

def tree : Graph where
  nodes := #[
    ⟨.record ⟨.ofList [("branches", ⟨3⟩), ("next", ⟨2⟩)], false⟩, .blank⟩,
    ⟨.null, .blank⟩,
    ⟨.union [⟨1⟩, ⟨0⟩], .blank⟩,
    ⟨.array ⟨0⟩, .blank⟩]
  roots := .ofList [("chain", ⟨0⟩)]

theorem reworked_tree : tree.Reworked := by
  have hbuilt :
      ((Builder.start .lenient).replay [.reserve, .nullable .blank ⟨0⟩,
        .record .blank ⟨.ofList [("next", ⟨2⟩)], false⟩ (some ⟨0⟩),
        .root "chain" ⟨0⟩]).toGraph = .ok chain := by decide +kernel
  have hrun : ((Collapse.mk chain .lenient [[⟨0⟩]]).run id fun _ =>
    branchOut).toOption.map (·.graph) = some tree := by decide +kernel
  have hoperates : Collapse.Operates branchOut := by
    intro site builder result after h
    cases h
    exact ⟨_, rfl⟩
  cases hcase : (Collapse.mk chain .lenient [[⟨0⟩]]).run id fun _ =>
    branchOut with
  | error fault =>
      rw [hcase] at hrun
      cases hrun
  | ok result =>
      rw [hcase] at hrun
      rw [← Option.some.inj hrun]
      exact .collapsed (.built hbuilt) hoperates hcase

theorem tree_recordsBreakCycles :
    tree.RecordsBreakCycles ∧
    tree.Cycle [⟨0⟩, ⟨2⟩, ⟨0⟩, ⟨3⟩] ∧
    tree.oneLineWithin 3 [] ⟨0⟩ = some "\x7bbranches: [#0], next: #0?\x7d" := by
  refine ⟨reworked_tree.recordsBreakCycles, ⟨⟨0⟩, [⟨2⟩, ⟨0⟩, ⟨3⟩], rfl, ?_⟩,
    by decide +kernel⟩
  have hrefers : tree.Refers ⟨0⟩ ⟨2⟩ ∧ tree.Refers ⟨2⟩ ⟨0⟩ ∧
      tree.Refers ⟨0⟩ ⟨3⟩ ∧ tree.Refers ⟨3⟩ ⟨0⟩ :=
    ⟨⟨_, rfl, by decide +kernel⟩, ⟨_, rfl, by decide +kernel⟩,
      ⟨_, rfl, by decide +kernel⟩, ⟨_, rfl, by decide +kernel⟩⟩
  simpa using hrefers

end Example

end Graph

end ShapeMerge
