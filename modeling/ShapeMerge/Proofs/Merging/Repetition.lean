import ShapeMerge.Proofs.Collapse.Keeping
import ShapeMerge.Proofs.Merging.Records

namespace ShapeMerge

/-!
Merge passes one after the other.  The first pass lowers all formats there are
to lower, and no pass makes new ones; a pass that merges leaves fewer
candidates, and one that does not leaves a graph alone whose formats are all
kept.
-/

namespace Graph

def afterPasses [Share σ] (graph : Graph) (settings : Settings σ) :
    Nat → Except MergeFault Graph
  | 0 => .ok graph
  | count + 1 => do
      let before ← graph.afterPasses settings count
      let pass ← before.mergeSimilar settings
      return pass.graph

section Pass

variable [Share σ] {settings : Settings σ} {graph : Graph} {pass : MergePass}

theorem keeps_of_mergeSimilar (hflat : graph.Flat)
    (hpass : graph.mergeSimilar settings = .ok pass) :
    pass.graph.Keeps settings.policy := by
  obtain ⟨cliques, _, hcliques, _⟩ := exists_merges hflat hpass
  rw [keeps_iff]
  intro target format hshape
  obtain ⟨_, _, _, hkind⟩ := exists_source_of_kind? hflat hcliques hpass
    (kind?_of_shape? hshape) (Kind.not_auxiliary_formatted format)
  obtain ⟨_, _, hlowered⟩ := Option.map_eq_some_iff.mp hkind
  exact FormatPolicy.lowers_eq_false_of_lowerKind hlowered

theorem candidates_lt_of_mergeSimilar (hflat : graph.Flat)
    (hpass : graph.mergeSimilar settings = .ok pass)
    (hmerged : pass.summary.changesNothing = false) :
    pass.graph.candidates.length < graph.candidates.length := by
  obtain ⟨cliques, built, hcliques, hmerges⟩ := exists_merges hflat hpass
  rw [Summary.changesNothing, hmerges.partition, List.isEmpty_eq_false_iff]
    at hmerged
  have hcount := hmerges.length_candidates hcliques hflat hpass
  have hlonger := length_lt_length_flatten
    (fun _ hclique => (mem_groups_of_mem_cliques hcliques hclique).2) hmerged
  omega

theorem candidates_le_of_mergeSimilar (hflat : graph.Flat)
    (hpass : graph.mergeSimilar settings = .ok pass) :
    pass.graph.candidates.length ≤ graph.candidates.length := by
  obtain ⟨cliques, built, hcliques, hmerges⟩ := exists_merges hflat hpass
  have hcount := hmerges.length_candidates hcliques hflat hpass
  have htails : (cliques.map List.tail).flatten.length + cliques.length =
      cliques.flatten.length :=
    length_flatten_tails
      (ofRecords_collapseOf hcliques hflat settings.policy).nonempty
  omega

theorem mergeSimilar_eq_self (hkeeps : graph.Keeps settings.policy)
    (hpass : graph.mergeSimilar settings = .ok pass)
    (hmerged : pass.summary.changesNothing = true) : pass.graph = graph := by
  obtain ⟨_, cliques, collapsed, _, hrun, rfl⟩ :=
    mergeSimilar_eq_ok_iff.mp hpass
  have hgroups : (graph.collapseOf settings.policy cliques).groups = [] :=
    List.isEmpty_iff.mp hmerged
  exact Collapse.run_eq_self hkeeps hgroups hrun

theorem eq_self_or_candidates_lt
    (hflat : graph.Flat) (hkeeps : graph.Keeps settings.policy)
    (hpass : graph.mergeSimilar settings = .ok pass) :
    pass.graph = graph ∨
      pass.graph.candidates.length < graph.candidates.length := by
  cases hmerged : pass.summary.changesNothing with
  | true => exact Or.inl (mergeSimilar_eq_self hkeeps hpass hmerged)
  | false => exact Or.inr (candidates_lt_of_mergeSimilar hflat hpass hmerged)

end Pass

def Stable [Share σ] (graph : Graph) (settings : Settings σ) : Prop :=
  ∃ pass, graph.mergeSimilar settings = .ok pass ∧ pass.graph = graph

theorem afterPasses_succ [Share σ]
    {settings : Settings σ} {graph before : Graph} {pass : MergePass}
    {count : Nat} (hbefore : graph.afterPasses settings count = .ok before)
    (hpass : before.mergeSimilar settings = .ok pass) :
    graph.afterPasses settings (count + 1) = .ok pass.graph := by
  rw [afterPasses, hbefore]
  exact bind_eq_ok_iff.mpr ⟨before, rfl, bind_eq_ok_iff.mpr ⟨pass, hpass, rfl⟩⟩

section Sequence

variable {graph : Graph} {share : Rat} (hpos : 0 < share) (hle : share ≤ 1)
  {policy : FormatPolicy}

include hpos hle

theorem stable_of_few_candidates (hflat : graph.Flat)
    (hkeeps : graph.Keeps policy) (hfew : graph.candidates.length ≤ 1) :
    graph.Stable ⟨share, policy⟩ := by
  obtain ⟨pass, cliques, built, hpass, hcliques, hmerges⟩ :=
    hflat.exists_pass hpos hle policy
  refine ⟨pass, hpass, mergeSimilar_eq_self hkeeps hpass ?_⟩
  rw [Summary.changesNothing, hmerges.partition, List.isEmpty_iff,
    List.eq_nil_iff_forall_not_mem]
  intro clique hclique
  have hlong := (mem_groups_of_mem_cliques hcliques hclique).2
  have hshort := (clique_sublist hcliques hclique).length_le
  omega

/-- From the first pass on, every pass costs a candidate until the graph is
stable. -/
theorem exists_afterPasses (hbuilt : graph.Built) (policy : FormatPolicy)
    (count : Nat) :
    ∃ before, graph.afterPasses ⟨share, policy⟩ (count + 1) = .ok before ∧
      before.Built ∧ before.Keeps policy ∧ (before.Stable ⟨share, policy⟩ ∨
        before.candidates.length + count ≤ graph.candidates.length) := by
  induction count with
  | zero =>
      obtain ⟨pass, _, _, hpass, _⟩ := hbuilt.flat.exists_pass hpos hle policy
      refine ⟨pass.graph, afterPasses_succ rfl hpass, .merged hbuilt hpass,
        keeps_of_mergeSimilar hbuilt.flat hpass, Or.inr ?_⟩
      exact candidates_le_of_mergeSimilar hbuilt.flat hpass
  | succ count ih =>
      obtain ⟨before, hbefore, hbuilt, hkeeps, hcount⟩ := ih
      obtain ⟨pass, _, _, hpass, _⟩ := hbuilt.flat.exists_pass hpos hle policy
      refine ⟨pass.graph, afterPasses_succ hbefore hpass, .merged hbuilt hpass,
        keeps_of_mergeSimilar hbuilt.flat hpass, ?_⟩
      have hsame (heq : pass.graph = before) :
          pass.graph.Stable ⟨share, policy⟩ := by
        subst heq
        exact ⟨pass, hpass, rfl⟩
      rcases hcount with ⟨other, hother, heq⟩ | hcount
      · obtain rfl := Except.ok.inj (hpass.symm.trans hother)
        exact Or.inl (hsame heq)
      · rcases eq_self_or_candidates_lt hbuilt.flat hkeeps hpass with heq | hlt
        · exact Or.inl (hsame heq)
        · right
          omega

/-- Every pass succeeds, a pass that merges leaves fewer candidates, and once
there have been as many passes as there were candidates, and one at least, a
pass changes nothing. -/
theorem mergeSimilar_reaches_fixed_point (hbuilt : graph.Built)
    (policy : FormatPolicy) (count : Nat) :
    ∃ before pass, graph.afterPasses ⟨share, policy⟩ count = .ok before ∧
      before.mergeSimilar ⟨share, policy⟩ = .ok pass ∧
      (pass.summary.changesNothing = false →
        pass.graph.candidates.length < before.candidates.length) ∧
      (0 < count → graph.candidates.length ≤ count → pass.graph = before) := by
  cases count with
  | zero =>
      obtain ⟨pass, _, _, hpass, _⟩ := hbuilt.flat.exists_pass hpos hle policy
      exact ⟨graph, pass, rfl, hpass,
        candidates_lt_of_mergeSimilar hbuilt.flat hpass,
        fun h => absurd h (Nat.lt_irrefl 0)⟩
  | succ count =>
      obtain ⟨before, hbefore, hbuilt, hkeeps, hcount⟩ :=
        exists_afterPasses hpos hle hbuilt policy count
      obtain ⟨pass, _, _, hpass, _⟩ := hbuilt.flat.exists_pass hpos hle policy
      refine ⟨before, pass, hbefore, hpass,
        candidates_lt_of_mergeSimilar hbuilt.flat hpass, fun _ hlong => ?_⟩
      have hstable : before.Stable ⟨share, policy⟩ := by
        rcases hcount with hstable | hcount
        · exact hstable
        · exact stable_of_few_candidates hpos hle hbuilt.flat hkeeps (by omega)
      obtain ⟨other, hother, heq⟩ := hstable
      obtain rfl := Except.ok.inj (hpass.symm.trans hother)
      exact heq

end Sequence

theorem twins_reach_fixed_point :
    ∃ before pass, twins.afterPasses ⟨(1 / 2 : Rat), .lenient⟩ 3 = .ok before ∧
      before.mergeSimilar ⟨(1 / 2 : Rat), .lenient⟩ = .ok pass ∧
      pass.graph = before := by
  have hpos : (0 : Rat) < 1 / 2 := by decide +kernel
  obtain ⟨before, pass, hbefore, hpass, _, hsame⟩ :=
    mergeSimilar_reaches_fixed_point hpos (by decide +kernel)
      twins_built .lenient 3
  exact ⟨before, pass, hbefore, hpass, hsame (by decide) (by decide)⟩

end Graph

end ShapeMerge
