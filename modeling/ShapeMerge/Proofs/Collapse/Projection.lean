import ShapeMerge.Proofs.Collapse.LoweredUnions

namespace ShapeMerge

/-!
Lowering twice is lowering once.  A lowered graph has no format left that the
policy lowers, so no union of it narrows and no node of it is bypassed, and a
graph like that is lowered to itself.
-/

namespace Graph

variable {graph : Graph} {policy : FormatPolicy} {ref : Ref}

theorem Keeps.not_onlyTexts (h : graph.Keeps policy) (hwf : graph.WellFormed) :
    ¬ graph.OnlyTexts policy ref := by
  intro htexts
  obtain ⟨alternatives, hshape, hlong, hall⟩ := htexts
  obtain ⟨only, honly⟩ := exists_survivor? (hwf.kinds hshape) hlong hall
  rw [h.survivor?_eq_none] at honly
  cases honly

theorem Keeps.not_mixesTexts (h : graph.Keeps policy) (hwf : graph.WellFormed) :
    ¬ graph.MixesTexts policy ref := by
  intro hmixes
  obtain ⟨_, _, _, _, htexts, _⟩ := hmixes
  exact h.not_onlyTexts hwf htexts

variable {embed : GraphFault → ε}
  {build : Passage → Site → Builder → Except ε ((Ref × α) × Builder)}

theorem Keeps.lowered_eq_self (h : graph.Keeps policy) {collapsed : Collapsed α}
    (hrun : (graph.lowering policy).run embed build = .ok collapsed) :
    collapsed.graph = graph := by
  have hkeeps :
      (graph.lowering policy).graph.Keeps (graph.lowering policy).policy := h
  exact Collapse.run_eq_self hkeeps rfl hrun

theorem Keeps.exists_lowered_eq_self (h : graph.Keeps policy)
    (hcheck : graph.check = .ok ()) (embed : GraphFault → ε)
    (build : Passage → Site → Builder → Except ε ((Ref × α) × Builder)) :
    ∃ collapsed, (graph.lowering policy).run embed build = .ok collapsed ∧
      collapsed.graph = graph := by
  obtain ⟨collapsed, hrun, _⟩ :=
    exists_lowered policy embed build hcheck fun _ =>
      h.not_mixesTexts (check_eq_ok_iff.mp hcheck)
  exact ⟨collapsed, hrun, h.lowered_eq_self hrun⟩

theorem keeps_of_lowers {lowered : Graph}
    (h : (graph.lowering policy).Lowers lowered)
    (hready : (graph.lowering policy).Ready) : lowered.Keeps policy := by
  rw [keeps_iff]
  intro ref format hshape
  rw [h.shape?] at hshape
  obtain ⟨found, hfound, hformat⟩ := Option.map_eq_some_iff.mp hshape
  obtain ⟨_, node, _, _, _, _, hcarried⟩ := hready.exists_source hfound
  have hkind : policy.lowerKind node.kind = .formatted format := by
    have hcarry :=
      (graph.lowering policy).kind_carry (graph.lowering policy).passage node
    rw [← hcarried, Node.kind, hformat] at hcarry
    exact hcarry.symm
  exact FormatPolicy.lowers_eq_false_of_lowerKind hkind

theorem keeps_of_lowering {collapsed : Collapsed α}
    (h : (graph.lowering policy).run embed build = .ok collapsed) :
    collapsed.graph.check = .ok () ∧ collapsed.graph.Keeps policy := by
  have hwf : graph.WellFormed := (Collapse.run_eq_ok_iff.mp h).1.wellFormed
  have hungrouped := ungrouped_lowering (check_eq_ok_iff.mpr hwf) policy
  obtain ⟨lowered, hlowers, hrun⟩ := hungrouped.exists_run embed build
  rw [hrun] at h
  cases hcheck : lowered.check with
  | error fault =>
      rw [hcheck] at h
      cases h
  | ok _ =>
      rw [hcheck] at h
      cases h
      exact ⟨hcheck, keeps_of_lowers hlowers hungrouped.toReady⟩

theorem lowering_projects {collapsed : Collapsed α}
    (h : (graph.lowering policy).run embed build = .ok collapsed) :
    (∀ ref format, collapsed.graph.shape? ref = some (.formatted format) →
      policy.lowers format = false) ∧
      (∀ (embed : GraphFault → ε)
        (build : Passage → Site → Builder → Except ε ((Ref × α) × Builder)),
        ∃ again, (collapsed.graph.lowering policy).run embed build = .ok again ∧
          again.graph = collapsed.graph) ∧
      ((∀ ref format, graph.shape? ref = some (.formatted format) →
        policy.lowers format = false) → collapsed.graph = graph) := by
  obtain ⟨hcheck, hkeeps⟩ := keeps_of_lowering h
  refine ⟨keeps_iff.mp hkeeps, hkeeps.exists_lowered_eq_self hcheck,
    fun hkept => ?_⟩
  exact (keeps_iff.mpr hkept).lowered_eq_self h

theorem tallied_projects :
    ∃ collapsed, (tallied.lowering .allPlain).run id (fun _ site builder =>
        .ok ((site.slot, ()), builder)) = .ok collapsed ∧
      (∀ ref format, collapsed.graph.shape? ref ≠ some (.formatted format)) ∧
      ∃ again, (collapsed.graph.lowering .allPlain).run id
          (fun _ site builder => .ok ((site.slot, ()), builder)) = .ok again ∧
        again.graph = collapsed.graph := by
  obtain ⟨collapsed, hrun, _⟩ := tallied_built.flat.exists_lowered .allPlain id
    fun _ site builder => .ok ((site.slot, ()), builder)
  obtain ⟨hformats, hagain, _⟩ := lowering_projects hrun
  refine ⟨collapsed, hrun, fun ref format hshape => ?_, hagain id _⟩
  cases hformats ref format hshape

end Graph

end ShapeMerge
