import ShapeMerge.Proofs.Collapse.Keeping
import ShapeMerge.Proofs.Collapse.Lowering
import ShapeMerge.Proofs.Collapse.Realization
import ShapeMerge.Proofs.Merging.Pass

namespace ShapeMerge

/-!
What lowering makes of a union with a member whose format is lowered.  Its
members that are no text all stay, and of its texts one stays.  That one is open
to any text, unless literals were tallied in the union: a tallied text counts as
present, so lowered text gives way to it and only its literals are left.
-/

namespace Graph

variable {graph : Graph} {policy : FormatPolicy} {ref member : Ref}
  {alternatives : List Ref}

/-- What a node is made of: the members of a union, and of anything else the
node itself. -/
def parts (graph : Graph) (ref : Ref) : List Ref :=
  match graph.shape? ref with
  | some (.union alternatives) => alternatives
  | _ => [ref]

theorem parts_of_union (h : graph.shape? ref = some (.union alternatives)) :
    graph.parts ref = alternatives := by
  rw [parts, h]

theorem parts_of_not_union (h : graph.kind? ref ≠ some .union) :
    graph.parts ref = [ref] := by
  rw [parts]
  split
  · rename_i hshape
    exact absurd (kind?_of_shape? hshape) h
  · rfl

/-- What is left of a union whose texts were lowered: one text, and the members
that are no text. -/
structure LeavesOneText (graph : Graph) (policy : FormatPolicy)
    (collapsed : Collapsed α) (ref : Ref) (alternatives : List Ref) : Prop where
  /-- It is open unless there was a tallied text, and has the literals of that
  one then. -/
  text : ∃ text literals,
    (collapsed.graph.parts (collapsed.passage.redirect ref)).filter
      (collapsed.graph.kind? · = some .text) = [text] ∧
    collapsed.graph.shape? text = some (.text literals) ∧
    ∀ tally, literals = some tally ↔
      ∃ member ∈ alternatives, graph.shape? member = some (.text (some tally))
  others :
    (collapsed.graph.parts (collapsed.passage.redirect ref)).filter
        (collapsed.graph.kind? · ≠ some .text) =
      (alternatives.filter (graph.loweredKind? policy · ≠ some .text)).map
        collapsed.passage.redirect
  copied : ∀ {member node}, member ∈ alternatives →
    graph.loweredKind? policy member ≠ some .text →
    graph.node? member = some node →
    collapsed.graph.node? (collapsed.passage.redirect member) =
      some ⟨node.shape.mapRefs collapsed.passage.redirect, node.hints⟩

end Graph

namespace Collapse.Realizes

variable {collapse : Collapse} {graph : Graph} {built : Builder}
  {ref member : Ref} {alternatives : List Ref}

theorem parts_redirect (h : collapse.Realizes graph built)
    (hrecords : collapse.OfRecords)
    (hshape : collapse.graph.shape? ref = some (.union alternatives)) :
    graph.parts (collapse.passage.redirect ref) =
      (collapse.graph.narrow collapse.policy alternatives).map
        collapse.passage.redirect := by
  cases hsurvivor : collapse.survivor? ref with
  | some only =>
      obtain ⟨_, others, hothers, hkept⟩ := survivor?_eq_some_iff.mp hsurvivor
      cases hshape.symm.trans hothers
      obtain ⟨hnarrow, _, hkind⟩ := Graph.survivor?_eq_some_iff.mp hkept
      rw [hrecords.redirect_of_survivor (Graph.has_iff_shape?.mpr ⟨_, hshape⟩)
        hsurvivor, hnarrow, Graph.parts_of_not_union]
      · rfl
      · rw [h.kind?_redirect hrecords (hrecords.survivor_has hsurvivor) hkind]
        exact fun heq => hkind (Graph.kind?_of_loweredKind? (by decide) heq)
  | none =>
      have hgroup :=
        group?_eq_none_of_shape? hrecords hshape fun heq => nomatch heq
      exact Graph.parts_of_union
        (h.shape?_redirect hrecords.toReady hshape hgroup hsurvivor)

theorem kind?_part (h : collapse.Realizes graph built)
    (hrecords : collapse.OfRecords)
    (hshape : collapse.graph.shape? ref = some (.union alternatives))
    (hmember : member ∈ alternatives) :
    graph.kind? (collapse.passage.redirect member) =
      collapse.graph.loweredKind? collapse.policy member :=
  h.kind?_redirect hrecords (hrecords.wellFormed.children hshape member hmember)
    (hrecords.flat.flat hshape member hmember)

theorem filter_parts (h : collapse.Realizes graph built)
    (hrecords : collapse.OfRecords)
    (hshape : collapse.graph.shape? ref = some (.union alternatives))
    (select : Option Kind → Bool) :
    (graph.parts (collapse.passage.redirect ref)).filter
        (fun part => select (graph.kind? part)) =
      ((collapse.graph.narrow collapse.policy alternatives).filter fun member =>
        select (collapse.graph.loweredKind? collapse.policy member)).map
          collapse.passage.redirect := by
  rw [h.parts_redirect hrecords hshape, List.filter_map]
  refine congrArg (List.map collapse.passage.redirect)
    (List.filter_congr fun member hmember => ?_)
  exact congrArg select (h.kind?_part hrecords hshape
    ((Graph.narrow_sublist alternatives).subset hmember))

theorem shape?_plain (h : collapse.Realizes graph built)
    (hrecords : collapse.OfRecords)
    {shape : Shape} (hshape : collapse.graph.shape? member = some shape)
    (hunion : shape.kind ≠ .union) (hrecord : shape.kind ≠ .record) :
    graph.shape? (collapse.passage.redirect member) =
      some (collapse.policy.lower
        (shape.mapRefs collapse.passage.redirect)) := by
  have hgroup := group?_eq_none_of_shape? hrecords hshape hrecord
  have hsurvivor : collapse.survivor? member = none := by
    apply survivor?_eq_none_of_kind
    rw [Graph.kind?_of_shape? hshape]
    exact fun heq => hunion (Option.some.inj heq)
  rw [h.shape?_redirect hrecords.toReady hshape hgroup hsurvivor,
    narrowed_of_not_union hunion]

theorem shape?_text (h : collapse.Realizes graph built)
    (hrecords : collapse.OfRecords)
    (htext : collapse.graph.loweredKind? collapse.policy member = some .text) :
    ∃ literals,
      graph.shape? (collapse.passage.redirect member) = some (.text literals) ∧
      ∀ tally, literals = some tally ↔
        collapse.graph.shape? member = some (.text (some tally)) := by
  rcases Graph.loweredKind?_eq_text_iff.mp htext with hkind | hlowered
  · obtain ⟨literals, hold⟩ := Graph.shape?_of_kind?_text hkind
    refine ⟨literals, h.shape?_plain hrecords hold nofun nofun, fun tally => ?_⟩
    rw [hold, Option.some.injEq, Shape.text.injEq]
  · obtain ⟨format, hold, hlowers⟩ := Graph.isLowered_iff.mp hlowered
    refine ⟨none, ?_, fun tally => ?_⟩
    · rw [h.shape?_plain hrecords hold nofun nofun]
      exact congrArg some (if_pos hlowers)
    · rw [hold]
      exact iff_of_false nofun nofun

theorem node?_kept (h : collapse.Realizes graph built)
    (hrecords : collapse.OfRecords)
    {node : Node} (hnode : collapse.graph.node? member = some node)
    (hunion : node.kind ≠ .union) (hgroup : collapse.group? member = none)
    (hkept : collapse.graph.isLowered collapse.policy member = false) :
    graph.node? (collapse.passage.redirect member) =
      some ⟨node.shape.mapRefs collapse.passage.redirect, node.hints⟩ := by
  have hsurvivor : collapse.survivor? member = none := by
    apply survivor?_eq_none_of_kind
    rw [Graph.kind?, Graph.shape?, hnode]
    exact fun heq => hunion (Option.some.inj heq)
  rw [h.node?_redirect hrecords.toReady hnode hgroup hsurvivor,
    carry_of_kept hnode hkept (narrowed_of_not_union hunion)]

end Collapse.Realizes

namespace Graph

theorem Flat.ofRecords_lowering {graph : Graph} (h : graph.Flat)
    (policy : FormatPolicy) : (graph.lowering policy).OfRecords where
  toReady :=
    (ungrouped_lowering (check_eq_ok_iff.mpr h.toWellFormed) policy).toReady
  flat := h
  records := List.forall_mem_nil _

theorem Flat.leavesOneText {graph : Graph} (hflat : graph.Flat)
    {policy : FormatPolicy} {collapsed : Collapsed α} {built : Builder}
    {ref member : Ref} {alternatives : List Ref}
    (hpassage : collapsed.passage = (graph.lowering policy).passage)
    (h : (graph.lowering policy).Realizes collapsed.graph built)
    (hshape : graph.shape? ref = some (.union alternatives))
    (hmember : member ∈ alternatives)
    (hlowered : graph.isLowered policy member = true) :
    graph.LeavesOneText policy collapsed ref alternatives := by
  have hrecords := hflat.ofRecords_lowering policy
  have hparts := h.filter_parts hrecords hshape
  obtain ⟨text, honly⟩ := exists_filter_narrow (hflat.kinds hshape) hmember
    (loweredKind?_eq_text_iff.mpr (Or.inr hlowered))
  obtain ⟨hin, hkind⟩ :=
    List.mem_filter.mp (honly ▸ List.mem_singleton_self text)
  obtain ⟨literals, hnew, hliterals⟩ :=
    h.shape?_text hrecords (of_decide_eq_true hkind)
  refine ⟨?_, ?_, fun {other node} hother hplain hnode => ?_⟩
  · rw [hpassage]
    refine ⟨_, literals, ?_, hnew,
      fun tally => (hliterals tally).trans ⟨fun hold => ?_, ?_⟩⟩
    · exact (hparts (· = some .text)).trans (congrArg (List.map _) honly)
    · exact ⟨text, (narrow_sublist alternatives).subset hin, hold⟩
    · intro htallied
      obtain ⟨other, hother, hold⟩ := htallied
      exact eq_of_filter_narrow honly hother (kind?_of_shape? hold) ▸ hold
  · rw [hpassage]
    exact (hparts (· ≠ some .text)).trans
      (congrArg (List.map _) (filter_dropLowered _ alternatives))
  · rw [hpassage]
    have hunion : graph.kind? other ≠ some .union :=
      hflat.flat hshape other hother
    have hstays : graph.isLowered policy other = false :=
      Bool.eq_false_iff.mpr fun hyes =>
        hplain (loweredKind?_eq_text_iff.mpr (Or.inr hyes))
    refine h.node?_kept hrecords hnode (fun heq => hunion ?_) rfl hstays
    rw [kind?, shape?, hnode]
    exact congrArg some heq

theorem lowered_unions {graph : Graph} (hbuilt : graph.Built)
    (policy : FormatPolicy) (embed : GraphFault → ε)
    (build : Passage → Site → Builder → Except ε ((Ref × α) × Builder)) :
    ∃ collapsed, (graph.lowering policy).run embed build = .ok collapsed ∧
      ∀ {ref alternatives}, graph.shape? ref = some (.union alternatives) →
        (∃ member ∈ alternatives, graph.isLowered policy member = true) →
        graph.LeavesOneText policy collapsed ref alternatives := by
  obtain ⟨collapsed, built, hrun, hpassage, hrealizes, _⟩ :=
    (hbuilt.flat.ofRecords_lowering policy).exists_run embed (fun _ _ _ => True)
      (fun _ _ => trivial) (List.forall_mem_nil _)
  refine ⟨collapsed, hrun, fun {ref alternatives} hshape hexists => ?_⟩
  obtain ⟨member, hmember, hlowered⟩ := hexists
  exact hbuilt.flat.leavesOneText hpassage hrealizes hshape hmember hlowered

/-- A union of a tallied text and a date, and one of a null, a plain text and a
date. -/
def tallied : Graph where
  nodes := #[
    ⟨.text (some (.ofList [("tomorrow", 1)])), .blank⟩,
    ⟨.formatted .date, .blank⟩,
    ⟨.union [⟨0⟩, ⟨1⟩], .blank⟩,
    ⟨.null, .blank⟩,
    ⟨.plainText, .blank⟩,
    ⟨.union [⟨3⟩, ⟨4⟩, ⟨1⟩], .blank⟩]
  roots := .ofList [("when", ⟨2⟩)]

theorem tallied_built : tallied.Built := by
  have h : ((Builder.start .lenient).replay [
      .text .blank (some (.ofList [("tomorrow", 1)])),
      .formatted .blank .date,
      .union .blank [⟨0⟩, ⟨1⟩],
      .primitive .null,
      .text .blank none,
      .union .blank [⟨3⟩, ⟨4⟩, ⟨1⟩],
      .root "when" ⟨2⟩]).toGraph = .ok tallied := by
    decide +kernel
  exact .finished h

theorem tallied_leaves_one_text :
    ∃ collapsed, (tallied.lowering .allPlain).run id
          (fun _ site builder => .ok ((site.slot, ()), builder)) =
        .ok collapsed ∧
      tallied.LeavesOneText .allPlain collapsed ⟨5⟩ [⟨3⟩, ⟨4⟩, ⟨1⟩] := by
  obtain ⟨collapsed, hrun, hunions⟩ := lowered_unions tallied_built .allPlain id
    (fun _ site builder => .ok ((site.slot, ()), builder))
  exact ⟨collapsed, hrun, hunions rfl ⟨⟨1⟩, by decide, rfl⟩⟩

/-- The date can be any text once it is lowered, yet one literal is left of the
first union. -/
theorem tallied_stays_closed :
    tallied.Built ∧ tallied.shape? ⟨2⟩ = some (.union [⟨0⟩, ⟨1⟩]) ∧
      tallied.isLowered (FormatPolicy.lenient.withRule .date .lower) ⟨1⟩ =
        true ∧
      ((tallied.lowering (FormatPolicy.lenient.withRule .date .lower)).run id
          fun _ site builder => .ok ((site.slot, ()), builder)).map
          (fun collapsed =>
            collapsed.graph.shape? (collapsed.passage.redirect ⟨2⟩)) =
        .ok (some (.text (some (.ofList [("tomorrow", 1)])))) :=
  ⟨tallied_built, rfl, rfl, by decide +kernel⟩

end Graph

end ShapeMerge
