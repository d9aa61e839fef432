import ShapeMerge.Proofs.Collapse.Run
import ShapeMerge.Proofs.Graph.Faults

namespace ShapeMerge

/-!
Lowering formats with nothing grouped.  A union that comes to have texts alone
gives way to one of them, also inside another union.  If a text is left in that
one too, the lowered graph fails its check, and there is no other way in which
it can fail.
-/

namespace Graph

variable {graph : Graph} {policy : FormatPolicy} {ref : Ref}

/-- A union of several members that are all going to be text. -/
def OnlyTexts (graph : Graph) (policy : FormatPolicy) (ref : Ref) : Prop :=
  ∃ alternatives, graph.shape? ref = some (.union alternatives) ∧
    2 ≤ alternatives.length ∧
    ∀ member ∈ alternatives, graph.loweredKind? policy member = some .text

/-- A union that has such a union among its members, and a text too. -/
def MixesTexts (graph : Graph) (policy : FormatPolicy) (ref : Ref) : Prop :=
  ∃ inner ∈ graph.members ref, ∃ member ∈ graph.members ref,
    graph.OnlyTexts policy inner ∧ graph.loweredKind? policy member = some .text

theorem OnlyTexts.kind? (h : graph.OnlyTexts policy ref) :
    graph.kind? ref = some .union := by
  obtain ⟨alternatives, hshape, _⟩ := h
  exact kind?_of_shape? hshape

theorem OnlyTexts.loweredKind?_ne (h : graph.OnlyTexts policy ref) :
    graph.loweredKind? policy ref ≠ some .text := by
  intro heq
  rw [loweredKind?, h.kind?] at heq
  cases heq

theorem Flat.not_mixesTexts (h : graph.Flat) :
    ¬ graph.MixesTexts policy ref := by
  intro hmixes
  obtain ⟨inner, hinner, _, _, htexts, _⟩ := hmixes
  obtain ⟨alternatives, hshape, hmem⟩ := shape?_of_mem_members hinner
  exact h.flat hshape inner hmem htexts.kind?

section Survivor

variable {alternatives : List Ref} {only : Ref}

theorem texts_of_survivor? (hnodup : alternatives.Nodup)
    (h : graph.survivor? policy alternatives = some only) :
    2 ≤ alternatives.length ∧
      ∀ member ∈ alternatives,
        graph.loweredKind? policy member = some .text := by
  obtain ⟨hnarrow, hlength, _⟩ := survivor?_eq_some_iff.mp h
  have hkept {member : Ref} :
      member ∈ graph.narrow policy alternatives ↔ member = only := by
    rw [hnarrow, List.mem_singleton]
  have hdropped {member : Ref} (hmember : member ∈ alternatives)
      (hne : member ≠ only) :
      graph.loweredKind? policy member = some .text := by
    refine loweredKind?_eq_text_iff.mpr (Or.inr ?_)
    by_contra hlowered
    exact hne (hkept.mp (mem_narrow hmember (Bool.eq_false_iff.mpr hlowered)))
  have hlong : 2 ≤ alternatives.length := by
    have hpos := List.length_pos_of_mem (mem_of_survivor? h)
    omega
  obtain ⟨other, hother, hne⟩ := exists_ne_of_nodup hnodup hlong only
  obtain ⟨kept, hin, htext⟩ :=
    exists_text_of_narrow hother (hdropped hother hne)
  refine ⟨hlong, fun member hmember => ?_⟩
  by_cases heq : member = only
  · rw [heq, ← hkept.mp hin]
    exact htext
  · exact hdropped hmember heq

theorem exists_survivor? (h : (alternatives.map graph.kind?).Nodup)
    (hlong : 2 ≤ alternatives.length)
    (htexts : ∀ member ∈ alternatives,
      graph.loweredKind? policy member = some .text) :
    ∃ only, graph.survivor? policy alternatives = some only := by
  obtain ⟨first, hfirst⟩ :=
    List.exists_mem_of_length_pos (Nat.zero_lt_of_lt hlong)
  obtain ⟨kept, honly⟩ := exists_filter_narrow h hfirst (htexts first hfirst)
  have hnarrow : graph.narrow policy alternatives = [kept] := by
    rw [← honly, eq_comm, List.filter_eq_self]
    intro member hmember
    exact decide_eq_true
      (htexts member ((narrow_sublist alternatives).subset hmember))
  refine ⟨kept, survivor?_eq_some_iff.mpr ⟨hnarrow, by omega, fun hkind => ?_⟩⟩
  have hmember := (narrow_sublist alternatives).subset
    (hnarrow ▸ List.mem_singleton_self kept)
  have htext := htexts kept hmember
  rw [loweredKind?, hkind] at htext
  cases htext

end Survivor

end Graph

namespace Collapse

structure Ungrouped (collapse : Collapse) : Prop extends Ready collapse where
  ungrouped : collapse.groups = []

/-- What becomes of a graph of which nothing is grouped, before its check. -/
structure Lowers (collapse : Collapse) (lowered : Graph) : Prop where
  shape? :
    ∀ ref, lowered.shape? ref = (collapse.draft collapse.passage).shape? ref
  kind? :
    ∀ ref, lowered.kind? ref = (collapse.draft collapse.passage).promised? ref
  roots : ∀ {name target}, lowered.root? name = some target ↔
    ∃ old, collapse.graph.root? name = some old ∧
      collapse.passage.redirect old = target

variable {collapse : Collapse} {ref : Ref} {lowered : Graph}

namespace Ungrouped

theorem group?_eq_none (h : collapse.Ungrouped) (ref : Ref) :
    collapse.group? ref = none := by
  rw [group?_eq_none_iff, h.ungrouped]
  exact List.forall_mem_nil _

theorem exists_survivor?_iff (h : collapse.Ungrouped) :
    (∃ only, collapse.survivor? ref = some only) ↔
      collapse.graph.OnlyTexts collapse.policy ref := by
  constructor
  · intro hsurvivor
    obtain ⟨only, honly⟩ := hsurvivor
    obtain ⟨_, alternatives, hshape, hkept⟩ := survivor?_eq_some_iff.mp honly
    exact ⟨alternatives, hshape, Graph.texts_of_survivor?
      ((h.wellFormed.kinds hshape).of_map collapse.graph.kind?) hkept⟩
  · intro htexts
    obtain ⟨alternatives, hshape, hlong, hall⟩ := htexts
    obtain ⟨only, hkept⟩ :=
      Graph.exists_survivor? (h.wellFormed.kinds hshape) hlong hall
    exact ⟨only, survivor?_eq_some_iff.mpr ⟨h.group?_eq_none ref, alternatives,
      hshape, hkept⟩⟩

theorem promised?_of_plain (h : collapse.Ungrouped)
    (href : collapse.graph.has ref = true)
    (hplain : ¬ collapse.graph.OnlyTexts collapse.policy ref) :
    (collapse.draft collapse.passage).promised?
        (collapse.passage.redirect ref) =
      collapse.graph.loweredKind? collapse.policy ref := by
  apply h.promised?_copied href (h.group?_eq_none ref)
  rw [Option.eq_none_iff_forall_ne_some]
  intro only honly
  exact hplain (h.exists_survivor?_iff.mp ⟨only, honly⟩)

theorem promised?_of_onlyTexts (h : collapse.Ungrouped)
    (htexts : collapse.graph.OnlyTexts collapse.policy ref) :
    (collapse.draft collapse.passage).promised?
        (collapse.passage.redirect ref) = some .text := by
  have href : collapse.graph.has ref = true :=
    Graph.has_iff_kind?.mpr ⟨_, htexts.kind?⟩
  obtain ⟨only, honly⟩ := h.exists_survivor?_iff.mpr htexts
  obtain ⟨alternatives, hshape, _, hall⟩ := htexts
  obtain ⟨_, others, hothers, hkept⟩ := survivor?_eq_some_iff.mp honly
  cases hshape.symm.trans hothers
  rw [h.redirect_of_survivor href honly,
    h.promised?_copied (h.survivor_has honly) (h.group?_eq_none only)
    (survivor?_of_survivor honly)]
  exact hall only (Graph.mem_of_survivor? hkept)

theorem texts_of_promised?_eq (h : collapse.Ungrouped) {x y : Ref}
    (hx : collapse.graph.has x = true) (hy : collapse.graph.has y = true)
    (hkinds : collapse.graph.kind? x ≠ collapse.graph.kind? y)
    (hlowered : collapse.graph.loweredKind? collapse.policy x ≠
      collapse.graph.loweredKind? collapse.policy y)
    (heq : (collapse.draft collapse.passage).promised?
        (collapse.passage.redirect x) =
      (collapse.draft collapse.passage).promised?
        (collapse.passage.redirect y)) :
    (collapse.draft collapse.passage).promised? (collapse.passage.redirect x) =
        some .text ∧
      (collapse.graph.OnlyTexts collapse.policy x ∧
          collapse.graph.loweredKind? collapse.policy y = some .text ∨
        collapse.graph.OnlyTexts collapse.policy y ∧
          collapse.graph.loweredKind? collapse.policy x = some .text) := by
  by_cases hxTexts : collapse.graph.OnlyTexts collapse.policy x
  · rw [h.promised?_of_onlyTexts hxTexts] at heq ⊢
    have hyPlain : ¬ collapse.graph.OnlyTexts collapse.policy y :=
      fun hyTexts => hkinds (hxTexts.kind?.trans hyTexts.kind?.symm)
    rw [h.promised?_of_plain hy hyPlain] at heq
    exact ⟨rfl, Or.inl ⟨hxTexts, heq.symm⟩⟩
  · rw [h.promised?_of_plain hx hxTexts] at heq ⊢
    by_cases hyTexts : collapse.graph.OnlyTexts collapse.policy y
    · rw [h.promised?_of_onlyTexts hyTexts] at heq
      exact ⟨heq, Or.inr ⟨hyTexts, heq⟩⟩
    · rw [h.promised?_of_plain hy hyTexts] at heq
      exact absurd heq hlowered

theorem promised?_members (h : collapse.Ungrouped) {alternatives : List Ref}
    (hshape : collapse.graph.shape? ref = some (.union alternatives)) :
    ((collapse.graph.narrow collapse.policy alternatives).map fun member =>
      (collapse.draft collapse.passage).promised?
        (collapse.passage.redirect member)).Pairwise
        fun kind other => kind = other →
          kind = some .text ∧
            collapse.graph.MixesTexts collapse.policy ref := by
  have hold := Graph.narrow_distinct collapse.policy (h.wellFormed.kinds hshape)
  have hnew := List.pairwise_map.mp
    (Graph.narrow_kinds collapse.policy (h.wellFormed.kinds hshape))
  refine List.pairwise_map.mpr
    ((hold.and hnew).imp_of_mem fun {x y} hx hy hne heq => ?_)
  have hxMember := (Graph.narrow_sublist alternatives).subset hx
  have hyMember := (Graph.narrow_sublist alternatives).subset hy
  obtain ⟨htext, hcase⟩ :=
    h.texts_of_promised?_eq (h.wellFormed.children hshape x hxMember)
      (h.wellFormed.children hshape y hyMember) hne.1 hne.2 heq
  have hmembers : collapse.graph.members ref = alternatives :=
    Graph.members_of_shape? hshape
  rw [← hmembers] at hxMember hyMember
  refine ⟨htext, ?_⟩
  rcases hcase with ⟨htexts, hother⟩ | ⟨htexts, hother⟩
  · exact ⟨x, hxMember, y, hyMember, htexts, hother⟩
  · exact ⟨y, hyMember, x, hxMember, htexts, hother⟩

theorem exists_twins (h : collapse.Ungrouped)
    (hmixes : collapse.graph.MixesTexts collapse.policy ref) :
    ∃ alternatives, collapse.graph.shape? ref = some (.union alternatives) ∧
      ∃ inner ∈ collapse.graph.narrow collapse.policy alternatives,
        ∃ text ∈ collapse.graph.narrow collapse.policy alternatives,
          inner ≠ text ∧
          (collapse.draft collapse.passage).promised?
              (collapse.passage.redirect inner) =
            (collapse.draft collapse.passage).promised?
              (collapse.passage.redirect text) := by
  obtain ⟨inner, hinner, member, hmember, htexts, htext⟩ := hmixes
  obtain ⟨alternatives, hshape, hin⟩ := Graph.shape?_of_mem_members hinner
  rw [Graph.members_of_shape? hshape] at hmember
  have hkeep : collapse.graph.isLowered collapse.policy inner = false := by
    apply Graph.isLowered_eq_false
    rw [htexts.kind?]
    exact fun format heq => nomatch heq
  obtain ⟨kept, hkept, hother⟩ := Graph.exists_text_of_narrow hmember htext
  have hplain : ¬ collapse.graph.OnlyTexts collapse.policy kept :=
    fun hkeptTexts => hkeptTexts.loweredKind?_ne hother
  have hhas := h.wellFormed.children hshape kept
    ((Graph.narrow_sublist alternatives).subset hkept)
  refine ⟨alternatives, hshape, inner, Graph.mem_narrow hin hkeep, kept,
    hkept, ?_, ?_⟩
  · rintro rfl
    exact hplain htexts
  · rw [h.promised?_of_onlyTexts htexts,
      h.promised?_of_plain hhas hplain, hother]

theorem exists_run (h : collapse.Ungrouped) (embed : GraphFault → ε)
    (build : Passage → Site → Builder → Except ε ((Ref × α) × Builder)) :
    ∃ lowered, collapse.Lowers lowered ∧
      collapse.run embed build = (lowered.check.mapError embed).map fun _ =>
        ⟨lowered, collapse.passage, []⟩ := by
  have hfull :
      ∀ target, ¬ (collapse.draft collapse.passage).Reserved target := by
    intro target hreserved
    obtain ⟨group, hgroup, _⟩ := h.draft_reserved_iff.mp hreserved
    rw [h.ungrouped] at hgroup
    cases hgroup
  obtain ⟨roots, hroots, hiff⟩ :=
    h.exists_nameRoots (Builder.Extends.refl _) rfl
  let named : Builder := { collapse.draft collapse.passage with roots }
  have hnamed : ∀ target, ¬ named.Reserved target := hfull
  refine ⟨named.filled,
    ⟨named.shape?_filled hnamed, named.kind?_filled hnamed, hiff⟩, ?_⟩
  have hcheck : collapse.check = .ok () := check_eq_ok_iff.mpr h.toReady
  have hsites : collapse.sites collapse.passage = [] := by
    rw [sites, h.ungrouped]
    rfl
  have hgraph := named.toGraph_of_full hnamed
  simp only [run, hcheck, hsites, construct, hroots, Except.mapError, bind,
    Except.bind]
  rw [hgraph]
  cases named.filled.check <;> rfl

theorem survivor?_of_mixesTexts (h : collapse.Ungrouped)
    (hmixes : collapse.graph.MixesTexts collapse.policy ref) :
    collapse.survivor? ref = none := by
  obtain ⟨alternatives, hshape, inner, hinner, text, htext, hne, _⟩ :=
    h.exists_twins hmixes
  rw [Option.eq_none_iff_forall_ne_some]
  intro only honly
  obtain ⟨_, others, hothers, hkept⟩ := survivor?_eq_some_iff.mp honly
  cases hshape.symm.trans hothers
  rw [(Graph.survivor?_eq_some_iff.mp hkept).1, List.mem_singleton]
    at hinner htext
  exact hne (hinner.trans htext.symm)

end Ungrouped

namespace Lowers

theorem has_redirect (h : collapse.Lowers lowered) (hready : collapse.Ready)
    (href : collapse.graph.has ref = true) :
    lowered.has (collapse.passage.redirect ref) = true := by
  rw [Graph.has_iff_kind?, h.kind?, ← Builder.has_iff_promised?]
  exact hready.draft_has href

theorem children (h : collapse.Lowers lowered) (hready : collapse.Ready)
    {shape : Shape} (hshape : lowered.shape? ref = some shape) {child : Ref}
    (hchild : child ∈ shape.children) : lowered.has child = true := by
  rw [h.shape?] at hshape
  rw [Graph.has_iff_kind?, h.kind?, ← Builder.has_iff_promised?]
  exact hready.draft_children hshape hchild

theorem map_kind? (h : collapse.Lowers lowered) (members : List Ref) :
    (members.map collapse.passage.redirect).map lowered.kind? =
      members.map fun member =>
        (collapse.draft collapse.passage).promised?
          (collapse.passage.redirect member) := by
  rw [List.map_map]
  exact List.map_congr_left fun member _ => h.kind? _

theorem mixesTexts_of_check (h : collapse.Lowers lowered)
    (hungrouped : collapse.Ungrouped) {fault : GraphFault}
    (hcheck : lowered.check = .error fault) :
    ∃ ref, collapse.graph.MixesTexts collapse.policy ref ∧ fault =
        .repeatedKind (collapse.passage.redirect ref) Kind.text.label := by
  have hroots {name : String} {target : Ref}
      (hroot : lowered.root? name = some target) :
      lowered.has target = true := by
    obtain ⟨old, hold, rfl⟩ := h.roots.mp hroot
    exact h.has_redirect hungrouped.toReady (hungrouped.wellFormed.roots hold)
  obtain ⟨target, shape, kind, hshape, htwice, rfl⟩ :=
    Graph.check_of_resolved (fun hshape _ hchild =>
      h.children hungrouped.toReady hshape hchild) hroots hcheck
  rw [h.shape?] at hshape
  obtain ⟨ref, old, hold, _, rfl, _, hmembers⟩ :=
    hungrouped.exists_shape_source hshape
  rw [hmembers, h.map_kind?] at htwice
  cases old with
  | union alternatives =>
      have hpair := (hungrouped.promised?_members hold).sublist htwice
      obtain ⟨htext, hmixes⟩ := (List.pairwise_pair.mp hpair) rfl
      cases htext
      exact ⟨ref, hmixes, rfl⟩
  | _ => cases htwice

theorem check_ne_ok (h : collapse.Lowers lowered)
    (hungrouped : collapse.Ungrouped)
    (hmixes : collapse.graph.MixesTexts collapse.policy ref) :
    lowered.check ≠ .ok () := by
  intro hcheck
  obtain ⟨alternatives, hshape, inner, hinner, text, htext, hne, heq⟩ :=
    hungrouped.exists_twins hmixes
  obtain ⟨node, hnode, hunion⟩ := Option.map_eq_some_iff.mp hshape
  have hdraft := hungrouped.draft_node? hnode (hungrouped.group?_eq_none ref)
    (hungrouped.survivor?_of_mixesTexts hmixes)
  have hlowered : lowered.shape? (collapse.passage.redirect ref) =
      some (.union ((collapse.graph.narrow collapse.policy alternatives).map
        collapse.passage.redirect)) := by
    rw [h.shape?, Builder.shape?, hdraft, Option.map_some, shape_carry, hunion]
    rfl
  have hkinds := (Graph.check_eq_ok_iff.mp hcheck).kinds hlowered
  rw [h.map_kind?] at hkinds
  exact hne (List.inj_on_of_nodup_map hkinds hinner htext heq)

end Lowers

end Collapse

namespace Graph

def lowering (graph : Graph) (policy : FormatPolicy) : Collapse :=
  ⟨graph, policy, []⟩

theorem ungrouped_lowering {graph : Graph} (h : graph.check = .ok ())
    (policy : FormatPolicy) : (graph.lowering policy).Ungrouped where
  wellFormed := check_eq_ok_iff.mp h
  nonempty := List.forall_mem_nil _
  disjoint := List.nodup_nil
  has := List.forall_mem_nil _
  ungrouped := rfl

section Outcome

variable {graph : Graph} (policy : FormatPolicy) (embed : GraphFault → ε)
  (build : Passage → Site → Builder → Except ε ((Ref × α) × Builder))

theorem exists_lowered (h : graph.check = .ok ())
    (hnone : ∀ ref, ¬ graph.MixesTexts policy ref) :
    ∃ collapsed, (graph.lowering policy).run embed build = .ok collapsed ∧
      collapsed.graph.check = .ok () := by
  have hungrouped := ungrouped_lowering h policy
  obtain ⟨lowered, hlowers, hrun⟩ := hungrouped.exists_run embed build
  cases hcheck : lowered.check with
  | ok _ =>
      rw [hcheck] at hrun
      exact ⟨_, hrun, hcheck⟩
  | error fault =>
      obtain ⟨ref, hmixes, _⟩ := hlowers.mixesTexts_of_check hungrouped hcheck
      exact absurd hmixes (hnone ref)

/-- In a flat graph no union holds another, so what a builder handed out can
always be lowered. -/
theorem Flat.exists_lowered (h : graph.Flat) :
    ∃ collapsed, (graph.lowering policy).run embed build = .ok collapsed ∧
      collapsed.graph.check = .ok () :=
  Graph.exists_lowered policy embed build (check_eq_ok_iff.mpr h.toWellFormed)
    fun _ => h.not_mixesTexts

end Outcome

theorem lowering_outcome {graph : Graph} (h : graph.check = .ok ())
    (policy : FormatPolicy) (embed : GraphFault → ε)
    (build : Passage → Site → Builder → Except ε ((Ref × α) × Builder)) :
    ((∀ ref, ¬ graph.MixesTexts policy ref) →
      ∃ collapsed, (graph.lowering policy).run embed build = .ok collapsed ∧
        collapsed.graph.check = .ok ()) ∧
      ((∃ ref, graph.MixesTexts policy ref) →
        ∃ ref, graph.MixesTexts policy ref ∧
          (graph.lowering policy).run embed build =
            .error (embed (.repeatedKind
              ((graph.lowering policy).passage.redirect ref)
              Kind.text.label))) := by
  refine ⟨exists_lowered policy embed build h, fun hmixes => ?_⟩
  obtain ⟨mixing, hmixing⟩ := hmixes
  have hungrouped := ungrouped_lowering h policy
  obtain ⟨lowered, hlowers, hrun⟩ := hungrouped.exists_run embed build
  cases hcheck : lowered.check with
  | ok _ => exact absurd hcheck (hlowers.check_ne_ok hungrouped hmixing)
  | error fault =>
      rw [hcheck] at hrun
      obtain ⟨ref, href, rfl⟩ := hlowers.mixesTexts_of_check hungrouped hcheck
      exact ⟨ref, href, hrun⟩

/-- A union of a date and text, inside a union with the same text. -/
def nestedTexts : Graph where
  nodes := #[
    ⟨.formatted .date, .blank⟩,
    ⟨.plainText, .blank⟩,
    ⟨.union [⟨0⟩, ⟨1⟩], .blank⟩,
    ⟨.union [⟨2⟩, ⟨1⟩], .blank⟩]
  roots := ∅

theorem nestedTexts_refused :
    ∃ ref, nestedTexts.MixesTexts .allPlain ref ∧
      (nestedTexts.lowering .allPlain).run id
          (fun _ site builder => .ok ((site.slot, ()), builder)) =
        .error (.repeatedKind
          ((nestedTexts.lowering .allPlain).passage.redirect ref)
          Kind.text.label) := by
  have hinner : nestedTexts.OnlyTexts .allPlain ⟨2⟩ :=
    ⟨[⟨0⟩, ⟨1⟩], rfl, Nat.le_refl 2, by decide⟩
  have hmixes : nestedTexts.MixesTexts .allPlain ⟨3⟩ :=
    ⟨⟨2⟩, by decide, ⟨1⟩, by decide, hinner, by decide⟩
  exact (lowering_outcome (by decide +kernel) .allPlain id _).2 ⟨⟨3⟩, hmixes⟩

theorem nestedTexts_not_lowered :
    nestedTexts.check = .ok () ∧
      ((nestedTexts.lowering (FormatPolicy.lenient.withRule .date .lower)).run
        id (fun _ site builder => .ok ((site.slot, ()), builder))).map
          (·.graph) =
        .error (.repeatedKind ⟨2⟩ "string") := by
  decide +kernel

end Graph

end ShapeMerge
