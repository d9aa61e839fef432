import ShapeMerge.Proofs.Collapse.Equivalence
import ShapeMerge.Proofs.Collapse.Faithful

namespace ShapeMerge

/-!
Narrowing as a computation that looks up every member and can fail.  It decides
in two passes which members of a union stay: one over the members that the
policy leaves alone, and one over those that become plain text.  On a graph that
passes its check it never fails, it finds the unions in which texts collide, and
what it keeps of them is what a collapse goes on with.
-/

structure Mark where
  member : Ref
  lowered : Bool
  stays : Bool

namespace Graph

def markKind (graph : Graph) (mark : Mark) : Except GraphFault Kind :=
  if mark.lowered then .ok .text
  else
    match graph.kind? mark.member with
    | some kind => .ok kind
    | none => .error (.missing mark.member)

def mark (graph : Graph) (policy : FormatPolicy) (member : Ref) :
    Except GraphFault Mark :=
  match graph.shape? member with
  | none => .error (.missing member)
  | some (.formatted format) => .ok ⟨member, policy.lowers format, false⟩
  | some _ => .ok ⟨member, false, false⟩

/-- Decides about the members that are lowered, or about the others.  A member
stays if its kind has not been met. -/
def decideMarks (graph : Graph) (lowered : Bool) :
    (met : List Kind) → List Mark → Except GraphFault (List Mark × List Kind)
  | met, [] => .ok ([], met)
  | met, mark :: rest =>
      if mark.lowered = lowered then do
        let kind ← graph.markKind mark
        let (others, last) ← decideMarks graph lowered (kind :: met) rest
        return ({ mark with stays := kind ∉ met } :: others, last)
      else do
        let (others, last) ← decideMarks graph lowered met rest
        return (mark :: others, last)

def narrowInPasses (graph : Graph) (policy : FormatPolicy)
    (alternatives : List Ref) : Except GraphFault (Option (List Ref)) := do
  let marks ← alternatives.mapM (graph.mark policy)
  if marks.any (·.lowered) then
    let (marks, met) ← graph.decideMarks false [] marks
    let (marks, _) ← graph.decideMarks true met marks
    if marks.all (·.stays) then return none
    else return some ((marks.filter (·.stays)).map (·.member))
  else return none

variable {graph : Graph} {policy : FormatPolicy}
  {alternatives members : List Ref} {member : Ref}

section Passes

def undecided (graph : Graph) (policy : FormatPolicy) (member : Ref) : Mark :=
  ⟨member, graph.isLowered policy member, false⟩

def halfDecided (graph : Graph) (policy : FormatPolicy) (member : Ref) : Mark :=
  ⟨member, graph.isLowered policy member, !graph.isLowered policy member⟩

def plainKinds (graph : Graph) (policy : FormatPolicy) (members : List Ref) :
    List Kind :=
  ((members.filter fun member => !graph.isLowered policy member).filterMap
    graph.kind?).reverse

theorem mark_eq_ok (h : graph.has member = true) :
    graph.mark policy member = .ok (graph.undecided policy member) := by
  obtain ⟨shape, hshape⟩ := has_iff_shape?.mp h
  rw [mark, undecided, isLowered, hshape]
  cases shape <;> rfl

theorem decideMarks_cons_of_ne {lowered : Bool} {met last : List Kind}
    {mark : Mark} {rest others : List Mark} (h : mark.lowered ≠ lowered)
    (hrest : graph.decideMarks lowered met rest = .ok (others, last)) :
    graph.decideMarks lowered met (mark :: rest) =
      .ok (mark :: others, last) := by
  rw [decideMarks, if_neg h, hrest]
  rfl

theorem decideMarks_cons_of_eq {lowered : Bool}
    {met last : List Kind} {mark : Mark} {rest others : List Mark} {kind : Kind}
    (h : mark.lowered = lowered) (hkind : graph.markKind mark = .ok kind)
    (hrest : graph.decideMarks lowered (kind :: met) rest =
      .ok (others, last)) :
    graph.decideMarks lowered met (mark :: rest) =
      .ok ({ mark with stays := kind ∉ met } :: others, last) := by
  rw [decideMarks, if_pos h, hkind]
  simp only [bind, Except.bind, hrest]
  rfl

theorem decideMarks_false (met : List Kind)
    (hhas : ∀ member ∈ members, graph.has member = true)
    (hkinds : (members.map graph.kind?).Nodup)
    (hnew : ∀ member ∈ members, ∀ kind ∈ met, graph.kind? member ≠ some kind) :
    graph.decideMarks false met (members.map (graph.undecided policy)) =
      .ok (members.map (graph.halfDecided policy),
        graph.plainKinds policy members ++ met) := by
  induction members generalizing met with
  | nil => rfl
  | cons member rest ih =>
      obtain ⟨hmember, hrest⟩ := List.forall_mem_cons.mp hhas
      obtain ⟨hfresh, hothers⟩ := List.forall_mem_cons.mp hnew
      rw [List.map_cons, List.nodup_cons] at hkinds
      obtain ⟨kind, hkind⟩ := has_iff_kind?.mp hmember
      rw [List.map_cons, List.map_cons, undecided, halfDecided, plainKinds]
      cases hlowered : graph.isLowered policy member with
      | true =>
          rw [List.filter_cons_of_neg (by simp [hlowered])]
          exact decideMarks_cons_of_ne Bool.noConfusion
            (ih met hrest hkinds.2 hothers)
      | false =>
          have hfound : graph.markKind ⟨member, false, false⟩ = .ok kind := by
            rw [markKind, if_neg Bool.false_ne_true, hkind]
          have hmet : kind ∉ met := fun hmem => hfresh kind hmem hkind
          have hahead : ∀ other ∈ rest,
            ∀ seen ∈ kind :: met, graph.kind? other ≠ some seen := by
            intro other hother seen hseen heq
            rcases List.mem_cons.mp hseen with rfl | hseen
            · exact hkinds.1
                (List.mem_map.mpr ⟨other, hother, heq.trans hkind.symm⟩)
            · exact hothers other hother seen hseen heq
          rw [List.filter_cons_of_pos (by simp [hlowered]),
            List.filterMap_cons_some hkind, List.reverse_cons,
            List.append_assoc, ← plainKinds, decideMarks_cons_of_eq rfl hfound
            (ih (kind :: met) hrest hkinds.2 hahead)]
          simp [hmet]

theorem exists_decideMarks_true (graph : Graph) (policy : FormatPolicy)
    (met : List Kind) (members : List Ref) :
    ∃ marks last,
      graph.decideMarks true met (members.map (graph.halfDecided policy)) =
        .ok (marks, last) ∧ marks.map (·.member) = members ∧
      (marks.filter (·.stays)).map (·.member) =
        graph.dropLowered policy (decide (.text ∈ met)) members := by
  induction members generalizing met with
  | nil => exact ⟨[], met, rfl, rfl, rfl⟩
  | cons member rest ih =>
      rw [List.map_cons, halfDecided]
      cases hlowered : graph.isLowered policy member with
      | true =>
          obtain ⟨marks, last, hrest, hmembers, hstay⟩ := ih (.text :: met)
          rw [decide_eq_true List.mem_cons_self] at hstay
          refine ⟨⟨member, true, .text ∉ met⟩ :: marks, last,
            decideMarks_cons_of_eq rfl rfl hrest, ?_, ?_⟩
          · rw [List.map_cons, hmembers]
          · by_cases htext : Kind.text ∈ met
            · simp [dropLowered, hlowered, htext, hstay]
            · simp [dropLowered, hlowered, htext, hstay]
      | false =>
          obtain ⟨marks, last, hrest, hmembers, hstay⟩ := ih met
          refine ⟨⟨member, false, true⟩ :: marks, last,
            decideMarks_cons_of_ne Bool.noConfusion hrest, ?_, ?_⟩
          · rw [List.map_cons, hmembers]
          · simp [dropLowered, hlowered, hstay]

theorem text_mem_plainKinds_iff :
    Kind.text ∈ graph.plainKinds policy alternatives ↔
      alternatives.any (graph.kind? · = some .text) = true := by
  simp only [plainKinds, List.mem_reverse, List.mem_filterMap, List.mem_filter,
    List.any_eq_true, decide_eq_true_iff, and_assoc]
  refine exists_congr fun member =>
    and_congr_right fun _ => and_iff_right_of_imp fun hkind => ?_
  rw [isLowered_eq_false fun format heq => by cases hkind.symm.trans heq]
  rfl

theorem all_stay_iff (marks : List Mark) :
    marks.all (·.stays) = true ↔
      (marks.filter (·.stays)).map (·.member) = marks.map (·.member) := by
  constructor
  · intro h
    rw [List.filter_eq_self.mpr (List.all_eq_true.mp h)]
  · intro h
    have hlength := congrArg List.length h
    rw [List.length_map, List.length_map, List.length_filter_eq_length_iff]
      at hlength
    exact List.all_eq_true.mpr hlength

theorem narrowInPasses_eq_ok
    (hhas : ∀ member ∈ alternatives, graph.has member = true)
    (hkinds : (alternatives.map graph.kind?).Nodup) :
    graph.narrowInPasses policy alternatives =
      .ok (if graph.narrow policy alternatives = alternatives then none
        else some (graph.narrow policy alternatives)) := by
  rw [narrowInPasses, mapM_eq_ok_map fun member hmember =>
    mark_eq_ok (hhas member hmember)]
  cases hany : alternatives.any (graph.isLowered policy) with
  | false =>
      have hself : graph.narrow policy alternatives = alternatives :=
        narrow_eq_self fun member hmember =>
          Bool.eq_false_iff.mpr (List.any_eq_false.mp hany member hmember)
      simp [undecided, hself, hany, bind, Except.bind, pure, Except.pure,
        Function.comp_def]
  | true =>
      have hfirst : graph.decideMarks false []
            (alternatives.map (graph.undecided policy)) = _ :=
        decideMarks_false [] hhas hkinds fun _ _ _ h => nomatch h
      obtain ⟨marks, last, hsecond, hmembers, hstay⟩ :=
        graph.exists_decideMarks_true policy
          (graph.plainKinds policy alternatives) alternatives
      have hnarrow : (marks.filter (·.stays)).map (·.member) =
          graph.narrow policy alternatives := by
        rw [hstay, narrow]
        refine congrArg (graph.dropLowered policy · alternatives) ?_
        rw [Bool.eq_iff_iff, decide_eq_true_iff, text_mem_plainKinds_iff]
      have hall := all_stay_iff marks
      rw [hnarrow, hmembers] at hall
      have hlowered : (alternatives.map (graph.undecided policy)).any
            (·.lowered) = true := by
        rw [List.any_map]
        exact hany
      rw [List.append_nil] at hfirst
      simp only [bind, Except.bind, hlowered, hfirst, hsecond, if_true,
        hall, hnarrow]
      split <;> rfl

end Passes

/-- A lowered member has to share its new kind with another member. -/
def TextsCollide (graph : Graph) (policy : FormatPolicy)
    (alternatives : List Ref) : Prop :=
  ∃ member ∈ alternatives, graph.isLowered policy member = true ∧
    ∃ other ∈ alternatives, other ≠ member ∧
      (graph.kind? other = some .text ∨ graph.isLowered policy other = true)

structure NarrowsTo (graph : Graph) (policy : FormatPolicy)
    (alternatives kept : List Ref) : Prop where
  ordered : kept.Sublist alternatives
  plain : ∀ member ∈ alternatives, graph.isLowered policy member = false →
    member ∈ kept
  lowered : ∃ first, alternatives.find? (graph.isLowered policy) = some first ∧
    (first ∈ kept ↔ ∀ other ∈ alternatives,
      graph.isLowered policy other = false → graph.kind? other ≠ some .text) ∧
    ∀ member ∈ kept, graph.isLowered policy member = true → member = first
  nonempty : kept ≠ []
  kinds : (kept.map (graph.loweredKind? policy)).Nodup

section Contract

theorem textsCollide_iff (h : (alternatives.map graph.kind?).Nodup) :
    graph.TextsCollide policy alternatives ↔
      graph.narrow policy alternatives ≠ alternatives := by
  rw [ne_eq, narrow_eq_self_iff h]
  constructor
  · rintro ⟨member, hmember, hlowered, other, hother, hne, htext⟩ hkinds
    apply hne
    apply List.inj_on_of_nodup_map hkinds hother hmember
    rw [loweredKind?_eq_text_iff.mpr htext,
      loweredKind?_eq_text_iff.mpr (Or.inr hlowered)]
  · intro hrepeated
    by_contra hapart
    refine hrepeated ((h.of_map graph.kind?).map_on fun x hx y hy heq => ?_)
    by_contra hne
    rcases kind?_eq_or_text heq with hkind | htext
    · exact hne (List.inj_on_of_nodup_map h hx hy hkind)
    · have hother := loweredKind?_eq_text_iff.mp (heq.symm.trans htext)
      rcases loweredKind?_eq_text_iff.mp htext with hplain | hlowered
      · rcases hother with hplain' | hlowered
        · exact hne
            (List.inj_on_of_nodup_map h hx hy (hplain.trans hplain'.symm))
        · exact hapart ⟨y, hy, hlowered, x, hx, hne, Or.inl hplain⟩
      · exact hapart ⟨x, hx, hlowered, y, hy, Ne.symm hne, hother⟩

theorem mem_narrow_iff_of_lowered
    (hlowered : graph.isLowered policy member = true) :
    member ∈ graph.narrow policy alternatives ↔
      (∀ other ∈ alternatives, graph.kind? other ≠ some .text) ∧
        alternatives.find? (graph.isLowered policy) = some member := by
  have hrest : member ∉ alternatives.filter fun member =>
    !graph.isLowered policy member := by
    simp [hlowered]
  rw [(narrow_perm alternatives).mem_iff, List.mem_append, or_iff_left hrest,
    keptLowered]
  cases htext : alternatives.any (graph.kind? · = some .text) with
  | true =>
      obtain ⟨text, hmem, hkind⟩ := List.any_eq_true.mp htext
      exact iff_of_false List.not_mem_nil fun h =>
        h.1 text hmem (of_decide_eq_true hkind)
  | false =>
      have hnone : ∀ other ∈ alternatives, graph.kind? other ≠ some .text := by
        intro other hother hkind
        exact List.any_eq_false.mp htext other hother (decide_eq_true hkind)
      rw [if_neg Bool.false_ne_true, and_iff_right hnone, ← List.head?_filter,
        List.take_one]
      exact Option.mem_toList

theorem narrowsTo_narrow (h : (alternatives.map graph.kind?).Nodup)
    (hcollide : graph.TextsCollide policy alternatives) :
    graph.NarrowsTo policy alternatives (graph.narrow policy alternatives) := by
  obtain ⟨member, hmember, hlowered, -⟩ := hcollide
  obtain ⟨first, hfirst⟩ := Option.isSome_iff_exists.mp
    (List.find?_isSome.mpr ⟨member, hmember, hlowered⟩)
  refine
    { ordered := narrow_sublist alternatives
      plain := fun member => mem_narrow
      lowered := ⟨first, hfirst, ?_, ?_⟩
      nonempty := ?_
      kinds := narrow_kinds policy h }
  · rw [mem_narrow_iff_of_lowered (List.find?_some hfirst), and_iff_left hfirst]
    refine forall₂_congr fun other _ =>
      ⟨fun hkind _ => hkind, fun hplain hkind => ?_⟩
    exact hplain (isLowered_eq_false fun format heq => by
      cases hkind.symm.trans heq) hkind
  · intro other hother hlow
    exact Option.some.inj
      (((mem_narrow_iff_of_lowered hlow).mp hother).2.symm.trans hfirst)
  · obtain ⟨text, htext, _⟩ :=
      exists_text_of_narrow hmember
        (loweredKind?_eq_text_iff.mpr (Or.inr hlowered))
    exact List.ne_nil_of_mem htext

end Contract

end Graph

namespace Collapse

open ShapeMerge.Graph

def narrowing? (collapse : Collapse) (entry : Ref × Node) :
    Except GraphFault (Option (Ref × List Ref)) :=
  match collapse.group? entry.1, entry.2.shape with
  | none, .union alternatives =>
      (collapse.graph.narrowInPasses collapse.policy alternatives).map
        (·.map (entry.1, ·))
  | _, _ => .ok none

/-- The unions in no group that do not keep all their members, with those that
they keep. -/
def narrowings (collapse : Collapse) :
    Except GraphFault (List (Ref × List Ref)) := do
  let found ← collapse.graph.entries.mapM collapse.narrowing?
  return found.filterMap id

/-- What the narrowings of a collapse are, and that the collapse goes by
them. -/
structure Narrows (collapse : Collapse)
    (narrowings : List (Ref × List Ref)) : Prop where
  ordered : narrowings.Pairwise (·.1 < ·.1)
  keys : ∀ union, union ∈ narrowings.map Prod.fst ↔
    collapse.group? union = none ∧ ∃ alternatives,
      collapse.graph.shape? union = some (.union alternatives) ∧
        collapse.graph.TextsCollide collapse.policy alternatives
  keeps : ∀ {union alternatives kept}, (union, kept) ∈ narrowings →
    collapse.graph.shape? union = some (.union alternatives) →
      collapse.graph.NarrowsTo collapse.policy alternatives kept
  carried : ∀ (passage : Passage) {union hints alternatives},
    collapse.graph.node? union = some ⟨.union alternatives, hints⟩ →
    collapse.group? union = none →
    collapse.carry passage ⟨.union alternatives, hints⟩ =
      ⟨.union (((narrowings.lookup union).getD alternatives).map
        passage.redirect), hints⟩
  bypassed : ∀ {union only}, collapse.survivor? union = some only ↔
    (union, [only]) ∈ narrowings ∧ collapse.graph.kind? only ≠ some .union

variable {collapse : Collapse} {union : Ref} {kept : List Ref}

def kept? (collapse : Collapse) (entry : Ref × Node) :
    Option (Ref × List Ref) :=
  match collapse.group? entry.1, entry.2.shape with
  | none, .union alternatives =>
      if collapse.graph.narrow collapse.policy alternatives = alternatives then
        none
      else some (entry.1, collapse.graph.narrow collapse.policy alternatives)
  | _, _ => none

section Found

theorem kept?_eq_some_iff {entry : Ref × Node} :
    collapse.kept? entry = some (union, kept) ↔
      entry.1 = union ∧ collapse.group? union = none ∧
        ∃ alternatives, entry.2.shape = .union alternatives ∧
          collapse.graph.narrow collapse.policy alternatives = kept ∧
          kept ≠ alternatives := by
  rw [kept?]
  split
  · rename_i alternatives hgroup hshape
    rw [hshape]
    constructor
    · intro h
      split at h
      · cases h
      · rename_i hnarrow
        cases h
        exact ⟨rfl, hgroup, alternatives, rfl, rfl, hnarrow⟩
    · rintro ⟨rfl, _, _, ⟨⟩, rfl, hnarrow⟩
      rw [if_neg hnarrow]
  · rename_i hother
    refine iff_of_false (fun h => by cases h) ?_
    rintro ⟨rfl, hgroup, alternatives, hshape, _⟩
    exact hother alternatives hgroup hshape

theorem narrowing?_eq_ok (h : collapse.graph.WellFormed) {entry : Ref × Node}
    (hentry : entry ∈ collapse.graph.entries) :
    collapse.narrowing? entry = .ok (collapse.kept? entry) := by
  rw [narrowing?, kept?]
  split
  · rename_i alternatives _ hcase
    have hshape : collapse.graph.shape? entry.1 = some (.union alternatives) :=
      (mem_entries_shape? hentry).trans (congrArg some hcase)
    have hmembers : ∀ member ∈ alternatives, collapse.graph.has member = true :=
      h.children hshape
    rw [narrowInPasses_eq_ok hmembers (h.kinds hshape)]
    split <;> rfl
  · rfl

theorem narrowings_eq_ok (h : collapse.graph.WellFormed) :
    collapse.narrowings =
      .ok (collapse.graph.entries.filterMap collapse.kept?) := by
  rw [narrowings, mapM_eq_ok_map fun entry hentry => narrowing?_eq_ok h hentry]
  refine congrArg Except.ok ?_
  rw [List.filterMap_map, Function.id_comp]

theorem mem_found_iff :
    (union, kept) ∈ collapse.graph.entries.filterMap collapse.kept? ↔
      collapse.group? union = none ∧
        ∃ alternatives,
          collapse.graph.shape? union = some (.union alternatives) ∧
          collapse.graph.narrow collapse.policy alternatives = kept ∧
          kept ≠ alternatives := by
  simp only [List.mem_filterMap, kept?_eq_some_iff]
  constructor
  · rintro ⟨entry, hentry, rfl, hgroup, alternatives, hshape, hnarrow⟩
    exact ⟨hgroup, alternatives,
      (mem_entries_shape? hentry).trans (congrArg some hshape), hnarrow⟩
  · rintro ⟨hgroup, alternatives, hshape, hnarrow⟩
    obtain ⟨node, hnode, hunion⟩ := Option.map_eq_some_iff.mp hshape
    exact ⟨(union, node), mem_entries.mpr hnode, rfl, hgroup, alternatives,
      hunion, hnarrow⟩

theorem found_ordered :
    (collapse.graph.entries.filterMap collapse.kept?).Pairwise (·.1 < ·.1) := by
  rw [List.pairwise_filterMap]
  refine collapse.graph.entries_ordered.imp
    fun {x y} hlt found hfound other hother => ?_
  rw [← (kept?_eq_some_iff.mp hfound).1, ← (kept?_eq_some_iff.mp hother).1]
  exact hlt

theorem getD_lookup_found {alternatives : List Ref}
    (hgroup : collapse.group? union = none)
    (hshape : collapse.graph.shape? union = some (.union alternatives)) :
    ((collapse.graph.entries.filterMap collapse.kept?).lookup union).getD
        alternatives = collapse.graph.narrow collapse.policy alternatives := by
  cases hlookup :
    (collapse.graph.entries.filterMap collapse.kept?).lookup union with
  | none =>
      rw [List.lookup_eq_none_iff] at hlookup
      by_contra hnarrow
      have hfound :=
        mem_found_iff.mpr ⟨hgroup, alternatives, hshape, rfl, Ne.symm hnarrow⟩
      simpa using hlookup _ hfound
  | some kept =>
      obtain ⟨before, behind, hsplit, _⟩ := List.lookup_eq_some_iff.mp hlookup
      have hfound :
          (union, kept) ∈ collapse.graph.entries.filterMap collapse.kept? := by
        simp [hsplit]
      obtain ⟨_, _, hsame, hnarrow, _⟩ := mem_found_iff.mp hfound
      cases hshape.symm.trans hsame
      exact hnarrow.symm

theorem survivor?_iff_found {only : Ref} :
    collapse.survivor? union = some only ↔
      (union, [only]) ∈ collapse.graph.entries.filterMap collapse.kept? ∧
        collapse.graph.kind? only ≠ some .union := by
  rw [survivor?_eq_some_iff, mem_found_iff, and_assoc, ← exists_and_right]
  simp only [Graph.survivor?_eq_some_iff, and_assoc]
  refine and_congr_right fun _ => exists_congr fun alternatives =>
    and_congr_right fun _ =>
      and_congr_right fun hnarrow => and_congr_left fun _ => not_congr ?_
  have hsub := hnarrow ▸ narrow_sublist alternatives
  exact ⟨fun hlength => hsub.eq_of_length hlength.symm, fun heq => heq ▸ rfl⟩

theorem narrows_found (h : collapse.graph.WellFormed) :
    collapse.Narrows (collapse.graph.entries.filterMap collapse.kept?) where
  ordered := found_ordered
  keys union := by
    simp only [List.mem_map, Prod.exists, exists_and_right, exists_eq_right,
      mem_found_iff]
    constructor
    · rintro ⟨kept, hgroup, alternatives, hshape, rfl, hnarrow⟩
      exact ⟨hgroup, alternatives, hshape,
        (textsCollide_iff (h.kinds hshape)).mpr hnarrow⟩
    · rintro ⟨hgroup, alternatives, hshape, hcollide⟩
      exact ⟨_, hgroup, alternatives, hshape, rfl,
        (textsCollide_iff (h.kinds hshape)).mp hcollide⟩
  keeps {union alternatives kept} hfound hshape := by
    obtain ⟨_, _, hsame, rfl, hnarrow⟩ := mem_found_iff.mp hfound
    cases hshape.symm.trans hsame
    have hkinds := h.kinds hshape
    exact narrowsTo_narrow hkinds ((textsCollide_iff hkinds).mpr hnarrow)
  carried passage {union hints alternatives} hnode hgroup := by
    have hshape : collapse.graph.shape? union = some (.union alternatives) :=
      shape?_of_node? hnode
    rw [getD_lookup_found hgroup hshape]
    rfl
  bypassed := survivor?_iff_found

end Found

theorem exists_narrows (h : collapse.graph.check = .ok ()) :
    ∃ narrowings, collapse.narrowings = .ok narrowings ∧
      collapse.Narrows narrowings :=
  have hwf := Graph.check_eq_ok_iff.mp h
  ⟨_, narrowings_eq_ok hwf, narrows_found hwf⟩

/-- The plain text wins over the date that is lowered. -/
theorem dated_narrows :
    dated.narrowings = .ok [(⟨3⟩, [⟨2⟩, ⟨1⟩])] ∧
    dated.Narrows [(⟨3⟩, [⟨2⟩, ⟨1⟩])] ∧
    dated.graph.TextsCollide dated.policy [⟨2⟩, ⟨0⟩, ⟨1⟩] := by
  have hcheck : dated.graph.check = .ok () := by decide +kernel
  have hfound : dated.narrowings = .ok [(⟨3⟩, [⟨2⟩, ⟨1⟩])] := by rfl
  obtain ⟨narrowings, hok, hnarrows⟩ := exists_narrows hcheck
  obtain rfl := Except.ok.inj (hfound.symm.trans hok)
  refine ⟨hfound, hnarrows, ⟨0⟩, by decide, by decide +kernel, ⟨1⟩, by decide,
    by decide, Or.inl ?_⟩
  decide +kernel

end Collapse

end ShapeMerge
