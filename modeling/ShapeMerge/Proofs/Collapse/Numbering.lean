import Mathlib.Data.List.Basic
import ShapeMerge.Collapse.Basic
import ShapeMerge.Proofs.Collapse.Narrowing
import ShapeMerge.Proofs.Lists
import ShapeMerge.Proofs.Success

namespace ShapeMerge.Collapse

/-- The graph is well-formed, and the groups are disjoint lists of its nodes. -/
structure Ready (collapse : Collapse) : Prop where
  wellFormed : collapse.graph.WellFormed
  nonempty : ∀ group ∈ collapse.groups, group ≠ []
  disjoint : collapse.groups.flatten.Nodup
  has : ∀ ref ∈ collapse.groups.flatten, collapse.graph.has ref = true

section Check

variable {graph : Graph} {taken group : List Ref} {groups : List (List Ref)}

theorem memberFault?_eq_none_iff :
    memberFault? graph taken group = none ↔
      group.Nodup ∧ ∀ ref ∈ group, graph.has ref = true ∧ ref ∉ taken := by
  induction group generalizing taken with
  | nil => simp [memberFault?]
  | cons ref rest ih =>
      rw [memberFault?, List.nodup_cons, List.forall_mem_cons]
      by_cases hhas : graph.has ref = true
      · by_cases htaken : ref ∈ taken
        · simp [hhas, htaken]
        · simp only [hhas, Bool.not_true, Bool.false_eq_true, if_false, htaken,
            ih, List.mem_cons, not_or, not_false_iff, true_and]
          constructor
          · intro h
            exact ⟨⟨fun hmem => (h.2 ref hmem).2.1 rfl, h.1⟩,
              fun other hother =>
                ⟨(h.2 other hother).1, (h.2 other hother).2.2⟩⟩
          · intro h
            refine ⟨h.1.2, fun other hother =>
              ⟨(h.2 other hother).1, fun heq => ?_, (h.2 other hother).2⟩⟩
            exact h.1.1 (heq ▸ hother)
      · simp [hhas]

theorem groupFault?_eq_none_iff {number : Nat} :
    groupFault? graph number taken groups = none ↔
      (∀ group ∈ groups, group ≠ []) ∧ groups.flatten.Nodup ∧
        ∀ ref ∈ groups.flatten, graph.has ref = true ∧ ref ∉ taken := by
  induction groups generalizing number taken with
  | nil => simp [groupFault?]
  | cons group rest ih =>
      rw [groupFault?, List.forall_mem_cons, List.flatten_cons,
        List.nodup_append]
      cases group with
      | nil => simp
      | cons first others =>
          simp only [List.isEmpty_cons, Bool.false_eq_true,
            if_false, Option.or_eq_none_iff, memberFault?_eq_none_iff, ih,
            List.mem_append, not_or, ne_eq, reduceCtorEq,
            not_false_iff, true_and]
          constructor
          · intro h
            obtain ⟨⟨hnodup, hgroup⟩, hnonempty, hdisjoint, hrest⟩ := h
            refine ⟨hnonempty, ⟨hnodup, hdisjoint, fun x hx y hy heq => ?_⟩,
              fun ref href => ?_⟩
            · exact (hrest y hy).2.1 (heq ▸ hx)
            · rcases href with href | href
              · exact hgroup ref href
              · exact ⟨(hrest ref href).1, (hrest ref href).2.2⟩
          · intro h
            obtain ⟨hnonempty, ⟨hnodup, hdisjoint, happart⟩, hall⟩ := h
            refine ⟨⟨hnodup, fun ref href => hall ref (Or.inl href)⟩,
              hnonempty, hdisjoint, fun ref href => ⟨(hall ref (Or.inr href)).1,
                fun hmem => ?_, (hall ref (Or.inr href)).2⟩⟩
            exact happart ref hmem ref href rfl

theorem check_eq_ok_iff {collapse : Collapse} :
    collapse.check = .ok () ↔ collapse.Ready := by
  have hready : collapse.Ready ↔ collapse.graph.check = .ok () ∧
      groupFault? collapse.graph 0 [] collapse.groups = none := by
    rw [Graph.check_eq_ok_iff, groupFault?_eq_none_iff]
    constructor
    · intro h
      exact ⟨h.wellFormed, h.nonempty, h.disjoint,
        fun ref href => ⟨h.has ref href, List.not_mem_nil⟩⟩
    · intro h
      obtain ⟨hwf, hnonempty, hdisjoint, hall⟩ := h
      exact ⟨hwf, hnonempty, hdisjoint, fun ref href => (hall ref href).1⟩
  rw [hready, check, bind_eq_ok_iff]
  cases hfault : groupFault? collapse.graph 0 [] collapse.groups with
  | some fault => simp
  | none =>
      rw [and_iff_left rfl]
      constructor
      · intro h
        obtain ⟨_, hcheck, _⟩ := h
        exact hcheck
      · intro h
        exact ⟨(), h, rfl⟩

end Check

theorem min?_eq_earliest {group : List Ref} (h : group ≠ []) :
    (group.map (·.index)).min? = some (earliest group).index := by
  have hindexes : group.map (·.index) ≠ [] := mt List.map_eq_nil_iff.mp h
  obtain ⟨index, hindex⟩ :=
    Option.isSome_iff_exists.mp (List.isSome_min?_of_ne_nil hindexes)
  rw [earliest, hindex, Option.getD_some]

theorem earliest_mem {group : List Ref} (h : group ≠ []) :
    earliest group ∈ group := by
  obtain ⟨ref, href, heq⟩ :=
    List.mem_map.mp (List.min?_mem (min?_eq_earliest h))
  have hearliest : ref = earliest group := congrArg Ref.mk heq
  exact hearliest ▸ href

theorem earliest_le {group : List Ref} {ref : Ref} (h : ref ∈ group) :
    (earliest group).index ≤ ref.index := by
  have hleast := min?_eq_earliest (List.ne_nil_of_mem h)
  exact (List.min?_eq_some_iff.mp hleast).2 ref.index (List.mem_map_of_mem h)

variable {collapse : Collapse} {ref other : Ref} {group : List Ref}

theorem group?_eq_none_iff :
    collapse.group? ref = none ↔ ∀ group ∈ collapse.groups, ref ∉ group := by
  simp [group?]

theorem mem_of_group? (h : collapse.group? ref = some group) :
    group ∈ collapse.groups ∧ ref ∈ group := by
  have hmem := List.find?_some h
  exact ⟨List.mem_of_find?_eq_some h, by simpa using hmem⟩

namespace Ready

theorem groups_eq_of_mem (h : collapse.Ready) {first second : List Ref}
    (hfirst : first ∈ collapse.groups) (hsecond : second ∈ collapse.groups)
    (href : ref ∈ first) (href' : ref ∈ second) : first = second := by
  by_contra hne
  rcases or_of_pairwise (List.nodup_flatten.mp h.disjoint).2 hfirst
    hsecond hne with
    hapart | hapart
  · exact hapart href href'
  · exact hapart href' href

theorem group?_of_mem (h : collapse.Ready) (hgroup : group ∈ collapse.groups)
    (href : ref ∈ group) : collapse.group? ref = some group := by
  cases hfound : collapse.group? ref with
  | none => exact absurd href (group?_eq_none_iff.mp hfound group hgroup)
  | some found =>
      obtain ⟨hmem, hin⟩ := mem_of_group? hfound
      rw [h.groups_eq_of_mem hmem hgroup hin href]

theorem earliest_mem (h : collapse.Ready) (hgroup : group ∈ collapse.groups) :
    earliest group ∈ group :=
  Collapse.earliest_mem (h.nonempty group hgroup)

theorem has_of_mem (h : collapse.Ready) (hgroup : group ∈ collapse.groups)
    (href : ref ∈ group) : collapse.graph.has ref = true :=
  h.has ref (List.mem_flatten_of_mem hgroup href)

end Ready

section Leader

theorem survivor?_eq_none_of_group (h : collapse.group? ref ≠ none) :
    collapse.survivor? ref = none := by
  rw [survivor?]
  split
  · rename_i hnone _
    exact absurd hnone h
  · rfl

theorem survivor?_eq_some_iff :
    collapse.survivor? ref = some other ↔
      collapse.group? ref = none ∧ ∃ alternatives,
        collapse.graph.shape? ref = some (.union alternatives) ∧
        collapse.graph.survivor? collapse.policy alternatives = some other := by
  rw [survivor?]
  split
  · rename_i alternatives hgroup hshape
    simp [hgroup, hshape]
  · rename_i hother
    refine iff_of_false (fun h => by cases h) fun h => ?_
    obtain ⟨hgroup, alternatives, hshape, _⟩ := h
    exact hother alternatives hgroup hshape

theorem survivor?_eq_none_of_kind (h : collapse.graph.kind? ref ≠ some .union) :
    collapse.survivor? ref = none := by
  rw [Option.eq_none_iff_forall_ne_some]
  intro survivor hsurvivor
  obtain ⟨_, alternatives, hshape, _⟩ := survivor?_eq_some_iff.mp hsurvivor
  exact h (Graph.kind?_of_shape? hshape)

theorem leader_of_none (hgroup : collapse.group? ref = none)
    (hsurvivor : collapse.survivor? ref = none) :
    collapse.leader ref = ref := by
  simp [leader, hgroup, hsurvivor]

theorem survivor?_of_survivor (h : collapse.survivor? ref = some other) :
    collapse.survivor? other = none := by
  obtain ⟨_, alternatives, _, hsurvivor⟩ := survivor?_eq_some_iff.mp h
  exact survivor?_eq_none_of_kind (Graph.survivor?_eq_some_iff.mp hsurvivor).2.2

theorem leader_of_survivor (h : collapse.survivor? ref = some other) :
    collapse.leader ref = collapse.leader other := by
  simp [leader, h, survivor?_of_survivor h]

namespace Ready

theorem leader_of_mem (h : collapse.Ready) (hgroup : group ∈ collapse.groups)
    (href : ref ∈ group) : collapse.leader ref = earliest group := by
  have hfound := h.group?_of_mem hgroup href
  have hsurvivor : collapse.survivor? ref = none := by
    apply survivor?_eq_none_of_group
    rw [hfound]
    exact Option.some_ne_none group
  simp [leader, hfound, hsurvivor]

theorem leader_eq_iff (h : collapse.Ready)
    (hsurvivor : collapse.survivor? ref = none)
    (hsurvivor' : collapse.survivor? other = none) :
    collapse.leader ref = collapse.leader other ↔
      ref = other ∨ ∃ group ∈ collapse.groups, ref ∈ group ∧ other ∈ group := by
  constructor
  · intro heq
    cases hgroup : collapse.group? ref with
    | none =>
        rw [leader_of_none hgroup hsurvivor] at heq
        cases hgroup' : collapse.group? other with
        | none => exact Or.inl (heq.trans (leader_of_none hgroup' hsurvivor'))
        | some group =>
            obtain ⟨hmem, hin⟩ := mem_of_group? hgroup'
            rw [h.leader_of_mem hmem hin] at heq
            exact Or.inr ⟨group, hmem, heq ▸ h.earliest_mem hmem, hin⟩
    | some group =>
        obtain ⟨hmem, hin⟩ := mem_of_group? hgroup
        rw [h.leader_of_mem hmem hin] at heq
        cases hgroup' : collapse.group? other with
        | none =>
            rw [leader_of_none hgroup' hsurvivor'] at heq
            exact Or.inr ⟨group, hmem, hin, heq ▸ h.earliest_mem hmem⟩
        | some group' =>
            obtain ⟨hmem', hin'⟩ := mem_of_group? hgroup'
            rw [h.leader_of_mem hmem' hin'] at heq
            have hsame := h.groups_eq_of_mem hmem hmem' (h.earliest_mem hmem)
              (heq ▸ h.earliest_mem hmem')
            exact Or.inr ⟨group, hmem, hin, hsame ▸ hin'⟩
  · rintro (rfl | ⟨group, hmem, hin, hin'⟩)
    · rfl
    · rw [h.leader_of_mem hmem hin, h.leader_of_mem hmem hin']

theorem leader_leader_of_no_survivor (h : collapse.Ready)
    (hsurvivor : collapse.survivor? ref = none) :
    collapse.leader (collapse.leader ref) = collapse.leader ref := by
  cases hgroup : collapse.group? ref with
  | none =>
      rw [leader_of_none hgroup hsurvivor, leader_of_none hgroup hsurvivor]
  | some group =>
      obtain ⟨hmem, href⟩ := mem_of_group? hgroup
      rw [h.leader_of_mem hmem href, h.leader_of_mem hmem (h.earliest_mem hmem)]

theorem leader_leader (h : collapse.Ready) (ref : Ref) :
    collapse.leader (collapse.leader ref) = collapse.leader ref := by
  cases hsurvivor : collapse.survivor? ref with
  | none => exact h.leader_leader_of_no_survivor hsurvivor
  | some other =>
      rw [leader_of_survivor hsurvivor]
      exact h.leader_leader_of_no_survivor (survivor?_of_survivor hsurvivor)

theorem survivor_has (h : collapse.Ready)
    (hsurvivor : collapse.survivor? ref = some other) :
    collapse.graph.has other = true := by
  obtain ⟨_, alternatives, hshape, hnarrow⟩ :=
    survivor?_eq_some_iff.mp hsurvivor
  exact h.wellFormed.children hshape other (Graph.mem_of_survivor? hnarrow)

theorem leader_has (h : collapse.Ready) (href : collapse.graph.has ref = true) :
    collapse.graph.has (collapse.leader ref) = true := by
  have hplain {ref : Ref} (href : collapse.graph.has ref = true)
      (hsurvivor : collapse.survivor? ref = none) :
      collapse.graph.has (collapse.leader ref) = true := by
    cases hgroup : collapse.group? ref with
    | none =>
        rw [leader_of_none hgroup hsurvivor]
        exact href
    | some group =>
        obtain ⟨hmem, hin⟩ := mem_of_group? hgroup
        rw [h.leader_of_mem hmem hin]
        exact h.has_of_mem hmem (h.earliest_mem hmem)
  cases hsurvivor : collapse.survivor? ref with
  | none => exact hplain href hsurvivor
  | some other =>
      rw [leader_of_survivor hsurvivor]
      exact hplain (h.survivor_has hsurvivor) (survivor?_of_survivor hsurvivor)

end Ready

end Leader

section Redirection

theorem mem_leaders_iff :
    ref ∈ collapse.leaders ↔
      collapse.graph.has ref = true ∧ collapse.leader ref = ref := by
  rw [leaders, List.mem_filter, Graph.mem_refs_iff_has, decide_eq_true_iff]

theorem leaders_nodup (collapse : Collapse) : collapse.leaders.Nodup :=
  collapse.graph.refs_nodup.filter _

theorem destinations_getElem? (href : collapse.graph.has ref = true) :
    collapse.destinations[ref.index]? =
      some ⟨collapse.leaders.idxOf (collapse.leader ref)⟩ := by
  have hlt : ref.index < collapse.graph.size := Graph.has_iff.mp href
  simp [destinations, Graph.refs, hlt]

theorem redirect_eq (href : collapse.graph.has ref = true) :
    collapse.passage.redirect ref =
      ⟨collapse.leaders.idxOf (collapse.leader ref)⟩ := by
  rw [Passage.redirect, passage, destinations_getElem? href, Option.getD_some]

theorem follow_eq_ok (href : collapse.graph.has ref = true) :
    collapse.passage.follow ref = .ok (collapse.passage.redirect ref) := by
  rw [redirect_eq href, Passage.follow, passage, destinations_getElem? href]

namespace Ready

theorem leader_mem_leaders (h : collapse.Ready)
    (href : collapse.graph.has ref = true) :
    collapse.leader ref ∈ collapse.leaders :=
  mem_leaders_iff.mpr ⟨h.leader_has href, h.leader_leader ref⟩

theorem redirect_eq_iff (h : collapse.Ready)
    (href : collapse.graph.has ref = true)
    (hother : collapse.graph.has other = true) :
    collapse.passage.redirect ref = collapse.passage.redirect other ↔
      collapse.leader ref = collapse.leader other := by
  rw [redirect_eq href, redirect_eq hother, Ref.mk.injEq]
  exact List.idxOf_inj (h.leader_mem_leaders href)

theorem redirect_of_mem (h : collapse.Ready) (hgroup : group ∈ collapse.groups)
    (href : ref ∈ group) (hother : other ∈ group) :
    collapse.passage.redirect ref = collapse.passage.redirect other := by
  rw [h.redirect_eq_iff (h.has_of_mem hgroup href) (h.has_of_mem hgroup hother),
    h.leader_of_mem hgroup href, h.leader_of_mem hgroup hother]

theorem redirect_of_survivor (h : collapse.Ready)
    (href : collapse.graph.has ref = true)
    (hsurvivor : collapse.survivor? ref = some other) :
    collapse.passage.redirect ref = collapse.passage.redirect other :=
  (h.redirect_eq_iff href (h.survivor_has hsurvivor)).mpr
    (leader_of_survivor hsurvivor)

end Ready

end Redirection

end ShapeMerge.Collapse
