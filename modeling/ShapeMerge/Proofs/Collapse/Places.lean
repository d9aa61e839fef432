import ShapeMerge.Proofs.Collapse.Faithful
import ShapeMerge.Proofs.Collapse.Order

namespace ShapeMerge.Collapse

/-!
The law by which nodes are numbered when groups of them are collapsed: one
position for each group and each node outside the groups that is not bypassed,
in the order of the lowest old positions, and whatever a constructor adds behind
all of them.
-/

open Builder

/-- A union outside the groups that narrowing leaves with one member, which is
no union. -/
def GivesWay (collapse : Collapse) (ref survivor : Ref) : Prop :=
  (∀ group ∈ collapse.groups, ref ∉ group) ∧ ∃ alternatives,
    collapse.graph.shape? ref = some (.union alternatives) ∧
      collapse.graph.narrow collapse.policy alternatives ≠ alternatives ∧
      collapse.graph.narrow collapse.policy alternatives = [survivor] ∧
      collapse.graph.kind? survivor ≠ some .union

def Bypassed (collapse : Collapse) (ref : Ref) : Prop :=
  ∃ survivor, collapse.GivesWay ref survivor

/-- The same groups in another order, each with its members in another order. -/
def Regroups (groups others : List (List Ref)) : Prop :=
  ∃ middle, groups.Perm middle ∧ List.Forall₂ List.Perm middle others

variable {collapse : Collapse} {ref other survivor : Ref} {group : List Ref}

theorem givesWay_iff :
    collapse.GivesWay ref survivor ↔
      collapse.survivor? ref = some survivor := by
  rw [GivesWay, survivor?_eq_some_iff, group?_eq_none_iff]
  refine and_congr_right fun _ => exists_congr fun alternatives =>
    and_congr_right fun _ => ?_
  rw [Graph.survivor?_eq_some_iff]
  constructor
  · intro h
    obtain ⟨hnarrowed, hnarrow, hkind⟩ := h
    refine ⟨hnarrow, fun hlength => hnarrowed ?_, hkind⟩
    refine (Graph.narrow_sublist alternatives).eq_of_length ?_
    rw [hnarrow, hlength, List.length_singleton]
  · intro h
    obtain ⟨hnarrow, hlength, hkind⟩ := h
    refine ⟨fun hself => hlength ?_, hnarrow, hkind⟩
    rw [← hself, hnarrow, List.length_singleton]

theorem not_bypassed_iff :
    ¬ collapse.Bypassed ref ↔ collapse.survivor? ref = none := by
  rw [Bypassed, not_exists, Option.eq_none_iff_forall_ne_some]
  exact forall_congr' fun _ => not_congr givesWay_iff

theorem earliest_eq_of_perm {others : List Ref} (h : group.Perm others)
    (hgroup : group ≠ []) : earliest group = earliest others := by
  have hmem := earliest_mem hgroup
  have hmem' : earliest others ∈ others :=
    earliest_mem fun hnil => hgroup (hnil ▸ h).eq_nil
  have hle := earliest_le (h.mem_iff.mpr hmem')
  have hge := earliest_le (h.mem_iff.mp hmem)
  exact congrArg Ref.mk (Nat.le_antisymm hle hge)

section Regrouping

variable {groups others : List (List Ref)}

theorem Regroups.exists_other (h : Regroups groups others)
    (hgroup : group ∈ groups) : ∃ other ∈ others, group.Perm other := by
  obtain ⟨middle, hperm, hall⟩ := h
  exact exists_of_forall₂ hall (hperm.mem_iff.mp hgroup)

theorem Regroups.exists_group (h : Regroups groups others) {other : List Ref}
    (hother : other ∈ others) : ∃ group ∈ groups, group.Perm other := by
  obtain ⟨middle, hperm, hall⟩ := h
  obtain ⟨group, hgroup, hrelated⟩ := exists_of_forall₂ hall.flip hother
  exact ⟨group, hperm.mem_iff.mpr hgroup, hrelated⟩

theorem Regroups.flatten_perm (h : Regroups groups others) :
    groups.flatten.Perm others.flatten := by
  obtain ⟨middle, hperm, hall⟩ := h
  exact hperm.flatten.trans (List.Perm.flatten_congr hall)

theorem survivor?_regroup (hregroups : Regroups collapse.groups others)
    (ref : Ref) :
    survivor? { collapse with groups := others } ref =
      collapse.survivor? ref := by
  have hnone : group? { collapse with groups := others } ref = none ↔
      collapse.group? ref = none := by
    rw [group?_eq_none_iff, group?_eq_none_iff]
    constructor
    · intro habsent group hgroup href
      obtain ⟨other, hother, hperm⟩ := hregroups.exists_other hgroup
      exact habsent other hother (hperm.mem_iff.mp href)
    · intro habsent other hother href
      obtain ⟨group, hgroup, hperm⟩ := hregroups.exists_group hother
      exact habsent group hgroup (hperm.mem_iff.mpr href)
  ext survivor
  rw [survivor?_eq_some_iff, survivor?_eq_some_iff, hnone]

namespace Ready

variable (h : collapse.Ready) (hregroups : Regroups collapse.groups others)

include h hregroups

theorem regroup : Ready { collapse with groups := others } where
  wellFormed := h.wellFormed
  nonempty other hother := by
    obtain ⟨group, hgroup, hperm⟩ := hregroups.exists_group hother
    exact fun hnil => h.nonempty group hgroup (hnil ▸ hperm).eq_nil
  disjoint := hregroups.flatten_perm.nodup_iff.mp h.disjoint
  has ref href := h.has ref (hregroups.flatten_perm.mem_iff.mpr href)

theorem leader_regroup (ref : Ref) :
    leader { collapse with groups := others } ref = collapse.leader ref := by
  have hready := h.regroup hregroups
  have hplain {ref : Ref} (hsurvivor : collapse.survivor? ref = none) :
      leader { collapse with groups := others } ref = collapse.leader ref := by
    have hsurvivor' := (survivor?_regroup hregroups ref).trans hsurvivor
    cases hgroup : group? { collapse with groups := others } ref with
    | none =>
        rw [leader_of_none hgroup hsurvivor', leader_of_none ?_ hsurvivor]
        rw [group?_eq_none_iff] at hgroup ⊢
        intro group hmem href
        obtain ⟨other, hother, hperm⟩ := hregroups.exists_other hmem
        exact hgroup other hother (hperm.mem_iff.mp href)
    | some found =>
        obtain ⟨hfound, href⟩ := mem_of_group? hgroup
        obtain ⟨group, hmem, hperm⟩ := hregroups.exists_group hfound
        rw [hready.leader_of_mem hfound href,
          h.leader_of_mem hmem (hperm.mem_iff.mpr href),
          earliest_eq_of_perm hperm (h.nonempty group hmem)]
  cases hsurvivor : collapse.survivor? ref with
  | none => exact hplain hsurvivor
  | some survivor =>
      rw [leader_of_survivor hsurvivor,
        leader_of_survivor ((survivor?_regroup hregroups ref).trans hsurvivor)]
      exact hplain (survivor?_of_survivor hsurvivor)

theorem destinations_regroup :
    destinations { collapse with groups := others } =
      collapse.destinations := by
  rw [destinations, destinations, leaders, leaders,
    funext (h.leader_regroup hregroups)]

end Ready

end Regrouping

section Classes

namespace Ready

theorem redirect_eq_iff_shared (h : collapse.Ready)
    (href : collapse.graph.has ref = true)
    (hother : collapse.graph.has other = true) (hkept : ¬ collapse.Bypassed ref)
    (hkept' : ¬ collapse.Bypassed other) :
    collapse.passage.redirect ref = collapse.passage.redirect other ↔
      ref = other ∨ ∃ group ∈ collapse.groups, ref ∈ group ∧ other ∈ group := by
  rw [h.redirect_eq_iff href hother]
  exact h.leader_eq_iff (not_bypassed_iff.mp hkept) (not_bypassed_iff.mp hkept')

theorem mem_leaders_iff_lowest (h : collapse.Ready) :
    ref ∈ collapse.leaders ↔
      collapse.graph.has ref = true ∧ ¬ collapse.Bypassed ref ∧
        ∀ other, other < ref → ¬ collapse.Bypassed other →
          collapse.passage.redirect other ≠ collapse.passage.redirect ref := by
  rw [mem_leaders_iff]
  refine and_congr_right fun href => ?_
  constructor
  · intro hself
    have hsurvivor : collapse.survivor? ref = none :=
      hself ▸ h.survivor?_leader ref
    have hkept := not_bypassed_iff.mpr hsurvivor
    refine ⟨hkept, fun other hlt hother heq => ?_⟩
    have hhas : collapse.graph.has other = true :=
      Graph.has_iff.mpr (Nat.lt_trans hlt (Graph.has_iff.mp href))
    rcases (h.redirect_eq_iff_shared hhas href hother hkept).mp heq with
      rfl | ⟨group, hgroup, hmem, hmem'⟩
    · exact Nat.lt_irrefl _ hlt
    · rw [h.leader_of_mem hgroup hmem'] at hself
      exact Nat.lt_irrefl _ (Nat.lt_of_lt_of_le hlt (hself ▸ earliest_le hmem))
  · intro hlowest
    obtain ⟨hkept, hfirst⟩ := hlowest
    cases hgroup : collapse.group? ref with
    | none => exact leader_of_none hgroup (not_bypassed_iff.mp hkept)
    | some group =>
        obtain ⟨hmem, hin⟩ := mem_of_group? hgroup
        have hearliest := h.earliest_mem hmem
        rw [h.leader_of_mem hmem hin]
        by_contra hne
        refine hfirst (earliest group) ?_ ?_
          (h.redirect_of_mem hmem hearliest hin)
        · exact Nat.lt_of_le_of_ne (earliest_le hin) fun heq =>
            hne (congrArg Ref.mk heq)
        · rw [not_bypassed_iff]
          apply survivor?_eq_none_of_group
          rw [h.group?_of_mem hmem hearliest]
          exact Option.some_ne_none group

theorem occupied_iff (h : collapse.Ready) {target : Ref} :
    (∃ ref, collapse.graph.has ref = true ∧
      collapse.passage.redirect ref = target) ↔
      target.index < collapse.leaders.length := by
  constructor
  · rintro ⟨ref, href, rfl⟩
    rw [redirect_eq href]
    exact List.idxOf_lt_length_of_mem (h.leader_mem_leaders href)
  · intro hlt
    have hmem : target ∈ collapse.leaders.map collapse.passage.redirect := by
      rw [leaders_map_redirect]
      exact List.mem_map.mpr ⟨target.index, List.mem_range.mpr hlt, rfl⟩
    obtain ⟨ref, href, hredirect⟩ := List.mem_map.mp hmem
    exact ⟨ref, (mem_leaders_iff.mp href).1, hredirect⟩

end Ready

end Classes

section Additions

variable {embed : GraphFault → ε}
  {build : Site → Builder → Except ε ((Ref × α) × Builder)}

theorem Operates.replay_construct (h : Operates build)
    {sites : List Site} {builder after : Builder} {reports : List α}
    (hconstruct : construct embed build sites builder = .ok (reports, after)) :
    ∃ history, after = builder.replay history := by
  let replays (before after : Builder) : Prop :=
    ∃ history, after = before.replay history
  have hrefl (builder : Builder) : replays builder builder := ⟨[], rfl⟩
  have htrans {first second third : Builder} (hfirst : replays first second)
      (hsecond : replays second third) : replays first third := by
    obtain ⟨history, rfl⟩ := hfirst
    obtain ⟨later, rfl⟩ := hsecond
    exact ⟨history ++ later, by rw [replay, replay, replay, List.foldl_append]⟩
  exact construct_preserves hrefl htrans h hconstruct

theorem size_replay_draft (collapse : Collapse) (history : List Operation) :
    collapse.leaders.length ≤
      ((collapse.draft collapse.passage).replay history).size := by
  by_contra hless
  let last : Ref := ((collapse.draft collapse.passage).replay history).next
  have hhas : (collapse.draft collapse.passage).has last = true :=
    draft_has_iff.mpr (Nat.not_le.mp hless)
  exact Nat.lt_irrefl _
    (has_iff.mp (((safe_replay _ history).toExtends.has hhas)))

end Additions

structure Numbered (collapse : Collapse) (collapsed : Collapsed α) : Prop where
  passage : collapsed.passage = collapse.passage
  follow : ∀ {ref}, collapse.graph.has ref = true →
    collapsed.passage.follow ref = .ok (collapsed.passage.redirect ref)
  shared : ∀ {ref other}, collapse.graph.has ref = true →
    collapse.graph.has other = true →
    ¬ collapse.Bypassed ref → ¬ collapse.Bypassed other →
    (collapsed.passage.redirect ref = collapsed.passage.redirect other ↔
      ref = other ∨ ∃ group ∈ collapse.groups, ref ∈ group ∧ other ∈ group)
  bypassed : ∀ {ref survivor}, collapse.GivesWay ref survivor →
    collapse.graph.has survivor = true ∧ ¬ collapse.Bypassed survivor ∧
      collapsed.passage.redirect ref = collapsed.passage.redirect survivor
  /-- The leaders are the lowest nodes that are not bypassed, one for each
  place. -/
  lowest : ∀ {ref}, ref ∈ collapse.leaders ↔
    collapse.graph.has ref = true ∧ ¬ collapse.Bypassed ref ∧
      ∀ other, other < ref → ¬ collapse.Bypassed other →
        collapsed.passage.redirect other ≠ collapsed.passage.redirect ref
  ordered : collapse.leaders.Pairwise (· < ·)
  places : collapse.leaders.map collapsed.passage.redirect =
    (List.range collapse.leaders.length).map Ref.mk
  occupied : ∀ {target}, (∃ ref, collapse.graph.has ref = true ∧
    collapsed.passage.redirect ref = target) ↔
    target.index < collapse.leaders.length
  regrouped : ∀ {others}, Regroups collapse.groups others →
    destinations { collapse with groups := others } = collapse.destinations
  /-- The nodes are the slots of the draft, which has one for each place, after
  some operations. -/
  built : (collapse.draft collapse.passage).size = collapse.leaders.length ∧
    ∃ history, collapsed.graph.nodes.map some =
      ((collapse.draft collapse.passage).replay history).slots
  /-- The position that comes next is behind the places, whatever operations
  went before. -/
  added : ∀ history, collapse.leaders.length ≤
    ((collapse.draft collapse.passage).replay history).next.index

theorem run_numbered {embed : GraphFault → ε}
    {build : Passage → Site → Builder → Except ε ((Ref × α) × Builder)}
    {collapsed : Collapsed α} (hoperates : Operates (build collapse.passage))
    (h : collapse.run embed build = .ok collapsed) :
    collapse.Numbered collapsed := by
  obtain ⟨hready, reports, built, named, graph, hconstruct, hnamed,
    hgraph, rfl⟩ :=
    run_eq_ok_iff.mp h
  obtain ⟨hfull, rfl, _⟩ := toGraph_eq_ok_iff.mp hgraph
  obtain ⟨history, rfl⟩ := hoperates.replay_construct hconstruct
  exact
    { passage := rfl
      follow := follow_eq_ok
      shared := hready.redirect_eq_iff_shared
      bypassed := fun hgives => by
        have hsurvivor := givesWay_iff.mp hgives
        obtain ⟨_, alternatives, hshape, _⟩ := hgives
        have href := Graph.has_iff_shape?.mpr ⟨_, hshape⟩
        exact ⟨hready.survivor_has hsurvivor,
          not_bypassed_iff.mpr (survivor?_of_survivor hsurvivor),
          hready.redirect_of_survivor href hsurvivor⟩
      lowest := hready.mem_leaders_iff_lowest
      ordered := leaders_ordered collapse
      places := leaders_map_redirect collapse
      occupied := hready.occupied_iff
      regrouped := hready.destinations_regroup
      built := by
        refine ⟨by rw [size, draft, List.size_toArray, List.length_map],
          history, ?_⟩
        rw [slots_eq_map_some hfull, slots_nameRoots hnamed]
      added := size_replay_draft collapse }

/-- Two equal records of a time stamp, given as a date or as an identifier. -/
def stamped : Collapse where
  graph := {
    nodes := #[
      ⟨.union [⟨1⟩, ⟨2⟩], .inferredName "stamp"⟩,
      ⟨.formatted .date, .blank⟩,
      ⟨.formatted .uuid, .blank⟩,
      ⟨.record ⟨.ofList [("stamp", ⟨0⟩)], false⟩, .blank⟩,
      ⟨.record ⟨.ofList [("stamp", ⟨0⟩)], false⟩, .blank⟩]
    roots := .ofList [("first", ⟨3⟩), ("second", ⟨4⟩)] }
  policy := .allPlain
  groups := [[⟨4⟩, ⟨3⟩]]

theorem stamped_numbered :
    ∃ collapsed, stamped.run id (fun _ => countInstead) = .ok collapsed ∧
      stamped.GivesWay ⟨0⟩ ⟨1⟩ ∧ stamped.Numbered collapsed := by
  have hoperates : Operates countInstead := by
    intro site builder result after h
    cases h
    exact ⟨_, rfl⟩
  have hgives : stamped.GivesWay ⟨0⟩ ⟨1⟩ := givesWay_iff.mpr (by decide +kernel)
  have hok : (stamped.run id fun _ => countInstead).isOk = true := by
    decide +kernel
  cases hrun : stamped.run id (fun _ => countInstead) with
  | error fault =>
      rw [hrun] at hok
      cases hok
  | ok collapsed => exact ⟨collapsed, rfl, hgives, run_numbered hoperates hrun⟩

end ShapeMerge.Collapse
