import ShapeMerge.Proofs.Merging.Candidates
import ShapeMerge.Proofs.Partition

namespace ShapeMerge.Graph

open ShapeMerge.Partition

variable {graph : Graph} {cliques : List (List Ref)}

section AnyShare

variable [Share σ] {share : σ} (h : graph.cliques share = .ok cliques)

include h

theorem mem_groups_of_mem_cliques {clique : List Ref}
    (hclique : clique ∈ cliques) :
    clique ∈ groups (accepts (graph.mergeableRefs share)) graph.candidates ∧
      1 < clique.length := by
  rw [cliques_eq_ok h, List.mem_filter] at hclique
  simpa using hclique

theorem cliques_flatten_nodup : cliques.flatten.Nodup := by
  have hall : (groups (accepts (graph.mergeableRefs share))
    graph.candidates).flatten.Nodup :=
    (groups_flatten_perm graph.candidates).nodup_iff.mpr graph.candidates_nodup
  rw [List.nodup_flatten] at hall ⊢
  rw [cliques_eq_ok h]
  exact ⟨fun clique hclique => hall.1 clique (List.mem_of_mem_filter hclique),
    hall.2.filter _⟩

theorem clique_sublist {clique : List Ref} (hclique : clique ∈ cliques) :
    clique.Sublist graph.candidates :=
  groups_sublist (mem_groups_of_mem_cliques h hclique).1

theorem mem_candidates_of_mem_clique {clique : List Ref}
    (hclique : clique ∈ cliques) {ref : Ref} (href : ref ∈ clique) :
    ref ∈ graph.candidates :=
  (clique_sublist h hclique).subset href

theorem clique_ordered {clique : List Ref} (hclique : clique ∈ cliques) :
    clique.Pairwise (· < ·) :=
  graph.candidates_ordered.sublist (clique_sublist h hclique)

theorem cliques_ordered :
    cliques.Pairwise fun earlier later =>
      ∀ first ∈ earlier.head?, ∀ ref ∈ later, first < ref := by
  rw [cliques_eq_ok h]
  exact (groups_ordered graph.candidates_ordered).filter _

theorem clique_mergeable {clique : List Ref} (hclique : clique ∈ cliques) :
    clique.Pairwise fun x y => graph.mergeableRefs share x y = .ok true := by
  have hpairwise := groups_compatible (mem_groups_of_mem_cliques h hclique).1
  exact hpairwise.imp accepts_eq_true_iff.mp

end AnyShare

theorem exists_cliques_eq_ok (hflat : graph.Flat) (share : Rat) :
    ∃ cliques, graph.cliques share = .ok cliques :=
  Partition.exists_cliques_eq_ok fun _ hx _ hy =>
    exists_mergeableRefs_eq_ok hflat share hx hy

section Duplicates

variable {share : Rat} {group : List Ref} {left right : Ref}

/-- The test asks the members of a group in one order only, but it is
symmetric. -/
theorem mergeableRefs_of_mem_group (hflat : graph.Flat) (hgroup : group ∈
      groups (accepts (graph.mergeableRefs share)) graph.candidates)
    (hcandidates : ∀ ref ∈ group, ref ∈ graph.candidates) (hleft : left ∈ group)
    (hright : right ∈ group) (hne : left ≠ right) :
    graph.mergeableRefs share left right = .ok true := by
  rcases or_of_pairwise (groups_compatible hgroup) hleft hright hne with
    hyes | hyes
  · exact accepts_eq_true_iff.mp hyes
  · obtain ⟨_, hleftRecord, _⟩ := mem_candidates.mp (hcandidates left hleft)
    obtain ⟨_, hrightRecord, _⟩ := mem_candidates.mp (hcandidates right hright)
    rw [mergeableRefs_comm hflat share hleftRecord hrightRecord]
    exact accepts_eq_true_iff.mp hyes

/-- A group that took a candidate refuses no equivalent of it. -/
theorem accepts_of_bisimilar (hflat : graph.Flat) (hshare : share ≤ 1)
    (hright : right ∈ graph.candidates) (h : graph.Bisimilar left right)
    (hgroup :
      group ∈ groups (accepts (graph.mergeableRefs share)) graph.candidates)
    (hleft : left ∈ group) {member : Ref} (hmember : member ∈ group) :
    accepts (graph.mergeableRefs share) member right = true := by
  have hcandidates : ∀ ref ∈ group, ref ∈ graph.candidates := fun ref href =>
    (groups_flatten_perm _).mem_iff.mp (List.mem_flatten_of_mem hgroup href)
  rw [accepts_eq_true_iff]
  by_cases heq : member = left
  · subst heq
    exact mergeableRefs_of_bisimilar hflat hshare (hcandidates member hmember) h
  · obtain ⟨_, hmemberRecord, _⟩ :=
      mem_candidates.mp (hcandidates member hmember)
    obtain ⟨_, hrightRecord, _⟩ := mem_candidates.mp hright
    calc
      graph.mergeableRefs share member right
        = graph.mergeableRefs share right member :=
          mergeableRefs_comm hflat share hmemberRecord hrightRecord
      _ = graph.mergeableRefs share left member :=
          mergeableRefs_congr hflat share hright
            (hcandidates member hmember) h.symm
      _ = .ok true :=
          mergeableRefs_of_mem_group hflat hgroup hcandidates hleft hmember
            (Ne.symm heq)

theorem exists_clique_of_bisimilar (hflat : graph.Flat)
    (hshare : share ≤ 1) (hcliques : graph.cliques share = .ok cliques)
    (hleft : left ∈ graph.candidates) (hright : right ∈ graph.candidates)
    (hne : left ≠ right) (h : graph.Bisimilar left right) :
    ∃ clique ∈ cliques, left ∈ clique ∧ right ∈ clique := by
  have hexists {ref : Ref} (href : ref ∈ graph.candidates) :
      ∃ group ∈ groups (accepts (graph.mergeableRefs share)) graph.candidates,
        ref ∈ group :=
    List.mem_flatten.mp ((groups_flatten_perm _).mem_iff.mpr href)
  obtain ⟨first, hfirst, hleftMem⟩ := hexists hleft
  obtain ⟨second, hsecond, hrightMem⟩ := hexists hright
  -- Of two groups the earlier one has a member that refuses the candidate in
  -- the later one.
  have hsame : first = second := by
    by_contra hdiffer
    rcases or_of_pairwise (groups_refuse graph.candidates_ordered) hfirst
      hsecond hdiffer with
      hrefuse | hrefuse
    · obtain ⟨member, hmember, _, hno⟩ := hrefuse right hrightMem
      rw [accepts_of_bisimilar hflat hshare hright h hfirst hleftMem hmember]
        at hno
      cases hno
    · obtain ⟨member, hmember, _, hno⟩ := hrefuse left hleftMem
      rw [accepts_of_bisimilar hflat hshare hleft h.symm hsecond hrightMem
        hmember] at hno
      cases hno
  subst hsame
  have hlong : 1 < first.length := by
    by_contra hshort
    obtain ⟨only, rfl⟩ := List.length_eq_one_iff.mp
      (Nat.le_antisymm (Nat.not_lt.mp hshort) (List.length_pos_of_mem hleftMem))
    exact hne ((List.mem_singleton.mp hleftMem).trans
      (List.mem_singleton.mp hrightMem).symm)
  refine ⟨first, ?_, hleftMem, hrightMem⟩
  rw [cliques_eq_ok hcliques, List.mem_filter]
  exact ⟨hfirst, decide_eq_true hlong⟩

end Duplicates

end ShapeMerge.Graph
