import ShapeMerge.Proofs.Partition

namespace ShapeMerge.Partition

/-!
The cliques and the candidates left over, by their positions.  Together they
hold every position once, and of any two of these blocks the one that starts
first has refused everything in the other.
-/

variable {α : Type}

abbrev Placed (α : Type) := α × Nat

/-- Cliques and single candidates that make up all candidates, none of which
could have joined an earlier block. -/
structure Maximal (compatible : α → α → Bool) (candidates : List α)
    (cliques : List (List (Placed α))) (singles : List (Placed α)) : Prop where
  split : (cliques.flatten ++ singles).Perm candidates.zipIdx
  large : ∀ clique ∈ cliques, 2 ≤ clique.length
  ordered : ∀ clique ∈ cliques, clique.Pairwise fun x y => x.2 < y.2
  agreeing :
    ∀ clique ∈ cliques, clique.Pairwise fun x y => compatible x.1 y.1 = true
  refused : ∀ first ∈ cliques ++ singles.map ([·]), ∀ second ∈ cliques ++
      singles.map ([·]), (∃ x ∈ first.head?, ∃ y ∈ second.head?, x.2 < y.2) →
        ∀ candidate ∈ second, ∃ member ∈ first,
          member.2 < candidate.2 ∧ compatible member.1 candidate.1 = false
  apart : ∀ x ∈ singles, ∀ y ∈ singles, x.2 < y.2 → compatible x.1 y.1 = false

theorem zipIdx_ordered (candidates : List α) :
    candidates.zipIdx.Pairwise fun x y => x.2 < y.2 := by
  have hrange : (candidates.zipIdx.map Prod.snd).Pairwise (· < ·) := by
    rw [List.zipIdx_map_snd]
    exact List.pairwise_lt_range'
  exact List.pairwise_map.mp hrange

section Blocks

variable (compatible : α → α → Bool) (candidates : List α)

def placedGroups : List (List (Placed α)) :=
  groups (fun x y => compatible x.1 y.1) candidates.zipIdx

def placedCliques : List (List (Placed α)) :=
  (placedGroups compatible candidates).filter fun block => 1 < block.length

def placedSingles : List (Placed α) :=
  ((placedGroups compatible candidates).filter fun block =>
    !(1 < block.length : Bool)).flatten

variable {compatible candidates}

theorem placedGroups_map_fst :
    (placedGroups compatible candidates).map (List.map Prod.fst) =
      groups compatible candidates := by
  rw [placedGroups, ← groups_map, List.zipIdx_map_fst]

theorem placedCliques_map_fst :
    (placedCliques compatible candidates).map (List.map Prod.fst) =
      (groups compatible candidates).filter fun block => 1 < block.length := by
  rw [← placedGroups_map_fst, List.filter_map, placedCliques]
  congr 2
  funext block
  simp

theorem map_singleton_flatten {blocks : List (List α)}
    (h : ∀ block ∈ blocks, block.length = 1) :
    blocks.flatten.map ([·]) = blocks := by
  induction blocks with
  | nil => rfl
  | cons block rest ih =>
      obtain ⟨hblock, hrest⟩ := List.forall_mem_cons.mp h
      obtain ⟨only, rfl⟩ := List.length_eq_one_iff.mp hblock
      rw [List.flatten_cons, List.map_append, ih hrest, List.map_singleton,
        List.singleton_append]

theorem placedSingles_map_singleton :
    (placedSingles compatible candidates).map ([·]) =
      (placedGroups compatible candidates).filter fun block =>
        !(1 < block.length : Bool) := by
  apply map_singleton_flatten
  intro block hblock
  obtain ⟨hgroup, hshort⟩ := List.mem_filter.mp hblock
  have hpositive := List.length_pos_of_ne_nil (groups_ne_nil hgroup)
  simp only [Bool.not_eq_true', decide_eq_false_iff_not] at hshort
  omega

theorem mem_placedGroups {block : List (Placed α)} :
    block ∈ placedCliques compatible candidates ++
        (placedSingles compatible candidates).map ([·]) ↔
      block ∈ placedGroups compatible candidates := by
  rw [placedSingles_map_singleton, placedCliques]
  exact (List.filter_append_perm _ _).mem_iff

theorem placed_perm :
    ((placedCliques compatible candidates).flatten ++
      placedSingles compatible candidates).Perm candidates.zipIdx := by
  rw [placedCliques, placedSingles, ← List.flatten_append]
  exact (List.filter_append_perm _ _).flatten.trans (groups_flatten_perm _)

theorem exists_refusal_of_starts {first second : List (Placed α)}
    (hfirst : first ∈ placedGroups compatible candidates)
    (hsecond : second ∈ placedGroups compatible candidates)
    (hstarts : ∃ x ∈ first.head?, ∃ y ∈ second.head?, x.2 < y.2)
    {candidate : Placed α} (hcandidate : candidate ∈ second) :
    ∃ member ∈ first,
      member.2 < candidate.2 ∧ compatible member.1 candidate.1 = false := by
  obtain ⟨x, hx, y, hy, hlt⟩ := hstarts
  have hdiffer : first ≠ second := by
    rintro rfl
    rw [Option.mem_unique hx hy] at hlt
    exact Nat.lt_irrefl _ hlt
  have hordered : (placedGroups compatible candidates).Pairwise _ :=
    groups_ordered (zipIdx_ordered candidates)
  have hblocks := hordered.and (groups_refuse (zipIdx_ordered candidates))
  rcases or_of_pairwise hblocks hfirst hsecond hdiffer with hlater | hearlier
  · exact hlater.2 candidate hcandidate
  · have hback := hearlier.1 y hy x (List.mem_of_mem_head? hx)
    omega

end Blocks

theorem placed_maximal (compatible : α → α → Bool) (candidates : List α) :
    Maximal compatible candidates (placedCliques compatible candidates)
      (placedSingles compatible candidates) where
  split := placed_perm
  large _ hclique := of_decide_eq_true (List.mem_filter.mp hclique).2
  ordered _ hclique :=
    (zipIdx_ordered candidates).sublist
      (groups_sublist (List.mem_of_mem_filter hclique))
  agreeing _ hclique := groups_compatible (List.mem_of_mem_filter hclique)
  refused first hfirst second hsecond hstarts candidate hcandidate :=
    exists_refusal_of_starts (mem_placedGroups.mp hfirst)
      (mem_placedGroups.mp hsecond) hstarts hcandidate
  apart x hx y hy hlt := by
    have hblock {z : Placed α} (hz : z ∈ placedSingles compatible candidates) :
        [z] ∈ placedGroups compatible candidates :=
      mem_placedGroups.mp (List.mem_append_right _ (List.mem_map_of_mem hz))
    obtain ⟨member, hmember, _, hrefuses⟩ :=
      exists_refusal_of_starts (hblock hx) (hblock hy) ⟨x, rfl, y, rfl, hlt⟩
        (List.mem_singleton_self y)
    rwa [List.mem_singleton.mp hmember] at hrefuses

/-- With a test that always answers, the greedy partition is maximal. -/
theorem cliques_maximal {ε : Type} (compatible : α → α → Bool)
    (candidates : List α) :
    ∃ cliques singles, Maximal compatible candidates cliques singles ∧
      Partition.cliques (fun x y => (.ok (compatible x y) : Except ε Bool))
        candidates = .ok (cliques.map (List.map Prod.fst)) := by
  refine ⟨_, _, placed_maximal compatible candidates, ?_⟩
  rw [placedCliques_map_fst]
  exact cliques_eq_pure fun _ _ _ _ => rfl

end ShapeMerge.Partition
