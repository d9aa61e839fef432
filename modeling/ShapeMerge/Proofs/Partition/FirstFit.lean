import ShapeMerge.Proofs.Partition

namespace ShapeMerge.Partition

/-!
The partition in one pass: each candidate goes into the first bin that takes it.
The bins are the blocks of the greedy rounds, so candidates that come later
never change where an earlier one is.
-/

section Bins

variable {α : Type}

/-- Puts a candidate into the first bin all of whose members are compatible with
it, or else into a new bin behind the others. -/
def place (compatible : α → α → Bool) : List (List α) → α → List (List α)
  | [], candidate => [[candidate]]
  | bin :: rest, candidate =>
      if bin.all (compatible · candidate) then (bin ++ [candidate]) :: rest
      else bin :: place compatible rest candidate

def firstFit (compatible : α → α → Bool) (candidates : List α) :
    List (List α) :=
  candidates.foldl (place compatible) []

variable {compatible : α → α → Bool}

/-- Among the bins behind the first only the candidates go round that the first
leaves waiting. -/
theorem foldl_place_cons (members candidates : List α) (bins : List (List α)) :
    candidates.foldl (place compatible) (members :: bins) =
      (divide compatible members candidates).1 ::
        (divide compatible members candidates).2.foldl
          (place compatible) bins := by
  induction candidates generalizing members bins with
  | nil => rfl
  | cons candidate rest ih =>
      rw [List.foldl_cons, place, divide]
      split
      · exact ih (members ++ [candidate]) bins
      · exact ih members (place compatible bins candidate)

theorem firstFit_eq_groups (candidates : List α) :
    firstFit compatible candidates = groups compatible candidates := by
  induction candidates using groups.induct compatible with
  | case1 => rw [groups]; rfl
  | case2 seed rest ih =>
      rw [groups_cons, ← ih, firstFit, List.foldl_cons, place, foldl_place_cons]
      rfl

theorem mem_flatten_place {bins : List (List α)} {candidate x : α} :
    x ∈ (place compatible bins candidate).flatten ↔
      x ∈ bins.flatten ∨ x = candidate := by
  induction bins with
  | nil => simp [place]
  | cons bin rest ih =>
      rw [place]
      split
      · simp only [List.flatten_cons, List.mem_append, List.mem_singleton,
          or_right_comm]
      · rw [List.flatten_cons, List.flatten_cons, List.mem_append,
          List.mem_append, ih, or_assoc]

/-- Every bin is the start of the bin in its place; what is added to it and what
is in further bins is late. -/
inductive Grows (late : α → Prop) : List (List α) → List (List α) → Prop
  | opened {bins : List (List α)} (h : ∀ x ∈ bins.flatten, late x) :
      Grows late [] bins
  | extended {bin added : List α} {bins grown : List (List α)}
      (h : ∀ x ∈ added, late x) (hrest : Grows late bins grown) :
      Grows late (bin :: bins) ((bin ++ added) :: grown)

variable {late : α → Prop}

theorem Grows.refl (late : α → Prop) (bins : List (List α)) :
    Grows late bins bins := by
  induction bins with
  | nil => exact .opened fun _ h => nomatch h
  | cons bin rest ih =>
      have hextended : Grows late (bin :: rest) ((bin ++ []) :: rest) :=
        .extended (fun _ h => nomatch h) ih
      rwa [List.append_nil] at hextended

theorem Grows.place {bins grown : List (List α)} (h : Grows late bins grown)
    {candidate : α} (hlate : late candidate) :
    Grows late bins (place compatible grown candidate) := by
  induction h with
  | opened h =>
      refine .opened fun x hx => ?_
      rcases mem_flatten_place.mp hx with hx | rfl
      · exact h x hx
      · exact hlate
  | @extended bin added bins grown h hrest ih =>
      rw [Partition.place]
      split
      · rw [List.append_assoc]
        exact .extended (List.forall_mem_append.mpr ⟨h, by simpa using hlate⟩)
          hrest
      · exact .extended h ih

theorem firstFit_append_grows (candidates : List α) {more : List α}
    (h : ∀ x ∈ more, late x) :
    Grows late (firstFit compatible candidates)
      (firstFit compatible (candidates ++ more)) := by
  rw [firstFit, firstFit, List.foldl_append]
  generalize candidates.foldl (place compatible) [] = bins
  suffices hgrows : ∀ grown, Grows late bins grown →
      Grows late bins (more.foldl (Partition.place compatible) grown) from
    hgrows bins (.refl late bins)
  intro grown hgrown
  induction more generalizing grown with
  | nil => exact hgrown
  | cons candidate rest ih =>
      obtain ⟨hfirst, hrest⟩ := List.forall_mem_cons.mp h
      exact ih hrest _ (hgrown.place hfirst)

end Bins

def placedBins {α : Type} (compatible : α → α → Bool) (candidates : List α) :
    List (List (α × Nat)) :=
  firstFit (fun x y => compatible x.1 y.1) candidates.zipIdx

/-- The cliques are the bins of one pass that hold two candidates or more.  More
candidates behind the others go to the ends of the bins or into new ones, and
the others stay where they are. -/
theorem cliques_first_fit {α ε : Type} (compatible : α → α → Bool)
    (candidates : List α) :
    Partition.cliques (fun x y => (.ok (compatible x y) : Except ε Bool))
        candidates =
      .ok ((firstFit compatible candidates).filter fun bin => 1 < bin.length) ∧
      (placedBins compatible candidates).map (List.map Prod.fst) =
        firstFit compatible candidates ∧
      ∀ more, Grows (fun x => candidates.length ≤ x.2)
        (placedBins compatible candidates)
        (placedBins compatible (candidates ++ more)) := by
  refine ⟨?_, ?_, fun more => ?_⟩
  · rw [firstFit_eq_groups]
    exact cliques_eq_pure fun _ _ _ _ => rfl
  · rw [placedBins, firstFit_eq_groups, firstFit_eq_groups, ← groups_map,
      List.zipIdx_map_fst]
  · rw [placedBins, placedBins, List.zipIdx_append]
    refine firstFit_append_grows _ fun x hx => ?_
    obtain ⟨hle, _⟩ := List.mem_zipIdx hx
    omega

end ShapeMerge.Partition
