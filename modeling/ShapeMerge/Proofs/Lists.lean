import Mathlib.Data.List.Forall2
import Mathlib.Data.List.Nodup
import Mathlib.Data.List.Pairwise
import Mathlib.Data.List.Perm.Subperm

namespace ShapeMerge

theorem or_of_pairwise {related : α → α → Prop} {xs : List α}
    (h : xs.Pairwise related) {x y : α} (hx : x ∈ xs) (hy : y ∈ xs)
    (hne : x ≠ y) : related x y ∨ related y x := by
  have hsymm : Std.Symm fun x y => related x y ∨ related y x :=
    ⟨fun _ _ => Or.symm⟩
  have hboth : xs.Pairwise fun x y => related x y ∨ related y x := h.imp Or.inl
  exact hboth.forall hx hy hne

theorem pair_sublist_append {before : List α} {x : α} (h : x ∈ before)
    (behind : List α) : [x, x].Sublist (before ++ x :: behind) :=
  (List.singleton_sublist.mpr h).append
    (List.singleton_sublist.mpr List.mem_cons_self)

theorem findSome?_eq_some_iff_of_pairwise {precedes : α → α → Prop}
    (hasymm : ∀ x y, precedes x y → ¬ precedes y x) {xs : List α}
    (h : xs.Pairwise precedes) {f : α → Option β} {b : β} :
    xs.findSome? f = some b ↔
      ∃ x ∈ xs, f x = some b ∧ ∀ y ∈ xs, precedes y x → f y = none := by
  constructor
  · intro hfound
    obtain ⟨before, x, behind, rfl, hx, hnone⟩ :=
      List.findSome?_eq_some_iff.mp hfound
    refine ⟨x, List.mem_append_right before List.mem_cons_self, hx,
      fun y hy hprecedes => ?_⟩
    rw [List.pairwise_append, List.pairwise_cons] at h
    rcases List.mem_append.mp hy with hbefore | hrest
    · exact hnone y hbefore
    · rcases List.mem_cons.mp hrest with rfl | hbehind
      · exact absurd hprecedes (hasymm y y hprecedes)
      · exact absurd hprecedes (hasymm x y (h.2.1.1 y hbehind))
  · rintro ⟨x, hmem, hx, hfirst⟩
    obtain ⟨before, behind, rfl⟩ := List.append_of_mem hmem
    refine List.findSome?_eq_some_iff.mpr
      ⟨before, x, behind, rfl, hx, fun y hy => ?_⟩
    exact hfirst y (List.mem_append_left _ hy)
      ((List.pairwise_append.mp h).2.2 y hy x List.mem_cons_self)

theorem eraseDups_eq_self [BEq α] [LawfulBEq α] {xs : List α} (h : xs.Nodup) :
    xs.eraseDups = xs := by
  induction xs with
  | nil => rfl
  | cons x xs ih =>
      rw [List.nodup_cons] at h
      have hfilter : xs.filter (fun y => !y == x) = xs := by
        rw [List.filter_eq_self]
        intro y hy
        have hne : y ≠ x := fun heq => h.1 (heq ▸ hy)
        simpa using hne
      rw [List.eraseDups_cons, hfilter, ih h.2]

theorem nodup_eraseDups [BEq α] [LawfulBEq α] :
    (xs : List α) → xs.eraseDups.Nodup
  | [] => List.nodup_nil
  | x :: xs => by
      rw [List.eraseDups_cons, List.nodup_cons, List.mem_eraseDups]
      exact ⟨by simp, nodup_eraseDups _⟩
termination_by xs => xs.length
decreasing_by exact Nat.lt_succ_of_le (List.length_filter_le _ _)

theorem removeAll_congr [BEq α] [LawfulBEq α] {xs ys : List α}
    (h : ∀ x, x ∈ xs ↔ x ∈ ys) (zs : List α) :
    zs.removeAll xs = zs.removeAll ys := by
  refine List.filter_congr fun z _ => congrArg (!·) ?_
  rw [Bool.eq_iff_iff, List.elem_iff, List.elem_iff, h]

theorem eraseDups_eraseDups_append [BEq α] [LawfulBEq α] (xs ys : List α) :
    (xs.eraseDups ++ ys).eraseDups = (xs ++ ys).eraseDups := by
  rw [List.eraseDups_append, List.eraseDups_append,
    eraseDups_eq_self (nodup_eraseDups xs),
    removeAll_congr fun _ => List.mem_eraseDups]

theorem eraseDups_append_of_subset [BEq α] [LawfulBEq α] {xs ys : List α}
    (h : ∀ y ∈ ys, y ∈ xs) (zs : List α) :
    (xs ++ (ys ++ zs)).eraseDups = (xs ++ zs).eraseDups := by
  have hnone : ys.removeAll xs = [] := by
    simpa [List.removeAll] using h
  have hsame (x : α) : x ∈ xs ++ ys ↔ x ∈ xs := by
    simpa using h x
  rw [← List.append_assoc, List.eraseDups_append,
    List.eraseDups_append, hnone, removeAll_congr hsame,
    List.eraseDups_append, List.eraseDups_nil, List.append_nil]

theorem exists_ne_of_nodup {xs : List α} (h : xs.Nodup) (hlong : 2 ≤ xs.length)
    (x : α) : ∃ y ∈ xs, y ≠ x := by
  by_contra hnone
  have hall : xs ⊆ [x] := by
    intro y hy
    by_contra hne
    exact hnone ⟨y, hy, fun heq => hne (heq ▸ List.mem_singleton_self y)⟩
  exact absurd (h.subperm hall).length_le (Nat.not_le.mpr hlong)

theorem length_flatten_tails {blocks : List (List α)}
    (h : ∀ block ∈ blocks, block ≠ []) :
    (blocks.map List.tail).flatten.length + blocks.length =
      blocks.flatten.length := by
  induction blocks with
  | nil => rfl
  | cons block rest ih =>
      obtain ⟨hblock, hrest⟩ := List.forall_mem_cons.mp h
      have hpos := List.length_pos_of_ne_nil hblock
      simp only [List.map_cons, List.flatten_cons, List.length_append,
        List.length_tail, List.length_cons, ← ih hrest]
      omega

theorem length_lt_length_flatten {blocks : List (List α)}
    (h : ∀ block ∈ blocks, 1 < block.length) (hblocks : blocks ≠ []) :
    blocks.length < blocks.flatten.length := by
  obtain ⟨block, hblock⟩ := List.exists_mem_of_ne_nil blocks hblocks
  have htails := length_flatten_tails fun block hblock =>
    List.ne_nil_of_length_pos (Nat.zero_lt_of_lt (h block hblock))
  have htail := (List.sublist_flatten_of_mem
    (List.mem_map_of_mem (f := List.tail) hblock)).length_le
  have hlong := h block hblock
  rw [List.length_tail] at htail
  omega

/-- If all of some disjoint blocks but the first of each are taken out of a
list, as many elements are left as if every block had been replaced by one
element. -/
theorem length_filter_heads {xs : List α}
    (hxs : xs.Nodup) {blocks : List (List α)}
    (hblocks : blocks.flatten.Nodup) (hsub : ∀ x ∈ blocks.flatten, x ∈ xs)
    (hnonempty : ∀ block ∈ blocks, block ≠ []) {stays : α → Bool}
    (hstays : ∀ x, stays x = true ↔
      ∀ block ∈ blocks, x ∈ block → block.head? = some x) :
    (xs.filter stays).length + blocks.flatten.length =
      xs.length + blocks.length := by
  have htails : (blocks.map List.tail).flatten.Nodup := by
    rw [List.nodup_flatten] at hblocks ⊢
    refine ⟨fun tail htail => ?_,
      List.pairwise_map.mpr (hblocks.2.imp fun hapart => ?_)⟩
    · obtain ⟨block, hblock, rfl⟩ := List.mem_map.mp htail
      exact (hblocks.1 block hblock).tail
    · exact fun x hx hx' =>
        hapart (List.mem_of_mem_tail hx) (List.mem_of_mem_tail hx')
  have htaken :
      (xs.filter fun x => !stays x).Perm (blocks.map List.tail).flatten := by
    rw [List.perm_ext_iff_of_nodup (hxs.filter _) htails]
    intro x
    rw [List.mem_filter, Bool.not_eq_true', Bool.eq_false_iff, ne_eq, hstays,
      List.mem_flatten]
    constructor
    · rintro ⟨_, hleaves⟩
      push Not at hleaves
      obtain ⟨block, hblock, hx, hhead⟩ := hleaves
      refine ⟨block.tail, List.mem_map_of_mem hblock, ?_⟩
      cases block with
      | nil => cases hx
      | cons first rest =>
          exact (List.mem_cons.mp hx).resolve_left fun heq =>
            hhead (congrArg some heq.symm)
    · rintro ⟨tail, htail, hx⟩
      obtain ⟨block, hblock, rfl⟩ := List.mem_map.mp htail
      have hmem := List.mem_of_mem_tail hx
      refine ⟨hsub x (List.mem_flatten_of_mem hblock hmem), fun hall => ?_⟩
      obtain ⟨rest, rfl⟩ := List.head?_eq_some_iff.mp (hall block hblock hmem)
      exact (List.nodup_cons.mp ((List.nodup_flatten.mp hblocks).1 _ hblock)).1
        hx
  have hlength := htaken.length_eq
  have hsplit := List.length_eq_length_filter_add (l := xs) stays
  have hcount := length_flatten_tails hnonempty
  omega

theorem exists_getElem?_of_forall₂ {related : α → β → Prop} {xs : List α}
    {ys : List β} (h : List.Forall₂ related xs ys) {index : Nat} {x : α}
    (hx : xs[index]? = some x) : ∃ y, ys[index]? = some y ∧ related x y := by
  induction h generalizing index with
  | nil => cases hx
  | cons hrelated _ ih =>
      cases index with
      | zero =>
          cases hx
          exact ⟨_, rfl, hrelated⟩
      | succ index => exact ih hx

theorem exists_of_forall₂ {related : α → β → Prop} {xs : List α} {ys : List β}
    (h : List.Forall₂ related xs ys) {x : α} (hx : x ∈ xs) :
    ∃ y ∈ ys, related x y := by
  obtain ⟨index, hindex⟩ := List.mem_iff_getElem?.mp hx
  obtain ⟨y, hy, hrelated⟩ := exists_getElem?_of_forall₂ h hindex
  exact ⟨y, List.mem_of_getElem? hy, hrelated⟩

theorem map_eq_map_of_forall₂ {f : α → γ} {g : β → γ} {xs : List α}
    {ys : List β} (h : List.Forall₂ (fun x y => f x = g y) xs ys) :
    xs.map f = ys.map g := by
  induction h with
  | nil => rfl
  | cons heq _ ih => rw [List.map_cons, List.map_cons, heq, ih]

end ShapeMerge
