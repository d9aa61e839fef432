import Mathlib.Data.List.Perm.Basic
import ShapeMerge.Partition
import ShapeMerge.Proofs.Lists
import ShapeMerge.Proofs.Success

namespace ShapeMerge.Partition

section Groups

variable {α : Type}

def divide (compatible : α → α → Bool) (members : List α) :
    List α → List α × List α
  | [] => (members, [])
  | candidate :: rest =>
      if members.all (compatible · candidate) then
        divide compatible (members ++ [candidate]) rest
      else
        ((divide compatible members rest).1,
          candidate :: (divide compatible members rest).2)

variable {compatible : α → α → Bool}

theorem length_divide_le (members candidates : List α) :
    (divide compatible members candidates).2.length ≤ candidates.length := by
  induction candidates generalizing members with
  | nil => exact Nat.le_refl 0
  | cons candidate rest ih =>
      rw [divide]
      split
      · exact Nat.le_succ_of_le (ih _)
      · exact Nat.succ_le_succ (ih _)

def groups (compatible : α → α → Bool) : List α → List (List α)
  | [] => []
  | seed :: rest =>
      (divide compatible [seed] rest).1 ::
        groups compatible (divide compatible [seed] rest).2
termination_by candidates => candidates.length
decreasing_by exact Nat.lt_succ_of_le (length_divide_le _ _)

theorem divide_perm (members candidates : List α) :
    ((divide compatible members candidates).1 ++
      (divide compatible members candidates).2).Perm
      (members ++ candidates) := by
  induction candidates generalizing members with
  | nil => exact List.Perm.refl _
  | cons candidate rest ih =>
      rw [divide]
      split
      · simpa using ih (members ++ [candidate])
      · refine List.perm_middle.trans (List.Perm.trans ?_ List.perm_middle.symm)
        exact (ih members).cons candidate

theorem divide_pairwise {members : List α} (candidates : List α)
    (h : members.Pairwise fun x y => compatible x y = true) :
    (divide compatible members candidates).1.Pairwise fun x y =>
      compatible x y = true := by
  induction candidates generalizing members with
  | nil => exact h
  | cons candidate rest ih =>
      rw [divide]
      split
      · rename_i hall
        apply ih
        rw [List.pairwise_append]
        refine ⟨h, List.pairwise_singleton _ _,
          fun member hmember other hother => ?_⟩
        rw [List.mem_singleton] at hother
        subst hother
        exact List.all_eq_true.mp hall member hmember
      · exact ih h

theorem divide_of_pairwise {members candidates : List α}
    (h : (members ++ candidates).Pairwise fun x y => compatible x y = true) :
    divide compatible members candidates = (members ++ candidates, []) := by
  induction candidates generalizing members with
  | nil => rw [divide, List.append_nil]
  | cons candidate rest ih =>
      have hall : members.all (compatible · candidate) = true :=
        List.all_eq_true.mpr fun member hmember =>
          (List.pairwise_append.mp h).2.2 member hmember candidate
            List.mem_cons_self
      rw [← List.singleton_append, ← List.append_assoc] at h
      rw [divide, if_pos hall, ih h, List.append_assoc, List.singleton_append]

theorem divide_starts (compatible : α → α → Bool)
    (members candidates : List α) :
    members.IsPrefix (divide compatible members candidates).1 := by
  induction candidates generalizing members with
  | nil => exact List.prefix_refl members
  | cons candidate rest ih =>
      rw [divide]
      split
      · exact (List.prefix_append members [candidate]).trans (ih _)
      · exact ih members

theorem mem_divide {members : List α} (candidates : List α) {member : α}
    (h : member ∈ members) :
    member ∈ (divide compatible members candidates).1 :=
  (divide_starts compatible members candidates).subset h

theorem divide_sublists (compatible : α → α → Bool)
    (members candidates : List α) :
    (divide compatible members candidates).1.Sublist (members ++ candidates) ∧
      (divide compatible members candidates).2.Sublist candidates := by
  induction candidates generalizing members with
  | nil => exact ⟨by rw [List.append_nil]; exact .refl members, .slnil⟩
  | cons candidate rest ih =>
      rw [divide]
      split
      · obtain ⟨htaken, hleft⟩ := ih (members ++ [candidate])
        rw [List.append_assoc] at htaken
        exact ⟨htaken, hleft.cons candidate⟩
      · obtain ⟨htaken, hleft⟩ := ih members
        exact ⟨htaken.trans ((List.sublist_cons_self candidate rest).append_left
          members), hleft.cons_cons candidate⟩

/-- A candidate that waits was refused by a member that comes before it. -/
theorem exists_refusal {before : α → α → Prop} {members candidates : List α}
    {candidate : α} (hordered : (members ++ candidates).Pairwise before)
    (h : candidate ∈ (divide compatible members candidates).2) :
    ∃ member ∈ (divide compatible members candidates).1,
      before member candidate ∧ compatible member candidate = false := by
  induction candidates generalizing members with
  | nil => cases h
  | cons first rest ih =>
      rw [divide] at h ⊢
      split at h
      · rename_i hall
        rw [if_pos hall]
        exact ih (by simpa using hordered) h
      · rename_i hrefused
        rw [if_neg hrefused]
        rcases List.mem_cons.mp h with rfl | hwaits
        · have hsome :
              ∃ member ∈ members, compatible member candidate = false := by
            simpa using hrefused
          obtain ⟨member, hmember, hrefuses⟩ := hsome
          have hbefore := (List.pairwise_append.mp hordered).2.2 member hmember
            candidate List.mem_cons_self
          exact ⟨member, mem_divide rest hmember, hbefore, hrefuses⟩
        · have hsublist :=
            (List.sublist_cons_self first rest).append_left members
          exact ih (hordered.sublist hsublist) hwaits

/-- Walking over views of the candidates is viewing the outcome of the walk. -/
theorem divide_map {β : Type} (view : β → α) (members candidates : List β) :
    divide compatible (members.map view) (candidates.map view) = ((divide
      (fun x y => compatible (view x) (view y)) members candidates).1.map view,
      (divide (fun x y => compatible (view x) (view y)) members
        candidates).2.map view) := by
  induction candidates generalizing members with
  | nil => rfl
  | cons candidate rest ih =>
      have hall : (members.map view).all (compatible · (view candidate)) =
          members.all fun member => compatible (view member) (view candidate) :=
        List.all_map
      rw [List.map_cons, divide, divide, hall]
      split
      · rw [← ih, List.map_append, List.map_singleton]
      · rw [ih, List.map_cons]

theorem groups_cons (seed : α) (rest : List α) :
    groups compatible (seed :: rest) = (divide compatible [seed] rest).1 ::
      groups compatible (divide compatible [seed] rest).2 := by
  rw [groups]

theorem groups_of_pairwise {seed : α} {rest : List α}
    (h : (seed :: rest).Pairwise fun x y => compatible x y = true) :
    groups compatible (seed :: rest) = [seed :: rest] := by
  rw [groups_cons, divide_of_pairwise h, groups]
  rfl

theorem groups_flatten_perm (candidates : List α) :
    (groups compatible candidates).flatten.Perm candidates := by
  induction candidates using groups.induct compatible with
  | case1 => rw [groups]; exact List.Perm.nil
  | case2 seed rest ih =>
      rw [groups_cons, List.flatten_cons]
      exact (ih.append_left _).trans (divide_perm [seed] rest)

theorem groups_compatible {candidates block : List α}
    (h : block ∈ groups compatible candidates) :
    block.Pairwise fun x y => compatible x y = true := by
  induction candidates using groups.induct compatible with
  | case1 => rw [groups] at h; cases h
  | case2 seed rest ih =>
      rw [groups_cons, List.mem_cons] at h
      rcases h with rfl | h
      · exact divide_pairwise rest (List.pairwise_singleton _ _)
      · exact ih h

theorem groups_sublist {candidates block : List α}
    (h : block ∈ groups compatible candidates) : block.Sublist candidates := by
  induction candidates using groups.induct compatible with
  | case1 => rw [groups] at h; cases h
  | case2 seed rest ih =>
      obtain ⟨htaken, hleft⟩ := divide_sublists compatible [seed] rest
      rw [groups_cons, List.mem_cons] at h
      rcases h with rfl | h
      · exact htaken
      · exact (ih h).trans (hleft.cons seed)

theorem groups_ordered {candidates : List α} {before : α → α → Prop}
    (h : candidates.Pairwise before) :
    (groups compatible candidates).Pairwise fun earlier later =>
      ∀ seed ∈ earlier.head?, ∀ candidate ∈ later, before seed candidate := by
  induction candidates using groups.induct compatible with
  | case1 => rw [groups]; exact List.Pairwise.nil
  | case2 seed rest ih =>
      rw [List.pairwise_cons] at h
      have hleft := (divide_sublists compatible [seed] rest).2
      obtain ⟨others, hothers⟩ := divide_starts compatible [seed] rest
      rw [groups_cons, List.pairwise_cons]
      refine ⟨fun later hlater first hfirst candidate hcandidate => ?_,
        ih (h.2.sublist hleft)⟩
      rw [← hothers] at hfirst
      obtain rfl := Option.some.inj hfirst
      exact h.1 candidate
        (hleft.subset ((groups_sublist hlater).subset hcandidate))

theorem groups_refuse {candidates : List α} {before : α → α → Prop}
    (h : candidates.Pairwise before) :
    (groups compatible candidates).Pairwise fun earlier later =>
      ∀ candidate ∈ later, ∃ member ∈ earlier, before member candidate ∧
        compatible member candidate = false := by
  induction candidates using groups.induct compatible with
  | case1 => rw [groups]; exact List.Pairwise.nil
  | case2 seed rest ih =>
      have hleft := (divide_sublists compatible [seed] rest).2
      rw [groups_cons, List.pairwise_cons]
      refine ⟨fun later hlater candidate hcandidate => exists_refusal h ?_,
        ih (h.sublist (hleft.cons seed))⟩
      exact (groups_flatten_perm _).mem_iff.mp
        (List.mem_flatten_of_mem hlater hcandidate)

theorem groups_ne_nil {candidates block : List α}
    (h : block ∈ groups compatible candidates) : block ≠ [] := by
  induction candidates using groups.induct compatible with
  | case1 => rw [groups] at h; cases h
  | case2 seed rest ih =>
      rw [groups_cons, List.mem_cons] at h
      rcases h with rfl | h
      · exact List.ne_nil_of_mem (mem_divide rest List.mem_cons_self)
      · exact ih h

theorem groups_map {β : Type} (view : β → α) (candidates : List β) :
    groups compatible (candidates.map view) =
      (groups (fun x y => compatible (view x) (view y)) candidates).map
        (List.map view) := by
  induction candidates using groups.induct fun x y =>
    compatible (view x) (view y) with
  | case1 => rw [List.map_nil, groups, groups, List.map_nil]
  | case2 seed rest ih =>
      rw [List.map_cons, groups_cons, groups_cons, ← List.map_singleton,
        divide_map, List.map_cons, ← ih]

end Groups

section Effects

variable {α : Type} {m : Type → Type} [Monad m] [LawfulMonad m]
  {compatible : α → α → m Bool} {answer : α → α → Bool}

theorem admits_eq_pure {candidate : α} {members : List α}
    (h : ∀ member ∈ members,
      compatible member candidate = pure (answer member candidate)) :
    admits compatible candidate members =
      pure (members.all (answer · candidate)) := by
  induction members with
  | nil => rfl
  | cons member rest ih =>
      obtain ⟨hfirst, hrest⟩ := List.forall_mem_cons.mp h
      rw [admits, hfirst, pure_bind, List.all_cons]
      cases answer member candidate with
      | true => exact ih hrest
      | false => rfl

theorem walk_eq_pure {members candidates : List α}
    (h : ∀ x ∈ members ++ candidates, ∀ y ∈ candidates,
      compatible x y = pure (answer x y)) :
    walk compatible members candidates =
      pure ⟨divide answer members candidates,
        length_divide_le members candidates⟩ := by
  induction candidates generalizing members with
  | nil => rfl
  | cons candidate rest ih =>
      have hadmits : admits compatible candidate members =
          pure (members.all (answer · candidate)) :=
        admits_eq_pure fun member hmember =>
          h member (List.mem_append_left _ hmember) candidate List.mem_cons_self
      have hjoined := @ih (members ++ [candidate]) fun x hx y hy =>
        h x (by simpa using hx) y (List.mem_cons_of_mem _ hy)
      have hwaiting := @ih members fun x hx y hy =>
        h x (by simp only [List.mem_append, List.mem_cons] at hx ⊢; tauto) y
          (List.mem_cons_of_mem _ hy)
      rw [walk, hadmits, pure_bind]
      cases hall : members.all (answer · candidate) with
      | true => simp [divide, hall, hjoined]
      | false => simp [divide, hall, hwaiting]

theorem blocks_eq_pure {candidates : List α}
    (h : ∀ x ∈ candidates, ∀ y ∈ candidates,
      compatible x y = pure (answer x y)) :
    blocks compatible candidates = pure (groups answer candidates) := by
  induction candidates using groups.induct answer with
  | case1 => rw [blocks, groups]
  | case2 seed rest ih =>
      have hwaiting {x : α} (hx : x ∈ (divide answer [seed] rest).2) :
          x ∈ seed :: rest :=
        (divide_perm [seed] rest).mem_iff.mp (List.mem_append_right _ hx)
      have hwalk : ∀ x ∈ [seed] ++ rest,
        ∀ y ∈ rest, compatible x y = pure (answer x y) :=
        fun x hx y hy => h x hx y (List.mem_cons_of_mem _ hy)
      rw [blocks, walk_eq_pure hwalk, pure_bind, groups_cons]
      simp only [ih fun x hx y hy => h x (hwaiting hx) y (hwaiting hy),
        pure_bind]

theorem cliques_eq_pure {candidates : List α}
    (h : ∀ x ∈ candidates, ∀ y ∈ candidates,
      compatible x y = pure (answer x y)) :
    Partition.cliques compatible candidates =
      pure ((groups answer candidates).filter fun block =>
        1 < block.length) := by
  rw [Partition.cliques, blocks_eq_pure h, pure_bind]

end Effects

section Failure

variable {α ε : Type} {compatible : α → α → Except ε Bool}

def accepts (compatible : α → α → Except ε Bool) (x y : α) : Bool :=
  match compatible x y with
  | .ok answer => answer
  | .error _ => false

theorem accepts_eq_true_iff {x y : α} :
    accepts compatible x y = true ↔ compatible x y = .ok true := by
  unfold accepts
  split <;> simp_all

theorem admits_eq_ok {candidate : α} {members : List α} {answer : Bool}
    (h : admits compatible candidate members = .ok answer) :
    answer = members.all (accepts compatible · candidate) := by
  induction members with
  | nil => exact (Except.ok.inj h).symm
  | cons member rest ih =>
      obtain ⟨first, hfirst, hrest⟩ := bind_eq_ok_iff.mp h
      rw [List.all_cons, accepts, hfirst]
      cases first with
      | true => exact ih hrest
      | false => exact (Except.ok.inj hrest).symm

theorem walk_eq_ok {members candidates : List α} {walked : Walk α candidates}
    (h : walk compatible members candidates = .ok walked) :
    walked.val = divide (accepts compatible) members candidates := by
  induction candidates generalizing members with
  | nil => rw [← Except.ok.inj h]; rfl
  | cons candidate rest ih =>
      rw [walk] at h
      obtain ⟨answer, hanswer, hrest⟩ := bind_eq_ok_iff.mp h
      rw [divide, ← admits_eq_ok hanswer]
      cases answer with
      | true =>
          obtain ⟨⟨⟨all, waiting⟩, hle⟩, hwalked, hresult⟩ :=
            bind_eq_ok_iff.mp hrest
          rw [if_pos rfl, ← ih hwalked, ← Except.ok.inj hresult]
      | false =>
          obtain ⟨⟨⟨all, waiting⟩, hle⟩, hwalked, hresult⟩ :=
            bind_eq_ok_iff.mp hrest
          rw [if_neg Bool.false_ne_true, ← ih hwalked, ← Except.ok.inj hresult]

theorem blocks_eq_ok {candidates : List α} {all : List (List α)}
    (h : blocks compatible candidates = .ok all) :
    all = groups (accepts compatible) candidates := by
  induction candidates using groups.induct (accepts compatible)
    generalizing all with
  | case1 =>
      rw [blocks] at h
      rw [groups, ← Except.ok.inj h]
  | case2 seed rest ih =>
      rw [blocks] at h
      obtain ⟨⟨⟨members, waiting⟩, hle⟩, hwalked, hothers⟩ :=
        bind_eq_ok_iff.mp h
      obtain ⟨others, hblocks, hresult⟩ := bind_eq_ok_iff.mp hothers
      have hdivide := walk_eq_ok hwalked
      rw [groups_cons, ← hdivide, ← Except.ok.inj hresult]
      rw [← hdivide] at ih
      rw [ih hblocks]

theorem cliques_eq_ok {candidates : List α} {cliques : List (List α)}
    (h : Partition.cliques compatible candidates = .ok cliques) :
    cliques = (groups (accepts compatible) candidates).filter fun block =>
      1 < block.length := by
  obtain ⟨all, hall, hresult⟩ := bind_eq_ok_iff.mp h
  rw [← blocks_eq_ok hall, ← Except.ok.inj hresult]

theorem exists_cliques_eq_ok {candidates : List α} (h : ∀ x ∈ candidates,
      ∀ y ∈ candidates, ∃ answer, compatible x y = .ok answer) :
    ∃ cliques, Partition.cliques compatible candidates = .ok cliques := by
  have hpure : ∀ x ∈ candidates, ∀ y ∈ candidates,
      compatible x y = pure (accepts compatible x y) := by
    intro x hx y hy
    obtain ⟨answer, hanswer⟩ := h x hx y hy
    rw [accepts, hanswer]
    rfl
  exact ⟨_, cliques_eq_pure hpure⟩

end Failure

end ShapeMerge.Partition
