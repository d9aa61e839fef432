import ShapeMerge.Proofs.Exploration.Closure
import ShapeMerge.Proofs.Lists
import ShapeMerge.Proofs.Success

namespace ShapeMerge.Exploration

/-!
What an exploration visits and in which order.  It visits what can be reached,
and it fails if a step fails somewhere there.  That all branches share one list
of visited elements changes nothing: a walk along every path, on which only the
path itself counts as visited, meets the same elements for the first time in the
same order and fails at the same place.
-/

variable {step : α → Except ε (List α)}

def Leads (step : α → Except ε (List α)) (x y : α) : Prop :=
  ∃ next, step x = .ok next ∧ y ∈ next

abbrev Reaches (step : α → Except ε (List α)) : α → α → Prop :=
  Relation.ReflTransGen (Leads step)

theorem Move.reached {start : α}
    {before after : List α × List α} (h : Move step before after)
    (hbefore : ∀ x, Known before x → Reaches step start x) (x : α)
    (hx : Known after x) : Reaches step start x := by
  cases h with
  | visited hseen => exact hbefore x (hx.imp_right (List.mem_cons_of_mem _))
  | @fresh current work seen next hnew hstep =>
      have hcurrent : Reaches step start current :=
        hbefore current (Or.inr List.mem_cons_self)
      rcases hx with hold | hwaiting
      · rcases List.mem_cons.mp hold with rfl | hold
        · exact hcurrent
        · exact hbefore x (Or.inl hold)
      · rcases List.mem_append.mp hwaiting with hnext | hwaiting
        · exact hcurrent.tail ⟨next, hstep, hnext⟩
        · exact hbefore x (Or.inr (List.mem_cons_of_mem _ hwaiting))

variable [DecidableEq α]

section Reached

variable (bounded : Bounded step) {start x : α} {visited : List α}

theorem mem_explore_iff (h : explore step bounded [start] [] = .ok visited) :
    x ∈ visited ↔ Reaches step start x := by
  constructor
  · intro hx
    have hreached :=
      explore_preserves (fun state => ∀ x, Known state x → Reaches step start x)
        (fun hmove hbefore => hmove.reached hbefore) bounded h fun x hx => by
        rcases hx with hold | hwaiting
        · cases hold
        · rw [List.mem_singleton.mp hwaiting]
    exact hreached x (Or.inl (List.mem_reverse.mpr hx))
  · intro hreaches
    have hclosed := closed_of_explore bounded h (List.forall_mem_nil _)
    induction hreaches with
    | refl => exact mem_of_explore bounded h (Or.inr List.mem_cons_self)
    | tail _ hlast ih =>
        obtain ⟨next, hstep, hnext⟩ := hlast
        obtain ⟨others, hothers, hall⟩ := hclosed _ ih
        rw [hstep] at hothers
        cases hothers
        exact hall _ hnext

theorem exists_of_explore_error {work seen : List α} {error : ε}
    (h : explore step bounded work seen = .error error)
    (hwork : ∀ x ∈ work, Reaches step start x) :
    ∃ x, Reaches step start x ∧ step x = .error error := by
  induction work, seen using explore.induct step bounded with
  | case1 seen =>
      rw [explore_nil] at h
      cases h
  | case2 x work seen hseen ih =>
      rw [explore_visited bounded work hseen] at h
      exact ih h fun y hy => hwork y (List.mem_cons_of_mem x hy)
  | case3 x work seen hnew fault hstep =>
      rw [explore_failed bounded work hnew hstep] at h
      cases h
      exact ⟨x, hwork x List.mem_cons_self, hstep⟩
  | case4 x work seen hnew next hstep ih =>
      rw [explore_fresh bounded work hnew hstep] at h
      refine ih h fun y hy => ?_
      rcases List.mem_append.mp hy with hnext | hwaiting
      · exact (hwork x List.mem_cons_self).tail ⟨next, hstep, hnext⟩
      · exact hwork y (List.mem_cons_of_mem x hwaiting)

theorem explore_failed_iff :
    (∃ error, explore step bounded [start] [] = .error error) ↔
      ∃ x error, Reaches step start x ∧ step x = .error error := by
  constructor
  · intro h
    obtain ⟨error, herror⟩ := h
    obtain ⟨x, hreaches, hstep⟩ := exists_of_explore_error bounded herror
      (List.forall_mem_singleton.mpr .refl)
    exact ⟨x, error, hreaches, hstep⟩
  · intro h
    obtain ⟨x, error, hreaches, hstep⟩ := h
    cases hexplore : explore step bounded [start] [] with
    | error fault => exact ⟨fault, rfl⟩
    | ok visited =>
        obtain ⟨next, hnext, _⟩ :=
          closed_of_explore bounded hexplore (List.forall_mem_nil _) x
            ((mem_explore_iff bounded hexplore).mpr hreaches)
        rw [hstep] at hnext
        cases hnext

end Reached

section Walk

/-- The steps along every path from `work`, in depth-first order.  Only an
element of the path that leads to it is passed over, so what is reached in
several ways occurs several times. -/
def walk (step : α → Except ε (List α)) (bounded : Bounded step) :
    (path work : List α) → Except ε (List α)
  | _, [] => .ok []
  | path, x :: work =>
      if x ∈ path then walk step bounded path work
      else
        match _h : step x with
        | .error error => .error error
        | .ok next => do
            let below ← walk step bounded (x :: path) next
            let others ← walk step bounded path work
            return x :: below ++ others
termination_by path work => (remaining bounded.choose path, work.length)
decreasing_by
  · exact Prod.Lex.right _ (Nat.lt_succ_self _)
  · rename_i hnew
    have hprogress := progress_of_fresh bounded work hnew _h
    rw [Prod.lex_def] at hprogress ⊢
    rw [List.length_append] at hprogress
    omega
  · exact Prod.Lex.right _ (Nat.lt_succ_self _)

variable (bounded : Bounded step) {x : α} {path work seen found next : List α}

theorem walk_nil (path : List α) : walk step bounded path [] = .ok [] := by
  rw [walk]

theorem walk_again (work : List α) (h : x ∈ path) :
    walk step bounded path (x :: work) = walk step bounded path work := by
  rw [walk, if_pos h]

theorem walk_failed {error : ε} (work : List α) (h : x ∉ path)
    (hstep : step x = .error error) :
    walk step bounded path (x :: work) = .error error := by
  rw [walk, if_neg h]
  split <;> simp_all

theorem walk_onward (work : List α) (h : x ∉ path) (hstep : step x = .ok next) :
    walk step bounded path (x :: work) = (do
      let below ← walk step bounded (x :: path) next
      let others ← walk step bounded path work
      return x :: below ++ others) := by
  rw [walk, if_neg h]
  split <;> simp_all

theorem walk_onward_eq_ok_iff (work : List α) (h : x ∉ path)
    (hstep : step x = .ok next) :
    walk step bounded path (x :: work) = .ok found ↔
      ∃ below others, walk step bounded (x :: path) next = .ok below ∧
        walk step bounded path work = .ok others ∧
        found = x :: below ++ others := by
  simp only [walk_onward bounded work h hstep, bind_eq_ok_iff, pure_eq_ok_iff]
  constructor
  · intro hfound
    obtain ⟨below, hbelow, others, hothers, heq⟩ := hfound
    exact ⟨below, others, hbelow, hothers, heq⟩
  · intro hfound
    obtain ⟨below, others, hbelow, hothers, heq⟩ := hfound
    exact ⟨below, hbelow, others, hothers, heq⟩

/-- What a walk finds has all that it started from and all that its steps lead
to, apart from the path that leads to it. -/
structure Covers (step : α → Except ε (List α))
    (path work found : List α) : Prop where
  work : ∀ x ∈ work, x ∈ path ∨ x ∈ found
  expanded :
    ∀ x ∈ found, ∃ next, step x = .ok next ∧ ∀ y ∈ next, y ∈ path ∨ y ∈ found

theorem covers_of_walk (h : walk step bounded path work = .ok found) :
    Covers step path work found := by
  induction path, work using walk.induct step bounded generalizing found with
  | case1 path =>
      rw [walk_nil] at h
      cases h
      exact ⟨List.forall_mem_nil _, List.forall_mem_nil _⟩
  | case2 path x work hpath ih =>
      rw [walk_again bounded work hpath] at h
      exact ⟨List.forall_mem_cons.mpr ⟨Or.inl hpath, (ih h).work⟩,
        (ih h).expanded⟩
  | case3 path x work hnew error hstep =>
      rw [walk_failed bounded work hnew hstep] at h
      cases h
  | case4 path x work hnew next hstep ihbelow ihothers =>
      obtain ⟨below, others, hbelow, hothers, rfl⟩ :=
        (walk_onward_eq_ok_iff bounded work hnew hstep).mp h
      have hfirst := ihbelow hbelow
      have hrest := ihothers hothers
      have hinner {y : α} (hy : y ∈ x :: path ∨ y ∈ below) :
          y ∈ path ∨ y ∈ x :: below ++ others := by
        grind
      have houter {y : α} (hy : y ∈ path ∨ y ∈ others) :
          y ∈ path ∨ y ∈ x :: below ++ others := by
        grind
      refine ⟨List.forall_mem_cons.mpr ⟨Or.inr List.mem_cons_self, fun y hy =>
        houter (hrest.work y hy)⟩, fun y hy => ?_⟩
      rcases List.mem_append.mp hy with hy | hy
      · rcases List.mem_cons.mp hy with rfl | hy
        · exact ⟨next, hstep, fun z hz => hinner (hfirst.work z hz)⟩
        · obtain ⟨others', hstep', hall⟩ := hfirst.expanded y hy
          exact ⟨others', hstep', fun z hz => hinner (hall z hz)⟩
      · obtain ⟨others', hstep', hall⟩ := hrest.expanded y hy
        exact ⟨others', hstep', fun z hz => houter (hall z hz)⟩

/-- Seen elements off the path are done with: their steps lead to seen
elements. -/
def Finished (step : α → Except ε (List α)) (path seen : List α) : Prop :=
  ∀ x ∈ seen, x ∉ path → ∃ next, step x = .ok next ∧ ∀ y ∈ next, y ∈ seen

theorem walk_of_finished (hfinished : Finished step path seen)
    (hwork : ∀ x ∈ work, x ∈ seen) :
    ∃ found,
      walk step bounded path work = .ok found ∧ ∀ x ∈ found, x ∈ seen := by
  induction path, work using walk.induct step bounded with
  | case1 path => exact ⟨[], walk_nil bounded path, List.forall_mem_nil _⟩
  | case2 path x work hpath ih =>
      rw [walk_again bounded work hpath]
      exact ih hfinished (List.forall_mem_cons.mp hwork).2
  | case3 path x work hnew error hstep =>
      obtain ⟨next, hnext, _⟩ := hfinished x (hwork x List.mem_cons_self) hnew
      rw [hstep] at hnext
      cases hnext
  | case4 path x work hnew next hstep ihbelow ihothers =>
      obtain ⟨hx, hrest⟩ := List.forall_mem_cons.mp hwork
      obtain ⟨known, hknown, hnext⟩ := hfinished x hx hnew
      rw [hstep] at hknown
      cases hknown
      have hlonger : Finished step (x :: path) seen := fun y hy hout =>
        hfinished y hy fun hpath => hout (List.mem_cons_of_mem x hpath)
      obtain ⟨below, hbelow, hin⟩ := ihbelow hlonger hnext
      obtain ⟨others, hothers, hin'⟩ := ihothers hfinished hrest
      refine ⟨_, (walk_onward_eq_ok_iff bounded work hnew hstep).mpr
        ⟨below, others, hbelow, hothers, rfl⟩, fun y hy => ?_⟩
      rcases List.mem_append.mp hy with hy | hy
      · rcases List.mem_cons.mp hy with rfl | hy
        · exact hx
        · exact hin y hy
      · exact hin' y hy

/-- What comes behind other work is explored with all that the other work led to
as seen. -/
theorem explore_append (work others seen : List α) :
    explore step bounded (work ++ others) seen = (do
      let visited ← explore step bounded work seen
      explore step bounded others visited.reverse) := by
  induction work, seen using explore.induct step bounded with
  | case1 seen =>
      rw [explore_nil, List.nil_append]
      exact congrArg _ (List.reverse_reverse seen).symm
  | case2 x work seen hseen ih =>
      rw [List.cons_append, explore_visited bounded _ hseen,
        explore_visited bounded _ hseen, ih]
  | case3 x work seen hnew error hstep =>
      rw [List.cons_append, explore_failed bounded _ hnew hstep,
        explore_failed bounded _ hnew hstep]
      rfl
  | case4 x work seen hnew next hstep ih =>
      rw [List.cons_append, explore_fresh bounded _ hnew hstep,
        explore_fresh bounded _ hnew hstep, ← List.append_assoc, ih]

theorem finished_after_walk {below : List α} (hpath : ∀ y ∈ path, y ∈ seen)
    (hfinished : Finished step path seen) (hstep : step x = .ok next)
    (hcovers : Covers step (x :: path) next below) :
    (∀ y ∈ path, y ∈ ((x :: seen).reverse ++ below).eraseDups.reverse) ∧
      Finished step path ((x :: seen).reverse ++ below).eraseDups.reverse := by
  have hmem {y : α} : y ∈ ((x :: seen).reverse ++ below).eraseDups.reverse ↔
      y ∈ x :: seen ∨ y ∈ below := by
    rw [List.mem_reverse, List.mem_eraseDups, List.mem_append, List.mem_reverse]
  have hcovered {y : α} (hy : y ∈ x :: path ∨ y ∈ below) :
      y ∈ ((x :: seen).reverse ++ below).eraseDups.reverse := by
    refine hmem.mpr (hy.imp_left fun hy => ?_)
    exact List.mem_cons.mpr ((List.mem_cons.mp hy).imp_right (hpath y))
  refine ⟨fun y hy => hcovered (Or.inl (List.mem_cons_of_mem x hy)),
    fun y hy hout => ?_⟩
  rcases hmem.mp hy with hold | hbelow
  · rcases List.mem_cons.mp hold with rfl | hold
    · exact ⟨next, hstep, fun z hz => hcovered (hcovers.work z hz)⟩
    · obtain ⟨known, hknown, hall⟩ := hfinished y hold hout
      exact ⟨known, hknown, fun z hz =>
        hmem.mpr (Or.inl (List.mem_cons_of_mem x (hall z hz)))⟩
  · obtain ⟨known, hknown, hall⟩ := hcovers.expanded y hbelow
    exact ⟨known, hknown, fun z hz => hcovered (hall z hz)⟩

theorem explore_eq_map_walk (hpath : ∀ x ∈ path, x ∈ seen)
    (hfinished : Finished step path seen) (hnodup : seen.Nodup) :
    explore step bounded work seen = (walk step bounded path work).map
        fun found => (seen.reverse ++ found).eraseDups := by
  induction path, work using walk.induct step bounded generalizing seen with
  | case1 path =>
      rw [explore_nil, walk_nil, Except.map, List.append_nil,
        eraseDups_eq_self (List.nodup_reverse.mpr hnodup)]
  | case2 path x work hx ih =>
      rw [explore_visited bounded work (hpath x hx), walk_again bounded work hx,
        ih hpath hfinished hnodup]
  | case3 path x work hnew error hstep =>
      have hunseen : x ∉ seen := fun hseen => by
        obtain ⟨next, hnext, _⟩ := hfinished x hseen hnew
        rw [hstep] at hnext
        cases hnext
      rw [explore_failed bounded work hunseen hstep,
        walk_failed bounded work hnew hstep]
      rfl
  | case4 path x work hnew next hstep ihbelow ihothers =>
      have hlonger : Finished step (x :: path) seen := fun y hy hout =>
        hfinished y hy fun hin => hout (List.mem_cons_of_mem x hin)
      rw [walk_onward bounded work hnew hstep]
      by_cases hseen : x ∈ seen
      · obtain ⟨known, hknown, hnext⟩ := hfinished x hseen hnew
        rw [hstep] at hknown
        cases hknown
        obtain ⟨below, hbelow, hin⟩ := walk_of_finished bounded hlonger hnext
        rw [explore_visited bounded work hseen,
          ihothers hpath hfinished hnodup, hbelow]
        cases walk step bounded path work with
        | error error => rfl
        | ok others =>
            have hold : ∀ y ∈ x :: below, y ∈ seen.reverse := by
              simpa using ⟨hseen, hin⟩
            exact congrArg Except.ok
              (eraseDups_append_of_subset hold others).symm
      · have hdeeper : Finished step (x :: path) (x :: seen) := by
          intro y hy hout
          have hold := (List.mem_cons.mp hy).resolve_left fun heq =>
            hout (heq ▸ List.mem_cons_self)
          obtain ⟨known, hknown, hall⟩ := hlonger y hold hout
          exact ⟨known, hknown, fun z hz => List.mem_cons_of_mem x (hall z hz)⟩
        have hdeeperPath : ∀ y ∈ x :: path, y ∈ x :: seen :=
          List.forall_mem_cons.mpr ⟨List.mem_cons_self,
            fun y hy => List.mem_cons_of_mem x (hpath y hy)⟩
        rw [explore_fresh bounded work hseen hstep, explore_append,
          ihbelow hdeeperPath hdeeper (List.nodup_cons.mpr ⟨hseen, hnodup⟩)]
        cases hbelow : walk step bounded (x :: path) next with
        | error error => rfl
        | ok below =>
            obtain ⟨hvisited, hdone⟩ :=
              finished_after_walk hpath hfinished hstep
                (covers_of_walk bounded hbelow)
            refine (ihothers hvisited hdone
              (List.nodup_reverse.mpr (nodup_eraseDups _))).trans ?_
            cases walk step bounded path work with
            | error error => rfl
            | ok others =>
                dsimp only [Except.map]
                rw [List.reverse_reverse, eraseDups_eraseDups_append,
                  List.reverse_cons]
                exact congrArg (Except.ok ∘ List.eraseDups) (by simp)

theorem explore_eq_walk (start : α) :
    explore step bounded [start] [] =
      (walk step bounded [] [start]).map List.eraseDups :=
  explore_eq_map_walk bounded (List.forall_mem_nil _) (List.forall_mem_nil _)
    List.nodup_nil

theorem nodup_explore {start : α} {visited : List α}
    (h : explore step bounded [start] [] = .ok visited) : visited.Nodup := by
  rw [explore_eq_walk, map_eq_ok_iff] at h
  obtain ⟨found, _, rfl⟩ := h
  exact nodup_eraseDups found

end Walk

end ShapeMerge.Exploration
