import Mathlib.Logic.Relation
import ShapeMerge.Exploration

namespace ShapeMerge.Exploration

/-!
What an exploration finds.  It succeeds exactly when its start lies in a set
that no step leaves and in which no step fails, and what it visited is then the
least such set.  It ends on every input.
-/

variable {step : α → Except ε (List α)}

def Closed (step : α → Except ε (List α)) (inside : α → Prop) : Prop :=
  ∀ x, inside x → ∃ next, step x = .ok next ∧ ∀ y ∈ next, inside y

/-- One move of an exploration, from the work and the seen elements to those
that it goes on with. -/
inductive Move (step : α → Except ε (List α)) :
    List α × List α → List α × List α → Prop
  | visited {x : α} {work seen : List α} (h : x ∈ seen) :
      Move step (x :: work, seen) (work, seen)
  | fresh {x : α} {work seen next : List α} (hnew : x ∉ seen)
      (hstep : step x = .ok next) :
      Move step (x :: work, seen) (next ++ work, x :: seen)

def Known (state : List α × List α) (x : α) : Prop :=
  x ∈ state.2 ∨ x ∈ state.1

theorem Move.known {before after : List α × List α} (h : Move step before after)
    {x : α} (hx : Known before x) : Known after x := by
  cases h with
  | visited hseen =>
      rcases hx with hold | hwaiting
      · exact Or.inl hold
      · rcases List.mem_cons.mp hwaiting with rfl | hwaiting
        · exact Or.inl hseen
        · exact Or.inr hwaiting
  | fresh hnew hstep =>
      rcases hx with hold | hwaiting
      · exact Or.inl (List.mem_cons_of_mem _ hold)
      · rcases List.mem_cons.mp hwaiting with rfl | hwaiting
        · exact Or.inl List.mem_cons_self
        · exact Or.inr (List.mem_append_right _ hwaiting)

def Expanded (step : α → Except ε (List α)) (state : List α × List α) : Prop :=
  ∀ x ∈ state.2, ∃ next, step x = .ok next ∧ ∀ y ∈ next, Known state y

theorem Move.expanded {before after : List α × List α}
    (h : Move step before after) (hbefore : Expanded step before) :
    Expanded step after := by
  intro x hx
  have hkeep (hold : x ∈ before.2) :
      ∃ next, step x = .ok next ∧ ∀ y ∈ next, Known after y := by
    obtain ⟨next, hstep, hknown⟩ := hbefore x hold
    exact ⟨next, hstep, fun y hy => h.known (hknown y hy)⟩
  cases h with
  | visited hseen => exact hkeep hx
  | fresh hnew hstep =>
      rcases List.mem_cons.mp hx with rfl | hold
      · exact ⟨_, hstep, fun y hy => Or.inr (List.mem_append_left _ hy)⟩
      · exact hkeep hold

variable [DecidableEq α]

theorem explore_of_closed {inside : α → Prop} (hclosed : Closed step inside)
    (bounded : Bounded step) {work : List α} (seen : List α)
    (hwork : ∀ x ∈ work, inside x) :
    ∃ visited, explore step bounded work seen = .ok visited ∧
      ∀ x ∈ visited, x ∈ seen ∨ inside x := by
  induction work, seen using explore.induct step bounded with
  | case1 seen =>
      rw [explore_nil]
      exact ⟨seen.reverse, rfl, fun x hx => Or.inl (List.mem_reverse.mp hx)⟩
  | case2 x work seen hseen ih =>
      rw [explore_visited bounded work hseen]
      exact ih fun y hy => hwork y (List.mem_cons_of_mem x hy)
  | case3 x work seen _ error herror =>
      obtain ⟨next, hstep, _⟩ := hclosed x (hwork x List.mem_cons_self)
      rw [herror] at hstep
      cases hstep
  | case4 x work seen hnew next hstep ih =>
      have hx : inside x := hwork x List.mem_cons_self
      obtain ⟨known, hknown, hinside⟩ := hclosed x hx
      obtain rfl : next = known := Except.ok.inj (hstep.symm.trans hknown)
      rw [explore_fresh bounded work hnew hstep]
      obtain ⟨visited, hvisited, hmem⟩ := ih fun y hy => by
        rcases List.mem_append.mp hy with hnext | hwaiting
        · exact hinside y hnext
        · exact hwork y (List.mem_cons_of_mem x hwaiting)
      refine ⟨visited, hvisited, fun y hy => ?_⟩
      rcases hmem y hy with hold | hin
      · rcases List.mem_cons.mp hold with rfl | hold
        · exact Or.inr hx
        · exact Or.inl hold
      · exact Or.inr hin

theorem explore_eq_of_move (bounded : Bounded step)
    {before after : List α × List α} (h : Move step before after) :
    explore step bounded before.1 before.2 =
      explore step bounded after.1 after.2 := by
  cases h with
  | visited h => exact explore_visited bounded _ h
  | fresh hnew hstep => exact explore_fresh bounded _ hnew hstep

theorem explore_eq_ok_iff_moves (bounded : Bounded step)
    {work seen visited : List α} :
    explore step bounded work seen = .ok visited ↔
      Relation.ReflTransGen (Move step) (work, seen) ([], visited.reverse) := by
  constructor
  · intro h
    induction work, seen using explore.induct step bounded with
    | case1 seen =>
        rw [explore_nil] at h
        cases h
        rw [List.reverse_reverse]
    | case2 x work seen hseen ih =>
        rw [explore_visited bounded work hseen] at h
        exact .head (.visited hseen) (ih h)
    | case3 x work seen hnew error herror =>
        rw [explore_failed bounded work hnew herror] at h
        cases h
    | case4 x work seen hnew next hstep ih =>
        rw [explore_fresh bounded work hnew hstep] at h
        exact .head (.fresh hnew hstep) (ih h)
  · intro h
    suffices hall :
        ∀ state, Relation.ReflTransGen (Move step) state ([], visited.reverse) →
          explore step bounded state.1 state.2 = .ok visited from
          hall (work, seen) h
    intro state hmoves
    induction hmoves using Relation.ReflTransGen.head_induction_on with
    | refl => rw [explore_nil, List.reverse_reverse]
    | head hmove _ ih => rw [explore_eq_of_move bounded hmove, ih]

theorem move_wellFounded (bounded : Bounded step) :
    WellFounded fun after before => Move step before after := by
  refine Subrelation.wf (fun {after before} hmove => ?_) (InvImage.wf
    (fun state => (remaining bounded.choose state.2, state.1.length))
    (Prod.lex Nat.lt_wfRel Nat.lt_wfRel).wf)
  cases hmove with
  | visited h => exact Prod.Lex.right _ (Nat.lt_succ_self _)
  | fresh hnew hstep => exact progress_of_fresh bounded _ hnew hstep

theorem explore_preserves (holds : List α × List α → Prop)
    (hmove : ∀ {before after}, Move step before after → holds before →
      holds after) (bounded : Bounded step) {work seen visited : List α}
    (h : explore step bounded work seen = .ok visited)
    (hstart : holds (work, seen)) : holds ([], visited.reverse) := by
  suffices hall : ∀ state,
    Relation.ReflTransGen (Move step) (work, seen) state → holds state from
    hall _ ((explore_eq_ok_iff_moves bounded).mp h)
  intro state hmoves
  induction hmoves with
  | refl => exact hstart
  | tail _ hlast ih => exact hmove hlast ih

theorem mem_of_explore (bounded : Bounded step) {work seen visited : List α}
    (h : explore step bounded work seen = .ok visited) {x : α}
    (hx : Known (work, seen) x) : x ∈ visited := by
  have hknown :=
    explore_preserves (Known · x) (fun hmove => hmove.known) bounded h hx
  exact List.mem_reverse.mp (hknown.resolve_right List.not_mem_nil)

theorem closed_of_explore (bounded : Bounded step) {work seen visited : List α}
    (h : explore step bounded work seen = .ok visited)
    (hseen : Expanded step (work, seen)) : Closed step (· ∈ visited) := by
  intro x hx
  have hexpanded := explore_preserves (Expanded step)
    (fun hmove => hmove.expanded) bounded h hseen
  obtain ⟨next, hstep, hknown⟩ := hexpanded x (List.mem_reverse.mpr hx)
  refine ⟨next, hstep, fun y hy => ?_⟩
  exact List.mem_reverse.mp ((hknown y hy).resolve_right List.not_mem_nil)

theorem explore_ok_iff (bounded : Bounded step) {x : α} :
    (∃ visited, explore step bounded [x] [] = .ok visited) ↔
      ∃ inside, Closed step inside ∧ inside x := by
  constructor
  · rintro ⟨visited, h⟩
    exact ⟨(· ∈ visited), closed_of_explore bounded h (List.forall_mem_nil _),
      mem_of_explore bounded h (Or.inr List.mem_cons_self)⟩
  · rintro ⟨inside, hclosed, hx⟩
    have hwork : ∀ y ∈ [x], inside y := List.forall_mem_singleton.mpr hx
    obtain ⟨visited, h, _⟩ := explore_of_closed hclosed bounded [] hwork
    exact ⟨visited, h⟩

end ShapeMerge.Exploration
