namespace ShapeMerge

/-!
Depth-first exploration from given elements, with one list of visited elements
shared by all branches.  Elements outside a finite space lead nowhere, so
exploration ends even on cycles.
-/

namespace Exploration

variable [DecidableEq α]

def remaining (space seen : List α) : Nat :=
  (space.filter (· ∉ seen)).length

theorem remaining_cons_le (space seen : List α) (x : α) :
    remaining space (x :: seen) ≤ remaining space seen := by
  simp only [remaining, ← List.countP_eq_length_filter]
  exact List.countP_mono_left (by grind)

theorem remaining_cons_lt {space seen : List α} {x : α} (hspace : x ∈ space)
    (hnew : x ∉ seen) : remaining space (x :: seen) < remaining space seen := by
  induction space with
  | nil => cases hspace
  | cons head tail ih =>
      have hle := remaining_cons_le tail seen x
      simp only [remaining] at *
      by_cases heq : head = x
      · subst heq
        simp only [List.filter_cons]
        grind
      · have hlt := ih (by grind)
        simp only [List.filter_cons]
        grind

/-- Outside some finite list of elements, no step leads anywhere. -/
def Bounded (step : α → Except ε (List α)) : Prop :=
  ∃ space : List α, ∀ x next, step x = .ok next → next ≠ [] → x ∈ space

theorem progress_of_fresh {step : α → Except ε (List α)}
    (bounded : Bounded step) {x : α} (work : List α) {seen next : List α}
    (hnew : x ∉ seen) (hstep : step x = .ok next) :
    Prod.Lex (· < ·) (· < ·)
      (remaining bounded.choose (x :: seen), (next ++ work).length)
      (remaining bounded.choose seen, (x :: work).length) := by
  by_cases hspace : x ∈ bounded.choose
  · exact Prod.Lex.left _ _ (remaining_cons_lt hspace hnew)
  · have hnext : next = [] := by
      false_or_by_contra
      rename_i hne
      exact hspace (bounded.choose_spec x next hstep hne)
    subst hnext
    rcases Nat.lt_or_eq_of_le (remaining_cons_le bounded.choose seen x) with
      hlt | heq
    · exact Prod.Lex.left _ _ hlt
    · rw [heq]
      exact Prod.Lex.right _ (by simp)

/-- The elements reached from `work`, in order of first visit and after those in
`seen`, which lists the latest visit first.  The first element whose step fails
ends the exploration. -/
def explore (step : α → Except ε (List α)) (bounded : Bounded step) :
    (work seen : List α) → Except ε (List α)
  | [], seen => .ok seen.reverse
  | x :: work, seen =>
      if x ∈ seen then explore step bounded work seen
      else
        match _h : step x with
        | .error error => .error error
        | .ok next => explore step bounded (next ++ work) (x :: seen)
termination_by work seen => (remaining bounded.choose seen, work.length)
decreasing_by
  · exact Prod.Lex.right _ (by simp)
  · rename_i hnew
    exact progress_of_fresh bounded work hnew _h

theorem explore_nil (step : α → Except ε (List α)) (bounded : Bounded step)
    (seen : List α) : explore step bounded [] seen = .ok seen.reverse := by
  rw [explore]

theorem explore_visited {step : α → Except ε (List α)} (bounded : Bounded step)
    {x : α} (work : List α) {seen : List α} (h : x ∈ seen) :
    explore step bounded (x :: work) seen = explore step bounded work seen := by
  rw [explore, if_pos h]

theorem explore_fresh {step : α → Except ε (List α)} (bounded : Bounded step)
    {x : α} (work : List α) {seen next : List α} (h : x ∉ seen)
    (hstep : step x = .ok next) :
    explore step bounded (x :: work) seen =
      explore step bounded (next ++ work) (x :: seen) := by
  rw [explore, if_neg h]
  split
  · rename_i herror
    rw [hstep] at herror
    cases herror
  · rename_i hok
    rw [hstep] at hok
    cases hok
    rfl

theorem explore_failed {step : α → Except ε (List α)} (bounded : Bounded step)
    {x : α} {error : ε} (work : List α) {seen : List α} (h : x ∉ seen)
    (hstep : step x = .error error) :
    explore step bounded (x :: work) seen = .error error := by
  rw [explore, if_neg h]
  split
  · rename_i herror
    rw [hstep] at herror
    cases herror
    rfl
  · rename_i hok
    rw [hstep] at hok
    cases hok

end Exploration

end ShapeMerge
