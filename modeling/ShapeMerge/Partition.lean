namespace ShapeMerge

/-!
Greedy partition of candidates into cliques.  Each round starts a clique with
the first candidate left and walks the others in order; one joins if it is
compatible with every member so far, and waits for a later round if it is not.
The test may have effects, such as failing.
-/

namespace Partition

variable {α : Type} {m : Type → Type} [Monad m]

def admits (compatible : α → α → m Bool) (candidate : α) : List α → m Bool
  | [] => pure true
  | member :: rest => do
      if ← compatible member candidate then admits compatible candidate rest
      else pure false

/-- The members of a clique after a walk, and the candidates that wait. -/
abbrev Walk (α : Type) (candidates : List α) : Type :=
  { walk : List α × List α // walk.2.length ≤ candidates.length }

def walk (compatible : α → α → m Bool) (members : List α) :
    (candidates : List α) → m (Walk α candidates)
  | [] => pure ⟨(members, []), Nat.le_refl _⟩
  | candidate :: rest => do
      if ← admits compatible candidate members then
        let ⟨(all, waiting), h⟩ ← walk compatible (members ++ [candidate]) rest
        pure ⟨(all, waiting), Nat.le_succ_of_le h⟩
      else
        let ⟨(all, waiting), h⟩ ← walk compatible members rest
        pure ⟨(all, candidate :: waiting), Nat.succ_le_succ h⟩

def blocks (compatible : α → α → m Bool) : List α → m (List (List α))
  | [] => pure []
  | seed :: rest => do
      let ⟨(members, waiting), _h⟩ ← walk compatible [seed] rest
      let others ← blocks compatible waiting
      pure (members :: others)
termination_by candidates => candidates.length
decreasing_by exact Nat.lt_succ_of_le _h

def cliques (compatible : α → α → m Bool) (candidates : List α) :
    m (List (List α)) := do
  let all ← blocks compatible candidates
  pure (all.filter (fun block => 1 < block.length))

end Partition

end ShapeMerge
