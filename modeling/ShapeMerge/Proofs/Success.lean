import Mathlib.Data.List.Basic
import Mathlib.Data.Option.Basic

namespace ShapeMerge

theorem bind_eq_ok_iff {x : Except ε α} {f : α → Except ε β} {b : β} :
    x >>= f = .ok b ↔ ∃ a, x = .ok a ∧ f a = .ok b := by
  cases x with
  | error fault => simp [bind, Except.bind]
  | ok a => simp [bind, Except.bind]

theorem pure_eq_ok_iff {a b : α} : (pure a : Except ε α) = .ok b ↔ b = a :=
  ⟨fun h => (Except.ok.inj h).symm, fun h => congrArg Except.ok h.symm⟩

theorem mapError_eq_ok_iff {x : Except ε α} {embed : ε → δ} {a : α} :
    x.mapError embed = .ok a ↔ x = .ok a := by
  cases x <;> simp [Except.mapError]

theorem map_eq_ok_iff {x : Except ε α} {f : α → β} {b : β} :
    x.map f = .ok b ↔ ∃ a, x = .ok a ∧ f a = b := by
  cases x <;> simp [Except.map]

theorem mapM_eq_ok_iff {f : α → Except ε β} {xs : List α} {ys : List β} :
    xs.mapM f = .ok ys ↔ xs.map f = ys.map .ok := by
  induction xs generalizing ys with
  | nil => cases ys <;> simp [pure, Except.pure]
  | cons x xs ih =>
      rw [List.mapM_cons]
      simp only [bind_eq_ok_iff, pure, Except.pure, Except.ok.injEq, ih]
      constructor
      · intro h
        obtain ⟨y, hy, rest, hrest, heq⟩ := h
        rw [← heq, List.map_cons, List.map_cons, hy, hrest]
      · intro h
        cases ys with
        | nil => cases h
        | cons y ys =>
            obtain ⟨hy, hys⟩ := List.cons.inj h
            exact ⟨y, hy, ys, hys, rfl⟩

theorem mapM_eq_ok_map {f : α → Except ε β} {g : α → β} {xs : List α}
    (h : ∀ x ∈ xs, f x = .ok (g x)) : xs.mapM f = .ok (xs.map g) := by
  rw [mapM_eq_ok_iff, List.map_map]
  exact List.map_congr_left h

theorem map_bind_eq_map_bind {x : Except ε α} {f : α → Except ε β}
    {other : γ → Except ε δ} {g : β → δ} {k : α → γ}
    (h : ∀ a, other (k a) = (f a).map g) :
    x.map k >>= other = (x >>= f).map g := by
  cases x with
  | error fault => rfl
  | ok a => exact h a

theorem bind_eq_map_bind {x : Except ε α} {f : α → Except ε β}
    {other : α → Except ε γ} {g : β → γ} (h : ∀ a, other a = (f a).map g) :
    x >>= other = (x >>= f).map g := by
  cases x with
  | error fault => rfl
  | ok a => exact h a

theorem mapError_map {x : Except ε α} {embed : ε → δ} {f : α → β} :
    (x.map f).mapError embed = (x.mapError embed).map f := by
  cases x <;> rfl

theorem mapM_eq_map_mapM {f : α → Except ε β} {other : α → Except ε γ}
    {g : β → γ} {xs : List α} (h : ∀ x, other x = (f x).map g) :
    xs.mapM other = (xs.mapM f).map (List.map g) := by
  induction xs with
  | nil => rfl
  | cons x xs ih =>
      rw [List.mapM_cons, List.mapM_cons, h]
      apply map_bind_eq_map_bind
      intro y
      rw [ih]
      exact map_bind_eq_map_bind fun _ => rfl

theorem mapM_eq_some_iff {f : α → Option β} {xs : List α} {ys : List β} :
    xs.mapM f = some ys ↔ xs.map f = ys.map some := by
  induction xs generalizing ys with
  | nil => cases ys <;> simp
  | cons x xs ih =>
      cases ys with
      | nil => simp [List.mapM_cons, Option.bind_eq_some_iff]
      | cons y ys => simp [List.mapM_cons, Option.bind_eq_some_iff, ih]

theorem mapM_eq_some_map {f : α → Option β} {g : α → β} {xs : List α}
    (h : ∀ x ∈ xs, f x = some (g x)) : xs.mapM f = some (xs.map g) := by
  rw [mapM_eq_some_iff, List.map_map]
  exact List.map_congr_left h

theorem anyM_eq_some_any {f : α → Option Bool} {g : α → Bool} {xs : List α}
    (h : ∀ x ∈ xs, f x = some (g x)) : xs.anyM f = some (xs.any g) := by
  induction xs with
  | nil => rfl
  | cons x xs ih =>
      obtain ⟨hx, hxs⟩ := List.forall_mem_cons.mp h
      rw [List.anyM, hx, List.any_cons]
      cases g x with
      | true => rfl
      | false => exact ih hxs

theorem mapM_map_eq_some {f : β → Option α} {g : α → β} {xs : List α}
    (h : ∀ x ∈ xs, f (g x) = some x) : (xs.map g).mapM f = some xs := by
  rw [mapM_eq_some_iff, List.map_map]
  exact List.map_congr_left h

theorem exists_mapM_eq_some {f : α → Option β} {good : β → Prop} {xs : List α}
    (h : ∀ x ∈ xs, ∃ y, f x = some y ∧ good y) :
    ∃ ys, xs.mapM f = some ys ∧ ∀ y ∈ ys, good y := by
  induction xs with
  | nil => exact ⟨[], rfl, by simp⟩
  | cons x xs ih =>
      obtain ⟨y, hy, hgood⟩ := h x List.mem_cons_self
      obtain ⟨ys, hys, hall⟩ := ih fun z hz => h z (List.mem_cons_of_mem x hz)
      exact ⟨y :: ys, by simp [List.mapM_cons, hy, hys],
        List.forall_mem_cons.mpr ⟨hgood, hall⟩⟩

theorem exists_of_mapM_eq_some {f : α → Option β} {xs : List α} {ys : List β}
    (h : xs.mapM f = some ys) {x : α} (hx : x ∈ xs) :
    ∃ y ∈ ys, f x = some y := by
  have hmem : f x ∈ ys.map some :=
    mapM_eq_some_iff.mp h ▸ List.mem_map_of_mem hx
  obtain ⟨y, hy, heq⟩ := List.mem_map.mp hmem
  exact ⟨y, hy, heq.symm⟩

theorem exists_source_of_mapM_eq_some {f : α → Option β} {xs : List α}
    {ys : List β} (h : xs.mapM f = some ys) {y : β} (hy : y ∈ ys) :
    ∃ x ∈ xs, f x = some y := by
  have hmem : some y ∈ xs.map f :=
    mapM_eq_some_iff.mp h ▸ List.mem_map_of_mem hy
  exact List.mem_map.mp hmem

theorem map_of_mapM_eq_some {f : α → Option β}
    {g : β → α} (hg : ∀ x y, f x = some y → g y = x) {xs : List α} {ys : List β}
    (h : xs.mapM f = some ys) : ys.map g = xs := by
  rw [mapM_eq_some_iff] at h
  induction xs generalizing ys with
  | nil => cases ys <;> simp_all
  | cons x xs ih =>
      cases ys with
      | nil => cases h
      | cons y ys =>
          obtain ⟨hfirst, hrest⟩ := List.cons.inj h
          rw [List.map_cons, hg x y hfirst, ih hrest]

end ShapeMerge
