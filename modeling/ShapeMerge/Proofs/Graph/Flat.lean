import ShapeMerge.Graph.Alternatives
import ShapeMerge.Proofs.Graph.WellFormed

namespace ShapeMerge

/-!
Flat graphs: well-formed ones in which no union is a member of a union.  Opening
a node of a flat graph takes a single step, so its alternatives and its
nullability can be read off the node and its members.
-/

namespace Exploration

variable [DecidableEq α] {step : α → Except ε (List α)}

theorem explore_leaves (bounded : Bounded step) {work seen : List α}
    (hleaves : ∀ x ∈ work, step x = .ok []) (hnodup : work.Nodup)
    (hnew : ∀ x ∈ work, x ∉ seen) :
    explore step bounded work seen = .ok (seen.reverse ++ work) := by
  induction work generalizing seen with
  | nil => rw [explore_nil, List.append_nil]
  | cons x work ih =>
      have hx := List.forall_mem_cons.mp hleaves
      have hfresh := List.forall_mem_cons.mp hnew
      rw [List.nodup_cons] at hnodup
      rw [explore_fresh bounded work hfresh.1 hx.1, List.nil_append,
        ih hx.2 hnodup.2]
      · simp
      · intro y hy hmem
        rcases List.mem_cons.mp hmem with rfl | hmem
        · exact hnodup.1 hy
        · exact hfresh.2 y hy hmem

end Exploration

namespace Graph

open Exploration

structure Flat (graph : Graph) : Prop extends WellFormed graph where
  flat : ∀ {ref : Ref} {alternatives : List Ref},
    graph.shape? ref = some (.union alternatives) →
    ∀ member ∈ alternatives, graph.kind? member ≠ some .union

/-- What a node of a flat graph can be besides `null`: the node itself or its
members. -/
def options (graph : Graph) (ref : Ref) : List Ref :=
  (ref :: graph.members ref).filter graph.isPlain

theorem members_of_shape? {graph : Graph} {ref : Ref} {shape : Shape}
    (h : graph.shape? ref = some shape) :
    graph.members ref = shape.members := by
  simp [members, h]

theorem members_eq_nil {graph : Graph} {ref : Ref}
    (h : graph.kind? ref ≠ some .union) : graph.members ref = [] := by
  cases hshape : graph.shape? ref with
  | none => simp [members, hshape]
  | some shape =>
      rw [members_of_shape? hshape]
      cases shape with
      | union alternatives => exact absurd (kind?_of_shape? hshape) h
      | _ => rfl

theorem shape?_of_mem_members {graph : Graph} {ref member : Ref}
    (h : member ∈ graph.members ref) :
    ∃ alternatives, graph.shape? ref = some (.union alternatives) ∧
      member ∈ alternatives := by
  by_cases hkind : graph.kind? ref = some .union
  · obtain ⟨alternatives, hshape⟩ := shape?_of_kind?_union hkind
    rw [members_of_shape? hshape] at h
    exact ⟨alternatives, hshape, h⟩
  · rw [members_eq_nil hkind] at h
    cases h

namespace Flat

variable {graph : Graph} {ref member : Ref}

theorem members_members (hflat : graph.Flat) (h : member ∈ graph.members ref) :
    graph.members member = [] := by
  obtain ⟨alternatives, hshape, hmem⟩ := shape?_of_mem_members h
  exact members_eq_nil (hflat.flat hshape member hmem)

theorem members_has (hflat : graph.Flat) (h : member ∈ graph.members ref) :
    graph.has member = true := by
  obtain ⟨alternatives, hshape, hmem⟩ := shape?_of_mem_members h
  exact hflat.children hshape member hmem

theorem self_not_mem_members (hflat : graph.Flat) :
    ref ∉ graph.members ref := by
  intro h
  rw [hflat.members_members h] at h
  cases h

theorem members_kinds (hflat : graph.Flat) (ref : Ref) :
    ((graph.members ref).map graph.kind?).Nodup := by
  by_cases hkind : graph.kind? ref = some .union
  · obtain ⟨alternatives, hshape⟩ := shape?_of_kind?_union hkind
    rw [members_of_shape? hshape]
    exact hflat.kinds hshape
  · rw [members_eq_nil hkind]
    exact List.nodup_nil

theorem members_nodup (hflat : graph.Flat) (ref : Ref) :
    (graph.members ref).Nodup :=
  List.Nodup.of_map graph.kind? (hflat.members_kinds ref)

theorem explore_members (hflat : graph.Flat) {step : Ref → Except ε (List Ref)}
    (bounded : Bounded step) (hself : step ref = .ok (graph.members ref))
    (hmembers :
      ∀ member ∈ graph.members ref, step member = .ok (graph.members member)) :
    explore step bounded [ref] [] = .ok (ref :: graph.members ref) := by
  rw [explore_fresh bounded [] List.not_mem_nil hself, List.append_nil,
    explore_leaves bounded _ (hflat.members_nodup ref)]
  · simp
  · intro member hmember hmem
    rw [List.mem_singleton] at hmem
    subst hmem
    exact hflat.self_not_mem_members hmember
  · intro member hmember
    rw [hmembers member hmember, hflat.members_members hmember]

theorem openUnion_eq_ok (h : graph.has ref = true) :
    graph.openUnion ref = .ok (graph.members ref) := by
  obtain ⟨shape, hshape⟩ := has_iff_shape?.mp h
  simp [openUnion, members_of_shape? hshape, hshape]

theorem alternatives_eq_ok (hflat : graph.Flat) (h : graph.has ref = true) :
    graph.alternatives ref = .ok (graph.options ref) := by
  have hopened : graph.opened ref = .ok (ref :: graph.members ref) :=
    hflat.explore_members graph.openUnion_bounded (openUnion_eq_ok h)
      fun member hmember => openUnion_eq_ok (hflat.members_has hmember)
  rw [alternatives, hopened]
  rfl

theorem nullable_eq (hflat : graph.Flat) (ref : Ref) :
    graph.nullable ref =
      (ref :: graph.members ref).any (graph.kind? · = some .null) := by
  have hopened :
      explore graph.openLeniently graph.openLeniently_bounded [ref] [] =
        .ok (ref :: graph.members ref) :=
    hflat.explore_members graph.openLeniently_bounded rfl fun _ _ => rfl
  rw [nullable, openedLeniently]
  split
  rename_i visited hvisited
  rw [hopened] at hvisited
  cases hvisited
  rfl

theorem nullable_iff (hflat : graph.Flat) :
    graph.nullable ref = true ↔ graph.kind? ref = some .null ∨
      ∃ member ∈ graph.members ref, graph.kind? member = some .null := by
  simp [hflat.nullable_eq]

end Flat

theorem isPlain_iff {graph : Graph} {ref : Ref} :
    graph.isPlain ref = true ↔
      graph.kind? ref ≠ some .union ∧ graph.kind? ref ≠ some .null := by
  simp [isPlain]

theorem mem_options {graph : Graph} {ref option : Ref} :
    option ∈ graph.options ref ↔ (option = ref ∨ option ∈ graph.members ref) ∧
      graph.kind? option ≠ some .union ∧ graph.kind? option ≠ some .null := by
  rw [options, List.mem_filter, List.mem_cons, isPlain_iff]

theorem options_of_union {graph : Graph} {ref : Ref}
    (h : graph.kind? ref = some .union) :
    graph.options ref = (graph.members ref).filter graph.isPlain := by
  rw [options, List.filter_cons_of_neg]
  simp [isPlain, h]

theorem options_of_not_union {graph : Graph} {ref : Ref}
    (h : graph.kind? ref ≠ some .union) :
    graph.options ref = [ref].filter graph.isPlain := by
  rw [options, members_eq_nil h]

namespace Flat

variable {graph : Graph} {ref option : Ref}

theorem options_has (hflat : graph.Flat) (h : graph.has ref = true)
    (hoption : option ∈ graph.options ref) : graph.has option = true := by
  rcases (mem_options.mp hoption).1 with rfl | hmember
  · exact h
  · exact hflat.members_has hmember

theorem options_kinds (hflat : graph.Flat) (ref : Ref) :
    ((graph.options ref).map graph.kind?).Nodup := by
  by_cases hkind : graph.kind? ref = some .union
  · rw [options_of_union hkind]
    exact (List.filter_sublist.map graph.kind?).nodup (hflat.members_kinds ref)
  · rw [options_of_not_union hkind]
    exact (List.filter_sublist.map graph.kind?).nodup (List.nodup_singleton _)

end Flat

section Admits

variable {graph : Graph} {ref : Ref} {kind : Kind}

def Admits (graph : Graph) (ref : Ref) (kind : Kind) : Prop :=
  ∃ source, (source = ref ∨ source ∈ graph.members ref) ∧
    graph.kind? source = some kind

theorem admits_of_not_union (h : graph.kind? ref ≠ some .union) :
    graph.Admits ref kind ↔ graph.kind? ref = some kind := by
  rw [Admits, members_eq_nil h]
  simp

theorem admits_of_kind? {own : Kind} (h : graph.kind? ref = some own)
    (hne : own ≠ .union) : graph.Admits ref kind ↔ own = kind := by
  rw [admits_of_not_union, h, Option.some.injEq]
  rw [h]
  exact fun heq => hne (Option.some.inj heq)

theorem admits_of_union {alternatives : List Ref}
    (h : graph.shape? ref = some (.union alternatives)) (hne : kind ≠ .union) :
    graph.Admits ref kind ↔
      ∃ member ∈ alternatives, graph.kind? member = some kind := by
  have hself : graph.kind? ref ≠ some kind := by
    rw [kind?_of_shape? h]
    exact fun heq => hne (Option.some.inj heq).symm
  rw [Admits, members_of_shape? h]
  simp only [or_and_right, exists_or, exists_eq_left, hself, false_or]
  rfl

theorem Flat.nullable_iff_admits (hflat : graph.Flat) :
    graph.nullable ref = true ↔ graph.Admits ref .null := by
  rw [hflat.nullable_iff, Admits]
  simp only [or_and_right, exists_or, exists_eq_left]

theorem exists_option_iff :
    (∃ option ∈ graph.options ref, graph.kind? option = some kind) ↔
      graph.Admits ref kind ∧ kind ≠ .union ∧ kind ≠ .null := by
  constructor
  · intro h
    obtain ⟨option, hoption, hkind⟩ := h
    obtain ⟨hsource, hunion, hnull⟩ := mem_options.mp hoption
    rw [hkind] at hunion hnull
    exact ⟨⟨option, hsource, hkind⟩, fun heq => hunion (congrArg some heq),
      fun heq => hnull (congrArg some heq)⟩
  · intro h
    obtain ⟨⟨source, hsource, hkind⟩, hunion, hnull⟩ := h
    refine ⟨source, mem_options.mpr ⟨hsource, ?_, ?_⟩, hkind⟩
    · rw [hkind]
      exact fun heq => hunion (Option.some.inj heq)
    · rw [hkind]
      exact fun heq => hnull (Option.some.inj heq)

end Admits

end Graph

end ShapeMerge
