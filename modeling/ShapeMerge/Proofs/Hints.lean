import Mathlib.Data.List.Basic
import ShapeMerge.Shape
import ShapeMerge.NameMap.Lemmas

namespace ShapeMerge

/-!
What joined bundles of hints come to.  Whether the names of a bundle are kept
depends on all other bundles, but not on their order, their number, or the steps
in which they are joined.
-/

theorem NameSet.ext_names {left right : NameSet}
    (h : ∀ name, name ∈ left.names ↔ name ∈ right.names) : left = right := by
  rw [← NameMap.setOfList_names left, NameMap.names_eq_of_mem_iff h,
    NameMap.setOfList_names]

namespace Hints

theorem ext_names {left right : Hints}
    (hinferred : left.inferred = right.inferred)
    (hnames : ∀ name, name ∈ left.names.names ↔ name ∈ right.names.names) :
    left = right := by
  cases left
  cases right
  exact congr (congrArg mk (NameSet.ext_names hnames)) hinferred

variable {hints : Hints} {bundles others : List Hints} {name : String}

theorem asserts_iff :
    hints.asserts = true ↔
      hints.inferred = false ∧ ∃ name, name ∈ hints.names.names := by
  have hempty : hints.names.isEmpty = hints.names.names.isEmpty := by
    rw [NameMap.isEmpty, NameMap.names, List.isEmpty_map]
  rw [asserts, hempty, Bool.and_eq_true, Bool.not_eq_true', Bool.not_eq_true',
    List.isEmpty_eq_false_iff_exists_mem]

theorem asserts_iff_of_mem (h : name ∈ hints.names.names) :
    hints.asserts = true ↔ hints.inferred = false := by
  rw [asserts_iff]
  exact and_iff_left ⟨name, h⟩

@[simp] theorem inferred_joinAll (bundles : List Hints) :
    (joinAll bundles).inferred = !bundles.any asserts := by
  rw [joinAll]
  split <;> simp_all

theorem mem_names_joinAll :
    name ∈ (joinAll bundles).names.names ↔
      ∃ bundle ∈ bundles, name ∈ bundle.names.names ∧
        (bundles.any asserts = true → bundle.asserts = true) := by
  rw [joinAll]
  split
  · rename_i hasserts
    simp only [NameMap.mem_names_unions, List.mem_map, List.mem_filter,
      Bool.not_eq_true', exists_exists_and_eq_and, hasserts, true_imp_iff]
    refine exists_congr fun bundle => ?_
    rw [and_assoc, and_comm (a := bundle.inferred = false)]
    exact and_congr_right fun _ => and_congr_right fun hname =>
      (asserts_iff_of_mem hname).symm
  · rename_i hnone
    simp [NameMap.mem_names_unions, hnone]

@[simp] theorem asserts_joinAll (bundles : List Hints) :
    (joinAll bundles).asserts = bundles.any asserts := by
  rw [Bool.eq_iff_iff, asserts_iff, inferred_joinAll, Bool.not_eq_false']
  refine and_iff_left_of_imp fun hany => ?_
  obtain ⟨bundle, hbundle, hasserts⟩ := List.any_eq_true.mp hany
  obtain ⟨_, name, hname⟩ := asserts_iff.mp hasserts
  exact ⟨name,
    mem_names_joinAll.mpr ⟨bundle, hbundle, hname, fun _ => hasserts⟩⟩

theorem joinAll_congr (h : ∀ bundle, bundle ∈ bundles ↔ bundle ∈ others) :
    joinAll bundles = joinAll others := by
  have hany : bundles.any asserts = others.any asserts := by
    rw [Bool.eq_iff_iff, List.any_eq_true, List.any_eq_true]
    simp only [h]
  apply ext_names
  · rw [inferred_joinAll, inferred_joinAll, hany]
  · intro name
    simp only [mem_names_joinAll, hany, h]

theorem joinAll_joinAll_cons (bundles others : List Hints) :
    joinAll (joinAll bundles :: others) = joinAll (bundles ++ others) := by
  apply ext_names
  · simp
  · intro name
    rw [mem_names_joinAll, List.exists_mem_cons_iff, mem_names_joinAll,
      mem_names_joinAll]
    simp only [List.mem_append, List.any_cons, List.any_append, asserts_joinAll,
      Bool.or_eq_true]
    grind

theorem joinAll_append (bundles others : List Hints) :
    joinAll (bundles ++ others) = join (joinAll bundles) (joinAll others) := by
  rw [join, joinAll_joinAll_cons]
  calc joinAll (bundles ++ others) = joinAll (others ++ bundles) := by
        refine joinAll_congr fun bundle => ?_
        rw [List.mem_append, List.mem_append, or_comm]
    _ = joinAll (joinAll others :: bundles) :=
        (joinAll_joinAll_cons others bundles).symm
    _ = joinAll (bundles ++ [joinAll others]) := by
        refine joinAll_congr fun bundle => ?_
        rw [List.mem_cons, List.mem_append, List.mem_singleton, or_comm]

theorem foldl_join (bundles others : List Hints) :
    others.foldl join (joinAll bundles) = joinAll (bundles ++ others) := by
  induction others generalizing bundles with
  | nil => rw [List.foldl_nil, List.append_nil]
  | cons bundle others ih =>
      rw [List.foldl_cons, join, joinAll_joinAll_cons, ih, List.append_assoc,
        List.singleton_append]

structure Joins (bundles : List Hints) (joined : Hints) : Prop where
  explicit : joined.inferred = false ↔
    ∃ bundle ∈ bundles, bundle.inferred = false ∧
      ∃ name, name ∈ bundle.names.names
  explicitNames : joined.inferred = false →
    ∀ {name}, name ∈ joined.names.names ↔
      ∃ bundle ∈ bundles, bundle.inferred = false ∧ name ∈ bundle.names.names
  allNames : joined.inferred = true → ∀ {name}, name ∈ joined.names.names ↔
    ∃ bundle ∈ bundles, name ∈ bundle.names.names

theorem joins_joinAll (bundles : List Hints) :
    Joins bundles (joinAll bundles) where
  explicit := by
    rw [inferred_joinAll, Bool.not_eq_false', List.any_eq_true]
    simp only [asserts_iff]
  explicitNames hexplicit {name} := by
    rw [inferred_joinAll, Bool.not_eq_false'] at hexplicit
    simp only [mem_names_joinAll, hexplicit, true_imp_iff]
    refine exists_congr fun bundle => and_congr_right fun _ => ?_
    rw [and_comm (a := bundle.inferred = false)]
    exact and_congr_right asserts_iff_of_mem
  allNames hinferred {name} := by
    rw [inferred_joinAll, Bool.not_eq_true'] at hinferred
    simp [mem_names_joinAll, hinferred]

/-- Joined in parts, one by one or all at once, in any order and however often
each. -/
theorem joinAll_any_order (bundles others : List Hints) :
    joinAll (bundles ++ others) = join (joinAll bundles) (joinAll others) ∧
      ((∀ bundle, bundle ∈ bundles ↔ bundle ∈ others) →
        joinAll bundles = joinAll others) ∧
      joinAll bundles = bundles.foldl join blank ∧
      Joins bundles (joinAll bundles) :=
  ⟨joinAll_append bundles others, joinAll_congr, (foldl_join [] bundles).symm,
    joins_joinAll bundles⟩

/-- An explicit bundle without names does not drive out inferred names. -/
theorem nameless_any_order :
    joinAll [⟨∅, false⟩, .inferredName "owner", .inferredName "author"] =
        joinAll [.inferredName "author", .inferredName "owner",
          .inferredName "author", ⟨∅, false⟩] ∧
      (joinAll [⟨∅, false⟩, .inferredName "owner",
        .inferredName "author"]).names.names = ["author", "owner"] := by
  refine ⟨(joinAll_any_order _ _).2.1 fun bundle => ?_, by decide +kernel⟩
  simp only [List.mem_cons, List.not_mem_nil, or_false]
  tauto

end Hints

end ShapeMerge
