import Mathlib.Data.List.Perm.Basic
import Mathlib.Data.List.Perm.Subperm
import ShapeMerge.Graph.Equivalence
import ShapeMerge.Proofs.Graph.WellFormed
import ShapeMerge.Proofs.Success

namespace ShapeMerge.Graph

/-!
Pairings of two lists of nodes: each node of one has a partner of its kind in
the other, and no two have the same partner.
-/

def Pairing (graph : Graph) (related : Ref → Ref → Prop)
    (left right : List Ref) : Prop :=
  ∃ pairs : List (Ref × Ref),
    (pairs.map Prod.fst).Perm left ∧ (pairs.map Prod.snd).Perm right ∧
    ∀ pair ∈ pairs, graph.kind? pair.1 = graph.kind? pair.2 ∧
      related pair.1 pair.2

namespace Pairing

variable {graph : Graph} {related : Ref → Ref → Prop} {left right : List Ref}

theorem mono {wider : Ref → Ref → Prop}
    (hle : ∀ {x y}, graph.kind? x = graph.kind? y → related x y → wider x y)
    (h : graph.Pairing related left right) :
    graph.Pairing wider left right := by
  obtain ⟨pairs, hleft, hright, hpairs⟩ := h
  refine ⟨pairs, hleft, hright, fun pair hpair => ?_⟩
  obtain ⟨hkind, hrelated⟩ := hpairs pair hpair
  exact ⟨hkind, hle hkind hrelated⟩

theorem refl (hrelated : ∀ ref, related ref ref) (refs : List Ref) :
    graph.Pairing related refs refs := by
  refine ⟨refs.map fun ref => (ref, ref), ?_, ?_, ?_⟩
  · simp [Function.comp_def]
  · simp [Function.comp_def]
  · intro pair hpair
    obtain ⟨ref, _, rfl⟩ := List.mem_map.mp hpair
    exact ⟨rfl, hrelated ref⟩

theorem symm (h : graph.Pairing related left right) :
    graph.Pairing (fun x y => related y x) right left := by
  obtain ⟨pairs, hleft, hright, hpairs⟩ := h
  refine ⟨pairs.map Prod.swap, ?_, ?_, ?_⟩
  · simpa [Function.comp_def] using hright
  · simpa [Function.comp_def] using hleft
  · intro pair hpair
    obtain ⟨source, hsource, rfl⟩ := List.mem_map.mp hpair
    exact ⟨(hpairs source hsource).1.symm, (hpairs source hsource).2⟩

theorem cons {x y : Ref} (hkind : graph.kind? x = graph.kind? y)
    (hrelated : related x y) (h : graph.Pairing related left right) :
    graph.Pairing related (x :: left) (y :: right) := by
  obtain ⟨pairs, hleft, hright, hpairs⟩ := h
  exact ⟨(x, y) :: pairs, hleft.cons x, hright.cons y,
    List.forall_mem_cons.mpr ⟨⟨hkind, hrelated⟩, hpairs⟩⟩

theorem nil : graph.Pairing related [] [] :=
  ⟨[], List.Perm.nil, List.Perm.nil, by simp⟩

theorem length_eq (h : graph.Pairing related left right) :
    left.length = right.length := by
  obtain ⟨pairs, hleft, hright, _⟩ := h
  rw [← hleft.length_eq, ← hright.length_eq, List.length_map, List.length_map]

theorem exists_partner (h : graph.Pairing related left right) {ref : Ref}
    (href : ref ∈ left) :
    ∃ partner ∈ right,
      graph.kind? ref = graph.kind? partner ∧ related ref partner := by
  obtain ⟨pairs, hleft, hright, hpairs⟩ := h
  obtain ⟨pair, hpair, rfl⟩ := List.mem_map.mp (hleft.mem_iff.mpr href)
  exact ⟨pair.2, hright.mem_iff.mp (List.mem_map_of_mem hpair),
    hpairs pair hpair⟩

theorem filter {picked : Ref → Bool}
    (hkind : ∀ {x y}, graph.kind? x = graph.kind? y → picked x = picked y)
    (h : graph.Pairing related left right) :
    graph.Pairing related (left.filter picked) (right.filter picked) := by
  obtain ⟨pairs, hleft, hright, hpairs⟩ := h
  refine ⟨pairs.filter fun pair => picked pair.1, ?_, ?_, fun pair hpair => ?_⟩
  · have hfilter := hleft.filter picked
    rwa [List.filter_map] at hfilter
  · have hfilter := hright.filter picked
    rw [List.filter_map] at hfilter
    refine List.Perm.trans (List.Perm.of_eq ?_) hfilter
    refine congrArg (List.map Prod.snd) (List.filter_congr fun pair hpair => ?_)
    exact hkind (hpairs pair hpair).1
  · exact hpairs pair (List.mem_filter.mp hpair).1

/-- The second list of pairs is put into the order in which the first pairs the
members of the union in the middle. -/
theorem exists_composed {first second : List (Ref × Ref)}
    (h : (first.map Prod.snd).Perm (second.map Prod.fst)) :
    ∃ pairs : List (Ref × Ref), (pairs.map Prod.fst).Perm (first.map Prod.fst) ∧
      (pairs.map Prod.snd).Perm (second.map Prod.snd) ∧
      ∀ pair ∈ pairs, ∃ middle, (pair.1, middle) ∈ first ∧
        (middle, pair.2) ∈ second := by
  obtain ⟨ordered, hmiddle, hperm⟩ :=
    (congrFun (congrFun (List.eq_map_comp_perm Prod.fst) (first.map Prod.snd))
      second).mpr h
  have hlength : first.length = ordered.length := by
    simpa using congrArg List.length hmiddle
  refine ⟨(first.map Prod.fst).zip (ordered.map Prod.snd), ?_, ?_, ?_⟩
  · rw [List.map_fst_zip (by simp [hlength])]
  · rw [List.map_snd_zip (by simp [hlength])]
    exact hperm.map Prod.snd
  · intro pair hpair
    rw [List.zip_map, List.mem_map] at hpair
    obtain ⟨⟨left, right⟩, hmem, rfl⟩ := hpair
    have hsame : left.2 = right.1 := by
      obtain ⟨index, hindex, heq⟩ := List.mem_iff_getElem.mp hmem
      rw [List.length_zip, Nat.lt_min] at hindex
      rw [List.getElem_zip, Prod.mk.injEq] at heq
      have hget := congrArg (·[index]?) hmiddle
      simpa [← heq.1, ← heq.2, hindex.1, hindex.2] using hget
    refine ⟨left.2, (List.of_mem_zip hmem).1, ?_⟩
    rw [hsame]
    exact hperm.mem_iff.mp (List.of_mem_zip hmem).2

theorem trans {further : Ref → Ref → Prop}
    {middle : List Ref} (hfirst : graph.Pairing related left middle)
    (hsecond : graph.Pairing further middle right) :
    graph.Pairing (Relation.Comp related further) left right := by
  obtain ⟨first, hleft, hmiddle, hpairs⟩ := hfirst
  obtain ⟨second, hmiddle', hright, hpairs'⟩ := hsecond
  obtain ⟨composed, hfst, hsnd, hmem⟩ :=
    exists_composed (hmiddle.trans hmiddle'.symm)
  refine ⟨composed, hfst.trans hleft, hsnd.trans hright, fun pair hpair => ?_⟩
  obtain ⟨member, hone, hother⟩ := hmem pair hpair
  obtain ⟨hkind, hrelated⟩ := hpairs _ hone
  obtain ⟨hkind', hrelated'⟩ := hpairs' _ hother
  exact ⟨hkind.trans hkind', member, hrelated, hrelated'⟩

end Pairing

theorem ofKind?_sound {graph : Graph} {alternatives : List Ref} {kind : Kind}
    {ref : Ref} (h : graph.ofKind? alternatives kind = some ref) :
    ref ∈ alternatives ∧ graph.kind? ref = some kind := by
  unfold ofKind? at h
  have hkind := List.find?_some h
  exact ⟨List.mem_reverse.mp (List.mem_of_find?_eq_some h),
    of_decide_eq_true hkind⟩

theorem ofKind?_eq_some_iff {graph : Graph} {alternatives : List Ref}
    {kind : Kind} {ref : Ref} (hkinds : (alternatives.map graph.kind?).Nodup) :
    graph.ofKind? alternatives kind = some ref ↔
      ref ∈ alternatives ∧ graph.kind? ref = some kind := by
  refine ⟨ofKind?_sound, fun ⟨hmem, hkind⟩ => ?_⟩
  cases hfound : graph.ofKind? alternatives kind with
  | none =>
      have hnone := List.find?_eq_none.mp hfound ref (List.mem_reverse.mpr hmem)
      simp [hkind] at hnone
  | some other =>
      obtain ⟨hother, hotherKind⟩ := ofKind?_sound hfound
      rw [List.inj_on_of_nodup_map hkinds hother hmem
        (hotherKind.trans hkind.symm)]

theorem pairAlternatives_eq_some
    {graph : Graph} {left right : List Ref} {pairs : List (Ref × Ref)}
    (h : graph.pairAlternatives left right = some pairs) :
    left.length = right.length ∧ pairs.map Prod.fst = left ∧
      ∀ pair ∈ pairs, pair.2 ∈ right ∧
        graph.kind? pair.1 = graph.kind? pair.2 := by
  unfold pairAlternatives at h
  split at h
  · rename_i hlength
    have hpartner {ref : Ref} {pair : Ref × Ref}
        (h : (do let kind ← graph.kind? ref
                 let other ← graph.ofKind? right kind
                 return (ref, other)) = some pair) :
        pair.1 = ref ∧ ∃ kind, graph.kind? ref = some kind ∧
          graph.ofKind? right kind = some pair.2 := by
      simp only [bind, Option.bind_eq_some_iff, pure, Option.some.injEq] at h
      obtain ⟨kind, hkind, other, hother, rfl⟩ := h
      exact ⟨rfl, kind, hkind, hother⟩
    refine ⟨hlength, map_of_mapM_eq_some (fun _ _ h => (hpartner h).1) h,
      fun pair hpair => ?_⟩
    obtain ⟨ref, _, hsome⟩ := exists_source_of_mapM_eq_some h hpair
    obtain ⟨rfl, kind, hkind, hother⟩ := hpartner hsome
    obtain ⟨hmem, hotherKind⟩ := ofKind?_sound hother
    exact ⟨hmem, hkind.trans hotherKind.symm⟩
  · cases h

theorem partners_perm {graph : Graph} {left right : List Ref}
    {pairs : List (Ref × Ref)} (hkinds : (left.map graph.kind?).Nodup)
    (h : graph.pairAlternatives left right = some pairs) :
    (pairs.map Prod.snd).Perm right := by
  obtain ⟨hlength, hleft, hpairs⟩ := pairAlternatives_eq_some h
  have hsame : (pairs.map Prod.snd).map graph.kind? = left.map graph.kind? := by
    rw [← hleft, List.map_map, List.map_map]
    exact List.map_congr_left fun pair hpair => (hpairs pair hpair).2.symm
  have hnodup : (pairs.map Prod.snd).Nodup :=
    List.Nodup.of_map graph.kind? (hsame ▸ hkinds)
  have hsubset : pairs.map Prod.snd ⊆ right := by
    intro ref href
    obtain ⟨pair, hpair, rfl⟩ := List.mem_map.mp href
    exact (hpairs pair hpair).1
  have hcount : right.length = (pairs.map Prod.snd).length := by
    rw [← hlength, ← hleft, List.length_map, List.length_map]
  exact (List.Nodup.subperm hnodup hsubset).perm_of_length_le
    (Nat.le_of_eq hcount)

theorem pairing_of_pairAlternatives
    {graph : Graph} {related : Ref → Ref → Prop} {left right : List Ref}
    {pairs : List (Ref × Ref)} (hkinds : (left.map graph.kind?).Nodup)
    (h : graph.pairAlternatives left right = some pairs)
    (hrelated : ∀ pair ∈ pairs, related pair.1 pair.2) :
    graph.Pairing related left right := by
  obtain ⟨_, hleft, hpairs⟩ := pairAlternatives_eq_some h
  refine ⟨pairs, List.Perm.of_eq hleft, partners_perm hkinds h,
    fun pair hpair => ?_⟩
  exact ⟨(hpairs pair hpair).2, hrelated pair hpair⟩

theorem exists_pairAlternatives {graph : Graph} {related : Ref → Ref → Prop}
    {left right : List Ref} (hhas : ∀ ref ∈ left, graph.has ref = true)
    (hkinds : (right.map graph.kind?).Nodup)
    (h : graph.Pairing related left right) :
    ∃ pairs, graph.pairAlternatives left right = some pairs ∧
      ∀ pair ∈ pairs, related pair.1 pair.2 := by
  rw [pairAlternatives, if_pos h.length_eq]
  apply exists_mapM_eq_some
  intro ref href
  obtain ⟨kind, hkind⟩ := has_iff_kind?.mp (hhas _ href)
  obtain ⟨partner, hmem, hsame, hrelated⟩ := h.exists_partner href
  have hpartner : graph.ofKind? right kind = some partner :=
    (ofKind?_eq_some_iff hkinds).mpr ⟨hmem, hsame.symm.trans hkind⟩
  exact ⟨(ref, partner), by simp [hkind, hpartner], hrelated⟩

end ShapeMerge.Graph
