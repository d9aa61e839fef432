import Mathlib.Data.List.Nodup
import Mathlib.Data.Option.Basic
import ShapeMerge.Graph.Basic
import ShapeMerge.NameMap.Lemmas

namespace ShapeMerge

/-!
Well-formed graphs, said without the order of the checks: children and roots are
nodes, and the members of a union have different kinds.  These are the graphs
that pass `Graph.check`.
-/

theorem Kind.repeated?_eq_none_iff {seen kinds : List Kind} :
    Kind.repeated? seen kinds = none ↔
      kinds.Nodup ∧ ∀ kind ∈ kinds, kind ∉ seen := by
  induction kinds generalizing seen with
  | nil => simp [repeated?]
  | cons kind rest ih =>
      simp only [repeated?, List.nodup_cons, List.forall_mem_cons]
      by_cases hseen : kind ∈ seen
      · simp [hseen]
      · simp only [hseen, if_false, ih, List.mem_cons, not_or]
        constructor
        · rintro ⟨hnodup, hfresh⟩
          exact ⟨⟨fun hmem => (hfresh kind hmem).1 rfl, hnodup⟩,
            not_false, fun other hother => (hfresh other hother).2⟩
        · rintro ⟨⟨habsent, hnodup⟩, _, hfresh⟩
          refine ⟨hnodup, fun other hother => ⟨?_, hfresh other hother⟩⟩
          rintro rfl
          exact habsent hother

theorem Shape.mem_children_of_mem_members {shape : Shape} {ref : Ref}
    (h : ref ∈ shape.members) : ref ∈ shape.children := by
  cases shape with
  | union alternatives => exact h
  | _ => cases h

theorem Shape.members_eq_nil {shape : Shape} (h : shape.children = []) :
    shape.members = [] :=
  List.eq_nil_of_subset_nil fun _ hmember =>
    h ▸ mem_children_of_mem_members hmember

namespace Graph

structure WellFormed (graph : Graph) : Prop where
  children : ∀ {ref : Ref} {shape : Shape}, graph.shape? ref = some shape →
    ∀ child ∈ shape.children, graph.has child = true
  /-- Also a member that is repeated counts as a repeated kind. -/
  kinds : ∀ {ref : Ref} {alternatives : List Ref},
    graph.shape? ref = some (.union alternatives) →
    (alternatives.map graph.kind?).Nodup
  roots : ∀ {name : String} {target : Ref}, graph.root? name = some target →
    graph.has target = true

theorem has_iff {graph : Graph} {ref : Ref} :
    graph.has ref = true ↔ ref.index < graph.size :=
  decide_eq_true_iff

theorem has_iff_node? {graph : Graph} {ref : Ref} :
    graph.has ref = true ↔ ∃ node, graph.node? ref = some node := by
  rw [has_iff]
  constructor
  · exact fun h => ⟨_, Array.getElem?_eq_getElem h⟩
  · rintro ⟨node, hnode⟩
    exact (Array.getElem?_eq_some_iff.mp hnode).1

theorem has_iff_shape? {graph : Graph} {ref : Ref} :
    graph.has ref = true ↔ ∃ shape, graph.shape? ref = some shape := by
  simp [has_iff_node?, shape?]

theorem has_iff_kind? {graph : Graph} {ref : Ref} :
    graph.has ref = true ↔ ∃ kind, graph.kind? ref = some kind := by
  simp [has_iff_node?, kind?, shape?]

theorem shape?_of_node? {graph : Graph} {ref : Ref} {node : Node}
    (h : graph.node? ref = some node) : graph.shape? ref = some node.shape := by
  simp [shape?, h]

theorem kind?_of_shape? {graph : Graph} {ref : Ref} {shape : Shape}
    (h : graph.shape? ref = some shape) :
    graph.kind? ref = some shape.kind := by
  simp [kind?, h]

theorem shape?_of_kind?_null {graph : Graph} {ref : Ref}
    (h : graph.kind? ref = some .null) :
    graph.shape? ref = some (.primitive .null) := by
  obtain ⟨shape, hshape, hkind⟩ := Option.map_eq_some_iff.mp h
  cases shape with
  | primitive base =>
      cases hkind
      exact hshape
  | _ => cases hkind

theorem shape?_of_kind?_text {graph : Graph} {ref : Ref}
    (h : graph.kind? ref = some .text) :
    ∃ literals, graph.shape? ref = some (.text literals) := by
  obtain ⟨shape, hshape, hkind⟩ := Option.map_eq_some_iff.mp h
  cases shape with
  | text literals => exact ⟨literals, hshape⟩
  | _ => cases hkind

theorem shape?_of_kind?_record {graph : Graph} {ref : Ref}
    (h : graph.kind? ref = some .record) :
    ∃ content, graph.shape? ref = some (.record content) := by
  obtain ⟨shape, hshape, hkind⟩ := Option.map_eq_some_iff.mp h
  cases shape with
  | record content => exact ⟨content, hshape⟩
  | _ => cases hkind

theorem shape?_of_kind?_union {graph : Graph} {ref : Ref}
    (h : graph.kind? ref = some .union) :
    ∃ alternatives, graph.shape? ref = some (.union alternatives) := by
  obtain ⟨shape, hshape, hkind⟩ := Option.map_eq_some_iff.mp h
  cases shape with
  | union alternatives => exact ⟨alternatives, hshape⟩
  | _ => cases hkind

theorem record?_eq_some_iff {graph : Graph} {ref : Ref} {content : Record} :
    graph.record? ref = some content ↔
      graph.shape? ref = some (.record content) := by
  constructor
  · intro h
    obtain ⟨shape, hshape, hrecord⟩ := Option.bind_eq_some_iff.mp h
    cases shape <;> cases hrecord
    exact hshape
  · intro h
    rw [record?, h]
    rfl

theorem has_of_record? {graph : Graph} {ref : Ref} {content : Record}
    (h : graph.record? ref = some content) : graph.has ref = true :=
  has_iff_shape?.mpr ⟨_, record?_eq_some_iff.mp h⟩

theorem mem_refs_iff_has {graph : Graph} {ref : Ref} :
    ref ∈ graph.refs ↔ graph.has ref = true :=
  mem_refs.trans has_iff.symm

theorem refs_ordered (graph : Graph) : graph.refs.Pairwise (· < ·) :=
  List.pairwise_map.mpr List.pairwise_lt_range

theorem refs_nodup (graph : Graph) : graph.refs.Nodup := by
  refine List.Nodup.map (fun x y h => ?_) List.nodup_range
  injection h

theorem entries_fst (graph : Graph) : graph.entries.map (·.1) = graph.refs := by
  have hpositions :
      graph.nodes.toList.zipIdx.map Prod.snd = List.range graph.size := by
    rw [List.zipIdx_map_snd, List.range_eq_range', Array.length_toList, size]
  rw [refs, ← hpositions, entries, List.map_map, List.map_map]
  rfl

theorem entries_ordered (graph : Graph) :
    graph.entries.Pairwise (·.1 < ·.1) := by
  rw [← List.pairwise_map, entries_fst]
  exact graph.refs_ordered

theorem mem_entries {graph : Graph} {ref : Ref} {node : Node} :
    (ref, node) ∈ graph.entries ↔ graph.node? ref = some node := by
  obtain ⟨index⟩ := ref
  simp [entries, node?, List.mem_zipIdx_iff_getElem?]

theorem mem_entries_shape? {graph : Graph} {entry : Ref × Node}
    (h : entry ∈ graph.entries) : graph.shape? entry.1 = some entry.2.shape :=
  shape?_of_node? (mem_entries.mp h)

theorem map_kind?_eq {graph : Graph} {refs : List Ref}
    (h : ∀ ref ∈ refs, graph.has ref = true) :
    refs.map graph.kind? = (refs.filterMap graph.kind?).map some := by
  induction refs with
  | nil => rfl
  | cons ref rest ih =>
      obtain ⟨kind, hkind⟩ := has_iff_kind?.mp (h ref List.mem_cons_self)
      simp [hkind, ih fun other hother =>
        h other (List.mem_cons_of_mem ref hother)]

theorem nodeFault?_eq_none_iff {graph : Graph} {entry : Ref × Node} :
    graph.nodeFault? entry = none ↔
      (∀ child ∈ entry.2.shape.children, graph.has child = true) ∧
        (entry.2.shape.members.map graph.kind?).Nodup := by
  simp only [nodeFault?]
  split
  · rename_i target htarget
    have hmem := List.mem_of_find?_eq_some htarget
    have hlost := List.find?_some htarget
    simp only [reduceCtorEq, false_iff, not_and]
    intro hall
    simp [hall target hmem] at hlost
  · rename_i hnone
    have hall : ∀ child ∈ entry.2.shape.children, graph.has child = true := by
      simpa using hnone
    have hmembers : ∀ ref ∈ entry.2.shape.members, graph.has ref = true :=
      fun ref href => hall ref (Shape.mem_children_of_mem_members href)
    rw [map_kind?_eq hmembers, List.nodup_map_iff (Option.some_injective _)]
    simp only [Option.map_eq_none_iff, Kind.repeated?_eq_none_iff,
      List.not_mem_nil, not_false_iff, implies_true, and_true]
    exact ⟨fun hnodup => ⟨hall, hnodup⟩, And.right⟩

theorem rootFault?_eq_none_iff {graph : Graph} :
    graph.rootFault? = none ↔
      ∀ {name : String} {target : Ref}, graph.root? name = some target →
        graph.has target = true := by
  simp only [rootFault?, Option.map_eq_none_iff, List.find?_eq_none,
    NameMap.values, root?, NameMap.find?_eq_some_iff, List.mem_map, Prod.exists,
    exists_eq_right, Bool.not_eq_true', Bool.not_eq_false, forall_exists_index]
  exact forall_comm

theorem check_eq_ok_iff {graph : Graph} :
    graph.check = .ok () ↔ graph.WellFormed := by
  have hfault : graph.check = .ok () ↔ graph.fault? = none := by
    unfold check
    split <;> simp_all
  rw [hfault, fault?, Option.or_eq_none_iff, List.findSome?_eq_none_iff,
    rootFault?_eq_none_iff]
  constructor
  · rintro ⟨hnodes, hroots⟩
    have hnode {ref : Ref} {shape : Shape} (h : graph.shape? ref = some shape) :
        (∀ child ∈ shape.children, graph.has child = true) ∧
          (shape.members.map graph.kind?).Nodup := by
      obtain ⟨node, hnode, rfl⟩ := Option.map_eq_some_iff.mp h
      exact nodeFault?_eq_none_iff.mp
        (hnodes (ref, node) (mem_entries.mpr hnode))
    exact ⟨fun h => (hnode h).1, fun h => (hnode h).2, hroots⟩
  · rintro ⟨hchildren, hkinds, hroots⟩
    refine ⟨fun entry hentry => nodeFault?_eq_none_iff.mpr ?_, hroots⟩
    have hshape := mem_entries_shape? hentry
    refine ⟨hchildren hshape, ?_⟩
    cases hcase : entry.2.shape with
    | union alternatives => exact hkinds (hshape.trans (congrArg some hcase))
    | _ => exact List.nodup_nil

end Graph

end ShapeMerge
