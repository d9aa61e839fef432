import ShapeMerge.Proofs.Exploration.Visits
import ShapeMerge.Proofs.Graph.Flat

namespace ShapeMerge.Graph

open Exploration

abbrev GetsTo (graph : Graph) : Ref → Ref → Prop :=
  Relation.ReflTransGen fun ref member => member ∈ graph.members ref

/-- The references met on every way from a reference through members of unions,
depth first.  A way ends where it meets itself; what is met on several ways
occurs several times. -/
def met (graph : Graph) (ref : Ref) : Except GraphFault (List Ref) :=
  walk graph.openUnion graph.openUnion_bounded [] [ref]

section Steps

variable {graph : Graph} {ref member : Ref} {fault : GraphFault}
  {next : List Ref}

theorem openUnion_eq_ok_iff :
    graph.openUnion ref = .ok next ↔
      graph.has ref = true ∧ next = graph.members ref := by
  rw [openUnion, has_iff_shape?, members]
  cases graph.shape? ref <;> simp [eq_comm]

theorem openUnion_eq_error_iff :
    graph.openUnion ref = .error fault ↔
      graph.has ref = false ∧ fault = .missing ref := by
  rw [← Bool.not_eq_true, has_iff_shape?, openUnion]
  cases graph.shape? ref <;> simp [eq_comm]

theorem has_of_mem_members (h : member ∈ graph.members ref) :
    graph.has ref = true := by
  obtain ⟨_, hshape, _⟩ := shape?_of_mem_members h
  exact has_iff_shape?.mpr ⟨_, hshape⟩

theorem leads_openUnion_iff :
    Leads graph.openUnion ref member ↔ member ∈ graph.members ref := by
  simp only [Leads, openUnion_eq_ok_iff]
  constructor
  · rintro ⟨_, ⟨_, rfl⟩, hmember⟩
    exact hmember
  · exact fun hmember => ⟨_, ⟨has_of_mem_members hmember, rfl⟩, hmember⟩

theorem reaches_openUnion : Reaches graph.openUnion = graph.GetsTo :=
  congrArg _ (funext₂ fun _ _ => propext leads_openUnion_iff)

theorem reaches_openLeniently : Reaches graph.openLeniently = graph.GetsTo := by
  refine congrArg _ (funext₂ fun ref member => propext ?_)
  simp [Leads, openLeniently]

end Steps

section Opened

variable {graph : Graph} {ref : Ref}

theorem mem_opened_iff {opened : List Ref} (h : graph.opened ref = .ok opened)
    {other : Ref} : other ∈ opened ↔ graph.GetsTo ref other := by
  rw [← reaches_openUnion]
  exact mem_explore_iff graph.openUnion_bounded h

theorem mem_openedLeniently_iff {other : Ref} :
    other ∈ graph.openedLeniently ref ↔ graph.GetsTo ref other := by
  rw [← reaches_openLeniently, openedLeniently]
  split
  rename_i hvisited
  exact mem_explore_iff graph.openLeniently_bounded hvisited

theorem opened_eq_error {fault : GraphFault}
    (h : graph.opened ref = .error fault) :
    ∃ lost, fault = .missing lost ∧
      graph.GetsTo ref lost ∧ graph.has lost = false := by
  obtain ⟨lost, hreaches, hstep⟩ :=
    exists_of_explore_error graph.openUnion_bounded h
      (List.forall_mem_singleton.mpr .refl)
  obtain ⟨hlost, rfl⟩ := openUnion_eq_error_iff.mp hstep
  rw [reaches_openUnion] at hreaches
  exact ⟨lost, rfl, hreaches, hlost⟩

theorem opened_failed_iff :
    (∃ fault, graph.opened ref = .error fault) ↔
      ∃ lost, graph.GetsTo ref lost ∧ graph.has lost = false := by
  rw [← reaches_openUnion]
  refine (explore_failed_iff graph.openUnion_bounded).trans
    (exists_congr fun lost => ?_)
  rw [exists_and_left]
  simp only [openUnion_eq_error_iff, exists_and_left, exists_eq, and_true]

theorem has_of_opened {opened : List Ref} (h : graph.opened ref = .ok opened)
    {other : Ref} (hgets : graph.GetsTo ref other) :
    graph.has other = true := by
  by_contra hlost
  obtain ⟨fault, hfault⟩ :=
    opened_failed_iff.mpr ⟨other, hgets, Bool.eq_false_iff.mpr hlost⟩
  rw [h] at hfault
  cases hfault

theorem alternatives_eq_ok_iff {options : List Ref} :
    graph.alternatives ref = .ok options ↔
      ∃ opened, graph.opened ref = .ok opened ∧
        opened.filter graph.isPlain = options :=
  map_eq_ok_iff

theorem alternatives_eq_error_iff {fault : GraphFault} :
    graph.alternatives ref = .error fault ↔
      graph.opened ref = .error fault := by
  rw [alternatives]
  cases graph.opened ref <;> simp [Except.map]

theorem nullable_iff_getsTo :
    graph.nullable ref = true ↔
      ∃ null, graph.GetsTo ref null ∧ graph.kind? null = some .null := by
  simp [nullable, mem_openedLeniently_iff]

theorem nullable_eq_any (graph : Graph) (ref : Ref) :
    graph.nullable ref = (decide (graph.kind? ref = some .null) ||
      (graph.members ref).any graph.nullable) := by
  rw [Bool.eq_iff_iff, Bool.or_eq_true, decide_eq_true_iff, List.any_eq_true]
  simp only [nullable_iff_getsTo]
  constructor
  · rintro ⟨null, hgets, hkind⟩
    rcases hgets.cases_head with rfl | ⟨member, hmember, hgets⟩
    · exact Or.inl hkind
    · exact Or.inr ⟨member, hmember, null, hgets, hkind⟩
  · rintro (hkind | ⟨member, hmember, null, hgets, hkind⟩)
    · exact ⟨ref, .refl, hkind⟩
    · exact ⟨null, .head hmember hgets, hkind⟩

/-- Where membership ends, to ask the members one by one is the only way to
satisfy this equation. -/
theorem eq_nullable_of_asking
    (hends : WellFounded fun member ref => member ∈ graph.members ref)
    {test : Ref → Bool}
    (htest : ∀ ref, test ref =
      (decide (graph.kind? ref = some .null) || (graph.members ref).any test)) :
    test = graph.nullable := by
  funext ref
  induction ref using hends.induction with
  | _ ref ih =>
    rw [htest, nullable_eq_any, Bool.eq_iff_iff]
    simp only [Bool.or_eq_true, List.any_eq_true]
    refine or_congr_right
      (exists_congr fun member => and_congr_right fun hmember => ?_)
    rw [ih member hmember]

end Opened

/-- What the alternatives of a reference are, and when it has none. -/
structure OpensUp (graph : Graph) (ref : Ref) : Prop where
  ends : WellFounded fun after before => Move graph.openUnion before after
  fails : (∃ fault, graph.alternatives ref = .error fault) ↔
    ∃ lost, graph.GetsTo ref lost ∧ graph.has lost = false
  fault : ∀ {fault}, graph.alternatives ref = .error fault →
    ∃ lost, fault = .missing lost ∧ graph.GetsTo ref lost ∧
      graph.has lost = false
  /-- One visited list for all branches leaves out repetitions and nothing
  else. -/
  order : graph.alternatives ref =
    (graph.met ref).map fun visits => visits.eraseDups.filter graph.isPlain
  distinct : ∀ {options}, graph.alternatives ref = .ok options → options.Nodup
  listed : ∀ {options}, graph.alternatives ref = .ok options →
    ∀ {option}, option ∈ options ↔
      graph.GetsTo ref option ∧
        ∃ kind, graph.kind? option = some kind ∧ kind ≠ .union ∧ kind ≠ .null
  /-- Members that go round in circles do no harm. -/
  nullable : graph.nullable ref = true ↔
    ∃ null, graph.GetsTo ref null ∧ graph.kind? null = some .null
  asked : (WellFounded fun member ref => member ∈ graph.members ref) →
    ∀ test : Ref → Bool, (∀ ref, test ref =
      (decide (graph.kind? ref = some .null) || (graph.members ref).any test)) →
      test ref = graph.nullable ref

theorem alternatives_open_up (graph : Graph) (ref : Ref) :
    graph.OpensUp ref where
  ends := move_wellFounded graph.openUnion_bounded
  fails := by
    simp only [alternatives_eq_error_iff]
    exact opened_failed_iff
  fault h := opened_eq_error (alternatives_eq_error_iff.mp h)
  order := by
    rw [alternatives, opened, explore_eq_walk, met]
    cases walk graph.openUnion graph.openUnion_bounded [] [ref] <;> rfl
  distinct h := by
    obtain ⟨opened, hopened, rfl⟩ := alternatives_eq_ok_iff.mp h
    exact (nodup_explore graph.openUnion_bounded hopened).filter _
  listed {options} h {option} := by
    obtain ⟨opened, hopened, rfl⟩ := alternatives_eq_ok_iff.mp h
    rw [List.mem_filter, mem_opened_iff hopened, isPlain_iff]
    refine and_congr_right fun hgets => ?_
    obtain ⟨kind, hkind⟩ := has_iff_kind?.mp (has_of_opened hopened hgets)
    simp [hkind]
  nullable := nullable_iff_getsTo
  asked hends _ htest := congrFun (eq_nullable_of_asking hends htest) ref

end ShapeMerge.Graph
