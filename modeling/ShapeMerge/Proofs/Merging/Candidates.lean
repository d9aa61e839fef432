import ShapeMerge.Merging.Pass
import ShapeMerge.Proofs.Merging.Compatible

namespace ShapeMerge

namespace Graph

def isCandidate (graph : Graph) (ref : Ref) : Bool :=
  (graph.record? ref).any (!·.pinned)

theorem records_eq (graph : Graph) :
    graph.records =
      graph.refs.filterMap fun ref => (graph.record? ref).map (ref, ·) := by
  rw [records, ← entries_fst, List.filterMap_map]
  apply List.filterMap_congr
  intro entry hentry
  simp [record?, mem_entries_shape? hentry]

theorem records_fst (graph : Graph) :
    graph.records.map (·.1) =
      graph.refs.filter fun ref => (graph.record? ref).isSome := by
  rw [records_eq, List.map_filterMap, ← List.filterMap_eq_filter]
  apply List.filterMap_congr
  intro ref _
  cases hrecord : graph.record? ref with
  | none => simp [Option.guard, hrecord]
  | some content => simp [Option.guard, hrecord]

theorem candidates_eq (graph : Graph) :
    graph.candidates = graph.refs.filter graph.isCandidate := by
  rw [candidates, records_eq]
  induction graph.refs with
  | nil => rfl
  | cons ref refs ih =>
      cases hrecord : graph.record? ref with
      | none => simp [hrecord, isCandidate, ih]
      | some content =>
          cases hpinned :
            content.pinned <;> simp [hrecord, hpinned, isCandidate, ih]

theorem candidates_nodup (graph : Graph) : graph.candidates.Nodup := by
  rw [candidates_eq]
  exact graph.refs_nodup.filter _

theorem candidates_ordered (graph : Graph) :
    graph.candidates.Pairwise (· < ·) := by
  rw [candidates_eq]
  exact graph.refs_ordered.filter _

theorem mem_candidates {graph : Graph} {ref : Ref} :
    ref ∈ graph.candidates ↔
      ∃ content, graph.record? ref = some content ∧ content.pinned = false := by
  rw [candidates_eq, List.mem_filter, isCandidate, Option.any_eq_true]
  simp only [Bool.not_eq_true']
  constructor
  · exact And.right
  · intro h
    have hmem : ref ∈ graph.refs := by
      obtain ⟨content, hrecord, _⟩ := h
      exact mem_refs.mpr (has_iff.mp (has_of_record? hrecord))
    exact ⟨hmem, h⟩

theorem WellFormed.holds {graph : Graph} (hwf : graph.WellFormed) {ref : Ref}
    {content : Record} (h : graph.record? ref = some content) :
    graph.Holds content := by
  intro name child hchild
  exact hwf.children (record?_eq_some_iff.mp h) child
    (NameMap.mem_values_iff.mpr ⟨name, hchild⟩)

theorem mergeableRefs_eq [Share σ] {graph : Graph} (share : σ)
    {left right : Ref} {leftRecord rightRecord : Record}
    (hleft : graph.record? left = some leftRecord)
    (hright : graph.record? right = some rightRecord) :
    graph.mergeableRefs share left right =
      graph.mergeable share leftRecord rightRecord := by
  rw [mergeableRefs, hleft, hright]

theorem mergeable_comm [Share σ] {graph : Graph} (hflat : graph.Flat)
    (share : σ) {left right : Record} (hleft : graph.Holds left)
    (hright : graph.Holds right) :
    graph.mergeable share left right = graph.mergeable share right left := by
  have hcomm : graph.FieldsAgree left right ↔ graph.FieldsAgree right left :=
    ⟨FieldsAgree.symm, FieldsAgree.symm⟩
  rw [mergeable_eq_verdict hflat share hleft hright,
    mergeable_eq_verdict hflat share hright hleft, Nat.max_comm, Nat.min_comm,
    length_sharedNames_comm left right, decide_eq_decide.mpr hcomm]

theorem mergeableRefs_comm [Share σ] {graph : Graph} (hflat : graph.Flat)
    (share : σ) {left right : Ref} {leftRecord rightRecord : Record}
    (hleft : graph.record? left = some leftRecord)
    (hright : graph.record? right = some rightRecord) :
    graph.mergeableRefs share left right =
      graph.mergeableRefs share right left := by
  rw [mergeableRefs_eq share hleft hright, mergeableRefs_eq share hright hleft]
  exact mergeable_comm hflat share (hflat.holds hleft) (hflat.holds hright)

theorem mergeableRefs_congr [Share σ]
    {graph : Graph} (hflat : graph.Flat) (share : σ) {left other right : Ref}
    (hleft : left ∈ graph.candidates) (hright : right ∈ graph.candidates)
    (hbisimilar : graph.Bisimilar left other) :
    graph.mergeableRefs share left right =
      graph.mergeableRefs share other right := by
  obtain ⟨leftRecord, hleft, _⟩ := mem_candidates.mp hleft
  obtain ⟨rightRecord, hright, _⟩ := mem_candidates.mp hright
  obtain ⟨otherRecord, hother, _, hnames, hfields⟩ := hbisimilar.record? hleft
  have hsize : leftRecord.fields.size = otherRecord.fields.size := by
    simpa using congrArg List.length hnames
  have hpartner {name : String} {x : Ref}
      (hx : otherRecord.fields.find? name = some x) :
      ∃ y, leftRecord.fields.find? name = some y :=
    NameMap.mem_names_iff.mp (hnames ▸ NameMap.mem_names_iff.mpr ⟨x, hx⟩)
  have hpartner' {name : String} {x : Ref}
      (hx : leftRecord.fields.find? name = some x) :
      ∃ y, otherRecord.fields.find? name = some y :=
    NameMap.mem_names_iff.mp (hnames ▸ NameMap.mem_names_iff.mpr ⟨x, hx⟩)
  have hagree : graph.FieldsAgree leftRecord rightRecord ↔
      graph.FieldsAgree otherRecord rightRecord := by
    constructor
    · intro h name x z hx hz
      obtain ⟨y, hy⟩ := hpartner hx
      exact (h hy hz).of_bisimilar (hfields hy hx).symm
    · intro h name x z hx hz
      obtain ⟨y, hy⟩ := hpartner' hx
      exact (h hy hz).of_bisimilar (hfields hx hy)
  rw [mergeableRefs_eq share hleft hright, mergeableRefs_eq share hother hright,
    mergeable_eq_verdict hflat share (hflat.holds hleft) (hflat.holds hright),
    mergeable_eq_verdict hflat share (hflat.holds hother) (hflat.holds hright),
    hsize, sharedNames_congr hnames, decide_eq_decide.mpr hagree]

theorem ceiling_le_of_not_exceeds {value : Rat} {count : Nat}
    (h : (Extended.finite value).exceeds count = false) :
    (Extended.finite value).ceiling ≤ count := by
  have hle : value ≤ ((count : Int) : Rat) := by
    have hle := of_decide_eq_false h
    exact Rat.not_lt.mp hle
  have hceil : value.ceil ≤ (count : Int) := Rat.ceil_le_iff.mpr hle
  exact Nat.le_trans (Nat.min_le_left _ _) (Int.toNat_le.mpr hceil)

/-- An exact share leaves a budget wherever it lets the smaller record pass. -/
theorem exists_verdict_eq_ok (share : Rat) (larger smaller shared : Nat)
    (agree : Bool) :
    ∃ answer, verdict share larger smaller shared agree = .ok answer := by
  unfold verdict
  by_cases hexceeds : (Share.scale share larger).exceeds smaller = true
  · exact ⟨false, by simp [hexceeds]⟩
  · have hceiling := ceiling_le_of_not_exceeds (Bool.eq_false_iff.mpr hexceeds)
    have hbudget : ¬ smaller < (Share.scale share larger).ceiling :=
      Nat.not_lt.mpr hceiling
    simp only [if_neg hexceeds, if_neg hbudget]
    split
    · exact ⟨false, rfl⟩
    · exact ⟨agree, rfl⟩

theorem verdict_of_same_names {share : Rat} (hshare : share ≤ 1) (count : Nat)
    (agree : Bool) : verdict share count count count agree = .ok agree := by
  have hle : (count : Rat) * share ≤ count := by
    have hcount : (0 : Rat) ≤ count := Rat.natCast_nonneg
    have hmul := Rat.mul_le_mul_of_nonneg_left hshare hcount
    rwa [Rat.mul_one] at hmul
  have hpasses : (Share.scale share count).exceeds count = false :=
    decide_eq_false (Rat.not_lt.mpr hle)
  have hbudget : ¬ count < (Share.scale share count).ceiling :=
    Nat.not_lt.mpr (ceiling_le_of_not_exceeds hpasses)
  simp [verdict, hpasses, hbudget]

theorem exists_mergeableRefs_eq_ok {graph : Graph} (hflat : graph.Flat)
    (share : Rat) {left right : Ref} (hleft : left ∈ graph.candidates)
    (hright : right ∈ graph.candidates) :
    ∃ answer, graph.mergeableRefs share left right = .ok answer := by
  obtain ⟨leftRecord, hleft, _⟩ := mem_candidates.mp hleft
  obtain ⟨rightRecord, hright, _⟩ := mem_candidates.mp hright
  rw [mergeableRefs_eq share hleft hright,
    mergeable_eq_verdict hflat share (hflat.holds hleft) (hflat.holds hright)]
  exact exists_verdict_eq_ok share _ _ _ _

open Classical in
theorem mergeableRefs_of_same_names {graph : Graph} (hflat : graph.Flat)
    {share : Rat}
    (hshare : share ≤ 1) {left right : Ref} {leftRecord rightRecord : Record}
    (hleft : graph.record? left = some leftRecord)
    (hright : graph.record? right = some rightRecord)
    (hnames : leftRecord.fields.names = rightRecord.fields.names)
    (hagree : graph.FieldsAgree leftRecord rightRecord) :
    graph.mergeableRefs share left right = .ok true := by
  have hsize : rightRecord.fields.size = leftRecord.fields.size := by
    simpa using congrArg List.length hnames.symm
  have hshared :
      (sharedNames leftRecord rightRecord).length = leftRecord.fields.size := by
    rw [sharedNames, ← hnames, List.filter_eq_self.mpr fun name hname => by
      simpa using hname, NameMap.length_names]
  rw [mergeableRefs_eq share hleft hright,
    mergeable_eq_verdict hflat share (hflat.holds hleft) (hflat.holds hright),
    hsize, hshared, Nat.max_self, Nat.min_self, verdict_of_same_names hshare]
  exact congrArg Except.ok (decide_eq_true @hagree)

theorem mergeableRefs_of_bisimilar {graph : Graph} (hflat : graph.Flat)
    {share : Rat} (hshare : share ≤ 1) {left right : Ref}
    (hleft : left ∈ graph.candidates) (h : graph.Bisimilar left right) :
    graph.mergeableRefs share left right = .ok true := by
  obtain ⟨leftRecord, hleft, _⟩ := mem_candidates.mp hleft
  obtain ⟨rightRecord, hright, _, hnames, hfields⟩ := h.record? hleft
  exact mergeableRefs_of_same_names hflat hshare hleft hright hnames
    fun hx hy => agree_of_bisimilar (hfields hx hy)

open Classical in
theorem fieldsAgree_of_mergeableRefs
    [Share σ] {graph : Graph} (hflat : graph.Flat) {share : σ}
    {left right : Ref} {leftRecord rightRecord : Record}
    (hleft : graph.record? left = some leftRecord)
    (hright : graph.record? right = some rightRecord)
    (h : graph.mergeableRefs share left right = .ok true) :
    graph.FieldsAgree leftRecord rightRecord := by
  rw [mergeableRefs_eq share hleft hright,
    mergeable_eq_verdict hflat share (hflat.holds hleft) (hflat.holds hright),
    verdict] at h
  split at h
  · cases h
  · split at h
    · cases h
    · split at h
      · cases h
      · have hagree := Except.ok.inj h
        rwa [decide_eq_true_iff] at hagree

end Graph

end ShapeMerge
