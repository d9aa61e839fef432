import Mathlib.Logic.Equiv.Defs
import ShapeMerge.Proofs.Merging.Pass

namespace ShapeMerge.Graph

/-!
The test between two records.  Which of them comes first makes no difference,
for any share, also for those that no settings would pass, such as the undefined
number.  For exact shares the test is one formula: the names that both have are
at least the share of the larger record's fields, and what both hold under each
of these names corresponds.
-/

theorem mergeability_symmetric [Share σ] {graph : Graph} (hbuilt : graph.Built)
    (share : σ) :
    (∀ {left right : Record}, graph.Holds left → graph.Holds right →
      graph.mergeable share left right = graph.mergeable share right left) ∧
      ∀ {left right : Ref} {leftRecord rightRecord : Record},
        graph.record? left = some leftRecord →
        graph.record? right = some rightRecord →
        graph.mergeableRefs share left right =
          graph.mergeableRefs share right left := by
  have hflat := hbuilt.flat
  constructor
  · intro left right hleft hright
    exact mergeable_comm hflat share hleft hright
  · intro left right leftRecord rightRecord hleft hright
    exact mergeableRefs_comm hflat share hleft hright

theorem twins_smaller :
    twins.record? ⟨1⟩ = some ⟨.ofList [("id", ⟨0⟩)], false⟩ := rfl

theorem twins_larger :
    twins.record? ⟨4⟩ = some ⟨.ofList [("id", ⟨0⟩), ("size", ⟨3⟩)], false⟩ :=
  rfl

theorem twins_hold {ref : Ref} {content : Record}
    (h : twins.record? ref = some content) : twins.Holds content :=
  twins_built.flat.holds h

theorem twins_symmetric :
    ∃ small large, twins.record? ⟨1⟩ = some small ∧
      twins.record? ⟨4⟩ = some large ∧ twins.Holds small ∧ twins.Holds large ∧
      twins.mergeable Binary64.undefined small large =
        twins.mergeable Binary64.undefined large small ∧
      twins.mergeableRefs Binary64.undefined ⟨1⟩ ⟨4⟩ =
        twins.mergeableRefs Binary64.undefined ⟨4⟩ ⟨1⟩ := by
  obtain ⟨hrecords, hrefs⟩ :=
    mergeability_symmetric twins_built Binary64.undefined
  exact ⟨_, _, twins_smaller, twins_larger, twins_hold twins_smaller,
    twins_hold twins_larger,
    hrecords (twins_hold twins_smaller) (twins_hold twins_larger),
    hrefs twins_smaller twins_larger⟩

variable {graph : Graph} {left right : List Ref}

/-- A bijection between alternatives that keeps their kinds.  A text can go to
any text, all else goes to something equivalent. -/
def Correspond (graph : Graph) (left right : List Ref) : Prop :=
  ∃ partner : {ref // ref ∈ left} ≃ {ref // ref ∈ right}, ∀ ref,
    graph.kind? (partner ref).1 = graph.kind? ref.1 ∧
    (graph.kind? ref.1 ≠ some .text →
      graph.equivalent ref.1 (partner ref).1 = true)

theorem interchangeable_iff (hwf : graph.WellFormed) {x y : Ref} :
    graph.Interchangeable x y ↔
      (graph.kind? x ≠ some .text → graph.equivalent x y = true) := by
  rw [Interchangeable, equivalent_iff_bisimilar hwf]
  tauto

theorem Pairing.exists_bijection
    {related : Ref → Ref → Prop} (hleft : (left.map graph.kind?).Nodup)
    (hright : (right.map graph.kind?).Nodup)
    (h : graph.Pairing related left right) :
    ∃ partner : {ref // ref ∈ left} ≃ {ref // ref ∈ right}, ∀ ref,
      graph.kind? (partner ref).1 = graph.kind? ref.1 ∧
      related ref.1 (partner ref).1 := by
  choose partner hmem hkind hrelated using fun ref :
    {ref // ref ∈ left} => h.exists_partner ref.2
  have hbijective : Function.Bijective fun ref =>
    (⟨partner ref, hmem ref⟩ : {ref // ref ∈ right}) := by
    constructor
    · intro x y hsame
      have hpartners : partner x = partner y := congrArg Subtype.val hsame
      have hkinds : graph.kind? x.1 = graph.kind? y.1 := by
        rw [hkind, hkind, hpartners]
      exact Subtype.ext (List.inj_on_of_nodup_map hleft x.2 y.2 hkinds)
    · intro y
      obtain ⟨x, hx, hsame, _⟩ := h.symm.exists_partner y.2
      refine ⟨⟨x, hx⟩, Subtype.ext ?_⟩
      exact List.inj_on_of_nodup_map hright (hmem _) y.2
        ((hkind ⟨x, hx⟩).symm.trans hsame.symm)
  exact ⟨Equiv.ofBijective _ hbijective,
    fun ref => ⟨(hkind ref).symm, hrelated ref⟩⟩

theorem pairing_of_bijection {related : Ref → Ref → Prop}
    (hleft : left.Nodup) (hright : right.Nodup)
    (partner : {ref // ref ∈ left} ≃ {ref // ref ∈ right})
    (h : ∀ ref, graph.kind? (partner ref).1 = graph.kind? ref.1 ∧
      related ref.1 (partner ref).1) : graph.Pairing related left right := by
  refine ⟨left.attach.map fun ref => (ref.1, (partner ref).1), ?_, ?_, ?_⟩
  · rw [List.map_map]
    exact .of_eq left.attach_map_subtype_val
  · have hinjective : Function.Injective fun ref => (partner ref).1 :=
      Subtype.val_injective.comp partner.injective
    rw [List.map_map]
    refine (List.perm_ext_iff_of_nodup
      ((List.nodup_attach.mpr hleft).map hinjective) hright).mpr fun y => ?_
    rw [List.mem_map]
    constructor
    · rintro ⟨ref, _, rfl⟩
      exact (partner ref).2
    · intro hy
      refine ⟨partner.symm ⟨y, hy⟩, List.mem_attach _ _, ?_⟩
      exact congrArg Subtype.val (partner.apply_symm_apply ⟨y, hy⟩)
  · intro pair hpair
    obtain ⟨ref, _, rfl⟩ := List.mem_map.mp hpair
    exact ⟨(h ref).1.symm, (h ref).2⟩

theorem correspond_iff_pairing
    (hwf : graph.WellFormed) (hleft : (left.map graph.kind?).Nodup)
    (hright : (right.map graph.kind?).Nodup) :
    graph.Correspond left right ↔
      graph.Pairing graph.Interchangeable left right := by
  simp only [Correspond, ← interchangeable_iff hwf]
  constructor
  · intro h
    obtain ⟨partner, hpartner⟩ := h
    exact pairing_of_bijection (hleft.of_map graph.kind?)
      (hright.of_map graph.kind?) partner hpartner
  · exact Pairing.exists_bijection hleft hright

/-- What two fields can be besides `null` corresponds, unless one of them can be
nothing else. -/
def Reconcilable (graph : Graph) (left right : Ref) : Prop :=
  ∃ xs ys, graph.alternatives left = .ok xs ∧
    graph.alternatives right = .ok ys ∧
    (xs = [] ∨ ys = [] ∨ graph.Correspond xs ys)

theorem Flat.agree_iff (hflat : graph.Flat) {x y : Ref}
    (hx : graph.has x = true) (hy : graph.has y = true) :
    graph.Agree x y ↔ graph.Reconcilable x y := by
  have hcorrespond :=
    correspond_iff_pairing hflat.toWellFormed (hflat.options_kinds x)
      (hflat.options_kinds y)
  rw [Agree, ← hcorrespond, Reconcilable, hflat.alternatives_eq_ok hx,
    hflat.alternatives_eq_ok hy]
  simp

/-- Where the ceiling does not leave the range of counts, it is exact. -/
theorem ceiling_le_iff {value : Rat} {bound count : Nat} (hle : value ≤ bound)
    (hbound : bound < countLimit) :
    (Extended.finite value).ceiling ≤ count ↔ value ≤ count := by
  have hceil : value.ceil.toNat ≤ bound :=
    Int.toNat_le.mpr (Rat.ceil_le_iff.mpr (by exact_mod_cast hle))
  have hexact : (Extended.finite value).ceiling = value.ceil.toNat :=
    Nat.min_eq_left (by omega)
  rw [hexact, Int.toNat_le, Rat.ceil_le_iff]
  norm_cast

/-- With an exact share the size gate and the budget come to one comparison. -/
theorem verdict_eq_ok (share : Rat) {larger smaller shared : Nat}
    (hshared : shared ≤ smaller) (hcount : smaller < countLimit)
    (agree : Bool) :
    verdict share larger smaller shared agree =
      .ok (decide ((larger : Rat) * share ≤ shared) && agree) := by
  have hcast : (shared : Rat) ≤ smaller := by exact_mod_cast hshared
  by_cases hpasses : (larger : Rat) * share ≤ smaller
  · have hceiling {count : Nat} : (Share.scale share larger).ceiling ≤ count ↔
        (larger : Rat) * share ≤ count := ceiling_le_iff hpasses hcount
    have hexceeds : (Share.scale share larger).exceeds smaller = false :=
      decide_eq_false (Rat.not_lt.mpr hpasses)
    have hbudget := hceiling.mpr hpasses
    rw [verdict, hexceeds, if_neg Bool.false_ne_true,
      if_neg (Nat.not_lt.mpr hbudget)]
    by_cases henough : (larger : Rat) * share ≤ shared
    · have := hceiling.mpr henough
      rw [if_neg (by omega), decide_eq_true henough, Bool.true_and]
    · have := mt hceiling.mp henough
      rw [if_pos (by omega), decide_eq_false henough, Bool.false_and]
  · have hexceeds : (Share.scale share larger).exceeds smaller = true :=
      decide_eq_true (Rat.not_le.mp hpasses)
    have hfew : ¬ (larger : Rat) * share ≤ shared :=
      fun hle => hpasses (Rat.le_trans hle hcast)
    rw [verdict, hexceeds, if_pos rfl, decide_eq_false hfew, Bool.false_and]

theorem length_sharedNames_le (left right : Record) :
    (sharedNames left right).length ≤
      min left.fields.size right.fields.size := by
  have hle (left right : Record) :
      (sharedNames left right).length ≤ left.fields.size := by
    rw [← NameMap.length_names]
    exact List.length_filter_le _ _
  refine Nat.le_min.mpr ⟨hle left right, ?_⟩
  rw [length_sharedNames_comm]
  exact hle right left

theorem names_eq_of_shared {left right : Record}
    (h : max left.fields.size right.fields.size ≤
      (sharedNames left right).length) :
    left.fields.names = right.fields.names := by
  have hsubset {left right : Record}
      (h : left.fields.size ≤ (sharedNames left right).length) {name : String}
      (hname : name ∈ left.fields.names) : name ∈ right.fields.names := by
    rw [← NameMap.length_names] at h
    have hall := List.length_filter_eq_length_iff.mp
      (Nat.le_antisymm (List.length_filter_le _ _) h)
    exact of_decide_eq_true (hall name hname)
  obtain ⟨hleft, hright⟩ := Nat.max_le.mp h
  rw [length_sharedNames_comm] at hright
  exact NameMap.names_eq_of_mem_iff fun name => ⟨hsubset hleft, hsubset hright⟩

open Classical in
/-- The test never fails, and it passes exactly the records that share enough
names and hold under each of these what corresponds.  All names have to be
shared if the share is the whole.  The smaller record has no more fields than a
count can hold, so no ceiling that matters saturates. -/
theorem mergeable_closed_form {graph : Graph}
    (hbuilt : graph.Built) (share : Rat) {left right : Record}
    (hleft : graph.Holds left) (hright : graph.Holds right)
    (hcount : min left.fields.size right.fields.size < countLimit) :
    ∃ answer, graph.mergeable share left right = .ok answer ∧
      (answer = true ↔ (max left.fields.size right.fields.size : Nat) * share ≤
          (sharedNames left right).length ∧
          ∀ {name x y}, left.fields.find? name = some x →
            right.fields.find? name = some y → graph.Reconcilable x y) ∧
      (share = 1 → answer = true → left.fields.names = right.fields.names) := by
  have hflat := hbuilt.flat
  have hagree : graph.FieldsAgree left right ↔
      ∀ {name x y}, left.fields.find? name = some x →
        right.fields.find? name = some y → graph.Reconcilable x y := by
    constructor
    · intro h name x y hx hy
      exact (hflat.agree_iff (hleft hx) (hright hy)).mp (h hx hy)
    · intro h name x y hx hy
      exact (hflat.agree_iff (hleft hx) (hright hy)).mpr (h hx hy)
  refine ⟨_, (mergeable_eq_verdict hflat share hleft hright).trans
    (verdict_eq_ok share (length_sharedNames_le left right) hcount _), ?_,
    fun hwhole hanswer => ?_⟩
  · rw [Bool.and_eq_true, decide_eq_true_iff, decide_eq_true_iff, hagree]
  · subst hwhole
    obtain ⟨henough, _⟩ := Bool.and_eq_true_iff.mp hanswer
    have hle := of_decide_eq_true henough
    rw [Rat.mul_one] at hle
    exact names_eq_of_shared (by exact_mod_cast hle)

theorem twins_closed_form :
    ∃ small large, twins.record? ⟨1⟩ = some small ∧
      twins.record? ⟨4⟩ = some large ∧ twins.Holds small ∧ twins.Holds large ∧
      min small.fields.size large.fields.size < countLimit ∧
      ∃ answer, twins.mergeable (1 / 2 : Rat) small large = .ok answer ∧
        (answer = true ↔ (max small.fields.size large.fields.size : Nat) *
            (1 / 2 : Rat) ≤ (sharedNames small large).length ∧
            ∀ {name x y}, small.fields.find? name = some x →
              large.fields.find? name = some y → twins.Reconcilable x y) ∧
        ((1 / 2 : Rat) = 1 → answer = true →
          small.fields.names = large.fields.names) := by
  have hcount : min (1 : Nat) 2 < countLimit := by decide
  exact ⟨_, _, twins_smaller, twins_larger, twins_hold twins_smaller,
    twins_hold twins_larger, hcount,
    mergeable_closed_form twins_built (1 / 2) (twins_hold twins_smaller)
      (twins_hold twins_larger) hcount⟩

end ShapeMerge.Graph
