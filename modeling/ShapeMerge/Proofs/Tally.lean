import Mathlib.Algebra.GroupWithZero.Nat
import Mathlib.Data.List.Basic
import ShapeMerge.Number.Binary64
import ShapeMerge.NameMap.Lemmas
import ShapeMerge.Shape

namespace ShapeMerge.Tally

/-!
What tallies add up to.  Every operation on tallies adds counted literals one by
one, so what is counted, which literals there are, and the total follow from the
three laws of `add`.  The first two determine a tally, so neither the order of
the additions matters nor how they are grouped.
-/

def countIn (pairs : List (String × Nat)) (literal : String) : Nat :=
  ((pairs.filter (·.1 = literal)).map (·.2)).sum

variable {literal : String}

theorem countIn_cons (pair : String × Nat) (pairs : List (String × Nat)) :
    countIn (pair :: pairs) literal =
      (if literal = pair.1 then pair.2 else 0) + countIn pairs literal := by
  rw [countIn, countIn, List.filter_cons]
  by_cases heq : literal = pair.1
  · simp [heq]
  · simp [heq, Ne.symm heq]

theorem countIn_eq_lookup {pairs : List (String × Nat)}
    (h : (pairs.map (·.1)).Nodup) :
    countIn pairs literal = (pairs.lookup literal).getD 0 := by
  induction pairs with
  | nil => rfl
  | cons pair rest ih =>
      obtain ⟨other, occurrences⟩ := pair
      rw [List.map_cons, List.nodup_cons] at h
      rw [countIn_cons, ih h.2, List.lookup_cons]
      by_cases heq : literal = other
      · subst heq
        have hnone : rest.lookup literal = none := by
          rw [List.lookup_eq_none_iff]
          intro pair hpair
          rw [bne_iff_ne]
          exact fun heq => h.1 (List.mem_map.mpr ⟨pair, hpair, heq.symm⟩)
        simp [hnone]
      · rw [if_neg heq, Nat.zero_add, beq_eq_false_iff_ne.mpr heq]

theorem countIn_entries (tally : Tally) :
    countIn tally.entries literal = tally.count literal :=
  countIn_eq_lookup tally.names_nodup

section Add

variable (tally : Tally) (other : String) (occurrences : Nat)

@[simp] theorem count_add :
    (tally.add other occurrences).count literal =
      tally.count literal + if literal = other then occurrences else 0 := by
  rw [count, count, add]
  by_cases heq : literal = other
  · subst heq
    simp
  · simp [heq, NameMap.find?_upsert_of_ne tally heq]

@[simp] theorem mem_names_add :
    literal ∈ (tally.add other occurrences).names ↔
      literal ∈ tally.names ∨ literal = other := by
  rw [NameMap.mem_names_iff, NameMap.mem_names_iff, add]
  by_cases heq : literal = other
  · subst heq
    simp
  · simp [heq, NameMap.find?_upsert_of_ne tally heq]

end Add

section Fold

variable (tally : Tally) (pairs : List (String × Nat))

theorem count_foldl_add :
    count (pairs.foldl (fun sum pair => add sum pair.1 pair.2) tally) literal =
      tally.count literal + countIn pairs literal := by
  induction pairs generalizing tally with
  | nil => rfl
  | cons pair rest ih =>
      rw [List.foldl_cons, ih, count_add, countIn_cons, Nat.add_assoc]

theorem mem_names_foldl_add :
    literal ∈
        (pairs.foldl (fun sum pair => add sum pair.1 pair.2) tally).names ↔
      literal ∈ tally.names ∨ literal ∈ pairs.map (·.1) := by
  induction pairs generalizing tally with
  | nil => simp
  | cons pair rest ih =>
      rw [List.foldl_cons, ih, mem_names_add, List.map_cons,
        List.mem_cons, or_assoc]

end Fold

@[simp] theorem count_merge (tally other : Tally) :
    (tally.merge other).count literal =
      tally.count literal + other.count literal := by
  rw [merge, count_foldl_add, countIn_entries]

@[simp] theorem mem_names_merge (tally other : Tally) :
    literal ∈ (tally.merge other).names ↔
      literal ∈ tally.names ∨ literal ∈ other.names := by
  rw [merge, mem_names_foldl_add]
  rfl

section Sum

variable (tally : Tally) (tallies : List Tally)

theorem count_foldl_merge :
    count (tallies.foldl merge tally) literal =
      tally.count literal + (tallies.map (·.count literal)).sum := by
  induction tallies generalizing tally with
  | nil => rfl
  | cons other rest ih =>
      rw [List.foldl_cons, ih, count_merge, List.map_cons, List.sum_cons,
        Nat.add_assoc]

theorem mem_names_foldl_merge :
    literal ∈ (tallies.foldl merge tally).names ↔
      literal ∈ tally.names ∨ ∃ other ∈ tallies, literal ∈ other.names := by
  induction tallies generalizing tally with
  | nil => simp
  | cons other rest ih =>
      rw [List.foldl_cons, ih, mem_names_merge,
        List.exists_mem_cons_iff, or_assoc]

theorem count_sum :
    (sum tallies).count literal = (tallies.map (·.count literal)).sum := by
  rw [sum, count_foldl_merge]
  exact Nat.zero_add _

@[simp] theorem mem_names_sum :
    literal ∈ (sum tallies).names ↔
      ∃ tally ∈ tallies, literal ∈ tally.names := by
  rw [sum, mem_names_foldl_merge]
  exact or_iff_right List.not_mem_nil

end Sum

section Total

variable (tally other : Tally) (pairs : List (String × Nat))

@[simp] theorem total_empty : total ∅ = 0 := rfl

theorem sum_upsert (name : String) (occurrences : Nat)
    (entries : List (String × Nat)) :
    ((NameMap.Entries.upsert name (fun seen => seen.getD 0 + occurrences)
      entries).map (·.2)).sum = (entries.map (·.2)).sum + occurrences := by
  fun_induction NameMap.Entries.upsert name
    (fun seen => seen.getD 0 + occurrences) entries <;>
    simp_all <;> omega

@[simp] theorem total_add (occurrences : Nat) :
    (tally.add literal occurrences).total = tally.total + occurrences :=
  sum_upsert literal occurrences tally.entries

@[simp] theorem total_foldl_add :
    total (pairs.foldl (fun sum pair => add sum pair.1 pair.2) tally) =
      tally.total + (pairs.map (·.2)).sum := by
  induction pairs generalizing tally with
  | nil => rfl
  | cons pair rest ih =>
      rw [List.foldl_cons, ih, total_add, List.map_cons, List.sum_cons,
        Nat.add_assoc]

theorem total_ofList : (ofList pairs).total = (pairs.map (·.2)).sum := by
  rw [ofList, total_foldl_add, total_empty, Nat.zero_add]

@[simp] theorem total_merge :
    (tally.merge other).total = tally.total + other.total :=
  total_foldl_add tally other.entries

theorem total_foldl_merge (tallies : List Tally) :
    total (tallies.foldl merge tally) =
      tally.total + (tallies.map total).sum := by
  induction tallies generalizing tally with
  | nil => rfl
  | cons other rest ih =>
      rw [List.foldl_cons, ih, total_merge, List.map_cons, List.sum_cons,
        Nat.add_assoc]

theorem total_sum (tallies : List Tally) :
    (sum tallies).total = (tallies.map total).sum := by
  rw [sum, total_foldl_merge, total_empty, Nat.zero_add]

end Total

section Equality

/-- Literals with count zero are literals, so the counts alone do not determine
a tally. -/
theorem ext_count {left right : Tally}
    (hnames : ∀ literal, literal ∈ left.names ↔ literal ∈ right.names)
    (hcount : ∀ literal, left.count literal = right.count literal) :
    left = right := by
  apply NameMap.ext_find?
  intro literal
  have hname := hnames literal
  have hsame := hcount literal
  rw [NameMap.mem_names_iff, NameMap.mem_names_iff] at hname
  rw [count, count] at hsame
  cases hleft : left.find? literal <;>
    cases hright : right.find? literal <;> simp_all

theorem ofList_perm {pairs order : List (String × Nat)} (h : order.Perm pairs) :
    ofList order = ofList pairs := by
  apply ext_count
  · intro literal
    rw [ofList, ofList, mem_names_foldl_add, mem_names_foldl_add,
      (h.map _).mem_iff]
  · intro literal
    rw [ofList, ofList, count_foldl_add, count_foldl_add, countIn, countIn,
      ((h.filter _).map _).sum_nat]

theorem sum_perm {tallies order : List Tally} (h : order.Perm tallies) :
    sum order = sum tallies := by
  apply ext_count
  · intro literal
    simp only [mem_names_sum, h.mem_iff]
  · intro literal
    rw [count_sum, count_sum, (h.map _).sum_nat]

theorem sum_append (tallies others : List Tally) :
    sum (tallies ++ others) = (sum tallies).merge (sum others) := by
  apply ext_count
  · intro literal
    simp [or_and_right, exists_or]
  · intro literal
    rw [count_merge, count_sum, count_sum, count_sum, List.map_append,
      List.sum_append]

theorem sum_eq_ofList (tallies : List Tally) :
    sum tallies = ofList (tallies.flatMap (·.entries)) := by
  rw [ofList, List.foldl_flatMap]
  rfl

theorem merge_singleton (tally : Tally) (pair : String × Nat) :
    tally.merge (ofList [pair]) = tally.add pair.1 pair.2 := by
  change tally.add pair.1 (0 + pair.2) = tally.add pair.1 pair.2
  rw [Nat.zero_add]

theorem sum_map_singleton (pairs : List (String × Nat)) :
    sum (pairs.map fun pair => ofList [pair]) = ofList pairs := by
  simp only [sum, List.foldl_map, merge_singleton]
  rfl

end Equality

/-- What the sum of tallies is, and that it does not matter in which order or in
which steps it is formed. -/
structure AddsUp (tallies : List Tally) : Prop where
  literals : ∀ {literal}, literal ∈ (sum tallies).names ↔
    ∃ tally ∈ tallies, literal ∈ tally.names
  counts :
    ∀ literal, (sum tallies).count literal = (tallies.map (·.count literal)).sum
  total : (sum tallies).total = (tallies.map total).sum
  order : ∀ {order}, order.Perm tallies → sum order = sum tallies
  parts : ∀ others, sum (tallies ++ others) = (sum tallies).merge (sum others)
  steps : sum tallies = ofList (tallies.flatMap (·.entries))
  /-- If all counts together are in range, so are all counts after each of the
  additions. -/
  inRange : (tallies.map Tally.total).sum < countLimit →
    ∀ {pairs}, pairs <+: tallies.flatMap (·.entries) →
      (ofList pairs).total < countLimit ∧
        ∀ literal, (ofList pairs).count literal < countLimit

theorem count_le_total (tally : Tally) (literal : String) :
    tally.count literal ≤ tally.total := by
  have hpairs (pairs : List (String × Nat)) :
      countIn pairs literal ≤ (pairs.map (·.2)).sum := by
    induction pairs with
    | nil => exact Nat.le_refl 0
    | cons pair rest ih =>
        rw [countIn_cons, List.map_cons, List.sum_cons]
        split <;> omega
  rw [← countIn_entries]
  exact hpairs tally.entries

theorem total_prefix_le {pairs others : List (String × Nat)}
    (h : pairs <+: others) : (ofList pairs).total ≤ (ofList others).total := by
  obtain ⟨rest, rfl⟩ := h
  rw [total_ofList, total_ofList, List.map_append, List.sum_append]
  exact Nat.le_add_right _ _

theorem addsUp (tallies : List Tally) : AddsUp tallies where
  literals := mem_names_sum tallies
  counts _ := count_sum tallies
  total := total_sum tallies
  order := sum_perm
  parts := sum_append tallies
  steps := sum_eq_ofList tallies
  inRange hfits {pairs} hprefix := by
    rw [← total_sum, sum_eq_ofList] at hfits
    have htotal := Nat.lt_of_le_of_lt (total_prefix_le hprefix) hfits
    exact ⟨htotal, fun literal =>
      Nat.lt_of_le_of_lt (count_le_total _ literal) htotal⟩

/-- Tallies are added like multisets, and so are the counted literals that a
tally is made of. -/
theorem sums_are_multiset_sums (tallies : List Tally)
    (pairs : List (String × Nat)) :
    AddsUp tallies ∧ ∀ order : List (String × Nat), order.Perm pairs →
      ofList pairs = sum (order.map fun pair => ofList [pair]) := by
  refine ⟨addsUp tallies, fun order horder => ?_⟩
  rw [sum_map_singleton, ofList_perm horder]

/-- A literal that was counted zero times stays in the sum. -/
theorem colors_sum :
    [("red", 2), ("blue", 0)].Perm [("blue", 0), ("red", 2)] ∧
      ofList [("blue", 0), ("red", 2)] =
        sum [ofList [("red", 2)], ofList [("blue", 0)]] ∧
      "blue" ∈ (sum [ofList [("red", 2)], ofList [("blue", 0)]]).names ∧
      (sum [ofList [("red", 2)], ofList [("blue", 0)]]).total = 2 := by
  have horder : [("red", 2), ("blue", 0)].Perm [("blue", 0), ("red", 2)] := by
    decide
  obtain ⟨hsum, hpairs⟩ := sums_are_multiset_sums
    [ofList [("red", 2)], ofList [("blue", 0)]] [("blue", 0), ("red", 2)]
  refine ⟨horder, hpairs _ horder, hsum.literals.mpr ?_, hsum.total⟩
  exact ⟨ofList [("blue", 0)], by decide, by decide⟩

end ShapeMerge.Tally
