import ShapeMerge.Merging.Mergeable
import ShapeMerge.Proofs.Graph.Bisimulation

namespace ShapeMerge.Graph

/-!
When two records of a flat graph can be merged, said without the order of the
tests: a verdict on three counts, and agreement of the fields that both have.
Agreement is symmetric, and equivalent nodes can be exchanged in it.
-/

def Interchangeable (graph : Graph) (left right : Ref) : Prop :=
  graph.kind? left = some .text ∨ graph.Bisimilar left right

/-- What two fields can be besides `null` pairs up, unless one of them is only
`null`. -/
def Agree (graph : Graph) (left right : Ref) : Prop :=
  graph.options left = [] ∨ graph.options right = [] ∨
    graph.Pairing graph.Interchangeable (graph.options left)
      (graph.options right)

def FieldsAgree (graph : Graph) (left right : Record) : Prop :=
  ∀ {name x y}, left.fields.find? name = some x →
    right.fields.find? name = some y → graph.Agree x y

def Holds (graph : Graph) (content : Record) : Prop :=
  ∀ {name ref}, content.fields.find? name = some ref → graph.has ref = true

section Agreement

variable {graph : Graph} {left right other : Ref}

theorem Agree.symm (h : graph.Agree left right) : graph.Agree right left := by
  rcases h with hleft | hright | hpairing
  · exact Or.inr (Or.inl hleft)
  · exact Or.inl hright
  · refine Or.inr (Or.inr (hpairing.symm.mono fun {x y} hkind h => ?_))
    rcases h with htext | hbisimilar
    · exact Or.inl (hkind.trans htext)
    · exact Or.inr hbisimilar.symm

theorem agree_of_bisimilar (h : graph.Bisimilar left right) :
    graph.Agree left right :=
  Or.inr (Or.inr (h.pairing_options.mono fun _ => Or.inr))

theorem Agree.of_bisimilar (hagree : graph.Agree left right)
    (h : graph.Bisimilar other left) : graph.Agree other right := by
  have hoptions := h.pairing_options
  rcases hagree with hleft | hright | hpairing
  · left
    rw [hleft] at hoptions
    exact List.eq_nil_of_length_eq_zero hoptions.length_eq
  · exact Or.inr (Or.inl hright)
  · refine Or.inr (Or.inr ((hoptions.trans hpairing).mono fun {x z} _ h => ?_))
    obtain ⟨y, hxy, htext | hyz⟩ := h
    · exact Or.inl (hxy.kind?_eq.trans htext)
    · exact Or.inr (hxy.trans hyz)

theorem fieldsAgree_refl (graph : Graph) (content : Record) :
    graph.FieldsAgree content content := by
  intro name x y hx hy
  obtain rfl := Option.some.inj (hx.symm.trans hy)
  exact agree_of_bisimilar (Bisimilar.refl graph x)

theorem FieldsAgree.symm {left right : Record}
    (h : graph.FieldsAgree left right) : graph.FieldsAgree right left :=
  fun hx hy => (h hy hx).symm

end Agreement

theorem exists_pairUp {graph : Graph} {refs : List Ref} (others : List Ref)
    (hhas : ∀ ref ∈ refs, graph.has ref = true) :
    ∃ verdict, graph.pairUp others refs = .ok verdict ∧
      (verdict = true ↔ ∀ ref ∈ refs, ∃ kind other,
        graph.kind? ref = some kind ∧ graph.ofKind? others kind = some other ∧
        (kind.isText || graph.equivalent ref other) = true) := by
  induction refs with
  | nil => exact ⟨true, rfl, by simp⟩
  | cons ref refs ih =>
      obtain ⟨hself, hrest⟩ := List.forall_mem_cons.mp hhas
      obtain ⟨kind, hkind⟩ := has_iff_kind?.mp hself
      obtain ⟨verdict, hverdict, hiff⟩ := ih hrest
      simp only [pairUp, hkind, List.forall_mem_cons]
      cases hother : graph.ofKind? others kind with
      | none =>
          refine ⟨false, rfl, ?_⟩
          simp [hother]
      | some other =>
          by_cases hfits : (kind.isText || graph.equivalent ref other) = true
          · refine ⟨verdict, by simp [hfits, hverdict], hiff.trans ?_⟩
            exact (and_iff_right ⟨kind, other, rfl, hother, hfits⟩).symm
          · refine ⟨false, by simp [hfits], ?_⟩
            simp only [Bool.false_eq_true, false_iff, not_and_or]
            left
            rintro ⟨known, partner, hknown, hpartner, hyes⟩
            cases hknown
            rw [hother] at hpartner
            cases hpartner
            exact hfits hyes

theorem exists_agree {graph : Graph} (hwf : graph.WellFormed)
    {left right : List Ref} (hleft : ∀ ref ∈ left, graph.has ref = true)
    (hright : ∀ ref ∈ right, graph.has ref = true)
    (hleftKinds : (left.map graph.kind?).Nodup)
    (hrightKinds : (right.map graph.kind?).Nodup) :
    ∃ verdict, graph.agree left right = .ok verdict ∧
      (verdict = true ↔ graph.Pairing graph.Interchangeable left right) := by
  have hinterchangeable {ref other : Ref} {kind : Kind}
      (hkind : graph.kind? ref = some kind) :
      (kind.isText || graph.equivalent ref other) = true ↔
        graph.Interchangeable ref other := by
    rw [Bool.or_eq_true, equivalent_iff_bisimilar hwf, Interchangeable, hkind,
      Kind.isText, decide_eq_true_eq, Option.some.injEq]
  unfold agree
  split
  · rename_i hlength
    exact ⟨false, rfl,
      by simpa using fun h : Pairing _ _ _ _ => hlength h.length_eq⟩
  · rename_i hlength
    rw [not_not] at hlength
    have hknown : right.find? (graph.kind? · = none) = none := by
      rw [List.find?_eq_none]
      intro ref href
      obtain ⟨kind, hkind⟩ := has_iff_kind?.mp (hright ref href)
      simp [hkind]
    rw [hknown]
    obtain ⟨verdict, hverdict, hiff⟩ := exists_pairUp right hleft
    refine ⟨verdict, hverdict,
      hiff.trans ⟨fun hall => ?_, fun hpairing ref href => ?_⟩⟩
    · have hpairs : ∃ pairs, graph.pairAlternatives left right = some pairs ∧
          ∀ pair ∈ pairs, graph.Interchangeable pair.1 pair.2 := by
        rw [pairAlternatives, if_pos hlength]
        apply exists_mapM_eq_some
        intro ref href
        obtain ⟨kind, other, hkind, hother, hfits⟩ := hall ref href
        exact ⟨(ref, other), by simp [hkind, hother],
          (hinterchangeable hkind).mp hfits⟩
      obtain ⟨pairs, hpairs, hrelated⟩ := hpairs
      exact pairing_of_pairAlternatives hleftKinds hpairs hrelated
    · obtain ⟨kind, hkind⟩ := has_iff_kind?.mp (hleft ref href)
      obtain ⟨partner, hmem, hsame, hrelated⟩ := hpairing.exists_partner href
      refine ⟨kind, partner, hkind, ?_, (hinterchangeable hkind).mpr hrelated⟩
      exact (ofKind?_eq_some_iff hrightKinds).mpr ⟨hmem, hsame.symm.trans hkind⟩

theorem exists_fieldAgrees {graph : Graph} (hflat : graph.Flat)
    {left right : Ref} (hleft : graph.has left = true)
    (hright : graph.has right = true) :
    ∃ verdict, graph.fieldAgrees left right = .ok verdict ∧
      (verdict = true ↔ graph.Agree left right) := by
  obtain ⟨verdict, hverdict, hiff⟩ := exists_agree hflat.toWellFormed
    (fun _ h => hflat.options_has hleft h)
    (fun _ h => hflat.options_has hright h)
    (hflat.options_kinds left) (hflat.options_kinds right)
  rw [fieldAgrees, hflat.alternatives_eq_ok hleft,
    hflat.alternatives_eq_ok hright]
  simp only [bind, Except.bind]
  by_cases hempty :
      ((graph.options left).isEmpty || (graph.options right).isEmpty) = true
  · rw [if_pos hempty]
    rw [Bool.or_eq_true, List.isEmpty_iff, List.isEmpty_iff] at hempty
    exact ⟨true, rfl, iff_of_true rfl (hempty.imp_right Or.inl)⟩
  · rw [if_neg hempty]
    rw [Bool.or_eq_true, List.isEmpty_iff, List.isEmpty_iff, not_or] at hempty
    refine ⟨verdict, hverdict, ?_⟩
    rw [hiff, Agree, or_iff_right hempty.1, or_iff_right hempty.2]

section Shared

variable {graph : Graph} {left right : Record} {names : List String}

theorem mem_sharedNames {name : String} :
    name ∈ sharedNames left right ↔
      name ∈ left.fields.names ∧ name ∈ right.fields.names := by
  simp [sharedNames]

theorem sharedNames_nodup (left right : Record) :
    (sharedNames left right).Nodup :=
  left.fields.names_nodup.filter _

theorem length_sharedNames_comm (left right : Record) :
    (sharedNames left right).length = (sharedNames right left).length := by
  apply List.Perm.length_eq
  rw [List.perm_ext_iff_of_nodup (sharedNames_nodup left right)
    (sharedNames_nodup right left)]
  intro name
  rw [mem_sharedNames, mem_sharedNames, and_comm]

theorem sharedNames_congr {left other : Record}
    (h : left.fields.names = other.fields.names) (right : Record) :
    sharedNames left right = sharedNames other right := by
  rw [sharedNames, sharedNames, h]

theorem fieldsAgree_cons {name : String} {x y : Ref}
    (hx : left.fields.find? name = some x)
    (hy : right.fields.find? name = some y) (rest : List String) :
    graph.fieldsAgree left right (name :: rest) =
      match graph.fieldAgrees x y with
      | .error fault => .error (.graph fault)
      | .ok true => graph.fieldsAgree left right rest
      | .ok false => .ok false := by
  rw [fieldsAgree, sharedField, hx, sharedField, hy]
  simp only [bind, Except.bind]
  cases graph.fieldAgrees x y with
  | error fault => rfl
  | ok agrees => cases agrees <;> rfl

theorem exists_fieldsAgree (hflat : graph.Flat) (hleft : graph.Holds left)
    (hright : graph.Holds right)
    (hshared : ∀ name ∈ names,
      name ∈ left.fields.names ∧ name ∈ right.fields.names) :
    ∃ verdict, graph.fieldsAgree left right names = .ok verdict ∧
      (verdict = true ↔ ∀ name ∈ names, ∀ {x y},
        left.fields.find? name = some x → right.fields.find? name = some y →
          graph.Agree x y) := by
  induction names with
  | nil => exact ⟨true, rfl, by simp⟩
  | cons name rest ih =>
      obtain ⟨⟨hl, hr⟩, hothers⟩ := List.forall_mem_cons.mp hshared
      obtain ⟨x, hx⟩ := NameMap.mem_names_iff.mp hl
      obtain ⟨y, hy⟩ := NameMap.mem_names_iff.mp hr
      obtain ⟨verdict, hverdict, hiff⟩ := ih hothers
      obtain ⟨single, hsingle, hself⟩ :=
        exists_fieldAgrees hflat (hleft hx) (hright hy)
      have hhere : (∀ {x y}, left.fields.find? name = some x →
          right.fields.find? name = some y → graph.Agree x y) ↔
            single = true := by
        rw [hself]
        constructor
        · exact fun h => h hx hy
        · intro h x' y' hx' hy'
          cases hx.symm.trans hx'
          cases hy.symm.trans hy'
          exact h
      rw [fieldsAgree_cons hx hy, hsingle]
      simp only [List.forall_mem_cons, hhere]
      cases single with
      | true => exact ⟨verdict, hverdict, hiff.trans (and_iff_right rfl).symm⟩
      | false => exact ⟨false, rfl, by simp⟩

theorem fieldsAgree_ne_lostField (graph : Graph)
    (hshared : ∀ name ∈ names,
      name ∈ left.fields.names ∧ name ∈ right.fields.names) (lost : String) :
    graph.fieldsAgree left right names ≠ .error (.lostField lost) := by
  induction names with
  | nil => exact nofun
  | cons name rest ih =>
      obtain ⟨⟨hl, hr⟩, hothers⟩ := List.forall_mem_cons.mp hshared
      obtain ⟨x, hx⟩ := NameMap.mem_names_iff.mp hl
      obtain ⟨y, hy⟩ := NameMap.mem_names_iff.mp hr
      rw [fieldsAgree_cons hx hy]
      cases graph.fieldAgrees x y with
      | error fault => exact nofun
      | ok agrees =>
          cases agrees with
          | true => exact ih hothers
          | false => exact nofun

/-- On any graph: only names that both records have are looked up. -/
theorem mergeable_ne_lostField [Share σ] (graph : Graph) (share : σ)
    (left right : Record) (lost : String) :
    graph.mergeable share left right ≠ .error (.lostField lost) := by
  have habsorbable (larger smaller : Record) :
      graph.absorbable share larger smaller ≠ .error (.lostField lost) := by
    have hfields : graph.fieldsAgree smaller larger
        (sharedNames smaller larger) ≠ .error (.lostField lost) :=
      fieldsAgree_ne_lostField graph
        (fun name hname => mem_sharedNames.mp hname) lost
    rw [absorbable]
    split
    · exact nofun
    · split
      · exact nofun
      · split
        · exact nofun
        · exact hfields
  rw [mergeable]
  split
  · exact habsorbable left right
  · exact habsorbable right left

end Shared

/-- The verdict on two records with `larger` and `smaller` fields, of which they
share `shared`. -/
def verdict [Share σ] (share : σ) (larger smaller shared : Nat) (agree : Bool) :
    Except MergeFault Bool :=
  let wanted := Share.scale share larger
  if wanted.exceeds smaller then .ok false
  else if smaller < wanted.ceiling then
    .error (.negativeBudget larger smaller wanted.ceiling)
  else if smaller - wanted.ceiling < smaller - shared then .ok false
  else .ok agree

open Classical in
theorem absorbable_eq_verdict [Share σ] {graph : Graph} (hflat : graph.Flat)
    (share : σ) {larger smaller : Record} (hlarger : graph.Holds larger)
    (hsmaller : graph.Holds smaller) :
    graph.absorbable share larger smaller =
      verdict share larger.fields.size smaller.fields.size
        (sharedNames smaller larger).length
        (decide (graph.FieldsAgree smaller larger)) := by
  obtain ⟨agree, hagree, hiff⟩ := exists_fieldsAgree hflat hsmaller hlarger
    fun name hname => mem_sharedNames.mp hname
  have hdecide : decide (graph.FieldsAgree smaller larger) = agree := by
    rw [Bool.eq_iff_iff, decide_eq_true_iff, hiff]
    constructor
    · exact fun h name _ x y hx hy => h hx hy
    · intro h name x y hx hy
      have hname : name ∈ sharedNames smaller larger := mem_sharedNames.mpr
        ⟨NameMap.mem_names_iff.mpr ⟨x, hx⟩, NameMap.mem_names_iff.mpr ⟨y, hy⟩⟩
      exact h name hname hx hy
  rw [absorbable, verdict, hagree, hdecide]

open Classical in
theorem mergeable_eq_verdict [Share σ] {graph : Graph} (hflat : graph.Flat)
    (share : σ) {left right : Record} (hleft : graph.Holds left)
    (hright : graph.Holds right) :
    graph.mergeable share left right =
      verdict share (max left.fields.size right.fields.size)
        (min left.fields.size right.fields.size) (sharedNames left right).length
        (decide (graph.FieldsAgree left right)) := by
  have hcomm : graph.FieldsAgree left right ↔ graph.FieldsAgree right left :=
    ⟨FieldsAgree.symm, FieldsAgree.symm⟩
  unfold mergeable
  split
  · rename_i hle
    rw [absorbable_eq_verdict hflat share hleft hright,
      Nat.max_eq_left hle, Nat.min_eq_right hle,
      length_sharedNames_comm right left, decide_eq_decide.mpr hcomm]
  · rename_i hlt
    have hle : left.fields.size ≤ right.fields.size := by omega
    rw [absorbable_eq_verdict hflat share hright hleft, Nat.max_eq_right hle,
      Nat.min_eq_left hle]

end ShapeMerge.Graph
