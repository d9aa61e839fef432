import ShapeMerge.Proofs.Collapse.Realization
import ShapeMerge.Proofs.Graph.Bisimulation

namespace ShapeMerge

/-!
Equivalent nodes under a collapse.  If no group takes one of two equivalent
nodes without the other, then the nodes that they go to are equivalent again.
Equivalent unions can list their members in different orders, so narrowing can
keep different lowered members of them; but these have become the same plain
text.
-/

namespace Graph

variable {graph : Graph} {policy : FormatPolicy} {left right : List Ref}

theorem isLowered_congr {x y : Ref} (h : graph.kind? x = graph.kind? y) :
    graph.isLowered policy x = graph.isLowered policy y := by
  rw [Bool.eq_iff_iff, isLowered_iff, isLowered_iff]
  simp only [← kind?_eq_formatted_iff, h]

/-- The lowered members that narrowing keeps: the first one, unless there is
plain text. -/
def keptLowered (graph : Graph) (policy : FormatPolicy)
    (alternatives : List Ref) : List Ref :=
  if alternatives.any (graph.kind? · = some .text) then []
  else (alternatives.filter (graph.isLowered policy)).take 1

theorem isLowered_of_mem_keptLowered {alternatives : List Ref} {member : Ref}
    (h : member ∈ graph.keptLowered policy alternatives) :
    graph.isLowered policy member = true := by
  rw [keptLowered] at h
  split at h
  · cases h
  · exact (List.mem_filter.mp (List.mem_of_mem_take h)).2

theorem dropLowered_false_perm (members : List Ref) :
    (graph.dropLowered policy false members).Perm
      ((members.filter (graph.isLowered policy)).take 1 ++
        members.filter fun member => !graph.isLowered policy member) := by
  induction members with
  | nil => exact List.Perm.nil
  | cons member rest ih =>
      rw [dropLowered, List.filter_cons, List.filter_cons]
      cases graph.isLowered policy member with
      | true =>
          rw [dropLowered_true]
          exact List.Perm.refl _
      | false => exact (ih.cons member).trans List.perm_middle.symm

theorem narrow_perm (alternatives : List Ref) :
    (graph.narrow policy alternatives).Perm
      (graph.keptLowered policy alternatives ++
        alternatives.filter fun member => !graph.isLowered policy member) := by
  rw [narrow, keptLowered]
  cases alternatives.any (graph.kind? · = some .text) with
  | true =>
      rw [dropLowered_true]
      exact List.Perm.refl _
  | false => exact dropLowered_false_perm alternatives

def Respected (graph : Graph) (related : Ref → Ref → Prop)
    (left right : Ref) : Prop :=
  left = right ∨
    ∃ leftShape rightShape, graph.shape? left = some leftShape ∧
      graph.shape? right = some rightShape ∧
      graph.Matches related leftShape rightShape

section Paired

variable {related : Ref → Ref → Prop} (h : graph.Pairing related left right)

include h

theorem Pairing.any_eq {picked : Ref → Bool}
    (hpicked : ∀ {x y}, graph.kind? x = graph.kind? y → picked x = picked y) :
    left.any picked = right.any picked := by
  have hlength := (h.filter hpicked).length_eq
  rw [← List.countP_eq_length_filter, ← List.countP_eq_length_filter] at hlength
  rw [Bool.eq_iff_iff, List.any_eq_true, List.any_eq_true,
    ← List.countP_pos_iff, ← List.countP_pos_iff, hlength]

theorem Pairing.length_keptLowered :
    (graph.keptLowered policy left).length =
      (graph.keptLowered policy right).length := by
  have htext : left.any (graph.kind? · = some .text) =
      right.any (graph.kind? · = some .text) :=
    h.any_eq fun hkind => by rw [hkind]
  have hlowered : (left.filter (graph.isLowered policy)).length =
      (right.filter (graph.isLowered policy)).length :=
    (h.filter isLowered_congr).length_eq
  rw [keptLowered, keptLowered, htext]
  split
  · rfl
  · rw [List.length_take, List.length_take, hlowered]

end Paired

end Graph

namespace Collapse

open ShapeMerge.Graph

/-- Equivalent nodes, or two texts that lose their formats. -/
def Alike (collapse : Collapse) (left right : Ref) : Prop :=
  collapse.graph.Bisimilar left right ∨
    collapse.graph.isLowered collapse.policy left = true ∧
      collapse.graph.isLowered collapse.policy right = true

def PlacedAlike (collapse : Collapse) (x y : Ref) : Prop :=
  ∃ left right, collapse.Alike left right ∧ collapse.passage.redirect left = x ∧
    collapse.passage.redirect right = y

variable {collapse : Collapse} {graph : Graph} {built : Builder}
  {left right : Ref}

theorem Alike.loweredKind?_eq (h : collapse.Alike left right) :
    collapse.graph.loweredKind? collapse.policy left =
      collapse.graph.loweredKind? collapse.policy right := by
  rcases h with hbisimilar | ⟨hleft, hright⟩
  · rw [loweredKind?, loweredKind?, hbisimilar.kind?_eq]
  · rw [loweredKind?_eq_text_iff.mpr (Or.inr hleft),
      loweredKind?_eq_text_iff.mpr (Or.inr hright)]

theorem exists_pairs_narrow {alternatives others : List Ref}
    (h : collapse.graph.Pairing collapse.graph.Bisimilar alternatives others) :
    ∃ pairs : List (Ref × Ref), (pairs.map Prod.fst).Perm
        (collapse.graph.narrow collapse.policy alternatives) ∧
      (pairs.map Prod.snd).Perm (collapse.graph.narrow collapse.policy others) ∧
      ∀ pair ∈ pairs, collapse.Alike pair.1 pair.2 := by
  have hkept : collapse.graph.Pairing collapse.graph.Bisimilar
      (alternatives.filter fun member =>
        !collapse.graph.isLowered collapse.policy member) (others.filter
          fun member => !collapse.graph.isLowered collapse.policy member) :=
    h.filter fun hkind => by rw [isLowered_congr hkind]
  obtain ⟨pairs, hleft, hright, hpairs⟩ := hkept
  have hlength :
      (collapse.graph.keptLowered collapse.policy alternatives).length =
        (collapse.graph.keptLowered collapse.policy others).length :=
    h.length_keptLowered
  let texts := (collapse.graph.keptLowered collapse.policy alternatives).zip
    (collapse.graph.keptLowered collapse.policy others)
  refine ⟨texts ++ pairs, ?_, ?_, fun pair hpair => ?_⟩
  · rw [List.map_append, List.map_fst_zip (Nat.le_of_eq hlength)]
    exact (hleft.append_left _).trans (narrow_perm alternatives).symm
  · rw [List.map_append, List.map_snd_zip (Nat.le_of_eq hlength.symm)]
    exact (hright.append_left _).trans (narrow_perm others).symm
  · rcases List.mem_append.mp hpair with htext | hpair
    · have hmem := List.of_mem_zip htext
      exact Or.inr ⟨isLowered_of_mem_keptLowered hmem.1,
        isLowered_of_mem_keptLowered hmem.2⟩
    · exact Or.inl (hpairs pair hpair).2

theorem matches_carried {shape other : Shape}
    (h : collapse.graph.Matches collapse.graph.Bisimilar shape other)
    (hkind : shape.kind ≠ .union) :
    graph.Matches collapse.PlacedAlike
      (collapse.policy.lower
        ((collapse.narrowed shape).mapRefs collapse.passage.redirect))
      (collapse.policy.lower
        ((collapse.narrowed other).mapRefs collapse.passage.redirect)) := by
  have hplaced {x y : Ref} (hrelated : collapse.graph.Bisimilar x y) :
      collapse.PlacedAlike (collapse.passage.redirect x)
        (collapse.passage.redirect y) :=
    ⟨x, y, Or.inl hrelated, rfl, rfl⟩
  cases h with
  | primitive base => exact .primitive base
  | text literals => exact .text literals
  | formatted format =>
      simp only [narrowed, Shape.mapRefs, FormatPolicy.lower]
      split
      · exact .text none
      · exact .formatted format
  | array hitem => exact .array (hplaced hitem)
  | map helement => exact .map (hplaced helement)
  | @record content other hpinned hnames hfields =>
      refine .record hpinned ?_ fun {name x y} hx hy => ?_
      · simpa [NameMap.names, NameMap.map, Function.comp_def] using hnames
      · obtain ⟨source, hsource, rfl⟩ :=
          Option.map_eq_some_iff.mp ((NameMap.find?_map _ _ _).symm.trans hx)
        obtain ⟨partner, hpartner, rfl⟩ :=
          Option.map_eq_some_iff.mp ((NameMap.find?_map _ _ _).symm.trans hy)
        exact hplaced (hfields hsource hpartner)
  | union => exact absurd rfl hkind

theorem OfRecords.exists_survivor? (hrecords : collapse.OfRecords)
    (h : collapse.graph.Bisimilar left right) {only : Ref}
    (honly : collapse.survivor? left = some only) :
    ∃ other,
      collapse.survivor? right = some other ∧ collapse.Alike only other := by
  obtain ⟨_, alternatives, hleft, hkept⟩ := survivor?_eq_some_iff.mp honly
  obtain ⟨hnarrow, hlength, _⟩ := Graph.survivor?_eq_some_iff.mp hkept
  obtain ⟨_, hright, hmatches⟩ := h.exists_shape hleft
  cases hmatches with
  | @union _ others hpairing =>
      obtain ⟨pairs, hfst, hsnd, halike⟩ := exists_pairs_narrow hpairing
      rw [hnarrow, List.perm_singleton] at hfst
      obtain ⟨⟨first, other⟩, rfl, rfl⟩ := List.map_eq_singleton_iff.mp hfst
      have hother : collapse.graph.narrow collapse.policy others = [other] :=
        (List.singleton_perm.mp hsnd).symm
      have hmember : other ∈ others :=
        (narrow_sublist others).subset (hother ▸ List.mem_singleton_self other)
      refine ⟨other, survivor?_eq_some_iff.mpr ⟨?_, others, hright, ?_⟩,
        halike _ (List.mem_singleton_self _)⟩
      · exact Realizes.group?_eq_none_of_shape? hrecords hright fun heq =>
          nomatch heq
      · rw [hpairing.length_eq] at hlength
        exact Graph.survivor?_eq_some_iff.mpr
          ⟨hother, hlength, hrecords.flat.flat hright other hmember⟩

namespace Realizes

variable (h : collapse.Realizes graph built) (hrecords : collapse.OfRecords)

include h hrecords

theorem pairing_redirect {alternatives others : List Ref}
    {pairs : List (Ref × Ref)}
    (hleft : collapse.graph.shape? left = some (.union alternatives))
    (hright : collapse.graph.shape? right = some (.union others))
    (hfst : (pairs.map Prod.fst).Perm
      (collapse.graph.narrow collapse.policy alternatives))
    (hsnd :
      (pairs.map Prod.snd).Perm (collapse.graph.narrow collapse.policy others))
    (halike : ∀ pair ∈ pairs, collapse.Alike pair.1 pair.2) :
    graph.Pairing collapse.PlacedAlike
      ((collapse.graph.narrow collapse.policy alternatives).map
        collapse.passage.redirect)
      ((collapse.graph.narrow collapse.policy others).map
        collapse.passage.redirect) := by
  have hkind {ref member : Ref} {members : List Ref}
      (hshape : collapse.graph.shape? ref = some (.union members))
      (hmember : member ∈ collapse.graph.narrow collapse.policy members) :
      graph.kind? (collapse.passage.redirect member) =
        collapse.graph.loweredKind? collapse.policy member := by
    have hmem := (narrow_sublist members).subset hmember
    exact h.kind?_redirect hrecords
      (hrecords.wellFormed.children hshape member hmem)
      (hrecords.flat.flat hshape member hmem)
  refine ⟨pairs.map
    (Prod.map collapse.passage.redirect collapse.passage.redirect), ?_, ?_, ?_⟩
  · have hmoved := hfst.map collapse.passage.redirect
    rwa [List.map_map] at hmoved ⊢
  · have hmoved := hsnd.map collapse.passage.redirect
    rwa [List.map_map] at hmoved ⊢
  · intro placed hplaced
    obtain ⟨pair, hpair, rfl⟩ := List.mem_map.mp hplaced
    have hx := hkind hleft (hfst.mem_iff.mp (List.mem_map_of_mem hpair))
    have hy := hkind hright (hsnd.mem_iff.mp (List.mem_map_of_mem hpair))
    refine ⟨?_, pair.1, pair.2, halike pair hpair, rfl, rfl⟩
    rw [Prod.map_fst, Prod.map_snd, hx, hy, (halike pair hpair).loweredKind?_eq]

variable (hgroups : ∀ {left right}, collapse.graph.Bisimilar left right →
    collapse.group? left = collapse.group? right)

include hgroups

theorem respected_of_not_union (halike : collapse.Alike left right)
    (hkind : collapse.graph.kind? left ≠ some .union) :
    graph.Respected collapse.PlacedAlike (collapse.passage.redirect left)
      (collapse.passage.redirect right) := by
  rcases halike with hbisimilar | ⟨hleft, hright⟩
  · cases hgroup : collapse.group? left with
    | some group =>
        obtain ⟨hmem, hin⟩ := mem_of_group? hgroup
        obtain ⟨_, hin'⟩ :=
          mem_of_group? ((hgroups hbisimilar).symm.trans hgroup)
        exact Or.inl (hrecords.redirect_of_mem hmem hin hin')
    | none =>
        rcases collapse.graph.bisimulation_bisimilar hbisimilar with
          rfl | ⟨shape, other, hleft, hright, hmatches⟩
        · exact Or.inl rfl
        · have hplain : shape.kind ≠ .union := fun heq =>
            hkind ((kind?_of_shape? hleft).trans (congrArg some heq))
          refine Or.inr ⟨_, _, h.shape?_redirect hrecords.toReady hleft hgroup
            (survivor?_eq_none_of_kind hkind), h.shape?_redirect
            hrecords.toReady hright ((hgroups hbisimilar).symm.trans hgroup)
            (survivor?_eq_none_of_kind (hbisimilar.kind?_eq ▸ hkind)),
            matches_carried hmatches hplain⟩
  · have hplain {ref : Ref}
        (hlowered : collapse.graph.isLowered collapse.policy ref = true) :
        graph.shape? (collapse.passage.redirect ref) = some .plainText := by
      obtain ⟨format, hshape, hlowers⟩ := isLowered_iff.mp hlowered
      have hgroup :=
        group?_eq_none_of_shape? hrecords hshape fun heq => nomatch heq
      have hsurvivor : collapse.survivor? ref = none := by
        apply survivor?_eq_none_of_kind
        rw [kind?_of_shape? hshape]
        exact fun heq => nomatch heq
      rw [h.shape?_redirect hrecords.toReady hshape hgroup hsurvivor]
      exact congrArg some (if_pos hlowers)
    exact Or.inr ⟨_, _, hplain hleft, hplain hright, .text none⟩

theorem respected_of_union (hbisimilar : collapse.graph.Bisimilar left right)
    {alternatives : List Ref}
    (hleft : collapse.graph.shape? left = some (.union alternatives)) :
    graph.Respected collapse.PlacedAlike (collapse.passage.redirect left)
      (collapse.passage.redirect right) := by
  obtain ⟨_, hright, hmatches⟩ := hbisimilar.exists_shape hleft
  cases hmatches with
  | @union _ others hpairing =>
      cases hsurvivor : collapse.survivor? left with
      | some only =>
          obtain ⟨other, hother, halike⟩ :=
            hrecords.exists_survivor? hbisimilar hsurvivor
          obtain ⟨_, _, _, hkept⟩ := survivor?_eq_some_iff.mp hsurvivor
          rw [hrecords.redirect_of_survivor (has_iff_shape?.mpr ⟨_, hleft⟩)
            hsurvivor, hrecords.redirect_of_survivor
            (has_iff_shape?.mpr ⟨_, hright⟩) hother]
          exact h.respected_of_not_union hrecords hgroups halike
            (Graph.survivor?_eq_some_iff.mp hkept).2.2
      | none =>
          have hother : collapse.survivor? right = none := by
            rw [Option.eq_none_iff_forall_ne_some]
            intro other hother
            obtain ⟨only, honly, _⟩ :=
              hrecords.exists_survivor? hbisimilar.symm hother
            rw [hsurvivor] at honly
            cases honly
          have hgroup {ref : Ref} {members : List Ref}
              (hshape : collapse.graph.shape? ref = some (.union members)) :
              collapse.group? ref = none :=
            group?_eq_none_of_shape? hrecords hshape fun heq => nomatch heq
          obtain ⟨pairs, hfst, hsnd, halike⟩ := exists_pairs_narrow hpairing
          exact Or.inr ⟨_, _,
            h.shape?_redirect hrecords.toReady hleft (hgroup hleft) hsurvivor,
            h.shape?_redirect hrecords.toReady hright (hgroup hright) hother,
            .union (h.pairing_redirect hrecords hleft hright hfst hsnd halike)⟩

theorem bisimulation_placedAlike : graph.Bisimulation collapse.PlacedAlike := by
  rintro _ _ ⟨left, right, halike, rfl, rfl⟩
  by_cases hkind : collapse.graph.kind? left = some .union
  · obtain ⟨alternatives, hleft⟩ := shape?_of_kind?_union hkind
    rcases halike with hbisimilar | ⟨hlowered, _⟩
    · exact h.respected_of_union hrecords hgroups hbisimilar hleft
    · obtain ⟨format, hshape, _⟩ := isLowered_iff.mp hlowered
      cases hleft.symm.trans hshape
  · exact h.respected_of_not_union hrecords hgroups halike hkind

theorem bisimilar_redirect (hbisimilar : collapse.graph.Bisimilar left right) :
    graph.Bisimilar (collapse.passage.redirect left)
      (collapse.passage.redirect right) :=
  ⟨collapse.PlacedAlike, h.bisimulation_placedAlike hrecords hgroups, left,
    right, Or.inl hbisimilar, rfl, rfl⟩

end Realizes

end Collapse

end ShapeMerge
