import ShapeMerge.Proofs.Builder.Settled
import ShapeMerge.Proofs.Graph.Faults

namespace ShapeMerge

/-!
What every history of a builder keeps of the unions and the formats: members of
a union have, or are going to have, different kinds, records apart.  Whether a
reserved slot is going to clash with another record is not known when a union is
made of it, so that is found out when the graph is handed out.
-/

namespace Builder

/-- Different slots, and only records may be two of one kind. -/
def Apart (builder : Builder) (left right : Ref) : Prop :=
  left ≠ right ∧
    (builder.promised? left = builder.promised? right →
      builder.promised? left = some .record)

structure Suits (builder : Builder) (shape : Shape) : Prop
    extends Fits builder shape where
  apart : shape.members.Pairwise builder.Apart
  kept : builder.policy.lower shape = shape

structure Orderly (builder : Builder) : Prop where
  suits : ∀ {ref shape}, builder.shape? ref = some shape → builder.Suits shape
  roots : ∀ {name target}, builder.roots.find? name = some target →
    builder.has target = true

variable {builder before after : Builder} {shape : Shape}

theorem Orderly.sound (h : builder.Orderly) : builder.Sound :=
  ⟨fun hshape => (h.suits hshape).toFits⟩

theorem Suits.mono (h : before.Suits shape) (hext : before.Extends after) :
    after.Suits shape where
  toFits := h.toFits.mono hext
  apart := by
    refine h.apart.imp_of_mem fun hleft hright hapart => ?_
    rw [Apart, hext.promised?_eq (h.members_has hleft),
      hext.promised?_eq (h.members_has hright)]
    exact hapart
  kept := by
    rw [hext.policy]
    exact h.kept

theorem suits_of_members_eq_nil
    (hchildren : ∀ child ∈ shape.children, builder.has child = true)
    (hmembers : shape.members = [])
    (hkept : builder.policy.lower shape = shape) : builder.Suits shape where
  toFits := fits_of_members_eq_nil hchildren hmembers
  apart := by
    rw [hmembers]
    exact .nil
  kept := hkept

section Kinds

variable {refs : List Ref}

theorem pairwise_apart (hhas : ∀ ref ∈ refs, builder.has ref = true)
    (hnodup : refs.Nodup) (hkinds : (refs.filterMap builder.kind?).Nodup) :
    refs.Pairwise builder.Apart := by
  refine (hnodup.and (List.pairwise_filterMap.mp hkinds)).imp_of_mem
    fun hleft _ hne => ?_
  refine ⟨hne.1, fun heq => ?_⟩
  obtain ⟨kind, hkind⟩ := has_iff_promised?.mp (hhas _ hleft)
  rw [hkind, Option.some.injEq]
  by_contra hrecord
  -- A kind other than that of records is promised by a filled slot only.
  exact hne.2 kind ((kind?_eq_promised? hrecord).mpr hkind) kind
    ((kind?_eq_promised? hrecord).mpr (heq ▸ hkind)) rfl

def TwoRecords (builder : Builder) (refs : List Ref) : Prop :=
  ∃ left ∈ refs, ∃ right ∈ refs, left ≠ right ∧
    builder.kind? left = some .record ∧ builder.kind? right = some .record

theorem record_of_same_kind (h : refs.Pairwise builder.Apart) :
    (refs.filterMap builder.kind?).Pairwise fun left right =>
      left = right → left = .record := by
  refine List.pairwise_filterMap.mpr
    (h.imp fun hapart kind hkind other hother heq => ?_)
  have hpromised := promised?_of_kind? hkind
  have hrecord :=
    hapart.2 (hpromised.trans (heq ▸ (promised?_of_kind? hother).symm))
  exact Option.some.inj (hpromised.symm.trans hrecord)

theorem nodup_kinds_iff (h : refs.Pairwise builder.Apart) :
    (refs.filterMap builder.kind?).Nodup ↔ ¬ builder.TwoRecords refs := by
  rw [List.Nodup, List.pairwise_filterMap]
  constructor
  · intro hnodup htwo
    obtain ⟨left, hleft, right, hright, hne, hkind, hkind'⟩ := htwo
    rcases or_of_pairwise hnodup hleft hright hne with hdiffer | hdiffer
    · exact hdiffer _ hkind _ hkind' rfl
    · exact hdiffer _ hkind' _ hkind rfl
  · intro hfew
    have hrecords := List.pairwise_filterMap.mp (record_of_same_kind h)
    refine (h.and hrecords).imp_of_mem
      fun hleft hright hboth kind hkind other hother heq => ?_
    have hrecord := hboth.2 kind hkind other hother heq
    subst heq hrecord
    exact hfew ⟨_, hleft, _, hright, hboth.1.1, hkind, hother⟩

theorem repeated_record (h : refs.Pairwise builder.Apart)
    (htwo : builder.TwoRecords refs) :
    Kind.repeated? [] (refs.filterMap builder.kind?) = some .record := by
  cases hrepeated : Kind.repeated? [] (refs.filterMap builder.kind?) with
  | none =>
      exact absurd htwo
        ((nodup_kinds_iff h).mp (Kind.repeated?_eq_none_iff.mp hrepeated).1)
  | some kind =>
      have hpair :=
        (record_of_same_kind h).sublist (Kind.twice_of_repeated? hrepeated)
      rw [(List.pairwise_cons.mp hpair).1 kind List.mem_cons_self rfl]

end Kinds

section Changes

theorem Orderly.of_extends (h : before.Orderly) (hext : before.Extends after)
    (hnew : ∀ {ref shape}, after.shape? ref = some shape →
      before.shape? ref = some shape ∨ before.Suits shape)
    (hroots : ∀ {name target}, after.roots.find? name = some target →
      before.roots.find? name = some target ∨ before.has target = true) :
    after.Orderly where
  suits hshape := by
    rcases hnew hshape with hold | hsuits
    · exact (h.suits hold).mono hext
    · exact hsuits.mono hext
  roots hroot := by
    rcases hroots hroot with hold | hhas
    · exact hext.has (h.roots hold)
    · exact hext.has hhas

theorem Orderly.append (h : builder.Orderly) (hints : Hints)
    (hsuits : builder.Suits shape) :
    (builder.append shape hints).2.Orderly := by
  refine h.of_extends (builder.grows_append shape hints).toExtends ?_ Or.inl
  intro ref other hother
  rcases shape?_of_shape?_append hother with hold | rfl
  · exact Or.inl hold
  · exact Or.inr hsuits

theorem Orderly.suits_union (h : builder.Orderly) {members : List Ref}
    (hhas : ∀ member ∈ members, builder.has member = true)
    (hkinds : ((builder.flatten members).eraseDups.filterMap
      builder.kind?).Nodup) :
    builder.Suits (.union (builder.flatten members).eraseDups) where
  toFits := h.sound.fits_flatten hhas fun _ => List.mem_eraseDups.mp
  apart := by
    refine pairwise_apart (fun ref href => ?_) (nodup_eraseDups _) hkinds
    exact (h.sound.fits_flatten hhas fun _ => id).children ref
      (List.mem_eraseDups.mp href)
  kept := rfl

theorem Orderly.change (h : before.Orderly) (hchange : Change before after) :
    after.Orderly := by
  cases hchange with
  | reserve =>
      exact h.of_extends (before.extends_push none)
        (fun hshape => Or.inl (shape?_of_shape?_reserve hshape)) Or.inl
  | append hints hmembers hchildren hkept =>
      exact h.append hints (suits_of_members_eq_nil hchildren hmembers hkept)
  | union hints hhas hkinds => exact h.append hints (h.suits_union hhas hkinds)
  | fill hhas hfill =>
      refine h.of_extends (extends_fill hfill rfl)
        (fun hother => ?_) fun hroot => ?_
      · rcases shape?_of_shape?_fill hfill hother with hold | rfl
        · exact Or.inl hold
        · exact Or.inr (suits_of_members_eq_nil hhas rfl rfl)
      · rw [roots_fill hfill] at hroot
        exact Or.inl hroot
  | @root name target hhas hfree =>
      have hext := (safe_change (.root hhas hfree)).toExtends
      refine h.of_extends hext Or.inl fun {other found} hroot => ?_
      by_cases heq : other = name
      · subst heq
        rw [NameMap.find?_insert_self, Option.some.injEq] at hroot
        exact Or.inr (hroot ▸ hhas)
      · rw [NameMap.find?_insert_of_ne _ heq] at hroot
        exact Or.inl hroot

theorem orderly_start (policy : FormatPolicy) : (start policy).Orderly where
  suits hshape := by
    obtain ⟨node, hnode, _⟩ := Option.map_eq_some_iff.mp hshape
    rw [node?_eq_some_iff] at hnode
    cases hnode
  roots hroot := by cases hroot

theorem Orderly.replay (h : builder.Orderly) (history : List Operation) :
    (builder.replay history).Orderly :=
  (builder.changes_replay history).preserve
    (fun hchange h => h.change hchange) h

end Changes

end Builder

end ShapeMerge
