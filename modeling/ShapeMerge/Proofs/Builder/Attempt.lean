import ShapeMerge.Proofs.Builder.Outcome

namespace ShapeMerge

/-!
What a failing operation leaves behind.  Each operation checks before it stores
anything, with one exception: a shape is made nullable by adding a node for
`null` first, and the union that comes after it is refused if two of its
members, reserved when they were put together, are records by now.
-/

namespace Builder

variable {builder : Builder} {ref : Ref}

/-- A union that has come to hold two records, and no `null`, is asked to admit
`null`. -/
inductive Strands (builder : Builder) : Operation → Prop
  | nullable {hints : Hints} {ref : Ref} (hcrowded : builder.Crowded ref)
      (habsent :
        ∀ member ∈ builder.flatten [ref], builder.kind? member ≠ some .null) :
      Strands builder (.nullable hints ref)

/-- What comes of an operation: its answer, and the builder that it leaves
behind. -/
inductive Attempt (builder : Builder) (operation : Operation) :
    Except GraphFault Ref × Builder → Prop
  | made {made : Ref} {after : Builder} (h : ¬ builder.Strands operation) :
      Attempt builder operation (.ok made, after)
  | refused {fault : GraphFault} (h : ¬ builder.Strands operation) :
      Attempt builder operation (.error fault, builder)
  /-- The node for `null` stays behind, in a builder that cannot be finished any
  more. -/
  | stranded (h : builder.Strands operation) (hlost : ∀ later, ∃ fault,
      ((builder.primitive .null).2.replay later).toGraph = .error fault) :
      Attempt builder operation
      (.error (.repeatedKind ⟨builder.size + 1⟩ Kind.record.label),
        (builder.primitive .null).2)

theorem attempt_settle {operation : Operation} (h : ¬ builder.Strands operation)
    (answer : Except GraphFault (Ref × Builder)) :
    builder.Attempt operation (builder.settle answer) := by
  cases answer with
  | error fault => exact .refused h
  | ok result => exact .made h

section Unions

variable {members : List Ref}

theorem Suits.flatten_eraseDups (h : builder.Suits (.union members)) :
    (builder.flatten members).eraseDups = members := by
  have hnodup : members.Nodup := h.apart.imp And.left
  rw [h.flatten_eq, eraseDups_eq_self hnodup]

theorem union_eq_error (h : builder.Suits (.union members))
    (htwo : builder.TwoRecords members) (hints : Hints) :
    builder.union hints members =
      .error (.repeatedKind builder.next Kind.record.label) := by
  have hrepeated :
      Kind.repeated? [] (members.filterMap builder.kind?) = some .record :=
    repeated_record h.apart htwo
  have hrequire : builder.require members = .ok () :=
    require_eq_ok_iff.mpr h.children
  rw [union, hrequire, h.flatten_eraseDups]
  dsimp only [bind, Except.bind]
  rw [hrepeated]

theorem union_eq_ok (h : builder.Suits (.union members))
    (hfew : ¬ builder.TwoRecords members) (hints : Hints) :
    builder.union hints members =
      .ok (builder.append (.union members) hints) := by
  rw [union_eq_ok_iff, h.flatten_eraseDups]
  exact ⟨h.children, (nodup_kinds_iff h.apart).mpr hfew, rfl⟩

end Unions

section Nullable

theorem crowded_iff_flatten :
    builder.Crowded ref ↔ builder.TwoRecords (builder.flatten [ref]) := by
  cases hshape : builder.shape? ref with
  | none => simp [Crowded, TwoRecords, flatten, hshape]
  | some shape => cases shape <;> simp [Crowded, TwoRecords, flatten, hshape]

theorem Crowded.has (h : builder.Crowded ref) : builder.has ref = true := by
  obtain ⟨alternatives, hshape, _⟩ := h
  exact has_of_promised? (promised?_of_shape? hshape)

theorem Crowded.mono {after : Builder} (h : builder.Crowded ref)
    (hext : builder.Extends after) : after.Crowded ref := by
  obtain ⟨alternatives, hshape, left, hleft, right, hright, hne, hkind,
    hkind'⟩ := h
  exact ⟨alternatives, hext.shape? hshape, left, hleft, right, hright, hne,
    hext.kind? hkind, hext.kind? hkind'⟩

theorem Orderly.suits_flatten_singleton (h : builder.Orderly)
    (href : builder.has ref = true) :
    builder.Suits (.union (builder.flatten [ref])) where
  toFits :=
    h.sound.fits_flatten (List.forall_mem_singleton.mpr href) fun _ => id
  apart := by
    simp only [Shape.members, flatten, List.flatMap_singleton]
    split
    · rename_i alternatives hshape
      exact (h.suits hshape).apart
    · exact List.pairwise_singleton _ _
  kept := rfl

theorem Orderly.suits_widened (h : builder.Orderly)
    (href : builder.has ref = true)
    (habsent : ∀ member ∈ builder.flatten [ref],
      builder.kind? member ≠ some .null) :
    (builder.primitive .null).2.Suits
      (.union ((builder.primitive .null).1 :: builder.flatten [ref])) := by
  have hext := (builder.grows_append (.primitive .null) .blank).toExtends
  have hnull := builder.shape?_append (.primitive .null) .blank
  have hold := h.suits_flatten_singleton href
  refine ⟨h.sound.fits_widened hext href hnull, ?_, rfl⟩
  refine List.pairwise_cons.mpr
    ⟨fun member hmember => ?_, (hold.mono hext).apart⟩
  have hdiffer :
      (builder.primitive .null).2.promised? (builder.primitive .null).1 ≠
        (builder.primitive .null).2.promised? member := by
    intro heq
    rw [primitive, promised?_of_shape? hnull,
      hext.promised?_eq (hold.members_has hmember)] at heq
    exact habsent member hmember ((kind?_eq_promised? (by decide)).mpr heq.symm)
  exact ⟨fun heq => hdiffer (congrArg _ heq), fun heq => absurd heq hdiffer⟩

theorem twoRecords_widened_iff {refs : List Ref}
    (h : ∀ ref ∈ refs, builder.has ref = true) :
    (builder.primitive .null).2.TwoRecords
        ((builder.primitive .null).1 :: refs) ↔ builder.TwoRecords refs := by
  have hnull : (builder.primitive .null).2.kind? (builder.primitive .null).1 ≠
      some .record := by
    rw [kind?, primitive, builder.shape?_append]
    decide
  have hold (ref : Ref) (href : ref ∈ refs) :
      (builder.primitive .null).2.kind? ref = builder.kind? ref :=
    kind?_append_of_has (h ref href) _ _
  constructor
  · intro htwo
    obtain ⟨left, hleft, right, hright, hne, hkind, hkind'⟩ := htwo
    have hleft :=
      (List.mem_cons.mp hleft).resolve_left fun heq => hnull (heq ▸ hkind)
    have hright :=
      (List.mem_cons.mp hright).resolve_left fun heq => hnull (heq ▸ hkind')
    rw [hold left hleft] at hkind
    rw [hold right hright] at hkind'
    exact ⟨left, hleft, right, hright, hne, hkind, hkind'⟩
  · intro htwo
    obtain ⟨left, hleft, right, hright, hne, hkind, hkind'⟩ := htwo
    refine ⟨left, List.mem_cons_of_mem _ hleft, right,
      List.mem_cons_of_mem _ hright, hne, ?_, ?_⟩
    · rwa [hold left hleft]
    · rwa [hold right hright]

end Nullable

theorem Orderly.lost_of_crowded (h : builder.Orderly)
    (hcrowded : builder.Crowded ref) :
    ∃ fault, builder.toGraph = .error fault := by
  cases htoGraph : builder.toGraph with
  | error fault => exact ⟨fault, rfl⟩
  | ok graph =>
      have houtcome := h.outcome
      rw [htoGraph] at houtcome
      cases houtcome with
      | graph _ huncrowded => exact absurd hcrowded (huncrowded ref)

theorem Orderly.attempt_nullable (h : builder.Orderly) (hints : Hints)
    (ref : Ref) :
    builder.Attempt (.nullable hints ref) (builder.nullable hints ref) := by
  by_cases href : builder.has ref = true
  swap
  · rw [nullable_of_missing href]
    refine .refused fun hstrands => ?_
    cases hstrands with
    | nullable hcrowded _ => exact href hcrowded.has
  by_cases hadmits :
    ∃ member ∈ builder.flatten [ref], builder.kind? member = some .null
  · rw [nullable_of_admitting href hadmits]
    obtain ⟨member, hmember, hkind⟩ := hadmits
    refine .made fun hstrands => ?_
    cases hstrands with
    | nullable _ habsent => exact habsent member hmember hkind
  have habsent :
      ∀ member ∈ builder.flatten [ref], builder.kind? member ≠ some .null :=
    fun member hmember hkind => hadmits ⟨member, hmember, hkind⟩
  rw [nullable_of_absent href habsent]
  have hsuits := h.suits_widened href habsent
  have htwo := twoRecords_widened_iff (h.suits_flatten_singleton href).children
  by_cases hcrowded : builder.Crowded ref
  · rw [union_eq_error hsuits (htwo.mpr (crowded_iff_flatten.mp hcrowded)),
      primitive, Builder.append, push, next, size, Array.size_push]
    refine .stranded (.nullable hcrowded habsent) fun later => ?_
    have hnull : builder.Change (builder.primitive .null).2 :=
      change_leaf .blank rfl rfl
    have hlater := (safe_change hnull).trans (safe_replay _ later)
    exact ((h.change hnull).replay later).lost_of_crowded
      (hcrowded.mono hlater.toExtends)
  · rw [union_eq_ok hsuits (mt htwo.mp (mt crowded_iff_flatten.mpr hcrowded))]
    refine .made fun hstrands => ?_
    cases hstrands with
    | nullable hcrowded' _ => exact hcrowded hcrowded'

theorem Orderly.attempt (h : builder.Orderly) (operation : Operation) :
    builder.Attempt operation (builder.apply operation) := by
  cases operation with
  | nullable hints ref => exact h.attempt_nullable hints ref
  | _ =>
      rw [Builder.apply]
      refine attempt_settle ?_ _
      rintro ⟨⟩

theorem replay_attempt (policy : FormatPolicy) (history : List Operation)
    (operation : Operation) :
    ((start policy).replay history).Attempt operation
      (((start policy).replay history).apply operation) :=
  ((orderly_start policy).replay history).attempt operation

/-- A union of two reserved slots, both filled with records afterwards. -/
def clashing : Builder :=
  empty.replay [.reserve, .reserve, .union .blank [⟨0⟩, ⟨1⟩],
    .record .blank ⟨∅, false⟩ (some ⟨0⟩), .record .blank ⟨∅, false⟩ (some ⟨1⟩)]

theorem clashing_keeps_null :
    (clashing.apply (.nullable .blank ⟨2⟩)).1 =
        .error (.repeatedKind ⟨4⟩ "record") ∧
      (clashing.apply (.nullable .blank ⟨2⟩)).2 ≠ clashing ∧
      (clashing.apply (.nullable .blank ⟨2⟩)).2.shape? ⟨3⟩ = some .null ∧
      clashing.shape? ⟨3⟩ = none := by
  decide +kernel

end Builder

end ShapeMerge
