import ShapeMerge.Proofs.Builder.History
import ShapeMerge.Proofs.Lists

namespace ShapeMerge

namespace Builder

structure Settled (builder : Builder) : Prop extends Sound builder where
  kinds : ∀ {ref shape}, builder.shape? ref = some shape →
    (shape.members.map builder.promised?).Nodup

variable {builder after : Builder}

theorem Settled.of_extends (h : builder.Settled) (hext : builder.Extends after)
    (hnew : ∀ {ref shape}, after.shape? ref = some shape →
      builder.shape? ref = some shape ∨
        builder.Fits shape ∧ (shape.members.map builder.promised?).Nodup) :
    after.Settled := by
  have hboth {ref : Ref} {shape : Shape}
      (hshape : after.shape? ref = some shape) :
      builder.Fits shape ∧ (shape.members.map builder.promised?).Nodup := by
    rcases hnew hshape with hold | hfits
    · exact ⟨h.fits hold, h.kinds hold⟩
    · exact hfits
  refine ⟨⟨fun hshape => (hboth hshape).1.mono hext⟩,
    fun {ref shape} hshape => ?_⟩
  obtain ⟨hfits, hnodup⟩ := hboth hshape
  have hkinds :
      shape.members.map after.promised? = shape.members.map builder.promised? :=
    List.map_congr_left fun member hmember =>
      hext.promised?_eq (hfits.members_has hmember)
  rw [hkinds]
  exact hnodup

theorem Settled.append (h : builder.Settled) {shape : Shape}
    (hfits : builder.Fits shape)
    (hnodup : (shape.members.map builder.promised?).Nodup) (hints : Hints) :
    (builder.append shape hints).2.Settled := by
  apply h.of_extends (builder.grows_append shape hints).toExtends
  intro other found hother
  rcases shape?_of_shape?_append hother with hold | rfl
  · exact Or.inl hold
  · exact Or.inr ⟨hfits, hnodup⟩

theorem Settled.append_leaf (h : builder.Settled) {shape : Shape}
    (hleaf : shape.children = []) (hints : Hints) :
    (builder.append shape hints).2.Settled := by
  refine h.append (fits_of_children_eq_nil hleaf) ?_ hints
  rw [Shape.members_eq_nil hleaf]
  exact List.nodup_nil

theorem Settled.fill (h : builder.Settled) {slot made : Ref}
    {content : Record} {hints : Hints} (hfits : builder.Fits (.record content))
    (hfill : builder.fill slot (.record content) hints = .ok (made, after)) :
    after.Settled := by
  apply h.of_extends (extends_fill hfill rfl)
  intro other found hother
  rcases shape?_of_shape?_fill hfill hother with hold | rfl
  · exact Or.inl hold
  · exact Or.inr ⟨hfits, List.nodup_nil⟩

section Nullable

variable {ref made : Ref} {hints : Hints}

theorem Extends.flatten_singleton (h : builder.Extends after)
    (href : builder.has ref = true) :
    after.flatten [ref] = builder.flatten [ref] := by
  by_cases hunion : builder.kind? ref = some .union
  · obtain ⟨shape, hshape, _⟩ := Option.map_eq_some_iff.mp hunion
    simp only [flatten, List.flatMap_singleton, hshape, h.shape? hshape]
  · have hkind : after.kind? ref ≠ some .union := by
      rw [ne_eq, kind?_eq_promised? (by decide), h.promised?_eq href,
        ← kind?_eq_promised? (by decide)]
      exact hunion
    rw [flatten_eq_self (List.forall_mem_singleton.mpr hunion),
      flatten_eq_self (List.forall_mem_singleton.mpr hkind)]

/-- What a slot has become if it was made nullable: itself if it admits `null`,
and otherwise a union of `null` and what it is. -/
def Widened (builder : Builder) (ref made : Ref) : Prop :=
  (made = ref ∧
    ∃ member ∈ builder.flatten [ref], builder.kind? member = some .null) ∨
    ∃ null, builder.shape? null = some .null ∧
      builder.shape? made = some (.union (null :: builder.flatten [ref]))

theorem Widened.mono (h : builder.Widened ref made)
    (hext : builder.Extends after) (href : builder.has ref = true) :
    after.Widened ref made := by
  rw [Widened, hext.flatten_singleton href]
  rcases h with ⟨hmade, member, hmember, hkind⟩ | ⟨null, hnull, hmade⟩
  · exact Or.inl ⟨hmade, member, hmember, hext.kind? hkind⟩
  · exact Or.inr ⟨null, hext.shape? hnull, hext.shape? hmade⟩

theorem nodup_filterMap_kind? {refs : List Ref}
    (h : (refs.map builder.promised?).Nodup) :
    (refs.filterMap builder.kind?).Nodup := by
  refine List.Pairwise.filterMap _
    (fun x y hne kind hx kind' hy heq => ?_) (List.pairwise_map.mp h)
  rw [promised?_of_kind? hx, promised?_of_kind? hy, heq] at hne
  exact hne rfl

theorem Settled.flatten_kinds (h : builder.Settled) (ref : Ref) :
    ((builder.flatten [ref]).map builder.promised?).Nodup := by
  rw [flatten, List.flatMap_singleton]
  split
  · rename_i alternatives hshape
    exact h.kinds hshape
  · exact List.nodup_singleton _

theorem union_eq_ok_of_fits {members : List Ref}
    (hfits : builder.Fits (.union members))
    (hnodup : (members.map builder.promised?).Nodup) (hints : Hints) :
    builder.union hints members =
      .ok (builder.append (.union members) hints) := by
  rw [union_eq_ok_iff, hfits.flatten_eq,
    eraseDups_eq_self (List.Nodup.of_map _ hnodup)]
  exact ⟨hfits.children, nodup_filterMap_kind? hnodup, rfl⟩

theorem Sound.fits_widened (h : builder.Sound)
    (hext : builder.Extends after) (href : builder.has ref = true) {null : Ref}
    (hnull : after.shape? null = some .null) :
    after.Fits (.union (null :: builder.flatten [ref])) := by
  have hpromised : after.promised? null = some .null :=
    promised?_of_shape? hnull
  have hold : after.Fits (.union (builder.flatten [ref])) :=
    (h.fits_flatten (List.forall_mem_singleton.mpr href) fun _ => id).mono hext
  refine ⟨List.forall_mem_cons.mpr ⟨has_of_promised? hpromised, hold.children⟩,
    List.forall_mem_cons.mpr ⟨?_, hold.flat⟩⟩
  rw [hpromised]
  decide

theorem Settled.widened_kinds (h : builder.Settled)
    (hext : builder.Extends after) (href : builder.has ref = true)
    (habsent : ∀ member ∈ builder.flatten [ref],
      builder.promised? member ≠ some .null)
    {null : Ref} (hnull : after.shape? null = some .null) :
    ((null :: builder.flatten [ref]).map after.promised?).Nodup := by
  have hold : builder.Fits (.union (builder.flatten [ref])) :=
    h.fits_flatten (List.forall_mem_singleton.mpr href) fun _ => id
  have hkept : (builder.flatten [ref]).map after.promised? =
      (builder.flatten [ref]).map builder.promised? :=
    List.map_congr_left fun member hmember =>
      hext.promised?_eq (hold.members_has hmember)
  rw [List.map_cons, hkept, promised?_of_shape? hnull, List.nodup_cons]
  refine ⟨fun hmem => ?_, h.flatten_kinds ref⟩
  obtain ⟨member, hmember, hkind⟩ := List.mem_map.mp hmem
  exact habsent member hmember hkind

theorem Settled.exists_nullable (h : builder.Settled)
    (hints : Hints) (href : builder.has ref = true) :
    ∃ made after,
      builder.nullable hints ref = (.ok made, after) ∧ builder.Grows after ∧
      after.Settled ∧ after.has made = true ∧ after.Widened ref made := by
  by_cases hadmits :
    ∃ member ∈ builder.flatten [ref], builder.kind? member = some .null
  · exact ⟨ref, builder, nullable_of_admitting href hadmits, Grows.refl builder,
      h, href, Or.inl ⟨rfl, hadmits⟩⟩
  · have hkinds :
        ∀ member ∈ builder.flatten [ref], builder.kind? member ≠ some .null :=
      fun member hmember hkind => hadmits ⟨member, hmember, hkind⟩
    -- A member whose slot is still reserved has no kind yet, but it is going to
    -- be a record.
    have habsent : ∀ member ∈ builder.flatten [ref],
      builder.promised? member ≠ some .null :=
      fun member hmember =>
        mt (kind?_eq_promised? (by decide)).mpr (hkinds member hmember)
    let null := (builder.primitive .null).1
    let extended := (builder.primitive .null).2
    have hgrows : builder.Grows extended := builder.grows_append _ _
    have hnull : extended.shape? null = some .null := builder.shape?_append _ _
    have hfits := h.fits_widened hgrows.toExtends href hnull
    have hnodup := h.widened_kinds hgrows.toExtends href habsent hnull
    have hunion := union_eq_ok_of_fits hfits hnodup hints
    have hlast :=
      extended.grows_append (.union (null :: builder.flatten [ref])) hints
    have hmade :=
      extended.shape?_append (.union (null :: builder.flatten [ref])) hints
    have hsettled : extended.Settled := h.append_leaf rfl .blank
    refine ⟨_, _, ?_, hgrows.trans hlast, hsettled.append hfits hnodup hints,
      has_of_promised? (promised?_of_shape? hmade),
      Or.inr ⟨null, hlast.shape? hnull, ?_⟩⟩
    · rw [nullable_of_absent href hkinds, hunion]
    · rw [(hgrows.trans hlast).flatten_singleton href]
      exact hmade

end Nullable

section Finish

variable (hfull : ∀ ref, ¬ builder.Reserved ref)

include hfull

theorem has_filled (ref : Ref) : builder.filled.has ref = builder.has ref := by
  rw [Bool.eq_iff_iff, Graph.has_iff_kind?, kind?_filled hfull,
    has_iff_promised?]

theorem Settled.wellFormed_filled (h : builder.Settled)
    (hroots : ∀ {name target}, builder.roots.find? name = some target →
      builder.has target = true) : builder.filled.WellFormed where
  children {ref shape} hshape child hchild := by
    rw [shape?_filled hfull] at hshape
    rw [has_filled hfull]
    exact (h.fits hshape).children child hchild
  kinds {ref alternatives} hshape := by
    rw [shape?_filled hfull] at hshape
    rw [funext (kind?_filled hfull)]
    exact h.kinds hshape
  roots {name target} hroot := by
    rw [has_filled hfull]
    exact hroots hroot

theorem Settled.toGraph_eq_ok (h : builder.Settled)
    (hroots : ∀ {name target}, builder.roots.find? name = some target →
      builder.has target = true) : builder.toGraph = .ok builder.filled :=
  toGraph_eq_ok_iff.mpr
    ⟨hfull, rfl, Graph.check_eq_ok_iff.mpr (h.wellFormed_filled hfull hroots)⟩

end Finish

end Builder

end ShapeMerge
