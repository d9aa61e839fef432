import ShapeMerge.Proofs.Builder.Growth
import ShapeMerge.Proofs.Graph.Flat
import ShapeMerge.Proofs.Success

namespace ShapeMerge

namespace Builder

structure Fits (builder : Builder) (shape : Shape) : Prop where
  children : ∀ child ∈ shape.children, builder.has child = true
  flat : ∀ member ∈ shape.members, builder.promised? member ≠ some .union

structure Sound (builder : Builder) : Prop where
  fits : ∀ {ref shape}, builder.shape? ref = some shape → builder.Fits shape

variable {builder after : Builder}

theorem Fits.members_has {shape : Shape} (h : builder.Fits shape) {member : Ref}
    (hmember : member ∈ shape.members) : builder.has member = true :=
  h.children member (Shape.mem_children_of_mem_members hmember)

theorem Fits.mono {shape : Shape} (h : builder.Fits shape)
    (hext : builder.Extends after) : after.Fits shape where
  children child hchild := hext.has (h.children child hchild)
  flat member hmember := by
    rw [hext.promised?_eq (h.members_has hmember)]
    exact h.flat member hmember

theorem Sound.of_extends (h : builder.Sound) (hext : builder.Extends after)
    (hnew : ∀ {ref shape}, after.shape? ref = some shape →
      builder.shape? ref = some shape ∨ builder.Fits shape) : after.Sound := by
  refine ⟨fun hshape => ?_⟩
  rcases hnew hshape with hold | hfits
  · exact (h.fits hold).mono hext
  · exact hfits.mono hext

theorem Sound.append (h : builder.Sound) {shape : Shape}
    (hfits : builder.Fits shape) (hints : Hints) :
    (builder.append shape hints).2.Sound := by
  apply h.of_extends (builder.grows_append shape hints).toExtends
  intro other found hother
  rcases shape?_of_shape?_append hother with hold | rfl
  · exact Or.inl hold
  · exact Or.inr hfits

theorem Sound.fill (h : builder.Sound) {slot made : Ref}
    {content : Record} {hints : Hints} (hfits : builder.Fits (.record content))
    (hfill : builder.fill slot (.record content) hints = .ok (made, after)) :
    after.Sound := by
  apply h.of_extends (extends_fill hfill rfl)
  intro other found hother
  rcases shape?_of_shape?_fill hfill hother with hold | rfl
  · exact Or.inl hold
  · exact Or.inr hfits

theorem fits_of_members_eq_nil {shape : Shape}
    (hchildren : ∀ child ∈ shape.children, builder.has child = true)
    (h : shape.members = []) : builder.Fits shape where
  children := hchildren
  flat member hmember := by
    rw [h] at hmember
    cases hmember

theorem fits_of_children_eq_nil {shape : Shape} (h : shape.children = []) :
    builder.Fits shape := by
  refine fits_of_members_eq_nil ?_ (Shape.members_eq_nil h)
  rw [h]
  exact List.forall_mem_nil _

theorem require_eq_ok_iff {refs : List Ref} :
    builder.require refs = .ok () ↔ ∀ ref ∈ refs, builder.has ref = true := by
  rw [require]
  split
  · rename_i ref href
    have hmem := List.mem_of_find?_eq_some href
    have hlost := List.find?_some href
    simp only [reduceCtorEq, false_iff]
    intro hall
    simp [hall ref hmem] at hlost
  · rename_i hnone
    simpa using hnone

section Flatten

variable {members : List Ref}

theorem mem_flatten {ref : Ref} :
    ref ∈ builder.flatten members ↔
      ∃ member ∈ members,
        (∃ alternatives, builder.shape? member = some (.union alternatives) ∧
          ref ∈ alternatives) ∨
        (builder.kind? member ≠ some .union ∧ ref = member) := by
  rw [flatten, List.mem_flatMap]
  refine exists_congr fun member => and_congr_right fun _ => ?_
  rw [kind?]
  cases hshape : builder.shape? member with
  | none => simp
  | some shape => cases shape <;> simp [Shape.kind]

theorem flatten_eq_self
    (h : ∀ member ∈ members, builder.kind? member ≠ some .union) :
    builder.flatten members = members := by
  induction members with
  | nil => rfl
  | cons member rest ih =>
      obtain ⟨hfirst, hrest⟩ := List.forall_mem_cons.mp h
      rw [flatten, List.flatMap_cons, ← flatten, ih hrest]
      cases hshape : builder.shape? member with
      | none => rfl
      | some shape =>
          cases shape with
          | union alternatives =>
              exact absurd (by rw [kind?, hshape]; rfl) hfirst
          | _ => rfl

theorem Fits.flatten_eq (h : builder.Fits (.union members)) :
    builder.flatten members = members :=
  flatten_eq_self fun member hmember hkind =>
    h.flat member hmember (promised?_of_kind? hkind)

theorem Sound.fits_flatten (h : builder.Sound)
    (hmembers : ∀ member ∈ members, builder.has member = true)
    {alternatives : List Ref}
    (hsub : ∀ ref ∈ alternatives, ref ∈ builder.flatten members) :
    builder.Fits (.union alternatives) := by
  have hflatten : ∀ ref ∈ builder.flatten members,
      builder.has ref = true ∧ builder.promised? ref ≠ some .union := by
    intro ref href
    obtain ⟨member, hmember, hcase⟩ := mem_flatten.mp href
    rcases hcase with ⟨others, hshape, hmem⟩ | ⟨hkind, rfl⟩
    · exact ⟨(h.fits hshape).members_has hmem, (h.fits hshape).flat ref hmem⟩
    · refine ⟨hmembers ref hmember, fun hpromised => hkind ?_⟩
      exact (kind?_eq_promised? (by decide)).mpr hpromised
  exact ⟨fun ref href => (hflatten ref (hsub ref href)).1,
    fun ref href => (hflatten ref (hsub ref href)).2⟩

end Flatten

section Operations

variable {hints : Hints} {ref : Ref}

theorem require_bind_eq_ok_iff {refs : List Ref}
    {next : Unit → Except GraphFault α} {result : α} :
    builder.require refs >>= next = .ok result ↔
      (∀ ref ∈ refs, builder.has ref = true) ∧ next () = .ok result := by
  rw [bind_eq_ok_iff, ← require_eq_ok_iff]
  constructor
  · intro h
    obtain ⟨_, hrequire, hnext⟩ := h
    exact ⟨hrequire, hnext⟩
  · intro h
    exact ⟨(), h.1, h.2⟩

theorem array_eq_ok_iff {item : Ref} {result : Ref × Builder} :
    builder.array hints item = .ok result ↔
      builder.has item = true ∧
        result = builder.append (.array item) hints := by
  rw [array, require_bind_eq_ok_iff, pure_eq_ok_iff, List.forall_mem_singleton]

theorem map_eq_ok_iff {element : Ref} {result : Ref × Builder} :
    builder.map hints element = .ok result ↔
      builder.has element = true ∧
        result = builder.append (.map element) hints := by
  rw [map, require_bind_eq_ok_iff, pure_eq_ok_iff, List.forall_mem_singleton]

theorem record_some_eq_ok_iff {content : Record} {slot : Ref}
    {result : Ref × Builder} :
    builder.record hints content (some slot) = .ok result ↔
      (∀ ref ∈ content.fields.values, builder.has ref = true) ∧
        builder.fill slot (.record content) hints = .ok result := by
  rw [record, require_bind_eq_ok_iff]

theorem record_none_eq_ok_iff {content : Record} {result : Ref × Builder} :
    builder.record hints content none = .ok result ↔
      (∀ ref ∈ content.fields.values, builder.has ref = true) ∧
        result = builder.append (.record content) hints := by
  rw [record, require_bind_eq_ok_iff, pure_eq_ok_iff]

theorem union_eq_ok_iff {members : List Ref} {result : Ref × Builder} :
    builder.union hints members = .ok result ↔
      (∀ member ∈ members, builder.has member = true) ∧
        ((builder.flatten members).eraseDups.filterMap builder.kind?).Nodup ∧
        result = builder.append
          (.union (builder.flatten members).eraseDups) hints := by
  rw [union, require_bind_eq_ok_iff]
  refine and_congr_right fun _ => ?_
  simp only
  cases hrepeated : Kind.repeated? []
      ((builder.flatten members).eraseDups.filterMap builder.kind?) with
  | none =>
      have hnodup := (Kind.repeated?_eq_none_iff.mp hrepeated).1
      rw [and_iff_right hnodup]
      exact pure_eq_ok_iff
  | some kind =>
      refine iff_of_false (fun h => by cases h) fun h => ?_
      rw [Kind.repeated?_eq_none_iff.mpr ⟨h.1, fun _ _ => List.not_mem_nil⟩]
        at hrepeated
      cases hrepeated

theorem nullable_of_missing (h : ¬ builder.has ref = true) :
    builder.nullable hints ref = (.error (.missing ref), builder) := by
  have hrequire : builder.require [ref] = .error (.missing ref) := by
    rw [require, List.find?_singleton]
    simp [h]
  rw [nullable, hrequire]

theorem nullable_of_admitting (href : builder.has ref = true)
    (hadmits : ∃ member ∈ builder.flatten [ref],
      builder.kind? member = some .null) :
    builder.nullable hints ref = (.ok ref, builder) := by
  have hany :
      (builder.flatten [ref]).any (builder.kind? · = some .null) = true := by
    simpa using hadmits
  rw [nullable, require_eq_ok_iff.mpr (List.forall_mem_singleton.mpr href)]
  exact if_pos hany

theorem nullable_of_absent (href : builder.has ref = true)
    (habsent : ∀ member ∈ builder.flatten [ref],
      builder.kind? member ≠ some .null) :
    builder.nullable hints ref = match (builder.primitive .null).2.union hints
        ((builder.primitive .null).1 :: builder.flatten [ref]) with
      | .ok (made, after) => (.ok made, after)
      | .error fault => (.error fault, (builder.primitive .null).2) := by
  have hany :
      ¬ (builder.flatten [ref]).any (builder.kind? · = some .null) = true := by
    simpa using habsent
  rw [nullable, require_eq_ok_iff.mpr (List.forall_mem_singleton.mpr href)]
  exact if_neg hany

theorem root_eq_ok_iff {name : String} {target : Ref} :
    builder.root name target = .ok after ↔
      builder.has target = true ∧ builder.roots.contains name = false ∧
        after = { builder with roots := builder.roots.insert name target } := by
  rw [root, require_bind_eq_ok_iff, List.forall_mem_singleton]
  refine and_congr_right fun _ => ?_
  cases hcontains : builder.roots.contains name with
  | true => simp
  | false =>
      rw [and_iff_right rfl]
      exact pure_eq_ok_iff

end Operations

end Builder

end ShapeMerge
