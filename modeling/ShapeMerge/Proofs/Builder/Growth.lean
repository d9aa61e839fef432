import ShapeMerge.Builder.Operation

namespace ShapeMerge.Builder

/-- The kind of the node in a slot; a reserved slot is going to hold a
record. -/
def promised? (builder : Builder) (ref : Ref) : Option Kind :=
  builder.slots[ref.index]?.map fun slot => (slot.map (·.kind)).getD .record

def Reserved (builder : Builder) (ref : Ref) : Prop :=
  builder.slots[ref.index]? = some none

/-- Slots are never emptied, and never hold another kind than promised. -/
structure Extends (before after : Builder) : Prop where
  filled : ∀ {ref node}, before.node? ref = some node →
    after.node? ref = some node
  promised : ∀ {ref kind}, before.promised? ref = some kind →
    after.promised? ref = some kind
  policy : after.policy = before.policy

/-- Nothing is reserved, filled or named: filled slots are added. -/
structure Grows (before after : Builder) : Prop
    extends Extends before after where
  reserved : ∀ {ref}, after.Reserved ref ↔ before.Reserved ref
  roots : after.roots = before.roots

section Slots

variable {builder : Builder} {ref : Ref}

theorem has_iff : builder.has ref = true ↔ ref.index < builder.size :=
  decide_eq_true_iff

theorem node?_eq_some_iff {node : Node} :
    builder.node? ref = some node ↔
      builder.slots[ref.index]? = some (some node) := by
  rw [node?, Option.join_eq_some_iff]

theorem shape?_of_slot {node : Node}
    (h : builder.slots[ref.index]? = some (some node)) :
    builder.shape? ref = some node.shape := by
  rw [shape?, node?_eq_some_iff.mpr h]
  rfl

theorem has_iff_promised? :
    builder.has ref = true ↔ ∃ kind, builder.promised? ref = some kind := by
  rw [has_iff, size, promised?]
  constructor
  · intro h
    rw [Array.getElem?_eq_getElem h]
    exact ⟨_, rfl⟩
  · intro h
    obtain ⟨kind, hkind⟩ := h
    obtain ⟨slot, hslot, _⟩ := Option.map_eq_some_iff.mp hkind
    exact (Array.getElem?_eq_some_iff.mp hslot).1

theorem promised?_of_node? {node : Node} (h : builder.node? ref = some node) :
    builder.promised? ref = some node.kind := by
  rw [promised?, node?_eq_some_iff.mp h]
  rfl

theorem promised?_of_shape? {shape : Shape}
    (h : builder.shape? ref = some shape) :
    builder.promised? ref = some shape.kind := by
  obtain ⟨node, hnode, rfl⟩ := Option.map_eq_some_iff.mp h
  exact promised?_of_node? hnode

theorem promised?_of_kind? {kind : Kind} (h : builder.kind? ref = some kind) :
    builder.promised? ref = some kind := by
  obtain ⟨shape, hshape, rfl⟩ := Option.map_eq_some_iff.mp h
  exact promised?_of_shape? hshape

theorem promised?_of_reserved (h : builder.Reserved ref) :
    builder.promised? ref = some .record := by
  rw [promised?, h]
  rfl

theorem has_of_promised? {kind : Kind} (h : builder.promised? ref = some kind) :
    builder.has ref = true :=
  has_iff_promised?.mpr ⟨kind, h⟩

theorem reserved_or_filled (h : builder.has ref = true) :
    builder.Reserved ref ∨ ∃ node, builder.node? ref = some node := by
  obtain ⟨kind, hkind⟩ := has_iff_promised?.mp h
  obtain ⟨slot, hslot, _⟩ := Option.map_eq_some_iff.mp hkind
  cases slot with
  | none => exact Or.inl hslot
  | some node => exact Or.inr ⟨node, node?_eq_some_iff.mpr hslot⟩

theorem kind?_eq_promised? {kind : Kind} (hne : kind ≠ .record) :
    builder.kind? ref = some kind ↔ builder.promised? ref = some kind := by
  constructor
  · exact promised?_of_kind?
  · intro h
    rcases reserved_or_filled (has_of_promised? h) with
      hreserved | ⟨node, hnode⟩
    · rw [promised?_of_reserved hreserved] at h
      exact absurd (Option.some.inj h).symm hne
    · rw [promised?_of_node? hnode] at h
      rw [kind?, shape?, hnode]
      exact h

end Slots

namespace Extends

variable {first second third : Builder}

theorem refl (builder : Builder) : builder.Extends builder :=
  ⟨id, id, rfl⟩

theorem trans (h : first.Extends second) (h' : second.Extends third) :
    first.Extends third where
  filled hnode := h'.filled (h.filled hnode)
  promised hkind := h'.promised (h.promised hkind)
  policy := h'.policy.trans h.policy

theorem has (h : first.Extends second) {ref : Ref}
    (href : first.has ref = true) : second.has ref = true := by
  obtain ⟨kind, hkind⟩ := has_iff_promised?.mp href
  exact has_of_promised? (h.promised hkind)

theorem promised?_eq (h : first.Extends second) {ref : Ref}
    (href : first.has ref = true) :
    second.promised? ref = first.promised? ref := by
  obtain ⟨kind, hkind⟩ := has_iff_promised?.mp href
  rw [hkind, h.promised hkind]

theorem shape? (h : first.Extends second) {ref : Ref} {shape : Shape}
    (hshape : first.shape? ref = some shape) :
    second.shape? ref = some shape := by
  obtain ⟨node, hnode, rfl⟩ := Option.map_eq_some_iff.mp hshape
  rw [Builder.shape?, h.filled hnode]
  rfl

theorem kind? (h : first.Extends second) {ref : Ref} {kind : Kind}
    (hkind : first.kind? ref = some kind) : second.kind? ref = some kind := by
  obtain ⟨shape, hshape, rfl⟩ := Option.map_eq_some_iff.mp hkind
  rw [Builder.kind?, h.shape? hshape]
  rfl

end Extends

namespace Grows

variable {first second third : Builder}

theorem refl (builder : Builder) : builder.Grows builder :=
  ⟨.refl builder, Iff.rfl, rfl⟩

theorem trans (h : first.Grows second) (h' : second.Grows third) :
    first.Grows third :=
  ⟨h.toExtends.trans h'.toExtends, h'.reserved.trans h.reserved,
    h'.roots.trans h.roots⟩

end Grows

section Steps

variable (builder : Builder)

theorem slots_push (slot : Option Node) (index : Nat) :
    (builder.push slot).2.slots[index]? =
      if index = builder.size then some slot else builder.slots[index]? :=
  Array.getElem?_push

theorem slots_push_of_some {slot old : Option Node} {index : Nat}
    (h : builder.slots[index]? = some old) :
    (builder.push slot).2.slots[index]? = some old := by
  have hne : index ≠ builder.size :=
    Nat.ne_of_lt (Array.getElem?_eq_some_iff.mp h).1
  rw [slots_push, if_neg hne, h]

theorem extends_push (slot : Option Node) :
    builder.Extends (builder.push slot).2 where
  filled h :=
    node?_eq_some_iff.mpr (slots_push_of_some builder (node?_eq_some_iff.mp h))
  promised h := by
    obtain ⟨old, hold, hkind⟩ := Option.map_eq_some_iff.mp h
    rw [promised?, slots_push_of_some builder hold, Option.map_some, hkind]
  policy := rfl

theorem grows_append (shape : Shape) (hints : Hints) :
    builder.Grows (builder.append shape hints).2 where
  toExtends := builder.extends_push _
  reserved := by
    intro ref
    rw [Reserved, Reserved, append, slots_push]
    split
    · rename_i hlast
      rw [hlast, size, Array.getElem?_size]
      simp
    · exact Iff.rfl
  roots := rfl

theorem node?_append (shape : Shape) (hints : Hints) :
    (builder.append shape hints).2.node? (builder.append shape hints).1 =
      some ⟨shape, hints⟩ := by
  rw [node?_eq_some_iff, append, slots_push]
  exact if_pos rfl

theorem shape?_append (shape : Shape) (hints : Hints) :
    (builder.append shape hints).2.shape? (builder.append shape hints).1 =
      some shape := by
  rw [shape?, node?_append]
  rfl

variable {builder}

theorem shape?_append_of_has {ref : Ref} (h : builder.has ref = true)
    (shape : Shape) (hints : Hints) :
    (builder.append shape hints).2.shape? ref = builder.shape? ref := by
  have hne : ref.index ≠ builder.size := Nat.ne_of_lt (has_iff.mp h)
  rw [shape?, shape?, node?, node?, append, slots_push, if_neg hne]

theorem kind?_append_of_has {ref : Ref} (h : builder.has ref = true)
    (shape : Shape) (hints : Hints) :
    (builder.append shape hints).2.kind? ref = builder.kind? ref := by
  rw [kind?, kind?, shape?_append_of_has h]

theorem shape?_of_shape?_append {shape other : Shape} {hints : Hints}
    {ref : Ref} (h : (builder.append shape hints).2.shape? ref = some other) :
    builder.shape? ref = some other ∨ other = shape := by
  obtain ⟨node, hnode, rfl⟩ := Option.map_eq_some_iff.mp h
  rw [node?_eq_some_iff, append, slots_push] at hnode
  split at hnode
  · cases hnode
    exact Or.inr rfl
  · exact Or.inl (shape?_of_slot hnode)

theorem shape?_of_shape?_reserve {other : Shape} {ref : Ref}
    (h : builder.reserve.2.shape? ref = some other) :
    builder.shape? ref = some other := by
  obtain ⟨node, hnode, rfl⟩ := Option.map_eq_some_iff.mp h
  rw [node?_eq_some_iff, reserve, slots_push] at hnode
  split at hnode
  · cases hnode
  · exact shape?_of_slot hnode

end Steps

section Fill

variable {builder after : Builder} {slot made : Ref} {shape : Shape}
  {hints : Hints}

theorem fill_eq_ok (shape : Shape) (hints : Hints) (h : builder.Reserved slot) :
    builder.fill slot shape hints = .ok (slot, { builder with
      slots :=
        builder.slots.setIfInBounds slot.index (some ⟨shape, hints⟩) }) := by
  rw [fill, show builder.slots[slot.index]? = some none from h]

theorem fill_eq_ok_iff :
    builder.fill slot shape hints = .ok (made, after) ↔
      builder.Reserved slot ∧ made = slot ∧ after = { builder with
        slots :=
          builder.slots.setIfInBounds slot.index (some ⟨shape, hints⟩) } := by
  constructor
  · intro h
    have hreserved : builder.Reserved slot := by
      rw [fill] at h
      split at h
      · cases h
      · cases h
      · assumption
    rw [fill_eq_ok shape hints hreserved] at h
    cases h
    exact ⟨hreserved, rfl, rfl⟩
  · intro h
    obtain ⟨hreserved, rfl, rfl⟩ := h
    exact fill_eq_ok shape hints hreserved

variable (h : builder.fill slot shape hints = .ok (made, after))

include h

theorem slots_fill (index : Nat) :
    after.slots[index]? = if index = slot.index then some (some ⟨shape, hints⟩)
      else builder.slots[index]? := by
  obtain ⟨hreserved, _, rfl⟩ := fill_eq_ok_iff.mp h
  have hlt := (Array.getElem?_eq_some_iff.mp hreserved).1
  by_cases heq : index = slot.index
  · subst heq
    rw [if_pos rfl, Array.getElem?_setIfInBounds_self_of_lt hlt]
  · rw [if_neg heq, Array.getElem?_setIfInBounds_ne (Ne.symm heq)]

theorem node?_fill : after.node? slot = some ⟨shape, hints⟩ := by
  rw [node?_eq_some_iff, slots_fill h, if_pos rfl]

theorem extends_fill (hkind : shape.kind = .record) :
    builder.Extends after where
  filled {ref node} hnode := by
    have hreserved := (fill_eq_ok_iff.mp h).1
    rw [node?_eq_some_iff] at hnode ⊢
    rw [slots_fill h]
    split
    · rename_i heq
      rw [heq, show builder.slots[slot.index]? = some none from hreserved]
        at hnode
      cases hnode
    · exact hnode
  promised {ref kind} hpromised := by
    have hreserved := (fill_eq_ok_iff.mp h).1
    by_cases heq : ref = slot
    · subst heq
      rw [promised?_of_reserved hreserved] at hpromised
      rw [promised?_of_node? (node?_fill h), Node.kind, hkind]
      exact hpromised
    · have hne : ref.index ≠ slot.index :=
        fun hindex => heq (congrArg Ref.mk hindex)
      rw [promised?, slots_fill h, if_neg hne]
      exact hpromised
  policy := by rw [(fill_eq_ok_iff.mp h).2.2]

theorem reserved_fill {ref : Ref} :
    after.Reserved ref ↔ builder.Reserved ref ∧ ref ≠ slot := by
  have hindex : ref.index = slot.index ↔ ref = slot :=
    ⟨fun hindex => congrArg Ref.mk hindex, congrArg Ref.index⟩
  rw [Reserved, Reserved, slots_fill h]
  by_cases heq : ref = slot
  · simp [heq]
  · simp [heq, mt hindex.mp heq]

theorem roots_fill : after.roots = builder.roots := by
  rw [(fill_eq_ok_iff.mp h).2.2]

theorem shape?_of_shape?_fill {ref : Ref} {other : Shape}
    (hother : after.shape? ref = some other) :
    builder.shape? ref = some other ∨ other = shape := by
  obtain ⟨node, hnode, rfl⟩ := Option.map_eq_some_iff.mp hother
  rw [node?_eq_some_iff, slots_fill h] at hnode
  split at hnode
  · cases hnode
    exact Or.inr rfl
  · exact Or.inl (shape?_of_slot hnode)

end Fill

end ShapeMerge.Builder
