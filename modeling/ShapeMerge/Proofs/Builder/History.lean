import ShapeMerge.Proofs.Builder.Change

namespace ShapeMerge

namespace Builder

/-- What an operation may do to a builder. -/
structure Safe (before after : Builder) : Prop
    extends Extends before after where
  sound : before.Sound → after.Sound

namespace Safe

variable {first second third : Builder}

theorem refl (builder : Builder) : builder.Safe builder :=
  ⟨Extends.refl builder, id⟩

theorem trans (h : first.Safe second) (h' : second.Safe third) :
    first.Safe third :=
  ⟨h.toExtends.trans h'.toExtends, h'.sound ∘ h.sound⟩

end Safe

section Operations

variable {builder : Builder}

theorem safe_append {shape : Shape} (hints : Hints)
    (hfits : builder.Sound → builder.Fits shape) :
    builder.Safe (builder.append shape hints).2 :=
  ⟨(builder.grows_append shape hints).toExtends,
    fun h => h.append (hfits h) hints⟩

theorem safe_reserve (builder : Builder) : builder.Safe builder.reserve.2 := by
  refine ⟨builder.extends_push none, fun h => ?_⟩
  exact h.of_extends (builder.extends_push none) fun hshape =>
    Or.inl (shape?_of_shape?_reserve hshape)

theorem safe_fill {slot made : Ref}
    {content : Record} {hints : Hints} {after : Builder}
    (hhas : ∀ ref ∈ content.fields.values, builder.has ref = true)
    (hfill : builder.fill slot (.record content) hints = .ok (made, after)) :
    builder.Safe after :=
  ⟨extends_fill hfill rfl, fun h =>
    h.fill (fits_of_members_eq_nil hhas rfl) hfill⟩

theorem safe_root {name : String} {target : Ref} {after : Builder}
    (h : builder.root name target = .ok after) : builder.Safe after := by
  obtain ⟨_, _, rfl⟩ := root_eq_ok_iff.mp h
  have hext : builder.Extends
      { builder with roots := builder.roots.insert name target } :=
    ⟨id, id, rfl⟩
  exact ⟨hext, fun hsound => hsound.of_extends hext Or.inl⟩

theorem safe_change {before after : Builder} (h : Change before after) :
    before.Safe after := by
  cases h with
  | reserve => exact before.safe_reserve
  | append hints hmembers hchildren _ =>
      exact safe_append hints fun _ => fits_of_members_eq_nil hchildren hmembers
  | union hints hhas _ =>
      exact safe_append hints fun hsound =>
        hsound.fits_flatten hhas fun ref => List.mem_eraseDups.mp
  | fill hhas hfill => exact safe_fill hhas hfill
  | root hhas hfree => exact safe_root (root_eq_ok_iff.mpr ⟨hhas, hfree, rfl⟩)

theorem safe_replay (builder : Builder) (history : List Operation) :
    builder.Safe (builder.replay history) :=
  (builder.changes_replay history).preserve
    (fun hchange h => h.trans (safe_change hchange)) (Safe.refl builder)

theorem sound_start (policy : FormatPolicy) : (start policy).Sound := by
  refine ⟨fun hshape => ?_⟩
  obtain ⟨node, hnode, _⟩ := Option.map_eq_some_iff.mp hshape
  rw [node?_eq_some_iff] at hnode
  cases hnode

end Operations

section Finish

variable {builder : Builder} {graph : Graph}

theorem unfilled?_eq_none_iff :
    builder.unfilled? = none ↔ ∀ ref, ¬ builder.Reserved ref := by
  rw [unfilled?, Option.map_eq_none_iff, Array.findIdx?_eq_none_iff]
  constructor
  · intro h ref hreserved
    have hnone := h none (Array.mem_of_getElem? hreserved)
    cases hnone
  · intro h slot hslot
    obtain ⟨index, hindex⟩ := Array.mem_iff_getElem?.mp hslot
    cases slot with
    | none => exact absurd hindex (h ⟨index⟩)
    | some node => rfl

def filled (builder : Builder) : Graph :=
  ⟨builder.slots.filterMap id, builder.roots⟩

theorem toGraph_of_full (h : ∀ ref, ¬ builder.Reserved ref) :
    builder.toGraph = builder.filled.check.map fun _ => builder.filled := by
  rw [toGraph, unfilled?_eq_none_iff.mpr h]
  dsimp only
  rw [filled]
  cases Graph.check ⟨builder.slots.filterMap id, builder.roots⟩ <;> rfl

theorem toGraph_eq_ok_iff :
    builder.toGraph = .ok graph ↔
      (∀ ref, ¬ builder.Reserved ref) ∧ graph = builder.filled ∧
        graph.check = .ok () := by
  rw [← unfilled?_eq_none_iff, toGraph]
  cases hunfilled : builder.unfilled? with
  | some slot => simp
  | none =>
      simp only [bind_eq_ok_iff, pure_eq_ok_iff, true_and]
      constructor
      · intro h
        obtain ⟨_, hcheck, rfl⟩ := h
        exact ⟨rfl, hcheck⟩
      · intro h
        obtain ⟨rfl, hcheck⟩ := h
        exact ⟨(), hcheck, rfl⟩

theorem slots_eq_map_some (h : ∀ ref, ¬ builder.Reserved ref) :
    builder.filled.nodes.map some = builder.slots := by
  have hlist (slots : List (Option Node)) (hslots : none ∉ slots) :
      (slots.filterMap id).map some = slots := by
    induction slots with
    | nil => rfl
    | cons slot rest ih =>
        rw [List.mem_cons, not_or] at hslots
        cases slot with
        | none => exact absurd rfl hslots.1
        | some node => exact congrArg (some node :: ·) (ih hslots.2)
  apply Array.toList_inj.mp
  rw [filled, Array.toList_map, Array.toList_filterMap]
  apply hlist builder.slots.toList
  intro hmem
  obtain ⟨index, hindex⟩ := List.mem_iff_getElem?.mp hmem
  rw [Array.getElem?_toList] at hindex
  exact h ⟨index⟩ hindex

theorem node?_filled (h : ∀ ref, ¬ builder.Reserved ref) (ref : Ref) :
    builder.filled.node? ref = builder.node? ref := by
  rw [node?, ← slots_eq_map_some h, Graph.node?, Array.getElem?_map]
  cases builder.filled.nodes[ref.index]? <;> rfl

theorem shape?_filled (h : ∀ ref, ¬ builder.Reserved ref) (ref : Ref) :
    builder.filled.shape? ref = builder.shape? ref := by
  rw [shape?, Graph.shape?, node?_filled h]

theorem kind?_of_full (h : ∀ ref, ¬ builder.Reserved ref) (ref : Ref) :
    builder.kind? ref = builder.promised? ref := by
  by_cases hhas : builder.has ref = true
  · rcases reserved_or_filled hhas with hreserved | ⟨node, hnode⟩
    · exact absurd hreserved (h ref)
    · rw [promised?_of_node? hnode, kind?, shape?, hnode]
      rfl
  · have hnone : builder.promised? ref = none := by
      rw [has_iff_promised?, ← Option.isSome_iff_exists] at hhas
      exact Option.not_isSome_iff_eq_none.mp hhas
    rw [hnone, Option.eq_none_iff_forall_ne_some]
    intro kind hkind
    rw [promised?_of_kind? hkind] at hnone
    cases hnone

theorem kind?_filled (h : ∀ ref, ¬ builder.Reserved ref) (ref : Ref) :
    builder.filled.kind? ref = builder.promised? ref := by
  rw [Graph.kind?, shape?_filled h, ← kind?, kind?_of_full h]

theorem Sound.flat (h : builder.Sound) (hfull : ∀ ref, ¬ builder.Reserved ref)
    (hwf : builder.filled.WellFormed) : builder.filled.Flat where
  toWellFormed := hwf
  flat {ref alternatives} hshape member hmember := by
    rw [shape?_filled hfull] at hshape
    rw [kind?_filled hfull]
    exact (h.fits hshape).flat member hmember

theorem Sound.flat_of_toGraph (h : builder.Sound)
    (hgraph : builder.toGraph = .ok graph) : graph.Flat := by
  obtain ⟨hfull, rfl, hcheck⟩ := toGraph_eq_ok_iff.mp hgraph
  exact h.flat hfull (Graph.check_eq_ok_iff.mp hcheck)

end Finish

end Builder

end ShapeMerge
