import ShapeMerge.Builder.Basic
import ShapeMerge.Proofs.Graph.Bare
import ShapeMerge.Proofs.Success

namespace ShapeMerge

namespace Builder

def bare (builder : Builder) : Builder :=
  { builder with slots := builder.slots.map (Option.map Node.bare) }

abbrev bareResult (result : α × Builder) : α × Builder :=
  (result.1, result.2.bare)

variable (builder : Builder) (hints : Hints)

section Slots

@[simp] theorem size_bare : builder.bare.size = builder.size :=
  Array.size_map

@[simp] theorem has_bare : builder.bare.has = builder.has := by
  funext ref
  rw [has, has, size_bare]

theorem node?_bare (ref : Ref) :
    builder.bare.node? ref = (builder.node? ref).map Node.bare := by
  rw [node?, node?, bare, Array.getElem?_map, Option.join_map_eq_map_join]

@[simp] theorem shape?_bare : builder.bare.shape? = builder.shape? := by
  funext ref
  rw [shape?, shape?, node?_bare, Option.map_map]
  rfl

@[simp] theorem kind?_bare : builder.bare.kind? = builder.kind? := by
  funext ref
  rw [kind?, kind?, shape?_bare]

@[simp] theorem flatten_bare : builder.bare.flatten = builder.flatten := by
  funext members
  rw [flatten, flatten, shape?_bare]

@[simp] theorem require_bare : builder.bare.require = builder.require := by
  funext refs
  rw [require, require, has_bare]

end Slots

section Operations

theorem append_bare (shape : Shape) :
    builder.bare.append shape .blank =
      bareResult (builder.append shape hints) := by
  have hpushed : builder.bare.slots.push (some ⟨shape, .blank⟩) =
      (builder.slots.push (some ⟨shape, hints⟩)).map
        (Option.map Node.bare) := by
    rw [Array.map_push]
    rfl
  rw [append, append, push, push, next, size_bare, hpushed]
  rfl

theorem primitive_bare (base : Primitive) :
    builder.bare.primitive base = bareResult (builder.primitive base) :=
  builder.append_bare .blank (.primitive base)

theorem text_bare (literals : Option Tally) :
    builder.bare.text .blank literals =
      bareResult (builder.text hints literals) :=
  builder.append_bare hints (.text literals)

theorem fill_bare (slot : Ref) (shape : Shape) :
    builder.bare.fill slot shape .blank =
      (builder.fill slot shape hints).map bareResult := by
  have hslot : builder.bare.slots[slot.index]? =
      builder.slots[slot.index]?.map (Option.map Node.bare) :=
    Array.getElem?_map
  rw [fill, fill, hslot]
  cases builder.slots[slot.index]? with
  | none => rfl
  | some found =>
      cases found with
      | some node => rfl
      | none =>
          have hfilled : builder.bare.slots.setIfInBounds slot.index
                (some ⟨shape, .blank⟩) =
              (builder.slots.setIfInBounds slot.index (some ⟨shape, hints⟩)).map
                (Option.map Node.bare) := by
            rw [Array.map_setIfInBounds]
            rfl
          dsimp only [Option.map_some, Option.map_none]
          rw [hfilled]
          rfl

theorem record_bare (content : Record) (slot : Option Ref) :
    builder.bare.record .blank content slot =
      (builder.record hints content slot).map bareResult := by
  simp only [record, require_bare]
  apply bind_eq_map_bind
  intro _
  cases slot with
  | none =>
      exact congrArg Except.ok (builder.append_bare hints (.record content))
  | some slot => exact builder.fill_bare hints slot (.record content)

theorem union_bare (members : List Ref) :
    builder.bare.union .blank members =
      (builder.union hints members).map bareResult := by
  rw [union, union, require_bare, flatten_bare, kind?_bare]
  apply bind_eq_map_bind
  intro _
  dsimp only
  cases Kind.repeated? []
    ((builder.flatten members).eraseDups.filterMap builder.kind?) with
  | some kind => rw [next, size_bare]; rfl
  | none => exact congrArg Except.ok (builder.append_bare hints _)

theorem nullable_bare (ref : Ref) :
    builder.bare.nullable .blank ref =
      bareResult (builder.nullable hints ref) := by
  rw [nullable, nullable, require_bare]
  cases builder.require [ref] with
  | error fault => rfl
  | ok _ =>
      simp only [flatten_bare, kind?_bare, primitive_bare]
      split
      · rfl
      · rw [union_bare _ hints]
        cases (builder.primitive .null).2.union hints
          ((builder.primitive .null).1 :: builder.flatten [ref]) <;> rfl

theorem root_bare (name : String) (target : Ref) :
    builder.bare.root name target = (builder.root name target).map bare := by
  rw [root, root, require_bare]
  apply bind_eq_map_bind
  intro _
  have hroots : builder.bare.roots = builder.roots := rfl
  rw [hroots]
  split <;> rfl

theorem toGraph_bare :
    builder.bare.toGraph = builder.toGraph.map Graph.bare := by
  have hunfilled : builder.bare.unfilled? = builder.unfilled? := by
    rw [unfilled?, unfilled?, bare, Array.findIdx?_map]
    congr 2
    funext slot
    cases slot <;> rfl
  have hfilled : builder.bare.slots.filterMap id =
      (builder.slots.filterMap id).map Node.bare := by
    rw [bare, Array.filterMap_map, Array.map_filterMap]
    rfl
  rw [toGraph, toGraph, hunfilled]
  cases builder.unfilled? with
  | some slot => rfl
  | none =>
      have hcheck :
          Graph.check ⟨builder.bare.slots.filterMap id, builder.bare.roots⟩ =
            Graph.check ⟨builder.slots.filterMap id, builder.roots⟩ := by
        rw [hfilled]
        exact Graph.check_bare ⟨builder.slots.filterMap id, builder.roots⟩
      dsimp only
      rw [hcheck, hfilled]
      exact bind_eq_map_bind fun _ => rfl

end Operations

end Builder

end ShapeMerge
