import Mathlib.Logic.Relation
import ShapeMerge.Builder.Operation
import ShapeMerge.Proofs.Builder.Sound

namespace ShapeMerge

/-!
Operations on a builder, taken apart into changes: a slot is reserved, added
with a node in it, or filled, or a root is named.  Every operation, one that
fails included, comes to some changes, so what every change keeps, every history
keeps.
-/

theorem FormatPolicy.lower_lower (policy : FormatPolicy) (shape : Shape) :
    policy.lower (policy.lower shape) = policy.lower shape := by
  cases shape with
  | formatted format =>
      cases hlowers : policy.lowers format with
      | true => simp [lower, hlowers, Shape.plainText]
      | false => simp [lower, hlowers]
  | _ => rfl

namespace Builder

inductive Change (before : Builder) : Builder → Prop
  | reserve : Change before before.reserve.2
  /-- A node without members, of a shape that the policy leaves as it is. -/
  | append {shape : Shape} (hints : Hints) (hmembers : shape.members = [])
      (hchildren : ∀ child ∈ shape.children, before.has child = true)
      (hkept : before.policy.lower shape = shape) :
      Change before (before.append shape hints).2
  | union {members : List Ref} (hints : Hints)
      (hhas : ∀ member ∈ members, before.has member = true)
      (hkinds : ((before.flatten members).eraseDups.filterMap
        before.kind?).Nodup) :
      Change before
      (before.append (.union (before.flatten members).eraseDups) hints).2
  | fill {slot made : Ref} {content : Record} {hints : Hints} {after : Builder}
      (hhas : ∀ ref ∈ content.fields.values, before.has ref = true)
      (hfill : before.fill slot (.record content) hints = .ok (made, after)) :
      Change before after
  | root {name : String} {target : Ref} (hhas : before.has target = true)
      (hfree : before.roots.contains name = false) :
      Change before { before with roots := before.roots.insert name target }

abbrev Changes : Builder → Builder → Prop :=
  Relation.ReflTransGen Change

variable {builder before after : Builder} {hints : Hints}
  {result : Ref × Builder}

theorem Changes.preserve {holds : Builder → Prop} (h : Changes before after)
    (hchange : ∀ {before after}, Change before after → holds before →
      holds after) (hbefore : holds before) : holds after := by
  induction h with
  | refl => exact hbefore
  | tail _ hlast ih => exact hchange hlast ih

theorem change_leaf (hints : Hints) {shape : Shape}
    (hleaf : shape.children = []) (hkept : builder.policy.lower shape = shape) :
    Change builder (builder.append shape hints).2 := by
  refine .append hints (Shape.members_eq_nil hleaf) ?_ hkept
  rw [hleaf]
  exact List.forall_mem_nil _

theorem change_record {content : Record} {slot : Option Ref}
    (h : builder.record hints content slot = .ok result) :
    Change builder result.2 := by
  cases slot with
  | none =>
      obtain ⟨hhas, rfl⟩ := record_none_eq_ok_iff.mp h
      exact .append hints rfl hhas rfl
  | some slot =>
      obtain ⟨hhas, hfill⟩ := record_some_eq_ok_iff.mp h
      exact .fill hhas hfill

theorem change_union {members : List Ref}
    (h : builder.union hints members = .ok result) :
    Change builder result.2 := by
  obtain ⟨hhas, hkinds, rfl⟩ := union_eq_ok_iff.mp h
  exact .union hints hhas hkinds

theorem changes_nullable (builder : Builder) (hints : Hints) (ref : Ref) :
    Changes builder (builder.nullable hints ref).2 := by
  have hnull : Change builder (builder.primitive .null).2 :=
    change_leaf .blank rfl rfl
  rw [nullable]
  split
  · exact .refl
  · dsimp only
    split
    · exact .refl
    · split
      · rename_i hunion
        exact .tail (.single hnull) (change_union hunion)
      · exact .single hnull

theorem changes_settle {answer : Except GraphFault (Ref × Builder)}
    (h : ∀ result, answer = .ok result → Change builder result.2) :
    Changes builder (builder.settle answer).2 := by
  cases answer with
  | error fault => exact .refl
  | ok result => exact .single (h result rfl)

theorem changes_apply (builder : Builder) (operation : Operation) :
    Changes builder (builder.apply operation).2 := by
  cases operation with
  | reserve => exact .single .reserve
  | primitive base => exact .single (change_leaf .blank rfl rfl)
  | text hints literals => exact .single (change_leaf hints rfl rfl)
  | formatted hints format =>
      refine .single (change_leaf hints ?_ (builder.policy.lower_lower _))
      rw [FormatPolicy.lower]
      split <;> rfl
  | array hints item =>
      apply changes_settle
      intro result hresult
      obtain ⟨hhas, rfl⟩ := array_eq_ok_iff.mp hresult
      exact .append hints rfl (List.forall_mem_singleton.mpr hhas) rfl
  | map hints element =>
      apply changes_settle
      intro result hresult
      obtain ⟨hhas, rfl⟩ := map_eq_ok_iff.mp hresult
      exact .append hints rfl (List.forall_mem_singleton.mpr hhas) rfl
  | record hints content slot => exact changes_settle fun _ => change_record
  | union hints members => exact changes_settle fun _ => change_union
  | nullable hints ref => exact builder.changes_nullable hints ref
  | root name target =>
      apply changes_settle
      intro result hresult
      obtain ⟨after, hafter, rfl⟩ := ShapeMerge.map_eq_ok_iff.mp hresult
      obtain ⟨hhas, hfree, rfl⟩ := root_eq_ok_iff.mp hafter
      exact .root hhas hfree

theorem changes_replay (builder : Builder) (history : List Operation) :
    Changes builder (builder.replay history) := by
  induction history generalizing builder with
  | nil => exact .refl
  | cons operation rest ih =>
      exact (builder.changes_apply operation).trans (ih _)

end Builder

end ShapeMerge
