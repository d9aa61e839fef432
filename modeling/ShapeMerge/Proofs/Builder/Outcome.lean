import Mathlib.Data.Nat.Find
import ShapeMerge.Proofs.Builder.Orderly

namespace ShapeMerge

/-!
What a history of a builder can end in: the lowest slot that was never filled,
the lowest union with two records among its members, or a graph.
-/

theorem Ref.exists_lowest {holds : Ref → Prop} (h : ∃ ref, holds ref) :
    ∃ ref, holds ref ∧ ∀ other, other < ref → ¬ holds other := by
  classical
  have hindex : ∃ index, holds ⟨index⟩ := by
    obtain ⟨ref, href⟩ := h
    exact ⟨ref.index, href⟩
  exact ⟨⟨Nat.find hindex⟩, Nat.find_spec hindex,
    fun _ hlt => Nat.find_min hindex hlt⟩

theorem FormatPolicy.lowers_eq_false_of_kept
    {policy : FormatPolicy} {format : Format}
    (h : policy.lower (.formatted format) = .formatted format) :
    policy.lowers format = false := by
  cases hlowers : policy.lowers format with
  | false => rfl
  | true =>
      rw [FormatPolicy.lower, if_pos hlowers] at h
      cases h

/-- What a builder hands out under a policy. -/
structure Graph.Tidy (graph : Graph) (policy : FormatPolicy) : Prop where
  valid : graph.check = .ok ()
  unnested :
    ∀ {ref alternatives}, graph.shape? ref = some (.union alternatives) →
      ∀ member ∈ alternatives, graph.kind? member ≠ some .union
  alternatives : ∀ {ref}, graph.has ref = true →
    ∃ options, graph.alternatives ref = .ok options ∧
      (options.map graph.kind?).Nodup
  kept : ∀ {ref format}, graph.shape? ref = some (.formatted format) →
    policy.lowers format = false

namespace Builder

variable {builder : Builder}

def Crowded (builder : Builder) (ref : Ref) : Prop :=
  ∃ alternatives, builder.shape? ref = some (.union alternatives) ∧
    builder.TwoRecords alternatives

inductive Outcome (builder : Builder) (policy : FormatPolicy) :
    Except GraphFault Graph → Prop
  | unfilled {slot : Ref} (hslot : builder.Reserved slot)
      (hfirst : ∀ other, other < slot → ¬ builder.Reserved other) :
      Outcome builder policy (.error (.unfilled slot))
  | crowded {union : Ref} (hfull : ∀ ref, ¬ builder.Reserved ref)
      (hunion : builder.Crowded union)
      (hfirst : ∀ other, other < union → ¬ builder.Crowded other) :
      Outcome builder policy (.error (.repeatedKind union Kind.record.label))
  | graph {graph : Graph} (hfull : ∀ ref, ¬ builder.Reserved ref)
      (huncrowded : ∀ ref, ¬ builder.Crowded ref)
      (hnodes : graph.nodes.map some = builder.slots)
      (hroots : graph.roots = builder.roots) (htidy : graph.Tidy policy) :
      Outcome builder policy (.ok graph)

theorem toGraph_of_unfilled {slot : Ref} (hslot : builder.Reserved slot)
    (hfirst : ∀ other, other < slot → ¬ builder.Reserved other) :
    builder.toGraph = .error (.unfilled slot) := by
  have hlt : slot.index < builder.slots.size :=
    (Array.getElem?_eq_some_iff.mp hslot).1
  have hindex : builder.slots.findIdx? (·.isNone) = some slot.index := by
    refine Array.findIdx?_eq_some_iff_getElem.mpr
      ⟨hlt, ?_, fun index hbefore hnone => ?_⟩
    · rw [(Array.getElem?_eq_some_iff.mp hslot).2]
      rfl
    · refine hfirst ⟨index⟩ hbefore ?_
      rw [Reserved, Array.getElem?_eq_getElem (Nat.lt_trans hbefore hlt),
        Option.isNone_iff_eq_none.mp hnone]
  rw [toGraph, unfilled?, hindex]
  rfl

theorem crowded_iff {ref : Ref} {shape : Shape}
    (h : builder.shape? ref = some shape) :
    builder.Crowded ref ↔ builder.TwoRecords shape.members := by
  rw [Crowded, h]
  cases shape with
  | union alternatives => simp [Shape.members]
  | _ => simp [Shape.members, TwoRecords]

section Full

variable (hfull : ∀ ref, ¬ builder.Reserved ref)

include hfull

theorem kind?_filled_eq : builder.filled.kind? = builder.kind? := by
  funext ref
  rw [kind?_filled hfull, kind?_of_full hfull]

theorem Suits.nodup_promised {shape : Shape} (h : builder.Suits shape)
    (hfew : ¬ builder.TwoRecords shape.members) :
    (shape.members.map builder.promised?).Nodup := by
  refine List.pairwise_map.mpr
    (h.apart.imp_of_mem fun hleft hright hapart heq => ?_)
  refine hfew ⟨_, hleft, _, hright, hapart.1, ?_, ?_⟩
  · rw [kind?_of_full hfull, hapart.2 heq]
  · rw [kind?_of_full hfull, ← heq, hapart.2 heq]

section Nodes

variable (h : builder.Orderly) {ref : Ref} {node : Node}
  (hnode : builder.filled.node? ref = some node)

include h hnode

theorem Orderly.suits_filled :
    builder.shape? ref = some node.shape ∧ builder.Suits node.shape := by
  have hshape : builder.shape? ref = some node.shape := by
    rw [shape?, ← node?_filled hfull, hnode]
    rfl
  exact ⟨hshape, h.suits hshape⟩

theorem Orderly.nodeFault?_of_uncrowded (huncrowded : ¬ builder.Crowded ref) :
    builder.filled.nodeFault? (ref, node) = none := by
  obtain ⟨hshape, hsuits⟩ := h.suits_filled hfull hnode
  rw [Graph.nodeFault?_eq_none_iff, funext (kind?_filled hfull)]
  exact ⟨fun child hchild =>
    (has_filled hfull child).trans (hsuits.children child hchild),
    hsuits.nodup_promised hfull (mt (crowded_iff hshape).mpr huncrowded)⟩

theorem Orderly.nodeFault?_of_crowded (hcrowded : builder.Crowded ref) :
    builder.filled.nodeFault? (ref, node) =
      some (.repeatedKind ref Kind.record.label) := by
  obtain ⟨hshape, hsuits⟩ := h.suits_filled hfull hnode
  have hchildren :
      node.shape.children.find? (!builder.filled.has ·) = none := by
    rw [List.find?_eq_none]
    intro child hchild
    simp [has_filled hfull, hsuits.children child hchild]
  have hrepeated :=
    repeated_record hsuits.apart ((crowded_iff hshape).mp hcrowded)
  rw [Graph.nodeFault?, hchildren, kind?_filled_eq hfull, hrepeated]
  rfl

end Nodes

theorem Orderly.toGraph_of_crowded
    (h : builder.Orderly) {union : Ref} (hunion : builder.Crowded union)
    (hfirst : ∀ other, other < union → ¬ builder.Crowded other) :
    builder.toGraph = .error (.repeatedKind union Kind.record.label) := by
  obtain ⟨alternatives, hshape, _⟩ := id hunion
  obtain ⟨node, hnode, _⟩ := Option.map_eq_some_iff.mp hshape
  have hfilled := (node?_filled hfull union).trans hnode
  have hfault := h.nodeFault?_of_crowded hfull hfilled hunion
  have hcheck := Graph.check_eq_error_of_first hfilled hfault fun hlt hother =>
    h.nodeFault?_of_uncrowded hfull hother (hfirst _ hlt)
  rw [toGraph_of_full hfull, hcheck]
  rfl

theorem Orderly.settled (h : builder.Orderly)
    (huncrowded : ∀ ref, ¬ builder.Crowded ref) : builder.Settled where
  toSound := h.sound
  kinds {ref _} hshape :=
    (h.suits hshape).nodup_promised hfull
      (mt (crowded_iff hshape).mpr (huncrowded ref))

theorem Orderly.tidy_filled (h : builder.Orderly)
    (huncrowded : ∀ ref, ¬ builder.Crowded ref) :
    builder.filled.Tidy builder.policy := by
  have hwf := (h.settled hfull huncrowded).wellFormed_filled hfull h.roots
  have hflat := h.sound.flat hfull hwf
  refine ⟨Graph.check_eq_ok_iff.mpr hwf, hflat.flat, fun {ref} hhas => ?_,
    fun hshape => ?_⟩
  · exact ⟨_, hflat.alternatives_eq_ok hhas, hflat.options_kinds ref⟩
  · rw [shape?_filled hfull] at hshape
    exact FormatPolicy.lowers_eq_false_of_kept (h.suits hshape).kept

end Full

theorem Orderly.outcome (h : builder.Orderly) :
    builder.Outcome builder.policy builder.toGraph := by
  by_cases hreserved : ∃ ref, builder.Reserved ref
  · obtain ⟨slot, hslot, hfirst⟩ := Ref.exists_lowest hreserved
    rw [toGraph_of_unfilled hslot hfirst]
    exact .unfilled hslot hfirst
  have hfull : ∀ ref, ¬ builder.Reserved ref := not_exists.mp hreserved
  by_cases hcrowded : ∃ ref, builder.Crowded ref
  · obtain ⟨union, hunion, hfirst⟩ := Ref.exists_lowest hcrowded
    rw [h.toGraph_of_crowded hfull hunion hfirst]
    exact .crowded hfull hunion hfirst
  have huncrowded : ∀ ref, ¬ builder.Crowded ref := not_exists.mp hcrowded
  rw [(h.settled hfull huncrowded).toGraph_eq_ok hfull h.roots]
  exact .graph hfull huncrowded (slots_eq_map_some hfull) rfl
    (h.tidy_filled hfull huncrowded)

theorem replay_outcome (policy : FormatPolicy) (history : List Operation) :
    ((start policy).replay history).Outcome policy
      ((start policy).replay history).toGraph := by
  have hpolicy : ((start policy).replay history).policy = policy :=
    (safe_replay (start policy) history).policy
  have houtcome := ((orderly_start policy).replay history).outcome
  rwa [hpolicy] at houtcome

end Builder

end ShapeMerge
