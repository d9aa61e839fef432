import Mathlib.Data.List.Perm.Subperm
import ShapeMerge.Collapse.Basic
import ShapeMerge.Proofs.Graph.Flat

namespace ShapeMerge

namespace FormatPolicy

variable {policy : FormatPolicy}

def lowerKind (policy : FormatPolicy) : Kind → Kind
  | .formatted format =>
      if policy.lowers format then .text else .formatted format
  | kind => kind

theorem kind_lower (policy : FormatPolicy) (shape : Shape) :
    (policy.lower shape).kind = policy.lowerKind shape.kind := by
  cases shape with
  | formatted format =>
      rw [lower, Shape.kind, lowerKind]
      split <;> rfl
  | _ => rfl

theorem lowerKind_eq_iff {kind other : Kind} (hne : other ≠ .text) :
    policy.lowerKind kind = other → kind = other := by
  cases kind with
  | formatted format =>
      rw [lowerKind]
      split
      · intro h
        exact absurd h.symm hne
      · exact id
  | _ => exact id

theorem lowers_eq_false_of_lowerKind {kind : Kind} {format : Format}
    (h : policy.lowerKind kind = .formatted format) :
    policy.lowers format = false := by
  obtain rfl : kind = .formatted format :=
    lowerKind_eq_iff (fun heq => Kind.noConfusion heq) h
  rw [lowerKind] at h
  split at h
  · cases h
  · rename_i hkept
    exact Bool.eq_false_iff.mpr hkept

theorem lowerKind_eq_text_iff {kind : Kind} :
    policy.lowerKind kind = .text ↔
      kind = .text ∨
        ∃ format, kind = .formatted format ∧ policy.lowers format = true := by
  cases kind with
  | formatted format =>
      rw [lowerKind]
      split <;> simp_all
  | _ => simp [lowerKind]

end FormatPolicy

namespace Graph

variable {graph : Graph} {policy : FormatPolicy}

def loweredKind? (graph : Graph) (policy : FormatPolicy) (ref : Ref) :
    Option Kind :=
  (graph.kind? ref).map policy.lowerKind

theorem isLowered_iff {ref : Ref} :
    graph.isLowered policy ref = true ↔
      ∃ format, graph.shape? ref = some (.formatted format) ∧
        policy.lowers format = true := by
  rw [isLowered]
  split
  · rename_i format hshape
    simp [hshape]
  · rename_i hother
    simp only [Bool.false_eq_true, false_iff, not_exists, not_and]
    intro format hshape
    exact absurd hshape (hother format)

theorem kind?_eq_formatted_iff {ref : Ref} {format : Format} :
    graph.kind? ref = some (.formatted format) ↔
      graph.shape? ref = some (.formatted format) := by
  constructor
  · intro h
    obtain ⟨shape, hshape, hkind⟩ := Option.map_eq_some_iff.mp h
    cases shape <;> cases hkind
    exact hshape
  · exact kind?_of_shape?

theorem isLowered_eq_false {ref : Ref}
    (h : ∀ format, graph.kind? ref ≠ some (.formatted format)) :
    graph.isLowered policy ref = false := by
  rw [Bool.eq_false_iff, ne_eq, isLowered_iff]
  intro hlowered
  obtain ⟨format, hshape, _⟩ := hlowered
  exact h format (kind?_of_shape? hshape)

theorem loweredKind?_eq_text_iff {ref : Ref} :
    graph.loweredKind? policy ref = some .text ↔
      graph.kind? ref = some .text ∨ graph.isLowered policy ref = true := by
  simp only [isLowered_iff, ← kind?_eq_formatted_iff, loweredKind?,
    Option.map_eq_some_iff, FormatPolicy.lowerKind_eq_text_iff]
  constructor
  · intro h
    obtain ⟨kind, hkind, rfl | ⟨format, rfl, hlowers⟩⟩ := h
    · exact Or.inl hkind
    · exact Or.inr ⟨format, hkind, hlowers⟩
  · intro h
    rcases h with hkind | ⟨format, hkind, hlowers⟩
    · exact ⟨.text, hkind, Or.inl rfl⟩
    · exact ⟨.formatted format, hkind, Or.inr ⟨format, rfl, hlowers⟩⟩

theorem kind?_of_loweredKind? {ref : Ref} {kind : Kind} (hne : kind ≠ .text)
    (h : graph.loweredKind? policy ref = some kind) :
    graph.kind? ref = some kind := by
  obtain ⟨old, hold, hlower⟩ := Option.map_eq_some_iff.mp h
  rw [hold, FormatPolicy.lowerKind_eq_iff hne hlower]

theorem kind?_eq_or_text {x y : Ref}
    (h : graph.loweredKind? policy x = graph.loweredKind? policy y) :
    graph.kind? x = graph.kind? y ∨
      graph.loweredKind? policy x = some .text := by
  cases hlower : graph.loweredKind? policy x with
  | none =>
      rw [hlower, eq_comm] at h
      rw [Option.map_eq_none_iff.mp hlower, Option.map_eq_none_iff.mp h]
      exact Or.inl rfl
  | some kind =>
      by_cases hcase : kind = .text
      · exact Or.inr (congrArg some hcase)
      · rw [kind?_of_loweredKind? hcase hlower,
          kind?_of_loweredKind? hcase (h.symm.trans hlower)]
        exact Or.inl rfl

theorem exists_loweredKind?_iff {refs : List Ref} {kind : Kind} :
    (∃ ref ∈ refs, graph.loweredKind? policy ref = some kind) ↔
      ∃ old, (∃ ref ∈ refs, graph.kind? ref = some old) ∧
        policy.lowerKind old = kind := by
  simp only [loweredKind?, Option.map_eq_some_iff]
  constructor
  · intro h
    obtain ⟨ref, href, old, hold, hlower⟩ := h
    exact ⟨old, ⟨ref, href, hold⟩, hlower⟩
  · intro h
    obtain ⟨old, ⟨ref, href, hold⟩, hlower⟩ := h
    exact ⟨ref, href, old, hold, hlower⟩

section Drop

variable {present : Bool} {members : List Ref} {member : Ref}

theorem dropLowered_true (members : List Ref) :
    graph.dropLowered policy true members =
      members.filter fun member => !graph.isLowered policy member := by
  induction members with
  | nil => rfl
  | cons member rest ih =>
      rw [dropLowered, List.filter_cons]
      cases graph.isLowered policy member with
      | true => simpa using ih
      | false => simpa using ih

theorem dropLowered_sublist (present : Bool) (members : List Ref) :
    (graph.dropLowered policy present members).Sublist members := by
  induction members generalizing present with
  | nil => exact List.Sublist.refl []
  | cons member rest ih =>
      rw [dropLowered]
      split
      · split
        · exact (ih true).cons member
        · exact (ih true).cons_cons member
      · exact (ih present).cons_cons member

theorem mem_dropLowered (h : member ∈ members)
    (hkeep : graph.isLowered policy member = false) :
    member ∈ graph.dropLowered policy present members := by
  induction members generalizing present with
  | nil => cases h
  | cons first rest ih =>
      rw [dropLowered]
      rcases List.mem_cons.mp h with rfl | hrest
      · rw [hkeep]
        exact List.mem_cons_self
      · split
        · split
          · exact ih hrest
          · exact List.mem_cons_of_mem first (ih hrest)
        · exact List.mem_cons_of_mem first (ih hrest)

theorem dropLowered_eq_self
    (h : ∀ member ∈ members, graph.isLowered policy member = false) :
    graph.dropLowered policy present members = members := by
  induction members with
  | nil => rfl
  | cons first rest ih =>
      obtain ⟨hfirst, hrest⟩ := List.forall_mem_cons.mp h
      rw [dropLowered, hfirst, if_neg Bool.false_ne_true, ih hrest]

theorem exists_lowered_of_dropLowered (h : member ∈ members)
    (hlowered : graph.isLowered policy member = true) :
    ∃ kept ∈ graph.dropLowered policy false members,
      graph.isLowered policy kept = true := by
  induction members with
  | nil => cases h
  | cons first rest ih =>
      rw [dropLowered]
      cases hfirst : graph.isLowered policy first with
      | true => exact ⟨first, by simp, hfirst⟩
      | false =>
          rcases List.mem_cons.mp h with rfl | hrest
          · rw [hlowered] at hfirst
            cases hfirst
          · obtain ⟨kept, hkept, hyes⟩ := ih hrest
            exact ⟨kept, List.mem_cons_of_mem first hkept, hyes⟩

theorem filter_dropLowered (present : Bool) (members : List Ref) :
    (graph.dropLowered policy present members).filter
        (graph.loweredKind? policy · ≠ some .text) =
      members.filter (graph.loweredKind? policy · ≠ some .text) := by
  induction members generalizing present with
  | nil => rfl
  | cons first rest ih =>
      rw [dropLowered]
      cases hlowered : graph.isLowered policy first with
      | true =>
          have htext := loweredKind?_eq_text_iff.mpr (Or.inr hlowered)
          have hout (others : List Ref) :
              (first :: others).filter
                  (graph.loweredKind? policy · ≠ some .text) =
                others.filter (graph.loweredKind? policy · ≠ some .text) :=
            List.filter_cons_of_neg (by simp [htext])
          cases present with
          | true => rw [if_pos rfl, if_pos rfl, ih, hout]
          | false => rw [if_pos rfl, if_neg Bool.false_ne_true, hout, hout, ih]
      | false =>
          rw [if_neg Bool.false_ne_true, List.filter_cons, List.filter_cons, ih]

theorem texts_of_dropLowered_true (h : (members.map graph.kind?).Nodup) :
    (graph.dropLowered policy true members).Pairwise fun x y =>
      graph.loweredKind? policy x = some .text →
        graph.loweredKind? policy y ≠ some .text := by
  rw [dropLowered_true, List.pairwise_filter]
  refine (List.pairwise_map.mp h).imp fun {x y} hne hx hy hxText hyText =>
    hne ?_
  rw [Bool.not_eq_true'] at hx hy
  rw [loweredKind?_eq_text_iff, hx] at hxText
  rw [loweredKind?_eq_text_iff, hy] at hyText
  rw [hxText.resolve_right Bool.false_ne_true,
    hyText.resolve_right Bool.false_ne_true]

theorem texts_of_dropLowered_false
    (h : ∀ member ∈ members, graph.kind? member ≠ some .text) :
    (graph.dropLowered policy false members).Pairwise fun x y =>
      graph.loweredKind? policy x = some .text →
        graph.loweredKind? policy y ≠ some .text := by
  induction members with
  | nil => exact List.Pairwise.nil
  | cons first rest ih =>
      obtain ⟨hfirst, hrest⟩ := List.forall_mem_cons.mp h
      rw [dropLowered]
      cases hlowered : graph.isLowered policy first with
      | true =>
          rw [if_pos rfl, if_neg Bool.false_ne_true, dropLowered_true]
          have hplain : ∀ member ∈ rest.filter fun member => !graph.isLowered
            policy member, graph.loweredKind? policy member ≠ some .text := by
            intro member hmember htext
            obtain ⟨hmem, hkeep⟩ := List.mem_filter.mp hmember
            rw [Bool.not_eq_true'] at hkeep
            rw [loweredKind?_eq_text_iff, hkeep] at htext
            exact hrest member hmem (htext.resolve_right Bool.false_ne_true)
          rw [List.pairwise_cons]
          refine ⟨fun member hmember _ => hplain member hmember, ?_⟩
          have hall := List.pairwise_of_forall (l := rest.filter fun member =>
            !graph.isLowered policy member) (R := fun _ _ => True) fun _ _ =>
              trivial
          exact hall.imp_of_mem fun _ hy _ _ => hplain _ hy
      | false =>
          rw [if_neg Bool.false_ne_true, List.pairwise_cons]
          refine ⟨fun member _ htext => ?_, ih hrest⟩
          rw [loweredKind?_eq_text_iff, hlowered] at htext
          exact absurd (htext.resolve_right Bool.false_ne_true) hfirst

end Drop

section Narrow

variable {alternatives : List Ref} {member : Ref}

theorem narrow_sublist (alternatives : List Ref) :
    (graph.narrow policy alternatives).Sublist alternatives :=
  dropLowered_sublist _ alternatives

theorem mem_narrow (h : member ∈ alternatives)
    (hkeep : graph.isLowered policy member = false) :
    member ∈ graph.narrow policy alternatives :=
  mem_dropLowered h hkeep

theorem narrow_eq_self
    (h : ∀ member ∈ alternatives, graph.isLowered policy member = false) :
    graph.narrow policy alternatives = alternatives :=
  dropLowered_eq_self h

theorem exists_text_of_narrow (h : member ∈ alternatives)
    (htext : graph.loweredKind? policy member = some .text) :
    ∃ kept ∈ graph.narrow policy alternatives,
      graph.loweredKind? policy kept = some .text := by
  cases hpresent : alternatives.any (graph.kind? · = some .text) with
  | true =>
      obtain ⟨text, hmem, hkind⟩ := List.any_eq_true.mp hpresent
      rw [decide_eq_true_iff] at hkind
      refine ⟨text, mem_narrow hmem (isLowered_eq_false ?_),
        loweredKind?_eq_text_iff.mpr (Or.inl hkind)⟩
      rw [hkind]
      exact fun format heq => nomatch heq
  | false =>
      have hlowered : graph.isLowered policy member = true := by
        rcases loweredKind?_eq_text_iff.mp htext with hkind | hlowered
        · rw [List.any_eq_false] at hpresent
          exact absurd (decide_eq_true hkind) (hpresent member h)
        · exact hlowered
      obtain ⟨kept, hkept, hyes⟩ := exists_lowered_of_dropLowered h hlowered
      refine ⟨kept, ?_, loweredKind?_eq_text_iff.mpr (Or.inr hyes)⟩
      rw [narrow, hpresent]
      exact hkept

theorem narrow_distinct (policy : FormatPolicy)
    (h : (alternatives.map graph.kind?).Nodup) :
    (graph.narrow policy alternatives).Pairwise fun x y =>
      graph.kind? x ≠ graph.kind? y :=
  List.pairwise_map.mp (((narrow_sublist alternatives).map graph.kind?).nodup h)

theorem narrow_kinds (policy : FormatPolicy)
    (h : (alternatives.map graph.kind?).Nodup) :
    ((graph.narrow policy alternatives).map
      (graph.loweredKind? policy)).Nodup := by
  have hkinds := narrow_distinct policy h
  have htexts : (graph.narrow policy alternatives).Pairwise fun x y =>
      graph.loweredKind? policy x = some .text →
        graph.loweredKind? policy y ≠ some .text := by
    rw [narrow]
    cases hpresent : alternatives.any (graph.kind? · = some .text) with
    | true => exact texts_of_dropLowered_true h
    | false =>
        apply texts_of_dropLowered_false
        intro member hmember hkind
        exact List.any_eq_false.mp hpresent member hmember
          (decide_eq_true hkind)
  refine List.pairwise_map.mpr
    ((hkinds.and htexts).imp fun {x y} hboth heq => ?_)
  rcases kind?_eq_or_text heq with hkind | htext
  · exact hboth.1 hkind
  · exact hboth.2 htext (heq.symm.trans htext)

theorem exists_filter_narrow (h : (alternatives.map graph.kind?).Nodup)
    (hmember : member ∈ alternatives)
    (htext : graph.loweredKind? policy member = some .text) :
    ∃ text, (graph.narrow policy alternatives).filter
        (graph.loweredKind? policy · = some .text) = [text] := by
  obtain ⟨text, hin, hkind⟩ := exists_text_of_narrow hmember htext
  have hkinds := narrow_kinds policy h
  refine ⟨text, List.perm_singleton.mp ?_⟩
  refine (List.perm_ext_iff_of_nodup ((hkinds.of_map _).filter _)
    (List.nodup_singleton text)).mpr ?_
  intro other
  rw [List.mem_filter, decide_eq_true_iff, List.mem_singleton]
  constructor
  · intro hother
    exact List.inj_on_of_nodup_map hkinds hother.1 hin
      (hother.2.trans hkind.symm)
  · rintro rfl
    exact ⟨hin, hkind⟩

theorem eq_of_filter_narrow {text : Ref}
    (h : (graph.narrow policy alternatives).filter
        (graph.loweredKind? policy · = some .text) = [text])
    (hmember : member ∈ alternatives)
    (hkind : graph.kind? member = some .text) : member = text := by
  have hstays : graph.isLowered policy member = false := by
    apply isLowered_eq_false
    rw [hkind]
    exact fun format heq => nomatch heq
  have htext : graph.loweredKind? policy member = some .text :=
    loweredKind?_eq_text_iff.mpr (Or.inl hkind)
  rw [← List.mem_singleton, ← h]
  exact List.mem_filter.mpr ⟨mem_narrow hmember hstays, decide_eq_true htext⟩

theorem exists_narrow_iff {kind : Kind} :
    (∃ member ∈ graph.narrow policy alternatives,
      graph.loweredKind? policy member = some kind) ↔
      ∃ member ∈ alternatives,
        graph.loweredKind? policy member = some kind := by
  constructor
  · intro h
    obtain ⟨member, hmember, hkind⟩ := h
    exact ⟨member, (narrow_sublist alternatives).subset hmember, hkind⟩
  · intro h
    obtain ⟨member, hmember, hkind⟩ := h
    cases hlowered : graph.isLowered policy member with
    | false => exact ⟨member, mem_narrow hmember hlowered, hkind⟩
    | true =>
        have htext := loweredKind?_eq_text_iff.mpr (Or.inr hlowered)
        obtain rfl : Kind.text = kind :=
          Option.some.inj (htext.symm.trans hkind)
        exact exists_text_of_narrow hmember htext

theorem exists_admitted_iff {ref : Ref} {kind : Kind}
    (h : graph.shape? ref = some (.union alternatives)) (hne : kind ≠ .union) :
    (∃ old, graph.Admits ref old ∧ policy.lowerKind old = kind) ↔
      ∃ member ∈ alternatives,
        graph.loweredKind? policy member = some kind := by
  rw [exists_loweredKind?_iff]
  refine exists_congr fun old => and_congr_left fun hlower =>
    admits_of_union h ?_
  rintro rfl
  exact hne hlower.symm

/-- Narrowing leaves a union alone exactly if the lowering gives no two members
one kind. -/
theorem narrow_eq_self_iff (h : (alternatives.map graph.kind?).Nodup) :
    graph.narrow policy alternatives = alternatives ↔
      (alternatives.map (graph.loweredKind? policy)).Nodup := by
  constructor
  · intro hself
    rw [← hself]
    exact narrow_kinds policy h
  · intro hkinds
    have hkept : alternatives ⊆ graph.narrow policy alternatives := by
      intro member hmember
      cases hlowered : graph.isLowered policy member with
      | false => exact mem_narrow hmember hlowered
      | true =>
          have htext := loweredKind?_eq_text_iff.mpr (Or.inr hlowered)
          obtain ⟨kept, hkept, hother⟩ := exists_text_of_narrow hmember htext
          rw [List.inj_on_of_nodup_map hkinds
            hmember ((narrow_sublist alternatives).subset hkept)
            (htext.trans hother.symm)]
          exact hkept
    have hnodup : alternatives.Nodup := h.of_map graph.kind?
    exact (narrow_sublist alternatives).eq_of_length_le
      (hnodup.subperm hkept).length_le

theorem survivor?_eq_some_iff {only : Ref} :
    graph.survivor? policy alternatives = some only ↔
      graph.narrow policy alternatives = [only] ∧ alternatives.length ≠ 1 ∧
        graph.kind? only ≠ some .union := by
  rw [survivor?]
  split
  · rename_i other hnarrow
    rw [hnarrow]
    constructor
    · intro h
      split at h
      · rename_i hpasses
        cases h
        simpa using hpasses
      · cases h
    · intro h
      obtain ⟨hsame, hlength, hkind⟩ := h
      cases hsame
      simp [hlength, hkind]
  · rename_i hother
    refine iff_of_false (fun h => by cases h) fun h => hother only h.1

theorem mem_of_survivor? {only : Ref}
    (h : graph.survivor? policy alternatives = some only) :
    only ∈ alternatives := by
  apply (narrow_sublist alternatives).subset
  rw [(survivor?_eq_some_iff.mp h).1]
  exact List.mem_singleton_self only

end Narrow

end Graph

end ShapeMerge
