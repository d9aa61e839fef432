import Mathlib.Data.List.Chain
import ShapeMerge.Graph.OneLine
import ShapeMerge.Proofs.Graph.Alternatives
import ShapeMerge.Proofs.Success

namespace ShapeMerge

/-!
Graphs in which references between nodes that are no records lead to earlier
nodes.  Every cycle of such a graph passes through a record, so a recursion that
is stopped at records it has entered, or that does not enter records at all,
comes to an end without looking out for any other node.
-/

namespace Graph

open Exploration

def Refers (graph : Graph) (parent child : Ref) : Prop :=
  ∃ shape, graph.shape? parent = some shape ∧ child ∈ shape.children

/-- Only to a record, or from one, does a reference lead anywhere but to an
earlier node. -/
structure Descending (graph : Graph) : Prop where
  part : ∀ {parent child}, graph.Refers parent child →
    graph.kind? parent ≠ some .record →
    graph.kind? child ≠ some .record → child < parent

variable {graph : Graph} {parent child ref : Ref}

section Cycles

def Cycle (graph : Graph) (refs : List Ref) : Prop :=
  ∃ first rest, refs = first :: rest ∧
    (first :: rest ++ [first]).IsChain graph.Refers

theorem Descending.exists_record (h : graph.Descending) {refs : List Ref}
    (hcycle : graph.Cycle refs) :
    ∃ ref ∈ refs, graph.kind? ref = some .record := by
  obtain ⟨first, rest, rfl, hchain⟩ := hcycle
  by_contra hnone
  push Not at hnone
  have hplain :
      ∀ ref ∈ first :: rest ++ [first], graph.kind? ref ≠ some .record := by
    intro ref href
    rcases List.mem_append.mp href with hmem | hlast
    · exact hnone ref hmem
    · exact hnone ref (List.mem_singleton.mp hlast ▸ List.mem_cons_self)
  have hdown : ((first :: rest ++ [first]).map (·.index)).IsChain (· > ·) := by
    refine (List.isChain_map _).mpr
      (hchain.imp_of_mem_imp fun parent child hparent hchild hrefers => ?_)
    exact h.part hrefers (hplain parent hparent) (hplain child hchild)
  exact Nat.lt_irrefl _ (hdown.rel_cons (by simp))

end Cycles

section Weight

/-- How far a recursion that enters no record can go from a node. -/
def weight (graph : Graph) (ref : Ref) : Nat :=
  match graph.kind? ref with
  | none => 0
  | some kind => if kind = .record then 0 else ref.index + 1

theorem weight_le (graph : Graph) (ref : Ref) :
    graph.weight ref ≤ graph.size := by
  rw [weight]
  split
  · exact Nat.zero_le _
  · rename_i hkind
    split
    · exact Nat.zero_le _
    · exact has_iff.mp (has_iff_kind?.mpr ⟨_, hkind⟩)

theorem weight_of_shape? {shape : Shape} (h : graph.shape? ref = some shape)
    (hplain : shape.kind ≠ .record) : graph.weight ref = ref.index + 1 := by
  rw [weight, kind?_of_shape? h]
  exact if_neg hplain

theorem Descending.weight_lt (h : graph.Descending) {shape : Shape}
    (hshape : graph.shape? parent = some shape) (hplain : shape.kind ≠ .record)
    (hchild : child ∈ shape.children) :
    graph.weight child < graph.weight parent := by
  have hparent : graph.kind? parent ≠ some .record := by
    rw [kind?_of_shape? hshape]
    exact fun heq => hplain (Option.some.inj heq)
  rw [weight_of_shape? hshape hplain, weight]
  split
  · exact Nat.zero_lt_succ _
  · rename_i kind hkind
    split
    · exact Nat.zero_lt_succ _
    · rename_i hne
      apply Nat.succ_lt_succ
      apply h.part ⟨shape, hshape, hchild⟩ hparent
      rw [hkind]
      exact fun heq => hne (Option.some.inj heq)

end Weight

section Nullable

/-- Whether `null` is a node, or a member of a union, to some depth; nothing
looks out for nodes that have been met.  No answer means that the depth was
exceeded. -/
def nullableWithin (graph : Graph) : (depth : Nat) → Ref → Option Bool
  | 0, _ => none
  | depth + 1, ref =>
      if graph.kind? ref = some .null then some true
      else (graph.members ref).anyM (nullableWithin graph depth)

theorem Descending.nullableWithin_eq (h : graph.Descending) {depth : Nat}
    (hdepth : graph.weight ref < depth) :
    graph.nullableWithin depth ref = some (graph.nullable ref) := by
  induction depth generalizing ref with
  | zero => cases hdepth
  | succ depth ih =>
      rw [nullableWithin, nullable_eq_any]
      by_cases hnull : graph.kind? ref = some .null
      · simp [hnull]
      · rw [if_neg hnull, decide_eq_false hnull, Bool.false_or]
        apply anyM_eq_some_any
        intro member hmember
        obtain ⟨alternatives, hshape, hmem⟩ := shape?_of_mem_members hmember
        have hlt := h.weight_lt hshape (fun heq => nomatch heq) hmem
        exact ih (Nat.lt_of_lt_of_le hlt (Nat.le_of_lt_succ hdepth))

end Nullable

section OneLine

/-- The description of a node inside the records in `inside`, to some depth;
nothing looks out for arrays, maps and unions that have been entered.  No answer
means that the depth was exceeded. -/
def oneLineWithin (graph : Graph) :
    (depth : Nat) → (inside : List Ref) → Ref → Option String
  | 0, _, _ => none
  | depth + 1, inside, ref =>
      match graph.shape? ref with
      | none => some ("<missing " ++ ref.label ++ ">")
      | some (.primitive base) => some base.label
      | some (.text literals) => some (textLine literals)
      | some (.formatted format) => some format.label
      | some (.record record) =>
          if ref ∈ inside then some ref.label
          else do
            let lines ← record.fields.entries.mapM fun (name, field) => do
              let line ← oneLineWithin graph depth (ref :: inside) field
              return name ++ ": " ++ line
            return braced (", ".intercalate lines)
      | some (.array item) => do
          let line ← oneLineWithin graph depth inside item
          return "[" ++ line ++ "]"
      | some (.map element) => do
          let line ← oneLineWithin graph depth inside element
          return "map<" ++ line ++ ">"
      | some (.union alternatives) => do
          let present := alternatives.filter (graph.kind? · ≠ some .null)
          let lines ← present.mapM (oneLineWithin graph depth inside)
          return unionLine lines (lines.length < alternatives.length)

section Step

variable {depth : Nat} {inside through : List Ref}

theorem oneLineWithin_record {content : Record}
    (hshape : graph.shape? ref = some (.record content))
    (hfields : ref ∉ inside →
      ∀ field, graph.oneLineWithin depth (ref :: inside) field =
        some (graph.oneLineInside (ref :: inside) [] field)) :
    graph.oneLineWithin (depth + 1) inside ref =
      some (graph.oneLineInside inside through ref) := by
  rw [oneLineWithin, oneLineInside, hshape]
  by_cases hinside : ref ∈ inside
  · simp [hinside]
  · have hlines : (content.fields.entries.mapM fun (name, field) => do
        let line ← graph.oneLineWithin depth (ref :: inside) field
        return name ++ ": " ++ line) =
          some (content.fields.entries.map fun (name, field) =>
            name ++ ": " ++ graph.oneLineInside (ref :: inside) [] field) := by
      apply mapM_eq_some_map
      rintro ⟨name, field⟩ _
      simp [hfields hinside field]
    simp only [if_neg hinside, hlines]
    rfl

theorem oneLineWithin_plain {shape : Shape}
    (hshape : graph.shape? ref = some shape) (hplain : shape.kind ≠ .record)
    (hfresh : ref ∉ through)
    (hparts : ∀ child ∈ shape.children, graph.oneLineWithin depth inside child =
      some (graph.oneLineInside inside (ref :: through) child)) :
    graph.oneLineWithin (depth + 1) inside ref =
      some (graph.oneLineInside inside through ref) := by
  rw [oneLineWithin, oneLineInside, hshape]
  cases shape with
  | record content => exact absurd rfl hplain
  | array item => simp [hfresh, hparts item (List.mem_singleton_self item)]
  | map element =>
      simp [hfresh, hparts element (List.mem_singleton_self element)]
  | union alternatives =>
      have hlines : (alternatives.filter (graph.kind? · ≠ some .null)).mapM
            (graph.oneLineWithin depth inside) = _ :=
        mapM_eq_some_map fun member hmember =>
          hparts member (List.mem_of_mem_filter hmember)
      simp only [hlines, if_neg hfresh]
      simp
  | _ => rfl

end Step

/-- How deep a description can go: records that have not been entered come
first, and between two of them the way leads down. -/
def depthLeft (graph : Graph) (inside : List Ref) (ref : Ref) : Nat :=
  remaining graph.refs inside * (graph.size + 1) + graph.weight ref

theorem depthLeft_enter {shape : Shape}
    (hshape : graph.shape? parent = some shape) {inside : List Ref}
    (hnew : parent ∉ inside) (child : Ref) :
    graph.depthLeft (parent :: inside) child <
      graph.depthLeft inside parent := by
  have hless := remaining_cons_lt (mem_refs_of_shape? hshape) hnew
  have hblock := Nat.mul_le_mul_right (graph.size + 1) (Nat.succ_le_of_lt hless)
  have hchild := graph.weight_le child
  rw [Nat.succ_mul] at hblock
  rw [depthLeft, depthLeft]
  omega

/-- Nodes that have been entered since the last record are above the one that is
described, so they are not met again. -/
theorem Descending.oneLineWithin_eq (h : graph.Descending) {depth : Nat}
    {inside through : List Ref}
    (hthrough : ∀ entered ∈ through, graph.weight ref < graph.weight entered)
    (hdepth : graph.depthLeft inside ref < depth) :
    graph.oneLineWithin depth inside ref =
      some (graph.oneLineInside inside through ref) := by
  induction depth generalizing ref inside through with
  | zero => cases hdepth
  | succ depth ih =>
      cases hshape : graph.shape? ref with
      | none => rw [oneLineWithin, oneLineInside, hshape]
      | some shape =>
          by_cases hkind : shape.kind = .record
          · obtain ⟨content, hrecord⟩ :=
              shape?_of_kind?_record
                ((kind?_of_shape? hshape).trans (congrArg some hkind))
            refine oneLineWithin_record hrecord fun hinside field =>
              ih (List.forall_mem_nil _) ?_
            exact Nat.lt_of_lt_of_le (depthLeft_enter hrecord hinside field)
              (Nat.le_of_lt_succ hdepth)
          · have hfresh : ref ∉ through :=
              fun hmem => Nat.lt_irrefl _ (hthrough ref hmem)
            refine oneLineWithin_plain hshape hkind hfresh fun child hchild =>
              ?_
            have hlt := h.weight_lt hshape hkind hchild
            apply ih
            · intro entered hentered
              rcases List.mem_cons.mp hentered with rfl | hentered
              · exact hlt
              · exact Nat.lt_trans hlt (hthrough entered hentered)
            · rw [depthLeft] at hdepth ⊢
              omega

theorem depthLeft_lt (graph : Graph) (inside : List Ref) (ref : Ref) :
    graph.depthLeft inside ref < (graph.size + 1) * (graph.size + 1) := by
  have hrefs : remaining graph.refs inside ≤ graph.size := by
    rw [remaining]
    refine (List.length_filter_le _ _).trans ?_
    rw [refs, List.length_map, List.length_range]
  have hblock := Nat.mul_le_mul_right (graph.size + 1) hrefs
  have hweight := graph.weight_le ref
  rw [depthLeft, Nat.succ_mul]
  omega

end OneLine

end Graph

end ShapeMerge
