import ShapeMerge.Proofs.Exploration.Closure
import ShapeMerge.Proofs.Graph.Flat
import ShapeMerge.Proofs.Graph.Pairing

namespace ShapeMerge.Graph

/-!
Equivalence of nodes is bisimilarity: it holds of two nodes exactly if some
relation that holds of them is respected by the shapes of all nodes that it
relates.  Equivalent nodes can take each other's place: they have the same kind,
and what they can be besides `null` pairs up.
-/

open Exploration

/-- What two shapes share if their parts are related.  Unions pair up their
members by kind. -/
inductive Matches (graph : Graph) (related : Ref → Ref → Prop) :
    Shape → Shape → Prop
  | primitive (base : Primitive) :
      Matches graph related (.primitive base) (.primitive base)
  | text (literals : Option Tally) :
      Matches graph related (.text literals) (.text literals)
  | formatted (format : Format) :
      Matches graph related (.formatted format) (.formatted format)
  | array {left right : Ref} (h : related left right) :
      Matches graph related (.array left) (.array right)
  | map {left right : Ref} (h : related left right) :
      Matches graph related (.map left) (.map right)
  | record {left right : Record} (hpinned : left.pinned = right.pinned)
      (hnames : left.fields.names = right.fields.names)
      (hfields : ∀ {name x y}, left.fields.find? name = some x →
        right.fields.find? name = some y → related x y) :
      Matches graph related (.record left) (.record right)
  | union {left right : List Ref} (h : graph.Pairing related left right) :
      Matches graph related (.union left) (.union right)

def Bisimulation (graph : Graph) (related : Ref → Ref → Prop) : Prop :=
  ∀ {left right}, related left right → left = right ∨ ∃ leftShape rightShape,
    graph.shape? left = some leftShape ∧ graph.shape? right = some rightShape ∧
    graph.Matches related leftShape rightShape

def Bisimilar (graph : Graph) (left right : Ref) : Prop :=
  ∃ related : Ref → Ref → Prop, graph.Bisimulation related ∧ related left right

theorem Matches.mono {graph : Graph} {related wider : Ref → Ref → Prop}
    {left right : Shape} (hle : ∀ {x y}, related x y → wider x y)
    (h : graph.Matches related left right) :
    graph.Matches wider left right := by
  cases h with
  | primitive base => exact .primitive base
  | text literals => exact .text literals
  | formatted format => exact .formatted format
  | array h => exact .array (hle h)
  | map h => exact .map (hle h)
  | record hpinned hnames hfields =>
      exact .record hpinned hnames fun hx hy => hle (hfields hx hy)
  | union h => exact .union (h.mono fun _ => hle)

theorem Matches.refl {graph : Graph} {related : Ref → Ref → Prop}
    (hrelated : ∀ ref, related ref ref) (shape : Shape) :
    graph.Matches related shape shape := by
  cases shape with
  | primitive base => exact .primitive base
  | text literals => exact .text literals
  | formatted format => exact .formatted format
  | array item => exact .array (hrelated item)
  | map element => exact .map (hrelated element)
  | record content =>
      refine .record rfl rfl fun {name x y} hx hy => ?_
      obtain rfl := Option.some.inj (hx.symm.trans hy)
      exact hrelated x
  | union alternatives => exact .union (Pairing.refl hrelated alternatives)

theorem Matches.symm {graph : Graph} {related : Ref → Ref → Prop}
    {left right : Shape} (h : graph.Matches related left right) :
    graph.Matches (fun x y => related y x) right left := by
  cases h with
  | primitive base => exact .primitive base
  | text literals => exact .text literals
  | formatted format => exact .formatted format
  | array h => exact .array h
  | map h => exact .map h
  | record hpinned hnames hfields =>
      exact .record hpinned.symm hnames.symm fun hx hy => hfields hy hx
  | union h => exact .union h.symm

theorem Matches.trans {graph : Graph} {first second : Ref → Ref → Prop}
    {left middle right : Shape} (hfirst : graph.Matches first left middle)
    (hsecond : graph.Matches second middle right) :
    graph.Matches (Relation.Comp first second) left right := by
  cases hfirst with
  | primitive base => cases hsecond; exact .primitive base
  | text literals => cases hsecond; exact .text literals
  | formatted format => cases hsecond; exact .formatted format
  | array h => cases hsecond with | array h' => exact .array ⟨_, h, h'⟩
  | map h => cases hsecond with | map h' => exact .map ⟨_, h, h'⟩
  | @record left middle hpinned hnames hfields =>
      cases hsecond with
      | record hpinned' hnames' hfields' =>
          refine .record (hpinned.trans hpinned') (hnames.trans hnames')
            fun {name x y} hx hy => ?_
          have hname : name ∈ middle.fields.names :=
            hnames ▸ NameMap.mem_names_iff.mpr ⟨x, hx⟩
          obtain ⟨z, hz⟩ := NameMap.mem_names_iff.mp hname
          exact ⟨z, hfields hx hz, hfields' hz hy⟩
  | union h => cases hsecond with | union h' => exact .union (h.trans h')

theorem Matches.kind_eq {graph : Graph} {related : Ref → Ref → Prop}
    {left right : Shape} (h : graph.Matches related left right) :
    left.kind = right.kind := by
  cases h <;> rfl

theorem Matches.members {graph : Graph} {related : Ref → Ref → Prop}
    {left right : Shape} (h : graph.Matches related left right) :
    graph.Pairing related left.members right.members := by
  cases h with
  | union h => exact h
  | _ => exact Pairing.nil

theorem Bisimilar.refl (graph : Graph) (ref : Ref) : graph.Bisimilar ref ref :=
  ⟨Eq, fun h => Or.inl h, rfl⟩

theorem Bisimilar.symm {graph : Graph} {left right : Ref}
    (h : graph.Bisimilar left right) : graph.Bisimilar right left := by
  obtain ⟨related, hbisimulation, hrelated⟩ := h
  refine ⟨fun x y => related y x, fun hyx => ?_, hrelated⟩
  rcases hbisimulation hyx with
    heq | ⟨leftShape, rightShape, hleft, hright, hmatches⟩
  · exact Or.inl heq.symm
  · exact Or.inr ⟨rightShape, leftShape, hright, hleft, hmatches.symm⟩

theorem bisimulation_bisimilar (graph : Graph) :
    graph.Bisimulation graph.Bisimilar := by
  rintro left right ⟨related, hbisimulation, hrelated⟩
  apply (hbisimulation hrelated).imp_right
  rintro ⟨leftShape, rightShape, hleft, hright, hmatches⟩
  exact ⟨leftShape, rightShape, hleft, hright,
    hmatches.mono fun h => ⟨related, hbisimulation, h⟩⟩

theorem Bisimilar.exists_shape {graph : Graph}
    {left right : Ref} (h : graph.Bisimilar left right) {shape : Shape}
    (hshape : graph.shape? left = some shape) :
    ∃ other, graph.shape? right = some other ∧
      graph.Matches graph.Bisimilar shape other := by
  rcases graph.bisimulation_bisimilar h with
    rfl | ⟨leftShape, rightShape, hleft, hright, hmatches⟩
  · exact ⟨shape, hshape, .refl (Bisimilar.refl graph) shape⟩
  · cases hshape.symm.trans hleft
    exact ⟨rightShape, hright, hmatches⟩

theorem Bisimilar.trans {graph : Graph}
    {left middle right : Ref} (hleft : graph.Bisimilar left middle)
    (hright : graph.Bisimilar middle right) : graph.Bisimilar left right := by
  refine ⟨Relation.Comp graph.Bisimilar graph.Bisimilar, ?_, middle,
    hleft, hright⟩
  rintro x z ⟨y, hxy, hyz⟩
  rcases graph.bisimulation_bisimilar hxy with
    rfl | ⟨xShape, yShape, hx, hy, hmatches⟩
  · apply (graph.bisimulation_bisimilar hyz).imp_right
    rintro ⟨xShape, zShape, hx, hz, hmatches⟩
    exact ⟨xShape, zShape, hx, hz,
      hmatches.mono fun h => ⟨_, Bisimilar.refl graph _, h⟩⟩
  · rcases graph.bisimulation_bisimilar hyz with
      rfl | ⟨yShape', zShape, hy', hz, hmatches'⟩
    · exact Or.inr ⟨xShape, yShape, hx, hy,
        hmatches.mono fun h => ⟨_, h, Bisimilar.refl graph _⟩⟩
    · obtain rfl : yShape = yShape' := Option.some.inj (hy.symm.trans hy')
      exact Or.inr ⟨xShape, zShape, hx, hz, hmatches.trans hmatches'⟩

theorem pairFields_eq_some {left right : Record} {pairs : List (Ref × Ref)}
    (h : pairFields left right = some pairs) :
    left.pinned = right.pinned ∧ left.fields.names = right.fields.names ∧
      ∀ {name x y}, left.fields.find? name = some x →
        right.fields.find? name = some y → (x, y) ∈ pairs := by
  unfold pairFields at h
  split at h
  · rename_i hsame
    have hfound {name : String} {x : Ref}
        (hx : left.fields.find? name = some x) :
        ∃ y, right.fields.find? name = some y ∧ (x, y) ∈ pairs := by
      obtain ⟨pair, hpair, hsome⟩ :=
        exists_of_mapM_eq_some h (NameMap.find?_eq_some_iff.mp hx)
      simp only [bind, Option.bind_eq_some_iff, pure, Option.some.injEq]
        at hsome
      obtain ⟨y, hy, rfl⟩ := hsome
      exact ⟨y, hy, hpair⟩
    have hsubset : left.fields.names ⊆ right.fields.names := by
      intro name hname
      obtain ⟨x, hx⟩ := NameMap.mem_names_iff.mp hname
      obtain ⟨y, hy, _⟩ := hfound hx
      exact NameMap.mem_names_iff.mpr ⟨y, hy⟩
    have hperm : left.fields.names.Perm right.fields.names :=
      (List.Nodup.subperm left.fields.names_nodup hsubset).perm_of_length_le
        (by simp [hsame.2])
    refine ⟨hsame.1, NameMap.names_eq_of_mem_iff fun name => hperm.mem_iff,
      fun hx hy => ?_⟩
    obtain ⟨z, hz, hpair⟩ := hfound hx
    obtain rfl := Option.some.inj (hy.symm.trans hz)
    exact hpair
  · cases h

theorem matches_of_pairParts {graph : Graph}
    {related : Ref → Ref → Prop} {left right : Shape} {pairs : List (Ref × Ref)}
    (hkinds : (left.members.map graph.kind?).Nodup)
    (h : graph.pairParts left right = some pairs)
    (hrelated : ∀ pair ∈ pairs, related pair.1 pair.2) :
    graph.Matches related left right := by
  cases left <;> cases right <;>
    simp only [pairParts, reduceCtorEq, Option.ite_none_right_eq_some] at h
  case primitive.primitive => exact h.1 ▸ .primitive _
  case text.text => exact h.1 ▸ .text _
  case formatted.formatted => exact h.1 ▸ .formatted _
  case array.array x y =>
      cases h
      exact .array (hrelated (x, y) List.mem_cons_self)
  case map.map x y =>
      cases h
      exact .map (hrelated (x, y) List.mem_cons_self)
  case record.record x y =>
      obtain ⟨hpinned, hnames, hfields⟩ := pairFields_eq_some h
      exact .record hpinned hnames fun hx hy => hrelated _ (hfields hx hy)
  case union.union x y =>
    exact .union (pairing_of_pairAlternatives hkinds h hrelated)

theorem exists_pairFields {related : Ref → Ref → Prop} {left right : Record}
    (hpinned : left.pinned = right.pinned)
    (hnames : left.fields.names = right.fields.names)
    (hfields : ∀ {name x y}, left.fields.find? name = some x →
      right.fields.find? name = some y → related x y) :
    ∃ pairs, pairFields left right = some pairs ∧
      ∀ pair ∈ pairs, related pair.1 pair.2 := by
  have hsize : left.fields.size = right.fields.size := by
    simpa using congrArg List.length hnames
  rw [pairFields, if_pos ⟨hpinned, hsize⟩]
  refine exists_mapM_eq_some fun (name, x) hentry => ?_
  have hx := NameMap.find?_eq_some_iff.mpr hentry
  obtain ⟨y, hy⟩ :=
    NameMap.mem_names_iff.mp (hnames ▸ NameMap.mem_names_iff.mpr ⟨x, hx⟩)
  exact ⟨(x, y), by simp [hy], hfields hx hy⟩

theorem exists_pairParts {graph : Graph} {related : Ref → Ref → Prop}
    {left right : Shape} (hhas : ∀ ref ∈ left.members, graph.has ref = true)
    (hkinds : (right.members.map graph.kind?).Nodup)
    (h : graph.Matches related left right) :
    ∃ pairs, graph.pairParts left right = some pairs ∧
      ∀ pair ∈ pairs, related pair.1 pair.2 := by
  cases h with
  | primitive base => exact ⟨[], by simp [pairParts], by simp⟩
  | text literals => exact ⟨[], by simp [pairParts], by simp⟩
  | formatted format => exact ⟨[], by simp [pairParts], by simp⟩
  | @array x y h => exact ⟨[(x, y)], rfl, by simpa using h⟩
  | @map x y h => exact ⟨[(x, y)], rfl, by simpa using h⟩
  | record hpinned hnames hfields =>
      exact exists_pairFields hpinned hnames hfields
  | union h => exact exists_pairAlternatives hhas hkinds h

theorem equivalent_iff_explored {graph : Graph} {left right : Ref} :
    graph.equivalent left right = true ↔
      ∃ visited, explore graph.comparePair graph.comparePair_bounded
          [(left, right)] [] = .ok visited := by
  unfold equivalent
  split
  · rename_i visited hvisited
    exact ⟨fun _ => ⟨visited, hvisited⟩, fun _ => rfl⟩
  · rename_i herror
    simp [herror]

theorem WellFormed.members_kinds {graph : Graph} (hwf : graph.WellFormed)
    {ref : Ref} {shape : Shape} (h : graph.shape? ref = some shape) :
    (shape.members.map graph.kind?).Nodup := by
  cases shape with
  | union alternatives => exact hwf.kinds h
  | _ => exact List.nodup_nil

theorem WellFormed.members_has {graph : Graph} (hwf : graph.WellFormed)
    {ref : Ref} {shape : Shape} (h : graph.shape? ref = some shape) :
    ∀ member ∈ shape.members, graph.has member = true :=
  fun member hmember =>
    hwf.children h member (Shape.mem_children_of_mem_members hmember)

theorem closed_of_bisimulation {graph : Graph} (hwf : graph.WellFormed)
    {related : Ref → Ref → Prop} (h : graph.Bisimulation related) :
    Closed graph.comparePair fun pair => related pair.1 pair.2 := by
  rintro ⟨left, right⟩ hrelated
  unfold comparePair
  by_cases heq : left = right
  · exact ⟨[], by simp [heq], by simp⟩
  · obtain ⟨leftShape, rightShape, hleft, hright, hmatches⟩ :=
      (h hrelated).resolve_left heq
    obtain ⟨pairs, hpairs, hall⟩ :=
      exists_pairParts (hwf.members_has hleft)
        (hwf.members_kinds hright) hmatches
    exact ⟨pairs, by simp [heq, hleft, hright, hpairs], hall⟩

theorem bisimulation_of_closed {graph : Graph} (hwf : graph.WellFormed)
    {inside : Ref × Ref → Prop} (h : Closed graph.comparePair inside) :
    graph.Bisimulation fun left right => inside (left, right) := by
  intro left right hinside
  obtain ⟨next, hstep, hnext⟩ := h _ hinside
  unfold comparePair at hstep
  split at hstep
  · exact Or.inl ‹_›
  · split at hstep
    · rename_i leftShape rightShape hleft hright
      split at hstep
      · rename_i pairs hpairs
        cases hstep
        exact Or.inr ⟨leftShape, rightShape, hleft, hright,
          matches_of_pairParts (hwf.members_kinds hleft) hpairs hnext⟩
      · cases hstep
    · cases hstep

theorem equivalent_iff_bisimilar {graph : Graph} (hwf : graph.WellFormed)
    {left right : Ref} :
    graph.equivalent left right = true ↔ graph.Bisimilar left right := by
  rw [equivalent_iff_explored, explore_ok_iff]
  constructor
  · rintro ⟨inside, hclosed, hinside⟩
    exact ⟨_, bisimulation_of_closed hwf hclosed, hinside⟩
  · rintro ⟨related, hbisimulation, hrelated⟩
    exact ⟨_, closed_of_bisimulation hwf hbisimulation, hrelated⟩

/-- On well-formed graphs the comparison of two nodes decides bisimilarity and
is an equivalence of nodes.  On all graphs, well-formed or not, its moves come
to an end, and it says yes if they do not get stuck before. -/
theorem equivalent_decides_bisimilarity (graph : Graph) :
    (graph.check = .ok () →
      (∀ left right, graph.equivalent left right = true ↔
        graph.Bisimilar left right) ∧
        Equivalence fun left right => graph.equivalent left right = true) ∧
      (WellFounded fun after before => Move graph.comparePair before after) ∧
      ∀ left right, graph.equivalent left right = true ↔
        ∃ seen, Relation.ReflTransGen (Move graph.comparePair)
          ([(left, right)], []) ([], seen) := by
  refine ⟨fun hcheck => ?_, move_wellFounded graph.comparePair_bounded,
    fun left right => ?_⟩
  · have hwf := check_eq_ok_iff.mp hcheck
    refine ⟨fun left right => equivalent_iff_bisimilar hwf, ?_, ?_, ?_⟩
    · exact fun ref =>
        (equivalent_iff_bisimilar hwf).mpr (Bisimilar.refl graph ref)
    · intro left right h
      exact (equivalent_iff_bisimilar hwf).mpr
        ((equivalent_iff_bisimilar hwf).mp h).symm
    · intro left middle right hleft hright
      exact (equivalent_iff_bisimilar hwf).mpr
        (((equivalent_iff_bisimilar hwf).mp hleft).trans
          ((equivalent_iff_bisimilar hwf).mp hright))
  · rw [equivalent_iff_explored]
    constructor
    · rintro ⟨visited, hvisited⟩
      exact ⟨visited.reverse,
        (explore_eq_ok_iff_moves graph.comparePair_bounded).mp hvisited⟩
    · rintro ⟨seen, hmoves⟩
      refine ⟨seen.reverse,
        (explore_eq_ok_iff_moves graph.comparePair_bounded).mpr ?_⟩
      rwa [List.reverse_reverse]

/-- Two cyclic lists: each is a record whose only field is the list itself or
`null`. -/
def twinLists : Graph :=
  ⟨#[⟨.record ⟨.ofList [("next", ⟨3⟩)], false⟩, .inferredName "first"⟩,
    ⟨.record ⟨.ofList [("next", ⟨5⟩)], false⟩, .inferredName "second"⟩,
    ⟨.null, .blank⟩, ⟨.union [⟨2⟩, ⟨0⟩], .blank⟩, ⟨.null, .blank⟩,
    ⟨.union [⟨1⟩, ⟨4⟩], .blank⟩], ∅⟩

theorem twinLists_bisimulation :
    twinLists.Bisimulation fun left right =>
      (left, right) ∈ [((⟨0⟩, ⟨1⟩) : Ref × Ref), (⟨2⟩, ⟨4⟩), (⟨3⟩, ⟨5⟩)] := by
  intro left right h
  right
  simp only [List.mem_cons, Prod.mk.injEq, List.not_mem_nil, or_false] at h
  rcases h with ⟨rfl, rfl⟩ | ⟨rfl, rfl⟩ | ⟨rfl, rfl⟩
  · refine ⟨_, _, rfl, rfl, .record rfl rfl fun {name x y} hx hy => ?_⟩
    have hleft : (name, x) ∈ [("next", (⟨3⟩ : Ref))] :=
      NameMap.find?_eq_some_iff.mp hx
    have hright : (name, y) ∈ [("next", (⟨5⟩ : Ref))] :=
      NameMap.find?_eq_some_iff.mp hy
    simp only [List.mem_singleton, Prod.mk.injEq] at hleft hright
    simp [hleft.2, hright.2]
  · exact ⟨_, _, rfl, rfl, .primitive .null⟩
  · refine ⟨_, _, rfl, rfl, .union ⟨[(⟨2⟩, ⟨4⟩), (⟨0⟩, ⟨1⟩)], ?_, ?_, ?_⟩⟩
    · decide
    · decide
    · decide

theorem twinLists_equivalent :
    twinLists.check = .ok () ∧ twinLists.equivalent ⟨0⟩ ⟨1⟩ = true :=
  have hcheck : twinLists.check = .ok () := by decide
  ⟨hcheck, (((equivalent_decides_bisimilarity twinLists).1 hcheck).1 _ _).mpr
    ⟨_, twinLists_bisimulation, by decide⟩⟩

variable {graph : Graph} {left right : Ref}

theorem Bisimilar.kind?_eq (h : graph.Bisimilar left right) :
    graph.kind? left = graph.kind? right := by
  rcases graph.bisimulation_bisimilar h with
    rfl | ⟨leftShape, rightShape, hleft, hright, hmatches⟩
  · rfl
  · rw [kind?_of_shape? hleft, kind?_of_shape? hright, hmatches.kind_eq]

theorem Bisimilar.pairing (h : graph.Bisimilar left right) :
    graph.Pairing graph.Bisimilar (left :: graph.members left)
      (right :: graph.members right) := by
  rcases graph.bisimulation_bisimilar h with
    rfl | ⟨leftShape, rightShape, hleft, hright, hmatches⟩
  · exact Pairing.refl (Bisimilar.refl graph) _
  · rw [members_of_shape? hleft, members_of_shape? hright]
    exact hmatches.members.cons h.kind?_eq h

theorem Bisimilar.pairing_options (h : graph.Bisimilar left right) :
    graph.Pairing graph.Bisimilar (graph.options left)
      (graph.options right) := by
  apply h.pairing.filter
  intro x y hkind
  rw [isPlain, isPlain, hkind]

theorem Bisimilar.nullable_eq (hflat : graph.Flat)
    (h : graph.Bisimilar left right) :
    graph.nullable left = graph.nullable right := by
  have himp {left right : Ref} (h : graph.Bisimilar left right)
      (hnull : graph.nullable left = true) : graph.nullable right = true := by
    rw [hflat.nullable_eq, List.any_eq_true] at hnull ⊢
    obtain ⟨ref, href, hkind⟩ := hnull
    obtain ⟨partner, hpartner, hsame, _⟩ := h.pairing.exists_partner href
    exact ⟨partner, hpartner, by rwa [← hsame]⟩
  exact Bool.eq_iff_iff.mpr ⟨himp h, himp h.symm⟩

theorem Bisimilar.record? (h : graph.Bisimilar left right) {content : Record}
    (hrecord : graph.record? left = some content) :
    ∃ other, graph.record? right = some other ∧ content.pinned = other.pinned ∧
      content.fields.names = other.fields.names ∧
      ∀ {name x y}, content.fields.find? name = some x →
        other.fields.find? name = some y → graph.Bisimilar x y := by
  obtain ⟨shape, hshape, hmatches⟩ :=
    h.exists_shape (record?_eq_some_iff.mp hrecord)
  cases hmatches with
  | record hpinned hnames hfields =>
      exact ⟨_, record?_eq_some_iff.mpr hshape, hpinned, hnames, hfields⟩

end ShapeMerge.Graph
