import ShapeMerge.Proofs.Graph.WellFormed
import ShapeMerge.Proofs.Lists

namespace ShapeMerge

/-!
Which fault a check reports.  The nodes are looked at in discovery order, and
the roots after them in the order of their names.  Of one node the children come
first and the kinds of its members second, so no kind is asked for that is not
there.  A check stops at the first offence against an invariant, and passes
exactly the well-formed graphs.
-/

theorem Kind.repeated?_eq_some_iff {seen kinds : List Kind} {kind : Kind} :
    Kind.repeated? seen kinds = some kind ↔
      ∃ before behind, kinds = before ++ kind :: behind ∧
        Kind.repeated? seen before = none ∧ (kind ∈ seen ∨ kind ∈ before) := by
  induction kinds generalizing seen with
  | nil => simp [repeated?]
  | cons first rest ih =>
      by_cases hseen : first ∈ seen
      · rw [repeated?, if_pos hseen]
        constructor
        · rintro ⟨⟩
          exact ⟨[], rest, rfl, rfl, Or.inl hseen⟩
        · rintro ⟨before, behind, hsplit, hnone, _⟩
          cases before with
          | nil =>
              cases hsplit
              rfl
          | cons other before =>
              cases hsplit
              rw [repeated?, if_pos hseen] at hnone
              cases hnone
      · rw [repeated?, if_neg hseen, ih]
        constructor
        · rintro ⟨before, behind, rfl, hnone, hkind⟩
          refine ⟨first :: before, behind, rfl, ?_, ?_⟩
          · rw [repeated?, if_neg hseen, hnone]
          -- The head was seen by the rest, and is one of those before for the
          -- whole.
          · rwa [List.mem_cons, or_left_comm, ← or_assoc, ← List.mem_cons]
        · rintro ⟨before, behind, hsplit, hnone, hkind⟩
          cases before with
          | nil =>
              cases hsplit
              exact absurd (hkind.resolve_right List.not_mem_nil) hseen
          | cons other before =>
              cases hsplit
              rw [repeated?, if_neg hseen] at hnone
              refine ⟨before, behind, rfl, hnone, ?_⟩
              rwa [List.mem_cons, or_assoc, or_left_comm, ← List.mem_cons]

theorem Kind.twice_of_repeated? {kinds : List Kind} {kind : Kind}
    (h : Kind.repeated? [] kinds = some kind) : [kind, kind].Sublist kinds := by
  obtain ⟨before, behind, rfl, _, hkind⟩ := repeated?_eq_some_iff.mp h
  exact pair_sublist_append (hkind.resolve_left List.not_mem_nil) behind

theorem NameMap.find?_entries_eq_some_iff {map : NameMap α}
    {p : String × α → Bool} {name : String} {value : α} :
    map.entries.find? p = some (name, value) ↔
      map.find? name = some value ∧
        (∀ {other found}, other < name → map.find? other = some found →
          p (other, found) = false) ∧ p (name, value) = true := by
  rw [List.find?_eq_findSome?_guard,
    findSome?_eq_some_iff_of_pairwise (fun _ _ => String.lt_asymm) map.sorted]
  simp only [Option.guard_eq_some_iff, Option.guard_eq_none_iff,
    find?_eq_some_iff]
  constructor
  · rintro ⟨_, hmem, ⟨rfl, hp⟩, hfirst⟩
    exact ⟨hmem, fun hlt hother => hfirst _ hother hlt, hp⟩
  · rintro ⟨hmem, hfirst, hp⟩
    exact ⟨_, hmem, ⟨rfl, hp⟩, fun other hother hlt => hfirst hlt hother⟩

namespace Graph

structure Faultless (graph : Graph) (shape : Shape) : Prop where
  children : ∀ child ∈ shape.children, graph.has child = true
  kinds : (shape.members.map graph.kind?).Nodup

/-- The first fault of a node: a child that is no node or else a member of a
kind met before. -/
inductive NodeFault (graph : Graph) (ref : Ref) (shape : Shape) :
    GraphFault → Prop where
  | dangling {before behind target}
      (hsplit : shape.children = before ++ target :: behind)
      (hbefore : ∀ child ∈ before, graph.has child = true)
      (hlost : graph.has target = false) :
      NodeFault graph ref shape (.dangling ref target)
  | repeatedKind {before behind member kind}
      (hchildren : ∀ child ∈ shape.children, graph.has child = true)
      (hsplit : shape.members = before ++ member :: behind)
      (hbefore : (before.map graph.kind?).Nodup)
      (hkind : graph.kind? member = some kind)
      (hrepeated : ∃ twin ∈ before, graph.kind? twin = some kind) :
      NodeFault graph ref shape (.repeatedKind ref kind.label)

/-- The fault of the first node that has one, or else of the first root. -/
inductive FirstFault (graph : Graph) : GraphFault → Prop where
  | node {ref shape fault} (hshape : graph.shape? ref = some shape)
      (hfirst : ∀ {other found}, other < ref → graph.shape? other = some found →
        graph.Faultless found)
      (hfault : graph.NodeFault ref shape fault) : FirstFault graph fault
  | root {name target} (hnodes : ∀ {ref shape}, graph.shape? ref = some shape →
      graph.Faultless shape) (hroot : graph.root? name = some target)
      (hfirst : ∀ {other found}, other < name → graph.root? other = some found →
        graph.has found = true) (hlost : graph.has target = false) :
      FirstFault graph (.missing target)

variable {graph : Graph} {ref : Ref} {node : Node} {fault : GraphFault}

section Found

theorem find?_lost_eq_some_iff {refs : List Ref} {target : Ref} :
    refs.find? (!graph.has ·) = some target ↔
      ∃ before behind, refs = before ++ target :: behind ∧
        (∀ child ∈ before, graph.has child = true) ∧
        graph.has target = false := by
  simp only [List.find?_eq_some_iff_append, Bool.not_eq_true', Bool.not_not]
  grind

theorem find?_lost_eq_none_iff {refs : List Ref} :
    refs.find? (!graph.has ·) = none ↔
      ∀ child ∈ refs, graph.has child = true := by
  simp

theorem repeated?_kinds_eq_some_iff {members : List Ref} {kind : Kind}
    (h : ∀ member ∈ members, graph.has member = true) :
    Kind.repeated? [] (members.filterMap graph.kind?) = some kind ↔
      ∃ before behind member, members = before ++ member :: behind ∧
        (before.map graph.kind?).Nodup ∧ graph.kind? member = some kind ∧
        ∃ twin ∈ before, graph.kind? twin = some kind := by
  rw [Kind.repeated?_eq_some_iff]
  constructor
  · rintro ⟨before, behind, hsplit, hnone, hkind⟩
    have hkinds := map_kind?_eq h
    rw [hsplit, List.map_append, List.map_cons] at hkinds
    obtain ⟨front, rest, rfl, hfront, hrest⟩ := List.map_eq_append_iff.mp hkinds
    obtain ⟨member, back, rfl, hmember, _⟩ := List.map_eq_cons_iff.mp hrest
    refine ⟨front, back, member, rfl, ?_, hmember, ?_⟩
    · rw [hfront]
      exact (Kind.repeated?_eq_none_iff.mp hnone).1.map
        (Option.some_injective _)
    · have hmem :=
        List.mem_map_of_mem (f := some) (hkind.resolve_left List.not_mem_nil)
      rw [← hfront] at hmem
      exact List.mem_map.mp hmem
  · rintro ⟨before, behind, member, rfl, hnodup, hmember, twin, htwin, hkind⟩
    refine ⟨before.filterMap graph.kind?,
      behind.filterMap graph.kind?, ?_, ?_, ?_⟩
    · rw [List.filterMap_append, List.filterMap_cons_some hmember]
    · rw [map_kind?_eq fun ref href => h ref (List.mem_append_left _ href)]
        at hnodup
      exact Kind.repeated?_eq_none_iff.mpr
        ⟨hnodup.of_map some, fun _ _ => List.not_mem_nil⟩
    · exact Or.inr (List.mem_filterMap.mpr ⟨twin, htwin, hkind⟩)

theorem faultless_iff :
    graph.nodeFault? (ref, node) = none ↔ graph.Faultless node.shape :=
  nodeFault?_eq_none_iff.trans
    ⟨fun h => ⟨h.1, h.2⟩, fun h => ⟨h.children, h.kinds⟩⟩

theorem nodeFault?_eq_some_iff :
    graph.nodeFault? (ref, node) = some fault ↔
      graph.NodeFault ref node.shape fault := by
  rw [nodeFault?]
  cases hfound : node.shape.children.find? (!graph.has ·) with
  | some target =>
      obtain ⟨before, behind, hsplit, hbefore, hlost⟩ :=
        find?_lost_eq_some_iff.mp hfound
      constructor
      · rintro ⟨⟩
        exact .dangling hsplit hbefore hlost
      · intro h
        cases h with
        | dangling hsplit hbefore hlost =>
            -- There is one first lost child, so both are the same.
            cases hfound.symm.trans
              (find?_lost_eq_some_iff.mpr ⟨_, _, hsplit, hbefore, hlost⟩)
            rfl
        | repeatedKind hchildren =>
            cases hfound.symm.trans (find?_lost_eq_none_iff.mpr hchildren)
  | none =>
      have hchildren := find?_lost_eq_none_iff.mp hfound
      have hmembers : ∀ member ∈ node.shape.members, graph.has member = true :=
        fun member hmember =>
          hchildren member (Shape.mem_children_of_mem_members hmember)
      constructor
      · intro h
        obtain ⟨kind, hkind, rfl⟩ := Option.map_eq_some_iff.mp h
        obtain ⟨before, behind, member, hsplit, hbefore, hmember, htwin⟩ :=
          (repeated?_kinds_eq_some_iff hmembers).mp hkind
        exact .repeatedKind hchildren hsplit hbefore hmember htwin
      · intro h
        cases h with
        | dangling hsplit hbefore hlost =>
            cases hfound.symm.trans
              (find?_lost_eq_some_iff.mpr ⟨_, _, hsplit, hbefore, hlost⟩)
        | repeatedKind _ hsplit hbefore hmember htwin =>
            have hkind := (repeated?_kinds_eq_some_iff hmembers).mpr
              ⟨_, _, _, hsplit, hbefore, hmember, htwin⟩
            exact Option.map_eq_some_iff.mpr ⟨_, hkind, rfl⟩

theorem forall_faultless_iff :
    graph.entries.findSome? graph.nodeFault? = none ↔
      ∀ {ref shape}, graph.shape? ref = some shape → graph.Faultless shape := by
  rw [List.findSome?_eq_none_iff]
  constructor
  · intro h ref shape hshape
    obtain ⟨node, hnode, rfl⟩ := Option.map_eq_some_iff.mp hshape
    exact faultless_iff.mp (h (ref, node) (mem_entries.mpr hnode))
  · exact fun h entry hentry =>
      faultless_iff.mpr (h (mem_entries_shape? hentry))

theorem findSome?_nodeFault?_eq_some_iff :
    graph.entries.findSome? graph.nodeFault? = some fault ↔
      ∃ ref shape, graph.shape? ref = some shape ∧
        (∀ {other found}, other < ref → graph.shape? other = some found →
          graph.Faultless found) ∧ graph.NodeFault ref shape fault := by
  rw [findSome?_eq_some_iff_of_pairwise
    (fun _ _ => Nat.lt_asymm) graph.entries_ordered]
  constructor
  · rintro ⟨⟨ref, node⟩, hentry, hfault, hfirst⟩
    refine ⟨ref, node.shape, mem_entries_shape? hentry, fun hlt hfound => ?_,
      nodeFault?_eq_some_iff.mp hfault⟩
    obtain ⟨found, hnode, rfl⟩ := Option.map_eq_some_iff.mp hfound
    exact faultless_iff.mp (hfirst _ (mem_entries.mpr hnode) hlt)
  · rintro ⟨ref, shape, hshape, hfirst, hfault⟩
    obtain ⟨node, hnode, rfl⟩ := Option.map_eq_some_iff.mp hshape
    refine ⟨(ref, node), mem_entries.mpr hnode,
      nodeFault?_eq_some_iff.mpr hfault, ?_⟩
    exact fun entry hentry hlt =>
      faultless_iff.mpr (hfirst hlt (mem_entries_shape? hentry))

theorem rootFault?_eq_some_iff :
    graph.rootFault? = some fault ↔
      ∃ name target, graph.root? name = some target ∧
        (∀ {other found}, other < name → graph.root? other = some found →
          graph.has found = true) ∧
        graph.has target = false ∧ .missing target = fault := by
  rw [rootFault?, NameMap.values, List.find?_map, Option.map_map,
    Option.map_eq_some_iff]
  simp only [Prod.exists, NameMap.find?_entries_eq_some_iff,
    Function.comp_apply, Bool.not_eq_true', Bool.not_eq_false', and_assoc]
  rfl

end Found

section InTurn

def report : Option GraphFault → Except GraphFault Unit
  | none => .ok ()
  | some fault => .error fault

def requireNode (graph : Graph) (fault : Ref → GraphFault) (ref : Ref) :
    Except GraphFault Unit :=
  if graph.has ref then .ok () else .error (fault ref)

def checkMembers (graph : Graph) (union : Ref) :
    (seen : List Kind) → List Ref → Except GraphFault Unit
  | _, [] => .ok ()
  | seen, member :: rest =>
      match graph.kind? member with
      | none => .error (.missing member)
      | some kind =>
          if kind ∈ seen then .error (.repeatedKind union kind.label)
          else checkMembers graph union (kind :: seen) rest

def checkNode (graph : Graph) (entry : Ref × Node) :
    Except GraphFault Unit := do
  entry.2.shape.children.forM (graph.requireNode (.dangling entry.1))
  graph.checkMembers entry.1 [] entry.2.shape.members

/-- The check as a computation that looks at one thing after the other and stops
where it fails. -/
def checkInTurn (graph : Graph) : Except GraphFault Unit := do
  graph.entries.forM graph.checkNode
  graph.roots.values.forM (graph.requireNode .missing)

theorem check_eq_report (graph : Graph) :
    graph.check = report graph.fault? := by
  rw [check]
  cases graph.fault? <;> rfl

theorem report_eq_error_iff {found : Option GraphFault} :
    report found = .error fault ↔ found = some fault := by
  cases found <;> simp [report]

theorem report_bind_report (first second : Option GraphFault) :
    (report first >>= fun _ => report second) = report (first.or second) := by
  cases first <;> rfl

theorem forM_eq_report {xs : List α} {f : α → Except GraphFault Unit}
    {g : α → Option GraphFault} (h : ∀ x, f x = report (g x)) :
    xs.forM f = report (xs.findSome? g) := by
  induction xs with
  | nil => rfl
  | cons x xs ih =>
      rw [show (x :: xs).forM f = (f x >>= fun _ => xs.forM f) from rfl, h, ih,
        report_bind_report, List.findSome?_cons]
      cases g x <;> rfl

theorem forM_requireNode (refs : List Ref) (lost : Ref → GraphFault) :
    refs.forM (graph.requireNode lost) =
      report ((refs.find? (!graph.has ·)).map lost) := by
  rw [List.find?_eq_findSome?_guard, List.map_findSome?]
  refine forM_eq_report fun ref => ?_
  rw [requireNode, Function.comp_apply]
  cases hhas : graph.has ref <;> simp [hhas, report, Option.guard]

theorem checkMembers_eq_report {union : Ref} {members : List Ref}
    (seen : List Kind) (h : ∀ member ∈ members, graph.has member = true) :
    graph.checkMembers union seen members =
      report ((Kind.repeated? seen (members.filterMap graph.kind?)).map
        (.repeatedKind union ·.label)) := by
  induction members generalizing seen with
  | nil => rfl
  | cons member rest ih =>
      obtain ⟨hmember, hrest⟩ := List.forall_mem_cons.mp h
      obtain ⟨kind, hkind⟩ := has_iff_kind?.mp hmember
      rw [checkMembers, hkind, List.filterMap_cons_some hkind, Kind.repeated?]
      by_cases hseen : kind ∈ seen
      · simp only [if_pos hseen]
        rfl
      · simp only [if_neg hseen]
        exact ih (kind :: seen) hrest

theorem checkNode_eq_report (entry : Ref × Node) :
    graph.checkNode entry = report (graph.nodeFault? entry) := by
  rw [checkNode, forM_requireNode, nodeFault?]
  cases hfound : entry.2.shape.children.find? (!graph.has ·) with
  | some target => rfl
  | none =>
      have hchildren := find?_lost_eq_none_iff.mp hfound
      exact checkMembers_eq_report [] fun member hmember =>
        hchildren member (Shape.mem_children_of_mem_members hmember)

theorem checkInTurn_eq_check (graph : Graph) :
    graph.checkInTurn = graph.check := by
  rw [checkInTurn, forM_eq_report checkNode_eq_report, forM_requireNode,
    report_bind_report, check_eq_report]
  rfl

end InTurn

section Error

theorem check_eq_error_iff :
    graph.check = .error fault ↔ graph.FirstFault fault := by
  rw [check_eq_report, report_eq_error_iff, fault?, Option.or_eq_some_iff,
    findSome?_nodeFault?_eq_some_iff, forall_faultless_iff,
    rootFault?_eq_some_iff]
  constructor
  · rintro (⟨ref, shape, hshape, hfirst, hfault⟩
      | ⟨hnodes, name, target, hroot, hfirst, hlost, rfl⟩)
    · exact .node hshape hfirst hfault
    · exact .root hnodes hroot hfirst hlost
  · intro h
    cases h with
    | node hshape hfirst hfault => exact Or.inl ⟨_, _, hshape, hfirst, hfault⟩
    | root hnodes hroot hfirst hlost =>
        exact Or.inr ⟨hnodes, _, _, hroot, hfirst, hlost, rfl⟩

theorem check_of_resolved
    (hchildren : ∀ {ref : Ref} {shape : Shape}, graph.shape? ref = some shape →
      ∀ child ∈ shape.children, graph.has child = true)
    (hroots : ∀ {name : String} {target : Ref}, graph.root? name = some target →
      graph.has target = true) (h : graph.check = .error fault) :
    ∃ ref shape kind, graph.shape? ref = some shape ∧
      [some kind, some kind].Sublist (shape.members.map graph.kind?) ∧
        fault = .repeatedKind ref kind.label := by
  cases check_eq_error_iff.mp h with
  | root _ hroot _ hlost =>
      exact absurd (hroots hroot) (Bool.eq_false_iff.mp hlost)
  | @node ref shape _ hshape _ hfault =>
      cases hfault with
      | @dangling before behind target hsplit _ hlost =>
          have hmem : target ∈ shape.children := by
            rw [hsplit]
            exact List.mem_append_right before List.mem_cons_self
          exact absurd (hchildren hshape target hmem)
            (Bool.eq_false_iff.mp hlost)
      | @repeatedKind before _ _ kind _ hsplit _ hkind hrepeated =>
          have hbefore : some kind ∈ before.map graph.kind? :=
            List.mem_map.mpr hrepeated
          refine ⟨ref, shape, kind, hshape, ?_, rfl⟩
          rw [hsplit, List.map_append, List.map_cons, hkind]
          exact pair_sublist_append hbefore _

theorem check_eq_error_of_first (hnode : graph.node? ref = some node)
    (hfault : graph.nodeFault? (ref, node) = some fault)
    (hfirst : ∀ {other found}, other < ref → graph.node? other = some found →
      graph.nodeFault? (other, found) = none) : graph.check = .error fault := by
  refine check_eq_error_iff.mpr (.node (shape?_of_node? hnode)
    (fun hlt hfound => ?_) (nodeFault?_eq_some_iff.mp hfault))
  obtain ⟨found, hother, rfl⟩ := Option.map_eq_some_iff.mp hfound
  exact faultless_iff.mp (hfirst hlt hother)

end Error

/-- What the check of a graph says about it. -/
structure DecidedByCheck (graph : Graph) : Prop where
  accepted : graph.check = .ok () ↔ graph.WellFormed
  refused : ∀ {fault}, graph.check = .error fault ↔ graph.FirstFault fault
  /-- A child that is no node is dangling, so only a root is missing. -/
  missing : ∀ {target}, graph.check = .error (.missing target) →
    (∀ {ref shape}, graph.shape? ref = some shape → graph.Faultless shape) ∧
      (∃ name, graph.root? name = some target) ∧ graph.has target = false
  inTurn : graph.checkInTurn = graph.check

theorem check_decides (graph : Graph) : graph.DecidedByCheck where
  accepted := check_eq_ok_iff
  refused := check_eq_error_iff
  missing {target} h := by
    cases check_eq_error_iff.mp h with
    | node _ _ hfault => cases hfault
    | root hnodes hroot _ hlost => exact ⟨hnodes, ⟨_, hroot⟩, hlost⟩
  inTurn := graph.checkInTurn_eq_check

/-- A lost child counts before a member repeated in front of it, and before
later nodes and roots. -/
example : check ⟨#[⟨.null, .blank⟩,
      ⟨.union [⟨0⟩, ⟨0⟩, ⟨7⟩], .blank⟩, ⟨.array ⟨8⟩, .blank⟩],
      ⟨[("top", ⟨9⟩)], by decide⟩⟩ = .error (.dangling ⟨1⟩ ⟨7⟩) := by
  decide +kernel

end Graph

end ShapeMerge
