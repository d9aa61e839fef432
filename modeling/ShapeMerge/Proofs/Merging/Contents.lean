import ShapeMerge.Merging.MergedRecord
import ShapeMerge.Proofs.Merging.Compatible
import ShapeMerge.Proofs.Success

namespace ShapeMerge.Graph

def contributed (graph : Graph) (ref : Ref) : List Ref :=
  match graph.options ref with
  | [] => []
  | [single] => [single]
  | _ => [ref]

def contentOf (graph : Graph) (records : List Record) (name : String) :
    FieldContent :=
  let fields := records.map (·.fields.find? name)
  let present := fields.filterMap id
  { shapes := present.flatMap graph.contributed
    nullable := fields.any fun field => (field.map graph.nullable).getD true
    hints := .joinAll (present.filterMap graph.hints?) }

section Contributions

variable {graph : Graph} {left right ref other : Ref}

theorem contribution_eq_ok (hflat : graph.Flat) (h : graph.has ref = true) :
    graph.contribution ref = .ok (graph.contributed ref) := by
  rw [contribution, hflat.alternatives_eq_ok h, contributed]
  match hoptions : graph.options ref with
  | [] => rfl
  | [single] => rfl
  | first :: second :: rest => rfl

theorem mem_contributed_iff :
    other ∈ graph.contributed ref ↔
      graph.options ref = [other] ∨
        2 ≤ (graph.options ref).length ∧ other = ref := by
  rw [contributed]
  split
  · rename_i hoptions
    simp [hoptions]
  · rename_i single hoptions
    simp [hoptions, eq_comm]
  · rename_i hempty hsingle
    have hlength : 2 ≤ (graph.options ref).length := by
      match hoptions : graph.options ref with
      | [] => exact absurd hoptions hempty
      | [single] => exact absurd hoptions (hsingle single)
      | first :: second :: rest => simp
    have hne : graph.options ref ≠ [other] := hsingle other
    simp [hne, hlength]

theorem options_ne_nil_of_mem_contributed (h : other ∈ graph.contributed ref) :
    graph.options ref ≠ [] := by
  rcases mem_contributed_iff.mp h with hoptions | ⟨hlength, _⟩
  · rw [hoptions]
    exact List.cons_ne_nil other []
  · intro hempty
    rw [hempty] at hlength
    exact absurd hlength (by decide)

theorem exists_mem_contributed (h : graph.options ref ≠ []) :
    ∃ other, other ∈ graph.contributed ref := by
  rw [contributed]
  split
  · rename_i hoptions
    exact absurd hoptions h
  · rename_i single _
    exact ⟨single, List.mem_singleton_self single⟩
  · exact ⟨ref, List.mem_singleton_self ref⟩

theorem kind?_of_two_options (h : 2 ≤ (graph.options ref).length) :
    graph.kind? ref = some .union := by
  by_contra hkind
  rw [options_of_not_union hkind] at h
  have hle := List.length_filter_le graph.isPlain [ref]
  rw [List.length_singleton] at hle
  omega

theorem contributed_has (hflat : graph.Flat) (href : graph.has ref = true)
    (h : other ∈ graph.contributed ref) : graph.has other = true := by
  rcases mem_contributed_iff.mp h with hoptions | ⟨_, rfl⟩
  · exact hflat.options_has href (hoptions ▸ List.mem_singleton_self other)
  · exact href

theorem Agree.contributed_kinds (h : graph.Agree left right) {x y : Ref}
    (hx : x ∈ graph.contributed left) (hy : y ∈ graph.contributed right) :
    graph.kind? x = graph.kind? y := by
  have hpairing :=
    (h.resolve_left (options_ne_nil_of_mem_contributed hx)).resolve_left
      (options_ne_nil_of_mem_contributed hy)
  have hlength := hpairing.length_eq
  rcases mem_contributed_iff.mp hx with hleft | ⟨hleft, rfl⟩
  · rcases mem_contributed_iff.mp hy with hright | ⟨hright, rfl⟩
    · obtain ⟨partner, hpartner, hkind, _⟩ :=
        hpairing.exists_partner (hleft ▸ List.mem_singleton_self x)
      rw [hright, List.mem_singleton] at hpartner
      rw [hkind, hpartner]
    · rw [hleft, List.length_singleton] at hlength
      omega
  · rcases mem_contributed_iff.mp hy with hright | ⟨hright, rfl⟩
    · rw [hright, List.length_singleton] at hlength
      omega
    · rw [kind?_of_two_options hleft, kind?_of_two_options hright]

theorem admits_contributed (h : other ∈ graph.contributed ref) {kind : Kind}
    (hunion : kind ≠ .union) (hnull : kind ≠ .null) :
    graph.Admits other kind ↔
      ∃ option ∈ graph.options ref, graph.kind? option = some kind := by
  rcases mem_contributed_iff.mp h with hsingle | ⟨_, rfl⟩
  · have hplain := (mem_options.mp (hsingle ▸ List.mem_singleton_self other)).2
    rw [admits_of_not_union hplain.1, hsingle]
    simp
  · rw [exists_option_iff, and_iff_left ⟨hunion, hnull⟩]

theorem nullable_of_contributed (hflat : graph.Flat)
    (h : other ∈ graph.contributed ref) (hadmits : graph.Admits other .null) :
    graph.nullable ref = true := by
  rcases mem_contributed_iff.mp h with hsingle | ⟨_, rfl⟩
  · have hplain := (mem_options.mp (hsingle ▸ List.mem_singleton_self other)).2
    exact absurd ((admits_of_not_union hplain.1).mp hadmits) hplain.2
  · exact hflat.nullable_iff_admits.mpr hadmits

theorem Agree.exists_option_iff (h : graph.Agree left right)
    (hleft : graph.options left ≠ []) (hright : graph.options right ≠ [])
    {kind : Kind} :
    (∃ option ∈ graph.options left, graph.kind? option = some kind) ↔
      ∃ option ∈ graph.options right, graph.kind? option = some kind := by
  have hpairing := (h.resolve_left hleft).resolve_left hright
  constructor
  · intro hoption
    obtain ⟨option, hoption, hkind⟩ := hoption
    obtain ⟨partner, hpartner, hsame, _⟩ := hpairing.exists_partner hoption
    exact ⟨partner, hpartner, hsame.symm.trans hkind⟩
  · intro hoption
    obtain ⟨option, hoption, hkind⟩ := hoption
    obtain ⟨partner, hpartner, hsame, _⟩ := hpairing.symm.exists_partner hoption
    exact ⟨partner, hpartner, hsame.symm.trans hkind⟩

end Contributions

section Contents

variable {graph : Graph} {members : List Ref} {records : List Record}
  {name : String}

theorem mem_present {ref : Ref} :
    ref ∈ (records.map (·.fields.find? name)).filterMap id ↔
      ∃ content ∈ records, content.fields.find? name = some ref := by
  simp

theorem fieldContent_eq_ok (hflat : graph.Flat)
    (hholds : ∀ content ∈ records, graph.Holds content) (name : String) :
    graph.fieldContent records name = .ok (graph.contentOf records name) := by
  have hshapes : ((records.map (·.fields.find? name)).filterMap id).mapM
        graph.contribution =
      .ok (((records.map (·.fields.find? name)).filterMap id).map
        graph.contributed) := by
    apply mapM_eq_ok_map
    intro ref href
    obtain ⟨content, hcontent, hfind⟩ := mem_present.mp href
    exact contribution_eq_ok hflat (hholds content hcontent hfind)
  rw [fieldContent, contentOf]
  simp only [hshapes, bind, Except.bind, pure, Except.pure, List.flatMap_def]

theorem mem_shapes_contentOf {ref : Ref} :
    ref ∈ (graph.contentOf records name).shapes ↔
      ∃ content ∈ records, ∃ field, content.fields.find? name = some field ∧
        ref ∈ graph.contributed field := by
  simp only [contentOf, List.mem_flatMap, mem_present]
  constructor
  · intro h
    obtain ⟨field, ⟨content, hcontent, hfind⟩, href⟩ := h
    exact ⟨content, hcontent, field, hfind, href⟩
  · intro h
    obtain ⟨content, hcontent, field, hfind, href⟩ := h
    exact ⟨field, ⟨content, hcontent, hfind⟩, href⟩

theorem shapes_contentOf_eq_nil_iff :
    (graph.contentOf records name).shapes = [] ↔
      ∀ content ∈ records, ∀ field, content.fields.find? name = some field →
        graph.options field = [] := by
  rw [List.eq_nil_iff_forall_not_mem]
  constructor
  · intro h content hcontent field hfield
    by_contra hoptions
    obtain ⟨other, hother⟩ := exists_mem_contributed hoptions
    exact h other
      (mem_shapes_contentOf.mpr ⟨content, hcontent, field, hfield, hother⟩)
  · intro h ref href
    obtain ⟨content, hcontent, field, hfield, hmem⟩ :=
      mem_shapes_contentOf.mp href
    exact options_ne_nil_of_mem_contributed hmem
      (h content hcontent field hfield)

theorem nullable_contentOf_iff :
    (graph.contentOf records name).nullable = true ↔
      ∃ content ∈ records, ∀ field, content.fields.find? name = some field →
        graph.nullable field = true := by
  simp only [contentOf, List.any_map, List.any_eq_true, Function.comp_apply]
  refine exists_congr fun content => and_congr_right fun _ => ?_
  cases content.fields.find? name <;> simp

theorem contentOf_kinds
    (hagree : ∀ left ∈ records, ∀ right ∈ records, graph.FieldsAgree left right)
    {x y : Ref} (hx : x ∈ (graph.contentOf records name).shapes)
    (hy : y ∈ (graph.contentOf records name).shapes) :
    graph.kind? x = graph.kind? y := by
  obtain ⟨left, hleft, leftField, hleftFind, hx⟩ := mem_shapes_contentOf.mp hx
  obtain ⟨right, hright, rightField, hrightFind, hy⟩ :=
    mem_shapes_contentOf.mp hy
  exact (hagree left hleft right hright hleftFind hrightFind).contributed_kinds
    hx hy

def allNames (records : List Record) : List String :=
  (NameSet.unions (records.map (·.fields.map fun _ => ()))).names

theorem mem_allNames :
    name ∈ allNames records ↔
      ∃ content ∈ records, name ∈ content.fields.names := by
  rw [allNames, NameMap.mem_names_unions]
  simp only [List.mem_map, exists_exists_and_eq_and]
  refine exists_congr fun content => and_congr_right fun _ => ?_
  simp [NameMap.mem_names_iff]

theorem mapM_requireRecord (h : members.map graph.record? = records.map some) :
    members.mapM graph.requireRecord = .ok records := by
  rw [mapM_eq_ok_iff]
  induction members generalizing records with
  | nil => cases records <;> simp_all
  | cons ref rest ih =>
      cases records with
      | nil => cases h
      | cons content others =>
          obtain ⟨hrecord, hrest⟩ := List.cons.inj h
          rw [List.map_cons, List.map_cons, ih hrest, requireRecord, hrecord]

theorem exists_fieldContents (hflat : graph.Flat)
    (hrecords : members.map graph.record? = records.map some)
    (hholds : ∀ content ∈ records, graph.Holds content) :
    ∃ contents, graph.fieldContents members = .ok contents ∧
      ∀ {name content}, contents.find? name = some content ↔
        name ∈ allNames records ∧ content = graph.contentOf records name := by
  have hcontents : (allNames records).mapM (fun name => do
      let content ← (graph.fieldContent records name).mapError MergeFault.graph
      return (name, content)) = .ok ((allNames records).map fun name =>
        (name, graph.contentOf records name)) := by
    apply mapM_eq_ok_map
    intro name _
    rw [fieldContent_eq_ok hflat hholds]
    rfl
  refine ⟨.ofList ((allNames records).map fun name =>
    (name, graph.contentOf records name)), ?_, ?_⟩
  · rw [fieldContents, mapM_requireRecord hrecords]
    exact congrArg (Except.map NameMap.ofList) hcontents
  · intro name content
    rw [NameMap.find?_ofList]
    · simp only [List.mem_map, Prod.mk.injEq]
      constructor
      · intro h
        obtain ⟨_, hname, rfl, rfl⟩ := h
        exact ⟨hname, rfl⟩
      · intro h
        exact ⟨name, h.1, rfl, h.2.symm⟩
    · rw [List.map_map]
      exact (List.map_id _).symm ▸ NameMap.names_nodup _

end Contents

end ShapeMerge.Graph
