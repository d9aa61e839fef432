import ShapeMerge.Proofs.Graph.Bisimulation

namespace ShapeMerge

/-- Data.  What is neither text nor composite is an atom. -/
inductive Value (α : Type u) where
  | null
  | text (content : String)
  | atom (content : α)
  | list (items : List (Value α))
  | object (entries : List (String × Value α))

theorem Value.sizeOf_entry_lt {entries : List (String × Value α)}
    {entry : String × Value α} (h : entry ∈ entries) :
    sizeOf entry.2 < sizeOf (Value.object entries) := by
  have hlt := List.sizeOf_lt_of_mem h
  obtain ⟨name, value⟩ := entry
  simp only [Value.object.sizeOf_spec, Prod.mk.sizeOf_spec] at hlt ⊢
  omega

structure ValueSets (α : Type u) where
  bool : Value α → Prop
  integer : Value α → Prop
  double : Value α → Prop
  format : Format → String → Prop

def ValueSets.primitive (sets : ValueSets α) : Primitive → Value α → Prop
  | .any, _ => True
  | .null, value => value = .null
  | .bool, value => sets.bool value
  | .integer, value => sets.integer value
  | .double, value => sets.double value

inductive Accepts (sets : ValueSets α) (graph : Graph) : Ref → Value α → Prop
  | primitive {ref : Ref} {base : Primitive}
      {value : Value α} (hshape : graph.shape? ref = some (.primitive base))
      (hvalue : sets.primitive base value) : Accepts sets graph ref value
  | text {ref : Ref} {literals : Option Tally} {content : String}
      (hshape : graph.shape? ref = some (.text literals)) :
      Accepts sets graph ref (.text content)
  | formatted {ref : Ref} {format : Format} {content : String}
      (hshape : graph.shape? ref = some (.formatted format))
      (hcontent : sets.format format content) :
      Accepts sets graph ref (.text content)
  | array {ref item : Ref} {items : List (Value α)}
      (hshape : graph.shape? ref = some (.array item))
      (hitems : ∀ value ∈ items, Accepts sets graph item value) :
      Accepts sets graph ref (.list items)
  | map {ref element : Ref} {entries : List (String × Value α)}
      (hshape : graph.shape? ref = some (.map element))
      (hentries : ∀ entry ∈ entries, Accepts sets graph element entry.2) :
      Accepts sets graph ref (.object entries)
  | record {ref : Ref} {content : Record} {entries : List (String × Value α)}
      (hshape : graph.shape? ref = some (.record content))
      (hknown : ∀ entry ∈ entries, entry.1 ∈ content.fields.names)
      (hentries : ∀ entry ∈ entries, ∀ field,
        content.fields.find? entry.1 = some field →
          Accepts sets graph field entry.2)
      (habsent : ∀ name field, content.fields.find? name = some field →
        name ∉ entries.map (·.1) → graph.nullable field = true) :
      Accepts sets graph ref (.object entries)
  | union {ref member : Ref} {alternatives : List Ref} {value : Value α}
      (hshape : graph.shape? ref = some (.union alternatives))
      (hmember : member ∈ alternatives)
      (hvalue : Accepts sets graph member value) : Accepts sets graph ref value

namespace Accepts

variable {sets : ValueSets α} {graph : Graph} {ref left right : Ref}
  {value : Value α}

theorem has (h : Accepts sets graph ref value) : graph.has ref = true := by
  refine Graph.has_iff_shape?.mpr ?_
  cases h <;> exact ⟨_, by assumption⟩

theorem primitive_iff {base : Primitive}
    (hshape : graph.shape? ref = some (.primitive base)) :
    Accepts sets graph ref value ↔ sets.primitive base value := by
  constructor
  · intro h
    cases h with
    | primitive hother hvalue =>
        cases hshape.symm.trans hother
        exact hvalue
    | text hother | formatted hother | array hother | map hother
    | record hother | union hother =>
        cases hshape.symm.trans hother
  · exact .primitive hshape

theorem text_iff {literals : Option Tally}
    (hshape : graph.shape? ref = some (.text literals)) :
    Accepts sets graph ref value ↔ ∃ content, value = .text content := by
  constructor
  · intro h
    cases h with
    | text => exact ⟨_, rfl⟩
    | primitive hother | formatted hother | array hother | map hother
    | record hother | union hother => cases hshape.symm.trans hother
  · rintro ⟨content, rfl⟩
    exact .text hshape

theorem formatted_iff {format : Format}
    (hshape : graph.shape? ref = some (.formatted format)) :
    Accepts sets graph ref value ↔
      ∃ content, value = .text content ∧ sets.format format content := by
  constructor
  · intro h
    cases h with
    | formatted hother hcontent =>
        cases hshape.symm.trans hother
        exact ⟨_, rfl, hcontent⟩
    | primitive hother | text hother | array hother | map hother
    | record hother | union hother =>
        cases hshape.symm.trans hother
  · rintro ⟨content, rfl, hcontent⟩
    exact .formatted hshape hcontent

theorem array_iff {item : Ref}
    (hshape : graph.shape? ref = some (.array item)) :
    Accepts sets graph ref value ↔
      ∃ items, value = .list items ∧
        ∀ part ∈ items, Accepts sets graph item part := by
  constructor
  · intro h
    cases h with
    | array hother hitems =>
        cases hshape.symm.trans hother
        exact ⟨_, rfl, hitems⟩
    | primitive hother | text hother | formatted hother | map hother
    | record hother | union hother => cases hshape.symm.trans hother
  · rintro ⟨items, rfl, hitems⟩
    exact .array hshape hitems

theorem map_iff {element : Ref}
    (hshape : graph.shape? ref = some (.map element)) :
    Accepts sets graph ref value ↔
      ∃ entries, value = .object entries ∧
        ∀ entry ∈ entries, Accepts sets graph element entry.2 := by
  constructor
  · intro h
    cases h with
    | map hother hentries =>
        cases hshape.symm.trans hother
        exact ⟨_, rfl, hentries⟩
    | primitive hother | text hother | formatted hother | array hother
    | record hother | union hother => cases hshape.symm.trans hother
  · rintro ⟨entries, rfl, hentries⟩
    exact .map hshape hentries

theorem exists_entries {content : Record}
    (hshape : graph.shape? ref = some (.record content))
    (h : Accepts sets graph ref value) :
    ∃ entries, value = .object entries := by
  cases h with
  | record => exact ⟨_, rfl⟩
  | primitive hother | text hother | formatted hother | array hother
  | map hother
  | union hother => cases hshape.symm.trans hother

theorem record_iff {content : Record}
    (hshape : graph.shape? ref = some (.record content))
    {entries : List (String × Value α)} :
    Accepts sets graph ref (.object entries) ↔
      (∀ entry ∈ entries, entry.1 ∈ content.fields.names) ∧
        (∀ entry ∈ entries, ∀ field, content.fields.find? entry.1 = some field →
          Accepts sets graph field entry.2) ∧
        ∀ name field, content.fields.find? name = some field →
          name ∉ entries.map (·.1) → graph.nullable field = true := by
  constructor
  · intro h
    cases h with
    | record hother hknown hentries habsent =>
        cases hshape.symm.trans hother
        exact ⟨hknown, hentries, habsent⟩
    | primitive hother | map hother | union hother =>
        cases hshape.symm.trans hother
  · rintro ⟨hknown, hentries, habsent⟩
    exact .record hshape hknown hentries habsent

theorem union_iff {alternatives : List Ref}
    (hshape : graph.shape? ref = some (.union alternatives)) :
    Accepts sets graph ref value ↔
      ∃ member ∈ alternatives, Accepts sets graph member value := by
  constructor
  · intro h
    cases h with
    | union hother hmember hvalue =>
        cases hshape.symm.trans hother
        exact ⟨_, hmember, hvalue⟩
    | primitive hother | text hother | formatted hother | array hother
    | map hother
    | record hother => cases hshape.symm.trans hother
  · rintro ⟨member, hmember, hvalue⟩
    exact .union hshape hmember hvalue

theorem of_bisimilar (hflat : graph.Flat) (h : Accepts sets graph left value)
    (hbisimilar : graph.Bisimilar left right) :
    Accepts sets graph right value := by
  -- The other node varies: what the parts of equivalent nodes share is that
  -- they are equivalent.
  induction h generalizing right with
  | primitive hshape hvalue =>
      obtain ⟨_, hright, hmatches⟩ := hbisimilar.exists_shape hshape
      cases hmatches
      exact .primitive hright hvalue
  | text hshape =>
      obtain ⟨_, hright, hmatches⟩ := hbisimilar.exists_shape hshape
      cases hmatches
      exact .text hright
  | formatted hshape hcontent =>
      obtain ⟨_, hright, hmatches⟩ := hbisimilar.exists_shape hshape
      cases hmatches
      exact .formatted hright hcontent
  | array hshape hitems ih =>
      obtain ⟨_, hright, hmatches⟩ := hbisimilar.exists_shape hshape
      cases hmatches with
      | array hitem =>
          exact .array hright fun value hvalue => ih value hvalue hitem
  | map hshape hentries ih =>
      obtain ⟨_, hright, hmatches⟩ := hbisimilar.exists_shape hshape
      cases hmatches with
      | map helement =>
          exact .map hright fun entry hentry => ih entry hentry helement
  | @record _ content entries hshape hknown hentries habsent ih =>
      obtain ⟨_, hright, hmatches⟩ := hbisimilar.exists_shape hshape
      cases hmatches with
      | @record _ other _ hnames hfields =>
          refine .record hright (fun entry hentry =>
            hnames ▸ hknown entry hentry) (fun entry hentry field hfield => ?_)
            (fun name field hfield hname => ?_)
          · obtain ⟨source, hsource⟩ :=
              NameMap.mem_names_iff.mp (hknown entry hentry)
            exact ih entry hentry source hsource (hfields hsource hfield)
          · have hmem : name ∈ content.fields.names :=
              hnames ▸ NameMap.mem_names_iff.mpr ⟨field, hfield⟩
            obtain ⟨source, hsource⟩ := NameMap.mem_names_iff.mp hmem
            rw [← (hfields hsource hfield).nullable_eq hflat]
            exact habsent name source hsource hname
  | union hshape hmember hvalue ih =>
      obtain ⟨_, hright, hmatches⟩ := hbisimilar.exists_shape hshape
      cases hmatches with
      | union hpairing =>
          obtain ⟨partner, hpartner, _, hrelated⟩ :=
            hpairing.exists_partner hmember
          exact .union hright hpartner (ih hrelated)

theorem exists_text (h : Accepts sets graph ref value)
    (hkind : graph.kind? ref = some .text) :
    ∃ content, value = .text content := by
  obtain ⟨literals, hshape⟩ := Graph.shape?_of_kind?_text hkind
  exact (text_iff hshape).mp h

theorem of_text (content : String) (hkind : graph.kind? ref = some .text) :
    Accepts sets graph ref (.text content) := by
  obtain ⟨literals, hshape⟩ := Graph.shape?_of_kind?_text hkind
  exact .text hshape

theorem iff_null (hkind : graph.kind? ref = some .null) :
    Accepts sets graph ref value ↔ value = .null :=
  primitive_iff (Graph.shape?_of_kind?_null hkind)

theorem of_member {member : Ref} (hmember : member ∈ graph.members ref)
    (h : Accepts sets graph member value) : Accepts sets graph ref value := by
  obtain ⟨alternatives, hshape, hmem⟩ := Graph.shape?_of_mem_members hmember
  exact .union hshape hmem h

theorem of_nullable (hflat : graph.Flat) (h : graph.nullable ref = true) :
    Accepts sets graph ref .null := by
  rcases hflat.nullable_iff.mp h with hkind | ⟨member, hmember, hkind⟩
  · exact (iff_null hkind).mpr rfl
  · exact of_member hmember ((iff_null hkind).mpr rfl)

theorem of_option {option : Ref} (hoption : option ∈ graph.options ref)
    (h : Accepts sets graph option value) : Accepts sets graph ref value := by
  rcases (Graph.mem_options.mp hoption).1 with rfl | hmember
  · exact h
  · exact of_member hmember h

theorem null_or_option (hflat : graph.Flat) (h : Accepts sets graph ref value) :
    (value = .null ∧ graph.nullable ref = true) ∨
      ∃ option ∈ graph.options ref, Accepts sets graph option value := by
  have hsplit {source : Ref}
      (hsource : source = ref ∨ source ∈ graph.members ref)
      (hkind : graph.kind? source ≠ some .union)
      (haccepts : Accepts sets graph source value) :
      (value = .null ∧ graph.nullable ref = true) ∨
        ∃ option ∈ graph.options ref, Accepts sets graph option value := by
    by_cases hnull : graph.kind? source = some .null
    · left
      refine ⟨(iff_null hnull).mp haccepts, hflat.nullable_iff.mpr ?_⟩
      rcases hsource with rfl | hmember
      · exact Or.inl hnull
      · exact Or.inr ⟨source, hmember, hnull⟩
    · exact Or.inr
        ⟨source, Graph.mem_options.mpr ⟨hsource, hkind, hnull⟩, haccepts⟩
  by_cases hkind : graph.kind? ref = some .union
  · obtain ⟨alternatives, hshape⟩ := Graph.shape?_of_kind?_union hkind
    obtain ⟨member, hmember, hvalue⟩ := (union_iff hshape).mp h
    refine hsplit (Or.inr ?_) (hflat.flat hshape _ hmember) hvalue
    rw [Graph.members_of_shape? hshape]
    exact hmember
  · exact hsplit (Or.inl rfl) hkind h

end Accepts

end ShapeMerge
