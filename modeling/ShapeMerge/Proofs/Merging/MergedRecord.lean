import ShapeMerge.Merging.MergedRecord
import ShapeMerge.Proofs.Builder.Settled
import ShapeMerge.Proofs.Collapse.Run
import ShapeMerge.Proofs.Merging.Contents

namespace ShapeMerge

namespace Graph

def optionTexts (graph : Graph) (ref : Ref) : List (Option Tally) :=
  (graph.options ref).filterMap graph.textLiterals?

theorem textsDiffer_eq_ok {graph : Graph} (hflat : graph.Flat) {refs : List Ref}
    (first : Option (Option Tally)) (h : ∀ ref ∈ refs, graph.has ref = true) :
    graph.textsDiffer first refs = .ok ((refs.flatMap graph.optionTexts).any
      (some · ≠ first.or (refs.flatMap graph.optionTexts).head?)) := by
  induction refs generalizing first with
  | nil => rfl
  | cons ref rest ih =>
      obtain ⟨hfirst, hrest⟩ := List.forall_mem_cons.mp h
      -- Once there is a text, no later one is the first.
      have hmet (later : Option (Option Tally)) :
          (graph.optionTexts ref).any
              (some · ≠ (first.or (graph.optionTexts ref).head?).or later) =
            (graph.optionTexts ref).any
              (some · ≠ first.or (graph.optionTexts ref).head?) := by
        cases graph.optionTexts ref with
        | nil => rfl
        | cons text others => cases first <;> rfl
      rw [textsDiffer, hflat.alternatives_eq_ok hfirst, List.flatMap_cons,
        List.any_append, List.head?_append, ← Option.or_assoc, hmet]
      simp only [bind, Except.bind, pure, Except.pure, ← optionTexts.eq_1]
      split
      · rename_i hdiffer
        rw [hdiffer, Bool.true_or]
      · rename_i hsame
        rw [ih _ hrest, Bool.eq_false_iff.mpr hsame, Bool.false_or]

end Graph

namespace Passage

structure Leads (passage : Passage) (builder : Builder) : Prop where
  flat : passage.graph.Flat
  follow : ∀ {ref}, passage.graph.has ref = true →
    passage.follow ref = .ok (passage.redirect ref)
  has : ∀ {ref}, passage.graph.has ref = true →
    builder.has (passage.redirect ref) = true

/-- What stands for the shapes of a field, whether it admits `null` left
aside. -/
def Carries (passage : Passage) (builder : Builder) (content : FieldContent)
    (base : Ref) : Prop :=
  (content.shapes = [] ∧ builder.shape? base = some .null) ∨
    ∃ representative rest, content.shapes = representative :: rest ∧
      (base = passage.redirect representative ∨
        passage.graph.kind? representative = some .text ∧
          ∃ literals, builder.shape? base = some (.text literals))

def Makes (passage : Passage) (builder : Builder) (content : FieldContent)
    (made : Ref) : Prop :=
  ∃ base, builder.has base = true ∧ passage.Carries builder content base ∧
    if content.nullable then builder.Widened base made else made = base

structure Uniform (passage : Passage) (content : FieldContent) : Prop where
  has : ∀ ref ∈ content.shapes, passage.graph.has ref = true
  kinds : ∀ x ∈ content.shapes, ∀ y ∈ content.shapes,
    passage.graph.kind? x = passage.graph.kind? y

variable {passage : Passage} {builder after : Builder} {content : FieldContent}
  {base made : Ref}

theorem Leads.mono (h : passage.Leads builder) (hext : builder.Extends after) :
    passage.Leads after :=
  ⟨h.flat, h.follow, fun href => hext.has (h.has href)⟩

theorem Carries.mono (h : passage.Carries builder content base)
    (hext : builder.Extends after) : passage.Carries after content base := by
  rcases h with ⟨hempty, hnull⟩
    | ⟨representative, rest, hshapes, hbase | ⟨hkind, literals, htext⟩⟩
  · exact Or.inl ⟨hempty, hext.shape? hnull⟩
  · exact Or.inr ⟨representative, rest, hshapes, Or.inl hbase⟩
  · exact Or.inr ⟨representative, rest, hshapes,
      Or.inr ⟨hkind, literals, hext.shape? htext⟩⟩

theorem made_mono {nullable : Bool} (hext : builder.Extends after)
    (hbase : builder.has base = true)
    (h : if nullable then builder.Widened base made else made = base) :
    if nullable then after.Widened base made else made = base := by
  cases nullable with
  | false => exact h
  | true => exact h.mono hext hbase

theorem Makes.mono (h : passage.Makes builder content made)
    (hext : builder.Extends after) : passage.Makes after content made := by
  obtain ⟨base, hbase, hcarries, hmade⟩ := h
  exact ⟨base, hext.has hbase, hcarries.mono hext, made_mono hext hbase hmade⟩

section Shapes

theorem collectTexts_eq_ok {graph : Graph} {refs : List Ref} (field : String)
    (h : ∀ ref ∈ refs, graph.kind? ref = some .text) :
    graph.collectTexts field refs =
      .ok (refs.filterMap graph.textLiterals?) := by
  induction refs with
  | nil => rfl
  | cons ref rest ih =>
      obtain ⟨hfirst, hrest⟩ := List.forall_mem_cons.mp h
      obtain ⟨literals, hshape⟩ := Graph.shape?_of_kind?_text hfirst
      have hliterals : graph.textLiterals? ref = some literals := by
        rw [Graph.textLiterals?, hshape]
      rw [Graph.collectTexts, hshape, ih hrest, List.filterMap_cons, hliterals]
      rfl

theorem carried_eq_ok (h : passage.Leads builder) {ref : Ref}
    (href : passage.graph.has ref = true) :
    passage.carried ref builder = .ok (passage.redirect ref, builder) := by
  rw [carried, h.follow href]
  rfl

theorem exists_mergeTexts (h : passage.Leads builder)
    (hsettled : builder.Settled) (field : String)
    (htexts : ∀ ref ∈ content.shapes, passage.graph.kind? ref = some .text)
    {representative : Ref} {rest : List Ref}
    (hshapes : content.shapes = representative :: rest)
    (hhas : passage.graph.has representative = true) :
    ∃ base warnings after,
      passage.mergeTexts field content representative builder =
        .ok ((base, warnings), after) ∧ builder.Grows after ∧ after.Settled ∧
      after.has base = true ∧ passage.Carries after content base := by
  let tallies := content.shapes.filterMap passage.graph.textLiterals?
  let hints := Hints.joinAll (content.shapes.filterMap passage.graph.hints?)
  let literals : Option Tally := some (.sum (tallies.filterMap id))
  have hcollect := collectTexts_eq_ok field htexts
  by_cases hall : tallies.all (·.isSome) = true
  · have htext := builder.shape?_append (.text literals) hints
    refine ⟨(builder.text hints literals).1,
      [], (builder.text hints literals).2, ?_,
      builder.grows_append _ _, hsettled.append_leaf rfl _,
      Builder.has_of_promised? (Builder.promised?_of_shape? htext), ?_⟩
    · rw [mergeTexts, hcollect]
      exact if_pos hall
    · refine Or.inr
        ⟨representative, rest, hshapes, Or.inr ⟨?_, literals, htext⟩⟩
      exact htexts representative (hshapes ▸ List.mem_cons_self)
  · let warnings : List Warning :=
      if tallies.any (·.isSome) then [⟨field, .mixedTexts⟩] else []
    refine ⟨passage.redirect representative,
      warnings, builder, ?_, .refl builder, hsettled,
      h.has hhas, Or.inr ⟨representative, rest, hshapes, Or.inl rfl⟩⟩
    rw [mergeTexts, hcollect, carried_eq_ok h hhas]
    exact if_neg hall

theorem exists_mergeOthers (h : passage.Leads builder)
    (field : String) (shape : Shape)
    (hall : ∀ ref ∈ content.shapes, passage.graph.has ref = true)
    {representative : Ref} (hhas : passage.graph.has representative = true) :
    ∃ warnings, passage.mergeOthers field content representative shape builder =
      .ok ((passage.redirect representative, warnings), builder) := by
  obtain ⟨differ, hdiffer⟩ :
    ∃ differ, passage.graph.textsDiffer none content.shapes = .ok differ :=
    ⟨_, Graph.textsDiffer_eq_ok h.flat none hall⟩
  by_cases hunion : shape.kind = .union
  · refine ⟨if differ then [⟨field, .differingUnions⟩] else [], ?_⟩
    simp only [mergeOthers, hunion, if_true, hdiffer, carried_eq_ok h hhas]
    rfl
  · refine ⟨[], ?_⟩
    simp only [mergeOthers, hunion, if_false, carried_eq_ok h hhas]
    rfl

theorem exists_mergeShapes (h : passage.Leads builder)
    (hsettled : builder.Settled) (hcontent : passage.Uniform content)
    (field : String) :
    ∃ base warnings after, passage.mergeShapes field content builder =
        .ok ((base, warnings), after) ∧ builder.Grows after ∧ after.Settled ∧
      after.has base = true ∧ passage.Carries after content base := by
  cases hshapes : content.shapes with
  | nil =>
      have hnull := builder.shape?_append .null .blank
      refine ⟨(builder.primitive .null).1, [], (builder.primitive .null).2, ?_,
        builder.grows_append _ _, hsettled.append_leaf rfl _,
        Builder.has_of_promised? (Builder.promised?_of_shape? hnull),
        Or.inl ⟨hshapes, hnull⟩⟩
      simp only [mergeShapes, hshapes]
  | cons representative rest =>
      have hmem : representative ∈ content.shapes :=
        hshapes ▸ List.mem_cons_self
      have hhas := hcontent.has representative hmem
      obtain ⟨shape, hshape⟩ := Graph.has_iff_shape?.mp hhas
      have hkind := Graph.kind?_of_shape? hshape
      by_cases htext : shape.kind = .text
      · rw [htext] at hkind
        obtain ⟨literals, hliterals⟩ := Graph.shape?_of_kind?_text hkind
        have hmerge := exists_mergeTexts h hsettled field (fun ref href =>
          (hcontent.kinds ref href representative hmem).trans hkind)
          hshapes hhas
        simpa only [mergeShapes, hshapes, hliterals] using hmerge
      · obtain ⟨warnings, hmerge⟩ :=
          exists_mergeOthers h field shape hcontent.has hhas
        refine ⟨passage.redirect representative,
          warnings, builder, ?_, .refl builder, hsettled,
          h.has hhas, Or.inr ⟨representative, rest, hshapes, Or.inl rfl⟩⟩
        simp only [mergeShapes, hshapes, hshape]
        cases shape with
        | text literals => exact absurd rfl htext
        | _ => exact hmerge

end Shapes

section Fields

theorem exists_mergeField (h : passage.Leads builder)
    (hsettled : builder.Settled) (hcontent : passage.Uniform content)
    (field : String) :
    ∃ made warnings after, passage.mergeField field content builder =
        .ok ((made, warnings), after) ∧ builder.Grows after ∧ after.Settled ∧
      after.has made = true ∧ passage.Makes after content made := by
  obtain ⟨base, warnings, middle, hshapes, hgrows, hmiddle, hbase, hcarries⟩ :=
    exists_mergeShapes h hsettled hcontent field
  by_cases hnullable : content.nullable = true
  · obtain ⟨made, after, hmake, hgrows', hafter, hmade, hwidened⟩ :=
      hmiddle.exists_nullable content.hints hbase
    refine ⟨made, warnings, after, ?_, hgrows.trans hgrows', hafter, hmade,
      base, hgrows'.has hbase, hcarries.mono hgrows'.toExtends, ?_⟩
    · simp only [mergeField, hshapes, bind, Except.bind,
        if_pos hnullable, hmake]
      rfl
    · rw [if_pos hnullable]
      exact hwidened
  · refine ⟨base, warnings, middle, ?_, hgrows, hmiddle, hbase, base, hbase,
      hcarries, ?_⟩
    · simp only [mergeField, hshapes, bind, Except.bind, if_neg hnullable]
      rfl
    · rw [if_neg hnullable]

theorem exists_mergeFields (h : passage.Leads builder)
    (hsettled : builder.Settled) {entries : List (String × FieldContent)}
    (hcontents : ∀ entry ∈ entries, passage.Uniform entry.2) :
    ∃ fields warnings after, passage.mergeFields entries builder =
        .ok ((fields, warnings), after) ∧ builder.Grows after ∧ after.Settled ∧
      fields.map (·.1) = entries.map (·.1) ∧
      ∀ {name made}, (name, made) ∈ fields → after.has made = true ∧ ∃ content,
        (name, content) ∈ entries ∧ passage.Makes after content made := by
  induction entries generalizing builder with
  | nil =>
      exact ⟨[], [], builder, rfl, .refl builder, hsettled, rfl,
        fun hmem => nomatch hmem⟩
  | cons entry rest ih =>
      obtain ⟨field, content⟩ := entry
      obtain ⟨hfirst, hrest⟩ := List.forall_mem_cons.mp hcontents
      obtain ⟨made, warnings, middle, hfield, hgrows, hmiddle, hmade, hmakes⟩ :=
        exists_mergeField h hsettled hfirst field
      obtain ⟨fields, others, after, hfields, hgrows', hafter, hnames, hall⟩ :=
        ih (h.mono hgrows.toExtends) hmiddle hrest
      refine ⟨(field, made) :: fields, warnings ++ others,
        after, ?_, hgrows.trans hgrows', hafter,
        congrArg (field :: ·) hnames, fun {name other} hmem => ?_⟩
      · simp only [mergeFields, hfield, bind, Except.bind, hfields]
        rfl
      · rcases List.mem_cons.mp hmem with heq | hmem
        · cases heq
          exact ⟨hgrows'.has hmade, content, List.mem_cons_self,
            hmakes.mono hgrows'.toExtends⟩
        · obtain ⟨hother, found, hfound, hmakes'⟩ := hall hmem
          exact ⟨hother, found, List.mem_cons_of_mem _ hfound, hmakes'⟩

end Fields

section Records

variable {members : List Ref} {slot : Ref}

structure Stands (passage : Passage)
    (builder : Builder) (members : List Ref) (slot : Ref) (merged : Record)
    (contents : NameMap FieldContent) : Prop where
  node : builder.node? slot =
    some ⟨.record merged, .joinAll (members.filterMap passage.graph.hints?)⟩
  unpinned : merged.pinned = false
  gathered : passage.graph.fieldContents members = .ok contents
  names : merged.fields.names = contents.names
  fields : ∀ {name made}, merged.fields.find? name = some made →
    ∃ content, contents.find? name = some content ∧
      passage.Makes builder content made

theorem Stands.mono {merged : Record} {contents : NameMap FieldContent}
    (h : passage.Stands builder members slot merged contents)
    (hext : builder.Extends after) :
    passage.Stands after members slot merged contents where
  node := hext.filled h.node
  unpinned := h.unpinned
  gathered := h.gathered
  names := h.names
  fields hmade := by
    obtain ⟨content, hcontent, hmakes⟩ := h.fields hmade
    exact ⟨content, hcontent, hmakes.mono hext⟩

theorem exists_mergeRecords (h : passage.Leads builder)
    (hsettled : builder.Settled)
    (hslot : builder.Reserved slot) {contents : NameMap FieldContent}
    (hcontents : passage.graph.fieldContents members = .ok contents)
    (huniform : ∀ {name content}, contents.find? name = some content →
      passage.Uniform content) :
    ∃ warnings after merged, passage.mergeRecords members slot builder =
        .ok ((slot, warnings), after) ∧ Builder.Fills [slot] builder after ∧
      after.Settled ∧ passage.Stands after members slot merged contents := by
  have hentries : ∀ entry ∈ contents.entries, passage.Uniform entry.2 :=
    fun entry hentry => huniform (NameMap.find?_eq_some_iff.mpr hentry)
  obtain ⟨fields, warnings, middle, hfields, hgrows, hmiddle, hnames, hall⟩ :=
    exists_mergeFields h hsettled hentries
  let hints := Hints.joinAll (members.filterMap passage.graph.hints?)
  let merged : Record := ⟨.ofList fields, false⟩
  have hnodup : (fields.map (·.1)).Nodup := hnames ▸ contents.names_nodup
  have hfind {name : String} {made : Ref} :
      merged.fields.find? name = some made ↔ (name, made) ∈ fields :=
    NameMap.find?_ofList hnodup
  have hhas : ∀ ref ∈ merged.fields.values, middle.has ref = true := by
    intro ref href
    obtain ⟨name, hname⟩ := NameMap.mem_values_iff.mp href
    exact (hall (hfind.mp hname)).1
  have hreserved : middle.Reserved slot := hgrows.reserved.mpr hslot
  have hfill := Builder.fill_eq_ok (.record merged) hints hreserved
  have hrecord := Builder.record_some_eq_ok_iff.mpr ⟨hhas, hfill⟩
  have hext := Builder.extends_fill hfill rfl
  refine ⟨warnings, _, merged, ?_, hgrows.fills_of_fill hfill,
    hmiddle.fill (Builder.fits_of_members_eq_nil hhas rfl) hfill,
    Builder.node?_fill hfill, rfl, hcontents, ?_, ?_⟩
  · simp only [mergeRecords, hcontents, bind, Except.bind, hfields]
    rw [hrecord]
    rfl
  · apply NameMap.names_eq_of_mem_iff
    intro name
    rw [NameMap.mem_names_ofList, hnames]
    rfl
  · intro name made hmade
    obtain ⟨_, content, hcontent, hmakes⟩ := hall (hfind.mp hmade)
    exact ⟨content, NameMap.find?_eq_some_iff.mpr hcontent, hmakes.mono hext⟩

end Records

end Passage

end ShapeMerge
