import ShapeMerge.Proofs.Collapse.Realization
import ShapeMerge.Proofs.Merging.Duplicates
import ShapeMerge.Proofs.Values.Accepts

namespace ShapeMerge

/-!
A merge pass only widens: whatever a node describes is described by the node
that it went to.  The induction is on the value, since a merged field takes the
value of one record to the node of another.
-/

namespace Accepts

variable {sets : ValueSets α} {collapse : Collapse} {graph : Graph}
  {built : Builder} {base made : Ref} {value : Value α}

theorem of_widened (h : Accepts sets graph base value)
    (hrealizes : collapse.Realizes graph built)
    (hwidened : built.Widened base made) : Accepts sets graph made value := by
  rcases hwidened with ⟨rfl, _⟩ | ⟨null, _, hmade⟩
  · exact h
  · rw [← hrealizes.shape?_eq, hrealizes.flatten_singleton] at hmade
    split at hmade
    · rename_i hkind
      obtain ⟨alternatives, hshape⟩ := Graph.shape?_of_kind?_union hkind
      rw [Graph.members_of_shape? hshape, Shape.members] at hmade
      obtain ⟨member, hmember, hvalue⟩ := (union_iff hshape).mp h
      exact .union hmade (List.mem_cons_of_mem null hmember) hvalue
    · exact .union hmade
        (List.mem_cons_of_mem null (List.mem_singleton_self base)) h

end Accepts

namespace Graph

variable {sets : ValueSets α} {graph : Graph} {policy : FormatPolicy}
  {cliques : List (List Ref)} {pass : MergePass} {built : Builder}

theorem Interchangeable.accepts (hflat : graph.Flat)
    {left right : Ref} {value : Value α} (h : graph.Interchangeable left right)
    (hkind : graph.kind? left = graph.kind? right)
    (haccepts : Accepts sets graph right value) :
    Accepts sets graph left value := by
  rcases h with htext | hbisimilar
  · obtain ⟨content, rfl⟩ := haccepts.exists_text (hkind ▸ htext)
    exact .of_text content htext
  · exact haccepts.of_bisimilar hflat hbisimilar.symm

theorem Agree.accepts_contributed
    (hflat : graph.Flat) {left right representative : Ref} {value : Value α}
    (h : graph.Agree left right)
    (hrepresentative : representative ∈ graph.contributed left)
    {option : Ref} (hoption : option ∈ graph.options right)
    (haccepts : Accepts sets graph option value) :
    Accepts sets graph representative value := by
  have hright : graph.options right ≠ [] := List.ne_nil_of_mem hoption
  have hpairing := (h.resolve_left
    (options_ne_nil_of_mem_contributed hrepresentative)).resolve_left hright
  obtain ⟨partner, hpartner, hkind, hrelated⟩ :=
    hpairing.symm.exists_partner hoption
  have hvalue := hrelated.accepts hflat hkind.symm haccepts
  rcases mem_contributed_iff.mp hrepresentative with hsingle | ⟨_, rfl⟩
  · rw [hsingle, List.mem_singleton] at hpartner
    rw [← hpartner]
    exact hvalue
  · exact .of_option hpartner hvalue

/-- Everything that a node describes and that is this value is described by its
place as well. -/
def Follows (sets : ValueSets α) (graph : Graph) (pass : MergePass)
    (value : Value α) : Prop :=
  ∀ {ref}, Accepts sets graph ref value →
    Accepts sets pass.graph (pass.passage.redirect ref) value

section Field

variable {clique : List Ref} {records : List Record}
  {contents : NameMap FieldContent}

/-- Whatever an option of one record's field describes is described by the
merged field, `null` apart. -/
theorem Merges.accepts_carried
    (h : graph.Merges policy cliques pass built) (hflat : graph.Flat)
    (hgathers : graph.Gathers clique records contents) {name : String}
    {field base option : Ref} {content : Record} (hcontent : content ∈ records)
    (hfield : content.fields.find? name = some field)
    (hcarries : pass.passage.Carries built (graph.contentOf records name) base)
    (hoption : option ∈ graph.options field)
    {value : Value α} (hvalue : Accepts sets graph option value)
    (hfollows : Follows sets graph pass value) :
    Accepts sets pass.graph base value := by
  obtain ⟨contributed, hcontributed⟩ :=
    exists_mem_contributed (List.ne_nil_of_mem hoption)
  have hshape : contributed ∈ (graph.contentOf records name).shapes :=
    mem_shapes_contentOf.mpr ⟨content, hcontent, field, hfield, hcontributed⟩
  rcases hcarries with
    ⟨hempty, _⟩ | ⟨representative, rest, hrepresentatives, hcase⟩
  · rw [hempty] at hshape
    cases hshape
  · have hmem : representative ∈ (graph.contentOf records name).shapes :=
      hrepresentatives ▸ List.mem_cons_self
    obtain ⟨other, hother, otherField, hotherField, hrepresentative⟩ :=
      mem_shapes_contentOf.mp hmem
    have hagree :=
      hgathers.agree other hother content hcontent hotherField hfield
    have hold := hagree.accepts_contributed hflat hrepresentative hoption hvalue
    rcases hcase with rfl | ⟨hkind, literals, htext⟩
    · exact hfollows hold
    · rw [h.passage] at hkind
      obtain ⟨text, rfl⟩ := hold.exists_text hkind
      rw [← h.realizes.shape?_eq] at htext
      exact .text htext

theorem Merges.accepts_made (h : graph.Merges policy cliques pass built)
    (hflat : graph.Flat) (hgathers : graph.Gathers clique records contents)
    {name : String}
    {field made : Ref} {content : Record} (hcontent : content ∈ records)
    (hfield : content.fields.find? name = some field)
    (hmakes : pass.passage.Makes built (graph.contentOf records name) made)
    {value : Value α} (hvalue : Accepts sets graph field value)
    (hfollows : Follows sets graph pass value) :
    Accepts sets pass.graph made value := by
  obtain ⟨base, _, hcarries, hmade⟩ := hmakes
  rcases hvalue.null_or_option hflat with
    ⟨rfl, hnullable⟩ | ⟨option, hoption, haccepts⟩
  · have hadmits : (graph.contentOf records name).nullable = true := by
      refine nullable_contentOf_iff.mpr
        ⟨content, hcontent, fun other hother => ?_⟩
      obtain rfl := Option.some.inj (hfield.symm.trans hother)
      exact hnullable
    rw [if_pos hadmits] at hmade
    exact .of_nullable h.realizes.flat (h.realizes.nullable_of_widened hmade)
  · have hbase : Accepts sets pass.graph base value :=
      h.accepts_carried hflat hgathers hcontent hfield hcarries hoption
        haccepts hfollows
    split at hmade
    · exact hbase.of_widened h.realizes hmade
    · rw [hmade]
      exact hbase

theorem Merges.nullable_made (h : graph.Merges policy cliques pass built)
    {name : String} {made : Ref} {content : Record}
    (hcontent : content ∈ records)
    (hnullable : ∀ field, content.fields.find? name = some field →
      graph.nullable field = true)
    (hmakes : pass.passage.Makes built (graph.contentOf records name) made) :
    pass.graph.nullable made = true := by
  obtain ⟨base, _, _, hmade⟩ := hmakes
  rw [if_pos (nullable_contentOf_iff.mpr ⟨content, hcontent, hnullable⟩)]
    at hmade
  exact h.realizes.nullable_of_widened hmade

end Field

section Nodes

variable (h : graph.Merges policy cliques pass built)
  (hrecords : (graph.collapseOf policy cliques).OfRecords)

include h hrecords

theorem Merges.accepts_merged {clique : List Ref} (hclique : clique ∈ cliques)
    {ref : Ref} (href : ref ∈ clique) {entries : List (String × Value α)}
    (hvalue : Accepts sets graph ref (.object entries))
    (hfollows : ∀ entry ∈ entries, Follows sets graph pass entry.2) :
    Accepts sets pass.graph (pass.passage.redirect ref) (.object entries) := by
  have hflat := hrecords.flat
  obtain ⟨records, merged, contents, hgathers, hstands, hmerged⟩ :=
    h.exists_merged hrecords.toReady hclique href
  obtain ⟨content, hshape⟩ :=
    shape?_of_kind?_record (hrecords.records clique hclique ref href)
  have hcontent : content ∈ records :=
    (mem_of_map_record? hgathers.source).mpr
      ⟨ref, href, record?_eq_some_iff.mpr hshape⟩
  obtain ⟨hknown, hentries, habsent⟩ := (Accepts.record_iff hshape).mp hvalue
  have hnames {name : String} (hname : name ∈ content.fields.names) :
      name ∈ merged.fields.names := by
    rw [hstands.names, hgathers.mem_names_iff]
    exact ⟨content, hcontent, hname⟩
  refine .record hmerged (fun entry hentry => hnames (hknown entry hentry))
    (fun entry hentry made hmade => ?_) (fun name made hmade hname => ?_)
  · obtain ⟨field, hfield⟩ := NameMap.mem_names_iff.mp (hknown entry hentry)
    exact h.accepts_made hflat hgathers
      hcontent hfield (hgathers.makes hstands hmade)
      (hentries entry hentry field hfield) (hfollows entry hentry)
  · exact h.nullable_made hcontent
      (fun field hfield => habsent name field hfield hname)
      (hgathers.makes hstands hmade)

theorem Merges.kind?_redirect {ref : Ref} (href : graph.has ref = true)
    (hkind : graph.kind? ref ≠ some .union) :
    pass.graph.kind? (pass.passage.redirect ref) =
      graph.loweredKind? policy ref := by
  rw [h.passage]
  exact h.realizes.kind?_redirect hrecords href hkind

theorem Merges.shape?_redirect
    {ref : Ref} {shape : Shape} (hshape : graph.shape? ref = some shape)
    (hkind : graph.kind? ref ≠ some .union)
    (hgroup : (graph.collapseOf policy cliques).group? ref = none) :
    pass.graph.shape? (pass.passage.redirect ref) =
      some (policy.lower (((graph.collapseOf policy cliques).narrowed
        shape).mapRefs pass.passage.redirect)) := by
  rw [h.passage]
  exact h.realizes.shape?_redirect hrecords.toReady hshape hgroup
    (Collapse.survivor?_eq_none_of_kind hkind)

/-- A record in no clique keeps its objects: its fields are those that it had,
each redirected. -/
theorem Merges.accepts_kept {ref : Ref} (hkind : graph.kind? ref = some .record)
    (hgroup : (graph.collapseOf policy cliques).group? ref = none)
    {entries : List (String × Value α)}
    (hvalue : Accepts sets graph ref (.object entries))
    (hfollows : ∀ entry ∈ entries, Follows sets graph pass entry.2) :
    Accepts sets pass.graph (pass.passage.redirect ref) (.object entries) := by
  obtain ⟨content, hshape⟩ := shape?_of_kind?_record hkind
  obtain ⟨hknown, hentries, habsent⟩ := (Accepts.record_iff hshape).mp hvalue
  have hplace :=
    h.shape?_redirect hrecords hshape (by rw [hkind]; decide) hgroup
  have hfind (name : String) :
      (content.fields.map pass.passage.redirect).find? name =
        (content.fields.find? name).map pass.passage.redirect :=
    NameMap.find?_map _ _ _
  refine .record hplace (fun entry hentry => ?_)
    (fun entry hentry made hmade => ?_) (fun name made hmade hname => ?_)
  · obtain ⟨field, hfield⟩ := NameMap.mem_names_iff.mp (hknown entry hentry)
    exact NameMap.mem_names_iff.mpr ⟨_, (hfind _).trans (congrArg _ hfield)⟩
  · obtain ⟨field, hfield, rfl⟩ :=
      Option.map_eq_some_iff.mp ((hfind _).symm.trans hmade)
    exact hfollows entry hentry (hentries entry hentry field hfield)
  · obtain ⟨field, hfield, rfl⟩ :=
      Option.map_eq_some_iff.mp ((hfind _).symm.trans hmade)
    have hhas := hrecords.wellFormed.children hshape field
      (NameMap.mem_values_iff.mpr ⟨name, hfield⟩)
    rw [h.passage]
    exact (h.realizes.nullable_redirect hrecords hhas).trans
      (habsent name field hfield hname)

theorem Merges.accepts_of_not_union {ref : Ref}
    {value : Value α} (hvalue : Accepts sets graph ref value)
    (hkind : graph.kind? ref ≠ some .union)
    (hfollows : ∀ smaller : Value α, sizeOf smaller < sizeOf value →
      Follows sets graph pass smaller) :
    Accepts sets pass.graph (pass.passage.redirect ref) value := by
  -- The nodes of a clique are records, so nodes of the other kinds are carried
  -- over one by one.
  have hplace {shape : Shape} (hshape : graph.shape? ref = some shape)
      (hother : shape.kind ≠ .record) :
      pass.graph.shape? (pass.passage.redirect ref) =
        some (policy.lower (((graph.collapseOf policy cliques).narrowed
          shape).mapRefs pass.passage.redirect)) := by
    exact h.shape?_redirect hrecords hshape hkind
      (Collapse.Realizes.group?_eq_none_of_shape? hrecords hshape hother)
  cases hvalue with
  | primitive hshape hvalue =>
      exact .primitive (hplace hshape (by simp [Shape.kind])) hvalue
  | text hshape => exact .text (hplace hshape (by simp [Shape.kind]))
  | @formatted _ format content hshape hcontent =>
      have hlower := hplace hshape (by simp [Shape.kind])
      simp only [Collapse.narrowed, Shape.mapRefs, FormatPolicy.lower] at hlower
      split at hlower
      · exact .text hlower
      · exact .formatted hlower hcontent
  | array hshape hitems =>
      refine .array (hplace hshape (by simp [Shape.kind])) fun item hitem => ?_
      have hlt := List.sizeOf_lt_of_mem hitem
      exact hfollows item (by simp only [Value.list.sizeOf_spec]; omega)
        (hitems item hitem)
  | @map _ _ entries hshape hentries =>
      refine .map (hplace hshape (by simp [Shape.kind])) fun entry hentry => ?_
      exact hfollows entry.2 (Value.sizeOf_entry_lt hentry)
        (hentries entry hentry)
  | @record _ content entries hshape hknown hentries habsent =>
      have hobject : Accepts sets graph ref (.object entries) :=
        .record hshape hknown hentries habsent
      have hsmaller : ∀ entry ∈ entries, Follows sets graph pass entry.2 := by
        intro entry hentry
        exact hfollows entry.2 (Value.sizeOf_entry_lt hentry)
      cases hclique : (graph.collapseOf policy cliques).group? ref with
      | some clique =>
          obtain ⟨hmem, href⟩ := Collapse.mem_of_group? hclique
          exact h.accepts_merged hrecords hmem href hobject hsmaller
      | none =>
          exact h.accepts_kept hrecords (kind?_of_shape? hshape) hclique
            hobject hsmaller
  | union hshape => exact absurd (kind?_of_shape? hshape) hkind

theorem Merges.accepts_of_kept_member {ref kept : Ref} {alternatives : List Ref}
    (hshape : graph.shape? ref = some (.union alternatives))
    (hkept : kept ∈ graph.narrow policy alternatives) {value : Value α}
    (haccepts : Accepts sets pass.graph (pass.passage.redirect kept) value) :
    Accepts sets pass.graph (pass.passage.redirect ref) value := by
  have hredirect := h.realizes.redirect_member hrecords hshape hkept
  rw [← h.passage] at hredirect
  rcases hredirect with heq | hmem
  · rw [heq]
    exact haccepts
  · exact haccepts.of_member hmem

/-- A value of a union comes from a member that stays, or it is a text and some
text stays. -/
theorem Merges.follows_of_smaller {value : Value α}
    (hfollows : ∀ smaller : Value α, sizeOf smaller < sizeOf value →
      Follows sets graph pass smaller) : Follows sets graph pass value := by
  intro ref hvalue
  by_cases hkind : graph.kind? ref = some .union
  · obtain ⟨alternatives, hshape⟩ := shape?_of_kind?_union hkind
    obtain ⟨member, hmember, hmemberValue⟩ :=
      (Accepts.union_iff hshape).mp hvalue
    cases hlowered : graph.isLowered policy member with
    | false =>
        exact h.accepts_of_kept_member hrecords
          hshape (mem_narrow hmember hlowered) (h.accepts_of_not_union hrecords
            hmemberValue (hrecords.flat.flat hshape member hmember) hfollows)
    | true =>
        obtain ⟨format, hformat, _⟩ := isLowered_iff.mp hlowered
        obtain ⟨content, rfl, _⟩ :=
          (Accepts.formatted_iff hformat).mp hmemberValue
        obtain ⟨kept, hkept, htext⟩ := exists_text_of_narrow hmember
          (loweredKind?_eq_text_iff.mpr (Or.inr hlowered))
        have hkeptMember := (narrow_sublist alternatives).subset hkept
        rw [← h.kind?_redirect hrecords
          (hrecords.wellFormed.children hshape kept hkeptMember)
          (hrecords.flat.flat hshape kept hkeptMember)] at htext
        exact h.accepts_of_kept_member hrecords hshape hkept
          (.of_text content htext)
  · exact h.accepts_of_not_union hrecords hvalue hkind hfollows

theorem Merges.follows (value : Value α) : Follows sets graph pass value := by
  induction hsize : sizeOf value using Nat.strongRecOn generalizing value with
  | ind size ih =>
      subst hsize
      exact h.follows_of_smaller hrecords fun smaller hlt =>
        ih (sizeOf smaller) hlt smaller rfl

end Nodes

/-- Nothing is lost: every value of a node is a value of the node that it went
to, and so is every value of a root, and every value of a member of a clique for
the merged record of the clique. -/
theorem mergeSimilar_widens [Share σ] {settings : Settings σ}
    (hbuilt : graph.Built) (hpass : graph.mergeSimilar settings = .ok pass)
    (sets : ValueSets α) :
    (∀ {ref value}, Accepts sets graph ref value →
      ∃ target, pass.passage.follow ref = .ok target ∧
        Accepts sets pass.graph target value) ∧
      (∀ {name old}, graph.root? name = some old →
        ∃ target, pass.passage.follow old = .ok target ∧
          pass.graph.root? name = some target ∧
          ∀ {value}, Accepts sets graph old value →
            Accepts sets pass.graph target value) ∧
      (∀ clique ∈ pass.summary.cliques, ∀ member ∈ clique,
        ∃ target, pass.passage.follow member = .ok target ∧
          pass.summary.mergedInto? member = some target ∧
          ∀ {value}, Accepts sets graph member value →
            Accepts sets pass.graph target value) := by
  obtain ⟨cliques, built, hcliques, hmerges⟩ := exists_merges hbuilt.flat hpass
  have hrecords := ofRecords_collapseOf hcliques hbuilt.flat settings.policy
  have hfollow {ref : Ref} (href : graph.has ref = true) :
      pass.passage.follow ref = .ok (pass.passage.redirect ref) := by
    rw [hmerges.passage]
    exact Collapse.follow_eq_ok href
  have hkeeps {ref : Ref} {value : Value α}
      (hvalue : Accepts sets graph ref value) :
      Accepts sets pass.graph (pass.passage.redirect ref) value :=
    hmerges.follows hrecords value hvalue
  refine ⟨fun {ref value} hvalue => ⟨_, hfollow hvalue.has, hkeeps hvalue⟩,
    fun {name old} hroot => ⟨_, hfollow (hbuilt.flat.roots hroot), ?_, hkeeps⟩,
    fun clique hclique member hmember => ?_⟩
  · rw [hmerges.passage]
    exact hmerges.realizes.roots.mpr ⟨old, hroot, rfl⟩
  · rw [hmerges.partition] at hclique
    exact ⟨_, hfollow (hrecords.has_of_mem hclique hmember),
      hmerges.mergedInto?_of_mem hrecords.toReady hclique hmember, hkeeps⟩

def numerals : ValueSets Nat where
  bool _ := False
  integer value := ∃ number, value = .atom number
  double value := ∃ number, value = .atom number
  format _ _ := True

theorem twins_accept :
    Accepts numerals twins ⟨1⟩ (.object [("id", .atom 7)]) := by
  have hshape :
      twins.shape? ⟨1⟩ = some (.record ⟨.ofList [("id", ⟨0⟩)], false⟩) := rfl
  refine .record hshape ?_ ?_ ?_
  · intro entry hentry
    rw [List.mem_singleton] at hentry
    subst hentry
    decide
  · intro entry hentry field hfield
    rw [List.mem_singleton] at hentry
    subst hentry
    cases hfield
    exact .primitive rfl ⟨7, rfl⟩
  · intro name field hfield hname
    have hid : name = "id" := by
      have hnodup : (([("id", ⟨0⟩)] : List (String × Ref)).map (·.1)).Nodup :=
        List.nodup_singleton "id"
      have hmem := (NameMap.find?_ofList hnodup).mp hfield
      exact (Prod.mk.inj (List.mem_singleton.mp hmem)).1
    exact absurd (hid ▸ List.mem_cons_self) hname

theorem twins_widen :
    ∃ pass, twins.mergeSimilar ⟨(1 / 2 : Rat), .lenient⟩ = .ok pass ∧
      ∃ target, pass.passage.follow ⟨1⟩ = .ok target ∧
        Accepts numerals pass.graph target (.object [("id", .atom 7)]) := by
  have hpos : (0 : Rat) < 1 / 2 := by decide +kernel
  obtain ⟨pass, _, _, hpass, _⟩ :=
    twins_built.flat.exists_pass hpos (by decide +kernel) .lenient
  exact ⟨pass, hpass,
    (mergeSimilar_widens twins_built hpass numerals).1 twins_accept⟩

end Graph

end ShapeMerge
