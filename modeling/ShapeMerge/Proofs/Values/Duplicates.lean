import ShapeMerge.Proofs.Collapse.Keeping
import ShapeMerge.Proofs.Merging.Duplicates
import ShapeMerge.Proofs.Merging.MergedShape
import ShapeMerge.Proofs.Values.Widening

namespace ShapeMerge

/-!
Merging duplicates alone changes no meaning.  Where all members of every clique
are equivalent and no format is lowered, a place describes no value that its
node did not describe.  The induction is on the value, as for widening: a field
of a merged record is made from the field of one member, and the fields of the
other members are equivalent to it.
-/

namespace Accepts

variable {sets : ValueSets α} {collapse : Collapse} {graph : Graph}
  {built : Builder} {base made : Ref} {value : Value α}

theorem null_or_of_widened (h : Accepts sets graph made value)
    (hrealizes : collapse.Realizes graph built)
    (hwidened : built.Widened base made) :
    value = .null ∨ Accepts sets graph base value := by
  rcases hwidened with ⟨rfl, _⟩ | ⟨null, hnull, hmade⟩
  · exact Or.inr h
  · rw [← hrealizes.shape?_eq] at hnull hmade
    obtain ⟨member, hmember, hvalue⟩ := (union_iff hmade).mp h
    rcases List.mem_cons.mp hmember with rfl | hmember
    · exact Or.inl ((primitive_iff hnull).mp hvalue)
    · right
      rw [hrealizes.flatten_singleton] at hmember
      split at hmember
      · exact hvalue.of_member hmember
      · rw [List.mem_singleton.mp hmember] at hvalue
        exact hvalue

end Accepts

namespace Graph

def Inhabits (graph : Graph) : Prop :=
  ∀ ref, graph.shape? ref ≠ some (.union [])

structure Twin (graph : Graph) (left right : Record) : Prop where
  names : left.fields.names = right.fields.names
  fields : ∀ {name x y}, left.fields.find? name = some x →
    right.fields.find? name = some y → graph.Bisimilar x y

variable {sets : ValueSets α} {graph : Graph} {policy : FormatPolicy}
  {cliques : List (List Ref)} {pass : MergePass} {built : Builder}

theorem Twin.exists_field {left right : Record} (h : graph.Twin left right)
    {name : String} {x : Ref} (hx : left.fields.find? name = some x) :
    ∃ y, right.fields.find? name = some y ∧ graph.Bisimilar x y := by
  obtain ⟨y, hy⟩ :=
    NameMap.mem_names_iff.mp (h.names ▸ NameMap.mem_names_iff.mpr ⟨x, hx⟩)
  exact ⟨y, hy, h.fields hx hy⟩

/-- What has no alternative besides `null` is `null`, if unions have members. -/
theorem Flat.nullable_of_no_option (hflat : graph.Flat)
    (hinhabits : graph.Inhabits) {ref : Ref} (h : graph.options ref = []) :
    graph.nullable ref = true := by
  have hnull {source : Ref}
      (hsource : source = ref ∨ source ∈ graph.members ref)
      (hkind : graph.kind? source ≠ some .union) :
      graph.kind? source = some .null := by
    by_contra hplain
    have hoption := mem_options.mpr ⟨hsource, hkind, hplain⟩
    rw [h] at hoption
    cases hoption
  rw [hflat.nullable_iff]
  by_cases hkind : graph.kind? ref = some .union
  · right
    obtain ⟨alternatives, hshape⟩ := shape?_of_kind?_union hkind
    obtain ⟨member, hmember⟩ :=
      List.exists_mem_of_ne_nil alternatives fun hempty =>
        hinhabits ref (hempty ▸ hshape)
    have hmem : member ∈ graph.members ref := members_of_shape? hshape ▸ hmember
    exact ⟨member, hmem, hnull (Or.inr hmem) (hflat.flat hshape member hmember)⟩
  · exact Or.inl (hnull (Or.inl rfl) hkind)

theorem accepts_of_contributed {ref other : Ref} {value : Value α}
    (hmem : other ∈ graph.contributed ref)
    (h : Accepts sets graph other value) : Accepts sets graph ref value := by
  rcases mem_contributed_iff.mp hmem with hsingle | ⟨_, rfl⟩
  · exact h.of_option (hsingle ▸ List.mem_singleton_self other)
  · exact h

/-- Nothing that is this value is described by a place and not by its node. -/
def Returns (sets : ValueSets α) (graph : Graph) (pass : MergePass)
    (value : Value α) : Prop :=
  ∀ {ref}, graph.has ref = true →
    Accepts sets pass.graph (pass.passage.redirect ref) value →
    Accepts sets graph ref value

section Field

variable {records : List Record}
  {name : String} {content : Record} {field made base : Ref}
  (hflat : graph.Flat) (hfield : content.fields.find? name = some field)
  (htwins : ∀ other ∈ records, graph.Twin content other)

include hflat hfield

theorem nullable_of_shapes_eq_nil (hinhabits : graph.Inhabits)
    (hcontent : content ∈ records)
    (h : (graph.contentOf records name).shapes = []) :
    graph.nullable field = true :=
  hflat.nullable_of_no_option hinhabits
    (shapes_contentOf_eq_nil_iff.mp h content hcontent field hfield)

include htwins

theorem nullable_of_contentOf
    (h : (graph.contentOf records name).nullable = true) :
    graph.nullable field = true := by
  obtain ⟨other, hother, hnullable⟩ := nullable_contentOf_iff.mp h
  obtain ⟨partner, hpartner, hbisimilar⟩ :=
    (htwins other hother).exists_field hfield
  rw [hbisimilar.nullable_eq hflat]
  exact hnullable partner hpartner

variable (h : graph.Merges policy cliques pass built)
  (hinhabits : graph.Inhabits) (hcontent : content ∈ records)
  (hholds : ∀ other ∈ records, graph.Holds other) {value : Value α}
  (hreturns : Returns sets graph pass value)

include h hinhabits hcontent hholds hreturns

theorem Merges.accepts_of_carried
    (hcarries : pass.passage.Carries built (graph.contentOf records name) base)
    (hvalue : Accepts sets pass.graph base value) :
    Accepts sets graph field value := by
  rcases hcarries with ⟨hempty, hnull⟩ | ⟨representative, rest, hshapes, hcase⟩
  · rw [← h.realizes.shape?_eq] at hnull
    obtain rfl := (Accepts.primitive_iff hnull).mp hvalue
    exact .of_nullable hflat
      (nullable_of_shapes_eq_nil hflat hfield hinhabits hcontent hempty)
  · obtain ⟨other, hother, otherField, hotherField, hadded⟩ :=
      mem_shapes_contentOf.mp (hshapes ▸ List.mem_cons_self)
    have hrepresentative : Accepts sets graph representative value := by
      rcases hcase with rfl | ⟨hkind, literals, htext⟩
      · exact hreturns (contributed_has hflat (hholds other hother hotherField)
          hadded) hvalue
      · rw [h.passage_graph] at hkind
        rw [← h.realizes.shape?_eq] at htext
        obtain ⟨text, rfl⟩ := (Accepts.text_iff htext).mp hvalue
        exact .of_text text hkind
    exact (accepts_of_contributed hadded hrepresentative).of_bisimilar hflat
      ((htwins other hother).fields hfield hotherField).symm

theorem Merges.accepts_of_made
    (hmakes : pass.passage.Makes built (graph.contentOf records name) made)
    (hvalue : Accepts sets pass.graph made value) :
    Accepts sets graph field value := by
  obtain ⟨base, _, hcarries, hmade⟩ := hmakes
  have hcarried :
      Accepts sets pass.graph base value → Accepts sets graph field value :=
    h.accepts_of_carried hflat hfield htwins hinhabits hcontent hholds
      hreturns hcarries
  split at hmade
  · rename_i hnullable
    rcases hvalue.null_or_of_widened h.realizes hmade with rfl | hbase
    · exact .of_nullable hflat
        (nullable_of_contentOf hflat hfield htwins hnullable)
    · exact hcarried hbase
  · rw [hmade] at hvalue
    exact hcarried hvalue

end Field

section Nodes

variable (h : graph.Merges policy cliques pass built)
  (hrecords : (graph.collapseOf policy cliques).OfRecords)

include h hrecords

theorem Merges.accepts_of_merged (hinhabits : graph.Inhabits)
    {clique : List Ref} (hclique : clique ∈ cliques)
    (hequal : ∀ x ∈ clique, ∀ y ∈ clique, graph.Bisimilar x y)
    {ref : Ref} (href : ref ∈ clique) {value : Value α}
    (hvalue : Accepts sets pass.graph (pass.passage.redirect ref) value)
    (hreturns : ∀ smaller : Value α, sizeOf smaller < sizeOf value →
      Returns sets graph pass smaller) : Accepts sets graph ref value := by
  have hflat := hrecords.flat
  obtain ⟨records, merged, contents, hgathers, hstands, hmerged⟩ :=
    h.exists_merged hrecords.toReady hclique href
  obtain ⟨entries, rfl⟩ := hvalue.exists_entries hmerged
  obtain ⟨hknown, hentries, habsent⟩ := (Accepts.record_iff hmerged).mp hvalue
  obtain ⟨content, hcontent, hrecord⟩ := hgathers.exists_record href
  have htwins : ∀ other ∈ records, graph.Twin content other := by
    intro other hother
    obtain ⟨member, hmember, hsome⟩ :=
      (mem_of_map_record? hgathers.source).mp hother
    obtain ⟨found, hfound, _, hnames, hfields⟩ :=
      (hequal ref href member hmember).record? hrecord
    obtain rfl := Option.some.inj (hsome.symm.trans hfound)
    exact ⟨hnames, hfields⟩
  have hholds : ∀ other ∈ records, graph.Holds other := by
    intro other hother
    obtain ⟨member, _, hsome⟩ := (mem_of_map_record? hgathers.source).mp hother
    exact hflat.holds hsome
  have hnames {name : String} :
      name ∈ merged.fields.names ↔ name ∈ content.fields.names := by
    rw [hstands.names, hgathers.mem_names_iff]
    constructor
    · rintro ⟨other, hother, hname⟩
      exact (htwins other hother).names ▸ hname
    · exact fun hname => ⟨content, hcontent, hname⟩
  refine .record (record?_eq_some_iff.mp hrecord)
    (fun entry hentry => hnames.mp (hknown entry hentry))
    (fun entry hentry field hfield => ?_) (fun name field hfield hname => ?_)
  · obtain ⟨made, hmade⟩ := NameMap.mem_names_iff.mp (hknown entry hentry)
    exact h.accepts_of_made hflat hfield htwins hinhabits hcontent hholds
      (hreturns entry.2 (Value.sizeOf_entry_lt hentry))
      (hgathers.makes hstands hmade) (hentries entry hentry made hmade)
  · obtain ⟨made, hmade⟩ :=
      NameMap.mem_names_iff.mp
        (hnames.mpr (NameMap.mem_names_iff.mpr ⟨field, hfield⟩))
    obtain ⟨found, hfound, hmakes⟩ := hstands.fields hmade
    have hadmits := (h.nullable_made_iff hrecords hgathers hfound hmakes).mp
      (habsent name made hmade hname)
    rw [(hgathers.find?.mp hfound).2] at hadmits
    rcases hadmits with hnullable | hempty
    · exact nullable_of_contentOf hflat hfield htwins hnullable
    · exact nullable_of_shapes_eq_nil hflat hfield hinhabits hcontent hempty

section Kept

variable (hkeeps : graph.Keeps policy)

include hkeeps

theorem Merges.shape?_kept {ref : Ref}
    {shape : Shape} (hshape : graph.shape? ref = some shape)
    (hgroup : (graph.collapseOf policy cliques).group? ref = none) :
    pass.graph.shape? (pass.passage.redirect ref) =
      some (shape.mapRefs pass.passage.redirect) := by
  rw [h.passage]
  exact h.realizes.shape?_kept hkeeps hrecords.toReady hshape hgroup

theorem Merges.accepts_of_kept {ref : Ref}
    {content : Record} (hshape : graph.shape? ref = some (.record content))
    (hgroup : (graph.collapseOf policy cliques).group? ref = none)
    {value : Value α}
    (hvalue : Accepts sets pass.graph (pass.passage.redirect ref) value)
    (hreturns : ∀ smaller : Value α, sizeOf smaller < sizeOf value →
      Returns sets graph pass smaller) : Accepts sets graph ref value := by
  have hplace := h.shape?_kept hrecords hkeeps hshape hgroup
  obtain ⟨entries, rfl⟩ := hvalue.exists_entries hplace
  obtain ⟨hknown, hentries, habsent⟩ := (Accepts.record_iff hplace).mp hvalue
  have hfind {name : String} {field : Ref}
      (hfield : content.fields.find? name = some field) :
      (content.fields.map pass.passage.redirect).find? name =
        some (pass.passage.redirect field) := by
    rw [NameMap.find?_map, hfield]
    rfl
  have hhas {name : String} {field : Ref}
      (hfield : content.fields.find? name = some field) :
      graph.has field = true :=
    hrecords.wellFormed.children hshape field
      (NameMap.mem_values_iff.mpr ⟨name, hfield⟩)
  refine .record hshape (fun entry hentry => ?_)
    (fun entry hentry field hfield => ?_) (fun name field hfield hname => ?_)
  · obtain ⟨made, hmade⟩ := NameMap.mem_names_iff.mp (hknown entry hentry)
    obtain ⟨field, hfield, _⟩ :=
      Option.map_eq_some_iff.mp ((NameMap.find?_map _ _ _).symm.trans hmade)
    exact NameMap.mem_names_iff.mpr ⟨field, hfield⟩
  · exact hreturns entry.2 (Value.sizeOf_entry_lt hentry) (hhas hfield)
      (hentries entry hentry _ (hfind hfield))
  · have hnullable := habsent name _ (hfind hfield) hname
    rw [h.passage] at hnullable
    exact (h.realizes.nullable_redirect hrecords (hhas hfield)).symm.trans
      hnullable

variable (hinhabits : graph.Inhabits)
  (hequal : ∀ clique ∈ cliques, ∀ x ∈ clique, ∀ y ∈ clique, graph.Bisimilar x y)

include hinhabits hequal

theorem Merges.returns_of_not_union
    {ref : Ref} {shape : Shape} (hshape : graph.shape? ref = some shape)
    (hkind : shape.kind ≠ .union) {value : Value α}
    (hvalue : Accepts sets pass.graph (pass.passage.redirect ref) value)
    (hreturns : ∀ smaller : Value α, sizeOf smaller < sizeOf value →
      Returns sets graph pass smaller) : Accepts sets graph ref value := by
  have hhas := hrecords.wellFormed.children hshape
  have hplace (hother : shape.kind ≠ .record) :
      pass.graph.shape? (pass.passage.redirect ref) =
        some (shape.mapRefs pass.passage.redirect) :=
    h.shape?_kept hrecords hkeeps hshape
      (Collapse.Realizes.group?_eq_none_of_shape? hrecords hshape hother)
  cases shape with
  | primitive base =>
      exact .primitive hshape
        ((Accepts.primitive_iff (hplace fun heq => nomatch heq)).mp hvalue)
  | text literals =>
      obtain ⟨content, rfl⟩ :=
        (Accepts.text_iff (hplace fun heq => nomatch heq)).mp hvalue
      exact .text hshape
  | formatted format =>
      obtain ⟨content, rfl, hcontent⟩ :=
        (Accepts.formatted_iff (hplace fun heq => nomatch heq)).mp hvalue
      exact .formatted hshape hcontent
  | array item =>
      obtain ⟨items, rfl, hitems⟩ :=
        (Accepts.array_iff (hplace fun heq => nomatch heq)).mp hvalue
      refine .array hshape fun part hpart => ?_
      have hlt := List.sizeOf_lt_of_mem hpart
      exact hreturns part (by simp only [Value.list.sizeOf_spec]; omega)
        (hhas item (List.mem_singleton_self item)) (hitems part hpart)
  | map element =>
      obtain ⟨entries, rfl, hentries⟩ :=
        (Accepts.map_iff (hplace fun heq => nomatch heq)).mp hvalue
      refine .map hshape fun entry hentry => ?_
      exact hreturns entry.2 (Value.sizeOf_entry_lt hentry)
        (hhas element (List.mem_singleton_self element)) (hentries entry hentry)
  | record content =>
      cases hclique : (graph.collapseOf policy cliques).group? ref with
      | some clique =>
          obtain ⟨hmem, href⟩ := Collapse.mem_of_group? hclique
          exact h.accepts_of_merged hrecords hinhabits hmem (hequal clique hmem)
            href hvalue hreturns
      | none =>
          exact h.accepts_of_kept hrecords hkeeps hshape hclique hvalue hreturns
  | union alternatives => exact absurd rfl hkind

theorem Merges.returns_of_smaller {value : Value α}
    (hreturns : ∀ smaller : Value α, sizeOf smaller < sizeOf value →
      Returns sets graph pass smaller) : Returns sets graph pass value := by
  intro ref href hvalue
  obtain ⟨shape, hshape⟩ := has_iff_shape?.mp href
  cases shape with
  | union alternatives =>
      have hgroup : (graph.collapseOf policy cliques).group? ref = none :=
        Collapse.Realizes.group?_eq_none_of_shape? hrecords hshape fun heq =>
          nomatch heq
      obtain ⟨placed, hplaced, hmemberValue⟩ :=
        (Accepts.union_iff (h.shape?_kept hrecords hkeeps hshape hgroup)).mp
          hvalue
      obtain ⟨member, hmember, rfl⟩ := List.mem_map.mp hplaced
      obtain ⟨shape, hmemberShape⟩ :=
        has_iff_shape?.mp (hrecords.wellFormed.children hshape member hmember)
      have hkind : shape.kind ≠ .union := fun heq =>
        hrecords.flat.flat hshape member hmember
          ((kind?_of_shape? hmemberShape).trans (congrArg some heq))
      exact .union hshape hmember (h.returns_of_not_union hrecords hkeeps
        hinhabits hequal hmemberShape hkind hmemberValue hreturns)
  | _ =>
      exact h.returns_of_not_union hrecords hkeeps hinhabits hequal hshape
        (fun heq => nomatch heq) hvalue hreturns

theorem Merges.returns (value : Value α) : Returns sets graph pass value := by
  induction hsize : sizeOf value using Nat.strongRecOn generalizing value with
  | ind size ih =>
      subst hsize
      exact h.returns_of_smaller hrecords hkeeps hinhabits hequal
        fun smaller hlt => ih (sizeOf smaller) hlt smaller rfl

end Kept

end Nodes

/-- Where all merged records were equivalent and every format is kept, a node
and the place it went to describe the same values. -/
theorem merging_duplicates_keeps_values
    [Share σ] {settings : Settings σ} (hbuilt : graph.Built)
    (hinhabits : ∀ ref, graph.shape? ref ≠ some (.union []))
    (hkeep : ∀ format, settings.policy.lowers format = false)
    (hpass : graph.mergeSimilar settings = .ok pass)
    (hequal : ∀ clique ∈ pass.summary.cliques,
      clique.Pairwise fun left right => graph.equivalent left right = true)
    (sets : ValueSets α) {ref : Ref} (href : graph.has ref = true) :
    ∃ target, pass.passage.follow ref = .ok target ∧
      ∀ value, Accepts sets graph ref value ↔
        Accepts sets pass.graph target value := by
  obtain ⟨cliques, built, hcliques, hmerges⟩ := exists_merges hbuilt.flat hpass
  have hrecords := ofRecords_collapseOf hcliques hbuilt.flat settings.policy
  rw [hmerges.partition] at hequal
  have hbisimilar :
      ∀ clique ∈ cliques, ∀ x ∈ clique, ∀ y ∈ clique, graph.Bisimilar x y := by
    intro clique hclique x hx y hy
    have hdecides {left right : Ref} :
        graph.equivalent left right = true ↔ graph.Bisimilar left right :=
      equivalent_iff_bisimilar hbuilt.flat.toWellFormed
    by_cases heq : x = y
    · exact heq ▸ Bisimilar.refl graph x
    · rcases or_of_pairwise (hequal clique hclique) hx hy heq with
        hforth | hback
      · exact hdecides.mp hforth
      · exact (hdecides.mp hback).symm
  exact ⟨_, hmerges.follow_eq_ok href,
    fun value => ⟨hmerges.follows hrecords value, hmerges.returns hrecords
      (keeps_of_policy hkeep) hinhabits hbisimilar value href⟩⟩

theorem twinLists_built : twinLists.Built := by
  have h : ((Builder.start .lenient).replay [.reserve, .reserve, .primitive
    .null, .union .blank [⟨2⟩, ⟨0⟩], .primitive .null, .union .blank [⟨1⟩, ⟨4⟩],
    .record (.inferredName "first") ⟨.ofList [("next", ⟨3⟩)], false⟩ (some ⟨0⟩),
    .record (.inferredName "second")
    ⟨.ofList [("next", ⟨5⟩)], false⟩ (some ⟨1⟩)]).toGraph = .ok twinLists := by
    decide +kernel
  exact .finished h

theorem twinLists_bisimilar : twinLists.Bisimilar ⟨0⟩ ⟨1⟩ :=
  ⟨_, twinLists_bisimulation, by decide⟩

theorem twinLists_keep_values :
    ∃ pass, twinLists.mergeSimilar ⟨(1 : Rat), .lenient⟩ = .ok pass ∧
      ∃ target, pass.passage.follow ⟨1⟩ = .ok target ∧
        pass.summary.mergedInto? ⟨1⟩ = some target ∧
        ∀ value, Accepts numerals twinLists ⟨1⟩ value ↔
          Accepts numerals pass.graph target value := by
  have hflat := twinLists_built.flat
  have hle : (1 : Rat) ≤ 1 := by decide +kernel
  obtain ⟨pass, cliques, built, hpass, hcliques, hmerges⟩ :=
    hflat.exists_pass (by decide +kernel) hle .lenient
  have hrecords := ofRecords_collapseOf hcliques hflat .lenient
  have hinhabits : ∀ ref, twinLists.shape? ref ≠ some (.union []) := by
    intro ref hshape
    obtain ⟨node, hnode, hempty⟩ := Option.map_eq_some_iff.mp hshape
    have hall : ∀ entry ∈ twinLists.entries, entry.2.shape ≠ .union [] := by
      decide
    exact hall (ref, node) (mem_entries.mpr hnode) hempty
  have hcandidates : twinLists.candidates = [⟨0⟩, ⟨1⟩] := by decide
  have hbisimilar : ∀ left ∈ twinLists.candidates,
    ∀ right ∈ twinLists.candidates, twinLists.Bisimilar left right := by
    intro left hleft right hright
    rw [hcandidates] at hleft hright
    simp only [List.mem_cons, List.not_mem_nil, or_false] at hleft hright
    rcases hleft with rfl | rfl <;> rcases hright with rfl | rfl
    · exact Bisimilar.refl _ _
    · exact twinLists_bisimilar
    · exact twinLists_bisimilar.symm
    · exact Bisimilar.refl _ _
  have hequal : ∀ clique ∈ pass.summary.cliques, clique.Pairwise
    fun left right => twinLists.equivalent left right = true := by
    intro clique hclique
    rw [hmerges.partition] at hclique
    have hmem {ref : Ref} (href : ref ∈ clique) : ref ∈ twinLists.candidates :=
      mem_candidates_of_mem_clique hcliques hclique href
    exact List.pairwise_of_forall_mem_list fun left hleft right hright =>
      (equivalent_iff_bisimilar hflat.toWellFormed).mpr
        (hbisimilar left (hmem hleft) right (hmem hright))
  have hhas : twinLists.has ⟨1⟩ = true := by decide
  obtain ⟨target, hfollow, hkept⟩ :=
    merging_duplicates_keeps_values twinLists_built hinhabits
      (fun _ => rfl) hpass hequal numerals hhas
  refine ⟨pass, hpass, target, hfollow, ?_, hkept⟩
  obtain ⟨clique, hclique, _, hmem⟩ :=
    exists_clique_of_bisimilar hflat hle hcliques (by rw [hcandidates]; decide)
      (by rw [hcandidates]; decide) (by decide) twinLists_bisimilar
  rw [hmerges.mergedInto?_of_mem hrecords.toReady hclique hmem]
  exact congrArg
    some (Except.ok.inj ((hmerges.follow_eq_ok hhas).symm.trans hfollow))

end Graph

end ShapeMerge
