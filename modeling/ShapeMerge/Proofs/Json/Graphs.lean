import ShapeMerge.Json.Codec
import ShapeMerge.Proofs.Graph.Ranges
import ShapeMerge.Proofs.Json.Views

namespace ShapeMerge

open Json

section Decoding

theorem Ref.ofJson?_toJson {ref : Ref} (h : ref.index < limit) :
    ofJson? ref.toJson = some ref := by
  rw [ofJson?, toJson, natBelow?_nat h, Option.map_some]

theorem Primitive.ofJson?_toJson (base : Primitive) :
    ofJson? base.toJson = some base :=
  constant?_text (by cases base <;> rfl)

theorem Format.ofJson?_toJson (format : Format) :
    ofJson? format.toJson = some format :=
  constant?_text (by cases format <;> rfl)

theorem refMap_ofJson?_toJson {map : NameMap Ref}
    (h : ∀ ref ∈ map.values, ref.index < Ref.limit) :
    nameMap? Ref.ofJson? (ofNameMap Ref.toJson map) = some map :=
  nameMap?_ofNameMap fun ref href => Ref.ofJson?_toJson (h ref href)

theorem Tally.ofJson?_toJson {tally : Tally}
    (h : ∀ count ∈ tally.values, count < countLimit) :
    ofJson? tally.toJson = some tally :=
  nameMap?_ofNameMap fun count hcount => natBelow?_nat (h count hcount)

theorem Hints.ofJson?_toJson (hints : Hints) :
    ofJson? hints.toJson = some hints := by
  have hfields : hints.toJson.fields? ["names", "inferred"] =
      some [some (.array (hints.names.names.map .text)),
        some (.bool hints.inferred)] :=
    fields?_ofEntries (by simp)
  have hnames :
      (hints.names.names.map Json.text).mapM text? = some hints.names.names :=
    mapM_map_eq_some fun _ _ => rfl
  simp only [ofJson?, hfields, items?, bool?, hnames, Option.bind_eq_bind,
    Option.bind_some, NameMap.setOfList_names]
  rfl

theorem Record.ofJson?_toJson {record : Record}
    (h : ∀ ref ∈ record.fields.values, ref.index < Ref.limit) :
    ofJson? record.toJson = some record := by
  have hfields : record.toJson.fields? ["fields", "pinned"] =
      some [some (ofNameMap Ref.toJson record.fields),
        some (.bool record.pinned)] :=
    fields?_ofEntries (by simp)
  simp only [ofJson?, hfields, refMap_ofJson?_toJson h, bool?,
    Option.bind_eq_bind, Option.bind_some]
  rfl

namespace Shape

theorem literalsOfJson?_none :
    literalsOfJson? (ofEntries [("histogram", .null)]) = some none := by
  have hfields : (ofEntries [("histogram", .null)]).fields? ["histogram"] =
      some [some .null] :=
    fields?_ofEntries (by simp)
  rw [literalsOfJson?, hfields]

theorem literalsOfJson?_some {literals : Tally}
    (h : ∀ count ∈ literals.values, count < countLimit) :
    literalsOfJson? (ofEntries [("histogram", literals.toJson)]) =
      some (some literals) := by
  have hfields :
      (ofEntries [("histogram", literals.toJson)]).fields? ["histogram"] =
        some [some literals.toJson] := fields?_ofEntries (by simp)
  rw [literalsOfJson?, hfields]
  exact congrArg (Option.map some) (Tally.ofJson?_toJson h)

theorem ofJson?_toJson {shape : Shape}
    (hchildren : ∀ ref ∈ shape.children, ref.index < Ref.limit)
    (hcounts : ∀ count ∈ shape.counts, count < countLimit) :
    ofJson? shape.toJson = some shape := by
  cases shape with
  | primitive base =>
      exact congrArg (Option.map primitive) base.ofJson?_toJson
  | text literals =>
      cases literals with
      | none => exact congrArg (Option.map text) literalsOfJson?_none
      | some literals =>
          exact congrArg (Option.map text) (literalsOfJson?_some hcounts)
  | formatted format =>
      exact congrArg (Option.map formatted) format.ofJson?_toJson
  | array item =>
      exact congrArg (Option.map array)
        (Ref.ofJson?_toJson (hchildren item List.mem_cons_self))
  | map element =>
      exact congrArg (Option.map map)
        (Ref.ofJson?_toJson (hchildren element List.mem_cons_self))
  | record content =>
      exact congrArg (Option.map record) (Record.ofJson?_toJson hchildren)
  | union alternatives =>
      have hrefs :
          (alternatives.map Ref.toJson).mapM Ref.ofJson? = some alternatives :=
        mapM_map_eq_some fun ref href => Ref.ofJson?_toJson (hchildren ref href)
      exact congrArg (Option.bind · fun refs => some (union refs)) hrefs

end Shape

theorem Node.ofJson?_toJson {node : Node} (h : node.InRange) :
    ofJson? node.toJson = some node := by
  have hfields : node.toJson.fields? ["ty", "names"] =
      some [some node.shape.toJson, some node.hints.toJson] :=
    fields?_ofEntries (by simp)
  simp only [ofJson?, hfields, Shape.ofJson?_toJson h.children h.counts,
    Hints.ofJson?_toJson, Option.bind_eq_bind, Option.bind_some]
  rfl

theorem Graph.ofJson?_toJson {graph : Graph} (h : graph.InRange) :
    ofJson? graph.toJson = some graph := by
  have hfields : graph.toJson.fields? ["nodes", "roots"] =
      some [some (.array (graph.nodes.toList.map Node.toJson)),
        some (ofNameMap Ref.toJson graph.roots)] := fields?_ofEntries (by simp)
  have hnodes : (graph.nodes.toList.map Node.toJson).mapM Node.ofJson? =
      some graph.nodes.toList :=
    mapM_map_eq_some fun node hnode => Node.ofJson?_toJson (h.nodes node hnode)
  simp only [ofJson?, hfields, items?, hnodes, refMap_ofJson?_toJson h.roots,
    Option.bind_eq_bind, Option.bind_some, Array.toArray_toList]
  rfl

end Decoding

section Writing

theorem Ref.writable_toJson (ref : Ref) : ref.toJson.Writable :=
  writable_nat ref.index

theorem Tally.writable_toJson (tally : Tally) : tally.toJson.Writable :=
  writable_ofNameMap writable_nat tally

theorem Hints.writable_toJson (hints : Hints) : hints.toJson.Writable :=
  writable_pair _ _ (writable_list Writable.text hints.names.names)
    (.bool hints.inferred)

theorem Record.writable_toJson (record : Record) : record.toJson.Writable :=
  writable_pair _ _ (writable_ofNameMap Ref.writable_toJson record.fields)
    (.bool record.pinned)

theorem Shape.writable_toJson (shape : Shape) : shape.toJson.Writable := by
  cases shape with
  | primitive base => exact writable_single _ (.text base.tag)
  | text literals =>
      have hliterals : ((literals.map Tally.toJson).getD .null).Writable := by
        cases literals with
        | none => exact .null
        | some literals => exact literals.writable_toJson
      exact writable_single _ (writable_single _ hliterals)
  | formatted format => exact writable_single _ (.text format.tag)
  | array item => exact writable_single _ item.writable_toJson
  | map element => exact writable_single _ element.writable_toJson
  | record content => exact writable_single _ content.writable_toJson
  | union alternatives =>
      exact writable_single _ (writable_list Ref.writable_toJson alternatives)

theorem Node.writable_toJson (node : Node) : node.toJson.Writable :=
  writable_pair _ _ node.shape.writable_toJson node.hints.writable_toJson

theorem Graph.writable_toJson (graph : Graph) : graph.toJson.Writable :=
  writable_pair _ _ (writable_list Node.writable_toJson graph.nodes.toList)
    (writable_ofNameMap Ref.writable_toJson graph.roots)

end Writing

namespace Graph

variable {graph other : Graph}

theorem read?_of_inRange (h : graph.InRange) :
    read? graph.write = some graph := by
  rw [read?, write, parse?_render graph.writable_toJson]
  exact ofJson?_toJson h

theorem write_injective (h : graph.InRange) (hother : other.InRange)
    (heq : other.write = graph.write) : other = graph :=
  Option.some.inj (by rw [← read?_of_inRange hother, heq, read?_of_inRange h])

def replaceNode (graph : Graph) (position : Nat) (node : Node) : Graph :=
  { graph with nodes := graph.nodes.setIfInBounds position node }

theorem InRange.replaceNode (h : graph.InRange) (position : Nat) {node : Node}
    (hnode : node.InRange) : (graph.replaceNode position node).InRange where
  nodes member hmember := by
    rw [Graph.replaceNode, Array.toList_setIfInBounds] at hmember
    rcases List.mem_or_eq_of_mem_set hmember with hold | rfl
    · exact h.nodes member hold
    · exact hnode
  roots := h.roots

/-- A graph is read back from its JSON text, so two graphs with the same text
are equal.  A text without tally and a text with an empty one are told apart. -/
theorem read?_write (h : graph.InRange) :
    read? graph.write = some graph ∧
      (∀ other : Graph, other.InRange →
        other.write = graph.write → other = graph) ∧
      ∀ (position : Nat) (hints : Hints),
        graph.nodes[position]? = some ⟨.text none, hints⟩ →
        (graph.replaceNode position ⟨.text (some ∅), hints⟩).write ≠
          graph.write := by
  refine ⟨read?_of_inRange h, fun other hother => write_injective h hother, ?_⟩
  intro position hints hnode hsame
  have hempty : (⟨.text (some ∅), hints⟩ : Node).InRange := ⟨nofun, nofun⟩
  have hlt := (Array.getElem?_eq_some_iff.mp hnode).1
  have hreplaced :
      (graph.replaceNode position ⟨.text (some ∅), hints⟩).nodes[position]? =
        some ⟨.text (some ∅), hints⟩ :=
    Array.getElem?_setIfInBounds_self_of_lt hlt
  rw [write_injective h (h.replaceNode position hempty) hsame, hnode]
    at hreplaced
  cases hreplaced

theorem read?_write_extremes :
    extremes.InRange ∧ read? extremes.write = some extremes ∧
      (extremes.replaceNode 0 ⟨.text (some ∅), .blank⟩).write ≠
        extremes.write :=
  have h := extremes_storable.toInRange
  ⟨h, (read?_write h).1, (read?_write h).2.2 0 .blank rfl⟩

end Graph

end ShapeMerge
