import ShapeMerge.Binary.Codec
import ShapeMerge.Proofs.Binary.Decoders
import ShapeMerge.Proofs.Graph.Ranges

namespace ShapeMerge

open Binary

theorem steady_ref : Steady Ref.decode :=
  (steady_nat? short).map? Ref.mk

theorem restores_ref {ref : Ref} (h : ref.index < Ref.limit) :
    Restores Ref.decode ref.encode ref :=
  (restores_nat? h).map? Ref.mk

theorem steady_hints : Steady Hints.decode :=
  (steady_text?.list?.pair? steady_bool?).map? _

theorem restores_hints {hints : Hints}
    (h : ∀ length ∈ hints.names.lengths, length < countLimit) :
    Restores Hints.decode hints.encode hints := by
  have hnames : Restores (list? text?) (ofList ofText hints.names.names)
      hints.names.names :=
    restores_list?
      (NameMap.length_names hints.names ▸ NameMap.size_of_lengths h)
      fun name hname => restores_text? (NameMap.names_of_lengths h name hname)
  have hall : Restores Hints.decode hints.encode
      ⟨NameSet.ofList hints.names.names, hints.inferred⟩ :=
    (hnames.pair? (restores_bool? hints.inferred)).map? _
  rwa [NameMap.setOfList_names] at hall

theorem steady_tally : Steady Tally.decode :=
  (steady_nat? long).nameMap?

theorem restores_tally {tally : Tally}
    (hlengths : ∀ length ∈ tally.lengths, length < countLimit)
    (hcounts : ∀ count ∈ tally.values, count < countLimit) :
    Restores Tally.decode tally.encode tally :=
  restores_nameMap? (NameMap.size_of_lengths hlengths)
    (NameMap.names_of_lengths hlengths) fun count hcount =>
      restores_nat? (hcounts count hcount)

theorem restores_refs {map : NameMap Ref}
    (hlengths : ∀ length ∈ map.lengths, length < countLimit)
    (hrefs : ∀ ref ∈ map.values, ref.index < Ref.limit) :
    Restores (nameMap? Ref.decode) (ofNameMap Ref.encode map) map :=
  restores_nameMap? (NameMap.size_of_lengths hlengths)
    (NameMap.names_of_lengths hlengths) fun ref href =>
      restores_ref (hrefs ref href)

theorem steady_record : Steady Record.decode :=
  (steady_ref.nameMap?.pair? steady_bool?).map? _

theorem restores_record {record : Record}
    (hlengths : ∀ length ∈ record.fields.lengths, length < countLimit)
    (hrefs : ∀ ref ∈ record.fields.values, ref.index < Ref.limit) :
    Restores Record.decode record.encode record :=
  ((restores_refs hlengths hrefs).pair? (restores_bool? record.pinned)).map? _

namespace Shape

theorem decode_eq : decode = followed (nat? short) decodeArgument := rfl

theorem steady_decodeArgument (number : Nat) :
    Steady (decodeArgument number) := by
  unfold decodeArgument
  split
  · exact (steady_constant? Primitive.all).map? primitive
  · exact steady_tally.option?.map? text
  · exact (steady_constant? Format.all).map? formatted
  · exact steady_ref.map? array
  · exact steady_ref.map? map
  · exact steady_record.map? record
  · exact steady_ref.list?.map? union
  · exact fun _ _ _ _ h => nomatch h

theorem restores_decodeArgument {shape : Shape}
    (hchildren : ∀ ref ∈ shape.children, ref.index < Ref.limit)
    (hcounts : ∀ count ∈ shape.counts, count < countLimit)
    (hlengths : ∀ length ∈ shape.lengths, length < countLimit) :
    Restores (decodeArgument shape.number) shape.encodeArgument shape := by
  cases shape with
  | primitive base =>
      have hconstant :
          Restores (constant? Primitive.all) (ofNat short base.rank) base := by
        cases base <;> exact restores_constant? rfl (by decide)
      exact hconstant.map? primitive
  | text literals =>
      have hliterals : Restores (option? Tally.decode)
          (ofOption Tally.encode literals) literals :=
        Restores.option? fun tally htally => by
          subst htally
          exact restores_tally hlengths hcounts
      exact hliterals.map? text
  | formatted format =>
      have hconstant :
          Restores (constant? Format.all) (ofNat short format.rank) format := by
        cases format <;> exact restores_constant? rfl (by decide)
      exact hconstant.map? formatted
  | array item =>
      exact (restores_ref (hchildren item List.mem_cons_self)).map? array
  | map element =>
      exact (restores_ref (hchildren element List.mem_cons_self)).map? map
  | record content => exact (restores_record hlengths hchildren).map? record
  | union alternatives =>
      have hlength : alternatives.length < countLimit :=
        hlengths _ List.mem_cons_self
      exact (restores_list? hlength fun ref href =>
        restores_ref (hchildren ref href)).map? union

theorem steady_decode : Steady decode := by
  rw [decode_eq]
  exact (steady_nat? short).followed steady_decodeArgument

theorem number_lt (shape : Shape) : shape.number < room short := by
  cases shape <;> rw [number] <;> decide

end Shape

theorem steady_node : Steady Node.decode :=
  (Shape.steady_decode.pair? steady_hints).map? _

theorem restores_node {node : Node} (hrange : node.InRange)
    (hlengths : ∀ length ∈ node.lengths, length < countLimit) :
    Restores Node.decode node.encode node := by
  obtain ⟨hshapeLengths, hhintLengths⟩ := List.forall_mem_append.mp hlengths
  have hshape : Restores Shape.decode node.shape.encode node.shape := by
    rw [Shape.decode_eq]
    exact (restores_nat? node.shape.number_lt).followed
      (Shape.restores_decodeArgument hrange.children hrange.counts
        hshapeLengths)
  exact (hshape.pair? (restores_hints hhintLengths)).map? _

namespace Graph

theorem steady_decode : Steady decode :=
  (steady_node.list?.pair? steady_ref.nameMap?).map? _

theorem restores_decode {graph : Graph} (h : graph.Storable) :
    Restores decode graph.encode graph := by
  have hnodes : Restores (list? Node.decode)
      (ofList Node.encode graph.nodes.toList) graph.nodes.toList :=
    restores_list? (by rw [Array.length_toList]; exact h.size) fun node hnode =>
      restores_node (h.nodes node hnode) (h.nodeLengths node hnode)
  exact (hnodes.pair? (restores_refs h.rootLengths h.roots)).map? _

/-- A graph is decoded from its bytes, whatever follows them, and from no strict
prefix of them; so what follows it is certain, and no other graph has the same
bytes. -/
theorem decode_encode {graph : Graph} (h : graph.Storable) :
    (∀ rest, decode (graph.encode ++ rest) = some (graph, rest)) ∧
      (∀ front : List UInt8, front.IsPrefix graph.encode →
        front ≠ graph.encode → decode front = none) ∧
      ∀ other : Graph, other.Storable →
        ∀ s t, graph.encode ++ s = other.encode ++ t → graph = other ∧ s = t :=
  have hrestores := restores_decode h
  ⟨hrestores, fun _ hstart hstrict =>
    hrestores.refuses steady_decode hstart hstrict,
    fun _ hother _ _ hsame => hrestores.unique (restores_decode hother) hsame⟩

theorem decode_encode_extremes :
    extremes.Storable ∧
      decode (extremes.encode ++ [1, 0]) = some (extremes, [1, 0]) ∧
      decode extremes.encode.dropLast = none := by
  have hstrict : extremes.encode.dropLast ≠ extremes.encode := by
    intro h
    have hlength := congrArg List.length h
    simp [encode, ofList, ofNat, long] at hlength
  exact ⟨extremes_storable, (decode_encode extremes_storable).1 [1, 0],
    (decode_encode extremes_storable).2.1 _ (List.dropLast_prefix _) hstrict⟩

end Graph

end ShapeMerge
