import ShapeMerge.Binary.Bytes
import ShapeMerge.Graph.Basic

namespace ShapeMerge

/-!
The binary form of graphs: fields one after the other, a constructor as its
number before its argument.
-/

open Binary

def Ref.encode (ref : Ref) : List UInt8 := ofNat short ref.index

def Ref.decode : Decoder Ref := map? Ref.mk (nat? short)

def Hints.encode (hints : Hints) : List UInt8 :=
  ofList ofText hints.names.names ++ ofBool hints.inferred

def Hints.decode : Decoder Hints :=
  map? (fun (names, inferred) => ⟨.ofList names, inferred⟩)
    (pair? (list? text?) bool?)

def Tally.encode (tally : Tally) : List UInt8 := ofNameMap (ofNat long) tally

def Tally.decode : Decoder Tally := nameMap? (nat? long)

def Record.encode (record : Record) : List UInt8 :=
  ofNameMap Ref.encode record.fields ++ ofBool record.pinned

def Record.decode : Decoder Record :=
  map? (fun (fields, pinned) => ⟨fields, pinned⟩)
    (pair? (nameMap? Ref.decode) bool?)

namespace Shape

def number : Shape → Nat
  | primitive _ => 0
  | text _ => 1
  | formatted _ => 2
  | array _ => 3
  | map _ => 4
  | record _ => 5
  | union _ => 6

def encodeArgument : Shape → List UInt8
  | primitive base => ofNat short base.rank
  | text literals => ofOption Tally.encode literals
  | formatted format => ofNat short format.rank
  | array item => item.encode
  | map element => element.encode
  | record content => content.encode
  | union alternatives => ofList Ref.encode alternatives

def encode (shape : Shape) : List UInt8 :=
  ofNat short shape.number ++ shape.encodeArgument

def decodeArgument : Nat → Decoder Shape
  | 0 => map? primitive (constant? Primitive.all)
  | 1 => map? text (option? Tally.decode)
  | 2 => map? formatted (constant? Format.all)
  | 3 => map? array Ref.decode
  | 4 => map? map Ref.decode
  | 5 => map? record Record.decode
  | 6 => map? union (list? Ref.decode)
  | _ => fun _ => none

def decode : Decoder Shape := fun bytes => do
  let (number, rest) ← nat? short bytes
  decodeArgument number rest

end Shape

def Node.encode (node : Node) : List UInt8 :=
  node.shape.encode ++ node.hints.encode

def Node.decode : Decoder Node :=
  map? (fun (shape, hints) => ⟨shape, hints⟩) (pair? Shape.decode Hints.decode)

namespace Graph

def encode (graph : Graph) : List UInt8 :=
  ofList Node.encode graph.nodes.toList ++ ofNameMap Ref.encode graph.roots

def decode : Decoder Graph :=
  map? (fun (nodes, roots) => ⟨nodes.toArray, roots⟩)
    (pair? (list? Node.decode) (nameMap? Ref.decode))

end Graph

end ShapeMerge
