import ShapeMerge.Merging.Pass
import ShapeMerge.Graph.Basic
import ShapeMerge.Json.Value
import ShapeMerge.Json.Text

namespace ShapeMerge

/-!
The JSON form of graphs, settings and summaries.  A decoder accepts what its
encoder writes and the other spellings of structures and constructors; it checks
ranges and nothing else, so a decoded graph may break the invariants of graphs.
-/

open Json

def Ref.toJson (ref : Ref) : Json := .nat ref.index

def Ref.ofJson? (json : Json) : Option Ref :=
  (json.natBelow? Ref.limit).map Ref.mk

def Primitive.tag : Primitive → String
  | any => "Any"
  | null => "Null"
  | bool => "Bool"
  | integer => "Integer"
  | double => "Double"

def Primitive.toJson (base : Primitive) : Json := .text base.tag

def Primitive.ofJson? : Json → Option Primitive :=
  constant? Primitive.all Primitive.tag

def Format.tag : Format → String
  | date => "Date"
  | time => "Time"
  | dateTime => "DateTime"
  | uuid => "Uuid"
  | uri => "Uri"
  | integerText => "IntegerString"
  | boolText => "BoolString"

def Format.toJson (format : Format) : Json := .text format.tag

def Format.ofJson? : Json → Option Format := constant? Format.all Format.tag

def Format.ofTag? (tag : String) : Option Format :=
  Format.all.find? (·.tag = tag)

def Treatment.tag : Treatment → String
  | keep => "Keep"
  | lower => "AsString"

def Treatment.toJson (treatment : Treatment) : Json := .text treatment.tag

def Treatment.ofJson? : Json → Option Treatment :=
  constant? [.keep, .lower] Treatment.tag

def Kind.toJson : Kind → Json
  | primitive base => ofEntries [("Primitive", base.toJson)]
  | text => .text "String"
  | formatted format => ofEntries [("Formatted", format.toJson)]
  | array => .text "Array"
  | map => .text "Map"
  | record => .text "Record"
  | union => .text "Union"

def Kind.ofJson? (json : Json) : Option Kind :=
  match json.variant? with
  | some ("Primitive", argument) => (Primitive.ofJson? argument).map .primitive
  | some ("Formatted", argument) => (Format.ofJson? argument).map .formatted
  | some ("String", .null) => some .text
  | some ("Array", .null) => some .array
  | some ("Map", .null) => some .map
  | some ("Record", .null) => some .record
  | some ("Union", .null) => some .union
  | _ => none

def Hints.toJson (hints : Hints) : Json :=
  ofEntries [("names", .array (hints.names.names.map .text)),
    ("inferred", .bool hints.inferred)]

def Hints.ofJson? (json : Json) : Option Hints :=
  match json.fields? ["names", "inferred"] with
  | some [some names, some inferred] => do
      let names ← (← names.items?).mapM text?
      return ⟨.ofList names, ← inferred.bool?⟩
  | _ => none

def Tally.toJson (tally : Tally) : Json := ofNameMap .nat tally

def Tally.ofJson? : Json → Option Tally := nameMap? (natBelow? countLimit)

def Record.toJson (record : Record) : Json :=
  ofEntries [("fields", ofNameMap Ref.toJson record.fields),
    ("pinned", .bool record.pinned)]

def Record.ofJson? (json : Json) : Option Record :=
  match json.fields? ["fields", "pinned"] with
  | some [some fields, some pinned] => do
      return ⟨← nameMap? Ref.ofJson? fields, ← pinned.bool?⟩
  | _ => none

/-- The literals of a text, where a missing field is `null`. -/
def Shape.literalsOfJson? (json : Json) : Option (Option Tally) :=
  match json.fields? ["histogram"] with
  | some [none] => some none
  | some [some .null] => some none
  | some [some literals] => (Tally.ofJson? literals).map some
  | _ => none

def Shape.toJson : Shape → Json
  | primitive base => ofEntries [("Primitive", base.toJson)]
  | text literals =>
      ofEntries [("String",
        ofEntries [("histogram", (literals.map Tally.toJson).getD .null)])]
  | formatted format => ofEntries [("Formatted", format.toJson)]
  | array item => ofEntries [("Array", item.toJson)]
  | map element => ofEntries [("Map", element.toJson)]
  | record content => ofEntries [("Record", content.toJson)]
  | union alternatives =>
      ofEntries [("Union", .array (alternatives.map Ref.toJson))]

def Shape.ofJson? (json : Json) : Option Shape :=
  match json.variant? with
  | some ("Primitive", argument) => (Primitive.ofJson? argument).map .primitive
  | some ("String", argument) => (literalsOfJson? argument).map .text
  | some ("Formatted", argument) => (Format.ofJson? argument).map .formatted
  | some ("Array", argument) => (Ref.ofJson? argument).map .array
  | some ("Map", argument) => (Ref.ofJson? argument).map .map
  | some ("Record", argument) => (Record.ofJson? argument).map .record
  | some ("Union", argument) => do
      let alternatives ← (← argument.items?).mapM Ref.ofJson?
      return .union alternatives
  | _ => none

def Node.toJson (node : Node) : Json :=
  ofEntries [("ty", node.shape.toJson), ("names", node.hints.toJson)]

def Node.ofJson? (json : Json) : Option Node :=
  match json.fields? ["ty", "names"] with
  | some [some shape, some hints] => do
      return ⟨← Shape.ofJson? shape, ← Hints.ofJson? hints⟩
  | _ => none

namespace Graph

def toJson (graph : Graph) : Json :=
  ofEntries [
    ("nodes", .array (graph.nodes.toList.map Node.toJson)),
    ("roots", ofNameMap Ref.toJson graph.roots)]

def ofJson? (json : Json) : Option Graph :=
  match json.fields? ["nodes", "roots"] with
  | some [some nodes, some roots] => do
      let nodes ← (← nodes.items?).mapM Node.ofJson?
      return ⟨nodes.toArray, ← nameMap? Ref.ofJson? roots⟩
  | _ => none

def write (graph : Graph) : String := graph.toJson.render

def read? (text : String) : Option Graph := do
  ofJson? (← Json.parse? text)

end Graph

def FormatPolicy.toJson (policy : FormatPolicy) : Json :=
  ofEntries
    [("overrides", ofEntries (policy.rules.map fun (format, treatment) =>
      (format.tag, treatment.toJson)))]

def FormatPolicy.ofJson? (json : Json) : Option FormatPolicy :=
  match json.fields? ["overrides"] with
  | some [some overrides] => do
      let rules ← (← overrides.entries?).mapM fun (name, value) => do
        return (← Format.ofTag? name, ← Treatment.ofJson? value)
      return .ofRules rules
  | _ => none

namespace Settings

def toJson (settings : Settings Binary64) : Json :=
  ofEntries [
    ("required_overlap", .float settings.overlap),
    ("string_mapping", settings.policy.toJson)]

def ofJson? (json : Json) : Option (Settings Binary64) :=
  match json.fields? ["required_overlap", "string_mapping"] with
  | some [some overlap, some policy] => do
      return ⟨← overlap.float?, ← FormatPolicy.ofJson? policy⟩
  | _ => none

def write (settings : Settings Binary64) : String := settings.toJson.render

def read? (text : String) : Option (Settings Binary64) := do
  ofJson? (← Json.parse? text)

end Settings

namespace Summary

def toJson (summary : Summary) : Json :=
  ofEntries [
    ("candidates", .nat summary.candidates),
    ("cliques", .array (summary.cliques.map fun clique =>
      .array (clique.map Ref.toJson))),
    ("merged", .array (summary.merged.map Ref.toJson))]

def ofJson? (json : Json) : Option Summary :=
  match json.fields? ["candidates", "cliques", "merged"] with
  | some [some candidates, some cliques, some merged] => do
      let cliques ← (← cliques.items?).mapM fun clique => do
        (← clique.items?).mapM Ref.ofJson?
      let merged ← (← merged.items?).mapM Ref.ofJson?
      return ⟨← candidates.natBelow? countLimit, cliques, merged⟩
  | _ => none

end Summary

end ShapeMerge
