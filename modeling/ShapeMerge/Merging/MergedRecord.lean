import ShapeMerge.Collapse.Basic
import ShapeMerge.Merging.Mergeable

namespace ShapeMerge

/-!
Merging a group of records into one.  Every field that some member has is a
field of the merged record, made from the contents found under its name:

- nothing but `null`: `null`;
- texts: the sum of their tallies if all are tallied, otherwise the first text;
- anything else: the first shape, carried over.

The field admits `null` if some member lacks it or admits `null` there.
Literals that are given up are reported.
-/

/-- What several records hold under one field name. -/
structure FieldContent where
  /-- One reference for each record that has something other than `null`, in
  record order. -/
  shapes : List Ref
  nullable : Bool
  hints : Hints
  deriving DecidableEq

namespace Graph

/-- What one field adds: its only alternative, or the field whole if it has
several. -/
def contribution (graph : Graph) (ref : Ref) :
    Except GraphFault (List Ref) := do
  match ← graph.alternatives ref with
  | [] => return []
  | [single] => return [single]
  | _ => return [ref]

def fieldContent (graph : Graph) (records : List Record) (name : String) :
    Except GraphFault FieldContent := do
  let fields := records.map (·.fields.find? name)
  let present := fields.filterMap id
  let shapes ← present.mapM graph.contribution
  return {
    shapes := shapes.flatten
    nullable := fields.any fun field => (field.map graph.nullable).getD true
    hints := .joinAll (present.filterMap graph.hints?) }

def requireRecord (graph : Graph) (ref : Ref) : Except MergeFault Record :=
  match graph.record? ref with
  | some record => .ok record
  | none => .error (.notRecord ref)

def fieldContents (graph : Graph) (members : List Ref) :
    Except MergeFault (NameMap FieldContent) := do
  let records ← members.mapM graph.requireRecord
  let names := (NameSet.unions (records.map (·.fields.map fun _ => ()))).names
  let contents ← names.mapM fun name => do
    let content ← (graph.fieldContent records name).mapError .graph
    return (name, content)
  return .ofList contents

end Graph

inductive Loss where
  | mixedTexts
  | differingUnions
  deriving DecidableEq

def Loss.message : Loss → String
  | mixedTexts => "mixed enumerated and plain strings; enumeration dropped"
  | differingUnions =>
      "union members carry differing enumerations; enumeration dropped"

structure Warning where
  field : String
  loss : Loss
  deriving DecidableEq

namespace Graph

def textLiterals? (graph : Graph) (ref : Ref) : Option (Option Tally) :=
  match graph.shape? ref with
  | some (.text literals) => some literals
  | _ => none

/-- Whether the texts among the alternatives of several shapes differ in their
literals from the first of them, `first` if it has been met. -/
def textsDiffer (graph : Graph) (first : Option (Option Tally)) :
    List Ref → Except GraphFault Bool
  | [] => .ok false
  | ref :: rest => do
      let texts := (← graph.alternatives ref).filterMap graph.textLiterals?
      let first := first.or texts.head?
      if texts.any (some · ≠ first) then return true
      else textsDiffer graph first rest

def collectTexts (graph : Graph) (field : String) :
    List Ref → Except MergeFault (List (Option Tally))
  | [] => .ok []
  | ref :: rest =>
      match graph.shape? ref with
      | none => .error (.graph (.missing ref))
      | some (.text literals) => do
          let others ← collectTexts graph field rest
          return literals :: others
      | some shape => .error (.mixedTexts field shape.kind.label)

end Graph

namespace Passage

def carried (passage : Passage) (ref : Ref) (builder : Builder) :
    Except MergeFault (Ref × Builder) := do
  let target ← (passage.follow ref).mapError .graph
  return (target, builder)

def mergeTexts (passage : Passage) (field : String) (content : FieldContent)
    (representative : Ref) (builder : Builder) :
    Except MergeFault ((Ref × List Warning) × Builder) := do
  let texts ← passage.graph.collectTexts field content.shapes
  if texts.all (·.isSome) then
    let hints := Hints.joinAll (content.shapes.filterMap passage.graph.hints?)
    let (made, builder) := builder.text hints (some (.sum (texts.filterMap id)))
    return ((made, []), builder)
  else
    let warnings := if texts.any (·.isSome) then [⟨field, .mixedTexts⟩] else []
    let (made, builder) ← passage.carried representative builder
    return ((made, warnings), builder)

def mergeOthers (passage : Passage) (field : String) (content : FieldContent)
    (representative : Ref) (shape : Shape) (builder : Builder) :
    Except MergeFault ((Ref × List Warning) × Builder) := do
  let differ ←
    if shape.kind = .union then
      (passage.graph.textsDiffer none content.shapes).mapError .graph
    else pure false
  let warnings := if differ then [⟨field, .differingUnions⟩] else []
  let (made, builder) ← passage.carried representative builder
  return ((made, warnings), builder)

/-- The merged field, without regard to whether it admits `null`. -/
def mergeShapes (passage : Passage) (field : String) (content : FieldContent)
    (builder : Builder) : Except MergeFault ((Ref × List Warning) × Builder) :=
  match content.shapes with
  | [] =>
      let (made, builder) := builder.primitive .null
      .ok ((made, []), builder)
  | representative :: _ =>
      match passage.graph.shape? representative with
      | none => .error (.graph (.missing representative))
      | some (.text _) =>
          passage.mergeTexts field content representative builder
      | some shape =>
          passage.mergeOthers field content representative shape builder

def mergeField (passage : Passage) (field : String) (content : FieldContent)
    (builder : Builder) :
    Except MergeFault ((Ref × List Warning) × Builder) := do
  let ((merged, warnings), builder) ← passage.mergeShapes field content builder
  if content.nullable then
    match builder.nullable content.hints merged with
    | (.ok made, builder) => return ((made, warnings), builder)
    | (.error error, _) => .error (.graph error)
  else return ((merged, warnings), builder)

def mergeFields (passage : Passage) : List (String × FieldContent) → Builder →
    Except MergeFault ((List (String × Ref) × List Warning) × Builder)
  | [], builder => .ok (([], []), builder)
  | (field, content) :: rest, builder => do
      let ((merged, warnings), builder) ←
        passage.mergeField field content builder
      let ((fields, others), builder) ← mergeFields passage rest builder
      return (((field, merged) :: fields, warnings ++ others), builder)

def mergeRecords (passage : Passage) (members : List Ref) (slot : Ref)
    (builder : Builder) :
    Except MergeFault ((Ref × List Warning) × Builder) := do
  let contents ← passage.graph.fieldContents members
  let ((fields, warnings), builder) ←
    passage.mergeFields contents.entries builder
  let hints := Hints.joinAll (members.filterMap passage.graph.hints?)
  let (made, builder) ←
    (builder.record hints ⟨.ofList fields, false⟩ (some slot)).mapError .graph
  return ((made, warnings), builder)

end Passage

end ShapeMerge
