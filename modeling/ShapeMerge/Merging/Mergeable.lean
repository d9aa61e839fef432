import ShapeMerge.Graph.Alternatives
import ShapeMerge.Graph.Equivalence
import ShapeMerge.Number.Binary64
import ShapeMerge.Text.Quoted

namespace ShapeMerge

/-!
Whether two records can be merged.  They have to be close in size and share
enough field names, and the shapes under each shared name have to agree: both
sides have the same number of alternatives besides `null`, and these pair up by
kind.  Paired texts agree whatever their literals, and any other pair has to be
equivalent.  A side that is only `null` agrees with everything.
-/

/-- What can go wrong while records are merged.  Only unusable settings are the
caller's fault. -/
inductive MergeFault where
  /-- Two records are close enough in size, and yet the smaller one is too
  small. -/
  | negativeBudget (larger smaller needed : Nat)
  | lostField (name : String)
  | mixedTexts (field : String) (other : String)
  | notRecord (ref : Ref)
  | unusable (reason : String)
  | graph (error : GraphFault)
  deriving DecidableEq

namespace MergeFault

def message : MergeFault → String
  | negativeBudget larger smaller needed =>
      s!"negative fault budget: {smaller} fields vs {larger} fields " ++
        s!"needs overlap {needed}"
  | lostField name =>
      "common field " ++ Text.quoted name ++ " is missing on lookup"
  | mixedTexts field other =>
      "field " ++ Text.quoted field ++ " mixes string and " ++ other ++ " types"
  | notRecord ref => s!"node {ref} is not a record"
  | unusable reason => "invalid configuration: " ++ reason
  | graph error => "graph error: " ++ error.message

def isInternal : MergeFault → Bool
  | unusable _ => false
  | _ => true

end MergeFault

namespace Graph

def pairUp (graph : Graph) (others : List Ref) :
    List Ref → Except GraphFault Bool
  | [] => .ok true
  | ref :: rest =>
      match graph.kind? ref with
      | none => .error (.missing ref)
      | some kind =>
          match graph.ofKind? others kind with
          | none => .ok false
          | some other =>
              if kind.isText || graph.equivalent ref other then
                pairUp graph others rest
              else .ok false

def agree (graph : Graph) (left right : List Ref) : Except GraphFault Bool :=
  if left.length ≠ right.length then .ok false
  else
    match right.find? (graph.kind? · = none) with
    | some ref => .error (.missing ref)
    | none => graph.pairUp right left

def fieldAgrees (graph : Graph) (left right : Ref) :
    Except GraphFault Bool := do
  let leftAlternatives ← graph.alternatives left
  let rightAlternatives ← graph.alternatives right
  if leftAlternatives.isEmpty || rightAlternatives.isEmpty then return true
  else graph.agree leftAlternatives rightAlternatives

def sharedNames (left right : Record) : List String :=
  left.fields.names.filter (· ∈ right.fields.names)

/-- Looks up a field that is known to be there. -/
def sharedField (content : Record) (name : String) : Except MergeFault Ref :=
  match content.fields.find? name with
  | some ref => .ok ref
  | none => .error (.lostField name)

def fieldsAgree (graph : Graph) (left right : Record) :
    List String → Except MergeFault Bool
  | [] => .ok true
  | name :: rest => do
      let leftField ← sharedField left name
      let rightField ← sharedField right name
      if ← (graph.fieldAgrees leftField rightField).mapError .graph then
        fieldsAgree graph left right rest
      else return false

/-- Whether two records can be merged, for a `smaller` one with no more fields
than `larger`. -/
def absorbable [Share σ] (graph : Graph) (share : σ) (larger smaller : Record) :
    Except MergeFault Bool :=
  let wanted := Share.scale share larger.fields.size
  let size := smaller.fields.size
  let shared := sharedNames smaller larger
  if wanted.exceeds size then .ok false
  else if size < wanted.ceiling then
    .error (.negativeBudget larger.fields.size size wanted.ceiling)
  else if size - wanted.ceiling < size - shared.length then .ok false
  else graph.fieldsAgree smaller larger shared

def mergeable [Share σ] (graph : Graph) (share : σ) (left right : Record) :
    Except MergeFault Bool :=
  if right.fields.size ≤ left.fields.size then graph.absorbable share left right
  else graph.absorbable share right left

def mergeableRefs [Share σ] (graph : Graph) (share : σ) (left right : Ref) :
    Except MergeFault Bool :=
  match graph.record? left, graph.record? right with
  | none, _ => .error (.notRecord left)
  | _, none => .error (.notRecord right)
  | some leftRecord, some rightRecord =>
      graph.mergeable share leftRecord rightRecord

end Graph

end ShapeMerge
