import ShapeMerge.FormatPolicy
import ShapeMerge.Graph.Basic

namespace ShapeMerge

/-!
Building a graph node by node.  A cyclic shape is built by reserving a slot,
referring to it from its parts and filling it last.  `Builder.toGraph` hands out
a graph only when every slot is filled and the graph passes its check.
-/

structure Builder where
  slots : Array (Option Node)
  roots : NameMap Ref
  policy : FormatPolicy
  deriving DecidableEq

namespace Builder

def start (policy : FormatPolicy) : Builder := ⟨#[], ∅, policy⟩

def empty : Builder := start .lenient

instance : Inhabited Builder := ⟨empty⟩

def size (builder : Builder) : Nat :=
  builder.slots.size

def isEmpty (builder : Builder) : Bool :=
  builder.slots.isEmpty

def has (builder : Builder) (ref : Ref) : Bool :=
  ref.index < builder.size

def node? (builder : Builder) (ref : Ref) : Option Node :=
  builder.slots[ref.index]?.join

def shape? (builder : Builder) (ref : Ref) : Option Shape :=
  (builder.node? ref).map (·.shape)

def kind? (builder : Builder) (ref : Ref) : Option Kind :=
  (builder.shape? ref).map (·.kind)

def next (builder : Builder) : Ref := ⟨builder.size⟩

def require (builder : Builder) (refs : List Ref) : Except GraphFault Unit :=
  match refs.find? (!builder.has ·) with
  | some ref => .error (.missing ref)
  | none => .ok ()

def push (builder : Builder) (slot : Option Node) : Ref × Builder :=
  (builder.next, { builder with slots := builder.slots.push slot })

def reserve (builder : Builder) : Ref × Builder :=
  builder.push none

def append (builder : Builder) (shape : Shape) (hints : Hints) :
    Ref × Builder :=
  builder.push (some ⟨shape, hints⟩)

def fill (builder : Builder) (slot : Ref) (shape : Shape) (hints : Hints) :
    Except GraphFault (Ref × Builder) :=
  match builder.slots[slot.index]? with
  | none => .error (.missing slot)
  | some (some _) => .error (.alreadyFilled slot)
  | some none =>
      let slots := builder.slots.setIfInBounds slot.index (some ⟨shape, hints⟩)
      .ok (slot, { builder with slots })

def primitive (builder : Builder) (base : Primitive) : Ref × Builder :=
  builder.append (.primitive base) .blank

def text (builder : Builder) (hints : Hints) (literals : Option Tally) :
    Ref × Builder :=
  builder.append (.text literals) hints

def formatted (builder : Builder) (hints : Hints) (format : Format) :
    Ref × Builder :=
  builder.append (builder.policy.lower (.formatted format)) hints

def array (builder : Builder) (hints : Hints) (item : Ref) :
    Except GraphFault (Ref × Builder) := do
  builder.require [item]
  return builder.append (.array item) hints

def map (builder : Builder) (hints : Hints) (element : Ref) :
    Except GraphFault (Ref × Builder) := do
  builder.require [element]
  return builder.append (.map element) hints

def record (builder : Builder) (hints : Hints) (content : Record)
    (slot : Option Ref) : Except GraphFault (Ref × Builder) := do
  builder.require content.fields.values
  match slot with
  | some slot => builder.fill slot (.record content) hints
  | none => return builder.append (.record content) hints

/-- Members whose slots hold unions are replaced by the members of those. -/
def flatten (builder : Builder) (members : List Ref) : List Ref :=
  members.flatMap fun member =>
    match builder.shape? member with
    | some (.union alternatives) => alternatives
    | _ => [member]

/-- A union of the flattened members without repetition.  Two filled members of
one kind are refused. -/
def union (builder : Builder) (hints : Hints) (members : List Ref) :
    Except GraphFault (Ref × Builder) := do
  builder.require members
  let alternatives := (builder.flatten members).eraseDups
  match Kind.repeated? [] (alternatives.filterMap builder.kind?) with
  | some kind => .error (.repeatedKind builder.next kind.label)
  | none => return builder.append (.union alternatives) hints

/-- A shape that also admits `null`.  `null` itself and a union that has it stay
as they are; any other union is extended into a new one, and all else is put
into a union with `null`. -/
def nullable (builder : Builder) (hints : Hints) (ref : Ref) :
    Except GraphFault Ref × Builder :=
  match builder.require [ref] with
  | .error error => (.error error, builder)
  | .ok () =>
      let members := builder.flatten [ref]
      if members.any (builder.kind? · = some .null) then (.ok ref, builder)
      else
        let (null, extended) := builder.primitive .null
        match extended.union hints (null :: members) with
        | .ok (made, finished) => (.ok made, finished)
        | .error error => (.error error, extended)

def root (builder : Builder) (name : String) (target : Ref) :
    Except GraphFault Builder := do
  builder.require [target]
  if builder.roots.contains name then .error (.repeatedRoot name)
  else return { builder with roots := builder.roots.insert name target }

def unfilled? (builder : Builder) : Option Ref :=
  (builder.slots.findIdx? (·.isNone)).map Ref.mk

def toGraph (builder : Builder) : Except GraphFault Graph :=
  match builder.unfilled? with
  | some slot => .error (.unfilled slot)
  | none => do
      let graph : Graph := ⟨builder.slots.filterMap id, builder.roots⟩
      graph.check
      return graph

end Builder

end ShapeMerge
