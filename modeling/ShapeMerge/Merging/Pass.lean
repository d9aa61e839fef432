import ShapeMerge.Merging.MergedRecord
import ShapeMerge.Number.Shortest
import ShapeMerge.Partition

namespace ShapeMerge

/-!
The merge pass: the unpinned records, in discovery order, are partitioned into
cliques of mergeable records, and each clique is collapsed into one merged
record.
-/

structure Summary where
  /-- The number of records that could have been merged. -/
  candidates : Nat
  cliques : List (List Ref)
  /-- For each clique the merged record in the new graph. -/
  merged : List Ref
  deriving DecidableEq

namespace Summary

def changesNothing (summary : Summary) : Bool :=
  summary.cliques.isEmpty

def mergedRecords (summary : Summary) : Nat :=
  (summary.cliques.map (·.length)).foldr (· + ·) 0

def mergedInto? (summary : Summary) (ref : Ref) : Option Ref :=
  ((summary.cliques.zip summary.merged).find? (·.1.contains ref)).map (·.2)

end Summary

/-- How much of the larger record's fields the smaller one has to have, and what
becomes of formats. -/
structure Settings (σ : Type) where
  overlap : σ
  policy : FormatPolicy
  deriving DecidableEq

namespace Settings

def check [Share σ] (settings : Settings σ) : Except MergeFault Unit :=
  if (Share.value settings.overlap).isShare then .ok ()
  else
    .error (.unusable ("required_overlap must be in (0, 1], got " ++
      Share.label settings.overlap))

def usualOverlap : Binary64 := .ofRatio false 3 4

def usual : Settings Binary64 := ⟨usualOverlap, .lenient⟩

def exact : Settings Binary64 := { usual with overlap := .ofNat 1 }

def withPolicy (settings : Settings σ) (policy : FormatPolicy) : Settings σ :=
  { settings with policy }

end Settings

structure MergePass where
  graph : Graph
  summary : Summary
  /-- For each clique the literals given up in its merged record. -/
  warnings : List (List Warning)
  passage : Passage

namespace Graph

def candidates (graph : Graph) : List Ref :=
  (graph.records.filter (!·.2.pinned)).map (·.1)

def cliques [Share σ] (graph : Graph) (share : σ) :
    Except MergeFault (List (List Ref)) :=
  Partition.cliques (graph.mergeableRefs share) graph.candidates

def buildMerged (passage : Passage) (site : Site) (builder : Builder) :
    Except MergeFault ((Ref × Ref × List Warning) × Builder) := do
  let ((made, warnings), builder) ←
    passage.mergeRecords site.members site.slot builder
  return ((made, made, warnings), builder)

def mergeSimilar [Share σ] (graph : Graph) (settings : Settings σ) :
    Except MergeFault MergePass := do
  settings.check
  let cliques ← graph.cliques settings.overlap
  let collapse : Collapse := ⟨graph, settings.policy, cliques⟩
  let collapsed ← collapse.run .graph buildMerged
  return {
    graph := collapsed.graph
    summary := ⟨graph.candidates.length, cliques, collapsed.reports.map (·.1)⟩
    warnings := collapsed.reports.map (·.2)
    passage := collapsed.passage }

end Graph

end ShapeMerge
