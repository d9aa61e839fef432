import ShapeMerge.Merging.Pass
import ShapeMerge.Proofs.Success

namespace ShapeMerge

namespace Builder

structure StepsOfMerge (related : Builder → Builder → Prop) : Prop where
  refl : ∀ builder, related builder builder
  trans : ∀ {first second third}, related first second → related second third →
    related first third
  null : ∀ builder, related builder (builder.primitive .null).2
  text : ∀ builder hints literals,
    related builder (builder.text hints literals).2
  nullable : ∀ builder hints ref, related builder (builder.nullable hints ref).2
  record : ∀ {builder hints content slot result},
    builder.record hints content (some slot) = .ok result →
    related builder result.2

end Builder

namespace Passage

open Builder

variable {passage : Passage} {builder after : Builder} {field : String}
  {content : FieldContent} {result : Ref × List Warning}
  {related : Builder → Builder → Prop}

theorem carried_builder {ref : Ref} {carried : Ref × Builder}
    (h : passage.carried ref builder = .ok carried) : carried.2 = builder := by
  obtain ⟨target, _, h⟩ := bind_eq_ok_iff.mp h
  cases h
  rfl

section Steps

variable (hsteps : StepsOfMerge related)

include hsteps

theorem related_mergeTexts {representative : Ref}
    (h : passage.mergeTexts field content representative builder =
      .ok (result, after)) : related builder after := by
  obtain ⟨texts, _, h⟩ := bind_eq_ok_iff.mp h
  split at h
  · cases h
    exact hsteps.text builder _ _
  · obtain ⟨carried, hcarried, h⟩ := bind_eq_ok_iff.mp h
    cases h
    rw [carried_builder hcarried]
    exact hsteps.refl builder

theorem related_mergeOthers {representative : Ref} {shape : Shape}
    (h : passage.mergeOthers field content representative shape builder =
      .ok (result, after)) : related builder after := by
  -- Whether unions differ matters for the warnings alone.
  rw [mergeOthers] at h
  split at h
  all_goals
    obtain ⟨differ, _, h⟩ := bind_eq_ok_iff.mp h
    obtain ⟨carried, hcarried, h⟩ := bind_eq_ok_iff.mp h
    cases h
    rw [carried_builder hcarried]
    exact hsteps.refl builder

theorem related_mergeShapes
    (h : passage.mergeShapes field content builder = .ok (result, after)) :
    related builder after := by
  rw [mergeShapes] at h
  split at h
  · cases h
    exact hsteps.null builder
  · split at h
    · cases h
    · exact related_mergeTexts hsteps h
    · exact related_mergeOthers hsteps h

theorem related_mergeField
    (h : passage.mergeField field content builder = .ok (result, after)) :
    related builder after := by
  obtain ⟨⟨⟨merged, warnings⟩, middle⟩, hshapes, h⟩ := bind_eq_ok_iff.mp h
  have hmiddle := related_mergeShapes hsteps hshapes
  dsimp only at h
  split at h
  · have hnullable := hsteps.nullable middle content.hints merged
    split at h
    · rename_i hmade
      cases h
      rw [hmade] at hnullable
      exact hsteps.trans hmiddle hnullable
    · cases h
  · cases h
    exact hmiddle

theorem related_mergeFields {entries : List (String × FieldContent)}
    {result : List (String × Ref) × List Warning}
    (h : passage.mergeFields entries builder = .ok (result, after)) :
    related builder after := by
  induction entries generalizing builder result with
  | nil =>
      cases h
      exact hsteps.refl _
  | cons entry rest ih =>
      obtain ⟨⟨_, middle⟩, hfield, h⟩ := bind_eq_ok_iff.mp h
      obtain ⟨⟨_, last⟩, hrest, h⟩ := bind_eq_ok_iff.mp h
      cases h
      exact hsteps.trans (related_mergeField hsteps hfield) (ih hrest)

theorem related_mergeRecords {members : List Ref} {slot : Ref}
    (h : passage.mergeRecords members slot builder = .ok (result, after)) :
    related builder after := by
  obtain ⟨contents, _, h⟩ := bind_eq_ok_iff.mp h
  obtain ⟨⟨⟨fields, warnings⟩, middle⟩, hfields, h⟩ := bind_eq_ok_iff.mp h
  obtain ⟨⟨made, last⟩, hrecord, h⟩ := bind_eq_ok_iff.mp h
  cases h
  exact hsteps.trans (related_mergeFields hsteps hfields)
    (hsteps.record (mapError_eq_ok_iff.mp hrecord))

theorem related_buildMerged {site : Site} {result : Ref × Ref × List Warning}
    (h : Graph.buildMerged passage site builder = .ok (result, after)) :
    related builder after := by
  obtain ⟨⟨⟨made, warnings⟩, last⟩, hrecords, h⟩ := bind_eq_ok_iff.mp h
  cases h
  exact related_mergeRecords hsteps hrecords

end Steps

end Passage

end ShapeMerge
