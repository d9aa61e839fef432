import Mathlib.Data.List.Nodup
import ShapeMerge.Json.Value
import ShapeMerge.NameMap.Lemmas
import ShapeMerge.Proofs.Json.RoundTrip
import ShapeMerge.Proofs.Success

namespace ShapeMerge.Json

section Reading

theorem natBelow?_nat {limit number : Nat} (h : number < limit) :
    natBelow? limit (nat number) = some number := by
  simp [natBelow?, nat, Numeral.toNat?_ofNat, h]

theorem entries?_ofEntries (members : List (String × Json)) :
    entries? (ofEntries members) = some members :=
  mapM_map_eq_some fun _ _ => rfl

theorem filter_name {members : List (String × Json)}
    (h : (members.map (·.1)).Nodup) {member : String × Json}
    (hmember : member ∈ members) :
    members.filter (·.1 = member.1) = [member] := by
  induction members with
  | nil => cases hmember
  | cons first rest ih =>
      rw [List.map_cons, List.nodup_cons] at h
      rcases List.mem_cons.mp hmember with rfl | hrest
      · have hnone : rest.filter (·.1 = member.1) = [] := by
          refine List.filter_eq_nil_iff.mpr fun other hother heq => h.1 ?_
          rw [← of_decide_eq_true heq]
          exact List.mem_map_of_mem hother
        rw [List.filter_cons_of_pos (by simp), hnone]
      · have hother : first.1 ≠ member.1 :=
          fun heq => h.1 (heq ▸ List.mem_map_of_mem hrest)
        rw [List.filter_cons_of_neg (by simpa using hother), ih h.2 hrest]

theorem fields?_ofEntries {members : List (String × Json)}
    (h : (members.map (·.1)).Nodup) :
    fields? (members.map (·.1)) (ofEntries members) =
      some (members.map (some ·.2)) := by
  rw [fields?, entries?_ofEntries, Option.bind_eq_bind, Option.bind_some,
    List.mapM_map, mapM_eq_some_iff, List.map_map]
  · refine List.map_congr_left fun member hmember => ?_
    simp only [filter_name h hmember, Function.comp]
  · exact fun _ heq => nomatch heq

theorem constant?_text {all : List α} {name : α → String} {value : α}
    (h : all.find? (name · = name value) = some value) :
    constant? all name (text (name value)) = some value := h

theorem nameMap?_ofNameMap {decode : Json → Option α}
    {encode : α → Json} {map : NameMap α}
    (h : ∀ value ∈ map.values, decode (encode value) = some value) :
    nameMap? decode (ofNameMap encode map) = some map := by
  rw [nameMap?, ofNameMap, entries?_ofEntries, Option.bind_eq_bind,
    Option.bind_some, mapM_map_eq_some]
  · exact congrArg some map.ofList_entries
  · intro entry hentry
    simp only [h entry.2 (List.mem_map_of_mem hentry), Option.map_some]

end Reading

section Writing

theorem writable_nat (number : Nat) : (nat number).Writable :=
  .number (Numeral.wellFormed_ofNat number)

theorem writable_ofEntries {members : List (String × Json)}
    (h : ∀ member ∈ members, member.2.Writable) :
    (ofEntries members).Writable := by
  apply Writable.object
  · intro named hnamed
    obtain ⟨member, _, rfl⟩ := List.mem_map.mp hnamed
    exact Option.some_ne_none member.1
  · intro named hnamed
    obtain ⟨member, hmember, rfl⟩ := List.mem_map.mp hnamed
    exact h member hmember

theorem writable_single (name : String) {value : Json} (h : value.Writable) :
    (ofEntries [(name, value)]).Writable :=
  writable_ofEntries (List.forall_mem_singleton.mpr h)

theorem writable_pair (left right : String) {value other : Json}
    (hvalue : value.Writable) (hother : other.Writable) :
    (ofEntries [(left, value), (right, other)]).Writable :=
  writable_ofEntries
    (List.forall_mem_cons.mpr ⟨hvalue, List.forall_mem_singleton.mpr hother⟩)

theorem writable_ofNameMap {encode : α → Json}
    (h : ∀ value, (encode value).Writable) (map : NameMap α) :
    (ofNameMap encode map).Writable := by
  refine writable_ofEntries fun _ hmember => ?_
  obtain ⟨entry, _, rfl⟩ := List.mem_map.mp hmember
  exact h entry.2

theorem writable_list {encode : α → Json} (h : ∀ value, (encode value).Writable)
    (values : List α) : (array (values.map encode)).Writable := by
  refine .array fun _ hitem => ?_
  obtain ⟨value, _, rfl⟩ := List.mem_map.mp hitem
  exact h value

end Writing

end ShapeMerge.Json
