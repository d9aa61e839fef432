import ShapeMerge.NameMap.Basic

namespace ShapeMerge.NameMap

namespace Entries

theorem lookup_upsert_self (name : String)
    (update : Option α → α) {entries : List (String × α)}
    (h : entries.Pairwise (fun left right => left.1 < right.1)) :
    (upsert name update entries).lookup name =
      some (update (entries.lookup name)) := by
  induction entries with
  | nil => simp [upsert]
  | cons head rest ih =>
      obtain ⟨other, value⟩ := head
      rw [List.pairwise_cons] at h
      simp only [upsert]
      split
      · rename_i hlt
        have habsent : ((other, value) :: rest).lookup name = none := by
          rw [List.lookup_eq_none_iff]
          intro entry hentry
          rcases List.mem_cons.mp hentry with rfl | hmem
          · grind
          · have := h.1 entry hmem
            grind
        simp [habsent]
      · split
        · rename_i heq
          subst heq
          simp
        · rename_i hne
          have hbeq : (name == other) = false := beq_false_of_ne hne
          simp only [List.lookup_cons, hbeq, ih h.2]

theorem lookup_upsert_of_ne {name other : String} (hne : other ≠ name)
    (update : Option α → α) (entries : List (String × α)) :
    (upsert name update entries).lookup other = entries.lookup other := by
  have hbeq : (other == name) = false := beq_false_of_ne hne
  induction entries with
  | nil => simp only [upsert, List.lookup_cons, hbeq]
  | cons head rest ih =>
      obtain ⟨first, value⟩ := head
      simp only [upsert]
      split
      · simp only [List.lookup_cons, hbeq]
      · split
        · rename_i heq
          subst heq
          simp only [List.lookup_cons, hbeq]
        · simp only [List.lookup_cons, ih]

theorem lookup_eq_some_iff {entries : List (String × α)}
    (h : entries.Pairwise (fun left right => left.1 < right.1)) {name : String}
    {value : α} :
    entries.lookup name = some value ↔ (name, value) ∈ entries := by
  induction entries with
  | nil => simp
  | cons head rest ih =>
      obtain ⟨first, stored⟩ := head
      rw [List.pairwise_cons] at h
      rw [List.lookup_cons]
      by_cases heq : name = first
      · subst heq
        have habsent : (name, value) ∉ rest := fun hmem =>
          String.lt_irrefl name (h.1 _ hmem)
        simp [habsent, eq_comm]
      · have hbeq : (name == first) = false := beq_false_of_ne heq
        simp only [hbeq, ih h.2, List.mem_cons, Prod.mk.injEq, heq,
          false_and, false_or]

theorem eq_of_mem_iff {left right : List (String × α)}
    (hleft : left.Pairwise (fun a b => a.1 < b.1))
    (hright : right.Pairwise (fun a b => a.1 < b.1))
    (h : ∀ entry, entry ∈ left ↔ entry ∈ right) : left = right := by
  refine List.Perm.eq_of_pairwise (fun a b _ _ hab hba => ?_) hleft hright ?_
  · exact absurd hba (String.lt_asymm hab)
  · have hnodup (entries : List (String × α))
        (hsorted : entries.Pairwise (fun a b => a.1 < b.1)) : entries.Nodup :=
      hsorted.imp fun {a b} (hlt : a.1 < b.1) (heq : a = b) => by
        subst heq
        exact String.lt_irrefl _ hlt
    exact (List.perm_ext_iff_of_nodup (hnodup left hleft)
      (hnodup right hright)).mpr h

end Entries

@[simp] theorem find?_upsert_self (map : NameMap α) (name : String)
    (update : Option α → α) :
    (map.upsert name update).find? name = some (update (map.find? name)) :=
  Entries.lookup_upsert_self name update map.sorted

theorem find?_upsert_of_ne (map : NameMap α) {name other : String}
    (hne : other ≠ name) (update : Option α → α) :
    (map.upsert name update).find? other = map.find? other :=
  Entries.lookup_upsert_of_ne hne update map.entries

@[simp] theorem find?_insert_self (map : NameMap α) (name : String)
    (value : α) : (map.insert name value).find? name = some value :=
  map.find?_upsert_self name _

theorem find?_insert_of_ne (map : NameMap α) {name other : String}
    (hne : other ≠ name) (value : α) :
    (map.insert name value).find? other = map.find? other :=
  map.find?_upsert_of_ne hne _

theorem find?_eq_some_iff {map : NameMap α} {name : String} {value : α} :
    map.find? name = some value ↔ (name, value) ∈ map.entries :=
  Entries.lookup_eq_some_iff map.sorted

theorem ext_find? {left right : NameMap α}
    (h : ∀ name, left.find? name = right.find? name) : left = right := by
  have hentries : left.entries = right.entries :=
    Entries.eq_of_mem_iff left.sorted right.sorted fun (name, value) => by
      rw [← find?_eq_some_iff, ← find?_eq_some_iff, h]
  cases left
  cases right
  cases hentries
  rfl

@[simp] theorem find?_map (transform : α → β) (map : NameMap α)
    (name : String) :
    (map.map transform).find? name = (map.find? name).map transform := by
  obtain ⟨entries, sorted⟩ := map
  simp only [NameMap.map, find?]
  clear sorted
  induction entries with
  | nil => rfl
  | cons head rest ih =>
      obtain ⟨other, value⟩ := head
      simp only [List.map_cons, List.lookup_cons, ih]
      cases name == other <;> rfl

theorem mem_names_iff {map : NameMap α} {name : String} :
    name ∈ map.names ↔ ∃ value, map.find? name = some value := by
  simp [names, find?_eq_some_iff]

theorem mem_values_iff {map : NameMap α} {value : α} :
    value ∈ map.values ↔ ∃ name, map.find? name = some value := by
  simp [values, find?_eq_some_iff]

theorem names_sorted (map : NameMap α) : map.names.Pairwise (· < ·) :=
  List.pairwise_map.mpr map.sorted

theorem names_nodup (map : NameMap α) : map.names.Nodup :=
  map.names_sorted.imp fun {a b} (hlt : a < b) (heq : a = b) =>
    String.lt_irrefl b (heq ▸ hlt)

@[simp] theorem length_names (map : NameMap α) : map.names.length = map.size :=
  List.length_map _

theorem names_eq_of_mem_iff {left : NameMap α} {right : NameMap β}
    (h : ∀ name, name ∈ left.names ↔ name ∈ right.names) :
    left.names = right.names := by
  refine List.Perm.eq_of_pairwise
    (fun a b _ _ hab hba => ?_) left.names_sorted right.names_sorted
    ((List.perm_ext_iff_of_nodup left.names_nodup right.names_nodup).mpr h)
  exact absurd hba (String.lt_asymm hab)

theorem find?_foldl_insert {entries : List (String × α)}
    (hnodup : (entries.map (·.1)).Nodup) {map : NameMap α} {name : String}
    {value : α} :
    (entries.foldl (fun map entry => map.insert entry.1 entry.2) map).find?
        name = some value ↔
      (name, value) ∈ entries ∨
        name ∉ entries.map (·.1) ∧ map.find? name = some value := by
  induction entries generalizing map with
  | nil => simp
  | cons entry rest ih =>
      obtain ⟨other, first⟩ := entry
      rw [List.map_cons, List.nodup_cons] at hnodup
      rw [List.foldl_cons, ih hnodup.2]
      by_cases heq : name = other
      · subst heq
        have habsent : (name, value) ∉ rest :=
          fun hmem => hnodup.1 (List.mem_map.mpr ⟨_, hmem, rfl⟩)
        simp only [hnodup.1, find?_insert_self, habsent, List.mem_cons,
          Prod.mk.injEq, true_and, not_false_iff, Option.some.injEq,
          List.map_cons, not_true, false_and, or_false, false_or, eq_comm]
      · simp only [find?_insert_of_ne map heq, List.mem_cons, List.map_cons,
          Prod.mk.injEq, heq, false_and, false_or]

theorem find?_ofList {entries : List (String × α)}
    (hnodup : (entries.map (·.1)).Nodup) {name : String} {value : α} :
    (ofList entries).find? name = some value ↔ (name, value) ∈ entries := by
  rw [ofList, find?_foldl_insert hnodup]
  exact or_iff_left fun h => nomatch h.2

theorem ofList_entries (map : NameMap α) : ofList map.entries = map := by
  apply ext_find?
  intro name
  apply Option.ext
  intro value
  rw [find?_ofList map.names_nodup, find?_eq_some_iff]

theorem setOfList_names (set : NameSet) : NameSet.ofList set.names = set := by
  have hofList : NameSet.ofList set.names = ofList (set.names.map (·, ())) := by
    rw [NameSet.ofList, ofList, List.foldl_map]
    rfl
  have hentries : set.names.map (·, ()) = set.entries := by
    rw [names, List.map_map]
    exact List.map_id' set.entries
  rw [hofList, hentries, ofList_entries]

theorem map_insert (transform : α → β) (map : NameMap α) (name : String)
    (value : α) :
    (map.insert name value).map transform =
      (map.map transform).insert name (transform value) := by
  apply ext_find?
  intro other
  rw [find?_map]
  by_cases heq : other = name
  · rw [heq, find?_insert_self, find?_insert_self, Option.map_some]
  · rw [find?_insert_of_ne _ heq, find?_insert_of_ne _ heq, find?_map]

theorem ofList_map (transform : α → β) (entries : List (String × α)) :
    ofList (entries.map (Prod.map id transform)) =
      (ofList entries).map transform := by
  have hfold (start : NameMap α) :
      (entries.map (Prod.map id transform)).foldl
          (fun map entry => map.insert entry.1 entry.2) (start.map transform) =
        (entries.foldl (fun map entry => map.insert entry.1 entry.2) start).map
          transform := by
    induction entries generalizing start with
    | nil => rfl
    | cons entry rest ih =>
        rw [List.map_cons, List.foldl_cons, List.foldl_cons, ← ih, map_insert]
        rfl
  exact hfold empty

theorem mem_names_insert {map : NameMap α} {name other : String} {value : α} :
    other ∈ (map.insert name value).names ↔
      other = name ∨ other ∈ map.names := by
  simp only [mem_names_iff]
  by_cases heq : other = name
  · simp [heq]
  · simp [heq, find?_insert_of_ne map heq]

theorem mem_names_foldl_insert {β : Type u} {entries : List β}
    {key : β → String} {value : β → α} {map : NameMap α} {name : String} :
    name ∈ (entries.foldl
      (fun map entry => map.insert (key entry) (value entry)) map).names ↔
      name ∈ entries.map key ∨ name ∈ map.names := by
  induction entries generalizing map with
  | nil => simp
  | cons first rest ih =>
      rw [List.foldl_cons, ih, mem_names_insert, List.map_cons, List.mem_cons,
        or_left_comm, or_assoc]

theorem mem_names_ofList {entries : List (String × α)} {name : String} :
    name ∈ (ofList entries).names ↔ name ∈ entries.map (·.1) := by
  rw [ofList, mem_names_foldl_insert]
  exact or_iff_left List.not_mem_nil

theorem mem_names_setOfList {names : List String} {name : String} :
    name ∈ (NameSet.ofList names).names ↔ name ∈ names := by
  rw [NameSet.ofList, mem_names_foldl_insert, List.map_id']
  exact or_iff_left List.not_mem_nil

theorem mem_names_unions {sets : List NameSet} {name : String} :
    name ∈ (NameSet.unions sets).names ↔ ∃ set ∈ sets, name ∈ set.names := by
  rw [NameSet.unions, mem_names_setOfList, List.mem_flatMap]

end ShapeMerge.NameMap
