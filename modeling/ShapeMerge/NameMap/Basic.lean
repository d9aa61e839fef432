namespace ShapeMerge

/-!
Finite maps keyed by names.  The entries are kept in strictly increasing order
of their names (code point order), so a map has one form: two maps with the same
look-ups are equal, and walking the entries visits the names in order.
-/

structure NameMap (α : Type u) where
  entries : List (String × α)
  sorted : entries.Pairwise (fun left right => left.1 < right.1)
  deriving DecidableEq

abbrev NameSet := NameMap Unit

namespace NameMap

namespace Entries

def upsert (name : String) (update : Option α → α) :
    List (String × α) → List (String × α)
  | [] => [(name, update none)]
  | (other, value) :: rest =>
      if name < other then (name, update none) :: (other, value) :: rest
      else if name = other then (name, update (some value)) :: rest
      else (other, value) :: upsert name update rest

theorem name_mem_upsert {name : String}
    {update : Option α → α} {entries : List (String × α)} {entry : String × α}
    (h : entry ∈ upsert name update entries) :
    entry.1 = name ∨ entry ∈ entries := by
  fun_induction upsert name update entries <;> grind

theorem sorted_upsert (name : String)
    (update : Option α → α) {entries : List (String × α)}
    (h : entries.Pairwise (fun left right => left.1 < right.1)) :
    (upsert name update entries).Pairwise
      (fun left right => left.1 < right.1) := by
  induction entries with
  | nil => simp [upsert]
  | cons head rest ih =>
      obtain ⟨other, value⟩ := head
      rw [List.pairwise_cons] at h
      simp only [upsert]
      split
      · grind [List.pairwise_cons]
      · split
        · grind [List.pairwise_cons]
        · rw [List.pairwise_cons]
          refine ⟨fun entry hentry => ?_, ih h.2⟩
          rcases name_mem_upsert hentry with heq | hmem
          · grind
          · exact h.1 entry hmem

end Entries

def empty : NameMap α := ⟨[], .nil⟩

instance : EmptyCollection (NameMap α) := ⟨empty⟩

instance : Inhabited (NameMap α) := ⟨empty⟩

def find? (map : NameMap α) (name : String) : Option α :=
  map.entries.lookup name

def contains (map : NameMap α) (name : String) : Bool :=
  (map.find? name).isSome

/-- Gives `name` the value `update old`, where `old` is its value so far. -/
def upsert (map : NameMap α) (name : String) (update : Option α → α) :
    NameMap α :=
  ⟨Entries.upsert name update map.entries,
    Entries.sorted_upsert name update map.sorted⟩

def insert (map : NameMap α) (name : String) (value : α) : NameMap α :=
  map.upsert name (fun _ => value)

/-- Of several entries with one name the last wins. -/
def ofList (entries : List (String × α)) : NameMap α :=
  entries.foldl (fun map entry => map.insert entry.1 entry.2) empty

def names (map : NameMap α) : List String :=
  map.entries.map (·.1)

def values (map : NameMap α) : List α :=
  map.entries.map (·.2)

def size (map : NameMap α) : Nat :=
  map.entries.length

def isEmpty (map : NameMap α) : Bool :=
  map.entries.isEmpty

def map (transform : α → β) (source : NameMap α) : NameMap β :=
  ⟨source.entries.map (fun entry => (entry.1, transform entry.2)),
    List.pairwise_map.mpr source.sorted⟩

end NameMap

namespace NameSet

def ofList (names : List String) : NameSet :=
  names.foldl (fun set name => set.insert name ()) ∅

def unions (sets : List NameSet) : NameSet :=
  ofList (sets.flatMap (·.names))

end NameSet

end ShapeMerge
