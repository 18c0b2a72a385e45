import Mathlib.Data.List.AList

/-!
# Stores of keyed records

A store has named nodes. A node is a collection of records by key, a record is a
dictionary from fields to values. A write replaces one record or one field of a
record, and creates what it needs on the way.

Dictionaries are Mathlib's association lists, so a node lists its records in some
order. A reader of a node is handed a snapshot: the same entries in any order.
-/

namespace Store

universe u v w x

variable {ν : Type u} {κ : Type v} {φ : Type w} {α : Type x}

/-- A dictionary from fields to values. -/
abbrev Record (φ : Type w) (α : Type x) : Type (max w x) := AList fun _ : φ => α

/-- A dictionary from keys to records. -/
abbrev Collection (κ : Type v) (φ : Type w) (α : Type x) : Type (max v w x) :=
  AList fun _ : κ => Record φ α

instance [DecidableEq φ] [DecidableEq α] : DecidableEq (Record φ α) := fun left right =>
  decidable_of_iff (left.entries = right.entries) AList.ext_iff.symm

/-- One collection for every node. -/
abbrev Nodes (ν : Type u) (κ : Type v) (φ : Type w) (α : Type x) : Type (max u v w x) :=
  ν → Collection κ φ α

section Writes

variable [DecidableEq ν] [DecidableEq κ] [DecidableEq φ]

/-- Replace the record at a key of a node. -/
def setValue (store : Nodes ν κ φ α) (node : ν) (key : κ) (value : Record φ α) :
    Nodes ν κ φ α :=
  Function.update store node ((store node).insert key value)

/-- Replace one field of the record at a key; the other fields stay as they are. -/
def setChild (store : Nodes ν κ φ α) (node : ν) (key : κ) (field : φ) (value : α) :
    Nodes ν κ φ α :=
  setValue store node key ((((store node).lookup key).getD ∅).insert field value)

/-- Replace the given fields of the record at a key; the other fields stay as they are. -/
def updateChildValues (store : Nodes ν κ φ α) (node : ν) (key : κ) (values : List (φ × α)) :
    Nodes ν κ φ α :=
  values.foldl (fun current value => setChild current node key value.1 value.2) store

omit [DecidableEq φ] in
theorem lookup_setValue (store : Nodes ν κ φ α) (node otherNode : ν) (key otherKey : κ)
    (value : Record φ α) :
    (setValue store node key value otherNode).lookup otherKey =
      if otherNode = node ∧ otherKey = key then some value
      else (store otherNode).lookup otherKey := by
  by_cases sameNode : otherNode = node
  · subst sameNode
    by_cases sameKey : otherKey = key
    · subst sameKey
      simp [setValue]
    · simp [setValue, sameKey, AList.lookup_insert_ne sameKey]
  · simp [setValue, sameNode]

theorem lookup_setChild (store : Nodes ν κ φ α) (node otherNode : ν) (key otherKey : κ)
    (field : φ) (value : α) :
    (setChild store node key field value otherNode).lookup otherKey =
      if otherNode = node ∧ otherKey = key then
        some ((((store node).lookup key).getD ∅).insert field value)
      else (store otherNode).lookup otherKey :=
  lookup_setValue store node otherNode key otherKey _

/-- The value of a field of the record at a key. -/
def fieldAt (store : Nodes ν κ φ α) (node : ν) (key : κ) (field : φ) : Option α :=
  ((store node).lookup key).bind fun record => record.lookup field

/-- Replacing a field changes that value only. -/
theorem fieldAt_setChild (store : Nodes ν κ φ α) (node otherNode : ν) (key otherKey : κ)
    (field otherField : φ) (value : α) :
    fieldAt (setChild store node key field value) otherNode otherKey otherField =
      if otherNode = node ∧ otherKey = key ∧ otherField = field then some value
      else fieldAt store otherNode otherKey otherField := by
  unfold fieldAt
  rw [lookup_setChild]
  by_cases sameKey : otherNode = node ∧ otherKey = key
  · rcases sameKey with ⟨rfl, rfl⟩
    by_cases sameField : otherField = field
    · subst sameField
      simp
    · rw [if_pos ⟨rfl, rfl⟩, if_neg fun same => sameField same.2.2, Option.bind_some,
        AList.lookup_insert_ne sameField]
      cases (store otherNode).lookup otherKey <;> rfl
  · rw [if_neg sameKey, if_neg fun same => sameKey ⟨same.1, same.2.1⟩]

@[simp]
theorem updateChildValues_singleton (store : Nodes ν κ φ α) (node : ν) (key : κ) (field : φ)
    (value : α) :
    updateChildValues store node key [(field, value)] = setChild store node key field value := rfl

end Writes

section Snapshots

/-- A snapshot of a collection: its entries, enumerated in any order. -/
def IsSnapshot (snapshot collection : Collection κ φ α) : Prop :=
  snapshot.entries.Perm collection.entries

instance [DecidableEq κ] [DecidableEq φ] [DecidableEq α] (snapshot collection : Collection κ φ α) :
    Decidable (IsSnapshot snapshot collection) :=
  inferInstanceAs (Decidable (snapshot.entries.Perm collection.entries))

variable {snapshot collection : Collection κ φ α}

theorem IsSnapshot.refl (collection : Collection κ φ α) : IsSnapshot collection collection :=
  List.Perm.refl _

theorem IsSnapshot.keys (taken : IsSnapshot snapshot collection) :
    snapshot.keys.Perm collection.keys :=
  List.Perm.map _ taken

theorem IsSnapshot.lookup [DecidableEq κ] (taken : IsSnapshot snapshot collection) (key : κ) :
    snapshot.lookup key = collection.lookup key :=
  AList.perm_lookup taken

theorem IsSnapshot.isEmpty (taken : IsSnapshot snapshot collection) :
    snapshot.entries.isEmpty = collection.entries.isEmpty := by
  rw [Bool.eq_iff_iff, List.isEmpty_iff, List.isEmpty_iff]
  exact ⟨fun empty => List.Perm.eq_nil (empty ▸ List.Perm.symm taken),
    fun empty => List.Perm.eq_nil (empty ▸ taken)⟩

theorem mem_entries_iff [DecidableEq κ] {key : κ} {record : Record φ α} :
    ⟨key, record⟩ ∈ collection.entries ↔ collection.lookup key = some record := by
  rw [← Option.mem_def]
  exact AList.mem_lookup_iff.symm

theorem mem_keys_iff [DecidableEq κ] {key : κ} :
    key ∈ collection.keys ↔ (collection.lookup key).isSome := by
  rw [AList.lookup_isSome]
  exact AList.mem_keys.symm

theorem entries_ne_nil_of_lookup [DecidableEq κ] {key : κ} {record : Record φ α}
    (found : collection.lookup key = some record) : collection.entries ≠ [] :=
  List.ne_nil_of_mem (mem_entries_iff.mpr found)

end Snapshots

section Restriction

variable [DecidableEq κ] {wanted : List κ} {snapshot collection : Collection κ φ α}

/-- The entries whose keys are wanted, in the order of the collection. -/
def restrict (wanted : List κ) (collection : Collection κ φ α) :
    List (Sigma fun _ : κ => Record φ α) :=
  collection.entries.filter fun entry => wanted.contains entry.1

theorem mem_restrict_iff {entry : Sigma fun _ : κ => Record φ α} :
    entry ∈ restrict wanted collection ↔ entry ∈ collection.entries ∧ entry.1 ∈ wanted := by
  simp [restrict]

theorem mem_keys_restrict_iff {key : κ} :
    key ∈ (restrict wanted collection).map Sigma.fst ↔ key ∈ wanted ∧ key ∈ collection.keys := by
  constructor
  · intro key_mem
    rcases List.mem_map.mp key_mem with ⟨entry, entry_mem, rfl⟩
    rcases mem_restrict_iff.mp entry_mem with ⟨stored, isWanted⟩
    exact ⟨isWanted, List.mem_map_of_mem stored⟩
  · rintro ⟨isWanted, stored⟩
    rcases List.mem_map.mp stored with ⟨entry, entry_mem, rfl⟩
    exact List.mem_map_of_mem (mem_restrict_iff.mpr ⟨entry_mem, isWanted⟩)

theorem nodup_keys_restrict : ((restrict wanted collection).map Sigma.fst).Nodup :=
  List.Nodup.sublist (List.filter_sublist.map Sigma.fst) collection.nodupKeys

theorem restrict_congr {other : List κ} (sameKeys : ∀ key, key ∈ wanted ↔ key ∈ other) :
    restrict wanted collection = restrict other collection := by
  unfold restrict
  apply List.filter_congr
  intro entry _
  rw [Bool.eq_iff_iff, List.contains_iff_mem, List.contains_iff_mem]
  exact sameKeys entry.1

theorem keys_restrict_perm (nodup : wanted.Nodup) (stored : wanted ⊆ collection.keys) :
    ((restrict wanted collection).map Sigma.fst).Perm wanted := by
  rw [List.perm_ext_iff_of_nodup nodup_keys_restrict nodup]
  intro key
  rw [mem_keys_restrict_iff]
  exact ⟨And.left, fun isWanted => ⟨isWanted, stored isWanted⟩⟩

theorem length_restrict_le : (restrict wanted collection).length ≤ wanted.length := by
  have contained : (restrict wanted collection).map Sigma.fst ⊆ wanted := fun key key_mem =>
    (mem_keys_restrict_iff.mp key_mem).1
  simpa using (List.subperm_of_subset nodup_keys_restrict contained).length_le

/-- A collection with more keys has more of the wanted entries. -/
theorem length_restrict_le_of_keys_subset {other : Collection κ φ α}
    (grows : collection.keys ⊆ other.keys) :
    (restrict wanted collection).length ≤ (restrict wanted other).length := by
  have contained : (restrict wanted collection).map Sigma.fst ⊆
      (restrict wanted other).map Sigma.fst := by
    intro key key_mem
    rw [mem_keys_restrict_iff] at key_mem ⊢
    exact ⟨key_mem.1, grows key_mem.2⟩
  simpa using (List.subperm_of_subset nodup_keys_restrict contained).length_le

theorem IsSnapshot.restrict_perm (taken : IsSnapshot snapshot collection) :
    (restrict wanted snapshot).Perm (restrict wanted collection) :=
  List.Perm.filter _ taken

/-- Collections with the same records at the wanted keys have the same wanted entries, up to
order. -/
theorem restrict_perm_of_lookup {other : Collection κ φ α}
    (same : ∀ key ∈ wanted, snapshot.lookup key = other.lookup key) :
    (restrict wanted snapshot).Perm (restrict wanted other) := by
  rw [List.perm_ext_iff_of_nodup nodup_keys_restrict.of_map nodup_keys_restrict.of_map]
  rintro ⟨key, record⟩
  rw [mem_restrict_iff, mem_restrict_iff, mem_entries_iff, mem_entries_iff]
  exact and_congr_left fun isWanted => by rw [same key isWanted]

theorem IsSnapshot.length_restrict (taken : IsSnapshot snapshot collection) :
    (restrict wanted snapshot).length = (restrict wanted collection).length :=
  taken.restrict_perm.length_eq

/-- What is read from the entries of a snapshot is what the collection holds at their keys. -/
theorem IsSnapshot.map_restrict {β : Type*} (taken : IsSnapshot snapshot collection)
    (read : κ → Record φ α → Option β) :
    (restrict wanted snapshot).map (fun entry => read entry.1 entry.2) =
      ((restrict wanted snapshot).map Sigma.fst).map fun key =>
        (collection.lookup key).bind (read key) := by
  rw [List.map_map]
  apply List.map_congr_left
  intro entry entry_mem
  have stored := mem_entries_iff.mp (mem_restrict_iff.mp entry_mem).1
  rw [taken.lookup] at stored
  simp [stored]

/-- A snapshot may list its wanted entries in any order. -/
theorem exists_snapshot_restrict {order : List (Sigma fun _ : κ => Record φ α)}
    (reordered : order.Perm (restrict wanted collection)) :
    ∃ snapshot : Collection κ φ α, IsSnapshot snapshot collection ∧
      restrict wanted snapshot = order := by
  have others : (order ++ collection.entries.filter fun entry => !wanted.contains entry.1).Perm
      collection.entries :=
    (reordered.append_right _).trans (List.filter_append_perm _ collection.entries)
  refine ⟨⟨_, (List.perm_nodupKeys others).mpr collection.nodupKeys⟩, others, ?_⟩
  have allWanted : ∀ entry ∈ order, entry.1 ∈ wanted := by
    intro entry entry_mem
    exact (mem_restrict_iff.mp (reordered.subset entry_mem)).2
  simpa [restrict] using allWanted

end Restriction

end Store
