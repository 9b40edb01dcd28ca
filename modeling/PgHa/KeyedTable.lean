import Mathlib.Data.List.Nodup

/-!
A table whose entries carry their own key, each key at most once. What is read by key
is found wherever it stands, so no order of the entries matters.
-/

namespace PgHa.KeyedTable

variable {Key Entry : Type}

structure Keyed (key : Entry → Key) where
  entries : List Entry
  distinct : (entries.map key).Nodup

variable {key : Entry → Key} {table : Keyed key} {name : Key} {entry other : Entry}

def Keyed.empty : Keyed key := ⟨[], List.nodup_nil⟩

def Keyed.retain (table : Keyed key) (keep : Entry → Bool) : Keyed key where
  entries := table.entries.filter keep
  distinct := table.distinct.sublist (List.filter_sublist.map key)

@[simp] theorem mem_retain {keep : Entry → Bool} :
    entry ∈ (table.retain keep).entries ↔ entry ∈ table.entries ∧ keep entry = true :=
  List.mem_filter

theorem same_entry (member : entry ∈ table.entries) (member' : other ∈ table.entries)
    (same : key entry = key other) : entry = other :=
  List.inj_on_of_nodup_map table.distinct member member' same

variable [DecidableEq Key]

def Keyed.get? (table : Keyed key) (name : Key) : Option Entry :=
  table.entries.find? fun entry => key entry = name

def adjustEntry (key : Entry → Key) (name : Key) (change : Entry → Entry)
    (entry : Entry) : Entry :=
  if key entry = name then change entry else entry

theorem key_adjustEntry {change : Entry → Entry}
    (keeps : ∀ entry, key (change entry) = key entry)
    (entry : Entry) : key (adjustEntry key name change entry) = key entry := by
  unfold adjustEntry
  split
  · exact keeps entry
  · rfl

/-- Changes the entry of a key in place. -/
def Keyed.adjust (table : Keyed key) (name : Key) (change : Entry → Entry)
    (keeps : ∀ entry, key (change entry) = key entry) : Keyed key where
  entries := table.entries.map (adjustEntry key name change)
  distinct := by
    have same : key ∘ adjustEntry key name change = key := funext (key_adjustEntry keeps)
    rw [List.map_map, same]
    exact table.distinct

/-- In the place of an entry that had the key. -/
def Keyed.insert (table : Keyed key) (entry : Entry) : Keyed key where
  entries := (table.entries.filter fun other => key other ≠ key entry) ++ [entry]
  distinct := by
    rw [List.map_append, List.map_singleton]
    apply List.Nodup.append (table.distinct.sublist (List.filter_sublist.map key))
      (List.nodup_singleton _)
    intro name old new
    obtain ⟨other, member, keyed⟩ := List.mem_map.mp old
    have differs := of_decide_eq_true (List.mem_filter.mp member).2
    exact differs (keyed.trans (List.mem_singleton.mp new))

theorem mem_of_get? (found : table.get? name = some entry) : entry ∈ table.entries ∧
    key entry = name :=
  ⟨List.mem_of_find?_eq_some found, by simpa using List.find?_some found⟩

theorem get?_none : table.get? name = none ↔ ∀ entry ∈ table.entries, key entry ≠ name := by
  simp [Keyed.get?]

theorem get?_self (member : entry ∈ table.entries) : table.get? (key entry) = some entry := by
  cases found : table.get? (key entry) with
  | none => exact absurd rfl (get?_none.mp found entry member)
  | some other =>
      have there := mem_of_get? found
      rw [same_entry there.1 member there.2]

/-- An entry with a new key comes after all others. -/
theorem entries_insert (entry : Entry) (absent : table.get? (key entry) = none) :
    (table.insert entry).entries = table.entries ++ [entry] := by
  have all : table.entries.filter (fun other => decide (key other ≠ key entry)) =
      table.entries := by
    rw [List.filter_eq_self]
    intro other member
    exact decide_eq_true (get?_none.mp absent other member)
  simp only [Keyed.insert, all]

end PgHa.KeyedTable
