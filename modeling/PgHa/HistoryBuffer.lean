import PgHa.Text

/-!
The capped buffer of `pg-ha-core/src/history.rs`. An event is told apart by its
timestamp, type and new leader; the other fields of an entry only describe it.
-/

namespace PgHa.HistoryBuffer

open Text

def maxHistoryEntries : Nat := 100

inductive HistoryEventType where
  | failover
  | switchover
  | promote
  deriving DecidableEq, Repr

structure HistoryEntry where
  timestamp : Nat
  eventType : HistoryEventType
  oldLeader : Option Str
  newLeader : Option Str
  reason : Str
  timeline : Option Nat
  lsn : Option Nat
  deriving DecidableEq, Repr

/-- The comparison of `push`. -/
def HistoryEntry.sameEvent (first second : HistoryEntry) : Bool :=
  first.timestamp == second.timestamp && first.eventType == second.eventType &&
    first.newLeader == second.newLeader

structure History where
  entries : List HistoryEntry
  deriving DecidableEq, Repr

def History.new : History := ⟨[]⟩

def History.fromEntries (entries : List HistoryEntry) : History :=
  if maxHistoryEntries < entries.length then
    ⟨entries.drop (entries.length - maxHistoryEntries)⟩
  else ⟨entries⟩

def History.push (history : History) (entry : HistoryEntry) : History × Bool :=
  if history.entries.any fun known => known.sameEvent entry then (history, false)
  else if maxHistoryEntries ≤ history.entries.length then
    (⟨history.entries.drop 1 ++ [entry]⟩, true)
  else (⟨history.entries ++ [entry]⟩, true)

/-- No event is listed twice. -/
def Distinct (entries : List HistoryEntry) : Prop :=
  entries.Pairwise fun first second => first.sameEvent second = false

instance (entries : List HistoryEntry) : Decidable (Distinct entries) :=
  inferInstanceAs (Decidable (entries.Pairwise _))

theorem fromEntries_entries (entries : List HistoryEntry) :
    (History.fromEntries entries).entries = entries.drop (entries.length - maxHistoryEntries) := by
  unfold History.fromEntries
  split
  · rfl
  · rename_i fits
    rw [Nat.sub_eq_zero_of_le (Nat.not_lt.mp fits), List.drop_zero]

theorem fromEntries_length (entries : List HistoryEntry) :
    (History.fromEntries entries).entries.length ≤ maxHistoryEntries := by
  rw [fromEntries_entries, List.length_drop]
  omega

theorem fromEntries_fits {entries : List HistoryEntry}
    (fits : entries.length ≤ maxHistoryEntries) :
    History.fromEntries entries = ⟨entries⟩ := by
  rw [History.fromEntries, if_neg (Nat.not_lt.mpr fits)]

/-- Keeping the newest entries in two goes keeps the same ones as in one. -/
theorem fromEntries_append (entries added : List HistoryEntry) :
    History.fromEntries ((History.fromEntries entries).entries ++ added) =
      History.fromEntries (entries ++ added) := by
  have same : (History.fromEntries ((History.fromEntries entries).entries ++ added)).entries =
      (History.fromEntries (entries ++ added)).entries := by
    simp only [fromEntries_entries, List.length_append, List.length_drop]
    by_cases fits : entries.length ≤ maxHistoryEntries
    · rw [Nat.sub_eq_zero_of_le fits]
      simp
    · rw [← List.drop_append_of_le_length (Nat.sub_le _ _), List.drop_drop]
      congr 1
      omega
  cases left : History.fromEntries ((History.fromEntries entries).entries ++ added)
  cases right : History.fromEntries (entries ++ added)
  rw [left, right] at same
  exact congrArg History.mk same

/-- An event that is already listed changes nothing; a new one goes to the end, and the
oldest entry goes only when the buffer is full. -/
theorem push_cases (history : History) (entry : HistoryEntry)
    (fits : history.entries.length ≤ maxHistoryEntries) :
    ((∃ known ∈ history.entries, known.sameEvent entry = true) ∧
      history.push entry = (history, false)) ∨
    ((∀ known ∈ history.entries, known.sameEvent entry = false) ∧
      history.push entry = (History.fromEntries (history.entries ++ [entry]), true)) := by
  by_cases listed : (history.entries.any fun known => known.sameEvent entry) = true
  · left
    exact ⟨List.any_eq_true.mp listed, by rw [History.push, if_pos listed]⟩
  · right
    constructor
    · intro known member
      rw [← Bool.not_eq_true]
      intro same
      exact listed (List.any_eq_true.mpr ⟨known, member, same⟩)
    · rw [History.push, if_neg listed]
      by_cases full : maxHistoryEntries ≤ history.entries.length
      · have filled : history.entries.length = maxHistoryEntries := Nat.le_antisymm fits full
        have one : 1 ≤ history.entries.length := by
          rw [filled]
          decide
        rw [if_pos full, History.fromEntries, if_pos (by simp [filled]), List.length_append, filled,
          List.length_singleton, Nat.add_sub_cancel_left, List.drop_append_of_le_length one]
      · rw [if_neg full, History.fromEntries, if_neg (by simp; omega)]

theorem distinct_append {entries : List HistoryEntry} {entry : HistoryEntry}
    (distinct : Distinct entries) (fresh : ∀ known ∈ entries, known.sameEvent entry = false) :
    Distinct (History.fromEntries (entries ++ [entry])).entries := by
  have whole : Distinct (entries ++ [entry]) := by
    refine List.pairwise_append.mpr ⟨distinct, List.pairwise_singleton _ _, ?_⟩
    intro known member other last
    rw [List.mem_singleton.mp last]
    exact fresh known member
  rw [fromEntries_entries]
  exact whole.sublist (List.drop_sublist _ _)

end PgHa.HistoryBuffer
