import Mathlib.Data.List.Basic

/-!
Lists whose items are numbered one after the other. What a condition on the numbers selects
is a piece of the list.
-/

namespace PgHa.NumberedList

variable {Item : Type} {index : Item → Nat} {first : Nat} {items : List Item}

/-- The items carry the numbers from `first` on, none left out. -/
def Numbered (index : Item → Nat) (first : Nat) (items : List Item) : Prop :=
  items.map index = List.range' first items.length

theorem numbered_nil : Numbered index first [] := rfl

theorem numbered_cons {item : Item} {rest : List Item} :
    Numbered index first (item :: rest) ↔ index item = first ∧
      Numbered index (first + 1) rest := by
  simp [Numbered, List.range'_succ]

theorem numbered_append {more : List Item} :
    Numbered index first (items ++ more) ↔
      Numbered index first items ∧ Numbered index (first + items.length) more := by
  induction items generalizing first with
  | nil => simp [numbered_nil]
  | cons item rest ih =>
      rw [List.cons_append, numbered_cons, numbered_cons, ih, List.length_cons]
      simp only [and_assoc, Nat.add_assoc, Nat.add_comm 1]

theorem numbered_take (numbered : Numbered index first items) (count : Nat) :
    Numbered index first (items.take count) := by
  rw [← List.take_append_drop count items, numbered_append] at numbered
  exact numbered.1

theorem numbered_drop (numbered : Numbered index first items) (count : Nat) :
    Numbered index (first + min count items.length) (items.drop count) := by
  rw [← List.take_append_drop count items, numbered_append, List.length_take] at numbered
  exact numbered.2

theorem mem_bounds (numbered : Numbered index first items) {item : Item} (member : item ∈ items) :
    first ≤ index item ∧ index item < first + items.length := by
  have inside : index item ∈ items.map index := List.mem_map_of_mem member
  rw [numbered, List.mem_range'_1] at inside
  exact inside

theorem numbered_pairwise (numbered : Numbered index first items) :
    items.Pairwise fun item other => index item < index other := by
  induction items generalizing first with
  | nil => exact .nil
  | cons head rest ih =>
      obtain ⟨number, numbers⟩ := numbered_cons.mp numbered
      constructor
      · intro other member
        have past := (mem_bounds numbers member).1
        omega
      · exact ih numbers

theorem filter_below (numbered : Numbered index first items) (stop : Nat) :
    (items.filter fun item => decide (index item < stop)) = items.take (stop - first) := by
  induction items generalizing first with
  | nil => simp
  | cons item rest ih =>
      obtain ⟨number, numbers⟩ := numbered_cons.mp numbered
      by_cases below : first < stop
      · have left : stop - first = (stop - (first + 1)) + 1 := by omega
        rw [left, List.take_succ_cons, ← ih numbers]
        simp [number, below]
      · -- the head is past the end, and so is all that follows
        have none : stop - first = 0 := by omega
        rw [none, List.take_zero, List.filter_eq_nil_iff]
        intro other member
        have past := (mem_bounds numbered member).1
        simp
        omega

theorem filter_from (numbered : Numbered index first items) (start : Nat) :
    (items.filter fun item => decide (start ≤ index item)) = items.drop (start - first) := by
  induction items generalizing first with
  | nil => simp
  | cons item rest ih =>
      obtain ⟨number, numbers⟩ := numbered_cons.mp numbered
      by_cases before : first < start
      · have left : start - first = (start - (first + 1)) + 1 := by omega
        have out : ¬ start ≤ first := by omega
        rw [left, List.drop_succ_cons, ← ih numbers]
        simp [number, out]
      · have none : start - first = 0 := by omega
        rw [none, List.drop_zero, List.filter_eq_self]
        intro other member
        have past := (mem_bounds numbered member).1
        simp
        omega

/-- The items with the numbers from `start` to before `stop`. -/
theorem filter_between (numbered : Numbered index first items) {start : Nat} (stop : Nat)
    (from_ : first ≤ start) :
    (items.filter fun item => decide (index item < stop) && decide (start ≤ index item)) =
      (items.drop (start - first)).take (stop - start) := by
  have dropped := numbered_drop numbered (start - first)
  rw [← List.filter_filter, filter_from numbered]
  by_cases short : items.length ≤ start - first
  · simp [List.drop_eq_nil_of_le short]
  · have number : first + min (start - first) items.length = start := by omega
    rw [number] at dropped
    exact filter_below dropped stop

theorem numbered_between (numbered : Numbered index first items) {start stop : Nat}
    (from_ : first ≤ start)
    (upto : stop ≤ first + items.length) :
    ((items.drop (start - first)).take (stop - start)).map index =
      List.range' start (stop - start) := by
  by_cases empty : stop ≤ start
  · have none : stop - start = 0 := by omega
    simp [none]
  · have dropped := numbered_take (numbered_drop numbered (start - first)) (stop - start)
    have number : first + min (start - first) items.length = start := by omega
    have length : ((items.drop (start - first)).take (stop - start)).length = stop - start := by
      rw [List.length_take, List.length_drop]
      omega
    rw [number, Numbered, length] at dropped
    exact dropped

theorem last_number (numbered : Numbered index first items) {item : Item}
    (last : items.getLast? = some item) : index item + 1 = first + items.length := by
  obtain ⟨front, rfl⟩ := List.getLast?_eq_some_iff.mp last
  have number := (numbered_cons.mp (numbered_append.mp numbered).2).1
  rw [List.length_append, List.length_singleton]
  omega

end PgHa.NumberedList
