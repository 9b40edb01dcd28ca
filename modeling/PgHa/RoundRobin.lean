import Mathlib.Data.Int.CardIntervalMod

/-!
Turns by a running number: of the places `0 .. size - 1` each number takes the one of its
remainder. In every window of consecutive numbers each place has its share of the turns,
rounded down or up.
-/

namespace PgHa.RoundRobin

variable {size place : Nat}

/-- How many of the `window` numbers from `start` on take a place. -/
def turns (size place start window : Nat) : Nat :=
  (List.range' start window).countP fun number => number % size = place

theorem turns_eq_count (size place start window : Nat) :
    turns size place start window = Nat.count (fun step => (start + step) % size = place)
      window := by
  unfold turns
  induction window with
  | zero => rfl
  | succ window ih =>
      rw [List.range'_1_concat, List.countP_append, ih, Nat.count_succ, List.countP_singleton]
      simp

/-- The turns up to the end of the window, less those before it. -/
theorem turns_add (inside : place < size) (start window : Nat) :
    start / size + (if place < start % size then 1 else 0) + turns size place start window =
      (start + window) / size + (if place < (start + window) % size then 1 else 0) := by
  have positive : 0 < size := Nat.lt_of_le_of_lt (Nat.zero_le _) inside
  have whole := Nat.count_modEq_card (start + window) positive place
  have before := Nat.count_modEq_card start positive place
  rw [Nat.mod_eq_of_lt inside] at whole before
  have split := Nat.count_add (fun number => number ≡ place [MOD size]) start window
  rw [whole, before] at split
  rw [split, turns_eq_count]
  simp only [Nat.ModEq, Nat.mod_eq_of_lt inside]

theorem le_turns (inside : place < size) (start window : Nat) :
    window / size ≤ turns size place start window := by
  have positive : 0 < size := Nat.lt_of_le_of_lt (Nat.zero_le _) inside
  have counted := turns_add inside start window
  rw [Nat.add_div positive, Nat.add_mod_eq_ite] at counted
  have less := Nat.mod_lt start positive
  have less' := Nat.mod_lt window positive
  split_ifs at counted <;> omega

theorem turns_le (inside : place < size) (start window : Nat) :
    turns size place start window ≤ (window + (size - 1)) / size := by
  have positive : 0 < size := Nat.lt_of_le_of_lt (Nat.zero_le _) inside
  have counted := turns_add inside start window
  have last : size - 1 < size := by omega
  rw [Nat.add_div positive, Nat.div_eq_of_lt last, Nat.mod_eq_of_lt last]
  rw [Nat.add_div positive, Nat.add_mod_eq_ite] at counted
  have less := Nat.mod_lt start positive
  have less' := Nat.mod_lt window positive
  split_ifs at counted ⊢ <;> omega

/-! ### Items in turn -/

section Items

variable {Item : Type} [BEq Item] [LawfulBEq Item] {items : List Item} {item : Item}

def pick (items : List Item) (number : Nat) : Option Item := items[number % items.length]?

omit [BEq Item] [LawfulBEq Item] in
theorem pick_some (there : items ≠ []) (number : Nat) : ∃ item,
    pick items number = some item := by
  have inside := Nat.mod_lt number (List.length_pos_iff.mpr there)
  exact ⟨items[number % items.length], List.getElem?_eq_getElem inside⟩

theorem count_picks (distinct : items.Nodup) (there : items[place]? = some item)
    (numbers : List Nat) :
    (numbers.filterMap (pick items)).count item =
      numbers.countP fun number => number % items.length = place := by
  have own : ∀ number, pick items number = some item ↔ number % items.length = place := by
    intro number
    constructor
    · intro picked
      exact (List.getElem?_inj (List.getElem?_eq_some_iff.mp picked).1 distinct).mp
        (picked.trans there.symm)
    · intro same
      rw [pick, same, there]
  induction numbers with
  | nil => rfl
  | cons number rest ih =>
      rw [List.countP_cons, ← ih]
      cases picked : pick items number with
      | none =>
          have other : ¬ number % items.length = place := fun same => by
            simp [(own number).mpr same] at picked
          simp [picked, other]
      | some next =>
          rw [List.filterMap_cons_some picked, List.count_cons]
          by_cases same : next = item
          · subst same
            simp [(own number).mp picked]
          · have other : ¬ number % items.length = place := by
              intro turn
              rw [(own number).mpr turn] at picked
              exact same (Option.some.inj picked).symm
            simp [same, other]

/-- Whatever the order in which the numbers of a window are looked at. -/
theorem picks_fair {numbers : List Nat} {start window : Nat} (distinct : items.Nodup)
    (yields : numbers.Perm (List.range' start window)) (member : item ∈ items) :
    window / items.length ≤ (numbers.filterMap (pick items)).count item ∧
      (numbers.filterMap (pick items)).count item ≤
        (window + (items.length - 1)) / items.length := by
  obtain ⟨place, inside, same⟩ := List.mem_iff_getElem.mp member
  have there : items[place]? = some item := List.getElem?_eq_some_iff.mpr ⟨inside, same⟩
  have counted : (numbers.filterMap (pick items)).count item =
      turns items.length place start window := by
    rw [count_picks distinct there]
    exact yields.countP_eq _
  rw [counted]
  exact ⟨le_turns inside start window, turns_le inside start window⟩

end Items

end PgHa.RoundRobin
