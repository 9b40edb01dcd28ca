import Mathlib.Order.Defs.LinearOrder

/-!
Marks that follow consecutive outcomes: up after `rise` successes in a row, down after
`fall` failures in a row. Of two marks that never both see a success, one is not up
while the other is, if a fall takes no longer than a rise.
-/

namespace PgHa.RiseFall

inductive Mark where
  | up
  | down
  deriving DecidableEq

structure Streak where
  healthy : Bool
  failCount : Nat
  successCount : Nat
  deriving DecidableEq

def Streak.fresh : Streak := ⟨false, 0, 0⟩

/-- The count after one outcome, and the mark that it sets. -/
def Streak.count (rise fall : Nat) (streak : Streak) (ok : Bool) : Streak × Option Mark :=
  if ok then
    if !streak.healthy && rise ≤ streak.successCount + 1 then
      (⟨true, 0, streak.successCount + 1⟩, some .up)
    else (⟨streak.healthy, 0, streak.successCount + 1⟩, none)
  else
    if streak.healthy && fall ≤ streak.failCount + 1 then
      (⟨false, streak.failCount + 1, 0⟩, some .down)
    else (⟨streak.healthy, streak.failCount + 1, 0⟩, none)

variable {rise fall : Nat} {streak : Streak}

@[simp] theorem count_failed (rise fall : Nat) (streak : Streak) :
    (streak.count rise fall false).1 =
      ⟨streak.healthy && !decide (fall ≤ streak.failCount + 1), streak.failCount + 1, 0⟩ := by
  cases healthy : streak.healthy with
  | false => simp [Streak.count, healthy]
  | true =>
      by_cases falls : fall ≤ streak.failCount + 1
      · simp [Streak.count, healthy, falls]
      · simp [Streak.count, healthy, falls]

@[simp] theorem count_ok (rise fall : Nat) (streak : Streak) :
    (streak.count rise fall true).1 =
      ⟨streak.healthy || decide (rise ≤ streak.successCount + 1), 0,
        streak.successCount + 1⟩ := by
  cases healthy : streak.healthy with
  | true => simp [Streak.count, healthy]
  | false =>
      by_cases rises : rise ≤ streak.successCount + 1
      · simp [Streak.count, healthy, rises]
      · simp [Streak.count, healthy, rises]

/-- Without a mark the streak is as healthy as before. -/
theorem count_unmarked {ok : Bool} (unmarked : (streak.count rise fall ok).2 = none) :
    (streak.count rise fall ok).1.healthy = streak.healthy := by
  unfold Streak.count at unmarked ⊢
  split at unmarked
  · split at unmarked
    · cases unmarked
    · rename_i isOk stays
      simp [isOk, stays]
  · split at unmarked
    · cases unmarked
    · rename_i notOk stays
      simp [notOk, stays]

theorem count_down {ok : Bool} (down : (streak.count rise fall ok).2 = some .down) :
    streak.healthy = true ∧ ok = false ∧ fall ≤ streak.failCount + 1 := by
  unfold Streak.count at down
  split at down
  · split at down
    · cases down
    · cases down
  · split at down
    · rename_i notOk falls
      simpa [notOk] using falls
    · cases down

/-- As many successes as mark up do so with one more. -/
theorem risen_succ (rise rounds : Nat) :
    (decide (rise ≤ rounds) || decide (rise ≤ rounds + 1)) = decide (rise ≤ rounds + 1) := by
  by_cases risen : rise ≤ rounds
  · simp [risen, Nat.le_succ_of_le risen]
  · simp [risen]

/-! ### Two streaks -/

/-- While the first is healthy the second is not, and has had no more successes in a row
than the first has had failures. -/
def Yields (first second : Streak) : Prop :=
  first.healthy = true → second.healthy = false ∧ second.successCount ≤ first.failCount

theorem yields_fresh (first : Streak) : Yields first .fresh :=
  fun _ => ⟨rfl, Nat.zero_le _⟩

theorem fresh_yields (second : Streak) : Yields .fresh second := by
  intro healthy
  cases healthy

/-- By the outcomes of the round, which are not both good. -/
theorem yields_count (quick : fall ≤ rise) {first second : Streak} {ok ok' : Bool}
    (single : ¬ (ok = true ∧ ok' = true)) (yields : Yields first second)
    (yields' : Yields second first) :
    Yields (first.count rise fall ok).1 (second.count rise fall ok').1 := by
  unfold Yields at yields yields' ⊢
  cases ok with
  | true =>
      cases ok' with
      | true => exact absurd ⟨rfl, rfl⟩ single
      | false =>
          simp only [count_ok, count_failed, Bool.or_eq_true, decide_eq_true_eq,
            Bool.and_eq_false_iff,
            Nat.le_refl, and_true]
          rintro (healthy | rises)
          · exact .inl (yields healthy).1
          · by_cases healthy' : second.healthy = true
            · have behind := (yields' healthy').2
              have falls : fall ≤ second.failCount + 1 := by omega
              simp [falls]
            · exact .inl (by simpa using healthy')
  | false =>
      cases ok' with
      | true =>
          simp only [count_ok, count_failed, Bool.and_eq_true, Bool.not_eq_true',
            decide_eq_false_iff_not,
            Bool.or_eq_false_iff]
          rintro ⟨healthy, stays⟩
          have behind := yields healthy
          exact ⟨⟨behind.1, by omega⟩, by omega⟩
      | false =>
          simp only [count_failed, Bool.and_eq_true]
          rintro ⟨healthy, _⟩
          simp [(yields healthy).1]

end PgHa.RiseFall
