import PgHa.RiseFall
import Mathlib.Data.List.Infix

/-!
What the counts of a streak say of the outcomes: it is up exactly when there have been
`rise` successes in a row, and since then no `fall` failures in a row. One outcome is as
good as none where a bound is zero.
-/

namespace PgHa.RiseFall

/-- The outcomes in their order, the last one at the end. -/
def Streak.after (rise fall : Nat) (outcomes : List Bool) : Streak :=
  outcomes.foldl (fun streak ok => (streak.count rise fall ok).1) .fresh

/-- As many outcomes of a kind as a bound asks for. -/
def inRow (bound : Nat) (ok : Bool) : List Bool := List.replicate (max 1 bound) ok

def Risen (rise fall : Nat) (outcomes : List Bool) : Prop :=
  ∃ earlier later, outcomes = earlier ++ inRow rise true ++ later ∧
    ¬ inRow fall false <:+: later

variable {rise fall : Nat} {outcomes : List Bool}

theorem after_concat (outcomes : List Bool) (ok : Bool) :
    Streak.after rise fall (outcomes ++ [ok]) =
      ((Streak.after rise fall outcomes).count rise fall ok).1 := by
  simp [Streak.after]

/-! ### The counts -/

theorem replicate_suffix_concat {bound : Nat} {ok : Bool} :
    List.replicate (bound + 1) ok <:+ outcomes ++ [ok] ↔
      List.replicate bound ok <:+ outcomes := by
  rw [List.replicate_succ', List.suffix_concat_iff]
  simp

theorem not_replicate_suffix {bound : Nat} {ok other : Bool} (differs : ok ≠ other) :
    ¬ List.replicate (bound + 1) ok <:+ outcomes ++ [other] := by
  rw [List.replicate_succ', List.suffix_concat_iff]
  simp [differs]

theorem le_successCount (bound : Nat) :
    bound ≤ (Streak.after rise fall outcomes).successCount ↔
      List.replicate bound true <:+ outcomes := by
  induction outcomes using List.reverseRecOn generalizing bound with
  | nil => simp [Streak.after, Streak.fresh]
  | append_singleton outcomes ok ih =>
      rw [after_concat]
      cases bound with
      | zero => simp
      | succ bound =>
          cases ok with
          | true => rw [count_ok, replicate_suffix_concat, ← ih, Nat.add_le_add_iff_right]
          | false =>
              rw [count_failed]
              simp [not_replicate_suffix]

theorem le_failCount (bound : Nat) :
    bound ≤ (Streak.after rise fall outcomes).failCount ↔
      List.replicate bound false <:+ outcomes := by
  induction outcomes using List.reverseRecOn generalizing bound with
  | nil => simp [Streak.after, Streak.fresh]
  | append_singleton outcomes ok ih =>
      rw [after_concat]
      cases bound with
      | zero => simp
      | succ bound =>
          cases ok with
          | false => rw [count_failed, replicate_suffix_concat, ← ih, Nat.add_le_add_iff_right]
          | true =>
              rw [count_ok]
              simp [not_replicate_suffix]

/-- The bound of a mark, reached with the outcome that is counted. -/
theorem inRow_suffix_iff {bound : Nat} {ok : Bool} {count : Nat}
    (counted : ∀ bound, bound ≤ count ↔ List.replicate bound ok <:+ outcomes) :
    inRow bound ok <:+ outcomes ++ [ok] ↔ bound ≤ count + 1 := by
  have last : max 1 bound = max 1 bound - 1 + 1 := by omega
  rw [inRow, last, replicate_suffix_concat, ← counted]
  omega

/-! ### The marks -/

/-- A run of failures at the end of the outcomes began after every success. -/
theorem suffix_of_past_success {earlier later : List Bool} {bound : Nat}
    (failures : List.replicate bound false <:+ earlier ++ true :: later) :
    List.replicate bound false <:+ later := by
  rcases List.suffix_or_suffix_of_suffix failures (List.suffix_append earlier (true :: later))
    with inside | outside
  · rcases List.suffix_cons_iff.mp inside with whole | inside
    · have success : true ∈ List.replicate bound false := whole ▸ List.mem_cons_self
      simp at success
    · exact inside
  · have success : true ∈ List.replicate bound false := outside.subset List.mem_cons_self
    simp at success

theorem risen_ok : Risen rise fall (outcomes ++ [true]) ↔
    Risen rise fall outcomes ∨ inRow rise true <:+ outcomes ++ [true] := by
  constructor
  · rintro ⟨earlier, later, split, stays⟩
    rcases List.eq_nil_or_concat later with rfl | ⟨later, last, rfl⟩
    · right
      rw [split, List.append_nil]
      exact List.suffix_append _ _
    · left
      rw [List.concat_eq_append] at split stays
      rw [← List.append_assoc] at split
      have same := List.append_inj' split rfl
      refine ⟨earlier, later, same.1, fun falls => stays ?_⟩
      exact falls.trans (List.prefix_append _ _).isInfix
  · rintro (⟨earlier, later, split, stays⟩ | ⟨earlier, split⟩)
    · refine ⟨earlier, later ++ [true], by rw [split, List.append_assoc], ?_⟩
      rw [List.infix_concat_iff]
      rintro (ends | falls)
      · have last : max 1 fall = max 1 fall - 1 + 1 := by omega
        rw [inRow, last] at ends
        exact not_replicate_suffix (by decide) ends
      · exact stays falls
    · refine ⟨earlier, [], by rw [← split, List.append_nil], ?_⟩
      simp [inRow]

theorem risen_failed : Risen rise fall (outcomes ++ [false]) ↔
    Risen rise fall outcomes ∧ ¬ inRow fall false <:+ outcomes ++ [false] := by
  constructor
  · rintro ⟨earlier, later, split, stays⟩
    have some : ∃ rest, inRow rise true = rest ++ [true] :=
      ⟨List.replicate (max 1 rise - 1) true, by
        rw [← List.replicate_succ', inRow]
        congr 1
        omega⟩
    obtain ⟨rest, successes⟩ := some
    rcases List.eq_nil_or_concat later with rfl | ⟨later, last, rfl⟩
    · rw [List.append_nil, successes, ← List.append_assoc] at split
      have same := (List.append_inj' split rfl).2
      cases same
    · rw [List.concat_eq_append] at split stays
      have whole := split
      rw [← List.append_assoc] at split
      have same := List.append_inj' split rfl
      refine ⟨⟨earlier, later, same.1, fun falls => stays ?_⟩, fun ends => stays ?_⟩
      · exact falls.trans (List.prefix_append _ _).isInfix
      · rw [whole, successes] at ends
        have past : earlier ++ (rest ++ [true]) ++ (later ++ [last]) =
            (earlier ++ rest) ++ true :: (later ++ [last]) := by simp
        rw [past] at ends
        exact (suffix_of_past_success ends).isInfix
  · rintro ⟨⟨earlier, later, split, stays⟩, continues⟩
    refine ⟨earlier, later ++ [false], by rw [split, List.append_assoc], ?_⟩
    rw [List.infix_concat_iff]
    rintro (ends | falls)
    · apply continues
      rw [split, List.append_assoc]
      exact ends.trans (List.suffix_append _ _)
    · exact stays falls

/-- The mark that the counts keep is the one that the outcomes give. -/
theorem healthy_iff (rise fall : Nat) (outcomes : List Bool) :
    (Streak.after rise fall outcomes).healthy = true ↔ Risen rise fall outcomes := by
  induction outcomes using List.reverseRecOn with
  | nil =>
      constructor
      · intro healthy
        cases healthy
      · rintro ⟨earlier, later, split, _⟩
        have length := congrArg List.length split
        simp [inRow] at length
        omega
  | append_singleton outcomes ok ih =>
      rw [after_concat]
      cases ok with
      | true =>
          have counted : ∀ bound, bound ≤ (Streak.after rise fall outcomes).successCount ↔
              List.replicate bound true <:+ outcomes := fun bound => le_successCount bound
          rw [count_ok, risen_ok, ← ih, inRow_suffix_iff counted, Bool.or_eq_true,
            decide_eq_true_eq]
      | false =>
          have counted : ∀ bound, bound ≤ (Streak.after rise fall outcomes).failCount ↔
              List.replicate bound false <:+ outcomes := fun bound => le_failCount bound
          rw [count_failed, risen_failed, ← ih, inRow_suffix_iff counted]
          simp

end PgHa.RiseFall
