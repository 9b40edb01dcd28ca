import Mathlib.Data.List.Basic
import Mathlib.Data.List.Perm.Basic

/-!
The first elements of a ranking, when the ranking changes. If every element that was picked
still comes before every element that was not, the same elements are picked.
-/

namespace PgHa.RankedPrefix

variable {Elem : Type} {before : Elem → Elem → Prop}

/-- Picked elements that come before the others stand at the front. -/
theorem picked_first {picked : Elem → Bool}
    (asymm : ∀ first second, before first second → ¬before second first)
    {ranking : List Elem} (ordered : ranking.Pairwise before)
    (ahead : ∀ first ∈ ranking, ∀ second ∈ ranking, picked first = true →
      picked second = false →
        before first second) :
    ranking.filter picked ++ ranking.filter (fun elem => !picked elem) = ranking := by
  induction ranking with
  | nil => rfl
  | cons head rest ih =>
      have inner := ih (List.pairwise_cons.mp ordered).2 fun first inFirst second inSecond =>
        ahead first (List.mem_cons_of_mem _ inFirst) second (List.mem_cons_of_mem _ inSecond)
      cases pick : picked head with
      | true => simp [pick, inner]
      | false =>
          -- whatever is picked later would come before the head
          have nobody : rest.filter picked = [] := by
            rw [List.filter_eq_nil_iff]
            intro later inRest picks
            exact asymm _ _ ((List.pairwise_cons.mp ordered).1 later inRest)
              (ahead later (List.mem_cons_of_mem _ inRest) head List.mem_cons_self picks pick)
          rw [nobody, List.nil_append] at inner
          simp [pick, nobody, inner]

variable [DecidableEq Elem]

theorem filter_take {ranking : List Elem} (nodup : ranking.Nodup) (n : Nat) :
    ranking.filter (fun elem => decide (elem ∈ ranking.take n)) = ranking.take n := by
  have apart := nodup
  rw [← List.take_append_drop n ranking, List.nodup_append] at apart
  obtain ⟨_, _, apart⟩ := apart
  conv_lhs => rw [← List.take_append_drop n ranking, List.filter_append]
  rw [List.take_append_drop]
  have kept : (ranking.take n).filter (fun elem => decide (elem ∈ ranking.take n)) =
      ranking.take n := by
    simp [List.filter_eq_self]
  have gone : (ranking.drop n).filter (fun elem => decide (elem ∈ ranking.take n)) = [] := by
    rw [List.filter_eq_nil_iff]
    intro elem late early
    exact apart elem (by simpa using early) elem late rfl
  rw [kept, gone, List.append_nil]

/-- The same elements are picked in the new ranking. -/
theorem mem_take_reranked {old new : List Elem} (perm : new.Perm old) (nodup : old.Nodup)
    (asymm : ∀ first second, before first second → ¬before second first)
    (ordered : new.Pairwise before)
    (n : Nat) (ahead : ∀ first ∈ old.take n, ∀ second ∈ old.drop n, before first second)
    (elem : Elem) :
    elem ∈ new.take n ↔ elem ∈ old.take n := by
  have picks := filter_take nodup n
  have apart : ∀ first ∈ new, ∀ second ∈ new, decide (first ∈ old.take n) = true →
      decide (second ∈ old.take n) = false → before first second := by
    intro first _ second inNew early late
    rw [decide_eq_true_eq] at early
    rw [decide_eq_false_iff_not] at late
    have inOld := perm.mem_iff.mp inNew
    rw [← List.take_append_drop n old, List.mem_append] at inOld
    exact ahead first early second (inOld.resolve_left late)
  have front := picked_first asymm ordered apart
  have length : (new.filter fun elem => decide (elem ∈ old.take n)).length =
      min n new.length := by
    rw [(perm.filter _).length_eq, picks, List.length_take, perm.length_eq]
  have taken : new.take n = new.filter fun elem => decide (elem ∈ old.take n) := by
    rw [List.take_eq_take_min]
    conv_lhs => rw [← front]
    exact List.take_left' (by rw [length, front])
  rw [taken, List.mem_filter, decide_eq_true_eq]
  constructor
  · exact And.right
  · exact fun early => ⟨perm.mem_iff.mpr (List.mem_of_mem_take early), early⟩

end PgHa.RankedPrefix
