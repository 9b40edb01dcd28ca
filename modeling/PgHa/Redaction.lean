import PgHa.KeyMask
import PgHa.StandbyConfig

/-!
`redact_connstr` (postgresql.rs) on the connection strings of `build_primary_conninfo`. The
redactor stops at the first space after `password=`; a quoted password may have spaces, and
what follows the first of them stays in the text.
-/

namespace PgHa.Redaction

open Text StandbyConfig KeyMask

def passwordKey : Str := "password=".toList

/-- `redact_connstr`: each turn of its loop finds a `password=`, pushes what stands before it
and `password=***`, and goes on at the next space. -/
def redactConnstr (connstr : Str) : Str := mask ' ' passwordKey "***".toList connstr

/-- What stays of a password: the words after the first space of its quoted form, each up to a
`password=` in it. -/
def leftover (password : Str) : List (Str × Bool) :=
  ((libpqQuote password).splitOn ' ').tail.map (shown passwordKey)

theorem redactConnstr_eq_iff (first second : Str) :
    redactConnstr first = redactConnstr second ↔
      (first.splitOn ' ').map (shown passwordKey) = (second.splitOn ' ').map (shown passwordKey) :=
  mask_eq_iff (by decide) (by decide) (by decide) first second

theorem splitOn_front {front : Str} (whole : ' ' ∉ front) (text : Str) :
    (front ++ text).splitOn ' ' = (text.splitOn ' ').modifyHead (front ++ ·) := by
  induction front with
  | nil =>
      have same : (([] : Str) ++ ·) = id := rfl
      rw [same, List.modifyHead_id]
      rfl
  | cons c rest ih =>
      rw [List.mem_cons, not_or] at whole
      rw [List.cons_append, List.splitOn_cons_eq_if_modifyHead,
        if_neg (by simpa using Ne.symm whole.1),
        ih whole.2, List.modifyHead_modifyHead]
      rfl

theorem splitOn_tail (text : Str) : ∃ word, text.splitOn ' ' = word ::
    (text.splitOn ' ').tail := by
  cases words : text.splitOn ' ' with
  | nil => exact absurd words (List.splitOn_ne_nil ' ' text)
  | cons word rest => exact ⟨word, rfl⟩

/-- The words around the password do not depend on it. -/
theorem shown_conninfo (front password back : Str) :
    ((front ++ ' ' :: (passwordKey ++ libpqQuote password) ++ ' ' :: back).splitOn ' ').map
        (shown passwordKey) =
      (front.splitOn ' ').map (shown passwordKey) ++
        ([], true) :: (leftover password ++ (back.splitOn ' ').map (shown passwordKey)) := by
  obtain ⟨word, words⟩ := splitOn_tail (libpqQuote password)
  rw [List.append_assoc, List.cons_append, List.splitOn_append_cons_self,
    List.splitOn_append_cons_self,
    splitOn_front (show ' ' ∉ passwordKey by decide), words, List.modifyHead_cons,
      List.map_append,
    List.cons_append, List.map_cons, shown_key (by decide), List.map_append, leftover]

theorem buildPrimaryConninfo_shape {connUrl host port : Str}
    (found : connUrlHostPort connUrl = some (host, port))
    (username dbname applicationName : Str) :
    ∃ front back, ∀ password,
      buildPrimaryConninfo connUrl ⟨username, some password, dbname⟩ applicationName =
        some (front ++ ' ' :: (passwordKey ++ libpqQuote password) ++ ' ' :: back) := by
  refine ⟨"host=".toList ++ libpqQuote host ++ " port=".toList ++ libpqQuote port ++
    " user=".toList ++ libpqQuote username, "application_name=".toList ++
      libpqQuote applicationName, ?_⟩
  intro password
  have key : " password=".toList = ' ' :: passwordKey := by decide
  have name : " application_name=".toList = ' ' :: "application_name=".toList := by decide
  simp only [buildPrimaryConninfo, connUrlHasHost, found, Option.isSome_some, Bool.not_true,
    Bool.false_eq_true, if_false, Option.map_some, key, name]
  simp only [List.append_assoc, List.cons_append]

theorem space_quote (value : Str) : ' ' ∈ libpqQuote value ↔ ' ' ∈ value := by
  rw [libpqQuote_eq, ConnInfo.quote]
  split
  · exact ConnInfo.mem_quoted (by decide) (by decide)
  · rfl

theorem leftover_nil_iff (password : Str) : leftover password = [] ↔ ' ' ∉ password := by
  rw [leftover, List.map_eq_nil_iff, ← space_quote]
  constructor
  · intro single inside
    obtain ⟨word, rest, whole, _⟩ := List.eq_append_cons_of_mem inside
    rw [whole, List.splitOn_append_cons_self] at single
    have both := congrArg List.length single
    have first := List.length_pos_iff.mpr (List.splitOn_ne_nil ' ' word)
    have second := List.length_pos_iff.mpr (List.splitOn_ne_nil ' ' rest)
    rw [List.length_tail, List.length_append, List.length_nil] at both
    omega
  · intro absent
    rw [List.splitOn_eq_singleton absent]
    rfl

/-- Two passwords are hidden alike exactly if the same is left of both; nothing is left
exactly of a password without a space. -/
theorem redacted_alike_iff (connUrl username dbname applicationName first second : Str) :
    ((buildPrimaryConninfo connUrl ⟨username, some first, dbname⟩ applicationName).map
      redactConnstr =
        (buildPrimaryConninfo connUrl ⟨username, some second, dbname⟩ applicationName).map
          redactConnstr ↔
      (connUrlHasHost connUrl = true → leftover first = leftover second)) ∧
      (leftover first = [] ↔ ' ' ∉ first) := by
  constructor
  · cases found : connUrlHostPort connUrl with
    | none =>
        have noHost : connUrlHasHost connUrl = false := by simp [connUrlHasHost, found]
        simp [buildPrimaryConninfo, noHost]
    | some parts =>
        have host : connUrlHasHost connUrl = true := by simp [connUrlHasHost, found]
        obtain ⟨front, back, shape⟩ :=
          buildPrimaryConninfo_shape found username dbname applicationName
        rw [shape, shape, Option.map_some, Option.map_some, Option.some.injEq, redactConnstr_eq_iff,
          shown_conninfo, shown_conninfo, List.append_cancel_left_eq, List.cons.injEq,
          List.append_cancel_right_eq]
        simp [host]
  · exact leftover_nil_iff first

/-- A password with a space is cut there, and its end is logged. -/
theorem password_end_survives :
    ∃ first second,
      buildPrimaryConninfo "host=n1".toList ⟨"u".toList, some "a b".toList, []⟩ "n2".toList =
        some first ∧
        buildPrimaryConninfo "host=n1".toList ⟨"u".toList, some "a c".toList, []⟩ "n2".toList =
          some second ∧
        redactConnstr first =
          "host=n1 port=5432 user=u password=*** b' application_name=n2".toList ∧
        redactConnstr first ≠ redactConnstr second := by
  refine ⟨"host=n1 port=5432 user=u password='a b' application_name=n2".toList,
    "host=n1 port=5432 user=u password='a c' application_name=n2".toList, ?_, ?_, ?_, ?_⟩
  · decide
  · decide
  · decide
  · decide

end PgHa.Redaction
