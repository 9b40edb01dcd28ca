import PgHa.Cluster
import Mathlib.Data.List.Sort

/-!
The values of `synchronous_standby_names` and of `/sync`: how
`SyncManager::compute_sync_standby_names` (`pg-ha-core/src/sync.rs`) builds the
PostgreSQL value, and how the names are read back from it and from `/sync`
(`ha/mod.rs`). A `BTreeSet<String>` is the ordered list of its elements.
-/

namespace PgHa.SyncNames

open Text Cluster

structure ReplicaRow where
  applicationName : Str
  flushLsn : Nat
  deriving DecidableEq, Repr

structure ReplicationSnapshot where
  primaryFlushLsn : Nat
  replicas : List ReplicaRow
  deriving DecidableEq, Repr

inductive SyncMode where
  | off
  | priority
  | quorum
  deriving DecidableEq, Repr

structure SyncManager where
  mode : SyncMode
  syncNodeCount : Nat
  strictMode : Bool
  deriving DecidableEq, Repr

def SyncManager.new (mode : SyncMode) (syncNodeCount : Nat) (strictMode : Bool) : SyncManager :=
  ⟨mode, max syncNodeCount 1, strictMode⟩

structure Candidate where
  member : Member
  priority : Nat
  flushLsn : Nat
  isVoter : Bool
  deriving DecidableEq, Repr

def placeholderName : Str := "_pg_ha_no_eligible_sync_standby_".toList

/-- `quote_ident`: double quotes around, double quotes inside doubled. -/
def quoteIdent (name : Str) : Str := '"' :: (doubleQuotes name ++ ['"'])

/-- `FIRST n (..)` or `ANY n (..)` over quoted names. -/
def renderList (keyword : Str) (count : Nat) (names : List Str) : Str :=
  keyword ++ (' ' :: Nat.toDigits 10 count) ++ [' ', '('] ++
    (joinWith ',' (names.map quoteIdent) ++ [')'])

def strictNoEligiblePlaceholder : Str := renderList "FIRST".toList 1 [placeholderName]

/-- The row of a standby, by application name without regard to case. -/
def findRow (snapshot : ReplicationSnapshot) (name : Str) : Option ReplicaRow :=
  snapshot.replicas.find? fun row => eqIgnoreAsciiCase row.applicationName name

/-- Running replicas other than this node that stream from it. -/
def candidates (members : List Member) (myName : Str) (snapshot : ReplicationSnapshot)
    (currentVoters : List Str) : List Candidate :=
  (members.filter fun member => member.name != myName && !member.isNosync &&
      member.state == .running && member.role == .replica).filterMap fun member =>
    (findRow snapshot member.name).map fun row =>
      ⟨member, member.syncPriority, row.flushLsn,
        currentVoters.any fun voter => eqIgnoreAsciiCase voter member.name⟩

-- With more than one candidate the furthest of them, else the primary.
def baseline (found : List Candidate) (snapshot : ReplicationSnapshot) : Nat :=
  match found with
  | [] => snapshot.primaryFlushLsn
  | [_] => snapshot.primaryFlushLsn
  | first :: second :: rest =>
      (first :: second :: rest).foldl (fun furthest candidate => max furthest candidate.flushLsn) 0

def withinLag (found : List Candidate) (snapshot : ReplicationSnapshot)
    (threshold : Option Nat) : List Candidate :=
  match threshold with
  | some limit =>
      found.filter fun candidate => baseline found snapshot - candidate.flushLsn ≤ limit
  | none => found

/-- The sort: priority down, voters first, flush LSN down, name up. -/
def candidateLe (a b : Candidate) : Bool :=
  if a.priority ≠ b.priority then decide (b.priority < a.priority)
  else if a.isVoter ≠ b.isVoter then a.isVoter
  else if a.flushLsn ≠ b.flushLsn then decide (b.flushLsn < a.flushLsn)
  else !decide (b.member.name < a.member.name)

def SyncManager.eligible (members : List Member) (myName : Str) (snapshot : ReplicationSnapshot)
    (threshold : Option Nat) (currentVoters : List Str) : List Candidate :=
  (withinLag (candidates members myName snapshot currentVoters) snapshot threshold).insertionSort
    (fun a b => candidateLe a b = true)

-- Strict mode keeps the configured count, else it is cut to the eligible.
def SyncManager.count (manager : SyncManager) (found : List Candidate) : Nat :=
  if manager.strictMode then manager.syncNodeCount else min manager.syncNodeCount found.length

def SyncManager.chosen (manager : SyncManager) (found : List Candidate) : List Str :=
  (found.take (manager.count found)).map fun candidate => candidate.member.name

def SyncManager.computeSyncStandbyNames (manager : SyncManager) (members : List Member)
    (myName : Str) (snapshot : ReplicationSnapshot) (threshold : Option Nat)
    (currentVoters : List Str) : Option Str :=
  let found := SyncManager.eligible members myName snapshot threshold currentVoters
  match manager.mode with
  | .off => none
  | .priority =>
      if found.isEmpty then
        some (if manager.strictMode then strictNoEligiblePlaceholder else [])
      else some (renderList "FIRST".toList (manager.count found) (manager.chosen found))
  | .quorum =>
      if found.isEmpty then
        some (if manager.strictMode then strictNoEligiblePlaceholder else [])
      else some (renderList "ANY".toList (manager.count found) (manager.chosen found))

def insertName (name : Str) : List Str → List Str
  | [] => [name]
  | head :: rest =>
      if name = head then head :: rest
      else if name < head then name :: head :: rest
      else head :: insertName name rest

def nameSet (names : List Str) : List Str := names.foldl (fun set name => insertName name set) []

/-- `sync_name_set`: case-folded. -/
def syncNameSet (names : List Str) : List Str := nameSet (names.map toAsciiLowercase)

-- One name between the commas of a PostgreSQL value.
def readName (raw : Str) : Str :=
  toAsciiLowercase (trim (undoubleQuotes (stripSuffix '"' (stripPrefix '"' (trim raw)))))

-- The source slices from the first `(` to the last `)` and would panic if that
-- one came first; no value built by `renderList` is such.
def listBody (pgValue : Str) : Option Str := (afterFirst '(' pgValue).bind (beforeLast ')')

def extractNamesFromSyncValue (pgValue : Option Str) : List Str :=
  match pgValue with
  | none => []
  | some value =>
      let value := trim value
      if value.isEmpty || value == ['*'] then []
      else
        match listBody value with
        | some body =>
            nameSet (((body.splitOn ',').map readName).filter fun name => !name.isEmpty)
        | none => []

theorem mem_insertName (name other : Str) (set : List Str) :
    other ∈ insertName name set ↔ other = name ∨ other ∈ set := by
  induction set with
  | nil => simp [insertName]
  | cons head rest ih =>
      simp only [insertName]
      split
      · rename_i same
        simp only [List.mem_cons, same]
        constructor
        · exact Or.inr
        · rintro (isHead | inside)
          · exact Or.inl isHead
          · exact inside
      · split
        · simp
        · simp only [List.mem_cons, ih]
          constructor
          · rintro (isHead | isName | inRest)
            · exact Or.inr (Or.inl isHead)
            · exact Or.inl isName
            · exact Or.inr (Or.inr inRest)
          · rintro (isName | isHead | inRest)
            · exact Or.inr (Or.inl isName)
            · exact Or.inl isHead
            · exact Or.inr (Or.inr inRest)

theorem mem_nameSet (names : List Str) (name : Str) : name ∈ nameSet names ↔
    name ∈ names := by
  have general : ∀ set, name ∈ names.foldl (fun set name => insertName name set) set ↔
      name ∈ set ∨ name ∈ names := by
    induction names with
    | nil => simp
    | cons head rest ih =>
        intro set
        simp only [List.foldl_cons, ih, mem_insertName, List.mem_cons]
        constructor
        · rintro ((isHead | inSet) | inRest)
          · exact Or.inr (Or.inl isHead)
          · exact Or.inl inSet
          · exact Or.inr (Or.inr inRest)
        · rintro (inSet | isHead | inRest)
          · exact Or.inl (Or.inr inSet)
          · exact Or.inl (Or.inl isHead)
          · exact Or.inr inRest
  simpa [nameSet] using general []

/-- A name as `/sync` can carry it and give it back. -/
structure Publishable (name : Str) : Prop where
  filled : name ≠ []
  trimmed : Trimmed name
  noComma : ',' ∉ name
  folded : toAsciiLowercase name = name

theorem readName_publishable {raw : Str} (noComma : ',' ∉ raw) (filled : readName raw ≠ []) :
    Publishable (readName raw) := by
  constructor
  · exact filled
  · exact trimmed_lower (trim_trimmed _)
  · intro comma
    obtain ⟨c, member, isComma⟩ := List.mem_map.mp comma
    rw [lowerChar_separator c ',' (by decide)] at isComma
    subst c
    exact noComma (trim_subset (stripPrefix_subset (stripSuffix_subset
      (undouble_subset (trim_subset member)))))
  · exact lower_idempotent _

theorem extracted_publishable (pgValue : Option Str) :
    ∀ name ∈ extractNamesFromSyncValue pgValue, Publishable name := by
  intro name member
  unfold extractNamesFromSyncValue at member
  split at member
  · cases member
  · dsimp only at member
    split at member
    · cases member
    · split at member
      · rw [mem_nameSet] at member
        simp only [List.mem_filter, List.mem_map, Bool.not_eq_true', List.isEmpty_eq_false_iff]
          at member
        obtain ⟨⟨raw, inBody, rfl⟩, filled⟩ := member
        exact readName_publishable (split_no_separator inBody) filled
      · cases member

/-- The `/sync` value holding exactly `names` (`write_sync_state`). -/
def syncStateOf (leader : Str) (names : List Str) (enabled : Bool) (count : Nat) : SyncState :=
  { leader := leader
    syncStandby := if names.isEmpty then none else some (joinWith ',' names)
    quorum := if enabled then count % 2 ^ 32 else 0 }

/-- The case-folded names of a `/sync` value, whoever wrote it. -/
def dcsNames (sync : Option SyncState) : List Str :=
  match sync with
  | some state => syncNameSet state.syncStandbyNames
  | none => []

theorem syncStandbyNames_of (leader : Str) (names : List Str) (enabled : Bool) (count : Nat)
    (publishable : ∀ name ∈ names, Publishable name) :
    (syncStateOf leader names enabled count).syncStandbyNames = names := by
  unfold syncStateOf SyncState.syncStandbyNames
  cases names with
  | nil => rfl
  | cons head rest =>
      simp only [List.isEmpty_cons, if_neg, Bool.false_eq_true, not_false_eq_true]
      rw [split_join ',' (head :: rest) (by simp)
        (fun part member => (publishable part member).noComma)]
      have trims : (head :: rest).map trim = head :: rest := by
        rw [List.map_congr_left (fun name member => (publishable name member).trimmed)]
        simp
      rw [trims, List.filter_eq_self]
      intro name member
      simpa using (publishable name member).filled

-- What is written to `/sync` is what is read back from it.
theorem mem_dcsNames_of (leader : Str) (names : List Str) (enabled : Bool) (count : Nat)
    (publishable : ∀ name ∈ names, Publishable name) (name : Str) :
    name ∈ dcsNames (some (syncStateOf leader names enabled count)) ↔ name ∈ names := by
  have folded : names.map toAsciiLowercase = names := by
    rw [List.map_congr_left (fun name member => (publishable name member).folded)]
    simp
  simp only [dcsNames, syncNameSet, syncStandbyNames_of leader names enabled count publishable,
    folded, mem_nameSet]

/-- A node name that the quoted list gives back as it is. -/
structure PlainName (name : Str) : Prop where
  filled : name ≠ []
  trimmed : Trimmed name
  noComma : ',' ∉ name

instance (name : Str) : Decidable (PlainName name) :=
  decidable_of_iff (name ≠ [] ∧ trim name = name ∧ ',' ∉ name)
    ⟨fun ⟨filled, trimmed, noComma⟩ => ⟨filled, trimmed, noComma⟩,
      fun plain => ⟨plain.filled, plain.trimmed, plain.noComma⟩⟩

theorem trimmed_between (first last : Char) (middle : Str)
    (openVisible : isWhitespace first = false)
    (closeVisible : isWhitespace last = false) : Trimmed (first :: (middle ++ [last])) := by
  unfold Trimmed trim
  rw [List.dropWhile_cons_of_neg (by simp [openVisible]), ← List.cons_append]
  apply List.rdropWhile_concat_neg
  simp [closeVisible]

theorem readName_quoteIdent {name : Str} (plain : PlainName name) :
    readName (quoteIdent name) = toAsciiLowercase name := by
  have quoted : trim (quoteIdent name) = quoteIdent name :=
    trimmed_between '"' '"' (doubleQuotes name) (by decide) (by decide)
  unfold readName
  rw [quoted, quoteIdent, stripPrefix_cons, stripSuffix_concat, undouble_double, plain.trimmed]

theorem quoteIdent_noComma {name : Str} (plain : PlainName name) : ',' ∉ quoteIdent name := by
  intro member
  simp only [quoteIdent, doubleQuotes, List.mem_cons, List.mem_append, List.mem_flatMap,
    List.not_mem_nil, or_false] at member
  rcases member with isQuote | ⟨c, inside, isComma⟩ | isQuote
  · cases isQuote
  · split at isComma
    · simp at isComma
    · simp only [List.mem_singleton] at isComma
      subst c
      exact plain.noComma inside
  · cases isQuote

theorem digits_no_paren (count : Nat) : '(' ∉ Nat.toDigits 10 count := by
  intro member
  have digit := Nat.isDigit_of_mem_toDigits (by decide) (by decide) member
  revert digit
  decide

theorem listBody_renderList (count : Nat) (names : List Str) :
    listBody (renderList "FIRST".toList count names) =
      some (joinWith ',' (names.map quoteIdent)) := by
  have front : '(' ∉ "FIRST".toList ++ (' ' :: Nat.toDigits 10 count) ++ [' '] := by
    simp only [List.mem_append, List.mem_cons, not_or, List.not_mem_nil,
      not_false_eq_true, and_true]
    exact ⟨⟨by decide, by decide, digits_no_paren count⟩, by decide⟩
  have shape : renderList "FIRST".toList count names =
      ("FIRST".toList ++ (' ' :: Nat.toDigits 10 count) ++ [' ']) ++
        '(' :: (joinWith ',' (names.map quoteIdent) ++ [')']) := by
    simp [renderList]
  rw [listBody, shape, afterFirst_append '(' _ _ front, Option.bind_some, beforeLast_concat]

theorem trim_renderList (count : Nat) (names : List Str) :
    trim (renderList "FIRST".toList count names) = renderList "FIRST".toList count names := by
  have shape : renderList "FIRST".toList count names =
      'F' :: (("IRST".toList ++ (' ' :: Nat.toDigits 10 count) ++ [' ', '('] ++
        joinWith ',' (names.map quoteIdent)) ++ [')']) := by
    simp [renderList]
  rw [shape]
  exact trimmed_between 'F' ')' _ (by decide) (by decide)

/-- A list of plain names reads back as these names, folded. -/
theorem mem_extract_renderList (count : Nat) (names : List Str) (filled : names ≠ [])
    (plain : ∀ name ∈ names, PlainName name) (folded : Str) :
    folded ∈ extractNamesFromSyncValue (some (renderList "FIRST".toList count names)) ↔
      ∃ name ∈ names, toAsciiLowercase name = folded := by
  have pieces : (joinWith ',' (names.map quoteIdent)).splitOn ',' = names.map quoteIdent := by
    apply split_join
    · simpa using filled
    · intro part member
      obtain ⟨name, inside, rfl⟩ := List.mem_map.mp member
      exact quoteIdent_noComma (plain name inside)
  have read : (names.map quoteIdent).map readName = names.map toAsciiLowercase := by
    rw [List.map_map]
    exact List.map_congr_left fun name member => readName_quoteIdent (plain name member)
  have nonEmpty : (renderList "FIRST".toList count names).isEmpty = false := by
    simp [renderList]
  have notStar : (renderList "FIRST".toList count names == ['*']) = false := by
    simp [renderList]
  simp only [extractNamesFromSyncValue, trim_renderList, nonEmpty, notStar, Bool.or_self,
    Bool.false_eq_true, if_false, listBody_renderList, pieces, read, mem_nameSet, List.mem_filter,
    List.mem_map]
  constructor
  · rintro ⟨⟨name, inside, same⟩, _⟩
    exact ⟨name, inside, same⟩
  · rintro ⟨name, inside, same⟩
    refine ⟨⟨name, inside, same⟩, ?_⟩
    subst folded
    simpa [toAsciiLowercase] using (plain name inside).filled

end PgHa.SyncNames
