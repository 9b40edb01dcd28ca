import PgHa.VersionCas

/-!
`ExpireKeys` removes at once what a Set and a read would pass over anyway. Two states
that hold the same unexpired entries at some time go on doing so under every request
with a later stamp, and answer every Set alike. A Delete carries no time; it may find an
expired entry that an `ExpireKeys` has already removed, and only its own answer shows it.
-/

namespace PgHa.ExpiryTransparent

open StateMachine VersionCas

/-- The time the Raft leader wrote into the request. -/
def stamp : Request → Option Nat
  | .set _ _ _ _ _ _ now | .expireKeys now => some now
  | .delete _ _ _ => none

def stamps (log : List LogEntry) : List Nat := log.filterMap fun entry => stamp entry.request

/-- Stamps are past the epoch and never go back. -/
structure Stamped (log : List LogEntry) : Prop where
  nonzero : ∀ now ∈ stamps log, now ≠ 0
  ordered : (stamps log).Pairwise (· ≤ ·)

/-- The second log is the first one with `ExpireKeys` entries put in; the other entries
keep their indices. -/
inductive Inserted : List LogEntry → List LogEntry → Prop where
  | nil : Inserted [] []
  | keep {log longer : List LogEntry} (entry : LogEntry) (rest : Inserted log longer) :
      Inserted (entry :: log) (entry :: longer)
  | expire {log longer : List LogEntry} (entry : LogEntry) (now : Nat)
      (request : entry.request = .expireKeys now) (rest : Inserted log longer) :
      Inserted log (entry :: longer)

def runFrom (sm : KvStateMachine) (log : List LogEntry) : KvStateMachine :=
  log.foldl (fun sm entry => (applyEntry sm entry).1) sm

/-- What a request that is a Set is answered, and the entry it leaves when it succeeds. -/
def setResult (sm : KvStateMachine) (entry : LogEntry) : Option (Response × Option KvEntry) :=
  match entry.request with
  | .set key _ _ _ _ _ _ =>
      let result := applyEntry sm entry
      some (result.2, if result.2.succeeded then result.1.data key else none)
  | .delete _ _ _ | .expireKeys _ => none

/-- The results of every Set of a log, in its order. -/
def setResults : KvStateMachine → List LogEntry → List (Response × Option KvEntry)
  | _, [] => []
  | sm, entry :: rest =>
      (setResult sm entry).toList ++ setResults (applyEntry sm entry).1 rest

/-- At `now` both states show the same entries. -/
def Agree (now : Nat) (first second : KvStateMachine) : Prop :=
  ∀ key, (first.data key).filter (live now) = (second.data key).filter (live now)

theorem live_earlier {now later : Nat} {entry : KvEntry} (order : now ≤ later)
    (alive : live later entry = true) : live now entry = true := by
  unfold live at alive ⊢
  split at alive
  · rfl
  · simp only [decide_eq_true_eq] at alive ⊢
    omega

theorem filter_live_twice {now later : Nat} (order : now ≤ later) (slot : Option KvEntry) :
    (slot.filter (live now)).filter (live later) = slot.filter (live later) := by
  cases slot with
  | none => rfl
  | some entry =>
      cases alive : live later entry with
      | true => simp [Option.filter, alive, live_earlier order alive]
      | false => cases early : live now entry <;> simp [Option.filter, alive, early]

theorem agree_later {now later : Nat} {first second : KvStateMachine} (order : now ≤ later)
    (agree : Agree now first second) : Agree later first second := by
  intro key
  rw [← filter_live_twice order (first.data key), agree key, filter_live_twice order]

theorem agree_expired {now : Nat} {first second : KvStateMachine} {entry : LogEntry}
    (request : entry.request = .expireKeys now) (agree : Agree now first second) :
    Agree now first (applyEntry second entry).1 := by
  intro key
  simp only [applyEntry, request, apply, applyExpire]
  rw [filter_live_twice (Nat.le_refl now)]
  exact agree key

/-- A Set sees only unexpired entries, so both states take it alike. -/
theorem agree_set {first second : KvStateMachine} {entry : LogEntry} {key value : String}
    {ttl : Option Nat} {prevExist : Option Bool} {prevValue : Option String}
    {prevVersion : Option Nat} {now : Nat} (nonzero : now ≠ 0)
    (request : entry.request = .set key value ttl prevExist prevValue prevVersion now)
    (agree : Agree now first second) :
    Agree now (applyEntry first entry).1 (applyEntry second entry).1 ∧
      setResult first entry = setResult second entry := by
  have current := agree key
  simp only [setResult, applyEntry, request, apply, applySet, effectiveNow_nonzero _ _ nonzero,
    current]
  split
  · refine ⟨?_, by simp [Response.succeeded, writtenEntry]⟩
    intro other
    by_cases same : other = key
    · subst other
      simp [writtenEntry]
    · simp only [insert_other _ _ _ _ same]
      exact agree other
  · exact ⟨agree, rfl⟩

/-- What a Delete leaves visible depends only on what was visible: an entry that is
already expired is not seen before or after. -/
theorem delete_visible (now : Nat) (sm : KvStateMachine) (key other : String)
    (prevValue : Option String) (recursive : Bool) :
    ((applyDelete sm key prevValue recursive).1.data other).filter (live now) =
      if (if recursive then startsWith other key = true else other = key ∧
        valuePasses prevValue ((sm.data other).filter (live now)) = true) then none
      else (sm.data other).filter (live now) := by
  cases recursive with
  | true =>
      by_cases covered : startsWith other key = true
      · simp [applyDelete, covered]
      · simp [applyDelete, covered]
  | false =>
      by_cases same : other = key
      · subst other
        cases slot : sm.data key with
        | none => simp [applyDelete, slot]
        | some entry =>
            cases alive : live now entry with
            | true =>
                by_cases passed : valuePasses prevValue (some entry) = true
                · simp [applyDelete, slot, passed, alive, Option.filter]
                · simp [applyDelete, slot, passed, alive, Option.filter]
            | false =>
                by_cases passed : valuePasses prevValue (some entry) = true
                · simp [applyDelete, slot, passed, alive, Option.filter]
                · simp [applyDelete, slot, passed, alive, Option.filter]
      · rcases applyDelete_cases sm key prevValue with kept | ⟨_, _, _, removed⟩
        · simp [kept, same]
        · simp [removed, remove_other _ _ _ same, same]

theorem agree_delete {now : Nat} {first second : KvStateMachine} {entry : LogEntry} {key : String}
    {prevValue : Option String} {recursive : Bool}
    (request : entry.request = .delete key prevValue recursive)
    (agree : Agree now first second) :
    Agree now (applyEntry first entry).1 (applyEntry second entry).1 := by
  intro other
  simp only [applyEntry, request, apply, delete_visible]
  rw [agree other]

/-- The time up to which the two states have been compared, after one more entry. -/
def upTo (now : Nat) (entry : LogEntry) : Nat := (stamp entry.request).getD now

theorem agree_entry {now : Nat} {first second : KvStateMachine} {entry : LogEntry}
    (agree : Agree now first second) (order : now ≤ upTo now entry)
    (nonzero : stamp entry.request ≠ some 0) :
    Agree (upTo now entry) (applyEntry first entry).1 (applyEntry second entry).1 ∧
      setResult first entry = setResult second entry := by
  have agree := agree_later order agree
  cases request : entry.request with
  | set key value ttl prevExist prevValue prevVersion time =>
      have isTime : upTo now entry = time := by simp [upTo, request, stamp]
      rw [isTime] at agree ⊢
      refine agree_set ?_ request agree
      rintro rfl
      simp [request, stamp] at nonzero
  | delete key prevValue recursive =>
      exact ⟨agree_delete request agree, by simp [setResult, request]⟩
  | expireKeys time =>
      have isTime : upTo now entry = time := by simp [upTo, request, stamp]
      rw [isTime] at agree ⊢
      refine ⟨?_, by simp [setResult, request]⟩
      intro key
      simp only [applyEntry, request, apply, applyExpire]
      rw [agree key]

theorem ordered_next {now : Nat} {entry : LogEntry} {log : List LogEntry}
    (ordered : (now :: stamps (entry :: log)).Pairwise (· ≤ ·)) :
    now ≤ upTo now entry ∧ (upTo now entry :: stamps log).Pairwise (· ≤ ·) := by
  cases isTime : stamp entry.request with
  | none =>
      simp only [stamps, List.filterMap_cons, isTime] at ordered
      simp only [upTo, isTime, Option.getD_none]
      exact ⟨Nat.le_refl now, ordered⟩
  | some time =>
      simp only [stamps, List.filterMap_cons, isTime] at ordered
      simp only [upTo, isTime, Option.getD_some]
      obtain ⟨below, ordered⟩ := List.pairwise_cons.mp ordered
      exact ⟨below time (by simp), ordered⟩

theorem upTo_mem (now : Nat) (entry : LogEntry) (log : List LogEntry) :
    ∀ time ∈ upTo now entry :: stamps log, time ∈ now :: stamps (entry :: log) := by
  intro time member
  cases isTime : stamp entry.request with
  | none => simpa [stamps, upTo, isTime] using member
  | some first =>
      simp only [upTo, isTime, Option.getD_some] at member
      simp only [stamps, List.filterMap_cons, isTime]
      exact List.mem_cons_of_mem now member

theorem stamp_mem {entry : LogEntry} {log : List LogEntry} {time : Nat}
    (isTime : stamp entry.request = some time) : time ∈ stamps (entry :: log) := by
  simp [stamps, isTime]

theorem stamps_cons (entry : LogEntry) {log : List LogEntry} {time : Nat}
    (member : time ∈ stamps log) : time ∈ stamps (entry :: log) := by
  simp only [stamps, List.filterMap_cons]
  split
  · exact member
  · exact List.mem_cons_of_mem _ member

/-- Both logs go on alike from two states that show the same entries at a time before
every stamp that follows. The induction is on how the longer log was made. -/
theorem runs_agree {log longer : List LogEntry} (inserted : Inserted log longer)
    {now : Nat} {first second : KvStateMachine} (agree : Agree now first second)
    (nonzero : ∀ time ∈ stamps longer, time ≠ 0)
    (ordered : (now :: stamps longer).Pairwise (· ≤ ·)) :
    setResults first log = setResults second longer ∧
      ∀ clock, (∀ time ∈ now :: stamps longer, time ≤ clock) →
        Agree clock (runFrom first log) (runFrom second longer) := by
  induction inserted generalizing now first second with
  | nil => exact ⟨rfl, fun clock late => agree_later (late now (by simp)) agree⟩
  | @keep log longer entry _ ih =>
      obtain ⟨order, ordered⟩ := ordered_next ordered
      have unzero : stamp entry.request ≠ some 0 := fun zero => nonzero 0 (stamp_mem zero) rfl
      obtain ⟨agree, result⟩ := agree_entry agree order unzero
      obtain ⟨results, reads⟩ := ih agree
        (fun time member => nonzero time (stamps_cons entry member)) ordered
      refine ⟨by rw [setResults, setResults, result, results], ?_⟩
      intro clock late
      exact reads clock fun time member => late time (upTo_mem now entry longer time member)
  | @expire log longer entry time request _ ih =>
      obtain ⟨order, ordered⟩ := ordered_next ordered
      have isTime : upTo now entry = time := by simp [upTo, request, stamp]
      have agree := agree_expired request (agree_later (isTime ▸ order) agree)
      rw [isTime] at ordered
      obtain ⟨results, reads⟩ := ih agree
        (fun other member => nonzero other (stamps_cons entry member)) ordered
      constructor
      · rw [results, setResults]
        simp [setResult, request]
      · intro clock late
        refine reads clock fun other member => late other (upTo_mem now entry longer other ?_)
        rw [isTime]
        exact member

/-- `ExpireKeys` is transparent: put anywhere into a log, with stamps that keep the order,
it changes no answer to a Set, no entry that a Set leaves, and no read made at or after
the last stamp. -/
theorem expire_keys_transparent {log longer : List LogEntry} (inserted : Inserted log longer)
    (stamped : Stamped longer) :
    setResults .new log = setResults .new longer ∧
    ∀ clock, (∀ now ∈ stamps longer, now ≤ clock) →
      (∀ key, get clock (after log) key = get clock (after longer) key) ∧
      ∀ pre, getPrefix clock (after log) pre = getPrefix clock (after longer) pre := by
  have start : Agree 0 KvStateMachine.new KvStateMachine.new := fun _ => rfl
  obtain ⟨results, reads⟩ := runs_agree inserted start stamped.nonzero
    (List.pairwise_cons.mpr ⟨fun time _ => Nat.zero_le time, stamped.ordered⟩)
  refine ⟨results, ?_⟩
  intro clock late
  have agree : Agree clock (after log) (after longer) := by
    apply reads clock
    intro time member
    rcases List.mem_cons.mp member with rfl | later
    · exact Nat.zero_le clock
    · exact late time later
  have same : ∀ key, get clock (after log) key = get clock (after longer) key := agree
  refine ⟨same, ?_⟩
  intro pre
  funext key
  simp only [getPrefix, same]

/-- One node takes the lock, its lease runs out, another takes it. -/
def lapsedLock : List LogEntry :=
  [⟨1, 0, .set "/c/leader" "a" (some 10) (some false) none none 1000⟩,
    ⟨3, 0, .set "/c/leader" "b" (some 10) (some false) none none 12000⟩]

def lapsedLockExpired : List LogEntry :=
  [⟨1, 0, .set "/c/leader" "a" (some 10) (some false) none none 1000⟩,
    ⟨2, 0, .expireKeys 11500⟩,
    ⟨3, 0, .set "/c/leader" "b" (some 10) (some false) none none 12000⟩]

theorem expire_keys_transparent_lapsedLock :
    setResults .new lapsedLock = setResults .new lapsedLockExpired ∧
      (get 12000 (after lapsedLock) "/c/leader").map KvEntry.createdAt = some 12000 ∧
      get 12000 (after lapsedLock) "/c/leader" =
        get 12000 (after lapsedLockExpired) "/c/leader" := by
  obtain ⟨results, reads⟩ := expire_keys_transparent
    (Inserted.keep _ (.expire ⟨2, 0, .expireKeys 11500⟩ 11500 rfl (.keep _ .nil)) :
      Inserted lapsedLock lapsedLockExpired)
    ⟨by decide, by decide⟩
  exact ⟨results, by decide, (reads 12000 (by decide)).1 _⟩

end PgHa.ExpiryTransparent
