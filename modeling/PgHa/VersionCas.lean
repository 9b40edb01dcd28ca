import PgHa.RaftDcs
import Mathlib.Data.List.Induction

/-!
Versions of the replicated store. An entry carries the log index of the Set that wrote
it, and log indices only grow, so a Set conditioned on a version sees that the very
entry it read is still there. `clock` is the applying node's wall clock, which counts
only for stamps of 0; nothing is assumed about it.
-/

namespace PgHa.VersionCas

open StateMachine RaftDcs

structure LogEntry where
  index : Nat
  clock : Nat
  request : Request
  deriving DecidableEq

def applyEntry (sm : KvStateMachine) (entry : LogEntry) : KvStateMachine × Response :=
  apply entry.clock sm entry.request entry.index

/-- The state after a log, the oldest entry first. -/
def after (log : List LogEntry) : KvStateMachine :=
  log.foldl (fun sm entry => (applyEntry sm entry).1) .new

def Increasing (log : List LogEntry) : Prop := log.Pairwise fun a b => a.index < b.index

/-- Applied to `sm`, the entry is a Set of `key` that succeeds, and `written` is what it
leaves there. -/
def Writes (key : String) (written : KvEntry) (sm : KvStateMachine) (entry : LogEntry) : Prop :=
  (∃ value ttl prevExist prevValue prevVersion now,
    entry.request = .set key value ttl prevExist prevValue prevVersion now) ∧
  (applyEntry sm entry).2.succeeded = true ∧ (applyEntry sm entry).1.data key = some written

/-- Applied to `sm`, the entry replaces or removes what `key` holds: a Set that succeeds,
a Delete that covers the key, or an expiry. -/
def Ends (key : String) (sm : KvStateMachine) (entry : LogEntry) : Prop :=
  match entry.request with
  | .set target _ _ _ _ _ _ => target = key ∧ (applyEntry sm entry).2.succeeded = true
  | .delete target _ recursive =>
      (if recursive then startsWith key target = true else target = key) ∧
        (applyEntry sm entry).2.succeeded = true ∧ (sm.data key).isSome = true
  | .expireKeys now => ∃ held, sm.data key = some held ∧ live now held = false

theorem after_concat (log : List LogEntry) (entry : LogEntry) :
    after (log ++ [entry]) = (applyEntry (after log) entry).1 := by
  simp [after]

theorem applyEntry_index (sm : KvStateMachine) (entry : LogEntry) :
    (applyEntry sm entry).1.lastAppliedLog = entry.index := by
  obtain ⟨index, clock, request⟩ := entry
  cases request with
  | set key value ttl prevExist prevValue prevVersion now =>
      simp only [applyEntry, apply]
      rcases applySet_cases clock { sm with lastAppliedLog := index } key value ttl prevExist
        prevValue prevVersion now with same | ⟨_, _, _, _, _, written⟩
      · rw [same]
      · rw [written]
  | delete key prevValue recursive =>
      simp only [applyEntry, apply]
      cases recursive with
      | true => rfl
      | false =>
          rcases applyDelete_cases { sm with lastAppliedLog := index } key prevValue with
            same | ⟨_, _, _, removed⟩
          · rw [same]
          · rw [removed]
  | expireKeys now => rfl

/-- An entry leaves a key alone, or ends what it held; what it holds afterwards in the
second case is what the entry itself wrote. -/
theorem applyEntry_cases (key : String) (sm : KvStateMachine) (entry : LogEntry) :
    (¬ Ends key sm entry ∧ (applyEntry sm entry).1.data key = sm.data key) ∨
    (Ends key sm entry ∧ ∀ held, (applyEntry sm entry).1.data key = some held →
      Writes key held sm entry ∧ held.version = entry.index) := by
  obtain ⟨index, clock, request⟩ := entry
  cases request with
  | set target value ttl prevExist prevValue prevVersion now =>
      simp only [Ends, Writes, applyEntry, apply]
      rcases applySet_cases clock { sm with lastAppliedLog := index } target value ttl prevExist
        prevValue prevVersion now with same | ⟨current, _, _, _, _, written⟩
      · left
        rw [same]
        simp [Response.succeeded]
      · rw [written]
        by_cases here : target = key
        · subst target
          right
          refine ⟨⟨rfl, rfl⟩, ?_⟩
          intro held found
          refine ⟨⟨⟨value, ttl, prevExist, prevValue, prevVersion, now, rfl⟩, rfl, found⟩,
            ?_⟩
          simp only [insert_same, Option.some.injEq] at found
          rw [← found]
          rfl
        · left
          exact ⟨fun ended => here ended.1, insert_other _ _ _ _ (Ne.symm here)⟩
  | delete target prevValue recursive =>
      simp only [Ends, applyEntry, apply]
      cases recursive with
      | true =>
          simp only [applyDelete, if_true, Response.succeeded]
          by_cases covered : startsWith key target = true
          · cases found : sm.data key with
            | none => simp [covered]
            | some held => simp [covered]
          · left
            simp [covered]
      | false =>
          rcases applyDelete_cases { sm with lastAppliedLog := index } target prevValue with
            same | ⟨held, found, _, removed⟩
          · left
            rw [same]
            simp [Response.succeeded]
          · rw [removed]
            by_cases here : target = key
            · subst target
              right
              refine ⟨⟨rfl, rfl, ?_⟩, fun _ present => by simp at present⟩
              rw [show sm.data key = some held from found]
              rfl
            · left
              exact ⟨fun ended => here ended.1, remove_other _ _ _ (Ne.symm here)⟩
  | expireKeys now =>
      simp only [Ends, applyEntry, apply, applyExpire]
      cases found : sm.data key with
      | none => simp
      | some held =>
          cases alive : live now held with
          | true => simp [alive, Option.filter]
          | false => simp [alive, Option.filter]

/-- No entry of `since`, applied after `earlier`, ends what `key` holds. -/
def Undisturbed (key : String) (earlier since : List LogEntry) : Prop :=
  ∀ before entry rest, since = before ++ entry :: rest →
    ¬ Ends key (after (earlier ++ before)) entry

/-- The Set that wrote `held` stands in the log at its version, and nothing ended it
since. -/
def WrittenAt (log : List LogEntry) (key : String) (held : KvEntry) : Prop :=
  ∃ earlier writer since, log = earlier ++ writer :: since ∧ writer.index = held.version ∧
    Writes key held (after earlier) writer ∧ Undisturbed key (earlier ++ [writer]) since

theorem undisturbed_nil (key : String) (earlier : List LogEntry) :
    Undisturbed key earlier [] := by
  intro before entry rest split
  simp at split

theorem undisturbed_concat {key : String} {earlier since : List LogEntry} {entry : LogEntry}
    (quiet : Undisturbed key earlier since) (kept : ¬ Ends key (after (earlier ++ since)) entry) :
    Undisturbed key earlier (since ++ [entry]) := by
  intro before other rest split
  cases rest using List.reverseRecOn with
  | nil =>
      obtain ⟨rfl, same⟩ := List.append_inj' split rfl
      rw [← List.singleton_inj.mp same]
      exact kept
  | append_singleton rest last _ =>
      rw [← List.cons_append, ← List.append_assoc] at split
      exact quiet before other rest (List.append_inj' split rfl).1

/-- What a key holds was written at its version. The induction is on the log: an entry
that does not end what the key holds joins the entries since, one that does and leaves
something is the new writer. -/
theorem held_written (log : List LogEntry) (key : String) (held : KvEntry)
    (found : (after log).data key = some held) : WrittenAt log key held := by
  induction log using List.reverseRecOn generalizing held with
  | nil => simp [after, KvStateMachine.new] at found
  | append_singleton log entry ih =>
      rw [after_concat] at found
      rcases applyEntry_cases key (after log) entry with ⟨kept, same⟩ | ⟨_, wrote⟩
      · rw [same] at found
        obtain ⟨earlier, writer, since, rfl, version, writes, quiet⟩ := ih held found
        refine ⟨earlier, writer, since ++ [entry], by simp, version, writes, ?_⟩
        refine undisturbed_concat quiet ?_
        rw [List.append_assoc]
        exact kept
      · obtain ⟨writes, version⟩ := wrote held found
        exact ⟨log, entry, [], rfl, version.symm, writes, undisturbed_nil key _⟩

theorem index_le_applied (log : List LogEntry) (increasing : Increasing log) (entry : LogEntry)
    (member : entry ∈ log) : entry.index ≤ (after log).lastAppliedLog := by
  cases log using List.reverseRecOn with
  | nil => simp at member
  | append_singleton log last _ =>
      rw [after_concat, applyEntry_index]
      rcases List.mem_append.mp member with older | newest
      · have below := (List.pairwise_append.mp increasing).2.2 entry older last (by simp)
        omega
      · exact Nat.le_of_eq (congrArg LogEntry.index (List.mem_singleton.mp newest))

/-- Two entries of one log with the same index are at the same place. -/
theorem same_index_same_place {log earlier earlier' since since' : List LogEntry}
    {entry entry' : LogEntry} (increasing : Increasing log)
    (split : log = earlier ++ entry :: since) (split' : log = earlier' ++ entry' :: since')
    (same : entry.index = entry'.index) :
    earlier = earlier' ∧ entry = entry' ∧ since = since' := by
  have whole : earlier ++ entry :: since = earlier' ++ entry' :: since' := split.symm.trans split'
  rw [split] at increasing
  have sorted := List.pairwise_append.mp increasing
  have sorted' := List.pairwise_append.mp (whole ▸ increasing)
  rcases List.append_eq_append_iff.mp whole with ⟨middle, rfl, tail⟩ | ⟨middle, rfl, tail⟩
  · cases middle with
    | nil =>
        simp only [List.nil_append, List.cons.injEq] at tail
        simp [tail.1, tail.2]
    | cons head middle =>
        simp only [List.cons_append, List.cons.injEq] at tail
        have below := sorted'.2.2 entry (by simp [tail.1]) entry' (by simp)
        omega
  · cases middle with
    | nil =>
        simp only [List.nil_append, List.cons.injEq] at tail
        simp [tail.1, tail.2]
    | cons head middle =>
        simp only [List.cons_append, List.cons.injEq] at tail
        have below := sorted.2.2 entry' (by simp [tail.1]) entry (by simp)
        omega

/-- A key that has one version at two places of a log holds the same entry there. -/
theorem same_version_same_entry {log : List LogEntry} {position : Nat} {key : String}
    {earlier current : KvEntry} (increasing : Increasing log)
    (found : (after (log.take position)).data key = some earlier)
    (found' : (after log).data key = some current) (same : earlier.version = current.version) :
    earlier = current := by
  obtain ⟨front, writer, since, split, version, writes, _⟩ := held_written _ key earlier found
  obtain ⟨front', writer', since', split', version', writes', _⟩ :=
    held_written _ key current found'
  have whole : log = front ++ writer :: (since ++ log.drop position) := by
    rw [← List.cons_append, ← List.append_assoc, ← split, List.take_append_drop]
  obtain ⟨rfl, rfl, _⟩ := same_index_same_place increasing whole split'
    (version.trans (same.trans version'.symm))
  exact Option.some.inj (writes.2.2.symm.trans writes'.2.2)

theorem undisturbed_data {key : String} {earlier since : List LogEntry}
    (quiet : Undisturbed key earlier since) :
    (after (earlier ++ since)).data key = (after earlier).data key := by
  induction since using List.reverseRecOn with
  | nil => simp
  | append_singleton since entry ih =>
      have before : Undisturbed key earlier since := by
        intro front other rest split
        exact quiet front other (rest ++ [entry]) (by simp [split])
      rw [← List.append_assoc, after_concat]
      rcases applyEntry_cases key (after (earlier ++ since)) entry
        with ⟨_, same⟩ | ⟨ended, _⟩
      · rw [same]
        exact ih before
      · exact absurd ended (quiet since entry [] rfl)

/-! ### Conditional Sets -/

/-- A Set that succeeds met its conditions against the unexpired entry. -/
theorem set_succeeded {sm : KvStateMachine} {entry : LogEntry} {key value : String}
    {ttl : Option Nat} {prevExist : Option Bool} {prevValue : Option String}
    {prevVersion : Option Nat} {now : Nat}
    (request : entry.request = .set key value ttl prevExist prevValue prevVersion now)
    (succeeded : (applyEntry sm entry).2.succeeded = true) :
    existPasses prevExist ((sm.data key).filter (live (effectiveNow entry.clock now))) = true ∧
    versionPasses prevVersion ((sm.data key).filter (live (effectiveNow entry.clock now))) =
      true ∧
    ∃ written, (applyEntry sm entry).1.data key = some written ∧
      written.expireAt = ttl.map (expiry (effectiveNow entry.clock now)) ∧
      written.value = value := by
  simp only [applyEntry, request, apply] at succeeded ⊢
  rcases applySet_cases entry.clock
    { sm with lastAppliedLog := entry.index } key value ttl prevExist
    prevValue prevVersion now with same | ⟨current, isCurrent, exist, _, version, written⟩
  · simp [same, Response.succeeded] at succeeded
  · subst current
    rw [written]
    exact ⟨exist, version, _, insert_same _ _ _, rfl, rfl⟩

theorem versionPasses_held {version now : Nat} {slot : Option KvEntry}
    (passed : versionPasses (some version) (slot.filter (live now)) = true) :
    ∃ held, slot = some held ∧ held.version = version ∧ live now held = true := by
  cases current : slot.filter (live now) with
  | none => simp [current, versionPasses] at passed
  | some held =>
      simp only [current, versionPasses, beq_iff_eq] at passed
      obtain ⟨found, alive⟩ := (filter_live_some now slot held).mp current
      exact ⟨held, found, passed, alive⟩

/-- A Set conditioned on a version finds the entry that was written at that version. -/
theorem version_still_current {earlier : List LogEntry} {entry : LogEntry} {key value : String}
    {ttl : Option Nat} {prevExist : Option Bool} {prevValue : Option String} {version now : Nat}
    (request : entry.request = .set key value ttl prevExist prevValue (some version) now)
    (succeeded : (applyEntry (after earlier) entry).2.succeeded = true) :
    ∃ held, (after earlier).data key = some held ∧ held.version = version ∧
      live (effectiveNow entry.clock now) held = true ∧ WrittenAt earlier key held := by
  obtain ⟨_, passed, _⟩ := set_succeeded request succeeded
  obtain ⟨held, found, same, alive⟩ := versionPasses_held passed
  exact ⟨held, found, same, alive, held_written earlier key held found⟩

theorem absent_when_created {earlier : List LogEntry} {entry : LogEntry} {key value : String}
    {ttl : Option Nat} {prevValue : Option String} {prevVersion : Option Nat} {now : Nat}
    (request : entry.request = .set key value ttl (some false) prevValue prevVersion now)
    (succeeded : (applyEntry (after earlier) entry).2.succeeded = true) :
    ((after earlier).data key).filter (live (effectiveNow entry.clock now)) = none := by
  obtain ⟨passed, _, _⟩ := set_succeeded request succeeded
  cases current : ((after earlier).data key).filter (live (effectiveNow entry.clock now)) with
  | none => rfl
  | some held => simp [current, existPasses] at passed

theorem set_ends {sm : KvStateMachine} {entry : LogEntry} {key value : String}
    {ttl : Option Nat} {prevExist : Option Bool} {prevValue : Option String}
    {prevVersion : Option Nat} {now : Nat}
    (request : entry.request = .set key value ttl prevExist prevValue prevVersion now)
    (succeeded : (applyEntry sm entry).2.succeeded = true) : Ends key sm entry := by
  simp only [Ends, request, true_and]
  exact succeeded

/-- Of two writes based on one version only the first can succeed: it stands between the
version and the second. -/
theorem versioned_once {log earlier middle later : List LogEntry} {first second : LogEntry}
    {key value value' : String} {version now now' : Nat} (increasing : Increasing log)
    (split : log = earlier ++ first :: (middle ++ second :: later))
    (request : first.request = versionedSetRequest key value (some version) now)
    (request' : second.request = versionedSetRequest key value' (some version) now')
    (succeeded : (applyEntry (after earlier) first).2.succeeded = true) :
    (applyEntry (after (earlier ++ first :: middle)) second).2.succeeded = false := by
  rw [← Bool.not_eq_true]
  intro succeeded'
  obtain ⟨_, _, version₁, _, front, writer, since, rfl, index₁, _, _⟩ :=
    version_still_current request succeeded
  obtain ⟨_, _, version₂, _, front', writer', since', place, index₂, _, quiet⟩ :=
    version_still_current request' succeeded'
  have prefixIncreasing : Increasing ((front ++ writer :: since) ++ first :: middle) := by
    have longer : log = ((front ++ writer :: since) ++ first :: middle) ++ second :: later := by
      simp [split]
    rw [longer] at increasing
    exact (List.pairwise_append.mp increasing).1
  obtain ⟨rfl, rfl, rfl⟩ := same_index_same_place prefixIncreasing
    (show _ = front ++ writer :: (since ++ first :: middle) by simp) place
    ((index₁.trans version₁).trans (index₂.trans version₂).symm)
  have kept := quiet since first middle rfl
  rw [List.append_assoc, List.singleton_append] at kept
  exact kept (set_ends request succeeded)

/-- Of two writes that both found the key absent only the first can succeed, as long as
what it wrote is there. -/
theorem created_once {earlier middle : List LogEntry} {first second : LogEntry}
    {key value value' : String} {now now' : Nat}
    (request : first.request = versionedSetRequest key value none now)
    (request' : second.request = versionedSetRequest key value' none now')
    (succeeded : (applyEntry (after earlier) first).2.succeeded = true)
    (quiet : Undisturbed key (earlier ++ [first]) middle) :
    (applyEntry (after (earlier ++ first :: middle)) second).2.succeeded = false := by
  rw [← Bool.not_eq_true]
  intro succeeded'
  obtain ⟨_, _, written, found, forever, _⟩ := set_succeeded request succeeded
  have absent := absent_when_created request' succeeded'
  have kept := undisturbed_data quiet
  rw [List.append_assoc, List.singleton_append, after_concat, found] at kept
  rw [kept, Option.filter_some_pos] at absent
  · cases absent
  · simp [live, forever]

/-- Versions never repeat. In every log with growing indices: what a key holds was written
by the entry at its version, which is at most the last applied index; a Set on a version
or on absence succeeds only if the entry of that version is still the current one, or no
unexpired entry is there; and of two `/timeline` or `/history` writes on one version at
most one takes effect, of two on absence at most one unless the first was ended. -/
theorem version_cas_has_no_aba (log : List LogEntry) (increasing : Increasing log) :
    (∀ key held, (after log).data key = some held →
      WrittenAt log key held ∧ held.version ≤ (after log).lastAppliedLog) ∧
    (∀ earlier entry later key value ttl prevExist prevValue version now,
      log = earlier ++ entry :: later →
      entry.request = .set key value ttl prevExist prevValue (some version) now →
      (applyEntry (after earlier) entry).2.succeeded = true →
      ∃ held, (after earlier).data key = some held ∧ held.version = version ∧
        live (effectiveNow entry.clock now) held = true ∧ WrittenAt earlier key held) ∧
    (∀ earlier entry later key value ttl prevValue prevVersion now,
      log = earlier ++ entry :: later →
      entry.request = .set key value ttl (some false) prevValue prevVersion now →
      (applyEntry (after earlier) entry).2.succeeded = true →
      ((after earlier).data key).filter (live (effectiveNow entry.clock now)) = none) ∧
    (∀ base earlier first middle second later value value' version now now',
      log = earlier ++ first :: (middle ++ second :: later) →
      (first.request = timelineWriteRequest base value (some version) now ∧
        second.request = timelineWriteRequest base value' (some version) now' ∨
      first.request = historyWriteRequest base value (some version) now ∧
        second.request = historyWriteRequest base value' (some version) now') →
      (applyEntry (after earlier) first).2.succeeded = true →
      (applyEntry (after (earlier ++ first :: middle)) second).2.succeeded = false) ∧
    (∀ base earlier first middle second later value value' now now',
      log = earlier ++ first :: (middle ++ second :: later) →
      (first.request = timelineWriteRequest base value none now ∧
        second.request = timelineWriteRequest base value' none now' ∧
        Undisturbed (timelinePath base) (earlier ++ [first]) middle ∨
      first.request = historyWriteRequest base value none now ∧
        second.request = historyWriteRequest base value' none now' ∧
        Undisturbed (historyPath base) (earlier ++ [first]) middle) →
      (applyEntry (after earlier) first).2.succeeded = true →
      (applyEntry (after (earlier ++ first :: middle)) second).2.succeeded = false) := by
  refine ⟨?_, ?_, ?_, ?_, ?_⟩
  · intro key held found
    have written := held_written log key held found
    refine ⟨written, ?_⟩
    obtain ⟨earlier, writer, since, split, version, _⟩ := written
    rw [← version]
    exact index_le_applied log increasing writer (by simp [split])
  · intro earlier entry later key value ttl prevExist prevValue version now _ request succeeded
    exact version_still_current request succeeded
  · intro earlier entry later key value ttl prevValue prevVersion now _ request succeeded
    exact absent_when_created request succeeded
  · intro base earlier first middle second later value value' version now now' split requests
      succeeded
    rcases requests with ⟨request, request'⟩ | ⟨request, request'⟩
    · exact versioned_once increasing split request request' succeeded
    · exact versioned_once increasing split request request' succeeded
  · intro base earlier first middle second later value value' now now' _ requests succeeded
    rcases requests with ⟨request, request', quiet⟩ | ⟨request, request', quiet⟩
    · exact created_once request request' succeeded quiet
    · exact created_once request request' succeeded quiet

/-- A record is created, and two nodes that read it write. -/
def createdAndContested : List LogEntry :=
  [⟨3, 0, timelineWriteRequest "/service/c/" "5" none 1000⟩,
    ⟨4, 0, timelineWriteRequest "/service/c/" "6" (some 3) 2000⟩,
    ⟨5, 0, .expireKeys 2100⟩,
    ⟨7, 0, timelineWriteRequest "/service/c/" "7" (some 3) 2500⟩]

theorem version_cas_has_no_aba_createdAndContested :
    (applyEntry (after (createdAndContested.take 1))
      ⟨4, 0, timelineWriteRequest "/service/c/" "6" (some 3) 2000⟩).2.succeeded = true ∧
    (applyEntry (after (createdAndContested.take 3))
      ⟨7, 0, timelineWriteRequest "/service/c/" "7" (some 3) 2500⟩).2.succeeded = false := by
  have won : (applyEntry (after (createdAndContested.take 1))
      ⟨4, 0, timelineWriteRequest "/service/c/" "6" (some 3) 2000⟩).2.succeeded =
        true := by decide
  obtain ⟨_, _, _, once, _⟩ := version_cas_has_no_aba createdAndContested (by
    simp [Increasing, createdAndContested])
  exact ⟨won, once "/service/c/" _ _ [⟨5, 0, .expireKeys 2100⟩] _ [] "6" "7" 3 2000 2500 rfl
    (.inl ⟨rfl, rfl⟩) won⟩

end PgHa.VersionCas
