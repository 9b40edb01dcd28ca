import PgHa.ClusterSnapshot
import PgHa.LastingKey

/-!
The race for `/initialize` (`Bootstrap::bootstrap_new_cluster`) on the shared store. A node
with an empty data directory enters it on what its own replica shows, at any time before.
Its write is bounded: it may be committed late, more than once, or never, and the node may
have given up by then. Nothing else writes the key, and nothing removes it.
-/

namespace PgHa.ClusterBootstrap

open StateMachine RaftDcs VersionCas LastingKey ClusterSnapshot Transition

/-- `initialize`: only if the key does not exist, and for good. -/
def initializeRequest (base sysid : String) (now : Nat) : Request :=
  .set (initializePath base) sysid none (some false) none none now

/-- A call of `bootstrap_new_cluster`; `told` is an answer on its way. -/
inductive Phase where
  | racing
  | told (won : Bool)
  | gaveUp
  | lost
  | created
  deriving DecidableEq

/-- `created` are the calls that went on to create the data of the cluster. -/
structure World where
  log : List LogEntry
  calls : Nat → Option Phase
  created : List Nat

def World.start : World := ⟨[], fun _ => none, []⟩

def World.set (world : World) (call : Nat) (phase : Phase) : World :=
  { world with calls := fun other => if other = call then some phase else world.calls other }

/-- The place of the log a replica has applied, and its clock, when a key is read. -/
structure Read where
  position : Nat
  clock : Nat

inductive Act where
  | race (call : Nat) (leaderRead initializeRead : Read)
  | commit (call index stamp clock : Nat)
  | giveUp (call : Nat)
  | answer (call : Nat)
  | other (entry : LogEntry)

variable {Failover : Type} (readers : Readers Failover) (base : String)

def viewAt (log : List LogEntry) (read : Read) : View Failover :=
  project readers base ⟨after (log.take read.position), read.clock⟩

/-- `handle_empty_data_dir`: no leader, and no sign that the cluster was ever initialized.
`get_cluster` reads the two keys one after the other. -/
def fresh (log : List LogEntry) (leaderRead initializeRead : Read) : Bool :=
  (viewAt readers base log leaderRead).leader.isNone &&
    (viewAt readers base log initializeRead).initializeKey.isNone

def initializeEntry (index stamp clock : Nat) : LogEntry :=
  ⟨index, clock, initializeRequest base "" stamp⟩

def step (world : World) : Act → Option World
  | .race call leaderRead initializeRead =>
      match world.calls call with
      | some _ => none
      | none =>
          if fresh readers base world.log leaderRead initializeRead then some
            (world.set call .racing)
          else none
  | .commit call index stamp clock =>
      let entry := initializeEntry base index stamp clock
      let appended := { world with log := world.log ++ [entry] }
      match world.calls call with
      | none => none
      | some .racing =>
          some (appended.set call (.told (applyEntry (after world.log) entry).2.succeeded))
      | some _ => some appended
  | .giveUp call =>
      match world.calls call with
      | some .racing | some (.told _) => some (world.set call .gaveUp)
      | _ => none
  | .answer call =>
      match world.calls call with
      | some (.told true) =>
          some { world.set call .created with created := world.created ++ [call] }
      | some (.told false) => some (world.set call .lost)
      | _ => none
  | .other entry => some { world with log := world.log ++ [entry] }

/-- Nothing but `initialize` touches the key. -/
def Meets (_ : World) : Act → Prop
  | .other entry => elsewhere (initializePath base) entry.request = true
  | .race _ _ _ | .commit _ _ _ _ | .giveUp _ | .answer _ => True

variable {readers base}

/-- A request the key may see. -/
def Racing (base : String) (entry : LogEntry) : Prop :=
  elsewhere (initializePath base) entry.request = true ∨
    ∃ now, entry.request = initializeRequest base "" now

theorem lasting_racing {log : List LogEntry} (races : ∀ entry ∈ log, Racing base entry) :
    Lasting (initializePath base) log := by
  intro entry member
  rcases races entry member with apart | ⟨now, request⟩
  · exact lasting_elsewhere apart
  · rw [request]
    simp [initializeRequest, lasting]

/-- The race is won only while the key is not there. -/
theorem won_absent {log : List LogEntry} {index stamp clock : Nat}
    (lasts : Lasting (initializePath base) log)
    (won : (applyEntry (after log) (initializeEntry base index stamp clock)).2.succeeded = true) :
    (after log).data (initializePath base) = none := by
  have request : (initializeEntry base index stamp clock).request =
      initializeRequest base "" stamp := rfl
  have absent := absent_when_created request won
  rw [← get_forever lasts (effectiveNow clock stamp)]
  exact absent

/-- What was written first stays. -/
theorem held_kept {log : List LogEntry} {entry : LogEntry} {held : KvEntry}
    (lasts : Lasting (initializePath base) log) (racing : Racing base entry)
    (found : (after log).data (initializePath base) = some held) :
    (after (log ++ [entry])).data (initializePath base) = some held := by
  rw [after_concat]
  rcases racing with apart | ⟨now, request⟩
  · rw [elsewhere_kept lasts apart]
    exact found
  · by_cases won : (applyEntry (after log) entry).2.succeeded = true
    · have absent := absent_when_created request won
      have forever := get_forever lasts (effectiveNow entry.clock now)
      unfold StateMachine.get at forever
      rw [forever, found] at absent
      cases absent
    · rw [refused_data won]
      exact found

structure Inv (base : String) (world : World) : Prop where
  races : ∀ entry ∈ world.log, Racing base entry
  unset : (after world.log).data (initializePath base) = none →
    world.created = [] ∧ ∀ call, world.calls call ≠ some (.told true)
  alone : ∀ call, world.calls call = some (.told true) → world.created = [] ∧
    ∀ other, world.calls other = some (.told true) → other = call
  once : world.created.length ≤ 1

theorem inv_start : Inv base World.start := by
  constructor
  · intro entry member
    cases member
  · exact fun _ => ⟨rfl, fun _ told => by cases told⟩
  · intro call told
    cases told
  · exact Nat.zero_le _

/-- A call moves on without having been told that it won. -/
theorem inv_set {world : World} {call : Nat} {phase : Phase} (inv : Inv base world)
    (untold : phase ≠ .told true) : Inv base (world.set call phase) := by
  have before : ∀ other, (world.set call phase).calls other = some (.told true) →
      world.calls other = some (.told true) := by
    intro other told
    simp only [World.set] at told
    by_cases same : other = call
    · rw [if_pos same] at told
      exact absurd (Option.some.inj told) untold
    · rwa [if_neg same] at told
  constructor
  · exact inv.races
  · intro absent
    obtain ⟨none, untold⟩ := inv.unset absent
    exact ⟨none, fun other told => untold other (before other told)⟩
  · intro other told
    obtain ⟨none, alone⟩ := inv.alone other (before other told)
    exact ⟨none, fun another told => alone another (before another told)⟩
  · exact inv.once

theorem inv_append {world : World} {entry : LogEntry} (inv : Inv base world)
    (racing : Racing base entry) :
    Inv base { world with log := world.log ++ [entry] } := by
  constructor
  · intro other member
    rcases List.mem_append.mp member with older | newest
    · exact inv.races other older
    · rw [List.mem_singleton.mp newest]
      exact racing
  · intro absent
    cases found : (after world.log).data (initializePath base) with
    | none => exact inv.unset found
    | some held =>
        rw [held_kept (lasting_racing inv.races) racing found] at absent
        cases absent
  · exact inv.alone
  · exact inv.once

/-- The first write of the key: nobody was told before. -/
theorem inv_won {world : World} {call index stamp clock : Nat} (inv : Inv base world)
    (won : (applyEntry (after world.log) (initializeEntry base index stamp clock)).2.succeeded =
      true) :
    Inv base (World.set { world with log := world.log ++ [initializeEntry base index stamp clock] }
      call
      (.told true)) := by
  have appended : Inv base
      { world with log := world.log ++ [initializeEntry base index stamp clock] } :=
    inv_append inv (.inr ⟨stamp, rfl⟩)
  obtain ⟨none, untold⟩ := inv.unset (won_absent (lasting_racing inv.races) won)
  have only : ∀ other, (if other = call then some (Phase.told true) else world.calls other) =
      some (.told true) → other = call := by
    intro other told
    by_contra apart
    rw [if_neg apart] at told
    exact untold other told
  constructor
  · exact appended.races
  · intro absent
    have request : (initializeEntry base index stamp clock).request =
        initializeRequest base "" stamp := rfl
    obtain ⟨_, _, held, present, _⟩ := set_succeeded request won
    change (after (world.log ++ [_])).data (initializePath base) = Option.none at absent
    rw [after_concat, present] at absent
    cases absent
  · intro other told
    refine ⟨none, fun another told' => ?_⟩
    rw [only another told', only other told]
  · exact inv.once

theorem inv_commit {world reached : World} {call index stamp clock : Nat} (inv : Inv base world)
    (stepped : step readers base world (.commit call index stamp clock) = some reached) :
    Inv base reached := by
  have appended : Inv base
      { world with log := world.log ++ [initializeEntry base index stamp clock] } :=
    inv_append inv (.inr ⟨stamp, rfl⟩)
  simp only [step] at stepped
  split at stepped
  · cases stepped
  · cases stepped
    cases won :
        (applyEntry (after world.log) (initializeEntry base index stamp clock)).2.succeeded with
    | true => exact inv_won inv won
    | false => exact inv_set appended (by simp)
  · -- a write that comes too late for its call, or once more
    cases stepped
    exact appended

theorem inv_answer {world reached : World} {call : Nat} (inv : Inv base world)
    (stepped : step readers base world (.answer call) = some reached) : Inv base reached := by
  simp only [step] at stepped
  split at stepped
  · rename_i told
    cases stepped
    obtain ⟨none, alone⟩ := inv.alone call told
    have nobody : ∀ other, (world.set call .created).calls other ≠ some (.told true) := by
      intro other told'
      simp only [World.set] at told'
      by_cases same : other = call
      · rw [if_pos same] at told'
        cases told'
      · rw [if_neg same] at told'
        exact same (alone other told')
    constructor
    · exact inv.races
    · exact fun absent => absurd told ((inv.unset absent).2 call)
    · exact fun other told' => absurd told' (nobody other)
    · rw [none]
      exact Nat.le_refl 1
  · cases stepped
    exact inv_set inv (by simp)
  · cases stepped

theorem inv_step {world reached : World} (act : Act) (inv : Inv base world)
    (meets : Meets base world act)
    (stepped : step readers base world act = some reached) : Inv base reached := by
  cases act with
  | race call leaderRead initializeRead =>
      simp only [step] at stepped
      split at stepped
      · cases stepped
      · split at stepped
        · cases stepped
          exact inv_set inv (by simp)
        · cases stepped
  | commit call index stamp clock => exact inv_commit inv stepped
  | giveUp call =>
      simp only [step] at stepped
      split at stepped
      · cases stepped
        exact inv_set inv (by simp)
      · cases stepped
        exact inv_set inv (by simp)
      · cases stepped
  | answer call => exact inv_answer inv stepped
  | other entry =>
      cases stepped
      exact inv_append inv (.inl meets)

theorem held_appended {log more : List LogEntry} {held : KvEntry}
    (races : ∀ entry ∈ log ++ more, Racing base entry)
    (found : (after log).data (initializePath base) = some held) :
    (after (log ++ more)).data (initializePath base) = some held := by
  induction more using List.reverseRecOn with
  | nil =>
      rw [List.append_nil]
      exact found
  | append_singleton more last ih =>
      rw [← List.append_assoc] at races ⊢
      have before : ∀ entry ∈ log ++ more, Racing base entry :=
        fun entry member => races entry (List.mem_append_left _ member)
      exact held_kept (lasting_racing before) (races last (by simp)) (ih before)

/-- A replica that has the winner's entry shows the key to every reader. -/
theorem shown_since {earlier since : List LogEntry} {winner : LogEntry} {held : KvEntry}
    (races : ∀ entry ∈ earlier ++ winner :: since, Racing base entry)
    (written : (after (earlier ++ [winner])).data (initializePath base) = some held)
    {initializeRead : Read} (past : earlier.length < initializeRead.position) (leaderRead : Read) :
    fresh readers base (earlier ++ winner :: since) leaderRead initializeRead = false := by
  obtain ⟨position, clock⟩ := initializeRead
  change earlier.length < position at past
  obtain ⟨more, whole⟩ : ∃ more, (earlier ++ winner :: since).take position =
      (earlier ++ [winner]) ++ more := by
    refine ⟨since.take (position - earlier.length - 1), ?_⟩
    rw [List.take_append, List.take_of_length_le past.le, List.append_assoc]
    congr 1
    obtain ⟨beyond, rest⟩ := Nat.exists_eq_add_of_lt past
    rw [show position - earlier.length = beyond + 1 by omega]
    rfl
  have within : ∀ entry ∈ (earlier ++ [winner]) ++ more, Racing base entry := by
    rw [← whole]
    exact fun entry member => races entry (List.mem_of_mem_take member)
  have shows := held_appended within written
  have get := get_forever (lasting_racing within) clock
  rw [shows] at get
  simp only [fresh, Bool.and_eq_false_iff]
  right
  simp only [viewAt, whole, project, assemble, look, if_pos, get]
  rfl

/-- The data of a cluster is created at most once. In every run of nodes that race for
`/initialize`, each on what a replica showed it, with writes that are committed late, more
than once or never, at most one call is told that it won; and from the entry it won with
on, no call that reads the key on a replica that has applied it gets into the race. -/
theorem cluster_created_once {world : World}
    (path : Reaches (step readers base) (Meets base) World.start world) :
    world.created.length ≤ 1 ∧
    (world.created ≠ [] → ∃ earlier winner since, world.log = earlier ++ winner :: since ∧
      (∃ now, winner.request = initializeRequest base "" now) ∧
      (applyEntry (after earlier) winner).2.succeeded = true ∧
      ∀ call leaderRead initializeRead, earlier.length < initializeRead.position →
        step readers base world (.race call leaderRead initializeRead) = none) := by
  have inv : Inv base world := by
    apply reaches_invariant (Inv base) inv_start _ path
    exact fun _ act _ inv meets stepped => inv_step act inv meets stepped
  refine ⟨inv.once, ?_⟩
  intro won
  cases found : (after world.log).data (initializePath base) with
  | none => exact absurd (inv.unset found).1 won
  | some held =>
      obtain ⟨earlier, winner, since, split, _, ⟨shape, succeeded, written⟩, _⟩ :=
        held_written _ _ held found
      refine ⟨earlier, winner, since, split, ?_, succeeded, ?_⟩
      · rcases inv.races winner (by simp [split]) with apart | request
        · obtain ⟨value, ttl, prevExist, prevValue, prevVersion, now, request⟩ := shape
          rw [request] at apart
          simp [elsewhere] at apart
        · exact request
      · intro call leaderRead initializeRead past
        have races := inv.races
        rw [split] at races
        rw [← after_concat] at written
        have stale : fresh readers base
            (earlier ++ winner :: since) leaderRead initializeRead = false :=
          shown_since races written past leaderRead
        simp only [step, split, stale]
        split <;> rfl

/-- Both race on an empty store. The first gives up, and its write comes after the other's. -/
def lateRun : List Act :=
  [.race 0 ⟨0, 1000⟩ ⟨0, 1000⟩, .race 1 ⟨0, 1100⟩ ⟨0, 1101⟩, .giveUp 0,
    .commit 1 1 2000 0,
    .commit 0 2 2100 0, .answer 1]

def ofCalls : Act → Bool
  | .race _ _ _ | .commit _ _ _ _ | .giveUp _ | .answer _ => true
  | .other _ => false

theorem meets_ofCalls {world : World} {act : Act} (calls : ofCalls act = true) :
    Meets base world act := by
  cases act with
  | other entry => cases calls
  | race => trivial
  | commit => trivial
  | giveUp => trivial
  | answer => trivial

theorem cluster_created_once_late :
    ∃ world, Reaches (step sampleReaders "/service/c/") (Meets "/service/c/")
      World.start world ∧
      world.created = [1] ∧ ∃ earlier winner since, world.log = earlier ++ winner :: since ∧
        ∀ call leaderRead initializeRead, earlier.length < initializeRead.position →
          step sampleReaders "/service/c/" world (.race call leaderRead initializeRead) = none := by
  have played : (play (step sampleReaders "/service/c/") (fun _ act => ofCalls act = true)
      World.start
      lateRun).map (fun world => world.created == [1]) = some true := by decide +kernel
  obtain ⟨world, path, created⟩ := play_exhibits played
  have path : Reaches (step sampleReaders "/service/c/") (Meets "/service/c/") World.start world :=
    reaches_weaken (fun _ _ => meets_ofCalls) path
  have one : world.created = [1] := by simpa using created
  obtain ⟨_, since⟩ := cluster_created_once path
  obtain ⟨earlier, winner, later, split, _, _, stale⟩ := since (by simp [one])
  exact ⟨world, path, one, earlier, winner, later, split, stale⟩

end PgHa.ClusterBootstrap
