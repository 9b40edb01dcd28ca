import PgHa.SyncNames
import PgHa.Transition

/-!
`enforce_synchronous_replication` of `pg-ha-core/src/ha/mod.rs`. A run decides
everything from the `/sync` it sees, the members and one replication snapshot;
what it then does is a list of writes, each of which takes effect as a whole. A
run that is cut off at an await, or stopped by a failed write, has done a
prefix of them: `ALTER SYSTEM` writes the file, the reload puts the file into
effect, and only then is the applied value remembered. A run whose snapshot
cannot be read does nothing and is left out.
-/

namespace PgHa.SyncReplication

open Text Cluster SyncNames Transition

structure SyncConfig where
  synchronousMode : Option Bool
  synchronousModeStrict : Option Bool
  synchronousNodeCount : Option Nat
  maximumLagOnSyncnode : Option Nat
  deriving DecidableEq, Repr

def SyncConfig.enabled (config : SyncConfig) : Bool := config.synchronousMode.getD false

def SyncConfig.strict (config : SyncConfig) : Bool := config.synchronousModeStrict.getD false

def SyncConfig.count (config : SyncConfig) : Nat := config.synchronousNodeCount.getD 1

structure RunInput where
  config : SyncConfig
  members : List Member
  snapshot : ReplicationSnapshot
  deriving DecidableEq, Repr

inductive Effect where
  | writeSync (state : SyncState)
  | alterSystem (value : Str)
  | reload
  | remember (value : Str) (mark : Option Nat)
  deriving DecidableEq, Repr

-- `pgFile` is the value in `postgresql.auto.conf`, `pgList` the one in effect;
-- `applied` and `mark` are `applied_sync_standby_names` and
-- `sync_pg_list_changed_flush_lsn`.
structure SyncWorld where
  name : Str
  sync : Option SyncState
  pgFile : Str
  pgList : Str
  applied : Option Str
  mark : Option Nat
  running : Option RunInput
  pending : List Effect
  deriving DecidableEq, Repr

/-- A `/sync` of another leader counts as empty. -/
def currentVoters (name : Str) (sync : Option SyncState) : List Str :=
  match sync with
  | some state => if eqIgnoreAsciiCase state.leader name then state.syncStandbyNames else []
  | none => []

def desiredPg (name : Str) (voters : List Str) (input : RunInput) : Option Str :=
  if input.config.enabled then
    (SyncManager.new .priority input.config.count input.config.strict).computeSyncStandbyNames
      input.members name input.snapshot input.config.maximumLagOnSyncnode voters
  else some []

def snapshotPrimaryFlushLsn (input : RunInput) : Option Nat :=
  if input.config.enabled then some input.snapshot.primaryFlushLsn else none

def syncStandbyCaughtUp (input : RunInput) (mark : Option Nat) (name : Str) : Bool :=
  if input.config.enabled then
    match mark, findRow input.snapshot name with
    | some mark, some row =>
        decide (mark - row.flushLsn ≤ input.config.maximumLagOnSyncnode.getD 0)
    | _, _ => false
  else false

def isSubset (first second : List Str) : Bool := first.all second.contains

def removals (world : SyncWorld) (input : RunInput) (current desired : List Str) : List Effect :=
  if isSubset current desired then []
  else
    [.writeSync (syncStateOf world.name (current.filter desired.contains) input.config.enabled
      input.config.count)]

def listChange (world : SyncWorld) (input : RunInput) (value : Str) : List Effect :=
  if world.applied = some value then []
  else [.alterSystem value, .reload, .remember value (snapshotPrimaryFlushLsn input)]

def markAfter (world : SyncWorld) (input : RunInput) (value : Str) : Option Nat :=
  if world.applied = some value then world.mark else snapshotPrimaryFlushLsn input

def publishable (world : SyncWorld) (input : RunInput) (value : Str)
    (current desired : List Str) : List Str :=
  desired.filter fun name =>
    current.contains name || syncStandbyCaughtUp input (markAfter world input value) name

def additions (world : SyncWorld) (input : RunInput) (value : Str)
    (current desired : List Str) : List Effect :=
  let names := publishable world input value current desired
  if names = current then []
  else [.writeSync (syncStateOf world.name names input.config.enabled input.config.count)]

/-- The writes of one run, in order. -/
def effects (world : SyncWorld) (input : RunInput) : List Effect :=
  let voters := currentVoters world.name world.sync
  match desiredPg world.name voters input with
  | none => []
  | some value =>
      let desired := extractNamesFromSyncValue (some value)
      let current := syncNameSet voters
      if world.applied = some value ∧ current = desired then []
      else
        removals world input current desired ++ listChange world input value ++
          additions world input value current desired

def SyncWorld.perform (world : SyncWorld) : Effect → SyncWorld
  | .writeSync state => { world with sync := some state }
  | .alterSystem value => { world with pgFile := value }
  | .reload => { world with pgList := world.pgFile }
  | .remember value mark => { world with applied := some value, mark := mark }

/-- A run to its end, every write succeeding. -/
def completeRun (world : SyncWorld) (input : RunInput) : SyncWorld :=
  (effects world input).foldl SyncWorld.perform world

inductive SyncAct where
  | start (input : RunInput)
  | advance
  | cut
  | resetSyncCache

def step (world : SyncWorld) : SyncAct → Option SyncWorld
  | .start input =>
      if world.pending = [] then
        some { world with running := some input, pending := effects world input }
      else none
  | .advance =>
      match world.pending with
      | [] => none
      | effect :: rest => some { world.perform effect with pending := rest }
  | .cut => some { world with pending := [] }
  | .resetSyncCache =>
      if world.pending = [] then some { world with applied := none, mark := none } else none

theorem isSubset_iff (first second : List Str) :
    isSubset first second = true ↔ ∀ name ∈ first, name ∈ second := by
  simp [isSubset]

theorem desiredPg_some (name : Str) (voters : List Str) (input : RunInput) :
    ∃ value, desiredPg name voters input = some value := by
  unfold desiredPg
  split
  · simp only [SyncManager.computeSyncStandbyNames, SyncManager.new]
    split <;> exact ⟨_, rfl⟩
  · exact ⟨_, rfl⟩

theorem publishable_subset {world : SyncWorld} {input : RunInput} {value : Str}
    {current desired : List Str} {name : Str}
    (member : name ∈ publishable world input value current desired) : name ∈ desired :=
  (List.mem_filter.mp member).1

theorem publishable_names {world : SyncWorld} {input : RunInput} {value : Str}
    {current : List Str} (leader : Str) (name : Str) :
    name ∈ dcsNames (some (syncStateOf leader (publishable world input value current
      (extractNamesFromSyncValue (some value))) input.config.enabled input.config.count)) ↔
    name ∈ publishable world input value current (extractNamesFromSyncValue (some value)) := by
  apply mem_dcsNames_of
  intro other member
  exact extracted_publishable _ other (publishable_subset member)

-- What phase 1 leaves in `/sync`.
theorem removal_names (leader : Str) (input : RunInput) (current : List Str) (value name : Str) :
    name ∈ dcsNames (some (syncStateOf leader
      (current.filter (extractNamesFromSyncValue (some value)).contains) input.config.enabled
      input.config.count)) ↔
    name ∈ current ∧ name ∈ extractNamesFromSyncValue (some value) := by
  rw [mem_dcsNames_of]
  · simp
  · intro other member
    have listed := (List.mem_filter.mp member).2
    exact extracted_publishable _ other (by simpa using listed)

/-- Every name of `/sync` is in the PostgreSQL list in effect. -/
def SyncInsideList (world : SyncWorld) : Prop :=
  ∀ name ∈ dcsNames world.sync, name ∈ extractNamesFromSyncValue (some world.pgList)

/-- The first run of a term: nothing applied yet, `/sync` is another leader's. -/
structure Takeover (world : SyncWorld) : Prop where
  fresh : world.applied = none
  foreign : ∀ state, world.sync = some state → eqIgnoreAsciiCase state.leader world.name = false

-- The names the first run of a term wants PostgreSQL to wait for.
def takeoverNames (world : SyncWorld) (input : RunInput) : List Str :=
  extractNamesFromSyncValue (desiredPg world.name [] input)

theorem takeover_voters {world : SyncWorld} (takeover : Takeover world) :
    currentVoters world.name world.sync = [] := by
  unfold currentVoters
  split
  · rename_i state found
    simp [takeover.foreign state found]
  · rfl

-- The list is put into effect, and `/sync` is written only for caught-up names.
theorem takeover_effects {world : SyncWorld} {input : RunInput} {value : Str}
    (takeover : Takeover world) (desired : desiredPg world.name [] input = some value) :
    effects world input =
      [.alterSystem value, .reload, .remember value (snapshotPrimaryFlushLsn input)] ++
        additions world input value [] (extractNamesFromSyncValue (some value)) := by
  simp [effects, takeover_voters takeover, desired, takeover.fresh, removals, listChange,
    isSubset, syncNameSet, nameSet]

theorem takeover_publishable {world : SyncWorld} (takeover : Takeover world) (input : RunInput)
    (value name : Str) :
    name ∈ publishable world input value [] (extractNamesFromSyncValue (some value)) ↔
      name ∈ extractNamesFromSyncValue (some value) ∧
        syncStandbyCaughtUp input (snapshotPrimaryFlushLsn input) name = true := by
  simp [publishable, markAfter, takeover.fresh]

/-- After the first run of a term `/sync` is inside the list if and only if the
names the old leader left are, or one of the new names has caught up and
`/sync` is written. -/
theorem takeover_inside_iff (world : SyncWorld) (input : RunInput) (takeover : Takeover world) :
    SyncInsideList (completeRun world input) ↔
      (∀ name ∈ dcsNames world.sync, name ∈ takeoverNames world input) ∨
        ∃ name ∈ takeoverNames world input,
          syncStandbyCaughtUp input (snapshotPrimaryFlushLsn input) name = true := by
  obtain ⟨value, desired⟩ := desiredPg_some world.name [] input
  have names : takeoverNames world input = extractNamesFromSyncValue (some value) := by
    rw [takeoverNames, desired]
  have member := takeover_publishable takeover input value
  unfold completeRun SyncInsideList
  rw [names, takeover_effects takeover desired]
  by_cases nobody : publishable world input value [] (extractNamesFromSyncValue (some value)) = []
  · -- Nobody has caught up: `/sync` is left alone.
    simp only [additions, nobody, if_true, List.append_nil, List.foldl_cons, List.foldl_nil,
      SyncWorld.perform]
    constructor
    · exact Or.inl
    · rintro (inside | ⟨name, listed, caughtUp⟩)
      · exact inside
      · have published := (member name).mpr ⟨listed, caughtUp⟩
        simp [nobody] at published
  · simp only [additions, nobody, if_false, List.foldl_append, List.foldl_cons, List.foldl_nil,
      SyncWorld.perform]
    constructor
    · intro _
      obtain ⟨name, here⟩ := List.exists_mem_of_ne_nil _ nobody
      exact Or.inr ⟨name, (member name).mp here⟩
    · intro _ name published
      exact ((member name).mp ((publishable_names world.name name).mp published)).1

def replica (name : String) : Member :=
  ⟨name.toList, .running, .replica, none, none, ⟨none, none, none, none⟩, false,
    none, false⟩

def syncOn : SyncConfig := ⟨some true, none, none, none⟩

-- `node1` left `/sync` naming `node2`; `node3` was promoted.
def afterFailover : SyncWorld :=
  { name := "node3".toList
    sync := some ⟨"node1".toList, some "node2".toList, 1⟩
    pgFile := []
    pgList := []
    applied := none
    mark := none
    running := none
    pending := [] }

theorem takeover_inside_iff_caughtUp :
    SyncInsideList (completeRun afterFailover
      ⟨syncOn, [replica "node1"], ⟨100, [⟨"node1".toList, 100⟩]⟩⟩) :=
  (takeover_inside_iff afterFailover _ ⟨rfl, by decide⟩).mpr
    (Or.inr ⟨"node1".toList, by decide, by decide⟩)

/-- No standby streams from `node3` yet: the list is empty and `/sync` still
names `node2`. -/
theorem takeover_keeps_old_voters :
    Takeover afterFailover ∧
      ¬ SyncInsideList
        (completeRun afterFailover ⟨syncOn, [replica "node2"], ⟨100, []⟩⟩) := by
  refine ⟨⟨rfl, by decide⟩, ?_⟩
  intro inside
  exact absurd (inside "node2".toList (by decide)) (by decide)

/-- `/sync` was written by this node. -/
def OwnsSync (world : SyncWorld) : Prop :=
  ∃ state, world.sync = some state ∧ eqIgnoreAsciiCase state.leader world.name = true

-- The snapshot had a row within the tolerated lag of the recorded mark.
def CaughtUp (input : RunInput) (mark : Option Nat) (name : Str) : Prop :=
  ∃ reference row, mark = some reference ∧ row ∈ input.snapshot.replicas ∧
    eqIgnoreAsciiCase row.applicationName name = true ∧
    reference - row.flushLsn ≤ input.config.maximumLagOnSyncnode.getD 0

/-- A step adds to `/sync` only names of the list in effect that have caught up. -/
def AddsCaughtUp (world : SyncWorld) : Prop :=
  ∀ act after, step world act = some after → ∀ name ∈ dcsNames after.sync,
    name ∉ dcsNames world.sync → name ∈ extractNamesFromSyncValue (some after.pgList) ∧
      ∃ input, world.running = some input ∧ CaughtUp input world.mark name

/-- A run starts with nothing remembered, or with the list in effect. -/
def Meets (world : SyncWorld) : SyncAct → Prop
  | .start _ => world.applied = none ∨ world.applied = some world.pgList
  | .advance | .cut | .resetSyncCache => True

instance (world : SyncWorld) (act : SyncAct) : Decidable (Meets world act) := by
  cases act <;> unfold Meets <;> infer_instance

-- What the pending writes of a run have to respect, from the state they meet.
def Safe (name : Str) (input : RunInput) : List Str → Str → Str → Option Nat →
    List Effect → Prop
  | _, _, _, _, [] => True
  | names, file, list, mark, .writeSync state :: rest =>
      eqIgnoreAsciiCase state.leader name = true ∧
      (∀ n ∈ dcsNames (some state), n ∈ extractNamesFromSyncValue (some list) ∧
        (n ∈ names ∨ CaughtUp input mark n)) ∧
      Safe name input (dcsNames (some state)) file list mark rest
  | names, _, list, mark, .alterSystem value :: rest => Safe name input names value list mark rest
  | names, file, _, mark, .reload :: rest =>
      (∀ n ∈ names, n ∈ extractNamesFromSyncValue (some file)) ∧
      Safe name input names file file mark rest
  | names, file, list, _, .remember _ mark :: rest => Safe name input names file list mark rest

structure Steady (world : SyncWorld) : Prop where
  owns : OwnsSync world
  inside : SyncInsideList world
  plan : world.pending = [] ∨ ∃ input, world.running = some input ∧
    Safe world.name input (dcsNames world.sync) world.pgFile world.pgList world.mark world.pending

theorem caughtUp_of {input : RunInput} {mark : Option Nat} {name : Str}
    (caughtUp : syncStandbyCaughtUp input mark name = true) : CaughtUp input mark name := by
  unfold syncStandbyCaughtUp at caughtUp
  split at caughtUp
  · split at caughtUp
    · rename_i reference row found
      have member := List.mem_of_find?_eq_some found
      have named := List.find?_some found
      exact ⟨reference, row, rfl, member, named, by simpa using caughtUp⟩
    · cases caughtUp
  · cases caughtUp

theorem voters_names {world : SyncWorld} (owns : OwnsSync world) :
    syncNameSet (currentVoters world.name world.sync) = dcsNames world.sync := by
  obtain ⟨state, found, leader⟩ := owns
  simp [currentVoters, dcsNames, found, leader]

theorem leader_refl (name : Str) : eqIgnoreAsciiCase name name = true := by
  simp [eqIgnoreAsciiCase]

-- Phase 3, once the list in effect is the desired one.
theorem additions_safe (world : SyncWorld) (input : RunInput) (value : Str)
    (current names : List Str) (file : Str)
    (kept : ∀ n ∈ current, n ∈ extractNamesFromSyncValue (some value) → n ∈ names) :
    Safe world.name input names file value (markAfter world input value)
      (additions world input value current (extractNamesFromSyncValue (some value))) := by
  dsimp only [additions]
  split
  · trivial
  · refine ⟨leader_refl _, ?_, trivial⟩
    intro n published
    have member := (publishable_names world.name n).mp published
    obtain ⟨listed, because⟩ := List.mem_filter.mp member
    simp only [Bool.or_eq_true, List.contains_iff_mem] at because
    rcases because with already | caughtUp
    · exact ⟨listed, Or.inl (kept n already listed)⟩
    · exact ⟨listed, Or.inr (caughtUp_of caughtUp)⟩

-- Phases 2 and 3: the names that are left are in the new list as well.
theorem listChange_safe (world : SyncWorld) (input : RunInput) (value : Str)
    (current names : List Str)
    (remembered : world.applied = none ∨ world.applied = some world.pgList)
    (covered : ∀ n ∈ names, n ∈ extractNamesFromSyncValue (some value))
    (kept : ∀ n ∈ current, n ∈ extractNamesFromSyncValue (some value) → n ∈ names) :
    Safe world.name input names world.pgFile world.pgList world.mark
      (listChange world input value ++
        additions world input value current (extractNamesFromSyncValue (some value))) := by
  by_cases same : world.applied = some value
  · have inEffect : world.pgList = value := by
      rcases remembered with nothing | list
      · simp [nothing] at same
      · simpa [list] using same
    have phase3 := additions_safe world input value current names world.pgFile kept
    simpa [listChange, same, markAfter, inEffect] using phase3
  · have phase3 := additions_safe world input value current names value kept
    simp only [markAfter, same, if_false] at phase3
    simp only [listChange, same, if_false, List.cons_append, List.nil_append, Safe]
    exact ⟨covered, phase3⟩

theorem effects_safe (world : SyncWorld) (input : RunInput) (owns : OwnsSync world)
    (inside : SyncInsideList world)
    (remembered : world.applied = none ∨ world.applied = some world.pgList) :
    Safe world.name input (dcsNames world.sync) world.pgFile world.pgList world.mark
      (effects world input) := by
  simp only [effects, voters_names owns]
  split
  · trivial
  · rename_i value _
    split
    · trivial
    · rw [List.append_assoc]
      unfold removals
      split
      · rename_i covered
        exact listChange_safe world input value _ _ remembered ((isSubset_iff _ _).mp covered)
          (fun n member _ => member)
      · -- Phase 1 writes what `/sync` and the desired list have in common.
        have reads := removal_names world.name input (dcsNames world.sync) value
        refine ⟨leader_refl _, ?_, ?_⟩
        · intro n member
          exact ⟨inside n ((reads n).mp member).1, Or.inl ((reads n).mp member).1⟩
        · exact listChange_safe world input value _ _ remembered
            (fun n member => ((reads n).mp member).2)
            (fun n member listed => (reads n).mpr ⟨member, listed⟩)

theorem steady_step {world after : SyncWorld} {act : SyncAct} (steady : Steady world)
    (meets : Meets world act) (stepped : step world act = some after) : Steady after := by
  cases act with
  | start input =>
      simp only [step] at stepped
      split at stepped
      · cases stepped
        exact ⟨steady.owns, steady.inside, Or.inr ⟨input, rfl,
          effects_safe world input steady.owns steady.inside meets⟩⟩
      · cases stepped
  | advance =>
      simp only [step] at stepped
      split at stepped
      · cases stepped
      · rename_i effect rest planned
        cases stepped
        rcases steady.plan with idle | ⟨input, running, safe⟩
        · simp [idle] at planned
        · rw [planned] at safe
          cases effect with
          | writeSync state =>
              exact ⟨⟨state, rfl, safe.1⟩, fun n member => (safe.2.1 n member).1,
                Or.inr ⟨input, running, safe.2.2⟩⟩
          | alterSystem value =>
              exact ⟨steady.owns, steady.inside, Or.inr ⟨input, running, safe⟩⟩
          | reload => exact ⟨steady.owns, safe.1, Or.inr ⟨input, running, safe.2⟩⟩
          | remember value mark =>
              exact ⟨steady.owns, steady.inside, Or.inr ⟨input, running, safe⟩⟩
  | cut =>
      cases stepped
      exact ⟨steady.owns, steady.inside, Or.inl rfl⟩
  | resetSyncCache =>
      simp only [step] at stepped
      split at stepped
      · rename_i idle
        cases stepped
        exact ⟨steady.owns, steady.inside, Or.inl idle⟩
      · cases stepped

-- Only the write of `/sync` in a run adds names to it.
theorem steady_adds {world : SyncWorld} (steady : Steady world) : AddsCaughtUp world := by
  intro act after stepped name member new
  cases act with
  | start input =>
      simp only [step] at stepped
      split at stepped
      · cases stepped
        exact absurd member new
      · cases stepped
  | advance =>
      simp only [step] at stepped
      split at stepped
      · cases stepped
      · rename_i effect rest planned
        cases stepped
        rcases steady.plan with idle | ⟨input, running, safe⟩
        · simp [idle] at planned
        · rw [planned] at safe
          cases effect with
          | writeSync state =>
              obtain ⟨listed, because⟩ := safe.2.1 name member
              rcases because with already | caughtUp
              · exact absurd already new
              · exact ⟨listed, input, running, caughtUp⟩
          | alterSystem value => exact absurd member new
          | reload => exact absurd member new
          | remember value mark => exact absurd member new
  | cut =>
      cases stepped
      exact absurd member new
  | resetSyncCache =>
      simp only [step] at stepped
      split at stepped
      · cases stepped
        exact absurd member new
      · cases stepped

/-- From a state with `/sync` inside the list, runs that start with nothing
remembered or with the list in effect keep it there at every point, however
they end, and add only caught-up names of the list. -/
theorem sync_stays_inside_list (start world : SyncWorld) (idle : start.pending = [])
    (owns : OwnsSync start) (inside : SyncInsideList start)
    (path : Reaches step Meets start world) : SyncInsideList world ∧ AddsCaughtUp world := by
  have steady : Steady world := reaches_invariant Steady ⟨owns, inside, Or.inl idle⟩
    (fun _ _ _ before meets stepped => steady_step before meets stepped) path
  exact ⟨steady.inside, steady_adds steady⟩

def listOf (name : String) : Str := renderList "FIRST".toList 1 [name.toList]

-- `node1` leads, waits for `node2` and has published it.
def waitingForNode2 : SyncWorld :=
  { name := "node1".toList
    sync := some ⟨"node1".toList, some "node2".toList, 1⟩
    pgFile := listOf "node2"
    pgList := listOf "node2"
    applied := some (listOf "node2")
    mark := some 100
    running := none
    pending := [] }

def onlyStreaming (name : String) : RunInput :=
  ⟨syncOn, [replica name], ⟨200, [⟨name.toList, 200⟩]⟩⟩

-- `node3` replaces `node2` in a run that is not cut.
def wholeChange : List SyncAct :=
  [.start (onlyStreaming "node3"), .advance, .advance, .advance, .advance, .advance]

theorem sync_stays_inside_list_wholeChange :
    ∃ world, Reaches step Meets waitingForNode2 world ∧
      dcsNames world.sync = ["node3".toList] ∧
      SyncInsideList world ∧ AddsCaughtUp world := by
  have path := play_reaches
    (show play step Meets waitingForNode2 wholeChange = some _ from rfl)
  exact ⟨_, path, by decide, sync_stays_inside_list _ _ rfl ⟨_, rfl, by decide⟩
    (fun name member => by revert name; decide) path⟩

-- The change to `node3` is cut after the reload; then `node2` is back.
def cutAfterReload : List SyncAct :=
  [.start (onlyStreaming "node3"), .advance, .advance, .advance, .cut,
   .start (onlyStreaming "node2"), .advance]

/-- The remembered value is not the one in effect: `node2` is published while
PostgreSQL waits for `node3` only. -/
theorem stale_cache_publishes_unlisted :
    OwnsSync waitingForNode2 ∧ SyncInsideList waitingForNode2 ∧
      ∃ world, Reaches step anyAct waitingForNode2 world ∧ ¬ SyncInsideList world := by
  refine ⟨⟨_, rfl, by decide⟩, fun name member => by revert name; decide, ?_⟩
  have path := play_reaches
    (show play step anyAct waitingForNode2 cutAfterReload = some _ from rfl)
  refine ⟨_, path, ?_⟩
  intro inside
  exact absurd (inside "node2".toList (by decide)) (by decide)

end PgHa.SyncReplication
