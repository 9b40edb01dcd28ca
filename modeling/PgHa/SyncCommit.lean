import PgHa.SyncReplication

/-!
Commits acknowledged to clients while `enforce_synchronous_replication` changes
the list. The mark a new standby has to reach is the primary's flush LSN in the
replication snapshot, read before the new list takes effect; what is committed
in between under the old list waits for nobody of the new one. `waitsFor` is
PostgreSQL: the standbys, by folded name, that a commit waits for while a value
of `synchronous_standby_names` is in effect.
-/

namespace PgHa.SyncCommit

open Text Cluster SyncNames SyncReplication Transition

/-- `FIRST n` over at most `n` names waits for each of them. -/
def PgWaits (waitsFor : Str → List Str) : Prop :=
  ∀ count names, names.length ≤ count → (∀ name ∈ names, PlainName name) →
    ∀ name ∈ names, toAsciiLowercase name ∈ waitsFor (renderList "FIRST".toList count names)

-- `listMark` is the flush LSN of the snapshot the list in effect was decided
-- from; `standbyFlush` goes by folded name.
structure CommitWorld where
  base : SyncWorld
  primaryFlush : Nat
  standbyFlush : Str → Nat
  acked : List Nat
  listMark : Nat

inductive CommitAct where
  | sync (act : SyncAct)
  | flushPrimary (lsn : Nat)
  | flushStandby (name : Str) (lsn : Nat)
  | acknowledge (lsn : Nat)

/-- A snapshot read now: rows may lag behind what the standbys have flushed. -/
def CommitWorld.Shows (world : CommitWorld) (snapshot : ReplicationSnapshot) : Prop :=
  snapshot.primaryFlushLsn = world.primaryFlush ∧
    ∀ row ∈ snapshot.replicas,
      row.flushLsn ≤ world.standbyFlush (toAsciiLowercase row.applicationName)

instance (world : CommitWorld) (snapshot : ReplicationSnapshot) :
    Decidable (world.Shows snapshot) :=
  inferInstanceAs (Decidable (_ ∧ _))

-- Synchronous mode is on and `maximum_lag_on_syncnode` is not set.
def strictlySynchronous (config : SyncConfig) : Bool :=
  config.enabled && config.maximumLagOnSyncnode.isNone

-- The list in effect after the next write of the run was decided from its snapshot.
def CommitWorld.markAfterNext (world : CommitWorld) : Nat :=
  match world.base.pending, world.base.running with
  | .reload :: _, some input => input.snapshot.primaryFlushLsn
  | _, _ => world.listMark

variable (waitsFor : Str → List Str)

def step (world : CommitWorld) : CommitAct → Option CommitWorld
  | .sync (.start input) =>
      if strictlySynchronous input.config = true ∧ world.Shows input.snapshot then
        (SyncReplication.step world.base (.start input)).map fun base => { world with base := base }
      else none
  | .sync .advance =>
      (SyncReplication.step world.base .advance).map fun base =>
        { world with base := base, listMark := world.markAfterNext }
  | .sync .cut => (SyncReplication.step world.base .cut).map fun base => { world with base := base }
  | .sync .resetSyncCache =>
      (SyncReplication.step world.base .resetSyncCache).map fun base => { world with base := base }
  | .flushPrimary lsn => some { world with primaryFlush := max world.primaryFlush lsn }
  | .flushStandby name lsn =>
      if lsn ≤ world.primaryFlush then
        some { world with standbyFlush := fun other =>
          if other = name then max (world.standbyFlush other) lsn else world.standbyFlush other }
      else none
  | .acknowledge lsn =>
      if lsn ≤ world.primaryFlush ∧
          ∀ name ∈ waitsFor world.base.pgList, lsn ≤ world.standbyFlush name then
        some { world with acked := lsn :: world.acked }
      else none

/-- Names of a `/sync` that this leader wrote. -/
def ownNames (base : SyncWorld) : List Str := syncNameSet (currentVoters base.name base.sync)

/-- Every standby this leader published has flushed every acknowledged commit. -/
def ZeroLoss (world : CommitWorld) : Prop :=
  ∀ name ∈ ownNames world.base, ∀ lsn ∈ world.acked, lsn ≤ world.standbyFlush name

/-- The start of a term: nothing applied, no `/sync` of this leader, and every
commit acknowledged before is on the new primary. -/
structure TermStart (world : CommitWorld) : Prop where
  takeover : Takeover world.base
  idle : world.base.pending = []
  flushed : ∀ lsn ∈ world.acked, lsn ≤ world.primaryFlush
  mark : world.listMark = world.primaryFlush

/-- A run starts with plain member names and nothing remembered, or the list in
effect; and a list with a standby that was not listed before takes effect only
while no commit beyond the run's snapshot is acknowledged. -/
def Meets (world : CommitWorld) : CommitAct → Prop
  | .sync (.start input) =>
      (world.base.applied = none ∨ world.base.applied = some world.base.pgList) ∧
        ∀ member ∈ input.members, PlainName member.name
  | .sync .advance =>
      match world.base.pending with
      | .reload :: _ =>
          (∀ name ∈ waitsFor world.base.pgFile, name ∈ waitsFor world.base.pgList) ∨
            ∀ lsn ∈ world.acked, lsn ≤ world.markAfterNext
      | _ => True
  | _ => True

instance (world : CommitWorld) (act : CommitAct) : Decidable (Meets waitsFor world act) := by
  unfold Meets
  split
  · infer_instance
  · split <;> infer_instance
  · infer_instance

-- What the pending writes of a run have to respect, from the state they meet.
-- `bound` is the LSN from which on commits waited for the list in effect.
def Plan (flush : Str → Nat) (name : Str) (input : RunInput) :
    List Str → Str → Str → Option Str → Nat → List Effect → Prop
  | _, _, _, _, _, [] => True
  | names, file, list, applied, bound, .writeSync state :: rest =>
      eqIgnoreAsciiCase state.leader name = true ∧
      (∀ n ∈ dcsNames (some state), n ∈ waitsFor list ∧
        (n ∈ names ∨ bound ≤ flush n)) ∧
      Plan flush name input (dcsNames (some state)) file list applied bound rest
  | names, _, list, applied, bound, .alterSystem value :: rest =>
      Plan flush name input names value list applied bound rest
  | names, file, _, applied, _, .reload :: rest =>
      applied ≠ some file ∧ (∀ n ∈ names, n ∈ waitsFor file) ∧
      Plan flush name input names file file applied input.snapshot.primaryFlushLsn rest
  | names, file, list, _, bound, .remember value mark :: rest =>
      mark = some bound ∧ Plan flush name input names file list (some value) bound rest

structure Covered (world : CommitWorld) : Prop where
  flushed : ∀ lsn ∈ world.acked, lsn ≤ world.primaryFlush
  marked : world.listMark ≤ world.primaryFlush
  waited : ∀ name ∈ waitsFor world.base.pgList, ∀ lsn ∈ world.acked,
    lsn ≤ world.listMark ∨ lsn ≤ world.standbyFlush name
  listed : ∀ name ∈ ownNames world.base, name ∈ waitsFor world.base.pgList
  lossless : ZeroLoss world
  remembered : world.base.applied = some world.base.pgList → world.base.mark = some world.listMark
  plan : world.base.pending = [] ∨ ∃ input, world.base.running = some input ∧
    world.listMark ≤ input.snapshot.primaryFlushLsn ∧
    input.snapshot.primaryFlushLsn ≤ world.primaryFlush ∧
    Plan waitsFor world.standbyFlush world.base.name input (ownNames world.base) world.base.pgFile
      world.base.pgList world.base.applied world.listMark world.base.pending

theorem plan_mono {flush later : Str → Nat} (grows : ∀ n, flush n ≤ later n) (name : Str)
    (input : RunInput) (pending : List Effect) :
    ∀ names file list applied bound,
      Plan waitsFor flush name input names file list applied bound pending →
      Plan waitsFor later name input names file list applied bound pending := by
  induction pending with
  | nil => exact fun _ _ _ _ _ _ => trivial
  | cons effect rest ih =>
      intro names file list applied bound plan
      cases effect with
      | writeSync state =>
          refine ⟨plan.1, ?_, ih _ _ _ _ _ plan.2.2⟩
          intro n member
          obtain ⟨waits, because⟩ := plan.2.1 n member
          rcases because with already | reached
          · exact ⟨waits, Or.inl already⟩
          · exact ⟨waits, Or.inr (Nat.le_trans reached (grows n))⟩
      | alterSystem value => exact ih _ _ _ _ _ plan
      | reload => exact ⟨plan.1, plan.2.1, ih _ _ _ _ _ plan.2.2⟩
      | remember value mark => exact ⟨plan.1, ih _ _ _ _ _ plan.2⟩

theorem candidates_members {members : List Member} {myName : Str}
    {snapshot : ReplicationSnapshot} {voters : List Str} {candidate : Candidate}
    (member : candidate ∈ candidates members myName snapshot voters) :
    candidate.member ∈ members := by
  simp only [candidates, List.mem_filterMap, List.mem_filter, Option.map_eq_some_iff] at member
  obtain ⟨source, ⟨inside, _⟩, row, _, rfl⟩ := member
  exact inside

theorem withinLag_subset {found : List Candidate} {snapshot : ReplicationSnapshot}
    {threshold : Option Nat} {candidate : Candidate}
    (member : candidate ∈ withinLag found snapshot threshold) : candidate ∈ found := by
  unfold withinLag at member
  split at member
  · exact (List.mem_filter.mp member).1
  · exact member

theorem chosen_members {manager : SyncManager} {members : List Member} {myName : Str}
    {snapshot : ReplicationSnapshot} {threshold : Option Nat} {voters : List Str} {name : Str}
    (member : name ∈ manager.chosen
      (SyncManager.eligible members myName snapshot threshold voters)) :
    ∃ source ∈ members, source.name = name := by
  obtain ⟨candidate, taken, rfl⟩ := List.mem_map.mp member
  have sorted := List.mem_of_mem_take taken
  rw [SyncManager.eligible, List.mem_insertionSort] at sorted
  exact ⟨candidate.member, candidates_members (withinLag_subset sorted), rfl⟩

theorem chosen_filled (manager : SyncManager) (found : List Candidate) (somebody : found ≠ [])
    (positive : 1 ≤ manager.syncNodeCount) : manager.chosen found ≠ [] := by
  have taken : 1 ≤ manager.count found := by
    have filled := List.length_pos_of_ne_nil somebody
    unfold SyncManager.count
    split <;> omega
  simp only [SyncManager.chosen, ne_eq, List.map_eq_nil_iff, List.take_eq_nil_iff, not_or]
  exact ⟨by omega, somebody⟩

/-- PostgreSQL waits for every name that is read back from a computed value. -/
theorem desired_waits (pg : PgWaits waitsFor) (name : Str) (voters : List Str) (input : RunInput)
    (plain : ∀ member ∈ input.members, PlainName member.name) (value : Str)
    (desired : desiredPg name voters input = some value) :
    ∀ n ∈ extractNamesFromSyncValue (some value), n ∈ waitsFor value := by
  have rendered : ∀ count names, names ≠ [] → names.length ≤ count →
      (∀ other ∈ names, PlainName other) → value = renderList "FIRST".toList count names →
      ∀ n ∈ extractNamesFromSyncValue (some value), n ∈ waitsFor value := by
    intro count names filled short plainNames isValue n member
    rw [isValue] at member ⊢
    obtain ⟨other, inside, rfl⟩ :=
      (mem_extract_renderList count names filled plainNames n).mp member
    exact pg count names short plainNames other inside
  unfold desiredPg at desired
  split at desired
  · simp only [SyncManager.computeSyncStandbyNames, SyncManager.new] at desired
    split at desired
    · rename_i nobody
      by_cases strict : input.config.strict = true
      · simp only [strict, if_true, Option.some.injEq] at desired
        exact rendered 1 [placeholderName] (by simp) (by simp) (by decide) desired.symm
      · simp only [strict, Option.some.injEq] at desired
        subst value
        simp [extractNamesFromSyncValue, trim]
    · rename_i somebody
      simp only [Option.some.injEq] at desired
      refine rendered _ _ ?_ ?_ ?_ desired.symm
      · exact chosen_filled _ _ (by simpa using somebody) (Nat.le_max_right _ _)
      · simp only [SyncManager.chosen, List.length_map, List.length_take]
        exact Nat.min_le_left _ _
      · intro other member
        obtain ⟨source, inside, rfl⟩ := chosen_members member
        exact plain source inside
  · simp only [Option.some.injEq] at desired
    subst value
    simp [extractNamesFromSyncValue, trim]

-- A caught-up row is a standby that has flushed up to the mark.
theorem caughtUp_flushed {world : CommitWorld} {input : RunInput} {bound : Nat} {name : Str}
    (unset : input.config.maximumLagOnSyncnode = none) (shows : world.Shows input.snapshot)
    (folded : toAsciiLowercase name = name) (caughtUp : CaughtUp input (some bound) name) :
    bound ≤ world.standbyFlush name := by
  obtain ⟨reference, row, isMark, member, named, reached⟩ := caughtUp
  simp only [Option.some.injEq] at isMark
  subst reference
  simp only [unset, Option.getD_none] at reached
  have here := shows.2 row member
  have same : toAsciiLowercase row.applicationName = name := by
    rw [← folded]
    exact beq_iff_eq.mp named
  rw [same] at here
  omega

section Start

variable {world : CommitWorld} {input : RunInput} {value : Str} {current : List Str}
  (unset : input.config.maximumLagOnSyncnode = none) (shows : world.Shows input.snapshot)
  (waits : ∀ n ∈ extractNamesFromSyncValue (some value), n ∈ waitsFor value)

include unset shows waits

theorem additions_plan (names : List Str) (file : Str) (applied : Option Str) (bound : Nat)
    (mark : markAfter world.base input value = some bound)
    (kept : ∀ n ∈ current, n ∈ extractNamesFromSyncValue (some value) → n ∈ names) :
    Plan waitsFor world.standbyFlush world.base.name input names file value applied bound
      (additions world.base input value current (extractNamesFromSyncValue (some value))) := by
  dsimp only [additions]
  split
  · trivial
  · refine ⟨leader_refl _, ?_, trivial⟩
    intro n published
    have member := (publishable_names world.base.name n).mp published
    obtain ⟨listed, because⟩ := List.mem_filter.mp member
    simp only [Bool.or_eq_true, List.contains_iff_mem] at because
    rcases because with already | caughtUp
    · exact ⟨waits n listed, Or.inl (kept n already listed)⟩
    · rw [mark] at caughtUp
      exact ⟨waits n listed, Or.inr (caughtUp_flushed unset shows
        (extracted_publishable _ n listed).folded (caughtUp_of caughtUp))⟩

theorem listChange_plan (names : List Str)
    (enabled : input.config.enabled = true)
    (remembered : world.base.applied = none ∨ world.base.applied = some world.base.pgList)
    (marked : world.base.applied = some world.base.pgList → world.base.mark = some world.listMark)
    (covered : ∀ n ∈ names, n ∈ extractNamesFromSyncValue (some value))
    (kept : ∀ n ∈ current, n ∈ extractNamesFromSyncValue (some value) → n ∈ names) :
    Plan waitsFor world.standbyFlush world.base.name input names world.base.pgFile
      world.base.pgList world.base.applied world.listMark
      (listChange world.base input value ++
        additions world.base input value current (extractNamesFromSyncValue (some value))) := by
  by_cases same : world.base.applied = some value
  · have inEffect : world.base.pgList = value := by
      rcases remembered with nothing | list
      · simp [nothing] at same
      · simpa [list] using same
    have mark : markAfter world.base input value = some world.listMark := by
      simp only [markAfter, same, if_true]
      exact marked (by rw [same, inEffect])
    have phase3 := additions_plan waitsFor unset shows waits names world.base.pgFile
      world.base.applied world.listMark mark kept
    simpa [listChange, same, inEffect] using phase3
  · have mark : markAfter world.base input value = some input.snapshot.primaryFlushLsn := by
      simp [markAfter, same, snapshotPrimaryFlushLsn, enabled]
    have phase3 := additions_plan waitsFor unset shows waits names value (some value)
      input.snapshot.primaryFlushLsn mark kept
    simp only [listChange, same, if_false, List.cons_append, List.nil_append, Plan]
    exact ⟨same, fun n member => waits n (covered n member),
      by simp [snapshotPrimaryFlushLsn, enabled], phase3⟩

end Start

theorem effects_plan (pg : PgWaits waitsFor) {world : CommitWorld} {input : RunInput}
    (covered : Covered waitsFor world) (strictly : strictlySynchronous input.config = true)
    (shows : world.Shows input.snapshot) (meets : Meets waitsFor world (.sync (.start input))) :
    Plan waitsFor world.standbyFlush world.base.name input (ownNames world.base) world.base.pgFile
      world.base.pgList world.base.applied world.listMark (effects world.base input) := by
  simp only [strictlySynchronous, Bool.and_eq_true, Option.isNone_iff_eq_none] at strictly
  obtain ⟨remembered, plain⟩ := meets
  simp only [effects]
  split
  · trivial
  · rename_i value desired
    have waits := desired_waits waitsFor pg world.base.name _ input plain value desired
    split
    · trivial
    · rw [List.append_assoc]
      unfold removals
      split
      · rename_i inside
        exact listChange_plan waitsFor strictly.2 shows waits (ownNames world.base) strictly.1
          remembered covered.remembered ((isSubset_iff _ _).mp inside) (fun n member _ => member)
      · have reads := removal_names world.base.name input (ownNames world.base) value
        refine ⟨leader_refl _, ?_, ?_⟩
        · intro n member
          exact ⟨covered.listed n ((reads n).mp member).1, Or.inl ((reads n).mp member).1⟩
        · exact listChange_plan waitsFor strictly.2 shows waits _ strictly.1 remembered
            covered.remembered (fun n member => ((reads n).mp member).2)
            (fun n member listed => (reads n).mpr ⟨member, listed⟩)

theorem ownNames_written (base : SyncWorld) (state : SyncState)
    (leader : eqIgnoreAsciiCase state.leader base.name = true) :
    ownNames { base with sync := some state } = dcsNames (some state) := by
  simp [ownNames, currentVoters, dcsNames, leader]

theorem covered_advance {world : CommitWorld} {effect : Effect} {rest : List Effect}
    (covered : Covered waitsFor world) (planned : world.base.pending = effect :: rest)
    (meets : Meets waitsFor world (.sync .advance)) :
    Covered waitsFor { world with
      base := { world.base.perform effect with pending := rest }
      listMark := world.markAfterNext } := by
  rcases covered.plan with idle | ⟨input, running, older, newer, plan⟩
  · simp [idle] at planned
  · rw [planned] at plan
    cases effect with
    | writeSync state =>
        obtain ⟨leader, added, after⟩ := plan
        have mark : world.markAfterNext = world.listMark := by
          simp [CommitWorld.markAfterNext, planned]
        have names := ownNames_written world.base state leader
        rw [mark]
        refine ⟨covered.flushed, covered.marked, covered.waited, ?_, ?_, covered.remembered,
          Or.inr ⟨input, running, older, newer, ?_⟩⟩
        · intro n member
          exact (added n (names ▸ member)).1
        · intro n member lsn isAcked
          obtain ⟨waits, because⟩ := added n (names ▸ member)
          rcases because with already | reached
          · exact covered.lossless n already lsn isAcked
          · rcases covered.waited n waits lsn isAcked with early | flushed
            · exact Nat.le_trans early reached
            · exact flushed
        · exact names.symm ▸ after
    | alterSystem value =>
        have mark : world.markAfterNext = world.listMark := by
          simp [CommitWorld.markAfterNext, planned]
        rw [mark]
        exact ⟨covered.flushed, covered.marked, covered.waited, covered.listed, covered.lossless,
          covered.remembered, Or.inr ⟨input, running, older, newer, plan⟩⟩
    | reload =>
        obtain ⟨changed, inFile, after⟩ := plan
        have mark : world.markAfterNext = input.snapshot.primaryFlushLsn := by
          simp [CommitWorld.markAfterNext, planned, running]
        simp only [Meets, planned] at meets
        rw [mark] at meets ⊢
        refine ⟨covered.flushed, newer, ?_, inFile, covered.lossless, ?_,
          Or.inr ⟨input, running, Nat.le_refl _, newer, after⟩⟩
        · -- A standby that was listed before, or nothing acknowledged beyond the snapshot.
          intro n member lsn isAcked
          rcases meets with listedBefore | early
          · rcases covered.waited n (listedBefore n member) lsn isAcked with old | flushed
            · exact Or.inl (Nat.le_trans old older)
            · exact Or.inr flushed
          · exact Or.inl (early lsn isAcked)
        · intro same
          exact absurd same changed
    | remember value mark =>
        obtain ⟨isMark, after⟩ := plan
        have same : world.markAfterNext = world.listMark := by
          simp [CommitWorld.markAfterNext, planned]
        rw [same]
        exact ⟨covered.flushed, covered.marked, covered.waited, covered.listed, covered.lossless,
          fun _ => isMark, Or.inr ⟨input, running, older, newer, after⟩⟩

theorem covered_flushPrimary {world : CommitWorld} (covered : Covered waitsFor world) (lsn : Nat) :
    Covered waitsFor { world with primaryFlush := max world.primaryFlush lsn } := by
  refine ⟨?_, ?_, covered.waited, covered.listed, covered.lossless, covered.remembered, ?_⟩
  · intro other isAcked
    exact Nat.le_trans (covered.flushed other isAcked) (Nat.le_max_left _ _)
  · exact Nat.le_trans covered.marked (Nat.le_max_left _ _)
  · rcases covered.plan with idle | ⟨input, running, older, newer, plan⟩
    · exact Or.inl idle
    · exact Or.inr ⟨input, running, older, Nat.le_trans newer (Nat.le_max_left _ _), plan⟩

/-- Standbys flush more and more. -/
theorem covered_flushStandby {world : CommitWorld} (covered : Covered waitsFor world)
    {later : Str → Nat} (grows : ∀ name, world.standbyFlush name ≤ later name) :
    Covered waitsFor { world with standbyFlush := later } := by
  refine ⟨covered.flushed, covered.marked, ?_, covered.listed, ?_, covered.remembered, ?_⟩
  · intro name member lsn isAcked
    rcases covered.waited name member lsn isAcked with early | flushed
    · exact Or.inl early
    · exact Or.inr (Nat.le_trans flushed (grows name))
  · intro name member lsn isAcked
    exact Nat.le_trans (covered.lossless name member lsn isAcked) (grows name)
  · rcases covered.plan with idle | ⟨input, running, older, newer, plan⟩
    · exact Or.inl idle
    · exact Or.inr ⟨input, running, older, newer,
        plan_mono waitsFor grows _ input _ _ _ _ _ _ plan⟩

/-- A commit is acknowledged when the primary and every standby it waits for have it. -/
theorem covered_acknowledge {world : CommitWorld} (covered : Covered waitsFor world) {lsn : Nat}
    (onPrimary : lsn ≤ world.primaryFlush)
    (onStandbys : ∀ name ∈ waitsFor world.base.pgList, lsn ≤ world.standbyFlush name) :
    Covered waitsFor { world with acked := lsn :: world.acked } := by
  refine ⟨?_, covered.marked, ?_, covered.listed, ?_, covered.remembered, covered.plan⟩
  · intro other isAcked
    rcases List.mem_cons.mp isAcked with same | old
    · exact same ▸ onPrimary
    · exact covered.flushed other old
  · intro name member other isAcked
    rcases List.mem_cons.mp isAcked with same | old
    · exact Or.inr (same ▸ onStandbys name member)
    · exact covered.waited name member other old
  · intro name member other isAcked
    rcases List.mem_cons.mp isAcked with same | old
    · exact same ▸ onStandbys name (covered.listed name member)
    · exact covered.lossless name member other old

theorem covered_step (pg : PgWaits waitsFor) {world after : CommitWorld} {act : CommitAct}
    (covered : Covered waitsFor world) (meets : Meets waitsFor world act)
    (stepped : step waitsFor world act = some after) : Covered waitsFor after := by
  cases act with
  | sync act =>
      cases act with
      | start input =>
          simp only [step, SyncReplication.step] at stepped
          split at stepped
          · rename_i reading
            split at stepped
            · simp only [Option.map_some, Option.some.injEq] at stepped
              subst after
              have plan := effects_plan waitsFor pg covered reading.1 reading.2 meets
              have older : world.listMark ≤ input.snapshot.primaryFlushLsn := by
                rw [reading.2.1]
                exact covered.marked
              exact ⟨covered.flushed, covered.marked, covered.waited, covered.listed,
                covered.lossless, covered.remembered,
                Or.inr ⟨input, rfl, older, Nat.le_of_eq reading.2.1, plan⟩⟩
            · cases stepped
          · cases stepped
      | advance =>
          simp only [step, SyncReplication.step] at stepped
          split at stepped
          · cases stepped
          · rename_i effect rest planned
            simp only [Option.map_some, Option.some.injEq] at stepped
            subst after
            exact covered_advance waitsFor covered planned meets
      | cut =>
          simp only [step, SyncReplication.step, Option.map_some, Option.some.injEq] at stepped
          subst after
          exact ⟨covered.flushed, covered.marked, covered.waited, covered.listed,
            covered.lossless, covered.remembered, Or.inl rfl⟩
      | resetSyncCache =>
          simp only [step, SyncReplication.step] at stepped
          split at stepped
          · rename_i idle
            simp only [Option.map_some, Option.some.injEq] at stepped
            subst after
            exact ⟨covered.flushed, covered.marked, covered.waited, covered.listed,
              covered.lossless, fun same => (by cases same), Or.inl idle⟩
          · cases stepped
  | flushPrimary lsn =>
      simp only [step, Option.some.injEq] at stepped
      subst after
      exact covered_flushPrimary waitsFor covered lsn
  | flushStandby name lsn =>
      simp only [step] at stepped
      split at stepped
      · simp only [Option.some.injEq] at stepped
        subst after
        refine covered_flushStandby waitsFor covered fun other => ?_
        split
        · exact Nat.le_max_left _ _
        · exact Nat.le_refl _
      · cases stepped
  | acknowledge lsn =>
      simp only [step] at stepped
      split at stepped
      · rename_i allowed
        simp only [Option.some.injEq] at stepped
        subst after
        exact covered_acknowledge waitsFor covered allowed.1 allowed.2
      · cases stepped

theorem covered_start {world : CommitWorld} (term : TermStart world) : Covered waitsFor world := by
  have nothing : ownNames world.base = [] := by
    simp [ownNames, takeover_voters term.takeover, syncNameSet, nameSet]
  constructor
  · exact term.flushed
  · exact Nat.le_of_eq term.mark
  · intro name _ lsn isAcked
    exact Or.inl (term.mark ▸ term.flushed lsn isAcked)
  · simp [nothing]
  · simp [ZeroLoss, nothing]
  · simp [term.takeover.fresh]
  · exact Or.inl term.idle

/-- Through a whole term, with commits and flushes between any two steps of the
runs, a published standby has every acknowledged commit. -/
theorem published_standby_has_commits (pg : PgWaits waitsFor) (start world : CommitWorld)
    (term : TermStart start) (path : Reaches (step waitsFor) (Meets waitsFor) start world) :
    ZeroLoss world := by
  have covered : Covered waitsFor world :=
    reaches_invariant (Covered waitsFor) (covered_start waitsFor term)
      (fun _ _ _ before meets stepped => covered_step waitsFor pg before meets stepped) path
  exact covered.lossless

-- A reader of the list that PostgreSQL agrees with on plain names.
def quotedNames (value : Str) : List Str := extractNamesFromSyncValue (some value)

theorem quotedNames_waits : PgWaits quotedNames := by
  intro count names _ plain name member
  exact (mem_extract_renderList count names (List.ne_nil_of_mem member) plain _).mpr
    ⟨name, member, rfl⟩

-- `node1` was promoted with everything flushed up to 100; `node2` streams.
def promoted : CommitWorld :=
  { base :=
      { name := "node1".toList
        sync := none
        pgFile := []
        pgList := []
        applied := none
        mark := none
        running := none
        pending := [] }
    primaryFlush := 100
    standbyFlush := fun _ => 100
    acked := []
    listMark := 100 }

def node2Streams : RunInput :=
  ⟨syncOn, [replica "node2"], ⟨100, [⟨"node2".toList, 100⟩]⟩⟩

-- The next commit comes after the list that names `node2` is in effect.
def commitAfterList : List CommitAct :=
  [.sync (.start node2Streams), .sync .advance, .sync .advance, .sync .advance, .sync .advance,
   .flushPrimary 200, .flushStandby "node2".toList 200, .acknowledge 200]

theorem promoted_term : TermStart promoted :=
  ⟨⟨rfl, by decide⟩, rfl, by decide, rfl⟩

theorem published_standby_has_commits_commitAfterList :
    ∃ world, Reaches (step quotedNames) (Meets quotedNames) promoted world ∧
      ownNames world.base = ["node2".toList] ∧ world.acked = [200] ∧ ZeroLoss world := by
  have path := play_reaches
    (show play (step quotedNames) (Meets quotedNames) promoted commitAfterList = some _ from rfl)
  exact ⟨_, path, by decide, rfl,
    published_standby_has_commits quotedNames quotedNames_waits _ _ promoted_term path⟩

-- The commit comes between the snapshot and the reload.
def commitBeforeList : List CommitAct :=
  [.sync (.start node2Streams), .flushPrimary 200, .acknowledge 200, .sync .advance,
   .sync .advance, .sync .advance, .sync .advance]

/-- `node2` is published with everything up to 100, and 200 was acknowledged. -/
theorem commit_before_list_is_missed :
    PgWaits quotedNames ∧ TermStart promoted ∧
      ∃ world, Reaches (step quotedNames) anyAct promoted world ∧ ¬ ZeroLoss world := by
  refine ⟨quotedNames_waits, promoted_term, ?_⟩
  have path := play_reaches
    (show play (step quotedNames) anyAct promoted commitBeforeList = some _ from rfl)
  refine ⟨_, path, ?_⟩
  intro lossless
  exact absurd (lossless "node2".toList (by decide) 200 (by decide)) (by decide)

end PgHa.SyncCommit
