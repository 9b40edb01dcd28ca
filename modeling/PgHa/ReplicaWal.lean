import PgHa.Text
import Mathlib.Order.Monotone.Basic

/-!
The WAL position and timeline that a replica publishes: `resolve_replica_wal` of
postgresql.rs and the pair that `wal_status` remembers between its calls. Against it stand
the runs of the server, each of which has one WAL whose timelines only grow.
-/

namespace PgHa.ReplicaWal

open Text

structure ReceivedWal where
  postmasterStart : Str
  flushedLsn : Nat
  timeline : Nat
  deriving DecidableEq

structure ReplicaWalSample where
  receiveLsn : Option Nat
  replayLsn : Option Nat
  checkpointTimeline : Option Nat
  /-- `flushed_lsn` and `received_tli` of a streaming receiver. -/
  receiver : Option (Nat × Nat)
  postmasterStart : Option Str
  deriving DecidableEq

inductive ReplicaTimelineSource where
  | receiver
  | lowerBound
  deriving DecidableEq

structure ReplicaWalResolution where
  walPosition : Nat
  timeline : Option Nat
  source : ReplicaTimelineSource
  remember : Option ReceivedWal
  deriving DecidableEq

def replay (sample : ReplicaWalSample) : Nat := sample.replayLsn.getD 0

/-- A streaming receiver's own LSN goes before `pg_last_wal_receive_lsn()`. -/
def receive (sample : ReplicaWalSample) : Nat :=
  match sample.receiver with
  | some (flushed, _) => flushed
  | none => sample.receiveLsn.getD 0

def toRemember (sample : ReplicaWalSample) : Option ReceivedWal :=
  match sample.receiver, sample.postmasterStart with
  | some (flushedLsn, timeline), some start => some ⟨start, flushedLsn, timeline⟩
  | _, _ => none

/-- `Option::max` with `Some`: an unknown timeline is below every known one. -/
def raise (timeline : Option Nat) (known : Nat) : Option Nat :=
  match timeline with
  | none => some known
  | some timeline => some (max timeline known)

/-- The highest timeline known to hold at or below a position. -/
def lowerBound (sample : ReplicaWalSample) (last : Option ReceivedWal) (walPosition : Nat) :
    Option Nat :=
  let timeline := sample.checkpointTimeline
  let timeline := match sample.receiver with
    | some (_, receiverTl) => raise timeline receiverTl
    | none => timeline
  match last with
  | some last =>
      if sample.postmasterStart = some last.postmasterStart ∧ last.flushedLsn ≤ walPosition then
        raise timeline last.timeline
      else timeline
  | none => timeline

def resolveReplicaWal (sample : ReplicaWalSample) (last : Option ReceivedWal) :
    ReplicaWalResolution :=
  let below : ReplicaWalResolution :=
    let walPosition := max (receive sample) (replay sample)
    ⟨walPosition, lowerBound sample last walPosition, .lowerBound, toRemember sample⟩
  match sample.receiver with
  | some (flushed, timeline) =>
      if replay sample ≤ flushed then ⟨flushed, some timeline, .receiver, toRemember sample⟩
      else below
  | none => below

/-- The replica branch of `wal_status`: the pair to remember replaces the last one. -/
def walStatus (last : Option ReceivedWal) (sample : ReplicaWalSample) :
    ReplicaWalResolution × Option ReceivedWal :=
  let resolved := resolveReplicaWal sample last
  (resolved, resolved.remember.or last)

/-! ### Server runs -/

/-- The WAL of one server run, as it is at the run's end. -/
structure ServerWal where
  timelineAt : Nat → Nat
  grows : Monotone timelineAt
  written : Nat

/-- One sample, and the run it was taken in. -/
structure Observation where
  run : Str
  sample : ReplicaWalSample

/-- What a sample may say in a run with this WAL. An LSN that is missing is 0: nothing was
received or replayed. -/
structure Truthful (wal : ServerWal) (observed : Observation) : Prop where
  identified : ∀ start ∈ observed.sample.postmasterStart, start = observed.run
  receiverOn : ∀ pair ∈ observed.sample.receiver, pair.2 = wal.timelineAt pair.1
  receiverIn : ∀ pair ∈ observed.sample.receiver, pair.1 ≤ wal.written
  checkpoint : ∀ timeline ∈ observed.sample.checkpointTimeline,
    timeline ≤ wal.timelineAt (replay observed.sample)
  receiveIn : ∀ lsn ∈ observed.sample.receiveLsn, lsn ≤ wal.written
  replayIn : ∀ lsn ∈ observed.sample.replayLsn, lsn ≤ wal.written

/-- The calls of `wal_status` over a sequence of samples, with what each returns. -/
def statuses (last : Option ReceivedWal) : List Observation →
    List (Observation × ReplicaWalResolution)
  | [] => []
  | observed :: rest =>
      let status := walStatus last observed.sample
      (observed, status.1) :: statuses status.2 rest

/-- What is remembered lies on the WAL of the run it names. -/
def Remembered (runs : Str → ServerWal) (last : Option ReceivedWal) : Prop :=
  ∀ pair ∈ last, pair.timeline = (runs pair.postmasterStart).timelineAt pair.flushedLsn

/-- A resolution reports no timeline above that of its position. The two readings of the
received LSN may differ, for they are taken one after the other. -/
structure Faithful (wal : ServerWal) (sample : ReplicaWalSample) (resolved : ReplicaWalResolution) :
    Prop where
  position : resolved.walPosition = max (receive sample) (replay sample)
  sampled : (∀ pair ∈ sample.receiver, sample.receiveLsn = some pair.1) →
    resolved.walPosition = max (sample.receiveLsn.getD 0) (sample.replayLsn.getD 0)
  inside : resolved.walPosition ≤ wal.written
  below : ∀ timeline ∈ resolved.timeline, timeline ≤ wal.timelineAt resolved.walPosition
  exactly : resolved.source = .receiver →
    resolved.timeline = some (wal.timelineAt resolved.walPosition)

theorem mem_raise {timeline : Option Nat} {known raised : Nat}
    (mem : raised ∈ raise timeline known) :
    raised = known ∨ raised ∈ timeline := by
  cases timeline with
  | none => exact .inl (Option.mem_some.mp mem).symm
  | some timeline =>
      have isMax : max timeline known = raised := Option.mem_some.mp mem
      rcases Nat.le_total timeline known with le | le
      · exact .inl (isMax.symm.trans (max_eq_right le))
      · exact .inr (Option.mem_some.mpr ((max_eq_left le).symm.trans isMax))

theorem receive_in {wal : ServerWal} {observed : Observation} (truthful : Truthful wal observed) :
    receive observed.sample ≤ wal.written := by
  unfold receive
  cases receiver : observed.sample.receiver with
  | some pair => exact truthful.receiverIn pair receiver
  | none =>
      cases known : observed.sample.receiveLsn with
      | none => exact Nat.zero_le _
      | some lsn => exact truthful.receiveIn lsn known

theorem replay_in {wal : ServerWal} {observed : Observation} (truthful : Truthful wal observed) :
    replay observed.sample ≤ wal.written := by
  unfold replay
  cases known : observed.sample.replayLsn with
  | none => exact Nat.zero_le _
  | some lsn => exact truthful.replayIn lsn known

/-- Each of the three values that the bound is taken from holds at or below the position. -/
theorem lowerBound_below {runs : Str → ServerWal} {observed : Observation}
    {last : Option ReceivedWal} {position : Nat} (truthful : Truthful (runs observed.run) observed)
    (remembered : Remembered runs last) (received : receive observed.sample ≤ position)
    (replayed : replay observed.sample ≤ position) :
    ∀ timeline ∈ lowerBound observed.sample last position,
      timeline ≤ (runs observed.run).timelineAt position := by
  have grows := (runs observed.run).grows
  have sampled : ∀ timeline ∈ (match observed.sample.receiver with
      | some (_, receiverTl) => raise observed.sample.checkpointTimeline receiverTl
      | none => observed.sample.checkpointTimeline),
      timeline ≤ (runs observed.run).timelineAt position := by
    intro timeline mem
    have checkpoint : timeline ∈ observed.sample.checkpointTimeline →
        timeline ≤ (runs observed.run).timelineAt position :=
      fun known => (truthful.checkpoint timeline known).trans (grows replayed)
    cases receiver : observed.sample.receiver with
    | none => exact checkpoint (by simpa [receiver] using mem)
    | some pair =>
        rw [receiver] at mem
        rcases mem_raise mem with same | known
        · rw [same, truthful.receiverOn pair receiver]
          rw [receive, receiver] at received
          exact grows received
        · exact checkpoint known
  intro timeline mem
  unfold lowerBound at mem
  cases last with
  | none => exact sampled timeline mem
  | some pair =>
      dsimp only at mem
      split at mem
      · rename_i usable
        rcases mem_raise mem with same | known
        · have run := truthful.identified _ usable.1
          rw [same, remembered pair rfl, run]
          exact grows usable.2
        · exact sampled timeline known
      · exact sampled timeline mem

theorem receive_sampled {sample : ReplicaWalSample}
    (agree : ∀ pair ∈ sample.receiver, sample.receiveLsn = some pair.1) :
    receive sample = sample.receiveLsn.getD 0 := by
  unfold receive
  cases receiver : sample.receiver with
  | none => rfl
  | some pair => rw [agree pair receiver, Option.getD_some]

theorem resolveReplicaWal_faithful {runs : Str → ServerWal} {observed : Observation}
    {last : Option ReceivedWal} (truthful : Truthful (runs observed.run) observed)
    (remembered : Remembered runs last) :
    Faithful (runs observed.run) observed.sample (resolveReplicaWal observed.sample last) := by
  have below : Faithful (runs observed.run) observed.sample
      ⟨max (receive observed.sample) (replay observed.sample),
        lowerBound observed.sample last (max (receive observed.sample) (replay observed.sample)),
        .lowerBound, toRemember observed.sample⟩ := by
    constructor
    · rfl
    · intro agree
      rw [receive_sampled agree, replay]
    · exact max_le (receive_in truthful) (replay_in truthful)
    · exact lowerBound_below truthful remembered (le_max_left _ _) (le_max_right _ _)
    · intro exact
      cases exact
  unfold resolveReplicaWal
  cases receiver : observed.sample.receiver with
  | none => exact below
  | some pair =>
      dsimp only
      split
      · rename_i ahead
        have position : receive observed.sample = pair.1 := by rw [receive, receiver]
        have timeline := truthful.receiverOn pair receiver
        constructor
        · dsimp only
          rw [position, max_eq_left ahead]
        · intro agree
          have sampled := receive_sampled agree
          rw [position] at sampled
          rw [← sampled, ← replay, max_eq_left ahead]
        · exact truthful.receiverIn pair receiver
        · intro known mem
          rw [← Option.mem_some.mp mem]
          exact timeline.le
        · intro _
          exact congrArg some timeline
      · exact below

theorem walStatus_remembered {runs : Str → ServerWal} {observed : Observation}
    {last : Option ReceivedWal} (truthful : Truthful (runs observed.run) observed)
    (remembered : Remembered runs last) : Remembered runs (walStatus last observed.sample).2 := by
  have remember : (resolveReplicaWal observed.sample last).remember =
      toRemember observed.sample := by
    unfold resolveReplicaWal
    cases observed.sample.receiver with
    | none => rfl
    | some pair =>
        dsimp only
        split
        · rfl
        · rfl
  intro pair mem
  rw [walStatus, remember] at mem
  rcases Option.or_eq_some_iff.mp mem with new | ⟨_, kept⟩
  · unfold toRemember at new
    split at new
    · rename_i flushed timeline start receiver known
      cases new
      rw [truthful.identified start known]
      exact truthful.receiverOn _ receiver
    · cases new
  · exact remembered pair kept

/-- In every sequence of samples a replica publishes the position that it has, and no
timeline above that of its WAL there. -/
theorem statuses_faithful (runs : Str → ServerWal) (samples : List Observation)
    (truthful : ∀ observed ∈ samples, Truthful (runs observed.run) observed) :
    ∀ status ∈ statuses none samples,
      Faithful (runs status.1.run) status.1.sample status.2 := by
  have general : ∀ last, Remembered runs last → ∀ status ∈ statuses last samples,
      Faithful (runs status.1.run) status.1.sample status.2 := by
    induction samples with
    | nil =>
        intro _ _ status mem
        cases mem
    | cons observed rest ih =>
        intro last remembered status mem
        have here := truthful observed List.mem_cons_self
        rcases List.mem_cons.mp mem with rfl | later
        · exact resolveReplicaWal_faithful here remembered
        · exact ih (fun other inside => truthful other (List.mem_cons_of_mem _ inside)) _
            (walStatus_remembered here remembered) status later
  exact general none fun pair mem => by cases mem

/-- A run on timeline 5, and one on timeline 6 from position 800 on. -/
def twoRuns (run : Str) : ServerWal :=
  if run = ['1'] then ⟨fun _ => 5, monotone_const, 1000⟩
  else ⟨fun lsn => if lsn < 800 then 5 else 6,
    fun low high le => by dsimp only; split <;> split <;> omega,
    1000⟩

/-- The first run streams; the second streams and then loses its receiver, so that the
remembered pair tells the timeline. -/
def restartedSamples : List Observation :=
  [⟨['1'], ⟨some 900, some 880, some 5, some (900, 5), some ['1']⟩⟩,
    ⟨['2'], ⟨some 810, some 790, some 5, some (810, 6), some ['2']⟩⟩,
    ⟨['2'], ⟨some 850, some 850, some 5, none, some ['2']⟩⟩]

theorem statuses_faithful_restarted :
    (statuses none restartedSamples).map (fun status => status.2.timeline) =
      [some 5, some 6, some 6] ∧
      (∀ observed ∈ restartedSamples, Truthful (twoRuns observed.run) observed) ∧
      ∀ status ∈ statuses none restartedSamples,
        Faithful (twoRuns status.1.run) status.1.sample status.2 := by
  have truthful : ∀ observed ∈ restartedSamples, Truthful (twoRuns observed.run) observed := by
    intro observed mem
    simp only [restartedSamples, List.mem_cons, List.not_mem_nil, or_false] at mem
    rcases mem with rfl | rfl | rfl
    · constructor <;> simp [twoRuns, replay]
    · constructor <;> simp [twoRuns, replay]
    · constructor <;> simp [twoRuns, replay]
  exact ⟨by decide, truthful, statuses_faithful twoRuns restartedSamples truthful⟩

end PgHa.ReplicaWal
