import PgHa.DataRemoval
import PgHa.ElectionAgreement
import PgHa.PrimaryFenced

/-!
The checks of a switchover (`ha/commands.rs`) and the election after it
(`ha/election.rs`). The checks read the view before the leader steps down, the election
reads the one after; between them only the record of the leader changes.
-/

namespace PgHa.SwitchoverSuccessor

open Text Cluster Identity LatestTimeline Interruptible Trace HaState Election HaHelpers HaFollow
open HaCycle HaFrames DataRemoval ElectionAgreement

variable {env : Env} {ha : Ha} {Value : Type}

/-! ### After the leader stepped down -/

def stoppedAs (name : Str) (member : Member) : Member :=
  if member.name = name then { member with state := .stopped } else member

/-- `/failover` is written, the lock deleted and this node's PostgreSQL stopped. -/
def switchedOver (ha : Ha) (candidate : Option Str) : ClusterView :=
  { ha.cluster with
    leader := none
    failover := some ⟨some ha.config.name, candidate⟩
    members := ha.cluster.members.map (stoppedAs ha.config.name) }

/-- A node that runs `process_unhealthy_cluster`. -/
structure Peer where
  env : Env
  ha : Ha

def Peer.node (peer : Peer) : Node := ⟨peer.ha, watchdogUsable peer.env peer.ha⟩

/-- The lock was asked for since. -/
def Asks (before after : Ha) : Prop :=
  ∃ new, after.trace = new ++ before.trace ∧ Event.acquiring ∈ new

/-- The node attempts to acquire the lock, also where the run is dropped later. -/
def Attempts (peer : Peer) : Prop :=
  Ends processUnhealthyCluster peer.env peer.ha (fun _ after => Asks peer.ha after) (Asks peer.ha)

/-- The record of a running member is true of its node: the tags and the watchdog, that
it is a standby which is not held, and the generation of its data. -/
structure Reports (peer : Peer) (member : Member) : Prop where
  publishes : Publishes peer.node member
  standby : peer.ha.pgIdentity = .managedStandby
  unheld : (rewindHoldState peer.ha.directory.rewindHold peer.ha.rewindHold
    peer.ha.rewindHoldPersisted).1 = false
  generation : ∀ lineage, member.lineage = some lineage →
    peer.ha.directory.generation = .ok lineage.generation

/-- The other nodes once the leader stepped down. -/
structure Aftermath (ha : Ha) (candidate : Option Str) (peers : List Peer) : Prop where
  distinct : (ha.cluster.members.map Member.name).Nodup
  reported : ∀ member ∈ ha.cluster.members, member.name ≠ ha.config.name →
    member.state = .running → ∃ peer ∈ peers, Reports peer member
  view : ∀ peer ∈ peers, peer.ha.cluster = switchedOver ha candidate
  config : ∀ peer ∈ peers, peer.ha.lastConfig = ha.lastConfig

/-- Some other node attempts to acquire the lock, the candidate if one was named. -/
def HasSuccessor (ha : Ha) (candidate : Option Str) (peers : List Peer) : Prop :=
  ∃ peer ∈ peers, peer.ha.config.name ≠ ha.config.name ∧
    (∀ named, candidate = some named → peer.ha.config.name = named) ∧ Attempts peer

/-! ### Taking the lock removes nothing -/

theorem gentle_setLeader (isLeader : Bool) : Gentle (setLeader isLeader) :=
  gentle_change fun _ _ => appends_refl _

theorem gentle_setLeaderLease (lease : Option Lease.LeaderLease) : Gentle (setLeaderLease lease) :=
  gentle_bind (gentle_change fun _ _ => appends_refl _) fun _ => gentle_change fun _ _ =>
    appends_refl _

theorem gentle_extendLeaderLease (anchor : Lease.LeaseAnchor) : Gentle (extendLeaderLease anchor) :=
  gentle_bind (gentle_ask _) fun _ => gentle_bind (gentle_ask _) fun _ =>
    gentle_bind (gentle_change fun _ _ => appends_one _ trivial) fun _ => gentle_setLeaderLease _

theorem gentle_armWatchdog : Gentle armWatchdog :=
  gentle_bind (gentle_ask _) fun _ => gentle_bind (gentle_ask _) fun _ =>
    gentle_bind (gentle_ask _) fun _ => gentle_ite (gentle_pure _) (gentle_ite
      (gentle_bind (gentle_change fun _ _ => appends_one _ trivial) fun _ => gentle_pure _)
      (gentle_ite (gentle_pure _) (gentle_pure _)))

theorem gentle_deleteLeader : Gentle deleteLeader :=
  gentle_bind (gentle_change fun _ _ => appends_one _ trivial) fun _ => gentle_quiet swapWrite_quiet

theorem gentle_releaseLockAsStandby : Gentle releaseLockAsStandby :=
  gentle_bind (gentle_ask _) fun _ => gentle_bind
    (gentle_ite (gentle_bind gentle_deleteLeader fun _ => gentle_pure _) (gentle_pure _)) fun _ =>
      gentle_bind (gentle_setLeader false) fun _ =>
        gentle_bind (gentle_setLeaderLease none) fun _ =>
        gentle_quiet resetSyncCache_quiet

theorem gentle_stop : Gentle stopPublishingNotPrimary := gentle_idles fun _ _ =>
    stopPublishing_idles

theorem gentle_fenceAtLeaseCheck (step : Str) : Gentle (fenceAtLeaseCheck step) :=
  gentle_bind (gentle_bind (gentle_setLeader false) fun _ =>
    gentle_bind (gentle_setLeaderLease none) fun _ =>
      gentle_bind (gentle_idles fun _ _ => fencePrimary_idles) fun _ =>
        gentle_bind (gentle_quiet (setRole_quiet _)) fun _ =>
          gentle_bind (gentle_moves reconcileWatchdog_idle) fun _ => gentle_pure _) fun _ =>
    gentle_pure _

theorem gentle_recordPendingPromote : Gentle recordPendingPromote := by
  refine gentle_bind (gentle_ask _) fun written => ?_
  cases written with
  | some pending => exact gentle_pure _
  | none =>
      refine gentle_bind (gentle_ask _) fun planned => ?_
      cases planned with
      | error e => exact gentle_pure _
      | ok pending =>
          refine gentle_bind (gentle_quiet swapWrite_quiet) fun swapped => ?_
          match swapped with
          | .ok true =>
              exact gentle_bind (gentle_change fun _ _ => appends_one _ trivial) fun _ =>
                gentle_pure _
          | .ok false => exact gentle_pure _
          | .error e => exact gentle_pure _

theorem gentle_promote : Gentle promote := by
  refine gentle_bind (gentle_change fun _ _ => appends_one _ trivial) fun _ =>
    gentle_bind gentle_await fun _ => gentle_bind (gentle_change fun env ha => ?_) fun _ =>
      gentle_bind (gentle_ask _) fun promoted => gentle_bind gentle_await fun _ => ?_
  · split
    · exact appends_one _ trivial
    · exact appends_refl _
  · cases promoted with
    | ok => exact gentle_pure _
    | error e => exact gentle_pure _

theorem gentle_confirmPromote (pending : PendingPromote) : Gentle (confirmPromote pending) := by
  refine gentle_bind (gentle_ask _) fun _ => gentle_bind (gentle_quiet
    (keeps_bind await_quiet fun _ => answer_quiet Env.primaryTimeline)) fun new => ?_
  cases new.bind (confirmedRecord _ pending) with
  | error e => exact gentle_pure _
  | ok record =>
      refine gentle_bind (gentle_quiet (CallGates.writeGeneration_quiet pending)) fun written => ?_
      cases written with
      | error e => exact gentle_pure _
      | ok =>
          refine gentle_bind gentle_await fun _ => gentle_bind (gentle_ask _) fun current => ?_
          cases current with
          | error e => exact gentle_pure _
          | ok view =>
              refine gentle_ite (gentle_bind (gentle_quiet swapWrite_quiet) fun swapped => ?_)
                (gentle_pure _)
              match swapped with
              | .ok true =>
                  exact gentle_bind (gentle_change fun _ _ => appends_refl _) fun _ =>
                    gentle_quiet finishOverride_quiet
              | .ok false => exact gentle_pure _
              | .error e => exact gentle_pure _

theorem gentle_promoteAndConfirm : Gentle promoteAndConfirm := by
  refine gentle_bind gentle_armWatchdog fun armed => ?_
  cases armed with
  | error e => exact gentle_bind gentle_releaseLockAsStandby fun _ => gentle_pure _
  | ok =>
      refine gentle_bind gentle_recordPendingPromote fun recorded => ?_
      cases recorded with
      | error e => exact gentle_pure _
      | ok pending =>
          refine gentle_bind (gentle_ask _) fun lost => gentle_ite (gentle_fenceAtLeaseCheck _)
            (gentle_bind gentle_promote fun promoted => ?_)
          cases promoted with
          | error e => exact gentle_pure _
          | ok =>
              exact gentle_bind (gentle_moves observeRecovery_idle) fun _ =>
                gentle_bind (gentle_ask _) fun _ => gentle_ite
                  (gentle_bind (gentle_quiet (setRole_quiet _)) fun _ =>
                    gentle_bind (gentle_confirmPromote pending) fun _ =>
                      gentle_bind gentle_await fun _ =>
                        gentle_bind (gentle_quiet enforceSynchronousReplication_quiet) fun _ =>
                          gentle_bind (gentle_ask _) fun _ => gentle_pure _)
                  (gentle_bind gentle_await fun _ => gentle_pure _)

theorem gentle_releaseLeaderLockIfStopped : Gentle releaseLeaderLockIfStopped := by
  refine gentle_bind (gentle_ask _) fun _ => gentle_bind (gentle_ask _) fun _ =>
    gentle_bind (gentle_ask _) fun leader => gentle_ite (gentle_pure _)
      (gentle_ite (gentle_pure _) ?_)
  have releases : Gentle (do
      setLeader false
      resetSyncCache
      pure true) :=
    gentle_bind (gentle_setLeader false) fun _ => gentle_bind (gentle_quiet resetSyncCache_quiet)
      fun _ => gentle_pure _
  cases leader with
  | none => exact releases
  | some name =>
      refine gentle_bind gentle_deleteLeader fun deleted => ?_
      match deleted with
      | .ok true => exact releases
      | .ok false => exact gentle_pure _
      | .error e => exact gentle_pure _

theorem gentle_relinquishUnmanagedRecovery : Gentle relinquishUnmanagedRecovery :=
  gentle_bind (gentle_ask _) fun _ => gentle_bind (gentle_ask _) fun _ => gentle_ite
    (gentle_bind gentle_await fun _ => gentle_pure _)
    (gentle_bind (gentle_ite gentle_stop (gentle_bind (gentle_moves (prepareDemotion_idle true))
      fun _ => gentle_stop)) fun _ => gentle_bind (gentle_ask _) fun _ => gentle_ite
        (gentle_bind gentle_await fun _ => gentle_pure _)
        (gentle_bind gentle_releaseLeaderLockIfStopped fun _ => gentle_bind gentle_await fun _ =>
          gentle_ite (gentle_pure _) (gentle_pure _)))

theorem gentle_enforceStandbyLeaderRole : Gentle enforceStandbyLeaderRole := by
  refine gentle_bind (gentle_ask _) fun config => gentle_bind (gentle_ask _) fun _ => ?_
  cases config with
  | none => exact gentle_pure _
  | some remote =>
      refine gentle_bind (gentle_ask _) fun _ => gentle_ite
        (gentle_bind (gentle_quiet (setRole_quiet _)) fun _ => gentle_bind gentle_await fun _ =>
          gentle_bind (gentle_bind (gentle_ask _) fun newest => ?_) fun _ => gentle_pure _)
        (gentle_bind gentle_await fun _ => gentle_pure _)
      cases newest with
      | error e => exact gentle_pure _
      | ok history =>
          exact gentle_ite (gentle_quiet (recordOwnTimeline_quiet _)) (gentle_pure _)

theorem gentle_hold : Gentle hold := by
  refine gentle_bind (gentle_ask _) fun _ => gentle_ite (gentle_fenceAtLeaseCheck _)
    (gentle_bind gentle_armWatchdog fun armed => ?_)
  cases armed with
  | error e =>
      exact gentle_bind (gentle_setLeaderLease none) fun _ => gentle_fenceAtLeaseCheck _
  | ok =>
      exact gentle_bind (gentle_quiet (setRole_quiet _)) fun _ => gentle_bind gentle_await fun _ =>
        gentle_bind (gentle_quiet recordClusterTimeline_quiet) fun _ =>
          gentle_bind (gentle_quiet enforceSynchronousReplication_quiet) fun _ =>
            gentle_bind (gentle_quiet appendPendingHistory_quiet) fun _ =>
              gentle_bind (gentle_ask _) fun _ => gentle_pure _

theorem gentle_enforcePrimaryRole : Gentle enforcePrimaryRole := by
  refine gentle_bind (gentle_ask _) fun _ => gentle_bind (gentle_ask _) fun identity =>
    gentle_ite gentle_enforceStandbyLeaderRole ?_
  cases identity with
  | primary => exact gentle_hold
  | managedStandby => exact gentle_promoteAndConfirm
  | unmanagedRecovery => exact gentle_relinquishUnmanagedRecovery
  | unknown signal => exact gentle_bind gentle_await fun _ => gentle_pure _

/-- What follows the attempt. -/
theorem acquireLeader_asks :
    Ends acquireLeader env ha (fun _ after => Asks ha after) (Asks ha) := by
  have asked (after : Ha) (spared : Spares (ha.noted .acquiring) after) : Asks ha after := by
    obtain ⟨new, trace, _⟩ := spared
    refine ⟨new ++ [.acquiring], ?_, by simp⟩
    rw [trace]
    simp [Ha.noted]
  refine ends_mono
    (gentle_bind (gentle_quiet swapWrite_quiet) (fun acquired => ?_) env (ha.noted .acquiring))
    (fun _ after ended => asked after ended.1) fun after cut => asked after cut.1
  cases acquired with
  | error e => exact gentle_pure _
  | ok won =>
      cases won with
      | false => exact gentle_bind (gentle_setLeader false) fun _ => gentle_pure _
      | true =>
          exact gentle_bind (gentle_setLeader true) fun _ =>
            gentle_bind (gentle_extendLeaderLease ⟨env.mono ha.tick, env.wall ha.tick⟩) fun _ =>
              gentle_bind (gentle_change fun _ _ => appends_refl _) fun _ =>
                gentle_bind (gentle_quiet attempt_quiet) fun _ => gentle_enforcePrimaryRole

/-! ### A ready node -/

theorem firstResult_passes {check : HaProg (Option CycleResult)}
    {rest : List (HaProg (Option CycleResult))} {last : HaProg CycleResult} {reached : Ha}
    (passes : check env ha = .done none reached) :
    firstResult (check :: rest) last env ha = firstResult rest last env reached := bind_done passes

theorem ask_bind {Read Next : Type} (field : Env → Ha → Read) (next : Read → HaProg Next) :
    (ask field >>= next) env ha = next (field env ha) env ha := rfl

theorem read_bind {Read Next : Type} (field : Ha → Read) (next : Read → HaProg Next) :
    (read field >>= next) env ha = next (field ha) env ha := rfl

/-- A hold that the operator lifted is forgotten. -/
def unheldState (ha : Ha) : Ha :=
  if (rewindHoldState ha.directory.rewindHold ha.rewindHold ha.rewindHoldPersisted).2 then
    { ha with rewindHold := false, rewindHoldPersisted := false }
  else ha

/-- Only the hold differs. -/
theorem unheld_same {field : Ha → Value}
    (other : ∀ ha, field { ha with rewindHold := false, rewindHoldPersisted := false } =
      field ha) :
    field (unheldState ha) = field ha := by
  unfold unheldState
  split
  · exact other ha
  · rfl

theorem enforceGeneration_passes (current : staleGeneration ha = none) :
    enforceGeneration env ha = .done none ha := by
  unfold enforceGeneration
  simp only [read_bind, current]
  rfl

theorem enforceRewindHold_passes
    (unheld : (rewindHoldState ha.directory.rewindHold ha.rewindHold ha.rewindHoldPersisted).1 =
      false) :
    enforceRewindHold env ha = .done none (unheldState ha) := by
  have refreshed : refreshRewindHold env ha = .done false (unheldState ha) := by
    rw [← unheld]
    unfold unheldState
    change ((if (rewindHoldState ha.directory.rewindHold ha.rewindHold
      ha.rewindHoldPersisted).2 then clearRewindHold else pure ()) >>= fun _ => pure _) env ha = _
    split
    · rfl
    · rfl
  exact bind_done refreshed

theorem checkStance_passes (standby : ha.pgIdentity = .managedStandby) :
    checkStance env ha = .done none ha := by
  unfold checkStance
  simp only [read_bind, standby]
  rfl

theorem checkEligible_passes (eligible : ownEligibility (watchdogUsable env ha) ha = .eligible) :
    checkEligible env ha = .done none ha := by
  unfold checkEligible
  simp only [ask_bind, eligible]
  rfl

theorem checkStale_passes (standby : ha.pgIdentity = .managedStandby) :
    checkStale env ha = .done none ha := by
  have other : (ha.pgIdentity == .primary && !isHealthiestNode (watchdogUsable env ha) ha &&
      !ha.cluster.members.isEmpty) = false := by
    rw [standby]
    rfl
  change (if (ha.pgIdentity == .primary && !isHealthiestNode (watchdogUsable env ha) ha &&
    !ha.cluster.members.isEmpty) = true then _ else pure none : HaProg (Option CycleResult))
      env ha = _
  rw [other]
  rfl

/-- A standby that is not held and whose data is current comes to the election. -/
theorem ready_runs (awake : ha.isPaused = false) (current : staleGeneration ha = none)
    (unheld : (rewindHoldState ha.directory.rewindHold ha.rewindHold ha.rewindHoldPersisted).1 =
      false)
    (standby : ha.pgIdentity = .managedStandby)
    (eligible : ownEligibility (watchdogUsable env ha) ha = .eligible) :
    processUnhealthyCluster env ha = campaign env (unheldState ha) := by
  have identity : (unheldState ha).pgIdentity = .managedStandby :=
    (unheld_same fun _ => rfl).trans standby
  have own : ownEligibility (watchdogUsable env (unheldState ha)) (unheldState ha) = .eligible := by
    rw [← eligible]
    exact @unheld_same ha _ (fun ha => ownEligibility (watchdogUsable env ha) ha) fun _ => rfl
  calc processUnhealthyCluster env ha
      = firstResult [enforceGeneration, enforceRewindHold, checkStance, checkEligible, checkStale]
          campaign env ha := by
        unfold processUnhealthyCluster
        change (if ha.isPaused = true then _ else _ : HaProg CycleResult) env ha = _
        rw [awake]
        rfl
    _ = firstResult [enforceRewindHold, checkStance, checkEligible, checkStale] campaign env ha :=
        firstResult_passes (enforceGeneration_passes current)
    _ = firstResult [checkStance, checkEligible, checkStale] campaign env (unheldState ha) :=
        firstResult_passes (enforceRewindHold_passes unheld)
    _ = firstResult [checkEligible, checkStale] campaign env (unheldState ha) :=
        firstResult_passes (checkStance_passes identity)
    _ = firstResult [checkStale] campaign env (unheldState ha) :=
        firstResult_passes (checkEligible_passes own)
    _ = campaign env (unheldState ha) := firstResult_passes (checkStale_passes identity)

theorem ready_attempts {peer : Peer} (awake : peer.ha.isPaused = false)
    (current : staleGeneration peer.ha = none)
    (unheld : (rewindHoldState peer.ha.directory.rewindHold peer.ha.rewindHold
      peer.ha.rewindHoldPersisted).1 = false)
    (standby : peer.ha.pgIdentity = .managedStandby)
    (eligible : ownEligibility peer.node.usable peer.ha = .eligible)
    (attempts : shouldAttempt peer.env peer.ha = true) : Attempts peer := by
  have campaigns : shouldAttempt peer.env (unheldState peer.ha) = true :=
    (unheld_same fun _ => rfl).trans attempts
  have trace : (unheldState peer.ha).trace = peer.ha.trace := unheld_same fun _ => rfl
  have runs : processUnhealthyCluster peer.env peer.ha =
      acquireLeader peer.env (unheldState peer.ha) := by
    rw [ready_runs awake current unheld standby eligible]
    change (if shouldAttempt peer.env (unheldState peer.ha) = true then _ else _ :
      HaProg CycleResult) peer.env (unheldState peer.ha) = _
    rw [campaigns]
    rfl
  have asked (after : Ha) (asks : Asks (unheldState peer.ha) after) : Asks peer.ha after := by
    obtain ⟨new, appended, mem⟩ := asks
    exact ⟨new, appended.trans (congrArg _ trace), mem⟩
  unfold Attempts Ends
  rw [runs]
  exact ends_mono acquireLeader_asks (fun _ => asked) asked

/-! ### Who may campaign then -/

section View

variable {name : Str}

@[simp]
theorem stoppedAs_name (member : Member) : (stoppedAs name member).name = member.name := by
  unfold stoppedAs
  split
  · rfl
  · rfl

@[simp]
theorem stoppedAs_lineage (member : Member) : (stoppedAs name member).lineage = member.lineage := by
  unfold stoppedAs
  split
  · rfl
  · rfl

theorem stoppedAs_other {member : Member} (other : member.name ≠ name) :
    stoppedAs name member = member := if_neg other

/-- Who runs is another node, with the record it had. -/
theorem running_other {members : List Member} {record : Member}
    (listed : record ∈ members.map (stoppedAs name)) (running : record.state = .running) :
    record ∈ members ∧ record.name ≠ name := by
  obtain ⟨member, before, rfl⟩ := List.mem_map.mp listed
  by_cases own : member.name = name
  · simp [stoppedAs, own] at running
  · rw [stoppedAs_other own]
    exact ⟨before, own⟩

theorem names_stoppedAs (members : List Member) :
    (members.map (stoppedAs name)).map Member.name = members.map Member.name := by
  rw [List.map_map]
  exact List.map_congr_left fun member _ => stoppedAs_name member

theorem find_stoppedAs (members : List Member) (wanted : Str) :
    (members.map (stoppedAs name)).find? (fun member => member.name == wanted) =
      (members.find? fun member => member.name == wanted).map (stoppedAs name) := by
  rw [List.find?_map]
  congr 2
  funext member
  exact congrArg (· == wanted) (stoppedAs_name member)

theorem aboveBase_stoppedAs (p : PendingPromote) (members : List Member) :
    (members.map (stoppedAs name)).filterMap (aboveBase p) = members.filterMap (aboveBase p) := by
  rw [List.filterMap_map]
  congr 1
  funext member
  simp [aboveBase]

/-- A stopped promoter voids its promote; no record of another node changes that. -/
theorem promoteIsVoid_stoppedAs (name : Str) (p : PendingPromote) (members : List Member) :
    promoteIsVoid p (members.map (stoppedAs name)) = promoteIsVoid p members ∨ p.node = name := by
  by_cases own : p.node = name
  · exact Or.inr own
  · left
    unfold promoteIsVoid
    rw [find_stoppedAs]
    cases found : members.find? fun member => member.name == p.node with
    | none => rfl
    | some member =>
        have matched := List.find?_some found
        have named : member.name = p.node := beq_iff_eq.mp matched
        have other : member.name ≠ name := by
          rw [named]
          exact own
        rw [Option.map_some, stoppedAs_other other]

theorem void_stays (p : PendingPromote) {members : List Member}
    (void : promoteIsVoid p members = true) :
    promoteIsVoid p (members.map (stoppedAs name)) = true := by
  unfold promoteIsVoid at void ⊢
  rw [find_stoppedAs]
  cases found : members.find? fun member => member.name == p.node with
  | none => simp [found] at void
  | some member =>
      simp only [found, Option.map_some, stoppedAs_lineage] at void ⊢
      cases published : member.lineage with
      | none => simp [published] at void
      | some lineage =>
          simp only [published, Bool.and_eq_true, Bool.or_eq_true] at void ⊢
          refine ⟨void.1, ?_⟩
          unfold stoppedAs
          split
          · exact Or.inl (Or.inl rfl)
          · exact void.2

theorem inferLatest_stoppedAs (members : List Member) (voters : Option Nat) :
    inferLatest (members.map (stoppedAs name)) voters = inferLatest members voters := by
  have histories : (members.map (stoppedAs name)).filterMap (fun member =>
      (historyOf member).map fun history => (member, history)) =
      (members.filterMap fun member => (historyOf member).map fun history => (member, history)).map
        fun found => (stoppedAs name found.1, found.2) := by
    rw [List.filterMap_map, List.map_filterMap]
    congr 1
    funext member
    simp [historyOf, Function.comp_def]
  unfold inferLatest
  rw [histories]
  simp only [List.length_map, List.head?_map, List.any_map, List.map_map, List.filter_map,
    Option.map_map, Function.comp_def, stoppedAs_lineage]

/-- The latest timeline stays, unless a promote of the leader was not resolved. -/
theorem latest_switchedOver (ha : Ha) (candidate : Option Str) :
    latestTimeline (switchedOver ha candidate) = latestTimeline ha.cluster ∨
      ∃ p, latestTimeline ha.cluster = .pendingUnresolved p ∧ p.node = ha.config.name := by
  unfold latestTimeline switchedOver
  cases ha.cluster.timeline with
  | absent => exact Or.inl (inferLatest_stoppedAs _ _)
  | legacy value version => exact Or.inl (inferLatest_stoppedAs _ _)
  | unreadable version => exact Or.inl (inferLatest_stoppedAs _ _)
  | record record version =>
      simp only [resolveLatest]
      cases record.pending with
      | none => exact Or.inl rfl
      | some p =>
          simp only [resolvePending, aboveBase_stoppedAs]
          cases agreeing none (ha.cluster.members.filterMap (aboveBase p)) with
          | error reason => exact Or.inl rfl
          | ok newest =>
              cases newest with
              | some id => exact Or.inl rfl
              | none =>
                  rcases promoteIsVoid_stoppedAs ha.config.name p ha.cluster.members with
                    same | own
                  · simp only [same]
                    exact Or.inl trivial
                  · cases void : promoteIsVoid p ha.cluster.members with
                    | true =>
                        simp only [void_stays p void]
                        exact Or.inl trivial
                    | false => exact Or.inr ⟨p, by simp, own⟩

/-- A peer that may campaign before the leader steps down may do so after. -/
theorem mayCampaign_switchedOver {candidate : Option Str} {member : Member}
    (other : member.name ≠ ha.config.name) (may : mayCampaign ha.cluster member = true) :
    mayCampaign (switchedOver ha candidate) member = true := by
  rw [mayCampaign_iff] at may ⊢
  obtain ⟨watched, eligible⟩ := may
  constructor
  · exact watched
  · rcases latest_switchedOver ha candidate with same | ⟨p, unresolved, own⟩
    · rw [same]
      exact eligible
    · rcases eligibility_grounds eligible
        with ⟨pending, waits, promoter⟩ | ⟨_, _, _, _, known, _⟩
      · rw [unresolved, Latest.pendingUnresolved.injEq] at waits
        rw [promoter, ← waits] at other
        exact absurd own other
      · rw [unresolved] at known
        cases known

end View

/-! ### A node and its record -/

/-- The node as `ElectionAgreement` judges it: the override file is not there. -/
def withoutOverride (ha : Ha) : Ha :=
  { ha with directory := { ha.directory with acceptTimelineLoss := false } }

section Peer

variable {peer : Peer} {view : ClusterView} {record : Member}

theorem publishes_withoutOverride (publishes : Publishes peer.node record) :
    Publishes ⟨withoutOverride peer.ha, peer.node.usable⟩ record :=
  ⟨publishes.name, publishes.nofailover, publishes.failoverPriority, publishes.watchdogFailed,
    publishes.running⟩

theorem reports_judges (reports : Reports peer record)
    (distinct : (view.members.map Member.name).Nodup) (listed : record ∈ view.members)
    (sees : peer.ha.cluster = view) :
    Judges ⟨withoutOverride peer.ha, peer.node.usable⟩ view peer.ha.lastConfig record := by
  have same : SameView peer.ha.cluster view := by
    rw [sees]
    exact ⟨List.Perm.refl _, rfl, rfl, rfl, rfl⟩
  exact ⟨distinct, listed, publishes_withoutOverride reports.publishes, same, rfl, rfl⟩

/-- A node whose record may campaign needs no override. -/
theorem reports_eligible (reports : Reports peer record)
    (distinct : (view.members.map Member.name).Nodup) (listed : record ∈ view.members)
    (sees : peer.ha.cluster = view) (may : mayCampaign view record = true) :
    ownEligibility peer.node.usable peer.ha = .eligible := by
  have own := ownMember (reports_judges reports distinct listed sees)
  change peer.ha.cluster.getMember peer.ha.config.name = some record at own
  obtain ⟨watched, eligible⟩ := mayCampaign_iff.mp may
  have usable : peer.node.usable = true := by
    have watchdog := reports.publishes.watchdogFailed
    rw [watched] at watchdog
    simpa using watchdog
  unfold ownEligibility memberEligibility
  rw [own, sees, usable]
  simp [watched, eligible]

/-- Who may campaign has data of the cluster's generation. -/
theorem reports_current (reports : Reports peer record) (sees : peer.ha.cluster = view)
    (may : mayCampaign view record = true) : staleGeneration peer.ha = none := by
  have name : record.name = peer.ha.config.name := reports.publishes.name
  unfold staleGeneration
  rw [sees]
  rcases eligibility_grounds (mayCampaign_iff.mp may).2 with
    ⟨pending, waits, promoter⟩ | ⟨id, generation, via, lineage, known, published, same⟩
  · simp [waits, ← promoter, name]
  · simp [known, reports.generation lineage published, same]

theorem healthiest_withoutOverride {usable : Bool} (eligible : ownEligibility usable ha = .eligible)
    (again : ownEligibility usable (withoutOverride ha) = .eligible) :
    isHealthiestNode usable ha = isHealthiestNode usable (withoutOverride ha) := by
  unfold isHealthiestNode
  rw [eligible, again]
  rfl

theorem reports_attempts (reports : Reports peer record)
    (distinct : (view.members.map Member.name).Nodup) (listed : record ∈ view.members)
    (sees : peer.ha.cluster = view) (awake : peer.ha.isPaused = false)
    (may : mayCampaign view record = true) (attempts : shouldAttempt peer.env peer.ha = true) :
    Attempts peer :=
  ready_attempts awake (reports_current reports sees may) reports.unheld reports.standby
    (reports_eligible reports distinct listed sees may) attempts

/-- A node attempts where no candidate is honoured, its record stands and no record that
stands beats it. -/
theorem winner_attempts (reports : Reports peer record)
    (distinct : (view.members.map Member.name).Nodup) (listed : record ∈ view.members)
    (sees : peer.ha.cluster = view) (awake : peer.ha.isPaused = false)
    (unhonoured : honoured view = none) (standing : stands view peer.ha.lastConfig record = true)
    (unbeaten : ∀ member ∈ view.members, stands view peer.ha.lastConfig member = true →
      beats member record = false) : Attempts peer := by
  have judges := reports_judges reports distinct listed sees
  have gates : passes view peer.ha.lastConfig record = true := by
    unfold stands at standing
    exact (Bool.and_eq_true _ _ |>.mp standing).1
  have may : mayCampaign view record = true := by
    simp only [passes, Bool.and_eq_true] at gates
    exact gates.2
  have eligible := reports_eligible reports distinct listed sees may
  have again : ownEligibility peer.node.usable (withoutOverride peer.ha) = .eligible := by
    have other : Reports ⟨peer.env, withoutOverride peer.ha⟩ record :=
      ⟨publishes_withoutOverride reports.publishes, reports.standby, reports.unheld,
        reports.generation⟩
    exact reports_eligible other distinct listed sees may
  have healthiest : isHealthiestNode peer.node.usable peer.ha = true := by
    rw [healthiest_withoutOverride eligible again]
    exact (healthiest_record judges).mpr ⟨standing, unbeaten⟩
  have honours : honouredCandidate peer.ha = none := (honoured_record judges may).trans unhonoured
  have excludes : excludedSwitchoverLeader peer.ha = excluded view := excluded_record judges may
  have kept : excluded view ≠ some peer.ha.config.name := by
    have name : record.name = peer.ha.config.name := reports.publishes.name
    simp only [passes, Bool.and_eq_true, bne_iff_ne, name] at gates
    exact gates.1.1.1.1.1
  apply reports_attempts reports distinct listed sees awake may
  unfold shouldAttempt
  rw [honours, excludes]
  simp only [Bool.and_eq_true, bne_iff_ne]
  exact ⟨kept, healthiest⟩

end Peer

/-! ### The checks and the election -/

/-- Passes the gates, and is measured where there is a lag ceiling. -/
def Electable (view : ClusterView) (config : GlobalConfig) (member : Member) : Prop :=
  passes view config member = true ∧
    (config.maximumLagOnFailover.isSome = true → member.walPosition.isSome = true)

/-- The record of the candidate shows that it may campaign (D6). -/
def mayTakeOver (view : ClusterView) (named : Str) : Bool :=
  (view.getMember named).any (mayCampaign view)

section Switchover

variable {leader candidate scheduledAt : Option Str} {peers : List Peer} {named : Str}

/-- What an accepted candidate was checked for. -/
structure Checked (ha : Ha) (named : Str) (member : Member) : Prop where
  found : ha.cluster.getMember named = some member
  failsOver : member.isNofailover = false
  running : member.state = .running
  synced : syncFailoverAllowed named (syncMode ha) ha.cluster.syncState = true

theorem checked_of_accepted
    (accepted : refuseSwitchover ha leader (some named) scheduledAt = none) :
    ∃ member, Checked ha named member := by
  unfold refuseSwitchover at accepted
  simp only [Option.bind_some] at accepted
  cases isLeader : ha.isLeader with
  | false => simp [isLeader] at accepted
  | true =>
      simp only [isLeader, Bool.not_true, Bool.false_eq_true, if_false] at accepted
      split at accepted
      · cases accepted
      · cases checks : rejectIfIneligibleCandidate ha named with
        | some reason => simp [checks] at accepted
        | none =>
            unfold rejectIfIneligibleCandidate at checks
            cases found : ha.cluster.getMember named with
            | none => simp [found] at checks
            | some member =>
                simp only [found] at checks
                split at checks
                · cases checks
                · rename_i failsOver
                  split at checks
                  · cases checks
                  · rename_i running
                    split at checks
                    · cases checks
                    · split at checks
                      · cases checks
                      · split at checks
                        · rename_i synced
                          exact ⟨member, found, by simpa using failsOver, by simpa using running,
                            synced⟩
                        · cases checks

theorem successor_of_accepted (accepted : refuseSwitchover ha leader none scheduledAt = none) :
    hasSwitchoverSuccessor ha = true := by
  unfold refuseSwitchover at accepted
  split at accepted
  · cases accepted
  · split at accepted
    · cases accepted
    · simp only [Option.bind_none, Option.isNone_none, Bool.true_and] at accepted
      split at accepted
      · cases accepted
      · split at accepted
        · cases accepted
        · rename_i successor
          simpa using successor

theorem distinct_after (aftermath : Aftermath ha candidate peers) :
    ((switchedOver ha candidate).members.map Member.name).Nodup := by
  change ((ha.cluster.members.map (stoppedAs ha.config.name)).map Member.name).Nodup
  rw [names_stoppedAs]
  exact aftermath.distinct

/-- Where no candidate is honoured the gates elect some other node. -/
theorem elected_attempts (aftermath : Aftermath ha candidate peers)
    (awake : ∀ peer ∈ peers, peer.ha.isPaused = false)
    (unhonoured : honoured (switchedOver ha candidate) = none) {gated : Member}
    (listed : gated ∈ (switchedOver ha candidate).members)
    (gates : passes (switchedOver ha candidate) ha.lastConfig gated = true)
    (measured : ha.lastConfig.maximumLagOnFailover = none ∨
      ∃ member ∈ (switchedOver ha candidate).members,
        Electable (switchedOver ha candidate) ha.lastConfig member) :
    ∃ record ∈ (switchedOver ha candidate).members,
      passes (switchedOver ha candidate) ha.lastConfig record = true ∧
        ∃ peer ∈ peers, Reports peer record ∧ record.name ≠ ha.config.name ∧
          Attempts peer := by
  have known : ha.lastConfig.maximumLagOnFailover = none ∨
      ∃ member ∈ (switchedOver ha candidate).members,
        passes (switchedOver ha candidate) ha.lastConfig member = true ∧
          member.walPosition.isSome = true := by
    cases ceiling : ha.lastConfig.maximumLagOnFailover with
    | none => exact Or.inl rfl
    | some limit =>
        obtain ⟨member, among, passing, published⟩ := measured.resolve_left (by simp [ceiling])
        exact Or.inr ⟨member, among, passing, published (by simp [ceiling])⟩
  obtain ⟨standing, standingListed, stands⟩ := someone_stands listed gates known
  have some := List.ne_nil_of_mem (List.mem_filter.mpr ⟨standingListed, stands⟩)
  obtain ⟨winner, filtered, unbeaten⟩ := exists_unbeaten some
  obtain ⟨winnerListed, winnerStands⟩ := List.mem_filter.mp filtered
  have passing : passes (switchedOver ha candidate) ha.lastConfig winner = true := by
    unfold ElectionAgreement.stands at winnerStands
    exact (Bool.and_eq_true _ _ |>.mp winnerStands).1
  have running : winner.state = .running := by
    simp only [passes, Bool.and_eq_true, beq_iff_eq] at passing
    exact passing.1.1.2
  obtain ⟨before, other⟩ := running_other winnerListed running
  obtain ⟨peer, among, reports⟩ := aftermath.reported winner before other running
  refine ⟨winner, winnerListed, passing, peer, among, reports, other, ?_⟩
  have config := aftermath.config peer among
  refine winner_attempts reports (distinct_after aftermath) winnerListed (aftermath.view peer among)
    (awake peer among) unhonoured (config ▸ winnerStands) fun member memberListed memberStands =>
      ?_
  exact unbeaten member (List.mem_filter.mpr ⟨memberListed, config ▸ memberStands⟩)

/-- The candidate is another node, so its record is the one that was checked. -/
theorem getMember_after {member : Member} (found : ha.cluster.getMember named = some member)
    (other : named ≠ ha.config.name) :
    (switchedOver ha candidate).getMember named = some member := by
  have matched := List.find?_some found
  have name : member.name = named := beq_iff_eq.mp matched
  change (ha.cluster.members.map (stoppedAs ha.config.name)).find? _ = _
  rw [find_stoppedAs]
  change (ha.cluster.getMember named).map _ = _
  rw [found, Option.map_some, stoppedAs_other (by rw [name]; exact other)]

/-- A named candidate that may campaign attempts. -/
theorem candidate_attempts (aftermath : Aftermath ha (some named) peers)
    (awake : ∀ peer ∈ peers, peer.ha.isPaused = false) {member : Member}
    (checked : Checked ha named member) (other : named ≠ ha.config.name)
    (takesOver : mayTakeOver (switchedOver ha (some named)) named = true) :
    HasSuccessor ha (some named) peers := by
  have after : (switchedOver ha (some named)).getMember named = some member :=
    getMember_after checked.found other
  have may : mayCampaign (switchedOver ha (some named)) member = true := by
    simpa [mayTakeOver, after] using takesOver
  have matched := List.find?_some checked.found
  have name : member.name = named := beq_iff_eq.mp matched
  obtain ⟨peer, among, reports⟩ := aftermath.reported member
    (List.mem_of_find?_eq_some checked.found) (by rw [name]; exact other) checked.running
  have own : peer.ha.config.name = named := reports.publishes.name.symm.trans name
  have view := aftermath.view peer among
  have honours : honouredCandidate peer.ha = some named := by
    unfold honouredCandidate
    rw [view]
    change (if ((switchedOver ha (some named)).getMember named).any _ = true then none else _) = _
    simp [after, checked.failsOver, checked.running, own, honourDesignatedCandidate]
  have attempts : shouldAttempt peer.env peer.ha = true := by
    unfold shouldAttempt syncMode
    rw [honours, aftermath.config peer among, view, own]
    simp only [beq_self_eq_true, Bool.true_and]
    exact checked.synced
  refine ⟨peer, among, own ▸ other, fun wanted same => ?_, ?_⟩
  · rw [own]
    exact Option.some.inj same
  · exact reports_attempts reports (distinct_after aftermath)
      (List.mem_of_find?_eq_some after) view
      (awake peer among) may attempts

theorem excluded_after (candidate : Option Str) (other : named ≠ ha.config.name) :
    excluded (switchedOver ha candidate) ≠ some named := by
  unfold excluded
  split
  · simp
  · change (Option.filter _ (some ha.config.name)) ≠ _
    intro same
    exact other (Option.some.inj ((Option.filter_eq_some_iff.mp same).1)).symm

/-- With no candidate named the gates of the check are those of the election. -/
theorem unnamed_elects (accepted : refuseSwitchover ha leader none scheduledAt = none)
    (aftermath : Aftermath ha none peers) (awake : ∀ peer ∈ peers, peer.ha.isPaused = false)
    (measured : ha.lastConfig.maximumLagOnFailover = none ∨
      ∃ member ∈ (switchedOver ha none).members,
        Electable (switchedOver ha none) ha.lastConfig member) : HasSuccessor ha none peers := by
  have successor := successor_of_accepted accepted
  unfold hasSwitchoverSuccessor at successor
  obtain ⟨member, listed, gates⟩ := List.any_eq_true.mp successor
  simp only [peerPassesGates, Bool.and_eq_true, bne_iff_ne] at gates
  obtain ⟨⟨admitted, synced⟩, may⟩ := gates
  obtain ⟨⟨⟨⟨other, _⟩, failsOver⟩, priority⟩, running⟩ := admitted
  have among : member ∈ (switchedOver ha none).members := by
    rw [← stoppedAs_other other]
    exact List.mem_map_of_mem listed
  have passing : passes (switchedOver ha none) ha.lastConfig member = true := by
    simp only [passes, Bool.and_eq_true, bne_iff_ne]
    have unexcluded := excluded_after none other
    exact ⟨⟨⟨⟨⟨unexcluded, failsOver⟩, priority⟩, running⟩, synced⟩,
      mayCampaign_switchedOver other may⟩
  obtain ⟨record, _, _, peer, chosen, reports, others, attempts⟩ :=
    elected_attempts aftermath awake rfl among passing measured
  have name : record.name = peer.ha.config.name := reports.publishes.name
  refine ⟨peer, chosen, name ▸ others, ?_, attempts⟩
  intro named no
  cases no

/-- A candidate that may not campaign is passed over. -/
theorem passedOver_elects (aftermath : Aftermath ha (some named) peers)
    (awake : ∀ peer ∈ peers, peer.ha.isPaused = false) {member : Member}
    (checked : Checked ha named member) (other : named ≠ ha.config.name)
    (standsAside : mayTakeOver (switchedOver ha (some named)) named = false)
    (someone : ∃ member ∈ (switchedOver ha (some named)).members,
      Electable (switchedOver ha (some named)) ha.lastConfig member) :
    ∃ peer ∈ peers, peer.ha.config.name ≠ ha.config.name ∧ peer.ha.config.name ≠ named ∧
      Attempts peer := by
  have after : (switchedOver ha (some named)).getMember named = some member :=
    getMember_after checked.found other
  have may : mayCampaign (switchedOver ha (some named)) member = false := by
    simpa [mayTakeOver, after] using standsAside
  have unhonoured : honoured (switchedOver ha (some named)) = none := by
    unfold honoured
    change (if ((switchedOver ha (some named)).getMember named).any _ = true then none else _) = _
    simp [after, may]
  obtain ⟨gated, listed, electable⟩ := someone
  obtain ⟨record, recorded, passing, peer, chosen, reports, others, attempts⟩ :=
    elected_attempts aftermath awake unhonoured listed electable.1
      (Or.inr ⟨gated, listed, electable⟩)
  have name : record.name = peer.ha.config.name := reports.publishes.name
  refine ⟨peer, chosen, name ▸ others, ?_, attempts⟩
  intro same
  have own := getMember_self (distinct_after aftermath) recorded
  rw [name, same, after, Option.some.injEq] at own
  simp only [passes, Bool.and_eq_true, ← own, may] at passing
  exact absurd passing.2 (by simp)

end Switchover

/-- An accepted switchover in a cluster that is not paused. With no candidate named some
other node attempts to acquire the lock, where a lag ceiling measures one that passes the
gates. A named candidate attempts if it may campaign, and is passed over if it may not. -/
theorem accepted_switchover_succession (ha : Ha) (leader candidate scheduledAt : Option Str)
    (peers : List Peer) (accepted : refuseSwitchover ha leader candidate scheduledAt = none)
    (aftermath : Aftermath ha candidate peers)
    (awake : ∀ peer ∈ peers, peer.ha.isPaused = false) :
    (candidate = none →
      (ha.lastConfig.maximumLagOnFailover = none ∨
        ∃ member ∈ (switchedOver ha candidate).members,
          Electable (switchedOver ha candidate) ha.lastConfig member) →
      HasSuccessor ha candidate peers) ∧
    ∀ named, candidate = some named → named ≠ ha.config.name →
      (mayTakeOver (switchedOver ha candidate) named = true → HasSuccessor ha candidate peers) ∧
      (mayTakeOver (switchedOver ha candidate) named = false →
        (∃ member ∈ (switchedOver ha candidate).members,
          Electable (switchedOver ha candidate) ha.lastConfig member) →
        ∃ peer ∈ peers, peer.ha.config.name ≠ ha.config.name ∧
          peer.ha.config.name ≠ named ∧
          Attempts peer) := by
  constructor
  · rintro rfl measured
    exact unnamed_elects accepted aftermath awake measured
  · rintro named rfl other
    obtain ⟨member, checked⟩ := checked_of_accepted accepted
    constructor
    · exact candidate_attempts aftermath awake checked other
    · exact passedOver_elects aftermath awake checked other

/-! ### Three nodes -/

/-- A running standby at this position, which publishes this timeline. -/
def standbyRecord (name : Str) (wal : Option Nat) (timeline : Nat) : Member :=
  { replicaRecord name 0 100 with
    walPosition := wal
    timeline := some timeline
    lineage := some ⟨some 100, none, none, 0⟩ }

/-- The leader `a` of two standbys. -/
def leaderOf (standbys : List Member) (config : GlobalConfig) : Ha :=
  let members := { replicaRecord ['a'] 700 100 with role := .primary } :: standbys
  { (replicaNode ['a'] (viewOf members timelineTwo)).ha with
    cluster := { viewOf members timelineTwo with leader := some ['a'] }
    isLeader := true
    lastConfig := config
    role := .primary
    inRecovery := some false
    server := .primary
    standbySignal := false }

def peerOf (ha : Ha) (candidate : Option Str) (paused : Bool) (name : Str) : Peer where
  env := PrimaryFenced.quick name PrimaryFenced.steadyWall
  ha :=
    { (replicaNode name (switchedOver ha candidate)).ha with
      lastConfig := ha.lastConfig
      isPaused := paused }

def peersOf (ha : Ha) (candidate : Option Str) (paused : Bool) : List Peer :=
  [peerOf ha candidate paused ['b'], peerOf ha candidate paused ['c']]

theorem peersOf_aftermath (wal wal' : Option Nat) (timeline timeline' : Nat) (config : GlobalConfig)
    (candidate : Option Str) (paused : Bool) :
    Aftermath (leaderOf [standbyRecord ['b'] wal timeline, standbyRecord ['c'] wal' timeline']
      config)
      candidate
      (peersOf (leaderOf [standbyRecord ['b'] wal timeline, standbyRecord ['c'] wal' timeline']
        config)
        candidate paused) := by
  have reports (ha : Ha) (name : Str) (wal : Option Nat) (timeline : Nat) :
      Reports (peerOf ha candidate paused name) (standbyRecord name wal timeline) := by
    refine ⟨⟨rfl, rfl, rfl, rfl, rfl⟩, rfl, rfl, ?_⟩
    rintro lineage published
    cases published
    rfl
  constructor
  · change [['a'], ['b'], ['c']].Nodup
    decide
  · intro member listed other _
    rcases List.mem_cons.mp listed with rfl | later
    · exact absurd rfl other
    · rcases List.mem_cons.mp later with rfl | last
      · exact ⟨_, List.mem_cons_self, reports _ _ wal timeline⟩
      · rw [List.mem_singleton.mp last]
        exact ⟨_, List.mem_cons_of_mem _ List.mem_cons_self, reports _ _ wal' timeline'⟩
  · intro peer listed
    rcases List.mem_cons.mp listed with rfl | later
    · rfl
    · rw [List.mem_singleton.mp later]
      rfl
  · intro peer listed
    rcases List.mem_cons.mp listed with rfl | later
    · rfl
    · rw [List.mem_singleton.mp later]
      rfl

def lagCeiling : GlobalConfig := { noDynamicConfig with maximumLagOnFailover := some 0 }

def twoCurrent : Ha :=
  leaderOf [standbyRecord ['b'] (some 500) 2, standbyRecord ['c'] (some 600) 2] lagCeiling

def oneBehind : Ha :=
  leaderOf [standbyRecord ['b'] (some 500) 1, standbyRecord ['c'] (some 600) 2] lagCeiling

def unmeasured : Ha := leaderOf [standbyRecord ['b'] none 2, standbyRecord ['c'] none 2] lagCeiling

theorem peersOf_awake (ha : Ha) (candidate : Option Str) :
    ∀ peer ∈ peersOf ha candidate false, peer.ha.isPaused = false := by
  simp [peersOf, peerOf]

/-- Two standbys that are current: one of them attempts, or the candidate does. Where the
candidate is behind, the other one does. -/
theorem accepted_switchover_succession_ofTwo :
    HasSuccessor twoCurrent none (peersOf twoCurrent none false) ∧
    HasSuccessor twoCurrent (some ['b']) (peersOf twoCurrent (some ['b']) false) ∧
    ∃ peer ∈ peersOf oneBehind (some ['b']) false,
      peer.ha.config.name ≠ oneBehind.config.name ∧
      peer.ha.config.name ≠ ['b'] ∧ Attempts peer := by
  refine ⟨?_, ?_, ?_⟩
  · refine (accepted_switchover_succession twoCurrent none none none _ rfl
      (peersOf_aftermath _ _ _ _ _ _ _) (peersOf_awake _ _)).1 rfl (Or.inr ?_)
    exact ⟨standbyRecord ['c'] (some 600) 2, by decide, by decide, fun _ => rfl⟩
  · exact ((accepted_switchover_succession twoCurrent none (some ['b']) none _ (by decide)
      (peersOf_aftermath _ _ _ _ _ _ _) (peersOf_awake _ _)).2 ['b'] rfl (by decide)).1 (by decide)
  · refine ((accepted_switchover_succession oneBehind none (some ['b']) none _ (by decide)
      (peersOf_aftermath _ _ _ _ _ _ _) (peersOf_awake _ _)).2 ['b'] rfl (by decide)).2
        (by decide) ?_
    exact ⟨standbyRecord ['c'] (some 600) 2, by decide, by decide, fun _ => rfl⟩

/-- A run that comes to its end without asking for the lock. -/
theorem stays_back {peer : Peer} (back : yields processUnhealthyCluster peer.env peer.ha
    (fun _ after => decide (Event.acquiring ∉ after.trace)) = true) : ¬ Attempts peer := by
  obtain ⟨result, after, ran, unasked⟩ := yields_done back
  intro attempts
  obtain ⟨new, trace, asked⟩ := ends_done attempts ran
  simp only [trace, List.mem_append, not_or, decide_eq_true_eq] at unasked
  exact unasked.1 asked

/-- The switchover is accepted, and nobody takes over as it asked. -/
def Unsucceeded (ha : Ha) (candidate : Option Str) (paused : Bool) : Prop :=
  refuseSwitchover ha none candidate none = none ∧
    Aftermath ha candidate (peersOf ha candidate paused) ∧
    ¬ HasSuccessor ha candidate (peersOf ha candidate paused)

/-- The candidate is behind; the candidate is the leader itself; no standby has published a
position under a lag ceiling; the cluster is paused. -/
theorem accepted_without_successor :
    Unsucceeded oneBehind (some ['b']) false ∧ Unsucceeded twoCurrent (some ['a']) false ∧
      Unsucceeded unmeasured none false ∧ Unsucceeded twoCurrent (some ['b']) true := by
  refine ⟨⟨by decide, peersOf_aftermath _ _ _ _ _ _ _, ?_⟩,
    ⟨by decide, peersOf_aftermath _ _ _ _ _ _ _, ?_⟩,
    ⟨by decide, peersOf_aftermath _ _ _ _ _ _ _, ?_⟩,
    ⟨by decide, peersOf_aftermath _ _ _ _ _ _ _, ?_⟩⟩
  · rintro ⟨peer, listed, _, named, attempts⟩
    rcases List.mem_cons.mp listed with rfl | later
    · exact stays_back rfl attempts
    · rw [List.mem_singleton.mp later] at named
      exact absurd (named ['b'] rfl) (by decide)
  · rintro ⟨peer, _, other, named, _⟩
    exact other (named ['a'] rfl)
  · rintro ⟨peer, listed, _, _, attempts⟩
    rcases List.mem_cons.mp listed with rfl | later
    · exact stays_back rfl attempts
    · rw [List.mem_singleton.mp later] at attempts
      exact stays_back rfl attempts
  · rintro ⟨peer, listed, _, named, attempts⟩
    rcases List.mem_cons.mp listed with rfl | later
    · exact stays_back rfl attempts
    · rw [List.mem_singleton.mp later] at attempts
      exact stays_back rfl attempts

end PgHa.SwitchoverSuccessor
