import PgHa.BoundedWrite

/-!
The plain Sets of `/sync`, `/config` and `/failover`. Nothing in the request
ties it to the value its writer saw, so a write that its caller gave up on
replaces whatever the key holds when it is finally applied. The writes of a key
stay in order as long as each is issued only after the one before it is settled.
`readNames` is the JSON reader of a `/sync` value.
-/

namespace PgHa.SharedKeys

open StateMachine RaftDcs LeaderLock BoundedWrite Transition

variable {base : String} (readNames : String → List String)

def Sets (key : String) (entry : Applied (leaderPath base)) : Prop :=
  match entry.op.request with
  | .set target _ _ _ _ _ _ => target = key
  | .delete _ _ _ | .expireKeys _ => False

-- The newest write of `key` in the log is the one of ticket `id`.
def WrittenBy (world : World base) (key : String) (id : Nat) : Prop :=
  ∃ newer entry older, world.log = newer ++ (some id, entry) :: older ∧ Sets key entry ∧
    ∀ item ∈ newer, ¬ Sets key item.2

/-- The commit of `id` would replace a value that was acknowledged to its
writer after `id` was issued. -/
def StaleOverwrite (world : World base) (id : Nat) : Prop :=
  ∃ ticket stored writer current count, world.tickets id = some ticket ∧
    ticket.op.isLock = false ∧ world.sm.data (ticket.op.key base) = some stored ∧
    WrittenBy world (ticket.op.key base) writer ∧ world.tickets writer = some current ∧
    current.caller = .answered count ∧ id < count

/-- The commit of `id`, a `/sync` write that timed out, would name a standby
again that left the PostgreSQL list after `id` was issued. -/
def StaleReAdd (world : World base) (id : Nat) : Prop :=
  ∃ ticket value name count, world.tickets id = some ticket ∧ ticket.op = .setSync value ∧
    ticket.caller = .abandoned ∧ name ∈ readNames value ∧ (name, count) ∈ world.dropped ∧
    id < count ∧
    ∀ stored, world.sm.data (syncPath base) = some stored → name ∉ readNames stored.value

def NoStaleWrite (world : World base) : Prop :=
  ∀ id stamp after, step world (.commit id stamp) = some after →
    ¬ StaleOverwrite world id ∧ ¬ StaleReAdd readNames world id

def plainValue : ClientOp → Option String
  | .setSync value | .setConfig value | .setFailover value _ => some value
  | .acquire _ | .renew _ | .release => none

-- What a shared key holds is what the ticket of its newest write carried.
def Backed (world : World base) : Prop :=
  ∀ key ∈ (sharedKeys base).tail, ∀ stored, world.sm.data key = some stored →
    ∃ id ticket, WrittenBy world key id ∧ world.tickets id = some ticket ∧
      plainValue ticket.op = some stored.value

theorem sets_touches {key : String} {entry : Applied (leaderPath base)}
    (sets : Sets key entry) : Touches key entry.op.request := by
  unfold Sets at sets
  split at sets
  · rename_i request
    rw [request]
    exact sets
  · exact sets.elim
  · exact sets.elim

theorem written_cons {world : World base} {key : String} {id : Nat}
    (written : WrittenBy world key id) (item : Option Nat × Applied (leaderPath base))
    (apart : ¬ Sets key item.2) (after : World base) (grown : after.log = item :: world.log) :
    WrittenBy after key id := by
  obtain ⟨newer, entry, older, split, sets, none⟩ := written
  refine ⟨item :: newer, entry, older, by simp [grown, split], sets, ?_⟩
  intro other member
  rcases List.mem_cons.mp member with same | tail
  · subst other
    exact apart
  · exact none other tail

-- An appended entry that does not set the key, and adds nothing to it.
theorem backed_append {world : World base} (backed : Backed world) (op : LogOp (leaderPath base))
    (quiet : ∀ key ∈ (sharedKeys base).tail,
      (∀ index reply, ¬ Sets key ⟨index, op, reply⟩) ∧
      ∀ index stored, (apply 0 world.sm op.request index).1.data key = some stored →
        world.sm.data key = some stored) :
    Backed (world.append none op).1 := by
  intro key shared stored present
  obtain ⟨apart, same⟩ := quiet key shared
  obtain ⟨id, ticket, written, found, value⟩ := backed key shared stored (same _ stored present)
  exact ⟨id, ticket, written_cons written _ (apart _ _) _ rfl, found, value⟩

theorem plain_written (sm : KvStateMachine) (key value : String) (ttl : Option Nat)
    (now index : Nat) :
    ∃ stored, (apply 0 sm (plainSetRequest key value ttl now) index).1.data =
      insert sm.data key stored ∧ stored.value = value := by
  simp only [apply, plainSetRequest, applySet, existPasses, valuePasses, versionPasses,
    Bool.and_self, if_true]
  exact ⟨_, rfl, rfl⟩

theorem logOp_apart (op : ClientOp) (key node : String) (stamp : Nat)
    (apart : op.key base ≠ key) : ¬ Touches key (op.logOp base node stamp).request := by
  cases op <;>
    simp_all [Touches, ClientOp.logOp, LogOp.request, ClientOp.key, acquireRequest, renewRequest,
      releaseRequest, setSyncRequest, setConfigRequest, setFailoverRequest, plainSetRequest]

theorem shared_not_leader {key : String} (shared : key ∈ (sharedKeys base).tail) :
    leaderPath base ≠ key := by
  rintro rfl
  simp [sharedKeys, leaderPath, syncPath, configPath, failoverPath] at shared

-- The ticket of a shared key writes its value there, whatever stood there.
theorem logOp_written (op : ClientOp) (node : String) (stamp index : Nat) (sm : KvStateMachine)
    (plain : op.isLock = false) :
    (∀ reply, Sets (op.key base) ⟨index, op.logOp base node stamp, reply⟩) ∧
    ∃ stored, (apply 0 sm (op.logOp base node stamp).request index).1.data =
      insert sm.data (op.key base) stored ∧ plainValue op = some stored.value := by
  cases op with
  | acquire ttl => simp [ClientOp.isLock] at plain
  | renew ttl => simp [ClientOp.isLock] at plain
  | release => simp [ClientOp.isLock] at plain
  | setSync value =>
      obtain ⟨stored, written, same⟩ := plain_written sm (syncPath base) value none stamp index
      exact ⟨fun _ => rfl, stored, written, by rw [same]; rfl⟩
  | setConfig value =>
      obtain ⟨stored, written, same⟩ :=
        plain_written sm (configPath base) value none stamp index
      exact ⟨fun _ => rfl, stored, written, by rw [same]; rfl⟩
  | setFailover value lockTtl =>
      obtain ⟨stored, written, same⟩ := plain_written sm (failoverPath base) value
        (if value = "" then none else some lockTtl) stamp index
      exact ⟨fun _ => rfl, stored, written, by rw [same]; rfl⟩

theorem backed_commit {world : World base} (backed : Backed world) (formed : WellFormed world)
    {id stamp : Nat} {ticket : Ticket} (found : world.tickets id = some ticket)
    (unapplied : ticket.reply = none) :
    Backed ((world.append (some id) (ticket.op.logOp base ticket.node stamp)).1.update id
      (ticket.applied (world.append (some id) (ticket.op.logOp base ticket.node stamp)).2)) := by
  intro key shared stored present
  by_cases target : ticket.op.key base = key
  · have plain : ticket.op.isLock = false := by
      cases lock : ticket.op.isLock with
      | false => rfl
      | true =>
          have isLeader : ticket.op.key base = leaderPath base := by
            cases op : ticket.op <;> simp_all [ClientOp.isLock, ClientOp.key]
          exact absurd (isLeader.symm.trans target) (shared_not_leader shared)
    obtain ⟨sets, written, data, value⟩ : (∀ reply, Sets (ticket.op.key base) _) ∧ _ :=
      logOp_written ticket.op ticket.node stamp (world.log.length + 1) world.sm plain
    have same : written = stored := by
      have here := present
      simp only [World.update, World.append, data, ← target, insert_same,
        Option.some.injEq] at here
      exact here
    subst written
    refine ⟨id, _, ⟨[], _, world.log, rfl, ?_, by simp⟩, if_pos rfl, value⟩
    rw [← target]
    exact sets _
  · have apart := logOp_apart ticket.op key ticket.node stamp target
    have old : world.sm.data key = some stored := by
      rw [← untouched_data 0 world.sm _ (world.log.length + 1) apart]
      exact present
    obtain ⟨writer, current, written, isWriter, value⟩ := backed key shared stored old
    refine ⟨writer, current, written_cons written _ (fun sets => apart (sets_touches sets)) _ rfl,
      ?_, value⟩
    have other : writer ≠ id := by
      rintro rfl
      obtain ⟨newer, entry, older, split, _⟩ := written
      obtain ⟨same, _, holds, answer, _⟩ := formed.logged writer entry (by simp [split])
      rw [found, Option.some.injEq] at holds
      simp [← holds, unapplied] at answer
    simpa [World.update, World.append, other] using isWriter

theorem backed_update {world : World base} (backed : Backed world) {id : Nat}
    {ticket changed : Ticket} (found : world.tickets id = some ticket)
    (op : changed.op = ticket.op) : Backed (world.update id changed) := by
  intro key shared stored present
  obtain ⟨writer, current, written, isWriter, value⟩ := backed key shared stored present
  by_cases same : writer = id
  · subst writer
    rw [found, Option.some.injEq] at isWriter
    subst current
    exact ⟨id, changed, written, if_pos rfl, by rw [op, value]⟩
  · exact ⟨writer, current, written, by simpa [World.update, same] using isWriter, value⟩

theorem backed_step {world after : World base} {act : Act} (backed : Backed world)
    (formed : WellFormed world) (stepped : Stepped world act after) : Backed after := by
  cases stepped with
  | issue node op idle =>
      intro key shared stored present
      obtain ⟨writer, current, written, isWriter, value⟩ := backed key shared stored present
      have older : writer ≠ world.issued := Nat.ne_of_lt (formed.fresh writer current isWriter)
      exact ⟨writer, current, written, by simpa [World.update, older] using isWriter, value⟩
  | commit id stamp ticket found unapplied kept nonzero =>
      exact backed_commit backed formed found unapplied
  | lose id ticket found unapplied => exact backed_update backed found rfl
  | answer id ticket found applied waiting => exact backed_update backed found rfl
  | timeOut id ticket found waiting => exact backed_update backed found rfl
  | expire now nonzero =>
      refine backed_append backed _ ?_
      intro key shared
      constructor
      · exact fun _ _ sets => sets
      · intro index stored present
        exact ((filter_live_some now _ stored).mp present).1
  | other request apart =>
      refine backed_append backed _ ?_
      intro key shared
      have quiet := apart key (List.mem_of_mem_tail shared)
      constructor
      · exact fun _ _ sets => quiet (sets_touches sets)
      · intro index stored present
        rw [← untouched_data 0 world.sm request index quiet]
        exact present
  | dropStandby name => exact backed

/-- In every run, whatever the order of late and live writes, a shared key
holds the value of its newest write. -/
theorem held_value_written (world : World base)
    (path : Reaches step anyAct (World.init base) world) : Backed world := by
  have both : WellFormed world ∧ Backed world :=
    reaches_invariant (fun w => WellFormed w ∧ Backed w)
      ⟨wellFormed_init,
        fun _ _ _ present => by simp [World.init, KvStateMachine.new] at present⟩
      (fun _ _ _ inv _ stepped =>
        ⟨wellFormed_step inv.1 (step_stepped stepped),
          backed_step inv.2 inv.1 (step_stepped stepped)⟩) path
  exact both.2

-- Applied or lost, and no caller waits for it.
def settled (ticket : Ticket) : Bool :=
  (ticket.lost || ticket.reply.isSome) && ticket.caller != .waiting

def allSettled (world : World base) (key : String) : Bool :=
  (List.range world.issued).all fun id =>
    match world.tickets id with
    | some ticket => ticket.op.key base != key || settled ticket
    | none => true

/-- A write of a shared key is issued, and a standby leaves the PostgreSQL
list, only when every earlier write of the key (of `/sync`) is settled. -/
def Meets (world : World base) : Act → Prop
  | .issue _ op => op.isLock = true ∨ allSettled world (op.key base) = true
  | .dropStandby _ => allSettled world (syncPath base) = true
  | _ => True

instance (world : World base) (act : Act) : Decidable (Meets world act) :=
  match act with
  | .issue _ _ => inferInstanceAs (Decidable (_ ∨ _))
  | .dropStandby _ => inferInstanceAs (Decidable (_ = _))
  | .commit _ _ => .isTrue trivial
  | .lose _ => .isTrue trivial
  | .answer _ => .isTrue trivial
  | .timeOut _ => .isTrue trivial
  | .expire _ => .isTrue trivial
  | .other _ => .isTrue trivial

structure Orderly (world : World base) : Prop where
  counted : ∀ id ticket count, world.tickets id = some ticket →
    ticket.caller = .answered count → count ≤ world.issued
  before : ∀ earlier later first second, earlier < later →
    world.tickets earlier = some first → world.tickets later = some second →
    first.op.isLock = false → first.op.key base = second.op.key base →
    settled first = true ∧ ∀ count, first.caller = .answered count → count ≤ later
  drops : ∀ name count id ticket, (name, count) ∈ world.dropped → id < count →
    world.tickets id = some ticket → ticket.op.key base = syncPath base → settled ticket = true
  dropCounted : ∀ name count, (name, count) ∈ world.dropped → count ≤ world.issued

theorem key_isLock {first second : ClientOp} (same : first.key base = second.key base) :
    first.isLock = second.isLock := by
  cases first <;> cases second <;>
    simp_all [ClientOp.key, ClientOp.isLock, leaderPath, syncPath, configPath, failoverPath]

theorem allSettled_iff (world : World base) (formed : WellFormed world) (key : String) :
    allSettled world key = true ↔
      ∀ id ticket, world.tickets id = some ticket → ticket.op.key base = key →
        settled ticket = true := by
  simp only [allSettled, List.all_eq_true, List.mem_range]
  constructor
  · intro all id ticket found same
    have here := all id (formed.fresh id ticket found)
    simpa [found, same] using here
  · intro all id _
    cases found : world.tickets id with
    | none => rfl
    | some ticket =>
        by_cases same : ticket.op.key base = key
        · simp [same, all id ticket found same]
        · simp [same]

-- Only the loss of a request can still happen to a settled ticket.
theorem orderly_update {world : World base} (orderly : Orderly world) {id : Nat}
    {ticket changed : Ticket} (found : world.tickets id = some ticket)
    (op : changed.op = ticket.op)
    (counts : ∀ count, changed.caller = .answered count → count ≤ world.issued)
    (stays : settled ticket = true → settled changed = true ∧ changed.caller = ticket.caller) :
    Orderly (world.update id changed) := by
  -- Every ticket of the new state has an old one with its op.
  have old : ∀ other present, (world.update id changed).tickets other = some present →
      ∃ current, world.tickets other = some current ∧ present.op = current.op ∧
        (settled current = true → settled present = true ∧
          present.caller = current.caller) := by
    intro other present isTicket
    by_cases same : other = id
    · subst other
      simp only [World.update, if_true, Option.some.injEq] at isTicket
      subst present
      exact ⟨ticket, found, op, stays⟩
    · exact ⟨present,
        by simpa [World.update, same] using isTicket, rfl, fun done => ⟨done, rfl⟩⟩
  constructor
  · intro other present count isTicket answered
    by_cases same : other = id
    · subst other
      simp only [World.update, if_true, Option.some.injEq] at isTicket
      subst present
      exact counts count answered
    · exact orderly.counted other present count (by simpa [World.update, same] using isTicket)
        answered
  · intro earlier later first second less isFirst isSecond plain same
    obtain ⟨oldFirst, foundFirst, opFirst, keepFirst⟩ := old earlier first isFirst
    obtain ⟨oldSecond, foundSecond, opSecond, _⟩ := old later second isSecond
    rw [opFirst] at plain same
    rw [opSecond] at same
    obtain ⟨done, bound⟩ := orderly.before earlier later oldFirst oldSecond less foundFirst
      foundSecond plain same
    obtain ⟨doneNow, callerNow⟩ := keepFirst done
    exact ⟨doneNow, fun count answered => bound count (callerNow ▸ answered)⟩
  · intro name count other present member less isTicket same
    obtain ⟨current, wasTicket, opSame, keep⟩ := old other present isTicket
    rw [opSame] at same
    exact (keep (orderly.drops name count other current member less wasTicket same)).1
  · exact orderly.dropCounted

theorem orderly_append {world : World base} (orderly : Orderly world) (source : Option Nat)
    (op : LogOp (leaderPath base)) : Orderly (world.append source op).1 :=
  ⟨orderly.counted, orderly.before, orderly.drops, orderly.dropCounted⟩

theorem orderly_issue {world : World base} (formed : WellFormed world) (orderly : Orderly world)
    (node : String) (op : ClientOp)
    (meets : op.isLock = true ∨ allSettled world (op.key base) = true) :
    Orderly { world.update world.issued ⟨node, op, none, false, .waiting⟩ with
      issued := world.issued + 1 } := by
  constructor
  · intro id ticket count present answered
    by_cases same : id = world.issued
    · simp only [World.update, same, if_true, Option.some.injEq] at present
      simp [← present] at answered
    · have old := orderly.counted id ticket count (by simpa [World.update, same] using present)
        answered
      exact Nat.le_succ_of_le old
  · intro earlier later first second less isFirst isSecond plain same
    by_cases newest : later = world.issued
    · -- The new ticket: `meets` settled every earlier write of its key.
      subst later
      have apart : earlier ≠ world.issued := Nat.ne_of_lt less
      have found : world.tickets earlier = some first := by
        simpa [World.update, apart] using isFirst
      simp only [World.update, if_true, Option.some.injEq] at isSecond
      subst second
      have settledAll : allSettled world (op.key base) = true := by
        rcases meets with lock | all
        · rw [key_isLock same] at plain
          simp [lock] at plain
        · exact all
      exact ⟨(allSettled_iff world formed _).mp settledAll earlier first found same,
        fun count answered => orderly.counted earlier first count found answered⟩
    · have isOld : world.tickets later = some second := by
        simpa [World.update, newest] using isSecond
      have bound := formed.fresh later second isOld
      have apart : earlier ≠ world.issued := by omega
      exact orderly.before earlier later first second less
        (by simpa [World.update, apart] using isFirst) isOld plain same
  · intro name count id ticket member less present same
    by_cases newest : id = world.issued
    · have bound := orderly.dropCounted name count member
      omega
    · exact orderly.drops name count id ticket member less
        (by simpa [World.update, newest] using present) same
  · intro name count member
    exact Nat.le_succ_of_le (orderly.dropCounted name count member)

theorem orderly_dropStandby {world : World base} (formed : WellFormed world)
    (orderly : Orderly world) (name : String)
    (meets : allSettled world (syncPath base) = true) :
    Orderly { world with dropped := (name, world.issued) :: world.dropped } := by
  refine ⟨orderly.counted, orderly.before, ?_, ?_⟩
  · intro dropped count id ticket member less present same
    rcases List.mem_cons.mp member with isNew | old
    · exact (allSettled_iff world formed _).mp meets id ticket present same
    · exact orderly.drops dropped count id ticket old less present same
  · intro dropped count member
    rcases List.mem_cons.mp member with isNew | old
    · simp only [Prod.mk.injEq] at isNew
      exact Nat.le_of_eq isNew.2
    · exact orderly.dropCounted dropped count old

theorem orderly_step {world after : World base} {act : Act} (formed : WellFormed world)
    (orderly : Orderly world) (meets : Meets world act) (stepped : Stepped world act after) :
    Orderly after := by
  cases stepped with
  | issue node op idle => exact orderly_issue formed orderly node op meets
  | commit id stamp ticket found unapplied kept nonzero =>
      refine orderly_update (orderly_append orderly _ _) found rfl ?_ ?_
      · intro count answered
        exact orderly.counted id ticket count found answered
      · simp [settled, unapplied, kept]
  | lose id ticket found unapplied =>
      refine orderly_update orderly found rfl ?_ ?_
      · intro count answered
        exact orderly.counted id ticket count found answered
      · intro done
        simp only [settled, Bool.and_eq_true] at done
        exact ⟨by simp [settled, Ticket.lose, done.2], rfl⟩
  | answer id ticket found applied waiting =>
      refine orderly_update orderly found rfl ?_ ?_
      · intro count answered
        simp only [Ticket.answer, Caller.answered.injEq] at answered
        omega
      · simp [settled, waiting]
  | timeOut id ticket found waiting =>
      refine orderly_update orderly found rfl ?_ ?_
      · intro count answered
        simp [Ticket.timeOut] at answered
      · simp [settled, waiting]
  | expire now nonzero => exact orderly_append orderly _ _
  | other request apart => exact orderly_append orderly _ _
  | dropStandby name => exact orderly_dropStandby formed orderly name meets

theorem orderly_init : Orderly (World.init base) := by
  constructor <;> simp [World.init]

theorem sets_key {key node : String} {op : ClientOp} {stamp : Nat}
    {entry : Applied (leaderPath base)} (source : entry.op = op.logOp base node stamp)
    (sets : Sets key entry) : op.key base = key := by
  cases op <;>
    simp_all [Sets, ClientOp.logOp, LogOp.request, ClientOp.key, acquireRequest, renewRequest,
      releaseRequest, setSyncRequest, setConfigRequest, setFailoverRequest, plainSetRequest]

theorem commit_guard {world after : World base} {id stamp : Nat} {ticket : Ticket}
    (stepped : step world (.commit id stamp) = some after)
    (found : world.tickets id = some ticket) : ticket.reply = none ∧ ticket.lost = false := by
  cases step_stepped stepped with
  | commit _ _ same present unapplied kept nonzero =>
      rw [found, Option.some.injEq] at present
      subst same
      exact ⟨unapplied, kept⟩

-- A committed write was not settled, so no later write of its key is there yet.
theorem orderly_fresh {world after : World base} {id stamp : Nat} (formed : WellFormed world)
    (orderly : Orderly world) (stepped : step world (.commit id stamp) = some after) :
    ¬ StaleOverwrite world id := by
  rintro ⟨ticket, stored, writer, current, count, found, plain, _, written, isWriter, answered,
    stale⟩
  obtain ⟨unapplied, kept⟩ := commit_guard stepped found
  obtain ⟨newer, entry, older, split, sets, _⟩ := written
  obtain ⟨same, earlier, present, reply, _, source⟩ :=
    formed.logged writer entry (by simp [split])
  rw [isWriter, Option.some.injEq] at present
  subst same
  have sameKey := sets_key source sets
  rcases Nat.lt_trichotomy writer id with less | equal | more
  · have bound := (orderly.before writer id current ticket less isWriter found
      (by rw [key_isLock sameKey, plain]) sameKey).2 count answered
    omega
  · subst writer
    rw [found, Option.some.injEq] at isWriter
    subst current
    simp [unapplied] at reply
  · have done := (orderly.before id writer ticket current more found isWriter plain
      sameKey.symm).1
    simp [settled, unapplied, kept] at done

theorem orderly_noReAdd {world after : World base} {id stamp : Nat} (orderly : Orderly world)
    (stepped : step world (.commit id stamp) = some after) : ¬ StaleReAdd readNames world id := by
  rintro ⟨ticket, value, name, count, found, isSync, _, _, member, stale, _⟩
  obtain ⟨unapplied, kept⟩ := commit_guard stepped found
  have done := orderly.drops name count id ticket member stale found (by rw [isSync]; rfl)
  simp [settled, unapplied, kept] at done

/-- In every run in which the writes of a key are issued one after the other,
none of them replaces a value acknowledged after it was issued or names a
standby again that left the list meanwhile. -/
theorem shared_keys_not_overwritten (world : World base)
    (path : Reaches step Meets (World.init base) world) : NoStaleWrite readNames world := by
  have both : WellFormed world ∧ Orderly world :=
    reaches_invariant (fun w => WellFormed w ∧ Orderly w) ⟨wellFormed_init, orderly_init⟩
      (fun _ _ _ inv meets stepped =>
        ⟨wellFormed_step inv.1 (step_stepped stepped),
          orderly_step inv.1 inv.2 meets (step_stepped stepped)⟩) path
  intro id stamp after stepped
  constructor
  · exact orderly_fresh both.1 both.2 stepped
  · exact orderly_noReAdd readNames both.2 stepped

def grownSync : String := "\x7b\"leader\":\"node1\",\"sync_standby\":\"node2\",\"quorum\":1\x7d"

def shrunkSync : String := "\x7b\"leader\":\"node1\",\"sync_standby\":null,\"quorum\":1\x7d"

-- What the JSON reader finds in the two values.
def namesOf (value : String) : List String := if value = grownSync then ["node2"] else []

-- `node2` is published, taken back, dropped from the list and published again.
def settledWrites : List Act :=
  [.issue "node1" (.setSync grownSync), .commit 0 1000, .answer 0,
   .issue "node1" (.setSync shrunkSync), .commit 1 2000, .answer 1, .dropStandby "node2",
   .issue "node1" (.setSync grownSync)]

theorem shared_keys_not_overwritten_settledWrites :
    ∃ world after : World "/service/pg/",
      Reaches step Meets (World.init "/service/pg/") world ∧
      step world (.commit 2 3000) = some after ∧ NoStaleWrite namesOf world := by
  have path := play_reaches
    (show play step Meets (World.init "/service/pg/") settledWrites = some _ from rfl)
  exact ⟨_, _, path, rfl, shared_keys_not_overwritten namesOf _ path⟩

-- The write that publishes `node2` is given up on; the next cycle takes it back.
def abandonedGrow : List Act :=
  [.issue "node1" (.setSync grownSync), .timeOut 0,
   .issue "node1" (.setSync shrunkSync), .commit 1 1000, .answer 1, .dropStandby "node2"]

/-- The abandoned write replaces the acknowledged value and names `node2`,
which PostgreSQL no longer waits for. -/
theorem abandoned_grow_overwrites :
    ∃ world after : World "/service/pg/",
      Reaches step anyAct (World.init "/service/pg/") world ∧
      step world (.commit 0 2000) = some after ∧ StaleOverwrite world 0 ∧
      StaleReAdd namesOf world 0 := by
  have path := play_reaches
    (show play step anyAct (World.init "/service/pg/") abandonedGrow = some _ from rfl)
  refine ⟨_, _, path, rfl, ?_, ?_⟩
  · exact ⟨_, _, 1, _, 2, rfl, rfl, rfl, ⟨[], _, [], rfl, rfl, by simp⟩, rfl, rfl,
      by decide⟩
  · refine ⟨_, _, "node2", 2, rfl, rfl, rfl, by decide, List.mem_cons_self, by decide, ?_⟩
    intro stored present
    cases present
    decide

end PgHa.SharedKeys
