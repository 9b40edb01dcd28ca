import PgHa.BoundedWrite

/-!
Abandoned lock writes that are applied late. The comment at `RaftDcs::propose`
calls them harmless because every lock write is a CAS. The CAS compares a
node's name only, so a release that its caller gave up on still matches the
lock of a later term of the same node, and a renewal with an older stamp
shortens the lock it matches. Every other late lock write is harmless.
-/

namespace PgHa.LateLockWrite

open StateMachine RaftDcs LeaderLock BoundedWrite Transition

variable {base : String}

def isAcquireOrRenew : ClientOp → Bool
  | .acquire _ | .renew _ => true
  | .release | .setSync _ | .setConfig _ | .setFailover _ _ => false

def takesLock (ticket : Ticket) (node : String) : Bool :=
  ticket.node == node && isAcquireOrRenew ticket.op &&
    (ticket.reply.map Response.succeeded).getD false

def acknowledged (ticket : Ticket) : Bool :=
  match ticket.caller with
  | .answered _ => true
  | .waiting | .abandoned => false

-- `id` is the most recent acquire or renew of `node` that its caller saw Ok.
def LastAcknowledged (world : World base) (node : String) (id : Nat) : Prop :=
  (∃ ticket, world.tickets id = some ticket ∧ takesLock ticket node = true ∧
    acknowledged ticket = true) ∧
  ∀ later ticket, id < later → world.tickets later = some ticket →
    takesLock ticket node = true → acknowledged ticket = false

-- The log since `id`: no stamp of it reached `exp` and no release that `node`
-- issued after `id` is in it.
def Undisturbed (node : String) (id exp : Nat)
    (since : List (Option Nat × Applied (leaderPath base))) : Prop :=
  (∀ item ∈ since, ¬ item.2.StampReaches exp) ∧
  ∀ later entry, (some later, entry) ∈ since → id < later → entry.op ≠ .release node

/-- While the TTL of a node's most recent acknowledged acquire or renew has not
elapsed in log stamps, the lock names that node, unless a release that the node
issued after it was applied. -/
def LockKept (world : World base) : Prop :=
  ∀ node id exp since entry before, LastAcknowledged world node id →
    world.log = since ++ (some id, entry) :: before → entry.Granted node exp →
    Undisturbed node id exp since →
    ∃ stored, world.sm.data (leaderPath base) = some stored ∧ stored.value = node

-- An applied acquire or renew of `node` whose caller has not given up on it.
def standing (world : World base) (node : String) (id : Nat) : Bool :=
  match world.tickets id with
  | some ticket => takesLock ticket node && ticket.caller != .abandoned
  | none => false

def releaseOverdue (world : World base) (node : String) (id : Nat) : Bool :=
  (List.range world.issued).any fun later => decide (id < later) && standing world node later

-- The renewal is about to move the expiry of the node's own lock back.
def renewalShortens (world : World base) (node : String) (ttl stamp : Nat) : Bool :=
  match get stamp world.sm (leaderPath base) with
  | some entry => entry.value == node && entry.expireAt.any (fun bound => expiry stamp ttl < bound)
  | none => false

/-- No release is applied after a standing acquire or renew its node issued
later, and no renewal moves the expiry of its node's own lock back. -/
def Meets (world : World base) : Act → Prop
  | .commit id stamp =>
      match world.tickets id with
      | some ⟨node, .release, _, _, _⟩ => releaseOverdue world node id = false
      | some ⟨node, .renew ttl, _, _, _⟩ => renewalShortens world node ttl stamp = false
      | _ => True
  | _ => True

instance (world : World base) (act : Act) : Decidable (Meets world act) := by
  unfold Meets
  cases act with
  | commit id stamp =>
      dsimp only
      split <;> infer_instance
  | _ => exact inferInstanceAs (Decidable True)

-- The invariant: what `LockKept` says, of every write that is not given up on.
structure Kept (world : World base) : Prop where
  formed : WellFormed world
  held : ∀ id ticket exp since entry before, world.tickets id = some ticket →
    ticket.caller ≠ .abandoned → world.log = since ++ (some id, entry) :: before →
    entry.Granted ticket.node exp → Undisturbed ticket.node id exp since →
    HeldBy (leaderPath base) ticket.node exp world.sm

theorem undisturbed_tail {node : String} {id exp : Nat}
    {item : Option Nat × Applied (leaderPath base)}
    {since : List (Option Nat × Applied (leaderPath base))}
    (quiet : Undisturbed node id exp (item :: since)) : Undisturbed node id exp since := by
  constructor
  · intro other member
    exact quiet.1 other (List.mem_cons_of_mem _ member)
  · intro later entry member
    exact quiet.2 later entry (List.mem_cons_of_mem _ member)

theorem granted_takes {op : ClientOp} {node writer : String} {stamp index exp : Nat}
    {reply : Response}
    (granted : Applied.Granted ⟨index, op.logOp base writer stamp, reply⟩ node exp) :
    isAcquireOrRenew op = true ∧ writer = node ∧ reply.succeeded = true := by
  obtain ⟨write, success⟩ := granted
  cases op <;>
    simp_all [ClientOp.logOp, LogOp.lockWrite, isAcquireOrRenew]

theorem logOp_stamped (op : ClientOp) (node : String) (stamp : Nat) (nonzero : stamp ≠ 0) :
    (op.logOp base node stamp).Stamped := by
  intro now present
  cases op <;> simp_all [ClientOp.logOp, LogOp.stamp]

theorem logOp_release {op : ClientOp} {writer node : String} {stamp : Nat}
    (same : op.logOp base writer stamp = .release node) : op = .release ∧ writer = node := by
  cases op <;> simp_all [ClientOp.logOp]

theorem logOp_renew {op : ClientOp} {writer node : String} {stamp ttl now : Nat}
    (same : op.logOp base writer stamp = .renew node ttl now) :
    op = .renew ttl ∧ writer = node ∧ stamp = now := by
  cases op <;> simp_all [ClientOp.logOp]

theorem heldBy_mono {node : String} {exp later : Nat} {sm : KvStateMachine}
    (held : HeldBy (leaderPath base) node later sm) (earlier : exp ≤ later) :
    HeldBy (leaderPath base) node exp sm := by
  obtain ⟨entry, bound, found, owner, expires, reaches⟩ := held
  exact ⟨entry, bound, found, owner, expires, Nat.le_trans earlier reaches⟩

-- A renewal that is allowed on a held lock leaves it held as long as before.
theorem renewal_extends {world : World base} {node : String} {exp ttl stamp : Nat}
    (held : HeldBy (leaderPath base) node exp world.sm)
    (fits : renewalShortens world node ttl stamp = false) (early : stamp < exp) :
    exp ≤ expiry stamp ttl := by
  obtain ⟨entry, bound, found, owner, expires, reaches⟩ := held
  have alive : live stamp entry = true := by
    simp only [live, expires, decide_eq_true_eq]
    omega
  have current : get stamp world.sm (leaderPath base) = some entry :=
    (filter_live_some stamp _ entry).mpr ⟨found, alive⟩
  simp only [renewalShortens, current, owner, expires, beq_self_eq_true, Bool.true_and,
    Option.any_some, decide_eq_false_iff_not, Nat.not_lt] at fits
  omega

theorem overdue_of_standing {world : World base} {node : String} {id later : Nat}
    (issued : later < world.issued) (after : id < later)
    (stands : standing world node later = true) : releaseOverdue world node id = true := by
  simp only [releaseOverdue, List.any_eq_true, List.mem_range, Bool.and_eq_true, decide_eq_true_eq]
  exact ⟨later, issued, after, stands⟩

theorem standing_of_granted {world : World base} {id exp : Nat} {ticket : Ticket}
    {entry : Applied (leaderPath base)} (formed : WellFormed world)
    (found : world.tickets id = some ticket) (current : ticket.caller ≠ .abandoned)
    (logged : (some id, entry) ∈ world.log) (granted : entry.Granted ticket.node exp) :
    standing world ticket.node id = true := by
  obtain ⟨index, op, reply⟩ := entry
  obtain ⟨same, stamp, present, answer, _, source⟩ := formed.logged id _ logged
  rw [found, Option.some.injEq] at present
  subst same
  dsimp only at source answer
  subst op
  obtain ⟨takes, _, success⟩ := granted_takes granted
  simp [standing, found, takesLock, takes, answer, success, current]

-- Entries the nodes do not issue neither renew nor release.
theorem kept_append {world : World base} (kept : Kept world) (op : LogOp (leaderPath base))
    (stamped : op.Stamped) (noRenew : ∀ node ttl now, op ≠ .renew node ttl now)
    (noRelease : ∀ node, op ≠ .release node) : Kept (world.append none op).1 := by
  constructor
  · exact wellFormed_append kept.formed op
  · intro id ticket exp since entry before found current split granted quiet
    cases since with
    | nil => simp [World.append] at split
    | cons item rest =>
        simp only [World.append, List.cons_append, List.cons.injEq] at split
        obtain ⟨isNew, split⟩ := split
        subst item
        have heldBefore := kept.held id ticket exp rest entry before found current split granted
          (undisturbed_tail quiet)
        rcases held_step 0 world.sm op (world.log.length + 1) ticket.node exp stamped heldBefore
          with ⟨ttl, now, renewal, _⟩ | released | reached | ⟨heldAfter, _⟩
        · exact absurd renewal (noRenew _ _ _)
        · exact absurd released.1 (noRelease _)
        · exact absurd reached (quiet.1 _ List.mem_cons_self)
        · exact heldAfter

-- A ticket whose caller gives up leaves the invariant; the others keep it.
theorem kept_update {world : World base} (kept : Kept world) {id : Nat} {ticket changed : Ticket}
    (found : world.tickets id = some ticket) (node : changed.node = ticket.node)
    (op : changed.op = ticket.op) (reply : changed.reply = ticket.reply)
    (caller : changed.caller ≠ .abandoned → ticket.caller ≠ .abandoned) :
    Kept (world.update id changed) := by
  constructor
  · exact wellFormed_update kept.formed found node op reply
  · intro other present exp since entry before isTicket current split granted quiet
    by_cases same : other = id
    · subst other
      simp only [World.update, if_true, Option.some.injEq] at isTicket
      subst present
      rw [node] at granted quiet ⊢
      exact kept.held id ticket exp since entry before found (caller current) split granted quiet
    · exact kept.held other present exp since entry before
        (by simpa [World.update, same] using isTicket) current split granted quiet

theorem kept_commit {world : World base} (kept : Kept world) {id stamp : Nat} {ticket : Ticket}
    (found : world.tickets id = some ticket) (unapplied : ticket.reply = none)
    (nonzero : stamp ≠ 0) (meets : Meets world (.commit id stamp))
    (formed : WellFormed ((world.append (some id) (ticket.op.logOp base ticket.node stamp)).1.update
      id (ticket.applied (world.append (some id) (ticket.op.logOp base ticket.node stamp)).2))) :
    Kept ((world.append (some id) (ticket.op.logOp base ticket.node stamp)).1.update id
      (ticket.applied (world.append (some id) (ticket.op.logOp base ticket.node stamp)).2)) := by
  refine ⟨formed, ?_⟩
  intro other present exp since entry before isTicket current split granted quiet
  have stamped : (ticket.op.logOp base ticket.node stamp).Stamped :=
    logOp_stamped ticket.op ticket.node stamp nonzero
  cases since with
  | nil =>
      -- The new entry itself is the write: its own TTL starts here.
      simp only [World.update, World.append, List.nil_append, List.cons.injEq, Prod.mk.injEq,
        Option.some.injEq] at split
      obtain ⟨⟨rfl, rfl⟩, _⟩ := split
      exact granted_held 0 world.sm _ _ present.node exp stamped granted
  | cons item rest =>
      simp only [World.update, World.append, List.cons_append, List.cons.injEq] at split
      obtain ⟨isNew, split⟩ := split
      subst item
      have inLog : (some other, entry) ∈ world.log := by simp [split]
      have apart : other ≠ id := by
        rintro rfl
        obtain ⟨same, _, holds, answer, _⟩ := kept.formed.logged other entry inLog
        rw [found, Option.some.injEq] at holds
        simp [← holds, unapplied] at answer
      have isOld : world.tickets other = some present := by
        simpa [World.update, World.append, apart] using isTicket
      have heldBefore := kept.held other present exp rest entry before isOld current split
        granted (undisturbed_tail quiet)
      rcases held_step 0 world.sm (ticket.op.logOp base ticket.node stamp) (world.log.length + 1)
        present.node exp stamped heldBefore with
        ⟨ttl, now, renewal, success⟩ | released | reached | ⟨heldAfter, _⟩
      · obtain ⟨isRenew, writer, rfl⟩ := logOp_renew renewal
        have early : stamp < exp := by
          by_contra late
          refine quiet.1 _ List.mem_cons_self ⟨stamp, ?_, Nat.le_of_not_lt late⟩
          simp [renewal, LogOp.stamp]
        have fits : renewalShortens world present.node ttl stamp = false := by
          obtain ⟨_, op, _, _, _⟩ := ticket
          dsimp only at isRenew writer
          subst op writer
          simpa [Meets, found] using meets
        have heldNew := granted_held 0 world.sm (ticket.op.logOp base ticket.node stamp)
          (world.log.length + 1) present.node (expiry stamp ttl) stamped
          ⟨by simp [renewal, LogOp.lockWrite], success⟩
        exact heldBy_mono heldNew (renewal_extends heldBefore fits early)
      · obtain ⟨isRelease, writer⟩ := logOp_release released.1
        have older : id < other := by
          by_contra newer
          refine quiet.2 id _ List.mem_cons_self ?_ released.1
          omega
        have overdue := overdue_of_standing (kept.formed.fresh other present isOld) older
          (standing_of_granted kept.formed isOld current inLog granted)
        obtain ⟨_, op, _, _, _⟩ := ticket
        dsimp only at isRelease writer
        subst op writer
        simp [Meets, found, overdue] at meets
      · exact absurd reached (quiet.1 _ List.mem_cons_self)
      · exact heldAfter

theorem kept_step {world after : World base} {act : Act} (kept : Kept world)
    (meets : Meets world act) (stepped : Stepped world act after) : Kept after := by
  have formed := wellFormed_step kept.formed stepped
  cases stepped with
  | issue node op idle =>
      refine ⟨formed, ?_⟩
      intro id ticket exp since entry before present current split granted quiet
      have inLog : (some id, entry) ∈ world.log := by
        rw [show world.log = since ++ (some id, entry) :: before from split]
        simp
      obtain ⟨old, _, isOld, _⟩ := kept.formed.logged id entry inLog
      have apart : id ≠ world.issued := Nat.ne_of_lt (kept.formed.fresh id old isOld)
      exact kept.held id ticket exp since entry before
        (by simpa [World.update, apart] using present) current split granted quiet
  | commit id stamp ticket found unapplied notLost nonzero =>
      exact kept_commit kept found unapplied nonzero meets formed
  | lose id ticket found unapplied =>
      exact kept_update kept found rfl rfl rfl (fun current => current)
  | answer id ticket found applied waiting =>
      exact kept_update kept found rfl rfl rfl (by simp [waiting])
  | timeOut id ticket found waiting =>
      exact kept_update kept found rfl rfl rfl (by simp [waiting])
  | expire now nonzero =>
      exact kept_append kept _ (by simp [LogOp.Stamped, LogOp.stamp, nonzero]) (by simp) (by simp)
  | other request apart =>
      exact kept_append kept _ (by simp [LogOp.Stamped, LogOp.stamp]) (by simp) (by simp)
  | dropStandby name => exact ⟨formed, kept.held⟩

theorem kept_init : Kept (World.init base) := by
  constructor
  · exact wellFormed_init
  · intro id ticket exp since entry before present
    simp [World.init] at present

theorem kept_lockKept {world : World base} (kept : Kept world) : LockKept world := by
  intro node id exp since entry before acked split granted quiet
  obtain ⟨⟨ticket, found, takes, answered⟩, _⟩ := acked
  have owner : ticket.node = node := by
    simp only [takesLock, Bool.and_eq_true, beq_iff_eq] at takes
    exact takes.1.1
  subst node
  have current : ticket.caller ≠ .abandoned := by
    intro abandoned
    simp [acknowledged, abandoned] at answered
  obtain ⟨stored, _, present, value, _⟩ :=
    kept.held id ticket exp since entry before found current split granted quiet
  exact ⟨stored, present, value⟩

/-- In every run that meets the condition at each commit, the lock outlives
every late lock write. -/
theorem late_lock_writes_keep_lock (world : World base)
    (path : Reaches step Meets (World.init base) world) : LockKept world := by
  have kept : Kept world := reaches_invariant Kept kept_init
    (fun _ _ _ keptBefore meets stepped => kept_step keptBefore meets (step_stepped stepped)) path
  exact kept_lockKept kept

theorem reaches_wellFormed {allowed : World base → Act → Prop} {world : World base}
    (path : Reaches step allowed (World.init base) world) : WellFormed world :=
  reaches_invariant WellFormed wellFormed_init
    (fun _ _ _ formed _ stepped => wellFormed_step formed (step_stepped stepped)) path

-- Nothing was issued after an acknowledged write with the highest number.
theorem lastAcknowledged_newest {world : World base} (formed : WellFormed world) {node : String}
    {id : Nat} {ticket : Ticket} (newest : world.issued = id + 1)
    (found : world.tickets id = some ticket) (takes : takesLock ticket node = true)
    (answered : acknowledged ticket = true) : LastAcknowledged world node id := by
  constructor
  · exact ⟨ticket, found, takes, answered⟩
  · intro later other after present
    have issued := formed.fresh later other present
    omega

-- A term with a renewal given up on that is applied late.
def lateRenewal : List Act :=
  [.issue "node1" (.acquire 30), .commit 0 1000, .answer 0,
   .issue "node1" (.renew 30), .timeOut 1,
   .issue "node1" (.renew 30), .commit 1 1500, .commit 2 2000, .answer 2]

theorem late_lock_writes_keep_lock_lateRenewal :
    ∃ world : World "/service/pg/", Reaches step Meets (World.init "/service/pg/") world ∧
      LastAcknowledged world "node1" 2 ∧ LockKept world := by
  have path := play_reaches
    (show play step Meets (World.init "/service/pg/") lateRenewal = some _ from rfl)
  exact ⟨_, path, lastAcknowledged_newest (reaches_wellFormed path) rfl rfl rfl rfl,
    late_lock_writes_keep_lock _ path⟩

-- A release is given up on, the node renews instead, and the release arrives.
def overdueRelease : List Act :=
  [.issue "node1" (.acquire 30), .commit 0 1000, .answer 0,
   .issue "node1" .release, .timeOut 1,
   .issue "node1" (.renew 30), .commit 2 2000, .answer 2, .commit 1 3000]

/-- The renewal of `node1` holds until stamp 32000 and the log ends at stamp
3000, yet the lock is gone. -/
theorem overdue_release_drops_lock :
    ∃ world : World "/service/pg/", Reaches step anyAct (World.init "/service/pg/") world ∧
      ¬ LockKept world := by
  have path := play_reaches
    (show play step anyAct (World.init "/service/pg/") overdueRelease = some _ from rfl)
  refine ⟨_, path, ?_⟩
  intro kept
  obtain ⟨stored, present, _⟩ := kept "node1" 2 32000
    [(some 1, ⟨3, .release "node1", .ok 3⟩)] ⟨2, .renew "node1" 30 2000, .ok 2⟩
    [(some 0, ⟨1, .acquire "node1" 30 1000, .ok 1⟩)]
    (lastAcknowledged_newest (reaches_wellFormed path) rfl rfl rfl rfl) rfl ⟨rfl, rfl⟩
    ⟨by simp [Applied.StampReaches, LogOp.stamp], by simp⟩
  cases present

end PgHa.LateLockWrite
