import PgHa.LeaderLock

/-!
The local leader lease of `pg-ha-core/src/ha/lease.rs` against the lock it
stands for. Instants are nanoseconds of real time. A node's monotonic clock is
real time from an origin of its own, its wall clock is any function of real
time. The lock's entries are stamped in whole milliseconds by the wall clock of
whichever node is the Raft leader then; nothing releases the lock.
-/

namespace PgHa.Lease

open StateMachine LeaderLock

def nanosPerMilli : Nat := 10 ^ 6

def nanosPerSecond : Nat := 10 ^ 9

/-- Both clocks, read immediately before a leader-lock write. -/
structure LeaseAnchor where
  mono : Nat
  wall : Nat
  deriving DecidableEq

structure LeaderLease where
  monoDeadline : Nat
  wallDeadline : Nat
  deriving DecidableEq

/-- `LeaderLease::new`; the subtraction saturates. -/
def LeaderLease.new (anchor : LeaseAnchor) (lockTtlSecs safetyMarginSecs : Nat) : LeaderLease :=
  let valid := (lockTtlSecs - safetyMarginSecs) * nanosPerSecond
  ⟨anchor.mono + valid, anchor.wall + valid⟩

def LeaderLease.expiredAt (lease : LeaderLease) (monoNow wallNow : Nat) : Bool :=
  decide (lease.monoDeadline ≤ monoNow) || decide (lease.wallDeadline ≤ wallNow)

structure NodeClock where
  origin : Nat
  wall : Nat → Nat

def NodeClock.anchorAt (clock : NodeClock) (real : Nat) : LeaseAnchor :=
  ⟨clock.origin + real, clock.wall real⟩

/-- `is_expired` at a real instant. -/
def NodeClock.expired (clock : NodeClock) (lease : LeaderLease) (real : Nat) : Bool :=
  lease.expiredAt (clock.origin + real) (clock.wall real)

inductive LeaseOp (leader : String) where
  | acquire (node : String)
  | renew (node : String)
  | expire
  | other (request : Request) (apart : ¬ Touches leader request)

-- One log entry: when its caller took the lease anchor, and when and by which
-- Raft leader it was stamped.
structure LeaseEntry (leader : String) where
  op : LeaseOp leader
  anchor : Nat
  stampedAt : Nat
  raftLeader : String

variable {leader : String} (clocks : String → NodeClock) (ttl margin : Nat)

/-- `current_millis` on the Raft leader. -/
def LeaseEntry.stamp (entry : LeaseEntry leader) : Nat :=
  (clocks entry.raftLeader).wall entry.stampedAt / nanosPerMilli

def LeaseEntry.logOp (entry : LeaseEntry leader) : LogOp leader :=
  match entry.op with
  | .acquire node => .acquire node ttl (entry.stamp clocks)
  | .renew node => .renew node ttl (entry.stamp clocks)
  | .expire => .expire (entry.stamp clocks)
  | .other request apart => .other request apart

def LeaseEntry.lockWriter (entry : LeaseEntry leader) : Option String :=
  match entry.op with
  | .acquire node | .renew node => some node
  | .expire | .other _ _ => none

/-- The lease `extend_leader_lease` builds once the write returned `Ok(true)`. -/
def LeaseEntry.lease (entry : LeaseEntry leader) (node : String) : LeaderLease :=
  .new ((clocks node).anchorAt entry.anchor) ttl margin

-- Every entry with its answer; the first one has log index `index`.
def answers : KvStateMachine → Nat → List (LeaseEntry leader) →
    List (LeaseEntry leader × Applied leader)
  | _, _, [] => []
  | sm, index, entry :: rest =>
      let op := entry.logOp clocks ttl
      let result := apply 0 sm op.request index
      (entry, ⟨index, op, result.2⟩) :: answers result.1 (index + 1) rest

/-- When an acquire of another node is stamped that will succeed, the lease of
every earlier successful write of the holder has expired on the holder. -/
def LeaseCovers (log : List (LeaseEntry leader)) : Prop :=
  ∀ before first between second after holder taker,
    answers clocks ttl .new 1 log = before ++ first :: (between ++ second :: after) →
    first.1.lockWriter = some holder → first.2.reply.succeeded = true →
    second.1.op = .acquire taker → second.2.reply.succeeded = true → taker ≠ holder →
    (clocks holder).expired (first.1.lease clocks ttl margin holder) second.1.stampedAt = true

/-- Every wall clock stays within `skew` nanoseconds of real time. -/
def WithinSkew (skew : Nat) : Prop :=
  ∀ node real, (clocks node).wall real ≤ real + skew ∧ real ≤ (clocks node).wall real + skew

structure Anchored (log : List (LeaseEntry leader)) : Prop where
  margins : margin ≤ ttl
  anchors : ∀ entry ∈ log, entry.anchor ≤ entry.stampedAt
  epoch : ∀ entry ∈ log, entry.stamp clocks ≠ 0

/-- The requests enter the log in the order they were stamped. -/
def StampedInOrder (log : List (LeaseEntry leader)) : Prop :=
  log.Pairwise fun earlier later => earlier.stampedAt ≤ later.stampedAt

/-- `now + t * 1000` stays inside `u64`. -/
def StampsFit (log : List (LeaseEntry leader)) : Prop :=
  ∀ entry ∈ log, entry.stamp clocks + ttl * 1000 < 2 ^ 64

def numbered : Nat → List (LeaseEntry leader) → List (Nat × LogOp leader)
  | _, [] => []
  | index, entry :: rest => (index, entry.logOp clocks ttl) :: numbered (index + 1) rest

theorem answers_applied (sm : KvStateMachine) (index : Nat) (log : List (LeaseEntry leader)) :
    (answers clocks ttl sm index log).map Prod.snd =
      applyLog 0 sm (numbered clocks ttl index log) := by
  induction log generalizing sm index with
  | nil => rfl
  | cons entry rest ih => simp [answers, numbered, applyLog, ih]

theorem answers_entries (sm : KvStateMachine) (index : Nat) (log : List (LeaseEntry leader)) :
    (answers clocks ttl sm index log).map Prod.fst = log := by
  induction log generalizing sm index with
  | nil => rfl
  | cons entry rest ih => simp [answers, ih]

theorem answers_op (sm : KvStateMachine) (index : Nat) (log : List (LeaseEntry leader)) :
    ∀ pair ∈ answers clocks ttl sm index log, pair.2.op = pair.1.logOp clocks ttl := by
  induction log generalizing sm index with
  | nil => simp [answers]
  | cons entry rest ih =>
      intro pair member
      simp only [answers, List.mem_cons] at member
      rcases member with same | tail
      · subst pair
        rfl
      · exact ih _ _ pair tail

theorem numbered_stamped (index : Nat) (log : List (LeaseEntry leader))
    (epoch : ∀ entry ∈ log, entry.stamp clocks ≠ 0) :
    ∀ item ∈ numbered clocks ttl index log, item.2.Stamped := by
  induction log generalizing index with
  | nil => simp [numbered]
  | cons entry rest ih =>
      intro item member
      simp only [numbered, List.mem_cons] at member
      rcases member with same | tail
      · subst item
        have nonzero := epoch entry List.mem_cons_self
        intro now stamped
        cases op : entry.op <;> simp_all [LeaseEntry.logOp, LogOp.stamp]
      · exact ih _ (fun other inRest => epoch other (List.mem_cons_of_mem _ inRest)) item tail

theorem granted_of_writer {pair : LeaseEntry leader × Applied leader} {node : String}
    (source : pair.2.op = pair.1.logOp clocks ttl) (writer : pair.1.lockWriter = some node)
    (success : pair.2.reply.succeeded = true) :
    pair.2.Granted node (expiry (pair.1.stamp clocks) ttl) := by
  constructor
  · cases op : pair.1.op <;> simp_all [LeaseEntry.logOp, LeaseEntry.lockWriter, LogOp.lockWrite]
  · exact success

theorem granted_expiry {pair : LeaseEntry leader × Applied leader} {node : String} {exp : Nat}
    (source : pair.2.op = pair.1.logOp clocks ttl) (granted : pair.2.Granted node exp) :
    exp = expiry (pair.1.stamp clocks) ttl := by
  obtain ⟨write, _⟩ := granted
  cases op : pair.1.op <;> simp_all [LeaseEntry.logOp, LogOp.lockWrite]

theorem reaches_stamp {pair : LeaseEntry leader × Applied leader} {exp : Nat}
    (source : pair.2.op = pair.1.logOp clocks ttl) (reached : pair.2.StampReaches exp) :
    exp ≤ pair.1.stamp clocks := by
  obtain ⟨now, stamped, reaches⟩ := reached
  cases op : pair.1.op <;> simp_all [LeaseEntry.logOp, LogOp.stamp]

theorem not_released {pair : LeaseEntry leader × Applied leader} {node : String}
    (source : pair.2.op = pair.1.logOp clocks ttl) : ¬ pair.2.Released node := by
  rintro ⟨release, _⟩
  cases op : pair.1.op <;> simp_all [LeaseEntry.logOp]

/-- A stamp that reaches the expiry of an earlier write was taken a lock TTL
later in real time, less the skew of both clocks and the part of a millisecond
the earlier stamp dropped. -/
theorem stamp_distance {skew : Nat} (bounded : WithinSkew clocks skew)
    (earlier later : LeaseEntry leader) (fits : earlier.stamp clocks + ttl * 1000 < 2 ^ 64)
    (reached : expiry (earlier.stamp clocks) ttl ≤ later.stamp clocks) :
    earlier.stampedAt + ttl * nanosPerSecond ≤ later.stampedAt + 2 * skew +
      (nanosPerMilli - 1) := by
  have slow := (bounded earlier.raftLeader earlier.stampedAt).2
  have fast := (bounded later.raftLeader later.stampedAt).1
  rw [expiry, Nat.mod_eq_of_lt fits] at reached
  simp only [LeaseEntry.stamp, nanosPerMilli, nanosPerSecond] at reached ⊢
  omega

/-- Between a holder's successful write and another node's stands the holder's
last one and, after it, an entry whose stamp reaches its expiry. -/
theorem takeover_cause (log : List (LeaseEntry leader))
    (epoch : ∀ entry ∈ log, entry.stamp clocks ≠ 0)
    (before between after : List (LeaseEntry leader × Applied leader))
    (first second : LeaseEntry leader × Applied leader) (holder taker : String)
    (split : answers clocks ttl .new 1 log = before ++ first :: (between ++ second :: after))
    (writer : first.1.lockWriter = some holder) (success : first.2.reply.succeeded = true)
    (isAcquire : second.1.op = .acquire taker) (taken : second.2.reply.succeeded = true)
    (different : taker ≠ holder) :
    ∃ front last back ender, first :: between = front ++ last :: back ∧
      ender ∈ back ++ [second] ∧ expiry (last.1.stamp clocks) ttl ≤ ender.1.stamp clocks := by
  have source := answers_op clocks ttl .new 1 log
  have applied := answers_applied clocks ttl .new 1 log
  rw [split] at source applied
  simp only [List.map_append, List.map_cons] at applied
  obtain ⟨earlier, lastAnswer, later, exp, parts, granted, _, answer, inLater, ends⟩ :=
    term_ends_before_takeover 0 .new _ (numbered_stamped clocks ttl 1 log epoch) _ _ _ _ _
      holder taker _ _ applied.symm
      (granted_of_writer clocks ttl (source first (by simp)) writer success)
      (granted_of_writer clocks ttl (source second (by simp))
        (by simp [LeaseEntry.lockWriter, isAcquire]) taken) different
  -- Back from the answers to the entries that got them.
  obtain ⟨front, rest, pieces, _, restMap⟩ := List.map_eq_append_iff.mp
    (show (first :: between).map Prod.snd = earlier ++ lastAnswer :: later from parts)
  obtain ⟨last, back, rfl, rfl, rfl⟩ := List.map_eq_cons_iff.mp restMap
  have inAll : ∀ pair ∈ front ++ last :: (back ++ [second]),
      pair.2.op = pair.1.logOp clocks ttl := by
    intro pair member
    apply source
    have listed : pair ∈ (first :: between) ++ [second] := by
      rw [pieces]
      simpa using member
    simp only [List.mem_append, List.mem_cons, List.not_mem_nil, or_false] at listed ⊢
    rcases listed with (same | inside) | isSecond
    · exact Or.inr (Or.inl same)
    · exact Or.inr (Or.inr (Or.inl inside))
    · exact Or.inr (Or.inr (Or.inr (Or.inl isSecond)))
  have answered : answer ∈ (back ++ [second]).map Prod.snd := by simpa using inLater
  obtain ⟨ender, inBack, rfl⟩ := List.mem_map.mp answered
  have enderSource := inAll ender
    (List.mem_append_right _ (List.mem_cons_of_mem _ inBack))
  refine ⟨front, last, back, ender, pieces, inBack, ?_⟩
  rw [← granted_expiry clocks ttl (inAll last (by simp)) granted]
  rcases ends with released | reached
  · exact absurd released (not_released clocks ttl enderSource)
  · exact reaches_stamp clocks ttl enderSource reached

-- Of a list that splits at one of its items the head is no later than the item.
theorem head_before {α : Type} (le : α → α → Prop) (refl : ∀ item, le item item)
    {first last : α} {between front back : List α}
    (split : first :: between = front ++ last :: back)
    (ordered : (first :: between).Pairwise le) : le first last := by
  cases front with
  | nil =>
      simp only [List.nil_append, List.cons.injEq] at split
      exact split.1 ▸ refl first
  | cons head rest =>
      simp only [List.cons_append, List.cons.injEq] at split
      obtain ⟨rfl, rfl⟩ := split
      exact (List.pairwise_cons.mp ordered).1 last (by simp)

def NoLater (earlier later : LeaseEntry leader × Applied leader) : Prop :=
  earlier.1.stampedAt ≤ later.1.stampedAt

/-- With clocks that leave the margin a millisecond, and requests that enter
the log as stamped, a lease ends before anybody else can take the lock. -/
theorem lease_expired_before_takeover (log : List (LeaseEntry leader)) (skew : Nat)
    (bounded : WithinSkew clocks skew)
    (narrow : 2 * skew + (nanosPerMilli - 1) ≤ margin * nanosPerSecond)
    (anchored : Anchored clocks ttl margin log) (inOrder : StampedInOrder log)
    (fits : StampsFit clocks ttl log) : LeaseCovers clocks ttl margin log := by
  intro before first between second after holder taker split writer success isAcquire
    taken different
  obtain ⟨front, last, back, ender, pieces, inBack, reached⟩ := takeover_cause clocks ttl log
    anchored.epoch before between after first second holder taker split writer success isAcquire
    taken different
  have entries := answers_entries clocks ttl .new 1 log
  have ordered : (answers clocks ttl .new 1 log).Pairwise NoLater := by
    have mapped : ((answers clocks ttl .new 1 log).map Prod.fst).Pairwise
        fun earlier later => earlier.stampedAt ≤ later.stampedAt := entries.symm ▸ inOrder
    rw [List.pairwise_map] at mapped
    exact mapped
  have inLog : ∀ pair ∈ answers clocks ttl .new 1 log, pair.1 ∈ log := by
    intro pair member
    exact entries ▸ List.mem_map_of_mem member
  have joined : first :: (between ++ second :: after) = front ++ last ::
      (back ++ second :: after) := by
    rw [← List.cons_append, pieces]
    simp
  rw [split] at ordered inLog
  have tailOrdered := (List.pairwise_append.mp ordered).2.1
  have toLast : NoLater first last :=
    head_before NoLater (fun _ => Nat.le_refl _) joined tailOrdered
  have backOrdered : (back ++ second :: after).Pairwise NoLater := by
    rw [joined] at tailOrdered
    exact (List.pairwise_cons.mp (List.pairwise_append.mp tailOrdered).2.1).2
  have toSecond : NoLater ender second := by
    rcases List.mem_append.mp inBack with inside | isSecond
    · exact (List.pairwise_append.mp backOrdered).2.2 ender inside second List.mem_cons_self
    · rw [List.mem_singleton.mp isSecond]
      exact Nat.le_refl _
  have lastInLog : last.1 ∈ log := by
    apply inLog
    rw [joined]
    simp
  have anchorFirst := anchored.anchors first.1 (inLog first (by simp))
  have apart := stamp_distance clocks ttl bounded last.1 ender.1 (fits last.1 lastInLog) reached
  have margins := anchored.margins
  simp only [NoLater, nanosPerMilli, nanosPerSecond] at toLast toSecond apart narrow
  have expired : (first.1.lease clocks ttl margin holder).monoDeadline ≤
      (clocks holder).origin + second.1.stampedAt := by
    simp only [LeaseEntry.lease, LeaderLease.new, NodeClock.anchorAt, nanosPerSecond]
    omega
  simp [NodeClock.expired, LeaderLease.expiredAt, expired]

def exactClocks (_ : String) : NodeClock := ⟨0, fun real => real⟩

-- `node3` runs a second behind real time and `node2` a second ahead.
def skewedClocks (node : String) : NodeClock :=
  if node = "node3" then ⟨0, fun real => real - nanosPerSecond⟩
  else if node = "node2" then ⟨0, fun real => real + nanosPerSecond⟩
  else exactClocks node

-- A lock of ten seconds, taken over at the instant it expires.
def handover : List (LeaseEntry "/service/pg/leader") :=
  [⟨.acquire "node1", 100 * nanosPerSecond, 100 * nanosPerSecond, "node3"⟩,
   ⟨.acquire "node2", 110 * nanosPerSecond, 110 * nanosPerSecond, "node3"⟩]

theorem lease_expired_before_takeover_handover :
    LeaseCovers exactClocks 10 2 handover ∧
      ((exactClocks "node1").expired
        (LeaseEntry.lease exactClocks 10 2
          (⟨.acquire "node1", 100 * nanosPerSecond, 100 * nanosPerSecond, "node3"⟩ :
            LeaseEntry "/service/pg/leader") "node1") (110 * nanosPerSecond)) = true := by
  have covers := lease_expired_before_takeover exactClocks 10 2 handover 0
    (by simp [WithinSkew, exactClocks]) (by decide)
    ⟨by decide, by decide, by decide⟩ (by unfold StampedInOrder; decide)
      (by unfold StampsFit; decide)
  exact ⟨covers, covers [] _ [] _ [] "node1" "node2" rfl rfl rfl rfl rfl (by decide)⟩

-- The first stamp drops 0.9 ms and the clocks use up the whole margin of two
-- seconds.
def truncatedRun : List (LeaseEntry "/service/pg/leader") :=
  [⟨.acquire "node1", 100000900000, 100000900000, "node3"⟩,
   ⟨.acquire "node2", 108 * nanosPerSecond, 108 * nanosPerSecond, "node2"⟩]

-- A renewal stamped at 103 s enters the log after the one stamped at 108 s.
def overtakenRun : List (LeaseEntry "/service/pg/leader") :=
  [⟨.acquire "node1", 100 * nanosPerSecond, 100 * nanosPerSecond, "node3"⟩,
   ⟨.renew "node1", 108 * nanosPerSecond, 108 * nanosPerSecond, "node3"⟩,
   ⟨.renew "node1", 103 * nanosPerSecond, 103 * nanosPerSecond, "node3"⟩,
   ⟨.acquire "node2", 113 * nanosPerSecond, 113 * nanosPerSecond, "node3"⟩]

-- With this TTL the expiry wraps around to 384 ms after the stamp.
def wrappingTtl : Nat := 18446744073709552

def wrappedRun : List (LeaseEntry "/service/pg/leader") :=
  [⟨.acquire "node1", 100 * nanosPerSecond, 100 * nanosPerSecond, "node3"⟩,
   ⟨.acquire "node2", 101 * nanosPerSecond, 101 * nanosPerSecond, "node3"⟩]

/-- The lease outlives the lock by less than a millisecond when the clocks use
up the margin, and by any time when a request is overtaken or the expiry wraps. -/
theorem lease_outlives_lock :
    (WithinSkew skewedClocks (2 * nanosPerSecond / 2) ∧
      Anchored skewedClocks 10 2 truncatedRun ∧ ¬ LeaseCovers skewedClocks 10 2 truncatedRun) ∧
    (WithinSkew exactClocks 0 ∧ Anchored exactClocks 10 2 overtakenRun ∧
      ¬ LeaseCovers exactClocks 10 2 overtakenRun) ∧
    (WithinSkew exactClocks 0 ∧ Anchored exactClocks wrappingTtl 2 wrappedRun ∧
      ¬ LeaseCovers exactClocks wrappingTtl 2 wrappedRun) := by
  refine ⟨⟨?_, ⟨by decide, by decide, by decide⟩, ?_⟩,
    ⟨by simp [WithinSkew, exactClocks], ⟨by decide, by decide, by decide⟩, ?_⟩,
    ⟨by simp [WithinSkew, exactClocks], ⟨by decide, by decide, by decide⟩, ?_⟩⟩
  · intro node real
    unfold skewedClocks
    split
    · dsimp only
      omega
    · split
      · dsimp only
        omega
      · dsimp only [exactClocks]
        omega
  · intro covers
    have expired := covers [] _ [] _ [] "node1" "node2" rfl rfl rfl rfl rfl (by decide)
    exact absurd expired (by decide)
  · intro covers
    have expired := covers [_] _ [_] _ [] "node1" "node2" rfl rfl rfl rfl rfl (by decide)
    exact absurd expired (by decide)
  · intro covers
    have expired := covers [] _ [] _ [] "node1" "node2" rfl rfl rfl rfl rfl (by decide)
    exact absurd expired (by decide)

end PgHa.Lease
