import PgHa.LeaderLock

/-!
Nodes writing through `RaftDcs::propose`. `bounded_write` gives up after
`retry_timeout`: the caller is told the write failed, while the request may
still be stamped, appended and applied at any later point of the log, or never.
A request keeps the number under which it was issued; the log is newest first.
`setSync`, `setConfig` and `setFailover` are the plain Sets of the shared keys.
-/

namespace PgHa.BoundedWrite

open StateMachine RaftDcs LeaderLock Transition

inductive ClientOp where
  | acquire (ttl : Nat)
  | renew (ttl : Nat)
  | release
  | setSync (value : String)
  | setConfig (value : String)
  | setFailover (value : String) (lockTtl : Nat)
  deriving DecidableEq

-- `answered` remembers how many requests had been issued by then.
inductive Caller where
  | waiting
  | answered (issued : Nat)
  | abandoned
  deriving DecidableEq

structure Ticket where
  node : String
  op : ClientOp
  reply : Option Response
  lost : Bool
  caller : Caller
  deriving DecidableEq

structure World (base : String) where
  sm : KvStateMachine
  issued : Nat
  tickets : Nat → Option Ticket
  log : List (Option Nat × Applied (leaderPath base))
  dropped : List (String × Nat)

def World.init (base : String) : World base := ⟨.new, 0, fun _ => none, [], []⟩

inductive Act where
  | issue (node : String) (op : ClientOp)
  | commit (id stamp : Nat)
  | lose (id : Nat)
  | answer (id : Nat)
  | timeOut (id : Nat)
  | expire (now : Nat)
  | other (request : Request)
  | dropStandby (name : String)

def ClientOp.isLock : ClientOp → Bool
  | .acquire _ | .renew _ | .release => true
  | .setSync _ | .setConfig _ | .setFailover _ _ => false

def ClientOp.key (base : String) : ClientOp → String
  | .acquire _ | .renew _ | .release => leaderPath base
  | .setSync _ => syncPath base
  | .setConfig _ => configPath base
  | .setFailover _ _ => failoverPath base

theorem sync_apart (base value : String) (now : Nat) :
    ¬ Touches (leaderPath base) (setSyncRequest base value now) := by
  simp [Touches, setSyncRequest, plainSetRequest, syncPath, leaderPath]

theorem config_apart (base value : String) (now : Nat) :
    ¬ Touches (leaderPath base) (setConfigRequest base value now) := by
  simp [Touches, setConfigRequest, plainSetRequest, configPath, leaderPath]

theorem failover_apart (base value : String) (lockTtl now : Nat) :
    ¬ Touches (leaderPath base) (setFailoverRequest base value lockTtl now) := by
  simp [Touches, setFailoverRequest, plainSetRequest, failoverPath, leaderPath]

-- The log entry a request of `node` becomes when it is appended at `stamp`.
def ClientOp.logOp (base node : String) (stamp : Nat) : ClientOp → LogOp (leaderPath base)
  | .acquire ttl => .acquire node ttl stamp
  | .renew ttl => .renew node ttl stamp
  | .release => .release node
  | .setSync value => .other (setSyncRequest base value stamp) (sync_apart base value stamp)
  | .setConfig value => .other (setConfigRequest base value stamp) (config_apart base value stamp)
  | .setFailover value lockTtl => .other (setFailoverRequest base value lockTtl stamp)
      (failover_apart base value lockTtl stamp)

-- The keys written through tickets; other traffic leaves them alone.
def sharedKeys (base : String) : List String :=
  [leaderPath base, syncPath base, configPath base, failoverPath base]

variable {base : String}

def World.update (world : World base) (id : Nat) (ticket : Ticket) : World base :=
  { world with tickets := fun i => if i = id then some ticket else world.tickets i }

-- The HA loop awaits its lock writes one at a time.
def World.lockIdle (world : World base) (node : String) : Bool :=
  (List.range world.issued).all fun id =>
    match world.tickets id with
    | some ticket => !(ticket.node == node && ticket.op.isLock && ticket.caller == .waiting)
    | none => true

def World.append (world : World base) (source : Option Nat) (op : LogOp (leaderPath base)) :
    World base × Response :=
  let index := world.log.length + 1
  let result := apply 0 world.sm op.request index
  ({ world with sm := result.1, log := (source, ⟨index, op, result.2⟩) :: world.log }, result.2)

def Ticket.applied (ticket : Ticket) (reply : Response) : Ticket :=
  { ticket with reply := some reply }

def Ticket.lose (ticket : Ticket) : Ticket := { ticket with lost := true }

def Ticket.answer (ticket : Ticket) (issued : Nat) : Ticket :=
  { ticket with caller := .answered issued }

def Ticket.timeOut (ticket : Ticket) : Ticket := { ticket with caller := .abandoned }

def step (world : World base) : Act → Option (World base)
  | .issue node op =>
      if op.isLock && !world.lockIdle node then none
      else some { world.update world.issued ⟨node, op, none, false, .waiting⟩ with
        issued := world.issued + 1 }
  | .commit id stamp =>
      match world.tickets id with
      | some ticket =>
          if ticket.reply.isNone && !ticket.lost && stamp != 0 then
            let appended := world.append (some id) (ticket.op.logOp base ticket.node stamp)
            some (appended.1.update id (ticket.applied appended.2))
          else none
      | none => none
  | .lose id =>
      match world.tickets id with
      | some ticket =>
          if ticket.reply.isNone then some (world.update id ticket.lose) else none
      | none => none
  | .answer id =>
      match world.tickets id with
      | some ticket =>
          if ticket.reply.isSome && ticket.caller == .waiting then
            some (world.update id (ticket.answer world.issued))
          else none
      | none => none
  | .timeOut id =>
      match world.tickets id with
      | some ticket =>
          if ticket.caller == .waiting then
            some (world.update id ticket.timeOut)
          else none
      | none => none
  | .expire now => if now != 0 then some (world.append none (.expire now)).1 else none
  | .other request =>
      if apart : ∀ key ∈ sharedKeys base, ¬ Touches key request then
        some (world.append none (.other request (apart _ List.mem_cons_self))).1
      else none
  | .dropStandby name => some { world with dropped := (name, world.issued) :: world.dropped }

-- What a step can do, guards included.
inductive Stepped (world : World base) : Act → World base → Prop where
  | issue (node : String) (op : ClientOp)
      (idle : op.isLock = true → world.lockIdle node = true) :
      Stepped world (.issue node op)
        { world.update world.issued ⟨node, op, none, false, .waiting⟩ with
          issued := world.issued + 1 }
  | commit (id stamp : Nat) (ticket : Ticket) (found : world.tickets id = some ticket)
      (unapplied : ticket.reply = none) (kept : ticket.lost = false) (nonzero : stamp ≠ 0) :
      Stepped world (.commit id stamp)
        ((world.append (some id) (ticket.op.logOp base ticket.node stamp)).1.update id
          (ticket.applied (world.append (some id) (ticket.op.logOp base ticket.node stamp)).2))
  | lose (id : Nat) (ticket : Ticket) (found : world.tickets id = some ticket)
      (unapplied : ticket.reply = none) : Stepped world (.lose id) (world.update id ticket.lose)
  | answer (id : Nat) (ticket : Ticket) (found : world.tickets id = some ticket)
      (applied : ticket.reply.isSome = true) (waiting : ticket.caller = .waiting) :
      Stepped world (.answer id) (world.update id (ticket.answer world.issued))
  | timeOut (id : Nat) (ticket : Ticket) (found : world.tickets id = some ticket)
      (waiting : ticket.caller = .waiting) :
      Stepped world (.timeOut id) (world.update id ticket.timeOut)
  | expire (now : Nat) (nonzero : now ≠ 0) :
      Stepped world (.expire now) (world.append none (.expire now)).1
  | other (request : Request) (apart : ∀ key ∈ sharedKeys base, ¬ Touches key request) :
      Stepped world (.other request)
        (world.append none (.other request (apart _ List.mem_cons_self))).1
  | dropStandby (name : String) :
      Stepped world (.dropStandby name)
        { world with dropped := (name, world.issued) :: world.dropped }

theorem step_stepped {world after : World base} {act : Act}
    (stepped : step world act = some after) : Stepped world act after := by
  cases act with
  | issue node op =>
      simp only [step] at stepped
      split at stepped
      · cases stepped
      · rename_i free
        cases stepped
        exact .issue node op (by simpa using free)
  | commit id stamp =>
      simp only [step] at stepped
      split at stepped
      · rename_i ticket found
        split at stepped
        · rename_i open_
          simp only [Bool.and_eq_true, Option.isNone_iff_eq_none, Bool.not_eq_true',
            bne_iff_ne] at open_
          cases stepped
          exact .commit id stamp ticket found open_.1.1 open_.1.2 open_.2
        · cases stepped
      · cases stepped
  | lose id =>
      simp only [step] at stepped
      split at stepped
      · rename_i ticket found
        split at stepped
        · rename_i unapplied
          cases stepped
          exact .lose id ticket found (by simpa using unapplied)
        · cases stepped
      · cases stepped
  | answer id =>
      simp only [step] at stepped
      split at stepped
      · rename_i ticket found
        split at stepped
        · rename_i ready
          simp only [Bool.and_eq_true, beq_iff_eq] at ready
          cases stepped
          exact .answer id ticket found ready.1 ready.2
        · cases stepped
      · cases stepped
  | timeOut id =>
      simp only [step] at stepped
      split at stepped
      · rename_i ticket found
        split at stepped
        · rename_i waiting
          cases stepped
          exact .timeOut id ticket found (by simpa using waiting)
        · cases stepped
      · cases stepped
  | expire now =>
      simp only [step] at stepped
      split at stepped
      · rename_i nonzero
        cases stepped
        exact .expire now (by simpa using nonzero)
      · cases stepped
  | other request =>
      simp only [step] at stepped
      split at stepped
      · rename_i apart
        cases stepped
        exact .other request apart
      · cases stepped
  | dropStandby name =>
      cases stepped
      exact .dropStandby name

/-- Ticket numbers are fresh, and the log holds the answers the tickets have. -/
structure WellFormed (world : World base) : Prop where
  fresh : ∀ id ticket, world.tickets id = some ticket → id < world.issued
  logged : ∀ id entry, (some id, entry) ∈ world.log → ∃ ticket stamp,
    world.tickets id = some ticket ∧ ticket.reply = some entry.reply ∧ stamp ≠ 0 ∧
      entry.op = ticket.op.logOp base ticket.node stamp

-- A new state of a ticket that is its old one for the log.
theorem wellFormed_update {world : World base} (formed : WellFormed world) {id : Nat}
    {ticket changed : Ticket} (found : world.tickets id = some ticket)
    (node : changed.node = ticket.node) (op : changed.op = ticket.op)
    (reply : changed.reply = ticket.reply) : WellFormed (world.update id changed) := by
  constructor
  · intro other current present
    by_cases same : other = id
    · subst other
      exact formed.fresh id ticket found
    · exact formed.fresh other current (by simpa [World.update, same] using present)
  · intro other entry member
    obtain ⟨current, stamp, present, answer, nonzero, source⟩ :=
      formed.logged other entry member
    by_cases same : other = id
    · subst other
      rw [found, Option.some.injEq] at present
      subst current
      exact ⟨changed, stamp, by simp [World.update], by rw [reply, answer], nonzero,
        by rw [op, node, source]⟩
    · exact ⟨current, stamp,
        by simpa [World.update, same] using present, answer, nonzero, source⟩

theorem wellFormed_append {world : World base} (formed : WellFormed world)
    (op : LogOp (leaderPath base)) : WellFormed (world.append none op).1 := by
  constructor
  · exact formed.fresh
  · intro id entry member
    simp only [World.append, List.mem_cons, Prod.mk.injEq, reduceCtorEq, false_and,
      false_or] at member
    exact formed.logged id entry member

theorem wellFormed_step {world after : World base} {act : Act} (formed : WellFormed world)
    (stepped : Stepped world act after) : WellFormed after := by
  cases stepped with
  | issue node op idle =>
      constructor
      · intro id ticket present
        by_cases same : id = world.issued
        · simp [same]
        · have old := formed.fresh id ticket (by simpa [World.update, same] using present)
          exact Nat.lt_succ_of_lt old
      · intro id entry member
        obtain ⟨ticket, stamp, present, rest⟩ := formed.logged id entry member
        have older : id ≠ world.issued := Nat.ne_of_lt (formed.fresh id ticket present)
        exact ⟨ticket, stamp, by simpa [World.update, older] using present, rest⟩
  | commit id stamp ticket found unapplied kept nonzero =>
      constructor
      · intro other current present
        by_cases same : other = id
        · subst other
          exact formed.fresh id ticket found
        · exact formed.fresh other current
            (by simpa [World.update, World.append, same] using present)
      · intro other entry member
        simp only [World.update, World.append, List.mem_cons, Prod.mk.injEq,
          Option.some.injEq] at member
        rcases member with ⟨same, isNew⟩ | old
        · subst other entry
          exact ⟨ticket.applied _, stamp, if_pos rfl, rfl, nonzero, rfl⟩
        · obtain ⟨current, earlier, present, answer, rest⟩ := formed.logged other entry old
          have apart : other ≠ id := by
            rintro rfl
            rw [found, Option.some.injEq] at present
            simp [← present, unapplied] at answer
          exact ⟨current, earlier, by simpa [World.update, World.append, apart] using present,
            answer, rest⟩
  | lose id ticket found unapplied => exact wellFormed_update formed found rfl rfl rfl
  | answer id ticket found applied waiting => exact wellFormed_update formed found rfl rfl rfl
  | timeOut id ticket found waiting => exact wellFormed_update formed found rfl rfl rfl
  | expire now nonzero => exact wellFormed_append formed _
  | other request apart => exact wellFormed_append formed _
  | dropStandby name => exact ⟨formed.fresh, formed.logged⟩

theorem wellFormed_init : WellFormed (World.init base) := by
  constructor
  · intro id ticket present
    simp [World.init] at present
  · intro id entry member
    simp [World.init] at member

end PgHa.BoundedWrite
