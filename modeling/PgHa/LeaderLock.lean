import PgHa.RaftDcs
import PgHa.Transition

/-!
Exclusivity of the leader lock at the level of the replicated log. A log entry
is one of the forms `RaftDcs` issues for the lock, an `ExpireKeys`, or a
request that leaves the lock's key alone. Stamps are whatever the appending
Raft leader's clock showed: they may go back from one entry to the next.
-/

namespace PgHa.LeaderLock

open StateMachine RaftDcs Transition

/-- The request writes, deletes or covers `leader`. -/
def Touches (leader : String) : Request → Prop
  | .set key _ _ _ _ _ _ => key = leader
  | .delete key _ recursive =>
      if recursive then startsWith leader key = true else key = leader
  | .expireKeys _ => True

instance (leader : String) : (request : Request) → Decidable (Touches leader request)
  | .set _ _ _ _ _ _ _ => inferInstanceAs (Decidable (_ = _))
  | .delete _ _ recursive => inferInstanceAs (Decidable (if recursive then _ = true else _ = _))
  | .expireKeys _ => .isTrue trivial

inductive LogOp (leader : String) where
  | acquire (node : String) (ttl now : Nat)
  | renew (node : String) (ttl now : Nat)
  | release (node : String)
  | expire (now : Nat)
  | other (request : Request) (apart : ¬ Touches leader request)

variable {leader : String}

def LogOp.request : LogOp leader → Request
  | .acquire node ttl now => acquireRequest leader node ttl now
  | .renew node ttl now => renewRequest leader node ttl now
  | .release node => releaseRequest leader node
  | .expire now => .expireKeys now
  | .other request _ => request

/-- The stamp of an entry that can end a lease: a Set on the lock's key or an
`ExpireKeys`. -/
def LogOp.stamp : LogOp leader → Option Nat
  | .acquire _ _ now | .renew _ _ now | .expire now => some now
  | .release _ | .other _ _ => none

/-- The node and the `expire_at` of a write of the lock. -/
def LogOp.lockWrite : LogOp leader → Option (String × Nat)
  | .acquire node ttl now | .renew node ttl now => some (node, expiry now ttl)
  | .release _ | .expire _ | .other _ _ => none

structure Applied (leader : String) where
  index : Nat
  op : LogOp leader
  reply : Response

/-- `node` wrote the lock and was answered Ok; the write expires at `exp`. -/
def Applied.Granted (entry : Applied leader) (node : String) (exp : Nat) : Prop :=
  entry.op.lockWrite = some (node, exp) ∧ entry.reply.succeeded = true

def Applied.Released (entry : Applied leader) (node : String) : Prop :=
  entry.op = .release node ∧ entry.reply.succeeded = true

def Applied.StampReaches (entry : Applied leader) (exp : Nat) : Prop :=
  ∃ now, entry.op.stamp = some now ∧ exp ≤ now

/-- Applies a log of (index, entry) pairs and records every answer. -/
def applyLog (clock : Nat) : KvStateMachine → List (Nat × LogOp leader) → List (Applied leader)
  | _, [] => []
  | sm, (index, op) :: rest =>
      let result := apply clock sm op.request index
      ⟨index, op, result.2⟩ :: applyLog clock result.1 rest

/-- The state after a log. -/
def stateAfter (clock : Nat) : KvStateMachine → List (Nat × LogOp leader) → KvStateMachine
  | sm, [] => sm
  | sm, (index, op) :: rest => stateAfter clock (apply clock sm op.request index).1 rest

-- The lock names `node` and its entry does not expire before `exp`.
def HeldBy (leader node : String) (exp : Nat) (sm : KvStateMachine) : Prop :=
  ∃ entry bound, sm.data leader = some entry ∧ entry.value = node ∧
    entry.expireAt = some bound ∧ exp ≤ bound

/-- The appending leader's clock was past the epoch. -/
def LogOp.Stamped (op : LogOp leader) : Prop := ∀ now, op.stamp = some now → now ≠ 0

theorem untouched_data (clock : Nat) (sm : KvStateMachine) (request : Request) (index : Nat)
    (apart : ¬ Touches leader request) :
    (apply clock sm request index).1.data leader = sm.data leader := by
  cases request with
  | set key value ttl prevExist prevValue prevVersion now =>
      have other : leader ≠ key := fun same => apart same.symm
      simp only [apply]
      rcases applySet_cases clock { sm with lastAppliedLog := index } key value ttl prevExist
        prevValue prevVersion now with same | ⟨current, _, _, _, _, written⟩
      · rw [same]
      · rw [written]
        exact insert_other sm.data key leader _ other
  | delete key prevValue recursive =>
      simp only [apply]
      cases recursive with
      | true =>
          simp only [Touches, ↓reduceIte, Bool.not_eq_true] at apart
          simp [applyDelete, apart]
      | false =>
          have other : leader ≠ key := fun same => apart (by simp [Touches, same])
          rcases applyDelete_cases { sm with lastAppliedLog := index } key prevValue with
            same | ⟨entry, _, _, removed⟩
          · rw [same]
          · rw [removed]
            exact remove_other sm.data key leader other
  | expireKeys now => exact absurd trivial apart

/-- A Set of the lock that was answered Ok left exactly its own entry. -/
theorem set_granted_held (clock : Nat) (sm : KvStateMachine) (node : String) (ttl now : Nat)
    (prevExist : Option Bool) (prevValue : Option String) (index : Nat) (nonzero : now ≠ 0)
    (granted : (apply clock sm (.set leader node (some ttl) prevExist prevValue none now)
      index).2.succeeded = true) :
    HeldBy leader node (expiry now ttl)
      (apply clock sm (.set leader node (some ttl) prevExist prevValue none now) index).1 := by
  simp only [apply] at granted ⊢
  rcases applySet_cases clock { sm with lastAppliedLog := index } leader node (some ttl) prevExist
    prevValue none now with same | ⟨current, _, _, _, _, written⟩
  · simp [same, Response.succeeded] at granted
  · rw [written, effectiveNow_nonzero clock now nonzero]
    exact ⟨_, _, insert_same _ _ _, rfl, rfl, Nat.le_refl _⟩

theorem granted_held (clock : Nat) (sm : KvStateMachine) (op : LogOp leader) (index : Nat)
    (node : String) (exp : Nat) (stamped : op.Stamped)
    (granted : Applied.Granted ⟨index, op, (apply clock sm op.request index).2⟩ node exp) :
    HeldBy leader node exp (apply clock sm op.request index).1 := by
  obtain ⟨write, success⟩ := granted
  cases op with
  | acquire writer ttl now =>
      simp only [LogOp.lockWrite, Option.some.injEq, Prod.mk.injEq] at write
      obtain ⟨rfl, rfl⟩ := write
      exact set_granted_held clock sm writer ttl now _ _ index (stamped now rfl) success
  | renew writer ttl now =>
      simp only [LogOp.lockWrite, Option.some.injEq, Prod.mk.injEq] at write
      obtain ⟨rfl, rfl⟩ := write
      exact set_granted_held clock sm writer ttl now _ _ index (stamped now rfl) success
  | release _ => simp [LogOp.lockWrite] at write
  | expire _ => simp [LogOp.lockWrite] at write
  | other _ _ => simp [LogOp.lockWrite] at write

/-- A Set of the lock is refused while an unexpired entry stands against its
condition. -/
theorem set_refused (clock : Nat) (sm : KvStateMachine) (key value : String) (ttl : Option Nat)
    (prevExist : Option Bool) (prevValue : Option String) (now index : Nat) (entry : KvEntry)
    (nonzero : now ≠ 0) (found : sm.data key = some entry) (alive : live now entry = true)
    (blocked : existPasses prevExist (some entry) = false ∨
      valuePasses prevValue (some entry) = false) :
    apply clock sm (.set key value ttl prevExist prevValue none now) index =
      ({ sm with lastAppliedLog := index }, .notChanged) := by
  have current : (sm.data key).filter (live now) = some entry :=
    (filter_live_some now _ entry).mpr ⟨found, alive⟩
  simp only [apply, applySet, effectiveNow_nonzero clock now nonzero, current]
  rcases blocked with exist | value <;> simp [*]

/-- An entry that was answered NotChanged leaves the lock held and grants nothing. -/
theorem held_unchanged {clock index exp : Nat} {sm : KvStateMachine} {op : LogOp leader}
    {node : String} (held : HeldBy leader node exp sm)
    (refused : (apply clock sm op.request index).2 = .notChanged) :
    HeldBy leader node exp (apply clock sm op.request index).1 ∧
      ∀ other later, ¬ Applied.Granted ⟨index, op, (apply clock sm op.request index).2⟩ other
        later := by
  constructor
  · obtain ⟨stored, limit, found, rest⟩ := held
    exact ⟨stored, limit,
      (congrFun (notChanged_data clock sm op.request index refused) leader).trans
      found, rest⟩
  · rintro other later ⟨_, success⟩
    simp [refused, Response.succeeded] at success

/-- One entry on a lock held by `node` until `exp`. -/
theorem held_step (clock : Nat) (sm : KvStateMachine) (op : LogOp leader) (index : Nat)
    (node : String) (exp : Nat) (stamped : op.Stamped) (held : HeldBy leader node exp sm) :
    let result := apply clock sm op.request index
    let entry : Applied leader := ⟨index, op, result.2⟩
    (∃ ttl now, op = .renew node ttl now ∧ result.2.succeeded = true) ∨
      entry.Released node ∨ entry.StampReaches exp ∨
      (HeldBy leader node exp result.1 ∧ ∀ other later, ¬ entry.Granted other later) := by
  intro result entry
  have unchanged : result.2 = .notChanged →
      HeldBy leader node exp result.1 ∧ ∀ other later, ¬ entry.Granted other later :=
    held_unchanged held
  obtain ⟨stored, limit, found, owner, bound, reaches⟩ := held
  -- A Set by another node, or an acquire by the owner, meets a live entry.
  have refusedSet : ∀ (writer : String) (ttl now : Nat) (prevExist : Option Bool)
      (prevValue : Option String), now ≠ 0 → now < exp →
      (existPasses prevExist (some stored) = false ∨
        valuePasses prevValue (some stored) = false) →
      apply clock sm (.set leader writer (some ttl) prevExist prevValue none now) index =
        ({ sm with lastAppliedLog := index }, .notChanged) := by
    intro writer ttl now prevExist prevValue nonzero before blocked
    refine set_refused clock sm leader writer _ prevExist prevValue now index stored nonzero
      found ?_ blocked
    simp only [live, bound, decide_eq_true_eq]
    omega
  cases op with
  | acquire writer ttl now =>
      by_cases reached : exp ≤ now
      · exact Or.inr (Or.inr (Or.inl ⟨now, rfl, reached⟩))
      · have refused := refusedSet writer ttl now (some false) none (stamped now rfl)
          (by omega) (Or.inl rfl)
        exact Or.inr (Or.inr (Or.inr (unchanged (congrArg Prod.snd refused))))
  | renew writer ttl now =>
      by_cases reached : exp ≤ now
      · exact Or.inr (Or.inr (Or.inl ⟨now, rfl, reached⟩))
      · by_cases same : writer = node
        · by_cases success : result.2.succeeded = true
          · exact Or.inl ⟨ttl, now, by rw [same], success⟩
          · refine Or.inr (Or.inr (Or.inr (unchanged ?_)))
            cases reply : result.2 with
            | ok version => simp [reply, Response.succeeded] at success
            | notChanged => rfl
        · have refused := refusedSet writer ttl now none (some writer) (stamped now rfl)
            (by omega) (Or.inr (by simp [valuePasses, owner, Ne.symm same]))
          exact Or.inr (Or.inr (Or.inr (unchanged (congrArg Prod.snd refused))))
  | release writer =>
      by_cases same : writer = node
      · subst writer
        refine Or.inr (Or.inl ⟨rfl, ?_⟩)
        simp [entry, result, LogOp.request, releaseRequest, apply, applyDelete, found,
          valuePasses, owner, Response.succeeded]
      · refine Or.inr (Or.inr (Or.inr ⟨?_, fun _ _ granted => by cases granted.1⟩))
        refine ⟨stored, limit, ?_, owner, bound, reaches⟩
        simp [result, LogOp.request, releaseRequest, apply, applyDelete, found, valuePasses,
          owner, Ne.symm same]
  | expire now =>
      by_cases reached : exp ≤ now
      · exact Or.inr (Or.inr (Or.inl ⟨now, rfl, reached⟩))
      · refine Or.inr (Or.inr (Or.inr ⟨?_, fun _ _ granted => by cases granted.1⟩))
        have before : now < limit := by omega
        exact ⟨stored, limit, by simp [result, LogOp.request, apply, applyExpire, found,
          Option.filter, live, bound, before], owner, bound, reaches⟩
  | other request apart =>
      refine Or.inr (Or.inr (Or.inr ⟨?_, fun _ _ granted => by cases granted.1⟩))
      exact ⟨stored, limit, (untouched_data clock sm request index apart).trans found, owner,
        bound, reaches⟩

/-- While nothing in the log ends the holder's term, nobody else is granted
the lock. -/
theorem held_log (clock : Nat) (node : String) (exp : Nat) (sm : KvStateMachine)
    (log : List (Nat × LogOp leader)) (stamped : ∀ entry ∈ log, entry.2.Stamped)
    (held : HeldBy leader node exp sm)
    (kept : ∀ entry ∈ applyLog clock sm log,
      (∀ later, ¬ entry.Granted node later) ∧ ¬ entry.Released node ∧
        ¬ entry.StampReaches exp) :
    ∀ entry ∈ applyLog clock sm log, ∀ other later, ¬ entry.Granted other later := by
  induction log generalizing sm with
  | nil => simp [applyLog]
  | cons head rest ih =>
      obtain ⟨index, op⟩ := head
      have first := kept _ (by simp only [applyLog]; exact List.mem_cons_self)
      have step := held_step clock sm op index node exp (stamped _ List.mem_cons_self) held
      rcases step with ⟨ttl, now, renewal,
        success⟩ | released | reached | ⟨heldAfter, nobody⟩
      · exact absurd ⟨by simp [renewal, LogOp.lockWrite], success⟩ (first.1 (expiry now ttl))
      · exact absurd released first.2.1
      · exact absurd reached first.2.2
      · intro entry member
        simp only [applyLog, List.mem_cons] at member
        rcases member with same | tail
        · subst entry
          exact nobody
        · exact ih _ (fun e m => stamped e (List.mem_cons_of_mem _ m)) heldAfter
            (fun e m => kept e (by simp only [applyLog]; exact List.mem_cons_of_mem _ m))
            entry tail

theorem applyLog_split (clock : Nat) (sm : KvStateMachine) (log : List (Nat × LogOp leader))
    (before after : List (Applied leader)) (parts : applyLog clock sm log = before ++ after) :
    ∃ logBefore logAfter, log = logBefore ++ logAfter ∧
      applyLog clock sm logBefore = before ∧
      applyLog clock (stateAfter clock sm logBefore) logAfter = after := by
  induction before generalizing sm log with
  | nil => exact ⟨[], log, rfl, rfl, parts⟩
  | cons entry rest ih =>
      cases log with
      | nil => simp [applyLog] at parts
      | cons head tail =>
          obtain ⟨index, op⟩ := head
          simp only [applyLog, List.cons_append, List.cons.injEq] at parts
          obtain ⟨logBefore, logAfter, split, front, back⟩ := ih _ tail parts.2
          refine ⟨(index, op) :: logBefore, logAfter, by simp [split], ?_, back⟩
          simp [applyLog, parts.1, front]

-- What lies between a grant to `holder` and a later grant to somebody else.
theorem term_ends_before_takeover (clock : Nat) (sm : KvStateMachine)
    (log : List (Nat × LogOp leader)) (stamped : ∀ entry ∈ log, entry.2.Stamped)
    (before between after : List (Applied leader)) (first second : Applied leader)
    (holder taker : String) (granted taken : Nat)
    (answers : applyLog clock sm log = before ++ first :: (between ++ second :: after))
    (grant : first.Granted holder granted) (take : second.Granted taker taken)
    (different : taker ≠ holder) :
    ∃ earlier last later exp, first :: between = earlier ++ last :: later ∧
      Applied.Granted last holder exp ∧
      (∀ entry ∈ later, ∀ e, ¬ Applied.Granted entry holder e) ∧
      ∃ entry ∈ later ++ [second],
        Applied.Released entry holder ∨ Applied.StampReaches entry exp := by
  obtain ⟨earlier, last, later, split, ⟨exp, isLast⟩, none⟩ :=
    exists_last_event (fun entry => ∃ e, Applied.Granted entry holder e) (first :: between)
      ⟨first, List.mem_cons_self, granted, grant⟩
  refine ⟨earlier, last, later, exp, split, isLast, fun entry member e holds =>
    none entry member ⟨e, holds⟩, ?_⟩
  by_contra never
  have answers' : applyLog clock sm log =
      (before ++ earlier) ++ last :: ((later ++ [second]) ++ after) := by
    have joined : first :: (between ++ second :: after) =
        (first :: between) ++ second :: after := rfl
    rw [answers, joined, split]
    simp
  obtain ⟨logBefore, logAfter, logSplit, _, back⟩ := applyLog_split clock sm log _ _ answers'
  cases logAfter with
  | nil => simp [applyLog] at back
  | cons head rest =>
      obtain ⟨index, op⟩ := head
      simp only [applyLog, List.cons.injEq] at back
      obtain ⟨lastEq, restEq⟩ := back
      obtain ⟨logLater, logEnd, restSplit, laterEq, _⟩ := applyLog_split clock _ rest _ _ restEq
      have stampedRest : ∀ entry ∈ (index, op) :: rest, entry.2.Stamped := fun entry member =>
        stamped entry (by rw [logSplit]; exact List.mem_append_right _ member)
      have held : HeldBy leader holder exp
          (apply clock (stateAfter clock sm logBefore) op.request index).1 := by
        apply granted_held clock _ op index holder exp (stampedRest _ List.mem_cons_self)
        rw [lastEq]
        exact isLast
      -- `second` would be the first grant to somebody else, yet nothing ended the term.
      refine held_log clock holder exp _ logLater ?_ held ?_ second ?_ taker taken take
      · intro entry member
        apply stampedRest entry
        rw [restSplit]
        exact List.mem_cons_of_mem _ (List.mem_append_left _ member)
      · intro entry member
        rw [laterEq] at member
        refine ⟨?_, fun released => never ⟨entry, member, Or.inl released⟩,
          fun reached => never ⟨entry, member, Or.inr reached⟩⟩
        intro e grantedEntry
        rcases List.mem_append.mp member with inLater | isSecond
        · exact none entry inLater ⟨e, grantedEntry⟩
        · have same := List.mem_singleton.mp isSecond
          subst entry
          have writers := take.1.symm.trans grantedEntry.1
          simp only [Option.some.injEq, Prod.mk.injEq] at writers
          exact different writers.1
      · rw [laterEq]
        simp

/-- Once `holder` was granted the lock, another node is granted it only after
`holder` released it or a stamp reached the `expire_at` of `holder`'s last
grant; and an entry answered `NotChanged` changes no key. -/
theorem leader_lock_exclusive (clock : Nat) (sm : KvStateMachine)
    (log : List (Nat × LogOp leader)) (stamped : ∀ entry ∈ log, entry.2.Stamped) :
    (∀ (before between after : List (Applied leader)) (first second : Applied leader)
      (holder taker : String) (granted taken : Nat),
      applyLog clock sm log = before ++ first :: (between ++ second :: after) →
      first.Granted holder granted → second.Granted taker taken → taker ≠ holder →
      ∃ earlier last later exp, first :: between = earlier ++ last :: later ∧
        Applied.Granted last holder exp ∧
        (∀ entry ∈ later, ∀ e, ¬ Applied.Granted entry holder e) ∧
        ∃ entry ∈ later ++ [second],
          Applied.Released entry holder ∨ Applied.StampReaches entry exp) ∧
    (∀ (state : KvStateMachine) (request : Request) (index : Nat),
      (apply clock state request index).2 = .notChanged →
      (apply clock state request index).1.data = state.data) := by
  constructor
  · intro before between after first second holder taker granted taken answers grant take different
    exact term_ends_before_takeover clock sm log stamped before between after first second holder
      taker granted taken answers grant take different
  · intro state request index refused
    exact notChanged_data clock state request index refused

/-- Node1's lock of one second is taken over by node2 at the exact stamp at
which it expires. -/
theorem leader_lock_exclusive_at_expiry :
    ∃ earlier last later exp,
      [(⟨1, .acquire "node1" 1 1000, .ok 1⟩ : Applied "/service/test/leader")] =
        earlier ++ last :: later ∧
      Applied.Granted last "node1" exp ∧
      (∀ entry ∈ later, ∀ e, ¬ Applied.Granted entry "node1" e) ∧
      ∃ entry ∈ later ++ [⟨2, .acquire "node2" 1 2000, .ok 2⟩],
        Applied.Released entry "node1" ∨ Applied.StampReaches entry exp :=
  (leader_lock_exclusive 0 .new
      [(1, .acquire "node1" 1 1000), (2, .acquire "node2" 1 2000)]
      (by simp [LogOp.Stamped, LogOp.stamp])).1
    [] [] [] _ _ "node1" "node2" 2000 3000 rfl ⟨rfl, rfl⟩ ⟨rfl, rfl⟩ (by decide)

end PgHa.LeaderLock
