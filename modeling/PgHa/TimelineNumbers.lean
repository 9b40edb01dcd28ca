import Mathlib.Data.List.Nodup
import PgHa.TimelineCover

/-!
When promotes keep timeline numbers apart. The record, with the base of its pending
entry, bounds every timeline in existence but the one that entry's node may create.
The program breaks the bound in four ways, each named by a `Clause`; a run free of
them never uses a number twice.
-/

namespace PgHa.TimelineNumbers

open Text Cluster LatestTimeline Transition TimelineProtocol

/-- What the code leaves open. `currentEvidence`: a pending promote is found void
from a member record that no longer describes the promoter. `voidBase`: a void
promote falls back to the record although its base is above it. `recordedRun`:
`pg_ctl promote` under a kept entry, in another server run or on another history
than the entry names. `holdAbove`: the Hold path clears another node's entry and
writes an own timeline below the one it resolved. -/
inductive Clause where
  | currentEvidence
  | voidBase
  | recordedRun
  | holdAbove
  deriving DecidableEq, Repr

/-- A write decided on the view can still commit. -/
def current (world : World) (view : View) : Bool := view.timeline.version == some world.version

/-- The promoter's server is no longer in the run of the entry, and it has no
history above the base. -/
def promoteOver (world : World) (p : PendingPromote) : Bool :=
  (world.nodes p.node).run != p.postmasterStart &&
    (world.nodes p.node).history.timeline ≤ p.baseTimeline

def pendingIn (view : View) : Option (TimelineRecord × PendingPromote) :=
  view.timeline.recordOf.bind fun record => record.pending.map fun p => (record, p)

/-- The clauses on deciding over another node's pending promote. -/
def foreignClause (world : World) (name : Str) (view : View) (clause : Clause)
    (record : TimelineRecord) (p : PendingPromote) : Bool :=
  match clause, view.latest with
  | .currentEvidence, .known _ _ (.pendingVoid _) => promoteOver world p
  | .voidBase, .known _ _ (.pendingVoid _) => p.base == record.id
  | .holdAbove, .known id _ _ => id.timeline ≤ (world.nodes name).history.timeline
  | _, _ => true

def decides (world : World) (name : Str) (clause : Clause) : Bool :=
  (world.nodes name).view.all fun view =>
    !current world view || (pendingIn view).all fun found =>
      found.2.node == name || foreignClause world name view clause found.1 found.2

def keepsClause (world : World) (act : Act) (clause : Clause) : Bool :=
  match act, clause with
  | .plan name, .currentEvidence | .plan name, .voidBase =>
      (world.nodes name).promotePending.isSome || decides world name clause
  | .hold name, .currentEvidence | .hold name, .voidBase | .hold name, .holdAbove =>
      decides world name clause
  | .promote name, .recordedRun =>
      let node := world.nodes name
      node.goAhead.all fun p => node.run == p.postmasterStart && node.history == p.base
  | _, _ => true

/-- The step keeps every clause but those waived. -/
def KeepsBut (waived : List Clause) (world : World) (act : Act) : Prop :=
  ∀ clause ∈ [Clause.currentEvidence, .voidBase, .recordedRun, .holdAbove],
    clause ∉ waived → keepsClause world act clause = true

instance (waived : List Clause) (world : World) (act : Act) :
    Decidable (KeepsBut waived world act) :=
  inferInstanceAs (Decidable (∀ clause ∈ [_, _, _, _], clause ∉ waived → _ = true))

def Keeps : World → Act → Prop := KeepsBut []

instance (world : World) (act : Act) : Decidable (Keeps world act) :=
  inferInstanceAs (Decidable (KeepsBut [] world act))

theorem keeps_clause {world : World} {act : Act} (keeps : Keeps world act) (clause : Clause) :
    keepsClause world act clause = true :=
  keeps clause (by cases clause <;> simp) (by simp)

section Step

variable {first : TimelineId} {generation : Nat} {world : World}

/-- The node's newest history is the highest there is, and no other node can
still create one. -/
structure Settled (first : TimelineId) (world : World) (name : Str) : Prop where
  top : ∀ promote ∈ world.promotes,
    promote.id.timeline ≤ (world.nodes name).history.timeline
  above : first.timeline ≤ (world.nodes name).history.timeline
  signalled : ∀ other, other ≠ name → (world.nodes other).signalled = false
  ready : ∀ other p, other ≠ name → ¬ Ready (world.nodes other) p

theorem settled_recorded {name : Str} (orderly : Orderly first generation world)
    (settled : world.record.pending = none)
    (reaches : world.record.timeline ≤ (world.nodes name).history.timeline) :
    Settled first world name := by
  have bound : limit world.record = world.record.id := by simp [limit, settled]
  have above := orderly.covered.above
  rw [bound] at above
  refine ⟨?_, Nat.le_trans above reaches, ?_, ?_⟩
  · intro promote member
    rcases orderly.covered.made promote member with lower | ⟨p, pending, _⟩
    · rw [bound] at lower
      exact Nat.le_trans lower reaches
    · simp [settled] at pending
  · intro other _
    by_contra given
    obtain ⟨p, pending, _⟩ := orderly.covered.signalled other (by simpa using given)
    simp [settled] at pending
  · intro other p _ ready
    simpa [settled] using orderly.covered.ready other p ready

/-- Only the entry's node can create a timeline, whoever decides. -/
theorem pending_only {p : PendingPromote} (orderly : Orderly first generation world)
    (pending : world.record.pending = some p) {other : Str} :
    ((world.nodes other).signalled = true → p.node = other ∧ Armed (world.nodes other) p) ∧
      ∀ q, Ready (world.nodes other) q → p.node = other ∧ Armed (world.nodes other) p := by
  constructor
  · intro given
    obtain ⟨q, found, named, armed⟩ := orderly.covered.signalled other given
    obtain rfl : p = q := Option.some.inj (pending.symm.trans found)
    exact ⟨named, armed⟩
  · intro q ready
    obtain rfl : p = q :=
      Option.some.inj (pending.symm.trans (orderly.covered.ready other q ready))
    exact ⟨(orderly.kept other p ready.kept).1, ready.toArmed⟩

theorem settled_own {name : Str} {p : PendingPromote} (orderly : Orderly first generation world)
    (pending : world.record.pending = some p) (mine : p.node = name) :
    Settled first world name := by
  have bound : (limit world.record).timeline = p.baseTimeline := by
    simp [limit, pending, PendingPromote.base]
  have based : p.baseTimeline ≤ (world.nodes name).history.timeline := by
    have entry := (orderly.covered.entry p pending).based
    rw [mine] at entry
    rcases entry with same | below
    · exact Nat.le_of_eq (congrArg TimelineId.timeline same)
    · exact Nat.le_of_lt below
  have above := orderly.covered.above
  rw [bound] at above
  refine ⟨?_, Nat.le_trans above based, ?_, ?_⟩
  · intro promote member
    rcases orderly.covered.made promote member with lower | ⟨q, found, node, _⟩
    · rw [bound] at lower
      exact Nat.le_trans lower based
    · obtain rfl : p = q := Option.some.inj (pending.symm.trans found)
      have held := orderly.owned promote member
      rwa [node, mine] at held
  · intro other apart
    by_contra given
    exact apart (((pending_only orderly pending).1 (by simpa using given)).1.symm.trans mine)
  · intro other q apart ready
    exact apart (((pending_only orderly pending).2 q ready).1.symm.trans mine)

/-- Another node's promote that cannot come any more: its node is not armed. -/
theorem settled_other {name : Str} {p : PendingPromote} (orderly : Orderly first generation world)
    (pending : world.record.pending = some p)
    (reaches : p.baseTimeline ≤ (world.nodes name).history.timeline)
    (ended : ¬ Armed (world.nodes p.node) p)
    (made : ∀ promote ∈ world.promotes, promote.node = p.node →
      promote.id.timeline = p.baseTimeline + 1 →
      promote.id.timeline ≤ (world.nodes name).history.timeline) :
    Settled first world name := by
  have bound : (limit world.record).timeline = p.baseTimeline := by
    simp [limit, pending, PendingPromote.base]
  have above := orderly.covered.above
  rw [bound] at above
  refine ⟨?_, Nat.le_trans above reaches, ?_, ?_⟩
  · intro promote member
    rcases orderly.covered.made promote member with lower | ⟨q, found, node, next⟩
    · rw [bound] at lower
      exact Nat.le_trans lower reaches
    · obtain rfl : p = q := Option.some.inj (pending.symm.trans found)
      rw [bound] at next
      exact made promote member node next
  · intro other _
    by_contra given
    obtain ⟨rfl, armed⟩ := (pending_only orderly pending).1 (by simpa using given)
    exact ended armed
  · intro other q _ ready
    obtain ⟨rfl, armed⟩ := (pending_only orderly pending).2 q ready
    exact ended armed

/-- A published history above the base was created by the entry's node, which has
left the base. -/
theorem evidence_created {p : PendingPromote} {members : List Member} {member : Member}
    {id : TimelineId} (orderly : Orderly first generation world)
    (pending : world.record.pending = some p)
    (evident : ∀ member ∈ members, Evident first generation world.promotes member)
    (listed : member ∈ members) (shown : aboveBase p member = some id) :
    (∃ promote ∈ world.promotes, promote.id = id ∧ promote.node = p.node) ∧
      id.timeline = p.baseTimeline + 1 := by
  obtain ⟨lineage, history, published, same, newest, higher, named⟩ := aboveBase_some shown
  have bound : (limit world.record).timeline = p.baseTimeline := by
    simp [limit, pending, PendingPromote.base]
  have there := evident member listed lineage published
    (same.trans (orderly.covered.entry p pending).generation) history newest
  rw [named] at there
  have higher : (limit world.record).timeline < id.timeline := by
    rw [bound, ← named]
    exact higher
  obtain ⟨q, promote, found, made, sameId, node, next⟩ :=
    existing_above orderly.covered there higher
  obtain rfl : p = q := Option.some.inj (pending.symm.trans found)
  rw [bound] at next
  exact ⟨⟨promote, made, sameId, node⟩, next⟩

theorem settled_created {name : Str} {p : PendingPromote} {members : List Member}
    {member : Member} {id : TimelineId} (orderly : Orderly first generation world)
    (pending : world.record.pending = some p)
    (evident : ∀ member ∈ members, Evident first generation world.promotes member)
    (listed : member ∈ members) (shown : aboveBase p member = some id)
    (reaches : id.timeline ≤ (world.nodes name).history.timeline) :
    Settled first world name := by
  obtain ⟨⟨promote, made, sameId, node⟩, next⟩ :=
    evidence_created orderly pending evident listed shown
  refine settled_other orderly pending (by omega) ?_ (fun other _ _ number => by omega)
  intro armed
  have held := orderly.owned promote made
  rw [node, armed.sameBase, sameId] at held
  simp only [PendingPromote.base] at held
  omega

theorem settled_void {name : Str} {p : PendingPromote} (orderly : Orderly first generation world)
    (pending : world.record.pending = some p) (ended : promoteOver world p = true)
    (reaches : p.baseTimeline ≤ (world.nodes name).history.timeline) :
    Settled first world name := by
  simp only [promoteOver, Bool.and_eq_true, bne_iff_ne, ne_eq, decide_eq_true_eq] at ended
  refine settled_other orderly pending reaches (fun armed => ended.1 armed.sameRun) ?_
  intro promote member node number
  have held := orderly.owned promote member
  rw [node] at held
  omega

/-- Deciding over another node's pending promote, with every clause kept. -/
theorem settled_foreign {name : Str} {p : PendingPromote} {view : View} {id : TimelineId}
    {seen : Nat} {via : LatestVia} (orderly : Orderly first generation world)
    (pending : world.record.pending = some p)
    (shown : view.timeline = .record world.record world.version)
    (evident : ∀ member ∈ view.members, Evident first generation world.promotes member)
    (known : view.latest = .known id seen via)
    (clauses : ∀ clause, clause = .currentEvidence ∨ clause = .voidBase →
      foreignClause world name view clause world.record p = true)
    (reaches : id.timeline ≤ (world.nodes name).history.timeline) :
    Settled first world name := by
  have resolved : view.latest = resolvePending world.record p view.members := by
    simp [View.latest, shown, resolveLatest, pending]
  rcases resolvePending_cases world.record p view.members with
    ⟨member, listed, found, above, created⟩ | ⟨_, void⟩ | unresolved | ⟨reason,
      conflict, _⟩
  · have same : found = id := by
      rw [resolved, created] at known
      exact (Latest.known.inj known).1
    subst found
    exact settled_created orderly pending evident listed above reaches
  · have latest := resolved.trans void
    have same : world.record.id = id := by
      rw [latest] at known
      exact (Latest.known.inj known).1
    have ended := clauses .currentEvidence (.inl rfl)
    have base := clauses .voidBase (.inr rfl)
    simp only [foreignClause, latest] at ended base
    rw [beq_iff_eq, same] at base
    refine settled_void orderly pending ended ?_
    have number : p.baseTimeline = id.timeline := congrArg TimelineId.timeline base
    omega
  · rw [resolved, unresolved] at known
    cases known
  · rw [resolved, conflict] at known
    cases known

theorem settled_entry {name run : Str} (orderly : Orderly first generation world)
    (settled : Settled first world name) (own : (world.nodes name).generation = generation)
    (running : (world.nodes name).run = some run)
    (free : (world.nodes name).promotePending = none) :
    Covered first generation world
      { world.record with
        pending := some ⟨name, (world.nodes name).history.timeline,
          (world.nodes name).history.begin, generation, some run⟩ } where
  recorded := orderly.covered.recorded
  existing := orderly.histories name own
  above := settled.above
  made := fun promote member => .inl (settled.top promote member)
  signalled := by
    intro other given
    by_cases same : other = name
    · subst other
      obtain ⟨_, _, _, armed⟩ := orderly.covered.signalled name given
      exact ⟨_, rfl, rfl, armed.standby, running, rfl⟩
    · simp [settled.signalled other same] at given
  ready := by
    intro other p ready
    by_cases same : other = name
    · subst other
      simpa [free] using ready.kept
    · exact absurd ready (settled.ready other p same)
  entry := by
    rintro p found
    obtain rfl := Option.some.inj found
    exact ⟨.inl rfl, ⟨run, rfl, orderly.running name run running⟩, own, rfl⟩

theorem settled_cleared {name : Str} (orderly : Orderly first generation world)
    (settled : Settled first world name) (own : (world.nodes name).generation = generation)
    (primary : (world.nodes name).role = .primary) :
    Covered first generation world
      ⟨(world.nodes name).history.timeline, (world.nodes name).history.begin, name, generation,
        none⟩ where
  recorded := rfl
  existing := orderly.histories name own
  above := settled.above
  made := fun promote member => .inl (settled.top promote member)
  signalled := by
    intro other given
    by_cases same : other = name
    · subst other
      obtain ⟨_, _, _, armed⟩ := orderly.covered.signalled name given
      exact absurd (armed.standby.symm.trans primary) (by simp)
    · simp [settled.signalled other same] at given
  ready := by
    intro other p ready
    by_cases same : other = name
    · subst other
      exact absurd (ready.standby.symm.trans primary) (by simp)
    · exact absurd ready (settled.ready other p same)
  entry := by simp

/-- The clauses a decision keeps, on a view that shows the present record. -/
theorem decides_foreign {name : Str} {view : View} {clause : Clause} {p : PendingPromote}
    (kept : decides world name clause = true) (seen : (world.nodes name).view = some view)
    (shown : view.timeline = .record world.record world.version)
    (pending : world.record.pending = some p) (apart : p.node ≠ name) :
    foreignClause world name view clause world.record p = true := by
  simpa [decides, seen, current, shown, ClusterTimeline.version, pendingIn,
    ClusterTimeline.recordOf, pending, apart] using kept

/-- Every way to a plan leaves the planner on top, in the record's generation. -/
theorem plan_settled {name : Str} {view : View} {seen : Nat}
    (orderly : Orderly first generation world)
    (shown : view.timeline = .record world.record world.version)
    (evident : ∀ member ∈ view.members, Evident first generation world.promotes member)
    (clauses : ∀ p, world.record.pending = some p → p.node ≠ name → ∀ clause,
      clause = .currentEvidence ∨ clause = .voidBase →
      foreignClause world name view clause world.record p = true)
    (origin : (∃ via, view.latest = .known (world.nodes name).history seen via) ∨
      ∃ q, view.latest = .pendingUnresolved q ∧ q.node = name ∧ q.generation = seen) :
    seen = generation ∧ Settled first world name := by
  have recordGeneration := orderly.covered.recorded
  cases pending : world.record.pending with
  | none =>
      have latest : view.latest = .known world.record.id world.record.generation .record := by
        simp [View.latest, shown, resolveLatest, pending]
      rcases origin with ⟨via, known⟩ | ⟨q, unresolved, _⟩
      · rw [latest, Latest.known.injEq] at known
        exact ⟨known.2.1.symm.trans recordGeneration, settled_recorded orderly pending
          (Nat.le_of_eq (congrArg TimelineId.timeline known.1))⟩
      · rw [latest] at unresolved
        cases unresolved
  | some p =>
      have entryGeneration := (orderly.covered.entry p pending).generation
      have latest : view.latest = resolvePending world.record p view.members := by
        simp [View.latest, shown, resolveLatest, pending]
      rcases origin with ⟨via, known⟩ | ⟨q, unresolved, named, same⟩
      · constructor
        · rcases resolvePending_known (latest.symm.trans known) with ofEntry | ofRecord
          · exact ofEntry.trans entryGeneration
          · exact ofRecord.trans recordGeneration
        · by_cases mine : p.node = name
          · exact settled_own orderly pending mine
          · exact settled_foreign orderly pending shown evident known
              (clauses p pending mine) (Nat.le_refl _)
      · obtain rfl := resolvePending_unresolved (latest.symm.trans unresolved)
        exact ⟨same.symm.trans entryGeneration, settled_own orderly pending named⟩

theorem sound_plan {name run : Str} {view : View} {entry : PendingPromote}
    (orderly : Orderly first generation world) (owner : (world.nodes name).lockOwner = true)
    (seen : (world.nodes name).view = some view) (running : (world.nodes name).run = some run)
    (free : (world.nodes name).promotePending = none)
    (evidence : decides world name .currentEvidence = true)
    (base : decides world name .voidBase = true)
    (planned : planEntry name (world.nodes name) view run = .ok entry) :
    Sound first generation world
      ⟨name, .pendingEntry, pendingRecord view.timeline entry, view.timeline.version⟩ := by
  have viewed := orderly.views name view seen
  obtain ⟨record, version, shown, past, present, _⟩ := viewed.timeline
  obtain ⟨seenGeneration, rfl, origin⟩ := planPromote_ok planned
  constructor
  · refine ⟨version, by rw [shown]; rfl, past, ?_⟩
    intro now
    obtain rfl := present now
    subst version
    have clauses : ∀ p, world.record.pending = some p → p.node ≠ name → ∀ clause,
        clause = .currentEvidence ∨ clause = .voidBase →
        foreignClause world name view clause world.record p = true := by
      rintro p pending apart clause (rfl | rfl)
      · exact decides_foreign evidence seen shown pending apart
      · exact decides_foreign base seen shown pending apart
    obtain ⟨rfl, settled⟩ := plan_settled orderly shown viewed.members clauses origin
    simpa [shown, pendingRecord, ClusterTimeline.recordOf, Node.evidence] using
      settled_entry orderly settled (orderly.leading name (.inr owner)) running free
  · intro _
    exact ⟨_, by rw [shown]; rfl, rfl⟩

theorem sound_hold {name : Str} {view : View} {written : TimelineRecord}
    (orderly : Orderly first generation world) (owner : (world.nodes name).lockOwner = true)
    (seen : (world.nodes name).view = some view)
    (primary : (world.nodes name).role = .primary)
    (clauses : ∀ clause, clause ≠ .recordedRun → decides world name clause = true)
    (decided : holdAction name view.timeline view.members view.voters (world.nodes name).history
      (world.nodes name).generation = .write written) :
    Sound first generation world ⟨name, .hold, written, view.timeline.version⟩ := by
  have viewed := orderly.views name view seen
  obtain ⟨record, version, shown, past, present, _⟩ := viewed.timeline
  have own := orderly.leading name (.inr owner)
  rw [shown, own] at decided
  obtain ⟨rfl, cases⟩ := holdAction_write decided
  refine ⟨⟨version, by rw [shown]; rfl, past, ?_⟩, by simp⟩
  intro now
  obtain rfl := present now
  subst version
  refine settled_cleared orderly ?_ own primary
  rcases cases with ⟨settled, _, below⟩ | ⟨p, pending, mine, _⟩ | ⟨p, pending, apart,
    _, resolved⟩
  · exact settled_recorded orderly settled (Nat.le_of_lt below)
  · exact settled_own orderly pending mine
  · have latest : view.latest = resolvePending world.record p view.members := by
      simp [View.latest, shown, resolveLatest, pending]
    cases known : view.latest with
    | known id seenGeneration via =>
        have reaches := decides_foreign (clauses .holdAbove (by simp)) seen shown pending apart
        simp only [foreignClause, known, decide_eq_true_eq] at reaches
        refine settled_foreign orderly pending shown viewed.members known ?_ reaches
        rintro clause (rfl | rfl)
        · exact decides_foreign (clauses _ (by simp)) seen shown pending apart
        · exact decides_foreign (clauses _ (by simp)) seen shown pending apart
    | pendingUnresolved q => exact absurd (latest.symm.trans known) (resolved q)
    | unknown reason =>
        -- Two published histories above the base have the same number, so they are one.
        rcases resolvePending_cases world.record p view.members with
          ⟨_, _, _, _, created⟩ | ⟨_, void⟩ | waiting | ⟨_, _, a, inA, b, inB, x, y, atA,
            atB, apart⟩
        · rw [latest, created] at known
          cases known
        · rw [latest, void] at known
          cases known
        · rw [latest, waiting] at known
          cases known
        · obtain ⟨⟨one, madeOne, rfl, _⟩, numberOne⟩ :=
            evidence_created orderly pending viewed.members inA atA
          obtain ⟨⟨two, madeTwo, rfl, _⟩, numberTwo⟩ :=
            evidence_created orderly pending viewed.members inB atB
          have same : one = two := List.inj_on_of_nodup_map orderly.numbers madeOne madeTwo
            (numberOne.trans numberTwo.symm)
          exact absurd (congrArg Promote.id same) apart

theorem sound_confirm {name : Str} {p : PendingPromote} {written : TimelineRecord}
    (orderly : Orderly first generation world)
    (going : (world.nodes name).goAhead = some p)
    (primary : (world.nodes name).role = .primary)
    (pending : world.record.pending = some p)
    (confirmed : confirmedRecord name p (world.nodes name).history = .ok written) :
    Sound first generation world ⟨name, .confirmation, written, some world.version⟩ := by
  obtain ⟨named, entry⟩ := orderly.kept name p (orderly.going name p going)
  refine ⟨⟨world.version, rfl, Nat.le_refl _, fun _ => ?_⟩, by simp⟩
  unfold confirmedRecord at confirmed
  split at confirmed
  · cases confirmed
  · obtain rfl := Except.ok.inj confirmed
    rw [entry.generation]
    exact settled_cleared orderly (settled_own orderly pending named) (named ▸ entry.promoter)
      primary

theorem evident_sample {name : Str} {member : Member} (orderly : Orderly first generation world)
    (described : describes name (world.nodes name) member = true) :
    Evident first generation world.promotes member := by
  intro lineage published same history newest
  simp only [describes, published, newest, Option.any_some, Bool.and_eq_true, beq_iff_eq]
    at described
  obtain ⟨_, ⟨⟨shown, _⟩, ownGeneration⟩, _⟩ := described
  rw [shown]
  exact orderly.histories name (ownGeneration.symm.trans same)

/-- The election admits no node of another generation. -/
theorem campaigner_generation {name : Str} {view : View}
    (orderly : Orderly first generation world) (viewed : Viewed first generation world view)
    (admitted : mayCampaign name (world.nodes name) view = true) :
    (world.nodes name).generation = generation := by
  obtain ⟨record, version, shown, _, _, recorded, entries⟩ := viewed.timeline
  have atMost := orderly.generations name
  have viewGeneration : view.timeline.generation = generation := by
    rw [shown]
    exact recorded
  simp only [mayCampaign, Bool.and_eq_true] at admitted
  have notStale := admitted.1
  cases latest : view.latest with
  | known id seen via =>
      have same : seen = generation := by
        simp only [View.latest, shown, resolveLatest] at latest
        cases pending : record.pending with
        | none =>
            simp only [pending, Latest.known.injEq] at latest
            exact latest.2.1.symm.trans recorded
        | some p =>
            simp only [pending] at latest
            rcases resolvePending_known latest with ofEntry | ofRecord
            · exact ofEntry.trans (entries p pending).1
            · exact ofRecord.trans recorded
      simp only [latest, decide_eq_true_eq] at notStale
      omega
  | pendingUnresolved p =>
      simp only [latest, decide_eq_true_eq] at notStale
      rcases notStale with mine | current
      · simp only [View.latest, shown, resolveLatest] at latest
        cases pending : record.pending with
        | none => simp [pending] at latest
        | some q =>
            simp only [pending] at latest
            obtain rfl := resolvePending_unresolved latest
            exact mine ▸ (entries q pending).2
      · omega
  | unknown reason =>
      simp only [latest, decide_eq_true_eq] at notStale
      omega

/-- A change that leaves history, role, run and signal of the node as they are, or
takes the signal away, makes it no readier. -/
theorem grown_same {before after : Node} (generation : after.generation = before.generation)
    (history : after.history = before.history) (role : after.role = before.role)
    (run : after.run = before.run)
    (signalled : after.signalled = true → before.signalled = true)
    (kept : ∀ p, after.promotePending = some p → before.promotePending = some p) :
    Grown before after where
  generation := generation
  history := .inl history
  signalled := by
    refine fun given => ⟨signalled given, fun p armed => ⟨?_, ?_, ?_⟩⟩
    · rw [role, armed.standby]
    · rw [run, armed.sameRun]
    · rw [history, armed.sameBase]
  ready := by
    refine fun p ready => ⟨⟨?_, ?_, ?_⟩, kept p ready.kept⟩
    · rw [← role, ready.standby]
    · rw [← run, ready.sameRun]
    · rw [← history, ready.sameBase]

theorem orderly_read {name : Str} {voters : Option Nat} {after : World}
    (orderly : Orderly first generation world)
    (stepped : step world (.read name voters) = some after) : Orderly first generation after := by
  simp only [step, Option.some.injEq] at stepped
  subst after
  have keeps : ∀ p, (if decide (world.leader = some name) = true then
      (world.nodes name).promotePending else none) = some p →
      (world.nodes name).promotePending = some p := by
    intro p kept
    split at kept
    · exact kept
    · cases kept
  refine orderly_update orderly (grown_same rfl rfl rfl rfl (fun given => given) keeps) ?_
  exact
    { later := ⟨rfl, .inl rfl⟩
      known := orderly.histories name
      leads := fun owner => orderly.leading name (.inl (by simpa using owner))
      view := by
        intro view shown
        obtain rfl := Option.some.inj shown
        refine ⟨⟨world.record, world.version, rfl, Nat.le_refl _, fun _ => rfl,
          orderly.covered.recorded, fun p pending => ?_⟩,
          fun member listed => orderly.evident member (List.mem_append_left _ listed)⟩
        have entry := orderly.covered.entry p pending
        exact ⟨entry.generation, entry.promoter⟩
      run := orderly.running name
      kept := fun p kept => orderly.kept name p (keeps p kept)
      going := by simp }

theorem orderly_acquire {name : Str} {heard : Bool} {after : World}
    (orderly : Orderly first generation world)
    (stepped : step world (.acquire name heard) = some after) :
    Orderly first generation after := by
  simp only [step] at stepped
  cases seen : (world.nodes name).view with
  | none => simp [seen] at stepped
  | some view =>
      simp only [seen] at stepped
      split at stepped
      · rename_i granted
        obtain rfl := Option.some.inj stepped
        have own := campaigner_generation orderly (orderly.views name view seen) granted.2.1
        have taken : Orderly first generation { world with leader := some name } := by
          refine orderly_around orderly rfl rfl rfl rfl (fun _ member => member) ?_
            orderly.evident orderly.writes
          rintro other same
          obtain rfl := Option.some.inj same
          exact own
        refine orderly_update taken
          (grown_same rfl rfl rfl rfl (fun given => given) fun _ kept => kept) ?_
        exact
          { later := ⟨rfl, .inl rfl⟩
            known := orderly.histories name
            leads := fun _ => own
            view := fun found shown => taken.views name found (seen.trans shown)
            run := orderly.running name
            kept := taken.kept name
            going := orderly.going name }
      · cases stepped

theorem orderly_plan {name : Str} {after : World} (orderly : Orderly first generation world)
    (keeps : Keeps world (.plan name)) (stepped : step world (.plan name) = some after) :
    Orderly first generation after := by
  simp only [step] at stepped
  split at stepped
  · rename_i owner seen kept
    obtain rfl := Option.some.inj stepped
    refine orderly_update orderly
      (grown_same rfl rfl rfl rfl (fun given => given) fun _ kept => kept) ?_
    exact
      { later := ⟨rfl, .inl rfl⟩
        known := orderly.histories name
        leads := fun owner => orderly.leading name (.inr owner)
        view := orderly.views name
        run := orderly.running name
        kept := orderly.kept name
        going := fun p going => kept.trans going }
  · rename_i view run owner seen free running
    split at stepped
    · cases stepped
    · rename_i entry planned
      obtain rfl := Option.some.inj stepped
      have evidence := keeps_clause keeps .currentEvidence
      have base := keeps_clause keeps .voidBase
      simp only [keepsClause, free, Option.isSome_none, Bool.false_or] at evidence base
      have sound := sound_plan orderly owner seen running free evidence base planned
      have sent := orderly_write orderly sound
      refine orderly_update sent
        (grown_same rfl rfl rfl rfl (fun given => given) fun _ kept => kept) ?_
      exact
        { later := ⟨rfl, .inl rfl⟩
          known := orderly.histories name
          leads := fun owner => orderly.leading name (.inr owner)
          view := sent.views name
          run := orderly.running name
          kept := sent.kept name
          going := orderly.going name }
  · cases stepped

theorem orderly_land {index : Nat} {heard : Bool} {after : World}
    (orderly : Orderly first generation world)
    (stepped : step world (.land index heard) = some after) : Orderly first generation after := by
  simp only [step] at stepped
  cases found : world.writes[index]? with
  | none => simp [found] at stepped
  | some write =>
      have rest : Orderly first generation
          { world with writes := world.writes.eraseIdx index } := by
        refine orderly_around orderly rfl rfl rfl rfl (fun _ member => member)
          (fun name leader => orderly.leading name (.inl leader)) orderly.evident ?_
        exact fun other sent => orderly.writes other (List.mem_of_mem_eraseIdx sent)
      simp only [found] at stepped
      split at stepped
      · rename_i live
        obtain rfl := Option.some.inj stepped
        refine orderly_commit rest ?_ live heard
        exact sound_covered (show world.version = world.version from rfl)
          (fun _ => covered_grown
            (fun name => show Grown (world.nodes name) (world.nodes name) from grown_refl _) rfl
            fun _ member => member)
          (orderly.writes write (List.mem_of_getElem? found))
      · obtain rfl := Option.some.inj stepped
        exact rest

theorem orderly_promote {name : Str} {after : World} (orderly : Orderly first generation world)
    (keeps : Keeps world (.promote name)) (stepped : step world (.promote name) = some after) :
    Orderly first generation after := by
  simp only [step] at stepped
  split at stepped
  · rename_i told
    obtain rfl := Option.some.inj stepped
    obtain ⟨p, going⟩ := Option.isSome_iff_exists.mp told.2.1
    have sameRun := keeps_clause keeps .recordedRun
    simp only [keepsClause, going, Option.all_some, Bool.and_eq_true, beq_iff_eq] at sameRun
    exact orderly_signal orderly
      ⟨⟨told.2.2.2, sameRun.1, sameRun.2⟩, orderly.going name p going⟩
  · cases stepped

theorem orderly_confirm {name : Str} {after : World} (orderly : Orderly first generation world)
    (stepped : step world (.confirm name) = some after) : Orderly first generation after := by
  simp only [step] at stepped
  cases going : (world.nodes name).goAhead with
  | none => simp [going] at stepped
  | some p =>
      simp only [going] at stepped
      split at stepped
      · rename_i promoted
        split at stepped
        · cases stepped
        · rename_i record confirmed
          obtain rfl := Option.some.inj stepped
          exact orderly_write orderly
            (sound_confirm orderly going promoted.2.1 promoted.2.2 confirmed)
      · cases stepped

theorem orderly_hold {name : Str} {after : World} (orderly : Orderly first generation world)
    (keeps : Keeps world (.hold name)) (stepped : step world (.hold name) = some after) :
    Orderly first generation after := by
  simp only [step] at stepped
  cases seen : (world.nodes name).view with
  | none => simp [seen] at stepped
  | some view =>
      simp only [seen] at stepped
      split at stepped
      · rename_i holder
        split at stepped
        · rename_i record decided
          obtain rfl := Option.some.inj stepped
          refine orderly_write orderly
            (sound_hold orderly holder.1 seen holder.2.2 ?_ decided)
          intro clause other
          have kept := keeps_clause keeps clause
          cases clause with
          | recordedRun => exact absurd rfl other
          | currentEvidence => exact kept
          | voidBase => exact kept
          | holdAbove => exact kept
        · cases stepped
        · cases stepped
      · cases stepped

theorem orderly_start {name run : Str} {asStandby : Bool} {after : World}
    (orderly : Orderly first generation world)
    (stepped : step world (.start name run asStandby) = some after) :
    Orderly first generation after := by
  simp only [step] at stepped
  split at stepped
  · rename_i stopped
    obtain rfl := Option.some.inj stepped
    have ran : Orderly first generation { world with runs := (name, run) :: world.runs } :=
      orderly_around orderly rfl rfl rfl rfl (List.subset_cons_self _ _)
        (fun name leader => orderly.leading name (.inl leader)) orderly.evident orderly.writes
    refine orderly_update ran ⟨⟨rfl, .inl rfl⟩, ?_, ?_⟩ ?_
    · -- A stopped server has no signal: an entry's run is never `none`.
      intro given
      obtain ⟨p, pending, _, armed⟩ := orderly.covered.signalled name given
      obtain ⟨was, names, _⟩ := (orderly.covered.entry p pending).ran
      have sameRun := armed.sameRun
      rw [stopped.1, names] at sameRun
      cases sameRun
    · -- A kept entry names an earlier run.
      intro p ready
      obtain ⟨named, entry⟩ := orderly.kept name p ready.kept
      obtain ⟨was, names, earlier⟩ := entry.ran
      have same : run = was := by
        have sameRun := ready.sameRun
        rw [names] at sameRun
        exact Option.some.inj sameRun
      rw [named, ← same] at earlier
      exact absurd earlier stopped.2
    · exact
        { later := ⟨rfl, .inl rfl⟩
          known := orderly.histories name
          leads := fun owner => orderly.leading name (.inr owner)
          view := ran.views name
          run := by
            intro other same
            obtain rfl := Option.some.inj same
            exact List.mem_cons_self
          kept := ran.kept name
          going := orderly.going name }
  · cases stepped

theorem orderly_follow {name source : Str} {after : World}
    (orderly : Orderly first generation world)
    (stepped : step world (.follow name source) = some after) :
    Orderly first generation after := by
  simp only [step] at stepped
  split at stepped
  · rename_i newer
    obtain ⟨_, _, sameGeneration, higher⟩ := newer
    obtain rfl := Option.some.inj stepped
    refine orderly_update orderly ⟨⟨rfl, .inr higher⟩, ?_, ?_⟩ ?_
    · -- Under a signal nothing is above the node's own history.
      intro given
      obtain ⟨p, pending, named, _⟩ := orderly.covered.signalled name given
      obtain ⟨bound, _⟩ := signalled_fresh orderly orderly.covered given
      have own : (world.nodes name).generation = generation :=
        named ▸ (orderly.covered.entry p pending).promoter
      obtain ⟨q, promote, found, made, same, node, _⟩ := existing_above orderly.covered
        (orderly.histories source (sameGeneration.trans own)) (by omega)
      obtain rfl : p = q := Option.some.inj (pending.symm.trans found)
      have held := orderly.owned promote made
      rw [node, named, same] at held
      omega
    · -- A kept entry is based on a history the node had.
      intro p ready
      obtain ⟨named, entry⟩ := orderly.kept name p ready.kept
      have moved : p.baseTimeline = (world.nodes source).history.timeline :=
        (congrArg TimelineId.timeline ready.sameBase).symm
      rcases entry.based with based | below
      · have same : p.baseTimeline = (world.nodes p.node).history.timeline :=
          congrArg TimelineId.timeline based
        rw [named] at same
        omega
      · rw [named] at below
        omega
    · exact
        { later := ⟨rfl, .inr higher⟩
          known := fun own => orderly.histories source (sameGeneration.trans own)
          leads := fun owner => orderly.leading name (.inr owner)
          view := orderly.views name
          run := orderly.running name
          kept := orderly.kept name
          going := orderly.going name }
  · cases stepped

theorem orderly_create_step {name : Str} {begin : Nat} {interrupted : Bool} {after : World}
    (orderly : Orderly first generation world)
    (stepped : step world (.create name begin interrupted) = some after) :
    Orderly first generation after := by
  simp only [step] at stepped
  cases running : (world.nodes name).run with
  | none => simp [running] at stepped
  | some run =>
      simp only [running] at stepped
      split at stepped
      · rename_i told
        obtain rfl := Option.some.inj stepped
        refine orderly_create orderly told.1 ?_
        exact
          { number := rfl
            creator := rfl
            history := rfl
            generation := rfl
            made := rfl
            signalled := rfl
            lockOwner := rfl
            run := running.symm
            view := rfl
            kept := rfl
            going := rfl }
      · cases stepped

theorem orderly_stop {name : Str} (orderly : Orderly first generation world) :
    Orderly first generation
      (world.update name { world.nodes name with run := none, signalled := false }) := by
  refine orderly_update orderly ⟨⟨rfl, .inl rfl⟩, by simp, ?_⟩ ?_
  · intro p ready
    obtain ⟨_, entry⟩ := orderly.kept name p ready.kept
    obtain ⟨run, names, _⟩ := entry.ran
    have sameRun := ready.sameRun
    rw [names] at sameRun
    cases sameRun
  · exact
      { later := ⟨rfl, .inl rfl⟩
        known := orderly.histories name
        leads := fun owner => orderly.leading name (.inr owner)
        view := orderly.views name
        run := by simp
        kept := orderly.kept name
        going := orderly.going name }

theorem orderly_promoteFails {name : Str} (orderly : Orderly first generation world) :
    Orderly first generation
      (world.update name { world.nodes name with signalled := false }) :=
  orderly_update orderly (grown_same rfl rfl rfl rfl (by simp) fun _ kept => kept)
    { later := ⟨rfl, .inl rfl⟩
      known := orderly.histories name
      leads := fun owner => orderly.leading name (.inr owner)
      view := orderly.views name
      run := orderly.running name
      kept := orderly.kept name
      going := orderly.going name }

/-- Samples and member records always describe timelines there are. -/
theorem orderly_published {members samples : List Member}
    (orderly : Orderly first generation world)
    (evident : ∀ member ∈ members ++ samples, Evident first generation world.promotes member) :
    Orderly first generation { world with members := members, samples := samples } :=
  orderly_around orderly rfl rfl rfl rfl (fun _ member => member)
    (fun name leader => orderly.leading name (.inl leader)) evident orderly.writes

theorem orderly_step {act : Act} {after : World} (orderly : Orderly first generation world)
    (keeps : Keeps world act) (stepped : step world act = some after) :
    Orderly first generation after := by
  cases act with
  | sample name member =>
      simp only [step] at stepped
      split at stepped
      · rename_i described
        obtain rfl := Option.some.inj stepped
        refine orderly_published orderly fun other listed => ?_
        rcases List.mem_append.mp listed with published | sampled
        · exact orderly.evident other (List.mem_append_left _ published)
        · rcases List.mem_cons.mp sampled with new | old
          · exact new ▸ evident_sample orderly described
          · exact orderly.evident other (List.mem_append_right _ old)
      · cases stepped
  | publish member =>
      simp only [step] at stepped
      split at stepped
      · rename_i sampled
        obtain rfl := Option.some.inj stepped
        refine orderly_published orderly fun other listed => ?_
        rcases List.mem_append.mp listed with published | old
        · rcases List.mem_cons.mp published with new | kept
          · exact new ▸ orderly.evident member (List.mem_append_right _ sampled)
          · exact orderly.evident other (List.mem_append_left _ (List.mem_filter.mp kept).1)
        · exact orderly.evident other (List.mem_append_right _ old)
      · cases stepped
  | forget name =>
      obtain rfl := Option.some.inj stepped
      refine orderly_published orderly fun other listed => ?_
      rcases List.mem_append.mp listed with kept | old
      · exact orderly.evident other (List.mem_append_left _ (List.mem_filter.mp kept).1)
      · exact orderly.evident other (List.mem_append_right _ old)
  | read name voters => exact orderly_read orderly stepped
  | acquire name heard => exact orderly_acquire orderly stepped
  | dropLock =>
      obtain rfl := Option.some.inj stepped
      exact orderly_around orderly rfl rfl rfl rfl (fun _ member => member) (by simp)
        orderly.evident orderly.writes
  | plan name => exact orderly_plan orderly keeps stepped
  | land index heard => exact orderly_land orderly stepped
  | promote name => exact orderly_promote orderly keeps stepped
  | promoteFails name => exact Option.some.inj stepped ▸ orderly_promoteFails orderly
  | create name begin interrupted => exact orderly_create_step orderly stepped
  | confirm name => exact orderly_confirm orderly stepped
  | hold name => exact orderly_hold orderly keeps stepped
  | stop name => exact Option.some.inj stepped ▸ orderly_stop orderly
  | start name run asStandby => exact orderly_start orderly stepped
  | follow name source => exact orderly_follow orderly stepped

theorem orderly_init (start : Start world) :
    Orderly world.record.id world.record.generation world := by
  have exists_ (id : TimelineId) (below : AtOrBelow world.record id) :
      Existing world.record.id world.promotes id := by
    rcases below with lower | same
    · exact .inl lower
    · exact .inr (.inl same)
  have bound : limit world.record = world.record.id := by simp [limit, start.settled]
  exact
    { numbers := by simp [start.unpromoted]
      beyond := by simp [start.unpromoted]
      within := by simp [start.unpromoted]
      owned := by simp [start.unpromoted]
      histories := fun name same => exists_ _ (start.highest name same)
      generations := start.generations
      leading := start.leading
      evident := fun member listed lineage published same history newest =>
        exists_ _ (start.published member listed lineage published same history newest)
      views := by simp [(start.quiet _).2.1]
      covered :=
        { recorded := rfl
          existing := bound ▸ .inr (.inl rfl)
          above := bound ▸ Nat.le_refl _
          made := by simp [start.unpromoted]
          signalled := by simp [(start.quiet _).1]
          ready := fun name p ready => by simpa [(start.quiet name).2.2.1] using ready.kept
          entry := by simp [start.settled] }
      writes := by simp [start.unwritten]
      running := start.running
      kept := by simp [(start.quiet _).2.2.1]
      going := by simp [(start.quiet _).2.2.2] }

end Step

instance (world : World) : Decidable (NumbersUnique world) :=
  inferInstanceAs (Decidable (List.Nodup _))

/-- In a run whose steps keep every clause no two promotes of a history generation
create the same timeline number. -/
theorem timeline_numbers_unique (start world : World) (initial : Start start)
    (path : Reaches step Keeps start world) : NumbersUnique world := by
  have orderly : Orderly start.record.id start.record.generation world :=
    reaches_invariant (Orderly start.record.id start.record.generation) (orderly_init initial)
      (fun _ _ _ before keeps stepped => orderly_step before keeps stepped) path
  refine List.Nodup.of_map Prod.snd ?_
  rw [List.map_map]
  exact orderly.numbers

def node1 : Str := "node1".toList

def node2 : Str := "node2".toList

def run1 : Str := "run1".toList

def run2 : Str := "run2".toList

/-- Every node is on timeline 5, which the record names; the nodes listed run. -/
def onTimelineFive (role : Str → Role) (runs : List (Str × Str)) : World where
  nodes := fun name =>
    { history := ⟨5, 500⟩
      generation := 0
      run := (runs.find? fun ran => ran.1 == name).map Prod.snd
      role := role name
      signalled := false
      lockOwner := false
      view := none
      promotePending := none
      asked := none
      goAhead := none }
  record := ⟨5, 500, node2, 0, none⟩
  version := 1
  members := []
  leader := none
  samples := []
  writes := []
  promotes := []
  runs := runs

theorem onTimelineFive_start (role : Str → Role) (runs : List (Str × Str)) :
    Start (onTimelineFive role runs) where
  settled := rfl
  highest := fun _ _ => .inr rfl
  published := by simp [onTimelineFive]
  generations := fun _ => Nat.le_refl _
  leading := by simp [onTimelineFive]
  quiet := fun _ => ⟨rfl, rfl, rfl, rfl⟩
  running := by
    intro name run ran
    simp only [onTimelineFive, Option.map_eq_some_iff] at ran
    obtain ⟨⟨other, same⟩, found, rfl⟩ := ran
    have named := List.find?_some found
    simp only [beq_iff_eq] at named
    exact named ▸ List.mem_of_find?_eq_some found
  unwritten := rfl
  unpromoted := rfl

/-- `touch_member` of a node that has WAL on its newest history. -/
def touchMember (name : Str) (state : MemberState) (newest : TimelineId) (run : Option Str) :
    List Act :=
  let member : Member :=
    { name := name
      state := state
      role := .replica
      walPosition := none
      timeline := run.map fun _ => newest.timeline
      tags := ⟨none, none, none, none⟩
      rewindCheck := false
      lineage := some ⟨run.map fun _ => newest.begin,
        some ⟨newest.timeline, newest.begin, true⟩, run, 0⟩
      watchdogFailed := false }
  [.sample name member, .publish member]

/-- A cycle that takes the lock, records its entry and calls `pg_ctl promote`. -/
def campaign (name : Str) : List Act :=
  [.read name (some 2), .acquire name true, .plan name, .land 0 true, .promote name]

def bothStandbys : World := onTimelineFive (fun _ => .standby) [(node1, run1), (node2, run1)]

def bothPublished : List Act :=
  touchMember node1 .running ⟨5, 500⟩ (some run1) ++
    touchMember node2 .running ⟨5, 500⟩ (some run1)

/-- `node1` is interrupted after writing the history file of timeline 6, and comes
back. -/
def interruptedOnce : List Act :=
  bothPublished ++ campaign node1 ++
    [.create node1 600 true, .stop node1, .start node1 run2 true] ++
    touchMember node1 .running ⟨6, 600⟩ (some run2) ++ [.dropLock]

theorem timeline_numbers_unique_secondPromote :
    ∃ world, Reaches step Keeps bothStandbys world ∧ NumbersUnique world ∧
      (world.promotes.map fun promote => promote.id) = [⟨7, 700⟩, ⟨6, 600⟩] := by
  have path := play_exhibits (show (play step Keeps bothStandbys (interruptedOnce ++
      campaign node1 ++ [.create node1 700 false, .confirm node1, .land 0 true,
        .follow node2 node1])).map
      (fun world => decide ((world.promotes.map fun promote => promote.id) =
        [⟨7, 700⟩, ⟨6, 600⟩])) = some true from by rfl)
  obtain ⟨world, reached, promoted⟩ := path
  exact ⟨world, reached,
    timeline_numbers_unique bothStandbys world (onTimelineFive_start _ _) reached,
    of_decide_eq_true promoted⟩

/-- After a second promote that ends before creating anything the void entry leads
back to timeline 5, below the 6 there is. -/
def interruptedTwice : List Act :=
  interruptedOnce ++ campaign node1 ++ [.stop node1] ++
    touchMember node1 .stopped ⟨6, 600⟩ none ++ [.dropLock] ++
    campaign node2 ++ [.create node2 700 false]

theorem interrupted_promotes_reuse_number :
    Start bothStandbys ∧ ∃ world, Reaches step anyAct bothStandbys world ∧
      world.promotes = [⟨node2, run1, ⟨6, 700⟩, 0⟩, ⟨node1, run1, ⟨6, 600⟩, 0⟩] ∧
      ¬ NumbersUnique world := by
  refine ⟨onTimelineFive_start _ _, ?_⟩
  obtain ⟨world, reached, promoted⟩ := play_exhibits (show
    (play step anyAct bothStandbys interruptedTwice).map (fun world =>
      decide (world.promotes =
        [⟨node2, run1, ⟨6, 700⟩, 0⟩, ⟨node1, run1, ⟨6, 600⟩, 0⟩])) =
          some true from by rfl)
  have promotes := of_decide_eq_true promoted
  refine ⟨world, reached, promotes, ?_⟩
  simp [NumbersUnique, promotes]

/-- A start and a run for each clause that break that clause alone. -/
def breaking : Clause → World × List Act
  | .voidBase => (bothStandbys, interruptedTwice)
  | .currentEvidence =>
      (onTimelineFive (fun _ => .standby) [(node2, run1)],
        touchMember node1 .stopped ⟨5, 500⟩ none ++
          touchMember node2 .running ⟨5, 500⟩ (some run1) ++ [.start node1 run1 true] ++
          campaign node1 ++ [.create node1 600 false, .dropLock] ++
          campaign node2 ++ [.create node2 700 false])
  | .recordedRun =>
      (bothStandbys,
        bothPublished ++ campaign node1 ++ [.stop node1, .start node1 run2 true] ++
          touchMember node1 .running ⟨5, 500⟩ (some run2) ++
          [.read node1 (some 2), .plan node1, .promote node1, .dropLock] ++
          campaign node2 ++ [.create node2 700 false, .create node1 600 false])
  | .holdAbove =>
      (onTimelineFive (fun name => if name = node2 then .primary else .standby)
          [(node1, run1), (node2, run1)],
        bothPublished ++ [.read node2 (some 2)] ++ campaign node1 ++
          [.dropLock, .acquire node2 true, .create node1 600 true] ++
          touchMember node1 .running ⟨6, 600⟩ (some run1) ++
          [.read node2 (some 2), .hold node2, .land 0 true, .dropLock, .stop node2,
            .start node2 run2 true] ++
          touchMember node2 .running ⟨5, 500⟩ (some run2) ++
          campaign node2 ++ [.create node2 700 false])

/-- No clause follows from the others. -/
theorem every_clause_needed (clause : Clause) :
    ∃ start world, Start start ∧ Reaches step (KeepsBut [clause]) start world ∧
      ¬ NumbersUnique world := by
  have initial : Start (breaking clause).1 := by
    cases clause <;> exact onTimelineFive_start _ _
  have played : (play step (KeepsBut [clause]) (breaking clause).1 (breaking clause).2).map
      (fun world => decide ¬ NumbersUnique world) = some true := by
    cases clause <;> rfl
  obtain ⟨world, reached, reused⟩ := play_exhibits played
  exact ⟨_, world, initial, reached, of_decide_eq_true reused⟩

end PgHa.TimelineNumbers
