import PgHa.TimelineProtocol

/-!
The bound that the `/timeline` record puts on every timeline. A record covers a
world when nothing exists above it but the one timeline its pending entry allows
for, and nobody but that entry's node can create one. Each kind of step keeps the
record covering, and every write that can still commit.
-/

namespace PgHa.TimelineNumbers

open Text Cluster LatestTimeline TimelineProtocol

@[simp] theorem update_same (world : World) (name : Str) (node : Node) :
    (world.update name node).nodes name = node := by
  simp [World.update]

theorem update_other (world : World) {name other : Str} (node : Node) (apart : other ≠ name) :
    (world.update name node).nodes other = world.nodes other := by
  simp [World.update, apart]

/-- A timeline there is: below the first record, the one it names, or the work of
a promote. -/
def Existing (first : TimelineId) (promotes : List Promote) (id : TimelineId) : Prop :=
  id.timeline < first.timeline ∨ id = first ∨ ∃ promote ∈ promotes, promote.id = id

/-- The timeline that bounds the others: the base of a pending promote, else the
recorded one. -/
def limit (record : TimelineRecord) : TimelineId :=
  match record.pending with
  | some p => p.base
  | none => record.id

/-- A standby in the server run and on the history that the entry names. -/
structure Armed (node : Node) (p : PendingPromote) : Prop where
  standby : node.role = .standby
  sameRun : node.run = p.postmasterStart
  sameBase : node.history = p.base

/-- The node can still be told to promote under the entry it keeps. -/
structure Ready (node : Node) (p : PendingPromote) : Prop extends Armed node p where
  kept : node.promotePending = some p

/-- An entry names a server run that its node has had, and a history it has or
had. -/
structure Entry (generation : Nat) (world : World) (p : PendingPromote) : Prop where
  based : p.base = (world.nodes p.node).history ∨
    p.baseTimeline < (world.nodes p.node).history.timeline
  ran : ∃ run, p.postmasterStart = some run ∧ (p.node, run) ∈ world.runs
  promoter : (world.nodes p.node).generation = generation
  generation : p.generation = generation

/-- The record bounds what exists and what can still be created. -/
structure Covered (first : TimelineId) (generation : Nat) (world : World)
    (record : TimelineRecord) : Prop where
  recorded : record.generation = generation
  existing : Existing first world.promotes (limit record)
  above : first.timeline ≤ (limit record).timeline
  made : ∀ promote ∈ world.promotes, promote.id.timeline ≤ (limit record).timeline ∨
    ∃ p, record.pending = some p ∧ promote.node = p.node ∧
      promote.id.timeline = (limit record).timeline + 1
  signalled : ∀ name, (world.nodes name).signalled = true → ∃ p, record.pending = some p ∧
    p.node = name ∧ Armed (world.nodes name) p
  ready : ∀ name p, Ready (world.nodes name) p → record.pending = some p
  entry : ∀ p, record.pending = some p → Entry generation world p

def Evident (first : TimelineId) (generation : Nat) (promotes : List Promote)
    (member : Member) : Prop :=
  ∀ lineage, member.lineage = some lineage → lineage.generation = generation →
    ∀ history, lineage.history = some history → Existing first promotes history.id

/-- A view shows a record of the past, the present one if its version is. -/
structure Viewed (first : TimelineId) (generation : Nat) (world : World) (view : View) :
    Prop where
  timeline : ∃ record version, view.timeline = .record record version ∧
    version ≤ world.version ∧ (version = world.version → record = world.record) ∧
    record.generation = generation ∧ ∀ p, record.pending = some p →
      p.generation = generation ∧ (world.nodes p.node).generation = generation
  members : ∀ member ∈ view.members, Evident first generation world.promotes member

/-- A write that can still commit leaves a record that covers. -/
structure Sound (first : TimelineId) (generation : Nat) (world : World) (write : Write) :
    Prop where
  version : ∃ version, write.version = some version ∧ version ≤ world.version ∧
    (version = world.version → Covered first generation world write.record)
  sender : write.purpose = .pendingEntry →
    ∃ p, write.record.pending = some p ∧ p.node = write.node

structure Orderly (first : TimelineId) (generation : Nat) (world : World) : Prop where
  numbers : (world.promotes.map fun promote => promote.id.timeline).Nodup
  beyond : ∀ promote ∈ world.promotes, first.timeline < promote.id.timeline
  within : ∀ promote ∈ world.promotes, promote.generation = generation
  owned : ∀ promote ∈ world.promotes,
    promote.id.timeline ≤ (world.nodes promote.node).history.timeline
  histories : ∀ name, (world.nodes name).generation = generation →
    Existing first world.promotes (world.nodes name).history
  generations : ∀ name, (world.nodes name).generation ≤ generation
  leading : ∀ name, world.leader = some name ∨ (world.nodes name).lockOwner = true →
    (world.nodes name).generation = generation
  evident : ∀ member ∈ world.members ++ world.samples,
    Evident first generation world.promotes member
  views : ∀ name view, (world.nodes name).view = some view → Viewed first generation world view
  covered : Covered first generation world world.record
  writes : ∀ write ∈ world.writes, Sound first generation world write
  running : ∀ name run, (world.nodes name).run = some run → (name, run) ∈ world.runs
  kept : ∀ name p, (world.nodes name).promotePending = some p →
    p.node = name ∧ Entry generation world p
  going : ∀ name p, (world.nodes name).goAhead = some p →
    (world.nodes name).promotePending = some p

theorem existing_more {first : TimelineId} {promotes more : List Promote} {id : TimelineId}
    (included : promotes ⊆ more) (exists_ : Existing first promotes id) :
    Existing first more id := by
  rcases exists_ with below | same | ⟨promote, member, same⟩
  · exact .inl below
  · exact .inr (.inl same)
  · exact .inr (.inr ⟨promote, included member, same⟩)

/-- A node keeps its generation and never returns to an older history. -/
structure Later (before after : Node) : Prop where
  generation : after.generation = before.generation
  history : after.history = before.history ∨
    before.history.timeline < after.history.timeline

/-- A node changed without becoming able to create a timeline. -/
structure Grown (before after : Node) : Prop extends Later before after where
  signalled : after.signalled = true →
    before.signalled = true ∧ ∀ p, Armed before p → Armed after p
  ready : ∀ p, Ready after p → Ready before p

theorem grown_refl (node : Node) : Grown node node :=
  ⟨⟨rfl, .inl rfl⟩, fun given => ⟨given, fun _ armed => armed⟩, fun _ ready => ready⟩

section Step

variable {first : TimelineId} {generation : Nat} {world before after : World}

theorem entry_later {p : PendingPromote}
    (later : ∀ name, Later (before.nodes name) (after.nodes name))
    (runs : before.runs ⊆ after.runs) (entry : Entry generation before p) :
    Entry generation after p := by
  obtain ⟨run, names, ran⟩ := entry.ran
  refine ⟨?_, ⟨run, names, runs ran⟩, (later p.node).generation.trans entry.promoter,
    entry.generation⟩
  rcases (later p.node).history with same | newer
  · rw [same]
    exact entry.based
  · rcases entry.based with based | below
    · right
      have number : p.baseTimeline = (before.nodes p.node).history.timeline :=
        congrArg TimelineId.timeline based
      omega
    · right
      omega

theorem covered_grown {record : TimelineRecord}
    (grown : ∀ name, Grown (before.nodes name) (after.nodes name))
    (promotes : after.promotes = before.promotes) (runs : before.runs ⊆ after.runs)
    (covered : Covered first generation before record) :
    Covered first generation after record where
  recorded := covered.recorded
  existing := promotes ▸ covered.existing
  above := covered.above
  made := promotes ▸ covered.made
  signalled := by
    intro name given
    obtain ⟨still, keeps⟩ := (grown name).signalled given
    obtain ⟨p, pending, named, armed⟩ := covered.signalled name still
    exact ⟨p, pending, named, keeps p armed⟩
  ready := fun name p ready => covered.ready name p ((grown name).ready p ready)
  entry := fun p found =>
    entry_later (fun name => (grown name).toLater) runs (covered.entry p found)

theorem viewed_later {view : View} (later : ∀ name, Later (before.nodes name) (after.nodes name))
    (promotes : before.promotes ⊆ after.promotes) (version : after.version = before.version)
    (record : after.record = before.record) (viewed : Viewed first generation before view) :
    Viewed first generation after view := by
  obtain ⟨found, seen, shown, past, present, recorded, entries⟩ := viewed.timeline
  constructor
  · refine ⟨found, seen, shown, version ▸ past, ?_, recorded, ?_⟩
    · rw [version, record]
      exact present
    · intro p pending
      exact ⟨(entries p pending).1, (later p.node).generation.trans (entries p pending).2⟩
  · intro member listed lineage published same history newest
    exact existing_more promotes
      (viewed.members member listed lineage published same history newest)

theorem sound_covered {write : Write} (version : after.version = before.version)
    (covers : ∀ record, Covered first generation before record →
      Covered first generation after record)
    (sound : Sound first generation before write) : Sound first generation after write := by
  obtain ⟨sent, guarded, past, live⟩ := sound.version
  exact ⟨⟨sent, guarded, version ▸ past,
    fun present => covers _ (live (present.trans version))⟩,
    sound.sender⟩

/-- A change of one node that claims nothing new. -/
structure Benign (first : TimelineId) (generation : Nat) (world : World) (name : Str)
    (node : Node) : Prop where
  later : Later (world.nodes name) node
  known : (world.nodes name).generation = generation →
    Existing first world.promotes node.history
  leads : node.lockOwner = true → (world.nodes name).generation = generation
  view : ∀ view, node.view = some view → Viewed first generation world view
  run : ∀ run, node.run = some run → (name, run) ∈ world.runs
  kept : ∀ p, node.promotePending = some p → p.node = name ∧ Entry generation world p
  going : ∀ p, node.goAhead = some p → node.promotePending = some p

theorem update_all {name : Str} {node : Node} (P : Str → Node → Prop) (changed : P name node)
    (rest : ∀ other, P other (world.nodes other)) (other : Str) :
    P other ((world.update name node).nodes other) := by
  by_cases same : other = name
  · subst other
    simpa using changed
  · rw [update_other world node same]
    exact rest other

theorem orderly_node {name : Str} {node : Node} (orderly : Orderly first generation world)
    (benign : Benign first generation world name node)
    (covered : Covered first generation (world.update name node) world.record)
    (writes : ∀ write ∈ world.writes, Sound first generation (world.update name node) write) :
    Orderly first generation (world.update name node) := by
  have later := update_all (fun other changed => Later (world.nodes other) changed)
    benign.later (fun other => (grown_refl _).toLater)
  exact
    { numbers := orderly.numbers
      beyond := orderly.beyond
      within := orderly.within
      owned := by
        intro promote member
        have held := orderly.owned promote member
        rcases (later promote.node).history with same | newer
        · rw [same]
          exact held
        · exact Nat.le_of_lt (Nat.lt_of_le_of_lt held newer)
      histories := by
        refine update_all (fun _ changed => changed.generation = generation →
          Existing first world.promotes changed.history) ?_ orderly.histories
        exact fun same => benign.known (benign.later.generation.symm.trans same)
      generations := by
        refine update_all (fun _ changed => changed.generation ≤ generation) ?_
          orderly.generations
        rw [benign.later.generation]
        exact orderly.generations name
      leading := by
        refine update_all (fun other changed =>
          world.leader = some other ∨ changed.lockOwner = true →
            changed.generation = generation) ?_ orderly.leading
        rintro (leader | owner)
        · exact benign.later.generation.trans (orderly.leading name (.inl leader))
        · exact benign.later.generation.trans (benign.leads owner)
      evident := orderly.evident
      views := by
        have still (view : View) (viewed : Viewed first generation world view) :
            Viewed first generation (world.update name node) view :=
          viewed_later later (fun _ member => member) rfl rfl viewed
        exact update_all (fun _ changed => ∀ view, changed.view = some view →
            Viewed first generation (world.update name node) view)
          (fun view seen => still view (benign.view view seen))
          (fun other view seen => still view (orderly.views other view seen))
      covered := covered
      writes := writes
      running := update_all
        (fun other changed => ∀ run, changed.run = some run → (other, run) ∈ world.runs)
        benign.run orderly.running
      kept := by
        have still (other : Str) (p : PendingPromote)
            (kept : p.node = other ∧ Entry generation world p) :
            p.node = other ∧ Entry generation (world.update name node) p :=
          kept.imp_right (entry_later later fun _ member => member)
        exact update_all (fun other changed => ∀ p, changed.promotePending = some p →
            p.node = other ∧ Entry generation (world.update name node) p)
          (fun p kept => still name p (benign.kept p kept))
          (fun other p kept => still other p (orderly.kept other p kept))
      going := update_all
        (fun _ changed => ∀ p, changed.goAhead = some p → changed.promotePending = some p)
        benign.going orderly.going }

theorem covered_update {name : Str} {node : Node} (grown : Grown (world.nodes name) node)
    (record : TimelineRecord) (covered : Covered first generation world record) :
    Covered first generation (world.update name node) record :=
  covered_grown (update_all (fun other changed => Grown (world.nodes other) changed)
    grown fun _ => grown_refl _) rfl (fun _ member => member) covered

theorem orderly_update {name : Str} {node : Node} (orderly : Orderly first generation world)
    (grown : Grown (world.nodes name) node)
    (benign : Benign first generation world name node) :
    Orderly first generation (world.update name node) :=
  orderly_node orderly benign (covered_update grown _ orderly.covered) fun write sent =>
    sound_covered (show (world.update name node).version = world.version from rfl)
      (covered_update grown) (orderly.writes write sent)

/-- Publications, the lock, writes that are sent or dropped and new server runs
leave the nodes and the record as they are. -/
theorem orderly_around (orderly : Orderly first generation before)
    (nodes : after.nodes = before.nodes) (record : after.record = before.record)
    (version : after.version = before.version) (promotes : after.promotes = before.promotes)
    (runs : before.runs ⊆ after.runs)
    (leading : ∀ name, after.leader = some name → (before.nodes name).generation = generation)
    (evident : ∀ member ∈ after.members ++ after.samples,
      Evident first generation before.promotes member)
    (writes : ∀ write ∈ after.writes, Sound first generation before write) :
    Orderly first generation after := by
  have grown : ∀ name, Grown (before.nodes name) (after.nodes name) := by
    rw [nodes]
    exact fun name => grown_refl _
  have later : ∀ name, Later (before.nodes name) (after.nodes name) :=
    fun name => (grown name).toLater
  exact
    { numbers := promotes ▸ orderly.numbers
      beyond := promotes ▸ orderly.beyond
      within := promotes ▸ orderly.within
      owned := by
        rw [promotes, nodes]
        exact orderly.owned
      histories := by
        rw [promotes, nodes]
        exact orderly.histories
      generations := nodes ▸ orderly.generations
      leading := by
        rw [nodes]
        intro name leads
        rcases leads with leader | owner
        · exact leading name leader
        · exact orderly.leading name (.inr owner)
      evident := promotes ▸ evident
      views := by
        rw [nodes]
        intro name view seen
        exact viewed_later later (promotes ▸ fun _ member => member) version record
          (orderly.views name view seen)
      covered := record ▸ covered_grown grown promotes runs orderly.covered
      writes := fun write sent => sound_covered version
        (fun _ => covered_grown grown promotes runs) (writes write sent)
      running := by
        rw [nodes]
        exact fun name run running => runs (orderly.running name run running)
      kept := by
        rw [nodes]
        exact fun name p kept => (orderly.kept name p kept).imp_right (entry_later later runs)
      going := nodes ▸ orderly.going }

theorem orderly_write {write : Write} (orderly : Orderly first generation world)
    (sound : Sound first generation world write) :
    Orderly first generation { world with writes := write :: world.writes } := by
  refine orderly_around orderly rfl rfl rfl rfl (fun _ member => member)
    (fun name leader => orderly.leading name (.inl leader)) orderly.evident ?_
  intro other sent
  rcases List.mem_cons.mp sent with new | old
  · rw [new]
    exact sound
  · exact orderly.writes other old

/-- The signal goes to a node that is ready, and only under the recorded entry. -/
theorem orderly_signal {name : Str} {p : PendingPromote} (orderly : Orderly first generation world)
    (ready : Ready (world.nodes name) p) :
    Orderly first generation (world.update name { world.nodes name with signalled := true }) := by
  have named : p.node = name := (orderly.kept name p ready.kept).1
  suffices covers : ∀ record, Covered first generation world record →
      Covered first generation
        (world.update name { world.nodes name with signalled := true }) record from
    orderly_node orderly
      ⟨⟨rfl, .inl rfl⟩, orderly.histories name,
        fun owner => orderly.leading name (.inr owner),
        orderly.views name, orderly.running name, orderly.kept name, orderly.going name⟩
      (covers _ orderly.covered) fun write sent => sound_covered
        (show (world.update name { world.nodes name with signalled := true }).version =
          world.version from rfl) covers (orderly.writes write sent)
  intro record covered
  have later : ∀ other, Later (world.nodes other)
      ((world.update name { world.nodes name with signalled := true }).nodes other) :=
    update_all (fun other changed => Later (world.nodes other) changed) ⟨rfl, .inl rfl⟩
      (fun other => (grown_refl _).toLater)
  exact
    { recorded := covered.recorded
      existing := covered.existing
      above := covered.above
      made := covered.made
      signalled := update_all (fun other changed => changed.signalled = true →
          ∃ p, record.pending = some p ∧ p.node = other ∧ Armed changed p)
        (fun _ => ⟨p, covered.ready name p ready, named,
          ready.standby, ready.sameRun, ready.sameBase⟩) covered.signalled
      ready := update_all (fun _ changed => ∀ q, Ready changed q → record.pending = some q)
        (fun q still => covered.ready name q
          ⟨⟨still.standby, still.sameRun, still.sameBase⟩, still.kept⟩)
        covered.ready
      entry := fun q found => entry_later later (fun _ member => member) (covered.entry q found) }

/-- Under a covering record a timeline above the limit is the work of the pending
entry's node. -/
theorem existing_above {record : TimelineRecord} {id : TimelineId}
    (covered : Covered first generation world record)
    (there : Existing first world.promotes id) (higher : (limit record).timeline < id.timeline) :
    ∃ p promote, record.pending = some p ∧ promote ∈ world.promotes ∧ promote.id = id ∧
      promote.node = p.node ∧ id.timeline = (limit record).timeline + 1 := by
  rcases there with below | same | ⟨promote, member, same⟩
  · have := covered.above
    omega
  · have := covered.above
    subst id
    omega
  · subst id
    rcases covered.made promote member with lower | ⟨p, pending, node, next⟩
    · omega
    · exact ⟨p, promote, pending, member, rfl, node, next⟩

/-- A node that may create a timeline has none of its own above the limit. -/
theorem signalled_fresh {name : Str} (orderly : Orderly first generation world)
    {record : TimelineRecord} (covered : Covered first generation world record)
    (signalled : (world.nodes name).signalled = true) :
    (limit record).timeline = (world.nodes name).history.timeline ∧
      ∀ promote ∈ world.promotes,
        promote.id.timeline ≤ (world.nodes name).history.timeline := by
  obtain ⟨p, pending, named, armed⟩ := covered.signalled name signalled
  have bound : (limit record).timeline = (world.nodes name).history.timeline := by
    simp only [limit, pending, armed.sameBase]
  refine ⟨bound, fun promote member => ?_⟩
  rcases covered.made promote member with lower | ⟨q, same, node, next⟩
  · omega
  · obtain rfl : p = q := Option.some.inj (pending.symm.trans same)
    have held := orderly.owned promote member
    rwa [node, named] at held

/-- The node and the timeline after a promote that PostgreSQL carried out, or was
interrupted in after writing the history file. -/
structure Creates (world : World) (name : Str) (node : Node) (promote : Promote) : Prop where
  number : promote.id.timeline = (world.nodes name).history.timeline + 1
  creator : promote.node = name
  history : node.history = promote.id
  generation : node.generation = (world.nodes name).generation
  made : promote.generation = (world.nodes name).generation
  signalled : node.signalled = false
  lockOwner : node.lockOwner = (world.nodes name).lockOwner
  run : node.run = (world.nodes name).run
  view : node.view = (world.nodes name).view
  kept : node.promotePending = (world.nodes name).promotePending
  going : node.goAhead = (world.nodes name).goAhead

theorem creates_later {name : Str} {node : Node} {promote : Promote}
    (creates : Creates world name node promote) (other : Str) :
    Later (world.nodes other) ((world.update name node).nodes other) := by
  refine update_all (fun other changed => Later (world.nodes other) changed) ?_
    (fun other => (grown_refl _).toLater) other
  refine ⟨creates.generation, .inr ?_⟩
  rw [creates.history, creates.number]
  exact Nat.lt_succ_self _

/-- The new timeline is the one the pending entry allows for. -/
theorem covered_create {name : Str} {node : Node} {promote : Promote} {record : TimelineRecord}
    (orderly : Orderly first generation world)
    (signalled : (world.nodes name).signalled = true)
    (creates : Creates world name node promote)
    (covered : Covered first generation world record) :
    Covered first generation
      { world.update name node with promotes := promote :: world.promotes } record := by
  obtain ⟨p, recorded, mine, _⟩ := covered.signalled name signalled
  have top := (signalled_fresh orderly covered signalled).1
  exact
    { recorded := covered.recorded
      existing := existing_more (List.subset_cons_self _ _) covered.existing
      above := covered.above
      made := by
        intro other member
        rcases List.mem_cons.mp member with new | old
        · subst other
          exact .inr ⟨p, recorded, creates.creator.trans mine.symm, by rw [creates.number, top]⟩
        · exact covered.made other old
      signalled := by
        refine update_all (fun other changed => changed.signalled = true →
          ∃ p, record.pending = some p ∧ p.node = other ∧ Armed changed p) ?_
          covered.signalled
        exact fun given => absurd given (by simp [creates.signalled])
      ready := by
        refine update_all (fun _ changed => ∀ q, Ready changed q → record.pending = some q) ?_
          covered.ready
        -- The entry's base is the history the node has just left.
        intro q ready
        obtain ⟨named, entry⟩ := orderly.kept name q (creates.kept.symm.trans ready.kept)
        have moved : q.baseTimeline = (world.nodes name).history.timeline + 1 := by
          rw [← creates.number, ← creates.history, ready.sameBase]
          rfl
        rcases entry.based with based | below
        · have same : q.baseTimeline = (world.nodes q.node).history.timeline :=
            congrArg TimelineId.timeline based
          rw [named] at same
          omega
        · rw [named] at below
          omega
      entry := fun q found => entry_later (creates_later creates) (fun _ member => member)
        (covered.entry q found) }

/-- What a signalled node creates is one above everything there is. -/
theorem orderly_create {name : Str} {node : Node} {promote : Promote}
    (orderly : Orderly first generation world)
    (signalled : (world.nodes name).signalled = true)
    (creates : Creates world name node promote) :
    Orderly first generation
      { world.update name node with promotes := promote :: world.promotes } := by
  obtain ⟨entry, pending, named, _⟩ := orderly.covered.signalled name signalled
  obtain ⟨bound, lower⟩ := signalled_fresh orderly orderly.covered signalled
  have own : (world.nodes name).generation = generation :=
    named ▸ (orderly.covered.entry entry pending).promoter
  have firstBelow := orderly.covered.above
  have number := creates.number
  have later := creates_later creates
  have more : world.promotes ⊆ promote :: world.promotes := List.subset_cons_self _ _
  have each (P : Promote → Prop) (new : P promote) (old : ∀ other ∈ world.promotes, P other) :
      ∀ other ∈ promote :: world.promotes, P other := by
    intro other member
    rcases List.mem_cons.mp member with same | earlier
    · rwa [same]
    · exact old other earlier
  exact
    { numbers := by
        rw [List.map_cons, List.nodup_cons]
        refine ⟨?_, orderly.numbers⟩
        intro taken
        obtain ⟨other, member, same⟩ := List.mem_map.mp taken
        have := lower other member
        omega
      beyond := each _ (by omega) orderly.beyond
      within := each _ (creates.made.trans own) orderly.within
      owned := by
        refine each _ ?_ ?_
        · simp [creates.creator, creates.history]
        · intro other earlier
          have held := orderly.owned other earlier
          rcases (later other.node).history with same | newer
          · exact same ▸ held
          · exact Nat.le_of_lt (Nat.lt_of_le_of_lt held newer)
      histories := update_all (fun _ changed => changed.generation = generation →
          Existing first (promote :: world.promotes) changed.history)
        (fun _ => .inr (.inr ⟨promote, by simp, creates.history.symm⟩))
        (fun other same => existing_more more (orderly.histories other same))
      generations := update_all (fun _ changed => changed.generation ≤ generation)
        (creates.generation.trans own).le orderly.generations
      leading := update_all (fun other changed =>
          world.leader = some other ∨ changed.lockOwner = true →
            changed.generation = generation)
        (fun _ => creates.generation.trans own) orderly.leading
      evident := fun member listed lineage published same history newest =>
        existing_more more (orderly.evident member listed lineage published same history newest)
      views := by
        have still (other : Str) (view : View) (seen : (world.nodes other).view = some view) :
            Viewed first generation
              { world.update name node with promotes := promote :: world.promotes } view :=
          viewed_later later more rfl rfl (orderly.views other view seen)
        exact update_all (fun _ changed => ∀ view, changed.view = some view →
          Viewed first generation _ view)
          (fun view seen => still name view (creates.view.symm.trans seen)) still
      covered := covered_create orderly signalled creates orderly.covered
      writes := fun write sent => sound_covered
        (show (world.update name node).version = world.version from rfl)
        (fun _ => covered_create orderly signalled creates) (orderly.writes write sent)
      running := update_all (fun other changed => ∀ run, changed.run = some run →
          (other, run) ∈ world.runs)
        (fun run running => orderly.running name run (creates.run.symm.trans running))
        orderly.running
      kept := by
        have still (other : Str) (p : PendingPromote)
            (kept : (world.nodes other).promotePending = some p) :
            p.node = other ∧ Entry generation
              { world.update name node with promotes := promote :: world.promotes } p :=
          (orderly.kept other p kept).imp_right (entry_later later fun _ member => member)
        exact update_all (fun other changed => ∀ p, changed.promotePending = some p →
          p.node = other ∧ Entry generation _ p)
          (fun p kept => still name p (creates.kept.symm.trans kept)) still
      going := update_all (fun _ changed => ∀ p, changed.goAhead = some p →
          changed.promotePending = some p)
        (fun p going => creates.kept.trans
          (orderly.going name p (creates.going.symm.trans going))) orderly.going }

/-- A new record makes every other view and write outdated. -/
theorem orderly_record {record : TimelineRecord} (orderly : Orderly first generation world)
    (covered : Covered first generation world record) :
    Orderly first generation { world with record := record, version := world.version + 1 } where
  numbers := orderly.numbers
  beyond := orderly.beyond
  within := orderly.within
  owned := orderly.owned
  histories := orderly.histories
  generations := orderly.generations
  leading := orderly.leading
  evident := orderly.evident
  views := by
    intro name view seen
    obtain ⟨found, version, shown, past, _, recorded, entries⟩ :=
      (orderly.views name view seen).timeline
    refine ⟨⟨found, version, shown, Nat.le_succ_of_le past, ?_, recorded, entries⟩,
      (orderly.views name view seen).members⟩
    intro present
    simp only at present
    omega
  covered := covered_grown (fun name => show Grown (world.nodes name) _ from grown_refl _) rfl
    (fun _ member => member) covered
  writes := by
    intro write sent
    obtain ⟨version, guarded, past, _⟩ := (orderly.writes write sent).version
    refine ⟨⟨version, guarded, Nat.le_succ_of_le past, ?_⟩,
      (orderly.writes write sent).sender⟩
    intro present
    simp only at present
    omega
  running := orderly.running
  kept := fun name p kept => (orderly.kept name p kept).imp_right
    (entry_later (fun name => show Later (world.nodes name) _ from (grown_refl _).toLater)
      fun _ member => member)
  going := orderly.going

/-- The sender of the recorded entry keeps it; no other write can commit. -/
theorem orderly_keep {name : Str} {p : PendingPromote} {asked : Option PendingPromote}
    (orderly : Orderly first generation world) (recorded : world.record.pending = some p)
    (named : p.node = name)
    (outdated : ∀ write ∈ world.writes, write.version ≠ some world.version) :
    Orderly first generation (world.update name
      { world.nodes name with promotePending := some p, goAhead := some p, asked := asked }) := by
  have later : ∀ other, Later (world.nodes other) ((world.update name
      { world.nodes name with
        promotePending := some p, goAhead := some p, asked := asked }).nodes other) :=
    update_all (fun other changed => Later (world.nodes other) changed) ⟨rfl, .inl rfl⟩
      (fun other => (grown_refl _).toLater)
  refine orderly_node orderly
    { later := ⟨rfl, .inl rfl⟩
      known := orderly.histories name
      leads := fun owner => orderly.leading name (.inr owner)
      view := orderly.views name
      run := orderly.running name
      kept := fun q kept => Option.some.inj kept ▸ ⟨named, orderly.covered.entry p recorded⟩
      going := fun _ going => going } ?_ ?_
  · exact
      { recorded := orderly.covered.recorded
        existing := orderly.covered.existing
        above := orderly.covered.above
        made := orderly.covered.made
        signalled := by
          refine update_all (fun other changed => changed.signalled = true →
            ∃ p, world.record.pending = some p ∧ p.node = other ∧ Armed changed p) ?_
            orderly.covered.signalled
          intro given
          obtain ⟨q, pending, mine, armed⟩ := orderly.covered.signalled name given
          exact ⟨q, pending, mine, armed.standby, armed.sameRun, armed.sameBase⟩
        ready := update_all
          (fun _ changed => ∀ q, Ready changed q → world.record.pending = some q)
          (fun q ready => recorded.trans ready.kept) orderly.covered.ready
        entry := fun q found => entry_later later (fun _ member => member)
          (orderly.covered.entry q found) }
  · intro write sent
    obtain ⟨version, guarded, past, _⟩ := (orderly.writes write sent).version
    refine ⟨⟨version, guarded, past, ?_⟩, (orderly.writes write sent).sender⟩
    rintro rfl
    exact absurd guarded (outdated write sent)

theorem orderly_commit {write : Write} (orderly : Orderly first generation world)
    (sound : Sound first generation world write) (live : write.version = some world.version)
    (heard : Bool) : Orderly first generation (world.commit write heard) := by
  obtain ⟨version, guarded, _, covers⟩ := sound.version
  have covered := covers (Option.some.inj (guarded.symm.trans live))
  have written := orderly_record orderly covered
  have outdated : ∀ other ∈ world.writes, other.version ≠ some (world.version + 1) := by
    intro other sent same
    obtain ⟨version, guarded, past, _⟩ := (orderly.writes other sent).version
    have := Option.some.inj (guarded.symm.trans same)
    omega
  cases heard with
  | false => simpa [World.commit] using written
  | true =>
      cases purpose : write.purpose with
      | pendingEntry =>
          simp only [World.commit, purpose]
          split
          · obtain ⟨p, recorded, named⟩ := sound.sender purpose
            rw [recorded]
            exact orderly_keep written recorded named outdated
          · exact written
      | confirmation =>
          simp only [World.commit, purpose]
          refine orderly_update written ?_ ?_
          · exact ⟨⟨rfl, .inl rfl⟩,
              fun given => ⟨given,
                fun p armed => ⟨armed.standby, armed.sameRun, armed.sameBase⟩⟩,
              fun p ready => absurd ready.kept (by simp)⟩
          · exact
              { later := ⟨rfl, .inl rfl⟩
                known := orderly.histories write.node
                leads := fun owner => orderly.leading _ (.inr owner)
                view := written.views write.node
                run := orderly.running write.node
                kept := by simp
                going := by simp }
      | hold => simpa [World.commit, purpose] using written

end Step

end PgHa.TimelineNumbers
