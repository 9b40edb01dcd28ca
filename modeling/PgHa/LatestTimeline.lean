import PgHa.Cluster

/-!
`ha/lineage.rs`: which timeline is the latest, who may campaign on it, and what
the lock holder writes to `/timeline`. Every function is pure and reads only the
record and what members published. With no member and no voter `infer_latest` takes
`histories[0]` of an empty list and panics; the model answers `Incomplete` there and
goes on, so what it says of a call holds of the call where it returns, and what it says
of every event holds of those before a panic.
-/

namespace PgHa.LatestTimeline

open Text Cluster

inductive LatestVia where
  | record
  | pendingCreated (node : Str)
  | pendingVoid (node : Str)
  | inferred
  deriving DecidableEq, Repr

inductive UnknownReason where
  | conflict (a b : TimelineId)
  | incomplete (reported : Nat) (voters : Option Nat)
  | mixedGenerations
  deriving DecidableEq, Repr

inductive Latest where
  | known (id : TimelineId) (generation : Nat) (via : LatestVia)
  | pendingUnresolved (pending : PendingPromote)
  | unknown (reason : UnknownReason)
  deriving DecidableEq, Repr

def decimal (n : Nat) : Str := Nat.toDigits 10 n

/-- The format `X`. -/
def upperHex (n : Nat) : Str := (Nat.toDigits 16 n).map Char.toUpper

def displayId (id : TimelineId) : Str :=
  "timeline ".toList ++ decimal id.timeline ++ " (begins at ".toList ++
    upperHex (id.begin / 2 ^ 32) ++ "/".toList ++ upperHex (id.begin % 2 ^ 32) ++ ")".toList

def displayUnknown : UnknownReason → Str
  | .conflict a b =>
      "members publish two different histories for the newest timeline: ".toList ++
        displayId a ++ " and ".toList ++ displayId b
  | .incomplete reported (some voters) =>
      "no /timeline record and only ".toList ++ decimal reported ++ " of ".toList ++
        decimal voters ++ " nodes published their timeline history".toList
  | .incomplete _ none => "no /timeline record and the number of nodes is unknown".toList
  | .mixedGenerations =>
      "no /timeline record and members are in different history generations".toList

def historyOf (member : Member) : Option HistoryEvidence :=
  member.lineage.bind Lineage.history

/-- The identity of a history above the base that a member of the promote's
generation publishes. -/
def aboveBase (p : PendingPromote) (member : Member) : Option TimelineId :=
  match member.lineage with
  | none => none
  | some lineage =>
      if lineage.generation ≠ p.generation then none
      else match lineage.history with
        | none => none
        | some history => if history.timeline ≤ p.baseTimeline then none else some history.id

/-- The loop over identities that must all agree: `Err` at the first that does
not. -/
def agreeing : Option TimelineId → List TimelineId → Except UnknownReason (Option TimelineId)
  | seen, [] => .ok seen
  | none, id :: rest => agreeing (some id) rest
  | some seen, id :: rest =>
      if seen = id then agreeing (some seen) rest else .error (.conflict seen id)

/-- The promoter publishes no newer history, and its PostgreSQL is stopped or
runs since after the entry was written. -/
def promoteIsVoid (p : PendingPromote) (members : List Member) : Bool :=
  match members.find? (fun member => member.name == p.node) with
  | none => false
  | some member =>
      match member.lineage with
      | none => false
      | some lineage =>
          let noNewer := lineage.history.any fun history => history.timeline ≤ p.baseTimeline
          let stopped := member.state == .stopped || member.state == .crashed
          let restarted :=
            lineage.postmasterStart.isSome && lineage.postmasterStart != p.postmasterStart
          noNewer && (stopped || restarted)

def resolvePending (record : TimelineRecord) (p : PendingPromote) (members : List Member) :
    Latest :=
  match agreeing none (members.filterMap (aboveBase p)) with
  | .error reason => .unknown reason
  | .ok (some id) => .known id p.generation (.pendingCreated p.node)
  | .ok none =>
      if promoteIsVoid p members then .known record.id record.generation (.pendingVoid p.node)
      else .pendingUnresolved p

/-- No record in the current format: safe only when every node reported. -/
def inferLatest (members : List Member) (voters : Option Nat) : Latest :=
  let histories := members.filterMap fun member =>
    (historyOf member).map fun history => (member, history)
  let generationOf (member : Member) : Nat := (member.lineage.map Lineage.generation).getD 0
  let complete := voters.any fun voters =>
    voters ≤ histories.length && histories.length == members.length
  if !complete then .unknown (.incomplete histories.length voters)
  else
    let generation := (histories.head?.map fun found => generationOf found.1).getD 0
    if histories.any fun found => generationOf found.1 != generation then
      .unknown .mixedGenerations
    else
      let newest := ((histories.map fun found => found.2.timeline).max?).getD 1
      let named := (histories.filter fun found => found.2.timeline == newest).map
        fun found => found.2.id
      match agreeing none named with
      | .error reason => .unknown reason
      | .ok (some id) => .known id generation .inferred
      | .ok none => .unknown (.incomplete histories.length voters)

def resolveLatest (timeline : ClusterTimeline) (members : List Member) (voters : Option Nat) :
    Latest :=
  match timeline with
  | .record record _ =>
      match record.pending with
      | none => .known record.id record.generation .record
      | some p => resolvePending record p members
  | .absent | .legacy _ _ | .unreadable _ => inferLatest members voters

inductive Ineligible where
  | noEvidence
  | generation (own cluster : Nat)
  | behind (own : Option Nat) (latest : TimelineId)
  | differentHistory (own latest : TimelineId)
  | unrecordedNewer (own latest : TimelineId)
  | pending (node : Str)
  | latestUnknown (reason : UnknownReason)
  | watchdogUnavailable
  deriving DecidableEq, Repr

def displayIneligible : Ineligible → Str
  | .noEvidence => "no timeline evidence published".toList
  | .generation own cluster =>
      "its data is history generation ".toList ++ decimal own ++
        ", the cluster is in generation ".toList ++ decimal cluster ++
        "; it must be reinitialized".toList
  | .behind (some own) latest =>
      "timeline ".toList ++ decimal own ++ " is not shown to be the latest ".toList ++
        displayId latest
  | .behind none latest => "timeline unknown, the latest is ".toList ++ displayId latest
  | .differentHistory own latest =>
      "its ".toList ++ displayId own ++ " is a different history than the cluster's ".toList ++
        displayId latest
  | .unrecordedNewer own latest =>
      "it knows ".toList ++ displayId own ++ ", above the recorded latest ".toList ++
        displayId latest
  | .pending node =>
      "a promote by ".toList ++ node ++
        " may have created a newer timeline and is not resolved".toList
  | .latestUnknown reason => "the latest timeline is unknown: ".toList ++ displayUnknown reason
  | .watchdogUnavailable => "the watchdog is required but cannot be used on this node".toList

/-- The last two tests of `eligibility`: the published timeline, or WAL on the
newest history. -/
def onLatest (member : Member) (lineage : Lineage) (id : TimelineId) :
    Except Ineligible Unit := do
  let published ←
    if member.timeline = some id.timeline then
      match lineage.timelineBegin with
      | some begin =>
          if begin = id.begin then .ok true
          else .error (.differentHistory ⟨id.timeline, begin⟩ id)
      | none => .ok false
    else .ok false
  let held ←
    match lineage.history with
    | some history =>
        if history.timeline = id.timeline ∧ history.wal then
          if history.begin ≠ id.begin then .error (.differentHistory history.id id)
          else .ok true
        else .ok published
    | none => .ok published
  if held then .ok ()
  else if member.timeline = some id.timeline then .error .noEvidence
  else .error (.behind member.timeline id)

/-- May the member campaign? Judged only from what it published. -/
def eligibility (member : Member) (latest : Latest) : Except Ineligible Unit :=
  match latest with
  | .pendingUnresolved pending =>
      if member.name = pending.node then .ok () else .error (.pending pending.node)
  | .unknown reason => .error (.latestUnknown reason)
  | .known id generation _ =>
      match member.lineage with
      | none => .error .noEvidence
      | some lineage =>
          if lineage.generation ≠ generation then
            .error (.generation lineage.generation generation)
          else match lineage.history with
            | some history =>
                if id.timeline < history.timeline then
                  .error (.unrecordedNewer history.id id)
                else onLatest member lineage id
            | none => onLatest member lineage id

/-- What the lock holder records before `pg_ctl promote`. -/
def planPromote (me : Str) (latest : Latest) (recordGeneration : Nat)
    (localNewest : HistoryEvidence)
    (acceptLoss : Bool) (postmasterStart : Option Str) : Except Str PendingPromote :=
  let pending (base : TimelineId) (generation : Nat) : PendingPromote :=
    ⟨me, base.timeline, base.begin, generation, postmasterStart⟩
  if acceptLoss then .ok (pending localNewest.id (recordGeneration + 1))
  else match latest with
    | .known id generation _ =>
        if localNewest.id = id then .ok (pending id generation)
        else .error ("this node's newest history is ".toList ++ displayId localNewest.id ++
          ", not the latest ".toList ++ displayId id ++
          "; promoting would reuse a timeline number".toList)
    | .pendingUnresolved p =>
        if p.node = me then
          if localNewest.timeline < p.baseTimeline then
            .error ("this node's newest history ".toList ++ displayId localNewest.id ++
              " is below the base of its own pending promote (timeline ".toList ++
              decimal p.baseTimeline ++ ")".toList)
          else .ok (pending localNewest.id p.generation)
        else .error ("a promote by ".toList ++ p.node ++ " is not resolved".toList)
    | .unknown reason =>
        .error ("the latest timeline is unknown: ".toList ++ displayUnknown reason)

/-- The record `record_pending_promote` writes: `pending` replaced, every other
field of a current-format record kept. -/
def pendingRecord (timeline : ClusterTimeline) (pending : PendingPromote) : TimelineRecord :=
  match timeline.recordOf with
  | some record => { record with pending := some pending }
  | none =>
      { timeline := pending.baseTimeline
        begin := pending.baseBegin
        primary := []
        generation := timeline.generation
        pending := some pending }

/-- The record to write after a confirmed promote. -/
def confirmedRecord (me : Str) (pending : PendingPromote) (new : TimelineId) :
    Except Str TimelineRecord :=
  if new.timeline ≤ pending.baseTimeline then
    .error ("PostgreSQL reports ".toList ++ displayId new ++
      " after promote, not above the base timeline ".toList ++ decimal pending.baseTimeline)
  else .ok ⟨new.timeline, new.begin, me, pending.generation, none⟩

inductive HoldAction where
  | upToDate
  | write (record : TimelineRecord)
  | conflict (message : Str)
  deriving DecidableEq, Repr

/-- The tests of `hold_action` on a record with no pending promote, in the
primary's own generation. -/
def holdRecorded (record : TimelineRecord) (own : TimelineId) (write : HoldAction) :
    HoldAction :=
  if record.id = own then .upToDate
  else if own.timeline < record.timeline then
    .conflict ("/timeline records ".toList ++ displayId record.id ++
      ", above this primary's ".toList ++ displayId own ++ "; never lowered".toList)
  else if record.timeline = own.timeline then
    .conflict ("/timeline records ".toList ++ displayId record.id ++
      ", a different history than this primary's ".toList ++ displayId own)
  else write

/-- What a lock-holding primary does with `/timeline` each cycle. -/
def holdAction (me : Str) (timeline : ClusterTimeline) (members : List Member)
    (voters : Option Nat) (own : TimelineId) (ownGeneration : Nat) : HoldAction :=
  let write := HoldAction.write ⟨own.timeline, own.begin, me, ownGeneration, none⟩
  match timeline.recordOf with
  | none => write
  | some record =>
      let recordGeneration (mine : Bool) (rest : HoldAction) : HoldAction :=
        if record.generation ≠ ownGeneration ∧ mine = false then
          .conflict ("/timeline is in history generation ".toList ++ decimal record.generation ++
            " and this primary's data in ".toList ++ decimal ownGeneration)
        else rest
      match record.pending with
      | none => recordGeneration false (holdRecorded record own write)
      | some p =>
          if p.node = me ∧ p.generation ≠ ownGeneration then
            .conflict ("this node's pending promote is in history generation ".toList ++
              decimal p.generation ++ " but its data directory in ".toList ++
              decimal ownGeneration)
          else
            recordGeneration (p.node = me ∧ p.generation = ownGeneration)
              (match resolveLatest timeline members voters with
              | .pendingUnresolved _ =>
                  if p.node ≠ me then
                    .conflict ("a promote by ".toList ++ p.node ++
                      " is not resolved; not clearing it".toList)
                  else write
              | .known _ _ _ | .unknown _ => write)

theorem aboveBase_some {p : PendingPromote} {member : Member} {id : TimelineId}
    (above : aboveBase p member = some id) :
    ∃ lineage history, member.lineage = some lineage ∧ lineage.generation = p.generation ∧
      lineage.history = some history ∧ p.baseTimeline < history.timeline ∧ history.id = id := by
  unfold aboveBase at above
  cases published : member.lineage with
  | none => simp [published] at above
  | some lineage =>
      simp only [published] at above
      split at above
      · cases above
      · rename_i sameGeneration
        cases newest : lineage.history with
        | none => simp [newest] at above
        | some history =>
            simp only [newest] at above
            split at above
            · cases above
            · rename_i higher
              exact ⟨lineage, history, rfl, not_not.mp sameGeneration, newest, by omega,
                Option.some.inj above⟩

theorem agreeing_some {seen : Option TimelineId} {ids : List TimelineId} {id : TimelineId}
    (agreed : agreeing seen ids = .ok (some id)) : seen = some id ∨ id ∈ ids := by
  induction ids generalizing seen with
  | nil =>
      simp only [agreeing, Except.ok.injEq] at agreed
      exact .inl agreed
  | cons head rest ih =>
      cases seen with
      | none =>
          rcases ih agreed with same | later
          · exact .inr (by simp [Option.some.inj same])
          · exact .inr (List.mem_cons_of_mem head later)
      | some first =>
          simp only [agreeing] at agreed
          split at agreed
          · exact (ih agreed).imp_right (List.mem_cons_of_mem head)
          · cases agreed

theorem agreeing_error {seen : Option TimelineId} {ids : List TimelineId}
    {reason : UnknownReason} (refused : agreeing seen ids = .error reason) :
    ∃ a b, (seen = some a ∨ a ∈ ids) ∧ b ∈ ids ∧ a ≠ b := by
  induction ids generalizing seen with
  | nil => simp [agreeing] at refused
  | cons head rest ih =>
      cases seen with
      | none =>
          obtain ⟨a, b, first, second, different⟩ := ih refused
          refine ⟨a, b, .inr ?_, List.mem_cons_of_mem head second, different⟩
          rcases first with same | later
          · simp [Option.some.inj same]
          · exact List.mem_cons_of_mem head later
      | some first =>
          simp only [agreeing] at refused
          split at refused
          · obtain ⟨a, b, origin, second, different⟩ := ih refused
            exact ⟨a, b, origin.imp_right (List.mem_cons_of_mem head),
              List.mem_cons_of_mem head second, different⟩
          · rename_i different
            exact ⟨first, head, .inl rfl, by simp, different⟩

/-- What `resolve_pending` can answer: a history above the base that some member
published, the record when the promote is void, the entry itself, or a conflict of
two published histories. -/
theorem resolvePending_cases (record : TimelineRecord) (p : PendingPromote)
    (members : List Member) :
    (∃ member ∈ members, ∃ id, aboveBase p member = some id ∧
      resolvePending record p members = .known id p.generation (.pendingCreated p.node)) ∨
    (promoteIsVoid p members = true ∧ resolvePending record p members =
      .known record.id record.generation (.pendingVoid p.node)) ∨
    resolvePending record p members = .pendingUnresolved p ∨
    (∃ reason, resolvePending record p members = .unknown reason ∧
      ∃ first ∈ members, ∃ second ∈ members, ∃ a b, aboveBase p first = some a ∧
        aboveBase p second = some b ∧ a ≠ b) := by
  unfold resolvePending
  cases agreed : agreeing none (members.filterMap (aboveBase p)) with
  | error reason =>
      obtain ⟨a, b, first, second, different⟩ := agreeing_error agreed
      rcases first with seen | first
      · cases seen
      · obtain ⟨memberA, inA, aboveA⟩ := List.mem_filterMap.mp first
        obtain ⟨memberB, inB, aboveB⟩ := List.mem_filterMap.mp second
        exact .inr (.inr (.inr ⟨reason, rfl, memberA, inA, memberB, inB, a, b, aboveA, aboveB,
          different⟩))
  | ok created =>
      cases created with
      | some id =>
          rcases agreeing_some agreed with seen | listed
          · cases seen
          · obtain ⟨member, inMembers, above⟩ := List.mem_filterMap.mp listed
            exact .inl ⟨member, inMembers, id, above, rfl⟩
      | none =>
          by_cases void : promoteIsVoid p members = true
          · exact .inr (.inl ⟨void, by simp [void]⟩)
          · exact .inr (.inr (.inl (by simp [void])))

theorem resolvePending_known {record : TimelineRecord} {p : PendingPromote}
    {members : List Member} {id : TimelineId} {generation : Nat} {via : LatestVia}
    (known : resolvePending record p members = .known id generation via) :
    generation = p.generation ∨ generation = record.generation := by
  rcases resolvePending_cases record p members with
    ⟨_, _, _, _, created⟩ | ⟨_, void⟩ | waiting | ⟨_, conflict, _⟩
  · rw [created, Latest.known.injEq] at known
    exact .inl known.2.1.symm
  · rw [void, Latest.known.injEq] at known
    exact .inr known.2.1.symm
  · simp [waiting] at known
  · simp [conflict] at known

theorem resolvePending_unresolved {record : TimelineRecord} {p q : PendingPromote}
    {members : List Member} (unresolved : resolvePending record p members = .pendingUnresolved q) :
    p = q := by
  rcases resolvePending_cases record p members with
    ⟨_, _, _, _, created⟩ | ⟨_, void⟩ | waiting | ⟨_, conflict, _⟩
  · simp [created] at unresolved
  · simp [void] at unresolved
  · exact Latest.pendingUnresolved.inj (waiting.symm.trans unresolved)
  · simp [conflict] at unresolved

/-- Who may campaign is the promoter that is waited for, or has data of the generation
of the latest timeline. -/
theorem eligibility_grounds {member : Member} {latest : Latest}
    (eligible : eligibility member latest = .ok ()) :
    (∃ pending, latest = .pendingUnresolved pending ∧ member.name = pending.node) ∨
      ∃ id generation via lineage, latest = .known id generation via ∧
        member.lineage = some lineage ∧ lineage.generation = generation := by
  cases latest with
  | unknown reason => cases eligible
  | pendingUnresolved pending =>
      simp only [eligibility] at eligible
      split at eligible
      · rename_i promoter
        exact .inl ⟨pending, rfl, promoter⟩
      · cases eligible
  | known id generation via =>
      simp only [eligibility] at eligible
      cases published : member.lineage with
      | none =>
          rw [published] at eligible
          cases eligible
      | some lineage =>
          simp only [published] at eligible
          split at eligible
          · cases eligible
          · rename_i same
            exact .inr ⟨id, generation, via, lineage, rfl, rfl, not_not.mp same⟩

theorem planPromote_ok {me : Str} {latest : Latest} {recordGeneration : Nat}
    {localNewest : HistoryEvidence} {run : Option Str} {entry : PendingPromote}
    (planned : planPromote me latest recordGeneration localNewest false run = .ok entry) :
    ∃ generation, entry = ⟨me, localNewest.timeline, localNewest.begin, generation, run⟩ ∧
      ((∃ via, latest = .known localNewest.id generation via) ∨
        ∃ q, latest = .pendingUnresolved q ∧ q.node = me ∧ q.generation = generation) := by
  unfold planPromote at planned
  simp only [Bool.false_eq_true, if_false] at planned
  cases latest with
  | known id generation via =>
      simp only at planned
      split at planned
      · rename_i same
        subst id
        exact ⟨generation, (Except.ok.inj planned).symm, .inl ⟨via, rfl⟩⟩
      · cases planned
  | pendingUnresolved q =>
      simp only at planned
      split at planned
      · rename_i mine
        split at planned
        · cases planned
        · exact ⟨q.generation, (Except.ok.inj planned).symm, .inr ⟨q, rfl, mine, rfl⟩⟩
      · cases planned
  | unknown reason => cases planned

theorem holdAction_write {me : Str} {record written : TimelineRecord} {version : Nat}
    {members : List Member} {voters : Option Nat} {own : TimelineId} {generation : Nat}
    (decided : holdAction me (.record record version) members voters own generation =
      .write written) :
    written = ⟨own.timeline, own.begin, me, generation, none⟩ ∧
      ((record.pending = none ∧ record.generation = generation ∧
          record.timeline < own.timeline) ∨
        (∃ p, record.pending = some p ∧ p.node = me ∧ p.generation = generation) ∨
        ∃ p, record.pending = some p ∧ p.node ≠ me ∧ record.generation = generation ∧
          ∀ q, resolvePending record p members ≠ .pendingUnresolved q) := by
  simp only [holdAction, ClusterTimeline.recordOf, resolveLatest] at decided
  cases entry : record.pending with
  | none =>
      simp only [entry, and_true, holdRecorded] at decided
      split at decided
      · cases decided
      · rename_i sameGeneration
        split at decided
        · cases decided
        · split at decided
          · cases decided
          · split at decided
            · cases decided
            · exact ⟨(HoldAction.write.inj decided).symm,
                .inl ⟨rfl, not_not.mp sameGeneration, by omega⟩⟩
  | some p =>
      simp only [entry] at decided
      split at decided
      · cases decided
      · rename_i notStale
        split at decided
        · cases decided
        · rename_i current
          by_cases mine : p.node = me
          · have agrees : p.generation = generation := by
              by_contra differs
              exact notStale ⟨mine, differs⟩
            refine ⟨?_, .inr (.inl ⟨p, rfl, mine, agrees⟩)⟩
            split at decided
            · simp only [mine, ne_eq, not_true_eq_false, if_false] at decided
              exact (HoldAction.write.inj decided).symm
            · exact (HoldAction.write.inj decided).symm
            · exact (HoldAction.write.inj decided).symm
          · have agrees : record.generation = generation := by
              by_contra differs
              exact current ⟨differs, by simp [mine]⟩
            split at decided
            · simp [mine] at decided
            · rename_i known
              refine ⟨(HoldAction.write.inj decided).symm,
                .inr (.inr ⟨p, rfl, mine, agrees, ?_⟩)⟩
              simp [known]
            · rename_i unknown
              refine ⟨(HoldAction.write.inj decided).symm,
                .inr (.inr ⟨p, rfl, mine, agrees, ?_⟩)⟩
              simp [unknown]

end PgHa.LatestTimeline
