import PgHa.LatestTimeline

/-!
What the lock holder writes to `/timeline`, against the record it read. The entry of a
promote that came to nothing should lead back to the timeline it was based on, and the
Hold path should never lower the record or drop a history that it knows of. Both
functions look only at the record's own fields in places where the pending entry
decides; the theorems say for which inputs this is enough.
-/

namespace PgHa.TimelineWrites

open Text Cluster LatestTimeline

/-! ### Voiding a pending promote -/

def NoNewer (p : PendingPromote) (members : List Member) : Prop :=
  ∀ member ∈ members, aboveBase p member = none

instance (p : PendingPromote) (members : List Member) : Decidable (NoNewer p members) :=
  inferInstanceAs (Decidable (∀ member ∈ members, _))

/-- Void evidence leads back to the base of the entry, anything else leaves it unresolved. -/
def Restores (p : PendingPromote) (members : List Member) (latest : Latest) : Prop :=
  if promoteIsVoid p members then ∃ generation via, latest = .known p.base generation via
  else latest = .pendingUnresolved p

theorem resolvePending_noNewer (record : TimelineRecord) (p : PendingPromote)
    (members : List Member) (quiet : NoNewer p members) :
    resolvePending record p members =
      if promoteIsVoid p members then .known record.id record.generation (.pendingVoid p.node)
      else .pendingUnresolved p := by
  have silent : members.filterMap (aboveBase p) = [] := by
    rw [List.filterMap_eq_nil_iff]
    exact quiet
  simp [resolvePending, silent, agreeing]

def stoppedPromoter (p : PendingPromote) : Member :=
  { name := p.node
    state := .stopped
    role := .replica
    walPosition := none
    timeline := none
    tags := ⟨none, none, none, none⟩
    rewindCheck := false
    lineage := some ⟨none, some ⟨p.baseTimeline, p.baseBegin, true⟩, none, p.generation⟩
    watchdogFailed := false }

theorem stoppedPromoter_void (p : PendingPromote) :
    NoNewer p [stoppedPromoter p] ∧ promoteIsVoid p [stoppedPromoter p] = true := by
  constructor
  · simp [NoNewer, aboveBase, stoppedPromoter]
  · simp [promoteIsVoid, stoppedPromoter]

/-- A pending promote that was planned without an override and is void leads back to its
base exactly when the promoting node's newest history was the recorded timeline itself:
the void branch answers with the record's fields, and the base may be a newer timeline. -/
theorem void_restores_base_iff {me : Str} {record : TimelineRecord} {version version' : Nat}
    {members : List Member} {voters voters' : Option Nat} {localNewest : HistoryEvidence}
    {run : Option Str} {p : PendingPromote}
    (planned : planPromote me (resolveLatest (.record record version) members voters)
      record.generation localNewest false run = .ok p) :
    (∀ later, NoNewer p later → Restores p later (resolveLatest
      (.record (pendingRecord (.record record version) p) version') later voters')) ↔
      localNewest.id = record.id := by
  have base : p.base = localNewest.id := by
    obtain ⟨generation, rfl, _⟩ := planPromote_ok planned
    rfl
  have resolved : ∀ later, resolveLatest (.record (pendingRecord (.record record version) p)
      version') later voters' =
        resolvePending (pendingRecord (.record record version) p) p later := fun _ => rfl
  have sameId : (pendingRecord (.record record version) p).id = record.id := rfl
  constructor
  · intro restores
    obtain ⟨quiet, void⟩ := stoppedPromoter_void p
    have back := restores _ quiet
    rw [Restores, if_pos void, resolved, resolvePending_noNewer _ _ _ quiet, if_pos void] at back
    obtain ⟨_, _, same⟩ := back
    rw [Latest.known.injEq] at same
    rw [← base, ← same.1, sameId]
  · intro same later quiet
    rw [Restores, resolved, resolvePending_noNewer _ _ _ quiet, sameId, ← same, ← base]
    split
    · exact ⟨_, _, rfl⟩
    · rfl

def publishing (name : Str) (history : HistoryEvidence) (run : Str) : Member :=
  { name := name
    state := .running
    role := .replica
    walPosition := some 2048
    timeline := some history.timeline
    tags := ⟨none, none, none, none⟩
    rewindCheck := false
    lineage := some ⟨some history.begin, some history, some run, 0⟩
    watchdogFailed := false }

def promotingRecord : TimelineRecord :=
  ⟨5, 1280, "a".toList, 0, some ⟨"a".toList, 5, 1280, 0, some "10".toList⟩⟩

def timelineSix : List Member :=
  [publishing "a".toList ⟨6, 1536, true⟩ "10".toList,
    publishing "b".toList ⟨6, 1536, true⟩ "20".toList]

def takeover : PendingPromote := ⟨"b".toList, 6, 1536, 0, some "20".toList⟩

def onRecord : PendingPromote := ⟨"b".toList, 5, 1280, 0, some "20".toList⟩

theorem void_restores_base_iff_onRecord :
    planPromote "b".toList (resolveLatest (.record ⟨5, 1280, "a".toList, 0, none⟩ 3) [] none) 0
        ⟨5, 1280, true⟩ false (some "20".toList) = .ok onRecord ∧
      ∀ later, NoNewer onRecord later → Restores onRecord later (resolveLatest
        (.record (pendingRecord (.record ⟨5, 1280, "a".toList, 0, none⟩ 3) onRecord) 4)
        later none) := by
  have planned : planPromote "b".toList
      (resolveLatest (.record ⟨5, 1280, "a".toList, 0, none⟩ 3)
      [] none) 0 ⟨5, 1280, true⟩ false (some "20".toList) = .ok onRecord := by decide
  exact ⟨planned, (void_restores_base_iff planned).mpr rfl⟩

/-- `b` plans on the timeline 6 that `a` created but never confirmed. When `b` stops, the
cluster goes back to timeline 5. -/
theorem void_forgets_unconfirmed_timeline :
    planPromote "b".toList (resolveLatest (.record promotingRecord 3) timelineSix none) 0
        ⟨6, 1536, true⟩ false (some "20".toList) = .ok takeover ∧
      NoNewer takeover [stoppedPromoter takeover] ∧
      ¬ Restores takeover [stoppedPromoter takeover] (resolveLatest
        (.record (pendingRecord (.record promotingRecord 3) takeover) 4)
        [stoppedPromoter takeover] none) ∧
      resolveLatest (.record (pendingRecord (.record promotingRecord 3) takeover) 4)
        [stoppedPromoter takeover] none = .known ⟨5, 1280⟩ 0 (.pendingVoid "b".toList) ∧
      takeover.base = ⟨6, 1536⟩ := by
  have fallsBack : resolveLatest (.record (pendingRecord (.record promotingRecord 3) takeover) 4)
      [stoppedPromoter takeover] none = .known ⟨5, 1280⟩ 0 (.pendingVoid "b".toList) := by
        decide
  refine ⟨by decide, (stoppedPromoter_void takeover).1, ?_, fallsBack, rfl⟩
  rw [Restores, if_pos (stoppedPromoter_void takeover).2, fallsBack]
  rintro ⟨_, _, same⟩
  cases same

/-! ### The Hold write -/

def NotBehind (own id : TimelineId) : Prop := id.timeline < own.timeline ∨ own = id

instance (own id : TimelineId) : Decidable (NotBehind own id) :=
  inferInstanceAs (Decidable (_ ∨ _))

/-- A write in the record's generation never lowers the number nor changes the history
under it, and it replaces another node's entry only when that is resolved, by nothing
older than the timeline it created. -/
def HoldKeeps (me : Str) (record : TimelineRecord) (latest : Latest) : HoldAction → Prop
  | .write written =>
      (written.generation = record.generation →
        record.timeline ≤ written.timeline ∧
          (written.timeline = record.timeline → written.begin = record.begin)) ∧
      ∀ p, record.pending = some p → p.node ≠ me →
        ∃ id generation via, latest = .known id generation via ∧
          ∀ node, via = .pendingCreated node →
            id.timeline < written.timeline ∨ written.id = id
  | .upToDate | .conflict _ => True

/-- Where a pending entry makes `hold_action` skip its comparisons, the primary is not
behind what they would have compared it with. -/
def HoldSafe (me : Str) (record : TimelineRecord) (latest : Latest) (own : TimelineId)
    (ownGeneration : Nat) : Prop :=
  ∀ p, record.pending = some p →
    if p.node = me then
      p.generation = ownGeneration → record.generation = ownGeneration → NotBehind own record.id
    else
      record.generation = ownGeneration →
        (∃ q, latest = .pendingUnresolved q) ∨
        (NotBehind own record.id ∧ ∃ id generation via, latest = .known id generation via ∧
          ∀ node, via = .pendingCreated node → NotBehind own id)

theorem notBehind_iff (own : TimelineId) (record : TimelineRecord) :
    NotBehind own record.id ↔ record.timeline ≤ own.timeline ∧
      (own.timeline = record.timeline → own.begin = record.begin) := by
  obtain ⟨timeline, begin⟩ := own
  simp only [NotBehind, TimelineRecord.id, TimelineId.mk.injEq]
  omega

section HoldWrite

variable {me : Str} {record : TimelineRecord} {version : Nat} {members : List Member}
  {voters : Option Nat} {own : TimelineId} {ownGeneration : Nat} {p : PendingPromote}

theorem holdAction_mine (entry : record.pending = some p) (mine : p.node = me)
    (agrees : p.generation = ownGeneration) :
    holdAction me (.record record version) members voters own ownGeneration =
      .write ⟨own.timeline, own.begin, me, ownGeneration, none⟩ := by
  simp only [holdAction, ClusterTimeline.recordOf, entry, mine, agrees]
  cases resolveLatest (.record record version) members voters <;> simp

/-- Another node's entry that is not unresolved: nothing else is compared. -/
theorem holdAction_other (entry : record.pending = some p) (other : p.node ≠ me)
    (agrees : record.generation = ownGeneration)
    (resolved : ∀ q, resolveLatest (.record record version) members voters ≠
      .pendingUnresolved q) :
    holdAction me (.record record version) members voters own ownGeneration =
      .write ⟨own.timeline, own.begin, me, ownGeneration, none⟩ := by
  simp only [holdAction, ClusterTimeline.recordOf, entry, other, agrees]
  cases latest : resolveLatest (.record record version) members voters with
  | known id generation via => simp
  | pendingUnresolved q => exact absurd latest (resolved q)
  | unknown reason => simp

theorem hold_keeps_record_iff :
    HoldKeeps me record (resolveLatest (.record record version) members voters)
        (holdAction me (.record record version) members voters own ownGeneration) ↔
      HoldSafe me record (resolveLatest (.record record version) members voters) own
        ownGeneration := by
  constructor
  · intro keeps q entry
    split
    · rename_i mine
      intro agrees sameGeneration
      rw [holdAction_mine entry mine agrees] at keeps
      exact (notBehind_iff own record).mpr (keeps.1 sameGeneration.symm)
    · rename_i other
      intro sameGeneration
      by_cases waiting : ∃ q, resolveLatest (.record record version) members voters =
          .pendingUnresolved q
      · exact .inl waiting
      · rw [holdAction_other entry other sameGeneration
          (fun q unresolved => waiting ⟨q, unresolved⟩)] at keeps
        obtain ⟨notLowered, resolved⟩ := keeps
        obtain ⟨id, generation, via, known, covers⟩ := resolved q entry other
        exact .inr ⟨(notBehind_iff own record).mpr (notLowered sameGeneration.symm), id,
          generation,
          via, known, covers⟩
  · intro safe
    cases decided : holdAction me (.record record version) members voters own ownGeneration with
    | upToDate => trivial
    | conflict message => trivial
    | write written =>
        obtain ⟨rfl, ⟨none, _, above⟩ | ⟨q, entry, mine, agrees⟩ |
          ⟨q, entry, other, agrees, resolved⟩⟩ := holdAction_write decided
        · refine ⟨fun _ => ⟨above.le, fun same => absurd same above.ne'⟩, ?_⟩
          intro q entry
          rw [none] at entry
          cases entry
        · have notBehind := safe q entry
          rw [if_pos mine] at notBehind
          refine ⟨fun sameGeneration => (notBehind_iff own record).mp
            (notBehind agrees sameGeneration.symm), ?_⟩
          intro q' entry' other
          rw [entry, Option.some.injEq] at entry'
          exact absurd (entry' ▸ mine) other
        · have judged := safe q entry
          rw [if_neg other] at judged
          rcases judged agrees with ⟨q', unresolved⟩ | ⟨notBehind, known⟩
          · simp only [resolveLatest, entry] at unresolved
            exact absurd unresolved (resolved q')
          · exact ⟨fun _ => (notBehind_iff own record).mp notBehind, fun _ _ _ => known⟩

end HoldWrite

def forkedSix : List Member :=
  [publishing "a".toList ⟨6, 1536, true⟩ "10".toList,
    publishing "b".toList ⟨6, 1600, true⟩ "20".toList]

def ownEntry : TimelineRecord :=
  ⟨7, 1792, "a".toList, 0, some ⟨"c".toList, 7, 1792, 0, some "30".toList⟩⟩

/-- Three records that the primary `c` overwrites with its timeline 5: another node's
entry has created timeline 6, two members contradict each other about it, and its own
entry stands on a record of timeline 7. -/
theorem hold_overwrites :
    ¬ HoldKeeps "c".toList promotingRecord
      (resolveLatest (.record promotingRecord 3) timelineSix none)
      (holdAction "c".toList (.record promotingRecord 3) timelineSix none ⟨5, 1280⟩ 0) ∧
    ¬ HoldKeeps "c".toList promotingRecord
      (resolveLatest (.record promotingRecord 3) forkedSix none)
      (holdAction "c".toList (.record promotingRecord 3) forkedSix none ⟨5, 1280⟩ 0) ∧
    ¬ HoldKeeps "c".toList ownEntry (resolveLatest (.record ownEntry 3) [] none)
      (holdAction "c".toList (.record ownEntry 3) [] none ⟨5, 1280⟩ 0) := by
  have created : resolveLatest (.record promotingRecord 3) timelineSix none =
      .known ⟨6, 1536⟩ 0 (.pendingCreated "a".toList) := by decide
  have forked : resolveLatest (.record promotingRecord 3) forkedSix none =
      .unknown (.conflict ⟨6, 1536⟩ ⟨6, 1600⟩) := by decide
  have writes : holdAction "c".toList (.record promotingRecord 3) timelineSix none ⟨5, 1280⟩ 0 =
      .write ⟨5, 1280, "c".toList, 0, none⟩ := by decide
  have writesForked :
      holdAction "c".toList (.record promotingRecord 3) forkedSix none ⟨5, 1280⟩ 0 =
      .write ⟨5, 1280, "c".toList, 0, none⟩ := by decide
  have writesOwn : holdAction "c".toList (.record ownEntry 3) [] none ⟨5, 1280⟩ 0 =
      .write ⟨5, 1280, "c".toList, 0, none⟩ := by decide
  refine ⟨?_, ?_, ?_⟩
  · rw [writes, created]
    rintro ⟨_, resolved⟩
    obtain ⟨id, _, via, known, covers⟩ := resolved _ rfl (by decide)
    rw [Latest.known.injEq] at known
    obtain ⟨rfl, _, rfl⟩ := known
    exact absurd (covers _ rfl) (by decide)
  · rw [writesForked, forked]
    rintro ⟨_, resolved⟩
    obtain ⟨_, _, _, known, _⟩ := resolved _ rfl (by decide)
    cases known
  · rw [writesOwn]
    rintro ⟨notLowered, _⟩
    exact absurd (notLowered rfl).1 (by decide)

end PgHa.TimelineWrites
