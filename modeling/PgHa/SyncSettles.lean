import PgHa.RankedPrefix
import PgHa.SyncChoice
import PgHa.SyncReplication

/-!
Runs of `enforce_synchronous_replication` that see one and the same cluster come to rest. Each
run publishes standbys, who are preferred by the next; the choice stands all the same, and the
third run is the last that writes anything.
-/

namespace PgHa.SyncSettles

open Text Cluster SyncNames SyncChoice SyncReplication

/-! ### Sets of names -/

/-- The elements of a set, in order. -/
def InOrder (set : List Str) : Prop := set.Pairwise fun first second => first < second

theorem inOrder_insertName (name : Str) {set : List Str} (ordered : InOrder set) :
    InOrder (insertName name set) := by
  induction set with
  | nil => simp [insertName, InOrder]
  | cons head rest ih =>
      obtain ⟨below, inner⟩ := List.pairwise_cons.mp ordered
      simp only [insertName]
      split
      · exact ordered
      · rename_i other
        split
        · rename_i less
          refine List.pairwise_cons.mpr ⟨?_, ordered⟩
          intro later inSet
          rcases List.mem_cons.mp inSet with rfl | inRest
          · exact less
          · exact less.trans (below later inRest)
        · rename_i notLess
          refine List.pairwise_cons.mpr ⟨?_, ih inner⟩
          intro later inSet
          rcases (mem_insertName name later rest).mp inSet with rfl | inRest
          · exact lt_of_le_of_ne (not_lt.mp notLess) (Ne.symm other)
          · exact below later inRest

theorem inOrder_nameSet (names : List Str) : InOrder (nameSet names) := by
  have general : ∀ set, InOrder set →
      InOrder (names.foldl (fun set name => insertName name set) set) := by
    induction names with
    | nil => exact fun _ ordered => ordered
    | cons name rest ih => exact fun set ordered => ih _ (inOrder_insertName name ordered)
  exact general [] List.Pairwise.nil

theorem inOrder_ext {one other : List Str} (first : InOrder one) (second : InOrder other)
    (same : ∀ name, name ∈ one ↔ name ∈ other) : one = other := by
  have nodup {set : List Str} (ordered : InOrder set) : set.Nodup := ordered.imp fun less =>
      ne_of_lt less
  have perm := (List.perm_ext_iff_of_nodup (nodup first) (nodup second)).mpr same
  refine List.Perm.eq_of_pairwise ?_ first second perm
  exact fun _ _ _ _ less more => absurd more (lt_asymm less)

theorem inOrder_extract (value : Option Str) : InOrder (extractNamesFromSyncValue value) := by
  unfold extractNamesFromSyncValue
  split
  · exact List.Pairwise.nil
  · dsimp only
    split
    · exact List.Pairwise.nil
    · split
      · exact inOrder_nameSet _
      · exact List.Pairwise.nil

theorem syncNameSet_self {set : List Str} (ordered : InOrder set)
    (folded : ∀ name ∈ set, Publishable name) :
    syncNameSet set = set := by
  have lower : set.map toAsciiLowercase = set := by
    rw [List.map_congr_left fun name member => (folded name member).folded]
    simp
  apply inOrder_ext (inOrder_nameSet _) ordered
  intro name
  rw [mem_nameSet, lower]

theorem isVoter_iff (voters : List Str) (member : Member) :
    isVoter voters member = true ↔ toAsciiLowercase member.name ∈ syncNameSet voters := by
  rw [isVoter, List.any_eq_true, syncNameSet, mem_nameSet, List.mem_map]
  simp only [eqIgnoreAsciiCase, beq_iff_eq]

/-! ### The choice -/

section Choice

variable {myName : Str} {snapshot : ReplicationSnapshot} {threshold : Option Nat}
  {voters next : List Str}
variable {members : List Member}

/-- Who came first still does, when no one behind has a vote and no one ahead has lost it. -/
theorem rank_stays {first second : Member}
    (ahead : rank snapshot voters first < rank snapshot voters second)
    (kept : isVoter voters first = true → isVoter next first = true)
    (out : isVoter next second = false) :
    rank snapshot next first < rank snapshot next second := by
  simp only [rank, Prod.Lex.toLex_lt_toLex, OrderDual.toDual_lt_toDual, OrderDual.toDual_inj]
    at ahead ⊢
  rcases ahead with priority | ⟨priority, voter | ⟨_, later⟩⟩
  · exact .inl priority
  · have votes : isVoter voters first = true := (Bool.lt_iff.mp voter).2
    exact .inr ⟨priority, .inl (Bool.lt_iff.mpr ⟨out, kept votes⟩)⟩
  · cases votes : isVoter next first with
    | true => exact .inr ⟨priority, .inl (Bool.lt_iff.mpr ⟨out, rfl⟩)⟩
    | false => exact .inr ⟨priority, .inr ⟨out.symm, later⟩⟩

theorem ranked_nodup (distinct : Distinct members) :
    (ranked myName snapshot threshold voters members).Nodup := by
  refine (ranked_ranking distinct).ordered.imp ?_
  rintro first _ less rfl
  exact lt_irrefl _ less

theorem ranked_distinct (distinct : Distinct members) :
    Distinct (ranked myName snapshot threshold voters members) := by
  refine (List.Pairwise.sublist List.filter_sublist distinct).perm
    (ranked_ranking distinct).whole.symm ?_
  intro first second different
  rw [eqIgnoreAsciiCase, beq_eq_false_iff_ne] at different ⊢
  exact different.symm

theorem ranked_perm (distinct : Distinct members) :
    (ranked myName snapshot threshold next members).Perm
      (ranked myName snapshot threshold voters members) :=
  (ranked_ranking distinct).whole.trans (ranked_ranking distinct).whole.symm

/-- Votes among the chosen move, and the same standbys are chosen. -/
theorem chosen_stays (distinct : Distinct members) (n : Nat)
    (kept : ∀ member ∈ (ranked myName snapshot threshold voters members).take n,
      isVoter voters member = true → isVoter next member = true)
    (out : ∀ member ∈ (ranked myName snapshot threshold voters members).drop n,
      isVoter next member = false) (member : Member) :
    member ∈ (ranked myName snapshot threshold next members).take n ↔
      member ∈ (ranked myName snapshot threshold voters members).take n := by
  have ordered := (@ranked_ranking myName snapshot threshold voters members distinct).ordered
  rw [← List.take_append_drop n (ranked myName snapshot threshold voters members),
    List.pairwise_append] at ordered
  obtain ⟨_, _, ahead⟩ := ordered
  refine RankedPrefix.mem_take_reranked (ranked_perm distinct) (ranked_nodup distinct)
    (fun _ _ less => lt_asymm less) (ranked_ranking distinct).ordered n ?_ member
  intro first early second late
  exact rank_stays (ahead first early second late) (kept first early) (out second late)

/-- How many the value names. -/
def named (manager : SyncManager) (ranking : List Member) : Nat :=
  if manager.strictMode then manager.syncNodeCount else min manager.syncNodeCount ranking.length

variable {manager : SyncManager}

theorem mem_standbyValue (least : 1 ≤ manager.syncNodeCount) {ranking : List Member}
    (plain : ∀ member ∈ ranking, PlainName member.name) (filled : ranking ≠ [])
    (folded : Str) :
    folded ∈ extractNamesFromSyncValue (some (standbyValue manager ranking)) ↔
      ∃ member ∈ ranking.take (named manager ranking),
        toAsciiLowercase member.name = folded := by
  cases ranking with
  | nil => exact absurd rfl filled
  | cons first rest =>
      have value : standbyValue manager (first :: rest) = renderList "FIRST".toList
          (named manager (first :: rest))
          (((first :: rest).take (named manager (first :: rest))).map fun member => member.name) :=
            rfl
      have some : ((first :: rest).take (named manager (first :: rest))).map
          (fun member => member.name) ≠ [] := by
        have positive : 0 < named manager (first :: rest) := by
          unfold named
          split
          · exact least
          · exact lt_min least (by simp)
        simp [Nat.ne_of_gt positive]
      rw [value, mem_extract_renderList _ _ some]
      · simp only [List.mem_map, exists_exists_and_eq_and]
      · intro name listed
        obtain ⟨member, taken, rfl⟩ := List.mem_map.mp listed
        exact plain member (List.mem_of_mem_take taken)

theorem ranked_plain (plain : ∀ member ∈ members, PlainName member.name) :
    ∀ member ∈ ranked myName snapshot threshold voters members, PlainName member.name := by
  intro member inside
  exact plain member (List.mem_of_mem_filter ((List.perm_insertionSort _ _).subset inside))

theorem dropped_apart (distinct : Distinct members) {n : Nat} {first second : Member}
    (early : first ∈ (ranked myName snapshot threshold voters members).take n)
    (late : second ∈ (ranked myName snapshot threshold voters members).drop n) :
    toAsciiLowercase first.name ≠ toAsciiLowercase second.name := by
  have apart := @ranked_distinct myName snapshot threshold voters members distinct
  rw [Distinct, ← List.take_append_drop n (ranked myName snapshot threshold voters members),
    List.pairwise_append] at apart
  have different := apart.2.2 first early second late
  rwa [eqIgnoreAsciiCase, beq_eq_false_iff_ne] at different

/-- The names of the value do not change when only chosen standbys have a vote, and those
chosen who had one still do. -/
theorem extract_stays (least : 1 ≤ manager.syncNodeCount) (distinct : Distinct members)
    (plain : ∀ member ∈ members, PlainName member.name)
    (kept : ∀ folded ∈ extractNamesFromSyncValue
        (some (standbyValue manager (ranked myName snapshot threshold voters members))),
      folded ∈ syncNameSet voters → folded ∈ syncNameSet next)
    (inside : ∀ folded ∈ syncNameSet next, folded ∈ extractNamesFromSyncValue
        (some (standbyValue manager (ranked myName snapshot threshold voters members)))) :
    extractNamesFromSyncValue
      (some (standbyValue manager (ranked myName snapshot threshold next members))) =
      extractNamesFromSyncValue
        (some (standbyValue manager (ranked myName snapshot threshold voters members))) := by
  have perm := @ranked_perm myName snapshot threshold voters next members distinct
  by_cases filled : ranked myName snapshot threshold voters members = []
  · rw [filled] at perm ⊢
    rw [perm.eq_nil]
  have refilled : ranked myName snapshot threshold next members ≠ [] := by
    intro nil
    rw [nil] at perm
    exact filled perm.symm.eq_nil
  have old := @mem_standbyValue manager least _
    (@ranked_plain myName snapshot threshold voters members plain) filled
  have new := @mem_standbyValue manager least _
    (@ranked_plain myName snapshot threshold next members plain) refilled
  have count : named manager (ranked myName snapshot threshold next members) =
      named manager (ranked myName snapshot threshold voters members) := by
    rw [named, named, perm.length_eq]
  rw [count] at new
  have stays := @chosen_stays myName snapshot threshold voters next members distinct
    (named manager (ranked myName snapshot threshold voters members)) ?_ ?_
  · apply inOrder_ext (inOrder_extract _) (inOrder_extract _)
    intro folded
    rw [new, old]
    simp only [stays]
  · intro member early votes
    rw [isVoter_iff] at votes ⊢
    exact kept _ ((old _).mpr ⟨member, early, rfl⟩) votes
  · intro member late
    rw [← Bool.not_eq_true, isVoter_iff]
    intro votes
    obtain ⟨chosen, early, same⟩ := (old _).mp (inside _ votes)
    exact dropped_apart distinct early late same

end Choice

/-! ### One run -/

def listedNames (value : Str) : List Str := extractNamesFromSyncValue (some value)

/-- The names the node itself has published. -/
def ownNames (world : SyncWorld) : List Str := syncNameSet (currentVoters world.name world.sync)

def nextNames (world : SyncWorld) (input : RunInput) (value : Str) : List Str :=
  publishable world input value (ownNames world) (listedNames value)

variable {world : SyncWorld} {input : RunInput} {value : Str}

theorem mem_nextNames (name : Str) : name ∈ nextNames world input value ↔
    name ∈ listedNames value ∧
    (name ∈ ownNames world ∨ syncStandbyCaughtUp input (markAfter world input value) name =
      true) := by
  simp [nextNames, publishable]

theorem inOrder_nextNames : InOrder (nextNames world input value) :=
  (inOrder_extract (some value)).sublist List.filter_sublist

theorem listed_of_unchanged (same : nextNames world input value = ownNames world) :
    isSubset (ownNames world) (listedNames value) = true := by
  rw [isSubset_iff]
  intro name own
  rw [← same, mem_nextNames] at own
  exact own.1

/-- The run that has nothing to do is no special case. -/
theorem effects_eq
    (desired : desiredPg world.name (currentVoters world.name world.sync) input = some value) :
    effects world input = removals world input (ownNames world) (listedNames value) ++
      listChange world input value ++
        additions world input value (ownNames world) (listedNames value) := by
  simp only [effects, desired]
  split
  · rename_i idle
    obtain ⟨applied, same⟩ := idle
    have own : ownNames world = listedNames value := same
    have next : publishable world input value (ownNames world) (listedNames value) =
        ownNames world := by
      rw [own, publishable, List.filter_eq_self]
      intro name listed
      simp [listed]
    have subset : isSubset (ownNames world) (listedNames value) = true := by
      rw [isSubset_iff, own]
      exact fun _ listed => listed
    simp [removals, subset, listChange, applied, additions, next]
  · rfl

theorem effects_nil_iff
    (desired : desiredPg world.name (currentVoters world.name world.sync) input = some value) :
    effects world input = [] ↔ world.applied = some value ∧
      nextNames world input value = ownNames world := by
  rw [effects_eq desired, List.append_eq_nil_iff, List.append_eq_nil_iff]
  constructor
  · rintro ⟨⟨_, list⟩, added⟩
    constructor
    · by_contra other
      simp [listChange, other] at list
    · by_contra other
      have other : publishable world input value (ownNames world) (listedNames value) ≠
          ownNames world := other
      simp [additions, other] at added
  · rintro ⟨applied, same⟩
    have subset := listed_of_unchanged same
    have same : publishable world input value (ownNames world) (listedNames value) =
        ownNames world := same
    simp [removals, subset, listChange, applied, additions, same]

/-- All that a run does, in one state. -/
theorem completeRun_eq
    (desired : desiredPg world.name (currentVoters world.name world.sync) input = some value) :
    completeRun world input =
      { world with
        sync := if nextNames world input value = ownNames world then world.sync
          else some (syncStateOf world.name (nextNames world input value) input.config.enabled
            input.config.count)
        pgFile := if world.applied = some value then world.pgFile else value
        pgList := if world.applied = some value then world.pgList else value
        applied := some value
        mark := markAfter world input value } := by
  have noted (applied : world.applied = some value) :
      world = { world with applied := some value } := by
    rw [← applied]
  unfold completeRun
  rw [effects_eq desired]
  by_cases same : nextNames world input value = ownNames world
  · have subset := listed_of_unchanged same
    rw [if_pos same]
    have same : publishable world input value (ownNames world) (listedNames value) =
        ownNames world := same
    by_cases applied : world.applied = some value
    · simp only [removals, subset, listChange, applied, additions, same, if_true, markAfter]
      exact noted applied
    · simp [removals, subset, listChange, applied, additions, same, markAfter, SyncWorld.perform]
  · rw [if_neg same]
    have other : publishable world input value (ownNames world) (listedNames value) ≠
        ownNames world := same
    -- what the removals wrote is written over
    by_cases applied : world.applied = some value <;>
      by_cases subset : isSubset (ownNames world) (listedNames value) = true <;>
      simp [removals, subset, listChange, applied, additions, other, markAfter, SyncWorld.perform,
        nextNames]

/-! ### Runs to rest -/

/-- What a run leaves published is what it found publishable. -/
theorem ownNames_completeRun
    (desired : desiredPg world.name (currentVoters world.name world.sync) input = some value) :
    ownNames (completeRun world input) = nextNames world input value := by
  rw [completeRun_eq desired, ownNames]
  by_cases same : nextNames world input value = ownNames world
  · rw [if_pos same]
    exact same.symm
  · have folded : ∀ name ∈ nextNames world input value, Publishable name := fun name listed =>
      extracted_publishable _ name ((mem_nextNames name).mp listed).1
    have own : eqIgnoreAsciiCase world.name world.name = true := by simp [eqIgnoreAsciiCase]
    simp only [if_neg same, currentVoters]
    rw [if_pos (by simpa [syncStateOf] using own), syncStandbyNames_of _ _ _ _ folded]
    exact syncNameSet_self inOrder_nextNames folded

/-- A run that publishes nothing new leaves nothing to do. -/
theorem rests_of_unchanged
    (desired : desiredPg world.name (currentVoters world.name world.sync) input = some value)
    (same : nextNames world input value = ownNames world) :
    effects (completeRun world input) input = [] := by
  have after := completeRun_eq desired
  rw [if_pos same] at after
  have again : desiredPg (completeRun world input).name
      (currentVoters (completeRun world input).name (completeRun world input).sync) input =
        some value := by
    rw [after]
    exact desired
  have mark : markAfter (completeRun world input) input value = markAfter world input value := by
    rw [after, markAfter, if_pos rfl]
  rw [effects_nil_iff again]
  constructor
  · rw [after]
  · rw [ownNames_completeRun desired, nextNames, ownNames_completeRun desired, publishable, mark]
    apply inOrder_ext
    · exact (inOrder_extract _).sublist List.filter_sublist
    · exact inOrder_nextNames
    intro name
    simp only [mem_nextNames, List.mem_filter, Bool.or_eq_true, List.contains_iff_mem]
    tauto

def wanted (world : SyncWorld) (input : RunInput) : Option Str :=
  desiredPg world.name (currentVoters world.name world.sync) input

theorem name_completeRun (desired : wanted world input = some value) :
    (completeRun world input).name = world.name := by
  rw [completeRun_eq desired]

theorem mark_completeRun (desired : wanted world input = some value) :
    (completeRun world input).mark = markAfter world input value := by
  rw [completeRun_eq desired]

theorem applied_completeRun (desired : wanted world input = some value) :
    (completeRun world input).applied = some value := by
  rw [completeRun_eq desired]

/-- The next run wants the same names, in whatever order. -/
theorem wanted_stays (distinct : Distinct input.members)
    (plain : ∀ member ∈ input.members, PlainName member.name)
    (desired : wanted world input = some value) :
    ∃ next, wanted (completeRun world input) input = some next ∧
      listedNames next = listedNames value := by
  have name := name_completeRun desired
  have own := ownNames_completeRun desired
  unfold wanted desiredPg at desired ⊢
  rw [name]
  rw [ownNames, name] at own
  by_cases enabled : input.config.enabled = true
  · rw [if_pos enabled] at desired ⊢
    rw [compute_eq_standbyValue _ rfl] at desired ⊢
    have value := Option.some.inj desired
    refine ⟨_, rfl, ?_⟩
    subst value
    apply extract_stays (le_max_right _ _) distinct plain
    · intro folded listed voted
      rw [own, mem_nextNames]
      exact ⟨listed, .inl voted⟩
    · intro folded voted
      rw [own, mem_nextNames] at voted
      exact voted.1
  · rw [if_neg enabled] at desired ⊢
    exact ⟨_, rfl, congrArg listedNames (Option.some.inj desired)⟩

/-- With the same names and the same mark there is nobody new to publish. -/
theorem unchanged_of_mark {next : Str} (desired : wanted world input = some value)
    (listed : listedNames next = listedNames value)
    (mark : markAfter (completeRun world input) input next = markAfter world input value) :
    nextNames (completeRun world input) input next = ownNames (completeRun world input) := by
  apply inOrder_ext inOrder_nextNames (inOrder_nameSet _)
  intro name
  change name ∈ nextNames (completeRun world input) input next ↔
    name ∈ ownNames (completeRun world input)
  rw [mem_nextNames, ownNames_completeRun desired, mem_nextNames, listed, mark]
  tauto

theorem completeRun_rests (rests : effects world input = []) : completeRun world input = world := by
  rw [completeRun, rests]
  rfl

/-- The third run is the last that writes. -/
theorem third_rests (distinct : Distinct input.members)
    (plain : ∀ member ∈ input.members, PlainName member.name) :
    effects (completeRun (completeRun (completeRun world input) input) input) input = [] := by
  obtain ⟨first, wants⟩ : ∃ first, wanted world input = some first := desiredPg_some _ _ _
  obtain ⟨second, wantsNext, listed⟩ := wanted_stays distinct plain wants
  obtain ⟨third, wantsLast, listedLast⟩ := wanted_stays distinct plain wantsNext
  by_cases same : first = second
  · have mark : markAfter (completeRun world input) input second =
        markAfter world input first := by
      rw [markAfter, applied_completeRun wants, same, if_pos rfl, mark_completeRun wants, same]
    have rests := rests_of_unchanged wantsNext (unchanged_of_mark wants listed mark)
    rwa [completeRun_rests rests]
  · -- the list changed, so the mark of the second run is the one of this snapshot
    have marked : markAfter (completeRun world input) input second =
        snapshotPrimaryFlushLsn input := by
      rw [markAfter, applied_completeRun wants, if_neg]
      simpa using same
    have mark : markAfter (completeRun (completeRun world input) input) input third =
        markAfter (completeRun world input) input second := by
      rw [marked, markAfter, mark_completeRun wantsNext, marked]
      split <;> rfl
    exact rests_of_unchanged wantsLast (unchanged_of_mark wantsNext listedLast mark)

/-- What was applied is in effect. -/
def CacheTrue (world : SyncWorld) : Prop := ∀ value, world.applied = some value →
    world.pgList = value

theorem cache_completeRun (desired : wanted world input = some value) (cache : CacheTrue world) :
    (completeRun world input).pgList = value := by
  rw [completeRun_eq desired]
  change (if world.applied = some value then world.pgList else value) = value
  split
  · rename_i applied
    exact cache value applied
  · rfl

theorem cacheTrue_completeRun (desired : wanted world input = some value)
    (cache : CacheTrue world) :
    CacheTrue (completeRun world input) := by
  intro applied same
  rw [applied_completeRun desired] at same
  rw [cache_completeRun desired cache]
  exact Option.some.inj same

/-- While the cluster looks the same, three runs settle its synchronous standbys: the list in
effect is the one wanted, it names who the first run chose, nobody outside it is published, and
all in it who have caught up are. -/
theorem sync_settles (world : SyncWorld) (input : RunInput) (distinct : Distinct input.members)
    (plain : ∀ member ∈ input.members, PlainName member.name) (cache : CacheTrue world) :
    let settled := completeRun (completeRun (completeRun world input) input) input
    effects settled input = [] ∧
      desiredPg settled.name (currentVoters settled.name settled.sync) input =
        some settled.pgList ∧
      extractNamesFromSyncValue (some settled.pgList) =
        extractNamesFromSyncValue
          (desiredPg world.name (currentVoters world.name world.sync) input) ∧
      (∀ name ∈ ownNames settled, name ∈ extractNamesFromSyncValue (some settled.pgList)) ∧
      ∀ name ∈ extractNamesFromSyncValue (some settled.pgList),
        syncStandbyCaughtUp input settled.mark name = true → name ∈ ownNames settled := by
  intro settled
  obtain ⟨first, wants⟩ : ∃ first, wanted world input = some first := desiredPg_some _ _ _
  obtain ⟨second, wantsNext, listed⟩ := wanted_stays distinct plain wants
  obtain ⟨third, wantsLast, listedLast⟩ := wanted_stays distinct plain wantsNext
  obtain ⟨fourth, wantsStill, _⟩ := wanted_stays distinct plain wantsLast
  have rests : effects settled input = [] := third_rests distinct plain
  obtain ⟨applied, same⟩ := (effects_nil_iff wantsStill).mp rests
  have stays : third = fourth :=
    Option.some.inj ((applied_completeRun wantsLast).symm.trans applied)
  have inEffect : settled.pgList = third :=
    cache_completeRun wantsLast
      (cacheTrue_completeRun wantsNext (cacheTrue_completeRun wants cache))
  have mem (name : Str) := @mem_nextNames settled input fourth name
  have marked : markAfter settled input fourth = settled.mark := by
    rw [markAfter, applied, if_pos rfl]
  rw [same, marked, ← stays] at mem
  rw [inEffect]
  refine ⟨rests, ?_, ?_, ?_, ?_⟩
  · exact wantsStill.trans (congrArg some stays.symm)
  · rw [wanted] at wants
    rw [wants]
    exact listedLast.trans listed
  · exact fun name own => ((mem name).mp own).1
  · exact fun name inList caughtUp => (mem name).mpr ⟨inList, .inr caughtUp⟩

/-- A new leader with two standbys, of which one has yet to catch up. -/
def newLeader : SyncWorld :=
  ⟨"p".toList, some ⟨"old".toList, some "p".toList, 1⟩, [], [], none, none, none, []⟩

def twoStandbys : RunInput :=
  ⟨⟨some true, none, some 2, none⟩, [standbyNamed "a".toList, standbyNamed "b".toList],
    ⟨9, [⟨"a".toList, 9⟩, ⟨"b".toList, 7⟩]⟩⟩

theorem sync_settles_newLeader :
    let settled := completeRun (completeRun (completeRun newLeader twoStandbys) twoStandbys)
        twoStandbys
    effects settled twoStandbys = [] ∧
      ∀ name ∈ extractNamesFromSyncValue (some settled.pgList),
        syncStandbyCaughtUp twoStandbys settled.mark name = true → name ∈ ownNames settled := by
  have distinct : Distinct twoStandbys.members := by
    unfold Distinct
    decide
  have plain : ∀ member ∈ twoStandbys.members, PlainName member.name := by decide
  have cache : CacheTrue newLeader := by
    rintro value ⟨⟩
  have settled := sync_settles newLeader twoStandbys distinct plain cache
  exact ⟨settled.1, settled.2.2.2.2⟩

end PgHa.SyncSettles
