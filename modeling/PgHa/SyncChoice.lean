import PgHa.SyncNames
import PgHa.StaticConfig
import Mathlib.Data.List.Lex
import Mathlib.Data.List.Perm.Basic
import Mathlib.Data.Prod.Lex
import Mathlib.Data.Char

/-!
What `compute_sync_standby_names` chooses in priority mode: the eligible standbys in an
order that no two of them share, so the order of the member records does not matter.
And what the names of a choice are when they are read back.
-/

namespace PgHa.SyncChoice

open Text Cluster SyncNames

/-! ### The choice -/

section Choice

variable (myName : Str) (snapshot : ReplicationSnapshot) (threshold : Option Nat)
  (voters : List Str)

/-- The flush LSN of a standby is that of the first row with its name. -/
def flushLsn (member : Member) : Option Nat :=
  (findRow snapshot member.name).map fun row => row.flushLsn

/-- A running replica other than this node that is not `nosync` and has a row. -/
structure Streaming (member : Member) : Prop where
  other : member.name ≠ myName
  sync : member.isNosync = false
  running : member.state = .running
  replica : member.role = .replica
  row : flushLsn snapshot member ≠ none

instance (member : Member) : Decidable (Streaming myName snapshot member) :=
  decidable_of_iff (member.name ≠ myName ∧ member.isNosync = false ∧
    member.state = .running ∧
      member.role = .replica ∧ flushLsn snapshot member ≠ none)
    ⟨fun ⟨other, sync, running, replica, row⟩ => ⟨other, sync, running, replica, row⟩,
      fun streaming => ⟨streaming.other, streaming.sync, streaming.running, streaming.replica,
        streaming.row⟩⟩

def streamers (members : List Member) : List Member :=
  members.filter fun member => Streaming myName snapshot member

/-- The highest flush LSN of the candidates if there are several, else the primary's. -/
def highest (members : List Member) : Nat :=
  if 1 < (streamers myName snapshot members).length then
    ((streamers myName snapshot members).filterMap (flushLsn snapshot)).foldl max 0
  else snapshot.primaryFlushLsn

/-- A candidate that does not trail by more than the threshold. -/
structure Eligible (members : List Member) (member : Member) : Prop where
  streaming : Streaming myName snapshot member
  near : ∀ limit ∈ threshold, ∀ flushed ∈ flushLsn snapshot member,
    highest myName snapshot members - flushed ≤ limit

instance (members : List Member) (member : Member) :
    Decidable (Eligible myName snapshot threshold members member) :=
  decidable_of_iff (Streaming myName snapshot member ∧ ∀ limit ∈ threshold,
      ∀ flushed ∈ flushLsn snapshot member, highest myName snapshot members - flushed ≤ limit)
    ⟨fun ⟨streaming, near⟩ => ⟨streaming, near⟩,
      fun eligible => ⟨eligible.streaming, eligible.near⟩⟩

def isVoter (member : Member) : Bool := voters.any fun voter => eqIgnoreAsciiCase voter member.name

/-- Priority down, voters first, flush LSN down, name up. -/
def rank (member : Member) : ℕᵒᵈ ×ₗ Boolᵒᵈ ×ₗ ℕᵒᵈ ×ₗ Str :=
  toLex (OrderDual.toDual member.syncPriority, toLex (OrderDual.toDual (isVoter voters member),
    toLex (OrderDual.toDual ((flushLsn snapshot member).getD 0), member.name)))

/-- The eligible members, each before those of a higher rank. -/
structure Ranking (members ranking : List Member) : Prop where
  whole : ranking.Perm
    (members.filter fun member => Eligible myName snapshot threshold members member)
  ordered : ranking.Pairwise fun first second =>
    rank snapshot voters first < rank snapshot voters second

/-! ### The code's candidates -/

def candidateOf (member : Member) : Candidate :=
  ⟨member, member.syncPriority, (flushLsn snapshot member).getD 0, isVoter voters member⟩

variable {myName snapshot threshold voters}

theorem candidates_eq (members : List Member) :
    candidates members myName snapshot voters =
      (streamers myName snapshot members).map (candidateOf snapshot voters) := by
  induction members with
  | nil => rfl
  | cons member rest ih =>
      simp only [candidates, streamers, List.filter_cons, decide_eq_true_eq] at ih ⊢
      by_cases may : (member.name != myName && !member.isNosync && member.state == .running &&
          member.role == .replica) = true
      · rw [if_pos may, List.filterMap_cons]
        simp only [Bool.and_eq_true, bne_iff_ne, Bool.not_eq_true', beq_iff_eq] at may
        obtain ⟨⟨⟨other, sync⟩, running⟩, replica⟩ := may
        cases row : findRow snapshot member.name with
        | none =>
            have hidden : ¬Streaming myName snapshot member := by
              intro streaming
              exact streaming.row (by simp [flushLsn, row])
            rw [if_neg hidden]
            exact ih
        | some found =>
            have streaming : Streaming myName snapshot member :=
              ⟨other, sync, running, replica, by simp [flushLsn, row]⟩
            rw [if_pos streaming, List.map_cons, ← ih]
            simp [candidateOf, flushLsn, row, isVoter]
      · have hidden : ¬Streaming myName snapshot member := by
          intro streaming
          apply may
          simp [streaming.other, streaming.sync, streaming.running, streaming.replica]
        rw [if_neg may, if_neg hidden]
        exact ih

theorem candidateLe_iff (first second : Member) :
    candidateLe (candidateOf snapshot voters first) (candidateOf snapshot voters second) = true ↔
      rank snapshot voters first ≤ rank snapshot voters second := by
  simp only [rank, Prod.Lex.toLex_le_toLex, OrderDual.toDual_lt_toDual, OrderDual.toDual_inj,
    candidateLe, candidateOf]
  by_cases priority : first.syncPriority = second.syncPriority
  · by_cases voter : isVoter voters first = isVoter voters second
    · by_cases flush : (flushLsn snapshot first).getD 0 = (flushLsn snapshot second).getD 0
      · simp only [priority, voter, flush, ne_eq, not_true_eq_false, if_false, lt_irrefl, false_or,
          true_and, Bool.not_eq_true']
        exact decide_eq_false_iff_not.trans not_lt
      · simp only [priority, voter, flush, ne_eq, not_true_eq_false, not_false_eq_true,
          if_true, if_false,
          lt_irrefl, false_or, true_and, false_and, or_false]
        exact decide_eq_true_iff
    · simp only [priority, voter, ne_eq, not_true_eq_false, not_false_eq_true, if_true, if_false,
        lt_irrefl, false_or, true_and, false_and, or_false]
      have former : ∀ x y : Bool, x ≠ y → (x = true ↔ y < x) := by decide
      exact former _ _ voter
  · simp only [priority, ne_eq, not_false_eq_true, if_true, false_and, or_false]
    exact decide_eq_true_iff

theorem furthest_eq (found : List Member) (start : Nat)
    (rows : ∀ member ∈ found, flushLsn snapshot member ≠ none) :
    (found.map (candidateOf snapshot voters)).foldl
        (fun furthest candidate => max furthest candidate.flushLsn) start =
      (found.filterMap (flushLsn snapshot)).foldl max start := by
  induction found generalizing start with
  | nil => rfl
  | cons member rest ih =>
      obtain ⟨flushed, row⟩ := Option.ne_none_iff_exists'.mp (rows member List.mem_cons_self)
      rw [List.filterMap_cons_some row, List.map_cons, List.foldl_cons, List.foldl_cons,
        ih _ fun other mem => rows other (List.mem_cons_of_mem _ mem)]
      simp [candidateOf, row]

theorem streamers_streaming {members : List Member} {member : Member}
    (mem : member ∈ streamers myName snapshot members) : Streaming myName snapshot member := by
  simpa using (List.mem_filter.mp mem).2

theorem baseline_eq (members : List Member) :
    baseline (candidates members myName snapshot voters) snapshot =
      highest myName snapshot members := by
  have furthest := @furthest_eq snapshot voters (streamers myName snapshot members) 0
    fun member mem => (streamers_streaming mem).row
  rw [candidates_eq, highest]
  rw [← furthest]
  match streamers myName snapshot members with
  | [] => rfl
  | [_] => rfl
  | _ :: _ :: _ => rfl

theorem withinLag_eq (members : List Member) :
    withinLag (candidates members myName snapshot voters) snapshot threshold =
      (members.filter fun member => Eligible myName snapshot threshold members member).map
        (candidateOf snapshot voters) := by
  have within : ∀ member ∈ streamers myName snapshot members, ∀ limit,
      highest myName snapshot members - (flushLsn snapshot member).getD 0 ≤ limit ↔
        ∀ flushed ∈ flushLsn snapshot member,
          highest myName snapshot members - flushed ≤ limit := by
    intro member mem limit
    obtain ⟨flushed, row⟩ := Option.ne_none_iff_exists'.mp (streamers_streaming mem).row
    simp [row]
  have kept : (members.filter fun member => Eligible myName snapshot threshold members member) =
      (streamers myName snapshot members).filter fun member =>
        ∀ limit ∈ threshold, ∀ flushed ∈ flushLsn snapshot member,
          highest myName snapshot members - flushed ≤ limit := by
    rw [streamers, List.filter_filter]
    refine List.filter_congr fun member _ => ?_
    rw [← Bool.decide_and, decide_eq_decide]
    exact ⟨fun eligible => ⟨eligible.near, eligible.streaming⟩,
      fun ⟨near, streaming⟩ => ⟨streaming, near⟩⟩
  rw [kept]
  cases threshold with
  | none => simp [withinLag, candidates_eq]
  | some limit =>
      rw [withinLag, baseline_eq, candidates_eq, List.filter_map]
      refine congrArg _ (List.filter_congr fun member mem => ?_)
      rw [Function.comp_apply, decide_eq_decide]
      simpa [candidateOf] using within member mem limit

theorem eligible_eq (members : List Member) :
    SyncManager.eligible members myName snapshot threshold voters =
      ((members.filter fun member => Eligible myName snapshot threshold members
        member).insertionSort
        fun first second => rank snapshot voters first ≤ rank snapshot voters second).map
          (candidateOf snapshot voters) := by
  rw [SyncManager.eligible, withinLag_eq, List.map_insertionSort _
    fun a b => candidateLe a b = true]
  intro first _ second _
  exact (candidateLe_iff first second).symm

/-! ### The ranking -/

variable (myName snapshot threshold voters) in
def ranked (members : List Member) : List Member :=
  (members.filter fun member => Eligible myName snapshot threshold members member).insertionSort
    fun first second => rank snapshot voters first ≤ rank snapshot voters second

def Distinct (members : List Member) : Prop :=
  members.Pairwise fun first second => eqIgnoreAsciiCase first.name second.name = false

theorem rank_name {first second : Member}
    (same : rank snapshot voters first = rank snapshot voters second) : first.name = second.name :=
  congrArg (fun key => (ofLex (ofLex (ofLex key).2).2).2) same

theorem ranked_ranking {members : List Member} (distinct : Distinct members) :
    Ranking myName snapshot threshold voters members
      (ranked myName snapshot threshold voters members) := by
  have whole := List.perm_insertionSort
    (fun first second => rank snapshot voters first ≤ rank snapshot voters second)
    (members.filter fun member => Eligible myName snapshot threshold members member)
  refine ⟨whole, ?_⟩
  have total : Std.Total fun first second =>
      rank snapshot voters first ≤ rank snapshot voters second :=
    ⟨fun first second => le_total _ _⟩
  have trans : IsTrans Member fun first second =>
      rank snapshot voters first ≤ rank snapshot voters second := ⟨fun _ _ _ => le_trans⟩
  have sorted := List.pairwise_insertionSort
    (fun first second => rank snapshot voters first ≤ rank snapshot voters second)
    (members.filter fun member => Eligible myName snapshot threshold members member)
  have apart : (ranked myName snapshot threshold voters members).Pairwise fun first second =>
      first.name ≠ second.name := by
    have filtered := List.Pairwise.sublist (List.filter_sublist
      (p := fun member => decide (Eligible myName snapshot threshold members member))) distinct
    refine (filtered.imp ?_).perm whole.symm fun different => different.symm
    intro first second different same
    simp [eqIgnoreAsciiCase, same] at different
  refine (sorted.and apart).imp ?_
  rintro first second ⟨le, different⟩
  exact lt_of_le_of_ne le fun same => different (rank_name same)

theorem ranking_unique {members first second : List Member}
    (one : Ranking myName snapshot threshold voters members first)
    (other : Ranking myName snapshot threshold voters members second) : first = second := by
  refine List.Perm.eq_of_pairwise ?_ one.ordered other.ordered (one.whole.trans other.whole.symm)
  intro _ _ _ _ before after
  exact absurd after (lt_asymm before)

theorem highest_perm {members reordered : List Member} (perm : reordered.Perm members) :
    highest myName snapshot reordered = highest myName snapshot members := by
  have same : (streamers myName snapshot reordered).Perm (streamers myName snapshot members) :=
    perm.filter _
  rw [highest, highest, same.length_eq]
  split
  · exact (same.filterMap _).foldl_eq 0
  · rfl

theorem ranking_perm {members reordered ranking : List Member} (perm : reordered.Perm members)
    (ranks : Ranking myName snapshot threshold voters reordered ranking) :
    Ranking myName snapshot threshold voters members ranking := by
  have same : (reordered.filter fun member => Eligible myName snapshot threshold reordered member) =
      reordered.filter fun member => Eligible myName snapshot threshold members member := by
    refine List.filter_congr fun member _ => ?_
    rw [decide_eq_decide]
    constructor
    · intro eligible
      exact ⟨eligible.streaming, highest_perm perm ▸ eligible.near⟩
    · intro eligible
      exact ⟨eligible.streaming, (highest_perm perm).symm ▸ eligible.near⟩
  refine ⟨?_, ranks.ordered⟩
  have whole := ranks.whole
  rw [same] at whole
  exact whole.trans (perm.filter _)

end Choice

/-! ### The value -/

/-- The value for a ranking of the eligible: `FIRST n` over the first `n` of them. -/
def standbyValue (manager : SyncManager) (ranking : List Member) : Str :=
  let n := if manager.strictMode then manager.syncNodeCount
    else min manager.syncNodeCount ranking.length
  match ranking with
  | [] => if manager.strictMode then strictNoEligiblePlaceholder else []
  | _ => renderList "FIRST".toList n ((ranking.take n).map fun member => member.name)

theorem compute_eq_standbyValue (manager : SyncManager) (mode : manager.mode = .priority)
    (members : List Member) (myName : Str) (snapshot : ReplicationSnapshot) (threshold : Option Nat)
    (voters : List Str) :
    manager.computeSyncStandbyNames members myName snapshot threshold voters =
      some (standbyValue manager (ranked myName snapshot threshold voters members)) := by
  unfold SyncManager.computeSyncStandbyNames
  simp only [mode]
  have found : SyncManager.eligible members myName snapshot threshold voters =
      (ranked myName snapshot threshold voters members).map (candidateOf snapshot voters) :=
        eligible_eq members
  rw [found]
  cases ranking : ranked myName snapshot threshold voters members with
  | nil => rfl
  | cons first rest =>
      simp only [standbyValue, SyncManager.chosen, SyncManager.count, List.length_map,
        List.isEmpty_eq_false_iff.mpr
          (show (first :: rest).map (candidateOf snapshot voters) ≠ [] by simp),
        ← List.map_take, List.map_map]
      rfl

/-- Priority mode names the first `n` eligible standbys in their order, whatever the order of
the member records. -/
theorem computeSyncStandbyNames_ranks (manager : SyncManager) (mode : manager.mode = .priority)
    (members : List Member) (distinct : Distinct members) (myName : Str)
    (snapshot : ReplicationSnapshot) (threshold : Option Nat) (voters : List Str) :
    (∃ ranking, Ranking myName snapshot threshold voters members ranking ∧
      manager.computeSyncStandbyNames members myName snapshot threshold voters =
        some (standbyValue manager ranking)) ∧
      ∀ reordered, reordered.Perm members →
        manager.computeSyncStandbyNames reordered myName snapshot threshold voters =
          manager.computeSyncStandbyNames members myName snapshot threshold voters := by
  have ranks := @ranked_ranking myName snapshot threshold voters members distinct
  constructor
  · exact ⟨_, ranks,
      compute_eq_standbyValue manager mode members myName snapshot threshold voters⟩
  · intro reordered perm
    have apart : Distinct reordered := by
      refine List.Pairwise.perm distinct perm.symm ?_
      intro first second different
      rw [eqIgnoreAsciiCase, beq_eq_false_iff_ne] at different ⊢
      exact different.symm
    have same := ranking_unique (ranking_perm perm (ranked_ranking apart)) ranks
    rw [compute_eq_standbyValue manager mode, compute_eq_standbyValue manager mode, same]

/-- A running replica with nothing set. -/
def standbyNamed (name : Str) : Member :=
  ⟨name, .running, .replica, none, none, ⟨none, none, none, none⟩, false, none, false⟩

theorem computeSyncStandbyNames_ranks_pair :
    ∃ manager : SyncManager, ∃ members : List Member, manager.mode = .priority ∧
      Distinct members ∧
      ∃ ranking, Ranking [] ⟨0, [⟨['a'], 5⟩, ⟨['b'], 9⟩]⟩ none [] members ranking ∧
        manager.computeSyncStandbyNames members []
          ⟨0, [⟨['a'], 5⟩, ⟨['b'], 9⟩]⟩ none [] =
          some (standbyValue manager ranking) := by
  have distinct : Distinct [standbyNamed ['a'], standbyNamed ['b']] := by
    unfold Distinct
    decide
  exact ⟨⟨.priority, 1, false⟩, _, rfl, distinct,
    (computeSyncStandbyNames_ranks ⟨.priority, 1, false⟩ rfl _ distinct []
      ⟨0, [⟨['a'], 5⟩, ⟨['b'], 9⟩]⟩
      none []).1⟩

/-! ### Reading a choice back -/

/-- `extract_names_from_sync_value` reads the chosen names, folded, from the value; `/sync`
keeps what it read, and matches the chosen names and no other. -/
structure RoundTrip (value : Str) (names : List Str) : Prop where
  read : ∀ folded, folded ∈ extractNamesFromSyncValue (some value) ↔
    ∃ name ∈ names, toAsciiLowercase name = folded
  kept : ∀ leader enabled count,
    (syncStateOf leader (extractNamesFromSyncValue (some value)) enabled count).syncStandbyNames =
      extractNamesFromSyncValue (some value)
  matched : ∀ leader enabled count name,
    (syncStateOf leader (extractNamesFromSyncValue (some value)) enabled count).matchesName name =
      true ↔ ∃ chosen ∈ names, eqIgnoreAsciiCase chosen name = true

theorem lower_noComma {name : Str} (noComma : ',' ∉ toAsciiLowercase name) : ',' ∉ name := by
  intro comma
  exact noComma (List.mem_map.mpr ⟨',', comma, rfl⟩)

theorem lower_trimmed {name : Str} (trimmed : Trimmed (toAsciiLowercase name)) : Trimmed name := by
  have same : toAsciiLowercase (trim name) = toAsciiLowercase name :=
    (trim_lower name).symm.trans trimmed
  have length : (trim name).length = name.length := by
    simpa [toAsciiLowercase] using congrArg List.length same
  have part : (trim name).Sublist name :=
    (List.rdropWhile_prefix _ _).sublist.trans (List.dropWhile_sublist _)
  exact part.eq_of_length length

/-- Every name that is read is publishable, so a name that is not is never read back. -/
theorem roundTrip_renderList (count : Nat) (names : List Str) (some : names ≠ [])
    (filled : ∀ name ∈ names, name ≠ []) :
    RoundTrip (renderList "FIRST".toList count names) names ↔
      ∀ name ∈ names, ',' ∉ name ∧ Trimmed name := by
  constructor
  · intro trip name mem
    have publishable := extracted_publishable _ _ ((trip.read _).mpr ⟨name, mem, rfl⟩)
    exact ⟨lower_noComma publishable.noComma, lower_trimmed publishable.trimmed⟩
  · intro plain
    have read := mem_extract_renderList count names some
      (fun name mem => ⟨filled name mem, (plain name mem).2, (plain name mem).1⟩)
    have kept : ∀ leader enabled total,
        (syncStateOf leader
          (extractNamesFromSyncValue (Option.some (renderList "FIRST".toList count names)))
          enabled total).syncStandbyNames =
        extractNamesFromSyncValue (Option.some (renderList "FIRST".toList count names)) :=
      fun leader enabled total =>
        syncStandbyNames_of leader _ enabled total (extracted_publishable _)
    refine ⟨read, kept, ?_⟩
    intro leader enabled total name
    rw [SyncState.matchesName, kept, List.any_eq_true]
    constructor
    · rintro ⟨folded, mem, same⟩
      obtain ⟨chosen, inside, rfl⟩ := (read folded).mp mem
      refine ⟨chosen, inside, ?_⟩
      simpa [eqIgnoreAsciiCase, lower_idempotent] using same
    · rintro ⟨chosen, inside, same⟩
      refine ⟨toAsciiLowercase chosen, (read _).mpr ⟨chosen, inside, rfl⟩, ?_⟩
      simpa [eqIgnoreAsciiCase, lower_idempotent] using same

/-- What `Config::validate` lets through as a name. -/
def Validated (name : Str) : Prop :=
  ∃ config : StaticConfig.Config, config.name = name ∧ config.validate = .ok ()

theorem validated_filled {name : Str} (validated : Validated name) : name ≠ [] := by
  obtain ⟨config, rfl, valid⟩ := validated
  intro empty
  simp only [StaticConfig.Config.validate, empty] at valid
  cases valid

/-- The names of a choice are read back, kept and matched exactly if none has a comma or
white space at an end. -/
theorem chosen_roundTrip_iff (manager : SyncManager) (mode : manager.mode = .priority)
    (members : List Member) (myName : Str) (snapshot : ReplicationSnapshot) (threshold : Option Nat)
    (voters names : List Str) (value : Str) (some : names ≠ [])
    (validated : ∀ name ∈ names, Validated name)
    (chosen : manager.chosen (SyncManager.eligible members myName snapshot threshold voters) =
      names)
    (built : manager.computeSyncStandbyNames members myName snapshot threshold voters =
      Option.some value) :
    RoundTrip value names ↔ ∀ name ∈ names, ',' ∉ name ∧ Trimmed name := by
  have found : (SyncManager.eligible members myName snapshot threshold voters).isEmpty = false := by
    cases eligible : SyncManager.eligible members myName snapshot threshold voters with
    | nil => exact absurd (by simp [← chosen, eligible, SyncManager.chosen]) some
    | cons first rest => rfl
  simp only [SyncManager.computeSyncStandbyNames, mode, found, Bool.false_eq_true, if_false, chosen,
    Option.some.injEq] at built
  subst value
  exact roundTrip_renderList _ names some fun name mem => validated_filled (validated name mem)

theorem chosen_roundTrip_iff_plain :
    ∃ value, (SyncManager.new .priority 1 false).computeSyncStandbyNames [standbyNamed "B".toList]
        "p".toList ⟨9, [⟨"b".toList, 9⟩]⟩ none [] = some value ∧
      (RoundTrip value ["B".toList] ↔ ∀ name ∈ ["B".toList], ',' ∉ name ∧
        Trimmed name) := by
  have validated : ∀ name ∈ ["B".toList], Validated name := by
    intro name mem
    rw [List.mem_singleton.mp mem]
    exact ⟨{ StaticConfig.Config.sample with name := "B".toList }, rfl, rfl⟩
  have built : (SyncManager.new .priority 1 false).computeSyncStandbyNames [standbyNamed "B".toList]
      "p".toList ⟨9, [⟨"b".toList, 9⟩]⟩ none [] = some "FIRST 1 (\"B\")".toList := by decide
  exact ⟨_, built,
    chosen_roundTrip_iff _ rfl _ _ _ _ _ _ _ (by simp) validated (by decide) built⟩

/-- A standby named `a,b` is read back as `a` and `b`, so `/sync` matches two names that were
not chosen and not the one that was. -/
theorem comma_splits_name :
    Validated "a,b".toList ∧
      (SyncManager.new .priority 1 false).computeSyncStandbyNames [standbyNamed "a,b".toList]
        "p".toList ⟨9, [⟨"a,b".toList, 9⟩]⟩ none [] = some "FIRST 1 (\"a,b\")".toList ∧
      extractNamesFromSyncValue (some "FIRST 1 (\"a,b\")".toList) = ["a".toList, "b".toList] ∧
      (let written := syncStateOf "p".toList ["a".toList, "b".toList] true 1
       written.matchesName "a,b".toList = false ∧ written.matchesName "a".toList = true) ∧
      ¬RoundTrip "FIRST 1 (\"a,b\")".toList ["a,b".toList] := by
  have read : extractNamesFromSyncValue (some "FIRST 1 (\"a,b\")".toList) =
      ["a".toList, "b".toList] := by decide
  refine ⟨⟨{ StaticConfig.Config.sample with name := "a,b".toList }, rfl, rfl⟩,
    by decide, read,
    by decide, ?_⟩
  intro trip
  have whole := (trip.read "a,b".toList).mpr ⟨_, List.mem_singleton_self _, rfl⟩
  rw [read] at whole
  revert whole
  decide

end PgHa.SyncChoice
