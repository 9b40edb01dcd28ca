import PgHa.Election

/-!
Every node runs `is_healthiest_node` on its own copy of the view: it judges itself by
its configuration and its process, and its peers by the records they published. The
copies may list the members in any order.
-/

namespace PgHa.ElectionAgreement

open Text Cluster Identity LatestTimeline HaState Election

/-- A node that evaluates the election; `usable` is its own watchdog. -/
structure Node where
  ha : Ha
  usable : Bool

def Node.healthiest (node : Node) : Bool := isHealthiestNode node.usable node.ha

/-- The gates a node applies to itself, the lag ceiling apart. -/
def Node.passesOwnGates (node : Node) : Bool :=
  !(node.ha.config.nofailover || node.ha.config.failoverPriority == 0) &&
    (ownEligibility node.usable node.ha).campaigns && node.ha.isRunning &&
    syncFailoverAllowed node.ha.config.name (syncMode node.ha) node.ha.cluster.syncState &&
    excludedSwitchoverLeader node.ha != some node.ha.config.name

/-- The record of a node carries its own tags and watchdog, and says whether its
PostgreSQL runs. -/
structure Publishes (node : Node) (member : Member) : Prop where
  name : member.name = node.ha.config.name
  nofailover : member.isNofailover = node.ha.config.nofailover
  failoverPriority : member.failoverPriority = node.ha.config.failoverPriority
  watchdogFailed : member.watchdogFailed = !node.usable
  running : (member.state == .running) = node.ha.isRunning

/-- The same view, the members in any order. -/
structure SameView (first second : ClusterView) : Prop where
  members : first.members.Perm second.members
  failover : first.failover = second.failover
  syncState : first.syncState = second.syncState
  timeline : first.timeline = second.timeline
  dcsVoters : first.dcsVoters = second.dcsVoters

/-- The nodes of a cluster and their records in the view they all have. -/
structure Electorate (nodes : List Node) (shared : ClusterView) (config : GlobalConfig) : Prop where
  distinct : (nodes.map fun node => node.ha.config.name).Nodup
  distinctRecords : (shared.members.map Member.name).Nodup
  published : ∀ node ∈ nodes, ∃ member ∈ shared.members, Publishes node member
  belongs : ∀ member ∈ shared.members, ∃ node ∈ nodes, Publishes node member
  sees : ∀ node ∈ nodes, SameView node.ha.cluster shared
  config : ∀ node ∈ nodes, node.ha.lastConfig = config
  noOverride : ∀ node ∈ nodes, node.ha.directory.acceptTimelineLoss = false

/-! ### The order of the members -/

/-- The two answers differ at most in the two histories that a conflict names. -/
def SameLatest (first second : Latest) : Prop :=
  first = second ∨
    ∃ a b c d, first = .unknown (.conflict a b) ∧ second = .unknown (.conflict c d)

theorem agreeing_seen (seen : TimelineId) (ids : List TimelineId) :
    (∀ id ∈ ids, id = seen) ∧ agreeing (some seen) ids = .ok (some seen) ∨
      (∃ id ∈ ids, id ≠ seen) ∧ ∃ a b,
        agreeing (some seen) ids = .error (.conflict a b) := by
  induction ids with
  | nil => exact Or.inl ⟨by simp, rfl⟩
  | cons id rest ih =>
      by_cases same : seen = id
      · simp only [agreeing, same, if_true] at ih ⊢
        rcases ih with ⟨all, agreed⟩ | ⟨⟨other, member, differs⟩, conflict⟩
        · exact Or.inl ⟨by simpa using all, agreed⟩
        · exact Or.inr ⟨⟨other, List.mem_cons_of_mem id member, differs⟩, conflict⟩
      · simp only [agreeing, same, if_false]
        exact Or.inr ⟨⟨id, List.mem_cons_self, Ne.symm same⟩, seen, id, rfl⟩

/-- In another order the same identities agree on the same one or conflict. -/
theorem agreeing_perm {first second : List TimelineId} (order : first.Perm second) :
    agreeing none first = agreeing none second ∨
      ∃ a b c d, agreeing none first = .error (.conflict a b) ∧
        agreeing none second = .error (.conflict c d) := by
  cases first with
  | nil =>
      rw [order.nil_eq]
      exact Or.inl rfl
  | cons x xs =>
      cases second with
      | nil => exact absurd order.eq_nil (by simp)
      | cons y ys =>
          have across (id : TimelineId) : id ∈ x :: xs ↔ id ∈ y :: ys := order.mem_iff
          simp only [agreeing]
          rcases agreeing_seen x xs
            with ⟨allX, agreedX⟩ | ⟨⟨i, memberI, differsI⟩, a, b, conflictX⟩
          · have same : y = x := by
              rcases List.mem_cons.mp ((across y).mpr List.mem_cons_self) with here | later
              · exact here
              · exact allX y later
            rcases agreeing_seen y ys with ⟨_, agreedY⟩ | ⟨⟨j, memberJ, differsJ⟩, _⟩
            · rw [agreedX, agreedY, same]
              exact Or.inl rfl
            · exfalso
              rcases List.mem_cons.mp ((across j).mpr (List.mem_cons_of_mem y memberJ)) with
                here | later
              · exact differsJ (here.trans same.symm)
              · exact differsJ ((allX j later).trans same.symm)
          · rcases agreeing_seen y ys with ⟨allY, _⟩ | ⟨_, c, d, conflictY⟩
            · have only (id : TimelineId) (member : id ∈ x :: xs) : id = y := by
                rcases List.mem_cons.mp ((across id).mp member) with here | later
                · exact here
                · exact allY id later
              exact absurd ((only i (List.mem_cons_of_mem x memberI)).trans
                (only x List.mem_cons_self).symm) differsI
            · exact Or.inr ⟨a, b, c, d, conflictX, conflictY⟩

/-- With distinct names a lookup does not depend on the order. -/
theorem find_name_perm {first second : List Member} (order : first.Perm second)
    (distinct : (second.map Member.name).Nodup) (name : Str) :
    first.find? (fun member => member.name == name) =
      second.find? (fun member => member.name == name) := by
  induction order with
  | nil => rfl
  | cons member _ ih =>
      simp only [List.find?_cons]
      rw [ih (List.nodup_cons.mp distinct).2]
  | swap x y rest =>
      simp only [List.map_cons, List.nodup_cons, List.mem_cons, not_or] at distinct
      have apart : x.name ≠ y.name := distinct.1.1
      simp only [List.find?_cons]
      by_cases hereX : x.name = name
      · have notY : (y.name == name) = false := by
          simp only [beq_eq_false_iff_ne]
          exact fun hereY => apart (hereX.trans hereY.symm)
        simp [hereX, notY]
      · have notX : (x.name == name) = false := by simpa using hereX
        simp [notX]
  | trans firstOrder secondOrder ihFirst ihSecond =>
      have middle := (secondOrder.map Member.name).nodup_iff.mpr distinct
      exact (ihFirst middle).trans (ihSecond distinct)

theorem resolvePending_perm (record : TimelineRecord) (p : PendingPromote)
    {first second : List Member} (order : first.Perm second)
    (distinct : (second.map Member.name).Nodup) :
    SameLatest (resolvePending record p first) (resolvePending record p second) := by
  have void : promoteIsVoid p first = promoteIsVoid p second := by
    unfold promoteIsVoid
    rw [find_name_perm order distinct]
  unfold resolvePending
  rcases agreeing_perm (order.filterMap (aboveBase p)) with same | ⟨a, b, c, d, one, other⟩
  · rw [same, void]
    exact Or.inl rfl
  · rw [one, other]
    exact Or.inr ⟨a, b, c, d, rfl, rfl⟩

theorem max_perm {first second : List Nat} (order : first.Perm second) :
    first.max? = second.max? := by
  cases greatest : second.max? with
  | none =>
      rw [List.max?_eq_none_iff] at greatest ⊢
      subst second
      exact order.eq_nil
  | some value =>
      rw [List.max?_eq_some_iff] at greatest ⊢
      exact ⟨order.mem_iff.mpr greatest.1,
        fun other member => greatest.2 other (order.mem_iff.mp member)⟩

/-- Whether all values equal the first one does not depend on the order. -/
theorem first_differs_perm {Value : Type} (number : Value → Nat) {first second : List Value}
    (order : first.Perm second) :
    let head (values : List Value) : Nat := (values.head?.map number).getD 0
    let mixed (values : List Value) : Bool := values.any fun value => number value != head values
    mixed first = true ∧ mixed second = true ∨
      mixed first = false ∧ mixed second = false ∧ head first = head second := by
  intro head mixed
  have unmixed (values others : List Value) (reordered : values.Perm others)
      (even : mixed values = false) : mixed others = false ∧ head values = head others := by
    have all (value : Value) (member : value ∈ others) : number value = head values := by
      have same := List.any_eq_false.mp even value (reordered.mem_iff.mpr member)
      simpa using same
    have heads : head values = head others := by
      cases others with
      | nil =>
          rw [reordered.eq_nil]
      | cons value rest => exact (all value List.mem_cons_self).symm
    refine ⟨List.any_eq_false.mpr fun value member => ?_, heads⟩
    simp [all value member, heads]
  cases evenFirst : mixed first with
  | false =>
      obtain ⟨evenSecond, heads⟩ := unmixed first second order evenFirst
      exact Or.inr ⟨rfl, evenSecond, heads⟩
  | true =>
      cases evenSecond : mixed second with
      | false =>
          obtain ⟨even, _⟩ := unmixed second first order.symm evenSecond
          rw [evenFirst] at even
          cases even
      | true => exact Or.inl ⟨rfl, rfl⟩

theorem inferLatest_perm {first second : List Member} (order : first.Perm second)
    (voters : Option Nat) :
    SameLatest (inferLatest first voters) (inferLatest second voters) := by
  have histories := order.filterMap fun member =>
    (historyOf member).map fun history => (member, history)
  unfold inferLatest
  simp only [histories.length_eq, order.length_eq]
  split
  · exact Or.inl rfl
  · rcases first_differs_perm
      (fun found : Member × HistoryEvidence => (found.1.lineage.map Lineage.generation).getD 0)
      histories with ⟨mixedFirst, mixedSecond⟩ | ⟨evenFirst, evenSecond, heads⟩
    · simp only [mixedFirst, mixedSecond, if_true]
      exact Or.inl rfl
    · have newest := max_perm (histories.map fun found => found.2.timeline)
      simp only [evenFirst, evenSecond, Bool.false_eq_true, if_false]
      simp only [heads, newest]
      rcases agreeing_perm ((histories.filter _).map fun found => found.2.id) with
        same | ⟨a, b, c, d, one, other⟩
      · rw [same]
        exact Or.inl rfl
      · rw [one, other]
        exact Or.inr ⟨a, b, c, d, rfl, rfl⟩

theorem resolveLatest_perm (timeline : ClusterTimeline) {first second : List Member}
    (order : first.Perm second) (distinct : (second.map Member.name).Nodup)
    (voters : Option Nat) :
    SameLatest (resolveLatest timeline first voters) (resolveLatest timeline second voters) := by
  cases timeline with
  | record record version =>
      simp only [resolveLatest]
      cases record.pending with
      | none => exact Or.inl rfl
      | some p => exact resolvePending_perm record p order distinct
  | absent => exact inferLatest_perm order voters
  | legacy value version => exact inferLatest_perm order voters
  | unreadable version => exact inferLatest_perm order voters

theorem eligibility_same (member : Member) {first second : Latest}
    (same : SameLatest first second) :
    (eligibility member first).isOk = (eligibility member second).isOk := by
  rcases same with rfl | ⟨a, b, c, d, rfl, rfl⟩
  · rfl
  · rfl

/-! ### One judgement -/

section Shared

variable (shared : ClusterView) (config : GlobalConfig)

/-- The candidate that every node but itself defers to. -/
def honoured : Option Str :=
  match shared.failover.bind Failover.candidate with
  | none => none
  | some candidate =>
      let member := shared.getMember candidate
      if member.any fun found => found.isNofailover || found.state != .running then none
      else if member.map (mayCampaign shared) != some false then some candidate
      else none

def excluded : Option Str :=
  if (honoured shared).isSome then none
  else (shared.failover.bind Failover.leader).filter fun name => !name.isEmpty

/-- The gates, as the record of a member shows them. -/
def passes (member : Member) : Bool :=
  excluded shared != some member.name && !member.isNofailover && member.failoverPriority != 0 &&
    member.state == .running &&
    syncFailoverAllowed member.name config.sync.enabled shared.syncState &&
    mayCampaign shared member

/-- The highest position that a member which passes the gates has published. -/
def highestWal : Nat :=
  if config.maximumLagOnFailover.isSome then
    ((shared.members.filter (passes shared config)).filterMap Member.walPosition).max?.getD 0
  else 0

/-- Passes the gates and the lag ceiling. -/
def stands (member : Member) : Bool :=
  passes shared config member &&
    !exceedsFailoverLag member.walPosition (highestWal shared config) config.maximumLagOnFailover

/-- The member outranks the other one. -/
def beats (member other : Member) : Bool :=
  outranks member (other.walPosition.getD 0) other.failoverPriority other.name

end Shared

theorem getMember_same {first second : ClusterView} (same : SameView first second)
    (distinct : (second.members.map Member.name).Nodup) (name : Str) :
    first.getMember name = second.getMember name :=
  find_name_perm same.members distinct name

theorem mayCampaign_same {first second : ClusterView} (same : SameView first second)
    (distinct : (second.members.map Member.name).Nodup) (member : Member) :
    mayCampaign first member = mayCampaign second member := by
  unfold mayCampaign memberEligibility
  split
  · rfl
  · apply eligibility_same
    unfold latestTimeline
    rw [same.timeline, same.dcsVoters]
    exact resolveLatest_perm _ same.members distinct _

theorem getMember_self {shared : ClusterView} (distinct : (shared.members.map Member.name).Nodup)
    {member : Member} (listed : member ∈ shared.members) :
    shared.getMember member.name = some member := by
  cases found : shared.getMember member.name with
  | none =>
      have differs := List.find?_eq_none.mp found member listed
      simp at differs
  | some other =>
      have matched := List.find?_some found
      have named : other.name = member.name := beq_iff_eq.mp matched
      rw [List.inj_on_of_nodup_map distinct (List.mem_of_find?_eq_some found) listed named]

/-- The ranking as an order: WAL, then priority, then the name. -/
theorem beats_iff (member other : Member) :
    beats member other = true ↔
      other.walPosition.getD 0 < member.walPosition.getD 0 ∨
        member.walPosition.getD 0 = other.walPosition.getD 0 ∧
          (other.failoverPriority < member.failoverPriority ∨
            member.failoverPriority = other.failoverPriority ∧ member.name < other.name) := by
  simp [beats, outranks]

theorem beats_irrefl (member : Member) : beats member member = false := by
  rw [← Bool.not_eq_true, beats_iff]
  simp

theorem beats_trans {first second third : Member} (left : beats first second = true)
    (right : beats second third = true) : beats first third = true := by
  rw [beats_iff] at left right ⊢
  rcases left with more | ⟨sameWal, preferred | ⟨samePriority, named⟩⟩
  · rcases right with more' | ⟨sameWal', _⟩
    · exact Or.inl (lt_trans more' more)
    · exact Or.inl (sameWal' ▸ more)
  · rcases right with more' | ⟨sameWal', preferred' | ⟨samePriority', _⟩⟩
    · exact Or.inl (sameWal ▸ more')
    · exact Or.inr ⟨sameWal.trans sameWal', Or.inl (lt_trans preferred' preferred)⟩
    · exact Or.inr ⟨sameWal.trans sameWal', Or.inl (samePriority' ▸ preferred)⟩
  · rcases right with more' | ⟨sameWal', preferred' | ⟨samePriority', named'⟩⟩
    · exact Or.inl (sameWal ▸ more')
    · exact Or.inr ⟨sameWal.trans sameWal', Or.inl (samePriority ▸ preferred')⟩
    · exact Or.inr ⟨sameWal.trans sameWal',
        Or.inr ⟨samePriority.trans samePriority', List.lt_trans named named'⟩⟩

/-- Of two members with different names one beats the other. -/
theorem beats_total {first second : Member} (differ : first.name ≠ second.name) :
    beats first second = true ∨ beats second first = true := by
  rw [beats_iff, beats_iff]
  rcases lt_trichotomy (first.walPosition.getD 0) (second.walPosition.getD 0) with
    less | sameWal | more
  · exact Or.inr (Or.inl less)
  · rcases lt_trichotomy first.failoverPriority second.failoverPriority with
      less | samePriority | more
    · exact Or.inr (Or.inr ⟨sameWal.symm, Or.inl less⟩)
    · by_cases lower : first.name < second.name
      · exact Or.inl (Or.inr ⟨sameWal, Or.inr ⟨samePriority, lower⟩⟩)
      · by_cases higher : second.name < first.name
        · exact Or.inr (Or.inr ⟨sameWal.symm, Or.inr ⟨samePriority.symm, higher⟩⟩)
        · exact absurd (List.le_antisymm (List.not_lt.mp higher) (List.not_lt.mp lower)) differ
    · exact Or.inl (Or.inr ⟨sameWal, Or.inl more⟩)
  · exact Or.inl (Or.inl more)

/-- By induction on the list: some member of it is beaten by none. -/
theorem exists_unbeaten {members : List Member} (some : members ≠ []) :
    ∃ winner ∈ members, ∀ member ∈ members, beats member winner = false := by
  induction members with
  | nil => exact absurd rfl some
  | cons head rest ih =>
      by_cases alone : rest = []
      · subst rest
        refine ⟨head, List.mem_cons_self, fun member listed => ?_⟩
        rw [List.mem_singleton.mp listed]
        exact beats_irrefl head
      · obtain ⟨winner, listed, unbeaten⟩ := ih alone
        cases challenged : beats head winner with
        | false =>
            refine ⟨winner, List.mem_cons_of_mem head listed, fun member among => ?_⟩
            rcases List.mem_cons.mp among with here | later
            · rw [here]
              exact challenged
            · exact unbeaten member later
        | true =>
            refine ⟨head, List.mem_cons_self, fun member among => ?_⟩
            rcases List.mem_cons.mp among with here | later
            · rw [here]
              exact beats_irrefl head
            · cases again : beats member head with
              | false => rfl
              | true =>
                  have beaten := beats_trans again challenged
                  rw [unbeaten member later] at beaten
                  cases beaten

section Judgement

variable {node : Node} {shared : ClusterView} {config : GlobalConfig} {record : Member}

/-- A node with its record among the members of the view. -/
structure Judges (node : Node) (shared : ClusterView) (config : GlobalConfig) (record : Member) :
    Prop where
  distinct : (shared.members.map Member.name).Nodup
  listed : record ∈ shared.members
  publishes : Publishes node record
  sees : SameView node.ha.cluster shared
  config : node.ha.lastConfig = config
  noOverride : node.ha.directory.acceptTimelineLoss = false

theorem ownMember (judges : Judges node shared config record) :
    node.ha.cluster.getMember node.ha.config.name = some record := by
  rw [getMember_same judges.sees judges.distinct, ← judges.publishes.name]
  exact getMember_self judges.distinct judges.listed

/-- A node may campaign exactly if the others see that it may. -/
theorem campaigns_record (judges : Judges node shared config record) :
    (ownEligibility node.usable node.ha).campaigns = mayCampaign shared record := by
  have verdict := mayCampaign_same judges.sees judges.distinct record
  have watchdog := judges.publishes.watchdogFailed
  unfold ownEligibility
  cases usable : node.usable with
  | false =>
      rw [usable] at watchdog
      simp only [Bool.not_false, if_true, OwnEligibility.campaigns]
      simp [mayCampaign, memberEligibility, watchdog, Except.isOk, Except.toBool]
  | true =>
      simp only [Bool.not_true, Bool.false_eq_true, if_false, ownMember judges, judges.noOverride,
        Bool.not_false, if_true]
      rw [← verdict]
      unfold mayCampaign
      cases memberEligibility node.ha.cluster record with
      | ok _ => rfl
      | error why => rfl

/-- A node that may campaign honours whom all honour. -/
theorem honoured_record (judges : Judges node shared config record)
    (may : mayCampaign shared record = true) : honouredCandidate node.ha = honoured shared := by
  unfold honouredCandidate honoured
  rw [judges.sees.failover]
  cases shared.failover.bind Failover.candidate with
  | none => rfl
  | some candidate =>
      have lookup := getMember_same judges.sees judges.distinct candidate
      have verdicts : mayCampaign node.ha.cluster = mayCampaign shared :=
        funext (mayCampaign_same judges.sees judges.distinct)
      simp only [lookup, verdicts]
      split
      · rfl
      · by_cases self : candidate = node.ha.config.name
        · have own : shared.getMember candidate = some record := by
            rw [self, ← getMember_same judges.sees judges.distinct]
            exact ownMember judges
          simp only [own, Option.map_some, may]
          simp [self, honourDesignatedCandidate]
        · have other : (candidate == node.ha.config.name) = false := by simpa using self
          simp [other, honourDesignatedCandidate]

/-- A node that may campaign excludes whom all exclude. -/
theorem excluded_record (judges : Judges node shared config record)
    (may : mayCampaign shared record = true) :
    excludedSwitchoverLeader node.ha = excluded shared := by
  unfold excludedSwitchoverLeader excluded
  rw [honoured_record judges may, judges.sees.failover]

theorem ownGates_record (judges : Judges node shared config record) :
    node.passesOwnGates = passes shared config record := by
  unfold Node.passesOwnGates passes syncMode
  rw [campaigns_record judges, judges.config, judges.sees.syncState, judges.publishes.name,
    judges.publishes.nofailover, judges.publishes.failoverPriority, judges.publishes.running]
  cases may : mayCampaign shared record with
  | false => simp
  | true =>
      rw [excluded_record judges may]
      simp only [Bool.not_or, Bool.and_true, bne]
      ac_rfl

/-- A node that passes its own gates applies the same ones to its peers. -/
theorem peerGates_record (judges : Judges node shared config record)
    (gates : passes shared config record = true) (member : Member) :
    peerPassesGates node.ha (excludedSwitchoverLeader node.ha) member =
      (member.name != record.name && passes shared config member) := by
  have may : mayCampaign shared record = true := by
    simp only [passes, Bool.and_eq_true] at gates
    exact gates.2
  unfold peerPassesGates passes syncMode
  rw [excluded_record judges may, judges.config, judges.sees.syncState,
    mayCampaign_same judges.sees judges.distinct, judges.publishes.name]
  ac_rfl

theorem highestWal_record (judges : Judges node shared config record)
    (gates : passes shared config record = true) :
    (if config.maximumLagOnFailover.isSome then
      ((node.ha.cluster.members.filter fun member =>
        member.name == node.ha.config.name ||
          peerPassesGates node.ha (excludedSwitchoverLeader node.ha) member).filterMap
            Member.walPosition).max?.getD 0
    else 0) = highestWal shared config := by
  have inside : ∀ member ∈ shared.members,
      (member.name == node.ha.config.name ||
        peerPassesGates node.ha (excludedSwitchoverLeader node.ha) member) =
          passes shared config member := by
    intro member listed
    rw [peerGates_record judges gates, ← judges.publishes.name]
    by_cases named : member.name = record.name
    · rw [List.inj_on_of_nodup_map judges.distinct listed judges.listed named]
      simp [gates]
    · have other : (member.name == record.name) = false := by simpa using named
      simp [bne, other]
  have kept := (judges.sees.members.filter fun member => member.name == node.ha.config.name ||
    peerPassesGates node.ha (excludedSwitchoverLeader node.ha) member).filterMap Member.walPosition
  unfold highestWal
  rw [max_perm kept, List.filter_congr inside]

/-- The own gates first, then the lag ceiling and the peers. -/
theorem healthiest_gates (node : Node) :
    let maxLag := node.ha.lastConfig.maximumLagOnFailover
    let ownWal := (node.ha.cluster.getMember node.ha.config.name).bind Member.walPosition
    let maxWal := if maxLag.isSome then
        ((node.ha.cluster.members.filter fun member =>
          member.name == node.ha.config.name ||
            peerPassesGates node.ha (excludedSwitchoverLeader node.ha) member).filterMap
              Member.walPosition).max?.getD 0
      else 0
    node.healthiest = (node.passesOwnGates && !exceedsFailoverLag ownWal maxWal maxLag &&
      node.ha.cluster.members.all fun member =>
        !(peerPassesGates node.ha (excludedSwitchoverLeader node.ha) member &&
          !exceedsFailoverLag member.walPosition maxWal maxLag &&
          outranks member (ownWal.getD 0) node.ha.config.failoverPriority
            node.ha.config.name)) := by
  intro maxLag ownWal maxWal
  unfold Node.healthiest isHealthiestNode Node.passesOwnGates
  cases node.ha.config.nofailover || node.ha.config.failoverPriority == 0 with
  | true => rfl
  | false =>
      cases (ownEligibility node.usable node.ha).campaigns with
      | false => rfl
      | true =>
          cases node.ha.isRunning with
          | false => rfl
          | true =>
              cases syncFailoverAllowed node.ha.config.name (syncMode node.ha)
                  node.ha.cluster.syncState with
              | false => rfl
              | true =>
                  simp only [bne, Bool.not_true, Bool.false_eq_true, if_false, Bool.not_false,
                    Bool.true_and]
                  cases excludedSwitchoverLeader node.ha == some node.ha.config.name with
                  | true => rfl
                  | false =>
                      simp only [Bool.false_eq_true, if_false, Bool.not_false, Bool.true_and]
                      cases exceedsFailoverLag ownWal maxWal maxLag with
                      | true => rfl
                      | false => rfl

/-- A node calls itself the healthiest exactly if its record stands and no record that
stands beats it. -/
theorem healthiest_record (judges : Judges node shared config record) :
    node.healthiest = true ↔ stands shared config record = true ∧
      ∀ member ∈ shared.members, stands shared config member = true →
        beats member record = false := by
  rw [healthiest_gates, ownGates_record judges, judges.config]
  cases gates : passes shared config record with
  | false => simp [stands, gates]
  | true =>
      have peers := peerGates_record judges gates
      rw [highestWal_record judges gates, ownMember judges, Option.bind_some,
        judges.sees.members.all_eq, ← judges.publishes.name,
          ← judges.publishes.failoverPriority]
      simp only [peers, stands, gates, Bool.true_and, Bool.and_eq_true, List.all_eq_true]
      refine and_congr_right fun _ => forall_congr' fun member => forall_congr' fun listed => ?_
      change (!(member.name != record.name && passes shared config member &&
        !exceedsFailoverLag member.walPosition (highestWal shared config)
          config.maximumLagOnFailover && beats member record)) = true ↔ _
      by_cases named : member.name = record.name
      · rw [List.inj_on_of_nodup_map judges.distinct listed judges.listed named]
        simp [beats_irrefl]
      · have other : (member.name != record.name) = true := by simpa using named
        simp only [other, Bool.true_and, Bool.not_eq_true', Bool.and_eq_false_imp, Bool.and_eq_true]

end Judgement

/-! ### The election -/

section Agreement

variable {nodes : List Node} {shared : ClusterView} {config : GlobalConfig}

theorem electorate_judges (electorate : Electorate nodes shared config) {node : Node}
    (voter : node ∈ nodes) : ∃ record, Judges node shared config record := by
  obtain ⟨record, listed, publishes⟩ := electorate.published node voter
  exact ⟨record, electorate.distinctRecords, listed, publishes, electorate.sees node voter,
    electorate.config node voter, electorate.noOverride node voter⟩

theorem belonging_judges (electorate : Electorate nodes shared config) {record : Member}
    (listed : record ∈ shared.members) : ∃ node ∈ nodes,
    Judges node shared config record := by
  obtain ⟨node, voter, publishes⟩ := electorate.belongs record listed
  exact ⟨node, voter, electorate.distinctRecords, listed, publishes, electorate.sees node voter,
    electorate.config node voter, electorate.noOverride node voter⟩

theorem healthiest_unique (electorate : Electorate nodes shared config) {first second : Node}
    (voterFirst : first ∈ nodes) (voterSecond : second ∈ nodes)
    (winsFirst : first.healthiest = true) (winsSecond : second.healthiest = true) :
    first = second := by
  obtain ⟨one, judgesOne⟩ := electorate_judges electorate voterFirst
  obtain ⟨other, judgesOther⟩ := electorate_judges electorate voterSecond
  obtain ⟨standsOne, unbeatenOne⟩ := (healthiest_record judgesOne).mp winsFirst
  obtain ⟨standsOther, unbeatenOther⟩ := (healthiest_record judgesOther).mp winsSecond
  have named : one.name = other.name := by
    by_contra differ
    rcases beats_total differ with wins | wins
    · rw [unbeatenOther one judgesOne.listed standsOne] at wins
      cases wins
    · rw [unbeatenOne other judgesOther.listed standsOther] at wins
      cases wins
  apply List.inj_on_of_nodup_map electorate.distinct voterFirst voterSecond
  rw [← judgesOne.publishes.name, ← judgesOther.publishes.name, named]

/-- A member that has published the highest position keeps below the ceiling. -/
theorem someone_stands {gated : Member} (listed : gated ∈ shared.members)
    (gates : passes shared config gated = true)
    (measured : config.maximumLagOnFailover = none ∨ ∃ known ∈ shared.members,
      passes shared config known = true ∧ known.walPosition.isSome = true) :
    ∃ record ∈ shared.members, stands shared config record = true := by
  cases ceiling : config.maximumLagOnFailover with
  | none => exact ⟨gated, listed, by simp [stands, gates, ceiling, exceedsFailoverLag]⟩
  | some limit =>
      obtain ⟨known, knownListed, knownGates, published⟩ :=
        measured.resolve_left (by simp [ceiling])
      obtain ⟨position, found⟩ := Option.isSome_iff_exists.mp published
      have among : position ∈
          (shared.members.filter (passes shared config)).filterMap Member.walPosition :=
        List.mem_filterMap.mpr ⟨known, List.mem_filter.mpr ⟨knownListed, knownGates⟩, found⟩
      cases highest : ((shared.members.filter (passes shared config)).filterMap
          Member.walPosition).max? with
      | none =>
          rw [List.max?_eq_none_iff] at highest
          simp [highest] at among
      | some top =>
          obtain ⟨record, filtered, wal⟩ :=
            List.mem_filterMap.mp (List.max?_eq_some_iff.mp highest).1
          obtain ⟨recordListed, recordGates⟩ := List.mem_filter.mp filtered
          refine ⟨record, recordListed, ?_⟩
          simp [stands, recordGates, highestWal, ceiling, highest, exceedsFailoverLag, wal]

theorem healthiest_exists (electorate : Electorate nodes shared config)
    (gated : ∃ node ∈ nodes, node.passesOwnGates = true)
    (measured : config.maximumLagOnFailover = none ∨
      ∃ node ∈ nodes, node.passesOwnGates = true ∧
        ∃ member ∈ shared.members, Publishes node member ∧ member.walPosition.isSome = true) :
    ∃ node ∈ nodes, node.healthiest = true := by
  obtain ⟨node, voter, ownGates⟩ := gated
  obtain ⟨record, judges⟩ := electorate_judges electorate voter
  rw [ownGates_record judges] at ownGates
  have known : config.maximumLagOnFailover = none ∨ ∃ known ∈ shared.members,
      passes shared config known = true ∧ known.walPosition.isSome = true := by
    refine measured.imp id ?_
    rintro ⟨other, otherVoter, otherGates, member, listed, publishes, published⟩
    have judgesOther : Judges other shared config member :=
      ⟨electorate.distinctRecords, listed, publishes, electorate.sees other otherVoter,
        electorate.config other otherVoter, electorate.noOverride other otherVoter⟩
    rw [ownGates_record judgesOther] at otherGates
    exact ⟨member, listed, otherGates, published⟩
  obtain ⟨standing, standingListed, standsHere⟩ := someone_stands judges.listed ownGates known
  have some : shared.members.filter (stands shared config) ≠ [] :=
    List.ne_nil_of_mem (List.mem_filter.mpr ⟨standingListed, standsHere⟩)
  obtain ⟨winner, filtered, unbeaten⟩ := exists_unbeaten some
  obtain ⟨winnerListed, winnerStands⟩ := List.mem_filter.mp filtered
  obtain ⟨elected, electedVoter, electedJudges⟩ := belonging_judges electorate winnerListed
  refine ⟨elected, electedVoter, (healthiest_record electedJudges).mpr ⟨winnerStands, ?_⟩⟩
  intro member listed alsoStands
  exact unbeaten member (List.mem_filter.mpr ⟨listed, alsoStands⟩)

/-- At most one node calls itself the healthiest; exactly one does if some node passes
its own gates and, where there is a lag ceiling, some such node has published a position.
The nodes agree on the latest timeline, up to the histories that a conflict names, and on
who may campaign. -/
theorem one_healthiest_node (electorate : Electorate nodes shared config) :
    (∀ first ∈ nodes, ∀ second ∈ nodes, first.healthiest = true →
      second.healthiest = true →
      first = second) ∧
    ((∃ node ∈ nodes, node.passesOwnGates = true) →
      (config.maximumLagOnFailover = none ∨ ∃ node ∈ nodes, node.passesOwnGates = true ∧
        ∃ member ∈ shared.members, Publishes node member ∧
          member.walPosition.isSome = true) →
      ∃! node, node ∈ nodes ∧ node.healthiest = true) ∧
    (∀ node ∈ nodes, SameLatest (latestTimeline node.ha.cluster) (latestTimeline shared) ∧
      ∀ member, mayCampaign node.ha.cluster member = mayCampaign shared member) := by
  refine ⟨?_, ?_, ?_⟩
  · intro first voterFirst second voterSecond winsFirst winsSecond
    exact healthiest_unique electorate voterFirst voterSecond winsFirst winsSecond
  · intro gated measured
    obtain ⟨node, voter, wins⟩ := healthiest_exists electorate gated measured
    refine ⟨node, ⟨voter, wins⟩, ?_⟩
    rintro other ⟨otherVoter, otherWins⟩
    exact healthiest_unique electorate otherVoter voter otherWins wins
  · intro node voter
    have same := electorate.sees node voter
    refine ⟨?_, mayCampaign_same same electorate.distinctRecords⟩
    unfold latestTimeline
    rw [same.timeline, same.dcsVoters]
    exact resolveLatest_perm _ same.members electorate.distinctRecords _

end Agreement

/-! ### Two replicas -/

def noDynamicConfig : GlobalConfig :=
  ⟨none, none, none, none, ⟨none, none, none, none⟩, none, none⟩

/-- A running replica on timeline 2, which begins where it says. -/
def replicaRecord (name : Str) (wal beginsAt : Nat) : Member :=
  ⟨name, .running, .replica, some wal, some 2, ⟨none, none, none, none⟩, false,
    some ⟨some beginsAt, some ⟨2, beginsAt, true⟩, none, 0⟩, false⟩

def viewOf (members : List Member) (record : TimelineRecord) : ClusterView :=
  ⟨none, members, none, none, none, .record record 1, some 3, none⟩

def replicaNode (name : Str) (view : ClusterView) : Node where
  usable := true
  ha :=
    { config := ⟨name, false, 1, none, false, .off, 5⟩
      ttl := 30
      cluster := view
      isLeader := false
      isPaused := false
      lastConfig := noDynamicConfig
      startFailCount := 0
      appliedSyncStandbyNames := none
      syncPgListChangedFlushLsn := none
      stopPending := false
      promotePending := none
      pendingHistory := false
      rewindHold := false
      rewindHoldPersisted := false
      leaderLease := none
      fenceDeadline := none
      shuttingDown := false
      watchdogActive := false
      role := .replica
      inRecovery := some true
      startsBlocked := false
      server := .standby
      standbySignal := true
      directory := ⟨.ok false, false, false, false, false, .ok 0,
        .ok ⟨2, 100, true⟩, .ok none⟩
      unseen := false
      tick := 0 }

/-- Two replicas that list each other in opposite orders. -/
theorem replicas_electorate (first second : Member) (record : TimelineRecord)
    (one : Publishes (replicaNode ['a'] (viewOf [first, second] record)) first)
    (other : Publishes (replicaNode ['b'] (viewOf [second, first] record)) second) :
    Electorate [replicaNode ['a'] (viewOf [first, second] record),
      replicaNode ['b'] (viewOf [second, first] record)] (viewOf [first, second] record)
      noDynamicConfig := by
  refine ⟨by simp [replicaNode], ?_, ?_, ?_, ?_, ?_, ?_⟩
  · simp [viewOf, one.name, other.name, replicaNode]
  · intro node voter
    rcases List.mem_cons.mp voter with rfl | later
    · exact ⟨first, List.mem_cons_self, one⟩
    · rw [List.mem_singleton.mp later]
      exact ⟨second, List.mem_cons_of_mem _ List.mem_cons_self, other⟩
  · intro member listed
    rcases List.mem_cons.mp listed with rfl | later
    · exact ⟨_, List.mem_cons_self, one⟩
    · rw [List.mem_singleton.mp later]
      exact ⟨_, List.mem_cons_of_mem _ List.mem_cons_self, other⟩
  · intro node voter
    rcases List.mem_cons.mp voter with rfl | later
    · exact ⟨.refl _, rfl, rfl, rfl, rfl⟩
    · rw [List.mem_singleton.mp later]
      exact ⟨.swap _ _ _, rfl, rfl, rfl, rfl⟩
  · intro node voter
    rcases List.mem_cons.mp voter with rfl | later
    · rfl
    · rw [List.mem_singleton.mp later]
      rfl
  · intro node voter
    rcases List.mem_cons.mp voter with rfl | later
    · rfl
    · rw [List.mem_singleton.mp later]
      rfl

theorem replica_publishes (name : Str) (view : ClusterView) (wal beginsAt : Nat) :
    Publishes (replicaNode name view) (replicaRecord name wal beginsAt) :=
  ⟨rfl, rfl, rfl, rfl, rfl⟩

def timelineTwo : TimelineRecord := ⟨2, 100, ['p'], 0, none⟩

theorem one_healthiest_node_twoReplicas :
    ∃! node, node ∈ [replicaNode ['a']
        (viewOf [replicaRecord ['a'] 500 100, replicaRecord ['b'] 600 100] timelineTwo),
      replicaNode ['b']
        (viewOf [replicaRecord ['b'] 600 100, replicaRecord ['a'] 500 100] timelineTwo)] ∧
      node.healthiest = true :=
  (one_healthiest_node (replicas_electorate _ _ timelineTwo (replica_publishes _ _ _ _)
    (replica_publishes _ _ _ _))).2.1 ⟨_, List.mem_cons_self, by decide +kernel⟩ (Or.inl rfl)

/-- The promote of `p` above timeline 1 is not confirmed, and two replicas know two
histories of timeline 2. -/
def promotedTwice : TimelineRecord := ⟨1, 0, ['p'], 0, some ⟨['p'], 1, 0, 0, none⟩⟩

/-- The conflict that a node reports names the histories in the order of its list. -/
theorem conflict_names_depend_on_order :
    ∃ nodes shared config, Electorate nodes shared config ∧
      ∃ node ∈ nodes, latestTimeline node.ha.cluster ≠ latestTimeline shared := by
  refine ⟨_, _, _, replicas_electorate (replicaRecord ['a'] 500 100) (replicaRecord ['b'] 600 200)
    promotedTwice (replica_publishes _ _ _ _) (replica_publishes _ _ _ _), _,
    List.mem_cons_of_mem _ List.mem_cons_self, ?_⟩
  decide

end PgHa.ElectionAgreement
