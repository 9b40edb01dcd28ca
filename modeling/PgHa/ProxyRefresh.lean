import PgHa.Cluster
import PgHa.ProxyRegistry
import PgHa.Transition
import PgHa.Upstream

/-!
`refresh_proxy_backends` of `main.rs`: a task that takes each member list the HA loop publishes,
looks the addresses up one after the other and gives the backends to the proxy. A list that is
published in the meantime waits, and only the newest one of those that do.
-/

namespace PgHa.ProxyRefresh

open Cluster Proxy Text Transition Upstream Watch

/-! ### One member -/

/-- What the task reads of a member. -/
structure ListedMember where
  name : Str
  connUrl : Str
  apiUrl : Str
  role : MemberRole
  state : MemberState
  deriving DecidableEq

/-- The REST API of this node: its port, and whether it has TLS. -/
structure RestApi where
  port : Nat
  https : Bool

def scheme (https : Bool) : Str := if https then "https://".toList else "http://".toList

def restBaseUrl (rest : RestApi) (host : Str) : Str :=
  scheme rest.https ++ host ++ ':' :: Nat.toDigits 10 rest.port

def apiUrlFromConnUrl (rest : RestApi) (connUrl : Str) : Option Str :=
  (parsePgHostPort connUrl).map fun (host, _) => restBaseUrl rest host

def stripScheme (url : Str) : Str :=
  if (scheme true).isPrefixOf url then url.drop (scheme true).length
  else if (scheme false).isPrefixOf url then url.drop (scheme false).length
  else url

def alignApiScheme (https : Bool) (url : Str) : Str := scheme https ++ stripScheme url

/-- The URL that the probe uses; `ip` is that of the address found for the member. -/
def probeUrl (rest : RestApi) (ip : Str) (member : ListedMember) : Str :=
  if member.apiUrl = [] then (apiUrlFromConnUrl rest member.connUrl).getD (restBaseUrl rest ip)
  else alignApiScheme rest.https member.apiUrl

/-- The address found for a member, as it is printed and without its port. -/
structure SocketAddr where
  text : Str
  ip : Str
  deriving DecidableEq

def backendOf (rest : RestApi) (member : ListedMember) (addr : SocketAddr) : PgBackend where
  addr := addr.text
  name := member.name
  isPrimary := member.role == .primary
  isHealthy := member.state == .running
  apiUrl := probeUrl rest addr.ip member

def apiSchemeMismatch (url : Str) (https : Bool) : Bool :=
  if (scheme true).isPrefixOf url then !https
  else if (scheme false).isPrefixOf url then https
  else false

/-! ### The task -/

inductive Task where
  | waiting
  | resolving (left : List ListedMember) (backends : List PgBackend)
  | updating
  | ended

/-- `mismatchWarned` are the members that were warned of. `members` is the list that was taken
last, and `resolved` what the look-ups for it gave so far. -/
structure Node where
  channel : Channel (List ListedMember)
  seen : Nat
  task : Task
  mismatchWarned : List Str
  members : List ListedMember
  resolved : List (ListedMember × Option SocketAddr)
  proxy : ProxyState

def Node.new : Node where
  channel := .new []
  seen := (Channel.new ([] : List ListedMember)).subscribe
  task := .waiting
  mismatchWarned := []
  members := []
  resolved := []
  proxy := .new

/-- `warned` and `backends` after a look-up. -/
def takeResolved (rest : RestApi) (member : ListedMember) (warned : List Str)
    (backends : List PgBackend) :
    Option SocketAddr → List Str × List PgBackend
  | none => (warned, backends)
  | some addr =>
      let warns := member.apiUrl ≠ [] && apiSchemeMismatch member.apiUrl rest.https
      (if warns && !warned.contains member.name then member.name :: warned else warned,
        backends ++ [backendOf rest member addr])

inductive NodeAct where
  | publish (members : List ListedMember)
  | dropSender
  /-- `changed`, and the value that is there when it returns -/
  | wake
  /-- what the resolver gives for the next member -/
  | resolve (addr : Option SocketAddr)
  | update
  | updated
  /-- a step of the proxy, of its own or within `update_backends` -/
  | proxy (act : Act)

def Node.wake (node : Node) : Option Node :=
  match node.task with
  | .waiting =>
      match node.channel.changed node.seen with
      | none => none
      | some (.error (), _) => some { node with task := .ended }
      | some (.ok (), seen) =>
          let members := node.channel.value
          some { node with
            seen := seen
            task := .resolving members []
            mismatchWarned := node.mismatchWarned.filter fun name => members.any (·.name = name)
            members := members
            resolved := [] }
  | _ => none

/-- There is nothing to look up where the connection URL names no host. -/
def Node.resolve (rest : RestApi) (node : Node) (addr : Option SocketAddr) : Option Node :=
  match node.task with
  | .resolving (member :: left) backends =>
      let found := (parsePgHostPort member.connUrl).bind fun _ => addr
      let taken := takeResolved rest member node.mismatchWarned backends found
      some { node with
        task := .resolving left taken.2
        mismatchWarned := taken.1
        resolved := node.resolved ++ [(member, found)] }
  | _ => none

def Node.update (node : Node) : Option Node :=
  match node.task with
  | .resolving [] backends =>
      (node.proxy.update backends).map fun proxy => { node with task := .updating, proxy := proxy }
  | _ => none

def Node.updated (node : Node) : Option Node :=
  match node.task, node.proxy.updater with
  | .updating, .idle => some { node with task := .waiting }
  | _, _ => none

/-- Nobody else calls `update_backends`. -/
def Node.proxyStep (config : HealthCheckConfig) (node : Node) : Act → Option Node
  | .update _ => none
  | act => (Proxy.step config node.proxy act).map fun proxy => { node with proxy := proxy }

def step (rest : RestApi) (config : HealthCheckConfig) (node : Node) : NodeAct → Option Node
  | .publish members =>
      if node.channel.closed then none else some
        { node with channel := node.channel.send true members }
  | .dropSender => some { node with channel := node.channel.dropSender }
  | .wake => node.wake
  | .resolve addr => node.resolve rest addr
  | .update => node.update
  | .updated => node.updated
  | .proxy act => node.proxyStep config act

/-! ### The health state that a list leaves -/

/-- What the task determines of a registered backend. -/
def listing (backend : BackendHealth) : Str × Str × Str :=
  (backend.name, backend.addr, backend.apiUrl)

def listings (health : HealthState) : List (Str × Str × Str) :=
  health.backends.entries.map listing

def backendsOf (rest : RestApi) (resolved : List (ListedMember × Option SocketAddr)) :
    List PgBackend :=
  resolved.filterMap fun (member, found) => found.map (backendOf rest member)

/-- The registered backends are the members with an address, each as one of them is listed. -/
structure Reflects (rest : RestApi) (resolved : List (ListedMember × Option SocketAddr))
    (health : HealthState) : Prop where
  registered : ∀ member addr, (member, some addr) ∈ resolved → Registered health member.name
  listed : ∀ place ∈ listings health, ∃ member addr, (member, some addr) ∈ resolved ∧
    place = (member.name, addr.text, probeUrl rest addr.ip member)

variable {rest : RestApi} {config : HealthCheckConfig} {health after : HealthState}
variable {resolved : List (ListedMember × Option SocketAddr)}

theorem reflects_frame (same : listings after = listings health)
    (reflects : Reflects rest resolved health) :
    Reflects rest resolved after := by
  constructor
  · intro member addr found
    obtain ⟨entry, there, named⟩ := reflects.registered member addr found
    have place : listing entry ∈ listings after := by
      rw [same]
      exact List.mem_map_of_mem there
    obtain ⟨kept, there', equal⟩ := List.mem_map.mp place
    exact ⟨kept, there', (congrArg Prod.fst equal).trans named⟩
  · rw [same]
    exact reflects.listed

theorem scheme_probeUrl (rest : RestApi) (ip : Str) (member : ListedMember) :
    scheme rest.https <+: probeUrl rest ip member := by
  have base (host : Str) : scheme rest.https <+: restBaseUrl rest host := by
    rw [restBaseUrl, List.append_assoc]
    exact List.prefix_append _ _
  unfold probeUrl
  split
  · unfold apiUrlFromConnUrl
    cases parsePgHostPort member.connUrl with
    | none => exact base ip
    | some hostPort => exact base hostPort.1
  · exact List.prefix_append _ _

theorem probeUrl_filled (rest : RestApi) (ip : Str) (member : ListedMember) :
    probeUrl rest ip member ≠ [] := by
  intro empty
  have start := scheme_probeUrl rest ip member
  rw [empty, List.prefix_nil, scheme] at start
  split at start <;> simp at start

/-- A backend that stays in the health state is one of the call, or is left as it was by it. -/
theorem foldl_listing (backends : List PgBackend) (health : HealthState) :
    ∀ entry ∈ (backends.foldl HealthState.register health).backends.entries,
      (∃ backend ∈ backends, listing entry = (backend.name, backend.addr, backend.apiUrl)) ∨
        (entry ∈ health.backends.entries ∧
          ∀ backend ∈ backends, backend.apiUrl ≠ [] → backend.name ≠ entry.name) := by
  induction backends generalizing health with
  | nil =>
      intro entry there
      exact .inr ⟨there, by simp⟩
  | cons backend others ih =>
      intro entry there
      rcases ih (health.register backend) entry there
        with ⟨other, inOthers, same⟩ | ⟨before, free⟩
      · exact .inl ⟨other, List.mem_cons_of_mem _ inOthers, same⟩
      -- the first backend of the call, where no later one has the name
      have apart (old : BackendHealth) (keeps : old.name ≠ backend.name)
          (name : entry.name = old.name) :
          ∀ other ∈ backend :: others, other.apiUrl ≠ [] → other.name ≠ entry.name := by
        intro other inCall url
        rcases List.mem_cons.mp inCall with rfl | inOthers
        · exact fun named => keeps (name.symm.trans named.symm)
        · exact free other inOthers url
      rcases register_spec health backend
        with ⟨noUrl, same⟩ | ⟨_, _, refreshed⟩ | ⟨_, absent, inserted⟩
      · rw [same] at before
        refine .inr ⟨before, ?_⟩
        intro other inCall url
        rcases List.mem_cons.mp inCall with rfl | inOthers
        · exact absurd noUrl url
        · exact free other inOthers url
      · rw [refreshed] at before
        obtain ⟨old, inHealth, rfl⟩ := List.mem_map.mp before
        by_cases own : old.name = backend.name
        · refine .inl ⟨backend, List.mem_cons_self, ?_⟩
          simp [listing, KeyedTable.adjustEntry, own, BackendHealth.refresh]
        · have kept : KeyedTable.adjustEntry BackendHealth.name backend.name
              (BackendHealth.refresh backend) old =
              old := if_neg own
          rw [kept] at apart ⊢
          exact .inr ⟨inHealth, apart old own rfl⟩
      · rw [inserted] at before
        have entries :=
          KeyedTable.entries_insert (BackendHealth.new backend health.nextChannel) absent
        dsimp only at before
        rw [entries] at before
        rcases List.mem_append.mp before with old | last
        · exact .inr ⟨old, apart entry (KeyedTable.get?_none.mp absent entry old) rfl⟩
        · cases List.mem_singleton.mp last
          exact .inl ⟨backend, List.mem_cons_self, rfl⟩

theorem registerAll_reflects (resolved : List (ListedMember × Option SocketAddr))
    (health : HealthState) :
    Reflects rest resolved (health.registerAll (backendsOf rest resolved)) := by
  have listedOf {member : ListedMember} {addr : SocketAddr}
      (found : (member, some addr) ∈ resolved) :
      backendOf rest member addr ∈ backendsOf rest resolved :=
    List.mem_filterMap.mpr ⟨_, found, rfl⟩
  constructor
  · intro member addr found
    have inList := listedOf found
    apply registerAll_registers
    · simp only [listed, List.contains_iff_mem]
      exact List.mem_map_of_mem (f := PgBackend.name) inList
    · exact .inr ⟨_, inList, rfl, probeUrl_filled rest addr.ip member⟩
  · intro place there
    obtain ⟨entry, kept, rfl⟩ := List.mem_map.mp there
    obtain ⟨inFold, isListed⟩ := mem_retainListed.mp kept
    have ofCall {backend : PgBackend} (inList : backend ∈ backendsOf rest resolved) :
        ∃ member addr,
        (member, some addr) ∈ resolved ∧ backend = backendOf rest member addr := by
      obtain ⟨⟨member, found⟩, there, built⟩ := List.mem_filterMap.mp inList
      cases found with
      | none => cases built
      | some addr => exact ⟨member, addr, there, (Option.some.inj built).symm⟩
    rcases foldl_listing (backendsOf rest resolved) health entry inFold
      with ⟨backend, inList, same⟩ | ⟨_, free⟩
    · obtain ⟨member, addr, there, rfl⟩ := ofCall inList
      exact ⟨member, addr, there, same⟩
    · simp only [Proxy.listed, List.contains_iff_mem] at isListed
      obtain ⟨backend, inList, named⟩ := List.mem_map.mp isListed
      obtain ⟨member, addr, _, rfl⟩ := ofCall inList
      exact absurd named (free _ inList (probeUrl_filled rest addr.ip member))

/-! ### Steps -/

@[simp] theorem listing_countEntry (entry : BackendHealth) (result : ProbeResult) :
    listing (countEntry config entry result) = listing entry := by
  obtain ⟨mode, name, ok⟩ := result
  by_cases own : entry.name = name
  · simp only [countEntry, if_pos own]
    cases mode <;> rfl
  · simp only [countEntry, if_neg own]

variable {state next : ProxyState}

/-- A step of the proxy concerns the task only within `update_backends`. -/
theorem proxy_cases {act : Act} (stepped : Proxy.step config state act = some next)
    (own : ∀ backends, act ≠ .update backends) :
    (next.updater = state.updater ∧ listings next.health = listings state.health) ∨
      (∃ backends, state.updater = .writing backends ∧ next.updater = .registering backends) ∨
      ∃ backends, state.updater = .registering backends ∧ next.updater = .idle ∧
        next.health = state.health.registerAll backends := by
  by_cases session : act.ofSession = true
  · obtain ⟨sessions, cuts, rfl⟩ := session_step session stepped
    exact .inl ⟨rfl, rfl⟩
  cases act with
  | update backends => exact absurd rfl (own backends)
  | writeUpstream =>
      obtain ⟨backends, writing, rfl⟩ := writeUpstream_cases stepped
      exact .inr (.inl ⟨backends, writing, rfl⟩)
  | register =>
      obtain ⟨backends, registering, _, rfl⟩ := register_cases stepped
      exact .inr (.inr ⟨backends, registering, rfl, rfl⟩)
  | tick order =>
      rcases (tick_cases stepped).2.2 with ⟨_, rfl⟩ | ⟨_, rfl⟩
      · exact .inl ⟨rfl, rfl⟩
      · exact .inl ⟨rfl, rfl⟩
  | probe rw ro =>
      obtain ⟨names, _, rfl⟩ := probe_cases stepped
      exact .inl ⟨rfl, rfl⟩
  | count =>
      obtain ⟨result, left, changed, _, rfl⟩ := count_cases stepped
      obtain ⟨counted, sessions, frame, _⟩ := countResult_frame config state result
      refine .inl ⟨?_, ?_⟩
      · rw [frame]
      · have entries := countResult_entries config state result
        change List.map listing _ = List.map listing _
        dsimp only
        rw [entries, List.map_map]
        exact List.map_congr_left fun entry _ => listing_countEntry entry result
  | finish =>
      rcases finish_cases stepped with ⟨_, rfl⟩ | ⟨_, rfl⟩
      · exact .inl ⟨rfl, rfl⟩
      · exact .inl ⟨rfl, rfl⟩
  | rebuild order =>
      obtain ⟨_, _, rfl⟩ := rebuild_cases stepped
      exact .inl ⟨rfl, rfl⟩
  | connect | permit | connected | ended | monitor => exact absurd rfl session

/-! ### Runs -/

/-- The proxy has what the look-ups gave, or is in the course of taking it. -/
def Handed (rest : RestApi) (node : Node) : Prop :=
  match node.proxy.updater with
  | .idle => Reflects rest node.resolved node.proxy.health
  | .writing backends | .registering backends => backends = backendsOf rest node.resolved

/-- Where the task is with the list it took. -/
def Doing (rest : RestApi) (node : Node) : Prop :=
  match node.task with
  | .waiting | .ended =>
      node.proxy.updater = .idle ∧ Handed rest node ∧ node.members = node.resolved.map Prod.fst
  | .resolving left backends => node.proxy.updater = .idle ∧
      node.members = node.resolved.map Prod.fst ++ left ∧ backends = backendsOf rest node.resolved
  | .updating => Handed rest node ∧ node.members = node.resolved.map Prod.fst

structure Inv (rest : RestApi) (node : Node) : Prop where
  newest : node.seen = node.channel.version → node.members = node.channel.value
  seen : node.seen ≤ node.channel.version
  doing : Doing rest node

theorem inv_new : Inv rest .new := by
  constructor
  · exact fun _ => rfl
  · exact Nat.le_refl _
  · refine ⟨rfl, ⟨?_, ?_⟩, rfl⟩
    · intro member addr found
      cases found
    · intro place there
      cases there

variable {node later : Node}

theorem inv_wake (inv : Inv rest node) (woke : node.wake = some later) : Inv rest later := by
  have doing := inv.doing
  unfold Node.wake at woke
  split at woke
  · rename_i waiting
    simp only [Doing, waiting] at doing
    split at woke
    · cases woke
    · cases woke
      exact ⟨inv.newest, inv.seen, doing⟩
    · rename_i seen changed
      have present := changed_seen changed
      cases woke
      refine ⟨fun _ => rfl, Nat.le_of_eq present, ?_⟩
      exact ⟨doing.1, rfl, rfl⟩
  · cases woke

theorem takeResolved_backends (member : ListedMember) (warned : List Str)
    (backends : List PgBackend)
    (found : Option SocketAddr) : (takeResolved rest member warned backends found).2 =
      backends ++ backendsOf rest [(member, found)] := by
  cases found with
  | none => simp [takeResolved, backendsOf]
  | some addr => rfl

theorem inv_resolve {addr : Option SocketAddr} (inv : Inv rest node)
    (stepped : node.resolve rest addr = some later) : Inv rest later := by
  have doing := inv.doing
  unfold Node.resolve at stepped
  split at stepped
  · rename_i member left backends resolving
    simp only [Doing, resolving] at doing
    obtain ⟨idle, members, built⟩ := doing
    cases stepped
    refine ⟨inv.newest, inv.seen, idle, ?_, ?_⟩
    · simp [members]
    · rw [takeResolved_backends, built, backendsOf, backendsOf, backendsOf, List.filterMap_append]
  · cases stepped

theorem handed_frame (same : later.proxy.updater = node.proxy.updater)
    (listed : listings later.proxy.health = listings node.proxy.health)
    (resolved : later.resolved = node.resolved) (handed : Handed rest node) :
    Handed rest later := by
  unfold Handed at handed ⊢
  rw [same, resolved]
  split
  · rename_i idle
    rw [idle] at handed
    exact reflects_frame listed handed
  · rename_i backends writing
    rw [writing] at handed
    exact handed
  · rename_i backends registering
    rw [registering] at handed
    exact handed

theorem doing_frame {proxy : ProxyState} (same : proxy.updater = node.proxy.updater)
    (listed : listings proxy.health = listings node.proxy.health) (doing : Doing rest node) :
    Doing rest { node with proxy := proxy } := by
  have hands (handed : Handed rest node) : Handed rest { node with proxy := proxy } :=
    handed_frame same listed rfl handed
  unfold Doing at doing ⊢
  cases task : node.task with
  | waiting =>
      rw [task] at doing
      exact ⟨same.trans doing.1, hands doing.2.1, doing.2.2⟩
  | ended =>
      rw [task] at doing
      exact ⟨same.trans doing.1, hands doing.2.1, doing.2.2⟩
  | resolving left backends =>
      rw [task] at doing
      exact ⟨same.trans doing.1, doing.2⟩
  | updating =>
      rw [task] at doing
      exact ⟨hands doing.1, doing.2⟩

/-- Between two calls of `update_backends` the updater is idle. -/
theorem updating_of_busy (doing : Doing rest node) (busy : node.proxy.updater ≠ .idle) :
    node.task = .updating ∧ Handed rest node ∧ node.members = node.resolved.map Prod.fst := by
  unfold Doing at doing
  cases task : node.task with
  | waiting =>
      rw [task] at doing
      exact absurd doing.1 busy
  | ended =>
      rw [task] at doing
      exact absurd doing.1 busy
  | resolving left backends =>
      rw [task] at doing
      exact absurd doing.1 busy
  | updating =>
      rw [task] at doing
      exact ⟨rfl, doing⟩

theorem proxyStep_cases {act : Act} (stepped : node.proxyStep config act = some later) :
    ∃ proxy, Proxy.step config node.proxy act = some proxy ∧
      (∀ backends, act ≠ .update backends) ∧
      later = { node with proxy := proxy } := by
  unfold Node.proxyStep at stepped
  split at stepped
  · cases stepped
  · rename_i other
    obtain ⟨proxy, moved, rfl⟩ := Option.map_eq_some_iff.mp stepped
    exact ⟨proxy, moved, other, rfl⟩

theorem inv_proxy {act : Act} (inv : Inv rest node)
    (stepped : node.proxyStep config act = some later) :
    Inv rest later := by
  obtain ⟨proxy, moved, own, rfl⟩ := proxyStep_cases stepped
  refine ⟨inv.newest, inv.seen, ?_⟩
  rcases proxy_cases moved own with ⟨same, listed⟩ | ⟨backends, writing, registering⟩ |
    ⟨backends, registering, idle, registered⟩
  · exact doing_frame same listed inv.doing
  · obtain ⟨task, handed, members⟩ := updating_of_busy inv.doing (by simp [writing])
    simp only [Handed, writing] at handed
    simp only [Doing, task, Handed, registering]
    exact ⟨handed, members⟩
  · obtain ⟨task, handed, members⟩ := updating_of_busy inv.doing (by simp [registering])
    simp only [Handed, registering] at handed
    simp only [Doing, task, Handed, idle, registered]
    rw [handed]
    exact ⟨registerAll_reflects _ _, members⟩

theorem inv_update (inv : Inv rest node) (stepped : node.update = some later) : Inv rest later := by
  have doing := inv.doing
  unfold Node.update at stepped
  split at stepped
  · rename_i backends resolving
    simp only [Doing, resolving, List.append_nil] at doing
    obtain ⟨proxy, moved, rfl⟩ := Option.map_eq_some_iff.mp stepped
    refine ⟨inv.newest, inv.seen, ?_⟩
    rcases (update_cases moved).2.2 with ⟨_, rfl⟩ | ⟨_, rfl⟩
    · exact ⟨doing.2.2, doing.2.1⟩
    · exact ⟨doing.2.2, doing.2.1⟩
  · cases stepped

theorem inv_updated (inv : Inv rest node) (stepped : node.updated = some later) :
    Inv rest later := by
  have doing := inv.doing
  unfold Node.updated at stepped
  split at stepped
  · rename_i updating idle
    simp only [Doing, updating] at doing
    cases stepped
    exact ⟨inv.newest, inv.seen, idle, doing⟩
  · cases stepped

theorem inv_step {act : NodeAct} (inv : Inv rest node)
    (stepped : step rest config node act = some later) :
    Inv rest later := by
  cases act with
  | publish members =>
      simp only [step] at stepped
      split at stepped
      · cases stepped
      · cases stepped
        have seen := inv.seen
        refine ⟨?_, ?_, inv.doing⟩
        · intro same
          simp only [Channel.send, if_true] at same
          omega
        · simp only [Channel.send, if_true]
          omega
  | dropSender =>
      cases stepped
      exact ⟨inv.newest, inv.seen, inv.doing⟩
  | wake => exact inv_wake inv stepped
  | resolve addr => exact inv_resolve inv stepped
  | update => exact inv_update inv stepped
  | updated => exact inv_updated inv stepped
  | proxy act => exact inv_proxy inv stepped

/-- When the task waits and has seen all that was published, the registered backends are those
members of the newest list for whom a look-up gave an address, each at such an address and
probed at its own URL with this node's scheme. -/
theorem refreshed_newest (path : Reaches (step rest config) anyAct .new node)
    (waits : node.task = .waiting)
    (current : node.channel.changed node.seen = none) :
    node.resolved.map Prod.fst = node.channel.value ∧
      (∀ name, Registered node.proxy.health name ↔
        ∃ member addr, (member, some addr) ∈ node.resolved ∧ member.name = name) ∧
      ∀ entry ∈ node.proxy.health.backends.entries,
        scheme rest.https <+: entry.apiUrl ∧
          ∃ member addr, (member, some addr) ∈ node.resolved ∧ entry.name = member.name ∧
            entry.addr = addr.text ∧ entry.apiUrl = probeUrl rest addr.ip member := by
  have inv : Inv rest node := reaches_invariant (Inv rest) inv_new
    (fun _ _ _ before _ stepped => inv_step before stepped) path
  have doing := inv.doing
  simp only [Doing, waits] at doing
  obtain ⟨idle, handed, members⟩ := doing
  simp only [Handed, idle] at handed
  have entryOf {entry : BackendHealth} (there : entry ∈ node.proxy.health.backends.entries) :
      ∃ member addr, (member, some addr) ∈ node.resolved ∧ entry.name = member.name ∧
        entry.addr = addr.text ∧ entry.apiUrl = probeUrl rest addr.ip member := by
    obtain ⟨member, addr, found, same⟩ := handed.listed _ (List.mem_map_of_mem there)
    simp only [listing, Prod.mk.injEq] at same
    exact ⟨member, addr, found, same⟩
  refine ⟨?_, ?_, ?_⟩
  · rw [← members]
    exact inv.newest (changed_waits.mp current).1.symm
  · intro name
    constructor
    · rintro ⟨entry, there, rfl⟩
      obtain ⟨member, addr, found, named, _⟩ := entryOf there
      exact ⟨member, addr, found, named.symm⟩
    · rintro ⟨member, addr, found, rfl⟩
      exact handed.registered member addr found
  · intro entry there
    obtain ⟨member, addr, found, named, text, url⟩ := entryOf there
    refine ⟨?_, member, addr, found, named, text, url⟩
    rw [url]
    exact scheme_probeUrl rest addr.ip member

/-- The members of a cluster of two, of which one has no address. -/
def memberA : ListedMember := ⟨['a'], "host=a port=5432".toList, [], .primary, .running⟩

def memberB : ListedMember :=
  ⟨['b'], "host=b port=5432".toList, "http://b:8008".toList, .replica, .running⟩

def httpsApi : RestApi := ⟨8008, true⟩

/-- A list that is published while an older one is looked up is taken next. -/
def refreshes : List NodeAct :=
  [.publish [memberA], .wake, .publish [memberA, memberB], .resolve none, .update,
    .proxy .writeUpstream,
    .proxy .register, .updated, .wake, .resolve none,
      .resolve (some ⟨"10.0.0.2:5432".toList, "10.0.0.2".toList⟩),
    .update, .proxy .writeUpstream, .proxy .register, .updated]

def restsWith (node : Node) : Bool :=
  (match node.task with
    | .waiting => true
    | _ =>
        false) && (node.channel.changed node.seen).isNone &&
          node.channel.value == [memberA, memberB]

theorem refreshed_newest_second :
    ∃ node, Reaches (step httpsApi .default) anyAct .new node ∧
      node.resolved.map Prod.fst = [memberA, memberB] ∧
      ∀ name, Registered node.proxy.health name ↔
        ∃ member addr, (member, some addr) ∈ node.resolved ∧ member.name = name := by
  have played : (play (step httpsApi .default) anyAct .new refreshes).map restsWith =
      some true := by
    decide +kernel
  obtain ⟨node, path, rests⟩ := play_exhibits played
  simp only [restsWith, Bool.and_eq_true, Option.isNone_iff_eq_none, beq_iff_eq] at rests
  obtain ⟨⟨waits, current⟩, newest⟩ := rests
  have waiting : node.task = .waiting := by
    cases task : node.task with
    | waiting => rfl
    | resolving => simp [task] at waits
    | updating => simp [task] at waits
    | ended => simp [task] at waits
  have refreshed := refreshed_newest path waiting current
  exact ⟨node, path, refreshed.1.trans newest, refreshed.2.1⟩

end PgHa.ProxyRefresh
