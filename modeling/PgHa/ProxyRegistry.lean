import PgHa.ProxySteps

/-!
What a call of `update_backends` does to the health state: an entry that stays keeps its
counts and its channel, a new one starts afresh, and the channel of a dropped one closes.
-/

namespace PgHa.Proxy

open KeyedTable RiseFall Text Watch

/-- The same backend, perhaps at another address. -/
structure Keeps (old new : BackendHealth) : Prop where
  name : new.name = old.name
  rw : new.rw = old.rw
  ro : new.ro = old.ro
  channel : new.shutdownTx = old.shutdownTx

theorem keeps_refl (backend : BackendHealth) : Keeps backend backend := ⟨rfl, rfl, rfl, rfl⟩

theorem keeps_trans {first second third : BackendHealth} (keeps : Keeps first second)
    (keeps' : Keeps second third) : Keeps first third :=
  ⟨keeps'.name.trans keeps.name, keeps'.rw.trans keeps.rw, keeps'.ro.trans keeps.ro,
    keeps'.channel.trans keeps.channel⟩

/-- No mark is set, and the channel is one of those from `first` to before `last`. -/
structure IsNew (first last : Nat) (backend : BackendHealth) : Prop where
  rw : backend.rw = .fresh
  ro : backend.ro = .fresh
  lower : first ≤ backend.shutdownTx
  upper : backend.shutdownTx < last

/-- Backends are added, and none is dropped. -/
structure Grows (before after : HealthState) : Prop where
  next : before.nextChannel ≤ after.nextChannel
  entries : ∀ backend ∈ after.backends.entries,
    (∃ old ∈ before.backends.entries, Keeps old backend) ∨
      IsNew before.nextChannel after.nextChannel backend
  kept : ∀ old ∈ before.backends.entries, ∃ backend ∈ after.backends.entries,
    Keeps old backend
  channels : ∀ channel < before.nextChannel, after.channels channel = before.channels channel

/-- Each registered backend has an open channel of its own. -/
structure WellFormed (health : HealthState) : Prop where
  bound : ∀ backend ∈ health.backends.entries, backend.shutdownTx < health.nextChannel
  own : ∀ backend ∈ health.backends.entries, ∀ other ∈ health.backends.entries,
    backend.shutdownTx = other.shutdownTx → backend.name = other.name
  opened : ∀ backend ∈ health.backends.entries,
    (health.channels backend.shutdownTx).closed = false

def Registered (health : HealthState) (name : Str) : Prop :=
  ∃ backend ∈ health.backends.entries, backend.name = name

variable {health : HealthState}

theorem registered_iff {name : Str} : Registered health name ↔
    health.backends.get? name ≠ none := by
  rw [ne_eq, get?_none]
  simp [Registered]

theorem grows_refl (health : HealthState) : Grows health health where
  next := Nat.le_refl _
  entries backend member := .inl ⟨backend, member, keeps_refl backend⟩
  kept backend member := ⟨backend, member, keeps_refl backend⟩
  channels _ _ := rfl

theorem grows_trans {first second third : HealthState} (grows : Grows first second)
    (grows' : Grows second third) : Grows first third where
  next := Nat.le_trans grows.next grows'.next
  entries := by
    intro backend member
    rcases grows'.entries backend member with ⟨middle, member', keeps'⟩ | fresh
    · rcases grows.entries middle member' with ⟨old, member'', keeps⟩ | fresh
      · exact .inl ⟨old, member'', keeps_trans keeps keeps'⟩
      · right
        constructor
        · exact keeps'.rw.trans fresh.rw
        · exact keeps'.ro.trans fresh.ro
        · rw [keeps'.channel]
          exact fresh.lower
        · rw [keeps'.channel]
          exact Nat.lt_of_lt_of_le fresh.upper grows'.next
    · exact .inr ⟨fresh.rw, fresh.ro, Nat.le_trans grows.next fresh.lower, fresh.upper⟩
  kept := by
    intro old member
    obtain ⟨middle, member', keeps⟩ := grows.kept old member
    obtain ⟨backend, member'', keeps'⟩ := grows'.kept middle member'
    exact ⟨backend, member'', keeps_trans keeps keeps'⟩
  channels channel below := (grows'.channels channel (Nat.lt_of_lt_of_le below grows.next)).trans
    (grows.channels channel below)

theorem grows_registered {after : HealthState} (grows : Grows health after) {name : Str}
    (registered : Registered health name) : Registered after name := by
  obtain ⟨old, member, named⟩ := registered
  obtain ⟨backend, member', keeps⟩ := grows.kept old member
  exact ⟨backend, member', keeps.name.trans named⟩

/-! ### One backend of the call -/

theorem register_spec (health : HealthState) (backend : PgBackend) :
    (backend.apiUrl = [] ∧ health.register backend = health) ∨
      (backend.apiUrl ≠ [] ∧ Registered health backend.name ∧
        health.register backend =
          { health with
            backends := health.backends.adjust backend.name (BackendHealth.refresh backend) fun _ =>
              rfl }) ∨
      (backend.apiUrl ≠ [] ∧ health.backends.get? backend.name = none ∧
        health.register backend =
          { backends := health.backends.insert (BackendHealth.new backend health.nextChannel)
            channels := Function.update health.channels health.nextChannel (.new false)
            nextChannel := health.nextChannel + 1 }) := by
  unfold HealthState.register
  by_cases noUrl : backend.apiUrl = []
  · exact .inl ⟨noUrl, if_pos noUrl⟩
  · rw [if_neg noUrl]
    cases found : health.backends.get? backend.name with
    | some existing =>
        have registered : Registered health backend.name := ⟨existing, mem_of_get? found⟩
        exact .inr (.inl ⟨noUrl, registered, rfl⟩)
    | none => exact .inr (.inr ⟨noUrl, rfl, rfl⟩)

theorem keeps_refresh (backend : PgBackend) (existing : BackendHealth) :
    Keeps existing (adjustEntry BackendHealth.name backend.name (BackendHealth.refresh backend)
      existing) := by
  unfold adjustEntry
  split
  · exact ⟨rfl, rfl, rfl, rfl⟩
  · exact keeps_refl existing

theorem grows_register (health : HealthState) (backend : PgBackend) :
    Grows health (health.register backend) := by
  rcases register_spec health backend
    with ⟨_, same⟩ | ⟨_, _, refreshed⟩ | ⟨_, absent, inserted⟩
  · rw [same]
    exact grows_refl health
  · rw [refreshed]
    constructor
    · exact Nat.le_refl _
    · intro new member
      obtain ⟨old, member', same⟩ := List.mem_map.mp member
      exact .inl ⟨old, member', same ▸ keeps_refresh backend old⟩
    · exact fun old member => ⟨_, List.mem_map_of_mem member, keeps_refresh backend old⟩
    · exact fun _ _ => rfl
  · have entries := entries_insert (BackendHealth.new backend health.nextChannel) absent
    rw [inserted]
    constructor
    · exact Nat.le_succ _
    · intro new member
      rw [entries] at member
      rcases List.mem_append.mp member with old | last
      · exact .inl ⟨new, old, keeps_refl new⟩
      · cases List.mem_singleton.mp last
        exact .inr ⟨rfl, rfl, Nat.le_refl _, Nat.lt_succ_self _⟩
    · intro old member
      refine ⟨old, ?_, keeps_refl old⟩
      rw [entries]
      exact List.mem_append_left _ member
    · intro channel below
      exact Function.update_of_ne (Nat.ne_of_lt below) _ _

theorem wellFormed_register (backend : PgBackend) (wellFormed : WellFormed health) :
    WellFormed (health.register backend) := by
  rcases register_spec health backend
    with ⟨_, same⟩ | ⟨_, _, refreshed⟩ | ⟨_, absent, inserted⟩
  · rw [same]
    exact wellFormed
  · rw [refreshed]
    constructor
    · intro new member
      obtain ⟨old, member', same⟩ := List.mem_map.mp member
      have keeps := keeps_refresh backend old
      rw [← same, keeps.channel]
      exact wellFormed.bound old member'
    · intro new member other memberOther
      obtain ⟨old, member', same⟩ := List.mem_map.mp member
      obtain ⟨oldOther, memberOther', sameOther⟩ := List.mem_map.mp memberOther
      rw [← same, ← sameOther, (keeps_refresh backend old).channel,
        (keeps_refresh backend oldOther).channel,
        (keeps_refresh backend old).name, (keeps_refresh backend oldOther).name]
      exact wellFormed.own old member' oldOther memberOther'
    · intro new member
      obtain ⟨old, member', same⟩ := List.mem_map.mp member
      rw [← same, (keeps_refresh backend old).channel]
      exact wellFormed.opened old member'
  · have entries := entries_insert (BackendHealth.new backend health.nextChannel) absent
    rw [inserted]
    constructor
    · intro new member
      rw [entries] at member
      rcases List.mem_append.mp member with old | last
      · exact Nat.lt_succ_of_lt (wellFormed.bound new old)
      · cases List.mem_singleton.mp last
        exact Nat.lt_succ_self _
    · intro new member other memberOther same
      rw [entries] at member memberOther
      rcases List.mem_append.mp member with old | last
      · rcases List.mem_append.mp memberOther with oldOther | lastOther
        · exact wellFormed.own new old other oldOther same
        · cases List.mem_singleton.mp lastOther
          exact absurd same (Nat.ne_of_lt (wellFormed.bound new old))
      · cases List.mem_singleton.mp last
        rcases List.mem_append.mp memberOther with oldOther | lastOther
        · exact absurd same.symm (Nat.ne_of_lt (wellFormed.bound other oldOther))
        · cases List.mem_singleton.mp lastOther
          rfl
    · intro new member
      rw [entries] at member
      rcases List.mem_append.mp member with old | last
      · dsimp only
        rw [Function.update_of_ne (Nat.ne_of_lt (wellFormed.bound new old))]
        exact wellFormed.opened new old
      · cases List.mem_singleton.mp last
        simp [BackendHealth.new, Channel.new]

/-! ### The call -/

theorem grows_foldl (backends : List PgBackend) (health : HealthState) :
    Grows health (backends.foldl HealthState.register health) := by
  induction backends generalizing health with
  | nil => exact grows_refl health
  | cons backend rest ih => exact grows_trans (grows_register health backend) (ih _)

theorem wellFormed_foldl (backends : List PgBackend) (wellFormed : WellFormed health) :
    WellFormed (backends.foldl HealthState.register health) := by
  induction backends generalizing health with
  | nil => exact wellFormed
  | cons backend rest ih => exact ih (wellFormed_register backend wellFormed)

theorem mem_retainListed {backends : List PgBackend} {backend : BackendHealth} :
    backend ∈ (health.retainListed backends).backends.entries ↔
      backend ∈ health.backends.entries ∧ listed backends backend.name = true :=
  mem_retain

theorem registerAll_entries {backends : List PgBackend} {backend : BackendHealth}
    (member : backend ∈ (health.registerAll backends).backends.entries) :
    (∃ old ∈ health.backends.entries, Keeps old backend) ∨
      IsNew health.nextChannel (health.registerAll backends).nextChannel backend :=
  (grows_foldl backends health).entries backend (mem_retainListed.mp member).1

/-- A channel that was there stays as it is, unless the backend that owns it is dropped. -/
theorem registerAll_channel (backends : List PgBackend) {channel : Nat}
    (below : channel < health.nextChannel) :
    (health.registerAll backends).channels channel = health.channels channel ∨
      ∃ backend ∈ health.backends.entries, backend.shutdownTx = channel ∧
        listed backends backend.name = false ∧
        (health.registerAll backends).channels channel = (health.channels channel).dropSender := by
  have grows := grows_foldl backends health
  have same := grows.channels channel below
  unfold HealthState.registerAll HealthState.retainListed
  dsimp only
  rw [same]
  split
  · rename_i dropped
    obtain ⟨backend, member, owns⟩ := List.any_eq_true.mp dropped
    simp only [Bool.and_eq_true, decide_eq_true_eq, Bool.not_eq_true'] at owns
    right
    rcases grows.entries backend member with ⟨old, member', keeps⟩ | fresh
    · exact ⟨old, member', keeps.channel.symm.trans owns.1, keeps.name ▸ owns.2, rfl⟩
    · exact absurd (owns.1 ▸ fresh.lower) (Nat.not_le.mpr below)
  · exact .inl rfl

theorem wellFormed_registerAll (backends : List PgBackend) (wellFormed : WellFormed health) :
    WellFormed (health.registerAll backends) := by
  have before := wellFormed_foldl backends wellFormed
  constructor
  · exact fun backend member => before.bound backend (mem_retainListed.mp member).1
  · exact fun backend member other member' =>
      before.own backend (mem_retainListed.mp member).1 other (mem_retainListed.mp member').1
  · intro backend member
    have there := mem_retainListed.mp member
    have kept : ¬ ((backends.foldl HealthState.register health).backends.entries.any fun other =>
        other.shutdownTx = backend.shutdownTx && !listed backends other.name) = true := by
      intro dropped
      obtain ⟨other, member', owns⟩ := List.any_eq_true.mp dropped
      simp only [Bool.and_eq_true, decide_eq_true_eq, Bool.not_eq_true'] at owns
      have name := before.own other member' backend there.1 owns.1
      rw [name, there.2] at owns
      cases owns.2
    unfold HealthState.registerAll HealthState.retainListed
    dsimp only
    rw [if_neg kept]
    exact before.opened backend there.1

/-! ### Names and addresses -/

theorem foldl_registers {backends : List PgBackend} {backend : PgBackend}
    (member : backend ∈ backends)
    (url : backend.apiUrl ≠ []) :
    Registered (backends.foldl HealthState.register health) backend.name := by
  induction backends generalizing health with
  | nil => cases member
  | cons head rest ih =>
      rcases List.mem_cons.mp member with same | later
      · subst same
        apply grows_registered (grows_foldl rest _)
        rcases register_spec health backend
          with ⟨noUrl, _⟩ | ⟨_, registered, _⟩ | ⟨_, absent, inserted⟩
        · exact absurd noUrl url
        · exact grows_registered (grows_register health backend) registered
        · rw [inserted]
          have entries := entries_insert (BackendHealth.new backend health.nextChannel) absent
          exact ⟨BackendHealth.new backend health.nextChannel, by simp [entries], rfl⟩
      · exact ih later

/-- A listed name that was registered, or comes with a REST API URL. -/
theorem registerAll_registers {backends : List PgBackend} {name : Str}
    (isListed : listed backends name = true)
    (known : Registered health name ∨ ∃ backend ∈ backends, backend.name = name ∧
      backend.apiUrl ≠ []) :
    Registered (health.registerAll backends) name := by
  have registered : Registered (backends.foldl HealthState.register health) name := by
    rcases known with before | ⟨backend, member, named, url⟩
    · exact grows_registered (grows_foldl backends health) before
    · exact named ▸ foldl_registers member url
  obtain ⟨backend, member, named⟩ := registered
  exact ⟨backend, mem_retainListed.mpr ⟨member, named ▸ isListed⟩, named⟩

def listsUrl (name : Str) (backend : PgBackend) : Bool :=
  backend.apiUrl ≠ [] && backend.name = name

/-- The address under which a call lists a name, the last one where it does so twice. -/
def lastAddr (backends : List PgBackend) (name : Str) : Option Str :=
  (backends.filter (listsUrl name)).getLast?.map PgBackend.addr

def refreshBy (existing : BackendHealth) (backend : PgBackend) : BackendHealth :=
  if backend.apiUrl = [] then existing
  else adjustEntry BackendHealth.name backend.name (BackendHealth.refresh backend) existing

theorem keeps_refreshBy (existing : BackendHealth) (backend : PgBackend) :
    Keeps existing (refreshBy existing backend) := by
  unfold refreshBy
  split
  · exact keeps_refl existing
  · exact keeps_refresh backend existing

theorem keeps_refreshAll (backends : List PgBackend) (existing : BackendHealth) :
    Keeps existing (backends.foldl refreshBy existing) := by
  induction backends generalizing existing with
  | nil => exact keeps_refl existing
  | cons backend rest ih => exact keeps_trans (keeps_refreshBy existing backend) (ih _)

theorem addr_refreshAll (backends : List PgBackend) (existing : BackendHealth) :
    (backends.foldl refreshBy existing).addr =
      (lastAddr backends existing.name).getD existing.addr := by
  induction backends generalizing existing with
  | nil => rfl
  | cons backend rest ih =>
      have keeps := keeps_refreshBy existing backend
      rw [List.foldl_cons, ih, keeps.name]
      by_cases refreshes : listsUrl existing.name backend = true
      · have addr : (refreshBy existing backend).addr = backend.addr := by
          simp only [listsUrl, ne_eq, decide_not, Bool.and_eq_true, Bool.not_eq_true',
            decide_eq_false_iff_not,
            decide_eq_true_eq] at refreshes
          simp [refreshBy, adjustEntry, refreshes, BackendHealth.refresh]
        rw [addr]
        unfold lastAddr
        rw [List.filter_cons_of_pos refreshes, List.getLast?_cons]
        cases (rest.filter (listsUrl existing.name)).getLast? with
        | none => rfl
        | some last => rfl
      · have addr : (refreshBy existing backend).addr = existing.addr := by
          unfold refreshBy adjustEntry
          split
          · rfl
          · split
            · rename_i url named
              simp [listsUrl, url, named] at refreshes
            · rfl
        rw [addr]
        unfold lastAddr
        rw [List.filter_cons_of_neg refreshes]

/-- A call that lists no new backend with a REST API URL refreshes the ones that are registered. -/
theorem foldl_refreshes (backends : List PgBackend)
    (known : ∀ backend ∈ backends, backend.apiUrl ≠ [] → Registered health backend.name) :
    (backends.foldl HealthState.register health).backends.entries =
      health.backends.entries.map (backends.foldl refreshBy) := by
  induction backends generalizing health with
  | nil => simp
  | cons backend rest ih =>
      have head : (health.register backend).backends.entries =
          health.backends.entries.map (refreshBy · backend) := by
        rcases register_spec health backend
          with ⟨noUrl, same⟩ | ⟨url, _, refreshed⟩ | ⟨url, absent, _⟩
        · simp [same, refreshBy, noUrl]
        · rw [refreshed]
          simp [Keyed.adjust, refreshBy, url]
        · exact absurd absent (registered_iff.mp (known backend List.mem_cons_self url))
      have still : ∀ backend' ∈ rest, backend'.apiUrl ≠ [] →
          Registered (health.register backend) backend'.name :=
        fun backend' member url => grows_registered (grows_register health backend)
          (known backend' (List.mem_cons_of_mem backend member) url)
      rw [List.foldl_cons, ih still, head, List.map_map]
      rfl

end PgHa.Proxy
