import PgHa.Proxy
import PgHa.RoundRobin

/-!
The listener of a mode: it numbers its connections, and their handlers select a backend by
the number, in any order. While the replicas stay the same, each of them gets its share of
the connections for reading.
-/

namespace PgHa.Proxy

open RoundRobin Text Transition

/-- The counter of `run_listener`, the numbers of the connections whose handler has not selected
a backend yet, and what the others have selected. -/
structure Listener where
  proxy : ProxyState
  counter : UInt64
  accepted : List UInt64
  selected : List (Option Str)

inductive ListenerAct where
  | accept
  | handle (index : Nat)
  | other (act : Act)

def Act.connects (mode : ProxyMode) : Act → Bool
  | .connect other _ => other = mode
  | _ => false

/-- `fetch_add` returns the number before, and wraps around. -/
def Listener.accept (listener : Listener) : Listener :=
  { listener with
    counter := listener.counter + 1, accepted := listener.accepted ++ [listener.counter] }

def Listener.handle (listener : Listener) (mode : ProxyMode) (index : Nat) : Option Listener :=
  match listener.accepted[index]? with
  | none => none
  | some number =>
      (listener.proxy.connect mode number.toNat).map fun proxy =>
        { listener with
          proxy := proxy
          accepted := listener.accepted.eraseIdx index
          selected := listener.selected ++
            [(listener.proxy.upstream.select number.toNat mode).map Prod.fst] }

/-- The connections of the mode are those of its listener. -/
def listen (config : HealthCheckConfig) (mode : ProxyMode) (listener : Listener) : ListenerAct →
    Option Listener
  | .accept => some listener.accept
  | .handle index => listener.handle mode index
  | .other act =>
      if act.connects mode then none
      else (step config listener.proxy act).map fun proxy => { listener with proxy := proxy }

/-- The replicas that a handler finds. -/
def Finds (replicas : List PgBackend) (listener : Listener) : ListenerAct → Prop
  | .handle _ => listener.proxy.upstream.replicas = replicas
  | _ => True

instance (replicas : List PgBackend) (listener : Listener) : ∀ act,
    Decidable (Finds replicas listener act)
  | .accept => .isTrue trivial
  | .handle _ => inferInstanceAs (Decidable (_ = _))
  | .other _ => .isTrue trivial

variable {config : HealthCheckConfig} {mode : ProxyMode} {replicas : List PgBackend}
  {start before after : Listener}

/-! ### The numbers of a run -/

theorem handle_cases {index : Nat} (stepped : before.handle mode index = some after) :
    ∃ number proxy, before.accepted[index]? = some number ∧
      after = { before with
        proxy := proxy
        accepted := before.accepted.eraseIdx index
        selected := before.selected ++
          [(before.proxy.upstream.select number.toNat mode).map Prod.fst] } := by
  unfold Listener.handle at stepped
  split at stepped
  · cases stepped
  · rename_i number waiting
    obtain ⟨proxy, _, same⟩ := Option.map_eq_some_iff.mp stepped
    exact ⟨number, proxy, waiting, same.symm⟩

/-- Since the start `count` connections were accepted; those handled had their turn by number. -/
structure Numbered (replicas : List PgBackend) (start listener : Listener) (count : Nat)
    (handled : List UInt64) :
    Prop where
  counter : listener.counter.toNat = (start.counter.toNat + count) % 2 ^ 64
  numbers : ((handled ++ listener.accepted).map UInt64.toNat).Perm
    ((List.range' start.counter.toNat count).map (· % 2 ^ 64))
  selected : listener.selected =
    start.selected ++ handled.map fun number => pick (replicas.map PgBackend.name) number.toNat

/-- Where there are replicas the one whose turn it is. -/
theorem select_turn {upstream : UpstreamState} (number : Nat) (there : upstream.replicas ≠ []) :
    (upstream.select number .readOnly).map Prod.fst =
      pick (upstream.replicas.map PgBackend.name) number := by
  simp only [UpstreamState.select, there, if_false, pick, List.length_map, List.getElem?_map,
    Option.map_map]
  rfl

theorem numbered_step {act : ListenerAct} {count : Nat} {handled : List UInt64}
    (there : replicas ≠ [])
    (numbered : Numbered replicas start before count handled) (finds : Finds replicas before act)
    (stepped : listen config .readOnly before act = some after) :
    ∃ count handled, Numbered replicas start after count handled := by
  cases act with
  | accept =>
      cases stepped
      refine ⟨count + 1, handled, ?_, ?_, numbered.selected⟩
      · simp only [Listener.accept, UInt64.toNat_add, numbered.counter, UInt64.toNat_one]
        omega
      · simp only [Listener.accept]
        have numbers := numbered.numbers.append_right [(start.counter.toNat + count) % 2 ^ 64]
        rw [List.range'_1_concat]
        simpa only [List.map_append, List.map_singleton, List.append_assoc, numbered.counter]
          using numbers
  | handle index =>
      obtain ⟨number, proxy, waiting, same⟩ := handle_cases stepped
      subst same
      refine ⟨count, handled ++ [number], numbered.counter, ?_, ?_⟩
      · refine List.Perm.trans (List.Perm.map _ ?_) numbered.numbers
        obtain ⟨bound, found⟩ := List.getElem?_eq_some_iff.mp waiting
        rw [List.append_assoc, List.singleton_append, ← found]
        exact (List.getElem_cons_eraseIdx_perm bound).append_left handled
      · have found : before.proxy.upstream.replicas = replicas := finds
        rw [List.map_append, List.map_singleton, ← List.append_assoc, ← numbered.selected,
          select_turn number.toNat (found ▸ there), found]
  | other act =>
      simp only [listen] at stepped
      split at stepped
      · cases stepped
      · obtain ⟨proxy, _, same⟩ := Option.map_eq_some_iff.mp stepped
        subst same
        exact ⟨count, handled, numbered.counter, numbered.numbers, numbered.selected⟩

theorem numbered_reaches (there : replicas ≠ []) (none : start.accepted = [])
    (path : Reaches (listen config .readOnly) (Finds replicas) start after) :
    ∃ count handled, Numbered replicas start after count handled := by
  have initial : ∃ count handled, Numbered replicas start start count handled := by
    refine ⟨0, [], ?_, ?_, ?_⟩
    · exact (Nat.mod_eq_of_lt start.counter.toNat_lt).symm
    · simp [none]
    · simp
  exact reaches_invariant
    (fun listener => ∃ count handled, Numbered replicas start listener count handled)
    initial (fun _ _ _ ⟨_, _, numbered⟩ finds stepped =>
      numbered_step there numbered finds stepped) path

/-! ### Shares -/

/-- Between two moments at which no connection waits for its handler, and in whatever order the
handlers in between ran: every handler has selected a replica, and each replica has its share of the
connections, rounded down or up, unless the counter has wrapped around. -/
theorem replicas_share (distinct : (replicas.map PgBackend.name).Nodup) (there : replicas ≠ [])
    (none : start.accepted = []) (settled : after.accepted = [])
    (path : Reaches (listen config .readOnly) (Finds replicas) start after) :
    ∃ window : List Str, after.selected = start.selected ++ window.map Option.some ∧
      (start.counter.toNat + window.length ≤ 2 ^ 64 → ∀ replica ∈ replicas,
        window.length / replicas.length ≤ window.count replica.name ∧
          window.count replica.name ≤
            (window.length + (replicas.length - 1)) / replicas.length) := by
  obtain ⟨count, handled, numbered⟩ := numbered_reaches there none path
  have numbers := numbered.numbers
  rw [settled, List.append_nil] at numbers
  have length : handled.length = count := by simpa using numbers.length_eq
  let window := (handled.map UInt64.toNat).filterMap (pick (replicas.map PgBackend.name))
  -- every turn is some replica's
  have named : replicas.map PgBackend.name ≠ [] := by simpa using there
  have picked : ∀ numbers : List UInt64,
      numbers.map (fun number => pick (replicas.map PgBackend.name) number.toNat) =
      ((numbers.map UInt64.toNat).filterMap (pick (replicas.map PgBackend.name))).map
        Option.some := by
    intro numbers
    induction numbers with
    | nil => rfl
    | cons number rest ih =>
        obtain ⟨name, turn⟩ := pick_some named number.toNat
        simp [ih, turn]
  have size : window.length = count := by
    have same := congrArg List.length (picked handled)
    simpa [window, length] using same.symm
  refine ⟨window, by rw [numbered.selected, picked], ?_⟩
  intro unwrapped replica member
  rw [size] at unwrapped ⊢
  have exact : (List.range' start.counter.toNat count).map (· % 2 ^ 64) =
      List.range' start.counter.toNat count := by
    rw [List.map_congr_left (g := id), List.map_id]
    intro number inside
    have bound := List.mem_range'_1.mp inside
    exact Nat.mod_eq_of_lt (by omega)
  rw [exact] at numbers
  have fair := picks_fair distinct numbers (List.mem_map_of_mem (f := PgBackend.name) member)
  rwa [List.length_map] at fair

/-- Two replicas, as the first call of `update_backends` brings them. -/
def twoReplicas : List PgBackend :=
  [⟨"10.0.0.2:5432".toList, ['b'], false, true, "http://b:8008".toList⟩,
    ⟨"10.0.0.3:5432".toList, ['c'], false, true, "http://c:8008".toList⟩]

/-- Three connections, the second of which is handled first. -/
theorem replicas_share_three :
    ∃ start after, Reaches (step .default) anyAct .new start ∧
      Reaches (listen .default .readOnly) (Finds twoReplicas) ⟨start, 0, [], []⟩ after ∧
      after.proxy.sessions.length = 3 ∧
      ∃ window : List Str, after.selected = [] ++ window.map Option.some ∧
        ((0 : UInt64).toNat + window.length ≤ 2 ^ 64 → ∀ replica ∈ twoReplicas,
          window.length / 2 ≤ window.count replica.name ∧
            window.count replica.name ≤ (window.length + (2 - 1)) / 2) := by
  have played : (play (step .default) anyAct .new
      [.update twoReplicas, .writeUpstream, .register]).map
      (fun start => (play (listen .default .readOnly) (Finds twoReplicas) ⟨start, 0, [], []⟩
        [.accept, .accept, .accept, .handle 1, .handle 0, .handle 0]).any fun listener =>
          listener.accepted.isEmpty && listener.proxy.sessions.length == 3) = some true := by
    decide +kernel
  obtain ⟨start, reached, listens⟩ := play_exhibits played
  obtain ⟨after, ended, done⟩ := (Option.any_eq_true ..).mp listens
  rw [Bool.and_eq_true, List.isEmpty_iff, beq_iff_eq] at done
  have path := play_reaches ended
  exact ⟨start, after, reached, path, done.2,
    replicas_share (by decide) (by decide) rfl done.1 path⟩

end PgHa.Proxy
