import PgHa.PrimaryFenced
import PgHa.Transition

/-!
Management commands on their way from the REST API to the HA engine and back:
`send_command` of `routes/management.rs` and `Ha::process_commands`. A handler puts its
command and a reply channel of its own into the queue of the engine and waits for the
answer. Handlers, clients that go away and the engine come in any order, and the engine
may be dropped in the middle of a command, as the lease does with a cycle.
-/

namespace PgHa.CommandQueue

open Text HaState HaCycle Interruptible Transition

/-! ### The answers -/

inductive StatusCode where
  | ok
  | conflict
  | internalServerError
  | serviceUnavailable
  deriving DecidableEq

structure HttpAnswer where
  code : StatusCode
  status : Str
  message : Str
  deriving DecidableEq

def answerOf : CommandResponse → HttpAnswer
  | .accepted message => ⟨.ok, "accepted".toList, message⟩
  | .rejected message => ⟨.conflict, "rejected".toList, message⟩
  | .error message => ⟨.internalServerError, "error".toList, message⟩

def channelMissing : HttpAnswer :=
  ⟨.serviceUnavailable, "error".toList, "Command channel not available".toList⟩

def sendFailed : HttpAnswer :=
  ⟨.internalServerError, "error".toList, "Failed to send command to HA loop".toList⟩

def noResponse : HttpAnswer :=
  ⟨.internalServerError, "error".toList, "No response from HA loop".toList⟩

/-! ### The system -/

/-- Where `send_command` is; a handler is dropped with its client. -/
inductive Phase where
  | sending
  | receiving
  | answered (answer : HttpAnswer)
  | left (sent : Bool)
  deriving DecidableEq

/-- The reply channel: its sender is `held` in the queue or by the engine. -/
inductive Reply where
  | held
  | sent (response : CommandResponse)
  | dropped

structure Request where
  command : ManagementCommand
  phase : Phase
  reply : Reply

/-- `receiving` while the engine and with it `cmd_rx` exist. `entered` and `taken` are the
requests in the order in which their commands got into the queue and out of it. -/
structure World where
  cmdTx : Bool
  requests : Nat → Option Request
  queue : List Nat
  receiving : Bool
  handling : Option Nat
  ha : Ha
  entered : List Nat
  taken : List Nat

def World.start (cmdTx : Bool) (ha : Ha) : World :=
  ⟨cmdTx, fun _ => none, [], true, none, ha, [], []⟩

def World.set (world : World) (id : Nat) (request : Request) : World :=
  { world with requests := fun other => if other = id then some request else world.requests other }

/-- The queue `Ha::new` makes. -/
def capacity : Nat := 16

/-- One round of `process_commands`: the command, and its answer sent. -/
def answerCommand (command : ManagementCommand) : HaProg CommandResponse := do
  let response ← handleCommand command
  await
  pure response

inductive Act where
  | request (id : Nat) (command : ManagementCommand)
  | send (id : Nat)
  | leave (id : Nat)
  | tryRecv
  | handle (env : Env)
  /-- What the engine does between commands. -/
  | elsewhere (ha : Ha)
  | recv (id : Nat)
  | dropEngine

/-- The reply channels whose sender the engine or its queue holds lose it. -/
def World.dropEngine (world : World) : World :=
  { world with
    requests := fun id => (world.requests id).map fun request =>
      if id ∈ world.queue ∨ world.handling = some id then { request with reply := .dropped }
      else request
    queue := []
    receiving := false
    handling := none }

def World.enter (world : World) (id : Nat) : World :=
  { world with queue := world.queue ++ [id], entered := world.entered ++ [id] }

def send (world : World) (id : Nat) (request : Request) : Option World :=
  if !world.receiving then some (world.set id { request with phase := .answered sendFailed })
  else if world.queue.length < capacity then
    some ((world.enter id).set id { request with phase := .receiving })
  else none

/-- The engine is done with the command it had taken. -/
def World.finish (world : World) (ha : Ha) : World := { world with ha := ha, handling := none }

/-- The command ends with its answer, or is cut and its reply channel dropped. -/
def handle (world : World) (id : Nat) (request : Request) (env : Env) : World :=
  match answerCommand request.command env world.ha with
  | .done response after => (world.finish after).set id { request with reply := .sent response }
  | .cut after => (world.finish after).set id { request with reply := .dropped }

def step (world : World) : Act → Option World
  | .request id command =>
      match world.requests id with
      | some _ => none
      | none =>
          let phase := if world.cmdTx then .sending else .answered channelMissing
          some (world.set id ⟨command, phase, .held⟩)
  | .send id => do
      let request ← world.requests id
      if request.phase = .sending then send world id request else none
  | .leave id => do
      let request ← world.requests id
      match request.phase with
      | .sending => some (world.set id { request with phase := .left false })
      | .receiving => some (world.set id { request with phase := .left true })
      | .answered _ | .left _ => none
  | .tryRecv =>
      match world.handling, world.queue with
      | none, id :: rest =>
          some { world with queue := rest, handling := some id, taken := world.taken ++ [id] }
      | _, _ => none
  | .handle env => do
      let id ← world.handling
      let request ← world.requests id
      some (handle world id request env)
  | .elsewhere ha => if world.handling = none then some { world with ha := ha } else none
  | .recv id => do
      let request ← world.requests id
      match request.phase, request.reply with
      | .receiving, .sent response =>
          some (world.set id { request with phase := .answered (answerOf response) })
      | .receiving, .dropped => some (world.set id { request with phase := .answered noResponse })
      | _, _ => none
  | .dropEngine => some world.dropEngine

/-! ### What holds in every world -/

/-- Where an answer comes from. -/
inductive Explained (world : World) (id : Nat) (request : Request) : HttpAnswer → Prop where
  | channelMissing : id ∉ world.entered → Explained world id request channelMissing
  | sendFailed : id ∉ world.entered → Explained world id request sendFailed
  | noResponse : id ∈ world.entered → request.reply = .dropped →
      Explained world id request noResponse
  | response (response : CommandResponse) :
      request.reply = .sent response → Explained world id request (answerOf response)

/-- The command waits in the queue, or the engine is at it. -/
def Waits (world : World) (id : Nat) : Prop := id ∈ world.queue ∨ world.handling = some id

structure Served (world : World) (id : Nat) (request : Request) : Prop where
  sending : request.phase = .sending → id ∉ world.entered
  receiving : request.phase = .receiving → id ∈ world.entered
  left : request.phase = .left false → id ∉ world.entered
  answered : ∀ answer, request.phase = .answered answer → Explained world id request answer
  outside : id ∉ world.entered → request.reply = .held
  held : id ∈ world.entered → (request.reply = .held ↔ Waits world id)
  sent : ∀ response, request.reply = .sent response → id ∈ world.taken

structure Sound (world : World) : Prop where
  room : world.queue.length ≤ capacity
  once : world.entered.Nodup
  order : world.taken <+: world.entered
  whole : world.receiving = true → world.entered = world.taken ++ world.queue
  handled : ∀ id, world.handling = some id → world.receiving = true ∧ id ∈ world.taken
  closed : world.receiving = false → world.queue = []
  known : ∀ id ∈ world.entered, (world.requests id).isSome = true
  served : ∀ id request, world.requests id = some request → Served world id request

theorem sound_start (cmdTx : Bool) (ha : Ha) : Sound (World.start cmdTx ha) := by
  constructor
  · exact Nat.zero_le _
  · exact List.nodup_nil
  · exact List.prefix_refl _
  · exact fun _ => rfl
  · intro id handled
    cases handled
  · exact fun _ => rfl
  · intro id entered
    cases entered
  · intro id request found
    cases found

@[simp]
theorem requests_set (world : World) (id other : Nat) (request : Request) :
    (world.set id request).requests other = if other = id then some request
      else world.requests other :=
  rfl

theorem explained_frame {before after : World} {id : Nat} {request : Request} {answer : HttpAnswer}
    (explained : Explained before id request answer)
    (entered : id ∈ after.entered ↔ id ∈ before.entered) :
    Explained after id request answer := by
  cases explained with
  | channelMissing outside => exact .channelMissing fun within => outside (entered.mp within)
  | sendFailed outside => exact .sendFailed fun within => outside (entered.mp within)
  | noResponse within dropped => exact .noResponse (entered.mpr within) dropped
  | response response sent => exact .response response sent

/-- A request is served as before where its own command has not moved. -/
theorem served_frame {before after : World} {id : Nat} {request : Request}
    (served : Served before id request) (entered : id ∈ after.entered ↔ id ∈ before.entered)
    (taken : id ∈ before.taken → id ∈ after.taken)
    (waits : Waits after id ↔ Waits before id) :
    Served after id request := by
  constructor
  · exact fun phase within => served.sending phase (entered.mp within)
  · exact fun phase => entered.mpr (served.receiving phase)
  · exact fun phase within => served.left phase (entered.mp within)
  · exact fun answer phase => explained_frame (served.answered answer phase) entered
  · exact fun outside => served.outside fun within => outside (entered.mpr within)
  · exact fun within => (served.held (entered.mp within)).trans waits.symm
  · exact fun response sent => taken (served.sent response sent)

/-- A step that changes one request, beside what the world has become. -/
theorem sound_set {after : World} {id : Nat} {request : Request}
    (room : after.queue.length ≤ capacity) (once : after.entered.Nodup)
    (order : after.taken <+: after.entered)
    (whole : after.receiving = true → after.entered = after.taken ++ after.queue)
    (handled : ∀ id, after.handling = some id → after.receiving = true ∧ id ∈ after.taken)
    (closed : after.receiving = false → after.queue = [])
    (others : ∀ other found, other ≠ id → after.requests other = some found →
      Served after other found)
    (known : ∀ other ∈ after.entered, other ≠ id → (after.requests other).isSome = true)
    (own : Served after id request) : Sound (after.set id request) := by
  have still : ∀ {other found}, Served after other found →
      Served (after.set id request) other found :=
    fun served => served_frame served Iff.rfl (fun taken => taken) Iff.rfl
  constructor
  · exact room
  · exact once
  · exact order
  · exact whole
  · exact handled
  · exact closed
  · intro other within
    rw [requests_set]
    by_cases same : other = id
    · rw [if_pos same]
      rfl
    · rw [if_neg same]
      exact known other within same
  · intro other found present
    rw [requests_set] at present
    by_cases same : other = id
    · subst other
      rw [if_pos rfl] at present
      cases present
      exact still own
    · rw [if_neg same] at present
      exact still (others other found same present)

/-- Nothing but what a handler does on its own side. -/
theorem sound_here {world : World} (sound : Sound world) {id : Nat} {request : Request}
    (own : Served world id request) : Sound (world.set id request) :=
  sound_set sound.room sound.once sound.order sound.whole sound.handled sound.closed
    (fun other found _ present => sound.served other found present)
    (fun other within _ => sound.known other within) own

theorem sound_request {world : World} (sound : Sound world) {id : Nat} (command : ManagementCommand)
    (fresh : world.requests id = none) :
    Sound (world.set id
      ⟨command, if world.cmdTx then .sending else .answered channelMissing, .held⟩) := by
  have outside : id ∉ world.entered := by
    intro within
    have known := sound.known id within
    rw [fresh] at known
    cases known
  apply sound_here sound
  constructor
  · exact fun _ => outside
  · intro phase
    split at phase <;> cases phase
  · exact fun _ => outside
  · intro answer phase
    split at phase
    · cases phase
    · cases phase
      exact .channelMissing outside
  · exact fun _ => rfl
  · exact fun within => absurd within outside
  · intro response sent
    cases sent

/-- A handler that waits no longer for its answer, whatever it came to. -/
theorem served_phase {world : World} {id : Nat} {request : Request} {phase : Phase}
    (served : Served world id request) (sending : phase ≠ .sending)
    (receiving : phase ≠ .receiving)
    (left : phase = .left false → id ∉ world.entered)
    (answered : ∀ answer, phase = .answered answer → Explained world id request answer) :
    Served world id { request with phase := phase } := by
  constructor
  · exact fun phase => absurd phase sending
  · exact fun phase => absurd phase receiving
  · exact left
  · intro answer phase
    cases answered answer phase with
    | channelMissing outside => exact .channelMissing outside
    | sendFailed outside => exact .sendFailed outside
    | noResponse within dropped => exact .noResponse within dropped
    | response response sent => exact .response response sent
  · exact served.outside
  · exact served.held
  · exact served.sent

theorem sound_answered {world : World} (sound : Sound world) {id : Nat} {request : Request}
    {answer : HttpAnswer} (found : world.requests id = some request)
    (explained : Explained world id request answer) :
    Sound (world.set id { request with phase := .answered answer }) := by
  apply sound_here sound
  apply served_phase (sound.served id request found)
  · exact fun phase => by cases phase
  · exact fun phase => by cases phase
  · exact fun phase => by cases phase
  · rintro _ ⟨⟩
    exact explained

/-- The client goes away while the handler waits, on one side of the queue or the other. -/
theorem sound_left {world : World} (sound : Sound world) {id : Nat} {request : Request}
    {sent : Bool}
    (found : world.requests id = some request)
    (unsent : sent = false → request.phase = .sending) :
    Sound (world.set id { request with phase := .left sent }) := by
  have served := sound.served id request found
  apply sound_here sound
  apply served_phase served
  · exact fun phase => by cases phase
  · exact fun phase => by cases phase
  · rintro ⟨⟩
    exact served.sending (unsent rfl)
  · exact fun _ phase => by cases phase

theorem served_enter {world : World} {id : Nat} {request : Request}
    (served : Served world id request)
    (phase : request.phase = .sending) :
    Served (world.enter id) id { request with phase := .receiving } := by
  have within : id ∈ (world.enter id).entered :=
    List.mem_append_right _ (List.mem_singleton_self id)
  have held := served.outside (served.sending phase)
  constructor
  · intro phase
    cases phase
  · exact fun _ => within
  · intro phase
    cases phase
  · intro answer phase
    cases phase
  · exact fun outside => absurd within outside
  · intro _
    constructor
    · exact fun _ => .inl (List.mem_append_right _ (List.mem_singleton_self id))
    · exact fun _ => held
  · intro response sent
    cases held.symm.trans sent

theorem sound_enter {world : World} (sound : Sound world) {id : Nat} {request : Request}
    (found : world.requests id = some request) (phase : request.phase = .sending)
    (receiving : world.receiving = true) (room : world.queue.length < capacity) :
    Sound ((world.enter id).set id { request with phase := .receiving }) := by
  have served := sound.served id request found
  have outside := served.sending phase
  apply sound_set
  · rw [World.enter, List.length_append, List.length_singleton]
    exact room
  · apply List.Nodup.append sound.once (List.nodup_singleton id)
    rwa [List.disjoint_singleton]
  · exact sound.order.trans (List.prefix_append _ _)
  · intro _
    change world.entered ++ [id] = world.taken ++ (world.queue ++ [id])
    rw [sound.whole receiving, List.append_assoc]
  · exact sound.handled
  · intro closed
    cases receiving.symm.trans closed
  · intro other found apart present
    apply served_frame (sound.served other found present)
    · simp [World.enter, apart]
    · exact fun taken => taken
    · simp [Waits, World.enter, apart]
  · intro other within apart
    apply sound.known
    simpa [World.enter, apart] using within
  · exact served_enter served phase

theorem sound_send {world after : World} (sound : Sound world) {id : Nat} {request : Request}
    (found : world.requests id = some request) (phase : request.phase = .sending)
    (sends : send world id request = some after) : Sound after := by
  unfold send at sends
  split at sends
  · cases sends
    exact sound_answered sound found (.sendFailed ((sound.served id request found).sending phase))
  · rename_i receiving
    split at sends
    · rename_i room
      cases sends
      exact sound_enter sound found phase (by simpa using receiving) room
    · cases sends

theorem sound_tryRecv {world : World} (sound : Sound world) {id : Nat} {rest : List Nat}
    (idle : world.handling = none) (queue : world.queue = id :: rest) :
    Sound { world with queue := rest, handling := some id, taken := world.taken ++ [id] } := by
  have receiving : world.receiving = true := by
    by_contra closed
    rw [sound.closed (Bool.eq_false_iff.mpr closed)] at queue
    cases queue
  have whole : world.entered = world.taken ++ [id] ++ rest := by
    rw [sound.whole receiving, queue, List.append_assoc]
    rfl
  constructor
  · have room := sound.room
    rw [queue] at room
    exact Nat.le_of_succ_le room
  · exact sound.once
  · exact ⟨rest, whole.symm⟩
  · exact fun _ => whole
  · rintro _ ⟨⟩
    exact ⟨receiving, List.mem_append_right _ (List.mem_singleton_self id)⟩
  · intro closed
    cases receiving.symm.trans closed
  · exact sound.known
  · intro other request present
    apply served_frame (sound.served other request present)
    · exact Iff.rfl
    · exact fun taken => List.mem_append_left _ taken
    · -- what left the queue is what the engine is at
      simp [Waits, idle, queue, eq_comm, or_comm]

theorem within_of_waits {world : World} (sound : Sound world) {id : Nat} (waits : Waits world id) :
    id ∈ world.entered := by
  rcases waits with queued | handling
  · cases receiving : world.receiving with
    | false =>
        rw [sound.closed receiving] at queued
        cases queued
    | true =>
        rw [sound.whole receiving]
        exact List.mem_append_right _ queued
  · exact sound.order.subset (sound.handled id handling).2

/-- The sender of the reply channel is used or dropped. -/
theorem served_ended {before after : World} {id : Nat} {request : Request} {reply : Reply}
    (served : Served before id request) (within : id ∈ before.entered) (waited : Waits before id)
    (entered : after.entered = before.entered) (waits : ¬Waits after id) (ended : reply ≠ .held)
    (sent : ∀ response, reply = .sent response → id ∈ after.taken) :
    Served after id { request with reply := reply } := by
  have held : request.reply = .held := (served.held within).mpr waited
  constructor
  · exact fun phase => absurd within (served.sending phase)
  · intro _
    rw [entered]
    exact within
  · exact fun phase => absurd within (served.left phase)
  · intro answer phase
    -- without a reply the handler had no answer yet
    cases served.answered answer phase with
    | channelMissing outside => exact absurd within outside
    | sendFailed outside => exact absurd within outside
    | noResponse _ dropped => cases held.symm.trans dropped
    | response response sent => cases held.symm.trans sent
  · intro outside
    rw [entered] at outside
    exact absurd within outside
  · exact fun _ => ⟨fun still => absurd still ended, fun still => absurd still waits⟩
  · exact sent

theorem sound_finish {world : World} (sound : Sound world) {id : Nat} {request : Request} (ha : Ha)
    (handling : world.handling = some id) (found : world.requests id = some request) {reply : Reply}
    (ended : reply ≠ .held) :
    Sound ((world.finish ha).set id { request with reply := reply }) := by
  obtain ⟨receiving, taken⟩ := sound.handled id handling
  apply sound_set
  · exact sound.room
  · exact sound.once
  · exact sound.order
  · exact sound.whole
  · intro other handled
    cases handled
  · exact sound.closed
  · intro other found apart present
    apply served_frame (sound.served other found present)
    · exact Iff.rfl
    · exact fun taken => taken
    · simp [Waits, World.finish, handling, Ne.symm apart]
  · exact fun other within _ => sound.known other within
  · apply served_ended (sound.served id request found) (sound.order.subset taken) (.inr handling)
    · rfl
    · rintro (queued | ⟨⟨⟩⟩)
      have once := sound.once
      rw [sound.whole receiving] at once
      exact List.disjoint_of_nodup_append once taken queued
    · exact ended
    · exact fun _ _ => taken

theorem sound_handle {world : World} (sound : Sound world) {id : Nat} {request : Request}
    (env : Env)
    (handling : world.handling = some id) (found : world.requests id = some request) :
    Sound (handle world id request env) := by
  unfold handle
  cases answerCommand request.command env world.ha with
  | done response after =>
      apply sound_finish sound after handling found
      intro held
      cases held
  | cut after =>
      apply sound_finish sound after handling found
      intro held
      cases held

theorem sound_dropEngine {world : World} (sound : Sound world) : Sound world.dropEngine := by
  constructor
  · exact Nat.zero_le _
  · exact sound.once
  · exact sound.order
  · intro receiving
    cases receiving
  · intro id handled
    cases handled
  · exact fun _ => rfl
  · intro id within
    simp only [World.dropEngine, Option.isSome_map]
    exact sound.known id within
  · intro id request present
    simp only [World.dropEngine, Option.map_eq_some_iff] at present
    obtain ⟨before, found, rfl⟩ := present
    have served := sound.served id before found
    have none : ¬Waits world.dropEngine id := by
      rintro (⟨⟨⟩⟩ | ⟨⟨⟩⟩)
    by_cases waits : id ∈ world.queue ∨ world.handling = some id
    · rw [if_pos waits]
      apply served_ended served (within_of_waits sound waits) waits
      · rfl
      · exact none
      · intro held
        cases held
      · intro response sent
        cases sent
    · rw [if_neg waits]
      exact served_frame served Iff.rfl (fun taken => taken) (iff_of_false none waits)

theorem sound_recv {world after : World} (sound : Sound world) {id : Nat}
    (recv : step world (.recv id) = some after) : Sound after := by
  simp only [step, Option.bind_eq_bind, Option.bind_eq_some_iff] at recv
  obtain ⟨request, found, recv⟩ := recv
  have served := sound.served id request found
  split at recv
  · rename_i response _ sent
    cases recv
    exact sound_answered sound found (.response response sent)
  · rename_i receiving dropped
    cases recv
    exact sound_answered sound found (.noResponse (served.receiving receiving) dropped)
  · cases recv

theorem sound_leave {world after : World} (sound : Sound world) {id : Nat}
    (leaves : step world (.leave id) = some after) : Sound after := by
  simp only [step, Option.bind_eq_bind, Option.bind_eq_some_iff] at leaves
  obtain ⟨request, found, leaves⟩ := leaves
  split at leaves
  · rename_i sending
    cases leaves
    exact sound_left sound found fun _ => sending
  · cases leaves
    exact sound_left sound found fun unsent => by cases unsent
  · cases leaves
  · cases leaves

theorem sound_step {before after : World} (act : Act) (sound : Sound before)
    (stepped : step before act = some after) : Sound after := by
  cases act with
  | request id command =>
      simp only [step] at stepped
      split at stepped
      · cases stepped
      · rename_i fresh
        cases stepped
        exact sound_request sound command fresh
  | send id =>
      simp only [step, Option.bind_eq_bind, Option.bind_eq_some_iff] at stepped
      obtain ⟨request, found, sends⟩ := stepped
      split at sends
      · rename_i sending
        exact sound_send sound found sending sends
      · cases sends
  | leave id => exact sound_leave sound stepped
  | tryRecv =>
      simp only [step] at stepped
      split at stepped
      · rename_i idle queue
        cases stepped
        exact sound_tryRecv sound idle queue
      · cases stepped
  | handle env =>
      simp only [step, Option.bind_eq_bind, Option.bind_eq_some_iff, Option.some.injEq] at stepped
      obtain ⟨id, handling, request, found, rfl⟩ := stepped
      exact sound_handle sound env handling found
  | elsewhere ha =>
      simp only [step] at stepped
      split at stepped
      · cases stepped
        exact { sound with
          served := fun id request found => served_frame (sound.served id request found) Iff.rfl
            (fun taken => taken) Iff.rfl }
      · cases stepped
  | recv id => exact sound_recv sound stepped
  | dropEngine =>
      cases stepped
      exact sound_dropEngine sound

/-! ### Whose answer it is -/

/-- The engine's answer is on its way to the handler of this command. -/
def Sent (world : World) (id : Nat) (command : ManagementCommand)
    (response : CommandResponse) : Prop :=
  ∃ request, world.requests id = some request ∧ request.command = command ∧
    request.reply = .sent response

/-- In some step of the run the engine, in the state it was in, ran this command of the
handler to its end, with this answer. -/
def Carried (start world : World) (id : Nat) (command : ManagementCommand)
    (response : CommandResponse) :
    Prop :=
  ∃ before env after, Reaches step anyAct start before ∧ before.handling = some id ∧
    answerCommand command env before.ha = .done response after.ha ∧
    step before (.handle env) = some after ∧ Reaches step anyAct after world

theorem sent_set {world : World} {id own : Nat} {request old : Request}
    {command : ManagementCommand}
    {response : CommandResponse} (sent : Sent (world.set own request) id command response)
    (found : world.requests own = some old) (asked : old.command = request.command)
    (kept : old.reply = request.reply) : Sent world id command response := by
  obtain ⟨seen, present, same, reply⟩ := sent
  rw [requests_set] at present
  split at present
  · rename_i here
    subst id
    cases present
    exact ⟨old, found, asked.trans same, kept.trans reply⟩
  · exact ⟨seen, present, same, reply⟩

theorem sent_send {world after : World} {id own : Nat} {request : Request}
    {command : ManagementCommand}
    {response : CommandResponse} (found : world.requests own = some request)
    (sends : send world own request = some after) (sent : Sent after id command response) :
    Sent world id command response := by
  unfold send at sends
  split at sends
  · cases sends
    exact sent_set sent found rfl rfl
  · split at sends
    · cases sends
      have entered : Sent (world.enter own) id command response := sent_set sent found rfl rfl
      exact entered
    · cases sends

/-- The engine's own command gets the answer of its run, and no other one. -/
theorem sent_handle {world : World} {id own : Nat} {request : Request} {env : Env}
    {command : ManagementCommand} {response : CommandResponse}
    (sent : Sent (handle world own request env) id command response) :
    Sent world id command response ∨ (own = id ∧ answerCommand command env world.ha =
      .done response (handle world own request env).ha) := by
  obtain ⟨seen, present, same, reply⟩ := sent
  unfold handle at present ⊢
  cases ran : answerCommand request.command env world.ha with
  | done answer after =>
      rw [ran] at present
      dsimp only at present
      rw [requests_set] at present
      split at present
      · rename_i here
        cases present
        obtain rfl := Reply.sent.inj reply
        exact .inr ⟨here.symm, same ▸ ran⟩
      · exact .inl ⟨seen, present, same, reply⟩
  | cut after =>
      rw [ran] at present
      dsimp only at present
      rw [requests_set] at present
      split at present
      · cases present
        cases reply
      · exact .inl ⟨seen, present, same, reply⟩

/-- One step: the answer was there before, or the engine gives it in this step. -/
theorem sent_step {before after : World} {id : Nat} {command : ManagementCommand}
    {response : CommandResponse} (act : Act) (stepped : step before act = some after)
    (sent : Sent after id command response) :
    Sent before id command response ∨ ∃ env, act = .handle env ∧ before.handling = some id ∧
      answerCommand command env before.ha = .done response after.ha := by
  cases act with
  | request own asked =>
      simp only [step] at stepped
      split at stepped
      · cases stepped
      · cases stepped
        obtain ⟨seen, present, same, reply⟩ := sent
        rw [requests_set] at present
        split at present
        · cases present
          cases reply
        · exact .inl ⟨seen, present, same, reply⟩
  | send own =>
      simp only [step, Option.bind_eq_bind, Option.bind_eq_some_iff] at stepped
      obtain ⟨request, found, sends⟩ := stepped
      split at sends
      · exact .inl (sent_send found sends sent)
      · cases sends
  | leave own =>
      simp only [step, Option.bind_eq_bind, Option.bind_eq_some_iff] at stepped
      obtain ⟨request, found, leaves⟩ := stepped
      split at leaves <;> cases leaves
      · exact .inl (sent_set sent found rfl rfl)
      · exact .inl (sent_set sent found rfl rfl)
  | tryRecv =>
      simp only [step] at stepped
      split at stepped <;> cases stepped
      exact .inl sent
  | handle env =>
      simp only [step, Option.bind_eq_bind, Option.bind_eq_some_iff, Option.some.injEq] at stepped
      obtain ⟨own, handling, request, _, rfl⟩ := stepped
      rcases sent_handle sent with before | ⟨rfl, ran⟩
      · exact .inl before
      · exact .inr ⟨env, rfl, handling, ran⟩
  | elsewhere ha =>
      simp only [step] at stepped
      split at stepped <;> cases stepped
      exact .inl sent
  | recv own =>
      simp only [step, Option.bind_eq_bind, Option.bind_eq_some_iff] at stepped
      obtain ⟨request, found, receives⟩ := stepped
      split at receives <;> cases receives
      · exact .inl (sent_set sent found rfl rfl)
      · exact .inl (sent_set sent found rfl rfl)
  | dropEngine =>
      cases stepped
      obtain ⟨seen, present, same, reply⟩ := sent
      simp only [World.dropEngine, Option.map_eq_some_iff] at present
      obtain ⟨old, found, rfl⟩ := present
      split at reply
      · cases reply
      · rename_i free
        rw [if_neg free] at same
        exact .inl ⟨old, found, same, reply⟩

/-- By induction on the run: the step that gave the answer is in it. -/
theorem carried_reaches {start world : World} {id : Nat} {command : ManagementCommand}
    {response : CommandResponse} (path : Reaches step anyAct start world)
    (unsent : ¬Sent start id command response) (sent : Sent world id command response) :
    Carried start world id command response := by
  induction path with
  | refl => exact absurd sent unsent
  | next act path _ stepped ih =>
      rcases sent_step act stepped sent with before | ⟨env, rfl, handling, ran⟩
      · obtain ⟨earlier, env, after, first, handling, ran, handles, rest⟩ := ih before
        exact ⟨earlier, env, after, first, handling, ran, handles,
          .next act rest trivial stepped⟩
      · exact ⟨_, env, _, path, handling, ran, stepped, .refl⟩

/-! ### The engine's loop -/

theorem processCommands_cons (command : ManagementCommand) (rest : List ManagementCommand) :
    processCommands (command :: rest) = answerCommand command >>= fun _ =>
      processCommands rest := by
  rw [processCommands, answerCommand, Interruptible.bind_assoc]
  congr 1
  funext response
  rw [Interruptible.bind_assoc]
  rfl

/-- The command a request brought. -/
def Asks (world : World) (id : Nat) (command : ManagementCommand) : Prop :=
  (world.requests id).map Request.command = some command

theorem asks_handle {world : World} {id other : Nat} {request : Request}
    {command : ManagementCommand}
    (env : Env) (found : world.requests id = some request) (asks : Asks world other command) :
    Asks (handle world id request env) other command := by
  unfold Asks at asks ⊢
  unfold handle
  by_cases same : other = id
  · subst other
    rw [found] at asks
    cases answerCommand request.command env world.ha with
    | done response after => simpa using asks
    | cut after => simpa using asks
  · cases answerCommand request.command env world.ha with
    | done response after => simpa [same, World.finish] using asks
    | cut after => simpa [same, World.finish] using asks

/-- `after` is where the system is when `process_commands` has ended so. -/
def Drained (world after : World) : Outcome Ha Unit → Prop
  | .done _ ha => after.ha = ha ∧ after.queue = [] ∧ after.taken = world.taken ++ world.queue
  | .cut ha => after.ha = ha

/-- What `process_commands` does with the commands in the queue is a run of the system: by
induction on the queue. -/
theorem drain_runs {env : Env} {world : World} {commands : List ManagementCommand}
    (asked : List.Forall₂ (Asks world) world.queue commands) (idle : world.handling = none) :
    ∃ after, Reaches step anyAct world after ∧
      Drained world after (processCommands commands env world.ha) := by
  induction commands generalizing world with
  | nil =>
      have queue := List.forall₂_nil_right_iff.mp asked
      refine ⟨world, .refl, rfl, queue, ?_⟩
      rw [queue, List.append_nil]
  | cons command commands ih =>
      obtain ⟨id, rest, asks, others, queue⟩ := List.forall₂_cons_right_iff.mp asked
      obtain ⟨request, found, rfl⟩ := Option.map_eq_some_iff.mp asks
      let at' : World :=
        { world with queue := rest, handling := some id, taken := world.taken ++ [id] }
      have takes : step world .tryRecv = some at' := by
        simp only [step, idle, queue, at']
      have handles : step at' (.handle env) = some (handle at' id request env) := by
        simp [step, at', found]
      have path : Reaches step anyAct world (handle at' id request env) :=
        .next (.handle env) (.next .tryRecv .refl trivial takes) trivial handles
      rw [processCommands_cons]
      cases ran : answerCommand request.command env world.ha with
      | cut ha =>
          refine ⟨_, path, ?_⟩
          have cut : (answerCommand request.command >>= fun _ => processCommands commands) env
              world.ha =
              .cut ha := by
            simp only [Bind.bind, ran]
          rw [cut, handle, show answerCommand request.command env at'.ha = _ from ran]
          rfl
      | done response ha =>
          rw [bind_done ran]
          have reached : handle at' id request env =
              (at'.finish ha).set id { request with reply := .sent response } := by
            rw [handle, show answerCommand request.command env at'.ha = _ from ran]
          have still : List.Forall₂ (Asks (handle at' id request env)) rest commands :=
            others.imp fun other command asks =>
              asks_handle env (show at'.requests id = some request from found)
                (show Asks at' other command from asks)
          rw [reached] at still path
          obtain ⟨after, more, comes⟩ := ih still rfl
          refine ⟨after, reaches_trans path more, ?_⟩
          change Drained _ after (processCommands commands env ha) at comes
          cases ended : processCommands commands env ha with
          | cut last =>
              rw [ended] at comes
              exact comes
          | done _ last =>
              rw [ended] at comes
              obtain ⟨same, empty, taken⟩ := comes
              refine ⟨same, empty, ?_⟩
              rw [taken, queue]
              exact List.append_assoc world.taken [id] rest

/-- Every run keeps the order of the commands and gives every handler its own answer: the
engine takes the commands in the order in which they got into its queue, each at most
once, and none is lost between the two while the engine is there. An answer is the one of
the step in which the engine ran the handler's command. A command whose handler was
refused, or left before it was in the queue, is never taken. A handler whose command got
into the queue waits on only while it waits there or is run. -/
theorem commands_answered {cmdTx : Bool} {ha : Ha} {world : World}
    (path : Reaches step anyAct (World.start cmdTx ha) world) :
    world.queue.length ≤ capacity ∧ world.entered.Nodup ∧ world.taken <+: world.entered ∧
    (world.receiving = true → world.entered = world.taken ++ world.queue) ∧
    ∀ id request, world.requests id = some request →
      (∀ answer, request.phase = .answered answer → Explained world id request answer) ∧
      (∀ response, request.reply = .sent response →
        Carried (World.start cmdTx ha) world id request.command response) ∧
      (request.phase = .left false → id ∉ world.entered) ∧
      (request.phase = .receiving → (step world (.recv id)).isSome = true ∨
        Waits world id) := by
  have sound : Sound world := by
    apply reaches_invariant Sound (sound_start cmdTx ha) _ path
    exact fun _ act _ sound _ stepped => sound_step act sound stepped
  refine ⟨sound.room, sound.once, sound.order, sound.whole, ?_⟩
  intro id request found
  have served := sound.served id request found
  refine ⟨served.answered, ?_, served.left, ?_⟩
  · intro response sent
    apply carried_reaches path _ ⟨request, found, rfl, sent⟩
    rintro ⟨_, none, _⟩
    cases none
  intro receiving
  cases reply : request.reply with
  | held => exact .inr ((served.held (served.receiving receiving)).mp reply)
  | sent response =>
      left
      simp [step, found, receiving, reply]
  | dropped =>
      left
      simp [step, found, receiving, reply]

/-- The second request gets into the queue first, the third is gone before it does, and the
engine answers one of the two. -/
def overtakenRun : List Act :=
  [.request 0 .restart, .request 1 .cancelSwitchover, .request 2 (.failover none),
    .send 1, .leave 2,
    .send 0, .tryRecv, .handle (PrimaryFenced.quick ['a'] PrimaryFenced.steadyWall), .recv 1]

def cancelled : CommandResponse := .accepted "Scheduled switchover cancelled".toList

theorem commands_answered_overtaken :
    ∃ world, Reaches step anyAct (World.start true PrimaryFenced.primaryNode) world ∧
      world.entered = [1, 0] ∧ world.taken = [1] ∧ world.queue = [0] ∧
      world.entered = world.taken ++ world.queue ∧
      Carried (World.start true PrimaryFenced.primaryNode) world 1 .cancelSwitchover cancelled := by
  have played : (play step anyAct (World.start true PrimaryFenced.primaryNode) overtakenRun).map
      (fun world => (world.entered, world.taken, world.queue, world.receiving, world.requests 1)) =
        some ([1, 0], [1], [0], true,
          some ⟨.cancelSwitchover, .answered (answerOf cancelled), .sent cancelled⟩) := by
    rfl
  obtain ⟨world, found, seen⟩ := Option.map_eq_some_iff.mp played
  simp only [Prod.mk.injEq] at seen
  obtain ⟨entered, taken, queue, receiving, request⟩ := seen
  have path := play_reaches found
  obtain ⟨_, _, _, whole, served⟩ := commands_answered path
  exact ⟨world, path, entered, taken, queue, whole receiving,
    (served 1 _ request).2.1 cancelled rfl⟩

end PgHa.CommandQueue
