import PgHa.CrashDisk
import PgHa.LatestTimeline
import PgHa.RaftStore
import PgHa.Transition

/-!
`MemStore::atomic_write_json`: a temporary file, its fsync, a rename and an fsync of the
directory, whose failure is ignored. Calls for different files come in any order, any
operation may fail, and the process may end or the machine crash between any two.
-/

namespace PgHa.AtomicWrite

open Text LatestTimeline Transition CrashDisk

def tempName (pid : Nat) (name : Str) : Str := name ++ ('.' :: decimal pid ++ ".tmp".toList)

/-- No temporary file. -/
def Target (name : Str) : Prop := ¬ ".tmp".toList <:+ name

theorem tempName_temp (pid : Nat) (name : Str) : ¬ Target (tempName pid name) := by
  rw [Target, not_not]
  exact ⟨name ++ '.' :: decimal pid, by rw [tempName, List.append_assoc]⟩

theorem tempName_injective {pid : Nat} {name other : Str}
    (same : tempName pid name = tempName pid other) :
    name = other := List.append_cancel_right same

/-! ### Calls -/

/-- What a call has done so far. -/
inductive Phase where
  | created (file : Nat)
  | written (file : Nat)
  | synced (file : Nat)
  | renamed

structure Call where
  bytes : List UInt8
  phase : Phase

/-- `texts` is the file as an abstract register: what it holds now, and what else a crash may
leave of it, newest first. -/
structure World where
  disk : Disk Str (List UInt8)
  pid : Nat
  calls : Str → Option Call
  texts : Str → List (Option (List UInt8))

/-- A process that starts on what it finds. -/
def World.start (disk : Disk Str (List UInt8)) (pid : Nat) : World :=
  ⟨disk, pid, fun _ => none, fun name => [disk.read name]⟩

inductive Act where
  | create (name : Str) (bytes : List UInt8)
  | write (name : Str)
  | sync (name : Str)
  | rename (name : Str)
  | syncDirectory (name : Str)
  /-- The next operation of the call fails; a write leaves some bytes. The call is an error
  then, but for the sync of the directory. -/
  | fail (name : Str) (left : List UInt8)
  | restart (pid : Nat)
  | crash (kept : List (Change Str)) (left : Nat → List UInt8) (pid : Nat)

def World.move (world : World) (disk : Disk Str (List UInt8)) (name : Str)
    (call : Option Call) : World :=
  { world with disk := disk, calls := Function.update world.calls name call }

/-- What a failed operation leaves of the disk. -/
def Phase.failed (disk : Disk Str (List UInt8)) (left : List UInt8) : Phase →
    Disk Str (List UInt8)
  | .created file => disk.write file left
  | .written _ | .synced _ | .renamed => disk

/-- An operation that succeeds, with what the call is then and what became of the register. -/
def Call.next (world : World) (name : Str) (call : Call) : Act → Option World
  | .write _ =>
      match call.phase with
      | .created file =>
          some (world.move (world.disk.write file call.bytes) name
            (some ⟨call.bytes, .written file⟩))
      | _ => none
  | .sync _ =>
      match call.phase with
      | .written file =>
          some (world.move (world.disk.sync file) name (some ⟨call.bytes, .synced file⟩))
      | _ => none
  | .rename _ =>
      match call.phase with
      | .synced _ =>
          some { world.move (world.disk.rename (tempName world.pid name) name) name
              (some ⟨call.bytes, .renamed⟩) with
            texts := Function.update world.texts name (some call.bytes :: world.texts name) }
      | _ => none
  | .syncDirectory _ =>
      match call.phase with
      | .renamed =>
          some { world.move world.disk.syncDirectory name none with
            texts := fun other => (world.texts other).take 1 }
      | _ => none
  | .fail _ left => some (world.move (call.phase.failed world.disk left) name none)
  | .create _ _ | .restart _ | .crash _ _ _ => none

def step (world : World) : Act → Option World
  | .create name bytes =>
      match world.calls name with
      | some _ => none
      | none =>
          let opened := world.disk.create (tempName world.pid name) []
          some (world.move opened.1 name (some ⟨bytes, .created opened.2⟩))
  | .restart pid => some { world with pid := pid, calls := fun _ => none }
  | .crash kept left pid => some (.start (world.disk.crash kept left) pid)
  | .write name => do (← world.calls name).next world name (.write name)
  | .sync name => do (← world.calls name).next world name (.sync name)
  | .rename name => do (← world.calls name).next world name (.rename name)
  | .syncDirectory name => do (← world.calls name).next world name (.syncDirectory name)
  | .fail name left => do (← world.calls name).next world name (.fail name left)

/-- Only files that are no temporary ones are written so; a crash keeps some of the changes. -/
def Meets (world : World) : Act → Prop
  | .create name _ => Target name
  | .crash kept _ _ => kept.Sublist world.disk.pending
  | .write _ | .sync _ | .rename _ | .syncDirectory _ | .fail _ _ | .restart _ => True

/-! ### The files -/

variable {disk : CrashDisk.Disk Str (List UInt8)} {texts : Str → List (Option (List UInt8))}

/-- Whatever a crash leaves of a file is whole and in its register. -/
structure Files (disk : Disk Str (List UInt8))
    (texts : Str → List (Option (List UInt8))) : Prop where
  tidy : Tidy Target disk
  whole : ∀ name, Target name → ∀ file, disk.MayHold name file →
    file.map disk.text ∈ texts name
  clean : ∀ name, Target name → ∀ file, disk.MayHold name (some file) →
    disk.dirty file = false
  newest : ∀ name, Target name → (texts name).head? = some (disk.read name)

theorem files_write (files : Files disk texts) {file : Nat} (text : List UInt8)
    (away : ∀ name, Target name → ¬ disk.MayHold name (some file)) :
    Files (disk.write file text) texts := by
  have other (name : Str) (target : Target name) (held : Nat)
      (there : disk.MayHold name (some held)) :
      held ≠ file := fun same => away name target (same ▸ there)
  have texts (name : Str) (target : Target name) (held : Option Nat)
      (there : disk.MayHold name held) :
      held.map (disk.write file text).text = held.map disk.text := by
    cases held with
    | none => rfl
    | some held =>
        change some (Function.update disk.text file text held) = some (disk.text held)
        rw [Function.update_of_ne (other name target held there)]
  refine ⟨tidy_write files.tidy file text, ?_, ?_, ?_⟩
  · intro name target held there
    rw [texts name target held there]
    exact files.whole name target held there
  · intro name target held there
    exact (Function.update_of_ne (other name target held there) true disk.dirty).trans
      (files.clean name target held there)
  · intro name target
    rw [files.newest name target]
    exact congrArg some (texts name target (disk.live name) (mayHold_live name)).symm

theorem files_sync (files : Files disk texts) (file : Nat) : Files (disk.sync file) texts := by
  refine ⟨tidy_sync files.tidy file, files.whole, ?_, files.newest⟩
  intro name target held there
  change Function.update disk.dirty file false held = false
  by_cases same : held = file
  · rw [same, Function.update_self]
  · rw [Function.update_of_ne same]
    exact files.clean name target held there

theorem files_link (files : Files disk texts) {temp : Str} (temporary : ¬ Target temp) :
    Files (disk.link temp) texts := by
  have before (name : Str) (target : Target name) (held : Option Nat)
      (there : (disk.link temp).MayHold name held) : disk.MayHold name held := by
    rcases mayHold_link.mp there with before | ⟨same, -⟩
    · exact before
    · exact absurd (same ▸ target) temporary
  refine ⟨tidy_link files.tidy temporary, ?_, ?_, ?_⟩
  · exact fun name target held there =>
      files.whole name target held (before name target held there)
  · exact fun name target held there =>
      files.clean name target held (before name target (some held) there)
  · intro name target
    have away : name ≠ temp := fun same => temporary (same ▸ target)
    have live : (disk.link temp).live name = disk.live name := by
      have changed : (disk.change (.link temp disk.next)).live name = _ := live_change _ name
      rw [Change.sets, if_neg away, Option.getD_none] at changed
      exact changed
    rw [files.newest name target, Disk.read, Disk.read, live]
    rfl

theorem files_create (files : Files disk texts) {temp : Str} (temporary : ¬ Target temp) :
    Files (disk.create temp []).1 texts := by
  unfold Disk.create
  cases there : disk.live temp with
  | some file =>
      exact files_write files [] fun name target =>
        files.tidy.free temp name file temporary target there
  | none =>
      apply files_link _ temporary
      apply files_write files
      intro name _ held
      exact Nat.lt_irrefl disk.next (files.tidy.bound name disk.next held)

theorem files_rename (files : Files disk texts) {temp name : Str} (temporary : ¬ Target temp)
    (target : Target name) {file : Nat} (prepared : disk.live temp = some file)
    (synced : disk.dirty file = false) :
    Files (disk.rename temp name)
      (Function.update texts name (some (disk.text file) :: texts name)) := by
  have away : name ≠ temp := fun same => temporary (same ▸ target)
  have changed : disk.rename temp name = disk.change (.rename temp name file) := by
    rw [Disk.rename, prepared]
  have sets : (Change.rename temp name file).sets name = some (some file) := by
    rw [Change.sets, if_neg away, if_pos rfl]
  have aside (other : Str) (its : Target other) (same : other ≠ name) :
      (Change.rename temp name file).sets other = none := by
    rw [Change.sets, if_neg (show other ≠ temp from fun here => temporary (here ▸ its)),
      if_neg same]
  rw [changed]
  refine ⟨tidy_rename files.tidy temporary target prepared, ?_, ?_, ?_⟩
  · intro other its held there
    change held.map disk.text ∈ _
    rcases mayHold_change.mp there with before | new
    · have old := files.whole other its held before
      by_cases same : other = name
      · subst same
        rw [Function.update_self]
        exact List.mem_cons_of_mem _ old
      · rwa [Function.update_of_ne same]
    · by_cases same : other = name
      · subst same
        rw [sets, Option.some.injEq] at new
        rw [Function.update_self, ← new]
        exact List.mem_cons_self
      · rw [aside other its same] at new
        cases new
  · intro other its held there
    rcases mayHold_change.mp there with before | new
    · exact files.clean other its held before
    · by_cases same : other = name
      · subst same
        rw [sets, Option.some.injEq, Option.some.injEq] at new
        exact new ▸ synced
      · rw [aside other its same] at new
        cases new
  · intro other its
    rw [Disk.read, live_change]
    by_cases same : other = name
    · subst same
      rw [Function.update_self, sets]
      rfl
    · rw [Function.update_of_ne same, aside other its same, files.newest other its]
      rfl

theorem files_syncDirectory (files : Files disk texts) :
    Files disk.syncDirectory fun name => (texts name).take 1 := by
  refine ⟨tidy_syncDirectory files.tidy, ?_, ?_, ?_⟩
  · intro name target held there
    rw [mayHold_syncDirectory.mp there]
    have newest := files.newest name target
    cases register : texts name with
    | nil => simp [register] at newest
    | cons first rest =>
        simp only [register, List.head?_cons, Option.some.injEq] at newest
        rw [newest]
        exact List.mem_singleton_self _
  · intro name target held there
    exact files.clean name target held (mayHold_syncDirectory.mp there ▸ mayHold_live name)
  · intro name target
    rw [List.head?_take, if_neg Nat.one_ne_zero]
    exact files.newest name target

theorem files_crash (files : Files disk texts) {kept : List (Change Str)}
    (left : Nat → List UInt8)
    (part : kept.Sublist disk.pending) :
    Files (disk.crash kept left) fun name => [(disk.crash kept left).read name] := by
  refine ⟨tidy_crash files.tidy left part, ?_, fun _ _ _ _ => rfl, fun _ _ => rfl⟩
  intro name target held there
  rw [mayHold_crash.mp there]
  exact List.mem_singleton_self _

/-- A crash leaves one of the texts of the register. -/
theorem crash_reads (files : Files disk texts) {kept : List (Change Str)}
    (left : Nat → List UInt8)
    (part : kept.Sublist disk.pending) {name : Str} (target : Target name) :
    (disk.crash kept left).read name ∈ texts name := by
  obtain ⟨held, there, (reads : (disk.crash kept left).read name = _)⟩ :=
    read_crash part (files.clean name target)
  rw [reads]
  exact files.whole name target held there

/-! ### Runs -/

def Phase.file : Phase → Option Nat
  | .created file | .written file | .synced file => some file
  | .renamed => none

/-- The file of a call is under its temporary name, and is what the call made of it. -/
structure Running (world : World) (name : Str) (call : Call) : Prop where
  target : Target name
  own : ∀ file, call.phase.file = some file →
    world.disk.live (tempName world.pid name) = some file
  holds : ∀ file, call.phase = .written file ∨ call.phase = .synced file →
    world.disk.text file = call.bytes
  clean : ∀ file, call.phase = .synced file → world.disk.dirty file = false
  renamed : call.phase = .renamed → (world.texts name).head? = some (some call.bytes)

structure Sound (world : World) : Prop where
  files : Files world.disk world.texts
  running : ∀ name call, world.calls name = some call → Running world name call

variable {world : World} {name : Str}

theorem running_frame {after : World} {call : Call} (running : Running world name call)
    (pid : after.pid = world.pid)
    (live : after.disk.live (tempName world.pid name) = world.disk.live (tempName world.pid name))
    (kept : ∀ file, world.disk.live (tempName world.pid name) = some file →
      after.disk.text file = world.disk.text file ∧ after.disk.dirty file = world.disk.dirty file)
    (texts : (after.texts name).head? = (world.texts name).head?) :
    Running after name call := by
  refine ⟨running.target, ?_, ?_, ?_, fun phase => texts.trans (running.renamed phase)⟩
  · intro file phase
    rw [pid, live]
    exact running.own file phase
  · intro file phase
    have own := running.own file (by rcases phase with phase | phase <;> rw [phase] <;> rfl)
    rw [(kept file own).1]
    exact running.holds file phase
  · intro file phase
    have own := running.own file (by rw [phase]; rfl)
    rw [(kept file own).2]
    exact running.clean file phase

/-- Two calls have two files. -/
theorem files_apart (sound : Sound world) {other : Str} (apart : other ≠ name) {file held : Nat}
    (mine : world.disk.live (tempName world.pid name) = some file)
    (its : world.disk.live (tempName world.pid other) = some held) : held ≠ file := by
  rintro rfl
  have same := sound.files.tidy.apart _ _ held (tempName_temp world.pid other)
    (tempName_temp world.pid name) (its ▸ mayHold_live _) (mine ▸ mayHold_live _)
  exact apart (tempName_injective same)

/-- What a step of one call has to keep. -/
theorem sound_move (sound : Sound world) {disk : Disk Str (List UInt8)} {call : Option Call}
    {texts : Str → List (Option (List UInt8))} (files : Files disk texts)
    (mine : ∀ current, call = some current →
      Running { world.move disk name call with texts := texts } name current)
    (live : ∀ other, other ≠ name → Target other →
      disk.live (tempName world.pid other) = world.disk.live (tempName world.pid other))
    (kept : ∀ other, other ≠ name → Target other → ∀ file,
      world.disk.live (tempName world.pid other) = some file →
      disk.text file = world.disk.text file ∧ disk.dirty file = world.disk.dirty file)
    (newest : ∀ other, other ≠ name → (texts other).head? = (world.texts other).head?) :
    Sound { world.move disk name call with texts := texts } := by
  refine ⟨files, ?_⟩
  intro other current found
  change Function.update world.calls name call other = some current at found
  by_cases same : other = name
  · subst same
    rw [Function.update_self] at found
    exact mine current found
  · rw [Function.update_of_ne same] at found
    have running := sound.running other current found
    exact running_frame running rfl (live other same running.target)
      (kept other same running.target)
      (newest other same)

/-- A write to the file of a call. -/
theorem sound_write (sound : Sound world) {file : Nat}
    (own : world.disk.live (tempName world.pid name) = some file) (bytes : List UInt8)
    {call : Option Call}
    (mine : ∀ current, call = some current →
      Running (world.move (world.disk.write file bytes) name call) name current) :
    Sound (world.move (world.disk.write file bytes) name call) := by
  refine sound_move sound (files_write sound.files bytes fun goal target =>
    sound.files.tidy.free _ goal file (tempName_temp world.pid name) target own) mine
    (fun _ _ _ => rfl) ?_ fun _ _ => rfl
  intro other apart _ held its
  have distinct := files_apart sound apart own its
  exact ⟨Function.update_of_ne distinct _ _, Function.update_of_ne distinct _ _⟩

/-! A call that goes on, operation by operation. -/

section Operations

variable {bytes : List UInt8} {file : Nat}

theorem sound_written (sound : Sound world)
    (found : world.calls name = some ⟨bytes, .created file⟩) :
    Sound (world.move (world.disk.write file bytes) name (some ⟨bytes, .written file⟩)) := by
  have running := sound.running name _ found
  apply sound_write sound (running.own file rfl) bytes
  rintro current ⟨⟩
  refine ⟨running.target, ?_, ?_, ?_, fun same => by cases same⟩
  · rintro held ⟨⟩
    exact running.own file rfl
  · rintro held (same | same)
    · obtain rfl := Phase.written.inj same
      exact Function.update_self _ _ _
    · cases same
  · intro held same
    cases same

theorem sound_synced (sound : Sound world)
    (found : world.calls name = some ⟨bytes, .written file⟩) :
    Sound (world.move (world.disk.sync file) name (some ⟨bytes, .synced file⟩)) := by
  have running := sound.running name _ found
  have own := running.own file rfl
  refine sound_move sound (files_sync sound.files file) ?_ (fun _ _ _ => rfl) ?_ fun _ _ => rfl
  · rintro current ⟨⟩
    refine ⟨running.target, ?_, ?_, ?_, fun same => by cases same⟩
    · rintro held ⟨⟩
      exact own
    · rintro held (same | same)
      · cases same
      · obtain rfl := Phase.synced.inj same
        exact running.holds file (.inl rfl)
    · intro held same
      obtain rfl := Phase.synced.inj same
      exact Function.update_self _ _ _
  · intro other apart _ held its
    exact ⟨rfl, Function.update_of_ne (files_apart sound apart own its) _ _⟩

/-- The file gets its name, and the text is the newest of the register. -/
theorem sound_renamed (sound : Sound world)
    (found : world.calls name = some ⟨bytes, .synced file⟩) :
    Sound { world.move (world.disk.rename (tempName world.pid name) name) name
        (some ⟨bytes, .renamed⟩) with
      texts := Function.update world.texts name (some bytes :: world.texts name) } := by
  have running := sound.running name _ found
  have prepared := running.own file rfl
  have changed : world.disk.rename (tempName world.pid name) name =
      world.disk.change (.rename (tempName world.pid name) name file) := by
    rw [Disk.rename, prepared]
  have files := files_rename sound.files (tempName_temp world.pid name) running.target prepared
    (running.clean file rfl)
  -- the file was synced with the bytes of the call, which the register now begins with
  rw [running.holds file (.inr rfl)] at files
  refine sound_move sound files ?_ ?_ ?_ ?_
  · rintro current ⟨⟩
    refine ⟨running.target, ?_, ?_, ?_, fun _ => ?_⟩
    · intro held none
      cases none
    · rintro held (same | same) <;> cases same
    · intro held same
      cases same
    · change (Function.update world.texts name _ name).head? = _
      rw [Function.update_self]
      rfl
  · intro other apart target
    rw [changed, live_change, Change.sets, if_neg, if_neg, Option.getD_none]
    · exact fun same => tempName_temp world.pid other (same ▸ running.target)
    · exact fun same => apart (tempName_injective same)
  · intro other apart _ held its
    rw [changed]
    exact ⟨rfl, rfl⟩
  · intro other apart
    rw [Function.update_of_ne apart]

/-- The call returns, and nothing older than the text can come back. -/
theorem sound_returned (sound : Sound world) :
    Sound { world.move world.disk.syncDirectory name none with
      texts := fun other => (world.texts other).take 1 } := by
  refine sound_move sound (files_syncDirectory sound.files) (fun _ none => by cases none)
    (fun _ _ _ => rfl) (fun _ _ _ _ _ => ⟨rfl, rfl⟩) ?_
  intro other _
  rw [List.head?_take, if_neg Nat.one_ne_zero]

theorem sound_failed (sound : Sound world) {call : Call} (found : world.calls name = some call)
    (left : List UInt8) : Sound (world.move (call.phase.failed world.disk left) name none) := by
  have own := (sound.running name call found).own
  obtain ⟨bytes, phase⟩ := call
  cases phase with
  | created file => exact sound_write sound (own file rfl) left fun _ none => by cases none
  | written file | synced file | renamed =>
      exact sound_move sound sound.files (fun _ none => by cases none) (fun _ _ _ => rfl)
        (fun _ _ _ _ _ => ⟨rfl, rfl⟩) fun _ _ => rfl

end Operations

theorem sound_next (sound : Sound world) {call : Call} (found : world.calls name = some call)
    (act : Act) {after : World} (stepped : call.next world name act = some after) :
    Sound after := by
  obtain ⟨bytes, phase⟩ := call
  cases act with
  | create other bytes | restart pid | crash kept left pid => cases stepped
  | write other =>
      cases phase with
      | created file => exact Option.some.inj stepped ▸ sound_written sound found
      | written file | synced file | renamed => cases stepped
  | sync other =>
      cases phase with
      | written file => exact Option.some.inj stepped ▸ sound_synced sound found
      | created file | synced file | renamed => cases stepped
  | rename other =>
      cases phase with
      | synced file => exact Option.some.inj stepped ▸ sound_renamed sound found
      | created file | written file | renamed => cases stepped
  | syncDirectory other =>
      cases phase with
      | renamed => exact Option.some.inj stepped ▸ sound_returned sound
      | created file | written file | synced file => cases stepped
  | fail other left => exact Option.some.inj stepped ▸ sound_failed sound found left

theorem sound_create (sound : Sound world) (target : Target name) (bytes : List UInt8) :
    Sound (world.move (world.disk.create (tempName world.pid name) []).1 name
      (some ⟨bytes, .created (world.disk.create (tempName world.pid name) []).2⟩)) := by
  refine sound_move sound (files_create sound.files (tempName_temp world.pid name)) ?_ ?_ ?_
    fun _ _ => rfl
  · rintro current ⟨⟩
    refine ⟨target, ?_, ?_, fun _ same => (by cases same), fun same => (by cases same)⟩
    · rintro held ⟨⟩
      exact live_create world.disk _ _
    · rintro held (same | same) <;> cases same
  · exact fun other apart _ => live_create_of_ne (fun same => apart (tempName_injective same)) []
  · intro other apart _ held its
    apply create_frame
    rintro rfl
    have mine := live_create world.disk (tempName world.pid name) []
    unfold Disk.create at its mine
    cases there : world.disk.live (tempName world.pid name) with
    | some file =>
        rw [there] at its
        exact files_apart sound apart there its rfl
    | none =>
        rw [there] at its
        exact Nat.lt_irrefl _ (sound.files.tidy.bound _ _ (its ▸ mayHold_live _))

/-- One case for each operation. -/
theorem sound_step (sound : Sound world) (act : Act) (meets : Meets world act) {after : World}
    (stepped : step world act = some after) : Sound after := by
  cases act with
  | create name bytes =>
      cases found : world.calls name with
      | some call => simp [step, found] at stepped
      | none =>
          simp only [step, found, Option.some.injEq] at stepped
          exact stepped ▸ sound_create sound meets bytes
  | restart pid =>
      obtain rfl := Option.some.inj stepped
      exact ⟨sound.files, fun _ _ none => by cases none⟩
  | crash kept left pid =>
      obtain rfl := Option.some.inj stepped
      exact ⟨files_crash sound.files left meets, fun _ _ none => by cases none⟩
  | write name | sync name | rename name | syncDirectory name | fail name left =>
      obtain ⟨call, found, next⟩ := Option.bind_eq_some_iff.mp stepped
      exact sound_next sound found _ next

theorem sound_start (settled : disk.Settled) (pid : Nat) : Sound (World.start disk pid) := by
  refine ⟨⟨tidy_settled settled, ?_, fun _ _ file _ => settled.clean file, fun _ _ => rfl⟩,
    fun _ _ none => by cases none⟩
  intro name target held there
  rw [mayHold_settled settled |>.mp there, ← live_settled settled]
  exact List.mem_singleton_self _

theorem sound_reaches (sound : Sound world) {after : World}
    (path : Reaches step Meets world after) :
    Sound after := by
  apply reaches_invariant Sound sound _ path
  exact fun _ act _ sound meets stepped => sound_step sound act meets stepped

/-- No rename of this file. -/
def Leaves (name : Str) (world : World) (act : Act) : Prop :=
  Meets world act ∧ act ≠ .rename name

/-- A register of one text keeps it until the file is replaced again. -/
theorem texts_kept (sound : Sound world) (target : Target name) {text : Option (List UInt8)}
    (only : world.texts name = [text]) {act : Act} (leaves : Leaves name world act) {after : World}
    (stepped : step world act = some after) : after.texts name = [text] := by
  cases act with
  | create other bytes =>
      cases found : world.calls other with
      | some call => simp [step, found] at stepped
      | none =>
          simp only [step, found, Option.some.injEq] at stepped
          exact stepped ▸ only
  | restart pid =>
      obtain rfl := Option.some.inj stepped
      exact only
  | crash kept left pid =>
      obtain rfl := Option.some.inj stepped
      have reads := crash_reads sound.files left leaves.1 target
      rw [only] at reads
      exact congrArg (fun read => [read]) (List.mem_singleton.mp reads)
  | write other | sync other | rename other | syncDirectory other | fail other left =>
      obtain ⟨⟨bytes, phase⟩, found, next⟩ := Option.bind_eq_some_iff.mp stepped
      cases phase <;> simp only [Call.next, Option.some.injEq, reduceCtorEq] at next
      all_goals
        subst next
        first
        | exact only
        | exact congrArg (List.take 1) only
        | exact (Function.update_of_ne (fun same => leaves.2 (congrArg Act.rename same.symm)) _
            _).trans only

/-- In every run every file is found whole: it reads as the newest text of its register, and
after a crash as one of them. Once the directory was synced behind the rename of a call, the
file holds that call's bytes, whatever crashes come, until it is replaced again. -/
theorem files_found_whole (settled : disk.Settled) {pid : Nat} {world : World}
    (path : Reaches step Meets (World.start disk pid) world) {name : Str} (target : Target name) :
    (world.texts name).head? = some (world.disk.read name) ∧
    (∀ kept left, kept.Sublist world.disk.pending →
      (world.disk.crash kept left).read name ∈ world.texts name) ∧
    ∀ call synced, world.calls name = some call →
      step world (.syncDirectory name) = some synced →
      ∀ later, Reaches step (Leaves name) synced later →
        later.disk.read name = some call.bytes := by
  have sound := sound_reaches (sound_start settled pid) path
  refine ⟨sound.files.newest name target,
    fun kept left part => crash_reads sound.files left part target, ?_⟩
  intro call synced found stepped later after
  have running := sound.running name call found
  have soundAfter := sound_step sound (.syncDirectory name) trivial stepped
  have only : synced.texts name = [some call.bytes] := by
    obtain ⟨bytes, phase⟩ := call
    simp only [step, found, Option.bind_eq_bind, Option.bind_some] at stepped
    cases phase with
    | renamed =>
        obtain rfl := Option.some.inj stepped
        have newest := running.renamed rfl
        change (world.texts name).take 1 = _
        rw [List.take_one, newest]
        rfl
    | created file | written file | synced file => cases stepped
  have kept : Sound later ∧ later.texts name = [some call.bytes] := by
    apply reaches_invariant (fun world => Sound world ∧ world.texts name = [some call.bytes])
      ⟨soundAfter, only⟩ _ after
    rintro before act next ⟨sound, only⟩ leaves stepped
    exact ⟨sound_step sound act leaves.1 stepped, texts_kept sound target only leaves stepped⟩
  have newest := kept.1.files.newest name target
  rw [kept.2] at newest
  exact (Option.some.inj newest).symm

instance (name : Str) : Decidable (Target name) := inferInstanceAs (Decidable (¬ _))

instance (world : World) : (act : Act) → Decidable (Meets world act)
  | .create name _ => inferInstanceAs (Decidable (Target name))
  | .crash kept _ _ => inferInstanceAs (Decidable (kept.Sublist world.disk.pending))
  | .write _ | .sync _ | .rename _ | .syncDirectory _ | .fail _ _ | .restart _ =>
      inferInstanceAs (Decidable True)

def oneFile : Disk Str (List UInt8) :=
  ⟨fun name => if name = "vote".toList then some 0 else none, [], fun _ => [1],
    fun _ => false, 1⟩

theorem oneFile_settled : oneFile.Settled := by
  have named (name : Str) (file : Nat) (held : oneFile.synced name = some file) :
      name = "vote".toList ∧ 0 = file := by
    simpa [oneFile] using held
  refine ⟨rfl, ?_, ?_, fun _ => rfl⟩
  · intro name file held
    exact (named name file held).2 ▸ Nat.zero_lt_one
  · intro name other file first second
    exact (named name file first).1.trans (named other file second).1.symm

/-- A sync that fails, a crash that loses the new name, and a second try up to its rename. -/
def secondTry : List Act :=
  [.create "vote".toList [2], .write "vote".toList, .fail "vote".toList [],
    .crash [] (fun _ => [9]) 8,
    .create "vote".toList [2], .write "vote".toList, .sync "vote".toList, .rename "vote".toList]

theorem files_found_whole_second : ∃ world, Reaches step Meets (World.start oneFile 7) world ∧
    ∀ kept left, kept.Sublist world.disk.pending →
      (world.disk.crash kept left).read "vote".toList ∈ [some [2], some [1]] := by
  have played : (Transition.play step Meets (World.start oneFile 7) secondTry).map
      (fun world => world.texts "vote".toList == [some [2], some [1]]) = some true := by
        decide +kernel
  obtain ⟨world, path, texts⟩ := play_exhibits played
  refine ⟨world, path, ?_⟩
  rw [← beq_iff_eq.mp texts]
  exact (files_found_whole oneFile_settled path (by decide +kernel)).2.1

/-! ### The files of the store -/

open RaftStore StateMachine

variable {Members Hard : Type}

def fileName : File → Str
  | .stateMachine => "state_machine.json".toList
  | .membership => "membership.json".toList
  | .snapshot => "snapshot.json".toList
  | .hardState => "hard_state.json".toList

theorem fileName_target (file : File) : Target (fileName file) := by
  cases file <;> decide +kernel

theorem fileName_injective {file other : File} (same : fileName file = fileName other) :
    file = other := by
  cases file <;> cases other <;> first | rfl | exact absurd same (by decide +kernel)

/-- `serde_json` of the four values. -/
structure JsonFiles (Members Hard : Type) where
  hardState : Hard → List UInt8
  readHardState : List UInt8 → Option Hard
  stateMachine : KvStateMachine → List UInt8
  readStateMachine : List UInt8 → Option KvStateMachine
  membership : Option Nat × Option (Nat × Members) → List UInt8
  readMembership : List UInt8 → Option (Option Nat × Option (Nat × Members))
  snapshot : StoredSnapshot Members → List UInt8
  readSnapshot : List UInt8 → Option (StoredSnapshot Members)

/-- The values of this state read back from their texts. -/
structure JsonFiles.Faithful (json : JsonFiles Members Hard)
    (inner : RaftStore.Inner Members Hard) :
    Prop where
  hardState : json.readHardState (json.hardState inner.hardState) = some inner.hardState
  stateMachine : json.readStateMachine (json.stateMachine inner.stateMachine) =
    some inner.stateMachine
  membership : json.readMembership (json.membership (inner.lastAppliedLog, inner.lastMembership)) =
    some (inner.lastAppliedLog, inner.lastMembership)
  snapshot : ∀ snapshot, inner.snapshot = some snapshot →
    json.readSnapshot (json.snapshot snapshot) = some snapshot

/-- What `persist_*` writes to a file. -/
def JsonFiles.text (json : JsonFiles Members Hard) (inner : RaftStore.Inner Members Hard) :
    File → Option (List UInt8)
  | .stateMachine => some (json.stateMachine inner.stateMachine)
  | .membership => some (json.membership (inner.lastAppliedLog, inner.lastMembership))
  | .snapshot => inner.snapshot.map json.snapshot
  | .hardState => some (json.hardState inner.hardState)

/-- What `new_persistent` reads. -/
def JsonFiles.load (json : JsonFiles Members Hard) (read : File → Option (List UInt8)) :
    RaftStore.Disk Members Hard where
  hardState := (read .hardState).bind json.readHardState
  stateMachine := (read .stateMachine).bind json.readStateMachine
  membership := (read .membership).bind json.readMembership
  snapshot := (read .snapshot).bind json.readSnapshot

variable {json : JsonFiles Members Hard} {inner : RaftStore.Inner Members Hard}

/-- Every write is the abstract one. -/
theorem load_written (faithful : json.Faithful inner) {file : File} {text : List UInt8}
    (writes : json.text inner file = some text) {before after : File → Option (List UInt8)}
    (written : after file = some text)
    (others : ∀ other, other ≠ file → after other = before other) :
    json.load after = persist inner (json.load before) file := by
  cases file with
  | stateMachine =>
      obtain rfl := Option.some.inj writes
      simp [JsonFiles.load, persist, written, others, faithful.stateMachine]
  | membership =>
      obtain rfl := Option.some.inj writes
      simp [JsonFiles.load, persist, written, others, faithful.membership]
  | snapshot =>
      obtain ⟨snapshot, found, rfl⟩ := Option.map_eq_some_iff.mp writes
      simp [JsonFiles.load, persist, written, others, found, faithful.snapshot snapshot found]
  | hardState =>
      obtain rfl := Option.some.inj writes
      simp [JsonFiles.load, persist, written, others, faithful.hardState]

theorem persist_unwritten {file : File} (writes : json.text inner file = none)
    (disk : RaftStore.Disk Members Hard) : persist inner disk file = disk := by
  cases file with
  | snapshot =>
      rw [persist, Option.map_eq_none_iff.mp writes]
  | stateMachine | membership | hardState => cases writes

/-- One call in which nothing fails. -/
def fileActs (name : Str) (bytes : List UInt8) : List Act :=
  [.create name bytes, .write name, .sync name, .rename name, .syncDirectory name]

def persistActs (json : JsonFiles Members Hard) (inner : RaftStore.Inner Members Hard)
    (files : List File) : List Act :=
  files.flatMap fun file => (json.text inner file).elim [] (fileActs (fileName file))

/-- No call is running, and of every file of the store one text is left. -/
structure Holds (content : File → Option (List UInt8)) (world : World) : Prop where
  sound : Sound world
  idle : ∀ name, world.calls name = none
  texts : ∀ file, world.texts (fileName file) = [content file]

/-- A file may be replaced already. -/
structure Replacing (file : File) (text : List UInt8) (content : File → Option (List UInt8))
    (world : World) :
    Prop where
  sound : Sound world
  others : ∀ other, other ≠ file → world.texts (fileName other) = [content other]
  mine : ∀ held ∈ world.texts (fileName file), held = content file ∨ held = some text
  bytes : ∀ call, world.calls (fileName file) = some call → call.bytes = text

theorem replacing_step {file : File} {text : List UInt8} {content : File → Option (List UInt8)}
    (replacing : Replacing file text content world) {act : Act}
    (own : act ∈ fileActs (fileName file) text)
    {after : World} (stepped : step world act = some after) :
    Replacing file text content after := by
  have meets : Meets world act := by
    simp only [fileActs, List.mem_cons, List.not_mem_nil, or_false] at own
    rcases own with rfl | rfl | rfl | rfl | rfl
    · exact fileName_target file
    all_goals trivial
  have mine : (∀ held ∈ after.texts (fileName file), held = content file ∨
      held = some text) ∧
      ∀ call, after.calls (fileName file) = some call → call.bytes = text := by
    simp only [fileActs, List.mem_cons, List.not_mem_nil, or_false] at own
    rcases own with rfl | own
    · cases found : world.calls (fileName file) with
      | some call => simp [step, found] at stepped
      | none =>
          simp only [step, found, Option.some.injEq] at stepped
          subst stepped
          refine ⟨replacing.mine, ?_⟩
          intro call now
          simp only [World.move, Function.update_self, Option.some.injEq] at now
          exact now ▸ rfl
    · have moved : ∃ call, world.calls (fileName file) = some call ∧
          call.next world (fileName file) act = some after := by
        rcases own with rfl | rfl | rfl | rfl <;> exact Option.bind_eq_some_iff.mp stepped
      obtain ⟨⟨bytes, phase⟩, found, next⟩ := moved
      obtain rfl := replacing.bytes ⟨bytes, phase⟩ found
      rcases own with rfl | rfl | rfl | rfl <;> cases phase <;>
        simp only [Call.next, reduceCtorEq, Option.some.injEq] at next <;> subst next
      · exact ⟨replacing.mine, by simp [World.move]⟩
      · exact ⟨replacing.mine, by simp [World.move]⟩
      · refine ⟨?_, by simp [World.move]⟩
        simp only [Function.update_self, List.mem_cons, forall_eq_or_imp, or_true, true_and]
        exact replacing.mine
      · exact ⟨fun held member => replacing.mine held (List.mem_of_mem_take member),
          by simp [World.move]⟩
  refine ⟨sound_step replacing.sound act meets stepped, ?_, mine.1, mine.2⟩
  intro other apart
  refine texts_kept replacing.sound (fileName_target other) (replacing.others other apart)
    ⟨meets, ?_⟩ stepped
  rintro rfl
  simp only [fileActs, List.mem_cons, List.not_mem_nil, or_false, reduceCtorEq, false_or,
    Act.rename.injEq]
    at own
  exact apart (fileName_injective own)

def performAll (world : World) (acts : List Act) : Option World := acts.foldlM step world

/-- A crash within a call leaves the old file or the new one. -/
theorem replacing_performAll {file : File} {text : List UInt8}
    {content : File → Option (List UInt8)}
    (replacing : Replacing file text content world) {acts : List Act}
    (own : ∀ act ∈ acts, act ∈ fileActs (fileName file) text) {after : World}
    (played : performAll world acts = some after) : Replacing file text content after := by
  induction acts generalizing world with
  | nil => exact Option.some.inj played ▸ replacing
  | cons act rest ih =>
      obtain ⟨middle, stepped, more⟩ := Option.bind_eq_some_iff.mp played
      exact ih (replacing_step replacing (own act List.mem_cons_self) stepped)
        (fun act member => own act (List.mem_cons_of_mem _ member)) more

theorem crash_replacing (faithful : json.Faithful inner) {file : File} {text : List UInt8}
    {content : File → Option (List UInt8)} (writes : json.text inner file = some text)
    (replacing : Replacing file text content world) {kept : List (Change Str)}
    (left : Nat → List UInt8)
    (part : kept.Sublist world.disk.pending) :
    json.load (fun file => (world.disk.crash kept left).read (fileName file)) =
      json.load content ∨
      json.load (fun file => (world.disk.crash kept left).read (fileName file)) =
        persist inner (json.load content) file := by
  have reads (other : File) := crash_reads replacing.sound.files left part (fileName_target other)
  have others (other : File) (apart : other ≠ file) :
      (world.disk.crash kept left).read (fileName other) = content other := by
    have read := reads other
    rw [replacing.others other apart] at read
    exact List.mem_singleton.mp read
  rcases replacing.mine _ (reads file) with old | new
  · left
    congr 1
    funext other
    by_cases same : other = file
    · rw [same, old]
    · exact others other same
  · right
    exact load_written faithful writes new others

theorem replacing_of_holds {content : File → Option (List UInt8)} (holds : Holds content world)
    (file : File)
    (text : List UInt8) : Replacing file text content world where
  sound := holds.sound
  others other _ := holds.texts other
  mine held member := .inl (List.mem_singleton.mp (holds.texts file ▸ member))
  bytes call found := by rw [holds.idle] at found; cases found

theorem performAll_append {world after : World} {first second : List Act}
    (played : performAll world (first ++ second) = some after) :
    ∃ middle, performAll world first = some middle ∧ performAll middle second = some after := by
  rw [performAll, List.foldlM_append] at played
  exact Option.bind_eq_some_iff.mp played

/-- A call in which nothing fails. -/
theorem holds_call {content : File → Option (List UInt8)} (holds : Holds content world)
    {file : File}
    {text : List UInt8} {after : World}
    (played : performAll world (fileActs (fileName file) text) = some after) :
    ∃ content', Holds content' after ∧ content' file = some text ∧
      ∀ other, other ≠ file → content' other = content other := by
  have replaced :=
    replacing_performAll (replacing_of_holds holds file text) (fun _ own => own) played
  have ended : (∀ name, after.calls name = none) ∧
      after.texts (fileName file) = [some text] := by
    simp only [performAll, fileActs, List.foldlM_cons, step, holds.idle, World.move, Call.next,
      Option.bind_eq_bind, List.foldlM_nil, Option.pure_def, Option.bind_fun_some, Option.bind_some,
      Function.update_self, Function.update_idem, Option.some.injEq] at played
    subst played
    constructor
    · intro name
      change Function.update world.calls (fileName file) none name = none
      by_cases same : name = fileName file
      · rw [same, Function.update_self]
      · rw [Function.update_of_ne same, holds.idle]
    · change List.take 1 (Function.update world.texts (fileName file) _ (fileName file)) = _
      rw [Function.update_self]
      rfl
  have reads (other : File) : (after.texts (fileName other)).head? =
      some (after.disk.read (fileName other)) :=
    replaced.sound.files.newest _ (fileName_target other)
  have mine := reads file
  rw [ended.2] at mine
  have others (other : File) (apart : other ≠ file) :
      after.disk.read (fileName other) = content other := by
    have newest := reads other
    rw [replaced.others other apart] at newest
    exact (Option.some.inj newest).symm
  refine ⟨fun other => after.disk.read (fileName other), ⟨replaced.sound, ended.1, ?_⟩,
    (Option.some.inj mine).symm, others⟩
  intro other
  by_cases same : other = file
  · rw [same, ended.2, ← Option.some.inj mine]
  · rw [replaced.others other same, others other same]

/-- By induction on the files: the crash is within the call for the first one or after it. -/
theorem holds_crash (faithful : json.Faithful inner) {files : List File}
    {content : File → Option (List UInt8)} (holds : Holds content world) {count : Nat}
    {after : World}
    (played : performAll world ((persistActs json inner files).take count) = some after)
    {kept : List (Change Str)} (part : kept.Sublist after.disk.pending)
    (left : Nat → List UInt8) :
    ∃ done, json.load (fun file => (after.disk.crash kept left).read (fileName file)) =
      persistAll inner (json.load content) (files.take done) := by
  induction files generalizing world content count with
  | nil =>
      rw [persistActs, List.flatMap_nil, List.take_nil] at played
      obtain rfl := Option.some.inj played
      refine ⟨0, congrArg json.load (funext fun file => ?_)⟩
      have read := crash_reads holds.sound.files left part (fileName_target file)
      rw [holds.texts] at read
      exact List.mem_singleton.mp read
  | cons file rest ih =>
      cases writes : json.text inner file with
      | none =>
          have acts : persistActs json inner (file :: rest) = persistActs json inner rest := by
            rw [persistActs, List.flatMap_cons, writes]
            rfl
          obtain ⟨done, loads⟩ := ih holds (acts ▸ played)
          refine ⟨done + 1, ?_⟩
          rw [loads, List.take_succ_cons, persistAll, persistAll, List.foldl_cons,
            persist_unwritten writes]
      | some text =>
          have acts : persistActs json inner (file :: rest) =
              fileActs (fileName file) text ++ persistActs json inner rest := by
            rw [persistActs, List.flatMap_cons, writes]
            rfl
          rw [acts, List.take_append] at played
          obtain ⟨middle, first, second⟩ := performAll_append played
          rcases Nat.lt_or_ge count (fileActs (fileName file) text).length with within | complete
          · rw [Nat.sub_eq_zero_of_le within.le, List.take_zero] at second
            obtain rfl := Option.some.inj second
            have replacing := replacing_performAll (replacing_of_holds holds file text)
              (fun _ own => List.mem_of_mem_take own) first
            rcases crash_replacing faithful writes replacing left part with old | new
            · exact ⟨0, old⟩
            · exact ⟨1, new⟩
          · rw [List.take_of_length_le complete] at first
            obtain ⟨content', holds', written, others⟩ := holds_call holds first
            obtain ⟨done, loads⟩ := ih holds' second
            refine ⟨done + 1, ?_⟩
            rw [loads, load_written faithful writes written others]
            rfl

/-- A crash after any number of the operations with which the store persists files leaves
what the abstract store does: the first of the files written, each as a whole, and no other;
as long as no earlier sync of the directory failed since the files were replaced. -/
theorem crash_persists (faithful : json.Faithful inner) (settled : disk.Settled) {pid : Nat}
    (path : Reaches step Meets (World.start disk pid) world)
    (idle : ∀ name, world.calls name = none)
    {content : File → Option (List UInt8)}
    (synced : ∀ file, world.texts (fileName file) = [content file])
    {files : List File} {count : Nat} {after : World}
    (played : performAll world ((persistActs json inner files).take count) = some after)
    {kept : List (Change Str)} (part : kept.Sublist after.disk.pending)
    (left : Nat → List UInt8) :
    ∃ done, json.load (fun file => (after.disk.crash kept left).read (fileName file)) =
      persistAll inner (json.load content) (files.take done) :=
  holds_crash faithful ⟨sound_reaches (sound_start settled pid) path, idle, synced⟩
    played part left

def emptyDisk : CrashDisk.Disk Str (List UInt8) :=
  ⟨fun _ => none, [], fun _ => [], fun _ => false, 0⟩

theorem emptyDisk_settled : emptyDisk.Settled :=
  ⟨rfl, fun _ _ none => (by cases none), fun _ _ _ none _ => (by cases none), fun _ => rfl⟩

/-! ### A node that wrote its first key -/

structure Vote where
  term : Nat
  nodeId : Nat
  committed : Bool
  deriving DecidableEq

structure PersistedHardState where
  vote : Option Vote
  committed : Option Nat
  deriving DecidableEq

structure Membership where
  configs : List (List Nat)
  nodes : List (Nat × Str)
  deriving DecidableEq

def soleVote : PersistedHardState := ⟨some ⟨1, 1, true⟩, some 2⟩

def soleMembership : Membership := ⟨[[1]], [(1, "10.0.0.1:5010".toList)]⟩

def initializeKey : Request :=
  .set "/service/c/initialize" "7341" none (some false) none none 1000

/-- The bootstrap of a cluster of one node, its election, and the key it initializes. -/
def soleNode : RaftStore.Inner Membership PersistedHardState :=
  applyToStateMachine 0 (.initial soleVote)
    [(0, .membership soleMembership), (1, .blank), (2, .normal initializeKey (by decide))]

def hardStateText : String :=
  "\x7b\"vote\":\x7b\"leader_id\":\x7b\"term\":1,\"node_id\":1\x7d,\"committed\":true\x7d," ++
  "\"committed\":\x7b\"leader_id\":\x7b\"term\":1,\"node_id\":1\x7d,\"index\":2\x7d\x7d"

def stateMachineText : String :=
  "\x7b\n  \"data\": \x7b\n    \"/service/c/initialize\": \x7b\n      \"value\": \"7341\",\n" ++
  "      \"created_at\": 1000,\n      \"updated_at\": 1000,\n      \"expire_at\": null,\n" ++
  "      \"version\": 2\n    \x7d\n  \x7d,\n  \"last_applied_log\": 2\n\x7d"

def membershipText : String :=
  "\x7b\"last_applied_log\":\x7b\"leader_id\":\x7b\"term\":1,\"node_id\":1\x7d,\"index\":2\x7d," ++
  "\"last_membership\":\x7b\"log_id\":\x7b\"leader_id\":\x7b\"term\":0,\"node_id\":0\x7d," ++
  "\"index\":0\x7d,\"membership\":\x7b\"configs\":[[1]]," ++
  "\"nodes\":\x7b\"1\":\x7b\"addr\":\"10.0.0.1:5010\"\x7d\x7d\x7d\x7d\x7d"

def asBytes (text : String) : List UInt8 := text.toUTF8.data.toList

/-- The texts of this node's values, and what is read from them. -/
def soleFiles : JsonFiles Membership PersistedHardState where
  hardState hard := if hard = soleVote then asBytes hardStateText else []
  readHardState bytes := if bytes = asBytes hardStateText then some soleVote else none
  stateMachine machine := if machine.lastAppliedLog = 2 then asBytes stateMachineText else []
  readStateMachine bytes :=
    if bytes = asBytes stateMachineText then some soleNode.stateMachine else none
  membership value :=
    if value = (some 2, some (0, soleMembership)) then asBytes membershipText else []
  readMembership bytes :=
    if bytes = asBytes membershipText then some (some 2, some (0, soleMembership)) else none
  snapshot _ := []
  readSnapshot _ := none

theorem soleFiles_faithful : soleFiles.Faithful soleNode := by
  have hard : soleNode.hardState = soleVote := rfl
  have machine : soleNode.stateMachine.lastAppliedLog = 2 := rfl
  have member : (soleNode.lastAppliedLog, soleNode.lastMembership) =
    (some 2, some (0, soleMembership)) := rfl
  constructor
  · rw [hard]
    simp only [soleFiles, if_true]
  · simp only [soleFiles, machine, if_true]
  · rw [member]
    simp only [soleFiles, if_true]
  · intro snapshot none
    cases none

/-- Both files of the apply, but for the last sync of the directory. -/
theorem crash_persists_apply : ∃ after,
    performAll (World.start emptyDisk 7)
      ((persistActs soleFiles soleNode [.stateMachine, .membership]).take 9) = some after ∧
    ∀ kept : List (Change Str), kept.Sublist after.disk.pending → ∀ left, ∃ done,
      soleFiles.load (fun file => (after.disk.crash kept left).read (fileName file)) =
        persistAll soleNode (soleFiles.load fun _ => none)
          ([.stateMachine, .membership].take done) := by
  have runs : (performAll (World.start emptyDisk 7)
      ((persistActs soleFiles soleNode [.stateMachine, .membership]).take 9)).isSome = true := by
    decide +kernel
  obtain ⟨after, played⟩ := Option.isSome_iff_exists.mp runs
  exact ⟨after, played, fun kept part left =>
    crash_persists soleFiles_faithful emptyDisk_settled .refl (fun _ => rfl) (fun _ => rfl)
      played part
      left⟩

end PgHa.AtomicWrite
