import Mathlib.Data.List.Basic

/-!
A directory on a disk behind a cache. A change of the directory is whole: a crash keeps some
of the changes since the directory was last synced, in their order, and loses the others. Of
a file that was not synced since it was written a crash may leave anything.
-/

namespace PgHa.CrashDisk

variable {Name Text : Type} [DecidableEq Name]

abbrev Directory (Name : Type) := Name → Option Nat

inductive Change (Name : Type) where
  | link (name : Name) (file : Nat)
  | rename (source target : Name) (file : Nat)
  | unlink (name : Name)
  deriving DecidableEq

/-- What a change makes of a name, if it is about it. -/
def Change.sets (name : Name) : Change Name → Option (Option Nat)
  | .link other file => if name = other then some (some file) else none
  | .rename source target file =>
      if name = source then some none else if name = target then some (some file) else none
  | .unlink other => if name = other then some none else none

def Change.apply (directory : Directory Name) (change : Change Name) : Directory Name :=
  fun name => (change.sets name).getD (directory name)

structure Disk (Name Text : Type) where
  synced : Directory Name
  pending : List (Change Name)
  text : Nat → Text
  dirty : Nat → Bool
  next : Nat

/-- The directory as programs see it. -/
def Disk.live (disk : Disk Name Text) : Directory Name :=
  disk.pending.foldl Change.apply disk.synced

def Disk.read (disk : Disk Name Text) (name : Name) : Option Text := (disk.live name).map disk.text

def Disk.change (disk : Disk Name Text) (change : Change Name) : Disk Name Text :=
  { disk with pending := disk.pending ++ [change] }

def Disk.write (disk : Disk Name Text) (file : Nat) (text : Text) : Disk Name Text :=
  { disk with
    text := Function.update disk.text file text
    dirty := Function.update disk.dirty file true }

/-- A new file of this name. -/
def Disk.link (disk : Disk Name Text) (name : Name) : Disk Name Text :=
  { disk.change (.link name disk.next) with next := disk.next + 1 }

/-- Create the file of this name or empty it. -/
def Disk.create (disk : Disk Name Text) (name : Name) (empty : Text) : Disk Name Text × Nat :=
  match disk.live name with
  | some file => (disk.write file empty, file)
  | none => ((disk.write disk.next empty).link name, disk.next)

def Disk.sync (disk : Disk Name Text) (file : Nat) : Disk Name Text :=
  { disk with dirty := Function.update disk.dirty file false }

def Disk.syncDirectory (disk : Disk Name Text) : Disk Name Text :=
  { disk with synced := disk.live, pending := [] }

def Disk.rename (disk : Disk Name Text) (source target : Name) : Disk Name Text :=
  match disk.live source with
  | some file => disk.change (.rename source target file)
  | none => disk

/-- The changes that are kept, and what is left of the files that were not synced. -/
def Disk.crash (disk : Disk Name Text) (kept : List (Change Name)) (left : Nat → Text) :
    Disk Name Text :=
  { disk with
    synced := kept.foldl Change.apply disk.synced
    pending := []
    text := fun file => if disk.dirty file then left file else disk.text file
    dirty := fun _ => false }

/-- A crash may leave the name so. -/
def Disk.MayHold (disk : Disk Name Text) (name : Name) (file : Option Nat) : Prop :=
  file = disk.synced name ∨ ∃ change ∈ disk.pending, change.sets name = some file

variable {disk : Disk Name Text} {name : Name} {file : Option Nat}

/-- By induction on the changes: the last one about the name decides. -/
theorem foldl_sets (changes : List (Change Name)) (directory : Directory Name) (name : Name) :
    changes.foldl Change.apply directory name = directory name ∨
      ∃ change ∈ changes, change.sets name =
        some (changes.foldl Change.apply directory name) := by
  induction changes generalizing directory with
  | nil => exact .inl rfl
  | cons first rest ih =>
      rcases ih (first.apply directory) with kept | ⟨change, member, sets⟩
      · rw [List.foldl_cons, kept]
        cases about : first.sets name with
        | none => exact .inl (by rw [Change.apply, about, Option.getD_none])
        | some held =>
            exact .inr ⟨first, List.mem_cons_self,
              by rw [about, Change.apply, about, Option.getD_some]⟩
      · exact .inr ⟨change, List.mem_cons_of_mem first member, sets⟩

theorem mayHold_kept {kept : List (Change Name)} (part : kept.Sublist disk.pending) (name : Name) :
    disk.MayHold name (kept.foldl Change.apply disk.synced name) := by
  rcases foldl_sets kept disk.synced name with same | ⟨change, member, sets⟩
  · exact .inl same
  · exact .inr ⟨change, part.subset member, sets⟩

theorem mayHold_live (name : Name) : disk.MayHold name (disk.live name) :=
  mayHold_kept (List.Sublist.refl disk.pending) name

theorem live_change (change : Change Name) (name : Name) :
    (disk.change change).live name = (change.sets name).getD (disk.live name) := by
  rw [Disk.live, Disk.change, List.foldl_append]
  rfl

theorem mayHold_change {change : Change Name} :
    (disk.change change).MayHold name file ↔ disk.MayHold name file ∨
      change.sets name = some file := by
  simp only [Disk.MayHold, Disk.change, List.mem_append, List.mem_singleton, or_and_right,
    exists_or,
    exists_eq_left, or_assoc]

theorem mayHold_link {other : Name} : (disk.link name).MayHold other file ↔
    disk.MayHold other file ∨ (other = name ∧ file = some disk.next) := by
  have changed : (disk.change (.link name disk.next)).MayHold other file ↔ _ := mayHold_change
  refine Iff.trans changed (or_congr_right ?_)
  simp only [Change.sets, Option.ite_none_right_eq_some, Option.some.injEq, eq_comm (b := file)]

theorem mayHold_syncDirectory : disk.syncDirectory.MayHold name file ↔ file = disk.live name := by
  simp [Disk.MayHold, Disk.syncDirectory]

theorem mayHold_crash {kept : List (Change Name)} {left : Nat → Text} :
    (disk.crash kept left).MayHold name file ↔
      file = kept.foldl Change.apply disk.synced name := by
  simp [Disk.MayHold, Disk.crash]

/-- A crash leaves, under a name, a file that the name might stand for. -/
theorem read_crash {kept : List (Change Name)} {left : Nat → Text}
    (part : kept.Sublist disk.pending)
    (clean : ∀ file, disk.MayHold name (some file) → disk.dirty file = false) :
    ∃ file, disk.MayHold name file ∧ (disk.crash kept left).read name = file.map disk.text := by
  refine ⟨kept.foldl Change.apply disk.synced name, mayHold_kept part name, ?_⟩
  change (kept.foldl Change.apply disk.synced name).map _ = _
  cases held : kept.foldl Change.apply disk.synced name with
  | none => rfl
  | some file =>
      have synced := clean file (held ▸ mayHold_kept part name)
      simp [Disk.crash, synced]

theorem live_create (disk : Disk Name Text) (name : Name) (empty : Text) :
    (disk.create name empty).1.live name = some (disk.create name empty).2 := by
  unfold Disk.create
  cases there : disk.live name with
  | some file => exact there
  | none =>
      have changed : ((disk.write disk.next empty).change (.link name disk.next)).live name = _ :=
        live_change _ name
      rw [Change.sets, if_pos rfl, Option.getD_some] at changed
      exact changed

theorem live_create_of_ne {other : Name} (apart : other ≠ name) (empty : Text) :
    (disk.create name empty).1.live other = disk.live other := by
  unfold Disk.create
  cases disk.live name with
  | some file => rfl
  | none =>
      have changed : ((disk.write disk.next empty).change (.link name disk.next)).live other = _ :=
        live_change _ other
      rw [Change.sets, if_neg apart, Option.getD_none] at changed
      exact changed

/-- Only the file that is created or emptied is written. -/
theorem create_frame {held : Nat} {empty : Text} (apart : held ≠ (disk.create name empty).2) :
    (disk.create name empty).1.text held = disk.text held ∧
      (disk.create name empty).1.dirty held = disk.dirty held := by
  unfold Disk.create at apart ⊢
  cases there : disk.live name with
  | some file =>
      rw [there] at apart
      exact ⟨Function.update_of_ne apart _ _, Function.update_of_ne apart _ _⟩
  | none =>
      rw [there] at apart
      exact ⟨Function.update_of_ne apart _ _, Function.update_of_ne apart _ _⟩

/-- Everything is on the disk, and no file has two names. -/
structure Disk.Settled (disk : Disk Name Text) : Prop where
  pending : disk.pending = []
  bound : ∀ name file, disk.synced name = some file → file < disk.next
  apart : ∀ name other file, disk.synced name = some file → disk.synced other = some file →
    name = other
  clean : ∀ file, disk.dirty file = false

theorem mayHold_settled (settled : disk.Settled) : disk.MayHold name file ↔
    file = disk.synced name := by
  simp [Disk.MayHold, settled.pending]

theorem live_settled (settled : disk.Settled) : disk.live = disk.synced := by
  rw [Disk.live, settled.pending]
  rfl

/-! ### Names that are replaced

Files are prepared under other names than the targets and renamed to a target. -/

theorem sublist_concat {α : Type} {kept all : List α} {last : α}
    (part : kept.Sublist (all ++ [last])) :
    kept.Sublist all ∨ ∃ front, kept = front ++ [last] ∧ front.Sublist all := by
  obtain ⟨front, rest, rfl, older, newest⟩ := List.sublist_append_iff.mp part
  rcases List.sublist_singleton.mp newest with rfl | rfl
  · exact .inl (by rwa [List.append_nil])
  · exact .inr ⟨front, rfl, older⟩

/-- No crash leaves a file under two names, and what a name that is no target stands for now
is under a target after no crash. -/
structure Tidy (Target : Name → Prop) (disk : Disk Name Text) : Prop where
  bound : ∀ name file, disk.MayHold name (some file) → file < disk.next
  apart : ∀ name other file, ¬ Target name → ¬ Target other →
    disk.MayHold name (some file) →
    disk.MayHold other (some file) → name = other
  never : ∀ kept : List (Change Name), kept.Sublist disk.pending →
    ∀ name target file, ¬ Target name → Target target →
    kept.foldl Change.apply disk.synced name = some file →
    kept.foldl Change.apply disk.synced target ≠ some file
  free : ∀ name target file, ¬ Target name → Target target → disk.live name = some file →
    ¬ disk.MayHold target (some file)

variable {Target : Name → Prop}

theorem tidy_write (tidy : Tidy Target disk) (file : Nat) (text : Text) :
    Tidy Target (disk.write file text) :=
  ⟨tidy.bound, tidy.apart, tidy.never, tidy.free⟩

theorem tidy_sync (tidy : Tidy Target disk) (file : Nat) : Tidy Target (disk.sync file) :=
  ⟨tidy.bound, tidy.apart, tidy.never, tidy.free⟩

theorem tidy_syncDirectory (tidy : Tidy Target disk) : Tidy Target disk.syncDirectory where
  bound name file held := tidy.bound name file (mayHold_syncDirectory.mp held ▸ mayHold_live name)
  apart name other file mine its first second :=
    tidy.apart name other file mine its (mayHold_syncDirectory.mp first ▸ mayHold_live name)
      (mayHold_syncDirectory.mp second ▸ mayHold_live other)
  never kept part name target file mine its held := by
    obtain rfl := List.sublist_nil.mp part
    exact tidy.never disk.pending (List.Sublist.refl disk.pending) name target file mine its held
  free name target file mine its held other :=
    tidy.free name target file mine its held
      (mayHold_syncDirectory.mp other ▸ mayHold_live target)

theorem tidy_crash (tidy : Tidy Target disk) {kept : List (Change Name)} (left : Nat → Text)
    (part : kept.Sublist disk.pending) : Tidy Target (disk.crash kept left) where
  bound name file held := tidy.bound name file (mayHold_crash.mp held ▸ mayHold_kept part name)
  apart name other file mine its first second :=
    tidy.apart name other file mine its (mayHold_crash.mp first ▸ mayHold_kept part name)
      (mayHold_crash.mp second ▸ mayHold_kept part other)
  never again none name target file mine its held := by
    obtain rfl := List.sublist_nil.mp none
    exact tidy.never kept part name target file mine its held
  free name target file mine its held other :=
    tidy.never kept part name target file mine its held (mayHold_crash.mp other).symm

theorem tidy_settled (settled : disk.Settled) : Tidy Target disk where
  bound name file held := settled.bound name file (mayHold_settled settled |>.mp held).symm
  apart name other file _ _ first second := settled.apart name other file
    (mayHold_settled settled |>.mp first).symm (mayHold_settled settled |>.mp second).symm
  never kept part name target file mine its held there := by
    rw [settled.pending] at part
    obtain rfl := List.sublist_nil.mp part
    exact mine (settled.apart name target file held there ▸ its)
  free name target file mine its held there := by
    rw [live_settled settled] at held
    exact mine (settled.apart name target file held
      (mayHold_settled settled |>.mp there).symm ▸ its)

/-- A new file under a name that is no target. -/
theorem tidy_link (tidy : Tidy Target disk) {name : Name} (mine : ¬ Target name) :
    Tidy Target (disk.link name) where
  bound other file held := by
    rcases mayHold_link.mp held with before | ⟨-, new⟩
    · exact Nat.lt_succ_of_lt (tidy.bound other file before)
    · exact Option.some.inj new ▸ Nat.lt_succ_self disk.next
  apart first second file its yours one two := by
    have old (other : Name) (held : disk.MayHold other (some file))
        (new : some file = some disk.next) :
        False :=
      Nat.lt_irrefl disk.next (tidy.bound other disk.next (new ▸ held))
    rcases mayHold_link.mp one with one | ⟨here, new⟩
    · rcases mayHold_link.mp two with two | ⟨-, new⟩
      · exact tidy.apart first second file its yours one two
      · exact (old first one new).elim
    · rcases mayHold_link.mp two with two | ⟨there, -⟩
      · exact (old second two new).elim
      · exact here.trans there.symm
  never kept part other target file its yours held := by
    rcases sublist_concat part with older | ⟨front, rfl, older⟩
    · exact tidy.never kept older other target file its yours held
    · have away : target ≠ name := fun same => mine (same ▸ yours)
      rw [List.foldl_append] at held ⊢
      simp only [List.foldl_cons, List.foldl_nil, Change.apply, Change.sets, if_neg away,
        Option.getD_none] at held ⊢
      by_cases same : other = name
      · simp only [if_pos same, Option.getD_some, Option.some.injEq] at held
        intro there
        exact Nat.lt_irrefl disk.next
          (tidy.bound target disk.next (held ▸ there ▸ mayHold_kept older target))
      · simp only [if_neg same, Option.getD_none] at held
        exact tidy.never front older other target file its yours held
  free other target file its yours held there := by
    have away : target ≠ name := fun same => mine (same ▸ yours)
    change (disk.change (.link name disk.next)).live other = some file at held
    rcases mayHold_link.mp there with before | ⟨same, -⟩
    · rw [live_change] at held
      by_cases same : other = name
      · simp only [Change.sets, if_pos same, Option.getD_some, Option.some.injEq] at held
        exact Nat.lt_irrefl disk.next (tidy.bound target disk.next (held ▸ before))
      · simp only [Change.sets, if_neg same, Option.getD_none] at held
        exact tidy.free other target file its yours held before
    · exact away same

/-- A prepared file takes the name of a target. -/
theorem tidy_rename (tidy : Tidy Target disk) {source goal : Name} {file : Nat}
    (mine : ¬ Target source)
    (aim : Target goal) (prepared : disk.live source = some file) :
    Tidy Target (disk.change (.rename source goal file)) := by
  have distinct : goal ≠ source := fun same => mine (same ▸ aim)
  have own : disk.MayHold source (some file) := prepared ▸ mayHold_live source
  have notOf (other : Name) (its : ¬ Target other) : other ≠ goal := fun same =>
      its (same ▸ aim)
  constructor
  · intro name other held
    rcases mayHold_change.mp held with before | sets
    · exact tidy.bound name other before
    · by_cases same : name = source
      · simp [Change.sets, same] at sets
      · simp only [Change.sets, if_neg same, Option.ite_none_right_eq_some, Option.some.injEq]
          at sets
        exact sets.2 ▸ tidy.bound source file own
  · intro first second other its yours one two
    rcases mayHold_change.mp one with one | one
    · rcases mayHold_change.mp two with two | two
      · exact tidy.apart first second other its yours one two
      · simp [Change.sets, notOf second yours] at two
    · simp [Change.sets, notOf first its] at one
  · intro kept part name target other its yours held
    rcases sublist_concat part with older | ⟨front, rfl, older⟩
    · exact tidy.never kept older name target other its yours held
    · rw [List.foldl_append] at held ⊢
      have away : target ≠ source := fun same => mine (same ▸ yours)
      simp only [List.foldl_cons, List.foldl_nil, Change.apply, Change.sets, if_neg away,
        if_neg (notOf name its)] at held ⊢
      by_cases same : name = source
      · simp [same] at held
      · simp only [if_neg same, Option.getD_none] at held
        by_cases hit : target = goal
        · simp only [if_pos hit, Option.getD_some, ne_eq, Option.some.injEq]
          rintro rfl
          exact same (tidy.apart name source file its mine (held ▸ mayHold_kept older name) own)
        · simp only [if_neg hit, Option.getD_none]
          exact tidy.never front older name target other its yours held
  · intro name target other its yours held there
    rw [live_change] at held
    simp only [Change.sets, if_neg (notOf name its)] at held
    by_cases same : name = source
    · simp [same] at held
    · simp only [if_neg same, Option.getD_none] at held
      rcases mayHold_change.mp there with before | sets
      · exact tidy.free name target other its yours held before
      · have away : target ≠ source := fun same => mine (same ▸ yours)
        simp only [Change.sets, if_neg away, Option.ite_none_right_eq_some, Option.some.injEq]
          at sets
        exact same (tidy.apart name source other its mine (held ▸ mayHold_live name)
          (sets.2 ▸ own))

end PgHa.CrashDisk
