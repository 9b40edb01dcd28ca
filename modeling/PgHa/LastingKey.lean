import PgHa.VersionCas

/-!
A key that is never given a TTL. What it holds is there for every reader, whatever its
clock, until a request that names the key replaces it.
-/

namespace PgHa.LastingKey

open StateMachine VersionCas

/-- A request that cannot touch the key. -/
def elsewhere (path : String) : Request → Bool
  | .set key _ _ _ _ _ _ => key != path
  | .delete key _ recursive => if recursive then !startsWith path key else key != path
  | .expireKeys _ => true

/-- A request that gives the key no TTL, if it writes it at all, and does not remove it. -/
def lasting (path : String) : Request → Bool
  | .set key value ttl prevExist prevValue prevVersion now =>
      elsewhere path (.set key value ttl prevExist prevValue prevVersion now) || ttl.isNone
  | request => elsewhere path request

theorem lasting_elsewhere {path : String} {request : Request}
    (apart : elsewhere path request = true) :
    lasting path request = true := by
  cases request with
  | set key value ttl prevExist prevValue prevVersion now =>
      rw [lasting, apart]
      rfl
  | delete key prevValue recursive => exact apart
  | expireKeys now => rfl

def Lasting (path : String) (log : List LogEntry) : Prop :=
  ∀ entry ∈ log, lasting path entry.request = true

variable {path : String} {log : List LogEntry} {entry : LogEntry}

theorem lasting_append (lasts : Lasting path log) (last : lasting path entry.request = true) :
    Lasting path (log ++ [entry]) := by
  intro other member
  rcases List.mem_append.mp member with older | newest
  · exact lasts other older
  · rw [List.mem_singleton.mp newest]
    exact last

theorem lasting_take (lasts : Lasting path log) (position : Nat) :
    Lasting path (log.take position) :=
  fun entry member => lasts entry (List.mem_of_mem_take member)

theorem forever_of_lasting (lasts : Lasting path log) {held : KvEntry}
    (found : (after log).data path = some held) : held.expireAt = none := by
  obtain ⟨earlier, writer, since, rfl, _, writes, _⟩ := held_written log _ held found
  obtain ⟨⟨value, ttl, prevExist, prevValue, prevVersion, now, request⟩, succeeded,
      written⟩ := writes
  obtain ⟨_, _, left, present, expires, _⟩ := set_succeeded request succeeded
  have same : left = held := Option.some.inj (present.symm.trans written)
  have unbounded := lasts writer (by simp)
  rw [request] at unbounded
  simp only [lasting, elsewhere, bne_self_eq_false, Bool.false_or, Option.isNone_iff_eq_none]
    at unbounded
  rw [← same, expires, unbounded]
  rfl

/-- No reader's clock matters. -/
theorem get_forever (lasts : Lasting path log) (clock : Nat) :
    StateMachine.get clock (after log) path = (after log).data path := by
  unfold StateMachine.get
  cases found : (after log).data path with
  | none => rfl
  | some held =>
      apply Option.filter_some_pos
      rw [live, forever_of_lasting lasts found]

theorem elsewhere_kept (lasts : Lasting path log) (apart : elsewhere path entry.request = true) :
    (applyEntry (after log) entry).1.data path = (after log).data path := by
  rcases applyEntry_cases path (after log) entry with ⟨_, same⟩ | ⟨ended, _⟩
  · exact same
  · exfalso
    unfold Ends at ended
    cases request : entry.request with
    | set key value ttl prevExist prevValue prevVersion now =>
        rw [request] at ended apart
        simp [elsewhere, ended.1] at apart
    | delete key prevValue recursive =>
        rw [request] at ended apart
        cases recursive with
        | true =>
            have covers : startsWith path key = true := ended.1
            simp [elsewhere, covers] at apart
        | false =>
            have here : key = path := ended.1
            simp [elsewhere, here] at apart
    | expireKeys now =>
        rw [request] at ended
        obtain ⟨held, found, expired⟩ := ended
        rw [live, forever_of_lasting lasts found] at expired
        cases expired

theorem refused_data (refused : ¬(applyEntry (after log) entry).2.succeeded = true)
    (key : String) :
    (applyEntry (after log) entry).1.data key = (after log).data key := by
  have unchanged : (applyEntry (after log) entry).2 = .notChanged := by
    cases response : (applyEntry (after log) entry).2 with
    | ok version => simp [response, Response.succeeded] at refused
    | notChanged => rfl
  exact congrFun (notChanged_data _ _ _ _ unchanged) key

end PgHa.LastingKey
