import Mathlib.Logic.Function.Basic

/-!
A watch channel: the sender replaces a value, a receiver is told that there is a newer
one than it has seen, or that there is no sender any more.
-/

namespace PgHa.Watch

variable {Value : Type}

structure Channel (Value : Type) where
  value : Value
  version : Nat
  closed : Bool
  deriving DecidableEq

def Channel.new (value : Value) : Channel Value := ⟨value, 0, false⟩

/-- Without a receiver the value is not replaced. -/
def Channel.send (channel : Channel Value) (receivers : Bool) (value : Value) : Channel Value :=
  if receivers then { channel with value := value, version := channel.version + 1 } else channel

def Channel.dropSender (channel : Channel Value) : Channel Value := { channel with closed := true }

/-- A new receiver has seen the present value. -/
def Channel.subscribe (channel : Channel Value) : Nat := channel.version

/-- `changed` for a receiver that has seen a version: what it returns and has seen then, if it
does not wait. -/
def Channel.changed (channel : Channel Value) (seen : Nat) : Option (Except Unit Unit × Nat) :=
  if channel.version ≠ seen then some (.ok (), channel.version)
  else if channel.closed then some (.error (), seen)
  else none

@[simp] theorem closed_send (channel : Channel Value) (receivers : Bool) (value : Value) :
    (channel.send receivers value).closed = channel.closed := by
  cases receivers <;> rfl

variable {channel : Channel Value} {seen : Nat}

theorem changed_waits : channel.changed seen = none ↔ channel.version = seen ∧
    channel.closed = false := by
  unfold Channel.changed
  by_cases same : channel.version = seen
  · cases channel.closed <;> simp [same]
  · simp [same]

/-- Whatever it returns, the receiver has seen the present version. -/
theorem changed_seen {result : Except Unit Unit} {after : Nat}
    (returned : channel.changed seen = some (result, after)) : after = channel.version := by
  unfold Channel.changed at returned
  split at returned
  · cases returned
    rfl
  · rename_i same
    split at returned
    · cases returned
      exact (not_not.mp same).symm
    · cases returned

end PgHa.Watch
