import Mathlib.Tactic.Common

/-!
# A oneshot channel

The shared cell of a futures oneshot channel. The sender leaves its value in `data` or is
dropped without one, and either sets `complete`. The receiver is polled with the waker of
the task that polls it. A pending poll leaves that waker in the one slot `rxTask`, over
whatever waker was there, and completing the channel takes the waker out of the slot to
call it. A poll after completion takes the value; one after that finds the channel canceled.
-/

variable {T W : Type*}

/-- The result of polling a future. -/
inductive Poll (α : Type*) where
  | ready (a : α)
  | pending
  deriving DecidableEq

namespace Poll

variable {α β : Type*}

/-- Map over the value of a ready poll. -/
def map (f : α → β) : Poll α → Poll β
  | ready a => ready (f a)
  | pending => pending

end Poll

/-- The sender was dropped without sending, or its value was already taken. -/
inductive Canceled where
  | canceled
  deriving DecidableEq

/-- The state the two ends of the channel share. -/
structure Oneshot (T W : Type*) where
  /-- The value sent and not yet taken. -/
  data : Option T
  /-- The sender has sent or was dropped. -/
  complete : Bool
  /-- The waker of the last pending poll. -/
  rxTask : Option W

namespace Oneshot

/-- A fresh channel. -/
def channel : Oneshot T W :=
  ⟨none, false, none⟩

/-- The sender sends `v`. The waker in the slot is called. -/
def send (c : Oneshot T W) (v : T) : Oneshot T W × Option W :=
  ({ c with data := some v, complete := true, rxTask := none }, c.rxTask)

/-- The sender is dropped. The waker in the slot is called. -/
def dropSender (c : Oneshot T W) : Oneshot T W × Option W :=
  ({ c with complete := true, rxTask := none }, c.rxTask)

/-- The receiver is polled by a task with waker `w`. -/
def poll (c : Oneshot T W) (w : W) : Poll (Except Canceled T) × Oneshot T W :=
  if c.complete then
    match c.data with
    | some v => (.ready (.ok v), { c with data := none })
    | none => (.ready (.error .canceled), c)
  else (.pending, { c with rxTask := some w })

/-- What the next poll yields, if the channel is complete. -/
def outcome (c : Oneshot T W) : Option (Except Canceled T) :=
  if c.complete then
    some (match c.data with
      | some v => .ok v
      | none => .error .canceled)
  else none

@[simp] theorem outcome_channel : (channel : Oneshot T W).outcome = none :=
  rfl

@[simp] theorem outcome_send (c : Oneshot T W) (v : T) : (c.send v).1.outcome = some (.ok v) :=
  rfl

theorem outcome_dropSender {c : Oneshot T W} (h : c.data = none) :
    c.dropSender.1.outcome = some (.error .canceled) := by
  simp [outcome, dropSender, h]

theorem outcome_eq_none {c : Oneshot T W} : c.outcome = none ↔ c.complete = false := by
  cases h : c.complete <;> simp [outcome, h]

theorem complete_of_outcome {c : Oneshot T W} {r : Except Canceled T} (h : c.outcome = some r) :
    c.complete = true := by
  by_contra hc
  rw [outcome_eq_none.2 (Bool.eq_false_iff.2 hc)] at h
  cases h

theorem poll_of_outcome {c : Oneshot T W} {r : Except Canceled T} (h : c.outcome = some r) (w : W) :
    c.poll w = (.ready r, { c with data := none }) := by
  have hc := complete_of_outcome h
  obtain ⟨data, complete, rxTask⟩ := c
  cases data <;> simp_all [outcome, poll]

theorem poll_of_incomplete {c : Oneshot T W} (h : c.complete = false) (w : W) :
    c.poll w = (.pending, { c with rxTask := some w }) := by
  simp [poll, h]

end Oneshot
