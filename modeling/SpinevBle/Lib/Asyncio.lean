import Mathlib.Data.Nat.Notation
import Mathlib.Tactic.Common

/-!
# Futures, tasks and timeouts of an asyncio event loop

The parts of asyncio that decide how a coroutine is resumed: the state of a future, the state of
a task that runs foreign code and may be cancelled, and the bookkeeping by which
`asyncio.timeout` tells its own cancellation from one that the caller asked for.
-/

namespace Asyncio

variable {α ε : Type*}

/-! ### Futures -/

/-- The state of an `asyncio.Future`. -/
inductive Future (α ε : Type*)
  | pending
  | result (a : α)
  | exception (e : ε)
  | cancelled
  deriving DecidableEq

namespace Future

def done : Future α ε → Bool
  | .pending => false
  | _ => true

/-- `set_result`, guarded by `not done()`. -/
def resolve (a : α) : Future α ε → Future α ε
  | .pending => .result a
  | f => f

/-- `set_exception`, guarded by `not done()`. -/
def fail (e : ε) : Future α ε → Future α ε
  | .pending => .exception e
  | f => f

/-- `cancel()` leaves a future that is done as it is. -/
def cancel : Future α ε → Future α ε
  | .pending => .cancelled
  | f => f

@[simp] lemma done_pending : (pending : Future α ε).done = false := rfl
@[simp] lemma done_result (a : α) : (result a : Future α ε).done = true := rfl
@[simp] lemma done_exception (e : ε) : (exception e : Future α ε).done = true := rfl
@[simp] lemma done_cancelled : (cancelled : Future α ε).done = true := rfl

@[simp] lemma resolve_pending (a : α) : (pending : Future α ε).resolve a = result a := rfl
@[simp] lemma fail_pending (e : ε) : (pending : Future α ε).fail e = exception e := rfl

/-- A future that is done stays as it is. -/
lemma resolve_of_done {f : Future α ε} (h : f.done = true) (a : α) : f.resolve a = f := by
  cases f <;> simp_all [done, resolve]

lemma fail_of_done {f : Future α ε} (h : f.done = true) (e : ε) : f.fail e = f := by
  cases f <;> simp_all [done, fail]

lemma done_eq_false_iff {f : Future α ε} : f.done = false ↔ f = .pending := by
  cases f <;> simp

end Future

/-! ### Tasks -/

/-- How a task ended. -/
inductive Outcome (ε : Type*)
  | returned
  | raised (e : ε)
  | cancelled
  deriving DecidableEq

/-- The state of a task that runs foreign code: `cancelling` once `cancel()` was called and the
`CancelledError` is on its way, `unwinding` once it was thrown and the code goes on all the
same. -/
inductive TaskState (ε : Type*)
  | created
  | running
  | cancelling
  | unwinding
  | done (o : Outcome ε)
  deriving DecidableEq

namespace TaskState

def isDone : TaskState ε → Bool
  | .done _ => true
  | _ => false

/-- Started and not yet finished. -/
def busy : TaskState ε → Bool
  | .running | .cancelling | .unwinding => true
  | _ => false

/-- `Task.cancel()`. A task that has not had its first step never runs its body. -/
def cancel : TaskState ε → TaskState ε
  | .created => .done .cancelled
  | .running | .cancelling | .unwinding => .cancelling
  | .done o => .done o

@[simp] lemma isDone_created : (created : TaskState ε).isDone = false := rfl
@[simp] lemma isDone_running : (running : TaskState ε).isDone = false := rfl
@[simp] lemma isDone_cancelling : (cancelling : TaskState ε).isDone = false := rfl
@[simp] lemma isDone_unwinding : (unwinding : TaskState ε).isDone = false := rfl
@[simp] lemma isDone_done (o : Outcome ε) : (done o).isDone = true := rfl

@[simp] lemma cancel_done (o : Outcome ε) : (done o).cancel = done o := rfl

lemma cancel_of_busy {s : TaskState ε} (h : s.busy = true) : s.cancel = .cancelling := by
  cases s <;> first | rfl | cases h

lemma isDone_iff {s : TaskState ε} : s.isDone = true ↔ ∃ o, s = .done o := by
  cases s <;> simp

end TaskState

/-! ### Cancellation and `asyncio.timeout` -/

/-- What a task remembers of the calls of its `cancel()`: how many there were, and whether a
`CancelledError` waits to be thrown at its next step. -/
structure Cancellation where
  requests : ℕ
  mustCancel : Bool
  deriving DecidableEq

/-- An entered `asyncio.timeout` block: the number of cancellation requests the task had on
entry, and whether the deadline has passed. -/
structure Timeout where
  cancelling : ℕ
  expiring : Bool
  deriving DecidableEq

namespace Timeout

def enter (requests : ℕ) : Timeout := ⟨requests, false⟩

/-- `__aexit__`: takes back the request that the deadline made. The second component tells
whether a `CancelledError` that leaves the block becomes a `TimeoutError`, which it does unless
somebody else asked for the cancellation as well. -/
def exit (tm : Timeout) (requests : ℕ) : ℕ × Bool :=
  if tm.expiring then (requests - 1, decide (requests - 1 ≤ tm.cancelling)) else (requests, false)

end Timeout

end Asyncio
