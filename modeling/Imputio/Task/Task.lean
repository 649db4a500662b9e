import Mathlib.Data.Fintype.Basic
import Mathlib.Logic.Function.Basic

/-! Tasks: their priorities, what their pointers own, and what one poll does. -/

namespace Imputio

/-- The user's priorities; level zero is reserved for the system. -/
inductive Priority where
  | bestEffort
  | low
  | medium
  | high
  deriving DecidableEq, Repr

/-- The index of a priority among the queues of an executor. -/
def Priority.index : Priority → Fin 5
  | .bestEffort => 4
  | .low => 3
  | .medium => 2
  | .high => 1

/-- Names the allocation behind a task's raw pointer. -/
abbrev TaskId := Nat

/-- A task as it sits in a message, in a queue or in a local variable. -/
structure ImputioTask where
  innerTask : TaskId
  priority : Priority
  deriving DecidableEq, Repr

/-- What one poll of a future does. -/
inductive FutureStep (V : Type*) where
  | ready (value : V)
  | pending
  | panicked
  deriving DecidableEq, Repr

/--
The allocations of one spawned task, and the channel its handle listens on.

The future captures the only sender of that channel, so the sender lives as long as the future.
-/
structure TaskCell (V : Type*) where
  -- The strong count of the `InnerTask`, which owns the future.
  inner : Nat
  -- The strong count of the header that the waker points to.
  header : Nat
  -- The strong count of the second header, whose pointer `new` throws away.
  spareHeader : Nat
  sender : Bool
  result : Option V
  deriving DecidableEq, Repr

namespace TaskCell

variable {V : Type*}

/-- `ImputioTask::new`: three allocations, each turned into a raw pointer. -/
def new : TaskCell V where
  inner := 1
  header := 1
  spareHeader := 1
  sender := true
  result := none

/-- Clone the waker of the task. -/
def cloneWaker (cell : TaskCell V) : TaskCell V := { cell with header := cell.header + 1 }

/-- Drop one waker of the task. -/
def dropWaker (cell : TaskCell V) : TaskCell V := { cell with header := cell.header - 1 }

/-- Poll the future: it sends its result when it is ready, and gives up its sender when it ends. -/
def pollFuture (outcome : FutureStep V) (cell : TaskCell V) : TaskCell V :=
  match outcome with
  -- The wrapper sends the result and is done, so what it has captured goes.
  | .ready value => { cell with result := some value, sender := false }
  | .pending => cell
  -- Unwinding drops what the future has captured.
  | .panicked => { cell with sender := false }

/-- `ImputioTask::poll_task`: poll the future with a fresh clone of the waker. -/
def pollTask (outcome : FutureStep V) (cell : TaskCell V) : TaskCell V :=
  (cell.cloneWaker.pollFuture outcome).dropWaker

/--
What dropping an `ImputioTask` does.

The type has no destructor of its own. Its waker is dropped, but the raw pointer to the future is
not, so the future and its sender stay alive.
-/
def drop (cell : TaskCell V) : TaskCell V := cell.dropWaker

/-- The handle of the task does not wait any more: its receive returns a result or an error. -/
def Resolved (cell : TaskCell V) : Prop := cell.result.isSome ∨ cell.sender = false

instance (cell : TaskCell V) : Decidable cell.Resolved := inferInstanceAs (Decidable (_ ∨ _))

/-- Nothing is resolved by making a task. -/
theorem new_unresolved : ¬ (new : TaskCell V).Resolved := by simp [Resolved, new]

/-- Dropping a task resolves nothing. -/
@[simp] theorem drop_resolved (cell : TaskCell V) : cell.drop.Resolved ↔ cell.Resolved := Iff.rfl

/-- A poll resolves the handle exactly when the future ends in it. -/
theorem pollTask_resolved (outcome : FutureStep V) (cell : TaskCell V) :
    (cell.pollTask outcome).Resolved ↔ outcome ≠ .pending ∨ cell.Resolved := by
  -- A pending future changes nothing, and the other two outcomes give up the sender.
  cases outcome <;> simp [pollTask, pollFuture, cloneWaker, dropWaker, Resolved]

/-- Polling gives back the waker that was cloned for it, and releases nothing else. -/
theorem pollTask_counts (outcome : FutureStep V) (cell : TaskCell V) :
    (cell.pollTask outcome).inner = cell.inner ∧ (cell.pollTask outcome).header = cell.header ∧
      (cell.pollTask outcome).spareHeader = cell.spareHeader := by
  -- The three counts are followed through the clone and the drop of the waker.
  cases outcome <;> simp [pollTask, pollFuture, cloneWaker, dropWaker]

end TaskCell

/-- Drop a list of tasks one after the other. -/
def dropTasks {V : Type*} (cells : TaskId → TaskCell V) (tasks : List ImputioTask) :
    TaskId → TaskCell V :=
  tasks.foldl
    (fun cells task =>
      Function.update cells task.innerTask (cells task.innerTask).drop) cells

/-- Dropping tasks resolves no handle. -/
@[simp] theorem dropTasks_resolved {V : Type*} (cells : TaskId → TaskCell V)
    (tasks : List ImputioTask) (id : TaskId) :
    (dropTasks cells tasks id).Resolved ↔ (cells id).Resolved := by
  -- The loop is followed for arbitrary cells.
  induction tasks generalizing cells with
  | nil => rfl
  | cons task tasks ih =>
    show (dropTasks (Function.update cells task.innerTask _) tasks id).Resolved ↔ _
    rw [ih]
    by_cases same : id = task.innerTask
    · subst same; simp
    · simp [same]

end Imputio
