import Mathlib.Logic.Function.Basic
import Mathlib.Tactic

/-!
# The worker pool

`ThreadPool` of the epoll gateway: a queue of tasks behind a mutex and threads that run `RunInThread`.  Each locked
section is one step, and so is the read of `running_` at the head of a worker's loop.  A worker that has taken a task
runs it outside the lock, so several taken tasks may be begun in any order.
-/

namespace Chater.Base

set_option autoImplicit false

/-- Where a worker is: at the head of its loop, in `Take`, with a task it has not begun, in a task, or returned. -/
inductive Worker (A : Type)
  | looping
  | taking
  | holding (task : A)
  | inTask (task : A)
  | exited

def Worker.held {A : Type} : Worker A → List A
  | .holding task => [task]
  | _ => []

structure ThreadPool (A : Type) where
  running : Bool
  queue : List A
  workers : ℕ → Worker A

namespace ThreadPool

variable {A : Type}

/-- After `Start`. -/
def started : ThreadPool A := ⟨true, [], fun _ => .looping⟩

def setWorker (p : ThreadPool A) (i : ℕ) (x : Worker A) : ThreadPool A :=
  { p with workers := Function.update p.workers i x }

/-- `Run` of a pool that has threads. -/
def push (p : ThreadPool A) (task : A) : ThreadPool A := { p with queue := p.queue ++ [task] }

def checkRunning (p : ThreadPool A) (i : ℕ) : Option (ThreadPool A) :=
  match p.workers i with
  | .looping => some (p.setWorker i (if p.running then .taking else .exited))
  | _ => none

/-- `Take` once it need not wait any more. -/
def take (p : ThreadPool A) (i : ℕ) : Option (ThreadPool A) :=
  match p.workers i, p.queue with
  | .taking, task :: queue => some ({ p with queue := queue }.setWorker i (.holding task))
  | .taking, [] => if p.running then none else some (p.setWorker i .looping)
  | _, _ => none

/-- The worker begins its task. -/
def beginTask (p : ThreadPool A) (i : ℕ) : Option (A × ThreadPool A) :=
  match p.workers i with
  | .holding task => some (task, p.setWorker i (.inTask task))
  | _ => none

def endTask (p : ThreadPool A) (i : ℕ) : Option (ThreadPool A) :=
  match p.workers i with
  | .inTask _ => some (p.setWorker i .looping)
  | _ => none

/-- The locked section of `Stop`. -/
def stop (p : ThreadPool A) : ThreadPool A := { p with running := false }

/-! ## One worker

The tasks of a pool with one worker that are accepted and not begun, in the order they are going to be. -/

def backlog (p : ThreadPool A) : List A := (p.workers 0).held ++ p.queue

theorem backlog_setWorker (p : ThreadPool A) (x : Worker A) : (p.setWorker 0 x).backlog = x.held ++ p.queue := by
  simp [backlog, setWorker]

@[simp] theorem backlog_push (p : ThreadPool A) (task : A) : (p.push task).backlog = p.backlog ++ [task] :=
  (List.append_assoc _ _ _).symm

@[simp] theorem backlog_stop (p : ThreadPool A) : p.stop.backlog = p.backlog := rfl

theorem backlog_checkRunning {p p' : ThreadPool A} (h : p.checkRunning 0 = some p') : p'.backlog = p.backlog := by
  unfold checkRunning at h
  split at h
  · rename_i hworker
    obtain rfl := Option.some.inj h
    rw [backlog_setWorker, backlog, hworker]
    split_ifs <;> rfl
  · cases h

theorem backlog_take {p p' : ThreadPool A} (h : p.take 0 = some p') : p'.backlog = p.backlog := by
  unfold take at h
  split at h
  · rename_i task queue hworker hqueue
    obtain rfl := Option.some.inj h
    rw [backlog_setWorker, backlog, hworker, hqueue]
    rfl
  · rename_i hworker hqueue
    split_ifs at h
    obtain rfl := Option.some.inj h
    rw [backlog_setWorker, backlog, hworker]
    rfl
  · cases h

theorem backlog_beginTask {p p' : ThreadPool A} {task : A} (h : p.beginTask 0 = some (task, p')) :
    p.backlog = task :: p'.backlog := by
  unfold beginTask at h
  split at h
  · rename_i hworker
    obtain ⟨rfl, rfl⟩ := Prod.mk.inj (Option.some.inj h)
    rw [backlog_setWorker, backlog, hworker]
    rfl
  · cases h

theorem backlog_endTask {p p' : ThreadPool A} (h : p.endTask 0 = some p') : p'.backlog = p.backlog := by
  unfold endTask at h
  split at h
  · rename_i hworker
    obtain rfl := Option.some.inj h
    rw [backlog_setWorker, backlog, hworker]
    rfl
  · cases h

end ThreadPool
end Chater.Base
