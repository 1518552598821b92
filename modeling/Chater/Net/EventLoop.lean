import Chater.Foundations.Transition
import Mathlib.Logic.Function.Basic

/-!
# The functor queue of an event loop

`EventLoop` with the threads that call `QueueInLoop` and `RunInLoop`.  A call pushes under the mutex and then, unless
it is made by the loop thread outside `DoPendingFunctors`, writes to the eventfd; the two are separate steps.  The
eventfd is watched with `EPOLLET`: each write makes an edge, an edge is reported at most once, and it is reported only
while the counter is not zero.  The loop is not told to quit.
-/

namespace Chater.Net

open Foundations

set_option autoImplicit false

/-- A functor in the queue, with the thread that pushed it and the number of swaps made before. -/
structure Queued (T F : Type) where
  thread : T
  functor : F
  swaps : ℕ

/-- A functor that has been called, with the number of the batch it was called in. -/
structure Called (T F : Type) where
  queued : Queued T F
  batch : ℕ

/-- Where the loop thread is: in `epoll_wait`; in the event handlers, with the wakeup channel still to be handled or
not; in `DoPendingFunctors` before the swap; or after it, inside a functor or not, with those left of the batch. -/
inductive LoopPhase (A : Type)
  | polling
  | handling (wakeup : Bool)
  | swapping
  | running (inFunctor : Bool) (functors : List A)

namespace LoopPhase

variable {A : Type}

def batch : LoopPhase A → List A
  | running _ functors => functors
  | _ => []

def callingPendingFunctors : LoopPhase A → Bool
  | swapping => true
  | running _ _ => true
  | _ => false

/-- The loop thread is in code that may queue a functor. -/
def inCallback : LoopPhase A → Bool
  | handling _ => true
  | running inFunctor _ => inFunctor
  | _ => false

/-- The queue has been swapped, and the loop is yet to come back from `epoll_wait`. -/
def swapped : LoopPhase A → Bool
  | polling => true
  | running _ _ => true
  | _ => false

end LoopPhase

/-- The largest value an eventfd counter takes. -/
def eventfdMax : ℕ := 2 ^ 64 - 2

/-- `owesWakeup t` holds while `t` is between its push and its `Wakeup()`; `edge` while an edge of the eventfd has not
been reported. -/
structure EventLoop (T F : Type) where
  pendingFunctors : List (Queued T F)
  phase : LoopPhase (Queued T F)
  counter : ℕ
  edge : Bool
  owesWakeup : T → Bool
  swaps : ℕ
  pushed : List (Queued T F)
  called : List (Called T F)

namespace EventLoop

variable {T F : Type} [DecidableEq T]

def start : EventLoop T F := ⟨[], .polling, 0, false, fun _ => false, 0, [], []⟩

inductive Event (T F : Type)
  | queueInLoop (t : T) (functor : F)
  | runInLoop (t : T) (functor : F)
  | wakeup (t : T)
  | poll (reported : Bool)
  | handleRead
  | doPendingFunctors
  | swap
  | callFunctor
  | functorReturns
  | endBatch

/-- The push of `QueueInLoop`.  The loop thread queues only from a handler or a functor. -/
def queueInLoop (owner : T) (s : EventLoop T F) (t : T) (functor : F) : Option (EventLoop T F) :=
  if s.owesWakeup t = true ∨ (t = owner ∧ s.phase.inCallback = false) then none
  else
    let queued : Queued T F := ⟨t, functor, s.swaps⟩
    some { s with
      pendingFunctors := s.pendingFunctors ++ [queued]
      pushed := s.pushed ++ [queued]
      owesWakeup := Function.update s.owesWakeup t (t ≠ owner || s.phase.callingPendingFunctors) }

/-- `RunInLoop`: the loop thread calls the functor itself, which leaves the queue alone. -/
def runInLoop (owner : T) (s : EventLoop T F) (t : T) (functor : F) : Option (EventLoop T F) :=
  if t = owner then if s.owesWakeup t = false ∧ s.phase.inCallback = true then some s else none
  else s.queueInLoop owner t functor

/-- `Wakeup`: a write that would take the counter beyond its maximum fails and changes nothing. -/
def wakeup (s : EventLoop T F) (t : T) : Option (EventLoop T F) :=
  if s.owesWakeup t = true then
    let s := { s with owesWakeup := Function.update s.owesWakeup t false }
    if s.counter + 1 ≤ eventfdMax then some { s with counter := s.counter + 1, edge := true } else some s
  else none

/-- A step of `Loop`. -/
def loopStep (s : EventLoop T F) : Event T F → Option (EventLoop T F)
  | .poll reported =>
    match s.phase, reported with
    | .polling, true =>
      if s.edge = true ∧ s.counter ≠ 0 then some { s with phase := .handling true, edge := false } else none
    | .polling, false => some { s with phase := .handling false }
    | _, _ => none
  | .handleRead =>
    match s.phase with
    | .handling true => some { s with phase := .handling false, counter := 0 }
    | _ => none
  | .doPendingFunctors =>
    match s.phase with
    | .handling false => some { s with phase := .swapping }
    | _ => none
  | .swap =>
    match s.phase with
    | .swapping =>
      some { s with pendingFunctors := [], phase := .running false s.pendingFunctors, swaps := s.swaps + 1 }
    | _ => none
  | .callFunctor =>
    match s.phase with
    | .running false (q :: functors) =>
      some { s with phase := .running true functors, called := s.called ++ [⟨q, s.swaps⟩] }
    | _ => none
  | .functorReturns =>
    match s.phase with
    | .running true functors => some { s with phase := .running false functors }
    | _ => none
  | .endBatch =>
    match s.phase with
    | .running false [] => some { s with phase := .polling }
    | _ => none
  | _ => none

/-- The loop thread goes on only once the `Wakeup()` it owes has been made. -/
def step (owner : T) (s : EventLoop T F) : Event T F → Option (EventLoop T F)
  | .queueInLoop t functor => s.queueInLoop owner t functor
  | .runInLoop t functor => s.runInLoop owner t functor
  | .wakeup t => s.wakeup t
  | e => if s.owesWakeup owner = true then none else s.loopStep e

/-! ## The invariant -/

def Awake (s : EventLoop T F) : Prop := s.counter ≠ 0 ∧ s.edge = true

structure Inv (s : EventLoop T F) : Prop where
  fifo : s.called.map Called.queued ++ s.phase.batch ++ s.pendingFunctors = s.pushed
  called_batch : ∀ c ∈ s.called, c.batch = c.queued.swaps + 1
  batch_swaps : ∀ q ∈ s.phase.batch, s.swaps = q.swaps + 1
  pending_swaps : ∀ q ∈ s.pendingFunctors, q.swaps = s.swaps
  counter_edge : s.counter ≠ 0 → s.edge = true ∨ s.phase = .handling true
  woken : s.phase.swapped = true → ∀ q ∈ s.pendingFunctors, s.Awake ∨ s.owesWakeup q.thread = true

variable {owner : T} {s s' : EventLoop T F}

omit [DecidableEq T] in
theorem start_inv : (start : EventLoop T F).Inv where
  fifo := rfl
  called_batch _ h := by cases h
  batch_swaps _ h := by cases h
  pending_swaps _ h := by cases h
  counter_edge h := absurd rfl h
  woken _ _ h := by cases h

theorem Inv.queueInLoop {t : T} {functor : F} (h : s.Inv) (hq : s.queueInLoop owner t functor = some s') : s'.Inv := by
  unfold EventLoop.queueInLoop at hq
  split_ifs at hq with hguard
  obtain ⟨hfree, hplace⟩ := not_or.mp hguard
  obtain rfl := Option.some.inj hq
  refine ⟨?_, h.called_batch, h.batch_swaps, ?_, h.counter_edge, ?_⟩
  · show _ ++ (s.pendingFunctors ++ [_]) = s.pushed ++ [_]
    rw [← h.fifo, List.append_assoc, List.append_assoc, List.append_assoc]
  · intro q hmem
    obtain hold | hnew := List.mem_append.mp hmem
    · exact h.pending_swaps q hold
    · rw [List.mem_singleton.mp hnew]
  · intro hswapped q hmem
    obtain hold | hnew := List.mem_append.mp hmem
    · refine (h.woken hswapped q hold).imp_right fun howes => ?_
      have hne : q.thread ≠ t := fun hqt => hfree (by rw [← hqt]; exact howes)
      show Function.update s.owesWakeup t _ q.thread = true
      rw [Function.update_of_ne hne]
      exact howes
    · -- the loop thread pushes after a swap only from a functor, and then owes a wakeup like any other thread
      right
      rw [List.mem_singleton.mp hnew]
      show Function.update s.owesWakeup t _ t = true
      rw [Function.update_self]
      by_cases howner : t = owner
      · have hcallback : s.phase.inCallback = true := by simpa [howner] using hplace
        cases hphase : s.phase with
        | running inFunctor functors => simp [LoopPhase.callingPendingFunctors]
        | polling => simp [hphase, LoopPhase.inCallback] at hcallback
        | handling w => simp [hphase, LoopPhase.swapped] at hswapped
        | swapping => simp [hphase, LoopPhase.swapped] at hswapped
      · simp [howner]

theorem Inv.runInLoop {t : T} {functor : F} (h : s.Inv) (hr : s.runInLoop owner t functor = some s') : s'.Inv := by
  unfold EventLoop.runInLoop at hr
  split_ifs at hr
  · obtain rfl := Option.some.inj hr
    exact h
  · exact h.queueInLoop hr

theorem Inv.wakeup {t : T} (h : s.Inv) (hw : s.wakeup t = some s') : s'.Inv := by
  unfold EventLoop.wakeup at hw
  simp only at hw
  split_ifs at hw with howes hroom
  · obtain rfl := Option.some.inj hw
    refine ⟨h.fifo, h.called_batch, h.batch_swaps, h.pending_swaps, fun _ => .inl rfl, fun _ q _ => ?_⟩
    exact .inl ⟨Nat.succ_ne_zero _, rfl⟩
  · -- the counter is at its maximum, so its last edge is unreported unless its report is being handled
    obtain rfl := Option.some.inj hw
    refine ⟨h.fifo, h.called_batch, h.batch_swaps, h.pending_swaps, h.counter_edge, fun hswapped q _ => ?_⟩
    have hcounter : s.counter ≠ 0 := by
      unfold eventfdMax at hroom
      omega
    refine .inl ⟨hcounter, (h.counter_edge hcounter).resolve_right fun hphase => ?_⟩
    simp [hphase, LoopPhase.swapped] at hswapped

section LoopThread

omit [DecidableEq T]

theorem Inv.counter_edge_of (h : s.Inv) (hphase : s.phase ≠ .handling true) (hcounter : s.counter ≠ 0) :
    s.edge = true :=
  (h.counter_edge hcounter).resolve_right hphase

/-- A step of the loop that only goes on to another phase. -/
theorem Inv.setPhase (h : s.Inv) (phase : LoopPhase (Queued T F)) (hbatch : phase.batch = s.phase.batch)
    (hhandling : s.phase ≠ .handling true) (hswapped : phase.swapped = true → s.phase.swapped = true) :
    ({ s with phase := phase } : EventLoop T F).Inv where
  fifo := by
    show s.called.map Called.queued ++ phase.batch ++ s.pendingFunctors = s.pushed
    rw [hbatch]
    exact h.fifo
  called_batch := h.called_batch
  batch_swaps q hq := by
    apply h.batch_swaps q
    rw [← hbatch]
    exact hq
  pending_swaps := h.pending_swaps
  counter_edge hcounter := .inl (h.counter_edge_of hhandling hcounter)
  woken hs := h.woken (hswapped hs)

/-- `epoll_wait` reports the eventfd. -/
theorem Inv.report (h : s.Inv) (hphase : s.phase = .polling) :
    ({ s with phase := .handling true, edge := false } : EventLoop T F).Inv := by
  have hfifo := h.fifo
  rw [hphase] at hfifo
  exact ⟨hfifo, h.called_batch, fun _ hq => (by cases hq), h.pending_swaps, fun _ => .inr rfl, fun hs => (by cases hs)⟩

/-- `HandleRead` takes the counter back to zero. -/
theorem Inv.handleRead (h : s.Inv) (hphase : s.phase = .handling true) :
    ({ s with phase := .handling false, counter := 0 } : EventLoop T F).Inv := by
  have hfifo := h.fifo
  rw [hphase] at hfifo
  exact ⟨hfifo, h.called_batch, fun _ hq => (by cases hq), h.pending_swaps, fun hzero => absurd rfl hzero,
    fun hs => (by cases hs)⟩

theorem Inv.swap (h : s.Inv) (hphase : s.phase = .swapping) :
    ({ s with pendingFunctors := [], phase := .running false s.pendingFunctors, swaps := s.swaps + 1 } :
      EventLoop T F).Inv := by
  have hfifo := h.fifo
  rw [hphase] at hfifo
  refine ⟨?_, h.called_batch, fun q hq => ?_, fun _ hq => (by cases hq), fun hcounter => .inl ?_,
    fun _ _ hq => (by cases hq)⟩
  · show s.called.map Called.queued ++ s.pendingFunctors ++ [] = s.pushed
    rw [List.append_nil, ← hfifo]
    show _ = s.called.map Called.queued ++ [] ++ s.pendingFunctors
    rw [List.append_nil]
  · show s.swaps + 1 = q.swaps + 1
    rw [h.pending_swaps q hq]
  · exact h.counter_edge_of (by rw [hphase]; nofun) hcounter

theorem Inv.callFunctor (h : s.Inv) {q : Queued T F} {functors : List (Queued T F)}
    (hphase : s.phase = .running false (q :: functors)) :
    ({ s with phase := .running true functors, called := s.called ++ [⟨q, s.swaps⟩] } : EventLoop T F).Inv := by
  have hfifo := h.fifo
  have hbatch := h.batch_swaps
  rw [hphase] at hfifo hbatch
  refine ⟨?_, fun c hc => ?_, fun r hr => hbatch r (List.mem_cons_of_mem q hr), h.pending_swaps,
    fun hcounter => .inl ?_, fun _ => h.woken (by rw [hphase]; rfl)⟩
  · rw [← hfifo]
    simp [LoopPhase.batch]
  · obtain hold | hnew := List.mem_append.mp hc
    · exact h.called_batch c hold
    · rw [List.mem_singleton.mp hnew]
      exact hbatch q List.mem_cons_self
  · exact h.counter_edge_of (by rw [hphase]; nofun) hcounter

/-- The turns of the loop thread. -/
inductive Turn (s : EventLoop T F) : Event T F → EventLoop T F → Prop
  | report (hphase : s.phase = .polling) : Turn s (.poll true) { s with phase := .handling true, edge := false }
  | timeout (hphase : s.phase = .polling) : Turn s (.poll false) { s with phase := .handling false }
  | handleRead (hphase : s.phase = .handling true) :
      Turn s .handleRead { s with phase := .handling false, counter := 0 }
  | doPendingFunctors (hphase : s.phase = .handling false) : Turn s .doPendingFunctors { s with phase := .swapping }
  | swap (hphase : s.phase = .swapping) :
      Turn s .swap { s with pendingFunctors := [], phase := .running false s.pendingFunctors, swaps := s.swaps + 1 }
  | callFunctor {q : Queued T F} {functors : List (Queued T F)} (hphase : s.phase = .running false (q :: functors)) :
      Turn s .callFunctor { s with phase := .running true functors, called := s.called ++ [⟨q, s.swaps⟩] }
  | functorReturns {functors : List (Queued T F)} (hphase : s.phase = .running true functors) :
      Turn s .functorReturns { s with phase := .running false functors }
  | endBatch (hphase : s.phase = .running false []) : Turn s .endBatch { s with phase := .polling }

theorem turn_of_loopStep {e : Event T F} (hl : s.loopStep e = some s') : Turn s e s' := by
  cases e with
  | queueInLoop t functor => cases hl
  | runInLoop t functor => cases hl
  | wakeup t => cases hl
  | poll reported =>
    simp only [EventLoop.loopStep] at hl
    split at hl
    case h_1 hphase =>
      split_ifs at hl
      obtain rfl := Option.some.inj hl
      exact .report hphase
    case h_2 hphase =>
      obtain rfl := Option.some.inj hl
      exact .timeout hphase
    case h_3 => cases hl
  | handleRead =>
    simp only [EventLoop.loopStep] at hl
    split at hl
    case h_1 hphase =>
      obtain rfl := Option.some.inj hl
      exact .handleRead hphase
    case h_2 => cases hl
  | doPendingFunctors =>
    simp only [EventLoop.loopStep] at hl
    split at hl
    case h_1 hphase =>
      obtain rfl := Option.some.inj hl
      exact .doPendingFunctors hphase
    case h_2 => cases hl
  | swap =>
    simp only [EventLoop.loopStep] at hl
    split at hl
    case h_1 hphase =>
      obtain rfl := Option.some.inj hl
      exact .swap hphase
    case h_2 => cases hl
  | callFunctor =>
    simp only [EventLoop.loopStep] at hl
    split at hl
    case h_1 q functors hphase =>
      obtain rfl := Option.some.inj hl
      exact .callFunctor hphase
    case h_2 => cases hl
  | functorReturns =>
    simp only [EventLoop.loopStep] at hl
    split at hl
    case h_1 functors hphase =>
      obtain rfl := Option.some.inj hl
      exact .functorReturns hphase
    case h_2 => cases hl
  | endBatch =>
    simp only [EventLoop.loopStep] at hl
    split at hl
    case h_1 hphase =>
      obtain rfl := Option.some.inj hl
      exact .endBatch hphase
    case h_2 => cases hl

theorem Inv.loopStep {e : Event T F} (h : s.Inv) (hl : s.loopStep e = some s') : s'.Inv := by
  cases turn_of_loopStep hl with
  | report hphase => exact h.report hphase
  | timeout hphase | doPendingFunctors hphase =>
    exact h.setPhase _ (by rw [hphase]; rfl) (by rw [hphase]; nofun) nofun
  | handleRead hphase => exact h.handleRead hphase
  | swap hphase => exact h.swap hphase
  | callFunctor hphase => exact h.callFunctor hphase
  | functorReturns hphase | endBatch hphase =>
    exact h.setPhase _ (by rw [hphase]; rfl) (by rw [hphase]; nofun) fun _ => by rw [hphase]; rfl

end LoopThread

theorem Inv.step {e : Event T F} (h : s.Inv) (hstep : s.step owner e = some s') : s'.Inv := by
  cases e with
  | queueInLoop t functor => exact h.queueInLoop hstep
  | runInLoop t functor => exact h.runInLoop hstep
  | wakeup t => exact h.wakeup hstep
  | _ =>
    simp only [EventLoop.step] at hstep
    split_ifs at hstep
    exact h.loopStep hstep

/-! ## Runs -/

/-- The functors called are the first ones pushed, in order and once each, and the others are still queued; each is
called in the batch after the last swap before its push, so one pushed by a running functor is called in a later batch;
and while the loop is in `epoll_wait`, a queued functor comes with an unreported edge of a non-zero eventfd or with a
thread that is yet to make its `Wakeup()`. -/
structure QueueOk (s : EventLoop T F) : Prop where
  fifo : s.called.map Called.queued ++ s.phase.batch ++ s.pendingFunctors = s.pushed
  later_batch : ∀ c ∈ s.called, c.batch = c.queued.swaps + 1
  no_sleep : s.phase = .polling → ∀ q ∈ s.pendingFunctors,
    s.counter ≠ 0 ∧ s.edge = true ∨ s.owesWakeup q.thread = true

/-- **The functor queue.**  In every state of every run, for any threads in any interleaving. -/
theorem functorQueue {es : List (Event T F)} (hrun : runFrom (step owner) start es = some s) : s.QueueOk := by
  have hinv : s.Inv := invariant_of_run (fun _ _ _ h hstep => h.step hstep) start_inv hrun
  refine ⟨hinv.fifo, hinv.called_batch, fun hphase => ?_⟩
  exact hinv.woken (by rw [hphase]; rfl)

/-- Thread 1 queues a functor that queues another when it runs on the loop thread 0. -/
def nestedQueueing : List (Event ℕ ℕ) :=
  [.queueInLoop 1 7, .wakeup 1, .poll true, .handleRead, .doPendingFunctors, .swap, .callFunctor, .queueInLoop 0 8,
    .wakeup 0, .functorReturns, .endBatch]

theorem functorQueue_nested :
    ∃ s : EventLoop ℕ ℕ, runFrom (step 0) start nestedQueueing = some s ∧ s.phase = .polling ∧
      s.pendingFunctors.map Queued.functor = [8] ∧ s.QueueOk := by
  obtain ⟨s, hrun, hphase, hpending⟩ : ∃ s : EventLoop ℕ ℕ, runFrom (step 0) start nestedQueueing = some s ∧
      s.phase = .polling ∧ s.pendingFunctors.map Queued.functor = [8] := ⟨_, rfl, rfl, rfl⟩
  exact ⟨s, hrun, hphase, hpending, functorQueue hrun⟩

end EventLoop
end Chater.Net
