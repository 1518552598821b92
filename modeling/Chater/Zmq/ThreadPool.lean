import Chater.Foundations.TaskQueue
import Chater.Foundations.Transition

/-!
# The thread pool of the ZeroMQ gateway

`ThreadPool` of `gateway/common`: `Submit` puts a task into the queue unless the pool is shut down, the workers run
`WorkerLoop`, and `Shutdown` clears `running_` and joins the workers.  Each section under the mutex is one step.  A
worker that finds nothing to do waits on the condition variable and may wake at any time, notified or not, so the
notifications themselves do not show.  Each call of `Submit` has a number of its own, by which its task is known.

A worker leaves its loop only when the pool is shut down and the queue is empty, and after that no task is accepted any
more.  So a pool with workers has run every accepted task when `Shutdown` returns.
-/

namespace Chater.Zmq

open Foundations TaskQueue

set_option autoImplicit false

/-- Where a worker is: about to lock the mutex, waiting in `cv_.wait`, in a task, or returned. -/
inductive PoolWorker
  | locking
  | waiting
  | inTask (task : ℕ)
  | exited
deriving DecidableEq, Repr

def PoolWorker.tasks : PoolWorker → Multiset ℕ
  | .inTask task => {task}
  | _ => 0

inductive ShutdownPhase
  | notCalled
  | joining
  | returned
deriving DecidableEq, Repr

/-- `submitting t` is the call of `Submit` that thread `t` is in behind its locked section, with what it is going to
return, and `returned` are the calls that have returned.  `accepted`, `dequeued` and `finished` list the tasks put into
the queue, taken from it and run, each in the order in which that happened. -/
structure ThreadPool where
  running : Bool
  tasks : List ℕ
  workers : ℕ → PoolWorker
  shutdown : ShutdownPhase
  calls : ℕ
  submitting : ℕ → Option (ℕ × Bool)
  returned : List (ℕ × Bool)
  accepted : List ℕ
  dequeued : List ℕ
  finished : List ℕ

namespace ThreadPool

def start : ThreadPool := ⟨true, [], fun _ => .locking, .notCalled, 0, fun _ => none, [], [], [], []⟩

inductive Event
  | submit (t : ℕ)
  | submitReturns (t : ℕ)
  | lock (i : ℕ)
  | wake (i : ℕ)
  | finish (i : ℕ)
  | shutdown
  | shutdownReturns

def setWorker (s : ThreadPool) (i : ℕ) (w : PoolWorker) : ThreadPool :=
  { s with workers := Function.update s.workers i w }

/-- The locked section of `Submit`. -/
def submit (s : ThreadPool) (t : ℕ) : ThreadPool :=
  let task := s.calls
  let s := { s with calls := s.calls + 1, submitting := Function.update s.submitting t (some (task, s.running)) }
  if s.running then { s with tasks := s.tasks ++ [task], accepted := s.accepted ++ [task] } else s

/-- The locked section of `WorkerLoop`: the predicate of `cv_.wait`, the exit, and the front task. -/
def lock (s : ThreadPool) (i : ℕ) : ThreadPool :=
  match s.running, s.tasks with
  | true, [] => s.setWorker i .waiting
  | false, [] => s.setWorker i .exited
  | _, task :: tasks => { s with tasks := tasks, dequeued := s.dequeued ++ [task] }.setWorker i (.inTask task)

def allExited (n : ℕ) (s : ThreadPool) : Bool := (List.range n).all fun i => s.workers i = .exited

/-- The steps of a pool with `n` workers and one call of `Shutdown`. -/
def step (n : ℕ) (s : ThreadPool) : Event → Option ThreadPool
  | .submit t => if (s.submitting t).isSome then none else some (s.submit t)
  | .submitReturns t =>
    (s.submitting t).map fun call =>
      { s with submitting := Function.update s.submitting t none, returned := s.returned ++ [call] }
  | .lock i => if i < n ∧ s.workers i = .locking then some (s.lock i) else none
  | .wake i => if i < n ∧ s.workers i = .waiting then some (s.setWorker i .locking) else none
  | .finish i =>
    match s.workers i with
    | .inTask task => if i < n then some ({ s with finished := s.finished ++ [task] }.setWorker i .locking) else none
    | _ => none
  | .shutdown =>
    if s.shutdown = .notCalled then
      some (if s.running then { s with running := false, shutdown := .joining } else { s with shutdown := .returned })
    else none
  | .shutdownReturns =>
    if s.shutdown = .joining ∧ s.allExited n then some { s with shutdown := .returned } else none

/-! ## What holds in every state -/

def held (s : ThreadPool) : ℕ → Multiset ℕ := PoolWorker.tasks ∘ s.workers

theorem held_setWorker (s : ThreadPool) (i : ℕ) (w : PoolWorker) :
    (s.setWorker i w).held = Function.update s.held i w.tasks :=
  Function.comp_update _ _ _ _

theorem setWorker_workers (s : ThreadPool) (i j : ℕ) (w : PoolWorker) :
    (s.setWorker i w).workers j = if j = i then w else s.workers j := by
  by_cases h : j = i
  · subst h
    simp [setWorker]
  · simp [setWorker, h]

structure Sound (n : ℕ) (s : ThreadPool) : Prop where
  accounted : Accounted n s.accepted s.tasks s.dequeued s.finished s.held
  numbered : Numbered s.calls s.accepted
  answered : ∀ task b, Made s.submitting s.returned (task, b) → task < s.calls ∧ (b = true ↔ task ∈ s.accepted)
  exited : ∀ i, s.workers i = .exited → s.running = false ∧ s.tasks = []
  running : s.running = true ↔ s.shutdown = .notCalled
  joined : s.shutdown = .returned → ∀ i < n, s.workers i = .exited

theorem start_sound (n : ℕ) : start.Sound n where
  accounted := Accounted.start fun _ => rfl
  numbered := ⟨by simp [start], List.nodup_nil⟩
  answered := by
    rintro task b (⟨t, h⟩ | h)
    · cases h
    · cases h
  exited _ h := by cases h
  running := by decide
  joined h := by cases h

/-! ### One lemma for each step -/

variable {n : ℕ} {s s' : ThreadPool}

theorem Sound.submit (h : s.Sound n) (t : ℕ) : (s.submit t).Sound n := by
  have hfresh := h.numbered.fresh
  unfold ThreadPool.submit
  simp only
  split_ifs with hrunning
  · refine ⟨h.accounted.push _, h.numbered.push, fun task b hcall => ?_, fun i hi => ?_, h.running, h.joined⟩
    · obtain hcall | hcall := made_of_begin hcall
      · obtain ⟨rfl, rfl⟩ := Prod.mk.inj hcall
        exact ⟨Nat.lt_succ_self _, by simp [hrunning]⟩
      · obtain ⟨hlt, hiff⟩ := h.answered task b hcall
        refine ⟨hlt.trans (Nat.lt_succ_self _), hiff.trans ?_⟩
        simp [hlt.ne]
    · exact absurd hrunning (by simp [(h.exited i hi).1])
  · refine ⟨h.accounted, h.numbered.skip, fun task b hcall => ?_, h.exited, h.running, h.joined⟩
    obtain hcall | hcall := made_of_begin hcall
    · obtain ⟨rfl, rfl⟩ := Prod.mk.inj hcall
      exact ⟨Nat.lt_succ_self _, by simp [hrunning, hfresh]⟩
    · obtain ⟨hlt, hiff⟩ := h.answered task b hcall
      exact ⟨hlt.trans (Nat.lt_succ_self _), hiff⟩

theorem Sound.submitReturns (h : s.Sound n) {t : ℕ} {call : ℕ × Bool} (hcall : s.submitting t = some call) :
    Sound n { s with submitting := Function.update s.submitting t none, returned := s.returned ++ [call] } :=
  ⟨h.accounted, h.numbered, fun task b hb => h.answered task b (made_of_return hcall hb), h.exited, h.running, h.joined⟩

/-- A worker that has not returned goes to a place other than its task. -/
theorem Sound.setWorker (h : s.Sound n) {i : ℕ} {w : PoolWorker} (hheld : (s.workers i).tasks = w.tasks)
    (hleft : s.workers i ≠ .exited) (hi : i < n) (hexit : w = .exited → s.running = false ∧ s.tasks = []) :
    (s.setWorker i w).Sound n := by
  have hsame : (s.setWorker i w).held = s.held := by
    rw [held_setWorker, ← hheld]
    exact Function.update_eq_self _ _
  refine ⟨by rw [hsame]; exact h.accounted, h.numbered, h.answered, ?_, h.running, ?_⟩
  · intro j hj
    rw [setWorker_workers] at hj
    split_ifs at hj
    · exact hexit hj
    · exact h.exited j hj
  · intro hreturned
    exact absurd (h.joined hreturned i hi) hleft

theorem Sound.lock (h : s.Sound n) {i : ℕ} (hi : i < n) (hlocking : s.workers i = .locking) : (s.lock i).Sound n := by
  have hleft : s.workers i ≠ .exited := by simp [hlocking]
  unfold ThreadPool.lock
  split
  · exact h.setWorker (by simp [hlocking, PoolWorker.tasks]) hleft hi (by simp)
  · rename_i hrunning htasks
    exact h.setWorker (by simp [hlocking, PoolWorker.tasks]) hleft hi fun _ => ⟨hrunning, htasks⟩
  · rename_i task tasks htasks
    have haccounted := h.accounted
    rw [htasks] at haccounted
    have hfree : s.held i = 0 := by simp [held, hlocking, PoolWorker.tasks]
    refine ⟨?_, h.numbered, h.answered, ?_, h.running, fun hreturned => absurd (h.joined hreturned i hi) hleft⟩
    · rw [held_setWorker]
      exact haccounted.dequeue hi hfree
    · intro j hj
      rw [setWorker_workers] at hj
      split_ifs at hj
      have hempty := (h.exited j hj).2
      rw [htasks] at hempty
      cases hempty

theorem Sound.finish (h : s.Sound n) {i task : ℕ} (hi : i < n) (hin : s.workers i = .inTask task) :
    ({ s with finished := s.finished ++ [task] }.setWorker i .locking).Sound n := by
  refine ⟨?_, h.numbered, h.answered, ?_, h.running, ?_⟩
  · rw [held_setWorker]
    exact h.accounted.finish hi (by simp [held, hin, PoolWorker.tasks])
  · intro j hj
    rw [setWorker_workers] at hj
    split_ifs at hj
    exact h.exited j hj
  · intro hreturned
    have hexited := h.joined hreturned i hi
    rw [hin] at hexited
    cases hexited

/-- What a step can do. -/
inductive Stepped (n : ℕ) (s : ThreadPool) : ThreadPool → Prop
  | submit (t : ℕ) : Stepped n s (s.submit t)
  | submitReturns (t : ℕ) (call : ℕ × Bool) (hcall : s.submitting t = some call) :
      Stepped n s { s with submitting := Function.update s.submitting t none, returned := s.returned ++ [call] }
  | lock (i : ℕ) (hi : i < n) (hlocking : s.workers i = .locking) : Stepped n s (s.lock i)
  | wake (i : ℕ) (hi : i < n) (hwaiting : s.workers i = .waiting) : Stepped n s (s.setWorker i .locking)
  | finish (i task : ℕ) (hi : i < n) (hin : s.workers i = .inTask task) :
      Stepped n s ({ s with finished := s.finished ++ [task] }.setWorker i .locking)
  | shutdown (running : Bool) (phase : ShutdownPhase) (hphase : s.shutdown = .notCalled)
      (hnext : (running, phase) = if s.running then (false, .joining) else (s.running, .returned)) :
      Stepped n s { s with running := running, shutdown := phase }
  | shutdownReturns (hphase : s.shutdown = .joining) (hexited : ∀ i < n, s.workers i = .exited) :
      Stepped n s { s with shutdown := .returned }

theorem stepped_of_step {e : Event} (hstep : step n s e = some s') : Stepped n s s' := by
  cases e with
  | submit t =>
    simp only [step] at hstep
    split_ifs at hstep
    obtain rfl := Option.some.inj hstep
    exact .submit t
  | submitReturns t =>
    obtain ⟨call, hcall, rfl⟩ := Option.map_eq_some_iff.mp hstep
    exact .submitReturns t call hcall
  | lock i =>
    simp only [step] at hstep
    split_ifs at hstep with hi
    obtain rfl := Option.some.inj hstep
    exact .lock i hi.1 hi.2
  | wake i =>
    simp only [step] at hstep
    split_ifs at hstep with hi
    obtain rfl := Option.some.inj hstep
    exact .wake i hi.1 hi.2
  | finish i =>
    simp only [step] at hstep
    split at hstep
    · rename_i task hin
      split_ifs at hstep with hi
      obtain rfl := Option.some.inj hstep
      exact .finish i task hi hin
    · cases hstep
  | shutdown =>
    simp only [step] at hstep
    split_ifs at hstep with hphase hrunning
    · obtain rfl := Option.some.inj hstep
      exact .shutdown false .joining hphase (by rw [if_pos hrunning])
    · obtain rfl := Option.some.inj hstep
      exact .shutdown s.running .returned hphase (by rw [if_neg hrunning])
  | shutdownReturns =>
    simp only [step] at hstep
    split_ifs at hstep with hjoined
    obtain rfl := Option.some.inj hstep
    refine .shutdownReturns hjoined.1 fun i hi => ?_
    simpa using List.all_eq_true.mp hjoined.2 i (List.mem_range.mpr hi)

theorem Sound.stepped (h : s.Sound n) (hstep : Stepped n s s') : s'.Sound n := by
  cases hstep with
  | submit t => exact h.submit t
  | submitReturns t call hcall => exact h.submitReturns hcall
  | lock i hi hlocking => exact h.lock hi hlocking
  | wake i hi hwaiting =>
    exact h.setWorker (by simp [hwaiting, PoolWorker.tasks]) (by simp [hwaiting]) hi (by simp)
  | finish i task hi hin => exact h.finish hi hin
  | shutdown running phase hphase hnext =>
    rw [if_pos (h.running.mpr hphase)] at hnext
    obtain ⟨rfl, rfl⟩ := Prod.mk.inj hnext
    exact ⟨h.accounted, h.numbered, h.answered, fun i hi => ⟨rfl, (h.exited i hi).2⟩, by simp, by simp⟩
  | shutdownReturns hphase hexited =>
    refine ⟨h.accounted, h.numbered, h.answered, h.exited, ?_, fun _ => hexited⟩
    rw [h.running, hphase]
    simp

theorem Stepped.returned (hstep : Stepped n s s') : s.returned <+: s'.returned := by
  cases hstep with
  | submit t =>
    unfold ThreadPool.submit
    simp only
    split_ifs <;> exact List.prefix_rfl
  | submitReturns => exact List.prefix_append _ _
  | lock i =>
    unfold ThreadPool.lock
    split <;> exact List.prefix_rfl
  | wake | finish | shutdown | shutdownReturns => exact List.prefix_rfl

/-! ## Runs -/

theorem sound_of_run {es : List Event} (hrun : runFrom (step n) start es = some s) : s.Sound n :=
  invariant_of_run (fun _ _ _ h hstep => h.stepped (stepped_of_step hstep)) (start_sound n) hrun

theorem returned_of_run {es : List Event} (hrun : runFrom (step n) s es = some s') : s.returned <+: s'.returned :=
  @invariant_of_run _ _ (step n) (fun t => s.returned <+: t.returned)
    (fun _ _ _ h hstep => h.trans (stepped_of_step hstep).returned) _ _ _ List.prefix_rfl hrun

/-- When `Shutdown` has returned, a pool with workers has nothing queued and nothing in a worker's hands. -/
theorem Sound.drained (h : s.Sound n) (hn : 0 < n) (hreturned : s.shutdown = .returned) :
    s.dequeued = s.accepted ∧ s.finished.Perm s.accepted := by
  have hexited := h.joined hreturned
  have hempty := (h.exited 0 (hexited 0 hn)).2
  have horder := h.accounted.order
  rw [hempty, List.append_nil] at horder
  refine ⟨horder, horder ▸ h.accounted.finished_perm fun i hi => ?_⟩
  simp [held, hexited i hi, PoolWorker.tasks]

/-- A refused task is never taken from the queue. -/
theorem Sound.refused (h : s.Sound n) {task : ℕ} (hrefused : (task, false) ∈ s.returned) : task ∉ s.dequeued := by
  have hanswered := (h.answered task false (.inr hrefused)).2
  have hnot : task ∉ s.accepted := fun hmem => by simpa using hanswered.mpr hmem
  intro hmem
  rw [← h.accounted.order] at hnot
  exact hnot (List.mem_append_left _ hmem)

/-- **`Shutdown` drains the pool.** -/
theorem shutdown_drains {es : List Event} (hn : 0 < n) (hrun : runFrom (step n) start es = some s)
    (hreturned : s.shutdown = .returned) :
    (∀ task, (task, true) ∈ s.returned → s.finished.count task = 1) ∧
      (∀ task, (task, false) ∈ s.returned → task ∉ s.dequeued ∧
        ∀ es' s', runFrom (step n) s es' = some s' → task ∉ s'.dequeued) ∧
      s.dequeued = s.accepted := by
  have h := sound_of_run hrun
  obtain ⟨hdequeued, hfinished⟩ := h.drained hn hreturned
  refine ⟨fun task htask => ?_, fun task htask => ⟨h.refused htask, fun es' s' hrun' => ?_⟩, hdequeued⟩
  · have hmem : task ∈ s.accepted := (h.answered task true (.inr htask)).2.mp rfl
    rw [hfinished.count_eq]
    exact List.count_eq_one_of_mem h.numbered.nodup hmem
  · have hsound := sound_of_run (runFrom_append hrun hrun')
    exact hsound.refused ((returned_of_run hrun').subset htask)

/-- One worker is in the task of thread 0 when `Shutdown` clears the flag; thread 1 comes too late. -/
def lateSubmit : List Event :=
  [.submit 0, .submitReturns 0, .lock 0, .shutdown, .submit 1, .submitReturns 1, .finish 0, .lock 0, .shutdownReturns]

theorem lateSubmit_drains :
    ∃ s, runFrom (step 1) start lateSubmit = some s ∧ s.returned = [(0, true), (1, false)] ∧
      s.finished.count 0 = 1 ∧ 1 ∉ s.dequeued ∧ s.dequeued = s.accepted := by
  have hend : (runFrom (step 1) start lateSubmit).map (fun s => (s.shutdown, s.returned)) =
      some (.returned, [(0, true), (1, false)]) := by decide +kernel
  obtain ⟨s, hrun, hs⟩ := Option.map_eq_some_iff.mp hend
  obtain ⟨hshutdown, hreturned⟩ := Prod.mk.inj hs
  obtain ⟨haccepted, hrefused, horder⟩ := shutdown_drains Nat.one_pos hrun hshutdown
  rw [hreturned] at haccepted hrefused
  exact ⟨s, hrun, hreturned, haccepted 0 (by decide), (hrefused 1 (by decide)).1, horder⟩

end ThreadPool
end Chater.Zmq
