import Chater.Base.ThreadPool
import Chater.Foundations.TaskQueue
import Chater.Foundations.Transition

/-!
# Stopping the worker pool

The worker pool with the threads that call `Run` and the one call of `Stop`, which clears `running_` under the mutex
and joins the workers.  Each call of `Run` has a number of its own, by which its task is known.

A worker looks at `running_` alone before it goes to `Take`.  So once the flag is cleared the only tasks that are still
taken are those of the workers that were already in `Take`, one each, from the front of the queue.  What is queued
behind them is lost.
-/

namespace Chater.Base

open Foundations TaskQueue

set_option autoImplicit false

inductive StopCall
  | notCalled
  | called
  | joining
  | returned
deriving DecidableEq, Repr

/-- The task a worker has taken and not finished. -/
def Worker.tasks : Worker ℕ → Multiset ℕ
  | .holding task => {task}
  | .inTask task => {task}
  | _ => 0

/-- The task a worker is in. -/
def Worker.current : Worker ℕ → List ℕ
  | .inTask task => [task]
  | _ => []

def Worker.inTake : Worker ℕ → ℕ
  | .taking => 1
  | _ => 0

/-- `inRun t` is the task of the call of `Run` that thread `t` is in behind its locked section, and `ran` are the tasks
of the calls that have returned; `before` are those that had returned when `Stop` was called.  `accepted`, `dequeued`
and `finished` list the tasks put into the queue, taken from it and run. -/
structure PoolHistory where
  pool : ThreadPool ℕ
  calls : ℕ
  inRun : ℕ → Option ℕ
  ran : List ℕ
  stop : StopCall
  before : List ℕ
  accepted : List ℕ
  dequeued : List ℕ
  finished : List ℕ

namespace PoolHistory

def start : PoolHistory := ⟨.started, 0, fun _ => none, [], .notCalled, [], [], [], []⟩

inductive Event
  | run (t : ℕ)
  | runReturns (t : ℕ)
  | checkRunning (i : ℕ)
  | take (i : ℕ)
  | beginTask (i : ℕ)
  | endTask (i : ℕ)
  | callStop
  | clearRunning
  | stopReturns
deriving DecidableEq

def allExited (n : ℕ) (p : ThreadPool ℕ) : Bool :=
  (List.range n).all fun i =>
    match p.workers i with
    | .exited => true
    | _ => false

/-- The steps of a pool with `n` workers, at least one. -/
def step (n : ℕ) (s : PoolHistory) : Event → Option PoolHistory
  | .run t =>
    if (s.inRun t).isSome then none
    else some { s with
      pool := s.pool.push s.calls
      calls := s.calls + 1
      inRun := Function.update s.inRun t (some s.calls)
      accepted := s.accepted ++ [s.calls] }
  | .runReturns t =>
    (s.inRun t).map fun task =>
      { s with inRun := Function.update s.inRun t none, ran := s.ran ++ [task] }
  | .checkRunning i =>
    if i < n then (s.pool.checkRunning i).map fun pool => { s with pool := pool } else none
  | .take i =>
    if i < n then
      (s.pool.take i).map fun pool =>
        { s with pool := pool, dequeued := s.dequeued ++ (pool.workers i).held }
    else none
  | .beginTask i =>
    if i < n then (s.pool.beginTask i).map fun r => { s with pool := r.2 } else none
  | .endTask i =>
    if i < n then
      (s.pool.endTask i).map fun pool =>
        { s with pool := pool, finished := s.finished ++ (s.pool.workers i).current }
    else none
  | .callStop => if s.stop = .notCalled then some { s with stop := .called, before := s.ran } else none
  | .clearRunning => if s.stop = .called then some { s with pool := s.pool.stop, stop := .joining } else none
  | .stopReturns => if s.stop = .joining ∧ allExited n s.pool then some { s with stop := .returned } else none

/-! ## What a step can do -/

variable {n : ℕ} {s s' : PoolHistory}

def workersHold (p : ThreadPool ℕ) : ℕ → Multiset ℕ := Worker.tasks ∘ p.workers

/-- The number of workers in `Take`. -/
def takers (n : ℕ) (p : ThreadPool ℕ) : ℕ := ∑ i ∈ Finset.range n, (Worker.inTake ∘ p.workers) i

theorem workersHold_setWorker (p : ThreadPool ℕ) (i : ℕ) (w : Worker ℕ) :
    workersHold (p.setWorker i w) = Function.update (workersHold p) i w.tasks :=
  Function.comp_update _ _ _ _

theorem takers_setWorker (p : ThreadPool ℕ) {i : ℕ} (hi : i < n) (w : Worker ℕ) :
    takers n (p.setWorker i w) + (p.workers i).inTake = takers n p + w.inTake := by
  have hcomp : Worker.inTake ∘ (p.setWorker i w).workers = Function.update (Worker.inTake ∘ p.workers) i w.inTake :=
    Function.comp_update _ _ _ _
  rw [takers, hcomp]
  exact sum_update_add (Finset.mem_range.mpr hi) _ _

inductive Stepped (n : ℕ) (s : PoolHistory) : Event → PoolHistory → Prop
  | run (t : ℕ) : Stepped n s (.run t) { s with
      pool := s.pool.push s.calls, calls := s.calls + 1, inRun := Function.update s.inRun t (some s.calls),
      accepted := s.accepted ++ [s.calls] }
  | runReturns (t task : ℕ) (hin : s.inRun t = some task) :
      Stepped n s (.runReturns t) { s with inRun := Function.update s.inRun t none, ran := s.ran ++ [task] }
  | pass (i : ℕ) (hi : i < n) (hlooping : s.pool.workers i = .looping) (hrunning : s.pool.running = true) :
      Stepped n s (.checkRunning i) { s with pool := s.pool.setWorker i .taking }
  | exit (i : ℕ) (hi : i < n) (hlooping : s.pool.workers i = .looping) (hstopped : s.pool.running = false) :
      Stepped n s (.checkRunning i) { s with pool := s.pool.setWorker i .exited }
  | take (i : ℕ) (hi : i < n) (htaking : s.pool.workers i = .taking) (task : ℕ) (queue : List ℕ)
      (hqueue : s.pool.queue = task :: queue) :
      Stepped n s (.take i) { s with
        pool := { s.pool with queue := queue }.setWorker i (.holding task), dequeued := s.dequeued ++ [task] }
  | takeNothing (i : ℕ) (hi : i < n) (htaking : s.pool.workers i = .taking) (hqueue : s.pool.queue = [])
      (hstopped : s.pool.running = false) : Stepped n s (.take i) { s with pool := s.pool.setWorker i .looping }
  | beginTask (i : ℕ) (hi : i < n) (task : ℕ) (hholding : s.pool.workers i = .holding task) :
      Stepped n s (.beginTask i) { s with pool := s.pool.setWorker i (.inTask task) }
  | endTask (i : ℕ) (hi : i < n) (task : ℕ) (hin : s.pool.workers i = .inTask task) :
      Stepped n s (.endTask i) { s with pool := s.pool.setWorker i .looping, finished := s.finished ++ [task] }
  | callStop (hstop : s.stop = .notCalled) : Stepped n s .callStop { s with stop := .called, before := s.ran }
  | clearRunning (hstop : s.stop = .called) : Stepped n s .clearRunning { s with pool := s.pool.stop, stop := .joining }
  | stopReturns (hstop : s.stop = .joining) (hexited : ∀ i < n, s.pool.workers i = .exited) :
      Stepped n s .stopReturns { s with stop := .returned }

theorem exited_of_allExited {p : ThreadPool ℕ} (h : allExited n p = true) {i : ℕ} (hi : i < n) :
    p.workers i = .exited := by
  have hworker := List.all_eq_true.mp h i (List.mem_range.mpr hi)
  cases hw : p.workers i with
  | exited => rfl
  | looping | taking | holding | inTask => simp [hw] at hworker

theorem stepped_of_step {e : Event} (hstep : step n s e = some s') : Stepped n s e s' := by
  cases e with
  | run t =>
    simp only [step] at hstep
    split_ifs at hstep
    obtain rfl := Option.some.inj hstep
    exact .run t
  | runReturns t =>
    obtain ⟨task, htask, rfl⟩ := Option.map_eq_some_iff.mp hstep
    exact .runReturns t task htask
  | checkRunning i =>
    simp only [step] at hstep
    split_ifs at hstep with hi
    obtain ⟨pool, hpool, rfl⟩ := Option.map_eq_some_iff.mp hstep
    unfold ThreadPool.checkRunning at hpool
    split at hpool
    · rename_i hlooping
      obtain rfl := Option.some.inj hpool
      split_ifs with hrunning
      · exact .pass i hi hlooping hrunning
      · exact .exit i hi hlooping (Bool.eq_false_iff.mpr hrunning)
    · cases hpool
  | take i =>
    simp only [step] at hstep
    split_ifs at hstep with hi
    obtain ⟨pool, hpool, rfl⟩ := Option.map_eq_some_iff.mp hstep
    unfold ThreadPool.take at hpool
    split at hpool
    · rename_i task queue htaking hqueue
      obtain rfl := Option.some.inj hpool
      simpa [ThreadPool.setWorker, Worker.held] using Stepped.take i hi htaking task queue hqueue
    · rename_i htaking hqueue
      split_ifs at hpool with hrunning
      obtain rfl := Option.some.inj hpool
      simpa [ThreadPool.setWorker, Worker.held] using
        Stepped.takeNothing i hi htaking hqueue (Bool.eq_false_iff.mpr hrunning)
    · cases hpool
  | beginTask i =>
    simp only [step] at hstep
    split_ifs at hstep with hi
    obtain ⟨r, hpool, rfl⟩ := Option.map_eq_some_iff.mp hstep
    unfold ThreadPool.beginTask at hpool
    split at hpool
    · rename_i task hholding
      obtain rfl := Option.some.inj hpool
      exact .beginTask i hi task hholding
    · cases hpool
  | endTask i =>
    simp only [step] at hstep
    split_ifs at hstep with hi
    obtain ⟨pool, hpool, rfl⟩ := Option.map_eq_some_iff.mp hstep
    unfold ThreadPool.endTask at hpool
    split at hpool
    · rename_i task hin
      obtain rfl := Option.some.inj hpool
      rw [hin]
      exact .endTask i hi task hin
    · cases hpool
  | callStop =>
    simp only [step] at hstep
    split_ifs at hstep with hstop
    obtain rfl := Option.some.inj hstep
    exact .callStop hstop
  | clearRunning =>
    simp only [step] at hstep
    split_ifs at hstep with hstop
    obtain rfl := Option.some.inj hstep
    exact .clearRunning hstop
  | stopReturns =>
    simp only [step] at hstep
    split_ifs at hstep with hstop
    obtain rfl := Option.some.inj hstep
    exact .stopReturns hstop.1 fun i hi => exited_of_allExited hstop.2 hi

/-! ## What holds in every state -/

structure Sound (n : ℕ) (s : PoolHistory) : Prop where
  accounted : Accounted n s.accepted s.pool.queue s.dequeued s.finished (workersHold s.pool)
  numbered : Numbered s.calls s.accepted
  made : ∀ task, Made s.inRun s.ran task → task ∈ s.accepted
  before : ∀ task ∈ s.before, task ∈ s.accepted
  joined : s.stop = .returned → ∀ i < n, s.pool.workers i = .exited

theorem start_sound (n : ℕ) : start.Sound n where
  accounted := Accounted.start fun _ => rfl
  numbered := ⟨by simp [start], List.nodup_nil⟩
  made := by
    rintro task (⟨t, h⟩ | h)
    · cases h
    · cases h
  before _ h := by cases h
  joined h := by cases h

theorem Sound.run (h : s.Sound n) (t : ℕ) : Sound n { s with
    pool := s.pool.push s.calls, calls := s.calls + 1, inRun := Function.update s.inRun t (some s.calls),
    accepted := s.accepted ++ [s.calls] } where
  accounted := h.accounted.push s.calls
  numbered := h.numbered.push
  made task hmade := by
    obtain rfl | hold := made_of_begin hmade
    · exact List.mem_append_right _ (List.mem_singleton_self _)
    · exact List.mem_append_left _ (h.made task hold)
  before task hmem := List.mem_append_left _ (h.before task hmem)
  joined := h.joined

/-- A worker of a pool that is not joined yet moves, and the accounts are in order afterwards. -/
theorem Sound.worker (h : s.Sound n) {i : ℕ} {p : ThreadPool ℕ} {dequeued finished : List ℕ} (hi : i < n)
    (hleft : s.pool.workers i ≠ .exited)
    (haccounted : Accounted n s.accepted p.queue dequeued finished (workersHold p)) :
    Sound n { s with pool := p, dequeued := dequeued, finished := finished } :=
  ⟨haccounted, h.numbered, h.made, h.before, fun hreturned => absurd (h.joined hreturned i hi) hleft⟩

/-- A worker moves with what it has in its hands. -/
theorem Sound.setWorker (h : s.Sound n) {i : ℕ} {w : Worker ℕ} (hi : i < n) (hleft : s.pool.workers i ≠ .exited)
    (htasks : (s.pool.workers i).tasks = w.tasks) : Sound n { s with pool := s.pool.setWorker i w } := by
  have hsame : workersHold (s.pool.setWorker i w) = workersHold s.pool := by
    rw [workersHold_setWorker, ← htasks]
    exact Function.update_eq_self _ _
  exact h.worker hi hleft (hsame ▸ h.accounted)

theorem Sound.stepped {e : Event} (h : s.Sound n) (hstep : Stepped n s e s') : s'.Sound n := by
  cases hstep with
  | run t => exact h.run t
  | runReturns t task hin =>
    exact ⟨h.accounted, h.numbered, fun k hk => h.made k (made_of_return hin hk), h.before, h.joined⟩
  | pass i hi hlooping => exact h.setWorker hi (by simp [hlooping]) (by simp [hlooping, Worker.tasks])
  | exit i hi hlooping => exact h.setWorker hi (by simp [hlooping]) (by simp [hlooping, Worker.tasks])
  | take i hi htaking task queue hqueue =>
    refine h.worker hi (by simp [htaking]) ?_
    have haccounted := h.accounted
    rw [hqueue] at haccounted
    rw [workersHold_setWorker]
    exact haccounted.dequeue hi (by simp [workersHold, htaking, Worker.tasks])
  | takeNothing i hi htaking => exact h.setWorker hi (by simp [htaking]) (by simp [htaking, Worker.tasks])
  | beginTask i hi task hholding => exact h.setWorker hi (by simp [hholding]) (by simp [hholding, Worker.tasks])
  | endTask i hi task hin =>
    refine h.worker hi (by simp [hin]) ?_
    rw [workersHold_setWorker]
    exact h.accounted.finish hi (by simp [workersHold, hin, Worker.tasks])
  | callStop => exact ⟨h.accounted, h.numbered, h.made, fun task hmem => h.made task (.inr hmem), by simp⟩
  | clearRunning => exact ⟨h.accounted, h.numbered, h.made, h.before, by simp⟩
  | stopReturns hstop hexited => exact ⟨h.accounted, h.numbered, h.made, h.before, fun _ => hexited⟩

theorem Sound.finished_perm (h : s.Sound n) (hreturned : s.stop = .returned) : s.finished.Perm s.dequeued :=
  h.accounted.finished_perm fun i hi => by simp [workersHold, h.joined hreturned i hi, Worker.tasks]

/-- With the workers joined, the tasks that have been run are those that were taken, each once. -/
theorem Sound.count_finished (h : s.Sound n) (hreturned : s.stop = .returned) (task : ℕ) :
    s.finished.count task = 1 ↔ task ∈ s.dequeued := by
  have hnodup : s.dequeued.Nodup := (List.nodup_append.mp (h.accounted.order ▸ h.numbered.nodup)).1
  rw [(h.finished_perm hreturned).count_eq]
  exact ⟨fun hcount => List.count_pos_iff.mp (by omega), List.count_eq_one_of_mem hnodup⟩

/-! ## After the flag is cleared

`s₁` is the state in which `Stop` clears `running_`, and `taken` are the tasks taken since.  Every worker that was in
`Take` takes one of them, or finds the queue empty, which is only after all that was queued in `s₁` is taken. -/

structure SinceClear (n : ℕ) (s₁ : PoolHistory) (taken : List ℕ) (s : PoolHistory) : Prop where
  stopped : s.pool.running = false
  cleared : s.stop = .joining ∨ s.stop = .returned
  dequeued : s.dequeued = s₁.dequeued ++ taken
  accepted : s₁.accepted <+: s.accepted
  before : s.before = s₁.before
  bound : taken.length + takers n s.pool ≤ takers n s₁.pool
  used : taken.length + takers n s.pool = takers n s₁.pool ∨ s₁.pool.queue.length ≤ taken.length

variable {s₁ : PoolHistory} {taken : List ℕ}

theorem sinceClear_clear (s₁ : PoolHistory) : SinceClear n s₁ [] { s₁ with pool := s₁.pool.stop, stop := .joining } where
  stopped := rfl
  cleared := .inl rfl
  dequeued := (List.append_nil _).symm
  accepted := List.prefix_rfl
  before := rfl
  bound := by simp [takers, ThreadPool.stop]
  used := .inl (by simp [takers, ThreadPool.stop])

/-- The tasks taken since are the first of those queued in `s₁` and those pushed since. -/
theorem SinceClear.split (h : SinceClear n s₁ taken s) (h₁ : s₁.Sound n) (hs : s.Sound n) :
    ∃ pushed, s.accepted = s₁.accepted ++ pushed ∧ taken ++ s.pool.queue = s₁.pool.queue ++ pushed := by
  obtain ⟨pushed, hpushed⟩ := h.accepted
  refine ⟨pushed, hpushed.symm, ?_⟩
  have horder := hs.accounted.order
  rw [← hpushed, ← h₁.accounted.order, h.dequeued, List.append_assoc, List.append_assoc] at horder
  exact List.append_cancel_left horder

/-- A worker that is not in `Take` afterwards moves. -/
theorem SinceClear.setWorker (h : SinceClear n s₁ taken s) {i : ℕ} {w : Worker ℕ} {finished : List ℕ} (hi : i < n)
    (hbefore : (s.pool.workers i).inTake = 0) (hafter : w.inTake = 0) :
    SinceClear n s₁ taken { s with pool := s.pool.setWorker i w, finished := finished } := by
  have htakers := takers_setWorker s.pool hi w
  rw [hbefore, hafter, add_zero, add_zero] at htakers
  exact ⟨h.stopped, h.cleared, h.dequeued, h.accepted, h.before, htakers ▸ h.bound, htakers ▸ h.used⟩

/-- A worker leaves `Take` with what it got, which is nothing only when all that was queued in `s₁` is taken. -/
theorem SinceClear.leaveTake (h : SinceClear n s₁ taken s) {p : ThreadPool ℕ} (got : List ℕ)
    (hstopped : p.running = false) (htakers : takers n p + 1 = takers n s.pool) (hone : got.length ≤ 1)
    (hgot : got.length = 1 ∨ s₁.pool.queue.length ≤ taken.length) :
    SinceClear n s₁ (taken ++ got) { s with pool := p, dequeued := s.dequeued ++ got } := by
  have hbound := h.bound
  have hused := h.used
  have hlength : (taken ++ got).length = taken.length + got.length := List.length_append
  refine ⟨hstopped, h.cleared, ?_, h.accepted, h.before, ?_, ?_⟩
  · rw [h.dequeued, List.append_assoc]
  · change (taken ++ got).length + takers n p ≤ takers n s₁.pool
    omega
  · change (taken ++ got).length + takers n p = takers n s₁.pool ∨ s₁.pool.queue.length ≤ (taken ++ got).length
    omega

theorem SinceClear.stepped {e : Event} (h : SinceClear n s₁ taken s) (h₁ : s₁.Sound n) (hs : s.Sound n)
    (hstep : Stepped n s e s') : ∃ taken', SinceClear n s₁ taken' s' := by
  cases hstep with
  | run t =>
    exact ⟨taken, h.stopped, h.cleared, h.dequeued, h.accepted.trans (List.prefix_append _ _), h.before, h.bound, h.used⟩
  | runReturns => exact ⟨taken, h.stopped, h.cleared, h.dequeued, h.accepted, h.before, h.bound, h.used⟩
  | pass i hi hlooping hrunning => exact absurd hrunning (by simp [h.stopped])
  | exit i hi hlooping => exact ⟨taken, h.setWorker hi (by simp [hlooping, Worker.inTake]) rfl⟩
  | take i hi htaking task queue hqueue =>
    have htakers := takers_setWorker { s.pool with queue := queue } hi (.holding task)
    simp only [htaking, Worker.inTake] at htakers
    exact ⟨_, h.leaveTake [task] h.stopped htakers le_rfl (.inl rfl)⟩
  | takeNothing i hi htaking hqueue =>
    have htakers := takers_setWorker s.pool hi .looping
    simp only [htaking, Worker.inTake] at htakers
    obtain ⟨pushed, -, hsplit⟩ := h.split h₁ hs
    have hlength := congrArg List.length hsplit
    rw [hqueue, List.append_nil, List.length_append] at hlength
    have hleave := h.leaveTake [] (p := s.pool.setWorker i .looping) h.stopped htakers (Nat.zero_le _) (.inr (by omega))
    exact ⟨taken, by simpa using hleave⟩
  | beginTask i hi task hholding => exact ⟨taken, h.setWorker hi (by simp [hholding, Worker.inTake]) rfl⟩
  | endTask i hi task hin => exact ⟨taken, h.setWorker hi (by simp [hin, Worker.inTake]) rfl⟩
  | callStop hstop => exact absurd h.cleared (by simp [hstop])
  | clearRunning hstop => exact absurd h.cleared (by simp [hstop])
  | stopReturns => exact ⟨taken, h.stopped, .inr rfl, h.dequeued, h.accepted, h.before, h.bound, h.used⟩

/-- The tasks whose `Run` had returned when `Stop` was called are all among those that the workers in `Take` get. -/
def Spared (n : ℕ) (s : PoolHistory) : Prop := ∀ task ∈ s.pool.queue.drop (takers n s.pool), task ∉ s.before

instance (n : ℕ) (s : PoolHistory) : Decidable (Spared n s) := List.decidableBAll _ _

theorem SinceClear.executed_iff (h : SinceClear n s₁ taken s) (h₁ : s₁.Sound n) (hs : s.Sound n)
    (hreturned : s.stop = .returned) : (∀ task ∈ s.before, s.finished.count task = 1) ↔ Spared n s₁ := by
  have hnone : takers n s.pool = 0 :=
    Finset.sum_eq_zero fun i hi => by simp [hs.joined hreturned i (Finset.mem_range.mp hi), Worker.inTake]
  have hbound := h.bound
  have hused := h.used
  rw [hnone, add_zero] at hbound hused
  obtain ⟨pushed, haccepted, hsplit⟩ := h.split h₁ hs
  -- what is taken is cut off the front of the queue and what was pushed behind it
  have htaken : taken = (s₁.pool.queue ++ pushed).take taken.length := by
    rw [← hsplit, List.take_left]
  have horder := h₁.accounted.order
  simp only [hs.count_finished hreturned, h.before, h.dequeued]
  constructor
  · intro hall task hleft hbefore
    have hnodup := hs.numbered.nodup
    rw [haccepted, ← horder, ← List.take_append_drop (takers n s₁.pool) s₁.pool.queue] at hnodup
    have hfront : task ∈ s₁.dequeued ++ s₁.pool.queue.take (takers n s₁.pool) ++ pushed := by
      obtain hold | hnew := List.mem_append.mp (hall task hbefore)
      · exact List.mem_append_left _ (List.mem_append_left _ hold)
      · rw [htaken, List.take_append] at hnew
        obtain hqueue | hpushed := List.mem_append.mp hnew
        · exact List.mem_append_left _ (List.mem_append_right _ ((List.take_subset_take_left _ hbound) hqueue))
        · exact List.mem_append_right _ (List.mem_of_mem_take hpushed)
    simp only [List.nodup_append, List.mem_append] at hnodup hfront
    grind
  · intro hspared task hbefore
    have hmem := h₁.before task hbefore
    rw [← horder, ← List.take_append_drop (takers n s₁.pool) s₁.pool.queue, List.mem_append, List.mem_append] at hmem
    obtain hold | hfront | hleft := hmem
    · exact List.mem_append_left _ hold
    · refine List.mem_append_right _ ?_
      rw [htaken, List.take_append]
      refine List.mem_append_left _ ?_
      obtain hlength | hlength := hused
      · rw [hlength]
        exact hfront
      · rw [List.take_of_length_le hlength]
        exact List.mem_of_mem_take hfront
    · exact absurd hbefore (hspared task hleft)

/-! ## Runs -/

def cleared : StopCall → Bool
  | .joining | .returned => true
  | _ => false

theorem Stepped.cleared_eq {e : Event} (hstep : Stepped n s e s') (he : e ≠ .clearRunning) :
    cleared s'.stop = cleared s.stop := by
  cases hstep with
  | clearRunning => exact absurd rfl he
  | callStop hstop => rw [hstop]; rfl
  | stopReturns hstop => rw [hstop]; rfl
  | run | runReturns | pass | exit | take | takeNothing | beginTask | endTask => rfl

/-- The condition on a step: where the flag is cleared, every task that counts is spared. -/
def SparedAt (n : ℕ) (s : PoolHistory) (e : Event) : Prop := e = .clearRunning → Spared n s

instance (n : ℕ) (s : PoolHistory) (e : Event) : Decidable (SparedAt n s e) :=
  inferInstanceAs (Decidable (e = .clearRunning → Spared n s))

/-- The flag is cleared only once. -/
theorem meets_of_cleared {es : List Event} (hcleared : cleared s.stop = true)
    (hrun : runFrom (step n) s es = some s') : Meets (step n) (SparedAt n) s es := by
  induction es generalizing s with
  | nil => trivial
  | cons e es ih =>
    obtain ⟨m, hm, hrest⟩ := runFrom_cons_iff.mp hrun
    have hne : e ≠ .clearRunning := by
      rintro rfl
      simp only [step] at hm
      split_ifs at hm with hstop
      rw [hstop] at hcleared
      cases hcleared
    exact (meets_cons_iff hm).mpr
      ⟨fun he => absurd he hne, ih (((stepped_of_step hm).cleared_eq hne).trans hcleared) hrest⟩

theorem executed_iff_of_clear {es : List Event} (h : s.Sound n) (hstop : s.stop = .called)
    (hrun : runFrom (step n) { s with pool := s.pool.stop, stop := .joining } es = some s')
    (hreturned : s'.stop = .returned) : (∀ task ∈ s'.before, s'.finished.count task = 1) ↔ Spared n s := by
  have hclear : Sound n { s with pool := s.pool.stop, stop := .joining } := h.stepped (.clearRunning hstop)
  have hinv := @invariant_of_run _ _ (step n) (fun t => t.Sound n ∧ ∃ taken, SinceClear n s taken t)
    (fun _ _ _ ht hstep =>
      have hstepped := stepped_of_step hstep
      ⟨ht.1.stepped hstepped, ht.2.elim fun _ hsince => hsince.stepped h ht.1 hstepped⟩)
    _ _ _ ⟨hclear, [], sinceClear_clear s⟩ hrun
  obtain ⟨hsound, taken, hsince⟩ := hinv
  exact hsince.executed_iff h hsound hreturned

theorem executed_iff_of_sound {es : List Event} (h : s.Sound n) (hbefore : cleared s.stop = false)
    (hrun : runFrom (step n) s es = some s') (hreturned : s'.stop = .returned) :
    (∀ task ∈ s'.before, s'.finished.count task = 1) ↔ Meets (step n) (SparedAt n) s es := by
  induction es generalizing s with
  | nil =>
    obtain rfl := Option.some.inj hrun
    rw [hreturned] at hbefore
    cases hbefore
  | cons e es ih =>
    obtain ⟨m, hm, hrest⟩ := runFrom_cons_iff.mp hrun
    rw [meets_cons_iff hm]
    have hstepped := stepped_of_step hm
    by_cases he : e = .clearRunning
    · subst he
      cases hstepped with
      | clearRunning hstop =>
        rw [executed_iff_of_clear h hstop hrest hreturned]
        exact ⟨fun hspared => ⟨fun _ => hspared, meets_of_cleared rfl hrest⟩, fun hc => hc.1 rfl⟩
    · rw [ih (h.stepped hstepped) ((hstepped.cleared_eq he).trans hbefore) hrest]
      exact ⟨fun hrest => ⟨fun hclear => absurd hclear he, hrest⟩, And.right⟩

/-- **When `Stop` has returned, every task whose `Run` returned before it was called has run exactly once just when none
of them was queued, where the flag was cleared, behind as many tasks as there were workers in `Take`.** -/
theorem stop_executes_iff {es : List Event} (hrun : runFrom (step n) start es = some s)
    (hreturned : s.stop = .returned) :
    (∀ task ∈ s.before, s.finished.count task = 1) ↔ Meets (step n) (SparedAt n) start es :=
  executed_iff_of_sound (start_sound n) rfl hrun hreturned

/-- The worker is in `Take` when the flag is cleared, and there is one task. -/
def spared : List Event :=
  [.run 0, .runReturns 0, .checkRunning 0, .callStop, .clearRunning, .take 0, .beginTask 0, .endTask 0,
    .checkRunning 0, .stopReturns]

theorem spared_executes :
    ∃ s, runFrom (step 1) start spared = some s ∧ s.before = [0] ∧ ∀ task ∈ s.before, s.finished.count task = 1 := by
  have hmeets : Meets (step 1) (SparedAt 1) start spared := by decide +kernel
  exact ⟨_, rfl, rfl, (@stop_executes_iff 1 _ spared rfl rfl).mpr hmeets⟩

/-- The worker is in the first of two tasks when the flag is cleared. -/
def dropped : List Event :=
  [.run 0, .runReturns 0, .run 0, .runReturns 0, .checkRunning 0, .take 0, .beginTask 0, .callStop, .clearRunning,
    .endTask 0, .checkRunning 0, .stopReturns]

theorem dropped_loses :
    ∃ s, runFrom (step 1) start dropped = some s ∧ s.stop = .returned ∧ s.before = [0, 1] ∧ s.finished = [0] ∧
      ¬ ∀ task ∈ s.before, s.finished.count task = 1 :=
  ⟨_, rfl, rfl, rfl, rfl, by decide⟩

end PoolHistory
end Chater.Base
