import Chater.Base.PoolStop
import Chater.Foundations.CondVar
import Chater.Foundations.FairRun

/-!
# The worker pool and its condition variable

The pool of the epoll gateway with the workers that wait in `Take`.  `Run` and `Stop` notify while they hold the mutex:
`notify_one` wakes one of the workers that wait, any of them, and `notify_all` all of them.  A worker may also wake
without a notification, and looks at the queue again.

No notification is lost, and `Stop` returns: once `running_` is cleared no worker waits any more, and each of them has
only a few steps left.
-/

namespace Chater.Base

open Foundations CondVar

set_option autoImplicit false

/-- `waiting` are the workers that wait on the condition variable in `Take`. -/
structure WaitingPool where
  history : PoolHistory
  waiting : Finset ℕ

namespace WaitingPool

def start : WaitingPool := ⟨.start, ∅⟩

/-- `run t woken` is the locked section of `Run` in thread `t`, with the worker that its `notify_one` wakes; `pool` are
the steps that have nothing to do with the condition variable, `clearRunning` with its `notify_all` and `take` by a
worker that does not wait. -/
inductive Event
  | run (t : ℕ) (woken : Option ℕ)
  | wait (i : ℕ)
  | wake (i : ℕ)
  | pool (e : PoolHistory.Event)
deriving DecidableEq

def setHistory (s : WaitingPool) (history : PoolHistory) : WaitingPool := { s with history := history }

def step (n : ℕ) (s : WaitingPool) : Event → Option WaitingPool
  | .run t (some i) =>
    if i ∈ s.waiting then
      (s.history.step n (.run t)).map fun history => ⟨history, s.waiting.erase i⟩
    else none
  | .run t none => if s.waiting = ∅ then (s.history.step n (.run t)).map s.setHistory else none
  | .wait i =>
    if i < n ∧ (s.history.pool.workers i).inTake = 1 ∧ s.history.pool.queue = [] ∧ s.history.pool.running then
      some { s with waiting := insert i s.waiting }
    else none
  | .wake i => if i ∈ s.waiting then some { s with waiting := s.waiting.erase i } else none
  | .pool (.run _) => none
  | .pool (.take i) => if i ∈ s.waiting then none else (s.history.step n (.take i)).map s.setHistory
  | .pool .clearRunning => (s.history.step n .clearRunning).map fun history => ⟨history, ∅⟩
  | .pool e => (s.history.step n e).map s.setHistory

/-! ## What a step can do -/

inductive Stepped (n : ℕ) (s : WaitingPool) : Event → WaitingPool → Prop
  | notify (t i : ℕ) (history : PoolHistory) (hi : i ∈ s.waiting)
      (hrun : PoolHistory.Stepped n s.history (.run t) history) :
      Stepped n s (.run t (some i)) ⟨history, s.waiting.erase i⟩
  | notifyNobody (t : ℕ) (history : PoolHistory) (hnobody : s.waiting = ∅)
      (hrun : PoolHistory.Stepped n s.history (.run t) history) : Stepped n s (.run t none) (s.setHistory history)
  | wait (i : ℕ) (hi : i < n) (htaking : s.history.pool.workers i = .taking) (hqueue : s.history.pool.queue = [])
      (hrunning : s.history.pool.running = true) : Stepped n s (.wait i) { s with waiting := insert i s.waiting }
  | wake (i : ℕ) (hi : i ∈ s.waiting) : Stepped n s (.wake i) { s with waiting := s.waiting.erase i }
  | take (i : ℕ) (history : PoolHistory) (hi : i ∉ s.waiting)
      (htake : PoolHistory.Stepped n s.history (.take i) history) : Stepped n s (.pool (.take i)) (s.setHistory history)
  | clearRunning (history : PoolHistory) (hclear : PoolHistory.Stepped n s.history .clearRunning history) :
      Stepped n s (.pool .clearRunning) ⟨history, ∅⟩
  | other (e : PoolHistory.Event) (history : PoolHistory) (hrun : ∀ t, e ≠ .run t) (htake : ∀ i, e ≠ .take i)
      (hclear : e ≠ .clearRunning) (hstep : PoolHistory.Stepped n s.history e history) :
      Stepped n s (.pool e) (s.setHistory history)

variable {n : ℕ} {s s' : WaitingPool} {e : Event}

theorem taking_of_inTake {w : Worker ℕ} (h : w.inTake = 1) : w = .taking := by
  cases w with
  | taking => rfl
  | looping | holding | inTask | exited => cases h

theorem stepped_of_step (h : step n s e = some s') : Stepped n s e s' := by
  cases e with
  | run t woken =>
    cases woken with
    | some i =>
      simp only [step] at h
      split_ifs at h with hi
      obtain ⟨history, hstep, rfl⟩ := Option.map_eq_some_iff.mp h
      exact .notify t i history hi (PoolHistory.stepped_of_step hstep)
    | none =>
      simp only [step] at h
      split_ifs at h with hnobody
      obtain ⟨history, hstep, rfl⟩ := Option.map_eq_some_iff.mp h
      exact .notifyNobody t history hnobody (PoolHistory.stepped_of_step hstep)
  | wait i =>
    simp only [step] at h
    split_ifs at h with hguard
    obtain rfl := Option.some.inj h
    exact .wait i hguard.1 (taking_of_inTake hguard.2.1) hguard.2.2.1 hguard.2.2.2
  | wake i =>
    simp only [step] at h
    split_ifs at h with hi
    obtain rfl := Option.some.inj h
    exact .wake i hi
  | pool e =>
    cases e with
    | run t => cases h
    | take i =>
      simp only [step] at h
      split_ifs at h with hi
      obtain ⟨history, hstep, rfl⟩ := Option.map_eq_some_iff.mp h
      exact .take i history hi (PoolHistory.stepped_of_step hstep)
    | clearRunning =>
      obtain ⟨history, hstep, rfl⟩ := Option.map_eq_some_iff.mp h
      exact .clearRunning history (PoolHistory.stepped_of_step hstep)
    | runReturns | checkRunning | beginTask | endTask | callStop | stopReturns =>
      obtain ⟨history, hstep, rfl⟩ := Option.map_eq_some_iff.mp h
      exact .other _ history (by simp) (by simp) (by simp) (PoolHistory.stepped_of_step hstep)

/-! ## What holds in every state -/

/-- A worker in `Take` that does not wait is going to look at the queue. -/
def stanceOf (waiting : Finset ℕ) (workers : ℕ → Worker ℕ) (i : ℕ) : Stance :=
  if i ∈ waiting then .waiting else if (workers i).inTake = 1 then .awake else .away

def stance (s : WaitingPool) : ℕ → Stance := stanceOf s.waiting s.history.pool.workers

theorem stance_waiting {i : ℕ} : s.stance i = .waiting ↔ i ∈ s.waiting := by
  unfold stance stanceOf
  split_ifs with hi <;> simp [hi]

theorem stance_awake {i : ℕ} : s.stance i = .awake ↔ i ∉ s.waiting ∧ s.history.pool.workers i = .taking := by
  unfold stance stanceOf
  split_ifs with hi htake
  · simp [hi]
  · simp [hi, taking_of_inTake htake]
  · have hnot : s.history.pool.workers i ≠ .taking := fun h => htake (by rw [h]; rfl)
    simp [hnot]

structure Sound (n : ℕ) (s : WaitingPool) : Prop where
  taking : ∀ i ∈ s.waiting, i < n ∧ s.history.pool.workers i = .taking
  covered : Covered n s.stance 0 s.history.pool.queue.length
  roused : s.history.pool.running = false → s.waiting = ∅
  cleared : s.history.stop = .joining ∨ s.history.stop = .returned → s.history.pool.running = false

theorem start_sound (n : ℕ) : start.Sound n where
  taking i h := by simp [start] at h
  covered := .of_empty
  roused h := by cases h
  cleared := by simp [start, PoolHistory.start]

/-- A worker that does not wait goes from one place to another. -/
theorem Sound.setWorker (h : s.Sound n) {i : ℕ} {w : Worker ℕ} {history : PoolHistory} (hi : i ∉ s.waiting)
    (hpool : history.pool = s.history.pool.setWorker i w) (hstop : history.stop = s.history.stop)
    (hcovered : Covered n (s.setHistory history).stance 0 s.history.pool.queue.length) :
    (s.setHistory history).Sound n := by
  refine ⟨fun j hj => ?_, ?_, ?_, ?_⟩
  · have hji : j ≠ i := fun heq => hi (heq ▸ hj)
    simpa [setHistory, hpool, ThreadPool.setWorker, Function.update_of_ne hji] using h.taking j hj
  · simpa [setHistory, hpool, ThreadPool.setWorker] using hcovered
  · simpa [setHistory, hpool, ThreadPool.setWorker] using h.roused
  · simpa [setHistory, hpool, hstop, ThreadPool.setWorker] using h.cleared

theorem stance_setWorker {i j : ℕ} {w : Worker ℕ} {history : PoolHistory}
    (hworkers : history.pool.workers = Function.update s.history.pool.workers i w) (hj : j ≠ i) :
    (s.setHistory history).stance j = s.stance j := by
  simp [stance, stanceOf, setHistory, hworkers, Function.update_of_ne hj]

/-- A worker goes from a place outside `Take` to another. -/
theorem covered_outside (h : s.Sound n) {i : ℕ} {w : Worker ℕ} {history : PoolHistory}
    (hworkers : history.pool.workers = Function.update s.history.pool.workers i w)
    (hbefore : s.history.pool.workers i ≠ .taking) (hafter : w ≠ .taking) :
    Covered n (s.setHistory history).stance 0 s.history.pool.queue.length := by
  refine h.covered.congr fun j _ => ⟨?_, fun hw => ?_⟩
  · rw [stance_awake, stance_awake]
    by_cases hj : j = i
    · subst hj
      simp [setHistory, hworkers, hbefore, hafter]
    · simp [setHistory, hworkers, Function.update_of_ne hj]
  · have hmem : j ∈ (s.setHistory history).waiting := stance_waiting.mp hw
    exact stance_waiting.mpr hmem

theorem Sound.notWaiting (h : s.Sound n) {i : ℕ} (hi : s.history.pool.workers i ≠ .taking) : i ∉ s.waiting :=
  fun hw => hi (h.taking i hw).2

theorem Sound.stepped_history (h : s.Sound n) {e : PoolHistory.Event} {history : PoolHistory}
    (hrun : ∀ t, e ≠ .run t) (htake : ∀ i, e = .take i → i ∉ s.waiting) (hclear : e ≠ .clearRunning)
    (hstep : PoolHistory.Stepped n s.history e history) : (s.setHistory history).Sound n := by
  cases hstep with
  | run t => exact absurd rfl (hrun t)
  | clearRunning => exact absurd rfl hclear
  | runReturns t task hin => exact ⟨h.taking, h.covered, h.roused, h.cleared⟩
  | callStop hstop => exact ⟨h.taking, h.covered, h.roused, by simp [setHistory]⟩
  | stopReturns hstop hexited => exact ⟨h.taking, h.covered, h.roused, fun _ => h.cleared (.inl hstop)⟩
  | pass i hi hlooping hrunning =>
    have hout : s.history.pool.workers i ≠ .taking := by simp [hlooping]
    refine h.setWorker (h.notWaiting hout) rfl rfl (h.covered.rouse hi (fun j hj => stance_setWorker rfl hj) ?_ ?_)
    · exact fun hawake => hout (stance_awake.mp hawake).2
    · exact stance_awake.mpr ⟨h.notWaiting hout, by simp [setHistory, ThreadPool.setWorker]⟩
  | exit i hi hlooping hstopped =>
    have hout : s.history.pool.workers i ≠ .taking := by simp [hlooping]
    exact h.setWorker (h.notWaiting hout) rfl rfl (covered_outside h rfl hout (by simp))
  | take i hi htaking task queue hqueue =>
    have hawake : s.stance i = .awake := stance_awake.mpr ⟨htake i rfl, htaking⟩
    have hcovered := h.covered
    rw [hqueue, List.length_cons] at hcovered
    refine ⟨fun j hj => ?_, hcovered.take hi (fun j hj => stance_setWorker rfl hj) hawake ?_, h.roused, h.cleared⟩
    · have hji : j ≠ i := fun heq => htake i rfl (heq ▸ hj)
      simpa [setHistory, ThreadPool.setWorker, Function.update_of_ne hji] using h.taking j hj
    · simp [stance, stanceOf, setHistory, ThreadPool.setWorker, htake i rfl, Worker.inTake]
  | takeNothing i hi htaking hqueue hstopped =>
    refine h.setWorker (htake i rfl) rfl rfl ?_
    rw [hqueue]
    exact .of_empty
  | beginTask i hi task hholding =>
    have hout : s.history.pool.workers i ≠ .taking := by simp [hholding]
    exact h.setWorker (h.notWaiting hout) rfl rfl (covered_outside h rfl hout (by simp))
  | endTask i hi task hin =>
    have hout : s.history.pool.workers i ≠ .taking := by simp [hin]
    exact h.setWorker (h.notWaiting hout) rfl rfl (covered_outside h rfl hout (by simp))

/-- A worker that waits is woken. -/
theorem stance_erase {i : ℕ} (htaking : s.history.pool.workers i = .taking) :
    (∀ j, j ≠ i → stanceOf (s.waiting.erase i) s.history.pool.workers j = s.stance j) ∧
      stanceOf (s.waiting.erase i) s.history.pool.workers i = .awake := by
  refine ⟨fun j hj => ?_, ?_⟩
  · simp [stance, stanceOf, hj]
  · simp [stanceOf, htaking, Worker.inTake]

theorem Sound.stepped (h : s.Sound n) (hstep : Stepped n s e s') : s'.Sound n := by
  cases hstep with
  | notify t i history hi hrun =>
    cases hrun
    obtain ⟨hlt, htaking⟩ := h.taking i hi
    obtain ⟨hsame, hnow⟩ := stance_erase htaking
    refine ⟨fun j hj => h.taking j (Finset.mem_of_mem_erase hj), ?_, fun hstopped => ?_, h.cleared⟩
    · simp only [ThreadPool.push, List.length_append, List.length_singleton]
      exact h.covered.push.notify hlt hsame (stance_waiting.mpr hi) hnow
    · rw [h.roused hstopped] at hi
      simp at hi
  | notifyNobody t history hnobody hrun =>
    cases hrun
    refine ⟨h.taking, .of_nobody_waits fun i _ hw => ?_, h.roused, h.cleared⟩
    have hmem : i ∈ s.waiting := stance_waiting.mp hw
    rw [hnobody] at hmem
    simp at hmem
  | wait i hi htaking hqueue hrunning =>
    refine ⟨fun j hj => ?_, ?_, fun hstopped => ?_, h.cleared⟩
    · obtain rfl | hj := Finset.mem_insert.mp hj
      · exact ⟨hi, htaking⟩
      · exact h.taking j hj
    · simp only [hqueue, List.length_nil]
      exact .of_empty
    · exact absurd (hrunning.symm.trans hstopped) (by decide)
  | wake i hi =>
    obtain ⟨hlt, htaking⟩ := h.taking i hi
    obtain ⟨hsame, hnow⟩ := stance_erase htaking
    refine ⟨fun j hj => h.taking j (Finset.mem_of_mem_erase hj), ?_, fun hstopped => ?_, h.cleared⟩
    · exact h.covered.rouse hlt hsame (by rw [stance_waiting.mpr hi]; simp) hnow
    · rw [h.roused hstopped] at hi
      simp at hi
  | take i history hi htake =>
    refine h.stepped_history (by simp) (fun j hj => ?_) (by simp) htake
    cases hj
    exact hi
  | clearRunning history hclear =>
    cases hclear
    refine ⟨by simp, .of_nobody_waits fun i _ hw => ?_, fun _ => rfl, fun _ => rfl⟩
    simpa using stance_waiting.mp hw
  | other e history hrun htake hclear hstep =>
    exact h.stepped_history hrun (fun i hi => absurd hi (htake i)) hclear hstep

theorem sound_of_run {es : List Event} (hrun : runFrom (step n) start es = some s) : s.Sound n :=
  invariant_of_run (fun _ _ _ h hstep => h.stepped (stepped_of_step hstep)) (start_sound n) hrun

/-- **No notification is lost.**  While some worker waits, the queue holds no more tasks than there are workers in `Take`
that do not wait.  So when a task is in the queue, such a worker is about to look at it or no worker is in `Take`. -/
theorem no_task_forgotten {es : List Event} (hrun : runFrom (step n) start es = some s) :
    (s.waiting.Nonempty → s.history.pool.queue.length ≤
      ((Finset.range n).filter fun i => i ∉ s.waiting ∧ (s.history.pool.workers i).inTake = 1).card) ∧
    (s.history.pool.queue ≠ [] →
      (∃ i < n, i ∉ s.waiting ∧ s.history.pool.workers i = .taking) ∨
        ∀ i < n, s.history.pool.workers i ≠ .taking) := by
  have h := sound_of_run hrun
  constructor
  · rintro ⟨i, hi⟩
    have hle := h.covered (tally_pos_iff.mpr ⟨i, (h.taking i hi).1, stance_waiting.mpr hi⟩)
    have hawake : ∀ j, s.stance j = .awake ↔ j ∉ s.waiting ∧ (s.history.pool.workers j).inTake = 1 := by
      intro j
      rw [stance_awake]
      exact and_congr_right fun _ => ⟨fun ht => by rw [ht]; rfl, taking_of_inTake⟩
    simpa only [tally, ← Finset.card_filter, hawake, zero_add] using hle
  · intro hqueue
    obtain hpending | ⟨i, hi, hawake⟩ | haway := h.covered.not_forgotten (List.length_pos_iff.mpr hqueue)
    · exact absurd hpending (lt_irrefl 0)
    · exact .inl ⟨i, hi, stance_awake.mp hawake⟩
    · refine .inr fun i hi htaking => ?_
      have hstance := haway i hi
      by_cases hw : i ∈ s.waiting
      · rw [stance_waiting.mpr hw] at hstance
        cases hstance
      · rw [stance_awake.mpr ⟨hw, htaking⟩] at hstance
        cases hstance

/-- Two workers wait; the task that is queued has woken one of them. -/
theorem queued_task_has_taker :
    ∃ s, runFrom (step 2) start [.pool (.checkRunning 0), .pool (.checkRunning 1), .wait 0, .wait 1, .run 0 (some 1)] =
        some s ∧ s.waiting.Nonempty ∧ s.history.pool.queue = [0] ∧
      1 ≤ ((Finset.range 2).filter fun i => i ∉ s.waiting ∧ (s.history.pool.workers i).inTake = 1).card := by
  have hend : (runFrom (step 2) start [.pool (.checkRunning 0), .pool (.checkRunning 1), .wait 0, .wait 1,
      .run 0 (some 1)]).map (fun s => (s.waiting, s.history.pool.queue)) = some ({0}, [0]) := by decide +kernel
  obtain ⟨s, hrun, hs⟩ := Option.map_eq_some_iff.mp hend
  obtain ⟨hwaiting, hqueue⟩ := Prod.mk.inj hs
  have hone : s.waiting.Nonempty := by
    rw [hwaiting]
    exact Finset.singleton_nonempty 0
  have hle := (no_task_forgotten hrun).1 hone
  rw [hqueue] at hle
  exact ⟨s, hrun, hone, hqueue, hle⟩

/-! ## Stopping -/

/-- The steps that a worker or the thread in `Stop` takes by itself. -/
def poolStep : Event → Bool
  | .pool (.checkRunning _) | .pool (.take _) | .pool (.beginTask _) | .pool (.endTask _) | .pool .stopReturns => true
  | _ => false

def weight : Worker ℕ → ℕ
  | .exited => 0
  | .looping => 1
  | .inTask _ => 2
  | .holding _ => 3
  | .taking => 4

def load (n : ℕ) (workers : ℕ → Worker ℕ) : ℕ := ∑ i ∈ Finset.range n, (weight ∘ workers) i

def endSteps : StopCall → ℕ
  | .returned => 0
  | _ => 1

/-- How many steps are left once `running_` is false. -/
def remaining (n : ℕ) (s : WaitingPool) : ℕ := load n s.history.pool.workers + endSteps s.history.stop

theorem load_update {i : ℕ} (hi : i < n) (workers : ℕ → Worker ℕ) (w : Worker ℕ) :
    load n (Function.update workers i w) + weight (workers i) = load n workers + weight w := by
  rw [load, Function.comp_update]
  exact TaskQueue.sum_update_add (Finset.mem_range.mpr hi) _ _

/-- The flag is cleared and `Stop` joins the workers. -/
structure Stopped (n : ℕ) (s : WaitingPool) : Prop where
  sound : s.Sound n
  running : s.history.pool.running = false
  stop : s.history.stop = .joining ∨ s.history.stop = .returned

theorem Stopped.history (h : s.Stopped n) {e : PoolHistory.Event} {history : PoolHistory}
    (hstep : PoolHistory.Stepped n s.history e history) :
    history.pool.running = false ∧ (history.stop = .joining ∨ history.stop = .returned) ∧
      remaining n (s.setHistory history) ≤ s.remaining n ∧
      (poolStep (.pool e) = true → remaining n (s.setHistory history) < s.remaining n) := by
  have hmove : ∀ {i : ℕ} {w : Worker ℕ}, i < n → weight w < weight (s.history.pool.workers i) →
      load n (Function.update s.history.pool.workers i w) + endSteps s.history.stop < s.remaining n := by
    intro i w hi hlt
    have hload := load_update hi s.history.pool.workers w
    rw [remaining]
    omega
  cases hstep with
  | run t => exact ⟨h.running, h.stop, le_rfl, by simp [poolStep]⟩
  | runReturns t task hin => exact ⟨h.running, h.stop, le_rfl, by simp [poolStep]⟩
  | pass i hi hlooping hrunning => exact absurd (hrunning.symm.trans h.running) (by decide)
  | exit i hi hlooping hstopped =>
    have hless := hmove (w := .exited) hi (by simp [hlooping, weight])
    exact ⟨h.running, h.stop, hless.le, fun _ => hless⟩
  | take i hi htaking task queue hqueue =>
    have hless := hmove (w := .holding task) hi (by simp [htaking, weight])
    exact ⟨h.running, h.stop, hless.le, fun _ => hless⟩
  | takeNothing i hi htaking hqueue hstopped =>
    have hless := hmove (w := .looping) hi (by simp [htaking, weight])
    exact ⟨h.running, h.stop, hless.le, fun _ => hless⟩
  | beginTask i hi task hholding =>
    have hless := hmove (w := .inTask task) hi (by simp [hholding, weight])
    exact ⟨h.running, h.stop, hless.le, fun _ => hless⟩
  | endTask i hi task hin =>
    have hless := hmove (w := .looping) hi (by simp [hin, weight])
    exact ⟨h.running, h.stop, hless.le, fun _ => hless⟩
  | callStop hstop =>
    have hstop' := h.stop
    rw [hstop] at hstop'
    simp at hstop'
  | clearRunning hstop =>
    have hstop' := h.stop
    rw [hstop] at hstop'
    simp at hstop'
  | stopReturns hstop hexited =>
    have hless : remaining n (s.setHistory { s.history with stop := .returned }) < s.remaining n := by
      simp [remaining, setHistory, endSteps, hstop]
    exact ⟨h.running, .inr rfl, hless.le, fun _ => hless⟩

theorem Stopped.stepped (h : s.Stopped n) (hstep : Stepped n s e s') :
    s'.Stopped n ∧ s'.remaining n ≤ s.remaining n ∧ (poolStep e = true → s'.remaining n < s.remaining n) := by
  have hsound := h.sound.stepped hstep
  have hnobody := h.sound.roused h.running
  cases hstep with
  | notify t i history hi hrun =>
    rw [hnobody] at hi
    simp at hi
  | wake i hi =>
    rw [hnobody] at hi
    simp at hi
  | wait i hi htaking hqueue hrunning => exact absurd (hrunning.symm.trans h.running) (by decide)
  | notifyNobody t history _ hrun =>
    obtain ⟨hrunning, hstop, hle, -⟩ := h.history hrun
    exact ⟨⟨hsound, hrunning, hstop⟩, hle, by simp [poolStep]⟩
  | take i history hi htake =>
    obtain ⟨hrunning, hstop, hle, hlt⟩ := h.history htake
    exact ⟨⟨hsound, hrunning, hstop⟩, hle, hlt⟩
  | clearRunning history hclear =>
    obtain ⟨hrunning, hstop, hle, -⟩ := h.history hclear
    exact ⟨⟨hsound, hrunning, hstop⟩, hle, by simp [poolStep]⟩
  | other e history _ _ _ hstep =>
    obtain ⟨hrunning, hstop, hle, hlt⟩ := h.history hstep
    exact ⟨⟨hsound, hrunning, hstop⟩, hle, hlt⟩

/-- Until `Stop` has returned, a worker or the thread in `Stop` can go on. -/
theorem Stopped.progress (h : s.Stopped n) :
    s.history.stop = .returned ∨ ∃ e, poolStep e = true ∧ (step n s e).isSome := by
  obtain hjoining | hreturned := h.stop
  swap
  · exact .inl hreturned
  by_cases hall : ∀ i < n, s.history.pool.workers i = .exited
  · have hexited : PoolHistory.allExited n s.history.pool = true := by
      refine List.all_eq_true.mpr fun i hi => ?_
      rw [hall i (List.mem_range.mp hi)]
    exact .inr ⟨.pool .stopReturns, rfl, by simp [step, PoolHistory.step, hjoining, hexited]⟩
  · push Not at hall
    obtain ⟨i, hi, hleft⟩ := hall
    cases hworker : s.history.pool.workers i with
    | looping =>
      refine .inr ⟨.pool (.checkRunning i), rfl, ?_⟩
      simp [step, PoolHistory.step, ThreadPool.checkRunning, hi, hworker]
    | taking =>
      have hw : i ∉ s.waiting := by simp [h.sound.roused h.running]
      refine .inr ⟨.pool (.take i), rfl, ?_⟩
      cases hqueue : s.history.pool.queue with
      | nil => simp [step, PoolHistory.step, ThreadPool.take, hi, hw, hworker, hqueue, h.running]
      | cons task queue => simp [step, PoolHistory.step, ThreadPool.take, hi, hw, hworker, hqueue]
    | holding task =>
      refine .inr ⟨.pool (.beginTask i), rfl, ?_⟩
      simp [step, PoolHistory.step, ThreadPool.beginTask, hi, hworker]
    | inTask task =>
      refine .inr ⟨.pool (.endTask i), rfl, ?_⟩
      simp [step, PoolHistory.step, ThreadPool.endTask, hi, hworker]
    | exited => exact absurd hworker hleft

/-- **`Stop` returns.**  Once it has cleared `running_`, the workers and the thread in `Stop` take no more steps than
`remaining`, at most four for each worker and one more, whatever other threads do meanwhile; and as long as it has not
returned one of them can take a step. -/
theorem stop_returns {es fs : List Event} {t : WaitingPool} (hrun : runFrom (step n) start es = some s)
    (hjoining : s.history.stop = .joining) (hrest : runFrom (step n) s fs = some t) :
    fs.countP poolStep ≤ s.remaining n ∧ s.remaining n ≤ 4 * n + 1 ∧
      (t.history.stop = .returned ∨ ∃ e, poolStep e = true ∧ (step n t e).isSome) := by
  have hsound := sound_of_run hrun
  have hstopped : s.Stopped n := ⟨hsound, hsound.cleared (.inl hjoining), .inl hjoining⟩
  obtain ⟨hlater, hle⟩ := process_steps_le (fun _ _ _ h _ hstep => h.stepped (stepped_of_step hstep)) hstopped
    (meets_true s fs) hrest
  have hload : load n s.history.pool.workers ≤ n * 4 := by
    have hsum := Finset.sum_le_card_nsmul (Finset.range n) (weight ∘ s.history.pool.workers) 4 fun i _ => by
      rw [Function.comp_apply]
      cases s.history.pool.workers i <;> simp [weight]
    simpa [load] using hsum
  refine ⟨le_trans (Nat.le_add_right _ _) hle, ?_, hlater.progress⟩
  rw [remaining, hjoining, endSteps]
  · omega
  · simp

/-- One of two workers is in a task and the other waits in `Take` when `Stop` is called. -/
def stopWhileWaiting : List Event :=
  [.pool (.checkRunning 0), .pool (.checkRunning 1), .run 5 none, .pool (.take 1), .pool (.beginTask 1), .wait 0] ++
    [.pool .callStop, .pool .clearRunning]

/-- The waiting worker is woken into one more task, which comes meanwhile, and both leave. -/
def workersLeave : List Event :=
  [.run 6 none, .pool (.take 0), .pool (.beginTask 0), .pool (.endTask 0), .pool (.checkRunning 0)] ++
    [.pool (.endTask 1), .pool (.checkRunning 1), .pool .stopReturns]

theorem stopWhileWaiting_returns :
    ∃ s t, runFrom (step 2) start stopWhileWaiting = some s ∧ runFrom (step 2) s workersLeave = some t ∧
      s.history.stop = .joining ∧ workersLeave.countP poolStep = 7 ∧ 7 ≤ s.remaining 2 ∧ s.remaining 2 ≤ 9 ∧
      t.history.stop = .returned := by
  have hend : (runFrom (step 2) start stopWhileWaiting).any (fun s => decide (s.history.stop = .joining) &&
      (runFrom (step 2) s workersLeave).any fun t => decide (t.history.stop = .returned)) = true := by
    decide +kernel
  obtain ⟨s, hrun, hs⟩ := (Option.any_eq_true _ _).mp hend
  obtain ⟨hjoining, ht⟩ := Bool.and_eq_true_iff.mp hs
  obtain ⟨t, hrest, hreturned⟩ := (Option.any_eq_true _ _).mp ht
  have hcount : workersLeave.countP poolStep = 7 := by decide
  obtain ⟨hsteps, hle, -⟩ := stop_returns hrun (of_decide_eq_true hjoining) hrest
  rw [hcount] at hsteps
  exact ⟨s, t, hrun, hrest, of_decide_eq_true hjoining, hcount, hsteps, hle, of_decide_eq_true hreturned⟩

end WaitingPool
end Chater.Base
