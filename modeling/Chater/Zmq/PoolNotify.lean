import Chater.Foundations.CondVar
import Chater.Foundations.FairRun
import Chater.Zmq.ThreadPool

/-!
# The thread pool and its condition variable

The pool of the ZeroMQ gateway with the notifications: `Submit` calls `notify_one` and `Shutdown` calls `notify_all`
after they have given up the mutex, so other threads may go in between.  `notify_one` wakes one of the workers that wait,
any of them; a worker may also wake without a notification.  Every run is a run of the pool whose workers wake at any
time, so what holds of those holds here.

No notification is lost: a task waits in the queue only while a notification is still to come, a worker is about to look
at the queue, or all workers are in tasks.  And `Shutdown` returns: once it has cleared `running_` the pool's threads can
take only so many steps, and until it has returned one of them can go on.
-/

namespace Chater.Zmq

open Foundations CondVar

set_option autoImplicit false

/-- `notifying` are the threads that have put a task into the queue and not yet called `notify_one`, and `broadcast` says
that `Shutdown` has cleared `running_` and not yet called `notify_all`. -/
structure NotifiedPool where
  pool : ThreadPool
  notifying : Finset ℕ
  broadcast : Bool

namespace ThreadPool

def nobodyWaits (n : ℕ) (s : ThreadPool) : Bool := (List.range n).all fun i => s.workers i ≠ .waiting

def wakeAll (s : ThreadPool) : ThreadPool :=
  { s with workers := fun i => if s.workers i = .waiting then .locking else s.workers i }

theorem nobodyWaits_iff {n : ℕ} {s : ThreadPool} : s.nobodyWaits n = true ↔ ∀ i < n, s.workers i ≠ .waiting := by
  simp [nobodyWaits]

end ThreadPool

namespace NotifiedPool

def start : NotifiedPool := ⟨.start, ∅, false⟩

/-- `notifyOne t woken` is the call of `notify_one` by thread `t` and the worker it wakes. -/
inductive Event
  | submit (t : ℕ)
  | notifyOne (t : ℕ) (woken : Option ℕ)
  | submitReturns (t : ℕ)
  | lock (i : ℕ)
  | wake (i : ℕ)
  | finish (i : ℕ)
  | shutdown
  | notifyAll
  | shutdownReturns
deriving DecidableEq

def setPool (s : NotifiedPool) (pool : ThreadPool) : NotifiedPool := { s with pool := pool }

def step (n : ℕ) (s : NotifiedPool) : Event → Option NotifiedPool
  | .submit t =>
    (s.pool.step n (.submit t)).map fun pool =>
      { s with pool := pool, notifying := if s.pool.running then insert t s.notifying else s.notifying }
  | .notifyOne t (some i) =>
    if t ∈ s.notifying ∧ i < n ∧ s.pool.workers i = .waiting then
      some { s with pool := s.pool.setWorker i .locking, notifying := s.notifying.erase t }
    else none
  | .notifyOne t none =>
    if t ∈ s.notifying ∧ s.pool.nobodyWaits n then some { s with notifying := s.notifying.erase t } else none
  | .submitReturns t => if t ∈ s.notifying then none else (s.pool.step n (.submitReturns t)).map s.setPool
  | .lock i => (s.pool.step n (.lock i)).map s.setPool
  | .wake i => (s.pool.step n (.wake i)).map s.setPool
  | .finish i => (s.pool.step n (.finish i)).map s.setPool
  | .shutdown => (s.pool.step n .shutdown).map fun pool => { s with pool := pool, broadcast := s.pool.running }
  | .notifyAll => if s.broadcast then some { s with pool := s.pool.wakeAll, broadcast := false } else none
  | .shutdownReturns => if s.broadcast then none else (s.pool.step n .shutdownReturns).map s.setPool

/-! ## What a step can do -/

inductive Stepped (n : ℕ) (s : NotifiedPool) : Event → NotifiedPool → Prop
  | submit (t : ℕ) (hidle : s.pool.submitting t = none) : Stepped n s (.submit t) { s with
      pool := s.pool.submit t, notifying := if s.pool.running then insert t s.notifying else s.notifying }
  | notify (t i : ℕ) (ht : t ∈ s.notifying) (hi : i < n) (hwaiting : s.pool.workers i = .waiting) :
      Stepped n s (.notifyOne t (some i))
        { s with pool := s.pool.setWorker i .locking, notifying := s.notifying.erase t }
  | notifyNobody (t : ℕ) (ht : t ∈ s.notifying) (hnobody : ∀ i < n, s.pool.workers i ≠ .waiting) :
      Stepped n s (.notifyOne t none) { s with notifying := s.notifying.erase t }
  | submitReturns (t : ℕ) (call : ℕ × Bool) (ht : t ∉ s.notifying) (hcall : s.pool.submitting t = some call) :
      Stepped n s (.submitReturns t) (s.setPool { s.pool with
        submitting := Function.update s.pool.submitting t none, returned := s.pool.returned ++ [call] })
  | lock (i : ℕ) (hi : i < n) (hlocking : s.pool.workers i = .locking) :
      Stepped n s (.lock i) (s.setPool (s.pool.lock i))
  | wake (i : ℕ) (hi : i < n) (hwaiting : s.pool.workers i = .waiting) :
      Stepped n s (.wake i) (s.setPool (s.pool.setWorker i .locking))
  | finish (i task : ℕ) (hi : i < n) (hin : s.pool.workers i = .inTask task) :
      Stepped n s (.finish i)
        (s.setPool ({ s.pool with finished := s.pool.finished ++ [task] }.setWorker i .locking))
  | shutdown (hphase : s.pool.shutdown = .notCalled) (hrunning : s.pool.running = true) :
      Stepped n s .shutdown { s with
        pool := { s.pool with running := false, shutdown := .joining }, broadcast := true }
  | shutdownAgain (hphase : s.pool.shutdown = .notCalled) (hrunning : s.pool.running = false) :
      Stepped n s .shutdown { s with
        pool := { s.pool with running := false, shutdown := .returned }, broadcast := false }
  | notifyAll (hbroadcast : s.broadcast = true) :
      Stepped n s .notifyAll { s with pool := s.pool.wakeAll, broadcast := false }
  | shutdownReturns (hbroadcast : s.broadcast = false) (hphase : s.pool.shutdown = .joining)
      (hexited : ∀ i < n, s.pool.workers i = .exited) :
      Stepped n s .shutdownReturns (s.setPool { s.pool with shutdown := .returned })

variable {n : ℕ} {s s' : NotifiedPool} {e : Event}

theorem stepped_of_step (h : step n s e = some s') : Stepped n s e s' := by
  cases e with
  | submit t =>
    obtain ⟨pool, hpool, rfl⟩ := Option.map_eq_some_iff.mp h
    simp only [ThreadPool.step] at hpool
    split_ifs at hpool with hidle
    obtain rfl := Option.some.inj hpool
    exact .submit t (Option.not_isSome_iff_eq_none.mp hidle)
  | notifyOne t woken =>
    cases woken with
    | some i =>
      simp only [step] at h
      split_ifs at h with hguard
      obtain rfl := Option.some.inj h
      exact .notify t i hguard.1 hguard.2.1 hguard.2.2
    | none =>
      simp only [step] at h
      split_ifs at h with hguard
      obtain rfl := Option.some.inj h
      exact .notifyNobody t hguard.1 (ThreadPool.nobodyWaits_iff.mp hguard.2)
  | submitReturns t =>
    simp only [step] at h
    split_ifs at h with ht
    obtain ⟨pool, hpool, rfl⟩ := Option.map_eq_some_iff.mp h
    obtain ⟨call, hcall, rfl⟩ := Option.map_eq_some_iff.mp hpool
    exact .submitReturns t call ht hcall
  | lock i =>
    obtain ⟨pool, hpool, rfl⟩ := Option.map_eq_some_iff.mp h
    simp only [ThreadPool.step] at hpool
    split_ifs at hpool with hi
    obtain rfl := Option.some.inj hpool
    exact .lock i hi.1 hi.2
  | wake i =>
    obtain ⟨pool, hpool, rfl⟩ := Option.map_eq_some_iff.mp h
    simp only [ThreadPool.step] at hpool
    split_ifs at hpool with hi
    obtain rfl := Option.some.inj hpool
    exact .wake i hi.1 hi.2
  | finish i =>
    obtain ⟨pool, hpool, rfl⟩ := Option.map_eq_some_iff.mp h
    simp only [ThreadPool.step] at hpool
    split at hpool
    · rename_i task hin
      split_ifs at hpool with hi
      obtain rfl := Option.some.inj hpool
      exact .finish i task hi hin
    · cases hpool
  | shutdown =>
    obtain ⟨pool, hpool, rfl⟩ := Option.map_eq_some_iff.mp h
    simp only [ThreadPool.step] at hpool
    split_ifs at hpool with hphase hrunning
    · obtain rfl := Option.some.inj hpool
      rw [hrunning]
      exact .shutdown hphase hrunning
    · obtain rfl := Option.some.inj hpool
      rw [Bool.eq_false_iff.mpr hrunning]
      exact .shutdownAgain hphase (Bool.eq_false_iff.mpr hrunning)
  | notifyAll =>
    simp only [step] at h
    split_ifs at h with hbroadcast
    obtain rfl := Option.some.inj h
    exact .notifyAll hbroadcast
  | shutdownReturns =>
    simp only [step] at h
    split_ifs at h with hbroadcast
    obtain ⟨pool, hpool, rfl⟩ := Option.map_eq_some_iff.mp h
    simp only [ThreadPool.step] at hpool
    split_ifs at hpool with hjoined
    obtain rfl := Option.some.inj hpool
    refine .shutdownReturns (Bool.eq_false_iff.mpr hbroadcast) hjoined.1 fun i hi => ?_
    simpa using List.all_eq_true.mp hjoined.2 i (List.mem_range.mpr hi)

/-! ## What holds in every state -/

def stanceOf : PoolWorker → Stance
  | .locking => .awake
  | .waiting => .waiting
  | _ => .away

theorem stanceOf_waiting {w : PoolWorker} : stanceOf w = .waiting ↔ w = .waiting := by cases w <;> simp [stanceOf]

theorem stanceOf_awake {w : PoolWorker} : stanceOf w = .awake ↔ w = .locking := by cases w <;> simp [stanceOf]

def stance (s : NotifiedPool) : ℕ → Stance := stanceOf ∘ s.pool.workers

structure Sound (n : ℕ) (s : NotifiedPool) : Prop where
  pool : s.pool.Sound n
  notifying : ∀ t ∈ s.notifying, (s.pool.submitting t).isSome
  covered : Covered n s.stance s.notifying.card s.pool.tasks.length
  joining : s.broadcast = true → s.pool.shutdown = .joining
  roused : s.pool.running = false → s.broadcast = false → ∀ i < n, s.pool.workers i ≠ .waiting

theorem start_sound (n : ℕ) : start.Sound n where
  pool := ThreadPool.start_sound n
  notifying t h := by simp [start] at h
  covered := .of_empty
  joining h := by cases h
  roused h := by cases h

/-- One worker goes to another place. -/
theorem stance_setWorker (pool : ThreadPool) (i : ℕ) (w : PoolWorker) :
    (∀ j, j ≠ i → (stanceOf ∘ (pool.setWorker i w).workers) j = (stanceOf ∘ pool.workers) j) ∧
      (stanceOf ∘ (pool.setWorker i w).workers) i = stanceOf w := by
  refine ⟨fun j hj => ?_, ?_⟩
  · simp [ThreadPool.setWorker_workers, hj]
  · simp [ThreadPool.setWorker_workers]

theorem Sound.submit (h : s.Sound n) {t : ℕ} (hidle : s.pool.submitting t = none) :
    Sound n { s with
      pool := s.pool.submit t, notifying := if s.pool.running then insert t s.notifying else s.notifying } := by
  have hnew : t ∉ s.notifying := fun ht => by
    have := h.notifying t ht
    rw [hidle] at this
    cases this
  have hpool := h.pool.submit t
  unfold ThreadPool.submit at hpool ⊢
  simp only at hpool ⊢
  split_ifs at hpool ⊢ with hrunning
  · refine ⟨hpool, fun u hu => ?_, ?_, h.joining, fun hstopped => ?_⟩
    · obtain rfl | hu := Finset.mem_insert.mp hu
      · simp
      · by_cases hut : u = t
        · simp [hut]
        · simpa [Function.update_of_ne hut] using h.notifying u hu
    · rw [Finset.card_insert_of_notMem hnew, List.length_append, List.length_singleton]
      exact h.covered.push
    · rw [hrunning] at hstopped
      cases hstopped
  · refine ⟨hpool, fun u hu => ?_, h.covered, h.joining, h.roused⟩
    by_cases hut : u = t
    · simp [hut]
    · simpa [Function.update_of_ne hut] using h.notifying u hu

theorem Sound.notify (h : s.Sound n) {t i : ℕ} (ht : t ∈ s.notifying) (hi : i < n)
    (hwaiting : s.pool.workers i = .waiting) :
    Sound n { s with pool := s.pool.setWorker i .locking, notifying := s.notifying.erase t } := by
  obtain ⟨hsame, hnow⟩ := stance_setWorker s.pool i .locking
  have hcard : (s.notifying.erase t).card + 1 = s.notifying.card := Finset.card_erase_add_one ht
  refine ⟨?_, fun u hu => h.notifying u (Finset.mem_of_mem_erase hu), ?_, h.joining, fun hstopped hquiet => ?_⟩
  · exact h.pool.setWorker (by simp [hwaiting, PoolWorker.tasks]) (by simp [hwaiting]) hi (by simp)
  · have hcovered := h.covered
    rw [← hcard] at hcovered
    exact hcovered.notify hi hsame (stanceOf_waiting.mpr hwaiting) hnow
  · exact absurd hwaiting (h.roused hstopped hquiet i hi)

theorem Sound.lock (h : s.Sound n) {i : ℕ} (hi : i < n) (hlocking : s.pool.workers i = .locking) :
    (s.setPool (s.pool.lock i)).Sound n := by
  have hpool := h.pool.lock hi hlocking
  unfold ThreadPool.lock at hpool ⊢
  split at hpool
  · rename_i hrunning htasks
    refine ⟨hpool, h.notifying, ?_, h.joining, fun hstopped => ?_⟩
    · simp only [setPool, ThreadPool.setWorker, htasks, List.length_nil]
      exact .of_empty
    · exact absurd (hrunning.symm.trans hstopped) (by decide)
  · rename_i hrunning htasks
    refine ⟨hpool, h.notifying, ?_, h.joining, fun hstopped hquiet j hj => ?_⟩
    · simp only [setPool, ThreadPool.setWorker, htasks, List.length_nil]
      exact .of_empty
    · rw [setPool, ThreadPool.setWorker_workers]
      split_ifs
      · simp
      · exact h.roused hstopped hquiet j hj
  · rename_i task tasks htasks
    obtain ⟨hsame, hnow⟩ := stance_setWorker s.pool i (.inTask task)
    refine ⟨hpool, h.notifying, ?_, h.joining, fun hstopped hquiet j hj => ?_⟩
    · have hcovered := h.covered
      rw [htasks, List.length_cons] at hcovered
      exact hcovered.take hi hsame (stanceOf_awake.mpr hlocking) hnow
    · rw [setPool, ThreadPool.setWorker_workers]
      split_ifs
      · simp
      · exact h.roused hstopped hquiet j hj

/-- A worker that was waiting or in a task is about to lock the mutex. -/
theorem Sound.rouse (h : s.Sound n) {i : ℕ} {pool : ThreadPool} (hi : i < n) (hpool : pool.Sound n)
    (hworkers : pool.workers = Function.update s.pool.workers i .locking) (hasleep : s.pool.workers i ≠ .locking)
    (hsame : pool.submitting = s.pool.submitting ∧ pool.tasks = s.pool.tasks ∧ pool.shutdown = s.pool.shutdown ∧
      pool.running = s.pool.running) : (s.setPool pool).Sound n := by
  obtain ⟨hsubmitting, htasks, hshutdown, hrunning⟩ := hsame
  refine ⟨hpool, fun t ht => ?_, ?_, fun hb => ?_, fun hstopped hquiet j hj => ?_⟩
  · rw [setPool, hsubmitting]
    exact h.notifying t ht
  · rw [setPool, htasks]
    refine h.covered.rouse hi (fun j hj => ?_) (fun hawake => hasleep (stanceOf_awake.mp hawake)) ?_
    · simp [stance, hworkers, Function.update_of_ne hj]
    · simp [stance, hworkers, stanceOf]
  · rw [setPool, hshutdown]
    exact h.joining hb
  · simp only [setPool, hrunning] at hstopped
    simp only [setPool, hworkers]
    by_cases hji : j = i
    · simp [hji]
    · rw [Function.update_of_ne hji]
      exact h.roused hstopped hquiet j hj

theorem Sound.notifyAll (h : s.Sound n) :
    Sound n { s with pool := s.pool.wakeAll, broadcast := false } := by
  have hheld : s.pool.wakeAll.held = s.pool.held := by
    funext i
    simp only [ThreadPool.held, ThreadPool.wakeAll, Function.comp_apply]
    split_ifs with hwaiting
    · rw [hwaiting]
      rfl
    · rfl
  have hexited : ∀ i, s.pool.wakeAll.workers i = .exited ↔ s.pool.workers i = .exited := by
    intro i
    simp only [ThreadPool.wakeAll]
    split_ifs with hwaiting <;> simp [hwaiting]
  have hwaiting : ∀ i < n, s.pool.wakeAll.workers i ≠ .waiting := by
    intro i _
    simp only [ThreadPool.wakeAll]
    split_ifs with hwaiting
    · simp
    · exact hwaiting
  have hp := h.pool
  refine ⟨⟨?_, hp.numbered, hp.answered, fun i hi => hp.exited i ((hexited i).mp hi), hp.running,
    fun hr i hi => (hexited i).mpr (hp.joined hr i hi)⟩, h.notifying, ?_, by simp, fun _ _ => hwaiting⟩
  · rw [hheld]
    exact hp.accounted
  · exact .of_nobody_waits fun i hi hw => hwaiting i hi (stanceOf_waiting.mp hw)

theorem Sound.stepped (h : s.Sound n) (hstep : Stepped n s e s') : s'.Sound n := by
  cases hstep with
  | submit t hidle => exact h.submit hidle
  | notify t i ht hi hwaiting => exact h.notify ht hi hwaiting
  | notifyNobody t ht hnobody =>
    refine ⟨h.pool, fun u hu => h.notifying u (Finset.mem_of_mem_erase hu), ?_, h.joining, h.roused⟩
    exact .of_nobody_waits fun i hi hw => hnobody i hi (stanceOf_waiting.mp hw)
  | submitReturns t call ht hcall =>
    refine ⟨h.pool.submitReturns hcall, fun u hu => ?_, h.covered, h.joining, h.roused⟩
    have hut : u ≠ t := fun heq => ht (heq ▸ hu)
    simpa [setPool, Function.update_of_ne hut] using h.notifying u hu
  | lock i hi hlocking => exact h.lock hi hlocking
  | wake i hi hwaiting =>
    refine h.rouse hi ?_ rfl (by simp [hwaiting]) ⟨rfl, rfl, rfl, rfl⟩
    exact h.pool.setWorker (by simp [hwaiting, PoolWorker.tasks]) (by simp [hwaiting]) hi (by simp)
  | finish i task hi hin => exact h.rouse hi (h.pool.finish hi hin) rfl (by simp [hin]) ⟨rfl, rfl, rfl, rfl⟩
  | shutdown hphase hrunning =>
    refine ⟨?_, h.notifying, h.covered, by simp, by simp⟩
    exact h.pool.stepped (.shutdown false .joining hphase (by rw [if_pos hrunning]))
  | shutdownAgain hphase hrunning =>
    rw [h.pool.running.mpr hphase] at hrunning
    cases hrunning
  | notifyAll hbroadcast => exact h.notifyAll
  | shutdownReturns hbroadcast hphase hexited =>
    refine ⟨h.pool.stepped (.shutdownReturns hphase hexited), h.notifying, h.covered, fun hb => ?_, h.roused⟩
    exact absurd (hbroadcast.symm.trans hb) (by decide)

theorem sound_of_run {es : List Event} (hrun : runFrom (step n) start es = some s) : s.Sound n :=
  invariant_of_run (fun _ _ _ h hstep => h.stepped (stepped_of_step hstep)) (start_sound n) hrun

/-- **No notification is lost.**  While some worker waits, the queue holds no more tasks than there are calls of
`notify_one` to come and workers about to lock the mutex.  So when a task is in the queue, `notify_one` is still to be
called, a worker is about to look at the queue, or every worker is in a task. -/
theorem no_lost_wakeup {es : List Event} (hrun : runFrom (step n) start es = some s) :
    ((∃ i < n, s.pool.workers i = .waiting) →
      s.pool.tasks.length ≤ s.notifying.card + ((Finset.range n).filter fun i => s.pool.workers i = .locking).card) ∧
    (s.pool.tasks ≠ [] →
      s.notifying.Nonempty ∨ (∃ i < n, s.pool.workers i = .locking) ∨
        ∀ i < n, ∃ task, s.pool.workers i = .inTask task) := by
  have h := sound_of_run hrun
  refine ⟨fun ⟨i, hi, hwaiting⟩ => ?_, fun htasks => ?_⟩
  · have hle := h.covered (tally_pos_iff.mpr ⟨i, hi, stanceOf_waiting.mpr hwaiting⟩)
    simpa only [tally, ← Finset.card_filter, stance, Function.comp_apply, stanceOf_awake] using hle
  · obtain hpending | ⟨i, hi, hawake⟩ | haway := h.covered.not_forgotten (List.length_pos_iff.mpr htasks)
    · exact .inl (Finset.card_pos.mp hpending)
    · exact .inr (.inl ⟨i, hi, stanceOf_awake.mp hawake⟩)
    · refine .inr (.inr fun i hi => ?_)
      have hstance : stanceOf (s.pool.workers i) = .away := haway i hi
      cases hworker : s.pool.workers i with
      | inTask task => exact ⟨task, rfl⟩
      | exited => exact absurd (h.pool.exited i hworker).2 htasks
      | locking =>
        rw [hworker] at hstance
        cases hstance
      | waiting =>
        rw [hworker] at hstance
        cases hstance

/-- The one worker waits and a task is queued: it is the notification that is still to come. -/
theorem queued_task_notified :
    ∃ s, runFrom (step 1) start [.lock 0, .submit 0] = some s ∧ s.pool.workers 0 = .waiting ∧ s.pool.tasks = [0] ∧
      s.notifying.Nonempty := by
  have hend : (runFrom (step 1) start [.lock 0, .submit 0]).map (fun s => (s.pool.workers 0, s.pool.tasks)) =
      some (.waiting, [0]) := by decide +kernel
  obtain ⟨s, hrun, hs⟩ := Option.map_eq_some_iff.mp hend
  obtain ⟨hworker, htasks⟩ := Prod.mk.inj hs
  refine ⟨s, hrun, hworker, htasks, ?_⟩
  obtain hpending | ⟨i, hi, hlocking⟩ | hbusy := (no_lost_wakeup hrun).2 (by simp [htasks])
  · exact hpending
  · obtain rfl : i = 0 := by omega
    rw [hworker] at hlocking
    cases hlocking
  · obtain ⟨task, htask⟩ := hbusy 0 Nat.one_pos
    rw [hworker] at htask
    cases htask

/-! ## Shutting down -/

/-- The steps that a thread of the pool or the one in `Shutdown` takes by itself. -/
def poolStep : Event → Bool
  | .lock _ | .finish _ | .notifyAll | .shutdownReturns => true
  | _ => false

def weight : PoolWorker → ℕ
  | .exited => 0
  | .locking => 1
  | .waiting => 2
  | .inTask _ => 2

def load (n : ℕ) (pool : ThreadPool) : ℕ := 2 * pool.tasks.length + ∑ i ∈ Finset.range n, (weight ∘ pool.workers) i

def endSteps (broadcast : Bool) : ShutdownPhase → ℕ
  | .returned => broadcast.toNat
  | _ => broadcast.toNat + 1

/-- How many steps are left once `running_` is false. -/
def remaining (n : ℕ) (s : NotifiedPool) : ℕ := load n s.pool + endSteps s.broadcast s.pool.shutdown

theorem load_setWorker {i : ℕ} (hi : i < n) (pool : ThreadPool) (w : PoolWorker) :
    load n (pool.setWorker i w) + weight (pool.workers i) = load n pool + weight w := by
  have hcomp : weight ∘ (pool.setWorker i w).workers = Function.update (weight ∘ pool.workers) i (weight w) :=
    Function.comp_update _ _ _ _
  have hsum := TaskQueue.sum_update_add (Finset.mem_range.mpr hi) (weight ∘ pool.workers) (weight w)
  rw [← hcomp] at hsum
  calc load n (pool.setWorker i w) + weight (pool.workers i)
      = 2 * pool.tasks.length + (∑ j ∈ Finset.range n, (weight ∘ (pool.setWorker i w).workers) j +
          (weight ∘ pool.workers) i) := Nat.add_assoc _ _ _
    _ = load n pool + weight w := by rw [hsum, load, Nat.add_assoc]

theorem load_wakeAll (n : ℕ) (pool : ThreadPool) : load n pool.wakeAll ≤ load n pool := by
  refine Nat.add_le_add_left (Finset.sum_le_sum fun i _ => ?_) _
  simp only [Function.comp_apply, ThreadPool.wakeAll]
  split_ifs with hwaiting
  · rw [hwaiting]
    decide
  · exact le_rfl

/-- A worker that locks the mutex of a stopped pool has one step less to take. -/
theorem load_lock {i : ℕ} (hi : i < n) {pool : ThreadPool} (hlocking : pool.workers i = .locking)
    (hstopped : pool.running = false) :
    load n (pool.lock i) < load n pool ∧ (pool.lock i).running = pool.running ∧
      (pool.lock i).shutdown = pool.shutdown := by
  unfold ThreadPool.lock
  split
  · rename_i hrunning _
    rw [hstopped] at hrunning
    cases hrunning
  · have hload := load_setWorker hi pool .exited
    rw [hlocking] at hload
    exact ⟨Nat.lt_of_succ_le hload.le, rfl, rfl⟩
  · rename_i task tasks htasks
    have hload := load_setWorker hi { pool with tasks := tasks, dequeued := pool.dequeued ++ [task] } (.inTask task)
    have htaken : load n { pool with tasks := tasks, dequeued := pool.dequeued ++ [task] } + 2 = load n pool := by
      simp only [load, htasks, List.length_cons]
      omega
    simp only [hlocking, weight] at hload
    refine ⟨?_, rfl, rfl⟩
    omega

/-- The pool is sound and its flag is cleared. -/
def Stopped (n : ℕ) (s : NotifiedPool) : Prop := s.Sound n ∧ s.pool.running = false

theorem Stopped.stepped (h : s.Stopped n) (hstep : Stepped n s e s') :
    s'.Stopped n ∧ s'.remaining n ≤ s.remaining n ∧ (poolStep e = true → s'.remaining n < s.remaining n) := by
  obtain ⟨hsound, hstopped⟩ := h
  have hsound' := hsound.stepped hstep
  have hcalled : s.pool.shutdown ≠ .notCalled := fun hphase => by
    rw [hsound.pool.running.mpr hphase] at hstopped
    cases hstopped
  cases hstep with
  | submit t hidle =>
    have hsame : (s.pool.submit t).running = false ∧ (s.pool.submit t).tasks = s.pool.tasks ∧
        (s.pool.submit t).workers = s.pool.workers ∧ (s.pool.submit t).shutdown = s.pool.shutdown := by
      simp [ThreadPool.submit, hstopped]
    refine ⟨⟨hsound', hsame.1⟩, le_of_eq ?_, by simp [poolStep]⟩
    simp only [remaining, load, hsame]
  | notify t i ht hi hwaiting =>
    have hload := load_setWorker hi s.pool .locking
    simp only [hwaiting, weight] at hload
    have hle : load n (s.pool.setWorker i .locking) ≤ load n s.pool := by omega
    exact ⟨⟨hsound', hstopped⟩, Nat.add_le_add_right hle _, by simp [poolStep]⟩
  | notifyNobody => exact ⟨⟨hsound', hstopped⟩, le_rfl, by simp [poolStep]⟩
  | submitReturns => exact ⟨⟨hsound', hstopped⟩, le_rfl, by simp [poolStep]⟩
  | lock i hi hlocking =>
    obtain ⟨hlt, hrunning, hshutdown⟩ := load_lock hi hlocking hstopped
    have hless : remaining n (s.setPool (s.pool.lock i)) < s.remaining n := by
      rw [remaining, remaining, setPool, hshutdown]
      exact Nat.add_lt_add_right hlt _
    exact ⟨⟨hsound', hrunning.trans hstopped⟩, hless.le, fun _ => hless⟩
  | wake i hi hwaiting =>
    have hload := load_setWorker hi s.pool .locking
    simp only [hwaiting, weight] at hload
    have hle : load n (s.pool.setWorker i .locking) ≤ load n s.pool := by omega
    exact ⟨⟨hsound', hstopped⟩, Nat.add_le_add_right hle _, by simp [poolStep]⟩
  | finish i task hi hin =>
    have hload := load_setWorker hi s.pool .locking
    simp only [hin, weight] at hload
    have hlt : load n (s.pool.setWorker i .locking) < load n s.pool := by omega
    have hless := Nat.add_lt_add_right hlt (endSteps s.broadcast s.pool.shutdown)
    exact ⟨⟨hsound', hstopped⟩, hless.le, fun _ => hless⟩
  | shutdown hphase | shutdownAgain hphase => exact absurd hphase hcalled
  | notifyAll hbroadcast =>
    have hend : endSteps false s.pool.shutdown < endSteps s.broadcast s.pool.shutdown := by
      rw [hbroadcast]
      cases s.pool.shutdown <;> decide
    have hless := Nat.add_lt_add_of_le_of_lt (load_wakeAll n s.pool) hend
    exact ⟨⟨hsound', hstopped⟩, hless.le, fun _ => hless⟩
  | shutdownReturns hbroadcast hphase hexited =>
    have hend : endSteps s.broadcast .returned < endSteps s.broadcast s.pool.shutdown := by
      rw [hphase]
      exact Nat.lt_succ_self _
    have hless := Nat.add_lt_add_left hend (load n s.pool)
    exact ⟨⟨hsound', hstopped⟩, hless.le, fun _ => hless⟩

/-- Until `Shutdown` has returned, a thread of the pool or the one in `Shutdown` can go on. -/
theorem Stopped.progress (h : s.Stopped n) :
    s.pool.shutdown = .returned ∨ ∃ e, poolStep e = true ∧ (step n s e).isSome := by
  obtain ⟨hsound, hstopped⟩ := h
  by_cases hbroadcast : s.broadcast = true
  · exact .inr ⟨.notifyAll, rfl, by simp [step, hbroadcast]⟩
  rw [Bool.not_eq_true] at hbroadcast
  by_cases hall : ∀ i < n, s.pool.workers i = .exited
  · cases hphase : s.pool.shutdown with
    | returned => exact .inl rfl
    | notCalled =>
      rw [hsound.pool.running.mpr hphase] at hstopped
      cases hstopped
    | joining =>
      refine .inr ⟨.shutdownReturns, rfl, ?_⟩
      have hexited : s.pool.allExited n = true := by simpa [ThreadPool.allExited] using hall
      simp [step, ThreadPool.step, hbroadcast, hphase, hexited]
  · push Not at hall
    obtain ⟨i, hi, hleft⟩ := hall
    cases hworker : s.pool.workers i with
    | locking => exact .inr ⟨.lock i, rfl, by simp [step, ThreadPool.step, hi, hworker]⟩
    | waiting => exact absurd hworker (hsound.roused hstopped hbroadcast i hi)
    | inTask task => exact .inr ⟨.finish i, rfl, by simp [step, ThreadPool.step, hi, hworker]⟩
    | exited => exact absurd hworker hleft

/-- **`Shutdown` returns.**  Once it has cleared `running_`, the pool's threads and the one in `Shutdown` take no more
steps than `remaining`, whatever other threads do meanwhile, and as long as it has not returned one of them can take a
step. -/
theorem shutdown_returns {es fs : List Event} {t : NotifiedPool} (hrun : runFrom (step n) start es = some s)
    (hjoining : s.pool.shutdown = .joining) (hrest : runFrom (step n) s fs = some t) :
    fs.countP poolStep ≤ s.remaining n ∧
      (t.pool.shutdown = .returned ∨ ∃ e, poolStep e = true ∧ (step n t e).isSome) := by
  have hsound := sound_of_run hrun
  have hstopped : s.Stopped n := by
    refine ⟨hsound, Bool.eq_false_iff.mpr fun hrunning => ?_⟩
    rw [hsound.pool.running.mp hrunning] at hjoining
    cases hjoining
  obtain ⟨hlater, hle⟩ := process_steps_le (fun _ _ _ h _ hstep => h.stepped (stepped_of_step hstep)) hstopped
    (meets_true s fs) hrest
  exact ⟨le_trans (Nat.le_add_right _ _) hle, hlater.progress⟩

/-- Both workers wait when a task comes; `Shutdown` clears the flag before the thread that brought it notifies. -/
def shutdownBeforeNotify : List Event := [.lock 0, .lock 1, .submit 0, .shutdown]

/-- The worker that is notified runs the task, the other one leaves, and a task that comes meanwhile is refused. -/
def workersLeave : List Event :=
  [.notifyOne 0 (some 1), .submit 1, .lock 1, .notifyAll, .lock 0, .finish 1, .lock 1, .shutdownReturns]

theorem shutdownBeforeNotify_returns :
    ∃ s t, runFrom (step 2) start shutdownBeforeNotify = some s ∧ runFrom (step 2) s workersLeave = some t ∧
      (s.pool.shutdown = .joining ∧ s.pool.workers 0 = .waiting ∧ s.pool.workers 1 = .waiting ∧ s.pool.tasks = [0]) ∧
      workersLeave.countP poolStep = 6 ∧ 6 ≤ s.remaining 2 ∧
      (t.pool.shutdown = .returned ∧ t.pool.finished = [0]) := by
  have hend : (runFrom (step 2) start shutdownBeforeNotify).any (fun s =>
      decide (s.pool.shutdown = .joining ∧ s.pool.workers 0 = .waiting ∧ s.pool.workers 1 = .waiting ∧
        s.pool.tasks = [0]) &&
      (runFrom (step 2) s workersLeave).any fun t =>
        decide (t.pool.shutdown = .returned ∧ t.pool.finished = [0])) = true := by
    decide +kernel
  obtain ⟨s, hrun, hs⟩ := (Option.any_eq_true _ _).mp hend
  obtain ⟨hbefore, ht⟩ := Bool.and_eq_true_iff.mp hs
  obtain ⟨t, hrest, hafter⟩ := (Option.any_eq_true _ _).mp ht
  have hjoining := of_decide_eq_true hbefore
  have hcount : workersLeave.countP poolStep = 6 := by decide
  obtain ⟨hsteps, -⟩ := shutdown_returns hrun hjoining.1 hrest
  rw [hcount] at hsteps
  exact ⟨s, t, hrun, hrest, hjoining, hcount, hsteps, of_decide_eq_true hafter⟩

end NotifiedPool
end Chater.Zmq
