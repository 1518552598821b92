import Chater.Foundations.FairRun
import Chater.Net.EventLoop
import Mathlib.Data.Prod.Lex

/-!
# Starting a loop in a thread, and telling it to quit

`EventLoopThread` with the loop that its thread makes, `EventLoop::Quit` on any thread, and the loop `while (!quit_)`
around the iterations of `EventLoop`.  `StartLoop` returns as soon as `ThreadFunc` has published the loop, which is
before `Loop()` begins, and `Loop()` begins with `quit_ = false`: a `Quit()` that comes in between is lost.  From then
on the loop iterates for ever, and the destructor waits for ever in `join`.

`Quit()` stores `quit_` and then, unless it is called by the loop thread, makes a `Wakeup()`; the two are separate
steps.  The pointer that `StartLoop` returns is used by any thread, as long as the loop exists: the destructor's test of
`loop_` and the store that follows it are one step.
-/

namespace Chater.Net

open Foundations

set_option autoImplicit false

/-! ## The system -/

/-- Where the new thread is: not yet started; in the constructor of `EventLoop`; in `callback_`; between the publication
of `loop_` and `quit_ = false`; at the test of `quit_`; in an iteration of the loop; behind `Loop()`; or at its end,
where `loop_` is null again. -/
inductive ThreadPhase
  | unstarted
  | constructing
  | initializing
  | entering
  | testing
  | iterating
  | returned
  | finished
deriving DecidableEq, Repr

namespace ThreadPhase

/-- `loop_` is not null. -/
def published : ThreadPhase → Bool
  | entering | testing | iterating | returned => true
  | _ => false

/-- `Loop()` has made its store to `quit_`. -/
def entered : ThreadPhase → Bool
  | testing | iterating | returned | finished => true
  | _ => false

end ThreadPhase

/-- Where the thread is that owns the `EventLoopThread`: before `StartLoop`; waiting in it; behind it; in the destructor,
behind the store of `Quit()`; or at the end of the destructor. -/
inductive KeeperPhase
  | idle
  | waiting
  | started
  | joining
  | destroyed
deriving DecidableEq, Repr

/-- `quitCalled` holds once some thread has called `Quit()`. -/
structure EventLoopThread (T F : Type) where
  phase : ThreadPhase
  keeper : KeeperPhase
  loop : EventLoop T F
  quit : Bool
  quitCalled : Bool

namespace EventLoopThread

variable {T F : Type} [DecidableEq T]

def start : EventLoopThread T F := ⟨.unstarted, .idle, .start, false, false⟩

inductive Event (T F : Type)
  | startLoop
  | construct
  | publish
  | startLoopReturns
  | enterLoop
  | test
  | loop (e : EventLoop.Event T F)
  | leave
  | quit (t : T)
  | destroy
  | join

/-- The store of `Quit()`.  A thread that is not the loop's then owes a `Wakeup()`. -/
def storeQuit (owner : T) (s : EventLoopThread T F) (t : T) : EventLoopThread T F :=
  { s with
    quit := true
    quitCalled := true
    loop := { s.loop with owesWakeup := Function.update s.loop.owesWakeup t (t ≠ owner) } }

/-- The thread may call a function of the loop: the loop thread in `callback_`, a handler or a functor, another thread
with the pointer that `StartLoop` returned. -/
def mayCall (owner : T) (s : EventLoopThread T F) (t : T) : Bool :=
  !s.loop.owesWakeup t &&
    if t = owner then s.phase = .initializing || s.phase = .iterating && s.loop.phase.inCallback
    else s.phase.published && (s.keeper = .started || s.keeper = .joining)

/-- A step within an iteration of the loop, or a step of a thread that queues a functor. -/
def loopStep (owner : T) (s : EventLoopThread T F) (e : EventLoop.Event T F) : Option (EventLoopThread T F) :=
  match e with
  | .queueInLoop t _ | .runInLoop t _ =>
    if s.mayCall owner t then (s.loop.step owner e).map fun loop => { s with loop := loop } else none
  | .wakeup _ => (s.loop.step owner e).map fun loop => { s with loop := loop }
  | .endBatch =>
    if s.phase = .iterating then (s.loop.step owner e).map fun loop => { s with loop := loop, phase := .testing }
    else none
  | e => if s.phase = .iterating then (s.loop.step owner e).map fun loop => { s with loop := loop } else none

/-- `owner` is the new thread, `keeper` the one that calls `StartLoop` and the destructor. -/
def step (owner keeper : T) (s : EventLoopThread T F) : Event T F → Option (EventLoopThread T F)
  | .startLoop =>
    if s.keeper = .idle ∧ s.phase = .unstarted then some { s with keeper := .waiting, phase := .constructing } else none
  | .construct => if s.phase = .constructing then some { s with phase := .initializing, quit := false } else none
  | .publish => if s.phase = .initializing then some { s with phase := .entering } else none
  | .startLoopReturns =>
    if s.keeper = .waiting ∧ s.phase.published = true then some { s with keeper := .started } else none
  | .enterLoop => if s.phase = .entering then some { s with phase := .testing, quit := false } else none
  | .test =>
    if s.phase = .testing then some { s with phase := if s.quit then .returned else .iterating } else none
  | .loop e => s.loopStep owner e
  | .leave => if s.phase = .returned then some { s with phase := .finished } else none
  | .quit t => if s.mayCall owner t then some (s.storeQuit owner t) else none
  | .destroy =>
    if s.keeper = .started ∧ s.loop.owesWakeup keeper = false then
      if s.phase.published then some { s.storeQuit owner keeper with keeper := .joining }
      else some { s with keeper := .destroyed }
    else none
  | .join =>
    if s.keeper = .joining ∧ s.loop.owesWakeup keeper = false ∧ s.phase = .finished then
      some { s with keeper := .destroyed }
    else none

/-- The steps that take `ThreadFunc` on. -/
def threadStep : Event T F → Bool
  | .construct | .publish | .enterLoop | .test | .leave => true
  | .loop (.queueInLoop _ _) | .loop (.runInLoop _ _) | .loop (.wakeup _) => false
  | .loop _ => true
  | _ => false

/-- The steps of the new thread: those that take `ThreadFunc` on, and the `Wakeup()` that it owes. -/
def ownStep (owner : T) : Event T F → Bool
  | .loop (.wakeup t) => t = owner
  | e => threadStep e

/-- A call of `Quit()` comes after the store that `Loop()` begins with. -/
def QuitsEntered (s : EventLoopThread T F) : Event T F → Prop
  | .quit _ => s.phase.entered = true
  | .destroy => s.phase.published = true → s.phase.entered = true
  | _ => True

instance (s : EventLoopThread T F) : (e : Event T F) → Decidable (QuitsEntered s e)
  | .quit _ => inferInstanceAs (Decidable (_ = _))
  | .destroy => inferInstanceAs (Decidable (_ → _))
  | .startLoop | .construct | .publish | .startLoopReturns | .enterLoop | .test | .loop _ | .leave | .join =>
    .isTrue trivial

/-- Once `Quit()` has been called, `quit_` is true; a loop in `epoll_wait` is about to be woken, by an edge of its eventfd
or by a thread that is yet to make its `Wakeup()`; and the thread, for which `join` waits, is not blocked and comes to
its end in every run in which it is not stopped for ever. -/
structure NotLost (owner keeper : T) (s : EventLoopThread T F) : Prop where
  kept : s.quitCalled = true → s.quit = true
  awake : s.quitCalled = true → s.phase = .iterating → s.loop.phase = .polling →
    s.loop.Awake ∨ ∃ t, s.loop.owesWakeup t = true
  goesOn : s.quitCalled = true → s.phase ≠ .finished → ∃ e s', ownStep owner e = true ∧ step owner keeper s e = some s'
  ends : s.quitCalled = true → ∀ r : Trace (step owner keeper) s,
    r.Fair (fun e => threadStep e = true) (fun s => s.phase = .finished) → ∃ i, (r.state i).phase = .finished

end EventLoopThread

/-! ## What the calls and the turns of the loop do -/

/-- How far the iteration is from its end. -/
def LoopPhase.remaining {A : Type} : LoopPhase A → ℕ ×ₗ ℕ
  | .polling => toLex (6, 0)
  | .handling wakeup => toLex (5, if wakeup then 1 else 0)
  | .swapping => toLex (4, 0)
  | .running inFunctor functors => toLex (3, 2 * functors.length + if inFunctor then 1 else 0)

theorem LoopPhase.two_lt_remaining {A : Type} (phase : LoopPhase A) : toLex (2, 0) < phase.remaining := by
  cases phase <;> exact Prod.Lex.toLex_lt_toLex.mpr (.inl (by simp))

namespace EventLoop

variable {T F : Type} [DecidableEq T] {owner t : T} {s s' : EventLoop T F}

/-- A call of another function than `Wakeup` leaves the phase and the eventfd alone. -/
structure Calls (owner t : T) (s s' : EventLoop T F) : Prop where
  phase : s'.phase = s.phase
  awake : s.Awake → s'.Awake
  owes : ∀ u, u ≠ t → s'.owesWakeup u = s.owesWakeup u
  owner_inCallback : t = owner → s.phase.inCallback = true

theorem queueInLoop_calls {functor : F} (h : s.queueInLoop owner t functor = some s') : Calls owner t s s' := by
  unfold queueInLoop at h
  split_ifs at h with hguard
  obtain rfl := Option.some.inj h
  refine ⟨rfl, id, fun u hu => Function.update_of_ne hu .., fun howner => ?_⟩
  by_contra hout
  exact hguard (.inr ⟨howner, Bool.eq_false_iff.mpr hout⟩)

theorem runInLoop_calls {functor : F} (h : s.runInLoop owner t functor = some s') : Calls owner t s s' := by
  unfold runInLoop at h
  split_ifs at h with howner hguard
  · obtain rfl := Option.some.inj h
    exact ⟨rfl, id, fun _ _ => rfl, fun _ => hguard.2⟩
  · exact queueInLoop_calls h

theorem wakeup_phase (h : s.wakeup t = some s') :
    s'.phase = s.phase ∧ s'.owesWakeup = Function.update s.owesWakeup t false := by
  unfold wakeup at h
  simp only at h
  split_ifs at h
  all_goals
    obtain rfl := Option.some.inj h
    exact ⟨rfl, rfl⟩

/-- `Wakeup()` wakes a loop that is in `epoll_wait`. -/
theorem Inv.awake_of_wakeup (hinv : s.Inv) (hphase : s.phase = .polling) (h : s.wakeup t = some s') : s'.Awake := by
  unfold EventLoop.wakeup at h
  simp only at h
  split_ifs at h with howes hroom
  · obtain rfl := Option.some.inj h
    exact ⟨Nat.succ_ne_zero _, rfl⟩
  · obtain rfl := Option.some.inj h
    have hcounter : s.counter ≠ 0 := by
      unfold eventfdMax at hroom
      omega
    refine ⟨hcounter, hinv.counter_edge_of ?_ hcounter⟩
    rw [hphase]
    nofun

omit [DecidableEq T] in
/-- A turn of the loop thread takes the iteration on, to its end with `endBatch`. -/
theorem loopStep_turns {e : Event T F} (h : s.loopStep e = some s') :
    s'.owesWakeup = s.owesWakeup ∧
      (e = .endBatch ∧ s'.phase = .polling ∨
        e ≠ .endBatch ∧ s'.phase ≠ .polling ∧ s'.phase.remaining < s.phase.remaining) := by
  have hlt : ∀ {a b c d : ℕ}, a < b ∨ a = b ∧ c < d → toLex (a, c) < toLex (b, d) := fun h =>
    Prod.Lex.toLex_lt_toLex.mpr h
  cases turn_of_loopStep h with
  | report hphase | timeout hphase | doPendingFunctors hphase | swap hphase =>
    rw [hphase]
    exact ⟨rfl, .inr ⟨by simp, by simp, hlt (.inl (by decide))⟩⟩
  | handleRead hphase =>
    rw [hphase]
    exact ⟨rfl, .inr ⟨by simp, by simp, hlt (.inr ⟨rfl, by decide⟩)⟩⟩
  | @callFunctor q functors hphase =>
    rw [hphase]
    refine ⟨rfl, .inr ⟨by simp, by simp, hlt (.inr ⟨rfl, ?_⟩)⟩⟩
    show 2 * functors.length + 1 < 2 * (functors.length + 1) + 0
    omega
  | @functorReturns functors hphase =>
    rw [hphase]
    refine ⟨rfl, .inr ⟨by simp, by simp, hlt (.inr ⟨rfl, ?_⟩)⟩⟩
    show 2 * functors.length + 0 < 2 * functors.length + 1
    omega
  | endBatch => exact ⟨rfl, .inl ⟨rfl, rfl⟩⟩

/-- What the loop thread does next when nothing is reported. -/
def nextTurn (s : EventLoop T F) : Event T F :=
  match s.phase with
  | .polling => .poll false
  | .handling true => .handleRead
  | .handling false => .doPendingFunctors
  | .swapping => .swap
  | .running true _ => .functorReturns
  | .running false (_ :: _) => .callFunctor
  | .running false [] => .endBatch

omit [DecidableEq T] in
/-- The loop thread is never blocked: `epoll_wait` returns after its timeout. -/
theorem exists_nextTurn (s : EventLoop T F) : ∃ s', s.loopStep s.nextTurn = some s' := by
  unfold nextTurn
  split <;> (rename_i hphase; simp only [loopStep, hphase]; exact ⟨_, rfl⟩)

end EventLoop

namespace EventLoopThread

variable {T F : Type} [DecidableEq T] {owner keeper t : T} {s s' : EventLoopThread T F} {e : Event T F}

/-! ## The steps -/

/-- What each step asks of the state and makes of it. -/
inductive StepCase (owner keeper : T) (s : EventLoopThread T F) : Event T F → EventLoopThread T F → Prop
  | startLoop (hphase : s.phase = .unstarted) :
      StepCase owner keeper s .startLoop { s with keeper := .waiting, phase := .constructing }
  | construct (hphase : s.phase = .constructing) :
      StepCase owner keeper s .construct { s with phase := .initializing, quit := false }
  | publish (hphase : s.phase = .initializing) : StepCase owner keeper s .publish { s with phase := .entering }
  | startLoopReturns : StepCase owner keeper s .startLoopReturns { s with keeper := .started }
  | enterLoop (hphase : s.phase = .entering) :
      StepCase owner keeper s .enterLoop { s with phase := .testing, quit := false }
  | testTrue (hphase : s.phase = .testing) (hquit : s.quit = true) :
      StepCase owner keeper s .test { s with phase := .returned }
  | testFalse (hphase : s.phase = .testing) (hquit : s.quit = false) :
      StepCase owner keeper s .test { s with phase := .iterating }
  | call {e : EventLoop.Event T F} {t : T} {loop : EventLoop T F} (hthread : threadStep (.loop e) = false)
      (hmay : s.mayCall owner t = true) (hcalls : EventLoop.Calls owner t s.loop loop)
      (hloop : s.loop.step owner e = some loop) : StepCase owner keeper s (.loop e) { s with loop := loop }
  | wakeup {t : T} {loop : EventLoop T F} (hloop : s.loop.wakeup t = some loop) :
      StepCase owner keeper s (.loop (.wakeup t)) { s with loop := loop }
  | turn {e : EventLoop.Event T F} {loop : EventLoop T F} (hthread : threadStep (.loop e) = true)
      (hphase : s.phase = .iterating) (hne : e ≠ .endBatch) (hloop : s.loop.loopStep e = some loop) :
      StepCase owner keeper s (.loop e) { s with loop := loop }
  | endBatch {loop : EventLoop T F} (hphase : s.phase = .iterating) (hidle : s.loop.owesWakeup owner = false)
      (hloop : s.loop.loopStep .endBatch = some loop) :
      StepCase owner keeper s (.loop .endBatch) { s with loop := loop, phase := .testing }
  | leave (hphase : s.phase = .returned) : StepCase owner keeper s .leave { s with phase := .finished }
  | quit {t : T} (hmay : s.mayCall owner t = true) : StepCase owner keeper s (.quit t) (s.storeQuit owner t)
  | destroy (hpublished : s.phase.published = true) (hidle : s.loop.owesWakeup keeper = false) :
      StepCase owner keeper s .destroy { s.storeQuit owner keeper with keeper := .joining }
  | destroyNull (hpublished : s.phase.published = false) :
      StepCase owner keeper s .destroy { s with keeper := .destroyed }
  | join : StepCase owner keeper s .join { s with keeper := .destroyed }

theorem turn_of_step {e : EventLoop.Event T F} {loop : EventLoop T F} (hthread : threadStep (.loop e) = true)
    (h : s.loop.step owner e = some loop) : s.loop.owesWakeup owner = false ∧ s.loop.loopStep e = some loop := by
  cases e with
  | queueInLoop | runInLoop | wakeup => cases hthread
  | _ =>
    simp only [EventLoop.step] at h
    split_ifs at h with howes
    exact ⟨Bool.eq_false_iff.mpr howes, h⟩

theorem loopStep_cases {e : EventLoop.Event T F} (h : s.loopStep owner e = some s') :
    StepCase owner keeper s (.loop e) s' := by
  cases e with
  | queueInLoop t functor =>
    simp only [loopStep] at h
    split_ifs at h with hmay
    obtain ⟨loop, hloop, rfl⟩ := Option.map_eq_some_iff.mp h
    exact .call rfl hmay (EventLoop.queueInLoop_calls hloop) hloop
  | runInLoop t functor =>
    simp only [loopStep] at h
    split_ifs at h with hmay
    obtain ⟨loop, hloop, rfl⟩ := Option.map_eq_some_iff.mp h
    exact .call rfl hmay (EventLoop.runInLoop_calls hloop) hloop
  | wakeup t =>
    obtain ⟨loop, hloop, rfl⟩ := Option.map_eq_some_iff.mp h
    exact .wakeup hloop
  | endBatch =>
    simp only [loopStep] at h
    split_ifs at h with hphase
    obtain ⟨loop, hloop, rfl⟩ := Option.map_eq_some_iff.mp h
    obtain ⟨hidle, hturn⟩ := turn_of_step rfl hloop
    exact .endBatch hphase hidle hturn
  | poll | handleRead | doPendingFunctors | swap | callFunctor | functorReturns =>
    simp only [loopStep] at h
    split_ifs at h with hphase
    obtain ⟨loop, hloop, rfl⟩ := Option.map_eq_some_iff.mp h
    exact .turn rfl hphase nofun (turn_of_step rfl hloop).2

theorem step_cases (h : s.step owner keeper e = some s') : StepCase owner keeper s e s' := by
  cases e with
  | loop e => exact loopStep_cases h
  | startLoop =>
    simp only [step] at h
    split_ifs at h with hguard
    obtain rfl := Option.some.inj h
    exact .startLoop hguard.2
  | construct =>
    simp only [step] at h
    split_ifs at h with hphase
    obtain rfl := Option.some.inj h
    exact .construct hphase
  | publish =>
    simp only [step] at h
    split_ifs at h with hphase
    obtain rfl := Option.some.inj h
    exact .publish hphase
  | startLoopReturns =>
    simp only [step] at h
    split_ifs at h
    obtain rfl := Option.some.inj h
    exact .startLoopReturns
  | enterLoop =>
    simp only [step] at h
    split_ifs at h with hphase
    obtain rfl := Option.some.inj h
    exact .enterLoop hphase
  | test =>
    simp only [step] at h
    split_ifs at h with hphase hquit
    · obtain rfl := Option.some.inj h
      exact .testTrue hphase hquit
    · obtain rfl := Option.some.inj h
      exact .testFalse hphase (Bool.eq_false_iff.mpr hquit)
  | leave =>
    simp only [step] at h
    split_ifs at h with hphase
    obtain rfl := Option.some.inj h
    exact .leave hphase
  | quit t =>
    simp only [step] at h
    split_ifs at h with hmay
    obtain rfl := Option.some.inj h
    exact .quit hmay
  | destroy =>
    simp only [step] at h
    split_ifs at h with hguard hpublished
    · obtain rfl := Option.some.inj h
      exact .destroy hpublished hguard.2
    · obtain rfl := Option.some.inj h
      exact .destroyNull (Bool.eq_false_iff.mpr hpublished)
  | join =>
    simp only [step] at h
    split_ifs at h
    obtain rfl := Option.some.inj h
    exact .join

theorem mayCall_iff :
    s.mayCall owner t = true ↔ s.loop.owesWakeup t = false ∧
      if t = owner then s.phase = .initializing ∨ s.phase = .iterating ∧ s.loop.phase.inCallback = true
      else s.phase.published = true ∧ (s.keeper = .started ∨ s.keeper = .joining) := by
  unfold mayCall
  split_ifs <;> simp

/-! ## The invariant -/

structure Inv (owner : T) (s : EventLoopThread T F) : Prop where
  loop : s.loop.Inv
  idle : s.phase ≠ .iterating → s.loop.phase = .polling ∧ s.loop.owesWakeup owner = false
  constructed : s.quitCalled = true → s.phase ≠ .unstarted ∧ s.phase ≠ .constructing

omit [DecidableEq T] in
theorem start_inv : Inv owner (start : EventLoopThread T F) where
  loop := EventLoop.start_inv
  idle _ := ⟨rfl, rfl⟩
  constructed h := by cases h

omit [DecidableEq T] in
/-- A step of `ThreadFunc` outside the iterations. -/
theorem Inv.setPhase (h : Inv owner s) (hphase : s.phase ≠ .iterating) (hloop : s'.loop = s.loop)
    (hconstructed : s'.quitCalled = true → s'.phase ≠ .unstarted ∧ s'.phase ≠ .constructing) : Inv owner s' := by
  refine ⟨?_, fun _ => ?_, hconstructed⟩
  · rw [hloop]
    exact h.loop
  · rw [hloop]
    exact h.idle hphase

theorem Inv.storeQuit (h : Inv owner s) (howes : s.loop.owesWakeup t = false)
    (hphase : s.phase ≠ .unstarted ∧ s.phase ≠ .constructing) : Inv owner (s.storeQuit owner t) where
  loop := by
    refine ⟨h.loop.fifo, h.loop.called_batch, h.loop.batch_swaps, h.loop.pending_swaps, h.loop.counter_edge, ?_⟩
    intro hswapped q hq
    refine (h.loop.woken hswapped q hq).imp_right fun howed => ?_
    have hne : q.thread ≠ t := by
      intro heq
      rw [heq, howes] at howed
      cases howed
    exact (Function.update_of_ne hne _ s.loop.owesWakeup).trans howed
  idle hidle := by
    refine ⟨(h.idle hidle).1, ?_⟩
    show Function.update s.loop.owesWakeup t _ owner = false
    by_cases ht : owner = t
    · rw [ht, Function.update_self]
      simp
    · rw [Function.update_of_ne ht]
      exact (h.idle hidle).2
  constructed _ := hphase

omit [DecidableEq T] in
theorem constructed_of_published (h : s.phase.published = true) : s.phase ≠ .unstarted ∧ s.phase ≠ .constructing := by
  refine ⟨fun heq => ?_, fun heq => ?_⟩ <;> rw [heq] at h <;> cases h

theorem constructed_of_mayCall (h : s.mayCall owner t = true) : s.phase ≠ .unstarted ∧ s.phase ≠ .constructing := by
  obtain ⟨-, hplace⟩ := mayCall_iff.mp h
  split_ifs at hplace
  · rcases hplace with hphase | ⟨hphase, -⟩ <;> rw [hphase] <;> decide
  · exact constructed_of_published hplace.1

theorem Inv.call {e : EventLoop.Event T F} {loop : EventLoop T F} (h : Inv owner s)
    (hcalls : EventLoop.Calls owner t s.loop loop) (hstep : s.loop.step owner e = some loop) :
    Inv owner { s with loop := loop } := by
  refine ⟨h.loop.step hstep, fun hidle => ?_, h.constructed⟩
  obtain ⟨hphase, howes⟩ := h.idle hidle
  have hne : owner ≠ t := by
    intro heq
    have hin := hcalls.owner_inCallback heq.symm
    rw [hphase] at hin
    cases hin
  exact ⟨hcalls.phase.trans hphase, (hcalls.owes owner hne).trans howes⟩

theorem Inv.wakeup {loop : EventLoop T F} (h : Inv owner s) (hstep : s.loop.wakeup t = some loop) :
    Inv owner { s with loop := loop } := by
  obtain ⟨hphase', howes'⟩ := EventLoop.wakeup_phase hstep
  refine ⟨h.loop.wakeup hstep, fun hidle => ?_, h.constructed⟩
  obtain ⟨hphase, howes⟩ := h.idle hidle
  refine ⟨hphase'.trans hphase, ?_⟩
  show loop.owesWakeup owner = false
  rw [howes']
  by_cases ht : owner = t
  · rw [ht, Function.update_self]
  · rw [Function.update_of_ne ht]
    exact howes

omit [DecidableEq T] in
theorem Inv.endBatch {loop : EventLoop T F} (h : Inv owner s) (hidle : s.loop.owesWakeup owner = false)
    (hstep : s.loop.loopStep .endBatch = some loop) : Inv owner { s with loop := loop, phase := .testing } := by
  obtain ⟨howes, ⟨-, hpolling⟩ | ⟨hne, -⟩⟩ := EventLoop.loopStep_turns hstep
  · refine ⟨h.loop.loopStep hstep, fun _ => ⟨hpolling, ?_⟩, fun _ => ⟨nofun, nofun⟩⟩
    show loop.owesWakeup owner = false
    rw [howes]
    exact hidle
  · exact absurd rfl hne

theorem Inv.step (h : Inv owner s) (hstep : s.step owner keeper e = some s') : Inv owner s' := by
  have hne : ∀ {phase : ThreadPhase}, s.phase = phase → phase ≠ .iterating → s.phase ≠ .iterating := by
    intro phase heq hne
    rwa [heq]
  cases step_cases hstep with
  | startLoop hphase =>
    exact h.setPhase (hne hphase nofun) rfl fun hcalled => absurd hphase (h.constructed hcalled).1
  | construct hphase =>
    exact h.setPhase (hne hphase nofun) rfl fun hcalled => absurd hphase (h.constructed hcalled).2
  | publish hphase | enterLoop hphase | testTrue hphase | testFalse hphase | leave hphase =>
    exact h.setPhase (hne hphase nofun) rfl fun _ => ⟨nofun, nofun⟩
  | startLoopReturns | destroyNull | join => exact ⟨h.loop, h.idle, h.constructed⟩
  | call _ _ hcalls hloop => exact h.call hcalls hloop
  | wakeup hloop => exact h.wakeup hloop
  | turn _ hphase _ hloop => exact ⟨h.loop.loopStep hloop, fun hidle => absurd hphase hidle, h.constructed⟩
  | endBatch _ hidle hloop => exact h.endBatch hidle hloop
  | quit hmay => exact h.storeQuit (mayCall_iff.mp hmay).1 (constructed_of_mayCall hmay)
  | destroy hpublished hidle =>
    have hstored := h.storeQuit hidle (constructed_of_published hpublished)
    exact ⟨hstored.loop, hstored.idle, hstored.constructed⟩

/-! ## A quit in effect -/

/-- Once `Quit()` has been called, `Loop()` has begun and `quit_` is true. -/
structure InEffect (s : EventLoopThread T F) : Prop where
  quit : s.quitCalled = true → s.quit = true
  entered : s.quitCalled = true → s.phase.entered = true
  awake : s.quitCalled = true → s.phase = .iterating → s.loop.phase = .polling →
    s.loop.Awake ∨ ∃ t, s.loop.owesWakeup t = true

omit [DecidableEq T] in
theorem start_inEffect : InEffect (start : EventLoopThread T F) := by
  refine ⟨fun h => ?_, fun h => ?_, fun h => ?_⟩ <;> cases h

omit [DecidableEq T] in
theorem InEffect.of_not_called (h : s.quitCalled ≠ true) : InEffect s :=
  ⟨fun hcalled => absurd hcalled h, fun hcalled => absurd hcalled h, fun hcalled => absurd hcalled h⟩

omit [DecidableEq T] in
/-- A step of `ThreadFunc` outside the iterations. -/
theorem InEffect.setPhase (h : InEffect s) (phase : ThreadPhase) (hentered : phase.entered = true)
    (hphase : phase ≠ .iterating) : InEffect { s with phase := phase } :=
  ⟨h.quit, fun _ => hentered, fun _ heq => absurd heq hphase⟩

theorem InEffect.call {loop : EventLoop T F} (h : InEffect s) (hmay : s.mayCall owner t = true)
    (hcalls : EventLoop.Calls owner t s.loop loop) : InEffect { s with loop := loop } := by
  refine ⟨h.quit, h.entered, fun hcalled hphase hpolling => ?_⟩
  rcases h.awake hcalled hphase (hcalls.phase.symm.trans hpolling) with hawake | ⟨u, hu⟩
  · exact .inl (hcalls.awake hawake)
  · have hne : u ≠ t := by
      intro heq
      rw [heq, (mayCall_iff.mp hmay).1] at hu
      cases hu
    exact .inr ⟨u, (hcalls.owes u hne).trans hu⟩

/-- A call of `Quit()` takes effect when `Loop()` has begun, and otherwise not. -/
theorem inEffect_storeQuit_iff (hphase : t = owner → s.loop.phase = .polling → s.phase ≠ .iterating) :
    InEffect (s.storeQuit owner t) ↔ s.phase.entered = true := by
  refine ⟨fun h => h.entered rfl, fun hentered => ⟨fun _ => rfl, fun _ => hentered, fun _ hiterating hpolling => ?_⟩⟩
  refine .inr ⟨t, ?_⟩
  show Function.update s.loop.owesWakeup t _ t = true
  rw [Function.update_self]
  simpa using fun ht => hphase ht hpolling hiterating

/-- The loop thread calls `Quit()` from `callback_`, a handler or a functor. -/
theorem not_polling_of_mayCall (h : s.mayCall owner t = true) (ht : t = owner) (hpolling : s.loop.phase = .polling) :
    s.phase ≠ .iterating := by
  obtain ⟨-, hplace⟩ := mayCall_iff.mp h
  rw [if_pos ht] at hplace
  rcases hplace with hphase | ⟨-, hin⟩
  · rw [hphase]
    decide
  · rw [hpolling] at hin
    cases hin

theorem InEffect.step_iff (hne : keeper ≠ owner) (hinv : Inv owner s) (h : InEffect s)
    (hstep : s.step owner keeper e = some s') : QuitsEntered s e ↔ InEffect s' := by
  cases step_cases hstep with
  | startLoop hphase =>
    exact iff_of_true trivial (.of_not_called fun hcalled => (hinv.constructed hcalled).1 hphase)
  | construct hphase =>
    exact iff_of_true trivial (.of_not_called fun hcalled => (hinv.constructed hcalled).2 hphase)
  | publish hphase | enterLoop hphase =>
    refine iff_of_true trivial (.of_not_called fun hcalled => ?_)
    have hentered := h.entered hcalled
    rw [hphase] at hentered
    cases hentered
  | testTrue => exact iff_of_true trivial (h.setPhase _ rfl (by decide))
  | testFalse _ hquit =>
    refine iff_of_true trivial (.of_not_called fun hcalled => ?_)
    rw [h.quit hcalled] at hquit
    cases hquit
  | leave => exact iff_of_true trivial (h.setPhase _ rfl (by decide))
  | startLoopReturns | join => exact iff_of_true trivial ⟨h.quit, h.entered, h.awake⟩
  | call _ hmay hcalls => exact iff_of_true trivial (h.call hmay hcalls)
  | wakeup hloop =>
    refine iff_of_true trivial ⟨h.quit, h.entered, fun _ _ hpolling => .inl ?_⟩
    exact hinv.loop.awake_of_wakeup ((EventLoop.wakeup_phase hloop).1.symm.trans hpolling) hloop
  | turn _ _ hne hloop =>
    refine iff_of_true trivial ⟨h.quit, h.entered, fun _ _ hpolling => ?_⟩
    obtain ⟨-, ⟨he, -⟩ | ⟨-, hnot, -⟩⟩ := EventLoop.loopStep_turns hloop
    · exact absurd he hne
    · exact absurd hpolling hnot
  | endBatch =>
    exact iff_of_true trivial ⟨h.quit, fun _ => rfl, fun _ hphase => ThreadPhase.noConfusion hphase⟩
  | quit hmay => exact (inEffect_storeQuit_iff (not_polling_of_mayCall hmay)).symm
  | destroy hpublished =>
    have hstored := inEffect_storeQuit_iff (s := s) fun heq => absurd heq hne
    refine ⟨fun h => ?_, fun h _ => hstored.mp ⟨h.quit, h.entered, h.awake⟩⟩
    have hstored := hstored.mpr (h hpublished)
    exact ⟨hstored.quit, hstored.entered, hstored.awake⟩
  | destroyNull hpublished =>
    refine iff_of_true (fun h => ?_) ⟨h.quit, h.entered, h.awake⟩
    rw [hpublished] at h
    cases h

/-! ## The end of the thread -/

/-- How far the thread is from its end, once `Loop()` has begun and `quit_` is true. -/
def remaining (s : EventLoopThread T F) : ℕ ×ₗ ℕ :=
  match s.phase with
  | .unstarted | .constructing | .initializing | .entering => toLex (7, 0)
  | .testing => toLex (2, 0)
  | .iterating => s.loop.phase.remaining
  | .returned => toLex (1, 0)
  | .finished => toLex (0, 0)

omit [DecidableEq T] in
theorem remaining_congr (hphase : s'.phase = s.phase) (hloop : s'.loop.phase = s.loop.phase) :
    s'.remaining = s.remaining := by
  unfold remaining
  rw [hphase, hloop]

structure Quitting (owner : T) (s : EventLoopThread T F) : Prop where
  inv : Inv owner s
  inEffect : InEffect s
  called : s.quitCalled = true

theorem quitCalled_step (h : s.quitCalled = true) (hstep : s.step owner keeper e = some s') : s'.quitCalled = true := by
  cases step_cases hstep with
  | quit | destroy => rfl
  | _ => exact h

theorem Quitting.step (hne : keeper ≠ owner) (h : Quitting owner s) (hstep : s.step owner keeper e = some s') :
    Quitting owner s' := by
  have hentered := h.inEffect.entered h.called
  have hmeets : QuitsEntered s e := by
    cases e with
    | quit => exact hentered
    | destroy => exact fun _ => hentered
    | _ => trivial
  exact ⟨h.inv.step hstep, (h.inEffect.step_iff hne h.inv hstep).mp hmeets, quitCalled_step h.called hstep⟩

omit [DecidableEq T] in
theorem Quitting.phase_ne (h : Quitting owner s) {phase : ThreadPhase} (hphase : phase.entered = false) :
    s.phase ≠ phase := by
  intro heq
  have hentered := h.inEffect.entered h.called
  rw [heq, hphase] at hentered
  cases hentered

theorem Quitting.remaining_lt (h : Quitting owner s) (hthread : threadStep e = true)
    (hstep : s.step owner keeper e = some s') : s'.remaining < s.remaining := by
  cases step_cases hstep with
  | startLoop | startLoopReturns | wakeup | quit | destroy | destroyNull | join => cases hthread
  | call hcall =>
    rw [hcall] at hthread
    cases hthread
  | construct hphase | publish hphase | enterLoop hphase => exact absurd hphase (h.phase_ne rfl)
  | testTrue hphase =>
    simp only [remaining, hphase]
    exact Prod.Lex.toLex_lt_toLex.mpr (.inl (by decide))
  | testFalse _ hquit =>
    rw [h.inEffect.quit h.called] at hquit
    cases hquit
  | turn _ hphase hne hloop =>
    obtain ⟨-, ⟨he, -⟩ | ⟨-, -, hlt⟩⟩ := EventLoop.loopStep_turns hloop
    · exact absurd he hne
    · simp only [remaining, hphase]
      exact hlt
  | endBatch hphase =>
    simp only [remaining, hphase]
    exact s.loop.phase.two_lt_remaining
  | leave hphase =>
    simp only [remaining, hphase]
    exact Prod.Lex.toLex_lt_toLex.mpr (.inl (by decide))

theorem Quitting.remaining_eq (h : Quitting owner s) (hthread : threadStep e = false)
    (hstep : s.step owner keeper e = some s') : s'.remaining = s.remaining := by
  cases step_cases hstep with
  | construct | publish | enterLoop | testTrue | testFalse | endBatch | leave => cases hthread
  | turn hturn =>
    rw [hturn] at hthread
    cases hthread
  | startLoop hphase => exact absurd hphase (h.phase_ne rfl)
  | startLoopReturns | quit | destroy | destroyNull | join => exact remaining_congr rfl rfl
  | call _ _ hcalls => exact remaining_congr rfl hcalls.phase
  | wakeup hloop => exact remaining_congr rfl (EventLoop.wakeup_phase hloop).1

theorem exists_turn {e : EventLoop.Event T F} {loop : EventLoop T F} (hthread : threadStep (.loop e) = true)
    (hphase : s.phase = .iterating) (hidle : s.loop.owesWakeup owner = false)
    (hloop : s.loop.loopStep e = some loop) : ∃ s', s.loopStep owner e = some s' := by
  cases e with
  | queueInLoop | runInLoop | wakeup => cases hthread
  | _ => simp [loopStep, hphase, EventLoop.step, hidle, hloop]

omit [DecidableEq T] in
theorem threadStep_nextTurn (loop : EventLoop T F) : threadStep (.loop loop.nextTurn) = true := by
  unfold EventLoop.nextTurn
  split <;> rfl

theorem ownStep_nextTurn (owner : T) (loop : EventLoop T F) : ownStep owner (.loop loop.nextTurn) = true := by
  unfold EventLoop.nextTurn
  split <;> rfl

theorem exists_nextTurn (hphase : s.phase = .iterating) (hidle : s.loop.owesWakeup owner = false) :
    ∃ s', s.step owner keeper (.loop s.loop.nextTurn) = some s' := by
  obtain ⟨loop, hloop⟩ := s.loop.exists_nextTurn
  exact exists_turn (threadStep_nextTurn s.loop) hphase hidle hloop

/-- The thread is not blocked: it makes the `Wakeup()` that it owes, and otherwise goes on. -/
theorem Quitting.goesOn (h : Quitting owner s) (hphase : s.phase ≠ .finished) :
    ∃ e s', ownStep owner e = true ∧ s.step owner keeper e = some s' := by
  cases heq : s.phase with
  | unstarted | constructing | initializing | entering => exact absurd heq (h.phase_ne rfl)
  | testing => exact ⟨.test, _, rfl, if_pos heq⟩
  | iterating =>
    cases hidle : s.loop.owesWakeup owner with
    | false =>
      obtain ⟨s', hstep⟩ := exists_nextTurn heq hidle
      exact ⟨_, s', ownStep_nextTurn owner s.loop, hstep⟩
    | true =>
      have hwakes : ∃ s', s.step owner keeper (.loop (.wakeup owner)) = some s' := by
        simp only [EventLoopThread.step, loopStep, EventLoop.step, EventLoop.wakeup, hidle]
        split_ifs <;> exact ⟨_, rfl⟩
      obtain ⟨s', hstep⟩ := hwakes
      exact ⟨.loop (.wakeup owner), s', decide_eq_true rfl, hstep⟩
  | returned => exact ⟨.leave, _, rfl, if_pos heq⟩
  | finished => exact absurd heq hphase

theorem Quitting.ends (hne : keeper ≠ owner) (h : Quitting owner s) {r : Trace (EventLoopThread.step owner keeper) s}
    (hfair : r.Fair (fun e => threadStep e = true) (fun s => s.phase = .finished)) :
    ∃ i, (r.state i).phase = .finished :=
  hfair.exists_done (fun _ _ _ h hstep => h.step hne hstep) (fun _ _ _ h hthread hstep => h.remaining_lt hthread hstep)
    (fun _ _ _ h hthread hstep => h.remaining_eq (Bool.eq_false_iff.mpr hthread) hstep) h

/-! ## A quit that is lost -/

/-- The thread is before `Loop()`, or in it with `quit_` false. -/
structure Unquit (owner : T) (s : EventLoopThread T F) : Prop where
  running : s.phase = .initializing ∨ s.phase = .entering ∨
    s.quit = false ∧ (s.phase = .testing ∨ s.phase = .iterating)
  idle : s.loop.owesWakeup owner = false

/-- The next step of the thread when nothing is reported and no functor is queued. -/
def next (s : EventLoopThread T F) : Event T F :=
  match s.phase with
  | .unstarted | .constructing => .construct
  | .initializing => .publish
  | .entering => .enterLoop
  | .testing => .test
  | .iterating => .loop s.loop.nextTurn
  | .returned | .finished => .leave

omit [DecidableEq T] in
theorem threadStep_next (s : EventLoopThread T F) : threadStep s.next = true := by
  unfold next
  split <;> first | rfl | exact threadStep_nextTurn s.loop

theorem Unquit.turn {e : EventLoop.Event T F} (h : Unquit owner s) (hquit : s.quit = false)
    (hthread : threadStep (.loop e) = true) (hstep : s.step owner keeper (.loop e) = some s') : Unquit owner s' := by
  cases step_cases hstep with
  | call hcall =>
    rw [hcall] at hthread
    cases hthread
  | wakeup => cases hthread
  | turn _ hphase _ hloop =>
    exact ⟨.inr (.inr ⟨hquit, .inr hphase⟩), (congrFun (EventLoop.loopStep_turns hloop).1 owner).trans h.idle⟩
  | endBatch _ _ hloop =>
    exact ⟨.inr (.inr ⟨hquit, .inl rfl⟩), (congrFun (EventLoop.loopStep_turns hloop).1 owner).trans h.idle⟩

theorem Unquit.next (h : Unquit owner s) : ∃ s', s.step owner keeper s.next = some s' ∧ Unquit owner s' := by
  rcases h.running with hphase | hphase | ⟨hquit, hphase | hphase⟩
  · have hnext : s.next = .publish := by simp only [EventLoopThread.next, hphase]
    rw [hnext]
    exact ⟨_, if_pos hphase, .inr (.inl rfl), h.idle⟩
  · have hnext : s.next = .enterLoop := by simp only [EventLoopThread.next, hphase]
    rw [hnext]
    exact ⟨_, if_pos hphase, .inr (.inr ⟨rfl, .inl rfl⟩), h.idle⟩
  · have hnext : s.next = .test := by simp only [EventLoopThread.next, hphase]
    rw [hnext]
    refine ⟨_, if_pos hphase, .inr (.inr ⟨hquit, .inr ?_⟩), h.idle⟩
    simp [hquit]
  · have hnext : s.next = .loop s.loop.nextTurn := by simp only [EventLoopThread.next, hphase]
    rw [hnext]
    obtain ⟨s', hstep⟩ := exists_nextTurn hphase h.idle
    exact ⟨s', hstep, h.turn hquit (threadStep_nextTurn s.loop) hstep⟩

/-- The thread goes on for ever: it need not come to its end. -/
theorem Unquit.exists_endless (h : Unquit owner s) :
    ∃ r : Trace (step owner keeper) s, r.Fair (fun e => threadStep e = true) (fun s => s.phase = .finished) ∧
      ∀ i, (r.state i).phase ≠ .finished := by
  obtain ⟨r, hr⟩ := Trace.exists_of_scheduler EventLoopThread.next (fun _ h => h.next) h
  refine ⟨r, fun i => ⟨i, le_rfl, .inr ?_⟩, fun i hfinished => ?_⟩
  · rw [(hr i).2]
    exact threadStep_next _
  · have hrunning := (hr i).1.running
    rw [hfinished] at hrunning
    simp at hrunning

/-! ## The theorem -/

/-- A quit is not lost just when it is in effect. -/
theorem notLost_iff (hne : keeper ≠ owner) (h : Inv owner s) : NotLost owner keeper s ↔ InEffect s := by
  constructor
  · intro hnot
    refine ⟨hnot.kept, fun hcalled => ?_, hnot.awake⟩
    by_contra hentered
    -- `Loop()` is still to store `quit_ = false`
    have hunquit : Unquit owner s := by
      obtain ⟨hunstarted, hconstructing⟩ := h.constructed hcalled
      cases hphase : s.phase with
      | unstarted => exact absurd hphase hunstarted
      | constructing => exact absurd hphase hconstructing
      | initializing => exact ⟨.inl hphase, (h.idle (by rw [hphase]; decide)).2⟩
      | entering => exact ⟨.inr (.inl hphase), (h.idle (by rw [hphase]; decide)).2⟩
      | testing | iterating | returned | finished =>
        rw [hphase] at hentered
        exact absurd rfl hentered
    obtain ⟨r, hfair, hendless⟩ := hunquit.exists_endless
    obtain ⟨i, hi⟩ := hnot.ends hcalled r hfair
    exact hendless i hi
  · intro heffect
    have hquitting : s.quitCalled = true → Quitting owner s := fun hcalled => ⟨h, heffect, hcalled⟩
    exact ⟨heffect.quit, heffect.awake, fun hcalled => (hquitting hcalled).goesOn,
      fun hcalled _ hfair => (hquitting hcalled).ends hne hfair⟩

/-- **No quit is lost exactly when every `Quit()` comes after the store that `Loop()` begins with.**  In a run that
calls `Quit()` before, also in the destructor, the thread can go on for ever, and `join` waits for it. -/
theorem notLost_iff_quitsEntered (hne : keeper ≠ owner) {es : List (Event T F)}
    (hrun : runFrom (step owner keeper) start es = some s) :
    (∀ es₁ es₂ u, es = es₁ ++ es₂ → runFrom (step owner keeper) start es₁ = some u → NotLost owner keeper u) ↔
      Meets (step owner keeper) QuitsEntered start es := by
  refine (meets_iff_forall_of_good (fun u (h : Inv owner u ∧ InEffect u) => ?_) (fun _ _ _ h hc hm => ?_)
    (fun _ _ _ h hc hm hnot => hc ?_) ⟨start_inv, start_inEffect⟩ hrun).symm
  · exact (notLost_iff hne h.1).mpr h.2
  · exact ⟨h.1.step hm, (h.2.step_iff hne h.1 hm).mp hc⟩
  · exact (h.2.step_iff hne h.1 hm).mpr ((notLost_iff hne (h.1.step hm)).mp hnot)

/-- The destructor calls `Quit()` while the loop is in `epoll_wait`.  The loop thread is 0, the other one 1. -/
def quitWhilePolling : List (Event ℕ Unit) :=
  [.startLoop, .construct, .publish, .startLoopReturns, .enterLoop, .test, .destroy, .loop (.wakeup 1),
    .loop (.poll true), .loop .handleRead, .loop .doPendingFunctors, .loop .swap, .loop .endBatch, .test, .leave, .join]

theorem notLost_quitWhilePolling :
    ∃ s, runFrom (step 0 1) start quitWhilePolling = some s ∧ s.keeper = .destroyed ∧
      ∀ es₁ es₂ u, quitWhilePolling = es₁ ++ es₂ → runFrom (step 0 1) start es₁ = some u → NotLost 0 1 u := by
  have hmeets : Meets (step 0 1) QuitsEntered start quitWhilePolling := by decide +kernel
  exact ⟨_, rfl, rfl, (notLost_iff_quitsEntered (by decide) rfl).mpr hmeets⟩

/-- `StartLoop` has returned and the destructor runs before `Loop()` begins. -/
def quitBeforeLoop : List (Event ℕ Unit) :=
  [.startLoop, .construct, .publish, .startLoopReturns, .destroy, .loop (.wakeup 1), .enterLoop, .test,
    .loop (.poll true), .loop .handleRead, .loop .doPendingFunctors, .loop .swap, .loop .endBatch, .test]

/-- The quit is lost: `quit_` is false again, the loop is in `epoll_wait` with nothing to wake it, the destructor is in
`join`, and the thread need never end. -/
theorem lost_quitBeforeLoop :
    ∃ s, runFrom (step 0 1) start quitBeforeLoop = some s ∧ s.quitCalled = true ∧ s.quit = false ∧
      s.keeper = .joining ∧ s.phase = .iterating ∧ s.loop.phase = .polling ∧ ¬ s.loop.Awake ∧
      s.loop.owesWakeup 0 = false ∧ s.loop.owesWakeup 1 = false ∧ ¬ NotLost 0 1 s ∧
      ∃ r : Trace (step 0 1) s, r.Fair (fun e => threadStep e = true) (fun s => s.phase = .finished) ∧
        ∀ i, (r.state i).phase ≠ .finished := by
  refine ⟨_, rfl, rfl, rfl, rfl, rfl, rfl, fun h => h.1 rfl, rfl, rfl, fun h => ?_, ?_⟩
  · exact Bool.noConfusion (h.kept rfl)
  · exact Unquit.exists_endless ⟨.inr (.inr ⟨rfl, .inr rfl⟩), rfl⟩

end EventLoopThread

end Chater.Net
