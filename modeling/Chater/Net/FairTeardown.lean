import Chater.Net.TeardownRounds
import Mathlib.Data.Prod.Lex

/-!
# Closing connections go away

A loop whose thread keeps running finishes its rounds: every step of the thread uses up some of the work of the round,
and no other thread adds to it.  So in an infinite run in which the threads of the base loop and of the connection's own
loop keep taking steps, a connection that is closing is destroyed at some time and stays so.
-/

namespace Chater.Net

open Base Foundations

set_option autoImplicit false

/-- What is left of a round: the phase, then the callbacks and functors that are left of it, each of which may begin a
user callback. -/
def Loop.work (l : Loop) : ℕ ×ₗ ℕ :=
  let inCallback := if l.callback = none then 0 else 1
  match l.phase with
  | .polling => toLex (2, inCallback)
  | .handling active => toLex (1, 2 * (active.map fun x => x.2.length + 1).sum + inCallback)
  | .functors batch => toLex (0, 2 * batch.length + inCallback)

theorem Loop.work_congr {l l' : Loop} (hphase : l'.phase = l.phase) (hcallback : l'.callback = l.callback) :
    l'.work = l.work := by
  rw [work, work, hphase, hcallback]

namespace NetLayer

variable {cfg : Config} {n : ℕ} {s t : NetLayer} {fd loop thread : ℕ} {c : Conn} {e : Event}

/-! ## The callback that a loop is in -/

/-- The thread that runs the loop takes the step. -/
def Event.runsOn (e : Event) (loop : ℕ) : Prop := e.loop = some loop ∨ e = .callbackReturns loop

/-- The other loops are in the callbacks that they were in. -/
def Elsewhere (thread : ℕ) (s t : NetLayer) : Prop :=
  ∀ loop, loop ≠ thread → (t.loops loop).callback = (s.loops loop).callback

theorem elsewhere_closed (n thread : ℕ) : Closed n thread (Elsewhere thread) where
  refl _ _ _ := rfl
  trans h h' loop hne := (h' loop hne).trans (h loop hne)
  server _ hloops _ _ loop _ := by rw [hloops]
  own s f loop hne := congrArg Loop.callback (loops_modifyLoop_of_ne s hne f)
  queueInLoop s loop f other _ := (calm_queueInLoop s loop f).entered other
  setPoller s loop p other _ := (calm_setPoller s loop p).entered other
  modifyConn _ _ _ _ _ _ := rfl
  addConn _ _ _ _ _ := rfl

theorem act_callback (haffine : Affine cfg n s) (hr : act cfg n s e = some (.ok t)) (hother : ¬ e.runsOn loop) :
    (t.loops loop).callback = (s.loops loop).callback := by
  cases e with
  | poll other _ | handle other _ | doPendingFunctors other | run other _ | endFunctors other =>
    have hne : loop ≠ other := fun heq => hother (.inl (congrArg some heq.symm))
    simp only [act, Event.loop] at hr
    split_ifs at hr
    exact (elsewhere_closed n other).loopStep (fun _ => haffine.fresh) hr loop hne
  | start =>
    have h := (elsewhere_closed n (loop + 1)).startServer cfg s
    rw [Option.some.inj hr] at h
    exact h loop (Nat.ne_of_lt (Nat.lt_succ_self loop))
  | callbackReturns other =>
    have hne : loop ≠ other := fun heq => hother (.inr (congrArg Event.callbackReturns heq.symm))
    exact (elsewhere_closed n other).callbackReturns hr loop hne
  | send | shutdown | forceClose | store | push =>
    simp only [act, Event.loop] at hr
    exact (userCall_calm hr).entered loop

/-- No thread but its own changes what a loop has left of its round. -/
theorem act_work_eq (haffine : Affine cfg n s) (hr : act cfg n s e = some (.ok t)) (hother : ¬ e.runsOn loop) :
    (t.loops loop).work = (s.loops loop).work := by
  have hphase : (t.loops loop).phase = (s.loops loop).phase := by
    cases act_queues hr loop with
    | other _ hphase _ => exact hphase
    | poll | handle | doPendingFunctors | run | endFunctors => exact absurd (.inl rfl) hother
  exact Loop.work_congr hphase (act_callback haffine hr hother)

/-! ## The steps of a round -/

theorem callbackReturns_work (h : Lives none s) (hr : s.callbackReturns loop = some (.ok t)) :
    (t.loops loop).work < (s.loops loop).work := by
  have hin : (s.loops loop).callback ≠ none := by
    intro hnone
    simp only [NetLayer.callbackReturns, hnone] at hr
    cases hr
  have hout : (t.loops loop).callback = none := by
    rw [(callbackReturns_calm h hr).entered loop, leaveCallback, loops_modifyLoop_self]
  rw [Loop.work, Loop.work, (adds_callbackReturns hr loop).1, if_pos hout, if_neg hin]
  split
  all_goals exact Prod.Lex.right _ (Nat.lt_succ_self _)

theorem loopStep_work (hnone : (s.loops loop).callback = none) (hr : loopStep cfg n s loop e = some (.ok t)) :
    (∃ l, e = .endFunctors l) ∨ (t.loops loop).work < (s.loops loop).work := by
  have hflag : (if (t.loops loop).callback = none then 0 else 1) ≤ 1 := by split_ifs <;> omega
  generalize hx : Except.ok t = x at hr
  cases loopStep_cases hr with
  | endFunctors => exact .inl ⟨_, rfl⟩
  | poll hphase _ =>
    obtain rfl := Except.ok.inj hx
    right
    rw [Loop.work, Loop.work, phase_setPhase, hphase]
    exact Prod.Lex.left _ _ (by decide)
  | nextChannel hphase =>
    obtain rfl := Except.ok.inj hx
    right
    rw [Loop.work, Loop.work, phase_setPhase, hphase, if_pos hnone]
    refine Prod.Lex.right _ ?_
    simp only [List.map_cons, List.sum_cons, List.length_nil]
    omega
  | doPendingFunctors hphase =>
    obtain rfl := Except.ok.inj hx
    right
    rw [Loop.work, Loop.work, loops_modifyLoop_self, hphase]
    exact Prod.Lex.left _ _ (by decide)
  | handle hphase hrun =>
    subst hx
    right
    rw [Loop.work, Loop.work, (adds_runCallback hrun loop).1, phase_setPhase, hphase, if_pos hnone]
    refine Prod.Lex.right _ ?_
    simp only [List.map_cons, List.sum_cons, List.length_cons]
    omega
  | run hphase hrun =>
    subst hx
    right
    rw [Loop.work, Loop.work, (adds_runFunctor hrun loop).1, phase_setPhase, hphase, if_pos hnone]
    refine Prod.Lex.right _ ?_
    simp only [List.length_cons]
    omega

/-- A step of the loop's thread uses up some of the work of the round, or ends the round. -/
theorem act_work_lt (h : Lives none s) (hr : act cfg n s e = some (.ok t)) (hown : e.runsOn loop) :
    e = .endFunctors loop ∨ (t.loops loop).work < (s.loops loop).work := by
  obtain he | rfl := hown
  · have hnone := callback_none_of_act he hr
    simp only [act, he] at hr
    split_ifs at hr
    obtain ⟨l, rfl⟩ | hlt := loopStep_work hnone hr
    · exact .inl (congrArg Event.endFunctors (Option.some.inj he))
    · exact .inr hlt
  · exact .inr (callbackReturns_work h hr)

/-! ## Fair runs -/

/-- The rounds that are left, then what is left of the round that the connection waits for. -/
def toGo (fd loop : ℕ) : Except Failure NetLayer → ℕ ×ₗ (ℕ ×ₗ ℕ)
  | .ok s => toLex (s.lag fd, (s.loops (awaitedLoop loop (s.lag fd))).work)
  | .error _ => toLex (0, toLex (0, 0))

theorem OnWay.toGo_step {x y : Except Failure NetLayer} (hx : OnWay cfg n fd loop x) (hassumed : Assumed x e)
    (hy : NetLayer.step cfg n x e = some y) :
    ∃ s t, x = .ok s ∧ y = .ok t ∧ OnWay cfg n fd loop y ∧ t.lag fd ≤ s.lag fd ∧
      (s.lag fd ≠ 0 → toGo fd loop y ≤ toGo fd loop x ∧
        (e.runsOn (awaitedLoop loop (s.lag fd)) → toGo fd loop y < toGo fd loop x)) := by
  obtain ⟨s, t, rfl, rfl, hlives, haffine, hnext, hle, hlt⟩ := hx.step hassumed hy
  refine ⟨s, t, rfl, rfl, hnext, hle, fun hpos => ?_⟩
  obtain hfewer | hsame := hle.lt_or_eq
  · have hless : toGo fd loop (.ok t) < toGo fd loop (.ok s) := Prod.Lex.left _ _ hfewer
    exact ⟨hless.le, fun _ => hless⟩
  · simp only [toGo, hsame]
    by_cases hown : e.runsOn (awaitedLoop loop (s.lag fd))
    · obtain hend | hwork := act_work_lt hlives hy hown
      · have hfewer := hlt hpos hend
        omega
      · have hless : toLex (s.lag fd, (t.loops (awaitedLoop loop (s.lag fd))).work) <
            toLex (s.lag fd, (s.loops (awaitedLoop loop (s.lag fd))).work) := Prod.Lex.right _ hwork
        exact ⟨hless.le, fun _ => hless⟩
    · rw [act_work_eq haffine hy hown]
      exact ⟨le_rfl, fun h => absurd h hown⟩

/-- **Teardown under fairness.**  In an infinite run in which the threads of the base loop and of the connection's own
loop keep taking steps, a connection that is down or that `ForceClose` has been called for is gone from some time on. -/
theorem closing_connection_goes {cfg : Config} {n : ℕ} {es : List Event} {s : NetLayer} {fd : ℕ} {c : Conn}
    (hes : Meets (step cfg n) Assumed (.ok (start cfg n)) es)
    (hrun : runFrom (step cfg n) (.ok (start cfg n)) es = some (.ok s)) (hc : s.conns fd = some c)
    (hclosing : s.Closing fd c) (r : Trace (step cfg n) (.ok s))
    (hassumed : ∀ i, Assumed (r.state i) (r.event i))
    (hfair : ∀ loop, loop = 0 ∨ loop = c.loop → ∀ i, ∃ j, i ≤ j ∧ (r.event j).runsOn loop) :
    ∃ i, ∀ j, i ≤ j → ∃ t c', r.state j = .ok t ∧ t.conns fd = some c' ∧ t.Gone fd c' := by
  have hstart := onWay_of_run hes hrun hc hclosing
  have hway : ∀ i, OnWay cfg n fd c.loop (r.state i) := by
    intro i
    induction i with
    | zero =>
      rw [r.first]
      exact hstart
    | succ i ih =>
      obtain ⟨-, -, -, -, hnext, -⟩ := ih.toGo_step (hassumed i) (r.next i)
      exact hnext
  let done : Except Failure NetLayer → Prop := fun x => ∃ s, x = .ok s ∧ s.lag fd = 0
  let helps : ℕ ×ₗ (ℕ ×ₗ ℕ) → Event → Prop := fun a e => e.runsOn (awaitedLoop c.loop (ofLex a).1)
  have hstep : ∀ x e y, OnWay cfg n fd c.loop x → ¬ done x → Assumed x e → step cfg n x e = some y →
      OnWay cfg n fd c.loop y ∧ toGo fd c.loop y ≤ toGo fd c.loop x ∧
        (helps (toGo fd c.loop x) e → toGo fd c.loop y < toGo fd c.loop x) := by
    intro x e y hx hopen hassumed hy
    obtain ⟨s, t, rfl, rfl, hnext, -, hgo⟩ := hx.toGo_step hassumed hy
    exact ⟨hnext, hgo fun hzero => hopen ⟨s, rfl, hzero⟩⟩
  have hhelped : ∀ a i, ∃ j, i ≤ j ∧ helps a (r.event j) := by
    intro a
    apply hfair
    show awaitedLoop c.loop (ofLex a).1 = 0 ∨ awaitedLoop c.loop (ofLex a).1 = c.loop
    unfold awaitedLoop
    split_ifs
    · exact .inl rfl
    · exact .inr rfl
  obtain ⟨i, hi⟩ := r.exists_done_of_helpful hstep hstart hassumed hhelped
  refine ⟨i, fun j hj => ?_⟩
  have hzero : done (r.state j) := by
    induction j, hj using Nat.le_induction with
    | base => exact hi
    | succ j _ ih =>
      obtain ⟨u, hu, hlag⟩ := ih
      obtain ⟨s, t, hs, ht, -, hle, -⟩ := (hway j).toGo_step (hassumed j) (r.next j)
      obtain rfl := Except.ok.inj (hu.symm.trans hs)
      exact ⟨t, ht, by omega⟩
  obtain ⟨t, ht, hlag⟩ := hzero
  obtain ⟨t', c', ht', hlives', -, hc', -⟩ := hway j
  obtain rfl := Except.ok.inj (ht.symm.trans ht')
  exact ⟨t, c', ht, hc', hlives'.gone hc' hlag⟩

/-- The loop polls, nothing is reported and nothing is pending. -/
def idleEvent : Except Failure NetLayer → Event
  | .ok s =>
    match (s.loops 0).phase with
    | .polling => .poll 0 []
    | .handling _ => .doPendingFunctors 0
    | .functors _ => .endFunctors 0
  | .error _ => .start

def Idle (x : Except Failure NetLayer) : Prop :=
  ∃ s, x = .ok s ∧ s.accepts = 1 ∧ (s.loops 0).callback = none ∧ (s.loops 0).pendingFunctors = [] ∧
    (s.loops 0).phase.active = [] ∧ (s.loops 0).phase.batch = []

theorem idle_step {cfg : Config} {x : Except Failure NetLayer} (hx : Idle x) :
    ∃ y, step cfg 0 x (idleEvent x) = some y ∧ Idle y := by
  obtain ⟨s, rfl, haccepts, hcallback, hpending, hactive, hbatch⟩ := hx
  have hguard : (0 : ℕ) ≤ 0 ∧ (s.loops 0).callback = none := ⟨le_rfl, hcallback⟩
  cases hphase : (s.loops 0).phase with
  | polling =>
    refine ⟨.ok (s.setPhase 0 (.handling [])), ?_, _, rfl, haccepts, ?_, ?_, ?_, ?_⟩
    · simp [idleEvent, step, act, Event.loop, loopStep, hphase, hguard, fillActiveChannels]
    all_goals simp [setPhase, hcallback, hpending, Phase.active, Phase.batch]
  | handling active =>
    obtain rfl : active = [] := by rwa [hphase] at hactive
    refine ⟨.ok (s.modifyLoop 0 fun l => { l with pendingFunctors := [], phase := .functors l.pendingFunctors }), ?_,
      _, rfl, haccepts, ?_, ?_, ?_, ?_⟩
    · simp [idleEvent, step, act, Event.loop, loopStep, hphase, hguard]
    all_goals simp [hcallback, hpending, Phase.active, Phase.batch]
  | functors batch =>
    obtain rfl : batch = [] := by rwa [hphase] at hbatch
    refine ⟨.ok (s.setPhase 0 .polling), ?_, _, rfl, haccepts, ?_, ?_, ?_, ?_⟩
    · simp [idleEvent, step, act, Event.loop, loopStep, hphase, hguard]
    all_goals simp [setPhase, hcallback, hpending, Phase.active, Phase.batch]

theorem Idle.event {x : Except Failure NetLayer} (hx : Idle x) :
    Assumed x (idleEvent x) ∧ (idleEvent x).runsOn 0 := by
  obtain ⟨s, rfl, haccepts, -, -, -, -⟩ := hx
  cases hphase : (s.loops 0).phase
  all_goals simp [idleEvent, hphase, Assumed, haccepts, Event.runsOn, Event.loop]

/-- No IO loop: the user closes descriptor 7 in its up callback. -/
def closedOnBase : List Event :=
  [.start, .poll 0 [(3, EPOLLIN)], .handle 0 ⟨some 7, .bytes [], .wrote 0, id⟩, .forceClose 0 7]

def untilIdle : List Event :=
  [.callbackReturns 0, .handle 0 ⟨none, .bytes [], .wrote 0, id⟩, .doPendingFunctors 0, .run 0 (.wrote 0),
    .callbackReturns 0, .endFunctors 0, .poll 0 [], .doPendingFunctors 0, .run 0 (.wrote 0), .endFunctors 0]

theorem closedOnBase_goes :
    ∃ (s : NetLayer) (c : Conn) (r : Trace (step sampleConfig 0) (.ok s)),
      runFrom (step sampleConfig 0) (.ok (start sampleConfig 0)) closedOnBase = some (.ok s) ∧ s.conns 7 = some c ∧
      s.Closing 7 c ∧ c.conn.state ≠ .kDisconnected ∧
      ∃ i, ∀ j, i ≤ j → ∃ t c', r.state j = .ok t ∧ t.conns 7 = some c' ∧ t.Gone 7 c' := by
  have hmeets : Meets (step sampleConfig 0) Assumed (.ok (start sampleConfig 0)) (closedOnBase ++ untilIdle) := by
    decide +kernel
  have hview : ((runFrom (step sampleConfig 0) (.ok (start sampleConfig 0)) closedOnBase).bind fun x =>
      x.toOption.map fun s => (s.conns 7).any fun c =>
        decide (s.Closing 7 c ∧ c.conn.state ≠ .kDisconnected ∧ c.loop = 0)) = some true := by decide +kernel
  have hend : ((runFrom (step sampleConfig 0) (.ok (start sampleConfig 0)) (closedOnBase ++ untilIdle)).bind fun x =>
      x.toOption.map fun s => decide (s.accepts = 1) && (s.loops 0).callback.isNone &&
        (s.loops 0).pendingFunctors.isEmpty && (s.loops 0).phase.active.isEmpty && (s.loops 0).phase.batch.isEmpty) =
      some true := by decide +kernel
  obtain ⟨s, hrun, hs⟩ := exists_ok_of_view _ _ hview
  obtain ⟨c, hc, hfacts⟩ := (Option.any_eq_true _ _).mp hs
  obtain ⟨hclosing, hstate, hloop⟩ := of_decide_eq_true hfacts
  obtain ⟨m, hm, hidle⟩ := exists_ok_of_view _ _ hend
  obtain ⟨x, hes, hx, hmeets, hrest⟩ := run_split hmeets hm
  obtain rfl := Option.some.inj (hrun.symm.trans hx)
  have hm : Idle (.ok m) := by
    simp only [Bool.and_eq_true, decide_eq_true_eq, Option.isNone_iff_eq_none, List.isEmpty_iff] at hidle
    exact ⟨m, rfl, hidle.1.1.1.1, hidle.1.1.1.2, hidle.1.1.2, hidle.1.2, hidle.2⟩
  have hnext : ∀ x, Idle x → ∃ y, step sampleConfig 0 x (idleEvent x) = some y ∧ Idle y := fun _ hx => idle_step hx
  obtain ⟨r, hr⟩ := Trace.exists_of_scheduler idleEvent hnext hm
  have hassumed : ∀ i, Assumed (r.state i) (r.event i) := fun i => (hr i).2 ▸ (hr i).1.event.1
  obtain ⟨r', hassumed', hevents⟩ := r.exists_append hmeets hrest hassumed
  refine ⟨s, c, r', hrun, hc, hclosing, hstate, closing_connection_goes hes hrun hc hclosing r' hassumed' ?_⟩
  intro loop hloop' i
  obtain rfl : loop = 0 := hloop'.elim id fun h => h.trans hloop
  refine ⟨i + untilIdle.length, Nat.le_add_right _ _, ?_⟩
  rw [hevents i, (hr i).2]
  exact (hr i).1.event.2

end NetLayer
end Chater.Net
