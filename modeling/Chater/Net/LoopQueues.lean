import Chater.Net.CallbackSteps

/-!
# What a step does to the queues

`EventLoop::Loop` runs the functors that are pending when its handlers are done, all of them, before it polls again.
Only the loop itself takes functors from its queue; every other step leaves its phase as it is and adds functors at most.
So a functor that is queued by a handler has run before the next poll.
-/

namespace Chater.Net

open Base Foundations

set_option autoImplicit false

namespace NetLayer

variable {cfg : Config} {n : ℕ} {s t u : NetLayer} {fd loop thread : ℕ} {c : Conn} {e : Event}

/-! ## Steps that add functors at most -/

/-- No loop changes its phase, and the queues grow at their ends. -/
def Queues (s t : NetLayer) : Prop :=
  ∀ loop, (t.loops loop).phase = (s.loops loop).phase ∧
    (s.loops loop).pendingFunctors <+: (t.loops loop).pendingFunctors

theorem Queues.refl (s : NetLayer) : Queues s s := fun _ => ⟨rfl, List.prefix_rfl⟩

theorem Queues.trans (h : Queues s t) (h' : Queues t u) : Queues s u := fun loop =>
  ⟨(h' loop).1.trans (h loop).1, (h loop).2.trans (h' loop).2⟩

theorem queues_of_loops (h : t.loops = s.loops) : Queues s t := fun loop => by
  rw [h]
  exact ⟨rfl, List.prefix_rfl⟩

theorem queues_modifyLoop (s : NetLayer) (loop : ℕ) {f : Loop → Loop} (hphase : ∀ l, (f l).phase = l.phase)
    (hpending : ∀ l, l.pendingFunctors <+: (f l).pendingFunctors) : Queues s (s.modifyLoop loop f) := by
  intro other
  by_cases hother : other = loop
  · rw [hother, loops_modifyLoop_self]
    exact ⟨hphase _, hpending _⟩
  · rw [loops_modifyLoop_of_ne s hother]
    exact ⟨rfl, List.prefix_rfl⟩

theorem queues_queueInLoop (s : NetLayer) (loop : ℕ) (f : ServerFunctor) : Queues s (s.queueInLoop loop f) :=
  queues_modifyLoop s loop (fun _ => rfl) fun _ => List.prefix_append _ _

theorem queues_enterCallback (s : NetLayer) (thread fd : ℕ) (rest : List Effect) :
    Queues s (s.enterCallback thread fd rest) :=
  queues_modifyLoop s thread (fun _ => rfl) fun _ => List.prefix_rfl

theorem queues_leaveCallback (s : NetLayer) (thread : ℕ) : Queues s (s.leaveCallback thread) :=
  queues_modifyLoop s thread (fun _ => rfl) fun _ => List.prefix_rfl

theorem queues_setPoller (s : NetLayer) (loop : ℕ) (p : Poller ℕ) : Queues s (s.setPoller loop p) :=
  queues_modifyLoop s loop (fun _ => rfl) fun _ => List.prefix_rfl

/-- The same of a step that may fail. -/
def Adds (s : NetLayer) : Except Failure NetLayer → Prop
  | .ok t => Queues s t
  | .error _ => True

theorem Adds.bind {x : Except Failure NetLayer} {f : NetLayer → Except Failure NetLayer} (hx : Adds s x)
    (hf : ∀ t, Adds t (f t)) : Adds s (x.bind f) := by
  cases x with
  | error failure => trivial
  | ok t =>
    have hnext := hf t
    show Adds s (f t)
    cases hft : f t with
    | error failure => trivial
    | ok u =>
      rw [hft] at hnext
      exact Queues.trans hx hnext

theorem Queues.adds {x : Except Failure NetLayer} (h : Queues s t) (hx : Adds t x) : Adds s x := by
  cases x with
  | error failure => trivial
  | ok u => exact h.trans hx

theorem adds_assertInLoopThread {r : Except Failure NetLayer} (h : Adds s r) :
    Adds s (assertInLoopThread thread loop r) := by
  unfold assertInLoopThread
  split_ifs
  · exact h
  · trivial

theorem adds_followChannel (s : NetLayer) (thread loop fd : ℕ) (channel : Channel) :
    Adds s (s.followChannel thread loop fd channel) := by
  unfold followChannel
  split_ifs
  · exact Queues.refl s
  · refine adds_assertInLoopThread ?_
    split
    · exact queues_setPoller s loop _
    · trivial

theorem adds_removeConnectionInLoop (s : NetLayer) (thread fd : ℕ) : Adds s (s.removeConnectionInLoop thread fd) := by
  refine adds_assertInLoopThread ?_
  split
  · trivial
  · split_ifs
    · trivial
    · refine (queues_of_loops ?_).trans (queues_queueInLoop _ _ _)
      rfl

theorem adds_removeConnection (s : NetLayer) (thread fd : ℕ) : Adds s (s.removeConnection thread fd) := by
  unfold removeConnection
  split_ifs
  · exact adds_removeConnectionInLoop s thread fd
  · exact queues_queueInLoop s 0 _

theorem adds_runEffects (thread fd loop : ℕ) (effects : List Effect) (s : NetLayer) :
    Adds s (runEffects thread fd loop effects s) := by
  induction effects generalizing s with
  | nil => exact Queues.refl s
  | cons effect rest ih =>
    cases effect with
    | connectionCallback =>
      refine (queues_of_loops ?_).trans (queues_enterCallback (s.recordCallback fd) thread fd rest)
      rfl
    | messageCallback => exact queues_enterCallback s thread fd rest
    | closeCallback => exact (adds_removeConnection s thread fd).bind ih
    | queueInLoop f => exact (queues_queueInLoop s loop _).adds (ih _)
    | runInLoop | epollCtl | write | shutdownWrite => exact ih s

theorem adds_runHandler (s : NetLayer) (thread fd : ℕ) (c : Conn) (r : TcpConnection × List Effect) :
    Adds s (s.runHandler thread fd c r) := by
  refine adds_assertInLoopThread ((adds_followChannel s thread c.loop fd r.1.channel).bind fun t => ?_)
  refine (queues_of_loops ?_).adds (adds_runEffects thread fd c.loop r.2 (t.setConn fd r.1))
  rfl

theorem adds_runAsserting (s : NetLayer) (thread fd : ℕ) (c : Conn) (assertion : Failure)
    (r : Option (TcpConnection × List Effect)) : Adds s (s.runAsserting thread fd c assertion r) := by
  cases r with
  | none => exact adds_assertInLoopThread trivial
  | some x => exact adds_runHandler s thread fd c x

theorem adds_newConnection (cfg : Config) (n : ℕ) (s : NetLayer) (thread fd : ℕ) :
    Adds s (newConnection cfg n s thread fd) := by
  refine adds_assertInLoopThread ?_
  dsimp only
  split_ifs
  · refine (queues_of_loops ?_).adds (adds_runAsserting _ thread fd _ _ _)
    rfl
  · refine (queues_of_loops ?_).trans (queues_queueInLoop _ _ _)
    rfl

theorem adds_acceptorHandleRead {accepted : Option ℕ} {r : Except Failure NetLayer}
    (h : acceptorHandleRead cfg n s thread accepted = some r) : Adds s r := by
  cases accepted with
  | none =>
    obtain rfl := Option.some.inj h
    exact adds_assertInLoopThread (Queues.refl s)
  | some connfd =>
    simp only [acceptorHandleRead] at h
    split_ifs at h
    obtain rfl := Option.some.inj h
    refine adds_assertInLoopThread ((queues_of_loops ?_).adds (adds_newConnection cfg n _ thread connfd))
    rfl

theorem adds_startServer (cfg : Config) (s : NetLayer) : Adds s (startServer cfg s) := by
  unfold startServer
  split_ifs
  · exact Queues.refl s
  · refine adds_assertInLoopThread ?_
    split
    · refine (queues_of_loops ?_).trans (queues_setPoller _ 0 _)
      rfl
    · trivial

theorem adds_runFunctor {result : WriteResult} {f : ServerFunctor} {r : Except Failure NetLayer}
    (h : s.runFunctor thread result f = some r) : Adds s r := by
  cases f with
  | removeConnectionInLoop fd =>
    obtain rfl := Option.some.inj h
    exact adds_removeConnectionInLoop s thread fd
  | conn fd f =>
    simp only [runFunctor] at h
    cases hc : s.conns fd with
    | none =>
      rw [hc] at h
      obtain rfl := Option.some.inj h
      trivial
    | some c =>
      simp only [hc] at h
      cases f with
      | sendInLoop message =>
        obtain ⟨x, -, rfl⟩ := Option.map_eq_some_iff.mp h
        exact adds_runHandler s thread fd c x
      | shutdownInLoop =>
        obtain rfl := Option.some.inj h
        exact adds_runHandler s thread fd c _
      | forceCloseInLoop | connectEstablished =>
        obtain rfl := Option.some.inj h
        exact adds_runAsserting s thread fd c _ _
      | connectDestroyed =>
        obtain rfl := Option.some.inj h
        refine (queues_of_loops ?_).adds (adds_runAsserting _ thread fd c _ _)
        rfl
      | writeComplete | highWaterMark =>
        obtain rfl := Option.some.inj h
        exact queues_enterCallback s thread fd []

theorem adds_runCallback {results : Results} {callback : Channel.Callback} {r : Except Failure NetLayer}
    (h : runCallback cfg n s thread fd results callback = some r) : Adds s r := by
  unfold runCallback at h
  split_ifs at h
  · obtain rfl := Option.some.inj h
    exact Queues.refl s
  · exact adds_acceptorHandleRead h
  · obtain rfl := Option.some.inj h
    exact Queues.refl s
  · cases hc : s.conns fd with
    | none =>
      rw [hc] at h
      obtain rfl := Option.some.inj h
      trivial
    | some c =>
      simp only [hc] at h
      cases callback with
      | close | read =>
        obtain rfl := Option.some.inj h
        exact adds_runAsserting s thread fd c _ _
      | error =>
        obtain rfl := Option.some.inj h
        exact Queues.refl s
      | write =>
        obtain ⟨x, -, rfl⟩ := Option.map_eq_some_iff.mp h
        exact adds_runHandler s thread fd c x

theorem adds_callbackReturns {r : Except Failure NetLayer} (h : s.callbackReturns loop = some r) : Adds s r := by
  unfold callbackReturns at h
  split at h
  · cases h
  · split at h
    · obtain rfl := Option.some.inj h
      trivial
    · obtain rfl := Option.some.inj h
      exact (queues_leaveCallback s loop).adds (adds_runEffects loop _ _ _ _)

theorem adds_userCall {r : Except Failure NetLayer} (h : s.userCall e = some r) : Adds s r := by
  cases e with
  | send thread fd message result =>
    obtain ⟨c, -, h⟩ := Option.bind_eq_some_iff.mp h
    split_ifs at h
    · obtain rfl := Option.some.inj h
      exact Queues.refl s
    · obtain ⟨x, -, rfl⟩ := Option.map_eq_some_iff.mp h
      exact adds_runHandler s thread fd c x
    · obtain rfl := Option.some.inj h
      exact queues_of_loops rfl
  | shutdown thread fd | forceClose thread fd =>
    obtain ⟨c, -, h⟩ := Option.bind_eq_some_iff.mp h
    split_ifs at h
    · obtain rfl := Option.some.inj h
      exact Queues.refl s
    · obtain rfl := Option.some.inj h
      exact adds_runHandler s thread fd c _
    · obtain rfl := Option.some.inj h
      exact queues_of_loops rfl
  | store i =>
    obtain ⟨call, -, h⟩ := Option.bind_eq_some_iff.mp h
    split_ifs at h
    obtain ⟨c, -, rfl⟩ := Option.map_eq_some_iff.mp h
    exact queues_of_loops rfl
  | push i =>
    obtain ⟨call, -, h⟩ := Option.bind_eq_some_iff.mp h
    split_ifs at h
    obtain ⟨c, -, rfl⟩ := Option.map_eq_some_iff.mp h
    refine (queues_of_loops ?_).trans (queues_queueInLoop _ _ _)
    rfl
  | _ => cases h

/-! ## Every step -/

/-- What a step does to the phase and the queue of a loop. -/
inductive QueueStep (cfg : Config) (n : ℕ) (s : NetLayer) (loop : ℕ) : Event → NetLayer → Prop
  | other {e : Event} {t : NetLayer} (he : e.loop ≠ some loop) (hphase : (t.loops loop).phase = (s.loops loop).phase)
      (hpending : (s.loops loop).pendingFunctors <+: (t.loops loop).pendingFunctors) : QueueStep cfg n s loop e t
  | poll {reported : List (ℕ × Events)} {t : NetLayer} {active : List (ℕ × List Channel.Callback)}
      (hphase : (s.loops loop).phase = .polling) (hphase' : (t.loops loop).phase = .handling active) :
      QueueStep cfg n s loop (.poll loop reported) t
  | handle {results : Results} {t : NetLayer} {active active' : List (ℕ × List Channel.Callback)}
      (hphase : (s.loops loop).phase = .handling active) (hphase' : (t.loops loop).phase = .handling active')
      (hpending : (s.loops loop).pendingFunctors <+: (t.loops loop).pendingFunctors) :
      QueueStep cfg n s loop (.handle loop results) t
  | doPendingFunctors {t : NetLayer} (hphase : (s.loops loop).phase = .handling [])
      (hphase' : (t.loops loop).phase = .functors (s.loops loop).pendingFunctors) :
      QueueStep cfg n s loop (.doPendingFunctors loop) t
  | run {result : WriteResult} {t : NetLayer} {f : ServerFunctor} {batch : List ServerFunctor}
      (hphase : (s.loops loop).phase = .functors (f :: batch)) (hphase' : (t.loops loop).phase = .functors batch)
      (hrun : runFunctor (s.setPhase loop (.functors batch)) loop result f = some (.ok t)) :
      QueueStep cfg n s loop (.run loop result) t
  | endFunctors {t : NetLayer} (hphase : (s.loops loop).phase = .functors [])
      (hphase' : (t.loops loop).phase = .polling) : QueueStep cfg n s loop (.endFunctors loop) t

theorem phase_setPhase (s : NetLayer) (loop : ℕ) (phase : Phase) :
    ((s.setPhase loop phase).loops loop).phase = phase := by
  rw [setPhase, loops_modifyLoop_self]

theorem pendingFunctors_setPhase (s : NetLayer) (loop : ℕ) (phase : Phase) :
    ((s.setPhase loop phase).loops loop).pendingFunctors = (s.loops loop).pendingFunctors := by
  rw [setPhase, loops_modifyLoop_self]

theorem Adds.other (h : Adds s (.ok t)) (he : e.loop = none) : QueueStep cfg n s loop e t :=
  .other (by simp [he]) (h loop).1 (h loop).2

/-- The steps of a loop leave the other loops to theirs. -/
theorem queueStep_of_ne {other : ℕ} (he : e.loop = some other) (hne : loop ≠ other) {f : Loop → Loop}
    (h : Queues (s.modifyLoop other f) t) : QueueStep cfg n s loop e t := by
  obtain ⟨hphase, hpending⟩ := h loop
  rw [loops_modifyLoop_of_ne s hne] at hphase hpending
  refine .other ?_ hphase hpending
  rw [he]
  exact fun heq => hne (Option.some.inj heq).symm

theorem loopStep_queues {other : ℕ} (he : e.loop = some other) (hr : loopStep cfg n s other e = some (.ok t))
    (loop : ℕ) : QueueStep cfg n s loop e t := by
  generalize hx : Except.ok t = x at hr
  by_cases hloop : loop = other
  · subst hloop
    cases loopStep_cases hr with
    | poll hphase _ =>
      obtain rfl := Except.ok.inj hx
      obtain rfl := (Option.some.inj he).symm
      exact .poll hphase (phase_setPhase ..)
    | handle hphase hrun =>
      subst hx
      obtain rfl := (Option.some.inj he).symm
      obtain ⟨hphase', hpending⟩ := adds_runCallback hrun loop
      exact .handle hphase (hphase'.trans (phase_setPhase ..)) (pendingFunctors_setPhase s loop _ ▸ hpending)
    | nextChannel hphase =>
      obtain rfl := Except.ok.inj hx
      obtain rfl := (Option.some.inj he).symm
      refine .handle hphase (phase_setPhase ..) ?_
      rw [pendingFunctors_setPhase]
    | doPendingFunctors hphase =>
      obtain rfl := Except.ok.inj hx
      obtain rfl := (Option.some.inj he).symm
      refine .doPendingFunctors hphase ?_
      rw [loops_modifyLoop_self]
    | run hphase hrun =>
      subst hx
      obtain rfl := (Option.some.inj he).symm
      exact .run hphase ((adds_runFunctor hrun loop).1.trans (phase_setPhase ..)) hrun
    | endFunctors hphase =>
      obtain rfl := Except.ok.inj hx
      obtain rfl := (Option.some.inj he).symm
      exact .endFunctors hphase (phase_setPhase ..)
  · cases loopStep_cases hr with
    | poll | nextChannel | doPendingFunctors | endFunctors =>
      obtain rfl := Except.ok.inj hx
      exact queueStep_of_ne he hloop (Queues.refl _)
    | handle hphase hrun =>
      subst hx
      exact queueStep_of_ne he hloop (adds_runCallback hrun)
    | run hphase hrun =>
      subst hx
      exact queueStep_of_ne he hloop (adds_runFunctor hrun)

theorem userCall_queues (hr : s.userCall e = some (.ok t)) (he : e.loop = none) : QueueStep cfg n s loop e t :=
  (adds_userCall hr).other he

theorem act_queues (hr : act cfg n s e = some (.ok t)) (loop : ℕ) : QueueStep cfg n s loop e t := by
  cases e with
  | poll other _ | handle other _ | doPendingFunctors other | run other _ | endFunctors other =>
    simp only [act, Event.loop] at hr
    split_ifs at hr
    exact loopStep_queues rfl hr loop
  | start =>
    have h := adds_startServer cfg s
    rw [Option.some.inj hr] at h
    exact h.other rfl
  | callbackReturns other => exact (adds_callbackReturns hr).other rfl
  | send | shutdown | forceClose | store | push => exact userCall_queues hr rfl

/-- The functors that run before the loop polls again. -/
def due (s : NetLayer) (loop : ℕ) : List ServerFunctor :=
  match (s.loops loop).phase with
  | .polling => []
  | .handling _ => (s.loops loop).pendingFunctors
  | .functors batch => batch

/-- What is due stays so until it runs. -/
theorem QueueStep.mem_due (h : QueueStep cfg n s loop e t) {f : ServerFunctor} (hf : f ∈ s.due loop) :
    f ∈ t.due loop ∨ ∃ batch result, (s.loops loop).phase = .functors (f :: batch) ∧
      runFunctor (s.setPhase loop (.functors batch)) loop result f = some (.ok t) := by
  cases h with
  | other _ hphase hpending =>
    left
    unfold due at hf ⊢
    rw [hphase]
    split at hf
    · exact hf
    · exact hpending.subset hf
    · exact hf
  | poll hphase _ =>
    rw [due, hphase] at hf
    cases hf
  | handle hphase hphase' hpending =>
    rw [due, hphase] at hf
    rw [due, hphase']
    exact .inl (hpending.subset hf)
  | doPendingFunctors hphase hphase' =>
    rw [due, hphase] at hf
    rw [due, hphase']
    exact .inl hf
  | @run result t g batch hphase hphase' hrun =>
    rw [due, hphase] at hf
    rw [due, hphase']
    obtain rfl | hbatch := List.mem_cons.mp hf
    · exact .inr ⟨batch, result, hphase, hrun⟩
    · exact .inl hbatch
  | endFunctors hphase _ =>
    rw [due, hphase] at hf
    cases hf

/-! ## The functor that closes a connection -/

/-- `ForceCloseInLoop` on an open connection calls `connectionCallback_` with a connection that is down. -/
theorem callbacksOf_forceCloseInLoop (hc : s.conns fd = some c) (hopen : c.conn.state.isOpen = true)
    {result : WriteResult} (hr : s.runFunctor thread result (.conn fd .forceCloseInLoop) = some (.ok t)) :
    t.callbacksOf fd = s.callbacksOf fd ++ [false] := by
  obtain ⟨r, hclose, hstate, -, ctl, heffects⟩ := TcpConnection.handleClose_closes hopen
  have hrun : s.runHandler thread fd c r = .ok t := by
    simp only [runFunctor, hc, TcpConnection.forceCloseInLoop, if_pos (State.isOpen_iff.mp hopen), hclose,
      runAsserting] at hr
    exact Option.some.inj hr
  unfold runHandler assertInLoopThread at hrun
  split_ifs at hrun
  cases hfollow : s.followChannel thread c.loop fd r.1.channel with
  | error failure =>
    rw [hfollow] at hrun
    cases hrun
  | ok m =>
    rw [hfollow, heffects] at hrun
    obtain rfl := Except.ok.inj hrun
    have hcalm := (calm_followChannel hfollow).trans (calm_setConn m fd r.1)
    obtain ⟨c', hc'⟩ := Option.ne_none_iff_exists'.mp (hcalm.conns fd (hc ▸ Option.some_ne_none c))
    have hdown : c'.conn.state = .kDisconnected := by
      have hm := calm_followChannel hfollow
      obtain ⟨d, hd⟩ := Option.ne_none_iff_exists'.mp (hm.conns fd (hc ▸ Option.some_ne_none c))
      have hself : (m.setConn fd r.1).conns fd = some (d.setConn r.1) := conns_modifyConn_self hd _
      obtain rfl := Option.some.inj (hself.symm.trans hc')
      exact hstate
    have hrecord : ((m.setConn fd r.1).recordCallback fd).conns fd = some c'.recordCallback :=
      conns_modifyConn_self hc' _
    show ((m.setConn fd r.1).recordCallback fd).callbacksOf fd = _
    rw [callbacksOf_of_conns hrecord, ← hcalm.callbacks, callbacksOf_of_conns hc', Conn.recordCallback, hdown]
    rfl

end NetLayer
end Chater.Net
