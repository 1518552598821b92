import Chater.Net.ConnectionLifecycle

/-!
# What every step keeps

The steps of the net layer are put together from a few updates.  A relation between states that is reflexive and
transitive and holds across each update holds across each step; so a fact about what a step can do is a fact about the
updates.  An update of a loop's phase or of its callback is made by the thread that runs the loop.
-/

namespace Chater.Net

open Base Foundations

set_option autoImplicit false

/-- The connection has grown older: its history has got longer, and no count went back. -/
structure Conn.Later (c c' : Conn) : Prop where
  loop : c'.loop = c.loop
  states : c.states <+: c'.states
  removals : c.removals ≤ c'.removals
  destructions : c.destructions ≤ c'.destructions

namespace Conn

variable {c c' c'' : Conn}

theorem Later.refl (c : Conn) : c.Later c := ⟨rfl, List.prefix_rfl, le_rfl, le_rfl⟩

theorem Later.trans (h : c.Later c') (h' : c'.Later c'') : c.Later c'' :=
  ⟨h'.loop.trans h.loop, h.states.trans h'.states, h.removals.trans h'.removals, h.destructions.trans h'.destructions⟩

theorem later_setConn (conn : TcpConnection) (c : Conn) : c.Later (c.setConn conn) := by
  refine ⟨rfl, ?_, le_rfl, le_rfl⟩
  unfold setConn
  split_ifs
  · exact List.prefix_rfl
  · exact List.prefix_append _ _

theorem later_recordCallback (c : Conn) : c.Later c.recordCallback := ⟨rfl, List.prefix_rfl, le_rfl, le_rfl⟩

theorem later_countRemoval (c : Conn) : c.Later c.countRemoval := ⟨rfl, List.prefix_rfl, Nat.le_succ _, le_rfl⟩

theorem later_countDestruction (c : Conn) : c.Later c.countDestruction :=
  ⟨rfl, List.prefix_rfl, le_rfl, Nat.le_succ _⟩

end Conn

namespace NetLayer

/-! ## Closed relations -/

/-- The relation holds across every update that the thread `thread` makes, with `n` IO loops. -/
structure Closed (n thread : ℕ) (R : NetLayer → NetLayer → Prop) : Prop where
  refl : ∀ s, R s s
  trans : ∀ {s t u}, R s t → R t u → R s u
  server : ∀ {s t : NetLayer}, t.conns = s.conns → t.loops = s.loops → t.next = s.next → t.openFds = s.openFds → R s t
  own : ∀ (s : NetLayer) (f : Loop → Loop), R s (s.modifyLoop thread f)
  queueInLoop : ∀ (s : NetLayer) (loop : ℕ) (f : ServerFunctor), R s (s.queueInLoop loop f)
  setPoller : ∀ (s : NetLayer) (loop : ℕ) (p : Poller ℕ), R s (s.setPoller loop p)
  modifyConn : ∀ (s : NetLayer) (fd : ℕ) {f : Conn → Conn}, (∀ c : Conn, c.Later (f c)) → R s (s.modifyConn fd f)
  addConn : ∀ {s : NetLayer} {fd : ℕ} {c : Conn}, s.conns fd = none → fd ∉ s.openFds →
    c.loop = (getNextLoop n s.next).1 →
    R s (NetLayer.addConn { s with openFds := fd :: s.openFds } (getNextLoop n s.next).2 fd c)

/-- The relation to what a step leads to, if it does not fail. -/
def LeadsTo (R : NetLayer → NetLayer → Prop) (s : NetLayer) : Except Failure NetLayer → Prop
  | .ok t => R s t
  | .error _ => True

namespace Closed

variable {R : NetLayer → NetLayer → Prop} {cfg : Config} {n : ℕ} {s t : NetLayer} {fd loop thread : ℕ} {e : Event}

theorem before (hR : Closed n thread R) {x : Except Failure NetLayer} (h : R s t) (hx : LeadsTo R t x) :
    LeadsTo R s x := by
  cases x with
  | error failure => trivial
  | ok u => exact hR.trans h hx

theorem bind (hR : Closed n thread R) {x : Except Failure NetLayer} {f : NetLayer → Except Failure NetLayer}
    (hx : LeadsTo R s x) (hf : ∀ t, LeadsTo R t (f t)) : LeadsTo R s (x.bind f) := by
  cases x with
  | error failure => trivial
  | ok t => exact hR.before hx (hf t)

theorem leadsTo_assertInLoopThread {r : Except Failure NetLayer} (h : LeadsTo R s r) :
    LeadsTo R s (assertInLoopThread thread loop r) := by
  unfold assertInLoopThread
  split_ifs
  · exact h
  · trivial

theorem followChannel (hR : Closed n thread R) (s : NetLayer) (caller loop fd : ℕ) (channel : Channel) :
    LeadsTo R s (s.followChannel caller loop fd channel) := by
  unfold NetLayer.followChannel
  split_ifs
  · exact hR.refl s
  · refine leadsTo_assertInLoopThread ?_
    split
    · exact hR.setPoller s loop _
    · trivial

theorem removeConnectionInLoop (hR : Closed n thread R) (s : NetLayer) (caller fd : ℕ) :
    LeadsTo R s (s.removeConnectionInLoop caller fd) := by
  refine leadsTo_assertInLoopThread ?_
  split
  · trivial
  · rename_i c hc
    split_ifs
    · trivial
    · have herased : R s { s with connections := Function.update s.connections c.name none } := hR.server rfl rfl rfl rfl
      exact hR.trans (hR.trans herased (hR.modifyConn _ fd Conn.later_countRemoval)) (hR.queueInLoop _ _ _)

theorem removeConnection (hR : Closed n thread R) (s : NetLayer) (caller fd : ℕ) :
    LeadsTo R s (s.removeConnection caller fd) := by
  unfold NetLayer.removeConnection
  split_ifs
  · exact hR.removeConnectionInLoop s caller fd
  · exact hR.queueInLoop s 0 _

theorem runEffects (hR : Closed n thread R) (fd loop : ℕ) (effects : List Effect) (s : NetLayer) :
    LeadsTo R s (runEffects thread fd loop effects s) := by
  induction effects generalizing s with
  | nil => exact hR.refl s
  | cons effect rest ih =>
    cases effect with
    | connectionCallback => exact hR.trans (hR.modifyConn s fd Conn.later_recordCallback) (hR.own _ _)
    | messageCallback => exact hR.own s _
    | closeCallback => exact hR.bind (hR.removeConnection s thread fd) ih
    | queueInLoop f => exact hR.before (hR.queueInLoop s loop _) (ih _)
    | runInLoop | epollCtl | write | shutdownWrite => exact ih s

theorem runHandler (hR : Closed n thread R) (s : NetLayer) (fd : ℕ) (c : Conn) (r : TcpConnection × List Effect) :
    LeadsTo R s (s.runHandler thread fd c r) := by
  refine leadsTo_assertInLoopThread (hR.bind (hR.followChannel s thread c.loop fd r.1.channel) fun t => ?_)
  exact hR.before (hR.modifyConn t fd (Conn.later_setConn r.1)) (hR.runEffects fd c.loop r.2 _)

theorem runAsserting (hR : Closed n thread R) (s : NetLayer) (fd : ℕ) (c : Conn) (assertion : Failure)
    (r : Option (TcpConnection × List Effect)) : LeadsTo R s (s.runAsserting thread fd c assertion r) := by
  cases r with
  | none => exact leadsTo_assertInLoopThread trivial
  | some x => exact hR.runHandler s fd c x

theorem acceptorHandleRead (hR : Closed n thread R) (hfresh : ∀ fd, fd ∉ s.openFds → s.conns fd = none)
    {accepted : Option ℕ}
    {r : Except Failure NetLayer} (h : acceptorHandleRead cfg n s thread accepted = some r) : LeadsTo R s r := by
  cases accepted with
  | none =>
    obtain rfl := Option.some.inj h
    exact leadsTo_assertInLoopThread (hR.refl s)
  | some connfd =>
    simp only [NetLayer.acceptorHandleRead] at h
    split_ifs at h with hopened
    obtain rfl := Option.some.inj h
    refine leadsTo_assertInLoopThread (leadsTo_assertInLoopThread ?_)
    have hadd : R s (NetLayer.addConn { s with openFds := connfd :: s.openFds } (getNextLoop n s.next).2 connfd
        (Conn.new (getNextLoop n s.next).1 s.nextConnId (.new cfg.writeCompleteCallback))) :=
      hR.addConn (hfresh connfd hopened) hopened rfl
    dsimp only
    split_ifs
    · exact hR.before hadd (hR.runAsserting _ connfd _ _ _)
    · exact hR.trans hadd (hR.queueInLoop _ _ _)

theorem startServer (hR : Closed n thread R) (cfg : Config) (s : NetLayer) : LeadsTo R s (startServer cfg s) := by
  unfold NetLayer.startServer
  split_ifs
  · exact hR.refl s
  · refine leadsTo_assertInLoopThread ?_
    split
    · have hstarted : R s { s with started := true } := hR.server rfl rfl rfl rfl
      exact hR.trans hstarted (hR.setPoller _ 0 _)
    · trivial

theorem runFunctor (hR : Closed n thread R) {result : WriteResult} {f : ServerFunctor} {r : Except Failure NetLayer}
    (h : s.runFunctor thread result f = some r) : LeadsTo R s r := by
  cases f with
  | removeConnectionInLoop fd =>
    obtain rfl := Option.some.inj h
    exact hR.removeConnectionInLoop s thread fd
  | conn fd f =>
    simp only [NetLayer.runFunctor] at h
    cases hc : s.conns fd with
    | none =>
      rw [hc] at h
      obtain rfl := Option.some.inj h
      trivial
    | some c =>
      simp only [hc] at h
      cases f with
      | sendInLoop message =>
        obtain ⟨x, -, rfl⟩ := Option.map_eq_some_iff.mp h
        exact hR.runHandler s fd c x
      | shutdownInLoop =>
        obtain rfl := Option.some.inj h
        exact hR.runHandler s fd c _
      | forceCloseInLoop | connectEstablished =>
        obtain rfl := Option.some.inj h
        exact hR.runAsserting s fd c _ _
      | connectDestroyed =>
        obtain rfl := Option.some.inj h
        exact hR.before (hR.modifyConn s fd Conn.later_countDestruction) (hR.runAsserting _ fd c _ _)
      | writeComplete | highWaterMark =>
        obtain rfl := Option.some.inj h
        exact hR.own s _

theorem runCallback (hR : Closed n thread R) (hfresh : ∀ fd, fd ∉ s.openFds → s.conns fd = none) {results : Results}
    {callback : Channel.Callback} {r : Except Failure NetLayer}
    (h : runCallback cfg n s thread fd results callback = some r) : LeadsTo R s r := by
  unfold NetLayer.runCallback at h
  split_ifs at h
  · obtain rfl := Option.some.inj h
    exact hR.refl s
  · exact hR.acceptorHandleRead hfresh h
  · obtain rfl := Option.some.inj h
    exact hR.refl s
  · cases hc : s.conns fd with
    | none =>
      rw [hc] at h
      obtain rfl := Option.some.inj h
      trivial
    | some c =>
      simp only [hc] at h
      cases callback with
      | close | read =>
        obtain rfl := Option.some.inj h
        exact hR.runAsserting s fd c _ _
      | error =>
        obtain rfl := Option.some.inj h
        exact hR.refl s
      | write =>
        obtain ⟨x, -, rfl⟩ := Option.map_eq_some_iff.mp h
        exact hR.runHandler s fd c x

/-! ## Steps -/

theorem loopStep (hR : Closed n thread R) (hfresh : ∀ fd, fd ∉ s.openFds → s.conns fd = none)
    {r : Except Failure NetLayer} (hr : loopStep cfg n s thread e = some r) : LeadsTo R s r := by
  cases loopStep_cases hr with
  | poll | nextChannel | doPendingFunctors | endFunctors => exact hR.own s _
  | handle hphase hrun =>
    refine hR.before (hR.own s _) (hR.runCallback ?_ hrun)
    exact hfresh
  | run hphase hrun => exact hR.before (hR.own s _) (hR.runFunctor hrun)

theorem callbackReturns (hR : Closed n thread R) {r : Except Failure NetLayer} (h : s.callbackReturns thread = some r) :
    LeadsTo R s r := by
  unfold NetLayer.callbackReturns at h
  split at h
  · cases h
  · split at h
    · obtain rfl := Option.some.inj h
      trivial
    · obtain rfl := Option.some.inj h
      exact hR.before (hR.own s _) (hR.runEffects _ _ _ (s.leaveCallback thread))

theorem userCall (hR : ∀ thread, Closed n thread R) {r : Except Failure NetLayer} (h : s.userCall e = some r) :
    LeadsTo R s r := by
  have hrefl := (hR 0).refl s
  have hserver : ∀ {t : NetLayer}, t.conns = s.conns → t.loops = s.loops → t.next = s.next → t.openFds = s.openFds →
      R s t := (hR 0).server
  cases e with
  | send thread fd message result =>
    obtain ⟨c, -, h⟩ := Option.bind_eq_some_iff.mp h
    split_ifs at h
    · obtain rfl := Option.some.inj h
      exact hrefl
    · obtain ⟨x, -, rfl⟩ := Option.map_eq_some_iff.mp h
      exact (hR thread).runHandler s fd c x
    · obtain rfl := Option.some.inj h
      exact hserver rfl rfl rfl rfl
  | shutdown thread fd | forceClose thread fd =>
    obtain ⟨c, -, h⟩ := Option.bind_eq_some_iff.mp h
    split_ifs at h
    · obtain rfl := Option.some.inj h
      exact hrefl
    · obtain rfl := Option.some.inj h
      exact (hR thread).runHandler s fd c _
    · obtain rfl := Option.some.inj h
      exact hserver rfl rfl rfl rfl
  | store i =>
    obtain ⟨call, -, h⟩ := Option.bind_eq_some_iff.mp h
    split_ifs at h
    obtain ⟨c, -, rfl⟩ := Option.map_eq_some_iff.mp h
    have hstored : R s { s with calls := s.calls.set i { call with mustStore := false } } := hserver rfl rfl rfl rfl
    exact (hR 0).trans hstored ((hR 0).modifyConn _ call.id (Conn.later_setConn _))
  | push i =>
    obtain ⟨call, -, h⟩ := Option.bind_eq_some_iff.mp h
    split_ifs at h
    obtain ⟨c, -, rfl⟩ := Option.map_eq_some_iff.mp h
    have hpushed : R s { s with calls := s.calls.eraseIdx i } := hserver rfl rfl rfl rfl
    exact (hR 0).trans hpushed ((hR 0).queueInLoop _ _ _)
  | _ => cases h

/-- A relation that every thread's updates keep is kept by every step. -/
theorem act (hR : ∀ thread, Closed n thread R) (hfresh : ∀ fd, fd ∉ s.openFds → s.conns fd = none)
    (hr : act cfg n s e = some (.ok t)) : R s t := by
  cases e with
  | poll loop _ | handle loop _ | doPendingFunctors loop | run loop _ | endFunctors loop =>
    simp only [NetLayer.act, Event.loop] at hr
    split_ifs at hr
    exact (hR loop).loopStep hfresh hr
  | start =>
    have h := (hR 0).startServer cfg s
    rw [Option.some.inj hr] at h
    exact h
  | callbackReturns loop => exact (hR loop).callbackReturns hr
  | send | shutdown | forceClose | store | push =>
    simp only [NetLayer.act, Event.loop] at hr
    exact userCall hR hr

end Closed
end NetLayer
end Chater.Net
