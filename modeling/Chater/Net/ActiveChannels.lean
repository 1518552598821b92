import Chater.Net.ConnectionLifecycle

/-!
# Channels that are removed receive no more events

`EventLoop::Loop` goes through a list of pointers that `Poll` has filled before the handlers ran.  Whatever the handlers
and the threads of the user do, a channel leaves the poller's map only in `ConnectDestroyed`, and that runs only as a
functor, when the list has been gone through.  Nothing is assumed of the callers here: `Shutdown` and `ForceClose` come
from any thread, and the kernel reports what it likes.
-/

namespace Chater.Net

open Base Foundations

set_option autoImplicit false

/-- A channel that the poller knows is not forgotten by an update. -/
theorem Channel.Updates.index_ne {c c' : Channel} (h : c.Updates c') (hindex : c.index ≠ -1) : c'.index ≠ -1 := by
  obtain rfl | ⟨events, rfl⟩ := h
  · exact hindex
  · exact Poller.update_index_ne _

/-- A removed channel is as the constructor made it. -/
theorem Channel.removed_eq_new {c : Channel} (h : c.isNoneEvent = true) :
    { c with addedToLoop := false, index := -1 } = Channel.new := by
  have hevents : c.events = 0 := by simpa [isNoneEvent, kNoneEvent] using h
  show Channel.mk c.events (-1) false = Channel.new
  rw [hevents]
  rfl

/-- `eventHandling_`. -/
def Phase.eventHandling : Phase → Bool
  | .handling _ => true
  | _ => false

namespace NetLayer

/-! ## The invariant -/

/-- The poller of a connection's loop knows the connection's channel, and has it in its map while the connection is
up. -/
structure Followed (s : NetLayer) : Prop where
  consistent : ∀ loop, Poller.Consistent id (s.loops loop).poller
  channel : ∀ fd c, s.conns fd = some c → (s.loops c.loop).poller.channel fd = c.conn.channel
  connected : ∀ fd c, s.conns fd = some c → c.conn.state = .kConnected → c.conn.channel.index ≠ -1

theorem Followed.of_same {s t : NetLayer} (h : Followed s) (hloops : t.loops = s.loops) (hconns : t.conns = s.conns) :
    Followed t := by
  refine ⟨?_, ?_, ?_⟩
  · rw [hloops]
    exact h.consistent
  · rw [hloops, hconns]
    exact h.channel
  · rw [hconns]
    exact h.connected

structure LoopRegistered (openFds : List ℕ) (l : Loop) : Prop where
  unused : ∀ fd, fd ∉ openFds → l.poller.channel fd = .new
  active : ∀ x ∈ l.phase.active, (l.poller.channel x.1).index ≠ -1

structure Registered (s : NetLayer) : Prop where
  followed : Followed s
  loops : ∀ loop, LoopRegistered s.openFds (s.loops loop)
  opened : ∀ fd c, s.conns fd = some c → fd ∈ s.openFds
  entries : ∀ name fd, s.connections name = some fd → ∃ c, s.conns fd = some c ∧ c.name = name

/-- In the step `e`, `loop` runs the `ConnectDestroyed` of the connection on `fd` as a functor. -/
def Removing (s : NetLayer) (e : Event) (loop fd : ℕ) : Prop :=
  e.loop = some loop ∧ ∃ batch, (s.loops loop).phase = .functors (.conn fd .connectDestroyed :: batch)

theorem Removing.not_eventHandling {s : NetLayer} {e : Event} {loop fd : ℕ} (h : Removing s e loop fd) :
    (s.loops loop).phase.eventHandling = false := by
  obtain ⟨-, batch, hphase⟩ := h
  rw [hphase]
  rfl

/-- The pollers of `t` still have the channels that those of `s` have. -/
def Stays (s : NetLayer) (e : Event) (t : NetLayer) : Prop :=
  ∀ loop fd, ((s.loops loop).poller.channel fd).index ≠ -1 →
    ((t.loops loop).poller.channel fd).index ≠ -1 ∨ Removing s e loop fd

/-- The step `e` from `s` fails no assertion of a poller, and calls `Channel::Remove` only in `ConnectDestroyed`. -/
def Outcome (s : NetLayer) (e : Event) : Except Failure NetLayer → Prop
  | .ok t => Registered t ∧ Stays s e t
  | .error failure => failure ≠ .poller ∧ (failure = .channelRemove → ∃ loop fd, Removing s e loop fd)

variable {cfg : Config} {n : ℕ} {s₀ s : NetLayer} {e : Event} {fd : ℕ} {c : Conn}

theorem outcome_error {failure : Failure} (hpoller : failure ≠ .poller) (hremove : failure ≠ .channelRemove) :
    Outcome s₀ e (.error failure) := ⟨hpoller, fun heq => absurd heq hremove⟩

theorem Registered.outcome (h : Registered s) : Outcome s e (.ok s) := ⟨h, fun _ _ hindex => .inl hindex⟩

theorem Outcome.bind {x : Except Failure NetLayer} {f : NetLayer → Except Failure NetLayer} (hx : Outcome s₀ e x)
    (hf : ∀ t, Outcome s₀ e (.ok t) → Outcome s₀ e (f t)) : Outcome s₀ e (x.bind f) := by
  cases x with
  | error failure => exact hx
  | ok t => exact hf t hx

theorem Outcome.assertInLoopThread {thread loop : ℕ} {r : Except Failure NetLayer}
    (h : thread = loop → Outcome s₀ e r) : Outcome s₀ e (assertInLoopThread thread loop r) := by
  unfold NetLayer.assertInLoopThread
  split_ifs with hthread
  · exact h hthread
  · exact outcome_error Failure.noConfusion Failure.noConfusion

/-! ## What leaves the pollers alone -/

theorem Outcome.modifyLoop (h : Outcome s₀ e (.ok s)) {loop : ℕ} {f : Loop → Loop}
    (hpoller : (f (s.loops loop)).poller = (s.loops loop).poller)
    (hactive : ∀ x ∈ (f (s.loops loop)).phase.active, ((s.loops loop).poller.channel x.1).index ≠ -1) :
    Outcome s₀ e (.ok (s.modifyLoop loop f)) := by
  obtain ⟨hreg, hstays⟩ := h
  have hsame : ∀ other, ((s.modifyLoop loop f).loops other).poller = (s.loops other).poller := by
    intro other
    by_cases hloop : other = loop
    · rw [hloop, loops_modifyLoop_self, hpoller]
    · rw [loops_modifyLoop_of_ne s hloop]
  refine ⟨⟨⟨fun other => ?_, fun j d hd => ?_, hreg.followed.connected⟩, fun other => ?_, hreg.opened, hreg.entries⟩,
    fun other j hj => ?_⟩
  · rw [hsame]
    exact hreg.followed.consistent other
  · rw [hsame]
    exact hreg.followed.channel j d hd
  · by_cases hloop : other = loop
    · rw [hloop, loops_modifyLoop_self]
      refine ⟨?_, ?_⟩ <;> rw [hpoller]
      · exact (hreg.loops loop).unused
      · exact hactive
    · rw [loops_modifyLoop_of_ne s hloop]
      exact hreg.loops other
  · rw [hsame]
    exact hstays other j hj

theorem Outcome.queueInLoop (h : Outcome s₀ e (.ok s)) (loop : ℕ) (f : ServerFunctor) :
    Outcome s₀ e (.ok (s.queueInLoop loop f)) :=
  h.modifyLoop rfl (h.1.loops loop).active

theorem Outcome.enterCallback (h : Outcome s₀ e (.ok s)) (thread fd : ℕ) (rest : List Effect) :
    Outcome s₀ e (.ok (s.enterCallback thread fd rest)) :=
  h.modifyLoop rfl (h.1.loops thread).active

theorem Outcome.leaveCallback (h : Outcome s₀ e (.ok s)) (thread : ℕ) : Outcome s₀ e (.ok (s.leaveCallback thread)) :=
  h.modifyLoop rfl (h.1.loops thread).active

theorem conns_of_modifyConn {f : Conn → Conn} {j : ℕ} {d' : Conn} (h : (s.modifyConn fd f).conns j = some d') :
    ∃ d, s.conns j = some d ∧ (d' = d ∨ d' = f d) := by
  by_cases hj : j = fd
  · subst hj
    cases hd : s.conns j with
    | none => simp [NetLayer.modifyConn, hd] at h
    | some d =>
      rw [conns_modifyConn_self hd] at h
      exact ⟨d, rfl, .inr (Option.some.inj h).symm⟩
  · rw [conns_modifyConn_of_ne s hj] at h
    exact ⟨d', h, .inl rfl⟩

theorem Followed.modifyConn (h : Followed s) (fd : ℕ) {f : Conn → Conn} (hloop : ∀ c, (f c).loop = c.loop)
    (hconn : ∀ c, (f c).conn = c.conn) : Followed (s.modifyConn fd f) := by
  refine ⟨h.consistent, fun j d' hd' => ?_, fun j d' hd' hup => ?_⟩
  · obtain ⟨d, hd, rfl | rfl⟩ := conns_of_modifyConn hd'
    · exact h.channel j d' hd
    · rw [hloop, hconn]
      exact h.channel j d hd
  · obtain ⟨d, hd, rfl | rfl⟩ := conns_of_modifyConn hd'
    · exact h.connected j d' hd hup
    · rw [hconn] at hup ⊢
      exact h.connected j d hd hup

theorem Outcome.modifyConn (h : Outcome s₀ e (.ok s)) (fd : ℕ) {f : Conn → Conn} (hloop : ∀ c, (f c).loop = c.loop)
    (hname : ∀ c, (f c).name = c.name) (hconn : ∀ c, (f c).conn = c.conn) :
    Outcome s₀ e (.ok (s.modifyConn fd f)) := by
  obtain ⟨hreg, hstays⟩ := h
  refine ⟨⟨hreg.followed.modifyConn fd hloop hconn, hreg.loops, fun j d' hd' => ?_, fun name j hj => ?_⟩, hstays⟩
  · obtain ⟨d, hd, -⟩ := conns_of_modifyConn hd'
    exact hreg.opened j d hd
  · obtain ⟨d, hd, hdname⟩ := hreg.entries name j hj
    by_cases hjfd : j = fd
    · subst hjfd
      exact ⟨f d, conns_modifyConn_self hd f, (hname d).trans hdname⟩
    · exact ⟨d, (conns_modifyConn_of_ne s hjfd f).trans hd, hdname⟩

theorem Outcome.recordCallback (h : Outcome s₀ e (.ok s)) (fd : ℕ) : Outcome s₀ e (.ok (s.recordCallback fd)) :=
  h.modifyConn fd (fun _ => rfl) (fun _ => rfl) fun _ => rfl

theorem Outcome.countRemoval (h : Outcome s₀ e (.ok s)) (fd : ℕ) : Outcome s₀ e (.ok (s.countRemoval fd)) :=
  h.modifyConn fd (fun _ => rfl) (fun _ => rfl) fun _ => rfl

theorem Outcome.countDestruction (h : Outcome s₀ e (.ok s)) (fd : ℕ) : Outcome s₀ e (.ok (s.countDestruction fd)) :=
  h.modifyConn fd (fun _ => rfl) (fun _ => rfl) fun _ => rfl

theorem Outcome.removeConnectionInLoop (h : Outcome s₀ e (.ok s)) (thread fd : ℕ) :
    Outcome s₀ e (s.removeConnectionInLoop thread fd) := by
  refine Outcome.assertInLoopThread fun _ => ?_
  split
  · exact outcome_error Failure.noConfusion Failure.noConfusion
  · rename_i c hc
    split_ifs
    · exact outcome_error Failure.noConfusion Failure.noConfusion
    · have herased : Outcome s₀ e (.ok { s with connections := Function.update s.connections c.name none }) := by
        refine ⟨⟨h.1.followed.of_same rfl rfl, h.1.loops, h.1.opened, fun name j hj => h.1.entries name j ?_⟩, h.2⟩
        replace hj : Function.update s.connections c.name none name = some j := hj
        by_cases hname : name = c.name
        · rw [hname, Function.update_self] at hj
          cases hj
        · rwa [Function.update_of_ne hname] at hj
      exact (herased.countRemoval fd).queueInLoop c.loop _

theorem Outcome.removeConnection (h : Outcome s₀ e (.ok s)) (thread fd : ℕ) :
    Outcome s₀ e (s.removeConnection thread fd) := by
  unfold NetLayer.removeConnection
  split_ifs
  · exact h.removeConnectionInLoop thread fd
  · exact h.queueInLoop 0 _

theorem Outcome.runEffects (h : Outcome s₀ e (.ok s)) (thread fd loop : ℕ) (effects : List Effect) :
    Outcome s₀ e (runEffects thread fd loop effects s) := by
  induction effects generalizing s with
  | nil => exact h
  | cons effect rest ih =>
    cases effect with
    | connectionCallback => exact (h.recordCallback fd).enterCallback thread fd rest
    | messageCallback => exact h.enterCallback thread fd rest
    | closeCallback => exact (h.removeConnection thread fd).bind fun t ht => ih ht
    | queueInLoop f => exact ih (h.queueInLoop loop _)
    | runInLoop | epollCtl | write | shutdownWrite => exact ih h

/-! ## Handlers -/

section Knows

variable {conn : TcpConnection} {p : Poller ℕ}

theorem loops_setPoller_self (s : NetLayer) (loop : ℕ) (p : Poller ℕ) :
    (s.setPoller loop p).loops loop = { s.loops loop with poller := p } :=
  loops_modifyLoop_self s loop fun l => { l with poller := p }

theorem loops_setPoller_of_ne (s : NetLayer) {loop other : ℕ} (h : other ≠ loop) (p : Poller ℕ) :
    (s.setPoller loop p).loops other = s.loops other :=
  loops_modifyLoop_of_ne s h fun l => { l with poller := p }

theorem conns_setConn_self (hc : s.conns fd = some c) (conn : TcpConnection) :
    (s.setConn fd conn).conns fd = some (c.setConn conn) := conns_modifyConn_self hc _

theorem conns_setConn_of_ne (s : NetLayer) {j : ℕ} (h : j ≠ fd) (conn : TcpConnection) :
    (s.setConn fd conn).conns j = s.conns j := conns_modifyConn_of_ne s h _

theorem PollerKnows.channel_of_ne {loop : ℕ} {channel : Channel} (hp : PollerKnows s loop fd channel p) {j : ℕ}
    (hj : j ≠ fd) : p.channel j = (s.loops loop).poller.channel j := by
  rw [hp.2.2, Function.update_of_ne hj]

/-- The poller of the connection's loop has come to know its channel as the handler leaves it. -/
theorem Followed.knows (h : Followed s) (hc : s.conns fd = some c) (hp : PollerKnows s c.loop fd conn.channel p)
    (hup : conn.state = .kConnected → conn.channel.index ≠ -1) :
    Followed ((s.setPoller c.loop p).setConn fd conn) := by
  let t := s.setPoller c.loop p
  have hself : t.loops c.loop = { s.loops c.loop with poller := p } := loops_setPoller_self ..
  have hother : ∀ loop, loop ≠ c.loop → t.loops loop = s.loops loop := fun loop hloop =>
    loops_setPoller_of_ne s hloop p
  have hfd : (t.setConn fd conn).conns fd = some (c.setConn conn) := conns_setConn_self (s := t) hc conn
  have hconns : ∀ j, j ≠ fd → (t.setConn fd conn).conns j = s.conns j := fun j hj => conns_setConn_of_ne t hj conn
  refine ⟨fun loop => ?_, fun j d hd => ?_, fun j d hd hstate => ?_⟩
  · show Poller.Consistent id (t.loops loop).poller
    by_cases hloop : loop = c.loop
    · rw [hloop, hself]
      exact hp.2.1
    · rw [hother loop hloop]
      exact h.consistent loop
  · show (t.loops d.loop).poller.channel j = d.conn.channel
    by_cases hj : j = fd
    · subst hj
      obtain rfl := Option.some.inj (hfd.symm.trans hd)
      show (t.loops c.loop).poller.channel j = conn.channel
      rw [hself, hp.2.2, Function.update_self]
    · rw [← h.channel j d ((hconns j hj).symm.trans hd)]
      by_cases hloop : d.loop = c.loop
      · rw [hloop, hself]
        exact hp.channel_of_ne hj
      · rw [hother d.loop hloop]
  · by_cases hj : j = fd
    · subst hj
      obtain rfl := Option.some.inj (hfd.symm.trans hd)
      exact hup hstate
    · exact h.connected j d ((hconns j hj).symm.trans hd) hstate

theorem Registered.knows (h : Registered s) (hc : s.conns fd = some c) (hp : PollerKnows s c.loop fd conn.channel p)
    (hup : conn.state = .kConnected → conn.channel.index ≠ -1)
    (hactive : ∀ x ∈ (s.loops c.loop).phase.active, (p.channel x.1).index ≠ -1) :
    Registered ((s.setPoller c.loop p).setConn fd conn) := by
  let t := s.setPoller c.loop p
  have hconns : ∀ j, j ≠ fd → (t.setConn fd conn).conns j = s.conns j := fun j hj => conns_setConn_of_ne t hj conn
  refine ⟨h.followed.knows hc hp hup, fun loop => ?_, fun j d hd => ?_, fun name j hj => ?_⟩
  · show LoopRegistered s.openFds (t.loops loop)
    by_cases hloop : loop = c.loop
    · rw [hloop, loops_setPoller_self]
      refine ⟨fun j hj => ?_, hactive⟩
      have hne : j ≠ fd := by
        rintro rfl
        exact hj (h.opened j c hc)
      exact (hp.channel_of_ne hne).trans ((h.loops c.loop).unused j hj)
    · rw [loops_setPoller_of_ne s hloop]
      exact h.loops loop
  · by_cases hj : j = fd
    · rw [hj]
      exact h.opened fd c hc
    · exact h.opened j d ((hconns j hj).symm.trans hd)
  · obtain ⟨d, hd, hname⟩ := h.entries name j hj
    by_cases hjfd : j = fd
    · subst hjfd
      obtain rfl := Option.some.inj (hc.symm.trans hd)
      exact ⟨c.setConn conn, conns_setConn_self (s := t) hc conn, hname⟩
    · exact ⟨d, (hconns j hjfd).trans hd, hname⟩

end Knows

/-- What `s₀` had registered, the new poller still has, but for one channel. -/
theorem Stays.setPoller (h : Stays s₀ e s) {loop : ℕ} {p : Poller ℕ} {channel : Channel}
    (hchannel : p.channel = Function.update (s.loops loop).poller.channel fd channel)
    (hfd : ((s.loops loop).poller.channel fd).index ≠ -1 → channel.index ≠ -1 ∨ Removing s₀ e loop fd) :
    Stays s₀ e (s.setPoller loop p) := by
  intro other j hj
  rcases h other j hj with hindex | hremoving
  · by_cases hloop : other = loop
    · subst hloop
      rw [loops_setPoller_self]
      show (p.channel j).index ≠ -1 ∨ _
      rw [hchannel]
      by_cases hjfd : j = fd
      · rw [hjfd] at hindex ⊢
        rw [Function.update_self]
        exact hfd hindex
      · rw [Function.update_of_ne hjfd]
        exact .inl hindex
    · rw [loops_setPoller_of_ne s hloop]
      exact .inl hindex
  · exact .inr hremoving

theorem runHandler_of_knows {r : TcpConnection × List Effect} {p : Poller ℕ}
    (hp : PollerKnows s c.loop fd r.1.channel p) :
    s.runHandler c.loop fd c r = runEffects c.loop fd c.loop r.2 ((s.setPoller c.loop p).setConn fd r.1) := by
  unfold NetLayer.runHandler
  rw [assertInLoopThread_self, hp.1]
  rfl

/-- A handler that does no more to its channel than to update it. -/
theorem Outcome.runHandler (h : Outcome s₀ e (.ok s)) (hc : s.conns fd = some c) (thread : ℕ)
    {r : TcpConnection × List Effect} (hupdates : c.conn.channel.Updates r.1.channel)
    (hup : r.1.state = .kConnected → c.conn.state = .kConnected ∨ r.1.channel.index ≠ -1) :
    Outcome s₀ e (s.runHandler thread fd c r) := by
  by_cases hthread : thread = c.loop
  · subst hthread
    have hknown := h.1.followed.channel fd c hc
    obtain ⟨p, hp⟩ := pollerKnows_of_updates (h.1.followed.consistent c.loop) (hknown ▸ hupdates)
    rw [runHandler_of_knows hp]
    refine Outcome.runEffects ⟨h.1.knows hc hp ?_ ?_, ?_⟩ c.loop fd c.loop r.2
    · intro hstate
      rcases hup hstate with hold | hindex
      · exact hupdates.index_ne (h.1.followed.connected fd c hc hold)
      · exact hindex
    · intro x hx
      have hindex := (h.1.loops c.loop).active x hx
      rw [hp.2.2]
      by_cases hxfd : x.1 = fd
      · rw [hxfd, Function.update_self]
        rw [hxfd, hknown] at hindex
        exact hupdates.index_ne hindex
      · rwa [Function.update_of_ne hxfd]
    · refine h.2.setPoller hp.2.2 fun hindex => .inl ?_
      rw [hknown] at hindex
      exact hupdates.index_ne hindex
  · unfold NetLayer.runHandler
    exact Outcome.assertInLoopThread fun heq => absurd heq hthread

theorem Outcome.runQuietly (h : Outcome s₀ e (.ok s)) (hc : s.conns fd = some c) (thread : ℕ)
    {r : TcpConnection × List Effect} (hr : c.conn.Quietly r) : Outcome s₀ e (s.runHandler thread fd c r) := by
  refine h.runHandler hc thread hr.updates fun hstate => .inl ?_
  rwa [hr.state] at hstate

theorem outcome_runAsserting (thread : ℕ) {assertion : Failure} (hassertion : Outcome s₀ e (.error assertion))
    {x : Option (TcpConnection × List Effect)}
    (hx : ∀ r, x = some r → Outcome s₀ e (s.runHandler thread fd c r)) :
    Outcome s₀ e (s.runAsserting thread fd c assertion x) := by
  cases x with
  | some r => exact hx r rfl
  | none => exact Outcome.assertInLoopThread fun _ => hassertion

theorem Outcome.close (h : Outcome s₀ e (.ok s)) (hc : s.conns fd = some c) (thread : ℕ)
    {r : TcpConnection × List Effect} (hr : c.conn.Closes r) : Outcome s₀ e (s.runHandler thread fd c r) := by
  refine h.runHandler hc thread ?_ fun hstate => ?_
  · rw [hr.2.1]
    exact Channel.disableAll_updates _
  · rw [hr.1] at hstate
    cases hstate

theorem handleClose_closes_of_some {conn : TcpConnection} {r : TcpConnection × List Effect}
    (hr : conn.handleClose = some r) : conn.Closes r := by
  unfold TcpConnection.handleClose at hr
  split_ifs at hr
  obtain rfl := Option.some.inj hr
  exact ⟨rfl, rfl, _, rfl⟩

theorem Outcome.handleClose (h : Outcome s₀ e (.ok s)) (hc : s.conns fd = some c) (thread : ℕ) :
    Outcome s₀ e (s.runAsserting thread fd c .handleClose c.conn.handleClose) :=
  outcome_runAsserting thread (outcome_error Failure.noConfusion Failure.noConfusion) fun _ hr =>
    h.close hc thread (handleClose_closes_of_some hr)

theorem Outcome.handleRead (h : Outcome s₀ e (.ok s)) (hc : s.conns fd = some c) (thread : ℕ)
    (result : RingBuffer.ReadvResult) (messageCallback : WfBuffer → WfBuffer) :
    Outcome s₀ e (s.runAsserting thread fd c .handleClose (c.conn.handleRead result messageCallback)) := by
  refine outcome_runAsserting thread (outcome_error Failure.noConfusion Failure.noConfusion) fun r hr => ?_
  unfold TcpConnection.handleRead at hr
  simp only at hr
  split_ifs at hr
  · obtain rfl := Option.some.inj hr
    exact h.runHandler hc thread (.inl rfl) fun hstate => .inl hstate
  · have hcloses := handleClose_closes_of_some hr
    exact h.close hc thread hcloses
  · obtain rfl := Option.some.inj hr
    exact h.runHandler hc thread (.inl rfl) fun hstate => .inl hstate

theorem Outcome.forceCloseInLoop (h : Outcome s₀ e (.ok s)) (hc : s.conns fd = some c) (thread : ℕ) :
    Outcome s₀ e (s.runAsserting thread fd c .handleClose c.conn.forceCloseInLoop) := by
  refine outcome_runAsserting thread (outcome_error Failure.noConfusion Failure.noConfusion) fun r hr => ?_
  unfold TcpConnection.forceCloseInLoop at hr
  split_ifs at hr
  · exact h.close hc thread (handleClose_closes_of_some hr)
  · obtain rfl := Option.some.inj hr
    exact h.runHandler hc thread (.inl rfl) fun hstate => .inl hstate

theorem Outcome.connectEstablished (h : Outcome s₀ e (.ok s)) (hc : s.conns fd = some c) (thread : ℕ) :
    Outcome s₀ e (s.runAsserting thread fd c .connectEstablished c.conn.connectEstablished) := by
  refine outcome_runAsserting thread (outcome_error Failure.noConfusion Failure.noConfusion) fun r hr => ?_
  unfold TcpConnection.connectEstablished at hr
  split_ifs at hr
  obtain rfl := Option.some.inj hr
  exact h.runHandler hc thread (Channel.enableReading_updates _) fun _ => .inr (Poller.update_index_ne _)

/-! ## `ConnectDestroyed` -/

/-- What `ConnectDestroyed` leaves of the channel is what the constructor made. -/
theorem connectDestroyed_spec {conn : TcpConnection} {r : TcpConnection × List Effect}
    (hr : conn.connectDestroyed = some r) :
    r.1.channel = .new ∧ r.1.state ≠ .kConnected ∧ (conn.state = .kConnected ∨ conn.channel.index ≠ -1) := by
  unfold TcpConnection.connectDestroyed at hr
  have hremove : ∀ {c : Channel} {x : Channel × List EpollCtl}, c.remove = some x → x.1 = .new ∧ c.index ≠ -1 := by
    intro c x hx
    unfold Channel.remove at hx
    split_ifs at hx with hguard
    all_goals
      obtain rfl := Option.some.inj hx
      obtain ⟨hnone, hindex⟩ := hguard
      exact ⟨Channel.removed_eq_new hnone, by omega⟩
  by_cases hstate : conn.state = .kConnected
  · simp only [hstate, if_true] at hr
    obtain ⟨x, hx, hr⟩ := Option.bind_eq_some_iff.mp hr
    obtain rfl := Option.some.inj hr
    exact ⟨(hremove hx).1, State.noConfusion, .inl hstate⟩
  · simp only [hstate, if_false] at hr
    obtain ⟨x, hx, hr⟩ := Option.bind_eq_some_iff.mp hr
    obtain rfl := Option.some.inj hr
    exact ⟨(hremove hx).1, hstate, .inr (hremove hx).2⟩

/-- `DisableAll` if there are events, and then `Remove`. -/
theorem pollerKnows_of_destroyed {loop : ℕ} (hp : Poller.Consistent id (s.loops loop).poller)
    (hindex : ((s.loops loop).poller.channel fd).index ≠ -1) : ∃ p, PollerKnows s loop fd .new p := by
  have hadded := (hp.added fd).mpr hindex
  by_cases hnone : ((s.loops loop).poller.channel fd).isNoneEvent = true
  · obtain ⟨p, hknows⟩ := pollerKnows_of_removed hp hnone hindex
    rw [Channel.removed_eq_new hnone] at hknows
    exact ⟨p, hknows⟩
  · obtain ⟨q, hq, hqconsistent, hqchannel⟩ := hp.updateChannel Function.injective_id fd Channel.kNoneEvent
    have hself := congrFun hqchannel fd
    rw [Function.update_self] at hself
    have hqnone : (q.channel fd).isNoneEvent = true := by
      rw [hself, Channel.isNoneEvent_update]
      rfl
    have hqindex : (q.channel fd).index ≠ -1 := by
      rw [hself]
      exact Poller.update_index_ne _
    obtain ⟨p, hp', hconsistent, hchannel⟩ := hqconsistent.removeChannel Function.injective_id hqnone hqindex
    rw [Channel.removed_eq_new hqnone, hqchannel, Function.update_idem] at hchannel
    refine ⟨p, followChannel_of_ne (fun heq => hindex ?_) ?_, hconsistent, hchannel⟩
    · rw [← heq]
      rfl
    · have hupdated : channelUpdated ((s.loops loop).poller.channel fd) .new = true := by
        simp only [channelUpdated, Bool.or_eq_true, bne_iff_ne]
        refine .inl fun heq => hnone ?_
        rw [Channel.isNoneEvent, ← heq]
        rfl
      have hremoved : channelRemoved ((s.loops loop).poller.channel fd) .new = true := by
        rw [channelRemoved, hadded]
        rfl
      simp only [followPoller, hupdated, hremoved, if_true]
      rw [show Channel.new.events = Channel.kNoneEvent from rfl, hq]
      exact hp'

theorem Outcome.connectDestroyed (h : Outcome s₀ e (.ok s)) (hc : s.conns fd = some c) {thread : ℕ}
    (hactive : (s.loops thread).phase.active = []) (hremoving : Removing s₀ e thread fd) :
    Outcome s₀ e ((s.countDestruction fd).runAsserting thread fd c .channelRemove c.conn.connectDestroyed) := by
  have hcount := h.countDestruction fd
  have hconn : (s.countDestruction fd).conns fd = some c.countDestruction := conns_modifyConn_self hc _
  refine outcome_runAsserting thread ⟨Failure.noConfusion, fun _ => ⟨thread, fd, hremoving⟩⟩ fun r hr => ?_
  show Outcome s₀ e ((s.countDestruction fd).runHandler thread fd c.countDestruction r)
  by_cases hthread : thread = c.loop
  · subst hthread
    obtain ⟨hnew, hstate, hindex⟩ := connectDestroyed_spec hr
    have hknown := h.1.followed.channel fd c hc
    have hbefore : ((s.loops c.loop).poller.channel fd).index ≠ -1 := by
      rw [hknown]
      exact hindex.elim (h.1.followed.connected fd c hc) id
    obtain ⟨p, hp⟩ := pollerKnows_of_destroyed (s := s.countDestruction fd) (hcount.1.followed.consistent c.loop) hbefore
    rw [← hnew] at hp
    rw [show c.loop = c.countDestruction.loop from rfl] at hp ⊢
    rw [runHandler_of_knows hp]
    refine Outcome.runEffects ⟨hcount.1.knows hconn hp (fun heq => absurd heq hstate) ?_, ?_⟩ _ _ _ _
    · intro x hx
      replace hx : x ∈ (s.loops c.loop).phase.active := hx
      rw [hactive] at hx
      cases hx
    · exact hcount.2.setPoller hp.2.2 fun _ => .inr hremoving
  · unfold NetLayer.runHandler
    exact Outcome.assertInLoopThread fun heq => absurd heq hthread

/-! ## Functors and callbacks -/

theorem Outcome.runFunctor (h : Outcome s₀ e (.ok s)) {thread : ℕ} {f : ServerFunctor}
    (hactive : (s.loops thread).phase.active = [])
    (hremoving : ∀ fd, f = .conn fd .connectDestroyed → Removing s₀ e thread fd) {result : WriteResult}
    {r : Except Failure NetLayer} (hr : s.runFunctor thread result f = some r) : Outcome s₀ e r := by
  cases f with
  | removeConnectionInLoop fd =>
    obtain rfl := Option.some.inj hr
    exact h.removeConnectionInLoop thread fd
  | conn fd f =>
    unfold NetLayer.runFunctor at hr
    simp only at hr
    split at hr
    · obtain rfl := Option.some.inj hr
      exact outcome_error Failure.noConfusion Failure.noConfusion
    · rename_i c hc
      cases f with
      | sendInLoop message =>
        obtain ⟨x, hx, rfl⟩ := Option.map_eq_some_iff.mp hr
        exact h.runQuietly hc thread (TcpConnection.sendInLoop_quietly hx)
      | shutdownInLoop =>
        obtain rfl := Option.some.inj hr
        exact h.runHandler hc thread (.inl rfl) fun hstate => .inl hstate
      | forceCloseInLoop =>
        obtain rfl := Option.some.inj hr
        exact h.forceCloseInLoop hc thread
      | connectEstablished =>
        obtain rfl := Option.some.inj hr
        exact h.connectEstablished hc thread
      | connectDestroyed =>
        obtain rfl := Option.some.inj hr
        exact h.connectDestroyed hc hactive (hremoving fd rfl)
      | writeComplete | highWaterMark =>
        obtain rfl := Option.some.inj hr
        exact h.enterCallback thread fd []

/-- The poller has never seen the descriptor of a connection that has just been accepted. -/
theorem Outcome.addConn (h : Outcome s₀ e (.ok s)) (hfd : fd ∉ s.openFds) (next : ℕ) (hchannel : c.conn.channel = .new)
    (hstate : c.conn.state = .kConnecting) :
    Outcome s₀ e (.ok ({ s with openFds := fd :: s.openFds }.addConn next fd c)) := by
  let t := { s with openFds := fd :: s.openFds }.addConn next fd c
  have hself : t.conns fd = some c := Function.update_self ..
  have hconns : ∀ j, j ≠ fd → t.conns j = s.conns j := fun j hj => Function.update_of_ne hj ..
  refine ⟨⟨⟨h.1.followed.consistent, fun j d hd => ?_, fun j d hd hup => ?_⟩, fun loop => ?_, fun j d hd => ?_,
    fun name j hj => ?_⟩, h.2⟩
  · by_cases hj : j = fd
    · subst hj
      obtain rfl := Option.some.inj (hself.symm.trans hd)
      exact ((h.1.loops c.loop).unused j hfd).trans hchannel.symm
    · exact h.1.followed.channel j d ((hconns j hj).symm.trans hd)
  · by_cases hj : j = fd
    · subst hj
      obtain rfl := Option.some.inj (hself.symm.trans hd)
      exact absurd (hstate.symm.trans hup) (by decide)
    · exact h.1.followed.connected j d ((hconns j hj).symm.trans hd) hup
  · have hl := h.1.loops loop
    exact ⟨fun j hj => hl.unused j fun hmem => hj (List.mem_cons_of_mem fd hmem), hl.active⟩
  · by_cases hj : j = fd
    · rw [hj]
      exact List.mem_cons_self
    · exact List.mem_cons_of_mem fd (h.1.opened j d ((hconns j hj).symm.trans hd))
  · replace hj : Function.update s.connections c.name (some fd) name = some j := hj
    by_cases hname : name = c.name
    · rw [hname, Function.update_self] at hj
      obtain rfl := Option.some.inj hj
      exact ⟨c, hself, hname.symm⟩
    · rw [Function.update_of_ne hname] at hj
      obtain ⟨d, hd, hdname⟩ := h.1.entries name j hj
      have hne : j ≠ fd := by
        rintro rfl
        exact hfd (h.1.opened j d hd)
      exact ⟨d, (hconns j hne).trans hd, hdname⟩

theorem Outcome.acceptorHandleRead (h : Outcome s₀ e (.ok s)) {thread : ℕ} {accepted : Option ℕ}
    {r : Except Failure NetLayer} (hr : acceptorHandleRead cfg n s thread accepted = some r) : Outcome s₀ e r := by
  cases accepted with
  | none =>
    obtain rfl := Option.some.inj hr
    exact Outcome.assertInLoopThread fun _ => h
  | some connfd =>
    simp only [NetLayer.acceptorHandleRead] at hr
    split_ifs at hr with hfd
    obtain rfl := Option.some.inj hr
    refine Outcome.assertInLoopThread fun _ => Outcome.assertInLoopThread fun _ => ?_
    let c := Conn.new (getNextLoop n s.next).1 s.nextConnId (.new cfg.writeCompleteCallback)
    have hadd := h.addConn (c := c) hfd (getNextLoop n s.next).2 rfl rfl
    have hconn : ({ s with openFds := connfd :: s.openFds }.addConn (getNextLoop n s.next).2 connfd c).conns
        connfd = some c := Function.update_self ..
    show Outcome s₀ e (if thread = c.loop then _ else _)
    split_ifs
    · exact hadd.connectEstablished hconn thread
    · exact hadd.queueInLoop c.loop _

theorem Outcome.runCallback (h : Outcome s₀ e (.ok s)) {thread fd : ℕ} {results : Results}
    {callback : Channel.Callback} {r : Except Failure NetLayer}
    (hr : runCallback cfg n s thread fd results callback = some r) : Outcome s₀ e r := by
  unfold NetLayer.runCallback at hr
  split_ifs at hr
  · obtain rfl := Option.some.inj hr
    exact h
  · exact h.acceptorHandleRead hr
  · obtain rfl := Option.some.inj hr
    exact h
  · split at hr
    · obtain rfl := Option.some.inj hr
      exact outcome_error Failure.noConfusion Failure.noConfusion
    · rename_i c hc
      cases callback with
      | close =>
        obtain rfl := Option.some.inj hr
        exact h.handleClose hc thread
      | error =>
        obtain rfl := Option.some.inj hr
        exact h
      | read =>
        obtain rfl := Option.some.inj hr
        exact h.handleRead hc thread _ _
      | write =>
        obtain ⟨x, hx, rfl⟩ := Option.map_eq_some_iff.mp hr
        exact h.runQuietly hc thread (TcpConnection.handleWrite_quietly hx)

/-! ## Steps -/

theorem Outcome.setPhase (h : Outcome s₀ e (.ok s)) {loop : ℕ} {phase : Phase}
    (hactive : ∀ x ∈ phase.active, ((s.loops loop).poller.channel x.1).index ≠ -1) :
    Outcome s₀ e (.ok (s.setPhase loop phase)) := h.modifyLoop rfl hactive

theorem Registered.loopStep (h : Registered s) {loop : ℕ} (he : e.loop = some loop) {r : Except Failure NetLayer}
    (hr : loopStep cfg n s loop e = some r) : Outcome s e r := by
  have hl := h.loops loop
  cases loopStep_cases hr with
  | poll hphase hregistered =>
    refine h.outcome.setPhase fun x hx => ?_
    obtain ⟨y, -, hindex, rfl⟩ := mem_fillActiveChannels (h.followed.consistent loop) hx
    show ((s.loops loop).poller.channel y.1).index ≠ -1
    rw [hindex]
    decide
  | @handle _ _ fd callback callbacks active _ hphase hr =>
    refine (h.outcome.setPhase fun x hx => ?_).runCallback hr
    have hactive := hl.active
    rw [hphase] at hactive
    obtain rfl | hx := List.mem_cons.mp hx
    · exact hactive (fd, callback :: callbacks) List.mem_cons_self
    · exact hactive x (List.mem_cons_of_mem _ hx)
  | nextChannel hphase =>
    refine h.outcome.setPhase fun x hx => hl.active x ?_
    rw [hphase]
    exact List.mem_cons_of_mem _ hx
  | doPendingFunctors hphase => exact h.outcome.modifyLoop rfl (List.forall_mem_nil _)
  | @run _ _ f batch _ hphase hr =>
    refine (h.outcome.setPhase (List.forall_mem_nil _)).runFunctor ?_ ?_ hr
    · exact congrArg (fun l : Loop => l.phase.active) (loops_modifyLoop_self s loop _)
    · rintro fd rfl
      exact ⟨he, batch, hphase⟩
  | endFunctors hphase => exact h.outcome.setPhase (List.forall_mem_nil _)

theorem Registered.callbackReturns (h : Registered s) {loop : ℕ} {r : Except Failure NetLayer}
    (hr : s.callbackReturns loop = some r) : Outcome s e r := by
  unfold NetLayer.callbackReturns at hr
  split at hr
  · cases hr
  · split at hr
    · obtain rfl := Option.some.inj hr
      exact outcome_error Failure.noConfusion Failure.noConfusion
    · obtain rfl := Option.some.inj hr
      exact (h.outcome.leaveCallback loop).runEffects loop _ _ _

theorem Registered.startServer (h : Registered s) (haffine : Affine cfg n s) : Outcome s e (startServer cfg s) := by
  unfold NetLayer.startServer
  split_ifs
  · exact h.outcome
  · have haccept := cfg.acceptSocket_mem_fds n
    obtain ⟨p, hp, hconsistent, hchannel⟩ := (h.followed.consistent 0).updateChannel Function.injective_id cfg.acceptSocket
      (Poller.Op.enableReading.events ((s.loops 0).poller.channel cfg.acceptSocket).events)
    have happly : (s.loops 0).poller.apply id cfg.acceptSocket .enableReading = some p := hp
    have hold : ∀ j, j ≠ cfg.acceptSocket → p.channel j = (s.loops 0).poller.channel j := fun j hj => by
      rw [hchannel, Function.update_of_ne hj]
    have hindex : (p.channel cfg.acceptSocket).index ≠ -1 := by
      rw [hchannel, Function.update_self]
      exact Poller.update_index_ne _
    rw [assertInLoopThread_self, happly]
    let s' := { s with started := true }
    have hself : (s'.setPoller 0 p).loops 0 = { s.loops 0 with poller := p } := loops_setPoller_self s' 0 p
    have hother : ∀ loop, loop ≠ 0 → (s'.setPoller 0 p).loops loop = s.loops loop := fun loop hloop =>
      loops_setPoller_of_ne s' hloop p
    refine ⟨⟨⟨fun loop => ?_, fun j d hd => ?_, h.followed.connected⟩, fun loop => ?_, h.opened, h.entries⟩, ?_⟩
    · by_cases hloop : loop = 0
      · rw [hloop, hself]
        exact hconsistent
      · rw [hother loop hloop]
        exact h.followed.consistent loop
    · have hne : j ≠ cfg.acceptSocket := by
        rintro rfl
        exact (haffine.of_loopOf (loopOf_of_conns hd)).2 haccept
      rw [← h.followed.channel j d hd]
      by_cases hloop : d.loop = 0
      · rw [hloop, hself]
        exact hold j hne
      · rw [hother d.loop hloop]
    · by_cases hloop : loop = 0
      · rw [hloop, hself]
        refine ⟨fun j hj => ?_, fun x hx => ?_⟩
        · have hne : j ≠ cfg.acceptSocket := by
            rintro rfl
            exact hj (haffine.opened _ haccept)
          exact (hold j hne).trans ((h.loops 0).unused j hj)
        · by_cases hxa : x.1 = cfg.acceptSocket
          · rw [hxa]
            exact hindex
          · show (p.channel x.1).index ≠ -1
            rw [hold x.1 hxa]
            exact (h.loops 0).active x hx
      · rw [hother loop hloop]
        exact h.loops loop
    · exact Stays.setPoller (s := s') h.outcome.2 hchannel fun _ => .inl (Poller.update_index_ne _)

theorem Registered.store (h : Registered s) (hc : s.conns fd = some c) (calls : List PendingCall) :
    Outcome s e (.ok ({ s with calls := calls }.setConn fd { c.conn with state := .kDisconnecting })) := by
  let s' := { s with calls := calls }
  have hs' : Registered s' := ⟨h.followed.of_same rfl rfl, h.loops, h.opened, h.entries⟩
  have hchannel := h.followed.channel fd c hc
  have hknows : PollerKnows s' c.loop fd c.conn.channel (s.loops c.loop).poller := by
    refine ⟨?_, h.followed.consistent c.loop, ?_⟩
    · rw [show (s.loops c.loop).poller = (s'.loops c.loop).poller from rfl, setPoller_self]
      exact if_pos hchannel.symm
    · rw [← hchannel]
      exact (Function.update_eq_self fd _).symm
  have hreg : Registered ((s'.setPoller c.loop (s.loops c.loop).poller).setConn fd
      { c.conn with state := .kDisconnecting }) :=
    hs'.knows hc hknows (fun hstate => by cases hstate) (h.loops c.loop).active
  rw [show (s.loops c.loop).poller = (s'.loops c.loop).poller from rfl, setPoller_self] at hreg
  exact ⟨hreg, fun _ _ hindex => .inl hindex⟩

theorem Registered.userCall (h : Registered s) {r : Except Failure NetLayer}
    (hr : s.userCall e = some r) : Outcome s e r := by
  have hcalls : ∀ calls, Outcome s e (.ok { s with calls := calls }) := fun calls =>
    ⟨⟨h.followed.of_same rfl rfl, h.loops, h.opened, h.entries⟩, fun _ _ hindex => .inl hindex⟩
  cases e with
  | send thread fd message result =>
    obtain ⟨c, hc, hr⟩ := Option.bind_eq_some_iff.mp hr
    split_ifs at hr
    · obtain rfl := Option.some.inj hr
      exact h.outcome
    · obtain ⟨x, hx, rfl⟩ := Option.map_eq_some_iff.mp hr
      exact h.outcome.runQuietly hc thread (TcpConnection.sendInLoop_quietly hx)
    · obtain rfl := Option.some.inj hr
      exact hcalls _
  | shutdown thread fd =>
    obtain ⟨c, hc, hr⟩ := Option.bind_eq_some_iff.mp hr
    split_ifs at hr with hstate
    · obtain rfl := Option.some.inj hr
      exact h.outcome
    · obtain rfl := Option.some.inj hr
      rw [not_ne_iff] at hstate
      refine h.outcome.runHandler hc thread (.inl ?_) fun _ => .inl hstate
      rw [TcpConnection.shutdown, if_pos hstate]
    · obtain rfl := Option.some.inj hr
      exact hcalls _
  | forceClose thread fd =>
    obtain ⟨c, hc, hr⟩ := Option.bind_eq_some_iff.mp hr
    split_ifs at hr with hstate
    · obtain rfl := Option.some.inj hr
      exact h.outcome
    · obtain rfl := Option.some.inj hr
      have hopen : c.conn.state = .kConnected ∨ c.conn.state = .kDisconnecting := by
        by_contra hnot
        exact hstate (not_or.mp hnot)
      refine h.outcome.runHandler hc thread ?_ ?_ <;> rw [TcpConnection.forceClose, if_pos hopen]
      · exact .inl rfl
      · intro hup
        cases hup
    · obtain rfl := Option.some.inj hr
      exact hcalls _
  | store i =>
    obtain ⟨call, -, hr⟩ := Option.bind_eq_some_iff.mp hr
    split_ifs at hr
    obtain ⟨c, hc, rfl⟩ := Option.map_eq_some_iff.mp hr
    exact h.store hc _
  | push i =>
    obtain ⟨call, -, hr⟩ := Option.bind_eq_some_iff.mp hr
    split_ifs at hr
    obtain ⟨c, hc, rfl⟩ := Option.map_eq_some_iff.mp hr
    exact (hcalls _).queueInLoop c.loop _
  | _ => cases hr

theorem Registered.act (h : Registered s) (haffine : Affine cfg n s) {r : Except Failure NetLayer}
    (hr : act cfg n s e = some r) : Outcome s e r := by
  unfold NetLayer.act at hr
  split at hr
  · rename_i loop he
    split_ifs at hr
    exact h.loopStep he hr
  · split at hr
    · obtain rfl := Option.some.inj hr
      exact h.startServer haffine
    · exact h.callbackReturns hr
    · exact h.userCall hr

theorem start_registered (cfg : Config) (n : ℕ) : Registered (start cfg n) where
  followed := ⟨fun loop => (startPoller_lives cfg n loop).1, fun _ _ hc => (by cases hc), fun _ _ hc => (by cases hc)⟩
  loops loop := ⟨(startPoller_lives cfg n loop).2, List.forall_mem_nil _⟩
  opened _ _ hc := by cases hc
  entries _ _ hj := by cases hj

/-- What a run of the net layer has led to. -/
def Intact (cfg : Config) (n : ℕ) : Except Failure NetLayer → Prop
  | .ok s => Registered s ∧ Affine cfg n s
  | .error failure => failure ≠ .poller

theorem intact_step {x t : Except Failure NetLayer} (hx : Intact cfg n x) (ht : step cfg n x e = some t) :
    Intact cfg n t := by
  cases x with
  | error failure => cases ht
  | ok s =>
    have houtcome := hx.1.act hx.2 ht
    cases t with
    | error failure => exact houtcome.1
    | ok u => exact ⟨houtcome.1, hx.2.act ht⟩

theorem intact_of_run {es : List Event} {r : Except Failure NetLayer}
    (hrun : runFrom (step cfg n) (.ok (start cfg n)) es = some r) : Intact cfg n r := by
  have hstart : Intact cfg n (.ok (start cfg n)) := ⟨start_registered cfg n, (start_keeps cfg n).1⟩
  exact invariant_of_run (fun _ _ _ => intact_step) hstart hrun

/-! ## Events and removals -/

theorem channels_eq {p : Poller ℕ} (hp : Poller.Consistent id p) (fd : ℕ) :
    p.channels fd = if (p.channel fd).index = -1 then none else some fd := hp.channels_at fd

/-- **Removed channels receive no events.**  In every run of the net layer, whatever the threads of the user do and
whatever the kernel reports: the channels that a loop has yet to handle are in its poller's map, also when other
connections of the batch have been closed; a channel that leaves the map does so while its loop is not handling events,
as does a call of `Remove` that fails its assertion; and the assertions of the poller hold. -/
theorem removed_channels_receive_no_events {cfg : Config} {n : ℕ} {es : List Event} {r : Except Failure NetLayer}
    (hrun : runFrom (step cfg n) (.ok (start cfg n)) es = some r) :
    r ≠ .error .poller ∧ ∀ s, r = .ok s →
      (∀ loop, ∀ x ∈ (s.loops loop).phase.active, (s.loops loop).poller.channels x.1 = some x.1) ∧
      (∀ e t loop fd, step cfg n (.ok s) e = some (.ok t) → (s.loops loop).poller.channels fd ≠ none →
        (t.loops loop).poller.channels fd = none → (s.loops loop).phase.eventHandling = false) ∧
      ∀ e, step cfg n (.ok s) e = some (.error .channelRemove) →
        ∃ loop, e.loop = some loop ∧ (s.loops loop).phase.eventHandling = false := by
  have hintact := intact_of_run hrun
  refine ⟨?_, ?_⟩
  · rintro rfl
    exact hintact rfl
  · rintro s rfl
    have hregistered := hintact.1
    refine ⟨fun loop x hx => ?_, fun e t loop fd ht hbefore hafter => ?_, fun e ht => ?_⟩
    · rw [channels_eq (hregistered.followed.consistent loop), if_neg ((hregistered.loops loop).active x hx)]
    · have houtcome : Outcome s e (.ok t) := hregistered.act hintact.2 ht
      have hindex : ((s.loops loop).poller.channel fd).index ≠ -1 := by
        intro hindex
        rw [channels_eq (hregistered.followed.consistent loop), if_pos hindex] at hbefore
        exact hbefore rfl
      have hgone : ((t.loops loop).poller.channel fd).index = -1 := by
        by_contra hne
        rw [channels_eq (houtcome.1.followed.consistent loop), if_neg hne] at hafter
        cases hafter
      exact ((houtcome.2 loop fd hindex).resolve_left (not_not.mpr hgone)).not_eventHandling
    · have houtcome : Outcome s e (.error .channelRemove) := hregistered.act hintact.2 ht
      obtain ⟨loop, fd, hremoving⟩ := houtcome.2 rfl
      exact ⟨loop, hremoving.1, hremoving.not_eventHandling⟩

/-- One loop: the clients on 7 and 8 are reported together, and the handler of 7 finds its connection closed. -/
def closedInOneBatch : List Event :=
  let accept (fd : ℕ) : Results := ⟨some fd, .bytes [], .wrote 0, id⟩
  [.start, .poll 0 [(3, EPOLLIN)], .handle 0 (accept 7), .callbackReturns 0, .handle 0 (accept 7),
    .doPendingFunctors 0, .endFunctors 0,
    .poll 0 [(3, EPOLLIN)], .handle 0 (accept 8), .callbackReturns 0, .handle 0 (accept 8),
    .doPendingFunctors 0, .endFunctors 0,
    .poll 0 [(7, EPOLLIN), (8, EPOLLIN)], .handle 0 (accept 9), .callbackReturns 0, .handle 0 (accept 9)]

/-- The connection on 7 waits to be destroyed, and the channel on 8 is handled next. -/
theorem removed_channels_receive_no_events_closedInOneBatch :
    ∃ s, runFrom (step sampleConfig 0) (.ok (start sampleConfig 0)) closedInOneBatch = some (.ok s) ∧
      (s.loops 0).phase.active = [(8, [.read])] ∧ (s.loops 0).pendingFunctors = [.conn 7 .connectDestroyed] ∧
      (s.loops 0).poller.channels 8 = some 8 := by
  obtain ⟨s, hrun, hview⟩ :=
    exists_ok_of_view (runFrom (step sampleConfig 0) (.ok (start sampleConfig 0)) closedInOneBatch)
      (fun s => ((s.loops 0).phase.active, (s.loops 0).pendingFunctors))
      (by decide +kernel : _ = some ([(8, [.read])], [.conn 7 .connectDestroyed]))
  obtain ⟨hactive, hpending⟩ := Prod.mk.inj hview
  refine ⟨s, hrun, hactive, hpending, ?_⟩
  apply ((removed_channels_receive_no_events hrun).2 s rfl).1 0 (8, [.read])
  rw [hactive]
  exact List.mem_singleton.mpr rfl

end NetLayer
end Chater.Net
