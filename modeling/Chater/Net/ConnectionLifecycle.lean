import Chater.Net.ConnectionHandlers

/-!
# The lifecycle of a connection

Every step of the net layer moves at most one connection, and moves it from a stage to a later one.  With that, the
up callback runs once and the down callback at most once, `state_` only moves forward, each connection is removed and
destroyed once, and no assertion on the way fails.  `Shutdown` and `ForceClose` are called on the connection's own
thread here; what the kernel reports is assumed to be in order.
-/

namespace Chater.Net.NetLayer

open Base Foundations

set_option autoImplicit false

variable {cfg : Config} {n : ℕ} {s : NetLayer} {fd : ℕ} {c : Conn} {slots : Slots}

/-! ## Accepting -/

theorem connecting_new (loop : ℕ) (name : BitVec 32) (hasWriteCompleteCallback : Bool) :
    ConnStage (.new loop name (.new hasWriteCompleteCallback)) .connecting :=
  ⟨rfl, List.mem_singleton.mpr rfl, rfl, rfl, rfl, rfl, fun hopen => (by cases hopen), fun _ => rfl⟩

theorem ofNat_ne {i accepts : ℕ} (hi : i ≤ accepts) (haccepts : accepts < 2 ^ 31) :
    BitVec.ofNat 32 i ≠ BitVec.ofNat 32 (accepts + 1) := by
  intro heq
  have hnat := congrArg BitVec.toNat heq
  rw [BitVec.toNat_ofNat, BitVec.toNat_ofNat, Nat.mod_eq_of_lt (by omega), Nat.mod_eq_of_lt (by omega)] at hnat
  omega

theorem Lives.openFd (h : Lives none s) (fd : ℕ) : Lives none { s with openFds := fd :: s.openFds } := by
  refine ⟨fun loop => ?_, fun j c hj hc => ?_, fun j c hc => List.mem_cons_of_mem fd (h.opened j c hc), h.calls, h.names,
    h.distinct, h.nextConnId⟩
  · have hl := h.loops loop
    exact ⟨hl.consistent, fun j hj => hl.unused j fun hmem => hj (List.mem_cons_of_mem fd hmem), hl.paused, hl.nodup,
      hl.orderly⟩
  · obtain ⟨st, hst, hplaced⟩ := h.stages j c hj hc
    exact ⟨st, hst, hplaced.of_same (fun loop => SameFor.refl j _) rfl fun _ hcall _ => hcall⟩

/-- The rest of the layer does not know a connection that has just been made. -/
theorem Lives.addConn (h : Lives none s) (hfresh : s.conns fd = none) (haccepts : s.accepts < 2 ^ 31)
    (hopen : fd ∈ s.openFds) (next : ℕ) (hname : c.name = s.nextConnId) : Lives (some fd) (s.addConn next fd c) := by
  have hconns : ∀ j, j ≠ fd → (s.addConn next fd c).conns j = s.conns j := fun j hj => Function.update_of_ne hj ..
  have hself : (s.addConn next fd c).conns fd = some c := Function.update_self ..
  have hother : ∀ j c', s.conns j = some c' → c'.name ≠ c.name := by
    intro j c' hc'
    obtain ⟨i, hi, hcname⟩ := h.names j c' hc'
    rw [hcname, hname, h.nextConnId]
    exact ofNat_ne hi haccepts
  refine ⟨h.loops, fun j c' hj hc' => ?_, fun j c' hc' => ?_, fun call hcall => ?_, fun j c' hc' => ?_,
    fun j j' c₁ c₂ h₁ h₂ heq => ?_, ?_⟩
  · rw [hconns j fun heq => hj (congrArg some heq)] at hc'
    obtain ⟨st, hst, hplaced⟩ := h.stages j c' (by simp) hc'
    refine ⟨st, hst, hplaced.of_same (fun loop => SameFor.refl j _) ?_ fun _ hcall _ => hcall⟩
    exact Function.update_of_ne (hother j c' hc') ..
  · by_cases hj : j = fd
    · rw [hj]
      exact hopen
    · rw [hconns j hj] at hc'
      exact h.opened j c' hc'
  · obtain ⟨hstored, hsend, hconn⟩ := h.calls call hcall
    refine ⟨hstored, hsend, ?_⟩
    rw [hconns call.id fun heq => hconn (heq ▸ hfresh)]
    exact hconn
  · show ∃ i ≤ s.accepts + 1, _
    by_cases hj : j = fd
    · rw [hj, hself] at hc'
      obtain rfl := Option.some.inj hc'
      exact ⟨s.accepts + 1, le_rfl, hname.trans h.nextConnId⟩
    · rw [hconns j hj] at hc'
      obtain ⟨i, hi, hcname⟩ := h.names j c' hc'
      exact ⟨i, Nat.le_succ_of_le hi, hcname⟩
  · by_cases hj : j = fd <;> by_cases hj' : j' = fd
    · rw [hj, hj']
    · rw [hj, hself] at h₁
      rw [hconns j' hj'] at h₂
      obtain rfl := Option.some.inj h₁
      exact absurd heq.symm (hother j' c₂ h₂)
    · rw [hj', hself] at h₂
      rw [hconns j hj] at h₁
      obtain rfl := Option.some.inj h₂
      exact absurd heq (hother j c₁ h₁)
    · rw [hconns j hj] at h₁
      rw [hconns j' hj'] at h₂
      exact h.distinct j j' c₁ c₂ h₁ h₂ heq
  · show s.nextConnId + 1 = BitVec.ofNat 32 (s.accepts + 1 + 1)
    rw [h.nextConnId, BitVec.ofNat_add (s.accepts + 1) 1]
    rfl

/-- Nothing in the loops is about a descriptor that has just been opened. -/
theorem Affine.fresh (h : Affine cfg n s) (hfd : fd ∉ s.openFds) : s.conns fd = none := by
  by_contra hne
  obtain ⟨c, hc⟩ := Option.ne_none_iff_exists'.mp hne
  exact hfd (h.of_loopOf (loopOf_of_conns hc)).1

theorem Affine.ownsChannel_opened (h : Affine cfg n s) {loop : ℕ} (hown : OwnsChannel cfg n s.loopOf loop fd) :
    fd ∈ s.openFds := by
  obtain ⟨hloop, rfl⟩ | ⟨-, rfl⟩ | howner := hown
  · exact h.opened _ (cfg.wakeupFd_mem_fds hloop)
  · exact h.opened _ (cfg.acceptSocket_mem_fds n)
  · exact (h.of_loopOf howner).1

theorem Affine.queued_opened (h : Affine cfg n s) {loop : ℕ} {f : ServerFunctor} (hf : f ∈ (s.loops loop).queued) :
    f.fd ∈ s.openFds := by
  have hcalls := (h.loops loop).queued f hf
  cases f with
  | conn fd f => exact (h.of_loopOf hcalls).1
  | removeConnectionInLoop fd => exact (h.accepted fd hcalls.2).1

theorem Affine.placed_new (h : Affine cfg n s) (hlives : Lives none s) (hfd : fd ∉ s.openFds) (next : ℕ)
    (hchannel : c.conn.channel = .new) :
    Placed ({ s with openFds := fd :: s.openFds }.addConn next fd c) fd c ⟨0, 0, 0, false, true⟩ := by
  have hqueued : ∀ loop (f : ServerFunctor), f.fd = fd → f ∉ (s.loops loop).queued := by
    rintro loop f rfl hmem
    exact hfd (h.queued_opened hmem)
  have hactive : ∀ loop callbacks, (fd, callbacks) ∉ (s.loops loop).phase.active := by
    intro loop callbacks hmem
    exact hfd (h.ownsChannel_opened ((h.loops loop).active _ hmem))
  refine ⟨?_, ?_, ?_, ?_, ?_, ?_, fun _ => ⟨fun loop f hf => ?_, fun call hcall hid => ?_⟩,
    fun loop callbacks hmem => absurd hmem (hactive loop callbacks)⟩
  · exact List.count_eq_zero.mpr (hqueued c.loop _ rfl)
  · exact List.count_eq_zero.mpr (hqueued 0 _ rfl)
  · exact List.count_eq_zero.mpr (hqueued c.loop _ rfl)
  · refine iff_of_false (fun hcallback => ?_) (by decide)
    exact hfd (h.of_loopOf ((h.loops c.loop).callback fd _ hcallback)).1
  · exact Function.update_self ..
  · exact ((hlives.loops c.loop).unused fd hfd).trans hchannel.symm
  · exact absurd hf (hqueued loop _ rfl)
  · exact (hlives.calls call hcall).2.2 (hid ▸ h.fresh hfd)

theorem Lives.newConnection (h : Lives none s) (haffine : Affine cfg n s) (hfd : fd ∉ s.openFds)
    (haccepts : s.accepts < 2 ^ 31) (hnone : (s.loops 0).callback = none) :
    ∃ t, newConnection cfg n { s with openFds := fd :: s.openFds } 0 fd = .ok t ∧ Lives none t := by
  let next := (getNextLoop n s.next).2
  let c := Conn.new (getNextLoop n s.next).1 s.nextConnId (.new cfg.writeCompleteCallback)
  let t := { s with openFds := fd :: s.openFds }.addConn next fd c
  have hst : ConnStage c .connecting := connecting_new _ _ _
  have hfocus : Focus t fd c ⟨0, 0, 0, false, true⟩ :=
    ⟨(h.openFd fd).addConn (haffine.fresh hfd) haccepts List.mem_cons_self next rfl, Function.update_self ..,
      haffine.placed_new h hfd next rfl⟩
  rw [NetLayer.newConnection, assertInLoopThread_self]
  show ∃ u, (if 0 = c.loop then t.runAsserting 0 fd c .connectEstablished c.conn.connectEstablished
    else .ok (t.queueInLoop c.loop (.conn fd .connectEstablished))) = .ok u ∧ Lives none u
  split_ifs with hloop
  · have hcallback : (t.loops c.loop).callback = none := by
      rw [← hloop]
      exact hnone
    rw [hloop]
    exact hfocus.connectEstablished hst hcallback
  · exact ⟨_, rfl, (hfocus.queueInLoop (f := .conn fd .connectEstablished) rfl fun _ => rfl).settle .connecting hst⟩

/-! ## The end of a callback -/

theorem Stage.eq_closing {st : Stage} (h : st.slots.closing = true) : st = .closing := by
  cases st <;> first | rfl | cases h

/-- `closeCallback_`, after the down callback: the base loop removes the connection at once, another loop asks it
to. -/
theorem Focus.closeCallback (h : Focus s fd c ⟨0, 0, 0, false, true⟩) (hst : ConnStage c .closing) :
    ∃ t, runEffects c.loop fd c.loop [.closeCallback] s = .ok t ∧ Lives none t := by
  have hdown : c.conn.state = .kDisconnected := hst.state
  show ∃ t, (s.removeConnection c.loop fd).bind (runEffects c.loop fd c.loop []) = .ok t ∧ Lives none t
  unfold removeConnection
  split_ifs with hloop
  · obtain ⟨t, ht, hlives⟩ := h.removeConnectionInLoop hst (.inl rfl)
    refine ⟨t, ?_, hlives⟩
    rw [hloop, ht]
    rfl
  · have hqueue := h.queueInLoop (f := .removeConnectionInLoop fd) rfl
      fun heq => absurd (hdown.symm.trans heq) (by decide)
    exact ⟨_, rfl, hqueue.settle .removing ⟨hst.state, hst.states, hst.callbacks, hst.removals, hst.destructions,
      hst.index, hst.reading, hst.noEvents⟩⟩

theorem Lives.callbackReturns (h : Lives none s) (haffine : Affine cfg n s) {loop : ℕ} {r : Except Failure NetLayer}
    (hr : s.callbackReturns loop = some r) : ∃ t, r = .ok t ∧ Lives none t := by
  unfold NetLayer.callbackReturns at hr
  split at hr
  case h_1 => cases hr
  case h_2 fd rest hcallback =>
    have hfd := (haffine.loops loop).callback fd rest hcallback
    obtain ⟨c, hc, rfl⟩ := exists_conn_of_loopOf hfd
    simp only [hc] at hr
    obtain rfl := Option.some.inj hr
    obtain ⟨st, hst, hfocus⟩ := h.focus hc
    have hleave := hfocus.leaveCallback hcallback
    have hclosing := hfocus.placed.closing
    rw [hcallback] at hclosing
    obtain rfl | rfl := (h.loops c.loop).paused fd rest hcallback
    · have hopen : st.slots.closing = false := by
        rw [← Bool.not_eq_true, ← hclosing]
        simp
      rw [← hopen] at hleave
      exact ⟨_, rfl, Focus.settle st hleave hst⟩
    · obtain rfl := Stage.eq_closing (hclosing.mp rfl)
      exact hleave.closeCallback hst

/-! ## Polling -/

theorem kernel_eq {p : Poller ℕ} (hp : Poller.Consistent id p) (k : ℕ) :
    p.kernel k = if (p.channel k).index = 1 then some ((p.channel k).events ||| EPOLLET, k) else none :=
  hp.kernel_at k

theorem mem_fillActiveChannels {p : Poller ℕ} (hp : Poller.Consistent id p) {reported : List (ℕ × Events)}
    {x : ℕ × List Channel.Callback} (hx : x ∈ fillActiveChannels p reported) :
    ∃ y ∈ reported, (p.channel y.1).index = 1 ∧ x = (y.1, Channel.handleEvent y.2) := by
  obtain ⟨y, hy, hentry⟩ := List.mem_filterMap.mp hx
  rw [kernel_eq hp] at hentry
  split_ifs at hentry with hindex
  · exact ⟨y, hy, hindex, (Option.some.inj hentry).symm⟩
  · cases hentry

theorem fillActiveChannels_keys {p : Poller ℕ} (hp : Poller.Consistent id p) (reported : List (ℕ × Events)) :
    ((fillActiveChannels p reported).map Prod.fst).Sublist (reported.map Prod.fst) := by
  induction reported with
  | nil => exact List.Sublist.refl _
  | cons x reported ih =>
    unfold fillActiveChannels at ih ⊢
    rw [List.filterMap_cons, kernel_eq hp]
    split_ifs
    · exact ih.cons_cons x.1
    · exact ih.cons x.1

/-- The kernel reports `EPOLLPRI` or `EPOLLRDHUP` beside `EPOLLHUP` only together with `EPOLLIN`. -/
def InOrder (revents : Events) : Prop :=
  revents.any EPOLLHUP = true → revents.any (EPOLLPRI ||| EPOLLRDHUP) = true → revents.any EPOLLIN = true

instance (revents : Events) : Decidable (InOrder revents) := inferInstanceAs (Decidable (_ → _ → _))

/-- Then `HandleEvent` calls one of the close and the read callback at most. -/
theorem closers_handleEvent {revents : Events} (h : InOrder revents) : closers (Channel.handleEvent revents) ≤ 1 := by
  have hread : revents.any (EPOLLIN ||| EPOLLPRI ||| EPOLLRDHUP) =
      (revents.any EPOLLIN || revents.any (EPOLLPRI ||| EPOLLRDHUP)) := by
    rw [BitVec.or_assoc, Channel.any_or_right]
  unfold InOrder at h
  unfold closers Channel.handleEvent
  rw [hread]
  cases hhup : revents.any EPOLLHUP <;> cases hin : revents.any EPOLLIN <;>
    cases hrest : revents.any (EPOLLPRI ||| EPOLLRDHUP) <;>
    simp [hhup, hin, hrest] at h <;>
    cases revents.any EPOLLERR <;> cases revents.any EPOLLOUT <;> decide

theorem Lives.poll (h : Lives none s) (haffine : Affine cfg n s) {loop : ℕ} (hphase : (s.loops loop).phase = .polling)
    {reported : List (ℕ × Events)} (hnodup : (reported.map Prod.fst).Nodup)
    (horder : ∀ x ∈ reported, InOrder x.2) :
    Lives none (s.setPhase loop (.handling (fillActiveChannels (s.loops loop).poller reported))) := by
  have hconsistent := (h.loops loop).consistent
  refine h.setActive (by rw [hphase]; rfl) (hnodup.sublist (fillActiveChannels_keys hconsistent reported))
    (fun x hx => ?_) fun j d callbacks hd hmem => ?_
  · obtain ⟨y, hy, -, rfl⟩ := mem_fillActiveChannels hconsistent hx
    exact closers_handleEvent (horder y hy)
  · -- the kernel reports the descriptors of open connections only
    obtain ⟨y, -, hindex, heq⟩ := mem_fillActiveChannels hconsistent hmem
    obtain ⟨rfl, -⟩ := Prod.mk.inj heq
    have howns := (haffine.loops loop).registered y.1 _ ((kernel_eq hconsistent y.1).trans (if_pos hindex))
    obtain rfl : loop = d.loop := haffine.ownsChannel_loop hd howns
    obtain ⟨st, hst, hplaced⟩ := h.stages y.1 d (by simp) hd
    have hopen : d.conn.state.isOpen = true := by
      rw [hplaced.channel, hst.index] at hindex
      rw [hst.state]
      cases st <;> first | rfl | exact absurd hindex (by decide)
    refine ⟨fun hconnecting => ?_, .inl hopen⟩
    rw [hconnecting] at hopen
    cases hopen

/-! ## Calls of the user -/

theorem Focus.setCalls (h : Focus s fd c slots) (hearly : c.conn.state ≠ .kConnecting) {calls : List PendingCall}
    (hcalls : ∀ call ∈ calls, call ∈ s.calls ∨ call.id = fd ∧ call.mustStore = false ∧ call.functor.isSend = true) :
    Focus { s with calls := calls } fd c slots := by
  have hall := h.others
  have hplaced := h.placed
  refine ⟨⟨hall.loops, fun j d hj hd => ?_, hall.opened, fun call hcall => ?_, hall.names, hall.distinct,
    hall.nextConnId⟩, h.conn, ?_⟩
  · obtain ⟨st, hst, hplaced⟩ := hall.stages j d hj hd
    refine ⟨st, hst, hplaced.of_same (fun loop => SameFor.refl j _) rfl fun call hcall hid => ?_⟩
    refine (hcalls call hcall).resolve_right fun hnew => hj (congrArg some ?_)
    exact hid.symm.trans hnew.1
  · obtain hold | ⟨hid, hstored, hsend⟩ := hcalls call hcall
    · exact hall.calls call hold
    · refine ⟨hstored, hsend, ?_⟩
      rw [hid, h.conn]
      exact Option.some_ne_none c
  · exact ⟨hplaced.established, hplaced.removal, hplaced.destruction, hplaced.closing, hplaced.entry, hplaced.channel,
      fun hconnecting => absurd hconnecting hearly, hplaced.active⟩

theorem Lives.send (h : Lives none s) {thread : ℕ} {message : List UInt8} {result : WriteResult}
    {r : Except Failure NetLayer} (hr : s.userCall (.send thread fd message result) = some r) :
    ∃ t, r = .ok t ∧ Lives none t := by
  obtain ⟨c, hc, hr⟩ := Option.bind_eq_some_iff.mp hr
  split_ifs at hr with hstate hthread
  · obtain rfl := Option.some.inj hr
    exact ⟨s, rfl, h⟩
  · subst hthread
    rw [not_ne_iff] at hstate
    obtain ⟨x, hx, rfl⟩ := Option.map_eq_some_iff.mp hr
    refine h.runQuietly hc (by rw [hstate]; decide) (TcpConnection.sendInLoop_quietly hx) fun hdown => ?_
    exact absurd (hstate.symm.trans hdown) (by decide)
  · rw [not_ne_iff] at hstate
    obtain rfl := Option.some.inj hr
    obtain ⟨st, hst, hfocus⟩ := h.focus hc
    refine ⟨_, rfl, (hfocus.setCalls (by rw [hstate]; decide) fun call hcall => ?_).settle st hst⟩
    obtain hold | hnew := List.mem_append.mp hcall
    · exact .inl hold
    · rw [List.mem_singleton.mp hnew]
      exact .inr ⟨rfl, rfl, rfl⟩

theorem Lives.shutdown (h : Lives none s) {thread : ℕ} (hown : s.loopOf fd = some thread)
    {r : Except Failure NetLayer} (hr : s.userCall (.shutdown thread fd) = some r) :
    ∃ t, r = .ok t ∧ Lives none t := by
  obtain ⟨c, hc, hr⟩ := Option.bind_eq_some_iff.mp hr
  obtain rfl : c.loop = thread := Option.some.inj ((loopOf_of_conns hc).symm.trans hown)
  split_ifs at hr with hstate hthread
  · obtain rfl := Option.some.inj hr
    exact ⟨s, rfl, h⟩
  · rw [not_ne_iff] at hstate
    obtain rfl := Option.some.inj hr
    have hshutdown : c.conn.shutdown.1 = { c.conn with state := .kDisconnecting } := by
      rw [TcpConnection.shutdown, if_pos hstate]
    rw [hshutdown]
    exact h.disconnect hc (State.isOpen_iff.mpr (.inl hstate)) c.conn.shutdownInLoop_plain
  · exact absurd rfl hthread

theorem Lives.forceClose (h : Lives none s) {thread : ℕ} (hown : s.loopOf fd = some thread)
    {r : Except Failure NetLayer} (hr : s.userCall (.forceClose thread fd) = some r) :
    ∃ t, r = .ok t ∧ Lives none t := by
  obtain ⟨c, hc, hr⟩ := Option.bind_eq_some_iff.mp hr
  obtain rfl : c.loop = thread := Option.some.inj ((loopOf_of_conns hc).symm.trans hown)
  split_ifs at hr with hstate hthread
  · obtain rfl := Option.some.inj hr
    exact ⟨s, rfl, h⟩
  · have hopen : c.conn.state = .kConnected ∨ c.conn.state = .kDisconnecting := by
      by_contra hclosed
      exact hstate (not_or.mp hclosed)
    obtain rfl := Option.some.inj hr
    rw [TcpConnection.forceClose, if_pos hopen]
    exact h.disconnect hc (State.isOpen_iff.mpr hopen) (List.forall_mem_singleton.mpr rfl)
  · exact absurd rfl hthread

theorem Lives.push (h : Lives none s) {i : ℕ} {r : Except Failure NetLayer} (hr : s.userCall (.push i) = some r) :
    ∃ t, r = .ok t ∧ Lives none t := by
  obtain ⟨call, hcall, hr⟩ := Option.bind_eq_some_iff.mp hr
  have hmem := List.mem_of_getElem? hcall
  split_ifs at hr
  obtain ⟨c, hc, rfl⟩ := Option.map_eq_some_iff.mp hr
  obtain ⟨st, hst, hfocus⟩ := h.focus hc
  have hearly : c.conn.state ≠ .kConnecting := fun hconnecting => (hfocus.placed.early hconnecting).2 call hmem rfl
  have hcalls : Focus { s with calls := s.calls.eraseIdx i } call.id c st.slots :=
    hfocus.setCalls hearly fun other hother => .inl (List.mem_of_mem_eraseIdx hother)
  have hqueue := hcalls.queueInLoop (f := .conn call.id call.functor) rfl fun heq => absurd heq hearly
  rw [Slots.add_plain _ (Functor.plain_of_isSend (h.calls call hmem).2.1)] at hqueue
  exact ⟨_, rfl, hqueue.settle st hst⟩

/-! ## Starting -/

theorem exists_enableReading {p : Poller ℕ} (hp : Poller.Consistent id p) (k : ℕ) :
    ∃ p' channel, p.apply id k .enableReading = some p' ∧ Poller.Consistent id p' ∧
      p'.channel = Function.update p.channel k channel := by
  obtain ⟨p', hp', hconsistent, hchannel⟩ :=
    hp.updateChannel Function.injective_id k (Poller.Op.enableReading.events (p.channel k).events)
  exact ⟨p', _, hp', hconsistent, hchannel⟩

theorem Lives.startServer (h : Lives none s) (haffine : Affine cfg n s) :
    ∃ t, startServer cfg s = .ok t ∧ Lives none t := by
  unfold NetLayer.startServer
  split_ifs
  · exact ⟨s, rfl, h⟩
  · obtain ⟨p, channel, hp, hconsistent, hchannel⟩ :=
      exists_enableReading (h.loops 0).consistent cfg.acceptSocket
    rw [assertInLoopThread_self, hp]
    have haccept := cfg.acceptSocket_mem_fds n
    have hstarted : Lives none { s with started := true } := by
      refine ⟨h.loops, fun j c hj hc => ?_, h.opened, h.calls, h.names, h.distinct, h.nextConnId⟩
      obtain ⟨st, hst, hplaced⟩ := h.stages j c hj hc
      exact ⟨st, hst, hplaced.of_same (fun loop => SameFor.refl j _) rfl fun _ hcall _ => hcall⟩
    refine ⟨_, rfl, hstarted.modifyLoop (fun hl => ⟨hconsistent, fun j hj => ?_, hl.paused, hl.nodup, hl.orderly⟩)
      fun j _ hj => ⟨fun _ _ => rfl, Iff.rfl, ?_, fun callbacks hmem => ⟨callbacks, hmem, le_rfl⟩⟩⟩
    · have hne : j ≠ cfg.acceptSocket := by
        rintro rfl
        exact hj (haffine.opened _ haccept)
      show p.channel j = .new
      rw [hchannel, Function.update_of_ne hne]
      exact hl.unused j hj
    · have hne : j ≠ cfg.acceptSocket := by
        rintro rfl
        obtain ⟨c, hc⟩ := Option.ne_none_iff_exists'.mp hj
        exact (haffine.of_loopOf (loopOf_of_conns hc)).2 haccept
      show p.channel j = _
      rw [hchannel, Function.update_of_ne hne]

theorem startPoller_lives (cfg : Config) (n loop : ℕ) :
    Poller.Consistent id (startPoller cfg n loop) ∧
      ∀ fd, fd ∉ cfg.fds n → (startPoller cfg n loop).channel fd = .new := by
  have hstart : Poller.Consistent id (Poller.start : Poller ℕ) := Poller.start_consistent
  unfold startPoller
  split_ifs with hloop
  · obtain ⟨p, channel, hp, hconsistent, hchannel⟩ := exists_enableReading hstart (cfg.wakeupFd loop)
    rw [hp]
    refine ⟨hconsistent, fun fd hfd => ?_⟩
    have hne : fd ≠ cfg.wakeupFd loop := by
      rintro rfl
      exact hfd (cfg.wakeupFd_mem_fds hloop)
    show p.channel fd = .new
    rw [hchannel, Function.update_of_ne hne]
    rfl
  · exact ⟨hstart, fun fd _ => rfl⟩

theorem start_lives (cfg : Config) (n : ℕ) : Lives none (start cfg n) where
  loops loop :=
    ⟨(startPoller_lives cfg n loop).1, (startPoller_lives cfg n loop).2, fun _ _ h => (by cases h), List.nodup_nil,
      List.forall_mem_nil _⟩
  stages _ _ _ hc := by cases hc
  opened _ _ hc := by cases hc
  calls := List.forall_mem_nil _
  names _ _ hc := by cases hc
  distinct _ _ _ _ hc := by cases hc
  nextConnId := rfl

/-! ## Steps -/

/-- What the lifecycle rests on: fewer than 2^31 accepts, one report for a descriptor in each wait and each in order,
and calls of `Shutdown` and `ForceClose` on the connection's own thread. -/
def Assumed : Except Failure NetLayer → Event → Prop
  | .error _, _ => True
  | .ok s, e =>
    s.accepts < 2 ^ 31 ∧
      match e with
      | .poll _ reported => (reported.map Prod.fst).Nodup ∧ ∀ x ∈ reported, InOrder x.2
      | .shutdown thread fd | .forceClose thread fd => s.loopOf fd = some thread
      | _ => True

instance : (x : Except Failure NetLayer) → (e : Event) → Decidable (Assumed x e)
  | .error _, _ => .isTrue trivial
  | .ok _, .poll _ _ => inferInstanceAs (Decidable (_ ∧ _ ∧ _))
  | .ok _, .shutdown _ _ | .ok _, .forceClose _ _ => inferInstanceAs (Decidable (_ ∧ _))
  | .ok _, .start | .ok _, .handle _ _ | .ok _, .doPendingFunctors _ | .ok _, .run _ _ | .ok _, .endFunctors _
  | .ok _, .callbackReturns _ | .ok _, .send _ _ _ _ | .ok _, .store _ | .ok _, .push _ =>
    inferInstanceAs (Decidable (_ ∧ True))

theorem Lives.acceptorHandleRead (h : Lives none s) (haffine : Affine cfg n s) (haccepts : s.accepts < 2 ^ 31)
    (hnone : (s.loops 0).callback = none) {accepted : Option ℕ} {r : Except Failure NetLayer}
    (hr : acceptorHandleRead cfg n s 0 accepted = some r) : ∃ t, r = .ok t ∧ Lives none t := by
  cases accepted with
  | none =>
    obtain rfl := Option.some.inj hr
    exact ⟨s, rfl, h⟩
  | some connfd =>
    simp only [NetLayer.acceptorHandleRead] at hr
    split_ifs at hr with hopened
    obtain rfl := Option.some.inj hr
    rw [assertInLoopThread_self]
    exact h.newConnection haffine hopened haccepts hnone

theorem Lives.takeCallback (h : Lives none s) {loop : ℕ} {callback : Channel.Callback}
    {callbacks : List Channel.Callback} {active : List (ℕ × List Channel.Callback)}
    (hphase : (s.loops loop).phase = .handling ((fd, callback :: callbacks) :: active)) :
    Lives none (s.setPhase loop (.handling ((fd, callbacks) :: active))) := by
  refine h.setHandling hphase (fun hnodup => hnodup) fun x hx => ?_
  obtain rfl | hx := List.mem_cons.mp hx
  · refine ⟨_, List.mem_cons_self, rfl, ?_⟩
    rw [closers_cons]
    exact Nat.le_add_right _ _
  · exact ⟨x, List.mem_cons_of_mem _ hx, rfl, le_rfl⟩

/-- While a callback of a connection's channel runs, the others of the same report are the only ones left for it. -/
theorem Lives.active_takeCallback (h : Lives none s) (haffine : Affine cfg n s) (hc : s.conns fd = some c)
    {callback : Channel.Callback} {callbacks : List Channel.Callback} {active : List (ℕ × List Channel.Callback)}
    (hphase : (s.loops c.loop).phase = .handling ((fd, callback :: callbacks) :: active)) {loop : ℕ}
    {callbacks' : List Channel.Callback}
    (hmem : (fd, callbacks') ∈ ((s.setPhase c.loop (.handling ((fd, callbacks) :: active))).loops loop).phase.active) :
    callbacks' = callbacks := by
  have htaken := (haffine.keeps.takeCallback hphase).1
  have hnodup := (h.loops c.loop).nodup
  rw [hphase] at hnodup
  obtain rfl : loop = c.loop := htaken.1.ownsChannel_loop hc ((htaken.1.loops loop).active _ hmem)
  rw [setPhase, loops_modifyLoop_self] at hmem
  obtain heq | hmem := List.mem_cons.mp hmem
  · exact (Prod.mk.inj heq).2
  · exact absurd (List.mem_map.mpr ⟨_, hmem, rfl⟩) (List.nodup_cons.mp hnodup).1

theorem Lives.handle (h : Lives none s) (haffine : Affine cfg n s) (haccepts : s.accepts < 2 ^ 31) {loop : ℕ}
    (hnone : (s.loops loop).callback = none) {callback : Channel.Callback} {callbacks : List Channel.Callback}
    {active : List (ℕ × List Channel.Callback)}
    (hphase : (s.loops loop).phase = .handling ((fd, callback :: callbacks) :: active)) {results : Results}
    {r : Except Failure NetLayer}
    (hr : runCallback cfg n (s.setPhase loop (.handling ((fd, callbacks) :: active))) loop fd results callback = some r) :
    ∃ t, r = .ok t ∧ Lives none t := by
  obtain ⟨htaken, hfd⟩ := haffine.keeps.takeCallback hphase
  have hlives := h.takeCallback hphase
  have hcallback : ((s.setPhase loop (.handling ((fd, callbacks) :: active))).loops loop).callback = none :=
    (congrArg Loop.callback (loops_modifyLoop_self s loop _)).trans hnone
  unfold NetLayer.runCallback at hr
  split_ifs at hr with hwakeup haccept hread
  · obtain rfl := Option.some.inj hr
    exact ⟨_, rfl, hlives⟩
  · obtain rfl := haffine.loop_of_acceptSocket hfd hwakeup haccept
    exact hlives.acceptorHandleRead htaken.1 haccepts hcallback hr
  · obtain rfl := Option.some.inj hr
    exact ⟨_, rfl, hlives⟩
  · obtain ⟨c, hc, rfl⟩ := exists_conn_of_loopOf (hfd.owner_eq hwakeup haccept)
    have hconns : (s.setPhase c.loop (.handling ((fd, callbacks) :: active))).conns fd = some c := hc
    have hmem : (fd, callback :: callbacks) ∈ (s.loops c.loop).phase.active := by
      rw [hphase]
      exact List.mem_cons_self
    obtain ⟨st, hst, hplaced⟩ := h.stages fd c (by simp) hc
    obtain ⟨hearly, hopen⟩ := hplaced.active c.loop _ hmem
    simp only [hconns] at hr
    exact hlives.runConnCallback hconns hcallback hr hearly hopen ((h.loops c.loop).orderly _ hmem)
      fun loop callbacks' hleft => h.active_takeCallback haffine hc hphase hleft

/-- The handlers of a round are over, or the functors are; nothing that is queued is lost. -/
theorem Lives.endRound (h : Lives none s) {loop : ℕ} {f : Loop → Loop}
    (hactive : (f (s.loops loop)).phase.active = []) (hqueued : (f (s.loops loop)).queued = (s.loops loop).queued)
    (hcallback : (f (s.loops loop)).callback = (s.loops loop).callback)
    (hpoller : (f (s.loops loop)).poller = (s.loops loop).poller) : Lives none (s.modifyLoop loop f) := by
  refine h.modifyLoop (fun hl => ⟨?_, ?_, ?_, ?_, ?_⟩) fun j _ _ => ⟨fun g _ => ?_, ?_, ?_, fun callbacks hmem => ?_⟩
  · rw [hpoller]
    exact hl.consistent
  · rw [hpoller]
    exact hl.unused
  · rw [hcallback]
    exact hl.paused
  · rw [hactive]
    exact List.nodup_nil
  · rw [hactive]
    exact List.forall_mem_nil _
  · rw [hqueued]
  · rw [hcallback]
  · rw [hpoller]
  · rw [hactive] at hmem
    exact absurd hmem List.not_mem_nil

theorem Lives.loopStep (h : Lives none s) (haffine : Affine cfg n s) {loop : ℕ} {e : Event}
    (hassumed : Assumed (.ok s) e) (hnone : (s.loops loop).callback = none) {r : Except Failure NetLayer}
    (hr : loopStep cfg n s loop e = some r) : ∃ t, r = .ok t ∧ Lives none t := by
  cases loopStep_cases hr with
  | poll hphase hregistered => exact ⟨_, rfl, h.poll haffine hphase hassumed.2.1 hassumed.2.2⟩
  | handle hphase hr => exact h.handle haffine hassumed.1 hnone hphase hr
  | nextChannel hphase =>
    refine ⟨_, rfl, h.setHandling hphase (fun hnodup => (List.nodup_cons.mp hnodup).2) fun x hx => ?_⟩
    exact ⟨x, List.mem_cons_of_mem _ hx, rfl, le_rfl⟩
  | doPendingFunctors hphase =>
    refine ⟨_, rfl, h.endRound rfl ?_ rfl rfl⟩
    simp [Loop.queued, hphase, Phase.batch]
  | run hphase hr => exact h.runFunctor haffine hphase hnone hr
  | endFunctors hphase =>
    refine ⟨_, rfl, h.endRound rfl ?_ rfl rfl⟩
    simp [Loop.queued, hphase, Phase.batch]

theorem Lives.act (h : Lives none s) (haffine : Affine cfg n s) {e : Event} (hassumed : Assumed (.ok s) e)
    {r : Except Failure NetLayer} (hr : act cfg n s e = some r) : ∃ t, r = .ok t ∧ Lives none t := by
  cases e with
  | poll loop _ | handle loop _ | doPendingFunctors loop | run loop _ | endFunctors loop =>
    simp only [NetLayer.act, Event.loop] at hr
    split_ifs at hr with hguard
    exact h.loopStep haffine hassumed hguard.2 hr
  | start =>
    obtain rfl := Option.some.inj hr
    exact h.startServer haffine
  | callbackReturns loop => exact h.callbackReturns haffine hr
  | send thread fd message result => exact h.send hr
  | shutdown thread fd => exact h.shutdown hassumed.2 hr
  | forceClose thread fd => exact h.forceClose hassumed.2 hr
  | store i =>
    obtain ⟨call, hcall, hr⟩ := Option.bind_eq_some_iff.mp hr
    rw [(h.calls call (List.mem_of_getElem? hcall)).1] at hr
    cases hr
  | push i => exact h.push hr

/-! ## The lifecycle -/

/-- A connection's history and what waits for it: `state_` has only moved forward; the up callback has run once or is
about to, and the down callback at most once after it; from the down callback on, `HandleClose` is in it, or one
`RemoveConnectionInLoop` is queued or has run; then one `ConnectDestroyed` is queued or has run; and the entry of
`connections_` is there until it is removed. -/
structure Lifecycle (s : NetLayer) (fd : ℕ) (c : Conn) : Prop where
  states : c.states <+: [.kConnecting, .kConnected, .kDisconnecting, .kDisconnected] ∨
    c.states <+: [.kConnecting, .kConnected, .kDisconnected]
  state : c.states.getLast? = some c.conn.state
  up : c.callbacks.count true + (s.loops c.loop).queued.count (.conn fd .connectEstablished) = 1
  down : c.callbacks <+: [true, false]
  removed : (if (s.loops c.loop).callback = some (fd, [.closeCallback]) then 1 else 0) +
    (s.loops 0).queued.count (.removeConnectionInLoop fd) + c.removals = c.callbacks.count false
  destroyed : (s.loops c.loop).queued.count (.conn fd .connectDestroyed) + c.destructions = c.removals
  entry : s.connections c.name = if c.removals = 0 then some fd else none
  elsewhere : ∀ loop, ∀ f ∈ (s.loops loop).queued, f.fd = fd → loop = home c f

theorem Stage.histories_forward (st : Stage) :
    ∀ states ∈ st.histories, (states <+: [.kConnecting, .kConnected, .kDisconnecting, .kDisconnected] ∨
      states <+: [.kConnecting, .kConnected, .kDisconnected]) ∧ states.getLast? = some st.state := by
  cases st <;> decide

theorem Lives.lifecycle (h : Lives none s) (haffine : Affine cfg n s) (hc : s.conns fd = some c) :
    Lifecycle s fd c := by
  obtain ⟨st, hst, hplaced⟩ := h.stages fd c (by simp) hc
  obtain ⟨hforward, hlast⟩ := st.histories_forward c.states hst.states
  refine ⟨hforward, ?_, ?_, ?_, ?_, ?_, ?_, fun loop f hf hfd => ?_⟩
  · rw [hst.state]
    exact hlast
  · rw [hst.callbacks, hplaced.established]
    cases st <;> rfl
  · rw [hst.callbacks]
    cases st <;> decide
  · rw [hplaced.removal, hst.removals, hst.callbacks]
    simp only [hplaced.closing]
    cases st <;> rfl
  · rw [hplaced.destruction, hst.destructions, hst.removals]
    cases st <;> rfl
  · rw [hplaced.entry, hst.removals]
    cases st <;> rfl
  · have hcalls := (haffine.loops loop).queued f hf
    cases f with
    | removeConnectionInLoop j => exact hcalls.1
    | conn j f =>
      obtain rfl : j = fd := hfd
      exact Option.some.inj (hcalls.symm.trans (loopOf_of_conns hc))

theorem lives_of_run {cfg : Config} {n : ℕ} {es : List Event} {r : Except Failure NetLayer}
    (hes : Meets (step cfg n) Assumed (.ok (start cfg n)) es)
    (hrun : runFrom (step cfg n) (.ok (start cfg n)) es = some r) :
    ∃ s, r = .ok s ∧ Lives none s ∧ Affine cfg n s := by
  have hkeep : ∀ x e t, (∃ s, x = .ok s ∧ Lives none s ∧ Affine cfg n s) → Assumed x e → step cfg n x e = some t →
      ∃ s, t = .ok s ∧ Lives none s ∧ Affine cfg n s := by
    rintro x e t ⟨s, rfl, hlives, haffine⟩ hassumed ht
    obtain ⟨u, rfl, hu⟩ := hlives.act haffine hassumed ht
    exact ⟨u, rfl, hu, haffine.act ht⟩
  exact invariant_of_meets hkeep hes ⟨_, rfl, start_lives cfg n, (start_keeps cfg n).1⟩ hrun

/-- **Connection lifecycle.**  For any number of IO loops and any interleaving, as long as the assumptions are met, no
assertion fails, and every connection is somewhere on its one way from `ConnectEstablished` to
`ConnectDestroyed`. -/
theorem connection_lifecycle {cfg : Config} {n : ℕ} {es : List Event} {r : Except Failure NetLayer}
    (hes : Meets (step cfg n) Assumed (.ok (start cfg n)) es)
    (hrun : runFrom (step cfg n) (.ok (start cfg n)) es = some r) :
    ∃ s, r = .ok s ∧ ∀ fd c, s.conns fd = some c → Lifecycle s fd c := by
  obtain ⟨s, rfl, hlives, haffine⟩ := lives_of_run hes hrun
  exact ⟨s, rfl, fun fd c hc => hlives.lifecycle haffine hc⟩

/-- One IO loop: descriptor 7 is accepted and established, its peer closes it, and it is removed and destroyed. -/
def openedAndClosed : List Event :=
  let results : Results := ⟨some 7, .bytes [], .wrote 0, id⟩
  [.start, .poll 0 [(3, EPOLLIN)], .handle 0 results, .poll 1 [], .doPendingFunctors 1, .run 1 (.wrote 0),
    .callbackReturns 1, .endFunctors 1, .poll 1 [(7, EPOLLIN)], .handle 1 results, .callbackReturns 1,
    .handle 0 results, .doPendingFunctors 0, .run 0 (.wrote 0),
    .handle 1 results, .doPendingFunctors 1, .run 1 (.wrote 0)]

theorem connection_lifecycle_openedAndClosed :
    ∃ s c, runFrom (step sampleConfig 1) (.ok (start sampleConfig 1)) openedAndClosed = some (.ok s) ∧
      s.conns 7 = some c ∧ c.destructions = 1 ∧ Lifecycle s 7 c := by
  have hend : ((runFrom (step sampleConfig 1) (.ok (start sampleConfig 1)) openedAndClosed).bind fun r =>
      r.toOption.bind fun s => (s.conns 7).map Conn.destructions) = some 1 := by decide +kernel
  have hmeets : Meets (step sampleConfig 1) Assumed (.ok (start sampleConfig 1)) openedAndClosed := by decide +kernel
  obtain ⟨r, hrun, hr⟩ := Option.bind_eq_some_iff.mp hend
  obtain ⟨s, rfl, hlifecycle⟩ := connection_lifecycle hmeets hrun
  obtain ⟨c, hc, hdestroyed⟩ := Option.map_eq_some_iff.mp hr
  exact ⟨s, c, hrun, hc, hdestroyed, hlifecycle 7 c hc⟩

end Chater.Net.NetLayer
