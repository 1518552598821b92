import Chater.Net.ConnectionStages

/-!
# What the handlers of a connection do to its stage

Every handler of a connection, and every functor about it, runs without a failed assertion and either leaves the
connection at its stage or moves it on to a later one.
-/

namespace Chater.Net

open Base Foundations

set_option autoImplicit false

/-! ## Closing -/

/-- What `HandleClose` leaves of the connection, and what it does to its surroundings. -/
def TcpConnection.Closes (c : TcpConnection) (r : TcpConnection × List Effect) : Prop :=
  r.1.state = .kDisconnected ∧ r.1.channel = c.channel.disableAll.1 ∧
    ∃ ctl, r.2 = [.epollCtl ctl, .connectionCallback, .closeCallback]

theorem State.isOpen_iff {state : State} : state.isOpen = true ↔ state = .kConnected ∨ state = .kDisconnecting := by
  cases state <;> simp [isOpen]

theorem TcpConnection.handleClose_closes {c : TcpConnection} (h : c.state.isOpen = true) :
    ∃ r, c.handleClose = some r ∧ c.Closes r :=
  ⟨_, if_pos (State.isOpen_iff.mp h), rfl, rfl, _, rfl⟩

/-- On an open connection, `HandleRead` passes the data on, does nothing, or closes. -/
theorem TcpConnection.handleRead_cases {c : TcpConnection} (h : c.state.isOpen = true)
    (result : RingBuffer.ReadvResult) (messageCallback : WfBuffer → WfBuffer) :
    ∃ r, c.handleRead result messageCallback = some r ∧
      ((r.1.state = c.state ∧ r.1.channel = c.channel ∧ (r.2 = [.messageCallback] ∨ r.2 = [])) ∨ c.Closes r) := by
  unfold handleRead
  simp only
  split_ifs
  · exact ⟨_, rfl, .inl ⟨rfl, rfl, .inl rfl⟩⟩
  · obtain ⟨r, hr, hcloses⟩ :=
      handleClose_closes (c := { c with inputBuffer := c.inputBuffer.readFd result }) h
    exact ⟨r, hr, .inr hcloses⟩
  · exact ⟨_, rfl, .inl ⟨rfl, rfl, .inr rfl⟩⟩

namespace NetLayer

variable {cfg : Config} {n : ℕ} {s : NetLayer} {fd : ℕ} {c : Conn} {slots : Slots}

/-! ## From stage to stage -/

theorem ConnStage.isOpen {st : Stage} (h : ConnStage c st) : st.state.isOpen = c.conn.state.isOpen := by
  rw [h.state]

theorem ConnStage.keep {st : Stage} (h : ConnStage c st) {conn : TcpConnection} (hstate : conn.state = c.conn.state)
    (hindex : conn.channel.index = st.index) (hreading : st.state.isOpen = true → conn.channel.isReading = true)
    (hnone : st.state.isOpen = false → conn.channel.isNoneEvent = true) : ConnStage (c.setConn conn) st where
  state := hstate.trans h.state
  states := by
    show (if conn.state = c.conn.state then c.states else c.states ++ [conn.state]) ∈ st.histories
    rw [if_pos hstate]
    exact h.states
  callbacks := h.callbacks
  removals := h.removals
  destructions := h.destructions
  index := hindex
  reading := hreading
  noEvents := hnone

theorem ConnStage.keep_channel {st : Stage} (h : ConnStage c st) {conn : TcpConnection}
    (hstate : conn.state = c.conn.state) (hchannel : conn.channel = c.conn.channel) :
    ConnStage (c.setConn conn) st := by
  refine h.keep hstate ?_ ?_ ?_
  · rw [hchannel]
    exact h.index
  · rw [hchannel]
    exact h.reading
  · rw [hchannel]
    exact h.noEvents

theorem Stage.of_isOpen {st : Stage} (h : st.state.isOpen = true) : st = .connected ∨ st = .disconnecting := by
  cases st <;> first | exact .inl rfl | exact .inr rfl | cases h

theorem Stage.index_of_isOpen {st : Stage} (h : st.state.isOpen = true) : st.index = 1 := by
  obtain rfl | rfl := Stage.of_isOpen h <;> rfl

theorem Stage.slots_of_isOpen {st : Stage} (h : st.state.isOpen = true) : st.slots = ⟨0, 0, 0, false, true⟩ := by
  obtain rfl | rfl := Stage.of_isOpen h <;> rfl

/-- What an open connection has been through. -/
theorem ConnStage.counts_of_isOpen {st : Stage} (h : ConnStage c st) (hopen : st.state.isOpen = true) :
    c.callbacks = [true] ∧ c.removals = 0 ∧ c.destructions = 0 := by
  refine ⟨h.callbacks.trans ?_, h.removals.trans ?_, h.destructions.trans ?_⟩ <;>
    obtain rfl | rfl := Stage.of_isOpen hopen <;> rfl

theorem ConnStage.disconnect {st : Stage} (h : ConnStage c st) (hopen : st.state.isOpen = true) :
    ConnStage (c.setConn { c.conn with state := .kDisconnecting }) .disconnecting where
  state := rfl
  states := by
    show (if .kDisconnecting = c.conn.state then c.states else c.states ++ [.kDisconnecting]) ∈ _
    obtain rfl | rfl := Stage.of_isOpen hopen
    · rw [h.state, List.mem_singleton.mp h.states]
      decide
    · rw [h.state, List.mem_singleton.mp h.states]
      decide
  callbacks := (h.counts_of_isOpen hopen).1
  removals := (h.counts_of_isOpen hopen).2.1
  destructions := (h.counts_of_isOpen hopen).2.2
  index := h.index.trans (Stage.index_of_isOpen hopen)
  reading _ := h.reading hopen
  noEvents hclosed := by cases hclosed

theorem ConnStage.close {st : Stage} (h : ConnStage c st) (hopen : st.state.isOpen = true)
    {r : TcpConnection × List Effect} (hr : c.conn.Closes r) :
    ConnStage (c.setConn r.1).recordCallback .closing where
  state := hr.1
  states := by
    show (if r.1.state = c.conn.state then c.states else c.states ++ [r.1.state]) ∈ _
    rw [hr.1]
    obtain rfl | rfl := Stage.of_isOpen hopen
    · rw [h.state, List.mem_singleton.mp h.states]
      decide
    · rw [h.state, List.mem_singleton.mp h.states]
      decide
  callbacks := by
    show c.callbacks ++ [decide (r.1.state = .kConnected)] = [true, false]
    rw [(h.counts_of_isOpen hopen).1, hr.1]
    rfl
  removals := (h.counts_of_isOpen hopen).2.1
  destructions := (h.counts_of_isOpen hopen).2.2
  index := by
    show r.1.channel.index = 2
    rw [hr.2.1]
    exact Channel.index_disableAll (h.index.trans (Stage.index_of_isOpen hopen))
  reading hclosed := by cases hclosed
  noEvents _ := by
    show r.1.channel.isNoneEvent = true
    rw [hr.2.1]
    exact Channel.isNoneEvent_disableAll _

theorem ConnStage.establish (h : ConnStage c .connecting) :
    ConnStage (c.setConn { c.conn with state := .kConnected, channel := c.conn.channel.enableReading.1 }).recordCallback
      .connected where
  state := rfl
  states := by
    show (if .kConnected = c.conn.state then c.states else c.states ++ [.kConnected]) ∈ _
    rw [h.state, List.mem_singleton.mp h.states]
    decide
  callbacks := by
    show c.callbacks ++ [true] = [true]
    rw [h.callbacks]
    rfl
  removals := h.removals
  destructions := h.destructions
  index := Channel.index_enableReading h.index
  reading _ := Channel.isReading_enableReading _
  noEvents hclosed := by cases hclosed

theorem ConnStage.remove {st : Stage} (h : ConnStage c st) (hst : st = .closing ∨ st = .removing) :
    ConnStage c.countRemoval .destroying := by
  have hremovals : c.removals + 1 = 1 := by
    rw [h.removals]
    obtain rfl | rfl := hst <;> rfl
  obtain rfl | rfl := hst <;>
    exact ⟨h.state, h.states, h.callbacks, hremovals, h.destructions, h.index, h.reading, h.noEvents⟩

theorem ConnStage.destroy (h : ConnStage c .destroying) {conn : TcpConnection} (hstate : conn.state = c.conn.state)
    (hindex : conn.channel.index = -1) (hnone : conn.channel.isNoneEvent = true) :
    ConnStage (c.countDestruction.setConn conn) .destroyed where
  state := hstate.trans h.state
  states := by
    show (if conn.state = c.conn.state then c.states else c.states ++ [conn.state]) ∈ _
    rw [if_pos hstate]
    exact h.states
  callbacks := h.callbacks
  removals := h.removals
  destructions := by
    show c.destructions + 1 = 1
    rw [h.destructions]
    rfl
  index := hindex
  reading hopen := by cases hopen
  noEvents _ := hnone

/-! ## Handlers -/

theorem Focus.runEffects_plain (h : Focus s fd c slots) (hstate : c.conn.state ≠ .kConnecting) {effects : List Effect}
    (hplain : ∀ e ∈ effects, e.plain = true) :
    ∃ t, runEffects c.loop fd c.loop effects s = .ok t ∧ Focus t fd c slots := by
  induction effects generalizing s with
  | nil => exact ⟨s, rfl, h⟩
  | cons e rest ih =>
    obtain ⟨he, hrest⟩ := List.forall_mem_cons.mp hplain
    cases e with
    | queueInLoop f =>
      have hqueue := h.queueInLoop (f := .conn fd f) rfl fun heq => absurd heq hstate
      rw [Slots.add_plain slots he] at hqueue
      exact ih hqueue hrest
    | epollCtl | write | shutdownWrite => exact ih h hrest
    | connectionCallback | messageCallback | closeCallback | runInLoop => cases he

theorem Focus.runHandler_plain (st : Stage) (h : Focus s fd c st.slots) {r : TcpConnection × List Effect}
    (hchannel : c.conn.channel.Updates r.1.channel) (hstate : r.1.state ≠ .kConnecting)
    (hopen : c.conn.state.isOpen = true → r.1.state.isOpen = true) (hplain : ∀ e ∈ r.2, e.plain = true)
    (hst : ConnStage (c.setConn r.1) st) :
    ∃ t, s.runHandler c.loop fd c r = .ok t ∧ Lives none t := by
  obtain ⟨p, hp⟩ := pollerKnows_of_updates (h.others.loops c.loop).consistent (h.placed.channel ▸ hchannel)
  obtain ⟨t, hrun, hfocus, -⟩ := h.runHandler hp (fun heq => absurd heq hstate) fun loop callbacks hmem =>
    ⟨hstate, (h.placed.active loop callbacks hmem).2.imp_left hopen⟩
  obtain ⟨u, hu, hfocus⟩ := Focus.runEffects_plain hfocus hstate hplain
  exact ⟨u, hrun.trans hu, hfocus.settle st hst⟩

/-- A handler that neither opens nor closes leaves the connection at its stage. -/
theorem Lives.runQuietly (h : Lives none s) (hc : s.conns fd = some c) (hearly : c.conn.state ≠ .kConnecting)
    {r : TcpConnection × List Effect} (hr : c.conn.Quietly r) (hclosed : c.conn.state = .kDisconnected → r.1 = c.conn) :
    ∃ t, s.runHandler c.loop fd c r = .ok t ∧ Lives none t := by
  obtain ⟨st, hst, hfocus⟩ := h.focus hc
  refine hfocus.runHandler_plain st hr.updates (hr.state ▸ hearly) (fun hopen => hr.state ▸ hopen) hr.effects ?_
  by_cases hopen : st.state.isOpen = true
  · have hreading := hr.reading (hst.reading hopen)
    have hindex := hr.updates.index_of_isReading (hst.index.trans (Stage.index_of_isOpen hopen)) hreading
    refine hst.keep hr.state (hindex.trans (Stage.index_of_isOpen hopen).symm) (fun _ => hreading) fun hclosed => ?_
    exact absurd hopen (Bool.eq_false_iff.mp hclosed)
  · have hdisconnected : c.conn.state = .kDisconnected := by
      rw [hst.isOpen] at hopen
      cases hstate : c.conn.state with
      | kConnecting => exact absurd hstate hearly
      | kDisconnected => rfl
      | kConnected | kDisconnecting =>
        rw [hstate] at hopen
        exact absurd rfl hopen
    rw [hclosed hdisconnected]
    exact hst.keep_channel rfl rfl

theorem Lives.disconnect (h : Lives none s) (hc : s.conns fd = some c) (hopen : c.conn.state.isOpen = true)
    {effects : List Effect} (hplain : ∀ e ∈ effects, e.plain = true) :
    ∃ t, s.runHandler c.loop fd c ({ c.conn with state := .kDisconnecting }, effects) = .ok t ∧ Lives none t := by
  obtain ⟨st, hst, hfocus⟩ := h.focus hc
  have hstage : st.state.isOpen = true := hst.isOpen.trans hopen
  rw [Stage.slots_of_isOpen hstage] at hfocus
  refine Focus.runHandler_plain .disconnecting hfocus (.inl rfl) ?_ (fun _ => rfl) hplain (hst.disconnect hstage)
  show State.kDisconnecting ≠ .kConnecting
  decide

/-- `HandleClose` goes up to the down callback. -/
theorem Lives.close (h : Lives none s) (hc : s.conns fd = some c) (hopen : c.conn.state.isOpen = true)
    (hnone : (s.loops c.loop).callback = none)
    (hactive : ∀ loop callbacks, (fd, callbacks) ∈ (s.loops loop).phase.active → closers callbacks = 0)
    {r : TcpConnection × List Effect} (hr : c.conn.Closes r) :
    ∃ t, s.runHandler c.loop fd c r = .ok t ∧ Lives none t := by
  obtain ⟨st, hst, hfocus⟩ := h.focus hc
  have hstage : st.state.isOpen = true := hst.isOpen.trans hopen
  have hchannel : c.conn.channel.Updates r.1.channel := hr.2.1 ▸ Channel.disableAll_updates _
  have hstate : r.1.state ≠ .kConnecting := by
    rw [hr.1]
    decide
  obtain ⟨p, hp⟩ := pollerKnows_of_updates (h.loops c.loop).consistent (hfocus.placed.channel ▸ hchannel)
  obtain ⟨t, hrun, hfocus, hcallback⟩ := hfocus.runHandler hp (fun heq => absurd heq hstate)
    fun loop callbacks hmem => ⟨hstate, .inr (hactive loop callbacks hmem)⟩
  obtain ⟨ctl, heffects⟩ := hr.2.2
  have hdown := hfocus.recordCallback.enterCallback ((hcallback c.loop).trans hnone) [.closeCallback] true rfl
  rw [Stage.slots_of_isOpen hstage] at hdown
  refine ⟨(t.recordCallback fd).enterCallback c.loop fd [.closeCallback], ?_, hdown.settle .closing (hst.close hstage hr)⟩
  rw [hrun, heffects]
  rfl

/-- A user callback with nothing left to do after it. -/
theorem Lives.enterCallback (h : Lives none s) (hc : s.conns fd = some c) (hnone : (s.loops c.loop).callback = none) :
    Lives none (s.enterCallback c.loop fd []) := by
  obtain ⟨st, hst, hfocus⟩ := h.focus hc
  have hclosing : st.slots.closing = false := by
    rw [← Bool.not_eq_true, ← hfocus.placed.closing, hnone]
    simp
  have hcallback := hfocus.enterCallback hnone [] false rfl
  rw [← hclosing] at hcallback
  exact Focus.settle st hcallback hst

/-- `ConnectEstablished` goes up to the up callback. -/
theorem Focus.connectEstablished (h : Focus s fd c ⟨0, 0, 0, false, true⟩) (hst : ConnStage c .connecting)
    (hnone : (s.loops c.loop).callback = none) :
    ∃ t, s.runAsserting c.loop fd c .connectEstablished c.conn.connectEstablished = .ok t ∧ Lives none t := by
  let conn := { c.conn with state := .kConnected, channel := c.conn.channel.enableReading.1 }
  have hr : c.conn.connectEstablished =
      some (conn, [.epollCtl c.conn.channel.enableReading.2, .connectionCallback]) := if_pos hst.state
  have hupdates : ((s.loops c.loop).poller.channel fd).Updates conn.channel := by
    rw [h.placed.channel]
    exact Channel.enableReading_updates _
  obtain ⟨p, hp⟩ := pollerKnows_of_updates (h.others.loops c.loop).consistent hupdates
  obtain ⟨t, hrun, hfocus, hcallback⟩ := h.runHandler
    (r := (conn, [.epollCtl c.conn.channel.enableReading.2, .connectionCallback])) hp (fun heq => by cases heq)
    fun loop callbacks hmem => absurd hst.state (h.placed.active loop callbacks hmem).1
  have hup := hfocus.recordCallback.enterCallback ((hcallback c.loop).trans hnone) [] false rfl
  refine ⟨(t.recordCallback fd).enterCallback c.loop fd [], ?_, hup.settle .connected hst.establish⟩
  rw [hr]
  exact hrun

theorem connectDestroyed_eq {conn : TcpConnection} (hstate : conn.state ≠ .kConnected)
    (hnone : conn.channel.isNoneEvent = true) (hindex : conn.channel.index = 2) :
    conn.connectDestroyed =
      some ({ conn with channel := { conn.channel with addedToLoop := false, index := -1 } }, []) := by
  simp [TcpConnection.connectDestroyed, hstate, Channel.remove, hnone, hindex]

/-- `ConnectDestroyed` takes the channel out of the poller. -/
theorem Focus.connectDestroyed (h : Focus s fd c ⟨0, 0, 0, false, false⟩) (hst : ConnStage c .destroying) :
    ∃ t, (s.countDestruction fd).runAsserting c.loop fd c .channelRemove c.conn.connectDestroyed = .ok t ∧
      Lives none t := by
  let conn := { c.conn with channel := { c.conn.channel with addedToLoop := false, index := -1 } }
  have hnone : c.conn.channel.isNoneEvent = true := hst.noEvents rfl
  have hstate : c.conn.state = .kDisconnected := hst.state
  have hr : c.conn.connectDestroyed = some (conn, []) :=
    connectDestroyed_eq (by rw [hstate]; decide) hnone hst.index
  have hknows : ∃ p, PollerKnows (s.countDestruction fd) c.loop fd conn.channel p := by
    have hchannel : ((s.countDestruction fd).loops c.loop).poller.channel fd = c.conn.channel := h.placed.channel
    have hindex : c.conn.channel.index ≠ -1 := by
      rw [hst.index]
      decide
    show ∃ p, PollerKnows _ c.loop fd { c.conn.channel with addedToLoop := false, index := -1 } p
    rw [← hchannel] at hnone hindex ⊢
    exact pollerKnows_of_removed (h.countDestruction.others.loops c.loop).consistent hnone hindex
  obtain ⟨p, hp⟩ := hknows
  obtain ⟨t, hrun, hfocus, -⟩ := h.countDestruction.runHandler (r := (conn, [])) hp (fun heq => heq)
    h.placed.active
  refine ⟨t, ?_, hfocus.settle .destroyed (hst.destroy rfl rfl hnone)⟩
  rw [hr]
  exact hrun

theorem Focus.removeConnectionInLoop (h : Focus s fd c ⟨0, 0, 0, false, true⟩) {st : Stage} (hst : ConnStage c st)
    (hcase : st = .closing ∨ st = .removing) : ∃ t, s.removeConnectionInLoop 0 fd = .ok t ∧ Lives none t := by
  have hstate : c.conn.state = .kDisconnected := by
    rw [hst.state]
    obtain rfl | rfl := hcase <;> rfl
  have hqueue := h.eraseEntry.countRemoval.queueInLoop (f := .conn fd .connectDestroyed) rfl
    fun heq => absurd (hstate.symm.trans heq) (by decide)
  refine ⟨_, ?_, hqueue.settle .destroying (hst.remove hcase)⟩
  have hentry : s.connections c.name ≠ none := by
    rw [h.placed.entry]
    exact Option.some_ne_none fd
  unfold NetLayer.removeConnectionInLoop
  rw [assertInLoopThread_self, h.conn]
  exact if_neg hentry

/-! ## Functors -/

theorem Slots.of_add_established {st : Stage} (h : slots.add (.conn fd .connectEstablished) = st.slots) :
    st = .connecting ∧ slots = ⟨0, 0, 0, false, true⟩ := by
  obtain ⟨established, removal, destruction, closing, entered⟩ := slots
  cases st <;> simp [Slots.add, Stage.slots] at h ⊢
  exact h

theorem Slots.of_add_destruction {st : Stage} (h : slots.add (.conn fd .connectDestroyed) = st.slots) :
    st = .destroying ∧ slots = ⟨0, 0, 0, false, false⟩ := by
  obtain ⟨established, removal, destruction, closing, entered⟩ := slots
  cases st <;> simp [Slots.add, Stage.slots] at h ⊢
  exact h

theorem Slots.of_add_removal {st : Stage} (h : slots.add (.removeConnectionInLoop fd) = st.slots) :
    st = .removing ∧ slots = ⟨0, 0, 0, false, true⟩ := by
  obtain ⟨established, removal, destruction, closing, entered⟩ := slots
  cases st <;> simp [Slots.add, Stage.slots] at h ⊢
  exact h

/-- The channel of a connection belongs to its own loop only. -/
theorem Affine.ownsChannel_loop (h : Affine cfg n s) (hc : s.conns fd = some c) {loop : ℕ}
    (hown : OwnsChannel cfg n s.loopOf loop fd) : loop = c.loop := by
  have hloop := loopOf_of_conns hc
  have hfds := (h.of_loopOf hloop).2
  obtain ⟨hle, rfl⟩ | ⟨-, rfl⟩ | howner := hown
  · exact absurd (cfg.wakeupFd_mem_fds hle) hfds
  · exact absurd (cfg.acceptSocket_mem_fds n) hfds
  · exact Option.some.inj (howner.symm.trans hloop)

theorem forceCloseInLoop_of_not_open {conn : TcpConnection} (h : conn.state.isOpen ≠ true) :
    conn.forceCloseInLoop = some (conn, []) := if_neg fun hopen => h (State.isOpen_iff.mpr hopen)

theorem Lives.runPlainFunctor (h : Lives none s) (haffine : Affine cfg n s) (hc : s.conns fd = some c)
    (hearly : c.conn.state ≠ .kConnecting) (hactive : (s.loops c.loop).phase.active = [])
    (hnone : (s.loops c.loop).callback = none) {f : Functor} (hf : f.plain = true) {result : WriteResult}
    {r : Except Failure NetLayer} (hr : s.runFunctor c.loop result (.conn fd f) = some r) :
    ∃ t, r = .ok t ∧ Lives none t := by
  simp only [NetLayer.runFunctor, hc] at hr
  have hsame : c.conn.Quietly (c.conn, []) := TcpConnection.Quietly.of_channel rfl rfl (List.forall_mem_nil _)
  cases f with
  | connectEstablished | connectDestroyed => cases hf
  | sendInLoop message =>
    obtain ⟨x, hx, rfl⟩ := Option.map_eq_some_iff.mp hr
    refine h.runQuietly hc hearly (TcpConnection.sendInLoop_quietly hx) fun hdown => ?_
    rw [TcpConnection.sendInLoop_disconnected hdown] at hx
    rw [← Option.some.inj hx]
  | shutdownInLoop =>
    obtain rfl := Option.some.inj hr
    exact h.runQuietly hc hearly
      (TcpConnection.Quietly.of_channel rfl rfl c.conn.shutdownInLoop_plain) fun _ => rfl
  | forceCloseInLoop =>
    obtain rfl := Option.some.inj hr
    by_cases hopen : c.conn.state.isOpen = true
    · obtain ⟨x, hx, hcloses⟩ := TcpConnection.handleClose_closes hopen
      have hclose : c.conn.forceCloseInLoop = some x := (if_pos (State.isOpen_iff.mp hopen)).trans hx
      rw [hclose]
      refine h.close hc hopen hnone (fun loop callbacks hmem => ?_) hcloses
      rw [haffine.ownsChannel_loop hc ((haffine.loops loop).active _ hmem), hactive] at hmem
      exact absurd hmem List.not_mem_nil
    · rw [forceCloseInLoop_of_not_open hopen]
      exact h.runQuietly hc hearly hsame fun _ => rfl
  | writeComplete | highWaterMark =>
    obtain rfl := Option.some.inj hr
    exact ⟨_, rfl, h.enterCallback hc hnone⟩

/-- Every functor runs without a failed assertion. -/
theorem Lives.runFunctor (h : Lives none s) (haffine : Affine cfg n s) {loop : ℕ} {f : ServerFunctor}
    {batch : List ServerFunctor} (hphase : (s.loops loop).phase = .functors (f :: batch))
    (hnone : (s.loops loop).callback = none) {result : WriteResult} {r : Except Failure NetLayer}
    (hr : (s.setPhase loop (.functors batch)).runFunctor loop result f = some r) : ∃ t, r = .ok t ∧ Lives none t := by
  obtain ⟨htaken, hcalls⟩ := haffine.keeps.takeFunctor hphase
  have hcallback : ((s.setPhase loop (.functors batch)).loops loop).callback = none :=
    (congrArg Loop.callback (loops_modifyLoop_self s loop _)).trans hnone
  cases f with
  | removeConnectionInLoop fd =>
    obtain ⟨rfl, hfd⟩ := hcalls
    obtain ⟨c, hc, -⟩ := htaken.exists_conn hfd
    obtain ⟨st, hst, hfocus⟩ := Lives.focus h hc
    obtain ⟨slots, hslots, hpop⟩ := hfocus.pop (f := .removeConnectionInLoop fd) rfl hphase
    obtain ⟨rfl, rfl⟩ := Slots.of_add_removal hslots
    obtain rfl := Option.some.inj hr
    exact Focus.removeConnectionInLoop hpop hst (.inr rfl)
  | conn fd f =>
    obtain ⟨c, hc, rfl⟩ := exists_conn_of_loopOf hcalls
    obtain ⟨st, hst, hfocus⟩ := h.focus hc
    obtain ⟨slots, hslots, hpop⟩ := hfocus.pop (f := .conn fd f) rfl hphase
    change Focus (s.setPhase c.loop (.functors batch)) fd c slots at hpop
    by_cases hplain : f.plain = true
    · rw [Slots.add_plain slots hplain] at hslots
      subst hslots
      have hearly : c.conn.state ≠ .kConnecting := by
        intro hconnecting
        have hqueued : .conn fd f ∈ (s.loops c.loop).queued := by
          rw [Loop.queued, hphase]
          exact List.mem_cons_self
        rw [(hfocus.placed.early hconnecting).1 c.loop f hqueued] at hplain
        cases hplain
      refine Lives.runPlainFunctor (hpop.settle st hst) htaken.1 hpop.conn hearly ?_ hcallback hplain hr
      exact congrArg (fun l : Loop => l.phase.active) (loops_modifyLoop_self s c.loop _)
    · have hconns : (s.setPhase c.loop (.functors batch)).conns fd = some c := hc
      cases f with
      | connectEstablished =>
        obtain ⟨rfl, rfl⟩ := Slots.of_add_established hslots
        simp only [NetLayer.runFunctor, hconns] at hr
        obtain rfl := Option.some.inj hr
        exact hpop.connectEstablished hst hcallback
      | connectDestroyed =>
        obtain ⟨rfl, rfl⟩ := Slots.of_add_destruction hslots
        simp only [NetLayer.runFunctor, hconns] at hr
        obtain rfl := Option.some.inj hr
        exact hpop.connectDestroyed hst
      | _ => exact absurd rfl hplain

/-! ## Callbacks of a channel -/

theorem closers_cons (callback : Channel.Callback) (callbacks : List Channel.Callback) :
    closers (callback :: callbacks) =
      closers callbacks + if callback = .close ∨ callback = .read then 1 else 0 := by
  unfold closers
  rw [List.countP_cons]
  simp

/-- A loop with no functors left takes up a list of active channels. -/
theorem Lives.setActive (h : Lives none s) {loop : ℕ} {active : List (ℕ × List Channel.Callback)}
    (hbatch : (s.loops loop).phase.batch = []) (hnodup : (active.map Prod.fst).Nodup)
    (horderly : ∀ x ∈ active, closers x.2 ≤ 1)
    (hopen : ∀ j d callbacks, s.conns j = some d → (j, callbacks) ∈ active →
      d.conn.state ≠ .kConnecting ∧ (d.conn.state.isOpen = true ∨ closers callbacks = 0)) :
    Lives none (s.setPhase loop (.handling active)) := by
  have hself : (s.setPhase loop (.handling active)).loops loop = { s.loops loop with phase := .handling active } :=
    loops_modifyLoop_self s loop _
  have hother : ∀ other, other ≠ loop → (s.setPhase loop (.handling active)).loops other = s.loops other :=
    fun other hne => loops_modifyLoop_of_ne s hne _
  refine ⟨fun other => ?_, fun j d hj hd => ?_, h.opened, h.calls, h.names, h.distinct, h.nextConnId⟩
  · by_cases hloop : other = loop
    · have hl := h.loops loop
      rw [hloop, hself]
      exact ⟨hl.consistent, hl.unused, hl.paused, hnodup, horderly⟩
    · rw [hother other hloop]
      exact h.loops other
  · obtain ⟨st, hst, hplaced⟩ := h.stages j d hj hd
    refine ⟨st, hst, hplaced.of_views (fun other f _ => ?_) (fun other => ?_) (fun other => ?_) rfl
      (fun _ hcall _ => hcall) fun other callbacks hmem => ?_⟩ <;>
      by_cases hloop : other = loop
    · rw [hloop, hself, Loop.queued, Loop.queued, hbatch]
      rfl
    · rw [hother other hloop]
    · rw [hloop, hself]
    · rw [hother other hloop]
    · rw [hloop, hself]
    · rw [hother other hloop]
    · rw [hloop, hself] at hmem
      exact hopen j d callbacks hd hmem
    · rw [hother other hloop] at hmem
      exact hplaced.active other callbacks hmem

theorem Lives.setHandling (h : Lives none s) {loop : ℕ} {before after : List (ℕ × List Channel.Callback)}
    (hphase : (s.loops loop).phase = .handling before)
    (hnodup : (before.map Prod.fst).Nodup → (after.map Prod.fst).Nodup)
    (hafter : ∀ x ∈ after, ∃ y ∈ before, y.1 = x.1 ∧ closers x.2 ≤ closers y.2) :
    Lives none (s.setPhase loop (.handling after)) := by
  have hl := h.loops loop
  have hactive : (s.loops loop).phase.active = before := by rw [hphase]; rfl
  refine h.setActive (by rw [hphase]; rfl) (hnodup (hactive ▸ hl.nodup)) (fun x hx => ?_)
    fun j d callbacks hd hmem => ?_
  · obtain ⟨y, hy, -, hle⟩ := hafter x hx
    exact hle.trans (hl.orderly y (hactive ▸ hy))
  · obtain ⟨⟨k, callbacks'⟩, hy, rfl, hle⟩ := hafter _ hmem
    obtain ⟨st, -, hplaced⟩ := h.stages _ d (by simp) hd
    obtain ⟨hearly, hopen⟩ := hplaced.active loop callbacks' (hactive ▸ hy)
    refine ⟨hearly, hopen.imp_right fun hzero => ?_⟩
    rw [hzero] at hle
    exact Nat.le_zero.mp hle

/-- Data goes up to the message callback. -/
theorem Lives.read (h : Lives none s) (hc : s.conns fd = some c) (hopen : c.conn.state.isOpen = true)
    (hnone : (s.loops c.loop).callback = none) {r : TcpConnection × List Effect} (hstate : r.1.state = c.conn.state)
    (hchannel : r.1.channel = c.conn.channel) (heffects : r.2 = [.messageCallback] ∨ r.2 = []) :
    ∃ t, s.runHandler c.loop fd c r = .ok t ∧ Lives none t := by
  obtain ⟨st, hst, hfocus⟩ := h.focus hc
  have hslots := Stage.slots_of_isOpen (hst.isOpen.trans hopen)
  obtain ⟨p, hp⟩ := pollerKnows_of_updates (h.loops c.loop).consistent
    (hfocus.placed.channel ▸ (.inl hchannel : c.conn.channel.Updates r.1.channel))
  obtain ⟨t, hrun, hfocus, hcallback⟩ := hfocus.runHandler hp (fun heq => hstate.symm.trans heq)
    fun loop callbacks hmem => by
      rw [hstate]
      exact hfocus.placed.active loop callbacks hmem
  have hkeep := hst.keep_channel hstate hchannel
  obtain heffects | heffects := heffects
  · have hmessage : Focus (t.enterCallback c.loop fd []) fd (c.setConn r.1) st.slots := by
      rw [hslots] at hfocus ⊢
      exact hfocus.enterCallback ((hcallback c.loop).trans hnone) [] false rfl
    refine ⟨t.enterCallback c.loop fd [], ?_, hmessage.settle st hkeep⟩
    rw [hrun, heffects]
    rfl
  · refine ⟨t, ?_, hfocus.settle st hkeep⟩
    rw [hrun, heffects]
    rfl

theorem Lives.noEvents_of_disconnected (h : Lives none s) (hc : s.conns fd = some c)
    (hstate : c.conn.state = .kDisconnected) : c.conn.channel.isNoneEvent = true := by
  obtain ⟨st, hst, -⟩ := h.focus hc
  apply hst.noEvents
  rw [hst.isOpen, hstate]
  rfl

theorem Lives.runConnCallback (h : Lives none s) (hc : s.conns fd = some c)
    (hnone : (s.loops c.loop).callback = none) {callback : Channel.Callback} {callbacks : List Channel.Callback}
    {results : Results} {r : Except Failure NetLayer}
    (hr : (match callback with
      | .close => some (s.runAsserting c.loop fd c .handleClose c.conn.handleClose)
      | .error => some (.ok s)
      | .read =>
        some (s.runAsserting c.loop fd c .handleClose (c.conn.handleRead results.readv results.messageCallback))
      | .write => (c.conn.handleWrite results.write).map (s.runHandler c.loop fd c)) = some r)
    (hearly : c.conn.state ≠ .kConnecting) (hopen : c.conn.state.isOpen = true ∨ closers (callback :: callbacks) = 0)
    (horderly : closers (callback :: callbacks) ≤ 1)
    (hactive : ∀ loop callbacks', (fd, callbacks') ∈ (s.loops loop).phase.active → callbacks' = callbacks) :
    ∃ t, r = .ok t ∧ Lives none t := by
  rw [closers_cons] at hopen horderly
  cases callback with
  | close =>
    have hcopen : c.conn.state.isOpen = true := by simpa using hopen
    obtain ⟨x, hx, hcloses⟩ := TcpConnection.handleClose_closes hcopen
    obtain rfl := Option.some.inj hr
    rw [hx]
    refine h.close hc hcopen hnone (fun loop callbacks' hmem => ?_) hcloses
    rw [hactive loop callbacks' hmem]
    simpa using horderly
  | error =>
    obtain rfl := Option.some.inj hr
    exact ⟨s, rfl, h⟩
  | read =>
    have hcopen : c.conn.state.isOpen = true := by simpa using hopen
    obtain ⟨x, hx, hcases⟩ := TcpConnection.handleRead_cases hcopen results.readv results.messageCallback
    obtain rfl := Option.some.inj hr
    rw [hx]
    obtain ⟨hstate, hchannel, heffects⟩ | hcloses := hcases
    · exact h.read hc hcopen hnone hstate hchannel heffects
    · refine h.close hc hcopen hnone (fun loop callbacks' hmem => ?_) hcloses
      rw [hactive loop callbacks' hmem]
      simpa using horderly
  | write =>
    obtain ⟨x, hx, rfl⟩ := Option.map_eq_some_iff.mp hr
    refine h.runQuietly hc hearly (TcpConnection.handleWrite_quietly hx) fun hdown => ?_
    have hwriting := Channel.isWriting_of_isNoneEvent (h.noEvents_of_disconnected hc hdown)
    rw [TcpConnection.handleWrite_of_not_writing hwriting] at hx
    rw [← Option.some.inj hx]

end NetLayer
end Chater.Net
