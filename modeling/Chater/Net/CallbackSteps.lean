import Chater.Net.ConnectionLifecycle

/-!
# The user callbacks of a step

A step of the net layer begins at most one user callback.  What it begins shows in the state: the loop is in a callback
of a connection that it was not in before, and a call of `connectionCallback_` adds to the connection's record.  All
other steps leave the records alone, and no step shortens the history of a connection.
-/

namespace Chater.Net

open Base Foundations

set_option autoImplicit false

theorem TcpConnection.forceClose_plain (c : TcpConnection) : ∀ e ∈ c.forceClose.2, e.plain = true := by
  unfold forceClose
  split <;> simp [Effect.plain, Functor.plain]

namespace NetLayer

/-- `Connected()` at each call of `connectionCallback_` for `fd`. -/
def callbacksOf (s : NetLayer) (fd : ℕ) : List Bool := ((s.conns fd).map Conn.callbacks).getD []

def statesOf (s : NetLayer) (fd : ℕ) : List State := ((s.conns fd).map Conn.states).getD []

variable {cfg : Config} {n : ℕ} {s t u : NetLayer} {fd loop thread : ℕ} {c : Conn}

theorem callbacksOf_of_conns (h : s.conns fd = some c) : s.callbacksOf fd = c.callbacks := by
  rw [callbacksOf, h]
  rfl

theorem statesOf_of_conns (h : s.conns fd = some c) : s.statesOf fd = c.states := by
  rw [statesOf, h]
  rfl

/-! ## Steps that begin no callback -/

structure Calm (s t : NetLayer) : Prop where
  callbacks : t.callbacksOf = s.callbacksOf
  states : ∀ fd, s.statesOf fd <+: t.statesOf fd
  conns : ∀ fd, s.conns fd ≠ none → t.conns fd ≠ none
  entered : ∀ loop, (t.loops loop).callback = (s.loops loop).callback

theorem Calm.refl (s : NetLayer) : Calm s s := ⟨rfl, fun _ => List.prefix_rfl, fun _ h => h, fun _ => rfl⟩

theorem Calm.trans (h : Calm s t) (h' : Calm t u) : Calm s u where
  callbacks := h'.callbacks.trans h.callbacks
  states fd := (h.states fd).trans (h'.states fd)
  conns fd hfd := h'.conns fd (h.conns fd hfd)
  entered loop := (h'.entered loop).trans (h.entered loop)

theorem calm_of_same (hconns : t.conns = s.conns) (hloops : ∀ loop, (t.loops loop).callback = (s.loops loop).callback) :
    Calm s t where
  callbacks := by
    funext fd
    rw [callbacksOf, callbacksOf, hconns]
  states fd := by rw [statesOf, statesOf, hconns]
  conns fd hfd := by
    rw [hconns]
    exact hfd
  entered := hloops

theorem calm_modifyLoop (s : NetLayer) (loop : ℕ) {f : Loop → Loop} (hf : ∀ l, (f l).callback = l.callback) :
    Calm s (s.modifyLoop loop f) :=
  calm_of_same rfl (modifyLoop_same Loop.callback hf s loop)

theorem calm_queueInLoop (s : NetLayer) (loop : ℕ) (f : ServerFunctor) : Calm s (s.queueInLoop loop f) :=
  calm_modifyLoop s loop fun _ => rfl

theorem calm_setPhase (s : NetLayer) (loop : ℕ) (phase : Phase) : Calm s (s.setPhase loop phase) :=
  calm_modifyLoop s loop fun _ => rfl

theorem calm_setPoller (s : NetLayer) (loop : ℕ) (p : Poller ℕ) : Calm s (s.setPoller loop p) :=
  calm_modifyLoop s loop fun _ => rfl

theorem calm_beginCall (s : NetLayer) (call : PendingCall) : Calm s (s.beginCall call) :=
  calm_of_same rfl fun _ => rfl

theorem calm_modifyConn (s : NetLayer) (fd : ℕ) {f : Conn → Conn} (hcallbacks : ∀ c, (f c).callbacks = c.callbacks)
    (hstates : ∀ c, c.states <+: (f c).states) : Calm s (s.modifyConn fd f) := by
  have hconns : ∀ j, (s.modifyConn fd f).conns j = s.conns j ∨ ∃ c, s.conns j = some c ∧
      (s.modifyConn fd f).conns j = some (f c) := by
    intro j
    by_cases hj : j = fd
    · subst hj
      cases hc : s.conns j with
      | none => exact .inl (by simp [modifyConn, hc])
      | some c => exact .inr ⟨c, rfl, conns_modifyConn_self hc f⟩
    · exact .inl (conns_modifyConn_of_ne s hj f)
  refine ⟨funext fun j => ?_, fun j => ?_, fun j hj => ?_, fun _ => rfl⟩
  · obtain hsame | ⟨c, hc, hnew⟩ := hconns j
    · rw [callbacksOf, callbacksOf, hsame]
    · rw [callbacksOf_of_conns hc, callbacksOf_of_conns hnew, hcallbacks]
  · obtain hsame | ⟨c, hc, hnew⟩ := hconns j
    · rw [statesOf, statesOf, hsame]
    · rw [statesOf_of_conns hc, statesOf_of_conns hnew]
      exact hstates c
  · obtain hsame | ⟨c, hc, hnew⟩ := hconns j
    · rw [hsame]
      exact hj
    · rw [hnew]
      exact Option.some_ne_none _

theorem calm_setConn (s : NetLayer) (fd : ℕ) (conn : TcpConnection) : Calm s (s.setConn fd conn) := by
  refine calm_modifyConn s fd (fun _ => rfl) fun c => ?_
  show c.states <+: if conn.state = c.conn.state then c.states else c.states ++ [conn.state]
  split_ifs
  · exact List.prefix_rfl
  · exact List.prefix_append _ _

theorem calm_countRemoval (s : NetLayer) (fd : ℕ) : Calm s (s.countRemoval fd) :=
  calm_modifyConn s fd (fun _ => rfl) fun _ => List.prefix_rfl

theorem calm_countDestruction (s : NetLayer) (fd : ℕ) : Calm s (s.countDestruction fd) :=
  calm_modifyConn s fd (fun _ => rfl) fun _ => List.prefix_rfl

theorem calm_addConn (hfresh : s.conns fd = none) (next : ℕ) (hcallbacks : c.callbacks = []) :
    Calm s (s.addConn next fd c) := by
  have hself : (s.addConn next fd c).conns fd = some c := Function.update_self ..
  have hother : ∀ j, j ≠ fd → (s.addConn next fd c).conns j = s.conns j := fun j hj => Function.update_of_ne hj ..
  refine ⟨funext fun j => ?_, fun j => ?_, fun j hj => ?_, fun _ => rfl⟩
  · by_cases hj : j = fd
    · rw [hj, callbacksOf_of_conns hself, hcallbacks, callbacksOf, hfresh]
      rfl
    · rw [callbacksOf, callbacksOf, hother j hj]
  · by_cases hj : j = fd
    · rw [hj, statesOf, hfresh]
      exact List.nil_prefix
    · rw [statesOf, statesOf, hother j hj]
  · rw [hother j fun heq => hj (heq ▸ hfresh)]
    exact hj

theorem calm_followChannel {channel : Channel} (h : s.followChannel thread loop fd channel = .ok t) : Calm s t := by
  unfold NetLayer.followChannel at h
  split_ifs at h
  · obtain rfl := Except.ok.inj h
    exact Calm.refl s
  · unfold assertInLoopThread at h
    split_ifs at h
    split at h
    · obtain rfl := Except.ok.inj h
      exact calm_setPoller s loop _
    · cases h

theorem calm_removeConnectionInLoop (h : s.removeConnectionInLoop thread fd = .ok t) : Calm s t := by
  unfold NetLayer.removeConnectionInLoop assertInLoopThread at h
  split_ifs at h
  split at h
  · cases h
  · rename_i c hc
    split_ifs at h
    obtain rfl := Except.ok.inj h
    have herased : Calm s { s with connections := Function.update s.connections c.name none } :=
      calm_of_same rfl fun _ => rfl
    exact (herased.trans (calm_countRemoval _ fd)).trans (calm_queueInLoop _ _ _)

theorem calm_removeConnection (h : s.removeConnection thread fd = .ok t) : Calm s t := by
  unfold NetLayer.removeConnection at h
  split_ifs at h
  · exact calm_removeConnectionInLoop h
  · obtain rfl := Except.ok.inj h
    exact calm_queueInLoop _ _ _

/-! ## What is left of a handler -/

/-- The effects are run up to the first user callback. -/
inductive Goes (thread fd : ℕ) (effects : List Effect) (s t : NetLayer) : Prop
  | calm (h : Calm s t)
  | connection (connected : Bool) (rest : List Effect) (hmem : .connectionCallback ∈ effects)
      (hcallbacks : t.callbacksOf = Function.update s.callbacksOf fd (s.callbacksOf fd ++ [connected]))
      (hstates : ∀ j, s.statesOf j <+: t.statesOf j) (hentered : (t.loops thread).callback = some (fd, rest))
  | message (rest : List Effect) (hmem : .messageCallback ∈ effects) (hcallbacks : t.callbacksOf = s.callbacksOf)
      (hstates : ∀ j, s.statesOf j <+: t.statesOf j) (hentered : (t.loops thread).callback = some (fd, rest))

theorem Calm.goes {effects effects' : List Effect} (h : Calm s t) (h' : Goes thread fd effects t u)
    (hsub : ∀ e ∈ effects, e ∈ effects') : Goes thread fd effects' s u := by
  cases h' with
  | calm hcalm => exact .calm (h.trans hcalm)
  | connection connected rest hmem hcallbacks hstates hentered =>
    exact .connection connected rest (hsub _ hmem) (h.callbacks ▸ hcallbacks) (fun j => (h.states j).trans (hstates j))
      hentered
  | message rest hmem hcallbacks hstates hentered =>
    exact .message rest (hsub _ hmem) (hcallbacks.trans h.callbacks) (fun j => (h.states j).trans (hstates j)) hentered

theorem goes_recordCallback (hc : s.conns fd = some c) (thread : ℕ) {rest effects : List Effect}
    (hmem : .connectionCallback ∈ effects) :
    Goes thread fd effects s ((s.recordCallback fd).enterCallback thread fd rest) := by
  have hself : (s.recordCallback fd).conns fd = some c.recordCallback := conns_modifyConn_self hc _
  refine .connection (decide (c.conn.state = .kConnected)) rest hmem (funext fun j => ?_) (fun j => ?_) ?_
  · show (s.recordCallback fd).callbacksOf j = _
    by_cases hj : j = fd
    · rw [hj, callbacksOf_of_conns hself, Function.update_self, callbacksOf_of_conns hc]
      rfl
    · rw [Function.update_of_ne hj, callbacksOf, callbacksOf, recordCallback, conns_modifyConn_of_ne s hj]
  · show s.statesOf j <+: (s.recordCallback fd).statesOf j
    by_cases hj : j = fd
    · rw [hj, statesOf_of_conns hself, statesOf_of_conns hc]
      exact List.prefix_rfl
    · rw [statesOf, statesOf, recordCallback, conns_modifyConn_of_ne s hj]
  · rw [enterCallback, loops_modifyLoop_self]

theorem runEffects_goes {effects : List Effect} (hfd : s.conns fd ≠ none)
    (h : runEffects thread fd loop effects s = .ok t) : Goes thread fd effects s t := by
  induction effects generalizing s with
  | nil =>
    obtain rfl := Except.ok.inj h
    exact .calm (Calm.refl s)
  | cons e rest ih =>
    have hrest : ∀ e' ∈ rest, e' ∈ e :: rest := fun _ => List.mem_cons_of_mem e
    cases e with
    | connectionCallback =>
      obtain rfl := Except.ok.inj h
      obtain ⟨c, hc⟩ := Option.ne_none_iff_exists'.mp hfd
      exact goes_recordCallback hc thread List.mem_cons_self
    | messageCallback =>
      obtain rfl := Except.ok.inj h
      refine .message rest List.mem_cons_self rfl (fun _ => List.prefix_rfl) ?_
      rw [enterCallback, loops_modifyLoop_self]
    | closeCallback =>
      simp only [NetLayer.runEffects] at h
      cases hremove : s.removeConnection thread fd with
      | error failure =>
        rw [hremove] at h
        cases h
      | ok m =>
        rw [hremove] at h
        have hcalm := calm_removeConnection hremove
        exact hcalm.goes (ih (hcalm.conns fd hfd) h) hrest
    | queueInLoop f =>
      have hcalm := calm_queueInLoop s loop (.conn fd f)
      exact hcalm.goes (ih (hcalm.conns fd hfd) h) hrest
    | runInLoop | epollCtl | write | shutdownWrite => exact (Calm.refl s).goes (ih hfd h) hrest

theorem Goes.calm_of_plain {effects : List Effect} (h : Goes thread fd effects s t)
    (hplain : ∀ e ∈ effects, e.plain = true) : Calm s t := by
  cases h with
  | calm hcalm => exact hcalm
  | connection connected rest hmem => cases hplain _ hmem
  | message rest hmem => cases hplain _ hmem

theorem runHandler_goes {r : TcpConnection × List Effect} (hfd : s.conns fd ≠ none)
    (h : s.runHandler thread fd c r = .ok t) : Goes thread fd r.2 s t := by
  unfold NetLayer.runHandler assertInLoopThread at h
  split_ifs at h
  cases hfollow : s.followChannel thread c.loop fd r.1.channel with
  | error failure =>
    rw [hfollow] at h
    cases h
  | ok m =>
    rw [hfollow] at h
    have hcalm := (calm_followChannel hfollow).trans (calm_setConn m fd r.1)
    exact hcalm.goes (runEffects_goes (hcalm.conns fd hfd) h) fun _ he => he

theorem runAsserting_goes {assertion : Failure} {r : Option (TcpConnection × List Effect)} (hfd : s.conns fd ≠ none)
    (h : s.runAsserting thread fd c assertion r = .ok t) : ∃ x, r = some x ∧ Goes thread fd x.2 s t := by
  cases r with
  | some x => exact ⟨x, rfl, runHandler_goes hfd h⟩
  | none =>
    simp only [NetLayer.runAsserting, assertInLoopThread] at h
    split_ifs at h

/-! ## Steps -/

/-- What a step does to the user: nothing, or it begins a callback on a loop that was in none. -/
inductive Began (n : ℕ) (s : NetLayer) (e : Event) (t : NetLayer) : Prop
  | nothing (hcallbacks : t.callbacksOf = s.callbacksOf) (hstates : ∀ fd, s.statesOf fd <+: t.statesOf fd)
      (hentered : ∀ loop, (t.loops loop).callback = (s.loops loop).callback ∨ (t.loops loop).callback = none)
  | connection (loop fd : ℕ) (connected : Bool) (rest : List Effect) (hloop : loop ≤ n)
      (hnone : (s.loops loop).callback = none)
      (hcallbacks : t.callbacksOf = Function.update s.callbacksOf fd (s.callbacksOf fd ++ [connected]))
      (hstates : ∀ j, s.statesOf j <+: t.statesOf j) (hentered : (t.loops loop).callback = some (fd, rest))
  | message (loop fd : ℕ) (results : Results) (rest : List Effect) (he : e = .handle loop results) (hloop : loop ≤ n)
      (hnone : (s.loops loop).callback = none) (hup : s.callbacksOf fd = [true])
      (hcallbacks : t.callbacksOf = s.callbacksOf) (hstates : ∀ j, s.statesOf j <+: t.statesOf j)
      (hentered : (t.loops loop).callback = some (fd, rest))
  | written (loop fd : ℕ) (result : WriteResult) (he : e = .run loop result) (hloop : loop ≤ n)
      (hnone : (s.loops loop).callback = none) (hcallbacks : t.callbacksOf = s.callbacksOf)
      (hstates : ∀ j, s.statesOf j <+: t.statesOf j) (hentered : (t.loops loop).callback = some (fd, []))

variable {e : Event}

theorem Calm.began (h : Calm s t) : Began n s e t := .nothing h.callbacks h.states fun loop => .inl (h.entered loop)

/-- A handler that a loop runs. -/
theorem Goes.began {effects : List Effect} (h : Goes loop fd effects s t) (hloop : loop ≤ n)
    (hnone : (s.loops loop).callback = none)
    (hmessage : .messageCallback ∈ effects → s.callbacksOf fd = [true] ∧ ∃ results, e = .handle loop results) :
    Began n s e t := by
  cases h with
  | calm hcalm => exact hcalm.began
  | connection connected rest hmem hcallbacks hstates hentered =>
    exact .connection loop fd connected rest hloop hnone hcallbacks hstates hentered
  | message rest hmem hcallbacks hstates hentered =>
    obtain ⟨hup, results, rfl⟩ := hmessage hmem
    exact .message loop fd results rest rfl hloop hnone hup hcallbacks hstates hentered

theorem Calm.thenBegan (h : Calm s t) (h' : Began n t e u) : Began n s e u := by
  cases h' with
  | nothing hcallbacks hstates hentered =>
    refine .nothing (hcallbacks.trans h.callbacks) (fun j => (h.states j).trans (hstates j)) fun loop => ?_
    rw [← h.entered loop]
    exact hentered loop
  | connection loop fd connected rest hloop hnone hcallbacks hstates hentered =>
    exact .connection loop fd connected rest hloop (h.entered loop ▸ hnone) (h.callbacks ▸ hcallbacks)
      (fun j => (h.states j).trans (hstates j)) hentered
  | message loop fd results rest he hloop hnone hup hcallbacks hstates hentered =>
    exact .message loop fd results rest he hloop (h.entered loop ▸ hnone) (h.callbacks ▸ hup)
      (hcallbacks.trans h.callbacks) (fun j => (h.states j).trans (hstates j)) hentered
  | written loop fd result he hloop hnone hcallbacks hstates hentered =>
    exact .written loop fd result he hloop (h.entered loop ▸ hnone) (hcallbacks.trans h.callbacks)
      (fun j => (h.states j).trans (hstates j)) hentered

/-! ### Functors -/

theorem messageCallback_not_mem_handleClose {conn : TcpConnection} {x : TcpConnection × List Effect}
    (h : conn.handleClose = some x) : .messageCallback ∉ x.2 := by
  unfold TcpConnection.handleClose at h
  split_ifs at h
  obtain rfl := Option.some.inj h
  simp

theorem messageCallback_not_mem_forceCloseInLoop {conn : TcpConnection} {x : TcpConnection × List Effect}
    (h : conn.forceCloseInLoop = some x) : .messageCallback ∉ x.2 := by
  unfold TcpConnection.forceCloseInLoop at h
  split_ifs at h
  · exact messageCallback_not_mem_handleClose h
  · obtain rfl := Option.some.inj h
    exact List.not_mem_nil

theorem messageCallback_not_mem_connectEstablished {conn : TcpConnection} {x : TcpConnection × List Effect}
    (h : conn.connectEstablished = some x) : .messageCallback ∉ x.2 := by
  unfold TcpConnection.connectEstablished at h
  split_ifs at h
  obtain rfl := Option.some.inj h
  simp

theorem messageCallback_not_mem_connectDestroyed {conn : TcpConnection} {x : TcpConnection × List Effect}
    (h : conn.connectDestroyed = some x) : .messageCallback ∉ x.2 := by
  by_cases hstate : conn.state = .kConnected
  all_goals
    simp only [TcpConnection.connectDestroyed, hstate, if_true, if_false] at h
    obtain ⟨removed, -, hx⟩ := Option.bind_eq_some_iff.mp h
    obtain rfl := Option.some.inj hx
    simp

theorem runFunctor_began (hloop : loop ≤ n) (hnone : (s.loops loop).callback = none) {result : WriteResult}
    {f : ServerFunctor} (hr : s.runFunctor loop result f = some (.ok t)) : Began n s (.run loop result) t := by
  cases f with
  | removeConnectionInLoop fd => exact (calm_removeConnectionInLoop (Option.some.inj hr)).began
  | conn fd f =>
    simp only [NetLayer.runFunctor] at hr
    cases hc : s.conns fd with
    | none =>
      rw [hc] at hr
      cases hr
    | some c =>
      have hfd : s.conns fd ≠ none := hc ▸ Option.some_ne_none c
      simp only [hc] at hr
      cases f with
      | sendInLoop message =>
        obtain ⟨x, hx, hrun⟩ := Option.map_eq_some_iff.mp hr
        exact ((runHandler_goes hfd hrun).calm_of_plain (TcpConnection.sendInLoop_quietly hx).effects).began
      | shutdownInLoop =>
        have hgoes := runHandler_goes hfd (Option.some.inj hr)
        exact (hgoes.calm_of_plain c.conn.shutdownInLoop_plain).began
      | forceCloseInLoop =>
        obtain ⟨x, hx, hgoes⟩ := runAsserting_goes hfd (Option.some.inj hr)
        exact hgoes.began hloop hnone fun hmem => absurd hmem (messageCallback_not_mem_forceCloseInLoop hx)
      | connectEstablished =>
        obtain ⟨x, hx, hgoes⟩ := runAsserting_goes hfd (Option.some.inj hr)
        exact hgoes.began hloop hnone fun hmem => absurd hmem (messageCallback_not_mem_connectEstablished hx)
      | connectDestroyed =>
        have hcount := calm_countDestruction s fd
        obtain ⟨x, hx, hgoes⟩ := runAsserting_goes (hcount.conns fd hfd) (Option.some.inj hr)
        refine hcount.thenBegan (hgoes.began hloop hnone fun hmem => ?_)
        exact absurd hmem (messageCallback_not_mem_connectDestroyed hx)
      | writeComplete | highWaterMark =>
        obtain rfl := Except.ok.inj (Option.some.inj hr)
        refine .written loop fd result rfl hloop hnone rfl (fun _ => List.prefix_rfl) ?_
        rw [enterCallback, loops_modifyLoop_self]

/-! ### Callbacks of a channel -/

/-- A read callback waits only for an open connection. -/
theorem Lives.callbacksOf_of_read (h : Lives none s) (hc : s.conns fd = some c) {callbacks : List Channel.Callback}
    (hmem : (fd, .read :: callbacks) ∈ (s.loops loop).phase.active) : s.callbacksOf fd = [true] := by
  obtain ⟨st, hst, hplaced⟩ := h.stages fd c (by simp) hc
  obtain hopen | hzero := (hplaced.active loop _ hmem).2
  · rw [callbacksOf_of_conns hc, hst.callbacks]
    obtain rfl | rfl := Stage.of_isOpen (hst.isOpen.trans hopen)
    · rfl
    · rfl
  · rw [closers_cons] at hzero
    simp at hzero

theorem newConnection_began (hfd : s.conns fd = none) (hnone : (s.loops 0).callback = none)
    (h : newConnection cfg n s 0 fd = .ok t) : Began n s e t := by
  let next := (getNextLoop n s.next).2
  let c := Conn.new (getNextLoop n s.next).1 s.nextConnId (.new cfg.writeCompleteCallback)
  have hadd : Calm s (s.addConn next fd c) := calm_addConn hfd next rfl
  rw [NetLayer.newConnection, assertInLoopThread_self] at h
  change (if 0 = c.loop then (s.addConn next fd c).runAsserting 0 fd c .connectEstablished c.conn.connectEstablished
    else .ok ((s.addConn next fd c).queueInLoop c.loop (.conn fd .connectEstablished))) = .ok t at h
  refine hadd.thenBegan ?_
  split_ifs at h
  · have hself : (s.addConn next fd c).conns fd ≠ none := by
      rw [show (s.addConn next fd c).conns fd = some c from Function.update_self ..]
      exact Option.some_ne_none c
    obtain ⟨x, hx, hgoes⟩ := runAsserting_goes hself h
    exact hgoes.began (Nat.zero_le n) hnone fun hmem => absurd hmem (messageCallback_not_mem_connectEstablished hx)
  · obtain rfl := Except.ok.inj h
    exact (calm_queueInLoop _ _ _).began

theorem acceptorHandleRead_began (haffine : Affine cfg n s) (hnone : (s.loops 0).callback = none)
    {accepted : Option ℕ} (h : acceptorHandleRead cfg n s 0 accepted = some (.ok t)) : Began n s e t := by
  cases accepted with
  | none =>
    obtain rfl := Except.ok.inj (Option.some.inj h)
    exact (Calm.refl s).began
  | some connfd =>
    simp only [NetLayer.acceptorHandleRead, assertInLoopThread_self] at h
    split_ifs at h with hopened
    have hcalm : Calm s { s with openFds := connfd :: s.openFds } := calm_of_same rfl fun _ => rfl
    exact hcalm.thenBegan (newConnection_began (haffine.fresh hopened) hnone (Option.some.inj h))

theorem handle_began (h : Lives none s) (haffine : Affine cfg n s) (hloop : loop ≤ n)
    (hnone : (s.loops loop).callback = none) {callback : Channel.Callback} {callbacks : List Channel.Callback}
    {active : List (ℕ × List Channel.Callback)}
    (hphase : (s.loops loop).phase = .handling ((fd, callback :: callbacks) :: active)) {results : Results}
    (hr : runCallback cfg n (s.setPhase loop (.handling ((fd, callbacks) :: active))) loop fd results callback =
      some (.ok t)) : Began n s (.handle loop results) t := by
  obtain ⟨htaken, hown⟩ := haffine.keeps.takeCallback hphase
  have hcalm : Calm s (s.setPhase loop (.handling ((fd, callbacks) :: active))) := calm_setPhase s loop _
  refine hcalm.thenBegan ?_
  have hnone := (hcalm.entered loop).trans hnone
  unfold NetLayer.runCallback at hr
  split_ifs at hr with hwakeup haccept hread
  · obtain rfl := Except.ok.inj (Option.some.inj hr)
    exact (Calm.refl _).began
  · obtain rfl := haffine.loop_of_acceptSocket hown hwakeup haccept
    exact acceptorHandleRead_began htaken.1 hnone hr
  · obtain rfl := Except.ok.inj (Option.some.inj hr)
    exact (Calm.refl _).began
  · obtain ⟨c, hc, rfl⟩ := exists_conn_of_loopOf (hown.owner_eq hwakeup haccept)
    have hconns : (s.setPhase c.loop (.handling ((fd, callbacks) :: active))).conns fd = some c := hc
    have hfd := hconns ▸ Option.some_ne_none c
    simp only [hconns] at hr
    cases callback with
    | close =>
      obtain ⟨x, hx, hgoes⟩ := runAsserting_goes hfd (Option.some.inj hr)
      exact hgoes.began hloop hnone fun hmem => absurd hmem (messageCallback_not_mem_handleClose hx)
    | error =>
      obtain rfl := Except.ok.inj (Option.some.inj hr)
      exact (Calm.refl _).began
    | read =>
      obtain ⟨x, hx, hgoes⟩ := runAsserting_goes hfd (Option.some.inj hr)
      have hmem : (fd, .read :: callbacks) ∈ (s.loops c.loop).phase.active := by
        rw [hphase]
        exact List.mem_cons_self
      exact hgoes.began hloop hnone fun _ => ⟨h.callbacksOf_of_read hc hmem, results, rfl⟩
    | write =>
      obtain ⟨x, hx, hrun⟩ := Option.map_eq_some_iff.mp hr
      exact ((runHandler_goes hfd hrun).calm_of_plain (TcpConnection.handleWrite_quietly hx).effects).began

/-! ### All steps -/

theorem loopStep_began (h : Lives none s) (haffine : Affine cfg n s) (hloop : loop ≤ n) (he : e.loop = some loop)
    (hnone : (s.loops loop).callback = none) (hr : loopStep cfg n s loop e = some (.ok t)) : Began n s e t := by
  generalize hx : Except.ok t = x at hr
  cases loopStep_cases hr with
  | poll | nextChannel | endFunctors =>
    obtain rfl := Except.ok.inj hx
    exact (calm_setPhase s loop _).began
  | doPendingFunctors =>
    obtain rfl := Except.ok.inj hx
    apply Calm.began
    apply calm_modifyLoop
    exact fun _ => rfl
  | handle hphase hr =>
    subst hx
    obtain rfl := Option.some.inj he
    exact handle_began h haffine hloop hnone hphase hr
  | run hphase hr =>
    subst hx
    obtain rfl := Option.some.inj he
    refine (calm_setPhase s _ _).thenBegan (runFunctor_began hloop ?_ hr)
    exact ((calm_setPhase s _ _).entered _).trans hnone

theorem callbackReturns_calm (h : Lives none s) (hr : s.callbackReturns loop = some (.ok t)) :
    Calm (s.leaveCallback loop) t := by
  unfold NetLayer.callbackReturns at hr
  split at hr
  case h_1 => cases hr
  case h_2 fd rest hcallback =>
    split at hr
    case h_1 => cases hr
    case h_2 c hc =>
      have hfd : (s.leaveCallback loop).conns fd ≠ none := by
        rw [show (s.leaveCallback loop).conns fd = some c from hc]
        exact Option.some_ne_none c
      cases runEffects_goes hfd (Option.some.inj hr) with
      | calm hcalm => exact hcalm
      | connection connected rest' hmem | message rest' hmem =>
        obtain rfl | rfl := (h.loops loop).paused fd rest hcallback <;> simp at hmem

theorem callbackReturns_began (h : Lives none s) (hr : s.callbackReturns loop = some (.ok t)) : Began n s e t := by
  have hcalm := callbackReturns_calm h hr
  refine .nothing hcalm.callbacks hcalm.states fun other => ?_
  rw [hcalm.entered other]
  by_cases hother : other = loop
  · right
    rw [hother, leaveCallback, loops_modifyLoop_self]
  · left
    rw [leaveCallback, loops_modifyLoop_of_ne s hother]

theorem userCall_calm (hr : s.userCall e = some (.ok t)) : Calm s t := by
  cases e with
  | send thread fd message result =>
    obtain ⟨c, hc, hr⟩ := Option.bind_eq_some_iff.mp hr
    split_ifs at hr
    · obtain rfl := Except.ok.inj (Option.some.inj hr)
      exact Calm.refl s
    · obtain ⟨x, hx, hrun⟩ := Option.map_eq_some_iff.mp hr
      have hgoes := runHandler_goes (hc ▸ Option.some_ne_none c) hrun
      exact hgoes.calm_of_plain (TcpConnection.sendInLoop_quietly hx).effects
    · obtain rfl := Except.ok.inj (Option.some.inj hr)
      exact calm_beginCall s _
  | shutdown thread fd =>
    obtain ⟨c, hc, hr⟩ := Option.bind_eq_some_iff.mp hr
    split_ifs at hr
    · obtain rfl := Except.ok.inj (Option.some.inj hr)
      exact Calm.refl s
    · have hgoes := runHandler_goes (hc ▸ Option.some_ne_none c) (Option.some.inj hr)
      exact hgoes.calm_of_plain c.conn.shutdownInLoop_plain
    · obtain rfl := Except.ok.inj (Option.some.inj hr)
      exact calm_beginCall s _
  | forceClose thread fd =>
    obtain ⟨c, hc, hr⟩ := Option.bind_eq_some_iff.mp hr
    split_ifs at hr
    · obtain rfl := Except.ok.inj (Option.some.inj hr)
      exact Calm.refl s
    · have hgoes := runHandler_goes (hc ▸ Option.some_ne_none c) (Option.some.inj hr)
      exact hgoes.calm_of_plain c.conn.forceClose_plain
    · obtain rfl := Except.ok.inj (Option.some.inj hr)
      exact calm_beginCall s _
  | store i =>
    obtain ⟨call, hcall, hr⟩ := Option.bind_eq_some_iff.mp hr
    split_ifs at hr
    obtain ⟨c, hc, hr⟩ := Option.map_eq_some_iff.mp hr
    obtain rfl := Except.ok.inj hr
    have hcalm : Calm s { s with calls := s.calls.set i { call with mustStore := false } } :=
      calm_of_same rfl fun _ => rfl
    exact hcalm.trans (calm_setConn _ _ _)
  | push i =>
    obtain ⟨call, hcall, hr⟩ := Option.bind_eq_some_iff.mp hr
    split_ifs at hr
    obtain ⟨c, hc, hr⟩ := Option.map_eq_some_iff.mp hr
    obtain rfl := Except.ok.inj hr
    have hcalm : Calm s { s with calls := s.calls.eraseIdx i } := calm_of_same rfl fun _ => rfl
    exact hcalm.trans (calm_queueInLoop _ _ _)
  | _ => cases hr

theorem startServer_began (hr : startServer cfg s = .ok t) : Began n s e t := by
  unfold NetLayer.startServer at hr
  split_ifs at hr
  · obtain rfl := Except.ok.inj hr
    exact (Calm.refl s).began
  · rw [assertInLoopThread_self] at hr
    split at hr
    · obtain rfl := Except.ok.inj hr
      have hcalm : Calm s { s with started := true } := calm_of_same rfl fun _ => rfl
      exact (hcalm.trans (calm_setPoller _ _ _)).began
    · cases hr

/-- Every step begins at most one user callback, on a loop that is in none. -/
theorem act_began (h : Lives none s) (haffine : Affine cfg n s) (hr : act cfg n s e = some (.ok t)) :
    Began n s e t := by
  cases e with
  | poll loop _ | handle loop _ | doPendingFunctors loop | run loop _ | endFunctors loop =>
    simp only [NetLayer.act, Event.loop] at hr
    split_ifs at hr with hguard
    exact loopStep_began h haffine hguard.1 rfl hguard.2 hr
  | start => exact startServer_began (Option.some.inj hr)
  | callbackReturns loop => exact callbackReturns_began h hr
  | send | shutdown | forceClose | store | push =>
    simp only [NetLayer.act, Event.loop] at hr
    exact (userCall_calm hr).began

end NetLayer
end Chater.Net
