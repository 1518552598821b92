import Chater.Gateway.Registries

/-!
# The registries along a run

Every step of the gateway server keeps the agreement of the registries with the records of the net layer: a step of the
net layer begins one callback at most, and a heartbeat closes the connections whose entries it takes.
-/

namespace Chater.Gateway

open Net Foundations
open scoped List

set_option autoImplicit false

/-! ## Connections that are up -/

section Stages

variable {s t : NetLayer} {fd : ℕ} {c : Conn}

theorem callbacksOf_cases (h : NetLayer.Lives none s) (fd : ℕ) :
    s.callbacksOf fd = [] ∨ s.callbacksOf fd = [true] ∨ s.callbacksOf fd = [true, false] := by
  cases hc : s.conns fd with
  | none => exact .inl (by rw [NetLayer.callbacksOf, hc]; rfl)
  | some c =>
    obtain ⟨st, hst, -⟩ := h.stages fd c (by simp) hc
    rw [NetLayer.callbacksOf_of_conns hc, hst.callbacks]
    cases st <;> simp [NetLayer.Stage.callbacks]

theorem statesOf_of_connected (h : NetLayer.Lives none s) (hc : s.conns fd = some c)
    (hstate : c.conn.state = .kConnected) : s.statesOf fd = connectedStates := by
  obtain ⟨st, hst, -⟩ := h.stages fd c (by simp) hc
  have hstates := hst.states
  rw [NetLayer.statesOf_of_conns hc]
  rw [hst.state] at hstate
  cases st with
  | connected => exact List.mem_singleton.mp hstates
  | _ => cases hstate

theorem connected_of_statesOf (h : NetLayer.Lives none s) (hfd : s.statesOf fd = connectedStates) :
    ∃ c, s.conns fd = some c ∧ c.conn.state = .kConnected ∧ s.callbacksOf fd = [true] := by
  cases hc : s.conns fd with
  | none =>
    rw [NetLayer.statesOf, hc] at hfd
    cases hfd
  | some c =>
    obtain ⟨st, hst, -⟩ := h.stages fd c (by simp) hc
    have hstates := hst.states
    rw [NetLayer.statesOf_of_conns hc] at hfd
    refine ⟨c, rfl, ?_⟩
    rw [NetLayer.callbacksOf_of_conns hc, hst.callbacks, hst.state]
    rw [hfd] at hstates
    revert hstates
    cases st <;> decide

/-- Between its up and its down callback a connection is open, and the server's map holds it. -/
theorem open_of_up (h : NetLayer.Lives none s) (hfd : s.callbacksOf fd = [true]) :
    ∃ c, s.conns fd = some c ∧ c.conn.state.isOpen = true ∧ connectedStates <+: s.statesOf fd ∧ holds s fd = true := by
  cases hc : s.conns fd with
  | none =>
    rw [NetLayer.callbacksOf, hc] at hfd
    cases hfd
  | some c =>
    obtain ⟨st, hst, hplaced⟩ := h.stages fd c (by simp) hc
    have hstates := hst.states
    have hentry := hplaced.entry
    rw [NetLayer.callbacksOf_of_conns hc, hst.callbacks] at hfd
    rw [NetLayer.statesOf_of_conns hc, holds, hc, Option.any_some, beq_iff_eq, hentry]
    refine ⟨c, rfl, ?_⟩
    rw [hst.state]
    cases st with
    | connected | disconnecting =>
      rw [List.mem_singleton.mp hstates]
      exact ⟨rfl, by decide, rfl⟩
    | _ => cases hfd

/-- Without its up callback a connection does not become connected. -/
theorem connectedStates_before (h : NetLayer.Lives none s) (h' : NetLayer.Lives none t)
    (hcallbacks : t.callbacksOf fd = s.callbacksOf fd) (hstates : s.statesOf fd <+: t.statesOf fd)
    (hfd : t.statesOf fd = connectedStates) : s.statesOf fd = connectedStates := by
  obtain ⟨-, -, -, hup⟩ := connected_of_statesOf h' hfd
  obtain ⟨-, -, -, hlong, -⟩ := open_of_up h (hcallbacks ▸ hup)
  rw [hfd] at hstates
  exact hstates.eq_of_length (le_antisymm hstates.length_le hlong.length_le)

/-- `connectionCallback_` is called twice at most, first up and then down. -/
theorem callback_cases (h : NetLayer.Lives none s) (h' : NetLayer.Lives none t) {connected : Bool}
    (hfd : t.callbacksOf fd = s.callbacksOf fd ++ [connected]) :
    s.callbacksOf fd = [] ∧ connected = true ∨ s.callbacksOf fd = [true] ∧ connected = false := by
  have hafter := callbacksOf_cases h' fd
  rw [hfd] at hafter
  obtain hbefore | hbefore | hbefore := callbacksOf_cases h fd
  all_goals
    rw [hbefore] at hafter ⊢
    revert hafter
    cases connected <;> decide

end Stages

/-! ## The step of a callback -/

namespace GatewayServer

variable {s t : NetLayer} {fd : ℕ} {rest : List Effect} {now : ℤ}

theorem begun_of_entered (hnone : (s.loops 0).callback = none) (hentered : (t.loops 0).callback = some (fd, rest)) :
    begun 0 s t = some fd := by
  rw [begun, hnone, hentered]

theorem begun_eq_none
    (h : (t.loops 0).callback = (s.loops 0).callback ∨ (t.loops 0).callback = none) : begun 0 s t = none := by
  unfold begun
  cases hs : (s.loops 0).callback with
  | some x => rfl
  | none =>
    rw [hs, or_self] at h
    rw [h]

theorem react_connection (e : NetLayer.Event) (r : Registries) {connected : Bool} (hbegun : begun 0 s t = some fd)
    (hcallbacks : t.callbacksOf fd = s.callbacksOf fd ++ [connected]) :
    react s e t now r = r.onConnection fd connected now := by
  simp only [react, hbegun, hcallbacks]
  rw [if_pos (by simp)]
  cases connected <;> simp

variable {cfg : NetLayer.Config} {timeoutSec : ℤ} {g : GatewayServer}

/-- What the steps keep. -/
structure Good (cfg : NetLayer.Config) (g : GatewayServer) : Prop where
  lives : NetLayer.Lives none g.net
  affine : NetLayer.Affine cfg 0 g.net
  own : ∀ fd loop, g.net.loopOf fd = some loop → loop = 0
  agree : Agree g.reg g.net.callbacksOf g.net.statesOf

theorem agree_react (h : Agree g.reg g.net.callbacksOf g.net.statesOf) (hlives : NetLayer.Lives none g.net)
    (hlives' : NetLayer.Lives none t) {e : NetLayer.Event} (hbegan : NetLayer.Began 0 g.net e t) :
    Agree (react g.net e t now g.reg) t.callbacksOf t.statesOf := by
  have hgrow : t.callbacksOf = g.net.callbacksOf → (∀ fd, g.net.statesOf fd <+: t.statesOf fd) →
      Agree g.reg t.callbacksOf t.statesOf := by
    intro hcallbacks hstates
    rw [hcallbacks]
    exact h.grow fun j hj => connectedStates_before hlives hlives' (congrFun hcallbacks j) (hstates j) hj
  cases hbegan with
  | nothing hcallbacks hstates hentered =>
    simp only [react, begun_eq_none (hentered 0)]
    exact hgrow hcallbacks hstates
  | message loop fd results rest he hloop hnone hup hcallbacks hstates hentered =>
    obtain rfl := Nat.le_zero.mp hloop
    simp only [react, begun_of_entered hnone hentered, hcallbacks, ne_eq, not_true_eq_false, if_false, he]
    have hgrown := hgrow hcallbacks hstates
    rw [hcallbacks] at hgrown
    exact hgrown.message hup
  | written loop fd result he hloop hnone hcallbacks hstates hentered =>
    obtain rfl := Nat.le_zero.mp hloop
    simp only [react, begun_of_entered hnone hentered, hcallbacks, ne_eq, not_true_eq_false, if_false, he]
    have hgrown := hgrow hcallbacks hstates
    rwa [hcallbacks] at hgrown
  | connection loop fd connected rest hloop hnone hcallbacks hstates hentered =>
    obtain rfl := Nat.le_zero.mp hloop
    have hfd : t.callbacksOf fd = g.net.callbacksOf fd ++ [connected] := by rw [hcallbacks, Function.update_self]
    have hothers : ∀ j, j ≠ fd → t.statesOf j = connectedStates → g.net.statesOf j = connectedStates := by
      intro j hj
      refine connectedStates_before hlives hlives' ?_ (hstates j)
      rw [hcallbacks, Function.update_of_ne hj]
    rw [react_connection e g.reg (begun_of_entered hnone hentered) hfd]
    obtain ⟨hbefore, rfl⟩ | ⟨hbefore, rfl⟩ := callback_cases hlives hlives' hfd
    · rw [hcallbacks, hbefore]
      exact h.opened hbefore hothers
    · have hdown : t.statesOf fd ≠ connectedStates := by
        intro hconnected
        obtain ⟨-, -, -, hup⟩ := connected_of_statesOf hlives' hconnected
        rw [hfd, hbefore] at hup
        cases hup
      rw [hcallbacks, hbefore]
      exact h.closed hbefore hdown hothers

theorem Good.net (h : Good cfg g) {e : NetLayer.Event} (hassumed : NetLayer.Assumed (.ok g.net) e)
    {r : Except Failure NetLayer} (hr : NetLayer.act cfg 0 g.net e = some r) :
    ∃ net, r = .ok net ∧ Good cfg ⟨net, react g.net e net now g.reg⟩ := by
  obtain ⟨net, rfl, hlives⟩ := h.lives.act h.affine hassumed hr
  obtain ⟨owner, howner, hkeeps⟩ := h.affine.keeps.act hr
  refine ⟨net, rfl, hlives, hkeeps.1, ?_, agree_react h.agree h.lives hlives (NetLayer.act_began h.lives h.affine hr)⟩
  rw [hkeeps.2]
  obtain rfl | ⟨fd, rfl⟩ := howner
  · exact h.own
  · intro j loop hj
    by_cases hjfd : j = fd
    · rw [hjfd, Function.update_self] at hj
      exact (Option.some.inj hj).symm
    · rw [Function.update_of_ne hjfd] at hj
      exact h.own j loop hj

/-! ## The heartbeat timer -/

/-- `ForceClose` in the loop thread, of an open connection. -/
def closing (s : NetLayer) (fd : ℕ) (c : Conn) : NetLayer :=
  (s.setConn fd { c.conn with state := .kDisconnecting }).queueInLoop 0 (.conn fd .forceCloseInLoop)

theorem runHandler_forceClose {c : Conn} (hplaced : (s.loops 0).poller.channel fd = c.conn.channel) (hloop : c.loop = 0)
    (hopen : c.conn.state.isOpen = true) : s.runHandler 0 fd c c.conn.forceClose = .ok (closing s fd c) := by
  rw [TcpConnection.forceClose, if_pos (State.isOpen_iff.mp hopen), NetLayer.runHandler, hloop,
    NetLayer.assertInLoopThread_self, NetLayer.followChannel, if_pos hplaced.symm]
  rfl

theorem calm_closing (s : NetLayer) (fd : ℕ) (c : Conn) : NetLayer.Calm s (closing s fd c) :=
  (NetLayer.calm_setConn ..).trans (NetLayer.calm_queueInLoop ..)

/-- A connection that the timer closes leaves `kConnected`, and its down callback comes later. -/
theorem Good.forceClose (h : Good cfg g) (hfd : g.net.callbacksOf fd = [true]) :
    ∃ c, g.net.conns fd = some c ∧ g.net.userCall (.forceClose 0 fd) = some (.ok (closing g.net fd c)) ∧
      NetLayer.Lives none (closing g.net fd c) ∧ NetLayer.Affine cfg 0 (closing g.net fd c) ∧
      (closing g.net fd c).loopOf = g.net.loopOf ∧ (closing g.net fd c).statesOf fd ≠ connectedStates := by
  obtain ⟨c, hc, hopen, -⟩ := open_of_up h.lives hfd
  have hloop : c.loop = 0 := h.own fd c.loop (NetLayer.loopOf_of_conns hc)
  obtain ⟨st, -, hplaced⟩ := h.lives.stages fd c (by simp) hc
  have hcall : g.net.userCall (.forceClose 0 fd) = some (.ok (closing g.net fd c)) := by
    have hstate : ¬ (c.conn.state ≠ .kConnected ∧ c.conn.state ≠ .kDisconnecting) :=
      not_and_or.mpr ((State.isOpen_iff.mp hopen).imp not_not.mpr not_not.mpr)
    simp only [NetLayer.userCall, hc, Option.bind_some, if_neg hstate, if_pos hloop.symm]
    rw [runHandler_forceClose (hloop ▸ hplaced.channel) hloop hopen]
  obtain ⟨t, ht, hlives⟩ := h.lives.forceClose (hloop ▸ NetLayer.loopOf_of_conns hc) hcall
  obtain rfl := Except.ok.inj ht
  obtain ⟨haffine, hown⟩ := h.affine.keeps.userCall hcall
  refine ⟨c, hc, hcall, hlives, haffine, hown, fun hconnected => ?_⟩
  obtain ⟨c', hc', hstate, -⟩ := connected_of_statesOf hlives hconnected
  have hself : (closing g.net fd c).conns fd = some (c.setConn { c.conn with state := .kDisconnecting }) :=
    NetLayer.conns_modifyConn_self hc _
  rw [hself] at hc'
  rw [← Option.some.inj hc'] at hstate
  cases hstate

/-- The entry of `lastHeartbeats_` is older than the timeout. -/
def Expired (timeoutSec now : ℤ) (g : GatewayServer) (connId : ℤ) : Prop :=
  ∃ last, g.reg.lastHeartbeats.lookup connId = some last ∧ timeoutSec * 1000 < now - last

/-- What the timer does for one entry. -/
inductive Reaped (timeoutSec now : ℤ) (g : GatewayServer) (connId : ℤ) : GatewayServer → Prop
  | kept (hfresh : ¬ Expired timeoutSec now g connId) : Reaped timeoutSec now g connId g
  | closed (fd : ℕ) (c : Conn) (hexpired : Expired timeoutSec now g connId) (hup : g.net.callbacksOf fd = [true])
      (hid : g.reg.connIds fd = connId) (hc : g.net.conns fd = some c)
      (hcall : g.net.userCall (.forceClose 0 fd) = some (.ok (closing g.net fd c))) :
      Reaped timeoutSec now g connId ⟨closing g.net fd c, (g.reg.removeSession connId).eraseHeartbeat connId⟩

theorem Good.reap (h : Good cfg g) (timeoutSec now connId : ℤ) :
    ∃ g', GatewayServer.reap timeoutSec now g connId = .ok g' ∧ Good cfg g' ∧ Reaped timeoutSec now g connId g' := by
  unfold GatewayServer.reap
  cases hlast : g.reg.lastHeartbeats.lookup connId with
  | none =>
    refine ⟨g, rfl, h, .kept ?_⟩
    rintro ⟨last, hsome, -⟩
    rw [hlast] at hsome
    cases hsome
  | some last =>
    simp only
    split_ifs with htimeout
    · obtain ⟨fd, hlookup⟩ := Finmap.mem_iff.mp (h.agree.heartbeats _ (Finmap.mem_of_lookup_eq_some hlast))
      obtain ⟨hup, hid⟩ := (h.agree.entry connId fd).mp hlookup
      obtain ⟨-, -, -, -, hholds⟩ := open_of_up h.lives hup
      obtain ⟨c, hc, hcall, hlives, haffine, hown, hdown⟩ := h.forceClose hup
      have hcalm := calm_closing g.net fd c
      rw [getConnection, hlookup, Option.filter_some, if_pos hholds]
      simp only [GatewayServer.forceClose, hcall]
      refine ⟨_, rfl, ⟨hlives, haffine, hown ▸ h.own, ?_⟩, .closed fd c ⟨last, hlast, htimeout⟩ hup hid hc hcall⟩
      show Agree _ (closing g.net fd c).callbacksOf (closing g.net fd c).statesOf
      rw [hcalm.callbacks, ← hid]
      refine h.agree.reaped hup hdown fun j _ => ?_
      exact connectedStates_before h.lives hlives (congrFun hcalm.callbacks j) (hcalm.states j)
    · refine ⟨g, rfl, h, .kept ?_⟩
      rintro ⟨last', hsome, hlate⟩
      obtain rfl := Option.some.inj (hlast.symm.trans hsome)
      exact htimeout hlate

theorem Good.foldlM_reap (h : Good cfg g) (timeoutSec now : ℤ) (ids : List ℤ) :
    ∃ g', ids.foldlM (GatewayServer.reap timeoutSec now) g = .ok g' ∧ Good cfg g' := by
  induction ids generalizing g with
  | nil => exact ⟨g, rfl, h⟩
  | cons id ids ih =>
    obtain ⟨m, hm, hgood, -⟩ := h.reap timeoutSec now id
    rw [List.foldlM_cons, hm]
    exact ih hgood

/-! ## Runs -/

/-- What the net layer assumes of its steps.  The timer runs at any time between two handlers. -/
def Assumed : Except Failure GatewayServer → Event → Prop
  | .ok g, .net e _ => NetLayer.Assumed (.ok g.net) e
  | _, _ => True

instance : (x : Except Failure GatewayServer) → (e : Event) → Decidable (Assumed x e)
  | .ok g, .net e _ => inferInstanceAs (Decidable (NetLayer.Assumed (.ok g.net) e))
  | .ok _, .heartbeat _ | .error _, _ => .isTrue trivial

theorem start_good (cfg : NetLayer.Config) : Good cfg (start cfg) where
  lives := NetLayer.start_lives cfg 0
  affine := (NetLayer.start_keeps cfg 0).1
  own _ _ h := by cases h
  agree := Agree.start

theorem Good.step (h : Good cfg g) {e : Event} (hassumed : Assumed (.ok g) e) {r : Except Failure GatewayServer}
    (hr : GatewayServer.step cfg timeoutSec (.ok g) e = some r) : ∃ g', r = .ok g' ∧ Good cfg g' := by
  cases e with
  | net e now =>
    obtain ⟨x, hx, rfl⟩ := Option.map_eq_some_iff.mp hr
    obtain ⟨net, rfl, hgood⟩ := h.net hassumed hx
    exact ⟨_, rfl, hgood⟩
  | heartbeat now =>
    simp only [GatewayServer.step, act] at hr
    split_ifs at hr
    obtain rfl := Option.some.inj hr
    exact h.foldlM_reap timeoutSec now _

/-- A connection is up from the first record of its callbacks to the second. -/
structure Consistent (g : GatewayServer) : Prop where
  distinct : ∀ fd fd', g.net.callbacksOf fd ≠ [] → g.net.callbacksOf fd' ≠ [] →
    g.reg.connIds fd = g.reg.connIds fd' → fd = fd'
  entry : ∀ connId fd,
    g.reg.connections.lookup connId = some fd ↔ g.net.callbacksOf fd = [true] ∧ g.reg.connIds fd = connId
  found : ∀ connId fd,
    g.getConnection connId = some fd ↔ g.net.callbacksOf fd = [true] ∧ g.reg.connIds fd = connId
  sessions : ∀ connId ∈ g.reg.sessions, connId ∈ g.reg.connections
  heartbeats : ∀ connId ∈ g.reg.lastHeartbeats, connId ∈ g.reg.connections
  connected : ∀ fd c, g.net.conns fd = some c → c.conn.state = .kConnected →
    g.reg.connIds fd ∈ g.reg.connections ∧ g.reg.connIds fd ∈ g.reg.sessions ∧ g.reg.connIds fd ∈ g.reg.lastHeartbeats
  closed : ∀ fd, false ∈ g.net.callbacksOf fd →
    g.reg.connIds fd ∉ g.reg.connections ∧ g.reg.connIds fd ∉ g.reg.sessions ∧ g.reg.connIds fd ∉ g.reg.lastHeartbeats

theorem Good.consistent (h : Good cfg g) : Consistent g := by
  refine ⟨h.agree.distinct, h.agree.entry, fun id fd => ?_, h.agree.sessions, h.agree.heartbeats,
    fun fd c hc hstate => ?_, fun fd hdown => ?_⟩
  · rw [getConnection, Option.filter_eq_some_iff, h.agree.entry]
    refine and_iff_left_of_imp fun hup => ?_
    obtain ⟨-, -, -, -, hholds⟩ := open_of_up h.lives hup.1
    exact hholds
  · have hstates := statesOf_of_connected h.lives hc hstate
    have hup := h.agree.up fd hstates
    exact ⟨h.agree.mem_connections hup, h.agree.connected fd hstates⟩
  · have hgone : g.reg.connIds fd ∉ g.reg.connections := by
      refine h.agree.not_mem_connections (List.ne_nil_of_mem hdown) fun hup => ?_
      rw [hup] at hdown
      simp at hdown
    exact ⟨hgone, fun hmem => hgone (h.agree.sessions _ hmem), fun hmem => hgone (h.agree.heartbeats _ hmem)⟩

/-- **The registries are consistent.**  In every run, and whatever the order of accepts, data, heartbeats, protocol
errors, closes and functors, no assertion fails and the three registries are consistent after every step. -/
theorem registries_consistent {es : List Event} {r : Except Failure GatewayServer}
    (hes : Meets (step cfg timeoutSec) Assumed (.ok (start cfg)) es)
    (hrun : runFrom (step cfg timeoutSec) (.ok (start cfg)) es = some r) : ∃ g, r = .ok g ∧ Consistent g := by
  have hkeep : ∀ x e y, (∃ g, x = .ok g ∧ Good cfg g) → Assumed x e → step cfg timeoutSec x e = some y →
      ∃ g, y = .ok g ∧ Good cfg g := by
    rintro x e y ⟨g, rfl, hgood⟩ hassumed hy
    exact hgood.step hassumed hy
  obtain ⟨g, rfl, hgood⟩ := invariant_of_meets hkeep hes ⟨_, rfl, start_good cfg⟩ hrun
  exact ⟨g, rfl, hgood.consistent⟩

/-- Descriptor 7 is accepted; a byte is reported and the timer runs late, before the byte is read. -/
def timedOut : List Event :=
  let results : NetLayer.Results := ⟨some 7, .bytes [65], .wrote 0, id⟩
  [.net .start 0, .net (.poll 0 [(3, EPOLLIN)]) 0, .net (.handle 0 results) 0, .net (.callbackReturns 0) 0,
    .net (.handle 0 results) 0, .net (.doPendingFunctors 0) 0, .net (.endFunctors 0) 0,
    .net (.poll 0 [(7, EPOLLIN)]) 0, .heartbeat 61000, .net (.handle 0 results) 61000]

/-- The timer has taken the session, and the byte has brought the heartbeat back. -/
theorem registries_consistent_timedOut :
    ∃ g, runFrom (step NetLayer.sampleConfig 60) (.ok (start NetLayer.sampleConfig)) timedOut = some (.ok g) ∧
      (1 ∈ g.reg.connections ∧ 1 ∉ g.reg.sessions ∧ 1 ∈ g.reg.lastHeartbeats) ∧ Consistent g := by
  have hend : ((runFrom (step NetLayer.sampleConfig 60) (.ok (start NetLayer.sampleConfig)) timedOut).bind fun r =>
      r.toOption.map fun g =>
        decide (1 ∈ g.reg.connections ∧ 1 ∉ g.reg.sessions ∧ 1 ∈ g.reg.lastHeartbeats)) = some true := by
    decide +kernel
  have hmeets : Meets (step NetLayer.sampleConfig 60) Assumed (.ok (start NetLayer.sampleConfig)) timedOut := by
    decide +kernel
  obtain ⟨r, hrun, hr⟩ := Option.bind_eq_some_iff.mp hend
  obtain ⟨g, rfl, hconsistent⟩ := registries_consistent hmeets hrun
  exact ⟨g, hrun, of_decide_eq_true (Option.some.inj hr), hconsistent⟩

end GatewayServer
end Chater.Gateway
