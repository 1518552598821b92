import Chater.Gateway.RegistryRuns
import Chater.Net.LoopQueues

/-!
# What a heartbeat tick closes

A tick walks `lastHeartbeats_` and takes entries as it goes.  The map is kept by three handlers: an up callback and
`OnMessage` write the clock, a down callback erases.  So long as a connection is up its entry is the time it was last
heard of, except between the tick that closes it and the end of the same pass of the loop: the functor
`ForceCloseInLoop` is then due before the loop polls again, and the timer's channel is handled once in a pass.  What
arrives in between may bring the entry back; it is the time of that message then.
-/

namespace Chater.Gateway.GatewayServer

open Net Foundations
open scoped List

set_option autoImplicit false

/-! ## The sweep over the entries -/

section Sweep

variable {cfg : NetLayer.Config} {timeoutSec now : ℤ} {g g' : GatewayServer} {fd : ℕ} {closed : List ℕ} {c : Conn}

/-- `ForceClose` is called on each of the connections in turn. -/
inductive ForceCloses : NetLayer → List ℕ → NetLayer → Prop
  | nil (s : NetLayer) : ForceCloses s [] s
  | cons {s t u : NetLayer} {fd : ℕ} {fds : List ℕ} (hcall : s.userCall (.forceClose 0 fd) = some (.ok t))
      (hrest : ForceCloses t fds u) : ForceCloses s (fd :: fds) u

/-- The connections `closed` are closed and lose their session and their heartbeat; nothing else changes. -/
structure Swept (g : GatewayServer) (closed : List ℕ) (g' : GatewayServer) : Prop where
  calls : ForceCloses g.net closed g'.net
  conns : ∀ fd, fd ∉ closed → g'.net.conns fd = g.net.conns fd
  callbacks : g'.net.callbacksOf = g.net.callbacksOf
  phase : (g'.net.loops 0).phase = (g.net.loops 0).phase
  pending : (g'.net.loops 0).pendingFunctors =
    (g.net.loops 0).pendingFunctors ++ closed.map fun fd => .conn fd .forceCloseInLoop
  sessions : ∀ connId, g'.reg.sessions.lookup connId =
    if connId ∈ closed.map g.reg.connIds then none else g.reg.sessions.lookup connId
  heartbeats : ∀ connId, g'.reg.lastHeartbeats.lookup connId =
    if connId ∈ closed.map g.reg.connIds then none else g.reg.lastHeartbeats.lookup connId
  connections : g'.reg.connections = g.reg.connections
  connIds : g'.reg.connIds = g.reg.connIds
  nextConnId : g'.reg.nextConnId = g.reg.nextConnId

theorem Swept.refl (g : GatewayServer) : Swept g [] g :=
  ⟨.nil g.net, fun _ _ => rfl, rfl, rfl, by simp, by simp, by simp, rfl, rfl, rfl⟩

theorem conns_closing (s : NetLayer) {j : ℕ} (hj : j ≠ fd) : (closing s fd c).conns j = s.conns j :=
  NetLayer.conns_modifyConn_of_ne s hj _

theorem phase_closing (s : NetLayer) : ((closing s fd c).loops 0).phase = (s.loops 0).phase := by
  rw [closing, NetLayer.queueInLoop, NetLayer.loops_modifyLoop_self]
  rfl

theorem pendingFunctors_closing (s : NetLayer) :
    ((closing s fd c).loops 0).pendingFunctors = (s.loops 0).pendingFunctors ++ [.conn fd .forceCloseInLoop] := by
  rw [closing, NetLayer.queueInLoop, NetLayer.loops_modifyLoop_self]
  rfl

theorem lookup_erase_ite {α : Type} (m : Finmap fun _ : ℤ => α) (id connId : ℤ) :
    (m.erase id).lookup connId = if connId = id then none else m.lookup connId := by
  split_ifs with h
  · rw [h, Finmap.lookup_erase]
  · exact Finmap.lookup_erase_ne h

theorem Swept.cons (hcall : g.net.userCall (.forceClose 0 fd) = some (.ok (closing g.net fd c)))
    (h : Swept ⟨closing g.net fd c, (g.reg.removeSession (g.reg.connIds fd)).eraseHeartbeat (g.reg.connIds fd)⟩ closed
      g') :
    Swept g (fd :: closed) g' := by
  refine ⟨.cons hcall h.calls, fun j hj => ?_, ?_, ?_, ?_, fun id => ?_, fun id => ?_, h.connections, h.connIds,
    h.nextConnId⟩
  · rw [List.mem_cons, not_or] at hj
    rw [h.conns j hj.2]
    exact conns_closing g.net hj.1
  · rw [h.callbacks]
    exact (calm_closing g.net fd c).callbacks
  · rw [h.phase]
    exact phase_closing g.net
  · rw [h.pending]
    simp only [pendingFunctors_closing, List.map_cons, List.append_assoc, List.singleton_append]
  · rw [h.sessions]
    simp only [Registries.eraseHeartbeat, Registries.removeSession, lookup_erase_ite, List.map_cons, List.mem_cons]
    split_ifs <;> tauto
  · rw [h.heartbeats]
    simp only [Registries.eraseHeartbeat, Registries.removeSession, lookup_erase_ite, List.map_cons, List.mem_cons]
    split_ifs <;> tauto

/-- The sweep closes the connections whose entries have expired, each once. -/
theorem Good.sweep (h : Good cfg g) (timeoutSec now : ℤ) {ids : List ℤ} (hids : ids.Nodup) :
    ∃ g' closed, ids.foldlM (GatewayServer.reap timeoutSec now) g = .ok g' ∧ Good cfg g' ∧ Swept g closed g' ∧
      closed.Nodup ∧ ∀ fd, fd ∈ closed ↔
        g.net.callbacksOf fd = [true] ∧ g.reg.connIds fd ∈ ids ∧ Expired timeoutSec now g (g.reg.connIds fd) := by
  induction ids generalizing g with
  | nil => exact ⟨g, [], rfl, h, .refl g, .nil, by simp⟩
  | cons id ids ih =>
    obtain ⟨hid, hids⟩ := List.nodup_cons.mp hids
    obtain ⟨m, hm, hgood, hreaped⟩ := h.reap timeoutSec now id
    obtain ⟨g', closed, hrest, hgood', hswept, hnodup, hmem⟩ := ih hgood hids
    rw [List.foldlM_cons, hm]
    cases hreaped with
    | kept hfresh =>
      refine ⟨g', closed, hrest, hgood', hswept, hnodup, fun fd => ?_⟩
      rw [hmem, List.mem_cons]
      have hother : Expired timeoutSec now g (g.reg.connIds fd) → g.reg.connIds fd ≠ id :=
        fun hexpired heq => hfresh (heq ▸ hexpired)
      tauto
    | closed fd c hexpired hup hconnId hc hcall =>
      subst hconnId
      have hcalm := calm_closing g.net fd c
      have hsame : ∀ j, j ∈ closed ↔
          g.net.callbacksOf j = [true] ∧ g.reg.connIds j ∈ ids ∧ Expired timeoutSec now g (g.reg.connIds j) := by
        intro j
        rw [hmem, hcalm.callbacks]
        refine and_congr_right fun _ => and_congr_right fun hj => ?_
        have hne : g.reg.connIds j ≠ g.reg.connIds fd := fun heq => hid (heq ▸ hj)
        simp only [Expired, Registries.eraseHeartbeat, Registries.removeSession, Finmap.lookup_erase_ne hne]
      refine ⟨g', fd :: closed, hrest, hgood', hswept.cons hcall, List.nodup_cons.mpr ⟨?_, hnodup⟩, fun j => ?_⟩
      · exact fun hfd => hid ((hsame fd).mp hfd).2.1
      · rw [List.mem_cons, hsame, List.mem_cons]
        constructor
        · rintro (rfl | ⟨hj, hin, hlate⟩)
          · exact ⟨hup, .inl rfl, hexpired⟩
          · exact ⟨hj, .inr hin, hlate⟩
        · rintro ⟨hj, heq | hin, hlate⟩
          · exact .inl (h.agree.distinct j fd (by simp [hj]) (by simp [hup]) heq)
          · exact .inr ⟨hj, hin, hlate⟩

/-- A tick sweeps every entry of the map. -/
theorem Good.onHeartbeat (h : Good cfg g) (timeoutSec now : ℤ) :
    ∃ g' closed, GatewayServer.onHeartbeat timeoutSec now g = .ok g' ∧ Good cfg g' ∧ Swept g closed g' ∧
      closed.Nodup ∧ ∀ fd, fd ∈ closed ↔
        g.net.callbacksOf fd = [true] ∧ Expired timeoutSec now g (g.reg.connIds fd) := by
  obtain ⟨g', closed, hfold, hgood, hswept, hnodup, hmem⟩ :=
    h.sweep timeoutSec now (g.reg.lastHeartbeats.keys.sort_nodup (· ≤ ·))
  refine ⟨g', closed, hfold, hgood, hswept, hnodup, fun fd => ?_⟩
  rw [hmem]
  refine and_congr_right fun _ => and_iff_right_of_imp ?_
  rintro ⟨last, hlast, -⟩
  exact (Finset.mem_sort _).mpr (Finmap.mem_keys.mpr (Finmap.mem_of_lookup_eq_some hlast))

end Sweep

/-! ## When a connection was last heard of -/

/-- The times `seen` after the callback begun by a step: an up callback and `messageCallback_` are heard of at `now`. -/
def hear (before : NetLayer) (e : NetLayer.Event) (after : NetLayer) (now : ℤ) (seen : ℕ → Option ℤ) : ℕ → Option ℤ :=
  match begun 0 before after with
  | none => seen
  | some fd =>
    if after.callbacksOf fd ≠ before.callbacksOf fd then
      if (after.callbacksOf fd).getLast? == some true then Function.update seen fd (some now) else seen
    else
      match e with
      | .handle _ _ => Function.update seen fd (some now)
      | _ => seen

/-- The entry of the connection is the time it was last heard of. -/
def Marked (r : Registries) (seen : ℕ → Option ℤ) (fd : ℕ) : Prop :=
  ∃ last, seen fd = some last ∧ r.lastHeartbeats.lookup (r.connIds fd) = some last

section Marked

variable {r : Registries} {seen : ℕ → Option ℤ} {callbacks : ℕ → List Bool} {fd j : ℕ} {now : ℤ}

theorem Marked.message_self (h : Entered r callbacks) (hfd : callbacks fd = [true]) :
    Marked (r.onMessage fd now) (Function.update seen fd (some now)) fd := by
  rw [Registries.onMessage, if_pos (h.connIds_pos hfd)]
  exact ⟨now, Function.update_self .., Finmap.lookup_insert _⟩

theorem Marked.message_of_ne (hj : Marked r seen j) (h : Entered r callbacks) (hfd : callbacks fd = [true])
    (hup : callbacks j = [true]) (hne : j ≠ fd) :
    Marked (r.onMessage fd now) (Function.update seen fd (some now)) j := by
  obtain ⟨last, hseen, hlookup⟩ := hj
  have hids := h.connIds_ne hup hfd hne
  rw [Registries.onMessage, if_pos (h.connIds_pos hfd)]
  exact ⟨last, (Function.update_of_ne hne ..).trans hseen, (Finmap.lookup_insert_of_ne _ hids).trans hlookup⟩

theorem Marked.up_self : Marked (r.onConnection fd true now) (Function.update seen fd (some now)) fd := by
  obtain ⟨sessions, -, heq⟩ := onConnection_up r fd now
  rw [heq]
  refine ⟨now, Function.update_self .., ?_⟩
  show (r.lastHeartbeats.insert r.nextConnId now).lookup (Function.update r.connIds fd r.nextConnId fd) = some now
  rw [Function.update_self, Finmap.lookup_insert]

theorem Marked.up_of_ne (hj : Marked r seen j) (h : Entered r callbacks) (hup : callbacks j = [true]) (hne : j ≠ fd) :
    Marked (r.onConnection fd true now) (Function.update seen fd (some now)) j := by
  obtain ⟨last, hseen, hlookup⟩ := hj
  obtain ⟨sessions, -, heq⟩ := onConnection_up r fd now
  have hids := (h.ids j (by simp [hup])).2
  rw [heq]
  refine ⟨last, (Function.update_of_ne hne ..).trans hseen, ?_⟩
  show (r.lastHeartbeats.insert r.nextConnId now).lookup (Function.update r.connIds fd r.nextConnId j) = some last
  rw [Function.update_of_ne hne, Finmap.lookup_insert_of_ne _ (by omega), hlookup]

theorem Marked.down_of_ne (hj : Marked r seen j) (h : Entered r callbacks) (hfd : callbacks fd = [true])
    (hup : callbacks j = [true]) (hne : j ≠ fd) : Marked (r.onConnection fd false now) seen j := by
  obtain ⟨last, hseen, hlookup⟩ := hj
  have hids := h.connIds_ne hup hfd hne
  simp only [Registries.onConnection, Bool.false_eq_true, if_false, if_pos (h.connIds_pos hfd)]
  exact ⟨last, hseen, (Finmap.lookup_erase_ne hids).trans hlookup⟩

end Marked

variable {cfg : NetLayer.Config} {timeoutSec now : ℤ} {g : GatewayServer} {s t : NetLayer} {fd : ℕ}

theorem hear_connection (e : NetLayer.Event) (seen : ℕ → Option ℤ) {connected : Bool} (hbegun : begun 0 s t = some fd)
    (hcallbacks : t.callbacksOf fd = s.callbacksOf fd ++ [connected]) :
    hear s e t now seen = if connected then Function.update seen fd (some now) else seen := by
  simp only [hear, hbegun, hcallbacks]
  rw [if_pos (by simp)]
  cases connected <;> simp

/-- A step of the net layer marks the connection it is about and keeps the marks of the others. -/
theorem Good.hear (h : Good cfg g) (now : ℤ) (seen : ℕ → Option ℤ) (hlives : NetLayer.Lives none t) {e : NetLayer.Event}
    (hbegan : NetLayer.Began 0 g.net e t) (hup : t.callbacksOf fd = [true]) :
    Marked (react g.net e t now g.reg) (GatewayServer.hear g.net e t now seen) fd ∨
      g.net.callbacksOf fd = [true] ∧
        (Marked g.reg seen fd → Marked (react g.net e t now g.reg) (GatewayServer.hear g.net e t now seen) fd) := by
  cases hbegan with
  | nothing hcallbacks hstates hentered =>
    rw [hcallbacks] at hup
    simp only [react, GatewayServer.hear, begun_eq_none (hentered 0)]
    exact .inr ⟨hup, id⟩
  | message loop fd' results rest he hloop hnone hup' hcallbacks hstates hentered =>
    obtain rfl := Nat.le_zero.mp hloop
    rw [hcallbacks] at hup
    simp only [react, GatewayServer.hear, begun_of_entered hnone hentered, hcallbacks, ne_eq, not_true_eq_false,
      if_false, he]
    by_cases hfd : fd = fd'
    · rw [hfd]
      exact .inl (Marked.message_self h.agree.toEntered hup')
    · exact .inr ⟨hup, fun hmarked => hmarked.message_of_ne h.agree.toEntered hup' hup hfd⟩
  | written loop fd' result he hloop hnone hcallbacks hstates hentered =>
    obtain rfl := Nat.le_zero.mp hloop
    rw [hcallbacks] at hup
    simp only [react, GatewayServer.hear, begun_of_entered hnone hentered, hcallbacks, ne_eq, not_true_eq_false,
      if_false, he]
    exact .inr ⟨hup, id⟩
  | connection loop fd' connected rest hloop hnone hcallbacks hstates hentered =>
    obtain rfl := Nat.le_zero.mp hloop
    have hfd' : t.callbacksOf fd' = g.net.callbacksOf fd' ++ [connected] := by rw [hcallbacks, Function.update_self]
    have hbegun := begun_of_entered hnone hentered
    rw [react_connection e g.reg hbegun hfd', hear_connection e seen hbegun hfd']
    obtain ⟨hbefore, rfl⟩ | ⟨hbefore, rfl⟩ := callback_cases h.lives hlives hfd'
    · rw [if_pos rfl]
      by_cases hfd : fd = fd'
      · rw [hfd]
        exact .inl .up_self
      · rw [hcallbacks, Function.update_of_ne hfd] at hup
        exact .inr ⟨hup, fun hmarked => hmarked.up_of_ne h.agree.toEntered hup hfd⟩
    · rw [if_neg Bool.false_ne_true]
      have hfd : fd ≠ fd' := by
        rintro rfl
        rw [hfd', hbefore] at hup
        cases hup
      rw [hcallbacks, Function.update_of_ne hfd] at hup
      exact .inr ⟨hup, fun hmarked => hmarked.down_of_ne h.agree.toEntered hbefore hup hfd⟩

/-! ## A connection that a tick has closed -/

/-- `ForceCloseInLoop` of the connection runs before the loop polls again. -/
def Closing (s : NetLayer) (fd : ℕ) : Prop := .conn fd .forceCloseInLoop ∈ s.due 0

/-- A connection that is closing is down before the loop polls again. -/
theorem Good.closing (h : Good cfg g) {e : NetLayer.Event} (hr : NetLayer.act cfg 0 g.net e = some (.ok t))
    (hup : g.net.callbacksOf fd = [true]) (hclosing : Closing g.net fd) (hup' : t.callbacksOf fd = [true]) :
    Closing t fd := by
  obtain hdue | ⟨batch, result, -, hrun⟩ := (NetLayer.act_queues hr 0).mem_due hclosing
  · exact hdue
  · -- the functor has run, and the down callback with it
    obtain ⟨c, hc, hopen, -⟩ := open_of_up h.lives hup
    have hdown := NetLayer.callbacksOf_forceCloseInLoop (s := g.net.setPhase 0 (.functors batch)) hc hopen hrun
    rw [hup'] at hdown
    have hbefore : (g.net.setPhase 0 (.functors batch)).callbacksOf fd = [true] := hup
    rw [hbefore] at hdown
    cases hdown

/-- Nothing is due in a loop that polls. -/
theorem not_closing_of_poll {reported : List (ℕ × Events)}
    (hr : NetLayer.act cfg 0 s (.poll 0 reported) = some (.ok t)) : ¬ Closing s fd := by
  intro hclosing
  cases NetLayer.act_queues hr 0 with
  | other he _ _ => exact he rfl
  | poll hphase _ =>
    rw [Closing, NetLayer.due, hphase] at hclosing
    cases hclosing

/-! ## Runs with a clock -/

/-- The server, what the clock showed last, whether the timer's channel has been handled since the loop polled last, and
when each connection was last heard of. -/
structure Timed where
  server : GatewayServer
  clock : ℤ
  ticked : Bool
  seen : ℕ → Option ℤ

namespace Timed

def start (cfg : NetLayer.Config) (clock : ℤ) : Timed := ⟨.start cfg, clock, false, fun _ => none⟩

/-- The poller reports the timer's channel anew. -/
def polls : NetLayer.Event → Bool
  | .poll 0 _ => true
  | _ => false

/-- The loop is between two handlers of the channels that are active. -/
def inHandlers (s : NetLayer) : Bool :=
  match (s.loops 0).phase with
  | .handling _ => true
  | _ => false

def act (cfg : NetLayer.Config) (timeoutSec : ℤ) (s : Timed) : Event → Option (Except Failure Timed)
  | .net e now =>
    if s.clock ≤ now then
      (GatewayServer.act cfg timeoutSec s.server (.net e now)).map fun r => r.map fun g =>
        ⟨g, now, s.ticked && !polls e, hear s.server.net e g.net now s.seen⟩
    else none
  | .heartbeat now =>
    if s.clock ≤ now ∧ inHandlers s.server.net = true ∧ s.ticked = false then
      (GatewayServer.act cfg timeoutSec s.server (.heartbeat now)).map fun r => r.map fun g => ⟨g, now, true, s.seen⟩
    else none

def step (cfg : NetLayer.Config) (timeoutSec : ℤ) : Except Failure Timed → Event → Option (Except Failure Timed)
  | .ok s, e => act cfg timeoutSec s e
  | .error _, _ => none

def Assumed : Except Failure Timed → Event → Prop
  | .ok s, e => GatewayServer.Assumed (.ok s.server) e
  | .error _, _ => True

instance : (x : Except Failure Timed) → (e : Event) → Decidable (Assumed x e)
  | .ok s, e => inferInstanceAs (Decidable (GatewayServer.Assumed (.ok s.server) e))
  | .error _, _ => .isTrue trivial

/-- What the steps keep: the entry of a connection that is up is the time it was last heard of, or it is closing. -/
structure Kept (cfg : NetLayer.Config) (s : Timed) : Prop where
  good : Good cfg s.server
  marked : ∀ fd, s.server.net.callbacksOf fd = [true] →
    Marked s.server.reg s.seen fd ∨ s.ticked = true ∧ Closing s.server.net fd

theorem start_kept (cfg : NetLayer.Config) (clock : ℤ) : Kept cfg (start cfg clock) where
  good := start_good cfg
  marked _ h := by cases h

variable {s : Timed} {now : ℤ}

theorem Kept.net (h : Kept cfg s) {e : NetLayer.Event} (hassumed : NetLayer.Assumed (.ok s.server.net) e)
    {r : Except Failure NetLayer} (hr : NetLayer.act cfg 0 s.server.net e = some r) :
    ∃ net, r = .ok net ∧ Kept cfg ⟨⟨net, react s.server.net e net now s.server.reg⟩, now, s.ticked && !polls e,
      hear s.server.net e net now s.seen⟩ := by
  obtain ⟨net, rfl, hgood⟩ : ∃ net, r = .ok net ∧ Good cfg ⟨net, react s.server.net e net now s.server.reg⟩ :=
    h.good.net hassumed hr
  refine ⟨net, rfl, hgood, fun fd hup => ?_⟩
  obtain hmarked | ⟨hbefore, hkeep⟩ :=
    h.good.hear now s.seen hgood.lives (NetLayer.act_began h.good.lives h.good.affine hr) hup
  · exact .inl hmarked
  · obtain hmarked | ⟨hticked, hclosing⟩ := h.marked fd hbefore
    · exact .inl (hkeep hmarked)
    · refine .inr ⟨?_, h.good.closing hr hbefore hclosing hup⟩
      have hpolls : polls e = false := by
        unfold polls
        split
        · exact absurd hclosing (not_closing_of_poll hr)
        · rfl
      rw [hticked, hpolls]
      rfl

/-- What a tick does at the time `now`. -/
structure Reaps (timeoutSec now : ℤ) (s s' : Timed) (closed : List ℕ) : Prop where
  expired : ∀ fd, fd ∈ closed ↔ s.server.net.callbacksOf fd = [true] ∧
    ∃ last, s.seen fd = some last ∧ timeoutSec * 1000 < now - last
  once : closed.Nodup
  swept : Swept s.server closed s'.server

theorem Kept.tick (h : Kept cfg s) (hhandlers : inHandlers s.server.net = true) (hticked : s.ticked = false)
    (timeoutSec now : ℤ) :
    ∃ g closed, GatewayServer.onHeartbeat timeoutSec now s.server = .ok g ∧
      Reaps timeoutSec now s ⟨g, now, true, s.seen⟩ closed ∧ Kept cfg ⟨g, now, true, s.seen⟩ := by
  have hmarked : ∀ fd, s.server.net.callbacksOf fd = [true] → Marked s.server.reg s.seen fd := by
    intro fd hup
    refine (h.marked fd hup).resolve_right ?_
    rintro ⟨htrue, -⟩
    rw [hticked] at htrue
    cases htrue
  obtain ⟨g, closed, hg, hgood, hswept, hnodup, hmem⟩ := h.good.onHeartbeat timeoutSec now
  refine ⟨g, closed, hg, ⟨fun fd => ?_, hnodup, hswept⟩, hgood, fun fd hup => ?_⟩
  · rw [hmem]
    refine and_congr_right fun hup => ?_
    obtain ⟨last, hseen, hlookup⟩ := hmarked fd hup
    simp only [Expired, hseen, hlookup]
  · rw [hswept.callbacks] at hup
    by_cases hfd : fd ∈ closed
    · -- its `ForceCloseInLoop` is queued, and the loop takes the queue before it polls
      right
      refine ⟨rfl, ?_⟩
      have hqueued : ServerFunctor.conn fd .forceCloseInLoop ∈ (g.net.loops 0).pendingFunctors := by
        rw [hswept.pending]
        exact List.mem_append_right _ (List.mem_map_of_mem hfd)
      unfold inHandlers at hhandlers
      unfold Closing NetLayer.due
      rw [hswept.phase]
      split at hhandlers
      · next hphase =>
        rw [hphase]
        exact hqueued
      · cases hhandlers
    · left
      obtain ⟨last, hseen, hlookup⟩ := hmarked fd hup
      refine ⟨last, hseen, ?_⟩
      have hid : s.server.reg.connIds fd ∉ closed.map s.server.reg.connIds := by
        intro hin
        obtain ⟨j, hj, hsame⟩ := List.mem_map.mp hin
        have hupj := ((hmem j).mp hj).1
        obtain rfl := h.good.agree.distinct j fd (by simp [hupj]) (by simp [hup]) hsame
        exact hfd hj
      show g.reg.lastHeartbeats.lookup (g.reg.connIds fd) = some last
      rw [hswept.connIds, hswept.heartbeats, if_neg hid, hlookup]

theorem act_heartbeat {y : Except Failure Timed} (hy : act cfg timeoutSec s (.heartbeat now) = some y) :
    inHandlers s.server.net = true ∧ s.ticked = false ∧
      y = (GatewayServer.onHeartbeat timeoutSec now s.server).map fun g => ⟨g, now, true, s.seen⟩ := by
  simp only [act, GatewayServer.act] at hy
  split_ifs at hy with htimer _
  · exact ⟨htimer.2.1, htimer.2.2, (Option.some.inj hy).symm⟩
  · cases hy

theorem act_net {e : NetLayer.Event} {y : Except Failure Timed} (hy : act cfg timeoutSec s (.net e now) = some y) :
    s.clock ≤ now ∧ ∃ r, NetLayer.act cfg 0 s.server.net e = some r ∧ y = r.map fun net =>
      ⟨⟨net, react s.server.net e net now s.server.reg⟩, now, s.ticked && !polls e,
        hear s.server.net e net now s.seen⟩ := by
  simp only [act] at hy
  split_ifs at hy with hclock
  obtain ⟨x, hx, rfl⟩ := Option.map_eq_some_iff.mp hy
  obtain ⟨r, hr, rfl⟩ := Option.map_eq_some_iff.mp hx
  exact ⟨hclock, r, hr, by cases r <;> rfl⟩

theorem Kept.step (h : Kept cfg s) {e : Event} (hassumed : Assumed (.ok s) e) {y : Except Failure Timed}
    (hy : step cfg timeoutSec (.ok s) e = some y) : ∃ s', y = .ok s' ∧ Kept cfg s' := by
  cases e with
  | net e now =>
    obtain ⟨-, r, hr, rfl⟩ := act_net hy
    obtain ⟨net, rfl, hkept⟩ := h.net hassumed hr
    exact ⟨_, rfl, hkept⟩
  | heartbeat now =>
    obtain ⟨hhandlers, hticked, rfl⟩ := act_heartbeat hy
    obtain ⟨g, closed, hg, -, hkept⟩ := h.tick hhandlers hticked timeoutSec now
    rw [hg]
    exact ⟨_, rfl, hkept⟩

theorem kept_of_run {clock : ℤ} {es : List Event} {x : Except Failure Timed}
    (hes : Meets (step cfg timeoutSec) Assumed (.ok (start cfg clock)) es)
    (hrun : runFrom (step cfg timeoutSec) (.ok (start cfg clock)) es = some x) : ∃ s, x = .ok s ∧ Kept cfg s := by
  have hkeep : ∀ x e y, (∃ s, x = .ok s ∧ Kept cfg s) → Assumed x e → step cfg timeoutSec x e = some y →
      ∃ s, y = .ok s ∧ Kept cfg s := by
    rintro x e y ⟨s, rfl, hkept⟩ hassumed hy
    exact hkept.step hassumed hy
  exact invariant_of_meets hkeep hes ⟨_, rfl, start_kept cfg clock⟩ hrun

/-- **Heartbeat reaping is exact.**  After every run, a tick at `now` calls `ForceClose` once on each connection that is
up and was last heard of more than the timeout ago, and on no other.  It takes the sessions and the heartbeat entries of
those connections and leaves every other connection, session and entry as it is. -/
theorem reaping_exact {clock : ℤ} {es : List Event} {x : Except Failure Timed}
    (hes : Meets (step cfg timeoutSec) Assumed (.ok (start cfg clock)) es)
    (hrun : runFrom (step cfg timeoutSec) (.ok (start cfg clock)) es = some x) :
    ∃ s, x = .ok s ∧ ∀ now y, step cfg timeoutSec (.ok s) (.heartbeat now) = some y →
      ∃ s' closed, y = .ok s' ∧ Reaps timeoutSec now s s' closed := by
  obtain ⟨s, rfl, hkept⟩ := kept_of_run hes hrun
  refine ⟨s, rfl, fun now y hy => ?_⟩
  obtain ⟨hhandlers, hticked, rfl⟩ := act_heartbeat hy
  obtain ⟨g, closed, hg, hreaps, -⟩ := hkept.tick hhandlers hticked timeoutSec now
  rw [hg]
  exact ⟨_, closed, rfl, hreaps⟩

/-- Descriptors 7 and 8 are accepted at the time 0 and 9 half a minute later; then the loop polls for the timer. -/
def threeAccepted : List Event :=
  let accept (fd : ℕ) (now : ℤ) : List Event :=
    let results : NetLayer.Results := ⟨some fd, .bytes [65], .wrote 0, id⟩
    [.net (.poll 0 [(3, EPOLLIN)]) now, .net (.handle 0 results) now, .net (.callbackReturns 0) now,
      .net (.handle 0 results) now, .net (.doPendingFunctors 0) now, .net (.endFunctors 0) now]
  [.net .start 0] ++ accept 7 0 ++ accept 8 0 ++ accept 9 30000 ++ [.net (.poll 0 []) 61000]

/-- A tick after 61 seconds closes 7 and 8. -/
theorem reaping_exact_threeAccepted :
    ∃ s s' closed, runFrom (step NetLayer.sampleConfig 60) (.ok (start NetLayer.sampleConfig 0)) threeAccepted =
        some (.ok s) ∧
      step NetLayer.sampleConfig 60 (.ok s) (.heartbeat 61000) = some (.ok s') ∧ Reaps 60 61000 s s' closed ∧
      7 ∈ closed ∧ 8 ∈ closed ∧ 9 ∉ closed := by
  have hend : ((runFrom (step NetLayer.sampleConfig 60) (.ok (start NetLayer.sampleConfig 0)) threeAccepted).bind
      fun r => r.toOption.map fun s =>
        decide ((step NetLayer.sampleConfig 60 (.ok s) (.heartbeat 61000)).isSome = true ∧
          (s.server.net.callbacksOf 7 = [true] ∧ s.seen 7 = some 0) ∧
          (s.server.net.callbacksOf 8 = [true] ∧ s.seen 8 = some 0) ∧ s.seen 9 = some 30000)) = some true := by
    decide +kernel
  have hmeets : Meets (step NetLayer.sampleConfig 60) Assumed (.ok (start NetLayer.sampleConfig 0)) threeAccepted := by
    decide +kernel
  obtain ⟨r, hrun, hr⟩ := Option.bind_eq_some_iff.mp hend
  obtain ⟨s, rfl, htick⟩ := reaping_exact hmeets hrun
  obtain ⟨hsome, h7, h8, h9⟩ := of_decide_eq_true (Option.some.inj hr)
  obtain ⟨y, hy⟩ := Option.isSome_iff_exists.mp hsome
  obtain ⟨s', closed, rfl, hreaps⟩ := htick 61000 y hy
  refine ⟨s, s', closed, hrun, hy, hreaps, ?_, ?_, fun h => ?_⟩
  · exact (hreaps.expired 7).mpr ⟨h7.1, 0, h7.2, by decide⟩
  · exact (hreaps.expired 8).mpr ⟨h8.1, 0, h8.2, by decide⟩
  · obtain ⟨-, last, hlast, hlate⟩ := (hreaps.expired 9).mp h
    obtain rfl := Option.some.inj (h9.symm.trans hlast)
    revert hlate
    decide

end Timed
end Chater.Gateway.GatewayServer
