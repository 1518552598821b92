import Chater.Gateway.HeartbeatReaping
import Chater.Net.TeardownRounds

/-!
# Silent clients are evicted

The heartbeat timer calls `ForceClose` on a connection that has been silent for too long.  From there on the net layer
takes it down: within six passes of the loop its down callback has run, the registries have forgotten it and the server
has destroyed it, whatever the other connections and the timer do meanwhile.
-/

namespace Chater.Gateway.GatewayServer

open Net Foundations

set_option autoImplicit false

variable {cfg : NetLayer.Config} {timeoutSec : ℤ} {fd : ℕ} {c : Conn}

/-- The timer's calls bring no connection further from its end. -/
theorem ForceCloses.lag {s t : NetLayer} {fds : List ℕ} (h : ForceCloses s fds t) (hlives : NetLayer.Lives none s)
    (haffine : NetLayer.Affine cfg 0 s) (hown : ∀ j loop, s.loopOf j = some loop → loop = 0)
    (hc : s.conns fd = some c) (hclosing : s.Closing fd c) :
    ∃ c', t.conns fd = some c' ∧ t.Closing fd c' ∧ t.lag fd ≤ s.lag fd := by
  induction h generalizing c with
  | nil s => exact ⟨c, hc, hclosing, le_rfl⟩
  | @cons s m u j fds hcall _ ih =>
    obtain ⟨d, hd, -⟩ := Option.bind_eq_some_iff.mp hcall
    have hthread : s.loopOf j = some 0 := by
      have hloop := NetLayer.loopOf_of_conns hd
      rw [hloop, hown j d.loop hloop]
    obtain ⟨m', heq, hlives'⟩ := hlives.forceClose hthread hcall
    obtain rfl := Except.ok.inj heq
    obtain ⟨haffine', hown'⟩ := haffine.keeps.userCall hcall
    have hact : NetLayer.act cfg 0 s (.forceClose 0 j) = some (.ok m) := hcall
    obtain ⟨c₁, hc₁, -, hclosing₁, hle, -⟩ := NetLayer.lag_step hlives haffine hlives' hact hc hclosing
    obtain ⟨c', hc', hclosing', hle'⟩ := ih hlives' haffine' (hown' ▸ hown) hc₁ hclosing₁
    exact ⟨c', hc', hclosing', hle'.trans hle⟩

namespace Timed

variable {s s' : Timed}

/-- A pass of the loop ends. -/
def EndsPass (e : Event) : Prop := ∃ now, e = .net (.endFunctors 0) now

/-- A step of the server, for a connection on its way down. -/
theorem Kept.lag (h : Kept cfg s) {e : Event} (hassumed : Assumed (.ok s) e) (h' : Kept cfg s')
    (hy : Timed.step cfg timeoutSec (.ok s) e = some (.ok s')) (hc : s.server.net.conns fd = some c)
    (hclosing : s.server.net.Closing fd c) :
    ∃ c', s'.server.net.conns fd = some c' ∧ s'.server.net.Closing fd c' ∧
      s'.server.net.lag fd ≤ s.server.net.lag fd ∧
      (s.server.net.lag fd ≠ 0 → EndsPass e → s'.server.net.lag fd < s.server.net.lag fd) := by
  cases e with
  | net e now =>
    obtain ⟨-, r, hr, hmap⟩ := act_net hy
    cases r with
    | error failure => cases hmap
    | ok net =>
      obtain rfl := Except.ok.inj hmap
      obtain ⟨c', hc', -, hclosing', hle, hlt⟩ :=
        NetLayer.lag_step h.good.lives h.good.affine h'.good.lives hr hc hclosing
      refine ⟨c', hc', hclosing', hle, ?_⟩
      rintro hpos ⟨now', heq⟩
      refine hlt hpos ?_
      rw [(Event.net.inj heq).1, h.good.own fd c.loop (NetLayer.loopOf_of_conns hc)]
      exact congrArg NetLayer.Event.endFunctors (ite_self _).symm
  | heartbeat now =>
    obtain ⟨hhandlers, hticked, heq⟩ := act_heartbeat hy
    obtain ⟨g, closed, hg, hreaps, -⟩ := h.tick hhandlers hticked timeoutSec now
    rw [hg] at heq
    obtain rfl := Except.ok.inj heq
    obtain ⟨c', hc', hclosing', hle⟩ :=
      hreaps.swept.calls.lag h.good.lives h.good.affine h.good.own hc hclosing
    refine ⟨c', hc', hclosing', hle, ?_⟩
    rintro - ⟨now', hnet⟩
    cases hnet

/-- The connection is destroyed and no registry knows its id. -/
structure Forgotten (g : GatewayServer) (fd : ℕ) : Prop where
  gone : ∃ c, g.net.conns fd = some c ∧ g.net.Gone fd c
  connections : g.reg.connIds fd ∉ g.reg.connections
  sessions : g.reg.connIds fd ∉ g.reg.sessions
  heartbeats : g.reg.connIds fd ∉ g.reg.lastHeartbeats

theorem Kept.forgotten (h : Kept cfg s) (hc : s.server.net.conns fd = some c) (hlag : s.server.net.lag fd = 0) :
    Forgotten s.server fd := by
  have hgone := h.good.lives.gone hc hlag
  have hdown : false ∈ s.server.net.callbacksOf fd := by
    rw [NetLayer.callbacksOf_of_conns hc, hgone.callbacks]
    decide
  obtain ⟨hconnections, hsessions, hheartbeats⟩ := h.good.consistent.closed fd hdown
  exact ⟨⟨c, hc, hgone⟩, hconnections, hsessions, hheartbeats⟩

/-- After a tick, `ForceCloseInLoop` is queued for a connection that was silent for too long. -/
theorem Kept.closing_of_silent (h : Kept cfg s) {last now : ℤ} (hup : s.server.net.callbacksOf fd = [true])
    (hseen : s.seen fd = some last) (hlate : timeoutSec * 1000 < now - last)
    (hy : Timed.step cfg timeoutSec (.ok s) (.heartbeat now) = some (.ok s')) :
    ∃ c, s'.server.net.conns fd = some c ∧ s'.server.net.Closing fd c := by
  obtain ⟨hhandlers, hticked, heq⟩ := act_heartbeat hy
  obtain ⟨g, closed, hg, hreaps, hkept⟩ := h.tick hhandlers hticked timeoutSec now
  rw [hg] at heq
  obtain rfl := Except.ok.inj heq
  have hmem : fd ∈ closed := (hreaps.expired fd).mpr ⟨hup, last, hseen, hlate⟩
  have hup' : g.net.callbacksOf fd = [true] := by rw [hreaps.swept.callbacks, hup]
  obtain ⟨c, hc, hopen, -⟩ := open_of_up hkept.good.lives hup'
  refine ⟨c, hc, .inr ⟨hopen, ?_⟩⟩
  rw [hkept.good.own fd c.loop (NetLayer.loopOf_of_conns hc), Loop.mem_queued, hreaps.swept.pending]
  exact .inr (List.mem_append_right _ (List.mem_map_of_mem hmem))

/-- A connection on its way down is destroyed six passes of the loop later. -/
theorem Kept.evicted (h : Kept cfg s) (hc : s.server.net.conns fd = some c) (hclosing : s.server.net.Closing fd c)
    {passes : List (List Event)} {x : Except Failure Timed} (hlength : passes.length = 6)
    (hpasses : ∀ pass ∈ passes, ∃ e ∈ pass, EndsPass e)
    (hmeets : Meets (Timed.step cfg timeoutSec) Assumed (.ok s) passes.flatten)
    (hrun : runFrom (Timed.step cfg timeoutSec) (.ok s) passes.flatten = some x) :
    ∃ t, x = .ok t ∧ Forgotten t.server fd := by
  let onWay : Except Failure Timed → Prop := fun x =>
    ∃ s d, x = .ok s ∧ Kept cfg s ∧ s.server.net.conns fd = some d ∧ s.server.net.Closing fd d
  let left : Except Failure Timed → ℕ := fun x => (x.toOption.map fun s => s.server.net.lag fd).getD 0
  have hstep : ∀ x e y, onWay x → Assumed x e → Timed.step cfg timeoutSec x e = some y →
      onWay y ∧ left y ≤ left x ∧ (left x ≠ 0 → EndsPass e → left y < left x) := by
    rintro x e y ⟨s, d, rfl, hkept, hd, hcl⟩ hassumed hy
    obtain ⟨t, rfl, hkept'⟩ := hkept.step hassumed hy
    obtain ⟨d', hd', hcl', hle, hlt⟩ := hkept.lag hassumed hkept' hy hd hcl
    exact ⟨⟨t, d', rfl, hkept', hd', hcl'⟩, hle, hlt⟩
  have hsix : left (.ok s) ≤ passes.length := by
    obtain ⟨st, hst, hplaced⟩ := h.good.lives.stages fd c (by simp) hc
    rw [hlength]
    exact (NetLayer.lag_eq hc hst hplaced).trans_le (st.lag_le s.server.net fd c.loop)
  obtain ⟨⟨t, d, rfl, hkept', hd, -⟩, hzero⟩ :=
    zero_of_rounds hstep ⟨s, c, rfl, h, hc, hclosing⟩ (fun pass hpass _ => hpasses pass hpass) hsix hmeets hrun
  exact ⟨t, rfl, hkept'.forgotten hd hzero⟩

/-- **Eviction.**  A connection that is up and was last heard of more than the timeout before a tick is destroyed six
passes of the loop later, and no registry has its id. -/
theorem silent_client_evicted {clock last now : ℤ} {es : List Event} {s : Timed} {passes : List (List Event)}
    {x : Except Failure Timed} (hes : Meets (step cfg timeoutSec) Assumed (.ok (start cfg clock)) es)
    (hrun : runFrom (step cfg timeoutSec) (.ok (start cfg clock)) es = some (.ok s))
    (hup : s.server.net.callbacksOf fd = [true]) (hseen : s.seen fd = some last)
    (hlate : timeoutSec * 1000 < now - last) (hlength : passes.length = 6)
    (hpasses : ∀ pass ∈ passes, ∃ e ∈ pass, EndsPass e)
    (hmeets : Meets (step cfg timeoutSec) Assumed (.ok s) (.heartbeat now :: passes.flatten))
    (hrest : runFrom (step cfg timeoutSec) (.ok s) (.heartbeat now :: passes.flatten) = some x) :
    ∃ t, x = .ok t ∧ Forgotten t.server fd := by
  obtain ⟨s', heq, hkept⟩ := kept_of_run hes hrun
  obtain rfl := Except.ok.inj heq
  obtain ⟨m, hm, hrest⟩ := runFrom_cons_iff.mp hrest
  obtain ⟨m, rfl, hkept'⟩ := hkept.step hmeets.1 hm
  obtain ⟨c, hc, hclosing⟩ := hkept.closing_of_silent hup hseen hlate hm
  exact hkept'.evicted hc hclosing hlength hpasses (hmeets.2 _ hm) hrest

/-- Descriptor 7 is accepted at the time 0 and is not heard of again; the loop polls for the timer. -/
def silentSince : List Event :=
  let results : NetLayer.Results := ⟨some 7, .bytes [], .wrote 0, id⟩
  [.net .start 0, .net (.poll 0 [(3, EPOLLIN)]) 0, .net (.handle 0 results) 0, .net (.callbackReturns 0) 0,
    .net (.handle 0 results) 0, .net (.doPendingFunctors 0) 0, .net (.endFunctors 0) 0, .net (.poll 0 []) 61000]

def quietPass (now : ℤ) : List Event :=
  [.net (.poll 0 []) now, .net (.doPendingFunctors 0) now, .net (.endFunctors 0) now]

def evictingPasses (now : ℤ) : List (List Event) :=
  [[.net (.doPendingFunctors 0) now, .net (.run 0 (.wrote 0)) now, .net (.callbackReturns 0) now,
      .net (.endFunctors 0) now],
    [.net (.poll 0 []) now, .net (.doPendingFunctors 0) now, .net (.run 0 (.wrote 0)) now, .net (.endFunctors 0) now],
    quietPass now, quietPass now, quietPass now, quietPass now]

theorem evictingPasses_end (now : ℤ) : ∀ pass ∈ evictingPasses now, ∃ e ∈ pass, EndsPass e := by
  simp [evictingPasses, quietPass, EndsPass]

theorem silentSince_evicted :
    ∃ s t, runFrom (step NetLayer.sampleConfig 60) (.ok (start NetLayer.sampleConfig 0)) silentSince = some (.ok s) ∧
      s.server.net.callbacksOf 7 = [true] ∧ s.seen 7 = some 0 ∧
      runFrom (step NetLayer.sampleConfig 60) (.ok s) (.heartbeat 61000 :: (evictingPasses 61000).flatten) = some (.ok t) ∧
      Forgotten t.server 7 := by
  have hmeets : Meets (step NetLayer.sampleConfig 60) Assumed (.ok (start NetLayer.sampleConfig 0))
      (silentSince ++ .heartbeat 61000 :: (evictingPasses 61000).flatten) := by decide +kernel
  have hend : (runFrom (step NetLayer.sampleConfig 60) (.ok (start NetLayer.sampleConfig 0))
      (silentSince ++ .heartbeat 61000 :: (evictingPasses 61000).flatten)).isSome = true := by decide +kernel
  have hview : ((runFrom (step NetLayer.sampleConfig 60) (.ok (start NetLayer.sampleConfig 0)) silentSince).bind
      fun x => x.toOption.map fun s => (s.server.net.callbacksOf 7, s.seen 7)) = some ([true], some 0) := by
    decide +kernel
  obtain ⟨s, hrun, hs⟩ := exists_ok_of_view _ _ hview
  obtain ⟨hup, hseen⟩ := Prod.mk.inj hs
  obtain ⟨x, hx⟩ := Option.isSome_iff_exists.mp hend
  obtain ⟨m, hes, hm, hrest, hx⟩ := run_split hmeets hx
  obtain rfl := Option.some.inj (hrun.symm.trans hm)
  obtain ⟨t, rfl, hforgotten⟩ :=
    silent_client_evicted hes hrun hup hseen (by decide) rfl (evictingPasses_end 61000) hrest hx
  exact ⟨s, t, hrun, hup, hseen, hx, hforgotten⟩

end Timed
end Chater.Gateway.GatewayServer
