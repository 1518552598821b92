import Chater.Gateway.Eviction

/-!
# The heartbeat timer

`SetupHeartbeat` arms a timer, and the loop calls `OnHeartbeat` when it has expired.  The timer expires every period,
counted from the start, and a call of `OnHeartbeat` reads all expirations so far.  A timer that is not armed never
expires.  The clock is one for the timer and for `Timestamp::Now`.

How soon the loop comes to the timer depends on what else it has to do.  When it is never later than `slack`, no
connection is silent for longer than the timeout, the period and the slack together without being closed.
-/

namespace Chater.Gateway.GatewayServer

open Net Foundations

set_option autoImplicit false

def Event.time : Event → ℤ
  | .net _ now => now
  | .heartbeat now => now

/-- The server with the time of the timer's next expiration. -/
structure Running where
  timed : Timed
  expires : ℤ

namespace Running

/-- The first expiration after `now` of a timer that expires at `expires`. -/
def nextExpiration (period : ℕ) (expires now : ℤ) : ℤ :=
  expires + 1000 * period * ((now - expires) / (1000 * period) + 1)

variable (cfg : NetLayer.Config) (timeoutSec : ℤ) (timer : Option ℕ)

/-- `timer` is the period in seconds, if the timer is armed. -/
def start (clock : ℤ) : Running := ⟨.start cfg clock, clock + 1000 * timer.getD 0⟩

def step : Except Failure Running → Event → Option (Except Failure Running)
  | .ok r, .net e now =>
    (Timed.step cfg timeoutSec (.ok r.timed) (.net e now)).map fun x => x.map fun t => ⟨t, r.expires⟩
  | .ok r, .heartbeat now =>
    match timer with
    | none => none
    | some period =>
      if r.expires ≤ now then
        (Timed.step cfg timeoutSec (.ok r.timed) (.heartbeat now)).map fun x =>
          x.map fun t => ⟨t, nextExpiration period r.expires now⟩
      else none
  | .error _, _ => none

def Assumed (x : Except Failure Running) : Event → Prop := Timed.Assumed (x.map timed)

/-- The loop has come to the timer before it has been expired for longer than `slack`. -/
def Prompt (slack : ℕ) : Except Failure Running → Event → Prop
  | .ok r, e => timer ≠ none → e.time ≤ r.expires + slack
  | .error _, _ => True

instance (x : Except Failure Running) (e : Event) : Decidable (Assumed x e) :=
  inferInstanceAs (Decidable (Timed.Assumed _ e))

instance (slack : ℕ) : (x : Except Failure Running) → (e : Event) → Decidable (Prompt timer slack x e)
  | .ok r, e => inferInstanceAs (Decidable (timer ≠ none → e.time ≤ r.expires + slack))
  | .error _, _ => .isTrue trivial

variable {cfg timeoutSec timer} {period slack : ℕ} {expires now : ℤ}

theorem lt_nextExpiration (h : 0 < period) : now < nextExpiration period expires now := by
  have hpos : (0 : ℤ) < 1000 * period := by omega
  have hdiv := Int.lt_mul_ediv_self_add (x := now - expires) hpos
  rw [nextExpiration, mul_add, mul_one]
  omega

theorem nextExpiration_le (h : 0 < period) : nextExpiration period expires now ≤ now + 1000 * period := by
  have hne : (1000 * period : ℤ) ≠ 0 := by omega
  have hdiv := Int.mul_ediv_self_le (x := now - expires) hne
  rw [nextExpiration, mul_add, mul_one]
  omega

/-! ## The server under the timer -/

theorem timed_of_step {x y : Except Failure Running} {e : Event} (h : step cfg timeoutSec timer x e = some y) :
    Timed.step cfg timeoutSec (x.map timed) e = some (y.map timed) := by
  cases x with
  | error failure => cases h
  | ok r =>
    cases e with
    | net e now =>
      obtain ⟨x, hx, rfl⟩ := Option.map_eq_some_iff.mp h
      exact hx.trans (by cases x <;> rfl)
    | heartbeat now =>
      simp only [step] at h
      split at h
      · cases h
      · split_ifs at h
        obtain ⟨x, hx, rfl⟩ := Option.map_eq_some_iff.mp h
        exact hx.trans (by cases x <;> rfl)

theorem timed_of_run {x y : Except Failure Running} {es : List Event}
    (hes : Meets (step cfg timeoutSec timer) Assumed x es) (hrun : runFrom (step cfg timeoutSec timer) x es = some y) :
    Meets (Timed.step cfg timeoutSec) Timed.Assumed (x.map timed) es ∧
      runFrom (Timed.step cfg timeoutSec) (x.map timed) es = some (y.map timed) := by
  induction es generalizing x with
  | nil =>
    obtain rfl := Option.some.inj hrun
    exact ⟨trivial, rfl⟩
  | cons e es ih =>
    obtain ⟨m, hm, hrest⟩ := runFrom_cons_iff.mp hrun
    have hm' := timed_of_step hm
    obtain ⟨hmeets, hrun'⟩ := ih (hes.2 m hm) hrest
    exact ⟨(meets_cons_iff hm').mpr ⟨hes.1, hmeets⟩, runFrom_cons_iff.mpr ⟨_, hm', hrun'⟩⟩

end Running

section Hear

variable {s t : NetLayer} {e : NetLayer.Event} {now : ℤ} {seen : ℕ → Option ℤ} {fd : ℕ}

theorem hear_cases : hear s e t now seen fd = some now ∨ hear s e t now seen fd = seen fd := by
  have hupdate : ∀ j, Function.update seen j (some now) fd = some now ∨
      Function.update seen j (some now) fd = seen fd := by
    intro j
    by_cases hj : fd = j
    · rw [hj, Function.update_self]
      exact .inl rfl
    · exact .inr (Function.update_of_ne hj _ _)
  cases hbegun : begun 0 s t with
  | none => exact .inr (by simp only [hear, hbegun])
  | some j =>
    simp only [hear, hbegun]
    split_ifs
    · exact hupdate j
    · exact .inr rfl
    · split
      · exact hupdate j
      · exact .inr rfl

/-- A connection that is up after a step is heard of in it, or was up before. -/
theorem hear_of_up (hlives : NetLayer.Lives none s) (hlives' : NetLayer.Lives none t) (hbegan : NetLayer.Began 0 s e t)
    (hup : t.callbacksOf fd = [true]) :
    hear s e t now seen fd = some now ∨ s.callbacksOf fd = [true] ∧ hear s e t now seen fd = seen fd := by
  by_cases hsame : t.callbacksOf fd = s.callbacksOf fd
  · exact hear_cases.imp_right fun hseen => ⟨hsame ▸ hup, hseen⟩
  cases hbegan with
  | nothing hcallbacks => exact absurd (congrFun hcallbacks fd) hsame
  | message _ _ _ _ _ _ _ _ hcallbacks => exact absurd (congrFun hcallbacks fd) hsame
  | written _ _ _ _ _ _ hcallbacks => exact absurd (congrFun hcallbacks fd) hsame
  | connection loop fd' connected rest hloop hnone hcallbacks hstates hentered =>
    have hfd : fd = fd' := by
      by_contra hne
      exact hsame ((congrFun hcallbacks fd).trans (Function.update_of_ne hne _ _))
    subst hfd
    obtain rfl := Nat.le_zero.mp hloop
    have hfd : t.callbacksOf fd = s.callbacksOf fd ++ [connected] := by rw [hcallbacks, Function.update_self]
    obtain ⟨-, rfl⟩ | ⟨hbefore, rfl⟩ := callback_cases hlives hlives' hfd
    · rw [hear_connection e seen (begun_of_entered hnone hentered) hfd, if_pos rfl, Function.update_self]
      exact .inl rfl
    · rw [hfd, hbefore] at hup
      cases hup

end Hear

namespace Running

variable {cfg : NetLayer.Config} {timeoutSec : ℤ} {period slack : ℕ} {r : Running} {fd : ℕ}

/-- What a prompt loop keeps: a connection that is up is on its way down, or the timer expires before it has been silent
for too long. -/
structure Kept (cfg : NetLayer.Config) (timeoutSec : ℤ) (period slack : ℕ) (r : Running) : Prop where
  timed : Timed.Kept cfg r.timed
  soon : r.expires ≤ r.timed.clock + 1000 * period
  prompt : r.timed.clock ≤ r.expires + slack
  heard : ∀ fd last, r.timed.server.net.callbacksOf fd = [true] → r.timed.seen fd = some last →
    r.expires ≤ last + 1000 * (timeoutSec + period) ∨
      ∃ c, r.timed.server.net.conns fd = some c ∧ r.timed.server.net.Closing fd c

theorem start_kept (cfg : NetLayer.Config) (timeoutSec : ℤ) (period slack : ℕ) (clock : ℤ) :
    Kept cfg timeoutSec period slack (start cfg (some period) clock) where
  timed := Timed.start_kept cfg clock
  soon := le_rfl
  prompt := by
    show clock ≤ clock + 1000 * period + slack
    omega
  heard _ _ h := by cases h

/-- A step of the net layer: whoever is heard of is heard of now. -/
theorem Kept.net (h : Kept cfg timeoutSec period slack r) (htimeout : 0 ≤ timeoutSec) {e : NetLayer.Event} {now : ℤ}
    (hassumed : Assumed (.ok r) (.net e now)) (hprompt : now ≤ r.expires + slack) {t : Timed}
    (ht : Timed.step cfg timeoutSec (.ok r.timed) (.net e now) = some (.ok t)) (hkept : Timed.Kept cfg t) :
    Kept cfg timeoutSec period slack ⟨t, r.expires⟩ := by
  obtain ⟨hclock, x, hx, heq⟩ := Timed.act_net ht
  cases x with
  | error failure => cases heq
  | ok net =>
    obtain rfl := Except.ok.inj heq
    have hsoon := h.soon
    refine ⟨hkept, by show r.expires ≤ now + 1000 * period; omega, hprompt, fun fd last hup hseen => ?_⟩
    have hbegan := NetLayer.act_began h.timed.good.lives h.timed.good.affine hx
    obtain hnow | ⟨hbefore, hsame⟩ := hear_of_up h.timed.good.lives hkept.good.lives hbegan hup
    · obtain rfl := Option.some.inj (hnow.symm.trans hseen)
      left
      show r.expires ≤ now + 1000 * (timeoutSec + period)
      omega
    · obtain hlate | ⟨c, hc, hclosing⟩ := h.heard fd last hbefore (hsame.symm.trans hseen)
      · exact .inl hlate
      · obtain ⟨c', hc', hclosing', -⟩ := h.timed.lag hassumed hkept ht hc hclosing
        exact .inr ⟨c', hc', hclosing'⟩

/-- A tick: who has been silent for too long is closed, and the timer expires a period later. -/
theorem Kept.heartbeat (h : Kept cfg timeoutSec period slack r) (hperiod : 0 < period) {now : ℤ} {t : Timed}
    (ht : Timed.step cfg timeoutSec (.ok r.timed) (.heartbeat now) = some (.ok t)) (hkept : Timed.Kept cfg t) :
    Kept cfg timeoutSec period slack ⟨t, nextExpiration period r.expires now⟩ := by
  obtain ⟨hhandlers, hticked, heq⟩ := Timed.act_heartbeat ht
  obtain ⟨g, closed, hg, hreaps, -⟩ := h.timed.tick hhandlers hticked timeoutSec now
  rw [hg] at heq
  obtain rfl := Except.ok.inj heq
  have hlt : now < nextExpiration period r.expires now := lt_nextExpiration hperiod
  have hle : nextExpiration period r.expires now ≤ now + 1000 * period := nextExpiration_le hperiod
  refine ⟨hkept, hle, ?_, fun fd last hup hseen => ?_⟩
  · show now ≤ nextExpiration period r.expires now + slack
    omega
  have hbefore : r.timed.server.net.callbacksOf fd = [true] := by rw [← hreaps.swept.callbacks]; exact hup
  by_cases hsilent : timeoutSec * 1000 < now - last
  · exact .inr (h.timed.closing_of_silent hbefore hseen hsilent ht)
  · left
    show nextExpiration period r.expires now ≤ last + 1000 * (timeoutSec + period)
    omega

theorem Kept.step (h : Kept cfg timeoutSec period slack r) (htimeout : 0 ≤ timeoutSec) (hperiod : 0 < period) {e : Event}
    (hassumed : Assumed (.ok r) e) (hprompt : Prompt (some period) slack (.ok r) e) {y : Except Failure Running}
    (hy : Running.step cfg timeoutSec (some period) (.ok r) e = some y) :
    ∃ r', y = .ok r' ∧ Kept cfg timeoutSec period slack r' := by
  cases e with
  | net e now =>
    obtain ⟨x, hx, rfl⟩ := Option.map_eq_some_iff.mp hy
    obtain ⟨t, rfl, hkept⟩ := h.timed.step hassumed hx
    exact ⟨_, rfl, h.net htimeout hassumed (hprompt (Option.some_ne_none _)) hx hkept⟩
  | heartbeat now =>
    simp only [Running.step] at hy
    split_ifs at hy
    obtain ⟨x, hx, rfl⟩ := Option.map_eq_some_iff.mp hy
    obtain ⟨t, rfl, hkept⟩ := h.timed.step hassumed hx
    exact ⟨_, rfl, h.heartbeat hperiod hx hkept⟩

/-- With an armed timer and a prompt loop, a connection that has been silent for longer than the timeout, the period and
the slack is destroyed six passes later. -/
theorem evicted_of_silent {clock last : ℤ} {es : List Event} {passes : List (List Event)} {x : Except Failure Running}
    (htimeout : 0 ≤ timeoutSec) (hperiod : 0 < period)
    (hes : Meets (Running.step cfg timeoutSec (some period)) Assumed (.ok (start cfg (some period) clock)) es)
    (hprompt : Meets (Running.step cfg timeoutSec (some period)) (Prompt (some period) slack)
      (.ok (start cfg (some period) clock)) es)
    (hrun : runFrom (Running.step cfg timeoutSec (some period)) (.ok (start cfg (some period) clock)) es = some (.ok r))
    (hup : r.timed.server.net.callbacksOf fd = [true]) (hseen : r.timed.seen fd = some last)
    (hlate : last + 1000 * (timeoutSec + period) + slack < r.timed.clock) (hlength : passes.length = 6)
    (hpasses : ∀ pass ∈ passes, ∃ e ∈ pass, Timed.EndsPass e)
    (hmeets : Meets (Running.step cfg timeoutSec (some period)) Assumed (.ok r) passes.flatten)
    (hrest : runFrom (Running.step cfg timeoutSec (some period)) (.ok r) passes.flatten = some x) :
    ∃ t, x = .ok t ∧ Timed.Forgotten t.timed.server fd := by
  have hkeep : ∀ x e y, (∃ r, x = .ok r ∧ Kept cfg timeoutSec period slack r) →
      Assumed x e ∧ Prompt (some period) slack x e → Running.step cfg timeoutSec (some period) x e = some y →
      ∃ r, y = .ok r ∧ Kept cfg timeoutSec period slack r := by
    rintro x e y ⟨r, rfl, hkept⟩ ⟨hassumed, hprompt⟩ hy
    exact hkept.step htimeout hperiod hassumed hprompt hy
  obtain ⟨r', heq, hkept⟩ :=
    invariant_of_meets hkeep (hes.and hprompt) ⟨_, rfl, start_kept cfg timeoutSec period slack clock⟩ hrun
  obtain rfl := Except.ok.inj heq
  have hclosing := (hkept.heard fd last hup hseen).resolve_left fun hexpires => by
    have hbound := hkept.prompt
    omega
  obtain ⟨c, hc, hclosing⟩ := hclosing
  obtain ⟨hmeets', hrest'⟩ := timed_of_run hmeets hrest
  obtain ⟨t, ht, hforgotten⟩ := hkept.timed.evicted hc hclosing hlength hpasses hmeets' hrest'
  cases x with
  | error failure => cases ht
  | ok t' =>
    obtain rfl := Except.ok.inj ht
    exact ⟨t', rfl, hforgotten⟩

/-- Descriptor 7 is accepted at the time 0 and is not heard of again.  The loop comes to the timer every half minute, the
third time together with a call of `accept` that fails. -/
def silentThroughout : List Event :=
  let accept : NetLayer.Results := ⟨some 7, .bytes [], .wrote 0, id⟩
  let refuse : NetLayer.Results := ⟨none, .bytes [], .wrote 0, id⟩
  let tick (now : ℤ) : List Event :=
    [.net (.poll 0 []) now, .heartbeat now, .net (.doPendingFunctors 0) now, .net (.endFunctors 0) now]
  [.net .start 0, .net (.poll 0 [(3, EPOLLIN)]) 0, .net (.handle 0 accept) 0, .net (.callbackReturns 0) 0,
    .net (.handle 0 accept) 0, .net (.doPendingFunctors 0) 0, .net (.endFunctors 0) 0] ++
  tick 30000 ++ tick 60000 ++
  [.net (.poll 0 [(3, EPOLLIN)]) 90000, .heartbeat 90000, .net (.handle 0 refuse) 90001, .net (.handle 0 refuse) 90001]

example :
    ∃ r t, runFrom (Running.step NetLayer.sampleConfig 60 (some 30)) (.ok (start NetLayer.sampleConfig (some 30) 0))
        silentThroughout = some (.ok r) ∧ r.timed.server.net.callbacksOf 7 = [true] ∧ r.timed.seen 7 = some 0 ∧
      runFrom (Running.step NetLayer.sampleConfig 60 (some 30)) (.ok r) (Timed.evictingPasses 90001).flatten =
        some (.ok t) ∧ Timed.Forgotten t.timed.server 7 := by
  have hmeets : Meets (Running.step NetLayer.sampleConfig 60 (some 30)) Assumed
      (.ok (start NetLayer.sampleConfig (some 30) 0)) (silentThroughout ++ (Timed.evictingPasses 90001).flatten) := by
    decide +kernel
  have hprompt : Meets (Running.step NetLayer.sampleConfig 60 (some 30)) (Prompt (some 30) 0)
      (.ok (start NetLayer.sampleConfig (some 30) 0)) silentThroughout := by decide +kernel
  have hend : (runFrom (Running.step NetLayer.sampleConfig 60 (some 30))
      (.ok (start NetLayer.sampleConfig (some 30) 0))
      (silentThroughout ++ (Timed.evictingPasses 90001).flatten)).isSome = true := by decide +kernel
  have hview : ((runFrom (Running.step NetLayer.sampleConfig 60 (some 30))
      (.ok (start NetLayer.sampleConfig (some 30) 0)) silentThroughout).bind fun x => x.toOption.map fun r =>
        (r.timed.server.net.callbacksOf 7, r.timed.seen 7, r.timed.clock)) = some ([true], some 0, 90001) := by
    decide +kernel
  obtain ⟨r, hrun, hr⟩ := exists_ok_of_view _ _ hview
  obtain ⟨hup, hr⟩ := Prod.mk.inj hr
  obtain ⟨hseen, hclock⟩ := Prod.mk.inj hr
  obtain ⟨x, hx⟩ := Option.isSome_iff_exists.mp hend
  obtain ⟨m, hes, hm, hrest, hx⟩ := run_split hmeets hx
  obtain rfl := Option.some.inj (hrun.symm.trans hm)
  obtain ⟨t, rfl, hforgotten⟩ := evicted_of_silent (by decide) (by decide) hes hprompt hrun hup hseen
    (by rw [hclock]; decide) rfl (Timed.evictingPasses_end 90001) hrest hx
  exact ⟨r, t, hrun, hup, hseen, hx, hforgotten⟩

end Running
end Chater.Gateway.GatewayServer
