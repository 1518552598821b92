import Chater.Zmq.TradeGateway

/-!
# Closing the ROUTER socket under a reply

`RouterServer::Stop` clears `running_`, joins the dispatch thread, closes the socket and clears `routerSock_`.  The
workers of the pool are not the server's to join.  A task that found `running_` set may be anywhere behind that: in the
trade handler, about to look at `routerSock_`, or between two frames of its reply, with the pointer in its hands.

The steps are those of `TradeGateway`, with two more: a frame that a thread sends on the closed socket, which `late`
counts, and a round of the dispatch loop that looked at `running_` before it was cleared.
-/

namespace Chater.Zmq

open Foundations SharedWire SharedWire.Senders

set_option autoImplicit false

def StopPhase.isClosed : StopPhase → Bool
  | .closed | .nulled => true
  | _ => false

structure Stopping where
  gateway : TradeGateway
  /-- The threads whose `SendFrame` came behind `CloseSocket`. -/
  late : List Thread

namespace Stopping

def start : Stopping := ⟨.start, []⟩

/-- `SendFrame` on the closed socket; whether it fails is up to the library. -/
def lateFrame (s : Stopping) (t : Thread) (taken : Bool) : Option Stopping :=
  let out := match taken with
    | true => s.gateway.out.sendFrame t
    | false => s.gateway.out.refuseFrame t
  out.map fun out => ⟨{ s.gateway with out := out }, s.late ++ [t]⟩

def step (parses : TradeRequest → Frame → Bool) (cfg : GatewayConfig) (s : Stopping) :
    TradeGateway.Event → Option Stopping
  | .poll e =>
    -- the test of `running_` came first
    (TradeGateway.step parses cfg { s.gateway with running := true } (.poll e)).map fun g =>
      { s with gateway := { g with running := s.gateway.running } }
  | .frame t taken =>
    if s.gateway.stop.isClosed then s.lateFrame t taken
    else (TradeGateway.step parses cfg s.gateway (.frame t taken)).map fun g => { s with gateway := g }
  | e => (TradeGateway.step parses cfg s.gateway e).map fun g => { s with gateway := g }

/-- The gateway's own steps are among them. -/
theorem step_of_gateway {parses : TradeRequest → Frame → Bool} {cfg : GatewayConfig} {g g' : TradeGateway}
    {e : TradeGateway.Event} (late : List Thread) (h : TradeGateway.step parses cfg g e = some g') :
    step parses cfg ⟨g, late⟩ e = some ⟨g', late⟩ := by
  cases e with
  | poll p =>
    have hrunning : g.running = true := by
      simp only [TradeGateway.step] at h
      split_ifs at h with hpolls
      exact (Bool.and_eq_true .. ▸ hpolls).2
    have hsame : { g with running := true } = g := by rw [← hrunning]
    have hkept : { g' with running := g.running } = g' := by
      cases TradeGateway.stepped_of_poll parses h <;> rfl
    simp only [step, hsame, h, Option.map_some, hkept]
  | frame t taken =>
    have hopen : ¬ g.stop.isClosed = true := by
      intro hclosed
      simp only [TradeGateway.step] at h
      split_ifs at h with hstop
      cases hphase : g.stop <;> simp_all [StopPhase.isClosed]
    simp only [step, if_neg hopen, h, Option.map_some]
  | _ => simp only [step, h, Option.map_some]

/-- No thread is inside `SendRouterMessage` when the socket is closed, and none looks at `routerSock_` between the
closing and the clearing. -/
def ClosesAlone (s : Stopping) : TradeGateway.Event → Prop
  | .stop => s.gateway.stop = .joined → ∀ t, s.gateway.out.calls t = none
  | .reply _ => s.gateway.stop ≠ .closed
  | _ => True

/-- A thread inside `SendRouterMessage` goes on. -/
def SendsOn (_ : Stopping) : TradeGateway.Event → Prop
  | .frame _ _ => True
  | _ => False

/-! ## What a step does -/

variable {parses : TradeRequest → Frame → Bool} {cfg : GatewayConfig} {s t : Stopping} {e : TradeGateway.Event}

/-- What a step does to the socket and to the calls of `SendRouterMessage`. -/
inductive Effect (s : Stopping) (e : TradeGateway.Event) (t : Stopping) : Prop
  | nothing (he : e ≠ .stop) (hstop : t.gateway.stop = s.gateway.stop)
      (hcalls : t.gateway.out.calls = s.gateway.out.calls)
      (hleft : s.gateway.loop.left = true → t.gateway.loop.left = true) (hlate : t.late = s.late)
  | begins (u : Thread) (c : Sending HeadTypeBody Frame)
      (hwho : s.gateway.loop.left = false ∨ e = .reply u ∧ s.gateway.stop ≠ .nulled)
      (hidle : s.gateway.out.calls u = none) (hstop : t.gateway.stop = s.gateway.stop)
      (hcalls : t.gateway.out.calls = Function.update s.gateway.out.calls u (some c))
      (hleft : s.gateway.loop.left = true → t.gateway.loop.left = true) (hlate : t.late = s.late)
  | frame (u : Thread) (hopen : s.gateway.stop.isClosed = false) (hstop : t.gateway.stop = s.gateway.stop)
      (hleft : s.gateway.loop.left = true → t.gateway.loop.left = true) (hlate : t.late = s.late)
  | lateFrame (u : Thread) (hcall : s.gateway.out.calls u ≠ none) (hclosed : s.gateway.stop.isClosed = true)
      (hstop : t.gateway.stop = s.gateway.stop) (hlate : t.late = s.late ++ [u])
  | stops (he : e = .stop) (hcalls : t.gateway.out.calls = s.gateway.out.calls) (hlate : t.late = s.late)
      (hleft : s.gateway.loop.left = true → t.gateway.loop.left = true)
      (hstop : s.gateway.stop = .notCalled ∧ t.gateway.stop = .cleared ∨
        s.gateway.stop = .cleared ∧ t.gateway.stop = .joined ∧ s.gateway.loop.left = true ∨
        s.gateway.stop = .joined ∧ t.gateway.stop = .closed ∨ s.gateway.stop = .closed ∧ t.gateway.stop = .nulled)

theorem left_of_poll {g g' : TradeGateway} {p : Polled} (h : TradeGateway.step parses cfg g (.poll p) = some g') :
    g.loop.left = false := by
  simp only [TradeGateway.step] at h
  split_ifs at h
  obtain ⟨r, hr, -⟩ := Option.bind_eq_some_iff.mp h
  cases hleft : g.loop.left with
  | false => rfl
  | true => simp [DispatchLoop.iteration, hleft] at hr

theorem effect_of_poll {p : Polled} (ht : s.step parses cfg (.poll p) = some t) : Effect s (.poll p) t := by
  obtain ⟨g, hg, rfl⟩ := Option.map_eq_some_iff.mp ht
  have hround := left_of_poll hg
  have hleft : s.gateway.loop.left = true → g.loop.left = true := by
    intro htrue
    rw [show s.gateway.loop.left = false from hround] at htrue
    cases htrue
  cases TradeGateway.stepped_of_poll parses hg with
  | ping now m l out _ _ hbegin =>
    obtain ⟨hidle, rfl⟩ := begin_spec hbegin
    exact .begins .dispatch _ (.inl hround) hidle rfl rfl hleft rfl
  | quiet | rejected | submit | tooLate | direct => exact .nothing (by simp) rfl rfl hleft rfl

theorem effect_of_frame {u : Thread} {taken : Bool} (ht : s.step parses cfg (.frame u taken) = some t) :
    Effect s (.frame u taken) t := by
  simp only [step] at ht
  split_ifs at ht with hclosed
  · obtain ⟨out, hout, rfl⟩ := Option.map_eq_some_iff.mp ht
    refine .lateFrame u ?_ hclosed rfl rfl
    cases taken with
    | true =>
      obtain ⟨m, f, left, hcall, -⟩ := sendFrame_spec hout
      rw [hcall]
      exact Option.some_ne_none _
    | false =>
      obtain ⟨c, hcall, -⟩ := refuseFrame_spec hout
      rw [hcall]
      exact Option.some_ne_none _
  · obtain ⟨g, hg, rfl⟩ := Option.map_eq_some_iff.mp ht
    cases TradeGateway.stepped_of_step parses hg with
    | frame | refused => exact .frame u (Bool.eq_false_iff.mpr hclosed) rfl id rfl

theorem effect_of_stop (ht : s.step parses cfg .stop = some t) : Effect s .stop t := by
  obtain ⟨g, hg, rfl⟩ := Option.map_eq_some_iff.mp ht
  simp only [TradeGateway.step, TradeGateway.stopStep] at hg
  split at hg
  · next hstop =>
    obtain rfl := Option.some.inj hg
    exact .stops rfl rfl rfl id (.inl ⟨hstop, rfl⟩)
  · next hstop =>
    split_ifs at hg with hleft
    obtain rfl := Option.some.inj hg
    exact .stops rfl rfl rfl id (.inr (.inl ⟨hstop, rfl, hleft⟩))
  · next hstop =>
    obtain rfl := Option.some.inj hg
    exact .stops rfl rfl rfl id (.inr (.inr (.inl ⟨hstop, rfl⟩)))
  · next hstop =>
    obtain rfl := Option.some.inj hg
    exact .stops rfl rfl rfl id (.inr (.inr (.inr ⟨hstop, rfl⟩)))
  · cases hg

theorem effect_of_reply {u : Thread} (ht : s.step parses cfg (.reply u) = some t) : Effect s (.reply u) t := by
  obtain ⟨g, hg, rfl⟩ := Option.map_eq_some_iff.mp ht
  simp only [TradeGateway.step] at hg
  split at hg
  · split_ifs at hg with hstop
    · obtain rfl := Option.some.inj hg
      exact .nothing (by simp) rfl rfl id rfl
    · obtain ⟨out, hbegin, rfl⟩ := Option.map_eq_some_iff.mp hg
      obtain ⟨hidle, rfl⟩ := begin_spec hbegin
      exact .begins u _ (.inr ⟨rfl, hstop⟩) hidle rfl rfl id rfl
  · cases hg

theorem effect_of_step (ht : s.step parses cfg e = some t) : Effect s e t := by
  cases e with
  | poll p => exact effect_of_poll ht
  | frame u taken => exact effect_of_frame ht
  | stop => exact effect_of_stop ht
  | reply u => exact effect_of_reply ht
  | take | enter | handle =>
    obtain ⟨g, hg, rfl⟩ := Option.map_eq_some_iff.mp ht
    cases TradeGateway.stepped_of_step parses hg
    all_goals exact .nothing (by simp) rfl rfl id rfl
  | shutdownPool =>
    obtain rfl := Option.some.inj ht
    exact .nothing (by simp) rfl rfl id rfl
  | exitLoop =>
    obtain ⟨g, hg, rfl⟩ := Option.map_eq_some_iff.mp ht
    cases TradeGateway.stepped_of_step parses hg
    exact .nothing (by simp) rfl rfl (fun _ => rfl) rfl

/-! ## Runs -/

/-- The dispatch loop is over once it is joined, and no thread is inside `SendRouterMessage` with the closed socket. -/
structure Good (s : Stopping) : Prop where
  late : s.late = []
  left : s.gateway.stop = .joined ∨ s.gateway.stop.isClosed = true → s.gateway.loop.left = true
  calls : s.gateway.stop.isClosed = true → ∀ u, s.gateway.out.calls u = none

/-- A frame has been sent on the closed socket, or a thread is about to. -/
def Bad (s : Stopping) : Prop :=
  s.late ≠ [] ∨ s.gateway.stop.isClosed = true ∧ ∃ u, s.gateway.out.calls u ≠ none

theorem start_good : Good start where
  late := rfl
  left h := by simp [start, TradeGateway.start, StopPhase.isClosed] at h
  calls h := by simp [start, TradeGateway.start, StopPhase.isClosed] at h

/-- A step that leaves the socket as it is. -/
theorem Good.kept (h : Good s) (hstop : t.gateway.stop = s.gateway.stop)
    (hleft : s.gateway.loop.left = true → t.gateway.loop.left = true) (hlate : t.late = s.late)
    (hcalls : s.gateway.stop.isClosed = true → ∀ u, t.gateway.out.calls u = none) : Good t := by
  refine ⟨hlate.trans h.late, ?_, ?_⟩
  · rw [hstop]
    exact fun hjoined => hleft (h.left hjoined)
  · rw [hstop]
    exact hcalls

theorem Good.step (h : Good s) (hc : ClosesAlone s e) (ht : s.step parses cfg e = some t) : Good t := by
  cases effect_of_step ht with
  | nothing _ hstop hcalls hleft hlate =>
    refine h.kept hstop hleft hlate ?_
    rw [hcalls]
    exact h.calls
  | begins u c hwho hidle hstop hcalls hleft hlate =>
    -- a call begins only on the open socket
    have hopen : s.gateway.stop.isClosed = false := by
      by_contra hclosed
      obtain hround | ⟨rfl, hnulled⟩ := hwho
      · rw [h.left (.inr (Bool.not_eq_false _ ▸ hclosed))] at hround
        cases hround
      · have hnot : s.gateway.stop ≠ .closed := hc
        cases hphase : s.gateway.stop <;> simp_all [StopPhase.isClosed]
    exact h.kept hstop hleft hlate fun hclosed => absurd hclosed (Bool.eq_false_iff.mp hopen)
  | frame u hopen hstop hleft hlate =>
    exact h.kept hstop hleft hlate fun hclosed => absurd hclosed (Bool.eq_false_iff.mp hopen)
  | lateFrame u hcall hclosed => exact absurd (h.calls hclosed u) hcall
  | stops he hcalls hlate hleft hstop =>
    subst he
    refine ⟨hlate.trans h.late, fun hjoined => ?_, fun hclosed => ?_⟩
    · obtain ⟨-, hstop⟩ | ⟨-, -, hround⟩ | ⟨hstop, -⟩ | ⟨hstop, -⟩ := hstop
      · simp [hstop, StopPhase.isClosed] at hjoined
      · exact hleft hround
      · exact hleft (h.left (.inl hstop))
      · exact hleft (h.left (.inr (by simp [hstop, StopPhase.isClosed])))
    · rw [hcalls]
      obtain ⟨-, hstop⟩ | ⟨-, hstop, -⟩ | ⟨hstop, -⟩ | ⟨hstop, -⟩ := hstop
      · simp [hstop, StopPhase.isClosed] at hclosed
      · simp [hstop, StopPhase.isClosed] at hclosed
      · exact hc hstop
      · exact h.calls (by simp [hstop, StopPhase.isClosed])

/-- A thread that is inside `SendRouterMessage` at the closing, or gets there before the clearing, has the closed socket
in its hands. -/
theorem bad_of_not_closesAlone (hmiss : ¬ ClosesAlone s e) (ht : s.step parses cfg e = some t) : Bad t := by
  cases e with
  | stop =>
    obtain ⟨hjoined, hcall⟩ := Classical.not_imp.mp hmiss
    obtain ⟨u, hu⟩ := not_forall.mp hcall
    simp only [step, TradeGateway.step, TradeGateway.stopStep, hjoined, Option.map_some] at ht
    obtain rfl := Option.some.inj ht
    exact .inr ⟨rfl, u, hu⟩
  | reply u =>
    have hclosed : s.gateway.stop = .closed := not_not.mp hmiss
    obtain ⟨g, hg, rfl⟩ := Option.map_eq_some_iff.mp ht
    simp only [TradeGateway.step, hclosed] at hg
    split at hg
    · rw [if_neg (by simp)] at hg
      obtain ⟨out, hbegin, rfl⟩ := Option.map_eq_some_iff.mp hg
      obtain ⟨-, rfl⟩ := begin_spec hbegin
      refine .inr ⟨rfl, u, ?_⟩
      show Function.update s.gateway.out.calls u _ u ≠ none
      rw [Function.update_self]
      exact Option.some_ne_none _
    · cases hg
  | _ => exact absurd trivial hmiss

theorem Bad.step (h : Bad s) (ht : s.step parses cfg e = some t) : Bad t := by
  have hlate : s.late <+: t.late := by
    cases effect_of_step ht with
    | nothing _ _ _ _ hlate | begins _ _ _ _ _ _ _ hlate | frame _ _ _ _ hlate | stops _ _ hlate => rw [hlate]
    | lateFrame u _ _ _ hlate => exact ⟨[u], hlate.symm⟩
  obtain hne | ⟨hclosed, u, hu⟩ := h
  · exact .inl fun hnil => hne (List.prefix_nil.mp (hnil ▸ hlate))
  · cases effect_of_step ht with
    | nothing _ hstop hcalls => exact .inr ⟨hstop ▸ hclosed, u, hcalls ▸ hu⟩
    | begins v c _ hidle hstop hcalls =>
      have hne : u ≠ v := by
        rintro rfl
        exact hu hidle
      refine .inr ⟨hstop ▸ hclosed, u, ?_⟩
      rwa [hcalls, Function.update_of_ne hne]
    | frame _ hopen =>
      rw [hopen] at hclosed
      cases hclosed
    | lateFrame v _ _ _ hlate =>
      left
      simp [hlate]
    | stops _ hcalls _ _ hstop =>
      refine .inr ⟨?_, u, hcalls ▸ hu⟩
      obtain ⟨hbefore, -⟩ | ⟨hbefore, -⟩ | ⟨-, hafter⟩ | ⟨-, hafter⟩ := hstop
      · simp [hbefore, StopPhase.isClosed] at hclosed
      · simp [hbefore, StopPhase.isClosed] at hclosed
      · simp [hafter, StopPhase.isClosed]
      · simp [hafter, StopPhase.isClosed]

/-- The next frame of such a thread is late. -/
theorem Bad.broken (h : Bad s) :
    ∃ fs t, Meets (Stopping.step parses cfg) SendsOn s fs ∧ runFrom (Stopping.step parses cfg) s fs = some t ∧
      ¬ t.late = [] := by
  obtain hne | ⟨hclosed, u, hu⟩ := h
  · exact ⟨[], s, trivial, rfl, hne⟩
  · obtain ⟨c, hc⟩ := Option.ne_none_iff_exists'.mp hu
    let out : Senders Thread HeadTypeBody Frame := { s.gateway.out with
      calls := Function.update s.gateway.out.calls u none
      failed := s.gateway.out.failed ++ [(u, c.message)] }
    have hrefuse : s.gateway.out.refuseFrame u = some out := by
      rw [refuseFrame, hc]
      rfl
    refine ⟨[.frame u false], ⟨{ s.gateway with out := out }, s.late ++ [u]⟩, ⟨trivial, fun _ _ => trivial⟩, ?_,
      by simp⟩
    simp [runFrom, Stopping.step, hclosed, lateFrame, hrefuse]

/-- **`Stop` closes the socket under a reply unless no thread is sending.**  After every run, no thread that is inside
`SendRouterMessage` sends a frame on the closed socket, and none has, exactly if no thread was inside it when the socket
was closed and none looked at `routerSock_` before it was cleared. -/
theorem noLateFrame_iff_closesAlone {es : List TradeGateway.Event}
    (hrun : runFrom (step parses cfg) start es = some s) :
    (∀ fs t, Meets (step parses cfg) SendsOn s fs → runFrom (step parses cfg) s fs = some t → t.late = []) ↔
      Meets (step parses cfg) ClosesAlone start es := by
  have hfinish : ∀ (s : Stopping) (e : TradeGateway.Event), SendsOn s e → ClosesAlone s e := by
    intro s e h
    cases e with
    | frame => trivial
    | _ => exact h.elim
  exact (meets_iff_forall_finished (fun _ h => Good.late h) (fun _ _ _ h hc ht => Good.step h hc ht)
    (fun _ _ _ _ hmiss ht => bad_of_not_closesAlone hmiss ht) (fun _ _ _ h ht => Bad.step h ht) hfinish
    (fun _ h => Bad.broken h) start_good hrun).symm

/-- A worker has the answer to a login and has looked at `routerSock_`. -/
def loginReplied : List TradeGateway.Event :=
  [.poll (.message 0 ⟨⟨1, []⟩, [7]⟩), .take 0, .enter (.worker 0), .handle (.worker 0) (some [1]), .reply (.worker 0)]

/-- The handler takes until the server is stopped. -/
def answeredLate : List TradeGateway.Event :=
  [.poll (.message 0 ⟨⟨1, []⟩, [7]⟩), .take 0, .enter (.worker 0), .stop, .exitLoop, .stop, .stop, .stop,
    .handle (.worker 0) (some [1]), .reply (.worker 0)]

theorem noLateFrame_answeredLate :
    ∃ s, runFrom (step (fun _ _ => true) ⟨⟨0, 0⟩, some 1, true⟩) start answeredLate = some s ∧
      s.gateway.handled = [⟨⟨⟨1, []⟩, [7]⟩, 0⟩] ∧
      ∀ fs t, Meets (step (fun _ _ => true) ⟨⟨0, 0⟩, some 1, true⟩) SendsOn s fs →
        runFrom (step (fun _ _ => true) ⟨⟨0, 0⟩, some 1, true⟩) s fs = some t → t.late = [] := by
  have hmeets : Meets (step (fun _ _ => true) ⟨⟨0, 0⟩, some 1, true⟩) ClosesAlone start answeredLate := by
    refine (meets_cons_iff rfl).mpr ⟨trivial, ?_⟩
    refine (meets_cons_iff rfl).mpr ⟨trivial, ?_⟩
    refine (meets_cons_iff rfl).mpr ⟨trivial, ?_⟩
    refine (meets_cons_iff rfl).mpr ⟨fun h => StopPhase.noConfusion h, ?_⟩
    refine (meets_cons_iff rfl).mpr ⟨trivial, ?_⟩
    refine (meets_cons_iff rfl).mpr ⟨fun h => StopPhase.noConfusion h, ?_⟩
    refine (meets_cons_iff rfl).mpr ⟨fun _ _ => rfl, ?_⟩
    refine (meets_cons_iff rfl).mpr ⟨fun h => StopPhase.noConfusion h, ?_⟩
    refine (meets_cons_iff rfl).mpr ⟨trivial, ?_⟩
    exact (meets_cons_iff rfl).mpr ⟨fun h => StopPhase.noConfusion h, trivial⟩
  exact ⟨_, rfl, rfl, (noLateFrame_iff_closesAlone rfl).mpr hmeets⟩

/-- The server is stopped between the first frame of the reply and the second. -/
def stoppedInReply : List TradeGateway.Event :=
  loginReplied ++ [.frame (.worker 0) true, .stop, .exitLoop, .stop, .stop, .frame (.worker 0) true]

theorem lateFrame_stoppedInReply :
    ∃ s, runFrom (step (fun _ _ => true) ⟨⟨0, 0⟩, some 1, true⟩) start stoppedInReply = some s ∧
      s.gateway.stop = .closed ∧ s.late = [.worker 0] ∧ ¬ s.late = [] :=
  ⟨_, rfl, rfl, rfl, List.cons_ne_nil _ _⟩

end Stopping
end Chater.Zmq
