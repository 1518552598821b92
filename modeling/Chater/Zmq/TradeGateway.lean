import Chater.Foundations.SharedWire
import Chater.Zmq.RouterServer

/-!
# The trade gateway

`TradeGateway` with the threads that use its ROUTER socket: the dispatch thread, which answers pings itself, and the
workers of the thread pool, which run `OnMessage` and send its reply.  A thread is stopped between any two accesses to
what the threads share: the read of `running_`, the call of the trade handler, the read of `routerSock_`, and each
`SendFrame`.
-/

namespace Chater.Zmq

open Foundations SharedWire SharedWire.Senders

set_option autoImplicit false

/-! ## Requests and their replies -/

inductive TradeRequest
  | login
  | placeOrder
  | queryOrder
  | cancelOrder
deriving DecidableEq, Repr

namespace TradeRequest

def msgType : TradeRequest → UInt16
  | login => 1
  | placeOrder => 5
  | queryOrder => 7
  | cancelOrder => 9

def replyType : TradeRequest → UInt16
  | login => 2
  | placeOrder => 6
  | queryOrder => 8
  | cancelOrder => 10

/-- The `switch` of `OnMessage`. -/
def ofMsgType (msgType : UInt16) : Option TradeRequest :=
  [login, placeOrder, queryOrder, cancelOrder].find? fun kind => kind.msgType == msgType

end TradeRequest

/-! ## The gateway's threads -/

/-- A message that the dispatch loop has received; `number` is its place among them. -/
structure Received extends HeadTypeBody where
  number : ℕ
deriving DecidableEq, Repr

inductive Thread
  | dispatch
  | worker (i : ℕ)
deriving DecidableEq, Repr

/-- Where a thread is in `OnMessage`.  A thread inside `SendRouterMessage` is in phase `idle` with a call on the
wire. -/
inductive Phase
  | idle
  | entered (m : Received)
  | handling (kind : TradeRequest) (m : Received)
  | replying (reply : HeadTypeBody)
deriving DecidableEq, Repr

/-- The message that a thread has in its hands and the handler has not seen. -/
def Phase.unhandled : Phase → List Received
  | .entered m => [m]
  | .handling _ m => [m]
  | _ => []

/-- How far `RouterServer::Stop` has come. -/
inductive StopPhase
  | notCalled
  | cleared
  | joined
  | closed
  | nulled
deriving DecidableEq, Repr

/-- `threads` is the size of `threadPool_`, and `none` without a pool. -/
structure GatewayConfig extends RouterConfig where
  threads : Option ℕ
  hasHandler : Bool

theorem sendRouterMessage_flags (m : HeadTypeBody) :
    (sendRouterMessage m).map Prod.snd = List.replicate 2 true ++ [false] := rfl

def routerFormat : Format HeadTypeBody Frame := ⟨sendRouterMessage, 2, sendRouterMessage_flags⟩

structure TradeGateway where
  loop : DispatchLoop
  running : Bool
  stop : StopPhase
  poolRunning : Bool
  tasks : List Received
  phase : Thread → Phase
  out : Senders Thread HeadTypeBody Frame
  received : List Received
  handled : List Received

namespace TradeGateway

/-- `threadPool_` runs and `Start` has returned. -/
def start : TradeGateway := ⟨.start, true, .notCalled, true, [], fun _ => .idle, .start, [], []⟩

/-- `handle` carries the serialised response when the trade handler returned true; `frame` says whether
`zmq_msg_send` took the frame. -/
inductive Event
  | poll (e : Polled)
  | take (i : ℕ)
  | enter (t : Thread)
  | handle (t : Thread) (response : Option Frame)
  | reply (t : Thread)
  | frame (t : Thread) (taken : Bool)
  | exitLoop
  | stop
  | shutdownPool

def free (s : TradeGateway) (t : Thread) : Bool := s.phase t = .idle && (s.out.calls t).isNone

theorem free_iff {s : TradeGateway} {t : Thread} : s.free t = true ↔ s.phase t = .idle ∧ s.out.calls t = none := by
  simp [free]

theorem unhandled_of_free {s : TradeGateway} {t : Thread} (h : s.free t = true) : (s.phase t).unhandled = [] := by
  rw [(free_iff.mp h).1]
  rfl

def setPhase (s : TradeGateway) (t : Thread) (p : Phase) : TradeGateway :=
  { s with phase := Function.update s.phase t p }

def received? : Polled → List HeadTypeBody
  | .message _ m => [m]
  | _ => []

/-- The message that the dispatch loop receives next. -/
def next (s : TradeGateway) (m : HeadTypeBody) : Received := ⟨m, s.received.length⟩

/-- What the dispatch loop does with message `number`: `HandlePing`, or `OnMessage` in the pool or at once. -/
def doWork (cfg : GatewayConfig) (s : TradeGateway) (number : ℕ) : Work → Option TradeGateway
  | .leaveLoop => some s
  | .nothing => some s
  | .handlePing identity =>
    (s.out.begin routerFormat .dispatch ⟨⟨kPongType, []⟩, identity⟩).map fun out => { s with out := out }
  | .onMessage m =>
    match cfg.threads with
    | some _ => some (if s.poolRunning then { s with tasks := s.tasks ++ [⟨m, number⟩] } else s)
    | none => some (s.setPhase .dispatch (.entered ⟨m, number⟩))

variable (parses : TradeRequest → Frame → Bool)

/-- `OnMessage` up to the call of the trade handler. -/
def onMessage (cfg : GatewayConfig) (running : Bool) (m : HeadTypeBody) : Option TradeRequest :=
  if running then
    (TradeRequest.ofMsgType m.msgType).filter fun kind => parses kind m.body && cfg.hasHandler
  else none

def stopStep (s : TradeGateway) : Option TradeGateway :=
  match s.stop with
  | .notCalled => some { s with running := false, stop := .cleared }
  | .cleared => if s.loop.left then some { s with stop := .joined } else none
  | .joined => some { s with stop := .closed }
  | .closed => some { s with stop := .nulled }
  | .nulled => none

/-- The steps of the gateway.  What a frame on a closed socket does is not followed: there is no such step. -/
def step (cfg : GatewayConfig) (s : TradeGateway) : Event → Option TradeGateway
  | .poll e =>
    if s.free .dispatch && s.running then
      (s.loop.iteration cfg.toRouterConfig e).bind fun r =>
        { s with loop := r.1, received := s.received ++ (received? e).map s.next }.doWork cfg s.received.length r.2
    else none
  | .take i =>
    if i < cfg.threads.getD 0 && s.free (.worker i) then
      match s.tasks with
      | [] => none
      | m :: tasks => some ({ s with tasks := tasks }.setPhase (.worker i) (.entered m))
    else none
  | .enter t =>
    match s.phase t with
    | .entered m =>
      match onMessage parses cfg s.running m.toHeadTypeBody with
      | some kind => some (s.setPhase t (.handling kind m))
      | none => some (s.setPhase t .idle)
    | _ => none
  | .handle t response =>
    match s.phase t with
    | .handling kind m =>
      let s := { s with handled := s.handled ++ [m] }
      match response with
      | some body => some (s.setPhase t (.replying ⟨⟨kind.replyType, body⟩, m.head⟩))
      | none => some (s.setPhase t .idle)
    | _ => none
  | .reply t =>
    match s.phase t with
    | .replying reply =>
      if s.stop = .nulled then some (s.setPhase t .idle)
      else (s.out.begin routerFormat t reply).map fun out => { s with out := out }.setPhase t .idle
    | _ => none
  | .frame t taken =>
    if s.stop = .closed ∨ s.stop = .nulled then none
    else
      match taken with
      | true => (s.out.sendFrame t).map fun out => { s with out := out }
      | false => (s.out.refuseFrame t).map fun out => { s with out := out }
  | .exitLoop =>
    if s.free .dispatch && !s.running && !s.loop.left then some { s with loop := { s.loop with left := true } }
    else none
  | .stop => s.stopStep
  | .shutdownPool => some { s with poolRunning := false }

/-! ## What a step can do -/

/-- The client of a message that is not a ping is not turned away. -/
def Admitted (cfg : GatewayConfig) (s : TradeGateway) (identity : Identity) : Prop :=
  0 < cfg.maxConnections → identity ∉ s.loop.connections.knownIdentities →
    s.loop.connections.activeConnections < cfg.maxConnections

/-- The dispatch loop is about to go round. -/
def Polls (s : TradeGateway) : Prop := s.free .dispatch = true ∧ s.running = true

inductive Stepped (cfg : GatewayConfig) (s : TradeGateway) : Event → TradeGateway → Prop
  | quiet (e : Polled) (l : DispatchLoop) (hpolls : s.Polls) (he : received? e = []) :
      Stepped cfg s (.poll e) { s with loop := l }
  | ping (now : ℕ) (m : HeadTypeBody) (l : DispatchLoop) (out : Senders Thread HeadTypeBody Frame) (hpolls : s.Polls)
      (hping : m.msgType = kPingType)
      (hbegin : s.out.begin routerFormat .dispatch ⟨⟨kPongType, []⟩, m.head⟩ = some out) :
      Stepped cfg s (.poll (.message now m)) { s with loop := l, received := s.received ++ [s.next m], out := out }
  | rejected (now : ℕ) (m : HeadTypeBody) (l : DispatchLoop) (hpolls : s.Polls) (hping : m.msgType ≠ kPingType)
      (hlimit : ¬ s.Admitted cfg m.head) :
      Stepped cfg s (.poll (.message now m)) { s with loop := l, received := s.received ++ [s.next m] }
  | submit (now : ℕ) (m : HeadTypeBody) (l : DispatchLoop) (n : ℕ) (hpolls : s.Polls) (hping : m.msgType ≠ kPingType)
      (hlimit : s.Admitted cfg m.head) (hthreads : cfg.threads = some n) (hpool : s.poolRunning = true) :
      Stepped cfg s (.poll (.message now m))
        { s with loop := l, received := s.received ++ [s.next m], tasks := s.tasks ++ [s.next m] }
  | tooLate (now : ℕ) (m : HeadTypeBody) (l : DispatchLoop) (n : ℕ) (hpolls : s.Polls) (hping : m.msgType ≠ kPingType)
      (hthreads : cfg.threads = some n) (hpool : s.poolRunning = false) :
      Stepped cfg s (.poll (.message now m)) { s with loop := l, received := s.received ++ [s.next m] }
  | direct (now : ℕ) (m : HeadTypeBody) (l : DispatchLoop) (hpolls : s.Polls) (hping : m.msgType ≠ kPingType)
      (hlimit : s.Admitted cfg m.head) (hthreads : cfg.threads = none) :
      Stepped cfg s (.poll (.message now m))
        ({ s with loop := l, received := s.received ++ [s.next m] }.setPhase .dispatch (.entered (s.next m)))
  | take (i n : ℕ) (m : Received) (tasks : List Received) (hthreads : cfg.threads = some n) (hi : i < n)
      (hfree : s.free (.worker i) = true) (htasks : s.tasks = m :: tasks) :
      Stepped cfg s (.take i) ({ s with tasks := tasks }.setPhase (.worker i) (.entered m))
  | passOver (t : Thread) (m : Received) (hphase : s.phase t = .entered m)
      (hnone : onMessage parses cfg s.running m.toHeadTypeBody = none) : Stepped cfg s (.enter t) (s.setPhase t .idle)
  | callHandler (t : Thread) (m : Received) (kind : TradeRequest) (hphase : s.phase t = .entered m)
      (hsome : onMessage parses cfg s.running m.toHeadTypeBody = some kind) :
      Stepped cfg s (.enter t) (s.setPhase t (.handling kind m))
  | answer (t : Thread) (kind : TradeRequest) (m : Received) (body : Frame) (hphase : s.phase t = .handling kind m) :
      Stepped cfg s (.handle t (some body))
        ({ s with handled := s.handled ++ [m] }.setPhase t (.replying ⟨⟨kind.replyType, body⟩, m.head⟩))
  | noAnswer (t : Thread) (kind : TradeRequest) (m : Received) (hphase : s.phase t = .handling kind m) :
      Stepped cfg s (.handle t none) ({ s with handled := s.handled ++ [m] }.setPhase t .idle)
  | noSocket (t : Thread) (reply : HeadTypeBody) (hphase : s.phase t = .replying reply) (hstop : s.stop = .nulled) :
      Stepped cfg s (.reply t) (s.setPhase t .idle)
  | reply (t : Thread) (reply : HeadTypeBody) (out : Senders Thread HeadTypeBody Frame)
      (hphase : s.phase t = .replying reply) (hbegin : s.out.begin routerFormat t reply = some out) :
      Stepped cfg s (.reply t) ({ s with out := out }.setPhase t .idle)
  | frame (t : Thread) (out : Senders Thread HeadTypeBody Frame) (hsend : s.out.sendFrame t = some out) :
      Stepped cfg s (.frame t true) { s with out := out }
  | refused (t : Thread) (out : Senders Thread HeadTypeBody Frame) (hrefuse : s.out.refuseFrame t = some out) :
      Stepped cfg s (.frame t false) { s with out := out }
  | exitLoop : Stepped cfg s .exitLoop { s with loop := { s.loop with left := true } }
  | stop (running : Bool) (phase : StopPhase) : Stepped cfg s .stop { s with running := running, stop := phase }
  | shutdownPool : Stepped cfg s .shutdownPool { s with poolRunning := false }

theorem underLimit_eq_none {cfg : RouterConfig} {identity : Identity} {c : Connections} :
    c.underLimit cfg identity = none ↔
      ¬ (0 < cfg.maxConnections → identity ∉ c.knownIdentities → c.activeConnections < cfg.maxConnections) := by
  unfold Connections.underLimit
  split_ifs with hnew hfull
  · simpa using ⟨hnew.1, hnew.2, hfull⟩
  · simpa using fun _ _ => not_le.mp hfull
  · simpa using fun hpos hunknown => absurd ⟨hpos, hunknown⟩ hnew

/-- What the dispatch loop does with a message. -/
theorem iteration_message {cfg : RouterConfig} {l l' : DispatchLoop} {now : ℕ} {m : HeadTypeBody} {work : Work}
    (h : l.iteration cfg (.message now m) = some (l', work)) :
    m.msgType = kPingType ∧ work = .handlePing m.head ∨
      m.msgType ≠ kPingType ∧
        (l.connections.underLimit cfg m.head = none ∧ work = .nothing ∨
          l.connections.underLimit cfg m.head ≠ none ∧ work = .onMessage m) := by
  simp only [DispatchLoop.iteration] at h
  split_ifs at h
  obtain ⟨-, rfl⟩ := Prod.mk.inj (Option.some.inj h)
  unfold Connections.receive
  simp only
  split_ifs with hping
  · exact .inl ⟨hping, rfl⟩
  · refine .inr ⟨hping, ?_⟩
    -- the new entry in `lastActive_` does not matter to the limit
    have hsame : ({ l.connections with lastActive := l.connections.lastActive.set m.head now } : Connections).underLimit
        cfg m.head = none ↔ l.connections.underLimit cfg m.head = none := by
      simp only [underLimit_eq_none]
    split
    · rename_i hnone
      exact .inl ⟨hsame.mp hnone, rfl⟩
    · rename_i c hsome
      refine .inr ⟨fun hnone => ?_, rfl⟩
      rw [hsame.mpr hnone] at hsome
      cases hsome

theorem iteration_quiet {cfg : RouterConfig} {l l' : DispatchLoop} {e : Polled} {work : Work} (he : received? e = [])
    (h : l.iteration cfg e = some (l', work)) : work = .leaveLoop ∨ work = .nothing := by
  cases e with
  | error =>
    simp only [DispatchLoop.iteration] at h
    split_ifs at h
    obtain ⟨-, rfl⟩ := Prod.mk.inj (Option.some.inj h)
    exact .inl rfl
  | timeout now =>
    simp only [DispatchLoop.iteration] at h
    split_ifs at h
    all_goals
      obtain ⟨-, rfl⟩ := Prod.mk.inj (Option.some.inj h)
      exact .inr rfl
  | noInput | recvFailed =>
    simp only [DispatchLoop.iteration] at h
    split_ifs at h
    obtain ⟨-, rfl⟩ := Prod.mk.inj (Option.some.inj h)
    exact .inr rfl
  | message now m => cases he

theorem stepped_of_poll {cfg : GatewayConfig} {s s' : TradeGateway} {e : Polled}
    (h : step parses cfg s (.poll e) = some s') : Stepped parses cfg s (.poll e) s' := by
  simp only [step] at h
  split_ifs at h with hpolls
  rw [Bool.and_eq_true] at hpolls
  obtain ⟨⟨l, work⟩, hiter, hwork⟩ := Option.bind_eq_some_iff.mp h
  by_cases he : received? e = []
  · obtain rfl | rfl := iteration_quiet he hiter
    all_goals
      obtain rfl := Option.some.inj hwork
      simpa [he] using Stepped.quiet e l hpolls he
  · cases e with
    | message now m =>
      obtain ⟨hping, rfl⟩ | ⟨hping, ⟨hnone, rfl⟩ | ⟨hsome, rfl⟩⟩ := iteration_message hiter
      · obtain ⟨out, hbegin, rfl⟩ := Option.map_eq_some_iff.mp hwork
        exact .ping now m l out hpolls hping hbegin
      · obtain rfl := Option.some.inj hwork
        exact .rejected now m l hpolls hping (underLimit_eq_none.mp hnone)
      · have hlimit : s.Admitted cfg m.head := by
          by_contra hnot
          exact hsome (underLimit_eq_none.mpr hnot)
        simp only [doWork] at hwork
        cases hthreads : cfg.threads with
        | none =>
          rw [hthreads] at hwork
          obtain rfl := Option.some.inj hwork
          exact .direct now m l hpolls hping hlimit hthreads
        | some n =>
          rw [hthreads] at hwork
          obtain rfl := Option.some.inj hwork
          by_cases hpool : s.poolRunning = true
          · rw [if_pos hpool]
            exact .submit now m l n hpolls hping hlimit hthreads hpool
          · rw [if_neg hpool]
            exact .tooLate now m l n hpolls hping hthreads (Bool.eq_false_iff.mpr hpool)
    | error | timeout | noInput | recvFailed => exact absurd rfl he

theorem stepped_of_stopStep {cfg : GatewayConfig} {s s' : TradeGateway} (h : s.stopStep = some s') :
    Stepped parses cfg s .stop s' := by
  unfold stopStep at h
  split at h
  · obtain rfl := Option.some.inj h
    exact .stop false .cleared
  · split_ifs at h
    obtain rfl := Option.some.inj h
    exact .stop s.running .joined
  · obtain rfl := Option.some.inj h
    exact .stop s.running .closed
  · obtain rfl := Option.some.inj h
    exact .stop s.running .nulled
  · cases h

theorem stepped_of_step {cfg : GatewayConfig} {s s' : TradeGateway} {e : Event} (h : step parses cfg s e = some s') :
    Stepped parses cfg s e s' := by
  cases e with
  | poll e => exact stepped_of_poll parses h
  | take i =>
    simp only [step] at h
    split_ifs at h with hfree
    rw [Bool.and_eq_true, decide_eq_true_iff] at hfree
    split at h
    · cases h
    · rename_i m tasks htasks
      obtain rfl := Option.some.inj h
      cases hthreads : cfg.threads with
      | none => simp [hthreads] at hfree
      | some n => exact .take i n m tasks hthreads (by simpa [hthreads] using hfree.1) hfree.2 htasks
  | enter t =>
    simp only [step] at h
    split at h
    · rename_i m hphase
      split at h
      · rename_i kind hsome
        obtain rfl := Option.some.inj h
        exact .callHandler t m kind hphase hsome
      · rename_i hnone
        obtain rfl := Option.some.inj h
        exact .passOver t m hphase hnone
    · cases h
  | handle t response =>
    simp only [step] at h
    split at h
    · rename_i kind m hphase
      cases response with
      | some body =>
        obtain rfl := Option.some.inj h
        exact .answer t kind m body hphase
      | none =>
        obtain rfl := Option.some.inj h
        exact .noAnswer t kind m hphase
    · cases h
  | reply t =>
    simp only [step] at h
    split at h
    · rename_i reply hphase
      split_ifs at h with hstop
      · obtain rfl := Option.some.inj h
        exact .noSocket t reply hphase hstop
      · obtain ⟨out, hbegin, rfl⟩ := Option.map_eq_some_iff.mp h
        exact .reply t reply out hphase hbegin
    · cases h
  | frame t taken =>
    simp only [step] at h
    split_ifs at h
    cases taken with
    | true =>
      obtain ⟨out, hsend, rfl⟩ := Option.map_eq_some_iff.mp h
      exact .frame t out hsend
    | false =>
      obtain ⟨out, hrefuse, rfl⟩ := Option.map_eq_some_iff.mp h
      exact .refused t out hrefuse
  | exitLoop =>
    simp only [step] at h
    split_ifs at h
    obtain rfl := Option.some.inj h
    exact .exitLoop
  | stop => exact stepped_of_stopStep parses h
  | shutdownPool =>
    obtain rfl := Option.some.inj h
    exact .shutdownPool

end TradeGateway
end Chater.Zmq
