import Chater.Zmq.TradeConnection

/-!
# How often the trade client reports a lost front

The receive loop and the heartbeat loop of one `TradeApiZmqImpl::Connect`, taken apart into loads and stores of
`running_`, results of the socket, and calls of the callbacks.  Each loop finds the link dead by itself: the receive loop
when `RecvMessage` fails, the heartbeat loop when the third ping fails or no pong has come for too long.  It then clears
`running_` and calls `on_disconnected` without a look at what the other loop does.

`log` keeps what is counted: the calls of `Connect` that start loops, the calls of `on_disconnected`, and the
returns of `Disconnect`.
-/

namespace Chater.Zmq

open Foundations

set_option autoImplicit false

/-! ## The loops -/

/-- Where the receive loop is, by what it does next. -/
inductive RecvPoint
  | absent
  | whileRunning
  | poll
  | pollFailed
  | recv
  | recvFailed
  | clearRunning
  | onDisconnected
  | storePongTime
  | clearMissedPongs
  | onMessage (m : TypeBody)
  | ended
deriving DecidableEq, Repr

/-- The receive loop has found the link dead and has not reported it yet. -/
def RecvPoint.failing : RecvPoint → Bool
  | .recvFailed | .clearRunning | .onDisconnected => true
  | _ => false

inductive HeartbeatPoint
  | absent
  | whileRunning
  | whileSleeping (slept : ℤ)
  | sleep (slept : ℤ)
  | ifRunning
  | sendPing
  | addMissedPong
  | readClock
  | loadPongTime (now : ℕ)
  | clearRunning
  | onDisconnected
  | ended
deriving DecidableEq, Repr

def HeartbeatPoint.failing : HeartbeatPoint → Bool
  | .clearRunning | .onDisconnected => true
  | _ => false

/-- What the thread that calls `Connect` and `Disconnect` is at. -/
inductive UserPoint
  | outside
  | startHeartbeatThread
  | onConnected
  | joinHeartbeatThread
  | joinRecvThread
deriving DecidableEq, Repr

inductive Mark
  | connect
  | report (reason : ℤ)
  | disconnectReturned
deriving DecidableEq, Repr

structure TradeLoops where
  dealerSock : Bool
  connected : Bool
  running : Bool
  heartbeatSec : HeartbeatSec
  lastPongTime : ℕ
  missedPongs : ℤ
  recvThread : RecvPoint
  heartbeatThread : HeartbeatPoint
  user : UserPoint
  callbacks : List ApiCallback
  log : List Mark

/-- `zmq_poll`: an error, nothing to read, or input. -/
inductive PollResult
  | error
  | noInput
  | input

namespace TradeLoops

def fresh : TradeLoops := ⟨false, false, false, fiveSeconds, 0, 0, .absent, .absent, .outside, [], []⟩

inductive Event
  | connect (call : ConnectCall)
  | startHeartbeatThread
  | onConnected
  | disconnect
  | joinHeartbeatThread
  | joinRecvThread
  | recv (polled : PollResult) (sock : ZmqSocket) (now : ℕ)
  | heartbeat (sent : Bool) (now : ℕ)

/-- `Connect` up to the start of the receive thread; no other thread of the object runs until then. -/
def connect (s : TradeLoops) (call : ConnectCall) : TradeLoops :=
  if s.dealerSock then s
  else if call.routerPort ≤ 0 then s
  else if call.created && call.connects then
    { s with
      dealerSock := true, connected := true, running := true, heartbeatSec := call.heartbeatSec
      lastPongTime := call.now, missedPongs := 0, recvThread := .whileRunning, user := .startHeartbeatThread
      log := s.log ++ [.connect] }
  else { s with heartbeatSec := call.heartbeatSec }

def recvStep (s : TradeLoops) (polled : PollResult) (sock : ZmqSocket) (now : ℕ) : Option TradeLoops :=
  match s.recvThread with
  | .absent | .ended => none
  | .whileRunning => some { s with recvThread := if s.running then .poll else .ended }
  | .poll =>
    match polled with
    | .error => some { s with recvThread := .pollFailed }
    | .noInput => some { s with recvThread := .whileRunning }
    | .input => some { s with recvThread := .recv }
  -- `running_` is loaded only to decide whether to log
  | .pollFailed => some { s with recvThread := .ended }
  | .recv =>
    let c := recvMessage sock ⟨0, []⟩
    if !c.returned then some { s with recvThread := .recvFailed }
    else if c.out.msgType = kPongType then some { s with recvThread := .storePongTime }
    else some { s with recvThread := .onMessage c.out }
  | .recvFailed => some { s with recvThread := .clearRunning }
  | .clearRunning => some { s with running := false, recvThread := .onDisconnected }
  | .onDisconnected =>
    some { s with
      recvThread := .ended, callbacks := s.callbacks ++ [.disconnected 0], log := s.log ++ [.report 0] }
  | .storePongTime => some { s with lastPongTime := now, recvThread := .clearMissedPongs }
  | .clearMissedPongs => some { s with missedPongs := 0, recvThread := .whileRunning }
  | .onMessage m => some { s with recvThread := .whileRunning, callbacks := s.callbacks ++ [.message m] }

def heartbeatStep (s : TradeLoops) (sent : Bool) (now : ℕ) : Option TradeLoops :=
  match s.heartbeatThread with
  | .absent | .ended => none
  | .whileRunning => some { s with heartbeatThread := if s.running then .whileSleeping 0 else .ended }
  | .whileSleeping slept =>
    some { s with
      heartbeatThread := if slept < s.heartbeatSec * 1000 ∧ s.running = true then .sleep slept else .ifRunning }
  | .sleep slept => some { s with heartbeatThread := .whileSleeping (slept + 100) }
  | .ifRunning => some { s with heartbeatThread := if s.running then .sendPing else .ended }
  | .sendPing => some { s with heartbeatThread := if sent then .readClock else .addMissedPong }
  | .addMissedPong =>
    let missed := s.missedPongs + 1
    some { s with
      missedPongs := missed, heartbeatThread := if kMaxMissedPongs ≤ missed then .clearRunning else .whileRunning }
  | .readClock => some { s with heartbeatThread := .loadPongTime now }
  | .loadPongTime now =>
    let elapsed := elapsedSec now s.lastPongTime
    some { s with
      heartbeatThread := if s.heartbeatSec * kMaxMissedPongs ≤ elapsed then .clearRunning else .whileRunning }
  | .clearRunning => some { s with running := false, heartbeatThread := .onDisconnected }
  | .onDisconnected =>
    some { s with
      heartbeatThread := .ended, callbacks := s.callbacks ++ [.disconnected 1], log := s.log ++ [.report 1] }

def step (s : TradeLoops) : Event → Option TradeLoops
  | .connect call => if s.user = .outside then some (s.connect call) else none
  | .startHeartbeatThread =>
    if s.user = .startHeartbeatThread then some { s with heartbeatThread := .whileRunning, user := .onConnected }
    else none
  | .onConnected =>
    if s.user = .onConnected then some { s with user := .outside, callbacks := s.callbacks ++ [.connected] } else none
  | .disconnect =>
    if s.user = .outside then some { s with running := false, user := .joinHeartbeatThread } else none
  | .joinHeartbeatThread =>
    if s.user = .joinHeartbeatThread ∧ (s.heartbeatThread = .absent ∨ s.heartbeatThread = .ended) then
      some { s with heartbeatThread := .absent, user := .joinRecvThread }
    else none
  -- the socket is closed, `connected_` cleared and the call over
  | .joinRecvThread =>
    if s.user = .joinRecvThread ∧ (s.recvThread = .absent ∨ s.recvThread = .ended) then
      some { s with
        recvThread := .absent, dealerSock := false, connected := false, user := .outside
        log := s.log ++ [.disconnectReturned] }
    else none
  | .recv polled sock now => s.recvStep polled sock now
  | .heartbeat sent now => s.heartbeatStep sent now

/-! ## Rounds as single steps

A round of a loop that nothing interrupts is the step that `TradeApiZmqImpl` takes for it. -/

def recvLoopThread : RecvPoint → LoopThread
  | .absent => .absent
  | .ended => .ended
  | _ => .looping

def heartbeatLoopThread : HeartbeatPoint → LoopThread
  | .absent => .absent
  | .ended => .ended
  | _ => .looping

def disconnectPhase : UserPoint → DisconnectPhase
  | .joinHeartbeatThread => .joiningHeartbeat
  | .joinRecvThread => .joiningRecv
  | _ => .notCalled

/-- The state of `TradeApiZmqImpl`; no loop reads the address and the port. -/
def shown (s : TradeLoops) (address : String) (routerPort : ℤ) : TradeApiZmqImpl :=
  ⟨⟨s.dealerSock, s.connected, s.running, recvLoopThread s.recvThread, heartbeatLoopThread s.heartbeatThread,
    disconnectPhase s.user⟩, address, routerPort, s.heartbeatSec, s.lastPongTime, s.missedPongs, s.callbacks⟩

theorem recv_round {s : TradeLoops} (hpoint : s.recvThread = .whileRunning) (hrunning : s.running = true)
    (p : DealerPolled) :
    ∃ es t, runFrom step s es = some t ∧ (t.recvThread = .whileRunning ∨ t.recvThread = .ended) ∧
      ∀ address routerPort, t.shown address routerPort = (s.shown address routerPort).recvLoop p := by
  cases p with
  | error =>
    refine ⟨List.replicate 3 (.recv .error (.between []) 0), { s with recvThread := .ended }, ?_, .inr rfl, ?_⟩
    · simp [runFrom, step, recvStep, hpoint, hrunning]
    · simp [shown, TradeApiZmqImpl.recvLoop, recvLoopThread]
  | noInput =>
    refine ⟨List.replicate 2 (.recv .noInput (.between []) 0), { s with recvThread := .whileRunning }, ?_, .inl rfl, ?_⟩
    · simp [runFrom, step, recvStep, hpoint, hrunning]
    · simp [shown, TradeApiZmqImpl.recvLoop, hpoint]
  | input sock now =>
    by_cases hfailed : (recvMessage sock ⟨0, []⟩).returned = false
    · refine ⟨List.replicate 6 (.recv .input sock now), { s with
        running := false, recvThread := .ended, callbacks := s.callbacks ++ [.disconnected 0],
        log := s.log ++ [.report 0] }, ?_, .inr rfl, ?_⟩
      · simp [runFrom, step, recvStep, hpoint, hrunning, hfailed]
      · simp [shown, TradeApiZmqImpl.recvLoop, TradeApiZmqImpl.giveUp, recvLoopThread, hfailed]
    · by_cases hpong : (recvMessage sock ⟨0, []⟩).out.msgType = kPongType
      · refine ⟨List.replicate 5 (.recv .input sock now), { s with
          lastPongTime := now, missedPongs := 0, recvThread := .whileRunning }, ?_, .inl rfl, ?_⟩
        · simp [runFrom, step, recvStep, hpoint, hrunning, hfailed, hpong]
        · simp [shown, TradeApiZmqImpl.recvLoop, hpoint, hfailed, hpong]
      · refine ⟨List.replicate 4 (.recv .input sock now), { s with
          recvThread := .whileRunning, callbacks := s.callbacks ++ [.message (recvMessage sock ⟨0, []⟩).out] }, ?_,
          .inl rfl, ?_⟩
        · simp [runFrom, step, recvStep, hpoint, hrunning, hfailed, hpong]
        · simp [shown, TradeApiZmqImpl.recvLoop, hpoint, hfailed, hpong]

theorem heartbeat_round {s : TradeLoops} (hpoint : s.heartbeatThread = .ifRunning) (hrunning : s.running = true)
    (sent : Bool) (now : ℕ) :
    ∃ es t, runFrom step s es = some t ∧ (t.heartbeatThread = .whileRunning ∨ t.heartbeatThread = .ended) ∧
      ∀ address routerPort, t.shown address routerPort = (s.shown address routerPort).heartbeatLoop sent now := by
  cases sent with
  | false =>
    by_cases hmissed : kMaxMissedPongs ≤ s.missedPongs + 1
    · refine ⟨List.replicate 5 (.heartbeat false now), { s with
        running := false, missedPongs := s.missedPongs + 1, heartbeatThread := .ended,
        callbacks := s.callbacks ++ [.disconnected 1], log := s.log ++ [.report 1] }, ?_, .inr rfl, ?_⟩
      · simp [runFrom, step, heartbeatStep, hpoint, hrunning, hmissed]
      · simp [shown, TradeApiZmqImpl.heartbeatLoop, TradeApiZmqImpl.giveUp, heartbeatLoopThread, hmissed]
    · refine ⟨List.replicate 3 (.heartbeat false now), { s with
        missedPongs := s.missedPongs + 1, heartbeatThread := .whileRunning }, ?_, .inl rfl, ?_⟩
      · simp [runFrom, step, heartbeatStep, hpoint, hrunning, hmissed]
      · simp [shown, TradeApiZmqImpl.heartbeatLoop, heartbeatLoopThread, hpoint, hmissed]
  | true =>
    by_cases hoverdue : s.heartbeatSec * kMaxMissedPongs ≤ elapsedSec now s.lastPongTime
    · refine ⟨List.replicate 6 (.heartbeat true now), { s with
        running := false, heartbeatThread := .ended, callbacks := s.callbacks ++ [.disconnected 1],
        log := s.log ++ [.report 1] }, ?_, .inr rfl, ?_⟩
      · simp [runFrom, step, heartbeatStep, hpoint, hrunning, hoverdue]
      · simp [shown, TradeApiZmqImpl.heartbeatLoop, TradeApiZmqImpl.giveUp, heartbeatLoopThread, hoverdue]
    · refine ⟨List.replicate 4 (.heartbeat true now), { s with heartbeatThread := .whileRunning }, ?_, .inl rfl, ?_⟩
      · simp [runFrom, step, heartbeatStep, hpoint, hrunning, hoverdue]
      · simp [shown, TradeApiZmqImpl.heartbeatLoop, heartbeatLoopThread, hpoint, hoverdue]

/-! ## One report for each connection -/

/-- Every report comes right behind the `Connect` whose loops make it: no other report and no return of `Disconnect` lies
between them. -/
def ReportsOnce (log : List Mark) : Prop :=
  ∀ pre reason post, log = pre ++ .report reason :: post → pre.getLast? = some .connect

/-- The step in which a loop finds the link dead. -/
def finds (s : TradeLoops) : Event → Bool
  | .recv _ sock _ => s.recvThread == .recv && !(recvMessage sock ⟨0, []⟩).returned
  | .heartbeat _ _ =>
    match s.heartbeatThread with
    | .addMissedPong => kMaxMissedPongs ≤ s.missedPongs + 1
    | .loadPongTime now => s.heartbeatSec * kMaxMissedPongs ≤ elapsedSec now s.lastPongTime
    | _ => false
  | _ => false

/-- No loop has found the link dead since `Connect`. -/
def Unnoticed (s : TradeLoops) : Prop :=
  s.recvThread.failing = false ∧ s.heartbeatThread.failing = false ∧ s.log.getLast? = some .connect

/-- A loop finds the link dead only if the other has not. -/
def FindsAlone (s : TradeLoops) (e : Event) : Prop := s.finds e = true → s.Unnoticed

instance (s : TradeLoops) : Decidable s.Unnoticed := inferInstanceAs (Decidable (_ ∧ _ ∧ _))

instance (s : TradeLoops) (e : Event) : Decidable (FindsAlone s e) := inferInstanceAs (Decidable (_ → _))

/-- A loop that has found the link dead goes on to its report. -/
def Reports (s : TradeLoops) : Event → Prop
  | .recv _ _ _ => s.recvThread.failing = true
  | .heartbeat _ _ => s.heartbeatThread.failing = true
  | _ => False

/-! ## What a step does -/

variable {s t : TradeLoops} {e : Event}

/-- What a step does to the log and to what the loops have found. -/
inductive Effect (s : TradeLoops) (e : Event) (t : TradeLoops) : Prop
  | nothing (hfinds : s.finds e = false) (hrecv : t.recvThread.failing = s.recvThread.failing)
      (hheartbeat : t.heartbeatThread.failing = s.heartbeatThread.failing) (hlog : t.log = s.log)
  | recvFinds (hfinds : s.finds e = true) (hbefore : s.recvThread.failing = false)
      (hrecv : t.recvThread.failing = true) (hheartbeat : t.heartbeatThread.failing = s.heartbeatThread.failing)
      (hlog : t.log = s.log)
  | heartbeatFinds (hfinds : s.finds e = true) (hbefore : s.heartbeatThread.failing = false)
      (hheartbeat : t.heartbeatThread.failing = true) (hrecv : t.recvThread.failing = s.recvThread.failing)
      (hlog : t.log = s.log)
  | recvReports (hfinds : s.finds e = false) (hbefore : s.recvThread.failing = true)
      (hrecv : t.recvThread.failing = false) (hheartbeat : t.heartbeatThread.failing = s.heartbeatThread.failing)
      (hlog : t.log = s.log ++ [.report 0])
  | heartbeatReports (hfinds : s.finds e = false) (hbefore : s.heartbeatThread.failing = true)
      (hheartbeat : t.heartbeatThread.failing = false) (hrecv : t.recvThread.failing = s.recvThread.failing)
      (hlog : t.log = s.log ++ [.report 1])
  | marks (m : Mark) (hm : m = .connect ∨ m = .disconnectReturned) (hfinds : s.finds e = false)
      (hbefore : s.recvThread.failing = false ∧ s.heartbeatThread.failing = false)
      (hafter : t.recvThread.failing = false ∧ t.heartbeatThread.failing = false) (hlog : t.log = s.log ++ [m])

theorem recvStep_effect {polled : PollResult} {sock : ZmqSocket} {now : ℕ} (h : s.recvStep polled sock now = some t) :
    Effect s (.recv polled sock now) t := by
  cases hpoint : s.recvThread with
  | absent | ended =>
    simp only [recvStep, hpoint] at h
    cases h
  | pollFailed | recvFailed | clearRunning | storePongTime | clearMissedPongs | onMessage =>
    simp only [recvStep, hpoint] at h
    obtain rfl := Option.some.inj h
    exact .nothing (by simp [finds, hpoint]) (by simp [hpoint, RecvPoint.failing]) rfl rfl
  | whileRunning =>
    simp only [recvStep, hpoint] at h
    obtain rfl := Option.some.inj h
    refine .nothing (by simp [finds, hpoint]) ?_ rfl rfl
    cases hrunning : s.running <;> simp [hpoint, RecvPoint.failing]
  | poll =>
    simp only [recvStep, hpoint] at h
    cases polled with
    | error | noInput | input =>
      obtain rfl := Option.some.inj h
      exact .nothing (by simp [finds, hpoint]) (by simp [hpoint, RecvPoint.failing]) rfl rfl
  | recv =>
    simp only [recvStep, hpoint] at h
    split_ifs at h with hfailed hpong
    · obtain rfl := Option.some.inj h
      exact .recvFinds (by simp [finds, hpoint, hfailed]) (by simp [hpoint, RecvPoint.failing]) rfl rfl rfl
    · obtain rfl := Option.some.inj h
      exact .nothing (by simp [finds, hpoint, hfailed]) (by simp [hpoint, RecvPoint.failing]) rfl rfl
    · obtain rfl := Option.some.inj h
      exact .nothing (by simp [finds, hpoint, hfailed]) (by simp [hpoint, RecvPoint.failing]) rfl rfl
  | onDisconnected =>
    simp only [recvStep, hpoint] at h
    obtain rfl := Option.some.inj h
    exact .recvReports (by simp [finds, hpoint]) (by simp [hpoint, RecvPoint.failing]) rfl rfl rfl

theorem heartbeatStep_effect {sent : Bool} {now : ℕ} (h : s.heartbeatStep sent now = some t) :
    Effect s (.heartbeat sent now) t := by
  cases hpoint : s.heartbeatThread with
  | absent | ended =>
    simp only [heartbeatStep, hpoint] at h
    cases h
  | sleep | readClock | clearRunning =>
    simp only [heartbeatStep, hpoint] at h
    obtain rfl := Option.some.inj h
    exact .nothing (by simp [finds, hpoint]) rfl (by simp [hpoint, HeartbeatPoint.failing]) rfl
  | whileRunning | whileSleeping | ifRunning | sendPing =>
    simp only [heartbeatStep, hpoint] at h
    obtain rfl := Option.some.inj h
    refine .nothing (by simp [finds, hpoint]) rfl ?_ rfl
    simp only [hpoint]
    split <;> rfl
  | addMissedPong | loadPongTime =>
    simp only [heartbeatStep, hpoint] at h
    obtain rfl := Option.some.inj h
    split_ifs with hdead
    · exact .heartbeatFinds (by simp [finds, hpoint, hdead]) (by simp [hpoint, HeartbeatPoint.failing]) rfl rfl rfl
    · exact .nothing (by simpa [finds, hpoint] using hdead) rfl (by simp [hpoint, HeartbeatPoint.failing]) rfl
  | onDisconnected =>
    simp only [heartbeatStep, hpoint] at h
    obtain rfl := Option.some.inj h
    exact .heartbeatReports (by simp [finds, hpoint]) (by simp [hpoint, HeartbeatPoint.failing]) rfl rfl rfl

/-- The receive loop leaves the calls and the other loop alone, and adds to the log a report at most. -/
theorem recvStep_keeps {polled : PollResult} {sock : ZmqSocket} {now : ℕ} (h : s.recvStep polled sock now = some t) :
    s.recvThread ≠ .absent ∧ t.dealerSock = s.dealerSock ∧ t.user = s.user ∧ t.heartbeatThread = s.heartbeatThread ∧
      (t.log = s.log ∨ ∃ reason, t.log = s.log ++ [.report reason]) := by
  cases hpoint : s.recvThread with
  | absent | ended =>
    simp only [recvStep, hpoint] at h
    cases h
  | poll =>
    simp only [recvStep, hpoint] at h
    cases polled with
    | error | noInput | input =>
      obtain rfl := Option.some.inj h
      exact ⟨by simp, rfl, rfl, rfl, .inl rfl⟩
  | recv =>
    simp only [recvStep, hpoint] at h
    split_ifs at h
    all_goals
      obtain rfl := Option.some.inj h
      exact ⟨by simp, rfl, rfl, rfl, .inl rfl⟩
  | onDisconnected =>
    simp only [recvStep, hpoint] at h
    obtain rfl := Option.some.inj h
    exact ⟨by simp, rfl, rfl, rfl, .inr ⟨0, rfl⟩⟩
  | _ =>
    simp only [recvStep, hpoint] at h
    obtain rfl := Option.some.inj h
    exact ⟨by simp, rfl, rfl, rfl, .inl rfl⟩

theorem heartbeatStep_keeps {sent : Bool} {now : ℕ} (h : s.heartbeatStep sent now = some t) :
    s.heartbeatThread ≠ .absent ∧ t.dealerSock = s.dealerSock ∧ t.user = s.user ∧ t.recvThread = s.recvThread ∧
      (t.log = s.log ∨ ∃ reason, t.log = s.log ++ [.report reason]) := by
  cases hpoint : s.heartbeatThread with
  | absent | ended =>
    simp only [heartbeatStep, hpoint] at h
    cases h
  | onDisconnected =>
    simp only [heartbeatStep, hpoint] at h
    obtain rfl := Option.some.inj h
    exact ⟨by simp, rfl, rfl, rfl, .inr ⟨1, rfl⟩⟩
  | _ =>
    simp only [heartbeatStep, hpoint] at h
    obtain rfl := Option.some.inj h
    exact ⟨by simp, rfl, rfl, rfl, .inl rfl⟩

/-- The steps of the calls with their guards, and the steps of the loops. -/
inductive Stepped (s : TradeLoops) : Event → TradeLoops → Prop
  | refuses (call : ConnectCall) (sec : HeartbeatSec) : Stepped s (.connect call) { s with heartbeatSec := sec }
  | connects (call : ConnectCall) (hclosed : s.dealerSock = false) : Stepped s (.connect call)
      { s with
        dealerSock := true, connected := true, running := true, heartbeatSec := call.heartbeatSec
        lastPongTime := call.now, missedPongs := 0, recvThread := .whileRunning, user := .startHeartbeatThread
        log := s.log ++ [.connect] }
  | startHeartbeatThread (huser : s.user = .startHeartbeatThread) : Stepped s .startHeartbeatThread
      { s with heartbeatThread := .whileRunning, user := .onConnected }
  | onConnected : Stepped s .onConnected { s with user := .outside, callbacks := s.callbacks ++ [.connected] }
  | disconnect : Stepped s .disconnect { s with running := false, user := .joinHeartbeatThread }
  | joinHeartbeatThread (hended : s.heartbeatThread.failing = false) : Stepped s .joinHeartbeatThread
      { s with heartbeatThread := .absent, user := .joinRecvThread }
  | joinRecvThread (huser : s.user = .joinRecvThread) (hended : s.recvThread.failing = false) :
      Stepped s .joinRecvThread
        { s with
          recvThread := .absent, dealerSock := false, connected := false, user := .outside
          log := s.log ++ [.disconnectReturned] }
  | recv {polled : PollResult} {sock : ZmqSocket} {now : ℕ} {t : TradeLoops}
      (h : s.recvStep polled sock now = some t) : Stepped s (.recv polled sock now) t
  | heartbeat {sent : Bool} {now : ℕ} {t : TradeLoops} (h : s.heartbeatStep sent now = some t) :
      Stepped s (.heartbeat sent now) t

theorem stepped_connect (s : TradeLoops) (call : ConnectCall) : Stepped s (.connect call) (s.connect call) := by
  unfold connect
  split_ifs with hsock
  · exact .refuses call s.heartbeatSec
  · exact .refuses call s.heartbeatSec
  · exact .connects call (Bool.eq_false_iff.mpr hsock)
  · exact .refuses call call.heartbeatSec

theorem stepped (h : s.step e = some t) : Stepped s e t := by
  cases e with
  | connect call =>
    simp only [step] at h
    split_ifs at h
    obtain rfl := Option.some.inj h
    exact stepped_connect s call
  | startHeartbeatThread =>
    simp only [step] at h
    split_ifs at h with huser
    obtain rfl := Option.some.inj h
    exact .startHeartbeatThread huser
  | onConnected =>
    simp only [step] at h
    split_ifs at h
    obtain rfl := Option.some.inj h
    exact .onConnected
  | disconnect =>
    simp only [step] at h
    split_ifs at h
    obtain rfl := Option.some.inj h
    exact .disconnect
  | joinHeartbeatThread =>
    simp only [step] at h
    split_ifs at h with hjoin
    obtain rfl := Option.some.inj h
    refine .joinHeartbeatThread ?_
    obtain hpoint | hpoint := hjoin.2
    all_goals
      rw [hpoint]
      rfl
  | joinRecvThread =>
    simp only [step] at h
    split_ifs at h with hjoin
    obtain rfl := Option.some.inj h
    refine .joinRecvThread hjoin.1 ?_
    obtain hpoint | hpoint := hjoin.2
    all_goals
      rw [hpoint]
      rfl
  | recv polled sock now => exact .recv h
  | heartbeat sent now => exact .heartbeat h

/-- Which threads there are at each point of the calls. -/
structure Threads (s : TradeLoops) : Prop where
  closed : s.dealerSock = false → s.recvThread = .absent ∧ s.heartbeatThread = .absent
  starting : s.user = .startHeartbeatThread → s.dealerSock = true ∧ s.heartbeatThread = .absent
  joined : s.user = .joinRecvThread → s.heartbeatThread = .absent

theorem start_threads : Threads fresh := ⟨fun _ => ⟨rfl, rfl⟩, nofun, nofun⟩

theorem Threads.step (h : Threads s) (ht : s.step e = some t) : Threads t := by
  cases stepped ht with
  | refuses => exact ⟨h.closed, h.starting, h.joined⟩
  | connects call hclosed => exact ⟨by simp, fun _ => ⟨rfl, (h.closed hclosed).2⟩, by simp⟩
  | startHeartbeatThread huser =>
    refine ⟨fun hsock => ?_, by simp, by simp⟩
    have hopen := (h.starting huser).1
    rw [show s.dealerSock = false from hsock] at hopen
    cases hopen
  | onConnected | disconnect => exact ⟨h.closed, by simp, by simp⟩
  | joinHeartbeatThread => exact ⟨fun hsock => ⟨(h.closed hsock).1, rfl⟩, by simp, fun _ => rfl⟩
  | joinRecvThread huser => exact ⟨fun _ => ⟨rfl, h.joined huser⟩, by simp, by simp⟩
  | recv ht =>
    obtain ⟨hthere, hsock, huser, hheartbeat, -⟩ := recvStep_keeps ht
    refine ⟨fun hclosed => ?_, fun hstarting => ?_, fun hjoin => ?_⟩
    · exact absurd (h.closed (hsock ▸ hclosed)).1 hthere
    · rw [hsock, hheartbeat]
      exact h.starting (huser ▸ hstarting)
    · rw [hheartbeat]
      exact h.joined (huser ▸ hjoin)
  | heartbeat ht =>
    obtain ⟨hthere, hsock, huser, -⟩ := heartbeatStep_keeps ht
    refine ⟨fun hclosed => ?_, fun hstarting => ?_, fun hjoin => ?_⟩
    · exact absurd (h.closed (hsock ▸ hclosed)).2 hthere
    · exact absurd (h.starting (huser ▸ hstarting)).2 hthere
    · exact absurd (h.joined (huser ▸ hjoin)) hthere

/-- Every step has one of the effects. -/
theorem Threads.effect (h : Threads s) (ht : s.step e = some t) : Effect s e t := by
  cases stepped ht with
  | refuses | onConnected | disconnect => exact .nothing rfl rfl rfl rfl
  | connects call hclosed =>
    obtain ⟨hrecv, hheartbeat⟩ := h.closed hclosed
    have hnone : s.heartbeatThread.failing = false := by
      rw [hheartbeat]
      rfl
    refine .marks .connect (.inl rfl) rfl ⟨?_, hnone⟩ ⟨rfl, hnone⟩ rfl
    rw [hrecv]
    rfl
  | startHeartbeatThread huser =>
    refine .nothing rfl rfl ?_ rfl
    rw [(h.starting huser).2]
    rfl
  | joinHeartbeatThread hended => exact .nothing rfl rfl hended.symm rfl
  | joinRecvThread huser hended =>
    have hnone : s.heartbeatThread.failing = false := by
      rw [h.joined huser]
      rfl
    exact .marks .disconnectReturned (.inr rfl) rfl ⟨hended, hnone⟩ ⟨rfl, hnone⟩ rfl
  | recv ht => exact recvStep_effect ht
  | heartbeat ht => exact heartbeatStep_effect ht

/-! ## The log -/

/-- What holds at every report of a log, by the marks before it. -/
theorem forall_report_append {P : List Mark → Prop} {log : List Mark} {m : Mark} :
    (∀ pre reason post, log ++ [m] = pre ++ .report reason :: post → P pre) ↔
      (∀ pre reason post, log = pre ++ .report reason :: post → P pre) ∧ ∀ reason, m = .report reason → P log := by
  constructor
  · intro h
    refine ⟨fun pre reason post hlog => h pre reason (post ++ [m]) ?_, fun reason hm => h log reason [] (by rw [hm])⟩
    rw [hlog]
    simp
  · rintro ⟨h, hm⟩ pre reason post hlog
    obtain rfl | ⟨post, last, rfl⟩ := post.eq_nil_or_concat'
    · obtain ⟨rfl, hlast⟩ := List.append_inj' hlog rfl
      exact hm reason (List.cons.inj hlast).1
    · rw [← List.cons_append, ← List.append_assoc] at hlog
      exact h pre reason post (List.append_inj' hlog rfl).1

theorem reportsOnce_append {log : List Mark} {m : Mark} :
    ReportsOnce (log ++ [m]) ↔ ReportsOnce log ∧ ∀ reason, m = .report reason → log.getLast? = some .connect :=
  forall_report_append

theorem reportsOnce_of_mark {log : List Mark} {m : Mark} (h : ReportsOnce log)
    (hm : m = .connect ∨ m = .disconnectReturned) : ReportsOnce (log ++ [m]) := by
  refine reportsOnce_append.mpr ⟨h, fun reason hreport => ?_⟩
  rw [hreport] at hm
  simp at hm

/-! ## No report behind `Disconnect` -/

/-- From the return of `Disconnect` to the next `Connect` the socket is closed, and there is no report. -/
structure Quiet (s : TradeLoops) : Prop where
  threads : Threads s
  closed : s.log.getLast? = some .disconnectReturned → s.dealerSock = false
  silent : ∀ pre reason post, s.log = pre ++ .report reason :: post → pre.getLast? ≠ some .disconnectReturned

/-- A loop adds a report at most, and runs on an open socket. -/
theorem Quiet.loop (h : Quiet s) (ht : s.step e = some t) (hopen : s.dealerSock = true)
    (hlog : t.log = s.log ∨ ∃ reason, t.log = s.log ++ [.report reason]) : Quiet t := by
  have hlast : s.log.getLast? ≠ some .disconnectReturned := by
    intro hreturned
    rw [h.closed hreturned] at hopen
    cases hopen
  refine ⟨h.threads.step ht, fun hreturned => ?_, ?_⟩
  · obtain hsame | ⟨reason, hreport⟩ := hlog
    · exact absurd (hsame ▸ hreturned) hlast
    · rw [hreport] at hreturned
      simp at hreturned
  · obtain hsame | ⟨reason, hreport⟩ := hlog
    · rw [hsame]
      exact h.silent
    · rw [hreport]
      exact forall_report_append.mpr ⟨h.silent, fun _ _ => hlast⟩

theorem Quiet.mark (h : Quiet s) (ht : s.step e = some t) {m : Mark} (hm : ∀ reason, m ≠ .report reason)
    (hclosed : m = .disconnectReturned → t.dealerSock = false) (hlog : t.log = s.log ++ [m]) : Quiet t := by
  refine ⟨h.threads.step ht, fun hreturned => hclosed ?_, ?_⟩
  · rw [hlog, List.getLast?_concat] at hreturned
    exact Option.some.inj hreturned
  · rw [hlog]
    exact forall_report_append.mpr ⟨h.silent, fun reason hreport => absurd hreport (hm reason)⟩

theorem Quiet.step (h : Quiet s) (ht : s.step e = some t) : Quiet t := by
  have hthreads := h.threads.step ht
  cases stepped ht with
  | refuses | startHeartbeatThread | onConnected | disconnect | joinHeartbeatThread =>
    exact ⟨hthreads, h.closed, h.silent⟩
  | connects => exact h.mark ht (by simp) (by simp) rfl
  | joinRecvThread => exact h.mark ht (by simp) (fun _ => rfl) rfl
  | recv hloop =>
    obtain ⟨hthere, -, -, -, hlog⟩ := recvStep_keeps hloop
    refine h.loop ht ?_ hlog
    by_contra hclosed
    exact hthere (h.threads.closed (Bool.eq_false_iff.mpr hclosed)).1
  | heartbeat hloop =>
    obtain ⟨hthere, -, -, -, hlog⟩ := heartbeatStep_keeps hloop
    refine h.loop ht ?_ hlog
    by_contra hclosed
    exact hthere (h.threads.closed (Bool.eq_false_iff.mpr hclosed)).2

/-- In every run, no report comes between the return of `Disconnect` and the next `Connect`. -/
theorem silent_after_disconnect {es : List Event} (hrun : runFrom TradeLoops.step fresh es = some s)
    {pre post : List Mark} {reason : ℤ} (hlog : s.log = pre ++ .report reason :: post) :
    pre.getLast? ≠ some .disconnectReturned := by
  have hstart : Quiet fresh := ⟨start_threads, fun _ => rfl, fun pre reason post h => by simp [fresh] at h⟩
  exact (invariant_of_run (fun _ _ _ h ht => Quiet.step h ht) hstart hrun).silent pre reason post hlog

/-! ## Runs -/

/-- One loop at most has found the link dead, and it has not reported it. -/
structure Good (s : TradeLoops) : Prop where
  threads : Threads s
  once : ReportsOnce s.log
  recv : s.recvThread.failing = true → s.heartbeatThread.failing = false ∧ s.log.getLast? = some .connect
  heartbeat : s.heartbeatThread.failing = true → s.recvThread.failing = false ∧ s.log.getLast? = some .connect

/-- A report has been made that is one too many, or it is on its way. -/
structure Bad (s : TradeLoops) : Prop where
  threads : Threads s
  twice : ¬ ReportsOnce s.log ∨ s.recvThread.failing = true ∧ s.heartbeatThread.failing = true ∨
    (s.recvThread.failing = true ∨ s.heartbeatThread.failing = true) ∧ s.log.getLast? ≠ some .connect

theorem fresh_good : Good fresh := by
  refine ⟨start_threads, fun pre reason post h => ?_, by simp [fresh, RecvPoint.failing],
    by simp [fresh, HeartbeatPoint.failing]⟩
  simp [fresh] at h

theorem Good.step (h : Good s) (hc : FindsAlone s e) (ht : s.step e = some t) : Good t := by
  have hthreads := h.threads.step ht
  cases h.threads.effect ht with
  | nothing _ hrecv hheartbeat hlog =>
    refine ⟨hthreads, hlog ▸ h.once, ?_, ?_⟩
    · rw [hrecv, hheartbeat, hlog]
      exact h.recv
    · rw [hrecv, hheartbeat, hlog]
      exact h.heartbeat
  | recvFinds hfinds _ hrecv hheartbeat hlog =>
    obtain ⟨-, hother, hlast⟩ := hc hfinds
    refine ⟨hthreads, hlog ▸ h.once, fun _ => ⟨hheartbeat.trans hother, hlog ▸ hlast⟩, fun hfailing => ?_⟩
    rw [hheartbeat, hother] at hfailing
    cases hfailing
  | heartbeatFinds hfinds _ hheartbeat hrecv hlog =>
    obtain ⟨hother, -, hlast⟩ := hc hfinds
    refine ⟨hthreads, hlog ▸ h.once, fun hfailing => ?_, fun _ => ⟨hrecv.trans hother, hlog ▸ hlast⟩⟩
    rw [hrecv, hother] at hfailing
    cases hfailing
  | recvReports _ hbefore hrecv hheartbeat hlog =>
    obtain ⟨hother, hlast⟩ := h.recv hbefore
    refine ⟨hthreads, ?_, fun hfailing => ?_, fun hfailing => ?_⟩
    · rw [hlog]
      exact reportsOnce_append.mpr ⟨h.once, fun _ _ => hlast⟩
    · rw [hrecv] at hfailing
      cases hfailing
    · rw [hheartbeat, hother] at hfailing
      cases hfailing
  | heartbeatReports _ hbefore hheartbeat hrecv hlog =>
    obtain ⟨hother, hlast⟩ := h.heartbeat hbefore
    refine ⟨hthreads, ?_, fun hfailing => ?_, fun hfailing => ?_⟩
    · rw [hlog]
      exact reportsOnce_append.mpr ⟨h.once, fun _ _ => hlast⟩
    · rw [hrecv, hother] at hfailing
      cases hfailing
    · rw [hheartbeat] at hfailing
      cases hfailing
  | marks m hm _ _ hafter hlog =>
    refine ⟨hthreads, ?_, fun hfailing => ?_, fun hfailing => ?_⟩
    · rw [hlog]
      exact reportsOnce_of_mark h.once hm
    · rw [hafter.1] at hfailing
      cases hfailing
    · rw [hafter.2] at hfailing
      cases hfailing

/-- A second loop that finds the link dead reports it a second time. -/
theorem Good.breaks (h : Good s) (hmiss : ¬ FindsAlone s e) (ht : s.step e = some t) : Bad t := by
  obtain ⟨hfinds, hnoticed⟩ := Classical.not_imp.mp hmiss
  refine ⟨h.threads.step ht, ?_⟩
  cases h.threads.effect ht with
  | nothing hquiet | recvReports hquiet | heartbeatReports hquiet | marks _ _ hquiet =>
    rw [hquiet] at hfinds
    cases hfinds
  | recvFinds _ hbefore hrecv hheartbeat hlog =>
    right
    cases hother : s.heartbeatThread.failing with
    | true => exact .inl ⟨hrecv, hheartbeat.trans hother⟩
    | false => exact .inr ⟨.inl hrecv, fun hlast => hnoticed ⟨hbefore, hother, hlog ▸ hlast⟩⟩
  | heartbeatFinds _ hbefore hheartbeat hrecv hlog =>
    right
    cases hother : s.recvThread.failing with
    | true => exact .inl ⟨hrecv.trans hother, hheartbeat⟩
    | false => exact .inr ⟨.inr hheartbeat, fun hlast => hnoticed ⟨hother, hbefore, hlog ▸ hlast⟩⟩

theorem not_reportsOnce_append {log : List Mark} (h : ¬ ReportsOnce log) (m : Mark) : ¬ ReportsOnce (log ++ [m]) :=
  fun honce => h (reportsOnce_append.mp honce).1

theorem not_reportsOnce_report {log : List Mark} (h : log.getLast? ≠ some .connect) (reason : ℤ) :
    ¬ ReportsOnce (log ++ [.report reason]) :=
  fun honce => h ((reportsOnce_append.mp honce).2 reason rfl)

theorem getLast?_report (log : List Mark) (reason : ℤ) : (log ++ [Mark.report reason]).getLast? ≠ some .connect := by
  simp

theorem Bad.step (h : Bad s) (ht : s.step e = some t) : Bad t := by
  refine ⟨h.threads.step ht, ?_⟩
  cases h.threads.effect ht with
  | nothing _ hrecv hheartbeat hlog =>
    rw [hrecv, hheartbeat, hlog]
    exact h.twice
  | recvFinds _ hbefore hrecv hheartbeat hlog =>
    rw [hheartbeat, hlog]
    obtain htwice | ⟨hfailing, -⟩ | ⟨hfailing, hlast⟩ := h.twice
    · exact .inl htwice
    · rw [hbefore] at hfailing
      cases hfailing
    · exact .inr (.inr ⟨.inl hrecv, hlast⟩)
  | heartbeatFinds _ hbefore hheartbeat hrecv hlog =>
    rw [hrecv, hlog]
    obtain htwice | ⟨-, hfailing⟩ | ⟨hfailing, hlast⟩ := h.twice
    · exact .inl htwice
    · rw [hbefore] at hfailing
      cases hfailing
    · exact .inr (.inr ⟨.inr hheartbeat, hlast⟩)
  | recvReports _ _ _ hheartbeat hlog =>
    rw [hheartbeat, hlog]
    obtain htwice | ⟨-, hother⟩ | ⟨-, hlast⟩ := h.twice
    · exact .inl (not_reportsOnce_append htwice _)
    · exact .inr (.inr ⟨.inr hother, getLast?_report _ _⟩)
    · exact .inl (not_reportsOnce_report hlast 0)
  | heartbeatReports _ _ _ hrecv hlog =>
    rw [hrecv, hlog]
    obtain htwice | ⟨hother, -⟩ | ⟨-, hlast⟩ := h.twice
    · exact .inl (not_reportsOnce_append htwice _)
    · exact .inr (.inr ⟨.inl hother, getLast?_report _ _⟩)
    · exact .inl (not_reportsOnce_report hlast 1)
  | marks m _ _ hbefore _ hlog =>
    rw [hlog]
    obtain htwice | ⟨hfailing, -⟩ | ⟨hfailing | hfailing, -⟩ := h.twice
    · exact .inl (not_reportsOnce_append htwice m)
    · rw [hbefore.1] at hfailing
      cases hfailing
    · rw [hbefore.1] at hfailing
      cases hfailing
    · rw [hbefore.2] at hfailing
      cases hfailing

/-! ### Reports on their way -/

/-- The steps of the receive loop from where it has found the link dead. -/
def recvFinishes : RecvPoint → List Event
  | .recvFailed => List.replicate 3 (.recv .error (.between []) 0)
  | .clearRunning => List.replicate 2 (.recv .error (.between []) 0)
  | .onDisconnected => [.recv .error (.between []) 0]
  | _ => []

def heartbeatFinishes : HeartbeatPoint → List Event
  | .clearRunning => List.replicate 2 (.heartbeat false 0)
  | .onDisconnected => [.heartbeat false 0]
  | _ => []

theorem recv_reports (h : s.recvThread.failing = true) :
    ∃ fs t, Meets step Reports s fs ∧ runFrom step s fs = some t ∧ t.log = s.log ++ [.report 0] ∧
      t.heartbeatThread = s.heartbeatThread := by
  cases hpoint : s.recvThread with
  | recvFailed | clearRunning | onDisconnected =>
    refine ⟨recvFinishes s.recvThread, ?_⟩
    simp [recvFinishes, hpoint, runFrom, Meets, Reports, step, recvStep, RecvPoint.failing]
  | _ => simp [hpoint, RecvPoint.failing] at h

theorem heartbeat_reports (h : s.heartbeatThread.failing = true) :
    ∃ fs t, Meets step Reports s fs ∧ runFrom step s fs = some t ∧ t.log = s.log ++ [.report 1] := by
  cases hpoint : s.heartbeatThread with
  | clearRunning | onDisconnected =>
    refine ⟨heartbeatFinishes s.heartbeatThread, ?_⟩
    simp [heartbeatFinishes, hpoint, runFrom, Meets, Reports, step, heartbeatStep, HeartbeatPoint.failing]
  | _ => simp [hpoint, HeartbeatPoint.failing] at h

theorem Bad.broken (h : Bad s) :
    ∃ fs t, Meets TradeLoops.step Reports s fs ∧ runFrom TradeLoops.step s fs = some t ∧ ¬ ReportsOnce t.log := by
  obtain htwice | ⟨hrecv, hheartbeat⟩ | ⟨hfailing, hlast⟩ := h.twice
  · exact ⟨[], s, trivial, rfl, htwice⟩
  · obtain ⟨fs, m, hfs, hm, hlog, hsame⟩ := recv_reports hrecv
    obtain ⟨fs', t, hfs', ht, hlog'⟩ := heartbeat_reports (s := m) (hsame ▸ hheartbeat)
    refine ⟨fs ++ fs', t, hfs.append hm hfs', runFrom_append hm ht, ?_⟩
    rw [hlog', hlog]
    exact not_reportsOnce_report (getLast?_report _ _) 1
  · obtain hrecv | hheartbeat := hfailing
    · obtain ⟨fs, t, hfs, ht, hlog, -⟩ := recv_reports hrecv
      exact ⟨fs, t, hfs, ht, hlog ▸ not_reportsOnce_report hlast 0⟩
    · obtain ⟨fs, t, hfs, ht, hlog⟩ := heartbeat_reports hheartbeat
      exact ⟨fs, t, hfs, ht, hlog ▸ not_reportsOnce_report hlast 1⟩

theorem findsAlone_of_reports (s : TradeLoops) (e : Event) (h : Reports s e) : FindsAlone s e := by
  intro hfinds
  cases e with
  | recv polled sock now =>
    have hpoint : s.recvThread = .recv := by
      simp only [finds, Bool.and_eq_true, beq_iff_eq] at hfinds
      exact hfinds.1
    simp [Reports, hpoint, RecvPoint.failing] at h
  | heartbeat sent now =>
    simp only [finds] at hfinds
    split at hfinds
    · next hpoint => simp [Reports, hpoint, HeartbeatPoint.failing] at h
    · next hpoint => simp [Reports, hpoint, HeartbeatPoint.failing] at h
    · cases hfinds
  | _ => exact h.elim

/-- **A lost front is reported once if one loop finds it.**  After every run, whatever reports the loops still have on
their way, each is the first since its `Connect` and before the return of `Disconnect`, exactly if a loop has found the
link dead only where the other had not. -/
theorem reportsOnce_iff_findsAlone {es : List Event} (hrun : runFrom step fresh es = some s) :
    (∀ fs t, Meets step Reports s fs → runFrom step s fs = some t → ReportsOnce t.log) ↔
      Meets step FindsAlone fresh es :=
  (meets_iff_forall_finished (fun _ h => h.once) (fun _ _ _ h hc ht => Good.step h hc ht)
    (fun _ _ _ h hmiss ht => Good.breaks h hmiss ht) (fun _ _ _ h ht => Bad.step h ht) findsAlone_of_reports
    (fun _ h => Bad.broken h) fresh_good hrun).symm

def secondsCall : ConnectCall := { TradeApiZmqImpl.localCall with heartbeatSec := ⟨1, by decide⟩ }

/-- The receive loop waits in `RecvMessage` for a message whose type frame has one byte. -/
def receives : List Event :=
  [.connect secondsCall, .startHeartbeatThread, .onConnected] ++ List.replicate 2 (.recv .input (.between [⟨[1], []⟩]) 0)

/-- It finds the link dead, and the heartbeat loop finds `running_` cleared. -/
def recvFindsAlone : List Event :=
  receives ++ List.replicate 4 (.recv .input (.between [⟨[1], []⟩]) 0) ++ [.heartbeat true 0]

theorem reportsOnce_recvFindsAlone :
    ∃ s, runFrom step fresh recvFindsAlone = some s ∧ s.log = [.connect, .report 0] ∧ s.heartbeatThread = .ended ∧
      ∀ fs t, Meets step Reports s fs → runFrom step s fs = some t → ReportsOnce t.log := by
  have hmeets : Meets step FindsAlone fresh recvFindsAlone := by decide +kernel
  exact ⟨_, rfl, rfl, rfl, (reportsOnce_iff_findsAlone rfl).mpr hmeets⟩

/-- The heartbeat loop has sent its ping and sees that no pong has come for three seconds; then both loops go on. -/
def bothFind : List Event :=
  receives ++ List.replicate 26 (.heartbeat true 3000000000) ++
    List.replicate 4 (.recv .input (.between [⟨[1], []⟩]) 0) ++ List.replicate 2 (.heartbeat true 3000000000)

/-- The front is reported lost by both loops of one `Connect`. -/
theorem not_reportsOnce_bothFind :
    ∃ s, runFrom step fresh bothFind = some s ∧ s.log = [.connect, .report 0, .report 1] ∧
      s.callbacks = [.connected, .disconnected 0, .disconnected 1] ∧ ¬ ReportsOnce s.log := by
  have hlast : [Mark.connect, .report 0].getLast? ≠ some .connect := by decide
  exact ⟨_, rfl, rfl, rfl, not_reportsOnce_report hlast 1⟩

end TradeLoops
end Chater.Zmq
