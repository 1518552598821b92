import Chater.Zmq.RouterServer

/-!
# The connection of the trade client

`TradeApiZmqImpl::Connect`, `Disconnect`, `IsConnected` and `Send` with the receive loop and the heartbeat loop that
`Connect` starts.  A loop that gives up clears `running_` or just leaves, and nothing it does reaches `connected_` or
`dealerSock_`: those stay as they are until `Disconnect`, and `Connect` returns 0 at once while `dealerSock_` is set.

Calls of `Connect` and `Disconnect` come one after the other.  `Disconnect` waits for both loops, which go on until they
see that `running_` is cleared.
-/

namespace Chater.Zmq

open Foundations

set_option autoImplicit false

/-! ## State -/

/-- A `std::thread` that runs a loop: without a thread, with one in its loop, and with one that has left it and is not
joined. -/
inductive LoopThread
  | absent
  | looping
  | ended
deriving DecidableEq, Repr

inductive DisconnectPhase
  | notCalled
  | joiningHeartbeat
  | joiningRecv
deriving DecidableEq, Repr

inductive ApiCallback
  | connected
  | disconnected (reason : ℤ)
  | message (m : TypeBody)
deriving DecidableEq, Repr

/-- What the calls and the two loops decide by. -/
structure ApiLink where
  dealerSock : Bool
  connected : Bool
  running : Bool
  recvThread : LoopThread
  heartbeatThread : LoopThread
  disconnect : DisconnectPhase
deriving DecidableEq, Repr

/-- An `int` of seconds whose milliseconds fit an `int` too.  With any other, `heartbeatSec_ * 1000` overflows as soon as
the heartbeat loop begins, which is undefined. -/
abbrev HeartbeatSec := { sec : ℤ // sec.natAbs ≤ 2147483 }

/-- The initialiser of `heartbeatSec_`. -/
def fiveSeconds : HeartbeatSec := ⟨5, by decide⟩

/-- `callbacks` are the calls of `on_connected`, `on_disconnected` and `on_message` so far. -/
structure TradeApiZmqImpl extends ApiLink where
  address : String
  routerPort : ℤ
  heartbeatSec : HeartbeatSec
  lastPongTime : ℕ
  missedPongs : ℤ
  callbacks : List ApiCallback

/-- The arguments of `Connect`, whether `CreateDealerSocket` and `ConnectSocket` succeed, and the time. -/
structure ConnectCall where
  address : Option String
  routerPort : ℤ
  heartbeatSec : HeartbeatSec
  created : Bool
  connects : Bool
  now : ℕ

/-- What one round of the receive loop gets: an error of `zmq_poll`, no input, or input for `RecvMessage`. -/
inductive DealerPolled
  | error
  | noInput
  | input (sock : ZmqSocket) (now : ℕ)

def kMaxMissedPongs : ℤ := 3

namespace TradeApiZmqImpl

def fresh : TradeApiZmqImpl :=
  ⟨⟨false, false, false, .absent, .absent, .notCalled⟩, "", 0, fiveSeconds, 0, 0, []⟩

/-! ## Calls -/

def connect (s : TradeApiZmqImpl) (call : ConnectCall) : TradeApiZmqImpl × ℤ :=
  if s.dealerSock then (s, 0)
  else if call.routerPort ≤ 0 then (s, -1)
  else
    let s := { s with
      address := call.address.getD "", routerPort := call.routerPort, heartbeatSec := call.heartbeatSec }
    if call.created && call.connects then
      ({ s with
        dealerSock := true, connected := true, running := true, lastPongTime := call.now, missedPongs := 0
        recvThread := .looping, heartbeatThread := .looping, callbacks := s.callbacks ++ [.connected] }, 0)
    else (s, -1)

def isConnected (s : TradeApiZmqImpl) : Bool := s.connected

/-- `taken` says whether `SendMessage` puts the message on the socket. -/
def send (s : TradeApiZmqImpl) (taken : Bool) : Bool := s.dealerSock && taken

/-! ## Loops -/

/-- The failure branches of both loops; the callback is the last thing the loop does. -/
def giveUp (s : TradeApiZmqImpl) (reason : ℤ) : TradeApiZmqImpl :=
  { s with running := false, callbacks := s.callbacks ++ [.disconnected reason] }

def recvLoop (s : TradeApiZmqImpl) : DealerPolled → TradeApiZmqImpl
  | .error => { s with recvThread := .ended }
  | .noInput => s
  | .input sock now =>
    let c := recvMessage sock ⟨0, []⟩
    if !c.returned then { s.giveUp 0 with recvThread := .ended }
    else if c.out.msgType = kPongType then { s with lastPongTime := now, missedPongs := 0 }
    else { s with callbacks := s.callbacks ++ [.message c.out] }

/-- One round of the heartbeat loop, behind the wait; `sent` says whether `SendMessage` sends the ping. -/
def heartbeatLoop (s : TradeApiZmqImpl) (sent : Bool) (now : ℕ) : TradeApiZmqImpl :=
  if !sent then
    let missed := s.missedPongs + 1
    let s := { s with missedPongs := missed }
    if kMaxMissedPongs ≤ missed then { s.giveUp 1 with heartbeatThread := .ended } else s
  else if s.heartbeatSec * kMaxMissedPongs ≤ elapsedSec now s.lastPongTime then
    { s.giveUp 1 with heartbeatThread := .ended }
  else s

/-! ## Steps -/

inductive Event
  | connect (call : ConnectCall)
  | disconnect
  | joinHeartbeat
  | joinRecv
  | send (taken : Bool)
  | recv (p : DealerPolled)
  | recvLeaves
  | heartbeat (sent : Bool) (now : ℕ)
  | heartbeatLeaves

def step (s : TradeApiZmqImpl) : Event → Option TradeApiZmqImpl
  | .connect call => if s.disconnect = .notCalled then some (s.connect call).1 else none
  | .disconnect =>
    if s.disconnect = .notCalled then some { s with running := false, disconnect := .joiningHeartbeat } else none
  | .joinHeartbeat =>
    if s.disconnect = .joiningHeartbeat ∧ s.heartbeatThread ≠ .looping then
      some { s with heartbeatThread := .absent, disconnect := .joiningRecv }
    else none
  -- the socket is closed and `connected_` cleared behind the second join
  | .joinRecv =>
    if s.disconnect = .joiningRecv ∧ s.recvThread ≠ .looping then
      some { s with recvThread := .absent, dealerSock := false, connected := false, disconnect := .notCalled }
    else none
  | .send _ => some s
  -- a round that has read `running_` before it was cleared is completed
  | .recv p => if s.recvThread = .looping then some (s.recvLoop p) else none
  | .recvLeaves => if s.recvThread = .looping ∧ s.running = false then some { s with recvThread := .ended } else none
  | .heartbeat sent now => if s.heartbeatThread = .looping then some (s.heartbeatLoop sent now) else none
  | .heartbeatLeaves =>
    if s.heartbeatThread = .looping ∧ s.running = false then some { s with heartbeatThread := .ended } else none

end TradeApiZmqImpl

/-! ## Truthfulness -/

/-- Both loops run, on an open socket. -/
def ApiLink.LoopsRun (l : ApiLink) : Prop :=
  l.dealerSock = true ∧ l.recvThread = .looping ∧ l.heartbeatThread = .looping

namespace TradeApiZmqImpl

/-- Between calls, `IsConnected` tells whether both loops run, and `Connect` returns 0 only with both loops running. -/
def Truthful (s : TradeApiZmqImpl) : Prop :=
  s.disconnect = .notCalled →
    (s.isConnected = true ↔ s.LoopsRun) ∧ ∀ call, (s.connect call).2 = 0 → (s.connect call).1.LoopsRun

def recvFails : DealerPolled → Bool
  | .error => true
  | .noInput => false
  | .input sock _ => !(recvMessage sock ⟨0, []⟩).returned

def heartbeatFails (s : TradeApiZmqImpl) (sent : Bool) (now : ℕ) : Bool :=
  if sent then s.heartbeatSec * kMaxMissedPongs ≤ elapsedSec now s.lastPongTime
  else kMaxMissedPongs ≤ s.missedPongs + 1

/-- The step does not end a loop that `Disconnect` is not waiting for. -/
def Stays (s : TradeApiZmqImpl) : Event → Prop
  | .recv p => recvFails p = false ∨ s.disconnect ≠ .notCalled
  | .heartbeat sent now => s.heartbeatFails sent now = false ∨ s.disconnect ≠ .notCalled
  | _ => True

instance (s : TradeApiZmqImpl) : (e : Event) → Decidable (s.Stays e)
  | .recv _ | .heartbeat _ _ => inferInstanceAs (Decidable (_ ∨ _))
  | .connect _ | .disconnect | .joinHeartbeat | .joinRecv | .send _ | .recvLeaves | .heartbeatLeaves => isTrue trivial

theorem recvLoop_link (s : TradeApiZmqImpl) (p : DealerPolled) :
    recvFails p = false ∧ (s.recvLoop p).toApiLink = s.toApiLink ∨
      recvFails p = true ∧ ∃ running,
        (s.recvLoop p).toApiLink = { s.toApiLink with running := running, recvThread := .ended } := by
  cases p with
  | error => exact .inr ⟨rfl, s.running, rfl⟩
  | noInput => exact .inl ⟨rfl, rfl⟩
  | input sock now =>
    simp only [recvLoop, recvFails]
    split_ifs with hfailed hpong
    · exact .inr ⟨hfailed, false, rfl⟩
    · exact .inl ⟨Bool.eq_false_iff.mpr hfailed, rfl⟩
    · exact .inl ⟨Bool.eq_false_iff.mpr hfailed, rfl⟩

theorem heartbeatLoop_link (s : TradeApiZmqImpl) (sent : Bool) (now : ℕ) :
    s.heartbeatFails sent now = false ∧ (s.heartbeatLoop sent now).toApiLink = s.toApiLink ∨
      s.heartbeatFails sent now = true ∧
        (s.heartbeatLoop sent now).toApiLink = { s.toApiLink with running := false, heartbeatThread := .ended } := by
  cases sent with
  | false =>
    by_cases hmissed : kMaxMissedPongs ≤ s.missedPongs + 1
    · exact .inr ⟨by simp [heartbeatFails, hmissed], by simp [heartbeatLoop, hmissed, giveUp]⟩
    · exact .inl ⟨by simp [heartbeatFails, hmissed], by simp [heartbeatLoop, hmissed]⟩
  | true =>
    by_cases htimeout : s.heartbeatSec * kMaxMissedPongs ≤ elapsedSec now s.lastPongTime
    · exact .inr ⟨by simp [heartbeatFails, htimeout], by simp [heartbeatLoop, htimeout, giveUp]⟩
    · exact .inl ⟨by simp [heartbeatFails, htimeout], by simp [heartbeatLoop, htimeout]⟩

theorem connect_link (s : TradeApiZmqImpl) (call : ConnectCall) :
    (s.connect call).1.toApiLink = s.toApiLink ∧ ((s.connect call).2 = 0 → s.dealerSock = true) ∨
      s.dealerSock = false ∧ (s.connect call).1.toApiLink = ⟨true, true, true, .looping, .looping, s.disconnect⟩ := by
  unfold connect
  cases hsock : s.dealerSock with
  | true => exact .inl ⟨rfl, fun _ => rfl⟩
  | false =>
    rw [if_neg Bool.false_ne_true]
    split_ifs
    · exact .inl ⟨rfl, nofun⟩
    · exact .inr ⟨rfl, rfl⟩
    · exact .inl ⟨rfl, nofun⟩

end TradeApiZmqImpl

/-! ## What holds of the link in every run -/

namespace ApiLink

structure Sound (l : ApiLink) : Prop where
  agree : l.disconnect = .notCalled → l.connected = l.dealerSock
  closed : l.dealerSock = false → l.recvThread = .absent ∧ l.heartbeatThread = .absent
  joined : l.disconnect = .joiningRecv → l.heartbeatThread = .absent
  runs : l.disconnect = .notCalled → l.LoopsRun → l.running = true

/-- Between calls an open socket has its loops. -/
def Live (l : ApiLink) : Prop := l.disconnect = .notCalled → l.dealerSock = true → l.LoopsRun

variable {l : ApiLink}

theorem Sound.open_of_recv (h : l.Sound) (hrecv : l.recvThread = .looping) : l.dealerSock = true := by
  by_contra hclosed
  rw [(h.closed (Bool.eq_false_iff.mpr hclosed)).1] at hrecv
  cases hrecv

theorem Sound.open_of_heartbeat (h : l.Sound) (hheartbeat : l.heartbeatThread = .looping) : l.dealerSock = true := by
  by_contra hclosed
  rw [(h.closed (Bool.eq_false_iff.mpr hclosed)).2] at hheartbeat
  cases hheartbeat

/-- With the loops alive, `running_` is cleared by `Disconnect` only. -/
theorem Sound.disconnecting (h : l.Sound) (hlive : l.Live) (hsock : l.dealerSock = true)
    (hrunning : l.running = false) : l.disconnect ≠ .notCalled := by
  intro hcall
  rw [h.runs hcall (hlive hcall hsock)] at hrunning
  cases hrunning

theorem sound_opened : (⟨true, true, true, .looping, .looping, .notCalled⟩ : ApiLink).Sound where
  agree _ := rfl
  closed h := by cases h
  joined h := by cases h
  runs _ _ := rfl

/-- The receive loop ends. -/
theorem Sound.endRecv (h : l.Sound) (hrecv : l.recvThread = .looping) (running : Bool) :
    ({ l with running := running, recvThread := .ended } : ApiLink).Sound where
  agree := h.agree
  closed hclosed := by
    rw [h.open_of_recv hrecv] at hclosed
    cases hclosed
  joined := h.joined
  runs _ hruns := by cases hruns.2.1

theorem Sound.endHeartbeat (h : l.Sound) (hheartbeat : l.heartbeatThread = .looping) (running : Bool) :
    ({ l with running := running, heartbeatThread := .ended } : ApiLink).Sound where
  agree := h.agree
  closed hclosed := by
    rw [h.open_of_heartbeat hheartbeat] at hclosed
    cases hclosed
  joined hjoined := by
    rw [h.joined hjoined] at hheartbeat
    cases hheartbeat
  runs _ hruns := by cases hruns.2.2

/-- A loop that ends leaves the socket without it, unless `Disconnect` is under way. -/
theorem live_endRecv_iff (hsock : l.dealerSock = true) (running : Bool) :
    ({ l with running := running, recvThread := .ended } : ApiLink).Live ↔ l.disconnect ≠ .notCalled := by
  constructor
  · intro hlive hcall
    cases (hlive hcall hsock).2.1
  · intro hcall hcall'
    exact absurd hcall' hcall

theorem live_endHeartbeat_iff (hsock : l.dealerSock = true) (running : Bool) :
    ({ l with running := running, heartbeatThread := .ended } : ApiLink).Live ↔ l.disconnect ≠ .notCalled := by
  constructor
  · intro hlive hcall
    cases (hlive hcall hsock).2.2
  · intro hcall hcall'
    exact absurd hcall' hcall

end ApiLink

namespace TradeApiZmqImpl

variable {s t : TradeApiZmqImpl} {e : Event}

theorem fresh_sound : fresh.Sound where
  agree _ := rfl
  closed _ := ⟨rfl, rfl⟩
  joined h := by cases h
  runs _ h := by cases h.1

theorem fresh_live : fresh.Live := fun _ h => by cases h

theorem truthful_iff_live (h : s.Sound) : s.Truthful ↔ s.Live := by
  constructor
  · intro htrue hcall hsock
    exact (htrue hcall).1.mp ((h.agree hcall).trans hsock)
  · intro hlive hcall
    refine ⟨⟨fun hconn => hlive hcall ((h.agree hcall).symm.trans hconn), fun hruns => ?_⟩, fun call hzero => ?_⟩
    · exact (h.agree hcall).trans hruns.1
    obtain ⟨hsame, hsock⟩ | ⟨-, hopened⟩ := s.connect_link call
    · rw [hsame]
      exact hlive hcall (hsock hzero)
    · rw [hopened]
      exact ⟨rfl, rfl, rfl⟩

/-- One step: what always holds is kept, and the loops stay with the socket exactly if the step ends none. -/
theorem step_link (h : s.Sound) (hstep : step s e = some t) : t.Sound ∧ (s.Live → (s.Stays e ↔ t.Live)) := by
  cases e with
  | connect call =>
    simp only [step] at hstep
    split_ifs at hstep with hcall
    obtain rfl := Option.some.inj hstep
    obtain ⟨hsame, -⟩ | ⟨-, hopened⟩ := s.connect_link call
    · rw [hsame]
      exact ⟨h, fun hlive => iff_of_true trivial hlive⟩
    · rw [hopened, hcall]
      exact ⟨ApiLink.sound_opened, fun _ => iff_of_true trivial fun _ _ => ⟨rfl, rfl, rfl⟩⟩
  | disconnect =>
    simp only [step] at hstep
    split_ifs at hstep
    obtain rfl := Option.some.inj hstep
    exact ⟨⟨nofun, h.closed, nofun, nofun⟩, fun _ => iff_of_true trivial nofun⟩
  | joinHeartbeat =>
    simp only [step] at hstep
    split_ifs at hstep
    obtain rfl := Option.some.inj hstep
    exact ⟨⟨nofun, fun hclosed => ⟨(h.closed hclosed).1, rfl⟩, fun _ => rfl, nofun⟩, fun _ => iff_of_true trivial nofun⟩
  | joinRecv =>
    simp only [step] at hstep
    split_ifs at hstep with hjoin
    obtain rfl := Option.some.inj hstep
    exact ⟨⟨fun _ => rfl, fun _ => ⟨rfl, h.joined hjoin.1⟩, nofun, fun _ hruns => by cases hruns.1⟩,
      fun _ => iff_of_true trivial fun _ hsock => by cases hsock⟩
  | send taken =>
    obtain rfl := Option.some.inj hstep
    exact ⟨h, fun hlive => iff_of_true trivial hlive⟩
  | recv p =>
    simp only [step] at hstep
    split_ifs at hstep with hrecv
    obtain rfl := Option.some.inj hstep
    obtain ⟨hgood, hsame⟩ | ⟨hfails, running, hended⟩ := s.recvLoop_link p
    · rw [hsame]
      exact ⟨h, fun hlive => iff_of_true (.inl hgood) hlive⟩
    · rw [hended, ApiLink.live_endRecv_iff (h.open_of_recv hrecv), Stays, hfails]
      exact ⟨h.endRecv hrecv running, fun _ => or_iff_right nofun⟩
  | recvLeaves =>
    simp only [step] at hstep
    split_ifs at hstep with hrecv
    obtain rfl := Option.some.inj hstep
    have hsock := h.open_of_recv hrecv.1
    refine ⟨h.endRecv hrecv.1 s.running, fun hlive => iff_of_true trivial ?_⟩
    exact (ApiLink.live_endRecv_iff hsock s.running).mpr (h.disconnecting hlive hsock hrecv.2)
  | heartbeat sent now =>
    simp only [step] at hstep
    split_ifs at hstep with hheartbeat
    obtain rfl := Option.some.inj hstep
    obtain ⟨hgood, hsame⟩ | ⟨hfails, hended⟩ := s.heartbeatLoop_link sent now
    · rw [hsame]
      exact ⟨h, fun hlive => iff_of_true (.inl hgood) hlive⟩
    · rw [hended, ApiLink.live_endHeartbeat_iff (h.open_of_heartbeat hheartbeat), Stays, hfails]
      exact ⟨h.endHeartbeat hheartbeat false, fun _ => or_iff_right nofun⟩
  | heartbeatLeaves =>
    simp only [step] at hstep
    split_ifs at hstep with hheartbeat
    obtain rfl := Option.some.inj hstep
    have hsock := h.open_of_heartbeat hheartbeat.1
    refine ⟨h.endHeartbeat hheartbeat.1 s.running, fun hlive => iff_of_true trivial ?_⟩
    exact (ApiLink.live_endHeartbeat_iff hsock s.running).mpr (h.disconnecting hlive hsock hheartbeat.2)

/-- **The client is truthful exactly as long as no loop gives up.**  Every state of a run is truthful if and only if,
outside `Disconnect`, no poll or receive fails, no third ping since the last pong is refused and no pong is overdue. -/
theorem truthful_iff_stays {es : List Event} (hrun : runFrom step fresh es = some s) :
    (∀ es₁ es₂ u, es = es₁ ++ es₂ → runFrom step fresh es₁ = some u → u.Truthful) ↔ Meets step Stays fresh es := by
  refine (meets_iff_forall_of_good (fun u (h : u.Sound ∧ u.Live) => ?_) (fun _ _ _ h hc hm => ?_)
    (fun _ _ _ h hc hm htruthful => hc ?_) ⟨fresh_sound, fresh_live⟩ hrun).symm
  · exact (truthful_iff_live h.1).mpr h.2
  · obtain ⟨hsound, hiff⟩ := step_link h.1 hm
    exact ⟨hsound, (hiff h.2).mp hc⟩
  · obtain ⟨hsound, hiff⟩ := step_link h.1 hm
    exact (hiff h.2).mpr ((truthful_iff_live hsound).mp htruthful)

def localCall : ConnectCall := ⟨some "127.0.0.1", 12345, fiveSeconds, true, true, 0⟩

/-- A pong, a ping in time, and a second connection after `Disconnect`. -/
def reconnected : List Event :=
  [.connect localCall, .recv (.input (.between [⟨typeFrame kPongType, [[]]⟩]) 4000000000), .heartbeat true 5000000000,
    .disconnect, .heartbeatLeaves, .joinHeartbeat, .recv .error, .joinRecv, .connect localCall]

theorem reconnected_truthful :
    ∃ s, runFrom step fresh reconnected = some s ∧ s.LoopsRun ∧
      ∀ es₁ es₂ u, reconnected = es₁ ++ es₂ → runFrom step fresh es₁ = some u → u.Truthful := by
  have hmeets : Meets step Stays fresh reconnected := by decide +kernel
  exact ⟨_, rfl, ⟨rfl, rfl, rfl⟩, (truthful_iff_stays rfl).mpr hmeets⟩

/-- The server's message has a type frame of one byte. -/
def malformedMessage : List Event :=
  [.connect localCall, .recv (.input (.between [⟨[1], []⟩]) 0), .heartbeatLeaves]

theorem connect_after_malformed_message :
    ∃ s, runFrom step fresh malformedMessage = some s ∧ s.callbacks = [.connected, .disconnected 0] ∧
      s.isConnected = true ∧ s.recvThread = .ended ∧ s.heartbeatThread = .ended ∧
      (s.connect localCall).2 = 0 ∧ ¬ (s.connect localCall).1.LoopsRun ∧ ¬ s.Truthful := by
  refine ⟨_, rfl, rfl, rfl, rfl, rfl, rfl, ?_, ?_⟩
  · intro hruns
    cases hruns.2.1
  · intro htrue
    cases ((htrue rfl).1.mp rfl).2.1

end TradeApiZmqImpl
end Chater.Zmq
