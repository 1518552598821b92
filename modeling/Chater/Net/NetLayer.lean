import Chater.Foundations.Transition
import Chater.Net.Poller
import Chater.Net.TcpConnection
import Mathlib.Logic.Function.Basic

/-!
# The net layer

`TcpServer` with its acceptor and its connections on a base loop and `n` IO loops, whatever the user's callbacks do.
Loop 0 is the base loop, thread `i` runs loop `i`, and higher numbers are threads without a loop.

A thread that runs a loop goes from one user callback to the next in one step: `callback` is the connection whose
callback it is in, with what the handler still has to do after it.  User code may call `Send`, `Shutdown` and
`ForceClose` at any time and on any thread; on a thread that is not the connection's, the test of `state_`, the store
and the push of the functor are separate steps.

A run ends with the first assertion that fails.  Descriptors are never closed, so a descriptor stands for its channel
and for its connection.  `Server` adds the references that keep connections alive and destroys those that have none;
here a connection stays.
-/

namespace Chater.Net

open Base Foundations

set_option autoImplicit false

/-! ## State -/

/-- A functor in the queue of a loop, with the descriptor of the connection it is bound to. -/
inductive ServerFunctor
  | conn (fd : ℕ) (f : Functor)
  | removeConnectionInLoop (fd : ℕ)
deriving DecidableEq

/-- A `Send`, `Shutdown` or `ForceClose` that a thread other than the connection's is in the middle of. -/
structure PendingCall where
  id : ℕ
  mustStore : Bool
  functor : Functor

/-- The assertion that failed; `channelRemove` is that of `Channel::Remove` and `removeChannel` that of
`EventLoop::RemoveChannel`, `noConnection` is a call into a connection that does not exist, and `destructor` stands for
those of `~TcpConnection` and `~Channel`. -/
inductive Failure
  | notInLoopThread
  | connectEstablished
  | handleClose
  | removeConnectionInLoop
  | channelRemove
  | removeChannel
  | poller
  | noConnection
  | destructor
deriving DecidableEq, Repr

/-- A `TcpConnection` with the values that `state_` has had, `Connected()` at each call of `connectionCallback_`, and
how often `RemoveConnectionInLoop` and `ConnectDestroyed` have run for it. -/
structure Conn where
  loop : ℕ
  name : BitVec 32
  conn : TcpConnection
  states : List State
  callbacks : List Bool
  removals : ℕ
  destructions : ℕ

namespace Conn

def new (loop : ℕ) (name : BitVec 32) (conn : TcpConnection) : Conn := ⟨loop, name, conn, [conn.state], [], 0, 0⟩

def setConn (conn : TcpConnection) (c : Conn) : Conn :=
  { c with conn := conn, states := if conn.state = c.conn.state then c.states else c.states ++ [conn.state] }

def recordCallback (c : Conn) : Conn :=
  { c with callbacks := c.callbacks ++ [decide (c.conn.state = .kConnected)] }

def countRemoval (c : Conn) : Conn := { c with removals := c.removals + 1 }

def countDestruction (c : Conn) : Conn := { c with destructions := c.destructions + 1 }

end Conn

/-- Where `EventLoop::Loop` is: in `Poll`; in the handlers, with what is left of the active channels; or in
`DoPendingFunctors`, with the functors left of the batch. -/
inductive Phase
  | polling
  | handling (active : List (ℕ × List Channel.Callback))
  | functors (batch : List ServerFunctor)

def Phase.active : Phase → List (ℕ × List Channel.Callback)
  | .handling active => active
  | _ => []

def Phase.batch : Phase → List ServerFunctor
  | .functors batch => batch
  | _ => []

structure Loop where
  pendingFunctors : List ServerFunctor
  phase : Phase
  callback : Option (ℕ × List Effect)
  poller : Poller ℕ

/-- The functors of a loop that are yet to run. -/
def Loop.queued (l : Loop) : List ServerFunctor := l.phase.batch ++ l.pendingFunctors

/-- `connections` is the map from names to connections; a name is `nextConnId_` behind a text that does not change.
`accepts` counts the calls of `NewConnection`. -/
structure NetLayer where
  started : Bool
  next : ℕ
  nextConnId : BitVec 32
  accepts : ℕ
  connections : BitVec 32 → Option ℕ
  conns : ℕ → Option Conn
  loops : ℕ → Loop
  calls : List PendingCall
  openFds : List ℕ

namespace NetLayer

structure Config where
  acceptSocket : ℕ
  wakeupFd : ℕ → ℕ
  writeCompleteCallback : Bool

/-- The descriptors that are open before the first client. -/
def Config.fds (cfg : Config) (n : ℕ) : List ℕ := cfg.acceptSocket :: (List.range (n + 1)).map cfg.wakeupFd

/-- The constructor of `EventLoop` enables reading on the wakeup channel. -/
def startPoller (cfg : Config) (n loop : ℕ) : Poller ℕ :=
  if loop ≤ n then (Poller.start.apply id (cfg.wakeupFd loop) .enableReading).getD .start else .start

/-- `started_` has no initialiser in the source; here its memory holds 0, so that `TcpServer::Start` starts. -/
def start (cfg : Config) (n : ℕ) : NetLayer where
  started := false
  next := 0
  nextConnId := 1
  accepts := 0
  connections _ := none
  conns _ := none
  loops loop := ⟨[], .polling, none, startPoller cfg n loop⟩
  calls := []
  openFds := cfg.fds n

/-! ## The pieces of a step -/

def assertInLoopThread {α : Type} (thread loop : ℕ) (rest : Except Failure α) : Except Failure α :=
  if thread = loop then rest else .error .notInLoopThread

def modifyLoop (s : NetLayer) (loop : ℕ) (f : Loop → Loop) : NetLayer :=
  { s with loops := Function.update s.loops loop (f (s.loops loop)) }

def modifyConn (s : NetLayer) (fd : ℕ) (f : Conn → Conn) : NetLayer :=
  { s with conns := Function.update s.conns fd ((s.conns fd).map f) }

def queueInLoop (s : NetLayer) (loop : ℕ) (f : ServerFunctor) : NetLayer :=
  s.modifyLoop loop fun l => { l with pendingFunctors := l.pendingFunctors ++ [f] }

def setPoller (s : NetLayer) (loop : ℕ) (p : Poller ℕ) : NetLayer := s.modifyLoop loop fun l => { l with poller := p }

def enterCallback (s : NetLayer) (thread fd : ℕ) (rest : List Effect) : NetLayer :=
  s.modifyLoop thread fun l => { l with callback := some (fd, rest) }

def leaveCallback (s : NetLayer) (thread : ℕ) : NetLayer := s.modifyLoop thread fun l => { l with callback := none }

def setConn (s : NetLayer) (fd : ℕ) (conn : TcpConnection) : NetLayer := s.modifyConn fd (Conn.setConn conn)

def recordCallback (s : NetLayer) (fd : ℕ) : NetLayer := s.modifyConn fd Conn.recordCallback

def countRemoval (s : NetLayer) (fd : ℕ) : NetLayer := s.modifyConn fd Conn.countRemoval

def countDestruction (s : NetLayer) (fd : ℕ) : NetLayer := s.modifyConn fd Conn.countDestruction

/-! ## The poller behind a handler -/

/-- A handler that calls `Channel::Update` changes the events or the index of its channel. -/
def channelUpdated (before after : Channel) : Bool :=
  after.events != before.events || (after.addedToLoop && after.index != before.index)

def channelRemoved (before after : Channel) : Bool := before.addedToLoop && !after.addedToLoop

/-- What the poller does for a handler that leaves the channel of `fd` as `channel`. -/
def followPoller (p : Poller ℕ) (fd : ℕ) (channel : Channel) : Option (Poller ℕ) :=
  let before := p.channel fd
  let updated :=
    if channelUpdated before channel then
      (p.setChannel fd { before with events := channel.events, addedToLoop := true }).updateChannel id fd
    else some p
  updated.bind fun p =>
    if channelRemoved before channel then
      (p.setChannel fd { p.channel fd with addedToLoop := false }).removeChannel id fd
    else some p

def followChannel (s : NetLayer) (thread loop fd : ℕ) (channel : Channel) : Except Failure NetLayer :=
  if channel = (s.loops loop).poller.channel fd then .ok s
  else
    assertInLoopThread thread loop <|
      match followPoller (s.loops loop).poller fd channel with
      | some p => .ok (s.setPoller loop p)
      | none => .error .poller

/-! ## The server -/

/-- `EventLoopThreadPool::GetNextLoop` with `n` loops: the loop, and `next_` afterwards. -/
def getNextLoop (n next : ℕ) : ℕ × ℕ :=
  if n = 0 then (0, next) else (next + 1, if next + 1 ≥ n then 0 else next + 1)

def removeConnectionInLoop (s : NetLayer) (thread fd : ℕ) : Except Failure NetLayer :=
  assertInLoopThread thread 0 <|
    match s.conns fd with
    | none => .error .noConnection
    | some c =>
      if s.connections c.name = none then .error .removeConnectionInLoop
      else
        let s := { s with connections := Function.update s.connections c.name none }
        .ok ((s.countRemoval fd).queueInLoop c.loop (.conn fd .connectDestroyed))

def removeConnection (s : NetLayer) (thread fd : ℕ) : Except Failure NetLayer :=
  if thread = 0 then s.removeConnectionInLoop thread fd
  else .ok (s.queueInLoop 0 (.removeConnectionInLoop fd))

/-- What is left of a handler, up to the next user callback. -/
def runEffects (thread fd loop : ℕ) : List Effect → NetLayer → Except Failure NetLayer
  | [], s => .ok s
  | .connectionCallback :: rest, s => .ok ((s.recordCallback fd).enterCallback thread fd rest)
  | .messageCallback :: rest, s => .ok (s.enterCallback thread fd rest)
  | .closeCallback :: rest, s => (s.removeConnection thread fd).bind (runEffects thread fd loop rest)
  | .queueInLoop f :: rest, s => runEffects thread fd loop rest (s.queueInLoop loop (.conn fd f))
  | .runInLoop _ :: rest, s => runEffects thread fd loop rest s
  | .epollCtl _ :: rest, s => runEffects thread fd loop rest s
  | .write _ :: rest, s => runEffects thread fd loop rest s
  | .shutdownWrite :: rest, s => runEffects thread fd loop rest s

/-- A handler of the connection `c`, behind `loop_->AssertInLoopThread()`. -/
def runHandler (s : NetLayer) (thread fd : ℕ) (c : Conn) (r : TcpConnection × List Effect) :
    Except Failure NetLayer :=
  assertInLoopThread thread c.loop <|
    (s.followChannel thread c.loop fd r.1.channel).bind fun s =>
      runEffects thread fd c.loop r.2 (s.setConn fd r.1)

/-- A handler with an assertion of its own. -/
def runAsserting (s : NetLayer) (thread fd : ℕ) (c : Conn) (assertion : Failure) :
    Option (TcpConnection × List Effect) → Except Failure NetLayer
  | some r => s.runHandler thread fd c r
  | none => assertInLoopThread thread c.loop (.error assertion)

/-- The connection that `TcpServer::NewConnection` makes and enters under its name. -/
def addConn (s : NetLayer) (next fd : ℕ) (c : Conn) : NetLayer :=
  { s with
    next := next
    nextConnId := s.nextConnId + 1
    accepts := s.accepts + 1
    connections := Function.update s.connections c.name (some fd)
    conns := Function.update s.conns fd (some c) }

/-- `TcpServer::NewConnection`, with `RunInLoop(ConnectEstablished)` at its end. -/
def newConnection (cfg : Config) (n : ℕ) (s : NetLayer) (thread fd : ℕ) : Except Failure NetLayer :=
  assertInLoopThread thread 0 <|
    let ioLoop := getNextLoop n s.next
    let c := Conn.new ioLoop.1 s.nextConnId (.new cfg.writeCompleteCallback)
    let s := s.addConn ioLoop.2 fd c
    if thread = c.loop then s.runAsserting thread fd c .connectEstablished c.conn.connectEstablished
    else .ok (s.queueInLoop c.loop (.conn fd .connectEstablished))

/-- `Acceptor::HandleRead` with the result of `accept`.  When there is none, the idle descriptor takes the client in
and closes it. -/
def acceptorHandleRead (cfg : Config) (n : ℕ) (s : NetLayer) (thread : ℕ) :
    Option ℕ → Option (Except Failure NetLayer)
  | some connfd =>
    if connfd ∈ s.openFds then none
    else
      some (assertInLoopThread thread 0 (newConnection cfg n { s with openFds := connfd :: s.openFds } thread connfd))
  | none => some (assertInLoopThread thread 0 (.ok s))

/-- `TcpServer::Start` on the thread of the base loop, which `EventLoopThreadPool::Start` wants; there `RunInLoop` calls
`Acceptor::Listen` at once. -/
def startServer (cfg : Config) (s : NetLayer) : Except Failure NetLayer :=
  if s.started then .ok s
  else
    assertInLoopThread 0 0 <|
      match (s.loops 0).poller.apply id cfg.acceptSocket .enableReading with
      | some p => .ok ({ s with started := true }.setPoller 0 p)
      | none => .error .poller

/-! ## Functors and events -/

def runFunctor (s : NetLayer) (thread : ℕ) (result : WriteResult) :
    ServerFunctor → Option (Except Failure NetLayer)
  | .removeConnectionInLoop fd => some (s.removeConnectionInLoop thread fd)
  | .conn fd f =>
    match s.conns fd with
    | none => some (.error .noConnection)
    | some c =>
      match f with
      | .sendInLoop message => (c.conn.sendInLoop message result).map (s.runHandler thread fd c)
      | .shutdownInLoop => some (s.runHandler thread fd c (c.conn, c.conn.shutdownInLoop))
      | .forceCloseInLoop => some (s.runAsserting thread fd c .handleClose c.conn.forceCloseInLoop)
      | .connectEstablished => some (s.runAsserting thread fd c .connectEstablished c.conn.connectEstablished)
      | .connectDestroyed =>
        some ((s.countDestruction fd).runAsserting thread fd c .channelRemove c.conn.connectDestroyed)
      | .writeComplete | .highWaterMark _ => some (.ok (s.enterCallback thread fd []))

/-- What the system calls of a handler return, and what the user's message callback does to the input buffer. -/
structure Results where
  accept : Option ℕ
  readv : RingBuffer.ReadvResult
  write : WriteResult
  messageCallback : WfBuffer → WfBuffer

/-- A callback of the channel of `fd`.  The wakeup channel and the acceptor's have only a read callback. -/
def runCallback (cfg : Config) (n : ℕ) (s : NetLayer) (thread fd : ℕ) (results : Results)
    (callback : Channel.Callback) : Option (Except Failure NetLayer) :=
  if fd = cfg.wakeupFd thread then some (.ok s)
  else if fd = cfg.acceptSocket then
    if callback = .read then acceptorHandleRead cfg n s thread results.accept else some (.ok s)
  else
    match s.conns fd with
    | none => some (.error .noConnection)
    | some c =>
      match callback with
      | .close => some (s.runAsserting thread fd c .handleClose c.conn.handleClose)
      | .error => some (.ok s)
      | .read =>
        some (s.runAsserting thread fd c .handleClose (c.conn.handleRead results.readv results.messageCallback))
      | .write => (c.conn.handleWrite results.write).map (s.runHandler thread fd c)

/-! ## Steps -/

inductive Event
  | start
  | poll (loop : ℕ) (reported : List (ℕ × Events))
  | handle (loop : ℕ) (results : Results)
  | doPendingFunctors (loop : ℕ)
  | run (loop : ℕ) (result : WriteResult)
  | endFunctors (loop : ℕ)
  | callbackReturns (loop : ℕ)
  | send (thread fd : ℕ) (message : List UInt8) (result : WriteResult)
  | shutdown (thread fd : ℕ)
  | forceClose (thread fd : ℕ)
  | store (call : ℕ)
  | push (call : ℕ)

def beginCall (s : NetLayer) (call : PendingCall) : NetLayer := { s with calls := s.calls ++ [call] }

def setPhase (s : NetLayer) (loop : ℕ) (phase : Phase) : NetLayer := s.modifyLoop loop fun l => { l with phase := phase }

/-- `FillActiveChannels`: the channels that the kernel has for the reported descriptors. -/
def fillActiveChannels (p : Poller ℕ) (reported : List (ℕ × Events)) : List (ℕ × List Channel.Callback) :=
  reported.filterMap fun x => (p.kernel x.1).map fun entry => (entry.2, Channel.handleEvent x.2)

/-- A step of the thread that runs `loop`, when it is not in a user callback. -/
def loopStep (cfg : Config) (n : ℕ) (s : NetLayer) (loop : ℕ) : Event → Option (Except Failure NetLayer)
  | .poll _ reported =>
    match (s.loops loop).phase with
    | .polling =>
      if ∀ x ∈ reported, (s.loops loop).poller.kernel x.1 ≠ none then
        some (.ok (s.setPhase loop (.handling (fillActiveChannels (s.loops loop).poller reported))))
      else none
    | _ => none
  | .handle _ results =>
    match (s.loops loop).phase with
    | .handling ((fd, callback :: callbacks) :: active) =>
      runCallback cfg n (s.setPhase loop (.handling ((fd, callbacks) :: active))) loop fd results callback
    | .handling ((_, []) :: active) => some (.ok (s.setPhase loop (.handling active)))
    | _ => none
  | .doPendingFunctors _ =>
    match (s.loops loop).phase with
    | .handling [] =>
      some (.ok (s.modifyLoop loop fun l => { l with pendingFunctors := [], phase := .functors l.pendingFunctors }))
    | _ => none
  | .run _ result =>
    match (s.loops loop).phase with
    | .functors (f :: batch) => runFunctor (s.setPhase loop (.functors batch)) loop result f
    | _ => none
  | .endFunctors _ =>
    match (s.loops loop).phase with
    | .functors [] => some (.ok (s.setPhase loop .polling))
    | _ => none
  | _ => none

def callbackReturns (s : NetLayer) (loop : ℕ) : Option (Except Failure NetLayer) :=
  match (s.loops loop).callback with
  | none => none
  | some (fd, rest) =>
    match s.conns fd with
    | none => some (.error .noConnection)
    | some c => some (runEffects loop fd c.loop rest (s.leaveCallback loop))

/-- `Send`, `Shutdown` or `ForceClose` on some thread. -/
def userCall (s : NetLayer) : Event → Option (Except Failure NetLayer)
  | .send thread fd message result =>
    (s.conns fd).bind fun c =>
      if c.conn.state ≠ .kConnected then some (.ok s)
      else if thread = c.loop then (c.conn.sendInLoop message result).map (s.runHandler thread fd c)
      else some (.ok (s.beginCall ⟨fd, false, .sendInLoop message⟩))
  | .shutdown thread fd =>
    (s.conns fd).bind fun c =>
      if c.conn.state ≠ .kConnected then some (.ok s)
      else if thread = c.loop then some (s.runHandler thread fd c (c.conn.shutdown.1, c.conn.shutdownInLoop))
      else some (.ok (s.beginCall ⟨fd, true, .shutdownInLoop⟩))
  | .forceClose thread fd =>
    (s.conns fd).bind fun c =>
      if c.conn.state ≠ .kConnected ∧ c.conn.state ≠ .kDisconnecting then some (.ok s)
      else if thread = c.loop then some (s.runHandler thread fd c c.conn.forceClose)
      else some (.ok (s.beginCall ⟨fd, true, .forceCloseInLoop⟩))
  | .store i =>
    (s.calls[i]?).bind fun call =>
      if call.mustStore then
        (s.conns call.id).map fun c =>
          .ok ({ s with calls := s.calls.set i { call with mustStore := false } }.setConn call.id
            { c.conn with state := .kDisconnecting })
      else none
  | .push i =>
    (s.calls[i]?).bind fun call =>
      if call.mustStore then none
      else
        (s.conns call.id).map fun c =>
          .ok ({ s with calls := s.calls.eraseIdx i }.queueInLoop c.loop (.conn call.id call.functor))
  | _ => none

/-- The loop whose thread takes the step, for the steps of `EventLoop::Loop`. -/
def Event.loop : Event → Option ℕ
  | .poll loop _ | .handle loop _ | .doPendingFunctors loop | .run loop _ | .endFunctors loop => some loop
  | _ => none

def act (cfg : Config) (n : ℕ) (s : NetLayer) (e : Event) : Option (Except Failure NetLayer) :=
  match e.loop with
  | some loop => if loop ≤ n ∧ (s.loops loop).callback = none then loopStep cfg n s loop e else none
  | none =>
    match e with
    | .start => some (startServer cfg s)
    | .callbackReturns loop => s.callbackReturns loop
    | e => s.userCall e

def step (cfg : Config) (n : ℕ) : Except Failure NetLayer → Event → Option (Except Failure NetLayer)
  | .ok s, e => act cfg n s e
  | .error _, _ => none

/-! ## What a loop can do -/

/-- The steps of the thread that runs `loop`, with the phase each is taken in. -/
inductive LoopStep (cfg : Config) (n : ℕ) (s : NetLayer) (loop : ℕ) : Event → Except Failure NetLayer → Prop
  | poll {l : ℕ} {reported : List (ℕ × Events)} (hphase : (s.loops loop).phase = .polling)
      (hregistered : ∀ x ∈ reported, (s.loops loop).poller.kernel x.1 ≠ none) :
      LoopStep cfg n s loop (.poll l reported)
        (.ok (s.setPhase loop (.handling (fillActiveChannels (s.loops loop).poller reported))))
  | handle {l : ℕ} {results : Results} {fd : ℕ} {callback : Channel.Callback} {callbacks : List Channel.Callback}
      {active : List (ℕ × List Channel.Callback)} {r : Except Failure NetLayer}
      (hphase : (s.loops loop).phase = .handling ((fd, callback :: callbacks) :: active))
      (hr : runCallback cfg n (s.setPhase loop (.handling ((fd, callbacks) :: active))) loop fd results callback =
        some r) : LoopStep cfg n s loop (.handle l results) r
  | nextChannel {l : ℕ} {results : Results} {fd : ℕ} {active : List (ℕ × List Channel.Callback)}
      (hphase : (s.loops loop).phase = .handling ((fd, []) :: active)) :
      LoopStep cfg n s loop (.handle l results) (.ok (s.setPhase loop (.handling active)))
  | doPendingFunctors {l : ℕ} (hphase : (s.loops loop).phase = .handling []) :
      LoopStep cfg n s loop (.doPendingFunctors l)
        (.ok (s.modifyLoop loop fun l => { l with pendingFunctors := [], phase := .functors l.pendingFunctors }))
  | run {l : ℕ} {result : WriteResult} {f : ServerFunctor} {batch : List ServerFunctor} {r : Except Failure NetLayer}
      (hphase : (s.loops loop).phase = .functors (f :: batch))
      (hr : runFunctor (s.setPhase loop (.functors batch)) loop result f = some r) :
      LoopStep cfg n s loop (.run l result) r
  | endFunctors {l : ℕ} (hphase : (s.loops loop).phase = .functors []) :
      LoopStep cfg n s loop (.endFunctors l) (.ok (s.setPhase loop .polling))

theorem loopStep_cases {cfg : Config} {n : ℕ} {s : NetLayer} {loop : ℕ} {e : Event} {r : Except Failure NetLayer}
    (h : loopStep cfg n s loop e = some r) : LoopStep cfg n s loop e r := by
  cases e with
  | poll l reported =>
    simp only [loopStep] at h
    split at h
    case h_1 hphase =>
      split_ifs at h with hregistered
      obtain rfl := Option.some.inj h
      exact .poll hphase hregistered
    case h_2 => cases h
  | handle l results =>
    simp only [loopStep] at h
    split at h
    case h_1 hphase => exact .handle hphase h
    case h_2 hphase =>
      obtain rfl := Option.some.inj h
      exact .nextChannel hphase
    case h_3 => cases h
  | doPendingFunctors l =>
    simp only [loopStep] at h
    split at h
    case h_1 hphase =>
      obtain rfl := Option.some.inj h
      exact .doPendingFunctors hphase
    case h_2 => cases h
  | run l result =>
    simp only [loopStep] at h
    split at h
    case h_1 hphase => exact .run hphase h
    case h_2 => cases h
  | endFunctors l =>
    simp only [loopStep] at h
    split at h
    case h_1 hphase =>
      obtain rfl := Option.some.inj h
      exact .endFunctors hphase
    case h_2 => cases h
  | _ => cases h

/-! ## Reading an updated state -/

@[simp] theorem assertInLoopThread_self {α : Type} (loop : ℕ) (rest : Except Failure α) :
    assertInLoopThread loop loop rest = rest := if_pos rfl

@[simp] theorem loops_modifyLoop_self (s : NetLayer) (loop : ℕ) (f : Loop → Loop) :
    (s.modifyLoop loop f).loops loop = f (s.loops loop) := Function.update_self ..

theorem loops_modifyLoop_of_ne (s : NetLayer) {loop other : ℕ} (h : other ≠ loop) (f : Loop → Loop) :
    (s.modifyLoop loop f).loops other = s.loops other := Function.update_of_ne h ..

theorem queued_push (l : Loop) (f : ServerFunctor) :
    { l with pendingFunctors := l.pendingFunctors ++ [f] }.queued = l.queued ++ [f] :=
  (List.append_assoc _ _ [f]).symm

theorem conns_modifyConn_self {s : NetLayer} {fd : ℕ} {c : Conn} (h : s.conns fd = some c) (f : Conn → Conn) :
    (s.modifyConn fd f).conns fd = some (f c) := by
  show Function.update s.conns fd ((s.conns fd).map f) fd = some (f c)
  rw [Function.update_self, h]
  rfl

theorem conns_modifyConn_of_ne (s : NetLayer) {fd other : ℕ} (h : other ≠ fd) (f : Conn → Conn) :
    (s.modifyConn fd f).conns other = s.conns other := Function.update_of_ne h ..

end NetLayer
end Chater.Net
