import Chater.Net.CallbackSteps
import Mathlib.Data.Finmap
import Mathlib.Data.Finset.Sort

/-!
# The gateway server on one loop

`GatewayServer` over the net layer without IO threads: the callbacks `OnConnection` and `OnMessage`, the heartbeat timer,
and the three registries they keep, the `connections_` of `ConnectionManager`, the `sessions_` of `SessionManager` and
`lastHeartbeats_`.

A callback of the gateway runs to its end in the step of the net layer that begins it.  What it calls on the connection,
`Send` or the `ForceClose` of a protocol error, are later steps of the net layer, which may come at any time.  The
clock may show anything.
-/

namespace Chater.Gateway

open Net Foundations

set_option autoImplicit false

/-! ## The registries -/

structure Session where
  connId : ℤ
  account : String
  loggedIn : Bool
  loginTime : ℤ
  lastHeartbeat : ℤ

/-- A connection stands for the weak pointer to it, by its descriptor; `connIds` is `connId_` of each connection. -/
structure Registries where
  nextConnId : ℤ
  connections : Finmap fun _ : ℤ => ℕ
  sessions : Finmap fun _ : ℤ => Session
  lastHeartbeats : Finmap fun _ : ℤ => ℤ
  connIds : ℕ → ℤ

namespace Registries

def start : Registries := ⟨1, ∅, ∅, ∅, fun _ => 0⟩

def addConnection (r : Registries) (fd : ℕ) : Registries :=
  { r with nextConnId := r.nextConnId + 1, connections := r.connections.insert r.nextConnId fd }

def removeConnection (r : Registries) (connId : ℤ) : Registries := { r with connections := r.connections.erase connId }

def setConnId (r : Registries) (fd : ℕ) (connId : ℤ) : Registries :=
  { r with connIds := Function.update r.connIds fd connId }

def addSession (r : Registries) (connId now : ℤ) : Registries :=
  if connId ∈ r.sessions then r else { r with sessions := r.sessions.insert connId ⟨connId, "", false, 0, now⟩ }

def removeSession (r : Registries) (connId : ℤ) : Registries := { r with sessions := r.sessions.erase connId }

def setHeartbeat (r : Registries) (connId now : ℤ) : Registries :=
  { r with lastHeartbeats := r.lastHeartbeats.insert connId now }

def eraseHeartbeat (r : Registries) (connId : ℤ) : Registries :=
  { r with lastHeartbeats := r.lastHeartbeats.erase connId }

/-- `GatewayServer::OnConnection`; `connected` is `conn->Connected()`. -/
def onConnection (r : Registries) (fd : ℕ) (connected : Bool) (now : ℤ) : Registries :=
  if connected then
    let connId := r.nextConnId
    (((r.addConnection fd).setConnId fd connId).addSession connId now).setHeartbeat connId now
  else
    let connId := r.connIds fd
    if 0 < connId then ((r.removeConnection connId).removeSession connId).eraseHeartbeat connId else r

/-- `GatewayServer::OnMessage` before it hands the buffer to the codec. -/
def onMessage (r : Registries) (fd : ℕ) (now : ℤ) : Registries :=
  if 0 < r.connIds fd then r.setHeartbeat (r.connIds fd) now else r

end Registries

/-! ## The server -/

/-- The server's map has the connection. -/
def holds (net : NetLayer) (fd : ℕ) : Bool := (net.conns fd).any fun c => net.connections c.name == some fd

structure GatewayServer where
  net : NetLayer
  reg : Registries

namespace GatewayServer

def start (cfg : NetLayer.Config) : GatewayServer := ⟨.start cfg 0, .start⟩

/-- `GetConnection`: the weak pointer is good as long as the server's map holds the connection. -/
def getConnection (g : GatewayServer) (connId : ℤ) : Option ℕ :=
  (g.reg.connections.lookup connId).filter (holds g.net)

/-- The connection whose callback the loop has just begun. -/
def begun (loop : ℕ) (before after : NetLayer) : Option ℕ :=
  match (before.loops loop).callback, (after.loops loop).callback with
  | none, some (fd, _) => some fd
  | _, _ => none

/-- What the callback begun by a step does.  `connectionCallback_` leaves a record with the connection; of the others,
`messageCallback_` is called by the handler of a channel, and `OnWriteComplete` by a functor. -/
def react (before : NetLayer) (e : NetLayer.Event) (after : NetLayer) (now : ℤ) (r : Registries) : Registries :=
  match begun 0 before after with
  | none => r
  | some fd =>
    if after.callbacksOf fd ≠ before.callbacksOf fd then
      r.onConnection fd ((after.callbacksOf fd).getLast? == some true) now
    else
      match e with
      | .handle _ _ => r.onMessage fd now
      | _ => r

/-! ## The heartbeat timer -/

def forceClose (g : GatewayServer) (fd : ℕ) : Except Failure GatewayServer :=
  match g.net.userCall (.forceClose 0 fd) with
  | some r => r.map fun net => { g with net := net }
  | none => .ok g

/-- One entry of `lastHeartbeats_` in `OnHeartbeat`. -/
def reap (timeoutSec now : ℤ) (g : GatewayServer) (connId : ℤ) : Except Failure GatewayServer :=
  match g.reg.lastHeartbeats.lookup connId with
  | none => .ok g
  | some last =>
    if timeoutSec * 1000 < now - last then
      let closed :=
        match g.getConnection connId with
        | some fd => g.forceClose fd
        | none => .ok g
      closed.map fun g => { g with reg := (g.reg.removeSession connId).eraseHeartbeat connId }
    else .ok g

/-- The map is walked in the order of its keys, and an entry that is erased is the current one. -/
def onHeartbeat (timeoutSec now : ℤ) (g : GatewayServer) : Except Failure GatewayServer :=
  (g.reg.lastHeartbeats.keys.sort (· ≤ ·)).foldlM (reap timeoutSec now) g

/-! ## Steps -/

inductive Event
  | net (e : NetLayer.Event) (now : ℤ)
  | heartbeat (now : ℤ)

def act (cfg : NetLayer.Config) (timeoutSec : ℤ) (g : GatewayServer) : Event → Option (Except Failure GatewayServer)
  | .net e now =>
    (NetLayer.act cfg 0 g.net e).map fun r => r.map fun net => ⟨net, react g.net e net now g.reg⟩
  | .heartbeat now => if (g.net.loops 0).callback = none then some (g.onHeartbeat timeoutSec now) else none

def step (cfg : NetLayer.Config) (timeoutSec : ℤ) :
    Except Failure GatewayServer → Event → Option (Except Failure GatewayServer)
  | .ok g, e => act cfg timeoutSec g e
  | .error _, _ => none

end GatewayServer
end Chater.Gateway
