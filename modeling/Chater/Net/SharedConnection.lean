import Chater.Net.ConnectionLifecycle

/-!
# A connection that several threads close

`Shutdown` and `ForceClose` of one connection on any number of threads, beside the handlers and functors that its loop
runs for it and `RemoveConnectionInLoop` on the base loop.  Each load and store of `state_` and each push of a functor
is a step.  A thread's place is the code that it has yet to run.

The connection is handed out by its first callback, which tests `Connected()` before it does anything else.  Sending
only loads `state_` and is left out, as is the load of `HandleWrite`.  The server is alive throughout.
-/

namespace Chater.Net

open Base Foundations

set_option autoImplicit false

namespace SharedConnection

/-! ## The code -/

/-- The bodies of the `if` statements. -/
inductive Block
  | shutdown
  | forceClose
  | forceCloseInLoop
  | connectDestroyed
deriving DecidableEq, Repr

/-- `test` and `check` are `if (state_ == v || …)` and `assert(state_ == v || …)`, with one load for each value.
`userCode` is what is left of a user callback. -/
inductive Op
  | test (values : List State) (block : Block)
  | check (values : List State) (assertion : Failure)
  | store (value : State)
  | enableReading
  | disableAll
  | remove
  | connectionCallback
  | userCode
  | closeCallback
  | erase
  | queueInLoop (f : Functor)
  | runInLoop (f : Functor)
deriving DecidableEq, Repr

def shutdown : List Op := [.test [.kConnected] .shutdown]

def forceClose : List Op := [.test [.kConnected, .kDisconnecting] .forceClose]

def forceCloseInLoop : List Op := [.test [.kConnected, .kDisconnecting] .forceCloseInLoop]

def handleClose : List Op :=
  [.check [.kConnected, .kDisconnecting] .handleClose, .store .kDisconnected, .disableAll, .connectionCallback,
    .closeCallback]

def connectEstablished : List Op :=
  [.check [.kConnecting] .connectEstablished, .store .kConnected, .enableReading, .connectionCallback]

def connectDestroyed : List Op := [.test [.kConnected] .connectDestroyed, .remove]

def removeConnectionInLoop : List Op := [.erase, .queueInLoop .connectDestroyed]

def Block.body : Block → List Op
  | .shutdown => [.store .kDisconnecting, .runInLoop .shutdownInLoop]
  | .forceClose => [.store .kDisconnecting, .queueInLoop .forceCloseInLoop]
  | .forceCloseInLoop => handleClose
  | .connectDestroyed => [.store .kDisconnected, .disableAll, .connectionCallback]

/-- `ShutdownInLoop` and `SendInLoop` leave `state_` and the queues alone. -/
def functorCode : Functor → List Op
  | .connectEstablished => connectEstablished
  | .forceCloseInLoop => forceCloseInLoop
  | .connectDestroyed => connectDestroyed
  | .shutdownInLoop | .sendInLoop _ => []
  | .writeComplete | .highWaterMark _ => [.userCode]

/-- A callback of the channel, where `n` is the result of `ReadFd`. -/
def callbackCode (n : ℤ) : Channel.Callback → List Op
  | .close => handleClose
  | .read => if 0 < n then [.userCode] else if n = 0 then handleClose else []
  | .error | .write => []

def eventCode (revents : Events) (n : ℤ) : List Op := (Channel.handleEvent revents).flatMap (callbackCode n)

/-- The functions that any thread may call. -/
inductive Call
  | shutdown
  | forceClose
deriving DecidableEq, Repr

def Call.code : Call → List Op
  | .shutdown => SharedConnection.shutdown
  | .forceClose => SharedConnection.forceClose

end SharedConnection

/-! ## The system -/

/-- `calls` is what is left of the call that each thread makes, `handler` of what the connection's loop runs for it and
`remover` of what the base loop does.  `removals` counts the `RemoveConnectionInLoop` that wait in the base loop,
`entered` tells whether `connections_` has the connection, `callbacks` is `Connected()` at each call of
`connectionCallback_`, and `closes` counts the stores of `kDisconnected`. -/
structure SharedConnection (T : Type) where
  state : State
  channel : Channel
  calls : T → List SharedConnection.Op
  handler : List SharedConnection.Op
  remover : List SharedConnection.Op
  pendingFunctors : List Functor
  removals : ℕ
  entered : Bool
  callbacks : List Bool
  closes : ℕ

namespace SharedConnection

variable {T : Type} [DecidableEq T]

/-- The server has made the connection, and `ConnectEstablished` waits in its loop. -/
def start : SharedConnection T where
  state := .kConnecting
  channel := .new
  calls _ := []
  handler := []
  remover := []
  pendingFunctors := [.connectEstablished]
  removals := 0
  entered := true
  callbacks := []
  closes := 0

def setState (s : SharedConnection T) (value : State) : SharedConnection T :=
  { s with state := value, closes := if value = .kDisconnected then s.closes + 1 else s.closes }

def push (s : SharedConnection T) (f : Functor) : SharedConnection T :=
  { s with pendingFunctors := s.pendingFunctors ++ [f] }

/-- `thread` runs `op`, with the code `rest` behind it.  `owner` runs the connection's loop, `base` the base loop. -/
def exec (owner base thread : T) (s : SharedConnection T) (op : Op) (rest : List Op) :
    Except Failure (SharedConnection T × List Op) :=
  match op with
  | .test [] _ => .ok (s, rest)
  | .test (v :: values) block => .ok (s, if s.state = v then block.body ++ rest else .test values block :: rest)
  | .check [] assertion => .error assertion
  | .check (v :: values) assertion => .ok (s, if s.state = v then rest else .check values assertion :: rest)
  | .store value => .ok (s.setState value, rest)
  | .enableReading => .ok ({ s with channel := s.channel.enableReading.1 }, rest)
  | .disableAll => .ok ({ s with channel := s.channel.disableAll.1 }, rest)
  | .remove =>
    match s.channel.remove with
    | some r => .ok ({ s with channel := r.1 }, rest)
    | none => .error .channelRemove
  | .connectionCallback =>
    .ok ({ s with callbacks := s.callbacks ++ [decide (s.state = .kConnected)] }, .userCode :: rest)
  | .userCode => .ok (s, rest)
  | .closeCallback =>
    if thread = base then .ok (s, removeConnectionInLoop ++ rest)
    else .ok ({ s with removals := s.removals + 1 }, rest)
  | .erase => if s.entered then .ok ({ s with entered := false }, rest) else .error .removeConnectionInLoop
  | .queueInLoop f => .ok (s.push f, rest)
  | .runInLoop f => if thread = owner then .ok (s, functorCode f ++ rest) else .ok (s.push f, rest)

inductive Event (T : Type)
  | call (t : T) (call : Call)
  | callStep (t : T)
  | handle (revents : Events) (n : ℤ)
  | runFunctor
  | handlerStep
  | runRemoval
  | removerStep

/-- The thread may call a function of the connection: it is in no call, and a thread that runs one of the two loops is
in a callback, or in what the loop does for others. -/
def mayCall (owner base : T) (s : SharedConnection T) (t : T) : Bool :=
  !s.callbacks.isEmpty && (s.calls t).isEmpty &&
    (t ≠ owner || s.handler.head?.getD .userCode = .userCode) && (t ≠ base || s.remover.isEmpty)

/-- The loop of the connection is between two handlers or functors. -/
def ownerIdle (owner : T) (s : SharedConnection T) : Bool := (s.calls owner).isEmpty && s.handler.isEmpty

/-- What the kernel reports is in order. -/
def act (owner base : T) (s : SharedConnection T) : Event T → Option (Except Failure (SharedConnection T))
  | .call t call =>
    if s.mayCall owner base t then some (.ok { s with calls := Function.update s.calls t call.code }) else none
  | .callStep t =>
    match s.calls t with
    | [] => none
    | op :: rest =>
      some ((exec owner base t s op rest).map fun r => { r.1 with calls := Function.update r.1.calls t r.2 })
  | .handle revents n =>
    if s.ownerIdle owner ∧ s.channel.registered ∧ NetLayer.InOrder revents then
      some (.ok { s with handler := eventCode revents n })
    else none
  | .runFunctor =>
    match s.pendingFunctors with
    | [] => none
    | f :: functors =>
      if s.ownerIdle owner then some (.ok { s with handler := functorCode f, pendingFunctors := functors }) else none
  | .handlerStep =>
    match s.handler with
    | [] => none
    | op :: rest =>
      if (s.calls owner).isEmpty then
        some ((exec owner base owner s op rest).map fun r => { r.1 with handler := r.2 })
      else none
  | .runRemoval =>
    if (s.calls base).isEmpty ∧ s.remover.isEmpty ∧ 0 < s.removals then
      some (.ok { s with removals := s.removals - 1, remover := removeConnectionInLoop })
    else none
  | .removerStep =>
    match s.remover with
    | [] => none
    | op :: rest =>
      if (s.calls base).isEmpty then
        some ((exec owner base base s op rest).map fun r => { r.1 with remover := r.2 })
      else none

def step (owner base : T) : Except Failure (SharedConnection T) → Event T →
    Option (Except Failure (SharedConnection T))
  | .ok s, e => act owner base s e
  | .error _, _ => none

/-- Once `HandleClose` has stored `kDisconnected` the state stays there, the connection is closed once at most and its
down callback runs once at most; and `RemoveConnectionInLoop` finds the connection. -/
def StaysClosed : Except Failure (SharedConnection T) → Prop
  | .ok s => (0 < s.closes → s.state = .kDisconnected) ∧ s.closes ≤ 1 ∧ s.callbacks.count false ≤ 1
  | .error assertion => assertion ≠ .removeConnectionInLoop

/-- A thread that does not run the connection's loop stores `kDisconnecting` only while the connection is not closed. -/
def StoresInTime (owner : T) : Except Failure (SharedConnection T) → Event T → Prop
  | .ok s, .callStep t => t ≠ owner → (s.calls t).head? = some (.store .kDisconnecting) → s.state ≠ .kDisconnected
  | _, _ => True

instance (owner : T) : (x : Except Failure (SharedConnection T)) → (e : Event T) → Decidable (StoresInTime owner x e)
  | .ok _, .callStep _ => inferInstanceAs (Decidable (_ ≠ _ → _ = _ → _ ≠ _))
  | .ok _, .call _ _ | .ok _, .handle _ _ | .ok _, .runFunctor | .ok _, .handlerStep | .ok _, .runRemoval
  | .ok _, .removerStep | .error _, _ => .isTrue trivial

/-! ## One thread alone

The code of a handler, run to its end before any other thread goes on, is the handler of `TcpConnection`. -/

variable {owner base t : T} {s s' : SharedConnection T} {op : Op} {code rest : List Op}
  {x : Except Failure (SharedConnection T)}

/-- The loop's thread runs `code` for the connection to its end. -/
def RunsAlone (owner base : T) (s : SharedConnection T) (code : List Op) (x : Except Failure (SharedConnection T)) :
    Prop :=
  ∃ n, runFrom (step owner base) (.ok { s with handler := code }) (List.replicate n .handlerStep) = some x

/-- The thread runs `code` of a call to its end. -/
def CallsAlone (owner base t : T) (s : SharedConnection T) (code : List Op) (s' : SharedConnection T) : Prop :=
  ∃ n, runFrom (step owner base) (.ok { s with calls := Function.update s.calls t code })
    (List.replicate n (.callStep t)) = some (.ok s')

theorem exec_remove {r : Channel × List EpollCtl} (h : s.channel.remove = some r) :
    exec owner base t s .remove rest = .ok ({ s with channel := r.1 }, rest) := by
  simp only [exec, h]

/-- A step depends on no thread's place. -/
theorem exec_setPlaces (s : SharedConnection T) (calls : T → List Op) (handler : List Op) :
    exec owner base t { s with calls := calls, handler := handler } op rest =
      (exec owner base t s op rest).map fun r => ({ r.1 with calls := calls, handler := handler }, r.2) := by
  cases op with
  | test values | check values => cases values <;> rfl
  | remove =>
    simp only [exec]
    cases s.channel.remove <;> rfl
  | closeCallback | erase | runInLoop =>
    simp only [exec]
    split_ifs <;> rfl
  | _ => rfl

theorem exec_places {r : SharedConnection T × List Op} (h : exec owner base t s op rest = .ok r) :
    r.1.calls = s.calls ∧ r.1.handler = s.handler := by
  have hsame := h.symm.trans (exec_setPlaces s s.calls s.handler)
  rw [h] at hsame
  have hfirst := congrArg Prod.fst (Except.ok.inj hsame)
  have hcalls := congrArg SharedConnection.calls hfirst
  have hhandler := congrArg SharedConnection.handler hfirst
  exact ⟨hcalls, hhandler⟩

theorem handlerStep_alone (hidle : s.calls owner = []) :
    step owner base (.ok { s with handler := op :: rest }) .handlerStep =
      some ((exec owner base owner s op rest).map fun r => { r.1 with handler := r.2 }) := by
  have hcalls : (s.calls owner).isEmpty = true := by simp [hidle]
  simp only [step, act, hcalls, if_true]
  rw [exec_setPlaces s s.calls (op :: rest)]
  cases hexec : exec owner base owner s op rest with
  | error => rfl
  | ok r =>
    rw [← (exec_places hexec).1]
    rfl

theorem callStep_alone :
    step owner base (.ok { s with calls := Function.update s.calls t (op :: rest) }) (.callStep t) =
      some ((exec owner base t s op rest).map fun r => { r.1 with calls := Function.update r.1.calls t r.2 }) := by
  simp only [step, act, Function.update_self]
  rw [exec_setPlaces s (Function.update s.calls t (op :: rest)) s.handler]
  cases hexec : exec owner base t s op rest with
  | error => rfl
  | ok r =>
    obtain ⟨hcalls, hhandler⟩ := exec_places hexec
    simp only [Except.map, Function.update_idem, ← hcalls, ← hhandler]

theorem RunsAlone.nil (hhandler : s.handler = []) (hx : x = .ok s) : RunsAlone owner base s [] x := by
  refine ⟨0, ?_⟩
  rw [hx, ← hhandler]
  rfl

theorem RunsAlone.cons (h : RunsAlone owner base s' code x) (hidle : s.calls owner = [])
    (hexec : exec owner base owner s op rest = .ok (s', code)) : RunsAlone owner base s (op :: rest) x := by
  obtain ⟨n, hn⟩ := h
  refine ⟨n + 1, runFrom_cons_iff.mpr ⟨_, handlerStep_alone hidle, ?_⟩⟩
  rw [hexec]
  exact hn

theorem RunsAlone.fails {assertion : Failure} (hidle : s.calls owner = [])
    (hexec : exec owner base owner s op rest = .error assertion) :
    RunsAlone owner base s (op :: rest) (.error assertion) := by
  refine ⟨1, runFrom_cons_iff.mpr ⟨_, handlerStep_alone hidle, ?_⟩⟩
  rw [hexec]
  rfl

theorem CallsAlone.nil (hcalls : s.calls t = []) (hs' : s' = s) : CallsAlone owner base t s [] s' := by
  refine ⟨0, ?_⟩
  rw [hs', ← hcalls, Function.update_eq_self]
  rfl

theorem CallsAlone.cons {u : SharedConnection T} (h : CallsAlone owner base t u code s')
    (hexec : exec owner base t s op rest = .ok (u, code)) : CallsAlone owner base t s (op :: rest) s' := by
  obtain ⟨n, hn⟩ := h
  refine ⟨n + 1, runFrom_cons_iff.mpr ⟨_, callStep_alone, ?_⟩⟩
  rw [hexec]
  exact hn

/-- An effect of a handler, on a loop that is not the base loop. -/
def perform (connected : Bool) (s : SharedConnection T) : Effect → SharedConnection T
  | .connectionCallback => { s with callbacks := s.callbacks ++ [connected] }
  | .closeCallback => { s with removals := s.removals + 1 }
  | .queueInLoop f | .runInLoop f => s.push f
  | .epollCtl _ | .write _ | .shutdownWrite | .messageCallback => s

/-- What a handler of the connection returns. -/
def follow (s : SharedConnection T) (r : TcpConnection × List Effect) : SharedConnection T :=
  r.2.foldl (perform (r.1.state = .kConnected))
    { s with
      state := r.1.state
      channel := r.1.channel
      closes := if r.1.state = .kDisconnected ∧ s.state ≠ .kDisconnected then s.closes + 1 else s.closes }

def outcome (s : SharedConnection T) (assertion : Failure) :
    Option (TcpConnection × List Effect) → Except Failure (SharedConnection T)
  | none => .error assertion
  | some r => .ok (s.follow r)

omit [DecidableEq T] in
theorem outcome_same {c : TcpConnection} (hstate : s.state = c.state) (hchannel : s.channel = c.channel)
    {assertion : Failure} : s.outcome assertion (some (c, [])) = .ok s := by
  simp [outcome, follow, ← hstate, ← hchannel]

omit [DecidableEq T] in
theorem foldl_epollCtl (connected : Bool) (ctls : List EpollCtl) :
    (ctls.map .epollCtl).foldl (perform connected) s = s := by
  induction ctls with
  | nil => rfl
  | cons ctl ctls ih => exact ih

section Handlers

variable {c : TcpConnection} (hidle : s.calls owner = []) (hhandler : s.handler = []) (hbase : owner ≠ base)
  (hstate : s.state = c.state) (hchannel : s.channel = c.channel)

include hidle

theorem RunsAlone.check {v : State} {values : List State} {assertion : Failure}
    (h : RunsAlone owner base s (if s.state = v then rest else .check values assertion :: rest) x) :
    RunsAlone owner base s (.check (v :: values) assertion :: rest) x :=
  h.cons hidle rfl

theorem RunsAlone.test {v : State} {values : List State} {block : Block}
    (h : RunsAlone owner base s (if s.state = v then block.body ++ rest else .test values block :: rest) x) :
    RunsAlone owner base s (.test (v :: values) block :: rest) x :=
  h.cons hidle rfl

include hhandler hbase hchannel in
/-- `HandleClose` from its store on. -/
theorem close_alone (hopen : s.state ≠ .kDisconnected) :
    RunsAlone owner base s handleClose.tail
      (.ok (s.follow ({ c with state := .kDisconnected, channel := c.channel.disableAll.1 },
        [.epollCtl c.channel.disableAll.2, .connectionCallback, .closeCallback]))) := by
  refine .cons ?_ hidle rfl
  refine .cons ?_ hidle rfl
  refine .cons ?_ hidle rfl
  refine .cons ?_ hidle rfl
  refine .cons ?_ hidle (if_neg hbase)
  exact .nil hhandler (by simp [follow, perform, setState, hopen, hchannel])

include hhandler hbase hstate hchannel in
theorem handleClose_alone : RunsAlone owner base s handleClose (s.outcome .handleClose c.handleClose) := by
  have hclose := close_alone hidle hhandler hbase hchannel
  cases hc : c.state with
  | kConnected =>
    have hs := hstate.trans hc
    have hopen : c.handleClose = some _ := if_pos (.inl hc)
    rw [hopen]
    refine .check hidle ?_
    rw [if_pos hs]
    exact hclose (by simp [hs])
  | kDisconnecting =>
    have hs := hstate.trans hc
    have hopen : c.handleClose = some _ := if_pos (.inr hc)
    rw [hopen]
    refine .check hidle ?_
    rw [if_neg (by simp [hs])]
    refine .check hidle ?_
    rw [if_pos hs]
    exact hclose (by simp [hs])
  | kConnecting | kDisconnected =>
    have hs := hstate.trans hc
    have hfails : c.handleClose = none := if_neg (by simp [hc])
    rw [hfails]
    refine .check hidle ?_
    rw [if_neg (by simp [hs])]
    refine .check hidle ?_
    rw [if_neg (by simp [hs])]
    exact .fails hidle rfl

include hhandler hbase hstate hchannel in
theorem forceCloseInLoop_alone :
    RunsAlone owner base s forceCloseInLoop (s.outcome .handleClose c.forceCloseInLoop) := by
  have hclose := handleClose_alone hidle hhandler hbase hstate hchannel
  cases hc : c.state with
  | kConnected =>
    have hopen : c.forceCloseInLoop = c.handleClose := if_pos (.inl hc)
    rw [hopen]
    refine .test hidle ?_
    rw [if_pos (hstate.trans hc)]
    exact hclose
  | kDisconnecting =>
    have hs := hstate.trans hc
    have hopen : c.forceCloseInLoop = c.handleClose := if_pos (.inr hc)
    rw [hopen]
    refine .test hidle ?_
    rw [if_neg (by simp [hs])]
    refine .test hidle ?_
    rw [if_pos hs]
    exact hclose
  | kConnecting | kDisconnected =>
    have hs := hstate.trans hc
    have hnone : c.forceCloseInLoop = some (c, []) := if_neg (by simp [hc])
    rw [hnone]
    refine .test hidle ?_
    rw [if_neg (by simp [hs])]
    refine .test hidle ?_
    rw [if_neg (by simp [hs])]
    refine .cons ?_ hidle rfl
    exact .nil hhandler (outcome_same hstate hchannel)

include hhandler hstate hchannel in
theorem connectEstablished_alone :
    RunsAlone owner base s connectEstablished (s.outcome .connectEstablished c.connectEstablished) := by
  by_cases hc : c.state = .kConnecting
  · have hconnecting : c.connectEstablished =
        some ({ c with state := .kConnected, channel := c.channel.enableReading.1 },
          [.epollCtl c.channel.enableReading.2, .connectionCallback]) := if_pos hc
    rw [hconnecting]
    refine .check hidle ?_
    rw [if_pos (hstate.trans hc)]
    refine .cons ?_ hidle rfl
    refine .cons ?_ hidle rfl
    refine .cons ?_ hidle rfl
    refine .cons ?_ hidle rfl
    exact .nil hhandler (by simp [outcome, follow, perform, setState, hchannel])
  · have hfails : c.connectEstablished = none := if_neg hc
    rw [hfails]
    refine .check hidle ?_
    rw [if_neg (by rwa [hstate])]
    exact .fails hidle rfl

include hhandler hstate hchannel in
theorem connectDestroyed_alone :
    RunsAlone owner base s connectDestroyed (s.outcome .channelRemove c.connectDestroyed) := by
  by_cases hc : c.state = .kConnected
  · refine .test hidle ?_
    rw [if_pos (hstate.trans hc)]
    refine .cons ?_ hidle rfl
    refine .cons ?_ hidle rfl
    refine .cons ?_ hidle rfl
    refine .cons ?_ hidle rfl
    cases hremove : c.channel.disableAll.1.remove with
    | none =>
      have hfails : c.connectDestroyed = none := by simp [TcpConnection.connectDestroyed, hc, hremove]
      rw [hfails]
      exact .fails hidle (by simp [exec, hchannel, hremove, setState])
    | some r =>
      have hremoved : c.connectDestroyed = some ({ c with state := .kDisconnected, channel := r.1 },
          [.epollCtl c.channel.disableAll.2, .connectionCallback] ++ r.2.map .epollCtl) := by
        simp [TcpConnection.connectDestroyed, hc, hremove]
      rw [hremoved]
      rw [← hchannel] at hremove
      refine .cons (.nil ?_ ?_) hidle (exec_remove hremove)
      · exact hhandler
      · simp [outcome, follow, perform, foldl_epollCtl, setState, hstate, hc]
  · refine .test hidle ?_
    rw [if_neg (by rwa [hstate])]
    refine .cons ?_ hidle rfl
    cases hremove : c.channel.remove with
    | none =>
      have hfails : c.connectDestroyed = none := by simp [TcpConnection.connectDestroyed, hc, hremove]
      rw [hfails]
      exact .fails hidle (by simp [exec, hchannel, hremove])
    | some r =>
      have hremoved : c.connectDestroyed = some ({ c with channel := r.1 }, r.2.map .epollCtl) := by
        simp [TcpConnection.connectDestroyed, hc, hremove]
      rw [hremoved]
      rw [← hchannel] at hremove
      refine .cons (.nil ?_ ?_) hidle (exec_remove hremove)
      · exact hhandler
      · simp [outcome, follow, foldl_epollCtl, ← hstate]

end Handlers

section Calls

variable {c : TcpConnection} (hcalls : s.calls t = []) (hstate : s.state = c.state) (hchannel : s.channel = c.channel)

include hcalls hstate hchannel

theorem CallsAlone.none : CallsAlone owner base t s [] (s.follow (c, [])) :=
  .nil hcalls (by simp [follow, ← hstate, ← hchannel])

/-- `Shutdown` on a thread that is not the loop's. -/
theorem shutdown_alone (ht : t ≠ owner) : CallsAlone owner base t s shutdown (s.follow c.shutdown) := by
  by_cases hc : c.state = .kConnected
  · have hconnected : c.shutdown = _ := if_pos hc
    rw [hconnected]
    refine .cons ?_ rfl
    rw [if_pos (hstate.trans hc)]
    refine .cons ?_ rfl
    refine .cons ?_ (if_neg ht)
    exact .nil hcalls (by simp [follow, perform, setState, push, hchannel])
  · have hnone : c.shutdown = (c, []) := if_neg hc
    rw [hnone]
    refine .cons ?_ rfl
    rw [if_neg (by rwa [hstate])]
    exact .cons (.none hcalls hstate hchannel) rfl

theorem forceClose_alone : CallsAlone owner base t s forceClose (s.follow c.forceClose) := by
  -- the store and the push
  have hbody : CallsAlone owner base t s Block.forceClose.body
      (s.follow ({ c with state := .kDisconnecting }, [.queueInLoop .forceCloseInLoop])) := by
    refine .cons ?_ rfl
    refine .cons ?_ rfl
    exact .nil hcalls (by simp [follow, perform, setState, push, hchannel])
  cases hc : c.state with
  | kConnected =>
    have hopen : c.forceClose = _ := if_pos (.inl hc)
    rw [hopen]
    refine .cons ?_ rfl
    rw [if_pos (hstate.trans hc)]
    exact hbody
  | kDisconnecting =>
    have hs := hstate.trans hc
    have hopen : c.forceClose = _ := if_pos (.inr hc)
    rw [hopen]
    refine .cons ?_ rfl
    rw [if_neg (by simp [hs])]
    refine .cons ?_ rfl
    rw [if_pos hs]
    exact hbody
  | kConnecting | kDisconnected =>
    have hs := hstate.trans hc
    have hnone : c.forceClose = (c, []) := if_neg (by simp [hc])
    rw [hnone]
    refine .cons ?_ rfl
    rw [if_neg (by simp [hs])]
    refine .cons ?_ rfl
    rw [if_neg (by simp [hs])]
    exact .cons (.none hcalls hstate hchannel) rfl

end Calls

end SharedConnection

end Chater.Net
