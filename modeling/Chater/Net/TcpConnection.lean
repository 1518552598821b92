import Chater.Base.WfBuffer
import Chater.Net.Channel

/-!
# The handlers of a TCP connection

`TcpConnection` as its owning loop runs it.  A handler takes the connection and the results of the system calls it
makes, and returns the connection together with what it did to its surroundings, in order: calls of `epoll_ctl`,
bytes accepted by `::write`, user callbacks, functors handed to the loop.  `none` is a failed assertion.
-/

namespace Chater.Net

open Base

set_option autoImplicit false

inductive State
  | kDisconnected
  | kConnecting
  | kConnected
  | kDisconnecting
deriving DecidableEq, Repr

def EPIPE : ℕ := 32
def ECONNRESET : ℕ := 104

inductive WriteResult
  | wrote (n : ℕ)
  | failed (errno : ℕ)
deriving DecidableEq, Repr

/-- A bound member function of a connection that is run by its loop. -/
inductive Functor
  | sendInLoop (message : List UInt8)
  | shutdownInLoop
  | forceCloseInLoop
  | connectEstablished
  | connectDestroyed
  | writeComplete
  | highWaterMark (size : ℕ)
deriving DecidableEq, Repr

inductive Effect
  | epollCtl (ctl : EpollCtl)
  | write (data : List UInt8)
  | shutdownWrite
  | connectionCallback
  | messageCallback
  | closeCallback
  | runInLoop (f : Functor)
  | queueInLoop (f : Functor)
deriving DecidableEq, Repr

def Functor.isSend : Functor → Bool
  | .sendInLoop _ => true
  | _ => false

def Effect.queuesSend : Effect → Bool
  | .queueInLoop f => f.isSend
  | _ => false

def Effect.quiet (e : Effect) : Bool :=
  match e with
  | .write _ => false
  | e => !e.queuesSend

def WriteResult.fault : WriteResult → Bool
  | .failed errno => errno == EPIPE || errno == ECONNRESET
  | .wrote _ => false

def bytesWritten (effects : List Effect) : List UInt8 :=
  effects.flatMap fun
    | .write data => data
    | _ => []

theorem bytesWritten_append (xs ys : List Effect) : bytesWritten (xs ++ ys) = bytesWritten xs ++ bytesWritten ys :=
  List.flatMap_append

theorem Effect.queuesSend_of_quiet {e : Effect} (h : e.quiet = true) : e.queuesSend = false := by
  cases e with
  | write => cases h
  | _ => simpa [quiet] using h

theorem bytesWritten_of_quiet {effects : List Effect} (h : ∀ e ∈ effects, e.quiet = true) :
    bytesWritten effects = [] := by
  apply List.flatMap_eq_nil_iff.mpr
  intro e he
  cases e with
  | write data => cases h _ he
  | _ => rfl

structure TcpConnection where
  state : State
  channel : Channel
  inputBuffer : WfBuffer
  outputBuffer : WfBuffer
  hasWriteCompleteCallback : Bool
  hasHighWaterMarkCallback : Bool
  highWaterMark : ℕ
deriving DecidableEq

namespace TcpConnection

def new (hasWriteCompleteCallback : Bool) : TcpConnection where
  state := .kConnecting
  channel := Channel.new
  inputBuffer := WfBuffer.ofSize 1024
  outputBuffer := WfBuffer.ofSize 1024
  hasWriteCompleteCallback := hasWriteCompleteCallback
  hasHighWaterMarkCallback := false
  highWaterMark := 64 * 1024 * 1024

/-! ## Establishing and closing -/

def connectEstablished (c : TcpConnection) : Option (TcpConnection × List Effect) :=
  if c.state = .kConnecting then
    let (channel, ctl) := c.channel.enableReading
    some ({ c with state := .kConnected, channel := channel }, [.epollCtl ctl, .connectionCallback])
  else none

def handleClose (c : TcpConnection) : Option (TcpConnection × List Effect) :=
  if c.state = .kConnected ∨ c.state = .kDisconnecting then
    let (channel, ctl) := c.channel.disableAll
    some ({ c with state := .kDisconnected, channel := channel },
      [.epollCtl ctl, .connectionCallback, .closeCallback])
  else none

def forceClose (c : TcpConnection) : TcpConnection × List Effect :=
  if c.state = .kConnected ∨ c.state = .kDisconnecting then
    ({ c with state := .kDisconnecting }, [.queueInLoop .forceCloseInLoop])
  else (c, [])

def forceCloseInLoop (c : TcpConnection) : Option (TcpConnection × List Effect) :=
  if c.state = .kConnected ∨ c.state = .kDisconnecting then c.handleClose else some (c, [])

def connectDestroyed (c : TcpConnection) : Option (TcpConnection × List Effect) := do
  let (c, before) :=
    if c.state = .kConnected then
      let (channel, ctl) := c.channel.disableAll
      ({ c with state := .kDisconnected, channel := channel }, [.epollCtl ctl, .connectionCallback])
    else (c, [])
  let (channel, ctls) ← c.channel.remove
  some ({ c with channel := channel }, before ++ ctls.map .epollCtl)

def shutdown (c : TcpConnection) : TcpConnection × List Effect :=
  if c.state = .kConnected then ({ c with state := .kDisconnecting }, [.runInLoop .shutdownInLoop])
  else (c, [])

def shutdownInLoop (c : TcpConnection) : List Effect :=
  if c.channel.isWriting then [] else [.shutdownWrite]

/-! ## Reading -/

/-- `HandleRead` with the result of the `::readv` in `ReadFd`.  `messageCallback` is what the user's callback does
to the input buffer; `HandleError` only logs. -/
def handleRead (c : TcpConnection) (result : RingBuffer.ReadvResult)
    (messageCallback : WfBuffer → WfBuffer) : Option (TcpConnection × List Effect) :=
  let buffer := c.inputBuffer.readFd result
  if 0 < result.n then some ({ c with inputBuffer := messageCallback buffer }, [.messageCallback])
  else if result.n = 0 then handleClose { c with inputBuffer := buffer }
  else some ({ c with inputBuffer := buffer }, [])

/-! ## Writing -/

def queueWriteComplete (c : TcpConnection) : List Effect :=
  if c.hasWriteCompleteCallback then [.queueInLoop .writeComplete] else []

def queueHighWaterMark (c : TcpConnection) (remaining : ℕ) : List Effect :=
  let oldLen := c.outputBuffer.readableBytes
  if oldLen + remaining ≥ c.highWaterMark ∧ oldLen < c.highWaterMark ∧ c.hasHighWaterMarkCallback then
    [.queueInLoop (.highWaterMark (oldLen + remaining))]
  else []

/-- The end of `SendInLoop`: `rest` is what `::write` did not take. -/
def bufferRest (c : TcpConnection) (rest : List UInt8) : TcpConnection × List Effect :=
  let mark := c.queueHighWaterMark rest.length
  let c := { c with outputBuffer := c.outputBuffer.append rest }
  if c.channel.isWriting then (c, mark)
  else
    let (channel, ctl) := c.channel.enableWriting
    ({ c with channel := channel }, mark ++ [.epollCtl ctl])

def sendInLoop (c : TcpConnection) (data : List UInt8) (result : WriteResult) :
    Option (TcpConnection × List Effect) :=
  if c.state = .kDisconnected then some (c, [])
  else if !c.channel.isWriting && c.outputBuffer.readableBytes == 0 then
    match result with
    | .wrote n =>
      if n ≤ data.length then
        if n = data.length then some (c, .write (data.take n) :: c.queueWriteComplete)
        else
          let (c, effects) := c.bufferRest (data.drop n)
          some (c, .write (data.take n) :: effects)
      else none
    | .failed errno =>
      if errno = EPIPE ∨ errno = ECONNRESET then some (c, [])
      else if data.length = 0 then some (c, []) else some (c.bufferRest data)
  else if data.length = 0 then some (c, []) else some (c.bufferRest data)

/-- The part of `HandleWrite` that runs when the output buffer has become empty. -/
def outputDrained (c : TcpConnection) : TcpConnection × List Effect :=
  let (channel, ctl) := c.channel.disableWriting
  let c := { c with channel := channel }
  (c, .epollCtl ctl :: (c.queueWriteComplete ++ if c.state = .kDisconnecting then c.shutdownInLoop else []))

def handleWrite (c : TcpConnection) (result : WriteResult) : Option (TcpConnection × List Effect) :=
  if c.channel.isWriting then
    match result with
    | .wrote n =>
      if 0 < n then
        (c.outputBuffer.retrieve n).map fun buffer =>
          let sent := Effect.write (c.outputBuffer.content.take n)
          let c := { c with outputBuffer := buffer }
          if buffer.readableBytes = 0 then (c.outputDrained.1, sent :: c.outputDrained.2) else (c, [sent])
      else some (c, [])
    | .failed _ => some (c, [])
  else some (c, [])

/-- What `SendInLoop` returns. -/
inductive SendCase (c : TcpConnection) (data : List UInt8) (result : WriteResult) : TcpConnection × List Effect → Prop
  | gaveUp (h : c.state = .kDisconnected ∨ result.fault = true) : SendCase c data result (c, [])
  | nothing (hdata : data = []) : SendCase c data result (c, [])
  | buffered (hdata : data ≠ []) : SendCase c data result (c.bufferRest data)
  | written (hempty : c.outputBuffer.content = []) : SendCase c data result (c, .write data :: c.queueWriteComplete)
  | partly {n : ℕ} (hempty : c.outputBuffer.content = []) (hn : n < data.length) :
      SendCase c data result ((c.bufferRest (data.drop n)).1, .write (data.take n) :: (c.bufferRest (data.drop n)).2)

theorem sendCase_of_bufferAll {c : TcpConnection} {data : List UInt8} {result : WriteResult}
    {r : TcpConnection × List Effect}
    (hr : (if data.length = 0 then some (c, []) else some (c.bufferRest data)) = some r) : SendCase c data result r := by
  split_ifs at hr with hlen
  · obtain rfl := Option.some.inj hr
    exact .nothing (List.length_eq_zero_iff.mp hlen)
  · obtain rfl := Option.some.inj hr
    exact .buffered fun hnil => hlen (by rw [hnil]; rfl)

theorem sendCase_of_sendInLoop {c : TcpConnection} {data : List UInt8} {result : WriteResult}
    {r : TcpConnection × List Effect} (hr : c.sendInLoop data result = some r) : SendCase c data result r := by
  unfold sendInLoop at hr
  split at hr
  case isTrue hstate =>
    obtain rfl := Option.some.inj hr
    exact .gaveUp (.inl hstate)
  case isFalse =>
    split at hr
    case isFalse => exact sendCase_of_bufferAll hr
    case isTrue hdirect =>
      have hempty : c.outputBuffer.content = [] := by
        simp only [Bool.and_eq_true, beq_iff_eq, WfBuffer.readableBytes_eq_zero] at hdirect
        exact hdirect.2
      cases result with
      | wrote n =>
        simp only at hr
        split_ifs at hr with hn hall
        · obtain rfl := Option.some.inj hr
          rw [hall, List.take_length]
          exact .written hempty
        · obtain rfl := Option.some.inj hr
          exact .partly hempty (by omega)
      | failed errno =>
        simp only at hr
        split at hr
        case isTrue hfault =>
          obtain rfl := Option.some.inj hr
          exact .gaveUp (.inr (by simpa [WriteResult.fault] using hfault))
        case isFalse => exact sendCase_of_bufferAll hr

/-- What `HandleWrite` returns. -/
inductive WriteCase (c : TcpConnection) (result : WriteResult) : TcpConnection × List Effect → Prop
  | idle (h : c.channel.isWriting = true → ∀ n, result = .wrote n → n = 0) : WriteCase c result (c, [])
  | drained {n : ℕ} {buffer : WfBuffer} (hwriting : c.channel.isWriting = true) (hresult : result = .wrote n)
      (hbuffer : c.outputBuffer.retrieve n = some buffer) (hempty : buffer.content = []) :
      WriteCase c result ({ c with outputBuffer := buffer }.outputDrained.1,
        .write (c.outputBuffer.content.take n) :: { c with outputBuffer := buffer }.outputDrained.2)
  | partly {n : ℕ} {buffer : WfBuffer} (hwriting : c.channel.isWriting = true) (hresult : result = .wrote n)
      (hbuffer : c.outputBuffer.retrieve n = some buffer) (hrest : buffer.content ≠ []) :
      WriteCase c result ({ c with outputBuffer := buffer }, [.write (c.outputBuffer.content.take n)])

theorem writeCase_of_handleWrite {c : TcpConnection} {result : WriteResult} {r : TcpConnection × List Effect}
    (hr : c.handleWrite result = some r) : WriteCase c result r := by
  unfold handleWrite at hr
  split at hr
  case isFalse hidle =>
    obtain rfl := Option.some.inj hr
    exact .idle fun hwriting => absurd hwriting hidle
  case isTrue hwriting =>
    cases result with
    | failed errno =>
      obtain rfl := Option.some.inj hr
      exact .idle fun _ n hn => WriteResult.noConfusion hn
    | wrote n =>
      simp only at hr
      split at hr
      case isFalse hzero =>
        obtain rfl := Option.some.inj hr
        refine .idle fun _ m hm => ?_
        rw [← WriteResult.wrote.inj hm]
        omega
      case isTrue =>
        obtain ⟨buffer, hbuffer, rfl⟩ := Option.map_eq_some_iff.mp hr
        by_cases hzero : buffer.readableBytes = 0
        · rw [if_pos hzero]
          exact .drained hwriting rfl hbuffer (buffer.readableBytes_eq_zero.mp hzero)
        · rw [if_neg hzero]
          exact .partly hwriting rfl hbuffer fun hempty => hzero (buffer.readableBytes_eq_zero.mpr hempty)

/-! ## What the handlers do to the output

`WritesPending` is the invariant of the two write paths: the channel waits for `EPOLLOUT` exactly while the output
buffer holds bytes.  `OutputStep c data r` says that the handler that led from `c` to `r` added `data` to the stream
made of the bytes written and the bytes buffered, and kept the invariant. -/

def WritesPending (c : TcpConnection) : Prop := c.channel.isWriting = true ↔ c.outputBuffer.content ≠ []

structure OutputStep (c : TcpConnection) (data : List UInt8) (r : TcpConnection × List Effect) : Prop where
  stream : bytesWritten r.2 ++ r.1.outputBuffer.content = c.outputBuffer.content ++ data
  writing : r.1.WritesPending
  queues_no_send : ∀ e ∈ r.2, e.queuesSend = false

theorem OutputStep.of_same {c c' : TcpConnection} {effects : List Effect} (h : c.WritesPending)
    (hbuffer : c'.outputBuffer = c.outputBuffer) (hwriting : c'.channel.isWriting = c.channel.isWriting)
    (hquiet : ∀ e ∈ effects, e.quiet = true) : OutputStep c [] (c', effects) where
  stream := by rw [bytesWritten_of_quiet hquiet, hbuffer, List.nil_append, List.append_nil]
  writing := by
    unfold WritesPending
    rw [hbuffer, hwriting]
    exact h
  queues_no_send e he := Effect.queuesSend_of_quiet (hquiet e he)

theorem OutputStep.of_write {c c' : TcpConnection} {sent data : List UInt8} {effects : List Effect}
    (hstream : sent ++ c'.outputBuffer.content = c.outputBuffer.content ++ data) (hwriting : c'.WritesPending)
    (hquiet : ∀ e ∈ effects, e.quiet = true) : OutputStep c data (c', .write sent :: effects) where
  stream := by
    have hnone := bytesWritten_of_quiet hquiet
    simp only [bytesWritten, List.flatMap_cons] at hnone ⊢
    rw [hnone, List.append_nil, hstream]
  writing := hwriting
  queues_no_send e he := by
    obtain rfl | hmem := List.mem_cons.mp he
    · rfl
    · exact Effect.queuesSend_of_quiet (hquiet e hmem)

theorem shutdownInLoop_quiet (c : TcpConnection) : ∀ e ∈ c.shutdownInLoop, e.quiet = true := by
  unfold shutdownInLoop
  split <;> simp [Effect.quiet, Effect.queuesSend]

theorem queueWriteComplete_quiet (c : TcpConnection) : ∀ e ∈ c.queueWriteComplete, e.quiet = true := by
  unfold queueWriteComplete
  split <;> simp [Effect.quiet, Effect.queuesSend, Functor.isSend]

theorem queueHighWaterMark_quiet (c : TcpConnection) (n : ℕ) : ∀ e ∈ c.queueHighWaterMark n, e.quiet = true := by
  unfold queueHighWaterMark
  simp only
  split <;> simp [Effect.quiet, Effect.queuesSend, Functor.isSend]

theorem bufferRest_quiet (c : TcpConnection) (rest : List UInt8) : ∀ e ∈ (c.bufferRest rest).2, e.quiet = true := by
  intro e he
  unfold bufferRest at he
  simp only at he
  split at he
  · exact queueHighWaterMark_quiet c _ e he
  · obtain hmark | hctl := List.mem_append.mp he
    · exact queueHighWaterMark_quiet c _ e hmark
    · rw [List.mem_singleton.mp hctl]
      rfl

theorem bufferRest_content (c : TcpConnection) (rest : List UInt8) :
    (c.bufferRest rest).1.outputBuffer.content = c.outputBuffer.content ++ rest := by
  unfold bufferRest
  simp only
  split <;> exact WfBuffer.append_content _ _

theorem bufferRest_isWriting (c : TcpConnection) (rest : List UInt8) :
    (c.bufferRest rest).1.channel.isWriting = true := by
  unfold bufferRest
  simp only
  split
  · assumption
  · exact Channel.enableWriting_isWriting _

theorem bufferRest_state (c : TcpConnection) (rest : List UInt8) : (c.bufferRest rest).1.state = c.state := by
  unfold bufferRest
  simp only
  split <;> rfl

theorem bufferRest_writesPending {c : TcpConnection} {rest : List UInt8} (hrest : rest ≠ []) :
    (c.bufferRest rest).1.WritesPending := by
  unfold WritesPending
  rw [bufferRest_isWriting, bufferRest_content]
  simp [hrest]

theorem bufferRest_step {c : TcpConnection} {rest : List UInt8} (hrest : rest ≠ []) :
    OutputStep c rest (c.bufferRest rest) where
  stream := by rw [bytesWritten_of_quiet (bufferRest_quiet c rest), bufferRest_content, List.nil_append]
  writing := bufferRest_writesPending hrest
  queues_no_send e he := Effect.queuesSend_of_quiet (bufferRest_quiet c rest e he)

/-- **`SendInLoop` appends its message to the stream**, through the socket, the buffer, or both. -/
theorem sendInLoop_step {c : TcpConnection} {data : List UInt8} {result : WriteResult}
    {r : TcpConnection × List Effect} (h : c.WritesPending) (hstate : c.state ≠ .kDisconnected)
    (hfault : result.fault = false) (hr : c.sendInLoop data result = some r) :
    OutputStep c data r ∧ r.1.state = c.state := by
  cases sendCase_of_sendInLoop hr with
  | gaveUp hreason =>
    rcases hreason with hdisconnected | hfailed
    · exact absurd hdisconnected hstate
    · rw [hfault] at hfailed
      cases hfailed
  | nothing hdata =>
    rw [hdata]
    exact ⟨OutputStep.of_same h rfl rfl (by simp), rfl⟩
  | buffered hdata => exact ⟨bufferRest_step hdata, bufferRest_state c data⟩
  | written hempty =>
    refine ⟨OutputStep.of_write ?_ h c.queueWriteComplete_quiet, rfl⟩
    rw [hempty, List.append_nil, List.nil_append]
  | @partly n hempty hn =>
    have hne : data.drop n ≠ [] := List.ne_nil_of_length_pos (by rw [List.length_drop]; omega)
    refine ⟨OutputStep.of_write ?_ (bufferRest_writesPending hne) (bufferRest_quiet c _), bufferRest_state c _⟩
    rw [bufferRest_content, hempty, List.nil_append, List.take_append_drop, List.nil_append]

theorem outputDrained_quiet (c : TcpConnection) : ∀ e ∈ c.outputDrained.2, e.quiet = true := by
  intro e he
  simp only [outputDrained, List.mem_cons, List.mem_append] at he
  rcases he with rfl | hcomplete | hlast
  · rfl
  · exact queueWriteComplete_quiet _ e hcomplete
  · split_ifs at hlast
    · exact shutdownInLoop_quiet _ e hlast
    · cases hlast

theorem handleWrite_step {c : TcpConnection} {result : WriteResult} {r : TcpConnection × List Effect}
    (h : c.WritesPending) (hr : c.handleWrite result = some r) : OutputStep c [] r ∧ r.1.state = c.state := by
  have hstream : ∀ {n : ℕ} {buffer : WfBuffer}, c.outputBuffer.retrieve n = some buffer →
      c.outputBuffer.content.take n ++ buffer.content = c.outputBuffer.content ++ [] := by
    intro n buffer hbuffer
    rw [WfBuffer.retrieve_content hbuffer, List.take_append_drop, List.append_nil]
  cases writeCase_of_handleWrite hr with
  | idle => exact ⟨OutputStep.of_same h rfl rfl (by simp), rfl⟩
  | drained hwriting _ hbuffer hempty =>
    refine ⟨OutputStep.of_write (hstream hbuffer) ?_ (outputDrained_quiet _), rfl⟩
    simp [WritesPending, outputDrained, hempty]
  | partly hwriting _ hbuffer hrest =>
    refine ⟨OutputStep.of_write (hstream hbuffer) ?_ (List.forall_mem_nil _), rfl⟩
    simp [WritesPending, hwriting, hrest]

/-! ## The other handlers leave the output alone while the connection lives -/

theorem connectEstablished_step {c : TcpConnection} {r : TcpConnection × List Effect} (h : c.WritesPending)
    (hr : c.connectEstablished = some r) : OutputStep c [] r := by
  unfold connectEstablished at hr
  split_ifs at hr
  obtain rfl := Option.some.inj hr
  exact OutputStep.of_same h rfl (Channel.enableReading_isWriting _) (by simp [Effect.quiet, Effect.queuesSend])

theorem handleClose_state {c : TcpConnection} {r : TcpConnection × List Effect} (hr : c.handleClose = some r) :
    r.1.state = .kDisconnected := by
  unfold handleClose at hr
  split_ifs at hr
  obtain rfl := Option.some.inj hr
  rfl

theorem handleRead_step {c : TcpConnection} {result : Base.RingBuffer.ReadvResult} {cb : WfBuffer → WfBuffer}
    {r : TcpConnection × List Effect} (h : c.WritesPending) (hr : c.handleRead result cb = some r)
    (hstate : r.1.state ≠ .kDisconnected) : OutputStep c [] r := by
  unfold handleRead at hr
  simp only at hr
  split_ifs at hr
  · obtain rfl := Option.some.inj hr
    exact OutputStep.of_same h rfl rfl (by simp [Effect.quiet, Effect.queuesSend])
  · exact absurd (handleClose_state hr) hstate
  · obtain rfl := Option.some.inj hr
    exact OutputStep.of_same h rfl rfl (List.forall_mem_nil _)

theorem forceCloseInLoop_step {c : TcpConnection} {r : TcpConnection × List Effect} (h : c.WritesPending)
    (hr : c.forceCloseInLoop = some r) (hstate : r.1.state ≠ .kDisconnected) : OutputStep c [] r := by
  unfold forceCloseInLoop at hr
  split_ifs at hr
  · exact absurd (handleClose_state hr) hstate
  · obtain rfl := Option.some.inj hr
    exact OutputStep.of_same h rfl rfl (List.forall_mem_nil _)

theorem connectDestroyed_step {c : TcpConnection} {r : TcpConnection × List Effect} (h : c.WritesPending)
    (hr : c.connectDestroyed = some r) (hstate : r.1.state ≠ .kDisconnected) : OutputStep c [] r := by
  unfold connectDestroyed at hr
  by_cases hconnected : c.state = .kConnected
  · simp only [if_pos hconnected] at hr
    obtain ⟨⟨channel, ctls⟩, -, hr⟩ := Option.bind_eq_some_iff.mp hr
    obtain rfl := Option.some.inj hr
    exact absurd rfl hstate
  · simp only [if_neg hconnected] at hr
    obtain ⟨⟨channel, ctls⟩, hremove, hr⟩ := Option.bind_eq_some_iff.mp hr
    obtain rfl := Option.some.inj hr
    refine OutputStep.of_same h rfl (Channel.remove_isWriting hremove) ?_
    simp [Effect.quiet, Effect.queuesSend]

theorem shutdown_step {c : TcpConnection} (h : c.WritesPending) : OutputStep c [] (c.shutdown.1, c.shutdownInLoop) := by
  unfold shutdown
  split <;> exact OutputStep.of_same h rfl rfl c.shutdownInLoop_quiet

theorem forceClose_step {c : TcpConnection} (h : c.WritesPending) : OutputStep c [] c.forceClose := by
  unfold forceClose
  split
  · exact OutputStep.of_same h rfl rfl (by simp [Effect.quiet, Effect.queuesSend, Functor.isSend])
  · exact OutputStep.of_same h rfl rfl (List.forall_mem_nil _)

end TcpConnection
end Chater.Net
