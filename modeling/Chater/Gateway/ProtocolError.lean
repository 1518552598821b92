import Chater.Net.ConnectionLifecycle
import Chater.Net.OutputStream
import Chater.Protocol.Codec

/-!
# A connection whose peer breaks the protocol

One established connection on its loop, with `Codec::OnMessage` as its message callback.  The loop goes through its
three phases: it polls, runs the callbacks of the connection's channel, and runs the functors that were queued.  User
code on the loop's thread may send, shut down and force the connection closed at any time, and other threads may queue
messages to be sent.

A length field above 65536 makes `OnMessage` call `ForceClose` and stop, with the header still at the front of the input
buffer.  Whatever is read later comes behind it, so `OnMessage` finds the same header each time it is called.
-/

namespace Chater.Gateway

open Base Foundations Framing Net NetLayer Protocol

set_option autoImplicit false

namespace CodecConn

/-! ## The codec on the input buffer -/

structure Decoded where
  buffer : WfBuffer
  delivered : List Packet
  invalid : Bool

theorem wf_of_onMessage {b : WfBuffer} {r : Codec.Result} (h : Codec.onMessage b.1 = some r) : r.buf.Wf := by
  obtain ⟨rest, -, -, hholds, -⟩ := Codec.walk_of_onMessageLoop b.2.holds h
  exact hholds.toWf

/-- `Codec::OnMessage`; `none` when its loop does not end. -/
def onMessage (b : WfBuffer) : Option Decoded :=
  match h : Codec.onMessage b.1 with
  | none => none
  | some r => some ⟨⟨r.buf, wf_of_onMessage h⟩, r.delivered, r.invalidLength.isSome⟩

theorem onMessage_spec {b : WfBuffer} {d : Decoded} (h : onMessage b = some d) :
    Walk Codec.frames b.content d.delivered d.buffer.content ∧ Stuck Codec.frames d.buffer.content ∧
      (d.invalid = true ↔ Codec.frameVerdict d.buffer.content = .reject) := by
  unfold onMessage at h
  split at h
  case h_1 => cases h
  case h_2 r hr =>
    obtain rfl := Option.some.inj h
    obtain ⟨rest, hwalk, hstuck, hholds, hinvalid⟩ := Codec.walk_of_onMessageLoop b.2.holds hr
    obtain rfl : r.buf.content = rest := hholds.content_eq
    refine ⟨hwalk, hstuck, ?_⟩
    show r.invalidLength.isSome = true ↔ Codec.frameVerdict r.buf.content = .reject
    rw [hinvalid, Codec.stopLength]
    split_ifs with hreject
    · simp [hreject]
    · simp [hreject]

/-- On a rejected header nothing is delivered and nothing is taken from the buffer. -/
theorem onMessage_of_reject {b : WfBuffer} {d : Decoded} (hb : Codec.frameVerdict b.content = .reject)
    (h : onMessage b = some d) : d.delivered = [] ∧ d.buffer.content = b.content ∧ d.invalid = true := by
  obtain ⟨hwalk, hstuck, hinvalid⟩ := onMessage_spec h
  obtain ⟨hdelivered, hcontent⟩ := hwalk.unique hstuck (.nil _) (stuck_of_reject hb)
  exact ⟨hdelivered, hcontent, hinvalid.mpr (hcontent ▸ hb)⟩

/-! ## The connection on its loop -/

inductive Phase
  | polling
  | handling (callbacks : List Channel.Callback)
  | functors (batch : List Functor)

def Phase.callbacks : Phase → List Channel.Callback
  | .handling callbacks => callbacks
  | _ => []

def Phase.batch : Phase → List Functor
  | .functors batch => batch
  | _ => []

end CodecConn

/-- The connection with its part of the loop, the packets delivered so far, how often `OnMessage` has met an invalid
length, and how often the close callback was called.  `removed` says that the server has queued `ConnectDestroyed`,
`aborted` that an assertion has failed. -/
structure CodecConn where
  conn : TcpConnection
  phase : CodecConn.Phase
  pending : List Functor
  delivered : List Packet
  rejects : ℕ
  closes : ℕ
  removed : Bool
  aborted : Bool

namespace CodecConn

/-- The functors that are yet to run. -/
def queued (s : CodecConn) : List Functor := s.phase.batch ++ s.pending

def start (hasWriteCompleteCallback : Bool) : CodecConn where
  conn := { TcpConnection.new hasWriteCompleteCallback with
    state := .kConnected, channel := Channel.new.enableReading.1 }
  phase := .functors []
  pending := []
  delivered := []
  rejects := 0
  closes := 0
  removed := false
  aborted := false

def finish (s : CodecConn) (r : TcpConnection × List Effect) : CodecConn :=
  { s with
    conn := r.1
    pending := s.pending ++ queuedFunctors r.2
    closes := s.closes + r.2.count .closeCallback }

/-- A handler with an assertion. -/
def asserting (s : CodecConn) : Option (TcpConnection × List Effect) → CodecConn
  | some r => s.finish r
  | none => { s with aborted := true }

/-- `HandleRead` with `OnMessage` as the message callback. -/
def handleRead (s : CodecConn) (result : RingBuffer.ReadvResult) : Option CodecConn :=
  if 0 < result.n then
    (onMessage (s.conn.inputBuffer.readFd result)).map fun d =>
      let s := { s.asserting (s.conn.handleRead result fun _ => d.buffer) with delivered := s.delivered ++ d.delivered }
      if d.invalid then { s.finish s.conn.forceClose with rejects := s.rejects + 1 } else s
  else some (s.asserting (s.conn.handleRead result id))

def runCallback (s : CodecConn) (readv : RingBuffer.ReadvResult) (write : WriteResult) :
    Channel.Callback → Option CodecConn
  | .close => some (s.asserting s.conn.handleClose)
  | .error => some s
  | .read => s.handleRead readv
  | .write => (s.conn.handleWrite write).map s.finish

def runFunctor (s : CodecConn) (result : WriteResult) : Functor → Option CodecConn
  | .sendInLoop message => (s.conn.sendInLoop message result).map s.finish
  | .shutdownInLoop => some (s.finish (s.conn, s.conn.shutdownInLoop))
  | .forceCloseInLoop => some (s.asserting s.conn.forceCloseInLoop)
  | .connectEstablished => some (s.asserting s.conn.connectEstablished)
  | .connectDestroyed => some (s.asserting s.conn.connectDestroyed)
  | .writeComplete | .highWaterMark _ => some s

/-- `poll` reports events of the connection's channel, or none of it.  `send`, `shutdown` and `forceClose` are calls on
the loop's thread, `post` a message of another thread, and `remove` is `RemoveConnectionInLoop` on the base loop. -/
inductive Event
  | poll (revents : Option Events)
  | handle (readv : RingBuffer.ReadvResult) (write : WriteResult)
  | doPendingFunctors
  | run (result : WriteResult)
  | endFunctors
  | send (message : List UInt8) (result : WriteResult)
  | shutdown
  | forceClose
  | post (message : List UInt8)
  | remove

def act (s : CodecConn) : Event → Option CodecConn
  | .poll revents =>
    match s.phase, revents with
    | .polling, none => some { s with phase := .handling [] }
    | .polling, some revents =>
      if s.conn.channel.registered ∧ NetLayer.InOrder revents then
        some { s with phase := .handling (Channel.handleEvent revents) }
      else none
    | _, _ => none
  | .handle readv write =>
    match s.phase with
    | .handling (callback :: callbacks) => runCallback { s with phase := .handling callbacks } readv write callback
    | _ => none
  | .doPendingFunctors =>
    match s.phase with
    | .handling [] => some { s with pending := [], phase := .functors s.pending }
    | _ => none
  | .run result =>
    match s.phase with
    | .functors (f :: batch) => runFunctor { s with phase := .functors batch } result f
    | _ => none
  | .endFunctors =>
    match s.phase with
    | .functors [] => some { s with phase := .polling }
    | _ => none
  | .send message result =>
    if s.conn.state = .kConnected then (s.conn.sendInLoop message result).map s.finish else some s
  | .shutdown =>
    if s.conn.state = .kConnected then some (s.finish (s.conn.shutdown.1, s.conn.shutdownInLoop)) else some s
  | .forceClose => some (s.finish s.conn.forceClose)
  | .post message => some { s with pending := s.pending ++ [.sendInLoop message] }
  | .remove =>
    if 0 < s.closes ∧ s.removed = false then
      some { s with pending := s.pending ++ [.connectDestroyed], removed := true }
    else none

/-- A run ends with the first assertion that fails. -/
def step (s : CodecConn) (e : Event) : Option CodecConn := if s.aborted then none else s.act e

/-! ## What every run keeps -/

/-- How often `ConnectDestroyed` is still to run. -/
def destroysDue (s : CodecConn) : ℕ := (if s.removed then 0 else 1) + s.queued.count .connectDestroyed

inductive Life (s : CodecConn) : Prop
  | opened (hopen : s.conn.state.isOpen = true) (hreading : s.conn.channel.isReading = true)
      (hindex : s.conn.channel.index = 1) (hcloses : s.closes = 0) (hremoved : s.removed = false)
      (hqueued : .connectDestroyed ∉ s.queued)
  | closed (hstate : s.conn.state = .kDisconnected) (hnone : s.conn.channel.isNoneEvent = true) (hcloses : s.closes = 1)
      (hdue : s.destroysDue = 1 ∧ s.conn.channel.index = 2 ∨ s.destroysDue = 0 ∧ s.conn.channel.index = -1)

structure Orderly (s : CodecConn) : Prop where
  sound : s.aborted = false
  life : s.Life
  single : closers s.phase.callbacks ≤ 1
  active : s.conn.state.isOpen = true ∨ closers s.phase.callbacks = 0
  established : .connectEstablished ∉ s.queued
  rejected : 0 < s.rejects → Codec.frameVerdict s.conn.inputBuffer.content = .reject
  closing : 0 < s.rejects → s.closes = 1 ∨ .forceCloseInLoop ∈ s.queued

/-- What a step leads to: an orderly state, in which nothing more is delivered once a length was invalid. -/
structure Follows (s t : CodecConn) : Prop where
  orderly : t.Orderly
  delivered : 0 < s.rejects → t.delivered = s.delivered
  rejects : s.rejects ≤ t.rejects

theorem Orderly.follows {s t : CodecConn} (ht : t.Orderly) (hdelivered : t.delivered = s.delivered)
    (hrejects : t.rejects = s.rejects) : s.Follows t := ⟨ht, fun _ => hdelivered, hrejects.ge⟩

theorem start_orderly (hasWriteCompleteCallback : Bool) : (start hasWriteCompleteCallback).Orderly where
  sound := rfl
  life := .opened rfl (Channel.isReading_enableReading _) (Channel.index_enableReading rfl) rfl rfl List.not_mem_nil
  single := Nat.zero_le _
  active := .inl rfl
  established := List.not_mem_nil
  rejected h := absurd h (Nat.lt_irrefl 0)
  closing h := absurd h (Nat.lt_irrefl 0)

theorem queuedFunctors_plain {effects : List Effect} (h : ∀ e ∈ effects, e.plain = true) :
    ∀ f ∈ queuedFunctors effects, f.plain = true := by
  intro f hf
  obtain ⟨e, he, heq⟩ := List.mem_filterMap.mp hf
  have hplain := h e he
  cases e with
  | queueInLoop g =>
    obtain rfl := Option.some.inj heq
    exact hplain
  | _ => cases heq

theorem count_closeCallback {effects : List Effect} (h : ∀ e ∈ effects, e.plain = true) :
    effects.count .closeCallback = 0 := by
  apply List.count_eq_zero_of_not_mem
  intro hmem
  cases h _ hmem

theorem queued_finish (s : CodecConn) (r : TcpConnection × List Effect) :
    (s.finish r).queued = s.queued ++ queuedFunctors r.2 := (List.append_assoc ..).symm

theorem Life.not_open {s : CodecConn} (h : s.Life) (hclosed : s.conn.state.isOpen ≠ true) :
    s.conn.state = .kDisconnected ∧ s.closes = 1 := by
  cases h with
  | opened hopen => exact absurd hopen hclosed
  | closed hstate _ hcloses => exact ⟨hstate, hcloses⟩

/-- A handler that queues nothing special and does not call back: it keeps the connection open, or leaves it alone. -/
theorem Orderly.finish_plain {s : CodecConn} (h : s.Orderly) {r : TcpConnection × List Effect}
    (hplain : ∀ e ∈ r.2, e.plain = true) (hinput : r.1.inputBuffer = s.conn.inputBuffer)
    (hopen : s.conn.state.isOpen = true →
      r.1.state.isOpen = true ∧ r.1.channel.isReading = true ∧ r.1.channel.index = 1)
    (hclosed : s.conn.state = .kDisconnected → r.1 = s.conn) : (s.finish r).Orderly := by
  have hcloses : (s.finish r).closes = s.closes := by
    show s.closes + r.2.count .closeCallback = s.closes
    rw [count_closeCallback hplain, Nat.add_zero]
  have hnew : ∀ f, f.plain = false → f ∉ queuedFunctors r.2 := by
    intro f hf hmem
    rw [queuedFunctors_plain hplain f hmem] at hf
    cases hf
  have hdue : (s.finish r).destroysDue = s.destroysDue := by
    unfold destroysDue
    rw [queued_finish, List.count_append, List.count_eq_zero_of_not_mem (hnew _ rfl), Nat.add_zero]
    rfl
  refine ⟨h.sound, ?_, h.single, ?_, ?_, ?_, ?_⟩
  · cases h.life with
    | opened ho _ _ hcl hremoved hqueued =>
      obtain ⟨ho', hreading, hindex⟩ := hopen ho
      refine .opened ho' hreading hindex (hcloses.trans hcl) hremoved ?_
      rw [queued_finish, List.mem_append]
      exact not_or.mpr ⟨hqueued, hnew _ rfl⟩
    | closed hstate hnone hcl hlater =>
      have hsame : (s.finish r).conn = s.conn := hclosed hstate
      rw [← hsame] at hstate hnone hlater
      rw [← hdue] at hlater
      exact .closed hstate hnone (hcloses.trans hcl) hlater
  · by_cases ho : s.conn.state.isOpen = true
    · exact .inl (hopen ho).1
    · exact .inr (h.active.resolve_left ho)
  · rw [queued_finish, List.mem_append]
    exact not_or.mpr ⟨h.established, hnew _ rfl⟩
  · intro hrejects
    show Codec.frameVerdict r.1.inputBuffer.content = .reject
    rw [hinput]
    exact h.rejected hrejects
  · intro hrejects
    rw [hcloses, queued_finish]
    exact (h.closing hrejects).imp_right fun hmem => List.mem_append_left _ hmem

theorem Orderly.finish_quietly {s : CodecConn} (h : s.Orderly) {r : TcpConnection × List Effect}
    (hr : s.conn.Quietly r) (hinput : r.1.inputBuffer = s.conn.inputBuffer)
    (hclosed : s.conn.state = .kDisconnected → r.1 = s.conn) : (s.finish r).Orderly := by
  refine h.finish_plain hr.effects hinput (fun hopen => ?_) hclosed
  cases h.life with
  | opened _ hreading hindex =>
    have hreading' := hr.reading hreading
    exact ⟨by rw [hr.state, hopen], hreading', hr.updates.index_of_isReading hindex hreading'⟩
  | closed hstate =>
    rw [hstate] at hopen
    cases hopen

theorem Orderly.finish_disconnect {s : CodecConn} (h : s.Orderly) (hopen : s.conn.state.isOpen = true)
    {effects : List Effect} (hplain : ∀ e ∈ effects, e.plain = true) :
    (s.finish ({ s.conn with state := .kDisconnecting }, effects)).Orderly := by
  refine h.finish_plain hplain rfl (fun _ => ?_) fun hstate => ?_
  · cases h.life with
    | opened _ hreading hindex => exact ⟨rfl, hreading, hindex⟩
    | closed hstate =>
      rw [hstate] at hopen
      cases hopen
  · rw [hstate] at hopen
    cases hopen

theorem Orderly.finish_close {s : CodecConn} (h : s.Orderly) (hopen : s.conn.state.isOpen = true)
    (hlast : closers s.phase.callbacks = 0) {r : TcpConnection × List Effect} (hr : s.conn.Closes r)
    (hinput : r.1.inputBuffer.content = s.conn.inputBuffer.content) : (s.finish r).Orderly := by
  obtain ⟨hstate, hchannel, ctl, heffects⟩ := hr
  have hqueued : (s.finish r).queued = s.queued := by
    rw [queued_finish, heffects]
    exact List.append_nil _
  cases h.life with
  | closed hdown =>
    rw [hdown] at hopen
    cases hopen
  | opened _ _ hindex hcloses hremoved hnot =>
    have hcloses' : (s.finish r).closes = 1 := by
      show s.closes + r.2.count .closeCallback = 1
      rw [hcloses, heffects]
      rfl
    refine ⟨h.sound, .closed hstate ?_ hcloses' (.inl ⟨?_, ?_⟩), h.single, .inr hlast, ?_, ?_, fun _ => .inl hcloses'⟩
    · show r.1.channel.isNoneEvent = true
      rw [hchannel]
      exact Channel.isNoneEvent_disableAll _
    · show (if s.removed then 0 else 1) + (s.finish r).queued.count .connectDestroyed = 1
      rw [hqueued, hremoved, List.count_eq_zero_of_not_mem hnot]
      rfl
    · show r.1.channel.index = 2
      rw [hchannel]
      exact Channel.index_disableAll hindex
    · rw [hqueued]
      exact h.established
    · intro hrejects
      show Codec.frameVerdict r.1.inputBuffer.content = .reject
      rw [hinput]
      exact h.rejected hrejects

/-- The loop goes on to another phase with the same functors left to run. -/
theorem Orderly.rephase {s : CodecConn} (h : s.Orderly) (phase : Phase) (pending : List Functor)
    (hqueued : phase.batch ++ pending = s.queued) (hsingle : closers phase.callbacks ≤ 1)
    (hactive : s.conn.state.isOpen = true ∨ closers phase.callbacks = 0) :
    Orderly { s with phase := phase, pending := pending } := by
  have hsame : ({ s with phase := phase, pending := pending } : CodecConn).queued = s.queued := hqueued
  have hdue : ({ s with phase := phase, pending := pending } : CodecConn).destroysDue = s.destroysDue := by
    unfold destroysDue
    rw [hsame]
  refine ⟨h.sound, ?_, hsingle, hactive, ?_, h.rejected, ?_⟩
  · cases h.life with
    | opened hopen hreading hindex hcloses hremoved hnot =>
      exact .opened hopen hreading hindex hcloses hremoved (by rwa [hsame])
    | closed hstate hnone hcloses hlater => exact .closed hstate hnone hcloses (by rwa [hdue])
  · rw [hsame]
    exact h.established
  · rw [hsame]
    exact h.closing

/-! ## The callbacks of the channel -/

/-- Taking up the next callback: only one that finds the connection open may close it. -/
theorem Orderly.handle {s : CodecConn} (h : s.Orderly) {callback : Channel.Callback} {callbacks : List Channel.Callback}
    (hphase : s.phase = .handling (callback :: callbacks)) :
    Orderly { s with phase := .handling callbacks } ∧
      (callback = .close ∨ callback = .read → s.conn.state.isOpen = true ∧ closers callbacks = 0) := by
  have hqueued : s.pending = s.queued := by
    rw [queued, hphase]
    rfl
  have hcallbacks : s.phase.callbacks = callback :: callbacks := by
    rw [hphase]
    rfl
  have hsingle := h.single
  have hactive := h.active
  rw [hcallbacks, closers_cons] at hsingle hactive
  constructor
  · exact h.rephase (.handling callbacks) s.pending hqueued ((Nat.le_add_right _ _).trans hsingle)
      (hactive.imp_right Nat.eq_zero_of_add_eq_zero_right)
  · intro hcloser
    rw [if_pos hcloser] at hsingle hactive
    exact ⟨hactive.resolve_right (Nat.succ_ne_zero _), by omega⟩

theorem handleClose_inputBuffer {c : TcpConnection} {r : TcpConnection × List Effect} (h : c.handleClose = some r) :
    r.1.inputBuffer = c.inputBuffer := by
  unfold TcpConnection.handleClose at h
  split_ifs at h
  obtain rfl := Option.some.inj h
  rfl

theorem finish_messageCallback (s : CodecConn) (c : TcpConnection) :
    s.finish (c, [.messageCallback]) = { s with conn := c } := by
  have hpending : s.pending ++ queuedFunctors [.messageCallback] = s.pending := List.append_nil _
  rw [finish, hpending]
  rfl

theorem Orderly.setInput {s : CodecConn} (h : s.Orderly) {buffer : WfBuffer} (delivered : List Packet)
    (hreject : 0 < s.rejects → Codec.frameVerdict buffer.content = .reject) :
    Orderly { s with conn := { s.conn with inputBuffer := buffer }, delivered := delivered } := by
  refine ⟨h.sound, ?_, h.single, h.active, h.established, hreject, h.closing⟩
  cases h.life with
  | opened hopen hreading hindex hcloses hremoved hnot => exact .opened hopen hreading hindex hcloses hremoved hnot
  | closed hstate hnone hcloses hlater => exact .closed hstate hnone hcloses hlater

theorem Orderly.reject {s : CodecConn} (h : s.Orderly)
    (hreject : Codec.frameVerdict s.conn.inputBuffer.content = .reject) (hqueued : .forceCloseInLoop ∈ s.queued) :
    Orderly { s with rejects := s.rejects + 1 } := by
  refine ⟨h.sound, ?_, h.single, h.active, h.established, fun _ => hreject, fun _ => .inr hqueued⟩
  cases h.life with
  | opened hopen hreading hindex hcloses hremoved hnot => exact .opened hopen hreading hindex hcloses hremoved hnot
  | closed hstate hnone hcloses hlater => exact .closed hstate hnone hcloses hlater

theorem forceClose_of_open {c : TcpConnection} (h : c.state.isOpen = true) :
    c.forceClose = ({ c with state := .kDisconnecting }, [.queueInLoop .forceCloseInLoop]) :=
  if_pos (State.isOpen_iff.mp h)

theorem forceClose_of_not_open {c : TcpConnection} (h : c.state.isOpen ≠ true) : c.forceClose = (c, []) :=
  if_neg fun hopen => h (State.isOpen_iff.mpr hopen)

theorem Orderly.forceClose {s : CodecConn} (h : s.Orderly) : (s.finish s.conn.forceClose).Orderly := by
  by_cases hopen : s.conn.state.isOpen = true
  · rw [forceClose_of_open hopen]
    exact h.finish_disconnect hopen (List.forall_mem_singleton.mpr rfl)
  · rw [forceClose_of_not_open hopen]
    exact h.finish_quietly (TcpConnection.Quietly.of_channel rfl rfl (List.forall_mem_nil _)) rfl fun _ => rfl

/-- What arrives behind a rejected header does not change the verdict. -/
theorem Orderly.rejected_readFd {s : CodecConn} (h : s.Orderly) (hrejects : 0 < s.rejects)
    (result : RingBuffer.ReadvResult) :
    Codec.frameVerdict (s.conn.inputBuffer.readFd result).content = .reject := by
  cases result with
  | error errno => exact h.rejected hrejects
  | bytes data =>
    rw [WfBuffer.readFd_content]
    exact Codec.frameVerdict_reject_append _ data (h.rejected hrejects)

/-- Data on an open connection: `OnMessage` runs, and calls `ForceClose` when it meets an invalid length. -/
theorem Orderly.message {s : CodecConn} (h : s.Orderly) (hopen : s.conn.state.isOpen = true)
    {result : RingBuffer.ReadvResult} {d : Decoded} (hd : onMessage (s.conn.inputBuffer.readFd result) = some d) :
    let read := { s with
      conn := { s.conn with inputBuffer := d.buffer }, delivered := s.delivered ++ d.delivered }
    s.Follows (if d.invalid then { read.finish read.conn.forceClose with rejects := s.rejects + 1 } else read) := by
  intro read
  have hagain : 0 < s.rejects → d.delivered = [] ∧ d.invalid = true ∧ Codec.frameVerdict d.buffer.content = .reject := by
    intro hrejects
    have hverdict := h.rejected_readFd hrejects result
    obtain ⟨hdelivered, hcontent, hinvalid⟩ := onMessage_of_reject hverdict hd
    exact ⟨hdelivered, hinvalid, hcontent ▸ hverdict⟩
  have hread : read.Orderly := h.setInput _ fun hrejects => (hagain hrejects).2.2
  have hdelivered : 0 < s.rejects → s.delivered ++ d.delivered = s.delivered := by
    intro hrejects
    rw [(hagain hrejects).1, List.append_nil]
  split_ifs with hinvalid
  · have hverdict := (onMessage_spec hd).2.2.mp hinvalid
    have hforce := forceClose_of_open (show read.conn.state.isOpen = true from hopen)
    have hqueued : .forceCloseInLoop ∈ (read.finish read.conn.forceClose).queued := by
      rw [queued_finish, hforce]
      exact List.mem_append_right _ (List.mem_singleton_self _)
    refine ⟨hread.forceClose.reject ?_ hqueued, hdelivered, Nat.le_succ _⟩
    rw [hforce]
    exact hverdict
  · exact ⟨hread, hdelivered, le_rfl⟩

/-- Reading on an open connection. -/
theorem Orderly.handleRead {s t : CodecConn} (h : s.Orderly) (hopen : s.conn.state.isOpen = true)
    (hlast : closers s.phase.callbacks = 0) {result : RingBuffer.ReadvResult} (ht : s.handleRead result = some t) :
    s.Follows t := by
  unfold CodecConn.handleRead at ht
  split_ifs at ht with hn
  · obtain ⟨d, hd, rfl⟩ := Option.map_eq_some_iff.mp ht
    have hkeep : s.conn.handleRead result (fun _ => d.buffer) =
        some ({ s.conn with inputBuffer := d.buffer }, [.messageCallback]) := if_pos hn
    have hfollows := h.message hopen hd
    rw [hkeep, asserting, finish_messageCallback]
    exact hfollows
  · obtain rfl := Option.some.inj ht
    cases result with
    | error errno =>
      have hkeep : s.conn.handleRead (.error errno) id = some (s.conn, []) := rfl
      rw [hkeep]
      refine Orderly.follows (h.finish_quietly ?_ rfl fun _ => rfl) rfl rfl
      exact TcpConnection.Quietly.of_channel rfl rfl (List.forall_mem_nil _)
    | bytes data =>
      have hempty : data = [] := by
        cases data with
        | nil => rfl
        | cons b data => exact absurd (Int.natCast_pos.mpr (Nat.succ_pos _)) hn
      subst hempty
      obtain ⟨r, hr, hcloses⟩ := @TcpConnection.handleClose_closes
        { s.conn with inputBuffer := s.conn.inputBuffer.readFd (.bytes []) } hopen
      have hkeep : s.conn.handleRead (.bytes []) id = some r := hr
      rw [hkeep]
      refine Orderly.follows (h.finish_close hopen hlast hcloses ?_) rfl rfl
      rw [handleClose_inputBuffer hr]
      exact (WfBuffer.readFd_content _ _).trans (List.append_nil _)

theorem Orderly.finish_sendInLoop {s : CodecConn} (h : s.Orderly) {message : List UInt8} {result : WriteResult}
    {r : TcpConnection × List Effect} (hr : s.conn.sendInLoop message result = some r) : (s.finish r).Orderly := by
  refine h.finish_quietly (TcpConnection.sendInLoop_quietly hr) (TcpConnection.sendInLoop_inputBuffer hr) fun hstate => ?_
  rw [TcpConnection.sendInLoop_disconnected hstate] at hr
  rw [← Option.some.inj hr]

theorem Orderly.finish_handleWrite {s : CodecConn} (h : s.Orderly) {result : WriteResult}
    {r : TcpConnection × List Effect} (hr : s.conn.handleWrite result = some r) : (s.finish r).Orderly := by
  refine h.finish_quietly (TcpConnection.handleWrite_quietly hr) (TcpConnection.handleWrite_inputBuffer hr)
    fun hstate => ?_
  cases h.life with
  | opened hopen =>
    rw [hstate] at hopen
    cases hopen
  | closed _ hnone =>
    rw [TcpConnection.handleWrite_of_not_writing (Channel.isWriting_of_isNoneEvent hnone)] at hr
    rw [← Option.some.inj hr]

theorem Orderly.runCallback {s t : CodecConn} (h : s.Orderly) {callback : Channel.Callback}
    (hcloser : callback = .close ∨ callback = .read → s.conn.state.isOpen = true ∧ closers s.phase.callbacks = 0)
    {readv : RingBuffer.ReadvResult} {write : WriteResult} (ht : s.runCallback readv write callback = some t) :
    s.Follows t := by
  cases callback with
  | close =>
    obtain rfl := Option.some.inj ht
    obtain ⟨hopen, hlast⟩ := hcloser (.inl rfl)
    obtain ⟨r, hr, hcloses⟩ := TcpConnection.handleClose_closes hopen
    rw [hr]
    exact (h.finish_close hopen hlast hcloses (by rw [handleClose_inputBuffer hr])).follows rfl rfl
  | error =>
    obtain rfl := Option.some.inj ht
    exact h.follows rfl rfl
  | read =>
    obtain ⟨hopen, hlast⟩ := hcloser (.inr rfl)
    exact h.handleRead hopen hlast ht
  | write =>
    obtain ⟨r, hr, rfl⟩ := Option.map_eq_some_iff.mp ht
    exact (h.finish_handleWrite hr).follows rfl rfl

/-! ## The functors -/

/-- A functor that has run is no longer queued. -/
theorem Orderly.pop {s : CodecConn} (h : s.Orderly) {f : Functor} {batch : List Functor}
    (hphase : s.phase = .functors (f :: batch)) (hdestroy : f ≠ .connectDestroyed)
    (hforce : f = .forceCloseInLoop → s.closes = 1) : Orderly { s with phase := .functors batch } := by
  have hqueued : s.queued = f :: ({ s with phase := .functors batch } : CodecConn).queued := by
    rw [queued, hphase]
    rfl
  have hdue : ({ s with phase := .functors batch } : CodecConn).destroysDue = s.destroysDue := by
    unfold destroysDue
    rw [hqueued, List.count_cons_of_ne hdestroy]
  have hestablished := h.established
  have hclosing := h.closing
  rw [hqueued, List.mem_cons, not_or] at hestablished
  refine ⟨h.sound, ?_, Nat.zero_le _, .inr rfl, hestablished.2, h.rejected, fun hrejects => ?_⟩
  · cases h.life with
    | opened hopen hreading hindex hcloses hremoved hnot =>
      rw [hqueued, List.mem_cons, not_or] at hnot
      exact .opened hopen hreading hindex hcloses hremoved hnot.2
    | closed hstate hnone hcloses hlater => exact .closed hstate hnone hcloses (by rwa [hdue])
  · rcases hclosing hrejects with hcloses | hmem
    · exact .inl hcloses
    · rw [hqueued, List.mem_cons] at hmem
      rcases hmem with hf | hmem
      · exact .inl (hforce hf.symm)
      · exact .inr hmem

theorem Orderly.connectDestroyed {s : CodecConn} (h : s.Orderly) {batch : List Functor}
    (hphase : s.phase = .functors (.connectDestroyed :: batch)) {result : WriteResult} {t : CodecConn}
    (ht : CodecConn.runFunctor { s with phase := .functors batch } result .connectDestroyed = some t) :
    s.Follows t := by
  have hqueued : s.queued = .connectDestroyed :: (batch ++ s.pending) := by
    rw [queued, hphase]
    rfl
  have hestablished := h.established
  rw [hqueued, List.mem_cons, not_or] at hestablished
  cases h.life with
  | opened _ _ _ _ _ hnot =>
    rw [hqueued] at hnot
    exact absurd (List.mem_cons_self ..) hnot
  | closed hstate hnone hcloses hlater =>
    have hdue : s.destroysDue = (if s.removed then 0 else 1) + ((batch ++ s.pending).count .connectDestroyed + 1) := by
      rw [destroysDue, hqueued, List.count_cons_self]
    obtain ⟨hone, hindex⟩ : s.destroysDue = 1 ∧ s.conn.channel.index = 2 := by
      rcases hlater with hlater | ⟨hzero, -⟩
      · exact hlater
      · omega
    have hdestroyed := connectDestroyed_eq (by rw [hstate]; decide) hnone hindex
    obtain rfl := Option.some.inj ht
    simp only [hdestroyed, asserting, finish, queuedFunctors, List.filterMap_nil, List.append_nil, List.count_nil,
      Nat.add_zero]
    refine Orderly.follows ⟨h.sound, .closed hstate hnone hcloses (.inr ⟨?_, rfl⟩), Nat.zero_le _, .inr rfl,
      hestablished.2, h.rejected, fun _ => .inl hcloses⟩ rfl rfl
    show (if s.removed then 0 else 1) + (batch ++ s.pending).count .connectDestroyed = 0
    omega

theorem Orderly.runFunctor {s t : CodecConn} (h : s.Orderly) {f : Functor} {batch : List Functor}
    (hphase : s.phase = .functors (f :: batch)) {result : WriteResult}
    (ht : CodecConn.runFunctor { s with phase := .functors batch } result f = some t) : s.Follows t := by
  have hactive : closers s.phase.callbacks = 0 := by
    rw [hphase]
    rfl
  cases f with
  | sendInLoop message =>
    obtain ⟨r, hr, rfl⟩ := Option.map_eq_some_iff.mp ht
    exact ((h.finish_sendInLoop hr).pop hphase nofun nofun).follows rfl rfl
  | shutdownInLoop =>
    obtain rfl := Option.some.inj ht
    have hquiet : s.conn.Quietly (s.conn, s.conn.shutdownInLoop) :=
      TcpConnection.Quietly.of_channel rfl rfl s.conn.shutdownInLoop_plain
    exact ((h.finish_quietly hquiet rfl fun _ => rfl).pop hphase nofun nofun).follows rfl rfl
  | forceCloseInLoop =>
    obtain rfl := Option.some.inj ht
    by_cases hopen : s.conn.state.isOpen = true
    · obtain ⟨r, hr, hcloses⟩ := TcpConnection.handleClose_closes hopen
      have hforce : s.conn.forceCloseInLoop = some r := (if_pos (State.isOpen_iff.mp hopen)).trans hr
      have hclosed := h.finish_close hopen hactive hcloses (by rw [handleClose_inputBuffer hr])
      have hstate : (s.finish r).conn.state.isOpen ≠ true := by
        show r.1.state.isOpen ≠ true
        rw [hcloses.1]
        decide
      rw [hforce]
      exact (hclosed.pop hphase nofun fun _ => (hclosed.life.not_open hstate).2).follows rfl rfl
    · have hquiet : s.conn.Quietly (s.conn, []) := TcpConnection.Quietly.of_channel rfl rfl (List.forall_mem_nil _)
      have hkept := h.finish_quietly hquiet rfl fun _ => rfl
      rw [forceCloseInLoop_of_not_open hopen]
      exact (hkept.pop hphase nofun fun _ => (hkept.life.not_open hopen).2).follows rfl rfl
  | connectEstablished =>
    refine absurd ?_ h.established
    rw [queued, hphase]
    exact List.mem_append_left _ (List.mem_cons_self ..)
  | connectDestroyed => exact h.connectDestroyed hphase ht
  | writeComplete =>
    obtain rfl := Option.some.inj ht
    exact (h.pop hphase nofun nofun).follows rfl rfl
  | highWaterMark size =>
    obtain rfl := Option.some.inj ht
    exact (h.pop hphase nofun nofun).follows rfl rfl

/-! ## Steps and runs -/

theorem Orderly.poll {s t : CodecConn} (h : s.Orderly) {revents : Option Events} (ht : s.act (.poll revents) = some t) :
    s.Follows t := by
  simp only [act] at ht
  split at ht
  · rename_i hphase
    obtain rfl := Option.some.inj ht
    have hqueued : s.pending = s.queued := by
      rw [queued, hphase]
      rfl
    exact (h.rephase (.handling []) s.pending hqueued (Nat.zero_le _) (.inr rfl)).follows rfl rfl
  · rename_i revents hphase
    split_ifs at ht with hreported
    obtain rfl := Option.some.inj ht
    have hqueued : s.pending = s.queued := by
      rw [queued, hphase]
      rfl
    -- the kernel has the descriptors of open connections only
    have hopen : s.conn.state.isOpen = true := by
      have hindex : s.conn.channel.index = 1 := by simpa [Channel.registered] using hreported.1
      cases h.life with
      | opened hopen => exact hopen
      | closed _ _ _ hlater => rcases hlater with ⟨-, h2⟩ | ⟨-, h2⟩ <;> omega
    exact (h.rephase (.handling (Channel.handleEvent revents)) s.pending hqueued (closers_handleEvent hreported.2)
      (.inl hopen)).follows rfl rfl
  · cases ht

theorem Orderly.append {s : CodecConn} (h : s.Orderly) {message : List UInt8} :
    Orderly { s with pending := s.pending ++ [.sendInLoop message] } := by
  have hfinish := h.finish_plain (r := (s.conn, [.queueInLoop (.sendInLoop message)]))
    (List.forall_mem_singleton.mpr rfl) rfl (fun hopen => ?_) fun _ => rfl
  · exact hfinish
  · cases h.life with
    | opened hopen hreading hindex => exact ⟨hopen, hreading, hindex⟩
    | closed hstate =>
      rw [hstate] at hopen
      cases hopen

theorem Orderly.remove {s t : CodecConn} (h : s.Orderly) (ht : s.act .remove = some t) : s.Follows t := by
  simp only [act] at ht
  split_ifs at ht with hcond
  obtain rfl := Option.some.inj ht
  have hqueued : ({ s with pending := s.pending ++ [.connectDestroyed], removed := true } : CodecConn).queued =
      s.queued ++ [.connectDestroyed] := (List.append_assoc ..).symm
  cases h.life with
  | opened _ _ _ hcloses => omega
  | closed hstate hnone hcloses hlater =>
    have hdue : ({ s with pending := s.pending ++ [.connectDestroyed], removed := true } : CodecConn).destroysDue =
        s.destroysDue := by
      unfold destroysDue
      rw [hqueued, hcond.2, List.count_append]
      simp
      omega
    refine Orderly.follows ⟨h.sound, .closed hstate hnone hcloses (by rwa [hdue]), h.single, h.active, ?_, h.rejected,
      fun _ => .inl hcloses⟩ rfl rfl
    rw [hqueued, List.mem_append]
    exact not_or.mpr ⟨h.established, by simp⟩

theorem Orderly.act {s t : CodecConn} (h : s.Orderly) {e : Event} (ht : s.act e = some t) : s.Follows t := by
  cases e with
  | poll revents => exact h.poll ht
  | handle readv write =>
    simp only [CodecConn.act] at ht
    split at ht
    · rename_i callback callbacks hphase
      obtain ⟨hpopped, hcloser⟩ := h.handle hphase
      have hfollows := hpopped.runCallback hcloser ht
      exact ⟨hfollows.orderly, hfollows.delivered, hfollows.rejects⟩
    · cases ht
  | doPendingFunctors =>
    simp only [CodecConn.act] at ht
    split at ht
    · rename_i hphase
      obtain rfl := Option.some.inj ht
      have hqueued : s.pending ++ [] = s.queued := by
        rw [queued, hphase, List.append_nil]
        rfl
      exact (h.rephase (.functors s.pending) [] hqueued (Nat.zero_le _) (.inr rfl)).follows rfl rfl
    · cases ht
  | run result =>
    simp only [CodecConn.act] at ht
    split at ht
    · rename_i f batch hphase
      exact h.runFunctor hphase ht
    · cases ht
  | endFunctors =>
    simp only [CodecConn.act] at ht
    split at ht
    · rename_i hphase
      obtain rfl := Option.some.inj ht
      have hqueued : s.pending = s.queued := by
        rw [queued, hphase]
        rfl
      exact (h.rephase .polling s.pending hqueued (Nat.zero_le _) (.inr rfl)).follows rfl rfl
    · cases ht
  | send message result =>
    simp only [CodecConn.act] at ht
    split_ifs at ht
    · obtain ⟨r, hr, rfl⟩ := Option.map_eq_some_iff.mp ht
      exact (h.finish_sendInLoop hr).follows rfl rfl
    · obtain rfl := Option.some.inj ht
      exact h.follows rfl rfl
  | shutdown =>
    simp only [CodecConn.act] at ht
    split_ifs at ht with hstate
    · obtain rfl := Option.some.inj ht
      have hshutdown : s.conn.shutdown.1 = { s.conn with state := .kDisconnecting } := by
        rw [TcpConnection.shutdown, if_pos hstate]
      rw [hshutdown]
      exact (h.finish_disconnect (by rw [hstate]; rfl) s.conn.shutdownInLoop_plain).follows rfl rfl
    · obtain rfl := Option.some.inj ht
      exact h.follows rfl rfl
  | forceClose =>
    obtain rfl := Option.some.inj ht
    exact h.forceClose.follows rfl rfl
  | post message =>
    obtain rfl := Option.some.inj ht
    exact h.append.follows rfl rfl
  | remove => exact h.remove ht

theorem Orderly.step {s t : CodecConn} (h : s.Orderly) {e : Event} (ht : s.step e = some t) : s.Follows t := by
  rw [CodecConn.step, h.sound] at ht
  exact h.act ht

theorem follows_of_run {s t : CodecConn} {es : List Event} (hs : s.Orderly) (hrun : runFrom CodecConn.step s es = some t) :
    s.Follows t := by
  refine invariant_of_run (fun a e b (ha : s.Follows a) hb => ?_) ⟨hs, fun _ => rfl, le_rfl⟩ hrun
  have hnext := ha.orderly.step hb
  refine ⟨hnext.orderly, fun hrejects => ?_, ha.rejects.trans hnext.rejects⟩
  rw [hnext.delivered (hrejects.trans_le ha.rejects), ha.delivered hrejects]

/-- **A protocol error is terminal.**  After a length above 65536 nothing more is delivered, no assertion fails, and the
connection is closed once: it is closed as soon as none of the queued `ForceCloseInLoop` is left, and not again by the
others. -/
theorem protocol_error_terminal (hasWriteCompleteCallback : Bool) (es fs : List Event) (s t : CodecConn)
    (hs : runFrom CodecConn.step (start hasWriteCompleteCallback) es = some s) (hreject : 0 < s.rejects)
    (ht : runFrom CodecConn.step s fs = some t) :
    t.delivered = s.delivered ∧ t.aborted = false ∧ t.closes ≤ 1 ∧ (.forceCloseInLoop ∉ t.queued → t.closes = 1) := by
  have hmid := (follows_of_run (start_orderly _) hs).orderly
  have hlast := follows_of_run hmid ht
  refine ⟨hlast.delivered hreject, hlast.orderly.sound, ?_, fun hnone => ?_⟩
  · cases hlast.orderly.life with
    | opened _ _ _ hcloses => exact hcloses.trans_le (Nat.zero_le 1)
    | closed _ _ hcloses => exact hcloses.le
  · exact (hlast.orderly.closing (hreject.trans_le hlast.rejects)).resolve_right hnone

/-- A header with length 65537 arrives. -/
def brokenHeader : List Event :=
  [.endFunctors, .poll (some EPOLLIN), .handle (.bytes [1, 0, 1, 0, 0, 0, 0, 0, 0, 0, 0, 0]) (.wrote 0)]

/-- User code forces the connection closed too, and both functors run. -/
def closedTwice : List Event := [.forceClose, .doPendingFunctors, .run (.wrote 0), .run (.wrote 0), .endFunctors]

theorem protocol_error_terminal_closedTwice :
    ∃ s t, runFrom CodecConn.step (start false) brokenHeader = some s ∧ runFrom CodecConn.step s closedTwice = some t ∧
      t.delivered = s.delivered ∧ t.aborted = false ∧ t.closes ≤ 1 ∧ (.forceCloseInLoop ∉ t.queued → t.closes = 1) := by
  have hruns : ((runFrom CodecConn.step (start false) brokenHeader).bind fun s =>
      (runFrom CodecConn.step s closedTwice).map fun t => (s.rejects, t.closes)) = some (1, 1) := by decide +kernel
  obtain ⟨s, hs, hmap⟩ := Option.bind_eq_some_iff.mp hruns
  obtain ⟨t, ht, hcounts⟩ := Option.map_eq_some_iff.mp hmap
  obtain ⟨hrejects, -⟩ := Prod.mk.inj hcounts
  exact ⟨s, t, hs, ht, protocol_error_terminal false brokenHeader closedTwice s t hs (hrejects ▸ Nat.one_pos) ht⟩

end CodecConn
end Chater.Gateway
