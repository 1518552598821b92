import Chater.Foundations.FairRun
import Chater.Net.OutputStream
import Chater.Net.ReadReadiness

/-!
# Buffered output under edge triggering

A connection's output together with the send side of its socket.  A `::write` that takes less than it is offered has
filled the send buffer, and one on a full send buffer fails with `EAGAIN`.  The kernel announces the socket when room
comes back while the loop is interested in `EPOLLOUT`, and looks at it afresh whenever the channel is added or modified.

`HandleWrite` makes one `::write` for a report.  Unlike one `::readv` that is enough: either the buffer is empty
afterwards, and the interest is given up, or the send buffer is full, and room will be announced.
-/

namespace Chater.Net

open Base Foundations

set_option autoImplicit false

/-! ## The send side of a socket -/

structure SendSide where
  writable : Bool
  /-- A report of `EPOLLOUT` is due. -/
  edge : Bool

namespace SendSide

/-- What `::write` may return for `len` bytes. -/
def accepts (k : SendSide) (len : ℕ) : WriteResult → Bool
  | .wrote n => n ≤ len && (len == 0 || k.writable && 0 < n)
  | .failed errno => errno != EAGAIN || !k.writable

/-- `full` is whether a write that took everything has filled the send buffer. -/
def written (k : SendSide) (len : ℕ) (full : Bool) : WriteResult → SendSide
  | .wrote n => { k with writable := k.writable && n == len && !full }
  | .failed _ => k

def applyEffect (k : SendSide) : Effect → SendSide
  | .epollCtl ⟨.EPOLL_CTL_DEL, _⟩ => { k with edge := false }
  | .epollCtl ⟨_, events⟩ => { k with edge := k.edge || k.writable && events.any EPOLLOUT }
  | _ => k

end SendSide

/-! ## The system -/

structure WatchedOutput (T : Type) where
  sys : OutputSystem T
  side : SendSide
  /-- `epoll_wait` has reported `EPOLLOUT`, and the channel's turn has not come yet. -/
  reported : Bool

def OutputEvent.isHandleWrite {T : Type} : OutputEvent T → Bool
  | .handleWrite _ => true
  | _ => false

namespace WatchedOutput

variable {T : Type} [DecidableEq T] (owner : T)

/-- `poll` is an `epoll_wait` that comes to the connection; it may do so for another reason than the edge. -/
inductive Event (T : Type)
  | makeRoom
  | poll
  | system (e : OutputEvent T) (full : Bool)

def start (hasWriteCompleteCallback hasHighWaterMarkCallback : Bool) (highWaterMark : ℕ) : WatchedOutput T :=
  ⟨.start hasWriteCompleteCallback hasHighWaterMarkCallback highWaterMark, ⟨true, false⟩, false⟩

/-- The message for which the event runs `SendInLoop`, with the result of the `::write` there. -/
def sentInLoop (s : OutputSystem T) : OutputEvent T → Option (List UInt8 × WriteResult)
  | .send t message result => if s.conn.state = .kConnected ∧ t = owner then some (message, result) else none
  | .runFunctor result =>
    match s.batch with
    | ⟨_, .sendInLoop message⟩ :: _ => some (message, result)
    | _ => none
  | _ => none

/-- The `::write` that the event makes: the number of bytes offered, and the result. -/
def writeCall (s : OutputSystem T) (e : OutputEvent T) : Option (ℕ × WriteResult) :=
  match e with
  | .handleWrite result =>
    if s.conn.channel.isWriting then some (s.conn.outputBuffer.readableBytes, result) else none
  | e =>
    match sentInLoop owner s e with
    | some (message, result) =>
      if s.conn.state ≠ .kDisconnected ∧ s.conn.channel.isWriting = false ∧ s.conn.outputBuffer.readableBytes = 0 then
        some (message.length, result)
      else none
    | none => none

def after (s : WatchedOutput T) (e : OutputEvent T) (side : SendSide) (t : OutputSystem T) : WatchedOutput T where
  sys := t
  side := (t.effects.drop s.sys.effects.length).foldl SendSide.applyEffect side
  reported := s.reported && !e.isHandleWrite

def step (s : WatchedOutput T) : Event T → Option (WatchedOutput T)
  | .makeRoom =>
    if s.side.writable then none
    else some { s with side := ⟨true, s.side.edge || s.sys.conn.channel.isWriting⟩ }
  | .poll =>
    if s.reported then none
    else some { s with
      side := { s.side with edge := false }
      reported := s.sys.conn.channel.isWriting && s.side.writable }
  | .system e full =>
    if e.isHandleWrite && !s.reported then none
    else
      match writeCall owner s.sys e with
      | some (len, result) =>
        if s.side.accepts len result then (s.sys.step owner e).map (s.after e (s.side.written len full result))
        else none
      | none => (s.sys.step owner e).map (s.after e s.side)

/-- The `::write` in `HandleWrite` fails only for want of room. -/
def WouldBlock (_ : WatchedOutput T) : Event T → Prop
  | .system (.handleWrite (.failed errno)) _ => errno = EAGAIN
  | _ => True

instance (s : WatchedOutput T) (e : Event T) : Decidable (WouldBlock s e) := by
  unfold WouldBlock
  split <;> infer_instance

end WatchedOutput

/-! ## What the handlers do to the interest in `EPOLLOUT` -/

namespace SendSide

theorem applyEffect_writable (k : SendSide) (e : Effect) : (k.applyEffect e).writable = k.writable := by
  unfold applyEffect
  split <;> rfl

theorem foldl_writable (effects : List Effect) (k : SendSide) :
    (effects.foldl applyEffect k).writable = k.writable := by
  induction effects generalizing k with
  | nil => rfl
  | cons e effects ih => rw [List.foldl_cons, ih, applyEffect_writable]

theorem foldl_edge {effects : List Effect} {k : SendSide} (hedge : k.edge = true)
    (hkeep : ∀ ctl, Effect.epollCtl ctl ∈ effects → ctl.operation ≠ .EPOLL_CTL_DEL) :
    (effects.foldl applyEffect k).edge = true := by
  induction effects generalizing k with
  | nil => exact hedge
  | cons e effects ih =>
    rw [List.foldl_cons]
    apply ih
    · unfold applyEffect
      split
      · exact absurd rfl (hkeep _ List.mem_cons_self)
      · simp [hedge]
      · exact hedge
    · exact fun ctl hctl => hkeep ctl (List.mem_cons_of_mem e hctl)

theorem foldl_eq_self {effects : List Effect} (k : SendSide) (hnone : ∀ ctl, Effect.epollCtl ctl ∉ effects) :
    effects.foldl applyEffect k = k := by
  induction effects generalizing k with
  | nil => rfl
  | cons e effects ih =>
    have hsame : k.applyEffect e = k := by
      cases e with
      | epollCtl ctl => exact absurd List.mem_cons_self (hnone ctl)
      | _ => rfl
    rw [List.foldl_cons, hsame]
    exact ih k fun ctl hctl => hnone ctl (List.mem_cons_of_mem e hctl)

theorem applyEffect_ctl (k : SendSide) {ctl : EpollCtl} (hop : ctl.operation ≠ .EPOLL_CTL_DEL)
    (hevents : ctl.events.any EPOLLOUT = true) :
    k.applyEffect (.epollCtl ctl) = { k with edge := k.edge || k.writable } := by
  obtain ⟨operation, events⟩ := ctl
  cases operation with
  | EPOLL_CTL_DEL => exact absurd rfl hop
  | EPOLL_CTL_ADD | EPOLL_CTL_MOD =>
    simp only at hevents
    simp only [applyEffect, hevents, Bool.and_true]

end SendSide

namespace Channel

theorem isNoneEvent_of_isWriting {c : Channel} (h : c.isWriting = true) : c.isNoneEvent = false := by
  rw [isNoneEvent, beq_eq_false_iff_ne]
  intro hnone
  rw [isWriting, hnone] at h
  exact absurd h (by decide)

theorem update_operation {c : Channel} (h : c.isWriting = true) : c.update.2.operation ≠ .EPOLL_CTL_DEL := by
  have hsome : ({ c with addedToLoop := true } : Channel).isNoneEvent = false := isNoneEvent_of_isWriting h
  unfold update
  simp only
  split_ifs with hindex hnone
  · exact EpollOp.noConfusion
  · rw [hsome] at hnone
    cases hnone
  · exact EpollOp.noConfusion

theorem update_ctl_events (c : Channel) : c.update.2.events = c.events ||| EPOLLET := by
  unfold update
  simp only
  split_ifs <;> rfl

theorem applyEffect_enableWriting (c : Channel) (k : SendSide) :
    k.applyEffect (.epollCtl c.enableWriting.2) = { k with edge := k.edge || k.writable } := by
  have hwriting : ({ c with events := c.events ||| kWriteEvent } : Channel).isWriting = true := by
    simp only [isWriting, any_or]
    exact Bool.or_true _
  refine SendSide.applyEffect_ctl k (update_operation hwriting) ?_
  rw [enableWriting, update_ctl_events, any_or]
  exact (Bool.or_eq_true _ _).mpr (.inl hwriting)

end Channel

namespace TcpConnection

theorem queueHighWaterMark_no_ctl (c : TcpConnection) (n : ℕ) : ∀ ctl, Effect.epollCtl ctl ∉ c.queueHighWaterMark n := by
  intro ctl hctl
  unfold queueHighWaterMark at hctl
  simp only at hctl
  split_ifs at hctl <;> simp at hctl

/-- Buffering more makes the kernel look at the socket unless the loop waits for room already. -/
theorem bufferRest_side (c : TcpConnection) (rest : List UInt8) (k : SendSide) :
    (c.bufferRest rest).2.foldl SendSide.applyEffect k =
      if c.channel.isWriting then k else { k with edge := k.edge || k.writable } := by
  unfold bufferRest
  simp only
  split_ifs with hwriting
  · exact SendSide.foldl_eq_self k (c.queueHighWaterMark_no_ctl _)
  · rw [List.foldl_append, SendSide.foldl_eq_self k (c.queueHighWaterMark_no_ctl _)]
    exact Channel.applyEffect_enableWriting _ k

/-- A handler that has nothing to do with the output. -/
structure Aside (c c' : TcpConnection) (effects : List Effect) : Prop where
  buffer : c'.outputBuffer = c.outputBuffer
  writing : c'.channel.isWriting = c.channel.isWriting
  watched : c.channel.isWriting = true → ∀ ctl, Effect.epollCtl ctl ∈ effects → ctl.operation ≠ .EPOLL_CTL_DEL

theorem Aside.of_no_ctl {c c' : TcpConnection} {effects : List Effect} (hbuffer : c'.outputBuffer = c.outputBuffer)
    (hchannel : c'.channel = c.channel) (hnone : ∀ ctl, Effect.epollCtl ctl ∉ effects) : Aside c c' effects :=
  ⟨hbuffer, by rw [hchannel], fun _ ctl hctl => absurd hctl (hnone ctl)⟩

theorem shutdownInLoop_no_ctl (c : TcpConnection) : ∀ ctl, Effect.epollCtl ctl ∉ c.shutdownInLoop := by
  intro ctl hctl
  unfold shutdownInLoop at hctl
  split_ifs at hctl <;> simp at hctl

variable {c : TcpConnection} {r : TcpConnection × List Effect}

theorem connectEstablished_aside (hr : c.connectEstablished = some r) : Aside c r.1 r.2 := by
  unfold connectEstablished at hr
  split_ifs at hr
  obtain rfl := Option.some.inj hr
  refine ⟨rfl, Channel.enableReading_isWriting _, fun hwriting ctl hctl => ?_⟩
  obtain hctl | hctl := List.mem_cons.mp hctl
  · obtain rfl := Effect.epollCtl.inj hctl
    apply Channel.update_operation
    simp only [Channel.isWriting, Channel.any_or] at hwriting ⊢
    rw [hwriting, Bool.true_or]
  · simp at hctl

theorem handleRead_aside {result : RingBuffer.ReadvResult} {cb : WfBuffer → WfBuffer}
    (hr : c.handleRead result cb = some r) (hopen : r.1.state ≠ .kDisconnected) : Aside c r.1 r.2 := by
  unfold handleRead at hr
  simp only at hr
  split_ifs at hr
  · obtain rfl := Option.some.inj hr
    exact .of_no_ctl rfl rfl (by simp)
  · exact absurd (handleClose_state hr) hopen
  · obtain rfl := Option.some.inj hr
    exact .of_no_ctl rfl rfl (by simp)

theorem forceCloseInLoop_aside (hr : c.forceCloseInLoop = some r) (hopen : r.1.state ≠ .kDisconnected) :
    Aside c r.1 r.2 := by
  unfold forceCloseInLoop at hr
  split_ifs at hr
  · exact absurd (handleClose_state hr) hopen
  · obtain rfl := Option.some.inj hr
    exact .of_no_ctl rfl rfl (by simp)

theorem connectDestroyed_aside (hr : c.connectDestroyed = some r) (hopen : r.1.state ≠ .kDisconnected) :
    Aside c r.1 r.2 := by
  unfold connectDestroyed at hr
  by_cases hconnected : c.state = .kConnected
  · simp only [if_pos hconnected] at hr
    obtain ⟨⟨channel, ctls⟩, -, hr⟩ := Option.bind_eq_some_iff.mp hr
    obtain rfl := Option.some.inj hr
    exact absurd rfl hopen
  · simp only [if_neg hconnected] at hr
    obtain ⟨⟨channel, ctls⟩, hremove, hr⟩ := Option.bind_eq_some_iff.mp hr
    obtain rfl := Option.some.inj hr
    refine ⟨rfl, Channel.remove_isWriting hremove, fun hwriting => ?_⟩
    -- `Remove` asserts that the channel waits for nothing
    unfold Channel.remove at hremove
    rw [Channel.isNoneEvent_of_isWriting hwriting, if_neg (by simp)] at hremove
    cases hremove

theorem shutdown_aside (c : TcpConnection) : Aside c c.shutdown.1 c.shutdownInLoop := by
  unfold shutdown
  split <;> exact .of_no_ctl rfl rfl c.shutdownInLoop_no_ctl

theorem forceClose_aside (c : TcpConnection) : Aside c c.forceClose.1 c.forceClose.2 := by
  unfold forceClose
  split <;> exact .of_no_ctl rfl rfl (by simp)

end TcpConnection

namespace WatchedOutput

/-! ## The invariant -/

section Invariant

variable {T : Type} {s : WatchedOutput T}

structure Awake (s : WatchedOutput T) : Prop where
  writing : s.sys.conn.WritesPending
  ready : s.sys.conn.channel.isWriting = true → s.side.writable = true → s.side.edge = true ∨ s.reported = true
  report : s.reported = true → s.sys.conn.channel.isWriting = true ∧ s.side.writable = true

variable {e : OutputEvent T} {side : SendSide} {effects : List Effect} {m : OutputSystem T}

theorem after_side (heffects : m.effects = s.sys.effects ++ effects) :
    (s.after e side m).side = effects.foldl SendSide.applyEffect side := by
  simp only [after, heffects, List.drop_left]

theorem after_reported (hwrite : e.isHandleWrite = false) : (s.after e side m).reported = s.reported := by
  simp [after, hwrite]

theorem Awake.aside (h : s.Awake) (heffects : m.effects = s.sys.effects ++ effects) (hwrite : e.isHandleWrite = false)
    (haside : s.sys.conn.Aside m.conn effects) : (s.after e s.side m).Awake := by
  refine ⟨?_, fun hwriting hwritable => ?_, fun hreported => ?_⟩
  · have hpending := h.writing
    unfold TcpConnection.WritesPending at hpending ⊢
    rw [show (s.after e s.side m).sys = m from rfl, haside.buffer, haside.writing]
    exact hpending
  · rw [after_side heffects, SendSide.foldl_writable] at hwritable
    have hold : s.sys.conn.channel.isWriting = true := haside.writing.symm.trans hwriting
    rw [after_side heffects, after_reported hwrite]
    exact (h.ready hold hwritable).imp_left fun hedge => SendSide.foldl_edge hedge (haside.watched hold)
  · rw [after_reported hwrite] at hreported
    rw [after_side heffects, SendSide.foldl_writable]
    exact ⟨haside.writing.trans (h.report hreported).1, (h.report hreported).2⟩

/-- `SendInLoop` while the loop waits for room. -/
theorem Awake.sent_writing (h : s.Awake) {message : List UInt8} {result : WriteResult}
    (hwriting : s.sys.conn.channel.isWriting = true) (heffects : m.effects = s.sys.effects ++ effects)
    (hwrite : e.isHandleWrite = false) (hr : s.sys.conn.sendInLoop message result = some (m.conn, effects)) :
    (s.after e s.side m).Awake := by
  have hsame : ∀ {rest : List UInt8}, rest ≠ [] → (m.conn, effects) = s.sys.conn.bufferRest rest →
      (s.after e s.side m).Awake := by
    intro rest hrest heq
    have hconn : m.conn = (s.sys.conn.bufferRest rest).1 := congrArg Prod.fst heq
    have hside : (s.after e s.side m).side = s.side := by
      rw [after_side heffects, show effects = (s.sys.conn.bufferRest rest).2 from congrArg Prod.snd heq,
        TcpConnection.bufferRest_side, if_pos hwriting]
    refine ⟨?_, fun _ hwritable => ?_, fun hreported => ?_⟩
    · rw [show (s.after e s.side m).sys.conn = m.conn from rfl, hconn]
      exact TcpConnection.bufferRest_writesPending hrest
    · rw [hside] at hwritable ⊢
      rw [after_reported hwrite]
      exact h.ready hwriting hwritable
    · rw [after_reported hwrite] at hreported
      rw [hside]
      refine ⟨?_, (h.report hreported).2⟩
      rw [show (s.after e s.side m).sys.conn = m.conn from rfl, hconn]
      exact TcpConnection.bufferRest_isWriting _ _
  have hnonempty : s.sys.conn.outputBuffer.content ≠ [] := h.writing.mp hwriting
  have hkept : (m.conn, effects) = (s.sys.conn, []) → (s.after e s.side m).Awake := by
    intro heq
    obtain ⟨hconn, rfl⟩ := Prod.mk.inj heq
    exact h.aside heffects hwrite (hconn ▸ .of_no_ctl rfl rfl (by simp))
  generalize hpair : (m.conn, effects) = r at hr
  cases TcpConnection.sendCase_of_sendInLoop hr with
  | gaveUp => exact hkept hpair
  | nothing => exact hkept hpair
  | buffered hdata => exact hsame hdata hpair
  | written hempty => exact absurd hempty hnonempty
  | partly hempty => exact absurd hempty hnonempty

/-- `SendInLoop` while nothing is buffered: whatever the `::write` there leaves, a rest makes the kernel look. -/
theorem Awake.sent_direct (h : s.Awake) {message : List UInt8} {result : WriteResult}
    (hidle : s.sys.conn.channel.isWriting = false) (heffects : m.effects = s.sys.effects ++ effects)
    (hwrite : e.isHandleWrite = false) (hr : s.sys.conn.sendInLoop message result = some (m.conn, effects)) :
    (s.after e side m).Awake := by
  have hquiet : s.reported = false := by
    by_contra hreported
    rw [(h.report (Bool.not_eq_false _ ▸ hreported)).1] at hidle
    cases hidle
  have hreport : (s.after e side m).reported = true →
      (s.after e side m).sys.conn.channel.isWriting = true ∧ (s.after e side m).side.writable = true := by
    intro hreported
    rw [after_reported hwrite, hquiet] at hreported
    cases hreported
  have hstill : m.conn = s.sys.conn → (s.after e side m).Awake := by
    intro hconn
    refine ⟨?_, fun hwriting => ?_, hreport⟩
    · rw [show (s.after e side m).sys.conn = m.conn from rfl, hconn]
      exact h.writing
    · rw [show (s.after e side m).sys.conn = m.conn from rfl, hconn, hidle] at hwriting
      cases hwriting
  have hrest : ∀ (rest : List UInt8) (before : List Effect), rest ≠ [] → (∀ ctl, Effect.epollCtl ctl ∉ before) →
      m.conn = (s.sys.conn.bufferRest rest).1 → effects = before ++ (s.sys.conn.bufferRest rest).2 →
      (s.after e side m).Awake := by
    intro rest before hne hbefore hconn hlist
    refine ⟨?_, fun _ hwritable => .inl ?_, hreport⟩
    · rw [show (s.after e side m).sys.conn = m.conn from rfl, hconn]
      exact TcpConnection.bufferRest_writesPending hne
    · rw [after_side heffects, SendSide.foldl_writable] at hwritable
      rw [after_side heffects, hlist, List.foldl_append, SendSide.foldl_eq_self side hbefore,
        TcpConnection.bufferRest_side, if_neg (by simp [hidle])]
      simp [hwritable]
  generalize hpair : (m.conn, effects) = r at hr
  cases TcpConnection.sendCase_of_sendInLoop hr with
  | gaveUp => exact hstill (congrArg Prod.fst hpair)
  | nothing => exact hstill (congrArg Prod.fst hpair)
  | buffered hdata =>
    exact hrest message [] hdata (by simp) (congrArg Prod.fst hpair) (congrArg Prod.snd hpair)
  | written => exact hstill (congrArg Prod.fst hpair)
  | @partly n hempty hn =>
    have hne : message.drop n ≠ [] := List.ne_nil_of_length_pos (by rw [List.length_drop]; omega)
    exact hrest _ [.write (message.take n)] hne (by simp) (congrArg Prod.fst hpair) (congrArg Prod.snd hpair)

/-- `HandleWrite` writes something, and either everything or what fills the send buffer. -/
theorem Awake.wrote (h : s.Awake) {result : WriteResult} {full : Bool} (hreported : s.reported = true)
    (hblock : ∀ errno, result = .failed errno → errno = EAGAIN)
    (haccepts : s.side.accepts s.sys.conn.outputBuffer.readableBytes result = true)
    (hr : s.sys.conn.handleWrite result = some (m.conn, effects)) :
    (s.after (.handleWrite result) (s.side.written s.sys.conn.outputBuffer.readableBytes full result) m).Awake ∧
      m.conn.outputBuffer.content.length < s.sys.conn.outputBuffer.content.length := by
  obtain ⟨hwriting, hwritable⟩ := h.report hreported
  have hnonempty := h.writing.mp hwriting
  have hlen : 0 < s.sys.conn.outputBuffer.content.length := List.length_pos_of_ne_nil hnonempty
  have hreadable : s.sys.conn.outputBuffer.readableBytes ≠ 0 :=
    fun hzero => hnonempty (s.sys.conn.outputBuffer.readableBytes_eq_zero.mp hzero)
  have hdone : ∀ {side : SendSide}, (s.after (.handleWrite result) side m).reported = false := by
    intro side
    simp [after, OutputEvent.isHandleWrite]
  cases result with
  | failed errno =>
    rw [SendSide.accepts, hblock errno rfl, hwritable] at haccepts
    cases haccepts
  | wrote n =>
    simp only [SendSide.accepts, Bool.and_eq_true, Bool.or_eq_true, decide_eq_true_eq, beq_iff_eq] at haccepts
    have hpos : 0 < n := (haccepts.2.resolve_left hreadable).2
    generalize hpair : (m.conn, effects) = r at hr
    cases TcpConnection.writeCase_of_handleWrite hr with
    | idle hzero =>
      have := hzero hwriting n rfl
      omega
    | drained _ _ _ hempty =>
      have hconn : m.conn = _ := congrArg Prod.fst hpair
      have hidle : m.conn.channel.isWriting = false := by
        rw [hconn]
        exact Channel.disableWriting_isWriting _
      have hnone : m.conn.outputBuffer.content = [] := by
        rw [hconn]
        exact hempty
      refine ⟨⟨?_, fun hon => ?_, fun hlater => ?_⟩, by rw [hnone]; exact hlen⟩
      · exact ⟨fun hon => absurd (hidle.symm.trans hon) Bool.false_ne_true, fun hsome => absurd hnone hsome⟩
      · exact absurd (hidle.symm.trans hon) Bool.false_ne_true
      · rw [hdone] at hlater
        cases hlater
    | partly _ hresult hbuffer hrest =>
      obtain rfl := WriteResult.wrote.inj hresult
      have hconn : m.conn = _ := congrArg Prod.fst hpair
      have hcontent : m.conn.outputBuffer.content = s.sys.conn.outputBuffer.content.drop n := by
        rw [hconn]
        exact WfBuffer.retrieve_content hbuffer
      refine ⟨⟨?_, fun _ hroom => ?_, fun hlater => ?_⟩, ?_⟩
      · rw [show (s.after (.handleWrite (.wrote n)) _ m).sys.conn = m.conn from rfl, hconn]
        exact ⟨fun _ => hrest, fun _ => hwriting⟩
      · simp only [after, SendSide.foldl_writable, SendSide.written, Bool.and_eq_true, beq_iff_eq] at hroom
        refine absurd ?_ hrest
        rw [WfBuffer.retrieve_content hbuffer, hroom.1.2, WfBuffer.readableBytes_eq, List.drop_length]
      · rw [hdone] at hlater
        cases hlater
      · rw [hcontent, List.length_drop]
        omega

end Invariant

/-! ## The steps -/

section Steps

variable {T : Type} [DecidableEq T] {owner : T} {s t : WatchedOutput T}

/-- What an event does to the connection and to the effects, while no handler has closed it. -/
inductive Handled (owner : T) (s : OutputSystem T) (e : OutputEvent T) (c : TcpConnection) (effects : List Effect) : Prop
  | sent {message : List UInt8} {result : WriteResult} (he : sentInLoop owner s e = some (message, result))
      (hwrite : e.isHandleWrite = false) (hr : s.conn.sendInLoop message result = some (c, effects))
  | wrote {result : WriteResult} (he : e = .handleWrite result) (hr : s.conn.handleWrite result = some (c, effects))
  | aside (he : sentInLoop owner s e = none) (hwrite : e.isHandleWrite = false) (h : s.conn.Aside c effects)

theorem handled_of_finish {s t : OutputSystem T} {e : OutputEvent T} {r : TcpConnection × List Effect}
    (hconn : t.conn = r.1) (heffects : t.effects = s.effects ++ r.2)
    (hclosed : t.closed = (s.closed || decide (r.1.state = .kDisconnected))) (hopen : t.closed = false)
    (hhandled : r.1.state ≠ .kDisconnected → Handled owner s e r.1 r.2) :
    s.closed = false ∧ ∃ effects, t.effects = s.effects ++ effects ∧ Handled owner s e t.conn effects := by
  rw [hclosed] at hopen
  obtain ⟨hs, hstate⟩ := OutputSystem.finish_open hopen
  exact ⟨hs, r.2, heffects, hconn ▸ hhandled hstate⟩

theorem handled_of_same {s t : OutputSystem T} {e : OutputEvent T} (hbuffer : t.conn.outputBuffer = s.conn.outputBuffer)
    (hchannel : t.conn.channel = s.conn.channel) (heffects : t.effects = s.effects) (hclosed : t.closed = s.closed)
    (hopen : t.closed = false) (he : sentInLoop owner s e = none) (hwrite : e.isHandleWrite = false) :
    s.closed = false ∧ ∃ effects, t.effects = s.effects ++ effects ∧ Handled owner s e t.conn effects :=
  ⟨hclosed ▸ hopen, [], by rw [heffects, List.append_nil], .aside he hwrite (.of_no_ctl hbuffer hchannel (by simp))⟩

theorem handled_of_begin {s t : OutputSystem T} {e : OutputEvent T} {u : T} {call : ForeignCall}
    (hbegin : s.begin u call = some t) (hopen : t.closed = false) (he : sentInLoop owner s e = none)
    (hwrite : e.isHandleWrite = false) :
    s.closed = false ∧ ∃ effects, t.effects = s.effects ++ effects ∧ Handled owner s e t.conn effects := by
  obtain ⟨-, rfl⟩ := OutputSystem.begin_spec hbegin
  exact handled_of_same rfl rfl rfl rfl hopen he hwrite

theorem handled_of_runTask {s t : OutputSystem T} {task : Task T} {rest : List (Task T)} {result : WriteResult}
    (hbatch : s.batch = task :: rest) (hrun : OutputSystem.runTask owner { s with batch := rest } task result = some t)
    (hopen : t.closed = false) :
    s.closed = false ∧ ∃ effects, t.effects = s.effects ++ effects ∧
      Handled owner s (.runFunctor result) t.conn effects := by
  obtain ⟨u, f⟩ := task
  have hnone : f.isSend = false → sentInLoop owner s (.runFunctor result) = none := by
    intro hsend
    cases f with
    | sendInLoop => cases hsend
    | _ => simp [sentInLoop, hbatch]
  cases f with
  | sendInLoop message =>
    obtain ⟨r, hr, rfl⟩ := Option.map_eq_some_iff.mp hrun
    exact handled_of_finish rfl rfl rfl hopen fun _ => .sent (by simp [sentInLoop, hbatch]) rfl hr
  | shutdownInLoop =>
    obtain rfl := Option.some.inj hrun
    exact handled_of_finish rfl rfl rfl hopen fun _ =>
      .aside (hnone rfl) rfl (.of_no_ctl rfl rfl (TcpConnection.shutdownInLoop_no_ctl _))
  | forceCloseInLoop =>
    obtain ⟨r, hr, rfl⟩ := Option.map_eq_some_iff.mp hrun
    exact handled_of_finish rfl rfl rfl hopen fun hstate =>
      .aside (hnone rfl) rfl (TcpConnection.forceCloseInLoop_aside hr hstate)
  | connectEstablished =>
    obtain ⟨r, hr, rfl⟩ := Option.map_eq_some_iff.mp hrun
    exact handled_of_finish rfl rfl rfl hopen fun _ =>
      .aside (hnone rfl) rfl (TcpConnection.connectEstablished_aside hr)
  | connectDestroyed =>
    obtain ⟨r, hr, rfl⟩ := Option.map_eq_some_iff.mp hrun
    exact handled_of_finish rfl rfl rfl hopen fun hstate =>
      .aside (hnone rfl) rfl (TcpConnection.connectDestroyed_aside hr hstate)
  | writeComplete | highWaterMark =>
    obtain rfl := Option.some.inj hrun
    exact handled_of_same rfl rfl rfl rfl hopen (hnone rfl) rfl

theorem handled_of_step {s t : OutputSystem T} {e : OutputEvent T} (hstep : s.step owner e = some t)
    (hopen : t.closed = false) :
    s.closed = false ∧ ∃ effects, t.effects = s.effects ++ effects ∧ Handled owner s e t.conn effects := by
  cases e with
  | send u message result =>
    simp only [OutputSystem.step] at hstep
    split_ifs at hstep with hconnected hu
    · obtain rfl := Option.some.inj hstep
      exact handled_of_same rfl rfl rfl rfl hopen (if_neg fun h => hconnected h.1) rfl
    · obtain ⟨r, hr, rfl⟩ := Option.map_eq_some_iff.mp hstep
      exact handled_of_finish rfl rfl rfl hopen fun _ => .sent (if_pos ⟨not_not.mp hconnected, hu⟩) rfl hr
    · obtain ⟨m, hm, rfl⟩ := Option.map_eq_some_iff.mp hstep
      obtain ⟨-, rfl⟩ := OutputSystem.begin_spec hm
      exact handled_of_same rfl rfl rfl rfl hopen (if_neg fun h => hu h.2) rfl
  | shutdown u =>
    simp only [OutputSystem.step] at hstep
    split_ifs at hstep
    · obtain rfl := Option.some.inj hstep
      exact handled_of_same rfl rfl rfl rfl hopen rfl rfl
    · obtain rfl := Option.some.inj hstep
      exact handled_of_finish (r := (s.conn.shutdown.1, s.conn.shutdownInLoop)) rfl rfl rfl hopen fun _ =>
        .aside rfl rfl s.conn.shutdown_aside
    · exact handled_of_begin hstep hopen rfl rfl
  | forceClose u =>
    simp only [OutputSystem.step] at hstep
    split_ifs at hstep
    · obtain rfl := Option.some.inj hstep
      exact handled_of_same rfl rfl rfl rfl hopen rfl rfl
    · obtain rfl := Option.some.inj hstep
      exact handled_of_finish rfl rfl rfl hopen fun _ => .aside rfl rfl s.conn.forceClose_aside
    · exact handled_of_begin hstep hopen rfl rfl
  | store u | push u =>
    simp only [OutputSystem.step] at hstep
    split at hstep
    case h_2 => cases hstep
    case h_1 =>
      obtain rfl := Option.some.inj hstep
      exact handled_of_same rfl rfl rfl rfl hopen rfl rfl
  | post u f =>
    simp only [OutputSystem.step] at hstep
    split_ifs at hstep
    obtain rfl := Option.some.inj hstep
    exact handled_of_same rfl rfl rfl rfl hopen rfl rfl
  | establish =>
    obtain ⟨r, hr, rfl⟩ := Option.map_eq_some_iff.mp hstep
    exact handled_of_finish rfl rfl rfl hopen fun _ => .aside rfl rfl (TcpConnection.connectEstablished_aside hr)
  | swap =>
    simp only [OutputSystem.step] at hstep
    split_ifs at hstep
    obtain rfl := Option.some.inj hstep
    exact handled_of_same rfl rfl rfl rfl hopen rfl rfl
  | runFunctor result =>
    simp only [OutputSystem.step] at hstep
    split at hstep
    · cases hstep
    · rename_i task rest hbatch
      exact handled_of_runTask hbatch hstep hopen
  | handleRead result cb =>
    obtain ⟨r, hr, rfl⟩ := Option.map_eq_some_iff.mp hstep
    exact handled_of_finish rfl rfl rfl hopen fun hstate => .aside rfl rfl (TcpConnection.handleRead_aside hr hstate)
  | handleWrite result =>
    obtain ⟨r, hr, rfl⟩ := Option.map_eq_some_iff.mp hstep
    exact handled_of_finish rfl rfl rfl hopen fun _ => .wrote rfl hr
  | handleClose =>
    obtain ⟨r, hr, rfl⟩ := Option.map_eq_some_iff.mp hstep
    exact absurd (TcpConnection.handleClose_state hr) (OutputSystem.finish_open hopen).2

/-- What a step of the connection does, with the send side as its `::write` leaves it. -/
structure SystemStep (owner : T) (s : WatchedOutput T) (e : OutputEvent T) (full : Bool) (t : WatchedOutput T) : Prop where
  turn : e.isHandleWrite = true → s.reported = true
  accepted : ∀ len result, writeCall owner s.sys e = some (len, result) → s.side.accepts len result = true
  moved : s.sys.step owner e = some t.sys
  after : t = s.after e (match writeCall owner s.sys e with
    | some (len, result) => s.side.written len full result
    | none => s.side) t.sys

theorem systemStep_of_step {e : OutputEvent T} {full : Bool} (h : s.step owner (.system e full) = some t) :
    SystemStep owner s e full t := by
  simp only [step] at h
  split_ifs at h with hturn
  have hreported : e.isHandleWrite = true → s.reported = true := by
    intro he
    simpa [he] using hturn
  split at h
  · rename_i len result hcall
    split_ifs at h with haccepts
    obtain ⟨m, hm, rfl⟩ := Option.map_eq_some_iff.mp h
    refine ⟨hreported, fun len' result' hcall' => ?_, hm, by rw [hcall]; rfl⟩
    obtain ⟨rfl, rfl⟩ := Prod.mk.inj (Option.some.inj (hcall.symm.trans hcall'))
    exact haccepts
  · rename_i hcall
    obtain ⟨m, hm, rfl⟩ := Option.map_eq_some_iff.mp h
    refine ⟨hreported, fun len result hcall' => ?_, hm, by rw [hcall]; rfl⟩
    rw [hcall] at hcall'
    cases hcall'

theorem writeCall_of_sent {s : OutputSystem T} {e : OutputEvent T} (hwrite : e.isHandleWrite = false) :
    writeCall owner s e = (sentInLoop owner s e).bind fun p =>
      if s.conn.state ≠ .kDisconnected ∧ s.conn.channel.isWriting = false ∧ s.conn.outputBuffer.readableBytes = 0 then
        some (p.1.length, p.2)
      else none := by
  cases e with
  | handleWrite => cases hwrite
  | _ =>
    simp only [writeCall]
    split <;> rename_i heq <;> rw [heq] <;> rfl

/-- While the loop waits for room, a message is only buffered. -/
theorem writeCall_eq_none {s : OutputSystem T} {e : OutputEvent T} (hwrite : e.isHandleWrite = false)
    (h : sentInLoop owner s e = none ∨ s.conn.channel.isWriting = true) : writeCall owner s e = none := by
  rw [writeCall_of_sent hwrite]
  obtain hnone | hwriting := h
  · rw [hnone]
    rfl
  · simp [hwriting]

def AwakeWhileOpen (s : WatchedOutput T) : Prop := s.sys.closed = false → s.Awake

/-- The bytes that wait for room. -/
def unsent (s : WatchedOutput T) : ℕ := if s.sys.closed then 0 else s.sys.conn.outputBuffer.content.length

def sends (owner : T) (s : WatchedOutput T) : Event T → Bool
  | .system e _ => (sentInLoop owner s.sys e).isSome
  | _ => false

def Event.isHandleWrite : Event T → Bool
  | .system e _ => e.isHandleWrite
  | _ => false

theorem SystemStep.handled {e : OutputEvent T} {full : Bool} (h : SystemStep owner s e full t) (hawake : s.Awake)
    (hblock : s.WouldBlock (.system e full)) {effects : List Effect} (heffects : t.sys.effects = s.sys.effects ++ effects)
    (hhandled : Handled owner s.sys e t.sys.conn effects) :
    t.Awake ∧
      ((sentInLoop owner s.sys e).isSome = false →
        t.sys.conn.outputBuffer.content.length ≤ s.sys.conn.outputBuffer.content.length) ∧
      (e.isHandleWrite = true →
        t.sys.conn.outputBuffer.content.length < s.sys.conn.outputBuffer.content.length) := by
  have hafter := h.after
  cases hhandled with
  | aside he hwrite haside =>
    rw [writeCall_eq_none hwrite (.inl he)] at hafter
    refine ⟨?_, fun _ => by rw [haside.buffer], fun hturn => ?_⟩
    · rw [hafter]
      exact hawake.aside heffects hwrite haside
    · rw [hwrite] at hturn
      cases hturn
  | sent he hwrite hr =>
    refine ⟨?_, fun hnone => by simp [he] at hnone, fun hturn => ?_⟩
    · rw [hafter]
      by_cases hwriting : s.sys.conn.channel.isWriting = true
      · rw [writeCall_eq_none hwrite (.inr hwriting)]
        exact hawake.sent_writing hwriting heffects hwrite hr
      · exact hawake.sent_direct (Bool.not_eq_true _ ▸ hwriting) heffects hwrite hr
    · rw [hwrite] at hturn
      cases hturn
  | @wrote result he hr =>
    subst he
    have hreported := h.turn rfl
    have hcall : writeCall owner s.sys (.handleWrite result) = some (s.sys.conn.outputBuffer.readableBytes, result) :=
      if_pos (hawake.report hreported).1
    rw [hcall] at hafter
    have hfails : ∀ errno, result = .failed errno → errno = EAGAIN := by
      rintro errno rfl
      exact hblock
    obtain ⟨hnext, hless⟩ := hawake.wrote hreported hfails (h.accepted _ _ hcall) hr
    exact ⟨hafter ▸ hnext, fun _ => hless.le, fun _ => hless⟩

/-- What the kernel and `epoll_wait` do leaves the connection as it is. -/
theorem Awake.kernel {e : Event T} (h : s.Awake) (he : e = .makeRoom ∨ e = .poll) (hstep : s.step owner e = some t) :
    t.Awake := by
  obtain rfl | rfl := he
  · simp only [step] at hstep
    split_ifs at hstep
    obtain rfl := Option.some.inj hstep
    refine ⟨h.writing, fun hwriting _ => .inl ?_, fun hreported => ⟨(h.report hreported).1, rfl⟩⟩
    exact (Bool.or_eq_true _ _).mpr (.inr hwriting)
  · simp only [step] at hstep
    split_ifs at hstep
    obtain rfl := Option.some.inj hstep
    refine ⟨h.writing, fun hwriting hwritable => .inr ?_, fun hreported => (Bool.and_eq_true _ _).mp hreported⟩
    exact (Bool.and_eq_true _ _).mpr ⟨hwriting, hwritable⟩

theorem kernel_sys {e : Event T} (he : e = .makeRoom ∨ e = .poll) (hstep : s.step owner e = some t) : t.sys = s.sys := by
  obtain rfl | rfl := he
  all_goals
    simp only [step] at hstep
    split_ifs at hstep
    obtain rfl := Option.some.inj hstep
    rfl

omit [DecidableEq T] in
theorem unsent_of_open (h : s.sys.closed = false) : s.unsent = s.sys.conn.outputBuffer.content.length := by
  simp [unsent, h]

theorem awakeWhileOpen_step {e : Event T} (h : s.AwakeWhileOpen) (hblock : s.WouldBlock e)
    (hstep : s.step owner e = some t) :
    t.AwakeWhileOpen ∧ (sends owner s e = false → t.unsent ≤ s.unsent) ∧
      (s.sys.closed = false → e.isHandleWrite = true → t.unsent < s.unsent) := by
  have hkernel : e = .makeRoom ∨ e = .poll → t.AwakeWhileOpen ∧ t.unsent = s.unsent := by
    intro he
    have hsame := kernel_sys he hstep
    refine ⟨fun hopen => (h ?_).kernel he hstep, by rw [unsent, unsent, hsame]⟩
    rw [← hsame]
    exact hopen
  cases e with
  | makeRoom =>
    obtain ⟨hawake, hsame⟩ := hkernel (.inl rfl)
    exact ⟨hawake, fun _ => hsame.le, fun _ hturn => by cases hturn⟩
  | poll =>
    obtain ⟨hawake, hsame⟩ := hkernel (.inr rfl)
    exact ⟨hawake, fun _ => hsame.le, fun _ hturn => by cases hturn⟩
  | system e full =>
    have hsys := systemStep_of_step hstep
    by_cases hopen : t.sys.closed = false
    · obtain ⟨hs, effects, heffects, hhandled⟩ := handled_of_step hsys.moved hopen
      obtain ⟨hawake, hle, hlt⟩ := hsys.handled (h hs) hblock heffects hhandled
      rw [unsent_of_open hopen, unsent_of_open hs]
      exact ⟨fun _ => hawake, hle, fun _ => hlt⟩
    · have hnone : t.unsent = 0 := if_pos (Bool.not_eq_false _ ▸ hopen)
      refine ⟨fun hopen' => absurd hopen' hopen, fun _ => by omega, fun hs hturn => ?_⟩
      have hwriting := ((h hs).report (hsys.turn hturn)).1
      rw [hnone, unsent_of_open hs]
      exact List.length_pos_of_ne_nil ((h hs).writing.mp hwriting)

/-! ## Buffered output is flushed -/

/-- No `SendInLoop` runs, the connection is open, and `HandleWrite` fails only for want of room. -/
def Calm (owner : T) (s : WatchedOutput T) (e : Event T) : Prop :=
  s.WouldBlock e ∧ s.sys.closed = false ∧ sends owner s e = false

instance (s : WatchedOutput T) (e : Event T) : Decidable (Calm owner s e) := inferInstanceAs (Decidable (_ ∧ _ ∧ _))

theorem start_awake (owner : T) (hasWriteComplete hasHighWaterMark : Bool) (mark : ℕ) :
    (start hasWriteComplete hasHighWaterMark mark : WatchedOutput T).Awake where
  writing :=
    (OutputSystem.start_live hasWriteComplete hasHighWaterMark mark : OutputSystem.Live owner _).stream.writing
  ready hwriting := by
    rw [show (start hasWriteComplete hasHighWaterMark mark : WatchedOutput T).sys.conn.channel = .new from rfl,
      Channel.new_isWriting] at hwriting
    cases hwriting
  report h := by cases h

/-- **Buffered output is flushed.**  After every run in which `HandleWrite` fails only for want of room, once no more
is sent there are at most as many calls of `HandleWrite` as bytes are buffered.  As long as bytes are left the loop
waits for `EPOLLOUT`, and if the send buffer has room a report is due or being handled. -/
theorem buffered_output_flushed (owner : T) (hasWriteComplete hasHighWaterMark : Bool) (mark : ℕ) {es fs : List (Event T)}
    (hrun : runFrom (step owner) (start hasWriteComplete hasHighWaterMark mark) es = some s)
    (hblock : Meets (step owner) WouldBlock (start hasWriteComplete hasHighWaterMark mark) es)
    (hrest : runFrom (step owner) s fs = some t) (hcalm : Meets (step owner) (Calm owner) s fs) :
    fs.countP Event.isHandleWrite ≤ s.unsent ∧
      (t.sys.closed = false → t.sys.conn.outputBuffer.content ≠ [] →
        t.sys.conn.channel.isWriting = true ∧ (t.side.writable = true → t.side.edge = true ∨ t.reported = true)) := by
  have hstart : AwakeWhileOpen (start hasWriteComplete hasHighWaterMark mark : WatchedOutput T) :=
    fun _ => start_awake owner _ _ _
  have hs : s.AwakeWhileOpen :=
    invariant_of_meets (fun _ _ _ h hblock hstep => (awakeWhileOpen_step h hblock hstep).1) hblock hstart hrun
  have hcalmStep : ∀ s e t, AwakeWhileOpen s → Calm owner s e → s.step owner e = some t →
      t.AwakeWhileOpen ∧ t.unsent ≤ s.unsent ∧ (e.isHandleWrite = true → t.unsent < s.unsent) := by
    intro s e t h hcalm hstep
    obtain ⟨hnext, hle, hlt⟩ := awakeWhileOpen_step h hcalm.1 hstep
    exact ⟨hnext, hle hcalm.2.2, hlt hcalm.2.1⟩
  obtain ⟨ht, hcount⟩ := process_steps_le hcalmStep hs hcalm hrest
  refine ⟨le_trans (Nat.le_add_right _ _) hcount, fun hopen hleft => ?_⟩
  have hwriting := (ht hopen).writing.mpr hleft
  exact ⟨hwriting, (ht hopen).ready hwriting⟩

/-- A message of five bytes of which the send buffer takes two, and after a report two more. -/
def slowPeer : List (Event ℕ) :=
  [.system .establish false, .system (.send 0 [1, 2, 3, 4, 5] (.wrote 2)) false, .makeRoom, .poll]

def nextReport : List (Event ℕ) := [.system (.handleWrite (.wrote 2)) false, .makeRoom]

theorem slowPeer_flushed :
    ∃ s t, runFrom (step 0) (start false false 0) slowPeer = some s ∧ runFrom (step 0) s nextReport = some t ∧
      s.unsent = 3 ∧ t.sys.conn.outputBuffer.content = [5] ∧ t.sys.conn.channel.isWriting = true ∧
      (t.side.edge = true ∨ t.reported = true) := by
  have hblock : Meets (step 0) WouldBlock (start false false 0) slowPeer := by decide +kernel
  have hruns : (runFrom (step 0) (start false false 0) slowPeer).any (fun s =>
      decide (s.unsent = 3 ∧ Meets (step 0) (Calm 0) s nextReport) && (runFrom (step 0) s nextReport).any fun t =>
        decide (t.sys.closed = false ∧ t.sys.conn.outputBuffer.content = [5] ∧ t.side.writable = true)) = true := by
    decide +kernel
  simp only [Option.any_eq_true_iff_get, Bool.and_eq_true, decide_eq_true_eq] at hruns
  obtain ⟨hsome, ⟨hunsent, hcalm⟩, hlater, hopen, hleft, hroom⟩ := hruns
  have hrun := (Option.some_get hsome).symm
  have hrest := (Option.some_get hlater).symm
  obtain ⟨-, hdue⟩ := buffered_output_flushed 0 false false 0 hrun hblock hrest hcalm
  obtain ⟨hwriting, hready⟩ := hdue hopen (by rw [hleft]; simp)
  exact ⟨_, _, hrun, hrest, hunsent, hleft, hwriting, hready hroom⟩

end Steps

end WatchedOutput
end Chater.Net
