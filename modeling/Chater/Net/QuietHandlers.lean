import Chater.Net.TcpConnection

/-!
# Handlers that neither open nor close a connection

`SendInLoop`, `HandleWrite` and `ShutdownInLoop` leave `state_` alone and call no user code.  To their channel they do
at most an update, after which it still reads if it did before.
-/

namespace Chater.Net

open Base

set_option autoImplicit false

/-! ## What a handler does to its channel -/

namespace Channel

/-- The channel is left alone, or its events are set and `Channel::Update` is called. -/
def Updates (c c' : Channel) : Prop := c' = c ∨ ∃ events, c' = ({ c with events := events }.update).1

theorem isNoneEvent_of_isReading {c : Channel} (h : c.isReading = true) : c.isNoneEvent = false := by
  by_contra hnone
  have hevents : c.events = kNoneEvent := by simpa [isNoneEvent] using hnone
  rw [isReading, hevents] at h
  exact absurd h (by decide)

theorem isWriting_of_isNoneEvent {c : Channel} (h : c.isNoneEvent = true) : c.isWriting = false := by
  have hevents : c.events = kNoneEvent := by simpa [isNoneEvent] using h
  rw [isWriting, hevents]
  decide

theorem isReading_update (c : Channel) : c.update.1.isReading = c.isReading := by
  unfold isReading
  rw [update_events]

theorem isNoneEvent_update (c : Channel) : c.update.1.isNoneEvent = c.isNoneEvent := by
  unfold isNoneEvent
  rw [update_events]

/-- A channel that is registered stays so while it is reading. -/
theorem Updates.index_of_isReading {c c' : Channel} (h : c.Updates c') (hindex : c.index = 1)
    (hreading : c'.isReading = true) : c'.index = 1 := by
  obtain rfl | ⟨events, rfl⟩ := h
  · exact hindex
  · rw [isReading_update] at hreading
    have hnone := isNoneEvent_of_isReading hreading
    simp [update, hindex, isNoneEvent] at hnone ⊢
    simp [hnone]

theorem enableReading_updates (c : Channel) : c.Updates c.enableReading.1 := .inr ⟨_, rfl⟩
theorem enableWriting_updates (c : Channel) : c.Updates c.enableWriting.1 := .inr ⟨_, rfl⟩
theorem disableWriting_updates (c : Channel) : c.Updates c.disableWriting.1 := .inr ⟨_, rfl⟩
theorem disableAll_updates (c : Channel) : c.Updates c.disableAll.1 := .inr ⟨_, rfl⟩

theorem isReading_enableReading (c : Channel) : c.enableReading.1.isReading = true := by
  unfold enableReading
  rw [isReading_update]
  show (c.events ||| kReadEvent).any kReadEvent = true
  rw [any_or]
  exact Bool.or_true _

theorem isReading_enableWriting {c : Channel} (h : c.isReading = true) : c.enableWriting.1.isReading = true := by
  unfold enableWriting
  rw [isReading_update]
  show (c.events ||| kWriteEvent).any kReadEvent = true
  rw [any_or]
  exact Bool.or_eq_true_iff.mpr (.inl h)

theorem isReading_disableWriting {c : Channel} (h : c.isReading = true) : c.disableWriting.1.isReading = true := by
  unfold disableWriting
  rw [isReading_update]
  have hmask : ~~~kWriteEvent &&& kReadEvent = kReadEvent := by decide
  show (c.events &&& ~~~kWriteEvent).any kReadEvent = true
  unfold Events.any
  rw [BitVec.and_assoc, hmask]
  exact h

theorem isNoneEvent_disableAll (c : Channel) : c.disableAll.1.isNoneEvent = true := by
  unfold disableAll
  rw [isNoneEvent_update]
  rfl

theorem index_enableReading {c : Channel} (h : c.index = -1) : c.enableReading.1.index = 1 := by
  simp [enableReading, update, h]

theorem index_disableAll {c : Channel} (h : c.index = 1) : c.disableAll.1.index = 2 := by
  simp [disableAll, update, h, isNoneEvent]

end Channel

/-! ## The handlers -/

/-- Not one of the two functors that move a connection on. -/
def Functor.plain : Functor → Bool
  | .connectEstablished | .connectDestroyed => false
  | _ => true

theorem Functor.plain_of_isSend {f : Functor} (h : f.isSend = true) : f.plain = true := by
  cases f with
  | sendInLoop => rfl
  | _ => cases h

def Effect.plain : Effect → Bool
  | .epollCtl _ | .write _ | .shutdownWrite => true
  | .queueInLoop f => f.plain
  | _ => false

/-- What writing does to the surroundings. -/
def Effect.output : Effect → Bool
  | .epollCtl _ | .write _ | .queueInLoop .writeComplete | .queueInLoop (.highWaterMark _) => true
  | _ => false

theorem Effect.plain_of_output {e : Effect} (h : e.output = true) : e.plain = true := by
  cases e with
  | epollCtl | write => rfl
  | queueInLoop f =>
    cases f with
    | writeComplete | highWaterMark => rfl
    | _ => cases h
  | _ => cases h

namespace TcpConnection

/-- The handler that led from `c` to `r` left `state_` alone, kept the channel reading, and called no user code. -/
structure Quietly (c : TcpConnection) (r : TcpConnection × List Effect) : Prop where
  state : r.1.state = c.state
  updates : c.channel.Updates r.1.channel
  reading : c.channel.isReading = true → r.1.channel.isReading = true
  effects : ∀ e ∈ r.2, e.plain = true

theorem Quietly.of_channel {c c' : TcpConnection} {effects : List Effect} (hstate : c'.state = c.state)
    (hchannel : c'.channel = c.channel) (heffects : ∀ e ∈ effects, e.plain = true) : Quietly c (c', effects) where
  state := hstate
  updates := .inl hchannel
  reading h := by
    rw [hchannel]
    exact h
  effects := heffects

theorem shutdownInLoop_plain (c : TcpConnection) : ∀ e ∈ c.shutdownInLoop, e.plain = true := by
  unfold shutdownInLoop
  split <;> simp [Effect.plain]

theorem queueWriteComplete_output (c : TcpConnection) : ∀ e ∈ c.queueWriteComplete, e.output = true := by
  unfold queueWriteComplete
  split <;> simp [Effect.output]

theorem queueHighWaterMark_output (c : TcpConnection) (n : ℕ) : ∀ e ∈ c.queueHighWaterMark n, e.output = true := by
  unfold queueHighWaterMark
  simp only
  split <;> simp [Effect.output]

theorem bufferRest_output (c : TcpConnection) (rest : List UInt8) : ∀ e ∈ (c.bufferRest rest).2, e.output = true := by
  have hmark := c.queueHighWaterMark_output rest.length
  unfold bufferRest
  simp only
  split
  · exact hmark
  · exact List.forall_mem_append.mpr ⟨hmark, List.forall_mem_singleton.mpr rfl⟩

theorem sendInLoop_output {c : TcpConnection} {data : List UInt8} {result : WriteResult}
    {r : TcpConnection × List Effect} (hr : c.sendInLoop data result = some r) : ∀ e ∈ r.2, e.output = true := by
  cases sendCase_of_sendInLoop hr with
  | gaveUp | nothing => exact List.forall_mem_nil _
  | buffered => exact c.bufferRest_output data
  | written => exact List.forall_mem_cons.mpr ⟨rfl, c.queueWriteComplete_output⟩
  | partly => exact List.forall_mem_cons.mpr ⟨rfl, c.bufferRest_output _⟩

theorem bufferRest_channel (c : TcpConnection) (rest : List UInt8) :
    c.channel.Updates (c.bufferRest rest).1.channel ∧
      (c.channel.isReading = true → (c.bufferRest rest).1.channel.isReading = true) := by
  unfold bufferRest
  simp only
  split
  · exact ⟨.inl rfl, id⟩
  · exact ⟨Channel.enableWriting_updates _, Channel.isReading_enableWriting⟩

theorem sendInLoop_quietly {c : TcpConnection} {data : List UInt8} {result : WriteResult}
    {r : TcpConnection × List Effect} (hr : c.sendInLoop data result = some r) : c.Quietly r := by
  have heffects : ∀ e ∈ r.2, e.plain = true := fun e he => Effect.plain_of_output (sendInLoop_output hr e he)
  cases sendCase_of_sendInLoop hr with
  | gaveUp | nothing | written => exact Quietly.of_channel rfl rfl heffects
  | buffered =>
    obtain ⟨hupdates, hreading⟩ := c.bufferRest_channel data
    exact ⟨c.bufferRest_state data, hupdates, hreading, heffects⟩
  | @partly n =>
    obtain ⟨hupdates, hreading⟩ := c.bufferRest_channel (data.drop n)
    exact ⟨c.bufferRest_state _, hupdates, hreading, heffects⟩

theorem bufferRest_inputBuffer (c : TcpConnection) (rest : List UInt8) :
    (c.bufferRest rest).1.inputBuffer = c.inputBuffer := by
  unfold bufferRest
  simp only
  split <;> rfl

theorem sendInLoop_inputBuffer {c : TcpConnection} {data : List UInt8} {result : WriteResult}
    {r : TcpConnection × List Effect} (hr : c.sendInLoop data result = some r) : r.1.inputBuffer = c.inputBuffer := by
  cases sendCase_of_sendInLoop hr with
  | gaveUp | nothing | written => rfl
  | buffered => exact c.bufferRest_inputBuffer data
  | partly => exact c.bufferRest_inputBuffer _

theorem sendInLoop_disconnected {c : TcpConnection} {data : List UInt8} {result : WriteResult}
    (h : c.state = .kDisconnected) : c.sendInLoop data result = some (c, []) := if_pos h

theorem outputDrained_quietly (c : TcpConnection) : c.Quietly c.outputDrained := by
  refine ⟨rfl, Channel.disableWriting_updates _, Channel.isReading_disableWriting, fun e he => ?_⟩
  simp only [outputDrained, List.mem_cons, List.mem_append] at he
  rcases he with rfl | hcomplete | hlast
  · rfl
  · exact Effect.plain_of_output (queueWriteComplete_output _ e hcomplete)
  · split_ifs at hlast
    · exact shutdownInLoop_plain _ e hlast
    · cases hlast

theorem handleWrite_quietly {c : TcpConnection} {result : WriteResult} {r : TcpConnection × List Effect}
    (hr : c.handleWrite result = some r) : c.Quietly r := by
  cases writeCase_of_handleWrite hr with
  | idle => exact Quietly.of_channel rfl rfl (List.forall_mem_nil _)
  | @drained n buffer =>
    have hdrained := outputDrained_quietly { c with outputBuffer := buffer }
    exact ⟨hdrained.state, hdrained.updates, hdrained.reading, List.forall_mem_cons.mpr ⟨rfl, hdrained.effects⟩⟩
  | partly => exact Quietly.of_channel rfl rfl (List.forall_mem_singleton.mpr rfl)

theorem handleWrite_inputBuffer {c : TcpConnection} {result : WriteResult} {r : TcpConnection × List Effect}
    (hr : c.handleWrite result = some r) : r.1.inputBuffer = c.inputBuffer := by
  cases writeCase_of_handleWrite hr with
  | idle | drained | partly => rfl

theorem handleWrite_of_not_writing {c : TcpConnection} {result : WriteResult} (h : c.channel.isWriting = false) :
    c.handleWrite result = some (c, []) := by
  unfold handleWrite
  rw [h]
  rfl

end TcpConnection

end Chater.Net
