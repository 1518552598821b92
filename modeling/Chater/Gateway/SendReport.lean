import Chater.Gateway.RegistryRuns
import Chater.Gateway.AddressSends

/-!
# What `SendToClient` reports

`ConnectionManager::SendToClient` finds the connection in the table, calls `Send` on it, and answers whether it found
one.  `Send` looks at `state_` by itself and says nothing: a message to a connection that is no longer `kConnected` is
dropped, and so is one whose `::write` in the loop thread fails for good.

One call runs beside the server, on any thread.  Its steps are the lookup, the check of `state_` in `Send` together with
what the loop thread does at once, and the push of the functor that another thread makes instead; the server may take
any steps in between.
-/

namespace Chater.Net.TcpConnection

open Base

set_option autoImplicit false

variable {c : TcpConnection} {data : List UInt8} {result : WriteResult} {r : TcpConnection × List Effect}

/-- `SendInLoop` calls `::write` itself. -/
def writesDirectly (c : TcpConnection) : Bool := !c.channel.isWriting && c.outputBuffer.readableBytes == 0

/-- The message has gone to the socket, to the end of the output buffer, or a part to each. -/
def Carried (c : TcpConnection) (data : List UInt8) (r : TcpConnection × List Effect) : Prop :=
  ∃ rest, r.1.outputBuffer.content = c.outputBuffer.content ++ rest ∧ bytesWritten r.2 ++ rest = data

theorem sendInLoop_of_fault (hstate : c.state ≠ .kDisconnected) (hdirect : c.writesDirectly = true)
    (hfault : result.fault = true) : c.sendInLoop data result = some (c, []) := by
  cases result with
  | wrote n => cases hfault
  | failed errno =>
    have herrno : errno = EPIPE ∨ errno = ECONNRESET := by simpa [WriteResult.fault] using hfault
    rw [sendInLoop, if_neg hstate]
    simp only [writesDirectly] at hdirect
    rw [if_pos hdirect]
    exact if_pos herrno

theorem carried_bufferRest (c : TcpConnection) (data : List UInt8) : Carried c data (c.bufferRest data) :=
  ⟨data, bufferRest_content c data, by rw [bytesWritten_of_quiet (bufferRest_quiet c data), List.nil_append]⟩

theorem carried_nothing (c : TcpConnection) : Carried c [] (c, []) := ⟨[], (List.append_nil _).symm, rfl⟩

theorem sendInLoop_of_buffers (hstate : c.state ≠ .kDisconnected) (hbuffers : ¬ c.writesDirectly = true) :
    c.sendInLoop data result = if data.length = 0 then some (c, []) else some (c.bufferRest data) := by
  unfold sendInLoop
  rw [if_neg hstate]
  exact if_neg hbuffers

theorem carried_of_sendInLoop (hstate : c.state ≠ .kDisconnected)
    (hfault : data ≠ [] → c.writesDirectly = true → result.fault = false) (hr : c.sendInLoop data result = some r) :
    Carried c data r := by
  by_cases hdirect : c.writesDirectly = true
  · cases sendCase_of_sendInLoop hr with
    | gaveUp hreason =>
      have hfailed := hreason.resolve_left hstate
      have hdata : data = [] := by
        by_contra hne
        rw [hfault hne hdirect] at hfailed
        cases hfailed
      rw [hdata]
      exact carried_nothing c
    | nothing hdata =>
      rw [hdata]
      exact carried_nothing c
    | buffered => exact carried_bufferRest c data
    | written =>
      refine ⟨[], (List.append_nil _).symm, ?_⟩
      show data ++ bytesWritten c.queueWriteComplete ++ [] = data
      rw [bytesWritten_of_quiet c.queueWriteComplete_quiet, List.append_nil, List.append_nil]
    | @partly n =>
      refine ⟨data.drop n, bufferRest_content c _, ?_⟩
      show data.take n ++ bytesWritten (c.bufferRest (data.drop n)).2 ++ data.drop n = data
      rw [bytesWritten_of_quiet (bufferRest_quiet c _), List.append_nil, List.take_append_drop]
  · rw [sendInLoop_of_buffers hstate hdirect] at hr
    split_ifs at hr with hlen
    · obtain rfl := Option.some.inj hr
      rw [List.length_eq_zero_iff.mp hlen]
      exact carried_nothing c
    · obtain rfl := Option.some.inj hr
      exact carried_bufferRest c data

end Chater.Net.TcpConnection

namespace Chater.Gateway

open Net Foundations

set_option autoImplicit false

/-! ## The call -/

/-- The arguments of `SendToClient`, and the thread that calls it. -/
structure Request where
  thread : ℕ
  connId : ℤ
  data : ℕ → UInt8
  len : UInt32

namespace Request

def bytes (q : Request) : List UInt8 := (List.range q.len.toNat).map q.data

theorem bytes_of_sendToClient {q : Request} {message : List UInt8} (h : sendToClient q.data q.len = some message) :
    message = q.bytes := by
  unfold sendToClient at h
  split_ifs at h
  exact (Option.some.inj h).symm

end Request

/-- How far the call is. -/
inductive Progress
  | called
  | found (fd : ℕ)
  | posting (fd : ℕ) (message : List UInt8)
  | returned (result : Bool)
  | threw
deriving DecidableEq

/-- The server and the call, with what the call has brought to the connection: bytes written to the socket, bytes put into
the output buffer, and bytes of the functor put into the loop's queue. -/
structure Sending where
  server : GatewayServer
  progress : Progress
  written : List UInt8
  buffered : List UInt8
  queued : List UInt8

namespace Sending

inductive Event
  | server (e : GatewayServer.Event)
  | getConnection
  | send (result : WriteResult)
  | push

def start (cfg : NetLayer.Config) : Sending := ⟨.start cfg, .called, [], [], []⟩

/-- `TcpConnection::Send(const std::string&)`. -/
def send (s : Sending) (thread fd : ℕ) (message : List UInt8) (result : WriteResult) :
    Option (Except Failure Sending) :=
  (s.server.net.conns fd).bind fun c =>
    if c.conn.state ≠ .kConnected then some (.ok { s with progress := .returned true })
    else if thread = c.loop then
      (c.conn.sendInLoop message result).map fun r =>
        (s.server.net.runHandler thread fd c r).map fun net =>
          { s with
            server := { s.server with net := net }
            progress := .returned true
            written := bytesWritten r.2
            buffered := r.1.outputBuffer.content.drop c.conn.outputBuffer.content.length }
    else some (.ok { s with progress := .posting fd message })

/-- `RunInLoop` on another thread. -/
def push (s : Sending) (fd : ℕ) (message : List UInt8) : Option (Except Failure Sending) :=
  (s.server.net.conns fd).map fun c =>
    .ok { s with
      server := { s.server with net := s.server.net.queueInLoop c.loop (.conn fd (.sendInLoop message)) }
      progress := .returned true
      queued := message }

def act (cfg : NetLayer.Config) (timeoutSec : ℤ) (q : Request) (s : Sending) : Event → Option (Except Failure Sending)
  | .server e =>
    (GatewayServer.act cfg timeoutSec s.server e).map fun r => r.map fun g => { s with server := g }
  | .getConnection =>
    match s.progress with
    | .called =>
      match s.server.getConnection q.connId with
      | some fd => some (.ok { s with progress := .found fd })
      | none => some (.ok { s with progress := .returned false })
    | _ => none
  | .send result =>
    match s.progress with
    | .found fd =>
      match sendToClient q.data q.len with
      | some message => s.send q.thread fd message result
      -- the constructor of the string has thrown
      | none => some (.ok { s with progress := .threw })
    | _ => none
  | .push =>
    match s.progress with
    | .posting fd message => s.push fd message
    | _ => none

def step (cfg : NetLayer.Config) (timeoutSec : ℤ) (q : Request) :
    Except Failure Sending → Event → Option (Except Failure Sending)
  | .ok s, e => act cfg timeoutSec q s e
  | .error _, _ => none

/-! ## The steps are those of the net layer -/

section NetLayer

variable {s t : Sending} {thread fd : ℕ} {message : List UInt8} {result : WriteResult} {c : Conn}

/-- A `Send` that is over at once does to the net layer what its event `send` does. -/
theorem userCall_of_send (h : s.send thread fd message result = some (.ok t))
    (hreturned : t.progress = .returned true) :
    s.server.net.userCall (.send thread fd message result) = some (.ok t.server.net) := by
  obtain ⟨c, hc, h⟩ := Option.bind_eq_some_iff.mp h
  simp only [NetLayer.userCall, hc, Option.bind_some]
  split_ifs at h ⊢
  · obtain rfl := Except.ok.inj (Option.some.inj h)
    rfl
  · obtain ⟨r, hr, h⟩ := Option.map_eq_some_iff.mp h
    rw [hr, Option.map_some]
    cases hnet : s.server.net.runHandler thread fd c r with
    | error failure =>
      rw [hnet] at h
      cases h
    | ok net =>
      rw [hnet] at h
      obtain rfl := Except.ok.inj h
      rfl
  · obtain rfl := Except.ok.inj (Option.some.inj h)
    cases hreturned

/-- The push is that of a call that has looked at `state_` and has nothing to store. -/
theorem userCall_of_push (h : s.push fd message = some (.ok t)) :
    (s.server.net.beginCall ⟨fd, false, .sendInLoop message⟩).userCall (.push s.server.net.calls.length) =
      some (.ok t.server.net) := by
  obtain ⟨c, hc, h⟩ := Option.map_eq_some_iff.mp h
  obtain rfl := Except.ok.inj h
  have hcall : (s.server.net.beginCall ⟨fd, false, .sendInLoop message⟩).calls[s.server.net.calls.length]? =
      some ⟨fd, false, .sendInLoop message⟩ := List.getElem?_concat_length ..
  have hrest : (s.server.net.calls ++ [(⟨fd, false, .sendInLoop message⟩ : PendingCall)]).eraseIdx
      s.server.net.calls.length = s.server.net.calls := by
    rw [List.eraseIdx_append_of_length_le le_rfl, Nat.sub_self, List.eraseIdx_cons_zero, List.append_nil]
  simp only [NetLayer.userCall, hcall, Option.bind_some, Bool.false_eq_true, if_false]
  simp only [NetLayer.beginCall, hrest, hc, Option.map_some]

end NetLayer

/-! ## What the result says -/

/-- What the call has brought to the connection. -/
def accepted (s : Sending) : List UInt8 := s.written ++ s.buffered ++ s.queued

/-- The call answers `true` only if all its bytes were accepted, and `false` only if none was. -/
def Truthful (q : Request) (s : Sending) : Prop :=
  match s.progress with
  | .returned true => s.accepted = q.bytes
  | .returned false => s.accepted = []
  | _ => True

/-- When `Send` is called, the connection is `kConnected`, and a `::write` that the loop thread makes for the message does
not fail with `EPIPE` or `ECONNRESET`; or there is nothing to send. -/
def Sendable (q : Request) : Except Failure Sending → Event → Prop
  | .ok s, .send result => ∀ fd c message, s.progress = .found fd → s.server.net.conns fd = some c →
      sendToClient q.data q.len = some message → message ≠ [] →
      c.conn.state = .kConnected ∧ (q.thread = c.loop → c.conn.writesDirectly = true → result.fault = false)
  | _, _ => True

/-- Until the call is over nothing is accepted, and what is posted is the message. -/
structure Sound (q : Request) (s : Sending) : Prop where
  truthful : Truthful q s
  before : (∀ result, s.progress ≠ .returned result) → s.written = [] ∧ s.buffered = [] ∧ s.queued = []
  posted : ∀ fd message, s.progress = .posting fd message → message = q.bytes

/-- The call has answered `true` for bytes that it dropped. -/
structure Dropped (q : Request) (s : Sending) : Prop where
  returned : s.progress = .returned true
  nothing : s.accepted = []
  bytes : q.bytes ≠ []

section Runs

variable {cfg : NetLayer.Config} {timeoutSec : ℤ} {q : Request} {s t : Sending} {result : WriteResult}

theorem Sound.of_progress (h : Sound q s) {progress : Progress} (hbefore : ∀ result, s.progress ≠ .returned result)
    (hprogress : progress ≠ .returned true)
    (hposted : ∀ fd message, progress = .posting fd message → message = q.bytes) :
    Sound q { s with progress := progress } := by
  obtain ⟨hwritten, hbuffered, hqueued⟩ := h.before hbefore
  refine ⟨?_, fun _ => ⟨hwritten, hbuffered, hqueued⟩, hposted⟩
  unfold Truthful accepted
  split
  · next hreturned => exact absurd hreturned hprogress
  · simp [hwritten, hbuffered, hqueued]
  · trivial

/-- A call that answers `true` with all its bytes accepted. -/
theorem sound_of_returned (ht : t.progress = .returned true) (haccepted : t.accepted = q.bytes) : Sound q t := by
  refine ⟨?_, fun h => absurd ht (h true), fun fd message h => ?_⟩
  · rw [Truthful, ht]
    exact haccepted
  · rw [ht] at h
    cases h

theorem Sound.send (h : Sound q s) {fd : ℕ} {message : List UInt8} (hfound : s.progress = .found fd)
    (hmessage : message = q.bytes)
    (hsendable : ∀ c, s.server.net.conns fd = some c → message ≠ [] → c.conn.state = .kConnected ∧
      (q.thread = c.loop → c.conn.writesDirectly = true → result.fault = false))
    (ht : s.send q.thread fd message result = some (.ok t)) : Sound q t := by
  have hbefore : ∀ result, s.progress ≠ .returned result := by simp [hfound]
  obtain ⟨hwritten, hbuffered, hqueued⟩ := h.before hbefore
  obtain ⟨c, hc, ht⟩ := Option.bind_eq_some_iff.mp ht
  split_ifs at ht with hstate hthread
  · -- dropped, and so there was nothing to send
    have hnil : message = [] := by
      by_contra hne
      exact hstate (hsendable c hc hne).1
    obtain rfl := Except.ok.inj (Option.some.inj ht)
    refine sound_of_returned rfl ?_
    simp [accepted, hwritten, hbuffered, hqueued, ← hmessage, hnil]
  · obtain ⟨r, hr, ht⟩ := Option.map_eq_some_iff.mp ht
    have hopen : c.conn.state ≠ .kDisconnected := by
      rw [not_not.mp hstate]
      decide
    obtain ⟨rest, hcontent, hbytes⟩ :=
      TcpConnection.carried_of_sendInLoop hopen (fun hne => (hsendable c hc hne).2 hthread) hr
    cases hnet : s.server.net.runHandler q.thread fd c r with
    | error failure =>
      rw [hnet] at ht
      cases ht
    | ok net =>
      rw [hnet] at ht
      obtain rfl := Except.ok.inj ht
      refine sound_of_returned rfl ?_
      simp only [accepted, hcontent, List.drop_left, hqueued, List.append_nil]
      rw [hbytes, hmessage]
  · obtain rfl := Except.ok.inj (Option.some.inj ht)
    refine h.of_progress hbefore (by simp) fun fd' message' hposting => ?_
    rw [← (Progress.posting.inj hposting).2, hmessage]

theorem Sound.push (h : Sound q s) {fd : ℕ} {message : List UInt8} (hposting : s.progress = .posting fd message)
    (ht : s.push fd message = some (.ok t)) : Sound q t := by
  obtain ⟨hwritten, hbuffered, -⟩ := h.before (by simp [hposting])
  obtain ⟨c, -, ht⟩ := Option.map_eq_some_iff.mp ht
  obtain rfl := Except.ok.inj ht
  refine sound_of_returned rfl ?_
  simp only [accepted, hwritten, hbuffered, List.nil_append]
  exact h.posted fd message hposting

theorem Sound.act (h : Sound q s) {e : Event} (hsendable : Sendable q (.ok s) e)
    (ht : act cfg timeoutSec q s e = some (.ok t)) : Sound q t := by
  cases e with
  | server e =>
    obtain ⟨r, -, ht⟩ := Option.map_eq_some_iff.mp ht
    cases r with
    | error failure => cases ht
    | ok g =>
      obtain rfl := Except.ok.inj ht
      exact ⟨h.truthful, h.before, h.posted⟩
  | getConnection =>
    simp only [Sending.act] at ht
    split at ht
    · next hcalled =>
      split at ht
      all_goals
        obtain rfl := Except.ok.inj (Option.some.inj ht)
        exact h.of_progress (by simp [hcalled]) (by simp) (by simp)
    · cases ht
  | send result =>
    simp only [Sending.act] at ht
    split at ht
    · next fd hfound =>
      split at ht
      · next message hmessage =>
        exact h.send hfound (Request.bytes_of_sendToClient hmessage)
          (fun c hc hne => hsendable fd c message hfound hc hmessage hne) ht
      · obtain rfl := Except.ok.inj (Option.some.inj ht)
        exact h.of_progress (by simp [hfound]) (by simp) (by simp)
    · cases ht
  | push =>
    simp only [Sending.act] at ht
    split at ht
    · next fd message hposting => exact h.push hposting ht
    · cases ht

/-- A message that is not sent is dropped without a word. -/
theorem Sound.dropped (h : Sound q s) {e : Event} (hmiss : ¬ Sendable q (.ok s) e)
    (ht : Sending.act cfg timeoutSec q s e = some (.ok t)) : Dropped q t := by
  cases e with
  | send result =>
    simp only [Sendable, not_forall] at hmiss
    obtain ⟨fd, c, message, hfound, hc, hmessage, hne, hmiss⟩ := hmiss
    obtain ⟨hwritten, hbuffered, hqueued⟩ := h.before (by simp [hfound])
    have hbytes : q.bytes ≠ [] := Request.bytes_of_sendToClient hmessage ▸ hne
    simp only [Sending.act, hfound, hmessage, Sending.send, hc, Option.bind_some] at ht
    split_ifs at ht with hstate hthread
    · obtain rfl := Except.ok.inj (Option.some.inj ht)
      exact ⟨rfl, by simp [accepted, hwritten, hbuffered, hqueued], hbytes⟩
    · -- the write has failed for good
      have hconnected := not_not.mp hstate
      obtain ⟨hdirect, hfault⟩ : c.conn.writesDirectly = true ∧ result.fault = true := by
        simpa [hconnected, hthread] using hmiss
      have hopen : c.conn.state ≠ .kDisconnected := by
        rw [hconnected]
        decide
      rw [TcpConnection.sendInLoop_of_fault hopen hdirect hfault, Option.map_some] at ht
      cases hnet : s.server.net.runHandler q.thread fd c (c.conn, []) with
      | error failure =>
        rw [hnet] at ht
        cases ht
      | ok net =>
        rw [hnet] at ht
        obtain rfl := Except.ok.inj (Option.some.inj ht)
        exact ⟨rfl, by simp [accepted, hqueued, bytesWritten], hbytes⟩
    · exact absurd ⟨not_not.mp hstate, fun heq => absurd heq hthread⟩ hmiss
  | _ => exact absurd trivial hmiss

theorem Dropped.act (h : Dropped q s) {e : Event} (ht : Sending.act cfg timeoutSec q s e = some (.ok t)) :
    Dropped q t := by
  cases e with
  | server e =>
    obtain ⟨r, -, ht⟩ := Option.map_eq_some_iff.mp ht
    cases r with
    | error failure => cases ht
    | ok g =>
      obtain rfl := Except.ok.inj ht
      exact ⟨h.returned, h.nothing, h.bytes⟩
  | _ =>
    simp only [Sending.act, h.returned] at ht
    cases ht

theorem Dropped.not_truthful (h : Dropped q s) : ¬ Truthful q s := by
  rw [Truthful, h.returned]
  show ¬ s.accepted = q.bytes
  rw [h.nothing]
  exact h.bytes.symm

/-- What holds of the call if no assertion has failed. -/
def Unfailed (P : Sending → Prop) : Except Failure Sending → Prop
  | .ok s => P s
  | .error _ => True

theorem unfailed_step {P Q : Sending → Prop} {x y : Except Failure Sending} {e : Event}
    (hact : ∀ s t, x = .ok s → P s → act cfg timeoutSec q s e = some (.ok t) → Q t) (hx : Unfailed P x)
    (hy : step cfg timeoutSec q x e = some y) : Unfailed Q y := by
  cases x with
  | error failure => cases hy
  | ok s =>
    cases y with
    | error failure => trivial
    | ok t => exact hact s t rfl hx hy

theorem start_sound (cfg : NetLayer.Config) (q : Request) : Sound q (start cfg) :=
  ⟨trivial, fun _ => ⟨rfl, rfl, rfl⟩, nofun⟩

/-- **`SendToClient` is truthful if `Send` has its way.**  After every run, with the call of any thread for any connection
and any bytes, the answer is truthful exactly if the message could be sent when `Send` was called. -/
theorem truthful_iff_sendable {es : List Event}
    (hrun : runFrom (step cfg timeoutSec q) (.ok (start cfg)) es = some (.ok s)) :
    Truthful q s ↔ Meets (step cfg timeoutSec q) (Sendable q) (.ok (start cfg)) es := by
  have hstart : Unfailed (Sound q) (.ok (start cfg)) := start_sound cfg q
  have hsound : ∀ x e y, Unfailed (Sound q) x → Sendable q x e → step cfg timeoutSec q x e = some y →
      Unfailed (Sound q) y :=
    fun _ _ _ hx hsendable hy => unfailed_step (fun _ _ hs h ht => h.act (hs ▸ hsendable) ht) hx hy
  have hdrops : ∀ x e y, Unfailed (Sound q) x → ¬ Sendable q x e → step cfg timeoutSec q x e = some y →
      Unfailed (Dropped q) y :=
    fun _ _ _ hx hmiss hy => unfailed_step (fun _ _ hs h ht => h.dropped (hs ▸ hmiss) ht) hx hy
  have hdropped : ∀ x e y, Unfailed (Dropped q) x → step cfg timeoutSec q x e = some y → Unfailed (Dropped q) y :=
    fun _ _ _ hx hy => unfailed_step (fun _ _ _ h ht => h.act ht) hx hy
  constructor
  · intro htruthful
    obtain ⟨hmeets, -⟩ | hend := meets_or_bad hsound hdrops hdropped hstart hrun
    · exact hmeets
    · exact absurd htruthful (Dropped.not_truthful hend)
  · intro hmeets
    have hend : Sound q s := invariant_of_meets hsound hmeets hstart hrun
    exact hend.truthful

end Runs

/-- Another thread sends one byte to the first connection. -/
def oneByte : Request := ⟨1, 1, fun _ => 65, 1⟩

/-- Descriptor 7 is accepted and gets the id 1. -/
def accepted7 : List Event :=
  let results : NetLayer.Results := ⟨some 7, .bytes [65], .wrote 0, id⟩
  [.server (.net .start 0), .server (.net (.poll 0 [(3, EPOLLIN)]) 0), .server (.net (.handle 0 results) 0),
    .server (.net (.callbackReturns 0) 0), .server (.net (.handle 0 results) 0),
    .server (.net (.doPendingFunctors 0) 0), .server (.net (.endFunctors 0) 0)]

/-- The byte is queued while the connection is up. -/
theorem truthful_iff_sendable_queued :
    ∃ s, runFrom (step NetLayer.sampleConfig 60 oneByte) (.ok (start NetLayer.sampleConfig))
        (accepted7 ++ [.getConnection, .send (.wrote 0), .push]) = some (.ok s) ∧ s.queued = [65] ∧
      Meets (step NetLayer.sampleConfig 60 oneByte) (Sendable oneByte) (.ok (start NetLayer.sampleConfig))
        (accepted7 ++ [.getConnection, .send (.wrote 0), .push]) := by
  obtain ⟨s, hrun, hview⟩ :=
    exists_ok_of_view (runFrom (step NetLayer.sampleConfig 60 oneByte) (.ok (start NetLayer.sampleConfig))
      (accepted7 ++ [.getConnection, .send (.wrote 0), .push])) (fun s => (s.progress, s.accepted, s.queued))
      (a := (.returned true, oneByte.bytes, [65])) (by decide +kernel)
  obtain ⟨hprogress, hrest⟩ := Prod.mk.inj hview
  obtain ⟨haccepted, hqueued⟩ := Prod.mk.inj hrest
  refine ⟨s, hrun, hqueued, (truthful_iff_sendable hrun).mp ?_⟩
  rw [Truthful, hprogress]
  exact haccepted

/-- A heartbeat has closed the connection, which is up until the loop gets to it: the call answers `true`, and the byte
is nowhere. -/
theorem not_truthful_reaped :
    ∃ s, runFrom (step NetLayer.sampleConfig 60 oneByte) (.ok (start NetLayer.sampleConfig))
        (accepted7 ++ [.server (.net (.poll 0 []) 61000), .server (.heartbeat 61000), .getConnection, .send (.wrote 0)]) =
          some (.ok s) ∧
      s.progress = .returned true ∧ s.accepted = [] ∧ ¬ Truthful oneByte s := by
  obtain ⟨s, hrun, hview⟩ :=
    exists_ok_of_view (runFrom (step NetLayer.sampleConfig 60 oneByte) (.ok (start NetLayer.sampleConfig))
      (accepted7 ++ [.server (.net (.poll 0 []) 61000), .server (.heartbeat 61000), .getConnection, .send (.wrote 0)]))
      (fun s => (s.progress, s.accepted)) (a := (.returned true, [])) (by decide +kernel)
  obtain ⟨hprogress, hnothing⟩ := Prod.mk.inj hview
  exact ⟨s, hrun, hprogress, hnothing, Dropped.not_truthful ⟨hprogress, hnothing, by decide⟩⟩

end Sending
end Chater.Gateway
