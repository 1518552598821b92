import Chater.ApiCli.ApiClient
import Chater.Gateway.PacketOrder
import Chater.Gateway.AddressSends
import Chater.Net.GracefulShutdown

/-!
# A client and its connection at the gateway

The whole way of a heartbeat.  The client writes requests to its socket, TCP brings the bytes in pieces of any size, and
`Codec::OnMessage` hands the packets to `OnPacket`, which answers a heartbeat at once through `SendToClient`.  Meanwhile
any thread may pass bytes of its own to `SendToClient` or `Broadcast`, or call `ReqLogin` or `ReqLogout`, whose packets go
out by address.  What `::write` takes comes to the client, which takes it apart with `RecvPacket`.

The loop of `OnMessage` comes first in the model and its callbacks afterwards, one by one, with steps of other threads in
between; the callbacks do not touch the buffer.  While it is in a callback the connection is in the table, so
`SendToClient` finds it.
-/

namespace Chater.Net

open Base Foundations

set_option autoImplicit false

/-! ## What a step does to the state and to the messages issued -/

def OutputEvent.isSend {T : Type} : OutputEvent T → Bool
  | .send _ _ _ => true
  | _ => false

namespace OutputSystem

section State

/-- How `state_` can change. -/
def Later (a b : State) : Prop :=
  b = a ∨ b = .kDisconnecting ∨ b = .kDisconnected ∨ (a = .kConnecting ∧ b = .kConnected)

theorem later_refl (a : State) : Later a a := .inl rfl

variable {c : TcpConnection} {r : TcpConnection × List Effect}

theorem sendInLoop_same_state {data : List UInt8} {result : WriteResult} (hr : c.sendInLoop data result = some r) :
    r.1.state = c.state := by
  cases TcpConnection.sendCase_of_sendInLoop hr with
  | gaveUp | nothing | written => rfl
  | buffered | partly => exact TcpConnection.bufferRest_state _ _

theorem handleWrite_same_state {result : WriteResult} (hr : c.handleWrite result = some r) : r.1.state = c.state := by
  cases TcpConnection.writeCase_of_handleWrite hr with
  | idle | drained | partly => rfl

theorem later_handleClose (hr : c.handleClose = some r) : Later c.state r.1.state :=
  .inr (.inr (.inl (TcpConnection.handleClose_state hr)))

theorem later_handleRead {result : RingBuffer.ReadvResult} {cb : WfBuffer → WfBuffer}
    (hr : c.handleRead result cb = some r) : Later c.state r.1.state := by
  unfold TcpConnection.handleRead at hr
  simp only at hr
  split_ifs at hr
  · obtain rfl := Option.some.inj hr
    exact later_refl _
  · exact .inr (.inr (.inl (TcpConnection.handleClose_state hr)))
  · obtain rfl := Option.some.inj hr
    exact later_refl _

theorem later_forceCloseInLoop (hr : c.forceCloseInLoop = some r) : Later c.state r.1.state := by
  unfold TcpConnection.forceCloseInLoop at hr
  split_ifs at hr
  · exact later_handleClose hr
  · obtain rfl := Option.some.inj hr
    exact later_refl _

theorem later_connectEstablished (hr : c.connectEstablished = some r) : Later c.state r.1.state := by
  unfold TcpConnection.connectEstablished at hr
  split_ifs at hr with hconnecting
  obtain rfl := Option.some.inj hr
  exact .inr (.inr (.inr ⟨hconnecting, rfl⟩))

theorem later_connectDestroyed (hr : c.connectDestroyed = some r) : Later c.state r.1.state := by
  unfold TcpConnection.connectDestroyed at hr
  by_cases hconnected : c.state = .kConnected
  · simp only [if_pos hconnected] at hr
    obtain ⟨⟨channel, ctls⟩, -, hr⟩ := Option.bind_eq_some_iff.mp hr
    obtain rfl := Option.some.inj hr
    exact .inr (.inr (.inl rfl))
  · simp only [if_neg hconnected] at hr
    obtain ⟨⟨channel, ctls⟩, -, hr⟩ := Option.bind_eq_some_iff.mp hr
    obtain rfl := Option.some.inj hr
    exact later_refl _

end State

variable {T : Type} [DecidableEq T] {owner : T} {s t : OutputSystem T}

theorem send_spec {u : T} {message : List UInt8} {result : WriteResult}
    (hstep : s.step owner (.send u message result) = some t) :
    (s.conn.state ≠ .kConnected ∧ t = s) ∨
      (s.conn.state = .kConnected ∧ t.conn.state = .kConnected ∧ t.issued = s.issued ++ [(u, message)]) := by
  simp only [step] at hstep
  split_ifs at hstep with hconnected hu
  · exact .inl ⟨hconnected, (Option.some.inj hstep).symm⟩
  · obtain ⟨r, hr, rfl⟩ := Option.map_eq_some_iff.mp hstep
    exact .inr ⟨not_not.mp hconnected, (sendInLoop_same_state hr).trans (not_not.mp hconnected), rfl⟩
  · obtain ⟨m, hm, rfl⟩ := Option.map_eq_some_iff.mp hstep
    obtain ⟨-, rfl⟩ := begin_spec hm
    exact .inr ⟨not_not.mp hconnected, not_not.mp hconnected, rfl⟩

omit [DecidableEq T] in
theorem later_of_runTask {task : Task T} {result : WriteResult} (hrun : runTask owner s task result = some t) :
    t.issued = s.issued ∧ Later s.conn.state t.conn.state := by
  obtain ⟨u, f⟩ := task
  cases f with
  | sendInLoop message =>
    obtain ⟨r, hr, rfl⟩ := Option.map_eq_some_iff.mp hrun
    exact ⟨rfl, .inl (sendInLoop_same_state hr)⟩
  | forceCloseInLoop =>
    obtain ⟨r, hr, rfl⟩ := Option.map_eq_some_iff.mp hrun
    exact ⟨rfl, later_forceCloseInLoop hr⟩
  | connectEstablished =>
    obtain ⟨r, hr, rfl⟩ := Option.map_eq_some_iff.mp hrun
    exact ⟨rfl, later_connectEstablished hr⟩
  | connectDestroyed =>
    obtain ⟨r, hr, rfl⟩ := Option.map_eq_some_iff.mp hrun
    exact ⟨rfl, later_connectDestroyed hr⟩
  | shutdownInLoop | writeComplete | highWaterMark =>
    obtain rfl := Option.some.inj hrun
    exact ⟨rfl, later_refl _⟩

theorem later_of_begin {u : T} {call : ForeignCall} (hbegin : s.begin u call = some t) :
    t.issued = s.issued ∧ Later s.conn.state t.conn.state := by
  obtain ⟨-, rfl⟩ := begin_spec hbegin
  exact ⟨rfl, later_refl _⟩

theorem later_of_step {e : OutputEvent T} (hstep : s.step owner e = some t) (he : e.isSend = false) :
    t.issued = s.issued ∧ Later s.conn.state t.conn.state := by
  cases e with
  | send => cases he
  | shutdown u =>
    simp only [step] at hstep
    split_ifs at hstep with hconnected
    · obtain rfl := Option.some.inj hstep
      exact ⟨rfl, later_refl _⟩
    · obtain rfl := Option.some.inj hstep
      refine ⟨rfl, .inr (.inl ?_)⟩
      show s.conn.shutdown.1.state = _
      rw [TcpConnection.shutdown, if_pos (not_not.mp hconnected)]
    · exact later_of_begin hstep
  | forceClose u =>
    simp only [step] at hstep
    split_ifs at hstep
    · obtain rfl := Option.some.inj hstep
      exact ⟨rfl, later_refl _⟩
    · obtain rfl := Option.some.inj hstep
      refine ⟨rfl, ?_⟩
      show Later s.conn.state s.conn.forceClose.1.state
      unfold TcpConnection.forceClose
      split_ifs
      · exact .inr (.inl rfl)
      · exact later_refl _
    · exact later_of_begin hstep
  | store u =>
    simp only [step] at hstep
    split at hstep
    case h_2 => cases hstep
    case h_1 =>
      obtain rfl := Option.some.inj hstep
      exact ⟨rfl, .inr (.inl rfl)⟩
  | push u =>
    simp only [step] at hstep
    split at hstep
    case h_2 => cases hstep
    case h_1 =>
      obtain rfl := Option.some.inj hstep
      exact ⟨rfl, later_refl _⟩
  | post u f | swap =>
    simp only [step] at hstep
    split_ifs at hstep
    obtain rfl := Option.some.inj hstep
    exact ⟨rfl, later_refl _⟩
  | establish =>
    obtain ⟨r, hr, rfl⟩ := Option.map_eq_some_iff.mp hstep
    exact ⟨rfl, later_connectEstablished hr⟩
  | runFunctor result =>
    simp only [step] at hstep
    split at hstep
    · cases hstep
    · have htask := later_of_runTask hstep
      exact htask
  | handleRead result cb =>
    obtain ⟨r, hr, rfl⟩ := Option.map_eq_some_iff.mp hstep
    exact ⟨rfl, later_handleRead hr⟩
  | handleWrite result =>
    obtain ⟨r, hr, rfl⟩ := Option.map_eq_some_iff.mp hstep
    exact ⟨rfl, .inl (handleWrite_same_state hr)⟩
  | handleClose =>
    obtain ⟨r, hr, rfl⟩ := Option.map_eq_some_iff.mp hstep
    exact ⟨rfl, later_handleClose hr⟩

theorem Live.mem_issued (h : Live owner s) {q : T × List UInt8} (hq : q ∈ s.ran) : q ∈ s.issued := by
  have hmem : q ∈ ofThread q.1 (s.ran ++ sends (s.batch ++ s.pending)) ++ callSends q.1 (s.calls q.1) := by
    refine List.mem_append_left _ (List.mem_filter.mpr ⟨List.mem_append_left _ hq, ?_⟩)
    exact decide_eq_true rfl
  rw [h.order.order q.1] at hmem
  exact (List.mem_filter.mp hmem).1

end OutputSystem
end Chater.Net

namespace Chater.Gateway

open Base Foundations Framing Net Protocol PacketHeader ApiCli

set_option autoImplicit false

/-! ## The system -/

/-- `sent` are the packets the client has sent, `incoming` the bytes the server has not read.  Of the packets decoded,
`handled` have been through `OnPacket` and `todo` have not.  `called` are the calls of `SendToClient` for the connection,
each with its thread and the bytes it passes on. -/
structure ClientConnection (T : Type) where
  sent : List Packet
  incoming : List UInt8
  input : Receiver
  handled : List Packet
  todo : List Packet
  called : List (T × List UInt8)
  output : OutputSystem T

namespace ClientConnection

variable {T : Type} [DecidableEq T] (owner : T)

inductive Event (T : Type)
  | request (m : Protocol.Request)
  | read (n : ℕ)
  | onPacket (m : Surroundings) (result : WriteResult)
  | sendToClient (t : T) (data : List UInt8) (result : WriteResult)
  | reqLogin (t : T) (seq : UInt32) (req : Fin 96 → UInt8) (m : Surroundings) (result : WriteResult)
  | reqLogout (t : T) (seq : UInt32) (req : Fin 32 → UInt8) (m : Surroundings) (result : WriteResult)
  | server (e : OutputEvent T)

def start (hasWriteComplete hasHighWaterMark : Bool) (mark : ℕ) : ClientConnection T :=
  ⟨[], [], .init 1024, [], [], [], .established hasWriteComplete hasHighWaterMark mark⟩

def fits (m : Protocol.Request) : Bool := m.data.length ≤ 65536 - 12

/-- `handleRead` of the net layer is `read` here, and its sends are those of `SendToClient`. -/
def isOwn : OutputEvent T → Bool
  | .send _ _ _ | .handleRead _ _ => true
  | _ => false

/-- `SendToClient`, and what `Broadcast` does with the connection. -/
def send (s : ClientConnection T) (t : T) (data : List UInt8) (result : WriteResult) : Option (ClientConnection T) :=
  (s.output.step owner (.send t data result)).map fun output =>
    { s with called := s.called ++ [(t, data)], output := output }

def step (s : ClientConnection T) : Event T → Option (ClientConnection T)
  | .request m =>
    if fits m then some { s with sent := s.sent ++ [m.packet], incoming := s.incoming ++ m.packet.serialise } else none
  | .read n =>
    if s.todo = [] ∧ 0 < n ∧ n ≤ s.incoming.length then
      (s.input.onChunk (.readFd (s.incoming.take n))).map fun input =>
        { s with
          incoming := s.incoming.drop n
          input := input
          todo := input.received.drop s.input.received.length }
    else none
  | .onPacket m result =>
    match s.todo with
    | [] => none
    | p :: todo =>
      let s := { s with handled := s.handled ++ [p], todo := todo }
      if p.header.cmd = kCmdHeartbeatReq then do
        let bytes ← answerHeartbeat p m
        s.send owner owner bytes result
      else some s
  | .sendToClient t data result => s.send owner t data result
  | .reqLogin t seq req m result => do
    let bytes ← reqLogin seq req m
    s.send owner t bytes result
  | .reqLogout t seq req m result => do
    let bytes ← reqLogout seq req m
    s.send owner t bytes result
  | .server e => if isOwn e then none else (s.output.step owner e).map fun output => { s with output := output }

/-- One whole packet that a receiver accepts, and no answer to a heartbeat. -/
def OtherPacket (data : List UInt8) : Prop :=
  (kHeaderLength ≤ data.length ∧ data.length ≤ kMaxLength) ∧ lengthField data = data.length ∧
    (ofBytes data).cmd ≠ kCmdHeartbeatRsp

instance (data : List UInt8) : Decidable (OtherPacket data) := inferInstanceAs (Decidable (_ ∧ _))

/-- No `::write` fails for good, and whoever passes bytes to `SendToClient` or `Broadcast` passes one packet at a time and
leaves the answers to `OnPacket`.  `SendToClient` itself looks at none of the bytes. -/
def Assumed (_ : ClientConnection T) : Event T → Prop
  | .sendToClient _ data result => OtherPacket data ∧ result.fault = false
  | .onPacket _ result | .reqLogin _ _ _ _ result | .reqLogout _ _ _ _ result => result.fault = false
  | .server (.runFunctor result) | .server (.handleWrite result) => result.fault = false
  | _ => True

instance (s : ClientConnection T) (e : Event T) : Decidable (Assumed s e) := by
  unfold Assumed
  split <;> infer_instance

/-! ## The packets of the messages -/

def packetOf (message : List UInt8) : Packet := ⟨ofBytes message, message.drop kHeaderLength⟩

def packetsOf (messages : List (T × List UInt8)) : List Packet := messages.map fun q => packetOf q.2

/-- The answers among the packets. -/
def responses (ps : List Packet) : List Packet := ps.filter fun p => p.header.cmd = kCmdHeartbeatRsp

/-- The answers that the heartbeats among the packets ask for. -/
def answersTo (ps : List Packet) : List Packet := (ps.filter fun p => p.header.cmd = kCmdHeartbeatReq).map heartbeatRsp

theorem packetOf_serialise (p : Packet) : packetOf p.serialise = p := by
  have hdrop : p.serialise.drop kHeaderLength = p.body := by
    rw [Packet.serialise, ← toBytes_length p.header, List.drop_left]
  rw [packetOf, hdrop, Packet.serialise, ofBytes_toBytes_append]

theorem answersTo_append (ps qs : List Packet) : answersTo (ps ++ qs) = answersTo ps ++ answersTo qs := by
  rw [answersTo, List.filter_append, List.map_append, answersTo, answersTo]

theorem heartbeatRsp_framed (p : Packet) : (heartbeatRsp p).Framed :=
  ⟨rfl, (by decide : kHeaderLength ≤ kMaxLength)⟩

theorem answerHeartbeat_eq (p : Packet) (m : Surroundings) : answerHeartbeat p m = some (heartbeatRsp p).serialise := by
  obtain ⟨bytes, hsend, -, rfl, -⟩ := answerHeartbeat_sameOnWire p m
  exact hsend

theorem packetOf_framed {data : List UInt8} (h : OtherPacket data) :
    (packetOf data).Framed ∧ data = (packetOf data).serialise := by
  obtain ⟨⟨hge, hle⟩, hlength, -⟩ := h
  have hwhole : kHeaderLength + (packetOf data).body.length = data.length := by
    rw [packetOf, List.length_drop]
    omega
  constructor
  · constructor
    · rw [hwhole, ← hlength]
      exact ofBytes_length_toNat data
    · rw [hwhole]
      exact hle
  · rw [packetOf, Packet.serialise, toBytes_ofBytes hge, List.take_append_drop]

theorem request_framed {m : Protocol.Request} (h : fits m = true) : m.packet.Framed :=
  Codec.encode_framed m.cmd m.seq (of_decide_eq_true h)

/-- A message is one packet, and an answer is a message of the loop thread. -/
def OnePacket (q : T × List UInt8) : Prop :=
  ∃ p : Packet, p.Framed ∧ q.2 = p.serialise ∧ (p.header.cmd = kCmdHeartbeatRsp → q.1 = owner)

variable {owner}

omit [DecidableEq T] in
theorem wire_packetsOf {messages : List (T × List UInt8)} (h : ∀ q ∈ messages, OnePacket owner q) :
    wire (packetsOf messages) = (messages.map Prod.snd).flatten ∧ ∀ p ∈ packetsOf messages, p.Framed := by
  induction messages with
  | nil => exact ⟨rfl, List.forall_mem_nil _⟩
  | cons q messages ih =>
    obtain ⟨hwire, hframed⟩ := ih fun q' hq' => h q' (List.mem_cons_of_mem q hq')
    obtain ⟨p, hp, hmessage, -⟩ := h q List.mem_cons_self
    have hhead : packetOf q.2 = p := by rw [hmessage, packetOf_serialise]
    constructor
    · show (packetOf q.2).serialise ++ wire (packetsOf messages) = q.2 ++ (messages.map Prod.snd).flatten
      rw [hwire, hhead, hmessage]
    · show ∀ p' ∈ packetOf q.2 :: packetsOf messages, p'.Framed
      rw [hhead]
      exact List.forall_mem_cons.mpr ⟨hp, hframed⟩

theorem walk_arrived {ps : List Packet} (h : ∀ p ∈ ps, p.Framed) {pre : List UInt8} (hpre : pre <+: wire ps) :
    ∃ part, Walk Codec.frames pre (arrived ps pre.length) part ∧ Codec.frameVerdict part = .more ∧
      (pre.length = (wire ps).length → part = []) := by
  obtain ⟨part, hsplit, hmore, hend⟩ := wire_prefix_split h hpre
  have hframed : ∀ p ∈ arrived ps pre.length, p.Framed := fun p hp => h p (arrived_subset _ _ hp)
  have hwalk := walk_wire hframed part
  rw [← hsplit] at hwalk
  exact ⟨part, hwalk, hmore, hend⟩

theorem arrived_of_append (ps : List Packet) (n : ℕ) : arrived ps n <+: ps := by
  induction ps generalizing n with
  | nil => exact List.prefix_rfl
  | cons p ps ih =>
    rw [arrived]
    split_ifs
    · exact (List.prefix_cons_inj p).mpr (ih _)
    · exact List.nil_prefix

theorem arrived_all (ps : List Packet) : arrived ps (wire ps).length = ps := by
  induction ps with
  | nil => rfl
  | cons p ps ih =>
    have hlen : (wire (p :: ps)).length = p.serialise.length + (wire ps).length := by simp [wire]
    rw [hlen, arrived, if_pos (Nat.le_add_right _ _), Nat.add_sub_cancel_left, ih]

/-- `RecvPacket` checks the length from below too, which every packet passes. -/
theorem clientVerdict_of_more {part : List UInt8} (h : Codec.frameVerdict part = .more) :
    ClientSocket.clientVerdict part = .more := by
  rw [← h]
  apply ClientSocket.clientVerdict_eq
  by_contra hshort
  push Not at hshort
  unfold Codec.frameVerdict at h
  have hmax : ¬ kMaxLength < lengthField part := by
    have := hshort.2
    unfold kHeaderLength at this
    unfold kMaxLength
    omega
  rw [if_neg (by omega), if_neg hmax, if_pos (by omega)] at h
  cases h

theorem walk_client {ps : List Packet} (h : ∀ p ∈ ps, p.Framed) (part : List UInt8) :
    Walk ClientSocket.clientFrames (wire ps ++ part) ps part := by
  induction ps with
  | nil => exact .nil part
  | cons p ps ih =>
    have hframed := h p List.mem_cons_self
    have hsplit : wire (p :: ps) ++ part = p.serialise ++ (wire ps ++ part) := by simp [wire]
    have hlength : kHeaderLength ≤ lengthField (p.serialise ++ (wire ps ++ part)) := by
      rw [p.lengthField_serialise, hframed.length_eq]
      exact Nat.le_add_right _ _
    have hverdict : ClientSocket.clientFrames.verdict (p.serialise ++ (wire ps ++ part)) =
        .item p p.serialise.length := by
      rw [ClientSocket.clientFrames_verdict, ClientSocket.clientVerdict_eq (.inr hlength), ← Codec.frames_verdict]
      exact hframed.verdict _
    rw [hsplit]
    refine .cons hverdict ?_
    rw [List.drop_left]
    exact ih fun p' hp' => h p' (List.mem_cons_of_mem p hp')

/-- **`RecvPacket` on the beginning of a stream of packets** accepts those that have arrived whole. -/
theorem recvPackets_arrived {ps : List Packet} (h : ∀ p ∈ ps, p.Framed) {sock : ClientSocket} (hsteady : sock.Steady)
    (hpre : sock.avail <+: wire ps) :
    ∃ r, sock.recvPackets (ps.length + 1) = some r ∧ r.accepted = arrived ps sock.avail.length := by
  obtain ⟨part, hsplit, hmore, -⟩ := wire_prefix_split h hpre
  have hframed : ∀ p ∈ arrived ps sock.avail.length, p.Framed := fun p hp => h p (arrived_subset _ _ hp)
  have hwalk := walk_client hframed part
  rw [← hsplit] at hwalk
  have hfew : (arrived ps sock.avail.length).length < ps.length + 1 :=
    Nat.lt_succ_of_le (arrived_of_append ps _).length_le
  obtain ⟨r, hr, haccepted, -⟩ := ClientSocket.recvPackets_of_walk hsteady hwalk
    (stuck_of_more (clientVerdict_of_more hmore)) hfew
  exact ⟨r, hr, haccepted⟩

/-! ## The invariant -/

structure Sound (owner : T) (s : ClientConnection T) : Prop where
  framed : ∀ p ∈ s.sent, p.Framed
  /-- What the codec has been given is the beginning of what was sent. -/
  stream : ∃ consumed rest, consumed ++ s.incoming = wire s.sent ∧ Walk Codec.frames consumed s.input.received rest ∧
    Codec.frameVerdict rest = .more ∧ s.input.buf.Holds rest
  decoded : s.input.received = s.handled ++ s.todo
  packets : ∀ q ∈ s.called, OnePacket owner q
  answers : responses (packetsOf s.called) = answersTo s.handled
  live : s.output.LiveWhileOpen owner
  established : s.output.conn.state ≠ .kConnecting
  issued : s.output.issued <+: s.called
  allIssued : s.output.conn.state = .kConnected → s.output.issued = s.called

variable {s t : ClientConnection T}

theorem start_sound (owner : T) (hasWriteComplete hasHighWaterMark : Bool) (mark : ℕ) :
    Sound owner (start hasWriteComplete hasHighWaterMark mark) where
  framed := List.forall_mem_nil _
  stream := ⟨[], [], rfl, .nil _, rfl, RingBuffer.ofSize_holds 1024⟩
  decoded := rfl
  packets := List.forall_mem_nil _
  answers := rfl
  live _ := (OutputSystem.established_shutting owner owner hasWriteComplete hasHighWaterMark mark).live
  established := State.noConfusion
  issued := List.prefix_rfl
  allIssued _ := rfl

theorem Sound.request (h : Sound owner s) {m : Protocol.Request} (hm : fits m = true) :
    Sound owner { s with sent := s.sent ++ [m.packet], incoming := s.incoming ++ m.packet.serialise } := by
  obtain ⟨consumed, rest, hbytes, hwalk, hmore, hholds⟩ := h.stream
  refine { h with framed := ?_, stream := ⟨consumed, rest, ?_, hwalk, hmore, hholds⟩ }
  · intro p hp
    obtain hp | hp := List.mem_append.mp hp
    · exact h.framed p hp
    · rw [List.mem_singleton.mp hp]
      exact request_framed hm
  · rw [← List.append_assoc, hbytes, wire, wire, List.flatMap_append, List.flatMap_singleton]

theorem Sound.read (h : Sound owner s) {n : ℕ} {input : Receiver} (htodo : s.todo = [])
    (hchunk : s.input.onChunk (.readFd (s.incoming.take n)) = some input) :
    Sound owner { s with
      incoming := s.incoming.drop n
      input := input
      todo := input.received.drop s.input.received.length } := by
  obtain ⟨consumed, rest, hbytes, hwalk, -, hholds⟩ := h.stream
  have hpre : consumed ++ s.incoming.take n <+: wire s.sent := by
    rw [← hbytes]
    exact (List.prefix_append_right_inj _).mpr (List.take_prefix _ _)
  obtain ⟨part, harrived, hmore, -⟩ := walk_arrived h.framed hpre
  obtain ⟨items, hitems, hall⟩ := (hwalk.append _).continue harrived (stuck_of_more hmore)
  obtain ⟨buf, hon, hbuf⟩ := Receiver.onChunk_of_walk hholds (.readFd (s.incoming.take n)) hitems (stuck_of_more hmore)
  obtain rfl := Option.some.inj (hchunk.symm.trans hon)
  have hreceived : s.input.received = s.handled := by rw [h.decoded, htodo, List.append_nil]
  refine { h with stream := ⟨consumed ++ s.incoming.take n, part, ?_, ?_, hmore, hbuf⟩, decoded := ?_ }
  · rw [List.append_assoc, List.take_append_drop, hbytes]
  · show Walk Codec.frames _ (s.input.received ++ items) part
    rw [← hall]
    exact harrived
  · show s.input.received ++ items = s.handled ++ (s.input.received ++ items).drop s.input.received.length
    rw [List.drop_left, hreceived]

/-- A thread calls `SendToClient` with one packet; `handled` and `todo` are those after the call. -/
theorem Sound.send (h : Sound owner s) {u : T} {p : Packet} {result : WriteResult} {handled todo : List Packet}
    (hp : p.Framed) (hrsp : p.header.cmd = kCmdHeartbeatRsp → u = owner) (hfault : result.fault = false)
    (hdecoded : s.input.received = handled ++ todo) (hanswers : answersTo handled = answersTo s.handled ++ responses [p])
    (hstep : ClientConnection.send owner { s with handled := handled, todo := todo } u p.serialise result = some t) :
    Sound owner t := by
  obtain ⟨output, houtput, rfl⟩ := Option.map_eq_some_iff.mp hstep
  have hok : OutputSystem.NoFault s.output (.send u p.serialise result) := hfault
  have hlive := OutputSystem.liveWhileOpen_step h.live hok houtput
  have hpackets : ∀ q ∈ s.called ++ [(u, p.serialise)], OnePacket owner q := by
    intro q hq
    obtain hq | hq := List.mem_append.mp hq
    · exact h.packets q hq
    · rw [List.mem_singleton.mp hq]
      exact ⟨p, hp, rfl, hrsp⟩
  have hall : responses (packetsOf (s.called ++ [(u, p.serialise)])) = answersTo handled := by
    rw [hanswers, ← h.answers, packetsOf, List.map_append, responses, List.filter_append]
    show _ ++ responses [packetOf p.serialise] = _
    rw [packetOf_serialise]
    rfl
  obtain ⟨hclosed, rfl⟩ | ⟨hconnected, hstill, hissued⟩ := OutputSystem.send_spec houtput
  · exact { h with
      decoded := hdecoded
      packets := hpackets
      answers := hall
      issued := h.issued.trans (List.prefix_append _ _)
      allIssued := fun hstate => absurd hstate hclosed }
  · have hsame : output.issued = s.called ++ [(u, p.serialise)] := by rw [hissued, h.allIssued hconnected]
    exact { h with
      decoded := hdecoded
      packets := hpackets
      answers := hall
      live := hlive
      established := by
        rw [hstill]
        exact State.noConfusion
      issued := hsame ▸ List.prefix_rfl
      allIssued := fun _ => hsame }

/-- The same for a packet that is no answer. -/
theorem Sound.sendOther (h : Sound owner s) {u : T} {p : Packet} {result : WriteResult} (hp : p.Framed)
    (hcmd : p.header.cmd ≠ kCmdHeartbeatRsp) (hfault : result.fault = false)
    (hstep : s.send owner u p.serialise result = some t) : Sound owner t := by
  have hnone : responses [p] = [] := by simp [responses, hcmd]
  have hanswers : answersTo s.handled = answersTo s.handled ++ responses [p] := by rw [hnone, List.append_nil]
  exact h.send hp (fun hrsp => absurd hrsp hcmd) hfault h.decoded hanswers hstep

/-- A request that goes out by address keeps its header. -/
theorem Sound.sendByAddress (h : Sound owner s) {u : T} {cmd : UInt16} {seq : UInt32} {data : List UInt8}
    {m : Surroundings} {result : WriteResult} (hcmd : cmd ≠ kCmdHeartbeatRsp) (hdata : data.length ≤ 65536 - 12)
    (hfault : result.fault = false)
    (hstep : (sendToClient (objectByte (Codec.encode cmd seq data) m) (Codec.encode cmd seq data).totalLength).bind
      (fun bytes => s.send owner u bytes result) = some t) : Sound owner t := by
  have hframed := Codec.encode_framed cmd seq hdata
  rw [sendToClient_eq hframed] at hstep
  exact h.sendOther (byAddress_framed hframed m) hcmd hfault hstep

theorem Sound.server (h : Sound owner s) {e : OutputEvent T} {output : OutputSystem T} (he : isOwn e = false)
    (hok : s.Assumed (.server e)) (hstep : s.output.step owner e = some output) :
    Sound owner { s with output := output } := by
  have hsend : e.isSend = false := by
    cases e with
    | send => cases he
    | _ => rfl
  have hfault : OutputSystem.NoFault s.output e := by
    cases e with
    | send => cases he
    | runFunctor | handleWrite => exact hok
    | _ => trivial
  have hlive := OutputSystem.liveWhileOpen_step h.live hfault hstep
  obtain ⟨hissued, hlater⟩ := OutputSystem.later_of_step hstep hsend
  have hconnected : output.conn.state = .kConnected → s.output.conn.state = .kConnected := by
    intro hstate
    obtain hsame | hdown | hdown | ⟨hconnecting, -⟩ := hlater
    · exact hsame.symm.trans hstate
    · rw [hstate] at hdown
      cases hdown
    · rw [hstate] at hdown
      cases hdown
    · exact absurd hconnecting h.established
  refine { h with live := hlive, established := ?_, issued := ?_, allIssued := ?_ }
  · intro hconnecting
    obtain hsame | hdown | hdown | ⟨-, hup⟩ := hlater
    · exact h.established (hsame.symm.trans hconnecting)
    all_goals
      simp_all
  · rw [hissued]
    exact h.issued
  · intro hstate
    rw [hissued]
    exact h.allIssued (hconnected hstate)

theorem Sound.step {e : Event T} (h : Sound owner s) (hok : s.Assumed e) (hstep : s.step owner e = some t) :
    Sound owner t := by
  cases e with
  | request m =>
    simp only [ClientConnection.step] at hstep
    split_ifs at hstep with hm
    obtain rfl := Option.some.inj hstep
    exact h.request hm
  | read n =>
    simp only [ClientConnection.step] at hstep
    split_ifs at hstep with hguard
    obtain ⟨input, hchunk, rfl⟩ := Option.map_eq_some_iff.mp hstep
    exact h.read hguard.1 hchunk
  | onPacket m result =>
    simp only [ClientConnection.step] at hstep
    split at hstep
    · cases hstep
    rename_i p todo htodo
    have hdecoded : s.input.received = (s.handled ++ [p]) ++ todo := by
      rw [h.decoded, htodo, List.append_assoc, List.singleton_append]
    split_ifs at hstep with hreq
    · rw [answerHeartbeat_eq, Option.bind_eq_bind, Option.bind_some] at hstep
      have hanswers : answersTo (s.handled ++ [p]) = answersTo s.handled ++ responses [heartbeatRsp p] := by
        rw [answersTo_append]
        simp [answersTo, responses, hreq, heartbeatRsp]
      exact h.send (heartbeatRsp_framed p) (fun _ => rfl) hok hdecoded hanswers hstep
    · obtain rfl := Option.some.inj hstep
      have hanswers : answersTo (s.handled ++ [p]) = answersTo s.handled := by
        rw [answersTo_append]
        simp [answersTo, hreq]
      exact { h with decoded := hdecoded, answers := h.answers.trans hanswers.symm }
  | sendToClient u data result =>
    obtain ⟨hdata, hfault⟩ := hok
    obtain ⟨hframed, hbytes⟩ := packetOf_framed hdata
    have hsend : s.send owner u data result = some t := hstep
    rw [hbytes] at hsend
    exact h.sendOther hframed hdata.2.2 hfault hsend
  | reqLogin u seq req m result =>
    have hcmd : kCmdLoginReq ≠ kCmdHeartbeatRsp := by decide
    have hdata : (List.ofFn req).length ≤ 65536 - 12 := by
      rw [List.length_ofFn]
      decide
    exact h.sendByAddress hcmd hdata hok hstep
  | reqLogout u seq req m result =>
    have hcmd : kCmdLogoutReq ≠ kCmdHeartbeatRsp := by decide
    have hdata : (List.ofFn req).length ≤ 65536 - 12 := by
      rw [List.length_ofFn]
      decide
    exact h.sendByAddress hcmd hdata hok hstep
  | server e =>
    simp only [ClientConnection.step] at hstep
    split_ifs at hstep with hown
    obtain ⟨output, houtput, rfl⟩ := Option.map_eq_some_iff.mp hstep
    exact h.server (Bool.not_eq_true _ ▸ hown) hok houtput

theorem Sound.received (h : Sound owner s) :
    s.input.received <+: s.sent ∧ (s.incoming = [] → s.input.received = s.sent) := by
  obtain ⟨consumed, rest, hbytes, hwalk, hmore, -⟩ := h.stream
  have hpre : consumed <+: wire s.sent := ⟨s.incoming, hbytes⟩
  obtain ⟨part, harrived, hpart, -⟩ := walk_arrived h.framed hpre
  obtain ⟨heq, -⟩ := hwalk.unique (stuck_of_more hmore) harrived (stuck_of_more hpart)
  rw [heq]
  refine ⟨arrived_of_append _ _, fun hnone => ?_⟩
  rw [hnone, List.append_nil] at hbytes
  rw [hbytes, arrived_all]

/-! ## What the client gets -/

section Client

variable {hasWriteComplete hasHighWaterMark : Bool} {mark : ℕ} {es : List (Event T)} {sock : ClientSocket}

theorem sound_of_run (hrun : runFrom (step owner) (start hasWriteComplete hasHighWaterMark mark) es = some s)
    (hok : Meets (step owner) Assumed (start hasWriteComplete hasHighWaterMark mark) es) : Sound owner s :=
  invariant_of_meets (fun _ _ _ h hok hstep => h.step hok hstep) hok
    (start_sound owner hasWriteComplete hasHighWaterMark mark) hrun

theorem Sound.recvPackets (h : Sound owner s) (hopen : s.output.closed = false) (hsteady : sock.Steady)
    (havail : sock.avail <+: bytesWritten s.output.effects) :
    ∃ r, sock.recvPackets (s.output.ran.length + 1) = some r ∧ r.accepted <+: packetsOf s.output.ran ∧
      (sock.avail = bytesWritten s.output.effects → s.output.conn.outputBuffer.content = [] →
        r.accepted = packetsOf s.output.ran) := by
  have hlive := h.live hopen
  obtain ⟨hwire, hframed⟩ := wire_packetsOf fun q hq => h.packets q (h.issued.subset (hlive.mem_issued hq))
  have hstream : bytesWritten s.output.effects ++ s.output.conn.outputBuffer.content = wire (packetsOf s.output.ran) :=
    hlive.stream.stream.trans hwire.symm
  have hpre : sock.avail <+: wire (packetsOf s.output.ran) := havail.trans ⟨_, hstream⟩
  obtain ⟨r, hr, haccepted⟩ := recvPackets_arrived hframed hsteady hpre
  rw [packetsOf, List.length_map] at hr
  refine ⟨r, hr, haccepted ▸ arrived_of_append _ _, fun hall hempty => ?_⟩
  rw [hempty, List.append_nil] at hstream
  rw [haccepted, hall, hstream, arrived_all]

end Client

end ClientConnection
end Chater.Gateway
