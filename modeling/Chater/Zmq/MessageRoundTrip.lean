import Chater.Zmq.MessageBoundaries
import Chater.Zmq.QuoteGateway
import Chater.Zmq.TradeApi
import Chater.Zmq.TradeReplies

/-!
# Messages across a pair of sockets

The three send functions against the receive functions of the other end.  libzmq cuts the frames at those sent without
`ZMQ_SNDMORE` and delivers each message whole; a ROUTER socket puts the sender's identity before what it receives, and
takes the first frame of what it sends as the identity of the DEALER that gets the rest.
-/

namespace Chater.Zmq

open SharedWire TradeGateway

set_option autoImplicit false

/-! ## What the other end has to read -/

/-- The `SendFrame` calls of `SendPubMessage`. -/
def pubFrames (m : HeadTypeBody) : List (Frame × Bool) :=
  [(m.head, true), (typeFrame m.msgType, true), (m.body, false)]

theorem pubFrames_flags (m : HeadTypeBody) : (pubFrames m).map Prod.snd = List.replicate 2 true ++ [false] := rfl

def pubFormat : Format HeadTypeBody Frame := ⟨pubFrames, 2, pubFrames_flags⟩

theorem sendPubMessage_frames (m : HeadTypeBody) : (sendPubMessage m).frames = pubFormat.frames m := rfl

def Multipart.ofFrames : List Frame → Option Multipart
  | [] => none
  | f :: fs => some ⟨f, fs⟩

/-- The messages a ROUTER socket holds of what the DEALER with this identity put on the wire. -/
def routerQueue (identity : Identity) (wire : List (Frame × Bool)) : List Multipart :=
  (cut wire).messages.map (Multipart.mk identity)

/-- The messages a DEALER socket with this identity holds of what a ROUTER socket was given to send. -/
def dealerQueue (identity : Identity) (wire : List (Frame × Bool)) : List Multipart :=
  (routed wire).filterMap fun message => if message.1 = identity then Multipart.ofFrames message.2 else none

/-- The messages a SUB socket, subscribed to every topic, holds of what a PUB socket was given to send. -/
def subQueue (wire : List (Frame × Bool)) : List Multipart := (cut wire).messages.filterMap Multipart.ofFrames

theorem routerQueue_sendMessage (identity : Identity) (msgs : List TypeBody) :
    routerQueue identity (msgs.flatMap sendMessage) = msgs.map fun m => ⟨identity, dealerFormat.frames m⟩ := by
  rw [routerQueue, show sendMessage = dealerFormat.parts from rfl, dealerFormat.cut_flatMap, List.map_map]
  rfl

theorem dealerQueue_sendRouterMessage (identity : Identity) (msgs : List HeadTypeBody) :
    dealerQueue identity (msgs.flatMap sendRouterMessage) =
      (msgs.filter (·.head = identity)).map fun m => ⟨typeFrame m.msgType, [m.body]⟩ := by
  rw [dealerQueue, routed, show sendRouterMessage = routerFormat.parts from rfl, routerFormat.cut_flatMap]
  induction msgs with
  | nil => rfl
  | cons m msgs ih =>
    have haddress : address (routerFormat.frames m) = some (m.head, [typeFrame m.msgType, m.body]) := rfl
    rw [List.map_cons, List.filterMap_cons_some haddress, List.filterMap_cons, ih]
    by_cases hm : m.head = identity
    · simp [hm, Multipart.ofFrames]
    · simp [hm]

theorem subQueue_pubFrames (msgs : List HeadTypeBody) :
    subQueue (msgs.flatMap pubFrames) = msgs.map sendPubMessage := by
  rw [subQueue, show pubFrames = pubFormat.parts from rfl, pubFormat.cut_flatMap, List.filterMap_map,
    ← List.filterMap_eq_map]
  rfl

/-! ## Reading the messages -/

section Reads

variable {P : Type} (recv : ZmqSocket → P → Call P)

/-- Repeated calls return the messages in order, whatever the reference parameters hold before, and each call ends
between two messages. -/
structure Reads (queue : List Multipart) (msgs : List P) : Prop where
  calls : ∀ (outs : ℕ → P) (k : ℕ) (m : P), msgs[k]? = some m →
    recv (sockAfter recv outs queue k) (outs k) = ⟨true, m, "", ZmqSocket.between (queue.drop (k + 1))⟩
  none_left : ∀ outs : ℕ → P, sockAfter recv outs queue msgs.length = ZmqSocket.between []

variable {recv}

theorem reads_of_call (enc : P → Multipart)
    (hcall : ∀ m queue out, recv (ZmqSocket.between (enc m :: queue)) out = ⟨true, m, "", ZmqSocket.between queue⟩)
    (msgs : List P) : Reads recv (msgs.map enc) msgs := by
  have hwhole : ∀ w ∈ msgs.map enc, ∃ m, enc m = w := by
    intro w hw
    obtain ⟨m, _, hm⟩ := List.mem_map.mp hw
    exact ⟨m, hm⟩
  have hsock : ∀ outs, ∀ k ≤ (msgs.map enc).length,
      sockAfter recv outs (msgs.map enc) k = ZmqSocket.between ((msgs.map enc).drop k) := by
    refine sockAfter_of_whole ?_ hwhole
    rintro _ queue out ⟨m, rfl⟩
    rw [hcall]
  constructor
  · intro outs k m hm
    obtain ⟨hk, rfl⟩ := List.getElem?_eq_some_iff.mp hm
    have hk' : k < (msgs.map enc).length := by rwa [List.length_map]
    rw [hsock outs k hk'.le, List.drop_eq_getElem_cons hk', List.getElem_map, hcall]
  · intro outs
    have hend := hsock outs (msgs.map enc).length le_rfl
    rwa [List.length_map, List.drop_of_length_le (List.length_map _).le] at hend

end Reads

theorem recvMessage_typeFrame (m : TypeBody) (queue : List Multipart) (out : TypeBody) :
    recvMessage (ZmqSocket.between (⟨typeFrame m.msgType, [m.body]⟩ :: queue)) out =
      ⟨true, m, "", ZmqSocket.between queue⟩ := by
  have hlength : ¬ (typeFrame m.msgType).length < 2 := by simp [typeFrame]
  rw [recvMessage, recvTypeAndBody_between]
  simp [recvTypeAndBody, Multipart.frames, hlength, typeOf_typeFrame, ZmqSocket.between]

/-- **What each send function sends, the receive function of the other end returns.**  The requests of a DEALER reach
the ROUTER with its identity, each DEALER gets the replies addressed to it, and a subscriber gets what was published:
all of them, in order, and with nothing of them left on the socket. -/
theorem multipart_round_trip :
    (∀ (identity : Identity) (msgs : List TypeBody),
      Reads recvRouterMessage (routerQueue identity (msgs.flatMap sendMessage)) (msgs.map fun m => ⟨m, identity⟩)) ∧
    (∀ (identity : Identity) (msgs : List HeadTypeBody),
      Reads recvMessage (dealerQueue identity (msgs.flatMap sendRouterMessage))
        ((msgs.filter (·.head = identity)).map (·.toTypeBody))) ∧
    ∀ msgs : List HeadTypeBody, Reads recvPubMessage (subQueue (msgs.flatMap pubFrames)) msgs := by
  refine ⟨fun identity msgs => ?_, fun identity msgs => ?_, fun msgs => ?_⟩
  · have h := reads_of_call (fun m : HeadTypeBody => ⟨m.head, dealerFormat.frames m.toTypeBody⟩)
      (fun m queue out => TradeApi.recvRouterMessage_frames m.toTypeBody m.head queue out)
      (msgs.map fun m => ⟨m, identity⟩)
    rw [List.map_map] at h
    rw [routerQueue_sendMessage]
    exact h
  · have h := reads_of_call (fun m : TypeBody => ⟨typeFrame m.msgType, [m.body]⟩) recvMessage_typeFrame
      ((msgs.filter (·.head = identity)).map (·.toTypeBody))
    rw [List.map_map] at h
    rw [dealerQueue_sendRouterMessage]
    exact h
  · rw [subQueue_pubFrames]
    exact reads_of_call sendPubMessage recvPubMessage_sendPubMessage msgs

end Chater.Zmq
