import Chater.Foundations.LittleEndian
import Mathlib.Tactic

/-!
# Sending and receiving multipart messages

The send and receive functions of the ZeroMQ gateway's `message_utils.cpp`.  A socket holds whole multipart messages in
arrival order, together with the frames of the message that is being read which have not been taken yet.  Each of
`RecvMessage`, `RecvRouterMessage` and `RecvPubMessage` takes frames one at a time, looks at `ZMQ_RCVMORE` between
them, and returns at the first frame it does not accept.
-/

namespace Chater.Zmq

open LittleEndian

set_option autoImplicit false

/-! ## The socket -/

abbrev Frame := List UInt8

structure Multipart where
  first : Frame
  rest : List Frame
deriving DecidableEq, Repr

def Multipart.frames (m : Multipart) : List Frame := m.first :: m.rest

/-- The receive side of a ZeroMQ socket: the frames left of the message being read, and the messages behind it. -/
structure ZmqSocket where
  current : List Frame
  queue : List Multipart
deriving DecidableEq, Repr

namespace ZmqSocket

def between (msgs : List Multipart) : ZmqSocket := ⟨[], msgs⟩

/-- `RecvFrameToVector`: the next frame of the current message, or else the first frame of the next message.  With
nothing to read `zmq_msg_recv` fails and the socket is as before. -/
def recvFrameToVector (sock : ZmqSocket) : Option (Frame × ZmqSocket) :=
  match sock.current, sock.queue with
  | f :: fs, queue => some (f, ⟨fs, queue⟩)
  | [], m :: queue => some (m.first, ⟨m.rest, queue⟩)
  | [], [] => none

def rcvMore (sock : ZmqSocket) : Bool := !sock.current.isEmpty

@[simp] theorem recvFrameToVector_between (m : Multipart) (msgs : List Multipart) :
    (between (m :: msgs)).recvFrameToVector = some (m.first, ⟨m.rest, msgs⟩) := rfl

@[simp] theorem recvFrameToVector_cons (f : Frame) (fs : List Frame) (queue : List Multipart) :
    recvFrameToVector ⟨f :: fs, queue⟩ = some (f, ⟨fs, queue⟩) := rfl

@[simp] theorem rcvMore_cons (f : Frame) (fs : List Frame) (queue : List Multipart) :
    rcvMore ⟨f :: fs, queue⟩ = true := rfl

@[simp] theorem rcvMore_nil (queue : List Multipart) : rcvMore ⟨[], queue⟩ = false := rfl

end ZmqSocket

/-! ## The receive functions -/

/-- What a receive call leaves behind: its return value, the caller's reference parameters, the text written to
`std::cerr`, and the socket. -/
structure Call (P : Type) where
  returned : Bool
  out : P
  cerr : String
  sock : ZmqSocket

structure TypeBody where
  msgType : UInt16
  body : Frame
deriving DecidableEq, Repr

structure HeadTypeBody extends TypeBody where
  head : Frame
deriving DecidableEq, Repr

def typeOf (typeFrame : Frame) : UInt16 := UInt16.ofNat (ofLE (typeFrame.take 2))

/-- The part all three functions end with: the type frame, then the body frame.  `name` is the function's own name
in its error texts. -/
def recvTypeAndBody (name : String) (sock : ZmqSocket) (out : TypeBody) : Call TypeBody :=
  match sock.recvFrameToVector with
  | none => ⟨false, out, "", sock⟩
  | some (typeFrame, sock) =>
    if typeFrame.length < 2 then
      ⟨false, out, name ++ ": invalid msg_type frame size=" ++ toString typeFrame.length ++ "\n", sock⟩
    else
      let out := { out with msgType := typeOf typeFrame }
      if !sock.rcvMore then ⟨false, out, name ++ ": missing body frame\n", sock⟩
      else
        match sock.recvFrameToVector with
        | none => ⟨false, out, "", sock⟩
        | some (body, sock) => ⟨true, { out with body := body }, "", sock⟩

def recvHeadTypeAndBody (name : String) (sock : ZmqSocket) (out : HeadTypeBody) : Call HeadTypeBody :=
  match sock.recvFrameToVector with
  | none => ⟨false, out, "", sock⟩
  | some (head, sock) =>
    if !sock.rcvMore then ⟨false, { out with head := head }, name ++ ": missing msg_type frame\n", sock⟩
    else
      let c := recvTypeAndBody name sock out.toTypeBody
      ⟨c.returned, ⟨c.out, head⟩, c.cerr, c.sock⟩

def recvMessage (sock : ZmqSocket) (out : TypeBody) : Call TypeBody :=
  recvTypeAndBody "RecvMessage" sock out

def recvRouterMessage (sock : ZmqSocket) (out : HeadTypeBody) : Call HeadTypeBody :=
  recvHeadTypeAndBody "RecvRouterMessage" sock out

def recvPubMessage (sock : ZmqSocket) (out : HeadTypeBody) : Call HeadTypeBody :=
  recvHeadTypeAndBody "RecvPubMessage" sock out

/-! ## The send functions

Each is a sequence of `SendFrame` calls, given here by the data and the `more` flag of each, and returns at the first
that fails. -/

def typeFrame (msgType : UInt16) : Frame := toLE 2 msgType.toNat

def sendMessage (m : TypeBody) : List (Frame × Bool) := [(typeFrame m.msgType, true), (m.body, false)]

def sendRouterMessage (m : HeadTypeBody) : List (Frame × Bool) :=
  [(m.head, true), (typeFrame m.msgType, true), (m.body, false)]

theorem typeOf_typeFrame (msgType : UInt16) : typeOf (typeFrame msgType) = msgType := by
  apply UInt16.toNat_inj.mp
  have hlt := msgType.toNat_lt
  rw [typeOf, typeFrame, List.take_of_length_le (toLE_length 2 _).le, ofLE_toLE_of_lt (by omega),
    UInt16.toNat_ofNat', Nat.mod_eq_of_lt hlt]

/-! ## What one call takes from the socket -/

def typeAndBodyFrames (f : Frame) : ℕ := if f.length < 2 then 1 else 2

theorem recvTypeAndBody_sock (name : String) (f : Frame) (fs : List Frame) (queue : List Multipart)
    (out : TypeBody) :
    (recvTypeAndBody name ⟨f :: fs, queue⟩ out).sock = ⟨(f :: fs).drop (typeAndBodyFrames f), queue⟩ := by
  unfold recvTypeAndBody typeAndBodyFrames
  by_cases hshort : f.length < 2
  · simp [hshort]
  · cases fs with
    | nil => simp [hshort]
    | cons g gs => simp [hshort]

theorem recvTypeAndBody_between (name : String) (m : Multipart) (msgs : List Multipart) (out : TypeBody) :
    recvTypeAndBody name (ZmqSocket.between (m :: msgs)) out = recvTypeAndBody name ⟨m.frames, msgs⟩ out := rfl

theorem recvTypeAndBody_out {name : String} {f : Frame} {fs : List Frame} {queue : List Multipart}
    {out : TypeBody} (h : (recvTypeAndBody name ⟨f :: fs, queue⟩ out).returned = true) :
    2 ≤ f.length ∧ ∃ body rest, fs = body :: rest ∧
      (recvTypeAndBody name ⟨f :: fs, queue⟩ out).out = ⟨typeOf f, body⟩ := by
  unfold recvTypeAndBody at h ⊢
  by_cases hshort : f.length < 2
  · simp [hshort] at h
  · cases fs with
    | nil => simp [hshort] at h
    | cons g gs => exact ⟨by omega, g, gs, rfl, by simp [hshort]⟩

theorem recvHeadTypeAndBody_head (name : String) (m : Multipart) (msgs : List Multipart) (out : HeadTypeBody) :
    (recvHeadTypeAndBody name (ZmqSocket.between (m :: msgs)) out).out.head = m.first := by
  unfold recvHeadTypeAndBody
  cases h : m.rest with
  | nil => simp [h]
  | cons f fs => simp [h]

theorem recvHeadTypeAndBody_of_rest {name : String} {m : Multipart} {f : Frame} {fs : List Frame}
    (hrest : m.rest = f :: fs) (msgs : List Multipart) (out : HeadTypeBody) :
    recvHeadTypeAndBody name (ZmqSocket.between (m :: msgs)) out =
      { returned := (recvTypeAndBody name ⟨f :: fs, msgs⟩ out.toTypeBody).returned
        out := ⟨(recvTypeAndBody name ⟨f :: fs, msgs⟩ out.toTypeBody).out, m.first⟩
        cerr := (recvTypeAndBody name ⟨f :: fs, msgs⟩ out.toTypeBody).cerr
        sock := (recvTypeAndBody name ⟨f :: fs, msgs⟩ out.toTypeBody).sock } := by
  simp [recvHeadTypeAndBody, hrest]

theorem recvHeadTypeAndBody_of_alone {name : String} {m : Multipart} (hrest : m.rest = [])
    (msgs : List Multipart) (out : HeadTypeBody) :
    recvHeadTypeAndBody name (ZmqSocket.between (m :: msgs)) out =
      ⟨false, { out with head := m.first }, name ++ ": missing msg_type frame\n", ⟨[], msgs⟩⟩ := by
  simp [recvHeadTypeAndBody, hrest]

end Chater.Zmq
