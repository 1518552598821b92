import Chater.Zmq.MessageUtils
import Mathlib.Tactic

/-!
# Message boundaries over a sequence of calls

The receive functions never skip to the end of a message, so what one call leaves of a message is where the next
call starts.  This module follows a whole sequence of calls and says for which messages the calls stay aligned with
the messages: call `k` then reads message `k` and nothing else.
-/

namespace Chater.Zmq

set_option autoImplicit false

/-! ## Sequences of calls -/

section Calls

variable {P : Type} (recv : ZmqSocket → P → Call P)

/-- The socket before call `k`, when the `i`-th call is made with the reference parameters `outs i`. -/
def sockAfter (outs : ℕ → P) (msgs : List Multipart) : ℕ → ZmqSocket
  | 0 => ZmqSocket.between msgs
  | k + 1 => (recv (sockAfter outs msgs k) (outs k)).sock

/-- Each of the calls made for `msgs` consumes one whole message, and returns the leading frames of that message
in the sense of `Leads`. -/
structure KeepsBoundaries (Leads : Multipart → Call P → Prop) (outs : ℕ → P) (msgs : List Multipart) : Prop where
  consumed : ∀ k ≤ msgs.length, sockAfter recv outs msgs k = ZmqSocket.between (msgs.drop k)
  leading : ∀ k m, msgs[k]? = some m → Leads m (recv (sockAfter recv outs msgs k) (outs k))

variable {recv} {Leads : Multipart → Call P → Prop} {Whole : Multipart → Prop}

theorem sockAfter_of_whole
    (hstep : ∀ m msgs out, Whole m →
      (recv (ZmqSocket.between (m :: msgs)) out).sock = ZmqSocket.between msgs)
    {msgs : List Multipart} (hwhole : ∀ m ∈ msgs, Whole m) (outs : ℕ → P) :
    ∀ k ≤ msgs.length, sockAfter recv outs msgs k = ZmqSocket.between (msgs.drop k) := by
  intro k
  induction k with
  | zero => intro _; rfl
  | succ k ih =>
    intro hk
    have hlt : k < msgs.length := hk
    rw [sockAfter, ih hlt.le, List.drop_eq_getElem_cons hlt]
    exact hstep _ _ _ (hwhole _ (List.getElem_mem hlt))

theorem keepsBoundaries_iff
    (hstep : ∀ m msgs out, (recv (ZmqSocket.between (m :: msgs)) out).sock = ZmqSocket.between msgs ↔ Whole m)
    (hlead : ∀ m msgs out, Leads m (recv (ZmqSocket.between (m :: msgs)) out))
    (outs : ℕ → P) (msgs : List Multipart) :
    KeepsBoundaries recv Leads outs msgs ↔ ∀ m ∈ msgs, Whole m := by
  constructor
  · intro h m hm
    obtain ⟨k, hk, rfl⟩ := List.getElem_of_mem hm
    -- both ends of call `k` are boundaries, and only a message read whole brings the call from one to the next
    have hnext := h.consumed (k + 1) hk
    rw [sockAfter, h.consumed k hk.le, List.drop_eq_getElem_cons hk] at hnext
    exact (hstep _ _ _).mp hnext
  · intro hwhole
    have hconsumed := sockAfter_of_whole (fun m msgs out => (hstep m msgs out).mpr) hwhole outs
    refine ⟨hconsumed, fun k m hm => ?_⟩
    obtain ⟨hk, rfl⟩ := List.getElem?_eq_some_iff.mp hm
    rw [hconsumed k hk.le, List.drop_eq_getElem_cons hk]
    exact hlead _ _ _

end Calls

/-! ## The frames a call hands out, and the messages it reads whole -/

def LeadsTypeBody (m : Multipart) (c : Call TypeBody) : Prop :=
  c.returned = true → ∃ body rest, m.rest = body :: rest ∧ c.out = ⟨typeOf m.first, body⟩

/-- Any call returned frame 0 as the leading frame; a successful one also the type in frame 1 and the body in
frame 2. -/
def LeadsHead (m : Multipart) (c : Call HeadTypeBody) : Prop :=
  c.out.head = m.first ∧ (c.returned = true →
    ∃ typeFrame body rest, m.rest = typeFrame :: body :: rest ∧ c.out = ⟨⟨typeOf typeFrame, body⟩, m.first⟩)

def WholeTypeBody (m : Multipart) : Prop :=
  m.rest.length = 0 ∨ m.rest.length = 1 ∧ 2 ≤ m.first.length

def WholeHead (m : Multipart) : Prop :=
  m.rest.length ≤ 1 ∨ m.rest.length = 2 ∧ ∀ typeFrame ∈ m.rest.head?, 2 ≤ typeFrame.length

theorem drop_typeAndBodyFrames (f : Frame) (fs : List Frame) :
    (f :: fs).drop (typeAndBodyFrames f) = [] ↔ fs.length = 0 ∨ fs.length = 1 ∧ 2 ≤ f.length := by
  rw [List.drop_eq_nil_iff, typeAndBodyFrames, List.length_cons]
  split <;> omega

theorem recvTypeAndBody_whole (name : String) (m : Multipart) (msgs : List Multipart) (out : TypeBody) :
    (recvTypeAndBody name (ZmqSocket.between (m :: msgs)) out).sock = ZmqSocket.between msgs ↔
      WholeTypeBody m := by
  rw [recvTypeAndBody_between, Multipart.frames, recvTypeAndBody_sock, ZmqSocket.between, ZmqSocket.mk.injEq,
    drop_typeAndBodyFrames, WholeTypeBody]
  exact and_iff_left rfl

theorem recvTypeAndBody_leads (name : String) (m : Multipart) (msgs : List Multipart) (out : TypeBody) :
    LeadsTypeBody m (recvTypeAndBody name (ZmqSocket.between (m :: msgs)) out) := by
  intro h
  rw [recvTypeAndBody_between, Multipart.frames] at h ⊢
  exact (recvTypeAndBody_out h).2

theorem recvHeadTypeAndBody_whole (name : String) (m : Multipart) (msgs : List Multipart) (out : HeadTypeBody) :
    (recvHeadTypeAndBody name (ZmqSocket.between (m :: msgs)) out).sock = ZmqSocket.between msgs ↔
      WholeHead m := by
  cases hrest : m.rest with
  | nil =>
    rw [recvHeadTypeAndBody_of_alone hrest]
    simp [ZmqSocket.between, WholeHead, hrest]
  | cons f fs =>
    rw [recvHeadTypeAndBody_of_rest hrest, recvTypeAndBody_sock, ZmqSocket.between, ZmqSocket.mk.injEq,
      drop_typeAndBodyFrames]
    simp [WholeHead, hrest]

theorem recvHeadTypeAndBody_leads (name : String) (m : Multipart) (msgs : List Multipart) (out : HeadTypeBody) :
    LeadsHead m (recvHeadTypeAndBody name (ZmqSocket.between (m :: msgs)) out) := by
  refine ⟨recvHeadTypeAndBody_head name m msgs out, fun h => ?_⟩
  cases hrest : m.rest with
  | nil => simp [recvHeadTypeAndBody_of_alone hrest] at h
  | cons f fs =>
    rw [recvHeadTypeAndBody_of_rest hrest] at h ⊢
    obtain ⟨-, body, rest, hfs, hout⟩ := recvTypeAndBody_out h
    exact ⟨f, body, rest, by rw [hfs], by rw [hout]⟩

/-! ## The calls on a message sequence -/

/-- **Where message boundaries survive.**  Whatever messages arrive, the calls of `RecvRouterMessage` stay aligned
with them exactly when each has at most two frames, or three with a type frame of at least two bytes; the same
holds of `RecvPubMessage`, and of `RecvMessage` with one frame less. -/
theorem boundaries_iff (msgs : List Multipart) :
    (∀ outs, KeepsBoundaries recvRouterMessage LeadsHead outs msgs ↔ ∀ m ∈ msgs, WholeHead m) ∧
    (∀ outs, KeepsBoundaries recvPubMessage LeadsHead outs msgs ↔ ∀ m ∈ msgs, WholeHead m) ∧
    (∀ outs, KeepsBoundaries recvMessage LeadsTypeBody outs msgs ↔ ∀ m ∈ msgs, WholeTypeBody m) := by
  refine ⟨fun outs => ?_, fun outs => ?_, fun outs => ?_⟩
  · exact keepsBoundaries_iff (recvHeadTypeAndBody_whole _) (recvHeadTypeAndBody_leads _) outs msgs
  · exact keepsBoundaries_iff (recvHeadTypeAndBody_whole _) (recvHeadTypeAndBody_leads _) outs msgs
  · exact keepsBoundaries_iff (recvTypeAndBody_whole _) (recvTypeAndBody_leads _) outs msgs

/-- Frames a client can send in one message: a request of its own, then an identity of its choosing and a request
in that identity's name. -/
def forgedIdentity : Multipart := ⟨[0xAA], [[5, 0], [1], [0xBB], [6, 0], [2]]⟩

theorem forgedIdentity_accepted :
    ¬ KeepsBoundaries recvRouterMessage LeadsHead (fun _ => ⟨⟨0, []⟩, []⟩) [forgedIdentity, ⟨[0xCC], []⟩] ∧
    (let second := recvRouterMessage
      (sockAfter recvRouterMessage (fun _ => ⟨⟨0, []⟩, []⟩) [forgedIdentity, ⟨[0xCC], []⟩] 1) ⟨⟨0, []⟩, []⟩
    second.returned = true ∧ second.out = ⟨⟨6, [2]⟩, [0xBB]⟩) := by
  constructor
  · intro h
    have hone := h.consumed 1 (by decide)
    exact absurd hone (by decide)
  · decide

end Chater.Zmq
