import Chater.Zmq.TradeGateway

/-!
# Requests of the trade client

`TradeApi` over `TradeApiZmqImpl`: user threads call `Login`, `PlaceOrder`, `QueryOrder` and `CancelOrder`, and the
heartbeat thread sends a ping from time to time, all through `SendMessage` on the one DEALER socket.  A request and a
ping are two frames each, and nothing keeps the two of one message together.
-/

namespace Chater.Zmq

open Foundations SharedWire SharedWire.Senders

set_option autoImplicit false

theorem sendMessage_flags (m : TypeBody) : (sendMessage m).map Prod.snd = List.replicate 1 true ++ [false] := rfl

def dealerFormat : Format TypeBody Frame := ⟨sendMessage, 1, sendMessage_flags⟩

inductive ApiThread (U : Type)
  | user (u : U)
  | heartbeat
deriving DecidableEq, Repr

structure TradeApi (U : Type) where
  dealerSock : Bool
  running : Bool
  out : Senders (ApiThread U) TypeBody Frame

namespace TradeApi

variable {U : Type} [DecidableEq U]

/-- `Connect` has returned 0. -/
def connected : TradeApi U := ⟨true, true, .start⟩

/-- `call` is one of the four API methods with the serialised request; `clearRunning` is any of the places that store
`false` to `running_`; `closeSocket` is the end of `Disconnect`. -/
inductive Event (U : Type)
  | call (u : U) (kind : TradeRequest) (body : Frame)
  | ping
  | frame (t : ApiThread U) (taken : Bool)
  | clearRunning
  | closeSocket

def step (s : TradeApi U) : Event U → Option (TradeApi U)
  | .call u kind body =>
    if s.dealerSock then
      (s.out.begin dealerFormat (.user u) ⟨kind.msgType, body⟩).map fun out => { s with out := out }
    else some s
  | .ping =>
    if s.running then (s.out.begin dealerFormat .heartbeat ⟨kPingType, []⟩).map fun out => { s with out := out }
    else none
  | .frame t taken =>
    if s.dealerSock then
      match taken with
      | true => (s.out.sendFrame t).map fun out => { s with out := out }
      | false => (s.out.refuseFrame t).map fun out => { s with out := out }
    else none
  | .clearRunning => some { s with running := false }
  -- `Disconnect` joins the heartbeat thread before it closes the socket
  | .closeSocket =>
    if !s.running && (s.out.calls .heartbeat).isNone then some { s with dealerSock := false } else none

def frameOf : Event U → Option (ApiThread U × Bool)
  | .frame t taken => some (t, taken)
  | _ => none

theorem step_drives : Drives dealerFormat out frameOf (step (U := U)) := by
  intro s e s' h
  cases e with
  | call u kind body =>
    simp only [step] at h
    split_ifs at h
    · obtain ⟨out, hbegin, rfl⟩ := Option.map_eq_some_iff.mp h
      exact .inr ⟨_, _, hbegin⟩
    · obtain rfl := Option.some.inj h
      exact .inl rfl
  | ping =>
    simp only [step] at h
    split_ifs at h
    obtain ⟨out, hbegin, rfl⟩ := Option.map_eq_some_iff.mp h
    exact .inr ⟨_, _, hbegin⟩
  | frame t taken =>
    simp only [step] at h
    split_ifs at h
    cases taken with
    | true =>
      obtain ⟨out, hsend, rfl⟩ := Option.map_eq_some_iff.mp h
      exact hsend
    | false =>
      obtain ⟨out, hrefuse, rfl⟩ := Option.map_eq_some_iff.mp h
      exact hrefuse
  | clearRunning =>
    obtain rfl := Option.some.inj h
    exact .inl rfl
  | closeSocket =>
    simp only [step] at h
    split_ifs at h
    obtain rfl := Option.some.inj h
    exact .inl rfl

/-! ## Requests on the socket -/

/-- What `RecvRouterMessage` makes of one message of the client: the type and body that `SendMessage` was given. -/
theorem recvRouterMessage_frames (m : TypeBody) (identity : Identity) (queue : List Multipart) (out : HeadTypeBody) :
    recvRouterMessage (ZmqSocket.between (⟨identity, dealerFormat.frames m⟩ :: queue)) out =
      ⟨true, ⟨m, identity⟩, "", ZmqSocket.between queue⟩ := by
  have hrest : (Multipart.mk identity (dealerFormat.frames m)).rest = typeFrame m.msgType :: [m.body] := rfl
  have hlength : ¬ (typeFrame m.msgType).length < 2 := by simp [typeFrame]
  rw [recvRouterMessage, recvHeadTypeAndBody_of_rest hrest]
  simp [recvTypeAndBody, hlength, typeOf_typeFrame, ZmqSocket.between]

/-- The messages on the socket are those whose sends have returned, in that order; each thread's are in call order and
lack at most the one being sent; and the server reads each with its own type and body. -/
structure RequestsUnmixed (s : TradeApi U) : Prop where
  unmixed : Unmixed dealerFormat s.out
  ordered : (cut s.out.wire).messages = s.out.returned.map fun p => [typeFrame p.2.msgType, p.2.body]
  paired : ∀ message ∈ (cut s.out.wire).messages, ∃ p ∈ s.out.returned, ∀ identity queue out,
    recvRouterMessage (ZmqSocket.between (⟨identity, message⟩ :: queue)) out =
      ⟨true, ⟨p.2, identity⟩, "", ZmqSocket.between queue⟩

/-- The step sends no frame that is refused, and none while another thread has sent the first frame of a message and
not the second. -/
def OneAtATime : TradeApi U → Event U → Prop := Separate dealerFormat out frameOf

theorem requestsUnmixed_of_clean {s : TradeApi U} (hc : Clean dealerFormat s.out) (hs : Sound dealerFormat s.out) :
    s.RequestsUnmixed := by
  refine ⟨hc.unmixed hs, hc.messages, fun message hmessage => ?_⟩
  rw [hc.messages] at hmessage
  obtain ⟨p, hp, rfl⟩ := List.mem_map.mp hmessage
  exact ⟨p, hp, recvRouterMessage_frames p.2⟩

/-- **Requests are mixed exactly when their frames alternate.**  In every run in which no frame is sent between those
of another thread's message, the socket carries the requests and pings whole and in call order; and in a state where
no message is partly sent, that holds of no other run. -/
theorem requestsUnmixed_iff {es : List (Event U)} {s : TradeApi U} (hrun : runFrom step connected es = some s) :
    (Meets step OneAtATime connected es → s.RequestsUnmixed) ∧
      (s.out.Quiet dealerFormat → s.RequestsUnmixed → Meets step OneAtATime connected es) := by
  constructor
  · intro hone
    exact requestsUnmixed_of_clean (step_drives.clean_of_meets rfl hone hrun) (step_drives.sound_of_run rfl hrun)
  · intro hquiet hun
    exact step_drives.meets_of_unmixed rfl hrun hquiet hun.unmixed

/-! ## A login and a ping at once -/

def loginAndPing : List (Event Unit) :=
  [.call () .login [7], .ping, .frame (.user ()) true, .frame .heartbeat true, .frame (.user ()) true,
    .frame .heartbeat true]

/-- The server reads the login with the type frame of the ping as its body. -/
theorem login_paired_with_ping :
    ∃ s, runFrom step connected loginAndPing = some s ∧ s.out.Quiet dealerFormat ∧
      (cut s.out.wire).messages = [[[1, 0], [3, 0], [7]], [[]]] ∧
      (recvRouterMessage (ZmqSocket.between [⟨[9], [[1, 0], [3, 0], [7]]⟩]) ⟨⟨0, []⟩, []⟩).out =
        ⟨⟨TradeRequest.login.msgType, [3, 0]⟩, [9]⟩ ∧
      ¬ s.RequestsUnmixed := by
  obtain ⟨s, hrun, hidle, hmessages, hmixed⟩ : ∃ s, runFrom step connected loginAndPing = some s ∧
      (∀ t, s.out.calls t = none) ∧ (cut s.out.wire).messages = [[[1, 0], [3, 0], [7]], [[]]] ∧
      ¬ (cut s.out.wire).messages.Perm (s.out.returned.map fun p => dealerFormat.frames p.2) := by
    refine ⟨_, rfl, fun t => ?_, by decide, by decide⟩
    match t with
    | .heartbeat => rfl
    | .user () => rfl
  refine ⟨s, hrun, ?_, hmessages, by decide, fun h => hmixed h.unmixed.messages⟩
  rintro t ⟨c, hc, -⟩
  rw [hidle t] at hc
  cases hc

def loginSent : List (Event Unit) := [.call () .login [7], .frame (.user ()) true, .frame (.user ()) true]

def pingSent : List (Event Unit) := [.ping, .frame .heartbeat true, .frame .heartbeat true]

theorem login_then_ping_unmixed :
    ∃ s, runFrom step connected (loginSent ++ pingSent) = some s ∧
      (cut s.out.wire).messages = [[[1, 0], [7]], [[3, 0], []]] ∧ s.RequestsUnmixed := by
  obtain ⟨m, hlogin, hidle⟩ : ∃ m, runFrom step connected loginSent = some m ∧ ∀ t, m.out.calls t = none := by
    refine ⟨_, rfl, fun t => ?_⟩
    cases t <;> rfl
  obtain ⟨s, hrun, hmessages⟩ : ∃ s, runFrom step connected (loginSent ++ pingSent) = some s ∧
      (cut s.out.wire).messages = [[[1, 0], [7]], [[3, 0], []]] := ⟨_, rfl, by decide⟩
  refine ⟨s, hrun, hmessages, (requestsUnmixed_iff hrun).1 ?_⟩
  exact step_drives.meets_of_two_turns (t := .user ()) (u := .heartbeat) (fun _ => rfl) (by decide) hlogin hidle
    (by decide)

end TradeApi
end Chater.Zmq
