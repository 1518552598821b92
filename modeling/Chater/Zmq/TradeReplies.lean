import Chater.Zmq.TradeGateway

/-!
# Replies on the ROUTER socket

Nothing orders the frames of one reply against those of another.  What the socket routes are the replies as they were
made exactly when no thread sends a frame while another thread has a reply partly sent.
-/

namespace Chater.Zmq

open Foundations SharedWire SharedWire.Senders

set_option autoImplicit false

namespace TradeGateway

variable (parses : TradeRequest → Frame → Bool)

/-! ## What a step does to the socket -/

def frameOf : Event → Option (Thread × Bool)
  | .frame t taken => some (t, taken)
  | _ => none

theorem step_drives (cfg : GatewayConfig) : Drives routerFormat out frameOf (step parses cfg) := by
  intro s e s' h
  cases stepped_of_step parses h with
  | ping now m l out hpolls hping hbegin => exact .inr ⟨_, _, hbegin⟩
  | reply t reply out hphase hbegin => exact .inr ⟨_, _, hbegin⟩
  | frame t out hsend => exact hsend
  | refused t out hrefuse => exact hrefuse
  | quiet | rejected | submit | tooLate | direct | take | passOver | callHandler | answer | noAnswer | noSocket
  | exitLoop | stop | shutdownPool => exact .inl rfl

/-! ## Replies on the socket -/

/-- How a ROUTER socket routes a message: to the identity in its first frame, without that frame. -/
def address (message : List Frame) : Option (Identity × List Frame) :=
  message.head?.map fun identity => (identity, message.tail)

def routed (wire : List (Frame × Bool)) : List (Identity × List Frame) := (cut wire).messages.filterMap address

/-- The messages on the socket are the replies whose sends have returned, each routed to the identity it was made for,
and every reply of a thread is among them or is being sent. -/
structure RepliesUnmixed (s : TradeGateway) : Prop where
  unmixed : Unmixed routerFormat s.out
  reaches : (routed s.out.wire).Perm (s.out.returned.map fun p => (p.2.head, [typeFrame p.2.msgType, p.2.body]))

/-- The step sends no frame that is refused, and none while another thread has sent some but not all the frames of a
reply. -/
def OneAtATime : TradeGateway → Event → Prop := Separate routerFormat out frameOf

theorem repliesUnmixed_of_unmixed {s : TradeGateway} (h : Unmixed routerFormat s.out) : s.RepliesUnmixed := by
  refine ⟨h, ?_⟩
  have hrouted := h.messages.filterMap address
  have hpairs : s.out.returned.filterMap (address ∘ fun p => routerFormat.frames p.2) =
      s.out.returned.map fun p => (p.2.head, [typeFrame p.2.msgType, p.2.body]) := by
    rw [← List.filterMap_eq_map]
    rfl
  rw [List.filterMap_map, hpairs] at hrouted
  exact hrouted

/-- **Replies are mixed exactly when their frames alternate.**  In every run in which no frame is sent between those
of another thread's reply, every reply reaches the identity it was made for; and in a state where no reply is partly
sent, that holds of no other run. -/
theorem repliesUnmixed_iff {cfg : GatewayConfig} {es : List Event} {s : TradeGateway}
    (hrun : runFrom (step parses cfg) start es = some s) :
    (Meets (step parses cfg) OneAtATime start es → s.RepliesUnmixed) ∧
      (s.out.Quiet routerFormat → s.RepliesUnmixed → Meets (step parses cfg) OneAtATime start es) := by
  have hdrives := step_drives parses cfg
  constructor
  · intro hone
    have hclean := hdrives.clean_of_meets rfl hone hrun
    exact repliesUnmixed_of_unmixed (hclean.unmixed (hdrives.sound_of_run rfl hrun))
  · intro hquiet hun
    exact hdrives.meets_of_unmixed rfl hrun hquiet hun.unmixed

/-! ## Two replies at once -/

def twoWorkers : GatewayConfig := ⟨⟨0, 0⟩, some 2, true⟩

def loginFrom (identity : UInt8) : Event := .poll (.message 0 ⟨⟨1, []⟩, [identity]⟩)

/-- Both workers have a login reply ready, worker 0 for client 1 and worker 1 for client 2. -/
def twoReplies : List Event :=
  [loginFrom 1, loginFrom 2, .take 0, .take 1, .enter (.worker 0), .enter (.worker 1),
    .handle (.worker 0) (some [10]), .handle (.worker 1) (some [20]), .reply (.worker 0), .reply (.worker 1)]

def alternating : List Event :=
  [.frame (.worker 0) true, .frame (.worker 1) true, .frame (.worker 0) true, .frame (.worker 1) true,
    .frame (.worker 0) true, .frame (.worker 1) true]

theorem alternating_frames_mix :
    ∃ s, runFrom (step (fun _ _ => true) twoWorkers) start (twoReplies ++ alternating) = some s ∧
      s.out.Quiet routerFormat ∧ s.out.called = [(.worker 0, ⟨⟨2, [10]⟩, [1]⟩), (.worker 1, ⟨⟨2, [20]⟩, [2]⟩)] ∧
      routed s.out.wire = [([1], [[2], [2, 0], [2, 0], [10]]), ([20], [])] ∧ ¬ s.RepliesUnmixed := by
  obtain ⟨s, hrun, hidle, hcalled, hrouted, hmixed⟩ :
      ∃ s, runFrom (step (fun _ _ => true) twoWorkers) start (twoReplies ++ alternating) = some s ∧
        (∀ t, s.out.calls t = none) ∧
        s.out.called = [(.worker 0, ⟨⟨2, [10]⟩, [1]⟩), (.worker 1, ⟨⟨2, [20]⟩, [2]⟩)] ∧
        routed s.out.wire = [([1], [[2], [2, 0], [2, 0], [10]]), ([20], [])] ∧
        ¬ (cut s.out.wire).messages.Perm (s.out.returned.map fun p => routerFormat.frames p.2) := by
    refine ⟨_, rfl, fun t => ?_, by decide, by decide, by decide⟩
    match t with
    | .dispatch => rfl
    | .worker 0 => rfl
    | .worker 1 => rfl
    | .worker (i + 2) => rfl
  refine ⟨s, hrun, ?_, hcalled, hrouted, fun h => hmixed h.unmixed.messages⟩
  rintro t ⟨c, hc, -⟩
  rw [hidle t] at hc
  cases hc

def pingAnswered : List Event :=
  [.poll (.message 0 ⟨⟨kPingType, []⟩, [1]⟩), .frame .dispatch true, .frame .dispatch true, .frame .dispatch true]

def loginAnswered : List Event :=
  [loginFrom 2, .take 0, .enter (.worker 0), .handle (.worker 0) (some [20]), .reply (.worker 0),
    .frame (.worker 0) true, .frame (.worker 0) true, .frame (.worker 0) true]

theorem pingAnswered_unmixed :
    ∃ s, runFrom (step (fun _ _ => true) twoWorkers) start (pingAnswered ++ loginAnswered) = some s ∧
      routed s.out.wire = [([1], [[4, 0], []]), ([2], [[2, 0], [20]])] ∧ s.RepliesUnmixed := by
  obtain ⟨m, hping, hidle⟩ : ∃ m, runFrom (step (fun _ _ => true) twoWorkers) start pingAnswered = some m ∧
      ∀ t, m.out.calls t = none := by
    refine ⟨_, rfl, fun t => ?_⟩
    cases t <;> rfl
  obtain ⟨s, hrun, hrouted⟩ :
      ∃ s, runFrom (step (fun _ _ => true) twoWorkers) start (pingAnswered ++ loginAnswered) = some s ∧
        routed s.out.wire = [([1], [[4, 0], []]), ([2], [[2, 0], [20]])] := ⟨_, rfl, by decide⟩
  refine ⟨s, hrun, hrouted, (repliesUnmixed_iff _ hrun).1 ?_⟩
  exact (step_drives _ twoWorkers).meets_of_two_turns (t := .dispatch) (u := .worker 0) (fun _ => rfl) (by decide) hping
    hidle (by decide)

end TradeGateway
end Chater.Zmq
