import Chater.Zmq.MessageRoundTrip

/-!
# Sends that fail

`SendMessage`, `SendRouterMessage` and `SendPubMessage` return false at the first `SendFrame` that fails.  The frames sent
before it bear `ZMQ_SNDMORE` and stay in the socket, so that the frames of the next call are read as a continuation of
them.  A call that fails leaves no trace exactly if its first frame is the one that fails.
-/

namespace Chater.Zmq

open SharedWire TradeGateway

set_option autoImplicit false

/-- No call has its first frame taken and a later one refused. -/
def FailsFirst {M : Type} (fmt : Format M Frame) (calls : List (Attempt M)) : Prop :=
  ∀ a ∈ calls, a.takes 0 = true → ∀ i ≤ fmt.more, a.takes i = true

/-- **A failed send leaves no trace exactly if no frame of it was sent.**  For each of the three functions, whatever is
sent and whichever frames fail. -/
theorem noTrace_iff_failsFirst (dealer : List (Attempt TypeBody)) (router pub : List (Attempt HeadTypeBody)) :
    (NoTrace dealerFormat dealer ↔ FailsFirst dealerFormat dealer) ∧
      (NoTrace routerFormat router ↔ FailsFirst routerFormat router) ∧
        (NoTrace pubFormat pub ↔ FailsFirst pubFormat pub) :=
  ⟨noTrace_iff dealerFormat dealer, noTrace_iff routerFormat router, noTrace_iff pubFormat pub⟩

/-! ## `Publish` -/

namespace PubServer

/-- The calls of `SendPubMessage` that `Publish` makes; `takes i` are the frames of the `i`-th that do not fail. -/
def attempts (p : PubServer) (m : HeadTypeBody) (takes : Fin kRetryCount → ℕ → Bool) : List (Attempt HeadTypeBody) :=
  if p.started then List.ofFn fun i => ⟨m, takes i⟩ else []

/-- If no call fails, the copies are those that `publish` hands to the socket. -/
theorem cut_attempts {p : PubServer} {m : HeadTypeBody} {takes : Fin kRetryCount → ℕ → Bool}
    (h : ∀ a ∈ p.attempts m takes, a.returned pubFormat = true) :
    (cut ((p.attempts m takes).flatMap (Attempt.sent pubFormat))).messages = (p.publish m).map Multipart.frames := by
  have hnone : FailsFirst pubFormat (p.attempts m takes) := fun a ha _ => (a.returned_iff pubFormat).mp (h a ha)
  have hcut : NoTrace pubFormat (p.attempts m takes) := (noTrace_iff pubFormat _).mpr hnone
  rw [NoTrace, List.filter_eq_self.mpr h] at hcut
  rw [hcut, attempts, publish]
  split_ifs
  · rfl
  · rfl

end PubServer

/-! ## A body frame that fails -/

def helloType : TypeBody := ⟨1, [72]⟩

/-- The first call fails between its two frames, the second succeeds: the other end reads one message of three frames,
which begins with the type frame of the first call. -/
def bodyFails : List (Attempt TypeBody) := [⟨helloType, fun i => i == 0⟩, ⟨helloType, fun _ => true⟩]

theorem not_noTrace_bodyFails :
    bodyFails.map (Attempt.returned dealerFormat) = [false, true] ∧
      (cut (bodyFails.flatMap (Attempt.sent dealerFormat))).messages = [[[1, 0], [1, 0], [72]]] ∧
      ¬ NoTrace dealerFormat bodyFails := by
  have hcut : (cut (bodyFails.flatMap (Attempt.sent dealerFormat))).messages = [[[1, 0], [1, 0], [72]]] := by decide
  refine ⟨by decide, hcut, fun h => ?_⟩
  rw [h] at hcut
  exact absurd hcut (by decide)

end Chater.Zmq
