import Chater.Foundations.Transition
import Chater.Protocol.Reassembly

/-!
# The client's requests

`ApiClient::SendRequest` (`HPGateway/src/api_cli/ApiClient.cpp`) and the calls of it that a connected client makes one
after another.  The frame goes out in one `::writev`, which may fail or take any number of its bytes, and the call
returns the sequence number of the frame unless `::writev` fails.
-/

namespace Chater.ApiCli

open Foundations Protocol PacketHeader

set_option autoImplicit false

/-! ## One call -/

/-- The two buffers given to `::writev`; the length field is computed in `uint32_t`. -/
def requestPacket (cmd : UInt16) (seq : UInt32) (data : List UInt8) : Packet where
  header := ⟨UInt32.ofNat kHeaderLength + UInt32.ofNat data.length, cmd, 0, seq⟩
  body := data

inductive Writev
  | failed
  | wrote (n : ℕ)
deriving DecidableEq

structure ApiClient where
  connected : Bool
  seq : UInt32
deriving DecidableEq

/-- What a call leaves: the client, the bytes the socket took, and the value returned. -/
structure Sending where
  client : ApiClient
  handed : List UInt8
  returned : UInt32

/-- `SendRequest`; `none` for a count that `::writev` cannot give. -/
def ApiClient.sendRequest (c : ApiClient) (cmd : UInt16) (data : List UInt8) (result : Writev) : Option Sending :=
  if !c.connected then some ⟨c, [], 0⟩
  else
    let frame := (requestPacket cmd c.seq data).serialise
    match result with
    | .failed => some ⟨{ c with seq := c.seq + 1 }, [], 0⟩
    | .wrote n => if n ≤ frame.length then some ⟨{ c with seq := c.seq + 1 }, frame.take n, c.seq⟩ else none

/-! ## A session -/

structure Sent where
  packet : Packet
  handed : List UInt8
  returned : UInt32
deriving DecidableEq

/-- A client that has connected: the calls made so far and the bytes its socket has taken. -/
structure Session where
  client : ApiClient
  calls : List Sent
  out : List UInt8
deriving DecidableEq

structure Request where
  cmd : UInt16
  data : List UInt8
  result : Writev

namespace Session

def fresh : Session := ⟨⟨true, 1⟩, [], []⟩

def step (s : Session) (r : Request) : Option Session :=
  (s.client.sendRequest r.cmd r.data r.result).map fun sending =>
    { client := sending.client
      calls := s.calls ++ [⟨requestPacket r.cmd s.client.seq r.data, sending.handed, sending.returned⟩]
      out := s.out ++ sending.handed }

end Session

def Sent.Truthful (c : Sent) : Prop := c.returned ≠ 0 ↔ c.handed = c.packet.serialise

/-- Each call says whether its frame went out whole; while none returns 0 the socket has taken whole frames only; and
the successful ones among `2 ^ 32 - 1` calls in a row have sequence numbers of their own. -/
structure Session.Reports (s : Session) : Prop where
  truthful : ∀ c ∈ s.calls, c.Truthful
  whole : (∀ c ∈ s.calls, c.returned ≠ 0) → s.out = wire (s.calls.map (·.packet))
  distinct : ∀ i j ci cj, s.calls[i]? = some ci → s.calls[j]? = some cj → i < j → j < i + (2 ^ 32 - 1) →
    ci.returned ≠ 0 → cj.returned ≠ 0 → ci.packet.header.seq ≠ cj.packet.header.seq

/-- `::writev` fails, or takes the whole frame just when the sequence number it bears is not 0. -/
def Told (s : Session) (r : Request) : Prop :=
  ∀ n, r.result = .wrote n → (s.client.seq ≠ 0 ↔ n = kHeaderLength + r.data.length)

instance (s : Session) (r : Request) : Decidable (Told s r) :=
  match h : r.result with
  | .failed => .isTrue (by simp [Told, h])
  | .wrote n => decidable_of_iff (s.client.seq ≠ 0 ↔ n = kHeaderLength + r.data.length) (by simp [Told, h])

/-! ## What a call does to the session -/

structure Session.Kept (s : Session) : Prop where
  connected : s.client.connected = true
  seq : s.client.seq = UInt32.ofNat (s.calls.length + 1)
  numbered : ∀ k c, s.calls[k]? = some c → c.packet.header.seq = UInt32.ofNat (k + 1)
  out : s.out = s.calls.flatMap (·.handed)

theorem fresh_kept : Session.fresh.Kept where
  connected := rfl
  seq := rfl
  numbered := by simp [Session.fresh]
  out := rfl

theorem sendRequest_spec {c : ApiClient} {cmd : UInt16} {data : List UInt8} {result : Writev} {sending : Sending}
    (hc : c.connected = true) (h : c.sendRequest cmd data result = some sending) :
    sending.client = ⟨true, c.seq + 1⟩ ∧
      ((∀ n, result = .wrote n → (c.seq ≠ 0 ↔ n = kHeaderLength + data.length)) ↔
        (sending.returned ≠ 0 ↔ sending.handed = (requestPacket cmd c.seq data).serialise)) := by
  have hlength : (requestPacket cmd c.seq data).serialise.length = kHeaderLength + data.length :=
    Packet.serialise_length _
  simp only [ApiClient.sendRequest, hc, Bool.not_true, Bool.false_eq_true, if_false, hlength] at h
  cases result with
  | failed =>
    obtain rfl := Option.some.inj h
    have hne : [] ≠ (requestPacket cmd c.seq data).serialise := by
      intro hnil
      rw [← hnil, List.length_nil, kHeaderLength] at hlength
      omega
    simp [hne]
  | wrote n =>
    obtain ⟨hn, hsending⟩ := Option.ite_none_right_eq_some.mp h
    obtain rfl := Option.some.inj hsending
    have hwhole : (requestPacket cmd c.seq data).serialise.take n = (requestPacket cmd c.seq data).serialise ↔
        n = kHeaderLength + data.length := by
      rw [List.take_eq_self_iff, hlength]
      exact ⟨fun hle => hn.antisymm hle, fun heq => heq.ge⟩
    simp [hwhole]

theorem step_spec {s t : Session} {r : Request} (hs : s.client.connected = true) (h : s.step r = some t) :
    ∃ c : Sent, t = ⟨⟨true, s.client.seq + 1⟩, s.calls ++ [c], s.out ++ c.handed⟩ ∧
      c.packet = requestPacket r.cmd s.client.seq r.data ∧ (Told s r ↔ c.Truthful) := by
  obtain ⟨sending, hsend, rfl⟩ := Option.map_eq_some_iff.mp h
  obtain ⟨hclient, htold⟩ := sendRequest_spec hs hsend
  exact ⟨⟨requestPacket r.cmd s.client.seq r.data, sending.handed, sending.returned⟩, by rw [hclient], rfl, htold⟩

theorem Session.Kept.step {s t : Session} {r : Request} (hs : s.Kept) (h : s.step r = some t) : t.Kept := by
  obtain ⟨c, rfl, hpacket, -⟩ := step_spec hs.connected h
  refine ⟨rfl, ?_, ?_, ?_⟩
  · show s.client.seq + 1 = UInt32.ofNat ((s.calls ++ [c]).length + 1)
    rw [hs.seq, List.length_append, List.length_singleton, UInt32.ofNat_add (s.calls.length + 1) 1]
    rfl
  · intro k d hd
    replace hd : (s.calls ++ [c])[k]? = some d := hd
    rcases lt_trichotomy k s.calls.length with hk | rfl | hk
    · rw [List.getElem?_append_left hk] at hd
      exact hs.numbered k d hd
    · rw [List.getElem?_concat_length] at hd
      obtain rfl := Option.some.inj hd
      rw [hpacket]
      exact hs.seq
    · rw [List.getElem?_eq_none (by rw [List.length_append, List.length_singleton]; omega)] at hd
      cases hd
  · rw [hs.out]
    simp

/-! ## Runs -/

theorem kept_of_run {s : Session} {rs : List Request} (hrun : runFrom Session.step .fresh rs = some s) : s.Kept :=
  invariant_of_run (fun _ _ _ hs h => hs.step h) fresh_kept hrun

theorem truthful_iff_meets {s t : Session} {rs : List Request} (hs : s.Kept)
    (hrun : runFrom Session.step s rs = some t) :
    (∀ c ∈ t.calls, c.Truthful) ↔ (∀ c ∈ s.calls, c.Truthful) ∧ Meets Session.step Told s rs := by
  induction rs generalizing s with
  | nil =>
    obtain rfl := Option.some.inj hrun
    exact ⟨fun h => ⟨h, trivial⟩, fun h => h.1⟩
  | cons r rs ih =>
    obtain ⟨m, hm, hrest⟩ := runFrom_cons_iff.mp hrun
    obtain ⟨c, hcalls, -, htold⟩ := step_spec hs.connected hm
    rw [ih (hs.step hm) hrest, meets_cons_iff hm, htold, hcalls]
    simp only [List.forall_mem_append, List.forall_mem_singleton]
    exact and_assoc

theorem Session.Kept.whole {s : Session} (hs : s.Kept) (htruth : ∀ c ∈ s.calls, c.Truthful)
    (hok : ∀ c ∈ s.calls, c.returned ≠ 0) : s.out = wire (s.calls.map (·.packet)) := by
  rw [hs.out, wire, List.flatMap_map]
  exact List.flatMap_congr fun c hc => (htruth c hc).mp (hok c hc)

theorem ofNat_succ_ne {i j : ℕ} (hlt : i < j) (hnear : j < i + (2 ^ 32 - 1)) :
    UInt32.ofNat (i + 1) ≠ UInt32.ofNat (j + 1) := by
  intro h
  have hnat := congrArg UInt32.toNat h
  simp only [UInt32.toNat_ofNat'] at hnat
  omega

theorem Session.Kept.distinct {s : Session} (hs : s.Kept) {i j : ℕ} {ci cj : Sent} (hi : s.calls[i]? = some ci)
    (hj : s.calls[j]? = some cj) (hlt : i < j) (hnear : j < i + (2 ^ 32 - 1)) :
    ci.packet.header.seq ≠ cj.packet.header.seq := by
  rw [hs.numbered i ci hi, hs.numbered j cj hj]
  exact ofNat_succ_ne hlt hnear

/-- **What the return values say.**  The calls of a session report truthfully exactly when each `::writev` fails or
takes the whole frame just when the sequence number is not 0: a frame sent in part is reported as sent, and the frame
that bears the number 0 is reported as failed. -/
theorem reports_iff_told (rs : List Request) (s : Session) (hrun : runFrom Session.step .fresh rs = some s) :
    s.Reports ↔ Meets Session.step Told .fresh rs := by
  have hkept := kept_of_run hrun
  have hmeets := truthful_iff_meets fresh_kept hrun
  constructor
  · intro h
    exact (hmeets.mp h.truthful).2
  · intro h
    have htruth := hmeets.mpr ⟨by simp [Session.fresh], h⟩
    exact ⟨htruth, hkept.whole htruth, fun i j ci cj hi hj hlt hnear _ _ => hkept.distinct hi hj hlt hnear⟩

theorem reports_after_whole_frame :
    ∃ s, runFrom Session.step .fresh [⟨0x0101, [7], .wrote 13⟩, ⟨0x0101, [], .failed⟩] = some s ∧ s.Reports := by
  have hmeets : Meets Session.step Told .fresh [⟨0x0101, [7], .wrote 13⟩, ⟨0x0101, [], .failed⟩] := by decide
  exact ⟨_, rfl, (reports_iff_told [⟨0x0101, [7], .wrote 13⟩, ⟨0x0101, [], .failed⟩] _ rfl).mpr hmeets⟩

/-- A frame cut short after five bytes is reported as sent. -/
theorem not_reports_partial_write :
    ∃ s, runFrom Session.step .fresh [⟨0x0101, [7], .wrote 5⟩] = some s ∧ ¬ s.Reports ∧
      s.calls.map (·.returned) = [1] ∧ s.out = [13, 0, 0, 0, 1] := by
  refine ⟨⟨⟨true, 2⟩, [⟨requestPacket 0x0101 1 [7], [13, 0, 0, 0, 1], 1⟩], [13, 0, 0, 0, 1]⟩, by decide, ?_, rfl, rfl⟩
  intro h
  have htruth := h.truthful _ (List.mem_singleton_self _)
  exact absurd (htruth.mp (by decide)) (by decide)

/-- After `2 ^ 32 - 1` calls the counter is at 0, and the next frame is reported as failed although it went out. -/
theorem whole_frame_reported_failed {rs : List Request} {s : Session}
    (hrun : runFrom Session.step .fresh rs = some s) (hcalls : s.calls.length = 2 ^ 32 - 1) (cmd : UInt16)
    (data : List UInt8) :
    ∃ sending, s.client.sendRequest cmd data (.wrote (kHeaderLength + data.length)) = some sending ∧
      sending.handed = (requestPacket cmd s.client.seq data).serialise ∧ sending.returned = 0 := by
  have hkept := kept_of_run hrun
  have hseq : s.client.seq = 0 := by
    rw [hkept.seq, hcalls]
    rfl
  have hlength : (requestPacket cmd s.client.seq data).serialise.length = kHeaderLength + data.length :=
    Packet.serialise_length _
  refine ⟨⟨{ s.client with seq := s.client.seq + 1 }, _, s.client.seq⟩, ?_, List.take_of_length_le hlength.le, hseq⟩
  simp [ApiClient.sendRequest, hkept.connected, hlength]

end Chater.ApiCli
