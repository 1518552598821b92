import Chater.Foundations.Retransmission
import Chater.Zmq.MessageUtils
import Chater.Zmq.QuoteProto

/-!
# The quote gateway

`QuoteGateway` publishes market data and notices through its `PubServer`, which sends every message three times over the
PUB socket.  A notice bears an id from the server's counter; market data bear none.

The calls are numbered in the order they are made, and each copy is kept with the number of its call, so that what a
subscriber does with it can be held against the call.
-/

namespace Chater.Zmq

open Messages Retransmission
open scoped List

set_option autoImplicit false

/-! ## Publishing -/

/-- The frames of `SendPubMessage`. -/
def sendPubMessage (m : HeadTypeBody) : Multipart := ⟨m.head, [typeFrame m.msgType, m.body]⟩

theorem recvPubMessage_sendPubMessage (m : HeadTypeBody) (msgs : List Multipart) (out : HeadTypeBody) :
    recvPubMessage (.between (sendPubMessage m :: msgs)) out = ⟨true, m, "", .between msgs⟩ := by
  have hlength : ¬ (typeFrame m.msgType).length < 2 := by simp [typeFrame]
  have hrest : (sendPubMessage m).rest = [typeFrame m.msgType, m.body] := rfl
  rw [recvPubMessage, recvHeadTypeAndBody_of_rest hrest]
  simp [recvTypeAndBody, hlength, typeOf_typeFrame, sendPubMessage, ZmqSocket.between]

structure PubServer where
  started : Bool
  msgSeq : UInt64

namespace PubServer

def fresh : PubServer := ⟨true, 0⟩

def nextMessageId (p : PubServer) : UInt64 × PubServer := (p.msgSeq + 1, { p with msgSeq := p.msgSeq + 1 })

def kRetryCount : ℕ := 3

/-- The copies that `Publish` hands to the socket. -/
def publish (p : PubServer) (m : HeadTypeBody) : List Multipart :=
  if p.started then List.replicate kRetryCount (sendPubMessage m) else []

end PubServer

def kMarketData : UInt16 := 1
def kNotice : UInt16 := 2

def kMarketPrefix : String := "market."
def kNoticeTopic : String := "notice"

inductive QuoteCall
  | publishMarketData (symbol : Bytes) (price volume : UInt64) (now : Int64)
  | publishNotice (content : Bytes) (now : Int64)

namespace QuoteGateway

variable (proto : QuoteProto)

def marketDataMessage (md : MarketData) : HeadTypeBody :=
  ⟨⟨kMarketData, proto.marketData.serializeAsString md⟩, utf8 kMarketPrefix ++ md.symbol⟩

def noticeMessage (n : Notice) : HeadTypeBody :=
  ⟨⟨kNotice, proto.notice.serializeAsString n⟩, utf8 kNoticeTopic⟩

/-- `PublishMarketData` and `PublishNotice`: the copies sent, and the server afterwards. -/
def call (p : PubServer) : QuoteCall → List Multipart × PubServer
  | .publishMarketData symbol price volume now =>
    (p.publish (marketDataMessage proto ⟨symbol, price, volume, now⟩), p)
  | .publishNotice content now =>
    let (msgId, p) := p.nextMessageId
    (p.publish (noticeMessage proto ⟨content, now, msgId⟩), p)

/-- The copies sent by calls made one after another, the first of which has the number `i`. -/
def sent : PubServer → ℕ → List QuoteCall → List (ℕ × Multipart)
  | _, _, [] => []
  | p, i, c :: calls => (call proto p c).1.map (fun mp => (i, mp)) ++ sent (call proto p c).2 (i + 1) calls

/-- The notices published by these calls, with the calls' numbers. -/
def notices : PubServer → ℕ → List QuoteCall → List (ℕ × Notice)
  | _, _, [] => []
  | p, i, .publishMarketData .. :: calls => notices p (i + 1) calls
  | p, i, .publishNotice content now :: calls =>
    (i, ⟨content, now, p.nextMessageId.1⟩) :: notices p.nextMessageId.2 (i + 1) calls

/-! ## The ids of notices -/

theorem nextMessageId_toNat {p : PubServer} (h : p.msgSeq.toNat + 1 < 2 ^ 64) :
    p.nextMessageId.1.toNat = p.msgSeq.toNat + 1 := by
  have hadd : (p.msgSeq + 1).toNat = (p.msgSeq.toNat + 1) % 2 ^ 64 := UInt64.toNat_add _ _
  rw [PubServer.nextMessageId, hadd, Nat.mod_eq_of_lt h]

/-- The ids count up from the server's counter. -/
theorem notices_ids {p : PubServer} {i : ℕ} {calls : List QuoteCall}
    (h : p.msgSeq.toNat + (notices p i calls).length < 2 ^ 64) :
    (∀ x ∈ notices p i calls, p.msgSeq.toNat < x.2.messageId.toNat) ∧
      (notices p i calls).Pairwise fun x y => x.2.messageId.toNat < y.2.messageId.toNat := by
  induction calls generalizing p i with
  | nil => simp [notices]
  | cons c calls ih =>
    cases c with
    | publishMarketData symbol price volume now => exact ih h
    | publishNotice content now =>
      simp only [notices, List.length_cons] at h
      have hnext := nextMessageId_toNat (p := p) (by omega)
      have hrest := ih (p := p.nextMessageId.2) (i := i + 1) (by
        change p.nextMessageId.1.toNat + _ < _
        omega)
      change (∀ x ∈ _, p.nextMessageId.1.toNat < _) ∧ _ at hrest
      refine ⟨fun x hx => ?_, List.pairwise_cons.mpr ⟨hrest.1, hrest.2⟩⟩
      obtain rfl | hx := List.mem_cons.mp hx
      · change _ < p.nextMessageId.1.toNat
        omega
      · have := hrest.1 x hx
        omega

/-- One server gives different notices different ids, and none of them is 0. -/
theorem notices_distinct {calls : List QuoteCall} (h : (notices .fresh 0 calls).length < 2 ^ 64) :
    ((notices .fresh 0 calls).map fun x => x.2.messageId).Nodup ∧
      ∀ x ∈ notices .fresh 0 calls, x.2.messageId ≠ 0 := by
  obtain ⟨hpos, hincreasing⟩ := @notices_ids .fresh 0 calls (by
    change 0 + _ < _
    omega)
  refine ⟨List.pairwise_map.mpr (hincreasing.imp fun hlt heq => ?_), fun x hx hzero => ?_⟩
  · rw [heq] at hlt
    exact lt_irrefl _ hlt
  · have := hpos x hx
    rw [hzero] at this
    exact absurd this (by simp)

end QuoteGateway
end Chater.Zmq
