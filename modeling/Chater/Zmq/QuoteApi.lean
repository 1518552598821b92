import Chater.Zmq.QuoteGateway

/-!
# The quote client

`QuoteApi` reads published messages off its SUB socket and calls the registered `QuoteSpi`.  It remembers the id of the
last notice and passes over a notice with that id; for market data there is no such test.  A message that does not parse
is passed over without a word.  Neither `Connect` nor `Disconnect` touches the id it remembers.
-/

namespace Chater.Zmq

open Retransmission
open scoped List

set_option autoImplicit false

inductive SpiCallback
  | onMarketData (md : MarketData)
  | onNotice (n : Notice)
deriving DecidableEq, Repr

structure QuoteApi where
  hasSpi : Bool
  lastNoticeId : UInt64

namespace QuoteApi

variable (proto : QuoteProto)

def onPubMessage (api : QuoteApi) (m : HeadTypeBody) : Option SpiCallback × QuoteApi :=
  if !api.hasSpi then (none, api)
  else if m.msgType = kMarketData then ((proto.marketData.parseFromArray m.body).map .onMarketData, api)
  else if m.msgType = kNotice then
    match proto.notice.parseFromArray m.body with
    | none => (none, api)
    | some n =>
      if n.messageId ≠ 0 ∧ n.messageId = api.lastNoticeId then (none, api)
      else (some (.onNotice n), { api with lastNoticeId := n.messageId })
  else (none, api)

/-- An iteration of `RecvLoop` in which the socket has a message. -/
def recv (api : QuoteApi) (mp : Multipart) : Option SpiCallback × QuoteApi :=
  let c := recvPubMessage (.between [mp]) ⟨⟨0, []⟩, []⟩
  if c.returned then api.onPubMessage proto c.out else (none, api)

/-- The callbacks for messages that arrive one after another, each with the number of the call that sent it. -/
def recvLoop : QuoteApi → List (ℕ × Multipart) → List (ℕ × SpiCallback) × QuoteApi
  | api, [] => ([], api)
  | api, (i, mp) :: arrived =>
    let r := api.recv proto mp
    let later := recvLoop r.2 arrived
    (r.1.toList.map (fun cb => (i, cb)) ++ later.1, later.2)

def noticesPassed (callbacks : List (ℕ × SpiCallback)) : List (ℕ × Notice) :=
  callbacks.filterMap fun c =>
    match c.2 with
    | .onNotice n => some (c.1, n)
    | .onMarketData _ => none

def marketDataPassed (callbacks : List (ℕ × SpiCallback)) : List (ℕ × MarketData) :=
  callbacks.filterMap fun c =>
    match c.2 with
    | .onMarketData md => some (c.1, md)
    | .onNotice _ => none

/-! ## What a message holds -/

def asNotice (mp : Multipart) : Option Notice :=
  let c := recvPubMessage (.between [mp]) ⟨⟨0, []⟩, []⟩
  if c.returned ∧ c.out.msgType = kNotice then proto.notice.parseFromArray c.out.body else none

def asMarketData (mp : Multipart) : Option MarketData :=
  let c := recvPubMessage (.between [mp]) ⟨⟨0, []⟩, []⟩
  if c.returned ∧ c.out.msgType = kMarketData then proto.marketData.parseFromArray c.out.body else none

def noticesOf (arrived : List (ℕ × Multipart)) : List (ℕ × Notice) :=
  arrived.filterMap fun c => (asNotice proto c.2).map fun n => (c.1, n)

def marketDataOf (arrived : List (ℕ × Multipart)) : List (ℕ × MarketData) :=
  arrived.filterMap fun c => (asMarketData proto c.2).map fun md => (c.1, md)

open QuoteGateway

theorem asNotice_noticeMessage (n : Notice) :
    asNotice proto (sendPubMessage (noticeMessage proto n)) = if n.Valid then some n else none := by
  by_cases h : n.Valid
  all_goals
    rw [Notice.Valid] at h
    simp [asNotice, recvPubMessage_sendPubMessage, noticeMessage, proto.notice.parse_serialize, Notice.Valid, h]

@[simp] theorem asNotice_marketDataMessage (md : MarketData) :
    asNotice proto (sendPubMessage (marketDataMessage proto md)) = none := by
  simp [asNotice, recvPubMessage_sendPubMessage, marketDataMessage, kMarketData, kNotice]

theorem asMarketData_marketDataMessage (md : MarketData) :
    asMarketData proto (sendPubMessage (marketDataMessage proto md)) = if md.Valid then some md else none := by
  by_cases h : md.Valid
  all_goals
    rw [MarketData.Valid] at h
    simp [asMarketData, recvPubMessage_sendPubMessage, marketDataMessage, proto.marketData.parse_serialize,
      MarketData.Valid, h]

variable {proto} {api : QuoteApi}

/-- What one message does to a client with a registered SPI: market data are passed on; a notice is passed on unless its
id is the one remembered; anything else is passed over. -/
theorem recv_spec (hspi : api.hasSpi = true) (mp : Multipart) :
    api.recv proto mp =
      match asMarketData proto mp, asNotice proto mp with
      | some md, _ => (some (.onMarketData md), api)
      | none, some n =>
        if n.messageId ≠ 0 ∧ n.messageId = api.lastNoticeId then (none, api)
        else (some (.onNotice n), { api with lastNoticeId := n.messageId })
      | none, none => (none, api) := by
  unfold recv asMarketData asNotice onPubMessage
  simp only [hspi, Bool.not_true, Bool.false_eq_true, if_false]
  by_cases hreturned : (recvPubMessage (.between [mp]) ⟨⟨0, []⟩, []⟩).returned = true
  · by_cases hmarket : (recvPubMessage (.between [mp]) ⟨⟨0, []⟩, []⟩).out.msgType = kMarketData
    · have hne : kMarketData ≠ kNotice := by decide
      simp only [hreturned, hmarket, hne, and_self, and_false, if_true, if_false]
      cases proto.marketData.parseFromArray _ <;> rfl
    · by_cases hnotice : (recvPubMessage (.between [mp]) ⟨⟨0, []⟩, []⟩).out.msgType = kNotice
      · have hne : kNotice ≠ kMarketData := by decide
        simp only [hreturned, hnotice, hne, and_self, and_false, if_true, if_false]
        cases proto.notice.parseFromArray _ <;> rfl
      · simp [hreturned, hmarket, hnotice]
  · simp [hreturned]

theorem asNotice_eq_none {mp : Multipart} {md : MarketData} (h : asMarketData proto mp = some md) :
    asNotice proto mp = none := by
  unfold asMarketData at h
  unfold asNotice
  simp only at h ⊢
  split_ifs at h with hmarket
  rw [if_neg]
  intro hnotice
  exact absurd (hmarket.2.symm.trans hnotice.2) (by decide)

theorem asMarketData_eq_none {mp : Multipart} {n : Notice} (h : asNotice proto mp = some n) :
    asMarketData proto mp = none := by
  cases hmarket : asMarketData proto mp with
  | none => rfl
  | some md =>
    rw [asNotice_eq_none hmarket] at h
    cases h

/-! ## The receive loop -/

section RecvLoop

variable (hspi : api.hasSpi = true) {mp : Multipart} (i : ℕ) (arrived : List (ℕ × Multipart))

include hspi

theorem recvLoop_marketData {md : MarketData} (h : asMarketData proto mp = some md) :
    api.recvLoop proto ((i, mp) :: arrived) =
      ((i, .onMarketData md) :: (api.recvLoop proto arrived).1, (api.recvLoop proto arrived).2) := by
  simp [recvLoop, recv_spec hspi, h]

theorem recvLoop_duplicate {n : Notice} (h : asNotice proto mp = some n)
    (hdup : n.messageId ≠ 0 ∧ n.messageId = api.lastNoticeId) :
    api.recvLoop proto ((i, mp) :: arrived) = api.recvLoop proto arrived := by
  simp only [recvLoop, recv_spec hspi, asMarketData_eq_none h, h, if_pos hdup]
  rfl

theorem recvLoop_notice {n : Notice} (h : asNotice proto mp = some n)
    (hnew : ¬ (n.messageId ≠ 0 ∧ n.messageId = api.lastNoticeId)) :
    api.recvLoop proto ((i, mp) :: arrived) =
      ((i, .onNotice n) :: (recvLoop proto { api with lastNoticeId := n.messageId } arrived).1,
        (recvLoop proto { api with lastNoticeId := n.messageId } arrived).2) := by
  simp only [recvLoop, recv_spec hspi, asMarketData_eq_none h, h, if_neg hnew]
  rfl

theorem recvLoop_other (hmarket : asMarketData proto mp = none) (hnotice : asNotice proto mp = none) :
    api.recvLoop proto ((i, mp) :: arrived) = api.recvLoop proto arrived := by
  simp [recvLoop, recv_spec hspi, hmarket, hnotice]

end RecvLoop

end QuoteApi
end Chater.Zmq
