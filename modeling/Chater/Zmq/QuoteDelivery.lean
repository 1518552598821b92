import Chater.Zmq.QuoteApi

/-!
# What reaches the user of the quote client

The copies of published messages that are not lost arrive in the order they were sent.  Each copy of market data leads to
a callback of its own.  Copies of one notice are next to each other among the notices that arrive, and one server never
uses an id twice, so a client that remembers the last id passes each notice on once.  A restarted server counts from 1
again, and its first notice is taken for a copy when its id is the one remembered from the server before.  The gateway
publishes strings that are not UTF-8 as readily as others; the client cannot parse such a message, and nobody hears of it.
-/

namespace Chater.Zmq

open Messages Retransmission QuoteGateway
open scoped List

set_option autoImplicit false

namespace QuoteApi

variable {proto : QuoteProto} {api : QuoteApi}

/-! ## The receive loop -/

theorem recvLoop_marketDataPassed (hspi : api.hasSpi = true) (arrived : List (ℕ × Multipart)) :
    marketDataPassed (api.recvLoop proto arrived).1 = marketDataOf proto arrived := by
  induction arrived generalizing api with
  | nil => rfl
  | cons c arrived ih =>
    obtain ⟨i, mp⟩ := c
    cases hmarket : asMarketData proto mp with
    | some md =>
      rw [recvLoop_marketData hspi i arrived hmarket]
      simp only [marketDataPassed, marketDataOf, List.filterMap_cons, hmarket, Option.map_some]
      exact congrArg _ (ih hspi)
    | none =>
      have hof : marketDataOf proto ((i, mp) :: arrived) = marketDataOf proto arrived := by simp [marketDataOf, hmarket]
      rw [hof]
      cases hnotice : asNotice proto mp with
      | none =>
        rw [recvLoop_other hspi i arrived hmarket hnotice]
        exact ih hspi
      | some n =>
        by_cases hdup : n.messageId ≠ 0 ∧ n.messageId = api.lastNoticeId
        · rw [recvLoop_duplicate hspi i arrived hnotice hdup]
          exact ih hspi
        · rw [recvLoop_notice hspi i arrived hnotice hdup]
          exact @ih { api with lastNoticeId := n.messageId } hspi

/-- The notices among the messages go through the test on the id remembered, and nothing else does. -/
theorem recvLoop_noticesPassed (hspi : api.hasSpi = true) {arrived : List (ℕ × Multipart)}
    (hids : ∀ x ∈ noticesOf proto arrived, x.2.messageId ≠ 0) :
    noticesPassed (api.recvLoop proto arrived).1 =
        passed (fun x => x.2.messageId) api.lastNoticeId (noticesOf proto arrived) ∧
      (api.recvLoop proto arrived).2 =
        { api with lastNoticeId := lastKey (fun x => x.2.messageId) api.lastNoticeId (noticesOf proto arrived) } := by
  induction arrived generalizing api with
  | nil => exact ⟨rfl, rfl⟩
  | cons c arrived ih =>
    obtain ⟨i, mp⟩ := c
    cases hnotice : asNotice proto mp with
    | none =>
      have hof : noticesOf proto ((i, mp) :: arrived) = noticesOf proto arrived := by simp [noticesOf, hnotice]
      rw [hof] at hids ⊢
      cases hmarket : asMarketData proto mp with
      | none =>
        rw [recvLoop_other hspi i arrived hmarket hnotice]
        exact ih hspi hids
      | some md =>
        rw [recvLoop_marketData hspi i arrived hmarket]
        exact ih hspi hids
    | some n =>
      have hof : noticesOf proto ((i, mp) :: arrived) = (i, n) :: noticesOf proto arrived := by
        simp [noticesOf, hnotice]
      rw [hof] at hids ⊢
      have hid : n.messageId ≠ 0 := hids (i, n) List.mem_cons_self
      have hrest : ∀ x ∈ noticesOf proto arrived, x.2.messageId ≠ 0 := fun x hx => hids x (List.mem_cons_of_mem _ hx)
      by_cases hdup : n.messageId = api.lastNoticeId
      · rw [recvLoop_duplicate hspi i arrived hnotice ⟨hid, hdup⟩, passed, if_pos hdup, lastKey, hdup]
        exact ih hspi hrest
      · rw [recvLoop_notice hspi i arrived hnotice fun h => hdup h.2, passed, if_neg hdup, lastKey]
        obtain ⟨hpassed, hlast⟩ := @ih { api with lastNoticeId := n.messageId } hspi hrest
        exact ⟨congrArg ((i, n) :: ·) hpassed, hlast⟩

/-! ## What a server sends -/

def CopyOf (proto : QuoteProto) : QuoteCall → Multipart → Prop
  | .publishMarketData symbol price volume now, mp =>
    mp = sendPubMessage (marketDataMessage proto ⟨symbol, price, volume, now⟩)
  | .publishNotice content now, mp => ∃ id, mp = sendPubMessage (noticeMessage proto ⟨content, now, id⟩)

theorem mem_publish {p : PubServer} {m : HeadTypeBody} {mp : Multipart} (h : mp ∈ p.publish m) :
    mp = sendPubMessage m := by
  unfold PubServer.publish at h
  split_ifs at h
  · exact List.eq_of_mem_replicate h
  · cases h

theorem copyOf_call {p : PubServer} {c : QuoteCall} {mp : Multipart} (h : mp ∈ (call proto p c).1) :
    CopyOf proto c mp := by
  cases c with
  | publishMarketData symbol price volume now => exact mem_publish h
  | publishNotice content now => exact ⟨_, mem_publish h⟩

theorem mem_sent {p : PubServer} {i : ℕ} {calls : List QuoteCall} {c : ℕ × Multipart}
    (hc : c ∈ sent proto p i calls) : i ≤ c.1 ∧ ∃ q, calls[c.1 - i]? = some q ∧ CopyOf proto q c.2 := by
  induction calls generalizing p i with
  | nil => cases hc
  | cons q calls ih =>
    obtain hc | hc := List.mem_append.mp hc
    · obtain ⟨mp, hmp, rfl⟩ := List.mem_map.mp hc
      exact ⟨le_rfl, q, by simp, copyOf_call hmp⟩
    · obtain ⟨hle, q', hq', hcopy⟩ := ih hc
      refine ⟨by omega, q', ?_, hcopy⟩
      rw [show c.1 - i = c.1 - (i + 1) + 1 by omega, List.getElem?_cons_succ]
      exact hq'

theorem noticesOf_replicate {i : ℕ} {mp : Multipart} {n : Notice} (h : asNotice proto mp = some n) (k : ℕ) :
    noticesOf proto ((List.replicate k mp).map fun mp => (i, mp)) = List.replicate k (i, n) := by
  induction k with
  | zero => rfl
  | succ k ih =>
    rw [List.replicate_succ, List.map_cons, List.replicate_succ]
    simp only [noticesOf, List.filterMap_cons, h, Option.map_some]
    exact congrArg _ ih

theorem noticesOf_copies (i : ℕ) (n : Notice) (k : ℕ) :
    noticesOf proto ((List.replicate k (sendPubMessage (noticeMessage proto n))).map fun mp => (i, mp)) <+
      List.replicate k (i, n) := by
  by_cases hvalid : n.Valid
  · rw [noticesOf_replicate (n := n) (by rw [asNotice_noticeMessage, if_pos hvalid])]
  · have hnone : noticesOf proto ((List.replicate k (sendPubMessage (noticeMessage proto n))).map fun mp => (i, mp)) =
        [] := by
      refine List.filterMap_eq_nil_iff.mpr fun c hc => ?_
      obtain ⟨mp, hmp, rfl⟩ := List.mem_map.mp hc
      rw [List.eq_of_mem_replicate hmp, asNotice_noticeMessage, if_neg hvalid]
      rfl
    rw [hnone]
    exact List.nil_sublist _

/-- Of the messages sent those that hold notices are copies of the notices published, next to each other. -/
theorem noticesOf_sent (p : PubServer) (i : ℕ) (calls : List QuoteCall) :
    noticesOf proto (sent proto p i calls) <+ copies PubServer.kRetryCount (notices p i calls) := by
  induction calls generalizing p i with
  | nil => exact .slnil
  | cons q calls ih =>
    have happend : noticesOf proto (sent proto p i (q :: calls)) =
        noticesOf proto ((call proto p q).1.map fun mp => (i, mp)) ++
          noticesOf proto (sent proto (call proto p q).2 (i + 1) calls) := List.filterMap_append
    rw [happend]
    cases q with
    | publishMarketData symbol price volume now =>
      have hnone : noticesOf proto ((call proto p (.publishMarketData symbol price volume now)).1.map
          fun mp => (i, mp)) = [] := by
        refine List.filterMap_eq_nil_iff.mpr fun c hc => ?_
        obtain ⟨mp, hmp, rfl⟩ := List.mem_map.mp hc
        rw [mem_publish hmp, asNotice_marketDataMessage]
        rfl
      rw [hnone, List.nil_append]
      exact ih p (i + 1)
    | publishNotice content now =>
      rw [notices, copies, List.flatMap_cons]
      refine List.Sublist.append ?_ (ih _ _)
      simp only [call, PubServer.publish]
      split_ifs
      · exact noticesOf_copies i _ _
      · exact List.nil_sublist _

/-- The copies that a client gets of what a fresh server sends: any of them may be lost. -/
def Arrives (proto : QuoteProto) (calls : List QuoteCall) (arrived : List (ℕ × Multipart)) : Prop :=
  arrived <+ sent proto .fresh 0 calls

theorem Arrives.noticesOf_sublist {calls : List QuoteCall} {arrived : List (ℕ × Multipart)}
    (h : Arrives proto calls arrived) :
    noticesOf proto arrived <+ copies PubServer.kRetryCount (notices .fresh 0 calls) :=
  (h.filterMap _).trans (noticesOf_sent _ _ _)

theorem Arrives.mem_noticesOf {calls : List QuoteCall} {arrived : List (ℕ × Multipart)}
    (h : Arrives proto calls arrived) (x : ℕ × Notice) :
    x ∈ noticesOf proto arrived ↔ (x.1, sendPubMessage (noticeMessage proto x.2)) ∈ arrived ∧ x.2.Valid := by
  constructor
  · intro hx
    obtain ⟨c, hc, hmap⟩ := List.mem_filterMap.mp hx
    obtain ⟨n, hn, rfl⟩ := Option.map_eq_some_iff.mp hmap
    obtain ⟨-, q, -, hcopy⟩ := mem_sent (h.subset hc)
    cases q with
    | publishMarketData symbol price volume now =>
      rw [hcopy, asNotice_marketDataMessage] at hn
      cases hn
    | publishNotice content now =>
      obtain ⟨id, hmp⟩ := hcopy
      rw [hmp, asNotice_noticeMessage] at hn
      split_ifs at hn with hvalid
      rw [← Option.some.inj hn, ← hmp]
      exact ⟨hc, hvalid⟩
  · rintro ⟨hx, hvalid⟩
    exact List.mem_filterMap.mpr ⟨_, hx, by rw [asNotice_noticeMessage, if_pos hvalid]; rfl⟩

/-- The notices of which a copy arrived. -/
def noticesArrived (proto : QuoteProto) (calls : List QuoteCall) (arrived : List (ℕ × Multipart)) : List (ℕ × Notice) :=
  (notices .fresh 0 calls).filter fun x => (x.1, sendPubMessage (noticeMessage proto x.2)) ∈ arrived

/-- Those that the client can parse. -/
def noticesParsed (proto : QuoteProto) (calls : List QuoteCall) (arrived : List (ℕ × Multipart)) : List (ℕ × Notice) :=
  (noticesArrived proto calls arrived).filter fun x => x.2.Valid

theorem Arrives.reached_eq {calls : List QuoteCall} {arrived : List (ℕ × Multipart)} (h : Arrives proto calls arrived) :
    reached (notices .fresh 0 calls) (noticesOf proto arrived) = noticesParsed proto calls arrived := by
  rw [noticesParsed, noticesArrived, List.filter_filter]
  refine List.filter_congr fun x _ => ?_
  rw [decide_eq_decide.mpr (h.mem_noticesOf x), Bool.decide_and, Bool.and_comm]

theorem noticesParsed_eq_iff {calls : List QuoteCall} {arrived : List (ℕ × Multipart)} :
    noticesParsed proto calls arrived = noticesArrived proto calls arrived ↔
      ∀ x ∈ noticesArrived proto calls arrived, x.2.Valid := by
  rw [noticesParsed, List.filter_eq_self]
  exact forall_congr' fun x => forall_congr' fun _ => decide_eq_true_iff

theorem Arrives.id_ne_zero {calls : List QuoteCall} {arrived : List (ℕ × Multipart)} (h : Arrives proto calls arrived)
    (hcount : (notices .fresh 0 calls).length < 2 ^ 64) {x : ℕ × Notice} (hx : x ∈ noticesOf proto arrived) :
    x.2.messageId ≠ 0 :=
  (notices_distinct hcount).2 x (mem_copies (h.noticesOf_sublist.subset hx))

/-! ## One server -/

theorem noticesPassed_eq {calls : List QuoteCall} {arrived : List (ℕ × Multipart)}
    (hcount : (notices .fresh 0 calls).length < 2 ^ 64) (h : Arrives proto calls arrived) :
    noticesPassed (recvLoop proto ⟨true, 0⟩ arrived).1 = noticesParsed proto calls arrived := by
  have hids : ∀ x ∈ noticesOf proto arrived, x.2.messageId ≠ 0 := fun x hx => h.id_ne_zero hcount hx
  rw [(recvLoop_noticesPassed rfl hids).1, ← h.reached_eq,
    passed_eq_reached_iff (notices_distinct hcount).1 h.noticesOf_sublist]
  intro hhead
  obtain ⟨x, hx, hzero⟩ := Option.map_eq_some_iff.mp hhead
  exact hids x (List.mem_of_mem_head? hx) hzero

/-- **A client passes on the notices of one server of which a copy arrives, each exactly once, in order and unchanged,
exactly when all of them are UTF-8.** -/
theorem notices_passed_once_iff {calls : List QuoteCall} {arrived : List (ℕ × Multipart)}
    (hcount : (notices .fresh 0 calls).length < 2 ^ 64) (h : Arrives proto calls arrived) :
    noticesPassed (recvLoop proto ⟨true, 0⟩ arrived).1 = noticesArrived proto calls arrived ↔
      ∀ x ∈ noticesArrived proto calls arrived, IsUtf8 x.2.content := by
  rw [noticesPassed_eq hcount h]
  exact noticesParsed_eq_iff

/-- The notices are UTF-8 when the calls' strings are. -/
theorem valid_of_mem_notices {p : PubServer} {i : ℕ} {calls : List QuoteCall}
    (h : ∀ content now, .publishNotice content now ∈ calls → IsUtf8 content) {x : ℕ × Notice}
    (hx : x ∈ notices p i calls) : IsUtf8 x.2.content := by
  induction calls generalizing p i with
  | nil => cases hx
  | cons c calls ih =>
    have hrest := fun content now hmem => h content now (List.mem_cons_of_mem c hmem)
    cases c with
    | publishMarketData symbol price volume now => exact ih hrest hx
    | publishNotice content now =>
      obtain rfl | hx := List.mem_cons.mp hx
      · exact h content now List.mem_cons_self
      · exact ih hrest hx

def halt : Notice := ⟨utf8 "halt", 7, 1⟩

def noticeCopy (i : ℕ) (n : Notice) : ℕ × Multipart := (i, sendPubMessage (noticeMessage quoteProto n))

def haltAndOpen : List QuoteCall := [.publishNotice (utf8 "halt") 7, .publishNotice (utf8 "open") 8]

/-- Of the first notice two copies arrive, and one of the second. -/
def haltTwice : List (ℕ × Multipart) := [noticeCopy 0 halt, noticeCopy 0 halt, noticeCopy 1 ⟨utf8 "open", 8, 2⟩]

theorem haltTwice_passed_once :
    noticesPassed (recvLoop quoteProto ⟨true, 0⟩ haltTwice).1 = [(0, halt), (1, ⟨utf8 "open", 8, 2⟩)] := by
  have harrives : Arrives quoteProto haltAndOpen haltTwice :=
    .cons_cons _ (.cons_cons _ (.cons _ (.cons_cons _ (List.nil_sublist _))))
  have hnotices : notices .fresh 0 haltAndOpen = [(0, halt), (1, ⟨utf8 "open", 8, 2⟩)] := rfl
  have hutf8 : ∀ x ∈ noticesArrived quoteProto haltAndOpen haltTwice, IsUtf8 x.2.content := by
    refine fun x hx => valid_of_mem_notices (fun content now hcall => ?_) (List.mem_of_mem_filter hx)
    simp only [haltAndOpen, List.mem_cons, QuoteCall.publishNotice.injEq, List.not_mem_nil, or_false] at hcall
    obtain ⟨rfl, -⟩ | ⟨rfl, -⟩ := hcall <;> exact isUtf8_utf8 _
  rw [(notices_passed_once_iff (by decide) harrives).mpr hutf8, noticesArrived, hnotices]
  simp [haltTwice, noticeCopy]

/-- The notice is published, all its copies arrive, and the client passes none on. -/
theorem notUtf8_not_passed :
    Arrives quoteProto [.publishNotice [0xff] 7] (List.replicate 3 (noticeCopy 0 ⟨[0xff], 7, 1⟩)) ∧
      noticesArrived quoteProto [.publishNotice [0xff] 7] (List.replicate 3 (noticeCopy 0 ⟨[0xff], 7, 1⟩)) =
        [(0, ⟨[0xff], 7, 1⟩)] ∧
      (recvLoop quoteProto ⟨true, 0⟩ (List.replicate 3 (noticeCopy 0 ⟨[0xff], 7, 1⟩))).1 = [] :=
  ⟨.refl _, by decide, by decide⟩

/-! ## Market data -/

def IsMarketData (calls : List QuoteCall) (i : ℕ) : Prop :=
  ∃ symbol price volume now, calls[i]? = some (.publishMarketData symbol price volume now)

/-- Every call of `PublishMarketData` leads to one callback at most, and to one if a copy of it arrives. -/
def MarketDataOnce (calls : List QuoteCall) (arrived : List (ℕ × Multipart)) (callbacks : List (ℕ × SpiCallback)) :
    Prop :=
  ∀ i, IsMarketData calls i →
    (marketDataPassed callbacks).countP (fun x => x.1 = i) ≤ 1 ∧
      ((∃ mp, (i, mp) ∈ arrived) → (marketDataPassed callbacks).countP (fun x => x.1 = i) = 1)

/-- Every copy of market data is passed on if the symbol is UTF-8, and none if it is not. -/
theorem Arrives.countP_marketDataOf {calls : List QuoteCall} {arrived : List (ℕ × Multipart)}
    (h : Arrives proto calls arrived) {i : ℕ} {symbol : Bytes} {price volume : UInt64} {now : Int64}
    (hcall : calls[i]? = some (.publishMarketData symbol price volume now)) :
    (marketDataOf proto arrived).countP (fun x => x.1 = i) =
      if IsUtf8 symbol then arrived.countP fun c => c.1 = i else 0 := by
  let md : MarketData := ⟨symbol, price, volume, now⟩
  have hcopies : ∀ c ∈ arrived, c.1 = i → asMarketData proto c.2 = if IsUtf8 symbol then some md else none := by
    intro c hc hci
    obtain ⟨-, q, hq, hcopy⟩ := mem_sent (h.subset hc)
    rw [Nat.sub_zero, hci, hcall] at hq
    obtain rfl := Option.some.inj hq
    rw [hcopy, asMarketData_marketDataMessage]
    rfl
  clear h
  induction arrived with
  | nil => simp [marketDataOf]
  | cons c arrived ih =>
    have hrest := ih fun c' hc' => hcopies c' (List.mem_cons_of_mem _ hc')
    by_cases hci : c.1 = i
    · have hmd := hcopies c List.mem_cons_self hci
      by_cases hvalid : IsUtf8 symbol
      · rw [if_pos hvalid] at hmd hrest ⊢
        rw [List.countP_cons, ← hrest]
        simp [marketDataOf, hmd, hci]
      · rw [if_neg hvalid] at hmd hrest ⊢
        rw [← hrest]
        simp [marketDataOf, hmd]
    · have hskip : (marketDataOf proto (c :: arrived)).countP (fun x => x.1 = i) =
          (marketDataOf proto arrived).countP fun x => x.1 = i := by
        cases hmd : asMarketData proto c.2 with
        | none => simp [marketDataOf, hmd]
        | some md => simp [marketDataOf, hmd, hci]
      rw [hskip, hrest, List.countP_cons]
      simp [hci]

/-- **Market data are delivered once exactly when no call has more than one copy arrive, and none of a call whose symbol
is not UTF-8.** -/
theorem marketDataOnce_iff {calls : List QuoteCall} {arrived : List (ℕ × Multipart)} (h : Arrives proto calls arrived)
    (last : UInt64) :
    MarketDataOnce calls arrived (recvLoop proto ⟨true, last⟩ arrived).1 ↔
      ∀ i symbol price volume now, calls[i]? = some (.publishMarketData symbol price volume now) →
        arrived.countP (fun c => c.1 = i) ≤ if IsUtf8 symbol then 1 else 0 := by
  have hsome : ∀ i, (∃ mp, (i, mp) ∈ arrived) ↔ 0 < arrived.countP fun c => c.1 = i := by
    intro i
    rw [List.countP_pos_iff]
    constructor
    · rintro ⟨mp, hmp⟩
      exact ⟨(i, mp), hmp, by simp⟩
    · rintro ⟨⟨j, mp⟩, hc, hj⟩
      exact ⟨mp, of_decide_eq_true hj ▸ hc⟩
  constructor
  · intro honce i symbol price volume now hcall
    obtain ⟨hmost, hone⟩ := honce i ⟨symbol, price, volume, now, hcall⟩
    rw [recvLoop_marketDataPassed rfl, h.countP_marketDataOf hcall, hsome] at hone
    rw [recvLoop_marketDataPassed rfl, h.countP_marketDataOf hcall] at hmost
    split_ifs at hmost hone ⊢
    · exact hmost
    · by_contra hsome
      exact absurd (hone (Nat.pos_of_ne_zero fun hzero => hsome (Nat.le_zero.mpr hzero))) (by decide)
  · rintro hfew i ⟨symbol, price, volume, now, hcall⟩
    have hfew := hfew i symbol price volume now hcall
    rw [recvLoop_marketDataPassed rfl, h.countP_marketDataOf hcall, hsome]
    split_ifs at hfew ⊢
    · exact ⟨hfew, fun hpos => by omega⟩
    · exact ⟨Nat.zero_le 1, fun hpos => by omega⟩

def tick : MarketData := ⟨utf8 "BTC-USDT", 0, 0, 7⟩

def publishTick : QuoteCall := .publishMarketData (utf8 "BTC-USDT") 0 0 7

def tickCopy (i : ℕ) : ℕ × Multipart := (i, sendPubMessage (marketDataMessage quoteProto tick))

theorem tick_once :
    MarketDataOnce [publishTick, publishTick] [tickCopy 0, tickCopy 1]
      (recvLoop quoteProto ⟨true, 0⟩ [tickCopy 0, tickCopy 1]).1 := by
  have harrives : Arrives quoteProto [publishTick, publishTick] [tickCopy 0, tickCopy 1] :=
    .cons _ (.cons _ (.cons_cons _ (.cons _ (.cons _ (.refl _)))))
  refine (marketDataOnce_iff harrives 0).mpr fun i symbol price volume now hcall => ?_
  have hsymbol : symbol = utf8 "BTC-USDT" := by
    have hmem := List.mem_of_getElem? hcall
    simp only [publishTick, List.mem_cons, QuoteCall.publishMarketData.injEq, List.not_mem_nil, or_false, or_self] at hmem
    exact hmem.1
  have hone : List.countP (fun c => decide (c.1 = i)) [tickCopy 0, tickCopy 1] ≤ 1 := by
    simp only [tickCopy, List.countP_cons, List.countP_nil, decide_eq_true_eq]
    split_ifs <;> omega
  rwa [hsymbol, if_pos (isUtf8_utf8 _)]

/-- Nothing is lost: the user gets the same data three times. -/
theorem tick_three_times :
    Arrives quoteProto [publishTick] (List.replicate 3 (tickCopy 0)) ∧
      (recvLoop quoteProto ⟨true, 0⟩ (List.replicate 3 (tickCopy 0))).1 = List.replicate 3 (0, .onMarketData tick) ∧
      ¬ MarketDataOnce [publishTick] (List.replicate 3 (tickCopy 0))
        (recvLoop quoteProto ⟨true, 0⟩ (List.replicate 3 (tickCopy 0))).1 := by
  have hmarket : asMarketData quoteProto (tickCopy 0).2 = some tick := by
    rw [tickCopy, asMarketData_marketDataMessage]
    exact if_pos (isUtf8_utf8 _)
  have hspi : hasSpi ⟨true, 0⟩ = true := rfl
  have hcallbacks : (recvLoop quoteProto ⟨true, 0⟩ (List.replicate 3 (tickCopy 0))).1 =
      List.replicate 3 (0, .onMarketData tick) := by
    simp only [List.replicate, tickCopy] at hmarket ⊢
    rw [recvLoop_marketData hspi 0 _ hmarket, recvLoop_marketData hspi 0 _ hmarket,
      recvLoop_marketData hspi 0 _ hmarket, recvLoop]
  refine ⟨.refl _, hcallbacks, fun honce => ?_⟩
  rw [hcallbacks] at honce
  exact absurd (honce 0 ⟨_, _, _, _, rfl⟩).1 (by decide)

/-! ## Servers one after another -/

structure Lifetime where
  calls : List QuoteCall
  arrived : List (ℕ × Multipart)

/-- The callbacks of one client for what arrives from each server. -/
def recvEach (proto : QuoteProto) : QuoteApi → List Lifetime → List (List (ℕ × SpiCallback))
  | _, [] => []
  | api, l :: later => (api.recvLoop proto l.arrived).1 :: recvEach proto (api.recvLoop proto l.arrived).2 later

/-- Every notice of which a copy arrives is passed on. -/
def AllPassed (proto : QuoteProto) (api : QuoteApi) (lifetimes : List Lifetime) : Prop :=
  (recvEach proto api lifetimes).map noticesPassed = lifetimes.map fun l => noticesArrived proto l.calls l.arrived

theorem recvEach_noticesPassed (hspi : api.hasSpi = true) {lifetimes : List Lifetime}
    (hids : ∀ l ∈ lifetimes, ∀ x ∈ noticesOf proto l.arrived, x.2.messageId ≠ 0) :
    (recvEach proto api lifetimes).map noticesPassed =
      passedEach (fun x => x.2.messageId) api.lastNoticeId (lifetimes.map fun l => noticesOf proto l.arrived) := by
  induction lifetimes generalizing api with
  | nil => rfl
  | cons l later ih =>
    obtain ⟨hpassed, hlast⟩ := recvLoop_noticesPassed hspi (hids l List.mem_cons_self)
    have hlater := @ih (api.recvLoop proto l.arrived).2 (by rw [hlast]; exact hspi)
      fun l' hl' => hids l' (List.mem_cons_of_mem _ hl')
    rw [recvEach, List.map_cons, List.map_cons, passedEach, hpassed, hlater, hlast]

/-- **Across restarts every notice is passed on exactly when all of them are UTF-8 and what arrives first from each server
has another id than what came last before.** -/
theorem allPassed_iff {lifetimes : List Lifetime}
    (h : ∀ l ∈ lifetimes, (notices .fresh 0 l.calls).length < 2 ^ 64 ∧ Arrives proto l.calls l.arrived) (last : UInt64) :
    AllPassed proto ⟨true, last⟩ lifetimes ↔
      (∀ l ∈ lifetimes, ∀ x ∈ noticesArrived proto l.calls l.arrived, IsUtf8 x.2.content) ∧
        Apart (fun x => x.2.messageId) last (lifetimes.map fun l => noticesOf proto l.arrived) := by
  have hids : ∀ l ∈ lifetimes, ∀ x ∈ noticesOf proto l.arrived, x.2.messageId ≠ 0 :=
    fun l hl x hx => (h l hl).2.id_ne_zero (h l hl).1 hx
  have hparsed : lifetimes.map (fun l => noticesParsed proto l.calls l.arrived) =
      (lifetimes.map fun l => (notices .fresh 0 l.calls, noticesOf proto l.arrived)).map fun s => reached s.1 s.2 := by
    rw [List.map_map]
    exact List.map_congr_left fun l hl => (h l hl).2.reached_eq.symm
  have hsnd : (lifetimes.map fun l => noticesOf proto l.arrived) =
      (lifetimes.map fun l => (notices .fresh 0 l.calls, noticesOf proto l.arrived)).map Prod.snd := by
    rw [List.map_map]
    rfl
  -- what is passed on has been parsed
  have hvalid : AllPassed proto ⟨true, last⟩ lifetimes → ∀ l ∈ lifetimes,
      ∀ x ∈ noticesArrived proto l.calls l.arrived, IsUtf8 x.2.content := by
    intro hpassed l hl x hx
    have hsubset : List.Forall₂ (fun passed arrived => passed ⊆ arrived)
        ((recvEach proto ⟨true, last⟩ lifetimes).map noticesPassed)
        (lifetimes.map fun l => noticesOf proto l.arrived) := by
      rw [recvEach_noticesPassed rfl hids]
      exact passedEach_subset last _
    rw [hpassed, List.forall₂_map_left_iff,
      List.forall₂_map_right_iff, List.forall₂_same] at hsubset
    exact (((h l hl).2.mem_noticesOf x).mp (hsubset l hl hx)).2
  have happly : (∀ l ∈ lifetimes, ∀ x ∈ noticesArrived proto l.calls l.arrived, IsUtf8 x.2.content) →
      (AllPassed proto ⟨true, last⟩ lifetimes ↔
        Apart (fun x => x.2.messageId) last (lifetimes.map fun l => noticesOf proto l.arrived)) := by
    intro hutf8
    have harrived : lifetimes.map (fun l => noticesArrived proto l.calls l.arrived) =
        lifetimes.map fun l => noticesParsed proto l.calls l.arrived :=
      List.map_congr_left fun l hl => (noticesParsed_eq_iff.mpr (hutf8 l hl)).symm
    rw [AllPassed, harrived, recvEach_noticesPassed rfl hids, hparsed, hsnd]
    apply passedEach_eq_iff
    intro s hs
    obtain ⟨l, hl, rfl⟩ := List.mem_map.mp hs
    exact ⟨(notices_distinct (h l hl).1).1, (h l hl).2.noticesOf_sublist⟩
  constructor
  · intro hpassed
    exact ⟨hvalid hpassed, (happly (hvalid hpassed)).mp hpassed⟩
  · rintro ⟨hutf8, hapart⟩
    exact (happly hutf8).mpr hapart

theorem noticesOf_noticeCopy (i : ℕ) {n : Notice} (h : n.Valid) : noticesOf quoteProto [noticeCopy i n] = [(i, n)] := by
  simp [noticesOf, noticeCopy, asNotice_noticeMessage, h]

/-- A server publishes one notice and stops; the next one publishes two, and only the second arrives. -/
def firstLost : List Lifetime :=
  [⟨[.publishNotice (utf8 "halt") 7], [noticeCopy 0 halt]⟩,
    ⟨[.publishNotice (utf8 "open") 8, .publishNotice (utf8 "close") 9], [noticeCopy 1 ⟨utf8 "close", 9, 2⟩]⟩]

theorem firstLost_allPassed : AllPassed quoteProto ⟨true, 0⟩ firstLost := by
  have harrives : ∀ l ∈ firstLost, (notices .fresh 0 l.calls).length < 2 ^ 64 ∧ Arrives quoteProto l.calls l.arrived := by
    intro l hl
    obtain rfl | hl := List.mem_cons.mp hl
    · exact ⟨by decide, .cons _ (.cons _ (.refl _))⟩
    · obtain rfl := List.mem_singleton.mp hl
      exact ⟨by decide, .cons _ (.cons _ (.cons _ (.cons _ (.cons _ (.refl _)))))⟩
  have hutf8 : ∀ l ∈ firstLost, ∀ content now, .publishNotice content now ∈ l.calls → IsUtf8 content := by
    intro l hl content now hcall
    simp only [firstLost, List.mem_cons, List.not_mem_nil, or_false] at hl
    obtain rfl | rfl := hl
    all_goals simp only [List.mem_cons, QuoteCall.publishNotice.injEq, List.not_mem_nil, or_false] at hcall
    · rw [hcall.1]
      exact isUtf8_utf8 _
    · obtain ⟨rfl, -⟩ | ⟨rfl, -⟩ := hcall <;> exact isUtf8_utf8 _
  refine (allPassed_iff harrives 0).mpr
    ⟨fun l hl x hx => valid_of_mem_notices (hutf8 l hl) (List.mem_of_mem_filter hx), ?_⟩
  have hhalt : noticesOf quoteProto [noticeCopy 0 halt] = [(0, halt)] := noticesOf_noticeCopy 0 (isUtf8_utf8 _)
  have hclose : noticesOf quoteProto [noticeCopy 1 ⟨utf8 "close", 9, 2⟩] = [(1, ⟨utf8 "close", 9, 2⟩)] :=
    noticesOf_noticeCopy 1 (isUtf8_utf8 _)
  simp only [firstLost, List.map_cons, List.map_nil, hhalt, hclose]
  simp [Apart, lastKey, halt]

/-- A server publishes one notice and stops, and the next one publishes another: both have the id 1. -/
def restarted : List Lifetime :=
  [⟨[.publishNotice (utf8 "halt") 7], [noticeCopy 0 halt]⟩,
    ⟨[.publishNotice (utf8 "open") 8], [noticeCopy 0 ⟨utf8 "open", 8, 1⟩]⟩]

theorem restarted_suppressed :
    (∀ l ∈ restarted, (notices .fresh 0 l.calls).length < 2 ^ 64 ∧ Arrives quoteProto l.calls l.arrived) ∧
      recvEach quoteProto ⟨true, 0⟩ restarted = [[(0, .onNotice halt)], []] ∧
      ¬ AllPassed quoteProto ⟨true, 0⟩ restarted := by
  have hhalt : asNotice quoteProto (sendPubMessage (noticeMessage quoteProto halt)) = some halt := by
    rw [asNotice_noticeMessage]
    exact if_pos (isUtf8_utf8 _)
  have hopen : asNotice quoteProto (sendPubMessage (noticeMessage quoteProto ⟨utf8 "open", 8, 1⟩)) =
      some ⟨utf8 "open", 8, 1⟩ := by
    rw [asNotice_noticeMessage]
    exact if_pos (isUtf8_utf8 _)
  have hbefore : hasSpi ⟨true, 0⟩ = true := rfl
  have hafter : hasSpi ⟨true, 1⟩ = true := rfl
  have heach : recvEach quoteProto ⟨true, 0⟩ restarted = [[(0, .onNotice halt)], []] := by
    simp only [restarted, recvEach, noticeCopy]
    rw [recvLoop_notice hbefore 0 _ hhalt (by decide), recvLoop]
    simp only [halt]
    rw [recvLoop_duplicate hafter 0 _ hopen (by decide), recvLoop]
  refine ⟨fun l hl => ?_, heach, fun hall => ?_⟩
  · obtain rfl | hl := List.mem_cons.mp hl
    · exact ⟨by decide, .cons _ (.cons _ (.refl _))⟩
    · obtain rfl := List.mem_singleton.mp hl
      exact ⟨by decide, .cons _ (.cons _ (.refl _))⟩
  · rw [AllPassed, heach] at hall
    have hsecond := congrArg (fun l => l.getLast?) hall
    simp [restarted, noticesArrived, notices, noticesPassed, noticeCopy, PubServer.nextMessageId,
      PubServer.fresh] at hsecond

end QuoteApi
end Chater.Zmq
