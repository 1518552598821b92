import Chater.Foundations.SharedCounter
import Chater.Zmq.TradeAnswers
import Chater.Zmq.TradeHandler
import Chater.Zmq.TradeReplies

/-!
# The trade server

The trade gateway with `MyTradeHandler`, as the server program runs them.  The workers call one handler, whose
`nextOrderId_` they increment without a lock: the load and the store of `++nextOrderId_` are steps of their own.

Whatever the interleaving, each message that is routed to an identity answers a message which `RecvRouterMessage` has
returned with that identity, and no other reply answers that message.  The answer to a request carries the request's id,
and the client hands it to the callback of the request's kind.  The order ids that clients read are those that the
handler was given, each for one order.
-/

namespace Chater.Zmq

open Foundations Messages SharedWire SharedWire.Senders

set_option autoImplicit false

/-! ## The server -/

/-- `orders` is `nextOrderId_` with the increments under way. -/
structure TradeServer where
  gateway : TradeGateway
  orders : Counter Thread UInt64

namespace TradeServer

def start : TradeServer := ⟨.start, .start 1000⟩

/-- `handle` is a whole call of the handler for a request that places no order; for one that does, the handler reads
`nextOrderId_` and then stores it and returns. -/
inductive Event
  | gateway (e : TradeGateway.Event)
  | loadOrderId (t : Thread)
  | storeOrderId (t : Thread)
  | handle (t : Thread)

variable (proto : TradeProto)

def parses (kind : TradeRequest) (body : Frame) : Bool := ((proto.request kind).parseFromArray body).isSome

/-- The handler has returned true with the response for `m`. -/
def respond (cfg : GatewayConfig) (s : TradeServer) (t : Thread) (orderId : UInt64) (kind : TradeRequest)
    (m : Received) : Option TradeServer :=
  (MyTradeHandler.replyBody proto orderId kind m.body).bind fun body =>
    (s.gateway.step (parses proto) cfg (.handle t (some body))).map fun g => { s with gateway := g }

def step (cfg : GatewayConfig) (s : TradeServer) : Event → Option TradeServer
  | .gateway (.handle _ _) => none
  | .gateway e => (s.gateway.step (parses proto) cfg e).map fun g => { s with gateway := g }
  | .loadOrderId t =>
    match s.gateway.phase t with
    | .handling .placeOrder _ => (s.orders.apply (· + 1) (.load t)).map fun orders => { s with orders := orders }
    | _ => none
  | .storeOrderId t =>
    match s.gateway.phase t with
    | .handling .placeOrder m =>
      (s.orders.apply (· + 1) (.store t)).bind fun orders =>
        { s with orders := orders }.respond proto cfg t orders.value .placeOrder m
    | _ => none
  | .handle t =>
    match s.gateway.phase t with
    | .handling .placeOrder _ => none
    | .handling kind m => s.respond proto cfg t s.orders.value kind m
    | _ => none

/-! ### What a step can do -/

inductive Stepped (cfg : GatewayConfig) (s : TradeServer) : Event → TradeServer → Prop
  | gateway (e : TradeGateway.Event) (g : TradeGateway) (hother : ∀ t response, e ≠ .handle t response)
      (hstep : s.gateway.step (parses proto) cfg e = some g) : Stepped cfg s (.gateway e) { s with gateway := g }
  | load (t : Thread) (orders : Counter Thread UInt64) (hload : s.orders.apply (· + 1) (.load t) = some orders) :
      Stepped cfg s (.loadOrderId t) { s with orders := orders }
  | order (t : Thread) (m : Received) (orders : Counter Thread UInt64) (body : Frame) (g : TradeGateway)
      (hphase : s.gateway.phase t = .handling .placeOrder m)
      (hstore : s.orders.apply (· + 1) (.store t) = some orders)
      (hbody : MyTradeHandler.replyBody proto orders.value .placeOrder m.body = some body)
      (hstep : s.gateway.step (parses proto) cfg (.handle t (some body)) = some g) :
      Stepped cfg s (.storeOrderId t) ⟨g, orders⟩
  | answer (t : Thread) (kind : TradeRequest) (m : Received) (body : Frame) (g : TradeGateway)
      (hphase : s.gateway.phase t = .handling kind m) (hother : kind ≠ .placeOrder)
      (hbody : MyTradeHandler.replyBody proto s.orders.value kind m.body = some body)
      (hstep : s.gateway.step (parses proto) cfg (.handle t (some body)) = some g) :
      Stepped cfg s (.handle t) { s with gateway := g }

variable {proto} {cfg : GatewayConfig} {s s' : TradeServer}

theorem respond_spec {t : Thread} {orderId : UInt64} {kind : TradeRequest} {m : Received}
    (h : s.respond proto cfg t orderId kind m = some s') :
    ∃ body g, MyTradeHandler.replyBody proto orderId kind m.body = some body ∧
      s.gateway.step (parses proto) cfg (.handle t (some body)) = some g ∧ s' = { s with gateway := g } := by
  obtain ⟨body, hbody, hrest⟩ := Option.bind_eq_some_iff.mp h
  obtain ⟨g, hg, rfl⟩ := Option.map_eq_some_iff.mp hrest
  exact ⟨body, g, hbody, hg, rfl⟩

theorem stepped_of_step {e : Event} (h : step proto cfg s e = some s') : Stepped proto cfg s e s' := by
  cases e with
  | gateway e =>
    cases e with
    | handle t response => cases h
    | shutdownPool =>
      obtain rfl := Option.some.inj h
      exact .gateway _ _ (fun _ _ => TradeGateway.Event.noConfusion) rfl
    | poll | take | enter | reply | frame | exitLoop | stop =>
      obtain ⟨g, hg, rfl⟩ := Option.map_eq_some_iff.mp h
      exact .gateway _ g (fun _ _ => TradeGateway.Event.noConfusion) hg
  | loadOrderId t =>
    simp only [step] at h
    split at h
    · obtain ⟨orders, horders, rfl⟩ := Option.map_eq_some_iff.mp h
      exact .load t orders horders
    · cases h
  | storeOrderId t =>
    simp only [step] at h
    split at h
    · rename_i m hphase
      obtain ⟨orders, hstore, hrest⟩ := Option.bind_eq_some_iff.mp h
      obtain ⟨body, g, hbody, hg, rfl⟩ := respond_spec hrest
      exact .order t m orders body g hphase hstore hbody hg
    · cases h
  | handle t =>
    simp only [step] at h
    split at h
    · cases h
    · rename_i kind m hother hphase
      obtain ⟨body, g, hbody, hg, rfl⟩ := respond_spec h
      exact .answer t kind m body g hphase hother hbody hg
    · cases h

/-! ## Order ids -/

def orderFrom (identity : UInt8) : Event :=
  .gateway (.poll (.message 0 ⟨TradeApi.request tradeProto .placeOrder ⟨3, utf8 "ETH", 1, 2, 0, 0⟩, [identity]⟩))

variable (proto) in
/-- The reply is a pong for a ping, or what the client reads in it is the handler's response to the request. -/
def Responds (m reply : HeadTypeBody) : Prop :=
  reply.head = m.head ∧
    (m.msgType = kPingType ∧ reply.toTypeBody = ⟨kPongType, []⟩ ∨
      ∃ kind req orderId call, m.msgType = kind.msgType ∧ (proto.request kind).parseFromArray m.body = some req ∧
        call = SpiCall.ofResponse kind (MyTradeHandler.respond orderId kind req) ∧
        call.requestId = kind.requestId req ∧ TradeApi.onMessage proto reply.toTypeBody = some call)

variable (proto) in
/-- The order id that the client reads in the reply to an order. -/
def orderIdRead (reply : HeadTypeBody) : Option UInt64 :=
  match TradeApi.onMessage proto reply.toTypeBody with
  | some (.onPlaceOrder rsp) => some rsp.orderId
  | _ => none

theorem responds_pong {m : HeadTypeBody} (hping : m.msgType = kPingType) :
    Responds proto m ⟨⟨kPongType, []⟩, m.head⟩ := ⟨rfl, .inl ⟨hping, rfl⟩⟩

theorem responds_of_replyBody {m : HeadTypeBody} {kind : TradeRequest} {orderId : UInt64} {body : Frame}
    (hkind : m.msgType = kind.msgType) (hbody : MyTradeHandler.replyBody proto orderId kind m.body = some body) :
    Responds proto m ⟨⟨kind.replyType, body⟩, m.head⟩ ∧
      orderIdRead proto ⟨⟨kind.replyType, body⟩, m.head⟩ = if kind = .placeOrder then some orderId else none := by
  obtain ⟨req, hreq, rfl⟩ := Option.map_eq_some_iff.mp hbody
  have hread := TradeApi.onMessage_respond proto orderId kind req
  refine ⟨⟨rfl, .inr ⟨kind, req, orderId, _, hkind, hreq, rfl, requestId_ofResponse_respond orderId kind req, hread⟩⟩, ?_⟩
  rw [orderIdRead, hread]
  cases kind <;> rfl

/-- Every reply made is paired with the message it responds to, and the order ids in the replies are those given. -/
def Paired (proto : TradeProto) (cfg : GatewayConfig) (s : TradeServer) : Prop :=
  ∃ pairs lost dropped, s.gateway.Booked cfg pairs lost dropped ∧ (∀ p ∈ pairs, Responds proto p.1.toHeadTypeBody p.2) ∧
    pairs.filterMap (fun p => orderIdRead proto p.2) = s.orders.given

/-- A step of the gateway, and what the handler is given in it. -/
theorem Paired.gateway {e : TradeGateway.Event} {g : TradeGateway} {orders : Counter Thread UInt64} {ids : List UInt64}
    (h : s.Paired proto cfg) (hstep : s.gateway.step (parses proto) cfg e = some g)
    (hgiven : orders.given = s.orders.given ++ ids)
    (hresponds : ∀ p ∈ s.gateway.madeIn e, Responds proto p.1.toHeadTypeBody p.2)
    (hread : (s.gateway.madeIn e).filterMap (fun p => orderIdRead proto p.2) = ids) : Paired proto cfg ⟨g, orders⟩ := by
  obtain ⟨pairs, lost, dropped, hbooked, hpairs, hids⟩ := h
  obtain ⟨new, gone, hg, -, -⟩ := hbooked.stepped (TradeGateway.stepped_of_step _ hstep)
  refine ⟨_, _, _, hg, fun p hp => ?_, ?_⟩
  · exact (Multiset.mem_add.mp hp).elim (hpairs p) (hresponds p)
  · rw [Multiset.filterMap_add, hids, hread, hgiven, Multiset.coe_add]

theorem Paired.stepped {e : Event} (h : s.Paired proto cfg) (hstep : Stepped proto cfg s e s') : s'.Paired proto cfg := by
  have hkinds : ∀ t kind m, s.gateway.phase t = .handling kind m → m.msgType = kind.msgType := by
    obtain ⟨pairs, lost, dropped, hbooked, -, -⟩ := h
    exact hbooked.kinds
  cases hstep with
  | gateway e g hother hstep =>
    have hpong : ∀ p ∈ s.gateway.madeIn e, p.1.msgType = kPingType ∧ p.2 = ⟨⟨kPongType, []⟩, p.1.head⟩ :=
      fun p hp => (TradeGateway.mem_madeIn hp).resolve_right fun ⟨t, kind, body, he, _⟩ => hother t _ he
    refine h.gateway hstep (List.append_nil _).symm (fun p hp => ?_) ?_
    · rw [(hpong p hp).2]
      exact responds_pong (hpong p hp).1
    · refine Multiset.eq_zero_of_forall_notMem fun orderId hmem => ?_
      obtain ⟨p, hp, hread⟩ := (Multiset.mem_filterMap _ _).mp hmem
      rw [(hpong p hp).2] at hread
      cases hread
  | load t orders hload =>
    obtain ⟨-, rfl⟩ := Counter.load_spec hload
    exact h
  | order t m orders body g hphase hstore hbody hstep =>
    obtain ⟨hresponds, hread⟩ := responds_of_replyBody (hkinds t _ m hphase) hbody
    obtain ⟨v, hloaded, rfl⟩ := Counter.store_spec hstore
    refine h.gateway hstep rfl (fun p hp => ?_) ?_
    · rw [TradeGateway.madeIn_handle hphase, Multiset.mem_singleton] at hp
      rw [hp]
      exact hresponds
    · rw [TradeGateway.madeIn_handle hphase]
      exact Multiset.filterMap_cons_some _ _ 0 hread
  | answer t kind m body g hphase hother hbody hstep =>
    obtain ⟨hresponds, hread⟩ := responds_of_replyBody (hkinds t _ m hphase) hbody
    refine h.gateway hstep (List.append_nil _).symm (fun p hp => ?_) ?_
    · rw [TradeGateway.madeIn_handle hphase, Multiset.mem_singleton] at hp
      rw [hp]
      exact hresponds
    · rw [if_neg hother] at hread
      rw [TradeGateway.madeIn_handle hphase]
      exact Multiset.filterMap_cons_none _ 0 hread

theorem paired_of_run {es : List Event} (hrun : runFrom (step proto cfg) start es = some s) : s.Paired proto cfg :=
  invariant_of_run (fun _ _ _ h hstep => h.stepped (stepped_of_step hstep))
    ⟨0, 0, 0, TradeGateway.start_booked, by simp, rfl⟩ hrun

/-! ### On the socket -/

def frameOf : Event → Option (Thread × Bool)
  | .gateway (.frame t taken) => some (t, taken)
  | _ => none

theorem step_drives (proto : TradeProto) (cfg : GatewayConfig) :
    Drives routerFormat (fun s => s.gateway.out) frameOf (step proto cfg) := by
  intro s e s' h
  cases stepped_of_step h with
  | gateway e g hother hstep =>
    have hcase := TradeGateway.step_drives _ cfg _ _ _ hstep
    cases e with
    | frame t taken => exact hcase
    | poll | take | enter | handle | reply | exitLoop | stop | shutdownPool => exact hcase
  | load t orders hload => exact .inl rfl
  | order t m orders body g hphase hstore hbody hstep => exact TradeGateway.step_drives _ cfg _ _ _ hstep
  | answer t kind m body g hphase hother hbody hstep => exact TradeGateway.step_drives _ cfg _ _ _ hstep

/-- No frame is refused, and none is sent between those of another thread's reply. -/
def OneAtATime : TradeServer → Event → Prop := Separate routerFormat (fun s => s.gateway.out) frameOf

end TradeServer

/-- Some of the elements of a multiset map to those of a smaller image. -/
theorem exists_le_map_eq {A B : Type} {f : A → B} {s : Multiset B} {t : Multiset A} (h : s ≤ t.map f) :
    ∃ u ≤ t, u.map f = s := by
  induction s using Quotient.inductionOn with | _ s => ?_
  induction t using Quotient.inductionOn with | _ t => ?_
  obtain ⟨l, hperm, hsub⟩ := h
  obtain ⟨l', hl', rfl⟩ := List.sublist_map_iff.mp hsub
  exact ⟨l', hl'.subperm, Multiset.coe_eq_coe.mpr hperm⟩

namespace TradeServer

variable {proto : TradeProto} {cfg : GatewayConfig} {s : TradeServer}

/-- **Each message routed to an identity answers one message received with that identity.**  This holds in every run in
which replies are not mixed on the socket.  No other reply answers that message.  The answer to a request is read by the
client as the handler's response to it, with the request's id, and the order ids that clients read are among those that
`++nextOrderId_` has given, each as often at most as it was given. -/
theorem routed_replies_respond {es : List Event} (hrun : runFrom (step proto cfg) start es = some s)
    (hone : Meets (step proto cfg) OneAtATime start es) :
    ∃ pairs : Multiset (Received × HeadTypeBody), pairs.map Prod.fst ≤ s.gateway.received ∧
      (TradeGateway.routed s.gateway.out.wire : Multiset (Identity × List Frame)) =
        pairs.map (fun p => (p.1.head, [typeFrame p.2.msgType, p.2.body])) ∧
      (∀ p ∈ pairs, Responds proto p.1.toHeadTypeBody p.2) ∧
      pairs.filterMap (fun p => orderIdRead proto p.2) ≤ s.orders.given := by
  have hdrives := step_drives proto cfg
  have hclean := hdrives.clean_of_meets rfl hone hrun
  have hreaches := (TradeGateway.repliesUnmixed_of_unmixed (s := s.gateway)
    (hclean.unmixed (hdrives.sound_of_run rfl hrun))).reaches
  obtain ⟨pairs, lost, dropped, hbooked, hpairs, hids⟩ := paired_of_run hrun
  have hsent : s.gateway.sent ≤ pairs.map Prod.snd := by
    rw [hbooked.replies, TradeGateway.replies, add_assoc]
    exact Multiset.le_add_right _ _
  obtain ⟨answered, hle, hanswered⟩ := exists_le_map_eq hsent
  have hresponds : ∀ p ∈ answered, Responds proto p.1.toHeadTypeBody p.2 :=
    fun p hp => hpairs p (Multiset.mem_of_le hle hp)
  refine ⟨answered, ?_, ?_, hresponds, ?_⟩
  · rw [hbooked.messages, add_assoc]
    exact (Multiset.map_le_map hle).trans (Multiset.le_add_right _ _)
  · rw [Multiset.coe_eq_coe.mpr hreaches]
    have hhead : answered.map (fun p => (p.1.head, [typeFrame p.2.msgType, p.2.body])) =
        (answered.map Prod.snd).map fun reply => (reply.head, [typeFrame reply.msgType, reply.body]) := by
      rw [Multiset.map_map]
      exact Multiset.map_congr rfl fun p hp => by rw [Function.comp_apply, (hresponds p hp).1]
    rw [hhead, hanswered, TradeGateway.sent, Multiset.map_coe, List.map_map]
    rfl
  · rw [← hids]
    exact Multiset.filterMap_le_filterMap _ hle

def pingFrom (identity : UInt8) : List Event :=
  [.gateway (.poll (.message 0 ⟨⟨kPingType, []⟩, [identity]⟩)), .gateway (.frame .dispatch true),
    .gateway (.frame .dispatch true), .gateway (.frame .dispatch true)]

def orderAnswered : List Event :=
  [orderFrom 2, .gateway (.take 0), .gateway (.enter (.worker 0)), .loadOrderId (.worker 0), .storeOrderId (.worker 0),
    .gateway (.reply (.worker 0)), .gateway (.frame (.worker 0) true), .gateway (.frame (.worker 0) true),
    .gateway (.frame (.worker 0) true)]

theorem ping_and_order_respond :
    ∃ s, runFrom (step tradeProto TradeGateway.twoWorkers) start (pingFrom 1 ++ orderAnswered) = some s ∧
      (TradeGateway.routed s.gateway.out.wire).map Prod.fst = [[1], [2]] ∧ s.orders.given = [1001] ∧
      ∃ pairs : Multiset (Received × HeadTypeBody), pairs.map Prod.fst ≤ s.gateway.received ∧
        (TradeGateway.routed s.gateway.out.wire : Multiset (Identity × List Frame)) =
          pairs.map (fun p => (p.1.head, [typeFrame p.2.msgType, p.2.body])) ∧
        (∀ p ∈ pairs, Responds tradeProto p.1.toHeadTypeBody p.2) ∧
        pairs.filterMap (fun p => orderIdRead tradeProto p.2) ≤ ([1001] : List UInt64) := by
  obtain ⟨m, hping, hidle⟩ : ∃ m,
      runFrom (step tradeProto TradeGateway.twoWorkers) start (pingFrom 1) = some m ∧
        ∀ t, m.gateway.out.calls t = none := by
    refine ⟨_, rfl, fun t => ?_⟩
    cases t <;> rfl
  obtain ⟨s, hrun, hrouted, hgiven⟩ : ∃ s,
      runFrom (step tradeProto TradeGateway.twoWorkers) start (pingFrom 1 ++ orderAnswered) = some s ∧
        (TradeGateway.routed s.gateway.out.wire).map Prod.fst = [[1], [2]] ∧ s.orders.given = [1001] :=
    ⟨_, rfl, by decide +kernel, rfl⟩
  have hone : Meets (step tradeProto TradeGateway.twoWorkers) OneAtATime start (pingFrom 1 ++ orderAnswered) :=
    (step_drives _ _).meets_of_two_turns (t := .dispatch) (u := .worker 0) (fun _ => rfl) (by decide) hping hidle
      (by decide)
  obtain ⟨pairs, hmessages, hpairs, hresponds, hids⟩ := routed_replies_respond hrun hone
  exact ⟨s, hrun, hrouted, hgiven, pairs, hmessages, hpairs, hresponds, hgiven ▸ hids⟩

end TradeServer

end Chater.Zmq
