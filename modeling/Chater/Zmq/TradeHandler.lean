import Chater.Zmq.TradeProto

/-!
# The two ends of a trade request

`MyTradeHandler` of the server program, which makes the response to a request, and `TradeApi` of the client, which
writes requests and hands the responses it can read to its `TradeSpi`.  The server's responses hold no string of the
request, so that the client can always read them.
-/

namespace Chater.Zmq

open Messages

set_option autoImplicit false

/-! ## The server's handler -/

namespace MyTradeHandler

def onLogin (req : LoginRequest) : LoginResponse :=
  if req.username = utf8 "admin" ∧ req.password = utf8 "123456" then
    ⟨req.requestId, 0, utf8 "Login successful", some ⟨1001, utf8 "admin", utf8 "admin@example.com", utf8 "admin"⟩⟩
  else ⟨req.requestId, 1, utf8 "Invalid username or password", none⟩

/-- `orderId` is what `++nextOrderId_` gives. -/
def onPlaceOrder (orderId : UInt64) (req : PlaceOrderRequest) : PlaceOrderResponse :=
  ⟨req.requestId, 0, utf8 "Order placed", orderId⟩

def onQueryOrder (req : QueryOrderRequest) : QueryOrderResponse :=
  ⟨req.requestId, 0, utf8 "OK", req.orderId, utf8 "BTC-USDT", 0, 0, 0⟩

def onCancelOrder (req : CancelOrderRequest) : CancelOrderResponse := ⟨req.requestId, 0, utf8 "Order cancelled"⟩

/-- The handler returns true whatever the request. -/
def respond (orderId : UInt64) : (kind : TradeRequest) → kind.Request → kind.Response
  | .login, req => onLogin req
  | .placeOrder, req => onPlaceOrder orderId req
  | .queryOrder, req => onQueryOrder req
  | .cancelOrder, req => onCancelOrder req

/-- The body of the reply to a request, and `none` when the request does not parse. -/
def replyBody (proto : TradeProto) (orderId : UInt64) (kind : TradeRequest) (body : Frame) : Option Frame :=
  ((proto.request kind).parseFromArray body).map fun req =>
    (proto.response kind).serializeAsString (respond orderId kind req)

theorem isUtf8_of_mem_responseTexts {orderId : UInt64} {kind : TradeRequest} {req : kind.Request} {text : Bytes}
    (h : text ∈ kind.responseTexts (respond orderId kind req)) : IsUtf8 text := by
  have hwritten : ∃ s, text = utf8 s := by
    cases kind with
    | login =>
      change text ∈ TradeRequest.login.responseTexts (onLogin req) at h
      unfold onLogin at h
      split_ifs at h
      · simp only [TradeRequest.responseTexts, Option.toList_some, List.flatMap_singleton, AccountInfo.texts,
          List.mem_cons, List.not_mem_nil, or_false] at h
        obtain h | h | h | h := h
        all_goals exact ⟨_, h⟩
      · exact ⟨_, List.mem_singleton.mp h⟩
    | placeOrder => exact ⟨_, List.mem_singleton.mp h⟩
    | queryOrder =>
      obtain h | h := List.mem_cons.mp h
      · exact ⟨_, h⟩
      · exact ⟨_, List.mem_singleton.mp h⟩
    | cancelOrder => exact ⟨_, List.mem_singleton.mp h⟩
  obtain ⟨s, rfl⟩ := hwritten
  exact isUtf8_utf8 s

end MyTradeHandler

/-! ## The client -/

/-- `trade::LoginResponse`: the account is always there. -/
structure LoginResult where
  requestId : UInt64
  errorCode : Int32
  errorMsg : Bytes
  account : AccountInfo
deriving DecidableEq, Repr

def LoginResponse.fromProto (p : LoginResponse) : LoginResult :=
  ⟨p.requestId, p.errorCode, p.errorMsg, p.account.getD ⟨0, [], [], []⟩⟩

/-- The calls of the client's `TradeSpi`. -/
inductive SpiCall
  | onLogin (rsp : LoginResult)
  | onPlaceOrder (rsp : PlaceOrderResponse)
  | onQueryOrder (rsp : QueryOrderResponse)
  | onCancelOrder (rsp : CancelOrderResponse)
deriving DecidableEq, Repr

def SpiCall.requestId : SpiCall → UInt64
  | onLogin rsp => rsp.requestId
  | onPlaceOrder rsp => rsp.requestId
  | onQueryOrder rsp => rsp.requestId
  | onCancelOrder rsp => rsp.requestId

/-- The call for a response. -/
def SpiCall.ofResponse : (kind : TradeRequest) → kind.Response → SpiCall
  | .login, rsp => .onLogin (LoginResponse.fromProto rsp)
  | .placeOrder, rsp => .onPlaceOrder rsp
  | .queryOrder, rsp => .onQueryOrder rsp
  | .cancelOrder, rsp => .onCancelOrder rsp

namespace TradeApi

variable (proto : TradeProto)

/-- What `Login`, `PlaceOrder`, `QueryOrder` and `CancelOrder` give to `Send`. -/
def request (kind : TradeRequest) (req : kind.Request) : TypeBody :=
  ⟨kind.msgType, (proto.request kind).serializeAsString req⟩

/-- `on_message` with an SPI set. -/
def onMessage (m : TypeBody) : Option SpiCall :=
  match m.msgType.toNat with
  | 2 => ((proto.response .login).parseFromArray m.body).map (SpiCall.ofResponse .login)
  | 6 => ((proto.response .placeOrder).parseFromArray m.body).map (SpiCall.ofResponse .placeOrder)
  | 8 => ((proto.response .queryOrder).parseFromArray m.body).map (SpiCall.ofResponse .queryOrder)
  | 10 => ((proto.response .cancelOrder).parseFromArray m.body).map (SpiCall.ofResponse .cancelOrder)
  | _ => none

theorem onMessage_reply (kind : TradeRequest) (body : Frame) :
    onMessage proto ⟨kind.replyType, body⟩ =
      ((proto.response kind).parseFromArray body).map (SpiCall.ofResponse kind) := by
  cases kind <;> rfl

/-- The client reads the handler's response to the request. -/
theorem onMessage_respond (orderId : UInt64) (kind : TradeRequest) (req : kind.Request) :
    onMessage proto
        ⟨kind.replyType, (proto.response kind).serializeAsString (MyTradeHandler.respond orderId kind req)⟩ =
      some (SpiCall.ofResponse kind (MyTradeHandler.respond orderId kind req)) := by
  rw [onMessage_reply, MessageType.parse_of_utf8 _ fun _ => MyTradeHandler.isUtf8_of_mem_responseTexts, Option.map_some]

end TradeApi

theorem requestId_ofResponse_respond (orderId : UInt64) (kind : TradeRequest) (req : kind.Request) :
    (SpiCall.ofResponse kind (MyTradeHandler.respond orderId kind req)).requestId = kind.requestId req := by
  cases kind with
  | login =>
    change (LoginResponse.fromProto (MyTradeHandler.onLogin req)).requestId = LoginRequest.requestId req
    unfold MyTradeHandler.onLogin
    split_ifs <;> rfl
  | placeOrder | queryOrder | cancelOrder => rfl

end Chater.Zmq
