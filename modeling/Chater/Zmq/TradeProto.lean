import Chater.Foundations.MessageType
import Chater.Zmq.TradeGateway

/-!
# The messages of the trade gateway

The messages of `trade.proto`.  Their strings are bytes, as those of the quote gateway are.  The structs of
`trade_types.h` have the same fields, except that the account of a `LoginResponse` is always there: `fromProto` leaves it
blank where the message has none.  `TradeProto` is what the gateway and its client use of the generated code.
-/

namespace Chater.Zmq

open Messages

set_option autoImplicit false

structure AccountInfo where
  userId : UInt64
  username : Bytes
  email : Bytes
  role : Bytes
deriving DecidableEq, Repr

structure LoginRequest where
  requestId : UInt64
  username : Bytes
  password : Bytes
deriving DecidableEq, Repr

/-- `trade_proto::LoginResponse`. -/
structure LoginResponse where
  requestId : UInt64
  errorCode : Int32
  errorMsg : Bytes
  account : Option AccountInfo
deriving DecidableEq, Repr

/-- `price` and `quantity` are the bits of the doubles. -/
structure PlaceOrderRequest where
  requestId : UInt64
  symbol : Bytes
  side : Int32
  orderType : Int32
  price : UInt64
  quantity : UInt64
deriving DecidableEq, Repr

structure PlaceOrderResponse where
  requestId : UInt64
  errorCode : Int32
  errorMsg : Bytes
  orderId : UInt64
deriving DecidableEq, Repr

structure QueryOrderRequest where
  requestId : UInt64
  orderId : UInt64
deriving DecidableEq, Repr

structure QueryOrderResponse where
  requestId : UInt64
  errorCode : Int32
  errorMsg : Bytes
  orderId : UInt64
  symbol : Bytes
  status : Int32
  filledQty : UInt64
  avgPrice : UInt64
deriving DecidableEq, Repr

structure CancelOrderRequest where
  requestId : UInt64
  orderId : UInt64
deriving DecidableEq, Repr

structure CancelOrderResponse where
  requestId : UInt64
  errorCode : Int32
  errorMsg : Bytes
deriving DecidableEq, Repr

def AccountInfo.texts (account : AccountInfo) : List Bytes := [account.username, account.email, account.role]

/-! ## Requests and responses by kind -/

namespace TradeRequest

def Request : TradeRequest → Type
  | login => LoginRequest
  | placeOrder => PlaceOrderRequest
  | queryOrder => QueryOrderRequest
  | cancelOrder => CancelOrderRequest

def Response : TradeRequest → Type
  | login => LoginResponse
  | placeOrder => PlaceOrderResponse
  | queryOrder => QueryOrderResponse
  | cancelOrder => CancelOrderResponse

def requestId : (kind : TradeRequest) → kind.Request → UInt64
  | login, req => LoginRequest.requestId req
  | placeOrder, req => PlaceOrderRequest.requestId req
  | queryOrder, req => QueryOrderRequest.requestId req
  | cancelOrder, req => CancelOrderRequest.requestId req

/-- The string fields of a request. -/
def requestTexts : (kind : TradeRequest) → kind.Request → List Bytes
  | login, req => [LoginRequest.username req, LoginRequest.password req]
  | placeOrder, req => [PlaceOrderRequest.symbol req]
  | queryOrder, _ => []
  | cancelOrder, _ => []

/-- The string fields of a response. -/
def responseTexts : (kind : TradeRequest) → kind.Response → List Bytes
  | login, rsp => LoginResponse.errorMsg rsp :: (LoginResponse.account rsp).toList.flatMap AccountInfo.texts
  | placeOrder, rsp => [PlaceOrderResponse.errorMsg rsp]
  | queryOrder, rsp => [QueryOrderResponse.errorMsg rsp, QueryOrderResponse.symbol rsp]
  | cancelOrder, rsp => [CancelOrderResponse.errorMsg rsp]

end TradeRequest

structure TradeProto where
  request : (kind : TradeRequest) → MessageType kind.Request kind.requestTexts
  response : (kind : TradeRequest) → MessageType kind.Response kind.responseTexts

/-! ## Messages written plainly -/

def code (n : Int32) : Bytes := number n.toInt64.toUInt64

def ofCode (bs : Bytes) : Int32 := (ofNumber bs).toInt64.toInt32

@[simp] theorem ofCode_code (n : Int32) : ofCode (code n) = n := by
  simp [ofCode, code]

def AccountInfo.ofStrings : List Bytes → Option AccountInfo
  | [userId, username, email, role] => some ⟨ofNumber userId, username, email, role⟩
  | _ => none

def AccountInfo.toStrings (a : AccountInfo) : List Bytes := [number a.userId, a.username, a.email, a.role]

theorem AccountInfo.ofStrings_toStrings (account : Option AccountInfo) :
    AccountInfo.ofStrings (account.toList.flatMap AccountInfo.toStrings) = account := by
  cases account with
  | none => rfl
  | some a => simp [AccountInfo.toStrings, AccountInfo.ofStrings]

def LoginRequest.plain : MessageType LoginRequest TradeRequest.login.requestTexts :=
  .plain (fun req => [number req.requestId, req.username, req.password])
    (fun
      | [requestId, username, password] => some ⟨ofNumber requestId, username, password⟩
      | _ => none)
    fun req => by simp

def LoginResponse.plain : MessageType LoginResponse TradeRequest.login.responseTexts :=
  .plain
    (fun rsp =>
      number rsp.requestId :: code rsp.errorCode :: rsp.errorMsg :: rsp.account.toList.flatMap AccountInfo.toStrings)
    (fun
      | requestId :: errorCode :: errorMsg :: account =>
        some ⟨ofNumber requestId, ofCode errorCode, errorMsg, AccountInfo.ofStrings account⟩
      | _ => none)
    fun rsp => by simp [AccountInfo.ofStrings_toStrings]

def PlaceOrderRequest.plain : MessageType PlaceOrderRequest TradeRequest.placeOrder.requestTexts :=
  .plain (fun req => [number req.requestId, req.symbol, code req.side, code req.orderType, number req.price,
      number req.quantity])
    (fun
      | [requestId, symbol, side, orderType, price, quantity] =>
        some ⟨ofNumber requestId, symbol, ofCode side, ofCode orderType, ofNumber price, ofNumber quantity⟩
      | _ => none)
    fun req => by simp

def PlaceOrderResponse.plain : MessageType PlaceOrderResponse TradeRequest.placeOrder.responseTexts :=
  .plain (fun rsp => [number rsp.requestId, code rsp.errorCode, rsp.errorMsg, number rsp.orderId])
    (fun
      | [requestId, errorCode, errorMsg, orderId] =>
        some ⟨ofNumber requestId, ofCode errorCode, errorMsg, ofNumber orderId⟩
      | _ => none)
    fun rsp => by simp

def QueryOrderRequest.plain : MessageType QueryOrderRequest TradeRequest.queryOrder.requestTexts :=
  .plain (fun req => [number req.requestId, number req.orderId])
    (fun
      | [requestId, orderId] => some ⟨ofNumber requestId, ofNumber orderId⟩
      | _ => none)
    fun req => by simp

def QueryOrderResponse.plain : MessageType QueryOrderResponse TradeRequest.queryOrder.responseTexts :=
  .plain (fun rsp => [number rsp.requestId, code rsp.errorCode, rsp.errorMsg, number rsp.orderId, rsp.symbol,
      code rsp.status, number rsp.filledQty, number rsp.avgPrice])
    (fun
      | [requestId, errorCode, errorMsg, orderId, symbol, status, filledQty, avgPrice] =>
        some ⟨ofNumber requestId, ofCode errorCode, errorMsg, ofNumber orderId, symbol, ofCode status,
          ofNumber filledQty, ofNumber avgPrice⟩
      | _ => none)
    fun rsp => by simp

def CancelOrderRequest.plain : MessageType CancelOrderRequest TradeRequest.cancelOrder.requestTexts :=
  .plain (fun req => [number req.requestId, number req.orderId])
    (fun
      | [requestId, orderId] => some ⟨ofNumber requestId, ofNumber orderId⟩
      | _ => none)
    fun req => by simp

def CancelOrderResponse.plain : MessageType CancelOrderResponse TradeRequest.cancelOrder.responseTexts :=
  .plain (fun rsp => [number rsp.requestId, code rsp.errorCode, rsp.errorMsg])
    (fun
      | [requestId, errorCode, errorMsg] => some ⟨ofNumber requestId, ofCode errorCode, errorMsg⟩
      | _ => none)
    fun rsp => by simp

def tradeProto : TradeProto where
  request
    | .login => LoginRequest.plain
    | .placeOrder => PlaceOrderRequest.plain
    | .queryOrder => QueryOrderRequest.plain
    | .cancelOrder => CancelOrderRequest.plain
  response
    | .login => LoginResponse.plain
    | .placeOrder => PlaceOrderResponse.plain
    | .queryOrder => QueryOrderResponse.plain
    | .cancelOrder => CancelOrderResponse.plain

end Chater.Zmq
