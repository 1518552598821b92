import Chater.Foundations.MessageType

/-!
# The messages of the quote gateway

`MarketData` and `Notice` of `quote.proto`.  Their strings are bytes: `std::string` holds any, and the parser generated
for proto3 refuses a message with a string that is not UTF-8.  `QuoteProto` is what the gateway and its client use of the
generated code.
-/

namespace Chater.Zmq

open Messages

set_option autoImplicit false

/-- `price` and `volume` are the bits of the doubles. -/
structure MarketData where
  symbol : Bytes
  price : UInt64
  volume : UInt64
  timestamp : Int64
deriving DecidableEq, Repr

def MarketData.Valid (md : MarketData) : Prop := IsUtf8 md.symbol

instance : DecidablePred MarketData.Valid := fun md => inferInstanceAs (Decidable (IsUtf8 md.symbol))

structure Notice where
  content : Bytes
  timestamp : Int64
  messageId : UInt64
deriving DecidableEq, Repr

def Notice.Valid (n : Notice) : Prop := IsUtf8 n.content

instance : DecidablePred Notice.Valid := fun n => inferInstanceAs (Decidable (IsUtf8 n.content))

structure QuoteProto where
  marketData : MessageType MarketData fun md => [md.symbol]
  notice : MessageType Notice fun n => [n.content]

/-! ## Messages written plainly -/

def MarketData.ofStrings : List Bytes → Option MarketData
  | [symbol, price, volume, timestamp] =>
    some ⟨symbol, ofNumber price, ofNumber volume, (ofNumber timestamp).toInt64⟩
  | _ => none

def Notice.ofStrings : List Bytes → Option Notice
  | [content, timestamp, messageId] => some ⟨content, (ofNumber timestamp).toInt64, ofNumber messageId⟩
  | _ => none

def quoteProto : QuoteProto where
  marketData := .plain (fun md => [md.symbol, number md.price, number md.volume, number md.timestamp.toUInt64])
    MarketData.ofStrings fun md => by simp [MarketData.ofStrings]
  notice := .plain (fun n => [n.content, number n.timestamp.toUInt64, number n.messageId]) Notice.ofStrings
    fun n => by simp [Notice.ofStrings]

end Chater.Zmq
