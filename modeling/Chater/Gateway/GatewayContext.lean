import Chater.Foundations.Text

/-!
# The configuration file

`GatewayContext` (`HPGateway/src/gateway/GatewayContext.cpp`): `Trim`, `ParseLine` and `LoadConfig`, and the
configuration they fill.  A byte of the file is the character with that code, so every text of bytes is a list of
characters, and all that the parser compares with are ASCII characters.
-/

namespace Chater.Gateway

open Chater.Text

set_option autoImplicit false

/-! ## The configuration -/

structure GatewayConfig where
  tradeBindIp : List Char
  tradePort : UInt16
  quoteBindIp : List Char
  quotePort : UInt16
  ioThreadNum : Int32
  workerThreadNum : Int32
  maxConnections : Int32
  heartbeatTimeout : Int32
  logLevel : List Char
deriving DecidableEq

def GatewayConfig.default : GatewayConfig where
  tradeBindIp := "0.0.0.0".toList
  tradePort := 8001
  quoteBindIp := "0.0.0.0".toList
  quotePort := 8002
  ioThreadNum := 4
  workerThreadNum := 4
  maxConnections := 10000
  heartbeatTimeout := 60
  logLevel := "info".toList

inductive Key
  | tradeBindIp
  | tradePort
  | quoteBindIp
  | quotePort
  | ioThreadNum
  | workerThreadNum
  | maxConnections
  | heartbeatTimeout
  | logLevel
deriving DecidableEq

/-- How the value of a key is read. -/
inductive Kind
  | string
  | port
  | int
deriving DecidableEq

def Kind.Value : Kind → Type
  | .string => List Char
  | .port => UInt16
  | .int => Int32

/-- `static_cast<uint16_t>` of an `int`. -/
def toUInt16 (n : Int32) : UInt16 := UInt16.ofNat (n.toInt % 2 ^ 16).toNat

def Kind.read : (κ : Kind) → List Char → κ.Value
  | .string, value => value
  | .port, value => toUInt16 (atoi value)
  | .int, value => atoi value

namespace Key

def name : Key → String
  | tradeBindIp => "trade_bind_ip"
  | tradePort => "trade_port"
  | quoteBindIp => "quote_bind_ip"
  | quotePort => "quote_port"
  | ioThreadNum => "io_thread_num"
  | workerThreadNum => "worker_thread_num"
  | maxConnections => "max_connections"
  | heartbeatTimeout => "heartbeat_timeout"
  | logLevel => "log_level"

/-- In the order in which `ParseLine` compares. -/
def all : List Key :=
  [tradeBindIp, tradePort, quoteBindIp, quotePort, ioThreadNum, workerThreadNum, maxConnections, heartbeatTimeout,
    logLevel]

def ofName (key : List Char) : Option Key := all.find? fun k => k.name.toList == key

def kind : Key → Kind
  | tradeBindIp | quoteBindIp | logLevel => .string
  | tradePort | quotePort => .port
  | ioThreadNum | workerThreadNum | maxConnections | heartbeatTimeout => .int

end Key

namespace GatewayConfig

def get (cfg : GatewayConfig) : (k : Key) → k.kind.Value
  | .tradeBindIp => cfg.tradeBindIp
  | .tradePort => cfg.tradePort
  | .quoteBindIp => cfg.quoteBindIp
  | .quotePort => cfg.quotePort
  | .ioThreadNum => cfg.ioThreadNum
  | .workerThreadNum => cfg.workerThreadNum
  | .maxConnections => cfg.maxConnections
  | .heartbeatTimeout => cfg.heartbeatTimeout
  | .logLevel => cfg.logLevel

def set (cfg : GatewayConfig) : (k : Key) → k.kind.Value → GatewayConfig
  | .tradeBindIp, value => { cfg with tradeBindIp := value }
  | .tradePort, value => { cfg with tradePort := value }
  | .quoteBindIp, value => { cfg with quoteBindIp := value }
  | .quotePort, value => { cfg with quotePort := value }
  | .ioThreadNum, value => { cfg with ioThreadNum := value }
  | .workerThreadNum, value => { cfg with workerThreadNum := value }
  | .maxConnections, value => { cfg with maxConnections := value }
  | .heartbeatTimeout, value => { cfg with heartbeatTimeout := value }
  | .logLevel, value => { cfg with logLevel := value }

@[simp] theorem get_set_self (cfg : GatewayConfig) (k : Key) (v : k.kind.Value) : (cfg.set k v).get k = v := by
  cases k <;> rfl

theorem get_set_of_ne (cfg : GatewayConfig) {k k' : Key} (h : k ≠ k') (v : k'.kind.Value) :
    (cfg.set k' v).get k = cfg.get k := by
  cases k <;> cases k' <;> first | exact absurd rfl h | rfl

theorem ext_get {cfg cfg' : GatewayConfig} (h : ∀ k, cfg.get k = cfg'.get k) : cfg = cfg' := by
  obtain ⟨⟩ := cfg
  obtain ⟨⟩ := cfg'
  have h1 := h .tradeBindIp
  have h2 := h .tradePort
  have h3 := h .quoteBindIp
  have h4 := h .quotePort
  have h5 := h .ioThreadNum
  have h6 := h .workerThreadNum
  have h7 := h .maxConnections
  have h8 := h .heartbeatTimeout
  have h9 := h .logLevel
  simp only [get] at h1 h2 h3 h4 h5 h6 h7 h8 h9
  subst h1 h2 h3 h4 h5 h6 h7 h8 h9
  rfl

end GatewayConfig

/-! ## Parsing -/

namespace GatewayContext

def isBlank (c : Char) : Bool := c == ' ' || c == '\t'

def isBlankOrCr (c : Char) : Bool := c == ' ' || c == '\t' || c == '\r'

def trim (s : List Char) : List Char := Text.trim isBlank isBlankOrCr s

/-- The value without its quotes, if it has them. -/
def unquote (value : List Char) : List Char :=
  if 2 ≤ value.length ∧ value.head? = some '"' ∧ value.getLast? = some '"' then
    (value.drop 1).take (value.length - 2)
  else value

def parseLine (cfg : GatewayConfig) (line : List Char) : GatewayConfig :=
  let trimmed := trim line
  if trimmed = [] ∨ trimmed.head? = some '#' then cfg
  else if trimmed.getLast? = some ':' ∧ ' ' ∉ trimmed then cfg
  else
    match trimmed.idxOf? ':' with
    | none => cfg
    | some colon =>
      let key := trim (trimmed.take colon)
      let value := unquote (trim (trimmed.drop (colon + 1)))
      match Key.ofName key with
      | none => cfg
      | some k => cfg.set k (k.kind.read value)

/-- The configuration, and what `LoadConfig` returns; without a file that can be opened it is left as it is. -/
def loadConfig (cfg : GatewayConfig) : Option (List Char) → GatewayConfig × Bool
  | none => (cfg, false)
  | some text => ((lines '\n' text).foldl parseLine cfg, true)

/-! ## What a line sets -/

/-- The key and the value of a line, if it has a key that is known. -/
def entryOf (line : List Char) : Option (Key × List Char) :=
  let trimmed := trim line
  if trimmed = [] ∨ trimmed.head? = some '#' then none
  else if trimmed.getLast? = some ':' ∧ ' ' ∉ trimmed then none
  else do
    let colon ← trimmed.idxOf? ':'
    let k ← Key.ofName (trim (trimmed.take colon))
    some (k, unquote (trim (trimmed.drop (colon + 1))))

def assign (cfg : GatewayConfig) (entry : Key × List Char) : GatewayConfig :=
  cfg.set entry.1 (entry.1.kind.read entry.2)

theorem parseLine_eq (cfg : GatewayConfig) (line : List Char) :
    parseLine cfg line = ((entryOf line).map (assign cfg)).getD cfg := by
  unfold parseLine entryOf
  dsimp only
  split_ifs
  · rfl
  · rfl
  · cases (trim line).idxOf? ':' with
    | none => rfl
    | some colon =>
      dsimp only [Option.bind_eq_bind, Option.bind_some]
      cases Key.ofName (trim ((trim line).take colon)) with
      | none => rfl
      | some k => simp only [Option.bind_some, Option.map_some, Option.getD_some, assign]

def entries (text : List Char) : List (Key × List Char) := (lines '\n' text).filterMap entryOf

theorem foldl_parseLine (cfg : GatewayConfig) (ls : List (List Char)) :
    ls.foldl parseLine cfg = (ls.filterMap entryOf).foldl assign cfg := by
  induction ls generalizing cfg with
  | nil => rfl
  | cons line ls ih =>
    rw [List.foldl_cons, ih, parseLine_eq]
    cases hentry : entryOf line with
    | none => rw [List.filterMap_cons_none hentry, Option.map_none, Option.getD_none]
    | some entry => rw [List.filterMap_cons_some hentry, List.foldl_cons, Option.map_some, Option.getD_some]

theorem loadConfig_eq (cfg : GatewayConfig) (text : List Char) :
    loadConfig cfg (some text) = ((entries text).foldl assign cfg, true) := by
  rw [loadConfig, foldl_parseLine, entries]

/-- The value of the last line with the key. -/
def lastValue (k : Key) (text : List Char) : Option (List Char) :=
  ((entries text).findRev? fun entry => entry.1 = k).map Prod.snd

theorem get_foldl_assign (k : Key) (cfg : GatewayConfig) (es : List (Key × List Char)) :
    (es.foldl assign cfg).get k =
      (((es.findRev? fun entry => entry.1 = k).map Prod.snd).map k.kind.read).getD (cfg.get k) := by
  induction es using List.reverseRecOn with
  | nil => rfl
  | append_singleton es entry ih =>
    obtain ⟨k', value⟩ := entry
    rw [List.foldl_concat, List.findRev?_eq_find?_reverse, List.reverse_concat]
    by_cases hk : k' = k
    · subst hk
      rw [List.find?_cons_of_pos (by simp)]
      exact GatewayConfig.get_set_self _ _ _
    · rw [List.find?_cons_of_neg (by simpa using hk), ← List.findRev?_eq_find?_reverse, ← ih]
      exact GatewayConfig.get_set_of_ne _ (Ne.symm hk) _

/-- **The last line of a key decides its value**, and a key without a line keeps the value it had. -/
theorem get_loadConfig (cfg : GatewayConfig) (text : List Char) (k : Key) :
    (loadConfig cfg (some text)).1.get k = ((lastValue k text).map k.kind.read).getD (cfg.get k) := by
  rw [loadConfig_eq]
  exact get_foldl_assign k cfg (entries text)

end GatewayContext
end Chater.Gateway
