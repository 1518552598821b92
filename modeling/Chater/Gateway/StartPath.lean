import Chater.Gateway.ConfigFile
import Chater.Gateway.HeartbeatTimer
import Chater.Gateway.LoopAffinity

/-!
# Starting the gateway with a configuration

What `main` does with the values of the configuration: `FromIpPort`, the constructor of `GatewayServer` with the bind of
its acceptor, `SetThreadNum` and `SetWorkerThreadNum`, then `GatewayServer::Start` with the thread pool, the heartbeat
timer and the server.  The values come from `atoi` and are not checked before they are used, so that a file can be
accepted and the server aborts, listens on another port, or runs without its heartbeat timer.

What the start finds on the host is a parameter: the addresses that can be bound, how many threads there can be, and
what two variables hold that no constructor sets, `sin_addr` of the address in `main` and `TcpServer::started_`.  The
descriptors that the start asks for are given.
-/

namespace Chater.Gateway

open Chater.Text Foundations Net GatewayContext

set_option autoImplicit false

/-! ## The start -/

/-- The bytes of an IPv4 address. -/
abbrev InAddr := List ℕ

structure Host where
  binds : InAddr → UInt16 → Bool
  maxThreads : ℕ
  sinAddr : InAddr
  started : Int32

/-- What ends the process: `LOG_FATAL`, an assertion, and exceptions that nobody catches. -/
inductive StartFailure
  | bindOrDie
  | setThreadNum
  | reserve
  | thread
  | timerfdSettime
deriving DecidableEq

/-- `timer` is the period of the heartbeat timer in seconds, if it is armed; `ioThreads` is the number of IO threads of
the server that listens, and `none` if `TcpServer::Start` took it for started. -/
structure Started where
  addr : InAddr
  port : UInt16
  workerThreads : ℕ
  heartbeatTimeoutSec : ℤ
  timer : Option ℕ
  ioThreads : Option ℕ
deriving DecidableEq

/-- One of the four numbers of a dotted address. -/
def octet (s : List Char) : Option ℕ :=
  if s ≠ [] ∧ s.all Char.isDigit ∧ (s.length = 1 ∨ s.head? ≠ some '0') ∧ natOf s < 256 then some (natOf s) else none

/-- `inet_pton` for `AF_INET`. -/
def inetPton (s : List Char) : Option InAddr := ((s.splitOn '.').mapM octet).filter fun addr => addr.length == 4

/-- `FromIpPort`: where the text is no address, the error is logged and `sin_addr` stays as it is. -/
def fromIpPort (host : Host) (ip : List Char) : InAddr :=
  (inetPton (ip.takeWhile fun c => c != Char.ofNat 0)).getD host.sinAddr

def bindOrDie (host : Host) (addr : InAddr) (port : UInt16) : Except StartFailure Unit :=
  if host.binds addr port then .ok () else .error .bindOrDie

/-- `TcpServer::SetThreadNum`. -/
def setThreadNum (numThreads : Int32) : Except StartFailure Unit :=
  if 0 ≤ numThreads.toInt then .ok () else .error .setThreadNum

/-- An `int` as a `size_t`. -/
def toSize (n : Int32) : ℕ := (n.toInt % 2 ^ 64).toNat

/-- `max_size()` of a vector of pointers. -/
def maxSize : ℕ := (2 ^ 63 - 1) / 8

/-- `ThreadPool::Start`: room for the threads is reserved, then one is started for each `i < numThreads_`. -/
def startWorkers (host : Host) (numThreads : Int32) : Except StartFailure ℕ :=
  if toSize numThreads ≤ maxSize then
    if numThreads.toInt.toNat ≤ host.maxThreads then .ok numThreads.toInt.toNat else .error .thread
  else .error .reserve

/-- `CreateTimerFd`: `timerfd_settime` rejects a negative time, and a time of zero disarms the timer. -/
def createTimerFd (intervalSec : ℤ) : Except StartFailure (Option ℕ) :=
  if intervalSec < 0 then .error .timerfdSettime
  else if intervalSec = 0 then .ok none
  else .ok (some intervalSec.toNat)

/-- `SetupHeartbeat`; the quotient of an `int` is rounded towards zero. -/
def setupHeartbeat (heartbeatTimeoutSec : Int32) : Except StartFailure (Option ℕ) :=
  createTimerFd (heartbeatTimeoutSec.toInt.tdiv 2)

/-- `TcpServer::Start`, which does nothing where `started_` is not zero; `workers` threads run already. -/
def startServer (host : Host) (workers : ℕ) (numThreads : Int32) : Except StartFailure (Option ℕ) :=
  if host.started = 0 then
    if workers + numThreads.toInt.toNat ≤ host.maxThreads then .ok (some numThreads.toInt.toNat) else .error .thread
  else .ok none

def startGateway (host : Host) (cfg : GatewayConfig) : Except StartFailure Started := do
  let addr := fromIpPort host cfg.tradeBindIp
  bindOrDie host addr cfg.tradePort
  setThreadNum cfg.ioThreadNum
  let workers ← startWorkers host cfg.workerThreadNum
  let timer ← setupHeartbeat cfg.heartbeatTimeout
  let ioThreads ← startServer host workers cfg.ioThreadNum
  return ⟨addr, cfg.tradePort, workers, cfg.heartbeatTimeout.toInt, timer, ioThreads⟩

/-! ## When the start goes well -/

open GatewayServer in
/-- A connection is not silent for ever: for however late the loop comes to its timer there is a time such that a
connection that is up and has not been heard of for that long is destroyed and forgotten six passes of the loop
later. -/
def Started.ReapsIdle (st : Started) : Prop :=
  ∀ slack : ℕ, ∃ patience : ℤ, ∀ (net : NetLayer.Config) (clock : ℤ) (es : List Event) (r : Running),
    Meets (Running.step net st.heartbeatTimeoutSec st.timer) Running.Assumed (.ok (.start net st.timer clock)) es →
    Meets (Running.step net st.heartbeatTimeoutSec st.timer) (Running.Prompt st.timer slack)
      (.ok (.start net st.timer clock)) es →
    runFrom (Running.step net st.heartbeatTimeoutSec st.timer) (.ok (.start net st.timer clock)) es = some (.ok r) →
    ∀ fd last, r.timed.server.net.callbacksOf fd = [true] → r.timed.seen fd = some last →
      last + patience < r.timed.clock →
      ∀ (passes : List (List Event)) (x : Except Failure Running), passes.length = 6 →
        (∀ pass ∈ passes, ∃ e ∈ pass, Timed.EndsPass e) →
        Meets (Running.step net st.heartbeatTimeoutSec st.timer) Running.Assumed (.ok r) passes.flatten →
        runFrom (Running.step net st.heartbeatTimeoutSec st.timer) (.ok r) passes.flatten = some x →
        ∃ t, x = .ok t ∧ Timed.Forgotten t.timed.server fd

/-- The configuration after `LoadConfig` has read the text. -/
def loaded (text : List Char) : GatewayConfig := (loadConfig .default (some text)).1

/-- What the start needs of a configuration file: the ports are those written, the thread counts are not negative, and
the gateway starts with its timer armed, listens, reaps idle connections and never aborts in a callback. -/
structure Startable (host : Host) (text : List Char) : Prop where
  tradePort : ∀ value n, lastValue .tradePort text = some value → Numeral n value → (loaded text).tradePort.toNat = n
  quotePort : ∀ value n, lastValue .quotePort text = some value → Numeral n value → (loaded text).quotePort.toNat = n
  ioThreads : 0 ≤ (loaded text).ioThreadNum.toInt
  workerThreads : 0 ≤ (loaded text).workerThreadNum.toInt
  starts : ∃ st period ioThreads, startGateway host (loaded text) = .ok st ∧ st.timer = some period ∧ 0 < period ∧
    (loaded text).heartbeatTimeout.toInt / 2 = period ∧ st.ioThreads = some ioThreads ∧ AffinityKept ioThreads ∧
    st.ReapsIdle

/-- The address and the number of workers that the file gives. -/
def bindIp (text : List Char) : List Char := (lastValue .tradeBindIp text).getD GatewayConfig.default.tradeBindIp

def workerNum (text : List Char) : Int32 :=
  ((lastValue .workerThreadNum text).map atoi).getD GatewayConfig.default.workerThreadNum

/-- The last lines of the keys hold values in the range of what uses them, and the host can do what they ask for.  The
default of `io_thread_num` is not in range. -/
structure WithinRanges (host : Host) (text : List Char) : Prop where
  tradePort : ∀ value n, lastValue .tradePort text = some value → Numeral n value → 0 ≤ n ∧ n < 2 ^ 16
  quotePort : ∀ value n, lastValue .quotePort text = some value → Numeral n value → 0 ≤ n ∧ n < 2 ^ 16
  ioThreadNum : ∃ value, lastValue .ioThreadNum text = some value ∧ (atoi value).toInt = 0
  workerThreadNum : 0 ≤ (workerNum text).toInt ∧ (workerNum text).toInt ≤ host.maxThreads
  heartbeatTimeout : ∀ value, lastValue .heartbeatTimeout text = some value → 2 ≤ (atoi value).toInt
  bind : host.binds (fromIpPort host (bindIp text)) (loaded text).tradePort = true
  started : host.started = 0

/-- A number that comes from `atoi` or is the default. -/
theorem forall_loaded_iff {P : Int32 → Prop} {v : Option (List Char)} {n dflt : Int32}
    (hn : n = (v.map atoi).getD dflt) (hdflt : P dflt) : P n ↔ ∀ value, v = some value → P (atoi value) := by
  subst hn
  cases v with
  | none => simp [hdflt]
  | some value => simp

theorem toNat_port_iff {value : List Char} {n : ℤ} (h : Numeral n value) :
    ((toUInt16 (atoi value)).toNat : ℤ) = n ↔ 0 ≤ n ∧ n < 2 ^ 16 := by
  constructor
  · intro heq
    have hlt := (toUInt16 (atoi value)).toNat_lt
    omega
  · rintro ⟨hlo, hhi⟩
    have hatoi := toInt_atoi h (by omega) (by omega)
    rw [toUInt16_of_toInt (m := n.toNat) (by omega) (by omega)]
    omega

theorem port_iff {v : Option (List Char)} {port dflt : UInt16}
    (hport : port = (v.map fun value => toUInt16 (atoi value)).getD dflt) :
    (∀ value (n : ℤ), v = some value → Numeral n value → (port.toNat : ℤ) = n) ↔
      ∀ value (n : ℤ), v = some value → Numeral n value → 0 ≤ n ∧ n < 2 ^ 16 := by
  subst hport
  refine forall_congr' fun value => forall_congr' fun n => forall_congr' fun hv => forall_congr' fun hn => ?_
  subst hv
  exact toNat_port_iff hn

theorem reapsIdle_of_timer {st : Started} {period : ℕ} (htimer : st.timer = some period) (hperiod : 0 < period)
    (htimeout : 0 ≤ st.heartbeatTimeoutSec) : st.ReapsIdle := by
  intro slack
  refine ⟨1000 * (st.heartbeatTimeoutSec + period) + slack, ?_⟩
  rw [htimer]
  intro net clock es r hes hprompt hrun fd last hup hseen hlate passes x hlength hpasses hmeets hrest
  exact GatewayServer.Running.evicted_of_silent htimeout hperiod hes hprompt hrun hup hseen (by omega) hlength hpasses
    hmeets hrest

theorem bind_eq_ok_iff {ε α β : Type} {x : Except ε α} {f : α → Except ε β} {b : β} :
    (x >>= f) = .ok b ↔ ∃ a, x = .ok a ∧ f a = .ok b := by
  cases x with
  | error e =>
    refine iff_of_false (fun h => ?_) ?_
    · cases h
    · rintro ⟨a, ha, -⟩
      cases ha
  | ok a =>
    refine ⟨fun h => ⟨a, rfl, h⟩, ?_⟩
    rintro ⟨a', ha, h⟩
    cases ha
    exact h

theorem startGateway_ok_iff {host : Host} {cfg : GatewayConfig} {st : Started} :
    startGateway host cfg = .ok st ↔
      host.binds (fromIpPort host cfg.tradeBindIp) cfg.tradePort = true ∧ 0 ≤ cfg.ioThreadNum.toInt ∧
      ∃ workers, startWorkers host cfg.workerThreadNum = .ok workers ∧
        ∃ timer, setupHeartbeat cfg.heartbeatTimeout = .ok timer ∧
          ∃ ioThreads, startServer host workers cfg.ioThreadNum = .ok ioThreads ∧
            ⟨fromIpPort host cfg.tradeBindIp, cfg.tradePort, workers, cfg.heartbeatTimeout.toInt, timer, ioThreads⟩ =
              st := by
  have hbind : (∃ u, bindOrDie host (fromIpPort host cfg.tradeBindIp) cfg.tradePort = .ok u) ↔
      host.binds (fromIpPort host cfg.tradeBindIp) cfg.tradePort = true := by
    unfold bindOrDie
    split_ifs with h <;> simp [h]
  have hset : (∃ u, setThreadNum cfg.ioThreadNum = .ok u) ↔ 0 ≤ cfg.ioThreadNum.toInt := by
    unfold setThreadNum
    split_ifs with h <;> simp [h]
  simp only [startGateway, bind_eq_ok_iff, exists_and_right, hbind, hset, pure, Except.pure, Except.ok.injEq]

/-- `ThreadPool::Start` with a count that is not negative. -/
theorem startWorkers_ok_iff {host : Host} {n : Int32} (h : 0 ≤ n.toInt) {workers : ℕ} :
    startWorkers host n = .ok workers ↔ n.toInt ≤ host.maxThreads ∧ n.toInt = workers := by
  have hlt := Int32.toInt_lt n
  have hsize : toSize n ≤ maxSize := by
    rw [toSize, maxSize]
    omega
  rw [startWorkers, if_pos hsize]
  split_ifs with hmax
  · rw [Except.ok.injEq]
    omega
  · refine iff_of_false (fun heq => ?_) fun hle => ?_
    · cases heq
    · omega

theorem setupHeartbeat_ok_iff {n : Int32} {period : ℕ} (hperiod : 0 < period) :
    setupHeartbeat n = .ok (some period) ↔ 2 ≤ n.toInt ∧ n.toInt / 2 = period := by
  rw [setupHeartbeat, createTimerFd]
  by_cases hneg : n.toInt < 0
  · have htdiv : n.toInt.tdiv 2 = -(-n.toInt / 2) := by
      rw [← Int.tdiv_eq_ediv_of_nonneg (by omega), Int.neg_tdiv, neg_neg]
    rw [htdiv]
    split_ifs
    all_goals
      refine iff_of_false (fun heq => ?_) fun hle => ?_
      · simp at heq <;> omega
      · omega
  · have htdiv : n.toInt.tdiv 2 = n.toInt / 2 := Int.tdiv_eq_ediv_of_nonneg (by omega)
    rw [htdiv, if_neg (by omega)]
    split_ifs with hzero
    · refine iff_of_false (fun heq => ?_) fun hle => ?_
      · cases heq
      · omega
    · rw [Except.ok.injEq, Option.some.injEq]
      omega

theorem startServer_ok_iff {host : Host} {workers n : ℕ} {numThreads : Int32} :
    startServer host workers numThreads = .ok (some n) ↔
      host.started = 0 ∧ workers + n ≤ host.maxThreads ∧ numThreads.toInt.toNat = n := by
  rw [startServer]
  split_ifs with hstarted hmax
  · rw [Except.ok.injEq, Option.some.injEq]
    constructor
    · rintro rfl
      exact ⟨hstarted, hmax, rfl⟩
    · exact fun h => h.2.2
  · refine iff_of_false (fun heq => ?_) ?_
    · cases heq
    · rintro ⟨-, hle, rfl⟩
      exact hmax hle
  · refine iff_of_false (fun heq => ?_) fun h => hstarted h.1
    cases heq

theorem bindIp_loaded (text : List Char) : (loaded text).tradeBindIp = bindIp text := by
  have hget : (loaded text).tradeBindIp =
      ((lastValue .tradeBindIp text).map id).getD GatewayConfig.default.tradeBindIp :=
    get_loadConfig .default text .tradeBindIp
  rw [hget, Option.map_id, id, bindIp]

/-- The default of four IO threads is not zero. -/
theorem ioThreadNum_eq_zero_iff (text : List Char) :
    (loaded text).ioThreadNum.toInt = 0 ↔ ∃ value, lastValue .ioThreadNum text = some value ∧ (atoi value).toInt = 0 := by
  have hget : (loaded text).ioThreadNum = ((lastValue .ioThreadNum text).map atoi).getD 4 :=
    get_loadConfig .default text .ioThreadNum
  rw [hget]
  cases lastValue .ioThreadNum text with
  | none => exact iff_of_false (by decide) (by simp)
  | some value => simp

/-- **An accepted file is startable exactly if its values are within the ranges of those that use them.** -/
theorem startable_iff_withinRanges (host : Host) (text : List Char) : Startable host text ↔ WithinRanges host text := by
  have hget : ∀ k, (loaded text).get k = ((lastValue k text).map k.kind.read).getD (GatewayConfig.default.get k) :=
    get_loadConfig .default text
  have htrade := port_iff (hget .tradePort)
  have hquote := port_iff (hget .quotePort)
  have hworkers : (loaded text).workerThreadNum = workerNum text := hget .workerThreadNum
  have hheartbeat := forall_loaded_iff (P := fun n => 2 ≤ n.toInt) (hget .heartbeatTimeout) (by decide)
  constructor
  · intro h
    obtain ⟨st, period, ioThreads, hstart, htimer, hperiod, -, hio, hkept, -⟩ := h.starts
    obtain ⟨hbind, hnonneg, workers, hpool, timer, harmed, threads, hserver, rfl⟩ := startGateway_ok_iff.mp hstart
    obtain rfl : timer = some period := htimer
    obtain rfl : threads = some ioThreads := hio
    obtain rfl : ioThreads = 0 := by
      cases ioThreads with
      | zero => rfl
      | succ m => exact absurd hkept (not_affinityKept_succ m)
    obtain ⟨hstarted, -, hzero⟩ := startServer_ok_iff.mp hserver
    have hroom := (startWorkers_ok_iff h.workerThreads).mp hpool
    have hlong := (setupHeartbeat_ok_iff hperiod).mp harmed
    rw [hworkers] at hroom
    rw [bindIp_loaded] at hbind
    exact ⟨htrade.mp h.tradePort, hquote.mp h.quotePort, (ioThreadNum_eq_zero_iff text).mp (by omega),
      ⟨hworkers ▸ h.workerThreads, hroom.1⟩, hheartbeat.mp hlong.1, hbind, hstarted⟩
  · intro h
    have hzero := (ioThreadNum_eq_zero_iff text).mpr h.ioThreadNum
    have hlong : 2 ≤ (loaded text).heartbeatTimeout.toInt := hheartbeat.mpr h.heartbeatTimeout
    obtain ⟨hnonneg, hroom⟩ := h.workerThreadNum
    rw [← hworkers] at hnonneg hroom
    have hpool : startWorkers host (loaded text).workerThreadNum = .ok (loaded text).workerThreadNum.toInt.toNat :=
      (startWorkers_ok_iff hnonneg).mpr ⟨hroom, by omega⟩
    have hperiod : 0 < ((loaded text).heartbeatTimeout.toInt / 2).toNat := by omega
    have harmed := (setupHeartbeat_ok_iff hperiod).mpr ⟨hlong, by omega⟩
    have hserver : startServer host (loaded text).workerThreadNum.toInt.toNat (loaded text).ioThreadNum = .ok (some 0) :=
      startServer_ok_iff.mpr ⟨h.started, by omega, by omega⟩
    have hbind := h.bind
    rw [← bindIp_loaded] at hbind
    have hstart := startGateway_ok_iff.mpr ⟨hbind, hzero.ge, _, hpool, _, harmed, _, hserver, rfl⟩
    refine ⟨htrade.mpr h.tradePort, hquote.mpr h.quotePort, hzero.ge, hnonneg, _, _, _, hstart, rfl, hperiod, by omega,
      rfl, affinityKept_zero, reapsIdle_of_timer rfl hperiod ?_⟩
    show 0 ≤ (loaded text).heartbeatTimeout.toInt
    omega

/-- A host that binds any address but one of another host. -/
def openHost : Host := ⟨fun addr _ => addr ≠ [8, 8, 8, 8], 1000, [0, 0, 0, 0], 0⟩

/-- Without IO threads and with the defaults for all else. -/
example : WithinRanges openHost "io_thread_num: 0\n".toList := by
  have hnone : ∀ k ∈ [Key.tradePort, .quotePort, .heartbeatTimeout],
      lastValue k "io_thread_num: 0\n".toList = none := by decide +kernel
  refine ⟨fun value n hvalue => ?_, fun value n hvalue => ?_, ⟨"0".toList, by decide +kernel, by decide +kernel⟩,
    by decide +kernel, fun value hvalue => ?_, by decide +kernel, rfl⟩
  all_goals
    rw [hnone _ (by simp)] at hvalue
    cases hvalue

/-! ## Files that are accepted and cannot be used -/

/-- A timeout of one second disarms the timer, and with the default of four IO threads the first connection aborts.  A
negative thread count and an address of another host abort at the start, and port 70000 becomes 4464. -/
theorem not_startable_timeoutOne :
    (startGateway openHost (loaded "io_thread_num: 0\nheartbeat_timeout: 1\n".toList)).toOption.map (·.timer) =
        some none ∧
      ¬ Startable openHost "io_thread_num: 0\nheartbeat_timeout: 1\n".toList ∧
      ¬ Startable openHost [] ∧
      startGateway openHost (loaded "io_thread_num: -1\n".toList) = .error .setThreadNum ∧
      startGateway openHost (loaded "trade_bind_ip: 8.8.8.8\n".toList) = .error .bindOrDie ∧
      (loaded "trade_port: 70000\n".toList).tradePort = 4464 := by
  have htimer : (startGateway openHost (loaded "io_thread_num: 0\nheartbeat_timeout: 1\n".toList)).toOption.map
      (·.timer) = some none := by decide +kernel
  refine ⟨htimer, fun h => ?_, fun h => ?_, by decide +kernel, by decide +kernel, by decide +kernel⟩
  · obtain ⟨st, period, ioThreads, hstart, hsome, -⟩ := h.starts
    rw [hstart] at htimer
    rw [Except.toOption, Option.map_some, hsome] at htimer
    cases htimer
  · obtain ⟨st, period, ioThreads, hstart, -, -, -, hio, hkept, -⟩ := h.starts
    have hfour : (startGateway openHost (loaded [])).toOption.bind (·.ioThreads) = some 4 := by decide +kernel
    rw [hstart] at hfour
    obtain rfl := Option.some.inj (hio.symm.trans hfour)
    exact not_affinityKept_succ 3 hkept

end Chater.Gateway
