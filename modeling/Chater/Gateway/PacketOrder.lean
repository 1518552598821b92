import Chater.Base.ThreadPool
import Chater.Foundations.Transition
import Chater.Gateway.AddressSends

/-!
# The order in which packets are handled

`GatewayServer::OnPacket` answers heartbeats itself and passes every other packet to the worker pool, whose tasks call
`PacketDispatcher::Dispatch`.  Without workers the task runs in the call, and one worker runs the tasks in queue order.
Two workers may take two packets of one connection and begin the later one first.
-/

namespace Chater.Gateway

open Base Foundations Protocol

set_option autoImplicit false

def kCmdHeartbeatReq : UInt16 := 0xF001

/-- A packet with the `connId` it came from. -/
abbrev Delivery := ℤ × Packet

/-- `delivered` are the calls of `OnPacket` by the codec and `handled` those of registered handlers by `Dispatch`. -/
structure Dispatching where
  pool : ThreadPool Delivery
  delivered : List Delivery
  handled : List Delivery

namespace Dispatching

def start : Dispatching := ⟨.started, [], []⟩

inductive Event
  | onPacket (packet : Packet) (connId : ℤ)
  | checkRunning (i : ℕ)
  | take (i : ℕ)
  | dispatch (i : ℕ)
  | endTask (i : ℕ)
  | stopPool

/-- `handlers_` by the commands that have an entry, and the number of worker threads. -/
structure Config where
  registered : UInt16 → Bool
  workers : ℕ

variable (cfg : Config)

def dispatch (s : Dispatching) (d : Delivery) : Dispatching :=
  if cfg.registered d.2.header.cmd then { s with handled := s.handled ++ [d] } else s

/-- `OnPacket`; the packets of one connection are delivered by one thread, so its push follows its delivery before the
next. -/
def onPacket (s : Dispatching) (d : Delivery) : Dispatching :=
  let s := { s with delivered := s.delivered ++ [d] }
  if d.2.header.cmd = kCmdHeartbeatReq then s
  else if cfg.workers = 0 then s.dispatch cfg d
  else { s with pool := s.pool.push d }

def step (s : Dispatching) : Event → Option Dispatching
  | .onPacket packet connId => some (s.onPacket cfg (connId, packet))
  | .checkRunning i =>
    if i < cfg.workers then (s.pool.checkRunning i).map fun pool => { s with pool := pool } else none
  | .take i => if i < cfg.workers then (s.pool.take i).map fun pool => { s with pool := pool } else none
  | .dispatch i =>
    if i < cfg.workers then
      (s.pool.beginTask i).map fun r => { s with pool := r.2 }.dispatch cfg r.1
    else none
  | .endTask i => if i < cfg.workers then (s.pool.endTask i).map fun pool => { s with pool := pool } else none
  | .stopPool => some { s with pool := s.pool.stop }

/-! ## Order -/

/-- The packets that `OnPacket` passes on and `Dispatch` has a handler for. -/
def forHandler (d : Delivery) : Bool := d.2.header.cmd ≠ kCmdHeartbeatReq && cfg.registered d.2.header.cmd

def ofConnection (connId : ℤ) (ds : List Delivery) : List Packet :=
  (ds.filter fun d => d.1 = connId).map Prod.snd

def Drained (s : Dispatching) : Prop := s.pool.queue = [] ∧ ∀ i, (s.pool.workers i).held = []

/-- For each connection the handlers have been called for its first packets in the order these were delivered, and for
all of them once the pool is drained. -/
structure InOrder (s : Dispatching) : Prop where
  order : ∀ connId, ofConnection connId s.handled <+: ofConnection connId (s.delivered.filter (forHandler cfg))
  all : s.Drained →
    ∀ connId, ofConnection connId s.handled = ofConnection connId (s.delivered.filter (forHandler cfg))

/-- With so many workers packets are handled in order, whatever handlers are registered. -/
def OrderKept (workers : ℕ) : Prop :=
  ∀ registered es s, runFrom (step ⟨registered, workers⟩) start es = some s → s.InOrder ⟨registered, workers⟩

theorem ofConnection_append (connId : ℤ) (xs ys : List Delivery) :
    ofConnection connId (xs ++ ys) = ofConnection connId xs ++ ofConnection connId ys := by
  simp [ofConnection]

/-! ## At most one worker -/

/-- The packets handled and those waiting are the packets delivered, in that order; heartbeats do not wait. -/
structure Ordered (s : Dispatching) : Prop where
  split : s.handled ++ s.pool.backlog.filter (fun d => cfg.registered d.2.header.cmd) =
    s.delivered.filter (forHandler cfg)
  inline : cfg.workers = 0 → s.pool.backlog = []

variable {cfg}

theorem Ordered.inOrder {s : Dispatching} (h : s.Ordered cfg) : s.InOrder cfg where
  order connId := by
    rw [← h.split, ofConnection_append]
    exact List.prefix_append _ _
  all hdrained connId := by
    have hbacklog : s.pool.backlog = [] := by rw [ThreadPool.backlog, hdrained.1, hdrained.2 0, List.append_nil]
    rw [← h.split, hbacklog, List.filter_nil, List.append_nil]

theorem Ordered.onPacket {s : Dispatching} (h : s.Ordered cfg) (d : Delivery) : (s.onPacket cfg d).Ordered cfg := by
  unfold Dispatching.onPacket
  simp only
  split_ifs with hbeat hinline
  · refine ⟨?_, h.inline⟩
    rw [h.split, List.filter_append]
    simp [forHandler, hbeat]
  · have hbacklog := h.inline hinline
    have hsplit := h.split
    rw [hbacklog, List.filter_nil, List.append_nil] at hsplit
    unfold Dispatching.dispatch
    split_ifs with hregistered
    · refine ⟨?_, h.inline⟩
      simp only [hbacklog, hsplit, List.filter_append]
      simp [forHandler, hbeat, hregistered]
    · refine ⟨?_, h.inline⟩
      simp only [hbacklog, hsplit, List.filter_append]
      simp [forHandler, hregistered]
  · refine ⟨?_, fun hzero => absurd hzero hinline⟩
    simp only [ThreadPool.backlog_push, List.filter_append]
    rw [← List.append_assoc, h.split]
    simp [List.filter_cons, forHandler, hbeat]

theorem Ordered.dispatch {s : Dispatching} {d : Delivery} {pool : ThreadPool Delivery} (h : s.Ordered cfg)
    (hbacklog : s.pool.backlog = d :: pool.backlog) : ({ s with pool := pool }.dispatch cfg d).Ordered cfg := by
  have hsplit := h.split
  have hworkers : cfg.workers ≠ 0 := fun hzero => by simp [h.inline hzero] at hbacklog
  rw [hbacklog, List.filter_cons] at hsplit
  unfold Dispatching.dispatch
  split_ifs at hsplit ⊢ with hregistered
  · refine ⟨?_, fun hzero => absurd hzero hworkers⟩
    rw [← hsplit, List.append_assoc]
    rfl
  · exact ⟨hsplit, fun hzero => absurd hzero hworkers⟩

theorem Ordered.setPool {s : Dispatching} {pool : ThreadPool Delivery} (h : s.Ordered cfg)
    (hbacklog : pool.backlog = s.pool.backlog) : ({ s with pool := pool } : Dispatching).Ordered cfg := by
  refine ⟨?_, fun hzero => hbacklog.trans (h.inline hzero)⟩
  show s.handled ++ pool.backlog.filter _ = _
  rw [hbacklog]
  exact h.split

theorem ordered_step (hworkers : cfg.workers ≤ 1) {s s' : Dispatching} {e : Event} (h : s.Ordered cfg)
    (hstep : step cfg s e = some s') : s'.Ordered cfg := by
  -- with at most one worker every worker step is worker 0's
  have hzero : ∀ i, i < cfg.workers → i = 0 := fun i hi => by omega
  cases e with
  | onPacket packet connId =>
    obtain rfl := Option.some.inj hstep
    exact h.onPacket _
  | checkRunning i =>
    simp only [step] at hstep
    split_ifs at hstep with hi
    obtain rfl := hzero i hi
    obtain ⟨pool, hpool, rfl⟩ := Option.map_eq_some_iff.mp hstep
    exact h.setPool (ThreadPool.backlog_checkRunning hpool)
  | take i =>
    simp only [step] at hstep
    split_ifs at hstep with hi
    obtain rfl := hzero i hi
    obtain ⟨pool, hpool, rfl⟩ := Option.map_eq_some_iff.mp hstep
    exact h.setPool (ThreadPool.backlog_take hpool)
  | dispatch i =>
    simp only [step] at hstep
    split_ifs at hstep with hi
    obtain rfl := hzero i hi
    obtain ⟨⟨d, pool⟩, hpool, rfl⟩ := Option.map_eq_some_iff.mp hstep
    exact h.dispatch (ThreadPool.backlog_beginTask hpool)
  | endTask i =>
    simp only [step] at hstep
    split_ifs at hstep with hi
    obtain rfl := hzero i hi
    obtain ⟨pool, hpool, rfl⟩ := Option.map_eq_some_iff.mp hstep
    exact h.setPool (ThreadPool.backlog_endTask hpool)
  | stopPool =>
    obtain rfl := Option.some.inj hstep
    exact h.setPool (ThreadPool.backlog_stop s.pool)

theorem orderKept_of_le {workers : ℕ} (hworkers : workers ≤ 1) : OrderKept workers := by
  intro registered es s hrun
  have hstart : start.Ordered ⟨registered, workers⟩ := ⟨rfl, fun _ => rfl⟩
  exact (invariant_of_run (fun _ _ _ => ordered_step hworkers) hstart hrun).inOrder

/-! ## Two workers -/

def numbered (seq : UInt32) : Packet := Codec.encode kCmdLoginReq seq []

/-- Two packets of connection 1 are taken by workers 0 and 1, and worker 1 is faster. -/
def overtaking : List Event :=
  [.onPacket (numbered 1) 1, .onPacket (numbered 2) 1, .checkRunning 0, .checkRunning 1, .take 0, .take 1, .dispatch 1]

theorem overtaking_run (n : ℕ) :
    ∃ s, runFrom (step ⟨fun _ => true, n + 2⟩) start overtaking = some s ∧ s.handled = [(1, numbered 2)] ∧
      s.delivered = [(1, numbered 1), (1, numbered 2)] :=
  ⟨_, rfl, rfl, rfl⟩

theorem overtaking_not_inOrder {n : ℕ} {s : Dispatching} (hhandled : s.handled = [(1, numbered 2)])
    (hdelivered : s.delivered = [(1, numbered 1), (1, numbered 2)]) : ¬ s.InOrder ⟨fun _ => true, n⟩ := by
  intro h
  have horder := h.order 1
  rw [hhandled, hdelivered] at horder
  have hfirst : ¬ [numbered 2] <+: [numbered 1, numbered 2] := by decide
  exact hfirst horder

/-- **Order is kept exactly with at most one worker.** -/
theorem orderKept_iff (workers : ℕ) : OrderKept workers ↔ workers ≤ 1 := by
  constructor
  · intro h
    by_contra hmany
    obtain ⟨n, rfl⟩ : ∃ n, workers = n + 2 := ⟨workers - 2, by omega⟩
    obtain ⟨s, hrun, hhandled, hdelivered⟩ := overtaking_run n
    exact overtaking_not_inOrder hhandled hdelivered (h _ _ s hrun)
  · exact orderKept_of_le

/-- The shipped configuration has four workers: the second packet of a connection is handled before the first. -/
theorem four_workers_overtake :
    ∃ s, runFrom (step ⟨fun _ => true, 4⟩) start overtaking = some s ∧ s.handled = [(1, numbered 2)] ∧
      s.delivered = [(1, numbered 1), (1, numbered 2)] ∧ ¬ s.InOrder ⟨fun _ => true, 4⟩ := by
  obtain ⟨s, hrun, hhandled, hdelivered⟩ := overtaking_run 2
  exact ⟨s, hrun, hhandled, hdelivered, overtaking_not_inOrder hhandled hdelivered⟩

end Dispatching
end Chater.Gateway
