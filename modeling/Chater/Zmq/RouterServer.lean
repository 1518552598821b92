import Chater.Foundations.Transition
import Chater.Zmq.MessageUtils

/-!
# The dispatch loop of the ROUTER server

`RouterServer::DispatchLoop` with what it keeps about clients: the set `knownIdentities` of admitted identities, the
counter `activeConnections_`, and the map `lastActive_` that every message refreshes and `CleanupIdleConnections`
prunes.  An admitted identity stays in `knownIdentities` when its entry is pruned, and an entry is made before the
connection limit is looked at, so the counter follows the clients only under a condition on each step.
-/

namespace Chater.Zmq

open Foundations

set_option autoImplicit false

abbrev Identity := Frame

/-- `lastActive_`: the identities that have an entry, and the time in it in nanoseconds. -/
structure LastActive where
  identities : Finset Identity
  time : Identity → ℕ

def LastActive.set (l : LastActive) (identity : Identity) (now : ℕ) : LastActive :=
  ⟨insert identity l.identities, Function.update l.time identity now⟩

structure RouterConfig where
  maxConnections : ℤ
  idleTimeoutSec : ℤ

structure Connections where
  knownIdentities : Finset Identity
  activeConnections : ℤ
  lastActive : LastActive

def Connections.start : Connections := ⟨∅, 0, ⟨∅, fun _ => 0⟩⟩

/-! ## One iteration -/

def elapsedSec (now last : ℕ) : ℤ := ((now : ℤ) - last).tdiv 1000000000

namespace Connections

def expired (cfg : RouterConfig) (now : ℕ) (c : Connections) : Finset Identity :=
  c.lastActive.identities.filter fun identity => cfg.idleTimeoutSec ≤ elapsedSec now (c.lastActive.time identity)

/-- What an erased entry does to `activeConnections_`. -/
def release (activeConnections : ℤ) : ℤ :=
  let remaining := activeConnections - 1
  if remaining < 0 then 0 else remaining

def cleanupIdleConnections (cfg : RouterConfig) (now : ℕ) (c : Connections) : Connections :=
  { c with
    lastActive := { c.lastActive with identities := c.lastActive.identities \ c.expired cfg now }
    activeConnections := release^[(c.expired cfg now).card] c.activeConnections }

/-- The connection limit: `none` when the client is rejected. -/
def underLimit (cfg : RouterConfig) (identity : Identity) (c : Connections) : Option Connections :=
  if 0 < cfg.maxConnections ∧ identity ∉ c.knownIdentities then
    if cfg.maxConnections ≤ c.activeConnections then none
    else some { c with
      knownIdentities := insert identity c.knownIdentities, activeConnections := c.activeConnections + 1 }
  else some c

end Connections

def kPingType : UInt16 := 3
def kPongType : UInt16 := 4

/-- What `zmq_poll` and `RecvRouterMessage` give an iteration, with the time where the iteration reads the clock. -/
inductive Polled
  | error
  | timeout (now : ℕ)
  | noInput
  | recvFailed
  | message (now : ℕ) (m : HeadTypeBody)

/-- What the iteration goes on to do. -/
inductive Work
  | leaveLoop
  | nothing
  | handlePing (identity : Identity)
  | onMessage (m : HeadTypeBody)

def Connections.receive (cfg : RouterConfig) (now : ℕ) (m : HeadTypeBody) (c : Connections) : Connections × Work :=
  let c := { c with lastActive := c.lastActive.set m.head now }
  if m.msgType = kPingType then (c, .handlePing m.head)
  else
    match c.underLimit cfg m.head with
    | none => (c, .nothing)
    | some c => (c, .onMessage m)

structure DispatchLoop where
  connections : Connections
  clock : ℕ
  left : Bool

namespace DispatchLoop

def start : DispatchLoop := ⟨.start, 0, false⟩

/-- One iteration of `DispatchLoop` after its `while (running_)`.  Time does not go back. -/
def iteration (cfg : RouterConfig) (l : DispatchLoop) (e : Polled) : Option (DispatchLoop × Work) :=
  if l.left then none
  else
    match e with
    | .error => some ({ l with left := true }, .leaveLoop)
    | .timeout now =>
      if now < l.clock then none
      else if 0 < cfg.idleTimeoutSec then
        some ({ l with connections := l.connections.cleanupIdleConnections cfg now, clock := now }, .nothing)
      else some ({ l with clock := now }, .nothing)
    | .noInput => some (l, .nothing)
    | .recvFailed => some (l, .nothing)
    | .message now m =>
      if now < l.clock then none
      else
        let r := l.connections.receive cfg now m
        some ({ l with connections := r.1, clock := now }, r.2)

def step (cfg : RouterConfig) (l : DispatchLoop) (e : Polled) : Option DispatchLoop :=
  (l.iteration cfg e).map Prod.fst

end DispatchLoop

/-! ## The counter and the clients -/

namespace Connections

/-- The admitted clients that still have an entry. -/
def counted (c : Connections) : Finset Identity := c.knownIdentities ∩ c.lastActive.identities

structure Exact (cfg : RouterConfig) (c : Connections) : Prop where
  count : c.activeConnections = c.counted.card
  limit : (c.counted.card : ℤ) ≤ cfg.maxConnections

theorem release_iterate (n k : ℕ) : release^[k] (n : ℤ) = ((n - k : ℕ) : ℤ) := by
  induction k with
  | zero => rfl
  | succ k ih =>
    rw [Function.iterate_succ_apply', ih, release]
    split_ifs with hneg <;> omega

theorem counted_cleanup (cfg : RouterConfig) (now : ℕ) (c : Connections) :
    (c.cleanupIdleConnections cfg now).counted = c.counted \ c.expired cfg now :=
  (Finset.inter_sdiff_assoc _ _ _).symm

theorem Exact.underLimit {cfg : RouterConfig} {c c' : Connections} {identity : Identity} (h : c.Exact cfg)
    (hentry : identity ∈ c.lastActive.identities) (hunder : c.underLimit cfg identity = some c') : c'.Exact cfg := by
  unfold Connections.underLimit at hunder
  split_ifs at hunder with hnew hfull
  · obtain rfl := Option.some.inj hunder
    have hcard : (insert identity c.knownIdentities ∩ c.lastActive.identities).card = c.counted.card + 1 := by
      rw [Finset.insert_inter_of_mem hentry, Finset.card_insert_of_notMem]
      · rfl
      · exact fun hmem => hnew.2 (Finset.mem_inter.mp hmem).1
    have hcount := h.count
    constructor
    · show c.activeConnections + 1 = ((insert identity c.knownIdentities ∩ c.lastActive.identities).card : ℤ)
      rw [hcard, hcount]
      rfl
    · show ((insert identity c.knownIdentities ∩ c.lastActive.identities).card : ℤ) ≤ cfg.maxConnections
      rw [hcard]
      push_cast
      omega
  · obtain rfl := Option.some.inj hunder
    exact h

/-- An identity with an entry or unknown before the message: the counter follows. -/
theorem Exact.receive {cfg : RouterConfig} {c : Connections} (h : c.Exact cfg) (now : ℕ) (m : HeadTypeBody)
    (hentry : m.head ∈ c.knownIdentities → m.head ∈ c.lastActive.identities) :
    (c.receive cfg now m).1.Exact cfg := by
  have hsame : ({ c with lastActive := c.lastActive.set m.head now } : Connections).counted = c.counted := by
    show c.knownIdentities ∩ insert m.head c.lastActive.identities = c.counted
    by_cases hknown : m.head ∈ c.knownIdentities
    · rw [Finset.insert_eq_of_mem (hentry hknown)]
      rfl
    · exact Finset.inter_insert_of_notMem hknown
  have hrefreshed : Exact cfg { c with lastActive := c.lastActive.set m.head now } :=
    ⟨by rw [hsame]; exact h.count, by rw [hsame]; exact h.limit⟩
  unfold Connections.receive
  simp only
  split_ifs with hping
  · exact hrefreshed
  · split
    · exact hrefreshed
    · rename_i hunder
      exact hrefreshed.underLimit (Finset.mem_insert_self _ _) hunder

theorem not_exact_receive {cfg : RouterConfig} {c : Connections} (h : c.Exact cfg) (now : ℕ) (m : HeadTypeBody)
    (hknown : m.head ∈ c.knownIdentities) (hpruned : m.head ∉ c.lastActive.identities) :
    ¬ (c.receive cfg now m).1.Exact cfg := by
  have hconns : (c.receive cfg now m).1 = { c with lastActive := c.lastActive.set m.head now } := by
    unfold Connections.receive
    simp only [underLimit, hknown, not_true_eq_false, and_false, if_false]
    split_ifs <;> rfl
  rw [hconns]
  intro h'
  have hcount := h'.count
  simp only [counted, LastActive.set, Finset.inter_insert_of_mem hknown] at hcount
  rw [Finset.card_insert_of_notMem fun hmem => hpruned (Finset.mem_inter.mp hmem).2, h.count] at hcount
  simp only [counted] at hcount
  omega

theorem expired_subset (cfg : RouterConfig) (now : ℕ) (c : Connections) :
    c.expired cfg now ⊆ c.lastActive.identities :=
  Finset.filter_subset _ _

/-- A cleanup keeps the counter exact when it expires admitted clients only, or all of them. -/
theorem exact_cleanup_iff {cfg : RouterConfig} {c : Connections} (h : c.Exact cfg) (now : ℕ) :
    (c.cleanupIdleConnections cfg now).Exact cfg ↔
      c.expired cfg now ⊆ c.knownIdentities ∨ c.counted ⊆ c.expired cfg now := by
  have hsplit : (c.expired cfg now ∩ c.knownIdentities).card + (c.expired cfg now \ c.knownIdentities).card =
      (c.expired cfg now).card := Finset.card_inter_add_card_sdiff _ _
  have hcounted : c.counted ∩ c.expired cfg now = c.expired cfg now ∩ c.knownIdentities := by
    rw [counted, Finset.inter_right_comm, Finset.inter_comm _ (c.expired cfg now),
      Finset.inter_eq_left.mpr (Finset.inter_subset_left.trans (expired_subset cfg now c))]
  have hleft : (c.expired cfg now ∩ c.knownIdentities).card + (c.counted \ c.expired cfg now).card =
      c.counted.card := by
    rw [← hcounted]
    exact Finset.card_inter_add_card_sdiff _ _
  have hactive : (c.cleanupIdleConnections cfg now).activeConnections =
      ((c.counted.card - (c.expired cfg now).card : ℕ) : ℤ) := by
    rw [← release_iterate, ← h.count]
    rfl
  have hunknown : c.expired cfg now ⊆ c.knownIdentities ↔ (c.expired cfg now \ c.knownIdentities).card = 0 := by
    rw [Finset.card_eq_zero, Finset.sdiff_eq_empty_iff_subset]
  have hall : c.counted ⊆ c.expired cfg now ↔ (c.counted \ c.expired cfg now).card = 0 := by
    rw [Finset.card_eq_zero, Finset.sdiff_eq_empty_iff_subset]
  have hlimit := h.limit
  rw [hunknown, hall]
  constructor
  · intro h'
    have hcount := h'.count
    rw [hactive, counted_cleanup] at hcount
    omega
  · intro hcond
    refine ⟨?_, ?_⟩
    · rw [hactive, counted_cleanup]
      omega
    · rw [counted_cleanup]
      omega

end Connections

/-! ## Runs of the loop -/

/-- The step keeps the counter in line with the clients: a message does not come from an admitted client whose entry
was pruned, and a cleanup does not prune entries of clients that were never admitted, unless it prunes every admitted
client's. -/
def CountKept (cfg : RouterConfig) (l : DispatchLoop) : Polled → Prop
  | .message _ m => m.head ∈ l.connections.knownIdentities → m.head ∈ l.connections.lastActive.identities
  | .timeout now =>
    l.connections.expired cfg now ⊆ l.connections.knownIdentities ∨
      l.connections.counted ⊆ l.connections.expired cfg now
  | _ => True

section Runs

variable {cfg : RouterConfig}

theorem countKept_iff_exact (hidle : 0 < cfg.idleTimeoutSec) {l l' : DispatchLoop} {e : Polled}
    (h : l.connections.Exact cfg) (hstep : l.step cfg e = some l') :
    CountKept cfg l e ↔ l'.connections.Exact cfg := by
  obtain ⟨⟨l'', work⟩, hiter, rfl⟩ := Option.map_eq_some_iff.mp hstep
  unfold DispatchLoop.iteration at hiter
  split_ifs at hiter
  cases e with
  | error =>
    obtain ⟨rfl, -⟩ := Prod.mk.inj (Option.some.inj hiter)
    exact iff_of_true trivial h
  | timeout now =>
    simp only at hiter
    split_ifs at hiter
    obtain ⟨rfl, -⟩ := Prod.mk.inj (Option.some.inj hiter)
    exact (Connections.exact_cleanup_iff h now).symm
  | noInput =>
    obtain ⟨rfl, -⟩ := Prod.mk.inj (Option.some.inj hiter)
    exact iff_of_true trivial h
  | recvFailed =>
    obtain ⟨rfl, -⟩ := Prod.mk.inj (Option.some.inj hiter)
    exact iff_of_true trivial h
  | message now m =>
    simp only at hiter
    split_ifs at hiter
    obtain ⟨rfl, -⟩ := Prod.mk.inj (Option.some.inj hiter)
    refine ⟨h.receive now m, fun h' hknown => ?_⟩
    by_contra hpruned
    exact Connections.not_exact_receive h now m hknown hpruned h'

/-- **When the connection count is exact.**  In a run with a positive limit and idle timeout, `activeConnections_` is
the number of admitted clients with an entry and within the limit in every state, if and only if every step keeps it
so in the sense of `CountKept`. -/
theorem count_exact_iff (hmax : 0 < cfg.maxConnections) (hidle : 0 < cfg.idleTimeoutSec) {es : List Polled}
    {l : DispatchLoop} (hrun : runFrom (DispatchLoop.step cfg) .start es = some l) :
    (∀ es₁ es₂ l₁, es = es₁ ++ es₂ → runFrom (DispatchLoop.step cfg) .start es₁ = some l₁ →
        l₁.connections.Exact cfg) ↔
      Meets (DispatchLoop.step cfg) (CountKept cfg) .start es := by
  have hstart : DispatchLoop.start.connections.Exact cfg := ⟨rfl, hmax.le⟩
  have hstep : ∀ l e l', l.connections.Exact cfg → l.step cfg e = some l' →
      (CountKept cfg l e ↔ l'.connections.Exact cfg) := fun _ _ _ => countKept_iff_exact hidle
  exact (meets_iff_forall_state hstep hstart hrun).symm

end Runs

/-! ## A client that only pings -/

def oneClient : RouterConfig := ⟨1, 1⟩

def clientPing (now : ℕ) (identity : UInt8) : Polled := .message now ⟨⟨kPingType, []⟩, [identity]⟩

def clientRequest (now : ℕ) (identity : UInt8) : Polled := .message now ⟨⟨1, []⟩, [identity]⟩

/-- Client 2 only pings and is pruned while client 1 is connected.  The count drops to zero, and client 3 is admitted
beside client 1 over a limit of one. -/
def pingThenPruned : List Polled :=
  [clientPing 0 2, clientRequest 500000000 1, .timeout 1000000000, clientRequest 1000000000 3]

theorem pingThenPruned_over_limit :
    ∃ l, runFrom (DispatchLoop.step oneClient) .start pingThenPruned = some l ∧
      l.connections.activeConnections = 1 ∧ l.connections.counted.card = 2 ∧ ¬ l.connections.Exact oneClient := by
  refine ⟨_, rfl, by decide, by decide, fun h => ?_⟩
  exact absurd h.limit (by decide)

theorem count_exact_single_client :
    ∃ l, runFrom (DispatchLoop.step oneClient) .start [clientRequest 0 1, .timeout 1000000000] = some l ∧
      l.connections.Exact oneClient := by
  have hmeets : Meets (DispatchLoop.step oneClient) (CountKept oneClient) .start
      [clientRequest 0 1, .timeout 1000000000] := by
    refine ⟨fun h => absurd h (by decide), fun l hl => ?_⟩
    obtain rfl := Option.some.inj hl
    exact ⟨.inl (by decide), fun _ _ => trivial⟩
  exact ⟨_, rfl, (count_exact_iff (by decide) (by decide) rfl).mpr hmeets _ [] _ (List.append_nil _).symm rfl⟩

end Chater.Zmq
