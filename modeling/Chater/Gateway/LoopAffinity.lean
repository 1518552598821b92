import Chater.Gateway.GatewayServer
import Chater.Net.TcpServer

/-!
# The loop affinity of the gateway's callbacks

`GatewayServer::OnConnection` and `OnMessage` assert that they run on the thread of `GatewayServer::loop_`, the base
loop.  They are called by the connection's own loop: from `ConnectEstablished`, `HandleClose`, `ConnectDestroyed` and
`HandleRead`.  The two are the same loop for every connection exactly when the thread pool has no threads.
-/

namespace Chater.Gateway

open Net Foundations

set_option autoImplicit false

inductive Callback
  | onConnection
  | onMessage
  | onWriteComplete
deriving DecidableEq

/-- `OnWriteComplete` asserts nothing. -/
def Callback.asserts : Callback → Bool
  | .onConnection | .onMessage => true
  | .onWriteComplete => false

structure Execution where
  thread : ℕ
  callback : Callback
deriving DecidableEq

/-- The net layer under a gateway with any number of IO threads, with the callbacks of the gateway that have been
called and whether the assertion of one has failed. -/
structure Watched where
  net : Except Failure NetLayer
  executions : List Execution
  aborted : Bool

namespace Watched

def start (cfg : NetLayer.Config) (n : ℕ) : Watched := ⟨.ok (.start cfg n), [], false⟩

/-- The callback that the step of a loop's thread begins. -/
def execution (before : NetLayer) (e : NetLayer.Event) (after : NetLayer) : Option Execution :=
  e.loop.bind fun loop => (GatewayServer.begun loop before after).map fun fd =>
    if after.callbacksOf fd ≠ before.callbacksOf fd then ⟨loop, .onConnection⟩
    else
      match e with
      | .handle _ _ => ⟨loop, .onMessage⟩
      | _ => ⟨loop, .onWriteComplete⟩

def watch (s : Watched) (before : NetLayer) (e : NetLayer.Event) : Except Failure NetLayer → Watched
  | .error failure => { s with net := .error failure }
  | .ok after =>
    let x := execution before e after
    ⟨.ok after, s.executions ++ x.toList, x.any fun x => x.callback.asserts && x.thread != 0⟩

def step (cfg : NetLayer.Config) (n : ℕ) (s : Watched) (e : NetLayer.Event) : Option Watched :=
  match s.net with
  | .error _ => none
  | .ok net => if s.aborted then none else (NetLayer.act cfg n net e).map (s.watch net e)

end Watched

/-- In every run with `n` IO threads the two callbacks run on the base loop's thread, and their assertion never aborts
the process. -/
def AffinityKept (n : ℕ) : Prop :=
  ∀ cfg es s, runFrom (Watched.step cfg n) (Watched.start cfg n) es = some s →
    (∀ x ∈ s.executions, x.callback.asserts = true → x.thread = 0) ∧ s.aborted = false

/-! ## Without IO threads -/

namespace Watched

variable {cfg : NetLayer.Config} {s t : Watched} {e : NetLayer.Event}

structure BaseLoopOnly (cfg : NetLayer.Config) (s : Watched) : Prop where
  sound : ∀ net, s.net = .ok net → Server.Sound cfg 0 net
  threads : ∀ x ∈ s.executions, x.thread = 0
  running : s.aborted = false

/-- A callback runs on the loop of its connection. -/
theorem thread_of_execution {before after : NetLayer} (h : Server.Sound cfg 0 after) {x : Execution}
    (hx : execution before e after = some x) : x.thread = 0 := by
  obtain ⟨loop, -, hx⟩ := Option.bind_eq_some_iff.mp hx
  obtain ⟨fd, hbegun, hx⟩ := Option.map_eq_some_iff.mp hx
  have hthread : x.thread = loop := by
    rw [← hx]
    split_ifs
    · rfl
    · split <;> rfl
  unfold GatewayServer.begun at hbegun
  split at hbegun
  · rename_i fd' rest _ hcallback
    have howner := (h.affine.loops loop).callback fd' rest hcallback
    exact hthread.trans (Nat.le_zero.mp (h.onLoops.loopOf fd' loop howner))
  · cases hbegun

theorem BaseLoopOnly.step (h : BaseLoopOnly cfg s) (hstep : Watched.step cfg 0 s e = some t) : BaseLoopOnly cfg t := by
  unfold Watched.step at hstep
  split at hstep
  · cases hstep
  · rename_i net hnet
    rw [h.running, if_neg Bool.false_ne_true] at hstep
    obtain ⟨r, hr, rfl⟩ := Option.map_eq_some_iff.mp hstep
    cases r with
    | error failure =>
      refine ⟨fun _ hok => ?_, h.threads, h.running⟩
      cases hok
    | ok after =>
      have hsound := (h.sound net hnet).act hr
      refine ⟨fun _ hok => Except.ok.inj hok ▸ hsound, fun x hx => ?_, ?_⟩
      · obtain hold | hnew := List.mem_append.mp hx
        · exact h.threads x hold
        · exact thread_of_execution hsound (Option.mem_toList.mp hnew)
      · show Option.any _ (execution net e after) = false
        cases hx : execution net e after with
        | none => rfl
        | some x => rw [Option.any_some, thread_of_execution hsound hx, bne_self_eq_false, Bool.and_false]

end Watched

theorem affinityKept_zero : AffinityKept 0 := by
  intro cfg es s hrun
  have hstart : Watched.BaseLoopOnly cfg (.start cfg 0) :=
    ⟨fun _ hok => Except.ok.inj hok ▸ Server.start_sound cfg 0, List.forall_mem_nil _, rfl⟩
  have hs := invariant_of_run (fun _ _ _ h => h.step) hstart hrun
  exact ⟨fun x hx _ => hs.threads x hx, hs.running⟩

/-! ## With IO threads -/

/-- The acceptor on descriptor 3, and the wakeup descriptors from 10 on. -/
def threadsConfig : NetLayer.Config := ⟨3, (· + 10), true⟩

/-- The base loop accepts descriptor 7, and the first IO loop establishes the connection. -/
def firstClient : List NetLayer.Event :=
  [.start, .poll 0 [(3, EPOLLIN)], .handle 0 ⟨some 7, .bytes [], .wrote 0, id⟩, .poll 1 [], .doPendingFunctors 1,
    .run 1 (.wrote 0)]

/-- The base loop is about to handle the read event of the listening socket. -/
def accepting (n : ℕ) : NetLayer :=
  let started := { NetLayer.start threadsConfig n with started := true }
  let poller := (NetLayer.startPoller threadsConfig n 0).apply id 3 .enableReading
  (started.setPoller 0 (poller.getD .start)).setPhase 0 (.handling [(3, [.read])])

/-- The connection waits on the first IO loop to be established. -/
def accepted (m : ℕ) : NetLayer :=
  let s := (accepting (m + 1)).setPhase 0 (.handling [(3, [])])
  let s := { s with openFds := 7 :: s.openFds }.addConn (NetLayer.getNextLoop (m + 1) 0).2 7 (.new 1 1 (.new true))
  s.queueInLoop 1 (.conn 7 .connectEstablished)

theorem run_accepting (m : ℕ) :
    runFrom (Watched.step threadsConfig (m + 1)) (.start threadsConfig (m + 1)) [.start, .poll 0 [(3, EPOLLIN)]] =
      some ⟨.ok (accepting (m + 1)), [], false⟩ := rfl

theorem run_accepted (m : ℕ) :
    Watched.step threadsConfig (m + 1) ⟨.ok (accepting (m + 1)), [], false⟩
      (.handle 0 ⟨some 7, .bytes [], .wrote 0, id⟩) = some ⟨.ok (accepted m), [], false⟩ := by
  let s := (accepting (m + 1)).setPhase 0 (.handling [(3, [])])
  have hfresh : 7 ∉ s.openFds := by
    show 7 ∉ threadsConfig.fds (m + 1)
    simp [NetLayer.Config.fds, threadsConfig]
  have haccept : NetLayer.acceptorHandleRead threadsConfig (m + 1) s 0 (some 7) = some (.ok (accepted m)) :=
    if_neg hfresh
  show Option.map _ (NetLayer.acceptorHandleRead threadsConfig (m + 1) s 0 (some 7)) = _
  rw [haccept]
  rfl

theorem firstClient_aborts (m : ℕ) :
    ∃ s, runFrom (Watched.step threadsConfig (m + 1)) (.start threadsConfig (m + 1)) firstClient = some s ∧
      s.executions = [⟨1, .onConnection⟩] ∧ s.aborted = true := by
  have hestablished : ∃ s, runFrom (Watched.step threadsConfig (m + 1)) ⟨.ok (accepted m), [], false⟩
      [.poll 1 [], .doPendingFunctors 1, .run 1 (.wrote 0)] = some s ∧
      s.executions = [⟨1, .onConnection⟩] ∧ s.aborted = true := by
    -- the guard `1 ≤ m + 1` of the IO loop's steps evaluates once `m` is a number
    cases m with
    | zero => exact ⟨_, rfl, rfl, rfl⟩
    | succ k => exact ⟨_, rfl, rfl, rfl⟩
  obtain ⟨s, hrun, hs⟩ := hestablished
  exact ⟨s, runFrom_append (run_accepting m) (runFrom_cons_iff.mpr ⟨_, run_accepted m, hrun⟩), hs⟩

theorem not_affinityKept_succ (m : ℕ) : ¬ AffinityKept (m + 1) := by
  intro h
  obtain ⟨s, hrun, -, habort⟩ := firstClient_aborts m
  exact absurd ((h threadsConfig firstClient s hrun).2.symm.trans habort) Bool.false_ne_true

/-- **The affinity holds exactly without IO threads.** -/
theorem affinityKept_iff (n : ℕ) : AffinityKept n ↔ n = 0 := by
  cases n with
  | zero => exact iff_of_true affinityKept_zero rfl
  | succ m => exact iff_of_false (not_affinityKept_succ m) (Nat.succ_ne_zero m)

/-- The shipped configuration has four IO threads: the first connection runs `OnConnection` on thread 1, and the
process aborts. -/
theorem four_threads_abort :
    ¬ AffinityKept 4 ∧ ∃ s, runFrom (Watched.step threadsConfig 4) (.start threadsConfig 4) firstClient = some s ∧
      s.executions = [⟨1, .onConnection⟩] ∧ s.aborted = true :=
  ⟨not_affinityKept_succ 3, firstClient_aborts 3⟩

end Chater.Gateway
