import Chater.Net.ActiveChannels
import Chater.Net.LoopBalance

/-!
# The server and the lifetime of its connections

The net layer with what keeps its connections alive: the map `connections_`, the functors that `std::bind` has given a
`shared_ptr`, the callbacks and the calls that are under way, and the pointers that user code holds.  The functors of a
batch keep what they are bound to until the vector that holds the batch is destroyed, also those that have run.  With the
last reference goes the connection; nothing closes its descriptor.

`Send` and `Shutdown` of another thread bind `SendInLoop` and `ShutdownInLoop` to the bare `this`.  Such a functor keeps
nothing alive, and when the caller and everybody else let go of the connection before the loop comes to the functor, the
loop calls into an object that is gone.
-/

namespace Chater.Net

open Base Foundations

set_option autoImplicit false

/-- The functor was bound to a `shared_ptr` to the connection on `fd`. -/
def ServerFunctor.holds (fd : ℕ) : ServerFunctor → Bool
  | .conn _ (.sendInLoop _) | .conn _ .shutdownInLoop => false
  | .conn j _ | .removeConnectionInLoop j => j == fd

/-- `done` are the functors of the current batch that have run, `refs` counts the pointers of user code, and `destroyed`
records the connections that have been destroyed. -/
structure Server where
  net : NetLayer
  done : ℕ → List ServerFunctor
  refs : ℕ → ℕ
  destroyed : List ℕ

namespace Server

def start (cfg : NetLayer.Config) (n : ℕ) : Server := ⟨.start cfg n, fun _ => [], fun _ => 0, []⟩

/-! ## Destruction -/

/-- What the thread of a loop holds: the functors of its queue and of its batch, and the callback it is in. -/
def heldBy (s : Server) (fd loop : ℕ) : Bool :=
  (s.done loop ++ (s.net.loops loop).queued).any (ServerFunctor.holds fd) ||
    (s.net.loops loop).callback.any fun callback => callback.1 == fd

def referenced (n : ℕ) (s : Server) (fd : ℕ) (c : Conn) : Bool :=
  s.net.connections c.name == some fd || (List.range (n + 1)).any (s.heldBy fd) ||
    s.net.calls.any (fun call => call.id == fd) || s.refs fd != 0

def dies (n : ℕ) (s : Server) (fd : ℕ) : Bool := (s.net.conns fd).any fun c => !s.referenced n fd c

/-- What `~TcpConnection` and the `~Channel` it runs assert. -/
def destructible (conn : TcpConnection) : Bool := conn.state == .kDisconnected && !conn.channel.addedToLoop

def destroy (n : ℕ) (s : Server) : Server :=
  { s with
    net := { s.net with conns := fun fd => if s.dies n fd then none else s.net.conns fd }
    destroyed := s.destroyed ++ s.net.openFds.filter (s.dies n) }

/-- `~TcpConnection` of every connection without a reference. -/
def collect (n : ℕ) (s : Server) : Except Failure Server :=
  if s.net.openFds.all fun fd => !s.dies n fd || (s.net.conns fd).all fun c => destructible c.conn then
    .ok (s.destroy n)
  else .error .destructor

/-! ## Steps -/

/-- `acquire` is a `lock()` of a weak pointer or a copy of a pointer, `release` the end of its life. -/
inductive Event
  | net (e : NetLayer.Event)
  | acquire (fd : ℕ)
  | release (fd : ℕ)

/-- The functor that a step of the net layer runs joins those that have run; the vector is destroyed with its last. -/
def batchDone (done : ℕ → List ServerFunctor) (s : NetLayer) : NetLayer.Event → ℕ → List ServerFunctor
  | .run loop _ => Function.update done loop (done loop ++ (s.loops loop).phase.batch.take 1)
  | .endFunctors loop => Function.update done loop []
  | _ => done

def act (cfg : NetLayer.Config) (n : ℕ) (s : Server) : Event → Option (Except Failure Server)
  | .net e =>
    (NetLayer.act cfg n s.net e).map fun r => r.map fun net => { s with net := net, done := batchDone s.done s.net e }
  | .acquire fd =>
    (s.net.conns fd).map fun _ => .ok { s with refs := Function.update s.refs fd (s.refs fd + 1) }
  | .release fd =>
    if s.refs fd = 0 then none else some (.ok { s with refs := Function.update s.refs fd (s.refs fd - 1) })

def step (cfg : NetLayer.Config) (n : ℕ) : Except Failure Server → Event → Option (Except Failure Server)
  | .ok s, e => (act cfg n s e).map fun r => r.bind (collect n)
  | .error _, _ => none

variable {cfg : NetLayer.Config} {n : ℕ} {s t : Server} {fd loop : ℕ} {c : Conn} {e : Event}

/-! ## What a reference keeps -/

theorem dies_eq_false_of_referenced (hc : s.net.conns fd = some c) (h : s.referenced n fd c = true) :
    s.dies n fd = false := by
  rw [dies, hc, Option.any_some, h]
  rfl

theorem dies_eq_false_of_heldBy (hloop : loop ≤ n) (hheld : s.heldBy fd loop = true) : s.dies n fd = false := by
  have hany : (List.range (n + 1)).any (s.heldBy fd) = true :=
    List.any_eq_true.mpr ⟨loop, List.mem_range.mpr (Nat.lt_succ_of_le hloop), hheld⟩
  cases hc : s.net.conns fd with
  | none => rw [dies, hc, Option.any_none]
  | some c => exact dies_eq_false_of_referenced hc (by simp only [referenced, hany, Bool.or_true, Bool.true_or])

theorem heldBy_of_queued {f : ServerFunctor} (hf : f ∈ (s.net.loops loop).queued) (hholds : f.holds fd = true) :
    s.heldBy fd loop = true := by
  have hany : (s.done loop ++ (s.net.loops loop).queued).any (ServerFunctor.holds fd) = true :=
    List.any_eq_true.mpr ⟨f, List.mem_append_right _ hf, hholds⟩
  rw [heldBy, hany, Bool.true_or]

theorem heldBy_of_callback {rest : List Effect} (h : (s.net.loops loop).callback = some (fd, rest)) :
    s.heldBy fd loop = true := by
  rw [heldBy, h, Option.any_some, beq_self_eq_true, Bool.or_true]

theorem conns_destroy (n : ℕ) (s : Server) (fd : ℕ) :
    (s.destroy n).net.conns fd = if s.dies n fd then none else s.net.conns fd := rfl

theorem conns_of_destroy (h : (s.destroy n).net.conns fd = some c) : s.net.conns fd = some c ∧ s.dies n fd = false := by
  rw [conns_destroy] at h
  split_ifs at h with hdies
  exact ⟨h, Bool.eq_false_iff.mpr hdies⟩

theorem conns_destroy_of_lives (h : s.dies n fd = false) : (s.destroy n).net.conns fd = s.net.conns fd := by
  rw [conns_destroy, h]
  rfl

theorem loopOf_destroy_of_lives (h : s.dies n fd = false) : (s.destroy n).net.loopOf fd = s.net.loopOf fd :=
  congrArg (Option.map Conn.loop) (conns_destroy_of_lives h)

theorem loopOf_destroy_of_dies (h : s.dies n fd = true) : (s.destroy n).net.loopOf fd = none := by
  rw [NetLayer.loopOf, conns_destroy, h]
  rfl

theorem loopOf_of_destroy (h : (s.destroy n).net.loopOf fd = some loop) : s.net.loopOf fd = some loop := by
  obtain ⟨c, hc, rfl⟩ := NetLayer.exists_conn_of_loopOf h
  exact NetLayer.loopOf_of_conns (conns_of_destroy hc).1

/-- The connections that are to be destroyed may be. -/
def AllDestructible (n : ℕ) (s : Server) : Prop :=
  ∀ fd ∈ s.net.openFds, s.dies n fd = true → ∀ c, s.net.conns fd = some c → destructible c.conn = true

theorem collect_cases {r : Except Failure Server} (h : collect n s = r) :
    r = .error .destructor ∨ r = .ok (s.destroy n) ∧ AllDestructible n s := by
  unfold collect at h
  split_ifs at h with hall
  · refine .inr ⟨h.symm, fun fd hfd hdies c hc => ?_⟩
    have hfd := List.all_eq_true.mp hall fd hfd
    rwa [hdies, hc, Option.all_some, Bool.not_true, Bool.false_or] at hfd
  · exact .inl h.symm

/-! ## What every state keeps -/

/-- Every connection is on one of the loops. -/
structure OnLoops (n : ℕ) (s : NetLayer) : Prop where
  next : n = 0 ∨ s.next < n
  loopOf : ∀ fd loop, s.loopOf fd = some loop → loop ≤ n

theorem OnLoops.deals {s t : NetLayer} (h : OnLoops n s) (hdeals : Relation.ReflTransGen (NetLayer.Deals n) s t) :
    OnLoops n t := by
  induction hdeals with
  | refl => exact h
  | tail _ hlast ih =>
    cases hlast with
    | same hnext hloopOf _ => exact ⟨hnext ▸ ih.next, hloopOf ▸ ih.loopOf⟩
    | deal fd _ hnext hloopOf _ _ =>
      have hturn := ih.next
      refine ⟨?_, fun j loop hj => ?_⟩
      · rw [hnext, NetLayer.getNextLoop]
        split_ifs <;> omega
      · rw [hloopOf] at hj
        by_cases hjfd : j = fd
        · rw [hjfd, Function.update_self, Option.some.injEq] at hj
          rw [← hj, NetLayer.getNextLoop]
          split_ifs <;> omega
        · rw [Function.update_of_ne hjfd] at hj
          exact ih.loopOf j loop hj

structure Sound (cfg : NetLayer.Config) (n : ℕ) (s : NetLayer) : Prop where
  affine : NetLayer.Affine cfg n s
  registered : NetLayer.Registered s
  onLoops : OnLoops n s

theorem start_sound (cfg : NetLayer.Config) (n : ℕ) : Sound cfg n (.start cfg n) where
  affine := (NetLayer.start_keeps cfg n).1
  registered := NetLayer.start_registered cfg n
  onLoops := ⟨Nat.eq_zero_or_pos n, fun _ _ h => by cases h⟩

theorem Sound.act {s t : NetLayer} {e : NetLayer.Event} (h : Sound cfg n s)
    (ht : NetLayer.act cfg n s e = some (.ok t)) : Sound cfg n t where
  affine := h.affine.act ht
  registered := (h.registered.act h.affine ht).1
  onLoops := h.onLoops.deals (NetLayer.Closed.act (NetLayer.deals_closed n) (fun _ => h.affine.fresh) ht)

/-- What a loop runs next is on one of the server's loops. -/
theorem Sound.loop_le {s : NetLayer} (h : Sound cfg n s) {f : ServerFunctor} (hf : f ∈ (s.loops loop).queued) :
    loop ≤ n := by
  have hcalls := (h.affine.loops loop).queued f hf
  cases f with
  | conn fd f => exact h.onLoops.loopOf fd loop hcalls
  | removeConnectionInLoop fd => exact hcalls.1 ▸ Nat.zero_le n

/-! ## Destroyed connections -/

/-- The channel of a connection that may be destroyed is not in the poller. -/
theorem Sound.index_of_destructible (h : Sound cfg n s.net) (hc : s.net.conns fd = some c)
    (hdestructible : destructible c.conn = true) : ((s.net.loops c.loop).poller.channel fd).index = -1 := by
  rw [destructible, Bool.and_eq_true, Bool.not_eq_true'] at hdestructible
  have hadded := (h.registered.followed.consistent c.loop).added fd
  rw [h.registered.followed.channel fd c hc, hdestructible.2] at hadded
  rw [h.registered.followed.channel fd c hc]
  by_contra hindex
  exact Bool.false_ne_true (hadded.mpr hindex)

/-- No poller has the channel of a connection that is destroyed. -/
theorem Sound.lives_of_index (h : Sound cfg n s.net) (hdestructible : AllDestructible n s)
    (hfd : s.net.loopOf fd = some loop) (hindex : ((s.net.loops loop).poller.channel fd).index ≠ -1) :
    s.dies n fd = false := by
  obtain ⟨c, hc, rfl⟩ := NetLayer.exists_conn_of_loopOf hfd
  by_contra hdies
  have hopened := h.registered.opened fd c hc
  exact hindex (h.index_of_destructible hc (hdestructible fd hopened (eq_true_of_ne_false hdies) c hc))

theorem Sound.registered_destroy (h : Sound cfg n s.net) : NetLayer.Registered (s.destroy n).net := by
  refine ⟨⟨h.registered.followed.consistent, fun fd c hc => ?_, fun fd c hc => ?_⟩, h.registered.loops,
    fun fd c hc => ?_, fun name fd hname => ?_⟩
  · exact h.registered.followed.channel fd c (conns_of_destroy hc).1
  · exact h.registered.followed.connected fd c (conns_of_destroy hc).1
  · exact h.registered.opened fd c (conns_of_destroy hc).1
  · obtain ⟨c, hc, hcname⟩ := h.registered.entries name fd hname
    have hentered : s.referenced n fd c = true := by
      have hself : (s.net.connections c.name == some fd) = true := beq_iff_eq.mpr (hcname ▸ hname)
      simp only [referenced, hself, Bool.true_or]
    exact ⟨c, (conns_destroy_of_lives (dies_eq_false_of_referenced hc hentered)).trans hc, hcname⟩

/-- A channel that the kernel has is in the poller's map. -/
theorem kernel_index {p : Poller ℕ} (hp : Poller.Consistent id p) {x : Events × ℕ} (hx : p.kernel fd = some x) :
    (p.channel x.2).index ≠ -1 := by
  have hat := hp.kernel_at fd
  rw [id, hx] at hat
  split_ifs at hat with hindex
  obtain rfl := Option.some.inj hat
  rw [hindex]
  decide

end Server
end Chater.Net
