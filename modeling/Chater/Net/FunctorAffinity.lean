import Chater.Net.TcpServer

/-!
# The loops that queued functors call into

A functor in the queue of a loop calls into an object of that loop, and what a loop's poller reports belongs to that
loop; so every `AssertInLoopThread()` of the net layer is executed by the loop's own thread.  This holds as long as the
object is still there.  Most functors see to that themselves, with the `shared_ptr` they are bound to; for `SendInLoop`
and `ShutdownInLoop` of another thread somebody else has to hold the connection until they have run.
-/

namespace Chater.Net.Server

open Base Foundations

set_option autoImplicit false

variable {cfg : NetLayer.Config} {n : ℕ} {s t : Server} {fd loop : ℕ} {c : Conn} {e : Event}

/-- A functor in the queue of a loop calls into a living object of that loop, and a run that has ended has not ended in a
thread assertion or in a call into a connection that is gone. -/
def Affinity : Except Failure Server → Prop
  | .ok s => ∀ loop, ∀ f ∈ (s.net.loops loop).queued, NetLayer.CallsInto s.net.loopOf loop f
  | .error failure => failure ≠ .notInLoopThread ∧ failure ≠ .noConnection

/-- Every connection with a waiting functor that holds no pointer to it has a reference. -/
def BareHeld (n : ℕ) (s : Server) : Prop :=
  ∀ loop ∈ List.range (n + 1), ∀ f ∈ (s.net.loops loop).queued, f.holds f.fd = false → s.dies n f.fd = false

instance (n : ℕ) (s : Server) : Decidable (BareHeld n s) :=
  inferInstanceAs (Decidable (∀ loop ∈ List.range (n + 1), ∀ f ∈ (s.net.loops loop).queued,
    f.holds f.fd = false → s.dies n f.fd = false))

/-- The step takes no connection's last reference away while such a functor waits. -/
def KeepsBareHeld (cfg : NetLayer.Config) (n : ℕ) : Except Failure Server → Event → Prop
  | .ok s, e => ∀ t ∈ (act cfg n s e).bind Except.toOption, (collect n t).isOk = true → BareHeld n t
  | .error _, _ => True

instance (cfg : NetLayer.Config) (n : ℕ) (x : Except Failure Server) (e : Event) : Decidable (KeepsBareHeld cfg n x e) :=
  match x with
  | .ok s => inferInstanceAs (Decidable (∀ t ∈ (act cfg n s e).bind Except.toOption, (collect n t).isOk = true →
      BareHeld n t))
  | .error _ => .isTrue trivial

/-! ## One step -/

theorem dies_eq_false_of_queued (h : Sound cfg n s.net) (hbare : BareHeld n s) {f : ServerFunctor}
    (hf : f ∈ (s.net.loops loop).queued) : s.dies n f.fd = false := by
  have hloop := h.loop_le hf
  cases hholds : f.holds f.fd with
  | true => exact dies_eq_false_of_heldBy hloop (heldBy_of_queued hf hholds)
  | false => exact hbare loop (List.mem_range.mpr (Nat.lt_succ_of_le hloop)) f hf hholds

theorem callsInto_destroy {f : ServerFunctor} (h : NetLayer.CallsInto s.net.loopOf loop f)
    (hlives : s.dies n f.fd = false) : NetLayer.CallsInto (s.destroy n).net.loopOf loop f := by
  have hloopOf := loopOf_destroy_of_lives hlives
  cases f with
  | conn fd f => exact hloopOf.trans h
  | removeConnectionInLoop fd => exact ⟨h.1, hloopOf ▸ h.2⟩

theorem not_callsInto_of_dies {f : ServerFunctor} (h : s.dies n f.fd = true) :
    ¬ NetLayer.CallsInto (s.destroy n).net.loopOf loop f := by
  have hloopOf := loopOf_destroy_of_dies h
  cases f with
  | conn fd f => exact fun hcalls => Option.some_ne_none _ (hcalls.symm.trans hloopOf)
  | removeConnectionInLoop fd => exact fun hcalls => hcalls.2 hloopOf

theorem affine_destroy (h : Sound cfg n s.net) (hdestructible : AllDestructible n s) (hbare : BareHeld n s) :
    NetLayer.Affine cfg n (s.destroy n).net := by
  refine ⟨fun loop => ⟨fun f hf => ?_, fun x hx => ?_, fun fd x hx => ?_, fun fd rest hcallback => ?_⟩, h.affine.opened,
    fun fd hfd => ?_⟩
  · exact callsInto_destroy ((h.affine.loops loop).queued f hf) (dies_eq_false_of_queued h hbare hf)
  · refine ((h.affine.loops loop).active x hx).imp_right (.imp_right fun howner => ?_)
    have hindex := (h.registered.loops loop).active x hx
    exact (loopOf_destroy_of_lives (h.lives_of_index hdestructible howner hindex)).trans howner
  · refine ((h.affine.loops loop).registered fd x hx).imp_right (.imp_right fun howner => ?_)
    have hindex := kernel_index (h.registered.followed.consistent loop) hx
    exact (loopOf_destroy_of_lives (h.lives_of_index hdestructible howner hindex)).trans howner
  · have howner := (h.affine.loops loop).callback fd rest hcallback
    have hlives : s.dies n fd = false :=
      dies_eq_false_of_heldBy (h.onLoops.loopOf fd loop howner) (heldBy_of_callback hcallback)
    exact (loopOf_destroy_of_lives hlives).trans howner
  · obtain ⟨loop, hloop⟩ := Option.ne_none_iff_exists'.mp hfd
    exact h.affine.of_loopOf (loopOf_of_destroy hloop)

theorem sound_destroy (h : Sound cfg n s.net) (hdestructible : AllDestructible n s) (hbare : BareHeld n s) :
    Sound cfg n (s.destroy n).net where
  affine := affine_destroy h hdestructible hbare
  registered := h.registered_destroy
  onLoops := ⟨h.onLoops.next, fun fd loop hfd => h.onLoops.loopOf fd loop (loopOf_of_destroy hfd)⟩

/-- What holds after the steps that keep the condition. -/
def Good (cfg : NetLayer.Config) (n : ℕ) : Except Failure Server → Prop
  | .ok s => Sound cfg n s.net
  | .error failure => failure ≠ .notInLoopThread ∧ failure ≠ .noConnection

theorem good_act {r : Except Failure Server} (h : Sound cfg n s.net) (hr : act cfg n s e = some r) : Good cfg n r := by
  cases e with
  | net e =>
    obtain ⟨x, hx, rfl⟩ := Option.map_eq_some_iff.mp hr
    cases x with
    | error failure =>
      obtain ⟨owner, -, hkeeps⟩ := h.affine.keeps.act hx
      exact hkeeps
    | ok t => exact h.act hx
  | acquire fd =>
    obtain ⟨c, -, rfl⟩ := Option.map_eq_some_iff.mp hr
    exact h
  | release fd =>
    simp only [act] at hr
    split_ifs at hr
    obtain rfl := Option.some.inj hr
    exact h

theorem affinity_of_good {x : Except Failure Server} (h : Good cfg n x) : Affinity x := by
  cases x with
  | error failure => exact h
  | ok s => exact fun loop => (h.affine.loops loop).queued

theorem good_step {x y : Except Failure Server} (h : Good cfg n x) (hheld : KeepsBareHeld cfg n x e)
    (hstep : step cfg n x e = some y) : Good cfg n y := by
  cases x with
  | error failure => cases hstep
  | ok s =>
    obtain ⟨r, hr, rfl⟩ := Option.map_eq_some_iff.mp hstep
    have hgood := good_act h hr
    cases r with
    | error failure => exact hgood
    | ok t =>
      obtain hfailed | ⟨hcollect, hdestructible⟩ := collect_cases (n := n) (s := t) rfl
      · show Good cfg n (collect n t)
        rw [hfailed]
        exact ⟨Failure.noConfusion, Failure.noConfusion⟩
      · have hbare : BareHeld n t := by
          refine hheld t ?_ (by rw [hcollect]; rfl)
          rw [hr]
          rfl
        show Good cfg n (collect n t)
        rw [hcollect]
        exact sound_destroy hgood hdestructible hbare

theorem not_affinity_step {x y : Except Failure Server} (hheld : ¬ KeepsBareHeld cfg n x e)
    (hstep : step cfg n x e = some y) : ¬ Affinity y := by
  cases x with
  | error failure => cases hstep
  | ok s =>
    obtain ⟨r, hr, rfl⟩ := Option.map_eq_some_iff.mp hstep
    simp only [KeepsBareHeld, hr, not_forall] at hheld
    obtain ⟨t, ht, hok, hbare⟩ := hheld
    cases r with
    | error failure => cases ht
    | ok t' =>
      obtain rfl := Option.some.inj ht
      obtain hfailed | ⟨hcollect, -⟩ := collect_cases (n := n) (s := t') rfl
      · rw [hfailed] at hok
        cases hok
      · simp only [BareHeld, not_forall] at hbare
        obtain ⟨loop, -, f, hf, -, hdies⟩ := hbare
        show ¬ Affinity (collect n t')
        rw [hcollect]
        exact fun haffinity => not_callsInto_of_dies (eq_true_of_ne_false hdies) (haffinity loop f hf)

/-! ## Runs -/

/-- **Functors run where they belong exactly while bare ones are held.**  With any number of IO loops and in every run,
whatever the other threads call and whenever they let go of their pointers: the functors in the queues of all loops call
into living objects of their loops, and no thread assertion fails, if and only if no connection loses its last reference
while a `SendInLoop` or `ShutdownInLoop` of another thread waits for it. -/
theorem affinity_iff {es : List Event} {x : Except Failure Server}
    (hrun : runFrom (step cfg n) (.ok (start cfg n)) es = some x) :
    (∀ es₁ es₂ u, es = es₁ ++ es₂ → runFrom (step cfg n) (.ok (start cfg n)) es₁ = some u → Affinity u) ↔
      Meets (step cfg n) (KeepsBareHeld cfg n) (.ok (start cfg n)) es := by
  have hstart : Good cfg n (.ok (start cfg n)) := start_sound cfg n
  exact (meets_iff_forall_of_good (fun _ => affinity_of_good) (fun _ _ _ => good_step)
    (fun _ _ _ _ => not_affinity_step) hstart hrun).symm

/-- One IO loop: descriptor 7 is accepted and established, and thread 2 is about to send it a byte. -/
def foreignSend : List NetLayer.Event :=
  let results : NetLayer.Results := ⟨some 7, .bytes [], .wrote 0, id⟩
  [.start, .poll 0 [(3, EPOLLIN)], .handle 0 results, .handle 0 results, .doPendingFunctors 0, .endFunctors 0,
    .poll 1 [], .doPendingFunctors 1, .run 1 (.wrote 0), .callbackReturns 1, .endFunctors 1, .send 2 7 [65] (.wrote 0)]

/-- The peer closes, and the connection is taken out of the map and torn down. -/
def peerCloses : List NetLayer.Event :=
  let results : NetLayer.Results := ⟨none, .bytes [], .wrote 0, id⟩
  [.poll 1 [(7, EPOLLIN)], .handle 1 results, .callbackReturns 1, .handle 1 results, .doPendingFunctors 1,
    .endFunctors 1, .poll 0 [], .doPendingFunctors 0, .run 0 (.wrote 0), .endFunctors 0, .poll 1 [],
    .doPendingFunctors 1, .run 1 (.wrote 0)]

/-- `Send` returns, and the batch that ran `ConnectDestroyed` ends. -/
def sendReturns : List NetLayer.Event := [.push 0, .endFunctors 1]

def nextRound : List NetLayer.Event := [.poll 1 [], .doPendingFunctors 1, .run 1 (.wrote 0)]

/-- Thread 2 keeps a pointer of its own until `SendInLoop` has run. -/
def heldSend : List Event :=
  foreignSend.map .net ++ [.acquire 7] ++ (peerCloses ++ sendReturns ++ nextRound).map .net ++
    [.net (.endFunctors 1), .release 7]

/-- Thread 2 lets go of the connection when `Send` has returned. -/
def releasedSend : List Event := (foreignSend ++ peerCloses ++ sendReturns).map .net

theorem affinity_iff_heldSend :
    ∃ s, runFrom (step NetLayer.sampleConfig 1) (.ok (start NetLayer.sampleConfig 1)) heldSend = some (.ok s) ∧
      s.destroyed = [7] ∧
      ∀ es₁ es₂ u, heldSend = es₁ ++ es₂ →
        runFrom (step NetLayer.sampleConfig 1) (.ok (start NetLayer.sampleConfig 1)) es₁ = some u → Affinity u := by
  obtain ⟨s, hrun, hdestroyed⟩ :=
    exists_ok_of_view (runFrom (step NetLayer.sampleConfig 1) (.ok (start NetLayer.sampleConfig 1)) heldSend)
      destroyed (by decide +kernel : _ = some [7])
  exact ⟨s, hrun, hdestroyed, (affinity_iff hrun).mpr (by decide +kernel)⟩

/-- At the end of `releasedSend` the connection is gone and its `SendInLoop` is next in the queue; the loop calls into
it. -/
theorem releasedSend_not_affinity :
    (∃ s, runFrom (step NetLayer.sampleConfig 1) (.ok (start NetLayer.sampleConfig 1)) releasedSend = some (.ok s) ∧
      s.destroyed = [7] ∧ (s.net.loops 1).queued = [.conn 7 (.sendInLoop [65])] ∧ ¬ Affinity (.ok s)) ∧
    runFrom (step NetLayer.sampleConfig 1) (.ok (start NetLayer.sampleConfig 1)) (releasedSend ++ nextRound.map .net) =
      some (.error .noConnection) := by
  constructor
  · obtain ⟨s, hrun, hview⟩ :=
      exists_ok_of_view (runFrom (step NetLayer.sampleConfig 1) (.ok (start NetLayer.sampleConfig 1)) releasedSend)
        (fun s => (s.destroyed, (s.net.loops 1).queued, s.net.loopOf 7))
        (by decide +kernel : _ = some ([7], [.conn 7 (.sendInLoop [65])], none))
    simp only [Prod.mk.injEq] at hview
    obtain ⟨hdestroyed, hqueued, hgone⟩ := hview
    refine ⟨s, hrun, hdestroyed, hqueued, fun haffinity => ?_⟩
    have hmem : ServerFunctor.conn 7 (.sendInLoop [65]) ∈ (s.net.loops 1).queued := by
      rw [hqueued]
      exact List.mem_singleton.mpr rfl
    exact Option.some_ne_none 1 ((haffinity 1 _ hmem).symm.trans hgone)
  · rfl

end Chater.Net.Server
