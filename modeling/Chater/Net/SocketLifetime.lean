import Chater.Net.TcpServer

/-!
# The lifetime of connection sockets

A descriptor enters the process with `accept` and is owned by the `TcpConnection` made for it, which keeps it as a
plain `int`.  Neither `~TcpConnection` nor `~Channel` closes it, and no other code does, so a descriptor outlives the
connection it belongs to.
-/

namespace Chater.Net.Server

open Base Foundations

set_option autoImplicit false

variable {cfg : NetLayer.Config} {n : ℕ} {s t : Server} {fd : ℕ} {e : Event}

/-- The open descriptors obtained from `accept` are the sockets of the connections not yet destroyed. -/
def SocketsOwned (cfg : NetLayer.Config) (n : ℕ) (s : Server) : Prop :=
  ∀ fd, fd ∉ cfg.fds n → (fd ∈ s.net.openFds ↔ s.net.conns fd ≠ none)

/-- Every open descriptor is one of the first, or it is the socket of a connection that lives or has been destroyed. -/
structure SocketsOpen (cfg : NetLayer.Config) (n : ℕ) (net : NetLayer) (destroyed : List ℕ) : Prop where
  opened : ∀ fd, fd ∈ net.openFds ↔ fd ∈ cfg.fds n ∨ net.loopOf fd ≠ none ∨ fd ∈ destroyed
  living : ∀ fd, net.loopOf fd ≠ none → fd ∉ cfg.fds n ∧ fd ∉ destroyed
  dead : ∀ fd ∈ destroyed, fd ∉ cfg.fds n

theorem loopOf_eq_none_iff {net : NetLayer} : net.loopOf fd = none ↔ net.conns fd = none := Option.map_eq_none_iff

namespace SocketsOpen

variable {net net' : NetLayer} {destroyed : List ℕ}

theorem fresh (h : SocketsOpen cfg n net destroyed) (hfd : fd ∉ net.openFds) : net.conns fd = none := by
  by_contra hconn
  exact hfd ((h.opened fd).mpr (.inr (.inl fun hnone => hconn (loopOf_eq_none_iff.mp hnone))))

theorem deals (h : SocketsOpen cfg n net destroyed) (hdeals : Relation.ReflTransGen (NetLayer.Deals n) net net') :
    SocketsOpen cfg n net' destroyed := by
  induction hdeals with
  | refl => exact h
  | tail _ hlast ih =>
    cases hlast with
    | same _ hloopOf hopenFds => exact ⟨hopenFds ▸ hloopOf ▸ ih.opened, hloopOf ▸ ih.living, ih.dead⟩
    | deal fd _ _ hloopOf hclosed hopenFds =>
      rw [ih.opened, not_or, not_or] at hclosed
      refine ⟨fun j => ?_, fun j hj => ?_, ih.dead⟩
      · rw [hopenFds, hloopOf, List.mem_cons, ih.opened]
        by_cases hj : j = fd
        · rw [hj, Function.update_self]
          exact iff_of_true (.inl rfl) (.inr (.inl (Option.some_ne_none _)))
        · rw [Function.update_of_ne hj, or_iff_right hj]
      · rw [hloopOf] at hj
        by_cases hjfd : j = fd
        · rw [hjfd]
          exact ⟨hclosed.1, hclosed.2.2⟩
        · rw [Function.update_of_ne hjfd] at hj
          exact ih.living j hj

end SocketsOpen

theorem socketsOpen_act (h : SocketsOpen cfg n s.net s.destroyed) (ht : act cfg n s e = some (.ok t)) :
    SocketsOpen cfg n t.net t.destroyed := by
  cases e with
  | net e =>
    obtain ⟨x, hx, hxt⟩ := Option.map_eq_some_iff.mp ht
    cases x with
    | error failure => cases hxt
    | ok net =>
      obtain rfl := Except.ok.inj hxt
      exact h.deals (NetLayer.Closed.act (NetLayer.deals_closed n) (fun _ => h.fresh) hx)
  | acquire fd =>
    obtain ⟨c, -, hct⟩ := Option.map_eq_some_iff.mp ht
    obtain rfl := Except.ok.inj hct
    exact h
  | release fd =>
    simp only [act] at ht
    split_ifs at ht
    obtain rfl := Except.ok.inj (Option.some.inj ht)
    exact h

theorem loopOf_ne_none_of_dies (h : s.dies n fd = true) : s.net.loopOf fd ≠ none := by
  intro hnone
  rw [dies, loopOf_eq_none_iff.mp hnone] at h
  cases h

/-- A connection that is destroyed leaves its descriptor open. -/
theorem socketsOpen_destroy (h : SocketsOpen cfg n s.net s.destroyed) :
    SocketsOpen cfg n (s.destroy n).net (s.destroy n).destroyed := by
  have hdies : ∀ fd, s.dies n fd = true → fd ∈ s.net.openFds ∧ fd ∉ cfg.fds n := by
    intro fd hdies
    have hliving := loopOf_ne_none_of_dies hdies
    exact ⟨(h.opened fd).mpr (.inr (.inl hliving)), (h.living fd hliving).1⟩
  have hdestroyed : ∀ fd, fd ∈ (s.destroy n).destroyed ↔ fd ∈ s.destroyed ∨ s.dies n fd = true := by
    intro fd
    rw [destroy, List.mem_append, List.mem_filter]
    exact or_congr_right (and_iff_right_of_imp fun hfd => (hdies fd hfd).1)
  refine ⟨fun fd => (h.opened fd).trans ?_, fun fd hfd => ?_, fun fd hfd => ?_⟩
  · rw [hdestroyed]
    cases hfd : s.dies n fd with
    | false => rw [loopOf_destroy_of_lives hfd, or_iff_left Bool.false_ne_true]
    | true => exact iff_of_true ((h.opened fd).mp (hdies fd hfd).1) (.inr (.inr (.inr rfl)))
  · obtain ⟨loop, hloop⟩ := Option.ne_none_iff_exists'.mp hfd
    have hliving := h.living fd (by rw [loopOf_of_destroy hloop]; exact Option.some_ne_none loop)
    refine ⟨hliving.1, fun hmem => ?_⟩
    obtain hold | hfd := (hdestroyed fd).mp hmem
    · exact hliving.2 hold
    · exact Option.some_ne_none loop (hloop.symm.trans (loopOf_destroy_of_dies hfd))
  · obtain hold | hfd := (hdestroyed fd).mp hfd
    · exact h.dead fd hold
    · exact (hdies fd hfd).2

theorem socketsOpen_of_run {es : List Event} (hrun : runFrom (step cfg n) (.ok (start cfg n)) es = some (.ok s)) :
    SocketsOpen cfg n s.net s.destroyed := by
  have hkeep : ∀ x e y, (∀ s, x = .ok s → SocketsOpen cfg n s.net s.destroyed) → step cfg n x e = some y →
      ∀ t, y = .ok t → SocketsOpen cfg n t.net t.destroyed := by
    rintro x e y hx hy t rfl
    cases x with
    | error failure => cases hy
    | ok s =>
      obtain ⟨r, hr, hrt⟩ := Option.map_eq_some_iff.mp hy
      cases r with
      | error failure => cases hrt
      | ok u =>
        obtain hfailed | ⟨hcollected, -⟩ := collect_cases hrt
        · cases hfailed
        · obtain rfl := Except.ok.inj hcollected
          exact socketsOpen_destroy (socketsOpen_act (hx s rfl) hr)
  refine invariant_of_run hkeep (fun s hs => ?_) hrun s rfl
  obtain rfl := Except.ok.inj hs
  have hnone : ∀ fd, (start cfg n).net.loopOf fd = none := fun _ => rfl
  refine ⟨fun fd => ⟨.inl, ?_⟩, fun fd hfd => absurd (hnone fd) hfd, List.forall_mem_nil _⟩
  rintro (hfd | hfd | hfd)
  · exact hfd
  · exact absurd (hnone fd) hfd
  · cases hfd

/-- **Descriptors are owned exactly until a connection dies.**  In every state of every run, the open descriptors that
came from `accept` are the sockets of the living connections if and only if no connection has been destroyed. -/
theorem socketsOwned_iff {es : List Event} (hrun : runFrom (step cfg n) (.ok (start cfg n)) es = some (.ok s)) :
    s.SocketsOwned cfg n ↔ s.destroyed = [] := by
  have hopen := socketsOpen_of_run hrun
  constructor
  · intro howned
    refine List.eq_nil_iff_forall_not_mem.mpr fun fd hfd => ?_
    have hopened := (hopen.opened fd).mpr (.inr (.inr hfd))
    have hliving := (howned fd (hopen.dead fd hfd)).mp hopened
    exact (hopen.living fd fun hnone => hliving (loopOf_eq_none_iff.mp hnone)).2 hfd
  · intro hnone fd hfd
    rw [hopen.opened fd, hnone, or_iff_right hfd, or_iff_left List.not_mem_nil, Ne, loopOf_eq_none_iff]

/-- One loop accepts a client. -/
def acceptsClient (fd : ℕ) : List NetLayer.Event :=
  let results : NetLayer.Results := ⟨some fd, .bytes [], .wrote 0, id⟩
  [.poll 0 [(3, EPOLLIN)], .handle 0 results, .callbackReturns 0, .handle 0 results, .doPendingFunctors 0,
    .endFunctors 0]

/-- Two clients come, and the first closes and waits in the queue to be destroyed. -/
def oneCloses : List NetLayer.Event :=
  let results : NetLayer.Results := ⟨none, .bytes [], .wrote 0, id⟩
  .start :: acceptsClient 7 ++ acceptsClient 8 ++ [.poll 0 [(7, EPOLLIN)], .handle 0 results, .callbackReturns 0]

theorem socketsOwned_oneCloses :
    ∃ s, runFrom (step NetLayer.sampleConfig 0) (.ok (start NetLayer.sampleConfig 0)) (oneCloses.map .net) =
        some (.ok s) ∧
      s.net.openFds = [8, 7, 3, 4] ∧ (s.net.conns 7).map (fun c => c.conn.state) = some .kDisconnected ∧
      s.SocketsOwned NetLayer.sampleConfig 0 := by
  obtain ⟨s, hrun, hview⟩ :=
    exists_ok_of_view
      (runFrom (step NetLayer.sampleConfig 0) (.ok (start NetLayer.sampleConfig 0)) (oneCloses.map .net))
      (fun s => (s.net.openFds, (s.net.conns 7).map (fun c => c.conn.state), s.destroyed))
      (by decide +kernel : _ = some ([8, 7, 3, 4], some .kDisconnected, []))
  simp only [Prod.mk.injEq] at hview
  exact ⟨s, hrun, hview.1, hview.2.1, (socketsOwned_iff hrun).mpr hview.2.2⟩

/-- The loop runs `ConnectDestroyed`, and with the end of the batch goes the last reference. -/
def connectAndClose : List NetLayer.Event :=
  oneCloses ++ [.handle 0 ⟨none, .bytes [], .wrote 0, id⟩, .doPendingFunctors 0, .run 0 (.wrote 0), .endFunctors 0]

/-- At the end of `connectAndClose` the connection on 7 is gone and descriptor 7 is open. -/
theorem closed_connection_leaks :
    ∃ s, runFrom (step NetLayer.sampleConfig 0) (.ok (start NetLayer.sampleConfig 0)) (connectAndClose.map .net) =
        some (.ok s) ∧
      s.net.openFds = [8, 7, 3, 4] ∧ s.destroyed = [7] ∧ ¬ s.SocketsOwned NetLayer.sampleConfig 0 := by
  obtain ⟨s, hrun, hview⟩ :=
    exists_ok_of_view
      (runFrom (step NetLayer.sampleConfig 0) (.ok (start NetLayer.sampleConfig 0)) (connectAndClose.map .net))
      (fun s => (s.net.openFds, s.destroyed, (s.net.conns 7).isNone))
      (by decide +kernel : _ = some ([8, 7, 3, 4], [7], true))
  simp only [Prod.mk.injEq] at hview
  obtain ⟨hopened, hdestroyed, hgone⟩ := hview
  refine ⟨s, hrun, hopened, hdestroyed, fun howned => ?_⟩
  have hmem : 7 ∈ s.net.openFds := by
    rw [hopened]
    decide
  exact (howned 7 (by decide)).mp hmem (Option.isNone_iff_eq_none.mp hgone)

end Chater.Net.Server
