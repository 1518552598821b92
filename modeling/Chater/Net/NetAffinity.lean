import Chater.Net.NetLayer

/-!
# Loop affinity of the net layer

Every functor that waits in a loop's queue calls into an object of that loop, and every channel that a loop's poller can
report is one of that loop's objects'.  The facts are kept together: a handler queues functors, its channel is registered
with the poller of the thread that runs it, and a reported channel runs a handler.  Each piece of a step keeps them for
the owners that the objects have before it; what becomes of a functor when its owner is destroyed is not asked here.
-/

namespace Chater.Net.NetLayer

open Base Foundations

set_option autoImplicit false

/-! ## Whose loop -/

/-- The `loop_` of the connection on `fd`. -/
def loopOf (s : NetLayer) (fd : ℕ) : Option ℕ := (s.conns fd).map Conn.loop

/-- The functor calls a method or a user callback of an object whose `loop_` is `loop`; the server's is the base
loop. -/
def CallsInto (owner : ℕ → Option ℕ) (loop : ℕ) : ServerFunctor → Prop
  | .conn fd _ => owner fd = some loop
  | .removeConnectionInLoop fd => loop = 0 ∧ owner fd ≠ none

def OwnsChannel (cfg : Config) (n : ℕ) (owner : ℕ → Option ℕ) (loop fd : ℕ) : Prop :=
  (loop ≤ n ∧ fd = cfg.wakeupFd loop) ∨ (loop = 0 ∧ fd = cfg.acceptSocket) ∨ owner fd = some loop

structure LoopAffine (cfg : Config) (n : ℕ) (owner : ℕ → Option ℕ) (loop : ℕ) (l : Loop) : Prop where
  queued : ∀ f ∈ l.queued, CallsInto owner loop f
  active : ∀ x ∈ l.phase.active, OwnsChannel cfg n owner loop x.1
  registered : ∀ fd x, l.poller.kernel fd = some x → OwnsChannel cfg n owner loop x.2
  callback : ∀ fd rest, l.callback = some (fd, rest) → owner fd = some loop

structure Affine (cfg : Config) (n : ℕ) (s : NetLayer) : Prop where
  loops : ∀ loop, LoopAffine cfg n s.loopOf loop (s.loops loop)
  opened : ∀ fd ∈ cfg.fds n, fd ∈ s.openFds
  accepted : ∀ fd, s.loopOf fd ≠ none → fd ∈ s.openFds ∧ fd ∉ cfg.fds n

/-- The step fails no thread assertion and follows no pointer to a connection that does not exist, and the state it
leads to is affine with the owners given. -/
def Keeps (cfg : Config) (n : ℕ) (owner : ℕ → Option ℕ) : Except Failure NetLayer → Prop
  | .ok s => Affine cfg n s ∧ s.loopOf = owner
  | .error failure => failure ≠ .notInLoopThread ∧ failure ≠ .noConnection

variable {cfg : Config} {n : ℕ} {owner : ℕ → Option ℕ} {s : NetLayer}

theorem loopOf_modifyConn (s : NetLayer) (fd : ℕ) {f : Conn → Conn} (hf : ∀ c, (f c).loop = c.loop) :
    (s.modifyConn fd f).loopOf = s.loopOf := by
  funext j
  show Option.map Conn.loop (Function.update s.conns fd ((s.conns fd).map f) j) = Option.map Conn.loop (s.conns j)
  by_cases hj : j = fd
  · rw [hj, Function.update_self]
    cases s.conns fd with
    | none => rfl
    | some c => exact congrArg some (hf c)
  · rw [Function.update_of_ne hj]

theorem loopOf_of_conns {fd : ℕ} {c : Conn} (h : s.conns fd = some c) : s.loopOf fd = some c.loop := by
  rw [loopOf, h]
  rfl

theorem exists_conn_of_loopOf {fd loop : ℕ} (h : s.loopOf fd = some loop) : ∃ c, s.conns fd = some c ∧ c.loop = loop :=
  Option.map_eq_some_iff.mp h

theorem Config.acceptSocket_mem_fds (cfg : Config) (n : ℕ) : cfg.acceptSocket ∈ cfg.fds n := List.mem_cons_self

theorem Config.wakeupFd_mem_fds (cfg : Config) {n loop : ℕ} (h : loop ≤ n) : cfg.wakeupFd loop ∈ cfg.fds n := by
  refine List.mem_cons_of_mem _ (List.mem_map.mpr ⟨loop, ?_, rfl⟩)
  exact List.mem_range.mpr (Nat.lt_succ_of_le h)

/-- The descriptor of a connection is open and is none of the first ones. -/
theorem Affine.of_loopOf (h : Affine cfg n s) {fd loop : ℕ} (hfd : s.loopOf fd = some loop) :
    fd ∈ s.openFds ∧ fd ∉ cfg.fds n := by
  apply h.accepted fd
  rw [hfd]
  exact Option.some_ne_none loop

theorem Affine.keeps (h : Affine cfg n s) : Keeps cfg n s.loopOf (.ok s) := ⟨h, rfl⟩

theorem OwnsChannel.owner_eq {loop fd : ℕ} (h : OwnsChannel cfg n owner loop fd) (hwakeup : fd ≠ cfg.wakeupFd loop)
    (haccept : fd ≠ cfg.acceptSocket) : owner fd = some loop := by
  obtain ⟨-, hfd⟩ | ⟨-, hfd⟩ | hfd := h
  · exact absurd hfd hwakeup
  · exact absurd hfd haccept
  · exact hfd

/-- The acceptor's channel belongs to the base loop. -/
theorem Affine.loop_of_acceptSocket (h : Affine cfg n s) {loop fd : ℕ} (hfd : OwnsChannel cfg n s.loopOf loop fd)
    (hwakeup : fd ≠ cfg.wakeupFd loop) (haccept : fd = cfg.acceptSocket) : loop = 0 := by
  obtain ⟨-, hfd⟩ | ⟨hloop, -⟩ | hfd := hfd
  · exact absurd hfd hwakeup
  · exact hloop
  · exact absurd (haccept ▸ cfg.acceptSocket_mem_fds n) (h.of_loopOf hfd).2

/-! ## The pieces of a step keep affinity -/

theorem Keeps.bind {x : Except Failure NetLayer} {f : NetLayer → Except Failure NetLayer}
    (hx : Keeps cfg n owner x) (hf : ∀ t, Keeps cfg n owner (.ok t) → Keeps cfg n owner (f t)) :
    Keeps cfg n owner (x.bind f) := by
  cases x with
  | error failure => exact hx
  | ok t => exact hf t hx

theorem Keeps.modifyConn (h : Keeps cfg n owner (.ok s)) (fd : ℕ) (f : Conn → Conn)
    (hf : ∀ c, (f c).loop = c.loop) : Keeps cfg n owner (.ok (s.modifyConn fd f)) := by
  have howner := loopOf_modifyConn s fd hf
  refine ⟨⟨fun loop => ?_, h.1.opened, ?_⟩, howner.trans h.2⟩
  · rw [howner]
    exact h.1.loops loop
  · rw [howner]
    exact h.1.accepted

theorem Keeps.setConn (h : Keeps cfg n owner (.ok s)) (fd : ℕ) (conn : TcpConnection) :
    Keeps cfg n owner (.ok (s.setConn fd conn)) := by
  apply h.modifyConn
  exact fun _ => rfl

theorem Keeps.recordCallback (h : Keeps cfg n owner (.ok s)) (fd : ℕ) :
    Keeps cfg n owner (.ok (s.recordCallback fd)) := by
  apply h.modifyConn
  exact fun _ => rfl

theorem Keeps.countRemoval (h : Keeps cfg n owner (.ok s)) (fd : ℕ) :
    Keeps cfg n owner (.ok (s.countRemoval fd)) := by
  apply h.modifyConn
  exact fun _ => rfl

theorem Keeps.countDestruction (h : Keeps cfg n owner (.ok s)) (fd : ℕ) :
    Keeps cfg n owner (.ok (s.countDestruction fd)) := by
  apply h.modifyConn
  exact fun _ => rfl

theorem Keeps.modifyLoop (h : Keeps cfg n owner (.ok s)) {loop : ℕ} {f : Loop → Loop}
    (hf : LoopAffine cfg n owner loop (s.loops loop) → LoopAffine cfg n owner loop (f (s.loops loop))) :
    Keeps cfg n owner (.ok (s.modifyLoop loop f)) := by
  obtain ⟨haffine, rfl⟩ := h
  refine ⟨⟨fun other => ?_, haffine.opened, haffine.accepted⟩, rfl⟩
  show LoopAffine cfg n s.loopOf other ((s.modifyLoop loop f).loops other)
  by_cases hloop : other = loop
  · rw [hloop, loops_modifyLoop_self]
    exact hf (haffine.loops loop)
  · rw [loops_modifyLoop_of_ne s hloop]
    exact haffine.loops other

theorem Keeps.queueInLoop (h : Keeps cfg n owner (.ok s)) {loop : ℕ} {f : ServerFunctor}
    (hf : CallsInto owner loop f) : Keeps cfg n owner (.ok (s.queueInLoop loop f)) := by
  refine h.modifyLoop fun hl => ⟨fun g hg => ?_, hl.active, hl.registered, hl.callback⟩
  rw [queued_push] at hg
  obtain hg | hg := List.mem_append.mp hg
  · exact hl.queued g hg
  · rw [List.mem_singleton.mp hg]
    exact hf

theorem Keeps.enterCallback (h : Keeps cfg n owner (.ok s)) {loop fd : ℕ} (hfd : owner fd = some loop)
    (rest : List Effect) : Keeps cfg n owner (.ok (s.enterCallback loop fd rest)) := by
  refine h.modifyLoop fun hl => ⟨hl.queued, hl.active, hl.registered, fun j rest' hj => ?_⟩
  obtain ⟨rfl, -⟩ := Prod.mk.inj (Option.some.inj hj)
  exact hfd

theorem Keeps.setPoller (h : Keeps cfg n owner (.ok s)) {loop fd : ℕ} {p : Poller ℕ}
    (hfd : OwnsChannel cfg n owner loop fd)
    (hp : ∀ f x, p.kernel f = some x → (s.loops loop).poller.kernel f = some x ∨ x.2 = fd) :
    Keeps cfg n owner (.ok (s.setPoller loop p)) := by
  refine h.modifyLoop fun hl => ⟨hl.queued, hl.active, fun f x hx => ?_, hl.callback⟩
  obtain hold | hnew := hp f x hx
  · exact hl.registered f x hold
  · rw [hnew]
    exact hfd

theorem followPoller_kernel {p p' : Poller ℕ} {fd : ℕ} {channel : Channel} (h : followPoller p fd channel = some p')
    {f : ℕ} {x : Events × ℕ} (hx : p'.kernel f = some x) : p.kernel f = some x ∨ x.2 = fd := by
  obtain ⟨q, hq, hrest⟩ := Option.bind_eq_some_iff.mp h
  have hqx : q.kernel f = some x ∨ x.2 = fd := by
    split_ifs at hrest
    · exact Poller.removeChannel_kernel id hrest hx
    · obtain rfl := Option.some.inj hrest
      exact .inl hx
  obtain hqx | hfd := hqx
  · split_ifs at hq
    · exact Poller.updateChannel_kernel id hq hqx
    · obtain rfl := Option.some.inj hq
      exact .inl hqx
  · exact .inr hfd

theorem Keeps.followChannel (h : Keeps cfg n owner (.ok s)) {loop fd : ℕ} (hfd : owner fd = some loop)
    (channel : Channel) : Keeps cfg n owner (s.followChannel loop loop fd channel) := by
  unfold NetLayer.followChannel
  split_ifs
  · exact h
  · rw [assertInLoopThread_self]
    split
    case h_1 p hp => exact h.setPoller (.inr (.inr hfd)) fun f x hx => followPoller_kernel hp hx
    case h_2 => exact ⟨by decide, by decide⟩

theorem Keeps.exists_conn (h : Keeps cfg n owner (.ok s)) {fd : ℕ} (hfd : owner fd ≠ none) :
    ∃ c, s.conns fd = some c ∧ owner fd = some c.loop := by
  obtain ⟨-, rfl⟩ := h
  obtain ⟨loop, hloop⟩ := Option.ne_none_iff_exists'.mp hfd
  obtain ⟨c, hc, -⟩ := exists_conn_of_loopOf hloop
  exact ⟨c, hc, loopOf_of_conns hc⟩

theorem Keeps.exists_conn_on (h : Keeps cfg n owner (.ok s)) {fd loop : ℕ} (hfd : owner fd = some loop) :
    ∃ c, s.conns fd = some c ∧ c.loop = loop := exists_conn_of_loopOf (h.2 ▸ hfd)

theorem Keeps.removeConnectionInLoop (h : Keeps cfg n owner (.ok s)) {fd : ℕ} (hfd : owner fd ≠ none) :
    Keeps cfg n owner (s.removeConnectionInLoop 0 fd) := by
  obtain ⟨c, hc, hown⟩ := h.exists_conn hfd
  unfold NetLayer.removeConnectionInLoop
  simp only [assertInLoopThread_self, hc]
  split_ifs
  · exact ⟨by decide, by decide⟩
  · have hcalls : CallsInto owner c.loop (.conn fd .connectDestroyed) := hown
    have herased : Keeps cfg n owner (.ok { s with connections := Function.update s.connections c.name none }) :=
      ⟨⟨h.1.loops, h.1.opened, h.1.accepted⟩, h.2⟩
    exact (herased.countRemoval fd).queueInLoop hcalls

theorem Keeps.removeConnection (h : Keeps cfg n owner (.ok s)) (thread : ℕ) {fd : ℕ} (hfd : owner fd ≠ none) :
    Keeps cfg n owner (s.removeConnection thread fd) := by
  unfold NetLayer.removeConnection
  split_ifs with hthread
  · rw [hthread]
    exact h.removeConnectionInLoop hfd
  · exact h.queueInLoop ⟨rfl, hfd⟩

theorem Keeps.runEffects (h : Keeps cfg n owner (.ok s)) {loop fd : ℕ} (hfd : owner fd = some loop)
    (effects : List Effect) : Keeps cfg n owner (runEffects loop fd loop effects s) := by
  induction effects generalizing s with
  | nil => exact h
  | cons e rest ih =>
    cases e with
    | connectionCallback => exact (h.recordCallback fd).enterCallback hfd rest
    | messageCallback => exact h.enterCallback hfd rest
    | closeCallback =>
      have hne : owner fd ≠ none := Option.ne_none_iff_exists'.mpr ⟨loop, hfd⟩
      exact (h.removeConnection loop hne).bind fun t ht => ih ht
    | queueInLoop f => exact ih (h.queueInLoop hfd)
    | runInLoop | epollCtl | write | shutdownWrite => exact ih h

theorem Keeps.runHandler (h : Keeps cfg n owner (.ok s)) {fd : ℕ} {c : Conn} (hfd : owner fd = some c.loop)
    (r : TcpConnection × List Effect) : Keeps cfg n owner (s.runHandler c.loop fd c r) := by
  unfold NetLayer.runHandler
  rw [assertInLoopThread_self]
  refine (h.followChannel hfd _).bind fun t ht => ?_
  exact (ht.setConn fd r.1).runEffects hfd r.2

theorem Keeps.runAsserting (h : Keeps cfg n owner (.ok s)) {fd : ℕ} {c : Conn} (hfd : owner fd = some c.loop)
    (assertion : Failure) (hassertion : assertion ≠ .notInLoopThread ∧ assertion ≠ .noConnection)
    (r : Option (TcpConnection × List Effect)) :
    Keeps cfg n owner (s.runAsserting c.loop fd c assertion r) := by
  cases r with
  | some r => exact h.runHandler hfd r
  | none =>
    show Keeps cfg n owner (assertInLoopThread c.loop c.loop (.error assertion))
    rw [assertInLoopThread_self]
    exact hassertion

/-! ## Functors and callbacks -/

theorem Keeps.runFunctor (h : Keeps cfg n owner (.ok s)) {loop : ℕ} {f : ServerFunctor} (hf : CallsInto owner loop f)
    {result : WriteResult} {r : Except Failure NetLayer} (hr : s.runFunctor loop result f = some r) :
    Keeps cfg n owner r := by
  cases f with
  | removeConnectionInLoop fd =>
    obtain ⟨rfl, hfd⟩ := hf
    obtain rfl := Option.some.inj hr
    exact h.removeConnectionInLoop hfd
  | conn fd f =>
    obtain ⟨c, hc, rfl⟩ := h.exists_conn_on hf
    simp only [NetLayer.runFunctor, hc] at hr
    cases f with
    | sendInLoop message =>
      obtain ⟨x, -, rfl⟩ := Option.map_eq_some_iff.mp hr
      exact h.runHandler hf x
    | shutdownInLoop =>
      obtain rfl := Option.some.inj hr
      exact h.runHandler hf _
    | forceCloseInLoop | connectEstablished =>
      obtain rfl := Option.some.inj hr
      exact h.runAsserting hf _ (by decide) _
    | connectDestroyed =>
      obtain rfl := Option.some.inj hr
      exact (h.countDestruction fd).runAsserting hf _ (by decide) _
    | writeComplete | highWaterMark =>
      obtain rfl := Option.some.inj hr
      exact h.enterCallback hf []

theorem LoopAffine.mono {owner' : ℕ → Option ℕ} {loop : ℕ} {l : Loop} (h : LoopAffine cfg n owner loop l)
    (howner : ∀ fd, owner fd = some loop → owner' fd = some loop) (hsome : ∀ fd, owner fd ≠ none → owner' fd ≠ none) :
    LoopAffine cfg n owner' loop l where
  queued f hf := by
    have hf := h.queued f hf
    cases f with
    | conn fd f => exact howner fd hf
    | removeConnectionInLoop fd => exact ⟨hf.1, hsome fd hf.2⟩
  active x hx := (h.active x hx).imp_right (Or.imp_right (howner x.1))
  registered fd x hx := (h.registered fd x hx).imp_right (Or.imp_right (howner x.2))
  callback fd rest hfd := howner fd (h.callback fd rest hfd)

/-- A connection on a new descriptor leaves what the others own alone. -/
theorem Keeps.addConn (h : Keeps cfg n owner (.ok s)) {fd : ℕ} (hnew : owner fd = none) (hopen : fd ∈ s.openFds)
    (hfd : fd ∉ cfg.fds n) (next : ℕ) (c : Conn) :
    Keeps cfg n (Function.update owner fd (some c.loop)) (.ok (s.addConn next fd c)) := by
  obtain ⟨haffine, rfl⟩ := h
  have howner : (s.addConn next fd c).loopOf = Function.update s.loopOf fd (some c.loop) := by
    funext j
    show Option.map Conn.loop (Function.update s.conns fd (some c) j) = _
    by_cases hj : j = fd
    · rw [hj, Function.update_self, Function.update_self]
      rfl
    · rw [Function.update_of_ne hj, Function.update_of_ne hj]
      rfl
  refine ⟨⟨fun loop => ?_, haffine.opened, fun j hj => ?_⟩, howner⟩
  · rw [howner]
    have hold : ∀ j, s.loopOf j ≠ none → Function.update s.loopOf fd (some c.loop) j = s.loopOf j := by
      intro j hj
      apply Function.update_of_ne
      rintro rfl
      exact hj hnew
    refine (haffine.loops loop).mono (fun j hj => ?_) fun j hj => ?_
    · rw [hold j (Option.ne_none_iff_exists'.mpr ⟨loop, hj⟩), hj]
    · rw [hold j hj]
      exact hj
  · rw [howner] at hj
    by_cases hjfd : j = fd
    · rw [hjfd]
      exact ⟨hopen, hfd⟩
    · rw [Function.update_of_ne hjfd] at hj
      exact haffine.accepted j hj

/-- The owners behind a step: those before it, or one more, on the loop whose turn it is. -/
def NextOwners (n next : ℕ) (owner owner' : ℕ → Option ℕ) : Prop :=
  owner' = owner ∨ ∃ fd, owner' = Function.update owner fd (some (getNextLoop n next).1)

theorem Keeps.newConnection (h : Keeps cfg n owner (.ok s)) {fd : ℕ} (hnew : owner fd = none)
    (hopen : fd ∈ s.openFds) (hfd : fd ∉ cfg.fds n) :
    ∃ owner', NextOwners n s.next owner owner' ∧ Keeps cfg n owner' (newConnection cfg n s 0 fd) := by
  let c := Conn.new (getNextLoop n s.next).1 s.nextConnId (.new cfg.writeCompleteCallback)
  refine ⟨Function.update owner fd (some c.loop), .inr ⟨fd, rfl⟩, ?_⟩
  have hadd := h.addConn hnew hopen hfd (getNextLoop n s.next).2 c
  have hown : Function.update owner fd (some c.loop) fd = some c.loop := Function.update_self ..
  rw [NetLayer.newConnection, assertInLoopThread_self]
  show Keeps cfg n _ (if 0 = c.loop then _ else _)
  split_ifs with hloop
  · rw [hloop]
    exact hadd.runAsserting hown .connectEstablished (by decide) c.conn.connectEstablished
  · exact hadd.queueInLoop hown

theorem Keeps.acceptorHandleRead (h : Keeps cfg n owner (.ok s)) {accepted : Option ℕ}
    {r : Except Failure NetLayer} (hr : acceptorHandleRead cfg n s 0 accepted = some r) :
    ∃ owner', NextOwners n s.next owner owner' ∧ Keeps cfg n owner' r := by
  cases accepted with
  | none =>
    obtain rfl := Option.some.inj hr
    exact ⟨owner, .inl rfl, h⟩
  | some connfd =>
    simp only [NetLayer.acceptorHandleRead] at hr
    split_ifs at hr with hfd
    obtain rfl := Option.some.inj hr
    rw [assertInLoopThread_self]
    have hnew : owner connfd = none := by
      by_contra hne
      exact hfd (h.1.accepted connfd (h.2 ▸ hne)).1
    have hopened : Keeps cfg n owner (.ok { s with openFds := connfd :: s.openFds }) :=
      ⟨⟨h.1.loops, fun j hj => List.mem_cons_of_mem _ (h.1.opened j hj),
        fun j hj => ⟨List.mem_cons_of_mem _ (h.1.accepted j hj).1, (h.1.accepted j hj).2⟩⟩, h.2⟩
    exact hopened.newConnection hnew List.mem_cons_self fun hmem => hfd (h.1.opened connfd hmem)

theorem Keeps.runCallback (h : Keeps cfg n owner (.ok s)) {loop fd : ℕ} (hfd : OwnsChannel cfg n owner loop fd)
    {results : Results} {callback : Channel.Callback} {r : Except Failure NetLayer}
    (hr : runCallback cfg n s loop fd results callback = some r) :
    ∃ owner', NextOwners n s.next owner owner' ∧ Keeps cfg n owner' r := by
  unfold NetLayer.runCallback at hr
  split_ifs at hr with hwakeup haccept hread
  · obtain rfl := Option.some.inj hr
    exact ⟨owner, .inl rfl, h⟩
  · obtain rfl := h.1.loop_of_acceptSocket (h.2 ▸ hfd) hwakeup haccept
    exact h.acceptorHandleRead hr
  · obtain rfl := Option.some.inj hr
    exact ⟨owner, .inl rfl, h⟩
  · have hown := hfd.owner_eq hwakeup haccept
    obtain ⟨c, hc, rfl⟩ := h.exists_conn_on hown
    refine ⟨owner, .inl rfl, ?_⟩
    simp only [hc] at hr
    cases callback with
    | close | read =>
      obtain rfl := Option.some.inj hr
      exact h.runAsserting hown _ (by decide) _
    | error =>
      obtain rfl := Option.some.inj hr
      exact h
    | write =>
      obtain ⟨x, -, rfl⟩ := Option.map_eq_some_iff.mp hr
      exact h.runHandler hown x

/-! ## Steps -/

theorem Keeps.setPhase (h : Keeps cfg n owner (.ok s)) {loop : ℕ} {phase : Phase}
    (hbatch : ∀ f ∈ phase.batch, f ∈ (s.loops loop).queued)
    (hactive : ∀ x ∈ phase.active, OwnsChannel cfg n owner loop x.1) :
    Keeps cfg n owner (.ok (s.setPhase loop phase)) := by
  refine h.modifyLoop fun hl => ⟨fun f hf => ?_, hactive, hl.registered, hl.callback⟩
  obtain hf | hf := List.mem_append.mp hf
  · exact hl.queued f (hbatch f hf)
  · exact hl.queued f (List.mem_append_right _ hf)

/-- The loop takes the next callback of the first active channel. -/
theorem Keeps.takeCallback (h : Keeps cfg n owner (.ok s)) {loop fd : ℕ} {callback : Channel.Callback}
    {callbacks : List Channel.Callback} {active : List (ℕ × List Channel.Callback)}
    (hphase : (s.loops loop).phase = .handling ((fd, callback :: callbacks) :: active)) :
    Keeps cfg n owner (.ok (s.setPhase loop (.handling ((fd, callbacks) :: active)))) ∧
      OwnsChannel cfg n owner loop fd := by
  have hactive : ∀ x ∈ (fd, callback :: callbacks) :: active, OwnsChannel cfg n owner loop x.1 := by
    intro x hx
    have hl := (h.1.loops loop).active x (by rw [hphase]; exact hx)
    exact h.2 ▸ hl
  have hfd : OwnsChannel cfg n owner loop fd := hactive _ List.mem_cons_self
  refine ⟨h.setPhase (List.forall_mem_nil _) fun x hx => ?_, hfd⟩
  obtain rfl | hx := List.mem_cons.mp hx
  · exact hfd
  · exact hactive x (List.mem_cons_of_mem _ hx)

/-- The loop takes the next functor of its batch. -/
theorem Keeps.takeFunctor (h : Keeps cfg n owner (.ok s)) {loop : ℕ} {f : ServerFunctor} {batch : List ServerFunctor}
    (hphase : (s.loops loop).phase = .functors (f :: batch)) :
    Keeps cfg n owner (.ok (s.setPhase loop (.functors batch))) ∧ CallsInto owner loop f := by
  have hbatch : ∀ g ∈ f :: batch, g ∈ (s.loops loop).queued := by
    intro g hg
    exact List.mem_append_left _ (by rw [hphase]; exact hg)
  refine ⟨h.setPhase (fun g hg => hbatch g (List.mem_cons_of_mem f hg)) (List.forall_mem_nil _), ?_⟩
  exact h.2 ▸ (h.1.loops loop).queued f (hbatch f List.mem_cons_self)

theorem Keeps.poll (h : Keeps cfg n owner (.ok s)) (loop : ℕ) (reported : List (ℕ × Events)) :
    Keeps cfg n owner
      (.ok (s.setPhase loop (.handling (fillActiveChannels (s.loops loop).poller reported)))) := by
  refine h.setPhase (List.forall_mem_nil _) fun x hx => ?_
  obtain ⟨y, -, hy⟩ := List.mem_filterMap.mp hx
  obtain ⟨entry, hentry, rfl⟩ := Option.map_eq_some_iff.mp hy
  exact h.2 ▸ (h.1.loops loop).registered y.1 entry hentry

theorem Keeps.loopStep (h : Keeps cfg n owner (.ok s)) {loop : ℕ} {e : Event} {r : Except Failure NetLayer}
    (hr : loopStep cfg n s loop e = some r) :
    ∃ owner', NextOwners n s.next owner owner' ∧ Keeps cfg n owner' r := by
  have hl : LoopAffine cfg n owner loop (s.loops loop) := h.2 ▸ h.1.loops loop
  cases loopStep_cases hr with
  | poll hphase hregistered => exact ⟨owner, .inl rfl, h.poll loop _⟩
  | handle hphase hr =>
    obtain ⟨htaken, hfd⟩ := h.takeCallback hphase
    exact htaken.runCallback hfd hr
  | nextChannel hphase =>
    refine ⟨owner, .inl rfl, h.setPhase (List.forall_mem_nil _) fun x hx => hl.active x ?_⟩
    rw [hphase]
    exact List.mem_cons_of_mem _ hx
  | doPendingFunctors hphase =>
    refine ⟨owner, .inl rfl, h.modifyLoop fun hl => ?_⟩
    refine ⟨fun f hf => hl.queued f ?_, List.forall_mem_nil _, hl.registered, hl.callback⟩
    exact List.mem_append_right _ (by simpa [Loop.queued, Phase.batch] using hf)
  | run hphase hr =>
    obtain ⟨htaken, hf⟩ := h.takeFunctor hphase
    exact ⟨owner, .inl rfl, htaken.runFunctor hf hr⟩
  | endFunctors hphase => exact ⟨owner, .inl rfl, h.setPhase (List.forall_mem_nil _) (List.forall_mem_nil _)⟩

theorem Keeps.callbackReturns (h : Keeps cfg n owner (.ok s)) {loop : ℕ} {r : Except Failure NetLayer}
    (hr : s.callbackReturns loop = some r) : Keeps cfg n owner r := by
  unfold NetLayer.callbackReturns at hr
  split at hr
  case h_1 => cases hr
  case h_2 fd rest hcallback =>
    have hfd : owner fd = some loop := h.2 ▸ (h.1.loops loop).callback fd rest hcallback
    obtain ⟨c, hc, rfl⟩ := h.exists_conn_on hfd
    simp only [hc] at hr
    obtain rfl := Option.some.inj hr
    refine Keeps.runEffects ?_ hfd rest
    exact h.modifyLoop fun hl => ⟨hl.queued, hl.active, hl.registered, fun j _ hj => by cases hj⟩

theorem Keeps.startServer (h : Keeps cfg n owner (.ok s)) : Keeps cfg n owner (startServer cfg s) := by
  unfold NetLayer.startServer
  split_ifs
  · exact h
  · rw [assertInLoopThread_self]
    split
    case h_1 p hp =>
      have hstarted : Keeps cfg n owner (.ok { s with started := true }) :=
        ⟨⟨h.1.loops, h.1.opened, h.1.accepted⟩, h.2⟩
      exact hstarted.setPoller (.inr (.inl ⟨rfl, rfl⟩)) fun f x hx => Poller.apply_kernel id hp hx
    case h_2 => exact ⟨by decide, by decide⟩

theorem Keeps.setCalls (h : Keeps cfg n owner (.ok s)) (calls : List PendingCall) :
    Keeps cfg n owner (.ok { s with calls := calls }) :=
  ⟨⟨h.1.loops, h.1.opened, h.1.accepted⟩, h.2⟩

theorem Keeps.userCall (h : Keeps cfg n owner (.ok s)) {e : Event} {r : Except Failure NetLayer}
    (hr : s.userCall e = some r) : Keeps cfg n owner r := by
  have hown : ∀ {fd : ℕ} {c : Conn}, s.conns fd = some c → owner fd = some c.loop :=
    fun hc => h.2 ▸ loopOf_of_conns hc
  cases e with
  | send thread fd message result =>
    obtain ⟨c, hc, hr⟩ := Option.bind_eq_some_iff.mp hr
    split_ifs at hr with hstate hthread
    · obtain rfl := Option.some.inj hr
      exact h
    · subst hthread
      obtain ⟨x, -, rfl⟩ := Option.map_eq_some_iff.mp hr
      exact h.runHandler (hown hc) x
    · obtain rfl := Option.some.inj hr
      exact h.setCalls _
  | shutdown thread fd | forceClose thread fd =>
    obtain ⟨c, hc, hr⟩ := Option.bind_eq_some_iff.mp hr
    split_ifs at hr with hstate hthread
    · obtain rfl := Option.some.inj hr
      exact h
    · subst hthread
      obtain rfl := Option.some.inj hr
      exact h.runHandler (hown hc) _
    · obtain rfl := Option.some.inj hr
      exact h.setCalls _
  | store i =>
    obtain ⟨call, -, hr⟩ := Option.bind_eq_some_iff.mp hr
    split_ifs at hr
    obtain ⟨c, -, rfl⟩ := Option.map_eq_some_iff.mp hr
    exact (h.setCalls _).setConn call.id _
  | push i =>
    obtain ⟨call, -, hr⟩ := Option.bind_eq_some_iff.mp hr
    split_ifs at hr
    obtain ⟨c, hc, rfl⟩ := Option.map_eq_some_iff.mp hr
    exact (h.setCalls _).queueInLoop (hown hc)
  | _ => cases hr

theorem Keeps.act (h : Keeps cfg n owner (.ok s)) {e : Event} {r : Except Failure NetLayer}
    (hr : act cfg n s e = some r) :
    ∃ owner', NextOwners n s.next owner owner' ∧ Keeps cfg n owner' r := by
  unfold NetLayer.act at hr
  split at hr
  case h_1 loop =>
    split_ifs at hr
    exact h.loopStep hr
  case h_2 =>
    split at hr
    · obtain rfl := Option.some.inj hr
      exact ⟨owner, .inl rfl, h.startServer⟩
    · exact ⟨owner, .inl rfl, h.callbackReturns hr⟩
    · exact ⟨owner, .inl rfl, h.userCall hr⟩

theorem Affine.act {t : NetLayer} {e : Event} (h : Affine cfg n s) (ht : NetLayer.act cfg n s e = some (.ok t)) :
    Affine cfg n t := by
  obtain ⟨-, -, haffine, -⟩ := h.keeps.act ht
  exact haffine

theorem start_keeps (cfg : Config) (n : ℕ) : Keeps cfg n (fun _ => none) (.ok (start cfg n)) := by
  refine ⟨⟨fun loop => ?_, fun fd hfd => hfd, fun fd hfd => absurd rfl hfd⟩, rfl⟩
  refine ⟨List.forall_mem_nil _, List.forall_mem_nil _, fun f x hx => ?_, fun _ _ hfd => (by cases hfd)⟩
  change (startPoller cfg n loop).kernel f = some x at hx
  unfold startPoller at hx
  split_ifs at hx with hloop
  · cases hp : (Poller.start.apply id (cfg.wakeupFd loop) .enableReading : Option (Poller ℕ)) with
    | none =>
      rw [hp] at hx
      cases hx
    | some p =>
      rw [hp] at hx
      obtain hold | hnew := Poller.apply_kernel id hp hx
      · cases hold
      · exact .inl ⟨hloop, hnew⟩
  · cases hx

/-- Along every run each object stays on the loop that owns it, and no assertion about the loop's thread fails. -/
theorem keeps_of_run {cfg : Config} {n : ℕ} {es : List Event} {r : Except Failure NetLayer}
    (hrun : runFrom (step cfg n) (.ok (start cfg n)) es = some r) : ∃ owner, Keeps cfg n owner r := by
  have hkeep : ∀ x e t, (∃ owner, Keeps cfg n owner x) → step cfg n x e = some t → ∃ owner, Keeps cfg n owner t := by
    intro x e t hx ht
    cases x with
    | error failure => cases ht
    | ok s =>
      obtain ⟨owner, h⟩ := hx
      obtain ⟨owner', -, hkeeps⟩ := h.act ht
      exact ⟨owner', hkeeps⟩
  exact invariant_of_run hkeep ⟨_, start_keeps cfg n⟩ hrun

/-- The acceptor on descriptor 3, and the wakeup descriptors from 4 on. -/
def sampleConfig : Config := ⟨3, (· + 4), true⟩

end Chater.Net.NetLayer
