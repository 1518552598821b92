import Chater.Net.TcpServer

/-!
# Destroying the server

`TcpServer::~TcpServer` hands `ConnectDestroyed` of every entry of `connections_` to `RunInLoop`: on the thread of the
base loop it runs at once, and for a connection of an IO loop it is queued.  `ConnectDestroyed` takes a connection in
`kConnected` down itself, and relies on `HandleClose` for the others.  A connection in `kDisconnecting` is neither: its
channel still has events when `Channel::Remove` is called.  And `EventLoop::RemoveChannel` asserts that a channel of the
list it is going through is not removed by the handler of another one.
-/

namespace Chater.Net

open Base Foundations

set_option autoImplicit false

/-! ## The list of the base loop -/

/-- The net layer on one loop with the loop's `activeChannels_`, as the last `Poll` has filled it. -/
structure Polled where
  net : NetLayer
  activeChannels : List ℕ

namespace Polled

def start (cfg : NetLayer.Config) : Polled := ⟨.start cfg 0, []⟩

def fillActiveChannels (activeChannels : List ℕ) (net : NetLayer) : NetLayer.Event → List ℕ
  | .poll _ _ => (net.loops 0).phase.active.map Prod.fst
  | _ => activeChannels

def step (cfg : NetLayer.Config) : Except Failure Polled → NetLayer.Event → Option (Except Failure Polled)
  | .ok s, e =>
    (NetLayer.act cfg 0 s.net e).map fun r => r.map fun net => ⟨net, fillActiveChannels s.activeChannels net e⟩
  | .error _, _ => none

end Polled

namespace NetLayer

/-! ## The destructor -/

/-- The assertion of `EventLoop::RemoveChannel`.  `currentActiveChannel_` is the first of the channels left. -/
def mayRemove (activeChannels : List ℕ) (s : NetLayer) (fd : ℕ) : Bool :=
  !(s.loops 0).phase.eventHandling || (s.loops 0).phase.active.head?.any (fun x => x.1 == fd) ||
    !activeChannels.contains fd

/-- `ConnectDestroyed` of the connection on `fd`, on the thread of the base loop, which is the connection's.  The user's
callback returns at once. -/
def connectDestroyed (activeChannels : List ℕ) (s : NetLayer) (fd : ℕ) (c : Conn) : Except Failure NetLayer :=
  match c.conn.connectDestroyed with
  | none => .error .channelRemove
  | some r =>
    if mayRemove activeChannels s fd then
      ((s.countDestruction fd).followChannel 0 c.loop fd r.1.channel).map fun s =>
        if .connectionCallback ∈ r.2 then (s.setConn fd r.1).recordCallback fd else s.setConn fd r.1
    else .error .removeChannel

/-- One entry of `connections_`. -/
def destroyConnection (activeChannels : List ℕ) (s : NetLayer) (fd : ℕ) : Except Failure NetLayer :=
  match s.conns fd with
  | none => .error .noConnection
  | some c =>
    if c.loop = 0 then s.connectDestroyed activeChannels fd c
    else .ok (s.queueInLoop c.loop (.conn fd .connectDestroyed))

/-- The loop of `~TcpServer`, over the names in `connections_`. -/
def destroyAll (activeChannels : List ℕ) : List (BitVec 32) → NetLayer → Except Failure NetLayer
  | [], s => .ok s
  | name :: names, s =>
    match s.connections name with
    | none => destroyAll activeChannels names s
    | some fd => (s.destroyConnection activeChannels fd).bind (destroyAll activeChannels names)

/-- The names that `connections_` has an entry for, in some order. -/
structure Entries (connections : BitVec 32 → Option ℕ) (names : List (BitVec 32)) : Prop where
  nodup : names.Nodup
  mem : ∀ name, name ∈ names ↔ connections name ≠ none

/-- The connection `c` on `fd` has been taken down, and `~TcpConnection` finds it so. -/
structure TornDown (t : NetLayer) (fd : ℕ) (c : Conn) : Prop where
  conn : ∃ d, t.conns fd = some d ∧ d.loop = c.loop ∧ d.conn.state = .kDisconnected ∧
    (false ∉ c.callbacks → d.callbacks = c.callbacks ++ [false])
  removed : (t.loops c.loop).poller.channels fd = none

/-- The destructor runs to its end, and has taken every connection down. -/
def DestroysCleanly (s : Polled) (names : List (BitVec 32)) : Prop :=
  ∃ t, destroyAll s.activeChannels names s.net = .ok t ∧
    ∀ name fd c, s.net.connections name = some fd → s.net.conns fd = some c → TornDown t fd c

variable {cfg : Config} {n : ℕ} {s t : NetLayer} {fd : ℕ} {c : Conn} {activeChannels : List ℕ}

theorem connectDestroyed_of_none (hr : c.conn.connectDestroyed = none) :
    s.connectDestroyed activeChannels fd c = .error .channelRemove := by
  simp only [connectDestroyed, hr]

theorem connectDestroyed_of_some {r : TcpConnection × List Effect} (hr : c.conn.connectDestroyed = some r)
    (hmay : mayRemove activeChannels s fd = true) :
    s.connectDestroyed activeChannels fd c =
      ((s.countDestruction fd).followChannel 0 c.loop fd r.1.channel).map fun s =>
        if .connectionCallback ∈ r.2 then (s.setConn fd r.1).recordCallback fd else s.setConn fd r.1 := by
  simp only [connectDestroyed, hr, hmay, if_true]

theorem destroyConnection_of_base (hc : s.conns fd = some c) (hloop : c.loop = 0) :
    s.destroyConnection activeChannels fd = s.connectDestroyed activeChannels fd c := by
  simp only [destroyConnection, hc, hloop, if_true]

/-! ## The functor as the loop runs it -/

theorem runEffects_epollCtl (thread fd loop : ℕ) (ctls : List EpollCtl) (s : NetLayer) :
    runEffects thread fd loop (ctls.map .epollCtl) s = .ok s := by
  induction ctls with
  | nil => rfl
  | cons ctl ctls ih => exact ih

theorem leaveCallback_of_idle {loop : ℕ} (h : (s.loops loop).callback = none) : s.leaveCallback loop = s := by
  have hsame : { s.loops loop with callback := none } = s.loops loop := by
    rw [← h]
  show { s with loops := Function.update s.loops loop { s.loops loop with callback := none } } = s
  rw [hsame, Function.update_eq_self]

theorem leaveCallback_enterCallback (s : NetLayer) (loop fd : ℕ) (rest : List Effect) :
    (s.enterCallback loop fd rest).leaveCallback loop = s.leaveCallback loop := by
  have hself : (s.enterCallback loop fd rest).loops loop = { s.loops loop with callback := some (fd, rest) } :=
    loops_modifyLoop_self s loop fun l => { l with callback := some (fd, rest) }
  show { s with loops := Function.update (Function.update s.loops loop _) loop _ } = s.leaveCallback loop
  rw [Function.update_idem, hself]
  rfl

/-- What `ConnectDestroyed` does to its surroundings. -/
theorem connectDestroyed_effects {conn : TcpConnection} {r : TcpConnection × List Effect}
    (hr : conn.connectDestroyed = some r) :
    (conn.state = .kConnected ∧ r.1.state = .kDisconnected ∧
      ∃ ctl ctls, r.2 = .epollCtl ctl :: .connectionCallback :: List.map Effect.epollCtl ctls) ∨
      (conn.state ≠ .kConnected ∧ r.1.state = conn.state ∧ ∃ ctls, r.2 = List.map Effect.epollCtl ctls) := by
  unfold TcpConnection.connectDestroyed at hr
  by_cases hstate : conn.state = .kConnected
  · simp only [hstate, if_true] at hr
    obtain ⟨x, -, hr⟩ := Option.bind_eq_some_iff.mp hr
    obtain rfl := Option.some.inj hr
    exact .inl ⟨hstate, rfl, _, x.2, rfl⟩
  · simp only [hstate, if_false] at hr
    obtain ⟨x, -, hr⟩ := Option.bind_eq_some_iff.mp hr
    obtain rfl := Option.some.inj hr
    exact .inr ⟨hstate, rfl, x.2, rfl⟩

theorem connectionCallback_not_mem (ctls : List EpollCtl) : .connectionCallback ∉ List.map Effect.epollCtl ctls := by
  simp

theorem followChannel_same {thread loop : ℕ} {channel : Channel}
    (h : s.followChannel thread loop fd channel = .ok t) (other : ℕ) :
    (t.loops other).callback = (s.loops other).callback ∧ (t.loops other).phase = (s.loops other).phase := by
  unfold followChannel at h
  split_ifs at h
  · rw [← Except.ok.inj h]
    exact ⟨rfl, rfl⟩
  · unfold assertInLoopThread at h
    split_ifs at h
    split at h
    · rw [← Except.ok.inj h]
      exact ⟨modifyLoop_same Loop.callback (by intro l; rfl) s loop other,
        modifyLoop_same Loop.phase (by intro l; rfl) s loop other⟩
    · cases h

/-- The destructor's `ConnectDestroyed` is the functor of the loop, with the user's callback done. -/
theorem connectDestroyed_eq_runFunctor (hc : s.conns fd = some c) (hloop : c.loop = 0)
    (hidle : (s.loops 0).callback = none) (hmay : mayRemove activeChannels s fd = true) (result : WriteResult) :
    ∃ r, s.runFunctor 0 result (.conn fd .connectDestroyed) = some r ∧
      s.connectDestroyed activeChannels fd c = r.map fun t => t.leaveCallback 0 := by
  refine ⟨(s.countDestruction fd).runAsserting 0 fd c .channelRemove c.conn.connectDestroyed, ?_, ?_⟩
  · simp only [runFunctor, hc]
  · cases hr : c.conn.connectDestroyed with
    | none =>
      rw [connectDestroyed_of_none hr]
      show _ = (assertInLoopThread 0 c.loop (.error .channelRemove)).map _
      rw [hloop, assertInLoopThread_self]
      rfl
    | some r =>
      rw [connectDestroyed_of_some hr hmay]
      show _ = ((s.countDestruction fd).runHandler 0 fd c r).map _
      unfold runHandler
      rw [hloop, assertInLoopThread_self]
      cases hfollow : (s.countDestruction fd).followChannel 0 0 fd r.1.channel with
      | error failure => rfl
      | ok t =>
        have hcallback : (t.loops 0).callback = none := (followChannel_same hfollow 0).1.trans hidle
        obtain ⟨-, -, ctl, ctls, heffects⟩ | ⟨-, -, ctls, heffects⟩ := connectDestroyed_effects hr
        · show Except.ok (ite _ _ _) = (runEffects 0 fd 0 r.2 (t.setConn fd r.1)).map _
          rw [heffects, if_pos (List.mem_cons_of_mem _ List.mem_cons_self)]
          show Except.ok _ = .ok ((((t.setConn fd r.1).recordCallback fd).enterCallback 0 fd _).leaveCallback 0)
          rw [leaveCallback_enterCallback, leaveCallback_of_idle]
          exact hcallback
        · show Except.ok (ite _ _ _) = (runEffects 0 fd 0 r.2 (t.setConn fd r.1)).map _
          rw [heffects, if_neg (connectionCallback_not_mem ctls), runEffects_epollCtl]
          show Except.ok _ = .ok ((t.setConn fd r.1).leaveCallback 0)
          rw [leaveCallback_of_idle]
          exact hcallback

/-! ## A connection that is up -/

theorem followChannel_conns {thread loop : ℕ} {channel : Channel} (h : s.followChannel thread loop fd channel = .ok t) :
    t.conns = s.conns ∧ t.connections = s.connections := by
  unfold followChannel at h
  split_ifs at h
  · rw [← Except.ok.inj h]
    exact ⟨rfl, rfl⟩
  · unfold assertInLoopThread at h
    split_ifs at h
    split at h
    · rw [← Except.ok.inj h]
      exact ⟨rfl, rfl⟩
    · cases h

/-- What `ConnectDestroyed` makes of a connection in `kConnected`. -/
structure Destroyed (c d : Conn) : Prop where
  loop : d.loop = c.loop
  state : d.conn.state = .kDisconnected
  channel : d.conn.channel = .new
  callbacks : d.callbacks = c.callbacks ++ [false]

theorem exists_remove_disableAll (c : Channel) : ∃ x, c.disableAll.1.remove = some x := by
  have hnone := Channel.isNoneEvent_disableAll c
  have hindex : c.disableAll.1.index = 1 ∨ c.disableAll.1.index = 2 := by
    unfold Channel.disableAll Channel.update
    simp only
    split_ifs with hnew
    · exact .inl rfl
    · exact .inr rfl
    · rename_i hevents
      exact absurd rfl hevents
  unfold Channel.remove
  rw [if_pos ⟨hnone, hindex⟩]
  exact ⟨_, rfl⟩

theorem exists_connectDestroyed {conn : TcpConnection} (h : conn.state = .kConnected) :
    ∃ r, conn.connectDestroyed = some r := by
  obtain ⟨x, hx⟩ := exists_remove_disableAll conn.channel
  unfold TcpConnection.connectDestroyed
  simp only [h, if_true, hx]
  exact ⟨_, rfl⟩

theorem mayRemove_of_phase (h : (t.loops 0).phase = (s.loops 0).phase) :
    mayRemove activeChannels t = mayRemove activeChannels s := by
  funext fd
  rw [mayRemove, mayRemove, h]

theorem Followed.connectDestroyed (h : Followed s) (hc : s.conns fd = some c) (hloop : c.loop = 0)
    (hstate : c.conn.state = .kConnected) (hmay : mayRemove activeChannels s fd = true) :
    ∃ t d, s.connectDestroyed activeChannels fd c = .ok t ∧ Followed t ∧ t.connections = s.connections ∧
      (t.loops 0).phase = (s.loops 0).phase ∧ t.conns fd = some d ∧ (∀ j, j ≠ fd → t.conns j = s.conns j) ∧
      Destroyed c d := by
  obtain ⟨r, hr⟩ := exists_connectDestroyed hstate
  obtain ⟨hnew, -, -⟩ := connectDestroyed_spec hr
  obtain ⟨hdown, ctl, ctls, heffects⟩ : r.1.state = .kDisconnected ∧
      ∃ ctl ctls, r.2 = .epollCtl ctl :: .connectionCallback :: List.map Effect.epollCtl ctls := by
    obtain ⟨-, hdown, hcallback⟩ | ⟨hnot, -⟩ := connectDestroyed_effects hr
    · exact ⟨hdown, hcallback⟩
    · exact absurd hstate hnot
  let u := s.countDestruction fd
  have hu : Followed u := h.modifyConn fd (fun _ => rfl) fun _ => rfl
  have hconn : u.conns fd = some c.countDestruction := conns_modifyConn_self hc _
  have hchannel : (u.loops c.loop).poller.channel fd = c.conn.channel := hu.channel fd c.countDestruction hconn
  have hindex : ((u.loops c.loop).poller.channel fd).index ≠ -1 := by
    rw [hchannel]
    exact h.connected fd c hc hstate
  obtain ⟨p, hp⟩ := pollerKnows_of_destroyed (hu.consistent c.loop) hindex
  rw [← hnew] at hp
  let v := (u.setPoller c.loop p).setConn fd r.1
  have hv : Followed v := hu.knows (c := c.countDestruction) hconn hp fun hup =>
    absurd (hdown.symm.trans hup) (by decide)
  have hvconn : v.conns fd = some (c.countDestruction.setConn r.1) :=
    conns_setConn_self (s := u.setPoller c.loop p) hconn r.1
  have hfollow : u.followChannel 0 c.loop fd r.1.channel = .ok (u.setPoller c.loop p) := by
    have hself := hp.1
    rw [hloop] at hself ⊢
    exact hself
  refine ⟨v.recordCallback fd, (c.countDestruction.setConn r.1).recordCallback, ?_,
    hv.modifyConn fd (fun _ => rfl) fun _ => rfl, rfl, (followChannel_same hfollow 0).2, conns_modifyConn_self hvconn _,
    fun j hj => ?_, rfl, hdown, hnew, ?_⟩
  · rw [connectDestroyed_of_some hr hmay, hfollow]
    show Except.ok (ite _ _ _) = _
    rw [heffects, if_pos (List.mem_cons_of_mem _ List.mem_cons_self)]
  · have hrecord : (v.recordCallback fd).conns j = v.conns j := conns_modifyConn_of_ne v hj _
    have hset : v.conns j = u.conns j := conns_setConn_of_ne (u.setPoller c.loop p) hj r.1
    have hcount : u.conns j = s.conns j := conns_modifyConn_of_ne s hj _
    rw [hrecord, hset, hcount]
  · show c.callbacks ++ [decide (r.1.state = .kConnected)] = c.callbacks ++ [false]
    rw [hdown]
    rfl

/-- When all the connections are up and may be removed, every one of them is taken down. -/
theorem Followed.destroyAll {names : List (BitVec 32)} (h : Followed s) (hnodup : names.Nodup)
    (hup : ∀ name ∈ names, ∃ fd c, s.connections name = some fd ∧ s.conns fd = some c ∧ c.loop = 0 ∧
      c.conn.state = .kConnected ∧ mayRemove activeChannels s fd = true)
    (hinj : ∀ name name' fd, s.connections name = some fd → s.connections name' = some fd → name = name') :
    ∃ t, destroyAll activeChannels names s = .ok t ∧ Followed t ∧
      (∀ fd, (∀ name ∈ names, s.connections name ≠ some fd) → t.conns fd = s.conns fd) ∧
      ∀ name ∈ names, ∀ fd c, s.connections name = some fd → s.conns fd = some c →
        ∃ d, t.conns fd = some d ∧ Destroyed c d := by
  induction names generalizing s with
  | nil => exact ⟨s, rfl, h, fun _ _ => rfl, List.forall_mem_nil _⟩
  | cons name names ih =>
    obtain ⟨hfresh, hnodup⟩ := List.nodup_cons.mp hnodup
    obtain ⟨⟨fd, c, hname, hc, hloop, hstate, hmay⟩, hrest⟩ := List.forall_mem_cons.mp hup
    obtain ⟨u, d, hu, hfollowed, hconnections, hphase, hd, hother, hdestroyed⟩ := h.connectDestroyed hc hloop hstate hmay
    -- the other names are those of other connections
    have hne : ∀ name' ∈ names, ∀ fd', s.connections name' = some fd' → fd' ≠ fd := by
      rintro name' hname' fd' hfd' rfl
      exact hfresh (hinj name name' fd' hname hfd' ▸ hname')
    obtain ⟨t, ht, htfollowed, hkept, htorn⟩ := ih hfollowed hnodup
      (fun name' hname' => by
        obtain ⟨fd', c', hfd', hc', hloop', hstate', hmay'⟩ := hrest name' hname'
        refine ⟨fd', c', ?_, (hother fd' (hne name' hname' fd' hfd')).trans hc', hloop', hstate', ?_⟩
        · rw [hconnections]
          exact hfd'
        · rw [mayRemove_of_phase hphase]
          exact hmay')
      (by rw [hconnections]; exact hinj)
    rw [hconnections] at hkept htorn
    refine ⟨t, ?_, htfollowed, fun j hj => ?_, ?_⟩
    · show (match s.connections name with
        | none => NetLayer.destroyAll activeChannels names s
        | some fd => (s.destroyConnection activeChannels fd).bind (NetLayer.destroyAll activeChannels names)) = .ok t
      rw [hname]
      show (s.destroyConnection activeChannels fd).bind (NetLayer.destroyAll activeChannels names) = .ok t
      rw [destroyConnection_of_base hc hloop, hu]
      exact ht
    · obtain ⟨hfirst, hj⟩ := List.forall_mem_cons.mp hj
      have hjfd : j ≠ fd := fun heq => hfirst (heq ▸ hname)
      rw [hkept j hj, hother j hjfd]
    · refine List.forall_mem_cons.mpr ⟨fun fd' c' hfd' hc' => ?_, fun name' hname' fd' c' hfd' hc' => ?_⟩
      · obtain rfl := Option.some.inj (hname.symm.trans hfd')
        obtain rfl := Option.some.inj (hc.symm.trans hc')
        exact ⟨d, (hkept fd fun name' hname' heq => hne name' hname' fd heq rfl).trans hd, hdestroyed⟩
      · rw [← hother fd' (hne name' hname' fd' hfd')] at hc'
        exact htorn name' hname' fd' c' hfd' hc'

/-! ## A connection that is not -/

/-- What a `ConnectDestroyed` that fails no assertion leaves as it was. -/
structure Destroys (activeChannels : List ℕ) (s t : NetLayer) (fd : ℕ) (c : Conn) : Prop where
  mayRemove : mayRemove activeChannels s fd = true
  connections : t.connections = s.connections
  phase : (t.loops 0).phase = (s.loops 0).phase
  other : ∀ j, j ≠ fd → t.conns j = s.conns j
  self : ∃ d, t.conns fd = some d ∧ d.loop = c.loop ∧ (c.conn.state ≠ .kConnected → d.conn.state = c.conn.state)

theorem destroys_of_ok (hc : s.conns fd = some c) (h : s.connectDestroyed activeChannels fd c = .ok t) :
    Destroys activeChannels s t fd c := by
  cases hr : c.conn.connectDestroyed with
  | none =>
    rw [connectDestroyed_of_none hr] at h
    cases h
  | some r =>
    cases hmay : NetLayer.mayRemove activeChannels s fd with
    | false =>
      simp only [connectDestroyed, hr, hmay] at h
      cases h
    | true =>
      rw [connectDestroyed_of_some hr hmay] at h
      cases hfollow : (s.countDestruction fd).followChannel 0 c.loop fd r.1.channel with
      | error failure =>
        rw [hfollow] at h
        cases h
      | ok u =>
        rw [hfollow] at h
        have ht : (if .connectionCallback ∈ r.2 then (u.setConn fd r.1).recordCallback fd else u.setConn fd r.1) = t :=
          Except.ok.inj h
        obtain ⟨hconns, hconnections⟩ := followChannel_conns hfollow
        have hphase : (u.loops 0).phase = (s.loops 0).phase := (followChannel_same hfollow 0).2
        have hu : (u.setConn fd r.1).conns fd = some (c.countDestruction.setConn r.1) :=
          conns_setConn_self (by rw [hconns]; exact conns_modifyConn_self hc _) r.1
        have hother : ∀ j, j ≠ fd → (u.setConn fd r.1).conns j = s.conns j := by
          intro j hj
          rw [conns_setConn_of_ne u hj, hconns]
          exact conns_modifyConn_of_ne s hj _
        have hstate : c.conn.state ≠ .kConnected → r.1.state = c.conn.state := by
          intro hdown
          obtain ⟨hup, -⟩ | ⟨-, hsame, -⟩ := connectDestroyed_effects hr
          · exact absurd hup hdown
          · exact hsame
        rw [← ht]
        split_ifs
        · exact ⟨hmay, hconnections, hphase, fun j hj => (conns_modifyConn_of_ne _ hj _).trans (hother j hj),
            _, conns_modifyConn_self hu _, rfl, hstate⟩
        · exact ⟨hmay, hconnections, hphase, hother, _, hu, rfl, hstate⟩

/-- What a destructor that runs to its end has found, when all the connections are on the base loop. -/
theorem of_destroyAll {names : List (BitVec 32)} (h : destroyAll activeChannels names s = .ok t)
    (hbase : ∀ fd c, s.conns fd = some c → c.loop = 0) :
    (∀ name ∈ names, ∀ fd, s.connections name = some fd → mayRemove activeChannels s fd = true) ∧
      ∀ fd c, s.conns fd = some c → c.conn.state ≠ .kConnected →
        ∃ d, t.conns fd = some d ∧ d.conn.state = c.conn.state := by
  induction names generalizing s with
  | nil =>
    obtain rfl := Except.ok.inj h
    exact ⟨List.forall_mem_nil _, fun fd c hc _ => ⟨c, hc, rfl⟩⟩
  | cons name names ih =>
    unfold NetLayer.destroyAll at h
    split at h
    · rename_i hname
      obtain ⟨hmay, hstate⟩ := ih h hbase
      refine ⟨List.forall_mem_cons.mpr ⟨fun fd hfd => ?_, hmay⟩, hstate⟩
      cases hname.symm.trans hfd
    · rename_i j hj
      cases hc : s.conns j with
      | none =>
        simp only [destroyConnection, hc] at h
        cases h
      | some b =>
        rw [destroyConnection_of_base hc (hbase j b hc)] at h
        cases hu : s.connectDestroyed activeChannels j b with
        | error failure =>
          rw [hu] at h
          cases h
        | ok u =>
          rw [hu] at h
          have hdestroys := destroys_of_ok hc hu
          obtain ⟨b', hb', hloop, hkept⟩ := hdestroys.self
          obtain ⟨hmay, hstate⟩ := ih h fun fd c hfd => by
            by_cases hne : fd = j
            · rw [hne, hb'] at hfd
              rw [← Option.some.inj hfd, hloop]
              exact hbase j b hc
            · rw [hdestroys.other fd hne] at hfd
              exact hbase fd c hfd
          rw [hdestroys.connections, mayRemove_of_phase hdestroys.phase] at hmay
          refine ⟨List.forall_mem_cons.mpr ⟨fun fd hfd => ?_, hmay⟩, fun fd c hfd hdown => ?_⟩
          · rw [← Option.some.inj (hj.symm.trans hfd)]
            exact hdestroys.mayRemove
          · by_cases hne : fd = j
            · rw [hne, hc] at hfd
              obtain rfl := Option.some.inj hfd
              obtain ⟨d, hd, hsame⟩ := hstate j b' hb' (by rw [hkept hdown]; exact hdown)
              exact ⟨d, hne ▸ hd, hsame.trans (hkept hdown)⟩
            · exact hstate fd c ((hdestroys.other fd hne).trans hfd) hdown

/-! ## The destructor takes down what is up -/

theorem sound_of_polled {es : List Event} {s : Polled}
    (hrun : runFrom (Polled.step cfg) (.ok (.start cfg)) es = some (.ok s)) : Server.Sound cfg 0 s.net := by
  have hkeep : ∀ x e y, (∀ s, x = .ok s → Server.Sound cfg 0 s.net) → Polled.step cfg x e = some y →
      ∀ t, y = .ok t → Server.Sound cfg 0 t.net := by
    rintro x e y hx hy t rfl
    cases x with
    | error failure => cases hy
    | ok s =>
      obtain ⟨r, hr, hrt⟩ := Option.map_eq_some_iff.mp hy
      cases r with
      | error failure => cases hrt
      | ok net =>
        obtain rfl := Except.ok.inj hrt
        exact (hx s rfl).act hr
  refine invariant_of_run hkeep (fun s hs => ?_) hrun s rfl
  obtain rfl := Except.ok.inj hs
  exact Server.start_sound cfg 0

/-- **The server is destroyed cleanly exactly when no connection is half-closed or in the middle of the list.**  In every
state that one loop reaches with connections in `kConnected` and `kDisconnecting`, the destructor takes all of them down
and fails no assertion, if and only if all of them are in `kConnected` and, should the loop be going through its active
channels, each is the current one or not among them. -/
theorem destroysCleanly_iff {es : List Event} {s : Polled} {names : List (BitVec 32)}
    (hrun : runFrom (Polled.step cfg) (.ok (.start cfg)) es = some (.ok s)) (hnames : Entries s.net.connections names)
    (hopen : ∀ name fd c, s.net.connections name = some fd → s.net.conns fd = some c →
      c.conn.state = .kConnected ∨ c.conn.state = .kDisconnecting) :
    DestroysCleanly s names ↔
      ∀ name fd c, s.net.connections name = some fd → s.net.conns fd = some c →
        c.conn.state = .kConnected ∧ mayRemove s.activeChannels s.net fd = true := by
  have hsound := sound_of_polled hrun
  have hbase : ∀ fd c, s.net.conns fd = some c → c.loop = 0 := fun fd c hc =>
    Nat.le_zero.mp (hsound.onLoops.loopOf fd c.loop (loopOf_of_conns hc))
  have hmem : ∀ name fd, s.net.connections name = some fd → name ∈ names := by
    intro name fd hname
    refine (hnames.mem name).mpr ?_
    rw [hname]
    exact Option.some_ne_none fd
  constructor
  · rintro ⟨t, ht, htorn⟩ name fd c hname hc
    obtain ⟨hmay, hstate⟩ := of_destroyAll ht hbase
    refine ⟨?_, hmay name (hmem name fd hname) fd hname⟩
    by_contra hdown
    obtain ⟨d, hd, hsame⟩ := hstate fd c hc hdown
    obtain ⟨d', hd', -, hdown', -⟩ := (htorn name fd c hname hc).conn
    obtain rfl := Option.some.inj (hd.symm.trans hd')
    rw [hdown'] at hsame
    have hopen := hopen name fd c hname hc
    rw [← hsame] at hopen
    exact absurd hopen (by decide)
  · intro hup
    have hinj : ∀ name name' fd, s.net.connections name = some fd → s.net.connections name' = some fd →
        name = name' := by
      intro name name' fd hname hname'
      obtain ⟨c, hc, rfl⟩ := hsound.registered.entries name fd hname
      obtain ⟨c', hc', rfl⟩ := hsound.registered.entries name' fd hname'
      rw [Option.some.inj (hc.symm.trans hc')]
    obtain ⟨t, ht, hfollowed, -, htorn⟩ := hsound.registered.followed.destroyAll hnames.nodup
      (fun name hname => by
        obtain ⟨fd, hfd⟩ := Option.ne_none_iff_exists'.mp ((hnames.mem name).mp hname)
        obtain ⟨c, hc, -⟩ := hsound.registered.entries name fd hfd
        exact ⟨fd, c, hfd, hc, hbase fd c hc, hup name fd c hfd hc⟩) hinj
    refine ⟨t, ht, fun name fd c hname hc => ?_⟩
    obtain ⟨d, hd, hdestroyed⟩ := htorn name (hmem name fd hname) fd c hname hc
    refine ⟨⟨d, hd, hdestroyed.loop, hdestroyed.state, fun _ => hdestroyed.callbacks⟩, ?_⟩
    have hchannel := hfollowed.channel fd d hd
    rw [hdestroyed.loop, hdestroyed.channel] at hchannel
    rw [channels_eq (hfollowed.consistent c.loop), hchannel]
    rfl

section Entries

variable {connections : BitVec 32 → Option ℕ} {name : BitVec 32} {names : List (BitVec 32)}

theorem entries_nil : Entries (fun _ => none) [] := ⟨List.nodup_nil, fun _ => by simp⟩

theorem Entries.update (h : Entries connections names) (hname : name ∉ names) (fd : ℕ) :
    Entries (Function.update connections name (some fd)) (name :: names) := by
  refine ⟨List.nodup_cons.mpr ⟨hname, h.nodup⟩, fun other => ?_⟩
  rw [List.mem_cons, h.mem]
  by_cases hother : other = name
  · rw [hother, Function.update_self]
    exact iff_of_true (.inl rfl) (Option.some_ne_none fd)
  · rw [Function.update_of_ne hother, or_iff_right hother]

theorem forall_update {P : ℕ → Prop} (hfd : P fd) (h : ∀ name fd, connections name = some fd → P fd) :
    ∀ other j, Function.update connections name (some fd) other = some j → P j := by
  intro other j hj
  by_cases hother : other = name
  · rw [hother, Function.update_self] at hj
    exact Option.some.inj hj ▸ hfd
  · rw [Function.update_of_ne hother] at hj
    exact h other j hj

end Entries

/-- One loop accepts clients on 7 and 8. -/
def twoClients : List Event :=
  let accept (fd : ℕ) : Results := ⟨some fd, .bytes [], .wrote 0, id⟩
  [.start, .poll 0 [(3, EPOLLIN)], .handle 0 (accept 7), .callbackReturns 0, .handle 0 (accept 7),
    .doPendingFunctors 0, .endFunctors 0,
    .poll 0 [(3, EPOLLIN)], .handle 0 (accept 8), .callbackReturns 0, .handle 0 (accept 8),
    .doPendingFunctors 0, .endFunctors 0]

/-- The loop is in the message callback of 7, and the active channels are those of `reported`. -/
def inMessageCallback (reported : List (ℕ × Events)) : List Event :=
  twoClients ++ [.poll 0 reported, .handle 0 ⟨none, .bytes [1], .wrote 0, id⟩]

/-- What the destructor looks at in the connection on `fd`. -/
def Removable (s : Polled) (state : State) (fd : ℕ) : Prop :=
  (s.net.conns fd).map (fun c => c.conn.state) = some state ∧ mayRemove s.activeChannels s.net fd = true

theorem destroysCleanly_twoClients :
    ∃ s, runFrom (Polled.step sampleConfig) (.ok (.start sampleConfig)) (inMessageCallback [(7, EPOLLIN)]) =
        some (.ok s) ∧ s.activeChannels = [7] ∧ DestroysCleanly s [2, 1] := by
  obtain ⟨s, hrun, hactive, hconnections, hseven, height⟩ :
      ∃ s, runFrom (Polled.step sampleConfig) (.ok (.start sampleConfig)) (inMessageCallback [(7, EPOLLIN)]) =
          some (.ok s) ∧ s.activeChannels = [7] ∧
        s.net.connections = Function.update (Function.update (fun _ => none) 1 (some 7)) 2 (some 8) ∧
        Removable s .kConnected 7 ∧ Removable s .kConnected 8 := ⟨_, rfl, rfl, rfl, ⟨rfl, rfl⟩, rfl, rfl⟩
  have hnames : Entries s.net.connections [2, 1] := by
    rw [hconnections]
    exact (entries_nil.update (by decide) 7).update (by decide) 8
  have hall : ∀ name fd, s.net.connections name = some fd → Removable s .kConnected fd := by
    rw [hconnections]
    exact forall_update height (forall_update hseven fun _ _ h => by cases h)
  have hup : ∀ name fd c, s.net.connections name = some fd → s.net.conns fd = some c →
      c.conn.state = .kConnected ∧ mayRemove s.activeChannels s.net fd = true := by
    intro name fd c hname hc
    have h := hall name fd hname
    rw [Removable, hc, Option.map_some, Option.some.injEq] at h
    exact h
  exact ⟨s, hrun, hactive, (destroysCleanly_iff hrun hnames fun name fd c hname hc => .inl (hup name fd c hname hc).1).mpr
    hup⟩

/-- A connection is shut down and the peer has not closed it yet: the channel still reads, and `Channel::Remove` asserts
that it does not.  Or the loop is in the callback of 7 with 8 next in its list: `RemoveChannel` asserts that 8 is not
removed now. -/
theorem not_destroysCleanly_shutdown :
    (∃ s, runFrom (Polled.step sampleConfig) (.ok (.start sampleConfig)) (twoClients ++ [.shutdown 0 8]) =
        some (.ok s) ∧ Entries s.net.connections [2, 1] ∧
      (s.net.conns 8).map (fun c => c.conn.state) = some .kDisconnecting ∧
      destroyAll s.activeChannels [2, 1] s.net = .error .channelRemove ∧ ¬ DestroysCleanly s [2, 1]) ∧
    ∃ s, runFrom (Polled.step sampleConfig) (.ok (.start sampleConfig))
        (inMessageCallback [(7, EPOLLIN), (8, EPOLLIN)]) = some (.ok s) ∧ Entries s.net.connections [2, 1] ∧
      (s.net.conns 8).map (fun c => c.conn.state) = some .kConnected ∧
      destroyAll s.activeChannels [2, 1] s.net = .error .removeChannel ∧ ¬ DestroysCleanly s [2, 1] := by
  have hentries : Entries (Function.update (Function.update (fun _ => none) 1 (some 7)) 2 (some 8)) [2, 1] :=
    (entries_nil.update (by decide) 7).update (by decide) 8
  have hunclean : ∀ {s : Polled} {failure}, destroyAll s.activeChannels [2, 1] s.net = .error failure →
      ¬ DestroysCleanly s [2, 1] := by
    rintro s failure hfails ⟨t, ht, -⟩
    rw [hfails] at ht
    cases ht
  exact ⟨⟨_, rfl, hentries, rfl, rfl, hunclean rfl⟩, _, rfl, hentries, rfl, rfl, hunclean rfl⟩

end NetLayer
end Chater.Net
