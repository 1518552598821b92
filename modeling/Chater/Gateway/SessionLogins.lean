import Chater.Gateway.HeartbeatReaping

/-!
# Who is logged in

The calls of `SessionManager` next to the server: `Login`, `Logout` and `UpdateHeartbeat` may be made by any thread, with
any id, between any two steps of the loop.  A callback of the loop makes one call of `SessionManager` at most and is one
step; the heartbeat timer makes one for every entry that has expired, and each entry is a step of its own here, so that
calls of other threads come in between.

Ids are never given twice, and so a session shows what has been called on its own id since its own connection came up.
-/

namespace Chater.Gateway

open Net Foundations

set_option autoImplicit false

/-! ## The calls -/

namespace Registries

/-- What `Login`, `Logout` and `UpdateHeartbeat` share: they change the session they find and say whether there is one. -/
def modifySession (r : Registries) (connId : ℤ) (f : Session → Session) : Bool × Registries :=
  match r.sessions.lookup connId with
  | none => (false, r)
  | some s => (true, { r with sessions := r.sessions.insert connId (f s) })

def login (r : Registries) (connId : ℤ) (account : String) (now : ℤ) : Bool × Registries :=
  r.modifySession connId fun s => { s with loggedIn := true, account := account, loginTime := now }

def logout (r : Registries) (connId : ℤ) : Bool × Registries :=
  r.modifySession connId fun s => { s with loggedIn := false }

def updateHeartbeat (r : Registries) (connId now : ℤ) : Registries :=
  (r.modifySession connId fun s => { s with lastHeartbeat := now }).2

def isLoggedIn (r : Registries) (connId : ℤ) : Bool :=
  match r.sessions.lookup connId with
  | none => false
  | some s => s.loggedIn

variable {r : Registries} {connId id : ℤ} {f : Session → Session}

theorem modifySession_fst : (r.modifySession connId f).1 = (r.sessions.lookup connId).isSome := by
  unfold modifySession
  cases r.sessions.lookup connId <;> rfl

theorem lookup_modifySession :
    (r.modifySession connId f).2.sessions.lookup id =
      if id = connId then (r.sessions.lookup id).map f else r.sessions.lookup id := by
  unfold modifySession
  cases hs : r.sessions.lookup connId with
  | none =>
    split_ifs with hid
    · rw [hid, hs]
      rfl
    · rfl
  | some s =>
    split_ifs with hid
    · rw [hid, hs]
      exact Finmap.lookup_insert _
    · exact Finmap.lookup_insert_of_ne _ hid

/-- A call changes nothing but `sessions_`. -/
theorem modifySession_snd :
    (r.modifySession connId f).2 = { r with sessions := (r.modifySession connId f).2.sessions } := by
  unfold modifySession
  cases r.sessions.lookup connId <;> rfl

theorem mem_modifySession : id ∈ (r.modifySession connId f).2.sessions ↔ id ∈ r.sessions := by
  rw [← Finmap.lookup_isSome, ← Finmap.lookup_isSome, lookup_modifySession]
  split_ifs
  · rw [Option.isSome_map]
  · rfl

end Registries

/-- The keys of `sessions_` stay. -/
theorem Agree.sameSessions {r : Registries} {callbacks : ℕ → List Bool} {states : ℕ → List State}
    (h : Agree r callbacks states) {sessions : Finmap fun _ : ℤ => Session}
    (hsame : ∀ id, id ∈ sessions ↔ id ∈ r.sessions) : Agree { r with sessions := sessions } callbacks states := by
  refine ⟨⟨h.next, h.ids, h.distinct, h.entry⟩, fun id hid => ?_, h.heartbeats, h.up, fun fd hfd => ?_⟩
  · exact h.sessions id ((hsame id).mp hid)
  · exact ⟨(hsame _).mpr (h.connected fd hfd).1, (h.connected fd hfd).2⟩

/-! ## What the calls amount to -/

inductive SessionCall
  | login (account : String) (now : ℤ)
  | logout

/-- What a session shows of the calls. -/
structure Credentials where
  loggedIn : Bool
  account : String
  loginTime : ℤ
deriving DecidableEq

def Session.credentials (s : Session) : Credentials := ⟨s.loggedIn, s.account, s.loginTime⟩

def SessionCall.apply (c : Credentials) : SessionCall → Credentials
  | .login account now => ⟨true, account, now⟩
  | .logout => { c with loggedIn := false }

/-- The credentials after the calls. -/
def Credentials.after (calls : List SessionCall) : Credentials := calls.foldl SessionCall.apply ⟨false, "", 0⟩

theorem Credentials.after_concat (calls : List SessionCall) (call : SessionCall) :
    after (calls ++ [call]) = call.apply (after calls) := by
  rw [after, List.foldl_append]
  rfl

/-- A client is logged in after a `Login` that no `Logout` has followed. -/
theorem Credentials.loggedIn_after {calls : List SessionCall} :
    (after calls).loggedIn = true ↔ ∃ earlier account now, calls = earlier ++ [.login account now] := by
  induction calls using List.reverseRecOn with
  | nil =>
    refine iff_of_false Bool.false_ne_true ?_
    rintro ⟨earlier, account, now, h⟩
    exact List.append_ne_nil_of_right_ne_nil _ (List.cons_ne_nil _ _) h.symm
  | append_singleton calls call =>
    rw [after_concat]
    cases call with
    | login account now => exact iff_of_true rfl ⟨calls, account, now, rfl⟩
    | logout =>
      refine iff_of_false Bool.false_ne_true ?_
      rintro ⟨earlier, account, now, h⟩
      cases List.singleton_inj.mp (List.append_inj_right' h rfl)

/-! ## The system -/

namespace GatewayServer

/-- The entry of `lastHeartbeats_` is older than the timeout; `reap` makes this test. -/
def expired (timeoutSec now : ℤ) (g : GatewayServer) (connId : ℤ) : Bool :=
  (g.reg.lastHeartbeats.lookup connId).any fun last => decide (timeoutSec * 1000 < now - last)

theorem expired_iff {timeoutSec now : ℤ} {g : GatewayServer} {connId : ℤ} :
    expired timeoutSec now g connId = true ↔ Expired timeoutSec now g connId := by
  simp only [expired, Expired, Option.any_eq_true, decide_eq_true_eq]

/-- The server with the time that `OnHeartbeat` has read and the entries it has yet to visit, and for every connection
that has a session the calls of `Login` and `Logout` on its id since it came up. -/
structure Attended where
  server : GatewayServer
  now : ℤ
  sweep : Finset ℤ
  calls : ℕ → Option (List SessionCall)

namespace Attended

inductive Event
  | net (e : NetLayer.Event) (now : ℤ)
  | beginHeartbeat (now : ℤ)
  | reapNext
  | login (connId : ℤ) (account : String) (now : ℤ)
  | logout (connId : ℤ)
  | updateHeartbeat (connId now : ℤ)

def start (cfg : NetLayer.Config) : Attended := ⟨.start cfg, 0, ∅, fun _ => none⟩

/-- A connection begins without calls as its up callback adds the session, and has none after its down callback. -/
def track (before after : NetLayer) (calls : ℕ → Option (List SessionCall)) : ℕ → Option (List SessionCall) :=
  match begun 0 before after with
  | none => calls
  | some fd =>
    if after.callbacksOf fd ≠ before.callbacksOf fd then
      Function.update calls fd (if (after.callbacksOf fd).getLast? == some true then some [] else none)
    else calls

/-- The call is noted with the connection that has the id. -/
def note (s : Attended) (connId : ℤ) (call : SessionCall) : ℕ → Option (List SessionCall) := fun fd =>
  if s.server.reg.connIds fd = connId then (s.calls fd).map (· ++ [call]) else s.calls fd

def setReg (s : Attended) (reg : Registries) : Attended := { s with server := { s.server with reg := reg } }

def act (cfg : NetLayer.Config) (timeoutSec : ℤ) (s : Attended) : Event → Option (Except Failure Attended)
  | .net e now =>
    if s.sweep = ∅ then
      (GatewayServer.act cfg timeoutSec s.server (.net e now)).map fun r => r.map fun g =>
        { s with server := g, calls := track s.server.net g.net s.calls }
    else none
  | .beginHeartbeat now =>
    if (s.server.net.loops 0).callback = none ∧ s.sweep = ∅ then
      some (.ok { s with now := now, sweep := s.server.reg.lastHeartbeats.keys })
    else none
  | .reapNext =>
    -- the map is walked in the order of its keys
    s.sweep.min.map fun connId => (GatewayServer.reap timeoutSec s.now s.server connId).map fun g =>
      { s with
        server := g
        sweep := s.sweep.erase connId
        calls := fun fd =>
          if s.server.reg.connIds fd = connId ∧ expired timeoutSec s.now s.server connId = true then none
          else s.calls fd }
  | .login connId account now =>
    some (.ok { s.setReg (s.server.reg.login connId account now).2 with calls := s.note connId (.login account now) })
  | .logout connId => some (.ok { s.setReg (s.server.reg.logout connId).2 with calls := s.note connId .logout })
  | .updateHeartbeat connId now => some (.ok (s.setReg (s.server.reg.updateHeartbeat connId now)))

def step (cfg : NetLayer.Config) (timeoutSec : ℤ) : Except Failure Attended → Event → Option (Except Failure Attended)
  | .ok s, e => act cfg timeoutSec s e
  | .error _, _ => none

def Assumed : Except Failure Attended → Event → Prop
  | .ok s, .net e _ => NetLayer.Assumed (.ok s.server.net) e
  | _, _ => True

instance : (x : Except Failure Attended) → (e : Event) → Decidable (Assumed x e)
  | .ok s, .net e _ => inferInstanceAs (Decidable (NetLayer.Assumed (.ok s.server.net) e))
  | .ok _, .beginHeartbeat _ | .ok _, .reapNext | .ok _, .login _ _ _ | .ok _, .logout _ | .ok _, .updateHeartbeat _ _
  | .error _, _ => .isTrue trivial

/-! ## Sessions and calls -/

/-- The session of each connection that is up shows the calls made on it. -/
structure Shows (callbacks : ℕ → List Bool) (r : Registries) (calls : ℕ → Option (List SessionCall)) : Prop where
  up : ∀ fd, callbacks fd = [true] →
    (r.sessions.lookup (r.connIds fd)).map Session.credentials = (calls fd).map Credentials.after
  rest : ∀ fd, callbacks fd ≠ [true] → calls fd = none

section Shows

variable {callbacks : ℕ → List Bool} {r : Registries} {states : ℕ → List State} {fd : ℕ} {now : ℤ}
  {calls : ℕ → Option (List SessionCall)}

theorem Shows.message (h : Shows callbacks r calls) : Shows callbacks (r.onMessage fd now) calls := by
  unfold Registries.onMessage
  split_ifs
  · exact ⟨h.up, h.rest⟩
  · exact h

/-- The id that is given next has no session yet. -/
theorem nextConnId_not_mem_sessions (h : Agree r callbacks states) : r.nextConnId ∉ r.sessions := by
  intro hmem
  obtain ⟨fd, hfd⟩ := Finmap.mem_iff.mp (h.sessions _ hmem)
  obtain ⟨hup, hid⟩ := (h.entry _ fd).mp hfd
  have hlt := (h.ids fd (by simp [hup])).2
  omega

/-- The up callback adds a session that nobody has logged in to. -/
theorem sessions_onConnection_up (h : Agree r callbacks states) :
    (r.onConnection fd true now).sessions = r.sessions.insert r.nextConnId ⟨r.nextConnId, "", false, 0, now⟩ := by
  have hnew : r.nextConnId ∉ ((r.addConnection fd).setConnId fd r.nextConnId).sessions :=
    nextConnId_not_mem_sessions h
  simp only [Registries.onConnection, if_true, Registries.addSession, if_neg hnew]
  rfl

theorem Shows.opened (h : Shows callbacks r calls) (hagree : Agree r callbacks states) :
    Shows (Function.update callbacks fd [true]) (r.onConnection fd true now) (Function.update calls fd (some [])) := by
  obtain ⟨sessions, -, heq⟩ := onConnection_up r fd now
  have hconnIds : (r.onConnection fd true now).connIds = Function.update r.connIds fd r.nextConnId := by rw [heq]
  constructor
  · intro j hj
    rw [sessions_onConnection_up hagree, hconnIds]
    by_cases hjfd : j = fd
    · rw [hjfd, Function.update_self, Function.update_self, Finmap.lookup_insert]
      rfl
    · rw [Function.update_of_ne hjfd] at hj
      have hlt := (hagree.ids j (by simp [hj])).2
      rw [Function.update_of_ne hjfd, Function.update_of_ne hjfd, Finmap.lookup_insert_of_ne _ (by omega)]
      exact h.up j hj
  · intro j hj
    have hjfd : j ≠ fd := by
      rintro rfl
      exact hj (Function.update_self ..)
    rw [Function.update_of_ne hjfd] at hj ⊢
    exact h.rest j hj

theorem Shows.closed (h : Shows callbacks r calls) (hentered : Entered r callbacks) (hfd : callbacks fd = [true]) :
    Shows (Function.update callbacks fd [true, false]) (r.onConnection fd false now) (Function.update calls fd none) := by
  have heq : r.onConnection fd false now =
      ((r.removeConnection (r.connIds fd)).removeSession (r.connIds fd)).eraseHeartbeat (r.connIds fd) := by
    rw [Registries.onConnection, if_neg Bool.false_ne_true]
    exact if_pos (hentered.connIds_pos hfd)
  rw [heq]
  constructor
  · intro j hj
    have hjfd : j ≠ fd := by
      rintro rfl
      rw [Function.update_self] at hj
      cases hj
    rw [Function.update_of_ne hjfd] at hj ⊢
    rw [← h.up j hj]
    exact congrArg _ (Finmap.lookup_erase_ne (hentered.connIds_ne hj hfd hjfd))
  · intro j hj
    by_cases hjfd : j = fd
    · rw [hjfd, Function.update_self]
    · rw [Function.update_of_ne hjfd] at hj ⊢
      exact h.rest j hj

/-- The timer takes the session of the entry that has expired. -/
theorem Shows.reaped (h : Shows callbacks r calls) (connId : ℤ) :
    Shows callbacks ((r.removeSession connId).eraseHeartbeat connId)
      fun fd => if r.connIds fd = connId then none else calls fd := by
  constructor
  · intro j hj
    show Option.map _ ((r.sessions.erase connId).lookup (r.connIds j)) = _
    rw [lookup_erase_ite]
    split_ifs
    · rfl
    · exact h.up j hj
  · intro j hj
    rw [h.rest j hj, ite_self]

/-- A call changes the credentials of a session as it changes what the calls amount to. -/
theorem Shows.modifySession (h : Shows callbacks r calls) (connId : ℤ) {f : Session → Session}
    {g : Credentials → Credentials} {k : List SessionCall → List SessionCall}
    (hf : ∀ s, (f s).credentials = g s.credentials) (hk : ∀ cs, Credentials.after (k cs) = g (Credentials.after cs)) :
    Shows callbacks (r.modifySession connId f).2
      fun fd => if r.connIds fd = connId then (calls fd).map k else calls fd := by
  rw [Registries.modifySession_snd]
  constructor
  · intro j hj
    show Option.map _ ((r.modifySession connId f).2.sessions.lookup (r.connIds j)) = _
    rw [Registries.lookup_modifySession]
    split_ifs
    · have hbefore := congrArg (Option.map g) (h.up j hj)
      simpa only [Option.map_map, Function.comp_def, hf, hk] using hbefore
    · exact h.up j hj
  · intro j hj
    rw [h.rest j hj, Option.map_none, ite_self]

end Shows

/-! ## Steps -/

variable {cfg : NetLayer.Config} {timeoutSec now : ℤ} {s : Attended} {t : NetLayer}

/-- What the steps keep. -/
structure Kept (cfg : NetLayer.Config) (s : Attended) : Prop where
  good : Good cfg s.server
  shows : Shows s.server.net.callbacksOf s.server.reg s.calls

theorem start_kept (cfg : NetLayer.Config) : Kept cfg (start cfg) where
  good := start_good cfg
  shows := ⟨fun _ h => (by cases h), fun _ _ => rfl⟩

theorem track_connection {before : NetLayer} {fd : ℕ} {connected : Bool} (calls : ℕ → Option (List SessionCall))
    (hbegun : begun 0 before t = some fd) (hcallbacks : t.callbacksOf fd = before.callbacksOf fd ++ [connected]) :
    track before t calls = Function.update calls fd (if connected then some [] else none) := by
  simp only [track, hbegun, hcallbacks]
  rw [if_pos (by simp)]
  cases connected <;> simp

/-- A callback of the server. -/
theorem Kept.shows_react (h : Kept cfg s) (hlives : NetLayer.Lives none t) {e : NetLayer.Event}
    (hbegan : NetLayer.Began 0 s.server.net e t) :
    Shows t.callbacksOf (react s.server.net e t now s.server.reg) (track s.server.net t s.calls) := by
  cases hbegan with
  | nothing hcallbacks hstates hentered =>
    simp only [react, track, begun_eq_none (hentered 0), hcallbacks]
    exact h.shows
  | message loop fd results rest he hloop hnone hup hcallbacks hstates hentered =>
    obtain rfl := Nat.le_zero.mp hloop
    simp only [react, track, begun_of_entered hnone hentered, hcallbacks, ne_eq, not_true_eq_false, if_false, he]
    exact h.shows.message
  | written loop fd result he hloop hnone hcallbacks hstates hentered =>
    obtain rfl := Nat.le_zero.mp hloop
    simp only [react, track, begun_of_entered hnone hentered, hcallbacks, ne_eq, not_true_eq_false, if_false, he]
    exact h.shows
  | connection loop fd connected rest hloop hnone hcallbacks hstates hentered =>
    obtain rfl := Nat.le_zero.mp hloop
    have hfd : t.callbacksOf fd = s.server.net.callbacksOf fd ++ [connected] := by
      rw [hcallbacks, Function.update_self]
    have hbegun := begun_of_entered hnone hentered
    rw [react_connection e _ hbegun hfd, track_connection _ hbegun hfd, hcallbacks]
    obtain ⟨hbefore, rfl⟩ | ⟨hbefore, rfl⟩ := callback_cases h.good.lives hlives hfd
    · rw [hbefore]
      exact h.shows.opened h.good.agree
    · rw [hbefore]
      exact h.shows.closed h.good.agree.toEntered hbefore

theorem Kept.reap (h : Kept cfg s) (timeoutSec connId : ℤ) (rest : Finset ℤ) :
    ∃ g, GatewayServer.reap timeoutSec s.now s.server connId = .ok g ∧
      Kept cfg { s with
        server := g
        sweep := rest
        calls := fun fd =>
          if s.server.reg.connIds fd = connId ∧ expired timeoutSec s.now s.server connId = true then none
          else s.calls fd } := by
  obtain ⟨g, hg, hgood, hreaped⟩ := h.good.reap timeoutSec s.now connId
  refine ⟨g, hg, hgood, ?_⟩
  cases hreaped with
  | kept hfresh =>
    simp only [expired_iff, hfresh, and_false, if_false]
    exact h.shows
  | closed fd c hexpired hup hid hc hcall =>
    simp only [expired_iff, hexpired, and_true, (calm_closing s.server.net fd c).callbacks]
    exact h.shows.reaped connId

theorem Kept.modifySession (h : Kept cfg s) (connId : ℤ) {f : Session → Session}
    {g : Credentials → Credentials} {k : List SessionCall → List SessionCall}
    (hf : ∀ s, (f s).credentials = g s.credentials) (hk : ∀ cs, Credentials.after (k cs) = g (Credentials.after cs)) :
    Kept cfg { s.setReg (s.server.reg.modifySession connId f).2 with
      calls := fun fd => if s.server.reg.connIds fd = connId then (s.calls fd).map k else s.calls fd } := by
  refine ⟨⟨h.good.lives, h.good.affine, h.good.own, ?_⟩, h.shows.modifySession connId hf hk⟩
  show Agree (s.server.reg.modifySession connId f).2 _ _
  rw [Registries.modifySession_snd]
  exact h.good.agree.sameSessions fun id => Registries.mem_modifySession

theorem Kept.step (h : Kept cfg s) {e : Event} (hassumed : Assumed (.ok s) e) {y : Except Failure Attended}
    (hy : Attended.step cfg timeoutSec (.ok s) e = some y) : ∃ s', y = .ok s' ∧ Kept cfg s' := by
  cases e with
  | net e now =>
    simp only [Attended.step, act, GatewayServer.act] at hy
    split_ifs at hy
    obtain ⟨x, hx, rfl⟩ := Option.map_eq_some_iff.mp hy
    obtain ⟨r, hr, rfl⟩ := Option.map_eq_some_iff.mp hx
    obtain ⟨net, rfl, hgood⟩ : ∃ net, r = .ok net ∧ Good cfg ⟨net, react s.server.net e net now s.server.reg⟩ :=
      h.good.net hassumed hr
    exact ⟨_, rfl, hgood, h.shows_react hgood.lives (NetLayer.act_began h.good.lives h.good.affine hr)⟩
  | beginHeartbeat now =>
    simp only [Attended.step, act] at hy
    split_ifs at hy
    obtain rfl := Option.some.inj hy
    exact ⟨_, rfl, h.good, h.shows⟩
  | reapNext =>
    obtain ⟨connId, -, rfl⟩ := Option.map_eq_some_iff.mp hy
    obtain ⟨g, hg, hkept⟩ := h.reap timeoutSec connId (s.sweep.erase connId)
    rw [hg]
    exact ⟨_, rfl, hkept⟩
  | login connId account now =>
    obtain rfl := Option.some.inj hy
    have hcall : ∀ calls, _ := fun calls => Credentials.after_concat calls (.login account now)
    exact ⟨_, rfl, h.modifySession connId (g := fun c => SessionCall.apply c (.login account now)) (fun _ => rfl) hcall⟩
  | logout connId =>
    obtain rfl := Option.some.inj hy
    have hcall : ∀ calls, _ := fun calls => Credentials.after_concat calls .logout
    exact ⟨_, rfl, h.modifySession connId (g := fun c => SessionCall.apply c .logout) (fun _ => rfl) hcall⟩
  | updateHeartbeat connId now =>
    obtain rfl := Option.some.inj hy
    have hkept : Kept cfg _ :=
      h.modifySession connId (f := fun s => { s with lastHeartbeat := now }) (g := id) (k := id) (fun _ => rfl)
        fun _ => rfl
    simp only [Option.map_id_fun, id_eq, ite_self] at hkept
    exact ⟨_, rfl, hkept⟩

/-! ## Runs -/

/-- `sessions_` against the calls that have been made. -/
structure Isolated (s : Attended) : Prop where
  /-- What the session of a connection shows comes from the calls on its own id since it came up. -/
  own : ∀ fd session, s.server.net.callbacksOf fd ≠ [] →
    s.server.reg.sessions.lookup (s.server.reg.connIds fd) = some session →
    ∃ calls, s.calls fd = some calls ∧ session.credentials = Credentials.after calls
  /-- An id is logged in if the last call on it was a `Login`. -/
  loggedIn : ∀ connId, s.server.reg.isLoggedIn connId = true ↔
    ∃ fd calls account now, s.server.net.callbacksOf fd = [true] ∧ s.server.reg.connIds fd = connId ∧
      s.calls fd = some (calls ++ [.login account now])
  /-- `Login` says whether the id has a connection with a session. -/
  answer : ∀ connId account now, (s.server.reg.login connId account now).1 = true ↔
    ∃ fd, s.server.net.callbacksOf fd = [true] ∧ s.server.reg.connIds fd = connId ∧ (s.calls fd).isSome

/-- A session belongs to a connection that is up. -/
theorem Kept.owner (h : Kept cfg s) {connId : ℤ} {session : Session}
    (hlookup : s.server.reg.sessions.lookup connId = some session) :
    ∃ fd calls, s.server.net.callbacksOf fd = [true] ∧ s.server.reg.connIds fd = connId ∧ s.calls fd = some calls ∧
      session.credentials = Credentials.after calls := by
  obtain ⟨fd, hfd⟩ := Finmap.mem_iff.mp (h.good.agree.sessions _ (Finmap.mem_of_lookup_eq_some hlookup))
  obtain ⟨hup, rfl⟩ := (h.good.agree.entry connId fd).mp hfd
  have hshows := h.shows.up fd hup
  rw [hlookup, Option.map_some] at hshows
  obtain ⟨calls, hcalls, hafter⟩ := Option.map_eq_some_iff.mp hshows.symm
  exact ⟨fd, calls, hup, rfl, hcalls, hafter.symm⟩

theorem Kept.lookup_of_calls (h : Kept cfg s) {fd : ℕ} {calls : List SessionCall}
    (hup : s.server.net.callbacksOf fd = [true]) (hcalls : s.calls fd = some calls) :
    ∃ session, s.server.reg.sessions.lookup (s.server.reg.connIds fd) = some session ∧
      session.credentials = Credentials.after calls := by
  have hshows := h.shows.up fd hup
  rw [hcalls, Option.map_some] at hshows
  exact Option.map_eq_some_iff.mp hshows

theorem Kept.isolated (h : Kept cfg s) : Isolated s := by
  refine ⟨fun fd session hfd hlookup => ?_, fun connId => ?_, fun connId account now => ?_⟩
  · obtain ⟨fd', calls, hup, hid, hcalls, hafter⟩ := h.owner hlookup
    obtain rfl := h.good.agree.distinct fd' fd (by simp [hup]) hfd hid
    exact ⟨calls, hcalls, hafter⟩
  · unfold Registries.isLoggedIn
    constructor
    · intro hlogged
      cases hlookup : s.server.reg.sessions.lookup connId with
      | none =>
        rw [hlookup] at hlogged
        cases hlogged
      | some session =>
        rw [hlookup] at hlogged
        obtain ⟨fd, calls, hup, hid, hcalls, hafter⟩ := h.owner hlookup
        have hin : (Credentials.after calls).loggedIn = true := hafter ▸ hlogged
        obtain ⟨earlier, account, now, rfl⟩ := Credentials.loggedIn_after.mp hin
        exact ⟨fd, earlier, account, now, hup, hid, hcalls⟩
    · rintro ⟨fd, calls, account, now, hup, rfl, hcalls⟩
      obtain ⟨session, hlookup, hafter⟩ := h.lookup_of_calls hup hcalls
      have hin := Credentials.loggedIn_after.mpr ⟨calls, account, now, rfl⟩
      rw [hlookup]
      rwa [← hafter] at hin
  · rw [Registries.login, Registries.modifySession_fst, Option.isSome_iff_exists]
    constructor
    · rintro ⟨session, hlookup⟩
      obtain ⟨fd, calls, hup, hid, hcalls, -⟩ := h.owner hlookup
      exact ⟨fd, hup, hid, by rw [hcalls]; rfl⟩
    · rintro ⟨fd, hup, rfl, hsome⟩
      obtain ⟨calls, hcalls⟩ := Option.isSome_iff_exists.mp hsome
      obtain ⟨session, hlookup, -⟩ := h.lookup_of_calls hup hcalls
      exact ⟨session, hlookup⟩

/-- **Nobody inherits a login.**  In every run, with calls of any thread between any two steps, a session shows exactly
the `Login` and `Logout` calls that were made on its id since its own connection came up, and an id without a session is
not logged in. -/
theorem sessions_isolated {es : List Event} {x : Except Failure Attended}
    (hes : Meets (step cfg timeoutSec) Assumed (.ok (start cfg)) es)
    (hrun : runFrom (step cfg timeoutSec) (.ok (start cfg)) es = some x) : ∃ s, x = .ok s ∧ Isolated s := by
  have hkeep : ∀ x e y, (∃ s, x = .ok s ∧ Kept cfg s) → Assumed x e → step cfg timeoutSec x e = some y →
      ∃ s, y = .ok s ∧ Kept cfg s := by
    rintro x e y ⟨s, rfl, hkept⟩ hassumed hy
    exact hkept.step hassumed hy
  obtain ⟨s, rfl, hkept⟩ := invariant_of_meets hkeep hes ⟨_, rfl, start_kept cfg⟩ hrun
  exact ⟨s, rfl, hkept.isolated⟩

/-- Descriptors 7 and 8 come up with the ids 1 and 2 and log in, 8 later than 7.  The timer takes the session of 7, and
before it visits the entry of 8 another thread calls `Login` on both ids. -/
def loginsInSweep : List Event :=
  let results : NetLayer.Results := ⟨none, .bytes [], .wrote 0, id⟩
  let accept (fd : ℕ) (now : ℤ) : List Event :=
    [.net (.poll 0 [(3, EPOLLIN)]) now, .net (.handle 0 { results with accept := some fd }) now,
      .net (.callbackReturns 0) now, .net (.handle 0 results) now, .net (.doPendingFunctors 0) now,
      .net (.endFunctors 0) now]
  [.net .start 0] ++ accept 7 0 ++ accept 8 30000 ++ [.login 1 "alice" 30000, .login 2 "bob" 30001, .logout 2,
    .net (.poll 0 []) 61000, .beginHeartbeat 61000, .reapNext, .login 1 "carol" 61000, .login 2 "dave" 61001, .reapNext]

theorem loginsInSweep_isolated :
    ∃ s, runFrom (step NetLayer.sampleConfig 60) (.ok (start NetLayer.sampleConfig)) loginsInSweep = some (.ok s) ∧
      s.server.reg.isLoggedIn 1 = false ∧ s.server.reg.isLoggedIn 2 = true ∧ Isolated s := by
  have hend : ((runFrom (step NetLayer.sampleConfig 60) (.ok (start NetLayer.sampleConfig)) loginsInSweep).bind
      fun r => r.toOption.map fun s =>
        decide (s.server.reg.isLoggedIn 1 = false ∧ s.server.reg.isLoggedIn 2 = true)) = some true := by
    decide +kernel
  have hmeets : Meets (step NetLayer.sampleConfig 60) Assumed (.ok (start NetLayer.sampleConfig)) loginsInSweep := by
    decide +kernel
  obtain ⟨r, hrun, hr⟩ := Option.bind_eq_some_iff.mp hend
  obtain ⟨s, rfl, hisolated⟩ := sessions_isolated hmeets hrun
  obtain ⟨hone, htwo⟩ := of_decide_eq_true (Option.some.inj hr)
  exact ⟨s, hrun, hone, htwo, hisolated⟩

end Attended
end GatewayServer
end Chater.Gateway
