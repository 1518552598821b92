import Chater.Gateway.GatewayServer

/-!
# The three connection registries agree

An id is in `connections_` from the up callback of its connection to the down callback, and the keys of `sessions_` and
`lastHeartbeats_` are among those.  A heartbeat timeout takes the two entries of a connection early, and data that
arrives before the queued `ForceCloseInLoop` has run brings one of them back; the connection is in `kDisconnecting` then,
and still in `connections_`.
-/

namespace Chater.Gateway

open Net Foundations

set_option autoImplicit false

/-- What `state_` has been while it is `kConnected`. -/
def connectedStates : List State := [.kConnecting, .kConnected]

/-! ## The entries of `connections_` -/

/-- Ids and `connections_` against the record of each connection: `callbacks fd` is what `Connected()` was at each call
of its `OnConnection`. -/
structure Entered (r : Registries) (callbacks : ℕ → List Bool) : Prop where
  next : 0 < r.nextConnId
  ids : ∀ fd, callbacks fd ≠ [] → 0 < r.connIds fd ∧ r.connIds fd < r.nextConnId
  distinct : ∀ fd fd', callbacks fd ≠ [] → callbacks fd' ≠ [] → r.connIds fd = r.connIds fd' → fd = fd'
  entry : ∀ id fd, r.connections.lookup id = some fd ↔ callbacks fd = [true] ∧ r.connIds fd = id

namespace Entered

variable {r r' : Registries} {callbacks : ℕ → List Bool} {fd : ℕ}

theorem connIds_pos (h : Entered r callbacks) (hfd : callbacks fd = [true]) : 0 < r.connIds fd :=
  (h.ids fd (by simp [hfd])).1

theorem connIds_ne (h : Entered r callbacks) {j : ℕ} (hj : callbacks j = [true]) (hfd : callbacks fd = [true])
    (hne : j ≠ fd) : r.connIds j ≠ r.connIds fd :=
  fun hsame => hne (h.distinct j fd (by simp [hj]) (by simp [hfd]) hsame)

theorem mem_connections (h : Entered r callbacks) (hfd : callbacks fd = [true]) : r.connIds fd ∈ r.connections :=
  Finmap.mem_of_lookup_eq_some ((h.entry _ fd).mpr ⟨hfd, rfl⟩)

theorem not_mem_connections (h : Entered r callbacks) (hfd : callbacks fd ≠ []) (hdown : callbacks fd ≠ [true]) :
    r.connIds fd ∉ r.connections := by
  intro hmem
  obtain ⟨j, hj⟩ := Finmap.mem_iff.mp hmem
  obtain ⟨hup, hsame⟩ := (h.entry _ j).mp hj
  obtain rfl := h.distinct j fd (by simp [hup]) hfd hsame
  exact hdown hup

theorem opened (h : Entered r callbacks) (hfd : callbacks fd = []) (hnext : r'.nextConnId = r.nextConnId + 1)
    (hconnections : r'.connections = r.connections.insert r.nextConnId fd)
    (hconnIds : r'.connIds = Function.update r.connIds fd r.nextConnId) :
    Entered r' (Function.update callbacks fd [true]) := by
  have hpos := h.next
  have hself : r'.connIds fd = r.nextConnId := by rw [hconnIds, Function.update_self]
  have hother : ∀ j, j ≠ fd → r'.connIds j = r.connIds j := fun j hj => by rw [hconnIds, Function.update_of_ne hj]
  have hcallbacks : ∀ j, j ≠ fd → Function.update callbacks fd [true] j = callbacks j :=
    fun j hj => Function.update_of_ne hj ..
  refine ⟨by omega, fun j hj => ?_, fun j j' hj hj' hsame => ?_, fun id j => ?_⟩
  · by_cases hjfd : j = fd
    · rw [hjfd, hself]
      omega
    · rw [hcallbacks j hjfd] at hj
      have hid := h.ids j hj
      rw [hother j hjfd]
      omega
  · -- the new id is greater than the ids given before
    by_cases hjfd : j = fd
    · by_cases hjfd' : j' = fd
      · rw [hjfd, hjfd']
      · rw [hcallbacks j' hjfd'] at hj'
        rw [hjfd, hself, hother j' hjfd'] at hsame
        have hid := h.ids j' hj'
        omega
    · rw [hcallbacks j hjfd] at hj
      have hid := h.ids j hj
      by_cases hjfd' : j' = fd
      · rw [hjfd', hself, hother j hjfd] at hsame
        omega
      · rw [hcallbacks j' hjfd'] at hj'
        rw [hother j hjfd, hother j' hjfd'] at hsame
        exact h.distinct j j' hj hj' hsame
  · rw [hconnections]
    by_cases hid : id = r.nextConnId
    · rw [hid, Finmap.lookup_insert, Option.some.injEq]
      constructor
      · rintro rfl
        exact ⟨Function.update_self .., hself⟩
      · rintro ⟨hup, hsame⟩
        by_contra hne
        have hjfd : j ≠ fd := fun heq => hne heq.symm
        rw [hcallbacks j hjfd] at hup
        rw [hother j hjfd] at hsame
        have hlt := (h.ids j (by simp [hup])).2
        omega
    · rw [Finmap.lookup_insert_of_ne _ hid, h.entry id j]
      by_cases hjfd : j = fd
      · rw [hjfd, hself, hfd]
        exact iff_of_false (fun hnil => by cases hnil.1) fun hnew => hid hnew.2.symm
      · rw [hcallbacks j hjfd, hother j hjfd]

theorem closed (h : Entered r callbacks) (hfd : callbacks fd = [true]) (hnext : r'.nextConnId = r.nextConnId)
    (hconnections : r'.connections = r.connections.erase (r.connIds fd)) (hconnIds : r'.connIds = r.connIds) :
    Entered r' (Function.update callbacks fd [true, false]) := by
  have hne : ∀ j, Function.update callbacks fd [true, false] j ≠ [] → callbacks j ≠ [] := by
    intro j hj
    by_cases hjfd : j = fd
    · rw [hjfd, hfd]
      simp
    · rwa [Function.update_of_ne hjfd] at hj
  refine ⟨hnext ▸ h.next, fun j hj => ?_, fun j j' hj hj' hsame => ?_, fun id j => ?_⟩
  · rw [hnext, hconnIds]
    exact h.ids j (hne j hj)
  · rw [hconnIds] at hsame
    exact h.distinct j j' (hne j hj) (hne j' hj') hsame
  · rw [hconnections, hconnIds]
    by_cases hjfd : j = fd
    · -- the id of `fd` is the one erased
      rw [hjfd, Function.update_self]
      refine iff_of_false (fun hlookup => ?_) fun hdown => by cases hdown.1
      by_cases hid : id = r.connIds fd
      · rw [hid, Finmap.lookup_erase] at hlookup
        cases hlookup
      · rw [Finmap.lookup_erase_ne hid, h.entry] at hlookup
        exact hid hlookup.2.symm
    · rw [Function.update_of_ne hjfd]
      by_cases hid : id = r.connIds fd
      · rw [hid, Finmap.lookup_erase]
        refine iff_of_false (fun hnone => by cases hnone) fun hup => hjfd ?_
        exact h.distinct j fd (by simp [hup.1]) (by simp [hfd]) hup.2
      · rw [Finmap.lookup_erase_ne hid, h.entry]

end Entered

/-! ## Agreement -/

/-- `states fd` is what `state_` of the connection has been. -/
structure Agree (r : Registries) (callbacks : ℕ → List Bool) (states : ℕ → List State) : Prop extends
    Entered r callbacks where
  sessions : ∀ id ∈ r.sessions, id ∈ r.connections
  heartbeats : ∀ id ∈ r.lastHeartbeats, id ∈ r.connections
  up : ∀ fd, states fd = connectedStates → callbacks fd = [true]
  connected : ∀ fd, states fd = connectedStates → r.connIds fd ∈ r.sessions ∧ r.connIds fd ∈ r.lastHeartbeats

theorem addSession_spec (r : Registries) (connId now : ℤ) :
    ∃ sessions, r.addSession connId now = { r with sessions := sessions } ∧
      ∀ id, id ∈ sessions ↔ id = connId ∨ id ∈ r.sessions := by
  unfold Registries.addSession
  split_ifs with hmem
  · exact ⟨r.sessions, rfl, fun id => (or_iff_right_of_imp fun heq => heq ▸ hmem).symm⟩
  · exact ⟨_, rfl, fun id => Finmap.mem_insert⟩

/-- The up callback. -/
theorem onConnection_up (r : Registries) (fd : ℕ) (now : ℤ) :
    ∃ sessions, (∀ id, id ∈ sessions ↔ id = r.nextConnId ∨ id ∈ r.sessions) ∧
      r.onConnection fd true now =
        ⟨r.nextConnId + 1, r.connections.insert r.nextConnId fd, sessions, r.lastHeartbeats.insert r.nextConnId now,
          Function.update r.connIds fd r.nextConnId⟩ := by
  obtain ⟨sessions, heq, hmem⟩ := addSession_spec ((r.addConnection fd).setConnId fd r.nextConnId) r.nextConnId now
  refine ⟨sessions, hmem, ?_⟩
  rw [Registries.onConnection, if_pos rfl]
  simp only [heq]
  rfl

namespace Agree

variable {r : Registries} {callbacks : ℕ → List Bool} {states states' : ℕ → List State} {fd : ℕ} {now : ℤ}

theorem start : Agree .start (fun _ => []) fun _ => [] where
  next := by decide
  ids _ h := absurd rfl h
  distinct _ _ h := absurd rfl h
  entry id fd := by simp [Registries.start]
  sessions id h := absurd h Finmap.notMem_empty
  heartbeats id h := absurd h Finmap.notMem_empty
  up _ h := by cases h
  connected _ h := by cases h

/-- No connection becomes connected. -/
theorem grow (h : Agree r callbacks states)
    (hgrow : ∀ fd, states' fd = connectedStates → states fd = connectedStates) : Agree r callbacks states' :=
  ⟨h.toEntered, h.sessions, h.heartbeats, fun fd hfd => h.up fd (hgrow fd hfd),
    fun fd hfd => h.connected fd (hgrow fd hfd)⟩

theorem message (h : Agree r callbacks states) (hfd : callbacks fd = [true]) :
    Agree (r.onMessage fd now) callbacks states := by
  rw [Registries.onMessage, if_pos (h.connIds_pos hfd)]
  refine ⟨⟨h.next, h.ids, h.distinct, h.entry⟩, h.sessions, fun id hid => ?_, h.up, fun j hj => ?_⟩
  · obtain rfl | hid := Finmap.mem_insert.mp hid
    · exact h.mem_connections hfd
    · exact h.heartbeats id hid
  · exact ⟨(h.connected j hj).1, Finmap.mem_insert.mpr (.inr (h.connected j hj).2)⟩

theorem opened (h : Agree r callbacks states) (hfd : callbacks fd = [])
    (hgrow : ∀ j, j ≠ fd → states' j = connectedStates → states j = connectedStates) :
    Agree (r.onConnection fd true now) (Function.update callbacks fd [true]) states' := by
  obtain ⟨sessions, hmem, heq⟩ := onConnection_up r fd now
  rw [heq]
  refine ⟨h.toEntered.opened hfd rfl rfl rfl, fun id hid => ?_, fun id hid => ?_, fun j hj => ?_, fun j hj => ?_⟩
  · obtain rfl | hid := (hmem id).mp hid
    · exact Finmap.mem_insert.mpr (.inl rfl)
    · exact Finmap.mem_insert.mpr (.inr (h.sessions id hid))
  · obtain rfl | hid := Finmap.mem_insert.mp hid
    · exact Finmap.mem_insert.mpr (.inl rfl)
    · exact Finmap.mem_insert.mpr (.inr (h.heartbeats id hid))
  · by_cases hjfd : j = fd
    · rw [hjfd, Function.update_self]
    · rw [Function.update_of_ne hjfd]
      exact h.up j (hgrow j hjfd hj)
  · show Function.update r.connIds fd r.nextConnId j ∈ sessions ∧
      Function.update r.connIds fd r.nextConnId j ∈ r.lastHeartbeats.insert r.nextConnId now
    by_cases hjfd : j = fd
    · rw [hjfd, Function.update_self]
      exact ⟨(hmem _).mpr (.inl rfl), Finmap.mem_insert.mpr (.inl rfl)⟩
    · rw [Function.update_of_ne hjfd]
      have hboth := h.connected j (hgrow j hjfd hj)
      exact ⟨(hmem _).mpr (.inr hboth.1), Finmap.mem_insert.mpr (.inr hboth.2)⟩

/-- When `fd` leaves `kConnected`, the other connections keep what they have as its entries are erased. -/
theorem connected_erase (h : Agree r callbacks states) (hfd : callbacks fd = [true])
    (hdown : states' fd ≠ connectedStates)
    (hgrow : ∀ j, j ≠ fd → states' j = connectedStates → states j = connectedStates) {j : ℕ}
    (hj : states' j = connectedStates) :
    j ≠ fd ∧ callbacks j = [true] ∧ r.connIds j ∈ r.sessions.erase (r.connIds fd) ∧
      r.connIds j ∈ r.lastHeartbeats.erase (r.connIds fd) := by
  have hne : j ≠ fd := fun heq => hdown (heq ▸ hj)
  have hbefore := hgrow j hne hj
  have hup := h.up j hbefore
  have hid := h.connIds_ne hup hfd hne
  obtain ⟨hsession, hheartbeat⟩ := h.connected j hbefore
  exact ⟨hne, hup, Finmap.mem_erase.mpr ⟨hid, hsession⟩, Finmap.mem_erase.mpr ⟨hid, hheartbeat⟩⟩

theorem closed (h : Agree r callbacks states) (hfd : callbacks fd = [true]) (hdown : states' fd ≠ connectedStates)
    (hgrow : ∀ j, j ≠ fd → states' j = connectedStates → states j = connectedStates) :
    Agree (r.onConnection fd false now) (Function.update callbacks fd [true, false]) states' := by
  have heq : r.onConnection fd false now =
      ((r.removeConnection (r.connIds fd)).removeSession (r.connIds fd)).eraseHeartbeat (r.connIds fd) := by
    rw [Registries.onConnection, if_neg Bool.false_ne_true]
    exact if_pos (h.connIds_pos hfd)
  rw [heq]
  refine ⟨h.toEntered.closed hfd rfl rfl rfl, fun id hid => ?_, fun id hid => ?_, fun j hj => ?_, fun j hj => ?_⟩
  · obtain ⟨hid, hmem⟩ := Finmap.mem_erase.mp hid
    exact Finmap.mem_erase.mpr ⟨hid, h.sessions id hmem⟩
  · obtain ⟨hid, hmem⟩ := Finmap.mem_erase.mp hid
    exact Finmap.mem_erase.mpr ⟨hid, h.heartbeats id hmem⟩
  · obtain ⟨hne, hup, -⟩ := h.connected_erase hfd hdown hgrow hj
    rw [Function.update_of_ne hne, hup]
  · exact (h.connected_erase hfd hdown hgrow hj).2.2

/-- A heartbeat timeout: the connection leaves `kConnected` and loses two of its entries. -/
theorem reaped (h : Agree r callbacks states) (hfd : callbacks fd = [true]) (hdown : states' fd ≠ connectedStates)
    (hgrow : ∀ j, j ≠ fd → states' j = connectedStates → states j = connectedStates) :
    Agree ((r.removeSession (r.connIds fd)).eraseHeartbeat (r.connIds fd)) callbacks states' := by
  refine ⟨⟨h.next, h.ids, h.distinct, h.entry⟩, fun id hid => ?_, fun id hid => ?_, fun j hj => ?_, fun j hj => ?_⟩
  · exact h.sessions id (Finmap.mem_erase.mp hid).2
  · exact h.heartbeats id (Finmap.mem_erase.mp hid).2
  · exact (h.connected_erase hfd hdown hgrow hj).2.1
  · exact (h.connected_erase hfd hdown hgrow hj).2.2

end Agree
end Chater.Gateway
