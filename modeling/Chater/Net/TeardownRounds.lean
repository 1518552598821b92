import Chater.Foundations.FairRun
import Chater.Net.LoopQueues
import Chater.Net.StepClosure

/-!
# How long a connection takes to go

A connection that is on its way down needs other functors to run: `ForceCloseInLoop` on its own loop,
`RemoveConnectionInLoop` on the base loop, `ConnectDestroyed` on its own loop again.  A functor that is pushed while the
loop is in `DoPendingFunctors` waits for the next batch, so each of them takes up to two rounds of its loop.  No order
of steps and no other connection makes the number of rounds that are left grow.
-/

namespace Chater.Net

open Base Foundations

set_option autoImplicit false

/-- The rounds of the loop until a queued functor has run. -/
def Loop.rounds (l : Loop) (f : ServerFunctor) : ℕ :=
  match l.phase with
  | .functors batch => if f ∈ batch then 1 else 2
  | _ => 1

namespace Loop

theorem rounds_bounds (l : Loop) (f : ServerFunctor) : 1 ≤ l.rounds f ∧ l.rounds f ≤ 2 := by
  unfold rounds
  split
  · split_ifs <;> omega
  · omega

theorem rounds_congr {l l' : Loop} (h : l'.phase = l.phase) (f : ServerFunctor) : l'.rounds f = l.rounds f := by
  rw [rounds, rounds, h]

theorem mem_queued {l : Loop} {f : ServerFunctor} : f ∈ l.queued ↔ f ∈ l.phase.batch ∨ f ∈ l.pendingFunctors :=
  List.mem_append

end Loop

namespace NetLayer

variable {cfg : Config} {n : ℕ} {s t u : NetLayer} {fd loop thread : ℕ} {c : Conn} {e : Event}

/-! ## Connections grow older -/

/-- Every connection is still there, later. -/
def Ages (s t : NetLayer) : Prop := ∀ fd c, s.conns fd = some c → ∃ c', t.conns fd = some c' ∧ c.Later c'

theorem ages_of_conns (h : t.conns = s.conns) : Ages s t := by
  intro fd c hc
  exact ⟨c, h ▸ hc, .refl c⟩

theorem ages_closed (n thread : ℕ) : Closed n thread Ages where
  refl s := ages_of_conns rfl
  trans h h' := by
    intro fd c hc
    obtain ⟨c', hc', hlater⟩ := h fd c hc
    obtain ⟨c'', hc'', hlater'⟩ := h' fd c' hc'
    exact ⟨c'', hc'', hlater.trans hlater'⟩
  server hconns _ _ _ := ages_of_conns hconns
  own _ _ := ages_of_conns rfl
  queueInLoop _ _ _ := ages_of_conns rfl
  setPoller _ _ _ := ages_of_conns rfl
  modifyConn s fd f hf := by
    intro other c hc
    by_cases hother : other = fd
    · subst hother
      exact ⟨f c, conns_modifyConn_self hc f, hf c⟩
    · exact ⟨c, (conns_modifyConn_of_ne s hother f).trans hc, .refl c⟩
  addConn := by
    intro s fd c hfresh _ _ other d hd
    have hother : other ≠ fd := by
      rintro rfl
      rw [hfresh] at hd
      cases hd
    exact ⟨d, (Function.update_of_ne hother ..).trans hd, .refl d⟩

/-! ## How long a functor waits -/

theorem loopStep_pending {other : ℕ} (hr : loopStep cfg n s other e = some (.ok t)) (loop : ℕ)
    (he : ∀ l, e ≠ .doPendingFunctors l) : (s.loops loop).pendingFunctors <+: (t.loops loop).pendingFunctors := by
  have hphased : ∀ phase, ((s.setPhase other phase).loops loop).pendingFunctors = (s.loops loop).pendingFunctors :=
    fun phase => modifyLoop_same Loop.pendingFunctors (f := fun l => { l with phase := phase }) (fun _ => rfl) s other loop
  generalize hx : Except.ok t = x at hr
  cases loopStep_cases hr with
  | poll | nextChannel | endFunctors =>
    obtain rfl := Except.ok.inj hx
    rw [hphased]
  | doPendingFunctors => exact absurd rfl (he _)
  | handle hphase hrun =>
    subst hx
    rw [← hphased]
    exact (adds_runCallback hrun loop).2
  | run hphase hrun =>
    subst hx
    rw [← hphased]
    exact (adds_runFunctor hrun loop).2

/-- Only `DoPendingFunctors` takes functors out of `pendingFunctors_`. -/
theorem act_pending (hr : act cfg n s e = some (.ok t)) (loop : ℕ) (he : ∀ l, e ≠ .doPendingFunctors l) :
    (s.loops loop).pendingFunctors <+: (t.loops loop).pendingFunctors := by
  cases e with
  | poll other _ | handle other _ | doPendingFunctors other | run other _ | endFunctors other =>
    simp only [act, Event.loop] at hr
    split_ifs at hr
    exact loopStep_pending hr loop he
  | start =>
    have h := adds_startServer cfg s
    rw [Option.some.inj hr] at h
    exact (h loop).2
  | callbackReturns other => exact (adds_callbackReturns hr loop).2
  | send | shutdown | forceClose | store | push =>
    simp only [act, Event.loop] at hr
    exact (adds_userCall hr loop).2

/-- A queued functor runs, or it stays queued; then the rounds that it waits for do not grow, and a round of its loop
takes one of them away. -/
theorem act_waits (hr : act cfg n s e = some (.ok t)) {f : ServerFunctor} (hf : f ∈ (s.loops loop).queued) :
    (f ∈ (t.loops loop).queued ∧ (t.loops loop).rounds f ≤ (s.loops loop).rounds f ∧
      (e = .endFunctors loop → (t.loops loop).rounds f < (s.loops loop).rounds f)) ∨
    ∃ batch result, e = .run loop result ∧
      runFunctor (s.setPhase loop (.functors batch)) loop result f = some (.ok t) := by
  have hpending := act_pending hr loop
  rw [Loop.mem_queued] at hf
  rw [Loop.mem_queued]
  cases act_queues hr loop with
  | other he hphase hgrown =>
    refine .inl ⟨hf.imp (fun hbatch => ?_) fun hmem => hgrown.subset hmem, (Loop.rounds_congr hphase f).le, ?_⟩
    · rw [hphase]
      exact hbatch
    · rintro rfl
      exact absurd rfl he
  | poll hphase hphase' =>
    have hmem := hf.resolve_left (by simp [hphase, Phase.batch])
    refine .inl ⟨.inr ((hpending fun _ he => by cases he).subset hmem), ?_, fun he => by cases he⟩
    simp [Loop.rounds, hphase, hphase']
  | handle hphase hphase' hgrown =>
    have hmem := hf.resolve_left (by simp [hphase, Phase.batch])
    refine .inl ⟨.inr (hgrown.subset hmem), ?_, fun he => by cases he⟩
    simp [Loop.rounds, hphase, hphase']
  | doPendingFunctors hphase hphase' =>
    have hmem := hf.resolve_left (by simp [hphase, Phase.batch])
    refine .inl ⟨.inl (by rwa [hphase', Phase.batch]), ?_, fun he => by cases he⟩
    simp [Loop.rounds, hphase, hphase', hmem]
  | @run result t g batch hphase hphase' hrun =>
    by_cases hhead : g = f
    · subst hhead
      exact .inr ⟨batch, result, rfl, hrun⟩
    · refine .inl ⟨hf.imp (fun hbatch => ?_) fun hmem => (hpending fun _ he => by cases he).subset hmem, ?_,
        fun he => by cases he⟩
      · rw [hphase, Phase.batch] at hbatch
        rw [hphase', Phase.batch]
        exact (List.mem_cons.mp hbatch).resolve_left (Ne.symm hhead)
      · simp [Loop.rounds, hphase, hphase', Ne.symm hhead]
  | endFunctors hphase hphase' =>
    have hmem := hf.resolve_left (by simp [hphase, Phase.batch])
    have hbefore : (s.loops loop).rounds f = 2 := by simp [Loop.rounds, hphase]
    have hafter : (t.loops loop).rounds f = 1 := by simp [Loop.rounds, hphase']
    exact .inl ⟨.inr ((hpending fun _ he => by cases he).subset hmem), by omega, fun _ => by omega⟩

/-! ## The rounds that a connection has left -/

/-- The stage of a connection, read off the state. -/
def stageOf (s : NetLayer) (fd : ℕ) (c : Conn) : Stage :=
  if c.destructions ≠ 0 then .destroyed
  else if c.removals ≠ 0 then .destroying
  else if (s.loops c.loop).callback = some (fd, [.closeCallback]) then .closing
  else
    match c.conn.state with
    | .kConnecting => .connecting
    | .kConnected => .connected
    | .kDisconnecting => .disconnecting
    | .kDisconnected => .removing

theorem stageOf_eq {st : Stage} (hst : ConnStage c st) (hplaced : Placed s fd c st.slots) : s.stageOf fd c = st := by
  have hclosing := hplaced.closing
  unfold stageOf
  rw [hst.destructions, hst.removals, hst.state]
  cases st <;> simp [Stage.destructions, Stage.removals, Stage.state, Stage.slots] at hclosing ⊢ <;> simp [hclosing]

/-- The rounds until a connection with `ForceCloseInLoop` queued, or at a later stage, is destroyed. -/
def Stage.lag (s : NetLayer) (fd loop : ℕ) : Stage → ℕ
  | .destroyed => 0
  | .destroying => (s.loops loop).rounds (.conn fd .connectDestroyed)
  | .removing => 2 + (s.loops 0).rounds (.removeConnectionInLoop fd)
  | .closing => 5
  | _ => 4 + (s.loops loop).rounds (.conn fd .forceCloseInLoop)

def lag (s : NetLayer) (fd : ℕ) : ℕ := ((s.conns fd).map fun c => (s.stageOf fd c).lag s fd c.loop).getD 0

theorem lag_eq (hc : s.conns fd = some c) {st : Stage} (hst : ConnStage c st) (hplaced : Placed s fd c st.slots) :
    s.lag fd = st.lag s fd c.loop := by
  rw [lag, hc, Option.map_some, Option.getD_some, stageOf_eq hst hplaced]

theorem Stage.lag_le_of_down (s : NetLayer) (fd loop : ℕ) {st : Stage} (h : st.state = .kDisconnected) :
    st.lag s fd loop ≤ 5 := by
  have hremoval := (s.loops 0).rounds_bounds (.removeConnectionInLoop fd)
  have hdestruction := (s.loops loop).rounds_bounds (.conn fd .connectDestroyed)
  cases st <;> simp only [Stage.state, reduceCtorEq] at h <;> simp only [Stage.lag] <;> omega

theorem Stage.lag_le_of_removed (s : NetLayer) (fd loop : ℕ) {st : Stage} (h : 1 ≤ st.removals) :
    st.lag s fd loop ≤ 2 := by
  have hdestruction := (s.loops loop).rounds_bounds (.conn fd .connectDestroyed)
  cases st <;> simp only [Stage.removals] at h <;> simp only [Stage.lag] <;> omega

theorem Stage.lag_le (s : NetLayer) (fd loop : ℕ) (st : Stage) : st.lag s fd loop ≤ 6 := by
  have hremoval := (s.loops 0).rounds_bounds (.removeConnectionInLoop fd)
  have hdestruction := (s.loops loop).rounds_bounds (.conn fd .connectDestroyed)
  have hclose := (s.loops loop).rounds_bounds (.conn fd .forceCloseInLoop)
  cases st <;> simp only [Stage.lag] <;> omega

/-- The connection is down, or `ForceCloseInLoop` is queued for it. -/
def Closing (s : NetLayer) (fd : ℕ) (c : Conn) : Prop :=
  c.conn.state = .kDisconnected ∨ c.conn.state.isOpen = true ∧ .conn fd .forceCloseInLoop ∈ (s.loops c.loop).queued

/-! ### What the functors do -/

theorem removals_removeConnectionInLoop (hc : s.conns fd = some c)
    (h : s.removeConnectionInLoop thread fd = .ok t) : t.conns fd = some c.countRemoval := by
  unfold removeConnectionInLoop assertInLoopThread at h
  split_ifs at h
  simp only [hc] at h
  split_ifs at h
  obtain rfl := Except.ok.inj h
  exact conns_modifyConn_self (s := { s with connections := Function.update s.connections c.name none }) hc _

theorem destructions_connectDestroyed (hc : s.conns fd = some c) {result : WriteResult}
    (h : s.runFunctor thread result (.conn fd .connectDestroyed) = some (.ok t)) :
    ∃ c', t.conns fd = some c' ∧ c.destructions < c'.destructions := by
  simp only [runFunctor, hc] at h
  have hself : (s.countDestruction fd).conns fd = some c.countDestruction := conns_modifyConn_self hc _
  have hages := (ages_closed 0 thread).runAsserting (s.countDestruction fd) fd c .channelRemove c.conn.connectDestroyed
  rw [Option.some.inj h] at hages
  obtain ⟨c', hc', hlater⟩ := hages fd _ hself
  exact ⟨c', hc', hlater.destructions⟩

/-! ### A step -/

theorem ConnStage.down_of_states {st : Stage} (h : ConnStage c st) (hmem : .kDisconnected ∈ c.states) :
    st.state = .kDisconnected := by
  have hstates := h.states
  cases st <;> simp only [Stage.histories, List.mem_singleton] at hstates <;> first | rfl | simp [hstates] at hmem

theorem ConnStage.states_of_down {st : Stage} (h : ConnStage c st) (hdown : st.state = .kDisconnected) :
    .kDisconnected ∈ c.states := by
  have hstates := h.states
  have hall : ∀ st : Stage, st.state = .kDisconnected → ∀ states ∈ st.histories, State.kDisconnected ∈ states := by
    intro st
    cases st <;> decide
  exact hall st hdown _ hstates

theorem ConnStage.states_of_isOpen {st : Stage} (h : ConnStage c st) (hopen : st.state.isOpen = true) :
    .kConnected ∈ c.states := by
  have hstates := h.states
  obtain rfl | rfl := Stage.of_isOpen hopen
  all_goals
    rw [List.mem_singleton.mp hstates]
    decide

theorem callback_none_of_act (he : e.loop = some loop) (hr : act cfg n s e = some (.ok t)) :
    (s.loops loop).callback = none := by
  simp only [act, he] at hr
  split_ifs at hr with hguard
  exact hguard.2

/-- The loop that the next functor of the connection waits for. -/
def awaitedLoop (loop lag : ℕ) : ℕ := if lag = 3 ∨ lag = 4 then 0 else loop

def awaits (loop lag : ℕ) : Event := .endFunctors (awaitedLoop loop lag)

theorem awaits_removal {loop k : ℕ} (h : k = 3 ∨ k = 4) : awaits loop k = .endFunctors 0 :=
  congrArg Event.endFunctors (if_pos h)

theorem awaits_own {loop k : ℕ} (h : ¬ (k = 3 ∨ k = 4)) : awaits loop k = .endFunctors loop :=
  congrArg Event.endFunctors (if_neg h)

/-- A step on the way down, between two stages of the connection. -/
structure Descends (s : NetLayer) (e : Event) (t : NetLayer) (fd loop : ℕ) (st st' : Stage) : Prop where
  le : st'.lag t fd loop ≤ st.lag s fd loop
  lt : st.lag s fd loop ≠ 0 → e = awaits loop (st.lag s fd loop) → st'.lag t fd loop < st.lag s fd loop

theorem Descends.of_lt {st st' : Stage} (h : st'.lag t fd loop < st.lag s fd loop) : Descends s e t fd loop st st' :=
  ⟨h.le, fun _ _ => h⟩

section Step

variable {c' : Conn} {st' : Stage}

theorem descends_destroyed (hlater : c.Later c') (hst : ConnStage c .destroyed) (hst' : ConnStage c' st') :
    Descends s e t fd loop .destroyed st' := by
  have hone := hlater.destructions
  rw [hst.destructions, hst'.destructions] at hone
  obtain rfl : st' = .destroyed := by
    cases st' <;> first | rfl | cases hone
  exact ⟨le_rfl, fun hne => absurd rfl hne⟩

theorem descends_destroying (hr : act cfg n s e = some (.ok t)) (hc : s.conns fd = some c) (hc' : t.conns fd = some c')
    (hlater : c.Later c') (hplaced : Placed s fd c Stage.destroying.slots) (hst' : ConnStage c' st')
    (hplaced' : Placed t fd c' st'.slots) : Descends s e t fd c.loop .destroying st' := by
  have hbounds := (s.loops c.loop).rounds_bounds (.conn fd .connectDestroyed)
  have hqueued : .conn fd .connectDestroyed ∈ (s.loops c.loop).queued := by
    rw [← List.count_pos_iff, hplaced.destruction]
    exact Nat.one_pos
  obtain ⟨hkept, hle, hlt⟩ | ⟨batch, result, he, hrun⟩ := act_waits hr hqueued
  · rw [← hlater.loop, ← List.count_pos_iff, hplaced'.destruction] at hkept
    obtain rfl : st' = .destroying := by
      cases st' <;> first | rfl | cases hkept
    refine ⟨hle, fun _ he => hlt ?_⟩
    rw [he]
    refine awaits_own ?_
    simp only [Stage.lag]
    omega
  · obtain ⟨d, hd, hmore⟩ := destructions_connectDestroyed (s := s.setPhase c.loop (.functors batch)) hc hrun
    obtain rfl := Option.some.inj (hc'.symm.trans hd)
    rw [hst'.destructions] at hmore
    obtain rfl : st' = .destroyed := by
      cases st' <;> first | rfl | cases hmore
    exact .of_lt hbounds.1

theorem descends_removing (hr : act cfg n s e = some (.ok t)) (hc : s.conns fd = some c) (hc' : t.conns fd = some c')
    (hplaced : Placed s fd c Stage.removing.slots) (hst' : ConnStage c' st')
    (hplaced' : Placed t fd c' st'.slots) : Descends s e t fd c.loop .removing st' := by
  have hbounds := (s.loops 0).rounds_bounds (.removeConnectionInLoop fd)
  have hqueued : .removeConnectionInLoop fd ∈ (s.loops 0).queued := by
    rw [← List.count_pos_iff, hplaced.removal]
    exact Nat.one_pos
  obtain ⟨hkept, hle, hlt⟩ | ⟨batch, result, he, hrun⟩ := act_waits hr hqueued
  · rw [← List.count_pos_iff, hplaced'.removal] at hkept
    obtain rfl : st' = .removing := by
      cases st' <;> first | rfl | cases hkept
    refine ⟨Nat.add_le_add_left hle 2, fun _ he => Nat.add_lt_add_left (hlt ?_) 2⟩
    rw [he]
    refine awaits_removal ?_
    simp only [Stage.lag]
    omega
  · have hd := removals_removeConnectionInLoop (s := s.setPhase 0 (.functors batch)) hc (Option.some.inj hrun)
    obtain rfl := Option.some.inj (hc'.symm.trans hd)
    have hremoved : 1 ≤ st'.removals := by
      rw [← hst'.removals]
      exact Nat.le_add_left 1 _
    have hlag := Stage.lag_le_of_removed t fd c.loop hremoved
    refine .of_lt ?_
    simp only [Stage.lag] at hlag ⊢
    omega

theorem descends_closing (hr : act cfg n s e = some (.ok t)) (hplaced : Placed s fd c Stage.closing.slots)
    (hdown : st'.state = .kDisconnected) : Descends s e t fd c.loop .closing st' := by
  refine ⟨Stage.lag_le_of_down t fd c.loop hdown, fun _ he => ?_⟩
  -- the round cannot end, since the loop is still in the down callback
  have hnone : (s.loops c.loop).callback = none := callback_none_of_act (by rw [he]; rfl) hr
  rw [hplaced.closing.mpr rfl] at hnone
  cases hnone

theorem descends_open (hr : act cfg n s e = some (.ok t)) (hc : s.conns fd = some c) (hc' : t.conns fd = some c')
    (hlater : c.Later c') {st : Stage} (hst : ConnStage c st) (hopen : st.state.isOpen = true)
    (hqueued : .conn fd .forceCloseInLoop ∈ (s.loops c.loop).queued) (hst' : ConnStage c' st') :
    t.Closing fd c' ∧ Descends s e t fd c.loop st st' := by
  have hbounds := fun s : NetLayer => (s.loops c.loop).rounds_bounds (.conn fd .forceCloseInLoop)
  have hlag : ∀ (s : NetLayer) {st : Stage}, st.state.isOpen = true →
      st.lag s fd c.loop = 4 + (s.loops c.loop).rounds (.conn fd .forceCloseInLoop) := by
    intro s st h
    obtain rfl | rfl := Stage.of_isOpen h <;> rfl
  have hawaited : awaits c.loop (st.lag s fd c.loop) = .endFunctors c.loop := by
    refine awaits_own ?_
    have := hbounds s
    rw [hlag s hopen]
    omega
  -- a connection that is down has at most as many rounds left as one whose `ForceCloseInLoop` is about to run
  have hdown : st'.state = .kDisconnected → (e = .endFunctors c.loop →
      (t.loops c.loop).rounds (.conn fd .forceCloseInLoop) < (s.loops c.loop).rounds (.conn fd .forceCloseInLoop)) →
      t.Closing fd c' ∧ Descends s e t fd c.loop st st' := by
    intro h hlt
    have hle := Stage.lag_le_of_down t fd c.loop h
    have hboth := hbounds s
    refine ⟨.inl (hst'.state.trans h), ?_, fun _ he => ?_⟩
    · rw [hlag s hopen]
      omega
    · have hfewer := hlt (he.trans hawaited)
      have hleft := hbounds t
      rw [hlag s hopen]
      omega
  obtain ⟨hkept, hle, hlt⟩ | ⟨batch, result, rfl, hrun⟩ := act_waits hr hqueued
  · by_cases hstill : st'.state.isOpen = true
    · refine ⟨.inr ⟨hst'.isOpen ▸ hstill, hlater.loop ▸ hkept⟩, ?_, fun _ he => ?_⟩
      · rw [hlag t hstill, hlag s hopen]
        exact Nat.add_le_add_left hle 4
      · rw [hlag t hstill, hlag s hopen]
        exact Nat.add_lt_add_left (hlt (he.trans hawaited)) 4
    · refine hdown ?_ hlt
      have hup : .kConnected ∈ c'.states := hlater.states.subset (hst.states_of_isOpen hopen)
      have hstates := hst'.states
      cases st' with
      | connecting =>
        rw [List.mem_singleton.mp hstates] at hup
        simp at hup
      | connected | disconnecting => exact absurd rfl hstill
      | _ => rfl
  · refine hdown ?_ fun he => by cases he
    have hcallbacks := callbacksOf_forceCloseInLoop (s := s.setPhase c.loop (.functors batch)) hc
      (hst.isOpen ▸ hopen) hrun
    rw [callbacksOf_of_conns hc', hst'.callbacks] at hcallbacks
    have hmem : false ∈ st'.callbacks := by
      rw [hcallbacks]
      exact List.mem_append_right _ (List.mem_singleton_self false)
    cases st' <;> first | rfl | simp [Stage.callbacks] at hmem

/-- Whatever step is taken, a connection on its way down is no further from its end. -/
theorem lag_step (hs : Lives none s) (haffine : Affine cfg n s) (ht : Lives none t)
    (hr : act cfg n s e = some (.ok t)) (hc : s.conns fd = some c) (hclosing : s.Closing fd c) :
    ∃ c', t.conns fd = some c' ∧ c'.loop = c.loop ∧ t.Closing fd c' ∧ t.lag fd ≤ s.lag fd ∧
      (s.lag fd ≠ 0 → e = awaits c.loop (s.lag fd) → t.lag fd < s.lag fd) := by
  obtain ⟨c', hc', hlater⟩ := Closed.act (ages_closed n) (fun _ => haffine.fresh) hr fd c hc
  obtain ⟨st, hst, hplaced⟩ := hs.stages fd c (by simp) hc
  obtain ⟨st', hst', hplaced'⟩ := ht.stages fd c' (by simp) hc'
  have hgoal : t.Closing fd c' ∧ Descends s e t fd c.loop st st' := by
    obtain hdown | ⟨hopen, hqueued⟩ := hclosing
    · have hmem := hst.states_of_down (hst.state.symm.trans hdown)
      have hdown' := hst'.down_of_states (hlater.states.subset hmem)
      refine ⟨.inl (hst'.state.trans hdown'), ?_⟩
      have hstate := hst.state.symm.trans hdown
      cases st with
      | connecting | connected | disconnecting => cases hstate
      | closing => exact descends_closing hr hplaced hdown'
      | removing => exact descends_removing hr hc hc' hplaced hst' hplaced'
      | destroying => exact descends_destroying hr hc hc' hlater hplaced hst' hplaced'
      | destroyed => exact descends_destroyed hlater hst hst'
    · exact descends_open hr hc hc' hlater hst (hst.isOpen.trans hopen) hqueued hst'
  obtain ⟨hclosing', hdescends⟩ := hgoal
  rw [lag_eq hc hst hplaced, lag_eq hc' hst' hplaced', hlater.loop]
  exact ⟨c', hc', hlater.loop, hclosing', hdescends.le, hdescends.lt⟩

end Step

/-! ## Whole runs -/

/-- The connection has been told that it is down, once; it is out of `connections_` and out of its poller, and
`ConnectDestroyed` has run once. -/
structure Gone (s : NetLayer) (fd : ℕ) (c : Conn) : Prop where
  callbacks : c.callbacks = [true, false]
  removals : c.removals = 1
  destructions : c.destructions = 1
  entry : s.connections c.name = none
  poller : (s.loops c.loop).poller.kernel fd = none

theorem Lives.gone (h : Lives none s) (hc : s.conns fd = some c) (hlag : s.lag fd = 0) : s.Gone fd c := by
  obtain ⟨st, hst, hplaced⟩ := h.stages fd c (by simp) hc
  rw [lag_eq hc hst hplaced] at hlag
  obtain rfl : st = .destroyed := by
    have hremoval := (s.loops 0).rounds_bounds (.removeConnectionInLoop fd)
    have hdestruction := (s.loops c.loop).rounds_bounds (.conn fd .connectDestroyed)
    cases st <;> simp only [Stage.lag] at hlag <;> first | rfl | omega
  refine ⟨hst.callbacks, hst.removals, hst.destructions, hplaced.entry, ?_⟩
  have hkernel := (h.loops c.loop).consistent.kernel_at fd
  rw [hplaced.channel, hst.index] at hkernel
  exact hkernel

/-- The connection on `fd` is on its way down, or gone. -/
def OnWay (cfg : Config) (n fd loop : ℕ) (x : Except Failure NetLayer) : Prop :=
  ∃ s c, x = .ok s ∧ Lives none s ∧ Affine cfg n s ∧ s.conns fd = some c ∧ c.loop = loop ∧ s.Closing fd c

theorem OnWay.step {x y : Except Failure NetLayer} (hx : OnWay cfg n fd loop x) (hassumed : Assumed x e)
    (hy : step cfg n x e = some y) :
    ∃ s t, x = .ok s ∧ y = .ok t ∧ Lives none s ∧ Affine cfg n s ∧ OnWay cfg n fd loop y ∧ t.lag fd ≤ s.lag fd ∧
      (s.lag fd ≠ 0 → e = awaits loop (s.lag fd) → t.lag fd < s.lag fd) := by
  obtain ⟨s, c, rfl, hlives, haffine, hc, rfl, hclosing⟩ := hx
  obtain ⟨t, rfl, hlives'⟩ := hlives.act haffine hassumed hy
  obtain ⟨c', hc', hloop, hclosing', hle, hlt⟩ := lag_step hlives haffine hlives' hy hc hclosing
  exact ⟨s, t, rfl, rfl, hlives, haffine, ⟨t, c', rfl, hlives', haffine.act hy, hc', hloop, hclosing'⟩, hle, hlt⟩

theorem onWay_of_run {es : List Event} (hes : Meets (step cfg n) Assumed (.ok (start cfg n)) es)
    (hrun : runFrom (step cfg n) (.ok (start cfg n)) es = some (.ok s)) (hc : s.conns fd = some c)
    (hclosing : s.Closing fd c) : OnWay cfg n fd c.loop (.ok s) := by
  obtain ⟨s', heq, hlives, haffine⟩ := lives_of_run hes hrun
  obtain rfl := Except.ok.inj heq
  exact ⟨s, c, rfl, hlives, haffine, hc, rfl, hclosing⟩

/-- **Teardown.**  Once a connection is down or `ForceClose` has queued its functor, six rounds of the base loop and of
the connection's own loop see it gone, whatever else happens in them. -/
theorem closing_connection_gone {cfg : Config} {n : ℕ} {es : List Event} {s : NetLayer} {fd : ℕ} {c : Conn}
    {rounds : List (List Event)} {r : Except Failure NetLayer}
    (hes : Meets (step cfg n) Assumed (.ok (start cfg n)) es)
    (hrun : runFrom (step cfg n) (.ok (start cfg n)) es = some (.ok s)) (hc : s.conns fd = some c)
    (hclosing : s.Closing fd c) (hlength : rounds.length = 6)
    (hrounds : ∀ round ∈ rounds, .endFunctors 0 ∈ round ∧ .endFunctors c.loop ∈ round)
    (hmeets : Meets (step cfg n) Assumed (.ok s) rounds.flatten)
    (hrest : runFrom (step cfg n) (.ok s) rounds.flatten = some r) :
    ∃ t c', r = .ok t ∧ t.conns fd = some c' ∧ t.Gone fd c' := by
  let left : Except Failure NetLayer → ℕ := fun x => (x.toOption.map fun s => s.lag fd).getD 0
  have hstep : ∀ x e y, OnWay cfg n fd c.loop x → Assumed x e → step cfg n x e = some y →
      OnWay cfg n fd c.loop y ∧ left y ≤ left x ∧ (left x ≠ 0 → e = awaits c.loop (left x) → left y < left x) := by
    intro x e y hx hassumed hy
    obtain ⟨s, t, rfl, rfl, -, -, hnext, hle, hlt⟩ := hx.step hassumed hy
    exact ⟨hnext, hle, hlt⟩
  have hstart := onWay_of_run hes hrun hc hclosing
  have hsix : left (.ok s) ≤ rounds.length := by
    obtain ⟨s', -, heq, hlives, -⟩ := hstart
    obtain rfl := Except.ok.inj heq
    obtain ⟨st, hst, hplaced⟩ := hlives.stages fd c (by simp) hc
    rw [hlength]
    exact (lag_eq hc hst hplaced).trans_le (st.lag_le s fd c.loop)
  have hawaits : ∀ round ∈ rounds, ∀ k, ∃ e ∈ round, e = awaits c.loop k := by
    intro round hround k
    refine ⟨_, ?_, rfl⟩
    unfold awaits awaitedLoop
    split_ifs
    · exact (hrounds round hround).1
    · exact (hrounds round hround).2
  obtain ⟨⟨t, c', rfl, hlives', -, hc', -, -⟩, hzero⟩ := zero_of_rounds hstep hstart hawaits hsix hmeets hrest
  exact ⟨t, c', rfl, hc', hlives'.gone hc' hzero⟩

instance (s : NetLayer) (fd : ℕ) (c : Conn) : Decidable (s.Closing fd c) :=
  inferInstanceAs (Decidable (_ ∨ _ ∧ _))

/-- One IO loop: the user closes descriptor 7 in its up callback. -/
def closedWhenUp : List Event :=
  [.start, .poll 0 [(3, EPOLLIN)], .handle 0 ⟨some 7, .bytes [], .wrote 0, id⟩, .poll 1 [], .doPendingFunctors 1,
    .run 1 (.wrote 0), .forceClose 1 7]

def idleRound : List Event :=
  [.poll 1 [], .doPendingFunctors 1, .endFunctors 1, .poll 0 [], .doPendingFunctors 0, .endFunctors 0]

def roundsToGone : List (List Event) :=
  [[.callbackReturns 1, .endFunctors 1, .handle 0 ⟨none, .bytes [], .wrote 0, id⟩, .doPendingFunctors 0, .endFunctors 0],
    [.poll 1 [], .doPendingFunctors 1, .run 1 (.wrote 0), .callbackReturns 1, .endFunctors 1,
      .poll 0 [], .doPendingFunctors 0, .run 0 (.wrote 0), .endFunctors 0],
    [.poll 1 [], .doPendingFunctors 1, .run 1 (.wrote 0), .endFunctors 1, .poll 0 [], .doPendingFunctors 0,
      .endFunctors 0],
    idleRound, idleRound, idleRound]

theorem closedWhenUp_gone :
    ∃ s c t c', runFrom (step sampleConfig 1) (.ok (start sampleConfig 1)) closedWhenUp = some (.ok s) ∧
      s.conns 7 = some c ∧ s.Closing 7 c ∧ c.conn.state ≠ .kDisconnected ∧
      runFrom (step sampleConfig 1) (.ok s) roundsToGone.flatten = some (.ok t) ∧ t.conns 7 = some c' ∧
      t.Gone 7 c' := by
  have hmeets : Meets (step sampleConfig 1) Assumed (.ok (start sampleConfig 1))
      (closedWhenUp ++ roundsToGone.flatten) := by decide +kernel
  have hend : (runFrom (step sampleConfig 1) (.ok (start sampleConfig 1))
      (closedWhenUp ++ roundsToGone.flatten)).isSome = true := by decide +kernel
  have hview : ((runFrom (step sampleConfig 1) (.ok (start sampleConfig 1)) closedWhenUp).any fun x =>
      x.toOption.any fun s => (s.conns 7).any fun c =>
        decide (s.Closing 7 c ∧ c.conn.state ≠ .kDisconnected ∧ c.loop = 1)) = true := by decide +kernel
  obtain ⟨r, hr⟩ := Option.isSome_iff_exists.mp hend
  obtain ⟨x, hes, hrun, hrest, hr⟩ := run_split hmeets hr
  rw [hrun, Option.any_some, Option.any_eq_true] at hview
  obtain ⟨s, hs, hview⟩ := hview
  obtain ⟨c, hc, hview⟩ := (Option.any_eq_true _ _).mp hview
  obtain ⟨hclosing, hstate, hloop⟩ := of_decide_eq_true hview
  obtain rfl : x = .ok s := by
    cases x with
    | error failure => cases hs
    | ok s' => exact congrArg _ (Option.some.inj hs)
  have hrounds : ∀ round ∈ roundsToGone, .endFunctors 0 ∈ round ∧ .endFunctors c.loop ∈ round := by
    rw [hloop]
    simp [roundsToGone, idleRound]
  obtain ⟨t, c', rfl, hc', hgone⟩ := closing_connection_gone hes hrun hc hclosing rfl hrounds hrest hr
  exact ⟨s, c, t, c', hrun, hc, hclosing, hstate, hr, hc', hgone⟩

end NetLayer
end Chater.Net
