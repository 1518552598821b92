import Chater.Net.NetAffinity
import Chater.Net.QuietHandlers

/-!
# The stages of a connection

A connection of the net layer goes through seven stages, from the queued `ConnectEstablished` to the executed
`ConnectDestroyed`.  The stage says everything about the connection that its lifecycle depends on: `state_`, the
callbacks that ran, the registration of its channel, its entry in `connections_`, and the functors that are queued for
it.  The invariant of the net layer is that every connection is at some stage.
-/

namespace Chater.Net

open Base Foundations

set_option autoImplicit false

/-! ## Stages -/

def State.isOpen : State → Bool
  | .kConnected | .kDisconnecting => true
  | _ => false

/-- The connection that a functor is about. -/
def ServerFunctor.fd : ServerFunctor → ℕ
  | .conn fd _ => fd
  | .removeConnectionInLoop fd => fd

namespace NetLayer

/-- What waits for a connection: queued `ConnectEstablished`, `RemoveConnectionInLoop` and `ConnectDestroyed`, a
`HandleClose` that is still in the down callback, and the entry of `connections_`. -/
structure Slots where
  established : ℕ
  removal : ℕ
  destruction : ℕ
  closing : Bool
  entered : Bool

def Slots.add (slots : Slots) : ServerFunctor → Slots
  | .conn _ .connectEstablished => { slots with established := slots.established + 1 }
  | .conn _ .connectDestroyed => { slots with destruction := slots.destruction + 1 }
  | .conn _ _ => slots
  | .removeConnectionInLoop _ => { slots with removal := slots.removal + 1 }

theorem Slots.add_plain (slots : Slots) {f : Functor} (hf : f.plain = true) (fd : ℕ) :
    slots.add (.conn fd f) = slots := by
  cases f with
  | connectEstablished | connectDestroyed => cases hf
  | _ => rfl

@[simp] theorem Slots.add_closing (slots : Slots) (f : ServerFunctor) : (slots.add f).closing = slots.closing := by
  cases f with
  | removeConnectionInLoop => rfl
  | conn fd f => cases f <;> rfl

@[simp] theorem Slots.add_entered (slots : Slots) (f : ServerFunctor) : (slots.add f).entered = slots.entered := by
  cases f with
  | removeConnectionInLoop => rfl
  | conn fd f => cases f <;> rfl

inductive Stage
  | connecting
  | connected
  | disconnecting
  | closing
  | removing
  | destroying
  | destroyed
deriving DecidableEq, Repr

namespace Stage

def state : Stage → State
  | connecting => .kConnecting
  | connected => .kConnected
  | disconnecting => .kDisconnecting
  | _ => .kDisconnected

def histories : Stage → List (List State)
  | connecting => [[.kConnecting]]
  | connected => [[.kConnecting, .kConnected]]
  | disconnecting => [[.kConnecting, .kConnected, .kDisconnecting]]
  | _ => [[.kConnecting, .kConnected, .kDisconnected], [.kConnecting, .kConnected, .kDisconnecting, .kDisconnected]]

def callbacks : Stage → List Bool
  | connecting => []
  | connected | disconnecting => [true]
  | _ => [true, false]

def slots : Stage → Slots
  | connecting => ⟨1, 0, 0, false, true⟩
  | connected | disconnecting => ⟨0, 0, 0, false, true⟩
  | closing => ⟨0, 0, 0, true, true⟩
  | removing => ⟨0, 1, 0, false, true⟩
  | destroying => ⟨0, 0, 1, false, false⟩
  | destroyed => ⟨0, 0, 0, false, false⟩

def removals : Stage → ℕ
  | destroying | destroyed => 1
  | _ => 0

def destructions : Stage → ℕ
  | destroyed => 1
  | _ => 0

/-- `index_` of the channel. -/
def index : Stage → ℤ
  | connecting | destroyed => -1
  | connected | disconnecting => 1
  | _ => 2

end Stage

/-- What the stage says about the connection itself. -/
structure ConnStage (c : Conn) (st : Stage) : Prop where
  state : c.conn.state = st.state
  states : c.states ∈ st.histories
  callbacks : c.callbacks = st.callbacks
  removals : c.removals = st.removals
  destructions : c.destructions = st.destructions
  index : c.conn.channel.index = st.index
  reading : st.state.isOpen = true → c.conn.channel.isReading = true
  noEvents : st.state.isOpen = false → c.conn.channel.isNoneEvent = true

/-- The callbacks of a channel that may close the connection. -/
def closers (callbacks : List Channel.Callback) : ℕ := callbacks.countP fun cb => cb == .close || cb == .read

/-- What surrounds a connection.  Before `ConnectEstablished` has run nothing else can reach it, and a callback that
may close it waits only while it is open. -/
structure Placed (s : NetLayer) (fd : ℕ) (c : Conn) (slots : Slots) : Prop where
  established : (s.loops c.loop).queued.count (.conn fd .connectEstablished) = slots.established
  removal : (s.loops 0).queued.count (.removeConnectionInLoop fd) = slots.removal
  destruction : (s.loops c.loop).queued.count (.conn fd .connectDestroyed) = slots.destruction
  closing : (s.loops c.loop).callback = some (fd, [.closeCallback]) ↔ slots.closing = true
  entry : s.connections c.name = if slots.entered then some fd else none
  channel : (s.loops c.loop).poller.channel fd = c.conn.channel
  early : c.conn.state = .kConnecting →
    (∀ loop f, .conn fd f ∈ (s.loops loop).queued → f = .connectEstablished) ∧ ∀ call ∈ s.calls, call.id ≠ fd
  active : ∀ loop callbacks, (fd, callbacks) ∈ (s.loops loop).phase.active →
    c.conn.state ≠ .kConnecting ∧ (c.conn.state.isOpen = true ∨ closers callbacks = 0)

/-! ## The invariant -/

structure LoopLives (openFds : List ℕ) (l : Loop) : Prop where
  consistent : Poller.Consistent id l.poller
  unused : ∀ fd, fd ∉ openFds → l.poller.channel fd = .new
  paused : ∀ fd rest, l.callback = some (fd, rest) → rest = [] ∨ rest = [.closeCallback]
  nodup : (l.phase.active.map Prod.fst).Nodup
  orderly : ∀ x ∈ l.phase.active, closers x.2 ≤ 1

/-- Every connection is at some stage, but for the one that is being worked on. -/
structure Lives (worked : Option ℕ) (s : NetLayer) : Prop where
  loops : ∀ loop, LoopLives s.openFds (s.loops loop)
  stages : ∀ fd c, some fd ≠ worked → s.conns fd = some c → ∃ st : Stage, ConnStage c st ∧ Placed s fd c st.slots
  opened : ∀ fd c, s.conns fd = some c → fd ∈ s.openFds
  calls : ∀ call ∈ s.calls, call.mustStore = false ∧ call.functor.isSend = true ∧ s.conns call.id ≠ none
  names : ∀ fd c, s.conns fd = some c → ∃ i ≤ s.accepts, c.name = BitVec.ofNat 32 i
  distinct : ∀ fd fd' c c', s.conns fd = some c → s.conns fd' = some c' → c.name = c'.name → fd = fd'
  nextConnId : s.nextConnId = BitVec.ofNat 32 (s.accepts + 1)

/-- The connection on `fd` is being worked on, and this is what surrounds it. -/
structure Focus (s : NetLayer) (fd : ℕ) (c : Conn) (slots : Slots) : Prop where
  others : Lives (some fd) s
  conn : s.conns fd = some c
  placed : Placed s fd c slots

variable {s : NetLayer} {fd : ℕ} {c : Conn} {slots : Slots}

theorem Lives.focus (h : Lives none s) (hc : s.conns fd = some c) :
    ∃ st : Stage, ConnStage c st ∧ Focus s fd c st.slots := by
  obtain ⟨st, hst, hplaced⟩ := h.stages fd c (by simp) hc
  refine ⟨st, hst, ⟨h.loops, fun j c' _ hj => ?_, h.opened, h.calls, h.names, h.distinct, h.nextConnId⟩, hc, hplaced⟩
  exact h.stages j c' (by simp) hj

theorem Focus.settle (st : Stage) (h : Focus s fd c st.slots) (hst : ConnStage c st) : Lives none s := by
  have hall := h.others
  refine ⟨hall.loops, fun j c' _ hj => ?_, hall.opened, hall.calls, hall.names, hall.distinct, hall.nextConnId⟩
  by_cases hfd : j = fd
  · subst hfd
    obtain rfl := Option.some.inj (h.conn.symm.trans hj)
    exact ⟨st, hst, h.placed⟩
  · exact hall.stages j c' (fun heq => hfd (Option.some.inj heq)) hj

/-! ## What a change leaves alone -/

/-- The loop looks to the connection on `fd` as it did, up to callbacks that have been handled. -/
structure SameFor (fd : ℕ) (l l' : Loop) : Prop where
  queued : ∀ f : ServerFunctor, f.fd = fd → l'.queued.count f = l.queued.count f
  callback : l'.callback = some (fd, [.closeCallback]) ↔ l.callback = some (fd, [.closeCallback])
  channel : l'.poller.channel fd = l.poller.channel fd
  active : ∀ callbacks, (fd, callbacks) ∈ l'.phase.active →
    ∃ before, (fd, before) ∈ l.phase.active ∧ closers callbacks ≤ closers before

theorem SameFor.refl (fd : ℕ) (l : Loop) : SameFor fd l l :=
  ⟨fun _ _ => rfl, Iff.rfl, rfl, fun callbacks h => ⟨callbacks, h, le_rfl⟩⟩

theorem Placed.of_views {s' : NetLayer} (h : Placed s fd c slots)
    (hqueued : ∀ loop (f : ServerFunctor), f.fd = fd → (s'.loops loop).queued.count f = (s.loops loop).queued.count f)
    (hcallback : ∀ loop, (s'.loops loop).callback = some (fd, [.closeCallback]) ↔
      (s.loops loop).callback = some (fd, [.closeCallback]))
    (hchannel : ∀ loop, (s'.loops loop).poller.channel fd = (s.loops loop).poller.channel fd)
    (hentry : s'.connections c.name = s.connections c.name)
    (hcalls : ∀ call ∈ s'.calls, call.id = fd → call ∈ s.calls)
    (hactive : ∀ loop callbacks, (fd, callbacks) ∈ (s'.loops loop).phase.active →
      c.conn.state ≠ .kConnecting ∧ (c.conn.state.isOpen = true ∨ closers callbacks = 0)) : Placed s' fd c slots where
  established := (hqueued c.loop _ rfl).trans h.established
  removal := (hqueued 0 _ rfl).trans h.removal
  destruction := (hqueued c.loop _ rfl).trans h.destruction
  closing := (hcallback c.loop).trans h.closing
  entry := hentry.trans h.entry
  channel := (hchannel c.loop).trans h.channel
  early hstate := by
    obtain ⟨hqueue, hcall⟩ := h.early hstate
    refine ⟨fun loop f hf => hqueue loop f ?_, fun call hmem hid => hcall call (hcalls call hmem hid) hid⟩
    rw [← List.count_pos_iff, ← hqueued loop (.conn fd f) rfl]
    exact List.count_pos_iff.mpr hf
  active := hactive

theorem Placed.of_same {s' : NetLayer} (h : Placed s fd c slots)
    (hloops : ∀ loop, SameFor fd (s.loops loop) (s'.loops loop))
    (hentry : s'.connections c.name = s.connections c.name)
    (hcalls : ∀ call ∈ s'.calls, call.id = fd → call ∈ s.calls) : Placed s' fd c slots := by
  refine h.of_views (fun loop => (hloops loop).queued) (fun loop => (hloops loop).callback)
    (fun loop => (hloops loop).channel) hentry hcalls fun loop callbacks hmem => ?_
  obtain ⟨before, hbefore, hle⟩ := (hloops loop).active callbacks hmem
  obtain ⟨hstate, hopen⟩ := h.active loop before hbefore
  exact ⟨hstate, hopen.imp_right fun hzero => by omega⟩

theorem sameFor_modifyLoop {loop : ℕ} {f : Loop → Loop} (h : SameFor fd (s.loops loop) (f (s.loops loop)))
    (other : ℕ) : SameFor fd (s.loops other) ((s.modifyLoop loop f).loops other) := by
  by_cases hloop : other = loop
  · rw [hloop, loops_modifyLoop_self]
    exact h
  · rw [loops_modifyLoop_of_ne s hloop]
    exact SameFor.refl fd _

theorem Lives.modifyLoop {worked : Option ℕ} (h : Lives worked s) {loop : ℕ} {f : Loop → Loop}
    (hl : LoopLives s.openFds (s.loops loop) → LoopLives s.openFds (f (s.loops loop)))
    (hsame : ∀ j, some j ≠ worked → s.conns j ≠ none → SameFor j (s.loops loop) (f (s.loops loop))) :
    Lives worked (s.modifyLoop loop f) := by
  refine ⟨fun other => ?_, fun j c hj hc => ?_, h.opened, h.calls, h.names, h.distinct, h.nextConnId⟩
  · by_cases hloop : other = loop
    · rw [hloop, loops_modifyLoop_self]
      exact hl (h.loops loop)
    · rw [loops_modifyLoop_of_ne s hloop]
      exact h.loops other
  · obtain ⟨st, hst, hplaced⟩ := h.stages j c hj hc
    have hne : s.conns j ≠ none := Option.ne_none_iff_exists'.mpr ⟨c, hc⟩
    exact ⟨st, hst, hplaced.of_same (sameFor_modifyLoop (hsame j hj hne)) rfl fun _ hcall _ => hcall⟩

theorem Lives.modifyConn (h : Lives (some fd) s) {f : Conn → Conn} (hname : ∀ c, (f c).name = c.name) :
    Lives (some fd) (s.modifyConn fd f) := by
  -- the connections of the new state are those of the old one, up to what `f` leaves of `fd`
  have hconns : ∀ j c', (s.modifyConn fd f).conns j = some c' → ∃ c, s.conns j = some c ∧ c.name = c'.name := by
    intro j c' hc'
    by_cases hj : j = fd
    · subst hj
      cases hc : s.conns j with
      | none =>
        simp [NetLayer.modifyConn, hc] at hc'
      | some c =>
        rw [conns_modifyConn_self hc] at hc'
        exact ⟨c, rfl, by rw [← Option.some.inj hc', hname]⟩
    · rw [conns_modifyConn_of_ne s hj] at hc'
      exact ⟨c', hc', rfl⟩
  refine ⟨h.loops, fun j c hj hc => ?_, fun j c' hc' => ?_, fun call hcall => ?_, fun j c' hc' => ?_,
    fun j j' c₁ c₂ h₁ h₂ heq => ?_, h.nextConnId⟩
  · have hne : j ≠ fd := fun heq => hj (congrArg some heq)
    rw [conns_modifyConn_of_ne s hne] at hc
    obtain ⟨st, hst, hplaced⟩ := h.stages j c hj hc
    exact ⟨st, hst, hplaced.of_same (fun loop => SameFor.refl j _) rfl fun _ hcall _ => hcall⟩
  · obtain ⟨c, hc, -⟩ := hconns j c' hc'
    exact h.opened j c hc
  · obtain ⟨hstored, hsend, hconn⟩ := h.calls call hcall
    refine ⟨hstored, hsend, ?_⟩
    by_cases hid : call.id = fd
    · obtain ⟨c, hc⟩ := Option.ne_none_iff_exists'.mp hconn
      rw [← hid, conns_modifyConn_self hc]
      exact Option.some_ne_none _
    · rw [conns_modifyConn_of_ne s hid]
      exact hconn
  · obtain ⟨c, hc, hcname⟩ := hconns j c' hc'
    rw [← hcname]
    exact h.names j c hc
  · obtain ⟨d₁, hd₁, hn₁⟩ := hconns j c₁ h₁
    obtain ⟨d₂, hd₂, hn₂⟩ := hconns j' c₂ h₂
    exact h.distinct j j' d₁ d₂ hd₁ hd₂ ((hn₁.trans heq).trans hn₂.symm)

/-! ## Queues -/

/-- The loop whose queue a functor about `c` is put in. -/
def home (c : Conn) : ServerFunctor → ℕ
  | .conn _ _ => c.loop
  | .removeConnectionInLoop _ => 0

theorem modifyLoop_same {α : Type} (g : Loop → α) {f : Loop → Loop} (hf : ∀ l, g (f l) = g l) (s : NetLayer)
    (loop other : ℕ) : g ((s.modifyLoop loop f).loops other) = g (s.loops other) := by
  by_cases hloop : other = loop
  · rw [hloop, loops_modifyLoop_self, hf]
  · rw [loops_modifyLoop_of_ne s hloop]

theorem count_queueInLoop (s : NetLayer) (loop : ℕ) (f : ServerFunctor) (other : ℕ) (g : ServerFunctor) :
    ((s.queueInLoop loop f).loops other).queued.count g =
      (s.loops other).queued.count g + if other = loop ∧ f = g then 1 else 0 := by
  unfold queueInLoop
  by_cases hloop : other = loop
  · rw [hloop, loops_modifyLoop_self, queued_push, List.count_append, List.count_singleton]
    simp
  · rw [loops_modifyLoop_of_ne s hloop]
    simp [hloop]

/-- Taking the next functor of the batch. -/
theorem count_pop {loop : ℕ} {f : ServerFunctor} {batch : List ServerFunctor}
    (hphase : (s.loops loop).phase = .functors (f :: batch)) (other : ℕ) (g : ServerFunctor) :
    (s.loops other).queued.count g =
      ((s.setPhase loop (.functors batch)).loops other).queued.count g + if other = loop ∧ f = g then 1 else 0 := by
  unfold setPhase
  by_cases hloop : other = loop
  · rw [hloop, loops_modifyLoop_self]
    simp only [Loop.queued, hphase, Phase.batch, List.cons_append, List.count_cons, beq_iff_eq, true_and]
  · rw [loops_modifyLoop_of_ne s hloop]
    simp [hloop]

theorem ServerFunctor.ne_of_fd {f g : ServerFunctor} (h : f.fd ≠ g.fd) : f ≠ g := fun heq => h (congrArg _ heq)

theorem slots_established {f : ServerFunctor} (hf : f.fd = fd) (slots : Slots) :
    (slots.add f).established =
      slots.established + if c.loop = home c f ∧ f = .conn fd .connectEstablished then 1 else 0 := by
  cases f with
  | removeConnectionInLoop j => simp [Slots.add]
  | conn j f =>
    obtain rfl : j = fd := hf
    cases f <;> simp [Slots.add, home]

theorem slots_destruction {f : ServerFunctor} (hf : f.fd = fd) (slots : Slots) :
    (slots.add f).destruction =
      slots.destruction + if c.loop = home c f ∧ f = .conn fd .connectDestroyed then 1 else 0 := by
  cases f with
  | removeConnectionInLoop j => simp [Slots.add]
  | conn j f =>
    obtain rfl : j = fd := hf
    cases f <;> simp [Slots.add, home]

theorem slots_removal {f : ServerFunctor} (hf : f.fd = fd) (slots : Slots) :
    (slots.add f).removal =
      slots.removal + if 0 = home c f ∧ f = .removeConnectionInLoop fd then 1 else 0 := by
  cases f with
  | removeConnectionInLoop j =>
    obtain rfl : j = fd := hf
    simp [Slots.add, home]
  | conn j f => cases f <;> simp [Slots.add]

theorem Focus.queueInLoop (h : Focus s fd c slots) {f : ServerFunctor} (hf : f.fd = fd)
    (hearly : c.conn.state = .kConnecting → f = .conn fd .connectEstablished) :
    Focus (s.queueInLoop (home c f) f) fd c (slots.add f) := by
  refine ⟨?_, h.conn, ?_⟩
  · refine h.others.modifyLoop (fun hl => ⟨hl.consistent, hl.unused, hl.paused, hl.nodup, hl.orderly⟩) fun j hj _ => ?_
    refine ⟨fun g hg => ?_, Iff.rfl, rfl, fun callbacks hmem => ⟨callbacks, hmem, le_rfl⟩⟩
    have hne : f ≠ g := ServerFunctor.ne_of_fd fun heq => hj (congrArg some (hg.symm.trans (heq.symm.trans hf)))
    rw [queued_push, List.count_append, List.count_singleton]
    simp [hne]
  · have hplaced := h.placed
    have hcallback : ∀ loop, ((s.queueInLoop (home c f) f).loops loop).callback = (s.loops loop).callback :=
      modifyLoop_same Loop.callback (by intro l; rfl) s _
    have hpoller : ∀ loop, ((s.queueInLoop (home c f) f).loops loop).poller = (s.loops loop).poller :=
      modifyLoop_same Loop.poller (by intro l; rfl) s _
    have hphase : ∀ loop, ((s.queueInLoop (home c f) f).loops loop).phase = (s.loops loop).phase :=
      modifyLoop_same Loop.phase (by intro l; rfl) s _
    refine ⟨?_, ?_, ?_, ?_, ?_, ?_, fun hstate => ⟨fun loop g hg => ?_, (hplaced.early hstate).2⟩, ?_⟩
    · rw [count_queueInLoop, hplaced.established, slots_established hf]
    · rw [count_queueInLoop, hplaced.removal, slots_removal hf]
    · rw [count_queueInLoop, hplaced.destruction, slots_destruction hf]
    · rw [hcallback, hplaced.closing, Slots.add_closing]
    · rw [Slots.add_entered]
      exact hplaced.entry
    · rw [hpoller]
      exact hplaced.channel
    · have hpos := List.count_pos_iff.mpr hg
      rw [count_queueInLoop] at hpos
      by_cases hold : .conn fd g ∈ (s.loops loop).queued
      · exact (hplaced.early hstate).1 loop g hold
      · rw [List.count_eq_zero.mpr hold, Nat.zero_add] at hpos
        have hfg : loop = home c f ∧ f = .conn fd g := by
          by_contra hne
          rw [if_neg hne] at hpos
          exact absurd hpos (lt_irrefl 0)
        have hestablished := hfg.2.symm.trans (hearly hstate)
        exact (ServerFunctor.conn.inj hestablished).2
    · intro loop callbacks hmem
      rw [hphase] at hmem
      exact hplaced.active loop callbacks hmem

theorem Focus.pop (h : Focus s fd c slots) {f : ServerFunctor} {batch : List ServerFunctor} (hf : f.fd = fd)
    (hphase : (s.loops (home c f)).phase = .functors (f :: batch)) :
    ∃ slots', slots'.add f = slots ∧ Focus (s.setPhase (home c f) (.functors batch)) fd c slots' := by
  let t := s.setPhase (home c f) (.functors batch)
  let slots' : Slots := ⟨(t.loops c.loop).queued.count (.conn fd .connectEstablished),
    (t.loops 0).queued.count (.removeConnectionInLoop fd),
    (t.loops c.loop).queued.count (.conn fd .connectDestroyed), slots.closing, slots.entered⟩
  have hplaced := h.placed
  refine ⟨slots', ?_, ?_, h.conn, ?_⟩
  · have hestablished : (slots'.add f).established = slots.established := by
      rw [slots_established hf slots', ← hplaced.established, count_pop hphase]
    have hremoval : (slots'.add f).removal = slots.removal := by
      rw [slots_removal hf slots', ← hplaced.removal, count_pop hphase]
    have hdestruction : (slots'.add f).destruction = slots.destruction := by
      rw [slots_destruction hf slots', ← hplaced.destruction, count_pop hphase]
    calc slots'.add f = ⟨(slots'.add f).established, (slots'.add f).removal, (slots'.add f).destruction,
          (slots'.add f).closing, (slots'.add f).entered⟩ := rfl
      _ = slots := by rw [hestablished, hremoval, hdestruction, Slots.add_closing, Slots.add_entered]
  · refine h.others.modifyLoop (fun hl => ⟨hl.consistent, hl.unused, hl.paused, List.nodup_nil,
      List.forall_mem_nil _⟩) fun j hj _ => ?_
    refine ⟨fun g hg => ?_, Iff.rfl, rfl, fun callbacks hmem => absurd hmem List.not_mem_nil⟩
    have hne : f ≠ g := ServerFunctor.ne_of_fd fun heq => hj (congrArg some (hg.symm.trans (heq.symm.trans hf)))
    simp [Loop.queued, hphase, Phase.batch, hne]
  · have hcallback : ∀ loop, (t.loops loop).callback = (s.loops loop).callback :=
      modifyLoop_same Loop.callback (by intro l; rfl) s _
    have hpoller : ∀ loop, (t.loops loop).poller = (s.loops loop).poller :=
      modifyLoop_same Loop.poller (by intro l; rfl) s _
    refine ⟨rfl, rfl, rfl, ?_, hplaced.entry, ?_, fun hstate => ⟨fun loop g hg => ?_, (hplaced.early hstate).2⟩, ?_⟩
    · rw [hcallback]
      exact hplaced.closing
    · rw [hpoller]
      exact hplaced.channel
    · apply (hplaced.early hstate).1 loop g
      have hpos := List.count_pos_iff.mpr hg
      apply List.count_pos_iff.mp
      rw [count_pop hphase]
      exact Nat.add_pos_left hpos _
    · intro loop callbacks hmem
      by_cases hloop : loop = home c f
      · change (fd, callbacks) ∈ ((s.modifyLoop (home c f) _).loops loop).phase.active at hmem
        rw [hloop, loops_modifyLoop_self] at hmem
        exact absurd hmem List.not_mem_nil
      · change (fd, callbacks) ∈ ((s.modifyLoop (home c f) _).loops loop).phase.active at hmem
        rw [loops_modifyLoop_of_ne s hloop] at hmem
        exact hplaced.active loop callbacks hmem

/-! ## User callbacks -/

/-- The thread of the connection's loop enters a callback of the connection, or leaves one. -/
theorem Focus.setCallback (h : Focus s fd c slots) {callback : Option (ℕ × List Effect)} {closing : Bool}
    (hbefore : ∀ j rest, (s.loops c.loop).callback = some (j, rest) → j = fd)
    (hafter : ∀ j rest, callback = some (j, rest) → j = fd ∧ (rest = [] ∨ rest = [.closeCallback]))
    (hclosing : callback = some (fd, [.closeCallback]) ↔ closing = true) :
    Focus (s.modifyLoop c.loop fun l => { l with callback := callback }) fd c { slots with closing := closing } := by
  have hplaced := h.placed
  have hqueued := modifyLoop_same (f := fun l => { l with callback := callback }) Loop.queued (fun _ => rfl) s c.loop
  have hpoller := modifyLoop_same (f := fun l => { l with callback := callback }) Loop.poller (fun _ => rfl) s c.loop
  have hphase := modifyLoop_same (f := fun l => { l with callback := callback }) Loop.phase (fun _ => rfl) s c.loop
  refine ⟨?_, h.conn, ?_⟩
  · refine h.others.modifyLoop
      (fun hl => ⟨hl.consistent, hl.unused, fun j rest hj => (hafter j rest hj).2, hl.nodup, hl.orderly⟩)
      fun j hj _ => ⟨fun _ _ => rfl, ?_, rfl, fun callbacks hmem => ⟨callbacks, hmem, le_rfl⟩⟩
    refine iff_of_false (fun heq => hj ?_) (fun heq => hj ?_)
    · exact congrArg some (hafter j _ heq).1
    · exact congrArg some (hbefore j _ heq)
  · refine ⟨?_, ?_, ?_, ?_, hplaced.entry, ?_, ?_, ?_⟩
    · rw [hqueued]
      exact hplaced.established
    · rw [hqueued]
      exact hplaced.removal
    · rw [hqueued]
      exact hplaced.destruction
    · rw [loops_modifyLoop_self]
      exact hclosing
    · rw [hpoller]
      exact hplaced.channel
    · simp only [hqueued]
      exact hplaced.early
    · simp only [hphase]
      exact hplaced.active

theorem Focus.enterCallback (h : Focus s fd c slots) (hnone : (s.loops c.loop).callback = none)
    (rest : List Effect) (closing : Bool) (hrest : rest = if closing then [.closeCallback] else []) :
    Focus (s.enterCallback c.loop fd rest) fd c { slots with closing := closing } := by
  subst hrest
  refine h.setCallback (fun j rest hj => ?_) (fun j rest hj => ?_) ?_
  · rw [hnone] at hj
    cases hj
  · obtain ⟨rfl, rfl⟩ := Prod.mk.inj (Option.some.inj hj)
    cases closing <;> simp
  · cases closing <;> simp

theorem Focus.leaveCallback (h : Focus s fd c slots) {rest : List Effect}
    (hcallback : (s.loops c.loop).callback = some (fd, rest)) :
    Focus (s.leaveCallback c.loop) fd c { slots with closing := false } := by
  refine h.setCallback (fun j rest' hj => ?_) (fun j rest' hj => by cases hj) (by simp)
  exact (Prod.mk.inj (Option.some.inj (hj.symm.trans hcallback))).1

/-! ## Records of the connection and of the server -/

theorem Focus.modifyConn (h : Focus s fd c slots) {f : Conn → Conn} (hname : ∀ c, (f c).name = c.name)
    (hloop : (f c).loop = c.loop) (hconn : (f c).conn = c.conn) : Focus (s.modifyConn fd f) fd (f c) slots := by
  have hplaced := h.placed
  refine ⟨h.others.modifyConn hname, conns_modifyConn_self h.conn f, ?_⟩
  refine ⟨?_, hplaced.removal, ?_, ?_, ?_, ?_, ?_, ?_⟩
  · rw [hloop]
    exact hplaced.established
  · rw [hloop]
    exact hplaced.destruction
  · rw [hloop]
    exact hplaced.closing
  · rw [hname]
    exact hplaced.entry
  · rw [hloop, hconn]
    exact hplaced.channel
  · rw [hconn]
    exact hplaced.early
  · rw [hconn]
    exact hplaced.active

theorem Focus.recordCallback (h : Focus s fd c slots) : Focus (s.recordCallback fd) fd c.recordCallback slots :=
  h.modifyConn (fun _ => rfl) rfl rfl

theorem Focus.countRemoval (h : Focus s fd c slots) : Focus (s.countRemoval fd) fd c.countRemoval slots :=
  h.modifyConn (fun _ => rfl) rfl rfl

theorem Focus.countDestruction (h : Focus s fd c slots) :
    Focus (s.countDestruction fd) fd c.countDestruction slots :=
  h.modifyConn (fun _ => rfl) rfl rfl

/-- `connections_.erase(conn->Name())`. -/
theorem Focus.eraseEntry (h : Focus s fd c slots) :
    Focus { s with connections := Function.update s.connections c.name none } fd c { slots with entered := false } := by
  have hplaced := h.placed
  have hall := h.others
  refine ⟨⟨hall.loops, fun j d hj hd => ?_, hall.opened, hall.calls, hall.names, hall.distinct, hall.nextConnId⟩,
    h.conn, ?_⟩
  · obtain ⟨st, hst, hplaced⟩ := hall.stages j d hj hd
    refine ⟨st, hst, hplaced.of_same (fun loop => SameFor.refl j _) ?_ fun _ hcall _ => hcall⟩
    apply Function.update_of_ne
    intro hname
    exact hj (congrArg some (hall.distinct j fd d c hd h.conn hname))
  · refine ⟨hplaced.established, hplaced.removal, hplaced.destruction, hplaced.closing, ?_, hplaced.channel,
      hplaced.early, hplaced.active⟩
    exact Function.update_self ..

/-! ## Handlers and the poller -/

theorem setPoller_self (s : NetLayer) (loop : ℕ) : s.setPoller loop (s.loops loop).poller = s := by
  show { s with loops := Function.update s.loops loop (s.loops loop) } = s
  rw [Function.update_eq_self]

/-- The poller of `loop` has come to know the channel of `fd` as `channel`. -/
def PollerKnows (s : NetLayer) (loop fd : ℕ) (channel : Channel) (p : Poller ℕ) : Prop :=
  s.followChannel loop loop fd channel = .ok (s.setPoller loop p) ∧ Poller.Consistent id p ∧
    p.channel = Function.update (s.loops loop).poller.channel fd channel

theorem followChannel_of_ne {loop : ℕ} {channel : Channel} {p : Poller ℕ}
    (hne : channel ≠ (s.loops loop).poller.channel fd)
    (hp : followPoller (s.loops loop).poller fd channel = some p) :
    s.followChannel loop loop fd channel = .ok (s.setPoller loop p) := by
  unfold followChannel
  rw [if_neg hne, assertInLoopThread_self, hp]

theorem channelUpdated_of_ne {p : Poller ℕ} (hp : Poller.Consistent id p) {channel : Channel}
    (hadded : channel.addedToLoop = true) (hindex : channel.index ≠ -1) (hne : channel ≠ p.channel fd) :
    channelUpdated (p.channel fd) channel = true := by
  by_contra hsame
  simp only [channelUpdated, hadded, Bool.true_and, Bool.or_eq_true, bne_iff_ne, not_or, not_not] at hsame
  have hbefore : (p.channel fd).addedToLoop = true := (hp.added fd).mpr (hsame.2 ▸ hindex)
  apply hne
  calc channel = ⟨channel.events, channel.index, channel.addedToLoop⟩ := rfl
    _ = p.channel fd := by rw [hsame.1, hsame.2, hadded, ← hbefore]

theorem addedToLoop_update (channel : Channel) : channel.update.1.addedToLoop = true := by
  unfold Channel.update
  simp only
  split_ifs <;> rfl

/-- `Channel::Update` succeeds. -/
theorem pollerKnows_of_updates {loop : ℕ} {channel : Channel} (hp : Poller.Consistent id (s.loops loop).poller)
    (hchannel : ((s.loops loop).poller.channel fd).Updates channel) : ∃ p, PollerKnows s loop fd channel p := by
  by_cases hsame : channel = (s.loops loop).poller.channel fd
  · refine ⟨(s.loops loop).poller, ?_, hp, ?_⟩
    · rw [setPoller_self]
      exact if_pos hsame
    · rw [hsame, Function.update_eq_self]
  · obtain ⟨events, hupdate⟩ := hchannel.resolve_left hsame
    obtain ⟨p, hp', hconsistent, hpchannel⟩ := hp.updateChannel Function.injective_id fd events
    have hadded : channel.addedToLoop = true := hupdate ▸ addedToLoop_update _
    have hevents : channel.events = events := by rw [hupdate, Channel.update_events]
    have hindex : channel.index ≠ -1 := hupdate ▸ Poller.update_index_ne _
    refine ⟨p, followChannel_of_ne hsame ?_, hconsistent, hpchannel.trans (by rw [← hupdate])⟩
    have hupdated := channelUpdated_of_ne hp hadded hindex hsame
    have hkept : channelRemoved ((s.loops loop).poller.channel fd) channel = false := by simp [channelRemoved, hadded]
    simp only [followPoller, hupdated, hkept, if_true, hevents, hp']
    rfl

/-- `Channel::Remove` succeeds on a channel that has been added and has no events. -/
theorem pollerKnows_of_removed {loop : ℕ} (hp : Poller.Consistent id (s.loops loop).poller)
    (hnone : ((s.loops loop).poller.channel fd).isNoneEvent = true)
    (hindex : ((s.loops loop).poller.channel fd).index ≠ -1) :
    ∃ p, PollerKnows s loop fd { (s.loops loop).poller.channel fd with addedToLoop := false, index := -1 } p := by
  obtain ⟨p, hp', hconsistent, hpchannel⟩ := hp.removeChannel Function.injective_id hnone hindex
  have hadded := (hp.added fd).mpr hindex
  refine ⟨p, followChannel_of_ne (fun heq => hindex ?_) ?_, hconsistent, hpchannel⟩
  · rw [← heq]
  · simp only [followPoller, channelUpdated, channelRemoved, hadded, bne_self_eq_false, Bool.false_and, Bool.or_self,
      Bool.not_false, Bool.and_self, if_true]
    exact hp'

/-- A handler of the connection that is being worked on runs to its effects. -/
theorem Focus.runHandler (h : Focus s fd c slots) {r : TcpConnection × List Effect} {p : Poller ℕ}
    (hp : PollerKnows s c.loop fd r.1.channel p) (hearly : r.1.state = .kConnecting → c.conn.state = .kConnecting)
    (hactive : ∀ loop callbacks, (fd, callbacks) ∈ (s.loops loop).phase.active →
      r.1.state ≠ .kConnecting ∧ (r.1.state.isOpen = true ∨ closers callbacks = 0)) :
    ∃ t, s.runHandler c.loop fd c r = runEffects c.loop fd c.loop r.2 t ∧ Focus t fd (c.setConn r.1) slots ∧
      ∀ loop, (t.loops loop).callback = (s.loops loop).callback := by
  obtain ⟨hfollow, hconsistent, hchannel⟩ := hp
  have hplaced := h.placed
  have hqueued : ∀ loop, ((s.setPoller c.loop p).loops loop).queued = (s.loops loop).queued :=
    modifyLoop_same Loop.queued (by intro l; rfl) s _
  have hcallback : ∀ loop, ((s.setPoller c.loop p).loops loop).callback = (s.loops loop).callback :=
    modifyLoop_same Loop.callback (by intro l; rfl) s _
  have hphase : ∀ loop, ((s.setPoller c.loop p).loops loop).phase = (s.loops loop).phase :=
    modifyLoop_same Loop.phase (by intro l; rfl) s _
  have hpoller : ((s.setPoller c.loop p).loops c.loop).poller = p :=
    congrArg Loop.poller (loops_modifyLoop_self s c.loop _)
  refine ⟨(s.setPoller c.loop p).setConn fd r.1, ?_, ⟨?_, ?_, ?_⟩, hcallback⟩
  · unfold NetLayer.runHandler
    rw [assertInLoopThread_self, hfollow]
    rfl
  · refine Lives.modifyConn ?_ fun _ => rfl
    refine h.others.modifyLoop (fun hl => ⟨hconsistent, fun j hj => ?_, hl.paused, hl.nodup, hl.orderly⟩)
      fun j hj _ => ⟨fun _ _ => rfl, Iff.rfl, ?_, fun callbacks hmem => ⟨callbacks, hmem, le_rfl⟩⟩
    · have hne : j ≠ fd := by
        rintro rfl
        exact hj (h.others.opened j c h.conn)
      show p.channel j = .new
      rw [hchannel, Function.update_of_ne hne]
      exact hl.unused j hj
    · show p.channel j = _
      rw [hchannel, Function.update_of_ne fun heq => hj (congrArg some heq)]
  · exact conns_modifyConn_self h.conn _
  · refine ⟨?_, ?_, ?_, ?_, hplaced.entry, ?_, ?_, ?_⟩
    · exact (congrArg (List.count _) (hqueued c.loop)).trans hplaced.established
    · exact (congrArg (List.count _) (hqueued 0)).trans hplaced.removal
    · exact (congrArg (List.count _) (hqueued c.loop)).trans hplaced.destruction
    · exact (congrArg (· = some (fd, [.closeCallback])) (hcallback c.loop)).to_iff.trans hplaced.closing
    · refine (congrArg (Poller.channel · fd) hpoller).trans ?_
      rw [hchannel, Function.update_self]
      rfl
    · intro hstate
      obtain ⟨hqueue, hcalls⟩ := hplaced.early (hearly hstate)
      refine ⟨fun loop f hf => hqueue loop f ?_, hcalls⟩
      rw [← hqueued loop]
      exact hf
    · intro loop callbacks hmem
      apply hactive loop callbacks
      rw [← hphase loop]
      exact hmem

end NetLayer
end Chater.Net
