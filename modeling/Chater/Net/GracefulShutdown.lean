import Chater.Net.OutputStream
import Chater.Net.QuietHandlers

/-!
# Shutting down gracefully

One thread sends messages over a connection and then calls `Shutdown`.  `ShutdownWrite` is issued by `ShutdownInLoop`,
which runs behind the messages of the same thread, or by `HandleWrite` when it has emptied the output buffer and finds
`state_` at `kDisconnecting`.  `Shutdown` stores that value before its functor is queued, so `HandleWrite` may come upon
it while messages of another thread still wait in the loop's queue.
-/

namespace Chater.Net

open Base Foundations

set_option autoImplicit false

/-! ## Effects of reading and writing -/

/-- What sending and reading do to the surroundings: the half-close is not among it, and only the user's callbacks are
queued. -/
def Effect.plainIO : Effect → Bool
  | .epollCtl _ | .write _ | .messageCallback => true
  | .queueInLoop .writeComplete | .queueInLoop (.highWaterMark _) => true
  | _ => false

theorem Effect.plainIO_of_output {e : Effect} (h : e.output = true) : e.plainIO = true := by
  cases e with
  | epollCtl | write => rfl
  | queueInLoop f =>
    cases f with
    | writeComplete | highWaterMark => rfl
    | _ => cases h
  | _ => cases h

namespace TcpConnection

theorem sendInLoop_plainIO {c : TcpConnection} {data : List UInt8} {result : WriteResult}
    {r : TcpConnection × List Effect} (hr : c.sendInLoop data result = some r) : ∀ e ∈ r.2, e.plainIO = true :=
  fun e he => Effect.plainIO_of_output (sendInLoop_output hr e he)

theorem handleRead_plainIO {c : TcpConnection} {result : RingBuffer.ReadvResult} {messageCallback : WfBuffer → WfBuffer}
    {r : TcpConnection × List Effect} (hn : result.n ≠ 0) (hr : c.handleRead result messageCallback = some r) :
    r.1.state = c.state ∧ ∀ e ∈ r.2, e.plainIO = true := by
  unfold handleRead at hr
  simp only [if_neg hn] at hr
  split_ifs at hr <;> rw [← Option.some.inj hr]
  · exact ⟨rfl, List.forall_mem_singleton.mpr rfl⟩
  · exact ⟨rfl, List.forall_mem_nil _⟩

/-- `HandleWrite` empties the output buffer. -/
def Drains (c : TcpConnection) (result : WriteResult) : Prop :=
  c.channel.isWriting = true ∧ result = .wrote c.outputBuffer.content.length

instance (c : TcpConnection) (result : WriteResult) : Decidable (c.Drains result) := inferInstanceAs (Decidable (_ ∧ _))

theorem outputDrained_effects (c : TcpConnection) :
    ∃ xs, (∀ e ∈ xs, e.plainIO = true) ∧
      c.outputDrained.2 = if c.state = .kDisconnecting then xs ++ [.shutdownWrite] else xs := by
  refine ⟨.epollCtl c.channel.disableWriting.2 :: queueWriteComplete { c with channel := c.channel.disableWriting.1 },
    List.forall_mem_cons.mpr ⟨rfl, fun e he => Effect.plainIO_of_output (queueWriteComplete_output _ e he)⟩, ?_⟩
  unfold outputDrained
  simp only
  split_ifs with hstate
  · have hidle : shutdownInLoop { c with channel := c.channel.disableWriting.1 } = [.shutdownWrite] := by
      simp [shutdownInLoop]
    rw [hidle]
    rfl
  · rw [List.append_nil]

/-- `HandleWrite` ends with the half-close exactly when it empties the buffer of a connection that is shutting down. -/
theorem handleWrite_cases {c : TcpConnection} (h : c.WritesPending) {result : WriteResult}
    {r : TcpConnection × List Effect} (hr : c.handleWrite result = some r) :
    r.1.state = c.state ∧
      ((∀ e ∈ r.2, e.plainIO = true) ∧ ¬ (c.Drains result ∧ c.state = .kDisconnecting) ∨
        c.Drains result ∧ c.state = .kDisconnecting ∧ r.1.outputBuffer.content = [] ∧
          ∃ xs, r.2 = xs ++ [.shutdownWrite] ∧ ∀ e ∈ xs, e.plainIO = true) := by
  have hretrieve : ∀ {n : ℕ} {buffer : WfBuffer}, c.outputBuffer.retrieve n = some buffer →
      n ≤ c.outputBuffer.content.length ∧ buffer.content = c.outputBuffer.content.drop n := by
    intro n buffer hbuffer
    refine ⟨?_, WfBuffer.retrieve_content hbuffer⟩
    unfold WfBuffer.retrieve at hbuffer
    split_ifs at hbuffer with hle
    exact hle
  cases writeCase_of_handleWrite hr with
  | idle hidle =>
    refine ⟨rfl, .inl ⟨List.forall_mem_nil _, fun hd => ?_⟩⟩
    exact h.mp hd.1.1 (List.length_eq_zero_iff.mp (hidle hd.1.1 _ hd.1.2))
  | @drained n buffer hwriting hresult hbuffer hempty =>
    obtain ⟨hle, hcontent⟩ := hretrieve hbuffer
    have hdrains : c.Drains result := by
      refine ⟨hwriting, hresult.trans (congrArg WriteResult.wrote ?_)⟩
      rw [hempty] at hcontent
      have hlength := congrArg List.length hcontent
      rw [List.length_drop, List.length_nil] at hlength
      omega
    obtain ⟨xs, hxs, heffects⟩ := outputDrained_effects { c with outputBuffer := buffer }
    refine ⟨rfl, ?_⟩
    rw [heffects]
    by_cases hstate : c.state = .kDisconnecting
    · rw [if_pos hstate]
      exact .inr ⟨hdrains, hstate, hempty, _ :: xs, rfl, List.forall_mem_cons.mpr ⟨rfl, hxs⟩⟩
    · rw [if_neg hstate]
      exact .inl ⟨List.forall_mem_cons.mpr ⟨rfl, hxs⟩, fun hd => hstate hd.2⟩
  | @partly n buffer hwriting hresult hbuffer hrest =>
    refine ⟨rfl, .inl ⟨List.forall_mem_singleton.mpr rfl, fun hd => hrest ?_⟩⟩
    rw [(hretrieve hbuffer).2, WriteResult.wrote.inj (hresult.symm.trans hd.1.2), List.drop_length]

end TcpConnection

/-! ## One thread sends and shuts down -/

namespace OutputSystem

variable {T : Type}

/-- The functors that the loop has yet to run. -/
def tasks (s : OutputSystem T) : List (Task T) := s.batch ++ s.pending

/-- An established connection. -/
def established (hasWriteComplete hasHighWaterMark : Bool) (mark : ℕ) : OutputSystem T :=
  let s : OutputSystem T := start hasWriteComplete hasHighWaterMark mark
  { s with conn := { s.conn with state := .kConnected, channel := s.conn.channel.enableReading.1 } }

/-- What may happen: thread `t` sends and shuts down, the loop goes on, and the peer neither closes nor resets. -/
def Graceful (t : T) (s : OutputSystem T) (e : OutputEvent T) : Prop :=
  NoFault s e ∧
    match e with
    | .send u _ _ | .shutdown u | .store u | .push u => u = t
    | .swap | .runFunctor _ | .handleWrite _ => True
    | .handleRead result _ => result.n ≠ 0
    | .forceClose _ | .post _ _ | .establish | .handleClose => False

instance Graceful.decidable [DecidableEq T] (t : T) (s : OutputSystem T) : (e : OutputEvent T) →
    Decidable (Graceful t s e)
  | .send u _ result => inferInstanceAs (Decidable (result.fault = false ∧ u = t))
  | .shutdown u | .store u | .push u => inferInstanceAs (Decidable (True ∧ u = t))
  | .swap => .isTrue ⟨trivial, trivial⟩
  | .runFunctor result | .handleWrite result => inferInstanceAs (Decidable (result.fault = false ∧ True))
  | .handleRead result _ => inferInstanceAs (Decidable (True ∧ result.n ≠ 0))
  | .forceClose _ | .post _ _ | .establish | .handleClose => .isFalse fun h => h.2

/-- The messages that are sent before the first call of `Shutdown`. -/
def sentBefore : List (OutputEvent T) → List (List UInt8)
  | .send _ message _ :: es => message :: sentBefore es
  | .shutdown _ :: _ => []
  | _ :: es => sentBefore es
  | [] => []

/-- Whenever the half-close was issued, `::write` had accepted these messages, and it accepted nothing after that. -/
def Flushed (messages : List (List UInt8)) (effects : List Effect) : Prop :=
  ∀ pre post, effects = pre ++ .shutdownWrite :: post → bytesWritten pre = messages.flatten ∧ bytesWritten post = []

/-- `HandleWrite` does not empty the buffer of a connection in `kDisconnecting` while bytes wait to be sent in the
loop's queue. -/
def QueueEmptyAtDrain (s : OutputSystem T) (e : OutputEvent T) : Prop :=
  ∀ result, e = .handleWrite result → s.conn.Drains result → s.conn.state = .kDisconnecting →
    ((sends s.tasks).map Prod.snd).flatten = []

theorem queueEmptyAtDrain_of_ne {s : OutputSystem T} {e : OutputEvent T} (h : ∀ result, e ≠ .handleWrite result) :
    QueueEmptyAtDrain s e :=
  fun result he => absurd he (h result)

theorem queueEmptyAtDrain_handleWrite {s : OutputSystem T} {result : WriteResult} :
    QueueEmptyAtDrain s (.handleWrite result) ↔
      (s.conn.Drains result → s.conn.state = .kDisconnecting → ((sends s.tasks).map Prod.snd).flatten = []) := by
  constructor
  · intro h
    exact h result rfl
  · intro h result' he
    obtain rfl := OutputEvent.handleWrite.inj he
    exact h

instance QueueEmptyAtDrain.decidable (s : OutputSystem T) : (e : OutputEvent T) → Decidable (QueueEmptyAtDrain s e)
  | .handleWrite _ => decidable_of_iff _ queueEmptyAtDrain_handleWrite.symm
  | .send _ _ _ | .shutdown _ | .forceClose _ | .store _ | .push _ | .post _ _ | .establish | .swap | .runFunctor _
  | .handleRead _ _ | .handleClose => .isTrue (queueEmptyAtDrain_of_ne nofun)

/-! ## What the run keeps -/

end OutputSystem

def Functor.userCallback : Functor → Bool
  | .writeComplete | .highWaterMark _ => true
  | _ => false

/-- A functor that waits for the loop in such a run. -/
def Functor.graceful : Functor → Bool
  | .sendInLoop _ | .shutdownInLoop => true
  | f => f.userCallback

theorem userCallback_of_queued {effects : List Effect} (h : ∀ e ∈ effects, e.plainIO = true) :
    ∀ f ∈ queuedFunctors effects, f.userCallback = true := by
  intro f hf
  obtain ⟨e, he, heq⟩ := List.mem_filterMap.mp hf
  have hplain := h e he
  cases e with
  | queueInLoop g =>
    obtain rfl := Option.some.inj heq
    cases g with
    | writeComplete | highWaterMark => rfl
    | _ => cases hplain
  | _ => cases heq

theorem shutdownWrite_not_mem {effects : List Effect} (h : ∀ e ∈ effects, e.plainIO = true) :
    .shutdownWrite ∉ effects := fun hmem => Bool.noConfusion (h _ hmem)

section OneThread

variable {T : Type} [DecidableEq T] {owner t : T} {ran issued : List (T × List UInt8)} {tasks : List (Task T)}
  {calls : T → Option ForeignCall}

theorem ofThread_eq_self {xs : List (T × List UInt8)} (h : ∀ p ∈ xs, p.1 = t) : ofThread t xs = xs :=
  List.filter_eq_self.mpr fun p hp => decide_eq_true (h p hp)

theorem OrderInv.mine (h : OrderInv owner ran tasks calls issued) (hmine : ∀ p ∈ issued, p.1 = t) :
    ∀ p ∈ ran ++ sends tasks, p.1 = t := by
  intro p hp
  have hmem : p ∈ ofThread p.1 issued := by
    rw [← h.order p.1]
    exact List.mem_append_left _ (List.mem_filter.mpr ⟨hp, decide_eq_true rfl⟩)
  exact hmine p (List.mem_filter.mp hmem).1

/-- One thread has issued everything that ran and everything that is under way. -/
theorem OrderInv.all_of_one (h : OrderInv owner ran tasks calls issued) (hmine : ∀ p ∈ issued, p.1 = t) :
    ran ++ sends tasks ++ callSends t (calls t) = issued := by
  have horder := h.order t
  rwa [ofThread_eq_self (h.mine hmine), ofThread_eq_self hmine] at horder

theorem OrderInv.sends_of_owner (h : OrderInv owner ran tasks calls issued) (hmine : ∀ p ∈ issued, p.1 = owner) :
    sends tasks = [] := by
  have hdirect := h.owner_direct
  rwa [ofThread_eq_self fun p hp => h.mine hmine p (List.mem_append_right _ hp)] at hdirect

end OneThread

namespace OutputSystem

section Course

variable {T : Type} {owner t : T} {s s' : OutputSystem T}

structure Sending (t : T) (s : OutputSystem T) : Prop where
  unclosed : .shutdownWrite ∉ s.effects
  none_queued : ∀ task ∈ s.tasks, task.functor ≠ .shutdownInLoop
  calls : ∀ call, s.calls t = some call → call = ⟨true, .shutdownInLoop⟩ ∨ ∃ message, call = ⟨false, .sendInLoop message⟩

/-- How far the thread has come: it sends, or `Shutdown` has stored `kDisconnecting`. -/
inductive Stage (t : T) (s : OutputSystem T) : Prop
  | sending (hstate : s.conn.state = .kConnected) (hsending : Sending t s)
  | ending (hstate : s.conn.state = .kDisconnecting)
      (hcalls : s.calls t = none ∨ s.calls t = some ⟨false, .shutdownInLoop⟩)

structure Course (t : T) (s : OutputSystem T) : Prop where
  isOpen : s.closed = false
  mine : ∀ p ∈ s.issued, p.1 = t
  kinds : ∀ task ∈ s.tasks, task.functor.graceful = true
  ordered : s.tasks.Pairwise fun a b => a.functor = .shutdownInLoop → b.functor.isSend = false
  stage : Stage t s

theorem Course.state (h : Course t s) : s.conn.state = .kConnected ∨ s.conn.state = .kDisconnecting := by
  cases h.stage with
  | sending hstate => exact .inl hstate
  | ending hstate => exact .inr hstate

theorem tasks_finish (s : OutputSystem T) (r : TcpConnection × List Effect) :
    (s.finish owner r).tasks = s.tasks ++ (queuedFunctors r.2).map fun f => ⟨owner, f⟩ :=
  (List.append_assoc ..).symm

theorem Course.finish (owner : T) (h : Course t s) {r : TcpConnection × List Effect} (hstate : r.1.state = s.conn.state)
    (hqueued : ∀ f ∈ queuedFunctors r.2, f.userCallback = true)
    (hclose : s.conn.state = .kConnected → .shutdownWrite ∉ r.2) : Course t (s.finish owner r) := by
  have hnew : ∀ task ∈ (queuedFunctors r.2).map fun f => (⟨owner, f⟩ : Task T), task.functor.userCallback = true := by
    intro task htask
    obtain ⟨f, hf, rfl⟩ := List.mem_map.mp htask
    exact hqueued f hf
  have hsend : ∀ {f : Functor}, f.userCallback = true → f.isSend = false ∧ f.graceful = true ∧ f ≠ .shutdownInLoop := by
    intro f hf
    cases f with
    | writeComplete | highWaterMark => exact ⟨rfl, rfl, nofun⟩
    | _ => cases hf
  refine ⟨?_, h.mine, ?_, ?_, ?_⟩
  · show (s.closed || decide (r.1.state = .kDisconnected)) = false
    rw [h.isOpen, hstate]
    obtain hs | hs := h.state <;> rw [hs] <;> rfl
  · rw [tasks_finish]
    exact List.forall_mem_append.mpr ⟨h.kinds, fun task htask => (hsend (hnew task htask)).2.1⟩
  · rw [tasks_finish, List.pairwise_append]
    refine ⟨h.ordered, ?_, fun a _ b hb _ => (hsend (hnew b hb)).1⟩
    exact List.pairwise_of_forall_mem_list fun a _ b hb _ => (hsend (hnew b hb)).1
  · cases h.stage with
    | sending hs hsending =>
      refine .sending (hstate.trans hs) ⟨?_, ?_, hsending.calls⟩
      · exact fun hmem => (List.mem_append.mp hmem).elim hsending.unclosed (hclose hs)
      · rw [tasks_finish]
        exact List.forall_mem_append.mpr ⟨hsending.none_queued, fun task htask => (hsend (hnew task htask)).2.2⟩
    | ending hs hcalls => exact .ending (hstate.trans hs) hcalls

theorem Course.pop (h : Course t s) {task : Task T} {rest : List (Task T)} (hbatch : s.batch = task :: rest) :
    Course t { s with batch := rest } := by
  have htasks : s.tasks = task :: ({ s with batch := rest } : OutputSystem T).tasks := by
    rw [tasks, hbatch]
    rfl
  have hkinds := h.kinds
  have hordered := h.ordered
  rw [htasks] at hkinds hordered
  refine ⟨h.isOpen, h.mine, (List.forall_mem_cons.mp hkinds).2, (List.pairwise_cons.mp hordered).2, ?_⟩
  cases h.stage with
  | sending hs hsending =>
    have hnone := hsending.none_queued
    rw [htasks] at hnone
    exact .sending hs ⟨hsending.unclosed, (List.forall_mem_cons.mp hnone).2, hsending.calls⟩
  | ending hs hcalls => exact .ending hs hcalls

theorem sends_eq_nil {tasks : List (Task T)} (h : ∀ task ∈ tasks, task.functor.isSend = false) : sends tasks = [] := by
  refine List.filterMap_eq_nil_iff.mpr fun task htask => ?_
  have hsend := h task htask
  obtain ⟨u, f⟩ := task
  cases f with
  | sendInLoop message => cases hsend
  | _ => rfl

/-! ## What a step does -/

/-- What a step adds to the effects: no half-close, or one at the end with the output buffer empty behind it. -/
inductive Closing (s s' : OutputSystem T) (safe : Prop) : Prop
  | unclosed (new : List Effect) (heffects : s'.effects = s.effects ++ new) (hnone : .shutdownWrite ∉ new)
      (hissued : s.conn.state = .kDisconnecting → s'.issued = s.issued) (hsafe : safe)
  | closed (new : List Effect) (heffects : s'.effects = s.effects ++ (new ++ [.shutdownWrite]))
      (hnone : .shutdownWrite ∉ new) (hissued : s'.issued = s.issued) (hstate : s'.conn.state = .kDisconnecting)
      (hempty : s'.conn.outputBuffer.content = []) (hsafe : safe ↔ ((sends s'.tasks).map Prod.snd).flatten = [])

theorem Closing.same {safe : Prop} (hsafe : safe) (heffects : s'.effects = s.effects)
    (hissued : s.conn.state = .kDisconnecting → s'.issued = s.issued) : Closing s s' safe :=
  .unclosed [] (heffects.trans (List.append_nil _).symm) List.not_mem_nil hissued hsafe

theorem content_of_not_writing {c : TcpConnection} (h : c.WritesPending) (hidle : c.channel.isWriting = false) :
    c.outputBuffer.content = [] := by
  by_contra hne
  rw [h.mpr hne] at hidle
  cases hidle

/-- `ShutdownInLoop` when nothing is left to be sent. -/
theorem Closing.shutdownInLoop {safe : Prop} (hsafe : safe) (hwriting : s.conn.WritesPending)
    (heffects : s'.effects = s.effects ++ s.conn.shutdownInLoop) (hissued : s'.issued = s.issued)
    (hbuffer : s'.conn.outputBuffer = s.conn.outputBuffer) (hstate : s'.conn.state = .kDisconnecting)
    (hsends : sends s'.tasks = []) : Closing s s' safe := by
  unfold TcpConnection.shutdownInLoop at heffects
  split_ifs at heffects with hbusy
  · exact .unclosed [] heffects List.not_mem_nil (fun _ => hissued) hsafe
  · refine .closed [] heffects List.not_mem_nil hissued hstate ?_ (iff_of_true hsafe ?_)
    · rw [hbuffer]
      exact content_of_not_writing hwriting (Bool.eq_false_iff.mpr hbusy)
    · rw [hsends]
      rfl

theorem queuedFunctors_shutdownInLoop (c : TcpConnection) : queuedFunctors c.shutdownInLoop = [] := by
  unfold TcpConnection.shutdownInLoop
  split <;> rfl

end Course

section Steps

variable {T : Type} [DecidableEq T] {owner t : T} {s s' : OutputSystem T}

structure Shutting (owner t : T) (s : OutputSystem T) : Prop where
  live : Live owner s
  course : Course t s

theorem Shutting.send (h : Shutting owner t s) {message : List UInt8} {result : WriteResult}
    (hs' : s.step owner (.send t message result) = some s') :
    Course t s' ∧ Closing s s' (QueueEmptyAtDrain s (.send t message result)) := by
  have hsafe : QueueEmptyAtDrain s (.send t message result) := queueEmptyAtDrain_of_ne nofun
  have hmine : ∀ p ∈ s.issued ++ [(t, message)], p.1 = t :=
    List.forall_mem_append.mpr ⟨h.course.mine, List.forall_mem_singleton.mpr rfl⟩
  simp only [step] at hs'
  split_ifs at hs' with hconnected ht
  · obtain rfl := Option.some.inj hs'
    exact ⟨h.course, .same hsafe rfl fun _ => rfl⟩
  · obtain ⟨r, hr, rfl⟩ := Option.map_eq_some_iff.mp hs'
    have hplain := TcpConnection.sendInLoop_plainIO hr
    have hcourse := h.course.finish owner (TcpConnection.sendInLoop_quietly hr).state
      (userCallback_of_queued hplain) fun _ => shutdownWrite_not_mem hplain
    refine ⟨⟨hcourse.isOpen, hmine, hcourse.kinds, hcourse.ordered, ?_⟩, ?_⟩
    · cases hcourse.stage with
      | sending hs hsending => exact .sending hs ⟨hsending.unclosed, hsending.none_queued, hsending.calls⟩
      | ending hs hcalls => exact .ending hs hcalls
    · refine .unclosed r.2 rfl (shutdownWrite_not_mem hplain) (fun hstate => absurd hstate ?_) hsafe
      rw [not_not.mp hconnected]
      decide
  · obtain ⟨m, hm, rfl⟩ := Option.map_eq_some_iff.mp hs'
    obtain ⟨hidle, rfl⟩ := begin_spec hm
    have hstate := not_not.mp hconnected
    refine ⟨⟨h.course.isOpen, hmine, h.course.kinds, h.course.ordered, ?_⟩, .same hsafe rfl fun hs => ?_⟩
    · cases h.course.stage with
      | sending hs hsending =>
        refine .sending hs ⟨hsending.unclosed, hsending.none_queued, fun call hcall => .inr ⟨message, ?_⟩⟩
        replace hcall : Function.update s.calls t (some ⟨false, .sendInLoop message⟩) t = some call := hcall
        rw [Function.update_self] at hcall
        exact (Option.some.inj hcall).symm
      | ending hs =>
        rw [hstate] at hs
        cases hs
    · rw [hstate] at hs
      cases hs

theorem Shutting.shutdown (h : Shutting owner t s) (hs' : s.step owner (.shutdown t) = some s') :
    Course t s' ∧ Closing s s' (QueueEmptyAtDrain s (.shutdown t)) := by
  have hsafe : QueueEmptyAtDrain s (.shutdown t) := queueEmptyAtDrain_of_ne nofun
  simp only [step] at hs'
  split_ifs at hs' with hconnected ht
  · obtain rfl := Option.some.inj hs'
    exact ⟨h.course, .same hsafe rfl fun _ => rfl⟩
  · subst ht
    obtain rfl := Option.some.inj hs'
    have hstate : (s.finish t (s.conn.shutdown.1, s.conn.shutdownInLoop)).conn.state = .kDisconnecting := by
      show s.conn.shutdown.1.state = .kDisconnecting
      rw [TcpConnection.shutdown, if_pos (not_not.mp hconnected)]
    have hbuffer : s.conn.shutdown.1.outputBuffer = s.conn.outputBuffer := by
      rw [TcpConnection.shutdown, if_pos (not_not.mp hconnected)]
    have htasks : (s.finish t (s.conn.shutdown.1, s.conn.shutdownInLoop)).tasks = s.tasks := by
      rw [tasks_finish, queuedFunctors_shutdownInLoop]
      exact List.append_nil _
    -- the loop's own thread has nothing in the queue
    have hsends : sends s.tasks = [] := h.live.order.sends_of_owner h.course.mine
    refine ⟨⟨?_, h.course.mine, ?_, ?_, ?_⟩, ?_⟩
    · show (s.closed || decide (s.conn.shutdown.1.state = .kDisconnected)) = false
      rw [h.course.isOpen, show s.conn.shutdown.1.state = .kDisconnecting from hstate]
      rfl
    · rw [htasks]
      exact h.course.kinds
    · rw [htasks]
      exact h.course.ordered
    · exact .ending hstate (.inl h.live.order.owner_idle)
    · exact .shutdownInLoop hsafe h.live.stream.writing rfl rfl hbuffer hstate (by rw [htasks, hsends])
  · obtain ⟨hidle, rfl⟩ := begin_spec hs'
    refine ⟨⟨h.course.isOpen, h.course.mine, h.course.kinds, h.course.ordered, ?_⟩, .same hsafe rfl fun _ => rfl⟩
    cases h.course.stage with
    | sending hs hsending =>
      refine .sending hs ⟨hsending.unclosed, hsending.none_queued, fun call hcall => .inl ?_⟩
      replace hcall : Function.update s.calls t (some ⟨true, .shutdownInLoop⟩) t = some call := hcall
      rw [Function.update_self] at hcall
      exact (Option.some.inj hcall).symm
    | ending hs => exact absurd (not_not.mp hconnected) (by rw [hs]; decide)

theorem Shutting.store (h : Shutting owner t s) (hs' : s.step owner (.store t) = some s') :
    Course t s' ∧ Closing s s' (QueueEmptyAtDrain s (.store t)) := by
  simp only [step] at hs'
  split at hs'
  case h_2 => cases hs'
  case h_1 f hcall =>
    obtain rfl := Option.some.inj hs'
    refine ⟨⟨h.course.isOpen, h.course.mine, h.course.kinds, h.course.ordered, ?_⟩,
      .same (queueEmptyAtDrain_of_ne nofun) rfl fun _ => rfl⟩
    refine .ending rfl (.inr ?_)
    show Function.update s.calls t (some ⟨false, f⟩) t = some ⟨false, .shutdownInLoop⟩
    rw [Function.update_self]
    cases h.course.stage with
    | sending _ hsending =>
      rcases hsending.calls _ hcall with heq | ⟨message, heq⟩
      · rw [(ForeignCall.mk.inj heq).2]
      · cases (ForeignCall.mk.inj heq).1
    | ending _ hcalls =>
      rw [hcall] at hcalls
      rcases hcalls with heq | heq
      · cases heq
      · cases (ForeignCall.mk.inj (Option.some.inj heq)).1

theorem Shutting.push (h : Shutting owner t s) (hs' : s.step owner (.push t) = some s') :
    Course t s' ∧ Closing s s' (QueueEmptyAtDrain s (.push t)) := by
  simp only [step] at hs'
  split at hs'
  case h_2 => cases hs'
  case h_1 f hcall =>
    obtain rfl := Option.some.inj hs'
    have htasks : ({ s with pending := s.pending ++ [⟨t, f⟩], calls := Function.update s.calls t none } :
        OutputSystem T).tasks = s.tasks ++ [⟨t, f⟩] := (List.append_assoc ..).symm
    have hnone : Function.update s.calls t none t = none := Function.update_self ..
    have hclosing : Closing s { s with pending := s.pending ++ [⟨t, f⟩], calls := Function.update s.calls t none }
        (QueueEmptyAtDrain s (.push t)) := .same (queueEmptyAtDrain_of_ne nofun) rfl fun _ => rfl
    cases h.course.stage with
    | sending hs hsending =>
      obtain ⟨message, rfl⟩ : ∃ message, f = .sendInLoop message := by
        rcases hsending.calls _ hcall with heq | ⟨message, heq⟩
        · cases (ForeignCall.mk.inj heq).1
        · exact ⟨message, (ForeignCall.mk.inj heq).2⟩
      refine ⟨⟨h.course.isOpen, h.course.mine, ?_, ?_, .sending hs ⟨hsending.unclosed, ?_, ?_⟩⟩, hclosing⟩
      · rw [htasks]
        exact List.forall_mem_append.mpr ⟨h.course.kinds, List.forall_mem_singleton.mpr rfl⟩
      · rw [htasks, List.pairwise_append]
        refine ⟨h.course.ordered, List.pairwise_singleton _ _, fun a ha _ _ hlast => ?_⟩
        exact absurd hlast (hsending.none_queued a ha)
      · rw [htasks]
        exact List.forall_mem_append.mpr ⟨hsending.none_queued, List.forall_mem_singleton.mpr (by simp)⟩
      · intro call hcall'
        cases hnone.symm.trans hcall'
    | ending hs hcalls =>
      obtain rfl : f = .shutdownInLoop := by
        rw [hcall] at hcalls
        rcases hcalls with heq | heq
        · cases heq
        · exact (ForeignCall.mk.inj (Option.some.inj heq)).2
      refine ⟨⟨h.course.isOpen, h.course.mine, ?_, ?_, .ending hs (.inl hnone)⟩, hclosing⟩
      · rw [htasks]
        exact List.forall_mem_append.mpr ⟨h.course.kinds, List.forall_mem_singleton.mpr rfl⟩
      · rw [htasks, List.pairwise_append]
        refine ⟨h.course.ordered, List.pairwise_singleton _ _, fun _ _ b hb _ => ?_⟩
        rw [List.mem_singleton.mp hb]
        rfl

theorem Shutting.runFunctor (h : Shutting owner t s) {result : WriteResult}
    (hs' : s.step owner (.runFunctor result) = some s') :
    Course t s' ∧ Closing s s' (QueueEmptyAtDrain s (.runFunctor result)) := by
  have hsafe : QueueEmptyAtDrain s (.runFunctor result) := queueEmptyAtDrain_of_ne nofun
  simp only [step] at hs'
  split at hs'
  · cases hs'
  · rename_i task rest hbatch
    obtain ⟨u, f⟩ := task
    have hpopped := h.course.pop hbatch
    have htasks : s.tasks = ⟨u, f⟩ :: ({ s with batch := rest } : OutputSystem T).tasks := by
      rw [tasks, hbatch]
      rfl
    have hkinds := h.course.kinds
    rw [htasks] at hkinds
    have hkind : f.graceful = true := (List.forall_mem_cons.mp hkinds).1
    cases f with
    | sendInLoop message =>
      obtain ⟨r, hr, rfl⟩ := Option.map_eq_some_iff.mp hs'
      have hplain := TcpConnection.sendInLoop_plainIO hr
      have hcourse := hpopped.finish owner (TcpConnection.sendInLoop_quietly hr).state
        (userCallback_of_queued hplain) fun _ => shutdownWrite_not_mem hplain
      refine ⟨⟨hcourse.isOpen, hcourse.mine, hcourse.kinds, hcourse.ordered, ?_⟩, ?_⟩
      · cases hcourse.stage with
        | sending hs hsending => exact .sending hs ⟨hsending.unclosed, hsending.none_queued, hsending.calls⟩
        | ending hs hcalls => exact .ending hs hcalls
      · exact .unclosed r.2 rfl (shutdownWrite_not_mem hplain) (fun _ => rfl) hsafe
    | shutdownInLoop =>
      obtain rfl := Option.some.inj hs'
      have hstate : s.conn.state = .kDisconnecting := by
        cases h.course.stage with
        | sending _ hsending =>
          have hnone := hsending.none_queued
          rw [htasks] at hnone
          exact absurd rfl (List.forall_mem_cons.mp hnone).1
        | ending hs => exact hs
      have hqueued := queuedFunctors_shutdownInLoop s.conn
      have hordered := h.course.ordered
      rw [htasks] at hordered
      have hsends := sends_eq_nil fun b hb => (List.pairwise_cons.mp hordered).1 b hb rfl
      refine ⟨hpopped.finish owner rfl ?_ fun hs => ?_, ?_⟩
      · intro g hg
        replace hg : g ∈ queuedFunctors s.conn.shutdownInLoop := hg
        rw [hqueued] at hg
        cases hg
      · exact absurd (hs.symm.trans hstate) (by decide)
      · refine .shutdownInLoop hsafe h.live.stream.writing rfl rfl rfl hstate ?_
        rw [tasks_finish, sends_append, hsends]
        show sends ((queuedFunctors s.conn.shutdownInLoop).map _) = []
        rw [hqueued]
        rfl
    | forceCloseInLoop | connectEstablished | connectDestroyed => cases hkind
    | writeComplete =>
      obtain rfl := Option.some.inj hs'
      exact ⟨hpopped, .same hsafe rfl fun _ => rfl⟩
    | highWaterMark size =>
      obtain rfl := Option.some.inj hs'
      exact ⟨hpopped, .same hsafe rfl fun _ => rfl⟩

theorem Shutting.handleWrite (h : Shutting owner t s) {result : WriteResult}
    (hs' : s.step owner (.handleWrite result) = some s') :
    Course t s' ∧ Closing s s' (QueueEmptyAtDrain s (.handleWrite result)) := by
  obtain ⟨r, hr, rfl⟩ := Option.map_eq_some_iff.mp hs'
  obtain ⟨hstate, ⟨hplain, hnot⟩ | ⟨hdrains, hdown, hempty, xs, heffects, hplain⟩⟩ :=
    TcpConnection.handleWrite_cases h.live.stream.writing hr
  · refine ⟨h.course.finish owner hstate (userCallback_of_queued hplain) fun _ => shutdownWrite_not_mem hplain, ?_⟩
    refine .unclosed r.2 rfl (shutdownWrite_not_mem hplain) (fun _ => rfl) (queueEmptyAtDrain_handleWrite.mpr ?_)
    intro hdrains hdown
    exact absurd ⟨hdrains, hdown⟩ hnot
  · have hqueued : queuedFunctors r.2 = queuedFunctors xs := by
      rw [heffects, queuedFunctors, List.filterMap_append]
      exact List.append_nil _
    have hcallbacks := userCallback_of_queued hplain
    have hnew : sends ((queuedFunctors xs).map fun f => (⟨owner, f⟩ : Task T)) = [] := by
      refine sends_eq_nil fun task htask => ?_
      obtain ⟨f, hf, rfl⟩ := List.mem_map.mp htask
      have hcallback := hcallbacks f hf
      cases f with
      | sendInLoop => cases hcallback
      | _ => rfl
    have hsends : sends (s.finish owner r).tasks = sends s.tasks := by
      rw [tasks_finish, sends_append, hqueued, hnew, List.append_nil]
    constructor
    · exact h.course.finish owner hstate (by rwa [hqueued]) fun hs => absurd (hs.symm.trans hdown) (by decide)
    · refine .closed xs (by rw [← heffects]; rfl) (shutdownWrite_not_mem hplain) rfl (hstate.trans hdown) hempty ?_
      rw [hsends, queueEmptyAtDrain_handleWrite]
      exact ⟨fun hsafe => hsafe hdrains hdown, fun hnil _ _ => hnil⟩

theorem Shutting.advance (h : Shutting owner t s) {e : OutputEvent T} (he : Graceful t s e)
    (hs' : s.step owner e = some s') : Shutting owner t s' ∧ Closing s s' (QueueEmptyAtDrain s e) := by
  have hlive : Course t s' → Shutting owner t s' := fun hcourse =>
    ⟨liveWhileOpen_step (fun _ => h.live) he.1 hs' hcourse.isOpen, hcourse⟩
  have hsuffices : Course t s' ∧ Closing s s' (QueueEmptyAtDrain s e) := by
    obtain ⟨-, hevent⟩ := he
    cases e with
    | send u message result =>
      obtain rfl : u = t := hevent
      exact h.send hs'
    | shutdown u =>
      obtain rfl : u = t := hevent
      exact h.shutdown hs'
    | store u =>
      obtain rfl : u = t := hevent
      exact h.store hs'
    | push u =>
      obtain rfl : u = t := hevent
      exact h.push hs'
    | swap =>
      simp only [step] at hs'
      split_ifs at hs' with hempty
      obtain rfl := Option.some.inj hs'
      have htasks : ({ s with batch := s.pending, pending := [] } : OutputSystem T).tasks = s.tasks := by
        rw [tasks, tasks, List.isEmpty_iff.mp hempty]
        exact List.append_nil _
      refine ⟨⟨h.course.isOpen, h.course.mine, ?_, ?_, ?_⟩, .same (queueEmptyAtDrain_of_ne nofun) rfl fun _ => rfl⟩
      · rw [htasks]
        exact h.course.kinds
      · rw [htasks]
        exact h.course.ordered
      · cases h.course.stage with
        | sending hs hsending =>
          refine .sending hs ⟨hsending.unclosed, ?_, hsending.calls⟩
          rw [htasks]
          exact hsending.none_queued
        | ending hs hcalls => exact .ending hs hcalls
    | runFunctor result => exact h.runFunctor hs'
    | handleRead result messageCallback =>
      obtain ⟨r, hr, rfl⟩ := Option.map_eq_some_iff.mp hs'
      obtain ⟨hstate, hplain⟩ := TcpConnection.handleRead_plainIO hevent hr
      refine ⟨h.course.finish owner hstate (userCallback_of_queued hplain) fun _ => shutdownWrite_not_mem hplain, ?_⟩
      exact .unclosed r.2 rfl (shutdownWrite_not_mem hplain) (fun _ => rfl) (queueEmptyAtDrain_of_ne nofun)
    | handleWrite result => exact h.handleWrite hs'
    | forceClose | post | establish | handleClose => exact hevent.elim
  exact ⟨hlive hsuffices.1, hsuffices.2⟩

end Steps

/-! ## Where the half-close stands

`issued` no longer grows once `Shutdown` has stored `kDisconnecting`, so what had been written when the half-close was
issued can be compared with it at any later time. -/

section Runs

variable {T : Type} [DecidableEq T] {owner t : T} {s s' : OutputSystem T}

def issuedBytes (s : OutputSystem T) : List UInt8 := (s.issued.map Prod.snd).flatten

/-- Every byte issued has been written, is buffered, waits in the queue or belongs to the call under way. -/
theorem Shutting.total (h : Shutting owner t s) :
    s.issuedBytes = bytesWritten s.effects ++ (s.conn.outputBuffer.content ++
      (((sends s.tasks).map Prod.snd).flatten ++ ((callSends t (s.calls t)).map Prod.snd).flatten)) := by
  have hall : s.ran ++ sends s.tasks ++ callSends t (s.calls t) = s.issued := h.live.order.all_of_one h.course.mine
  rw [issuedBytes, ← hall, List.map_append, List.map_append, List.flatten_append, List.flatten_append,
    ← h.live.stream.stream]
  simp only [List.append_assoc]

theorem Shutting.state_of_closed (h : Shutting owner t s) (hmem : .shutdownWrite ∈ s.effects) :
    s.conn.state = .kDisconnecting := by
  cases h.course.stage with
  | sending _ hsending => exact absurd hmem hsending.unclosed
  | ending hs => exact hs

theorem Shutting.callSends_of_ending (h : Shutting owner t s) (hstate : s.conn.state = .kDisconnecting) :
    callSends t (s.calls t) = [] := by
  cases h.course.stage with
  | sending hs => exact absurd (hs.symm.trans hstate) (by decide)
  | ending _ hcalls => rcases hcalls with hcall | hcall <;> rw [hcall] <;> rfl

/-- Behind the half-close nothing is left to be written when everything issued was written before it. -/
theorem Shutting.flushed (h : Shutting owner t s)
    (hpre : ∀ pre post, s.effects = pre ++ .shutdownWrite :: post → bytesWritten pre = s.issuedBytes) :
    Flushed (s.issued.map Prod.snd) s.effects := by
  intro pre post hsplit
  refine ⟨hpre pre post hsplit, ?_⟩
  have htotal := h.total
  rw [hsplit, bytesWritten_append, hpre pre post hsplit, List.append_assoc] at htotal
  have hpost : bytesWritten (.shutdownWrite :: post) = bytesWritten post := rfl
  rw [hpost] at htotal
  exact (List.append_eq_nil_iff.mp (List.self_eq_append_right.mp htotal)).1

/-- The half-close stands among the effects before the step, unless the step issued it. -/
theorem split_of_append {effects new pre post : List Effect} (hnone : .shutdownWrite ∉ new)
    (h : effects ++ new = pre ++ .shutdownWrite :: post) : ∃ rest, effects = pre ++ .shutdownWrite :: rest := by
  rcases List.append_eq_append_iff.mp h with ⟨mid, -, hnew⟩ | ⟨mid, hpre, hpost⟩
  · exact absurd (hnew ▸ List.mem_append_right _ List.mem_cons_self) hnone
  · cases mid with
    | nil => exact absurd (hpost ▸ List.mem_cons_self : Effect.shutdownWrite ∈ [] ++ new) hnone
    | cons x rest =>
      rw [(List.cons.inj hpost).1]
      exact ⟨rest, hpre⟩

structure Clean (owner t : T) (s : OutputSystem T) : Prop where
  shutting : Shutting owner t s
  flushed : Flushed (s.issued.map Prod.snd) s.effects

/-- The half-close was issued too early. -/
structure Early (owner t : T) (s : OutputSystem T) : Prop where
  shutting : Shutting owner t s
  early : ∃ pre post, s.effects = pre ++ .shutdownWrite :: post ∧ bytesWritten pre ≠ s.issuedBytes

theorem Early.not_flushed (h : Early owner t s) : ¬ Flushed (s.issued.map Prod.snd) s.effects := by
  obtain ⟨pre, post, hsplit, hne⟩ := h.early
  exact fun hflushed => hne (hflushed pre post hsplit).1

theorem Early.advance (h : Early owner t s) {e : OutputEvent T} (he : Graceful t s e)
    (hs' : s.step owner e = some s') : Early owner t s' := by
  obtain ⟨hshutting, hclosing⟩ := h.shutting.advance he hs'
  obtain ⟨pre, post, hsplit, hne⟩ := h.early
  have hstate := h.shutting.state_of_closed (hsplit ▸ List.mem_append_right _ List.mem_cons_self)
  have hlater : ∀ more, s'.effects = s.effects ++ more → s'.issued = s.issued → Early owner t s' := by
    intro more hmore hissued
    refine ⟨hshutting, pre, post ++ more, ?_, ?_⟩
    · rw [hmore, hsplit, List.append_assoc, List.cons_append]
    · rw [issuedBytes, hissued]
      exact hne
  cases hclosing with
  | unclosed new heffects _ hissued => exact hlater new heffects (hissued hstate)
  | closed new heffects _ hissued => exact hlater _ heffects hissued

theorem Shutting.total_of_closed (h : Shutting owner t s) (hstate : s.conn.state = .kDisconnecting)
    (hempty : s.conn.outputBuffer.content = []) :
    s.issuedBytes = bytesWritten s.effects ++ ((sends s.tasks).map Prod.snd).flatten := by
  rw [h.total, hempty, h.callSends_of_ending hstate]
  simp

theorem bytesWritten_closed (effects new : List Effect) :
    bytesWritten (effects ++ (new ++ [.shutdownWrite])) = bytesWritten (effects ++ new) := by
  rw [← List.append_assoc, bytesWritten_append]
  exact List.append_nil _

theorem Clean.advance (h : Clean owner t s) {e : OutputEvent T} (he : Graceful t s e)
    (hsafe : QueueEmptyAtDrain s e) (hs' : s.step owner e = some s') : Clean owner t s' := by
  obtain ⟨hshutting, hclosing⟩ := h.shutting.advance he hs'
  -- what was written before an earlier half-close was everything issued, and still is
  have hold : ∀ pre rest, s.effects = pre ++ .shutdownWrite :: rest →
      (s.conn.state = .kDisconnecting → s'.issued = s.issued) → bytesWritten pre = s'.issuedBytes := by
    intro pre rest hsplit hissued
    have hmem : .shutdownWrite ∈ s.effects := hsplit ▸ List.mem_append_right _ List.mem_cons_self
    rw [issuedBytes, hissued (h.shutting.state_of_closed hmem)]
    exact (h.flushed pre rest hsplit).1
  refine ⟨hshutting, hshutting.flushed fun pre post hsplit => ?_⟩
  cases hclosing with
  | unclosed new heffects hnone hissued =>
    obtain ⟨rest, hrest⟩ := split_of_append hnone (heffects.symm.trans hsplit)
    exact hold pre rest hrest hissued
  | closed new heffects hnone hissued hstate hempty hiff =>
    cases post with
    | nil =>
      rw [heffects, ← List.append_assoc] at hsplit
      have hpre := (List.append_inj' hsplit rfl).1
      rw [hshutting.total_of_closed hstate hempty, hiff.mp hsafe, heffects, bytesWritten_closed, ← hpre, List.append_nil]
    | cons x xs =>
      -- the half-close of this step is the last effect, so the one at hand is older
      rw [heffects, ← List.append_assoc, ← List.dropLast_append_getLast (List.cons_ne_nil x xs), ← List.cons_append,
        ← List.append_assoc] at hsplit
      obtain ⟨rest, hrest⟩ := split_of_append hnone (List.append_inj' hsplit rfl).1
      exact hold pre rest hrest fun _ => hissued

theorem Clean.early (h : Clean owner t s) {e : OutputEvent T} (he : Graceful t s e)
    (hovertaken : ¬ QueueEmptyAtDrain s e) (hs' : s.step owner e = some s') : Early owner t s' := by
  obtain ⟨hshutting, hclosing⟩ := h.shutting.advance he hs'
  refine ⟨hshutting, ?_⟩
  cases hclosing with
  | unclosed new _ _ _ hsafe => exact absurd hsafe hovertaken
  | closed new heffects _ _ hstate hempty hiff =>
    refine ⟨s.effects ++ new, [], by rw [heffects, List.append_assoc], ?_⟩
    rw [hshutting.total_of_closed hstate hempty, heffects, bytesWritten_closed]
    exact fun heq => hovertaken (hiff.mpr (List.self_eq_append_right.mp heq))

/-! ## The messages sent before `Shutdown` -/

/-- `Shutdown` has been called and has found the connection open. -/
def Begun (t : T) (s : OutputSystem T) : Prop :=
  s.conn.state = .kDisconnecting ∨ s.calls t = some ⟨true, .shutdownInLoop⟩

/-- The steps that the loop takes by itself. -/
def ofLoop : OutputEvent T → Bool
  | .swap | .runFunctor _ | .handleRead _ _ | .handleWrite _ => true
  | _ => false

/-- The loop neither issues messages nor takes part in the calls of other threads. -/
theorem Shutting.loop_keeps (h : Shutting owner t s) {e : OutputEvent T} (hloop : ofLoop e = true)
    (he : Graceful t s e) (hs' : s.step owner e = some s') :
    s'.conn.state = s.conn.state ∧ s'.calls = s.calls ∧ s'.issued = s.issued := by
  obtain ⟨-, hevent⟩ := he
  cases e with
  | swap =>
    simp only [step] at hs'
    split_ifs at hs'
    obtain rfl := Option.some.inj hs'
    exact ⟨rfl, rfl, rfl⟩
  | runFunctor result =>
    simp only [step] at hs'
    split at hs'
    · cases hs'
    · rename_i task rest hbatch
      have hkind := h.course.kinds task (by rw [tasks, hbatch]; exact List.mem_append_left _ List.mem_cons_self)
      obtain ⟨u, f⟩ := task
      cases f with
      | sendInLoop message =>
        obtain ⟨r, hr, rfl⟩ := Option.map_eq_some_iff.mp hs'
        exact ⟨(TcpConnection.sendInLoop_quietly hr).state, rfl, rfl⟩
      | forceCloseInLoop | connectEstablished | connectDestroyed => cases hkind
      | shutdownInLoop | writeComplete | highWaterMark =>
        obtain rfl := Option.some.inj hs'
        exact ⟨rfl, rfl, rfl⟩
  | handleRead result messageCallback =>
    obtain ⟨r, hr, rfl⟩ := Option.map_eq_some_iff.mp hs'
    exact ⟨(TcpConnection.handleRead_plainIO hevent hr).1, rfl, rfl⟩
  | handleWrite result =>
    obtain ⟨r, hr, rfl⟩ := Option.map_eq_some_iff.mp hs'
    exact ⟨(TcpConnection.handleWrite_cases h.live.stream.writing hr).1, rfl, rfl⟩
  | _ => cases hloop

/-- A call under way keeps its thread from another. -/
theorem not_begin {call pending : ForeignCall} (hcall : s.calls t = some pending) (hbegin : s.begin t call = some s') :
    False := by
  have hidle := (begin_spec hbegin).1
  rw [hcall] at hidle
  cases hidle

theorem Shutting.begun_step (h : Shutting owner t s) (hbegun : Begun t s) {e : OutputEvent T} (he : Graceful t s e)
    (hs' : s.step owner e = some s') : Begun t s' ∧ s'.issued = s.issued := by
  have hkeeps : ofLoop e = true → Begun t s' ∧ s'.issued = s.issued := by
    intro hloop
    obtain ⟨hstate, hcalls, hissued⟩ := h.loop_keeps hloop he hs'
    refine ⟨?_, hissued⟩
    rwa [Begun, hstate, hcalls]
  obtain ⟨-, hevent⟩ := he
  cases e with
  | send u message result =>
    obtain rfl : u = t := hevent
    simp only [step] at hs'
    split_ifs at hs' with hconnected ht
    · obtain rfl := Option.some.inj hs'
      exact ⟨hbegun, rfl⟩
    · rcases hbegun with hstate | hcall
      · exact absurd (hstate.symm.trans (not_not.mp hconnected)) (by decide)
      · rw [ht, h.live.order.owner_idle] at hcall
        cases hcall
    · obtain ⟨m, hm, -⟩ := Option.map_eq_some_iff.mp hs'
      rcases hbegun with hstate | hcall
      · exact absurd (hstate.symm.trans (not_not.mp hconnected)) (by decide)
      · exact (not_begin hcall hm).elim
  | shutdown u =>
    obtain rfl : u = t := hevent
    simp only [step] at hs'
    split_ifs at hs' with hconnected ht
    · obtain rfl := Option.some.inj hs'
      exact ⟨hbegun, rfl⟩
    · obtain rfl := Option.some.inj hs'
      refine ⟨.inl ?_, rfl⟩
      show s.conn.shutdown.1.state = .kDisconnecting
      rw [TcpConnection.shutdown, if_pos (not_not.mp hconnected)]
    · rcases hbegun with hstate | hcall
      · exact absurd (hstate.symm.trans (not_not.mp hconnected)) (by decide)
      · exact (not_begin hcall hs').elim
  | store u =>
    simp only [step] at hs'
    split at hs'
    · obtain rfl := Option.some.inj hs'
      exact ⟨.inl rfl, rfl⟩
    · cases hs'
  | push u =>
    obtain rfl : u = t := hevent
    simp only [step] at hs'
    split at hs'
    · rename_i f hpush
      obtain rfl := Option.some.inj hs'
      rcases hbegun with hstate | hcall
      · exact ⟨.inl hstate, rfl⟩
      · cases (ForeignCall.mk.inj (Option.some.inj (hpush.symm.trans hcall))).1
    · cases hs'
  | swap | runFunctor | handleRead | handleWrite => exact hkeeps rfl
  | forceClose | post | establish | handleClose => exact hevent.elim

/-- Before `Shutdown`, what `Send` is given is issued. -/
theorem Shutting.unbegun_step (h : Shutting owner t s) (hnot : ¬ Begun t s) {e : OutputEvent T} (he : Graceful t s e)
    (hs' : s.step owner e = some s') :
    match e with
    | .send _ message _ => ¬ Begun t s' ∧ s'.issued = s.issued ++ [(t, message)]
    | .shutdown _ => Begun t s' ∧ s'.issued = s.issued
    | _ => ¬ Begun t s' ∧ s'.issued = s.issued := by
  have hconnected : s.conn.state = .kConnected := by
    rcases h.course.state with hstate | hstate
    · exact hstate
    · exact absurd (.inl hstate) hnot
  have hkeeps : ofLoop e = true → ¬ Begun t s' ∧ s'.issued = s.issued := by
    intro hloop
    obtain ⟨hstate, hcalls, hissued⟩ := h.loop_keeps hloop he hs'
    refine ⟨?_, hissued⟩
    rwa [Begun, hstate, hcalls]
  obtain ⟨-, hevent⟩ := he
  cases e with
  | send u message result =>
    obtain rfl : u = t := hevent
    simp only [step, hconnected, ne_eq, not_true_eq_false, if_false] at hs'
    split_ifs at hs' with ht
    · obtain ⟨r, hr, rfl⟩ := Option.map_eq_some_iff.mp hs'
      refine ⟨?_, rfl⟩
      rintro (hstate | hcall)
      · exact absurd (((TcpConnection.sendInLoop_quietly hr).state.symm.trans hstate).symm.trans hconnected) (by decide)
      · exact hnot (.inr hcall)
    · obtain ⟨m, hm, rfl⟩ := Option.map_eq_some_iff.mp hs'
      obtain ⟨hidle, rfl⟩ := begin_spec hm
      refine ⟨?_, rfl⟩
      rintro (hstate | hcall)
      · exact hnot (.inl hstate)
      · replace hcall : Function.update s.calls u (some ⟨false, .sendInLoop message⟩) u = some ⟨true, .shutdownInLoop⟩ :=
          hcall
        rw [Function.update_self] at hcall
        cases (ForeignCall.mk.inj (Option.some.inj hcall)).1
  | shutdown u =>
    obtain rfl : u = t := hevent
    simp only [step, hconnected, ne_eq, not_true_eq_false, if_false] at hs'
    split_ifs at hs' with ht
    · obtain rfl := Option.some.inj hs'
      refine ⟨.inl ?_, rfl⟩
      show s.conn.shutdown.1.state = .kDisconnecting
      rw [TcpConnection.shutdown, if_pos hconnected]
    · obtain ⟨hidle, rfl⟩ := begin_spec hs'
      exact ⟨.inr (Function.update_self ..), rfl⟩
  | store u =>
    obtain rfl : u = t := hevent
    simp only [step] at hs'
    split at hs'
    · rename_i f hcall
      cases h.course.stage with
      | sending _ hsending =>
        rcases hsending.calls _ hcall with heq | ⟨message, heq⟩
        · exact absurd (.inr (hcall.trans (congrArg some heq))) hnot
        · cases (ForeignCall.mk.inj heq).1
      | ending hstate => exact absurd (.inl hstate) hnot
    · cases hs'
  | push u =>
    obtain rfl : u = t := hevent
    simp only [step] at hs'
    split at hs'
    · obtain rfl := Option.some.inj hs'
      refine ⟨?_, rfl⟩
      rintro (hstate | hcall)
      · exact hnot (.inl hstate)
      · replace hcall : Function.update s.calls u none u = some ⟨true, .shutdownInLoop⟩ := hcall
        rw [Function.update_self] at hcall
        cases hcall
    · cases hs'
  | swap | runFunctor | handleRead | handleWrite => exact hkeeps rfl
  | forceClose | post | establish | handleClose => exact hevent.elim

/-- From `Shutdown` on nothing more is issued; up to there it is what `Send` was given. -/
theorem Shutting.issued_of_run (h : Shutting owner t s) {es : List (OutputEvent T)}
    (hmeets : Meets (step owner) (Graceful t) s es) (hrun : runFrom (step owner) s es = some s') :
    (Begun t s → s'.issued = s.issued) ∧
      (¬ Begun t s → s'.issued.map Prod.snd = s.issued.map Prod.snd ++ sentBefore es) := by
  induction es generalizing s with
  | nil =>
    obtain rfl := Option.some.inj hrun
    exact ⟨fun _ => rfl, fun _ => (List.append_nil _).symm⟩
  | cons e es ih =>
    obtain ⟨m, hm, hrest⟩ := runFrom_cons_iff.mp hrun
    obtain ⟨he, hmeets⟩ := (meets_cons_iff hm).mp hmeets
    obtain ⟨hbegun, hunbegun⟩ := ih (h.advance he hm).1 hmeets hrest
    constructor
    · intro hb
      obtain ⟨hb, hissued⟩ := h.begun_step hb he hm
      rw [hbegun hb, hissued]
    · intro hnot
      have hstep := h.unbegun_step hnot he hm
      cases e with
      | send u message result =>
        rw [hunbegun hstep.1, hstep.2, List.map_append, List.append_assoc]
        rfl
      | shutdown u =>
        rw [hbegun hstep.1, hstep.2]
        exact (List.append_nil _).symm
      | _ =>
        rw [hunbegun hstep.1, hstep.2]
        rfl

/-! ## The half-close follows the messages -/

theorem established_shutting (owner t : T) (hasWriteComplete hasHighWaterMark : Bool) (mark : ℕ) :
    Shutting owner t (established hasWriteComplete hasHighWaterMark mark) where
  live := by
    have hlive : Live owner (start hasWriteComplete hasHighWaterMark mark : OutputSystem T) := start_live ..
    have hwriting := Channel.enableReading_isWriting (TcpConnection.new hasWriteComplete).channel
    refine ⟨⟨State.noConfusion, ?_, hlive.stream.stream⟩, hlive.order⟩
    exact (iff_of_eq (congrArg (· = true) hwriting)).trans hlive.stream.writing
  course := ⟨rfl, List.forall_mem_nil _, List.forall_mem_nil _, .nil,
    .sending rfl ⟨List.not_mem_nil, List.forall_mem_nil _, fun _ hcall => nomatch hcall⟩⟩

/-- It is the connection that `ConnectEstablished` leaves. -/
theorem established_conn (hasWriteComplete hasHighWaterMark : Bool) (mark : ℕ)
    (hstep : (start hasWriteComplete hasHighWaterMark mark).step owner .establish = some s) :
    s.conn = (established hasWriteComplete hasHighWaterMark mark : OutputSystem T).conn := by
  simp only [step] at hstep
  obtain ⟨r, hr, rfl⟩ := Option.map_eq_some_iff.mp hstep
  obtain rfl := Option.some.inj hr
  rfl

theorem established_clean (owner t : T) (hasWriteComplete hasHighWaterMark : Bool) (mark : ℕ) :
    Clean owner t (established hasWriteComplete hasHighWaterMark mark) := by
  refine ⟨established_shutting .., fun pre post hsplit => ?_⟩
  exact absurd (List.append_eq_nil_iff.mp hsplit.symm).2 (List.cons_ne_nil _ _)

theorem issued_eq_sentBefore (owner t : T) {hasWriteComplete hasHighWaterMark : Bool} {mark : ℕ}
    {es : List (OutputEvent T)}
    (hmeets : Meets (step owner) (Graceful t) (established hasWriteComplete hasHighWaterMark mark) es)
    (hrun : runFrom (step owner) (established hasWriteComplete hasHighWaterMark mark) es = some s) :
    s.issued.map Prod.snd = sentBefore es := by
  refine ((established_shutting owner t ..).issued_of_run hmeets hrun).2 ?_
  rintro (hstate | hcall)
  · cases hstate
  · cases hcall

/-- **The half-close follows the messages, unless the loop's queue is overtaken.** One thread sends messages over an
established connection and calls `Shutdown`; writes may be partial or refused.  Whenever `ShutdownWrite` is issued,
`::write` has accepted exactly the messages sent before, in order, and accepts nothing more, if and only if `HandleWrite`
never empties the output buffer in `kDisconnecting` while bytes to be sent wait in the loop's queue. -/
theorem flushed_iff_queueEmptyAtDrain (owner t : T) (hasWriteComplete hasHighWaterMark : Bool) (mark : ℕ)
    (es : List (OutputEvent T)) (s : OutputSystem T)
    (hgraceful : Meets (step owner) (Graceful t) (established hasWriteComplete hasHighWaterMark mark) es)
    (hrun : runFrom (step owner) (established hasWriteComplete hasHighWaterMark mark) es = some s) :
    Flushed (sentBefore es) s.effects ↔
      Meets (step owner) QueueEmptyAtDrain (established hasWriteComplete hasHighWaterMark mark) es := by
  have hstart := established_clean owner t hasWriteComplete hasHighWaterMark mark
  have hrun' := meets_or_bad_within (C := QueueEmptyAtDrain) (fun _ _ _ h => h.advance) (fun _ _ _ h => h.early)
    (fun _ _ _ h => h.advance) hstart hgraceful hrun
  rw [← issued_eq_sentBefore owner t hgraceful hrun]
  constructor
  · intro hflushed
    rcases hrun' with ⟨hmeets, -⟩ | hearly
    · exact hmeets
    · exact absurd hflushed hearly.not_flushed
  · intro hmeets
    exact (invariant_of_meets (C := fun s e => Graceful t s e ∧ QueueEmptyAtDrain s e)
      (fun _ _ _ h hc => h.advance hc.1 hc.2) (hgraceful.and hmeets) hstart hrun).flushed

/-- A message of three bytes is written in two parts, with `Shutdown` called in between. -/
def sendThenShutdown : List (OutputEvent ℕ) :=
  [.send 1 [1, 2, 3] (.wrote 0), .push 1, .swap, .runFunctor (.wrote 1), .shutdown 1, .store 1, .handleWrite (.wrote 2)]

theorem flushed_sendThenShutdown :
    ∃ s, runFrom (step 0) (established false false 0) sendThenShutdown = some s ∧ .shutdownWrite ∈ s.effects ∧
      Flushed [[1, 2, 3]] s.effects := by
  have hgraceful : Meets (step 0) (Graceful 1) (established false false 0) sendThenShutdown := by decide +kernel
  have hempty : Meets (step 0) QueueEmptyAtDrain (established false false 0) sendThenShutdown := by decide +kernel
  have hclosed : (runFrom (step 0) (established false false 0) sendThenShutdown).map
      (fun s => decide (.shutdownWrite ∈ s.effects)) = some true := by decide +kernel
  obtain ⟨s, hrun, hmem⟩ := Option.map_eq_some_iff.mp hclosed
  exact ⟨s, hrun, of_decide_eq_true hmem,
    (flushed_iff_queueEmptyAtDrain 0 1 false false 0 sendThenShutdown s hgraceful hrun).mpr hempty⟩

/-- A second message waits in the loop's queue when `HandleWrite` empties the buffer of the first. -/
def queueOvertaken : List (OutputEvent ℕ) :=
  [.send 1 [1, 2, 3] (.wrote 0), .push 1, .swap, .runFunctor (.wrote 1), .send 1 [9] (.wrote 0), .push 1,
    .shutdown 1, .store 1, .handleWrite (.wrote 2)]

/-- The half-close is issued with the second message unsent. -/
theorem not_flushed_queueOvertaken :
    ∃ s, runFrom (step 0) (established false false 0) queueOvertaken = some s ∧
      Meets (step 0) (Graceful 1) (established false false 0) queueOvertaken ∧
      sentBefore queueOvertaken = [[1, 2, 3], [9]] ∧ bytesWritten s.effects = [1, 2, 3] ∧
      .shutdownWrite ∈ s.effects ∧ ¬ Flushed (sentBefore queueOvertaken) s.effects := by
  have hgraceful : Meets (step 0) (Graceful 1) (established false false 0) queueOvertaken := by decide +kernel
  have hclosed : (runFrom (step 0) (established false false 0) queueOvertaken).map
      (fun s => (bytesWritten s.effects, decide (.shutdownWrite ∈ s.effects))) = some ([1, 2, 3], true) := by
    decide +kernel
  obtain ⟨s, hrun, heq⟩ := Option.map_eq_some_iff.mp hclosed
  obtain ⟨hbytes, hmem⟩ := Prod.mk.inj heq
  replace hmem := of_decide_eq_true hmem
  refine ⟨s, hrun, hgraceful, rfl, hbytes, hmem, fun hflushed => ?_⟩
  obtain ⟨pre, post, hsplit⟩ := List.append_of_mem hmem
  obtain ⟨hpre, hpost⟩ := hflushed pre post hsplit
  rw [hsplit, bytesWritten_append, hpre] at hbytes
  replace hbytes : [1, 2, 3, 9] ++ bytesWritten post = [1, 2, 3] := hbytes
  cases hbytes

/-- The thread of the loop has nothing in the queue, so its half-close always follows its messages. -/
theorem flushed_of_owner (owner : T) (hasWriteComplete hasHighWaterMark : Bool) (mark : ℕ) {es : List (OutputEvent T)}
    (hgraceful : Meets (step owner) (Graceful owner) (established hasWriteComplete hasHighWaterMark mark) es)
    (hrun : runFrom (step owner) (established hasWriteComplete hasHighWaterMark mark) es = some s) :
    Flushed (sentBefore es) s.effects := by
  rw [← issued_eq_sentBefore owner owner hgraceful hrun]
  have hclean : Clean owner owner s := by
    refine invariant_of_meets (fun s e s' h he => h.advance he ?_) hgraceful (established_clean ..) hrun
    intro result _ _ _
    rw [show sends s.tasks = [] from h.shutting.live.order.sends_of_owner h.shutting.course.mine]
    rfl
  exact hclean.flushed

end Runs

end OutputSystem
end Chater.Net
