import Chater.Foundations.Transition
import Chater.Net.TcpConnection
import Mathlib.Logic.Function.Basic

/-!
# The output stream of a connection

One connection with its owning loop and any number of other threads.  `Send`, `Shutdown` and `ForceClose` may be
called by every thread: the owning thread acts at once, another thread looks at `state_`, may store a new state, and
pushes a functor onto the loop's queue, each as a step of its own.  The loop swaps the queue into a batch and runs the
batch in order, and in between handles reads, writes and closes.

The record keeps three things the code does not: the effects so far, and the messages in the order their `Send`
passed its check (`issued`) and in the order their `SendInLoop` ran (`ran`).
-/

namespace Chater.Net

open Base Foundations

set_option autoImplicit false

/-! ## The system -/

structure Task (T : Type) where
  thread : T
  functor : Functor

/-- A call another thread is in the middle of: the functor it will push, and whether it first stores
`kDisconnecting`. -/
structure ForeignCall where
  mustStore : Bool
  functor : Functor

structure OutputSystem (T : Type) where
  conn : TcpConnection
  pending : List (Task T)
  batch : List (Task T)
  calls : T → Option ForeignCall
  effects : List Effect
  issued : List (T × List UInt8)
  ran : List (T × List UInt8)
  /-- A handler has stored `kDisconnected`. -/
  closed : Bool

inductive OutputEvent (T : Type)
  | send (t : T) (message : List UInt8) (result : WriteResult)
  | shutdown (t : T)
  | forceClose (t : T)
  | store (t : T)
  | push (t : T)
  | post (t : T) (f : Functor)
  | establish
  | swap
  | runFunctor (result : WriteResult)
  | handleRead (result : RingBuffer.ReadvResult) (messageCallback : WfBuffer → WfBuffer)
  | handleWrite (result : WriteResult)
  | handleClose

def queuedFunctors (effects : List Effect) : List Functor :=
  effects.filterMap fun
    | .queueInLoop f => some f
    | _ => none

namespace OutputSystem

variable {T : Type} [DecidableEq T] (owner : T)

def start (hasWriteCompleteCallback hasHighWaterMarkCallback : Bool) (highWaterMark : ℕ) : OutputSystem T where
  conn := { TcpConnection.new hasWriteCompleteCallback with
    hasHighWaterMarkCallback := hasHighWaterMarkCallback, highWaterMark := highWaterMark }
  pending := []
  batch := []
  calls _ := none
  effects := []
  issued := []
  ran := []
  closed := false

def finish (s : OutputSystem T) (r : TcpConnection × List Effect) : OutputSystem T :=
  { s with
    conn := r.1
    effects := s.effects ++ r.2
    pending := s.pending ++ (queuedFunctors r.2).map fun f => ⟨owner, f⟩
    closed := s.closed || decide (r.1.state = .kDisconnected) }

def begin (s : OutputSystem T) (t : T) (call : ForeignCall) : Option (OutputSystem T) :=
  if (s.calls t).isSome then none else some { s with calls := Function.update s.calls t (some call) }

/-- One functor of the batch.  The user callbacks are run for their own sake; what they send is an event of its
own. -/
def runTask (s : OutputSystem T) (task : Task T) (result : WriteResult) : Option (OutputSystem T) :=
  match task.functor with
  | .sendInLoop message =>
    (s.conn.sendInLoop message result).map fun r =>
      { s.finish owner r with ran := s.ran ++ [(task.thread, message)] }
  | .shutdownInLoop => some (s.finish owner (s.conn, s.conn.shutdownInLoop))
  | .forceCloseInLoop => s.conn.forceCloseInLoop.map (s.finish owner)
  | .connectEstablished => s.conn.connectEstablished.map (s.finish owner)
  | .connectDestroyed => s.conn.connectDestroyed.map (s.finish owner)
  | .writeComplete | .highWaterMark _ => some s

def step (s : OutputSystem T) : OutputEvent T → Option (OutputSystem T)
  | .send t message result =>
    if s.conn.state ≠ .kConnected then some s
    else if t = owner then
      (s.conn.sendInLoop message result).map fun r =>
        { s.finish owner r with issued := s.issued ++ [(t, message)], ran := s.ran ++ [(t, message)] }
    else (s.begin t ⟨false, .sendInLoop message⟩).map fun s =>
      { s with issued := s.issued ++ [(t, message)] }
  | .shutdown t =>
    if s.conn.state ≠ .kConnected then some s
    else if t = owner then
      -- `RunInLoop` on the owning thread runs `ShutdownInLoop` at once
      some (s.finish owner (s.conn.shutdown.1, s.conn.shutdownInLoop))
    else s.begin t ⟨true, .shutdownInLoop⟩
  | .forceClose t =>
    if s.conn.state ≠ .kConnected ∧ s.conn.state ≠ .kDisconnecting then some s
    else if t = owner then some (s.finish owner s.conn.forceClose)
    else s.begin t ⟨true, .forceCloseInLoop⟩
  | .store t =>
    match s.calls t with
    | some ⟨true, f⟩ =>
      some { s with
        conn := { s.conn with state := .kDisconnecting }
        calls := Function.update s.calls t (some ⟨false, f⟩) }
    | _ => none
  | .push t =>
    match s.calls t with
    | some ⟨false, f⟩ =>
      some { s with pending := s.pending ++ [⟨t, f⟩], calls := Function.update s.calls t none }
    | _ => none
  | .post t f =>
    -- the server's base loop hands over the connection, and takes it back; `establish` is the handover on one loop
    if f = .connectEstablished ∨ f = .connectDestroyed then some { s with pending := s.pending ++ [⟨t, f⟩] }
    else none
  | .establish => s.conn.connectEstablished.map (s.finish owner)
  | .swap => if s.batch.isEmpty then some { s with batch := s.pending, pending := [] } else none
  | .runFunctor result =>
    match s.batch with
    | [] => none
    | task :: rest => runTask owner { s with batch := rest } task result
  | .handleRead result messageCallback => (s.conn.handleRead result messageCallback).map (s.finish owner)
  | .handleWrite result => (s.conn.handleWrite result).map (s.finish owner)
  | .handleClose => s.conn.handleClose.map (s.finish owner)

def NoFault (_ : OutputSystem T) : OutputEvent T → Prop
  | .send _ _ result | .runFunctor result | .handleWrite result => result.fault = false
  | _ => True

end OutputSystem

/-! ## The stream

What is written and what is buffered together make up the messages whose `SendInLoop` ran. -/

section Stream

variable {T : Type}

structure StreamInv (conn : TcpConnection) (effects : List Effect) (ran : List (T × List UInt8)) : Prop where
  alive : conn.state ≠ .kDisconnected
  writing : conn.WritesPending
  stream : bytesWritten effects ++ conn.outputBuffer.content = (ran.map Prod.snd).flatten

variable {conn : TcpConnection} {effects : List Effect} {ran : List (T × List UInt8)}
  {r : TcpConnection × List Effect}

theorem StreamInv.step (h : StreamInv conn effects ran) (hr : TcpConnection.OutputStep conn [] r)
    (halive : r.1.state ≠ .kDisconnected) : StreamInv r.1 (effects ++ r.2) ran := by
  refine ⟨halive, hr.writing, ?_⟩
  rw [bytesWritten_append, List.append_assoc, hr.stream, List.append_nil, h.stream]

theorem StreamInv.send (h : StreamInv conn effects ran) {message : List UInt8}
    (hr : TcpConnection.OutputStep conn message r) (halive : r.1.state ≠ .kDisconnected) (t : T) :
    StreamInv r.1 (effects ++ r.2) (ran ++ [(t, message)]) := by
  refine ⟨halive, hr.writing, ?_⟩
  rw [bytesWritten_append, List.append_assoc, hr.stream, ← List.append_assoc, h.stream]
  simp

theorem StreamInv.store (h : StreamInv conn effects ran) :
    StreamInv { conn with state := .kDisconnecting } effects ran :=
  ⟨State.noConfusion, h.writing, h.stream⟩

end Stream

/-! ## The order of each thread's messages

A message of another thread is first in the call, then in the queue, then in the batch, then it has run; one of the
owning thread runs at once. -/

section Order

variable {T : Type} [DecidableEq T]

def sends (tasks : List (Task T)) : List (T × List UInt8) :=
  tasks.filterMap fun task =>
    match task.functor with
    | .sendInLoop message => some (task.thread, message)
    | _ => none

def callSends (t : T) : Option ForeignCall → List (T × List UInt8)
  | some ⟨_, .sendInLoop message⟩ => [(t, message)]
  | _ => []

def ofThread (t : T) (messages : List (T × List UInt8)) : List (T × List UInt8) :=
  messages.filter fun p => p.1 = t

structure OrderInv (owner : T) (ran : List (T × List UInt8)) (tasks : List (Task T))
    (calls : T → Option ForeignCall) (issued : List (T × List UInt8)) : Prop where
  order : ∀ t, ofThread t (ran ++ sends tasks) ++ callSends t (calls t) = ofThread t issued
  owner_direct : ofThread owner (sends tasks) = []
  owner_idle : calls owner = none

variable {owner : T} {ran : List (T × List UInt8)} {tasks tasks' : List (Task T)}
  {calls : T → Option ForeignCall} {issued : List (T × List UInt8)}

theorem ofThread_append (t : T) (xs ys : List (T × List UInt8)) :
    ofThread t (xs ++ ys) = ofThread t xs ++ ofThread t ys :=
  List.filter_append ..

omit [DecidableEq T] in
theorem sends_append (xs ys : List (Task T)) : sends (xs ++ ys) = sends xs ++ sends ys :=
  List.filterMap_append

theorem OrderInv.tasks_congr (h : OrderInv owner ran tasks calls issued) (hsends : sends tasks' = sends tasks) :
    OrderInv owner ran tasks' calls issued :=
  ⟨fun t => by rw [hsends]; exact h.order t, by rw [hsends]; exact h.owner_direct, h.owner_idle⟩

theorem OrderInv.direct (h : OrderInv owner ran tasks calls issued) (message : List UInt8) :
    OrderInv owner (ran ++ [(owner, message)]) tasks calls (issued ++ [(owner, message)]) := by
  refine ⟨fun t => ?_, h.owner_direct, h.owner_idle⟩
  have horder := h.order t
  simp only [ofThread_append] at horder ⊢
  by_cases ht : t = owner
  · subst ht
    rw [h.owner_direct, h.owner_idle] at horder ⊢
    simpa [callSends] using horder
  · have hskip : ofThread t [(owner, message)] = [] := by simp [ofThread, Ne.symm ht]
    rw [hskip, List.append_nil, List.append_nil, horder]

theorem ofThread_callSends (t : T) (call : Option ForeignCall) : ofThread t (callSends t call) = callSends t call := by
  unfold callSends
  split <;> simp [ofThread]

theorem ofThread_callSends_of_ne {t u : T} (h : u ≠ t) (call : Option ForeignCall) :
    ofThread u (callSends t call) = [] := by
  unfold callSends
  split <;> simp [ofThread, Ne.symm h]

theorem OrderInv.begin (h : OrderInv owner ran tasks calls issued) {t : T} (ht : t ≠ owner)
    (hidle : calls t = none) (call : ForeignCall) :
    OrderInv owner ran tasks (Function.update calls t (some call)) (issued ++ callSends t (some call)) := by
  refine ⟨fun u => ?_, h.owner_direct, ?_⟩
  · rw [ofThread_append u issued, ← h.order u]
    by_cases hu : u = t
    · subst hu
      rw [hidle, Function.update_self, ofThread_callSends]
      simp [callSends]
    · rw [Function.update_of_ne hu, ofThread_callSends_of_ne hu, List.append_nil]
  · rw [Function.update_of_ne (Ne.symm ht)]
    exact h.owner_idle

theorem OrderInv.store (h : OrderInv owner ran tasks calls issued) {t : T} {f : Functor}
    (hcall : calls t = some ⟨true, f⟩) :
    OrderInv owner ran tasks (Function.update calls t (some ⟨false, f⟩)) issued := by
  refine ⟨fun u => ?_, h.owner_direct, ?_⟩
  · rw [← h.order u]
    by_cases hu : u = t
    · subst hu
      rw [Function.update_self, hcall]
      cases f <;> rfl
    · rw [Function.update_of_ne hu]
  · have hne : owner ≠ t := by
      rintro rfl
      rw [h.owner_idle] at hcall
      cases hcall
    rw [Function.update_of_ne hne]
    exact h.owner_idle

theorem OrderInv.push (h : OrderInv owner ran tasks calls issued) {t : T} {stored : Bool} {f : Functor}
    (hcall : calls t = some ⟨stored, f⟩) :
    OrderInv owner ran (tasks ++ [⟨t, f⟩]) (Function.update calls t none) issued := by
  have hne : t ≠ owner := by
    rintro rfl
    rw [h.owner_idle] at hcall
    cases hcall
  have htask : sends [(⟨t, f⟩ : Task T)] = callSends t (calls t) := by
    rw [hcall]
    cases f <;> rfl
  refine ⟨fun u => ?_, ?_, ?_⟩
  · rw [sends_append, htask, ← List.append_assoc, ofThread_append, ← h.order u]
    by_cases hu : u = t
    · subst hu
      rw [ofThread_callSends, Function.update_self]
      exact List.append_nil _
    · rw [ofThread_callSends_of_ne hu, Function.update_of_ne hu, List.append_nil]
  · rw [sends_append, htask, ofThread_append, h.owner_direct, ofThread_callSends_of_ne (Ne.symm hne)]
    rfl
  · rw [Function.update_of_ne (Ne.symm hne)]
    exact h.owner_idle

theorem OrderInv.run {t : T} {message : List UInt8}
    (h : OrderInv owner ran (⟨t, .sendInLoop message⟩ :: tasks) calls issued) :
    OrderInv owner (ran ++ [(t, message)]) tasks calls issued := by
  have hcons : sends (⟨t, .sendInLoop message⟩ :: tasks) = (t, message) :: sends tasks := rfl
  refine ⟨fun u => ?_, ?_, h.owner_idle⟩
  · rw [List.append_assoc, List.singleton_append, ← hcons]
    exact h.order u
  · have hdirect := h.owner_direct
    rw [hcons] at hdirect
    exact List.filter_eq_nil_iff.mpr fun p hp => List.filter_eq_nil_iff.mp hdirect p (List.mem_cons_of_mem _ hp)

end Order

/-! ## Runs -/

namespace OutputSystem

variable {T : Type} [DecidableEq T] {owner : T} {s s' : OutputSystem T}

structure Live (owner : T) (s : OutputSystem T) : Prop where
  stream : StreamInv s.conn s.effects s.ran
  order : OrderInv owner s.ran (s.batch ++ s.pending) s.calls s.issued

omit [DecidableEq T] in
/-- What a handler queues for the loop holds no message. -/
theorem sends_finish {data : List UInt8} {r : TcpConnection × List Effect}
    (hr : TcpConnection.OutputStep s.conn data r) :
    sends ((s.finish owner r).batch ++ (s.finish owner r).pending) = sends (s.batch ++ s.pending) := by
  have hnone : sends ((queuedFunctors r.2).map fun f => (⟨owner, f⟩ : Task T)) = [] := by
    refine List.filterMap_eq_nil_iff.mpr fun task htask => ?_
    obtain ⟨f, hf, rfl⟩ := List.mem_map.mp htask
    obtain ⟨e, he, hqueue⟩ := List.mem_filterMap.mp hf
    have hsend := hr.queues_no_send e he
    cases e with
    | queueInLoop g =>
      obtain rfl := Option.some.inj hqueue
      cases g with
      | sendInLoop message => cases hsend
      | _ => rfl
    | _ => cases hqueue
  simp only [finish, sends_append, hnone, List.append_nil]

omit [DecidableEq T] in
theorem finish_open {r : TcpConnection × List Effect}
    (h : (s.closed || decide (r.1.state = .kDisconnected)) = false) :
    s.closed = false ∧ r.1.state ≠ .kDisconnected := by
  simpa using h

theorem Live.finish (h : Live owner s) {r : TcpConnection × List Effect}
    (hr : r.1.state ≠ .kDisconnected → TcpConnection.OutputStep s.conn [] r)
    (hopen : (s.finish owner r).closed = false) : Live owner (s.finish owner r) := by
  have halive := (finish_open hopen).2
  exact ⟨h.stream.step (hr halive) halive, h.order.tasks_congr (sends_finish (hr halive))⟩

/-- What holds until a handler stores `kDisconnected`. -/
def LiveWhileOpen (owner : T) (s : OutputSystem T) : Prop := s.closed = false → Live owner s

theorem LiveWhileOpen.finish (h : LiveWhileOpen owner s) {r : TcpConnection × List Effect}
    (hr : s.conn.WritesPending → r.1.state ≠ .kDisconnected → TcpConnection.OutputStep s.conn [] r) :
    LiveWhileOpen owner (s.finish owner r) := by
  intro hopen
  have hlive := h (finish_open hopen).1
  exact hlive.finish (hr hlive.stream.writing) hopen

theorem LiveWhileOpen.runTask (h : LiveWhileOpen owner s) {task : Task T} {rest : List (Task T)}
    {result : WriteResult} (hbatch : s.batch = task :: rest) (hfault : result.fault = false)
    (hrun : runTask owner { s with batch := rest } task result = some s') : LiveWhileOpen owner s' := by
  obtain ⟨t, f⟩ := task
  have horder : s.closed = false → OrderInv owner s.ran (⟨t, f⟩ :: (rest ++ s.pending)) s.calls s.issued := by
    intro hopen
    have hlive := (h hopen).order
    rwa [hbatch, List.cons_append] at hlive
  -- a functor that sends nothing leaves the messages under way as they are
  have hpopped : f.isSend = false → LiveWhileOpen owner { s with batch := rest } := by
    intro hsend hopen
    refine ⟨(h hopen).stream, (horder hopen).tasks_congr ?_⟩
    cases f with
    | sendInLoop => cases hsend
    | _ => rfl
  cases f with
  | sendInLoop message =>
    obtain ⟨r, hr, rfl⟩ := Option.map_eq_some_iff.mp hrun
    intro hopen
    have hclosed : s.closed = false := (finish_open hopen).1
    have hstream := (h hclosed).stream
    obtain ⟨hstep, hstate⟩ := TcpConnection.sendInLoop_step hstream.writing hstream.alive hfault hr
    refine ⟨hstream.send hstep (hstate ▸ hstream.alive) t, ?_⟩
    exact (horder hclosed).run.tasks_congr (sends_finish (s := { s with batch := rest }) hstep)
  | shutdownInLoop =>
    obtain rfl := Option.some.inj hrun
    refine (hpopped rfl).finish fun hwriting _ => ?_
    exact TcpConnection.OutputStep.of_same hwriting rfl rfl (TcpConnection.shutdownInLoop_quiet _)
  | forceCloseInLoop =>
    obtain ⟨r, hr, rfl⟩ := Option.map_eq_some_iff.mp hrun
    exact (hpopped rfl).finish fun hwriting => TcpConnection.forceCloseInLoop_step hwriting hr
  | connectEstablished =>
    obtain ⟨r, hr, rfl⟩ := Option.map_eq_some_iff.mp hrun
    exact (hpopped rfl).finish fun hwriting _ => TcpConnection.connectEstablished_step hwriting hr
  | connectDestroyed =>
    obtain ⟨r, hr, rfl⟩ := Option.map_eq_some_iff.mp hrun
    exact (hpopped rfl).finish fun hwriting => TcpConnection.connectDestroyed_step hwriting hr
  | writeComplete =>
    obtain rfl := Option.some.inj hrun
    exact hpopped rfl
  | highWaterMark size =>
    obtain rfl := Option.some.inj hrun
    exact hpopped rfl

theorem begin_spec {t : T} {call : ForeignCall} (h : s.begin t call = some s') :
    s.calls t = none ∧ s' = { s with calls := Function.update s.calls t (some call) } := by
  unfold OutputSystem.begin at h
  split_ifs at h with hsome
  exact ⟨Option.not_isSome_iff_eq_none.mp hsome, (Option.some.inj h).symm⟩

theorem Live.begin (h : Live owner s) {t : T} {call : ForeignCall} (ht : t ≠ owner)
    (hcall : call.functor.isSend = false) (hbegin : s.begin t call = some s') : Live owner s' := by
  obtain ⟨hidle, rfl⟩ := begin_spec hbegin
  refine ⟨h.stream, ?_⟩
  have horder := h.order.begin ht hidle call
  obtain ⟨stored, f⟩ := call
  cases f with
  | sendInLoop => cases hcall
  | _ =>
    rw [callSends, List.append_nil] at horder
    · exact horder
    · simp

theorem LiveWhileOpen.begin (h : LiveWhileOpen owner s) {t : T} {call : ForeignCall} (ht : t ≠ owner)
    (hcall : call.functor.isSend = false) (hbegin : s.begin t call = some s') : LiveWhileOpen owner s' := by
  intro hopen
  refine (h ?_).begin ht hcall hbegin
  obtain ⟨-, rfl⟩ := begin_spec hbegin
  exact hopen

theorem liveWhileOpen_step {e : OutputEvent T} (h : LiveWhileOpen owner s) (hfault : NoFault s e)
    (hstep : s.step owner e = some s') : LiveWhileOpen owner s' := by
  cases e with
  | send t message result =>
    simp only [step] at hstep
    split_ifs at hstep with hconnected ht
    · obtain rfl := Option.some.inj hstep
      exact h
    · subst ht
      obtain ⟨r, hr, rfl⟩ := Option.map_eq_some_iff.mp hstep
      intro hopen
      have hlive := h (finish_open hopen).1
      obtain ⟨hout, hstate⟩ := TcpConnection.sendInLoop_step hlive.stream.writing hlive.stream.alive hfault hr
      refine ⟨hlive.stream.send hout (hstate ▸ hlive.stream.alive) t, ?_⟩
      exact (hlive.order.direct message).tasks_congr (sends_finish hout)
    · obtain ⟨m, hm, rfl⟩ := Option.map_eq_some_iff.mp hstep
      obtain ⟨hidle, rfl⟩ := begin_spec hm
      exact fun hopen => ⟨(h hopen).stream, (h hopen).order.begin ht hidle _⟩
  | shutdown t =>
    simp only [step] at hstep
    split_ifs at hstep with hconnected ht
    · obtain rfl := Option.some.inj hstep
      exact h
    · obtain rfl := Option.some.inj hstep
      exact h.finish fun hwriting _ => TcpConnection.shutdown_step hwriting
    · exact h.begin ht rfl hstep
  | forceClose t =>
    simp only [step] at hstep
    split_ifs at hstep with hopened ht
    · obtain rfl := Option.some.inj hstep
      exact h
    · obtain rfl := Option.some.inj hstep
      exact h.finish fun hwriting _ => TcpConnection.forceClose_step hwriting
    · exact h.begin ht rfl hstep
  | store t =>
    simp only [step] at hstep
    split at hstep
    case h_2 => cases hstep
    case h_1 f hcall =>
      obtain rfl := Option.some.inj hstep
      exact fun hopen => ⟨(h hopen).stream.store, (h hopen).order.store hcall⟩
  | push t =>
    simp only [step] at hstep
    split at hstep
    case h_2 => cases hstep
    case h_1 f hcall =>
      obtain rfl := Option.some.inj hstep
      intro hopen
      have horder := (h hopen).order.push hcall
      rw [List.append_assoc] at horder
      exact ⟨(h hopen).stream, horder⟩
  | post t f =>
    simp only [step] at hstep
    split_ifs at hstep with hf
    obtain rfl := Option.some.inj hstep
    intro hopen
    refine ⟨(h hopen).stream, (h hopen).order.tasks_congr ?_⟩
    obtain rfl | rfl := hf <;> simp [sends]
  | establish =>
    obtain ⟨r, hr, rfl⟩ := Option.map_eq_some_iff.mp hstep
    exact h.finish fun hwriting _ => TcpConnection.connectEstablished_step hwriting hr
  | swap =>
    simp only [step] at hstep
    split_ifs at hstep with hempty
    obtain rfl := Option.some.inj hstep
    intro hopen
    refine ⟨(h hopen).stream, (h hopen).order.tasks_congr ?_⟩
    simp [List.isEmpty_iff.mp hempty]
  | runFunctor result =>
    simp only [step] at hstep
    split at hstep
    · cases hstep
    · rename_i task rest hbatch
      exact h.runTask hbatch hfault hstep
  | handleRead result cb =>
    obtain ⟨r, hr, rfl⟩ := Option.map_eq_some_iff.mp hstep
    exact h.finish fun hwriting => TcpConnection.handleRead_step hwriting hr
  | handleWrite result =>
    obtain ⟨r, hr, rfl⟩ := Option.map_eq_some_iff.mp hstep
    exact h.finish fun hwriting _ => (TcpConnection.handleWrite_step hwriting hr).1
  | handleClose =>
    obtain ⟨r, hr, rfl⟩ := Option.map_eq_some_iff.mp hstep
    exact fun hopen => absurd (TcpConnection.handleClose_state hr) (finish_open hopen).2

/-- Nothing lost, duplicated or reordered, and the channel waits for `EPOLLOUT` exactly while bytes are buffered. -/
structure StreamIntact (s : OutputSystem T) : Prop where
  stream : bytesWritten s.effects ++ s.conn.outputBuffer.content = (s.ran.map Prod.snd).flatten
  thread_order : ∀ t, ofThread t s.ran <+: ofThread t s.issued
  writing : s.conn.channel.isWriting = true ↔ s.conn.outputBuffer.content ≠ []

theorem Live.intact (h : Live owner s) : StreamIntact s where
  stream := h.stream.stream
  thread_order t := by
    rw [← h.order.order t, ofThread_append, List.append_assoc]
    exact List.prefix_append _ _
  writing := h.stream.writing

theorem start_live (hasWriteComplete hasHighWaterMark : Bool) (mark : ℕ) :
    Live owner (start hasWriteComplete hasHighWaterMark mark : OutputSystem T) := by
  have hempty : (WfBuffer.ofSize 1024).content = [] := WfBuffer.ofSize_content 1024
  refine ⟨⟨State.noConfusion, ?_, hempty⟩, ⟨fun t => rfl, rfl, rfl⟩⟩
  exact ⟨fun h => absurd h (by simp [start, TcpConnection.new, Channel.new_isWriting]), fun h => absurd hempty h⟩

/-- **The output stream is intact in every run.**  As long as no handler has stored `kDisconnected`, and `::write`
never fails with `EPIPE` or `ECONNRESET`, the bytes accepted by `::write` followed by the buffered ones are the
messages in the order their `SendInLoop` ran, each thread's in the order it sent them. -/
theorem output_stream_intact (owner : T) (hasWriteComplete hasHighWaterMark : Bool) (mark : ℕ)
    {es : List (OutputEvent T)}
    (hfault : Meets (step owner) NoFault (start hasWriteComplete hasHighWaterMark mark) es)
    (hrun : runFrom (step owner) (start hasWriteComplete hasHighWaterMark mark) es = some s)
    (hopen : s.closed = false) : StreamIntact s := by
  have hstart : LiveWhileOpen owner (start hasWriteComplete hasHighWaterMark mark : OutputSystem T) :=
    fun _ => start_live _ _ _
  exact (invariant_of_meets (fun _ _ _ => liveWhileOpen_step) hfault hstart hrun hopen).intact

def twoSenders : List (OutputEvent ℕ) :=
  [.establish, .send 1 [1, 2] (.wrote 0), .send 0 [3, 4, 5] (.wrote 3), .push 1, .swap, .runFunctor (.wrote 1)]

theorem output_stream_intact_two_senders :
    ∃ s, runFrom (step 0) (start false false 0) twoSenders = some s ∧ s.ran = [(0, [3, 4, 5]), (1, [1, 2])] ∧
      bytesWritten s.effects = [3, 4, 5, 1] ∧ StreamIntact s := by
  have hfault : Meets (step 0) NoFault (start false false 0) twoSenders := by
    simp [twoSenders, Meets, NoFault, WriteResult.fault]
  exact ⟨_, rfl, rfl, by decide, output_stream_intact 0 false false 0 hfault rfl rfl⟩

end OutputSystem

end Chater.Net
