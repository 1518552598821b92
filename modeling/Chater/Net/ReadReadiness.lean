import Chater.Foundations.EdgeTrigger
import Chater.Net.TcpConnection

/-!
# Readable connections under edge triggering

A loop with its connections, each with the receive queue the kernel holds for it.  `HandleRead` makes one `::readv`
for a report, and `::readv` takes at most the space `ReadFd` offers it: the writable part of the input buffer, and
64 KiB behind it unless the writable part is that large already.  A longer receive queue keeps its end, and since
the report cleared the edge, nothing tells the loop about it.
-/

namespace Chater.Net

open Base EdgeTrigger Foundations

set_option autoImplicit false

structure Peered where
  conn : TcpConnection
  peerClosed : Bool

structure Report where
  revents : Events
  messageCallback : WfBuffer → WfBuffer
  writeResult : WriteResult

abbrev ReadSource := Source UInt8 Peered

/-- `::readv` on a non-blocking socket: the waiting bytes up to the space offered, end of file, or `EAGAIN`. -/
def readv (queue : List UInt8) (peerClosed : Bool) (space : ℕ) : RingBuffer.ReadvResult × List UInt8 :=
  if queue ≠ [] then (.bytes (queue.take space), queue.drop space)
  else if peerClosed then (.bytes [], []) else (.error EAGAIN, [])

namespace ReadSource

def watched (p : Peered) : Bool := p.conn.channel.registered && p.conn.channel.isReading

/-- An `epoll_ctl` that adds or modifies makes the kernel look at the socket again.  Nobody looks at the edge of a
socket that has been deleted. -/
def applyEffect (s : ReadSource) : Effect → ReadSource
  | .epollCtl ⟨.EPOLL_CTL_ADD, _⟩ | .epollCtl ⟨.EPOLL_CTL_MOD, _⟩ => s.rearm
  | _ => s

def finish (s : ReadSource) (result : TcpConnection × List Effect) : ReadSource :=
  result.2.foldl applyEffect { s with handler := { s.handler with conn := result.1 } }

def runCallback (report : Report) (s : ReadSource) : Channel.Callback → Option ReadSource
  | .close => s.handler.conn.handleClose.map (finish s)
  | .error => some s
  | .read =>
    let (result, rest) := readv s.queue s.handler.peerClosed s.handler.conn.inputBuffer.readvSpace
    (s.handler.conn.handleRead result report.messageCallback).map (finish { s with queue := rest })
  | .write => (s.handler.conn.handleWrite report.writeResult).map (finish s)

/-- `Channel::HandleEvent` of a connection.  Bytes that were there at the report are in `revents`; bytes that came
later have set the edge again. -/
def handleEvent (report : Report) (s : ReadSource) : Option ReadSource :=
  if s.queue ≠ [] ∧ s.edge = false ∧ report.revents.any EPOLLIN = false then none
  else (Channel.handleEvent report.revents).foldlM (runCallback report) s

def readHandler : Handler Report UInt8 Peered := ⟨watched, handleEvent⟩

/-! ## What a handler call does to the receive queue and the edge -/

theorem foldl_applyEffect (effects : List Effect) (s : ReadSource) :
    (effects.foldl applyEffect s).queue = s.queue ∧ (effects.foldl applyEffect s).handler = s.handler ∧
      (s.edge = true → (effects.foldl applyEffect s).edge = true) := by
  induction effects generalizing s with
  | nil => exact ⟨rfl, rfl, id⟩
  | cons e es ih =>
    obtain ⟨hqueue, hhandler, hedge⟩ := ih (applyEffect s e)
    have hone : (applyEffect s e).queue = s.queue ∧ (applyEffect s e).handler = s.handler ∧
        (s.edge = true → (applyEffect s e).edge = true) := by
      unfold applyEffect
      split
      · exact ⟨rfl, rfl, fun h => by simp [Source.rearm, h]⟩
      · exact ⟨rfl, rfl, fun h => by simp [Source.rearm, h]⟩
      · exact ⟨rfl, rfl, id⟩
    rw [List.foldl_cons]
    exact ⟨hqueue.trans hone.1, hhandler.trans hone.2.1, fun h => hedge (hone.2.2 h)⟩

theorem finish_queue (s : ReadSource) (result : TcpConnection × List Effect) : (finish s result).queue = s.queue :=
  (foldl_applyEffect _ _).1

theorem finish_edge {s : ReadSource} (result : TcpConnection × List Effect) (h : s.edge = true) :
    (finish s result).edge = true :=
  (foldl_applyEffect _ _).2.2 h

theorem readv_rest (queue : List UInt8) (peerClosed : Bool) (space : ℕ) :
    (readv queue peerClosed space).2 = queue.drop space := by
  unfold readv
  split_ifs with hq
  · rfl
  · rw [not_not.mp hq, List.drop_nil]
  · rw [not_not.mp hq, List.drop_nil]

theorem runCallback_spec {report : Report} {s s' : ReadSource} {cb : Channel.Callback}
    (h : runCallback report s cb = some s') :
    s'.queue = (if cb = .read then s.queue.drop s.handler.conn.inputBuffer.readvSpace else s.queue) ∧
      (s.edge = true → s'.edge = true) := by
  cases cb with
  | error =>
    obtain rfl := Option.some.inj h
    exact ⟨rfl, id⟩
  | read =>
    obtain ⟨result, -, rfl⟩ := Option.map_eq_some_iff.mp h
    refine ⟨?_, fun hedge => finish_edge result hedge⟩
    rw [finish_queue, if_pos rfl]
    exact readv_rest _ _ _
  | close | write =>
    obtain ⟨result, -, rfl⟩ := Option.map_eq_some_iff.mp h
    exact ⟨finish_queue _ _, finish_edge _⟩

theorem foldlM_runCallback {report : Report} {cbs : List Channel.Callback} {s s' : ReadSource}
    (h : cbs.foldlM (runCallback report) s = some s') (hs : s.edge = true ∨ s.queue = []) :
    s'.edge = true ∨ s'.queue = [] := by
  induction cbs generalizing s with
  | nil =>
    obtain rfl := Option.some.inj h
    exact hs
  | cons cb cbs ih =>
    rw [List.foldlM_cons] at h
    obtain ⟨m, hm, hrest⟩ := Option.bind_eq_some_iff.mp h
    apply ih hrest
    refine hs.imp (runCallback_spec hm).2 fun hq => ?_
    rw [(runCallback_spec hm).1, hq]
    split_ifs
    · exact List.drop_nil
    · rfl

theorem foldlM_handleEvent_of_in {report : Report} {s s' : ReadSource} (hin : report.revents.any EPOLLIN = true)
    (h : (Channel.handleEvent report.revents).foldlM (runCallback report) s = some s') :
    ∃ m, runCallback report s .read = some m ∧
      (if report.revents.any EPOLLOUT then [Channel.Callback.write] else []).foldlM (runCallback report) m =
        some s' := by
  have hread : report.revents.any (EPOLLIN ||| EPOLLPRI ||| EPOLLRDHUP) = true := by
    rw [Channel.any_or_right, Channel.any_or_right, hin]
    rfl
  simp only [Channel.handleEvent, hin, hread, Bool.not_true, Bool.and_false, Bool.false_eq_true, if_false,
    if_true, List.nil_append, List.foldlM_append] at h
  obtain ⟨m, hm, hwrite⟩ := Option.bind_eq_some_iff.mp h
  obtain ⟨e, he, hreadm⟩ := Option.bind_eq_some_iff.mp hm
  have hsame : e = s := by
    split_ifs at he
    · simpa [runCallback] using he.symm
    · simpa using he.symm
  subst hsame
  refine ⟨m, ?_, hwrite⟩
  simpa using hreadm

theorem handleEvent_leaves {report : Report} {s s' : ReadSource} (h : handleEvent report s = some s')
    (hfits : s.queue.length ≤ s.handler.conn.inputBuffer.readvSpace ∨ s.edge = true) :
    s'.edge = true ∨ s'.queue = [] := by
  unfold handleEvent at h
  split_ifs at h with hreport
  by_cases hs : s.edge = true ∨ s.queue = []
  · exact foldlM_runCallback h hs
  · obtain ⟨hedge, hqueue⟩ := not_or.mp hs
    have hin : report.revents.any EPOLLIN = true := by
      by_contra hno
      exact hreport ⟨hqueue, Bool.eq_false_iff.mpr hedge, Bool.eq_false_iff.mpr hno⟩
    obtain ⟨m, hm, hrest⟩ := foldlM_handleEvent_of_in hin h
    apply foldlM_runCallback hrest
    right
    rw [(runCallback_spec hm).1, if_pos rfl]
    exact List.drop_eq_nil_of_le (hfits.resolve_right hedge)

theorem handleEvent_in {s : ReadSource} (hne : s.queue ≠ []) (cb : WfBuffer → WfBuffer) (w : WriteResult) :
    ∃ buffer, handleEvent ⟨EPOLLIN, cb, w⟩ s = some
      { queue := s.queue.drop s.handler.conn.inputBuffer.readvSpace
        edge := s.edge
        handler := { s.handler with conn := { s.handler.conn with inputBuffer := buffer } } } := by
  have hin : (EPOLLIN : Events).any EPOLLIN = true := by decide
  have hcbs : Channel.handleEvent EPOLLIN = [.read] := by decide
  have hspace := s.handler.conn.inputBuffer.readvSpace_pos
  have hlen := List.length_pos_of_ne_nil hne
  have hpos : 0 < (s.queue.take s.handler.conn.inputBuffer.readvSpace).length := by
    rw [List.length_take]
    omega
  refine ⟨cb (s.handler.conn.inputBuffer.readFd
    (.bytes (s.queue.take s.handler.conn.inputBuffer.readvSpace))), ?_⟩
  rw [handleEvent, if_neg (by simp [hin]), hcbs, List.foldlM_cons]
  simp only [runCallback, readv, if_pos hne, TcpConnection.handleRead, RingBuffer.ReadvResult.n,
    Int.natCast_pos, if_pos hpos, Option.map_some]
  rfl

end ReadSource

/-! ## Runs of the loop -/

open ReadSource

abbrev ReadLoop := EdgeTrigger.Loop ℕ UInt8 Peered

abbrev ReadEvent := EdgeTrigger.Event ℕ Report UInt8 Peered

def ReadLoop.start (hasWriteCompleteCallback : Bool) : ReadLoop where
  sources _ := ⟨[], false, ⟨TcpConnection.new hasWriteCompleteCallback, false⟩⟩
  phase := .polling

/-- Each `HandleRead` finds no more bytes than the space its buffer offers, or a new edge is already pending. -/
def FitsSpace (l : ReadLoop) : ReadEvent → Prop
  | .handle _ => ∀ k rest, l.phase = .handling (k :: rest) →
      (l.sources k).queue.length ≤ (l.sources k).handler.conn.inputBuffer.readvSpace ∨ (l.sources k).edge = true
  | _ => True

theorem fitsSpace_leavesNothing {l : ReadLoop} {e : ReadEvent} (h : FitsSpace l e) :
    LeavesNothing readHandler l e := by
  cases e with
  | handle report =>
    intro k rest s hphase hrun hqueue
    exact (handleEvent_leaves hrun (h k rest hphase)).resolve_right hqueue
  | _ => trivial

/-- **No readable connection is forgotten while reads keep up.**  In every run whose `HandleRead` calls find no more
bytes than the buffer's space, each connection with a non-empty receive queue has a pending edge whenever the loop
enters `epoll_wait`. -/
theorem readable_not_forgotten (hasWriteCompleteCallback : Bool) {es : List ReadEvent} {l : ReadLoop}
    (hfits : Meets (EdgeTrigger.Loop.step readHandler) FitsSpace (ReadLoop.start hasWriteCompleteCallback) es)
    (hrun : runFrom (EdgeTrigger.Loop.step readHandler) (ReadLoop.start hasWriteCompleteCallback) es = some l) :
    NoneForgotten l := by
  refine noneForgotten_of_run ?_ (Meets.mono (fun _ _ => fitsSpace_leavesNothing) hfits) hrun
  intro k hq
  exact absurd rfl hq

/-- A read that finds more bytes than the space leaves the rest behind, and no later event announces it: whatever
the loop and the other connections do, the bytes stay in the kernel until the socket itself changes. -/
theorem overrun_stays_unread {l l' l'' : ReadLoop} {k : ℕ} {rest : List ℕ} {cb : WfBuffer → WfBuffer}
    {w : WriteResult} {es : List ReadEvent} (hphase : l.phase = .handling (k :: rest)) (hrest : k ∉ rest)
    (hedge : (l.sources k).edge = false)
    (hover : (l.sources k).handler.conn.inputBuffer.readvSpace < (l.sources k).queue.length)
    (hhandle : l.step readHandler (.handle ⟨EPOLLIN, cb, w⟩) = some l')
    (hes : Meets (EdgeTrigger.Loop.step readHandler) (fun _ e => ¬ e.Concerns k) l' es)
    (hrun : runFrom (EdgeTrigger.Loop.step readHandler) l' es = some l'') :
    (l''.sources k).queue = (l.sources k).queue.drop (l.sources k).handler.conn.inputBuffer.readvSpace ∧
      (l''.sources k).queue ≠ [] ∧ (l''.sources k).edge = false := by
  have hne : (l.sources k).queue ≠ [] := List.ne_nil_of_length_pos (by omega)
  obtain ⟨buffer, hevent⟩ := handleEvent_in hne cb w
  have hrunk : readHandler.run ⟨EPOLLIN, cb, w⟩ (l.sources k) = some _ := hevent
  have hforgot := forgotten_of_handle hphase hrest hrunk hedge hhandle
  have hlast := forgotten_run hforgot hes hrun
  refine ⟨hlast.queue_eq, ?_, hlast.edge_eq⟩
  rw [hlast.queue_eq]
  exact List.ne_nil_of_length_pos (by rw [List.length_drop]; omega)

/-! ## One burst -/

def establish (p : Peered) : Peered :=
  { p with conn := (p.conn.connectEstablished.map Prod.fst).getD p.conn }

/-- A connection is established, `bytes` arrive at once and are reported, the loop handles the report and comes back
to `epoll_wait`.  The message callback is `DefaultMessageCallback`. -/
def burst (bytes : List UInt8) : List ReadEvent :=
  [.poll [], .runFunctors, .ctl 0 establish, .enterPoll, .arrive 0 bytes, .poll [0]] ++
    [.handle ⟨EPOLLIN, WfBuffer.retrieveAll, .wrote 0⟩, .runFunctors, .enterPoll]

def burstReported (bytes : List UInt8) : ReadLoop where
  sources := Function.update (ReadLoop.start false).sources 0
    ⟨bytes, false, establish ⟨TcpConnection.new false, false⟩⟩
  phase := .handling [0]

theorem watched_establish : watched (establish ⟨TcpConnection.new false, false⟩) = true := by
  decide

theorem burstReported_run {bytes : List UInt8} (hne : bytes ≠ []) :
    runFrom (EdgeTrigger.Loop.step readHandler) (ReadLoop.start false)
      [.poll [], .runFunctors, .ctl 0 establish, .enterPoll, .arrive 0 bytes, .poll [0]] =
      some (burstReported bytes) := by
  have hready : runFrom (EdgeTrigger.Loop.step readHandler) (ReadLoop.start false)
      [.poll [], .runFunctors, .ctl 0 establish, .enterPoll] =
      some ⟨(burstReported []).sources, .polling⟩ := rfl
  refine runFrom_append hready ?_
  simp only [runFrom, EdgeTrigger.Loop.step, hne, if_false, Option.bind_some]
  rw [if_pos]
  · simp only [Option.bind_some, Option.some.injEq, burstReported, EdgeTrigger.Loop.report, EdgeTrigger.Loop.modify]
    congr 1
    funext k
    by_cases hk : k = 0
    · subst hk
      simp [Source.arrive, Source.report]
    · simp [hk]
  · refine ⟨rfl, fun k hk => ?_⟩
    obtain rfl := List.mem_singleton.mp hk
    simp only [EdgeTrigger.Loop.modify, Function.update_self, burstReported, Source.arrive, readHandler, watched_establish,
      and_self]

theorem burst_run {bytes : List UInt8} (hne : bytes ≠ []) :
    ∃ l, runFrom (EdgeTrigger.Loop.step readHandler) (ReadLoop.start false) (burst bytes) = some l ∧
      l.phase = .polling ∧ (l.sources 0).queue = bytes.drop 66560 ∧ (l.sources 0).edge = false := by
  have hspace : ((burstReported bytes).sources 0).handler.conn.inputBuffer.readvSpace = 66560 :=
    WfBuffer.ofSize_readvSpace 1024
  obtain ⟨buffer, hevent⟩ := handleEvent_in (s := (burstReported bytes).sources 0) hne WfBuffer.retrieveAll (.wrote 0)
  rw [hspace] at hevent
  have hstep : EdgeTrigger.Loop.step readHandler (burstReported bytes)
      (.handle ⟨EPOLLIN, WfBuffer.retrieveAll, .wrote 0⟩) = some _ := congrArg (Option.map _) hevent
  refine ⟨_, runFrom_append (burstReported_run hne) (runFrom_cons_iff.mpr ⟨_, hstep, rfl⟩), rfl, ?_, rfl⟩
  simp only [EdgeTrigger.Loop.modify, Function.update_self]
  rfl

/-- 66561 bytes arriving at once at a new connection leave one byte that no event announces. -/
theorem burst_byte_forgotten :
    ∃ l, runFrom (EdgeTrigger.Loop.step readHandler) (ReadLoop.start false) (burst (List.replicate 66561 0)) = some l ∧
      ¬ NoneForgotten l := by
  have hsome : List.replicate 66561 (0 : UInt8) ≠ [] := List.cons_ne_nil _ _
  obtain ⟨l, hrun, hphase, hqueue, hedge⟩ := burst_run hsome
  refine ⟨l, hrun, fun h => ?_⟩
  have hne : (l.sources 0).queue ≠ [] := by
    rw [hqueue, List.drop_replicate]
    exact List.cons_ne_nil _ _
  exact absurd (h hphase 0 hne) (by simp [hedge])

theorem short_burst_not_forgotten :
    ∃ l, runFrom (EdgeTrigger.Loop.step readHandler) (ReadLoop.start false) (burst [1, 2, 3]) = some l ∧
      NoneForgotten l := by
  have hne : ([1, 2, 3] : List UInt8) ≠ [] := by decide
  obtain ⟨l, hrun, -⟩ := burst_run hne
  refine ⟨l, hrun, readable_not_forgotten false (Meets.append ?_ (burstReported_run hne) ?_) hrun⟩
  · simp [Meets, FitsSpace]
  · refine ⟨?_, fun _ _ => ⟨trivial, fun _ _ => ⟨trivial, fun _ _ => trivial⟩⟩⟩
    intro k rest hphase
    obtain ⟨rfl, -⟩ := List.cons.inj (EdgeTrigger.Phase.handling.inj hphase)
    have hspace : ((burstReported [1, 2, 3]).sources 0).handler.conn.inputBuffer.readvSpace = 66560 :=
      WfBuffer.ofSize_readvSpace 1024
    left
    rw [hspace]
    decide

end Chater.Net
