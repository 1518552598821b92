import Chater.Foundations.EdgeTrigger
import Chater.Net.Channel

/-!
# The acceptor under edge triggering

The listening socket with the accept queue the kernel holds for it.  `Acceptor::HandleRead` makes one call of
`sockets::Accept` for a report; when the process is out of descriptors it gives up its idle descriptor to take the
client off the queue and turn it away.  Either way one report takes at most one client, so a second client that was
queued before the report is left without an edge.
-/

namespace Chater.Net

open EdgeTrigger Foundations

set_option autoImplicit false

namespace Accept

def EPERM : ℕ := 1
def EINTR : ℕ := 4
def EMFILE : ℕ := 24
def EPROTO : ℕ := 71
def ECONNABORTED : ℕ := 103

/-- The errors of `::accept4` that `sockets::Accept` returns from; after any other it aborts the process. -/
def transient (errno : ℕ) : Bool := errno ∈ [EAGAIN, ECONNABORTED, EINTR, EPROTO, EPERM, EMFILE]

inductive Result
  | connfd
  | failed (errno : ℕ) (dropped : Bool)
deriving DecidableEq, Repr

end Accept

open Accept

structure Acceptor (C : Type) where
  channel : Channel
  hasNewConnectionCallback : Bool
  accepted : List C
  closed : List C

/-- What a handler call meets: the reported events, the answer to `::accept4`, and whether the `::accept` made with
the idle descriptor's number got a client. -/
structure AcceptReport where
  revents : Events
  result : Accept.Result
  idleAccept : Bool

namespace Acceptor

section Handler

variable {C : Type}

def new (hasNewConnectionCallback : Bool) : Acceptor C := ⟨Channel.new, hasNewConnectionCallback, [], []⟩

def listen (a : Acceptor C) : Acceptor C := { a with channel := a.channel.enableReading.1 }

def watched (a : Acceptor C) : Bool := a.channel.registered && a.channel.isReading

def newConnection (a : Acceptor C) (client : C) : Acceptor C :=
  if a.hasNewConnectionCallback then { a with accepted := a.accepted ++ [client] }
  else { a with closed := a.closed ++ [client] }

/-- The answers the kernel can give: a descriptor only for a waiting client, `EAGAIN` only without one. -/
def possible (queue : List C) : Accept.Result → Bool
  | .connfd => !queue.isEmpty
  | .failed errno _ => errno != EAGAIN || queue.isEmpty

def handleRead (report : AcceptReport) (s : Source C (Acceptor C)) : Option (Source C (Acceptor C)) :=
  if possible s.queue report.result then
    match report.result, s.queue with
    | .connfd, client :: rest => some { s with queue := rest, handler := s.handler.newConnection client }
    | .connfd, [] => none
    | .failed errno dropped, queue =>
      if transient errno then
        let queue := queue.drop dropped.toNat
        if errno = EMFILE ∧ report.idleAccept then
          some { s with
            queue := queue.drop 1, handler := { s.handler with closed := s.handler.closed ++ queue.take 1 } }
        else some { s with queue := queue }
      else none
  else none

def handleEvent (report : AcceptReport) (s : Source C (Acceptor C)) : Option (Source C (Acceptor C)) :=
  if s.queue ≠ [] ∧ s.edge = false ∧ report.revents.any EPOLLIN = false then none
  else if .read ∈ Channel.handleEvent report.revents then handleRead report s
  else some s

def acceptHandler : Handler AcceptReport C (Acceptor C) := ⟨watched, handleEvent⟩

/-! ## How many clients one call takes -/

def taken (report : AcceptReport) : ℕ :=
  match report.result with
  | .connfd => 1
  | .failed errno dropped => dropped.toNat + if errno = EMFILE ∧ report.idleAccept then 1 else 0

theorem handleRead_spec {report : AcceptReport} {s s' : Source C (Acceptor C)}
    (h : handleRead report s = some s') :
    s'.queue = s.queue.drop (taken report) ∧ s'.edge = s.edge := by
  unfold handleRead at h
  split_ifs at h
  split at h
  · rename_i client rest hresult hqueue
    obtain rfl := Option.some.inj h
    rw [hqueue, taken, hresult]
    exact ⟨rfl, rfl⟩
  · cases h
  · rename_i errno dropped hresult
    simp only [taken, hresult]
    split_ifs at h ⊢ with htransient hmfile
    · obtain rfl := Option.some.inj h
      exact ⟨List.drop_drop, rfl⟩
    · obtain rfl := Option.some.inj h
      exact ⟨rfl, rfl⟩

theorem read_mem_handleEvent {revents : Events} (h : revents.any EPOLLIN = true) :
    Channel.Callback.read ∈ Channel.handleEvent revents := by
  have hread : revents.any (EPOLLIN ||| EPOLLPRI ||| EPOLLRDHUP) = true := by
    rw [Channel.any_or_right, Channel.any_or_right, h]
    rfl
  simp [Channel.handleEvent, hread]

theorem handleEvent_cases {report : AcceptReport} {s s' : Source C (Acceptor C)}
    (h : handleEvent report s = some s') :
    s' = s ∧ (s.queue = [] ∨ s.edge = true) ∨
      s'.queue = s.queue.drop (taken report) ∧ s'.edge = s.edge := by
  unfold handleEvent at h
  split_ifs at h with hreport hread
  · exact .inr (handleRead_spec h)
  · obtain rfl := Option.some.inj h
    refine .inl ⟨rfl, ?_⟩
    by_contra hno
    obtain ⟨hqueue, hedge⟩ := not_or.mp hno
    apply hreport
    refine ⟨hqueue, Bool.eq_false_iff.mpr hedge, Bool.eq_false_iff.mpr fun hin => ?_⟩
    exact hread (read_mem_handleEvent hin)

theorem handleEvent_leaves {report : AcceptReport} {s s' : Source C (Acceptor C)}
    (h : handleEvent report s = some s') (htakes : s.queue.length ≤ taken report ∨ s.edge = true) :
    s'.edge = true ∨ s'.queue = [] := by
  obtain ⟨rfl, hs⟩ | ⟨hqueue, hedge⟩ := handleEvent_cases h
  · exact hs.symm
  · rw [hqueue, hedge]
    exact htakes.symm.imp_right List.drop_eq_nil_of_le

end Handler
end Acceptor

/-! ## Runs of the base loop -/

open Acceptor

section Runs

variable {C : Type}

abbrev AcceptLoop (C : Type) := EdgeTrigger.Loop Unit C (Acceptor C)

abbrev AcceptEvent (C : Type) := EdgeTrigger.Event Unit AcceptReport C (Acceptor C)

def AcceptLoop.start (hasNewConnectionCallback : Bool) : AcceptLoop C where
  sources _ := ⟨[], false, Acceptor.new hasNewConnectionCallback⟩
  phase := .polling

/-- Each `HandleRead` takes every client that is waiting, or a new edge is already pending. -/
def TakesWaiting (l : AcceptLoop C) : AcceptEvent C → Prop
  | .handle report => (l.sources ()).queue.length ≤ taken report ∨ (l.sources ()).edge = true
  | _ => True

instance (l : AcceptLoop C) (e : AcceptEvent C) : Decidable (TakesWaiting l e) := by
  unfold TakesWaiting
  split <;> infer_instance

theorem takesWaiting_leavesNothing {l : AcceptLoop C} {e : AcceptEvent C} (h : TakesWaiting l e) :
    LeavesNothing acceptHandler l e := by
  cases e with
  | handle report =>
    intro k rest s hphase hrun hqueue
    exact (handleEvent_leaves hrun h).resolve_right hqueue
  | _ => trivial

/-- **No pending client is forgotten while accepts keep up.**  In every run whose `HandleRead` calls take every
waiting client, a non-empty accept queue has a pending edge whenever the base loop enters `epoll_wait`. -/
theorem pending_client_not_forgotten (hasNewConnectionCallback : Bool) {es : List (AcceptEvent C)}
    {l : AcceptLoop C}
    (htakes : Meets (EdgeTrigger.Loop.step acceptHandler) TakesWaiting (AcceptLoop.start hasNewConnectionCallback) es)
    (hrun : runFrom (EdgeTrigger.Loop.step acceptHandler) (AcceptLoop.start hasNewConnectionCallback) es = some l) :
    NoneForgotten l := by
  refine noneForgotten_of_run ?_ (Meets.mono (fun _ _ => takesWaiting_leavesNothing) htakes) hrun
  intro k hq
  exact absurd rfl hq

/-- Clients that a `HandleRead` leaves without an edge wait until the listening socket itself changes, whatever else
the base loop does. -/
theorem left_client_waits {l l' l'' : AcceptLoop C} {rest : List Unit} {report : AcceptReport}
    {es : List (AcceptEvent C)} (hphase : l.phase = .handling (() :: rest)) (hrest : () ∉ rest)
    (hedge : (l.sources ()).edge = false) (hmore : taken report < (l.sources ()).queue.length)
    (hhandle : l.step acceptHandler (.handle report) = some l')
    (hes : Meets (EdgeTrigger.Loop.step acceptHandler) (fun _ e => ¬ e.Concerns ()) l' es)
    (hrun : runFrom (EdgeTrigger.Loop.step acceptHandler) l' es = some l'') :
    (l''.sources ()).queue = (l.sources ()).queue.drop (taken report) ∧ (l''.sources ()).queue ≠ [] ∧
      (l''.sources ()).edge = false := by
  simp only [EdgeTrigger.Loop.step, hphase] at hhandle
  obtain ⟨s, hs, hl'⟩ := Option.map_eq_some_iff.mp hhandle
  have hne : (l.sources ()).queue ≠ [] := List.ne_nil_of_length_pos (by omega)
  obtain ⟨-, hidle⟩ | ⟨hqueue, hsedge⟩ := handleEvent_cases hs
  · exact absurd hidle (by simp [hne, hedge])
  have hforgot : Forgotten l' () s.queue := by
    apply forgotten_of_handle hphase hrest hs (hsedge.trans hedge)
    simp [EdgeTrigger.Loop.step, hphase, hs, ← hl']
  have hlast := forgotten_run hforgot hes hrun
  rw [hqueue] at hlast
  refine ⟨hlast.queue_eq, ?_, hlast.edge_eq⟩
  rw [hlast.queue_eq]
  exact List.ne_nil_of_length_pos (by rw [List.length_drop]; omega)

end Runs

/-! ## Two clients at once -/

def arrivals (clients : List ℕ) : List (AcceptEvent ℕ) :=
  [.poll [], .runFunctors, .ctl () Acceptor.listen, .enterPoll, .arrive () clients, .poll [()]] ++
    [.handle ⟨EPOLLIN, .connfd, false⟩, .runFunctors, .enterPoll]

/-- Two clients that arrive before one report: the second is left in the queue and no event announces it. -/
theorem second_client_forgotten :
    ∃ l, runFrom (EdgeTrigger.Loop.step acceptHandler) (AcceptLoop.start true) (arrivals [1, 2]) = some l ∧
      ¬ NoneForgotten l := by
  refine ⟨_, rfl, fun h => ?_⟩
  exact absurd (h rfl () (by decide)) (by decide)

/-- The second client arrives when the first has been taken. -/
def oneByOne : List (AcceptEvent ℕ) :=
  arrivals [1] ++ [.arrive () [2], .poll [()], .handle ⟨EPOLLIN, .connfd, false⟩, .runFunctors, .enterPoll]

theorem oneByOne_not_forgotten :
    ∃ l, runFrom (EdgeTrigger.Loop.step acceptHandler) (AcceptLoop.start true) oneByOne = some l ∧
      (l.sources ()).handler.accepted = [1, 2] ∧ NoneForgotten l := by
  have htakes : Meets (EdgeTrigger.Loop.step acceptHandler) TakesWaiting (AcceptLoop.start true) oneByOne := by decide
  exact ⟨_, rfl, rfl, pending_client_not_forgotten true htakes rfl⟩

end Chater.Net
