import Chater.Foundations.TaskQueue
import Chater.Zmq.TradeGateway

/-!
# Which requests are answered

Every message that the dispatch loop receives is in one place: waiting in the pool's queue or in a thread's hands,
answered by a reply that a thread has made, or lost.  A message is lost where a function returns without a reply: when
the connection limit is reached or the pool is shut down, when the type is unknown, the body does not parse or no handler
is set, and when the handler returns false.  Pings are always answered.  A reply is under way, sent, or dropped because
the socket is gone or refuses a frame.
-/

namespace Chater.Zmq

open Foundations SharedWire SharedWire.Senders TaskQueue

set_option autoImplicit false

/-! ## Replies -/

def Phase.replies : Phase → Multiset HeadTypeBody
  | .replying reply => {reply}
  | _ => 0

/-- A pong for a ping, and a response of the paired type for a request, to the identity the message came from. -/
def Answers (m reply : HeadTypeBody) : Prop :=
  reply.head = m.head ∧
    (m.msgType = kPingType ∧ reply.msgType = kPongType ∨
      ∃ kind : TradeRequest, m.msgType = kind.msgType ∧ reply.msgType = kind.replyType)

/-- An answer, or what is taken as a rejection of a message that is not a ping. -/
def AnswersOrRejects (rejects : HeadTypeBody → HeadTypeBody → Prop) (m reply : HeadTypeBody) : Prop :=
  Answers m reply ∨ m.msgType ≠ kPingType ∧ reply.head = m.head ∧ rejects m reply

namespace TradeGateway

def sent (s : TradeGateway) : Multiset HeadTypeBody := s.out.returned.map Prod.snd

/-- The messages received and the messages sent match one to one.  A message is sent when its `SendRouterMessage` has
returned; whether the frames of two such calls are mixed on the socket is another question. -/
def AllAnswered (rejects : HeadTypeBody → HeadTypeBody → Prop) (s : TradeGateway) : Prop :=
  Multiset.Rel (fun m : Received => AnswersOrRejects rejects m.toHeadTypeBody) s.received s.sent

/-- All submitted tasks are finished, and no call is under way. -/
def Quiescent (s : TradeGateway) : Prop := s.tasks = [] ∧ ∀ t, s.free t = true

/-- Nothing stops the server and sending succeeds. -/
def Undisturbed : Event → Prop
  | .stop => False
  | .frame _ taken => taken = true
  | _ => True

variable (parses : TradeRequest → Frame → Bool) (cfg : GatewayConfig)

/-- The step does not lose a message. -/
def Answerable (s : TradeGateway) : Event → Prop
  | .poll (.message _ m) =>
    m.msgType = kPingType ∨ s.Admitted cfg m.head ∧ (cfg.threads = none ∨ s.poolRunning = true)
  | .enter t => ∀ m ∈ (s.phase t).unhandled, (onMessage parses cfg s.running m.toHeadTypeBody).isSome
  | .handle _ response => response.isSome
  | _ => True

instance (s : TradeGateway) (identity : Identity) : Decidable (s.Admitted cfg identity) :=
  inferInstanceAs (Decidable (_ → _))

instance (s : TradeGateway) : (e : Event) → Decidable (Answerable parses cfg s e)
  | .poll (.message _ _) => inferInstanceAs (Decidable (_ ∨ _))
  | .enter t => inferInstanceAs (Decidable (∀ m ∈ (s.phase t).unhandled, _))
  | .handle _ response => inferInstanceAs (Decidable (response.isSome = true))
  | .poll .error | .poll (.timeout _) | .poll .noInput | .poll .recvFailed => isTrue trivial
  | .take _ | .reply _ | .frame _ _ | .exitLoop | .stop | .shutdownPool => isTrue trivial

/-! ## Where a message is -/

def threadSet : Finset Thread := insert .dispatch ((Finset.range (cfg.threads.getD 0)).image .worker)

def inHands (s : TradeGateway) (t : Thread) : Multiset Received := (s.phase t).unhandled

def replyOf (s : TradeGateway) (t : Thread) : Multiset HeadTypeBody :=
  (s.phase t).replies + (s.out.current t : Multiset HeadTypeBody)

def waiting (s : TradeGateway) : Multiset Received := s.tasks + ∑ t ∈ threadSet cfg, s.inHands t

def replies (s : TradeGateway) : Multiset HeadTypeBody := s.sent + ∑ t ∈ threadSet cfg, s.replyOf t

/-- `pairs` are the replies made so far, each with the message it was made for.  Every message received is one of theirs,
waiting or lost, and every reply made is under way, sent or dropped. -/
structure Booked (s : TradeGateway) (pairs : Multiset (Received × HeadTypeBody))
    (lost : Multiset Received) (dropped : Multiset HeadTypeBody) : Prop where
  others : ∀ t, t ∉ threadSet cfg → s.free t = true
  kinds : ∀ t kind m, s.phase t = .handling kind m → m.msgType = kind.msgType
  messages : (s.received : Multiset Received) = pairs.map Prod.fst + s.waiting cfg + lost
  replies : pairs.map Prod.snd = s.replies cfg + dropped

/-- The reply that a step makes, with the message it is made for: a pong by the dispatch thread, or the handler's response
by the thread that called it. -/
def madeIn (s : TradeGateway) : Event → Multiset (Received × HeadTypeBody)
  | .poll (.message _ m) => if m.msgType = kPingType then {(s.next m, ⟨⟨kPongType, []⟩, m.head⟩)} else 0
  | .handle t (some body) =>
    match s.phase t with
    | .handling kind m => {(m, ⟨⟨kind.replyType, body⟩, m.head⟩)}
    | _ => 0
  | _ => 0

variable {parses cfg} {s s' : TradeGateway} {pairs made : Multiset (Received × HeadTypeBody)}
  {lost new : Multiset Received} {dropped gone : Multiset HeadTypeBody}

theorem dispatch_mem : Thread.dispatch ∈ threadSet cfg := Finset.mem_insert_self _ _

theorem worker_mem {i n : ℕ} (hthreads : cfg.threads = some n) (hi : i < n) : Thread.worker i ∈ threadSet cfg := by
  refine Finset.mem_insert_of_mem (Finset.mem_image_of_mem _ (Finset.mem_range.mpr ?_))
  rwa [hthreads]

theorem Booked.mem_of_not_free (h : s.Booked cfg pairs lost dropped) {t : Thread} (ht : ¬ s.free t = true) :
    t ∈ threadSet cfg := by
  by_contra hnot
  exact ht (h.others t hnot)

theorem Booked.mem_of_phase (h : s.Booked cfg pairs lost dropped) {t : Thread} {p : Phase} (hphase : s.phase t = p)
    (hp : p ≠ .idle) : t ∈ threadSet cfg :=
  h.mem_of_not_free fun hfree => hp (hphase.symm.trans (free_iff.mp hfree).1)

theorem Booked.mem_of_call (h : s.Booked cfg pairs lost dropped) {t : Thread} {c : Sending HeadTypeBody Frame}
    (hcall : s.out.calls t = some c) : t ∈ threadSet cfg := by
  refine h.mem_of_not_free fun hfree => ?_
  rw [(free_iff.mp hfree).2] at hcall
  cases hcall

/-- A step of thread `t`: `got` is what it receives, `made` the replies it makes, `new` the messages it loses and `gone`
the replies it drops. -/
theorem Booked.book (h : s.Booked cfg pairs lost dropped) {t : Thread} (ht : t ∈ threadSet cfg)
    (hothers : ∀ u, u ≠ t → s'.phase u = s.phase u ∧ s'.out.calls u = s.out.calls u)
    (hkinds : ∀ kind m, s'.phase t = .handling kind m → m.msgType = kind.msgType)
    (got : Multiset Received) (hreceived : (s'.received : Multiset Received) = s.received + got)
    (hgiven : s.sent + s.replyOf t + made.map Prod.snd = s'.sent + s'.replyOf t + gone)
    (hbalance : got + (s.tasks + s.inHands t) = s'.tasks + s'.inHands t + made.map Prod.fst + new) :
    s'.Booked cfg (pairs + made) (lost + new) (dropped + gone) := by
  have hhands : ∑ u ∈ threadSet cfg, s'.inHands u + s.inHands t = ∑ u ∈ threadSet cfg, s.inHands u + s'.inHands t :=
    sum_change ht fun u hu => by rw [inHands, inHands, (hothers u hu).1]
  have hreply : ∑ u ∈ threadSet cfg, s'.replyOf u + s.replyOf t = ∑ u ∈ threadSet cfg, s.replyOf u + s'.replyOf t :=
    sum_change ht fun u hu => by rw [replyOf, replyOf, current, current, (hothers u hu).1, (hothers u hu).2]
  refine ⟨fun u hu => ?_, fun u kind m hu => ?_, ?_, ?_⟩
  · have hne : u ≠ t := fun heq => hu (heq ▸ ht)
    rw [free_iff, (hothers u hne).1, (hothers u hne).2]
    exact free_iff.mp (h.others u hu)
  · by_cases heq : u = t
    · exact hkinds kind m (heq ▸ hu)
    · exact h.kinds u kind m ((hothers u heq).1 ▸ hu)
  · apply add_right_cancel (b := s.tasks + s.inHands t)
    calc (s'.received : Multiset Received) + (s.tasks + s.inHands t)
        = pairs.map Prod.fst + s.waiting cfg + lost + (got + (s.tasks + s.inHands t)) := by
          rw [hreceived, h.messages]; abel
      _ = pairs.map Prod.fst + made.map Prod.fst + (s.tasks + s'.tasks) +
            (∑ u ∈ threadSet cfg, s.inHands u + s'.inHands t) + lost + new := by rw [hbalance, waiting]; abel
      _ = (pairs + made).map Prod.fst + s'.waiting cfg + (lost + new) + (s.tasks + s.inHands t) := by
        rw [← hhands, waiting, Multiset.map_add]; abel
  · apply add_right_cancel (b := s.replyOf t)
    calc (pairs + made).map Prod.snd + s.replyOf t
        = ∑ u ∈ threadSet cfg, s.replyOf u + (s.sent + s.replyOf t + made.map Prod.snd) + dropped := by
          rw [Multiset.map_add, h.replies, TradeGateway.replies]; abel
      _ = s'.sent + (∑ u ∈ threadSet cfg, s.replyOf u + s'.replyOf t) + gone + dropped := by rw [hgiven]; abel
      _ = s'.replies cfg + (dropped + gone) + s.replyOf t := by rw [← hreply, TradeGateway.replies]; abel

/-- A step of thread `t` in which nothing is sent and the queue stays as it is. -/
theorem Booked.goOn (h : s.Booked cfg pairs lost dropped) {t : Thread} (ht : t ∈ threadSet cfg) {p : Phase}
    (hphase : s'.phase = Function.update s.phase t p) (hsame : s'.out = s.out ∧ s'.tasks = s.tasks)
    (hkinds : ∀ kind m, p = .handling kind m → m.msgType = kind.msgType) (got : Multiset Received)
    (hreceived : (s'.received : Multiset Received) = s.received + got)
    (hgiven : (s.phase t).replies + made.map Prod.snd = p.replies + gone)
    (hbalance : got + ((s.phase t).unhandled : Multiset Received) = p.unhandled + made.map Prod.fst + new) :
    s'.Booked cfg (pairs + made) (lost + new) (dropped + gone) := by
  obtain ⟨hout, htasks⟩ := hsame
  refine h.book ht (fun u hu => ⟨?_, by rw [hout]⟩) (fun kind m hm => ?_) got hreceived ?_ ?_
  · rw [hphase, Function.update_of_ne hu]
  · rw [hphase, Function.update_self] at hm
    exact hkinds kind m hm
  · rw [sent, sent, replyOf, replyOf, hout, hphase, Function.update_self]
    calc (s.out.returned.map Prod.snd : Multiset HeadTypeBody) + ((s.phase t).replies + s.out.current t) +
          made.map Prod.snd
        = s.out.returned.map Prod.snd + s.out.current t + ((s.phase t).replies + made.map Prod.snd) := by abel
      _ = s.out.returned.map Prod.snd + (p.replies + s.out.current t) + gone := by rw [hgiven]; abel
  · rw [inHands, inHands, hphase, Function.update_self, htasks, add_left_comm, hbalance]
    abel

/-- A message is received and lost. -/
theorem Booked.lose (h : s.Booked cfg pairs lost dropped) {m : Received} (hphase : s'.phase = s.phase)
    (hsame : s'.out = s.out ∧ s'.tasks = s.tasks) (hreceived : s'.received = s.received ++ [m]) :
    s'.Booked cfg (pairs + 0) (lost + {m}) (dropped + 0) := by
  refine h.goOn dispatch_mem ?_ hsame (h.kinds .dispatch) {m} ?_ rfl (by rw [Multiset.map_zero]; abel)
  · rw [hphase, Function.update_eq_self]
  · rw [hreceived, ← Multiset.coe_add, Multiset.coe_singleton]

/-! ## One step -/

theorem answerable_of_quiet {e : Polled} (he : received? e = []) : Answerable parses cfg s (.poll e) := by
  cases e with
  | message now m => cases he
  | error | timeout | noInput | recvFailed => trivial

theorem onMessage_kind {running : Bool} {m : HeadTypeBody} {kind : TradeRequest}
    (h : onMessage parses cfg running m = some kind) : m.msgType = kind.msgType := by
  unfold onMessage at h
  split_ifs at h
  have hfound := List.find?_some (Option.filter_eq_some_iff.mp h).1
  exact (beq_iff_eq.mp hfound).symm

theorem Stepped.stop_eq {e : Event} (hstep : Stepped parses cfg s e s') (hcalm : Undisturbed e) : s'.stop = s.stop := by
  cases hstep with
  | stop => cases hcalm
  | _ => rfl

theorem madeIn_ping {now : ℕ} {m : HeadTypeBody} (h : m.msgType = kPingType) :
    s.madeIn (.poll (.message now m)) = {(s.next m, ⟨⟨kPongType, []⟩, m.head⟩)} := if_pos h

theorem madeIn_not_ping {now : ℕ} {m : HeadTypeBody} (h : m.msgType ≠ kPingType) :
    s.madeIn (.poll (.message now m)) = 0 := if_neg h

theorem madeIn_quiet {e : Polled} (he : received? e = []) : s.madeIn (.poll e) = 0 := by
  cases e with
  | message now m => cases he
  | error | timeout | noInput | recvFailed => rfl

theorem madeIn_handle {t : Thread} {kind : TradeRequest} {m : Received} (h : s.phase t = .handling kind m)
    (body : Frame) : s.madeIn (.handle t (some body)) = {(m, ⟨⟨kind.replyType, body⟩, m.head⟩)} := by
  rw [madeIn, h]

theorem mem_madeIn {e : Event} {p : Received × HeadTypeBody} (hp : p ∈ s.madeIn e) :
    p.1.msgType = kPingType ∧ p.2 = ⟨⟨kPongType, []⟩, p.1.head⟩ ∨
      ∃ t kind body, e = .handle t (some body) ∧ s.phase t = .handling kind p.1 ∧
        p.2 = ⟨⟨kind.replyType, body⟩, p.1.head⟩ := by
  unfold madeIn at hp
  split at hp
  · split_ifs at hp with hping
    · rw [Multiset.mem_singleton.mp hp]
      exact .inl ⟨hping, rfl⟩
    · cases Multiset.notMem_zero p hp
  · split at hp
    · rename_i kind m hphase
      rw [Multiset.mem_singleton.mp hp]
      exact .inr ⟨_, kind, _, rfl, hphase, rfl⟩
    · cases Multiset.notMem_zero p hp
  · cases Multiset.notMem_zero p hp

variable (parses cfg s pairs lost dropped) in
/-- What a step from `s` to `s'` does to the books. -/
def Books (e : Event) (s' : TradeGateway) : Prop :=
  ∃ new gone, s'.Booked cfg (pairs + s.madeIn e) (lost + new) (dropped + gone) ∧
    (new = 0 ↔ Answerable parses cfg s e) ∧ (Undisturbed e → s.stop = .notCalled → gone = 0)

theorem Booked.books_zero {e : Event} (hmade : s.madeIn e = 0) (hanswerable : Answerable parses cfg s e)
    (h : s'.Booked cfg (pairs + 0) (lost + 0) (dropped + 0)) : Books parses cfg s pairs lost dropped e s' :=
  ⟨0, 0, hmade ▸ h, iff_of_true rfl hanswerable, fun _ _ => rfl⟩

theorem Booked.books_made {e : Event} {m : Received} {r : HeadTypeBody} (hmade : s.madeIn e = {(m, r)})
    (hanswerable : Answerable parses cfg s e) (h : s'.Booked cfg (pairs + {(m, r)}) (lost + 0) (dropped + 0)) :
    Books parses cfg s pairs lost dropped e s' :=
  ⟨0, 0, hmade ▸ h, iff_of_true rfl hanswerable, fun _ _ => rfl⟩

theorem Booked.books_lost {e : Event} (m : Received) (hmade : s.madeIn e = 0)
    (hanswerable : ¬ Answerable parses cfg s e) (h : s'.Booked cfg (pairs + 0) (lost + {m}) (dropped + 0)) :
    Books parses cfg s pairs lost dropped e s' :=
  ⟨{m}, 0, hmade ▸ h, iff_of_false (Multiset.singleton_ne_zero m) hanswerable, fun _ _ => rfl⟩

theorem Booked.books_dropped {e : Event} (r : HeadTypeBody) (hmade : s.madeIn e = 0)
    (hanswerable : Answerable parses cfg s e) (hdisturbed : Undisturbed e → s.stop ≠ .notCalled)
    (h : s'.Booked cfg (pairs + 0) (lost + 0) (dropped + {r})) : Books parses cfg s pairs lost dropped e s' :=
  ⟨0, {r}, hmade ▸ h, iff_of_true rfl hanswerable, fun hcalm hstop => absurd hstop (hdisturbed hcalm)⟩

theorem Booked.stepped {e : Event} (h : s.Booked cfg pairs lost dropped) (hstep : Stepped parses cfg s e s') :
    Books parses cfg s pairs lost dropped e s' := by
  cases hstep with
  | quiet e l hpolls he =>
    refine Booked.books_zero (madeIn_quiet he) (answerable_of_quiet he) ?_
    simp only [add_zero]
    exact ⟨h.others, h.kinds, h.messages, h.replies⟩
  | exitLoop | shutdownPool | stop =>
    refine Booked.books_zero rfl trivial ?_
    simp only [add_zero]
    exact ⟨h.others, h.kinds, h.messages, h.replies⟩
  | ping now m l out hpolls hping hbegin =>
    obtain ⟨hidle, rfl⟩ := begin_spec hbegin
    refine Booked.books_made (madeIn_ping hping) (.inl hping) ?_
    refine h.book dispatch_mem (fun u hu => ⟨rfl, Function.update_of_ne hu _ _⟩) (h.kinds .dispatch) {s.next m} rfl ?_ ?_
    · simp [replyOf, sent, current, hidle, add_assoc]
    · change _ = ↑s.tasks + s.inHands .dispatch + {s.next m} + 0
      abel
  | rejected now m l hpolls hping hlimit =>
    have hbad : ¬ Answerable parses cfg s (.poll (.message now m)) :=
      fun hgood => hgood.elim hping fun hadmitted => hlimit hadmitted.1
    exact Booked.books_lost (s.next m) (madeIn_not_ping hping) hbad (h.lose rfl ⟨rfl, rfl⟩ rfl)
  | tooLate now m l n hpolls hping hthreads hpool =>
    have hbad : ¬ Answerable parses cfg s (.poll (.message now m)) := by
      rintro (heq | ⟨-, hnone | hruns⟩)
      · exact hping heq
      · rw [hthreads] at hnone
        cases hnone
      · rw [hpool] at hruns
        cases hruns
    exact Booked.books_lost (s.next m) (madeIn_not_ping hping) hbad (h.lose rfl ⟨rfl, rfl⟩ rfl)
  | submit now m l n hpolls hping hlimit hthreads hpool =>
    refine Booked.books_zero (madeIn_not_ping hping) (.inr ⟨hlimit, .inr hpool⟩) ?_
    refine h.book dispatch_mem (fun u hu => ⟨rfl, rfl⟩) (h.kinds .dispatch) {s.next m} rfl rfl ?_
    change _ = ((s.tasks ++ [s.next m] : List Received) : Multiset Received) + s.inHands .dispatch + 0 + 0
    rw [← Multiset.coe_add, Multiset.coe_singleton]
    abel
  | direct now m l hpolls hping hlimit hthreads =>
    have hidle := (free_iff.mp hpolls.1).1
    refine Booked.books_zero (madeIn_not_ping hping) (.inr ⟨hlimit, .inl hthreads⟩) ?_
    refine h.goOn dispatch_mem rfl ⟨rfl, rfl⟩ (fun _ _ => Phase.noConfusion) {s.next m} rfl ?_ ?_
    · rw [hidle]
      rfl
    · rw [hidle]
      rfl
  | take i n m tasks hthreads hi hfree htasks =>
    have hidle := (free_iff.mp hfree).1
    refine Booked.books_zero rfl trivial ?_
    refine h.book (worker_mem hthreads hi) (fun u hu => ⟨Function.update_of_ne hu _ _, rfl⟩) ?_ 0 (add_zero _).symm ?_ ?_
    · simp [setPhase]
    · simp [replyOf, sent, setPhase, hidle, Phase.replies]
    · simp [inHands, setPhase, hidle, Phase.unhandled, htasks, ← Multiset.cons_coe, ← Multiset.singleton_add, add_comm]
  | passOver t m hphase hnone =>
    have hbad : ¬ Answerable parses cfg s (.enter t) := by
      simp [Answerable, hphase, hnone, Phase.unhandled]
    refine Booked.books_lost m rfl hbad ?_
    exact h.goOn (h.mem_of_phase hphase Phase.noConfusion) rfl ⟨rfl, rfl⟩ (fun _ _ => Phase.noConfusion) 0
      (add_zero _).symm (by rw [hphase]; rfl) (by rw [hphase]; rfl)
  | callHandler t m kind hphase hsome =>
    refine Booked.books_zero rfl (by simp [Answerable, hphase, hsome, Phase.unhandled]) ?_
    refine h.goOn (h.mem_of_phase hphase Phase.noConfusion) rfl ⟨rfl, rfl⟩ (fun kind' m' hm' => ?_) 0
      (add_zero _).symm (by rw [hphase]; rfl) (by rw [hphase]; rfl)
    cases hm'
    exact onMessage_kind hsome
  | answer t kind m body hphase =>
    refine Booked.books_made (madeIn_handle hphase body) rfl ?_
    exact h.goOn (h.mem_of_phase hphase Phase.noConfusion) rfl ⟨rfl, rfl⟩ (fun _ _ => Phase.noConfusion) 0
      (add_zero _).symm (by rw [hphase]; rfl) (by rw [hphase]; rfl)
  | noAnswer t kind m hphase =>
    refine Booked.books_lost m rfl Bool.false_ne_true ?_
    exact h.goOn (h.mem_of_phase hphase Phase.noConfusion) rfl ⟨rfl, rfl⟩ (fun _ _ => Phase.noConfusion) 0
      (add_zero _).symm (by rw [hphase]; rfl) (by rw [hphase]; rfl)
  | noSocket t reply hphase hstop =>
    refine Booked.books_dropped reply rfl trivial (fun _ => by rw [hstop]; exact StopPhase.noConfusion) ?_
    exact h.goOn (h.mem_of_phase hphase Phase.noConfusion) rfl ⟨rfl, rfl⟩ (fun _ _ => Phase.noConfusion) 0
      (add_zero _).symm (by rw [hphase]; rfl) (by rw [hphase]; rfl)
  | reply t reply out hphase hbegin =>
    obtain ⟨hidle, rfl⟩ := begin_spec hbegin
    refine Booked.books_zero rfl trivial ?_
    refine h.book (h.mem_of_phase hphase Phase.noConfusion)
      (fun u hu => ⟨Function.update_of_ne hu _ _, Function.update_of_ne hu _ _⟩) ?_ 0 (add_zero _).symm ?_ ?_
    · simp [setPhase]
    · simp [replyOf, sent, setPhase, hidle, hphase, Phase.replies, current]
    · simp [inHands, setPhase, hphase, Phase.unhandled]
  | frame t out hsend =>
    obtain ⟨m, f, left, hcall, -, -, -, hcalls, hreturned⟩ := sendFrame_spec hsend
    refine Booked.books_zero rfl trivial ?_
    refine h.book (h.mem_of_call hcall) (fun u hu => ⟨rfl, ?_⟩) (h.kinds t) 0 (add_zero _).symm ?_ (by simp [inHands])
    · rw [hcalls, Function.update_of_ne hu]
    · -- the last frame moves the message from the call to the messages sent
      cases hleft : left.isEmpty
      · simp [replyOf, sent, current, hcalls, hreturned, hcall, hleft]
      · simp [replyOf, sent, current, hcalls, hreturned, hcall, hleft]
        rw [← Multiset.coe_add, Multiset.coe_singleton]
        abel
  | refused t out hrefuse =>
    obtain ⟨c, hcall, rfl⟩ := refuseFrame_spec hrefuse
    refine Booked.books_dropped c.message rfl trivial Bool.noConfusion ?_
    refine h.book (h.mem_of_call hcall) (fun u hu => ⟨rfl, Function.update_of_ne hu _ _⟩) (h.kinds t) 0
      (add_zero _).symm ?_ (by simp [inHands])
    simp [replyOf, sent, current, hcall, add_assoc]

/-! ## Whole runs -/

theorem start_booked : start.Booked cfg 0 0 0 where
  others _ _ := rfl
  kinds _ _ _ h := by cases h
  messages := by simp [waiting, start, inHands, Phase.unhandled]
  replies := by simp [TradeGateway.replies, sent, replyOf, current, start, Senders.start, Phase.replies]

theorem Booked.answers_madeIn (h : s.Booked cfg pairs lost dropped) {e : Event} {p : Received × HeadTypeBody}
    (hp : p ∈ s.madeIn e) : Answers p.1.toHeadTypeBody p.2 := by
  obtain ⟨hping, hreply⟩ | ⟨t, kind, body, -, hphase, hreply⟩ := mem_madeIn hp
  · rw [hreply]
    exact ⟨rfl, .inl ⟨hping, rfl⟩⟩
  · rw [hreply]
    exact ⟨rfl, .inr ⟨kind, h.kinds t kind p.1 hphase, rfl⟩⟩

/-- In a run that nothing disturbs every reply made is sent or under way.  It loses no message exactly when none of its
steps does. -/
theorem Booked.run {es : List Event} (hcalm : ∀ e ∈ es, Undisturbed e) (hstop : s.stop = .notCalled)
    (h : s.Booked cfg pairs lost 0) (hpairs : ∀ p ∈ pairs, Answers p.1.toHeadTypeBody p.2)
    (hrun : runFrom (step parses cfg) s es = some s') :
    ∃ pairs' new, s'.Booked cfg pairs' (lost + new) 0 ∧ (∀ p ∈ pairs', Answers p.1.toHeadTypeBody p.2) ∧
      (new = 0 ↔ Meets (step parses cfg) (Answerable parses cfg) s es) := by
  induction es generalizing s pairs lost with
  | nil =>
    obtain rfl := Option.some.inj hrun
    exact ⟨pairs, 0, (add_zero lost).symm ▸ h, hpairs, iff_of_true rfl trivial⟩
  | cons e es ih =>
    obtain ⟨m, hstep, hrest⟩ := runFrom_cons_iff.mp hrun
    have hstepped := stepped_of_step parses hstep
    obtain ⟨new, gone, hm, hnew, hgone⟩ := h.stepped hstepped
    have hcalm' := hcalm e List.mem_cons_self
    rw [hgone hcalm' hstop, add_zero] at hm
    have hanswers : ∀ p ∈ pairs + s.madeIn e, Answers p.1.toHeadTypeBody p.2 :=
      fun p hp => (Multiset.mem_add.mp hp).elim (hpairs p) h.answers_madeIn
    obtain ⟨pairs', more, hs', hpairs', hmore⟩ := ih (fun e he => hcalm e (List.mem_cons_of_mem _ he))
      ((hstepped.stop_eq hcalm').trans hstop) hm hanswers hrest
    refine ⟨pairs', new + more, add_assoc lost new more ▸ hs', hpairs', ?_⟩
    rw [meets_cons_iff hstep, ← hnew, ← hmore, add_eq_zero]

/-- When nothing is under way, each message received has its reply among those sent or is lost. -/
theorem Booked.of_quiescent (h : s.Booked cfg pairs lost 0) (hquiet : s.Quiescent) :
    (s.received : Multiset Received) = pairs.map Prod.fst + lost ∧ pairs.map Prod.snd = s.sent := by
  have hwaiting : s.waiting cfg = 0 := by
    simp [waiting, inHands, hquiet.1, unhandled_of_free (hquiet.2 _)]
  have hreplies : s.replies cfg = s.sent := by
    have hreply : ∀ t, s.replyOf t = 0 := fun t => by
      obtain ⟨hidle, hcalls⟩ := free_iff.mp (hquiet.2 t)
      simp [replyOf, current, hidle, hcalls, Phase.replies]
    simp [TradeGateway.replies, hreply]
  refine ⟨?_, ?_⟩
  · rw [h.messages, hwaiting, add_zero]
  · rw [h.replies, hreplies, add_zero]

/-- **Every request is answered exactly in the runs that lose none.** -/
theorem allAnswered_iff (rejects : HeadTypeBody → HeadTypeBody → Prop) {es : List Event}
    (hrun : runFrom (step parses cfg) start es = some s) (hcalm : ∀ e ∈ es, Undisturbed e) (hquiet : s.Quiescent) :
    s.AllAnswered rejects ↔ Meets (step parses cfg) (Answerable parses cfg) start es := by
  obtain ⟨pairs, lost, hbooked, hpairs, hlost⟩ := start_booked.run hcalm rfl (by simp) hrun
  rw [zero_add] at hbooked
  obtain ⟨hsplit, hsent⟩ := hbooked.of_quiescent hquiet
  rw [← hlost]
  constructor
  · -- there are as many replies as messages, and each reply answers one of those not lost
    intro hall
    have hcard := Multiset.card_eq_card_of_rel hall
    rw [hsplit, ← hsent, Multiset.card_add, Multiset.card_map, Multiset.card_map] at hcard
    exact Multiset.card_eq_zero.mp (by omega)
  · intro hzero
    rw [AllAnswered, hsplit, hzero, add_zero, ← hsent, Multiset.rel_map]
    exact Multiset.rel_refl_of_refl_on fun p hp => .inl (hpairs p hp)

/-- One worker; a login is answered by it while the dispatch thread answers a ping. -/
def loginAndPing : List Event :=
  [.poll (.message 0 ⟨⟨1, []⟩, [7]⟩), .take 0, .enter (.worker 0), .poll (.message 0 ⟨⟨kPingType, []⟩, [8]⟩),
    .handle (.worker 0) (some [1]), .frame .dispatch true, .frame .dispatch true, .frame .dispatch true,
    .reply (.worker 0), .frame (.worker 0) true, .frame (.worker 0) true, .frame (.worker 0) true]

theorem loginAndPing_allAnswered :
    ∃ s, runFrom (step (fun _ _ => true) ⟨⟨0, 0⟩, some 1, true⟩) start loginAndPing = some s ∧
      s.AllAnswered fun _ _ => False := by
  have hcalm : ∀ e ∈ loginAndPing, Undisturbed e := by simp [loginAndPing, Undisturbed]
  have hmeets : Meets (step (fun _ _ => true) ⟨⟨0, 0⟩, some 1, true⟩)
      (Answerable (fun _ _ => true) ⟨⟨0, 0⟩, some 1, true⟩) start loginAndPing := by decide +kernel
  refine ⟨_, rfl, (allAnswered_iff _ rfl hcalm ⟨rfl, fun t => ?_⟩).mpr hmeets⟩
  cases t with
  | dispatch => rfl
  | worker i =>
    cases i with
    | zero => rfl
    | succ i => rfl

/-- At most one client; an order whose body does not parse, and the login of another client. -/
def orderAndSecondClient : List Event :=
  [.poll (.message 0 ⟨⟨5, [255]⟩, [7]⟩), .enter .dispatch, .poll (.message 0 ⟨⟨1, []⟩, [8]⟩)]

theorem order_and_second_client_unanswered :
    ∃ s, runFrom (step (fun _ body => body ≠ [255]) ⟨⟨1, 0⟩, none, true⟩) start orderAndSecondClient = some s ∧
      (∀ e ∈ orderAndSecondClient, Undisturbed e) ∧ s.Quiescent ∧ s.sent = 0 ∧ ∀ rejects, ¬ s.AllAnswered rejects := by
  refine ⟨_, rfl, by simp [orderAndSecondClient, Undisturbed], ⟨rfl, fun t => ?_⟩, rfl, fun rejects hall => ?_⟩
  · cases t with
    | dispatch => rfl
    | worker i => rfl
  · have hcard := Multiset.card_eq_card_of_rel hall
    exact absurd hcard (by decide)

end TradeGateway
end Chater.Zmq
