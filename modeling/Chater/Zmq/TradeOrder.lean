import Chater.Zmq.TradeGateway

/-!
# The order in which requests are handled

Requests are put into the pool's queue in the order they are received.  Without a pool, or with one worker, a single
thread calls the trade handler and the order is kept.  Two workers may take two requests of one client and call the
handler for the later one first.
-/

namespace Chater.Zmq

open Foundations
open scoped List

set_option autoImplicit false

namespace TradeGateway

def numbersOf (identity : Identity) (ms : List Received) : List ℕ :=
  (ms.filter fun m => m.head = identity).map Received.number

/-- The messages of each client that were passed to the handler were passed to it in the order of their receipt, and
none of them twice. -/
def HandledInOrder (s : TradeGateway) : Prop := ∀ identity, (numbersOf identity s.handled).Pairwise (· < ·)

/-- With such a pool the requests of each client are handled in order, in every run. -/
def OrderKept (threads : Option ℕ) : Prop :=
  ∀ (parses : TradeRequest → Frame → Bool) (cfg : GatewayConfig), cfg.threads = threads →
    ∀ es s, runFrom (step parses cfg) start es = some s → s.HandledInOrder

/-! ## One thread that handles requests -/

/-- The thread that calls the handler when there is only one. -/
def server (cfg : GatewayConfig) : Thread :=
  match cfg.threads with
  | some _ => .worker 0
  | none => .dispatch

structure Ordered (cfg : GatewayConfig) (s : TradeGateway) : Prop where
  numbers : s.received.map Received.number = List.range s.received.length
  order : s.handled ++ ((s.phase (server cfg)).unhandled ++ s.tasks) <+ s.received
  others : ∀ t, t ≠ server cfg → (s.phase t).unhandled = []
  inline : cfg.threads = none → s.tasks = []

variable {parses : TradeRequest → Frame → Bool} {cfg : GatewayConfig} {s s' : TradeGateway}

theorem Ordered.handledInOrder (h : s.Ordered cfg) : s.HandledInOrder := by
  intro identity
  have hhandled : s.handled <+ s.received := (List.sublist_append_left _ _).trans h.order
  have hnumbers : numbersOf identity s.handled <+ List.range s.received.length := by
    rw [← h.numbers]
    exact (List.filter_sublist.trans hhandled).map _
  exact List.pairwise_lt_range.sublist hnumbers

theorem Ordered.eq_server (h : s.Ordered cfg) {t : Thread} {m : Received} (hm : (s.phase t).unhandled = [m]) :
    t = server cfg := by
  by_contra hne
  rw [h.others t hne] at hm
  cases hm

/-- The one thread goes on; the rest of the state changes with it. -/
theorem Ordered.serve (h : s.Ordered cfg) {p : Phase} (hphase : s'.phase = Function.update s.phase (server cfg) p)
    (hnumbers : s'.received.map Received.number = List.range s'.received.length)
    (horder : s'.handled ++ (p.unhandled ++ s'.tasks) <+ s'.received) (hinline : cfg.threads = none → s'.tasks = []) :
    s'.Ordered cfg := by
  refine ⟨hnumbers, ?_, fun t ht => ?_, hinline⟩
  · rw [hphase, Function.update_self]
    exact horder
  · rw [hphase, Function.update_of_ne ht]
    exact h.others t ht

/-- A thread goes on that has no request in its hands before and after. -/
theorem Ordered.pass (h : s.Ordered cfg) {t : Thread} {p : Phase} (hphase : s'.phase = Function.update s.phase t p)
    (hbefore : (s.phase t).unhandled = []) (hafter : p.unhandled = [])
    (hsame : s'.handled = s.handled ∧ s'.tasks = s.tasks ∧ s'.received = s.received) : s'.Ordered cfg := by
  have hunhandled : ∀ u, (s'.phase u).unhandled = (s.phase u).unhandled := by
    intro u
    by_cases hu : u = t
    · rw [hphase, hu, Function.update_self, hafter, hbefore]
    · rw [hphase, Function.update_of_ne hu]
  refine ⟨by rw [hsame.2.2]; exact h.numbers, ?_, fun u hu => (hunhandled u).trans (h.others u hu),
    fun hnone => hsame.2.1.trans (h.inline hnone)⟩
  rw [hsame.1, hsame.2.1, hsame.2.2, hunhandled]
  exact h.order

theorem Ordered.numbers_next (h : s.Ordered cfg) (m : HeadTypeBody) :
    (s.received ++ [s.next m]).map Received.number = List.range (s.received ++ [s.next m]).length := by
  rw [List.map_append, h.numbers, List.length_append, List.length_singleton, List.range_succ]
  rfl

/-- A message is received, and the pool may be given it. -/
theorem Ordered.receive (h : s.Ordered cfg) (m : HeadTypeBody) (hphase : s'.phase = s.phase)
    (hhandled : s'.handled = s.handled) (hreceived : s'.received = s.received ++ [s.next m])
    (htasks : s'.tasks = s.tasks ∨ s'.tasks = s.tasks ++ [s.next m] ∧ cfg.threads ≠ none) : s'.Ordered cfg := by
  refine ⟨by rw [hreceived]; exact h.numbers_next m, ?_, fun t ht => by rw [hphase]; exact h.others t ht, fun hnone => ?_⟩
  · rw [hphase, hhandled, hreceived]
    obtain htasks | ⟨htasks, -⟩ := htasks
    · rw [htasks]
      exact h.order.trans (List.sublist_append_left _ _)
    · rw [htasks, ← List.append_assoc, ← List.append_assoc, List.append_assoc s.handled]
      exact h.order.append (List.Sublist.refl _)
  · obtain htasks | ⟨-, hsome⟩ := htasks
    · rw [htasks]
      exact h.inline hnone
    · exact absurd hnone hsome

theorem Ordered.stepped (hthreads : cfg.threads.getD 0 ≤ 1) {e : Event} (h : s.Ordered cfg)
    (hstep : Stepped parses cfg s e s') : s'.Ordered cfg := by
  cases hstep with
  | quiet | exitLoop | stop | shutdownPool | frame | refused => exact ⟨h.numbers, h.order, h.others, h.inline⟩
  | ping now m => exact h.receive m rfl rfl rfl (.inl rfl)
  | rejected now m => exact h.receive m rfl rfl rfl (.inl rfl)
  | tooLate now m => exact h.receive m rfl rfl rfl (.inl rfl)
  | submit now m l n _ _ _ hsome =>
    exact h.receive m rfl rfl rfl (.inr ⟨rfl, by rw [hsome]; exact Option.some_ne_none n⟩)
  | direct now m l hpolls _ _ hnone =>
    have hserver : server cfg = .dispatch := by rw [server, hnone]
    have horder := h.order
    rw [hserver, unhandled_of_free hpolls.1, h.inline hnone, List.append_nil, List.append_nil] at horder
    refine h.serve (p := .entered (s.next m)) (by rw [hserver]; rfl) (h.numbers_next m) ?_ h.inline
    change s.handled ++ ([s.next m] ++ s.tasks) <+ s.received ++ [s.next m]
    rw [h.inline hnone]
    exact horder.append (List.Sublist.refl _)
  | take i n m tasks hsome hi hfree htasks =>
    have hzero : i = 0 := by
      rw [hsome, Option.getD_some] at hthreads
      omega
    subst hzero
    have hserver : server cfg = .worker 0 := by rw [server, hsome]
    have horder := h.order
    rw [hserver, unhandled_of_free hfree, htasks] at horder
    refine h.serve (p := .entered m) (by rw [hserver]; rfl) h.numbers horder fun hnone => ?_
    rw [hsome] at hnone
    cases hnone
  | passOver t m hphase =>
    have ht := h.eq_server (t := t) (by rw [hphase]; rfl)
    have horder := h.order
    rw [← ht, hphase] at horder
    refine h.serve (p := .idle) (by rw [← ht]; rfl) h.numbers (List.Sublist.trans ?_ horder) h.inline
    exact (List.Sublist.refl _).append (List.sublist_cons_self _ _)
  | callHandler t m kind hphase =>
    have ht := h.eq_server (t := t) (by rw [hphase]; rfl)
    have horder := h.order
    rw [← ht, hphase] at horder
    exact h.serve (p := .handling kind m) (by rw [← ht]; rfl) h.numbers horder h.inline
  | answer t kind m body hphase =>
    have ht := h.eq_server (t := t) (by rw [hphase]; rfl)
    have horder := h.order
    rw [← ht, hphase] at horder
    refine h.serve (p := .replying ⟨⟨kind.replyType, body⟩, m.head⟩) (by rw [← ht]; rfl) h.numbers ?_ h.inline
    simpa [Phase.unhandled, setPhase] using horder
  | noAnswer t kind m hphase =>
    have ht := h.eq_server (t := t) (by rw [hphase]; rfl)
    have horder := h.order
    rw [← ht, hphase] at horder
    refine h.serve (p := .idle) (by rw [← ht]; rfl) h.numbers ?_ h.inline
    simpa [Phase.unhandled, setPhase] using horder
  | noSocket t reply hphase => exact h.pass (t := t) rfl (by rw [hphase]; rfl) rfl ⟨rfl, rfl, rfl⟩
  | reply t reply out hphase => exact h.pass (t := t) rfl (by rw [hphase]; rfl) rfl ⟨rfl, rfl, rfl⟩

theorem start_ordered (cfg : GatewayConfig) : start.Ordered cfg where
  numbers := rfl
  order := .slnil
  others _ _ := rfl
  inline _ := rfl

theorem orderKept_of_le {threads : Option ℕ} (hthreads : threads.getD 0 ≤ 1) : OrderKept threads := by
  intro parses cfg hcfg es s hrun
  subst hcfg
  have hordered := invariant_of_run (fun _ _ _ h hstep => h.stepped hthreads (stepped_of_step parses hstep))
    (start_ordered cfg) hrun
  exact hordered.handledInOrder

/-! ## Two workers -/

def placeOrder : HeadTypeBody := ⟨⟨5, [1]⟩, [7]⟩

def cancelOrder : HeadTypeBody := ⟨⟨9, [1]⟩, [7]⟩

/-- A client places an order and cancels it; worker 0 takes the one and worker 1 the other and is faster. -/
def cancelFirst : List Event :=
  [.poll (.message 0 placeOrder), .poll (.message 0 cancelOrder), .take 0, .take 1, .enter (.worker 1),
    .handle (.worker 1) (some []), .enter (.worker 0), .handle (.worker 0) (some [])]

theorem cancelFirst_run (n : ℕ) :
    ∃ s, runFrom (step (fun _ _ => true) ⟨⟨0, 0⟩, some (n + 2), true⟩) start cancelFirst = some s ∧
      s.received = [⟨placeOrder, 0⟩, ⟨cancelOrder, 1⟩] ∧ s.handled = [⟨cancelOrder, 1⟩, ⟨placeOrder, 0⟩] :=
  ⟨_, rfl, rfl, rfl⟩

theorem cancelFirst_not_inOrder {s : TradeGateway} (hhandled : s.handled = [⟨cancelOrder, 1⟩, ⟨placeOrder, 0⟩]) :
    ¬ s.HandledInOrder := by
  intro h
  have horder := h [7]
  rw [hhandled] at horder
  exact absurd horder (by decide)

/-- **Requests are handled in order exactly with at most one worker.** -/
theorem requestOrderKept_iff (threads : Option ℕ) : OrderKept threads ↔ threads.getD 0 ≤ 1 := by
  constructor
  · intro h
    by_contra hmany
    obtain ⟨n, rfl⟩ : ∃ n, threads = some (n + 2) := by
      cases threads with
      | none => simp at hmany
      | some k =>
        rw [Option.getD_some] at hmany
        exact ⟨k - 2, congrArg some (by omega)⟩
    obtain ⟨s, hrun, -, hhandled⟩ := cancelFirst_run n
    exact cancelFirst_not_inOrder hhandled (h _ _ rfl _ s hrun)
  · exact orderKept_of_le

theorem two_workers_cancel_first :
    ∃ s, runFrom (step (fun _ _ => true) ⟨⟨0, 0⟩, some 2, true⟩) start cancelFirst = some s ∧
      s.received = [⟨placeOrder, 0⟩, ⟨cancelOrder, 1⟩] ∧ s.handled = [⟨cancelOrder, 1⟩, ⟨placeOrder, 0⟩] ∧
        ¬ s.HandledInOrder := by
  obtain ⟨s, hrun, hreceived, hhandled⟩ := cancelFirst_run 0
  exact ⟨s, hrun, hreceived, hhandled, cancelFirst_not_inOrder hhandled⟩

end TradeGateway
end Chater.Zmq
