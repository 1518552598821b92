import Chater.Zmq.QuoteGateway
import Mathlib.Data.Multiset.AddSub

/-!
# Topic filters of the quote client

The SUB socket of `QuoteApiZmqImpl` holds a multiset of filters, each a string of bytes: `ZMQ_SUBSCRIBE` adds one,
`ZMQ_UNSUBSCRIBE` removes one if it is there, and a message gets through when its topic starts with one of them.

`Connect` itself adds the empty filter, with which every message gets through.  `Subscribe` gives the socket its topic up
to the first NUL byte and `Unsubscribe` the whole of it.
-/

namespace Chater.Zmq

open Messages

set_option autoImplicit false

/-! ## The client -/

/-- The bytes of a string as far as `strlen` counts. -/
def cString (s : Frame) : Frame := s.takeWhile fun b => b ≠ 0

def setSubSubscribe (held : Multiset Frame) (filter : Frame) : Multiset Frame := cString filter ::ₘ held

/-- `subSock` holds the filters of the socket, when there is one. -/
structure QuoteApiZmqImpl where
  subSock : Option (Multiset Frame)

namespace QuoteApiZmqImpl

/-- `Connect` with its return value; `created` and `connects` say whether a socket could be made and connected. -/
def connect (s : QuoteApiZmqImpl) (pubPort : ℤ) (created connects : Bool) : ℤ × QuoteApiZmqImpl :=
  if s.subSock.isSome then (0, s)
  else if pubPort ≤ 0 then (-1, s)
  else if !created then (-1, s)
  else
    let sub := setSubSubscribe 0 []
    if !connects then (-1, s) else (0, { s with subSock := some sub })

def subscribe (s : QuoteApiZmqImpl) (topic : Frame) : Bool × QuoteApiZmqImpl :=
  match s.subSock with
  | none => (false, s)
  | some held => (true, { s with subSock := some (setSubSubscribe held topic) })

def unsubscribe (s : QuoteApiZmqImpl) (topic : Frame) : Bool × QuoteApiZmqImpl :=
  match s.subSock with
  | none => (false, s)
  | some held => (true, { s with subSock := some (held.erase topic) })

inductive Call
  | subscribe (topic : Frame)
  | unsubscribe (topic : Frame)
deriving DecidableEq, Repr

def call (s : QuoteApiZmqImpl) : Call → QuoteApiZmqImpl
  | .subscribe topic => (s.subscribe topic).2
  | .unsubscribe topic => (s.unsubscribe topic).2

def after (s : QuoteApiZmqImpl) (calls : List Call) : QuoteApiZmqImpl := calls.foldl call s

def Passes (held : Multiset Frame) (topic : Frame) : Prop := ∃ p ∈ held, p <+: topic

instance (held : Multiset Frame) (topic : Frame) : Decidable (Passes held topic) :=
  Multiset.decidableExistsMultiset

/-- What `RecvLoop` passes to `on_pub_message` of a published message. -/
def onPubMessage (s : QuoteApiZmqImpl) (m : HeadTypeBody) : Option HeadTypeBody :=
  s.subSock.bind fun held =>
    if Passes held (sendPubMessage m).first then
      let c := recvPubMessage (.between [sendPubMessage m]) ⟨⟨0, []⟩, []⟩
      if c.returned then some c.out else none
    else none

/-! ## The filters held -/

/-- What a call does to the filters of the socket. -/
def Call.onSocket (held : Multiset Frame) : Call → Multiset Frame
  | .subscribe topic => setSubSubscribe held topic
  | .unsubscribe topic => held.erase topic

def heldAfter (held : Multiset Frame) (calls : List Call) : Multiset Frame := calls.foldl Call.onSocket held

/-- The socket that `Connect` makes. -/
def connected : QuoteApiZmqImpl := ⟨some {[]}⟩

theorem connect_eq {s : QuoteApiZmqImpl} {pubPort : ℤ} {created connects : Bool} (hs : s.subSock = none)
    (h : (s.connect pubPort created connects).1 = 0) : (s.connect pubPort created connects).2 = connected := by
  unfold connect at h ⊢
  rw [hs] at h ⊢
  simp only [Option.isSome_none, Bool.false_eq_true, if_false] at h ⊢
  split_ifs at h ⊢ with hport hcreated hconnects
  · simp at h
  · simp at h
  · simp at h
  · rfl

theorem after_subSock (held : Multiset Frame) (calls : List Call) :
    (after ⟨some held⟩ calls).subSock = some (heldAfter held calls) := by
  induction calls generalizing held with
  | nil => rfl
  | cons c calls ih =>
    cases c with
    | subscribe topic => exact ih _
    | unsubscribe topic => exact ih _

/-- A message that gets through is passed on whole. -/
theorem onPubMessage_eq (held : Multiset Frame) (calls : List Call) (m : HeadTypeBody) :
    (after ⟨some held⟩ calls).onPubMessage m = if Passes (heldAfter held calls) m.head then some m else none := by
  rw [onPubMessage, after_subSock]
  simp only [Option.bind_some, recvPubMessage_sendPubMessage, if_true]
  rfl

/-! ## What the user asked for -/

def Subscribed (calls : List Call) (topic : Frame) : Prop :=
  calls.count (.unsubscribe topic) < calls.count (.subscribe topic)

/-- After these calls exactly the messages are passed on whose topic starts with a topic that has been subscribed more
often than unsubscribed. -/
def Filters (calls : List Call) : Prop :=
  ∀ m, (connected.after calls).onPubMessage m = some m ↔ ∃ t, Subscribed calls t ∧ t <+: m.head

theorem passes_iff (calls : List Call) (m : HeadTypeBody) :
    (connected.after calls).onPubMessage m = some m ↔ Passes (heldAfter {[]} calls) m.head := by
  rw [connected, onPubMessage_eq]
  simp

/-! ### What is held, from the calls -/

/-- The call gives the socket the filter `p`. -/
def Call.adds (p : Frame) : Call → Bool
  | .subscribe topic => cString topic == p
  | .unsubscribe _ => false

/-- Since some moment `p` has been given to the socket more often than taken from it. -/
def Kept (calls : List Call) (p : Frame) : Prop :=
  ∃ last, last <:+ calls ∧ last.count (.unsubscribe p) < last.countP (Call.adds p)

theorem kept_cons {c : Call} {calls : List Call} {p : Frame} :
    Kept (c :: calls) p ↔
      Kept calls p ∨ (c :: calls).count (.unsubscribe p) < (c :: calls).countP (Call.adds p) := by
  constructor
  · rintro ⟨last, hsuffix, hmore⟩
    obtain rfl | hsuffix := List.suffix_cons_iff.mp hsuffix
    · exact .inr hmore
    · exact .inl ⟨last, hsuffix, hmore⟩
  · rintro (⟨last, hsuffix, hmore⟩ | hmore)
    · exact ⟨last, hsuffix.trans (List.suffix_cons c calls), hmore⟩
    · exact ⟨c :: calls, List.suffix_rfl, hmore⟩

/-- A filter is on the socket if it was there and has not been taken away, or since some moment has been given more often
than taken: an `Unsubscribe` that finds nothing leaves no debt. -/
theorem mem_heldAfter_iff (held : Multiset Frame) (calls : List Call) (p : Frame) :
    p ∈ heldAfter held calls ↔
      Kept calls p ∨ calls.count (.unsubscribe p) < held.count p + calls.countP (Call.adds p) := by
  induction calls generalizing held with
  | nil =>
    have hnot : ¬ Kept [] p := by
      rintro ⟨last, hsuffix, hmore⟩
      rw [List.suffix_nil.mp hsuffix] at hmore
      exact lt_irrefl 0 hmore
    rw [or_iff_right hnot]
    exact Multiset.count_pos.symm
  | cons c calls ih =>
    have hwhole : calls.count (.unsubscribe p) < calls.countP (Call.adds p) → Kept calls p :=
      fun hmore => ⟨calls, List.suffix_rfl, hmore⟩
    rw [kept_cons, heldAfter, List.foldl_cons, ← heldAfter, ih, List.count_cons, List.countP_cons]
    cases c with
    | subscribe topic =>
      simp only [Call.onSocket, setSubSubscribe, Multiset.count_cons, Call.adds, beq_iff_eq, reduceCtorEq, if_false,
        add_zero, eq_comm (a := p)]
      constructor
      · rintro (hkept | hmore)
        · exact .inl (.inl hkept)
        · exact .inr (by omega)
      · rintro ((hkept | hmore) | hmore)
        · exact .inl hkept
        · exact .inr (by omega)
        · exact .inr (by omega)
    | unsubscribe topic =>
      simp only [Call.onSocket, Call.adds, beq_iff_eq, Call.unsubscribe.injEq, Bool.false_eq_true, if_false, add_zero]
      by_cases htopic : topic = p
      · subst htopic
        simp only [Multiset.count_erase_self, if_true]
        constructor
        · rintro (hkept | hmore)
          · exact .inl (.inl hkept)
          · by_cases hzero : held.count topic = 0
            · exact .inl (.inl (hwhole (by omega)))
            · exact .inr (by omega)
        · rintro ((hkept | hmore) | hmore)
          · exact .inl hkept
          · exact .inl (hwhole (by omega))
          · exact .inr (by omega)
      · simp only [Multiset.count_erase_of_ne (Ne.symm htopic), htopic, if_false, add_zero]
        constructor
        · rintro (hkept | hmore)
          · exact .inl (.inl hkept)
          · exact .inr hmore
        · rintro ((hkept | hmore) | hmore)
          · exact .inl hkept
          · exact .inl (hwhole hmore)
          · exact .inr hmore

/-- `Connect` does to the socket what `Subscribe("")` does. -/
theorem mem_heldAfter_connect (calls : List Call) (p : Frame) :
    p ∈ heldAfter {[]} calls ↔ Kept (.subscribe [] :: calls) p := by
  have hconnect : heldAfter {[]} calls = heldAfter 0 (.subscribe [] :: calls) := rfl
  rw [hconnect, mem_heldAfter_iff, Multiset.count_zero, zero_add]
  exact or_iff_left_of_imp fun hmore => ⟨_, List.suffix_rfl, hmore⟩

theorem cString_eq_self {topic : Frame} (h : 0 ∉ topic) : cString topic = topic := by
  refine List.takeWhile_eq_self_iff.mpr fun b hb => ?_
  have hne : b ≠ 0 := fun hzero => h (hzero ▸ hb)
  simpa using hne

/-- A topic without a NUL byte reaches the socket as it is. -/
theorem Subscribed.kept {calls : List Call} {t : Frame} (h : Subscribed calls t) (ht : 0 ∉ t) :
    Kept (.subscribe [] :: calls) t := by
  have hmono : calls.count (.subscribe t) ≤ calls.countP (Call.adds t) := by
    refine List.countP_mono_left fun c _ hc => ?_
    rw [beq_iff_eq] at hc
    simp [hc, Call.adds, cString_eq_self ht]
  exact ⟨calls, List.suffix_cons _ _, lt_of_lt_of_le h hmono⟩

/-- **The client filters as asked exactly when the calls say so, `Connect` counted as a `Subscribe("")`.**  Every topic
that since some moment has been subscribed more often than unsubscribed starts with one that the user has subscribed more
often than unsubscribed over all; and where such a topic of the user has a NUL byte, it starts with one of the others. -/
theorem filters_iff (calls : List Call) :
    Filters calls ↔
      (∀ p, Kept (.subscribe [] :: calls) p → ∃ t, Subscribed calls t ∧ t <+: p) ∧
        ∀ t, Subscribed calls t → 0 ∈ t → ∃ p, Kept (.subscribe [] :: calls) p ∧ p <+: t := by
  simp only [Filters, passes_iff, Passes, mem_heldAfter_connect]
  constructor
  · intro h
    refine ⟨fun p hp => ?_, fun t ht _ => ?_⟩
    · exact (h ⟨⟨0, []⟩, p⟩).mp ⟨p, hp, List.prefix_rfl⟩
    · exact (h ⟨⟨0, []⟩, t⟩).mpr ⟨t, ht, List.prefix_rfl⟩
  · rintro ⟨hheld, hwanted⟩ m
    constructor
    · rintro ⟨p, hp, hpm⟩
      obtain ⟨t, ht, htp⟩ := hheld p hp
      exact ⟨t, ht, htp.trans hpm⟩
    · rintro ⟨t, ht, htm⟩
      by_cases hnul : 0 ∈ t
      · obtain ⟨p, hp, hpt⟩ := hwanted t ht hnul
        exact ⟨p, hp, hpt.trans htm⟩
      · exact ⟨t, ht.kept hnul, htm⟩

/-! ### The empty filter of `Connect` -/

theorem nil_mem_heldAfter {calls : List Call} (hcalls : .unsubscribe [] ∉ calls) : [] ∈ heldAfter {[]} calls := by
  rw [mem_heldAfter_connect]
  refine ⟨_, List.suffix_rfl, ?_⟩
  rw [List.count_eq_zero.mpr fun hmem => hcalls ((List.mem_cons.mp hmem).resolve_left Call.noConfusion),
    List.countP_cons_of_pos rfl]
  exact Nat.succ_pos _

/-- As long as the user does not unsubscribe the empty topic, every message is passed on. -/
theorem filters_iff_of_not_unsubscribed {calls : List Call} (hcalls : .unsubscribe [] ∉ calls) :
    Filters calls ↔ Subscribed calls [] := by
  have hnil := nil_mem_heldAfter hcalls
  constructor
  · intro h
    obtain ⟨t, ht, hprefix⟩ := (h ⟨⟨0, []⟩, []⟩).mp ((passes_iff _ _).mpr ⟨[], hnil, List.prefix_rfl⟩)
    rwa [List.prefix_nil.mp hprefix] at ht
  · intro hsubscribed m
    rw [passes_iff]
    exact ⟨fun _ => ⟨[], hsubscribed, List.nil_prefix⟩, fun _ => ⟨[], hnil, List.nil_prefix⟩⟩

/-- `Subscribe("notice")`: market data are passed on all the same. -/
theorem notice_subscriber_gets_market_data :
    ∃ m : HeadTypeBody, m.head = utf8 "market.BTC-USDT" ∧
      (connected.after [.subscribe (utf8 "notice")]).onPubMessage m = some m ∧
      (¬ ∃ t, Subscribed [.subscribe (utf8 "notice")] t ∧ t <+: m.head) ∧
      ¬ Filters [.subscribe (utf8 "notice")] := by
  have hcalls : Call.unsubscribe [] ∉ [Call.subscribe (utf8 "notice")] := by simp
  have hpasses : (connected.after [.subscribe (utf8 "notice")]).onPubMessage
      ⟨⟨kMarketData, []⟩, utf8 "market.BTC-USDT"⟩ =
        some ⟨⟨kMarketData, []⟩, utf8 "market.BTC-USDT"⟩ :=
    (passes_iff _ _).mpr ⟨[], nil_mem_heldAfter hcalls, List.nil_prefix⟩
  have hunwanted : ¬ ∃ t, Subscribed [.subscribe (utf8 "notice")] t ∧
      t <+: utf8 "market.BTC-USDT" := by
    rintro ⟨t, ht, hprefix⟩
    have htopic : utf8 "notice" = t := by
      by_contra hne
      simp [Subscribed, hne] at ht
    subst htopic
    exact absurd hprefix (by decide +kernel)
  exact ⟨_, rfl, hpasses, hunwanted, fun h => hunwanted ((h _).mp hpasses)⟩

/-! ### A user who takes the empty filter away -/

/-- The topics have no NUL byte, and only what is held is unsubscribed. -/
def Careful : Multiset Frame → List Call → Prop
  | _, [] => True
  | held, .subscribe topic :: calls => 0 ∉ topic ∧ Careful (topic ::ₘ held) calls
  | held, .unsubscribe topic :: calls => topic ∈ held ∧ Careful (held.erase topic) calls

/-- The filters on the socket count the calls. -/
theorem Careful.count_heldAfter {held : Multiset Frame} {calls : List Call} (h : Careful held calls) (t : Frame) :
    (heldAfter held calls).count t + calls.count (.unsubscribe t) = held.count t + calls.count (.subscribe t) := by
  induction calls generalizing held with
  | nil => rfl
  | cons c calls ih =>
    cases c with
    | subscribe topic =>
      have hrest := ih h.2
      rw [Multiset.count_cons] at hrest
      have hstep : heldAfter held (.subscribe topic :: calls) = heldAfter (topic ::ₘ held) calls := by
        rw [heldAfter, List.foldl_cons, Call.onSocket, setSubSubscribe, cString_eq_self h.1]
        rfl
      rw [hstep]
      simp only [List.count_cons, beq_iff_eq, Call.subscribe.injEq, reduceCtorEq, if_false, add_zero]
      by_cases hne : t = topic
      · subst hne
        simp only [if_true] at hrest ⊢
        omega
      · have hne' : topic ≠ t := Ne.symm hne
        simp only [hne, hne', if_false] at hrest ⊢
        omega
    | unsubscribe topic =>
      have hrest := ih h.2
      change (heldAfter (held.erase topic) calls).count t + _ = _
      simp only [List.count_cons, beq_iff_eq, Call.unsubscribe.injEq, reduceCtorEq, if_false, add_zero]
      by_cases hne : t = topic
      · subst hne
        have hpos : 0 < held.count t := Multiset.count_pos.mpr h.1
        rw [Multiset.count_erase_self] at hrest
        simp only [if_true]
        omega
      · have hne' : topic ≠ t := Ne.symm hne
        rw [Multiset.count_erase_of_ne hne] at hrest
        simp only [hne', if_false]
        omega

/-- A user who unsubscribes the empty topic first and is careful from then on gets what they ask for. -/
theorem filters_of_careful {calls : List Call} (h : Careful 0 calls) (hnil : .subscribe [] ∉ calls) :
    Filters (.unsubscribe [] :: calls) := by
  have hheld : heldAfter {[]} (.unsubscribe [] :: calls) = heldAfter 0 calls := by
    rw [heldAfter, List.foldl_cons, Call.onSocket, Multiset.erase_singleton]
    rfl
  have hmem : ∀ t, t ∈ heldAfter 0 calls ↔ Subscribed (.unsubscribe [] :: calls) t := by
    intro t
    have hcount := h.count_heldAfter t
    rw [Multiset.count_zero, zero_add] at hcount
    rw [← Multiset.count_pos, Subscribed, List.count_cons, List.count_cons]
    by_cases ht : t = []
    · subst ht
      rw [List.count_eq_zero_of_not_mem hnil] at hcount ⊢
      have hzero : (heldAfter 0 calls).count [] = 0 := by omega
      simp [hzero]
    · have hne : [] ≠ t := Ne.symm ht
      simp only [beq_iff_eq, Call.unsubscribe.injEq, reduceCtorEq, hne, if_false, add_zero]
      omega
  intro m
  rw [passes_iff, hheld]
  exact exists_congr fun t => and_congr_left fun _ => hmem t

end QuoteApiZmqImpl
end Chater.Zmq
