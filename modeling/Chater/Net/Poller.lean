import Chater.Foundations.Transition
import Chater.Net.Channel
import Mathlib.Logic.Function.Basic

/-!
# The poller and the kernel's interest set

`Poller::UpdateChannel` and `Poller::RemoveChannel` over all the channels of one loop: the map `channels_` from
descriptors to channels, and the interest set that the kernel keeps for `epollfd_`.  A failed assertion and the
`LOG_FATAL` of `Poller::Update` end the run.  As long as `Remove` is called on channels that were updated since and
have no events, the three views of a channel agree: its `index_`, its entry of `channels_` and its registration.
-/

namespace Chater.Net

open Foundations

set_option autoImplicit false

/-- The interest set of an epoll descriptor: the events and the `data.ptr` that each registered descriptor has. -/
abbrev InterestSet (K : Type) := ℕ → Option (Events × K)

/-- `epoll_ctl`, and `none` where it returns -1. -/
def epollCtl {K : Type} (operation : EpollOp) (fd : ℕ) (event : Events × K) (kernel : InterestSet K) :
    Option (InterestSet K) :=
  match operation, kernel fd with
  | .EPOLL_CTL_ADD, none => some (Function.update kernel fd (some event))
  | .EPOLL_CTL_MOD, some _ => some (Function.update kernel fd (some event))
  | .EPOLL_CTL_DEL, some _ => some (Function.update kernel fd none)
  | _, _ => none

/-- The channels of a loop, by `K`, with the poller's map and the kernel's set.  `ctlErrors` counts the calls of
`epoll_ctl` that failed and were only logged. -/
structure Poller (K : Type) where
  channel : K → Channel
  channels : ℕ → Option K
  kernel : InterestSet K
  ctlErrors : ℕ

namespace Poller

variable {K : Type} (fd : K → ℕ)

def start : Poller K := ⟨fun _ => .new, fun _ => none, fun _ => none, 0⟩

/-- `Poller::Update`. -/
def update (operation : EpollOp) (k : K) (p : Poller K) : Option (Poller K) :=
  match epollCtl operation (fd k) ((p.channel k).events ||| EPOLLET, k) p.kernel with
  | some kernel => some { p with kernel := kernel }
  | none => if operation = .EPOLL_CTL_DEL then some { p with ctlErrors := p.ctlErrors + 1 } else none

theorem update_add {p : Poller K} {k : K} (h : p.kernel (fd k) = none) :
    p.update fd .EPOLL_CTL_ADD k =
      some { p with kernel := Function.update p.kernel (fd k) (some ((p.channel k).events ||| EPOLLET, k)) } := by
  simp [update, epollCtl, h]

theorem update_mod {p : Poller K} {k : K} {x : Events × K} (h : p.kernel (fd k) = some x) :
    p.update fd .EPOLL_CTL_MOD k =
      some { p with kernel := Function.update p.kernel (fd k) (some ((p.channel k).events ||| EPOLLET, k)) } := by
  simp [update, epollCtl, h]

theorem update_del {p : Poller K} {k : K} {x : Events × K} (h : p.kernel (fd k) = some x) :
    p.update fd .EPOLL_CTL_DEL k = some { p with kernel := Function.update p.kernel (fd k) none } := by
  simp [update, epollCtl, h]

variable [DecidableEq K]

def setChannel (p : Poller K) (k : K) (c : Channel) : Poller K :=
  { p with channel := Function.update p.channel k c }

def setIndex (p : Poller K) (k : K) (index : ℤ) : Poller K := p.setChannel k { p.channel k with index := index }

def updateChannel (k : K) (p : Poller K) : Option (Poller K) :=
  let index := (p.channel k).index
  if index = -1 ∨ index = 2 then
    if index = -1 then
      if p.channels (fd k) = none then
        ({ p with channels := Function.update p.channels (fd k) (some k) }.setIndex k 1).update fd .EPOLL_CTL_ADD k
      else none
    else if p.channels (fd k) = some k then (p.setIndex k 1).update fd .EPOLL_CTL_ADD k
    else none
  else if p.channels (fd k) = some k ∧ index = 1 then
    if (p.channel k).isNoneEvent then (p.update fd .EPOLL_CTL_DEL k).map fun p => p.setIndex k 2
    else p.update fd .EPOLL_CTL_MOD k
  else none

def removeChannel (k : K) (p : Poller K) : Option (Poller K) :=
  let index := (p.channel k).index
  if p.channels (fd k) = some k ∧ (p.channel k).isNoneEvent ∧ (index = 1 ∨ index = 2) then
    let p := { p with channels := Function.update p.channels (fd k) none }
    if index = 1 then (p.update fd .EPOLL_CTL_DEL k).map fun p => p.setIndex k (-1)
    else some (p.setIndex k (-1))
  else none

/-! ## The operations of a channel -/

inductive Op
  | enableReading
  | disableReading
  | enableWriting
  | disableWriting
  | disableAll
  | remove
deriving DecidableEq, Repr

/-- What the operation makes of `events_` before `Channel::Update`. -/
def Op.events (events : Events) : Op → Events
  | .enableReading => events ||| Channel.kReadEvent
  | .disableReading => events &&& ~~~Channel.kReadEvent
  | .enableWriting => events ||| Channel.kWriteEvent
  | .disableWriting => events &&& ~~~Channel.kWriteEvent
  | .disableAll => Channel.kNoneEvent
  | .remove => events

def apply (p : Poller K) (k : K) (op : Op) : Option (Poller K) :=
  let c := p.channel k
  if op = .remove then
    if c.isNoneEvent then (p.setChannel k { c with addedToLoop := false }).removeChannel fd k else none
  else (p.setChannel k { c with events := op.events c.events, addedToLoop := true }).updateChannel fd k

/-! ## What the kernel's entries point to

An operation on the channel `k` adds no entry for another channel. -/

omit [DecidableEq K] in
theorem update_entry {kernel : InterestSet K} {fd f : ℕ} {k : K} {y : Option (Events × K)} {x : Events × K}
    (hy : ∀ z, y = some z → z.2 = k) (hx : Function.update kernel fd y f = some x) :
    kernel f = some x ∨ x.2 = k := by
  by_cases hf : f = fd
  · rw [hf, Function.update_self] at hx
    exact .inr (hy x hx)
  · rw [Function.update_of_ne hf] at hx
    exact .inl hx

omit [DecidableEq K] in
theorem epollCtl_entry {operation : EpollOp} {fd : ℕ} {event : Events × K} {kernel kernel' : InterestSet K}
    (h : epollCtl operation fd event kernel = some kernel') {f : ℕ} {x : Events × K} (hx : kernel' f = some x) :
    kernel f = some x ∨ x.2 = event.2 := by
  have hentry : ∀ z, some event = some z → z.2 = event.2 := fun z hz => by rw [Option.some.inj hz]
  unfold epollCtl at h
  split at h
  · obtain rfl := Option.some.inj h
    exact update_entry hentry hx
  · obtain rfl := Option.some.inj h
    exact update_entry hentry hx
  · obtain rfl := Option.some.inj h
    exact update_entry (fun _ hz => by cases hz) hx
  · cases h

omit [DecidableEq K] in
theorem update_kernel {operation : EpollOp} {k : K} {p p' : Poller K} (h : p.update fd operation k = some p') {f : ℕ}
    {x : Events × K} (hx : p'.kernel f = some x) : p.kernel f = some x ∨ x.2 = k := by
  unfold update at h
  split at h
  case h_1 kernel hctl =>
    obtain rfl := Option.some.inj h
    exact epollCtl_entry hctl hx
  case h_2 =>
    split_ifs at h
    obtain rfl := Option.some.inj h
    exact .inl hx

theorem updateChannel_kernel {k : K} {p p' : Poller K} (h : p.updateChannel fd k = some p') {f : ℕ}
    {x : Events × K} (hx : p'.kernel f = some x) : p.kernel f = some x ∨ x.2 = k := by
  unfold updateChannel at h
  simp only at h
  split_ifs at h
  · exact update_kernel fd h hx
  · exact update_kernel fd h hx
  · obtain ⟨q, hq, rfl⟩ := Option.map_eq_some_iff.mp h
    exact update_kernel fd hq hx
  · exact update_kernel fd h hx

theorem removeChannel_kernel {k : K} {p p' : Poller K} (h : p.removeChannel fd k = some p') {f : ℕ}
    {x : Events × K} (hx : p'.kernel f = some x) : p.kernel f = some x ∨ x.2 = k := by
  unfold removeChannel at h
  simp only at h
  split_ifs at h
  · obtain ⟨q, hq, rfl⟩ := Option.map_eq_some_iff.mp h
    exact update_kernel fd hq hx
  · obtain rfl := Option.some.inj h
    exact .inl hx

theorem apply_kernel {k : K} {op : Op} {p p' : Poller K} (h : p.apply fd k op = some p') {f : ℕ}
    {x : Events × K} (hx : p'.kernel f = some x) : p.kernel f = some x ∨ x.2 = k := by
  unfold apply at h
  simp only at h
  split_ifs at h
  · exact removeChannel_kernel fd h hx
  · exact updateChannel_kernel fd h hx

/-! ## Agreement -/

/-- The three views of every channel. -/
structure Consistent (p : Poller K) : Prop where
  index : ∀ k, (p.channel k).index = -1 ∨ (p.channel k).index = 1 ∨ (p.channel k).index = 2
  added : ∀ k, (p.channel k).addedToLoop = true ↔ (p.channel k).index ≠ -1
  channels_at : ∀ k, p.channels (fd k) = if (p.channel k).index = -1 then none else some k
  channels_off : ∀ f, (∀ k, fd k ≠ f) → p.channels f = none
  kernel_at : ∀ k, p.kernel (fd k) =
    if (p.channel k).index = 1 then some ((p.channel k).events ||| EPOLLET, k) else none
  kernel_off : ∀ f, (∀ k, fd k ≠ f) → p.kernel f = none
  no_errors : p.ctlErrors = 0

variable {fd}

omit [DecidableEq K] in
theorem start_consistent : Consistent fd (start : Poller K) where
  index _ := .inl rfl
  added _ := by simp [start, Channel.new]
  channels_at _ := rfl
  channels_off _ _ := rfl
  kernel_at _ := rfl
  kernel_off _ _ := rfl
  no_errors := rfl

/-- The views still agree when all three of them change at one channel. -/
theorem Consistent.change {p p' : Poller K} (h : Consistent fd p) (hfd : Function.Injective fd) {k : K}
    {c : Channel} (hindex : c.index = -1 ∨ c.index = 1 ∨ c.index = 2)
    (hadded : c.addedToLoop = true ↔ c.index ≠ -1) (hchannel : p'.channel = Function.update p.channel k c)
    (hchannels : p'.channels = Function.update p.channels (fd k) (if c.index = -1 then none else some k))
    (hkernel : p'.kernel =
      Function.update p.kernel (fd k) (if c.index = 1 then some (c.events ||| EPOLLET, k) else none))
    (herrors : p'.ctlErrors = p.ctlErrors) : Consistent fd p' := by
  have hself : p'.channel k = c := by rw [hchannel, Function.update_self]
  have hother : ∀ j, j ≠ k → p'.channel j = p.channel j := fun j hj => by rw [hchannel, Function.update_of_ne hj]
  refine ⟨fun j => ?_, fun j => ?_, fun j => ?_, fun f hf => ?_, fun j => ?_, fun f hf => ?_,
    herrors.trans h.no_errors⟩
  · by_cases hj : j = k
    · rw [hj, hself]
      exact hindex
    · rw [hother j hj]
      exact h.index j
  · by_cases hj : j = k
    · rw [hj, hself]
      exact hadded
    · rw [hother j hj]
      exact h.added j
  · by_cases hj : j = k
    · rw [hj, hself, hchannels, Function.update_self]
    · rw [hother j hj, hchannels, Function.update_of_ne (hfd.ne hj)]
      exact h.channels_at j
  · rw [hchannels, Function.update_of_ne (hf k).symm]
    exact h.channels_off f hf
  · by_cases hj : j = k
    · rw [hj, hself, hkernel, Function.update_self]
    · rw [hother j hj, hkernel, Function.update_of_ne (hfd.ne hj)]
      exact h.kernel_at j
  · rw [hkernel, Function.update_of_ne (hf k).symm]
    exact h.kernel_off f hf

/-- `UpdateChannel` on a channel whose events were just set does to it what `Channel.update` says. -/
theorem Consistent.updateChannel {p : Poller K} (h : Consistent fd p) (hfd : Function.Injective fd) (k : K)
    (events : Events) :
    ∃ p', (p.setChannel k { p.channel k with events := events, addedToLoop := true }).updateChannel fd k = some p' ∧
      Consistent fd p' ∧
      p'.channel = Function.update p.channel k ({ p.channel k with events := events }.update).1 := by
  have hchannels := h.channels_at k
  have hkernel := h.kernel_at k
  have hsame : ∀ x : Option K, p.channels (fd k) = x → p.channels = Function.update p.channels (fd k) x :=
    fun x hx => (Function.update_eq_self_iff.mpr hx.symm).symm
  obtain hindex | hindex | hindex := h.index k
  · rw [hindex, if_pos rfl] at hchannels
    rw [hindex, if_neg (by decide)] at hkernel
    have hupdate : ({ p.channel k with events := events }.update).1 = ⟨events, 1, true⟩ := by
      simp [Channel.update, hindex]
    refine ⟨⟨Function.update p.channel k ⟨events, 1, true⟩, Function.update p.channels (fd k) (some k),
      Function.update p.kernel (fd k) (some (events ||| EPOLLET, k)), p.ctlErrors⟩, ?_, ?_, by rw [hupdate]⟩
    · simp [Poller.updateChannel, setChannel, setIndex, hindex, hchannels, update_add, hkernel]
    · exact h.change hfd (.inr (.inl rfl)) (by simp) rfl rfl rfl rfl
  · rw [hindex, if_neg (by decide)] at hchannels
    rw [hindex, if_pos rfl] at hkernel
    by_cases hnone : events = Channel.kNoneEvent
    · have hupdate : ({ p.channel k with events := events }.update).1 = ⟨events, 2, true⟩ := by
        simp [Channel.update, hindex, Channel.isNoneEvent, hnone]
      refine ⟨⟨Function.update p.channel k ⟨events, 2, true⟩, p.channels,
        Function.update p.kernel (fd k) none, p.ctlErrors⟩, ?_, ?_, by rw [hupdate]⟩
      · simp [Poller.updateChannel, setChannel, setIndex, hindex, hchannels, Channel.isNoneEvent, hnone, update_del,
          hkernel]
      · exact h.change hfd (.inr (.inr rfl)) (by simp) rfl (hsame _ hchannels) rfl rfl
    · have hupdate : ({ p.channel k with events := events }.update).1 = ⟨events, 1, true⟩ := by
        simp [Channel.update, hindex, Channel.isNoneEvent, hnone]
      refine ⟨⟨Function.update p.channel k ⟨events, 1, true⟩, p.channels,
        Function.update p.kernel (fd k) (some (events ||| EPOLLET, k)), p.ctlErrors⟩, ?_, ?_, by rw [hupdate]⟩
      · simp [Poller.updateChannel, setChannel, hindex, hchannels, Channel.isNoneEvent, hnone, update_mod, hkernel]
      · exact h.change hfd (.inr (.inl rfl)) (by simp) rfl (hsame _ hchannels) rfl rfl
  · rw [hindex, if_neg (by decide)] at hchannels
    rw [hindex, if_neg (by decide)] at hkernel
    have hupdate : ({ p.channel k with events := events }.update).1 = ⟨events, 1, true⟩ := by
      simp [Channel.update, hindex]
    refine ⟨⟨Function.update p.channel k ⟨events, 1, true⟩, p.channels,
      Function.update p.kernel (fd k) (some (events ||| EPOLLET, k)), p.ctlErrors⟩, ?_, ?_, by rw [hupdate]⟩
    · simp [Poller.updateChannel, setChannel, setIndex, hindex, hchannels, update_add, hkernel]
    · exact h.change hfd (.inr (.inl rfl)) (by simp) rfl (hsame _ hchannels) rfl rfl

/-- `RemoveChannel` on a channel without events that has been added does to it what `Channel.remove` says. -/
theorem Consistent.removeChannel {p : Poller K} (h : Consistent fd p) (hfd : Function.Injective fd) {k : K}
    (hnone : (p.channel k).isNoneEvent = true) (hadded : (p.channel k).index ≠ -1) :
    ∃ p', (p.setChannel k { p.channel k with addedToLoop := false }).removeChannel fd k = some p' ∧
      Consistent fd p' ∧
      p'.channel = Function.update p.channel k { p.channel k with addedToLoop := false, index := -1 } := by
  have hchannels := h.channels_at k
  have hkernel := h.kernel_at k
  have hevents : (p.channel k).events = Channel.kNoneEvent := by simpa [Channel.isNoneEvent] using hnone
  rw [if_neg hadded] at hchannels
  refine ⟨⟨Function.update p.channel k { p.channel k with addedToLoop := false, index := -1 },
    Function.update p.channels (fd k) none, Function.update p.kernel (fd k) none, p.ctlErrors⟩, ?_, ?_, rfl⟩
  · obtain hindex | hindex | hindex := h.index k
    · exact absurd hindex hadded
    · rw [hindex, if_pos rfl] at hkernel
      simp [Poller.removeChannel, setChannel, setIndex, hindex, hchannels, Channel.isNoneEvent, hevents, update_del,
        hkernel]
    · rw [hindex, if_neg (by decide)] at hkernel
      simp [Poller.removeChannel, setChannel, setIndex, hindex, hchannels, Channel.isNoneEvent, hevents, hkernel]
  · exact h.change hfd (.inl rfl) (by simp) rfl rfl rfl rfl

/-! ## Sequences of operations -/

/-- A poller with the last operation made on each channel. -/
structure History (K : Type) where
  poller : Poller K
  lastOp : K → Option Op

def History.start : History K := ⟨.start, fun _ => none⟩

def History.step (fd : K → ℕ) (s : History K) (e : K × Op) : Option (History K) :=
  (s.poller.apply fd e.1 e.2).map fun p => ⟨p, Function.update s.lastOp e.1 (some e.2)⟩

/-- `Remove` is called on a channel without events that has been updated since it was last removed. -/
def History.Allowed (s : History K) (e : K × Op) : Prop :=
  e.2 = .remove → (s.poller.channel e.1).isNoneEvent = true ∧ ∃ op, s.lastOp e.1 = some op ∧ op ≠ .remove

/-- `channels_`, the channels' own fields and the kernel agree, and no `epoll_ctl` has failed. -/
structure Agree (fd : K → ℕ) (p : Poller K) : Prop where
  channels : ∀ f k, p.channels f = some k ↔ fd k = f ∧ ((p.channel k).index = 1 ∨ (p.channel k).index = 2)
  added : ∀ k, (p.channel k).addedToLoop = true ↔ (p.channel k).index ≠ -1
  kernel : ∀ f events k, p.kernel f = some (events, k) ↔
    fd k = f ∧ (p.channel k).index = 1 ∧ events = (p.channel k).events ||| EPOLLET
  legal : p.ctlErrors = 0

omit [DecidableEq K] in
theorem Consistent.agree {p : Poller K} (h : Consistent fd p) : Agree fd p := by
  refine ⟨fun f k => ?_, h.added, fun f events k => ?_, h.no_errors⟩
  · constructor
    · intro hf
      obtain ⟨j, rfl⟩ : ∃ j, fd j = f := by
        by_contra hoff
        rw [h.channels_off f fun j hj => hoff ⟨j, hj⟩] at hf
        cases hf
      rw [h.channels_at j] at hf
      split_ifs at hf with hindex
      obtain rfl := Option.some.inj hf
      exact ⟨rfl, (h.index j).resolve_left hindex⟩
    · rintro ⟨rfl, hindex⟩
      rw [h.channels_at k, if_neg (by omega)]
  · constructor
    · intro hf
      obtain ⟨j, rfl⟩ : ∃ j, fd j = f := by
        by_contra hoff
        rw [h.kernel_off f fun j hj => hoff ⟨j, hj⟩] at hf
        cases hf
      rw [h.kernel_at j] at hf
      split_ifs at hf with hindex
      obtain ⟨rfl, rfl⟩ := Prod.mk.inj (Option.some.inj hf)
      exact ⟨rfl, hindex, rfl⟩
    · rintro ⟨rfl, hindex, rfl⟩
      rw [h.kernel_at k, if_pos hindex]

/-- The invariant of a run: the views agree, and the channels that were updated last are those with an index. -/
structure Tracked (fd : K → ℕ) (s : History K) : Prop where
  consistent : Consistent fd s.poller
  updated : ∀ k, (∃ op, s.lastOp k = some op ∧ op ≠ .remove) ↔ (s.poller.channel k).index ≠ -1

theorem update_index_ne (c : Channel) : c.update.1.index ≠ -1 := by
  unfold Channel.update
  simp only
  split_ifs with hindex hnone
  · show (1 : ℤ) ≠ -1
    decide
  · show (2 : ℤ) ≠ -1
    decide
  · exact fun hc => hindex (.inl hc)

theorem Tracked.change {s : History K} (h : Tracked fd s) {k : K} {op : Op} {p : Poller K} {c : Channel}
    (hp : Consistent fd p) (hchannel : p.channel = Function.update s.poller.channel k c)
    (hop : op ≠ .remove ↔ c.index ≠ -1) : Tracked fd ⟨p, Function.update s.lastOp k (some op)⟩ := by
  refine ⟨hp, fun j => ?_⟩
  show (∃ o, Function.update s.lastOp k (some op) j = some o ∧ o ≠ .remove) ↔ (p.channel j).index ≠ -1
  rw [hchannel]
  by_cases hj : j = k
  · rw [hj, Function.update_self, Function.update_self, ← hop]
    simp
  · rw [Function.update_of_ne hj, Function.update_of_ne hj]
    exact h.updated j

theorem Tracked.step {s : History K} {e : K × Op} (h : Tracked fd s) (hfd : Function.Injective fd)
    (he : s.Allowed e) : ∃ s', s.step fd e = some s' ∧ Tracked fd s' := by
  obtain ⟨k, op⟩ := e
  by_cases hop : op = .remove
  · subst hop
    obtain ⟨hnone, hupdated⟩ : (s.poller.channel k).isNoneEvent = true ∧ _ := he rfl
    obtain ⟨p, hp, hconsistent, hchannel⟩ := h.consistent.removeChannel hfd hnone ((h.updated k).mp hupdated)
    refine ⟨⟨p, Function.update s.lastOp k (some .remove)⟩, ?_, h.change hconsistent hchannel (by simp)⟩
    simp [History.step, Poller.apply, hnone, hp]
  · obtain ⟨p, hp, hconsistent, hchannel⟩ :=
      h.consistent.updateChannel hfd k (op.events (s.poller.channel k).events)
    refine ⟨_, ?_, h.change hconsistent hchannel (iff_of_true hop ?_)⟩
    · simp [History.step, Poller.apply, hop, hp]
    · exact update_index_ne _

/-- **Channel, poller and kernel agree.**  For channels with distinct descriptors, every sequence of operations that
removes only what it may runs to its end: no assertion of the poller fails and no `epoll_ctl` is fatal; and in the
state it reaches the three views agree. -/
theorem poller_agrees (hfd : Function.Injective fd) {es : List (K × Op)}
    (hes : Meets (History.step fd) History.Allowed .start es) :
    ∃ s, runFrom (History.step fd) .start es = some s ∧ Agree fd s.poller := by
  have hstart : Tracked fd (.start : History K) := by
    refine ⟨start_consistent, fun k => ?_⟩
    simp [History.start, Poller.start, Channel.new]
  obtain ⟨s, hrun, hs⟩ := exists_run_of_meets (fun _ _ h he => h.step hfd he) hstart hes
  exact ⟨s, hrun, hs.consistent.agree⟩

theorem poller_agrees_reopened :
    ∃ s, runFrom (History.step fun k : ℕ => k) .start
        [(5, .enableReading), (5, .disableAll), (5, .remove), (5, .enableWriting)] = some s ∧
      Agree (fun k : ℕ => k) s.poller := by
  refine poller_agrees (fun _ _ h => h) ⟨?_, fun s₁ h₁ => ⟨?_, fun s₂ h₂ => ⟨?_, fun s₃ h₃ => ⟨?_, fun _ _ => trivial⟩⟩⟩⟩
  · intro h
    cases h
  · intro h
    cases h
  · intro _
    obtain rfl := Option.some.inj h₁
    obtain rfl := Option.some.inj h₂
    exact ⟨by decide, .disableAll, rfl, by decide⟩
  · intro h
    cases h

end Poller
end Chater.Net
