import Mathlib.Tactic

/-!
# Channels and their epoll registration

`Channel` with the part of `Poller::UpdateChannel` and `Poller::RemoveChannel` that concerns one channel: the
interest set, the poller's `index_` and the `epoll_ctl` call made for it.  `Poller::Update` adds `EPOLLET` to every
interest set, so all channels are edge-triggered.
-/

namespace Chater.Net

set_option autoImplicit false

abbrev Events := BitVec 32

def EPOLLIN : Events := 0x001
def EPOLLPRI : Events := 0x002
def EPOLLOUT : Events := 0x004
def EPOLLERR : Events := 0x008
def EPOLLHUP : Events := 0x010
def EPOLLRDHUP : Events := 0x2000
def EPOLLET : Events := 0x80000000

/-- The `errno` of a call that has nothing to take, or no room, on a non-blocking socket. -/
def EAGAIN : ℕ := 11

def Events.any (mask bits : Events) : Bool := mask &&& bits != 0#32

inductive EpollOp
  | EPOLL_CTL_ADD
  | EPOLL_CTL_DEL
  | EPOLL_CTL_MOD
deriving DecidableEq, Repr

structure EpollCtl where
  operation : EpollOp
  events : Events
deriving DecidableEq, Repr

structure Channel where
  events : Events
  index : ℤ
  addedToLoop : Bool
deriving DecidableEq, Repr

namespace Channel

def kNoneEvent : Events := 0
def kReadEvent : Events := EPOLLIN ||| EPOLLPRI
def kWriteEvent : Events := EPOLLOUT

def new : Channel := ⟨0, -1, false⟩

def isNoneEvent (c : Channel) : Bool := c.events == kNoneEvent
def isWriting (c : Channel) : Bool := c.events.any kWriteEvent
def isReading (c : Channel) : Bool := c.events.any kReadEvent

/-- `Poller::Update`. -/
def pollerUpdate (operation : EpollOp) (c : Channel) : EpollCtl := ⟨operation, c.events ||| EPOLLET⟩

/-- `Channel::Update` through `Poller::UpdateChannel`. -/
def update (c : Channel) : Channel × EpollCtl :=
  let c := { c with addedToLoop := true }
  if c.index = -1 ∨ c.index = 2 then ({ c with index := 1 }, pollerUpdate .EPOLL_CTL_ADD c)
  else if c.isNoneEvent then ({ c with index := 2 }, pollerUpdate .EPOLL_CTL_DEL c)
  else (c, pollerUpdate .EPOLL_CTL_MOD c)

def enableReading (c : Channel) : Channel × EpollCtl := update { c with events := c.events ||| kReadEvent }
def disableReading (c : Channel) : Channel × EpollCtl := update { c with events := c.events &&& ~~~kReadEvent }
def enableWriting (c : Channel) : Channel × EpollCtl := update { c with events := c.events ||| kWriteEvent }
def disableWriting (c : Channel) : Channel × EpollCtl := update { c with events := c.events &&& ~~~kWriteEvent }
def disableAll (c : Channel) : Channel × EpollCtl := update { c with events := kNoneEvent }

def remove (c : Channel) : Option (Channel × List EpollCtl) :=
  if c.isNoneEvent ∧ (c.index = 1 ∨ c.index = 2) then
    some ({ c with addedToLoop := false, index := -1 },
      if c.index = 1 then [pollerUpdate .EPOLL_CTL_DEL c] else [])
  else none

def registered (c : Channel) : Bool := c.index == 1

/-! ## Dispatch of a reported event -/

inductive Callback
  | close
  | error
  | read
  | write
deriving DecidableEq, Repr

/-- `Channel::HandleEvent`: the callbacks that run for `revents`, in order. -/
def handleEvent (revents : Events) : List Callback :=
  (if revents.any EPOLLHUP && !revents.any EPOLLIN then [.close] else []) ++
  (if revents.any EPOLLERR then [.error] else []) ++
  (if revents.any (EPOLLIN ||| EPOLLPRI ||| EPOLLRDHUP) then [.read] else []) ++
  (if revents.any EPOLLOUT then [.write] else [])

/-! ## The interest set -/

@[simp] theorem update_events (c : Channel) : c.update.1.events = c.events := by
  simp only [update]
  split_ifs <;> rfl

theorem any_or (x y z : Events) : (x ||| y).any z = (x.any z || y.any z) := by
  unfold Events.any
  rw [BitVec.and_or_distrib_right, Bool.eq_iff_iff]
  simp only [bne_iff_ne, ne_eq, BitVec.or_eq_zero_iff, Bool.or_eq_true]
  exact Decidable.not_and_iff_not_or_not

theorem any_or_right (x y z : Events) : x.any (y ||| z) = (x.any y || x.any z) := by
  unfold Events.any
  rw [BitVec.and_or_distrib_left, Bool.eq_iff_iff]
  simp only [bne_iff_ne, ne_eq, BitVec.or_eq_zero_iff, Bool.or_eq_true]
  exact Decidable.not_and_iff_not_or_not

theorem new_isWriting : new.isWriting = false := by
  decide

@[simp] theorem enableWriting_isWriting (c : Channel) : c.enableWriting.1.isWriting = true := by
  simp only [enableWriting, isWriting, update_events, any_or]
  exact Bool.or_true _

@[simp] theorem disableWriting_isWriting (c : Channel) : c.disableWriting.1.isWriting = false := by
  simp only [disableWriting, isWriting, update_events, Events.any, BitVec.and_assoc]
  have hclear : ~~~kWriteEvent &&& kWriteEvent = 0 := by decide
  simp [hclear]

@[simp] theorem enableReading_isWriting (c : Channel) : c.enableReading.1.isWriting = c.isWriting := by
  simp only [enableReading, isWriting, update_events, any_or]
  exact Bool.or_false _

theorem remove_isWriting {c : Channel} {r : Channel × List EpollCtl} (h : c.remove = some r) :
    r.1.isWriting = c.isWriting := by
  unfold remove at h
  split_ifs at h
  all_goals
    obtain rfl := Option.some.inj h
    rfl

end Channel
end Chater.Net
