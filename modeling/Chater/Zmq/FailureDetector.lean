import Chater.Foundations.FairRun
import Chater.Zmq.LossReports

/-!
# How long the trade client takes to notice a dead front

The loops of the trade client with a clock.  Each step happens at some time, not before the step before it, and a sleep
of the heartbeat loop lasts at least its hundred milliseconds; nothing else is known of how long steps take.  The DEALER
has neither a timeout for sends nor `ZMQ_DONTWAIT`, so a ping that finds its queue full waits until there is room.

Between two looks at `lastPongTime_` the heartbeat loop sleeps for a whole period.  So when no pong comes any more, at
most three of its looks find the last pong recent enough, and at most two of its pings can fail before one too many does.
The loop reports the loss in its sixth round at the latest.
-/

namespace Chater.Zmq

open Foundations

set_option autoImplicit false

/-- `asleepSince` is when the heartbeat loop last went to sleep, and `passes` counts its looks at `lastPongTime_` since
that was set which found it recent enough.  `full` says that the queue of the DEALER has no room for a message. -/
structure TimedLoops where
  loops : TradeLoops
  clock : ℕ
  asleepSince : ℕ
  passes : ℕ
  full : Bool

namespace TimedLoops

def fresh : TimedLoops := ⟨.fresh, 0, 0, 0, false⟩

/-- An event of the loops with the time at which it happens, or a change of the queue. -/
inductive Event
  | loops (now : ℕ) (event : TradeLoops.Event)
  | queue (full : Bool)

/-- The time that the step reads from the clock is that at which it happens. -/
def readsClock (now : ℕ) : TradeLoops.Event → Bool
  | .connect call => call.now == now
  | .recv _ _ read => read == now
  | .heartbeat _ read => read == now
  | _ => true

def sleepTime : ℕ := 100000000

/-- A sleep is not over before its time. -/
def sleptEnough (s : TimedLoops) (now : ℕ) (event : TradeLoops.Event) : Bool :=
  match event, s.loops.heartbeatThread with
  | .heartbeat _ _, .sleep _ => s.asleepSince + sleepTime ≤ now
  | _, _ => true

/-- The ping is not sent before there is room for it. -/
def hasRoom (s : TimedLoops) (event : TradeLoops.Event) : Bool :=
  match event, s.loops.heartbeatThread with
  | .heartbeat true _, .sendPing => !s.full
  | _, _ => true

def asleepAfter (s : TimedLoops) (now : ℕ) (event : TradeLoops.Event) : ℕ :=
  match event, s.loops.heartbeatThread with
  | .heartbeat _ _, .whileSleeping _ => now
  | _, _ => s.asleepSince

def passesAfter (s : TimedLoops) : TradeLoops.Event → ℕ
  | .connect _ => if s.loops.dealerSock then s.passes else 0
  | .recv _ _ _ => if s.loops.recvThread = .storePongTime then 0 else s.passes
  | .heartbeat _ _ =>
    match s.loops.heartbeatThread with
    | .loadPongTime _ => s.passes + 1
    | _ => s.passes
  | _ => s.passes

def step (s : TimedLoops) : Event → Option TimedLoops
  | .loops now event =>
    if s.clock ≤ now ∧ readsClock now event ∧ s.sleptEnough now event ∧ s.hasRoom event then
      (s.loops.step event).map fun loops => ⟨loops, now, s.asleepAfter now event, s.passesAfter event, s.full⟩
    else none
  | .queue full => some { s with full := full }

theorem step_spec {s t : TimedLoops} {now : ℕ} {event : TradeLoops.Event} (h : s.step (.loops now event) = some t) :
    s.clock ≤ now ∧ readsClock now event = true ∧ s.sleptEnough now event = true ∧
      s.loops.step event = some t.loops ∧ t = ⟨t.loops, now, s.asleepAfter now event, s.passesAfter event, s.full⟩ := by
  simp only [step] at h
  split_ifs at h with hguard
  obtain ⟨loops, hloops, rfl⟩ := Option.map_eq_some_iff.mp h
  exact ⟨hguard.1, hguard.2.1, hguard.2.2.1, hloops, rfl⟩

/-! ## The pace of the heartbeat loop -/

/-- The heartbeat period in nanoseconds. -/
def period (s : TradeLoops) : ℕ := s.heartbeatSec.val.toNat * 1000000000

/-- The last pong and `k` periods. -/
def mark (s : TradeLoops) (k : ℕ) : ℕ := s.lastPongTime + k * period s

theorem mark_succ (s : TradeLoops) (k : ℕ) : mark s (k + 1) = mark s k + period s := by
  rw [mark, mark, Nat.succ_mul, Nat.add_assoc]

/-- What the place of the heartbeat loop says of the time when `k + 1` looks have passed: a round begins `k` periods
after the last pong at the earliest, and its own look is a period later. -/
def Paced (s : TimedLoops) (k : ℕ) : Prop :=
  match s.loops.heartbeatThread with
  | .whileRunning => mark s.loops k ≤ s.clock
  | .whileSleeping slept => (mark s.loops k : ℤ) + slept * 1000000 ≤ s.clock
  | .sleep slept => (mark s.loops k : ℤ) + slept * 1000000 ≤ s.asleepSince
  | .ifRunning => s.loops.running = true → mark s.loops (k + 1) ≤ s.clock
  | .sendPing | .addMissedPong | .readClock => mark s.loops (k + 1) ≤ s.clock
  | .loadPongTime now => mark s.loops (k + 1) ≤ now
  | _ => True

/-- The heartbeat loop has not found the link dead. -/
def watching : HeartbeatPoint → Bool
  | .absent | .clearRunning | .onDisconnected | .ended => false
  | _ => true

structure Sound (s : TimedLoops) : Prop where
  threads : s.loops.Threads
  pong : s.loops.lastPongTime ≤ s.clock
  slept : ∀ n, s.loops.heartbeatThread = .whileSleeping n ∨ s.loops.heartbeatThread = .sleep n → 0 ≤ n
  asleep : s.asleepSince ≤ s.clock
  look : ∀ now, s.loops.heartbeatThread = .loadPongTime now → now ≤ s.clock
  missed : 0 ≤ s.loops.missedPongs
  fewMissed : watching s.loops.heartbeatThread = true → s.loops.missedPongs < kMaxMissedPongs
  fewPasses : watching s.loops.heartbeatThread = true → s.passes ≤ 3
  paced : ∀ k, s.passes = k + 1 → s.Paced k
  starting : s.loops.user = .startHeartbeatThread → s.passes = 0 ∧ s.loops.missedPongs = 0

theorem fresh_sound : fresh.Sound where
  threads := TradeLoops.start_threads
  pong := le_rfl
  slept n h := by simp [fresh, TradeLoops.fresh] at h
  asleep := le_rfl
  look now h := by cases h
  missed := le_rfl
  fewMissed h := by cases h
  fewPasses h := by cases h
  paced k h := by cases h
  starting h := by cases h

variable {s t : TimedLoops} {e : Event}

/-- Time passes and the heartbeat loop stays where it is. -/
theorem Paced.later {k : ℕ} (h : s.Paced k) (hthread : t.loops.heartbeatThread = s.loops.heartbeatThread)
    (hmark : ∀ k, mark t.loops k = mark s.loops k) (hclock : s.clock ≤ t.clock) (hasleep : t.asleepSince = s.asleepSince)
    (hrunning : t.loops.running = true → s.loops.running = true) : t.Paced k := by
  unfold Paced at h ⊢
  rw [hthread]
  cases hpoint : s.loops.heartbeatThread with
  | whileRunning | sendPing | addMissedPong | readClock =>
    simp only [hpoint, hmark] at h ⊢
    omega
  | whileSleeping slept =>
    simp only [hpoint, hmark] at h ⊢
    omega
  | sleep slept =>
    simp only [hpoint, hmark, hasleep] at h ⊢
    exact h
  | ifRunning =>
    simp only [hpoint, hmark] at h ⊢
    exact fun hr => (h (hrunning hr)).trans hclock
  | loadPongTime now =>
    simp only [hpoint, hmark] at h ⊢
    exact h
  | absent | clearRunning | onDisconnected | ended => trivial

/-- There is no heartbeat loop. -/
theorem sound_of_absent (hthreads : t.loops.Threads) (habsent : t.loops.heartbeatThread = .absent)
    (hpong : t.loops.lastPongTime ≤ t.clock) (hasleep : t.asleepSince ≤ t.clock) (hmissed : 0 ≤ t.loops.missedPongs)
    (hstarting : t.loops.user = .startHeartbeatThread → t.passes = 0 ∧ t.loops.missedPongs = 0) : t.Sound where
  threads := hthreads
  pong := hpong
  slept n h := by simp [habsent] at h
  asleep := hasleep
  look now h := by simp [habsent] at h
  missed := hmissed
  fewMissed h := by simp [habsent, watching] at h
  fewPasses h := by simp [habsent, watching] at h
  paced k h := by simp [Paced, habsent]
  starting := hstarting

/-- A step of another thread that does not set `lastPongTime_`. -/
theorem Sound.aside (h : s.Sound) (hthreads : t.loops.Threads) (hclock : s.clock ≤ t.clock)
    (hsame : t.loops.heartbeatThread = s.loops.heartbeatThread ∧ t.loops.lastPongTime = s.loops.lastPongTime ∧
      t.loops.heartbeatSec = s.loops.heartbeatSec ∧ t.asleepSince = s.asleepSince ∧ t.passes = s.passes)
    (hrunning : t.loops.running = true → s.loops.running = true)
    (hmissed : t.loops.missedPongs = s.loops.missedPongs ∨ t.loops.missedPongs = 0)
    (huser : t.loops.user = .startHeartbeatThread → s.loops.user = .startHeartbeatThread) : t.Sound := by
  obtain ⟨hthread, hpong, hsec, hasleep, hpasses⟩ := hsame
  have hmark : ∀ k, mark t.loops k = mark s.loops k := fun k => by rw [mark, mark, period, period, hpong, hsec]
  refine ⟨hthreads, ?_, ?_, ?_, ?_, ?_, ?_, ?_, ?_, ?_⟩
  · rw [hpong]
    exact h.pong.trans hclock
  · rw [hthread]
    exact h.slept
  · rw [hasleep]
    exact h.asleep.trans hclock
  · rw [hthread]
    exact fun now hnow => (h.look now hnow).trans hclock
  · obtain heq | heq := hmissed <;> rw [heq]
    exact h.missed
  · rw [hthread]
    intro hwatching
    obtain heq | heq := hmissed <;> rw [heq]
    · exact h.fewMissed hwatching
    · decide
  · rw [hthread, hpasses]
    exact h.fewPasses
  · rw [hpasses]
    exact fun k hk => (h.paced k hk).later hthread hmark hclock hasleep hrunning
  · intro hu
    obtain ⟨hzero, hnone⟩ := h.starting (huser hu)
    rw [hpasses]
    refine ⟨hzero, ?_⟩
    obtain heq | heq := hmissed <;> rw [heq]
    exact hnone

/-- What the receive loop does to what the heartbeat loop reads. -/
theorem recvStep_cases {s t : TradeLoops} {polled : PollResult} {sock : ZmqSocket} {now : ℕ}
    (h : s.recvStep polled sock now = some t) :
    t.heartbeatThread = s.heartbeatThread ∧ t.heartbeatSec = s.heartbeatSec ∧ t.user = s.user ∧
      (t.running = true → s.running = true) ∧ (t.missedPongs = s.missedPongs ∨ t.missedPongs = 0) ∧
      t.lastPongTime = if s.recvThread = .storePongTime then now else s.lastPongTime := by
  cases hpoint : s.recvThread with
  | absent | ended =>
    simp only [TradeLoops.recvStep, hpoint] at h
    cases h
  | poll =>
    simp only [TradeLoops.recvStep, hpoint] at h
    cases polled with
    | error | noInput | input =>
      obtain rfl := Option.some.inj h
      exact ⟨rfl, rfl, rfl, id, .inl rfl, rfl⟩
  | recv =>
    simp only [TradeLoops.recvStep, hpoint] at h
    split_ifs at h
    all_goals
      obtain rfl := Option.some.inj h
      exact ⟨rfl, rfl, rfl, id, .inl rfl, rfl⟩
  | clearRunning =>
    simp only [TradeLoops.recvStep, hpoint] at h
    obtain rfl := Option.some.inj h
    exact ⟨rfl, rfl, rfl, by simp, .inl rfl, rfl⟩
  | clearMissedPongs =>
    simp only [TradeLoops.recvStep, hpoint] at h
    obtain rfl := Option.some.inj h
    exact ⟨rfl, rfl, rfl, id, .inr rfl, rfl⟩
  | whileRunning | pollFailed | recvFailed | onDisconnected | storePongTime | onMessage =>
    simp only [TradeLoops.recvStep, hpoint] at h
    obtain rfl := Option.some.inj h
    exact ⟨rfl, rfl, rfl, id, .inl rfl, rfl⟩

theorem Sound.recv (h : s.Sound) {polled : PollResult} {sock : ZmqSocket} {now : ℕ} {loops : TradeLoops}
    (hthreads : loops.Threads) (hclock : s.clock ≤ now) (hstep : s.loops.recvStep polled sock now = some loops) :
    Sound ⟨loops, now, s.asleepSince, if s.loops.recvThread = .storePongTime then 0 else s.passes, s.full⟩ := by
  obtain ⟨hthread, hsec, huser, hrunning, hmissed, hpong⟩ := recvStep_cases hstep
  by_cases hstore : s.loops.recvThread = .storePongTime
  · rw [if_pos hstore] at hpong ⊢
    -- a pong: the looks are counted anew
    refine ⟨hthreads, hpong.le, ?_, h.asleep.trans hclock, ?_, ?_, ?_, by simp, by simp, ?_⟩
    · simpa [hthread] using h.slept
    · intro n hn
      exact (h.look n (hthread ▸ hn)).trans hclock
    · obtain heq | heq := hmissed
      · exact heq ▸ h.missed
      · exact heq.ge
    · intro hwatching
      obtain heq | heq := hmissed
      · exact heq ▸ h.fewMissed (hthread ▸ hwatching)
      · exact heq ▸ (by decide)
    · intro hu
      refine ⟨rfl, ?_⟩
      obtain heq | heq := hmissed
      · exact heq.trans (h.starting (huser ▸ hu)).2
      · exact heq
  · rw [if_neg hstore] at hpong ⊢
    exact h.aside hthreads hclock ⟨hthread, hpong, hsec, rfl, rfl⟩ hrunning hmissed fun hu => huser ▸ hu

/-- Three periods after the last pong it is too late. -/
theorem overdue_of_mark {s : TradeLoops} {k now : ℕ} (hk : 3 ≤ k) (hmark : mark s k ≤ now) :
    s.heartbeatSec * kMaxMissedPongs ≤ elapsedSec now s.lastPongTime := by
  have hthree : mark s 3 ≤ mark s k := Nat.add_le_add_left (Nat.mul_le_mul_right _ hk) _
  have hlate : (s.heartbeatSec.val.toNat * 3 : ℤ) * 1000000000 ≤ (now : ℤ) - s.lastPongTime := by
    have := hthree.trans hmark
    rw [mark, period] at this
    omega
  rw [elapsedSec, Int.tdiv_eq_ediv_of_nonneg (by omega), kMaxMissedPongs]
  omega

/-! ## What the heartbeat loop does -/

/-- The places to which the heartbeat loop goes on in its round, at the time `now`. -/
inductive Goes (s : TimedLoops) (now : ℕ) : HeartbeatPoint → Prop
  | beginSleeping (hpoint : s.loops.heartbeatThread = .whileRunning) (hrunning : s.loops.running = true) :
      Goes s now (.whileSleeping 0)
  | sleep (slept : ℤ) (hpoint : s.loops.heartbeatThread = .whileSleeping slept)
      (hshort : slept < s.loops.heartbeatSec * 1000) : Goes s now (.sleep slept)
  | wake (slept : ℤ) (hpoint : s.loops.heartbeatThread = .sleep slept) (hlong : s.asleepSince + sleepTime ≤ now) :
      Goes s now (.whileSleeping (slept + 100))
  | slept (slept : ℤ) (hpoint : s.loops.heartbeatThread = .whileSleeping slept)
      (hwhole : s.loops.running = true → s.loops.heartbeatSec * 1000 ≤ slept) : Goes s now .ifRunning
  | ping (hpoint : s.loops.heartbeatThread = .ifRunning) (hrunning : s.loops.running = true) : Goes s now .sendPing
  | pinged (hpoint : s.loops.heartbeatThread = .sendPing) : Goes s now .readClock
  | pingFailed (hpoint : s.loops.heartbeatThread = .sendPing) : Goes s now .addMissedPong
  | look (hpoint : s.loops.heartbeatThread = .readClock) : Goes s now (.loadPongTime now)

/-- The steps of the heartbeat loop: it goes on in its round, finds `running_` cleared, counts a failed ping, looks at
`lastPongTime_`, clears `running_` or reports. -/
inductive Beats (s : TimedLoops) (now : ℕ) : TimedLoops → Prop
  | goes (point : HeartbeatPoint) (asleepSince : ℕ) (hgoes : Goes s now point)
      (hasleep : asleepSince = s.asleepSince ∨ asleepSince = now)
      (hsleep : ∀ slept, point = .sleep slept → asleepSince = now) :
      Beats s now ⟨{ s.loops with heartbeatThread := point }, now, asleepSince, s.passes, s.full⟩
  | stops (hwatching : watching s.loops.heartbeatThread = true) (hstopped : s.loops.running = false) :
      Beats s now ⟨{ s.loops with heartbeatThread := .ended }, now, s.asleepSince, s.passes, s.full⟩
  | misses (hpoint : s.loops.heartbeatThread = .addMissedPong) :
      Beats s now ⟨{ s.loops with
        missedPongs := s.loops.missedPongs + 1
        heartbeatThread := if kMaxMissedPongs ≤ s.loops.missedPongs + 1 then .clearRunning else .whileRunning },
        now, s.asleepSince, s.passes, s.full⟩
  | looks (read : ℕ) (hpoint : s.loops.heartbeatThread = .loadPongTime read) :
      Beats s now ⟨{ s.loops with
        heartbeatThread :=
          if s.loops.heartbeatSec * kMaxMissedPongs ≤ elapsedSec read s.loops.lastPongTime then .clearRunning
          else .whileRunning },
        now, s.asleepSince, s.passes + 1, s.full⟩
  | clears (hpoint : s.loops.heartbeatThread = .clearRunning) :
      Beats s now
        ⟨{ s.loops with running := false, heartbeatThread := .onDisconnected }, now, s.asleepSince, s.passes, s.full⟩
  | reports (hpoint : s.loops.heartbeatThread = .onDisconnected) :
      Beats s now ⟨{ s.loops with
        heartbeatThread := .ended
        callbacks := s.loops.callbacks ++ [.disconnected 1]
        log := s.loops.log ++ [.report 1] },
        now, s.asleepSince, s.passes, s.full⟩

theorem beats_of_step {sent : Bool} {now : ℕ} {loops : TradeLoops}
    (hslept : s.sleptEnough now (.heartbeat sent now) = true) (hstep : s.loops.heartbeatStep sent now = some loops) :
    Beats s now
      ⟨loops, now, s.asleepAfter now (.heartbeat sent now), s.passesAfter (.heartbeat sent now), s.full⟩ := by
  cases hpoint : s.loops.heartbeatThread
  all_goals
    simp only [TradeLoops.heartbeatStep, hpoint, Option.some.injEq, reduceCtorEq] at hstep
  all_goals
    simp only [asleepAfter, passesAfter, hpoint]
    subst hstep
  case whileRunning =>
    split_ifs with hrunning
    · exact .goes _ _ (.beginSleeping hpoint hrunning) (.inl rfl) (by simp)
    · exact .stops (by rw [hpoint]; rfl) (Bool.eq_false_iff.mpr hrunning)
  case whileSleeping slept =>
    split_ifs with hsleep
    · exact .goes _ _ (.sleep slept hpoint hsleep.1) (.inr rfl) fun _ _ => rfl
    · refine .goes _ _ (.slept slept hpoint fun hrunning => ?_) (.inr rfl) (by simp)
      exact not_lt.mp fun hlt => hsleep ⟨hlt, hrunning⟩
  case sleep slept =>
    simp only [sleptEnough, hpoint] at hslept
    exact .goes _ _ (.wake slept hpoint (of_decide_eq_true hslept)) (.inl rfl) (by simp)
  case ifRunning =>
    split_ifs with hrunning
    · exact .goes _ _ (.ping hpoint hrunning) (.inl rfl) (by simp)
    · exact .stops (by rw [hpoint]; rfl) (Bool.eq_false_iff.mpr hrunning)
  case sendPing =>
    split_ifs
    · exact .goes _ _ (.pinged hpoint) (.inl rfl) (by simp)
    · exact .goes _ _ (.pingFailed hpoint) (.inl rfl) (by simp)
  case readClock => exact .goes _ _ (.look hpoint) (.inl rfl) (by simp)
  case addMissedPong => exact .misses hpoint
  case loadPongTime read => exact .looks read hpoint
  case clearRunning => exact .clears hpoint
  case onDisconnected => exact .reports hpoint

theorem Goes.watching {now : ℕ} {point : HeartbeatPoint} (h : Goes s now point) :
    watching s.loops.heartbeatThread = true := by
  cases h with
  | beginSleeping hpoint | sleep _ hpoint | wake _ hpoint | slept _ hpoint | ping hpoint | pinged hpoint
  | pingFailed hpoint | look hpoint =>
    rw [hpoint]
    rfl

theorem Goes.slept_nonneg {now : ℕ} {point : HeartbeatPoint} (h : Goes s now point) (hsound : s.Sound) (n : ℤ)
    (hn : point = .whileSleeping n ∨ point = .sleep n) : 0 ≤ n := by
  have hslept := hsound.slept
  cases h with
  | beginSleeping => simp_all
  | sleep slept hpoint =>
    obtain rfl : slept = n := by simpa using hn
    exact hslept _ (.inl hpoint)
  | wake slept hpoint =>
    obtain rfl : slept + 100 = n := by simpa using hn
    have := hslept slept (.inr hpoint)
    omega
  | slept | ping | pinged | pingFailed | look => simp at hn

/-- The loop keeps its pace as it goes on in its round. -/
theorem Goes.paced {now asleepSince k : ℕ} {point : HeartbeatPoint} (h : Goes s now point) (hsound : s.Sound)
    (hclock : s.clock ≤ now) (hsleep : ∀ slept, point = .sleep slept → asleepSince = now) (hpaced : s.Paced k) :
    Paced ⟨{ s.loops with heartbeatThread := point }, now, asleepSince, s.passes, s.full⟩ k := by
  unfold Paced at hpaced
  have hmark : ∀ j, mark { s.loops with heartbeatThread := point } j = mark s.loops j := fun _ => rfl
  cases h with
  | beginSleeping hpoint =>
    simp only [hpoint] at hpaced
    simp only [Paced, hmark]
    omega
  | sleep slept hpoint =>
    simp only [hpoint] at hpaced
    simp only [Paced, hmark, hsleep slept rfl]
    omega
  | wake slept hpoint hlong =>
    simp only [hpoint] at hpaced
    simp only [Paced, hmark]
    rw [sleepTime] at hlong
    omega
  | slept slept hpoint hwhole =>
    simp only [hpoint] at hpaced
    simp only [Paced, hmark]
    intro hrunning
    -- the loop has slept for the whole period
    have hperiod := hwhole hrunning
    have hnonneg := hsound.slept slept (.inl hpoint)
    rw [mark_succ, period]
    omega
  | ping hpoint hrunning =>
    simp only [hpoint] at hpaced
    exact (hpaced hrunning).trans hclock
  | pinged hpoint | pingFailed hpoint | look hpoint =>
    simp only [hpoint] at hpaced
    exact hpaced.trans hclock

theorem Sound.goes {now asleepSince : ℕ} {point : HeartbeatPoint} (h : s.Sound) (hgoes : Goes s now point)
    (hthreads : { s.loops with heartbeatThread := point }.Threads) (hclock : s.clock ≤ now)
    (hasleep : asleepSince = s.asleepSince ∨ asleepSince = now)
    (hsleep : ∀ slept, point = .sleep slept → asleepSince = now) :
    Sound ⟨{ s.loops with heartbeatThread := point }, now, asleepSince, s.passes, s.full⟩ where
  threads := hthreads
  pong := h.pong.trans hclock
  slept := hgoes.slept_nonneg h
  asleep := by
    have hbefore := h.asleep
    show asleepSince ≤ now
    omega
  look n hn := by
    change point = .loadPongTime n at hn
    cases hgoes <;> cases hn
    exact le_rfl
  missed := h.missed
  fewMissed _ := h.fewMissed hgoes.watching
  fewPasses _ := h.fewPasses hgoes.watching
  paced k hk := hgoes.paced h hclock hsleep (h.paced k hk)
  starting hu := by
    have hwatching := hgoes.watching
    rw [(h.threads.starting hu).2] at hwatching
    cases hwatching

/-- The loop is on its way out of the connection. -/
theorem Sound.leaves {loops : TradeLoops} {now asleepSince passes : ℕ} {full : Bool} (hthreads : loops.Threads)
    (hpong : loops.lastPongTime ≤ now) (hasleep : asleepSince ≤ now) (hmissed : 0 ≤ loops.missedPongs)
    (hleaves : watching loops.heartbeatThread = false) (huser : loops.user ≠ .startHeartbeatThread) :
    Sound ⟨loops, now, asleepSince, passes, full⟩ where
  threads := hthreads
  pong := hpong
  slept n hn := by
    obtain hn | hn := hn <;> rw [hn] at hleaves <;> cases hleaves
  asleep := hasleep
  look n hn := by
    rw [hn] at hleaves
    cases hleaves
  missed := hmissed
  fewMissed hw := absurd (hleaves.symm.trans hw) Bool.false_ne_true
  fewPasses hw := absurd (hleaves.symm.trans hw) Bool.false_ne_true
  paced k _ := by
    unfold Paced
    cases hpoint : loops.heartbeatThread <;> first | trivial | (rw [hpoint] at hleaves; cases hleaves)
  starting hu := absurd hu huser

/-- A new round begins. -/
theorem Sound.rounds {loops : TradeLoops} {now asleepSince passes : ℕ} {full : Bool} (hthreads : loops.Threads)
    (hpong : loops.lastPongTime ≤ now) (hasleep : asleepSince ≤ now)
    (hround : loops.heartbeatThread = .whileRunning)
    (hmissed : 0 ≤ loops.missedPongs ∧ loops.missedPongs < kMaxMissedPongs) (hpasses : passes ≤ 3)
    (hpaced : ∀ k, passes = k + 1 → mark loops k ≤ now) (huser : loops.user ≠ .startHeartbeatThread) :
    Sound ⟨loops, now, asleepSince, passes, full⟩ where
  threads := hthreads
  pong := hpong
  slept n hn := by simp [hround] at hn
  asleep := hasleep
  look n hn := by simp [hround] at hn
  missed := hmissed.1
  fewMissed _ := hmissed.2
  fewPasses _ := hpasses
  paced k hk := by
    simp only [Paced, hround]
    exact hpaced k hk
  starting hu := absurd hu huser

/-- A look that finds the last pong recent enough is one of the first three. -/
theorem Sound.recent_pong (h : s.Sound) {read now : ℕ} (hpoint : s.loops.heartbeatThread = .loadPongTime read)
    (hclock : s.clock ≤ now)
    (hrecent : ¬ s.loops.heartbeatSec * kMaxMissedPongs ≤ elapsedSec read s.loops.lastPongTime) :
    s.passes + 1 ≤ 3 ∧ mark s.loops s.passes ≤ now := by
  have hlook := h.look read hpoint
  have hpaced : ∀ k, s.passes = k + 1 → mark s.loops (k + 1) ≤ read := by
    intro k hk
    have := h.paced k hk
    simpa only [Paced, hpoint] using this
  constructor
  · by_contra hmany
    obtain ⟨k, hk⟩ : ∃ k, s.passes = k + 1 := ⟨s.passes - 1, by omega⟩
    exact hrecent (overdue_of_mark (by omega) (hpaced k hk))
  · cases hpasses : s.passes with
    | zero =>
      have hpong := h.pong
      rw [mark, Nat.zero_mul, Nat.add_zero]
      omega
    | succ k =>
      have := hpaced k hpasses
      omega

theorem Sound.beats {now : ℕ} (h : s.Sound) (hbeats : Beats s now t) (hthreads : t.loops.Threads)
    (hclock : s.clock ≤ now) : t.Sound := by
  have hpong := h.pong.trans hclock
  have hasleep := h.asleep.trans hclock
  have huser : s.loops.heartbeatThread ≠ .absent → s.loops.user ≠ .startHeartbeatThread :=
    fun hthere hu => hthere (h.threads.starting hu).2
  cases hbeats with
  | goes point asleepSince hgoes hsince hsleep => exact h.goes hgoes hthreads hclock hsince hsleep
  | stops hwatching hstopped =>
    refine Sound.leaves hthreads hpong hasleep h.missed rfl (huser fun habsent => ?_)
    rw [habsent] at hwatching
    cases hwatching
  | clears hpoint | reports hpoint =>
    exact Sound.leaves hthreads hpong hasleep h.missed rfl (huser (by simp [hpoint]))
  | misses hpoint =>
    have hmissed : 0 ≤ s.loops.missedPongs + 1 := by
      have := h.missed
      omega
    have hpaced : ∀ k, s.passes = k + 1 → mark s.loops k ≤ now := by
      intro k hk
      have := h.paced k hk
      simp only [Paced, hpoint, mark_succ] at this
      omega
    split_ifs at hthreads ⊢ with hmany
    · exact Sound.leaves hthreads hpong hasleep hmissed rfl (huser (by simp [hpoint]))
    · have hfew := h.fewPasses (by rw [hpoint]; rfl)
      exact Sound.rounds hthreads hpong hasleep rfl ⟨hmissed, not_le.mp hmany⟩ hfew hpaced (huser (by simp [hpoint]))
  | looks read hpoint =>
    split_ifs at hthreads ⊢ with hoverdue
    · exact Sound.leaves hthreads hpong hasleep h.missed rfl (huser (by simp [hpoint]))
    · obtain ⟨hfew, hmark⟩ := h.recent_pong hpoint hclock hoverdue
      have hmissed := h.fewMissed (by rw [hpoint]; rfl)
      refine Sound.rounds hthreads hpong hasleep rfl ⟨h.missed, hmissed⟩ hfew (fun k hk => ?_) (huser (by simp [hpoint]))
      obtain rfl : s.passes = k := Nat.succ.inj hk
      exact hmark

theorem Sound.connect (h : s.Sound) {call : ConnectCall} (hclock : s.clock ≤ call.now)
    (hthreads : (s.loops.connect call).Threads) (huser : s.loops.user = .outside) :
    Sound ⟨s.loops.connect call, call.now, s.asleepSince, if s.loops.dealerSock then s.passes else 0, s.full⟩ := by
  cases hsock : s.loops.dealerSock with
  | true =>
    have hsame : s.loops.connect call = s.loops := by simp [TradeLoops.connect, hsock]
    rw [hsame, if_pos rfl]
    exact h.aside h.threads hclock ⟨rfl, rfl, rfl, rfl, rfl⟩ id (.inl rfl) id
  | false =>
    rw [if_neg (by simp)]
    have habsent := (h.threads.closed hsock).2
    have hpong := h.pong.trans hclock
    have hasleep := h.asleep.trans hclock
    unfold TradeLoops.connect at hthreads ⊢
    rw [hsock] at hthreads ⊢
    simp only [Bool.false_eq_true, if_false] at hthreads ⊢
    split_ifs at hthreads ⊢
    · exact sound_of_absent hthreads habsent hpong hasleep h.missed fun hu => absurd (huser.symm.trans hu) (by simp)
    · exact sound_of_absent hthreads habsent le_rfl hasleep le_rfl fun _ => ⟨rfl, rfl⟩
    · exact sound_of_absent hthreads habsent hpong hasleep h.missed fun hu => absurd (huser.symm.trans hu) (by simp)

theorem Sound.loops {now : ℕ} {event : TradeLoops.Event} (h : s.Sound) (hstep : s.step (.loops now event) = some t) :
    t.Sound := by
  obtain ⟨hclock, hreads, hslept, hloops, heq⟩ := step_spec hstep
  have hthreads := h.threads.step hloops
  rw [heq]
  cases event with
  | connect call =>
    obtain rfl : call.now = now := beq_iff_eq.mp hreads
    simp only [TradeLoops.step] at hloops
    split_ifs at hloops with huser
    rw [← Option.some.inj hloops] at hthreads ⊢
    exact h.connect hclock hthreads huser
  | startHeartbeatThread =>
    simp only [TradeLoops.step] at hloops
    split_ifs at hloops with huser
    rw [← Option.some.inj hloops] at hthreads ⊢
    obtain ⟨hpasses, hmissed⟩ := h.starting huser
    refine ⟨hthreads, h.pong.trans hclock, by simp, h.asleep.trans hclock, by simp, h.missed, fun _ => ?_, fun _ => ?_,
      fun k hk => ?_, by simp⟩
    · simp [hmissed, kMaxMissedPongs]
    · simp [passesAfter, hpasses]
    · simp [passesAfter, hpasses] at hk
  | onConnected =>
    simp only [TradeLoops.step] at hloops
    split_ifs at hloops
    rw [← Option.some.inj hloops] at hthreads ⊢
    exact h.aside hthreads hclock ⟨rfl, rfl, rfl, rfl, rfl⟩ id (.inl rfl) (by simp)
  | disconnect =>
    simp only [TradeLoops.step] at hloops
    split_ifs at hloops
    rw [← Option.some.inj hloops] at hthreads ⊢
    exact h.aside hthreads hclock ⟨rfl, rfl, rfl, rfl, rfl⟩ (by simp) (.inl rfl) (by simp)
  | joinHeartbeatThread =>
    simp only [TradeLoops.step] at hloops
    split_ifs at hloops
    rw [← Option.some.inj hloops] at hthreads ⊢
    exact sound_of_absent hthreads rfl (h.pong.trans hclock) (h.asleep.trans hclock) h.missed (by simp)
  | joinRecvThread =>
    simp only [TradeLoops.step] at hloops
    split_ifs at hloops with hjoin
    rw [← Option.some.inj hloops] at hthreads ⊢
    exact sound_of_absent hthreads (h.threads.joined hjoin.1) (h.pong.trans hclock) (h.asleep.trans hclock) h.missed
      (by simp)
  | recv polled sock n =>
    obtain rfl : n = now := beq_iff_eq.mp hreads
    exact h.recv hthreads hclock hloops
  | heartbeat sent n =>
    obtain rfl : n = now := beq_iff_eq.mp hreads
    exact h.beats (beats_of_step hslept hloops) hthreads hclock

theorem Sound.step (h : s.Sound) (hstep : s.step e = some t) : t.Sound := by
  cases e with
  | loops now event => exact h.loops hstep
  | queue full =>
    obtain rfl := Option.some.inj hstep
    exact h.aside h.threads le_rfl ⟨rfl, rfl, rfl, rfl, rfl⟩ id (.inl rfl) id

theorem sound_of_run {es : List Event} (hrun : runFrom step fresh es = some s) : s.Sound :=
  invariant_of_run (fun _ _ _ h hstep => h.step hstep) fresh_sound hrun

/-! ## A front that has fallen silent -/

/-- The receive loop neither handles a pong nor gives up, and nobody calls `Disconnect`. -/
def Silent (s : TimedLoops) : Event → Prop
  | .loops _ (.recv _ _ _) => s.loops.recvThread ∉ [.storePongTime, .clearMissedPongs, .clearRunning, .onDisconnected]
  | .loops _ (.heartbeat _ _) | .loops _ .onConnected | .queue _ => True
  | _ => False

instance (s : TimedLoops) (e : Event) : Decidable (Silent s e) := by
  unfold Silent
  split <;> infer_instance

def isHeartbeat : Event → Bool
  | .loops _ (.heartbeat _ _) => true
  | _ => false

/-- How often the loop sleeps in the rest of the period. -/
def sleepsLeft (heartbeatSec slept : ℤ) : ℕ := ((heartbeatSec * 1000 - slept + 99) / 100).toNat

/-- The steps of a round that come after a place, at most. -/
def stepsLeft (heartbeatSec : ℤ) : HeartbeatPoint → ℕ
  | .whileRunning => 2 * sleepsLeft heartbeatSec 0 + 8
  | .whileSleeping slept => 2 * sleepsLeft heartbeatSec slept + 7
  | .sleep slept => 2 * sleepsLeft heartbeatSec (slept + 100) + 8
  | .ifRunning => 6
  | .sendPing => 5
  | .addMissedPong | .readClock => 4
  | .loadPongTime _ => 3
  | .clearRunning => 2
  | .onDisconnected => 1
  | .absent | .ended => 0

def roundSteps (heartbeatSec : ℤ) : ℕ := 2 * sleepsLeft heartbeatSec 0 + 9

/-- The rounds that may still end without finding the link dead. -/
def roundsLeft (s : TimedLoops) : ℕ := (3 - s.passes) + (2 - s.loops.missedPongs).toNat

def remaining (s : TimedLoops) : ℕ :=
  s.roundsLeft * roundSteps s.loops.heartbeatSec + stepsLeft s.loops.heartbeatSec s.loops.heartbeatThread

/-- The heartbeat loop runs until it clears `running_` itself, and then it reports. -/
structure Watched (log : List Mark) (s : TimedLoops) : Prop where
  sound : s.Sound
  running : watching s.loops.heartbeatThread = true → s.loops.running = true
  there : s.loops.heartbeatThread ≠ .absent
  logged : s.loops.log = if s.loops.heartbeatThread = .ended then log ++ [.report 1] else log

theorem recvStep_silent {s t : TradeLoops} {polled : PollResult} {sock : ZmqSocket} {now : ℕ}
    (hsilent : s.recvThread ∉ [.storePongTime, .clearMissedPongs, .clearRunning, .onDisconnected])
    (h : s.recvStep polled sock now = some t) :
    t.running = s.running ∧ t.missedPongs = s.missedPongs ∧ t.log = s.log ∧ t.heartbeatThread = s.heartbeatThread ∧
      t.heartbeatSec = s.heartbeatSec := by
  cases hpoint : s.recvThread with
  | absent | ended =>
    simp only [TradeLoops.recvStep, hpoint] at h
    cases h
  | storePongTime | clearMissedPongs | clearRunning | onDisconnected => simp [hpoint] at hsilent
  | poll =>
    simp only [TradeLoops.recvStep, hpoint] at h
    cases polled with
    | error | noInput | input =>
      obtain rfl := Option.some.inj h
      exact ⟨rfl, rfl, rfl, rfl, rfl⟩
  | recv =>
    simp only [TradeLoops.recvStep, hpoint] at h
    split_ifs at h
    all_goals
      obtain rfl := Option.some.inj h
      exact ⟨rfl, rfl, rfl, rfl, rfl⟩
  | whileRunning | pollFailed | recvFailed | onMessage =>
    simp only [TradeLoops.recvStep, hpoint] at h
    obtain rfl := Option.some.inj h
    exact ⟨rfl, rfl, rfl, rfl, rfl⟩

theorem sleepsLeft_sleep {heartbeatSec slept : ℤ} (h : slept < heartbeatSec * 1000) :
    sleepsLeft heartbeatSec (slept + 100) + 1 = sleepsLeft heartbeatSec slept := by
  unfold sleepsLeft
  omega

/-- The loop has fewer steps to make as it goes on in its round. -/
theorem Goes.stepsLeft_lt {now : ℕ} {point : HeartbeatPoint} (h : Goes s now point) :
    stepsLeft s.loops.heartbeatSec point < stepsLeft s.loops.heartbeatSec s.loops.heartbeatThread := by
  cases h with
  | sleep slept hpoint hshort =>
    have hless := sleepsLeft_sleep hshort
    simp only [hpoint, stepsLeft]
    omega
  | slept slept hpoint =>
    simp only [hpoint, stepsLeft]
    omega
  | beginSleeping hpoint | wake _ hpoint | ping hpoint | pinged hpoint | pingFailed hpoint | look hpoint =>
    simp [hpoint, stepsLeft]

theorem Goes.stays {now : ℕ} {point : HeartbeatPoint} (h : Goes s now point) : point ≠ .absent ∧ point ≠ .ended := by
  cases h <;> simp

/-- A round ends without finding the link dead. -/
theorem remaining_lt_of_round (hrounds : t.roundsLeft + 1 = s.roundsLeft)
    (hsec : t.loops.heartbeatSec = s.loops.heartbeatSec) (hround : t.loops.heartbeatThread = .whileRunning) :
    t.remaining < s.remaining := by
  rw [remaining, remaining, hsec, hround, ← hrounds, Nat.succ_mul, roundSteps, stepsLeft]
  omega

/-- The loop goes on without beginning a new round. -/
theorem remaining_lt_of_steps (hrounds : t.roundsLeft ≤ s.roundsLeft)
    (hsec : t.loops.heartbeatSec = s.loops.heartbeatSec)
    (hsteps : stepsLeft s.loops.heartbeatSec t.loops.heartbeatThread <
      stepsLeft s.loops.heartbeatSec s.loops.heartbeatThread) : t.remaining < s.remaining := by
  rw [remaining, remaining, hsec]
  exact Nat.add_lt_add_of_le_of_lt (Nat.mul_le_mul_right _ hrounds) hsteps

theorem Watched.beats_lt {now : ℕ} {log : List Mark} (h : s.Watched log) (hbeats : Beats s now t) (ht : t.Sound) :
    t.remaining < s.remaining := by
  cases hbeats with
  | goes point asleepSince hgoes => exact remaining_lt_of_steps le_rfl rfl hgoes.stepsLeft_lt
  | stops hwatching hstopped => exact absurd (hstopped.symm.trans (h.running hwatching)) Bool.false_ne_true
  | clears hpoint | reports hpoint => exact remaining_lt_of_steps le_rfl rfl (by simp [hpoint, stepsLeft])
  | misses hpoint =>
    have hmissed := h.sound.missed
    split_ifs at ht ⊢ with hmany
    · refine remaining_lt_of_steps ?_ rfl (by simp [hpoint, stepsLeft])
      simp only [roundsLeft]
      omega
    · refine remaining_lt_of_round ?_ rfl rfl
      rw [kMaxMissedPongs] at hmany
      simp only [roundsLeft]
      omega
  | looks read hpoint =>
    split_ifs at ht ⊢ with hoverdue
    · refine remaining_lt_of_steps ?_ rfl (by simp [hpoint, stepsLeft])
      simp only [roundsLeft]
      omega
    · have hfew : s.passes + 1 ≤ 3 := ht.fewPasses rfl
      refine remaining_lt_of_round ?_ rfl rfl
      simp only [roundsLeft]
      omega

/-- The loop is not at its end yet. -/
theorem Watched.going {log : List Mark} (h : s.Watched log) (hgoing : s.loops.heartbeatThread ≠ .ended) (ht : t.Sound)
    (hrunning : watching t.loops.heartbeatThread = true → t.loops.running = true)
    (hpoint : t.loops.heartbeatThread ≠ .absent ∧ t.loops.heartbeatThread ≠ .ended)
    (hlog : t.loops.log = s.loops.log) : t.Watched log := by
  refine ⟨ht, hrunning, hpoint.1, ?_⟩
  rw [if_neg hpoint.2, hlog, h.logged, if_neg hgoing]

theorem Watched.beats {now : ℕ} {log : List Mark} (h : s.Watched log) (hbeats : Beats s now t) (ht : t.Sound) :
    t.Watched log := by
  cases hbeats with
  | goes point asleepSince hgoes =>
    have hgoing : s.loops.heartbeatThread ≠ .ended := fun heq => by
      have hwatching := hgoes.watching
      rw [heq] at hwatching
      cases hwatching
    exact h.going hgoing ht (fun _ => h.running hgoes.watching) hgoes.stays rfl
  | stops hwatching hstopped => exact absurd (hstopped.symm.trans (h.running hwatching)) Bool.false_ne_true
  | misses hpoint | looks _ hpoint =>
    refine h.going (by simp [hpoint]) ht (fun _ => h.running (by rw [hpoint]; rfl)) ?_ rfl
    constructor <;> (simp only; split_ifs <;> simp)
  | clears hpoint => exact h.going (by simp [hpoint]) ht (by simp [watching]) (by simp) rfl
  | reports hpoint =>
    refine ⟨ht, by simp [watching], by simp, ?_⟩
    simp only [if_true, h.logged, hpoint, reduceCtorEq, if_false]

theorem Watched.loops {log : List Mark} {now : ℕ} {event : TradeLoops.Event} (h : s.Watched log)
    (hsilent : Silent s (.loops now event)) (hstep : s.step (.loops now event) = some t) :
    t.Watched log ∧ t.remaining ≤ s.remaining ∧
      (isHeartbeat (.loops now event) = true → t.remaining < s.remaining) := by
  have hsound := h.sound.step hstep
  obtain ⟨-, hreads, hslept, hloops, heq⟩ := step_spec hstep
  rw [heq] at hsound ⊢
  cases event with
  | connect | startHeartbeatThread | disconnect | joinHeartbeatThread | joinRecvThread => cases hsilent
  | onConnected =>
    simp only [TradeLoops.step] at hloops
    split_ifs at hloops
    rw [← Option.some.inj hloops] at hsound ⊢
    exact ⟨⟨hsound, h.running, h.there, h.logged⟩, le_rfl, by simp [isHeartbeat]⟩
  | recv polled sock n =>
    have hout : s.loops.recvThread ≠ .storePongTime := fun heq => hsilent (by simp [heq])
    obtain ⟨hrunning, hmissed, hlog, hthread, hsec⟩ := recvStep_silent hsilent hloops
    refine ⟨⟨hsound, ?_, ?_, ?_⟩, le_of_eq ?_, by simp [isHeartbeat]⟩
    · simp only [hrunning, hthread]
      exact h.running
    · rw [hthread]
      exact h.there
    · rw [hlog, hthread]
      exact h.logged
    · simp only [remaining, roundsLeft, passesAfter, if_neg hout, hmissed, hthread, hsec]
  | heartbeat sent n =>
    obtain rfl : n = now := beq_iff_eq.mp hreads
    have hbeats := beats_of_step hslept hloops
    have hlt := h.beats_lt hbeats hsound
    exact ⟨h.beats hbeats hsound, hlt.le, fun _ => hlt⟩

theorem Watched.step {log : List Mark} (h : s.Watched log) (hsilent : Silent s e) (hstep : s.step e = some t) :
    t.Watched log ∧ t.remaining ≤ s.remaining ∧ (isHeartbeat e = true → t.remaining < s.remaining) := by
  cases e with
  | loops now event => exact h.loops hsilent hstep
  | queue full =>
    have hsound := h.sound.step hstep
    obtain rfl := Option.some.inj hstep
    exact ⟨⟨hsound, h.running, h.there, h.logged⟩, le_rfl, by simp [isHeartbeat]⟩

/-- The heartbeat loop can always go on, unless it waits for room in the queue. -/
theorem Watched.progress {log : List Mark} (h : s.Watched log) (hroom : ¬ (s.loops.heartbeatThread = .sendPing ∧ s.full)) :
    s.loops.heartbeatThread = .ended ∨ ∃ now, (s.step (.loops now (.heartbeat true now))).isSome := by
  by_cases hended : s.loops.heartbeatThread = .ended
  · exact .inl hended
  · refine .inr ⟨s.clock + s.asleepSince + sleepTime, ?_⟩
    have hclock : s.clock ≤ s.clock + s.asleepSince + sleepTime := by omega
    have hlate : s.asleepSince + sleepTime ≤ s.clock + s.asleepSince + sleepTime := by omega
    generalize s.clock + s.asleepSince + sleepTime = now at hclock hlate ⊢
    have hslept : s.sleptEnough now (.heartbeat true now) = true := by
      cases hpoint : s.loops.heartbeatThread with
      | sleep slept =>
        simp only [sleptEnough, hpoint]
        exact decide_eq_true hlate
      | _ => simp only [sleptEnough, hpoint]
    have hsends : s.hasRoom (.heartbeat true now) = true := by
      cases hpoint : s.loops.heartbeatThread with
      | sendPing =>
        simp only [hasRoom, hpoint]
        simpa [hpoint] using hroom
      | _ => simp only [hasRoom, hpoint]
    have hstep : (s.loops.heartbeatStep true now).isSome := by
      cases hpoint : s.loops.heartbeatThread with
      | absent => exact absurd hpoint h.there
      | ended => exact absurd hpoint hended
      | _ => simp [TradeLoops.heartbeatStep, hpoint]
    rw [TimedLoops.step, if_pos ⟨hclock, by simp [readsClock], hslept, hsends⟩, Option.isSome_map]
    exact hstep

theorem remaining_le (h : s.Sound) : s.remaining ≤ 6 * (20 * s.loops.heartbeatSec.val.toNat + 9) := by
  have hsleeps : sleepsLeft s.loops.heartbeatSec 0 = 10 * s.loops.heartbeatSec.val.toNat := by
    unfold sleepsLeft
    omega
  have hround : roundSteps s.loops.heartbeatSec = 20 * s.loops.heartbeatSec.val.toNat + 9 := by
    rw [roundSteps, hsleeps]
    omega
  have hless : ∀ slept, 0 ≤ slept → sleepsLeft s.loops.heartbeatSec slept ≤ sleepsLeft s.loops.heartbeatSec 0 := by
    intro slept hslept
    unfold sleepsLeft
    omega
  have hsteps : stepsLeft s.loops.heartbeatSec s.loops.heartbeatThread ≤ roundSteps s.loops.heartbeatSec := by
    rw [roundSteps]
    cases hpoint : s.loops.heartbeatThread with
    | whileSleeping slept =>
      have := hless slept (h.slept slept (.inl hpoint))
      simp only [stepsLeft]
      omega
    | sleep slept =>
      have := hless (slept + 100) (by have := h.slept slept (.inr hpoint); omega)
      simp only [stepsLeft]
      omega
    | _ =>
      simp only [stepsLeft]
      omega
  have hrounds : s.roundsLeft ≤ 5 := by
    have := h.missed
    unfold roundsLeft
    omega
  rw [hround] at hsteps
  have hmul := Nat.mul_le_mul_right (20 * s.loops.heartbeatSec.val.toNat + 9) hrounds
  rw [remaining, hround]
  omega

/-- **A silent front is reported.**  From any state in which the heartbeat loop watches the link, if no pong is handled
and nobody else gives the link up, the loop takes at most the steps of six rounds and then has reported the loss; until
then it can take its next step, except that a ping waits while the queue of the DEALER is full. -/
theorem silent_front_reported {es fs : List Event} (hrun : runFrom step fresh es = some s)
    (hrunning : s.loops.running = true) (hwatching : watching s.loops.heartbeatThread = true)
    (hrest : runFrom step s fs = some t) (hsilent : Meets step Silent s fs) :
    fs.countP isHeartbeat ≤ 6 * (20 * s.loops.heartbeatSec.val.toNat + 9) ∧
      (t.loops.heartbeatThread = .ended ∧ t.loops.log = s.loops.log ++ [.report 1] ∨
        t.loops.heartbeatThread = .sendPing ∧ t.full ∨ ∃ now, (t.step (.loops now (.heartbeat true now))).isSome) := by
  have hsound := sound_of_run hrun
  have hended : s.loops.heartbeatThread ≠ .ended := fun heq => by
    rw [heq] at hwatching
    cases hwatching
  have hthere : s.loops.heartbeatThread ≠ .absent := fun heq => by
    rw [heq] at hwatching
    cases hwatching
  have hstart : s.Watched s.loops.log := ⟨hsound, fun _ => hrunning, hthere, by rw [if_neg hended]⟩
  obtain ⟨hwatched, hle⟩ := process_steps_le (fun _ _ _ h hsilent hstep => h.step hsilent hstep) hstart hsilent hrest
  refine ⟨le_trans (Nat.le_add_right _ _) (le_trans hle (remaining_le hsound)), ?_⟩
  by_cases hwaits : t.loops.heartbeatThread = .sendPing ∧ t.full
  · exact .inr (.inl hwaits)
  obtain hend | hprogress := hwatched.progress hwaits
  · have hlogged := hwatched.logged
    rw [if_pos hend] at hlogged
    exact .inl ⟨hend, hlogged⟩
  · exact .inr (.inr hprogress)

def watchBegins : List Event :=
  [.loops 0 (.connect TradeLoops.secondsCall), .loops 0 .startHeartbeatThread, .loops 0 .onConnected]

/-- A step of the heartbeat loop in each tenth of a second. -/
def beats (sent : Bool) (first count : ℕ) : List Event :=
  (List.range count).map fun k => .loops ((first + k) * 100000000) (.heartbeat sent ((first + k) * 100000000))

/-- The first ping waits until there is room and is sent; the next three fail. -/
def pingsFail : List Event := [.queue true] ++ beats true 1 23 ++ [.queue false] ++ beats true 24 3 ++ beats false 27 77

theorem pingsFail_reported :
    ∃ s t, runFrom step fresh watchBegins = some s ∧ runFrom step s pingsFail = some t ∧
      s.loops.heartbeatSec.val = 1 ∧ pingsFail.countP isHeartbeat = 103 ∧ t.passes = 1 ∧
      t.loops.heartbeatThread = .ended ∧ t.loops.log = s.loops.log ++ [.report 1] := by
  have hbegins : (runFrom step fresh watchBegins).all (fun s => s.loops.running && watching s.loops.heartbeatThread &&
      decide (s.loops.heartbeatSec.val = 1 ∧ Meets step Silent s pingsFail) &&
      ((runFrom step s pingsFail).any fun t => decide (t.passes = 1 ∧ t.loops.heartbeatThread = .ended))) = true := by
    decide +kernel
  obtain ⟨s, hs⟩ : ∃ s, runFrom step fresh watchBegins = some s := ⟨_, rfl⟩
  simp only [hs, Option.all_some, Bool.and_eq_true, decide_eq_true_eq, Option.any_eq_true_iff_get] at hbegins
  obtain ⟨⟨⟨hrunning, hwatching⟩, hsec, hsilent⟩, hsome, hpasses, hended⟩ := hbegins
  have hrest : runFrom step s pingsFail = some ((runFrom step s pingsFail).get hsome) := (Option.some_get hsome).symm
  obtain ⟨-, hreported | ⟨hpings, -⟩ | ⟨now, hstep⟩⟩ := silent_front_reported hs hrunning hwatching hrest hsilent
  · exact ⟨s, _, hs, hrest, hsec, by decide +kernel, hpasses, hreported⟩
  · rw [hended] at hpings
    cases hpings
  · simp [step, TradeLoops.step, TradeLoops.heartbeatStep, hended] at hstep

end TimedLoops
end Chater.Zmq
