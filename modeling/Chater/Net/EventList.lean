import Chater.Foundations.Transition
import Chater.Net.NetLayer

/-!
# The event list of the poller

`Poller::Poll` gives `epoll_wait` an array of `events_.size()` entries and doubles the array when it comes back full.  The
kernel keeps the descriptors that are ready in the order in which they became so, each once, and with `EPOLLET` an entry
leaves the list when it is reported.  A descriptor is therefore reported after a number of calls that is logarithmic in
its place, whatever becomes ready behind it, and the array is never larger than twice what is registered.
-/

namespace Chater.Net

open Foundations

set_option autoImplicit false

def kInitEventListSize : ℕ := 16

/-- `events_.size()`, the descriptors registered with `epollfd_`, those that are ready, and what `Poll` has put on the
lists of active channels so far. -/
structure EventList where
  eventsSize : ℕ
  registered : List ℕ
  ready : List ℕ
  active : List (ℕ × Events)
deriving DecidableEq

namespace EventList

def start : EventList := ⟨kInitEventListSize, [], [], []⟩

/-- `ctl` is an `EPOLL_CTL_ADD` or `EPOLL_CTL_MOD` with whether the descriptor is ready then, and `poll` has the events
that each reported descriptor is found with.  `interrupted` is an `epoll_wait` that fails or times out. -/
inductive Event
  | ctl (fd : ℕ) (isReady : Bool)
  | ctlDel (fd : ℕ)
  | becomesReady (fd : ℕ)
  | poll (revents : ℕ → Events)
  | interrupted

/-- A descriptor that is on the list stays where it is. -/
def markReady (p : EventList) (fd : ℕ) : EventList :=
  { p with ready := if fd ∈ p.ready then p.ready else p.ready ++ [fd] }

def register (p : EventList) (fd : ℕ) : EventList :=
  { p with registered := if fd ∈ p.registered then p.registered else fd :: p.registered }

/-- What `epoll_wait` puts into `events_`. -/
def reported (p : EventList) (revents : ℕ → Events) : List (ℕ × Events) :=
  (p.ready.take p.eventsSize).map fun fd => (fd, revents fd)

def poll (p : EventList) (revents : ℕ → Events) : EventList :=
  let numEvents := (p.reported revents).length
  { p with
    eventsSize := if 0 < numEvents ∧ numEvents = p.eventsSize then p.eventsSize * 2 else p.eventsSize
    ready := p.ready.drop p.eventsSize
    active := p.active ++ p.reported revents }

def step (p : EventList) : Event → Option EventList
  | .ctl fd isReady => some (if isReady then (p.register fd).markReady fd else p.register fd)
  | .ctlDel fd => some { p with registered := p.registered.erase fd, ready := p.ready.erase fd }
  | .becomesReady fd => if fd ∈ p.registered then some (p.markReady fd) else none
  | .poll revents => some (p.poll revents)
  | .interrupted => some p

/-! ## Every state -/

structure Valid (p : EventList) : Prop where
  size : kInitEventListSize ≤ p.eventsSize
  registered : p.registered.Nodup
  ready : p.ready.Nodup
  subset : ∀ fd ∈ p.ready, fd ∈ p.registered

variable {p q : EventList} {fd : ℕ}

theorem Valid.register (h : p.Valid) (fd : ℕ) : (p.register fd).Valid := by
  unfold EventList.register
  refine ⟨h.size, ?_, h.ready, fun j hj => ?_⟩
  · show (if fd ∈ p.registered then p.registered else fd :: p.registered).Nodup
    split_ifs with hmem
    · exact h.registered
    · exact List.nodup_cons.mpr ⟨hmem, h.registered⟩
  · show j ∈ if fd ∈ p.registered then p.registered else fd :: p.registered
    have hold := h.subset j hj
    split_ifs
    · exact hold
    · exact List.mem_cons_of_mem _ hold

theorem Valid.markReady (h : p.Valid) (hfd : fd ∈ p.registered) : (p.markReady fd).Valid := by
  unfold EventList.markReady
  split_ifs with hmem
  · exact h
  · refine ⟨h.size, h.registered, ?_, fun j hj => ?_⟩
    · exact List.nodup_append_comm.mp (List.nodup_cons.mpr ⟨hmem, h.ready⟩)
    · obtain hold | hnew := List.mem_append.mp hj
      · exact h.subset j hold
      · rw [List.mem_singleton.mp hnew]
        exact hfd

theorem Valid.poll (h : p.Valid) (revents : ℕ → Events) : (p.poll revents).Valid := by
  refine ⟨?_, h.registered, (List.drop_sublist _ _).nodup h.ready, fun j hj => h.subset j (List.mem_of_mem_drop hj)⟩
  have hsize := h.size
  simp only [EventList.poll]
  split_ifs <;> omega

theorem mem_registered_register (p : EventList) (fd : ℕ) : fd ∈ (p.register fd).registered := by
  unfold register
  split_ifs with hmem
  · exact hmem
  · exact List.mem_cons_self

theorem Valid.step (h : p.Valid) {e : Event} (hq : p.step e = some q) : q.Valid := by
  cases e with
  | ctl fd isReady =>
    obtain rfl := Option.some.inj hq
    cases isReady with
    | true => exact (h.register fd).markReady (mem_registered_register p fd)
    | false => exact h.register fd
  | ctlDel fd =>
    obtain rfl := Option.some.inj hq
    refine ⟨h.size, h.registered.erase fd, h.ready.erase fd, fun j hj => ?_⟩
    obtain ⟨hne, hmem⟩ := h.ready.mem_erase_iff.mp hj
    exact h.registered.mem_erase_iff.mpr ⟨hne, h.subset j hmem⟩
  | becomesReady fd =>
    simp only [EventList.step] at hq
    split_ifs at hq with hfd
    obtain rfl := Option.some.inj hq
    exact h.markReady hfd
  | poll revents =>
    obtain rfl := Option.some.inj hq
    exact h.poll revents
  | interrupted =>
    obtain rfl := Option.some.inj hq
    exact h

theorem start_valid : start.Valid := ⟨le_rfl, List.nodup_nil, List.nodup_nil, by simp [start]⟩

/-- `epoll_wait` reports registered descriptors, each once. -/
theorem Valid.reported (h : p.Valid) (revents : ℕ → Events) :
    ((p.reported revents).map Prod.fst).Nodup ∧ ∀ x ∈ p.reported revents, x.1 ∈ p.registered := by
  constructor
  · have hkeys : (p.reported revents).map Prod.fst = p.ready.take p.eventsSize := by
      rw [EventList.reported, List.map_map]
      exact List.map_id _
    rw [hkeys]
    exact (List.take_sublist _ _).nodup h.ready
  · intro x hx
    obtain ⟨fd, hfd, rfl⟩ := List.mem_map.mp hx
    exact h.subset fd (List.mem_of_mem_take hfd)

/-- What `Poll` fills in is a poll of the net layer, when the kernel's set has what is registered. -/
theorem Valid.poll_enabled (h : p.Valid) {cfg : NetLayer.Config} {n loop : ℕ} {s : NetLayer}
    (hphase : (s.loops loop).phase = .polling)
    (hkernel : ∀ fd ∈ p.registered, (s.loops loop).poller.kernel fd ≠ none) (revents : ℕ → Events) :
    NetLayer.loopStep cfg n s loop (.poll loop (p.reported revents)) = some (.ok (s.setPhase loop
      (.handling (NetLayer.fillActiveChannels (s.loops loop).poller (p.reported revents))))) := by
  simp only [NetLayer.loopStep, hphase]
  rw [if_pos fun x hx => hkernel x.1 ((h.reported revents).2 x hx)]

/-! ## When a descriptor is reported -/

def Event.isPoll : Event → Bool
  | .poll _ => true
  | _ => false

theorem step_active {e : Event} (hq : p.step e = some q) : p.active <+: q.active := by
  cases e with
  | ctl fd isReady =>
    obtain rfl := Option.some.inj hq
    cases isReady <;> exact List.prefix_rfl
  | becomesReady fd =>
    simp only [step] at hq
    split_ifs at hq
    obtain rfl := Option.some.inj hq
    exact List.prefix_rfl
  | poll revents =>
    obtain rfl := Option.some.inj hq
    exact List.prefix_append _ _
  | ctlDel | interrupted =>
    obtain rfl := Option.some.inj hq
    exact List.prefix_rfl

theorem run_active {es : List Event} (hrun : runFrom step p es = some q) : p.active <+: q.active := by
  have hkeep : ∀ m e t, p.active <+: active m → step m e = some t → p.active <+: active t :=
    fun _ _ _ h hstep => h.trans (step_active hstep)
  exact invariant_of_run hkeep List.prefix_rfl hrun

theorem idxOf_markReady (p : EventList) (other : ℕ) (hfd : fd ∈ p.ready) :
    fd ∈ (p.markReady other).ready ∧ (p.markReady other).ready.idxOf fd = p.ready.idxOf fd := by
  unfold markReady
  split_ifs
  · exact ⟨hfd, rfl⟩
  · exact ⟨List.mem_append_left _ hfd, List.idxOf_append_of_mem hfd⟩

theorem idxOf_erase_le {l : List ℕ} {a b : ℕ} (hne : a ≠ b) : (l.erase b).idxOf a ≤ l.idxOf a := by
  induction l with
  | nil => exact le_rfl
  | cons x l ih =>
    by_cases hb : x = b
    · subst hb
      rw [List.erase_cons_head, List.idxOf_cons_ne _ (Ne.symm hne)]
      exact Nat.le_succ _
    · rw [List.erase_cons_tail (by simpa using hb)]
      by_cases ha : x = a
      · rw [ha, List.idxOf_cons_self]
        exact Nat.zero_le _
      · rw [List.idxOf_cons_ne _ ha, List.idxOf_cons_ne _ ha]
        exact Nat.succ_le_succ ih

theorem idxOf_drop {l : List ℕ} {a k : ℕ} (h : k ≤ l.idxOf a) : (l.drop k).idxOf a + k = l.idxOf a := by
  induction l generalizing k with
  | nil =>
    obtain rfl : k = 0 := Nat.le_zero.mp h
    rfl
  | cons x l ih =>
    cases k with
    | zero => rfl
    | succ k =>
      have hx : x ≠ a := by
        rintro rfl
        rw [List.idxOf_cons_self] at h
        omega
      rw [List.idxOf_cons_ne _ hx] at h ⊢
      rw [List.drop_succ_cons]
      have := ih (Nat.le_of_succ_le_succ h)
      omega

/-- A step other than a poll brings no ready descriptor further back, if it does not delete it. -/
theorem step_idxOf {e : Event} (hpoll : e.isPoll = false) (hdel : e ≠ .ctlDel fd) (hfd : fd ∈ p.ready)
    (hq : p.step e = some q) :
    fd ∈ q.ready ∧ q.ready.idxOf fd ≤ p.ready.idxOf fd ∧ q.eventsSize = p.eventsSize := by
  cases e with
  | poll revents => cases hpoll
  | ctl other isReady =>
    obtain rfl := Option.some.inj hq
    cases isReady with
    | true =>
      have hmarked := (p.register other).idxOf_markReady other hfd
      exact ⟨hmarked.1, hmarked.2.le, rfl⟩
    | false => exact ⟨hfd, le_rfl, rfl⟩
  | ctlDel other =>
    obtain rfl := Option.some.inj hq
    have hne : fd ≠ other := fun heq => hdel (congrArg Event.ctlDel heq.symm)
    exact ⟨(List.mem_erase_of_ne hne).mpr hfd, idxOf_erase_le hne, rfl⟩
  | becomesReady other =>
    simp only [step] at hq
    split_ifs at hq
    obtain rfl := Option.some.inj hq
    have hmarked := p.idxOf_markReady other hfd
    exact ⟨hmarked.1, hmarked.2.le, rfl⟩
  | interrupted =>
    obtain rfl := Option.some.inj hq
    exact ⟨hfd, le_rfl, rfl⟩

/-- A poll reports the descriptor, or it was full and the descriptor has come forward by its size. -/
theorem poll_idxOf (h : p.Valid) (hfd : fd ∈ p.ready) (revents : ℕ → Events) :
    (∃ x ∈ p.reported revents, x.1 = fd) ∨
      fd ∈ (p.poll revents).ready ∧ (p.poll revents).ready.idxOf fd + p.eventsSize = p.ready.idxOf fd ∧
        (p.poll revents).eventsSize = p.eventsSize * 2 := by
  have hlt := List.idxOf_lt_length_of_mem hfd
  by_cases hplace : p.ready.idxOf fd < p.eventsSize
  · left
    refine ⟨(fd, revents fd), List.mem_map.mpr ⟨fd, ?_, rfl⟩, rfl⟩
    rw [List.mem_take_iff_getElem]
    refine ⟨p.ready.idxOf fd, by omega, List.getElem_idxOf hlt⟩
  · right
    have hplace := Nat.le_of_not_lt hplace
    have hcome := idxOf_drop hplace
    refine ⟨?_, hcome, ?_⟩
    · show fd ∈ p.ready.drop p.eventsSize
      refine List.idxOf_lt_length_iff.mp ?_
      rw [List.length_drop]
      omega
    · have hfull : (p.reported revents).length = p.eventsSize := by
        rw [reported, List.length_map, List.length_take]
        omega
      have hsize : 16 ≤ p.eventsSize := h.size
      show (if 0 < (p.reported revents).length ∧ (p.reported revents).length = p.eventsSize then _ else _) = _
      rw [if_pos ⟨by omega, hfull⟩]

/-- The doubling pays for the descriptors that are ahead. -/
theorem reported_of_polls {es : List Event} (h : p.Valid) (hfd : fd ∈ p.ready) (hdel : .ctlDel fd ∉ es) {m : ℕ}
    (hpolls : m ≤ es.countP Event.isPoll) (hplace : p.ready.idxOf fd + p.eventsSize < p.eventsSize * 2 ^ m)
    (hrun : runFrom step p es = some q) : ∃ new, q.active = p.active ++ new ∧ ∃ x ∈ new, x.1 = fd := by
  induction es generalizing p m with
  | nil =>
    obtain rfl : m = 0 := Nat.le_zero.mp hpolls
    omega
  | cons e es ih =>
    obtain ⟨p', hp', hrest⟩ := runFrom_cons_iff.mp hrun
    have hdel' : .ctlDel fd ∉ es := fun hmem => hdel (List.mem_cons_of_mem _ hmem)
    have hextend : ∀ {new}, q.active = p'.active ++ new → (∃ x ∈ new, x.1 = fd) →
        ∃ new, q.active = p.active ++ new ∧ ∃ x ∈ new, x.1 = fd := by
      rintro new hnew ⟨x, hx, hxfd⟩
      obtain ⟨first, hfirst⟩ := step_active hp'
      refine ⟨first ++ new, ?_, x, List.mem_append_right _ hx, hxfd⟩
      rw [hnew, ← hfirst, List.append_assoc]
    cases hpoll : e.isPoll with
    | false =>
      have hne : e ≠ .ctlDel fd := fun heq => hdel (heq ▸ List.mem_cons_self)
      obtain ⟨hfd', hle, hsize⟩ := step_idxOf hpoll hne hfd hp'
      rw [List.countP_cons_of_neg (by simp [hpoll])] at hpolls
      obtain ⟨new, hnew, hx⟩ := ih (h.step hp') hfd' hdel' hpolls (by rw [hsize]; omega) hrest
      exact hextend hnew hx
    | true =>
      rw [List.countP_cons_of_pos hpoll] at hpolls
      cases e with
      | ctl | ctlDel | becomesReady | interrupted => cases hpoll
      | poll revents =>
        obtain rfl := Option.some.inj hp'
        obtain ⟨x, hx, hxfd⟩ | ⟨hfd', hcome, hsize⟩ := poll_idxOf h hfd revents
        · obtain ⟨later, hlater⟩ := run_active hrest
          refine ⟨p.reported revents ++ later, ?_, x, List.mem_append_left _ hx, hxfd⟩
          rw [← hlater, ← List.append_assoc]
          rfl
        · cases m with
          | zero => omega
          | succ m =>
            have hplace' : (p.poll revents).ready.idxOf fd + (p.poll revents).eventsSize <
                (p.poll revents).eventsSize * 2 ^ m := by
              have hpow : p.eventsSize * 2 ^ (m + 1) = p.eventsSize * 2 * 2 ^ m := by rw [pow_succ]; ring
              rw [hsize, ← hpow]
              omega
            obtain ⟨new, hnew, hx⟩ := ih (h.poll revents) hfd' hdel' (Nat.le_of_succ_le_succ hpolls) hplace' hrest
            exact hextend hnew hx

/-- **No ready descriptor is starved.**  After any run, a descriptor that is ready with `i` others before it is reported
by the `m`-th poll at the latest, where `i + 16 < 16 * 2 ^ m`, unless it is deleted; more descriptors may become ready
all the time. -/
theorem ready_reported {es fs : List Event} {p q : EventList} {fd i m : ℕ} (hes : runFrom step start es = some p)
    (hfd : p.ready[i]? = some fd) (hplace : i + kInitEventListSize < kInitEventListSize * 2 ^ m)
    (hdel : .ctlDel fd ∉ fs) (hpolls : m ≤ fs.countP Event.isPoll) (hfs : runFrom step p fs = some q) :
    ∃ new, q.active = p.active ++ new ∧ ∃ x ∈ new, x.1 = fd := by
  have hvalid : p.Valid := invariant_of_run (fun _ _ _ h hstep => h.step hstep) start_valid hes
  obtain ⟨hi, hget⟩ := List.getElem?_eq_some_iff.mp hfd
  have hidx : p.ready.idxOf fd = i := by
    rw [← hget]
    exact hvalid.ready.idxOf_getElem i hi
  refine reported_of_polls hvalid (List.mem_of_getElem? hfd) hdel hpolls ?_ hfs
  -- a larger array only helps
  have hpow : 1 ≤ 2 ^ m := Nat.one_le_two_pow
  obtain ⟨k, hk⟩ := Nat.exists_eq_add_of_le hpow
  have hmul := Nat.mul_le_mul_right k hvalid.size
  rw [hk, Nat.mul_add, Nat.mul_one] at hplace ⊢
  rw [hidx]
  omega

/-- Twenty connections are ready at once. -/
def twentyReady : List Event := (List.range 20).map fun fd => .ctl (fd + 5) true

/-- Another one becomes ready before the second poll. -/
def twoPolls : List Event := [.poll fun _ => EPOLLIN, .ctl 40 true, .poll fun _ => EPOLLIN]

theorem twentyReady_reported :
    ∃ p q, runFrom step start twentyReady = some p ∧ p.ready[17]? = some 22 ∧ runFrom step p twoPolls = some q ∧
      ∃ new, q.active = p.active ++ new ∧ ∃ x ∈ new, x.1 = 22 := by
  have hfirst : ((runFrom step start twentyReady).any fun p =>
      decide (p.ready[17]? = some 22) && (runFrom step p twoPolls).isSome) = true := by decide +kernel
  obtain ⟨p, hp, hfacts⟩ := (Option.any_eq_true _ _).mp hfirst
  obtain ⟨hplace, hsome⟩ := Bool.and_eq_true_iff.mp hfacts
  obtain ⟨q, hq⟩ := Option.isSome_iff_exists.mp hsome
  have hdel : Event.ctlDel 22 ∉ twoPolls := by simp [twoPolls]
  have hpolls : 2 ≤ twoPolls.countP Event.isPoll := by decide
  exact ⟨p, q, hp, of_decide_eq_true hplace, hq,
    ready_reported hp (of_decide_eq_true hplace) (by decide) hdel hpolls hq⟩

/-! ## How large the array gets -/

/-- **The event list is bounded.**  With at most `N` descriptors registered at any time, `events_` has at most `2 * N`
entries, or the sixteen it started with; each poll reports registered descriptors, each once. -/
theorem eventList_bounded {N : ℕ} {es : List Event} {p : EventList}
    (hes : Meets step (fun p _ => p.registered.length ≤ N) start es) (hrun : runFrom step start es = some p) :
    p.eventsSize ≤ max kInitEventListSize (2 * N) ∧
      ∀ revents, ((p.reported revents).map Prod.fst).Nodup ∧ ∀ x ∈ p.reported revents, x.1 ∈ p.registered := by
  have hkeep : ∀ (p : EventList) e q, (p.Valid ∧ p.eventsSize ≤ max kInitEventListSize (2 * N)) → p.registered.length ≤ N →
      p.step e = some q → q.Valid ∧ q.eventsSize ≤ max kInitEventListSize (2 * N) := by
    rintro p e q ⟨hvalid, hsize⟩ hregistered hq
    refine ⟨hvalid.step hq, ?_⟩
    have hready : p.ready.length ≤ p.registered.length := (hvalid.ready.subperm hvalid.subset).length_le
    cases e with
    | poll revents =>
      obtain rfl := Option.some.inj hq
      simp only [poll, reported, List.length_map, List.length_take]
      split_ifs with hfull
      · omega
      · exact hsize
    | ctl fd isReady =>
      obtain rfl := Option.some.inj hq
      cases isReady <;> exact hsize
    | becomesReady fd =>
      simp only [step] at hq
      split_ifs at hq
      obtain rfl := Option.some.inj hq
      exact hsize
    | ctlDel | interrupted =>
      obtain rfl := Option.some.inj hq
      exact hsize
  obtain ⟨hvalid, hsize⟩ := invariant_of_meets hkeep hes ⟨start_valid, le_max_left _ _⟩ hrun
  exact ⟨hsize, hvalid.reported⟩

theorem twentyReady_bounded :
    ∃ p, runFrom step start (twentyReady ++ twoPolls) = some p ∧ p.eventsSize = 32 ∧
      p.eventsSize ≤ max kInitEventListSize (2 * 21) := by
  have hmeets : Meets step (fun p _ => p.registered.length ≤ 21) start (twentyReady ++ twoPolls) := by decide +kernel
  have hend : ((runFrom step start (twentyReady ++ twoPolls)).any fun p => decide (p.eventsSize = 32)) = true := by
    decide +kernel
  obtain ⟨p, hp, hsize⟩ := (Option.any_eq_true _ _).mp hend
  exact ⟨p, hp, of_decide_eq_true hsize, (eventList_bounded hmeets hp).1⟩

end EventList
end Chater.Net
