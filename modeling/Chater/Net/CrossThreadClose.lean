import Chater.Net.SharedConnection

/-!
# Closing from another thread

`Shutdown` and `ForceClose` test `state_` first and store `kDisconnecting` in a later step.  As long as no such store
comes after the one of `HandleClose`, a connection goes one way: it is established, served, closed, removed and
destroyed.  When a store comes later, a closed connection is taken for one that is shutting down, and the functor that
`ForceClose` queues closes it once more.
-/

namespace Chater.Net

open Base Foundations

set_option autoImplicit false

namespace SharedConnection

variable {T : Type} [DecidableEq T]

/-! ## The way of a connection -/

/-- A thread in a call of `Shutdown` or `ForceClose`. -/
inductive Calling : List Op → Prop
  | idle : Calling []
  | test {values : List State} {block : Block} (hvalues : .kDisconnected ∉ values)
      (hblock : block = .shutdown ∨ block = .forceClose) : Calling [.test values block]
  | store {op : Op} (hop : op = .runInLoop .shutdownInLoop ∨ op = .queueInLoop .forceCloseInLoop) :
      Calling [.store .kDisconnecting, op]
  | push {op : Op} (hop : op = .runInLoop .shutdownInLoop ∨ op = .queueInLoop .forceCloseInLoop) : Calling [op]

/-- The functors in the connection's loop, `n` of them `ConnectDestroyed`. -/
structure Queued (functors : List Functor) (n : ℕ) : Prop where
  kinds : ∀ f ∈ functors, f = .shutdownInLoop ∨ f = .forceCloseInLoop ∨ f = .connectDestroyed
  count : functors.count .connectDestroyed = n

/-- The loop runs nothing for the connection, or `ForceCloseInLoop` of a connection that is closed. -/
inductive Waits : List Op → Prop
  | idle : Waits []
  | test {values : List State} (hvalues : .kDisconnected ∉ values) : Waits [.test values .forceCloseInLoop]

/-- Before the first callback. -/
inductive Establishing (s : SharedConnection T) : Prop
  | queued (hstate : s.state = .kConnecting) (hhandler : s.handler = [])
      (hpending : s.pendingFunctors = [.connectEstablished]) (hchannel : s.channel = .new)
  | check (hstate : s.state = .kConnecting) (hhandler : s.handler = connectEstablished)
      (hpending : s.pendingFunctors = []) (hchannel : s.channel = .new)
  | store (hstate : s.state = .kConnecting) (hhandler : s.handler = connectEstablished.tail)
      (hpending : s.pendingFunctors = []) (hchannel : s.channel = .new)
  | enable (hstate : s.state = .kConnected) (hhandler : s.handler = [.enableReading, .connectionCallback])
      (hpending : s.pendingFunctors = []) (hchannel : s.channel = .new)
  | callback (hstate : s.state = .kConnected) (hhandler : s.handler = [.connectionCallback])
      (hpending : s.pendingFunctors = []) (hchannel : s.channel.index = 1)

/-- What the loop runs for an open connection. -/
inductive Serving (state : State) : List Op → Prop
  | idle : Serving state []
  | userCode : Serving state [.userCode]
  | test (values : List State) : Serving state [.test values .forceCloseInLoop]
  | check : Serving state handleClose
  | checkAgain (hstate : state = .kDisconnecting) :
      Serving state (.check [.kDisconnecting] .handleClose :: handleClose.tail)
  | store : Serving state handleClose.tail

/-- The channel is behind `DisableAll`. -/
def Disabled (channel : Channel) : Prop := channel.isNoneEvent = true ∧ channel.index = 2

/-- `HandleClose` behind its store. -/
inductive Closing (s : SharedConnection T) : Prop
  | disable (hhandler : s.handler = [.disableAll, .connectionCallback, .closeCallback]) (hcallbacks : s.callbacks = [true])
      (hchannel : s.channel.index = 1)
  | callback (hhandler : s.handler = [.connectionCallback, .closeCallback]) (hcallbacks : s.callbacks = [true])
      (hchannel : Disabled s.channel)
  | userCode (hhandler : s.handler = [.userCode, .closeCallback]) (hcallbacks : s.callbacks = [true, false])
      (hchannel : Disabled s.channel)
  | remove (hhandler : s.handler = [.closeCallback]) (hcallbacks : s.callbacks = [true, false])
      (hchannel : Disabled s.channel)

/-- The base loop's thread runs `code`: in the handler of the connection when that is its loop too. -/
def Runs (s : SharedConnection T) (code : List Op) : Prop :=
  s.handler = code ∧ s.remover = [] ∨ Waits s.handler ∧ s.remover = code

/-- From `HandleClose` to `Channel::Remove`. -/
inductive Leaving (s : SharedConnection T) : Prop
  | queued (hentered : s.entered = true) (hremovals : s.removals = 1) (hremover : s.remover = [])
      (hhandler : Waits s.handler) (hpending : Queued s.pendingFunctors 0)
  | erase (hentered : s.entered = true) (hremovals : s.removals = 0) (hruns : Runs s removeConnectionInLoop)
      (hpending : Queued s.pendingFunctors 0)
  | queue (hremovals : s.removals = 0) (hruns : Runs s [.queueInLoop .connectDestroyed])
      (hpending : Queued s.pendingFunctors 0)
  | destroy (hremovals : s.removals = 0) (hremover : s.remover = []) (hhandler : Waits s.handler)
      (hpending : Queued s.pendingFunctors 1)
  | test {values : List State} (hvalues : .kDisconnected ∉ values) (hremovals : s.removals = 0) (hremover : s.remover = [])
      (hhandler : s.handler = [.test values .connectDestroyed, .remove]) (hpending : Queued s.pendingFunctors 0)
  | remove (hremovals : s.removals = 0) (hremover : s.remover = []) (hhandler : s.handler = [.remove])
      (hpending : Queued s.pendingFunctors 0)

/-- Nothing of the removal has begun. -/
structure Entered (entered : Bool) (removals : ℕ) (remover : List Op) : Prop where
  entered : entered = true
  removals : removals = 0
  remover : remover = []

inductive Stage (s : SharedConnection T) : Prop
  | establishing (hcloses : s.closes = 0) (hentered : Entered s.entered s.removals s.remover)
      (hcalls : ∀ t, s.calls t = []) (hcallbacks : s.callbacks = []) (hat : Establishing s)
  | serving (hcloses : s.closes = 0) (hentered : Entered s.entered s.removals s.remover)
      (hstate : s.state = .kConnected ∨ s.state = .kDisconnecting) (hcallbacks : s.callbacks = [true])
      (hchannel : s.channel.index = 1) (hpending : Queued s.pendingFunctors 0) (hat : Serving s.state s.handler)
  | closing (hcloses : s.closes = 1) (hentered : Entered s.entered s.removals s.remover)
      (hstate : s.state = .kDisconnected) (hpending : Queued s.pendingFunctors 0) (hat : Closing s)
  | leaving (hcloses : s.closes = 1) (hstate : s.state = .kDisconnected) (hcallbacks : s.callbacks = [true, false])
      (hchannel : Disabled s.channel) (hat : Leaving s)
  | gone (hcloses : s.closes = 1) (hstate : s.state = .kDisconnected) (hcallbacks : s.callbacks = [true, false])
      (hchannel : s.channel.index = -1) (hremovals : s.removals = 0) (hremover : s.remover = [])
      (hhandler : Waits s.handler) (hpending : Queued s.pendingFunctors 0)

/-- The thread of the loop is not about to store `kDisconnecting` in a connection that it has closed. -/
structure Inv (owner : T) (s : SharedConnection T) : Prop where
  calls : ∀ t, Calling (s.calls t)
  owner_store : s.state = .kDisconnected → (s.calls owner).head? ≠ some (.store .kDisconnecting)
  stage : Stage s

variable {owner base t : T} {s s' : SharedConnection T}

omit [DecidableEq T] in
theorem start_inv : Inv owner (start : SharedConnection T) where
  calls _ := .idle
  owner_store h := by cases h
  stage := .establishing rfl ⟨rfl, rfl, rfl⟩ (fun _ => rfl) rfl (.queued rfl rfl rfl rfl)

omit [DecidableEq T] in
theorem Stage.closes_of_state (h : Stage s) (hstate : s.state = .kDisconnected) : s.closes = 1 := by
  cases h with
  | establishing _ _ _ _ hat =>
    cases hat with
    | queued heq | check heq | store heq | enable heq | callback heq =>
      rw [heq] at hstate
      cases hstate
  | serving _ _ hopen => rcases hopen with heq | heq <;> (rw [heq] at hstate; cases hstate)
  | closing hcloses | leaving hcloses | gone hcloses => exact hcloses

omit [DecidableEq T] in
theorem Stage.staysClosed (h : Stage s) : StaysClosed (.ok s) := by
  cases h with
  | establishing hcloses _ _ hcallbacks | serving hcloses _ _ hcallbacks => simp [StaysClosed, hcloses, hcallbacks]
  | closing hcloses _ hstate _ hat =>
    refine ⟨fun _ => hstate, hcloses.le, ?_⟩
    cases hat with
    | disable _ hcallbacks | callback _ hcallbacks | userCode _ hcallbacks | remove _ hcallbacks => simp [hcallbacks]
  | leaving hcloses hstate hcallbacks | gone hcloses hstate hcallbacks =>
    exact ⟨fun _ => hstate, hcloses.le, by simp [hcallbacks]⟩

/-! ## The steps of the two loops -/

variable {x : Except Failure (SharedConnection T)} {op : Op} {code rest : List Op}

/-- The step succeeds and takes the connection on. -/
def Moves (s : SharedConnection T) (x : Except Failure (SharedConnection T)) : Prop :=
  ∃ s', x = .ok s' ∧ s'.calls = s.calls ∧ Stage s'

theorem handlerStep_eq (hhandler : s.handler = op :: rest) (hx : act owner base s .handlerStep = some x) :
    x = (exec owner base owner s op rest).map fun r => { r.1 with handler := r.2 } := by
  simp only [act, hhandler] at hx
  split_ifs at hx
  exact (Option.some.inj hx).symm

theorem handler_ne_nil (hx : act owner base s .handlerStep = some x) : s.handler ≠ [] := by
  intro hhandler
  simp only [act, hhandler] at hx
  cases hx

theorem removerStep_eq (hremover : s.remover = op :: rest) (hx : act owner base s .removerStep = some x) :
    x = (exec owner base base s op rest).map fun r => { r.1 with remover := r.2 } := by
  simp only [act, hremover] at hx
  split_ifs at hx
  exact (Option.some.inj hx).symm

theorem Establishing.handlerStep (h : Establishing s) (hcloses : s.closes = 0)
    (hentered : Entered s.entered s.removals s.remover) (hcalls : ∀ t, s.calls t = []) (hcallbacks : s.callbacks = [])
    (hx : act owner base s .handlerStep = some x) : Moves s x := by
  cases h with
  | queued _ hhandler => exact absurd hhandler (handler_ne_nil hx)
  | check hstate hhandler hpending hchannel =>
    obtain rfl := handlerStep_eq hhandler hx
    refine ⟨_, rfl, rfl, .establishing hcloses hentered hcalls hcallbacks ?_⟩
    exact .store hstate (if_pos hstate) hpending hchannel
  | store hstate hhandler hpending hchannel =>
    obtain rfl := handlerStep_eq hhandler hx
    exact ⟨_, rfl, rfl, .establishing hcloses hentered hcalls hcallbacks (.enable rfl rfl hpending hchannel)⟩
  | enable hstate hhandler hpending hchannel =>
    obtain rfl := handlerStep_eq hhandler hx
    refine ⟨_, rfl, rfl, .establishing hcloses hentered hcalls hcallbacks (.callback hstate rfl hpending ?_)⟩
    show s.channel.enableReading.1.index = 1
    rw [hchannel]
    rfl
  | callback hstate hhandler hpending hchannel =>
    obtain rfl := handlerStep_eq hhandler hx
    refine ⟨_, rfl, rfl, .serving hcloses hentered (.inl hstate) ?_ hchannel ?_ .userCode⟩
    · show s.callbacks ++ [decide (s.state = .kConnected)] = [true]
      rw [hcallbacks, hstate]
      rfl
    · show Queued s.pendingFunctors 0
      rw [hpending]
      exact ⟨List.forall_mem_nil _, rfl⟩

theorem Serving.handlerStep (h : Serving s.state code) (hhandler : s.handler = code) (hcloses : s.closes = 0)
    (hentered : Entered s.entered s.removals s.remover) (hstate : s.state = .kConnected ∨ s.state = .kDisconnecting)
    (hcallbacks : s.callbacks = [true]) (hchannel : s.channel.index = 1) (hpending : Queued s.pendingFunctors 0)
    (hx : act owner base s .handlerStep = some x) : Moves s x := by
  cases h with
  | idle => exact absurd hhandler (handler_ne_nil hx)
  | userCode =>
    obtain rfl := handlerStep_eq hhandler hx
    exact ⟨_, rfl, rfl, .serving hcloses hentered hstate hcallbacks hchannel hpending .idle⟩
  | test values =>
    obtain rfl := handlerStep_eq hhandler hx
    cases values with
    | nil => exact ⟨_, rfl, rfl, .serving hcloses hentered hstate hcallbacks hchannel hpending .idle⟩
    | cons v values =>
      refine ⟨_, rfl, rfl, .serving hcloses hentered hstate hcallbacks hchannel hpending ?_⟩
      show Serving s.state (if s.state = v then _ else _)
      split_ifs
      · exact .check
      · exact .test values
  | check =>
    obtain rfl := handlerStep_eq hhandler hx
    refine ⟨_, rfl, rfl, .serving hcloses hentered hstate hcallbacks hchannel hpending ?_⟩
    show Serving s.state (if s.state = .kConnected then _ else _)
    split_ifs with hconnected
    · exact .store
    · exact .checkAgain (hstate.resolve_left hconnected)
  | checkAgain hdisconnecting =>
    obtain rfl := handlerStep_eq hhandler hx
    refine ⟨_, rfl, rfl, .serving hcloses hentered hstate hcallbacks hchannel hpending ?_⟩
    show Serving s.state (if s.state = .kDisconnecting then _ else _)
    rw [if_pos hdisconnecting]
    exact .store
  | store =>
    obtain rfl := handlerStep_eq hhandler hx
    exact ⟨_, rfl, rfl, .closing (congrArg (· + 1) hcloses) hentered rfl hpending (.disable rfl hcallbacks hchannel)⟩

theorem disabled_disableAll {channel : Channel} (h : channel.index = 1) : Disabled channel.disableAll.1 := by
  unfold Disabled Channel.disableAll Channel.update
  simp [h, Channel.isNoneEvent]

theorem Closing.handlerStep (h : Closing s) (hcloses : s.closes = 1)
    (hentered : Entered s.entered s.removals s.remover) (hstate : s.state = .kDisconnected)
    (hpending : Queued s.pendingFunctors 0) (hx : act owner base s .handlerStep = some x) : Moves s x := by
  cases h with
  | disable hhandler hcallbacks hchannel =>
    obtain rfl := handlerStep_eq hhandler hx
    refine ⟨_, rfl, rfl, .closing hcloses hentered hstate hpending ?_⟩
    exact .callback rfl hcallbacks (disabled_disableAll hchannel)
  | callback hhandler hcallbacks hchannel =>
    obtain rfl := handlerStep_eq hhandler hx
    refine ⟨_, rfl, rfl, .closing hcloses hentered hstate hpending (.userCode rfl ?_ hchannel)⟩
    show s.callbacks ++ [decide (s.state = .kConnected)] = [true, false]
    rw [hcallbacks, hstate]
    rfl
  | userCode hhandler hcallbacks hchannel =>
    obtain rfl := handlerStep_eq hhandler hx
    exact ⟨_, rfl, rfl, .closing hcloses hentered hstate hpending (.remove rfl hcallbacks hchannel)⟩
  | remove hhandler hcallbacks hchannel =>
    obtain rfl := handlerStep_eq hhandler hx
    by_cases hbase : owner = base
    · -- the base loop runs `RemoveConnectionInLoop` at once
      simp only [exec, if_pos hbase]
      refine ⟨_, rfl, rfl, .leaving hcloses hstate hcallbacks hchannel ?_⟩
      exact .erase hentered.entered hentered.removals (.inl ⟨rfl, hentered.remover⟩) hpending
    · simp only [exec, if_neg hbase]
      refine ⟨_, rfl, rfl, .leaving hcloses hstate hcallbacks hchannel ?_⟩
      exact .queued hentered.entered (congrArg (· + 1) hentered.removals) hentered.remover .idle hpending

/-- No load of a test finds the state of a connection that is closed. -/
theorem load_fails {v : State} {values : List State} (hvalues : .kDisconnected ∉ v :: values) {state : State}
    (hstate : state = .kDisconnected) : state ≠ v ∧ .kDisconnected ∉ values := by
  rw [hstate]
  exact ⟨List.ne_of_not_mem_cons hvalues, List.not_mem_of_not_mem_cons hvalues⟩

/-- `ForceCloseInLoop` does nothing to a connection that is closed. -/
theorem Waits.handlerStep (h : Waits s.handler) (hstate : s.state = .kDisconnected)
    (hx : act owner base s .handlerStep = some x) : ∃ code, x = .ok { s with handler := code } ∧ Waits code := by
  generalize hhandler : s.handler = code at h
  cases h with
  | idle => exact absurd hhandler (handler_ne_nil hx)
  | @test values hvalues =>
    obtain rfl := handlerStep_eq hhandler hx
    cases values with
    | nil => exact ⟨[], rfl, .idle⟩
    | cons v values =>
      obtain ⟨hne, hvalues⟩ := load_fails hvalues hstate
      refine ⟨_, rfl, ?_⟩
      rw [if_neg hne]
      exact .test hvalues

/-! ### Functors -/

theorem Queued.push {functors : List Functor} {n : ℕ} (h : Queued functors n) {f : Functor}
    (hf : f = .shutdownInLoop ∨ f = .forceCloseInLoop) : Queued (functors ++ [f]) n := by
  refine ⟨List.forall_mem_append.mpr ⟨h.kinds, List.forall_mem_singleton.mpr ?_⟩, ?_⟩
  · exact hf.imp_right .inl
  · rw [List.count_append, h.count]
    rcases hf with rfl | rfl <;> rfl

theorem Queued.pushDestroy {functors : List Functor} {n : ℕ} (h : Queued functors n) :
    Queued (functors ++ [.connectDestroyed]) (n + 1) := by
  refine ⟨List.forall_mem_append.mpr ⟨h.kinds, List.forall_mem_singleton.mpr (.inr (.inr rfl))⟩, ?_⟩
  rw [List.count_append, h.count]
  rfl

theorem Queued.pop {functors : List Functor} {n : ℕ} {f : Functor} (h : Queued (f :: functors) n) :
    (f = .shutdownInLoop ∨ f = .forceCloseInLoop) ∧ Queued functors n ∨
      f = .connectDestroyed ∧ ∃ m, n = m + 1 ∧ Queued functors m := by
  obtain ⟨hf, hkinds⟩ := List.forall_mem_cons.mp h.kinds
  have hcount := h.count
  rcases hf with rfl | rfl | rfl
  · exact .inl ⟨.inl rfl, hkinds, hcount⟩
  · exact .inl ⟨.inr rfl, hkinds, hcount⟩
  · rw [List.count_cons_self] at hcount
    exact .inr ⟨rfl, _, hcount.symm, hkinds, rfl⟩

/-- A functor of `Shutdown` or `ForceClose` does nothing to a connection that is closed. -/
theorem waits_functorCode {f : Functor} (hf : f = .shutdownInLoop ∨ f = .forceCloseInLoop) : Waits (functorCode f) := by
  rcases hf with rfl | rfl
  · exact .idle
  · exact .test (by decide)

theorem Leaving.handlerStep (h : Leaving s) (hcloses : s.closes = 1) (hstate : s.state = .kDisconnected)
    (hcallbacks : s.callbacks = [true, false]) (hchannel : Disabled s.channel)
    (hx : act owner base s .handlerStep = some x) : Moves s x := by
  cases h with
  | queued hentered hremovals hremover hwaits hpending =>
    obtain ⟨code, rfl, hcode⟩ := hwaits.handlerStep hstate hx
    exact ⟨_, rfl, rfl, .leaving hcloses hstate hcallbacks hchannel (.queued hentered hremovals hremover hcode hpending)⟩
  | erase hentered hremovals hruns hpending =>
    obtain ⟨hhandler, hremover⟩ | ⟨hwaits, hremover⟩ := hruns
    · obtain rfl := handlerStep_eq hhandler hx
      simp only [exec, if_pos hentered]
      refine ⟨_, rfl, rfl, .leaving hcloses hstate hcallbacks hchannel ?_⟩
      exact .queue hremovals (.inl ⟨rfl, hremover⟩) hpending
    · obtain ⟨code, rfl, hcode⟩ := hwaits.handlerStep hstate hx
      refine ⟨_, rfl, rfl, .leaving hcloses hstate hcallbacks hchannel ?_⟩
      exact .erase hentered hremovals (.inr ⟨hcode, hremover⟩) hpending
  | queue hremovals hruns hpending =>
    obtain ⟨hhandler, hremover⟩ | ⟨hwaits, hremover⟩ := hruns
    · obtain rfl := handlerStep_eq hhandler hx
      refine ⟨_, rfl, rfl, .leaving hcloses hstate hcallbacks hchannel ?_⟩
      exact .destroy hremovals hremover .idle hpending.pushDestroy
    · obtain ⟨code, rfl, hcode⟩ := hwaits.handlerStep hstate hx
      refine ⟨_, rfl, rfl, .leaving hcloses hstate hcallbacks hchannel ?_⟩
      exact .queue hremovals (.inr ⟨hcode, hremover⟩) hpending
  | destroy hremovals hremover hwaits hpending =>
    obtain ⟨code, rfl, hcode⟩ := hwaits.handlerStep hstate hx
    exact ⟨_, rfl, rfl, .leaving hcloses hstate hcallbacks hchannel (.destroy hremovals hremover hcode hpending)⟩
  | @test values hvalues hremovals hremover hhandler hpending =>
    obtain rfl := handlerStep_eq hhandler hx
    cases values with
    | nil =>
      exact ⟨_, rfl, rfl, .leaving hcloses hstate hcallbacks hchannel (.remove hremovals hremover rfl hpending)⟩
    | cons v values =>
      obtain ⟨hne, hvalues⟩ := load_fails hvalues hstate
      refine ⟨_, rfl, rfl, .leaving hcloses hstate hcallbacks hchannel ?_⟩
      exact .test hvalues hremovals hremover (if_neg hne) hpending
  | remove hremovals hremover hhandler hpending =>
    obtain rfl := handlerStep_eq hhandler hx
    have hremove : s.channel.remove = some ({ s.channel with addedToLoop := false, index := -1 }, []) := by
      simp [Channel.remove, hchannel.1, hchannel.2]
    simp only [exec, hremove]
    exact ⟨_, rfl, rfl, .gone hcloses hstate hcallbacks rfl hremovals hremover .idle hpending⟩

theorem Stage.handlerStep (h : Stage s) (hx : act owner base s .handlerStep = some x) : Moves s x := by
  cases h with
  | establishing hcloses hentered hcalls hcallbacks hat =>
    exact hat.handlerStep hcloses hentered hcalls hcallbacks hx
  | serving hcloses hentered hstate hcallbacks hchannel hpending hat =>
    exact hat.handlerStep rfl hcloses hentered hstate hcallbacks hchannel hpending hx
  | closing hcloses hentered hstate hpending hat => exact hat.handlerStep hcloses hentered hstate hpending hx
  | leaving hcloses hstate hcallbacks hchannel hat => exact hat.handlerStep hcloses hstate hcallbacks hchannel hx
  | gone hcloses hstate hcallbacks hchannel hremovals hremover hwaits hpending =>
    obtain ⟨code, rfl, hcode⟩ := hwaits.handlerStep hstate hx
    exact ⟨_, rfl, rfl, .gone hcloses hstate hcallbacks hchannel hremovals hremover hcode hpending⟩

omit [DecidableEq T] in
theorem ownerIdle_iff : s.ownerIdle owner = true ↔ s.calls owner = [] ∧ s.handler = [] := by
  simp [ownerIdle]

omit [DecidableEq T] in
theorem Leaving.runFunctor (h : Leaving s) (hhandler : s.handler = []) {f : Functor} {functors : List Functor}
    (hfunctors : s.pendingFunctors = f :: functors) :
    Leaving { s with handler := functorCode f, pendingFunctors := functors } := by
  have hpop : ∀ {n : ℕ}, Queued s.pendingFunctors n → _ := fun hpending => (hfunctors ▸ hpending).pop
  cases h with
  | queued hentered hremovals hremover _ hpending =>
    obtain ⟨hf, hpending⟩ | ⟨-, m, hm, -⟩ := hpop hpending
    · exact .queued hentered hremovals hremover (waits_functorCode hf) hpending
    · cases hm
  | erase hentered hremovals hruns hpending =>
    obtain ⟨hcode, -⟩ | ⟨-, hremover⟩ := hruns
    · rw [hhandler] at hcode
      cases hcode
    · obtain ⟨hf, hpending⟩ | ⟨-, m, hm, -⟩ := hpop hpending
      · exact .erase hentered hremovals (.inr ⟨waits_functorCode hf, hremover⟩) hpending
      · cases hm
  | queue hremovals hruns hpending =>
    obtain ⟨hcode, -⟩ | ⟨-, hremover⟩ := hruns
    · rw [hhandler] at hcode
      cases hcode
    · obtain ⟨hf, hpending⟩ | ⟨-, m, hm, -⟩ := hpop hpending
      · exact .queue hremovals (.inr ⟨waits_functorCode hf, hremover⟩) hpending
      · cases hm
  | destroy hremovals hremover _ hpending =>
    obtain ⟨hf, hpending⟩ | ⟨rfl, m, hm, hpending⟩ := hpop hpending
    · exact .destroy hremovals hremover (waits_functorCode hf) hpending
    · obtain rfl := Nat.succ.inj hm
      exact .test (by decide) hremovals hremover rfl hpending
  | test _ _ _ hcode | remove _ _ hcode =>
    rw [hhandler] at hcode
    cases hcode

theorem Stage.runFunctor (h : Stage s) (hx : act owner base s .runFunctor = some x) : Moves s x := by
  simp only [act] at hx
  split at hx
  case h_1 => cases hx
  case h_2 f functors hfunctors =>
    split_ifs at hx with hidle
    obtain rfl := Option.some.inj hx
    have hhandler : s.handler = [] := (ownerIdle_iff.mp hidle).2
    cases h with
    | establishing hcloses hentered hcalls hcallbacks hat =>
      cases hat with
      | queued hstate _ hpending hchannel =>
        obtain ⟨rfl, rfl⟩ := List.cons.inj (hfunctors.symm.trans hpending)
        exact ⟨_, rfl, rfl, .establishing hcloses hentered hcalls hcallbacks (.check hstate rfl rfl hchannel)⟩
      | check _ hcode | store _ hcode | enable _ hcode | callback _ hcode =>
        rw [hhandler] at hcode
        cases hcode
    | serving hcloses hentered hstate hcallbacks hchannel hpending hat =>
      rw [hfunctors] at hpending
      obtain ⟨hf, hpending⟩ | ⟨-, m, hm, -⟩ := hpending.pop
      · refine ⟨_, rfl, rfl, .serving hcloses hentered hstate hcallbacks hchannel hpending ?_⟩
        rcases hf with rfl | rfl
        · exact .idle
        · exact .test _
      · cases hm
    | closing _ _ _ _ hat =>
      cases hat with
      | disable hcode | callback hcode | userCode hcode | remove hcode =>
        rw [hhandler] at hcode
        cases hcode
    | leaving hcloses hstate hcallbacks hchannel hat =>
      exact ⟨_, rfl, rfl, .leaving hcloses hstate hcallbacks hchannel (hat.runFunctor hhandler hfunctors)⟩
    | gone hcloses hstate hcallbacks hchannel hremovals hremover _ hpending =>
      rw [hfunctors] at hpending
      obtain ⟨hf, hpending⟩ | ⟨-, m, hm, -⟩ := hpending.pop
      · refine ⟨_, rfl, rfl, .gone hcloses hstate hcallbacks hchannel hremovals hremover ?_ hpending⟩
        exact waits_functorCode hf
      · cases hm

/-- In order, `HandleEvent` calls `HandleClose` once at most. -/
theorem serving_eventCode {revents : Events} (h : NetLayer.InOrder revents) (n : ℤ) (state : State) :
    Serving state (eventCode revents n) := by
  have hread : revents.any (EPOLLIN ||| EPOLLPRI ||| EPOLLRDHUP) =
      (revents.any EPOLLIN || revents.any (EPOLLPRI ||| EPOLLRDHUP)) := by
    rw [BitVec.or_assoc, Channel.any_or_right]
  have hcode : Serving state (callbackCode n .read) := by
    unfold callbackCode
    split_ifs
    · exact .userCode
    · exact .check
    · exact .idle
  have heither : eventCode revents n = [] ∨ eventCode revents n = handleClose ∨
      eventCode revents n = callbackCode n .read := by
    unfold NetLayer.InOrder at h
    unfold eventCode Channel.handleEvent
    rw [hread]
    cases hhup : revents.any EPOLLHUP <;> cases hin : revents.any EPOLLIN <;>
      cases hrest : revents.any (EPOLLPRI ||| EPOLLRDHUP) <;>
      simp [hhup, hin, hrest] at h <;>
      cases revents.any EPOLLERR <;> cases revents.any EPOLLOUT <;> simp [callbackCode]
  rcases heither with heq | heq | heq <;> rw [heq]
  · exact .idle
  · exact .check
  · exact hcode

theorem Stage.handle (h : Stage s) {revents : Events} {n : ℤ}
    (hx : act owner base s (.handle revents n) = some x) : Moves s x := by
  simp only [act] at hx
  split_ifs at hx with hguard
  obtain rfl := Option.some.inj hx
  obtain ⟨hidle, hregistered, horder⟩ := hguard
  have hhandler : s.handler = [] := (ownerIdle_iff.mp hidle).2
  have hindex : s.channel.index = 1 := by simpa [Channel.registered] using hregistered
  cases h with
  | establishing _ _ _ _ hat =>
    cases hat with
    | queued _ _ _ hchannel =>
      rw [hchannel] at hindex
      cases hindex
    | check _ hcode | store _ hcode | enable _ hcode | callback _ hcode =>
      rw [hhandler] at hcode
      cases hcode
  | serving hcloses hentered hstate hcallbacks hchannel hpending hat =>
    exact ⟨_, rfl, rfl, .serving hcloses hentered hstate hcallbacks hchannel hpending (serving_eventCode horder n _)⟩
  | closing _ _ _ _ hat =>
    cases hat with
    | disable hcode | callback hcode | userCode hcode | remove hcode =>
      rw [hhandler] at hcode
      cases hcode
  | leaving _ _ _ hchannel =>
    rw [hchannel.2] at hindex
    cases hindex
  | gone _ _ _ hchannel =>
    rw [hchannel] at hindex
    cases hindex

theorem Stage.runRemoval (h : Stage s) (hx : act owner base s .runRemoval = some x) :
    ∃ s', x = .ok s' ∧ s'.calls = s.calls ∧ s'.state = s.state ∧ Stage s' := by
  simp only [act] at hx
  split_ifs at hx with hguard
  obtain rfl := Option.some.inj hx
  obtain ⟨-, -, hsome⟩ := hguard
  cases h with
  | establishing _ hentered | serving _ hentered | closing _ hentered =>
    rw [hentered.removals] at hsome
    cases hsome
  | gone _ _ _ _ hremovals =>
    rw [hremovals] at hsome
    cases hsome
  | leaving hcloses hstate hcallbacks hchannel hat =>
    cases hat with
    | queued hentered hremovals _ hwaits hpending =>
      refine ⟨_, rfl, rfl, rfl, .leaving hcloses hstate hcallbacks hchannel ?_⟩
      exact .erase hentered (by simp [hremovals]) (.inr ⟨hwaits, rfl⟩) hpending
    | erase _ hremovals | queue hremovals | destroy hremovals | test _ hremovals | remove hremovals =>
      rw [hremovals] at hsome
      cases hsome

theorem Stage.removerStep (h : Stage s) (hx : act owner base s .removerStep = some x) :
    ∃ s', x = .ok s' ∧ s'.calls = s.calls ∧ s'.state = s.state ∧ Stage s' := by
  have hne : s.remover ≠ [] := by
    intro hremover
    simp only [act, hremover] at hx
    cases hx
  cases h with
  | establishing _ hentered | serving _ hentered | closing _ hentered => exact absurd hentered.remover hne
  | gone _ _ _ _ _ hremover => exact absurd hremover hne
  | leaving hcloses hstate hcallbacks hchannel hat =>
    cases hat with
    | queued _ _ hremover | destroy _ hremover | test _ _ hremover | remove _ hremover => exact absurd hremover hne
    | erase hentered hremovals hruns hpending =>
      obtain ⟨-, hremover⟩ | ⟨hwaits, hremover⟩ := hruns
      · exact absurd hremover hne
      · obtain rfl := removerStep_eq hremover hx
        simp only [exec, if_pos hentered]
        refine ⟨_, rfl, rfl, rfl, .leaving hcloses hstate hcallbacks hchannel ?_⟩
        exact .queue hremovals (.inr ⟨hwaits, rfl⟩) hpending
    | queue hremovals hruns hpending =>
      obtain ⟨-, hremover⟩ | ⟨hwaits, hremover⟩ := hruns
      · exact absurd hremover hne
      · obtain rfl := removerStep_eq hremover hx
        refine ⟨_, rfl, rfl, rfl, .leaving hcloses hstate hcallbacks hchannel ?_⟩
        exact .destroy hremovals rfl hwaits hpending.pushDestroy

/-! ## The steps of a call -/

theorem Serving.disconnecting {state : State} (h : Serving state code) : Serving .kDisconnecting code := by
  cases h with
  | idle => exact .idle
  | userCode => exact .userCode
  | test values => exact .test values
  | check => exact .check
  | checkAgain => exact .checkAgain rfl
  | store => exact .store

omit [DecidableEq T] in
theorem Stage.callbacks_ne_nil (h : Stage s) (hcall : s.calls t ≠ []) : s.callbacks ≠ [] := by
  cases h with
  | establishing _ _ hcalls => exact absurd (hcalls t) hcall
  | serving _ _ _ hcallbacks | leaving _ _ hcallbacks | gone _ _ hcallbacks => simp [hcallbacks]
  | closing _ _ _ _ hat =>
    cases hat with
    | disable _ hcallbacks | callback _ hcallbacks | userCode _ hcallbacks | remove _ hcallbacks => simp [hcallbacks]

omit [DecidableEq T] in
/-- A call stores `kDisconnecting` in an open connection and queues functors. -/
theorem Stage.of_call (h : Stage s) (hcallbacks : s.callbacks ≠ []) {state : State} {functors : List Functor}
    (calls : T → List Op) (hstate : state = s.state ∨ state = .kDisconnecting ∧ s.state ≠ .kDisconnected)
    (hfunctors : ∀ n, Queued s.pendingFunctors n → Queued functors n) :
    Stage { s with state := state, calls := calls, pendingFunctors := functors } := by
  have hclosed : s.state = .kDisconnected → state = .kDisconnected := by
    intro hdisconnected
    rcases hstate with heq | ⟨-, hne⟩
    · rw [heq, hdisconnected]
    · exact absurd hdisconnected hne
  cases h with
  | establishing _ _ _ hnone => exact absurd hnone hcallbacks
  | serving hcloses hentered hopen hcallbacks hchannel hpending hat =>
    refine .serving hcloses hentered ?_ hcallbacks hchannel (hfunctors 0 hpending) ?_
    · rcases hstate with rfl | ⟨rfl, -⟩
      · exact hopen
      · exact .inr rfl
    · rcases hstate with rfl | ⟨rfl, -⟩
      · exact hat
      · exact hat.disconnecting
  | closing hcloses hentered hdisconnected hpending hat =>
    refine .closing hcloses hentered (hclosed hdisconnected) (hfunctors 0 hpending) ?_
    cases hat with
    | disable hhandler hcallbacks hchannel => exact .disable hhandler hcallbacks hchannel
    | callback hhandler hcallbacks hchannel => exact .callback hhandler hcallbacks hchannel
    | userCode hhandler hcallbacks hchannel => exact .userCode hhandler hcallbacks hchannel
    | remove hhandler hcallbacks hchannel => exact .remove hhandler hcallbacks hchannel
  | leaving hcloses hdisconnected hcallbacks hchannel hat =>
    refine .leaving hcloses (hclosed hdisconnected) hcallbacks hchannel ?_
    cases hat with
    | queued hentered hremovals hremover hwaits hpending =>
      exact .queued hentered hremovals hremover hwaits (hfunctors 0 hpending)
    | erase hentered hremovals hruns hpending => exact .erase hentered hremovals hruns (hfunctors 0 hpending)
    | queue hremovals hruns hpending => exact .queue hremovals hruns (hfunctors 0 hpending)
    | destroy hremovals hremover hwaits hpending => exact .destroy hremovals hremover hwaits (hfunctors 1 hpending)
    | test hvalues hremovals hremover hhandler hpending =>
      exact .test hvalues hremovals hremover hhandler (hfunctors 0 hpending)
    | remove hremovals hremover hhandler hpending => exact .remove hremovals hremover hhandler (hfunctors 0 hpending)
  | gone hcloses hdisconnected hcallbacks hchannel hremovals hremover hwaits hpending =>
    exact .gone hcloses (hclosed hdisconnected) hcallbacks hchannel hremovals hremover hwaits (hfunctors 0 hpending)

/-- What a step of a call does, from `code` to `code'`. -/
inductive CallEffect (s : SharedConnection T) (code code' : List Op) : SharedConnection T → Prop
  | loads (hstore : code'.head? = some (.store .kDisconnecting) → s.state ≠ .kDisconnected)
      (hcode : code.head? ≠ some (.store .kDisconnecting)) : CallEffect s code code' s
  | stores (hstore : code'.head? ≠ some (.store .kDisconnecting))
      (hcode : code.head? = some (.store .kDisconnecting)) : CallEffect s code code' (s.setState .kDisconnecting)
  | pushes {f : Functor} (hf : f = .shutdownInLoop ∨ f = .forceCloseInLoop)
      (hstore : code'.head? ≠ some (.store .kDisconnecting)) (hcode : code.head? ≠ some (.store .kDisconnecting)) :
      CallEffect s code code' (s.push f)

theorem Calling.exec (h : Calling (op :: rest)) (owner base t : T) (s : SharedConnection T) :
    ∃ s' code, exec owner base t s op rest = .ok (s', code) ∧ Calling code ∧ CallEffect s (op :: rest) code s' := by
  cases h with
  | @test values block hvalues hblock =>
    cases values with
    | nil => exact ⟨s, [], rfl, .idle, .loads (by simp) (by simp)⟩
    | cons v values =>
      by_cases hv : s.state = v
      · have hne : s.state ≠ .kDisconnected := fun hdisconnected => (load_fails hvalues hdisconnected).1 hv
        refine ⟨s, block.body, ?_, ?_, .loads (fun _ => hne) (by simp)⟩
        · simp only [SharedConnection.exec, if_pos hv, List.append_nil]
        · rcases hblock with rfl | rfl
          · exact .store (.inl rfl)
          · exact .store (.inr rfl)
      · refine ⟨s, [.test values block], ?_, ?_, .loads (by simp) (by simp)⟩
        · simp only [SharedConnection.exec, if_neg hv]
        · exact .test (fun hmem => hvalues (List.mem_cons_of_mem v hmem)) hblock
  | store hop =>
    refine ⟨_, _, rfl, .push hop, .stores ?_ rfl⟩
    rcases hop with rfl | rfl <;> simp
  | push hop =>
    rcases hop with rfl | rfl
    · by_cases ht : t = owner
      · exact ⟨s, [], if_pos ht, .idle, .loads (by simp) (by simp)⟩
      · exact ⟨_, [], if_neg ht, .idle, .pushes (.inl rfl) (by simp) (by simp)⟩
    · exact ⟨_, [], rfl, .idle, .pushes (.inr rfl) (by simp) (by simp)⟩

theorem callStep_eq (hcall : s.calls t = op :: rest) (hx : act owner base s (.callStep t) = some x) :
    x = (exec owner base t s op rest).map fun r => { r.1 with calls := Function.update r.1.calls t r.2 } := by
  simp only [act, hcall] at hx
  exact (Option.some.inj hx).symm

theorem calls_ne_nil (hx : act owner base s (.callStep t) = some x) : s.calls t ≠ [] := by
  intro hcall
  simp only [act, hcall] at hx
  cases hx

theorem calling_update (h : ∀ u, Calling (s.calls u)) (hcode : Calling code) (u : T) :
    Calling (Function.update s.calls t code u) := by
  by_cases hu : u = t
  · rw [hu, Function.update_self]
    exact hcode
  · rw [Function.update_of_ne hu]
    exact h u

/-- The loop's thread in a call: the code changes with `state_` as it was. -/
theorem Inv.owner_store_update (h : Inv owner s)
    (hcode : code.head? = some (.store .kDisconnecting) → s.state ≠ .kDisconnected)
    (hstate : s.state = .kDisconnected) :
    (Function.update s.calls t code owner).head? ≠ some (.store .kDisconnecting) := by
  by_cases ht : owner = t
  · rw [ht, Function.update_self]
    exact fun hstore => hcode hstore hstate
  · rw [Function.update_of_ne ht]
    exact h.owner_store hstate

theorem Inv.callStep (h : Inv owner s) (hintime : StoresInTime owner (.ok s) (.callStep t))
    (hx : act owner base s (.callStep t) = some x) : ∃ s', x = .ok s' ∧ Inv owner s' := by
  have hcalls := calls_ne_nil hx
  have hcallbacks := h.stage.callbacks_ne_nil hcalls
  obtain ⟨op, rest, hcall⟩ := List.exists_cons_of_ne_nil hcalls
  have hcalling := h.calls t
  rw [hcall] at hcalling
  obtain ⟨s', code, hexec, hcode, heffect⟩ := hcalling.exec owner base t s
  obtain rfl := callStep_eq hcall hx
  rw [hexec]
  refine ⟨_, rfl, ?_⟩
  cases heffect with
  | loads hstore =>
    exact ⟨calling_update h.calls hcode, h.owner_store_update hstore, h.stage.of_call hcallbacks _ (.inl rfl) fun _ => id⟩
  | stores hstore hhead =>
    -- the thread of the loop has not closed the connection since its test
    have hne : s.state ≠ .kDisconnected := by
      rw [← hcall] at hhead
      by_cases ht : t = owner
      · rw [ht] at hhead
        exact fun hstate => h.owner_store hstate hhead
      · exact hintime ht hhead
    exact ⟨calling_update h.calls hcode, nofun, h.stage.of_call hcallbacks _ (.inr ⟨rfl, hne⟩) fun _ => id⟩
  | pushes hf hstore =>
    exact ⟨calling_update h.calls hcode, h.owner_store_update fun heq => absurd heq hstore,
      h.stage.of_call hcallbacks _ (.inl rfl) fun _ hpending => hpending.push hf⟩

theorem Inv.call (h : Inv owner s) {call : Call} (hx : act owner base s (.call t call) = some x) :
    ∃ s', x = .ok s' ∧ Inv owner s' := by
  simp only [act] at hx
  split_ifs at hx with hmay
  obtain rfl := Option.some.inj hx
  have hcallbacks : s.callbacks ≠ [] := by
    intro hnone
    simp [mayCall, hnone] at hmay
  have hcode : Calling call.code ∧ call.code.head? ≠ some (.store .kDisconnecting) := by
    cases call with
    | shutdown => exact ⟨.test (by decide) (.inl rfl), by decide⟩
    | forceClose => exact ⟨.test (by decide) (.inr rfl), by decide⟩
  exact ⟨_, rfl, calling_update h.calls hcode.1, h.owner_store_update fun heq => absurd heq hcode.2,
    h.stage.of_call hcallbacks _ (.inl rfl) fun _ => id⟩

omit [DecidableEq T] in
/-- A step of the loop's thread outside of calls. -/
theorem Inv.of_moves (h : Inv owner s) (hidle : s.calls owner = []) (hmoves : Moves s x) :
    ∃ s', x = .ok s' ∧ Inv owner s' := by
  obtain ⟨s', rfl, hcalls, hstage⟩ := hmoves
  refine ⟨s', rfl, fun t => ?_, fun _ => ?_, hstage⟩
  · rw [hcalls]
    exact h.calls t
  · rw [hcalls, hidle]
    nofun

omit [DecidableEq T] in
theorem Inv.of_removes (h : Inv owner s)
    (hmoves : ∃ s', x = .ok s' ∧ s'.calls = s.calls ∧ s'.state = s.state ∧ Stage s') :
    ∃ s', x = .ok s' ∧ Inv owner s' := by
  obtain ⟨s', rfl, hcalls, hstate, hstage⟩ := hmoves
  refine ⟨s', rfl, fun t => ?_, ?_, hstage⟩
  · rw [hcalls]
    exact h.calls t
  · rw [hcalls, hstate]
    exact h.owner_store

theorem Inv.act (h : Inv owner s) {e : Event T} (hintime : StoresInTime owner (.ok s) e)
    (hx : act owner base s e = some x) : ∃ s', x = .ok s' ∧ Inv owner s' := by
  cases e with
  | call t call => exact h.call hx
  | callStep t => exact h.callStep hintime hx
  | handle revents n =>
    have hmoves := h.stage.handle hx
    simp only [SharedConnection.act] at hx
    split_ifs at hx with hguard
    exact h.of_moves (ownerIdle_iff.mp hguard.1).1 hmoves
  | runFunctor =>
    have hmoves := h.stage.runFunctor hx
    simp only [SharedConnection.act] at hx
    split at hx
    case h_1 => cases hx
    case h_2 =>
      split_ifs at hx with hidle
      exact h.of_moves (ownerIdle_iff.mp hidle).1 hmoves
  | handlerStep =>
    have hmoves := h.stage.handlerStep hx
    simp only [SharedConnection.act] at hx
    split at hx
    case h_1 => cases hx
    case h_2 =>
      split_ifs at hx with hidle
      exact h.of_moves (List.isEmpty_iff.mp hidle) hmoves
  | runRemoval => exact h.of_removes (h.stage.runRemoval hx)
  | removerStep => exact h.of_removes (h.stage.removerStep hx)

/-- A store that comes too late. -/
theorem Inv.not_staysClosed (h : Inv owner s) {e : Event T} (hlate : ¬ StoresInTime owner (.ok s) e)
    (hx : SharedConnection.act owner base s e = some x) : ¬ StaysClosed x := by
  cases e with
  | callStep t =>
    simp only [StoresInTime, Classical.not_imp, not_not] at hlate
    obtain ⟨-, hhead, hstate⟩ := hlate
    obtain ⟨rest, hcall⟩ := List.head?_eq_some_iff.mp hhead
    obtain rfl := callStep_eq hcall hx
    intro hstays
    have hcloses : 0 < s.closes := by rw [h.stage.closes_of_state hstate]; exact Nat.one_pos
    exact State.noConfusion (hstays.1 hcloses)
  | _ => exact absurd trivial hlate

/-! ## The theorem -/

/-- The run has not ended in a failed assertion. -/
def Good (owner : T) (x : Except Failure (SharedConnection T)) : Prop := ∃ s, x = .ok s ∧ Inv owner s

theorem Good.step {y : Except Failure (SharedConnection T)} {e : Event T} (h : Good owner x)
    (hintime : StoresInTime owner x e) (hy : step owner base x e = some y) : Good owner y := by
  obtain ⟨s, rfl, hinv⟩ := h
  exact hinv.act hintime hy

/-- **A closed connection stays closed exactly as long as every store of another thread is made in time.**  When a
thread that has tested `state_` makes its store after `HandleClose` has made its own, the connection is open again. -/
theorem staysClosed_iff_storesInTime {es : List (Event T)}
    (hrun : runFrom (step owner base) (.ok start) es = some x) :
    (∀ es₁ es₂ u, es = es₁ ++ es₂ → runFrom (step owner base) (.ok start) es₁ = some u → StaysClosed u) ↔
      Meets (step owner base) (StoresInTime owner) (.ok start) es := by
  refine (meets_iff_forall_of_good ?_ (fun _ _ _ (h : Good owner _) hc hm => h.step hc hm) ?_ ?_ hrun).symm
  · rintro x ⟨s, rfl, hinv⟩
    exact hinv.stage.staysClosed
  · rintro x e y ⟨s, rfl, hinv⟩ hlate hy
    exact hinv.not_staysClosed hlate hy
  · exact ⟨_, rfl, start_inv⟩

/-- Then no assertion fails at all. -/
theorem ok_of_storesInTime {es : List (Event T)} (hmeets : Meets (step owner base) (StoresInTime owner) (.ok start) es)
    (hrun : runFrom (step owner base) (.ok start) es = some x) : ∃ s, x = .ok s ∧ Stage s := by
  have hgood : Good owner x := invariant_of_meets (fun _ _ _ h hc hm => h.step hc hm) hmeets ⟨_, rfl, start_inv⟩ hrun
  obtain ⟨s, rfl, hinv⟩ := hgood
  exact ⟨s, rfl, hinv.stage⟩

/-- Thread 0 runs the connection's loop: the connection is established. -/
def established : List (Event ℕ) := .runFunctor :: List.replicate 5 .handlerStep

/-- Thread 1 runs the base loop, calls `ForceClose` and later removes the connection. -/
def closedFromBase : List (Event ℕ) :=
  List.flatten
    [established, [.call 1 .forceClose, .callStep 1, .callStep 1, .callStep 1, .runFunctor],
      List.replicate 9 .handlerStep, [.runRemoval, .removerStep, .removerStep, .runFunctor],
      List.replicate 3 .handlerStep]

theorem staysClosed_closedFromBase :
    ∃ s, runFrom (step 0 1) (.ok start) closedFromBase = some (.ok s) ∧ s.closes = 1 ∧ s.channel.index = -1 ∧
      ∀ es₁ es₂ u, closedFromBase = es₁ ++ es₂ → runFrom (step 0 1) (.ok start) es₁ = some u → StaysClosed u := by
  have hmeets : Meets (step 0 1) (StoresInTime 0) (.ok start) closedFromBase := by decide +kernel
  obtain ⟨s, hrun, hview⟩ := exists_ok_of_view (runFrom (step 0 1) (.ok start) closedFromBase)
    (fun s => (s.closes, s.channel.index)) (by decide +kernel : _ = some (1, -1))
  obtain ⟨hcloses, hindex⟩ := Prod.mk.inj hview
  exact ⟨s, hrun, hcloses, hindex, (staysClosed_iff_storesInTime hrun).mpr hmeets⟩

/-- The heartbeat finds the connection connected; its peer has closed it, and `HandleClose` runs through before
`ForceClose` makes its store. -/
def storedLate : List (Event ℕ) :=
  List.flatten
    [established, [.call 1 .forceClose, .callStep 1, .handle EPOLLIN 0], List.replicate 6 .handlerStep, [.callStep 1]]

/-- The push of `ForceClose`, `ForceCloseInLoop` with the second `HandleClose`, and the two removals. -/
def closedTwice : List (Event ℕ) :=
  List.flatten
    [[.callStep 1, .runFunctor], List.replicate 9 .handlerStep, [.runRemoval, .removerStep, .removerStep, .runRemoval]]

/-- The connection leaves `kDisconnected`, is closed a second time with a second down callback, and the second
`RemoveConnectionInLoop` does not find it. -/
theorem not_staysClosed_storedLate :
    (∃ s, runFrom (step 0 1) (.ok start) storedLate = some (.ok s) ∧ s.closes = 1 ∧ s.state = .kDisconnecting ∧
      ¬ StaysClosed (.ok s)) ∧
    ∃ s, runFrom (step 0 1) (.ok start) (storedLate ++ closedTwice) = some (.ok s) ∧ s.closes = 2 ∧
      s.callbacks = [true, false, false] ∧ step 0 1 (.ok s) .removerStep = some (.error .removeConnectionInLoop) := by
  constructor
  · obtain ⟨s, hrun, hview⟩ := exists_ok_of_view (runFrom (step 0 1) (.ok start) storedLate)
      (fun s => (s.closes, s.state)) (by decide +kernel : _ = some (1, .kDisconnecting))
    obtain ⟨hcloses, hstate⟩ := Prod.mk.inj hview
    refine ⟨s, hrun, hcloses, hstate, fun h => ?_⟩
    have hclosed := h.1 (by omega)
    rw [hstate] at hclosed
    cases hclosed
  · obtain ⟨s, hrun, hview⟩ := exists_ok_of_view (runFrom (step 0 1) (.ok start) (storedLate ++ closedTwice))
      (fun s => (s.closes, s.callbacks, s.remover, s.entered, s.calls 1))
      (by decide +kernel : _ = some (2, [true, false, false], removeConnectionInLoop, false, []))
    simp only [Prod.mk.injEq] at hview
    obtain ⟨hcloses, hcallbacks, hremover, hentered, hcalls⟩ := hview
    refine ⟨s, hrun, hcloses, hcallbacks, ?_⟩
    simp [step, act, hremover, removeConnectionInLoop, hcalls, exec, hentered, Except.map]

end SharedConnection

end Chater.Net
