import Chater.ApiCli.ApiClient
import Chater.Protocol.Reassembly

/-!
# Calling `RecvPacket` again

`Connect` makes the socket non-blocking, so a `::recv` may fail with `EAGAIN` at any point of a frame, and `RecvPacket`
then returns false with what it had read of the frame gone.  Here it is called again and again on a socket that holds the
bytes of some packets, whatever its `::recv` calls give.  The packets come out exactly when no `::recv` fails inside a
frame.
-/

namespace Chater.ApiCli

open Protocol PacketHeader ClientSocket

set_option autoImplicit false

/-! ## Repeated calls -/

/-- The packets of the next `m` calls of `RecvPacket`, and the socket behind them. -/
def attempts : ℕ → ClientSocket → List Packet × ClientSocket
  | 0, s => ([], s)
  | m + 1, s =>
    match s.recvPacket with
    | (.packet p, s') => (p :: (attempts m s').1, (attempts m s').2)
    | (.noData, s') => attempts m s'
    | (.invalidLength _, s') => attempts m s'

/-- Calling until there are as many packets as were sent gives those packets, and a call that lacks data leaves the bytes
where they are. -/
structure Retryable (ps : List Packet) (s : ClientSocket) : Prop where
  delivers : ∃ m, (attempts m s).1 = ps
  continues : ∀ k, (attempts k s).2.recvPacket.1 = .noData →
    (attempts k s).2.recvPacket.2.avail = (attempts k s).2.avail

/-! ## The results that read a frame -/

/-- What is left of the results after reading `need` bytes that are there, `none` when a `::recv` fails. -/
def served : ℕ → List RecvCall → Option (List RecvCall)
  | 0, calls => some calls
  | _ + 1, [] => some []
  | _ + 1, .fail _ :: _ => none
  | need + 1, .upTo n :: calls => served (need - n) calls

def servedFrame (p : Packet) (calls : List RecvCall) : Option (List RecvCall) :=
  (served kHeaderLength calls).bind (served p.body.length)

def RecvCall.failed : RecvCall → Bool
  | .fail _ => true
  | .upTo _ => false

/-- No `::recv` fails between the first byte of a frame and its last. -/
def Uncut : List Packet → List RecvCall → Prop
  | [], _ => True
  | p :: ps, calls => ∃ rest, servedFrame p (calls.dropWhile RecvCall.failed) = some rest ∧ Uncut ps rest

theorem served_length {need : ℕ} {calls rest : List RecvCall} (h : served need calls = some rest) :
    rest.length ≤ calls.length := by
  induction calls generalizing need with
  | nil =>
    cases need with
    | zero => exact (Option.some.inj h) ▸ le_rfl
    | succ need => exact (Option.some.inj h) ▸ le_rfl
  | cons c calls ih =>
    cases need with
    | zero => exact (Option.some.inj h) ▸ le_rfl
    | succ need =>
      cases c with
      | fail e => cases h
      | upTo n => exact (ih h).trans (Nat.le_succ _)

theorem servedFrame_length {p : Packet} {calls rest : List RecvCall} (h : servedFrame p calls = some rest) :
    rest.length ≤ calls.length := by
  obtain ⟨mid, hhead, hbody⟩ := Option.bind_eq_some_iff.mp h
  exact (served_length hbody).trans (served_length hhead)

/-! ## Bytes taken -/

theorem recv_taken (s : ClientSocket) (len : ℕ) :
    (∃ s', s.recv len = (none, s') ∧ s'.avail = s.avail) ∨
      ∃ k s', k ≤ len ∧ s.recv len = (some (s.avail.take k), s') ∧ s'.avail = s.avail.drop k := by
  obtain ⟨avail, calls⟩ := s
  cases calls with
  | nil =>
    by_cases hempty : avail = []
    · exact .inl ⟨⟨avail, []⟩, by simp [recv, hempty], rfl⟩
    · exact .inr ⟨len, ⟨avail.drop len, []⟩, le_rfl, by simp [recv, hempty], rfl⟩
  | cons c calls =>
    cases c with
    | fail e => exact .inl ⟨⟨avail, calls⟩, rfl, rfl⟩
    | upTo n =>
      by_cases hempty : avail = []
      · exact .inl ⟨⟨avail, calls⟩, by simp [recv, hempty], rfl⟩
      · refine .inr ⟨min len (n + 1), ⟨avail.drop (min len (n + 1)), calls⟩, Nat.min_le_left _ _, ?_, rfl⟩
        simp [recv, hempty]

theorem recvLoop_taken (fuel need : ℕ) (s : ClientSocket) :
    (∃ s', recvLoop fuel need s = (none, s') ∧ s'.avail.length ≤ s.avail.length) ∨
      ∃ bytes s', recvLoop fuel need s = (some bytes, s') ∧ bytes.length = need ∧
        need + s'.avail.length = s.avail.length := by
  induction fuel generalizing need s with
  | zero =>
    cases need with
    | zero => exact .inr ⟨[], s, rfl, rfl, Nat.zero_add _⟩
    | succ need => exact .inl ⟨s, rfl, le_rfl⟩
  | succ fuel ih =>
    cases need with
    | zero => exact .inr ⟨[], s, rfl, rfl, Nat.zero_add _⟩
    | succ need =>
      rcases recv_taken s (need + 1) with ⟨s1, hrecv, havail⟩ | ⟨k, s1, hk, hrecv, havail⟩
      · exact .inl ⟨s1, by simp [recvLoop, hrecv], by rw [havail]⟩
      · have htake : (s.avail.take k).length = min k s.avail.length := List.length_take
        have hdrop : s1.avail.length = s.avail.length - k := by rw [havail, List.length_drop]
        rcases ih (need + 1 - (s.avail.take k).length) s1 with ⟨s2, hloop, hle⟩ | ⟨bytes, s2, hloop, hbytes, hsum⟩
        · exact .inl ⟨s2, by simp only [recvLoop, hrecv, hloop], by omega⟩
        · refine .inr ⟨s.avail.take k ++ bytes, s2, by simp only [recvLoop, hrecv, hloop], ?_, by omega⟩
          rw [List.length_append]
          omega

/-- How `RecvPacket` goes on behind the header. -/
def recvBody (header : PacketHeader) (s : ClientSocket) : Outcome × ClientSocket :=
  match s.recvAll (header.length.toNat - kHeaderLength) with
  | (none, s') => (.noData, s')
  | (some body, s') => (.packet ⟨header, body⟩, s')

theorem recvPacket_of_header {s s1 : ClientSocket} {bytes : List UInt8}
    (hhead : s.recvAll kHeaderLength = (some bytes, s1)) :
    s.recvPacket = if (ofBytes bytes).length.toNat < kHeaderLength ∨ kMaxLength < (ofBytes bytes).length.toNat then
      (.invalidLength (ofBytes bytes).length.toNat, s1) else recvBody (ofBytes bytes) s1 := by
  unfold recvBody
  simp only [recvPacket, hhead]
  congr 1
  split_ifs with hbody
  · rfl
  · -- no body: nothing is read
    rw [Nat.eq_zero_of_not_pos hbody]
    rfl

theorem recvPacket_taken (s : ClientSocket) :
    s.recvPacket.2.avail.length ≤ s.avail.length ∧
      ∀ p, s.recvPacket.1 = .packet p → p.serialise.length + s.recvPacket.2.avail.length ≤ s.avail.length := by
  rcases recvLoop_taken kHeaderLength kHeaderLength s with ⟨s1, hhead, hle⟩ | ⟨bytes, s1, hhead, hlen, hsum⟩
  · have hcall : s.recvPacket = (.noData, s1) := by simp only [recvPacket, recvAll, hhead]
    rw [hcall]
    exact ⟨hle, fun p hp => Outcome.noConfusion hp⟩
  · have hle1 : s1.avail.length ≤ s.avail.length := by omega
    rw [recvPacket_of_header hhead]
    split_ifs with hbad
    · exact ⟨hle1, fun p hp => hp.elim⟩
    · unfold recvBody
      rcases recvLoop_taken ((ofBytes bytes).length.toNat - kHeaderLength)
        ((ofBytes bytes).length.toNat - kHeaderLength) s1 with ⟨s2, hbody, hle2⟩ | ⟨body, s2, hbody, hlen2, hsum2⟩
      · rw [recvAll, hbody]
        exact ⟨hle2.trans hle1, fun p hp => Outcome.noConfusion hp⟩
      · rw [recvAll, hbody]
        refine ⟨show s2.avail.length ≤ _ by omega, fun p hp => ?_⟩
        obtain rfl := Outcome.packet.inj hp
        rw [Packet.serialise_length]
        show kHeaderLength + body.length + s2.avail.length ≤ s.avail.length
        omega

theorem attempts_length (m : ℕ) (s : ClientSocket) :
    (wire (attempts m s).1).length + (attempts m s).2.avail.length ≤ s.avail.length := by
  induction m generalizing s with
  | zero => exact (Nat.zero_add _).le
  | succ m ih =>
    obtain ⟨hle, hpacket⟩ := recvPacket_taken s
    have hrest := ih s.recvPacket.2
    unfold attempts
    split
    case h_1 p s' hcall =>
      rw [hcall] at hrest hpacket
      replace hrest : (wire (attempts m s').1).length + (attempts m s').2.avail.length ≤ s'.avail.length := hrest
      have hp : p.serialise.length + s'.avail.length ≤ s.avail.length := hpacket p rfl
      show (p.serialise ++ wire (attempts m s').1).length + (attempts m s').2.avail.length ≤ s.avail.length
      rw [List.length_append]
      omega
    case h_2 s' hcall =>
      rw [hcall] at hrest hle
      exact hrest.trans hle
    case h_3 s' hcall =>
      rw [hcall] at hrest hle
      exact hrest.trans hle

/-! ## One call on the bytes of a packet -/

theorem recvLoop_zero (fuel : ℕ) (s : ClientSocket) : recvLoop fuel 0 s = (some [], s) := by
  cases fuel <;> rfl

theorem served_zero (calls : List RecvCall) : served 0 calls = some calls := by
  cases calls <;> rfl

theorem recvLoop_served {fuel need : ℕ} {avail : List UInt8} (calls : List RecvCall) (hfuel : need ≤ fuel)
    (hneed : need ≤ avail.length) :
    (∃ rest, served need calls = some rest ∧
      recvLoop fuel need ⟨avail, calls⟩ = (some (avail.take need), ⟨avail.drop need, rest⟩)) ∨
    served need calls = none ∧ ∃ s', recvLoop fuel need ⟨avail, calls⟩ = (none, s') ∧
      s'.avail.length ≤ avail.length ∧ (s'.avail.length = avail.length → ∃ e rest, calls = .fail e :: rest) := by
  induction fuel generalizing need avail calls with
  | zero =>
    obtain rfl := Nat.le_zero.mp hfuel
    exact .inl ⟨calls, served_zero calls, rfl⟩
  | succ fuel ih =>
    cases need with
    | zero => exact .inl ⟨calls, served_zero calls, rfl⟩
    | succ need =>
      have hsome : avail ≠ [] := List.ne_nil_of_length_pos (by omega)
      cases calls with
      | nil =>
        have hrecv : recv ⟨avail, []⟩ (need + 1) = (some (avail.take (need + 1)), ⟨avail.drop (need + 1), []⟩) := by
          simp [recv, hsome]
        have hlen : (avail.take (need + 1)).length = need + 1 := by rw [List.length_take, Nat.min_eq_left hneed]
        refine .inl ⟨[], rfl, ?_⟩
        simp only [recvLoop, hrecv, hlen, Nat.sub_self, recvLoop_zero, List.append_nil]
      | cons c calls =>
        cases c with
        | fail e => exact .inr ⟨rfl, ⟨avail, calls⟩, rfl, le_rfl, fun _ => ⟨e, calls, rfl⟩⟩
        | upTo n =>
          have hrecv : recv ⟨avail, .upTo n :: calls⟩ (need + 1) =
              (some (avail.take (min (need + 1) (n + 1))), ⟨avail.drop (min (need + 1) (n + 1)), calls⟩) := by
            simp [recv, hsome]
          have hlen : (avail.take (min (need + 1) (n + 1))).length = min (need + 1) (n + 1) := by
            rw [List.length_take]
            omega
          have hleft : need + 1 - min (need + 1) (n + 1) = need - n := by omega
          have hdrop : (avail.drop (min (need + 1) (n + 1))).length = avail.length - min (need + 1) (n + 1) :=
            List.length_drop
          have hserved : served (need + 1) (.upTo n :: calls) = served (need - n) calls := rfl
          rcases ih calls (show need - n ≤ fuel by omega)
              (show need - n ≤ (avail.drop (min (need + 1) (n + 1))).length by omega) with
            ⟨rest, hrest, hloop⟩ | ⟨hnone, s', hloop, hle, -⟩
          · refine .inl ⟨rest, hserved.trans hrest, ?_⟩
            have hsum : min (need + 1) (n + 1) + (need - n) = need + 1 := by omega
            simp only [recvLoop, hrecv, hlen, hleft, hloop]
            rw [← List.take_add, List.drop_drop, hsum]
          · refine .inr ⟨hserved.trans hnone, s', ?_, by omega, fun heq => absurd heq (by omega)⟩
            simp only [recvLoop, hrecv, hlen, hleft, hloop]

/-- What a call does on the bytes of a packet: it fails at once, gives the packet, or loses some of the bytes. -/
inductive OnPacket (p : Packet) (rest : List UInt8) : List RecvCall → Prop
  | waits (e : ℕ) (calls : List RecvCall)
      (hcall : recvPacket ⟨p.serialise ++ rest, .fail e :: calls⟩ = (.noData, ⟨p.serialise ++ rest, calls⟩)) :
      OnPacket p rest (.fail e :: calls)
  | gives (calls left : List RecvCall) (hfirst : calls.dropWhile RecvCall.failed = calls)
      (hserved : servedFrame p calls = some left)
      (hcall : recvPacket ⟨p.serialise ++ rest, calls⟩ = (.packet p, ⟨rest, left⟩)) : OnPacket p rest calls
  | loses (calls : List RecvCall) (s' : ClientSocket) (hfirst : calls.dropWhile RecvCall.failed = calls)
      (hserved : servedFrame p calls = none)
      (hcall : recvPacket ⟨p.serialise ++ rest, calls⟩ = (.noData, s'))
      (hlost : s'.avail.length < (p.serialise ++ rest).length) : OnPacket p rest calls

theorem dropWhile_failed_of_first {calls : List RecvCall} (h : ∀ e rest, calls ≠ .fail e :: rest) :
    calls.dropWhile RecvCall.failed = calls := by
  cases calls with
  | nil => rfl
  | cons c calls =>
    cases c with
    | fail e => exact absurd rfl (h e calls)
    | upTo n => rfl

theorem onPacket {p : Packet} (h : p.Framed) (rest : List UInt8) (calls : List RecvCall) : OnPacket p rest calls := by
  have hlength : (p.serialise ++ rest).length = kHeaderLength + p.body.length + rest.length := by
    rw [List.length_append, Packet.serialise_length]
  by_cases hfail : ∃ e tail, calls = .fail e :: tail
  · obtain ⟨e, tail, rfl⟩ := hfail
    exact .waits e tail rfl
  · have hfirst : calls.dropWhile RecvCall.failed = calls :=
      dropWhile_failed_of_first fun e tail heq => hfail ⟨e, tail, heq⟩
    have htake : (p.serialise ++ rest).take kHeaderLength = p.header.toBytes := by
      rw [Packet.serialise, List.append_assoc, ← toBytes_length p.header, List.take_left]
    have hdrop : (p.serialise ++ rest).drop kHeaderLength = p.body ++ rest := by
      rw [Packet.serialise, List.append_assoc, ← toBytes_length p.header, List.drop_left]
    have hheader : ofBytes p.header.toBytes = p.header := by
      have := ofBytes_toBytes_append p.header []
      rwa [List.append_nil] at this
    have hbodyLen : p.header.length.toNat - kHeaderLength = p.body.length := by rw [h.length_eq, Nat.add_sub_cancel_left]
    have hmax := h.length_le
    have hok : ¬ (p.header.length.toNat < kHeaderLength ∨ kMaxLength < p.header.length.toNat) := by
      rw [h.length_eq]
      omega
    rcases recvLoop_served calls le_rfl (show kHeaderLength ≤ (p.serialise ++ rest).length by omega) with
      ⟨mid, hmid, hloop⟩ | ⟨hnone, s', hloop, hle, hlt⟩
    · rw [htake, hdrop] at hloop
      have hcall := recvPacket_of_header hloop
      rw [hheader, if_neg hok] at hcall
      unfold recvBody at hcall
      rw [hbodyLen, recvAll] at hcall
      rcases recvLoop_served mid le_rfl (show p.body.length ≤ (p.body ++ rest).length by
          rw [List.length_append]; omega) with ⟨left, hleft, hloop2⟩ | ⟨hnone, s', hloop2, hle, -⟩
      · rw [hloop2, List.take_left, List.drop_left] at hcall
        refine .gives calls left hfirst ?_ hcall
        rw [servedFrame, hmid]
        exact hleft
      · rw [hloop2] at hcall
        refine .loses calls s' hfirst ?_ hcall ?_
        · rw [servedFrame, hmid]
          exact hnone
        · rw [List.length_append] at hle
          have : kHeaderLength = 12 := rfl
          omega
    · have hcall : recvPacket ⟨p.serialise ++ rest, calls⟩ = (.noData, s') := by
        simp only [recvPacket, recvAll, hloop]
      refine .loses calls s' hfirst ?_ hcall (lt_of_le_of_ne hle fun heq => hfail (hlt heq))
      rw [servedFrame, hnone]
      rfl

/-! ## All the calls -/

theorem uncut_fail (ps : List Packet) (e : ℕ) (calls : List RecvCall) :
    Uncut ps (.fail e :: calls) ↔ Uncut ps calls := by
  cases ps <;> rfl

theorem uncut_of_served {p : Packet} {calls left : List RecvCall} (ps : List Packet)
    (hfirst : calls.dropWhile RecvCall.failed = calls) (hserved : servedFrame p calls = some left) :
    Uncut (p :: ps) calls ↔ Uncut ps left := by
  rw [Uncut, hfirst, hserved]
  constructor
  · rintro ⟨rest, hrest, huncut⟩
    obtain rfl := Option.some.inj hrest
    exact huncut
  · intro huncut
    exact ⟨left, rfl, huncut⟩

theorem not_uncut_of_lost {p : Packet} {calls : List RecvCall} (ps : List Packet)
    (hfirst : calls.dropWhile RecvCall.failed = calls) (hserved : servedFrame p calls = none) :
    ¬ Uncut (p :: ps) calls := by
  rw [Uncut, hfirst, hserved]
  rintro ⟨rest, hrest, -⟩
  cases hrest

theorem wire_cons (p : Packet) (ps : List Packet) : wire (p :: ps) = p.serialise ++ wire ps := rfl

theorem attempts_waits {s s' : ClientSocket} (hcall : s.recvPacket = (.noData, s')) (m : ℕ) :
    attempts (m + 1) s = attempts m s' := by
  rw [attempts, hcall]

theorem attempts_gives {s s' : ClientSocket} {p : Packet} (hcall : s.recvPacket = (.packet p, s')) (m : ℕ) :
    attempts (m + 1) s = (p :: (attempts m s').1, (attempts m s').2) := by
  rw [attempts, hcall]

/-- Bytes that are lost are missing for good: the packets of later calls are made of those that are left. -/
theorem attempts_ne_of_lost {s : ClientSocket} {ps : List Packet} (hlost : s.avail.length < (wire ps).length) (m : ℕ) :
    (attempts m s).1 ≠ ps := by
  intro heq
  have hlength := attempts_length m s
  rw [heq] at hlength
  omega

theorem delivers_iff_uncut {ps : List Packet} (h : ∀ p ∈ ps, p.Framed) (calls : List RecvCall) :
    (∃ m, (attempts m ⟨wire ps, calls⟩).1 = ps) ↔ Uncut ps calls := by
  -- a call uses up a result or a packet, or else loses bytes
  induction hn : calls.length + ps.length using Nat.strong_induction_on generalizing calls ps with
  | _ n ih =>
    cases ps with
    | nil => exact ⟨fun _ => trivial, fun _ => ⟨0, rfl⟩⟩
    | cons p ps =>
      have hp := h p (List.mem_cons_self ..)
      have hps : ∀ p ∈ ps, p.Framed := fun q hq => h q (List.mem_cons_of_mem p hq)
      have hzero : ∀ calls, (attempts 0 ⟨wire (p :: ps), calls⟩).1 ≠ p :: ps := fun _ => nofun
      cases onPacket hp (wire ps) calls with
      | waits e tail hcall =>
        rw [← wire_cons] at hcall
        have hlt : tail.length + (p :: ps).length < n := by
          simp only [List.length_cons] at hn ⊢
          omega
        rw [uncut_fail, ← ih _ hlt h tail rfl]
        constructor
        · rintro ⟨m, hm⟩
          cases m with
          | zero => exact absurd hm (hzero _)
          | succ m => exact ⟨m, by rwa [attempts_waits hcall] at hm⟩
        · rintro ⟨m, hm⟩
          exact ⟨m + 1, by rwa [attempts_waits hcall]⟩
      | gives _ left hfirst hserved hcall =>
        rw [← wire_cons] at hcall
        have hleft := servedFrame_length hserved
        rw [uncut_of_served ps hfirst hserved, ← ih _ (by rw [← hn, List.length_cons]; omega) hps left rfl]
        constructor
        · rintro ⟨m, hm⟩
          cases m with
          | zero => exact absurd hm (hzero _)
          | succ m =>
            rw [attempts_gives hcall] at hm
            exact ⟨m, (List.cons.inj hm).2⟩
        · rintro ⟨m, hm⟩
          exact ⟨m + 1, by rw [attempts_gives hcall, hm]⟩
      | loses _ s' hfirst hserved hcall hlost =>
        rw [← wire_cons] at hcall hlost
        refine iff_of_false ?_ (not_uncut_of_lost ps hfirst hserved)
        rintro ⟨m, hm⟩
        cases m with
        | zero => exact absurd hm (hzero _)
        | succ m =>
          rw [attempts_waits hcall] at hm
          exact attempts_ne_of_lost hlost m hm

theorem continues_of_uncut {ps : List Packet} (h : ∀ p ∈ ps, p.Framed) {calls : List RecvCall} (huncut : Uncut ps calls)
    (k : ℕ) : (attempts k ⟨wire ps, calls⟩).2.recvPacket.1 = .noData →
      (attempts k ⟨wire ps, calls⟩).2.recvPacket.2.avail = (attempts k ⟨wire ps, calls⟩).2.avail := by
  induction k generalizing ps calls with
  | zero =>
    intro hnone
    cases ps with
    | nil =>
      have hle := (recvPacket_taken ⟨[], calls⟩).1
      exact List.eq_nil_of_length_eq_zero (Nat.le_zero.mp hle)
    | cons p ps =>
      show (recvPacket ⟨wire (p :: ps), calls⟩).2.avail = wire (p :: ps)
      replace hnone : (recvPacket ⟨wire (p :: ps), calls⟩).1 = .noData := hnone
      cases onPacket (h p (List.mem_cons_self ..)) (wire ps) calls with
      | waits e tail hcall =>
        rw [← wire_cons] at hcall
        rw [hcall]
      | gives _ left hfirst hserved hcall =>
        rw [← wire_cons] at hcall
        rw [hcall] at hnone
        cases hnone
      | loses _ s' hfirst hserved hcall hlost => exact absurd huncut (not_uncut_of_lost ps hfirst hserved)
  | succ k ih =>
    cases ps with
    | nil =>
      intro _
      have hle := attempts_length (k + 1) ⟨wire [], calls⟩
      have hempty : (attempts (k + 1) ⟨wire [], calls⟩).2.avail.length = 0 :=
        Nat.le_zero.mp ((Nat.le_add_left _ _).trans hle)
      have hnext := (recvPacket_taken (attempts (k + 1) ⟨wire [], calls⟩).2).1
      rw [hempty] at hnext
      rw [List.eq_nil_of_length_eq_zero hempty, List.eq_nil_of_length_eq_zero (Nat.le_zero.mp hnext)]
    | cons p ps =>
      have hps : ∀ p ∈ ps, p.Framed := fun q hq => h q (List.mem_cons_of_mem p hq)
      cases onPacket (h p (List.mem_cons_self ..)) (wire ps) calls with
      | waits e tail hcall =>
        rw [← wire_cons] at hcall
        rw [attempts_waits hcall]
        exact ih h ((uncut_fail _ e tail).mp huncut)
      | gives _ left hfirst hserved hcall =>
        rw [← wire_cons] at hcall
        rw [attempts_gives hcall]
        exact ih hps ((uncut_of_served ps hfirst hserved).mp huncut)
      | loses _ s' hfirst hserved hcall hlost => exact absurd huncut (not_uncut_of_lost ps hfirst hserved)

/-- **When `RecvPacket` can be called again.**  The packets of the stream come out of repeated calls, with nothing lost by
the calls in between that lack data, exactly when no `::recv` fails between the first and the last byte of a frame. -/
theorem retryable_iff_uncut (ps : List Packet) (s : ClientSocket) (h : ∀ p ∈ ps, p.Framed) (hs : s.avail = wire ps) :
    Retryable ps s ↔ Uncut ps s.calls := by
  obtain ⟨avail, calls⟩ := s
  obtain rfl : avail = wire ps := hs
  constructor
  · intro hretry
    exact (delivers_iff_uncut h calls).mp hretry.delivers
  · intro huncut
    exact ⟨(delivers_iff_uncut h calls).mpr huncut, continues_of_uncut h huncut⟩

theorem retryable_failed_between :
    Retryable [⟨⟨13, 1, 0, 7⟩, [9]⟩] ⟨wire [⟨⟨13, 1, 0, 7⟩, [9]⟩], [.fail 11, .upTo 3, .upTo 20, .upTo 0, .fail 11]⟩ := by
  have hframed : ∀ p ∈ [(⟨⟨13, 1, 0, 7⟩, [9]⟩ : Packet)], p.Framed := by
    rintro p (_ | ⟨_, ⟨⟩⟩)
    exact ⟨rfl, by decide⟩
  exact (retryable_iff_uncut _ _ hframed rfl).mpr ⟨[.fail 11], rfl, trivial⟩

/-- `EAGAIN` after five bytes of the header: they are gone, and the next call starts in the middle of the frame. -/
theorem not_retryable_failed_inside :
    ¬ Retryable [⟨⟨12, 1, 0, 7⟩, []⟩] ⟨wire [⟨⟨12, 1, 0, 7⟩, []⟩], [.upTo 4, .fail 11]⟩ := by
  have hframed : ∀ p ∈ [(⟨⟨12, 1, 0, 7⟩, []⟩ : Packet)], p.Framed := by
    rintro p (_ | ⟨_, ⟨⟩⟩)
    exact ⟨rfl, by decide⟩
  intro h
  obtain ⟨rest, hrest, -⟩ := (delivers_iff_uncut hframed _).mp h.delivers
  cases hrest

end Chater.ApiCli
