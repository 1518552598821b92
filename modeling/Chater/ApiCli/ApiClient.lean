import Chater.Protocol.Codec

/-! # The client's decoder

`ApiClient::RecvAll` and `RecvPacket` (`HPGateway/src/api_cli/ApiClient.cpp`) on a connected client
(`sockfd_ >= 0`), without the printing of responses. The socket is the bytes it will still hand over and the
behaviour of the next `::recv` calls; once these are used up `::recv` gives all it is asked for. A `::recv`
that returns 0 or fails makes `RecvAll` return false, and what was received before it is lost.

`clientFrames` is the format `RecvPacket` accepts as a decoder of byte strings; `recvPackets_of_walk` says
that calling `RecvPacket` until it returns false is a walk of that decoder. -/
namespace Chater.ApiCli
open Protocol Framing PacketHeader
set_option autoImplicit false

/-- One `::recv`: it hands over at most `n + 1` bytes, or fails. -/
inductive RecvCall
  | upTo (n : ℕ)
  | fail (errno : ℕ)

structure ClientSocket where
  avail : List UInt8
  calls : List RecvCall

namespace ClientSocket

def recv (s : ClientSocket) (len : ℕ) : Option (List UInt8) × ClientSocket :=
  match s.calls with
  | .fail _ :: cs => (none, ⟨s.avail, cs⟩)
  | .upTo n :: cs =>
    if s.avail = [] then (none, ⟨s.avail, cs⟩)
    else (some (s.avail.take (min len (n + 1))), ⟨s.avail.drop (min len (n + 1)), cs⟩)
  | [] => if s.avail = [] then (none, s) else (some (s.avail.take len), ⟨s.avail.drop len, []⟩)

/-- The loop of `RecvAll` with `need` bytes to go. Each `::recv` that succeeds hands over a byte at least, so
a bound of `need` passes is never used up. -/
def recvLoop : ℕ → ℕ → ClientSocket → Option (List UInt8) × ClientSocket
  | _, 0, s => (some [], s)
  | 0, _ + 1, s => (none, s)
  | fuel + 1, need + 1, s =>
    match s.recv (need + 1) with
    | (none, s') => (none, s')
    | (some bytes, s') =>
      match recvLoop fuel (need + 1 - bytes.length) s' with
      | (some more, s'') => (some (bytes ++ more), s'')
      | (none, s'') => (none, s'')

def recvAll (s : ClientSocket) (len : ℕ) : Option (List UInt8) × ClientSocket := recvLoop len len s

inductive Outcome
  | noData
  | invalidLength (len : ℕ)
  | packet (p : Packet)

def recvPacket (s : ClientSocket) : Outcome × ClientSocket :=
  match s.recvAll kHeaderLength with
  | (none, s1) => (.noData, s1)
  | (some bytes, s1) =>
    let header := ofBytes bytes
    if header.length.toNat < kHeaderLength ∨ kMaxLength < header.length.toNat then
      (.invalidLength header.length.toNat, s1)
    else
      let bodyLen := header.length.toNat - kHeaderLength
      if 0 < bodyLen then
        match s1.recvAll bodyLen with
        | (none, s2) => (.noData, s2)
        | (some body, s2) => (.packet ⟨header, body⟩, s2)
      else (.packet ⟨header, []⟩, s1)

structure Run where
  accepted : List Packet
  last : Outcome
  sock : ClientSocket

def recvPackets : ℕ → ClientSocket → Option Run
  | 0, _ => none
  | fuel + 1, s =>
    match s.recvPacket with
    | (.packet p, s') => (recvPackets fuel s').map fun r => { r with accepted := p :: r.accepted }
    | (o, s') => some ⟨[], o, s'⟩

/-! ## Reading from a socket that has all the bytes -/

def Steady (s : ClientSocket) : Prop := ∀ c ∈ s.calls, ∃ n, c = .upTo n

theorem recv_nil {s : ClientSocket} (hs : s.Steady) (ha : s.avail = []) (len : ℕ) :
    ∃ s', s.recv len = (none, s') ∧ s'.Steady ∧ s'.avail = [] := by
  obtain ⟨avail, calls⟩ := s
  replace ha : avail = [] := ha
  subst ha
  cases calls with
  | nil => exact ⟨_, rfl, hs, rfl⟩
  | cons c cs =>
    obtain ⟨n, rfl⟩ := hs c (List.mem_cons_self ..)
    exact ⟨⟨[], cs⟩, rfl, fun c' hc' => hs c' (List.mem_cons_of_mem _ hc'), rfl⟩

theorem recv_cons {s : ClientSocket} (hs : s.Steady) (ha : s.avail ≠ []) {len : ℕ} (hl : 0 < len) :
    ∃ k s', s.recv len = (some (s.avail.take k), s') ∧ 0 < k ∧ k ≤ len ∧ s'.Steady ∧ s'.avail = s.avail.drop k := by
  obtain ⟨avail, calls⟩ := s
  replace ha : avail ≠ [] := ha
  cases calls with
  | nil => exact ⟨len, ⟨avail.drop len, []⟩, by simp [recv, ha], hl, le_rfl, by simp [Steady], rfl⟩
  | cons c cs =>
    obtain ⟨n, rfl⟩ := hs c (List.mem_cons_self ..)
    exact ⟨min len (n + 1), ⟨avail.drop (min len (n + 1)), cs⟩, by simp [recv, ha], by omega, by omega,
      fun c' hc' => hs c' (List.mem_cons_of_mem _ hc'), rfl⟩

theorem recvLoop_spec {fuel need : ℕ} {s : ClientSocket} (hs : s.Steady) (hf : need ≤ fuel) :
    (need ≤ s.avail.length → ∃ s', recvLoop fuel need s = (some (s.avail.take need), s') ∧ s'.Steady ∧
      s'.avail = s.avail.drop need) ∧
    (s.avail.length < need → ∃ s', recvLoop fuel need s = (none, s') ∧ s'.Steady ∧ s'.avail = []) := by
  induction fuel generalizing need s with
  | zero =>
    obtain rfl : need = 0 := by omega
    exact ⟨fun _ => ⟨s, rfl, hs, rfl⟩, fun h => absurd h (Nat.not_lt_zero _)⟩
  | succ fuel ih =>
    cases need with
    | zero => exact ⟨fun _ => ⟨s, rfl, hs, rfl⟩, fun h => absurd h (Nat.not_lt_zero _)⟩
    | succ need =>
      by_cases ha : s.avail = []
      · obtain ⟨s', hr, hs', ha'⟩ := recv_nil hs ha (need + 1)
        refine ⟨fun h => ?_, fun _ => ⟨s', by simp [recvLoop, hr], hs', ha'⟩⟩
        rw [ha] at h
        exact absurd h (Nat.not_succ_le_zero _)
      · obtain ⟨k, s1, hr, hk0, hk, hs1, ha1⟩ := recv_cons hs ha (Nat.succ_pos need)
        have hpos : 0 < s.avail.length := List.length_pos_of_ne_nil ha
        have hlen : (s.avail.take k).length = min k s.avail.length := List.length_take
        obtain ⟨hok, hfail⟩ := @ih (need + 1 - (s.avail.take k).length) s1 hs1 (by omega)
        have hl1 : s1.avail.length = s.avail.length - k := by rw [ha1, List.length_drop]
        constructor
        · intro hle
          obtain ⟨s', hloop, hs', ha'⟩ := hok (by omega)
          have hk' : (s.avail.take k).length = k := by omega
          have hsum : k + (need + 1 - k) = need + 1 := by omega
          refine ⟨s', ?_, hs', ?_⟩
          · simp only [recvLoop, hr, hloop]
            rw [ha1, hk', ← List.take_add, hsum]
          · rw [ha', ha1, hk', List.drop_drop, hsum]
        · intro hlt
          obtain ⟨s', hloop, hs', ha'⟩ := hfail (by omega)
          exact ⟨s', by simp only [recvLoop, hr, hloop], hs', ha'⟩

theorem recvAll_of_le {s : ClientSocket} (hs : s.Steady) {len : ℕ} (h : len ≤ s.avail.length) :
    ∃ s', s.recvAll len = (some (s.avail.take len), s') ∧ s'.Steady ∧ s'.avail = s.avail.drop len :=
  (recvLoop_spec hs le_rfl).1 h

theorem recvAll_of_lt {s : ClientSocket} (hs : s.Steady) {len : ℕ} (h : s.avail.length < len) :
    ∃ s', s.recvAll len = (none, s') ∧ s'.Steady :=
  let ⟨s', h1, h2, _⟩ := (recvLoop_spec hs le_rfl).2 h
  ⟨s', h1, h2⟩

/-! ## The accepted format -/

def clientVerdict (q : List UInt8) : Verdict Packet :=
  if q.length < kHeaderLength then .more
  else if lengthField q < kHeaderLength ∨ kMaxLength < lengthField q then .reject
  else if lengthField q ≤ q.length then
    .item ⟨ofBytes q, (q.take (lengthField q)).drop kHeaderLength⟩ (lengthField q)
  else .more

def Reads (s : ClientSocket) (q : List UInt8) : Verdict Packet → Prop
  | .more => ∃ s', s.recvPacket = (.noData, s') ∧ s'.Steady
  | .reject => ∃ s', s.recvPacket = (.invalidLength (lengthField q), s') ∧ s'.Steady ∧ s'.avail = q.drop kHeaderLength
  | .item p n => ∃ s', s.recvPacket = (.packet p, s') ∧ s'.Steady ∧ s'.avail = q.drop n

theorem recvPacket_spec {s : ClientSocket} (hs : s.Steady) : Reads s s.avail (clientVerdict s.avail) := by
  unfold clientVerdict
  by_cases h12 : s.avail.length < kHeaderLength
  · rw [if_pos h12]
    obtain ⟨s', hr, hs'⟩ := recvAll_of_lt hs h12
    exact ⟨s', by simp [recvPacket, hr], hs'⟩
  · rw [if_neg h12]
    obtain ⟨s1, hr1, hs1, ha1⟩ := recvAll_of_le hs (Nat.le_of_not_lt h12)
    have hhead : ofBytes (s.avail.take kHeaderLength) = ofBytes s.avail := ofBytes_take _ le_rfl
    by_cases hbad : lengthField s.avail < kHeaderLength ∨ kMaxLength < lengthField s.avail
    · rw [if_pos hbad]
      refine ⟨s1, ?_, hs1, ha1⟩
      simp only [recvPacket, hr1, hhead, ofBytes_length_toNat]
      rw [if_pos hbad]
    · rw [if_neg hbad]
      have hlen1 : s1.avail.length = s.avail.length - kHeaderLength := by rw [ha1, List.length_drop]
      by_cases hle : lengthField s.avail ≤ s.avail.length
      · rw [if_pos hle]
        by_cases hbody : 0 < lengthField s.avail - kHeaderLength
        · have hroom : lengthField s.avail - kHeaderLength ≤ s1.avail.length := by omega
          obtain ⟨s2, hr2, hs2, ha2⟩ := recvAll_of_le hs1 hroom
          refine ⟨s2, ?_, hs2, ?_⟩
          · simp only [recvPacket, hr1, hhead, ofBytes_length_toNat]
            rw [if_neg hbad, if_pos hbody, hr2]
            simp only [ha1, List.drop_take]
          · rw [ha2, ha1, List.drop_drop]
            congr 1
            omega
        · have heq : lengthField s.avail = kHeaderLength := by omega
          refine ⟨s1, ?_, hs1, by rw [ha1, heq]⟩
          simp only [recvPacket, hr1, hhead, ofBytes_length_toNat]
          rw [if_neg hbad, if_neg hbody, heq, List.drop_take, Nat.sub_self, List.take_zero]
      · rw [if_neg hle]
        have hlack : s1.avail.length < lengthField s.avail - kHeaderLength := by omega
        obtain ⟨s2, hr2, hs2⟩ := recvAll_of_lt hs1 hlack
        refine ⟨s2, ?_, hs2⟩
        simp only [recvPacket, hr1, hhead, ofBytes_length_toNat]
        rw [if_neg hbad, if_pos (by omega), hr2]

/-! ## Repeated calls are a walk -/

/-- `RecvPacket` checks the length field from below too; apart from that check the formats coincide. -/
theorem clientVerdict_eq {q : List UInt8} (h : q.length < kHeaderLength ∨ kHeaderLength ≤ lengthField q) :
    clientVerdict q = Codec.frameVerdict q := by
  unfold clientVerdict Codec.frameVerdict
  by_cases h12 : q.length < kHeaderLength
  · rw [if_pos h12, if_pos h12]
  · have hlo : ¬ lengthField q < kHeaderLength := by omega
    simp only [hlo, false_or]

theorem clientVerdict_short {q : List UInt8} (h12 : kHeaderLength ≤ q.length) (h : lengthField q < kHeaderLength) :
    clientVerdict q = .reject := by
  rw [clientVerdict, if_neg (by omega), if_pos (.inl h)]

theorem clientVerdict_cases (q : List UInt8) :
    (kHeaderLength ≤ q.length ∧ lengthField q < kHeaderLength ∧ clientVerdict q = .reject) ∨
      (q.length < kHeaderLength ∨ kHeaderLength ≤ lengthField q) ∧ clientVerdict q = Codec.frameVerdict q := by
  by_cases h : q.length < kHeaderLength ∨ kHeaderLength ≤ lengthField q
  · exact .inr ⟨h, clientVerdict_eq h⟩
  · push Not at h
    exact .inl ⟨h.1, h.2, clientVerdict_short h.1 h.2⟩

theorem clientVerdict_item_le (xs : List UInt8) (p : Packet) (n : ℕ) (h : clientVerdict xs = .item p n) :
    n ≤ xs.length := by
  rcases clientVerdict_cases xs with ⟨-, -, hrej⟩ | ⟨-, heq⟩
  · rw [hrej] at h
    cases h
  · rw [heq] at h
    exact Codec.frames.item_le xs p n h

theorem clientVerdict_item_append (xs ys : List UInt8) (p : Packet) (n : ℕ) (h : clientVerdict xs = .item p n) :
    clientVerdict (xs ++ ys) = .item p n := by
  rcases clientVerdict_cases xs with ⟨-, -, hrej⟩ | ⟨hlen, heq⟩
  · rw [hrej] at h
    cases h
  · rw [heq] at h
    obtain ⟨h12, -⟩ := Codec.frameVerdict_item_iff.mp h
    rw [clientVerdict_eq (.inr (by rw [Codec.lengthField_append_header h12]; omega))]
    exact Codec.frames.item_append xs ys p n h

theorem clientVerdict_reject_append (xs ys : List UInt8) (h : clientVerdict xs = .reject) :
    clientVerdict (xs ++ ys) = .reject := by
  rcases clientVerdict_cases xs with ⟨h12, hshort, -⟩ | ⟨hlen, heq⟩
  · apply clientVerdict_short
    · rw [List.length_append]
      omega
    · rwa [Codec.lengthField_append_header h12]
  · rw [heq] at h
    obtain ⟨h12, -⟩ := Codec.frameVerdict_reject_iff.mp h
    rw [clientVerdict_eq (.inr (by rw [Codec.lengthField_append_header h12]; omega))]
    exact Codec.frames.reject_append xs ys h

def clientFrames : Decoder UInt8 Packet where
  verdict := clientVerdict
  item_le := clientVerdict_item_le
  item_append := clientVerdict_item_append
  reject_append := clientVerdict_reject_append

theorem clientFrames_verdict (q : List UInt8) : clientFrames.verdict q = clientVerdict q := rfl

theorem clientVerdict_reject_length {q : List UInt8} (h : clientVerdict q = .reject) : kHeaderLength ≤ q.length := by
  rcases clientVerdict_cases q with ⟨h12, -⟩ | ⟨-, heq⟩
  · exact h12
  · exact (Codec.frameVerdict_reject_iff.mp (heq ▸ h)).1

structure Run.EndsOn (r : Run) (rest : List UInt8) : Prop where
  more : clientVerdict rest = .more → r.last = .noData
  reject : clientVerdict rest = .reject →
    r.last = .invalidLength (lengthField rest) ∧ r.sock.avail.length + kHeaderLength = rest.length

theorem recvPackets_of_walk {fuel : ℕ} {s : ClientSocket} {items : List Packet} {rest : List UInt8} (hs : s.Steady)
    (hw : Walk clientFrames s.avail items rest) (hst : Stuck clientFrames rest) (hf : items.length < fuel) :
    ∃ r, recvPackets fuel s = some r ∧ r.accepted = items ∧ r.EndsOn rest := by
  induction items generalizing s fuel with
  | nil =>
    obtain ⟨fuel, rfl⟩ : ∃ k, fuel = k + 1 := ⟨fuel - 1, by omega⟩
    cases hw
    have hspec := recvPacket_spec hs
    rcases stuck_iff.mp hst with hv | hv
    · rw [clientFrames_verdict] at hv
      rw [hv] at hspec
      obtain ⟨s', hr, -⟩ := hspec
      refine ⟨⟨[], .noData, s'⟩, by simp [recvPackets, hr], rfl, ⟨fun _ => rfl, ?_⟩⟩
      intro h
      rw [hv] at h
      cases h
    · rw [clientFrames_verdict] at hv
      have h12 := clientVerdict_reject_length hv
      rw [hv] at hspec
      obtain ⟨s', hr, -, ha⟩ := hspec
      refine ⟨⟨[], .invalidLength (lengthField s.avail), s'⟩, by simp [recvPackets, hr], rfl, ⟨?_, ?_⟩⟩
      · intro h
        rw [hv] at h
        cases h
      · intro _
        refine ⟨rfl, ?_⟩
        rw [ha, List.length_drop]
        omega
  | cons p items ih =>
    obtain ⟨fuel, rfl⟩ : ∃ k, fuel = k + 1 := ⟨fuel - 1, by omega⟩
    cases hw with
    | @cons _ _ _ n _ hv w =>
      have hspec := recvPacket_spec hs
      rw [clientFrames_verdict] at hv
      rw [hv] at hspec
      obtain ⟨s', hr, hs', ha⟩ := hspec
      rw [← ha] at w
      rw [List.length_cons] at hf
      obtain ⟨r, hrun, hacc, hend⟩ := ih hs' w (by omega : items.length < fuel)
      exact ⟨{ r with accepted := p :: r.accepted }, by simp [recvPackets, hr, hrun], by rw [hacc],
        ⟨hend.more, hend.reject⟩⟩

end ClientSocket
end Chater.ApiCli
