import Chater.Protocol.Codec

/-! # When the decode loop ends

`OnMessage` checks the length field from above only. `FrameStart q k` describes, on the received bytes
alone, the offsets at which the loop comes to look at a header: skip from header to header by the length
fields. The loop ends, with every delivering pass consuming something, exactly if no complete header it
comes to has length field 0: `Retrieve(0)` consumes nothing, and the same header is read again. -/
namespace Chater.Protocol
open Base Framing PacketHeader
set_option autoImplicit false

/-- Offsets of `q` that its own length fields lead to, through complete frames of at most 64 KiB. -/
inductive FrameStart (q : List UInt8) : ℕ → Prop
  | zero : FrameStart q 0
  | next {k : ℕ} (h : FrameStart q k) (hheader : k + kHeaderLength ≤ q.length)
      (hmax : lengthField (q.drop k) ≤ kMaxLength) (hbody : k + lengthField (q.drop k) ≤ q.length) :
      FrameStart q (k + lengthField (q.drop k))

theorem FrameStart.le {q : List UInt8} {k : ℕ} (h : FrameStart q k) : k ≤ q.length := by
  cases h with
  | zero => exact Nat.zero_le _
  | next _ _ _ hbody => exact hbody

theorem FrameStart.walk {q : List UInt8} {k : ℕ} (h : FrameStart q k) :
    ∃ items, Walk Codec.frames q items (q.drop k) := by
  induction h with
  | zero => exact ⟨[], .nil q⟩
  | @next k _ hheader hmax hbody ih =>
    obtain ⟨items, hw⟩ := ih
    have hv : Codec.frames.verdict (q.drop k) =
        .item ⟨ofBytes (q.drop k), ((q.drop k).take (lengthField (q.drop k))).drop kHeaderLength⟩
          (lengthField (q.drop k)) := by
      refine Codec.frameVerdict_item_iff.mpr ⟨?_, hmax, ?_, rfl, rfl⟩
      · rw [List.length_drop]
        omega
      · rw [List.length_drop]
        omega
    have hstep := hw.trans (Walk.single hv)
    rw [List.drop_drop] at hstep
    exact ⟨_, hstep⟩

theorem FrameStart.of_walk {q xs rest : List UInt8} {items : List Packet} (hw : Walk Codec.frames xs items rest)
    {j : ℕ} (hj : FrameStart q j) (he : xs = q.drop j) : ∃ k, FrameStart q k ∧ rest = q.drop k := by
  induction hw generalizing j with
  | nil xs => exact ⟨j, hj, he⟩
  | cons hv _ ih =>
    subst he
    obtain ⟨hheader, hmax, hle, -, rfl⟩ := Codec.frameVerdict_item_iff.mp hv
    have hjle := hj.le
    rw [List.length_drop] at hheader hle
    exact ih (hj.next (by omega) hmax (by omega)) (by rw [List.drop_drop])

theorem frameStart_of_walk {q rest : List UInt8} {items : List Packet} (hw : Walk Codec.frames q items rest) :
    ∃ k, FrameStart q k ∧ rest = q.drop k :=
  FrameStart.of_walk hw .zero rfl

namespace Codec

inductive Passes (buf : RingBuffer) : RingBuffer → Prop
  | start : Passes buf buf
  | next {c c' : RingBuffer} {p : Packet} (h : Passes buf c) (hd : iteration c = some (.deliver p c')) : Passes buf c'

/-- Each delivering pass strictly reduces the readable bytes, and the loop ends. -/
structure LoopEnds (buf : RingBuffer) : Prop where
  shrinks : ∀ c p c', Passes buf c → iteration c = some (.deliver p c') → c'.readableBytes < c.readableBytes
  ends : ∃ fuel r, onMessageLoop fuel buf = some r

theorem deliver_verdict {c c' : RingBuffer} {q : List UInt8} {p : Packet} (h : c.Holds q)
    (hd : iteration c = some (.deliver p c')) : ∃ n, frameVerdict q = .item p n ∧ c'.Holds (q.drop n) := by
  have hspec := iteration_spec h
  cases hv : frameVerdict q with
  | more =>
    rw [hv] at hspec
    have := hspec.symm.trans hd
    simp at this
  | reject =>
    rw [hv] at hspec
    have := hspec.symm.trans hd
    simp at this
  | item p' n =>
    rw [hv] at hspec
    obtain ⟨c1, h1, hq1⟩ := hspec
    have he := h1.symm.trans hd
    simp only [Option.some.injEq, Iteration.deliver.injEq] at he
    obtain ⟨rfl, rfl⟩ := he
    exact ⟨n, rfl, hq1⟩

theorem Passes.walk {buf c : RingBuffer} {q : List UInt8} (h : buf.Holds q) (hp : Passes buf c) :
    ∃ items rest, Walk frames q items rest ∧ c.Holds rest := by
  induction hp with
  | start => exact ⟨[], q, .nil q, h⟩
  | next _ hd ih =>
    obtain ⟨items, rest, hw, hc⟩ := ih
    obtain ⟨n, hv, hc'⟩ := deliver_verdict hc hd
    exact ⟨_, _, hw.trans (Walk.single hv), hc'⟩

theorem empty_item {q : List UInt8} (hheader : kHeaderLength ≤ q.length) (hzero : lengthField q = 0) :
    ∃ p, frames.verdict q = .item p 0 :=
  ⟨_, frameVerdict_item_iff.mpr ⟨hheader, by omega, by omega, rfl, hzero.symm⟩⟩

/-- **Termination.** The decode loop ends, each delivering pass consuming bytes, exactly if every complete
header at a frame start of the received bytes has a non-zero length field. -/
theorem loopEnds_iff (buf : RingBuffer) (h : buf.Wf) :
    LoopEnds buf ↔ ∀ k, FrameStart buf.content k → k + kHeaderLength ≤ buf.content.length →
      lengthField (buf.content.drop k) ≠ 0 := by
  constructor
  · intro hends k hk hheader hzero
    obtain ⟨fuel, r, hr⟩ := hends.ends
    obtain ⟨rest, hw, hs, -⟩ := walk_of_onMessageLoop h.holds hr
    obtain ⟨items, hwk⟩ := hk.walk
    obtain ⟨p, hv⟩ := empty_item (by rw [List.length_drop]; omega) hzero
    exact hw.no_empty hs hwk hv
  · intro hnz
    have hpos : ∀ a r, Walk frames buf.content a r → ∀ p n, frames.verdict r = .item p n → 0 < n := by
      intro a r hw p n hv
      obtain ⟨k, hk, rfl⟩ := frameStart_of_walk hw
      obtain ⟨hheader, -, -, -, rfl⟩ := frameVerdict_item_iff.mp hv
      have hkle := hk.le
      rw [List.length_drop] at hheader
      exact Nat.pos_of_ne_zero (hnz k hk (by omega))
    refine ⟨?_, ?_⟩
    · intro c p c' hc hd
      obtain ⟨items, rest, hw, hcq⟩ := hc.walk h.holds
      obtain ⟨n, hv, hcq'⟩ := deliver_verdict hcq hd
      have hn := hpos items rest hw p n hv
      have hle := frames.item_le rest p n hv
      rw [hcq.readableBytes_eq, hcq'.readableBytes_eq, List.length_drop]
      omega
    · obtain ⟨items, rest, hw, hs⟩ := exists_stuck buf.content hpos
      obtain ⟨buf', hloop, -⟩ := onMessageLoop_of_walk h.holds hw hs (Nat.lt_succ_self items.length)
      exact ⟨_, _, hloop⟩

/-- Two complete frames behind four bytes that have been read, and the beginning of a third. -/
def twoFrames : RingBuffer :=
  ⟨[9, 9, 9, 9] ++ (encode 1 1 [65]).serialise ++ (encode 2 2 []).serialise ++ [0, 0, 0], 4, 32⟩

theorem frameStart_twoFrames {k : ℕ} (h : FrameStart twoFrames.content k) : k = 0 ∨ k = 13 ∨ k = 25 := by
  induction h with
  | zero => exact .inl rfl
  | next _ hheader _ _ ih =>
    obtain rfl | rfl | rfl := ih
    · exact .inr (.inl (by decide))
    · exact .inr (.inr (by decide))
    · exact absurd hheader (by decide)

theorem loopEnds_iff_twoFrames : twoFrames.Wf ∧ twoFrames.readableBytes = 28 ∧ LoopEnds twoFrames := by
  have hwf : twoFrames.Wf := ⟨by decide, by decide⟩
  refine ⟨hwf, by decide, (loopEnds_iff twoFrames hwf).mpr fun k hk hheader => ?_⟩
  obtain rfl | rfl | rfl := frameStart_twoFrames hk
  · decide
  · decide
  · exact absurd hheader (by decide)

def zeroFrame : RingBuffer := ⟨List.replicate 12 0, 0, 12⟩

/-- Twelve zero bytes from a peer: the loop delivers the same packet forever. -/
theorem zeroFrame_not_loopEnds : zeroFrame.Wf ∧ (∀ fuel, onMessageLoop fuel zeroFrame = none) ∧ ¬ LoopEnds zeroFrame := by
  have hpass : iteration zeroFrame = some (.deliver ⟨⟨0, 0, 0, 0⟩, []⟩ zeroFrame) := by decide
  have hnone : ∀ fuel, onMessageLoop fuel zeroFrame = none := by
    intro fuel
    induction fuel with
    | zero => rfl
    | succ fuel ih => simp [onMessageLoop, hpass, ih]
  refine ⟨⟨by decide, by decide⟩, hnone, ?_⟩
  rintro ⟨-, fuel, r, hr⟩
  rw [hnone fuel] at hr
  cases hr

end Codec
end Chater.Protocol
