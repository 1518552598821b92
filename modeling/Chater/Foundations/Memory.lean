import Mathlib.Tactic

/-! # Flat memory as a list of cells

Slices, block stores, the element-by-element forward copy and resizing of a contiguous memory, over
an arbitrary cell type. A store or copy that would leave the memory is `none`, so a program whose
runs are `some` never writes out of bounds. The lemmas compute the slices of the memory after each
operation; nothing here names a program. -/
namespace Chater.Memory
set_option autoImplicit false

variable {α : Type}

def slice (mem : List α) (i n : ℕ) : List α := (mem.drop i).take n

/-- Store `data` from position `i` on; `none` when a cell outside the memory would be written. -/
def store (mem : List α) (i : ℕ) (data : List α) : Option (List α) :=
  if i + data.length ≤ mem.length then some (mem.take i ++ data ++ mem.drop (i + data.length))
  else none

/-- Copy `n` cells from `src` to `dst`, one at a time, lowest position first. -/
def copyForward : ℕ → List α → ℕ → ℕ → Option (List α)
  | 0, mem, _, _ => some mem
  | n + 1, mem, src, dst =>
    match mem[src]? with
    | none => none
    | some x => if dst < mem.length then copyForward n (mem.set dst x) (src + 1) (dst + 1) else none

def resize (fill : α) (mem : List α) (n : ℕ) : List α :=
  mem.take n ++ List.replicate (n - mem.length) fill

/-! ## Slices -/

theorem slice_length {mem : List α} {i n : ℕ} (h : i + n ≤ mem.length) : (slice mem i n).length = n := by
  simp only [slice, List.length_take, List.length_drop]
  omega

@[simp] theorem slice_zero (mem : List α) (i : ℕ) : slice mem i 0 = [] := by simp [slice]

theorem slice_drop (mem : List α) (i n k : ℕ) : (slice mem i n).drop k = slice mem (i + k) (n - k) := by
  simp only [slice, List.drop_take, List.drop_drop]

theorem slice_take (mem : List α) (i n k : ℕ) : (slice mem i n).take k = slice mem i (min k n) := by
  simp only [slice, List.take_take]

theorem slice_append_slice (mem : List α) (i m n : ℕ) :
    slice mem i m ++ slice mem (i + m) n = slice mem i (m + n) := by
  simp only [slice, ← List.drop_drop, List.take_add]

theorem slice_append_left (left right : List α) (i n : ℕ) (h : i + n ≤ left.length) :
    slice (left ++ right) i n = slice left i n := by
  unfold slice
  rw [List.drop_append_of_le_length (by omega), List.take_append_of_le_length]
  rw [List.length_drop]
  omega

theorem slice_append_right (left right : List α) (i n : ℕ) (h : left.length ≤ i) :
    slice (left ++ right) i n = slice right (i - left.length) n := by
  unfold slice
  rw [List.drop_append, List.drop_eq_nil_of_le h, List.nil_append]

theorem slice_middle (left data right : List α) :
    slice (left ++ data ++ right) left.length data.length = data := by
  rw [List.append_assoc, slice_append_right _ _ _ _ le_rfl, Nat.sub_self]
  simp [slice]

/-! ## Stores -/

theorem store_of_le {mem data : List α} {i : ℕ} (h : i + data.length ≤ mem.length) :
    store mem i data = some (mem.take i ++ data ++ mem.drop (i + data.length)) := if_pos h

structure Stored (mem : List α) (i : ℕ) (data mem' : List α) : Prop where
  length_eq : mem'.length = mem.length
  block : slice mem' i data.length = data
  before : ∀ j n, j + n ≤ i → slice mem' j n = slice mem j n
  after : ∀ j n, i + data.length ≤ j → slice mem' j n = slice mem j n

theorem store_stored {mem data : List α} {i : ℕ} (h : i + data.length ≤ mem.length) :
    ∃ mem', store mem i data = some mem' ∧ Stored mem i data mem' := by
  have htake : (mem.take i).length = i := by rw [List.length_take]; omega
  refine ⟨_, store_of_le h, ?_, ?_, ?_, ?_⟩
  · simp only [List.length_append, List.length_drop, htake]
    omega
  · have hm := slice_middle (mem.take i) data (mem.drop (i + data.length))
    rwa [htake] at hm
  · intro j n hj
    rw [List.append_assoc, slice_append_left _ _ _ _ (by omega)]
    unfold slice
    rw [List.drop_take, List.take_take, Nat.min_eq_left (by omega)]
  · intro j n hj
    have hl : (mem.take i ++ data).length = i + data.length := by rw [List.length_append, htake]
    rw [slice_append_right _ _ _ _ (by omega), hl]
    unfold slice
    rw [List.drop_drop]
    congr 2
    omega

theorem Stored.extend_front {mem data mem' : List α} {i k : ℕ} (h : Stored mem i data mem') :
    slice mem' i (data.length + k) = data ++ slice mem (i + data.length) k := by
  rw [← slice_append_slice, h.block, h.after _ _ le_rfl]

/-! ## Forward copies -/

/-- The forward copy to a lower position moves the block intact even where the ranges overlap: a cell
is overwritten only after it has been read. -/
theorem copyForward_eq (n : ℕ) (mem : List α) (src dst : ℕ) (hd : dst ≤ src) (hs : src + n ≤ mem.length) :
    copyForward n mem src dst = some (mem.take dst ++ slice mem src n ++ mem.drop (dst + n)) := by
  induction n generalizing mem src dst with
  | zero => simp [copyForward]
  | succ n ih =>
    have hsrc : src < mem.length := by omega
    have hdst : dst < mem.length := by omega
    simp only [copyForward, List.getElem?_eq_getElem hsrc, if_pos hdst]
    rw [ih (mem.set dst mem[src]) (src + 1) (dst + 1) (by omega) (by rw [List.length_set]; omega)]
    have htake : (mem.set dst mem[src]).take (dst + 1) = mem.take dst ++ [mem[src]] := by
      rw [List.set_eq_take_append_cons_drop, if_pos hdst, List.take_append]
      simp [Nat.min_eq_left hdst.le]
    have hslice : slice (mem.set dst mem[src]) (src + 1) n = slice mem (src + 1) n := by
      unfold slice
      rw [List.drop_set_of_lt (by omega)]
    have hdrop : (mem.set dst mem[src]).drop (dst + 1 + n) = mem.drop (dst + (n + 1)) := by
      rw [List.drop_set_of_lt (by omega)]
      congr 1
      omega
    have hcons : slice mem src (n + 1) = mem[src] :: slice mem (src + 1) n := by
      unfold slice
      rw [List.drop_eq_getElem_cons hsrc, List.take_succ_cons]
    rw [htake, hslice, hdrop, hcons]
    simp

theorem copyForward_slice {n : ℕ} {mem : List α} {src dst : ℕ} (hd : dst ≤ src) (hs : src + n ≤ mem.length) :
    ∃ mem', copyForward n mem src dst = some mem' ∧ mem'.length = mem.length ∧
      slice mem' dst n = slice mem src n := by
  refine ⟨_, copyForward_eq n mem src dst hd hs, ?_, ?_⟩
  · simp only [List.length_append, List.length_take, List.length_drop, slice_length hs]
    omega
  · have hm := slice_middle (mem.take dst) (slice mem src n) (mem.drop (dst + n))
    rw [slice_length hs, List.length_take, Nat.min_eq_left (by omega)] at hm
    exact hm

/-! ## Resizing -/

theorem resize_length (fill : α) (mem : List α) (n : ℕ) : (resize fill mem n).length = n := by
  simp only [resize, List.length_append, List.length_take, List.length_replicate]
  omega

theorem resize_slice (fill : α) (mem : List α) {n i k : ℕ} (hn : mem.length ≤ n) (hk : i + k ≤ mem.length) :
    slice (resize fill mem n) i k = slice mem i k := by
  unfold resize
  rw [List.take_of_length_le hn, slice_append_left _ _ _ _ hk]

end Chater.Memory
