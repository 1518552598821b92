import Mathlib.Data.List.TakeWhile
import Mathlib.Tactic

/-!
# Retransmitted items and a receiver that remembers one key

A sender sends each of its items several times in a row, and any of the copies may be lost.  The receiver remembers the
key of the item that came last and passes on what has another key.  Where the items of the sender have different keys,
each item of which a copy arrives is passed on exactly once and in order, except that the first is held back when the
key remembered from before happens to be its own.
-/

namespace Chater.Retransmission

open scoped List

set_option autoImplicit false

universe u v

variable {A : Type u} {K : Type v}

def copies (k : ℕ) (items : List A) : List A := items.flatMap (List.replicate k)

theorem mem_copies {k : ℕ} {items : List A} {a : A} (h : a ∈ copies k items) : a ∈ items := by
  obtain ⟨b, hb, hrep⟩ := List.mem_flatMap.mp h
  rwa [List.eq_of_mem_replicate hrep]

variable [DecidableEq K] (key : A → K)

/-- What the receiver passes on when it remembers `last`. -/
def passed : K → List A → List A
  | _, [] => []
  | last, a :: rest => if key a = last then passed last rest else a :: passed (key a) rest

/-- What the receiver remembers afterwards: an item leaves its key behind whether it is passed on or not. -/
def lastKey : K → List A → K
  | last, [] => last
  | _, a :: rest => lastKey (key a) rest

variable {key} {last : K} {k : ℕ} {items arrived : List A} {a : A}

theorem passed_cons_self (rest : List A) : passed key (key a) (a :: rest) = passed key (key a) rest := if_pos rfl

theorem passed_cons_ne (h : key a ≠ last) (rest : List A) :
    passed key last (a :: rest) = a :: passed key (key a) rest := if_neg h

theorem passed_subset (last : K) (arrived : List A) : passed key last arrived ⊆ arrived := by
  induction arrived generalizing last with
  | nil => exact List.Subset.refl _
  | cons a rest ih =>
    rw [passed]
    split_ifs
    · exact List.subset_cons_of_subset a (ih last)
    · exact List.cons_subset_cons a (ih (key a))

theorem passed_replicate_append (n : ℕ) (rest : List A) :
    passed key (key a) (List.replicate n a ++ rest) = passed key (key a) rest := by
  induction n with
  | zero => rfl
  | succ n ih => rw [List.replicate_succ, List.cons_append, passed_cons_self, ih]

theorem dropWhile_eq_self_iff_head? {p : A → Bool} (l : List A) :
    l.dropWhile p = l ↔ ∀ b, l.head? = some b → p b = false := by
  cases l with
  | nil => simp
  | cons b l =>
    rw [List.dropWhile_eq_self_iff]
    simp

/-! ## One sender -/

variable [DecidableEq A]

/-- The items of which a copy arrived. -/
def reached (items arrived : List A) : List A := items.filter fun a => a ∈ arrived

/-- Either no copy of the first item arrives, or some copies of it do, in front of everything else. -/
theorem reached_cons {rest : List A} (hfresh : a ∉ rest) (h : arrived <+ copies k (a :: rest)) :
    arrived <+ copies k rest ∧ reached (a :: rest) arrived = reached rest arrived ∨
      ∃ n behind, arrived = a :: (List.replicate n a ++ behind) ∧ behind <+ copies k rest ∧
        reached (a :: rest) arrived = a :: reached rest behind := by
  rw [copies, List.flatMap_cons] at h
  obtain ⟨front, behind, rfl, hfront, hbehind⟩ := List.sublist_append_iff.mp h
  obtain ⟨n, -, rfl⟩ := List.sublist_replicate_iff.mp hfront
  have hnot : a ∉ behind := fun hmem => hfresh (mem_copies (hbehind.subset hmem))
  cases n with
  | zero =>
    refine .inl ⟨hbehind, ?_⟩
    simp only [reached, List.replicate_zero, List.nil_append]
    rw [List.filter_cons_of_neg (by simpa using hnot)]
  | succ n =>
    refine .inr ⟨n, behind, rfl, hbehind, ?_⟩
    rw [reached, List.filter_cons_of_pos (by simp)]
    refine congrArg (a :: ·) (List.filter_congr fun b hb => ?_)
    have hne : b ≠ a := fun hba => hfresh (hba ▸ hb)
    simp [List.mem_replicate, hne]

theorem passed_eq (hkeys : (items.map key).Nodup) (h : arrived <+ copies k items) (last : K) :
    passed key last arrived = (reached items arrived).dropWhile fun a => key a = last := by
  induction items generalizing arrived last with
  | nil =>
    obtain rfl := List.sublist_nil.mp h
    rfl
  | cons a rest ih =>
    rw [List.map_cons, List.nodup_cons] at hkeys
    have hfresh : a ∉ rest := fun hmem => hkeys.1 (List.mem_map_of_mem hmem)
    obtain ⟨hrest, heq⟩ | ⟨n, behind, rfl, hbehind, heq⟩ := reached_cons hfresh h
    · rw [heq, ih hkeys.2 hrest]
    · -- behind the copies of `a` its key is remembered, which no other item has
      have hall : (reached rest behind).dropWhile (fun b => key b = key a) = reached rest behind := by
        refine (dropWhile_eq_self_iff_head? _).mpr fun b hb => ?_
        have hmem : b ∈ rest := List.mem_of_mem_filter (List.mem_of_mem_head? hb)
        have hne : key b ≠ key a := fun hkey => hkeys.1 (hkey ▸ List.mem_map_of_mem hmem)
        exact decide_eq_false hne
      have hpassed : passed key (key a) (List.replicate n a ++ behind) = reached rest behind := by
        rw [passed_replicate_append, ih hkeys.2 hbehind, hall]
      rw [heq]
      by_cases hlast : key a = last
      · subst hlast
        rw [passed_cons_self, hpassed, List.dropWhile_cons_of_pos (by simp), hall]
      · rw [passed_cons_ne hlast, hpassed, List.dropWhile_cons_of_neg (by simpa using hlast)]

theorem reached_head? (hnodup : items.Nodup) (h : arrived <+ copies k items) :
    (reached items arrived).head? = arrived.head? := by
  induction items generalizing arrived with
  | nil =>
    obtain rfl := List.sublist_nil.mp h
    rfl
  | cons a rest ih =>
    rw [List.nodup_cons] at hnodup
    obtain ⟨hrest, heq⟩ | ⟨n, behind, rfl, -, heq⟩ := reached_cons hnodup.1 h
    · rw [heq, ih hnodup.2 hrest]
    · rw [heq]
      rfl

/-- All that arrives is passed on unless the first item bears the key remembered from before. -/
theorem passed_eq_reached_iff (hkeys : (items.map key).Nodup) (h : arrived <+ copies k items) (last : K) :
    passed key last arrived = reached items arrived ↔ arrived.head?.map key ≠ some last := by
  rw [passed_eq hkeys h, dropWhile_eq_self_iff_head?, reached_head? hkeys.of_map h]
  cases arrived.head? with
  | none => simp
  | some b => simp

/-! ## One sender after another -/

variable (key)

/-- What the receiver passes on of the items of each sender. -/
def passedEach : K → List (List A) → List (List A)
  | _, [] => []
  | last, arrived :: later => passed key last arrived :: passedEach (lastKey key last arrived) later

/-- What arrives first from each sender has another key than what came last before. -/
def Apart : K → List (List A) → Prop
  | _, [] => True
  | last, arrived :: later => arrived.head?.map key ≠ some last ∧ Apart (lastKey key last arrived) later

variable {key}

omit [DecidableEq A] in
theorem passedEach_subset (last : K) (arrived : List (List A)) :
    List.Forall₂ (fun passed arrived => passed ⊆ arrived) (passedEach key last arrived) arrived := by
  induction arrived generalizing last with
  | nil => exact .nil
  | cons first later ih => exact .cons (passed_subset last first) (ih _)

theorem passedEach_eq_iff {senders : List (List A × List A)}
    (h : ∀ s ∈ senders, (s.1.map key).Nodup ∧ s.2 <+ copies k s.1) (last : K) :
    passedEach key last (senders.map Prod.snd) = senders.map (fun s => reached s.1 s.2) ↔
      Apart key last (senders.map Prod.snd) := by
  induction senders generalizing last with
  | nil => simp [passedEach, Apart]
  | cons s senders ih =>
    obtain ⟨hkeys, hsub⟩ := h s List.mem_cons_self
    simp only [List.map_cons, passedEach, Apart, List.cons.injEq]
    rw [passed_eq_reached_iff hkeys hsub, ih fun s hs => h s (List.mem_cons_of_mem _ hs)]

end Chater.Retransmission
