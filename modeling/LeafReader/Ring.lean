import LeafReader.Fifo
import Mathlib.Tactic.SplitIfs

/-!
# Ring buffers with one slot left free

An array of `n` slots with the index of the next slot to write and of the next slot to read. The two
indices are equal when the ring is empty, so that at most `n - 1` slots are in use. `contents` lists
what is stored, oldest first; the ring is a bounded queue of capacity `n - 1`.
-/

namespace LeafReader

structure Ring (α : Type*) (n : ℕ) where
  head : ℕ
  tail : ℕ
  buffer : Vector α n
  head_lt : head < n
  tail_lt : tail < n

namespace Ring

variable {α : Type*} {n : ℕ}

/-- The ring with nothing in it, over an array of `a`. -/
def init (a : α) (h : 0 < n) : Ring α n := ⟨0, 0, Vector.replicate n a, h, h⟩

/-- The index after `i`, which is 0 at the end of the array. -/
def next (n i : ℕ) : ℕ := if i + 1 ≥ n then 0 else i + 1

theorem next_lt {i : ℕ} (h : i < n) : next n i < n := by
  unfold next
  split <;> omega

def push (r : Ring α n) (a : α) : Option (Ring α n) :=
  if next n r.head = r.tail then none
  else some { r with
    head := next n r.head
    buffer := r.buffer.set r.head a r.head_lt
    head_lt := next_lt r.head_lt }

def pop (r : Ring α n) : Option (α × Ring α n) :=
  if r.head = r.tail then none
  else
    have := r.tail_lt
    some (r.buffer[r.tail], { r with tail := next n r.tail, tail_lt := next_lt r.tail_lt })

/-- Pushes the elements of a list until one does not fit; the number of those that did. -/
def pushBuf (r : Ring α n) : List α → ℕ × Ring α n
  | [] => (0, r)
  | a :: as =>
    match r.push a with
    | none => (0, r)
    | some r' => ((r'.pushBuf as).1 + 1, (r'.pushBuf as).2)

/-- Pops up to `k` elements. -/
def popBuf (r : Ring α n) : ℕ → List α × Ring α n
  | 0 => ([], r)
  | k + 1 =>
    match r.pop with
    | none => ([], r)
    | some (a, r') => (a :: (r'.popBuf k).1, (r'.popBuf k).2)

/-! ### Contents -/

def size (r : Ring α n) : ℕ := if r.tail ≤ r.head then r.head - r.tail else r.head + n - r.tail

theorem pos (r : Ring α n) : 0 < n := Nat.zero_lt_of_lt r.head_lt

/-- The element `i` places after the oldest one. -/
def slot (r : Ring α n) (i : ℕ) : α :=
  have := Nat.mod_lt (r.tail + i) r.pos
  r.buffer[(r.tail + i) % n]

def contents (r : Ring α n) : List α := (List.range r.size).map r.slot

@[simp] theorem length_contents (r : Ring α n) : r.contents.length = r.size := by
  simp [contents]

theorem size_lt (r : Ring α n) : r.size < n := by
  have hh := r.head_lt
  have ht := r.tail_lt
  unfold size
  split <;> omega

theorem size_eq_zero {r : Ring α n} : r.size = 0 ↔ r.head = r.tail := by
  have hh := r.head_lt
  have ht := r.tail_lt
  unfold size
  split <;> omega

/-- The ring is full when the slot after the last written one is the oldest. -/
theorem next_eq_tail_iff {r : Ring α n} : next n r.head = r.tail ↔ r.size = n - 1 := by
  have hh := r.head_lt
  have ht := r.tail_lt
  unfold size next
  split <;> split <;> omega

/-- What lies `size` places after the oldest element is the slot to write next. -/
theorem add_size_mod (r : Ring α n) : (r.tail + r.size) % n = r.head := by
  have hh := r.head_lt
  have ht := r.tail_lt
  unfold size
  split
  · rw [show r.tail + (r.head - r.tail) = r.head by omega, Nat.mod_eq_of_lt hh]
  · rw [show r.tail + (r.head + n - r.tail) = r.head + n by omega, Nat.add_mod_right,
      Nat.mod_eq_of_lt hh]

theorem add_mod_ne_head {r : Ring α n} {i : ℕ} (hi : i < r.size) : (r.tail + i) % n ≠ r.head := by
  have hh := r.head_lt
  have ht := r.tail_lt
  have hs := r.size_lt
  have hin : i < n := by omega
  by_cases hw : r.tail + i < n
  · rw [Nat.mod_eq_of_lt hw]
    unfold size at hi
    split at hi <;> omega
  · rw [Nat.mod_eq_sub_mod (by omega), Nat.mod_eq_of_lt (by omega)]
    unfold size at hi
    split at hi <;> omega

theorem contents_push {r r' : Ring α n} {a : α} (h : r.push a = some r') :
    r'.contents = r.contents ++ [a] := by
  unfold push at h
  split at h
  · cases h
  · rename_i hfull
    cases h
    have hsize : size { r with
        head := next n r.head
        buffer := r.buffer.set r.head a r.head_lt
        head_lt := next_lt r.head_lt } = r.size + 1 := by
      have hh := r.head_lt
      have ht := r.tail_lt
      unfold next at hfull
      unfold size next
      dsimp only
      split_ifs at hfull ⊢ <;> omega
    rw [contents, hsize, List.range_succ, List.map_append, contents]
    refine congrArg₂ _ (List.map_congr_left fun i hi => ?_) ?_
    · have hne := add_mod_ne_head (List.mem_range.1 hi)
      simp [slot, Ne.symm hne]
    · simp [slot, add_size_mod]

theorem contents_pop {r r' : Ring α n} {a : α} (h : r.pop = some (a, r')) :
    r.contents = a :: r'.contents := by
  unfold pop at h
  split at h
  · cases h
  · rename_i hne
    cases h
    have hsize : r.size = size { r with tail := next n r.tail, tail_lt := next_lt r.tail_lt } + 1 := by
      have hh := r.head_lt
      have ht := r.tail_lt
      unfold size next
      dsimp only
      split_ifs <;> omega
    rw [contents, hsize, List.range_succ_eq_map, List.map_cons, List.map_map, contents]
    refine congrArg₂ _ ?_ (List.map_congr_left fun i _ => ?_)
    · simp [slot, Nat.mod_eq_of_lt r.tail_lt]
    · have ht := r.tail_lt
      have hidx : (r.tail + i.succ) % n = (next n r.tail + i) % n := by
        unfold next
        split
        · rw [show r.tail + i.succ = i + n by omega, Nat.add_mod_right, Nat.zero_add]
        · rw [show r.tail + i.succ = r.tail + 1 + i by omega]
      simp only [Function.comp, slot, hidx]

theorem push_eq_none_iff {r : Ring α n} {a : α} : r.push a = none ↔ r.contents.length = n - 1 := by
  rw [length_contents, ← next_eq_tail_iff]
  unfold push
  split <;> simp_all

theorem pop_eq_none_iff {r : Ring α n} : r.pop = none ↔ r.contents = [] := by
  rw [← List.length_eq_zero_iff, length_contents, size_eq_zero]
  unfold pop
  split <;> simp_all

/-! ### The ring as a bounded queue -/

def toFifo (r : Ring α n) : Fifo α (n - 1) :=
  ⟨r.contents, by have := r.size_lt; rw [length_contents]; omega⟩

theorem send_toFifo (r : Ring α n) (a : α) : r.toFifo.send a = (r.push a).map toFifo := by
  have hs := r.size_lt
  cases h : r.push a with
  | none =>
    have hfull := push_eq_none_iff.1 h
    simp [Fifo.send, toFifo, hfull]
  | some r' =>
    have hne : r.contents.length ≠ n - 1 := fun he => by
      rw [push_eq_none_iff.2 he] at h
      cases h
    rw [length_contents] at hne
    have hlt : r.toFifo.items.length < n - 1 := by
      rw [toFifo, length_contents]
      omega
    unfold Fifo.send
    rw [dif_pos hlt]
    simp [toFifo, contents_push h]

theorem receive_toFifo (r : Ring α n) :
    r.toFifo.receive = r.pop.map fun p => (p.1, p.2.toFifo) := by
  cases h : r.pop with
  | none =>
    have hempty := pop_eq_none_iff.1 h
    simp [Fifo.receive, toFifo, hempty]
  | some p =>
    obtain ⟨a, r'⟩ := p
    simp [Fifo.receive, toFifo, contents_pop h]

/-- `pushBuf` stores the longest beginning of the list that fits. -/
theorem contents_pushBuf (r : Ring α n) (l : List α) :
    (r.pushBuf l).1 = min l.length (n - 1 - r.contents.length) ∧
      (r.pushBuf l).2.contents = r.contents ++ l.take (n - 1 - r.contents.length) := by
  induction l generalizing r with
  | nil => simp [pushBuf]
  | cons a as ih =>
    unfold pushBuf
    cases h : r.push a with
    | none => simp [push_eq_none_iff.1 h]
    | some r' =>
      have hs := r.size_lt
      have hs' := r'.size_lt
      have hc := contents_push h
      have hlen := congrArg List.length hc
      rw [List.length_append, length_contents, length_contents, List.length_singleton] at hlen
      obtain ⟨h1, h2⟩ := ih r'
      rw [length_contents] at h1 h2
      refine ⟨?_, ?_⟩
      · simp only [h1, List.length_cons, length_contents]
        omega
      · simp only [h2, length_contents, hc, List.append_assoc, List.singleton_append]
        rw [show n - 1 - r.size = (n - 1 - r'.size) + 1 by omega, List.take_succ_cons]

theorem contents_popBuf (r : Ring α n) (k : ℕ) :
    (r.popBuf k).1 = r.contents.take k ∧ (r.popBuf k).2.contents = r.contents.drop k := by
  induction k generalizing r with
  | zero => simp [popBuf]
  | succ k ih =>
    unfold popBuf
    cases h : r.pop with
    | none => simp [pop_eq_none_iff.1 h]
    | some p =>
      obtain ⟨a, r'⟩ := p
      obtain ⟨h1, h2⟩ := ih r'
      rw [contents_pop h]
      exact ⟨by simp [h1], by simp [h2]⟩

end Ring

end LeafReader
