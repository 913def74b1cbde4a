import Mathlib.Data.List.Basic

/-!
# Arrays on the stack

An array starts with whatever memory held, and is written in pieces. `store` is one `memcpy` into it,
and `Buf` an array that is filled from the front. What is read back below the fill level does not
depend on the memory the array started with.
-/

namespace LeafReader

variable {α : Type}

/-- The contents of the uninitialised arrays of a call, and of the calls it makes: a path of call
sites that ends in the array, then an index. -/
abbrev Garbage (α : Type) := List Nat → Nat → α

/-- The initial contents of the `k`-th array of the call, of `n` elements. -/
def Garbage.array (g : Garbage α) (k n : Nat) : List α := (List.range n).map (g [k])

/-- The memory of the `k`-th call it makes. -/
def Garbage.call (g : Garbage α) (k : Nat) : Garbage α := fun path => g (k :: path)

@[simp] theorem Garbage.length_array (g : Garbage α) (k n : Nat) : (g.array k n).length = n := by
  simp [array]

/-- `d` written into `mem` at index `i`. -/
def store (mem : List α) (i : Nat) (d : List α) : List α :=
  mem.take i ++ d ++ mem.drop (i + d.length)

theorem length_store {mem d : List α} {i : Nat} (h : i + d.length ≤ mem.length) :
    (store mem i d).length = mem.length := by
  simp [store]
  omega

theorem store_zero (mem d : List α) : store mem 0 d = d ++ mem.drop d.length := by
  simp [store]

/-- A piece that covers the array. -/
theorem store_all {mem d : List α} (h : mem.length ≤ d.length) : store mem 0 d = d := by
  rw [store_zero, List.drop_of_length_le h, List.append_nil]

/-- The next piece after those already written. -/
theorem store_append {pre : List α} (mem d : List α) {i : Nat} (h : i = pre.length) :
    store (pre ++ mem) i d = pre ++ d ++ mem.drop d.length := by
  subst h
  simp [store, List.drop_append]

/-! ### Filling from the front -/

/-- An array of `cap` elements of which the first `used` are written. -/
structure Buf (α : Type) (cap : Nat) where
  mem : List α
  used : Nat
  length_mem : mem.length = cap
  used_le : used ≤ cap

namespace Buf

variable {cap : Nat}

def start (mem : List α) (h : mem.length = cap) : Buf α cap := ⟨mem, 0, h, Nat.zero_le cap⟩

def contents (b : Buf α cap) : List α := b.mem.take b.used

/-- `memcpy(&buf[used], d, n); used += n`; `none` when `d` does not fit. -/
def put (b : Buf α cap) (d : List α) : Option (Buf α cap) :=
  if h : b.used + d.length ≤ cap then
    some ⟨store b.mem b.used d, b.used + d.length,
      (length_store (Nat.le_trans h (Nat.le_of_eq b.length_mem.symm))).trans b.length_mem, h⟩
  else none

def puts (b : Buf α cap) : List (List α) → Option (Buf α cap)
  | [] => some b
  | d :: ds => (b.put d).bind (·.puts ds)

@[simp] theorem contents_start (mem : List α) (h : mem.length = cap) :
    (start mem h).contents = [] := rfl

@[simp] theorem length_contents (b : Buf α cap) : b.contents.length = b.used := by
  rw [contents, List.length_take, b.length_mem]
  exact Nat.min_eq_left b.used_le

theorem contents_put {b b' : Buf α cap} {d : List α} (h : b.put d = some b') :
    b'.contents = b.contents ++ d := by
  unfold put at h
  split_ifs at h with hfit
  cases h
  have hlen : (b.mem.take b.used ++ d).length = b.used + d.length := by
    rw [List.length_append, List.length_take, b.length_mem, Nat.min_eq_left b.used_le]
  show (store b.mem b.used d).take (b.used + d.length) = _
  rw [store, List.take_left' hlen]
  rfl

theorem put_eq_none {b : Buf α cap} {d : List α} : b.put d = none ↔ cap < b.used + d.length := by
  unfold put
  split_ifs with h
  · simpa using h
  · simpa using h

/-- What was in memory does not show in what is written, nor in whether it fits. -/
theorem contents_puts (ds : List (List α)) (b : Buf α cap) :
    (b.puts ds).map contents =
      if b.used + ds.flatten.length ≤ cap then some (b.contents ++ ds.flatten) else none := by
  induction ds generalizing b with
  | nil => simp [puts, b.used_le]
  | cons d ds ih =>
    rw [puts]
    cases hput : b.put d with
    | none =>
      have hlt := put_eq_none.1 hput
      rw [if_neg (by simp; omega)]
      rfl
    | some b' =>
      have ih := ih b'
      have hused : b'.used = b.used + d.length := by
        rw [← length_contents, contents_put hput, List.length_append, length_contents]
      rw [contents_put hput, hused] at ih
      simpa [Nat.add_assoc] using ih

end Buf

end LeafReader
