import Mathlib.Data.List.Basic

/-!
# The CMAC mode of a block function

A message is cut into complete blocks and a last one, which may be partial and is empty only in the
empty message. The last block is masked with one of two subkeys, and the blocks are chained. The block
type, its exclusive or, the reading of a block and the doubling are parameters.
-/

namespace LeafReader

namespace Cmac

variable {α B : Type}

/-- The complete blocks of `msg` before its last block, and the last block. -/
structure Partition (n : Nat) (msg : List α) where
  init : List (List α)
  last : List α
  complete : ∀ m ∈ init, m.length = n
  whole : init.flatten ++ last = msg
  last_le : last.length ≤ n
  last_nonempty : init ≠ [] → last ≠ []

namespace Partition

variable {n : Nat} {msg : List α}

theorem length_flatten {ms : List (List α)} (h : ∀ m ∈ ms, m.length = n) :
    ms.flatten.length = n * ms.length := by
  induction ms with
  | nil => rfl
  | cons m ms ih =>
    rw [List.flatten_cons, List.length_append, h m (by simp), ih fun m hm => h m (by simp [hm]),
      List.length_cons, Nat.mul_succ, Nat.add_comm]

theorem length_whole (p : Partition n msg) : n * p.init.length + p.last.length = msg.length := by
  rw [← length_flatten p.complete, ← List.length_append, p.whole]

/-- All blocks but the last are one fewer than `n`-symbol blocks are needed for `msg`. -/
theorem length_init (hn : 0 < n) (p : Partition n msg) :
    p.init.length = (msg.length + n - 1) / n - 1 := by
  have hlen := p.length_whole
  have hle := p.last_le
  cases hi : p.init.length with
  | zero =>
    rw [hi, Nat.mul_zero, Nat.zero_add] at hlen
    have : (msg.length + n - 1) / n ≤ 1 := by
      rw [Nat.div_le_iff_le_mul_add_pred hn]
      omega
    omega
  | succ k =>
    have hpos : 0 < p.last.length := by
      refine List.length_pos_iff.2 (p.last_nonempty fun h => ?_)
      simp [h] at hi
    rw [hi] at hlen
    rw [show msg.length + n - 1 = n * (k + 1) + (p.last.length + n - 1) by omega,
      Nat.mul_add_div hn, Nat.div_eq_of_lt_le (m := p.last.length + n - 1) (n := n) (k := 1) (by omega) (by omega)]
    omega

theorem last_ne_nil (p : Partition n msg) (h : msg ≠ []) : p.last ≠ [] := by
  intro hl
  by_cases hi : p.init = []
  · exact h (by rw [← p.whole, hi, hl]; rfl)
  · exact p.last_nonempty hi hl

def of (hn : 0 < n) (msg : List α) : Partition n msg :=
  if h : msg.length ≤ n then ⟨[], msg, by simp, rfl, h, by simp⟩
  else
    let p := of hn (msg.drop n)
    ⟨msg.take n :: p.init, p.last, by simpa using ⟨by omega, p.complete⟩, by simp [p.whole], p.last_le,
      fun _ => p.last_ne_nil (by simp; omega)⟩
termination_by msg.length
decreasing_by simp; omega

end Partition

/-- What CMAC is built over: blocks of `n` symbols, the padding of a partial block, the doubling. -/
structure Scheme (α B : Type) where
  n : Nat
  pos : 0 < n
  zero : B
  xor : B → B → B
  block : List α → B
  pad : List α → List α
  dbl : B → B

namespace Scheme

variable (S : Scheme α B) (e : B → B)

def chain (c : B) (ms : List B) : B := ms.foldl (fun c m => e (S.xor c m)) c

/-- The last block, masked with the first subkey when it is complete and with the second when not. -/
def final (last : List α) : B :=
  let k1 := S.dbl (e S.zero)
  let k2 := S.dbl k1
  if last.length = S.n then S.xor (S.block last) k1 else S.xor (S.block (S.pad last)) k2

def mac (msg : List α) : B :=
  let p := Partition.of S.pos msg
  S.chain e S.zero (p.init.map S.block ++ [S.final e p.last])

end Scheme

end Cmac

end LeafReader
