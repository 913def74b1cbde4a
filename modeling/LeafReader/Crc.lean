import Mathlib.Data.BitVec
import Mathlib.Logic.Function.Iterate

/-!
# Reflected cyclic redundancy checks

A register of `w` bits that symbols of `k` bits are fed into, low bit first. A register that is fed its
own symbols becomes zero, and a zero register that is fed a symbol other than zero does not become zero
again while zeroes follow. So a message with its checksum never goes on as another one.

Symbols are fed bit by bit, and the register tells apart any two rows of at most `w` bits: a burst of `w`
bits is seen wherever it lies.
-/

namespace LeafReader

namespace Crc

variable {w k : Nat} (p : BitVec w)

/-- One bit: a bit that falls out of the register brings in the polynomial `p`. -/
def step (c : BitVec w) : BitVec w := if c.getLsbD 0 then (c >>> 1) ^^^ p else c >>> 1

def feed (c : BitVec w) (s : BitVec k) : BitVec w := (step p)^[k] (c ^^^ s.setWidth w)

def run (c : BitVec w) (x : List (BitVec k)) : BitVec w := x.foldl (feed p) c

/-- The first `n` symbols of a register, low symbol first. -/
def symbols (k : Nat) : Nat → BitVec w → List (BitVec k)
  | 0, _ => []
  | n + 1, c => c.setWidth k :: symbols k n (c >>> k)

/-! ### A register fed its own symbols -/

theorem iterate_step {c : BitVec w} {n : Nat} (h : ∀ i < n, c.getLsbD i = false) :
    (step p)^[n] c = c >>> n := by
  induction n generalizing c with
  | zero => simp
  | succ n ih =>
    have hstep : step p c = c >>> 1 := by simp [step, h 0 (by omega)]
    rw [Function.iterate_succ_apply, hstep, ih fun i hi => ?_, ← BitVec.shiftRight_add, Nat.add_comm]
    rw [BitVec.getLsbD_ushiftRight]
    exact h (1 + i) (by omega)

theorem feed_self (c : BitVec w) : feed p c (c.setWidth k) = c >>> k := by
  have hlow : ∀ i < k, (c ^^^ (c.setWidth k).setWidth w).getLsbD i = false := by
    intro i hi
    by_cases hw : i < w
    · simp [hi, hw]
    · rw [BitVec.getLsbD_of_ge _ i (by omega)]
  rw [feed, iterate_step p hlow]
  refine BitVec.eq_of_getLsbD_eq fun i _ => ?_
  simp

theorem run_symbols (n : Nat) (c : BitVec w) : run p c (symbols k n c) = c >>> (k * n) := by
  induction n generalizing c with
  | zero => simp [run, symbols]
  | succ n ih =>
    rw [symbols, run, List.foldl_cons, feed_self]
    exact (ih _).trans (by rw [← BitVec.shiftRight_add, Nat.mul_succ, Nat.add_comm])

/-! ### A register that is not zero -/

section Polynomial

variable {p} (hp : p.msb = true)
include hp

/-- What falls out of the register can be seen at its high end. -/
theorem msb_step (c : BitVec w) : (step p c).msb = c.getLsbD 0 := by
  have hshift : (c >>> 1).msb = false := by simp [BitVec.msb_ushiftRight]
  rw [step]
  split
  next hlow => rw [BitVec.msb_xor, hshift, hp, hlow]; rfl
  next hlow => rw [hshift, eq_false_of_ne_true hlow]

theorem step_injective : Function.Injective (step p) := by
  intro a b h
  have hlow : a.getLsbD 0 = b.getLsbD 0 := by rw [← msb_step hp, ← msb_step hp, h]
  have hhigh : a >>> 1 = b >>> 1 := by
    rw [step, step, hlow] at h
    split at h
    · exact (BitVec.xor_left_inj p).1 h
    · exact h
  refine BitVec.eq_of_getLsbD_eq fun i _ => ?_
  rcases i with _ | i
  · exact hlow
  · have hi := congrArg (·.getLsbD i) hhigh
    simpa [Nat.add_comm] using hi

theorem step_ne_zero {c : BitVec w} (h : c ≠ 0) : step p c ≠ 0 := by
  intro h0
  refine h (step_injective hp (h0.trans ?_))
  simp [step]

theorem iterate_step_ne_zero {c : BitVec w} (h : c ≠ 0) (n : Nat) : (step p)^[n] c ≠ 0 := by
  induction n generalizing c with
  | zero => exact h
  | succ n ih => exact ih (step_ne_zero hp h)

theorem run_zeroes_ne_zero {c : BitVec w} (h : c ≠ 0) (j : Nat) :
    run p c (List.replicate j (0 : BitVec k)) ≠ 0 := by
  induction j generalizing c with
  | zero => exact h
  | succ j ih =>
    refine ih ?_
    rw [feed]
    exact iterate_step_ne_zero hp (by simpa using h) k

end Polynomial

/-! ### Messages with their checksum -/

/-- `x` and its checksum from the register `c`, of `n` symbols. -/
def codeword (n : Nat) (c : BitVec w) (x : List (BitVec k)) : List (BitVec k) :=
  x ++ symbols k n (run p c x)

theorem run_append (c : BitVec w) (x y : List (BitVec k)) :
    run p c (x ++ y) = run p (run p c x) y := List.foldl_append

theorem run_codeword {n : Nat} (hn : w ≤ k * n) (c : BitVec w) (x : List (BitVec k)) :
    run p c (codeword p n c x) = 0 := by
  rw [codeword, run_append, run_symbols]
  exact BitVec.ushiftRight_eq_zero hn

/-- A message with its checksum, then a symbol other than zero and zeroes, has no right checksum. -/
theorem codeword_ne_append {p : BitVec w} (hp : p.msb = true) (hk : k ≤ w) {n : Nat} (hn : w ≤ k * n)
    (c : BitVec w) (x y : List (BitVec k)) {s : BitVec k} (hs : s ≠ 0) (j : Nat) :
    codeword p n c y ≠ codeword p n c x ++ s :: List.replicate j 0 := by
  intro h
  have hrun := congrArg (run p c) h
  rw [run_codeword p hn, run_append, run_codeword p hn] at hrun
  have hs' : s.setWidth w ≠ 0 := by
    intro h0
    apply hs
    have := congrArg (BitVec.setWidth k) h0
    simpa [BitVec.setWidth_setWidth_of_le _ hk] using this
  refine run_zeroes_ne_zero hp (c := feed p 0 s) (iterate_step_ne_zero hp ?_ k) j hrun.symm
  simpa using hs'

/-! ### Bit by bit -/

/-- The bits of a symbol in the order in which the register takes them. -/
def bits (s : BitVec k) : List Bool := (List.range k).map s.getLsbD

def feedBit (c : BitVec w) (b : Bool) : BitVec w := step p (c ^^^ (BitVec.ofBool b).setWidth w)

def runBits (c : BitVec w) (l : List Bool) : BitVec w := l.foldl (feedBit p) c

/-- Bits as a register holds them, the first lowest. -/
def pack (w : Nat) (l : List Bool) : BitVec w := (BitVec.ofBoolListLE l).setWidth w

@[simp] theorem length_bits (s : BitVec k) : (bits s).length = k := by simp [bits]

theorem getLsbD_pack (l : List Bool) (i : Nat) :
    (pack w l).getLsbD i = (decide (i < w) && l.getD i false) := by
  rw [pack, BitVec.getLsbD_setWidth, BitVec.getLsbD_ofBoolListLE]

theorem pack_bits (s : BitVec k) : pack w (bits s) = s.setWidth w := by
  refine BitVec.eq_of_getLsbD_eq fun i _ => ?_
  rw [getLsbD_pack, BitVec.getLsbD_setWidth, bits, List.getD_eq_getElem?_getD]
  by_cases hi : i < k
  · simp [hi]
  · simp [hi, BitVec.getLsbD_of_ge s i (by omega)]

theorem pack_cons (b : Bool) (l : List Bool) :
    pack w (b :: l) = (BitVec.ofBool b).setWidth w ^^^ (pack w l <<< 1) := by
  refine BitVec.eq_of_getLsbD_eq fun i hi => ?_
  rw [getLsbD_pack, BitVec.getLsbD_xor, BitVec.getLsbD_shiftLeft, BitVec.getLsbD_setWidth, getLsbD_pack]
  rcases i with _ | i
  · simp [hi]
  · simp [hi, show i < w by omega]

/-- The register has room for the bits. -/
theorem pack_shiftLeft_shiftRight {l : List Bool} (h : l.length < w) : (pack w l <<< 1) >>> 1 = pack w l := by
  refine BitVec.eq_of_getLsbD_eq fun i hi => ?_
  rw [BitVec.getLsbD_ushiftRight, BitVec.getLsbD_shiftLeft, Nat.add_sub_cancel_left, getLsbD_pack]
  by_cases hlast : 1 + i < w
  · simp [hlast]
  · simp [hlast, show l.length ≤ i by omega]

theorem pack_injective {l l' : List Bool} (hlen : l.length = l'.length) (hw : l.length ≤ w)
    (h : pack w l = pack w l') : l = l' := by
  refine List.ext_getElem hlen fun i hi hi' => ?_
  have hbit : (pack w l).getLsbD i = (pack w l').getLsbD i := by rw [h]
  rw [getLsbD_pack, getLsbD_pack] at hbit
  simpa [hi, hi', show i < w by omega] using hbit

/-- A part of the register with a clear low bit only moves down. -/
theorem step_xor_of_low {d : BitVec w} (h : d.getLsbD 0 = false) (c : BitVec w) :
    step p (c ^^^ d) = step p c ^^^ (d >>> 1) := by
  rw [step, step, BitVec.getLsbD_xor, h, Bool.xor_false, BitVec.ushiftRight_xor_distrib]
  split
  · rw [BitVec.xor_assoc, BitVec.xor_comm (d >>> 1), BitVec.xor_assoc]
  · rfl

/-- Bits for which the register has room can be put into it at once. -/
theorem runBits_eq {l : List Bool} (h : l.length ≤ w) (c : BitVec w) :
    runBits p c l = (step p)^[l.length] (c ^^^ pack w l) := by
  induction l generalizing c with
  | nil => simp [runBits, pack, BitVec.ofBoolListLE]
  | cons b l ih =>
    have hlow : (pack w l <<< 1).getLsbD 0 = false := by simp
    have hstep : step p (c ^^^ pack w (b :: l)) = feedBit p c b ^^^ pack w l := by
      rw [pack_cons, ← BitVec.xor_assoc, step_xor_of_low p hlow, pack_shiftLeft_shiftRight h, feedBit]
    rw [List.length_cons, Function.iterate_succ_apply, hstep, ← ih (Nat.le_of_lt h)]
    rfl

theorem feed_eq_runBits (hk : k ≤ w) (c : BitVec w) (s : BitVec k) : feed p c s = runBits p c (bits s) := by
  rw [runBits_eq p (by rwa [length_bits]), length_bits, pack_bits, feed]

theorem runBits_append (c : BitVec w) (l m : List Bool) :
    runBits p c (l ++ m) = runBits p (runBits p c l) m := List.foldl_append

/-- Symbols are fed bit by bit. -/
theorem run_eq_runBits (hk : k ≤ w) (c : BitVec w) (x : List (BitVec k)) :
    run p c x = runBits p c (x.flatMap bits) := by
  induction x generalizing c with
  | nil => rfl
  | cons s x ih =>
    rw [List.flatMap_cons, runBits_append, ← feed_eq_runBits p hk]
    exact ih _

theorem flatMap_bits_injective {x y : List (BitVec k)} (hlen : x.length = y.length)
    (h : x.flatMap bits = y.flatMap bits) : x = y := by
  induction x generalizing y with
  | nil => exact (List.eq_nil_of_length_eq_zero hlen.symm).symm
  | cons s x ih =>
    obtain ⟨t, y, rfl⟩ := List.exists_cons_of_length_eq_add_one hlen.symm
    rw [List.flatMap_cons, List.flatMap_cons] at h
    obtain ⟨hs, hx⟩ := List.append_inj h (by rw [length_bits, length_bits])
    have hst := congrArg (pack k) hs
    rw [pack_bits, pack_bits, BitVec.setWidth_eq, BitVec.setWidth_eq] at hst
    rw [hst, ih (Nat.succ.inj hlen) hx]

/-! ### Bursts -/

/-- Two lists of one length that differ only within `n` consecutive positions. -/
theorem exists_window {α : Type*} {l l' : List α} (hlen : l.length = l'.length) {start n : Nat}
    (hin : ∀ i < l.length, l[i]? ≠ l'[i]? → start ≤ i ∧ i < start + n) :
    ∃ before mid mid' behind, l = before ++ (mid ++ behind) ∧ l' = before ++ (mid' ++ behind) ∧
      mid.length = mid'.length ∧ mid.length ≤ n := by
  have hsame (i : Nat) (hout : i < start ∨ start + n ≤ i) : l[i]? = l'[i]? := by
    by_contra hne
    by_cases hi : i < l.length
    · have := hin i hi hne
      omega
    · exact hne (by rw [List.getElem?_eq_none (by omega), List.getElem?_eq_none (by omega)])
  have hbefore : l'.take start = l.take start := by
    refine List.ext_getElem? fun i => ?_
    rw [List.getElem?_take, List.getElem?_take]
    split
    next hi => exact (hsame i (.inl hi)).symm
    next => rfl
  have hbehind : (l'.drop start).drop n = (l.drop start).drop n := by
    refine List.ext_getElem? fun i => ?_
    rw [List.drop_drop, List.drop_drop, List.getElem?_drop, List.getElem?_drop]
    exact (hsame _ (.inr (Nat.le_add_right _ i))).symm
  refine ⟨l.take start, (l.drop start).take n, (l'.drop start).take n, (l.drop start).drop n, ?_, ?_, ?_, ?_⟩
  · rw [List.take_append_drop, List.take_append_drop]
  · rw [← hbehind, List.take_append_drop, ← hbefore, List.take_append_drop]
  · rw [List.length_take, List.length_take, List.length_drop, List.length_drop, hlen]
  · exact List.length_take_le n _

section Burst

variable {p} (hp : p.msb = true)
include hp

theorem feedBit_injective (b : Bool) : Function.Injective (feedBit p · b) := by
  intro c d h
  exact (BitVec.xor_left_inj _).1 (step_injective hp h)

/-- Registers that differ stay so under the same bits. -/
theorem runBits_injective (l : List Bool) : Function.Injective (runBits p · l) := by
  induction l with
  | nil => exact Function.injective_id
  | cons b l ih => exact ih.comp (feedBit_injective hp b)

/-- Two rows of bits that fit the register are told apart. -/
theorem eq_of_runBits_eq {c : BitVec w} {l l' : List Bool} (hlen : l.length = l'.length) (hw : l.length ≤ w)
    (h : runBits p c l = runBits p c l') : l = l' := by
  rw [runBits_eq p hw, runBits_eq p (hlen ▸ hw), ← hlen] at h
  exact pack_injective hlen hw ((BitVec.xor_right_inj c).1 ((step_injective hp).iterate _ h))

/-- Before the burst the register is the same, in it different bits are fed, and behind it the same bits. -/
theorem eq_of_burst {c : BitVec w} {l l' : List Bool} (hlen : l.length = l'.length) {start : Nat}
    (hin : ∀ i < l.length, l[i]? ≠ l'[i]? → start ≤ i ∧ i < start + w) (h : runBits p c l = runBits p c l') :
    l = l' := by
  obtain ⟨before, burst, burst', behind, rfl, rfl, hburst, hfit⟩ := exists_window hlen hin
  rw [runBits_append, runBits_append, runBits_append, runBits_append] at h
  rw [eq_of_runBits_eq hp hburst hfit (runBits_injective hp behind h)]

end Burst

end Crc

end LeafReader
