import LeafReader.BinaryPoly
import LeafReader.Cmac
import LeafReader.DesfireXfer
import Mathlib.Data.Nat.Bitwise

/-!
# `desfire_cmac` is CMAC

NIST SP 800-38B over 16-byte blocks: the doubling is multiplication by `X` in GF(2^128). The code is
restated for any block function, with every read of the message checked against its length.
-/

namespace LeafReader

open Polynomial

/-! ### Blocks as numbers -/

/-- The value of a byte string, first byte most significant. -/
def ofBytesBE (l : Bytes) : Nat := l.foldl (fun n x => 256 * n + x.toNat) 0

theorem ofBytesBE_append (l m : Bytes) :
    ofBytesBE (l ++ m) = 256 ^ m.length * ofBytesBE l + ofBytesBE m := by
  have hacc (n : Nat) : m.foldl (fun n x => 256 * n + x.toNat) n = 256 ^ m.length * n + ofBytesBE m := by
    unfold ofBytesBE
    induction m generalizing n with
    | nil => simp
    | cons x m ih =>
      rw [List.foldl_cons, List.foldl_cons, ih, ih (256 * 0 + _), List.length_cons, pow_succ]
      ring
  rw [ofBytesBE, List.foldl_append, hacc]
  rfl

theorem ofBytesBE_cons (x : UInt8) (l : Bytes) :
    ofBytesBE (x :: l) = 256 ^ l.length * x.toNat + ofBytesBE l := by
  have := ofBytesBE_append [x] l
  simpa [ofBytesBE] using this

theorem ofBytesBE_lt (l : Bytes) : ofBytesBE l < 256 ^ l.length := by
  induction l with
  | nil => simp [ofBytesBE]
  | cons x l ih =>
    have hx := x.toNat_lt
    rw [ofBytesBE_cons, List.length_cons, pow_succ]
    nlinarith

theorem ofBytesBE_injective {l m : Bytes} (hlen : l.length = m.length)
    (h : ofBytesBE l = ofBytesBE m) : l = m := by
  induction l generalizing m with
  | nil => exact (List.length_eq_zero_iff.1 hlen.symm).symm
  | cons x l ih =>
    cases m with
    | nil => simp at hlen
    | cons y m =>
      simp only [List.length_cons, Nat.add_right_cancel_iff] at hlen
      have hl := ofBytesBE_lt l
      have hm := ofBytesBE_lt m
      rw [ofBytesBE_cons, ofBytesBE_cons, hlen] at h
      rw [hlen] at hl
      have hxy : x.toNat = y.toNat := by
        have := congrArg (· / 256 ^ m.length) h
        simpa [Nat.mul_add_div (Nat.pos_of_ne_zero (by positivity) : 0 < 256 ^ m.length),
          Nat.div_eq_of_lt hl, Nat.div_eq_of_lt hm] using this
      rw [UInt8.toNat_inj.1 hxy, ih hlen (by rw [hxy] at h; omega)]

namespace Block

def first (b : Block) : UInt8 := b.get ⟨0, Nat.succ_pos 15⟩

def last (b : Block) : UInt8 := b.get ⟨15, Nat.lt_succ_self 15⟩

/-- `b[15] ^= y`. -/
def xorLast (b : Block) (y : UInt8) : Block := b.set 15 (b.last ^^^ y) (Nat.lt_succ_self 15)

def bits (b : Block) : BitVec 128 := BitVec.ofNat 128 (ofBytesBE b.toList)

theorem toNat_bits (b : Block) : b.bits.toNat = ofBytesBE b.toList := by
  have h := ofBytesBE_lt b.toList
  rw [bits, BitVec.toNat_ofNat, Nat.mod_eq_of_lt]
  simpa using h

theorem bits_injective : Function.Injective bits := by
  intro a b h
  have h' := congrArg BitVec.toNat h
  rw [toNat_bits, toNat_bits] at h'
  exact Vector.toList_inj.1 (ofBytesBE_injective (by simp) h')

end Block

/-! ### Doubling -/

theorem toNat_shiftLeft_or {x c : UInt8} (hc : c.toNat ≤ 1) :
    (x <<< 1 ||| c).toNat = 2 * x.toNat % 256 + c.toNat := by
  have h : (x <<< 1).toNat = 2 * x.toNat % 256 := by
    rw [UInt8.toNat_shiftLeft, Nat.shiftLeft_eq]
    show x.toNat * 2 ^ 1 % 256 = _
    rw [pow_one, Nat.mul_comm]
  have hor := Nat.two_pow_add_eq_or_of_lt (i := 1) (show c.toNat < 2 ^ 1 by omega) (x.toNat % 128)
  rw [UInt8.toNat_or, h]
  have hmod : 2 * x.toNat % 256 = 2 ^ 1 * (x.toNat % 128) := by omega
  rw [hmod, ← hor]

theorem and_0x80_ne_zero_iff (x : UInt8) : x &&& 0x80 ≠ 0 ↔ 128 ≤ x.toNat := by
  have hx := x.toNat_lt
  rw [ne_eq, ← UInt8.toNat_inj, UInt8.toNat_and]
  show ¬ x.toNat &&& 2 ^ 7 = 0 ↔ _
  rw [Nat.and_two_pow, Nat.testBit_eq_decide_div_mod_eq]
  by_cases h : 128 ≤ x.toNat
  · simp [h]
    omega
  · simp [h]
    omega

/-- The byte-wise shift, with the carry out of the first byte. -/
theorem ofBytesBE_shift (l : Bytes) :
    let r := l.foldr (fun (x : UInt8) (s : Bytes × UInt8) =>
      ((x <<< 1 ||| s.2) :: s.1, if x &&& 0x80 ≠ 0 then 1 else 0)) ([], 0)
    r.1.length = l.length ∧ r.2.toNat ≤ 1 ∧
      ofBytesBE r.1 + 256 ^ l.length * r.2.toNat = 2 * ofBytesBE l := by
  induction l with
  | nil => simp [ofBytesBE]
  | cons x l ih =>
    obtain ⟨hlen, hc, hval⟩ := ih
    have hx := x.toNat_lt
    have hcarry : (if x &&& 0x80 ≠ 0 then (1 : UInt8) else 0).toNat = x.toNat / 128 := by
      rw [if_congr (and_0x80_ne_zero_iff x) rfl rfl]
      split
      · show 1 = _
        omega
      · show 0 = _
        omega
    have hbyte : 2 * x.toNat = 2 * x.toNat % 256 + 256 * (x.toNat / 128) := by omega
    refine ⟨by simpa using hlen, by rw [List.foldr_cons, hcarry]; omega, ?_⟩
    simp only [List.foldr_cons] at hval ⊢
    rw [hcarry, ofBytesBE_cons, ofBytesBE_cons, hlen, toNat_shiftLeft_or hc, List.length_cons, pow_succ]
    calc _ = 256 ^ l.length * (2 * x.toNat % 256 + 256 * (x.toNat / 128)) + 2 * ofBytesBE l := by
          rw [← hval]; ring
      _ = _ := by rw [← hbyte]; ring

namespace Block

theorem bits_leftShiftOne (b : Block) : (leftShiftOne b).bits = b.bits <<< 1 := by
  obtain ⟨hlen, -, hval⟩ := ofBytesBE_shift b.toList
  apply BitVec.eq_of_toNat_eq
  rw [BitVec.toNat_shiftLeft, toNat_bits, toNat_bits, leftShiftOne,
    toList_ofBytes_of_le (by rw [hlen]; simp), hlen]
  have h := ofBytesBE_lt (b.toList.foldr (fun (x : UInt8) (s : Bytes × UInt8) =>
    ((x <<< 1 ||| s.2) :: s.1, if x &&& 0x80 ≠ 0 then 1 else 0)) ([], 0)).1
  rw [hlen] at h
  simp only [Vector.length_toList, Nat.sub_self, List.replicate_zero, List.append_nil] at h hval ⊢
  rw [Nat.shiftLeft_eq, pow_one, Nat.mul_comm, ← hval, show (2 : Nat) ^ 128 = 256 ^ 16 by norm_num,
    Nat.add_mul_mod_self_left, Nat.mod_eq_of_lt h]

theorem msb_bits (b : Block) : b.bits.msb = true ↔ b.first &&& 0x80 ≠ 0 := by
  have hcons : b.toList = b.first :: b.toList.tail := by
    apply List.ext_getElem
    · simp
    · intro i h1 h2
      rcases i with _ | i
      · exact Vector.getElem_toList h1
      · simp
  have htail := ofBytesBE_lt b.toList.tail
  rw [and_0x80_ne_zero_iff, BitVec.msb_eq_decide, decide_eq_true_iff, toNat_bits, hcons, ofBytesBE_cons]
  simp only [List.length_tail, Vector.length_toList] at htail ⊢
  omega

theorem xor_low {x y : Nat} (n : Nat) (hx : x < 256) (hy : y < 256) :
    (256 * n + x) ^^^ y = 256 * n + (x ^^^ y) := by
  have hxy : x ^^^ y < 2 ^ 8 := Nat.xor_lt_two_pow (show x < 2 ^ 8 from hx) hy
  refine Nat.eq_of_testBit_eq fun i => ?_
  rw [Nat.testBit_xor, Nat.testBit_two_pow_mul_add n (show x < 2 ^ 8 from hx) i,
    Nat.testBit_two_pow_mul_add n hxy i]
  split
  · rw [Nat.testBit_xor]
  · rename_i hi
    have : y < 2 ^ i := lt_of_lt_of_le (show y < 2 ^ 8 from hy)
      (Nat.pow_le_pow_right Nat.two_pos (Nat.le_of_not_lt hi))
    rw [Nat.testBit_lt_two_pow this, Bool.xor_false]

theorem ofBytesBE_toList (b : Block) :
    ofBytesBE b.toList = 256 * ofBytesBE (b.toList.take 15) + b.last.toNat := by
  have hsplit : b.toList = b.toList.take 15 ++ [b.last] := by
    apply List.ext_getElem
    · simp
    · intro i h1 h2
      rw [List.getElem_append]
      split
      · simp
      · rename_i hi
        have : i = 15 := by simp at h1 hi; omega
        subst this
        simp only [List.length_take, Vector.length_toList, Vector.getElem_toList, List.getElem_singleton]
        rfl
  conv_lhs => rw [hsplit, ofBytesBE_append]
  simp [ofBytesBE]

theorem last_xorLast (b : Block) (y : UInt8) : (b.xorLast y).last = b.last ^^^ y :=
  Vector.getElem_set_self _

theorem bits_xorLast (b : Block) (y : UInt8) :
    (b.xorLast y).bits = b.bits ^^^ BitVec.ofNat 128 y.toNat := by
  have htake : (b.xorLast y).toList.take 15 = b.toList.take 15 := by
    apply List.ext_getElem
    · simp
    · intro i h1 h2
      have : i ≠ 15 := by simp at h1; omega
      simp [xorLast, this.symm]
  apply BitVec.eq_of_toNat_eq
  rw [BitVec.toNat_xor, toNat_bits, toNat_bits, BitVec.toNat_ofNat,
    Nat.mod_eq_of_lt (lt_trans y.toNat_lt (by norm_num)), ofBytesBE_toList, ofBytesBE_toList b, htake,
    xor_low _ (UInt8.toNat_lt _) y.toNat_lt, last_xorLast, UInt8.toNat_xor]

/-- The element of GF(2^128) a block stands for. -/
noncomputable def poly (b : Block) : (ZMod 2)[X] := polyOf b.bits

/-- Doubling in GF(2^128) modulo `X^128 + X^7 + X^2 + X + 1`. -/
noncomputable def double (b : Block) : Block :=
  Function.invFun poly ((X * b.poly) %ₘ (X ^ 128 + X ^ 7 + X ^ 2 + X + 1))

theorem poly_injective : Function.Injective poly := fun _ _ h => bits_injective (polyOf_injective h)

theorem polyOf_0x87 : polyOf 0x87#128 = X ^ 7 + X ^ 2 + X + 1 := by
  ext n
  simp only [coeff_polyOf, coeff_add, coeff_X_pow, coeff_X, coeff_one]
  by_cases hn : n < 8
  · have : n = 0 ∨ n = 1 ∨ n = 2 ∨ n = 3 ∨ n = 4 ∨ n = 5 ∨ n = 6 ∨ n = 7 := by omega
    rcases this with rfl | rfl | rfl | rfl | rfl | rfl | rfl | rfl <;> decide
  · have : (0x87#128).getLsbD n = false := by
      rw [BitVec.getLsbD_ofNat, Nat.testBit_lt_two_pow, Bool.and_false]
      exact lt_of_lt_of_le (show 0x87 < 2 ^ 8 by decide) (Nat.pow_le_pow_right (by decide) (by omega))
    simp [this, show n ≠ 7 by omega, show n ≠ 2 by omega, show 1 ≠ n by omega, show n ≠ 0 by omega]

/-- The shift with its conditional last byte is the doubling. -/
theorem double_eq (b : Block) :
    b.double = if b.first &&& 0x80 ≠ 0 then (leftShiftOne b).xorLast 0x87 else leftShiftOne b := by
  have hmod : (X : (ZMod 2)[X]) ^ 128 + X ^ 7 + X ^ 2 + X + 1 = X ^ 128 + polyOf 0x87#128 := by
    rw [polyOf_0x87]
    ring
  rw [double, hmod, poly, X_mul_polyOf_mod (by decide)]
  have hinv (c : Block) (v : BitVec 128) (h : c.bits = v) : Function.invFun poly (polyOf v) = c := by
    rw [← h]
    exact Function.leftInverse_invFun poly_injective c
  apply hinv
  rw [← if_congr (msb_bits b) rfl rfl]
  split
  · rw [bits_xorLast, bits_leftShiftOne]
    rfl
  · exact bits_leftShiftOne b

end Block

/-! ### The code over any block function -/

/-- `cmac_subkeys`, with `e` for the block function under the key. -/
def cmacSubkeysOf (e : Block → Block) : Block × Block :=
  let l := e .zero
  let k1 := if l.first &&& 0x80 ≠ 0 then (leftShiftOne l).xorLast 0x87 else leftShiftOne l
  let k2 := if k1.first &&& 0x80 ≠ 0 then (leftShiftOne k1).xorLast 0x87 else leftShiftOne k1
  (k1, k2)

/-- `desfire_cmac` over `e`. Reads of `msg` and the write of `M_last[rem]` are checked. -/
def desfireCmacChecked (e : Block → Block) (msg : Bytes) : Except Fault Block := do
  let (k1, k2) := cmacSubkeysOf e
  -- the message and these arrays share one address space, so `len + 15` does not wrap
  let n := if msg.length = 0 then 1 else (msg.length + 15) / 16
  let lastComplete := msg.length ≠ 0 ∧ msg.length % 16 = 0
  let mLast ←
    if lastComplete then do
      let m ← slice msg ((n - 1) * 16) 16
      pure (Block.ofBytes m ^^^ k1)
    else do
      let rem := msg.length - (n - 1) * 16
      let m ← if rem ≠ 0 then slice msg ((n - 1) * 16) rem else pure []
      let m ← fill 16 (m ++ [0x80])
      pure (Block.ofBytes m ^^^ k2)
  let x ← (List.range (n - 1)).foldlM (fun x i => do
    let m ← slice msg (i * 16) 16
    pure (e (x ^^^ Block.ofBytes m))) .zero
  pure (e (x ^^^ mLast))

/-! ### CMAC of byte strings -/

/-- SP 800-38B for a block function on 16-byte blocks: `10…0` fills a partial block. -/
noncomputable def nistCmac : Cmac.Scheme UInt8 Block where
  n := 16
  pos := Nat.succ_pos 15
  zero := .zero
  xor := (· ^^^ ·)
  block := Block.ofBytes
  pad l := l ++ [0x80] ++ List.replicate (15 - l.length) 0
  dbl := Block.double

theorem cmacSubkeysOf_eq (e : Block → Block) :
    cmacSubkeysOf e = ((e .zero).double, (e .zero).double.double) := by
  rw [Block.double_eq (e .zero).double, Block.double_eq (e .zero)]
  rfl

theorem ofBytes_append_zeroes (l : Bytes) (k : Nat) :
    Block.ofBytes (l ++ List.replicate k 0) = Block.ofBytes l := by
  refine Vector.ext fun i hi => ?_
  simp only [Block.ofBytes, Vector.getElem_ofFn, List.getD_eq_getElem?_getD]
  by_cases h : i < l.length
  · rw [List.getElem?_append_left h]
  · rw [List.getElem?_append_right (Nat.not_lt.1 h), List.getElem?_eq_none (Nat.not_lt.1 h)]
    by_cases hk : i - l.length < k
    · simp [hk]
    · simp [Nat.not_lt.1 hk]

section Code

variable (e : Block → Block) {msg : Bytes} (p : Cmac.Partition 16 msg)

/-- The loop over the complete blocks stays inside the message. -/
theorem cmac_loop (ms : List Bytes) (hms : ∀ m ∈ ms, m.length = 16) (rest : Bytes) (c : Block) :
    (List.range ms.length).foldlM (fun x i => do
      let m ← slice (ms.flatten ++ rest) (i * 16) 16
      pure (e (x ^^^ Block.ofBytes m))) c =
      (.ok (nistCmac.chain e c (ms.map Block.ofBytes)) : Except Fault Block) := by
  induction ms using List.reverseRecOn generalizing rest with
  | nil => rfl
  | append_singleton ms m ih =>
    have hlen := Cmac.Partition.length_flatten fun m hm => hms m (List.mem_append_left _ hm)
    have hm := hms m (by simp)
    have hflat : (ms ++ [m]).flatten ++ rest = ms.flatten ++ (m ++ rest) := by simp
    rw [List.length_append, List.length_singleton, List.range_succ, List.foldlM_append, hflat,
      ih (fun m hm => hms m (List.mem_append_left _ hm))]
    simp only [List.foldlM_cons, List.foldlM_nil, bind, Except.bind]
    rw [slice_of_le (by rw [List.length_append, hlen, List.length_append, hm]; omega),
      List.drop_left' (by omega), List.take_left' hm]
    simp [Cmac.Scheme.chain, nistCmac]
    rfl

include p in
/-- One block is left for the end. -/
theorem cmac_count :
    (if msg.length = 0 then 1 else (msg.length + 15) / 16) - 1 = p.init.length ∧
      msg.drop (p.init.length * 16) = p.last := by
  have hlen := p.length_whole
  refine ⟨?_, ?_⟩
  · rw [p.length_init (by decide)]
    split
    · rename_i h0
      simp [h0]
    · rfl
  · have h := congrArg (List.drop (p.init.length * 16)) p.whole
    rw [List.drop_left' (by rw [Cmac.Partition.length_flatten p.complete, Nat.mul_comm])] at h
    exact h.symm

include p in
theorem complete_iff : (msg.length ≠ 0 ∧ msg.length % 16 = 0) ↔ p.last.length = 16 := by
  have hlen := p.length_whole
  have hle := p.last_le
  constructor
  · rintro ⟨h0, hmod⟩
    have hne := p.last_ne_nil (List.ne_nil_of_length_pos (Nat.pos_of_ne_zero h0))
    have := List.length_pos_iff.2 hne
    omega
  · intro h
    omega

/-- The last block of SP 800-38B, in the code's terms. -/
theorem final_eq : nistCmac.final e p.last =
    if msg.length ≠ 0 ∧ msg.length % 16 = 0 then Block.ofBytes p.last ^^^ (e .zero).double
    else Block.ofBytes (p.last ++ [0x80]) ^^^ (e .zero).double.double := by
  rw [if_congr (complete_iff p) rfl rfl, ← ofBytes_append_zeroes (p.last ++ [0x80])]
  rfl

theorem mac_eq (msg : Bytes) :
    let p : Cmac.Partition 16 msg := Cmac.Partition.of nistCmac.pos msg
    nistCmac.mac e msg =
      e (nistCmac.chain e .zero (p.init.map Block.ofBytes) ^^^ nistCmac.final e p.last) := by
  simp [Cmac.Scheme.mac, Cmac.Scheme.chain, nistCmac]

end Code

/-- For every block function and message the code returns the CMAC, and reads the message only. -/
theorem desfireCmacChecked_eq (e : Block → Block) (msg : Bytes) :
    desfireCmacChecked e msg = .ok (nistCmac.mac e msg) := by
  rw [mac_eq]
  set p : Cmac.Partition 16 msg := Cmac.Partition.of nistCmac.pos msg
  obtain ⟨hn, hlast⟩ := cmac_count p
  have hlen := p.length_whole
  have hle := p.last_le
  have hloop := cmac_loop e p.init p.complete p.last .zero
  rw [p.whole] at hloop
  rw [desfireCmacChecked, cmacSubkeysOf_eq, final_eq]
  simp only [hn, hloop]
  by_cases hc : msg.length ≠ 0 ∧ msg.length % 16 = 0
  · have h16 := (complete_iff p).1 hc
    rw [if_pos hc, if_pos hc, slice_of_le (show p.init.length * 16 + 16 ≤ msg.length by omega), hlast,
      List.take_of_length_le hle]
    rfl
  · have h16 := mt (complete_iff p).2 hc
    have hrem : msg.length - p.init.length * 16 = p.last.length := by omega
    have hpad : fill 16 (p.last ++ [0x80]) = .ok (p.last ++ [0x80]) := fill_of_le (by simp; omega)
    rw [if_neg hc, if_neg hc]
    simp only [hrem]
    rcases Nat.eq_zero_or_pos p.last.length with h0 | h0
    · rw [List.length_eq_zero_iff.1 h0] at hpad ⊢
      simp only [List.length_nil, ne_eq, not_true_eq_false, ↓reduceIte, hpad, bind, Except.bind, pure,
        Except.pure]
    · simp only [ne_eq, Nat.ne_of_gt h0, not_false_eq_true, ↓reduceIte, bind, Except.bind, pure,
        Except.pure]
      rw [slice_of_le (by omega), hlast, List.take_length]
      simp only [hpad]

theorem blocks_flatten {ms : List Bytes} (hms : ∀ m ∈ ms, m.length = 16) (rest : Bytes) :
    blocks ms.length (ms.flatten ++ rest) = ms.map Block.ofBytes := by
  induction ms with
  | nil => rfl
  | cons m ms ih =>
    have hm := hms m (by simp)
    have hfirst : Block.ofBytes (m ++ (ms.flatten ++ rest)) = Block.ofBytes m := by
      refine Vector.ext fun i hi => ?_
      simp only [Block.ofBytes, Vector.getElem_ofFn, List.getD_eq_getElem?_getD]
      rw [List.getElem?_append_left (by omega)]
    rw [List.length_cons, List.flatten_cons, List.append_assoc, blocks, hfirst, List.drop_left' hm,
      ih fun m hm => hms m (by simp [hm]), List.map_cons]

/-- The model with AES and without the checks. -/
theorem desfireCmac_eq (aes : Aes) (key : Block) (msg : Bytes) :
    desfireCmac aes key msg = nistCmac.mac (aes.enc key) msg := by
  rw [mac_eq]
  set p : Cmac.Partition 16 msg := Cmac.Partition.of nistCmac.pos msg
  obtain ⟨hn, hlast⟩ := cmac_count p
  have hblocks : blocks p.init.length msg = p.init.map Block.ofBytes := by
    have h := blocks_flatten p.complete p.last
    rwa [p.whole] at h
  have hkeys : cmacSubkeys aes key = cmacSubkeysOf (aes.enc key) := rfl
  rw [desfireCmac, final_eq, hkeys, cmacSubkeysOf_eq]
  simp only [hn, hblocks, hlast]
  rfl

end LeafReader
