import Mathlib.Data.LawfulXor.Basic
import Mathlib.Data.UInt
import Mathlib.Data.Vector.Basic
import Mathlib.Tactic.Linarith

/-!
# Byte strings and 16-byte blocks

Little-endian fields, 16-byte blocks with bytewise exclusive or, and the passage between byte
strings whose length is a multiple of 16 and lists of blocks.
-/

namespace LeafReader

abbrev Bytes := List UInt8

/-! ### Little-endian fields -/

def le16 (n : UInt16) : Bytes := [n.toUInt8, (n >>> 8).toUInt8]

def le24 (n : UInt32) : Bytes := [n.toUInt8, (n >>> 8).toUInt8, (n >>> 16).toUInt8]

def le32 (n : UInt32) : Bytes :=
  [n.toUInt8, (n >>> 8).toUInt8, (n >>> 16).toUInt8, (n >>> 24).toUInt8]

/-- The value of a 3-byte little-endian field. -/
def ofLe24 (b : Bytes) : Nat :=
  (b.getD 0 0).toNat + 256 * (b.getD 1 0).toNat + 65536 * (b.getD 2 0).toNat

def ofLe16 (b : Bytes) : UInt16 := (b.getD 0 0).toUInt16 ||| ((b.getD 1 0).toUInt16 <<< 8)

def ofLe32 (b : Bytes) : UInt32 :=
  (b.getD 0 0).toUInt32 ||| ((b.getD 1 0).toUInt32 <<< 8) ||| ((b.getD 2 0).toUInt32 <<< 16) |||
    ((b.getD 3 0).toUInt32 <<< 24)

@[simp] theorem length_le16 (n : UInt16) : (le16 n).length = 2 := rfl

@[simp] theorem length_le24 (n : UInt32) : (le24 n).length = 3 := rfl

@[simp] theorem length_le32 (n : UInt32) : (le32 n).length = 4 := rfl

theorem ofLe24_le24 (n : UInt32) (l : Bytes) : ofLe24 (le24 n ++ l) = n.toNat % 2 ^ 24 := by
  have h8 : n.toNat >>> 8 = n.toNat / 256 := by rw [Nat.shiftRight_eq_div_pow]
  have h16 : n.toNat >>> 16 = n.toNat / 65536 := by rw [Nat.shiftRight_eq_div_pow]
  simp [ofLe24, le24, h8, h16]
  omega

theorem ofLe16_le16 (n : UInt16) (rest : Bytes) : ofLe16 (le16 n ++ rest) = n := by
  apply UInt16.eq_of_toBitVec_eq
  apply BitVec.eq_of_getLsbD_eq
  intro i hi
  have h8 : UInt16.toBitVec 8 % 16 = 8#16 := rfl
  simp only [ofLe16, le16, List.cons_append, List.nil_append, List.getD_cons_zero, List.getD_cons_succ,
    UInt16.toBitVec_or, UInt16.toBitVec_shiftLeft, UInt8.toBitVec_toUInt16, UInt16.toBitVec_toUInt8,
    UInt16.toBitVec_shiftRight, h8, BitVec.shiftLeft_eq', BitVec.ushiftRight_eq', BitVec.toNat_ofNat,
    BitVec.getLsbD_or, BitVec.getLsbD_setWidth, BitVec.getLsbD_shiftLeft, BitVec.getLsbD_ushiftRight]
  have hcases : i < 8 ∨ (8 ≤ i ∧ i < 16) := by omega
  rcases hcases with h | ⟨h, h'⟩
  · simp [hi, h]
  · simp [hi, show ¬ i < 8 by omega,
      show i - 8 < 8 by omega, show i - 8 < 16 by omega, show 8 + (i - 8) = i by omega]

theorem ofLe32_le32 (n : UInt32) (l : Bytes) : ofLe32 (le32 n ++ l) = n := by
  apply UInt32.eq_of_toBitVec_eq
  apply BitVec.eq_of_getLsbD_eq
  intro i hi
  have h8 : UInt32.toBitVec 8 % 32 = 8#32 := rfl
  have h16 : UInt32.toBitVec 16 % 32 = 16#32 := rfl
  have h24 : UInt32.toBitVec 24 % 32 = 24#32 := rfl
  simp only [ofLe32, le32, List.cons_append, List.nil_append, List.getD_cons_zero,
    List.getD_cons_succ, UInt32.toBitVec_or, UInt32.toBitVec_shiftLeft, UInt8.toBitVec_toUInt32,
    UInt32.toBitVec_toUInt8, UInt32.toBitVec_shiftRight, h8, h16, h24, BitVec.shiftLeft_eq',
    BitVec.ushiftRight_eq', BitVec.toNat_ofNat, BitVec.getLsbD_or, BitVec.getLsbD_setWidth,
    BitVec.getLsbD_shiftLeft, BitVec.getLsbD_ushiftRight]
  -- bit `i` comes from byte `i / 8`
  have : i < 8 ∨ (8 ≤ i ∧ i < 16) ∨ (16 ≤ i ∧ i < 24) ∨ (24 ≤ i ∧ i < 32) := by omega
  rcases this with h | ⟨h, h'⟩ | ⟨h, h'⟩ | ⟨h, h'⟩
  · simp [hi, h, show i < 16 by omega, show i < 24 by omega]
  · simp [hi, h', show ¬ i < 8 by omega, show i < 24 by omega, show i - 8 < 8 by omega,
      show i - 8 < 32 by omega, show 8 + (i - 8) = i by omega]
  · simp [hi, h', show ¬ i < 8 by omega, show ¬ i < 16 by omega, show ¬ i - 8 < 8 by omega,
      show i - 16 < 8 by omega, show i - 16 < 32 by omega, show 16 + (i - 16) = i by omega]
  · simp [hi, show ¬ i < 8 by omega, show ¬ i < 16 by omega, show ¬ i < 24 by omega,
      show ¬ i - 8 < 8 by omega, show ¬ i - 16 < 8 by omega, show i - 24 < 8 by omega,
      show i - 24 < 32 by omega, show 24 + (i - 24) = i by omega]

theorem le16_injective {m n : UInt16} (h : le16 m = le16 n) : m = n := by
  rw [← ofLe16_le16 m [], h, ofLe16_le16]

/-! ### Blocks -/

abbrev Block := Vector UInt8 16

namespace Block

instance : XorOp Block := ⟨fun a b => Vector.zipWith (· ^^^ ·) a b⟩

/-- The first 16 bytes of `l`, filled up with zeroes. -/
def ofBytes (l : Bytes) : Block := Vector.ofFn fun i => l.getD i 0

def zero : Block := Vector.replicate 16 0

theorem xor_def (a b : Block) : a ^^^ b = Vector.zipWith (· ^^^ ·) a b := rfl

@[simp] theorem getElem_xor (a b : Block) (i : Nat) (h : i < 16) : (a ^^^ b)[i] = a[i] ^^^ b[i] := by
  simp [xor_def]

instance : LawfulXor Block where
  xor_assoc a b c := Vector.ext fun i hi => by simp only [getElem_xor, xor_assoc]
  xor_self a := Vector.ext fun i hi => by simp
  xor_zero a := Vector.ext fun i hi => by simp
  xor_comm a b := Vector.ext fun i hi => by simp only [getElem_xor, UInt8.xor_comm]

@[simp] theorem ofBytes_toList (b : Block) (l : Bytes) : ofBytes (b.toList ++ l) = b := by
  ext i hi
  simp [ofBytes, List.getD_eq_getElem?_getD, List.getElem?_append]

@[simp] theorem ofBytes_toList' (b : Block) : ofBytes b.toList = b := by
  have := ofBytes_toList b []
  rwa [List.append_nil] at this

theorem toList_ofBytes {l : Bytes} (h : 16 ≤ l.length) : (ofBytes l).toList = l.take 16 := by
  apply List.ext_getElem
  · simp; omega
  · intro i h1 h2
    have hi : i < 16 := by simpa using h1
    simp [ofBytes, List.getD_eq_getElem?_getD, List.getElem?_eq_getElem (show i < l.length by omega)]

theorem toList_ofBytes_of_le {l : Bytes} (h : l.length ≤ 16) :
    (ofBytes l).toList = l ++ List.replicate (16 - l.length) 0 := by
  apply List.ext_getElem
  · simp; omega
  · intro i h1 h2
    by_cases hi : i < l.length
    · simp [ofBytes, List.getD_eq_getElem?_getD, hi]
    · simp [ofBytes, List.getD_eq_getElem?_getD, hi, List.getElem_append]

end Block

def blocks : Nat → Bytes → List Block
  | 0, _ => []
  | n + 1, l => Block.ofBytes l :: blocks n (l.drop 16)

/-- The whole blocks of `l`; a last partial block is left out. -/
def toBlocks (l : Bytes) : List Block := blocks (l.length / 16) l

def ofBlocks (bs : List Block) : Bytes := bs.flatMap Vector.toList

@[simp] theorem ofBlocks_nil : ofBlocks [] = [] := rfl

@[simp] theorem ofBlocks_cons (b : Block) (bs : List Block) :
    ofBlocks (b :: bs) = b.toList ++ ofBlocks bs := rfl

@[simp] theorem length_ofBlocks (bs : List Block) : (ofBlocks bs).length = 16 * bs.length := by
  induction bs with
  | nil => rfl
  | cons b bs ih => simp [ih]; omega

@[simp] theorem length_blocks (n : Nat) (l : Bytes) : (blocks n l).length = n := by
  induction n generalizing l with
  | zero => rfl
  | succ n ih => simp [blocks, ih]

theorem blocks_ofBlocks (bs : List Block) (l : Bytes) : blocks bs.length (ofBlocks bs ++ l) = bs := by
  induction bs with
  | nil => rfl
  | cons b bs ih => simp [blocks, ih]

theorem ofBlocks_blocks (n : Nat) {l : Bytes} (h : 16 * n ≤ l.length) :
    ofBlocks (blocks n l) = l.take (16 * n) := by
  induction n generalizing l with
  | zero => simp [blocks]
  | succ n ih =>
    rw [blocks, ofBlocks_cons, ih (by simp; omega), Block.toList_ofBytes (by omega),
      show 16 * (n + 1) = 16 + 16 * n by omega, List.take_add]

@[simp] theorem toBlocks_ofBlocks (bs : List Block) : toBlocks (ofBlocks bs) = bs := by
  have := blocks_ofBlocks bs []
  rw [List.append_nil] at this
  rw [toBlocks, length_ofBlocks, Nat.mul_div_cancel_left _ (by omega), this]

theorem ofBlocks_toBlocks {l : Bytes} (h : l.length % 16 = 0) : ofBlocks (toBlocks l) = l := by
  rw [toBlocks, ofBlocks_blocks _ (by omega), List.take_of_length_le (by omega)]

end LeafReader
