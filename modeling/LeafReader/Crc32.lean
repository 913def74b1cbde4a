import LeafReader.Crc
import LeafReader.DesfireCrypto

/-!
# What `desfire_crc32` detects

The loop of `desfire_crc32` is a register of 32 bits with the polynomial `0xEDB88320`. The high bit of this
constant is what matters: it makes every step injective, so that messages which differ within 32 consecutive
bits never share a checksum. A message followed by its checksum leaves zero.
-/

namespace LeafReader

/-! ### `desfire_crc32` as a register -/

def crcPoly : BitVec 32 := 0xEDB88320

/-- The bytes of a string as the register takes them. -/
def crcSymbols (l : Bytes) : List (BitVec 8) := l.map UInt8.toBitVec

theorem toBitVec_crc32Bit (c : UInt32) : (crc32Bit c).toBitVec = Crc.step crcPoly c.toBitVec := by
  have hlow : (c &&& 1).toBitVec = (BitVec.ofBool (c.toBitVec.getLsbD 0)).setWidth 32 := by
    rw [UInt32.toBitVec_and]
    exact BitVec.and_one_eq_setWidth_ofBool_getLsbD
  have hshift : (c >>> 1).toBitVec = c.toBitVec >>> 1 := rfl
  rw [crc32Bit, UInt32.toBitVec_xor, UInt32.toBitVec_and, UInt32.toBitVec_neg, hlow, hshift, Crc.step]
  cases c.toBitVec.getLsbD 0 with
  | false => simp
  | true =>
    simp only [↓reduceIte]
    congr 1

theorem toBitVec_iterate (n : Nat) (c : UInt32) :
    (crc32Bit^[n] c).toBitVec = (Crc.step crcPoly)^[n] c.toBitVec := by
  induction n generalizing c with
  | zero => rfl
  | succ n ih => rw [Function.iterate_succ_apply, Function.iterate_succ_apply, ih, toBitVec_crc32Bit]

theorem toBitVec_desfireCrc32 (l : Bytes) :
    (desfireCrc32 l).toBitVec = Crc.run crcPoly 0xFFFFFFFF#32 (crcSymbols l) := by
  have hfold (c : UInt32) : (l.foldl (fun crc b => crc32Bit^[8] (crc ^^^ b.toUInt32)) c).toBitVec =
      Crc.run crcPoly c.toBitVec (crcSymbols l) := by
    induction l generalizing c with
    | nil => rfl
    | cons b l ih =>
      rw [List.foldl_cons, ih, toBitVec_iterate]
      rfl
  exact hfold _

theorem crcSymbols_le32 (c : UInt32) : crcSymbols (le32 c) = Crc.symbols 8 4 c.toBitVec := by
  simp only [crcSymbols, le32, List.map_cons, List.map_nil, Crc.symbols, ← BitVec.shiftRight_add]
  rfl

theorem crcSymbols_append (l m : Bytes) : crcSymbols (l ++ m) = crcSymbols l ++ crcSymbols m :=
  List.map_append

/-- Data and checksum are a codeword, from the register that the bytes before them leave. -/
theorem crcSymbols_crc (pre data : Bytes) :
    crcSymbols (data ++ le32 (desfireCrc32 (pre ++ data))) =
      Crc.codeword crcPoly 4 (Crc.run crcPoly 0xFFFFFFFF#32 (crcSymbols pre)) (crcSymbols data) := by
  rw [crcSymbols_append, crcSymbols_le32, toBitVec_desfireCrc32, crcSymbols_append, Crc.run_append]
  rfl

/-! ### Bursts -/

/-- The bits of a message in the order in which the loop consumes them: the bytes in order, low bit first. -/
def crcBits (m : Bytes) : List Bool := m.flatMap fun b => Crc.bits b.toBitVec

/-- The bits in which two messages of one length differ lie within 32 consecutive positions. -/
def Burst (x y : Bytes) : Prop :=
  ∃ start, ∀ i < 8 * x.length, (crcBits x)[i]? ≠ (crcBits y)[i]? → start ≤ i ∧ i < start + 32

theorem crcBits_eq (m : Bytes) : crcBits m = (crcSymbols m).flatMap Crc.bits := by
  rw [crcBits, crcSymbols, List.flatMap_map]

theorem length_crcBits (m : Bytes) : (crcBits m).length = 8 * m.length := by
  induction m with
  | nil => rfl
  | cons b m ih =>
    rw [crcBits, List.flatMap_cons, List.length_append, Crc.length_bits, List.length_cons, ← crcBits, ih]
    omega

/-- The loop takes the bits one at a time. -/
theorem toBitVec_desfireCrc32_bits (m : Bytes) :
    (desfireCrc32 m).toBitVec = Crc.runBits crcPoly 0xFFFFFFFF#32 (crcBits m) := by
  rw [toBitVec_desfireCrc32, Crc.run_eq_runBits crcPoly (by decide), crcBits_eq]

theorem eq_of_crcBits_eq {x y : Bytes} (hlen : x.length = y.length) (h : crcBits x = crcBits y) : x = y := by
  rw [crcBits_eq, crcBits_eq] at h
  have hsymbols := Crc.flatMap_bits_injective (by simpa [crcSymbols] using hlen) h
  exact List.map_injective_iff.2 (fun _ _ => UInt8.toBitVec_inj.1) hsymbols

theorem eq_of_burst {x y : Bytes} (hlen : x.length = y.length) (hburst : Burst x y)
    (h : desfireCrc32 x = desfireCrc32 y) : x = y := by
  obtain ⟨start, hin⟩ := hburst
  rw [← length_crcBits] at hin
  have hbits : (crcBits x).length = (crcBits y).length := by rw [length_crcBits, length_crcBits, hlen]
  have hrun := congrArg UInt32.toBitVec h
  rw [toBitVec_desfireCrc32_bits, toBitVec_desfireCrc32_bits] at hrun
  exact eq_of_crcBits_eq hlen (Crc.eq_of_burst (by decide) hbits hin hrun)

theorem desfireCrc32_residue (m : Bytes) : desfireCrc32 (m ++ le32 (desfireCrc32 m)) = 0 := by
  apply UInt32.toBitVec_inj.1
  have hcode := crcSymbols_crc [] m
  rw [List.nil_append] at hcode
  rw [toBitVec_desfireCrc32, hcode]
  exact Crc.run_codeword crcPoly (by decide) _ _

/-- Messages of one length that differ, but only within 32 consecutive bits, have different checksums, and
a message followed by its checksum has the checksum zero. -/
theorem desfireCrc32_detects :
    (∀ x y : Bytes, x.length = y.length → x ≠ y → Burst x y → desfireCrc32 x ≠ desfireCrc32 y) ∧
      ∀ m : Bytes, desfireCrc32 (m ++ le32 (desfireCrc32 m)) = 0 := by
  refine ⟨?_, desfireCrc32_residue⟩
  intro x y hlen hne hburst h
  exact hne (eq_of_burst hlen hburst h)

/-- A burst over the whole 32 bits, from bit 15 to bit 46, and a message of one byte. -/
theorem desfireCrc32_detects_twoBits :
    desfireCrc32 [0, 0, 0, 0, 0, 0] ≠ desfireCrc32 [0, 0x80, 0, 0, 0, 0x40] ∧
      desfireCrc32 ([0x5A] ++ le32 (desfireCrc32 [0x5A])) = 0 :=
  ⟨desfireCrc32_detects.1 _ _ rfl (by decide) ⟨15, by decide⟩, desfireCrc32_detects.2 [0x5A]⟩

end LeafReader
