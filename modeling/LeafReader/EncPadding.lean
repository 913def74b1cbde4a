import LeafReader.Crc32
import LeafReader.CardSpec

/-!
# The padding of an encrypted request

`pad_to_block` adds nothing to a plaintext that fills its blocks. Two requests still never share a
plaintext: where one of them is padded and the other is not, the checksum of the longer one is wrong.
-/

namespace LeafReader

/-! ### A checksum behind a padded checksum -/

theorem crc_ne_padded (pre d1 d2 : Bytes) (j : Nat) :
    d2 ++ le32 (desfireCrc32 (pre ++ d2)) ≠
      d1 ++ le32 (desfireCrc32 (pre ++ d1)) ++ (0x80 : UInt8) :: List.replicate j 0 := by
  intro h
  have hs := congrArg crcSymbols h
  rw [crcSymbols_crc, crcSymbols_append (d1 ++ _), crcSymbols_crc] at hs
  have hfill : crcSymbols ((0x80 : UInt8) :: List.replicate j 0) = 0x80#8 :: List.replicate j 0 := by
    simp [crcSymbols]
  rw [hfill] at hs
  exact Crc.codeword_ne_append (by decide) (by decide) (by decide) _ _ _ (by decide) j hs

/-! ### Padded strings -/

/-- The fill of a last partial block: nothing, or `0x80` and zeroes. -/
theorem pad80_cases (l : Bytes) :
    pad80 l = l ∨ ∃ j, pad80 l = l ++ (0x80 : UInt8) :: List.replicate j 0 := by
  unfold pad80
  cases h : (16 - l.length % 16) % 16 with
  | zero => exact .inl (by simp)
  | succ j => exact .inr ⟨j, by rw [List.take_succ_cons, List.take_replicate, Nat.min_eq_left (by omega)]⟩

/-- Before the zeroes at its end a string can be read back. -/
theorem fill_inj {a b : UInt8} (ha : a ≠ 0) (hb : b ≠ 0) {x y : Bytes} {i j : Nat}
    (h : x ++ a :: List.replicate i 0 = y ++ b :: List.replicate j 0) : x = y := by
  have hrev := congrArg List.reverse h
  simp only [List.reverse_append, List.reverse_cons, List.reverse_replicate, List.append_assoc,
    List.singleton_append] at hrev
  rw [← List.reverse_inj]
  clear h
  induction i generalizing j with
  | zero =>
    cases j with
    | zero => exact (List.cons.inj hrev).2
    | succ j => exact absurd (List.cons.inj hrev).1 ha
  | succ i ih =>
    cases j with
    | zero => exact absurd (List.cons.inj hrev).1.symm hb
    | succ j => exact ih (List.cons.inj hrev).2

theorem data_inj {pre d1 d2 : Bytes}
    (h : d1 ++ le32 (desfireCrc32 (pre ++ d1)) = d2 ++ le32 (desfireCrc32 (pre ++ d2))) : d1 = d2 := by
  refine (List.append_inj h ?_).1
  have := congrArg List.length h
  simpa using this

/-- Data is determined by its plaintext, whether or not either one is padded. -/
theorem pad80_crc_inj {pre d1 d2 : Bytes}
    (h : pad80 (d1 ++ le32 (desfireCrc32 (pre ++ d1))) = pad80 (d2 ++ le32 (desfireCrc32 (pre ++ d2)))) :
    d1 = d2 := by
  rcases pad80_cases (d1 ++ le32 (desfireCrc32 (pre ++ d1))) with h1 | ⟨i, h1⟩
  · rcases pad80_cases (d2 ++ le32 (desfireCrc32 (pre ++ d2))) with h2 | ⟨j, h2⟩
    · rw [h1, h2] at h
      exact data_inj h
    · rw [h1, h2] at h
      exact absurd h (crc_ne_padded pre d2 d1 j)
  · rcases pad80_cases (d2 ++ le32 (desfireCrc32 (pre ++ d2))) with h2 | ⟨j, h2⟩
    · rw [h1, h2] at h
      exact absurd h.symm (crc_ne_padded pre d1 d2 i)
    · rw [h1, h2] at h
      exact data_inj (fill_inj (by decide) (by decide) h)

/-! ### `desfire_enc_send` -/

theorem encSendPlain_ok {cmd : UInt8} {header data plain : Bytes}
    (h : encSendPlain cmd header data = .ok plain) (hne : plain ≠ []) :
    plain = pad80 (data ++ le32 (desfireCrc32 ([cmd] ++ header ++ data))) := by
  rcases encSendPlain_ok_cases h with hnil | ⟨hlen, hplain⟩
  · exact absurd hnil hne
  · rw [hplain, encPlain]
    exact padToBlock_eq (by simp [pad16]; omega)

/-- Different data under one command and header never makes the same plaintext. -/
theorem encSendPlain_ne {cmd : UInt8} {header d1 d2 p1 p2 : Bytes} (hd : d1 ≠ d2)
    (h1 : encSendPlain cmd header d1 = .ok p1) (hp1 : p1 ≠ [])
    (h2 : encSendPlain cmd header d2 = .ok p2) (hp2 : p2 ≠ []) : p1 ≠ p2 := by
  rw [encSendPlain_ok h1 hp1, encSendPlain_ok h2 hp2]
  exact fun h => hd (pad80_crc_inj h)

theorem encPlain_ne_nil (cmd : UInt8) (header : Bytes) {data : Bytes} (h : data.length ≤ 252) :
    encPlain cmd header data ≠ [] := by
  intro hnil
  have hlen := length_encPlain cmd header h
  rw [hnil, pad16, List.length_nil] at hlen
  omega

/-- No data, which is padded, and twelve bytes, which are not. -/
theorem encSendPlain_ne_aligned :
    encPlain 0x3D (fileHeader 1 0 12) [] ≠ encPlain 0x3D (fileHeader 1 0 12) (List.replicate 12 0) :=
  encSendPlain_ne (by simp) (encSendPlain_of_le rfl (by simp)) (encPlain_ne_nil _ _ (by simp))
    (encSendPlain_of_le rfl (by simp)) (encPlain_ne_nil _ _ (by simp))

end LeafReader
