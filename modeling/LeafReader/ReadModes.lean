import LeafReader.EncStore

/-!
# The three read modes

One file, read in plain, CMAC and encrypted mode from a card in step. The modes differ at the
caller's buffer: the CMAC path receives the MAC into it, verifies in `verify[256]`, and sets
`*out_len` on an error status where the encrypted path does not.
-/

namespace LeafReader

variable (aes : Aes)

/-- What the caller sees of ReadData in mode `comm`, from a card whose file is in that mode: the
result code, `*out_len` and the first `*out_len` bytes. -/
def readOutcome (h : Host) (c : Card) (n : UInt8) (f : File) (offset length : UInt32) (out : Out)
    (outBuf : Nat) (comm : CommMode) : Except Fault (EspErr × Option Nat × Bytes) :=
  (desfireReadData aes (Card.respond aes) n offset length comm out outBuf
    ⟨h, c.setFile n { f with comm := comm }⟩).map fun r => (r.ret, r.out.respLen, r.out.bytes)

def ModesAgree (h : Host) (c : Card) (n : UInt8) (f : File) (offset length : UInt32) (out : Out)
    (outBuf : Nat) : Prop :=
  readOutcome aes h c n f offset length out outBuf .plain =
      readOutcome aes h c n f offset length out outBuf .cmac ∧
    readOutcome aes h c n f offset length out outBuf .cmac =
      readOutcome aes h c n f offset length out outBuf .encrypted

section Read

variable {h : Host} {c : Card} {n : UInt8} {f : File}

theorem InStep.setFile (hs : InStep h c) (g : File) : InStep h (c.setFile n g) :=
  ⟨hs.live, hs.session⟩

theorem file_setMode (hf : c.file n = some f) (comm : CommMode) :
    (c.setFile n { f with comm := comm }).file n = some { f with comm := comm } := by
  rw [Card.file_setFile c hf, if_pos rfl]

variable (hs : InStep h c) (hf : c.file n = some f) {offset length : UInt32}
  (h1 : 1 ≤ length.toNat) (hfit : pad16 (length.toNat + 4) + 10 ≤ 280) {buf : Bytes}
  {n0 outBuf : Nat} (hb : length.toNat ≤ outBuf)

/-- The bytes of the file that the request names, in its 3-byte fields. -/
def named (f : File) (offset length : UInt32) : Bytes :=
  (f.data.drop (offset.toNat % 2 ^ 24)).take length.toNat

theorem length_named (hin : offset.toNat % 2 ^ 24 + length.toNat ≤ f.data.length) :
    (named f offset length).length = length.toNat := by
  simp [named]
  omega

include h1 hfit in
theorem length_le : length.toNat ≤ 252 ∧ length.toNat % 2 ^ 24 = length.toNat ∧ length.toNat ≠ 0 := by
  have h : length.toNat ≤ 252 := by unfold pad16 at hfit; omega
  exact ⟨h, Nat.mod_eq_of_lt (by omega), by omega⟩

include h1 hfit in
theorem read_of_le (comm : CommMode) (hin : offset.toNat % 2 ^ 24 + length.toNat ≤ f.data.length) :
    ({ f with comm := comm } : File).read (offset.toNat % 2 ^ 24) (length.toNat % 2 ^ 24) =
      some (named f offset length) := by
  obtain ⟨-, hmod, h0⟩ := length_le h1 hfit
  simp only [File.read, hmod, hin, ↓reduceIte, h0]
  rfl

include h1 hfit in
theorem read_of_lt (comm : CommMode) (hout : f.data.length < offset.toNat % 2 ^ 24 + length.toNat) :
    ({ f with comm := comm } : File).read (offset.toNat % 2 ^ 24) (length.toNat % 2 ^ 24) = none := by
  obtain ⟨-, hmod, -⟩ := length_le h1 hfit
  simp only [File.read, hmod, Nat.not_le.2 hout, ↓reduceIte]

/-! ### In the bounds of the file -/

section Inside

variable (hin : offset.toNat % 2 ^ 24 + length.toNat ≤ f.data.length)
include hf h1 hfit hb hin

theorem readOutcome_plain :
    readOutcome aes h c n f offset length ⟨some buf, some n0⟩ outBuf .plain =
      .ok (.ok, some length.toNat, named f offset length) := by
  obtain ⟨h252, -, -⟩ := length_le h1 hfit
  have hlen := length_named hin
  rw [readOutcome, desfireReadData, desfireXfer_eq _ _ _ _ _ (by simp), Card.respond_read,
    Card.readFile_plain aes _ (file_setMode hf .plain) rfl, read_of_le h1 hfit _ hin]
  simp only
  rw [receive_answer _ _ (by omega) (by omega)]
  simp [Except.map, ofStatus, Out.put, Out.bytes, hlen]

include hs

theorem readOutcome_cmac :
    readOutcome aes h c n f offset length ⟨some buf, some n0⟩ outBuf .cmac =
      if outBuf < length.toNat + 8 then .ok (.fail, some n0, buf.take n0)
      else if 249 < length.toNat then .error .overrun
      else .ok (.ok, some length.toNat, named f offset length) := by
  obtain ⟨h252, -, -⟩ := length_le h1 hfit
  have hlen := length_named hin
  set card := c.setFile n { f with comm := .cmac } with hcard
  set d := named f offset length ++ h.session.bump.mac8 aes 0x00 (named f offset length) with hd
  have hdlen : d.length = length.toNat + 8 := by simp [d, hlen]
  have hx := Card.readFile_secured aes (hs.setFile { f with comm := .cmac }) offset length
    (file_setMode hf .cmac) (by simp)
  rw [read_of_le h1 hfit _ hin] at hx
  simp only [reduceCtorEq, ↓reduceIte] at hx
  rw [← Card.respond_read] at hx
  rw [readOutcome, desfireReadData_cmac_of_auth _ _ hs.live.authenticated,
    cmacAppendAndSend_sent _ _ _ _ _ (by simp), hx]
  show Except.map _ (cmacFinish aes (receive _ outBuf ⟨h, card.setSession (some h.session.bump)⟩
    (.answer 0x00 d))) = _
  split
  · rw [receive_answer_of_lt _ _ (by omega) (by omega)]
    rfl
  · have hacc : (LinkResult.answer 0x00 d).accept [0x00, 0xAF] outBuf = some (0x00, d) :=
      LinkResult.accept_eq_some.2 ⟨LinkResult.parse_answer _ (by omega), by simp, by omega⟩
    have hmac : MacMatches aes (World.setStatus ⟨h, card.setSession (some h.session.bump)⟩
        0x00).bumpCtr.host 0x00 d :=
      macMatches_mac8 aes (w := World.setStatus ⟨h, card.setSession (some h.session.bump)⟩ 0x00)
        ⟨hs.live.authenticated, hs.live.macKey⟩ _
    rw [cmacFinish_of_accept aes _ _ hacc, cmacVerify_put, if_neg (by omega)]
    by_cases h249 : 249 < length.toNat
    · rw [if_pos (by omega), if_pos h249]
      rfl
    · rw [if_neg (by omega), if_pos hmac, if_neg h249]
      simp [Except.map, Out.bytes, hdlen, d, ← hlen]

theorem readOutcome_encrypted :
    readOutcome aes h c n f offset length ⟨some buf, some n0⟩ outBuf .encrypted =
      .ok (.ok, some length.toNat, named f offset length) := by
  obtain ⟨h252, -, -⟩ := length_le h1 hfit
  have hlen := length_named hin
  set card := c.setFile n { f with comm := .encrypted } with hcard
  have hx := Card.readFile_secured aes (hs.setFile { f with comm := .encrypted }) offset length
    (file_setMode hf .encrypted) (by simp)
  rw [read_of_le h1 hfit _ hin] at hx
  simp only [↓reduceIte] at hx
  rw [← Card.respond_read] at hx
  have h0 : ¬ (length = 0 ∨ length.toNat > outBuf) := by
    rintro (rfl | h)
    · simp at h1
    · omega
  have hrecv := desfireEncRecv_seal aes (w := ⟨h, card⟩) hs.live (Card.respond aes)
    ⟨some buf, some n0⟩ (by simp) (by omega)
    (show (named f offset length).length ≤ outBuf by omega) hx
  rw [hlen] at hrecv
  rw [readOutcome, desfireReadData_encrypted_of_auth _ _ hs.live.authenticated, if_neg h0, hrecv]
  simp [Except.map, ofStatus, Out.put, Out.bytes, hlen]

end Inside

/-! ### Out of the bounds of the file -/

section Outside

variable (hout : f.data.length < offset.toNat % 2 ^ 24 + length.toNat)
include hf h1 hfit hout

theorem readOutcome_plain_refused :
    readOutcome aes h c n f offset length ⟨some buf, some n0⟩ outBuf .plain =
      .ok (.fail, some 0, []) := by
  rw [readOutcome, desfireReadData, desfireXfer_eq _ _ _ _ _ (by simp), Card.respond_read,
    Card.readFile_plain aes _ (file_setMode hf .plain) rfl, read_of_lt h1 hfit _ hout]
  simp only [Card.refuse]
  rw [receive_answer _ _ (by simp) (by simp)]
  simp [Except.map, ofStatus, Out.put, Out.bytes]

include hs

theorem respond_refused {comm : CommMode} (hc : comm ≠ .plain) :
    Card.respond aes (c.setFile n { f with comm := comm })
        (apdu 0xBD (cmacParams aes h 0xBD (fileHeader n offset length) [])) =
      (.answer 0xBE [], c.setFile n { f with comm := comm }) := by
  rw [Card.respond_read, Card.readFile_secured aes (hs.setFile _) _ _ (file_setMode hf comm) hc,
    read_of_lt h1 hfit _ hout]
  rfl

theorem readOutcome_cmac_refused :
    readOutcome aes h c n f offset length ⟨some buf, some n0⟩ outBuf .cmac =
      .ok (.fail, some 0, []) := by
  rw [readOutcome, desfireReadData_cmac_of_auth _ _ hs.live.authenticated,
    cmacAppendAndSend_sent _ _ _ _ _ (by simp), respond_refused aes hs hf h1 hfit hout (by simp)]
  simp only
  rw [receive_answer _ _ (by simp) (by simp)]
  simp [Except.map, cmacFinish, Out.put, Out.bytes]

include hb in
theorem readOutcome_encrypted_refused :
    readOutcome aes h c n f offset length ⟨some buf, some n0⟩ outBuf .encrypted =
      .ok (.fail, some n0, buf.take n0) := by
  have h0 : ¬ (length = 0 ∨ length.toNat > outBuf) := by
    rintro (rfl | h)
    · simp at h1
    · omega
  rw [readOutcome, desfireReadData_encrypted_of_auth _ _ hs.live.authenticated, if_neg h0,
    desfireEncRecv_sent aes _ _ _ hs.live.authenticated (by simp) hb,
    respond_refused aes hs hf h1 hfit hout (by simp)]
  simp only
  rw [receive_answer _ _ (by simp) (by simp)]
  rfl

end Outside

/-- Every read whose reply fits a frame has the same outcome in the three modes if and only if it is
in the bounds of the file, with room for the MAC in the caller's buffer and in `verify[256]`, or it
is out of them and the caller's `*out_len` is 0. -/
theorem modesAgree_iff (hs : InStep h c) (hf : c.file n = some f) (h1 : 1 ≤ length.toNat)
    (hfit : pad16 (length.toNat + 4) + 10 ≤ 280) (hb : length.toNat ≤ outBuf) :
    ModesAgree aes h c n f offset length ⟨some buf, some n0⟩ outBuf ↔
      if offset.toNat % 2 ^ 24 + length.toNat ≤ f.data.length then
        length.toNat + 8 ≤ outBuf ∧ length.toNat ≤ 249
      else n0 = 0 := by
  unfold ModesAgree
  split
  · rename_i hin
    rw [readOutcome_plain aes hf h1 hfit hb hin, readOutcome_cmac aes hs hf h1 hfit hb hin,
      readOutcome_encrypted aes hs hf h1 hfit hb hin]
    by_cases h8 : outBuf < length.toNat + 8
    · simp [h8]
    · by_cases h249 : 249 < length.toNat
      · simp [h8, h249]
      · simp [h8, h249]
        omega
  · rename_i hout
    rw [readOutcome_plain_refused aes hf h1 hfit (by omega),
      readOutcome_cmac_refused aes hs hf h1 hfit (by omega),
      readOutcome_encrypted_refused aes hs hf h1 hfit hb (by omega)]
    cases n0 <;> simp

end Read

theorem modesAgree_roomy :
    ModesAgree Aes128.aes128 zeroHost (zeroCard .cmac) 1 ⟨.cmac, 0, List.replicate 4 0⟩ 1 2 (.buf 10)
      10 :=
  (modesAgree_iff Aes128.aes128 (c := zeroCard .cmac) ⟨live_zeroHost, rfl⟩ rfl (by decide) (by decide)
    (by decide)).2 (by decide)

/-- The same read into a buffer of two bytes, the length the caller asks for. -/
theorem not_modesAgree_exact :
    ¬ ModesAgree Aes128.aes128 zeroHost (zeroCard .cmac) 1 ⟨.cmac, 0, List.replicate 4 0⟩ 1 2 (.buf 2)
      2 := by
  rintro ⟨h, -⟩
  have hs : InStep zeroHost (zeroCard .cmac) := ⟨live_zeroHost, rfl⟩
  rw [Out.buf, readOutcome_plain Aes128.aes128 rfl (by decide) (by decide) (by decide) (by decide),
    readOutcome_cmac Aes128.aes128 hs rfl (by decide) (by decide) (by decide) (by decide),
    if_pos (by decide)] at h
  cases h

end LeafReader
