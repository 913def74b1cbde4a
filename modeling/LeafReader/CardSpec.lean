import LeafReader.Card

/-!
# The ideal card and the host's wire formats

What the card reads out of the requests the host builds, and what the host makes of the card's
answers, for two parties in step.
-/

namespace LeafReader

variable (aes : Aes)

/-! ### Padding -/

@[simp] theorem length_pad80 (l : Bytes) : (pad80 l).length = pad16 l.length := by
  simp [pad80, pad16]
  omega

theorem length_pad80_mod (l : Bytes) : (pad80 l).length % 16 = 0 := by
  rw [length_pad80]
  exact pad16_mod _

/-- With room for the padding, `pad_to_block` pads as the card does. -/
theorem padToBlock_eq {l : Bytes} {n : Nat} (h : pad16 l.length ≤ n) : padToBlock l n = pad80 l := by
  unfold pad16 at h
  unfold padToBlock pad80
  by_cases h0 : l.length % 16 = 0
  · simp [h0]
  · have h1 : ¬ 16 - l.length % 16 = 0 := by omega
    have h2 : ¬ l.length + (16 - l.length % 16) > n := by omega
    have h3 : (16 - l.length % 16) % 16 = (16 - l.length % 16 - 1) + 1 := by omega
    simp only [h0, h1, h2, ↓reduceIte, h3, List.take_succ_cons, List.take_replicate]
    rw [List.append_assoc, show min (16 - l.length % 16 - 1) 15 = 16 - l.length % 16 - 1 by omega]
    rfl

theorem encPlain_eq {cmd : UInt8} {header data : Bytes} (h : data.length ≤ 252) :
    encPlain cmd header data = pad80 (data ++ le32 (desfireCrc32 ([cmd] ++ header ++ data))) :=
  padToBlock_eq (by simp [pad16]; omega)

/-! ### The card's formulas in the host's terms -/

theorem mac8_eq (s : Session) (first : UInt8) (body : Bytes) :
    s.mac8 aes first body = macTruncate (desfireCmac aes s.kSesAuthMac (macHead first s ++ body)) := by
  rw [Session.mac8, macTruncate_eq, desfireCmac_eq_card]
  rfl

theorem seal_eq (s : Session) (payload : Bytes) :
    s.seal aes payload = desfireAesCbcEncrypt aes s.kSesAuthEnc (desfireEncIv aes s 0x5A 0xA5)
      (pad80 (payload ++ le32 (desfireCrc32 ([0x00] ++ payload)))) := by
  rw [Session.seal, desfireAesCbcEncrypt_eq, desfireEncIv_eq, desfireCrc32_eq]

theorem decrypt_encCipher (s : Session) {plain : Bytes} (h : plain.length % 16 = 0) :
    cardDecrypt aes s.kSesAuthEnc (s.cardIv aes 0xA5 0x5A) (encCipher aes s plain) = plain := by
  rw [← desfireEncIv_eq]
  exact decrypt_encrypt aes _ _ h

/-! ### Requests -/

theorem unmac_append (s : Session) (cmd : UInt8) (body : Bytes) :
    s.unmac aes cmd (body ++ s.mac8 aes cmd body) = some body := by
  simp [Session.unmac]

section Requests

variable {h : Host} (hl : h.Live)
include hl

theorem cmacSession_eq (first : UInt8) (body : Bytes) :
    cmacSession aes h (macHead first h.session ++ body) = h.session.mac8 aes first body := by
  rw [cmacSession, hl.macKey, mac8_eq]

theorem unmac_cmacParams (cmd : UInt8) (header data : Bytes) :
    h.session.unmac aes cmd (cmacParams aes h cmd header data) = some (header ++ data) := by
  rw [cmacParams, List.append_assoc (macHead cmd h.session), cmacSession_eq aes hl]
  exact unmac_append aes h.session cmd (header ++ data)

theorem unmac_encParams (cmd : UInt8) (header plain : Bytes) :
    h.session.unmac aes cmd (encParams aes h cmd header plain) =
      some (header ++ encCipher aes h.session plain) := by
  rw [encParams, List.append_assoc (macHead cmd h.session), cmacSession_eq aes hl]
  exact unmac_append aes h.session cmd _

end Requests

/-- The card decrypts an encrypted request to the data it was built from. -/
theorem unseal_encCipher (s : Session) (cmd : UInt8) (header : Bytes) {data : Bytes}
    (h : data.length ≤ 252) :
    s.unseal aes cmd header (encCipher aes s (encPlain cmd header data)) data.length = some data := by
  have hmod : (encPlain cmd header data).length % 16 = 0 := by
    rw [encPlain_eq h]
    exact length_pad80_mod _
  have htake : (encPlain cmd header data).take data.length = data := by
    rw [encPlain_eq h, pad80, List.append_assoc, List.take_left]
  rw [Session.unseal, decrypt_encCipher aes s hmod]
  simp only [htake, ← desfireCrc32_eq]
  rw [if_pos (encPlain_eq h)]

/-! ### Answers -/

theorem length_seal (s : Session) (payload : Bytes) :
    (s.seal aes payload).length = pad16 (payload.length + 4) := by
  rw [seal_eq, length_desfireAesCbcEncrypt aes _ _ (length_pad80_mod _), length_pad80]
  simp

section Answers

variable {σ : Type} {w : World σ} (hl : w.host.Live)
include hl

theorem live_bumpCtr : w.bumpCtr.host.Live := ⟨hl.authenticated, hl.macKey⟩

theorem macMatches_mac8 (data : Bytes) :
    MacMatches aes w.bumpCtr.host 0x00 (data ++ w.host.session.bump.mac8 aes 0x00 data) := by
  have h := cmacSession_eq aes (live_bumpCtr hl) 0x00 data
  simp only [MacMatches, List.length_append, length_mac8, Nat.add_sub_cancel, List.drop_left,
    List.take_left]
  exact h.symm

theorem encRecvFinish_seal {payload : Bytes} (hp : payload.length ≤ 252) (out : Out) :
    encRecvFinish aes payload.length out (w.host.session.bump.seal aes payload ++
      w.host.session.bump.mac8 aes 0x00 (w.host.session.bump.seal aes payload)) w =
      .ok ⟨some 0x00, out.put payload, w.bumpCtr⟩ := by
  set c := w.host.session.bump.seal aes payload with hc
  have hclen : c.length = pad16 (payload.length + 4) := length_seal aes _ _
  have hmod : c.length % 16 = 0 := by rw [hclen]; exact pad16_mod _
  have hbound : pad16 (payload.length + 4) ≤ 256 ∧ payload.length + 4 ≤ pad16 (payload.length + 4) := by
    unfold pad16; omega
  have hmac := macMatches_mac8 aes hl c
  have hdec : desfireAesCbcDecrypt aes w.bumpCtr.host.session.kSesAuthEnc
      (desfireEncIv aes w.bumpCtr.host.session 0x5A 0xA5) c =
        pad80 (payload ++ le32 (desfireCrc32 ([0x00] ++ payload))) := by
    rw [hc, seal_eq]
    exact decrypt_encrypt aes _ _ (length_pad80_mod _)
  have htake : (pad80 (payload ++ le32 (desfireCrc32 ([0x00] ++ payload)))).take payload.length =
      payload := by rw [pad80, List.append_assoc, List.take_left]
  have hdrop : (pad80 (payload ++ le32 (desfireCrc32 ([0x00] ++ payload)))).drop payload.length =
      le32 (desfireCrc32 ([0x00] ++ payload)) ++
        ((0x80 : UInt8) :: List.replicate 15 0).take
          ((16 - (payload ++ le32 (desfireCrc32 ([0x00] ++ payload))).length % 16) % 16) := by
    rw [pad80, List.append_assoc, List.drop_left]
  have hlen : (c ++ w.host.session.bump.mac8 aes 0x00 c).length - 8 = c.length := by simp
  have h8 : 8 ≤ (c ++ w.host.session.bump.mac8 aes 0x00 c).length := by simp
  have hne := mt (take_drop_ne_iff aes h8).1 (not_not.2 hmac)
  rw [hlen, List.take_left] at hne
  unfold encRecvFinish
  simp only [hlen, List.take_left]
  rw [if_neg (by simp), if_neg (by omega), if_neg hne, if_neg (by omega), if_neg (by omega),
    if_neg (by rw [sizeT_of_lt (by omega)]; omega), if_neg (by rw [sizeT_of_lt (by omega)]; omega),
    if_neg (by omega), hdec, htake, hdrop, ofLe32_le32]
  simp

/-- A request answered by a sealed payload is received, and counted on both sides. -/
theorem desfireEncRecv_seal (nfc : Nfc σ) {cmd : UInt8} {header payload : Bytes} {respBuf : Nat}
    (out : Out) {link : σ} (hh : header.length ≤ 64) (hp : payload.length ≤ 252)
    (hb : payload.length ≤ respBuf)
    (hx : nfc w.link (apdu cmd (cmacParams aes w.host cmd header [])) =
      (.answer 0x00 (w.host.session.bump.seal aes payload ++
        w.host.session.bump.mac8 aes 0x00 (w.host.session.bump.seal aes payload)), link)) :
    desfireEncRecv aes nfc cmd header payload.length out respBuf w =
      .ok ⟨some 0x00, out.put payload, ((⟨w.host, link⟩ : World σ).setStatus 0x00).bumpCtr⟩ := by
  have hbound : pad16 (payload.length + 4) ≤ 256 := by unfold pad16; omega
  have hlen : (w.host.session.bump.seal aes payload ++
      w.host.session.bump.mac8 aes 0x00 (w.host.session.bump.seal aes payload)).length ≤ 264 := by
    simp [length_seal]; omega
  have hacc := LinkResult.accept_eq_some.2 ⟨LinkResult.parse_answer 0x00
    (show _ + 2 ≤ 280 from Nat.add_le_add_right (hlen.trans (by omega)) 2),
    show (0x00 : UInt8) ∈ [0x00] by simp,
    show _ ≤ 280 from hlen.trans (by omega)⟩
  rw [desfireEncRecv_sent aes nfc out w hl.authenticated hh hb, hx,
    encRecvTail_of_accept aes _ _ _ hacc]
  exact encRecvFinish_seal aes (w := (⟨w.host, link⟩ : World σ).setStatus 0x00)
    ⟨hl.authenticated, hl.macKey⟩ hp out

end Answers

/-! ### The handshake -/

/-- The card in the handshake for `keyNo`, and after it. -/
def Card.challenged (c : Card) (keyNo : UInt8) : Card :=
  { c with session := none, pending := some (keyNo, (c.draws c.handshakes).1) }

def Card.established (c : Card) (s : Session) : Card :=
  { c with session := some s, pending := none, handshakes := c.handshakes + 1 }

section Handshake

variable {c : Card} {a : App} (ha : c.app = some a) (keyNo : UInt8)
include ha

theorem Card.startAuth_eq :
    c.startAuth aes keyNo =
      (.answer 0xAF (cardChallenge aes (a.keys keyNo).key (c.draws c.handshakes).1).toList,
        c.challenged keyNo) := by
  simp [startAuth, ha, challenged]

theorem Card.finishAuth_eq (rndA : Block) :
    let key := (a.keys keyNo).key
    let rndB := (c.draws c.handshakes).1
    let ti := (c.draws c.handshakes).2
    let reply := authChallenge aes key rndA (cardChallenge aes key rndB) rndB
    (c.challenged keyNo).finishAuth aes reply =
      (.answer 0x00 (cardAnswer aes key rndA ti (.replicate 12 0) reply),
        c.established (cardSession aes key rndA rndB keyNo ti)) := by
  have ha' : (c.challenged keyNo).app = some a := ha
  intro key rndB ti reply
  have hp : (c.challenged keyNo).pending = some (keyNo, rndB) := rfl
  have hcheck : cardCheck aes key rndB reply = some rndA := cardCheck_authChallenge ..
  simp only [finishAuth, ha', hp]
  rw [hcheck]
  rfl

end Handshake

/-! ### Commands on files -/

section Requests

variable (fileNo : UInt8) (offset length : UInt32) (l : Bytes)

theorem getD_fileHeader : (fileHeader fileNo offset length ++ l).getD 0 0 = fileNo := rfl

theorem ofLe24_fileHeader_offset :
    ofLe24 ((fileHeader fileNo offset length ++ l).drop 1) = offset.toNat % 2 ^ 24 :=
  ofLe24_le24 offset (le24 length ++ l)

theorem ofLe24_fileHeader_length :
    ofLe24 ((fileHeader fileNo offset length ++ l).drop 4) = length.toNat % 2 ^ 24 :=
  ofLe24_le24 length l

end Requests

theorem Card.respond_read (c : Card) (params : Bytes) :
    c.respond aes (apdu 0xBD params) = c.readFile aes c.session params := by
  simp [respond]

theorem Card.respond_write (c : Card) (params : Bytes) :
    c.respond aes (apdu 0x3D params) = c.writeFile aes c.session params := by
  simp [respond]

theorem Card.readFile_plain {c : Card} (s : Option Session) {n : UInt8} {offset length : UInt32}
    {f : File} (hf : c.file n = some f) (hc : f.comm = .plain) :
    c.readFile aes s (fileHeader n offset length) =
      match f.read (offset.toNat % 2 ^ 24) (length.toNat % 2 ^ 24) with
      | none => c.refuse 0xBE
      | some d => (.answer 0x00 d, c) := by
  have hp : fileHeader n offset length = fileHeader n offset length ++ [] := by simp
  rw [hp, readFile, getD_fileHeader, ofLe24_fileHeader_offset, ofLe24_fileHeader_length, hf]
  simp only [hc]
  cases f.read (offset.toNat % 2 ^ 24) (length.toNat % 2 ^ 24) with
  | none => rfl
  | some d => simp

theorem Card.readFile_secured {c : Card} {h : Host} (hs : InStep h c) {n : UInt8}
    (offset length : UInt32) {f : File} (hf : c.file n = some f) (hc : f.comm ≠ .plain) :
    c.readFile aes c.session (cmacParams aes h 0xBD (fileHeader n offset length) []) =
      match f.read (offset.toNat % 2 ^ 24) (length.toNat % 2 ^ 24) with
      | none => c.refuse 0xBE
      | some d => c.reply aes h.session
        (if f.comm = .encrypted then h.session.bump.seal aes d else d) := by
  have hp : cmacParams aes h 0xBD (fileHeader n offset length) [] = fileHeader n offset length ++
      cmacSession aes h (macHead 0xBD h.session ++ fileHeader n offset length ++ []) := by
    simp [cmacParams]
  have hu := unmac_cmacParams aes hs.live 0xBD (fileHeader n offset length) []
  rw [List.append_nil, hp] at hu
  rw [readFile, hp, getD_fileHeader, ofLe24_fileHeader_offset, ofLe24_fileHeader_length, hf]
  cases hm : f.comm with
  | plain => exact absurd hm hc
  | cmac | encrypted =>
    simp only [hm, hs.session, hu]
    cases f.read (offset.toNat % 2 ^ 24) (length.toNat % 2 ^ 24) <;> simp

end LeafReader
