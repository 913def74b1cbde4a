import LeafReader.CardCrypto
import LeafReader.DesfireSpec
import LeafReader.Aes128

/-!
# Which successes rest on a response MAC

An operation under secure messaging sends one request. `okAuthentic_iff` says, for each operation
and each result of the link, when a reported success implies that the answer ended in the right MAC:
for the encrypted receive unless the check on `payload_len` wraps, and for the others unless the
answer is too short to hold a MAC (or `verify[256]` is overrun).
-/

namespace LeafReader

variable {σ : Type} (aes : Aes)

/-- The response data has at least eight bytes and ends in the odd bytes of the CMAC, under the
session MAC key, of `status | cmd_ctr + 1 | TI | preceding bytes`. -/
def Authentic (s : Session) (r : LinkResult) : Prop :=
  ∃ st d, r.parse = some (st, d) ∧ 8 ≤ d.length ∧
    d.drop (d.length - 8) = oddBytes (cardCmac aes s.kSesAuthMac
      ([st] ++ le16 (s.cmdCtr + 1) ++ s.ti.toList ++ d.take (d.length - 8)))

def Op.Secure (s : Session) : Op → Prop
  | .formatPicc | .createApplication .. | .createStdDataFile .. | .getUid _ => True
  | .readData _ _ _ comm _ _ | .writeData _ _ comm _ => comm ≠ .plain
  | .changeKey keyNo _ _ _ => keyNo ≠ s.keyNo
  | .selectApplication _ | .authEv2First .. => False

def answering (r : LinkResult) : Nfc Unit := fun _ _ => (r, ())

/-- The call is defined, and it reports success on the result `r` only if `r` is authentic. -/
def OkAuthentic (h : Host) (op : Op) (r : LinkResult) : Prop :=
  ∃ c, op.run aes (answering r) ⟨h, ()⟩ = .ok c ∧ (c.ret = .ok → Authentic aes h.session r)

/-- The link results on which a success of the operation rests on a MAC. -/
def Op.Verified (s : Session) (r : LinkResult) : Op → Prop
  | .formatPicc | .createApplication .. | .createStdDataFile .. => r.accept [0x00, 0xAF] 0 = none
  | .writeData _ _ .cmac data =>
    (data.length ≤ 240 ∧ r.accept [0x00, 0xAF] 0 = none) ∨ data.length = 241 ∨
      sizeT (7 + data.length) > 256
  | .writeData _ _ .encrypted data =>
    (data.length ≤ 236 ∧ ∀ st d, r.accept [0x00] 64 = some (st, d) → 8 ≤ d.length) ∨
      (236 < data.length ∧ (data.length ≤ 249 ∨ sizeT (8 + data.length) > 257))
  | .changeKey .. => ∀ st d, r.accept [0x00] 16 = some (st, d) → 8 ≤ d.length
  | .readData _ _ _ .cmac out outBuf =>
    ∀ st d, r.accept [0x00, 0xAF] outBuf = some (st, d) →
      (out.respLen = none ∧ Authentic aes s r) ∨
        (out.respLen ≠ none ∧ out.resp ≠ none ∧ 8 ≤ d.length ∧ d.length ≤ 257)
  | .readData _ _ length .encrypted _ outBuf =>
    length = 0xFFFFFFFF → length.toNat ≤ outBuf → ∀ d, r.accept [0x00] 280 = some (0x00, d) →
      24 ≤ d.length → d.length % 16 = 8 → ¬ Authentic aes s r
  | _ => True

/-- In a live session, the check the code makes after counting is authenticity of the answer. -/
theorem authentic_iff {h : Host} (hl : h.Live) {r : LinkResult} {st : UInt8} {d : Bytes}
    (hr : r.parse = some (st, d)) (w : World σ) (hs : w.host.session = h.session)
    (hm : w.host.macKey = h.macKey) :
    Authentic aes h.session r ↔ 8 ≤ d.length ∧ MacMatches aes w.bumpCtr.host st d := by
  have hk : w.bumpCtr.host.macKey = h.session.kSesAuthMac := hm.trans hl.macKey
  constructor
  · rintro ⟨st', d', hr', h8, hm⟩
    obtain ⟨rfl, rfl⟩ : st = st' ∧ d = d' := by simpa [hr] using hr'
    refine ⟨h8, ?_⟩
    rw [MacMatches, cmacSession, hk, World.bumpCtr_session, hs, macTruncate_eq, desfireCmac_eq_card]
    exact hm
  · rintro ⟨h8, hm⟩
    rw [MacMatches, cmacSession, hk, World.bumpCtr_session, hs, macTruncate_eq, desfireCmac_eq_card] at hm
    exact ⟨st, d, hr, h8, hm⟩

theorem not_authentic_of_lt {s : Session} {r : LinkResult} {st : UInt8} {d : Bytes}
    (hr : r.parse = some (st, d)) (h : d.length < 8) : ¬ Authentic aes s r := by
  rintro ⟨st', d', hr', h8, -⟩
  obtain ⟨rfl, rfl⟩ : st = st' ∧ d = d' := by simpa [hr] using hr'
  omega

variable {h : Host} {r : LinkResult}

/-- A CMAC-mode request without a response buffer: an accepted answer is empty, so it never carries
a MAC. -/
theorem cmac_null_iff {cmd : UInt8} {header data : Bytes} (hfit : header.length + data.length ≤ 247) :
    (∃ c, cmacAppendAndSend aes (answering r) cmd header data .null 0 ⟨h, ()⟩ = .ok c ∧
      (c.ret = .ok → Authentic aes h.session r)) ↔ r.accept [0x00, 0xAF] 0 = none := by
  rw [cmacAppendAndSend_sent _ _ _ _ _ hfit]
  simp only [answering]
  cases hr : r.accept [0x00, 0xAF] 0 with
  | none =>
    rw [cmacFinish_of_reject _ _ _ hr]
    exact ⟨fun _ => rfl, fun _ => ⟨_, rfl, fun h => nomatch h⟩⟩
  | some p =>
    obtain ⟨st, d⟩ := p
    rw [cmacFinish_of_accept _ _ _ hr, Out.put_null]
    obtain ⟨hp, -, hd⟩ := LinkResult.accept_eq_some.1 hr
    constructor
    · rintro ⟨c, hc, hok⟩
      cases hc
      exact absurd (hok rfl) (not_authentic_of_lt aes hp (by omega))
    · intro h
      cases h

theorem cmac_read_iff (hl : h.Live) {cmd : UInt8} {header : Bytes} (hfit : header.length ≤ 247)
    (out : Out) (outBuf : Nat) :
    (∃ c, cmacAppendAndSend aes (answering r) cmd header [] out outBuf ⟨h, ()⟩ = .ok c ∧
      (c.ret = .ok → Authentic aes h.session r)) ↔
    ∀ st d, r.accept [0x00, 0xAF] outBuf = some (st, d) →
      (out.respLen = none ∧ Authentic aes h.session r) ∨
        (out.respLen ≠ none ∧ out.resp ≠ none ∧ 8 ≤ d.length ∧ d.length ≤ 257) := by
  rw [cmacAppendAndSend_sent _ _ _ _ _ (by simpa using hfit)]
  simp only [answering]
  cases hr : r.accept [0x00, 0xAF] outBuf with
  | none =>
    rw [cmacFinish_of_reject _ _ _ hr]
    exact ⟨fun _ _ _ h => (nomatch h), fun _ => ⟨_, rfl, fun h => nomatch h⟩⟩
  | some p =>
    obtain ⟨st, d⟩ := p
    obtain ⟨hp, -, -⟩ := LinkResult.accept_eq_some.1 hr
    have ha := authentic_iff aes hl hp ⟨h, ()⟩ rfl rfl
    rw [cmacFinish_of_accept _ _ _ hr]
    simp only [Option.some.injEq, Prod.mk.injEq, and_imp]
    obtain ⟨_ | buf, _ | n⟩ := out
    · simp [cmacVerify, Out.put]
    · by_cases h8 : d.length < 8
      · simp [cmacVerify, Out.put, h8, ha]
      · simp [cmacVerify, Out.put, h8]
    · simp [cmacVerify, Out.put]
    · rw [cmacVerify_put]
      by_cases h8 : d.length < 8
      · simp [h8, ha]
      by_cases h257 : 257 < d.length
      · simp [h8, h257]
      have hm : MacMatches aes (World.setStatus ⟨h, ()⟩ st).bumpCtr.host st d ↔
          MacMatches aes (World.bumpCtr ⟨h, ()⟩).host st d := Iff.rfl
      by_cases hd : MacMatches aes (World.bumpCtr ⟨h, ()⟩).host st d
      · simp [h8, h257, hm, hd, ha, show 8 ≤ d.length by omega, show d.length ≤ 257 by omega]
      · simp [h8, h257, hm, hd, show 8 ≤ d.length by omega, show d.length ≤ 257 by omega]

theorem enc_write_iff (hl : h.Live) {cmd : UInt8} {header data : Bytes} (h7 : header.length = 7)
    (hd : data.length ≤ 236) :
    (∃ c, desfireEncSend aes (answering r) cmd header data .null ⟨h, ()⟩ = .ok c ∧
      (c.ret = some 0x00 → Authentic aes h.session r)) ↔
    ∀ st d, r.accept [0x00] 64 = some (st, d) → 8 ≤ d.length := by
  rw [desfireEncSend_sent aes (answering r) .null ⟨h, ()⟩ hl.authenticated h7 hd]
  simp only [answering]
  cases hr : r.accept [0x00] 64 with
  | none =>
    obtain ⟨ret, hret, he⟩ := encSendTail_of_reject aes .null (World.mk h ()) hr
    rw [he]
    exact ⟨fun _ _ _ h => (nomatch h), fun _ => ⟨_, rfl, fun h => absurd h hret⟩⟩
  | some p =>
    obtain ⟨st, d⟩ := p
    obtain ⟨rfl, hp, -⟩ := LinkResult.accept_singleton.1 hr
    have ha := authentic_iff aes hl hp ⟨h, ()⟩ rfl rfl
    rw [encSendTail_of_accept aes _ hr]
    simp only [Option.some.injEq, Prod.mk.injEq, and_imp]
    by_cases h8 : d.length < 8
    · simp [h8, ha]
    · simp [h8, ha, show 8 ≤ d.length by omega]

theorem map_ofStatus_iff {P : Prop} {e : Except Fault (Call σ (Option UInt8))} :
    (∃ c, e.map ofStatus = .ok c ∧ (c.ret = .ok → P)) ↔ ∃ c, e = .ok c ∧ (c.ret = some 0x00 → P) := by
  cases e with
  | error f => simp [Except.map]
  | ok c =>
    simp only [Except.map, Except.ok.injEq, exists_eq_left', ofStatus]
    by_cases hc : c.ret = some 0x00 <;> simp [hc]

/-- WriteData in encrypted mode: sent, refused, or past the end of `crc_buf[257]`. -/
theorem enc_write_op_iff (hl : h.Live) {cmd : UInt8} {header data : Bytes} (h7 : header.length = 7) :
    (∃ c, (desfireEncSend aes (answering r) cmd header data .null ⟨h, ()⟩).map ofStatus = .ok c ∧
      (c.ret = .ok → Authentic aes h.session r)) ↔
    (data.length ≤ 236 ∧ ∀ st d, r.accept [0x00] 64 = some (st, d) → 8 ≤ d.length) ∨
      (236 < data.length ∧ (data.length ≤ 249 ∨ sizeT (8 + data.length) > 257)) := by
  have hauth : (World.mk h ()).host.session.authenticated = true := hl.authenticated
  have h8 : 1 + header.length + data.length = 8 + data.length := by omega
  rw [map_ofStatus_iff]
  by_cases hsent : data.length ≤ 236
  · rw [enc_write_iff aes hl h7 hsent]
    simp [hsent, show ¬ 236 < data.length by omega]
  by_cases href : data.length ≤ 249 ∨ sizeT (8 + data.length) > 257
  · rw [desfireEncSend_refused aes _ .null _ hauth h7 (by omega) (by rw [h8]; exact href)]
    exact ⟨fun _ => .inr ⟨by omega, href⟩, fun _ => ⟨_, rfl, fun h => nomatch h⟩⟩
  · rw [desfireEncSend_overrun aes _ .null _ hauth h7 (by omega) (by rw [h8]; omega)]
    simp [hsent, not_or.1 href]

/-- The encrypted receive never reports success on an answer that is not authentic; it has no result
when the checks on `payload_len` wrap. -/
theorem enc_recv_iff (hl : h.Live) (cmd : UInt8) {header : Bytes} {payloadLen respBuf : Nat} (out : Out)
    (hh : header.length ≤ 64) (hp : payloadLen ≤ respBuf) :
    (∃ c, desfireEncRecv aes (answering r) cmd header payloadLen out respBuf ⟨h, ()⟩ = .ok c ∧
      (c.ret = some 0x00 → Authentic aes h.session r)) ↔
    ¬ ∃ p ∈ r.accept [0x00] 280, RecvOverruns aes h payloadLen p.2 := by
  rcases desfireEncRecv_cases aes (answering r) cmd out ⟨h, ()⟩ hl.authenticated hh hp with
    ⟨hover, he⟩ | ⟨hno, c, hc, -, -, -, hret⟩
  · rw [he]
    exact iff_of_false (by rintro ⟨c, hc, -⟩; cases hc) (not_not.2 hover)
  · refine iff_of_true ⟨c, hc, fun hok => ?_⟩ hno
    rcases hret with ⟨hne, -⟩ | ⟨-, d, hr, h8, hm, -⟩
    · exact absurd hok hne
    · exact (authentic_iff aes hl (LinkResult.accept_eq_some.1 hr).1 ⟨h, ()⟩ rfl rfl).2 ⟨h8, hm⟩

theorem enc_read_iff (hl : h.Live) {cmd : UInt8} {header : Bytes} {length : UInt32}
    {outBuf : Nat} (out : Out) (hh : header.length ≤ 64) (hp : length.toNat ≤ outBuf) :
    (∃ c, (desfireEncRecv aes (answering r) cmd header length.toNat out outBuf ⟨h, ()⟩).map
      ofStatus = .ok c ∧
      (c.ret = .ok → Authentic aes h.session r)) ↔
    (length = 0xFFFFFFFF → length.toNat ≤ outBuf → ∀ d, r.accept [0x00] 280 = some (0x00, d) →
      24 ≤ d.length → d.length % 16 = 8 → ¬ Authentic aes h.session r) := by
  rw [map_ofStatus_iff, enc_recv_iff aes hl cmd out hh hp]
  constructor
  · rintro hno hmax - d hr h24 h16 hauth
    have hm := ((authentic_iff aes hl (LinkResult.accept_eq_some.1 hr).1 ⟨h, ()⟩ rfl rfl).1 hauth).2
    exact hno ⟨_, hr, (recvOverruns_iff aes).2 ⟨hmax, h24, h16, hm⟩⟩
  · rintro hno ⟨⟨st, d⟩, hr, hover⟩
    obtain ⟨hmax, h24, h16, hm⟩ := (recvOverruns_iff aes).1 hover
    obtain ⟨rfl, hparse, -⟩ := LinkResult.accept_singleton.1 hr
    exact hno hmax hp d hr h24 h16
      ((authentic_iff aes hl hparse ⟨h, ()⟩ rfl rfl).2 ⟨by simp only at h24; omega, hm⟩)

theorem change_key_iff (hl : h.Live) {keyNo : UInt8} (hk : keyNo ≠ h.session.keyNo)
    (old new : Block) (ver : UInt8) :
    ((desfireChangeKey aes (answering r) keyNo old new ver ⟨h, ()⟩).ret = .ok →
      Authentic aes h.session r) ↔
    ∀ st d, r.accept [0x00] 16 = some (st, d) → 8 ≤ d.length := by
  have hsame : (keyNo == h.session.keyNo) = false := by simpa using hk
  rw [desfireChangeKey_sent aes (answering r) keyNo old new ver ⟨h, ()⟩ hl.authenticated]
  simp only [answering, hsame]
  cases hr : r.accept [0x00] 16 with
  | none =>
    rw [changeKeyTail_of_reject aes false _ hr]
    exact ⟨fun _ _ _ h => (nomatch h), fun _ h => nomatch h⟩
  | some p =>
    obtain ⟨st, d⟩ := p
    obtain ⟨rfl, hp, -⟩ := LinkResult.accept_singleton.1 hr
    have ha := authentic_iff aes hl hp ⟨h, ()⟩ rfl rfl
    rw [changeKeyTail_different aes _ hr]
    simp only [Option.some.injEq, Prod.mk.injEq, and_imp]
    by_cases h8 : d.length < 8
    · simp [h8, ha]
    · simp [h8, ha, show 8 ≤ d.length by omega]

/-- WriteData in CMAC mode: sent, refused, or past the end of `params[256]`. -/
theorem cmac_write_iff {cmd : UInt8} {header data : Bytes} (h7 : header.length = 7) :
    (∃ c, cmacAppendAndSend aes (answering r) cmd header data .null 0 ⟨h, ()⟩ = .ok c ∧
      (c.ret = .ok → Authentic aes h.session r)) ↔
    (data.length ≤ 240 ∧ r.accept [0x00, 0xAF] 0 = none) ∨ data.length = 241 ∨
      sizeT (7 + data.length) > 256 := by
  by_cases hsent : data.length ≤ 240
  · have hs : ¬ sizeT (7 + data.length) > 256 := by
      rw [sizeT_of_lt (by omega)]; omega
    rw [cmac_null_iff aes (by omega)]
    simp [hsent, hs, show data.length ≠ 241 by omega]
  by_cases href : data.length = 241 ∨ sizeT (7 + data.length) > 256
  · obtain ⟨e, he, hc⟩ := cmacAppendAndSend_refused aes (answering r) cmd header data .null 0 ⟨h, ()⟩
      (by rw [h7]; omega)
    rw [hc]
    exact ⟨fun _ => .inr href, fun _ => ⟨_, rfl, fun h => absurd h he⟩⟩
  · rw [cmacAppendAndSend_overrun aes (answering r) .null 0 ⟨h, ()⟩ (by rw [h7]; omega) (by omega)]
    simp [hsent, not_or.1 href]

/-- For an operation under secure messaging in a live session and a link result: the call is defined
and its success rests on an authentic answer if and only if the result is one of `Op.Verified`. -/
theorem okAuthentic_iff (hl : h.Live) (op : Op) (hop : op.Secure h.session) :
    OkAuthentic aes h op r ↔ op.Verified aes h.session r := by
  have hauth : (World.mk h ()).host.session.authenticated = true := hl.authenticated
  unfold OkAuthentic
  cases op with
  | selectApplication aid => cases hop
  | authEv2First keyNo key rndA => cases hop
  | formatPicc =>
    rw [Op.run, desfireFormatPicc_of_auth _ _ hauth, cmac_null_iff aes (by simp)]
    rfl
  | createApplication aid ks nk =>
    rw [Op.run, desfireCreateApplication_of_auth _ _ hauth, cmac_null_iff aes (by simp)]
    rfl
  | createStdDataFile fileNo comm rights size =>
    rw [Op.run, desfireCreateStdDataFile_of_auth _ _ hauth, cmac_null_iff aes (by simp)]
    rfl
  | changeKey keyNo old new ver =>
    simp only [Op.run, Op.Verified, Except.ok.injEq, exists_eq_left']
    exact change_key_iff aes hl hop old new ver
  | getUid uid =>
    have hno : ¬ ∃ p ∈ r.accept [0x00] 280, RecvOverruns aes h 7 p.2 := by
      rintro ⟨p, -, hp⟩
      exact not_recvOverruns aes (by omega) hp
    obtain ⟨c, hc, hok⟩ :=
      (enc_recv_iff aes hl 0x51 (.buf 7) (show ([] : Bytes).length ≤ 64 by simp) (Nat.le_refl 7)).2 hno
    simp only [Op.run, Op.Verified, iff_true, desfireGetUid_of_auth _ _ hauth, hc, Except.map,
      Except.ok.injEq, exists_eq_left']
    split
    · exact fun h => nomatch h
    · rename_i hret
      exact fun _ => hok (by simpa using (not_or.1 hret).1)
  | readData fileNo offset length comm out outBuf =>
    cases comm with
    | plain => exact absurd rfl hop
    | cmac =>
      rw [Op.run, desfireReadData_cmac_of_auth _ _ hauth, cmac_read_iff aes hl (by simp)]
      rfl
    | encrypted =>
      rw [Op.run, desfireReadData_encrypted_of_auth _ _ hauth]
      by_cases hbad : length = 0 ∨ length.toNat > outBuf
      · rw [if_pos hbad]
        refine iff_of_true ⟨_, rfl, fun h => nomatch h⟩ ?_
        rintro rfl hb
        rcases hbad with hbad | hbad
        · cases hbad
        · exact absurd hb (Nat.not_le.2 hbad)
      · rw [if_neg hbad, enc_read_iff aes hl out (by simp) (by omega)]
        rfl
  | writeData fileNo offset comm data =>
    cases comm with
    | plain => exact absurd rfl hop
    | cmac =>
      rw [Op.run, desfireWriteData_cmac_of_auth _ _ hauth, cmac_write_iff aes (length_fileHeader ..)]
      rfl
    | encrypted =>
      rw [Op.run, desfireWriteData_encrypted_of_auth _ _ hauth]
      rw [enc_write_op_iff aes hl (length_fileHeader ..)]
      rfl

/-! ### Fixed answers -/

theorem okAuthentic_write :
    OkAuthentic Aes128.aes128 zeroHost (.writeData 1 0 .encrypted [7])
      (.answer 0x00 (List.replicate 8 0)) :=
  (okAuthentic_iff Aes128.aes128 (h := zeroHost) ⟨rfl, rfl⟩ _ (by simp [Op.Secure])).2
    (.inl ⟨by simp, fun st d h => by
      obtain ⟨hp, -, -⟩ := LinkResult.accept_eq_some.1 h
      rw [LinkResult.parse_answer _ (by simp)] at hp
      cases hp
      simp⟩)

/-- A CMAC-mode read that takes three bytes without a MAC for the contents of the file. -/
theorem read_accepts_bare_bytes :
    ∃ c, (Op.readData 1 0 3 .cmac (.buf 16) 16).run Aes128.aes128
        (answering (.answer 0x00 [1, 2, 3])) ⟨zeroHost, ()⟩ = .ok c ∧
      c.ret = .ok ∧ c.out.bytes = [1, 2, 3] ∧
      ¬ Authentic Aes128.aes128 zeroHost.session (.answer 0x00 [1, 2, 3]) := by
  have hp : (LinkResult.answer 0x00 [1, 2, 3]).parse = some (0x00, [1, 2, 3]) :=
    LinkResult.parse_answer _ (by simp)
  have hacc : (LinkResult.answer 0x00 [1, 2, 3]).accept [0x00, 0xAF] 16 = some (0x00, [1, 2, 3]) :=
    LinkResult.accept_eq_some.2 ⟨hp, by simp, by simp⟩
  refine ⟨⟨.ok, (Out.buf 16).put [1, 2, 3], World.bumpCtr (World.setStatus ⟨zeroHost, ()⟩ 0x00)⟩,
    ?_, rfl, by simp, not_authentic_of_lt _ hp (by simp)⟩
  rw [Op.run, desfireReadData_cmac_of_auth _ _ rfl, cmacAppendAndSend_sent _ _ _ _ _ (by simp)]
  simp only [answering]
  rw [cmacFinish_of_accept _ _ _ hacc, Out.buf, cmacVerify_put, if_pos (by simp)]

end LeafReader
