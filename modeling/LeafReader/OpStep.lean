import LeafReader.DesfireSpec

/-!
# One step of a run

Every operation but the handshake makes at most one exchange. `Op.request` is what it sends,
`Op.next` the session it leaves when the link answers with `r`, and `Op.Overruns` the inputs on
which the call has no meaning. `Op.run_of_request` ties the three to the code.
-/

namespace LeafReader

def Session.bump (s : Session) : Session := { s with cmdCtr := s.cmdCtr + 1 }

def Op.IsAuth : Op → Prop
  | .authEv2First .. => True
  | _ => False

theorem Op.IsAuth.exists_eq {op : Op} (h : op.IsAuth) :
    ∃ keyNo key rndA, op = .authEv2First keyNo key rndA := by
  cases op with
  | authEv2First keyNo key rndA => exact ⟨keyNo, key, rndA, rfl⟩
  | _ => exact h.elim

variable {σ : Type} (aes : Aes) (nfc : Nfc σ)

/-- Command and parameters of the request the operation sends, if it sends one. -/
def Op.request (h : Host) : Op → Option (UInt8 × Bytes)
  | .selectApplication aid => some (0x5A, aid.toList)
  | .authEv2First keyNo _ _ => some (0x71, [keyNo, 0x00, 0x00])
  | .formatPicc => if h.session.authenticated then some (0xFC, cmacParams aes h 0xFC [] []) else none
  | .createApplication aid ks nk =>
    let hdr := aid.toList ++ [ks, nk]
    some (0xCA, if h.session.authenticated then cmacParams aes h 0xCA hdr [] else hdr)
  | .createStdDataFile fileNo comm rights size =>
    let hdr := [fileNo, comm.toByte] ++ le16 rights ++ le24 size
    if h.session.authenticated then some (0xCD, cmacParams aes h 0xCD hdr []) else none
  | .changeKey keyNo old new ver =>
    if h.session.authenticated then
      some (0xC4, encParams aes h 0xC4 [keyNo]
        (changeKeyPlain (keyNo == h.session.keyNo) keyNo old new ver))
    else none
  | .readData fileNo offset length comm _ outBuf =>
    let hdr := fileHeader fileNo offset length
    match comm with
    | .plain => some (0xBD, hdr)
    | .cmac => if h.session.authenticated then some (0xBD, cmacParams aes h 0xBD hdr []) else none
    | .encrypted =>
      if h.session.authenticated ∧ length ≠ 0 ∧ length.toNat ≤ outBuf then
        some (0xBD, cmacParams aes h 0xBD hdr [])
      else none
  | .writeData fileNo offset comm data =>
    let hdr := fileHeader fileNo offset data.length.toUInt32
    match comm with
    | .plain => if data.length ≤ 248 then some (0x3D, hdr ++ data) else none
    | .cmac =>
      if h.session.authenticated ∧ data.length ≤ 240 then
        some (0x3D, cmacParams aes h 0x3D hdr data)
      else none
    | .encrypted =>
      if h.session.authenticated ∧ data.length ≤ 236 then
        some (0x3D, encParams aes h 0x3D hdr (encPlain 0x3D hdr data))
      else none
  | .getUid _ =>
    if h.session.authenticated then some (0x51, cmacParams aes h 0x51 [] []) else none

/-- The session after the operation's request was answered by `r`. -/
def Op.next (s : Session) (r : LinkResult) : Op → Session
  | .selectApplication _ =>
    if (r.accept [0x00] 0).isSome then { s with authenticated := false, cmdCtr := 0 } else s
  | .authEv2First .. => s
  | .formatPicc | .createStdDataFile .. => if (r.accept [0x00, 0xAF] 0).isSome then s.bump else s
  | .createApplication .. =>
    if s.authenticated ∧ (r.accept [0x00, 0xAF] 0).isSome then s.bump else s
  | .changeKey keyNo _ _ _ =>
    if (r.accept [0x00] 16).isSome then
      if keyNo == s.keyNo then { s with authenticated := false } else s.bump
    else s
  | .readData _ _ _ comm _ outBuf =>
    match comm with
    | .plain => s
    | .cmac => if (r.accept [0x00, 0xAF] outBuf).isSome then s.bump else s
    | .encrypted => if (r.accept [0x00] 280).any (8 ≤ ·.2.length) then s.bump else s
  | .writeData _ _ comm _ =>
    match comm with
    | .plain => s
    | .cmac => if (r.accept [0x00, 0xAF] 0).isSome then s.bump else s
    | .encrypted => if (r.accept [0x00] 64).isSome then s.bump else s
  | .getUid _ => if (r.accept [0x00] 280).any (8 ≤ ·.2.length) then s.bump else s

/-- The inputs on which the operation writes past an array or reads through NULL. -/
def Op.Overruns (h : Host) (r : LinkResult) : Op → Prop
  | .writeData _ _ .plain data => sizeT (7 + data.length) ≤ 256 ∧ 256 < 7 + data.length
  | .writeData _ _ .cmac data =>
    h.session.authenticated = true ∧ sizeT (7 + data.length) ≤ 256 ∧ 248 < 7 + data.length
  | .writeData _ _ .encrypted data =>
    h.session.authenticated = true ∧ 249 < data.length ∧ sizeT (8 + data.length) ≤ 257
  | .readData _ _ _ .cmac out outBuf =>
    h.session.authenticated = true ∧ ∃ p ∈ r.accept [0x00, 0xAF] outBuf,
      8 ≤ p.2.length ∧ out.respLen ≠ none ∧ (out.resp = none ∨ 257 < p.2.length)
  | .readData _ _ length .encrypted _ outBuf =>
    h.session.authenticated = true ∧ length.toNat ≤ outBuf ∧
      ∃ p ∈ r.accept [0x00] 280, RecvOverruns aes h length.toNat p.2
  | _ => False

instance Op.decidableOverruns (h : Host) (r : LinkResult) : ∀ op : Op, Decidable (op.Overruns aes h r)
  | .writeData _ _ .plain _ => inferInstanceAs (Decidable (_ ∧ _))
  | .writeData _ _ .cmac _ | .writeData _ _ .encrypted _ => inferInstanceAs (Decidable (_ ∧ _ ∧ _))
  | .readData _ _ _ .cmac _ outBuf =>
    inferInstanceAs (Decidable (_ ∧ ∃ p ∈ r.accept [0x00, 0xAF] outBuf, _))
  | .readData _ _ _ .encrypted .. =>
    inferInstanceAs (Decidable (_ ∧ _ ∧ ∃ p ∈ r.accept [0x00] 280, RecvOverruns ..))
  | .readData _ _ _ .plain .. | .selectApplication _ | .authEv2First .. | .formatPicc
  | .createApplication .. | .createStdDataFile .. | .changeKey .. | .getUid _ =>
    inferInstanceAs (Decidable False)

/-- The operation ran without a fault and left the world the link and `next` say. -/
def Steps (w : World σ) (s' : Session) (link : σ) (e : Except Fault (Call σ EspErr)) : Prop :=
  ∃ c, e = .ok c ∧ c.world.host.session = s' ∧ c.world.host.macKey = w.host.macKey ∧
    c.world.link = link

theorem cmac_null_steps {cmd : UInt8} {header data : Bytes} (w : World σ)
    (hfit : header.length + data.length ≤ 247) :
    let r := nfc w.link (apdu cmd (cmacParams aes w.host cmd header data))
    Steps w (if (r.1.accept [0x00, 0xAF] 0).isSome then w.host.session.bump else w.host.session) r.2
      (cmacAppendAndSend aes nfc cmd header data .null 0 w) := by
  intro r
  rw [cmacAppendAndSend_sent _ _ _ _ _ hfit]
  cases hr : r.1.accept [0x00, 0xAF] 0 with
  | none =>
    rw [cmacFinish_of_reject _ _ _ hr]
    exact ⟨_, rfl, by simp, by simp, by simp [r]⟩
  | some p =>
    obtain ⟨st, d⟩ := p
    rw [cmacFinish_of_accept _ _ _ hr, Out.put_null]
    exact ⟨_, rfl, rfl, rfl, rfl⟩

theorem cmac_read_steps {cmd : UInt8} {header : Bytes} (w : World σ) (hfit : header.length ≤ 247)
    (out : Out) (outBuf : Nat) :
    let r := nfc w.link (apdu cmd (cmacParams aes w.host cmd header []))
    (¬ ∃ p ∈ r.1.accept [0x00, 0xAF] outBuf,
      8 ≤ p.2.length ∧ out.respLen ≠ none ∧ (out.resp = none ∨ 257 < p.2.length)) →
    Steps w (if (r.1.accept [0x00, 0xAF] outBuf).isSome then w.host.session.bump
      else w.host.session) r.2 (cmacAppendAndSend aes nfc cmd header [] out outBuf w) := by
  intro r hover
  rw [cmacAppendAndSend_sent _ _ _ _ _ (by simpa using hfit)]
  cases hr : r.1.accept [0x00, 0xAF] outBuf with
  | none =>
    rw [cmacFinish_of_reject _ _ _ hr]
    exact ⟨_, rfl, by simp, by simp, by simp [r]⟩
  | some p =>
    obtain ⟨st, d⟩ := p
    rw [cmacFinish_of_accept _ _ _ hr]
    cases hv : cmacVerify aes st (out.put d)
        ((World.mk w.host r.2).setStatus st).bumpCtr with
    | ok c =>
      have hw := cmacVerify_world aes hv
      exact ⟨c, rfl, by rw [hw]; rfl, by rw [hw]; rfl, by rw [hw]; rfl⟩
    | error f =>
      exfalso
      apply hover
      refine ⟨(st, d), hr, ?_⟩
      dsimp only
      obtain ⟨_ | buf, _ | n⟩ := out
      · simp [cmacVerify, Out.put] at hv
      · by_cases h8 : d.length < 8
        · simp [cmacVerify, Out.put, h8] at hv
        · exact ⟨by omega, by simp, .inl rfl⟩
      · simp [cmacVerify, Out.put] at hv
      · rw [cmacVerify_put] at hv
        split at hv
        · cases hv
        · split at hv
          · exact ⟨by omega, by simp, .inr (by omega)⟩
          · split at hv <;> cases hv

theorem enc_write_steps {cmd : UInt8} {header data : Bytes} (w : World σ)
    (hauth : w.host.session.authenticated = true) (h7 : header.length = 7) (hd : data.length ≤ 236) :
    let r := nfc w.link (apdu cmd (encParams aes w.host cmd header (encPlain cmd header data)))
    Steps w (if (r.1.accept [0x00] 64).isSome then w.host.session.bump else w.host.session) r.2
      ((desfireEncSend aes nfc cmd header data .null w).map ofStatus) := by
  intro r
  rw [desfireEncSend_sent aes nfc .null w hauth h7 hd]
  cases hr : r.1.accept [0x00] 64 with
  | none =>
    obtain ⟨ret, -, he⟩ := encSendTail_of_reject aes .null (World.mk w.host r.2) hr
    rw [he]
    exact ⟨_, rfl, by simp [ofStatus], by simp [ofStatus], by simp [ofStatus]⟩
  | some p =>
    rw [encSendTail_of_accept aes _ hr]
    exact ⟨_, rfl, rfl, rfl, rfl⟩

theorem enc_recv_steps {cmd : UInt8} {header : Bytes} {payloadLen respBuf : Nat} (out : Out)
    (w : World σ) (hauth : w.host.session.authenticated = true) (hh : header.length ≤ 64)
    (hp : payloadLen ≤ respBuf) :
    let r := nfc w.link (apdu cmd (cmacParams aes w.host cmd header []))
    (¬ ∃ p ∈ r.1.accept [0x00] 280, RecvOverruns aes w.host payloadLen p.2) →
    ∀ f : Call σ (Option UInt8) → Call σ EspErr, (∀ c, (f c).world = c.world) →
    Steps w (if (r.1.accept [0x00] 280).any (8 ≤ ·.2.length) then w.host.session.bump
      else w.host.session) r.2 ((desfireEncRecv aes nfc cmd header payloadLen out respBuf w).map f) := by
  intro r hover f hf
  rcases desfireEncRecv_cases aes nfc cmd out w hauth hh hp with
    ⟨h, -⟩ | ⟨-, c, hc, hs, hm, hl, -⟩
  · exact absurd h hover
  · exact ⟨f c, by rw [hc]; rfl, by rw [hf]; exact hs, by rw [hf]; exact hm, by rw [hf]; exact hl⟩

theorem change_key_steps (keyNo : UInt8) (old new : Block) (ver : UInt8) (w : World σ)
    (hauth : w.host.session.authenticated = true) :
    let r := nfc w.link (apdu 0xC4 (encParams aes w.host 0xC4 [keyNo]
      (changeKeyPlain (keyNo == w.host.session.keyNo) keyNo old new ver)))
    Steps w (Op.next w.host.session r.1 (.changeKey keyNo old new ver)) r.2
      (.ok (desfireChangeKey aes nfc keyNo old new ver w)) := by
  intro r
  rw [desfireChangeKey_sent aes nfc keyNo old new ver w hauth]
  show Steps w _ _ (.ok (changeKeyTail aes _ (receive (.buf 16) 16 ⟨w.host, r.2⟩ r.1)))
  clear_value r
  simp only [Op.next]
  cases hr : r.1.accept [0x00] 16 with
  | none =>
    rw [changeKeyTail_of_reject aes _ _ hr]
    exact ⟨_, rfl, by simp, by simp, by simp⟩
  | some p =>
    cases hk : keyNo == w.host.session.keyNo with
    | true =>
      rw [changeKeyTail_same aes _ hr]
      exact ⟨_, rfl, by simp, rfl, rfl⟩
    | false =>
      rw [changeKeyTail_different aes _ hr]
      exact ⟨_, rfl, by simp [Session.bump], rfl, rfl⟩

theorem xfer_steps {cmd : UInt8} {params : Bytes} (out : Out) (cap : Nat) (w : World σ)
    (h : params.length ≤ 255) :
    Steps w w.host.session (nfc w.link (apdu cmd params)).2
      (.ok (ofStatus (desfireXfer nfc cmd params out cap w))) := by
  rw [desfireXfer_eq nfc cmd out cap w h]
  exact ⟨_, rfl, by simp [ofStatus], by simp [ofStatus], by simp [ofStatus]⟩

theorem select_steps (aid : Aid) (w : World σ) :
    let r := nfc w.link (apdu 0x5A aid.toList)
    Steps w (Op.next w.host.session r.1 (.selectApplication aid)) r.2
      (.ok (desfireSelectApplication nfc aid w)) := by
  intro r
  rw [desfireSelectApplication, desfireXfer_eq _ _ _ _ _ (by simp)]
  simp only [Op.next]
  cases hr : r.1.accept [0x00] 0 with
  | none =>
    have hret : (receive .null 0 ⟨w.host, r.2⟩ r.1).ret ≠ some 0x00 := fun h0 =>
      receive_ret_of_reject .null (World.mk w.host r.2) hr _ h0 (by simp)
    simp only [ne_eq, r] at hret
    simp only [ne_eq, hret, not_false_eq_true, ↓reduceIte]
    exact ⟨_, rfl, by simp, by simp, by simp [r]⟩
  | some p =>
    obtain ⟨st, d⟩ := p
    obtain ⟨rfl, -⟩ := LinkResult.accept_singleton.1 hr
    rw [receive_of_accept _ _ hr]
    exact ⟨_, rfl, rfl, rfl, rfl⟩

theorem create_application_steps (aid : Aid) (ks nk : UInt8) (w : World σ) {cmd : UInt8} {params : Bytes}
    (hq : (Op.createApplication aid ks nk).request aes w.host = some (cmd, params)) :
    let r := nfc w.link (apdu cmd params)
    Steps w (Op.next w.host.session r.1 (.createApplication aid ks nk)) r.2
      ((Op.createApplication aid ks nk).run aes nfc w) := by
  cases hauth : w.host.session.authenticated with
  | false =>
    simp only [Op.request, hauth, Bool.false_eq_true, ↓reduceIte, Option.some.injEq,
      Prod.mk.injEq] at hq
    obtain ⟨rfl, rfl⟩ := hq
    simp only [Op.run, desfireCreateApplication, Op.next, hauth, Bool.false_eq_true, ↓reduceIte,
      false_and]
    exact xfer_steps nfc .null 0 w (by simp)
  | true =>
    simp only [Op.request, hauth, ↓reduceIte, Option.some.injEq, Prod.mk.injEq] at hq
    obtain ⟨rfl, rfl⟩ := hq
    simp only [Op.next, hauth, true_and]
    rw [Op.run, desfireCreateApplication_of_auth _ _ hauth]
    exact cmac_null_steps aes nfc w (by simp)

theorem read_steps (fileNo : UInt8) (offset length : UInt32) (comm : CommMode) (out : Out)
    (outBuf : Nat) (w : World σ) {cmd : UInt8} {params : Bytes}
    (hq : (Op.readData fileNo offset length comm out outBuf).request aes w.host = some (cmd, params)) :
    let r := nfc w.link (apdu cmd params)
    ¬ (Op.readData fileNo offset length comm out outBuf).Overruns aes w.host r.1 →
    Steps w (Op.next w.host.session r.1 (.readData fileNo offset length comm out outBuf)) r.2
      ((Op.readData fileNo offset length comm out outBuf).run aes nfc w) := by
  intro r hover
  cases comm with
  | plain =>
    cases hq
    exact xfer_steps nfc out outBuf w (by simp)
  | cmac =>
    simp only [Op.request, Option.ite_none_right_eq_some, Option.some.injEq, Prod.mk.injEq] at hq
    obtain ⟨hauth, rfl, rfl⟩ := hq
    rw [Op.run, desfireReadData_cmac_of_auth _ _ hauth]
    exact cmac_read_steps aes nfc w (by simp) out outBuf fun h => hover ⟨hauth, h⟩
  | encrypted =>
    simp only [Op.request, Option.ite_none_right_eq_some, Option.some.injEq, Prod.mk.injEq] at hq
    obtain ⟨⟨hauth, h0, hb⟩, rfl, rfl⟩ := hq
    rw [Op.run, desfireReadData_encrypted_of_auth _ _ hauth, if_neg (by simp [h0]; omega)]
    exact enc_recv_steps aes nfc out w hauth (by simp) hb (fun h => hover ⟨hauth, hb, h⟩) ofStatus
      fun _ => rfl

theorem write_steps (fileNo : UInt8) (offset : UInt32) (comm : CommMode) {data : Bytes} (w : World σ)
    {cmd : UInt8} {params : Bytes}
    (hq : (Op.writeData fileNo offset comm data).request aes w.host = some (cmd, params)) :
    let r := nfc w.link (apdu cmd params)
    Steps w (Op.next w.host.session r.1 (.writeData fileNo offset comm data)) r.2
      ((Op.writeData fileNo offset comm data).run aes nfc w) := by
  cases comm with
  | plain =>
    simp only [Op.request, Option.ite_none_right_eq_some, Option.some.injEq, Prod.mk.injEq] at hq
    obtain ⟨hd, rfl, rfl⟩ := hq
    rw [Op.run, desfireWriteData_plain_xfer aes nfc fileNo offset w (by omega)]
    exact xfer_steps nfc .null 0 w (by simp; omega)
  | cmac =>
    simp only [Op.request, Option.ite_none_right_eq_some, Option.some.injEq, Prod.mk.injEq] at hq
    obtain ⟨⟨hauth, hd⟩, rfl, rfl⟩ := hq
    rw [Op.run, desfireWriteData_cmac_of_auth _ _ hauth]
    exact cmac_null_steps aes nfc w (by simp; omega)
  | encrypted =>
    simp only [Op.request, Option.ite_none_right_eq_some, Option.some.injEq, Prod.mk.injEq] at hq
    obtain ⟨⟨hauth, hd⟩, rfl, rfl⟩ := hq
    rw [Op.run, desfireWriteData_encrypted_of_auth _ _ hauth]
    exact enc_write_steps aes nfc w hauth (length_fileHeader ..) hd

theorem get_uid_steps (uid : Bytes) (w : World σ) (hauth : w.host.session.authenticated = true) :
    let r := nfc w.link (apdu 0x51 (cmacParams aes w.host 0x51 [] []))
    Steps w (Op.next w.host.session r.1 (.getUid uid)) r.2 (desfireGetUid aes nfc uid w) := by
  intro r
  rw [desfireGetUid_of_auth _ _ hauth]
  refine enc_recv_steps aes nfc (.buf 7) w hauth (by simp) (Nat.le_refl 7) ?_ _ fun c => ?_
  · rintro ⟨p, -, hp⟩
    exact not_recvOverruns aes (by omega) hp
  · split <;> rfl

/-- A sent operation that does not overrun leaves the session `Op.next` names, the MAC key slot as
it was, and the link after exactly one exchange. -/
theorem Op.run_of_request (op : Op) (hna : ¬ op.IsAuth) (w : World σ) {cmd : UInt8} {params : Bytes}
    (hq : op.request aes w.host = some (cmd, params))
    (hover : ¬ op.Overruns aes w.host (nfc w.link (apdu cmd params)).1) :
    Steps w (op.next w.host.session (nfc w.link (apdu cmd params)).1)
      (nfc w.link (apdu cmd params)).2 (op.run aes nfc w) := by
  cases op with
  | selectApplication aid =>
    cases hq
    exact select_steps nfc aid w
  | authEv2First => exact absurd trivial hna
  | formatPicc =>
    simp only [request, Option.ite_none_right_eq_some, Option.some.injEq, Prod.mk.injEq] at hq
    obtain ⟨hauth, rfl, rfl⟩ := hq
    rw [run, desfireFormatPicc_of_auth _ _ hauth]
    exact cmac_null_steps aes nfc w (by simp)
  | createApplication aid ks nk => exact create_application_steps aes nfc aid ks nk w hq
  | createStdDataFile fileNo comm rights size =>
    simp only [request, Option.ite_none_right_eq_some, Option.some.injEq, Prod.mk.injEq] at hq
    obtain ⟨hauth, rfl, rfl⟩ := hq
    rw [run, desfireCreateStdDataFile_of_auth _ _ hauth]
    exact cmac_null_steps aes nfc w (by simp)
  | changeKey keyNo old new ver =>
    simp only [request, Option.ite_none_right_eq_some, Option.some.injEq, Prod.mk.injEq] at hq
    obtain ⟨hauth, rfl, rfl⟩ := hq
    exact change_key_steps aes nfc keyNo old new ver w hauth
  | readData fileNo offset length comm out outBuf =>
    exact read_steps aes nfc fileNo offset length comm out outBuf w hq hover
  | writeData fileNo offset comm data => exact write_steps aes nfc fileNo offset comm w hq
  | getUid uid =>
    simp only [request, Option.ite_none_right_eq_some, Option.some.injEq, Prod.mk.injEq] at hq
    obtain ⟨hauth, rfl, rfl⟩ := hq
    exact get_uid_steps aes nfc uid w hauth

theorem Op.run_of_no_request (op : Op) (w : World σ) (hq : op.request aes w.host = none)
    (r : LinkResult) (hover : ¬ op.Overruns aes w.host r) :
    ∃ c, op.run aes nfc w = .ok c ∧ c.ret ≠ .ok ∧ c.world = w := by
  cases op with
  | selectApplication | authEv2First | createApplication => simp [request] at hq
  | formatPicc | createStdDataFile | changeKey =>
    have hauth : w.host.session.authenticated = false := by simpa [request] using hq
    simp [run, desfireFormatPicc, desfireCreateStdDataFile, desfireChangeKey, hauth]
  | getUid uid =>
    have hauth : w.host.session.authenticated = false := by simpa [request] using hq
    exact ⟨⟨.invalidState, ⟨some uid, none⟩, w⟩, by simp [run, desfireGetUid, hauth]; rfl, by simp, rfl⟩
  | readData fileNo offset length comm out outBuf =>
    cases comm with
    | plain => simp [request] at hq
    | cmac =>
      have hauth : w.host.session.authenticated = false := by simpa [request] using hq
      exact ⟨⟨.invalidState, out, w⟩, by simp [run, desfireReadData, hauth], by simp, rfl⟩
    | encrypted =>
      cases hauth : w.host.session.authenticated with
      | false =>
        exact ⟨⟨.invalidState, out, w⟩, by simp [run, desfireReadData, hauth]; rfl, by simp, rfl⟩
      | true =>
        have h : length = 0 ∨ length.toNat > outBuf := by
          simp only [request, hauth, true_and, ite_eq_right_iff, reduceCtorEq, imp_false] at hq
          by_cases h0 : length = 0
          · exact .inl h0
          · exact .inr (Nat.not_le.1 fun h => hq ⟨h0, h⟩)
        rw [run, desfireReadData_encrypted_of_auth _ _ hauth, if_pos h]
        exact ⟨_, rfl, by simp, rfl⟩
  | writeData fileNo offset comm data =>
    cases comm with
    | plain =>
      have hd : 248 < data.length := by simpa [request] using hq
      obtain ⟨e, he, hc⟩ := desfireWriteData_plain_refused aes nfc fileNo offset data w
        (by simp only [Overruns] at hover; omega)
      exact ⟨_, hc, he, rfl⟩
    | cmac =>
      cases hauth : w.host.session.authenticated with
      | false =>
        exact ⟨⟨.invalidState, .null, w⟩, by simp [run, desfireWriteData, hauth], by simp, rfl⟩
      | true =>
        have hd : 240 < data.length := by simpa [request, hauth] using hq
        simp only [Overruns, hauth, true_and] at hover
        rw [run, desfireWriteData_cmac_of_auth _ _ hauth]
        obtain ⟨e, he, hc⟩ := cmacAppendAndSend_refused aes nfc 0x3D
          (fileHeader fileNo offset data.length.toUInt32) data .null 0 w
          (by rw [length_fileHeader]; omega)
        exact ⟨_, hc, he, rfl⟩
    | encrypted =>
      cases hauth : w.host.session.authenticated with
      | false =>
        exact ⟨⟨.invalidState, .null, w⟩, by simp [run, desfireWriteData, hauth]; rfl, by simp, rfl⟩
      | true =>
        have hd : 236 < data.length := by simpa [request, hauth] using hq
        simp only [Overruns, hauth, true_and] at hover
        rw [run, desfireWriteData_encrypted_of_auth _ _ hauth,
          desfireEncSend_refused aes nfc .null w hauth (length_fileHeader ..) hd
            (by rw [length_fileHeader, show 1 + 7 + data.length = 8 + data.length by omega]; omega)]
        exact ⟨_, rfl, by simp [ofStatus], rfl⟩

theorem Op.run_of_overruns (op : Op) (w : World σ) {r : LinkResult}
    (hr : ∀ cmd params, op.request aes w.host = some (cmd, params) →
      (nfc w.link (apdu cmd params)).1 = r)
    (hover : op.Overruns aes w.host r) : ∃ f, op.run aes nfc w = .error f := by
  cases op with
  | writeData fileNo offset comm data =>
    cases comm with
    | plain => exact ⟨_, desfireWriteData_plain_overrun aes nfc fileNo offset w hover.1 hover.2⟩
    | cmac =>
      obtain ⟨hauth, hs, hl⟩ := hover
      rw [run, desfireWriteData_cmac_of_auth _ _ hauth]
      exact ⟨_, cmacAppendAndSend_overrun aes nfc .null 0 w (by simpa using hs) (by simpa using hl)⟩
    | encrypted =>
      obtain ⟨hauth, hl, hs⟩ := hover
      rw [run, desfireWriteData_encrypted_of_auth _ _ hauth,
        desfireEncSend_overrun aes nfc .null w hauth (length_fileHeader ..) hl
          (by rw [length_fileHeader, show 1 + 7 + data.length = 8 + data.length by omega]; exact hs)]
      exact ⟨_, rfl⟩
  | readData fileNo offset length comm out outBuf =>
    cases comm with
    | cmac =>
      obtain ⟨hauth, ⟨st, d⟩, hacc, h8, hlen, hbad⟩ := hover
      dsimp only at h8 hbad
      have hq := hr 0xBD (cmacParams aes w.host 0xBD (fileHeader fileNo offset length) [])
        (by simp [request, hauth])
      rw [run, desfireReadData_cmac_of_auth _ _ hauth, cmacAppendAndSend_sent _ _ _ _ _ (by simp),
        hq, cmacFinish_of_accept _ _ _ hacc]
      obtain ⟨_ | buf, _ | n⟩ := out
      · simp at hlen
      · exact ⟨.nullDeref, by simp [cmacVerify, Out.put, show ¬ d.length < 8 by omega]⟩
      · simp at hlen
      · have h257 : 257 < d.length := by simpa using hbad
        exact ⟨.overrun, by rw [cmacVerify_put, if_neg (by omega), if_pos h257]⟩
    | encrypted =>
      obtain ⟨hauth, hb, ⟨st, d⟩, hacc, hwrap⟩ := hover
      have h0 : length ≠ 0 := by
        rintro rfl
        exact absurd hwrap (not_recvOverruns aes (by simp))
      have hq := hr 0xBD (cmacParams aes w.host 0xBD (fileHeader fileNo offset length) [])
        (by simp [request, hauth, h0, hb])
      rw [run, desfireReadData_encrypted_of_auth _ _ hauth, if_neg (by simp [h0]; omega)]
      rcases desfireEncRecv_cases aes nfc 0xBD out w hauth
        (show (fileHeader fileNo offset length).length ≤ 64 by simp) hb with ⟨-, he⟩ | ⟨hno, -⟩
      · exact ⟨.overrun, by rw [he]; rfl⟩
      · rw [hq] at hno
        exact absurd ⟨_, hacc, hwrap⟩ hno
    | plain => exact hover.elim
  | selectApplication | authEv2First | formatPicc | createApplication | createStdDataFile | changeKey
  | getUid => exact hover.elim

/-- Outside the handshake a call that returns has sent nothing and changed nothing, or it has made one
exchange. -/
theorem Op.run_ok_cases {op : Op} (hna : ¬ op.IsAuth) {w : World σ} {c : Call σ EspErr}
    (hc : op.run aes nfc w = .ok c) :
    (op.request aes w.host = none ∧ c.world = w) ∨
    ∃ cmd params, op.request aes w.host = some (cmd, params) ∧
      c.world.host.session = op.next w.host.session (nfc w.link (apdu cmd params)).1 ∧
      c.world.host.macKey = w.host.macKey ∧ c.world.link = (nfc w.link (apdu cmd params)).2 := by
  have hsafe (r : LinkResult) (hr : ∀ cmd params, op.request aes w.host = some (cmd, params) →
      (nfc w.link (apdu cmd params)).1 = r) : ¬ op.Overruns aes w.host r := by
    intro hover
    obtain ⟨f, hf⟩ := Op.run_of_overruns aes nfc op w hr hover
    rw [hf] at hc
    cases hc
  cases hq : op.request aes w.host with
  | none =>
    have hover := hsafe (.error .fail) fun cmd params h => by rw [hq] at h; cases h
    obtain ⟨c', hc', -, hw⟩ := Op.run_of_no_request aes nfc op w hq _ hover
    obtain rfl : c' = c := Except.ok.inj (hc'.symm.trans hc)
    exact .inl ⟨rfl, hw⟩
  | some p =>
    obtain ⟨cmd, params⟩ := p
    have hover := hsafe (nfc w.link (apdu cmd params)).1 fun cmd' params' h => by
      rw [hq] at h
      cases h
      rfl
    obtain ⟨c', hc', hs, hm, hl⟩ := Op.run_of_request aes nfc op hna w hq hover
    obtain rfl : c' = c := Except.ok.inj (hc'.symm.trans hc)
    exact .inr ⟨cmd, params, rfl, hs, hm, hl⟩

theorem Op.next_error (op : Op) (s : Session) (e : EspErr) : op.next s (.error e) = s := by
  have h (good : List UInt8) (cap : Nat) : LinkResult.accept good cap (.error e) = none := rfl
  cases op with
  | readData _ _ _ comm | writeData _ _ comm => cases comm <;> simp [next, h]
  | _ => simp [next, h]

/-- No answer opens a session outside the handshake. -/
theorem Op.next_unauth (op : Op) {s : Session} (r : LinkResult) (h : s.authenticated = false) :
    (op.next s r).authenticated = false := by
  have hb : s.bump.authenticated = false := h
  cases op with
  | readData _ _ _ comm | writeData _ _ comm =>
    cases comm <;> simp only [next] <;> first | exact h | (split <;> assumption)
  | changeKey => simp only [next]; repeat' split
                 all_goals first | rfl | assumption
  | selectApplication => simp only [next]; split <;> first | rfl | assumption
  | authEv2First => exact h
  | _ => simp only [next]; split <;> assumption

theorem accept_refused {good : List UInt8} {cap : Nat} {st : UInt8} (hg : st ∉ good) :
    (LinkResult.answer st []).accept good cap = none :=
  LinkResult.accept_eq_none.2 fun st' d hp hst => by
    rw [LinkResult.parse_answer _ (by simp)] at hp
    cases hp
    exact absurd hst hg

/-! ### The handshake -/

/-- `E(RndB)` in the answer to step 1. -/
def authReply1 (r : LinkResult) : Option Block :=
  match r.accept [0xAF] 64 with
  | some (_, d) => if d.length = 16 then some (Block.ofBytes d) else none
  | none => none

def authRndB (key eRndB : Block) : Block :=
  Block.ofBytes (desfireAesCbcDecrypt aes key .zero eRndB.toList)

/-- `TI | RndA' | caps` in the answer to step 2, when `RndA'` is right. -/
def authReply2 (key rndA eRndB : Block) (r : LinkResult) : Option Bytes :=
  match r.accept [0x00] 64 with
  | some (_, d) =>
    let encrypted := authChallenge aes key rndA eRndB (authRndB aes key eRndB)
    let plain := desfireAesCbcDecrypt aes key (Block.ofBytes (encrypted.drop 16)) d
    if d.length = 32 ∧ (plain.drop 4).take 16 = (rotateLeft1 rndA).toList then some plain else none
  | none => none

theorem authReply1_eq_some {r : LinkResult} {eRndB : Block} (h : authReply1 r = some eRndB) :
    r.accept [0xAF] 64 = some (0xAF, eRndB.toList) := by
  unfold authReply1 at h
  split at h
  · rename_i st d hr
    simp only [Option.ite_none_right_eq_some, Option.some.injEq] at h
    obtain ⟨hd, rfl⟩ := h
    obtain ⟨rfl, -⟩ := LinkResult.accept_singleton.1 hr
    rw [hr, Block.toList_ofBytes (by omega), List.take_of_length_le (by omega)]
  · cases h

theorem authReply2_eq_some {key rndA eRndB : Block} {r : LinkResult} {plain : Bytes}
    (h : authReply2 aes key rndA eRndB r = some plain) :
    ∃ d, r.accept [0x00] 64 = some (0x00, d) ∧ d.length = 32 ∧
      plain = desfireAesCbcDecrypt aes key
        (Block.ofBytes ((authChallenge aes key rndA eRndB (authRndB aes key eRndB)).drop 16)) d ∧
      (plain.drop 4).take 16 = (rotateLeft1 rndA).toList := by
  unfold authReply2 at h
  split at h
  · rename_i st d hr
    simp only [Option.ite_none_right_eq_some, Option.some.injEq] at h
    obtain ⟨⟨h32, hrnd⟩, rfl⟩ := h
    obtain ⟨rfl, -⟩ := LinkResult.accept_singleton.1 hr
    exact ⟨d, hr, h32, rfl, hrnd⟩
  · cases h

theorem length_authChallenge (key rndA eRndB rndB : Block) :
    (authChallenge aes key rndA eRndB rndB).length = 32 := by
  rw [authChallenge, length_desfireAesCbcEncrypt] <;> simp

def authSession (keyNo : UInt8) (key rndA rndB : Block) (plain : Bytes) : Session where
  keyNo := keyNo
  ti := Vector.ofFn fun i => plain.getD i 0
  kSesAuthEnc := desfireCmac aes key (sessionVector 0xA5 0x5A rndA rndB)
  kSesAuthMac := desfireCmac aes key (sessionVector 0x5A 0xA5 rndA rndB)
  cmdCtr := 0
  authenticated := true

section Handshake

variable (keyNo : UInt8) (key rndA : Block) (w : World σ)

/-- Step 2 of the handshake, on the link result `r` to the challenge. -/
def authTail (eRndB : Block) (out : Out) (w : World σ) (r : LinkResult) : Call σ EspErr :=
  let x2 := receive out 64 w r
  if x2.ret ≠ some 0x00 ∨ x2.out.bytes.length ≠ 32 then ⟨.fail, .null, x2.world⟩
  else
    let rndB := authRndB aes key eRndB
    let iv3 := Block.ofBytes ((authChallenge aes key rndA eRndB rndB).drop 16)
    let plain := desfireAesCbcDecrypt aes key iv3 x2.out.bytes
    if (plain.drop 4).take 16 ≠ (rotateLeft1 rndA).toList then ⟨.fail, .null, x2.world⟩
    else ⟨.ok, .null, captureSession aes keyNo key rndA rndB plain x2.world⟩

theorem auth_fail1 (h : authReply1 (nfc w.link (apdu 0x71 [keyNo, 0x00, 0x00])).1 = none) :
    let c := desfireAuthEv2First aes nfc keyNo key rndA w
    c.ret = .fail ∧ c.world.host.session = w.host.session ∧ c.world.host.macKey = w.host.macKey ∧
      c.world.link = (nfc w.link (apdu 0x71 [keyNo, 0x00, 0x00])).2 := by
  intro c
  have hc : c = desfireAuthEv2First aes nfc keyNo key rndA w := rfl
  unfold desfireAuthEv2First at hc
  rw [desfireXfer_eq _ _ _ _ _ (by simp)] at hc
  generalize nfc w.link (apdu 0x71 [keyNo, 0x00, 0x00]) = r1 at h hc
  have hbad : (receive (.buf 64) 64 ⟨w.host, r1.2⟩ r1.1).ret ≠ some 0xAF ∨
      (receive (.buf 64) 64 ⟨w.host, r1.2⟩ r1.1).out.bytes.length ≠ 16 := by
    cases hr : r1.1.accept [0xAF] 64 with
    | none => exact .inl fun h0 =>
        receive_ret_of_reject (.buf 64) (World.mk w.host r1.2) hr _ h0 (by simp)
    | some p =>
      obtain ⟨st, d⟩ := p
      rw [receive_of_accept _ _ hr]
      refine .inr ?_
      simpa [authReply1, hr] using h
  simp only [hbad, ↓reduceIte] at hc
  rw [hc]
  simp

variable {keyNo key rndA w} {eRndB : Block}

/-- After `E(RndB)` the challenge is sent, and the rest is decided by the answer to it. -/
theorem auth_step2 (keyNo : UInt8) (key rndA : Block) (w : World σ)
    (h : authReply1 (nfc w.link (apdu 0x71 [keyNo, 0x00, 0x00])).1 = some eRndB) :
    let l1 := (nfc w.link (apdu 0x71 [keyNo, 0x00, 0x00])).2
    let r2 := nfc l1 (apdu 0xAF (authChallenge aes key rndA eRndB (authRndB aes key eRndB)))
    ∃ d, desfireAuthEv2First aes nfc keyNo key rndA w =
      authTail aes keyNo key rndA eRndB ((Out.buf 64).put d) ⟨(w.setStatus 0xAF).host, r2.2⟩ r2.1 := by
  intro l1 r2
  have hlen : eRndB.toList.length = 16 := Vector.length_toList
  refine ⟨eRndB.toList, ?_⟩
  unfold desfireAuthEv2First
  rw [desfireXfer_eq _ _ _ _ _ (by simp), receive_of_accept _ _ (authReply1_eq_some h)]
  simp only [Out.bytes_put_buf, hlen, ne_eq, not_true_eq_false, or_self, ↓reduceIte,
    Block.ofBytes_toList']
  rw [desfireXfer_eq _ _ _ _ _ (by rw [length_authChallenge]; omega)]
  rfl

theorem authTail_of_none {out : Out} {w : World σ} {r : LinkResult}
    (hout : ∀ d, (out.put d).bytes = d) (h : authReply2 aes key rndA eRndB r = none) :
    authTail aes keyNo key rndA eRndB out w r = ⟨.fail, .null, (receive out 64 w r).world⟩ := by
  unfold authTail
  dsimp only
  split
  · rfl
  · rename_i hok
    cases hr : r.accept [0x00] 64 with
    | none =>
      exact absurd (.inl fun h0 => receive_ret_of_reject out w hr _ h0 (by simp)) hok
    | some p =>
      obtain ⟨st, d⟩ := p
      rw [receive_of_accept _ _ hr, hout] at hok ⊢
      have h32 : d.length = 32 := by
        by_contra h32
        exact hok (.inr h32)
      simp only [authReply2, hr, h32, true_and, ite_eq_right_iff, reduceCtorEq, imp_false] at h
      rw [if_pos h]

theorem authTail_of_some {out : Out} {w : World σ} {r : LinkResult} {plain : Bytes}
    (hout : ∀ d, (out.put d).bytes = d) (h : authReply2 aes key rndA eRndB r = some plain) :
    authTail aes keyNo key rndA eRndB out w r =
      ⟨.ok, .null, captureSession aes keyNo key rndA (authRndB aes key eRndB) plain
        (w.setStatus 0x00)⟩ := by
  obtain ⟨d, hr, h32, rfl, hrnd⟩ := authReply2_eq_some aes h
  unfold authTail
  rw [receive_of_accept _ _ hr]
  simp only [hout, h32, ne_eq, not_true_eq_false, or_self, ↓reduceIte, hrnd]

theorem bytes_put_put_buf (n : Nat) (d d' : Bytes) : (((Out.buf n).put d).put d').bytes = d' := by
  simp [Out.buf, Out.put, Out.bytes]

theorem auth_fail2 (keyNo : UInt8) (key rndA : Block) (w : World σ)
    (h1 : authReply1 (nfc w.link (apdu 0x71 [keyNo, 0x00, 0x00])).1 = some eRndB) :
    let l1 := (nfc w.link (apdu 0x71 [keyNo, 0x00, 0x00])).2
    let r2 := nfc l1 (apdu 0xAF (authChallenge aes key rndA eRndB (authRndB aes key eRndB)))
    let c := desfireAuthEv2First aes nfc keyNo key rndA w
    authReply2 aes key rndA eRndB r2.1 = none →
    c.ret = .fail ∧ c.world.host.session = w.host.session ∧ c.world.host.macKey = w.host.macKey ∧
      c.world.link = r2.2 := by
  intro l1 r2 c h2
  obtain ⟨d, hc⟩ := auth_step2 aes nfc keyNo key rndA w h1
  rw [authTail_of_none aes (bytes_put_put_buf 64 d) h2] at hc
  simp [c, hc, r2, l1]

/-- The right `RndA'` completes the handshake: the session is written and its MAC key loaded. -/
theorem auth_ok (keyNo : UInt8) (key rndA : Block) (w : World σ)
    (h1 : authReply1 (nfc w.link (apdu 0x71 [keyNo, 0x00, 0x00])).1 = some eRndB) :
    let l1 := (nfc w.link (apdu 0x71 [keyNo, 0x00, 0x00])).2
    let r2 := nfc l1 (apdu 0xAF (authChallenge aes key rndA eRndB (authRndB aes key eRndB)))
    let c := desfireAuthEv2First aes nfc keyNo key rndA w
    ∀ plain, authReply2 aes key rndA eRndB r2.1 = some plain →
    c.ret = .ok ∧
      c.world.host.session = authSession aes keyNo key rndA (authRndB aes key eRndB) plain ∧
      c.world.host.macKey = c.world.host.session.kSesAuthMac ∧ c.world.link = r2.2 := by
  intro l1 r2 c plain h2
  obtain ⟨d, hc⟩ := auth_step2 aes nfc keyNo key rndA w h1
  rw [authTail_of_some aes (bytes_put_put_buf 64 d) h2] at hc
  simp only [c, hc]
  exact ⟨trivial, rfl, rfl, rfl⟩

/-- A handshake fails at one of its steps and leaves the session alone, or proves the key in both. -/
theorem auth_cases (keyNo : UInt8) (key rndA : Block) (w : World σ) :
    let r1 := nfc w.link (apdu 0x71 [keyNo, 0x00, 0x00])
    let r2 (eRndB : Block) :=
      nfc r1.2 (apdu 0xAF (authChallenge aes key rndA eRndB (authRndB aes key eRndB)))
    let c := desfireAuthEv2First aes nfc keyNo key rndA w
    (c.ret = .fail ∧ c.world.host.session = w.host.session ∧ c.world.host.macKey = w.host.macKey ∧
      (c.world.link = r1.2 ∨ ∃ eRndB, c.world.link = (r2 eRndB).2)) ∨
    ∃ eRndB plain, authReply1 r1.1 = some eRndB ∧
      authReply2 aes key rndA eRndB (r2 eRndB).1 = some plain ∧ c.ret = .ok ∧
      c.world.host.session = authSession aes keyNo key rndA (authRndB aes key eRndB) plain ∧
      c.world.host.macKey = c.world.host.session.kSesAuthMac ∧ c.world.link = (r2 eRndB).2 := by
  intro r1 r2 c
  cases h1 : authReply1 r1.1 with
  | none =>
    obtain ⟨hret, hs, hm, hl⟩ := auth_fail1 aes nfc keyNo key rndA w h1
    exact .inl ⟨hret, hs, hm, .inl hl⟩
  | some eRndB =>
    cases h2 : authReply2 aes key rndA eRndB (r2 eRndB).1 with
    | none =>
      obtain ⟨hret, hs, hm, hl⟩ := auth_fail2 aes nfc keyNo key rndA w h1 h2
      exact .inl ⟨hret, hs, hm, .inr ⟨eRndB, hl⟩⟩
    | some plain => exact .inr ⟨eRndB, plain, rfl, h2, auth_ok aes nfc keyNo key rndA w h1 plain h2⟩

end Handshake

/-! ### The exchanges of an operation -/

variable {aes nfc}

/-- The commands an operation sends. -/
def Op.commands : Op → List UInt8
  | .selectApplication _ => [0x5A]
  | .authEv2First .. => [0x71, 0xAF]
  | .formatPicc => [0xFC]
  | .createApplication .. => [0xCA]
  | .createStdDataFile .. => [0xCD]
  | .changeKey .. => [0xC4]
  | .readData .. => [0xBD]
  | .writeData .. => [0x3D]
  | .getUid _ => [0x51]

theorem Op.request_mem_commands {op : Op} {h : Host} {cmd : UInt8} {params : Bytes}
    (hq : op.request aes h = some (cmd, params)) : cmd ∈ op.commands := by
  cases op with
  | selectApplication | authEv2First | createApplication =>
    cases hq
    simp [commands]
  | formatPicc | createStdDataFile | changeKey | getUid =>
    simp only [request, Option.ite_none_right_eq_some, Option.some.injEq, Prod.mk.injEq] at hq
    simp [commands, ← hq.2.1]
  | readData _ _ _ comm | writeData _ _ comm =>
    cases comm <;>
    · simp only [request, Option.ite_none_right_eq_some, Option.some.injEq, Prod.mk.injEq] at hq
      simp [commands, hq]

/-- A handshake is one exchange, or two. -/
theorem auth_keeps {I : σ → Prop} (h1 : ∀ params l, I l → I (nfc l (apdu 0x71 params)).2)
    (h2 : ∀ params l, I l → I (nfc l (apdu 0xAF params)).2) (keyNo : UInt8) (key rndA : Block)
    {w : World σ} (hw : I w.link) : I (desfireAuthEv2First aes nfc keyNo key rndA w).world.link := by
  have hl1 := h1 [keyNo, 0x00, 0x00] _ hw
  rcases auth_cases aes nfc keyNo key rndA w with
    ⟨-, -, -, hlink | ⟨eRndB, hlink⟩⟩ | ⟨eRndB, plain, -, -, -, -, -, hlink⟩
  · rw [hlink]
    exact hl1
  · rw [hlink]
    exact h2 _ _ hl1
  · rw [hlink]
    exact h2 _ _ hl1

/-- What every exchange of the operation's commands keeps of the link, the operation keeps. -/
theorem Op.run_link {I : σ → Prop} (op : Op)
    (hI : ∀ cmd ∈ op.commands, ∀ params l, I l → I (nfc l (apdu cmd params)).2) {w : World σ}
    {c : Call σ EspErr} (hc : op.run aes nfc w = .ok c) (hw : I w.link) : I c.world.link := by
  by_cases hauth : op.IsAuth
  · obtain ⟨keyNo, key, rndA, rfl⟩ := hauth.exists_eq
    obtain rfl : desfireAuthEv2First aes nfc keyNo key rndA w = c := by
      simpa only [Op.run, Except.ok.injEq] using hc
    exact auth_keeps (hI 0x71 (by simp [commands])) (hI 0xAF (by simp [commands])) keyNo key rndA hw
  · obtain ⟨-, hw'⟩ | ⟨cmd, params, hq, -, -, hlink⟩ := Op.run_ok_cases aes nfc hauth hc
    · rw [hw']
      exact hw
    · rw [hlink]
      exact hI cmd (Op.request_mem_commands hq) params _ hw

end LeafReader
