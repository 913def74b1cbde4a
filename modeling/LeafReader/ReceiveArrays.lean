import LeafReader.DesfireSpec

/-!
# The receive paths with every array access checked

`desfire_xfer`, `cmac_append_and_send`, `desfire_enc_send` and `desfire_enc_recv` once more, with
the sizes of `apdu`, `rx`, `macbuf`, `params`, `verify`, `plain` and `crc_in` and the caller's
array. A read of bytes that were not written counts as a fault too. Each agrees with its model
without the checks when the caller's array has room for `resp_buf` bytes.
-/

namespace LeafReader

variable {σ : Type} (aes : Aes) (nfc : Nfc σ)

/-- `memcpy(resp, data, n)` into the caller's array and `*resp_len = n`, unless NULL. -/
def Out.copy (o : Out) (data : Bytes) : Except Fault Out :=
  match o.resp with
  | none => .ok (o.put data)
  | some r => if data.length ≤ r.length then .ok (o.put data) else .error .overrun

/-- `resp` is NULL or has room for `respBuf` bytes. -/
def Out.Room (o : Out) (respBuf : Nat) : Prop := ∀ r, o.resp = some r → respBuf ≤ r.length

/-! ### `desfire_xfer` -/

def desfireXferChecked (cmd : UInt8) (params : Bytes) (out : Out) (respBuf : Nat) (w : World σ) :
    Except Fault (Call σ (Option UInt8)) := do
  if params.length > 255 then return ⟨none, out, w⟩
  let a ← fill 262 (apdu cmd params)
  let r := nfc w.link a
  let w := { w with link := r.2 }
  match r.1 with
  | .error _ => return ⟨none, out, w.setStatus 0xFF⟩
  | .ok rx =>
    let rxl := rx.bytes.length
    if rxl < 2 then return ⟨none, out, w.setStatus 0xFF⟩
    let sw1 ← slice rx.bytes (rxl - 2) 1
    if sw1 ≠ [0x91] then return ⟨none, out, w.setStatus 0xFF⟩
    let sw2 ← slice rx.bytes (rxl - 1) 1
    let st := sw2.getD 0 0
    let dataLen := rxl - 2
    if dataLen > respBuf then return ⟨none, out, w.setStatus st⟩
    let data ← slice rx.bytes 0 dataLen
    let out ← out.copy data
    return ⟨some st, out, w.setStatus st⟩

/-! ### CMAC mode -/

def cmacVerifyChecked (st : UInt8) (out : Out) (w : World σ) : Except Fault (Call σ EspErr) :=
  match out.respLen with
  | none => .ok ⟨.ok, out, w⟩
  | some n =>
    if n < 8 then .ok ⟨.ok, out, w⟩
    else
      match out.resp with
      | none => .error .nullDeref
      | some resp => do
        let rd := n - 8
        let data ← slice resp 0 rd
        let verify ← fill 256 (macHead st w.host.session ++ data)
        let mac ← slice resp rd 8
        if mac ≠ cmacSession aes w.host verify then return ⟨.invalidCrc, out, w⟩
        return ⟨.ok, { out with respLen := some rd }, w⟩

def cmacAppendAndSendChecked (cmd : UInt8) (header data : Bytes) (out : Out) (respBuf : Nat)
    (w : World σ) : Except Fault (Call σ EspErr) := do
  if sizeT (header.length + data.length) > 256 then return ⟨.invalidSize, out, w⟩
  let macbuf ← fill 263 (macHead cmd w.host.session ++ header ++ data)
  let mac8 := cmacSession aes w.host macbuf
  let params ← fill 256 (header ++ data ++ mac8)
  let x ← desfireXferChecked nfc cmd params out respBuf w
  match x.ret with
  | none => return ⟨.fail, x.out, x.world⟩
  | some st =>
    if st ≠ 0x00 ∧ st ≠ 0xAF then return ⟨.fail, x.out, x.world⟩
    cmacVerifyChecked aes st x.out x.world.bumpCtr

/-! ### Encrypted send -/

def encSendFinishChecked (out : Out) (rx : Bytes) (w : World σ) : Except Fault (Call σ (Option UInt8)) :=
  let w := w.bumpCtr
  if rx.length ≥ 8 then do
    let rd := rx.length - 8
    if 7 + rd > 263 then return ⟨none, out, w⟩
    let data ← slice rx 0 rd
    let verify ← fill 263 (macHead 0x00 w.host.session ++ data)
    let mac ← slice rx rd 8
    if mac ≠ cmacSession aes w.host verify then return ⟨none, out, w⟩
    let out ← out.copy data
    return ⟨some 0x00, out, w⟩
  else .ok ⟨some 0x00, { out with respLen := out.respLen.map fun _ => 0 }, w⟩

def desfireEncSendChecked (cmd : UInt8) (header data : Bytes) (out : Out) (w : World σ) :
    Except Fault (Call σ (Option UInt8)) := do
  let s := w.host.session
  if !s.authenticated then return ⟨none, out, w⟩
  let plain ← encSendPlain cmd header data
  if plain.length = 0 then return ⟨none, out, w⟩
  let iv := desfireEncIv aes s 0xA5 0x5A
  let cipher ← fill 256 (desfireAesCbcEncrypt aes s.kSesAuthEnc iv plain)
  if 7 + header.length + cipher.length > 263 then return ⟨none, out, w⟩
  let macbuf ← fill 263 (macHead cmd s ++ header ++ cipher)
  let mac8 := cmacSession aes w.host macbuf
  if header.length + cipher.length + 8 > 256 then return ⟨none, out, w⟩
  let params ← fill 256 (header ++ cipher ++ mac8)
  let x ← desfireXferChecked nfc cmd params (.buf 64) 64 w
  match x.ret with
  | none => return ⟨none, out, x.world⟩
  | some st =>
    if st ≠ 0x00 then return ⟨some st, out, x.world⟩
    encSendFinishChecked aes out x.out.bytes x.world

/-! ### Encrypted receive -/

def encRecvFinishChecked (payloadLen : Nat) (out : Out) (rx : Bytes) (w : World σ) :
    Except Fault (Call σ (Option UInt8)) := do
  if rx.length < 8 then return ⟨none, out, w⟩
  let w := w.bumpCtr
  let s := w.host.session
  let cipherLen := rx.length - 8
  if 7 + cipherLen > 287 then return ⟨none, out, w⟩
  let cipher ← slice rx 0 cipherLen
  let verify ← fill 287 (macHead 0x00 s ++ cipher)
  let mac ← slice rx cipherLen 8
  if mac ≠ cmacSession aes w.host verify then return ⟨none, out, w⟩
  let iv := desfireEncIv aes s 0x5A 0xA5
  if cipherLen % 16 ≠ 0 then return ⟨none, out, w⟩
  if cipherLen > 280 then return ⟨none, out, w⟩
  let plain ← fill 280 (desfireAesCbcDecrypt aes s.kSesAuthEnc iv cipher)
  -- with `resp` NULL nothing bounds `payload_len`, and these sums wrap
  if cipherLen < sizeT (payloadLen + 4) then return ⟨none, out, w⟩
  if sizeT (1 + payloadLen) > 257 then return ⟨none, out, w⟩
  let payload ← slice plain 0 payloadLen
  let crcIn ← fill 257 ([0x00] ++ payload)
  let crcRecv ← slice plain payloadLen 4
  if desfireCrc32 crcIn ≠ ofLe32 crcRecv then return ⟨none, out, w⟩
  let out ← out.copy payload
  return ⟨some 0x00, out, w⟩

def desfireEncRecvChecked (cmd : UInt8) (header : Bytes) (payloadLen : Nat) (out : Out) (respBuf : Nat)
    (w : World σ) : Except Fault (Call σ (Option UInt8)) := do
  let s := w.host.session
  if !s.authenticated then return ⟨none, out, w⟩
  if payloadLen > respBuf then return ⟨none, out, w⟩
  if sizeT (7 + header.length) > 71 then return ⟨none, out, w⟩
  let macbuf ← fill 71 (macHead cmd s ++ header)
  let mac8 := cmacSession aes w.host macbuf
  if sizeT (header.length + 8) > 72 then return ⟨none, out, w⟩
  let params ← fill 72 (header ++ mac8)
  let x ← desfireXferChecked nfc cmd params (.buf 280) 280 w
  match x.ret with
  | none => return ⟨none, out, x.world⟩
  | some st =>
    if st ≠ 0x00 then return ⟨some st, out, x.world⟩
    encRecvFinishChecked aes payloadLen out x.out.bytes x.world

/-! ### Agreement -/

theorem Out.copy_of_room {o : Out} {respBuf : Nat} (h : o.Room respBuf) {data : Bytes}
    (hd : data.length ≤ respBuf) : o.copy data = .ok (o.put data) := by
  unfold copy
  cases hr : o.resp with
  | none => rfl
  | some r => exact if_pos (hd.trans (h r hr))

theorem Out.room_buf (n : Nat) : (Out.buf n).Room n := by
  intro r hr
  cases hr
  simp

theorem slice_one {b : Bytes} {i : Nat} (h : i < b.length) : slice b i 1 = .ok [b.getD i 0] := by
  rw [slice_of_le (by omega), List.take_one_drop_eq_of_lt_length h]
  simp [List.getD_eq_getElem?_getD, h]

theorem ofLe32_take (b : Bytes) : ofLe32 (b.take 4) = ofLe32 b := by
  simp [ofLe32, List.getD_eq_getElem?_getD]

theorem desfireXferChecked_eq (cmd : UInt8) (params : Bytes) {out : Out} {respBuf : Nat} (w : World σ)
    (h : out.Room respBuf) :
    desfireXferChecked nfc cmd params out respBuf w = .ok (desfireXfer nfc cmd params out respBuf w) := by
  unfold desfireXferChecked desfireXfer
  by_cases hp : params.length > 255
  · simp only [hp, ↓reduceIte]
    rfl
  rw [if_neg hp, if_neg hp, fill_of_le (by simp [apdu]; omega)]
  simp only [bind, Except.bind]
  cases (nfc w.link (apdu cmd params)).1 with
  | error e => rfl
  | ok rx =>
    dsimp only
    by_cases h2 : rx.bytes.length < 2
    · simp only [h2, ↓reduceIte]
      rfl
    rw [if_neg h2, if_neg h2, slice_one (by omega), slice_one (by omega)]
    simp only [List.cons.injEq, and_true, ne_eq, List.getD_cons_zero]
    by_cases h91 : rx.bytes.getD (rx.bytes.length - 2) 0 = 0x91
    · simp only [h91, not_true_eq_false, ↓reduceIte]
      by_cases hd : rx.bytes.length - 2 > respBuf
      · simp only [hd, ↓reduceIte]
        rfl
      · rw [if_neg hd, if_neg hd, slice_of_le (by omega)]
        simp only [List.drop_zero]
        rw [Out.copy_of_room h (by simp; omega)]
        rfl
    · simp only [h91, not_false_eq_true, ↓reduceIte]
      rfl

/-- What an answer leaves in the caller's array. -/
theorem desfireXfer_out {nfc : Nfc σ} {cmd : UInt8} {params : Bytes} {out : Out} {respBuf : Nat}
    {w : World σ} {st : UInt8} (h : (desfireXfer nfc cmd params out respBuf w).ret = some st) :
    ∃ d, d.length ≤ respBuf ∧ (desfireXfer nfc cmd params out respBuf w).out = out.put d := by
  by_cases hp : params.length ≤ 255
  · rw [desfireXfer_eq _ _ _ _ _ hp] at h ⊢
    unfold receive at h ⊢
    cases hr : (nfc w.link (apdu cmd params)).1.parse with
    | none => rw [hr] at h; cases h
    | some p =>
      obtain ⟨st', d⟩ := p
      rw [hr] at h
      by_cases hd : d.length ≤ respBuf
      · exact ⟨d, hd, by simp [hd]⟩
      · simp [hd] at h
  · rw [desfireXfer_of_lt _ _ _ _ _ (Nat.not_le.1 hp)] at h
    cases h

theorem cmacVerifyChecked_eq (st : UInt8) {out : Out} (w : World σ)
    (h : ∀ r n, out.resp = some r → out.respLen = some n → n ≤ r.length) :
    cmacVerifyChecked aes st out w = cmacVerify aes st out w := by
  unfold cmacVerifyChecked cmacVerify
  cases hn : out.respLen with
  | none => rfl
  | some n =>
    cases hr : out.resp with
    | none => rfl
    | some r =>
      have hle := h r n hr hn
      by_cases h8 : n < 8
      · simp only [h8, ↓reduceIte]
      · simp only [h8, ↓reduceIte, bind, Except.bind]
        rw [slice_of_le (by omega), slice_of_le (by omega), List.drop_zero]

theorem cmacAppendAndSendChecked_eq (cmd : UInt8) (header data : Bytes) {out : Out} {respBuf : Nat}
    (w : World σ) (h : out.Room respBuf) :
    cmacAppendAndSendChecked aes nfc cmd header data out respBuf w =
      cmacAppendAndSend aes nfc cmd header data out respBuf w := by
  unfold cmacAppendAndSendChecked cmacAppendAndSend
  by_cases hs : sizeT (header.length + data.length) > 256
  · simp only [hs, ↓reduceIte]
  rw [if_neg hs, if_neg hs]
  simp only [bind, Except.bind]
  cases fill 263 (macHead cmd w.host.session ++ header ++ data) with
  | error e => rfl
  | ok macbuf =>
    dsimp only
    cases fill 256 (header ++ data ++ cmacSession aes w.host macbuf) with
    | error e => rfl
    | ok params =>
      dsimp only
      rw [desfireXferChecked_eq nfc cmd params w h, cmacFinish]
      dsimp only
      cases hret : (desfireXfer nfc cmd params out respBuf w).ret with
      | none => rfl
      | some st =>
        obtain ⟨d, hd, hout⟩ := desfireXfer_out hret
        have hroom (r : Bytes) (n : Nat)
          (hr : (desfireXfer nfc cmd params out respBuf w).out.resp = some r)
            (hn : (desfireXfer nfc cmd params out respBuf w).out.respLen = some n) : n ≤ r.length := by
          rw [hout] at hr hn
          obtain ⟨r0, hr0, rfl⟩ := Option.map_eq_some_iff.1 hr
          obtain ⟨n0, -, rfl⟩ := Option.map_eq_some_iff.1 hn
          simp
        have hv :=
          cmacVerifyChecked_eq aes st (desfireXfer nfc cmd params out respBuf w).world.bumpCtr hroom
        dsimp only
        rw [hv]
        rfl

theorem encSendFinishChecked_eq (out : Out) (rx : Bytes) (w : World σ) :
    encSendFinishChecked aes out rx w = encSendFinish aes out rx w := by
  unfold encSendFinishChecked encSendFinish
  by_cases h8 : rx.length ≥ 8
  · simp only [h8, ↓reduceIte]
    by_cases h263 : 7 + (rx.length - 8) > 263
    · simp only [h263, ↓reduceIte]
      rfl
    rw [if_neg h263, if_neg h263, slice_of_le (by omega), List.drop_zero]
    simp only [bind, Except.bind]
    rw [fill_of_le (by simp; omega), slice_of_le (by omega)]
    dsimp only
    unfold Out.copy
    cases out.resp with
    | none => rfl
    | some r =>
      by_cases hr : (rx.take (rx.length - 8)).length ≤ r.length
      · have hr' : rx.length - 8 ≤ r.length := by simpa using hr
        simp only [hr, hr', ↓reduceIte]
        rfl
      · have hr' : ¬ rx.length - 8 ≤ r.length := by simpa using hr
        simp only [hr, hr', ↓reduceIte]
        rfl
  · simp only [h8, ↓reduceIte]

theorem length_encSendPlain_le {cmd : UInt8} {header data plain : Bytes}
    (h : encSendPlain cmd header data = .ok plain) : plain.length ≤ 256 := by
  rcases encSendPlain_ok_cases h with rfl | ⟨hlen, rfl⟩
  · simp
  · rw [length_encPlain cmd header hlen]
    unfold pad16
    omega

theorem desfireEncSendChecked_eq (cmd : UInt8) (header data : Bytes) (out : Out) (w : World σ) :
    desfireEncSendChecked aes nfc cmd header data out w =
      desfireEncSend aes nfc cmd header data out w := by
  unfold desfireEncSendChecked desfireEncSend
  cases hauth : w.host.session.authenticated with
  | false => simp only [hauth, Bool.not_false, ↓reduceIte]
  | true =>
    simp only [hauth, Bool.not_true, Bool.false_eq_true, ↓reduceIte, bind, Except.bind]
    cases hplain : encSendPlain cmd header data with
    | error e => rfl
    | ok plain =>
      have hle := length_encSendPlain_le hplain
      dsimp only
      by_cases h0 : plain.length = 0
      · simp only [h0, ↓reduceIte]
      rw [if_neg h0, if_neg h0, fill_of_le (by simp [desfireAesCbcEncrypt, toBlocks]; omega)]
      dsimp only
      set cipher := desfireAesCbcEncrypt aes w.host.session.kSesAuthEnc
        (desfireEncIv aes w.host.session 0xA5 0x5A) plain
      by_cases h263 : 7 + header.length + cipher.length > 263
      · simp only [h263, ↓reduceIte]
      rw [if_neg h263, if_neg h263, fill_of_le (by simp; omega)]
      dsimp only
      by_cases h256 : header.length + cipher.length + 8 > 256
      · simp only [h256, ↓reduceIte]
      rw [if_neg h256, if_neg h256, fill_of_le (by simp; omega)]
      dsimp only
      rw [desfireXferChecked_eq nfc cmd _ w (Out.room_buf 64)]
      generalize desfireXfer nfc cmd _ (.buf 64) 64 w = x
      dsimp only
      cases x.ret with
      | none => rfl
      | some st => exact if_congr Iff.rfl rfl (encSendFinishChecked_eq aes out x.out.bytes x.world)

/-! ### Encrypted receive -/

theorem encRecvFinishChecked_eq (payloadLen : Nat) {out : Out} {respBuf : Nat} (rx : Bytes) (w : World σ)
    (h : out.Room respBuf) (hp : payloadLen ≤ respBuf) :
    encRecvFinishChecked aes payloadLen out rx w = encRecvFinish aes payloadLen out rx w := by
  unfold encRecvFinishChecked encRecvFinish
  by_cases h8 : rx.length < 8
  · simp only [h8, ↓reduceIte]
    rfl
  rw [if_neg h8, if_neg h8]
  dsimp only
  by_cases h287 : 7 + (rx.length - 8) > 287
  · simp only [h287, ↓reduceIte]
    rfl
  rw [if_neg h287, if_neg h287, slice_of_le (by omega), List.drop_zero, slice_of_le (by omega)]
  simp only [bind, Except.bind]
  rw [fill_of_le (by simp; omega)]
  dsimp only
  set cipher := rx.take (rx.length - 8) with hcipher
  by_cases hmac : (rx.drop (rx.length - 8)).take 8 ≠
      cmacSession aes w.bumpCtr.host (macHead 0x00 w.bumpCtr.host.session ++ cipher)
  · rw [if_pos hmac, if_pos hmac]
    rfl
  rw [if_neg hmac, if_neg hmac]
  by_cases h16 : (rx.length - 8) % 16 ≠ 0
  · rw [if_pos h16, if_pos h16]
    rfl
  rw [if_neg h16, if_neg h16]
  by_cases h280 : rx.length - 8 > 280
  · rw [if_pos h280, if_pos h280]
    rfl
  have hlen : (desfireAesCbcDecrypt aes w.bumpCtr.host.session.kSesAuthEnc
      (desfireEncIv aes w.bumpCtr.host.session 0x5A 0xA5) cipher).length = rx.length - 8 := by
    simp [desfireAesCbcDecrypt, toBlocks, cipher]
    omega
  rw [if_neg h280, if_neg h280, fill_of_le (by rw [hlen]; omega)]
  dsimp only
  set plain := desfireAesCbcDecrypt aes w.bumpCtr.host.session.kSesAuthEnc
      (desfireEncIv aes w.bumpCtr.host.session 0x5A 0xA5) cipher
  by_cases h4 : rx.length - 8 < sizeT (payloadLen + 4)
  · simp only [h4, ↓reduceIte]
    rfl
  rw [if_neg h4, if_neg h4]
  by_cases h257 : sizeT (1 + payloadLen) > 257
  · simp only [h257, ↓reduceIte]
    rfl
  rw [if_neg h257, if_neg h257]
  by_cases hwrap : 1 + payloadLen > 257
  · -- a sum that has wrapped is far past the end of `plain`
    have hfar : ¬ 0 + payloadLen ≤ plain.length := by
      rw [sizeT] at h257
      omega
    rw [if_pos hwrap, slice, if_neg hfar]
  rw [if_neg hwrap]
  rw [sizeT_of_lt (by omega)] at h4
  rw [slice_of_le (by omega), List.drop_zero, slice_of_le (by omega)]
  dsimp only
  rw [fill_of_le (by simp; omega)]
  dsimp only
  rw [ofLe32_take]
  by_cases hcrc : desfireCrc32 ([0x00] ++ plain.take payloadLen) ≠ ofLe32 (plain.drop payloadLen)
  · rw [if_pos hcrc, if_pos hcrc]
    rfl
  · rw [if_neg hcrc, if_neg hcrc, Out.copy_of_room h (by simp; omega)]
    rfl

theorem desfireEncRecvChecked_eq (cmd : UInt8) (header : Bytes) (payloadLen : Nat) {out : Out}
    {respBuf : Nat} (w : World σ) (h : out.Room respBuf) :
    desfireEncRecvChecked aes nfc cmd header payloadLen out respBuf w =
      desfireEncRecv aes nfc cmd header payloadLen out respBuf w := by
  unfold desfireEncRecvChecked desfireEncRecv
  by_cases hp : payloadLen > respBuf
  · simp only [hp, ↓reduceIte]
  simp only [hp, ↓reduceIte]
  refine if_congr Iff.rfl rfl (if_congr Iff.rfl rfl (bind_congr fun macbuf =>
    if_congr Iff.rfl rfl (bind_congr fun params => ?_)))
  rewrite [desfireXferChecked_eq nfc _ _ w (Out.room_buf 280)]
  simp only [bind, Except.bind]
  cases (desfireXfer nfc cmd params (.buf 280) 280 w).ret with
  | none => rfl
  | some st =>
    exact if_congr Iff.rfl rfl (encRecvFinishChecked_eq aes payloadLen _ _ h (Nat.le_of_not_gt hp))

end LeafReader
