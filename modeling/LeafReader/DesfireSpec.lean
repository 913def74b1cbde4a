import LeafReader.Desfire

/-!
# What one exchange of each helper does

One lemma for each way a helper can go: the request is refused before it is sent, the request does
not fit an array, or it is sent and the answer is taken or turned down. Later modules cite these and
do not unfold the helpers.
-/

namespace LeafReader

/-- An authenticated session whose MAC key is in the key slot. -/
structure Host.Live (h : Host) : Prop where
  authenticated : h.session.authenticated = true
  macKey : h.macKey = h.session.kSesAuthMac

def zeroHost : Host := ⟨⟨0, .replicate 4 0, .zero, .zero, 0, true⟩, .zero, 0x00⟩

theorem live_zeroHost : zeroHost.Live := ⟨rfl, rfl⟩

/-! ### Answers that are taken -/

/-- Status and data of an answer whose status is in `good` and whose data fits `cap` bytes. -/
def LinkResult.accept (good : List UInt8) (cap : Nat) (r : LinkResult) : Option (UInt8 × Bytes) :=
  r.parse.filter fun p => good.contains p.1 && decide (p.2.length ≤ cap)

theorem LinkResult.accept_eq_some {good : List UInt8} {cap : Nat} {r : LinkResult} {st : UInt8}
    {d : Bytes} :
    r.accept good cap = some (st, d) ↔ r.parse = some (st, d) ∧ st ∈ good ∧ d.length ≤ cap := by
  simp [accept, Option.filter_eq_some_iff]

theorem LinkResult.accept_eq_none {good : List UInt8} {cap : Nat} {r : LinkResult} :
    r.accept good cap = none ↔
      ∀ st d, r.parse = some (st, d) → st ∈ good → ¬ d.length ≤ cap := by
  simp [accept, Option.filter_eq_none_iff]

theorem LinkResult.accept_singleton {g : UInt8} {cap : Nat} {r : LinkResult} {st : UInt8} {d : Bytes} :
    r.accept [g] cap = some (st, d) ↔ st = g ∧ r.parse = some (st, d) ∧ d.length ≤ cap := by
  rw [accept_eq_some, List.mem_singleton]
  exact and_left_comm

variable {σ : Type} (aes : Aes) (nfc : Nfc σ)

theorem receive_of_accept {good : List UInt8} {cap : Nat} {r : LinkResult} {st : UInt8} {d : Bytes}
    (out : Out) (w : World σ) (h : r.accept good cap = some (st, d)) :
    receive out cap w r = ⟨some st, out.put d, w.setStatus st⟩ := by
  obtain ⟨hp, -, hd⟩ := LinkResult.accept_eq_some.1 h
  simp [receive, hp, hd]

theorem receive_answer {cap : Nat} {st : UInt8} {d : Bytes} (out : Out) (w : World σ)
    (h : d.length + 2 ≤ 280) (hd : d.length ≤ cap) :
    receive out cap w (.answer st d) = ⟨some st, out.put d, w.setStatus st⟩ :=
  receive_of_accept out w
    (LinkResult.accept_eq_some.2 ⟨LinkResult.parse_answer _ h, List.mem_singleton_self st, hd⟩)

theorem receive_answer_of_lt {cap : Nat} {st : UInt8} {d : Bytes} (out : Out) (w : World σ)
    (h : d.length + 2 ≤ 280) (hd : cap < d.length) :
    receive out cap w (.answer st d) = ⟨none, out, w.setStatus st⟩ := by
  simp [receive, LinkResult.parse_answer _ h, Nat.not_le.2 hd]

theorem receive_ret_of_reject {good : List UInt8} {cap : Nat} {r : LinkResult} (out : Out)
    (w : World σ) (h : r.accept good cap = none) :
    ∀ st, (receive out cap w r).ret = some st → st ∉ good := by
  intro st hst hg
  unfold receive at hst
  split at hst
  · cases hst
  · rename_i st' d hp
    split at hst
    · rename_i hd
      obtain rfl : st' = st := by simpa using hst
      exact LinkResult.accept_eq_none.1 h _ _ hp hg hd
    · cases hst

/-! ### CMAC mode -/

theorem cmacVerify_world {st : UInt8} {out : Out} {w : World σ} {c : Call σ EspErr}
    (h : cmacVerify aes st out w = .ok c) : c.world = w := by
  unfold cmacVerify at h
  split at h
  · cases h; rfl
  · split at h
    · cases h; rfl
    · split at h
      · cases h
      · simp only [bind, Except.bind, pure, Except.pure] at h
        split at h
        · cases h
        · split at h <;> cases h <;> rfl

theorem cmacFinish_of_accept {cap : Nat} {r : LinkResult} {st : UInt8} {d : Bytes} (out : Out)
    (w : World σ) (h : r.accept [0x00, 0xAF] cap = some (st, d)) :
    cmacFinish aes (receive out cap w r) =
      cmacVerify aes st (out.put d) (w.setStatus st).bumpCtr := by
  obtain ⟨-, hg, -⟩ := LinkResult.accept_eq_some.1 h
  have hst : ¬ (st ≠ 0x00 ∧ st ≠ 0xAF) := by
    rintro ⟨h0, haf⟩
    simp [h0, haf] at hg
  rw [receive_of_accept out w h, cmacFinish]
  simp only [hst, ↓reduceIte]

theorem cmacFinish_of_reject {cap : Nat} {r : LinkResult} (out : Out) (w : World σ)
    (h : r.accept [0x00, 0xAF] cap = none) :
    cmacFinish aes (receive out cap w r) =
      .ok ⟨.fail, (receive out cap w r).out, (receive out cap w r).world⟩ := by
  have hr := receive_ret_of_reject out w h
  unfold cmacFinish
  split
  · rfl
  · rename_i st hst
    have hst' : st ≠ 0x00 ∧ st ≠ 0xAF := by simpa using hr st hst
    rw [if_pos hst']

/-- `d` ends in the MAC of an answer with status `st` received in the state `h`. -/
def MacMatches (h : Host) (st : UInt8) (d : Bytes) : Prop :=
  d.drop (d.length - 8) = cmacSession aes h (macHead st h.session ++ d.take (d.length - 8))

instance (h : Host) (st : UInt8) (d : Bytes) : Decidable (MacMatches aes h st d) :=
  inferInstanceAs (Decidable (_ = _))

/-- The check of the last eight bytes as the code writes it. -/
theorem take_drop_ne_iff {h : Host} {st : UInt8} {d : Bytes} (hd : 8 ≤ d.length) :
    (d.drop (d.length - 8)).take 8 ≠ cmacSession aes h (macHead st h.session ++ d.take (d.length - 8)) ↔
      ¬ MacMatches aes h st d := by
  rw [List.take_of_length_le (by simp; omega)]
  rfl

/-- With both pointers given: a short answer passes, a long one overruns `verify[256]`, and in
between the MAC decides. -/
theorem cmacVerify_put {st : UInt8} {buf : Bytes} {n : Nat} (d : Bytes) (w : World σ) :
    cmacVerify aes st (Out.put ⟨some buf, some n⟩ d) w =
      if d.length < 8 then .ok ⟨.ok, Out.put ⟨some buf, some n⟩ d, w⟩
      else if 257 < d.length then .error .overrun
      else if MacMatches aes w.host st d then
        .ok ⟨.ok, ⟨some (d ++ buf.drop d.length), some (d.length - 8)⟩, w⟩
      else .ok ⟨.invalidCrc, Out.put ⟨some buf, some n⟩ d, w⟩ := by
  simp only [cmacVerify, Out.put, Option.map_some]
  by_cases h8 : d.length < 8
  · simp [h8]
  have htake : (d ++ buf.drop d.length).take (d.length - 8) = d.take (d.length - 8) :=
    List.take_append_of_le_length (by omega)
  have hdrop : ((d ++ buf.drop d.length).drop (d.length - 8)).take 8 =
      (d.drop (d.length - 8)).take 8 := by
    rw [List.drop_append_of_le_length (by omega), List.take_append_of_le_length (by simp; omega)]
  simp only [h8, ↓reduceIte, htake, hdrop]
  by_cases h257 : 257 < d.length
  · rw [if_pos h257, fill_of_lt (by simp; omega)]
    rfl
  rw [if_neg h257, fill_of_le (by simp; omega)]
  simp only [bind, Except.bind]
  rw [if_congr (take_drop_ne_iff aes (by omega)) rfl rfl]
  by_cases hm : MacMatches aes w.host st d
  · simp [hm, pure, Except.pure]
  · simp [hm, pure, Except.pure]

def cmacParams (h : Host) (cmd : UInt8) (header data : Bytes) : Bytes :=
  header ++ data ++ cmacSession aes h (macHead cmd h.session ++ header ++ data)

@[simp] theorem length_cmacParams (h : Host) (cmd : UInt8) (header data : Bytes) :
    (cmacParams aes h cmd header data).length = header.length + data.length + 8 := by
  simp [cmacParams]; omega

theorem sizeT_of_lt {n : Nat} (h : n < 2 ^ 32) : sizeT n = n := Nat.mod_eq_of_lt h

/-- The request fits `params[256]`: it is handed to `desfire_xfer`. -/
theorem cmacAppendAndSend_xfer {cmd : UInt8} {header data : Bytes} (out : Out) (respBuf : Nat)
    (w : World σ) (h : header.length + data.length ≤ 248) :
    cmacAppendAndSend aes nfc cmd header data out respBuf w =
      cmacFinish aes (desfireXfer nfc cmd (cmacParams aes w.host cmd header data) out respBuf w) := by
  have h1 : ¬ sizeT (header.length + data.length) > 256 := by
    rw [sizeT_of_lt (by omega)]; omega
  rw [cmacAppendAndSend, if_neg h1, fill_of_le (by simp; omega)]
  simp only [bind, Except.bind]
  rw [fill_of_le (by simp; omega)]
  rfl

theorem cmacAppendAndSend_sent {cmd : UInt8} {header data : Bytes} (out : Out) (respBuf : Nat)
    (w : World σ) (h : header.length + data.length ≤ 247) :
    cmacAppendAndSend aes nfc cmd header data out respBuf w =
      cmacFinish aes (receive out respBuf
        { w with link := (nfc w.link (apdu cmd (cmacParams aes w.host cmd header data))).2 }
        (nfc w.link (apdu cmd (cmacParams aes w.host cmd header data))).1) := by
  rw [cmacAppendAndSend_xfer aes nfc out respBuf w (by omega), desfireXfer_eq]
  simp; omega

/-- One byte too many for `desfire_xfer`, or too many for the first check: nothing is sent. -/
theorem cmacAppendAndSend_refused (cmd : UInt8) (header data : Bytes) (out : Out) (respBuf : Nat)
    (w : World σ) (h : header.length + data.length = 248 ∨ sizeT (header.length + data.length) > 256) :
    ∃ e, e ≠ .ok ∧ cmacAppendAndSend aes nfc cmd header data out respBuf w = .ok ⟨e, out, w⟩ := by
  rcases h with h | h
  · refine ⟨.fail, by decide, ?_⟩
    rw [cmacAppendAndSend_xfer aes nfc out respBuf w (by omega),
      desfireXfer_of_lt _ _ _ _ _ (by simp; omega)]
    rfl
  · exact ⟨.invalidSize, by decide, by rw [cmacAppendAndSend, if_pos h]; rfl⟩

/-- Header and data pass the check at 256 bytes but with the MAC they exceed `params[256]`. -/
theorem cmacAppendAndSend_overrun {cmd : UInt8} {header data : Bytes} (out : Out) (respBuf : Nat)
    (w : World σ) (h : sizeT (header.length + data.length) ≤ 256)
    (h' : 248 < header.length + data.length) :
    cmacAppendAndSend aes nfc cmd header data out respBuf w = .error .overrun := by
  rw [cmacAppendAndSend, if_neg (by omega)]
  by_cases hm : header.length + data.length ≤ 256
  · rw [fill_of_le (by simp; omega)]
    simp only [bind, Except.bind]
    rw [fill_of_lt (by simp; omega)]
  · rw [fill_of_lt (by simp; omega)]
    rfl

/-! ### Encrypted send -/

def pad16 (n : Nat) : Nat := (n + 15) / 16 * 16

theorem length_padToBlock {buf : Bytes} {bufSize : Nat} (h : pad16 buf.length ≤ bufSize) :
    (padToBlock buf bufSize).length = pad16 buf.length := by
  unfold pad16 at *
  unfold padToBlock
  by_cases h0 : buf.length % 16 = 0
  · simp [h0]; omega
  · have h1 : ¬ 16 - buf.length % 16 = 0 := by omega
    have h2 : ¬ buf.length + (16 - buf.length % 16) > bufSize := by omega
    simp only [h0, h1, h2, ↓reduceIte]
    simp; omega

theorem take_padToBlock {buf : Bytes} {bufSize : Nat} (h : pad16 buf.length ≤ bufSize) :
    (padToBlock buf bufSize).take buf.length = buf := by
  unfold pad16 at h
  unfold padToBlock
  by_cases h0 : buf.length % 16 = 0
  · simp [h0]
  · have h1 : ¬ 16 - buf.length % 16 = 0 := by omega
    have h2 : ¬ buf.length + (16 - buf.length % 16) > bufSize := by omega
    simp only [h0, h1, h2, ↓reduceIte]
    simp

/-- `data | crc32(cmd | header | data) | pad`, for data that fits. -/
def encPlain (cmd : UInt8) (header data : Bytes) : Bytes :=
  padToBlock (data ++ le32 (desfireCrc32 ([cmd] ++ header ++ data))) 256

theorem encSendPlain_eq (cmd : UInt8) (header data : Bytes) :
    encSendPlain cmd header data =
      if sizeT (1 + header.length + data.length) > 257 then .ok []
      else if 257 < 1 + header.length + data.length then .error .overrun
      else if 256 < data.length + 4 then .ok []
      else .ok (encPlain cmd header data) := by
  rw [encSendPlain]
  by_cases h1 : sizeT (1 + header.length + data.length) > 257
  · rw [if_pos h1, if_pos h1]
    rfl
  rw [if_neg h1, if_neg h1]
  by_cases h2 : 257 < 1 + header.length + data.length
  · rw [if_pos h2, fill_of_lt (by simp; omega)]
    rfl
  rw [if_neg h2, fill_of_le (by simp; omega)]
  simp only [bind, Except.bind]
  rw [sizeT_of_lt (by omega)]
  by_cases h3 : 256 < data.length + 4
  · rw [if_pos h3, if_pos h3]
    rfl
  · rw [if_neg h3, if_neg h3, fill_of_le (by simp; omega)]
    rfl

/-- The plaintext that is encrypted, or the empty one, which stands for the return value −1. -/
theorem encSendPlain_ok_cases {cmd : UInt8} {header data plain : Bytes}
    (h : encSendPlain cmd header data = .ok plain) :
    plain = [] ∨ data.length ≤ 252 ∧ plain = encPlain cmd header data := by
  rw [encSendPlain_eq] at h
  by_cases h1 : sizeT (1 + header.length + data.length) > 257
  · rw [if_pos h1] at h
    exact .inl (Except.ok.inj h).symm
  rw [if_neg h1] at h
  by_cases h2 : 257 < 1 + header.length + data.length
  · rw [if_pos h2] at h
    cases h
  rw [if_neg h2] at h
  by_cases h3 : 256 < data.length + 4
  · rw [if_pos h3] at h
    exact .inl (Except.ok.inj h).symm
  · rw [if_neg h3] at h
    exact .inr ⟨by omega, (Except.ok.inj h).symm⟩

theorem encSendPlain_of_le {cmd : UInt8} {header data : Bytes} (h7 : header.length = 7)
    (h : data.length ≤ 249) : encSendPlain cmd header data = .ok (encPlain cmd header data) := by
  have h1 : ¬ sizeT (1 + header.length + data.length) > 257 := by
    rw [sizeT_of_lt (by omega)]; omega
  rw [encSendPlain_eq, if_neg h1, if_neg (by omega), if_neg (by omega)]

theorem encSendPlain_of_lt (cmd : UInt8) {header data : Bytes} (h7 : header.length = 7)
    (h : 249 < data.length) :
    encSendPlain cmd header data = .ok [] ∧ sizeT (1 + header.length + data.length) > 257 ∨
      encSendPlain cmd header data = .error .overrun ∧
        sizeT (1 + header.length + data.length) ≤ 257 := by
  rw [encSendPlain_eq]
  by_cases h1 : sizeT (1 + header.length + data.length) > 257
  · exact .inl ⟨if_pos h1, h1⟩
  · exact .inr ⟨by rw [if_neg h1, if_pos (by omega)], by omega⟩

theorem length_encPlain (cmd : UInt8) (header : Bytes) {data : Bytes} (h : data.length ≤ 252) :
    (encPlain cmd header data).length = pad16 (data.length + 4) := by
  rw [encPlain, length_padToBlock (by simp [pad16]; omega)]
  simp

def encCipher (s : Session) (plain : Bytes) : Bytes :=
  desfireAesCbcEncrypt aes s.kSesAuthEnc (desfireEncIv aes s 0xA5 0x5A) plain

def encParams (h : Host) (cmd : UInt8) (header plain : Bytes) : Bytes :=
  header ++ encCipher aes h.session plain ++
    cmacSession aes h (macHead cmd h.session ++ header ++ encCipher aes h.session plain)

theorem length_encCipher (s : Session) {plain : Bytes} (h : plain.length % 16 = 0) :
    (encCipher aes s plain).length = plain.length := length_desfireAesCbcEncrypt aes _ _ h

theorem length_encParams (h : Host) (cmd : UInt8) (header : Bytes) {plain : Bytes}
    (hp : plain.length % 16 = 0) :
    (encParams aes h cmd header plain).length = header.length + plain.length + 8 := by
  simp [encParams, length_encCipher aes _ hp]; omega

def encSendTail (out : Out) (x : Call σ (Option UInt8)) : Except Fault (Call σ (Option UInt8)) :=
  match x.ret with
  | none => .ok ⟨none, out, x.world⟩
  | some st => if st ≠ 0x00 then .ok ⟨some st, out, x.world⟩
      else encSendFinish aes out x.out.bytes x.world

theorem encSendTail_of_reject {r : LinkResult} (out : Out) (w : World σ)
    (h : r.accept [0x00] 64 = none) :
    ∃ ret, ret ≠ some 0x00 ∧
      encSendTail aes out (receive (.buf 64) 64 w r) =
        .ok ⟨ret, out, (receive (.buf 64) 64 w r).world⟩ := by
  have hr := receive_ret_of_reject (.buf 64) w h
  unfold encSendTail
  split
  · exact ⟨none, by simp, rfl⟩
  · rename_i st hst
    have hst' : st ≠ 0x00 := by simpa using hr st hst
    exact ⟨some st, by simpa using hst', by rw [if_pos hst']⟩

/-- An accepted answer to a request without a response buffer: counted, and its MAC checked unless
the answer is shorter than a MAC. -/
theorem encSendTail_of_accept {r : LinkResult} {st : UInt8} {d : Bytes} (w : World σ)
    (h : r.accept [0x00] 64 = some (st, d)) :
    encSendTail aes .null (receive (.buf 64) 64 w r) =
      .ok ⟨if d.length < 8 ∨ MacMatches aes w.bumpCtr.host 0x00 d then some 0x00 else none, .null,
        (w.setStatus 0x00).bumpCtr⟩ := by
  obtain ⟨rfl, -, hd⟩ := LinkResult.accept_singleton.1 h
  rw [receive_of_accept _ w h, encSendTail]
  simp only [ne_eq, not_true_eq_false, ↓reduceIte, Out.bytes_put_buf, encSendFinish]
  by_cases h8 : d.length < 8
  · simp [h8, show ¬ d.length ≥ 8 by omega, Out.null]
  · rw [if_pos (by omega), if_neg (by omega), if_congr (take_drop_ne_iff aes (by omega)) rfl rfl]
    have hm : MacMatches aes (w.setStatus 0x00).bumpCtr.host 0x00 d ↔
        MacMatches aes w.bumpCtr.host 0x00 d := Iff.rfl
    by_cases h' : MacMatches aes w.bumpCtr.host 0x00 d
    · simp [h', hm, Out.null, Out.put]
    · simp [h', hm, h8]

theorem pad16_mod (n : Nat) : pad16 n % 16 = 0 := by unfold pad16; omega

/-- The lengths of a request that is sent. -/
def EncSendSent (header data : Bytes) : Prop :=
  1 + header.length + data.length ≤ 257 ∧ data.length + 4 ≤ 256 ∧
    header.length + pad16 (data.length + 4) + 8 ≤ 255

instance (header data : Bytes) : Decidable (EncSendSent header data) :=
  inferInstanceAs (Decidable (_ ∧ _ ∧ _))

/-- `desfire_enc_send` of any header. -/
theorem desfireEncSend_eq (cmd : UInt8) (header data : Bytes) (out : Out) (w : World σ)
    (hauth : w.host.session.authenticated = true) :
    desfireEncSend aes nfc cmd header data out w =
      if sizeT (1 + header.length + data.length) > 257 then .ok ⟨none, out, w⟩
      else if 257 < 1 + header.length + data.length then .error .overrun
      else if EncSendSent header data then
        encSendTail aes out (desfireXfer nfc cmd
          (encParams aes w.host cmd header (encPlain cmd header data)) (.buf 64) 64 w)
      else .ok ⟨none, out, w⟩ := by
  rw [desfireEncSend, encSendPlain_eq, hauth]
  simp only [Bool.not_true, Bool.false_eq_true, ↓reduceIte]
  by_cases h1 : sizeT (1 + header.length + data.length) > 257
  · rw [if_pos h1, if_pos h1]
    rfl
  rw [if_neg h1, if_neg h1]
  by_cases h2 : 257 < 1 + header.length + data.length
  · rw [if_pos h2, if_pos h2]
    rfl
  rw [if_neg h2, if_neg h2]
  by_cases h3 : 256 < data.length + 4
  · rw [if_pos h3, if_neg fun h => by have := h.2.1; omega]
    rfl
  have hlen := length_encPlain cmd header (show data.length ≤ 252 by omega)
  have hmod : (encPlain cmd header data).length % 16 = 0 := by rw [hlen]; exact pad16_mod _
  have hpos : ¬ pad16 (data.length + 4) = 0 := by unfold pad16; omega
  have hc := length_encCipher aes w.host.session hmod
  have hparams := length_encParams aes w.host cmd header hmod
  unfold encCipher at hc
  rw [if_neg h3]
  simp only [bind, Except.bind, hpos, hc, hlen, ↓reduceIte]
  by_cases hs : EncSendSent header data
  · have := hs.2.2
    rw [if_neg (by omega), if_neg (by omega), if_pos hs]
    rfl
  · have hbig : 255 < header.length + pad16 (data.length + 4) + 8 :=
      Nat.not_le.1 fun h => hs ⟨by omega, by omega, h⟩
    rw [if_neg hs]
    by_cases h4 : 7 + header.length + pad16 (data.length + 4) > 263
    · rw [if_pos h4]
      rfl
    rw [if_neg h4]
    by_cases h5 : header.length + pad16 (data.length + 4) + 8 > 256
    · rw [if_pos h5]
      rfl
    · rw [if_neg h5]
      show encSendTail aes out (desfireXfer nfc cmd
        (encParams aes w.host cmd header (encPlain cmd header data)) (.buf 64) 64 w) = _
      rw [desfireXfer_of_lt _ _ _ _ _ (by omega)]
      rfl

theorem desfireEncSend_sent {cmd : UInt8} {header data : Bytes} (out : Out) (w : World σ)
    (hauth : w.host.session.authenticated = true) (h7 : header.length = 7) (h : data.length ≤ 236) :
    desfireEncSend aes nfc cmd header data out w =
      encSendTail aes out (receive (.buf 64) 64
        { w with link :=
            (nfc w.link (apdu cmd (encParams aes w.host cmd header (encPlain cmd header data)))).2 }
        (nfc w.link (apdu cmd (encParams aes w.host cmd header (encPlain cmd header data)))).1) := by
  have hlen := length_encPlain cmd header (show data.length ≤ 252 by omega)
  have hmod : (encPlain cmd header data).length % 16 = 0 := by rw [hlen]; exact pad16_mod _
  have hbound : pad16 (data.length + 4) ≤ 240 := by unfold pad16; omega
  have h1 : ¬ sizeT (1 + header.length + data.length) > 257 := by
    rw [sizeT_of_lt (by omega)]; omega
  rw [← desfireXfer_eq _ _ _ _ _ (by rw [length_encParams aes _ _ _ hmod]; omega),
    desfireEncSend_eq aes nfc cmd header data out w hauth, if_neg h1, if_neg (by omega),
    if_pos ⟨by omega, by omega, by omega⟩]

/-- More data than that is refused without a transmission, unless the length check wraps. -/
theorem desfireEncSend_refused {cmd : UInt8} {header data : Bytes} (out : Out) (w : World σ)
    (hauth : w.host.session.authenticated = true) (h7 : header.length = 7) (h : 236 < data.length)
    (hs : data.length ≤ 249 ∨ sizeT (1 + header.length + data.length) > 257) :
    desfireEncSend aes nfc cmd header data out w = .ok ⟨none, out, w⟩ := by
  rw [desfireEncSend_eq aes nfc cmd header data out w hauth]
  by_cases h1 : sizeT (1 + header.length + data.length) > 257
  · rw [if_pos h1]
  · have hbound : 256 ≤ pad16 (data.length + 4) := by unfold pad16; omega
    rw [if_neg h1, if_neg (by omega), if_neg fun hsent => by have := hsent.2.2; omega]

theorem desfireEncSend_overrun {cmd : UInt8} {header data : Bytes} (out : Out) (w : World σ)
    (hauth : w.host.session.authenticated = true) (h7 : header.length = 7) (h : 249 < data.length)
    (hs : sizeT (1 + header.length + data.length) ≤ 257) :
    desfireEncSend aes nfc cmd header data out w = .error .overrun := by
  rw [desfireEncSend_eq aes nfc cmd header data out w hauth, if_neg (by omega), if_pos (by omega)]

/-! ### Encrypted receive -/

def Host.bump (h : Host) : Host := { h with session := { h.session with cmdCtr := h.session.cmdCtr + 1 } }

theorem bumpCtr_host (w : World σ) : w.bumpCtr.host = w.host.bump := rfl

/-- The checks on `payload_len` wrap, and the answer passes all the others before the copy into
`crc_in[257]`. -/
def RecvOverruns (h : Host) (payloadLen : Nat) (d : Bytes) : Prop :=
  (sizeT (1 + payloadLen) ≤ 257 ∧ 257 < 1 + payloadLen) ∧ 8 ≤ d.length ∧ (d.length - 8) % 16 = 0 ∧
    sizeT (payloadLen + 4) ≤ d.length - 8 ∧ MacMatches aes h.bump 0x00 d

instance (h : Host) (payloadLen : Nat) (d : Bytes) : Decidable (RecvOverruns aes h payloadLen d) :=
  inferInstanceAs (Decidable ((_ ∧ _) ∧ _ ∧ _ ∧ _ ∧ MacMatches ..))

theorem not_recvOverruns {h : Host} {payloadLen : Nat} {d : Bytes} (hp : payloadLen ≤ 256) :
    ¬ RecvOverruns aes h payloadLen d := fun hr => by
  have := hr.1.2
  omega

/-- The only such length of 32 bits is the largest one. -/
theorem recvOverruns_iff {h : Host} {length : UInt32} {d : Bytes} :
    RecvOverruns aes h length.toNat d ↔ length = 0xFFFFFFFF ∧ 24 ≤ d.length ∧ d.length % 16 = 8 ∧
      MacMatches aes h.bump 0x00 d := by
  have hlt := length.toNat_lt
  have hmax : length = 0xFFFFFFFF ↔ length.toNat = 2 ^ 32 - 1 := UInt32.toNat_inj.symm
  unfold RecvOverruns sizeT
  rw [hmax]
  constructor
  · rintro ⟨⟨h1, h257⟩, h8, h16, h4, hm⟩
    exact ⟨by omega, by omega, by omega, hm⟩
  · rintro ⟨hmax, h24, h16, hm⟩
    exact ⟨⟨by omega, by omega⟩, by omega, by omega, by omega, hm⟩

/-- What an answer of at most 280 bytes leads to: past `crc_in`, or a call that has counted an
answer with room for a MAC, and that has written to the caller's memory only with the MAC right. -/
theorem encRecvFinish_cases (payloadLen : Nat) (out : Out) {d : Bytes}
    (hd : d.length ≤ 280) (w : World σ) :
    (RecvOverruns aes w.host payloadLen d ∧ encRecvFinish aes payloadLen out d w = .error .overrun) ∨
      ¬ RecvOverruns aes w.host payloadLen d ∧ ∃ c, encRecvFinish aes payloadLen out d w = .ok c ∧
        c.world = (if d.length < 8 then w else w.bumpCtr) ∧
        (c.ret = none ∧ c.out = out ∨
          c.ret = some 0x00 ∧ 8 ≤ d.length ∧ MacMatches aes w.host.bump 0x00 d ∧
            ∃ p, p.length ≤ payloadLen ∧ c.out = out.put p) := by
  unfold encRecvFinish
  by_cases h8 : d.length < 8
  · exact .inr ⟨fun h => by have := h.2.1; omega, ⟨none, out, w⟩, if_pos h8, (if_pos h8).symm,
      .inl ⟨rfl, rfl⟩⟩
  have hfail (h : ¬ RecvOverruns aes w.host payloadLen d) :
      ¬ RecvOverruns aes w.host payloadLen d ∧ ∃ c : Call σ (Option UInt8),
        (.ok ⟨none, out, w.bumpCtr⟩ : Except Fault _) = .ok c ∧ c.world = w.bumpCtr ∧
        (c.ret = none ∧ c.out = out ∨
          c.ret = some 0x00 ∧ 8 ≤ d.length ∧ MacMatches aes w.host.bump 0x00 d ∧
            ∃ p, p.length ≤ payloadLen ∧ c.out = out.put p) :=
    ⟨h, _, rfl, rfl, .inl ⟨rfl, rfl⟩⟩
  simp only [h8, ↓reduceIte]
  rw [if_neg (by omega), if_congr (take_drop_ne_iff aes (by omega)) rfl rfl, bumpCtr_host]
  by_cases hmac : MacMatches aes w.host.bump 0x00 d
  swap
  · rw [if_pos hmac]
    exact .inr (hfail fun h => hmac h.2.2.2.2)
  rw [if_neg (not_not.2 hmac)]
  by_cases h16 : (d.length - 8) % 16 = 0
  swap
  · rw [if_pos h16]
    exact .inr (hfail fun h => h16 h.2.2.1)
  rw [if_neg (not_not.2 h16), if_neg (by omega)]
  by_cases h4 : d.length - 8 < sizeT (payloadLen + 4)
  · rw [if_pos h4]
    exact .inr (hfail fun h => Nat.not_le.2 h4 h.2.2.2.1)
  rw [if_neg h4]
  by_cases h1 : sizeT (1 + payloadLen) > 257
  · rw [if_pos h1]
    exact .inr (hfail fun h => Nat.not_le.2 h1 h.1.1)
  rw [if_neg h1]
  by_cases h257 : 1 + payloadLen > 257
  · rw [if_pos h257]
    exact .inl ⟨⟨⟨Nat.le_of_not_gt h1, h257⟩, Nat.le_of_not_gt h8, h16, Nat.le_of_not_gt h4, hmac⟩, rfl⟩
  rw [if_neg h257]
  have hno : ¬ RecvOverruns aes w.host payloadLen d := fun h => h257 h.1.2
  split
  · exact .inr (hfail hno)
  · exact .inr ⟨hno, _, rfl, rfl, .inr ⟨rfl, Nat.le_of_not_gt h8, hmac, _, by simp, rfl⟩⟩

def encRecvTail (payloadLen : Nat) (out : Out) (x : Call σ (Option UInt8)) :
    Except Fault (Call σ (Option UInt8)) :=
  match x.ret with
  | none => .ok ⟨none, out, x.world⟩
  | some st =>
    if st ≠ 0x00 then .ok ⟨some st, out, x.world⟩
    else encRecvFinish aes payloadLen out x.out.bytes x.world

theorem encRecvTail_of_reject {r : LinkResult} (payloadLen : Nat) (out : Out) (w : World σ)
    (h : r.accept [0x00] 280 = none) :
    ∃ ret, ret ≠ some 0x00 ∧ encRecvTail aes payloadLen out (receive (.buf 280) 280 w r) =
      .ok ⟨ret, out, (receive (.buf 280) 280 w r).world⟩ := by
  have hr := receive_ret_of_reject (.buf 280) w h
  unfold encRecvTail
  split
  · exact ⟨none, by simp, rfl⟩
  · rename_i st hst
    have hst' : st ≠ 0x00 := by simpa using hr st hst
    exact ⟨some st, by simpa using hst', by rw [if_pos hst']⟩

theorem encRecvTail_of_accept {r : LinkResult} {st : UInt8} {d : Bytes} (payloadLen : Nat) (out : Out)
    (w : World σ) (h : r.accept [0x00] 280 = some (st, d)) :
    encRecvTail aes payloadLen out (receive (.buf 280) 280 w r) =
      encRecvFinish aes payloadLen out d (w.setStatus 0x00) := by
  obtain ⟨rfl, -⟩ := LinkResult.accept_singleton.1 h
  rw [receive_of_accept _ w h, encRecvTail]
  simp

/-- A live session: the request is refused, overruns `macbuf[71]` after a wrapped check, or is sent.
-/
theorem desfireEncRecv_eq (cmd : UInt8) (header : Bytes) (payloadLen : Nat) (out : Out) (respBuf : Nat)
    (w : World σ) (hauth : w.host.session.authenticated = true) :
    desfireEncRecv aes nfc cmd header payloadLen out respBuf w =
      if respBuf < payloadLen then .ok ⟨none, out, w⟩
      else if sizeT (7 + header.length) > 71 then .ok ⟨none, out, w⟩
      else if 64 < header.length then .error .overrun
      else encRecvTail aes payloadLen out (receive (.buf 280) 280
        { w with link := (nfc w.link (apdu cmd (cmacParams aes w.host cmd header []))).2 }
        (nfc w.link (apdu cmd (cmacParams aes w.host cmd header []))).1) := by
  rw [desfireEncRecv, hauth]
  simp only [Bool.not_true, Bool.false_eq_true, ↓reduceIte, bind, Except.bind]
  by_cases hp : respBuf < payloadLen
  · rw [if_pos hp, if_pos hp]
    rfl
  rw [if_neg hp, if_neg hp]
  by_cases h71 : sizeT (7 + header.length) > 71
  · rw [if_pos h71, if_pos h71]
    rfl
  rw [if_neg h71, if_neg h71]
  by_cases h64 : 64 < header.length
  · rw [if_pos h64, fill_of_lt (by simp; omega)]
  rw [if_neg h64, fill_of_le (by simp; omega)]
  dsimp only
  rw [if_neg (by rw [sizeT_of_lt (by omega)]; omega), fill_of_le (by simp; omega),
    ← desfireXfer_eq _ _ _ _ _ (by simp; omega)]
  simp only [cmacParams, List.append_nil]
  rfl

/-- With a header of at most 64 bytes and a buffer for the payload, the request is sent. -/
theorem desfireEncRecv_sent {cmd : UInt8} {header : Bytes} {payloadLen respBuf : Nat} (out : Out)
    (w : World σ) (hauth : w.host.session.authenticated = true) (hh : header.length ≤ 64)
    (hp : payloadLen ≤ respBuf) :
    desfireEncRecv aes nfc cmd header payloadLen out respBuf w =
      encRecvTail aes payloadLen out (receive (.buf 280) 280
        { w with link := (nfc w.link (apdu cmd (cmacParams aes w.host cmd header []))).2 }
        (nfc w.link (apdu cmd (cmacParams aes w.host cmd header []))).1) := by
  rw [desfireEncRecv_eq aes nfc _ _ _ _ _ _ hauth, if_neg (Nat.not_lt.2 hp),
    if_neg (by rw [sizeT_of_lt (by omega)]; omega), if_neg (Nat.not_lt.2 hh)]

/-- A request that was sent: it overruns `crc_in`, or the world after it is as the answer says, and
the caller's memory is as it was unless the MAC was right. -/
theorem desfireEncRecv_cases (cmd : UInt8) {header : Bytes} {payloadLen respBuf : Nat} (out : Out)
    (w : World σ) (hauth : w.host.session.authenticated = true) (hh : header.length ≤ 64)
    (hp : payloadLen ≤ respBuf) :
    let r := nfc w.link (apdu cmd (cmacParams aes w.host cmd header []))
    let x := desfireEncRecv aes nfc cmd header payloadLen out respBuf w
    (∃ p ∈ r.1.accept [0x00] 280, RecvOverruns aes w.host payloadLen p.2) ∧ x = .error .overrun ∨
      (¬ ∃ p ∈ r.1.accept [0x00] 280, RecvOverruns aes w.host payloadLen p.2) ∧ ∃ c, x = .ok c ∧
        c.world.host.session = (if (r.1.accept [0x00] 280).any (8 ≤ ·.2.length) then w.host.bump.session
          else w.host.session) ∧ c.world.host.macKey = w.host.macKey ∧ c.world.link = r.2 ∧
        (c.ret ≠ some 0x00 ∧ c.out = out ∨ c.ret = some 0x00 ∧ ∃ d,
          r.1.accept [0x00] 280 = some (0x00, d) ∧
          8 ≤ d.length ∧ MacMatches aes w.host.bump 0x00 d ∧
            ∃ p, p.length ≤ payloadLen ∧ c.out = out.put p) := by
  intro r x
  have hx : x = encRecvTail aes payloadLen out (receive (.buf 280) 280 ⟨w.host, r.2⟩ r.1) :=
    desfireEncRecv_sent aes nfc out w hauth hh hp
  rw [hx]
  clear_value r
  cases hr : r.1.accept [0x00] 280 with
  | none =>
    obtain ⟨ret, hret, he⟩ := encRecvTail_of_reject aes payloadLen out (World.mk w.host r.2) hr
    rw [he]
    exact .inr ⟨by simp, _, rfl, by simp, by simp, by simp, .inl ⟨hret, rfl⟩⟩
  | some p =>
    obtain ⟨st, d⟩ := p
    obtain ⟨rfl, -, hd⟩ := LinkResult.accept_singleton.1 hr
    rw [encRecvTail_of_accept aes _ _ _ hr]
    rcases encRecvFinish_cases aes payloadLen out hd ((World.mk w.host r.2).setStatus 0x00) with
      ⟨hover, he⟩ | ⟨hover, c, he, hw, hc⟩
    · exact .inl ⟨⟨_, rfl, hover⟩, he⟩
    · refine .inr ⟨?_, c, he, ?_, ?_, ?_, ?_⟩
      · rintro ⟨p, hp, hover'⟩
        cases hp
        exact hover hover'
      · rw [hw]
        by_cases h8 : d.length < 8
        · simp [h8, show ¬ 8 ≤ d.length by omega]
        · simp [h8, show 8 ≤ d.length by omega, Host.bump]
      · rw [hw]
        split <;> rfl
      · rw [hw]
        split <;> rfl
      · rcases hc with ⟨hret, hout⟩ | ⟨hret, h8, hm, p, hp, hout⟩
        · exact .inl ⟨by simp [hret], hout⟩
        · exact .inr ⟨hret, d, rfl, h8, hm, p, hp, hout⟩

/-! ### ChangeKey -/

theorem length_changeKeyPlain (same : Bool) (keyNo : UInt8) (old new : Block) (ver : UInt8) :
    (changeKeyPlain same keyNo old new ver).length = 32 := by
  unfold changeKeyPlain
  split <;> rw [length_padToBlock] <;> simp [pad16]

def changeKeyTail (same : Bool) (x : Call σ (Option UInt8)) : Call σ EspErr :=
  if x.ret ≠ some 0x00 then ⟨.fail, .null, x.world⟩
  else if same then
    ⟨.ok, .null, x.world.setSession { x.world.host.session with authenticated := false }⟩
  else changeKeyFinish aes x.out.bytes x.world

theorem changeKeyTail_of_reject {r : LinkResult} (same : Bool) (w : World σ)
    (h : r.accept [0x00] 16 = none) :
    changeKeyTail aes same (receive (.buf 16) 16 w r) =
      ⟨.fail, .null, (receive (.buf 16) 16 w r).world⟩ := by
  have hr := receive_ret_of_reject (.buf 16) w h
  rw [changeKeyTail, if_pos fun h0 => hr _ h0 (by simp)]

theorem changeKeyTail_same {r : LinkResult} {st : UInt8} {d : Bytes} (w : World σ)
    (h : r.accept [0x00] 16 = some (st, d)) :
    changeKeyTail aes true (receive (.buf 16) 16 w r) =
      ⟨.ok, .null, (w.setStatus 0x00).setSession { w.host.session with authenticated := false }⟩ := by
  obtain ⟨rfl, -⟩ := LinkResult.accept_singleton.1 h
  rw [receive_of_accept _ w h]
  rfl

theorem changeKeyTail_different {r : LinkResult} {st : UInt8} {d : Bytes} (w : World σ)
    (h : r.accept [0x00] 16 = some (st, d)) :
    changeKeyTail aes false (receive (.buf 16) 16 w r) =
      ⟨if d.length < 8 ∨ MacMatches aes w.bumpCtr.host 0x00 d then .ok else .invalidCrc, .null,
        (w.setStatus 0x00).bumpCtr⟩ := by
  obtain ⟨rfl, -⟩ := LinkResult.accept_singleton.1 h
  rw [receive_of_accept _ w h, changeKeyTail]
  simp only [ne_eq, not_true_eq_false, ↓reduceIte, Bool.false_eq_true, Out.bytes_put_buf,
    changeKeyFinish]
  by_cases h8 : d.length < 8
  · simp [h8, show ¬ d.length ≥ 8 by omega]
  · rw [if_pos (by omega), if_congr (take_drop_ne_iff aes (by omega)) rfl rfl]
    have hm : MacMatches aes (w.setStatus 0x00).bumpCtr.host 0x00 d ↔
        MacMatches aes w.bumpCtr.host 0x00 d := Iff.rfl
    by_cases h' : MacMatches aes w.bumpCtr.host 0x00 d
    · simp [h', hm]
    · simp [h', hm, h8]

theorem desfireChangeKey_sent (keyNo : UInt8) (old new : Block) (ver : UInt8) (w : World σ)
    (hauth : w.host.session.authenticated = true) :
    desfireChangeKey aes nfc keyNo old new ver w =
      changeKeyTail aes (keyNo == w.host.session.keyNo) (receive (.buf 16) 16
        { w with link := (nfc w.link (apdu 0xC4 (encParams aes w.host 0xC4 [keyNo]
            (changeKeyPlain (keyNo == w.host.session.keyNo) keyNo old new ver)))).2 }
        (nfc w.link (apdu 0xC4 (encParams aes w.host 0xC4 [keyNo]
            (changeKeyPlain (keyNo == w.host.session.keyNo) keyNo old new ver)))).1) := by
  have hlen := length_changeKeyPlain (keyNo == w.host.session.keyNo) keyNo old new ver
  have hmod : (changeKeyPlain (keyNo == w.host.session.keyNo) keyNo old new ver).length % 16 = 0 := by
    rw [hlen]
  rw [← desfireXfer_eq _ _ _ _ _ (by rw [length_encParams aes _ _ _ hmod, hlen]; simp)]
  rw [desfireChangeKey, hauth]
  simp only [Bool.not_true, Bool.false_eq_true, ↓reduceIte, hlen, OfNat.ofNat_ne_zero]
  rfl

/-! ### Plain write -/

theorem desfireWriteData_plain_xfer (fileNo : UInt8) (offset : UInt32) {data : Bytes} (w : World σ)
    (h : data.length ≤ 249) :
    desfireWriteData aes nfc fileNo offset .plain data w =
      .ok (ofStatus (desfireXfer nfc 0x3D
        (fileHeader fileNo offset data.length.toUInt32 ++ data) .null 0 w)) := by
  have h1 : ¬ sizeT (7 + data.length) > 256 := by
    rw [sizeT_of_lt (by omega)]; omega
  simp only [desfireWriteData, length_fileHeader, h1, ↓reduceIte]
  rw [fill_of_le (by simp; omega)]
  rfl

/-- Header and data fill the buffer, or fail its check: nothing is sent. -/
theorem desfireWriteData_plain_refused (fileNo : UInt8) (offset : UInt32) (data : Bytes)
    (w : World σ) (h : data.length = 249 ∨ sizeT (7 + data.length) > 256) :
    ∃ e, e ≠ .ok ∧ desfireWriteData aes nfc fileNo offset .plain data w = .ok ⟨e, .null, w⟩ := by
  rcases h with h | h
  · refine ⟨.fail, by decide, ?_⟩
    rw [desfireWriteData_plain_xfer _ _ _ _ _ (by omega), desfireXfer_of_lt _ _ _ _ _ (by simp; omega)]
    rfl
  · exact ⟨.invalidSize, by decide, by simp [desfireWriteData, h]; rfl⟩

theorem desfireWriteData_plain_overrun (fileNo : UInt8) (offset : UInt32) {data : Bytes}
    (w : World σ) (h : sizeT (7 + data.length) ≤ 256) (h' : 256 < 7 + data.length) :
    desfireWriteData aes nfc fileNo offset .plain data w = .error .overrun := by
  simp only [desfireWriteData, length_fileHeader, Nat.not_lt.2 h, ↓reduceIte]
  rw [fill_of_lt (by simp; omega)]
  rfl

/-! ### Operations in a session -/

section Authenticated

variable {w : World σ} (hauth : w.host.session.authenticated = true)
include hauth

theorem desfireFormatPicc_of_auth :
    desfireFormatPicc aes nfc w = cmacAppendAndSend aes nfc 0xFC [] [] .null 0 w := by
  simp [desfireFormatPicc, hauth]

theorem desfireCreateApplication_of_auth (aid : Aid) (ks nk : UInt8) :
    desfireCreateApplication aes nfc aid ks nk w =
      cmacAppendAndSend aes nfc 0xCA (aid.toList ++ [ks, nk]) [] .null 0 w := by
  simp [desfireCreateApplication, hauth]

theorem desfireCreateStdDataFile_of_auth (fileNo : UInt8) (comm : CommMode) (rights : UInt16)
    (size : UInt32) :
    desfireCreateStdDataFile aes nfc fileNo comm rights size w =
      cmacAppendAndSend aes nfc 0xCD ([fileNo, comm.toByte] ++ le16 rights ++ le24 size) [] .null 0
        w := by
  simp [desfireCreateStdDataFile, hauth]

theorem desfireReadData_cmac_of_auth (fileNo : UInt8) (offset length : UInt32) (out : Out)
    (outBuf : Nat) :
    desfireReadData aes nfc fileNo offset length .cmac out outBuf w =
      cmacAppendAndSend aes nfc 0xBD (fileHeader fileNo offset length) [] out outBuf w := by
  simp [desfireReadData, hauth]

theorem desfireReadData_encrypted_of_auth (fileNo : UInt8) (offset length : UInt32) (out : Out)
    (outBuf : Nat) :
    desfireReadData aes nfc fileNo offset length .encrypted out outBuf w =
      if length = 0 ∨ length.toNat > outBuf then .ok ⟨.invalidSize, out, w⟩
      else (desfireEncRecv aes nfc 0xBD (fileHeader fileNo offset length) length.toNat
        out outBuf w).map ofStatus := by
  simp only [desfireReadData, hauth, Bool.not_true, Bool.false_eq_true, ↓reduceIte, bind, Except.bind]
  refine if_congr Iff.rfl rfl ?_
  cases desfireEncRecv aes nfc 0xBD (fileHeader fileNo offset length) length.toNat out outBuf w <;> rfl

theorem desfireWriteData_cmac_of_auth (fileNo : UInt8) (offset : UInt32) (data : Bytes) :
    desfireWriteData aes nfc fileNo offset .cmac data w =
      cmacAppendAndSend aes nfc 0x3D (fileHeader fileNo offset data.length.toUInt32) data .null 0
        w := by
  simp [desfireWriteData, hauth]

theorem desfireWriteData_encrypted_of_auth (fileNo : UInt8) (offset : UInt32) (data : Bytes) :
    desfireWriteData aes nfc fileNo offset .encrypted data w =
      (desfireEncSend aes nfc 0x3D (fileHeader fileNo offset data.length.toUInt32) data .null w).map
        ofStatus := by
  simp only [desfireWriteData, hauth, Bool.not_true, Bool.false_eq_true, ↓reduceIte, bind,
    Except.bind]
  cases desfireEncSend aes nfc 0x3D (fileHeader fileNo offset data.length.toUInt32) data .null w <;>
    rfl

theorem desfireGetUid_of_auth (uid : Bytes) :
    desfireGetUid aes nfc uid w =
      (desfireEncRecv aes nfc 0x51 [] 7 (.buf 7) 7 w).map fun c =>
        if c.ret ≠ some 0x00 ∨ c.out.bytes.length ≠ 7 then ⟨.fail, ⟨some uid, none⟩, c.world⟩
        else ⟨.ok, .put ⟨some uid, none⟩ c.out.bytes, c.world⟩ := by
  simp only [desfireGetUid, hauth, Bool.not_true, Bool.false_eq_true, ↓reduceIte, bind, Except.bind]
  cases desfireEncRecv aes nfc 0x51 [] 7 (.buf 7) 7 w with
  | error f => rfl
  | ok c =>
    dsimp only [Except.map]
    split <;> rfl

end Authenticated

end LeafReader
