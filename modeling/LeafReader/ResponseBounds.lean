import LeafReader.ReceiveArrays
import LeafReader.ResponseMac

/-!
# Responses and the caller's buffer

For every response of the driver: what the four exchanges write through `resp` and `resp_len`, and
whether they stay inside their own arrays. `desfire_xfer` is safe. The CMAC path is when the data is
short enough for `verify`, `desfire_enc_send`, which does not look at `resp_buf`, when the data
happens to fit, and `desfire_enc_recv` unless its checks on a `payload_len` near 2^32 wrap.
-/

namespace LeafReader

variable {σ : Type} (aes : Aes)

/-! ### Safe calls -/

/-- The caller's pointers: `resp` is NULL or an array of `resp_buf` bytes and `extra` more, and
`resp_len` is given or NULL. -/
structure Caller where
  extra : Option Nat
  given : Bool

def Caller.Has (k : Caller) (respBuf : Nat) (o : Out) : Prop :=
  o.resp.map List.length = k.extra.map (respBuf + ·) ∧ o.respLen.isSome = k.given

/-- From `o` to `o'` at most `respBuf` bytes were written and at most `respBuf` was reported. -/
structure Within (respBuf : Nat) (o o' : Out) : Prop where
  size : o'.resp.map List.length = o.resp.map List.length
  rest : o'.resp.map (·.drop respBuf) = o.resp.map (·.drop respBuf)
  len : o'.respLen = o.respLen ∨ ∃ n, o'.respLen = some n ∧ n ≤ respBuf

/-- The call is without a fault and within `respBuf`, whatever the caller's memory holds. -/
def Safe {α : Type} (k : Caller) (respBuf : Nat) (f : Out → Except Fault (Call σ α)) : Prop :=
  ∀ o, k.Has respBuf o → ∃ c, f o = .ok c ∧ Within respBuf o c.out

section

variable {k : Caller} {respBuf : Nat} {o : Out}

theorem Caller.Has.room (h : k.Has respBuf o) : o.Room respBuf := by
  intro r hr
  have hlen := h.1
  rw [hr] at hlen
  obtain ⟨e, -, he⟩ := Option.map_eq_some_iff.1 hlen.symm
  omega

theorem Caller.exists_has (k : Caller) (respBuf : Nat) (b : UInt8) : k.Has respBuf
    ⟨k.extra.map fun e => List.replicate (respBuf + e) b, if k.given then some 0 else none⟩ := by
  constructor
  · cases k.extra <;> simp
  · cases k.given <;> rfl

theorem Safe.congr {α : Type} {f g : Out → Except Fault (Call σ α)}
    (h : ∀ o, k.Has respBuf o → f o = g o) : Safe k respBuf f ↔ Safe k respBuf g := by
  refine forall_congr' fun o => imp_congr_right fun ho => ?_
  rw [h o ho]

theorem not_safe {α : Type} {f : Out → Except Fault (Call σ α)} {e : Fault}
    (h : ∀ o, f o = .error e) : ¬ Safe k respBuf f := by
  intro hs
  obtain ⟨c, hc, -⟩ := hs _ (k.exists_has respBuf 0)
  rw [h] at hc
  cases hc

theorem Within.refl (o : Out) : Within respBuf o o := ⟨rfl, rfl, .inl rfl⟩

theorem Within.put (h : o.Room respBuf) {d : Bytes} (hd : d.length ≤ respBuf) :
    Within respBuf o (o.put d) := by
  obtain ⟨resp, len⟩ := o
  refine ⟨?_, ?_, ?_⟩
  · cases resp with
    | none => rfl
    | some r =>
      have := h r rfl
      simp [Out.put]
      omega
  · cases resp with
    | none => rfl
    | some r =>
      simp only [Out.put, Option.map_some, Option.some.injEq]
      rw [List.drop_append, List.drop_of_length_le hd, List.nil_append, List.drop_drop,
        Nat.add_sub_cancel' hd]
  · cases len with
    | none => exact .inl rfl
    | some n => exact .inr ⟨d.length, rfl, hd⟩

/-- Memory that holds another byte than the first one past the limit shows a write there. -/
theorem Within.length_le {m : Nat} {b : UInt8} {len : Option Nat} {d : Bytes}
    (h : Within respBuf ⟨some (List.replicate m b), len⟩ (Out.put ⟨some (List.replicate m b), len⟩ d))
    (hd : d.length ≤ m) (hb : b ≠ d.getD respBuf 0) : d.length ≤ respBuf := by
  by_contra hlt
  rw [Nat.not_le] at hlt
  have hrest : (d ++ (List.replicate m b).drop d.length).drop respBuf =
      (List.replicate m b).drop respBuf :=
    Option.some.inj h.rest
  have hat := congrArg (·[0]?) hrest
  simp only [List.getElem?_drop, Nat.add_zero] at hat
  rw [List.getElem?_append_left hlt, List.getElem?_replicate, if_pos (by omega)] at hat
  rw [List.getD_eq_getElem?_getD, hat] at hb
  exact hb rfl

theorem Within.setLen {o' : Out} (h : Within respBuf o o') {n : Nat} (hn : n ≤ respBuf) :
    Within respBuf o { o' with respLen := some n } :=
  ⟨h.size, h.rest, .inr ⟨n, rfl, hn⟩⟩

end

/-! ### `desfire_xfer` and `desfire_enc_recv` -/

section

variable (nfc : Nfc σ) (k : Caller) (respBuf : Nat) (w : World σ)

theorem receive_within (r : LinkResult) {o : Out} (h : o.Room respBuf) :
    Within respBuf o (receive o respBuf w r).out := by
  unfold receive
  cases r.parse with
  | none => exact .refl o
  | some p =>
    by_cases hd : p.2.length ≤ respBuf
    · simp only [hd, ↓reduceIte]
      exact .put h hd
    · simp only [hd, ↓reduceIte]
      exact .refl o

theorem xfer_within (cmd : UInt8) (params : Bytes) {o : Out} (h : o.Room respBuf) :
    Within respBuf o (desfireXfer nfc cmd params o respBuf w).out := by
  by_cases hp : params.length ≤ 255
  · rw [desfireXfer_eq _ _ _ _ _ hp]
    exact receive_within respBuf _ _ h
  · rw [desfireXfer_of_lt _ _ _ _ _ (Nat.not_le.1 hp)]
    exact .refl o

theorem xfer_safe (cmd : UInt8) (params : Bytes) :
    Safe k respBuf fun o => desfireXferChecked nfc cmd params o respBuf w := by
  intro o ho
  exact ⟨_, desfireXferChecked_eq nfc cmd params w ho.room, xfer_within nfc respBuf w cmd params ho.room⟩

/-- The check on the header does not wrap past `macbuf[71]`, and no answer meets the checks on
`payload_len` when these wrap. -/
def EncRecvFits (respBuf payloadLen : Nat) (header : Bytes) (w : World σ) (r : LinkResult) : Prop :=
  w.host.session.authenticated = true → payloadLen ≤ respBuf →
    ¬ (sizeT (7 + header.length) ≤ 71 ∧ 71 < 7 + header.length) ∧
      (header.length ≤ 64 → ¬ ∃ p ∈ r.accept [0x00] 280, RecvOverruns aes w.host payloadLen p.2)

/-- The one write of `desfire_enc_recv` to the caller's memory is the last thing before its success.
-/
theorem encRecv_safe_iff (k : Caller) (respBuf : Nat) (cmd : UInt8) (header : Bytes) (payloadLen : Nat)
    (w : World σ) :
    Safe k respBuf (fun o => desfireEncRecvChecked aes nfc cmd header payloadLen o respBuf w) ↔
      EncRecvFits aes respBuf payloadLen header w
        (nfc w.link (apdu cmd (cmacParams aes w.host cmd header []))).1 := by
  rw [Safe.congr fun o ho => desfireEncRecvChecked_eq aes nfc cmd header payloadLen w ho.room,
    EncRecvFits]
  cases hauth : w.host.session.authenticated with
  | false =>
    refine iff_of_true (fun o _ => ⟨⟨none, o, w⟩, ?_, .refl o⟩) (by simp)
    show desfireEncRecv aes nfc cmd header payloadLen o respBuf w = _
    rw [desfireEncRecv, hauth]
    rfl
  | true =>
    simp only [forall_const]
    by_cases hp : respBuf < payloadLen
    · refine iff_of_true (fun o _ => ⟨⟨none, o, w⟩, ?_, .refl o⟩) fun h => absurd h (Nat.not_le.2 hp)
      exact (desfireEncRecv_eq aes nfc _ _ _ o _ w hauth).trans (if_pos hp)
    simp only [Nat.le_of_not_lt hp, forall_const]
    by_cases h64 : header.length ≤ 64
    · have h71 : ¬ 71 < 7 + header.length := by omega
      simp only [h71, and_false, not_false_eq_true, true_and, h64, forall_const]
      constructor
      · rintro h hover
        refine not_safe (e := .overrun) (fun o => ?_) h
        rcases desfireEncRecv_cases aes nfc cmd o w hauth h64 (Nat.le_of_not_lt hp) with
          ⟨-, he⟩ | ⟨hno, -⟩
        · exact he
        · exact absurd hover hno
      · intro hno o ho
        rcases desfireEncRecv_cases aes nfc cmd o w hauth h64 (Nat.le_of_not_lt hp) with
          ⟨hover, -⟩ | ⟨-, c, hc, -, -, -, hout⟩
        · exact absurd hover hno
        · refine ⟨c, hc, ?_⟩
          rcases hout with ⟨-, hout⟩ | ⟨-, d, -, -, -, p, hlen, hout⟩
          · rw [hout]
            exact .refl o
          · rw [hout]
            exact .put ho.room (hlen.trans (Nat.le_of_not_lt hp))
    · have h71 : 71 < 7 + header.length := by omega
      simp only [h71, and_true, h64, false_implies]
      by_cases hs : sizeT (7 + header.length) > 71
      · refine iff_of_true (fun o _ => ⟨⟨none, o, w⟩, ?_, .refl o⟩) (Nat.not_le.2 hs)
        exact (desfireEncRecv_eq aes nfc _ _ _ o _ w hauth).trans (by rw [if_neg hp, if_pos hs])
      · refine iff_of_false (not_safe (e := .overrun) fun o => ?_) (not_not.2 (Nat.le_of_not_gt hs))
        exact (desfireEncRecv_eq aes nfc _ _ _ o _ w hauth).trans
          (by rw [if_neg hp, if_neg hs, if_pos (Nat.not_le.1 h64)])

end

/-! ### CMAC mode -/

/-- A caller who asks for the length gets no more than `verify` holds, or no MAC. -/
def CmacResponseFits (k : Caller) (respBuf : Nat) (r : LinkResult) : Prop :=
  ∀ st d, r.accept [0x00, 0xAF] respBuf = some (st, d) → k.given = true → 8 ≤ d.length →
    k.extra ≠ none ∧ d.length ≤ 257

/-- The request fits `params`, and then the response fits. -/
def CmacFits (k : Caller) (respBuf : Nat) (header data : Bytes) (r : LinkResult) : Prop :=
  ¬ (sizeT (header.length + data.length) ≤ 256 ∧ 248 < header.length + data.length) ∧
    (header.length + data.length ≤ 247 → CmacResponseFits k respBuf r)

theorem cmacVerify_safe (k : Caller) {respBuf : Nat} (st : UInt8) {d : Bytes} (hd : d.length ≤ respBuf)
    (w : World σ) :
    Safe k respBuf (fun o => cmacVerify aes st (o.put d) w) ↔
      (k.given = true → 8 ≤ d.length → k.extra ≠ none ∧ d.length ≤ 257) := by
  constructor
  · intro h hgiven h8
    obtain ⟨c, hc, -⟩ := h _ (k.exists_has respBuf 0)
    simp only [hgiven, ↓reduceIte] at hc
    cases hx : k.extra with
    | none => simp [hx, cmacVerify, Out.put, show ¬ d.length < 8 by omega] at hc
    | some e =>
      rw [hx, Option.map_some, cmacVerify_put, if_neg (by omega)] at hc
      refine ⟨by simp, Nat.le_of_not_gt fun h257 => ?_⟩
      rw [if_pos h257] at hc
      cases hc
  · intro h o ho
    have hput := Within.put ho.room hd
    obtain ⟨_ | buf, _ | n⟩ := o
    · exact ⟨_, rfl, hput⟩
    · by_cases h8 : d.length < 8
      · exact ⟨⟨.ok, Out.put ⟨none, some n⟩ d, w⟩, by simp [cmacVerify, Out.put, h8], hput⟩
      · have hx := (h ho.2.symm (by omega)).1
        exact absurd (Option.map_eq_none_iff.1 ho.1.symm) hx
    · exact ⟨_, rfl, hput⟩
    · simp only [cmacVerify_put]
      by_cases h8 : d.length < 8
      · exact ⟨_, by rw [if_pos h8], hput⟩
      · rw [if_neg h8, if_neg (by have := (h ho.2.symm (by omega)).2; omega)]
        by_cases hm : MacMatches aes w.host st d
        · exact ⟨_, by rw [if_pos hm], hput.setLen (show d.length - 8 ≤ respBuf by omega)⟩
        · exact ⟨_, by rw [if_neg hm], hput⟩

theorem cmac_safe_iff (k : Caller) (respBuf : Nat) (r : LinkResult) (cmd : UInt8) (header data : Bytes)
    (w : World Unit) :
    Safe k respBuf (fun o => cmacAppendAndSendChecked aes (answering r) cmd header data o respBuf w) ↔
      CmacFits k respBuf header data r := by
  rw [Safe.congr fun o ho => cmacAppendAndSendChecked_eq aes (answering r) cmd header data w ho.room,
    CmacFits]
  by_cases hover : sizeT (header.length + data.length) ≤ 256 ∧ 248 < header.length + data.length
  · exact iff_of_false
      (not_safe fun o => cmacAppendAndSend_overrun aes _ o respBuf w hover.1 hover.2) fun h => h.1 hover
  by_cases hfit : header.length + data.length ≤ 247
  · simp only [hover, not_false_eq_true, true_and, hfit, forall_const, CmacResponseFits]
    rw [Safe.congr fun o _ => cmacAppendAndSend_sent aes (answering r) o respBuf w hfit]
    cases hr : r.accept [0x00, 0xAF] respBuf with
    | none =>
      refine iff_of_true (fun o ho => ⟨_, cmacFinish_of_reject aes o _ hr, ?_⟩) (by simp)
      exact receive_within respBuf _ r ho.room
    | some p =>
      obtain ⟨st, d⟩ := p
      refine (Safe.congr fun o _ => cmacFinish_of_accept aes o ⟨w.host, w.link⟩ hr).trans ?_
      rw [cmacVerify_safe aes k st (LinkResult.accept_eq_some.1 hr).2.2]
      simp
  · refine iff_of_true (fun o _ => ?_) ⟨hover, fun h => absurd h hfit⟩
    obtain ⟨e, -, he⟩ :=
      cmacAppendAndSend_refused aes (answering r) cmd header data o respBuf w (by omega)
    exact ⟨_, he, .refl o⟩

/-! ### Encrypted send -/

/-- The data before a right MAC fits the caller's buffer, if the caller gave a pointer. -/
def EncResponseFits (k : Caller) (respBuf : Nat) (h : Host) (r : LinkResult) : Prop :=
  ∀ d, r.accept [0x00] 64 = some (0x00, d) → 8 ≤ d.length → MacMatches aes h 0x00 d →
    k.extra ≠ none ∨ k.given = true → d.length - 8 ≤ respBuf

/-- The length check does not wrap past `crc_buf`, and the response to what is sent fits. -/
def EncSendFits (k : Caller) (respBuf : Nat) (header data : Bytes) (w : World σ) (r : LinkResult) :
    Prop :=
  w.host.session.authenticated = true →
    ¬ (sizeT (1 + header.length + data.length) ≤ 257 ∧ 257 < 1 + header.length + data.length) ∧
      (EncSendSent header data → EncResponseFits aes k respBuf w.bumpCtr.host r)

/-- After the data before a right MAC: the copy, which only the size of the array stops. -/
theorem encSendFinish_put (out : Out) {d : Bytes} (w : World σ) (hd : d.length ≤ 64) (h8 : 8 ≤ d.length) :
    encSendFinish aes out d w =
      if MacMatches aes w.bumpCtr.host 0x00 d then
        (out.copy (d.take (d.length - 8))).map fun o => ⟨some 0x00, o, w.bumpCtr⟩
      else .ok ⟨none, out, w.bumpCtr⟩ := by
  rw [encSendFinish, if_pos h8]
  dsimp only
  rw [if_neg (by omega), if_congr (take_drop_ne_iff aes h8) rfl rfl]
  by_cases hm : MacMatches aes w.bumpCtr.host 0x00 d
  · rw [if_neg (not_not.2 hm), if_pos hm]
    unfold Out.copy
    cases out.resp with
    | none => rfl
    | some r =>
      by_cases hr : d.length - 8 ≤ r.length
      · simp [hr, Except.map]
      · simp [hr, Except.map]
  · rw [if_pos hm, if_neg hm]

theorem exists_ne_byte (a : UInt8) : ∃ b, b ≠ a := by
  by_cases h : a = 0
  · exact ⟨1, by simp [h]⟩
  · exact ⟨0, Ne.symm h⟩

/-- The copy keeps to `respBuf` exactly if the data does, or goes nowhere. -/
theorem copy_safe_iff (k : Caller) {respBuf : Nat} (d : Bytes) (w : World σ) :
    Safe k respBuf (fun o => (o.copy d).map fun o => (⟨some 0x00, o, w⟩ : Call σ (Option UInt8))) ↔
      (k.extra ≠ none ∨ k.given = true → d.length ≤ respBuf) := by
  constructor
  · intro h hk
    by_contra hlt
    rw [Nat.not_le] at hlt
    -- an array filled with another byte than the first one past the limit
    obtain ⟨b, hb⟩ := exists_ne_byte (d.getD respBuf 0)
    obtain ⟨c, hc, hw⟩ := h _ (k.exists_has respBuf b)
    cases hx : k.extra with
    | some e =>
      simp only [hx, Option.map_some, Out.copy, List.length_replicate] at hc
      by_cases hroom : d.length ≤ respBuf + e
      · rw [if_pos hroom] at hc
        cases hc
        simp only [hx, Option.map_some] at hw
        exact absurd (hw.length_le hroom hb) (Nat.not_le.2 hlt)
      · rw [if_neg hroom] at hc
        cases hc
    | none =>
      have hgiven : k.given = true := hk.resolve_left (· hx)
      simp only [hx, hgiven, Option.map_none, Out.copy, ↓reduceIte] at hc
      cases hc
      rcases hw.len with hlen | ⟨n, hn, hle⟩
      · simp [Out.put, hgiven] at hlen
        simp [hlen] at hlt
      · have hlen : d.length = n := Option.some.inj hn
        omega
  · intro h o ho
    by_cases hk : k.extra ≠ none ∨ k.given = true
    · refine ⟨⟨some 0x00, o.put d, w⟩, ?_, .put ho.room (h hk)⟩
      show Except.map _ (o.copy d) = _
      rw [Out.copy_of_room ho.room (h hk)]
      rfl
    · rw [not_or, not_not] at hk
      obtain ⟨resp, len⟩ := o
      obtain rfl : resp = none := by simpa [hk.1] using ho.1
      obtain rfl : len = none := by simpa [hk.2] using ho.2
      exact ⟨_, rfl, .refl _⟩

theorem encSendTail_safe (k : Caller) (respBuf : Nat) (r : LinkResult) (w : World σ) :
    Safe k respBuf (fun o => encSendTail aes o (receive (.buf 64) 64 w r)) ↔
      EncResponseFits aes k respBuf w.bumpCtr.host r := by
  rw [EncResponseFits]
  cases hr : r.accept [0x00] 64 with
  | none =>
    refine iff_of_true (fun o _ => ?_) (by simp)
    obtain ⟨ret, -, he⟩ := encSendTail_of_reject aes o w hr
    exact ⟨_, he, .refl o⟩
  | some p =>
    obtain ⟨st, d⟩ := p
    obtain ⟨rfl, -, hd⟩ := LinkResult.accept_singleton.1 hr
    have htail (o : Out) : encSendTail aes o (receive (.buf 64) 64 w r) =
        encSendFinish aes o d (w.setStatus 0x00) := by
      rw [receive_of_accept _ w hr, encSendTail]
      simp
    rw [Safe.congr fun o _ => htail o]
    by_cases h8 : 8 ≤ d.length
    · rw [Safe.congr fun o _ => encSendFinish_put aes o _ hd h8]
      by_cases hm : MacMatches aes (w.setStatus 0x00).bumpCtr.host 0x00 d
      · simp only [hm, ↓reduceIte]
        rw [copy_safe_iff]
        have hm' : MacMatches aes w.bumpCtr.host 0x00 d := hm
        simp [h8, hm']
      · have hm' : ¬ MacMatches aes w.bumpCtr.host 0x00 d := hm
        simp only [hm, ↓reduceIte]
        exact iff_of_true (fun o _ => ⟨_, rfl, .refl o⟩) (by simp [hm'])
    · refine iff_of_true (fun o ho => ?_) (by simp [h8])
      refine ⟨_, if_neg h8, ?_⟩
      obtain ⟨resp, _ | n⟩ := o
      · exact .refl _
      · exact (Within.refl _).setLen (Nat.zero_le _)

theorem encSend_safe_iff (k : Caller) (respBuf : Nat) (r : LinkResult) (cmd : UInt8)
    (header data : Bytes) (w : World Unit) :
    Safe k respBuf (fun o => desfireEncSendChecked aes (answering r) cmd header data o w) ↔
      EncSendFits aes k respBuf header data w r := by
  rw [Safe.congr fun o _ => desfireEncSendChecked_eq aes (answering r) cmd header data o w, EncSendFits]
  cases hauth : w.host.session.authenticated with
  | false =>
    refine iff_of_true (fun o _ => ⟨⟨none, o, w⟩, ?_, .refl o⟩) (by simp)
    show desfireEncSend aes (answering r) cmd header data o w = _
    rw [desfireEncSend, hauth]
    rfl
  | true =>
    rw [Safe.congr fun o _ => desfireEncSend_eq aes (answering r) cmd header data o w hauth]
    simp only [forall_const]
    by_cases h1 : sizeT (1 + header.length + data.length) > 257
    · simp only [h1, ↓reduceIte]
      refine iff_of_true (fun o _ => ⟨_, rfl, .refl o⟩) ⟨by omega, fun hs => ?_⟩
      have := hs.1
      rw [sizeT_of_lt (by omega)] at h1
      omega
    by_cases h2 : 257 < 1 + header.length + data.length
    · simp only [h1, h2, ↓reduceIte]
      exact iff_of_false (not_safe fun o => rfl) fun h => h.1 ⟨Nat.le_of_not_gt h1, trivial⟩
    simp only [h1, h2, ↓reduceIte, and_false, not_false_eq_true, true_and]
    by_cases hs : EncSendSent header data
    · simp only [hs, ↓reduceIte, forall_const]
      have hmod : (encPlain cmd header data).length % 16 = 0 := by
        rw [length_encPlain _ _ (by have := hs.2.1; omega)]
        exact pad16_mod _
      rw [desfireXfer_eq _ _ _ _ _ (by
        rw [length_encParams aes _ _ _ hmod, length_encPlain _ _ (by have := hs.2.1; omega)]
        exact hs.2.2)]
      exact encSendTail_safe aes k respBuf r ⟨w.host, w.link⟩
    · simp only [hs, ↓reduceIte, false_implies, iff_true]
      exact fun o _ => ⟨_, rfl, .refl o⟩

/-! ### All four -/

/-- A response `r` is safe in each of the four exchanges. -/
def ResponseSafe (k : Caller) (respBuf : Nat) (r : LinkResult) (cmd : UInt8)
    (params header data : Bytes) (payloadLen : Nat) (w : World Unit) : Prop :=
  (Safe k respBuf fun o => desfireXferChecked (answering r) cmd params o respBuf w) ∧
  (Safe k respBuf fun o => cmacAppendAndSendChecked aes (answering r) cmd header data o respBuf w) ∧
  (Safe k respBuf fun o => desfireEncSendChecked aes (answering r) cmd header data o w) ∧
  Safe k respBuf fun o => desfireEncRecvChecked aes (answering r) cmd header payloadLen o respBuf w

/-- Every response keeps within `resp_buf` and the arrays of the four exchanges, exactly if it fits
`verify` in CMAC mode, fits the caller's buffer after an encrypted write, and no check of an
encrypted read wraps on it. -/
theorem responseSafe_iff (k : Caller) (respBuf : Nat) (r : LinkResult) (cmd : UInt8)
    (params header data : Bytes) (payloadLen : Nat) (w : World Unit) :
    ResponseSafe aes k respBuf r cmd params header data payloadLen w ↔
      CmacFits k respBuf header data r ∧ EncSendFits aes k respBuf header data w r ∧
        EncRecvFits aes respBuf payloadLen header w r := by
  rw [ResponseSafe, cmac_safe_iff, encSend_safe_iff, encRecv_safe_iff aes (answering r),
    and_iff_right (xfer_safe (answering r) k respBuf w cmd params)]
  rfl

/-- A CMAC response of 258 bytes to a read of 250 bytes with a buffer of 300. -/
theorem not_responseSafe_verify :
    ¬ ResponseSafe Aes128.aes128 ⟨some 0, true⟩ 300 (.answer 0x00 (List.replicate 258 0)) 0xBD []
      (fileHeader 1 0 250) [] 250 ⟨zeroHost, ()⟩ := by
  rintro ⟨-, hcmac, -⟩
  rw [cmac_safe_iff] at hcmac
  have hlen : (List.replicate 258 (0 : UInt8)).length = 258 := List.length_replicate
  have hacc : (LinkResult.answer 0x00 (List.replicate 258 0)).accept [0x00, 0xAF] 300 =
      some (0x00, List.replicate 258 0) :=
    LinkResult.accept_eq_some.2 ⟨LinkResult.parse_answer _ (by omega), by simp, by omega⟩
  have h := hcmac.2 (by simp) _ _ hacc rfl (by omega)
  omega

end LeafReader
