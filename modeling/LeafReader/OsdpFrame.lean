import LeafReader.OsdpPhy

/-!
# What a packet is, and that both ends agree on it

`OsdpFrame` is a packet by its parts. The bytes that `osdp_phy_packet_finalize` makes of a header
and a message are those of a frame; the receiver that holds the bytes of a frame finds its parts
again.
-/

namespace LeafReader

theorem length_markOf (m : Bool) : (markOf m).length = if m then 1 else 0 := by
  unfold markOf
  split <;> rfl

structure OsdpFrame where
  marked : Bool
  addr : UInt8
  ctrl : UInt8
  scb : Bytes
  msg : Bytes
  mac : Bytes

namespace OsdpFrame

variable (f : OsdpFrame)

/-- The length in the header: everything from the start byte to the check characters. -/
def len : ℕ := 5 + f.scb.length + f.msg.length + f.mac.length + 2

/-- What the MAC is taken over. -/
def head : Bytes :=
  [osdpPktSom, f.addr, UInt8.ofNat f.len, UInt8.ofNat (f.len / 256), f.ctrl] ++ f.scb ++ f.msg

def check : Bytes := le16 (osdpComputeCrc16 (f.head ++ f.mac))

def body : Bytes := f.head ++ f.mac ++ f.check

def markBytes : Bytes := markOf f.marked

def bytes : Bytes := f.markBytes ++ f.body

/-- The header as `osdp_phy_packet_init` leaves it, and the message behind it. -/
def draft : Bytes := f.markBytes ++ [osdpPktSom, f.addr, 0, 0, f.ctrl] ++ f.scb ++ f.msg

@[simp] theorem length_head : f.head.length = 5 + f.scb.length + f.msg.length := by
  simp [head]
  omega

@[simp] theorem length_check : f.check.length = 2 := rfl

@[simp] theorem length_body : f.body.length = f.len := by
  simp [body, len]
  omega

theorem length_draft : f.draft.length = f.markBytes.length + 5 + f.scb.length + f.msg.length := by
  simp [draft]
  omega

theorem length_markBytes : f.markBytes.length = if f.marked then 1 else 0 := length_markOf _

theorem length_bytes : f.bytes.length = f.markBytes.length + f.len := by
  simp [bytes]

end OsdpFrame

theorem setPktLen_cons (a b c d : UInt8) (rest : Bytes) (n : ℕ) :
    setPktLen (a :: b :: c :: d :: rest) n =
      a :: b :: UInt8.ofNat n :: UInt8.ofNat (n / 256) :: rest := rfl

/-! ### Sending -/

section Sending

variable {aes : Aes} {l : OsdpLink} {f : OsdpFrame} {maxLen : ℕ}

theorem mark_eq (hm : l.pktHasMark = f.marked) : l.mark = f.markBytes.length := by
  rw [OsdpLink.mark, hm, f.length_markBytes]

theorem take_mark_draft (hm : l.pktHasMark = f.marked) : f.draft.take l.mark = f.markBytes := by
  rw [mark_eq hm, OsdpFrame.draft, List.append_assoc, List.append_assoc, List.take_left]

theorem drop_mark_draft (hm : l.pktHasMark = f.marked) :
    f.draft.drop l.mark = [osdpPktSom, f.addr, 0, 0, f.ctrl] ++ f.scb ++ f.msg := by
  rw [mark_eq hm, OsdpFrame.draft, List.append_assoc, List.append_assoc, List.drop_left,
    List.append_assoc]

theorem getD_draft (hm : l.pktHasMark = f.marked) (h : l.pktHasMark = true) :
    f.draft.getD 0 0 = osdpPktMark := by
  simp [OsdpFrame.draft, OsdpFrame.markBytes, markOf, ← hm, h]

/-- The checks that `osdp_phy_packet_finalize` makes of a draft hold. -/
theorem finalize_draft (hm : l.pktHasMark = f.marked) (hmsg : f.msg ≠ []) :
    osdpPhyPacketFinalize aes l f.draft maxLen =
      match
        if l.scActive ∧ f.ctrl &&& pktControlScb ≠ 0 ∧ (f.scb ++ f.msg).getD 1 0 ≥ scs15 then
          finalizeSc aes l { f with mac := [] }.head (maxLen - l.mark)
        else (.ok { f with mac := [] }.head, l) with
      | (.error e, l') => (.error e, l')
      | (.ok body, l') =>
        if body.length + 2 > maxLen - l.mark then (.error .fmt, l')
        else (.ok (f.markBytes ++ body ++ le16 (osdpComputeCrc16 body)), l') := by
  have hlen : ¬ f.draft.length ≤ 5 := by
    have := List.length_pos_iff.2 hmsg
    rw [f.length_draft]
    omega
  have hmark : ¬ (l.pktHasMark = true ∧ f.draft.getD 0 0 ≠ osdpPktMark) := fun h =>
    h.2 (getD_draft hm h.1)
  unfold osdpPhyPacketFinalize
  rw [if_neg hlen, if_neg hmark, drop_mark_draft hm, if_neg (by simp)]
  have hlen' : ([osdpPktSom, f.addr, 0, 0, f.ctrl] ++ f.scb ++ f.msg).length + 2 =
      { f with mac := [] }.len := by
    simp [OsdpFrame.len]
    omega
  have hbody : setPktLen ([osdpPktSom, f.addr, 0, 0, f.ctrl] ++ f.scb ++ f.msg)
      (([osdpPktSom, f.addr, 0, 0, f.ctrl] ++ f.scb ++ f.msg).length + 2) =
      { f with mac := [] }.head := by
    rw [hlen']
    simp only [List.cons_append, List.nil_append, setPktLen_cons, OsdpFrame.head]
  have h4 : { f with mac := [] }.head.getD 4 0 = f.ctrl := rfl
  have h6 : { f with mac := [] }.head.getD 6 0 = (f.scb ++ f.msg).getD 1 0 := by
    simp [OsdpFrame.head]
  rewrite [hbody]
  dsimp only
  rewrite [h4, h6, take_mark_draft hm]
  rfl

/-- A packet that the secure channel does not cover is sent as it is. -/
theorem finalize_plain (hm : l.pktHasMark = f.marked) (hmsg : f.msg ≠ []) (hmac : f.mac = [])
    (hsc : ¬ (l.scActive ∧ f.ctrl &&& pktControlScb ≠ 0 ∧ (f.scb ++ f.msg).getD 1 0 ≥ scs15))
    (hfit : f.bytes.length ≤ maxLen) : osdpPhyPacketFinalize aes l f.draft maxLen = (.ok f.bytes, l) := by
  have hf : { f with mac := [] } = f := by rw [← hmac]
  rw [f.length_bytes, ← mark_eq hm, OsdpFrame.len, hmac] at hfit
  rw [finalize_draft hm hmsg, if_neg hsc, hf]
  simp only
  rw [if_neg]
  · rw [OsdpFrame.bytes, OsdpFrame.body, OsdpFrame.check, hmac, List.append_nil, List.append_assoc]
  · rw [f.length_head]
    simp only [List.length_nil] at hfit
    omega

/-- The frame with its data encrypted where its security block says so, and room for a MAC. -/
def OsdpFrame.enciphered (aes : Aes) (isCmd : Bool) (sc : OsdpSecureChannel) (f : OsdpFrame) :
    OsdpFrame :=
  { f with
    msg :=
      if f.scb.getD 1 0 = scs17 ∨ f.scb.getD 1 0 = scs18 then
        f.msg.take 1 ++ osdpEncryptData aes sc isCmd (f.msg.drop 1)
      else f.msg
    mac := [0, 0, 0, 0] }

/-- The frame that carries `f` under the secure channel `sc`, and the secure channel after it. -/
def OsdpFrame.sealed (aes : Aes) (isCmd : Bool) (sc : OsdpSecureChannel) (f : OsdpFrame) :
    OsdpFrame × OsdpSecureChannel :=
  let sc' := osdpComputeMac aes isCmd (f.enciphered aes isCmd sc).head sc
  ({ f.enciphered aes isCmd sc with mac := (sc'.macOfDir isCmd).toList.take 4 }, sc')

theorem OsdpFrame.head_sealed (aes : Aes) (isCmd : Bool) (sc : OsdpSecureChannel) (f : OsdpFrame) :
    (f.sealed aes isCmd sc).1.head = (f.enciphered aes isCmd sc).head := by
  simp [OsdpFrame.sealed, OsdpFrame.enciphered, OsdpFrame.head, OsdpFrame.len]

theorem OsdpFrame.len_sealed (aes : Aes) (isCmd : Bool) (sc : OsdpSecureChannel) (f : OsdpFrame) :
    (f.sealed aes isCmd sc).1.len = (f.enciphered aes isCmd sc).len := by
  simp [OsdpFrame.sealed, OsdpFrame.enciphered, OsdpFrame.len]

theorem finalizeSc_eq {t id : UInt8} {data : Bytes} (hscb : f.scb = [2, t]) (hmsg : f.msg = id :: data)
    (hfit : (f.sealed aes (!l.pdMode) l.sc).1.len ≤ maxLen) :
    finalizeSc aes l { f with mac := [] }.head maxLen =
      (.ok ((f.sealed aes (!l.pdMode) l.sc).1.head ++ (f.sealed aes (!l.pdMode) l.sc).1.mac),
        { l with sc := (f.sealed aes (!l.pdMode) l.sc).2 }) := by
  set isCmd := !l.pdMode with hc
  have hbody : { f with mac := [] }.head = osdpPktSom :: f.addr :: UInt8.ofNat { f with mac := [] }.len ::
      UInt8.ofNat ({ f with mac := [] }.len / 256) :: f.ctrl :: 2 :: t :: id :: data := by
    simp [OsdpFrame.head, hscb, hmsg]
  have hoff : 5 + (2 : UInt8).toNat + 1 = 8 := rfl
  have hcipher : (f.enciphered aes isCmd l.sc).msg =
      if t = scs17 ∨ t = scs18 then id :: osdpEncryptData aes l.sc isCmd data else id :: data := by
    simp [OsdpFrame.enciphered, hscb, hmsg]
  have hlen : (f.enciphered aes isCmd l.sc).len =
      5 + 2 + (f.enciphered aes isCmd l.sc).msg.length + 4 + 2 := by
    simp [OsdpFrame.len, OsdpFrame.enciphered, hscb]
  have hhead : (f.sealed aes isCmd l.sc).1.head =
      [osdpPktSom, f.addr, UInt8.ofNat (f.enciphered aes isCmd l.sc).len,
        UInt8.ofNat ((f.enciphered aes isCmd l.sc).len / 256), f.ctrl, 2, t] ++
        (f.enciphered aes isCmd l.sc).msg := by
    rw [OsdpFrame.head_sealed]
    simp [OsdpFrame.head, OsdpFrame.enciphered, hscb]
  rw [OsdpFrame.len_sealed, hlen, hcipher] at hfit
  rw [hlen, hcipher] at hhead
  have hsc : (f.sealed aes isCmd l.sc).2 =
      osdpComputeMac aes isCmd (f.sealed aes isCmd l.sc).1.head l.sc := by
    rw [OsdpFrame.head_sealed]
    rfl
  unfold finalizeSc
  rw [hbody]
  simp only [← hc, List.getD_cons_succ, List.getD_cons_zero, hoff, List.drop_succ_cons, List.drop_zero,
    List.take_succ_cons, List.take_zero]
  by_cases ht : t = scs17 ∨ t = scs18
  · simp only [if_pos ht, List.length_cons, length_osdpEncryptData] at hfit hhead ⊢
    rw [if_neg (by omega), if_neg (by simp; omega)]
    have hn : (([osdpPktSom, f.addr, UInt8.ofNat { f with mac := [] }.len,
        UInt8.ofNat ({ f with mac := [] }.len / 256), f.ctrl, 2, t, id] ++
        osdpEncryptData aes l.sc isCmd data).length + 2 + 4) =
        5 + 2 + (aesPadLen (data.length + 1) + 1) + 4 + 2 := by
      simp
      omega
    have hset (d : Bytes) (n m k : ℕ) : setPktLen ([osdpPktSom, f.addr, UInt8.ofNat n,
        UInt8.ofNat (m / 256), f.ctrl, 2, t, id] ++ d) k =
        [osdpPktSom, f.addr, UInt8.ofNat k, UInt8.ofNat (k / 256), f.ctrl, 2, t] ++ id :: d := rfl
    simp only [hn, hset, ← hhead]
    rw [← hsc]
    rfl
  · simp only [if_neg ht, List.length_cons] at hfit hhead ⊢
    rw [if_neg (by simp [ht]), if_neg (by omega)]
    have hn : data.length + 1 + 1 + 1 + 1 + 1 + 1 + 1 + 1 + 2 + 4 =
        5 + 2 + (data.length + 1) + 4 + 2 := by
      omega
    have hset (d : Bytes) (n m k : ℕ) : setPktLen (osdpPktSom :: f.addr :: UInt8.ofNat n ::
        UInt8.ofNat (m / 256) :: f.ctrl :: 2 :: t :: id :: d) k =
        [osdpPktSom, f.addr, UInt8.ofNat k, UInt8.ofNat (k / 256), f.ctrl, 2, t] ++ id :: d := rfl
    simp only [hn, hset, ← hhead]
    rw [← hsc]
    rfl

theorem OsdpFrame.markBytes_sealed (aes : Aes) (isCmd : Bool) (sc : OsdpSecureChannel) (f : OsdpFrame) :
    (f.sealed aes isCmd sc).1.markBytes = f.markBytes := rfl

/-- A packet under the secure channel is sent sealed, and moves the MAC of its direction on. -/
theorem finalize_sealed {t id : UInt8} {data : Bytes} (hm : l.pktHasMark = f.marked)
    (hmsg : f.msg = id :: data) (hsc : l.scActive = true) (hctrl : f.ctrl &&& pktControlScb ≠ 0)
    (hscb : f.scb = [2, t]) (ht : t ≥ scs15)
    (hfit : (f.sealed aes (!l.pdMode) l.sc).1.bytes.length ≤ maxLen) :
    osdpPhyPacketFinalize aes l f.draft maxLen =
      (.ok (f.sealed aes (!l.pdMode) l.sc).1.bytes,
        { l with sc := (f.sealed aes (!l.pdMode) l.sc).2 }) := by
  rw [OsdpFrame.length_bytes, OsdpFrame.markBytes_sealed, ← mark_eq hm] at hfit
  have h1 : (f.scb ++ f.msg).getD 1 0 = t := by simp [hscb]
  have hlen : (f.sealed aes (!l.pdMode) l.sc).1.len = ((f.sealed aes (!l.pdMode) l.sc).1.head ++
      (f.sealed aes (!l.pdMode) l.sc).1.mac).length + 2 := by
    rw [List.length_append, OsdpFrame.length_head, OsdpFrame.len]
  rw [finalize_draft hm (by simp [hmsg]), if_pos ⟨hsc, hctrl, h1 ▸ ht⟩,
    finalizeSc_eq hscb hmsg (by omega)]
  simp only
  rw [← hlen, if_neg (by omega), ← OsdpFrame.markBytes_sealed aes (!l.pdMode) l.sc f]
  simp only [OsdpFrame.bytes, OsdpFrame.body, OsdpFrame.check, List.append_assoc]

end Sending

/-! ### Receiving -/

/-- The packet buffer holds the bytes of `f`, all of them and no more. -/
structure OsdpLink.Holds (l : OsdpLink) (f : OsdpFrame) : Prop where
  bytes : l.packetBuf.take f.bytes.length = f.bytes
  bufLen : l.packetBufLen = f.bytes.length
  len : l.packetLen = f.bytes.length
  marked : l.pktHasMark = f.marked

namespace OsdpLink.Holds

variable {l : OsdpLink} {f : OsdpFrame}

theorem mark_eq (h : l.Holds f) : l.mark = f.markBytes.length := LeafReader.mark_eq h.marked

theorem body (h : l.Holds f) : (l.packetBuf.take l.packetLen).drop l.mark = f.body := by
  rw [h.len, h.bytes, h.mark_eq, OsdpFrame.bytes, List.drop_left]

theorem body' (h : l.Holds f) : (l.packetBuf.take l.packetBufLen).drop l.mark = f.body := by
  rw [h.bufLen, ← h.len, h.body]

theorem pkt_eq (h : l.Holds f) {i : ℕ} (hi : i < f.len) : l.pkt i = f.body.getD i 0 := by
  have hlt : l.mark + i < f.bytes.length := by
    rw [f.length_bytes, h.mark_eq]
    omega
  have htake : l.packetBuf[l.mark + i]? = (l.packetBuf.take f.bytes.length)[l.mark + i]? := by
    rw [List.getElem?_take_of_lt hlt]
  rw [OsdpLink.pkt, List.getD_eq_getElem?_getD, htake, h.bytes, OsdpFrame.bytes, h.mark_eq,
    List.getElem?_append_right (by omega), Nat.add_sub_cancel_left, ← List.getD_eq_getElem?_getD]

end OsdpLink.Holds

namespace OsdpFrame

variable (f : OsdpFrame)

theorem body_eq : f.body = osdpPktSom :: f.addr :: UInt8.ofNat f.len :: UInt8.ofNat (f.len / 256) ::
    f.ctrl :: (f.scb ++ f.msg ++ f.mac ++ f.check) := by
  simp [body, head]

theorem take_body : f.body.take (f.body.length - 2) = f.head ++ f.mac := by
  rw [body, List.length_append, length_check, Nat.add_sub_cancel, List.take_left]

theorem drop_body : f.body.drop (f.body.length - 2) = f.check := by
  rw [body, List.length_append, length_check, Nat.add_sub_cancel, List.drop_left]

/-- The check characters of a frame are right. -/
theorem checkCharOk_body (h : f.ctrl &&& pktControlCrc ≠ 0) : checkCharOk f.body = true := by
  have h4 : f.body.getD 4 0 = f.ctrl := by rw [f.body_eq]; rfl
  rw [checkCharOk, h4, if_pos h, f.drop_body, f.take_body]
  exact decide_eq_true rfl

end OsdpFrame

theorem checkLen_crc {c : UInt8} (h : c &&& pktControlCrc ≠ 0) : checkLen c = 2 := if_pos h

section Receiving

variable {aes : Aes} {l : OsdpLink} {f : OsdpFrame}

/-- The sequence number that the PD expects after `n`. -/
def nextSeq (n : ℤ) : ℤ := if n + 1 > 3 then 1 else n + 1

theorem sqn_lt (c : UInt8) : (c &&& pktControlSqn).toNat < 4 := by
  rw [UInt8.toNat_and]
  exact Nat.lt_of_le_of_lt Nat.and_le_right (by decide)

theorem ofNat_sqn (c : UInt8) :
    UInt8.ofNat (((c &&& pktControlSqn).toNat : ℤ) % 4).toNat = c &&& pktControlSqn := by
  have h := sqn_lt c
  rw [show (((c &&& pktControlSqn).toNat : ℤ) % 4).toNat = (c &&& pktControlSqn).toNat by omega]
  exact UInt8.ofNat_toNat

/-- The sequence numbers that the PD takes when the last one was `n`. -/
def SeqAccepted (n : ℤ) (c : UInt8) : Prop :=
  c &&& pktControlSqn = 0 ∨ ((c &&& pktControlSqn).toNat : ℤ) = n ∨
    ((c &&& pktControlSqn).toNat : ℤ) = nextSeq n

theorem nextSeq_pdSyncSeq {c : UInt8} (h : SeqAccepted l.seqNumber c) :
    nextSeq (pdSyncSeq l (c &&& pktControlSqn)).seqNumber = (c &&& pktControlSqn).toNat := by
  have hlt := sqn_lt c
  unfold pdSyncSeq
  split
  · rename_i h0
    rw [h0]
    rfl
  · rename_i h0
    split
    · rename_i hrep
      show nextSeq (l.seqNumber - 1) = _
      rw [nextSeq, if_neg (by omega)]
      omega
    · rename_i hrep
      rcases h with h | h | h
      · exact absurd h h0
      · exact absurd h hrep
      · exact h.symm

@[simp] theorem pdMode_pdSyncSeq (l : OsdpLink) (c : UInt8) : (pdSyncSeq l c).pdMode = l.pdMode := by
  unfold pdSyncSeq
  split
  · rfl
  · split <;> rfl

theorem pdSyncSeq_seqNumber (l : OsdpLink) (c : UInt8) (n : ℤ) (b : Bool) :
    { pdSyncSeq l c with seqNumber := n, pktBroadcast := b } =
      { l with seqNumber := n, pktBroadcast := b, scActive := if c = 0 then false else l.scActive } := by
  unfold pdSyncSeq
  split
  · rfl
  · split <;> rfl

/-- The PD takes a packet that is addressed to it when its sequence number starts anew, is the next
one, or is that of the packet before. -/
theorem phyCheckPacket_pd (h : l.Holds f) (hpd : l.pdMode = true) (hcrc : f.ctrl &&& pktControlCrc ≠ 0)
    (haddr : (f.addr &&& 0x7F).toNat = l.address ∨ (f.addr &&& 0x7F).toNat = 0x7F)
    (hseq : SeqAccepted l.seqNumber f.ctrl) :
    phyCheckPacket l = (.ok (), { l with
      seqNumber := (f.ctrl &&& pktControlSqn).toNat
      pktBroadcast := l.pktBroadcast || (f.addr &&& 0x7F).toNat == 0x7F
      scActive := if f.ctrl &&& pktControlSqn = 0 then false else l.scActive }) := by
  have h1 : l.pkt 1 = f.addr := by rw [h.pkt_eq (by unfold OsdpFrame.len; omega), f.body_eq]; rfl
  have h4 : l.pkt 4 = f.ctrl := by rw [h.pkt_eq (by unfold OsdpFrame.len; omega), f.body_eq]; rfl
  have hna : ¬ ((f.addr &&& 0x7F).toNat ≠ l.address ∧ (f.addr &&& 0x7F).toNat ≠ 0x7F) := by omega
  have hnext := nextSeq_pdSyncSeq hseq
  unfold nextSeq at hnext
  unfold phyCheckPacket
  simp only [h.body, h1, h4, f.checkCharOk_body hcrc, if_neg hna, hpd, Bool.not_true, Bool.false_eq_true,
    false_and, if_false, if_true, osdpPhyGetSeqNumber, pdMode_pdSyncSeq, hnext, ofNat_sqn, ne_eq,
    not_true_eq_false]
  have hsync := pdSyncSeq_seqNumber l (f.ctrl &&& pktControlSqn) (f.ctrl &&& pktControlSqn).toNat
    (l.pktBroadcast || (f.addr &&& 0x7F).toNat == 0x7F)
  simp only [pdMode_pdSyncSeq, hpd] at hsync
  exact congrArg (Prod.mk _) hsync

/-- The CP takes the reply that carries the sequence number of its command. -/
theorem phyCheckPacket_cp (h : l.Holds f) (hcp : l.pdMode = false) (hcrc : f.ctrl &&& pktControlCrc ≠ 0)
    (haddr : (f.addr &&& 0x7F).toNat = l.address ∨ (f.addr &&& 0x7F).toNat = 0x7F)
    (hseq : l.seqNumber = (f.ctrl &&& pktControlSqn).toNat)
    (hbusy : (f.scb ++ f.msg ++ f.mac ++ f.check).getD 0 0 ≠ replyBusy) :
    phyCheckPacket l = (.ok (), l) := by
  have h1 : l.pkt 1 = f.addr := by rw [h.pkt_eq (by unfold OsdpFrame.len; omega), f.body_eq]; rfl
  have h4 : l.pkt 4 = f.ctrl := by rw [h.pkt_eq (by unfold OsdpFrame.len; omega), f.body_eq]; rfl
  have h5 : l.pkt 5 = (f.scb ++ f.msg ++ f.mac ++ f.check).getD 0 0 := by
    rw [h.pkt_eq (by unfold OsdpFrame.len; omega), f.body_eq]
    rfl
  have hna : ¬ ((f.addr &&& 0x7F).toNat ≠ l.address ∧ (f.addr &&& 0x7F).toNat ≠ 0x7F) := by omega
  unfold phyCheckPacket
  simp only [h.body, h1, h4, h5, f.checkCharOk_body hcrc, if_neg hna, hcp,
    Bool.not_true, Bool.false_eq_true,
    if_false, hbusy, false_and, and_false, osdpPhyGetSeqNumber, hseq, ofNat_sqn, ne_eq, not_true_eq_false]
  rw [← hseq, ← hcp]

theorem OsdpFrame.take_body_mac (f : OsdpFrame) :
    f.body.take (f.body.length - 2 - f.mac.length) = f.head := by
  have hlen : f.body.length - 2 - f.mac.length = f.head.length := by
    rw [OsdpFrame.body, List.length_append, OsdpFrame.length_check, List.length_append]
    omega
  rw [hlen, OsdpFrame.body, List.append_assoc, List.take_left]

theorem OsdpFrame.drop_body_mac (f : OsdpFrame) :
    (f.body.drop (f.body.length - 2 - f.mac.length)).take f.mac.length = f.mac := by
  have hlen : f.body.length - 2 - f.mac.length = f.head.length := by
    rw [OsdpFrame.body, List.length_append, OsdpFrame.length_check, List.length_append]
    omega
  rw [hlen, OsdpFrame.body, List.append_assoc, List.drop_left, List.take_left]

theorem OsdpFrame.drop_head (f : OsdpFrame) : f.head.drop (5 + f.scb.length) = f.msg := by
  have hlen :
      5 + f.scb.length = ([osdpPktSom, f.addr, UInt8.ofNat f.len, UInt8.ofNat (f.len / 256), f.ctrl] ++
      f.scb).length := by
    rw [List.length_append]
    rfl
  rw [hlen, OsdpFrame.head, List.drop_left]

/-- A message without a security block is handed on where the secure channel is not active, and
where the CP makes an exception. -/
theorem decode_plain (h : l.Holds f) (hcrc : f.ctrl &&& pktControlCrc ≠ 0)
    (hctrl : f.ctrl &&& pktControlScb = 0) (hscb : f.scb = []) (hmac : f.mac = [])
    (hsc : l.scActive = false ∨ l.pdMode = false ∧
      (l.cmdId = cmdKeyset ∧ f.msg.head? = some replyAck ∨ f.msg.head? = some replyNak)) :
    osdpPhyDecodePacket aes l = (.ok f.msg, l) := by
  have h4 : l.pkt 4 = f.ctrl := by rw [h.pkt_eq (by unfold OsdpFrame.len; omega), f.body_eq]; rfl
  have h5 {b : UInt8} (hb : f.msg.head? = some b) : l.pkt 5 = b := by
    rw [h.pkt_eq (by unfold OsdpFrame.len; omega), f.body_eq, hscb]
    rcases hm : f.msg with _ | ⟨c, rest⟩
    · rw [hm] at hb
      cases hb
    · rw [hm] at hb
      cases hb
      rfl
  have hmsg : (f.body.take (f.body.length - 2)).drop 5 = f.msg := by
    have hhead := f.take_body_mac
    have hdrop := f.drop_head
    rw [hmac] at hhead
    rw [hscb] at hdrop
    rw [List.length_nil, Nat.sub_zero] at hhead
    rw [hhead]
    exact hdrop
  have hexempt : (l.scActive && !(!l.pdMode && (l.cmdId == cmdKeyset && l.pkt 5 == replyAck ||
      l.pkt 5 == replyNak))) = false := by
    rcases hsc with hoff | ⟨hcp, ⟨hcmd, hack⟩ | hnak⟩
    · simp [hoff]
    · simp [hcp, hcmd, h5 hack]
    · simp [hcp, h5 hnak]
  unfold osdpPhyDecodePacket
  simp only [h.body', h4, checkLen_crc hcrc, hctrl, ne_eq, not_true_eq_false,
    if_false, hexempt, Bool.false_eq_true, hmsg]

/-- A message of the handshake is handed on; it is not under the secure channel. -/
theorem decode_handshake {t x : UInt8} (h : l.Holds f) (hcrc : f.ctrl &&& pktControlCrc ≠ 0)
    (hctrl : f.ctrl &&& pktControlScb ≠ 0) (hscb : f.scb = [3, t, x]) (hmac : f.mac = [])
    (ht : scs11 ≤ t) (ht' : t ≤ scs14) (hcap : l.pdMode = true → l.scIsCapable = true) :
    osdpPhyDecodePacket aes l = (.ok f.msg, { l with
      scUseScbkd := l.scUseScbkd || ((t == scs11 || t == scs13) && l.installMode && x == 0) }) := by
  have h4 : l.pkt 4 = f.ctrl := by rw [h.pkt_eq (by unfold OsdpFrame.len; omega), f.body_eq]; rfl
  have hlen : f.len = 10 + f.msg.length := by
    rw [OsdpFrame.len, hscb, hmac]
    simp only [List.length_cons, List.length_nil]
    omega
  have h5 : l.pkt 5 = 3 := by rw [h.pkt_eq (by omega), f.body_eq, hscb]; rfl
  have h6 : l.pkt 6 = t := by rw [h.pkt_eq (by omega), f.body_eq, hscb]; rfl
  have h7 : l.pkt 7 = x := by rw [h.pkt_eq (by omega), f.body_eq, hscb]; rfl
  have hmsg : (f.body.take (f.body.length - 2)).drop 8 = f.msg := by
    have hhead := f.take_body_mac
    have hdrop := f.drop_head
    rw [hmac] at hhead
    rw [hscb] at hdrop
    rw [List.length_nil, Nat.sub_zero] at hhead
    rw [hhead]
    exact hdrop
  have hle : t.toNat ≤ 0x14 := UInt8.le_iff_toNat_le.1 ht'
  have hge : 0x11 ≤ t.toNat := UInt8.le_iff_toNat_le.1 ht
  have hrange : ¬ (t < scs11 ∨ t > scs18) := by
    rw [UInt8.lt_iff_toNat_lt, GT.gt, UInt8.lt_iff_toNat_lt]
    show ¬ (t.toNat < 0x11 ∨ 0x18 < t.toNat)
    omega
  have hsmall : ¬ t > scs14 := by
    rw [GT.gt, UInt8.lt_iff_toNat_lt]
    show ¬ 0x14 < t.toNat
    omega
  have hnsc : ¬ t ≥ scs15 := by
    rw [GE.ge, UInt8.le_iff_toNat_le]
    show ¬ 0x15 ≤ t.toNat
    omega
  have hcap' : ¬ (l.pdMode = true ∧ (!l.scIsCapable) = true) := by
    rintro ⟨hpd, hno⟩
    rw [hcap hpd] at hno
    cases hno
  have hstart : 5 + (3 : UInt8).toNat = 8 := rfl
  have hat : messageAt f.body 8 (f.body.length - 2) = .ok f.msg := by
    rw [messageAt, if_neg, hmsg]
    rw [f.length_body]
    omega
  unfold osdpPhyDecodePacket
  simp only [h.body', h4, h5, h6, h7, checkLen_crc hcrc, if_pos hctrl,
    if_neg hrange, if_neg hcap', hsmall, hnsc, and_false, if_false, hstart, hat]

/-- Two ends of one session, before a message in the direction `isCmd`: the same keys, and the same
MAC of the other direction, which the message is chained to. -/
structure SameChain (isCmd : Bool) (a b : OsdpSecureChannel) : Prop where
  sEnc : b.sEnc = a.sEnc
  sMac1 : b.sMac1 = a.sMac1
  sMac2 : b.sMac2 = a.sMac2
  iv : (if isCmd then b.rMac else b.cMac) = if isCmd then a.rMac else a.cMac

theorem SameChain.mac {isCmd : Bool} {a b : OsdpSecureChannel} (h : SameChain isCmd a b) (data : Bytes) :
    (osdpComputeMac aes isCmd data b).macOfDir isCmd =
      (osdpComputeMac aes isCmd data a).macOfDir isCmd := by
  have hiv := h.iv
  rcases isCmd with _ | _
  · simp only [Bool.false_eq_true, if_false] at hiv
    simp [osdpComputeMac, OsdpSecureChannel.macOfDir, macOf, h.sMac1, h.sMac2, hiv]
  · simp only [if_true] at hiv
    simp [osdpComputeMac, OsdpSecureChannel.macOfDir, macOf, h.sMac1, h.sMac2, hiv]

theorem messageIv_osdpComputeMac (isCmd : Bool) (data : Bytes) (sc : OsdpSecureChannel) :
    messageIv (osdpComputeMac aes isCmd data sc) isCmd = messageIv sc isCmd := by
  rcases isCmd with _ | _ <;> rfl

theorem sEnc_osdpComputeMac (isCmd : Bool) (data : Bytes) (sc : OsdpSecureChannel) :
    (osdpComputeMac aes isCmd data sc).sEnc = sc.sEnc := by
  rcases isCmd with _ | _ <;> rfl

theorem SameChain.messageIv_eq {isCmd : Bool} {a b : OsdpSecureChannel} (h : SameChain isCmd a b) :
    messageIv b isCmd = messageIv a isCmd := by
  rw [messageIv, h.iv, messageIv]

theorem OsdpFrame.length_sealed_mac (aes : Aes) (isCmd : Bool) (sc : OsdpSecureChannel) (f : OsdpFrame) :
    (f.sealed aes isCmd sc).1.mac.length = 4 := by
  simp [OsdpFrame.sealed]

/-- The MAC that the receiver computes is the one that was sent. -/
theorem decodeSc_eq {g : OsdpFrame} (h : l.Holds g) (hlen : g.mac.length = 4)
    (hmac : ((osdpComputeMac aes l.pdMode g.head l.sc).macOfDir l.pdMode).toList.take 4 = g.mac)
    (start : ℕ) :
    decodeSc aes l start (g.body.length - 2) =
      let l' := { l with sc := osdpComputeMac aes l.pdMode g.head l.sc }
      if l.pkt 6 = scs17 ∨ l.pkt 6 = scs18 then
        match g.head.drop start with
        | [] => (.error (.nack nakScCond), l'.scDeactivate)
        | id :: rest =>
          match osdpDecryptData aes l'.sc l'.allowEmpty l'.pdMode rest with
          | (none, plain) =>
            (.error (.nack nakScCond), (l'.overwrite (l'.mark + start + 1) plain).scDeactivate)
          | (some n, plain) => (.ok (id :: plain.take n), l'.overwrite (l'.mark + start + 1) plain)
      else (messageAt g.body start (g.head.length), l') := by
  have htake := g.take_body_mac
  have hdrop := g.drop_body_mac
  rw [hlen] at htake hdrop
  have hstop : g.body.length - 2 - 4 = g.head.length := by
    rw [g.length_body, g.length_head, OsdpFrame.len, hlen]
    omega
  unfold decodeSc
  simp only [h.body', htake, hdrop, ← hmac]
  rw [if_neg (fun h => h rfl), hstop]
  rfl

/-- Under the secure channel, what the other end sealed is decoded, and the chain of this direction
moves on here as it did there. Only the packet buffer changes besides, where the data is decrypted
in place. -/
theorem decode_sealed {t id : UInt8} {data : Bytes} {a : OsdpSecureChannel} {m : Bool}
    (h : l.Holds { (f.sealed aes l.pdMode a).1 with marked := m }) (hsame : SameChain l.pdMode a l.sc)
    (hsc : l.scActive = true) (hcap : l.pdMode = true → l.scIsCapable = true)
    (hcrc : f.ctrl &&& pktControlCrc ≠ 0) (hctrl : f.ctrl &&& pktControlScb ≠ 0) (hscb : f.scb = [2, t])
    (ht : scs15 ≤ t) (ht' : t ≤ scs18) (hmsg : f.msg = id :: data) :
    ∃ buf, osdpPhyDecodePacket aes l = (.ok (id :: data), { l with
      packetBuf := buf
      sc := osdpComputeMac aes l.pdMode (f.enciphered aes l.pdMode a).head l.sc }) := by
  set g : OsdpFrame := { (f.sealed aes l.pdMode a).1 with marked := m } with hg
  have hgscb : g.scb = [2, t] := hscb
  have hghead : g.head = (f.enciphered aes l.pdMode a).head := f.head_sealed aes l.pdMode a
  have hglen : g.mac.length = 4 := f.length_sealed_mac aes l.pdMode a
  have hgmac : g.mac = ((osdpComputeMac aes l.pdMode g.head a).macOfDir l.pdMode).toList.take 4 := by
    rw [hghead]
    rfl
  have hlen : g.len = 5 + 2 + g.msg.length + 4 + 2 := by
    rw [OsdpFrame.len, hgscb, hglen]
    rfl
  have h4 : l.pkt 4 = f.ctrl := by rw [h.pkt_eq (by omega), g.body_eq]; rfl
  have h5 : l.pkt 5 = 2 := by rw [h.pkt_eq (by omega), g.body_eq, hgscb]; rfl
  have h6 : l.pkt 6 = t := by rw [h.pkt_eq (by omega), g.body_eq, hgscb]; rfl
  have hle : t.toNat ≤ 0x18 := UInt8.le_iff_toNat_le.1 ht'
  have hge : 0x15 ≤ t.toNat := UInt8.le_iff_toNat_le.1 ht
  have hrange : ¬ (t < scs11 ∨ t > scs18) := by
    rw [UInt8.lt_iff_toNat_lt, GT.gt, UInt8.lt_iff_toNat_lt]
    show ¬ (t.toNat < 0x11 ∨ 0x18 < t.toNat)
    omega
  have hne : (t == scs11 || t == scs13) = false := by
    rw [Bool.or_eq_false_iff, beq_eq_false_iff_ne, beq_eq_false_iff_ne]
    constructor <;> rintro rfl <;> exact absurd hge (by decide)
  have hcap' : ¬ (l.pdMode = true ∧ (!l.scIsCapable) = true) := by
    rintro ⟨hpd, hno⟩
    rw [hcap hpd] at hno
    cases hno
  have hstart : 5 + (2 : UInt8).toNat = 7 := rfl
  have hmac : ((osdpComputeMac aes l.pdMode g.head l.sc).macOfDir l.pdMode).toList.take 4 = g.mac := by
    rw [hsame.mac, hgmac]
  have hdata : g.head.drop 7 = g.msg := by
    have := g.drop_head
    rwa [hgscb] at this
  have hactive : ¬ ((!l.scActive) = true ∧ t > scs14) := by
    rintro ⟨hno, -⟩
    rw [hsc] at hno
    cases hno
  unfold osdpPhyDecodePacket
  simp only [h.body', h4, h5, h6, checkLen_crc hcrc, if_pos hctrl, if_neg hrange,
    if_neg hcap', if_neg hactive, hstart,
    hne, Bool.false_and, Bool.or_false, if_pos (show l.scActive = true ∧ t ≥ scs15 from ⟨hsc, ht⟩)]
  rw [decodeSc_eq h hglen hmac]
  simp only [h6, hdata]
  rw [hghead]
  by_cases hc : t = scs17 ∨ t = scs18
  · have hgmsg : g.msg = id :: osdpEncryptData aes a l.pdMode data := by
      rw [hg]
      simp [OsdpFrame.sealed, OsdpFrame.enciphered, hscb, hmsg, hc]
    obtain ⟨rest, hdec⟩ := osdpDecryptData_osdpEncryptData aes l.allowEmpty l.pdMode
      (show (osdpComputeMac aes l.pdMode (f.enciphered aes l.pdMode a).head l.sc).sEnc = a.sEnc by
        rw [sEnc_osdpComputeMac, hsame.sEnc]) (by rw [messageIv_osdpComputeMac, hsame.messageIv_eq]) data
    refine ⟨(l.overwrite (l.mark + 7 + 1) (data ++ rest)).packetBuf, ?_⟩
    rw [if_pos hc, hgmsg]
    simp only [hdec, List.take_left]
    rfl
  · have hgmsg : g.msg = id :: data := by
      rw [hg]
      simp [OsdpFrame.sealed, OsdpFrame.enciphered, hscb, hmsg, hc]
    have hat : messageAt g.body 7 (f.enciphered aes l.pdMode a).head.length = .ok (id :: data) := by
      rw [← hghead, messageAt, if_neg]
      · rw [OsdpFrame.body, List.append_assoc, List.take_left, hdata, hgmsg]
      · rw [g.length_head]
        omega
    refine ⟨l.packetBuf, ?_⟩
    rw [if_neg hc, hat]

end Receiving

end LeafReader
