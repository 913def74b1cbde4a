import LeafReader.OsdpFrame
import Mathlib.Data.List.GetD

/-!
# Packets out of a stream of bytes

The serial line hands over its bytes in pieces that need not end where packets end. A poll of the
receiver takes what has come, skips what is before the next start byte and goes on with the packet
that it has begun. `Partial` says what the receiver holds of a packet of which `bs` has come in; one
poll is a step from `Partial` to `Partial` or to the whole packet, and a run of polls delivers the
packets of the stream in order.
-/

namespace LeafReader

namespace OsdpLink

/-- The link without what the receiver works with. -/
def withoutRx (l : OsdpLink) : OsdpLink :=
  { l with
    pktHasMark := false
    tstamp := 0
    rxWaiting := []
    rxRb := rxRbInit
    packetBuf := []
    packetLen := 0
    packetBufLen := 0
    packetScanSkip := 0 }

/-- `l'` differs from `l` in the receiver at most. -/
def SameRest (l l' : OsdpLink) : Prop := l'.withoutRx = l.withoutRx

theorem SameRest.refl (l : OsdpLink) : l.SameRest l := rfl

theorem SameRest.trans {a b c : OsdpLink} (h : a.SameRest b) (h' : b.SameRest c) : a.SameRest c :=
  Eq.trans h' h

theorem SameRest.pdMode {a b : OsdpLink} (h : a.SameRest b) : b.pdMode = a.pdMode :=
  (congrArg OsdpLink.pdMode (show b.withoutRx = a.withoutRx from h) :)

end OsdpLink

/-- The packet buffer holds the mark byte, if there is one, and `bs` behind it. -/
structure OsdpLink.Holding (l : OsdpLink) (m : Bool) (bs : Bytes) : Prop where
  marked : l.pktHasMark = m
  bufLen : l.packetBufLen = (markOf m).length + bs.length
  held : l.packetBuf.take l.packetBufLen = markOf m ++ bs

namespace OsdpLink.Holding

variable {l : OsdpLink} {m : Bool} {bs : Bytes}

theorem mark_eq (h : l.Holding m bs) : l.mark = (markOf m).length := by
  rw [OsdpLink.mark, h.marked, length_markOf]

theorem pkt_eq (h : l.Holding m bs) {i : ℕ} (hi : i < bs.length) : l.pkt i = bs.getD i 0 := by
  have hlt : l.mark + i < l.packetBufLen := by
    rw [h.bufLen, h.mark_eq]
    omega
  have htake : l.packetBuf[l.mark + i]? = (l.packetBuf.take l.packetBufLen)[l.mark + i]? := by
    rw [List.getElem?_take_of_lt hlt]
  rw [OsdpLink.pkt, List.getD_eq_getElem?_getD, htake, h.held, h.mark_eq,
    List.getElem?_append_right (by omega), Nat.add_sub_cancel_left, ← List.getD_eq_getElem?_getD]

/-- Bytes are put behind what is held. -/
theorem collect (h : l.Holding m bs) (cs : Bytes) : (l.collect cs).Holding m (bs ++ cs) := by
  have hlen := congrArg List.length h.held
  rw [List.length_append, ← h.bufLen, List.length_take] at hlen
  refine ⟨h.marked, ?_, ?_⟩
  · rw [OsdpLink.collect, List.length_append, h.bufLen]
    exact Nat.add_assoc ..
  · have happ : l.packetBuf.take l.packetBufLen ++ cs ++ l.packetBuf.drop (l.packetBufLen + cs.length) =
        (markOf m ++ (bs ++ cs)) ++ l.packetBuf.drop (l.packetBufLen + cs.length) := by
      rw [h.held, List.append_assoc (markOf m)]
    show (l.packetBuf.take l.packetBufLen ++ cs ++ l.packetBuf.drop (l.packetBufLen + cs.length)).take
      (l.packetBufLen + cs.length) = _
    have hn : l.packetBufLen + cs.length = (markOf m ++ (bs ++ cs)).length := by
      rw [h.bufLen, List.length_append, List.length_append]
      omega
    rw [happ, hn, List.take_left]

theorem with_ring (h : l.Holding m bs) (rb : Ring UInt8 osdpRxRbSize) :
    ({ l with rxRb := rb } : OsdpLink).Holding m bs := ⟨h.marked, h.bufLen, h.held⟩

theorem startPacket (l : OsdpLink) (m : Bool) : (l.startPacket m).Holding m [osdpPktSom] :=
  ⟨rfl, List.length_append, List.take_left' rfl⟩

end OsdpLink.Holding

/-- The whole of a packet is in the buffer. -/
theorem OsdpLink.Holding.holds {l : OsdpLink} {m : Bool} {f : OsdpFrame} (h : l.Holding m f.body)
    (hlen : l.packetLen = l.packetBufLen) : l.Holds { f with marked := m } := by
  have hbytes : { f with marked := m }.bytes = markOf m ++ f.body := rfl
  have hn : l.packetBufLen = (markOf m ++ f.body).length := by
    rw [h.bufLen, List.length_append]
  refine ⟨?_, ?_, ?_, h.marked⟩
  · rw [hbytes, ← hn, h.held]
  · rw [hbytes, hn]
  · rw [hbytes, hlen, hn]

/-! ### The ring -/

/-- All that waits is moved into the ring when there is room for it. -/
theorem channelReceiveLoop_eq {fuel : ℕ} {l : OsdpLink} (total : ℤ) (hfuel : l.rxWaiting.length < fuel)
    (hfit : l.rxRb.contents.length + l.rxWaiting.length < osdpRxRbSize) :
    ∃ rb, channelReceiveLoop fuel l total =
        (total + l.rxWaiting.length, { l with rxRb := rb, rxWaiting := [] }) ∧
      rb.contents = l.rxRb.contents ++ l.rxWaiting := by
  induction fuel generalizing l total with
  | zero => omega
  | succ fuel ih =>
    by_cases hnil : l.rxWaiting = []
    · refine ⟨l.rxRb, ?_, by rw [hnil, List.append_nil]⟩
      have hl : { l with rxRb := l.rxRb, rxWaiting := [] } = l := by rw [← hnil]
      rw [hl, channelReceiveLoop, hnil]
      simp
    · obtain ⟨hcount, hcont⟩ := Ring.contents_pushBuf l.rxRb (l.rxWaiting.take 64)
      have hpos := List.length_pos_iff.2 hnil
      have hchunk : l.rxWaiting.take 64 ≠ [] := by
        rw [← List.length_pos_iff, List.length_take]
        omega
      have hroom : (l.rxWaiting.take 64).length ≤ osdpRxRbSize - 1 - l.rxRb.contents.length := by
        rw [List.length_take]
        omega
      rw [Nat.min_eq_left hroom] at hcount
      rw [List.take_of_length_le hroom] at hcont
      have hlen := congrArg List.length hcont
      rw [List.length_append] at hlen
      rw [channelReceiveLoop]
      simp only [if_neg hchunk, hcount, ne_eq, not_true_eq_false, if_false]
      by_cases hfull : (l.rxWaiting.take 64).length = 64
      · rw [if_pos hfull]
        rw [List.length_take] at hfull hlen
        obtain ⟨rb, hloop, hrb⟩ := ih (l := { l with
          rxRb := (l.rxRb.pushBuf (l.rxWaiting.take 64)).2
          rxWaiting := l.rxWaiting.drop 64 }) (total + 64)
          (by simp only [List.length_drop]; omega) (by simp only [List.length_drop]; omega)
        refine ⟨rb, ?_, ?_⟩
        · rw [hloop]
          simp only [List.length_drop]
          rw [show total + 64 + ((l.rxWaiting.length - 64 : ℕ) : ℤ) =
            total + (l.rxWaiting.length : ℤ) by omega]
        · rw [hrb, hcont, List.append_assoc, List.take_append_drop]
      · rw [if_neg hfull]
        rw [List.length_take] at hfull
        have hall : l.rxWaiting.length ≤ 64 := by omega
        refine ⟨(l.rxRb.pushBuf (l.rxWaiting.take 64)).2, ?_, ?_⟩
        · rw [List.drop_eq_nil_of_le hall, List.take_of_length_le hall]
        · rw [hcont, List.take_of_length_le hall]

theorem osdpChannelReceive_eq {l : OsdpLink}
    (hfit : l.rxRb.contents.length + l.rxWaiting.length < osdpRxRbSize) :
    ∃ rb, osdpChannelReceive l = ((l.rxWaiting.length : ℤ), { l with rxRb := rb, rxWaiting := [] }) ∧
      rb.contents = l.rxRb.contents ++ l.rxWaiting := by
  obtain ⟨rb, h, hrb⟩ := channelReceiveLoop_eq 0 (Nat.lt_succ_self _) hfit
  exact ⟨rb, by rw [osdpChannelReceive, h, Int.zero_add], hrb⟩

theorem Ring.pop_cons {α : Type*} {n : ℕ} {r : Ring α n} {a : α} {as : List α}
    (h : r.contents = a :: as) :
    ∃ r', r.pop = some (a, r') ∧ r'.contents = as := by
  rcases hp : r.pop with _ | ⟨b, r'⟩
  · rw [Ring.pop_eq_none_iff.1 hp] at h
    cases h
  · have hc := Ring.contents_pop hp
    rw [h] at hc
    cases hc
    exact ⟨r', rfl, rfl⟩

/-! ### The start of a packet -/

/-- The last of the bytes is a mark. -/
def endsInMark (noise : Bytes) : Bool := noise.getLast? == some osdpPktMark

@[simp] theorem endsInMark_nil : endsInMark [] = false := rfl

theorem endsInMark_cons_cons (a b : UInt8) (noise : Bytes) :
    endsInMark (a :: b :: noise) = endsInMark (b :: noise) := by
  rw [endsInMark, endsInMark, List.getLast?_cons_cons]

theorem endsInMark_zero_cons (noise : Bytes) : endsInMark (0 :: noise) = endsInMark noise := by
  rcases noise with _ | ⟨b, noise⟩
  · rfl
  · exact endsInMark_cons_cons 0 b noise

theorem endsInMark_append (a : Bytes) {b : Bytes} (h : endsInMark b = true) :
    endsInMark (a ++ b) = true := by
  rw [endsInMark, List.getLast?_append, show b.getLast? = some osdpPktMark from eq_of_beq h]
  rfl

/-- Bytes before the next start byte are skipped. The packet counts as marked when the byte before
its start byte was a mark and came in the same poll. -/
theorem scanStart_found {fuel : ℕ} {l : OsdpLink} {noise post : Bytes} (prev : UInt8)
    (hring : l.rxRb.contents = noise ++ osdpPktSom :: post) (hnoise : osdpPktSom ∉ noise)
    (hfuel : noise.length < fuel) :
    ∃ l', scanStart fuel l prev = (.ok (), l') ∧ l'.Holding (endsInMark (prev :: noise)) [osdpPktSom] ∧
      l'.rxRb.contents = post ∧ l'.rxWaiting = l.rxWaiting ∧ l'.packetLen = l.packetLen ∧
      l.SameRest l' := by
  induction noise generalizing fuel l prev with
  | nil =>
    obtain ⟨rb, hpop, hrb⟩ := Ring.pop_cons hring
    rcases fuel with _ | fuel
    · cases hfuel
    · rw [scanStart, hpop]
      exact ⟨_, if_pos rfl, OsdpLink.Holding.startPacket _ _, hrb, rfl, rfl, rfl⟩
  | cons b noise ih =>
    obtain ⟨rb, hpop, hrb⟩ := Ring.pop_cons hring
    rcases fuel with _ | fuel
    · cases hfuel
    · have hb : b ≠ osdpPktSom := fun h => hnoise (h ▸ List.mem_cons_self ..)
      rw [scanStart, hpop]
      simp only [if_neg hb]
      set l₁ : OsdpLink :=
        if b ≠ osdpPktMark then { l with rxRb := rb, packetScanSkip := l.packetScanSkip + 1 }
        else { l with rxRb := rb } with hl₁
      have hring₁ : l₁.rxRb.contents = noise ++ osdpPktSom :: post := by rw [hl₁]; split <;> exact hrb
      obtain ⟨l', hscan, hhold, hpost, hwait, hlen, hrest⟩ :=
        ih b hring₁ (fun h => hnoise (List.mem_cons_of_mem _ h)) (Nat.lt_of_succ_lt_succ hfuel)
      have hsame : l₁.rxWaiting = l.rxWaiting ∧ l₁.packetLen = l.packetLen ∧ l.SameRest l₁ := by
        rw [hl₁]
        split <;> exact ⟨rfl, rfl, rfl⟩
      rw [endsInMark_cons_cons]
      exact ⟨l', hscan, hhold, hpost, hwait.trans hsame.1, hlen.trans hsame.2.1, hsame.2.2.trans hrest⟩

/-- Without a start byte, everything is skipped. -/
theorem scanStart_none {fuel : ℕ} {l : OsdpLink} (prev : UInt8) (hring : osdpPktSom ∉ l.rxRb.contents)
    (hfuel : l.rxRb.contents.length < fuel) :
    ∃ l', scanStart fuel l prev = (.error .noData, l') ∧ l'.rxRb.contents = [] ∧
      l'.packetBufLen = l.packetBufLen ∧ l'.rxWaiting = l.rxWaiting ∧ l'.packetLen = l.packetLen ∧
      l.SameRest l' := by
  induction fuel generalizing l prev with
  | zero => cases hfuel
  | succ fuel ih =>
    rcases hc : l.rxRb.contents with _ | ⟨b, bs⟩
    · refine ⟨l, ?_, hc, rfl, rfl, rfl, rfl⟩
      rw [scanStart, Ring.pop_eq_none_iff.2 hc]
    · obtain ⟨rb, hpop, hrb⟩ := Ring.pop_cons hc
      rw [hc] at hring hfuel
      have hb : b ≠ osdpPktSom := fun h => hring (h ▸ List.mem_cons_self ..)
      rw [scanStart, hpop]
      simp only [if_neg hb]
      set l₁ : OsdpLink := if b ≠ osdpPktMark then
          { l with rxRb := rb, packetScanSkip := l.packetScanSkip + 1 }
            else { l with rxRb := rb } with hl₁
      have hring₁ : l₁.rxRb.contents = bs := by rw [hl₁]; split <;> exact hrb
      have hsame : l₁.packetBufLen = l.packetBufLen ∧ l₁.rxWaiting = l.rxWaiting ∧
          l₁.packetLen = l.packetLen ∧ l.SameRest l₁ := by
        rw [hl₁]
        split <;> exact ⟨rfl, rfl, rfl, rfl⟩
      obtain ⟨hbuf₁, hwait₁, hlen₁, hrest₁⟩ := hsame
      obtain ⟨l', hscan, hempty, hbuf, hwait, hlen, hrest⟩ := ih (l := l₁) b
        (by rw [hring₁]; exact fun h => hring (List.mem_cons_of_mem _ h))
        (by rw [hring₁]; exact Nat.lt_of_succ_lt_succ hfuel)
      exact ⟨l', hscan, hempty, hbuf.trans hbuf₁, hwait.trans hwait₁,
        hlen.trans hlen₁, hrest₁.trans hrest⟩

/-! ### One poll -/

/-- The packets that pass the look at their header: the length in it is not above that of the
buffer, and they go in the direction that is listened to. -/
structure OsdpFrame.Receivable (f : OsdpFrame) (pdMode : Bool) : Prop where
  len_le : f.len ≤ osdpPacketBufSize
  direction : ¬ (f.addr &&& 0x80 ≠ 0 ↔ pdMode)

/-- The packet has room in the packet buffer, with a mark before it if `m`. -/
def OsdpFrame.Fits (f : OsdpFrame) (m : Bool) : Prop := (markOf m).length + f.len ≤ osdpPacketBufSize

instance {f : OsdpFrame} {m : Bool} : Decidable (f.Fits m) := Nat.decLe _ _

theorem OsdpFrame.Fits.of_imp {f : OsdpFrame} {m m' : Bool} (h : f.Fits m) (himp : m' = true → m = true) :
    f.Fits m' := by
  unfold OsdpFrame.Fits at h ⊢
  rcases m' with _ | _
  · have := length_markOf m
    show 0 + f.len ≤ _
    omega
  · rw [himp rfl] at h
    exact h

/-- The receiver has taken in `bs` of the packet `f`. -/
inductive Partial (l : OsdpLink) (f : OsdpFrame) : Bytes → Prop
  | searching (hbuf : l.packetBufLen = 0) (hlen : l.packetLen = 0) : Partial l f []
  | header {m : Bool} {bs : Bytes} (hold : l.Holding m bs) (hpre : bs <+: f.body) (hne : bs ≠ [])
      (hshort : l.packetBufLen < 5) (hlen : l.packetLen = 0) (hroom : f.Fits m) : Partial l f bs
  | body {m : Bool} {bs : Bytes} (hold : l.Holding m bs) (hpre : bs <+: f.body)
      (hlong : 5 ≤ l.packetBufLen) (hshort : bs.length < f.len)
      (hlen : l.packetLen = (markOf m).length + f.len) (hroom : f.Fits m) : Partial l f bs

/-- Nothing differs in what the packet buffer holds. -/
structure OsdpLink.SameHeld (l l' : OsdpLink) : Prop where
  marked : l'.pktHasMark = l.pktHasMark
  bufLen : l'.packetBufLen = l.packetBufLen
  buf : l'.packetBuf = l.packetBuf
  len : l'.packetLen = l.packetLen

theorem OsdpLink.Holding.congr {l l' : OsdpLink} {m : Bool} {bs : Bytes} (h : l.Holding m bs)
    (hsame : l.SameHeld l') : l'.Holding m bs :=
  ⟨hsame.marked.trans h.marked, hsame.bufLen.trans h.bufLen, by rw [hsame.bufLen, hsame.buf, h.held]⟩

theorem Partial.congr {l l' : OsdpLink} {f : OsdpFrame} {bs : Bytes} (h : Partial l f bs)
    (hsame : l.SameHeld l') : Partial l' f bs := by
  cases h with
  | searching hbuf hlen => exact .searching (hsame.bufLen.trans hbuf) (hsame.len.trans hlen)
  | header hold hpre hne hshort hlen hroom =>
    exact .header (hold.congr hsame) hpre hne (hsame.bufLen ▸ hshort) (hsame.len.trans hlen) hroom
  | body hold hpre hlong hshort hlen hroom =>
    exact .body (hold.congr hsame) hpre (hsame.bufLen ▸ hlong) hshort (hsame.len.trans hlen) hroom

section OsdpPoll

variable {l : OsdpLink} {f : OsdpFrame} {m : Bool} {bs fut rest : Bytes}

/-- What is held, and then the ring, is the beginning of the packet and of what follows it. -/
def Ahead (l : OsdpLink) (f : OsdpFrame) (bs fut rest : Bytes) : Prop :=
  bs ++ l.rxRb.contents ++ fut = f.body ++ rest

theorem prefix_of_append {α : Type*} {a b c d : List α} (h : a ++ b = c ++ d)
    (hlen : a.length ≤ c.length) :
    a <+: c :=
  List.prefix_of_prefix_length_le (h ▸ List.prefix_append a b) (List.prefix_append c d) hlen

theorem len_ge (f : OsdpFrame) : 7 ≤ f.len := by
  unfold OsdpFrame.len
  omega

/-- Up to four bytes of the header, or of what comes behind it, are taken in; then the length is
looked at. -/
theorem checkHeader_eq (hold : l.Holding m bs) (hshort : l.packetBufLen < 5)
    (hmsg : f.msg ≠ []) (hf : f.Receivable l.pdMode) (hahead : Ahead l f bs fut rest) :
    ∃ l', checkHeader l =
        (if l'.packetBufLen < 5 then .error .wait else .ok ((markOf m).length + f.len), l') ∧
      l'.Holding m (bs ++ l.rxRb.contents.take 4) ∧ l'.rxRb.contents = l.rxRb.contents.drop 4 ∧
      bs ++ l.rxRb.contents.take 4 <+: f.body ∧ l'.rxWaiting = l.rxWaiting ∧ l'.packetLen = l.packetLen ∧
      l.SameRest l' := by
  obtain ⟨hpop, hdrop⟩ := Ring.contents_popBuf l.rxRb 4
  set cs := l.rxRb.contents with hcs
  have hhold := (hold.with_ring (l.rxRb.popBuf 4).2).collect (cs.take 4)
  have hlen8 : 8 ≤ f.len := by
    have := List.length_pos_iff.2 hmsg
    unfold OsdpFrame.len
    omega
  have hbl := hhold.bufLen
  have hpre : bs ++ cs.take 4 <+: f.body := by
    have hsplit : (bs ++ cs.take 4) ++ (cs.drop 4 ++ fut) = f.body ++ rest := by
      rw [← hahead, ← hcs, List.append_assoc, List.append_assoc, ← List.append_assoc (cs.take 4),
        List.take_append_drop]
    refine prefix_of_append hsplit ?_
    have hb := hold.bufLen
    rw [List.length_append, List.length_take, f.length_body]
    omega
  refine ⟨_, ?_, hhold, hdrop, hpre, rfl, rfl, rfl⟩
  have hroom : ¬ l.packetBufLen + (cs.take 4).length > osdpPacketBufSize := by
    unfold osdpPacketBufSize
    rw [List.length_take]
    omega
  unfold checkHeader
  simp only [hpop]
  rw [if_neg hroom]
  set l' := ({ l with rxRb := (l.rxRb.popBuf 4).2 } : OsdpLink).collect (cs.take 4) with hl'
  by_cases hlt : l'.packetBufLen < 5
  · rw [if_pos hlt, if_pos hlt]
  · have hge : 4 ≤ (bs ++ cs.take 4).length := by
      have hm := length_markOf m
      split at hm <;> omega
    have hget {i : ℕ} (hi : i < 4) : l'.pkt i = f.body.getD i 0 := by
      obtain ⟨tail, htail⟩ := hpre
      rw [hhold.pkt_eq (by omega), ← htail]
      exact (List.getD_append _ _ _ _ (by omega)).symm
    have hp0 : l'.pkt 0 = osdpPktSom := by rw [hget (by omega), f.body_eq]; rfl
    have hp1 : l'.pkt 1 = f.addr := by rw [hget (by omega), f.body_eq]; rfl
    have hp2 : l'.pkt 2 = UInt8.ofNat f.len := by rw [hget (by omega), f.body_eq]; rfl
    have hp3 : l'.pkt 3 = UInt8.ofNat (f.len / 256) := by rw [hget (by omega), f.body_eq]; rfl
    have hsize : f.len ≤ 256 := hf.len_le
    have hpl : (UInt8.ofNat (f.len / 256)).toNat * 256 + (UInt8.ofNat f.len).toNat = f.len := by
      rw [UInt8.toNat_ofNat', UInt8.toNat_ofNat']
      omega
    have hok : ¬ (f.len > osdpPacketBufSize ∨ f.len < 6 ∨ (f.addr &&& 0x80 ≠ 0 ↔ l'.pdMode)) := by
      rintro (h | h | h)
      · exact absurd hf.len_le (by omega)
      · omega
      · exact hf.direction h
    rw [if_neg hlt, if_neg hlt, hp0, hp1, hp2, hp3, hpl, if_neg (fun h => h rfl),
      if_neg hok, hhold.mark_eq, Nat.add_comm]

/-- The rest of the packet, or as much as has come. -/
theorem collectBody_eq (hold : l.Holding m bs) (hroom : f.Fits m) (hshort : bs.length ≤ f.len)
    (hlen : l.packetLen = (markOf m).length + f.len) (hahead : Ahead l f bs fut rest) :
    ∃ l', collectBody l =
        (if (bs ++ l.rxRb.contents).length < f.len then .error .wait else .ok (), l') ∧
      l'.Holding m (bs ++ l.rxRb.contents.take (f.len - bs.length)) ∧
      bs ++ l.rxRb.contents.take (f.len - bs.length) <+: f.body ∧
      l'.rxRb.contents = l.rxRb.contents.drop (f.len - bs.length) ∧
      l'.rxWaiting = l.rxWaiting ∧ l'.packetLen = l.packetLen ∧ l.SameRest l' := by
  obtain ⟨hpop, hdrop⟩ := Ring.contents_popBuf l.rxRb (f.len - bs.length)
  have hk : l.packetLen - l.packetBufLen = f.len - bs.length := by
    rw [hlen, hold.bufLen]
    omega
  have hhold := (hold.with_ring (l.rxRb.popBuf (f.len - bs.length)).2).collect
    (l.rxRb.contents.take (f.len - bs.length))
  have hbl := hhold.bufLen
  rw [List.length_append, List.length_take] at hbl
  have hsplit : (bs ++ l.rxRb.contents.take (f.len - bs.length)) ++
      (l.rxRb.contents.drop (f.len - bs.length) ++ fut) = f.body ++ rest := by
    rw [← hahead, List.append_assoc, List.append_assoc,
      ← List.append_assoc (l.rxRb.contents.take (f.len - bs.length)), List.take_append_drop]
  have hpre := prefix_of_append hsplit
    (by rw [List.length_append, List.length_take, f.length_body]; omega)
  refine ⟨_, ?_, hhold, hpre, hdrop, rfl, rfl, rfl⟩
  have hfits :
      ¬ l.packetBufLen + (l.rxRb.contents.take (f.len - bs.length)).length > osdpPacketBufSize := by
    unfold OsdpFrame.Fits at hroom
    rw [hold.bufLen, List.length_take]
    omega
  unfold collectBody
  simp only [hk, hpop]
  rw [if_neg hfits]
  refine congrArg₂ Prod.mk ?_ rfl
  rw [hbl, List.length_append]
  by_cases hall : bs.length + l.rxRb.contents.length < f.len
  · rw [if_pos hall, if_pos]
    show _ ≠ l.packetLen
    omega
  · rw [if_neg hall, if_neg]
    show ¬ _ ≠ l.packetLen
    omega

/-- With `fut` still to come on the line, the receiver is on its way to the packet `f`, and `rest`
is what comes after it. -/
def Expects (l : OsdpLink) (f : OsdpFrame) (fut rest : Bytes) : Prop :=
  ∃ noise bs, Partial l f bs ∧ osdpPktSom ∉ noise ∧ (noise = [] ∨ bs = []) ∧ f.Fits (endsInMark noise) ∧
    bs ++ l.rxRb.contents ++ fut = noise ++ f.body ++ rest

theorem checkHeader_cases (hold : l.Holding m bs) (hne : bs ≠ []) (hshort : l.packetBufLen < 5)
    (hlen : l.packetLen = 0) (hroom : f.Fits m) (hmsg : f.msg ≠ []) (hf : f.Receivable l.pdMode)
    (hahead : Ahead l f bs fut rest) :
    (∃ l' bs', checkHeader l = (.ok ((markOf m).length + f.len), l') ∧ l'.Holding m bs' ∧
      5 ≤ l'.packetBufLen ∧ bs' <+: f.body ∧ Ahead l' f bs' fut rest ∧ l'.rxWaiting = l.rxWaiting ∧
      l.SameRest l') ∨
    ∃ l', checkHeader l = (.error .wait, l') ∧ Expects l' f fut rest ∧ rest.length < fut.length ∧
      l'.rxWaiting = l.rxWaiting ∧ l.SameRest l' := by
  obtain ⟨l', hcheck, hhold, hring, hpre, hwait, hlen', hrest⟩ :=
    checkHeader_eq hold hshort hmsg hf hahead
  have hstream : (bs ++ l.rxRb.contents.take 4) ++ l'.rxRb.contents ++ fut = f.body ++ rest := by
    rw [hring, List.append_assoc bs, List.take_append_drop]
    exact hahead
  by_cases hlt : l'.packetBufLen < 5
  · refine .inr ⟨l', by rw [hcheck, if_pos hlt], ⟨[], bs ++ l.rxRb.contents.take 4, ?_, List.not_mem_nil,
      .inl rfl, hroom.of_imp nofun, hstream⟩, ?_, hwait, hrest⟩
    · exact .header hhold hpre (fun h => hne (List.append_eq_nil_iff.1 h).1) hlt (hlen'.trans hlen) hroom
    · have hb := hhold.bufLen
      have hl := congrArg List.length hahead
      have := len_ge f
      have hpos := List.length_pos_iff.2 hne
      simp only [List.length_append, List.length_take, f.length_body] at hb hl
      omega
  · exact .inl ⟨l', _,
      by rw [hcheck, if_neg hlt], hhold, Nat.le_of_not_lt hlt, hpre, hstream, hwait, hrest⟩

/-- The bytes before the packet are behind once its first byte is in the ring. -/
theorem ring_split {ring noise : Bytes} (hstream : ring ++ fut = noise ++ f.body ++ rest)
    (hlong : noise.length < ring.length) :
    ∃ post, ring = noise ++ osdpPktSom :: post ∧ osdpPktSom :: post ++ fut = f.body ++ rest := by
  rw [List.append_assoc] at hstream
  obtain ⟨post, hpost⟩ := prefix_of_append hstream.symm hlong.le
  rw [← hpost, List.append_assoc] at hstream
  have hbody := List.append_cancel_left hstream
  rcases post with _ | ⟨b, post⟩
  · rw [List.append_nil] at hpost
    rw [hpost] at hlong
    exact absurd hlong (Nat.lt_irrefl _)
  · have hb : b = osdpPktSom := by
      rw [f.body_eq] at hbody
      exact (List.cons.inj hbody).1
    rw [hb] at hpost hbody
    exact ⟨post, hpost.symm, hbody⟩

theorem phyCheckHeader_cases {noise : Bytes} (hbuf : l.packetBufLen = 0) (hlen : l.packetLen = 0)
    (hroom : f.Fits (endsInMark noise)) (hmsg : f.msg ≠ []) (hf : f.Receivable l.pdMode)
    (hnoise : osdpPktSom ∉ noise) (hstream : l.rxRb.contents ++ fut = noise ++ f.body ++ rest) :
    (∃ l' m bs', phyCheckHeader l = (.ok ((markOf m).length + f.len), l') ∧ l'.Holding m bs' ∧ f.Fits m ∧
      5 ≤ l'.packetBufLen ∧ bs' <+: f.body ∧ Ahead l' f bs' fut rest ∧ l'.rxWaiting = l.rxWaiting ∧
      l.SameRest l') ∨
    ∃ e l', phyCheckHeader l = (.error e, l') ∧ e ≠ .overrun ∧ Expects l' f fut rest ∧
      rest.length < fut.length ∧
      l'.rxWaiting = l.rxWaiting ∧ l.SameRest l' := by
  have hfuel : l.rxRb.contents.length < l.rxRb.size + 1 := by
    rw [Ring.length_contents]
    exact Nat.lt_succ_self _
  unfold phyCheckHeader
  rw [if_pos hbuf]
  by_cases hlong : noise.length < l.rxRb.contents.length
  · obtain ⟨post, hpost, hbody⟩ := ring_split hstream hlong
    have hfuel' : noise.length < l.rxRb.size + 1 := hlong.trans hfuel
    obtain ⟨l₁, hscan, hhold, hring, hwait, hlen₁, hrest⟩ := scanStart_found 0 hpost hnoise hfuel'
    rw [endsInMark_zero_cons] at hhold
    have hshort : l₁.packetBufLen < 5 := by
      have hm := length_markOf (endsInMark noise)
      rw [hhold.bufLen, List.length_singleton]
      split at hm <;> omega
    have hahead : Ahead l₁ f [osdpPktSom] fut rest := by
      unfold Ahead
      rw [hring]
      exact hbody
    rw [hscan]
    rcases checkHeader_cases hhold (List.cons_ne_nil _ _) hshort (hlen₁.trans hlen) hroom hmsg
      (hrest.pdMode ▸ hf) hahead with ⟨l', bs', hcheck, hh, h5, hpre, ha, hw, hr⟩ |
      ⟨l', hcheck, hex, hlt, hw, hr⟩
    · exact .inl ⟨l', _, bs', hcheck, hh, hroom, h5, hpre, ha, hw.trans hwait, hrest.trans hr⟩
    · exact .inr ⟨.wait, l', hcheck, nofun, hex, hlt, hw.trans hwait, hrest.trans hr⟩
  · rw [List.append_assoc] at hstream
    obtain ⟨more, hmore⟩ := prefix_of_append hstream (Nat.le_of_not_lt hlong)
    have hnone : osdpPktSom ∉ l.rxRb.contents := fun h => hnoise (hmore ▸ List.mem_append_left _ h)
    obtain ⟨l', hscan, hring, hbuf', hwait, hlen', hrest⟩ := scanStart_none 0 hnone hfuel
    have hfut : fut = more ++ (f.body ++ rest) := by
      rw [← hmore, List.append_assoc] at hstream
      exact List.append_cancel_left hstream
    refine .inr ⟨.noData, l', by rw [hscan], nofun, ⟨more, [],
      .searching (hbuf'.trans hbuf) (hlen'.trans hlen),
      fun h => hnoise (hmore ▸ List.mem_append_right _ h),
      .inr rfl, hroom.of_imp fun h => hmore ▸ endsInMark_append _ h, ?_⟩, ?_, hwait, hrest⟩
    · rw [hring, hfut, List.append_assoc more]
      rfl
    · have := len_ge f
      rw [hfut, List.length_append, List.length_append, f.length_body]
      omega

/-- After the header, the length of the packet is known or the poll ends. -/
theorem collectHeader_cases (hex : Expects l f fut rest) (hmsg : f.msg ≠ [])
    (hf : f.Receivable l.pdMode) :
    (∃ l' m bs', collectHeader l = (.ok (), l') ∧ l'.Holding m bs' ∧ f.Fits m ∧
      5 ≤ l'.packetBufLen ∧ bs' <+: f.body ∧
      l'.packetLen = (markOf m).length + f.len ∧ Ahead l' f bs' fut rest ∧ l'.rxWaiting = l.rxWaiting ∧
      l.SameRest l') ∨
    ∃ e l', collectHeader l = (.error e, l') ∧ e ≠ .overrun ∧ Expects l' f fut rest ∧
      rest.length < fut.length ∧
      l'.rxWaiting = l.rxWaiting ∧ l.SameRest l' := by
  obtain ⟨noise, bs, hpart, hnoise, hclean, hroom', hstream⟩ := hex
  unfold collectHeader
  cases hpart with
  | searching hbuf hlen =>
    rw [if_pos hlen]
    rcases phyCheckHeader_cases hbuf hlen hroom' hmsg hf hnoise hstream with
      ⟨l', m, bs', hcheck, hh, hroom, h5, hpre, ha, hw, hr⟩ | ⟨e, l', hcheck, he, hex, hlt, hw, hr⟩
    · exact .inl ⟨{ l' with packetLen := (markOf m).length + f.len, packetScanSkip := 0 }, m, bs',
        by rw [hcheck], ⟨hh.marked, hh.bufLen, hh.held⟩, hroom, h5, hpre, rfl, ha, hw, hr⟩
    · exact .inr ⟨e, l', by rw [hcheck], he, hex, hlt, hw, hr⟩
  | header hold hpre hne hshort hlen hroom =>
    rename_i m
    have hahead : Ahead l f bs fut rest := by
      rcases hclean with hn | hb
      · rw [hn] at hstream
        exact hstream
      · exact absurd hb hne
    have hbuf : l.packetBufLen ≠ 0 := by
      have := List.length_pos_iff.2 hne
      rw [hold.bufLen]
      omega
    rw [if_pos hlen, phyCheckHeader, if_neg hbuf]
    rcases checkHeader_cases hold hne hshort hlen hroom hmsg hf hahead with
      ⟨l', bs', hcheck, hh, h5, hpre', ha, hw, hr⟩ | ⟨l', hcheck, hex, hlt, hw, hr⟩
    · exact .inl ⟨{ l' with packetLen := (markOf m).length + f.len, packetScanSkip := 0 }, m, bs',
        by rw [hcheck], ⟨hh.marked, hh.bufLen, hh.held⟩, hroom, h5, hpre', rfl, ha, hw, hr⟩
    · exact .inr ⟨.wait, l', by rw [hcheck], nofun, hex, hlt, hw, hr⟩
  | body hold hpre hlong hshort hlen hroom =>
    rename_i m
    have hahead : Ahead l f bs fut rest := by
      rcases hclean with hn | hb
      · rw [hn] at hstream
        exact hstream
      · rw [hb] at hold
        have hm := length_markOf m
        have hl := hold.bufLen
        rw [List.length_nil] at hl
        split at hm <;> omega
    have hpos : l.packetLen ≠ 0 := by
      have := len_ge f
      omega
    rw [if_neg hpos]
    exact .inl ⟨l, m, bs, rfl, hold, hroom, hlong, hpre, hlen, hahead, rfl, rfl⟩

/-- A poll begins with what waits on the line: it is moved into the ring, and the time may be noted.
-/
theorem collectPacket_receive (now : ℤ)
    (hfit : l.rxRb.contents.length + l.rxWaiting.length < osdpRxRbSize) :
    ∃ l', collectPacket now l =
        (match collectHeader l' with
          | (.error e, l) => (.error e, l)
          | (.ok (), l) => collectBody l) ∧
      l'.rxRb.contents = l.rxRb.contents ++ l.rxWaiting ∧ l'.rxWaiting = [] ∧ l.SameHeld l' ∧
      l.SameRest l' := by
  obtain ⟨rb, hrecv, hrb⟩ := osdpChannelReceive_eq hfit
  set l₁ : OsdpLink := { l with rxRb := rb, rxWaiting := [] } with hl₁
  refine ⟨if l₁.pdMode ∧ l₁.packetBufLen = 0 ∧ ((l.rxWaiting.length : ℕ) : ℤ) > 0 then
    { l₁ with tstamp := now } else l₁, ?_, ?_⟩
  · unfold collectPacket
    rewrite [hrecv]
    rfl
  · split <;> exact ⟨hrb, rfl, ⟨rfl, rfl, rfl, rfl⟩, rfl⟩

/-- A poll takes in what waits on the line. It ends with the whole packet in the buffer as soon as
all that is still to come lies behind the packet, and otherwise goes on with what it has. -/
theorem collectPacket_step (now : ℤ) (hex : Expects l f (l.rxWaiting ++ fut) rest) (hmsg : f.msg ≠ [])
    (hf : f.Receivable l.pdMode) (hfit : l.rxRb.contents.length + l.rxWaiting.length < osdpRxRbSize) :
    ∃ l', l'.rxWaiting = [] ∧ l.SameRest l' ∧
      if fut.length ≤ rest.length then
        collectPacket now l = (.ok (), l') ∧ (∃ m, l'.Holds { f with marked := m }) ∧
          l'.rxRb.contents ++ fut = rest
      else (∃ e, e ≠ .overrun ∧ collectPacket now l = (.error e, l')) ∧ Expects l' f fut rest := by
  obtain ⟨l₂, hpoll, hring₂, hwait₂, hheld₂, hrest₂⟩ := collectPacket_receive now hfit
  have hex₂ : Expects l₂ f fut rest := by
    obtain ⟨noise, bs, hpart, hnoise, hclean, hroom, hstream⟩ := hex
    refine ⟨noise, bs, hpart.congr hheld₂, hnoise, hclean, hroom, ?_⟩
    rw [hring₂, ← hstream, List.append_assoc, List.append_assoc, List.append_assoc]
  rw [hpoll]
  rcases collectHeader_cases hex₂ hmsg (hrest₂.pdMode ▸ hf) with
    ⟨l₃, m, bs, hhead, hold, hroom, h5, hpre, hlen, hahead, hwait₃, hrest₃⟩ |
    ⟨e, l₃, hhead, he, hex₃, hlt, hwait₃, hrest₃⟩
  · have hle : bs.length ≤ f.len := by
      rw [← f.length_body]
      exact hpre.length_le
    obtain ⟨l', hbody, hold', hpre', hring', hwait', hlen', hrest'⟩ :=
      collectBody_eq hold hroom hle hlen hahead
    rw [hhead]
    simp only [hbody]
    refine ⟨l', hwait'.trans (hwait₃.trans hwait₂), hrest₂.trans (hrest₃.trans hrest'), ?_⟩
    have hl := congrArg List.length hahead
    have hstream : bs ++ l₃.rxRb.contents.take (f.len - bs.length) ++ l'.rxRb.contents ++ fut =
        f.body ++ rest := by
      rw [hring', List.append_assoc bs, List.take_append_drop]
      exact hahead
    simp only [List.length_append, f.length_body] at hl
    by_cases hall : fut.length ≤ rest.length
    · have hwhole : bs ++ l₃.rxRb.contents.take (f.len - bs.length) = f.body := by
        refine hpre'.eq_of_length ?_
        rw [List.length_append, List.length_take, f.length_body]
        omega
      rw [hwhole] at hold' hstream
      rw [if_pos hall, if_neg (by rw [List.length_append]; omega)]
      refine ⟨rfl, ⟨m, hold'.holds ?_⟩, ?_⟩
      · rw [hlen', hlen, hold'.bufLen, f.length_body]
      · rw [List.append_assoc] at hstream
        exact List.append_cancel_left hstream
    · rw [if_neg hall, if_pos (by rw [List.length_append]; omega)]
      refine ⟨⟨_, PktErr.noConfusion, rfl⟩, [], _, .body hold' hpre' ?_ ?_ (hlen'.trans hlen) hroom,
        List.not_mem_nil, .inl rfl, hroom.of_imp nofun, hstream⟩
      · have h₃ := hold.bufLen
        have h' := hold'.bufLen
        rw [List.length_append] at h'
        omega
      · rw [List.length_append, List.length_take]
        omega
  · rw [hhead]
    refine ⟨l₃, hwait₃.trans hwait₂, hrest₂.trans hrest₃, ?_⟩
    rw [if_neg (by omega)]
    exact ⟨⟨e, he, rfl⟩, hex₃⟩

end OsdpPoll

/-! ### A run of polls -/

/-- One poll: the time, and the bytes that came on the line since the poll before. -/
structure OsdpPoll where
  now : ℤ
  bytes : Bytes

/-- A poll of the receiver, unless it overruns the packet buffer. A whole packet is handed on and
taken out of the buffer. -/
def receivePoll (p : OsdpPoll) (l : OsdpLink) : Option (Option Bytes × OsdpLink) :=
  match collectPacket p.now { l with rxWaiting := l.rxWaiting ++ p.bytes } with
  | (.error e, l) => if e = .overrun then none else some (none, l)
  | (.ok (), l) => some (some ((l.packetBuf.take l.packetLen).drop l.mark), osdpPhyStateReset l false)

/-- No poll of the run brings more bytes than the ring has room for. -/
def RingFits : List OsdpPoll → OsdpLink → Prop
  | [], _ => True
  | p :: ps, l => l.rxRb.contents.length + p.bytes.length < osdpRxRbSize ∧
    ∀ r ∈ receivePoll p l, RingFits ps r.2

instance RingFits.decidable : ∀ ps l, Decidable (RingFits ps l)
  | [], _ => .isTrue trivial
  | p :: ps, l =>
    have := fun r : Option Bytes × OsdpLink => RingFits.decidable ps r.2
    inferInstanceAs (Decidable (_ ∧ ∀ r ∈ receivePoll p l, RingFits ps r.2))

/-- Packets that a receiver takes, with no start byte between them. Where the last byte before a
packet is a mark, there has to be room for it. -/
def Clean (pdMode : Bool) (fs : List (Bytes × OsdpFrame)) : Prop :=
  ∀ f ∈ fs, osdpPktSom ∉ f.1 ∧ f.2.msg ≠ [] ∧ f.2.Receivable pdMode ∧ f.2.Fits (endsInMark f.1)

section Run

variable {l : OsdpLink} {fs : List (Bytes × OsdpFrame)} {fut tail : Bytes}

theorem Clean.congr {l l' : OsdpLink} (hrest : l.SameRest l') (h : Clean l.pdMode fs) :
    Clean l'.pdMode fs := by
  rw [hrest.pdMode]
  exact h

end Run

end LeafReader
