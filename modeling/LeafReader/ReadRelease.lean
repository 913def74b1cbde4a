import LeafReader.ResponseBounds

/-!
# What a failed read leaves in the caller's buffer

Plain and CMAC reads copy the data before they look at the status or the MAC. `releasesNothing_iff`
says on which responses a failure nevertheless leaves the caller's memory alone: always for the UID,
in encrypted mode unless the checks on the length wrap, elsewhere when the status is good, the MAC
right and the data no longer than `verify`, or nothing is copied.
-/

namespace LeafReader

variable (aes : Aes)

/-- The array already starts with `d` and the length is that of `d`, where the pointers are given. -/
def Out.Holds (o : Out) (d : Bytes) : Prop :=
  (∀ b, o.resp = some b → d <+: b) ∧ ∀ n, o.respLen = some n → n = d.length

theorem Out.put_eq_self_iff {o : Out} {d : Bytes} : o.put d = o ↔ o.Holds d := by
  obtain ⟨resp, len⟩ := o
  rw [put, mk.injEq, Holds]
  refine and_congr ?_ ?_
  · cases resp with
    | none => simp
    | some b =>
      simp only [Option.map_some, Option.some.injEq, forall_eq']
      constructor
      · intro h
        exact ⟨_, h⟩
      · rintro ⟨t, rfl⟩
        simp
  · cases len with
    | none => simp
    | some n => simp [eq_comm]

/-- The read is defined, and leaves the caller's `out` alone if it ends with anything but `ESP_OK`. -/
def Releases (out : Out) (e : Except Fault (Call Unit EspErr)) : Prop :=
  ∃ c, e = .ok c ∧ (c.ret ≠ .ok → c.out = out)

def ReleasesNothing (r : LinkResult) (fileNo : UInt8) (offset length : UInt32) (comm : CommMode)
    (out : Out) (outBuf : Nat) (uid : Bytes) (w : World Unit) : Prop :=
  Releases out (desfireReadData aes (answering r) fileNo offset length comm out outBuf w) ∧
    Releases ⟨some uid, none⟩ (desfireGetUid aes (answering r) uid w)

/-- With the length asked for, eight bytes or more go through `verify[256]`, and what has a wrong
MAC is in the caller's memory anyway. -/
def MacChecked (out : Out) (w : World Unit) (st : UInt8) (d : Bytes) : Prop :=
  out.respLen ≠ none → 8 ≤ d.length →
    out.resp ≠ none ∧ d.length ≤ 257 ∧ (¬ MacMatches aes w.bumpCtr.host st d → out.Holds d)

/-- A response that is copied and then refused is what the caller's memory holds anyway, and none
leads past an array. -/
def ReadFits (r : LinkResult) (length : UInt32) (comm : CommMode) (out : Out) (outBuf : Nat)
    (w : World Unit) : Prop :=
  match comm with
  | .plain => ∀ st d, r.parse = some (st, d) → d.length ≤ outBuf → st ≠ 0x00 → out.Holds d
  | .cmac => w.host.session.authenticated = true → ∀ st d, r.parse = some (st, d) → d.length ≤ outBuf →
    if st = 0x00 ∨ st = 0xAF then MacChecked aes out w st d else out.Holds d
  | .encrypted => w.host.session.authenticated = true → length.toNat ≤ outBuf →
    ¬ ∃ p ∈ r.accept [0x00] 280, RecvOverruns aes w.host length.toNat p.2

section

variable (r : LinkResult) (fileNo : UInt8) (offset length : UInt32) (out : Out) (outBuf : Nat)
  (w : World Unit)

/-- What the exchange left, by what the response parses to. -/
theorem receive_of_parse {st : UInt8} {d : Bytes} (hp : r.parse = some (st, d)) :
    receive out outBuf w r =
      if d.length ≤ outBuf then ⟨some st, out.put d, w.setStatus st⟩
      else ⟨none, out, w.setStatus st⟩ := by
  rw [receive, hp]

theorem releases_ok {c : Call Unit EspErr} : Releases out (.ok c) ↔ (c.ret ≠ .ok → c.out = out) := by
  simp [Releases]

theorem not_releases_error {f : Fault} : ¬ Releases out (.error f) := by
  simp [Releases]

theorem readPlain_releases_iff :
    Releases out (desfireReadData aes (answering r) fileNo offset length .plain out outBuf w) ↔
      ReadFits aes r length .plain out outBuf w := by
  have hx : desfireReadData aes (answering r) fileNo offset length .plain out outBuf w =
      .ok (ofStatus (receive out outBuf w r)) := by
    rw [desfireReadData, desfireXfer_eq _ _ _ _ _ (by simp)]
    rfl
  rw [hx, releases_ok, ReadFits]
  cases hp : r.parse with
  | none => simp [receive, hp, ofStatus]
  | some p =>
    obtain ⟨st, d⟩ := p
    rw [receive_of_parse r out outBuf w hp]
    by_cases hd : d.length ≤ outBuf
    · simp [hd, ofStatus, Out.put_eq_self_iff]
    · simp [hd, ofStatus]

/-- Of the CMAC check: it is defined, and a failure has copied `d`. -/
theorem cmacVerify_releases_iff (st : UInt8) (d : Bytes) :
    Releases out (cmacVerify aes st (out.put d) w.bumpCtr) ↔ MacChecked aes out w st d := by
  rw [MacChecked, ← Out.put_eq_self_iff]
  obtain ⟨_ | buf, _ | n⟩ := out
  · simp [cmacVerify, Out.put, Releases]
  · by_cases h8 : d.length < 8
    · simp [cmacVerify, Out.put, Releases, h8, Nat.not_le.2 h8]
    · simp [cmacVerify, Out.put, Releases, h8, Nat.le_of_not_gt h8]
  · simp [cmacVerify, Out.put, Releases]
  · rw [cmacVerify_put]
    by_cases h8 : d.length < 8
    · simp [Releases, h8, Nat.not_le.2 h8]
    by_cases h257 : 257 < d.length
    · simp [Releases, h8, h257, Nat.not_le.2 h257, Nat.le_of_not_gt h8]
    by_cases hm : MacMatches aes w.bumpCtr.host st d
    · simp [Releases, h8, h257, hm, Nat.le_of_not_gt h8, Nat.le_of_not_gt h257]
    · simp [Releases, h8, h257, hm, Nat.le_of_not_gt h8, Nat.le_of_not_gt h257]

theorem readCmac_releases_iff :
    Releases out (desfireReadData aes (answering r) fileNo offset length .cmac out outBuf w) ↔
      ReadFits aes r length .cmac out outBuf w := by
  cases hauth : w.host.session.authenticated with
  | false => simp [desfireReadData, hauth, ReadFits, Releases]
  | true =>
    have hx : desfireReadData aes (answering r) fileNo offset length .cmac out outBuf w =
        cmacFinish aes (receive out outBuf w r) := by
      rw [desfireReadData_cmac_of_auth _ _ hauth, cmacAppendAndSend_sent _ _ _ _ _ (by simp)]
      rfl
    simp only [hx, ReadFits, hauth, forall_const]
    cases hacc : r.accept [0x00, 0xAF] outBuf with
    | none =>
      rw [cmacFinish_of_reject aes out w hacc, releases_ok]
      simp only [ne_eq, reduceCtorEq, not_false_eq_true, forall_const]
      cases hp : r.parse with
      | none => simp [receive, hp]
      | some p =>
        obtain ⟨st, d⟩ := p
        rw [receive_of_parse r out outBuf w hp]
        by_cases hd : d.length ≤ outBuf
        · have hst : ¬ (st = 0x00 ∨ st = 0xAF) := by
            have h := LinkResult.accept_eq_none.1 hacc st d hp
            rintro (rfl | rfl) <;> exact h (by simp) hd
          simp [hd, hst, Out.put_eq_self_iff]
        · simp [hd]
    | some p =>
      obtain ⟨st, d⟩ := p
      obtain ⟨hp, hg, hd⟩ := LinkResult.accept_eq_some.1 hacc
      have hst : st = 0x00 ∨ st = 0xAF := by simpa using hg
      rw [cmacFinish_of_accept aes out w hacc, cmacVerify_releases_iff aes out (w.setStatus st)]
      simp only [hp, Option.some.injEq, Prod.mk.injEq, and_imp]
      constructor
      · rintro h _ _ rfl rfl -
        rw [if_pos hst]
        exact h
      · intro h
        have h' := h st d rfl rfl hd
        rwa [if_pos hst] at h'

theorem readEncrypted_releases_iff :
    Releases out (desfireReadData aes (answering r) fileNo offset length .encrypted out outBuf w) ↔
      ReadFits aes r length .encrypted out outBuf w := by
  cases hauth : w.host.session.authenticated with
  | false =>
    rw [desfireReadData, hauth, ReadFits, hauth]
    exact iff_of_true ⟨_, rfl, fun _ => rfl⟩ (by simp)
  | true =>
    rw [desfireReadData_encrypted_of_auth _ _ hauth, ReadFits]
    simp only [hauth, forall_const]
    by_cases hbad : length = 0 ∨ length.toNat > outBuf
    · rw [if_pos hbad]
      refine iff_of_true ⟨_, rfl, fun _ => rfl⟩ ?_
      rintro hb ⟨p, -, hp⟩
      rcases hbad with rfl | hbad
      · exact not_recvOverruns aes (by simp) hp
      · exact absurd hb (Nat.not_le.2 hbad)
    · rw [if_neg hbad]
      have hb : length.toNat ≤ outBuf := by omega
      rcases desfireEncRecv_cases aes (answering r) 0xBD out w hauth
        (show (fileHeader fileNo offset length).length ≤ 64 by simp) hb with
        ⟨hover, he⟩ | ⟨hno, c, hc, -, -, -, hret⟩
      · rw [he]
        exact iff_of_false (not_releases_error out) fun h => h hb hover
      · rw [hc]
        refine iff_of_true ⟨_, rfl, fun hne => ?_⟩ fun _ => hno
        rcases hret with ⟨-, hout⟩ | ⟨hok, -⟩
        · exact hout
        · exact absurd (if_pos hok) hne

/-- The UID is 7 bytes: no check wraps. -/
theorem getUid_releases (uid : Bytes) :
    Releases ⟨some uid, none⟩ (desfireGetUid aes (answering r) uid w) := by
  cases hauth : w.host.session.authenticated with
  | false =>
    rw [desfireGetUid, hauth]
    exact ⟨_, rfl, fun _ => rfl⟩
  | true =>
    rw [desfireGetUid_of_auth _ _ hauth]
    rcases desfireEncRecv_cases aes (answering r) 0x51 (.buf 7) w hauth
      (show ([] : Bytes).length ≤ 64 by simp) (Nat.le_refl 7) with ⟨⟨p, -, hp⟩, -⟩ | ⟨-, c, hc, -⟩
    · exact absurd hp (not_recvOverruns aes (by omega))
    · rw [hc]
      show Releases _ (.ok (if c.ret ≠ some 0x00 ∨ c.out.bytes.length ≠ 7 then _ else _))
      split
      · exact ⟨_, rfl, fun _ => rfl⟩
      · exact ⟨_, rfl, fun hne => absurd rfl hne⟩

end

/-- A read is defined and, if it fails, leaves the caller's memory as it was, exactly if no response
is copied that is then refused and none leads past an array. -/
theorem releasesNothing_iff (r : LinkResult) (fileNo : UInt8) (offset length : UInt32) (comm : CommMode)
    (out : Out) (outBuf : Nat) (uid : Bytes) (w : World Unit) :
    ReleasesNothing aes r fileNo offset length comm out outBuf uid w ↔
      ReadFits aes r length comm out outBuf w := by
  rw [ReleasesNothing, and_iff_left (getUid_releases aes r w uid)]
  cases comm with
  | plain => exact readPlain_releases_iff aes r fileNo offset length out outBuf w
  | cmac => exact readCmac_releases_iff aes r fileNo offset length out outBuf w
  | encrypted => exact readEncrypted_releases_iff aes r fileNo offset length out outBuf w

/-- A plain read answered with status 0xAE and four bytes of data. -/
theorem not_releasesNothing_plain :
    ¬ ReleasesNothing Aes128.aes128 (.answer 0xAE [1, 2, 3, 4]) 1 0 4 .plain (.buf 16) 16 []
      ⟨zeroHost, ()⟩ := by
  rintro ⟨h, -⟩
  rw [readPlain_releases_iff] at h
  have hput := h 0xAE [1, 2, 3, 4] (LinkResult.parse_answer _ (by simp)) (by simp) (by simp)
  have hlen := hput.2 0 rfl
  simp at hlen

end LeafReader
